import Pjon.Spec.SingleSocket
import Pjon.Proofs.EthernetLink
/-!
# The packets of a single socket

What the calls of a session write, and what `receive` and `send` are as processes: on every client
they do what the functions of the link do there.
-/

namespace Pjon.Proofs.SingleSocket

open Pjon.Lib Pjon.Model Pjon.Model.EthernetTCP Pjon.Spec

/-! ## What is written -/

def packetHead (call : TransferCall) : List UInt8 :=
  call.id :: Word.bytes (Word.swap (UInt32.ofNat call.length))

def frame (call : TransferCall) : List UInt8 :=
  Word.bytes (Word.swap etcpHeader) ++ packetHead call ++ call.contents.getD [] ++
    Word.bytes (Word.swap etcpFooter)

/-- The frame, the acknowledgement and the callback that a call leads to, if it has a packet. -/
def frameOf (call : TransferCall) : List UInt8 := if 0 < call.length then frame call else []

def ackOf (call : TransferCall) : List UInt8 := if 0 < call.length then [0, 6] else []

def callback (call : TransferCall) : LinkEvent := .received call.id (call.contents.getD [])

def callbackOf (call : TransferCall) : List LinkEvent :=
  if 0 < call.length then [callback call] else []

/-! ## On a client -/

theorem length_readRounds_le (rounds : List Round) (length : Nat) (client : TCPHelperClient) :
    (TCPHelperClient.readRounds rounds length client).bytes.length ≤ length := by
  induction rounds generalizing length client with
  | nil => exact Nat.zero_le _
  | cons round rounds ih =>
      cases round with
      | lost => exact Nat.zero_le _
      | available count =>
          have htaken : (client.incoming.take (min count length)).length ≤ length :=
            (List.length_take_le _ _).trans (Nat.min_le_right _ _)
          simp only [TCPHelperClient.readRounds]
          split
          · rw [List.length_append]
            have hrest := ih (length - (client.incoming.take (min count length)).length)
              { client with
                incoming := client.incoming.drop (client.incoming.take (min count length)).length }
            omega
          · exact htaken

theorem length_readBytes_le (length : Nat) (client : TCPHelperClient) :
    (client.readBytes length).bytes.length ≤ length % 65536 := by
  unfold TCPHelperClient.readBytes
  split
  · exact length_readRounds_le _ _ _
  · exact Nat.zero_le _

theorem readBytes_mod (length : Nat) (client : TCPHelperClient) :
    client.readBytes (length % 65536) = client.readBytes length := by
  unfold TCPHelperClient.readBytes
  rw [Nat.mod_mod]

theorem result_readBytes {length : Nat} (hlength : length < 32768) (client : TCPHelperClient) :
    (client.readBytes length).result = (client.readBytes length).bytes.length := by
  have hle := length_readBytes_le length client
  exact EthernetLink.bmod_of_lt (by omega)

/-- A part that neither writes nor calls. -/
theorem perform_bind {α γ : Type} {p : Talk α} {client client' : TCPHelperClient} {result : α}
    (h : perform p client = { result := result, client := client' }) (f : α → Talk γ) :
    perform (p.bind f) client = perform (f result) client' := by
  induction p generalizing client with
  | done a =>
      obtain ⟨rfl, rfl⟩ : a = result ∧ client = client' := by
        simpa only [perform, Performance.mk.injEq, true_and] using h
      rfl
  | read count next ih => exact ih _ h
  | seek pattern next ih => exact ih _ h
  | write items next ih =>
      simp only [perform, Performance.mk.injEq, List.append_eq_nil_iff] at h
      obtain ⟨hresult, hevents, ⟨rfl, hwritten⟩, hclient⟩ := h
      exact ih true (by rw [← hresult, ← hclient, ← hevents, ← hwritten])
  | call event next ih =>
      simp only [perform, Performance.mk.injEq, reduceCtorEq, false_and, and_false] at h

theorem perform_readItems (count : Nat) (client : TCPHelperClient) :
    perform (Process.readItems count : Talk (List UInt8)) client =
      { result := (client.readBytes count).bytes, client := (client.readBytes count).client } := rfl

theorem perform_readUntilHeader (header : UInt32) (client : TCPHelperClient) :
    perform (Talk.readUntilHeader header) client =
      { result := (client.readUntilHeader header).1
        client := (client.readUntilHeader header).2 } := by
  have hpattern : Word.swap (Word.ofBytes (Word.bytes (Word.swap header))) = header := by
    rw [Word.ofBytes_bytes, Word.swap_swap]
  simp only [Talk.readUntilHeader, Process.seekPattern, perform, hpattern]

theorem perform_readWord (word : UInt32) (client : TCPHelperClient) :
    perform (Talk.readWord word) client =
      { result := (client.readBytes 4).result = 4 ∧
          Word.store 0 0 (client.readBytes 4).bytes = Word.swap word
        client := (client.readBytes 4).client } := by
  have hresult := result_readBytes (show 4 < 32768 by decide) client
  have hfour : ((client.readBytes 4).result = 4) = ((client.readBytes 4).bytes.length = 4) := by
    rw [hresult]
    exact propext (by omega)
  simp only [Talk.readWord, Process.readItems, Process.bind_eq, Process.bind, perform,
    Process.pure_eq, hfour, Bool.decide_and, beq_eq_decide]

/-- `receive` is the one that is known for every client. -/
theorem perform_receive (settings : Settings) (client : TCPHelperClient) :
    let link : Link := { ackRequested := true, singleSocket := true, requestAck := true }
    let reception := link.receive settings false client { available := 1 }
    perform (Talk.receive settings) client =
      { result := reception.result
        events := reception.delivered.toList.map fun packet => .received packet.1 packet.2
        written := reception.written, client := reception.client } := by
  intro link reception
  have hzero : ¬settings.maxPacketSize < (0 : UInt32).toNat := Nat.not_lt_zero _
  unfold reception Link.receive
  rw [if_neg (by decide)]
  simp only [Talk.receive, Process.bind_eq]
  rw [perform_bind (perform_readUntilHeader etcpHeader client)]
  rcases hsearch : client.readUntilHeader etcpHeader with ⟨found, behind⟩
  cases found with
  | false =>
      have hhead : client.readHead = { ok := false, client := behind } := by
        simp only [TCPHelperClient.readHead, hsearch, Bool.false_eq_true, if_false]
      rw [hhead]
      rfl
  | true =>
      have hfive := result_readBytes (show 5 < 32768 by decide) behind
      rw [if_pos rfl, perform_bind (perform_readItems 5 behind)]
      obtain ⟨read, hread⟩ : ∃ read, read = behind.readBytes 5 := ⟨_, rfl⟩
      obtain ⟨contentLength, hlength⟩ : ∃ contentLength, contentLength =
          Word.swap (Word.store 0 0 (read.bytes.drop 1)) := ⟨_, rfl⟩
      simp only [← hread, ← hlength] at hfive ⊢
      by_cases hshort : read.bytes.length = 5
      · have hresult : ¬read.result ≠ 5 := by omega
        have hhead : client.readHead =
            { ok := contentLength ≠ 0, senderId := read.bytes.getD 0 0
              contentLength := contentLength, client := read.client } := by
          simp only [TCPHelperClient.readHead, hsearch, if_true, ← hread, if_neg hresult, ← hlength]
        rw [hhead]
        by_cases hlong : settings.maxPacketSize < contentLength.toNat
        · rw [if_pos (Or.inr (Or.inr hlong)), if_pos hlong]
          rfl
        rw [if_neg hlong]
        by_cases hempty : contentLength = 0
        · rw [if_pos (Or.inr (Or.inl hempty)), decide_eq_false (not_not.mpr hempty)]
          rfl
        rw [decide_eq_true hempty, if_neg (by
          rintro (h | h | h)
          · exact h hshort
          · exact hempty h
          · exact hlong h), perform_bind (perform_readItems _ _), readBytes_mod]
        obtain ⟨contents, hcontents⟩ : ∃ contents, contents =
            read.client.readBytes contentLength.toNat := ⟨_, rfl⟩
        have hresult' : (contents.bytes.length : Int).bmod 65536 = contents.result := rfl
        simp only [PacketReading.readContents, if_true, ← hcontents, hresult']
        by_cases hcount : contents.result % 4294967296 = contentLength.toNat
        · rw [if_neg (not_not.mpr hcount), perform_bind (perform_readWord _ _),
            decide_eq_true hcount]
          by_cases hfoot : (contents.client.readBytes 4).result = 4 ∧
              Word.store 0 0 (contents.client.readBytes 4).bytes = Word.swap etcpFooter
          · simp only [PacketReading.readFooter, if_true, decide_eq_true hfoot]
            rfl
          · simp only [PacketReading.readFooter, if_true, decide_eq_false hfoot,
              Bool.false_eq_true, if_false]
            rfl
        · rw [if_pos hcount, decide_eq_false hcount]
          rfl
      · have hresult : read.result ≠ 5 := by omega
        have hhead : client.readHead = { ok := false, client := read.client } := by
          simp only [TCPHelperClient.readHead, hsearch, if_true, ← hread, if_pos hresult]
        rw [hhead, if_pos (Or.inl hshort)]
        rfl

/-- The writes of a packet are its frame. -/
theorem frame_eq (settings : Settings) (call : TransferCall) : frame call =
    (if settings.hasEthernetUDP then
      [Word.bytes (Word.swap etcpHeader) ++ [call.id] ++
        Word.bytes (Word.swap (UInt32.ofNat call.length)), call.contents.getD [],
        Word.bytes (Word.swap etcpFooter)]
    else [Word.bytes (Word.swap etcpHeader) ++ [call.id] ++
      Word.bytes (Word.swap (UInt32.ofNat call.length)) ++ call.contents.getD [] ++
        Word.bytes (Word.swap etcpFooter)] : List (List UInt8)).flatten := by
  split <;> simp [frame, packetHead]

theorem perform_writeAll {α : Type} (writes : List (List UInt8)) (f : Bool → Talk α)
    (client : TCPHelperClient) : perform ((Talk.writeAll writes).bind f) client =
      { perform (f true) client with
        written := writes.flatten ++ (perform (f true) client).written } := by
  induction writes with
  | nil => rfl
  | cons items rest ih =>
      have hperform : perform ((Talk.writeAll (items :: rest)).bind f) client =
          { perform ((Talk.writeAll rest).bind f) client with
            written := items ++ (perform ((Talk.writeAll rest).bind f) client).written } := rfl
      rw [hperform, ih, List.flatten_cons, List.append_assoc]

/-- So is `send`, where all is written. -/
theorem perform_send {settings : Settings} {packet : Payload}
    (hfits : settings.hasEthernetUDP ∨ packet.length + 13 < 65536) (id : UInt8)
    (client : TCPHelperClient) {outgoing : Outgoing}
    (htakes : ∀ k, packet.length + 13 ≤ outgoing.takes k) :
    let link : Link := { ackRequested := true, singleSocket := true, requestAck := true }
    let performance := perform (Talk.send settings { id := id, contents := some packet.bytes }) client
    link.send settings client outgoing id packet = some
      { result := performance.result, written := performance.written
        client := performance.client } := by
  intro link performance
  have hroom : (!settings.hasEthernetUDP && decide (65536 ≤ 9 + packet.length + 4)) = false := by
    rcases hfits with hbuild | hfits
    · rw [hbuild]
      rfl
    · rw [decide_eq_false (by omega), Bool.and_false]
  have hlength : (frame { id := id, contents := some packet.bytes }).length =
      packet.length + 13 := by
    simp only [frame, packetHead, List.length_append, Word.length_bytes, List.length_cons,
      Option.getD_some, Payload.length]
    omega
  have hwrites : ∀ {writes : List (List UInt8)},
      frame { id := id, contents := some packet.bytes } = writes.flatten →
        writeAll outgoing.takes writes = (true, writes.flatten) := by
    intro writes hwrites
    refine EthernetLink.writeAll_taken fun k bytes hbytes => ?_
    have hle := (List.sublist_flatten_of_mem hbytes).length_le
    rw [← hwrites, hlength] at hle
    exact hle.trans (htakes k)
  have hall := hwrites (frame_eq settings { id := id, contents := some packet.bytes })
  have htwo : ∀ read : Read, read = client.readBytes 2 →
      (read.result = 2 ∧ read.bytes = [0, 6]) = (read.bytes = [0, 6]) := by
    rintro read rfl
    have hresult := result_readBytes (show 2 < 32768 by decide) client
    refine propext ⟨fun h => h.2, fun h => ⟨?_, h⟩⟩
    rw [hresult, h]
    rfl
  unfold performance Talk.send Link.send
  simp only [TransferCall.length, Option.getD_some, Payload.length] at hall hroom ⊢
  simp only [Process.bind_eq, perform_writeAll, link, Bool.not_true, Bool.false_and,
    Bool.false_eq_true, if_false, hroom, hall, if_true, htwo _ rfl,
    perform_bind (perform_readItems 2 client), Process.pure_eq, perform, List.append_nil]

end Pjon.Proofs.SingleSocket
