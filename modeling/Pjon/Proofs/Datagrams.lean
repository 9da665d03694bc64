import Pjon.Proofs.MetaData
import Pjon.Proofs.DualUDP
import Pjon.Spec.Datagrams
import Mathlib.Data.List.ReduceOption
/-!
# Frames that are shorter than their headers say

The strategies parse a frame of more than four bytes before its length or its checksums are
looked at.  They stay within what they received exactly when the frame is as long as the fields
that its header announces, and 12 bytes longer with `PJON_INCLUDE_MAC`.
-/

namespace Pjon.Proofs.Datagrams

open Pjon.Lib Pjon.Model Pjon.Spec Pjon.Spec.DatagramCall Pjon.Proofs.Deliver
open Pjon.Proofs.MetaData Pjon.Proofs.DualUDP

/-! ## How far the parser reaches -/

/-- Where there are no MAC addresses to be copied, the last field of the packet is read, if it has
one behind its length. -/
theorem last_mem_parseReads (b : Build) (header : UInt8) :
    Tools.macIndex b header ≤ 5 ∨ Tools.macIndex b header - 1 ∈ Tools.parseReads b header := by
  by_cases hport : (b.includePort && has header portBit) = true
  · have hlast : Tools.macIndex b header = Tools.portIndex b header + 2 := by
      rw [Tools.macIndex, if_pos hport]
    exact Or.inr (mem_parseReads.mpr
      (Or.inr (Or.inr (Or.inr (Or.inr (Or.inl ⟨hport, by omega, by omega⟩))))))
  · have hmac : Tools.macIndex b header = Tools.portIndex b header := by
      rw [Tools.macIndex, if_neg hport]
    by_cases hid : (b.includePacketId && has header packetIdBit) = true
    · have hlast : Tools.portIndex b header = Tools.idIndex b header + 2 := by
        rw [Tools.portIndex, if_pos hid]
      exact Or.inr (mem_parseReads.mpr
        (Or.inr (Or.inr (Or.inr (Or.inl ⟨hid, by omega, by omega⟩)))))
    · have hportIndex : Tools.portIndex b header = Tools.idIndex b header := by
        rw [Tools.portIndex, if_neg hid]
      by_cases hinfo : has header txInfoBit = true
      · have hlast : Tools.idIndex b header = Tools.txIndex b header + 1 := by
          rw [Tools.idIndex, if_pos hinfo]
        exact Or.inr (mem_parseReads.mpr (Or.inr (Or.inr (Or.inl ⟨hinfo, by omega⟩))))
      · have hidIndex : Tools.idIndex b header = Tools.txIndex b header := by
          rw [Tools.idIndex, if_neg hinfo]
        by_cases hmode : (!b.pjonLocal && has header modeBit) = true
        · have hlast : Tools.txIndex b header = Tools.hopsIndex header + 1 := by
            rw [Tools.txIndex, if_pos hmode]
          exact Or.inr (mem_parseReads.mpr
            (Or.inr (Or.inl ⟨hmode, Or.inr (Or.inr (by omega))⟩)))
        · have htxIndex : Tools.txIndex b header = Tools.busIndex header := by
            rw [Tools.txIndex, if_neg hmode]
          have hbus : Tools.busIndex header ≤ 5 := by
            unfold Tools.busIndex
            cases has header extLenBit <;> decide
          exact Or.inl (by omega)

theorem reads_inside_iff (b : Build) (header : UInt8) {n : Nat} (hn : 4 < n) :
    (∀ i ∈ Tools.parseReads b header, i < n) ↔ Tools.parsedLength b header ≤ n := by
  constructor
  · intro h
    unfold Tools.parsedLength
    split_ifs with hmac
    · exact h _ (mac_mem_parseReads header hmac)
    · rcases last_mem_parseReads b header with hshort | hlast
      · omega
      · have hread := h _ hlast
        omega
  · intro h i hi
    exact Nat.lt_of_lt_of_le (lt_parsedLength hi) h

/-! ## What is parsed -/

variable {α : Type}

/-- Whatever is asked of a call of `parse_header` is asked of the frame that it is made for. -/
def ParsedFor (P : UInt8 → Nat → Prop) (parsings : List Parsing) (frames : List (List UInt8))
    (registers : Bool) : Prop :=
  (∀ parsing ∈ parsings, P (parsing.packet 1) parsing.received) ↔
    (registers = true → ∀ s ∈ frames, 4 < s.length → P (header s) s.length)

variable {P : UInt8 → Nat → Prop}

theorem parsedFor_nil (registers : Bool) : ParsedFor P [] [] registers :=
  ⟨fun _ _ _ hs => absurd hs List.not_mem_nil, fun _ _ hp => absurd hp List.not_mem_nil⟩

theorem ParsedFor.append {parsings parsings' : List Parsing} {frames frames' : List (List UInt8)}
    {registers : Bool} (h : ParsedFor P parsings frames registers)
    (h' : ParsedFor P parsings' frames' registers) :
    ParsedFor P (parsings ++ parsings') (frames ++ frames') registers := by
  unfold ParsedFor at *
  simp only [List.forall_mem_append]
  rw [h, h', ← forall_and]

theorem store_header (data : Memory) {s : List UInt8} (hlong : 4 < s.length) :
    data.store 0 s 1 = header s := by
  have hread := Memory.store_inside data 0 s (show 1 < s.length by omega)
  rwa [Nat.zero_add] at hread

theorem parsedFor_single (data : Memory) (s : List UInt8) (registers : Bool) :
    ParsedFor P
      (if registers && decide (4 < s.length) then
        [{ packet := data.store 0 s, received := s.length }] else []) [s] registers := by
  cases registers with
  | false =>
      exact ⟨fun _ h => absurd h Bool.false_ne_true, fun _ p hp => absurd hp List.not_mem_nil⟩
  | true =>
      by_cases hlong : 4 < s.length
      · rw [decide_eq_true hlong, Bool.and_self, if_pos rfl]
        unfold ParsedFor
        simp only [List.forall_mem_singleton, forall_const, hlong]
        rw [store_header data hlong]
      · rw [decide_eq_false hlong]
        refine ⟨fun _ _ t ht hlong' => ?_, fun _ p hp => absurd hp List.not_mem_nil⟩
        rw [List.mem_singleton.mp ht] at hlong'
        exact absurd hlong' hlong

/-! ## The response that is waited for -/

/-- A response is too short to be parsed. -/
theorem ParsedFor.of_response {parsings : List Parsing} {frame : Option (List UInt8)}
    {registers : Bool} (h : ParsedFor P parsings frame.toList registers)
    (hshort : ∀ s ∈ frame, s.length ≤ 4) : ParsedFor P parsings [] registers := by
  refine h.trans ⟨fun _ _ s hs => absurd hs List.not_mem_nil, fun _ _ s hs hlong => ?_⟩
  have hlength := hshort s (Option.mem_toList.mp hs)
  omega

/-- The frames in front of the response, one more of them. -/
theorem frames_cons (answers : Option (List UInt8) → Bool) (frame : Option (List UInt8))
    (later : List (Option (List UInt8))) (h : answers frame = false) :
    ((frame :: later).takeWhile fun frame => !answers frame).reduceOption =
      frame.toList ++ (later.takeWhile fun frame => !answers frame).reduceOption := by
  rw [List.takeWhile_cons_of_pos (by rw [h]; rfl)]
  cases frame with
  | none => exact List.reduceOption_cons_of_none _
  | some s => exact List.reduceOption_cons_of_some _ _

theorem frames_of_answer (answers : Option (List UInt8) → Bool) (frame : Option (List UInt8))
    (later : List (Option (List UInt8))) (h : answers frame = true) :
    ((frame :: later).takeWhile fun frame => !answers frame).reduceOption = [] := by
  rw [List.takeWhile_cons_of_neg (by rw [h]; exact Bool.false_ne_true)]
  rfl

/-- The loop of `receive_response`, by induction on its turns.  Whether senders are registered does
not change. -/
theorem parsedFor_awaitAck {σ ι : Type} {receiveFrame : σ → ι → Received σ}
    {frame : ι → Option (List UInt8)} {registration : σ → Bool}
    (hbytes : ∀ strategy poll, (receiveFrame strategy poll).bytes = frame poll)
    (hkeeps : ∀ strategy poll,
      registration (receiveFrame strategy poll).strategy = registration strategy)
    (hparsed : ∀ strategy poll, ParsedFor P (receiveFrame strategy poll).parsings
      (frame poll).toList (registration strategy))
    (polls : List ι) (strategy : σ) :
    ParsedFor P (awaitAck receiveFrame strategy polls).parsings
      ((polls.map frame).takeWhile fun frame => !isAck frame).reduceOption
      (registration strategy) := by
  induction polls generalizing strategy with
  | nil => exact parsedFor_nil _
  | cons poll polls ih =>
      have hrest := ih (receiveFrame strategy poll).strategy
      rw [hkeeps] at hrest
      rw [awaitAck, List.map_cons]
      simp only [hbytes]
      by_cases hack : frame poll = some [UInt8.ofNat ack]
      · rw [if_pos hack, frames_of_answer isAck _ _ (by rw [isAck, hack]; rfl)]
        apply (hparsed strategy poll).of_response
        intro s hs
        rw [hack] at hs
        obtain rfl := Option.some.inj hs
        decide
      · rw [if_neg hack, frames_cons isAck _ _ (by rw [isAck]; exact beq_false_of_ne hack)]
        exact (hparsed strategy poll).append hrest

/-! ## The strategies -/

section DualUDP

variable (host : DualUDP.Host)

theorem parsedFor_dualUDP (data : Memory) (arrival : Option (DualUDP.Datagram α))
    (maxLength : Nat) :
    ParsedFor P (DualUDP.Strategy.parsings host data arrival maxLength)
      (taken host.helper arrival maxLength).toList true := by
  cases arrival with
  | none => exact parsedFor_nil true
  | some datagram =>
      cases htakes : host.helper.takes maxLength datagram.bytes.length with
      | false =>
          simp only [DualUDP.Strategy.parsings, taken, Option.map_some, Option.filter_some, htakes,
            Bool.false_eq_true, if_false]
          exact parsedFor_nil true
      | true =>
          have hsingle := parsedFor_single (P := P) data datagram.bytes true
          simpa only [DualUDP.Strategy.parsings, taken, Option.map_some, Option.filter_some, htakes,
            if_true, Bool.true_and, decide_eq_true_eq, Option.toList_some] using hsingle

theorem receiveFrame_bytes (strategy : DualUDP.Strategy α) (data : Memory)
    (arrival : Option (DualUDP.Datagram α)) (maxLength : Nat) :
    (strategy.receiveFrame host data arrival maxLength).1 =
      taken host.helper arrival maxLength := by
  cases arrival with
  | none => rfl
  | some datagram =>
      cases htakes : host.helper.takes maxLength datagram.bytes.length with
      | false =>
          simp only [DualUDP.Strategy.receiveFrame, taken, Option.map_some, Option.filter_some,
            htakes, Bool.false_eq_true, if_false]
      | true =>
          simp only [DualUDP.Strategy.receiveFrame, taken, Option.map_some, Option.filter_some,
            htakes, if_true]

/-- The loop of `receive_response` ends with the response that it waits for. -/
theorem responseParsings_cons (strategy : DualUDP.Strategy α) (poll : DualUDP.Listening α)
    (polls : List (DualUDP.Listening α)) :
    strategy.responseParsings host (poll :: polls) =
      DualUDP.Strategy.parsings host poll.result poll.arrival 10 ++
        if confirms strategy.lastOutSenderId (taken host.helper poll.arrival 10) then []
        else (strategy.receiveFrame host poll.result poll.arrival 10).2.responseParsings host
          polls := by
  have hlast := receiveFrame_lastOut host strategy poll.result poll.arrival 10
  rw [DualUDP.Strategy.responseParsings, ← receiveFrame_bytes host strategy poll.result]
  congr 1
  generalize strategy.receiveFrame host poll.result poll.arrival 10 = received at *
  obtain ⟨bytes, next⟩ := received
  split
  · rename_i receiverId senderId code next' heq
    obtain ⟨rfl, rfl⟩ := Prod.mk.inj heq
    have hsame : next.lastOutSenderId = strategy.lastOutSenderId := hlast
    rw [hsame]
    by_cases hother : receiverId = strategy.lastOutSenderId
    · by_cases hcode : code.toNat = ack
      · simp [confirms, hother, hcode]
      · simp [confirms, hother, hcode]
    · simp [confirms, hother]
  · rename_i next' hshape heq
    obtain ⟨rfl, rfl⟩ := Prod.mk.inj heq
    have hother : confirms strategy.lastOutSenderId bytes = false := by
      unfold confirms
      split
      · rename_i receiverId senderId code
        exact absurd rfl (hshape receiverId senderId code)
      · rfl
    simp only [hother, Bool.false_eq_true, if_false]

theorem confirms_short {lastOutSenderId : UInt8} {frame : Option (List UInt8)}
    (h : confirms lastOutSenderId frame = true) : ∀ s ∈ frame, s.length ≤ 4 := by
  intro s hs
  obtain rfl := Option.mem_def.mp hs
  unfold confirms at h
  split at h
  · rename_i heq
    rw [Option.some.inj heq]
    exact Nat.le_succ 3
  · cases h

theorem parsedFor_dualUDPResponse (polls : List (DualUDP.Listening α))
    (strategy : DualUDP.Strategy α) :
    ParsedFor P (strategy.responseParsings host polls)
      ((polls.map fun poll => taken host.helper poll.arrival 10).takeWhile
        fun frame => !confirms strategy.lastOutSenderId frame).reduceOption true := by
  induction polls generalizing strategy with
  | nil => exact parsedFor_nil true
  | cons poll polls ih =>
      have hparsed := parsedFor_dualUDP (P := P) host poll.result poll.arrival 10
      have hrest := ih (strategy.receiveFrame host poll.result poll.arrival 10).2
      rw [receiveFrame_lastOut] at hrest
      rw [responseParsings_cons, List.map_cons]
      cases hconfirms : confirms strategy.lastOutSenderId (taken host.helper poll.arrival 10) with
      | true =>
          rw [if_pos rfl, List.append_nil, frames_of_answer _ _ _ hconfirms]
          exact hparsed.of_response (confirms_short hconfirms)
      | false =>
          rw [if_neg Bool.false_ne_true, frames_cons _ _ _ hconfirms]
          exact hparsed.append hrest

end DualUDP

/-! ## Registration -/

section GlobalUDP

variable (settings : GlobalUDP.Settings) (strategy : GlobalUDP.Strategy α)

theorem globalUDP_bytes (data : Memory) (arrival : Option (DualUDP.Datagram α)) (maxLength : Nat) :
    (strategy.receiveFrame settings data arrival maxLength).bytes =
      taken settings.helper arrival maxLength := by
  cases arrival with
  | none => rfl
  | some datagram =>
      cases htakes : settings.helper.takes maxLength datagram.bytes.length with
      | false =>
          simp only [GlobalUDP.Strategy.receiveFrame, taken, Option.map_some, Option.filter_some,
            htakes, Bool.false_eq_true, if_false]
      | true =>
          simp only [GlobalUDP.Strategy.receiveFrame, taken, Option.map_some, Option.filter_some,
            htakes, if_true]

theorem globalUDP_registration (data : Memory) (arrival : Option (DualUDP.Datagram α))
    (maxLength : Nat) :
    (strategy.receiveFrame settings data arrival maxLength).strategy.autoRegistration =
      strategy.autoRegistration := by
  unfold GlobalUDP.Strategy.receiveFrame GlobalUDP.Strategy.autoregisterSender
    GlobalUDP.Strategy.addNode
  grind

theorem parsedFor_globalUDP (data : Memory) (arrival : Option (DualUDP.Datagram α))
    (maxLength : Nat) :
    ParsedFor P (strategy.receiveFrame settings data arrival maxLength).parsings
      (taken settings.helper arrival maxLength).toList strategy.autoRegistration := by
  cases arrival with
  | none => exact parsedFor_nil _
  | some datagram =>
      cases htakes : settings.helper.takes maxLength datagram.bytes.length with
      | false =>
          simp only [GlobalUDP.Strategy.receiveFrame, taken, Option.map_some, Option.filter_some,
            htakes, Bool.false_eq_true, if_false]
          exact parsedFor_nil _
      | true =>
          have hsingle := parsedFor_single (P := P) data datagram.bytes strategy.autoRegistration
          simp only [GlobalUDP.Strategy.receiveFrame, taken, Option.map_some, Option.filter_some,
            htakes, if_true, Option.toList_some]
          unfold GlobalUDP.Strategy.autoregisterSender
          rw [apply_ite Prod.snd]
          exact hsingle

end GlobalUDP

section ESPNOW

variable [DecidableEq α] (settings : ESPNOW.Settings) (strategy : ESPNOW.Strategy α)

theorem espnow_bytes (data : Memory) (arrival : Option (ESPNOW.Packet α)) (maxLength : Nat) :
    (strategy.receiveFrame settings data arrival maxLength).bytes =
      arrival.bind fun packet => packet.receiveFrame maxLength := by
  cases arrival with
  | none => rfl
  | some packet =>
      unfold ESPNOW.Strategy.receiveFrame
      simp only [Option.bind_some]
      cases packet.receiveFrame maxLength
      · rfl
      · rfl

theorem espnow_registration (data : Memory) (arrival : Option (ESPNOW.Packet α))
    (maxLength : Nat) :
    (strategy.receiveFrame settings data arrival maxLength).strategy.autoRegistration =
      strategy.autoRegistration := by
  unfold ESPNOW.Strategy.receiveFrame ESPNOW.Strategy.autoregisterSender ESPNOW.Strategy.addNode
  grind

theorem parsedFor_espnow (data : Memory) (arrival : Option (ESPNOW.Packet α)) (maxLength : Nat) :
    ParsedFor P (strategy.receiveFrame settings data arrival maxLength).parsings
      (arrival.bind fun packet => packet.receiveFrame maxLength).toList
      strategy.autoRegistration := by
  cases arrival with
  | none => exact parsedFor_nil _
  | some packet =>
      unfold ESPNOW.Strategy.receiveFrame
      simp only [Option.bind_some]
      cases packet.receiveFrame maxLength with
      | none => exact parsedFor_nil _
      | some bytes =>
          have hsingle := parsedFor_single (P := P) data bytes strategy.autoRegistration
          simp only [Option.map_some, Option.toList_some]
          unfold ESPNOW.Strategy.autoregisterSender
          rw [apply_ite Prod.snd]
          exact hsingle

end ESPNOW

theorem parsedFor_call [DecidableEq α] (call : DatagramCall α) :
    ParsedFor P call.parsings call.frames call.registers := by
  cases call with
  | dualUDP host strategy data arrival maxLength =>
      exact parsedFor_dualUDP host data arrival maxLength
  | dualUDPResponse host strategy polls => exact parsedFor_dualUDPResponse host polls strategy
  | globalUDP settings strategy data arrival maxLength =>
      exact parsedFor_globalUDP settings strategy data arrival maxLength
  | globalUDPResponse settings strategy polls =>
      exact parsedFor_awaitAck
        (fun strategy poll => globalUDP_bytes settings strategy poll.result poll.arrival 8)
        (fun strategy poll => globalUDP_registration settings strategy poll.result poll.arrival 8)
        (fun strategy poll => parsedFor_globalUDP settings strategy poll.result poll.arrival 8)
        polls strategy
  | espnow settings strategy data arrival maxLength =>
      exact parsedFor_espnow settings strategy data arrival maxLength
  | espnowResponse settings strategy polls =>
      exact parsedFor_awaitAck
        (fun strategy poll => espnow_bytes settings strategy poll.1 poll.2 _)
        (fun strategy poll => espnow_registration settings strategy poll.1 poll.2 _)
        (fun strategy poll => parsedFor_espnow settings strategy poll.1 poll.2 _) polls strategy

/-- The header parser stays within what was received exactly when each frame that it is called for
is complete. -/
theorem readsInside_iff [DecidableEq α] (call : DatagramCall α) :
    call.ReadsInside ↔ call.Complete := by
  have hparsed : ParsedFor (fun header n => ∀ i ∈ Tools.parseReads call.build header, i < n)
      call.parsings call.frames call.registers := parsedFor_call call
  apply hparsed.trans
  unfold DatagramCall.Complete HoldsMetaData
  refine forall_congr' fun _ => forall_congr' fun s => forall_congr' fun _ =>
    forall_congr' fun hlong => reads_inside_iff call.build (header s) hlong

/-- Five bytes whose header announces bus ids, hops and a sender. -/
def cutShort : List UInt8 := [45, 3, 5, 0, 0]

def cutShortCall : DatagramCall UInt8 :=
  .dualUDP
    { build := defaultBuild, room := defaultBuild_room, counted := defaultBuild_counted } {}
    (fun _ => 0) (some { source := 1, destination := none, bytes := cutShort }) 50

/-- The id of the sender is looked for behind the end of the datagram. -/
theorem cutShort_read_outside : ¬∀ call : DatagramCall UInt8, call.ReadsInside := by
  intro h
  have hread := h cutShortCall _ List.mem_cons_self 13 (by decide)
  exact absurd hread (by decide)

end Pjon.Proofs.Datagrams
