import Pjon.Spec.Transfers
import Mathlib.Data.List.Forall2
/-!
# What the Ethernet link transfers

Each read takes its bytes off the stream, and the search for the header is that of a window over
it.  So every frame is read to its end, as long as the number of bytes that `read_bytes` returns
is not negative.
-/

namespace Pjon.Proofs.EthernetLink

open Pjon.Lib Pjon.Model Pjon.Model.EthernetTCP Pjon.Spec

/-! ## Reading -/

/-- What a read takes off the stream. -/
structure Takes (read : Read) (bytes rest : List UInt8) : Prop where
  bytes_eq : read.bytes = bytes
  prompt : Prompt read.client
  rest_eq : read.client.incoming = rest

theorem readRounds_offered {rounds : List Round} {length : Nat} {client : TCPHelperClient}
    (hkept : Round.lost ∉ rounds) (hoffered : length ≤ offered rounds)
    (hlength : length ≤ client.incoming.length) :
    TCPHelperClient.readRounds rounds length client =
      { bytes := client.incoming.take length
        client := { client with incoming := client.incoming.drop length } } := by
  induction rounds generalizing length client with
  | nil =>
      obtain rfl : length = 0 := Nat.le_zero.mp hoffered
      rfl
  | cons round rounds ih =>
      obtain ⟨hround, hrounds⟩ := not_or.mp (fun h => hkept (List.mem_cons.mpr h))
      cases round with
      | lost => exact absurd rfl hround
      | available count =>
          rw [offered] at hoffered
          have htaken : (client.incoming.take (min count length)).length = min count length := by
            rw [List.length_take]
            omega
          simp only [TCPHelperClient.readRounds, htaken]
          by_cases hmore : count < length
          · rw [Nat.min_eq_left hmore.le, if_pos hmore, ih hrounds (by omega)
              (by simp only [List.length_drop]; omega)]
            simp only [List.drop_drop, ← List.take_add, Nat.add_sub_cancel' hmore.le]
          · rw [Nat.min_eq_right (Nat.le_of_not_lt hmore), if_neg (Nat.lt_irrefl length)]

theorem readBytes_takes {client : TCPHelperClient} (hprompt : Prompt client)
    {bytes rest : List UInt8}
    {length : Nat} (hincoming : client.incoming = bytes ++ rest) (hlength : bytes.length = length)
    (hlt : length < 65536) : Takes (client.readBytes length) bytes rest := by
  have hread : client.readBytes length =
      { bytes := bytes
        client := { client with incoming := rest, rounds := fun k => client.rounds (k + 1) } } := by
    rw [TCPHelperClient.readBytes, if_pos hprompt.connected, Nat.mod_eq_of_lt hlt,
      readRounds_offered (hprompt.kept 0) (by have := hprompt.timely 0; omega)
        (by simp only [hincoming, List.length_append]; omega)]
    simp only [hincoming, ← hlength, List.take_left, List.drop_left]
  rw [hread]
  exact ⟨rfl, ⟨hprompt.connected, fun k => hprompt.kept (k + 1), fun k => hprompt.timely (k + 1)⟩,
    rfl⟩

/-! ## Finding the header -/

theorem resync_takes {header head : UInt32} {client : TCPHelperClient} (hprompt : Prompt client)
    {rest : List UInt8} (hhead : head ≠ header)
    (hscan : Scan.resync (Word.bytes header) (Word.bytes head) client.incoming = some rest) :
    ∃ client', client.resync header head = (true, client') ∧ Prompt client' ∧
      client'.incoming = rest := by
  generalize hstream : client.incoming = stream at hscan
  have hpattern : Word.bytes head ≠ Word.bytes header := fun heq => hhead (Word.bytes_inj.mp heq)
  induction stream generalizing head client with
  | nil =>
      rw [Scan.resync, if_neg hpattern] at hscan
      exact absurd hscan (Option.some_ne_none rest).symm
  | cons b stream ih =>
      rw [Scan.resync, if_neg hpattern, ← Word.bytes_store_shift] at hscan
      have htakes : Takes (client.readBytes 1) [b] stream :=
        readBytes_takes hprompt (by rw [hstream]; rfl) rfl (by decide)
      rw [TCPHelperClient.resync]
      simp only [htakes.bytes_eq]
      by_cases hfound : Word.store (head >>> 8) 3 [b] = header
      · rw [if_neg (not_not.mpr hfound)]
        rw [hfound, Scan.resync_of_eq rfl] at hscan
        exact ⟨_, rfl, htakes.prompt, htakes.rest_eq.trans (Option.some.inj hscan)⟩
      · rw [if_pos hfound]
        exact ih htakes.prompt hfound htakes.rest_eq hscan
          (fun heq => hfound (Word.bytes_inj.mp heq))

theorem readUntilHeader_takes {header : UInt32} {client : TCPHelperClient} (hprompt : Prompt client)
    {index : Nat} (hfirst : Scan.FirstAt (Word.bytes (Word.swap header)) client.incoming index) :
    ∃ client', client.readUntilHeader header = (true, client') ∧ Prompt client' ∧
      client'.incoming = client.incoming.drop (index + 4) := by
  have hlength := hfirst.length_le (List.cons_ne_nil _ _)
  rw [Word.length_bytes] at hlength
  have hwindow : (client.incoming.take 4).length = 4 := by
    rw [List.length_take]
    omega
  have htakes : Takes (client.readBytes 4) (client.incoming.take 4) (client.incoming.drop 4) :=
    readBytes_takes hprompt (List.take_append_drop 4 _).symm hwindow (by decide)
  have hbytes : Word.bytes (Word.store 0 0 (client.incoming.take 4)) = client.incoming.take 4 :=
    Word.bytes_store_all 0 hwindow
  have hscan : Scan.resync (Word.bytes (Word.swap header)) (client.incoming.take 4)
      (client.incoming.drop 4) = some (client.incoming.drop (index + 4)) := by
    have hwhole := List.take_append_drop 4 client.incoming
    rw [← hwhole] at hfirst
    have hstop := Scan.resync_of_firstAt
      (hwindow.trans (Word.length_bytes (Word.swap header)).symm) (List.cons_ne_nil _ _) hfirst
    rw [hwhole] at hstop
    exact hstop
  simp only [TCPHelperClient.readUntilHeader, htakes.bytes_eq, hwindow, ne_eq, not_true, false_or]
  by_cases hfound : Word.store 0 0 (client.incoming.take 4) = Word.swap header
  · rw [if_neg (not_not.mpr hfound)]
    rw [← hbytes, hfound, Scan.resync_of_eq rfl] at hscan
    exact ⟨_, rfl, htakes.prompt, htakes.rest_eq.trans (Option.some.inj hscan)⟩
  · rw [if_pos hfound]
    rw [← hbytes, ← htakes.rest_eq] at hscan
    exact resync_takes htakes.prompt hfound hscan

/-! ## Frames -/

/-- The frame of a parcel. -/
def frame (parcel : Parcel) : List UInt8 :=
  etcpPattern ++ ([parcel.id] ++ Word.bytes (Word.swap (UInt32.ofNat parcel.contents.length))) ++
    parcel.contents.bytes ++ Word.bytes (Word.swap etcpFooter)

theorem firstAt_frame (parcel : Parcel) : Scan.FirstAt etcpPattern (frame parcel) 0 where
  here := by
    rw [List.drop_zero, frame, List.append_assoc, List.append_assoc]
    exact List.prefix_append _ _
  before := fun i hi => absurd hi (Nat.not_lt_zero i)

theorem writeAll_taken {takes : Nat → Nat} {writes : List (List UInt8)}
    (h : ∀ k, ∀ bytes ∈ writes, bytes.length ≤ takes k) :
    writeAll takes writes = (true, writes.flatten) := by
  induction writes generalizing takes with
  | nil => rfl
  | cons bytes writes ih =>
      rw [writeAll, if_pos (h 0 bytes List.mem_cons_self),
        ih fun k bytes' hbytes' => h (k + 1) bytes' (List.mem_cons_of_mem _ hbytes')]
      rfl

theorem send_written (settings : Settings) (link : Link) (client : TCPHelperClient)
    (parcel : Parcel) {outgoing : Outgoing} (hwaiting : outgoing.waiting = false)
    (htakes : ∀ k, 65548 ≤ outgoing.takes k) :
    ((link.send settings client outgoing parcel.id parcel.contents).map
        fun sending => sending.written) =
      if !settings.hasEthernetUDP && decide (65536 ≤ 9 + parcel.contents.length + 4) then none
      else some (frame parcel) := by
  have hlength := parcel.contents.length_lt
  rw [Link.send]
  simp only [hwaiting, Bool.and_false, Bool.false_eq_true, if_false]
  cases hroom : !settings.hasEthernetUDP && decide (65536 ≤ 9 + parcel.contents.length + 4) with
  | true => rfl
  | false =>
      have hwrite : (writeAll outgoing.takes
          (if settings.hasEthernetUDP then
            [Word.bytes (Word.swap etcpHeader) ++ [parcel.id] ++
              Word.bytes (Word.swap (UInt32.ofNat parcel.contents.length)),
              parcel.contents.bytes, Word.bytes (Word.swap etcpFooter)]
          else
            [Word.bytes (Word.swap etcpHeader) ++ [parcel.id] ++
              Word.bytes (Word.swap (UInt32.ofNat parcel.contents.length)) ++
              parcel.contents.bytes ++ Word.bytes (Word.swap etcpFooter)])) =
          (true, frame parcel) := by
        have hbytes : parcel.contents.bytes.length = parcel.contents.length := rfl
        cases hbuild : settings.hasEthernetUDP with
        | true =>
            rw [if_pos rfl, writeAll_taken]
            · simp [frame, etcpPattern]
            · intro k bytes hbytes'
              have htaken := htakes k
              simp only [List.mem_cons, List.not_mem_nil, or_false] at hbytes'
              rcases hbytes' with rfl | rfl | rfl
              · simp only [List.length_append, Word.length_bytes, List.length_singleton]
                omega
              · omega
              · rw [Word.length_bytes]
                omega
        | false =>
            rw [hbuild, Bool.not_false, Bool.true_and, decide_eq_false_iff_not] at hroom
            rw [if_neg Bool.false_ne_true, writeAll_taken]
            · simp [frame, etcpPattern]
            · intro k bytes hbytes'
              have htaken := htakes k
              rw [List.mem_singleton.mp hbytes']
              simp only [List.length_append, Word.length_bytes, List.length_singleton]
              omega
      simp only [hwrite, Bool.false_eq_true, if_false, if_true]
      cases link.requestAck <;> rfl

/-- What is written for a parcel is its frame, if there is room for it. -/
theorem sends_iff {settings : Settings} {parcel : Parcel} {bytes : List UInt8} :
    Sends settings parcel bytes ↔ bytes = frame parcel ∧
      (settings.hasEthernetUDP = false → parcel.contents.length + 13 < 65536) := by
  have hroom : (!settings.hasEthernetUDP && decide (65536 ≤ 9 + parcel.contents.length + 4)) =
      false ↔ (settings.hasEthernetUDP = false → parcel.contents.length + 13 < 65536) := by
    cases settings.hasEthernetUDP
    · rw [Bool.not_false, Bool.true_and, decide_eq_false_iff_not]
      exact ⟨fun h _ => by omega, fun h => by have := h rfl; omega⟩
    · exact ⟨fun _ h => absurd h.symm Bool.false_ne_true, fun _ => rfl⟩
  constructor
  · rintro ⟨link, client, outgoing, hwaiting, htakes, hsent⟩
    rw [send_written settings link client parcel hwaiting htakes] at hsent
    split at hsent
    · exact absurd hsent.symm (Option.some_ne_none bytes)
    · exact ⟨(Option.some.inj hsent).symm, hroom.mp (Bool.eq_false_iff.mpr ‹_›)⟩
  · rintro ⟨rfl, h⟩
    refine ⟨{}, {}, { takes := fun _ => 65548 }, rfl, fun _ => le_refl _, ?_⟩
    rw [send_written settings {} {} parcel rfl fun _ => le_refl _, hroom.mpr h,
      if_neg Bool.false_ne_true]

/-! ## Receiving -/

theorem bmod_of_lt {n : Nat} (h : n < 32768) : (n : Int).bmod 65536 = n := by
  rw [Int.bmod_def, if_pos]
  · omega
  · norm_num
    omega

theorem bmod_of_le {n : Nat} (h : 32768 ≤ n) (hlt : n < 65536) :
    (n : Int).bmod 65536 = n - 65536 := by
  rw [Int.bmod_def, if_neg] <;> norm_num <;> omega

theorem Takes.result_eq {read : Read} {bytes rest : List UInt8} (h : Takes read bytes rest)
    (hlength : bytes.length < 32768) : read.result = bytes.length := by
  unfold Read.result
  rw [h.bytes_eq]
  exact bmod_of_lt hlength

/-- A number of bytes that does not fit in 15 bits is returned as another one. -/
theorem Takes.result_ne {read : Read} {bytes rest : List UInt8} (h : Takes read bytes rest)
    (hlong : 32768 ≤ bytes.length) (hlength : bytes.length < 65536) :
    read.result % 4294967296 ≠ bytes.length := by
  have hresult : read.result = bytes.length - 65536 := by
    unfold Read.result
    rw [h.bytes_eq]
    exact bmod_of_le hlong hlength
  omega

theorem toNat_contentLength (parcel : Parcel) :
    (UInt32.ofNat parcel.contents.length).toNat = parcel.contents.length :=
  UInt32.toNat_ofNat_of_lt' (parcel.contents.length_lt.trans (by decide))

theorem readHead_frame {client : TCPHelperClient} {parcel : Parcel} {index : Nat}
    {rest : List UInt8} (hprompt : Prompt client) (hpositive : 0 < parcel.contents.length)
    (hfirst : Scan.FirstAt etcpPattern client.incoming index)
    (hincoming : client.incoming.drop index = frame parcel ++ rest) :
    ∃ client', client.readHead =
        { ok := true, senderId := parcel.id
          contentLength := UInt32.ofNat parcel.contents.length, client := client' } ∧
      Prompt client' ∧
      client'.incoming =
        parcel.contents.bytes ++ (Word.bytes (Word.swap etcpFooter) ++ rest) := by
  obtain ⟨client₁, hsearch, hprompt₁, hrest⟩ := readUntilHeader_takes hprompt hfirst
  have hbehind : client₁.incoming =
      ([parcel.id] ++ Word.bytes (Word.swap (UInt32.ofNat parcel.contents.length))) ++
        (parcel.contents.bytes ++ (Word.bytes (Word.swap etcpFooter) ++ rest)) := by
    rw [hrest, ← List.drop_drop, hincoming, frame]
    simp only [List.append_assoc]
    exact List.drop_left' (Word.length_bytes _)
  have htakes : Takes (client₁.readBytes 5) _ _ :=
    readBytes_takes hprompt₁ hbehind rfl (by decide)
  have hresult : (client₁.readBytes 5).result = 5 :=
    htakes.result_eq (show 5 < 32768 by decide)
  have hlength : Word.swap (Word.store 0 0 ((client₁.readBytes 5).bytes.drop 1)) =
      UInt32.ofNat parcel.contents.length := by
    rw [htakes.bytes_eq, List.singleton_append, List.drop_succ_cons, List.drop_zero,
      Word.store_bytes, Word.swap_swap]
  have hzero : UInt32.ofNat parcel.contents.length ≠ 0 := by
    intro heq
    have hnat := toNat_contentLength parcel
    rw [heq] at hnat
    exact absurd hnat (by rw [UInt32.toNat_zero]; omega)
  refine ⟨(client₁.readBytes 5).client, ?_, htakes.prompt, htakes.rest_eq⟩
  rw [TCPHelperClient.readHead]
  simp only [hsearch, if_true]
  rw [if_neg (not_not.mpr hresult)]
  rw [hlength, htakes.bytes_eq, decide_eq_true hzero]
  rfl

theorem readFooter_frame {reading : PacketReading} {rest : List UInt8} (hok : reading.ok = true)
    (hprompt : Prompt reading.client)
    (hincoming : reading.client.incoming = Word.bytes (Word.swap etcpFooter) ++ rest) :
    ∃ client', reading.readFooter = { reading with ok := true, client := client' } ∧
      Prompt client' ∧ client'.incoming = rest := by
  have htakes : Takes (reading.client.readBytes 4) _ _ :=
    readBytes_takes hprompt hincoming (Word.length_bytes _) (by decide)
  refine ⟨(reading.client.readBytes 4).client, ?_, htakes.prompt, htakes.rest_eq⟩
  have hfoot : (reading.client.readBytes 4).result = 4 ∧
      Word.store 0 0 (reading.client.readBytes 4).bytes = Word.swap etcpFooter := by
    rw [htakes.result_eq (by rw [Word.length_bytes]; decide), htakes.bytes_eq, Word.store_bytes]
    exact ⟨rfl, rfl⟩
  rw [PacketReading.readFooter, if_pos hok]
  simp only [hfoot, and_self, decide_true]

section Receive

variable {settings : Settings} {link : Link} {incoming : Bool} {client : TCPHelperClient}
  {call : Call}
  {parcel : Parcel} {index : Nat} {rest : List UInt8}

/-- A frame that is not too long is delivered, and the stream stands behind it. -/
theorem receive_frame (hprompt : Prompt client) (hdiscard : link.receiveAndDiscard = false)
    (hcall : call.available ≠ 0) (hpositive : 0 < parcel.contents.length)
    (hsize : parcel.contents.length ≤ settings.maxPacketSize)
    (hfirst : Scan.FirstAt etcpPattern client.incoming index)
    (hincoming : client.incoming.drop index = frame parcel ++ rest)
    (hshort : parcel.contents.length < 32768) :
    (link.receive settings incoming client call).delivered =
        some (parcel.id, parcel.contents.bytes) ∧
      (link.receive settings incoming client call).link.receiveAndDiscard = false ∧
      Prompt (link.receive settings incoming client call).client ∧
      (link.receive settings incoming client call).client.incoming = rest := by
  obtain ⟨client₁, hhead, hprompt₁, hrest₁⟩ :=
    readHead_frame hprompt hpositive hfirst hincoming
  have hnat := toNat_contentLength parcel
  have htakes : Takes (client₁.readBytes parcel.contents.length) _ _ :=
    readBytes_takes hprompt₁ hrest₁ rfl parcel.contents.length_lt
  have hresult : (client₁.readBytes parcel.contents.length).result = parcel.contents.length :=
    htakes.result_eq hshort
  have hcount : (client₁.readBytes parcel.contents.length).result % 4294967296 =
      parcel.contents.length := by
    rw [hresult]
    omega
  have hcontents : client.readHead.readContents =
      { ok := true, senderId := parcel.id
        contentLength := UInt32.ofNat parcel.contents.length
        contents := parcel.contents.bytes
        client := (client₁.readBytes parcel.contents.length).client } := by
    rw [hhead, PacketReading.readContents, if_pos rfl]
    simp only [hnat, htakes.bytes_eq]
    rw [decide_eq_true hcount]
  obtain ⟨client₂, hfoot, hprompt₂, hrest₂⟩ :
      ∃ client', client.readHead.readContents.readFooter =
          { client.readHead.readContents with ok := true, client := client' } ∧
        Prompt client' ∧ client'.incoming = rest :=
    readFooter_frame (congrArg PacketReading.ok hcontents)
      (by rw [hcontents]; exact htakes.prompt) (by rw [hcontents]; exact htakes.rest_eq)
  rw [hcontents] at hfoot
  have hreceive : link.receive settings incoming client call =
      { result := ack, delivered := some (parcel.id, parcel.contents.bytes)
        written := if link.ackRequested then [0, 6] else []
        link := { link with lastReceiveTime := call.now }, client := client₂ } := by
    have hlength : ¬settings.maxPacketSize < client.readHead.contentLength.toNat := by
      rw [hhead, hnat]
      exact Nat.not_lt.mpr hsize
    rw [Link.receive, if_neg hcall]
    simp only [if_neg hlength, hcontents, hfoot, if_true, hdiscard, Bool.false_eq_true, if_false,
      Bool.not_false, Bool.and_true]
  rw [hreceive]
  exact ⟨rfl, hdiscard, hprompt₂, hrest₂⟩

/-- A longer one is not. -/
theorem receive_long (hprompt : Prompt client) (hpositive : 0 < parcel.contents.length)
    (hfirst : Scan.FirstAt etcpPattern client.incoming index)
    (hincoming : client.incoming.drop index = frame parcel ++ rest)
    (hlong : 32768 ≤ parcel.contents.length) :
    (link.receive settings incoming client call).delivered = none := by
  obtain ⟨client₁, hhead, hprompt₁, hrest₁⟩ :=
    readHead_frame hprompt hpositive hfirst hincoming
  have hnat := toNat_contentLength parcel
  have htakes : Takes (client₁.readBytes parcel.contents.length) _ _ :=
    readBytes_takes hprompt₁ hrest₁ rfl parcel.contents.length_lt
  have hcount : (client₁.readBytes parcel.contents.length).result % 4294967296 ≠
      parcel.contents.length := htakes.result_ne hlong parcel.contents.length_lt
  have hfail : client.readHead.readContents.readFooter.ok = false := by
    have hcontents : client.readHead.readContents.ok = false := by
      rw [hhead, PacketReading.readContents, if_pos rfl]
      simp only [hnat]
      exact decide_eq_false hcount
    rw [PacketReading.readFooter, if_neg (Bool.eq_false_iff.mp hcontents)]
    exact hcontents
  rw [Link.receive]
  by_cases hcall : call.available = 0
  · rw [if_pos hcall]
  · rw [if_neg hcall]
    simp only [hfail, Bool.false_eq_true, if_false]
    split <;> rfl

end Receive

/-! ## Streams -/

theorem forall₂_frames {settings : Settings} {parcels : List Parcel} {frames : List (List UInt8)}
    (h : List.Forall₂ (Sends settings) parcels frames) : frames = parcels.map frame := by
  induction h with
  | nil => rfl
  | cons hsends _ ih => rw [(sends_iff.mp hsends).1, ih, List.map_cons]

variable {settings : Settings} {incoming : Bool}

theorem deliveries_cons (link : Link) (client : TCPHelperClient) (call : Call) (calls : List Call) :
    deliveries settings incoming link client (call :: calls) =
      (link.receive settings incoming client call).delivered.toList ++
        deliveries settings incoming (link.receive settings incoming client call).link
          (link.receive settings incoming client call).client calls := by
  rw [deliveries, Run.steps_cons, List.filterMap_cons]
  cases (link.receive settings incoming client call).delivered <;> rfl

theorem length_deliveries (link : Link) (client : TCPHelperClient) (calls : List Call) :
    (deliveries settings incoming link client calls).length ≤ calls.length := by
  apply le_trans (List.length_filterMap_le _ _)
  rw [Run.length_steps]

/-- As many calls deliver the parcels up to the first one that is too long. -/
theorem deliveries_frames {link : Link} {client : TCPHelperClient} {calls : List Call}
    {parcels : List Parcel} {index : Nat} (hprompt : Prompt client)
    (hdiscard : link.receiveAndDiscard = false)
    (hcalls : calls.length = parcels.length) (hready : ∀ call ∈ calls, call.available ≠ 0)
    (hsizes : ∀ parcel ∈ parcels, 0 < parcel.contents.length ∧
      parcel.contents.length ≤ settings.maxPacketSize)
    (hfirst : ∀ parcel ∈ parcels.head?, Scan.FirstAt etcpPattern client.incoming index)
    (hincoming : client.incoming.drop index = (parcels.map frame).flatten) :
    deliveries settings incoming link client calls =
        parcels.map (fun parcel => (parcel.id, parcel.contents.bytes)) ↔
      ∀ parcel ∈ parcels, parcel.contents.length < 32768 := by
  induction parcels generalizing link client calls index with
  | nil =>
      rw [List.length_eq_zero_iff.mp hcalls]
      exact iff_of_true rfl fun parcel h => absurd h List.not_mem_nil
  | cons parcel parcels ih =>
      obtain ⟨call, calls, rfl⟩ : ∃ call rest, calls = call :: rest := by
        cases calls with
        | nil => exact absurd hcalls.symm (Nat.succ_ne_zero _)
        | cons call rest => exact ⟨call, rest, rfl⟩
      have hlater : calls.length = parcels.length := Nat.succ.inj hcalls
      obtain ⟨hcall, hready⟩ := List.forall_mem_cons.mp hready
      obtain ⟨⟨hpositive, hsize⟩, hsizes⟩ := List.forall_mem_cons.mp hsizes
      have hhere := hfirst parcel rfl
      rw [List.map_cons, List.flatten_cons] at hincoming
      rw [deliveries_cons, List.map_cons, List.forall_mem_cons]
      by_cases hshort : parcel.contents.length < 32768
      · obtain ⟨hdelivered, hdiscard, hprompt, hrest⟩ :=
          receive_frame hprompt hdiscard hcall hpositive hsize hhere hincoming hshort
        rw [hdelivered, Option.toList_some, List.singleton_append, List.cons.injEq,
          and_iff_right rfl, and_iff_right hshort]
        have hbehind := (List.drop_zero).trans hrest
        refine ih hprompt hdiscard hlater hready hsizes (fun next hnext => ?_) hbehind
        obtain ⟨rest, rfl⟩ : ∃ rest, parcels = next :: rest := by
          cases parcels with
          | nil => exact absurd hnext (Option.some_ne_none next).symm
          | cons other rest => exact ⟨rest, by rw [Option.some.inj hnext]⟩
        rw [hrest, List.map_cons, List.flatten_cons]
        exact (firstAt_frame next).append (List.cons_ne_nil _ _) _
      · have hnone : (link.receive settings incoming client call).delivered = none :=
          receive_long hprompt hpositive hhere hincoming (Nat.le_of_not_lt hshort)
        refine iff_of_false (fun heq => ?_) fun h => hshort h.1
        have hlength := congrArg List.length heq
        rw [hnone, Option.toList_none, List.nil_append, List.length_cons,
          List.length_map] at hlength
        have hle : (deliveries settings incoming _ _ calls).length ≤ calls.length :=
          length_deliveries (link.receive settings incoming client call).link
            (link.receive settings incoming client call).client calls
        omega

section Transfers

variable {garbage : List UInt8} {parcels : List Parcel} {frames : List (List UInt8)}

theorem deliveries_iff (hsizes : ∀ parcel ∈ parcels, 0 < parcel.contents.length ∧
      parcel.contents.length ≤ settings.maxPacketSize)
    (hfirst : ∀ parcel ∈ parcels.head?, ∀ bytes, Sends settings parcel bytes →
      Scan.FirstAt etcpPattern (garbage ++ bytes) garbage.length)
    (hframes : List.Forall₂ (Sends settings) parcels frames) {link : Link}
    {client : TCPHelperClient} {calls : List Call} (hdiscard : link.receiveAndDiscard = false)
    (hprompt : Prompt client) (hincoming : client.incoming = garbage ++ frames.flatten)
    (hcalls : calls.length = parcels.length) (hready : ∀ call ∈ calls, call.available ≠ 0) :
    deliveries settings incoming link client calls =
        parcels.map (fun parcel => (parcel.id, parcel.contents.bytes)) ↔
      ∀ parcel ∈ parcels, parcel.contents.length < 32768 := by
  have hbehind : client.incoming.drop garbage.length = (parcels.map frame).flatten := by
    rw [hincoming, List.drop_left, forall₂_frames hframes]
  refine deliveries_frames hprompt hdiscard hcalls hready hsizes (fun parcel hparcel => ?_) hbehind
  cases hframes with
  | nil => exact absurd hparcel (Option.some_ne_none parcel).symm
  | cons hsends hrest =>
      obtain rfl := Option.some.inj hparcel
      rw [hincoming, List.flatten_cons, ← List.append_assoc]
      exact (hfirst _ rfl _ hsends).append (List.cons_ne_nil _ _) _

theorem short_of_transfers (hsizes : ∀ parcel ∈ parcels, 0 < parcel.contents.length ∧
      parcel.contents.length ≤ settings.maxPacketSize)
    (hfirst : ∀ parcel ∈ parcels.head?, ∀ bytes, Sends settings parcel bytes →
      Scan.FirstAt etcpPattern (garbage ++ bytes) garbage.length)
    (htransfers : Transfers settings incoming garbage parcels) :
    ∀ parcel ∈ parcels, parcel.contents.length < 32768 := by
  obtain ⟨frames, hframes, hall⟩ := htransfers
  let client : TCPHelperClient :=
    { incoming := garbage ++ frames.flatten, rounds := fun _ => [.available 65535] }
  have hprompt : Prompt client := ⟨rfl, fun _ => by simp [client], fun _ => le_refl _⟩
  let calls : List Call := List.replicate parcels.length { available := 1 }
  have hcalls : calls.length = parcels.length := List.length_replicate
  have hready : ∀ call ∈ calls, call.available ≠ 0 := by
    intro call hcall
    rw [List.eq_of_mem_replicate hcall]
    decide
  exact (deliveries_iff hsizes hfirst hframes rfl hprompt rfl hcalls hready).mp
    (hall {} client calls rfl hprompt rfl hcalls hready)

end Transfers

/-- The parcels are transferred exactly if the length of each one fits in 15 bits. -/
theorem transfers_iff (settings : Settings) (incoming : Bool) (garbage : List UInt8)
    (parcels : List Parcel)
    (hsizes : ∀ parcel ∈ parcels, 0 < parcel.contents.length ∧
      parcel.contents.length ≤ settings.maxPacketSize)
    (hfirst : ∀ parcel ∈ parcels.head?, ∀ bytes, Sends settings parcel bytes →
      Scan.FirstAt etcpPattern (garbage ++ bytes) garbage.length) :
    Transfers settings incoming garbage parcels ↔
      ∀ parcel ∈ parcels, parcel.contents.length < 32768 := by
  refine ⟨short_of_transfers hsizes hfirst, fun hshort => ?_⟩
  have hframes : List.Forall₂ (Sends settings) parcels (parcels.map frame) := by
    rw [List.forall₂_map_right_iff, List.forall₂_same]
    intro parcel hparcel
    exact sends_iff.mpr ⟨rfl, fun _ => by have := hshort parcel hparcel; omega⟩
  refine ⟨_, hframes, ?_⟩
  intro link client calls hdiscard hprompt hincoming hcalls hready
  exact (deliveries_iff hsizes hfirst hframes hdiscard hprompt hincoming hcalls hready).mpr hshort

/-- A parcel that has the magic number of the header in it. -/
def headerParcel : Parcel where
  id := 5
  contents := ⟨[0x18, 0xAB, 0xC4, 0x27, 0x18], by decide⟩

theorem firstAt_headerParcel :
    Scan.FirstAt etcpPattern ([0x18, 0xAB, 0xC4, 0x18] ++ frame headerParcel) 4 :=
  ⟨by decide +kernel, by decide +kernel⟩

theorem transfers_iff_header :
    Transfers {} true [0x18, 0xAB, 0xC4, 0x18] [headerParcel, headerParcel] ↔
      ∀ parcel ∈ [headerParcel, headerParcel], parcel.contents.length < 32768 :=
  transfers_iff {} true [0x18, 0xAB, 0xC4, 0x18] [headerParcel, headerParcel] (by decide)
    (fun parcel hparcel bytes hsends => by
      obtain rfl := Option.some.inj hparcel
      rw [(sends_iff.mp hsends).1]
      exact firstAt_headerParcel)

/-- A parcel of 32768 bytes. -/
def longParcel : Parcel where
  id := 5
  contents := ⟨List.replicate 32768 0, by rw [List.length_replicate]; decide⟩

theorem length_longParcel : longParcel.contents.length = 32768 := List.length_replicate

theorem longParcel_lost :
    (∀ parcel ∈ [longParcel], 0 < parcel.contents.length ∧ parcel.contents.length ≤ 40000) ∧
      (∀ bytes, Sends { maxPacketSize := 40000 } longParcel bytes →
        Scan.FirstAt etcpPattern ([] ++ bytes) 0) ∧
      ¬Transfers { maxPacketSize := 40000 } true [] [longParcel] := by
  have hsizes : ∀ parcel ∈ [longParcel], 0 < parcel.contents.length ∧
      parcel.contents.length ≤ 40000 := by
    rw [List.forall_mem_singleton, length_longParcel]
    decide
  have hfirst : ∀ bytes, Sends { maxPacketSize := 40000 } longParcel bytes →
      Scan.FirstAt etcpPattern ([] ++ bytes) 0 := by
    intro bytes hsends
    rw [(sends_iff.mp hsends).1, List.nil_append]
    exact firstAt_frame longParcel
  refine ⟨hsizes, hfirst, fun htransfers => ?_⟩
  have hshort := short_of_transfers hsizes
    (fun parcel hparcel => by obtain rfl := Option.some.inj hparcel; exact hfirst) htransfers
    longParcel (List.mem_singleton_self _)
  rw [length_longParcel] at hshort
  exact absurd hshort (by decide)

end Pjon.Proofs.EthernetLink
