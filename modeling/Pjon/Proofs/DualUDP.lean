import Pjon.Spec.Network
import Pjon.Proofs.Filter
/-!
# What an acknowledgement over datagrams is worth

A response names the two ids of the frame that it answers, and the sender compares one of them.
So an acknowledgement says that some packet of this sender has been answered: perhaps an earlier
one, and by another device.
-/

namespace Pjon.Proofs.DualUDP

open Pjon.Lib Pjon.Model Pjon.Model.DualUDP Pjon.Spec

variable {α : Type} {host : Host} {strategy : Strategy α}

/-! ## What the strategy remembers -/

section Remembers

variable (host strategy)

theorem addNode_eq (id : UInt8) (remote : Option α) : ∃ nodes unremovable,
    (strategy.addNode host id remote).2 =
      { strategy with nodes := nodes, unremovableNodeCount := unremovable } := by
  rw [Strategy.addNode]
  by_cases hfull : strategy.nodes.length = host.maxRemoteNodes
  · rw [if_pos hfull]
    exact ⟨_, _, rfl⟩
  · rw [if_neg hfull]
    exact ⟨_, _, rfl⟩

/-- Registering a sender changes the node table. -/
theorem autoregisterSender_eq : ∃ nodes unremovable, (strategy.autoregisterSender host).2 =
    { strategy with nodes := nodes, unremovableNodeCount := unremovable } := by
  rw [Strategy.autoregisterSender]
  split_ifs
  · exact ⟨_, _, rfl⟩
  · cases strategy.findRemoteNode strategy.lastInSenderId with
    | none => exact addNode_eq host strategy _ _
    | some pos => exact ⟨_, _, rfl⟩
  · exact ⟨_, _, rfl⟩

theorem noteFrame_eq (data : Memory) : ∃ nodes unremovable, strategy.noteFrame host data =
    { strategy with
      lastInReceiverId := (Tools.parseRx host.build data).id
      lastInSenderId := (Tools.parseTx host.build data).id
      nodes := nodes
      unremovableNodeCount := unremovable } := by
  rw [Strategy.noteFrame]
  simp only
  split_ifs
  · obtain ⟨nodes, unremovable, heq⟩ := autoregisterSender_eq host { strategy with
      lastInReceiverId := (Tools.parseRx host.build data).id
      lastInSenderId := (Tools.parseTx host.build data).id }
    exact ⟨nodes, unremovable, heq⟩
  · exact ⟨_, _, rfl⟩

theorem receiveFrame_lastOut (data : Memory) (arrival : Option (Datagram α)) (maxLength : Nat) :
    (strategy.receiveFrame host data arrival maxLength).2.lastOutSenderId =
      strategy.lastOutSenderId := by
  unfold Strategy.receiveFrame
  cases arrival with
  | none => rfl
  | some datagram =>
      simp only
      split_ifs
      · obtain ⟨nodes, unremovable, heq⟩ := noteFrame_eq host { strategy with
          remote := some datagram.source, lastInSender := some datagram.source }
          (data.store 0 datagram.bytes)
        simp only
        rw [heq]
      · rfl
      · rfl

end Remembers

/-- What is received is a datagram, whose sender and whose header are remembered. -/
theorem receiveFrame_some {data : Memory} {arrival : Option (Datagram α)} {maxLength : Nat}
    {bytes : List UInt8} (h : (strategy.receiveFrame host data arrival maxLength).1 = some bytes) :
    ∃ datagram, arrival = some datagram ∧ datagram.bytes = bytes ∧
      (strategy.receiveFrame host data arrival maxLength).2.remote = some datagram.source ∧
      (4 < bytes.length →
        (strategy.receiveFrame host data arrival maxLength).2.lastInSenderId =
            (Tools.parseTx host.build (data.store 0 bytes)).id ∧
          (strategy.receiveFrame host data arrival maxLength).2.lastInReceiverId =
            (Tools.parseRx host.build (data.store 0 bytes)).id) := by
  unfold Strategy.receiveFrame at h ⊢
  cases arrival with
  | none => exact absurd h.symm (Option.some_ne_none bytes)
  | some datagram =>
      simp only at h ⊢
      split_ifs at h ⊢ with htakes hlong
      · obtain rfl := Option.some.inj h
        obtain ⟨nodes, unremovable, heq⟩ := noteFrame_eq host { strategy with
          remote := some datagram.source, lastInSender := some datagram.source }
          (data.store 0 datagram.bytes)
        refine ⟨datagram, rfl, rfl, ?_, fun _ => ?_⟩
        · simp only
          rw [heq]
        · simp only
          rw [heq]
          exact ⟨rfl, rfl⟩
      · obtain rfl := Option.some.inj h
        exact ⟨datagram, rfl, rfl, rfl, fun hlong' => absurd hlong' hlong⟩

/-- `receive_response` succeeds with a response to the sender of the last frame. -/
theorem receiveResponse_ack {polls : List (Listening α)}
    (h : (strategy.receiveResponse host polls).1 = ack) :
    ∃ poll ∈ polls, ∃ datagram ∈ poll.arrival, ∃ receiverId code, code.toNat = ack ∧
      datagram.bytes = [strategy.lastOutSenderId, receiverId, code] := by
  have hfail : fail ≠ ack := by decide
  induction polls generalizing strategy with
  | nil => exact absurd h hfail
  | cons poll polls ih =>
      have hlater {next : Strategy α} (hnext : next.lastOutSenderId = strategy.lastOutSenderId)
          (hack : (next.receiveResponse host polls).1 = ack) :
          ∃ poll' ∈ poll :: polls, ∃ datagram ∈ poll'.arrival, ∃ receiverId code,
            code.toNat = ack ∧
              datagram.bytes = [strategy.lastOutSenderId, receiverId, code] := by
        obtain ⟨poll', hpoll', hanswer⟩ := ih hack
        rw [hnext] at hanswer
        exact ⟨poll', List.mem_cons_of_mem poll hpoll', hanswer⟩
      have hlast := receiveFrame_lastOut host strategy poll.result poll.arrival 10
      rw [Strategy.receiveResponse] at h
      generalize hreceived : strategy.receiveFrame host poll.result poll.arrival 10 = received at *
      obtain ⟨bytes, next⟩ := received
      split at h
      · rename_i receiverId senderId code next' heq
        obtain ⟨hbytes, rfl⟩ := Prod.mk.inj heq
        have hback : ({ next with lastInReceiverId := receiverId, lastInSenderId := senderId } :
            Strategy α).lastOutSenderId = strategy.lastOutSenderId := hlast
        simp only at h
        split_ifs at h with hother hcode
        · exact hlater hback h
        · have hsome : (strategy.receiveFrame host poll.result poll.arrival 10).1 =
              some [receiverId, senderId, code] := by rw [hreceived, ← hbytes]
          obtain ⟨datagram, harrival, hbytes', -⟩ := receiveFrame_some hsome
          refine ⟨poll, List.mem_cons_self, datagram, harrival, senderId, code, hcode, ?_⟩
          rw [hbytes', ← hback, ← not_not.mp hother]
        · exact hlater hback h
      · rename_i next' _ heq
        obtain ⟨-, rfl⟩ := Prod.mk.inj heq
        exact hlater hlast h

/-! ## The loop of `receive` -/

/-- What the checks of the turns before `i` leave. -/
structure Examined {b : Build} (bus : Bus b) (i : Nat) (st : LoopState) : Prop where
  dropped : i = 1 → st.drop = false →
    st.data 0 = bus.tx.id ∨ st.data 0 = broadcast ∨ bus.router = true
  addressed : 2 ≤ i → has (st.data 1) macBit = false →
    st.data 0 = bus.tx.id ∨ st.data 0 = broadcast ∨ bus.router = true
  overhead : 2 ≤ i → 5 ≤ st.overhead
  plain : 3 ≤ i → st.extendedLength = false → 6 ≤ st.length
  long : 4 ≤ i → 6 ≤ st.length
  short : st.length ≤ b.packetMaxLength
  initial : st.length = b.packetMaxLength ∨ 6 ≤ st.length

section Examine

variable {b : Build} {bus : Bus b} {i : Nat} {st st' : LoopState}

/-- The bytes of a datagram are stored behind those that were examined. -/
theorem Examined.store (h : Examined bus i st) (bytes : List UInt8) (batchLength : Nat) :
    Examined bus i { st with data := st.data.store i bytes, batchLength := batchLength } where
  dropped := by
    intro hi hdrop
    have hzero : st.data.store i bytes 0 = st.data 0 :=
      Memory.store_outside _ _ _ (Or.inl (by omega))
    change st.data.store i bytes 0 = _ ∨ st.data.store i bytes 0 = _ ∨ _
    rw [hzero]
    exact h.dropped hi hdrop
  addressed := by
    intro hi hmac
    have hzero : st.data.store i bytes 0 = st.data 0 :=
      Memory.store_outside _ _ _ (Or.inl (by omega))
    have hone : st.data.store i bytes 1 = st.data 1 :=
      Memory.store_outside _ _ _ (Or.inl (by omega))
    change has (st.data.store i bytes 1) macBit = false at hmac
    change st.data.store i bytes 0 = _ ∨ st.data.store i bytes 0 = _ ∨ _
    rw [hzero]
    exact h.addressed hi (hone ▸ hmac)
  overhead := h.overhead
  plain := h.plain
  long := h.long
  short := h.short
  initial := h.initial

theorem checkLength_ok {length : Nat} (hok : Bus.checkLength b length st = .ok st') :
    st' = { st with length := length } ∧ st.overhead < length ∧ length < b.packetMaxLength := by
  rw [Bus.checkLength] at hok
  split_ifs at hok with hrange
  exact ⟨(Except.ok.inj hok).symm, by omega, by omega⟩

theorem examined_zero (h : Examined bus 0 st) (hok : bus.examine 0 st = .ok st') :
    Examined bus 1 st' ∧ st'.data = st.data ∧ st'.batchLength = st.batchLength := by
  have hexamine : bus.examine 0 st = .ok (bus.checkRecipient st) := by
    simp [Bus.examine, Filter.rejectsBusId_early]
    rfl
  obtain rfl := Except.ok.inj (hexamine.symm.trans hok)
  have hshort := h.short
  have hinitial := h.initial
  rw [Bus.checkRecipient]
  split_ifs with hforeign
  · exact ⟨⟨fun _ hdrop => absurd hdrop.symm Bool.false_ne_true, by omega, by omega, by omega,
      by omega, hshort, hinitial⟩, rfl, rfl⟩
  · refine ⟨⟨fun _ _ => ?_, by omega, by omega, by omega, by omega, hshort, hinitial⟩, rfl, rfl⟩
    simp only [Bool.and_eq_true, bne_iff_ne, Bool.not_eq_true', not_and, ne_eq] at hforeign
    by_cases hid : st.data 0 = bus.tx.id
    · exact Or.inl hid
    by_cases hall : st.data 0 = broadcast
    · exact Or.inr (Or.inl hall)
    · exact Or.inr (Or.inr (by simpa using hforeign ⟨hid, hall⟩))

theorem examined_one (h : Examined bus 1 st) (hok : bus.examine 1 st = .ok st') :
    Examined bus 2 st' ∧ st'.data = st.data ∧ st'.batchLength = st.batchLength := by
  by_cases hrejects : bus.rejectsHeader (st.data 0) (st.data 1) st.drop = true
  · simp [Bus.examine, Bus.checkHeader, hrejects] at hok
    cases hok
  · have hexamine : bus.examine 1 st = .ok { st with
        mac := has (st.data 1) macBit
        extendedLength := has (st.data 1) extLenBit
        overhead := packetOverhead
          (if st.data 1 == noHeader then bus.config else st.data 1) } := by
      simp [Bus.examine, Bus.checkHeader, hrejects, Filter.rejectsBusId_early]
    obtain rfl := Except.ok.inj (hexamine.symm.trans hok)
    refine ⟨⟨by omega, fun _ hmac => ?_, fun _ => packetOverhead_ge _, by omega, by omega,
      h.short, h.initial⟩, rfl, rfl⟩
    apply h.dropped rfl
    simp only [Bus.rejectsHeader, Bool.or_eq_true, Bool.and_eq_true, not_or, not_and] at hrejects
    have hlast := hrejects.2
    rw [Bool.eq_false_iff]
    intro hdrop
    exact hlast hdrop (by rw [hmac]; rfl)

/-- A length that passes its check. -/
theorem examined_length {length : Nat} (h : Examined bus i st) (hi : 2 ≤ i)
    (hok : Bus.checkLength b length st = .ok st') :
    Examined bus (i + 1) st' ∧ st'.data = st.data ∧ st'.batchLength = st.batchLength := by
  obtain ⟨rfl, hover, hfits⟩ := checkLength_ok hok
  have hlong : 6 ≤ length := Nat.lt_of_le_of_lt (h.overhead hi) hover
  refine ⟨⟨by omega, fun _ => h.addressed hi, fun _ => h.overhead hi, fun _ _ => hlong,
    fun _ => hlong, Nat.le_of_lt hfits, Or.inr hlong⟩, rfl, rfl⟩

/-- A turn that looks at neither the header nor the length. -/
theorem examined_skip (h : Examined bus i st) (hi : 2 ≤ i)
    (hplain : i = 2 → st.extendedLength = true) (hlong : i = 3 → st.extendedLength = false) :
    Examined bus (i + 1) st where
  dropped := by omega
  addressed := fun _ => h.addressed hi
  overhead := fun _ => h.overhead hi
  plain := by
    intro _ hext
    by_cases htwo : i = 2
    · rw [hplain htwo] at hext
      exact absurd hext.symm Bool.false_ne_true
    · exact h.plain (by omega) hext
  long := by
    intro _
    by_cases hthree : i = 3
    · exact h.plain (by omega) (hlong hthree)
    · exact h.long (by omega)
  short := h.short
  initial := h.initial

theorem examined_examine (h : Examined bus i st) (hok : bus.examine i st = .ok st') :
    Examined bus (i + 1) st' ∧ st'.data = st.data ∧ st'.batchLength = st.batchLength := by
  rcases (by omega : i = 0 ∨ i = 1 ∨ i = 2 ∨ i = 3 ∨ 4 ≤ i) with rfl | rfl | rfl | rfl | hlater
  · exact examined_zero h hok
  · exact examined_one h hok
  · cases hext : st.extendedLength with
    | false =>
        have hexamine : bus.examine 2 st = (Bus.checkLength b (st.data 2).toNat st).bind fun st =>
            if bus.rejectsBusId 2 st then .error (busy, st.data) else .ok st := by
          simp [Bus.examine, hext]
          rfl
        rw [hexamine, Filter.busId_skipped bus (by decide)] at hok
        exact examined_length h (by decide) hok
    | true =>
        have hexamine : bus.examine 2 st = .ok st := by
          simp [Bus.examine, hext, Filter.rejectsBusId_early]
          rfl
        obtain rfl := Except.ok.inj (hexamine.symm.trans hok)
        exact ⟨examined_skip h (by decide) (fun _ => hext) (by omega), rfl, rfl⟩
  · cases hext : st.extendedLength with
    | false =>
        have hexamine : bus.examine 3 st = .ok st := by
          simp [Bus.examine, hext, Filter.rejectsBusId_early]
          rfl
        obtain rfl := Except.ok.inj (hexamine.symm.trans hok)
        exact ⟨examined_skip h (by decide) (by omega) (fun _ => hext), rfl, rfl⟩
    | true =>
        have hexamine : bus.examine 3 st =
            (Bus.checkLength b (ofBigEndian (st.data 2) (st.data 3)).toNat st).bind fun st =>
              if bus.rejectsBusId 3 st then .error (busy, st.data) else .ok st := by
          simp [Bus.examine, hext]
          rfl
        rw [hexamine, Filter.busId_skipped bus (by decide)] at hok
        exact examined_length h (by decide) hok
  · have hexamine : bus.examine i st =
        if bus.rejectsBusId i st then .error (busy, st.data) else .ok st := by
      have hzero : i ≠ 0 := by omega
      have hone : i ≠ 1 := by omega
      have htwo : i ≠ 2 := by omega
      have hthree : i ≠ 3 := by omega
      simp [Bus.examine, hzero, hone, htwo, hthree]
      rfl
    rw [hexamine] at hok
    split_ifs at hok
    obtain rfl := Except.ok.inj hok
    exact ⟨examined_skip h (by omega) (by omega) (by omega), rfl, rfl⟩

end Examine

section Turns

variable {bus : Bus host.build} {arrivals : List (Option (Datagram α))} {i : Nat}
  {reception reception' : Reception α}

/-- What the turns before `i` have taken from the socket. -/
structure Taken (bus : Bus host.build) (arrivals : List (Option (Datagram α))) (i : Nat)
    (reception : Reception α) : Prop where
  examined : Examined bus i reception.st
  start : i = 0 → reception.st.data = bus.data ∧ reception.st.batchLength = 0 ∧
    reception.arrivals = arrivals
  taken : 0 < i → ∃ earlier last, arrivals = (earlier ++ [last]).map some ++ reception.arrivals ∧
    reception.strategy.remote = some last.source ∧
    (earlier = [] → last.bytes.length = i + reception.st.batchLength ∧
      reception.st.data = bus.data.store 0 last.bytes ∧
      (4 < last.bytes.length →
        reception.strategy.lastInSenderId =
            (Tools.parseTx host.build (bus.data.store 0 last.bytes)).id ∧
          reception.strategy.lastInReceiverId =
            (Tools.parseRx host.build (bus.data.store 0 last.bytes)).id))

/-- A turn that takes a datagram. -/
theorem taken_next (h : Taken bus arrivals i reception) (hempty : reception.st.batchLength = 0)
    (hok : receiveTurn host bus i reception = .ok reception') :
    Taken bus arrivals (i + 1) reception' := by
  rw [receiveTurn] at hok
  simp only at hok
  rw [if_pos hempty] at hok
  generalize hreceived : reception.strategy.receiveFrame host
    (fun k => reception.st.data (i + k)) reception.arrivals.head?.join
    (reception.st.length - i) = received at hok
  obtain ⟨_ | bytes, next⟩ := received
  · cases hok
  simp only at hok
  split_ifs at hok with hnone
  cases hexamine : bus.examine i { reception.st with
      data := reception.st.data.store i bytes, batchLength := bytes.length - 1 } with
  | error verdict =>
      rw [hexamine] at hok
      cases hok
  | ok st =>
      rw [hexamine] at hok
      obtain rfl := Except.ok.inj hok
      obtain ⟨hexamined, hdata, hbatch⟩ := examined_examine (h.examined.store bytes _) hexamine
      obtain ⟨datagram, harrival, hbytes, hremote, hnoted⟩ := receiveFrame_some
        (congrArg Prod.fst hreceived)
      rw [hreceived] at hremote hnoted
      have hhead : reception.arrivals = some datagram :: reception.arrivals.tail := by
        cases hcases : reception.arrivals with
        | nil =>
            rw [hcases] at harrival
            cases harrival
        | cons arrival rest =>
            rw [hcases] at harrival
            obtain rfl : arrival = some datagram := harrival
            rfl
      refine ⟨hexamined, by omega, fun _ => ?_⟩
      by_cases hi : i = 0
      · subst hi
        obtain ⟨hinitial, -, harrivals⟩ := h.start rfl
        have hmemory : (fun k => reception.st.data (0 + k)) = bus.data := by
          rw [← hinitial]
          exact funext fun k => congrArg reception.st.data (Nat.zero_add k)
        rw [hmemory] at hnoted
        refine ⟨[], datagram, ?_, hremote, fun _ => ⟨?_, ?_, ?_⟩⟩
        · rw [← harrivals]
          exact hhead
        · rw [hbatch, hbytes]
          change bytes.length = 0 + 1 + (bytes.length - 1)
          omega
        · rw [hdata, hbytes]
          change reception.st.data.store 0 bytes = _
          rw [hinitial]
        · rw [hbytes]
          exact hnoted
      · obtain ⟨earlier, last, harrivals, -⟩ := h.taken (Nat.pos_of_ne_zero hi)
        refine ⟨earlier ++ [last], datagram, ?_, hremote, fun hnil => ?_⟩
        · have hsplit : (earlier ++ [last]).map some ++ some datagram :: reception.arrivals.tail =
              (earlier ++ [last] ++ [datagram]).map some ++ reception.arrivals.tail := by
            simp
          rw [harrivals, ← hsplit, ← hhead]
        · exact absurd hnil (by simp)

/-- A turn that goes on with the datagram that it has. -/
theorem taken_same (h : Taken bus arrivals i reception) (hmore : reception.st.batchLength ≠ 0)
    (hok : receiveTurn host bus i reception = .ok reception') :
    Taken bus arrivals (i + 1) reception' := by
  rw [receiveTurn] at hok
  simp only at hok
  rw [if_neg hmore] at hok
  have hi : 0 < i := by
    apply Nat.pos_of_ne_zero
    intro hzero
    exact hmore (h.start hzero).2.1
  have hexamined : Examined bus i
      { reception.st with batchLength := reception.st.batchLength - 1 } :=
    { h.examined with }
  cases hexamine : bus.examine i
      { reception.st with batchLength := reception.st.batchLength - 1 } with
  | error verdict =>
      rw [hexamine] at hok
      cases hok
  | ok st =>
      rw [hexamine] at hok
      obtain rfl := Except.ok.inj hok
      obtain ⟨hnext, hdata, hbatch⟩ := examined_examine hexamined hexamine
      refine ⟨hnext, by omega, fun _ => ?_⟩
      obtain ⟨earlier, last, harrivals, hremote, hwhole⟩ := h.taken hi
      refine ⟨earlier, last, harrivals, hremote, fun hnil => ?_⟩
      obtain ⟨hlength, hmemory, hnoted⟩ := hwhole hnil
      refine ⟨?_, hdata.trans hmemory, hnoted⟩
      rw [hlength, hbatch]
      change i + reception.st.batchLength = i + 1 + (reception.st.batchLength - 1)
      omega

/-- What the loop has taken when it ends with a packet. -/
theorem taken_loop (hloop : receiveLoop host bus strategy arrivals = .ok reception) :
    ∃ i, 4 ≤ i ∧ reception.st.length ≤ i ∧ Taken bus arrivals i reception := by
  have hroom := host.room
  have hsmall : host.build.packetMaxLength % 65536 = host.build.packetMaxLength :=
    Nat.mod_eq_of_lt host.counted
  have hstart : Taken bus arrivals 0
      { st := { data := bus.data, length := host.build.packetMaxLength }
        strategy := strategy, arrivals := arrivals } :=
    { examined := ⟨by omega, by omega, by omega, by omega, by omega, Nat.le_refl _, Or.inl rfl⟩
      start := fun _ => ⟨rfl, rfl, rfl⟩
      taken := by omega }
  rw [receiveLoop, hsmall] at hloop
  have hturn : ∀ i st st', Taken bus arrivals i st → i < st.st.length →
      receiveTurn host bus i st = .ok st' → Taken bus arrivals (i + 1) st' := by
    intro i st st' h _ hok
    by_cases hempty : st.st.batchLength = 0
    · exact taken_next h hempty hok
    · exact taken_same h hempty hok
  obtain ⟨k, htaken, hend⟩ := boundedLoop_ok hturn _ 0 _ reception hstart hloop
  have hshort := htaken.examined.short
  have hinitial := htaken.examined.initial
  exact ⟨k, by omega, by omega, htaken⟩

end Turns

/-! ## Answers -/

section Answer

variable [DecidableEq α] {hosts : α → Host} {x : Network α} {receiver : α}
  {bus : Bus (hosts receiver).build} {arrivals : List (Option (Datagram α))}

theorem lastPacketInfo_deliver {b : Build} (bus : Bus b) (st : LoopState) :
    (bus.deliver st).bus.lastPacketInfo = bus.parse st.data := by
  unfold Bus.deliver
  simp only
  split_ifs <;> rfl

/-- Neither a broadcast nor what a router takes is acknowledged. -/
theorem addressed_of_acknowledges {b : Build} {bus : Bus b} {st : LoopState}
    (haddressed : has (st.data 1) macBit = false →
      st.data 0 = bus.tx.id ∨ st.data 0 = broadcast ∨ bus.router = true)
    (hack : bus.acknowledges st = true) :
    (Tools.parseRx b st.data).id = bus.tx.id ∨
      has (bus.parse st.data).header macBit = true := by
  change st.data 0 = bus.tx.id ∨ has (st.data 1) macBit = true
  simp only [Bus.acknowledges, Bool.and_eq_true, bne_iff_ne, ne_eq, Bool.not_eq_true'] at hack
  cases hmac : has (st.data 1) macBit with
  | true => exact Or.inr rfl
  | false =>
      rcases haddressed hmac with hid | hall | hrouter
      · exact Or.inl hid
      · exact absurd hall hack.1.1.2
      · exact absurd (hrouter.symm.trans hack.2) Bool.noConfusion

omit [DecidableEq α] in
/-- A response answers what `receive` has accepted. -/
theorem answers_of_response {datagram : Datagram α}
    (hsent : ∀ arrival ∈ arrivals, ∀ d ∈ arrival, d ∈ x.datagrams)
    (h : (receive (hosts receiver) receiver bus (x.strategies receiver) arrivals).response =
      some datagram) :
    ∃ earlier last senderId receiverId,
      Answers hosts x receiver bus arrivals earlier last senderId receiverId ∧
      datagram = { source := receiver, destination := some last.source
                   bytes := [senderId, receiverId, UInt8.ofNat ack] } := by
  cases hloop : receiveLoop (hosts receiver) bus (x.strategies receiver) arrivals with
  | error verdict =>
      rw [receive, hloop] at h
      cases h
  | ok reception =>
      have hreceive : receive (hosts receiver) receiver bus (x.strategies receiver) arrivals =
          { bus.deliver reception.st with
            strategy := reception.strategy
            response := some datagram } ∧ bus.acknowledges reception.st = true ∧
          reception.strategy.sendResponse receiver (UInt8.ofNat ack) = some datagram := by
        rw [receive, hloop] at h ⊢
        simp only at h ⊢
        split_ifs at h ⊢ with hcrc hmac hack
        have hreceipt := congrArg (fun response =>
          ({ bus.deliver reception.st with
              strategy := reception.strategy, response := response } :
            Receipt α (hosts receiver).build)) h
        exact ⟨hreceipt, hack, h⟩
      obtain ⟨hreceipt, hacknowledges, hresponse⟩ := hreceive
      obtain ⟨i, hi, hend, htaken⟩ := taken_loop hloop
      obtain ⟨earlier, last, harrivals, hremote, hwhole⟩ := htaken.taken (by omega)
      rw [Strategy.sendResponse, hremote] at hresponse
      have hdatagram := Option.some.inj hresponse
      refine ⟨earlier, last, _, _, ?_, hdatagram.symm⟩
      refine ⟨⟨_, harrivals⟩, ?_, h.trans (congrArg some hdatagram.symm), fun hnil => ?_⟩
      · refine hsent (some last) ?_ last rfl
        rw [harrivals]
        simp
      · obtain ⟨hlength, hmemory, hnoted⟩ := hwhole hnil
        have hlong := htaken.examined.long hi
        have hframe : 4 < last.bytes.length := by omega
        obtain ⟨htx, hrx⟩ := hnoted hframe
        have hpacket : (receive (hosts receiver) receiver bus (x.strategies receiver)
            arrivals).bus.lastPacketInfo = bus.parse (bus.data.store 0 last.bytes) := by
          rw [hreceipt, ← hmemory]
          exact lastPacketInfo_deliver bus reception.st
        rw [hpacket]
        refine ⟨hframe, rfl, htx.symm, hrx.symm, ?_⟩
        rw [hrx, ← hmemory]
        exact addressed_of_acknowledges (htaken.examined.addressed (by omega)) hacknowledges

end Answer

/-! ## Frames that are sent -/

section Sending

variable {self : α} {data : Memory} {length : Nat}

theorem removeNode_lastOut (pos : Nat) :
    (strategy.removeNode pos).2.lastOutSenderId = strategy.lastOutSenderId := by
  rw [Strategy.removeNode]
  split_ifs <;> rfl

theorem locateReceiver_lastOut :
    (strategy.locateReceiver host).2.lastOutSenderId = strategy.lastOutSenderId := by
  rw [Strategy.locateReceiver]
  simp only
  split
  · rfl
  · rename_i pos _
    by_cases hfailing : host.maxRetries * host.maxFailures <
        ((strategy.nodes[pos]?.map Node.sendAttempts).getD 0).toNat
    · rw [if_pos hfailing]
      exact removeNode_lastOut _
    · rw [if_neg hfailing]

theorem sendFrame_lastOut (hlong : 4 < length) :
    (strategy.sendFrame host self data length).1.lastOutSenderId =
      (Tools.parseTx host.build data).id := by
  rw [Strategy.sendFrame]
  simp only
  rw [if_pos hlong]
  split
  · exact locateReceiver_lastOut
  · exact locateReceiver_lastOut

/-- What is sent is the frame. -/
theorem sendFrame_sent {datagram : Datagram α}
    (h : (strategy.sendFrame host self data length).2 = some datagram) :
    4 < datagram.bytes.length := by
  rw [Strategy.sendFrame] at h
  simp only at h
  by_cases hlong : 4 < length
  · rw [if_pos hlong] at h
    have hframe : 4 < (data.load 0 length).length := by simpa using hlong
    split at h
    · split_ifs at h
      rw [← Option.some.inj h]
      exact hframe
    · obtain ⟨address, -, hdatagram⟩ := Option.map_eq_some_iff.mp h
      rw [← hdatagram]
      exact hframe
  · rw [if_neg hlong] at h
    cases h

/-- The two parts make `send_packet`, over a medium that answers as `receive_response` does. -/
theorem sendComposed_eq (bus : Bus host.build) (canStart : Bool) (polls : List (Listening α)) :
    (bus.sendComposed data length
        { canStart := canStart
          response := ((transmit host self bus.halfDuplex canStart strategy data
            length).strategy.receiveResponse host polls).1 }).1 =
      ((transmit host self bus.halfDuplex canStart strategy data length).result.getD
        (awaitResponse host
          (transmit host self bus.halfDuplex canStart strategy data length).strategy polls).1) := by
  rw [Bus.sendComposed, awaitResponse, transmit]
  simp only
  by_cases hbusy : (bus.halfDuplex && !canStart) = true
  · rw [if_pos hbusy, if_pos hbusy]
    rfl
  · rw [if_neg hbusy, if_neg hbusy]
    by_cases hends : data 0 = broadcast ∨ has (data 1) ackReqBit = false ∨ bus.halfDuplex = false
    · have htest : (data 0 == broadcast || !has (data 1) ackReqBit || !bus.halfDuplex) = true := by
        simpa [or_assoc] using hends
      rw [if_pos htest, if_pos hends]
      rfl
    · have htest : ¬(data 0 == broadcast || !has (data 1) ackReqBit || !bus.halfDuplex) = true := by
        simpa [or_assoc] using hends
      rw [if_neg htest, if_neg hends]
      simp only [Option.getD_none]
      split_ifs <;> rfl

end Sending

/-! ## Runs -/

section Run

variable [DecidableEq α] {hosts : α → Host} {history : List (Network α × NetworkCall hosts)}
  {x : Network α}

/-- Where the datagrams come from, and what the waiting instances remember. -/
structure Traces (hosts : α → Host) (history : List (Network α × NetworkCall hosts))
    (x : Network α) : Prop where
  waiting : ∀ sender packet length, x.waiting sender = some (packet, length) →
    (x.strategies sender).lastOutSenderId = (Tools.parseTx (hosts sender).build packet).id
  datagrams : ∀ datagram ∈ x.datagrams, 4 < datagram.bytes.length ∨
    ∃ y receiver bus arrivals, (y, NetworkCall.receive receiver bus arrivals) ∈ history ∧
      (∀ arrival ∈ arrivals, ∀ d ∈ arrival, d ∈ y.datagrams) ∧
      (receive (hosts receiver) receiver bus (y.strategies receiver) arrivals).response =
        some datagram

omit [DecidableEq α] in
theorem traces_start : Traces hosts [] ({} : Network α) where
  waiting := fun sender packet length h => by cases h
  datagrams := fun datagram h => absurd h List.not_mem_nil

omit [DecidableEq α] in
/-- What was sent before a call was sent by the same history afterwards. -/
theorem Traces.earlier (h : Traces hosts history x) (call : NetworkCall hosts)
    {datagram : Datagram α} (hsent : datagram ∈ x.datagrams) :
    4 < datagram.bytes.length ∨
      ∃ y receiver bus arrivals,
        (y, NetworkCall.receive receiver bus arrivals) ∈ history ++ [(x, call)] ∧
        (∀ arrival ∈ arrivals, ∀ d ∈ arrival, d ∈ y.datagrams) ∧
        (receive (hosts receiver) receiver bus (y.strategies receiver) arrivals).response =
          some datagram := by
  apply (h.datagrams datagram hsent).imp_right
  rintro ⟨y, receiver, bus, arrivals, hmem, hrest⟩
  exact ⟨y, receiver, bus, arrivals, List.mem_append_left _ hmem, hrest⟩

/-- The instances that wait are not the one that makes the call. -/
theorem Traces.others (h : Traces hosts history x) {caller : α} {strategy : Strategy α}
    {waiting : Option (Memory × Nat)}
    (hcaller : ∀ packet length, waiting = some (packet, length) →
      strategy.lastOutSenderId = (Tools.parseTx (hosts caller).build packet).id)
    (sender : α) (packet : Memory) (length : Nat)
    (hwaiting : Function.update x.waiting caller waiting sender = some (packet, length)) :
    (Function.update x.strategies caller strategy sender).lastOutSenderId =
      (Tools.parseTx (hosts sender).build packet).id := by
  by_cases hsender : sender = caller
  · subst hsender
    rw [Function.update_self] at hwaiting ⊢
    exact hcaller packet length hwaiting
  · rw [Function.update_of_ne hsender] at hwaiting ⊢
    exact h.waiting sender packet length hwaiting

theorem Traces.free (h : Traces hosts history x) {caller : α} {strategy : Strategy α}
    (hfree : x.waiting caller = none) (sender : α) (packet : Memory) (length : Nat)
    (hwaiting : x.waiting sender = some (packet, length)) :
    (Function.update x.strategies caller strategy sender).lastOutSenderId =
      (Tools.parseTx (hosts sender).build packet).id := by
  have hsender : sender ≠ caller := by
    rintro rfl
    exact Option.some_ne_none _ (hwaiting.symm.trans hfree)
  rw [Function.update_of_ne hsender]
  exact h.waiting sender packet length hwaiting

theorem traces_step (h : Traces hosts history x) (call : NetworkCall hosts)
    (hallowed : x.Allowed call) : Traces hosts (history ++ [(x, call)]) (x.step call) := by
  cases call with
  | send sender halfDuplex canStart packet length =>
      obtain ⟨hfree, hlong⟩ := hallowed
      refine ⟨h.others fun packet' length' hwaiting => ?_, fun datagram hdatagram => ?_⟩
      · split_ifs at hwaiting with hresult
        obtain ⟨rfl, rfl⟩ := Prod.mk.inj (Option.some.inj hwaiting)
        rw [transmit] at hresult ⊢
        split_ifs at hresult ⊢
        exact sendFrame_lastOut hlong
      · rcases List.mem_append.mp hdatagram with hbefore | hnew
        · exact h.earlier _ hbefore
        · left
          rw [Option.mem_toList, transmit] at hnew
          split_ifs at hnew
          · exact sendFrame_sent hnew
          · exact sendFrame_sent hnew
  | await sender polls =>
      refine ⟨h.others fun packet' length' hwaiting => ?_, fun datagram hdatagram => ?_⟩
      · cases hwaiting
      · exact h.earlier _ hdatagram
  | receive receiver bus arrivals =>
      obtain ⟨hfree, harrivals⟩ := hallowed
      refine ⟨fun sender packet length hwaiting => ?_, fun datagram hdatagram => ?_⟩
      · exact h.free hfree sender packet length hwaiting
      · rcases List.mem_append.mp hdatagram with hbefore | hnew
        · exact h.earlier _ hbefore
        · right
          refine ⟨x, receiver, bus, arrivals, by simp, ?_, Option.mem_toList.mp hnew⟩
          exact fun arrival harrival d hd => (harrivals arrival harrival d hd).1
  | register owner nodes unremovable autoRegistration autoDiscovery =>
      have hfree : x.waiting owner = none := hallowed
      refine ⟨fun sender packet length hwaiting => ?_, fun datagram hdatagram => ?_⟩
      · exact h.free hfree sender packet length hwaiting
      · exact h.earlier _ hdatagram

theorem traces_run (calls : List (NetworkCall hosts))
    (hallowed : ∀ v ∈ Run.steps Network.step ({} : Network α) calls, v.1.Allowed v.2) :
    Traces hosts (Run.steps Network.step {} calls) (Run.final Network.step {} calls) := by
  induction calls using List.reverseRecOn with
  | nil => exact traces_start
  | append_singleton calls call ih =>
      rw [Run.steps_append, List.forall_mem_append, Run.steps_cons, Run.steps_nil,
        List.forall_mem_singleton] at hallowed
      rw [Run.steps_append, Run.final_append]
      exact traces_step (ih hallowed.1) call hallowed.2

/-- A packet is confirmed when some packet of its sender has been answered. -/
theorem confirmed_answeredBefore (calls : List (NetworkCall hosts))
    (hallowed : ∀ v ∈ Run.steps Network.step ({} : Network α) calls, v.1.Allowed v.2)
    (sender : α) (polls : List (Listening α)) (packet : Memory) (length : Nat)
    (hconfirms : (Run.final Network.step ({} : Network α) calls).Confirms hosts sender polls
      packet length) :
    AnsweredBefore hosts (Run.steps Network.step {} calls) sender
      (Tools.parseTx (hosts sender).build packet).id := by
  obtain ⟨⟨-, hpolls⟩, hwaiting, hack⟩ := hconfirms
  have htraces := traces_run calls hallowed
  have hresponse : (((Run.final Network.step ({} : Network α) calls).strategies sender
      ).receiveResponse (hosts sender) polls).1 = ack := by
    have hfail : fail ≠ ack := by decide
    rw [awaitResponse] at hack
    by_contra hnot
    exact hfail (by simpa [hnot] using hack)
  obtain ⟨poll, hpoll, datagram, harrival, receiverId, code, hcode, hbytes⟩ :=
    receiveResponse_ack hresponse
  obtain ⟨hsent, hreaches⟩ := hpolls poll hpoll datagram harrival
  rcases htraces.datagrams datagram hsent with hlong |
    ⟨y, receiver, bus, arrivals, hmem, harrivals, hresponds⟩
  · rw [hbytes] at hlong
    exact absurd hlong (by simp)
  obtain ⟨earlier, last, senderId, receiverId', hanswers, hdatagram⟩ :=
    answers_of_response harrivals hresponds
  rw [hdatagram] at hbytes hreaches
  have hsource : last.source = sender :=
    Option.some.inj (hreaches.resolve_left (Option.some_ne_none _))
  have hsender : senderId = (Tools.parseTx (hosts sender).build packet).id := by
    rw [← htraces.waiting sender packet length hwaiting]
    exact (List.cons.inj hbytes).1
  exact ⟨y, receiver, bus, arrivals, hmem, earlier, last, receiverId', hsource, hsender ▸ hanswers⟩

end Run

/-! ## A delayed response -/

/-- Three instances: a sender with the id 44, and devices with the ids 45 and 46. -/
inductive Letters where
  | sender
  | device45
  | device46
  deriving DecidableEq, Repr

theorem defaultBuild_room : 4 ≤ defaultBuild.packetMaxLength := by decide

theorem defaultBuild_counted : defaultBuild.packetMaxLength < 65536 := by decide

def letterHosts : Letters → Host := fun _ =>
  { build := defaultBuild, room := defaultBuild_room, counted := defaultBuild_counted }

def deviceBus (id : UInt8) : Bus defaultBuild := { tx := { id := id } }

/-- A letter from the sender, with a request for an acknowledgement. -/
def letterTo (id headerCrc crc : UInt8) : List UInt8 := [id, 6, 7, headerCrc, 44, 65, crc]

def letter45 : Datagram Letters :=
  { source := .sender, destination := none, bytes := letterTo 45 1 229 }

def response45 : Datagram Letters :=
  { source := .device45, destination := some .sender, bytes := [44, 45, 6] }

def letter46 : Memory := byte (letterTo 46 82 229)

/-- The first letter is given up before its response arrives. -/
def delayedCalls : List (NetworkCall letterHosts) :=
  [.send .sender true true (byte letter45.bytes) 7, .await .sender [],
    .receive .device45 (deviceBus 45) [some letter45], .send .sender true true letter46 7]

def delayedPolls : List (Listening Letters) :=
  [{ result := fun _ => 0, arrival := some response45 }]

theorem allowed_delayedCalls : ∀ v ∈ Run.steps Network.step ({} : Network Letters) delayedCalls,
    v.1.Allowed v.2 := by
  simp only [delayedCalls, Run.steps_cons, Run.steps_nil, List.forall_mem_cons]
  refine ⟨⟨rfl, by decide⟩, ⟨?_, ?_⟩, ⟨rfl, ?_⟩, ⟨rfl, by decide⟩, ?_⟩
  · exact Option.some_ne_none (byte letter45.bytes, 7)
  · exact fun poll hpoll => absurd hpoll List.not_mem_nil
  · intro arrival harrival datagram hdatagram
    obtain rfl := List.mem_singleton.mp harrival
    obtain rfl := Option.some.inj hdatagram
    exact ⟨by decide +kernel, Or.inl rfl⟩
  · exact fun v hv => absurd hv List.not_mem_nil

theorem confirms_letter46 :
    (Run.final Network.step ({} : Network Letters) delayedCalls).Confirms letterHosts .sender
      delayedPolls letter46 7 := by
  refine ⟨⟨Option.some_ne_none (letter46, 7), ?_⟩, rfl, by decide +kernel⟩
  intro poll hpoll datagram hdatagram
  obtain rfl := List.mem_singleton.mp hpoll
  obtain rfl := Option.some.inj hdatagram
  exact ⟨by decide +kernel, Or.inr rfl⟩

/-- The response of the first device confirms the letter to the second one, which has not
received anything. -/
theorem delayed_response_confirms : ¬NoFalseAck letterHosts := by
  intro h
  obtain ⟨x, receiver, bus, arrivals, hmem, hid, -⟩ :=
    h delayedCalls .sender delayedPolls letter46 7 allowed_delayedCalls confirms_letter46
  have hcall : NetworkCall.receive receiver bus arrivals ∈ delayedCalls := by
    have hmap := List.mem_map_of_mem (f := Prod.snd) hmem
    rwa [Run.map_snd_steps] at hmap
  simp only [delayedCalls, List.mem_cons, reduceCtorEq, List.not_mem_nil, or_false,
    false_or] at hcall
  cases hcall
  exact absurd hid (by decide)

theorem confirmed_answeredBefore_letter46 :
    AnsweredBefore letterHosts (Run.steps Network.step {} delayedCalls) .sender 44 := by
  have hsender : (Tools.parseTx (letterHosts .sender).build letter46).id = 44 := by decide +kernel
  rw [← hsender]
  exact confirmed_answeredBefore delayedCalls allowed_delayedCalls .sender delayedPolls letter46 7
    confirms_letter46

end Pjon.Proofs.DualUDP
