import Pjon.Proofs.Duplicates
import Pjon.Proofs.Frames
import Pjon.Spec.Exchange
/-!
# A buffered packet is taken once

The content of a slot is composed once, by `dispatch`.  As long as the slot holds the
packet no member of the sender writes to it, so every frame that leaves for it has the
same bytes, and the receiver recognises them by their packet id.
-/

namespace Pjon.Proofs.Update

open Pjon.Lib Pjon.Model Pjon.Spec Pjon.Proofs.Duplicates Pjon.Proofs.Frames
open Pjon.Proofs.Deliver

variable {b b' : Build}

/-! ## What a slot holds -/

/-- If the slot is in use, it holds this frame. -/
def Holds (index : Fin b.maxPackets) (frame : List UInt8) (bus : Bus b) : Prop :=
  (bus.slot index).state ≠ 0 →
    (bus.slot index).content.load 0 (bus.slot index).length = frame

section Slots

variable {index : Fin b.maxPackets} {frame : List UInt8} {bus : Bus b}

/-- A slot that is written leaves the others as they are. -/
theorem holds_setSlot (i : Fin b.maxPackets) {packet : Packet} (h : Holds index frame bus)
    (hpacket : i = index → packet.state ≠ 0 → packet.content.load 0 packet.length = frame) :
    Holds index frame (bus.setSlot i packet) := by
  rw [Holds]
  by_cases hi : i = index
  · subst hi
    rw [Bus.slot_setSlot]
    exact hpacket rfl
  · rw [Bus.slot_setSlot_ne bus packet hi]
    exact h

theorem holds_remove (i : Fin b.maxPackets) (h : Holds index frame bus) :
    Holds index frame (bus.remove i) :=
  holds_setSlot i h fun _ hstate => absurd rfl hstate

theorem holds_resetPacket (i : Fin b.maxPackets) (now : UInt32) (h : Holds index frame bus)
    (hused : (bus.slot i).state ≠ 0) : Holds index frame (bus.resetPacket i now).2 := by
  unfold Bus.resetPacket
  split_ifs
  · exact holds_remove i h
  · exact h
  · apply holds_setSlot i h
    intro hi _
    subst hi
    exact h hused

theorem sendComposed_ne_zero (bus : Bus b) (packet : Memory) (length : Nat) (medium : Medium) :
    (bus.sendComposed packet length medium).1 ≠ 0 := by
  have hbusy : busy ≠ 0 := by decide
  have hack : ack ≠ 0 := by decide
  have hfail : fail ≠ 0 := by decide
  unfold Bus.sendComposed
  split_ifs
  · exact hbusy
  · exact hack
  · exact hack
  · exact hfail

theorem mem_sendComposed {s : List UInt8} {packet : Memory} {length : Nat} {medium : Medium}
    (h : Event.sendFrame s ∈ (bus.sendComposed packet length medium).2) :
    s = packet.load 0 length := by
  unfold Bus.sendComposed at h
  split_ifs at h <;> simp_all

/-- What a turn of `update` puts on the medium. -/
abbrev turnSends (bus : Bus b) (i : Fin b.maxPackets) (turn : Turn) : Nat × List Event :=
  if (bus.slot i).state = ack then (ack, [])
  else bus.sendComposed (bus.slot i).content (bus.slot i).length turn.toMedium

theorem turnSends_ne_zero (bus : Bus b) (i : Fin b.maxPackets) (turn : Turn) :
    (turnSends bus i turn).1 ≠ 0 := by
  unfold turnSends
  split_ifs
  · decide
  · exact sendComposed_ne_zero _ _ _ _

/-- The slot after the transmission, before it is reset. -/
abbrev turnSlot (bus : Bus b) (i : Fin b.maxPackets) (turn : Turn) : Bus b :=
  bus.setSlot i { bus.slot i with
    state := (turnSends bus i turn).1, attempts := (bus.slot i).attempts + 1 }

/-- The turn of a slot does nothing, or transmits and then keeps or resets the packet. -/
theorem updateSlot_cases (bus : Bus b) (maxAttempts : UInt8) (i : Fin b.maxPackets)
    (turn : Turn) :
    ((bus.updateSlot maxAttempts i turn).bus = bus ∧
        (bus.updateSlot maxAttempts i turn).events = []) ∨
      ((bus.slot i).state ≠ 0 ∧
        ((bus.updateSlot maxAttempts i turn).bus = turnSlot bus i turn ∨
          (bus.updateSlot maxAttempts i turn).bus =
            ((turnSlot bus i turn).resetPacket i turn.resetNow).2) ∧
        ∀ s, Event.sendFrame s ∈ (bus.updateSlot maxAttempts i turn).events →
          Event.sendFrame s ∈ (turnSends bus i turn).2) := by
  unfold Bus.updateSlot
  simp only
  by_cases hfree : (bus.slot i).state = 0
  · rw [if_pos hfree]
    exact Or.inl ⟨rfl, rfl⟩
  · rw [if_neg hfree]
    by_cases hdue : turn.now - (bus.slot i).registration ≤
        (bus.slot i).timing + turn.backOff
    · rw [if_pos hdue]
      exact Or.inl ⟨rfl, rfl⟩
    · rw [if_neg hdue]
      refine Or.inr ⟨hfree, ?_⟩
      by_cases hack : (turnSends bus i turn).1 = ack
      · rw [if_pos hack]
        exact ⟨Or.inr rfl, fun s hs => hs⟩
      · rw [if_neg hack]
        by_cases hlost : maxAttempts < (bus.slot i).attempts + 1
        · rw [if_pos hlost]
          refine ⟨Or.inr rfl, fun s hs => ?_⟩
          rcases List.mem_append.mp hs with hsent | herror
          · exact hsent
          · simp at herror
        · rw [if_neg hlost]
          exact ⟨Or.inl rfl, fun s hs => hs⟩

theorem holds_turnSlot (i : Fin b.maxPackets) (turn : Turn) (h : Holds index frame bus)
    (hused : (bus.slot i).state ≠ 0) : Holds index frame (turnSlot bus i turn) := by
  apply holds_setSlot i h
  intro hi _
  subst hi
  exact h hused

theorem holds_updateSlot (maxAttempts : UInt8) (i : Fin b.maxPackets) (turn : Turn)
    (h : Holds index frame bus) : Holds index frame (bus.updateSlot maxAttempts i turn).bus := by
  rcases updateSlot_cases bus maxAttempts i turn with ⟨hbus, -⟩ | ⟨hused, hbus, -⟩
  · rwa [hbus]
  · have hturn := holds_turnSlot i turn h hused
    rcases hbus with hkept | hreset
    · rwa [hkept]
    · rw [hreset]
      apply holds_resetPacket i turn.resetNow hturn
      rw [Bus.slot_setSlot]
      exact turnSends_ne_zero bus i turn

/-- A frame that leaves for the slot is the one it holds. -/
theorem frame_of_updateSlot {maxAttempts : UInt8} {turn : Turn} {s : List UInt8}
    (h : Holds index frame bus)
    (hs : Event.sendFrame s ∈ (bus.updateSlot maxAttempts index turn).events) : s = frame := by
  rcases updateSlot_cases bus maxAttempts index turn with ⟨-, hevents⟩ | ⟨hused, -, hevents⟩
  · rw [hevents] at hs
    simp at hs
  · have hsent := hevents s hs
    unfold turnSends at hsent
    split_ifs at hsent
    · simp at hsent
    · rw [mem_sendComposed hsent]
      exact h hused

theorem mem_framesOf {events : List (Fin b.maxPackets × Event)} {s : List UInt8} :
    s ∈ framesOf index events ↔ (index, Event.sendFrame s) ∈ events := by
  rw [framesOf, List.mem_filterMap]
  constructor
  · rintro ⟨⟨i, event⟩, hmem, hsome⟩
    cases event with
    | sendFrame frame =>
        simp only [Option.ite_none_right_eq_some, Option.some.injEq] at hsome
        obtain ⟨rfl, rfl⟩ := hsome
        exact hmem
    | sendResponse response => simp at hsome
    | receiver payload info => simp at hsome
    | error code data customPointer => simp at hsome
  · intro hmem
    exact ⟨_, hmem, by simp⟩

/-- The loop of `update`, over any list of slots. -/
theorem updateFrom_holds (maxAttempts : UInt8) (turns : Fin b.maxPackets → Turn)
    (slots : List (Fin b.maxPackets)) :
    ∀ bus : Bus b, Holds index frame bus →
      Holds index frame (bus.updateFrom maxAttempts turns slots).bus ∧
        ∀ s ∈ framesOf index (bus.updateFrom maxAttempts turns slots).events, s = frame := by
  induction slots with
  | nil =>
      intro bus h
      exact ⟨h, fun s hs => absurd hs List.not_mem_nil⟩
  | cons i slots ih =>
      intro bus h
      obtain ⟨hrest, hframes⟩ := ih _ (holds_updateSlot maxAttempts i (turns i) h)
      rw [Bus.updateFrom]
      refine ⟨hrest, fun s hs => ?_⟩
      rw [mem_framesOf, List.mem_append] at hs
      rcases hs with hhere | hlater
      · obtain ⟨event, hevent, hpair⟩ := List.mem_map.mp hhere
        rw [Prod.mk.injEq] at hpair
        obtain ⟨rfl, rfl⟩ := hpair
        exact frame_of_updateSlot h hevent
      · exact hframes s (mem_framesOf.mpr hlater)

end Slots

/-! ## The other members of the sender -/

/-- `receive` changes what it has read, the last info and the records of packet ids, and nothing
else. -/
theorem receive_leaves (bus : Bus b) (delivery : Delivery) :
    ∃ data info records, (bus.receive delivery).bus =
      { bus with data := data, lastPacketInfo := info, recentPacketIds := records } := by
  rw [Bus.receive]
  split
  · exact ⟨_, bus.lastPacketInfo, bus.recentPacketIds, rfl⟩
  · split_ifs
    · exact ⟨_, bus.lastPacketInfo, bus.recentPacketIds, rfl⟩
    · exact ⟨_, bus.lastPacketInfo, bus.recentPacketIds, rfl⟩
    · rw [Bus.deliver]
      simp only
      split_ifs <;> exact ⟨_, _, _, rfl⟩

theorem receive_packets (bus : Bus b) (delivery : Delivery) :
    (bus.receive delivery).bus.packets = bus.packets := by
  obtain ⟨data, info, records, hbus⟩ := receive_leaves bus delivery
  rw [hbus]

theorem composePacket_slot (bus : Bus b) (info : PacketInfo) (destination : Memory)
    (source : Payload) (i : Fin b.maxPackets) :
    (bus.composePacket info destination source).bus.slot i = bus.slot i := by
  rw [PacketIds.composePacket_bus, Bus.advanceSeed]
  split_ifs <;> rfl

/-- `dispatch` takes a free slot, or the one that it is told to take. -/
theorem state_of_findSlot {bus : Bus b} {packetIndex : Nat} {i : Fin b.maxPackets}
    (h : bus.findSlot packetIndex = some i) :
    (bus.slot i).state = 0 ∨ packetIndex = i.val := by
  rw [Bus.findSlot, List.find?_eq_some_iff_getElem] at h
  obtain ⟨htest, k, hk, hki, hfirst⟩ := h
  rw [List.getElem_finRange] at hki
  subst hki
  rw [List.length_finRange] at hk
  simp only [Bool.and_eq_true, decide_eq_true_eq, Bool.or_eq_true, beq_iff_eq, bne_iff_ne,
    ne_eq] at htest
  obtain ⟨hle, hfree | hrequested⟩ := htest
  · exact Or.inl hfree
  · right
    rw [if_pos hrequested] at hle
    by_contra hne
    have hlt : packetIndex < k := Nat.lt_of_le_of_ne hle hne
    have hearlier := hfirst packetIndex hlt
    simp [hrequested] at hearlier

/-- `dispatch` leaves a slot alone that it is not told to take and that is in use. -/
theorem dispatch_slot {bus : Bus b} {index : Fin b.maxPackets} {packetIndex : Nat}
    (hused : (bus.slot index).state ≠ 0) (hindex : packetIndex ≠ index.val) (info : PacketInfo)
    (packet : Payload) (timing now : UInt32) :
    (bus.dispatch info packet timing now packetIndex).bus.slot index = bus.slot index := by
  unfold Bus.dispatch
  cases hfind : bus.findSlot packetIndex with
  | none => rfl
  | some i =>
      have hne : i ≠ index := by
        rintro rfl
        rcases state_of_findSlot hfind with hfree | htold
        · exact hused hfree
        · exact hindex htold
      simp only
      split_ifs
      · rw [Bus.slot_setSlot_ne _ _ hne, composePacket_slot]
      · rw [Bus.slot_setSlot_ne _ _ hne, composePacket_slot]

theorem remove_slot {bus : Bus b} {i index : Fin b.maxPackets} (hi : i ≠ index) :
    (bus.remove i).slot index = bus.slot index :=
  Bus.slot_setSlot_ne bus _ hi

section Dispatch

variable {bus : Bus b} {index : Fin b.maxPackets} {info : PacketInfo} {packet : Payload}
  {timing now : UInt32} {packetIndex : Nat} (hslot : bus.findSlot packetIndex = some index)

include hslot

theorem fits_of_dispatch (hsent : (bus.dispatch info packet timing now packetIndex).result ≠ fail) :
    (bus.composePacket info (bus.slot index).content packet).result ≠ 0 := by
  intro hresult
  apply hsent
  rw [Bus.dispatch, hslot]
  simp only
  rw [if_pos hresult]

/-- A packet that `dispatch` accepts is in its slot, composed. -/
theorem packet_of_dispatch
    (hsent : (bus.dispatch info packet timing now packetIndex).result ≠ fail) :
    ((bus.dispatch info packet timing now packetIndex).bus.slot index).state ≠ 0 ∧
      Holds index (frameOf bus info (bus.slot index).content packet)
        (bus.dispatch info packet timing now packetIndex).bus := by
  have htoBeSent : toBeSent ≠ 0 := by decide
  have hresult := fits_of_dispatch hslot hsent
  rw [Holds, Bus.dispatch, hslot]
  simp only
  rw [if_neg hresult, Bus.slot_setSlot]
  exact ⟨htoBeSent, fun _ => rfl⟩

end Dispatch

/-! ## The exchange -/

/-- The slot holds the packet as long as it is pending, and nothing else was sent for it. -/
structure Frozen (index : Fin b.maxPackets) (frame : List UInt8) (x : Exchange b b') : Prop where
  keepsIds : KeepsIds x.receiver
  used : x.pending = true → (x.sender.slot index).state ≠ 0
  holds : x.pending = true → Holds index frame x.sender
  sent : ∀ s ∈ x.sent, s = frame

section Exchange

variable {index : Fin b.maxPackets} {frame : List UInt8} {x : Exchange b b'}

/-- A move of the sender that does not touch the packet. -/
theorem frozen_of_packets {sender : Bus b} (pending : Bool) (h : Frozen index frame x)
    (hpending : pending = true → x.pending = true ∧
      (sender.slot index) = (x.sender.slot index)) :
    Frozen index frame { x with sender := sender, pending := pending } := by
  refine ⟨h.keepsIds, ?_, ?_, h.sent⟩
  · intro hstill
    obtain ⟨hbefore, hsame⟩ := hpending hstill
    simp only [hsame]
    exact h.used hbefore
  · intro hstill
    obtain ⟨hbefore, hsame⟩ := hpending hstill
    simp only [Holds, hsame]
    exact h.holds hbefore

theorem frozen_update (h : Frozen index frame x) (maxAttempts : UInt8)
    (turns : Fin b.maxPackets → Turn) :
    Frozen index frame (x.step index (.update maxAttempts turns)) := by
  refine ⟨h.keepsIds, ?_, ?_, ?_⟩
  · intro hstill
    simp only [Exchange.step, Bool.and_eq_true, bne_iff_ne, ne_eq] at hstill
    exact hstill.2
  · intro hstill
    simp only [Exchange.step, Bool.and_eq_true] at hstill
    exact (updateFrom_holds maxAttempts turns _ x.sender (h.holds hstill.1)).1
  · intro s hs
    rcases List.mem_append.mp hs with hbefore | hnew
    · exact h.sent s hbefore
    · by_cases hpending : x.pending = true
      · rw [if_pos hpending] at hnew
        exact (updateFrom_holds maxAttempts turns _ x.sender (h.holds hpending)).2 s hnew
      · rw [if_neg hpending] at hnew
        exact absurd hnew List.not_mem_nil

theorem sameFrame_of_frozen (h : Frozen index frame x)
    (hbit : ∀ bus : Bus b', Admissible bus frame → has (header frame) packetIdBit = true) :
    SameFrame b' frame x.sent := by
  intro s hs bus hadm
  have hframe := h.sent s hs
  subst hframe
  exact ⟨rfl, hbit bus hadm⟩

variable (hmin : 4 ≤ b'.packetMaxLength) (hmax : b'.packetMaxLength < 65536)

include hmin hmax

/-- No move changes the packet. -/
theorem frozen_step (h : Frozen index frame x) (move : Move b) :
    Frozen index frame (x.step index move) := by
  cases move with
  | update maxAttempts turns => exact frozen_update h maxAttempts turns
  | dispatch info packet timing now packetIndex =>
      apply frozen_of_packets _ h
      intro hstill
      simp only [Bool.and_eq_true, bne_iff_ne, ne_eq] at hstill
      exact ⟨hstill.1, dispatch_slot (h.used hstill.1) hstill.2 info packet timing now⟩
  | remove i =>
      apply frozen_of_packets _ h
      intro hstill
      simp only [Bool.and_eq_true, bne_iff_ne, ne_eq] at hstill
      exact ⟨hstill.1, remove_slot hstill.2⟩
  | receive delivery =>
      have hsame := receive_packets x.sender delivery
      apply frozen_of_packets x.pending h
      intro hstill
      rw [Bus.slot, Bus.slot, hsame]
      exact ⟨hstill, rfl⟩
  | arrive arrival =>
      exact ⟨keepsIds_arrive hmin hmax h.keepsIds x.sent arrival, h.used, h.holds, h.sent⟩

omit hmin hmax in
/-- Only an arrival touches the receiver. -/
theorem step_cases (index : Fin b.maxPackets) (x : Exchange b b') (move : Move b) :
    (∃ arrival, move = .arrive arrival) ∨
      move.own = false ∧ (x.step index move).receiver = x.receiver := by
  cases move with
  | arrive arrival => exact Or.inl ⟨arrival, rfl⟩
  | update maxAttempts turns => exact Or.inr ⟨rfl, rfl⟩
  | dispatch info packet timing now packetIndex => exact Or.inr ⟨rfl, rfl⟩
  | remove i => exact Or.inr ⟨rfl, rfl⟩
  | receive delivery => exact Or.inr ⟨rfl, rfl⟩

/-- The receiver of an exchange recognises the packet. -/
theorem recognises_exchange
    (hbit : ∀ bus : Bus b', Admissible bus frame → has (header frame) packetIdBit = true) :
    Dedup.Recognises (Exchange.step index) (Frozen index frame)
      (fun x : Exchange b b' => x.receiver.recentPacketIds) Move.own (recordTest b' frame)
      Exchange.takes where
  keeps _ move h := frozen_step hmin hmax h move
  pushes x move h := by
    rcases step_cases index x move with ⟨arrival, rfl⟩ | ⟨-, hreceiver⟩
    · exact arrive_pushes hmin hmax x.receiver x.sent arrival
    · exact Or.inl (by rw [hreceiver])
  known x move h hown hknown := by
    rcases step_cases index x move with ⟨arrival, rfl⟩ | ⟨hnot, -⟩
    · exact arrive_of_recorded hmin hmax h.keepsIds (sameFrame_of_frozen h hbit) hown hknown
    · exact absurd hown (by rw [hnot]; exact Bool.false_ne_true)
  taken x move h hown htakes := by
    rcases step_cases index x move with ⟨arrival, rfl⟩ | ⟨hnot, -⟩
    · exact records_of_arrive hmin hmax h.keepsIds (sameFrame_of_frozen h hbit) hown htakes
    · exact absurd hown (by rw [hnot]; exact Bool.false_ne_true)

/-- An arrival does not change the mode of the receiver. -/
theorem halfDuplex_step (index : Fin b.maxPackets) (x : Exchange b b') (move : Move b)
    (h : x.receiver.halfDuplex = true) : (x.step index move).receiver.halfDuplex = true := by
  rcases step_cases index x move with ⟨arrival, rfl⟩ | ⟨-, hreceiver⟩
  · obtain ⟨data, info, hbus⟩ := arrive_bus hmin hmax x.receiver x.sent arrival
    rw [Exchange.step, hbus]
    exact h
  · rw [hreceiver]
    exact h

/-- A half-duplex receiver acknowledges the admissible arrivals that ask for it. -/
theorem acknowledges_of_halfDuplex (h : Frozen index frame x)
    (hmode : x.receiver.halfDuplex = true) (moves : List (Move b)) :
    Acknowledges index x moves Admissible := by
  intro v hv k batch s hmove hsent hadm hrequest
  have hfrozen : Frozen index frame v.1 :=
    (Run.invariant (Exchange.step index) (Frozen index frame)
      (fun x move hx => frozen_step hmin hmax hx move) h moves).1 v hv
  have hhalf : v.1.receiver.halfDuplex = true :=
    (Run.invariant (Exchange.step index) (fun x => x.receiver.halfDuplex = true)
      (halfDuplex_step hmin hmax index) hmode moves).1 v hv
  obtain ⟨info, -, hcaused⟩ := receive_caused v.1.receiver
    { bytes := s, batch := batch } hmin hmax hadm
  rw [arrive, hsent]
  simp only
  rw [mem_events_response hcaused, ackDue, hrequest, hhalf, hfrozen.keepsIds.notRouter]
  have hnotAll : byte s 0 ≠ broadcast := by
    intro hall
    rw [hadm.broadcastAck hall] at hrequest
    exact Bool.noConfusion hrequest
  simpa using hnotAll

end Exchange

theorem frozen_start {sender : Bus b} {receiver : Bus b'} {index : Fin b.maxPackets}
    (info : PacketInfo) (packet : Payload) (timing now : UInt32) (packetIndex : Nat)
    (hreceiver : KeepsIds receiver) (hslot : sender.findSlot packetIndex = some index)
    (hsent : (sender.dispatch info packet timing now packetIndex).result ≠ fail) :
    Frozen index (frameOf sender info (sender.slot index).content packet)
      (Exchange.start sender receiver info packet timing now packetIndex) := by
  obtain ⟨hused, hframe⟩ := packet_of_dispatch hslot hsent
  exact ⟨hreceiver, fun _ => hused, fun _ => hframe, fun s hs => absurd hs List.not_mem_nil⟩

/-- Over any sequence of moves a buffered packet with a packet id is handed over at most
once, if fewer other ids than there are records come in between its first and its last
arrival, and a half-duplex receiver acknowledges each arrival. -/
theorem update_delivers_once (sender : Bus b) (receiver : Bus b')
    (hmin : 4 ≤ b'.packetMaxLength) (hmax : b'.packetMaxLength < 65536)
    (hreceiver : KeepsIds receiver) (info : PacketInfo) (packet : Payload)
    (timing now : UInt32) (packetIndex : Nat) (index : Fin b.maxPackets)
    (hheader : has (sender.effectiveHeader info) packetIdBit = true)
    (hslot : sender.findSlot packetIndex = some index)
    (hsent : (sender.dispatch info packet timing now packetIndex).result ≠ fail)
    (moves : List (Move b)) :
    ((Exchange.start sender receiver info packet timing now packetIndex).otherRecords index moves <
        b'.maxRecentPacketIds →
      (Exchange.start sender receiver info packet timing now packetIndex).callbacks index moves ≤
        1) ∧
    (receiver.halfDuplex = true →
      Acknowledges index (Exchange.start sender receiver info packet timing now packetIndex) moves
        Admissible) := by
  have hfrozen := frozen_start info packet timing now packetIndex hreceiver hslot hsent
  have hfits := fits_of_dispatch hslot hsent
  constructor
  · exact (recognises_exchange hmin hmax fun bus hadm =>
      has_packetId_frameOf hheader hfits hadm).atMostOnce hfrozen moves
  · intro hmode
    exact acknowledges_of_halfDuplex hmin hmax hfrozen hmode moves

/-! ## Two devices -/

def firstSlot : Fin numbered.maxPackets := ⟨0, by decide⟩

/-- The packet is due, the medium is free and no acknowledgement comes back. -/
def retransmission : Move numbered :=
  .update 10 fun _ =>
    { canStart := true, response := fail, now := 1000, backOff := 0, resetNow := 1000 }

def arrival (k : Nat) : Move numbered := .arrive (.frame k fun _ => 50)

/-- A letter for device 45, dispatched by device 44. -/
abbrev letterTo (receiver : Bus numbered) : Exchange numbered numbered :=
  Exchange.start (numberedDevice 44) receiver (toDevice 45) letter 0 0 fail

theorem update_delivers_once_letter :
    ((letterTo (numberedDevice 45)).otherRecords firstSlot
          [retransmission, arrival 0, retransmission, arrival 1] < 10 →
      (letterTo (numberedDevice 45)).callbacks firstSlot
          [retransmission, arrival 0, retransmission, arrival 1] ≤ 1) ∧
    ((numberedDevice 45).halfDuplex = true →
      Acknowledges firstSlot (letterTo (numberedDevice 45))
        [retransmission, arrival 0, retransmission, arrival 1] Admissible) := by
  have hslot : (numberedDevice 44).findSlot fail = some firstSlot := by decide +kernel
  have hsent : ((numberedDevice 44).dispatch (toDevice 45) letter 0 0 fail).result ≠ fail := by
    decide +kernel
  exact update_delivers_once (numberedDevice 44) (numberedDevice 45) (by decide) (by decide)
    ⟨rfl, rfl⟩ (toDevice 45) letter 0 0 fail firstSlot (by decide) hslot hsent _

/-- A device in simplex mode. -/
def simplexDevice : Bus numbered := { numberedDevice 45 with halfDuplex := false }

/-- The frame of the letter. -/
def letterFrame : List UInt8 := [45, 134, 9, 171, 44, 0, 1, 65, 215]

theorem admissible_letterFrame : Admissible simplexDevice letterFrame := by
  have hcalled : calls (simplexDevice.receive
      { bytes := letterFrame, batch := fun _ => 50 }) = true := by
    decide +kernel
  by_contra hnot
  have hsilent := calls_of_not_admissible simplexDevice
    { bytes := letterFrame, batch := fun _ => 50 } (by decide) (by decide) hnot
  rw [hsilent] at hcalled
  exact Bool.noConfusion hcalled

/-- In simplex mode the letter is handed over, but not acknowledged; a device that it is not
for does not acknowledge it in any mode. -/
theorem simplex_not_acknowledged :
    KeepsIds simplexDevice ∧
      (letterTo simplexDevice).callbacks firstSlot [retransmission, arrival 0] = 1 ∧
      ¬Acknowledges firstSlot (letterTo simplexDevice) [retransmission, arrival 0] Admissible ∧
      Event.sendResponse ack ∉
        (arrive (numberedDevice 46) [letterFrame] (.frame 0 fun _ => 50)).events := by
  refine ⟨⟨rfl, rfl⟩, by decide +kernel, fun hack => ?_, by decide +kernel⟩
  have hsent : ((letterTo simplexDevice).step firstSlot retransmission).sent = [letterFrame] := by
    decide +kernel
  have hresponse := hack ((letterTo simplexDevice).step firstSlot retransmission, arrival 0)
    (List.mem_cons_of_mem _ List.mem_cons_self) 0 (fun _ => 50) letterFrame rfl
    (by rw [hsent]; rfl) admissible_letterFrame (by decide)
  obtain ⟨info, -, hcaused⟩ := receive_caused simplexDevice
    { bytes := letterFrame, batch := fun _ => 50 } (by decide) (by decide)
    admissible_letterFrame
  rw [arrive, hsent] at hresponse
  have hdue := (mem_events_response hcaused).mp hresponse
  revert hdue
  decide

end Pjon.Proofs.Update
