import Pjon.Proofs.Update
import Pjon.Proofs.Forward
import Pjon.Spec.Periods
/-!
# Packets that are sent repeatedly

The slot is composed once and keeps its packet id from period to period, so the receiver takes
the first frame of a period for a duplicate as long as it has the id of the period before.
-/

namespace Pjon.Proofs.Periods

open Pjon.Lib Pjon.Model Pjon.Spec Pjon.Proofs.Duplicates Pjon.Proofs.Frames
open Pjon.Proofs.Update Pjon.Proofs.Forward

variable {b b' : Build}

/-! ## The records of the receiver -/

section Records

variable {bus after : Bus b} {s : List UInt8} {others : Nat}

/-- The count of the other ids tells where the id of the packet is. -/
theorem newest_after (h : Recent.Newest bus.recentPacketIds (recordTest b s) others)
    (hafter : after.recentPacketIds = bus.recentPacketIds ∨
      ∃ entry, after.recentPacketIds = Recent.push bus.recentPacketIds entry) :
    Recent.Newest after.recentPacketIds (recordTest b s)
      (Repetition.othersAfter s bus after others) := by
  rw [Repetition.othersAfter]
  by_cases hsame : after.recentPacketIds = bus.recentPacketIds
  · rw [if_pos hsame, hsame]
    exact h
  · obtain ⟨entry, hpush⟩ := hafter.resolve_left hsame
    have hnewest : Repetition.newestRecord after = entry := by
      rw [Repetition.newestRecord, hpush]
      exact Recent.push_zero bus.recentPacketIds entry b.recent_pos
    rw [if_neg hsame, hnewest, sameId_infoOf, hpush]
    split_ifs with hentry
    · exact Recent.newest_push bus.recentPacketIds hentry
    · exact h.push (Bool.eq_false_iff.mpr hentry)

end Records

/-! ## The exchange -/

/-- The slot holds the packet as long as it is pending, the receiver is one that it is for, and
the other ids are counted. -/
structure Regular (index : Fin b.maxPackets) (frame : List UInt8) (x : Repetition b b') : Prop where
  frozen : Frozen index frame x.toExchange
  admissible : Admissible x.receiver frame
  port : portMatches x.receiver frame = true
  newest : Recent.Newest x.receiver.recentPacketIds (recordTest b' frame) x.others
  lengths : x.periods.length = x.sent.length

section Steps

variable {index : Fin b.maxPackets} {frame : List UInt8} {x : Repetition b b'}
  (hmin : 4 ≤ b'.packetMaxLength) (hmax : b'.packetMaxLength < 65536)

/-- No move takes a frame back. -/
theorem length_sent_le (index : Fin b.maxPackets) (x : Exchange b b') (move : Move b) :
    x.sent.length ≤ (x.step index move).sent.length := by
  cases move with
  | update maxAttempts turns =>
      rw [Exchange.step, List.length_append]
      exact Nat.le_add_right _ _
  | dispatch info packet timing now packetIndex => exact le_rfl
  | remove i => exact le_rfl
  | receive delivery => exact le_rfl
  | arrive arrival => exact le_rfl

theorem sameSettings_arrive (bus : Bus b) (sent : List (List UInt8)) (arrival : Arrival) :
    SameSettings bus (arrive bus sent arrival).bus := by
  cases arrival with
  | other delivery => exact sameSettings_receive bus delivery
  | frame k batch =>
      rw [arrive]
      cases sent[k]? with
      | none => exact SameSettings.refl bus
      | some frame => exact sameSettings_receive bus _

theorem sameSettings_step (index : Fin b.maxPackets) (x : Exchange b b') (move : Move b) :
    SameSettings x.receiver (x.step index move).receiver := by
  rcases step_cases index x move with ⟨arrival, rfl⟩ | ⟨-, hreceiver⟩
  · exact sameSettings_arrive x.receiver x.sent arrival
  · rw [hreceiver]
    exact SameSettings.refl x.receiver

include hmin hmax

theorem regular_step (h : Regular index frame x) (move : Move b) :
    Regular index frame (x.step index frame move) := by
  have hsettings := sameSettings_step index x.toExchange move
  have hlength := length_sent_le index x.toExchange move
  refine ⟨frozen_step hmin hmax h.frozen move, hsettings.admissible h.admissible,
    hsettings.portMatches.trans h.port, newest_after h.newest ?_, ?_⟩
  · rcases step_cases index x.toExchange move with ⟨arrival, rfl⟩ | ⟨-, hreceiver⟩
    · exact arrive_pushes hmin hmax x.receiver x.sent arrival
    · exact Or.inl (congrArg Bus.recentPacketIds hreceiver)
  · have hperiods := h.lengths
    rw [Repetition.step]
    simp only
    rw [List.length_append, List.length_replicate]
    omega

/-- The first frame of a period is handed over exactly if the receiver has forgotten the id. -/
theorem handsOverFirst_iff (h : Regular index frame x) (move : Move b)
    (hbit : has (header frame) packetIdBit = true) :
    x.HandsOverFirst move ↔ x.ArrivesForgotten move := by
  apply imp_congr_right
  intro hfirst
  obtain ⟨period, harriving, -⟩ := hfirst
  cases move with
  | arrive arrival =>
      cases arrival with
      | frame k batch =>
          have hsome : k < x.sent.length := by
            rw [← h.lengths]
            exact (List.getElem?_eq_some_iff.mp harriving).1
          have hsent : x.sent[k]? = some frame := by
            rw [List.getElem?_eq_getElem hsome]
            exact congrArg some (h.frozen.sent _ (List.getElem_mem hsome))
          have hcalls := calls_own x.receiver ⟨frame, batch⟩ hmin hmax h.frozen.keepsIds
            (fun _ => hbit) h.admissible
          rw [Exchange.takes, arrive, hsent]
          simp only
          rw [hcalls, Bool.eq_false_iff, ne_eq, h.newest.any_iff, h.port, Nat.not_lt]
          simp only [and_true]
      | other delivery => cases harriving
  | update maxAttempts turns => cases harriving
  | dispatch info packet timing now packetIndex => cases harriving
  | remove i => cases harriving
  | receive delivery => cases harriving

end Steps

/-- The slot with the packet that `send_repeatedly` accepts. -/
theorem slotFrame_sendRepeatedly {sender : Bus b} {info : PacketInfo} {packet : Payload}
    {timing now : UInt32} {index : Fin b.maxPackets} (hslot : sender.findSlot fail = some index)
    (hsent : (sender.sendRepeatedly info packet timing now).result ≠ fail) :
    slotFrame (sender.sendRepeatedly info packet timing now).bus index =
      frameOf sender info (sender.slot index).content packet := by
  obtain ⟨hused, hholds⟩ := packet_of_dispatch hslot hsent
  exact hholds hused

/-- Of a packet that is sent repeatedly with a packet id, the first frame that arrives in each
period is handed over exactly if the receiver has recorded as many other ids as it has places
since it recorded that of the packet. -/
theorem repeated_delivered_iff (sender : Bus b) (receiver : Bus b')
    (hmin : 4 ≤ b'.packetMaxLength) (hmax : b'.packetMaxLength < 65536)
    (hreceiver : KeepsIds receiver) (info : PacketInfo) (packet : Payload) (timing now : UInt32)
    (index : Fin b.maxPackets) (hheader : has (sender.effectiveHeader info) packetIdBit = true)
    (hslot : sender.findSlot fail = some index)
    (hsent : (sender.sendRepeatedly info packet timing now).result ≠ fail) (frame : List UInt8)
    (hframe : frame = slotFrame (sender.sendRepeatedly info packet timing now).bus index)
    (hadm : Admissible receiver frame) (hport : portMatches receiver frame = true)
    (moves : List (Move b)) :
    (∀ v ∈ Run.steps (Repetition.step index frame)
        (Repetition.start frame sender receiver info packet timing now) moves,
      v.1.HandsOverFirst v.2) ↔
    ∀ v ∈ Run.steps (Repetition.step index frame)
        (Repetition.start frame sender receiver info packet timing now) moves,
      v.1.ArrivesForgotten v.2 := by
  rw [slotFrame_sendRepeatedly hslot hsent] at hframe
  have hfrozen := frozen_start info packet timing now fail hreceiver hslot hsent
  have hbit : has (header frame) packetIdBit = true := by
    rw [hframe] at hadm ⊢
    exact has_packetId_frameOf hheader (fits_of_dispatch hslot hsent) hadm
  have hregular : Regular index frame
      (Repetition.start frame sender receiver info packet timing now) := by
    refine ⟨hframe ▸ hfrozen, hadm, hport, ?_, rfl⟩
    exact Recent.newest_findIdx receiver.recentPacketIds (recordTest b' frame)
  have hiff (x : Repetition b b') (move : Move b) (h : Regular index frame x) :
      x.HandsOverFirst move ↔ x.ArrivesForgotten move :=
    handsOverFirst_iff hmin hmax h move hbit
  have hnext (x : Repetition b b') (move : Move b) (h : Regular index frame x)
      (_ : x.ArrivesForgotten move) : Regular index frame (x.step index frame move) :=
    regular_step hmin hmax h move
  exact Run.forall_good_iff hiff hnext hregular moves

/-! ## A letter every second -/

/-- What is due is transmitted and acknowledged. -/
def transmission (now : UInt32) : Move numbered :=
  .update 10 fun _ =>
    { canStart := true, response := ack, now := now, backOff := 0, resetNow := now }

/-- A letter that device 44 sends to device 45 every second. -/
abbrev everySecond : Repetition numbered numbered :=
  Repetition.start letterFrame (numberedDevice 44) (numberedDevice 45) (toDevice 45) letter
    1000000 0

theorem admissible_everySecond : Admissible (numberedDevice 45) letterFrame := by
  have hsettings : SameSettings simplexDevice (numberedDevice 45) := ⟨rfl, rfl, rfl, rfl⟩
  exact hsettings.admissible admissible_letterFrame

/-- In the first second the letter is handed over. -/
theorem repeated_delivered_iff_letter :
    (everySecond.step firstSlot letterFrame (transmission 1000001)).HandsOverFirst (arrival 0) := by
  have hslot : (numberedDevice 44).findSlot fail = some firstSlot := by decide +kernel
  have hsent : ((numberedDevice 44).sendRepeatedly (toDevice 45) letter 1000000 0).result ≠
      fail := by
    decide +kernel
  have hiff := repeated_delivered_iff (numberedDevice 44) (numberedDevice 45) (by decide)
    (by decide) ⟨rfl, rfl⟩ (toDevice 45) letter 1000000 0 firstSlot (by decide) hslot hsent
    letterFrame (by decide +kernel) admissible_everySecond (by decide)
    [transmission 1000001, arrival 0]
  rw [Run.steps_cons, Run.steps_cons, Run.steps_nil, List.forall_mem_cons,
    List.forall_mem_singleton, List.forall_mem_cons, List.forall_mem_singleton] at hiff
  refine (hiff.mpr ⟨?_, fun _ => ?_⟩).2
  · rintro ⟨period, harriving, -⟩
    cases harriving
  · decide +kernel

/-- In the next second it is taken for a duplicate. -/
theorem everySecond_suppressed :
    KeepsIds (numberedDevice 45) ∧ Admissible (numberedDevice 45) letterFrame ∧
      portMatches (numberedDevice 45) letterFrame = true ∧
      recorded (numberedDevice 45) letterFrame = false ∧
      letterFrame = slotFrame
        ((numberedDevice 44).sendRepeatedly (toDevice 45) letter 1000000 0).bus firstSlot ∧
      ¬∀ v ∈ Run.steps (Repetition.step firstSlot letterFrame) everySecond
          [transmission 1000001, arrival 0, transmission 2000002, arrival 1],
        v.1.HandsOverFirst v.2 := by
  refine ⟨⟨rfl, rfl⟩, admissible_everySecond, by decide, by decide, by decide +kernel,
    fun hall => ?_⟩
  have htakes := hall
    (Run.final (Repetition.step firstSlot letterFrame) everySecond
      [transmission 1000001, arrival 0, transmission 2000002], arrival 1)
    (by
      rw [Run.steps_cons, Run.steps_cons, Run.steps_cons, Run.steps_cons]
      exact List.mem_of_getElem? (i := 3) rfl)
    ⟨1, by decide +kernel, by decide +kernel⟩
  revert htakes
  decide +kernel

end Pjon.Proofs.Periods
