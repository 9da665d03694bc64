import Pjon.Proofs.Due
import Pjon.Spec.FreshStart
/-!
# What is left in a slot

`dispatch` sets everything in the slot that `update` looks at but the number of attempts.
-/

namespace Pjon.Proofs.FreshStart

open Pjon.Lib Pjon.Model Pjon.Spec Pjon.Proofs.Due

variable {b : Build} {maxAttempts : UInt8} {i : Fin b.maxPackets} {bus : Bus b}
  {info : PacketInfo} {payload : Payload} {timing now : UInt32}

/-! ## The slot that `dispatch` takes -/

theorem findSlot_index (bus : Bus b) (hi : i.val ≠ fail) : bus.findSlot i = some i := by
  unfold Bus.findSlot
  rw [List.find?_eq_some_iff_getElem]
  have hrequested : (i.val != fail) = true := bne_iff_ne.mpr hi
  refine ⟨by simp [hrequested], i, by simp, by simp, fun k hk => ?_⟩
  simp [hrequested, hk]

theorem setSlot_setSlot (p q : Packet) : (bus.setSlot i p).setSlot i q = bus.setSlot i q := by
  unfold Bus.setSlot
  dsimp only
  rw [Vector.set_set]

/-- A packet is composed in the same way whatever the send buffer holds. -/
theorem composePacket_setSlot (p : Packet) (destination : Memory) :
    (bus.setSlot i p).composePacket info destination payload =
      { bus.composePacket info destination payload with
        bus := (bus.composePacket info destination payload).bus.setSlot i p } := by
  have hinfo : (bus.setSlot i p).completeInfo info = bus.completeInfo info := rfl
  have hseed : (bus.setSlot i p).advanceSeed info = (bus.advanceSeed info).setSlot i p := by
    have hgenerates : (bus.setSlot i p).generatesId info = bus.generatesId info := rfl
    unfold Bus.advanceSeed
    rw [hgenerates]
    split_ifs <;> rfl
  unfold Bus.composePacket
  rw [hinfo, hseed]
  dsimp only
  split_ifs <;> rfl

/-- What `dispatch` leaves in the slot that it is told to take. -/
def taken (bus : Bus b) (i : Fin b.maxPackets) (info : PacketInfo) (payload : Payload)
    (timing now : UInt32) : Packet :=
  { bus.slot i with
    content := (bus.slot i).content.apply
      (bus.composePacket info (bus.slot i).content payload).writes
    length := (bus.composePacket info (bus.slot i).content payload).result
    state := toBeSent
    registration := now
    timing := timing }

theorem dispatch_index (hi : i.val ≠ fail)
    (hfits : (bus.composePacket info (bus.slot i).content payload).result ≠ 0) :
    (bus.dispatch info payload timing now i).bus =
      (bus.advanceSeed info).setSlot i (taken bus i info payload timing now) := by
  rw [Bus.dispatch, findSlot_index bus hi]
  dsimp only
  rw [if_neg hfits, PacketIds.composePacket_bus]
  rfl

/-- A packet in the place of a removed one has no attempts, and nothing else is different. -/
theorem dispatch_remove (hi : i.val ≠ fail)
    (hfits : (bus.composePacket info (bus.slot i).content payload).result ≠ 0) :
    ((bus.remove i).dispatch info payload timing now i).bus =
      (bus.advanceSeed info).setSlot i
        { taken bus i info payload timing now with attempts := 0 } := by
  have hslot : (bus.remove i).slot i =
      { bus.slot i with attempts := 0, length := 0, registration := 0, state := 0 } :=
    Bus.slot_setSlot _ _ _
  have hsame : ((bus.remove i).composePacket info ((bus.remove i).slot i).content payload) =
      { bus.composePacket info (bus.slot i).content payload with
        bus := (bus.advanceSeed info).setSlot i
          { bus.slot i with attempts := 0, length := 0, registration := 0, state := 0 } } := by
    rw [hslot, ← PacketIds.composePacket_bus bus info (bus.slot i).content payload]
    exact composePacket_setSlot _ _
  rw [Bus.dispatch, findSlot_index _ hi]
  dsimp only
  rw [hsame, hslot, if_neg hfits, setSlot_setSlot]
  rfl

theorem fits_of_result (hi : i.val ≠ fail)
    (hresult : (bus.dispatch info payload timing now i).result = i) :
    (bus.composePacket info (bus.slot i).content payload).result ≠ 0 :=
  Update.fits_of_dispatch (findSlot_index bus hi) (hresult.trans_ne hi)

/-! ## The first turn -/

/-- A strategy that waits for the first attempt only as long as the clock is behind `timing`, and
never makes another one. -/
def impatient (timing now : UInt32) : Occasion where
  canStart := true
  response := fail
  now := now + 1
  resetNow := now + 1
  backOff := fun attempts => if attempts = 0 then -timing else -timing - 1

theorem not_lt_last (x : UInt32) : ¬ (-1 : UInt32) < x := by
  rw [UInt32.lt_iff_toNat_lt, Nat.not_lt]
  exact Nat.le_of_lt_succ x.toNat_lt

/-- With that strategy the packet is sent if and only if it has no attempts. -/
theorem sends_impatient (packet : Packet) (hstate : packet.state = toBeSent)
    (htiming : packet.timing = timing) (hregistration : packet.registration = now) :
    (bus.setSlot i packet).Sends i ((impatient timing now).turn packet.attempts) ↔
      packet.attempts = 0 := by
  have htoBeSent : toBeSent ≠ 0 ∧ toBeSent ≠ ack := by decide
  unfold Bus.Sends
  rw [Bus.slot_setSlot, hstate, htiming, hregistration, and_iff_right htoBeSent.1,
    and_iff_left htoBeSent.2]
  have helapsed : now + 1 - now = 1 := by
    rw [UInt32.add_comm, UInt32.add_sub_cancel]
  unfold Occasion.turn impatient
  dsimp only
  rw [helapsed]
  by_cases hattempts : packet.attempts = 0
  · rw [if_pos hattempts, UInt32.add_right_neg]
    exact iff_of_true (by decide) hattempts
  · have hlast : timing + (-timing - 1) = -1 := by
      rw [UInt32.sub_eq_add_neg, ← UInt32.add_assoc, UInt32.add_right_neg, UInt32.zero_add]
    rw [if_neg hattempts, hlast]
    exact iff_of_false (not_lt_last 1) hattempts

theorem mem_updateSends_impatient (packet : Packet) (hstate : packet.state = toBeSent)
    (htiming : packet.timing = timing) (hregistration : packet.registration = now) :
    i ∈ (bus.setSlot i packet).updateSends maxAttempts
        (turnsOf (bus.setSlot i packet) fun _ => impatient timing now) ↔
      packet.attempts = 0 := by
  rw [mem_updateSends, turnsOf, Bus.slot_setSlot]
  exact sends_impatient packet hstate htiming hregistration

/-- An overwritten slot starts afresh if and only if nothing was tried with what it held. -/
theorem freshStart_iff_attempts (maxAttempts : UInt8) (hi : i.val ≠ fail)
    (hresult : (bus.dispatch info payload timing now i).result = i) :
    FreshStart maxAttempts i bus info payload timing now ↔ (bus.slot i).attempts = 0 := by
  have hfits := fits_of_result hi hresult
  unfold FreshStart
  rw [dispatch_index hi hfits, dispatch_remove hi hfits]
  constructor
  · intro h
    have hfirst := h [fun _ => impatient timing now]
    unfold treatments at hfirst
    rw [Run.steps_cons, Run.steps_cons, Run.steps_nil, Run.steps_nil, List.map_singleton,
      List.map_singleton, List.singleton_inj] at hfirst
    have hsends := decide_eq_decide.mp (congrArg Prod.fst hfirst)
    have hover := (mem_updateSends_impatient (taken bus i info payload timing now) rfl rfl
      rfl).symm.trans hsends
    have hempty := hover.trans (mem_updateSends_impatient
      { taken bus i info payload timing now with attempts := 0 } rfl rfl rfl)
    exact hempty.mpr rfl
  · intro hattempts calls
    have hsame : { taken bus i info payload timing now with attempts := 0 } =
        taken bus i info payload timing now := by
      rw [← hattempts]
      rfl
    rw [hsame]

/-- In every run, each packet that is given a slot by its index starts afresh if and only if no
attempt was made to send what the slot held. -/
theorem freshStart_iff (maxAttempts : UInt8) (start : Bus b) (usages : List (SlotUsage b)) :
    (∀ step ∈ Run.steps (slotStep maxAttempts) start usages,
        AtOverwrite (fun bus i => FreshStart maxAttempts i bus) step.1 step.2) ↔
      ∀ step ∈ Run.steps (slotStep maxAttempts) start usages,
        AtOverwrite (fun bus i _ _ _ _ => (bus.slot i).attempts = 0) step.1 step.2 := by
  have hstep : ∀ step : Bus b × SlotUsage b,
      AtOverwrite (fun bus i => FreshStart maxAttempts i bus) step.1 step.2 ↔
        AtOverwrite (fun bus i _ _ _ _ => (bus.slot i).attempts = 0) step.1 step.2 := by
    intro step
    unfold AtOverwrite
    apply forall₅_congr
    intro i info payload timing now
    refine forall_congr' fun _ => forall_congr' fun hi => forall_congr' fun hresult => ?_
    exact freshStart_iff_attempts maxAttempts hi hresult
  exact forall₂_congr fun step _ => hstep step

/-! ## A letter over another one -/

/-- An instance that asks for acknowledgements. -/
def sendingDevice : Bus defaultBuild where
  config := txInfoBit ||| ackReqBit
  tx := { id := 45 }

def toNeighbour : PacketInfo := { rx := { id := 44 }, header := txInfoBit ||| ackReqBit }

/-- A letter is sent, and not acknowledged. -/
def sendLetter : SlotUsage defaultBuild := .call (.send toNeighbour (.single 65) 0)

def failToSend : SlotUsage defaultBuild :=
  .call (.update fun _ =>
    { canStart := true, response := fail, now := 1, backOff := 0, resetNow := 1 })

def sendAnother : SlotUsage defaultBuild :=
  .dispatchAt firstPacket toNeighbour (.single 66) 0 100

/-- The instance after an attempt to send the first letter. -/
def tried : Bus defaultBuild := slotStep 20 (slotStep 20 sendingDevice sendLetter) failToSend

/-- The clock goes on by one microsecond under `SoftwareBitBang`. -/
def nextMicrosecond : Occasion where
  canStart := true
  response := fail
  now := 101
  resetNow := 101
  backOff := fun attempts => LinkStrategy.backOff attempts 0 .softwareBitBang

/-- The second letter waits for the back-off of the first one. -/
theorem second_letter_waits :
    ¬ ∀ (b : Build) (maxAttempts : UInt8) (start : Bus b) (usages : List (SlotUsage b)),
      Blank start → ∀ step ∈ Run.steps (slotStep maxAttempts) start usages,
        AtOverwrite (fun bus i => FreshStart maxAttempts i bus) step.1 step.2 := by
  intro h
  have hblank : Blank sendingDevice :=
    { autoDelete := rfl, free := by decide, attempts := by decide }
  have hresult : (tried.dispatch toNeighbour (.single 66) 0 100 firstPacket).result =
      firstPacket := by
    decide +kernel
  have hwaits : ¬ (tried.dispatch toNeighbour (.single 66) 0 100 firstPacket).bus.Sends firstPacket
      (turnsOf (tried.dispatch toNeighbour (.single 66) 0 100 firstPacket).bus
        (fun _ => nextMicrosecond) firstPacket) := by
    decide +kernel
  have hsent : ((tried.remove firstPacket).dispatch toNeighbour (.single 66) 0 100
        firstPacket).bus.Sends firstPacket
      (turnsOf ((tried.remove firstPacket).dispatch toNeighbour (.single 66) 0 100
        firstPacket).bus (fun _ => nextMicrosecond) firstPacket) := by
    decide +kernel
  have hmem : (tried, sendAnother) ∈
      Run.steps (slotStep 20) sendingDevice [sendLetter, failToSend, sendAnother] := by
    rw [Run.steps_cons, Run.steps_cons, Run.steps_cons]
    exact List.mem_cons_of_mem _ (List.mem_cons_of_mem _ List.mem_cons_self)
  -- nothing else about the state is needed
  generalize tried = bus at hresult hwaits hsent hmem
  have hindex : firstPacket.val ≠ fail := by decide
  have hfresh : FreshStart 20 firstPacket bus toNeighbour (.single 66) 0 100 :=
    h defaultBuild 20 sendingDevice _ hblank (bus, sendAnother) hmem firstPacket toNeighbour
      (.single 66) 0 100 rfl hindex hresult
  have hfirst := List.singleton_inj.mp (hfresh [fun _ => nextMicrosecond])
  have hsends := decide_eq_decide.mp (congrArg Prod.fst hfirst)
  exact hwaits ((mem_updateSends 20 _).mp (hsends.mpr ((mem_updateSends 20 _).mpr hsent)))

end Pjon.Proofs.FreshStart
