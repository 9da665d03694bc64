import Pjon.Model.Strategies
import Pjon.Spec.LifeCycle
/-!
# A packet that is dispatched over another one

`dispatch` with an index overwrites the slot.  What was there before should not matter for the
packet that takes its place.
-/

namespace Pjon.Spec

open Pjon.Lib Pjon.Model

variable {b : Build}

/-- What a turn of `update` meets: the medium, the clock, and what `back_off` returns for each
number of attempts. -/
structure Occasion extends Medium where
  now : UInt32
  resetNow : UInt32
  backOff : UInt8 → UInt32

def Occasion.turn (occasion : Occasion) (attempts : UInt8) : Turn :=
  { occasion with backOff := occasion.backOff attempts }

section Treatment

variable (maxAttempts : UInt8) (i : Fin b.maxPackets)

/-- The turns of a call of `update`. -/
def turnsOf (bus : Bus b) (call : Fin b.maxPackets → Occasion) (k : Fin b.maxPackets) : Turn :=
  (call k).turn (bus.slot k).attempts

/-- What a call of `update` does for the slot: whether it calls `send_packet`, what it puts on
the medium and what it reports. -/
def treatment (bus : Bus b) (call : Fin b.maxPackets → Occasion) : Bool × List Event :=
  (decide (i ∈ bus.updateSends maxAttempts (turnsOf bus call)),
    (bus.update maxAttempts (turnsOf bus call)).events.filterMap fun
      | (k, event) => if k = i then some event else none)

/-- What a run of `update` does for the slot, call by call. -/
def treatments (bus : Bus b) (calls : List (Fin b.maxPackets → Occasion)) :
    List (Bool × List Event) :=
  (Run.steps (fun bus call => (bus.update maxAttempts (turnsOf bus call)).bus) bus calls).map
    fun step => treatment maxAttempts i step.1 step.2

/-- Every later run of `update` treats the packet as if the slot had been empty. -/
def FreshStart (bus : Bus b) (info : PacketInfo) (payload : Payload) (timing now : UInt32) :
    Prop :=
  ∀ calls : List (Fin b.maxPackets → Occasion),
    treatments maxAttempts i (bus.dispatch info payload timing now i).bus calls =
      treatments maxAttempts i ((bus.remove i).dispatch info payload timing now i).bus calls

end Treatment

/-- What the program calls, `dispatch` with the index of a slot included. -/
inductive SlotUsage (b : Build) where
  | dispatchAt (i : Fin b.maxPackets) (info : PacketInfo) (payload : Payload)
      (timing now : UInt32)
  | setPacketAutoDeletion (state : Bool)
  | call (usage : Usage b)

def slotStep (maxAttempts : UInt8) (bus : Bus b) : SlotUsage b → Bus b
  | .dispatchAt i info payload timing now => (bus.dispatch info payload timing now i).bus
  | .setPacketAutoDeletion state => { bus with autoDelete := state }
  | .call usage => usageStep maxAttempts bus usage

/-- Where the call gives a packet a slot that it names, `p` holds of the state before, the slot
and the packet; `PJON_FAIL` does not name a slot. -/
def AtOverwrite (p : Bus b → Fin b.maxPackets → PacketInfo → Payload → UInt32 → UInt32 → Prop)
    (bus : Bus b) (usage : SlotUsage b) : Prop :=
  ∀ i info payload timing now, usage = .dispatchAt i info payload timing now → i.val ≠ fail →
    (bus.dispatch info payload timing now i).result = i → p bus i info payload timing now

end Pjon.Spec
