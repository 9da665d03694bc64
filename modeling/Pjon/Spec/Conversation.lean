import Pjon.Spec.Exchange
import Pjon.Spec.LifeCycle
import Mathlib.Logic.Function.Basic
/-!
# A packet and its acknowledgement

What the send buffer is for: a packet is transmitted up to so many times over a medium that loses
frames and responses, until a response has come back.  The abstract channel says what becomes of the
packet; the instances at both ends are to do the same.
-/

namespace Pjon.Spec

open Pjon.Lib Pjon.Model

/-! ## The channel -/

/-- What a transmission meets: a free medium, and a way for the frame and for the response. -/
structure Fate where
  free : Bool
  arrives : Bool
  returns : Bool
  deriving DecidableEq, Repr

/-- The frame and the response get through. -/
def Fate.lucky (fate : Fate) : Bool := fate.free && fate.arrives && fate.returns

structure Channel where
  waits : Bool := true
  attempts : Nat := 0
  received : Bool := false
  reported : Bool := false
  deriving DecidableEq, Repr

namespace Channel

def attempt (maxAttempts : Nat) (c : Channel) (fate : Fate) : Channel :=
  if c.waits then
    let received := c.received || (fate.free && fate.arrives)
    if fate.lucky then { c with waits := false, attempts := c.attempts + 1, received := received }
    else if maxAttempts < c.attempts + 1 then
      { waits := false, attempts := c.attempts + 1, received := received, reported := true }
    else { c with attempts := c.attempts + 1, received := received }
  else c

def run (maxAttempts : Nat) (fates : List Fate) : Channel := fates.foldl (attempt maxAttempts) {}

end Channel

/-! ## The instances -/

variable {b b' : Build}

/-- `waits`: the packet is in its slot.  What happens is counted as long as it is. -/
structure Conversation (b b' : Build) where
  sender : Bus b
  receiver : Bus b'
  waits : Bool := true
  taken : List (List UInt8) := [] -- the payloads that have been handed over
  lost : Nat := 0 -- how often the packet has been reported as lost

/-- What the receiver function is called with. -/
def handedOver (outcome : Outcome b) : List (List UInt8) :=
  outcome.events.filterMap fun
    | .receiver payload _ => some payload
    | _ => none

/-- What happens next: `update`, with what the medium does with the frame and with the response for
it, or another call at the sender. -/
inductive Happening (b : Build) where
  | update (turns : Fin b.maxPackets → Turn) (arrives returns : Bool) (batch : Nat → Nat)
  | call (usage : Usage b)

namespace Conversation

variable (maxAttempts : UInt8) (index : Fin b.maxPackets) (x : Conversation b b')

/-- The frame in the slot. -/
def frame : List UInt8 := (x.sender.slot index).content.load 0 (x.sender.slot index).length

/-- What the receiver makes of the frame. -/
def heard (arrives : Bool) (batch : Nat → Nat) : Outcome b' :=
  if arrives then x.receiver.receive { bytes := x.frame index, batch := batch }
  else { result := fail, bus := x.receiver }

/-- `receive_response` yields what comes back. -/
def answered (turns : Fin b.maxPackets → Turn) (outcome : Outcome b') (returns : Bool) :
    Fin b.maxPackets → Turn :=
  Function.update turns index { turns index with
    response := if returns && outcome.events.contains (.sendResponse ack) then ack else fail }

/-- `update`, when the receiver makes this of the frame if it leaves. -/
def exchange (outcome : Outcome b') (turns : Fin b.maxPackets → Turn) : Conversation b b' :=
  let updated := x.sender.update maxAttempts turns
  let sent := !(framesOf index updated.events).isEmpty
  { sender := updated.bus
    receiver := if sent then outcome.bus else x.receiver
    waits := decide (Occupied updated.bus index)
    taken := x.taken ++ if sent then handedOver outcome else []
    lost := x.lost + lossesReported maxAttempts index (x.sender, .update turns) }

def step (x : Conversation b b') : Happening b → Conversation b b'
  | .update turns arrives returns batch =>
    if x.waits then
      let outcome := x.heard index arrives batch
      x.exchange maxAttempts index outcome (answered index turns outcome returns)
    else { x with sender := (x.sender.update maxAttempts turns).bus }
  | .call usage => { x with sender := (usage.run maxAttempts x.sender).bus }

/-- The sender has dispatched the packet. -/
def start (sender : Bus b) (receiver : Bus b') (info : PacketInfo) (packet : Payload)
    (now : UInt32) : Conversation b b' where
  sender := (sender.dispatch info packet 0 now fail).bus
  receiver := receiver

end Conversation

/-- What the happening means for a packet that was registered at this time. -/
def Happening.fate (index : Fin b.maxPackets) (registered : UInt32) : Happening b → Option Fate
  | .update turns arrives returns _ =>
    if (turns index).now - registered ≤ (turns index).backOff then none
    else some { free := (turns index).canStart, arrives := arrives, returns := returns }
  | .call _ => none

/-- The program goes on using the instance, and does not remove the packet. -/
def Happening.Proper : Happening b → Prop
  | .update _ _ _ _ => True
  | .call usage => usage.Proper ∧ (∀ turns, usage ≠ .update turns) ∧
    (∀ index, usage ≠ .remove index) ∧ ∀ deviceId, usage ≠ .removeAllPackets deviceId

/-- The instances have come to what the channel has. -/
structure Mirrors (payload : List UInt8) (x : Conversation b b') (c : Channel) : Prop where
  waits : x.waits = c.waits
  taken : x.taken = if c.received then [payload] else []
  lost : x.lost = c.reported.toNat

/-- A packet that was acknowledged has been handed over, once; one that was not has been reported,
once, and was tried as often as it may be. -/
structure Reliable (maxAttempts : Nat) (payload : List UInt8) (x : Conversation b b')
    (fates : List Fate) : Prop where
  once : x.taken = [] ∨ x.taken = [payload]
  delivered : x.waits = false → x.lost = 0 → x.taken = [payload]
  reported : x.lost ≤ 1 ∧ (x.lost = 1 → ∃ before after, fates = before ++ after ∧
    before.length = maxAttempts + 1 ∧ ∀ fate ∈ before, fate.lucky = false)
  ends : (∃ fate ∈ fates.take (maxAttempts + 1), fate.lucky = true) →
    x.waits = false ∧ x.lost = 0

end Pjon.Spec
