import Pjon.Spec.Admission
import Pjon.Spec.Once
/-!
# A buffered packet between two instances

The parties of `dispatch` and `update`: a sender with the packet in a slot of its send
buffer, the frames that have left for it, and a receiver.  The sender goes on using its
instance, the medium delivers any frame at any time, again or never, and answers the
sender as it likes.
-/

namespace Pjon.Spec

open Pjon.Lib Pjon.Model

variable {b b' : Build}

structure Exchange (b b' : Build) where
  sender : Bus b
  receiver : Bus b'
  pending : Bool := true -- the slot still holds the packet
  sent : List (List UInt8) := []

/-- What happens next. -/
inductive Move (b : Build) where
  | update (maxAttempts : UInt8) (turns : Fin b.maxPackets → Turn)
  | dispatch (info : PacketInfo) (packet : Payload) (timing now : UInt32) (packetIndex : Nat)
  | remove (i : Fin b.maxPackets)
  | receive (delivery : Delivery) -- by the sender
  | arrive (arrival : Arrival) -- at the receiver

def Move.own : Move b → Bool
  | .arrive arrival => arrival.own
  | _ => false

/-- The frames that left for a slot. -/
def framesOf (index : Fin b.maxPackets) (events : List (Fin b.maxPackets × Event)) :
    List (List UInt8) :=
  events.filterMap fun
    | (i, .sendFrame frame) => if i = index then some frame else none
    | _ => none

namespace Exchange

def step (index : Fin b.maxPackets) (x : Exchange b b') : Move b → Exchange b b'
  | .update maxAttempts turns =>
    let updated := x.sender.update maxAttempts turns
    { x with
      sender := updated.bus
      pending := x.pending && (updated.bus.slot index).state != 0
      sent := x.sent ++ if x.pending then framesOf index updated.events else [] }
  | .dispatch info packet timing now packetIndex =>
    { x with
      sender := (x.sender.dispatch info packet timing now packetIndex).bus
      pending := x.pending && packetIndex != index.val }
  | .remove i => { x with sender := x.sender.remove i, pending := x.pending && i != index }
  | .receive delivery => { x with sender := (x.sender.receive delivery).bus }
  | .arrive arrival => { x with receiver := (arrive x.receiver x.sent arrival).bus }

/-- The receiver function is called in this move. -/
def takes (x : Exchange b b') : Move b → Bool
  | .arrive arrival => calls (arrive x.receiver x.sent arrival)
  | _ => false

/-- The sender has dispatched the packet. -/
def start (sender : Bus b) (receiver : Bus b') (info : PacketInfo) (packet : Payload)
    (timing now : UInt32) (packetIndex : Nat) : Exchange b b' where
  sender := (sender.dispatch info packet timing now packetIndex).bus
  receiver := receiver

variable (index : Fin b.maxPackets) (x : Exchange b b') (moves : List (Move b))

/-- How often the receiver function is called for the packet. -/
def callbacks : Nat := (Run.steps (step index) x moves).countP (Dedup.takesOwn Move.own takes)

/-- How many other packet ids the receiver records between the first and the last arrival
of the packet. -/
def otherRecords : Nat :=
  (Dedup.firstToLast (fun v => v.2.own) (Run.steps (step index) x moves)).countP
    (Dedup.addsOther (step index) (fun x => x.receiver.recentPacketIds) Move.own)

end Exchange

/-- A frame of the packet that arrives and asks for an acknowledgement is acknowledged, if
the receiver admits it. -/
def Acknowledges (index : Fin b.maxPackets) (x : Exchange b b') (moves : List (Move b))
    (admitted : Bus b' → List UInt8 → Prop) : Prop :=
  ∀ v ∈ Run.steps (Exchange.step index) x moves, ∀ k batch frame,
    v.2 = .arrive (.frame k batch) → v.1.sent[k]? = some frame →
      admitted v.1.receiver frame → has (header frame) ackReqBit = true →
        Event.sendResponse ack ∈ (arrive v.1.receiver v.1.sent (.frame k batch)).events

end Pjon.Spec
