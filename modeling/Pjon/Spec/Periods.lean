import Pjon.Spec.Exchange
/-!
# A packet that is sent repeatedly

What is put in the send buffer with a timing stays there and is transmitted anew in every
period.  A period ends when the packet is acknowledged, or needs no acknowledgement; what is
transmitted within it are repetitions of one message.
-/

namespace Pjon.Spec

open Pjon.Lib Pjon.Model

variable {b b' : Build}

/-- The turn of a slot in which its packet is transmitted and the period ends. -/
def EndsPeriod (bus : Bus b) (index : Fin b.maxPackets) (turn : Turn) : Prop :=
  (bus.slot index).state ≠ 0 ∧ (bus.slot index).state ≠ ack ∧
    (bus.slot index).timing + turn.backOff < turn.now - (bus.slot index).registration ∧
    (bus.sendComposed (bus.slot index).content (bus.slot index).length turn.toMedium).1 = ack

instance (bus : Bus b) (index : Fin b.maxPackets) (turn : Turn) :
    Decidable (EndsPeriod bus index turn) := by
  unfold EndsPeriod
  exact inferInstance

/-- An exchange whose frames come with their periods. -/
structure Repetition (b b' : Build) extends Exchange b b' where
  period : Nat := 0 -- how many periods have ended
  periods : List Nat := [] -- the periods of the frames in `sent`
  arrived : List Nat := [] -- the periods of the frames that have arrived
  others : Nat -- how many packet ids were recorded since that of the packet

namespace Repetition

/-- The period of the frame that arrives. -/
def arriving (x : Repetition b b') : Move b → Option Nat
  | .arrive (.frame k _) => x.periods[k]?
  | _ => none

def ends (index : Fin b.maxPackets) (x : Repetition b b') : Move b → Bool
  | .update _ turns => x.pending && decide (EndsPeriod x.sender index (turns index))
  | _ => false

def newestRecord (bus : Bus b) : PacketRecord := bus.recentPacketIds.get ⟨0, b.recent_pos⟩

/-- How many ids were recorded since that of the packet `frame`, after one more call of
`receive`. -/
def othersAfter (frame : List UInt8) (before after : Bus b) (others : Nat) : Nat :=
  if after.recentPacketIds = before.recentPacketIds then others
  else if Bus.sameId (infoOf before frame) (newestRecord after) then 0 else others + 1

def step (index : Fin b.maxPackets) (frame : List UInt8) (x : Repetition b b') (move : Move b) :
    Repetition b b' :=
  let next := x.toExchange.step index move
  { toExchange := next
    period := x.period + (x.ends index move).toNat
    periods := x.periods ++ List.replicate (next.sent.length - x.sent.length) x.period
    arrived := x.arrived ++ (x.arriving move).toList
    others := othersAfter frame x.receiver next.receiver x.others }

/-- The sender has scheduled the packet, and the receiver has recorded some ids since it last
recorded that of the packet, if it ever has. -/
def start (frame : List UInt8) (sender : Bus b) (receiver : Bus b') (info : PacketInfo)
    (packet : Payload) (timing now : UInt32) : Repetition b b' where
  sender := (sender.sendRepeatedly info packet timing now).bus
  receiver := receiver
  others := receiver.recentPacketIds.toList.findIdx (Bus.sameId (infoOf receiver frame))

variable (x : Repetition b b') (move : Move b)

/-- This is the arrival of a frame of a period of which none has arrived before. -/
def IsFirst : Prop := ∃ period, x.arriving move = some period ∧ period ∉ x.arrived

/-- The first frame of a period that arrives is handed over. -/
def HandsOverFirst : Prop := x.IsFirst move → x.takes move = true

/-- The first frame of a period arrives when the receiver has recorded other packet ids in all
places since it recorded that of the packet. -/
def ArrivesForgotten : Prop := x.IsFirst move → b'.maxRecentPacketIds ≤ x.others

end Repetition

end Pjon.Spec
