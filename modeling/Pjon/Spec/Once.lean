import Pjon.Model.Sending
import Pjon.Model.Receive
import Pjon.Lib.Dedup
/-!
# Delivery at most once

A medium between a sender and a receiver may lose a frame, delay it or deliver it
again, and may lose the acknowledgement for it.  Seen from the receiver, a run is a
sequence of arrivals: of one of the frames that the sender has put on the medium for
the packet in question, or of anything else.
-/

namespace Pjon.Spec

open Pjon.Lib Pjon.Model

variable {b : Build}

/-! ## Arrivals -/

/-- What comes in at a receiver. -/
inductive Arrival where
  | frame (k : Nat) (batch : Nat → Nat) -- the frame that was sent as the `k`-th
  | other (delivery : Delivery)

def Arrival.own : Arrival → Bool
  | .frame _ _ => true
  | .other _ => false

/-- `receive`, if there is such a frame. -/
def arrive (receiver : Bus b) (sent : List (List UInt8)) : Arrival → Outcome b
  | .frame k batch =>
    match sent[k]? with
    | none => { result := fail, bus := receiver }
    | some frame => receiver.receive { bytes := frame, batch := batch }
  | .other delivery => receiver.receive delivery

/-- The receiver function is called. -/
def calls (outcome : Outcome b) : Bool :=
  outcome.events.any fun
    | .receiver _ _ => true
    | _ => false

/-- The instance looks for duplicates. -/
structure KeepsIds (bus : Bus b) : Prop where
  compiled : b.includePacketId = true
  notRouter : bus.router = false

/-! ## A receiver by itself -/

section Receiver

variable (receiver : Bus b) (sent : List (List UInt8)) (arrivals : List Arrival)

def arrivalSteps : List (Bus b × Arrival) :=
  Run.steps (fun bus arrival => (arrive bus sent arrival).bus) receiver arrivals

/-- How often the receiver function is called for one of the frames. -/
def callbacks : Nat :=
  (arrivalSteps receiver sent arrivals).countP
    (Dedup.takesOwn Arrival.own fun bus arrival => calls (arrive bus sent arrival))

/-- How many other packet ids are recorded between the first and the last arrival of one
of the frames. -/
def otherRecords : Nat :=
  (Dedup.firstToLast (fun step => step.2.own) (arrivalSteps receiver sent arrivals)).countP
    (Dedup.addsOther (fun bus arrival => (arrive bus sent arrival).bus) Bus.recentPacketIds
      Arrival.own)

end Receiver

/-! ## A blocking transmission -/

/-- The frames of one call carry one packet id, and no receiver that records no other id
meanwhile hands more than one of them over. -/
structure DeliversOnce (sent : List Transmission) : Prop where
  sameId : ∀ t ∈ sent, ∀ t' ∈ sent, t.info.id = t'.info.id
  atMostOnce : ∀ {b' : Build} (receiver : Bus b'), KeepsIds receiver →
    4 ≤ b'.packetMaxLength → b'.packetMaxLength < 65536 → ∀ arrivals : List Arrival,
      otherRecords receiver (sent.map Transmission.frame) arrivals = 0 →
        callbacks receiver (sent.map Transmission.frame) arrivals ≤ 1

section Attempts

variable (sender : Bus b) (info : PacketInfo) (payload : Payload) (todo : Nat)
  (attempts : Nat → Attempt)

/-- The instance that makes attempt `k`, if there is one. -/
def before (k : Nat) : Bus b := (fun bus => (bus.composeData info payload).bus)^[k] sender

/-- The packet in memory asks for an acknowledgement. -/
def wantsAck (packet : Memory) : Bool := packet 0 != broadcast && has (packet 1) ackReqBit

/-- An attempt that transmits this packet is the last one. -/
def Answered (packet : Memory) (medium : Medium) : Prop :=
  sender.halfDuplex = true →
    medium.canStart = true ∧ (wantsAck packet = true → medium.response = ack)

/-- Of at most `todo` attempts, attempt `k` is made, and the medium is free for it. -/
structure Transmits (k : Nat) : Prop where
  fits : (sender.composeData info payload).result ≠ 0
  limit : k < todo
  inTime : ∀ j ≤ k, (attempts j).inTime = true
  unanswered : ∀ j < k,
    ¬Answered sender (before sender info payload (j + 1)).data (attempts j).toMedium
  free : sender.halfDuplex = true → (attempts k).canStart = true

/-- The packet comes with an id, or no two attempts transmit but a pair of consecutive
ones between which the seed wraps. -/
def KeepsOneId : Prop :=
  info.id ≠ 0 ∨ ∀ j k, j < k →
    Transmits sender info payload todo attempts j →
    Transmits sender info payload todo attempts k →
      k = j + 1 ∧ (sender.packetIdSeed.toNat + j) % 65536 = 65535

end Attempts

end Pjon.Spec
