import Pjon.Model.ThroughLora
import Pjon.Spec.Admission
import Pjon.Lib.Run
import Mathlib.Logic.Function.Basic
/-!
# Stations with radios

Instances that share a radio channel, and all that they have transmitted.  The channel loses,
delays and repeats it, and what a station transmits may come to any station: a radio has at any time
any packet that has been transmitted, or none.
-/

namespace Pjon.Spec

open Pjon.Lib Pjon.Model Pjon.Model.ThroughLora

variable {ι : Type} [DecidableEq ι] (builds : ι → Build)

/-- What the stations have in `_response`, which of them wait in `send_packet`, with a packet and its
length, and what has been transmitted. -/
structure RadioNetwork (ι : Type) where
  responses : ι → List UInt8 := fun _ => []
  waiting : ι → Option (Memory × Nat) := fun _ => none
  packets : List (List UInt8) := []

/-- What happens next.  A call comes with the state to which its program has brought the members of
the instance that are not the strategy's. -/
inductive RadioCall (builds : ι → Build) where
  | transmit (station : ι) (halfDuplex : Bool) (arrival : Option (List UInt8)) (packet : Memory)
      (length : Nat)
  | await (station : ι) (turns : List (Option (List UInt8)))
  | receive (station : ι) (bus : Bus (builds station)) (arrival : Option (List UInt8))

variable {builds}

/-- Whose call it is. -/
def RadioCall.caller : RadioCall builds → ι
  | .transmit station .. => station
  | .await station _ => station
  | .receive station .. => station

namespace RadioNetwork

/-- A station is not busy with another call, a radio has what was transmitted, and what is
transmitted is a frame: it is longer than a response, and not too long for the radio. -/
def Allowed (x : RadioNetwork ι) : RadioCall builds → Prop
  | .transmit station _ arrival _ length => x.waiting station = none ∧ 5 < length ∧ length < 256 ∧
    ∀ packet ∈ arrival, packet ∈ x.packets
  | .await station turns => x.waiting station ≠ none ∧
    ∀ arrival ∈ turns, ∀ packet ∈ arrival, packet ∈ x.packets
  | .receive station _ arrival => x.waiting station = none ∧ ∀ packet ∈ arrival, packet ∈ x.packets

def step (x : RadioNetwork ι) : RadioCall builds → RadioNetwork ι
  | .transmit station halfDuplex arrival packet length =>
    let sending := ThroughLora.transmit halfDuplex (x.responses station) arrival packet length
    { responses := Function.update x.responses station sending.response
      waiting := Function.update x.waiting station
        (if sending.result = none then some (packet, length) else none)
      packets := x.packets ++ sending.sent.toList }
  | .await station _ => { x with waiting := Function.update x.waiting station none }
  | .receive station bus arrival =>
    let receipt := ThroughLora.receive bus (x.responses station) arrival
    { x with
      responses := Function.update x.responses station receipt.response
      packets := x.packets ++ receipt.sent }

/-- `send_packet` returns `PJON_ACK` for the packet at the end of this wait. -/
def Confirms (builds : ι → Build) (x : RadioNetwork ι) (station : ι)
    (turns : List (Option (List UInt8))) (packet : Memory) (length : Nat) : Prop :=
  x.Allowed (.await station turns : RadioCall builds) ∧
    x.waiting station = some (packet, length) ∧
    awaitResponse (x.responses station) turns = ack

end RadioNetwork

/-- The first packet as long as a response that a station hears while it waits. -/
def firstResponse (turns : List (Option (List UInt8))) : Option (Option (List UInt8)) :=
  turns.find? fun arrival => frameSize arrival = responseLength

/-- The last five bytes. -/
def ending (frame : List UInt8) : List UInt8 := frame.drop (frame.length - responseLength)

/-- Some station has received a frame with this ending that is admissible there and asks for an
acknowledgement, after some station had transmitted it. -/
def AnsweredEnding (history : List (RadioNetwork ι × RadioCall builds)) (last : List UInt8) : Prop :=
  ∃ x station bus frame, (x, RadioCall.receive station bus (some frame)) ∈ history ∧
    frame ∈ x.packets ∧ 5 < frame.length ∧ ending frame = last ∧ Admissible bus frame ∧
      ackDue bus frame

/-- What comes of a packet that a station waits for a response to: the frame is on the channel when
another station hears it, and its end is there `behind` that; the wait succeeds if the end of the
frame is the first response in it. -/
structure Exchanged (builds : ι → Build) (station : ι) (packet : Memory) (length : Nat)
    (heard behind : RadioNetwork ι) : Prop where
  transmitted : packet.load 0 length ∈ heard.packets
  answered : ending (packet.load 0 length) ∈ behind.packets
  confirmed : ∀ turns, behind.Allowed (.await station turns : RadioCall builds) →
    (behind.Confirms builds station turns packet length ↔
      firstResponse turns = some (some (ending (packet.load 0 length))))

end Pjon.Spec
