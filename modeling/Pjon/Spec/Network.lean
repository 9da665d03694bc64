import Pjon.Model.DualUDP
import Pjon.Lib.Run
import Mathlib.Logic.Function.Basic
/-!
# Instances on a network of datagrams

Instances at addresses, and all the datagrams that they have sent.  The network loses, delays,
reorders and repeats them: a socket may yield any of them at any time that was sent to its address
or to everyone.  The program of an instance does with it what it likes between its calls.
-/

namespace Pjon.Spec

open Pjon.Lib Pjon.Model Pjon.Model.DualUDP

variable {α : Type} [DecidableEq α] (hosts : α → Host)

/-- The instances and the datagrams.  An instance that waits for a response is in `send_packet`,
with a packet and its length. -/
structure Network (α : Type) where
  strategies : α → Strategy α := fun _ => {}
  waiting : α → Option (Memory × Nat) := fun _ => none
  datagrams : List (Datagram α) := []

/-- What happens next.  A call comes with the state in which its program has brought the members
of the instance that are not the strategy's. -/
inductive NetworkCall (hosts : α → Host) where
  | send (sender : α) (halfDuplex canStart : Bool) (packet : Memory) (length : Nat)
  | await (sender : α) (polls : List (Listening α))
  | receive (receiver : α) (bus : Bus (hosts receiver).build)
      (arrivals : List (Option (Datagram α)))
  | register (owner : α) (nodes : List (Node α)) (unremovable : UInt8)
      (autoRegistration autoDiscovery : Bool)

/-- The socket at the address may yield the datagram. -/
def Reaches (datagram : Datagram α) (address : α) : Prop :=
  datagram.destination = none ∨ datagram.destination = some address

instance (datagram : Datagram α) (address : α) : Decidable (Reaches datagram address) := by
  unfold Reaches
  exact inferInstance

namespace Network

variable {hosts}

/-- The call is made by an instance that is not busy with another one, and what its socket yields
was sent to it.  What is sent is a frame, which has more than four bytes. -/
def Allowed (x : Network α) : NetworkCall hosts → Prop
  | .send sender _ _ _ length => x.waiting sender = none ∧ 4 < length
  | .await sender polls => x.waiting sender ≠ none ∧
    ∀ poll ∈ polls, ∀ datagram ∈ poll.arrival, datagram ∈ x.datagrams ∧ Reaches datagram sender
  | .receive receiver _ arrivals => x.waiting receiver = none ∧
    ∀ arrival ∈ arrivals, ∀ datagram ∈ arrival,
      datagram ∈ x.datagrams ∧ Reaches datagram receiver
  | .register owner _ _ _ _ => x.waiting owner = none

def step (x : Network α) : NetworkCall hosts → Network α
  | .send sender halfDuplex canStart packet length =>
    let sending :=
      transmit (hosts sender) sender halfDuplex canStart (x.strategies sender) packet length
    { strategies := Function.update x.strategies sender sending.strategy
      waiting := Function.update x.waiting sender
        (if sending.result = none then some (packet, length) else none)
      datagrams := x.datagrams ++ sending.sent.toList }
  | .await sender polls =>
    let awaited := awaitResponse (hosts sender) (x.strategies sender) polls
    { x with
      strategies := Function.update x.strategies sender awaited.2
      waiting := Function.update x.waiting sender none }
  | .receive receiver bus arrivals =>
    let receipt := receive (hosts receiver) receiver bus (x.strategies receiver) arrivals
    { x with
      strategies := Function.update x.strategies receiver receipt.strategy
      datagrams := x.datagrams ++ receipt.response.toList }
  | .register owner nodes unremovable autoRegistration autoDiscovery =>
    { x with
      strategies := Function.update x.strategies owner
        { x.strategies owner with
          nodes := nodes
          unremovableNodeCount := unremovable
          autoRegistration := autoRegistration
          autoDiscovery := autoDiscovery } }

/-- `send_packet` returns `PJON_ACK` for the packet at the end of this wait. -/
def Confirms (hosts : α → Host) (x : Network α) (sender : α) (polls : List (Listening α))
    (packet : Memory) (length : Nat) : Prop :=
  x.Allowed (.await sender polls : NetworkCall hosts) ∧ x.waiting sender = some (packet, length) ∧
    (awaitResponse (hosts sender) (x.strategies sender) polls).1 = ack

end Network

section History

variable (history : List (Network α × NetworkCall hosts))

/-- A device with the id that the packet is sent to has received it and has responded. -/
def Responded (packet : Memory) (length : Nat) : Prop :=
  ∃ x receiver bus arrivals, (x, NetworkCall.receive receiver bus arrivals) ∈ history ∧
    bus.tx.id = packet 0 ∧ (∃ datagram, some datagram ∈ arrivals ∧
      datagram.bytes = packet.load 0 length) ∧
    (receive (hosts receiver) receiver bus (x.strategies receiver) arrivals).response ≠ none

/-- A call of `receive` responds to the sender of the last datagram of the packet that it
accepts.  A packet that comes in one datagram is the frame in it, sent to the device. -/
structure Answers (x : Network α) (receiver : α) (bus : Bus (hosts receiver).build)
    (arrivals : List (Option (Datagram α))) (earlier : List (Datagram α)) (last : Datagram α)
    (senderId receiverId : UInt8) : Prop where
  comes : ∃ rest, arrivals = (earlier ++ [last]).map some ++ rest
  sent : last ∈ x.datagrams
  responds : (receive (hosts receiver) receiver bus (x.strategies receiver) arrivals).response =
    some { source := receiver, destination := some last.source
           bytes := [senderId, receiverId, UInt8.ofNat ack] }
  whole : earlier = [] →
    let packet := (receive (hosts receiver) receiver bus (x.strategies receiver)
      arrivals).bus.lastPacketInfo
    4 < last.bytes.length ∧ packet = bus.parse (bus.data.store 0 last.bytes) ∧
      packet.tx.id = senderId ∧ packet.rx.id = receiverId ∧
      (receiverId = bus.tx.id ∨ has packet.header macBit = true)

/-- Some device has answered a packet that ended in a datagram from the sender, and with its
sender id. -/
def AnsweredBefore (sender : α) (senderId : UInt8) : Prop :=
  ∃ x receiver bus arrivals, (x, NetworkCall.receive receiver bus arrivals) ∈ history ∧
    ∃ earlier last receiverId, last.source = sender ∧
      Answers hosts x receiver bus arrivals earlier last senderId receiverId

end History

/-- No confirmation without an answer to the packet itself. -/
def NoFalseAck : Prop :=
  ∀ (calls : List (NetworkCall hosts)) (sender : α) (polls : List (Listening α)) (packet : Memory)
    (length : Nat),
    (∀ v ∈ Run.steps Network.step {} calls, v.1.Allowed v.2) →
    (Run.final Network.step ({} : Network α) calls).Confirms hosts sender polls packet length →
    Responded hosts (Run.steps Network.step {} calls) packet length

end Pjon.Spec
