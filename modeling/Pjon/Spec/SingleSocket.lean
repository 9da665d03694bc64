import Pjon.Model.SingleSocket
/-!
# Exchanges over a single socket

What a session is for: with each pair of calls, one at either end, either end gets the packet of
the other one, once and in order.  A call is acknowledged only if both packets of its exchange have
been received.
-/

namespace Pjon.Spec

open Pjon.Lib Pjon.Model Pjon.Model.EthernetTCP

/-- What a process comes to on a client, with what it writes. -/
structure Performance (α : Type) where
  result : α
  events : List LinkEvent := []
  written : List UInt8 := []
  client : TCPHelperClient

/-- A process on a client that takes all that is written. -/
def perform {α : Type} : Talk α → TCPHelperClient → Performance α
  | .done result, client => { result := result, client := client }
  | .read count next, client =>
    let read := client.readBytes count
    perform (next read.bytes) read.client
  | .seek pattern next, client =>
    let search := client.readUntilHeader (Word.swap (Word.ofBytes pattern))
    perform (next search.1) search.2
  | .write items next, client =>
    let rest := perform (next true) client
    { rest with written := items ++ rest.written }
  | .call event next, client =>
    let rest := perform next client
    { rest with events := event :: rest.events }

/-- What the receiver of the other end is called with. -/
def parcel (call : TransferCall) : Option (UInt8 × List UInt8) :=
  if 0 < call.length then some (call.id, call.contents.getD []) else none

/-- A pair of calls; the initiator's are all for the node that it is connected to.  The packets are
not too long for either end. -/
structure PacketExchange (settings : Settings) (remote : UInt8) where
  calls : Side → TransferCall
  toRemote : (calls .left).id = remote
  fits : ∀ side, (calls side).length ≤ settings.maxPacketSize
  short : ∀ side, (calls side).length < 32768

variable {settings : Settings} {remote : UInt8}

/-- The initiator is at the left. -/
def sessionStart (exchanges : List (PacketExchange settings remote)) :
    Connection UInt8 LinkEvent Unit :=
  { ends := fun side =>
      { process := Talk.session settings (side == .left) false
          (exchanges.map fun exchange => exchange.calls side) }
    stream := fun _ => [] }

def deliveriesOf (events : List LinkEvent) : List (UInt8 × List UInt8) :=
  events.filterMap fun
    | .received senderId contents => some (senderId, contents)
    | .returned _ => none

def resultsOf (events : List LinkEvent) : List Nat :=
  events.filterMap fun
    | .received _ _ => none
    | .returned result => some result

namespace PacketExchange

/-- What either end sees of an exchange that goes well.  A call without a packet that does not get
one either has the result of a failure. -/
def history (side : Side) (exchange : PacketExchange settings remote) : List LinkEvent :=
  let near := exchange.calls side
  let far := exchange.calls side.other
  ((parcel far).toList.map fun packet => .received packet.1 packet.2) ++
    [.returned (if near.contents.isNone && (parcel far).isNone then fail else ack)]

end PacketExchange

/-- In whatever order the two ends proceed, they make no more than so many steps, and where none
can be made all exchanges have been made. -/
def Completes (exchanges : List (PacketExchange settings remote)) : Prop :=
  ∃ bound, ∀ (steps : List Side) (c : Connection UInt8 LinkEvent Unit),
    Interleaving.Runs Connection.step steps (sessionStart exchanges) c →
      steps.length ≤ bound ∧ (Interleaving.Final Connection.step c →
        ∀ side, (c.ends side).process = .done () ∧
          (c.ends side).events = exchanges.flatMap (PacketExchange.history side))

/-- What is true at any time, if the connection may be lost: each end has been given the packets of
the first so many exchanges, and those of an exchange whose call is acknowledged are among them at
both ends. -/
structure Sound (exchanges : List (PacketExchange settings remote)) (events : Side → List LinkEvent)
    (received : Side → Nat) : Prop where
  delivered : ∀ side, deliveriesOf (events side) =
    (exchanges.take (received side)).filterMap fun exchange => parcel (exchange.calls side.other)
  acknowledged : ∀ side i, (resultsOf (events side))[i]? = some ack →
    i < received side ∧ i < received side.other

end Pjon.Spec
