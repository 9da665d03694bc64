import Pjon.Model.LocalSending
import Pjon.Spec.Composed
/-!
# What `PJONLocal` may transmit

The packet that was composed, whole and with nothing else in it; and nothing if there is
none.
-/

namespace Pjon.Spec

open Pjon.Lib Pjon.Model Pjon.Model.Tools

variable {b : Build}

/-- The stores reach the first `length` bytes, each of them, and no other. -/
def Fills (writes : Writes) (length : Nat) : Prop :=
  ∀ j : Int, j ∈ writes.map Prod.fst ↔ 0 ≤ j ∧ j < length

/-- `send_packet` gives the strategy what `PJONTools::compose_packet` has written, and nothing
if the packet does not fit. -/
structure TransmitsComposed (sender : LocalSender b) (request : LocalRequest) (buffer : Memory)
    (payload : Payload) (medium : LocalMedium) : Prop where
  composed : ∀ frame,
    Event.sendFrame frame ∈ (sender.sendPacket request buffer payload medium).events →
      Fills (composePacket b (sender.completeInfo request) buffer payload).2
          (composePacket b (sender.completeInfo request) buffer payload).1 ∧
        frame = (buffer.apply (composePacket b (sender.completeInfo request) buffer payload).2).load
          0 (composePacket b (sender.completeInfo request) buffer payload).1
  refused :
    b.packetMaxLength ≤ payload.length + packetOverhead
        (measure b (sender.completeInfo request) payload.length).header →
      (sender.sendPacket request buffer payload medium).result = fail ∧
        ∀ frame, Event.sendFrame frame ∉ (sender.sendPacket request buffer payload medium).events

/-- How long the packet for a header gets, with CRC32 if it is longer than 15 bytes and an
extended length if its payload is longer than 255. -/
def packetLength (header : UInt8) (length : Nat) : Nat :=
  let header := if 255 < length then header ||| extLenBit else header
  if 15 < length + packetOverhead header then length + packetOverhead (header ||| crcBit)
  else length + packetOverhead header

/-- The composer writes all that the header announces: the features are compiled in, and the
length field is as wide as the header says. -/
structure Announced (b : Build) (info : PacketInfo) (length : Nat) : Prop where
  supports : b.Supports info.header
  width : has info.header extLenBit ∨ 255 < length ∨
    length + packetOverhead (requested b info ||| crcBit) ≤ 255

/-- The 16-bit sum comes to 0. -/
def WrapsToZero (header : UInt8) (length : Nat) : Prop :=
  length + packetOverhead (header ||| extLenBit) = 65536 ∨
    length + packetOverhead (header ||| extLenBit ||| crcBit) = 65536

end Pjon.Spec
