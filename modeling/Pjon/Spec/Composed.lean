import Pjon.Model.Bus
/-!
# What a composition owes

To its destination (nothing is written outside the packet), to its caller (what
does not fit is refused) and to a receiver (the bytes are where the header says,
and the header is an acceptable one).
-/

namespace Pjon.Spec

open Pjon.Lib Pjon.Model Pjon.Model.Tools

variable {b : Build}

/-- The header that is asked for, with the port bit settled. -/
def requested (b : Build) (info : PacketInfo) : UInt8 := portHeader b info.port info.header

/-! ## Refusal -/

/-- The instance turns the payload down, whichever way it is handed over. -/
structure Rejects (sender : Bus b) (info : PacketInfo) (source : Payload) (length : Nat) :
    Prop where
  composePacket : ∀ destination,
    (sender.composePacket info destination source).result = 0 ∧
      (sender.composePacket info destination source).events =
        [.error contentTooLong length sender.customPointer]
  dispatch : ∀ timing now packetIndex,
    (sender.dispatch info source timing now packetIndex).result = fail
  sendPacket : ∀ medium, (sender.sendPacket info source medium).result = fail

structure Refused (b : Build) (info : PacketInfo) (destination : Memory) (source : Payload) :
    Prop where
  writes : (composePacket b info destination source).2 = []
  length : b.packetMaxLength ≤ (composePacket b info destination source).1
  reported : ∀ (sender : Bus b) (request : PacketInfo), sender.completeInfo request = info →
    Rejects sender request source (composePacket b info destination source).1

/-! ## Success -/

structure Fits (b : Build) (info : PacketInfo) (destination : Memory) (source : Payload) :
    Prop where
  length : source.length + packetOverhead (measure b info source.length).header <
    b.packetMaxLength
  result : (composePacket b info destination source).1 =
    source.length + packetOverhead (measure b info source.length).header
  writes : ∀ w ∈ (composePacket b info destination source).2,
    0 ≤ w.1 ∧ w.1 < (composePacket b info destination source).1

/-- No write outside the packet, and success only for what fits. -/
def Contained (b : Build) (info : PacketInfo) (destination : Memory) (source : Payload) : Prop :=
  Refused b info destination source ∨ Fits b info destination source

/-! ## The layout -/

/-- The packet at the destination is laid out as the header in it announces. -/
structure LaidOut (b : Build) (info : PacketInfo) (source : Payload) (returned : Nat)
    (packet : Memory) : Prop where
  header : packet 1 = (measure b info source.length).header
  lengthField : packet.Holds 2 (lengthField (measure b info source.length))
  width : has (packet 1) extLenBit ↔ (Tools.lengthField (measure b info source.length)).length = 2
  value : (if has (packet 1) extLenBit then (ofBigEndian (packet 2) (packet 3)).toNat
    else (packet 2).toNat) = source.length + packetOverhead (packet 1)
  returned : returned = source.length + packetOverhead (packet 1)
  frontCrc : packet (3 + (has (packet 1) extLenBit).toNat) =
    Crc8.compute (packet.load 0 (3 + (has (packet 1) extLenBit).toNat))
  payload : packet.Holds (packetOverhead (packet 1) - crcOverhead (packet 1)) source.bytes
  endCrc : packet.Holds (packetOverhead (packet 1) - crcOverhead (packet 1) + source.length)
    (if has (packet 1) crcBit then
      Crc32.bytes (Crc32.compute (packet.load 0
        (packetOverhead (packet 1) - crcOverhead (packet 1) + source.length)))
    else [Crc8.compute (packet.load 0
      (packetOverhead (packet 1) - crcOverhead (packet 1) + source.length))])

/-! ## The header -/

/-- The header states that a receiver does not turn down by rule. -/
structure Acceptable (recipient header : UInt8) (length : Nat) : Prop where
  extLenCrc : has header extLenBit → has header crcBit
  macCrc : has header macBit → has header crcBit
  longCrc : 15 < length → has header crcBit
  broadcastAck : recipient = broadcast → has header ackReqBit = false

end Pjon.Spec
