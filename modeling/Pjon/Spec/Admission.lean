import Pjon.Model.Receive
/-!
# Which byte sequences are packets for an instance

The rules of the protocol for a receiver, stated over the bytes that arrive and
without reference to how `receive` walks them.  `Admissible` is what has to hold
before a packet is acknowledged; `Delivered` adds what has to hold before the
receiver function is called.
-/

namespace Pjon.Spec

open Pjon.Lib Pjon.Model

/-- Byte `i` of what arrived. -/
def byte (s : List UInt8) (i : Nat) : UInt8 := s.getD i 0

def header (s : List UInt8) : UInt8 := byte s 1

/-- Number of bytes by which an extended length moves the fields behind it. -/
def shift (s : List UInt8) : Nat := (has (header s) extLenBit).toNat

/-- The length that the packet says it has. -/
def encodedLength (s : List UInt8) : Nat :=
  if has (header s) extLenBit then (ofBigEndian (byte s 2) (byte s 3)).toNat
  else (byte s 2).toNat

variable {b : Build}

/-- The parsed info of what arrived. -/
def infoOf (bus : Bus b) (s : List UInt8) : PacketInfo := bus.parse (byte s)

structure Admissible (bus : Bus b) (s : List UInt8) : Prop where
  complete : encodedLength s ≤ s.length
  recipient : bus.router ∨ byte s 0 = bus.tx.id ∨ byte s 0 = broadcast ∨ has (header s) macBit
  broadcastAck : byte s 0 = broadcast → has (header s) ackReqBit = false
  extLenCrc : has (header s) extLenBit → has (header s) crcBit
  macCrc : has (header s) macBit → has (header s) crcBit
  packetId : has (header s) packetIdBit → b.includePacketId
  port : has (header s) portBit → b.includePort
  mac : has (header s) macBit → b.includeMac
  mode : bus.router ∨ (has (header s) modeBit = false → has bus.config modeBit = false)
  busId : bus.router ∨ (has (header s) modeBit → has (header s) macBit = false → ∀ k < 4,
    byte s (4 + shift s + k) = if has bus.config modeBit then bus.tx.busId.toList.getD k 0 else 0)
  overhead : packetOverhead (header s) + 1 ≤ encodedLength s
  maxLength : encodedLength s < b.packetMaxLength
  longCrc : 15 < encodedLength s → has (header s) crcBit
  frontCrc : Crc8.compute (s.take (3 + shift s)) = byte s (3 + shift s)
  endCrc :
    if has (header s) crcBit then
      Memory.load (byte s) (encodedLength s - 4) 4 =
        Crc32.bytes (Crc32.compute (s.take (encodedLength s - 4)))
    else byte s (encodedLength s - 1) = Crc8.compute (s.take (encodedLength s - 1))
  macAddress : bus.router ∨ (has (header s) macBit →
    Memory.vector (byte s) (packetOverhead (header s) - 16) 6 = bus.tx.mac ∨
      Memory.vector (byte s) (packetOverhead (header s) - 16) 6 = noMac)

/-! ## The sender, the packet id and the port

Each is behind the fields in front of it; what the program leaves out is not expected. -/

section Fields

variable (b : Build) (s : List UInt8)

/-- The sender's id is behind the front, the bus ids and the hop count. -/
def senderStart : Nat :=
  4 + shift s + if !b.pjonLocal && has (header s) modeBit then
    if has (header s) txInfoBit then 9 else 5
  else 0

def senderOf : UInt8 :=
  if has (header s) txInfoBit then byte s (senderStart b s) else notAssigned

def senderBusOf : Vector UInt8 4 :=
  if !b.pjonLocal && has (header s) modeBit && has (header s) txInfoBit then
    Memory.vector (byte s) (8 + shift s) 4
  else localhost

def idStart : Nat := senderStart b s + if has (header s) txInfoBit then 1 else 0

def idOf : UInt16 :=
  if b.includePacketId && has (header s) packetIdBit then
    ofBigEndian (byte s (idStart b s)) (byte s (idStart b s + 1))
  else 0

def portStart : Nat :=
  idStart b s + if b.includePacketId && has (header s) packetIdBit then 2 else 0

def portOf : UInt16 :=
  if b.includePort && has (header s) portBit then
    ofBigEndian (byte s (portStart b s)) (byte s (portStart b s + 1))
  else noPort

/-- The record is that of a packet with the same id from the same sender. -/
def recordedAs (record : PacketRecord) : Bool :=
  record.id == idOf b s && record.senderId == senderOf b s &&
    if has (header s) modeBit then
      has record.header modeBit && record.senderBusId == senderBusOf b s
    else !has record.header modeBit

end Fields

/-- The packet id of what arrived is recorded already. -/
def recorded (bus : Bus b) (s : List UInt8) : Bool :=
  has (header s) packetIdBit && bus.recentPacketIds.toList.any (recordedAs b s)

/-- No port is set, or the packet is for the port that is. -/
def portMatches (bus : Bus b) (s : List UInt8) : Bool :=
  !b.includePort || bus.port == noPort || bus.port == portOf b s

/-! ### The parser finds them there -/

section Parsed

variable (bus : Bus b) (s : List UInt8)

theorem busIndex_header : Tools.busIndex (header s) = 4 + shift s := rfl

theorem txIndex_header : Tools.txIndex b (header s) = senderStart b s := by
  unfold Tools.txIndex Tools.hopsIndex Tools.txBusIndex senderStart
  rw [busIndex_header]
  split_ifs <;> rfl

theorem idIndex_header : Tools.idIndex b (header s) = idStart b s := by
  unfold Tools.idIndex idStart
  rw [txIndex_header]
  split_ifs <;> rfl

theorem portIndex_header : Tools.portIndex b (header s) = portStart b s := by
  unfold Tools.portIndex portStart
  rw [idIndex_header]
  split_ifs <;> rfl

theorem senderOf_eq : senderOf b s = (infoOf bus s).tx.id := by
  have hbyte : byte s 1 = header s := rfl
  simp only [infoOf, Bus.parse, Tools.parseHeader, Tools.parseTx, hbyte, txIndex_header, senderOf]

theorem senderBusOf_eq : senderBusOf b s = (infoOf bus s).tx.busId := by
  have hbyte : byte s 1 = header s := rfl
  have hindex : Tools.txBusIndex (header s) = 8 + shift s := by
    rw [Tools.txBusIndex, busIndex_header]
    omega
  simp only [infoOf, Bus.parse, Tools.parseHeader, Tools.parseTx, hbyte, hindex, senderBusOf]

theorem idOf_eq : idOf b s = (infoOf bus s).id := by
  have hbyte : byte s 1 = header s := rfl
  simp only [infoOf, Bus.parse, Tools.parseHeader, hbyte, idIndex_header, idOf]

variable (b) in
theorem portOf_eq : portOf b s = (Tools.parseHeader b (byte s)).port := by
  have hbyte : byte s 1 = header s := rfl
  simp only [Tools.parseHeader, hbyte, portIndex_header, portOf]

/-- `known_packet_id` looks for these records. -/
theorem recordedAs_eq : recordedAs b s = Bus.sameId (infoOf bus s) := by
  funext record
  have hheader : (infoOf bus s).header = header s := rfl
  rw [recordedAs, Bus.sameId, idOf_eq bus, senderOf_eq bus, senderBusOf_eq bus, hheader,
    Bool.beq_comm (a := record.id), Bool.beq_comm (a := record.senderId),
    Bool.beq_comm (a := record.senderBusId)]
  cases has (header s) modeBit <;> simp

theorem recorded_infoOf : recorded bus s =
    (has (header s) packetIdBit && bus.recentPacketIds.toList.any (Bus.sameId (infoOf bus s))) := by
  rw [recorded, recordedAs_eq bus]

theorem portMatches_infoOf : portMatches bus s =
    (!b.includePort || bus.port == noPort || bus.port == (infoOf bus s).port) := by
  rw [portMatches, portOf_eq]
  rfl

end Parsed

structure Delivered (bus : Bus b) (s : List UInt8) : Prop extends Admissible bus s where
  fresh : bus.router ∨ recorded bus s = false
  port_matches : portMatches bus s

/-- What is handed to the receiver function. -/
def payloadOf (s : List UInt8) : List UInt8 :=
  Memory.load (byte s) (packetOverhead (header s) - crcOverhead (header s))
    (encodedLength s - packetOverhead (header s))

/-- An acknowledgement is due for an admissible packet. -/
def ackDue (bus : Bus b) (s : List UInt8) : Bool :=
  has (header s) ackReqBit && byte s 0 != broadcast && bus.halfDuplex && !bus.router

end Pjon.Spec
