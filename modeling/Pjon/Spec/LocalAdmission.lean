import Pjon.Model.Local
import Pjon.Spec.Admission
/-!
# Which byte sequences `PJONLocal` takes for packets

The rules of `PJONLocal::receive`, stated over the bytes as `Admissible` states
those of `PJON::receive`, and what it means that two instances agree.
-/

namespace Pjon.Spec

open Pjon.Lib Pjon.Model

variable {b b' : Build}

/-- What the loop of `PJONLocal::receive` asks of recipient and header. -/
structure LocalHeader (bus : LocalBus b) (s : List UInt8) : Prop where
  recipient : bus.router ∨ byte s 0 = bus.deviceId ∨ byte s 0 = broadcast
  mode : has (header s) modeBit = false
  mac : has (header s) macBit = false
  broadcastAck : byte s 0 = broadcast → has (header s) ackReqBit = false
  extLenCrc : has (header s) extLenBit → has (header s) crcBit
  packetId : has (header s) packetIdBit → b.includePacketId

structure LocallyAdmissible (bus : LocalBus b) (s : List UInt8) : Prop
    extends LocalHeader bus s where
  complete : encodedLength s ≤ s.length
  overhead : packetOverhead (header s) ≤ encodedLength s
  maxLength : encodedLength s < b.packetMaxLength
  longCrc : 15 < encodedLength s → has (header s) crcBit
  frontCrc : Crc8.compute (s.take (3 + shift s)) = byte s (3 + shift s)
  endCrc :
    if has (header s) crcBit then
      Memory.load (byte s) (encodedLength s - 4) 4 =
        Crc32.bytes (Crc32.compute (s.take (encodedLength s - 4)))
    else byte s (encodedLength s - 1) = Crc8.compute (s.take (encodedLength s - 1))

/-- The length field arrives and announces more than 15 bytes without a CRC32. -/
structure LongWithoutCrc (bus : LocalBus b) (s : List UInt8) : Prop
    extends LocalHeader bus s where
  arrived : 2 + shift s < s.length
  overhead : packetOverhead (header s) ≤ encodedLength s
  maxLength : encodedLength s < b.packetMaxLength
  long : 15 < encodedLength s
  noCrc : has (header s) crcBit = false

/-- The instance has no port, or it is that of the packet. -/
def localPortMatches (bus : LocalBus b) (s : List UInt8) : Bool :=
  !b.includePort || bus.port == noPort || bus.port == portOf b s

def localAckDue (bus : LocalBus b) (s : List UInt8) : Bool :=
  has (header s) ackReqBit && byte s 0 != broadcast && (bus.halfDuplex && !bus.router)

/-! ## Two instances in the same place -/

/-- The settings under which a `PJONLocal` instance stands in for a `PJON` one. -/
structure SameDevice (bus : Bus b) (loc : LocalBus b') : Prop where
  packetMaxLength : b'.packetMaxLength = b.packetMaxLength
  includePort : b'.includePort = b.includePort
  noPacketId : b.includePacketId = false
  noPacketId' : b'.includePacketId = false
  noMac : b.includeMac = false
  noMac' : b'.includeMac = false
  localMode : has bus.config modeBit = false
  deviceId : loc.deviceId = bus.tx.id
  port : loc.port = bus.port
  halfDuplex : loc.halfDuplex = bus.halfDuplex
  router : bus.router = false
  router' : loc.router = false

/-- They acknowledge the same and report the same payload. -/
structure Agree (outcome : Outcome b) (localOutcome : LocalOutcome) : Prop where
  response : Event.sendResponse ack ∈ outcome.events ↔
    Event.sendResponse ack ∈ localOutcome.events
  payload : ∀ payload, (∃ info, Event.receiver payload info ∈ outcome.events) ↔
    LocalBus.Reports localOutcome payload

/-- An empty payload, with an acknowledgement due for it. -/
def EmptyAcknowledged (loc : LocalBus b) (s : List UInt8) : Prop :=
  LocallyAdmissible loc s ∧ encodedLength s = packetOverhead (header s) ∧ localAckDue loc s

/-- A packet with a port for a program without ports, which is acknowledged or
reported. -/
def PortNotCompiled (loc : LocalBus b) (s : List UInt8) : Prop :=
  LocallyAdmissible loc s ∧ has (header s) portBit ∧ b.includePort = false ∧
    (localAckDue loc s ∨ packetOverhead (header s) < encodedLength s)

end Pjon.Spec
