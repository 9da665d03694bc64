import Pjon.Spec.Admission
/-!
# What the meta-data of a packet may depend on

The meta-data is in front of the payload.
-/

namespace Pjon.Spec

open Pjon.Lib Pjon.Model

variable (b : Build)

/-- There is an instance whose `receive` takes the packet. -/
def Accepted (s : List UInt8) : Prop :=
  ∃ (bus : Bus b) (delivery : Delivery), delivery.bytes = s ∧ (bus.receive delivery).result = ack

/-- Where the payload of a packet starts. -/
def payloadIndex (s : List UInt8) : Nat := packetOverhead (header s) - crcOverhead (header s)

/-- The fields that the header does not announce are those of a new `PJON_Packet_Info`. -/
structure KeepsDefaults (info : PacketInfo) : Prop where
  mode : has info.header modeBit = false →
    info.rx.busId = ({} : PacketInfo).rx.busId ∧ info.tx.busId = ({} : PacketInfo).tx.busId ∧
      info.hops = ({} : PacketInfo).hops
  txInfo : has info.header txInfoBit = false →
    info.tx.id = ({} : PacketInfo).tx.id ∧ info.tx.busId = ({} : PacketInfo).tx.busId
  packetId : has info.header packetIdBit = false → info.id = ({} : PacketInfo).id
  port : has info.header portBit = false → info.port = ({} : PacketInfo).port
  mac : has info.header macBit = false →
    info.rx.mac = ({} : PacketInfo).rx.mac ∧ info.tx.mac = ({} : PacketInfo).tx.mac

/-- What is parsed from a packet, wherever it is in memory, is its meta-data. -/
structure ParsesMetaData (s : List UInt8) : Prop where
  determined : ∀ t, Accepted b t → t.take (payloadIndex s) = s.take (payloadIndex s) →
    ∀ m m' : Memory, m.Holds 0 s → m'.Holds 0 t →
      Tools.parseHeader b m = Tools.parseHeader b m'
  inFront : ∀ i ∈ Tools.parseReads b (header s), i < payloadIndex s
  defaults : ∀ m : Memory, m.Holds 0 s → KeepsDefaults (Tools.parseHeader b m)

end Pjon.Spec
