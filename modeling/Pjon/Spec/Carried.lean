import Pjon.Model.Bus
/-!
# What a packet carries

The part of an info that its packet transports, and the devices that a packet is
addressed to.
-/

namespace Pjon.Spec

open Pjon.Model

/-- The info as it can be reconstructed from a packet with this header: a field
that is not transmitted is at its default. -/
def carried (info : PacketInfo) (header : UInt8) : PacketInfo where
  header := header
  rx :=
    { id := info.rx.id
      busId := if has header modeBit then info.rx.busId else localhost
      mac := if has header macBit then info.rx.mac else noMac }
  tx :=
    { id := if has header txInfoBit then info.tx.id else notAssigned
      busId := if has header modeBit && has header txInfoBit then info.tx.busId else localhost
      mac := if has header macBit then info.tx.mac else noMac }
  hops := if has header modeBit then info.hops else 0
  id := if has header packetIdBit then info.id else 0
  port := if has header portBit then info.port else noPort

def withoutMacs (info : PacketInfo) : PacketInfo :=
  { info with rx := { info.rx with mac := noMac }, tx := { info.tx with mac := noMac } }

/-- `parsed` is what a packet with this header carries of `info`.  The parser reads
MAC addresses from every packet, so they count only when the header has them. -/
structure Recovers (info : PacketInfo) (header : UInt8) (parsed : PacketInfo) : Prop where
  fields : withoutMacs parsed =
    withoutMacs { carried info header with customPointer := parsed.customPointer }
  rxMac : has header macBit → parsed.rx.mac = info.rx.mac
  txMac : has header macBit → parsed.tx.mac = info.tx.mac

/-- Two programs that agree on the format of a packet; their buffers may differ. -/
structure SameFormat (b b' : Build) : Prop where
  packetMaxLength : b.packetMaxLength = b'.packetMaxLength
  includePacketId : b.includePacketId = b'.includePacketId
  includePort : b.includePort = b'.includePort
  includeMac : b.includeMac = b'.includeMac
  pjonLocal : b.pjonLocal = b'.pjonLocal

variable {b : Build}

/-- A packet with this info and header is for this (non-router) instance. -/
structure Addressed (bus : Bus b) (info : PacketInfo) (header : UInt8) : Prop where
  recipient : info.rx.id = bus.tx.id ∨ info.rx.id = broadcast
  localMode : has header modeBit = false → has bus.config modeBit = false
  sharedMode : has header modeBit →
    info.rx.busId = if has bus.config modeBit then bus.tx.busId else localhost
  mac : has header macBit → info.rx.mac = bus.tx.mac ∨ info.rx.mac = noMac

/-- The addresses of a packet with this info and header are ones that the instance listens to. -/
structure Receivable (bus : Bus b) (info : PacketInfo) (header : UInt8) : Prop where
  recipient : bus.router ∨ info.rx.id = bus.tx.id ∨ info.rx.id = broadcast ∨ has header macBit
  localMode : bus.router ∨ (has header modeBit = false → has bus.config modeBit = false)
  busId : bus.router ∨ (has header modeBit → has header macBit = false →
    info.rx.busId = if has bus.config modeBit then bus.tx.busId else localhost)
  mac : bus.router ∨ (has header macBit → info.rx.mac = bus.tx.mac ∨ info.rx.mac = noMac)

theorem Addressed.receivable {bus : Bus b} {info : PacketInfo} {header : UInt8}
    (h : Addressed bus info header) : Receivable bus info header where
  recipient := Or.inr (h.recipient.imp id Or.inl)
  localMode := Or.inr h.localMode
  busId := Or.inr fun hmode _ => h.sharedMode hmode
  mac := Or.inr h.mac

theorem sameId_withoutMacs (info : PacketInfo) (record : PacketRecord) :
    Bus.sameId (withoutMacs info) record = Bus.sameId info record := rfl

theorem recordOf_withoutMacs (info : PacketInfo) :
    Bus.recordOf (withoutMacs info) = Bus.recordOf info := rfl

end Pjon.Spec
