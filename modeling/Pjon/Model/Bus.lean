import Pjon.Model.Parse
/-!
# A PJON instance

The state of the class `PJON` and the members that compose a packet and put it
in the send buffer.  What an instance does to the outside (frames, responses and
calls of the two handlers) is returned as a list of events; what it reads from
the outside (clock, medium) is an argument.
-/

namespace Pjon.Model

open Pjon.Lib

structure Bus (b : Build) where
  config : UInt8 := txInfoBit ||| ackReqBit
  data : Memory := fun _ => 0
  lastPacketInfo : PacketInfo := {}
  packets : Vector Packet b.maxPackets := Vector.replicate _ {}
  tx : Endpoint := {}
  recentPacketIds : Vector PacketRecord b.maxRecentPacketIds := Vector.replicate _ {}
  port : UInt16 := noPort
  autoDelete : Bool := true
  customPointer : Nat := 0
  halfDuplex : Bool := true -- `_mode`, `false` for `PJON_SIMPLEX`
  packetIdSeed : UInt16 := 0
  router : Bool := false

inductive Event where
  | sendFrame (frame : List UInt8)
  | sendResponse (response : Nat)
  | receiver (payload : List UInt8) (info : PacketInfo)
  | error (code data customPointer : Nat)
  deriving DecidableEq, Repr

structure Outcome (b : Build) where
  result : Nat
  bus : Bus b
  events : List Event := []

variable {b : Build}

/-! ## Composing -/

namespace Bus

def effectiveHeader (bus : Bus b) (info : PacketInfo) : UInt8 :=
  if info.header == noHeader then bus.config else info.header

/-- `compose_packet` chooses the packet id itself. -/
def generatesId (bus : Bus b) (info : PacketInfo) : Bool :=
  b.includePacketId && info.id == 0 && has (bus.effectiveHeader info) packetIdBit

/-- The info that `compose_packet` hands to `PJONTools`.  Its sender endpoint is
the instance's, MAC address included. -/
def completeInfo (bus : Bus b) (info : PacketInfo) : PacketInfo :=
  let header := bus.effectiveHeader info
  { info with
    header := header
    tx := bus.tx
    id := if bus.generatesId info then Tools.newPacketId bus.packetIdSeed else info.id
    port :=
      if b.includePort && bus.port != noPort && info.port == noPort && has header portBit then
        bus.port
      else info.port }

def advanceSeed (bus : Bus b) (info : PacketInfo) : Bus b :=
  if bus.generatesId info then { bus with packetIdSeed := bus.packetIdSeed + 1 } else bus

end Bus

/-- `PJON::compose_packet`, with the stores it makes to `destination`. -/
structure Composition (b : Build) extends Outcome b where
  writes : Writes

namespace Bus

def composePacket (bus : Bus b) (info : PacketInfo) (destination : Memory) (source : Payload) :
    Composition b :=
  let composed := Tools.composePacket b (bus.completeInfo info) destination source
  let bus := bus.advanceSeed info
  if composed.1 < b.packetMaxLength then
    { result := composed.1, bus := bus, writes := composed.2 }
  else
    { result := 0, bus := bus, writes := composed.2
      events := [.error contentTooLong composed.1 bus.customPointer] }

/-! ## The send buffer -/

def slot (bus : Bus b) (i : Fin b.maxPackets) : Packet := bus.packets[i]

def setSlot (bus : Bus b) (i : Fin b.maxPackets) (packet : Packet) : Bus b :=
  { bus with packets := bus.packets.set i packet }

@[simp] theorem slot_setSlot (bus : Bus b) (i : Fin b.maxPackets) (packet : Packet) :
    (bus.setSlot i packet).slot i = packet := by
  rw [slot, setSlot, Fin.getElem_fin, Vector.getElem_set_self]

theorem slot_setSlot_ne (bus : Bus b) {i j : Fin b.maxPackets} (packet : Packet) (h : i ≠ j) :
    (bus.setSlot i packet).slot j = bus.slot j := by
  have hne : (i : Nat) ≠ (j : Nat) := fun heq => h (Fin.ext heq)
  rw [slot, setSlot, Fin.getElem_fin, Vector.getElem_set_ne _ _ hne]
  rfl

/-- The slot that `dispatch` takes: the requested one, or the first free one. -/
def findSlot (bus : Bus b) (packetIndex : Nat) : Option (Fin b.maxPackets) :=
  let requested := packetIndex != fail
  let first := if requested then packetIndex else 0
  (List.finRange b.maxPackets).find? fun i =>
    decide (first ≤ i) && ((bus.slot i).state == 0 || requested)

def dispatch (bus : Bus b) (info : PacketInfo) (packet : Payload) (timing now : UInt32)
    (packetIndex : Nat) : Outcome b :=
  match bus.findSlot packetIndex with
  | none =>
    { result := fail, bus := bus
      events := [.error packetsBufferFull b.maxPackets bus.customPointer] }
  | some i =>
    let slot := bus.slot i
    let composed := bus.composePacket info slot.content packet
    let slot := { slot with content := slot.content.apply composed.writes }
    if composed.result = 0 then
      { result := fail, events := composed.events
        bus := composed.bus.setSlot i slot }
    else
      let slot :=
        { slot with
          length := composed.result, state := toBeSent, registration := now, timing := timing }
      { result := i, events := composed.events
        bus := composed.bus.setSlot i slot }

def fillInfo (bus : Bus b) (rxId header : UInt8) (packetId rxPort : UInt16) : PacketInfo :=
  { header := header
    rx := { id := rxId, busId := bus.tx.busId }
    id := if b.includePacketId then packetId else 0
    port := if b.includePort then rxPort else noPort }

def send (bus : Bus b) (rxId : UInt8) (payload : Payload) (header : UInt8)
    (packetId rxPort : UInt16) (now : UInt32) : Outcome b :=
  bus.dispatch (bus.fillInfo rxId header packetId rxPort) payload 0 now fail

/-! ## Transmission -/

end Bus

/-- What the strategy answers to one transmission attempt. -/
structure Medium where
  canStart : Bool
  response : Nat
  deriving DecidableEq, Repr

namespace Bus

/-- `send_packet` for a packet already composed. -/
def sendComposed (bus : Bus b) (payload : Memory) (length : Nat) (medium : Medium) :
    Nat × List Event :=
  if bus.halfDuplex && !medium.canStart then (busy, [])
  else
    let events := [.sendFrame (payload.load 0 length)]
    if payload 0 == broadcast || !has (payload 1) ackReqBit || !bus.halfDuplex then (ack, events)
    else if medium.response = ack then (ack, events)
    else (fail, events)

/-- `send_packet` for a packet described by its info. -/
def sendPacket (bus : Bus b) (info : PacketInfo) (payload : Payload) (medium : Medium) :
    Outcome b :=
  let composed := bus.composePacket info bus.data payload
  let bus := { composed.bus with data := bus.data.apply composed.writes }
  if composed.result = 0 then { result := fail, bus := bus, events := composed.events }
  else
    let sent := bus.sendComposed bus.data composed.result medium
    { result := sent.1, bus := bus, events := composed.events ++ sent.2 }

/-! ## Known packet ids -/

/-- The test of the loop of `known_packet_id`. -/
def sameId (info : PacketInfo) (record : PacketRecord) : Bool :=
  info.id == record.id && info.tx.id == record.senderId &&
    ((has info.header modeBit && has record.header modeBit &&
        info.tx.busId == record.senderBusId) ||
      (!has info.header modeBit && !has record.header modeBit))

def recordOf (info : PacketInfo) : PacketRecord :=
  { header := info.header, senderId := info.tx.id, senderBusId := info.tx.busId, id := info.id }

def savePacketId (records : Vector PacketRecord b.maxRecentPacketIds) (info : PacketInfo) :
    Vector PacketRecord b.maxRecentPacketIds :=
  Vector.ofFn fun i => if i.val = 0 then recordOf info else records[i.val - 1]

/-- `known_packet_id`: its answer and the records it leaves. -/
def knownPacketId (records : Vector PacketRecord b.maxRecentPacketIds) (info : PacketInfo) :
    Bool × Vector PacketRecord b.maxRecentPacketIds :=
  if records.toList.any (sameId info) then (true, records) else (false, savePacketId records info)

end Bus

end Pjon.Model
