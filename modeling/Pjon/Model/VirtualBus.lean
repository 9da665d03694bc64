import Pjon.Model.Switch
/-!
# The virtual bus router

`PJONVirtualBusRouter<PJONSwitch>`: attached buses with equal ids are the parts of one
virtual bus.  The object remembers on which bus it last heard each device, and forgets
it when a packet for the device is lost there.
-/

namespace Pjon.Model

open Pjon.Lib

variable {r : RouterBuild} {n : Nat}

/-- `virtual_bus` is the position of one of the parts. -/
structure VirtualBusRouter (r : RouterBuild) (n : Nat) extends Switch r n where
  virtualBus : Option (Fin n) := none
  deviceViaAttachedBus : Vector (Option (Fin n)) r.maxDevices := Vector.replicate _ none

namespace VirtualBusRouter

def setSwitch (v : VirtualBusRouter r n) (s : Switch r n) : VirtualBusRouter r n :=
  { v with toSwitch := s }

def isVbus (v : VirtualBusRouter r n) (busId : Vector UInt8 4) : Bool :=
  match v.virtualBus with
  | some i => v.busId i == busId
  | none => false

/-- `device_via_attached_bus[device_id]`, where there is such an element. -/
def via (v : VirtualBusRouter r n) (deviceId : UInt8) : Option (Fin n) :=
  (v.deviceViaAttachedBus[deviceId.toNat]?).join

def setVia (v : VirtualBusRouter r n) (deviceId : UInt8) (bus : Option (Fin n)) :
    VirtualBusRouter r n :=
  { v with
    deviceViaAttachedBus := v.deviceViaAttachedBus.setIfInBounds deviceId.toNat bus }

def findVbusWithDevice (v : VirtualBusRouter r n) (busId : Vector UInt8 4) (deviceId : UInt8) :
    Option (Fin n) :=
  if !v.isVbus busId || decide (r.maxDevices ≤ deviceId.toNat) then none else v.via deviceId

def registerDeviceOnVbus (v : VirtualBusRouter r n) (deviceId : UInt8) (attachedBus : Fin n) :
    VirtualBusRouter r n :=
  if deviceId.toNat < r.maxDevices then v.setVia deviceId (some attachedBus) else v

/-- `handle_send_error`, while `current_bus` is `currentBus`.  The packet is a `uint8_t`. -/
def handleSendError (v : VirtualBusRouter r n) (currentBus : Fin n) (code : Nat) (packet : UInt8) :
    VirtualBusRouter r n :=
  let bus := v.bus currentBus
  let content : Option Memory :=
    if r.maxPackets = 0 then some bus.data
    else if h : packet.toNat < r.maxPackets then some (bus.slot ⟨packet.toNat, h⟩).content
    else none
  match content with
  | none => v
  | some content =>
    if code = connectionLost ∧ v.isVbus bus.tx.busId then
      let info := bus.parse content
      if info.rx.id.toNat < r.maxDevices ∧ v.isVbus info.rx.busId then
        if v.via info.rx.id = some currentBus then v.setVia info.rx.id none else v
      else v
    else v

/-- `dynamic_error_function` for the errors of a bus. -/
def errorFunction (v : VirtualBusRouter r n) (currentBus : Fin n) (event : Event) :
    VirtualBusRouter r n :=
  match event with
  | .error code data _ => v.handleSendError currentBus code (UInt8.ofNat data)
  | _ => v

/-- `send_packet`; `unknownDeviceLocation` is the member of that name. -/
def sendPacket (payload : Payload) (senderBus : Fin n) (info : PacketInfo)
    (unknownDeviceLocation : Bool) (surroundings : Surroundings) (receiverBus : Fin n)
    (ackSent : Bool) (v : VirtualBusRouter r n) : Routing (VirtualBusRouter r n) n :=
  let disableAck := unknownDeviceLocation && v.isVbus (v.busId receiverBus)
  let sent :=
    if disableAck then
      v.toSwitch.sendPacket payload senderBus
        { info with header := info.header &&& ~~~ackReqBit } surroundings receiverBus true
    else v.toSwitch.sendPacket payload senderBus info surroundings receiverBus ackSent
  -- the errors of the receiver bus are reported while it is the current bus
  let errors := sent.events.filterMap fun event =>
    if event.1 = receiverBus then some event.2 else none
  { state := errors.foldl (fun v event => v.errorFunction receiverBus event)
      (v.setSwitch sent.state)
    -- `send_packet` of the switch gets a variable of its own
    ackSent := if disableAck then ackSent else sent.ackSent
    forwards := sent.forwards
    events := sent.events }

def receiverFunction (v : VirtualBusRouter r n) (currentBus : Fin n) (payload : Payload)
    (info : PacketInfo) (surroundings : Nat → Surroundings) : Routing (VirtualBusRouter r n) n :=
  let v := if v.isVbus info.tx.busId then v.registerDeviceOnVbus info.tx.id currentBus else v
  match v.findVbusWithDevice info.rx.busId info.rx.id with
  | some receiverBus =>
    forwardPacket (sendPacket payload currentBus info false (surroundings 0)) (some receiverBus)
      currentBus false v
  | none =>
    dynamicReceiverFunction (fun v => v.findAttachedBusWithId)
      (fun turn => sendPacket payload currentBus info true (surroundings turn)) v.defaultGateway
      currentBus info v

/-! ## Runs -/

def receive (v : VirtualBusRouter r n) (currentBus : Fin n) (delivery : Delivery)
    (surroundings : Nat → Surroundings) : Routing (VirtualBusRouter r n) n :=
  receiveOn toSwitch setSwitch
    (fun v payload info => v.receiverFunction currentBus payload info surroundings)
    v currentBus delivery

/-- `update` of an attached bus.  It reports its errors while it goes through the send
buffer, but writes no content there. -/
def update (v : VirtualBusRouter r n) (currentBus : Fin n) (maxAttempts : UInt8)
    (turns : Fin r.maxPackets → Turn) : VirtualBusRouter r n :=
  let updated := (v.bus currentBus).update maxAttempts turns
  updated.events.foldl (fun v event => v.errorFunction currentBus event.2)
    (v.setSwitch (v.toSwitch.setBus currentBus updated.bus))

end VirtualBusRouter

end Pjon.Model
