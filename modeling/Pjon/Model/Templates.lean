import Pjon.Model.Switch
/-!
# Classes built from classes

`PJONVirtualBusRouter<RouterClass>` and `PJONInteractiveRouter<RouterClass>` are derived from the
class that they are given, which may be such a class itself.  All of these classes index the
array `buses` with `uint8_t` values that they keep in their members, `current_bus` above all.
An object goes wrong where it indexes the array outside the attached buses.

What an attached bus contains and does is left to the world: what is read there, the callbacks
that `receive`, `update` and `forward` make, and what they return.  So are the callbacks of the
user, who may call `send_packet` of the object from them.
-/

namespace Pjon.Model

open Pjon.Lib

/-- The classes that are no templates.  `PJONSwitch` is `PJONSimpleSwitch<Any>`. -/
inductive PlainClass where
  | switch
  | router
  | dynamicRouter
  deriving DecidableEq, Repr

inductive Template where
  | virtualBus
  | interactive
  deriving DecidableEq, Repr

/-- A class, with the template that was applied last in front. -/
structure BuiltClass where
  templates : List Template
  plain : PlainClass
  deriving DecidableEq, Repr

/-- The members that `PJONVirtualBusRouter` adds.  There are 256 device ids, and
`PJON_VIRTUALBUS_MAX_DEVICES` elements of `device_via_attached_bus`. -/
structure VirtualBusMembers where
  virtualBus : UInt8 := notAssigned
  deviceViaAttachedBus : UInt8 → UInt8 := fun _ => notAssigned
  unknownDeviceLocation : Bool := false

/-- A row of the routing table. -/
structure RouteRow where
  busId : Vector UInt8 4
  viaAttachedBus : UInt8
  deriving DecidableEq, Repr

/-- An object of such a class.  Its templates are counted from the plain class on, and `clock`
counts how often it has looked at a bus or called the user. -/
structure BuiltObject where
  busCount : UInt8 := 0
  defaultGateway : UInt8 := notAssigned
  currentBus : UInt8 := notAssigned
  table : List RouteRow := []
  virtualBuses : Nat → VirtualBusMembers := fun _ => {}
  routers : Nat → Bool := fun _ => false
  clock : Nat := 0

/-- The members that are called from outside: by an attached bus through `receiver_function` and
`error_function`, and `send_packet(payload, length, packet_info)` by the user. -/
inductive Entry where
  | receiverFunction (payload : Payload) (info : PacketInfo)
  | errorFunction (code data : Nat)
  | sendPacket (payload : Payload) (info : PacketInfo)

/-- What an object calls on an attached bus. -/
inductive BusCall where
  | receive
  | update
  | forward (info : PacketInfo) (payload : Payload)

/-- The functions of the user that `PJONInteractiveRouter` calls. -/
inductive UserCall where
  | receiver (payload : Payload) (info : PacketInfo)
  | error (code data : Nat)
  | sendNotification (payload : Payload) (receiverBus senderBus : UInt8) (info : PacketInfo)

/-- The attached buses and the user, as an object finds them.  `calls` are the callbacks that a
bus makes while it is called, `user` the packets that a function of the user sends. -/
structure World where
  tx : BuiltObject → UInt8 → Endpoint
  config : BuiltObject → UInt8 → UInt8
  calls : BuiltObject → UInt8 → BusCall → List Entry
  result : BuiltObject → UInt8 → BusCall → Nat
  parsed : BuiltObject → UInt8 → Nat → PacketInfo
  user : BuiltObject → Nat → UserCall → List (Payload × PacketInfo)
  /-- How many turns are followed of a search that does not end. -/
  turns : Nat

/-- Goes wrong with the index that is outside. -/
abbrev Member := StateT BuiltObject (Except UInt8)

namespace BuiltObject

def setCurrentBus (k : UInt8) (x : BuiltObject) : BuiltObject := { x with currentBus := k }

def tick (x : BuiltObject) : BuiltObject := { x with clock := x.clock + 1 }

def setVirtualBus (level : Nat) (members : VirtualBusMembers) (x : BuiltObject) : BuiltObject :=
  { x with virtualBuses := fun i => if i = level then members else x.virtualBuses i }

/-- `device_via_attached_bus[device_id] = bus`. -/
def setVia (level : Nat) (deviceId bus : UInt8) (x : BuiltObject) : BuiltObject :=
  x.setVirtualBus level { x.virtualBuses level with
    deviceViaAttachedBus := fun i =>
      if i = deviceId then bus else (x.virtualBuses level).deviceViaAttachedBus i }

def setUnknown (level : Nat) (unknown : Bool) (x : BuiltObject) : BuiltObject :=
  x.setVirtualBus level { x.virtualBuses level with unknownDeviceLocation := unknown }

/-- `add`. -/
def addRow (tableSize : Nat) (busId : Vector UInt8 4) (viaAttachedBus : UInt8) (x : BuiltObject) :
    BuiltObject :=
  if x.table.length < tableSize then
    { x with
      table := (x.table ++ [(⟨busId, viaAttachedBus⟩ : RouteRow)]).take
        ((x.table.length + 1) % 256) }
  else x

end BuiltObject

namespace Built

/-- `buses[k]`. -/
def busAt (k : UInt8) : Member Unit := do
  let x ← get
  if k < x.busCount then set x.tick else throw k

/-! ## What is read of a bus and done with it -/

section World

variable (w : World)

def txOf (k : UInt8) : Member Endpoint := do
  busAt k
  let x ← get
  return w.tx x k

def configOf (k : UInt8) : Member UInt8 := do
  busAt k
  let x ← get
  return w.config x k

/-- The conditions of an address translation that are about bus `k`. -/
def isNatBus (k : UInt8) : Member Bool := do
  let config ← configOf w k
  if has config modeBit then return false
  else do
    let tx ← txOf w k
    return tx.busId != localhost

variable (enter : Entry → Member Unit)

/-- A call of an attached bus, which may call back. -/
def callBus (k : UInt8) (call : BusCall) : Member Nat := do
  busAt k
  let x ← get
  (w.calls x k call).forM enter
  let x ← get
  return w.result x k call

/-- A call of a function of the user, which may send packets. -/
def callUser (level : Nat) (call : UserCall) : Member Unit := do
  modify BuiltObject.tick
  let x ← get
  (w.user x level call).forM fun sent => enter (.sendPacket sent.1 sent.2)

end World

/-! ## The plain classes -/

section Search

variable (w : World)

/-- The loop of `find_attached_bus_with_id`: the bus, and the new value of `start_bus`. -/
def findAttachedBusWithId (busId : Vector UInt8 4) : Nat → UInt8 → Member (UInt8 × UInt8)
  | 0, _ => return (notAssigned, notAssigned)
  | todo + 1, i => do
    let x ← get
    if i < x.busCount then do
      let tx ← txOf w i
      if busId == tx.busId then return (i, i + 1) else findAttachedBusWithId busId todo (i + 1)
    else return (notAssigned, notAssigned)

/-- `find_bus_in_table`. -/
def findBusInTable (x : BuiltObject) (busId : Vector UInt8 4) (startBus : UInt8) :
    UInt8 × UInt8 :=
  let start := startBus - x.busCount
  match (x.table.zipIdx.drop start.toNat).find? fun row => busId == row.1.busId with
  | some row => (row.1.viaAttachedBus, x.busCount + UInt8.ofNat row.2 + 1)
  | none => (notAssigned, notAssigned)

/-- The first step of `find_bus_with_id` of `PJONRouter`. -/
def searchAttached (busId : Vector UInt8 4) (startBus : UInt8) : Member (UInt8 × UInt8) := do
  let x ← get
  if startBus < x.busCount then do
    let found ← findAttachedBusWithId w busId 256 startBus
    return if found.1 = notAssigned then (notAssigned, x.busCount) else found
  else return (notAssigned, startBus)

/-- `find_bus_with_id` of `PJONRouter`. -/
def routerBusWithId (busId : Vector UInt8 4) (startBus : UInt8) : Member (UInt8 × UInt8) := do
  let attached ← searchAttached w busId startBus
  let x ← get
  let found :=
    if attached.1 = notAssigned ∧ x.busCount ≤ attached.2 ∧ attached.2 ≠ notAssigned then
      findBusInTable x busId attached.2
    else attached
  return if found.1 = notAssigned then (notAssigned, notAssigned) else found

def findBusWithId (plain : PlainClass) (busId : Vector UInt8 4) (startBus : UInt8) :
    Member (UInt8 × UInt8) :=
  match plain with
  | .switch => findAttachedBusWithId w busId 256 startBus
  | .router => routerBusWithId w busId startBus
  | .dynamicRouter => routerBusWithId w busId startBus

end Search

/-! ## The templates -/

section Members

variable (r : RouterBuild) (w : World) (c : BuiltClass) (enter : Entry → Member Unit)

def isVbus (level : Nat) (busId : Vector UInt8 4) : Member Bool := do
  let x ← get
  if (x.virtualBuses level).virtualBus < x.busCount then do
    let tx ← txOf w (x.virtualBuses level).virtualBus
    return tx.busId == busId
  else return false

def registerDeviceOnVbus (level : Nat) (deviceId attachedBus : UInt8) : Member Unit :=
  if deviceId.toNat < r.maxDevices then modify (BuiltObject.setVia level deviceId attachedBus)
  else return ()

def findVbusWithDevice (level : Nat) (busId : Vector UInt8 4) (deviceId : UInt8) :
    Member UInt8 := do
  let found ← isVbus w level busId
  let x ← get
  return if !found || decide (r.maxDevices ≤ deviceId.toNat) then notAssigned
    else (x.virtualBuses level).deviceViaAttachedBus deviceId

/-- The rest of `handle_send_error`, for a packet that was lost on a part of the virtual bus. -/
def unregisterReceiver (level packet : Nat) : Member Unit := do
  let x ← get
  busAt x.currentBus
  busAt x.currentBus
  let x ← get
  let info := w.parsed x x.currentBus packet
  if info.rx.id.toNat < r.maxDevices then do
    let onVbus ← isVbus w level info.rx.busId
    let x ← get
    if onVbus ∧ (x.virtualBuses level).deviceViaAttachedBus info.rx.id = x.currentBus then
      modify (BuiltObject.setVia level info.rx.id notAssigned)
    else return ()
  else return ()

def handleSendError (level code packet : Nat) : Member Unit := do
  if connectionLost = code then do
    let x ← get
    let tx ← txOf w x.currentBus
    let onVbus ← isVbus w level tx.busId
    if onVbus ∧ (packet < r.maxPackets ∨ r.maxPackets = 0) then
      unregisterReceiver r w level packet
    else return ()
  else return ()

/-- `dynamic_error_function` of the class that these templates make. -/
def dynamicErrorFunction : List Template → Nat → Nat → Member Unit
  | [], _, _ => return ()
  | .virtualBus :: inner, code, data => handleSendError r w inner.length code (data % 256)
  | .interactive :: inner, code, data => do
    dynamicErrorFunction inner code data
    callUser w enter inner.length (.error code data)

/-- The acknowledgement that `send_packet` of the switch sends. -/
def acknowledge (senderBus : UInt8) (ackSent : Bool) (info : PacketInfo) : Member Bool :=
  if !ackSent && has info.header ackReqBit && info.rx.id != broadcast then do
    busAt senderBus
    return true
  else return ackSent

/-- The sender that is forwarded. -/
def translateSender (senderBus : UInt8) (info : PacketInfo) : Member Endpoint :=
  if has info.header modeBit then do
    let nat ← isNatBus w senderBus
    if nat && info.tx.busId == localhost then do
      let tx ← txOf w senderBus
      return { info.tx with busId := tx.busId }
    else return info.tx
  else return info.tx

/-- The receiver that is forwarded. -/
def translateReceiver (receiverBus : UInt8) (info : PacketInfo) : Member Endpoint :=
  if has info.header modeBit then do
    let nat ← isNatBus w receiverBus
    if nat then do
      let tx ← txOf w receiverBus
      return if info.rx.busId == tx.busId then { info.rx with busId := localhost } else info.rx
    else return info.rx
  else return info.rx

/-- `send_packet` of the switch, behind the acknowledgement. -/
def forwardOn (payload : Payload) (receiverBus senderBus : UInt8) (info : PacketInfo) :
    Member Unit := do
  let tx ← translateSender w senderBus info
  let rx ← translateReceiver w receiverBus info
  let result ← callBus w enter receiverBus (.forward { info with tx := tx, rx := rx } payload)
  if r.maxPackets = 0 ∧ result = fail then
    dynamicErrorFunction r w enter c.templates connectionLost 0
  else return ()

/-- `send_packet` of the switch.  It is called with `ack_sent` and leaves its new value. -/
def switchSendPacket (payload : Payload) (receiverBus senderBus : UInt8) (ackSent : Bool)
    (info : PacketInfo) : Member Bool := do
  let ackSent ← acknowledge senderBus ackSent info
  let x ← get
  modify (BuiltObject.setCurrentBus receiverBus)
  forwardOn r w c enter payload receiverBus senderBus info
  modify (BuiltObject.setCurrentBus x.currentBus)
  return ackSent

/-- `disable_ack` of a virtual bus router. -/
def disableAck (level : Nat) (receiverBus : UInt8) : Member Bool := do
  let x ← get
  if (x.virtualBuses level).unknownDeviceLocation then do
    let tx ← txOf w receiverBus
    isVbus w level tx.busId
  else return false

/-- `send_packet` of the class that these templates make. -/
def sendPacket : List Template → Payload → UInt8 → UInt8 → Bool → PacketInfo → Member Bool
  | [], payload, receiverBus, senderBus, ackSent, info =>
    switchSendPacket r w c enter payload receiverBus senderBus ackSent info
  | .virtualBus :: inner, payload, receiverBus, senderBus, ackSent, info => do
    let disable ← disableAck w inner.length receiverBus
    if disable then do
      let _ ← sendPacket inner payload receiverBus senderBus true
        { info with header := info.header &&& ~~~ackReqBit }
      return ackSent
    else sendPacket inner payload receiverBus senderBus ackSent info
  | .interactive :: inner, payload, receiverBus, senderBus, ackSent, info => do
    let ackSent ← sendPacket inner payload receiverBus senderBus ackSent info
    callUser w enter inner.length (.sendNotification payload receiverBus senderBus info)
    return ackSent

def forwardPacket (payload : Payload) (receiverBus senderBus : UInt8) (ackSent : Bool)
    (info : PacketInfo) : Member Bool :=
  if receiverBus ≠ notAssigned ∧ receiverBus ≠ senderBus then
    sendPacket r w c enter c.templates payload receiverBus senderBus ackSent info
  else return ackSent

/-- The loop of `dynamic_receiver_function` of the switch. -/
def receiverLoop (payload : Payload) (info : PacketInfo) : Nat → UInt8 → Bool → Member Unit
  | 0, _, _ => return ()
  | turns + 1, startSearch, ackSent => do
    let found ← findBusWithId w c.plain (targetOf info) startSearch
    let x ← get
    let receiverBus := if found.1 = notAssigned then x.defaultGateway else found.1
    let ackSent ← forwardPacket r w c enter payload receiverBus x.currentBus ackSent info
    if found.2 ≠ notAssigned then receiverLoop payload info turns found.2 ackSent else return ()

/-- `add_sender_to_routing_table`. -/
def addSenderToRoutingTable (info : PacketInfo) (senderBus : UInt8) : Member Unit := do
  let found ← findBusWithId w c.plain info.tx.busId 0
  if found.1 = notAssigned then modify (BuiltObject.addRow r.tableSize info.tx.busId senderBus)
  else return ()

/-- `dynamic_receiver_function` of the plain class. -/
def plainReceiverFunction (payload : Payload) (info : PacketInfo) : Member Unit :=
  match c.plain with
  | .dynamicRouter => do
    let x ← get
    addSenderToRoutingTable r w c info x.currentBus
    receiverLoop r w c enter payload info w.turns 0 false
  | _ => receiverLoop r w c enter payload info w.turns 0 false

/-- `packet_is_for_me`. -/
def packetIsForMe (info : PacketInfo) : Member Bool := do
  let x ← get
  let tx ← txOf w x.currentBus
  if tx.id = notAssigned then return false
  else do
    let tx ← txOf w x.currentBus
    if tx.busId = info.rx.busId then do
      let tx ← txOf w x.currentBus
      return tx.id == info.rx.id
    else return false

/-- `send_acknowledge` on the current bus, for a packet that asks for it. -/
def acknowledgeMine (info : PacketInfo) : Member Unit := do
  let x ← get
  if has info.header ackReqBit then busAt x.currentBus else return ()

/-- A virtual bus router registers the sender of a packet. -/
def registerSender (level : Nat) (info : PacketInfo) : Member Unit := do
  let onVbus ← isVbus w level info.tx.busId
  let x ← get
  if onVbus then registerDeviceOnVbus r level info.tx.id x.currentBus else return ()

/-- `dynamic_receiver_function` of the class that these templates make. -/
def dynamicReceiverFunction : List Template → Payload → PacketInfo → Member Unit
  | [], payload, info => plainReceiverFunction r w c enter payload info
  | .virtualBus :: inner, payload, info => do
    registerSender r w inner.length info
    let receiverBus ← findVbusWithDevice r w inner.length info.rx.busId info.rx.id
    let x ← get
    if receiverBus ≠ notAssigned then do
      let _ ← forwardPacket r w c enter payload receiverBus x.currentBus false info
      return ()
    else do
      modify (BuiltObject.setUnknown inner.length true)
      dynamicReceiverFunction inner payload info
      modify (BuiltObject.setUnknown inner.length false)
  | .interactive :: inner, payload, info => do
    let forMe ← packetIsForMe w info
    (if forMe then acknowledgeMine info else dynamicReceiverFunction inner payload info)
    let x ← get
    if x.routers inner.length || forMe then callUser w enter inner.length (.receiver payload info)
    else return ()

/-- The members that are called from outside are those of the whole class. -/
def handle : Entry → Member Unit
  | .receiverFunction payload info => dynamicReceiverFunction r w c enter c.templates payload info
  | .errorFunction code data => dynamicErrorFunction r w enter c.templates code data
  | .sendPacket payload info => dynamicReceiverFunction r w c enter c.templates payload info

/-! ## Runs -/

/-- The first loop of `loop`. -/
def receiveLoop : Nat → Member Unit
  | 0 => return ()
  | todo + 1 => do
    let x ← get
    if x.currentBus < x.busCount then do
      -- `get_receive_time` of the strategy of the bus
      busAt x.currentBus
      let code ← callBus w enter x.currentBus .receive
      if r.maxPackets < x.busCount.toNat ∧ code = ack then return ()
      else do
        modify fun x => x.setCurrentBus (x.currentBus + 1)
        receiveLoop todo
    else return ()

def updateLoop : Nat → Member Unit
  | 0 => return ()
  | todo + 1 => do
    let x ← get
    if x.currentBus < x.busCount then do
      let _ ← callBus w enter x.currentBus .update
      modify fun x => x.setCurrentBus (x.currentBus + 1)
      updateLoop todo
    else return ()

def loop : Member Unit := do
  modify (BuiltObject.setCurrentBus 0)
  receiveLoop r w enter 256
  modify (BuiltObject.setCurrentBus 0)
  updateLoop w enter 256
  modify (BuiltObject.setCurrentBus notAssigned)

end Members

variable (r : RouterBuild) (w : World) (c : BuiltClass)

/-- The entries within entries, to a depth of `depth`. -/
def enterTo : Nat → Entry → Member Unit
  | 0 => handle r w c fun _ => return ()
  | depth + 1 => handle r w c (enterTo depth)

end Built

/-- What the main program does with an object. -/
inductive ProgramStep where
  | loop
  | sendPacket (payload : Payload) (info : PacketInfo)
  deriving DecidableEq, Repr

namespace Built

def programStep (r : RouterBuild) (w : World) (c : BuiltClass) (depth : Nat) :
    ProgramStep → Member Unit
  | .loop => loop r w (enterTo r w c depth)
  | .sendPacket payload info => enterTo r w c depth (.sendPacket payload info)

def program (r : RouterBuild) (w : World) (c : BuiltClass) (depth : Nat)
    (steps : List ProgramStep) : Member Unit :=
  steps.forM (programStep r w c depth)

end Built

end Pjon.Model
