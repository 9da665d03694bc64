import Pjon.Model.Switch
/-!
# Routers

`PJONRouter` adds a table of remote buses to the switch, `PJONDynamicRouter` fills it
with the senders of the packets that come in.
-/

namespace Pjon.Model

open Pjon.Lib

variable {r : RouterBuild} {n : Nat}

/-- A row of the arrays `remote_bus_ids` and `remote_bus_via_attached_bus`. -/
structure Route (n : Nat) where
  busId : Vector UInt8 4
  via : Fin n
  deriving DecidableEq, Repr

/-- `table` are the first `table_size` rows. -/
structure Router (r : RouterBuild) (n : Nat) extends Switch r n where
  table : List (Route n) := []

namespace Router

def setSwitch (router : Router r n) (s : Switch r n) : Router r n := { router with toSwitch := s }

/-- The cursor counts the attached buses first; it is a `uint8_t` throughout. -/
def findBusInTable (router : Router r n) (busId : Vector UInt8 4) (startBus : UInt8) :
    Option (Fin n) × UInt8 :=
  let start := startBus - UInt8.ofNat n
  match (router.table.zipIdx.drop start.toNat).find? fun route => busId == route.1.busId with
  | some route => (some route.1.via, UInt8.ofNat (n + route.2 + 1))
  | none => (none, notAssigned)

def findBusWithId (router : Router r n) (busId : Vector UInt8 4) (startBus : UInt8) :
    Option (Fin n) × UInt8 :=
  let attached :=
    if startBus.toNat < n then
      let found := router.findAttachedBusWithId busId startBus
      if found.1 = none then (none, UInt8.ofNat n) else found
    else (none, startBus)
  let found :=
    if attached.1 = none ∧ n ≤ attached.2.toNat ∧ attached.2 ≠ notAssigned then
      router.findBusInTable busId attached.2
    else attached
  if found.1 = none then (none, notAssigned) else found

/-- `table_size` is a `uint8_t`, and rows that it does not count are overwritten. -/
def add (router : Router r n) (busId : Vector UInt8 4) (viaAttachedBus : Fin n) : Router r n :=
  if router.table.length < r.tableSize then
    { router with
      table := (router.table ++ [(⟨busId, viaAttachedBus⟩ : Route n)]).take
        ((router.table.length + 1) % 256) }
  else router

def sendPacket (payload : Payload) (senderBus : Fin n) (info : PacketInfo)
    (surroundings : Surroundings) (receiverBus : Fin n) (ackSent : Bool) (router : Router r n) :
    Routing (Router r n) n :=
  let sent := router.toSwitch.sendPacket payload senderBus info surroundings receiverBus ackSent
  { sent with state := router.setSwitch sent.state }

def receiverFunction (router : Router r n) (currentBus : Fin n) (payload : Payload)
    (info : PacketInfo) (surroundings : Nat → Surroundings) : Routing (Router r n) n :=
  dynamicReceiverFunction findBusWithId
    (fun turn => sendPacket payload currentBus info (surroundings turn)) router.defaultGateway
    currentBus info router

/-! ## The dynamic router -/

def addSenderToRoutingTable (router : Router r n) (info : PacketInfo) (senderBus : Fin n) :
    Router r n :=
  if (router.findBusWithId info.tx.busId 0).1 = none then router.add info.tx.busId senderBus
  else router

/-- `dynamic_receiver_function` of `PJONDynamicRouter`. -/
def learningReceiverFunction (router : Router r n) (currentBus : Fin n) (payload : Payload)
    (info : PacketInfo) (surroundings : Nat → Surroundings) : Routing (Router r n) n :=
  (router.addSenderToRoutingTable info currentBus).receiverFunction currentBus payload info
    surroundings

/-! ## Runs -/

def receive (router : Router r n) (currentBus : Fin n) (delivery : Delivery)
    (surroundings : Nat → Surroundings) : Routing (Router r n) n :=
  receiveOn toSwitch setSwitch
    (fun router payload info => router.receiverFunction currentBus payload info surroundings)
    router currentBus delivery

/-- `receive` on a bus of a dynamic router. -/
def receiveLearning (router : Router r n) (currentBus : Fin n) (delivery : Delivery)
    (surroundings : Nat → Surroundings) : Routing (Router r n) n :=
  receiveOn toSwitch setSwitch
    (fun router payload info =>
      router.learningReceiverFunction currentBus payload info surroundings)
    router currentBus delivery

def update (router : Router r n) (currentBus : Fin n) (maxAttempts : UInt8)
    (turns : Fin r.maxPackets → Turn) : Router r n :=
  router.setSwitch (router.toSwitch.update currentBus maxAttempts turns)

end Router

end Pjon.Model
