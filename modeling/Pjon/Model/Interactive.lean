import Pjon.Model.Router
import Pjon.Model.VirtualBus
/-!
# The interactive router

`PJONInteractiveRouter<RouterClass>` gives a routing class a receiver of its own: packets that
are for the device that the object is on one of its buses go to the user's receiver.
-/

namespace Pjon.Model

open Pjon.Lib

variable {r : RouterBuild} {n : Nat}

/-- A class that `PJONInteractiveRouter` is instantiated with: its objects, the attached buses
in them, and its `dynamic_receiver_function`. -/
structure RoutingClass (r : RouterBuild) (n : Nat) where
  Object : Type
  switch : Object → Switch r n
  setSwitch : Object → Switch r n → Object
  receiverFunction : Object → Fin n → Payload → PacketInfo → (Nat → Surroundings) →
    Routing Object n
  switch_setSwitch : ∀ object s, switch (setSwitch object s) = s

namespace RoutingClass

/-- `PJONSwitch`. -/
def ofSwitch : RoutingClass r n where
  Object := Switch r n
  switch := id
  setSwitch := fun _ s => s
  receiverFunction := Switch.receiverFunction
  switch_setSwitch := fun _ _ => rfl

/-- `PJONRouter`. -/
def ofRouter : RoutingClass r n where
  Object := Router r n
  switch := Router.toSwitch
  setSwitch := Router.setSwitch
  receiverFunction := Router.receiverFunction
  switch_setSwitch := fun _ _ => rfl

/-- `PJONDynamicRouter`. -/
def ofDynamicRouter : RoutingClass r n where
  Object := Router r n
  switch := Router.toSwitch
  setSwitch := Router.setSwitch
  receiverFunction := Router.learningReceiverFunction
  switch_setSwitch := fun _ _ => rfl

/-- `PJONVirtualBusRouter<PJONSwitch>`. -/
def ofVirtualBusRouter : RoutingClass r n where
  Object := VirtualBusRouter r n
  switch := VirtualBusRouter.toSwitch
  setSwitch := VirtualBusRouter.setSwitch
  receiverFunction := VirtualBusRouter.receiverFunction
  switch_setSwitch := fun _ _ => rfl

end RoutingClass

/-- `calls` are those of `receiver` so far, which is set. -/
structure Interactive (c : RoutingClass r n) where
  base : c.Object
  customPointer : Nat := 0
  router : Bool := false
  calls : List (Payload × PacketInfo) := []

namespace Interactive

variable {c : RoutingClass r n}

def switch (object : Interactive c) : Switch r n := c.switch object.base

def setSwitch (object : Interactive c) (s : Switch r n) : Interactive c :=
  { object with base := c.setSwitch object.base s }

/-- `packet_is_for_me`, where `bus` is the current bus. -/
def packetIsForMe (bus : Bus r.toBuild) (info : PacketInfo) : Bool :=
  bus.tx.id != notAssigned && bus.tx.busId == info.rx.busId && bus.tx.id == info.rx.id

/-- `receiver(payload, length, p_i)`. -/
def call (object : Interactive c) (payload : Payload) (info : PacketInfo) : Interactive c :=
  { object with
    calls := object.calls ++ [(payload, { info with customPointer := object.customPointer })] }

/-- `dynamic_receiver_function`. -/
def receiverFunction (object : Interactive c) (currentBus : Fin n) (payload : Payload)
    (info : PacketInfo) (surroundings : Nat → Surroundings) : Routing (Interactive c) n :=
  let forMe := packetIsForMe (object.switch.bus currentBus) info
  let handled : Routing (Interactive c) n :=
    if forMe then
      { state := object
        events := if has info.header ackReqBit then [(currentBus, .sendResponse ack)] else [] }
    else
      let routed := c.receiverFunction object.base currentBus payload info surroundings
      { state := { object with base := routed.state }
        ackSent := routed.ackSent
        forwards := routed.forwards
        events := routed.events }
  if object.router || forMe then { handled with state := handled.state.call payload info }
  else handled

/-- `receive` on an attached bus. -/
def receive (object : Interactive c) (currentBus : Fin n) (delivery : Delivery)
    (surroundings : Nat → Surroundings) : Routing (Interactive c) n :=
  receiveOn switch setSwitch
    (fun object payload info => object.receiverFunction currentBus payload info surroundings)
    object currentBus delivery

end Interactive

end Pjon.Model
