import Pjon.Model.Router
import Pjon.Model.VirtualBus
import Pjon.Spec.Admission
import Pjon.Lib.Run
/-!
# What a switch is for

Where a packet is to go, and what can be seen of it there.  The classes of switches and
routers are taken together where they behave alike.
-/

namespace Pjon.Spec

open Pjon.Lib Pjon.Model

variable {b : Build} {r : RouterBuild} {n : Nat}

/-! ## Where a packet is to go -/

/-- The attached buses are in router mode. -/
def Connected (s : Switch r n) : Prop := ∀ i, (s.bus i).router = true

/-- A packet for the bus id `target` that comes in on `currentBus` is to go to bus `i`. -/
def Destination (s : Switch r n) (currentBus : Fin n) (target : Vector UInt8 4) (i : Fin n) :
    Prop :=
  i ≠ currentBus ∧
    (s.busId i = target ∨ (∀ j, s.busId j ≠ target) ∧ s.defaultGateway = some i)

instance (s : Switch r n) (currentBus : Fin n) (target : Vector UInt8 4) (i : Fin n) :
    Decidable (Destination s currentBus target i) := by
  unfold Destination
  exact inferInstance

/-- How often a packet is forwarded to bus `i`. -/
def copiesTo {σ : Type} (i : Fin n) (routing : Routing σ n) : Nat :=
  routing.forwards.countP fun call => call.receiverBus == i

def acknowledgements {σ : Type} (routing : Routing σ n) : List (Fin n) :=
  routing.events.filterMap fun event =>
    if event.2 = .sendResponse ack then some event.1 else none

/-- A packet with this info, received on `currentBus`, goes once to each bus that it is to
go to, and is acknowledged at most once, on the bus that it came from. -/
structure RoutesRight {σ : Type} (s : Switch r n) (currentBus : Fin n) (info : PacketInfo)
    (routing : Routing σ n) : Prop where
  copies : ∀ i, copiesTo i routing =
    if Destination s currentBus (targetOf info) i then 1 else 0
  acknowledged : acknowledgements routing = [] ∨ acknowledgements routing = [currentBus]

/-! ## What a bus has taken -/

/-- The packet in a slot. -/
def slotFrame (bus : Bus b) (i : Fin b.maxPackets) : List UInt8 :=
  (bus.slot i).content.load 0 (bus.slot i).length

/-- The packets that are in the send buffer `after`, in slots that were free `before`. -/
def queued (before after : Bus b) : List (List UInt8) :=
  (List.finRange b.maxPackets).filterMap fun i =>
    if (before.slot i).state = 0 ∧ (after.slot i).state ≠ 0 then some (slotFrame after i) else none

/-- The send buffer has a free slot. -/
def HasRoom (bus : Bus b) : Prop := ∃ i, (bus.slot i).state = 0

/-! ## The classes -/

/-- What the classes of switches and routers have in common. -/
structure RouterClass (r : RouterBuild) (n : Nat) where
  State : Type
  switch : State → Switch r n
  receive : State → Fin n → Delivery → (Nat → Surroundings) → Routing State n
  update : State → Fin n → UInt8 → (Fin r.maxPackets → Turn) → State

namespace RouterClass

def simpleSwitch (r : RouterBuild) (n : Nat) : RouterClass r n where
  State := Switch r n
  switch := id
  receive := Switch.receive
  update := Switch.update

def router (r : RouterBuild) (n : Nat) : RouterClass r n where
  State := Router r n
  switch := Router.toSwitch
  receive := Router.receive
  update := Router.update

def dynamicRouter (r : RouterBuild) (n : Nat) : RouterClass r n where
  State := Router r n
  switch := Router.toSwitch
  receive := Router.receiveLearning
  update := Router.update

def virtualBusRouter (r : RouterBuild) (n : Nat) : RouterClass r n where
  State := VirtualBusRouter r n
  switch := VirtualBusRouter.toSwitch
  receive := VirtualBusRouter.receive
  update := VirtualBusRouter.update

def all (r : RouterBuild) (n : Nat) : List (RouterClass r n) :=
  [simpleSwitch r n, router r n, dynamicRouter r n, virtualBusRouter r n]

variable (cls : RouterClass r n)

def step (x : cls.State) : Traffic r n → cls.State
  | .receive currentBus delivery surroundings =>
    (cls.receive x currentBus delivery surroundings).state
  | .update currentBus maxAttempts turns => cls.update x currentBus maxAttempts turns

/-- The calls of `forward` and `forward_blocking` that are made. -/
def forwardsOf (x : cls.State) : Traffic r n → List (Forwarded n)
  | .receive currentBus delivery surroundings =>
    (cls.receive x currentBus delivery surroundings).forwards
  | .update _ _ _ => []

/-- The endpoint of an attached bus. -/
def endpoint (x : cls.State) (i : Fin n) : Endpoint := ((cls.switch x).bus i).tx

end RouterClass

/-! ## Forwarding one packet -/

/-- One more hop is within the limit. -/
def WithinHops (maxHops : UInt8) (info : PacketInfo) : Prop := info.hops + 1 ≤ maxHops

instance (maxHops : UInt8) (info : PacketInfo) : Decidable (WithinHops maxHops info) := by
  unfold WithinHops
  exact inferInstance

/-! ## Along a route -/

/-- The hop count of a shared packet. -/
def hopCount (s : List UInt8) : UInt8 := byte s (Tools.hopsIndex (header s))

/-- There is a switch or router with this hop limit that takes `frame` in on one of its
buses and puts `passed` in a send buffer or on the medium. -/
def Relays (maxHops : UInt8) (frame passed : List UInt8) : Prop :=
  ∃ (r : RouterBuild) (n : Nat), r.maxHops = maxHops ∧ ∃ cls ∈ RouterClass.all r n,
    ∃ (x : cls.State) (currentBus i : Fin n) (delivery : Delivery)
      (surroundings : Nat → Surroundings),
      Connected (cls.switch x) ∧ delivery.bytes = frame ∧
        (passed ∈ queued ((cls.switch x).bus i)
            ((cls.switch (cls.receive x currentBus delivery surroundings).state).bus i) ∨
          (i, .sendFrame passed) ∈ (cls.receive x currentBus delivery surroundings).events)

end Pjon.Spec
