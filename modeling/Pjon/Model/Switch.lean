import Pjon.Model.Forward
import Pjon.Model.Receive
import Pjon.Lib.Search
/-!
# Switches

`PJONSimpleSwitch`, and `PJONSwitch`, which is the same class over another strategy.
A switch attaches PJON instances and hands the packets that one of them receives to
others.  The members that derived classes override are arguments of the members
that call them.
-/

namespace Pjon.Model

open Pjon.Lib

/-- The settings of a program that includes a switch or a router.  `PJON_LOCAL` leaves
out the bus ids that a switch compares; packets are measured in a `uint16_t` and longer
than 3 bytes, devices are counted in a `uint8_t`. -/
structure RouterBuild extends Build where
  maxHops : UInt8 := 15
  tableSize : Nat := 10
  maxDevices : Nat := 255
  shared : pjonLocal = false := by decide
  packetMaxLength_ge : 4 ≤ packetMaxLength := by decide
  packetMaxLength_lt : packetMaxLength < 65536 := by decide
  maxDevices_lt : maxDevices < 256 := by decide

variable {r : RouterBuild} {n : Nat}

/-- `bus_count` is `n`.  The default gateway is one of the attached buses or
`PJON_NOT_ASSIGNED`; no bus has that index. -/
structure Switch (r : RouterBuild) (n : Nat) where
  buses : Vector (Bus r.toBuild) n
  defaultGateway : Option (Fin n) := none
  busCount_lt : n < 256 := by decide

/-- A call of `forward` or `forward_blocking` on an attached bus. -/
structure Forwarded (n : Nat) where
  receiverBus : Fin n
  info : PacketInfo
  result : Nat
  deriving DecidableEq, Repr

/-- What a member leaves when it returns: the object, the flag `ack_sent`, the calls of
`forward` it made, and what the attached buses did. -/
structure Routing (σ : Type) (n : Nat) where
  state : σ
  ackSent : Bool := false
  forwards : List (Forwarded n) := []
  events : List (Fin n × Event) := []

/-- The rest of a member, behind what was done before. -/
def Routing.andThen {σ : Type} (before : Routing σ n) (rest : σ → Bool → Routing σ n) :
    Routing σ n :=
  let after := rest before.state before.ackSent
  { after with
    forwards := before.forwards ++ after.forwards
    events := before.events ++ after.events }

/-! ## Members that the derived classes share -/

section Shared

variable {σ : Type}

def forwardPacket (sendPacket : Fin n → Bool → σ → Routing σ n)
    (receiverBus : Option (Fin n)) (senderBus : Fin n) (ackSent : Bool) (state : σ) : Routing σ n :=
  match receiverBus with
  | none => { state := state, ackSent := ackSent }
  | some receiverBus =>
    if receiverBus = senderBus then { state := state, ackSent := ackSent }
    else sendPacket receiverBus ackSent state

/-- The loop of `dynamic_receiver_function`, with at most `todo` turns left.  The cursor
`start_search` is `PJON_NOT_ASSIGNED` when the search is over. -/
def searchLoop (findBusWithId : σ → UInt8 → Option (Fin n) × UInt8)
    (defaultGateway : Option (Fin n)) (send : Nat → Option (Fin n) → Bool → σ → Routing σ n) :
    Nat → Nat → UInt8 → Routing σ n → Routing σ n
  | 0, _, _, routing => routing
  | todo + 1, turn, startSearch, routing =>
    let found := findBusWithId routing.state startSearch
    let routing := routing.andThen fun state ackSent =>
      send turn (found.1.or defaultGateway) ackSent state
    if found.2 = notAssigned then routing
    else searchLoop findBusWithId defaultGateway send todo (turn + 1) found.2 routing

/-- The bus id that a packet is for. -/
def targetOf (info : PacketInfo) : Vector UInt8 4 :=
  if has info.header modeBit then info.rx.busId else localhost

/-- `dynamic_receiver_function`.  Each turn but the last moves the cursor on, which has
256 values. -/
def dynamicReceiverFunction
    (findBusWithId : σ → Vector UInt8 4 → UInt8 → Option (Fin n) × UInt8)
    (sendPacket : Nat → Fin n → Bool → σ → Routing σ n) (defaultGateway : Option (Fin n))
    (currentBus : Fin n) (info : PacketInfo) (state : σ) : Routing σ n :=
  searchLoop (fun state => findBusWithId state (targetOf info)) defaultGateway
    (fun turn receiverBus => forwardPacket (sendPacket turn) receiverBus currentBus)
    256 0 0 { state := state }

end Shared

/-! ## The switch -/

namespace Switch

/-- `connect`, for as many buses as there is room for. -/
def connect (buses : Vector (Bus r.toBuild) n) (defaultGateway : Option (Fin n))
    (busCount_lt : n < 256 := by decide) : Switch r n :=
  { buses := Vector.ofFn fun i => { buses[i] with router := true }
    defaultGateway := defaultGateway, busCount_lt := busCount_lt }

def bus (s : Switch r n) (i : Fin n) : Bus r.toBuild := s.buses[i]

def setBus (s : Switch r n) (i : Fin n) (bus : Bus r.toBuild) : Switch r n :=
  { s with buses := s.buses.set i bus }

@[simp] theorem bus_setBus (s : Switch r n) (i : Fin n) (bus : Bus r.toBuild) :
    (s.setBus i bus).bus i = bus := by
  rw [Switch.bus, setBus, Fin.getElem_fin, Vector.getElem_set_self]

theorem bus_setBus_ne (s : Switch r n) {i j : Fin n} (bus : Bus r.toBuild) (h : i ≠ j) :
    (s.setBus i bus).bus j = s.bus j := by
  have hne : (i : Nat) ≠ (j : Nat) := fun heq => h (Fin.ext heq)
  rw [Switch.bus, setBus, Fin.getElem_fin, Vector.getElem_set_ne _ _ hne]
  rfl

@[simp] theorem setBus_defaultGateway (s : Switch r n) (i : Fin n) (bus : Bus r.toBuild) :
    (s.setBus i bus).defaultGateway = s.defaultGateway := rfl

def busId (s : Switch r n) (i : Fin n) : Vector UInt8 4 := (s.bus i).tx.busId

def findAttachedBusWithId (s : Switch r n) (busId : Vector UInt8 4) (startBus : UInt8) :
    Option (Fin n) × UInt8 :=
  match Search.first (fun i => busId == s.busId i) startBus.toNat with
  | some i => (some i, UInt8.ofNat (i + 1))
  | none => (none, notAssigned)

/-- A local bus that has a bus id to be reached with from other buses. -/
def isNat (s : Switch r n) (i : Fin n) : Bool :=
  !has (s.bus i).config modeBit && s.busId i != localhost

/-- The two address translations of `send_packet`. -/
def translate (s : Switch r n) (receiverBus senderBus : Fin n) (info : PacketInfo) : PacketInfo :=
  { info with
    tx :=
      if has info.header modeBit && s.isNat senderBus && info.tx.busId == localhost then
        { info.tx with busId := s.busId senderBus }
      else info.tx
    rx :=
      if has info.header modeBit && s.isNat receiverBus &&
          info.rx.busId == s.busId receiverBus then
        { info.rx with busId := localhost }
      else info.rx }

/-- The call of `forward`, or of `forward_blocking` and the error function in a program
that has no send buffer. -/
def handOn (bus : Bus r.toBuild) (info : PacketInfo) (payload : Payload)
    (surroundings : Surroundings) : Outcome r.toBuild :=
  if r.maxPackets = 0 then
    let sent := bus.forwardBlocking r.maxHops info payload surroundings.maxAttempts
      surroundings.attempts
    if sent.result = fail then
      { sent with events := sent.events ++ [.error connectionLost 0 bus.customPointer] }
    else sent
  else bus.forward r.maxHops info payload surroundings.now

def sendPacket (payload : Payload) (senderBus : Fin n) (info : PacketInfo)
    (surroundings : Surroundings) (receiverBus : Fin n) (ackSent : Bool) (s : Switch r n) :
    Routing (Switch r n) n :=
  let acknowledges := !ackSent && has info.header ackReqBit && info.rx.id != broadcast
  let passed := s.translate receiverBus senderBus info
  let sent := handOn (s.bus receiverBus) passed payload surroundings
  { state := s.setBus receiverBus sent.bus
    ackSent := ackSent || acknowledges
    forwards := [{ receiverBus := receiverBus, info := passed, result := sent.result }]
    events := (if acknowledges then [(senderBus, .sendResponse ack)] else []) ++
      sent.events.map fun event => (receiverBus, event) }

/-- `dynamic_receiver_function` of the switch, called while the bus `currentBus` receives. -/
def receiverFunction (s : Switch r n) (currentBus : Fin n) (payload : Payload) (info : PacketInfo)
    (surroundings : Nat → Surroundings) : Routing (Switch r n) n :=
  dynamicReceiverFunction findAttachedBusWithId
    (fun turn => sendPacket payload currentBus info (surroundings turn)) s.defaultGateway
    currentBus info s

end Switch

/-! ## Runs -/

/-- The call of the receiver function that `receive` makes, if it makes one.  The length
that it passes is a `uint16_t`. -/
def receiverCall (events : List Event) : Option (Payload × PacketInfo) :=
  events.findSome? fun
    | .receiver payload info =>
      some (⟨payload.take (payload.length % 65536), by
        rw [List.length_take]
        omega⟩, info)
    | _ => none

/-- `receive` on an attached bus, whose receiver function is that of the object. -/
def receiveOn {σ : Type} (switch : σ → Switch r n) (setSwitch : σ → Switch r n → σ)
    (receiverFunction : σ → Payload → PacketInfo → Routing σ n) (state : σ) (currentBus : Fin n)
    (delivery : Delivery) : Routing σ n :=
  let received := ((switch state).bus currentBus).receive delivery
  let before : Routing σ n :=
    { state := setSwitch state ((switch state).setBus currentBus received.bus)
      events := received.events.map fun event => (currentBus, event) }
  match receiverCall received.events with
  | none => before
  | some (payload, info) => before.andThen fun state _ => receiverFunction state payload info

/-- What happens to the object; its `loop` is made of these. -/
inductive Traffic (r : RouterBuild) (n : Nat) where
  | receive (currentBus : Fin n) (delivery : Delivery) (surroundings : Nat → Surroundings)
  | update (currentBus : Fin n) (maxAttempts : UInt8) (turns : Fin r.maxPackets → Turn)

namespace Switch

def receive (s : Switch r n) (currentBus : Fin n) (delivery : Delivery)
    (surroundings : Nat → Surroundings) : Routing (Switch r n) n :=
  receiveOn id (fun _ s => s)
    (fun s payload info => s.receiverFunction currentBus payload info surroundings)
    s currentBus delivery

def update (s : Switch r n) (currentBus : Fin n) (maxAttempts : UInt8)
    (turns : Fin r.maxPackets → Turn) : Switch r n :=
  s.setBus currentBus ((s.bus currentBus).update maxAttempts turns).bus

end Switch

end Pjon.Model
