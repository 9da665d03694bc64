import Pjon.Model.Receive
/-!
# Datagrams

The strategy `DualUDP` over its `UDPHelper`, and the two members of an instance that work on it
datagram by datagram.  An address stands for an IP address with its port; what the socket yields
when it is polled is an input.
-/

namespace Pjon.Model.DualUDP

open Pjon.Lib

/-- The two implementations of `UDPHelper`. -/
inductive UDPHelper where
  | arduino
  | posix
  deriving DecidableEq, Repr

/-- The helper takes a datagram with so many bytes behind its magic header. -/
def UDPHelper.takes : UDPHelper → (maxLength length : Nat) → Bool
  | .arduino, maxLength, length => decide (length ≤ maxLength) && decide (4 + length < 32768)
  | .posix, maxLength, length => decide (4 + length < maxLength)

/-- What an instance is compiled with: the build, the helper, and the size of the node table with
`get_max_attempts()` and `DUDP_MAX_FAILURES`.  `PJON_PACKET_MAX_LENGTH` is assigned to 16 bits, and
leaves room for a header. -/
structure Host where
  build : Build
  room : 4 ≤ build.packetMaxLength
  counted : build.packetMaxLength < 65536
  helper : UDPHelper := .arduino
  maxRemoteNodes : Nat := 10
  maxRetries : Nat := 5
  maxFailures : Nat := 10

variable {α : Type}

/-- A datagram to an address, or to everyone on the network. -/
structure Datagram (α : Type) where
  source : α
  destination : Option α
  bytes : List UInt8
  deriving DecidableEq, Repr

/-- An entry of the node table. -/
structure Node (α : Type) where
  id : UInt8
  address : Option α
  sendAttempts : UInt8 := 0
  deriving DecidableEq, Repr

/-- The members of the strategy; `remote` is the address that its helper remembers. -/
structure Strategy (α : Type) where
  autoRegistration : Bool := true
  autoDiscovery : Bool := true
  didBroadcast : Bool := false
  unremovableNodeCount : UInt8 := notAssigned
  lastOutReceiverId : UInt8 := 0
  lastOutSenderId : UInt8 := 0
  lastInSender : Option α := none
  lastInReceiverId : UInt8 := 0
  lastInSenderId : UInt8 := 0
  nodes : List (Node α) := []
  remote : Option α := none
  deriving DecidableEq, Repr

namespace Strategy

variable (host : Host) (self : α) (strategy : Strategy α)

/-! ## The node table -/

def findRemoteNode (id : UInt8) : Option Nat :=
  strategy.nodes.findIdx? fun node => node.id == id

def addNode (remoteId : UInt8) (remote : Option α) : Option Nat × Strategy α :=
  if strategy.nodes.length = host.maxRemoteNodes then (none, strategy)
  else
    let unremovable :=
      if strategy.unremovableNodeCount = notAssigned then UInt8.ofNat strategy.nodes.length
      else strategy.unremovableNodeCount
    (some strategy.nodes.length,
      { strategy with
        unremovableNodeCount := unremovable
        nodes := strategy.nodes ++ [{ id := remoteId, address := remote }] })

/-- `remove_node`: whether the node is removed, and the strategy that it leaves. -/
def removeNode (pos : Nat) : Bool × Strategy α :=
  if pos < strategy.unremovableNodeCount.toNat then (false, strategy)
  else (true, { strategy with nodes := strategy.nodes.eraseIdx pos })

def autoregisterSender : Option Nat × Strategy α :=
  if strategy.autoRegistration then
    if strategy.lastInSenderId = 0 then (none, strategy)
    else
      match strategy.findRemoteNode strategy.lastInSenderId with
      | none => strategy.addNode host strategy.lastInSenderId strategy.lastInSender
      | some pos =>
        (some pos,
          { strategy with
            nodes := strategy.nodes.modify pos fun node =>
              { node with address := strategy.lastInSender } })
  else (none, strategy)

/-! ## Frames -/

/-- What is done with the header of a frame that was received into `data`. -/
def noteFrame (data : Memory) : Strategy α :=
  let rx := Tools.parseRx host.build data
  let tx := Tools.parseTx host.build data
  let strategy := { strategy with lastInReceiverId := rx.id, lastInSenderId := tx.id }
  if tx.id ≠ notAssigned ∧ strategy.lastOutSenderId ≠ notAssigned ∧
      rx.id = strategy.lastOutSenderId then
    (strategy.autoregisterSender host).2
  else strategy

/-- `receive_frame`, where `data` is what its buffer holds and `arrival` what the socket yields. -/
def receiveFrame (data : Memory) (arrival : Option (Datagram α)) (maxLength : Nat) :
    Option (List UInt8) × Strategy α :=
  match arrival with
  | none => (none, { strategy with lastInSender := strategy.remote })
  | some datagram =>
    if host.helper.takes maxLength datagram.bytes.length then
      let strategy :=
        { strategy with remote := some datagram.source, lastInSender := some datagram.source }
      let strategy :=
        if 4 < datagram.bytes.length then
          strategy.noteFrame host (data.store 0 datagram.bytes)
        else strategy
      (some datagram.bytes, strategy)
    else
      -- the socket of an Arduino remembers the sender of a datagram that it drops
      let remote :=
        match host.helper with
        | .arduino => some datagram.source
        | .posix => strategy.remote
      (none, { strategy with remote := remote, lastInSender := remote })

/-- The part of `send_frame` that looks for the receiver of the frame: its position in the node
table.  A node that does not respond is removed, if it may be. -/
def locateReceiver : Option Nat × Strategy α :=
  let pos :=
    if strategy.lastOutReceiverId ≠ 0 then strategy.findRemoteNode strategy.lastOutReceiverId
    else none
  match pos with
  | none => (none, strategy)
  | some pos =>
    let attempts := (strategy.nodes[pos]?.map Node.sendAttempts).getD 0
    if host.maxRetries * host.maxFailures < attempts.toNat then
      let removed := strategy.removeNode pos
      (if removed.1 then none else some pos, removed.2)
    else (some pos, strategy)

/-- `send_frame`: the strategy that it leaves and the datagram that it sends. -/
def sendFrame (data : Memory) (length : Nat) : Strategy α × Option (Datagram α) :=
  let strategy := { strategy with didBroadcast := false }
  if 4 < length then
    let strategy :=
      { strategy with
        lastOutReceiverId := (Tools.parseRx host.build data).id
        lastOutSenderId := (Tools.parseTx host.build data).id }
    let located := strategy.locateReceiver host
    match located.1 with
    | none =>
      ({ located.2 with didBroadcast := true },
        if located.2.autoDiscovery then
          some { source := self, destination := none, bytes := data.load 0 length }
        else none)
    | some pos =>
      let remote := located.2.nodes[pos]?.bind Node.address
      ({ located.2 with
          nodes := located.2.nodes.modify pos fun node =>
            { node with sendAttempts := node.sendAttempts + 1 } },
        remote.map fun address =>
          { source := self, destination := some address, bytes := data.load 0 length })
  else (strategy, none)

/-! ## Responses -/

/-- `send_response`, to the address of the last datagram. -/
def sendResponse (response : UInt8) : Option (Datagram α) :=
  strategy.remote.map fun address =>
    { source := self, destination := some address
      bytes := [strategy.lastInSenderId, strategy.lastInReceiverId, response] }

end Strategy

/-- One turn of the loop of `receive_response`: what its buffer holds, and what the socket
yields. -/
structure Listening (α : Type) where
  result : Memory
  arrival : Option (Datagram α)

namespace Strategy

variable (host : Host)

/-- `receive_response`, with the turns that it has time for. -/
def receiveResponse (strategy : Strategy α) : List (Listening α) → Nat × Strategy α
  | [] => (fail, strategy)
  | poll :: polls =>
    match strategy.receiveFrame host poll.result poll.arrival 10 with
    | (some [receiverId, senderId, code], strategy) =>
      let strategy := { strategy with lastInReceiverId := receiverId, lastInSenderId := senderId }
      -- the id of the sender is not compared: a delayed ACK is accepted, too
      if receiverId ≠ strategy.lastOutSenderId then receiveResponse strategy polls
      else if code.toNat = ack then
        match strategy.autoregisterSender host with
        | (none, strategy) => (ack, strategy)
        | (some pos, strategy) =>
          (ack,
            { strategy with
              nodes := strategy.nodes.modify pos fun node => { node with sendAttempts := 0 } })
      else receiveResponse strategy polls
    | (_, strategy) => receiveResponse strategy polls

end Strategy

/-! ## The members of the instance -/

section Instance

variable (host : Host) (self : α)

/-- The local variables of `receive`, the strategy, and what the socket has left. -/
structure Reception (α : Type) where
  st : LoopState
  strategy : Strategy α
  arrivals : List (Option (Datagram α))

/-- The body of the loop of `receive`, with the `receive_frame` of this strategy. -/
def receiveTurn (bus : Bus host.build) (i : Nat) (reception : Reception α) :
    Except (Return × Strategy α) (Reception α) :=
  let st := reception.st
  if st.batchLength = 0 then
    let received := reception.strategy.receiveFrame host (fun k => st.data (i + k))
      reception.arrivals.head?.join (st.length - i)
    match received.1 with
    | none => .error ((fail, st.data), received.2)
    | some bytes =>
      if bytes.length = 0 then .error ((fail, st.data), received.2)
      else
        match bus.examine i
          { st with data := st.data.store i bytes, batchLength := bytes.length - 1 } with
        | .error verdict => .error (verdict, received.2)
        | .ok st =>
          .ok { st := st, strategy := received.2, arrivals := reception.arrivals.tail }
  else
    match bus.examine i { st with batchLength := st.batchLength - 1 } with
    | .error verdict => .error (verdict, reception.strategy)
    | .ok st => .ok { reception with st := st }

/-- The loop of `receive`. -/
def receiveLoop (bus : Bus host.build) (strategy : Strategy α)
    (arrivals : List (Option (Datagram α))) : Except (Return × Strategy α) (Reception α) :=
  let length := host.build.packetMaxLength % 65536
  boundedLoop (fun reception => reception.st.length) (receiveTurn host bus) length 0
    { st := { data := bus.data, length := length }, strategy := strategy, arrivals := arrivals }

/-- What a call of `receive` does, and the datagram that it responds with. -/
structure Receipt (α : Type) (b : Build) extends Outcome b where
  strategy : Strategy α
  response : Option (Datagram α) := none

def receive (bus : Bus host.build) (strategy : Strategy α)
    (arrivals : List (Option (Datagram α))) : Receipt α host.build :=
  match receiveLoop host bus strategy arrivals with
  | .error ((code, data), strategy) =>
    { result := code, bus := { bus with data := data }, strategy := strategy }
  | .ok reception =>
    let st := reception.st
    if !Bus.checksumsMatch st then
      { result := nak, bus := { bus with data := st.data }, strategy := reception.strategy }
    else if bus.rejectsMac st then
      { result := busy, bus := { bus with data := st.data }, strategy := reception.strategy }
    else
      { bus.deliver st with
        strategy := reception.strategy
        response :=
          if bus.acknowledges st then reception.strategy.sendResponse self (UInt8.ofNat ack)
          else none }

/-- The part of `send_packet` in front of `receive_response`: the result if it ends there, the
strategy, and the datagram that is sent. -/
structure Transmitting (α : Type) where
  result : Option Nat
  strategy : Strategy α
  sent : Option (Datagram α) := none

def transmit (halfDuplex canStart : Bool) (strategy : Strategy α) (packet : Memory)
    (length : Nat) : Transmitting α :=
  if halfDuplex && !canStart then { result := some busy, strategy := strategy }
  else
    let sent := strategy.sendFrame host self packet length
    { strategy := sent.1, sent := sent.2
      result :=
        if packet 0 = broadcast ∨ has (packet 1) ackReqBit = false ∨ halfDuplex = false then
          some ack
        else none }

/-- The part of `send_packet` from `receive_response` on. -/
def awaitResponse (strategy : Strategy α) (polls : List (Listening α)) : Nat × Strategy α :=
  let response := strategy.receiveResponse host polls
  (if response.1 = ack then ack else fail, response.2)

end Instance

end Pjon.Model.DualUDP
