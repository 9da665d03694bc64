import Pjon.Model.DualUDP
/-!
# Strategies that parse what they receive

`DualUDP`, `GlobalUDP` and `ESPNOW` look for the sender in the header of a frame, before anything
in it is checked.  Every call of `parse_header` is recorded with the number of bytes that were
received.
-/

namespace Pjon.Model

open Pjon.Lib

/-- A call of `parse_header`: the memory that it reads, and how many bytes of it were received. -/
structure Parsing where
  packet : Memory
  received : Nat

/-- What `receive_frame` does: the bytes that it copies, or `none` for `PJON_FAIL`. -/
structure Received (σ : Type) where
  bytes : Option (List UInt8)
  strategy : σ
  parsings : List Parsing := []

/-- What `receive_response` does. -/
structure Response (σ : Type) where
  result : Nat
  strategy : σ
  parsings : List Parsing := []

/-- The loop of `receive_response`, with the turns that it has time for: `receive_frame` is called
until it returns a single byte that is `PJON_ACK`. -/
def awaitAck {σ ι : Type} (receiveFrame : σ → ι → Received σ) : σ → List ι → Response σ
  | strategy, [] => { result := fail, strategy := strategy }
  | strategy, poll :: polls =>
    let received := receiveFrame strategy poll
    if received.bytes = some [UInt8.ofNat ack] then
      { result := ack, strategy := received.strategy, parsings := received.parsings }
    else
      let rest := awaitAck receiveFrame received.strategy polls
      { rest with parsings := received.parsings ++ rest.parsings }

variable {α : Type}

/-! ## DualUDP -/

namespace DualUDP.Strategy

variable (host : Host)

/-- The calls of `parse_header` in `receive_frame`. -/
def parsings (data : Memory) (arrival : Option (Datagram α)) (maxLength : Nat) : List Parsing :=
  match arrival with
  | none => []
  | some datagram =>
    if host.helper.takes maxLength datagram.bytes.length then
      if 4 < datagram.bytes.length then
        [{ packet := data.store 0 datagram.bytes, received := datagram.bytes.length }]
      else []
    else []

/-- The calls of `parse_header` in `receive_response`. -/
def responseParsings (strategy : Strategy α) : List (Listening α) → List Parsing
  | [] => []
  | poll :: polls =>
    parsings host poll.result poll.arrival 10 ++
      match strategy.receiveFrame host poll.result poll.arrival 10 with
      | (some [receiverId, _, code], strategy) =>
        if receiverId ≠ strategy.lastOutSenderId then responseParsings strategy polls
        else if code.toNat = ack then []
        else responseParsings strategy polls
      | (_, strategy) => responseParsings strategy polls

end DualUDP.Strategy

/-! ## GlobalUDP -/

namespace GlobalUDP

structure Settings where
  build : Build
  helper : DualUDP.UDPHelper := .arduino
  maxRemoteNodes : Nat := 10

structure Node (α : Type) where
  id : UInt8
  address : α
  deriving DecidableEq, Repr

structure Strategy (α : Type) where
  autoRegistration : Bool := true
  nodes : List (Node α) := []
  deriving DecidableEq, Repr

namespace Strategy

variable (settings : Settings) (strategy : Strategy α)

def findRemoteNode (id : UInt8) : Option Nat := strategy.nodes.findIdx? fun node => node.id == id

def addNode (remoteId : UInt8) (remote : α) : Strategy α :=
  if strategy.nodes.length = settings.maxRemoteNodes then strategy
  else { strategy with nodes := strategy.nodes ++ [{ id := remoteId, address := remote }] }

/-- `autoregister_sender`, where `sender` is what the helper remembers. -/
def autoregisterSender (message : Memory) (length : Nat) (sender : α) :
    Strategy α × List Parsing :=
  if strategy.autoRegistration && decide (4 < length) then
    let senderId := (Tools.parseTx settings.build message).id
    (if senderId = 0 then strategy
      else
        match strategy.findRemoteNode senderId with
        | none => strategy.addNode settings senderId sender
        | some pos =>
          { strategy with
            nodes := strategy.nodes.modify pos fun node => { node with address := sender } },
      [{ packet := message, received := length }])
  else (strategy, [])

def receiveFrame (data : Memory) (arrival : Option (DualUDP.Datagram α)) (maxLength : Nat) :
    Received (Strategy α) :=
  match arrival with
  | none => { bytes := none, strategy := strategy }
  | some datagram =>
    if settings.helper.takes maxLength datagram.bytes.length then
      let registered := strategy.autoregisterSender settings (data.store 0 datagram.bytes)
        datagram.bytes.length datagram.source
      { bytes := some datagram.bytes, strategy := registered.1, parsings := registered.2 }
    else { bytes := none, strategy := strategy }

/-- `receive_response`, with a buffer of eight bytes. -/
def receiveResponse (strategy : Strategy α) (polls : List (DualUDP.Listening α)) :
    Response (Strategy α) :=
  awaitAck (fun strategy poll => strategy.receiveFrame settings poll.result poll.arrival 8)
    strategy polls

end Strategy

end GlobalUDP

/-! ## ESPNOW -/

namespace ESPNOW

structure Settings where
  build : Build
  maxRemoteNodes : Nat := 10

/-- What the queue yields: `α` are the MAC addresses. -/
structure Packet (α : Type) where
  mac : α
  data : List UInt8
  deriving DecidableEq, Repr

/-- `ENHelper::receive_frame` for a packet: the length, in 8 bits, is added to the magic header
around the frame. -/
def Packet.receiveFrame (packet : Packet α) (maxLength : Nat) : Option (List UInt8) :=
  if packet.data.length < 4 then none
  else
    let len := UInt8.ofNat (packet.data.length - 4)
    if packet.data.getD 0 0 ^^^ len ≠ 0xEE ∨ packet.data.getD 1 0 ^^^ len ≠ 0xFE ∨
        packet.data.getD (packet.data.length - 2) 0 ^^^ len ≠ 0x0E ∨
        packet.data.getD (packet.data.length - 1) 0 ^^^ len ≠ 0xEF then none
    else if maxLength < len.toNat then none
    else some ((packet.data.drop 2).take len.toNat)

structure Node (α : Type) where
  id : UInt8
  mac : α
  deriving DecidableEq, Repr

structure Strategy (α : Type) where
  autoRegistration : Bool := true
  nodes : List (Node α) := []
  deriving DecidableEq, Repr

namespace Strategy

variable (settings : Settings) (strategy : Strategy α)

/-- The MAC address is compared with that of the first node. -/
def findRemoteNode [DecidableEq α] (id : UInt8) (mac : α) : Option Nat :=
  strategy.nodes.findIdx? fun node =>
    (node.id == id && id != notAssigned) ||
      (strategy.nodes.head?.map fun node => node.mac) == some mac

def addNode (remoteId : UInt8) (remoteMac : α) : Strategy α :=
  if strategy.nodes.length = settings.maxRemoteNodes then strategy
  else { strategy with nodes := strategy.nodes ++ [{ id := remoteId, mac := remoteMac }] }

/-- `autoregister_sender`.  A node that is known is only updated with the MAC address that it
has. -/
def autoregisterSender [DecidableEq α] (message : Memory) (length : Nat) (senderMac : α) :
    Strategy α × List Parsing :=
  if strategy.autoRegistration && decide (4 < length) then
    let senderId := (Tools.parseTx settings.build message).id
    (if senderId = 0 then strategy
      else
        match strategy.findRemoteNode senderId senderMac with
        | none => strategy.addNode settings senderId senderMac
        | some _ => strategy,
      [{ packet := message, received := length }])
  else (strategy, [])

def receiveFrame [DecidableEq α] (data : Memory) (arrival : Option (Packet α)) (maxLength : Nat) :
    Received (Strategy α) :=
  match arrival.bind fun packet => (packet.receiveFrame maxLength).map fun bytes =>
      (packet.mac, bytes) with
  | none => { bytes := none, strategy := strategy }
  | some (mac, bytes) =>
    let registered := strategy.autoregisterSender settings (data.store 0 bytes) bytes.length mac
    { bytes := some bytes, strategy := registered.1, parsings := registered.2 }

/-- `receive_response`, with a buffer for a whole packet. -/
def receiveResponse [DecidableEq α] (strategy : Strategy α)
    (polls : List (Memory × Option (Packet α))) : Response (Strategy α) :=
  awaitAck (fun strategy poll =>
    strategy.receiveFrame settings poll.1 poll.2 (settings.build.packetMaxLength % 65536))
    strategy polls

end Strategy

/-- A call of `ENHelper::send_frame`; without a destination the frame is broadcast. -/
structure Sending (α : Type) where
  destination : Option α
  bytes : List UInt8
  deriving DecidableEq, Repr

/-- `send_frame`.  The MAC address that a node is looked for with is that in the frame. -/
def Strategy.sendFrame (settings : Settings) (strategy : Strategy (Vector UInt8 6))
    (data : Memory) (length : Nat) : Option (Sending (Vector UInt8 6)) :=
  if 0 < length then
    let id := data 0
    let bytes := data.load 0 length
    if id = 0 then some { destination := none, bytes := bytes }
    else
      match strategy.findRemoteNode id (Tools.parseRx settings.build data).mac with
      | some pos =>
        some { destination := strategy.nodes[pos]?.map fun node => node.mac, bytes := bytes }
      | none => some { destination := none, bytes := bytes }
  else none

end ESPNOW

end Pjon.Model
