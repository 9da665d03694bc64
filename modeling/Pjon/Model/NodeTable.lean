import Pjon.Model.DualUDP
/-!
# The node table of DualUDP

The members of `DualUDP` as the source keeps them: the ids, IP addresses, ports and failure counts
of the nodes are four arrays, and their number is counted in 8 bits.
-/

namespace Pjon.Model.DualUDP

open Pjon.Lib

variable {ι : Type}

/-- The members of the strategy; `remote` is the address that its helper remembers. -/
structure Members (ι : Type) where
  autoRegistration : Bool := true
  autoDiscovery : Bool := true
  didBroadcast : Bool := false
  unremovableNodeCount : UInt8 := notAssigned
  lastOutReceiverId : UInt8 := 0
  lastOutSenderId : UInt8 := 0
  lastInSenderIp : Option ι := none
  lastInSenderPort : Option UInt16 := none
  lastInReceiverId : UInt8 := 0
  lastInSenderId : UInt8 := 0
  remoteNodeCount : UInt8 := 0
  remoteId : Nat → UInt8 := fun _ => 0
  remoteIp : Nat → Option ι := fun _ => none
  remotePort : Nat → Option UInt16 := fun _ => none
  sendAttempts : Nat → UInt8 := fun _ => 0
  remote : Option (ι × UInt16) := none

/-- `array[i] = value`. -/
def assign {β : Type} (array : Nat → β) (i : Nat) (value : β) : Nat → β :=
  fun j => if j = i then value else array j

namespace Members

variable (host : Host) (self : ι × UInt16) (members : Members ι)

/-! ## The node table -/

def findRemoteNode (id : UInt8) : Option Nat :=
  (List.range members.remoteNodeCount.toNat).find? fun i => members.remoteId i == id

def addNode (remoteId : UInt8) (remoteIp : Option ι) (portNumber : Option UInt16) :
    Option Nat × Members ι :=
  let count := members.remoteNodeCount.toNat
  if count = host.maxRemoteNodes then (none, members)
  else
    let unremovable :=
      if members.unremovableNodeCount = notAssigned then members.remoteNodeCount
      else members.unremovableNodeCount
    (some count,
      { members with
        unremovableNodeCount := unremovable
        remoteId := assign members.remoteId count remoteId
        remoteIp := assign members.remoteIp count remoteIp
        remotePort := assign members.remotePort count portNumber
        sendAttempts := assign members.sendAttempts count 0
        remoteNodeCount := members.remoteNodeCount + 1 })

/-- The body of the loop of `remove_node`. -/
def copyNext (members : Members ι) (i : Nat) : Members ι :=
  { members with
    remoteId := assign members.remoteId i (members.remoteId (i + 1))
    remoteIp := assign members.remoteIp i (members.remoteIp (i + 1))
    remotePort := assign members.remotePort i (members.remotePort (i + 1))
    sendAttempts := assign members.sendAttempts i (members.sendAttempts (i + 1)) }

def removeNode (pos : Nat) : Bool × Members ι :=
  if pos < members.unremovableNodeCount.toNat then (false, members)
  else
    let shifted :=
      (List.range' pos (members.remoteNodeCount.toNat - 1 - pos)).foldl copyNext members
    (true, { shifted with remoteNodeCount := members.remoteNodeCount - 1 })

def autoregisterSender : Option Nat × Members ι :=
  if members.autoRegistration then
    if members.lastInSenderId = 0 then (none, members)
    else
      match members.findRemoteNode members.lastInSenderId with
      | none =>
        members.addNode host members.lastInSenderId members.lastInSenderIp members.lastInSenderPort
      | some pos =>
        (some pos,
          { members with
            remoteIp := assign members.remoteIp pos members.lastInSenderIp
            remotePort := assign members.remotePort pos members.lastInSenderPort })
  else (none, members)

/-! ## Frames -/

/-- `udp.get_sender`. -/
def getSender : Members ι :=
  { members with
    lastInSenderIp := members.remote.map Prod.fst
    lastInSenderPort := members.remote.map Prod.snd }

/-- What is done with the header of a frame that was received into `data`. -/
def noteFrame (data : Memory) : Members ι :=
  let rx := Tools.parseRx host.build data
  let tx := Tools.parseTx host.build data
  let members := { members with lastInReceiverId := rx.id, lastInSenderId := tx.id }
  if tx.id ≠ notAssigned ∧ members.lastOutSenderId ≠ notAssigned ∧
      rx.id = members.lastOutSenderId then
    (members.autoregisterSender host).2
  else members

def receiveFrame (data : Memory) (arrival : Option (Datagram (ι × UInt16))) (maxLength : Nat) :
    Option (List UInt8) × Members ι :=
  match arrival with
  | none => (none, members.getSender)
  | some datagram =>
    if host.helper.takes maxLength datagram.bytes.length then
      let members := { members with remote := some datagram.source }.getSender
      let members :=
        if 4 < datagram.bytes.length then
          members.noteFrame host (data.store 0 datagram.bytes)
        else members
      (some datagram.bytes, members)
    else
      let remote :=
        match host.helper with
        | .arduino => some datagram.source
        | .posix => members.remote
      (none, { members with remote := remote }.getSender)

/-- The part of `send_frame` that looks for the receiver of the frame. -/
def locateReceiver : Option Nat × Members ι :=
  let pos :=
    if members.lastOutReceiverId ≠ 0 then members.findRemoteNode members.lastOutReceiverId
    else none
  match pos with
  | none => (none, members)
  | some pos =>
    if host.maxRetries * host.maxFailures < (members.sendAttempts pos).toNat then
      let removed := members.removeNode pos
      (if removed.1 then none else some pos, removed.2)
    else (some pos, members)

def sendFrame (data : Memory) (length : Nat) :
    Members ι × Option (Datagram (ι × UInt16)) :=
  let members := { members with didBroadcast := false }
  if 4 < length then
    let members :=
      { members with
        lastOutReceiverId := (Tools.parseRx host.build data).id
        lastOutSenderId := (Tools.parseTx host.build data).id }
    let located := members.locateReceiver host
    match located.1 with
    | none =>
      ({ located.2 with didBroadcast := true },
        if located.2.autoDiscovery then
          some { source := self, destination := none, bytes := data.load 0 length }
        else none)
    | some pos =>
      let remote := Option.map₂ Prod.mk (located.2.remoteIp pos) (located.2.remotePort pos)
      ({ located.2 with
          sendAttempts := assign located.2.sendAttempts pos (located.2.sendAttempts pos + 1) },
        remote.map fun address =>
          { source := self, destination := some address, bytes := data.load 0 length })
  else (members, none)

end Members

namespace Members

variable (host : Host)

/-- `receive_response`, with the turns that it has time for. -/
def receiveResponse (members : Members ι) :
    List (Listening (ι × UInt16)) → Nat × Members ι
  | [] => (fail, members)
  | poll :: polls =>
    match members.receiveFrame host poll.result poll.arrival 10 with
    | (some [receiverId, senderId, code], members) =>
      let members := { members with lastInReceiverId := receiverId, lastInSenderId := senderId }
      if receiverId ≠ members.lastOutSenderId then receiveResponse members polls
      else if code.toNat = ack then
        match members.autoregisterSender host with
        | (none, members) => (ack, members)
        | (some pos, members) =>
          (ack, { members with sendAttempts := assign members.sendAttempts pos 0 })
      else receiveResponse members polls
    | (_, members) => receiveResponse members polls

/-! ## The list of nodes -/

/-- The entry of the four arrays at an index. -/
def nodeAt (members : Members ι) (i : Nat) : Node (ι × UInt16) where
  id := members.remoteId i
  address := Option.map₂ Prod.mk (members.remoteIp i) (members.remotePort i)
  sendAttempts := members.sendAttempts i

def nodes (members : Members ι) : List (Node (ι × UInt16)) :=
  (List.range members.remoteNodeCount.toNat).map members.nodeAt

/-- The members with the node table as a list. -/
def strategy (members : Members ι) : Strategy (ι × UInt16) where
  autoRegistration := members.autoRegistration
  autoDiscovery := members.autoDiscovery
  didBroadcast := members.didBroadcast
  unremovableNodeCount := members.unremovableNodeCount
  lastOutReceiverId := members.lastOutReceiverId
  lastOutSenderId := members.lastOutSenderId
  lastInSender := Option.map₂ Prod.mk members.lastInSenderIp members.lastInSenderPort
  lastInReceiverId := members.lastInReceiverId
  lastInSenderId := members.lastInSenderId
  nodes := members.nodes
  remote := members.remote

end Members

end Pjon.Model.DualUDP
