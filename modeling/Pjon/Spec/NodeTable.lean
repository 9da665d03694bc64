import Pjon.Model.NodeTable
import Pjon.Spec.Datagrams
import Pjon.Lib.Registry
import Pjon.Lib.Run
/-!
# The node table as a map

What the node table of DualUDP is for: it maps the id of each node to the address that it was heard
from last.
-/

namespace Pjon.Spec

open Pjon.Lib Pjon.Model Pjon.Model.DualUDP

variable {α ι : Type}

/-! ## What registers a node -/

/-- The node that a received frame registers: its sender, if it is addressed to the id that this
device has sent from last. -/
def heardFrom (host : Host) (lastOutSenderId : UInt8) (data : Memory)
    (arrival : Option (Datagram α)) (maxLength : Nat) : List (UInt8 × Option α) :=
  match arrival with
  | none => []
  | some datagram =>
    let packet := data.store 0 datagram.bytes
    let senderId := (Tools.parseTx host.build packet).id
    if host.helper.takes maxLength datagram.bytes.length = true ∧ 4 < datagram.bytes.length ∧
        senderId ≠ notAssigned ∧ senderId ≠ 0 ∧ lastOutSenderId ≠ notAssigned ∧
        (Tools.parseRx host.build packet).id = lastOutSenderId then
      [(senderId, some datagram.source)]
    else []

/-- The node that an accepted acknowledgement registers: the device that has sent it. -/
def acknowledgedBy (arrival : Option (Datagram α)) : List (UInt8 × Option α) :=
  match arrival with
  | none => []
  | some datagram =>
    let senderId := datagram.bytes.getD 1 0
    if senderId ≠ 0 then [(senderId, some datagram.source)] else []

/-- The nodes that a call of `receive_response` registers. -/
def heardInResponse (host : Host) (lastOutSenderId : UInt8) :
    List (Listening α) → List (UInt8 × Option α)
  | [] => []
  | poll :: polls =>
    heardFrom host lastOutSenderId poll.result poll.arrival 10 ++
      if DatagramCall.confirms lastOutSenderId
          (DatagramCall.taken host.helper poll.arrival 10) then
        acknowledgedBy poll.arrival
      else heardInResponse host lastOutSenderId polls

/-! ## Runs -/

/-- A call of one of the members that use the table. -/
inductive TableCall (α : Type) where
  | sendFrame (data : Memory) (length : Nat)
  | receiveFrame (data : Memory) (arrival : Option (Datagram α)) (maxLength : Nat)
  | receiveResponse (polls : List (Listening α))

namespace TableCall

/-- The nodes that a call registers. -/
def heard (host : Host) (autoRegistration : Bool) (lastOutSenderId : UInt8) :
    TableCall α → List (UInt8 × Option α)
  | .sendFrame _ _ => []
  | .receiveFrame data arrival maxLength =>
    if autoRegistration then heardFrom host lastOutSenderId data arrival maxLength else []
  | .receiveResponse polls =>
    if autoRegistration then heardInResponse host lastOutSenderId polls else []

variable (host : Host) (self : ι × UInt16)

/-- One call. -/
def perform (members : Members ι) : TableCall (ι × UInt16) → Members ι
  | .sendFrame data length => (members.sendFrame host self data length).1
  | .receiveFrame data arrival maxLength => (members.receiveFrame host data arrival maxLength).2
  | .receiveResponse polls => (members.receiveResponse host polls).2

/-- What has been registered in a run, in its order. -/
def registered (members : Members ι) (calls : List (TableCall (ι × UInt16))) :
    List (UInt8 × Option (ι × UInt16)) :=
  (Run.steps (perform host self) members calls).flatMap fun step =>
    step.2.heard host step.1.autoRegistration step.1.lastOutSenderId

end TableCall

/-- The node at a position does not answer. -/
def Unreachable (host : Host) (members : Members ι) (pos : Nat) : Prop :=
  host.maxRetries * host.maxFailures < (members.sendAttempts pos).toNat

/-- `send_frame` is called for a node at a position that does not answer. -/
structure SendsInVain (host : Host) (members : Members ι) (data : Memory) (length pos : Nat) :
    Prop where
  long : 4 < length
  directed : (Tools.parseRx host.build data).id ≠ 0
  found : members.findRemoteNode (Tools.parseRx host.build data).id = some pos
  unreachable : Unreachable host members pos

/-- The node at a position is removed, and the others are what they were. -/
structure Removes (members next : Members ι) (pos : Nat) : Prop where
  inside : pos < members.remoteNodeCount.toNat
  count : next.remoteNodeCount.toNat + 1 = members.remoteNodeCount.toNat
  others : ∀ i, i < next.remoteNodeCount.toNat →
    next.nodeAt i = members.nodeAt (if i < pos then i else i + 1)

/-- There is an entry for the id. -/
def InTable (members : Members ι) (id : UInt8) : Prop :=
  ∃ i, i < members.remoteNodeCount.toNat ∧ members.remoteId i = id

/-- The node table behind a run, where `history` has been registered, and what the next call makes
of it: what it registers is in the table, unless that is full, and stays there until a frame is
sent in vain. -/
structure FaithfulMap (host : Host) (self : ι × UInt16) (members : Members ι)
    (history : List (UInt8 × Option (ι × UInt16))) : Prop where
  bounded : members.remoteNodeCount.toNat ≤ host.maxRemoteNodes
  distinct : ∀ i j, i < members.remoteNodeCount.toNat → j < members.remoteNodeCount.toNat →
    members.remoteId i = members.remoteId j → i = j
  addressed : ∀ i, i < members.remoteNodeCount.toNat →
    Registry.last history (members.remoteId i) = some (members.nodeAt i).address
  removal : ∀ data length, let next := (members.sendFrame host self data length).1
    next.remoteNodeCount ≠ members.remoteNodeCount →
      ∃ pos, Unreachable host members pos ∧ Removes members next pos
  registers : ∀ call : TableCall (ι × UInt16), let next := call.perform host self members
    ∀ e ∈ call.heard host members.autoRegistration members.lastOutSenderId,
      InTable next e.1 ∨ next.remoteNodeCount.toNat = host.maxRemoteNodes
  stays : ∀ (call : TableCall (ι × UInt16)) (id : UInt8), InTable members id →
    InTable (call.perform host self members) id ∨
      ∃ data length pos, call = .sendFrame data length ∧
        SendsInVain host members data length pos ∧ members.remoteId pos = id

/-! ## Nodes that are added by hand -/

/-- The calls of `add_node` in front of a run. -/
def addNodes (host : Host) (members : Members ι) (added : List (UInt8 × ι × UInt16)) : Members ι :=
  added.foldl (fun members node =>
    (members.addNode host node.1 (some node.2.1) (some node.2.2)).2) members

/-- Every node of `start` is still in the table, as often as it was added. -/
def KeepsNodes (start members : Members ι) : Prop :=
  ∀ id : UInt8, (start.nodes.map Node.id).count id ≤ (members.nodes.map Node.id).count id

/-- No frame is sent to a node of `start` that does not answer. -/
def SparesNodes (host : Host) (start members : Members ι) (call : TableCall (ι × UInt16)) : Prop :=
  ∀ data length pos, call = .sendFrame data length → SendsInVain host members data length pos →
    start.remoteNodeCount.toNat ≤ pos

end Pjon.Spec
