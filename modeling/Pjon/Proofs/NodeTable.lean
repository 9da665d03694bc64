import Pjon.Spec.NodeTable
import Pjon.Proofs.DualUDP
import Mathlib.Data.Fintype.Card
/-!
# The four arrays of the node table are a list of nodes

Each member of the strategy does to the arrays what it does to the list of the nodes, as long as
the number of the nodes fits in 8 bits.
-/

namespace Pjon.Proofs.NodeTable

open Pjon.Lib Pjon.Model Pjon.Model.DualUDP Pjon.Spec

variable {ι : Type} {host : Host} (members : Members ι)

/-! ## Reading the arrays -/

theorem findIdx?_map_range {β : Type} (f : Nat → β) (p : β → Bool) (n : Nat) :
    ((List.range n).map f).findIdx? p = (List.range n).find? fun i => p (f i) := by
  induction n with
  | zero => rfl
  | succ n ih =>
      rw [List.range_succ, List.map_append, List.findIdx?_append, List.find?_append, ih,
        List.length_map, List.length_range, List.map_singleton, List.findIdx?_singleton,
        List.find?_singleton]
      cases p (f n) <;> simp

theorem getElem?_map_range {β : Type} (f : Nat → β) (n i : Nat) :
    ((List.range n).map f)[i]? = if i < n then some (f i) else none := by
  rw [List.getElem?_map]
  by_cases hi : i < n
  · rw [List.getElem?_range hi, if_pos hi, Option.map_some]
  · rw [List.getElem?_eq_none (by rw [List.length_range]; omega), if_neg hi, Option.map_none]

@[simp] theorem length_nodes : members.nodes.length = members.remoteNodeCount.toNat := by
  rw [Members.nodes, List.length_map, List.length_range]

theorem getElem?_nodes (i : Nat) : members.nodes[i]? =
    if i < members.remoteNodeCount.toNat then some (members.nodeAt i) else none :=
  getElem?_map_range members.nodeAt _ i

theorem findRemoteNode_strategy (id : UInt8) :
    members.strategy.findRemoteNode id = members.findRemoteNode id :=
  findIdx?_map_range members.nodeAt (fun node => node.id == id) _

theorem lt_of_findRemoteNode {id : UInt8} {pos : Nat}
    (h : members.findRemoteNode id = some pos) : pos < members.remoteNodeCount.toNat :=
  List.mem_range.mp (List.mem_of_find?_eq_some h)

/-! ## Writing the arrays -/

@[simp] theorem assign_self {β : Type} (array : Nat → β) (i : Nat) (value : β) :
    assign array i value i = value := if_pos rfl

theorem assign_of_ne {β : Type} (array : Nat → β) {i j : Nat} (value : β) (h : j ≠ i) :
    assign array i value j = array j := if_neg h

theorem map₂_mk (address : Option (ι × UInt16)) :
    Option.map₂ Prod.mk (address.map Prod.fst) (address.map Prod.snd) = address := by
  cases address <;> rfl

/-- What is assigned to one entry of the table is a change of that node. -/
theorem nodes_of_assigned {next : Members ι} {pos : Nat}
    {change : Node (ι × UInt16) → Node (ι × UInt16)}
    (hcount : next.remoteNodeCount = members.remoteNodeCount)
    (hhere : next.nodeAt pos = change (members.nodeAt pos))
    (hothers : ∀ i, i ≠ pos → next.nodeAt i = members.nodeAt i) :
    next.nodes = members.nodes.modify pos change := by
  apply List.ext_getElem?
  intro i
  rw [getElem?_nodes, hcount, List.getElem?_modify, getElem?_nodes]
  by_cases hi : i < members.remoteNodeCount.toNat
  · rw [if_pos hi, if_pos hi, Option.map_eq_map, Option.map_some]
    by_cases hpos : pos = i
    · subst hpos
      rw [hhere, if_pos rfl]
    · rw [hothers i (Ne.symm hpos), if_neg hpos]
  · rw [if_neg hi, if_neg hi]
    rfl

/-! ## The operations on the table -/

section Fields

@[simp] theorem strategy_autoRegistration :
    members.strategy.autoRegistration = members.autoRegistration := rfl

@[simp] theorem strategy_unremovable :
    members.strategy.unremovableNodeCount = members.unremovableNodeCount := rfl

@[simp] theorem strategy_lastOutReceiverId :
    members.strategy.lastOutReceiverId = members.lastOutReceiverId := rfl

@[simp] theorem strategy_lastOutSenderId :
    members.strategy.lastOutSenderId = members.lastOutSenderId := rfl

@[simp] theorem strategy_lastInSender : members.strategy.lastInSender =
    Option.map₂ Prod.mk members.lastInSenderIp members.lastInSenderPort := rfl

@[simp] theorem strategy_lastInSenderId :
    members.strategy.lastInSenderId = members.lastInSenderId := rfl

@[simp] theorem strategy_nodes : members.strategy.nodes = members.nodes := rfl

end Fields

/-- A result with the node table as a list. -/
def withStrategy {β : Type} (result : β × Members ι) : β × Strategy (ι × UInt16) :=
  (result.1, result.2.strategy)


/-- There is room for another node, or the table is full. -/
def Counts (host : Host) (members : Members ι) : Prop :=
  members.remoteNodeCount.toNat = host.maxRemoteNodes ∨ members.remoteNodeCount.toNat < 255

theorem addNode_strategy (hcounts : Counts host members) (id : UInt8) (ip : Option ι)
    (port : Option UInt16) :
    withStrategy (members.addNode host id ip port) =
      members.strategy.addNode host id (Option.map₂ Prod.mk ip port) := by
  have hlength : members.strategy.nodes.length = members.remoteNodeCount.toNat :=
    length_nodes members
  rw [Members.addNode, Strategy.addNode, hlength]
  by_cases hfull : members.remoteNodeCount.toNat = host.maxRemoteNodes
  · rw [if_pos hfull, if_pos hfull]
    rfl
  · have hroom : members.remoteNodeCount.toNat < 255 := hcounts.resolve_left hfull
    have hnext : (members.remoteNodeCount + 1).toNat = members.remoteNodeCount.toNat + 1 := by
      rw [UInt8.toNat_add]
      exact Nat.mod_eq_of_lt (by simp only [UInt8.toNat_one]; omega)
    rw [if_neg hfull, if_neg hfull]
    simp only [withStrategy, Members.strategy, UInt8.ofNat_toNat, Prod.mk.injEq,
      Strategy.mk.injEq, true_and, and_true]
    apply List.ext_getElem?
    intro i
    rw [getElem?_nodes, hnext]
    rcases Nat.lt_trichotomy i members.remoteNodeCount.toNat with hi | rfl | hi
    · rw [if_pos (by omega), List.getElem?_append_left (by rwa [length_nodes]), getElem?_nodes,
        if_pos hi]
      simp only [Members.nodeAt, assign_of_ne _ _ (Nat.ne_of_lt hi)]
    · rw [if_pos (by omega), List.getElem?_append_right (by rw [length_nodes]), length_nodes,
        Nat.sub_self]
      simp only [Members.nodeAt, assign_self, List.getElem?_cons_zero]
    · rw [if_neg (by omega), List.getElem?_eq_none]
      rw [List.length_append, length_nodes, List.length_singleton]
      omega

/-- The loop of `remove_node` moves each node behind the position down by one. -/
theorem nodeAt_foldl_copyNext (pos count j : Nat) :
    ((List.range' pos count).foldl Members.copyNext members).nodeAt j =
      if pos ≤ j ∧ j < pos + count then members.nodeAt (j + 1) else members.nodeAt j := by
  induction count generalizing j with
  | zero => rw [List.range'_zero, List.foldl_nil, if_neg (by omega)]
  | succ count ih =>
      have hcopy : ∀ (m : Members ι) (i j : Nat),
          (m.copyNext i).nodeAt j = if j = i then m.nodeAt (i + 1) else m.nodeAt j := by
        intro m i j
        by_cases hj : j = i
        · simp only [Members.nodeAt, Members.copyNext, assign, hj, if_true]
        · simp only [Members.nodeAt, Members.copyNext, assign, if_neg hj]
      rw [List.range'_concat, List.foldl_append, List.foldl_cons, List.foldl_nil, hcopy]
      by_cases hlast : j = pos + 1 * count
      · rw [if_pos hlast, ih, if_neg (by omega), if_pos (by omega), hlast]
      · rw [if_neg hlast, ih]
        by_cases hbefore : pos ≤ j ∧ j < pos + count
        · rw [if_pos hbefore, if_pos (by omega)]
        · rw [if_neg hbefore, if_neg (by omega)]

/-- It touches nothing else. -/
theorem foldl_copyNext_eq (indices : List Nat) : ∃ ids ips ports attempts,
    indices.foldl Members.copyNext members =
      { members with
        remoteId := ids, remoteIp := ips, remotePort := ports, sendAttempts := attempts } := by
  induction indices generalizing members with
  | nil => exact ⟨_, _, _, _, rfl⟩
  | cons i indices ih =>
      obtain ⟨ids, ips, ports, attempts, heq⟩ := ih (members.copyNext i)
      exact ⟨ids, ips, ports, attempts, heq⟩

theorem nodes_removeNode {pos : Nat} (hpos : pos < members.remoteNodeCount.toNat) :
    ({ (List.range' pos (members.remoteNodeCount.toNat - 1 - pos)).foldl Members.copyNext
          members with
        remoteNodeCount := members.remoteNodeCount - 1 } : Members ι).nodes =
      members.nodes.eraseIdx pos := by
  have hone : (1 : UInt8) ≤ members.remoteNodeCount := by
    rw [UInt8.le_iff_toNat_le]
    exact Nat.lt_of_le_of_lt (Nat.zero_le pos) hpos
  have hcount : (members.remoteNodeCount - 1).toNat = members.remoteNodeCount.toNat - 1 := by
    rw [UInt8.toNat_sub_of_le _ _ hone]
    rfl
  apply List.ext_getElem?
  intro i
  rw [getElem?_nodes, List.getElem?_eraseIdx, getElem?_nodes, getElem?_nodes]
  have hnode := nodeAt_foldl_copyNext members pos (members.remoteNodeCount.toNat - 1 - pos) i
  simp only [Members.nodeAt] at hnode ⊢
  rw [hcount]
  by_cases hi : i < members.remoteNodeCount.toNat - 1
  · rw [if_pos hi]
    by_cases hbefore : i < pos
    · rw [if_pos hbefore, if_pos (by omega), Option.some.injEq]
      rw [if_neg (by omega)] at hnode
      rw [Node.mk.injEq]
      exact Node.mk.inj hnode
    · rw [if_neg hbefore, if_pos (by omega), Option.some.injEq]
      rw [if_pos (by omega)] at hnode
      rw [Node.mk.injEq]
      exact Node.mk.inj hnode
  · rw [if_neg hi]
    by_cases hbefore : i < pos
    · omega
    · rw [if_neg hbefore, if_neg (by omega)]

theorem removeNode_strategy {pos : Nat} (hpos : pos < members.remoteNodeCount.toNat) :
    withStrategy (members.removeNode pos) = members.strategy.removeNode pos := by
  rw [Members.removeNode, Strategy.removeNode, strategy_unremovable]
  by_cases hstatic : pos < members.unremovableNodeCount.toNat
  · rw [if_pos hstatic, if_pos hstatic]
    rfl
  · rw [if_neg hstatic, if_neg hstatic]
    have hnodes := nodes_removeNode members hpos
    obtain ⟨ids, ips, ports, attempts, heq⟩ := foldl_copyNext_eq members
      (List.range' pos (members.remoteNodeCount.toNat - 1 - pos))
    simp only [heq] at hnodes ⊢
    simp only [withStrategy, Members.strategy, hnodes]

/-! ## The members of the strategy -/

/-- A sender that is not known finds room, or the table is full. -/
def Roomy (host : Host) (members : Members ι) : Prop :=
  ∀ id, id ≠ 0 → members.findRemoteNode id = none → Counts host members

variable (host) in
theorem autoregisterSender_strategy (hroomy : Roomy host members) :
    withStrategy (members.autoregisterSender host) = members.strategy.autoregisterSender host := by
  rw [Members.autoregisterSender, Strategy.autoregisterSender, findRemoteNode_strategy,
    strategy_autoRegistration, strategy_lastInSenderId, strategy_lastInSender]
  by_cases hauto : members.autoRegistration = true
  · rw [if_pos hauto, if_pos hauto]
    by_cases hzero : members.lastInSenderId = 0
    · rw [if_pos hzero, if_pos hzero]
      rfl
    · rw [if_neg hzero, if_neg hzero]
      cases hfind : members.findRemoteNode members.lastInSenderId with
      | none => exact addNode_strategy members (hroomy _ hzero hfind) _ _ _
      | some pos =>
          have hnodes : ({ members with
              remoteIp := assign members.remoteIp pos members.lastInSenderIp
              remotePort := assign members.remotePort pos members.lastInSenderPort } :
                Members ι).nodes = members.nodes.modify pos fun node =>
              { node with
                address := Option.map₂ Prod.mk members.lastInSenderIp members.lastInSenderPort } :=
            nodes_of_assigned members rfl (by simp only [Members.nodeAt, assign_self])
              fun i hi => by simp only [Members.nodeAt, assign_of_ne _ _ hi]
          simp only [withStrategy, Members.strategy, hnodes]
  · rw [if_neg hauto, if_neg hauto]
    rfl

variable (host) in
theorem noteFrame_strategy (hroomy : Roomy host members) (data : Memory) :
    (members.noteFrame host data).strategy = members.strategy.noteFrame host data := by
  have hregister := congrArg Prod.snd (autoregisterSender_strategy host
    { members with
      lastInReceiverId := (Tools.parseRx host.build data).id
      lastInSenderId := (Tools.parseTx host.build data).id } hroomy)
  by_cases hdirect : (Tools.parseTx host.build data).id ≠ notAssigned ∧
      members.lastOutSenderId ≠ notAssigned ∧
        (Tools.parseRx host.build data).id = members.lastOutSenderId
  · have harrays : members.noteFrame host data = _ := if_pos hdirect
    have hlist : members.strategy.noteFrame host data = _ := if_pos hdirect
    rw [harrays, hlist]
    exact hregister
  · have harrays : members.noteFrame host data = _ := if_neg hdirect
    have hlist : members.strategy.noteFrame host data = _ := if_neg hdirect
    rw [harrays, hlist]
    rfl

theorem getSender_strategy :
    members.getSender.strategy = { members.strategy with lastInSender := members.remote } := by
  simp only [Members.getSender, Members.strategy, map₂_mk]
  rfl

variable (host) in
theorem receiveFrame_strategy (hroomy : Roomy host members) (data : Memory)
    (arrival : Option (Datagram (ι × UInt16))) (maxLength : Nat) :
    withStrategy (members.receiveFrame host data arrival maxLength) =
      members.strategy.receiveFrame host data arrival maxLength := by
  unfold Members.receiveFrame Strategy.receiveFrame
  cases arrival with
  | none => exact congrArg (Prod.mk none) (getSender_strategy members)
  | some datagram =>
      have hsender := getSender_strategy { members with remote := some datagram.source }
      simp only
      split_ifs
      · have hnoted := noteFrame_strategy host
          ({ members with remote := some datagram.source } : Members ι).getSender hroomy
          (data.store 0 datagram.bytes)
        rw [hsender] at hnoted
        exact congrArg (Prod.mk _) hnoted
      · exact congrArg (Prod.mk _) hsender
      · cases host.helper with
        | arduino => exact congrArg (Prod.mk none) hsender
        | posix => exact congrArg (Prod.mk none) (getSender_strategy members)

variable (host) in
theorem locateReceiver_strategy :
    withStrategy (members.locateReceiver host) = members.strategy.locateReceiver host := by
  have hattempts : ∀ {pos}, members.findRemoteNode members.lastOutReceiverId = some pos →
      (members.nodes[pos]?.map Node.sendAttempts).getD 0 = members.sendAttempts pos := by
    intro pos hfind
    rw [getElem?_nodes, if_pos (lt_of_findRemoteNode members hfind), Option.map_some,
      Option.getD_some]
    rfl
  simp only [Members.locateReceiver, Strategy.locateReceiver, findRemoteNode_strategy,
    strategy_lastOutReceiverId, strategy_nodes]
  by_cases hbroadcast : members.lastOutReceiverId ≠ 0
  · rw [if_pos hbroadcast]
    cases hfind : members.findRemoteNode members.lastOutReceiverId with
    | none => rfl
    | some pos =>
        have hremoved := removeNode_strategy members (lt_of_findRemoteNode members hfind)
        simp only [hattempts hfind]
        by_cases hmany : host.maxRetries * host.maxFailures < (members.sendAttempts pos).toNat
        · rw [if_pos hmany, if_pos hmany, ← hremoved]
          rfl
        · rw [if_neg hmany, if_neg hmany]
          rfl
  · rw [if_neg hbroadcast]
    rfl

variable (host) in
theorem lt_of_locateReceiver (pos : Nat) (h : (members.locateReceiver host).1 = some pos) :
    pos < (members.locateReceiver host).2.remoteNodeCount.toNat := by
  unfold Members.locateReceiver at h ⊢
  simp only at h ⊢
  by_cases hbroadcast : members.lastOutReceiverId ≠ 0
  · rw [if_pos hbroadcast] at h ⊢
    cases hfind : members.findRemoteNode members.lastOutReceiverId with
    | none =>
        rw [hfind] at h
        exact absurd h.symm (Option.some_ne_none pos)
    | some found =>
        have hlt := lt_of_findRemoteNode members hfind
        simp only [hfind] at h ⊢
        split_ifs at h ⊢ with hmany hremoved
        · obtain rfl := Option.some.inj h
          -- a node of the static part stays
          unfold Members.removeNode at hremoved ⊢
          split_ifs at hremoved ⊢
          · exact hlt
          · exact absurd rfl hremoved
        · obtain rfl := Option.some.inj h
          exact hlt
  · rw [if_neg hbroadcast] at h
    exact absurd h.symm (Option.some_ne_none pos)

theorem sendFrame_strategy (self : ι × UInt16) (data : Memory) (length : Nat) :
    (members.sendFrame host self data length).1.strategy =
        (members.strategy.sendFrame host self data length).1 ∧
      (members.sendFrame host self data length).2 =
        (members.strategy.sendFrame host self data length).2 := by
  unfold Members.sendFrame Strategy.sendFrame
  simp only
  by_cases hlong : 4 < length
  · rw [if_pos hlong, if_pos hlong]
    have hlocated := locateReceiver_strategy host { members with
      didBroadcast := false
      lastOutReceiverId := (Tools.parseRx host.build data).id
      lastOutSenderId := (Tools.parseTx host.build data).id }
    have hlt := lt_of_locateReceiver host { members with
      didBroadcast := false
      lastOutReceiverId := (Tools.parseRx host.build data).id
      lastOutSenderId := (Tools.parseTx host.build data).id }
    have hlist : Strategy.locateReceiver host { members.strategy with
        didBroadcast := false
        lastOutReceiverId := (Tools.parseRx host.build data).id
        lastOutSenderId := (Tools.parseTx host.build data).id } = _ := hlocated.symm
    rw [hlist]
    generalize Members.locateReceiver host { members with
      didBroadcast := false
      lastOutReceiverId := (Tools.parseRx host.build data).id
      lastOutSenderId := (Tools.parseTx host.build data).id } = located at hlt
    obtain ⟨found, next⟩ := located
    cases found with
    | none => exact ⟨rfl, rfl⟩
    | some pos =>
        have hnodes : ({ next with
            sendAttempts := assign next.sendAttempts pos (next.sendAttempts pos + 1) } :
              Members ι).nodes = next.nodes.modify pos fun node =>
                { node with sendAttempts := node.sendAttempts + 1 } :=
          nodes_of_assigned next rfl (by simp only [Members.nodeAt, assign_self])
            fun i hi => by simp only [Members.nodeAt, assign_of_ne _ _ hi]
        have haddress : next.nodes[pos]?.bind Node.address =
            Option.map₂ Prod.mk (next.remoteIp pos) (next.remotePort pos) := by
          rw [getElem?_nodes, if_pos (hlt pos rfl)]
          rfl
        simp only [withStrategy, Members.strategy, hnodes, haddress, and_self]
  · rw [if_neg hlong, if_neg hlong]
    exact ⟨rfl, rfl⟩

/-! ## Tables that are counted in 8 bits -/

section Counted

variable {α : Type} {strategy : Strategy α}

/-- The id and the address of a node. -/
def entryOf (node : Node α) : UInt8 × Option α := (node.id, node.address)

def entries (nodes : List (Node α)) : Registry.Table UInt8 (Option α) := nodes.map entryOf

theorem find_entries (nodes : List (Node α)) (id : UInt8) :
    Registry.find (entries nodes) id = nodes.findIdx? fun node => node.id == id := by
  rw [Registry.find, entries, List.findIdx?_map]
  rfl

theorem entries_modify (nodes : List (Node α)) (pos : Nat) (change : Node α → Node α)
    (f : UInt8 × Option α → UInt8 × Option α)
    (h : ∀ node, entryOf (change node) = f (entryOf node)) :
    entries (nodes.modify pos change) = (entries nodes).modify pos f := by
  apply List.ext_getElem?
  intro i
  rw [entries, entries, List.getElem?_map, List.getElem?_modify, List.getElem?_modify,
    List.getElem?_map]
  cases nodes[i]? with
  | none => rfl
  | some node =>
      by_cases hi : pos = i
      · simp only [Option.map_eq_map, Option.map_some, if_pos hi, h]
      · simp only [Option.map_eq_map, Option.map_some, if_neg hi]

/-- Failures are counted beside the entries. -/
theorem entries_modify_attempts (nodes : List (Node α)) (pos : Nat) (f : UInt8 → UInt8) :
    entries (nodes.modify pos fun node => { node with sendAttempts := f node.sendAttempts }) =
      entries nodes := by
  rw [entries_modify nodes pos (fun node => { node with sendAttempts := f node.sendAttempts }) id
    fun _ => rfl, List.modify_id]

/-- What is registered, if there is an id to register. -/
def known (id : UInt8) (address : Option α) : List (UInt8 × Option α) :=
  if id ≠ 0 then [(id, address)] else []

/-- The entries behind registrations. -/
def registerAll (host : Host) (table : Registry.Table UInt8 (Option α))
    (heard : List (UInt8 × Option α)) : Registry.Table UInt8 (Option α) :=
  heard.foldl (Registry.register host.maxRemoteNodes) table

theorem registerAll_append (host : Host) (table : Registry.Table UInt8 (Option α))
    (heard heard' : List (UInt8 × Option α)) :
    registerAll host table (heard ++ heard') =
      registerAll host (registerAll host table heard) heard' := List.foldl_append

theorem entries_autoregisterSender (host : Host) (strategy : Strategy α) :
    entries (strategy.autoregisterSender host).2.nodes =
      registerAll host (entries strategy.nodes)
        (if strategy.autoRegistration then known strategy.lastInSenderId strategy.lastInSender
          else []) := by
  rw [Strategy.autoregisterSender]
  by_cases hauto : strategy.autoRegistration = true
  · rw [if_pos hauto, if_pos hauto]
    by_cases hzero : strategy.lastInSenderId = 0
    · rw [if_pos hzero, known, if_neg (not_not.mpr hzero)]
      rfl
    · rw [if_neg hzero, known, if_pos hzero]
      have hfind : strategy.findRemoteNode strategy.lastInSenderId =
          Registry.find (entries strategy.nodes) strategy.lastInSenderId :=
        (find_entries strategy.nodes strategy.lastInSenderId).symm
      rw [registerAll, List.foldl_cons, List.foldl_nil, Registry.register, ← hfind]
      cases strategy.findRemoteNode strategy.lastInSenderId with
      | none =>
          simp only [Strategy.addNode, entries, List.length_map]
          by_cases hfull : strategy.nodes.length = host.maxRemoteNodes
          · rw [if_pos hfull, if_pos hfull]
          · rw [if_neg hfull, if_neg hfull]
            exact List.map_append
      | some pos => exact entries_modify strategy.nodes pos _ _ fun _ => rfl
  · rw [if_neg hauto, if_neg hauto]
    rfl

theorem autoregisterSender_kept (host : Host) (strategy : Strategy α) :
    (strategy.autoregisterSender host).2.autoRegistration = strategy.autoRegistration ∧
      (strategy.autoregisterSender host).2.lastOutSenderId = strategy.lastOutSenderId := by
  obtain ⟨nodes, unremovable, heq⟩ := DualUDP.autoregisterSender_eq host strategy
  rw [heq]
  exact ⟨rfl, rfl⟩

theorem receiveFrame_autoRegistration (host : Host) (strategy : Strategy α) (data : Memory)
    (arrival : Option (Datagram α)) (maxLength : Nat) :
    (strategy.receiveFrame host data arrival maxLength).2.autoRegistration =
      strategy.autoRegistration := by
  unfold Strategy.receiveFrame
  cases arrival with
  | none => rfl
  | some datagram =>
      simp only
      split_ifs
      · obtain ⟨nodes, unremovable, heq⟩ := DualUDP.noteFrame_eq host { strategy with
          remote := some datagram.source, lastInSender := some datagram.source }
          (data.store 0 datagram.bytes)
        simp only [heq]
      · rfl
      · rfl

/-- Receiving a frame registers its sender. -/
theorem entries_receiveFrame (host : Host) (strategy : Strategy α) (data : Memory)
    (arrival : Option (Datagram α)) (maxLength : Nat) :
    entries (strategy.receiveFrame host data arrival maxLength).2.nodes =
      registerAll host (entries strategy.nodes)
        (if strategy.autoRegistration then
          heardFrom host strategy.lastOutSenderId data arrival maxLength
        else []) := by
  cases arrival with
  | none =>
      rw [heardFrom, ite_self]
      rfl
  | some datagram =>
      have hnothing : ∀ h : ¬(host.helper.takes maxLength datagram.bytes.length = true ∧
          4 < datagram.bytes.length ∧
          (Tools.parseTx host.build (data.store 0 datagram.bytes)).id ≠ notAssigned ∧
          (Tools.parseTx host.build (data.store 0 datagram.bytes)).id ≠ 0 ∧
          strategy.lastOutSenderId ≠ notAssigned ∧
          (Tools.parseRx host.build (data.store 0 datagram.bytes)).id = strategy.lastOutSenderId),
          heardFrom host strategy.lastOutSenderId data (some datagram) maxLength = [] :=
        fun h => if_neg h
      simp only [Strategy.receiveFrame]
      by_cases htakes : host.helper.takes maxLength datagram.bytes.length = true
      · rw [if_pos htakes]
        by_cases hlong : 4 < datagram.bytes.length
        · rw [if_pos hlong]
          simp only [Strategy.noteFrame]
          by_cases hdirect : (Tools.parseTx host.build (data.store 0 datagram.bytes)).id ≠
              notAssigned ∧ strategy.lastOutSenderId ≠ notAssigned ∧
                (Tools.parseRx host.build (data.store 0 datagram.bytes)).id =
                  strategy.lastOutSenderId
          · rw [if_pos hdirect, entries_autoregisterSender]
            simp only [heardFrom, htakes, hlong, hdirect.1, hdirect.2.1, hdirect.2.2, ne_eq,
              not_false_eq_true, true_and, and_true, known]
          · rw [if_neg hdirect, hnothing fun heard => hdirect ⟨heard.2.2.1, heard.2.2.2.2⟩,
              ite_self]
            rfl
        · rw [if_neg hlong, hnothing fun heard => hlong heard.2.1, ite_self]
          rfl
      · rw [if_neg htakes, hnothing fun heard => htakes heard.1, ite_self]
        rfl

/-- The count of the nodes, and what keeps it below 256: the size of the table, or ids that
differ. -/
structure Counted (host : Host) (table : Registry.Table UInt8 (Option α)) : Prop where
  bounded : table.length ≤ host.maxRemoteNodes
  counts : host.maxRemoteNodes < 256 ∨ (Registry.keys table).Nodup ∧ 0 ∉ Registry.keys table

theorem counted_registerAll {table : Registry.Table UInt8 (Option α)} (h : Counted host table)
    {heard : List (UInt8 × Option α)} (hheard : ∀ e ∈ heard, e.1 ≠ 0) :
    Counted host (registerAll host table heard) := by
  induction heard generalizing table with
  | nil => exact h
  | cons e heard ih =>
      obtain ⟨he, hrest⟩ := List.forall_mem_cons.mp hheard
      refine ih ?_ hrest
      refine ⟨Registry.length_register_le h.bounded e, h.counts.imp_right fun hkeys => ?_⟩
      refine ⟨Registry.nodup_register hkeys.1 e, ?_⟩
      rcases Registry.keys_register host.maxRemoteNodes table e with hsame | ⟨-, -, hnew⟩
      · rw [hsame]
        exact hkeys.2
      · rw [hnew, List.mem_append, List.mem_singleton]
        exact fun hzero => hzero.elim hkeys.2 fun heq => he heq.symm

theorem length_le_of_nodup {ids : List UInt8} (h : ids.Nodup) : ids.length ≤ 256 := by
  have hfin : (ids.map UInt8.toFin).Nodup :=
    h.map fun a b hab => UInt8.toFin_inj.mp hab
  have hcard := List.Nodup.length_le_card hfin
  rwa [List.length_map, Fintype.card_fin] at hcard

/-- A new id would still be counted in 8 bits. -/
theorem Counted.room {table : Registry.Table UInt8 (Option α)} (h : Counted host table) {id : UInt8}
    (hid : id ≠ 0) (hnew : id ∉ Registry.keys table) :
    table.length = host.maxRemoteNodes ∨ table.length < 255 := by
  have hbounded := h.bounded
  rcases h.counts with hsize | ⟨hnodup, hzero⟩
  · omega
  · have hids : (0 :: id :: Registry.keys table).Nodup := by
      refine List.nodup_cons.mpr ⟨?_, List.nodup_cons.mpr ⟨hnew, hnodup⟩⟩
      rw [List.mem_cons, not_or]
      exact ⟨Ne.symm hid, hzero⟩
    have hlength := length_le_of_nodup hids
    rw [List.length_cons, List.length_cons, Registry.keys, List.length_map] at hlength
    omega

end Counted

theorem roomy_of_counted (h : Counted host (entries members.nodes)) : Roomy host members := by
  intro id hid hfind
  have hnew : id ∉ Registry.keys (entries members.nodes) := by
    rw [← Registry.find_eq_none_iff, find_entries]
    exact (findRemoteNode_strategy members id).trans hfind
  have hroom := h.room hid hnew
  rwa [entries, List.length_map, length_nodes] at hroom

theorem heardFrom_ne_zero {α : Type} {host : Host} {lastOutSenderId : UInt8} {data : Memory}
    {arrival : Option (Datagram α)} {maxLength : Nat} :
    ∀ e ∈ heardFrom host lastOutSenderId data arrival maxLength, e.1 ≠ 0 := by
  intro e he
  cases arrival with
  | none => exact absurd he List.not_mem_nil
  | some datagram =>
      simp only [heardFrom] at he
      split_ifs at he with hheard
      · rw [List.mem_singleton.mp he]
        exact hheard.2.2.2.1
      · exact absurd he List.not_mem_nil

/-! ## Responses -/

section Responses

variable {α : Type} (host : Host)

theorem taken_some (helper : UDPHelper) (datagram : Datagram α) (maxLength : Nat) :
    DatagramCall.taken helper (some datagram) maxLength =
      if helper.takes maxLength datagram.bytes.length then some datagram.bytes else none := rfl

theorem receiveFrame_fst (strategy : Strategy α) (data : Memory)
    (arrival : Option (Datagram α)) (maxLength : Nat) :
    (strategy.receiveFrame host data arrival maxLength).1 =
      DatagramCall.taken host.helper arrival maxLength := by
  cases arrival with
  | none => rfl
  | some datagram =>
      rw [taken_some]
      simp only [Strategy.receiveFrame]
      by_cases htakes : host.helper.takes maxLength datagram.bytes.length = true
      · rw [if_pos htakes, if_pos htakes]
      · rw [if_neg htakes, if_neg htakes]

/-- What `receive_response` remembers of three bytes. -/
def noteResponse (received : Option (List UInt8) × Strategy α) : Strategy α :=
  match received with
  | (some [receiverId, senderId, _], strategy) =>
    { strategy with lastInReceiverId := receiverId, lastInSenderId := senderId }
  | (_, strategy) => strategy

/-- What it does with an acknowledgement. -/
def accept (strategy : Strategy α) : Nat × Strategy α :=
  match strategy.autoregisterSender host with
  | (none, strategy) => (ack, strategy)
  | (some pos, strategy) =>
    (ack,
      { strategy with
        nodes := strategy.nodes.modify pos fun node => { node with sendAttempts := 0 } })

theorem receiveResponse_cons (strategy : Strategy α) (poll : Listening α)
    (polls : List (Listening α)) :
    strategy.receiveResponse host (poll :: polls) =
      let received := strategy.receiveFrame host poll.result poll.arrival 10
      if DatagramCall.confirms strategy.lastOutSenderId received.1 then
        accept host (noteResponse received)
      else (noteResponse received).receiveResponse host polls := by
  have hlast := DualUDP.receiveFrame_lastOut host strategy poll.result poll.arrival 10
  rw [Strategy.receiveResponse]
  generalize strategy.receiveFrame host poll.result poll.arrival 10 = received at hlast
  obtain ⟨bytes, next⟩ := received
  simp only at hlast
  rcases bytes with _ | _ | ⟨receiverId, _ | ⟨senderId, _ | ⟨code, _ | ⟨more, rest⟩⟩⟩⟩ <;>
    try rfl
  simp only [DatagramCall.confirms, noteResponse, hlast, Bool.and_eq_true, beq_iff_eq]
  by_cases hother : receiverId = strategy.lastOutSenderId
  · by_cases hcode : code.toNat = ack
    · rw [if_neg (not_not.mpr hother), if_pos hcode, if_pos ⟨hother, hcode⟩]
      rfl
    · rw [if_neg (not_not.mpr hother), if_neg hcode, if_neg fun h => hcode h.2]
  · rw [if_pos hother, if_neg fun h => hother h.1]

theorem noteResponse_kept (received : Option (List UInt8) × Strategy α) :
    (noteResponse received).autoRegistration = received.2.autoRegistration ∧
      (noteResponse received).lastOutSenderId = received.2.lastOutSenderId ∧
        (noteResponse received).nodes = received.2.nodes := by
  unfold noteResponse
  split <;> exact ⟨rfl, rfl, rfl⟩

theorem entries_accept (strategy : Strategy α) :
    entries (accept host strategy).2.nodes =
      entries (strategy.autoregisterSender host).2.nodes := by
  unfold accept
  generalize strategy.autoregisterSender host = registered
  obtain ⟨_ | pos, next⟩ := registered
  · rfl
  · exact entries_modify_attempts next.nodes pos fun _ => 0

/-- An acknowledgement registers its sender. -/
theorem entries_accept_noteResponse {strategy : Strategy α} {data : Memory}
    {arrival : Option (Datagram α)}
    (h : DatagramCall.confirms strategy.lastOutSenderId
      (strategy.receiveFrame host data arrival 10).1 = true) :
    entries (accept host (noteResponse (strategy.receiveFrame host data arrival 10))).2.nodes =
      registerAll host (entries (strategy.receiveFrame host data arrival 10).2.nodes)
        (if strategy.autoRegistration then acknowledgedBy arrival else []) := by
  have hauto := receiveFrame_autoRegistration host strategy data arrival 10
  obtain ⟨hkeeps, -, hnodes⟩ := noteResponse_kept
    (strategy.receiveFrame host data arrival 10)
  rw [entries_accept, entries_autoregisterSender, hkeeps, hauto, hnodes]
  rw [receiveFrame_fst] at h
  have hknown : known (noteResponse (strategy.receiveFrame host data arrival 10)).lastInSenderId
      (noteResponse (strategy.receiveFrame host data arrival 10)).lastInSender =
        acknowledgedBy arrival := by
    cases arrival with
    | none => exact absurd h Bool.false_ne_true
    | some datagram =>
        obtain ⟨source, destination, bytes⟩ := datagram
        rw [taken_some] at h
        by_cases htakes : host.helper.takes 10 bytes.length = true
        · rw [if_pos htakes] at h
          rcases bytes with _ | ⟨receiverId, _ | ⟨senderId, _ | ⟨code, _ | ⟨more, rest⟩⟩⟩⟩
          · exact absurd h Bool.false_ne_true
          · exact absurd h Bool.false_ne_true
          · exact absurd h Bool.false_ne_true
          · have hshort : ¬4 < [receiverId, senderId, code].length := Nat.not_lt.mpr (by simp)
            simp only [Strategy.receiveFrame, if_pos htakes, if_neg hshort]
            rfl
          · exact absurd h Bool.false_ne_true
        · rw [if_neg htakes] at h
          exact absurd h Bool.false_ne_true
  rw [hknown]

theorem acknowledgedBy_ne_zero {arrival : Option (Datagram α)} :
    ∀ e ∈ acknowledgedBy arrival, e.1 ≠ 0 := by
  intro e he
  cases arrival with
  | none => exact absurd he List.not_mem_nil
  | some datagram =>
      simp only [acknowledgedBy] at he
      split_ifs at he with hid
      · rw [List.mem_singleton.mp he]
        exact hid
      · exact absurd he List.not_mem_nil

theorem heardInResponse_ne_zero {lastOutSenderId : UInt8} {polls : List (Listening α)} :
    ∀ e ∈ heardInResponse host lastOutSenderId polls, e.1 ≠ 0 := by
  induction polls with
  | nil => exact fun e he => absurd he List.not_mem_nil
  | cons poll polls ih =>
      intro e he
      rw [heardInResponse, List.mem_append] at he
      rcases he with hframe | hrest
      · exact heardFrom_ne_zero e hframe
      · split_ifs at hrest
        · exact acknowledgedBy_ne_zero e hrest
        · exact ih e hrest

/-- Waiting for a response registers the senders of the frames and of the acknowledgement. -/
theorem entries_receiveResponse (strategy : Strategy α) (polls : List (Listening α)) :
    entries (strategy.receiveResponse host polls).2.nodes =
      registerAll host (entries strategy.nodes)
        (if strategy.autoRegistration then
          heardInResponse host strategy.lastOutSenderId polls
        else []) := by
  induction polls generalizing strategy with
  | nil =>
      rw [heardInResponse, ite_self]
      rfl
  | cons poll polls ih =>
      have hsplit : (if strategy.autoRegistration then
          heardInResponse host strategy.lastOutSenderId (poll :: polls) else []) =
          (if strategy.autoRegistration then
            heardFrom host strategy.lastOutSenderId poll.result poll.arrival 10 else []) ++
          (if strategy.autoRegistration then
            (if DatagramCall.confirms strategy.lastOutSenderId
                (DatagramCall.taken host.helper poll.arrival 10) then acknowledgedBy poll.arrival
              else heardInResponse host strategy.lastOutSenderId polls) else []) := by
        rw [heardInResponse]
        split_ifs <;> rfl
      rw [hsplit, registerAll_append, ← entries_receiveFrame, receiveResponse_cons]
      simp only
      by_cases hack : DatagramCall.confirms strategy.lastOutSenderId
          (strategy.receiveFrame host poll.result poll.arrival 10).1 = true
      · rw [if_pos hack, entries_accept_noteResponse host hack]
        rw [receiveFrame_fst] at hack
        rw [if_pos hack]
      · obtain ⟨hkeeps, hlast, hnodes⟩ := noteResponse_kept
          (strategy.receiveFrame host poll.result poll.arrival 10)
        rw [if_neg hack, ih, hkeeps, hlast, hnodes, receiveFrame_autoRegistration,
          DualUDP.receiveFrame_lastOut]
        rw [receiveFrame_fst] at hack
        rw [if_neg hack]

/-- What `receive_response` remembers of three bytes. -/
def noteArrays (received : Option (List UInt8) × Members ι) : Members ι :=
  match received with
  | (some [receiverId, senderId, _], members) =>
    { members with lastInReceiverId := receiverId, lastInSenderId := senderId }
  | (_, members) => members

/-- What it does with an acknowledgement. -/
def acceptArrays (members : Members ι) : Nat × Members ι :=
  match members.autoregisterSender host with
  | (none, members) => (ack, members)
  | (some pos, members) =>
    (ack, { members with sendAttempts := assign members.sendAttempts pos 0 })

theorem receiveFrame_arrays_lastOut (members : Members ι) (hroomy : Roomy host members)
    (data : Memory) (arrival : Option (Datagram (ι × UInt16))) (maxLength : Nat) :
    (members.receiveFrame host data arrival maxLength).2.lastOutSenderId =
      members.lastOutSenderId := by
  have hreceived := congrArg Prod.snd
    (receiveFrame_strategy host members hroomy data arrival maxLength)
  have hlast := DualUDP.receiveFrame_lastOut host members.strategy data arrival maxLength
  rw [← hreceived] at hlast
  exact hlast

theorem receiveResponse_arrays_cons (members : Members ι) (hroomy : Roomy host members)
    (poll : Listening (ι × UInt16)) (polls : List (Listening (ι × UInt16))) :
    members.receiveResponse host (poll :: polls) =
      let received := members.receiveFrame host poll.result poll.arrival 10
      if DatagramCall.confirms members.lastOutSenderId received.1 then
        acceptArrays host (noteArrays received)
      else (noteArrays received).receiveResponse host polls := by
  have hlast := receiveFrame_arrays_lastOut host members hroomy poll.result poll.arrival 10
  rw [Members.receiveResponse]
  generalize members.receiveFrame host poll.result poll.arrival 10 = received at hlast
  obtain ⟨bytes, next⟩ := received
  simp only at hlast
  rcases bytes with _ | _ | ⟨receiverId, _ | ⟨senderId, _ | ⟨code, _ | ⟨more, rest⟩⟩⟩⟩ <;>
    try rfl
  simp only [DatagramCall.confirms, noteArrays, hlast, Bool.and_eq_true, beq_iff_eq]
  by_cases hother : receiverId = members.lastOutSenderId
  · by_cases hcode : code.toNat = ack
    · rw [if_neg (not_not.mpr hother), if_pos hcode, if_pos ⟨hother, hcode⟩]
      rfl
    · rw [if_neg (not_not.mpr hother), if_neg hcode, if_neg fun h => hcode h.2]
  · rw [if_pos hother, if_neg fun h => hother h.1]

theorem noteArrays_strategy (received : Option (List UInt8) × Members ι) :
    (noteArrays received).strategy = noteResponse (withStrategy received) := by
  obtain ⟨bytes, next⟩ := received
  rcases bytes with _ | _ | ⟨receiverId, _ | ⟨senderId, _ | ⟨code, _ | ⟨more, rest⟩⟩⟩⟩ <;> rfl

theorem acceptArrays_strategy (members : Members ι) (hroomy : Roomy host members) :
    withStrategy (acceptArrays host members) = accept host members.strategy := by
  have hregister := autoregisterSender_strategy host members hroomy
  rw [acceptArrays, accept, ← hregister]
  generalize members.autoregisterSender host = registered
  obtain ⟨_ | pos, next⟩ := registered
  · rfl
  · have hnodes : ({ next with sendAttempts := assign next.sendAttempts pos 0 } :
        Members ι).nodes = next.nodes.modify pos fun node => { node with sendAttempts := 0 } :=
      nodes_of_assigned next rfl (by simp only [Members.nodeAt, assign_self])
        fun i hi => by simp only [Members.nodeAt, assign_of_ne _ _ hi]
    simp only [withStrategy, Members.strategy, hnodes]

theorem receiveResponse_strategy (polls : List (Listening (ι × UInt16))) {members : Members ι}
    (h : Counted host (entries members.nodes)) :
    withStrategy (members.receiveResponse host polls) =
      members.strategy.receiveResponse host polls := by
  induction polls generalizing members with
  | nil => rfl
  | cons poll polls ih =>
      have hroomy := roomy_of_counted members h
      have hreceived := receiveFrame_strategy host members hroomy poll.result
        poll.arrival 10
      have hentries := entries_receiveFrame host members.strategy poll.result poll.arrival 10
      rw [receiveResponse_arrays_cons host members hroomy, receiveResponse_cons, ← hreceived]
      rw [← hreceived] at hentries
      generalize members.receiveFrame host poll.result poll.arrival 10 = received at hentries
      have hnoted := noteArrays_strategy received
      have hnext : Counted host (entries (noteArrays received).nodes) := by
        have hnodes : (noteArrays received).nodes = received.2.nodes :=
          (congrArg Strategy.nodes hnoted).trans (noteResponse_kept (withStrategy received)).2.2
        have hsnd : entries received.2.nodes = _ := hentries
        rw [hnodes, hsnd]
        apply counted_registerAll h
        split_ifs
        · exact heardFrom_ne_zero
        · exact fun e he => absurd he List.not_mem_nil
      simp only
      by_cases hack : DatagramCall.confirms members.lastOutSenderId received.1 = true
      · rw [if_pos hack]
        show _ = if DatagramCall.confirms members.lastOutSenderId received.1 = true then _ else _
        rw [if_pos hack, acceptArrays_strategy host _ (roomy_of_counted _ hnext), hnoted]
      · rw [if_neg hack]
        show _ = if DatagramCall.confirms members.lastOutSenderId received.1 = true then _ else _
        rw [if_neg hack, ih hnext, hnoted]

end Responses

/-! ## Sending -/

section Sending

variable (self : ι × UInt16) {data : Memory} {length : Nat}

/-- The members with what `send_frame` notes of a frame. -/
def noted (host : Host) (members : Members ι) (data : Memory) : Members ι :=
  { members with
    didBroadcast := false
    lastOutReceiverId := (Tools.parseRx host.build data).id
    lastOutSenderId := (Tools.parseTx host.build data).id }

theorem sendFrame_of_located_none (hlong : 4 < length)
    (hnone : ((noted host members data).locateReceiver host).1 = none) :
    (members.sendFrame host self data length).1 =
      { ((noted host members data).locateReceiver host).2 with didBroadcast := true } := by
  unfold noted at hnone ⊢
  simp only [Members.sendFrame, if_pos hlong, hnone]

theorem sendFrame_of_located_some {pos : Nat} (hlong : 4 < length)
    (hsome : ((noted host members data).locateReceiver host).1 = some pos) :
    (members.sendFrame host self data length).1 =
      { ((noted host members data).locateReceiver host).2 with
        sendAttempts := assign ((noted host members data).locateReceiver host).2.sendAttempts pos
          (((noted host members data).locateReceiver host).2.sendAttempts pos + 1) } := by
  unfold noted at hsome ⊢
  simp only [Members.sendFrame, if_pos hlong, hsome]

/-- A node that does not answer is removed, unless it is in the static part. -/
theorem sendFrame_of_inVain {pos : Nat} (h : SendsInVain host members data length pos)
    (hautomatic : members.unremovableNodeCount.toNat ≤ pos) :
    (members.sendFrame host self data length).1.nodes = members.nodes.eraseIdx pos ∧
      (members.sendFrame host self data length).1.remoteNodeCount =
        members.remoteNodeCount - 1 ∧
      (members.sendFrame host self data length).1.autoRegistration = members.autoRegistration ∧
      (members.sendFrame host self data length).1.unremovableNodeCount =
        members.unremovableNodeCount := by
  have hlt := lt_of_findRemoteNode members h.found
  have hnodes := nodes_removeNode (noted host members data) hlt
  have hlocated : (noted host members data).locateReceiver host =
      (none, ((noted host members data).removeNode pos).2) := by
    have hremoved : ((noted host members data).removeNode pos).1 = true := by
      rw [Members.removeNode]
      rw [if_neg]
      exact Nat.not_lt.mpr hautomatic
    have hfound : (noted host members data).findRemoteNode
        (noted host members data).lastOutReceiverId = some pos := h.found
    have hdirected : (noted host members data).lastOutReceiverId ≠ 0 := h.directed
    have hmany : host.maxRetries * host.maxFailures <
        ((noted host members data).sendAttempts pos).toNat := h.unreachable
    simp only [Members.locateReceiver, if_pos hdirected, hfound, if_pos hmany, hremoved, if_true]
  have hsent := sendFrame_of_located_none members self h.long (by rw [hlocated])
  rw [hsent, hlocated]
  have hremove : ((noted host members data).removeNode pos).2 = _ :=
    congrArg Prod.snd (if_neg (Nat.not_lt.mpr hautomatic))
  rw [hremove]
  obtain ⟨ids, ips, ports, attempts, heq⟩ := foldl_copyNext_eq (noted host members data)
    (List.range' pos ((noted host members data).remoteNodeCount.toNat - 1 - pos))
  refine ⟨hnodes, ?_⟩
  simp only [heq]
  exact ⟨rfl, rfl, rfl⟩

/-- Otherwise every node stays. -/
theorem sendFrame_of_not_inVain
    (h : ∀ pos, SendsInVain host members data length pos →
      pos < members.unremovableNodeCount.toNat) :
    (members.sendFrame host self data length).1.remoteNodeCount = members.remoteNodeCount ∧
      (members.sendFrame host self data length).1.autoRegistration = members.autoRegistration ∧
      (members.sendFrame host self data length).1.unremovableNodeCount =
        members.unremovableNodeCount ∧
      entries (members.sendFrame host self data length).1.nodes = entries members.nodes := by
  by_cases hlong : 4 < length
  · have hlocated :
        ((noted host members data).locateReceiver host).2 = noted host members data := by
      unfold Members.locateReceiver
      simp only
      by_cases hdirected : (noted host members data).lastOutReceiverId ≠ 0
      · rw [if_pos hdirected]
        cases hfound : (noted host members data).findRemoteNode
            (noted host members data).lastOutReceiverId with
        | none => rfl
        | some pos =>
            by_cases hmany : host.maxRetries * host.maxFailures <
                ((noted host members data).sendAttempts pos).toNat
            · have hstatic := h pos ⟨hlong, hdirected, hfound, hmany⟩
              simp only [if_pos hmany]
              exact congrArg Prod.snd (if_pos hstatic)
            · simp only [if_neg hmany]
      · rw [if_neg hdirected]
    cases hfind : ((noted host members data).locateReceiver host).1 with
    | none =>
        rw [sendFrame_of_located_none members self hlong hfind, hlocated]
        exact ⟨rfl, rfl, rfl, rfl⟩
    | some pos =>
        rw [sendFrame_of_located_some members self hlong hfind, hlocated]
        refine ⟨rfl, rfl, rfl, ?_⟩
        have hnodes : ({ noted host members data with
            sendAttempts := assign (noted host members data).sendAttempts pos
              ((noted host members data).sendAttempts pos + 1) } : Members ι).nodes =
            members.nodes.modify pos fun node =>
              { node with sendAttempts := node.sendAttempts + 1 } :=
          nodes_of_assigned members rfl (by simp only [noted, Members.nodeAt, assign_self])
            fun i hi => by simp only [noted, Members.nodeAt, assign_of_ne _ _ hi]
        rw [hnodes]
        exact entries_modify_attempts members.nodes pos fun attempts => attempts + 1
  · have hsame : (members.sendFrame host self data length).1 =
        { members with didBroadcast := false } := congrArg Prod.fst (if_neg hlong)
    rw [hsame]
    exact ⟨rfl, rfl, rfl, rfl⟩

end Sending

end Pjon.Proofs.NodeTable
