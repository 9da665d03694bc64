import Pjon.Proofs.NodeMap
import Mathlib.Data.List.InsertIdx
import Mathlib.Data.List.Perm.Basic
/-!
# Nodes that are added by hand

The number of the nodes that may not be removed is taken when the first node is added, and then
there are none.  So a node stays as long as no frame is sent to it after it has failed to answer
too often.
-/

namespace Pjon.Proofs.StaticNodes

open Pjon.Lib Pjon.Model Pjon.Model.DualUDP Pjon.Spec Pjon.Proofs.NodeTable Pjon.Proofs.NodeMap

variable {ι : Type} {host : Host} (self : ι × UInt16)

/-! ## The static part -/

section Unremovable

variable {α : Type} (host : Host) {strategy : Strategy α}

theorem unremovable_autoregisterSender (h : strategy.unremovableNodeCount ≠ notAssigned) :
    (strategy.autoregisterSender host).2.unremovableNodeCount = strategy.unremovableNodeCount := by
  rw [Strategy.autoregisterSender]
  split_ifs
  · rfl
  · cases strategy.findRemoteNode strategy.lastInSenderId with
    | none =>
        simp only [Strategy.addNode]
        by_cases hfull : strategy.nodes.length = host.maxRemoteNodes
        · rw [if_pos hfull]
        · rw [if_neg hfull]
          exact if_neg h
    | some pos => rfl
  · rfl

theorem unremovable_receiveFrame (h : strategy.unremovableNodeCount ≠ notAssigned) (data : Memory)
    (arrival : Option (Datagram α)) (maxLength : Nat) :
    (strategy.receiveFrame host data arrival maxLength).2.unremovableNodeCount =
      strategy.unremovableNodeCount := by
  cases arrival with
  | none => rfl
  | some datagram =>
      simp only [Strategy.receiveFrame, Strategy.noteFrame]
      split_ifs
      · exact unremovable_autoregisterSender host h
      · rfl
      · rfl
      · rfl

theorem unremovable_noteResponse (received : Option (List UInt8) × Strategy α) :
    (noteResponse received).unremovableNodeCount = received.2.unremovableNodeCount := by
  unfold noteResponse
  split <;> rfl

theorem unremovable_accept (h : strategy.unremovableNodeCount ≠ notAssigned) :
    (accept host strategy).2.unremovableNodeCount = strategy.unremovableNodeCount := by
  have hregister := unremovable_autoregisterSender host h
  unfold accept
  generalize strategy.autoregisterSender host = registered at hregister
  obtain ⟨_ | pos, next⟩ := registered
  · exact hregister
  · exact hregister

theorem unremovable_receiveResponse (h : strategy.unremovableNodeCount ≠ notAssigned)
    (polls : List (Listening α)) :
    (strategy.receiveResponse host polls).2.unremovableNodeCount =
      strategy.unremovableNodeCount := by
  induction polls generalizing strategy with
  | nil => rfl
  | cons poll polls ih =>
      have hframe := unremovable_receiveFrame host h poll.result poll.arrival 10
      have hnoted := unremovable_noteResponse
        (strategy.receiveFrame host poll.result poll.arrival 10)
      have hassigned : (noteResponse (strategy.receiveFrame host poll.result poll.arrival
          10)).unremovableNodeCount ≠ notAssigned := by rwa [hnoted, hframe]
      rw [receiveResponse_cons]
      simp only
      split_ifs
      · rw [unremovable_accept host hassigned, hnoted, hframe]
      · rw [ih hassigned, hnoted, hframe]

end Unremovable

theorem strategy_assigned {members : Members ι} (h : members.unremovableNodeCount ≠ notAssigned) :
    members.strategy.unremovableNodeCount ≠ notAssigned := h

/-- A call keeps the number of the nodes that may not be removed. -/
theorem unremovable_perform {members : Members ι} (h : Counted host (entries members.nodes))
    (hassigned : members.unremovableNodeCount ≠ notAssigned) (call : TableCall (ι × UInt16)) :
    (call.perform host self members).unremovableNodeCount = members.unremovableNodeCount := by
  cases call with
  | sendFrame data length =>
      by_cases hkeeps : ∀ pos, SendsInVain host members data length pos →
          pos < members.unremovableNodeCount.toNat
      · exact (sendFrame_of_not_inVain members self hkeeps).2.2.1
      · simp only [not_forall, not_lt] at hkeeps
        obtain ⟨pos, hvain, hautomatic⟩ := hkeeps
        exact (sendFrame_of_inVain members self hvain hautomatic).2.2.2
  | receiveFrame data arrival maxLength =>
      have hsame := congrArg Prod.snd (receiveFrame_strategy host members
        (roomy_of_counted members h) data arrival maxLength)
      have hkept :=
        unremovable_receiveFrame host (strategy_assigned hassigned) data arrival maxLength
      rw [← hsame] at hkept
      exact hkept
  | receiveResponse polls =>
      have hsame := congrArg Prod.snd (receiveResponse_strategy host polls h)
      have hkept := unremovable_receiveResponse host (strategy_assigned hassigned) polls
      rw [← hsame] at hkept
      exact hkept

/-- The first node is added when there is none. -/
theorem unremovable_addNodes {members : Members ι} (added : List (UInt8 × ι × UInt16))
    (h : members.remoteNodeCount = 0 ∧ members.unremovableNodeCount = notAssigned ∨
      members.unremovableNodeCount = 0) :
    (addNodes host members added).remoteNodeCount = 0 ∨
      (addNodes host members added).unremovableNodeCount = 0 := by
  induction added generalizing members with
  | nil => exact h.imp_left And.left
  | cons node added ih =>
      apply ih
      simp only [Members.addNode]
      split_ifs with hfull hfirst
      · exact h
      · exact Or.inr (h.elim And.left fun hzero => absurd (hfirst.symm.trans hzero) (by decide))
      · exact Or.inr (h.resolve_left fun hempty => hfirst hempty.2)

theorem counted_addNodes {members : Members ι} (hsize : host.maxRemoteNodes < 256)
    (added : List (UInt8 × ι × UInt16)) (h : Counted host (entries members.nodes)) :
    Counted host (entries (addNodes host members added).nodes) := by
  induction added generalizing members with
  | nil => exact h
  | cons node added ih =>
      apply ih
      have hbounded := h.bounded
      rw [entries, List.length_map, length_nodes] at hbounded
      have hcounts : Counts host members := by
        unfold Counts
        omega
      have hadded := congrArg Prod.snd
        (addNode_strategy members hcounts node.1 (some node.2.1) (some node.2.2))
      have hnodes := congrArg Strategy.nodes hadded
      refine ⟨?_, Or.inl hsize⟩
      show (entries ((withStrategy (members.addNode host node.1 (some node.2.1)
        (some node.2.2))).2.nodes)).length ≤ host.maxRemoteNodes
      rw [hnodes, entries, List.length_map, Strategy.addNode, strategy_nodes, length_nodes]
      by_cases hfull : members.remoteNodeCount.toNat = host.maxRemoteNodes
      · rw [if_pos hfull, strategy_nodes, length_nodes]
        exact hbounded
      · rw [if_neg hfull, List.length_append, length_nodes, List.length_singleton]
        omega

/-! ## The nodes of a run -/

/-- Behind the nodes that were added by hand are others, with other ids. -/
structure Extends (host : Host) (start members : Members ι) : Prop where
  counted : Counted host (entries members.nodes)
  removable : start.remoteNodeCount = 0 ∨ members.unremovableNodeCount = 0
  behind : ∃ others, Registry.keys (entries members.nodes) =
    Registry.keys (entries start.nodes) ++ others ∧
      ∀ id ∈ others, id ∉ Registry.keys (entries start.nodes)

theorem keys_entries (nodes : List (Node (ι × UInt16))) :
    Registry.keys (entries nodes) = nodes.map Node.id := by
  rw [Registry.keys, entries, List.map_map]
  rfl

/-- What is registered is new. -/
theorem keys_registerAll (host : Host) (table : Registry.Table UInt8 (Option (ι × UInt16)))
    (heard : List (UInt8 × Option (ι × UInt16))) :
    ∃ others, Registry.keys (registerAll host table heard) = Registry.keys table ++ others ∧
      ∀ id ∈ others, id ∉ Registry.keys table := by
  induction heard generalizing table with
  | nil =>
      exact ⟨[], (List.append_nil _).symm, fun id hid => absurd hid List.not_mem_nil⟩
  | cons e heard ih =>
      obtain ⟨others, hkeys, hnew⟩ := ih (Registry.register host.maxRemoteNodes table e)
      rcases Registry.keys_register host.maxRemoteNodes table e with hsame | ⟨hmem, -, hone⟩
      · rw [hsame] at hkeys hnew
        exact ⟨others, hkeys, hnew⟩
      · rw [hone] at hkeys hnew
        refine ⟨e.1 :: others, ?_, ?_⟩
        · rw [List.append_assoc] at hkeys
          exact hkeys
        · intro id hid
          rcases List.mem_cons.mp hid with rfl | hid
          · exact hmem
          · exact fun hold => hnew id hid (List.mem_append_left _ hold)

variable {start members : Members ι}

theorem keepsNodes_of_extends (h : Extends host start members) : KeepsNodes start members := by
  obtain ⟨others, hkeys, -⟩ := h.behind
  intro id
  rw [← keys_entries members.nodes, hkeys, ← keys_entries start.nodes, List.count_append]
  exact Nat.le_add_right _ _

/-- Removing a node that was added by hand loses its id. -/
theorem not_keepsNodes_of_erased {next : Members ι} (h : Extends host start members) {pos : Nat}
    (hpos : pos < start.remoteNodeCount.toNat) (hnodes : next.nodes = members.nodes.eraseIdx pos) :
    ¬KeepsNodes start next := by
  obtain ⟨others, hkeys, hnew⟩ := h.behind
  rw [keys_entries, keys_entries] at hkeys
  have hlength : pos < (start.nodes.map Node.id).length := by
    rwa [List.length_map, length_nodes]
  intro hkeeps
  have hcount := hkeeps ((start.nodes.map Node.id)[pos])
  have herased : next.nodes.map Node.id =
      (start.nodes.map Node.id).eraseIdx pos ++ others := by
    rw [hnodes, ← List.eraseIdx_map, hkeys, List.eraseIdx_append_of_lt_length hlength]
  have hnone : others.count ((start.nodes.map Node.id)[pos]) = 0 := by
    rw [List.count_eq_zero]
    intro hmem
    apply hnew _ hmem
    rw [keys_entries]
    exact List.getElem_mem hlength
  have honce := (List.getElem_cons_eraseIdx_perm hlength).count_eq
    ((start.nodes.map Node.id)[pos])
  rw [List.count_cons_self] at honce
  rw [herased, List.count_append, hnone, Nat.add_zero] at hcount
  omega

/-- Sending removes no node that was added by hand, if it spares them. -/
theorem extends_sendFrame (h : Extends host start members) {data : Memory} {length : Nat}
    (hspares : SparesNodes host start members (.sendFrame data length)) :
    Extends host start (members.sendFrame host self data length).1 := by
  by_cases hkeeps : ∀ pos, SendsInVain host members data length pos →
      pos < members.unremovableNodeCount.toNat
  · obtain ⟨-, -, hunremovable, hentries⟩ := sendFrame_of_not_inVain members self hkeeps
    exact
      { counted := by rw [hentries]; exact h.counted
        removable := by rw [hunremovable]; exact h.removable
        behind := by rw [hentries]; exact h.behind }
  · simp only [not_forall, not_lt] at hkeeps
    obtain ⟨pos, hvain, hautomatic⟩ := hkeeps
    obtain ⟨hnodes, -, -, hunremovable⟩ := sendFrame_of_inVain members self hvain hautomatic
    have hbehind := hspares data length pos rfl hvain
    obtain ⟨others, hkeys, hnew⟩ := h.behind
    have hlength : (Registry.keys (entries start.nodes)).length ≤ pos := by
      rwa [keys_entries, List.length_map, length_nodes]
    refine ⟨?_, ?_, others.eraseIdx (pos - (Registry.keys (entries start.nodes)).length), ?_, ?_⟩
    · have hsub : (entries (members.nodes.eraseIdx pos)).Sublist (entries members.nodes) :=
        (List.eraseIdx_sublist _ _).map entryOf
      rw [hnodes]
      refine ⟨Nat.le_trans hsub.length_le h.counted.bounded, h.counted.counts.imp_right ?_⟩
      rintro ⟨hnodup, hzero⟩
      exact ⟨hnodup.sublist (hsub.map Prod.fst),
        fun hmem => hzero ((hsub.map Prod.fst).subset hmem)⟩
    · rw [hunremovable]
      exact h.removable
    · rw [hnodes, keys_entries, ← List.eraseIdx_map, ← keys_entries members.nodes, hkeys,
        List.eraseIdx_append_of_length_le hlength]
    · exact fun id hid => hnew id (List.mem_of_mem_eraseIdx hid)

theorem extends_perform (h : Extends host start members) {call : TableCall (ι × UInt16)}
    (hspares : SparesNodes host start members call) :
    Extends host start (call.perform host self members) := by
  by_cases hcall : ∀ data length, call ≠ .sendFrame data length
  · obtain ⟨hentries, -⟩ := perform_receives self h.counted hcall
    obtain ⟨others, hkeys, hnew⟩ := h.behind
    obtain ⟨more, hmore, hfresh⟩ := keys_registerAll host (entries members.nodes)
      (call.heard host members.autoRegistration members.lastOutSenderId)
    refine ⟨?_, ?_, others ++ more, ?_, ?_⟩
    · rw [hentries]
      exact counted_registerAll h.counted (heard_ne_zero call _ _)
    · apply h.removable.imp_right
      intro hzero
      have hassigned : members.unremovableNodeCount ≠ notAssigned := by
        rw [hzero]
        decide
      rw [unremovable_perform self h.counted hassigned, hzero]
    · rw [hentries, hmore, hkeys, List.append_assoc]
    · intro id hid
      rcases List.mem_append.mp hid with hold | hlater
      · exact hnew id hold
      · refine fun hmem => hfresh id hlater ?_
        rw [hkeys]
        exact List.mem_append_left _ hmem
  · simp only [not_forall, not_not] at hcall
    obtain ⟨data, length, rfl⟩ := hcall
    exact extends_sendFrame self h hspares

/-- A step keeps the nodes exactly when it spares them. -/
theorem keepsNodes_perform_iff (h : Extends host start members) (call : TableCall (ι × UInt16)) :
    KeepsNodes start (call.perform host self members) ↔ SparesNodes host start members call := by
  constructor
  · intro hkeeps data length pos hcall hvain
    by_contra hstatic
    have hpos := Nat.lt_of_not_le hstatic
    subst hcall
    have hsome : start.remoteNodeCount ≠ 0 := by
      intro hzero
      rw [hzero] at hpos
      exact Nat.not_lt_zero pos hpos
    have hzero : members.unremovableNodeCount = 0 := h.removable.resolve_left hsome
    have hautomatic : members.unremovableNodeCount.toNat ≤ pos := by
      rw [hzero]
      exact Nat.zero_le pos
    exact not_keepsNodes_of_erased h hpos (sendFrame_of_inVain members self hvain hautomatic).1
      hkeeps
  · exact fun hspares => keepsNodes_of_extends (extends_perform self h hspares)

/-- The nodes that were added by hand stay in the table exactly as long as no frame is sent to one
of them that does not answer. -/
theorem addedNodes_kept_iff (host : Host) (self : ι × UInt16) (members : Members ι)
    (added : List (UInt8 × ι × UInt16)) (calls : List (TableCall (ι × UInt16)))
    (hsize : host.maxRemoteNodes < 256) (hempty : members.remoteNodeCount = 0)
    (hfresh : members.unremovableNodeCount = notAssigned) :
    (∀ step ∈ Run.steps (TableCall.perform host self) (addNodes host members added) calls,
        KeepsNodes (addNodes host members added) (step.2.perform host self step.1)) ↔
      ∀ step ∈ Run.steps (TableCall.perform host self) (addNodes host members added) calls,
        SparesNodes host (addNodes host members added) step.1 step.2 := by
  have hnone : Counted host (entries members.nodes) := by
    refine ⟨?_, Or.inl hsize⟩
    rw [entries, List.length_map, length_nodes, hempty]
    exact Nat.zero_le _
  have hstart : Extends host (addNodes host members added) (addNodes host members added) :=
    { counted := counted_addNodes hsize added hnone
      removable := unremovable_addNodes added (Or.inl ⟨hempty, hfresh⟩)
      behind := ⟨[], (List.append_nil _).symm, fun id hid => absurd hid List.not_mem_nil⟩ }
  have hnext : ∀ next call, Extends host (addNodes host members added) next →
      SparesNodes host (addNodes host members added) next call →
      Extends host (addNodes host members added) (call.perform host self next) :=
    fun _ _ hextends hspares => extends_perform self hextends hspares
  have hiff : ∀ next call, Extends host (addNodes host members added) next →
      (KeepsNodes (addNodes host members added) (call.perform host self next) ↔
        SparesNodes host (addNodes host members added) next call) :=
    fun _ call hextends => keepsNodes_perform_iff self hextends call
  exact Run.forall_good_iff hiff hnext hstart calls

/-! ## A device that is switched off -/

/-- A frame from 44 to 45. -/
def frameTo45 : TableCall (Nat × UInt16) := .sendFrame (byte [45, 2, 8, 0, 44, 65, 0, 0]) 8

/-- The only node is gone when 52 frames have been sent to it. -/
theorem addedNode_removed :
    ¬∀ calls : List (TableCall (Nat × UInt16)),
      ∀ step ∈ Run.steps (TableCall.perform plainHost (0, 7000))
          (addNodes plainHost ({} : Members Nat) [(45, 1, 7100)]) calls,
        KeepsNodes (addNodes plainHost {} [(45, 1, 7100)])
          (step.2.perform plainHost (0, 7000) step.1) := by
  intro hkeeps
  have hlast := hkeeps (List.replicate 51 frameTo45 ++ [frameTo45])
    (Run.final (TableCall.perform plainHost (0, 7000))
      (addNodes plainHost ({} : Members Nat) [(45, 1, 7100)]) (List.replicate 51 frameTo45),
      frameTo45) (by rw [Run.steps_append]; exact List.mem_append_right _ List.mem_cons_self) 45
  revert hlast
  decide +kernel

/-- One frame is sent to the node. -/
theorem addedNodes_kept_iff_once :
    (∀ step ∈ Run.steps (TableCall.perform plainHost (0, 7000))
        (addNodes plainHost ({} : Members Nat) [(45, 1, 7100)]) [frameTo45],
      KeepsNodes (addNodes plainHost {} [(45, 1, 7100)])
        (step.2.perform plainHost (0, 7000) step.1)) ↔
      ∀ step ∈ Run.steps (TableCall.perform plainHost (0, 7000))
          (addNodes plainHost ({} : Members Nat) [(45, 1, 7100)]) [frameTo45],
        SparesNodes plainHost (addNodes plainHost {} [(45, 1, 7100)]) step.1 step.2 :=
  addedNodes_kept_iff plainHost (0, 7000) {} [(45, 1, 7100)] [frameTo45] (by decide) rfl rfl

end Pjon.Proofs.StaticNodes
