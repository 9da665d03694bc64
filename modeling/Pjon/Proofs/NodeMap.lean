import Pjon.Proofs.NodeTable
/-!
# The node table is a map

Over every run the ids differ, each entry is that of the datagram that registered it last, and
removing a node leaves the others alone.
-/

namespace Pjon.Proofs.NodeMap

open Pjon.Lib Pjon.Model Pjon.Model.DualUDP Pjon.Spec Pjon.Proofs.NodeTable

variable {ι : Type} {host : Host} (self : ι × UInt16) {members : Members ι}

/-! ## What a call does to the entries -/

/-- Waiting for a response keeps the settings. -/
theorem receiveResponse_kept {α : Type} (host : Host) (strategy : Strategy α)
    (polls : List (Listening α)) :
    (strategy.receiveResponse host polls).2.autoRegistration = strategy.autoRegistration := by
  induction polls generalizing strategy with
  | nil => rfl
  | cons poll polls ih =>
      have hauto := receiveFrame_autoRegistration host strategy poll.result poll.arrival 10
      have hnoted := (noteResponse_kept
        (strategy.receiveFrame host poll.result poll.arrival 10)).1
      rw [receiveResponse_cons]
      simp only
      split_ifs
      · have haccept : (accept host (noteResponse
            (strategy.receiveFrame host poll.result poll.arrival 10))).2.autoRegistration =
            ((noteResponse (strategy.receiveFrame host poll.result poll.arrival
              10)).autoregisterSender host).2.autoRegistration := by
          unfold accept
          split
          · rename_i heq
            rw [heq]
          · rename_i heq
            rw [heq]
        rw [haccept, (autoregisterSender_kept host _).1, hnoted, hauto]
      · rw [ih, hnoted, hauto]

/-- A call that receives registers what is heard. -/
theorem perform_receives (h : Counted host (entries members.nodes))
    {call : TableCall (ι × UInt16)} (hcall : ∀ data length, call ≠ .sendFrame data length) :
    entries (call.perform host self members).nodes = registerAll host (entries members.nodes)
        (call.heard host members.autoRegistration members.lastOutSenderId) ∧
      (call.perform host self members).autoRegistration = members.autoRegistration := by
  have hroomy := roomy_of_counted members h
  cases call with
  | sendFrame data length => exact absurd rfl (hcall data length)
  | receiveFrame data arrival maxLength =>
      have hsame := congrArg Prod.snd
        (receiveFrame_strategy host members hroomy data arrival maxLength)
      have hentries := entries_receiveFrame host members.strategy data arrival maxLength
      have hauto := receiveFrame_autoRegistration host members.strategy data arrival maxLength
      rw [← hsame] at hentries hauto
      exact ⟨hentries, hauto⟩
  | receiveResponse polls =>
      have hsame := congrArg Prod.snd (receiveResponse_strategy host polls h)
      have hentries := entries_receiveResponse host members.strategy polls
      have hauto := receiveResponse_kept host members.strategy polls
      rw [← hsame] at hentries hauto
      exact ⟨hentries, hauto⟩

theorem heard_ne_zero (call : TableCall (ι × UInt16)) (autoRegistration : Bool)
    (lastOutSenderId : UInt8) :
    ∀ e ∈ call.heard host autoRegistration lastOutSenderId, e.1 ≠ 0 := by
  intro e he
  cases call with
  | sendFrame data length => exact absurd he List.not_mem_nil
  | receiveFrame data arrival maxLength =>
      rw [TableCall.heard] at he
      split_ifs at he
      · exact heardFrom_ne_zero e he
      · exact absurd he List.not_mem_nil
  | receiveResponse polls =>
      rw [TableCall.heard] at he
      split_ifs at he
      · exact heardInResponse_ne_zero host e he
      · exact absurd he List.not_mem_nil

/-! ## The invariant -/

/-- The entries behind a run in which `history` has been registered. -/
structure Mapped (host : Host) (history : List (UInt8 × Option (ι × UInt16)))
    (table : Registry.Table UInt8 (Option (ι × UInt16))) : Prop where
  bounded : table.length ≤ host.maxRemoteNodes
  distinct : (Registry.keys table).Nodup
  nonzero : 0 ∉ Registry.keys table
  current : Registry.Current history table

variable {history : List (UInt8 × Option (ι × UInt16))}
  {table : Registry.Table UInt8 (Option (ι × UInt16))}

theorem Mapped.counted (h : Mapped host history table) : Counted host table :=
  ⟨h.bounded, Or.inr ⟨h.distinct, h.nonzero⟩⟩

theorem Mapped.registerAll {heard : List (UInt8 × Option (ι × UInt16))}
    (h : Mapped host history table) (hheard : ∀ e ∈ heard, e.1 ≠ 0) :
    Mapped host (history ++ heard) (registerAll host table heard) := by
  induction heard generalizing history table with
  | nil => rwa [List.append_nil]
  | cons e heard ih =>
      obtain ⟨he, hrest⟩ := List.forall_mem_cons.mp hheard
      rw [← List.singleton_append, ← List.append_assoc]
      refine ih ?_ hrest
      refine
        { bounded := Registry.length_register_le h.bounded e
          distinct := Registry.nodup_register h.distinct e
          nonzero := ?_
          current := h.current.register h.distinct e }
      rcases Registry.keys_register host.maxRemoteNodes table e with hsame | ⟨-, -, hnew⟩
      · rw [hsame]
        exact h.nonzero
      · rw [hnew, List.mem_append, List.mem_singleton]
        exact fun hzero => hzero.elim h.nonzero fun heq => he heq.symm

theorem Mapped.sublist {table' : Registry.Table UInt8 (Option (ι × UInt16))}
    (h : Mapped host history table) (hsub : table'.Sublist table) : Mapped host history table' where
  bounded := Nat.le_trans hsub.length_le h.bounded
  distinct := h.distinct.sublist (hsub.map Prod.fst)
  nonzero := fun hzero => h.nonzero ((hsub.map Prod.fst).subset hzero)
  current := h.current.mono fun _ he => hsub.subset he

/-- Sending removes a node that does not answer, or none. -/
theorem entries_sendFrame_sublist (host : Host) (self : ι × UInt16) (members : Members ι)
    (data : Memory) (length : Nat) :
    (entries (members.sendFrame host self data length).1.nodes).Sublist (entries members.nodes) ∧
      (members.sendFrame host self data length).1.autoRegistration = members.autoRegistration := by
  by_cases hkeeps : ∀ pos, SendsInVain host members data length pos →
      pos < members.unremovableNodeCount.toNat
  · obtain ⟨-, hauto, -, hentries⟩ := sendFrame_of_not_inVain members self hkeeps
    rw [hentries]
    exact ⟨List.Sublist.refl _, hauto⟩
  · simp only [not_forall, not_lt] at hkeeps
    obtain ⟨pos, hvain, hautomatic⟩ := hkeeps
    obtain ⟨hnodes, -, hauto, -⟩ := sendFrame_of_inVain members self hvain hautomatic
    rw [hnodes]
    exact ⟨(List.eraseIdx_sublist _ _).map entryOf, hauto⟩

theorem mapped_perform (h : Mapped host history (entries members.nodes))
    (call : TableCall (ι × UInt16)) :
    Mapped host (history ++ call.heard host members.autoRegistration members.lastOutSenderId)
        (entries (call.perform host self members).nodes) ∧
      (call.perform host self members).autoRegistration = members.autoRegistration := by
  by_cases hcall : ∀ data length, call ≠ .sendFrame data length
  · obtain ⟨hentries, hauto⟩ := perform_receives self h.counted hcall
    rw [hentries]
    exact ⟨h.registerAll (heard_ne_zero call _ _), hauto⟩
  · simp only [not_forall, not_not] at hcall
    obtain ⟨data, length, rfl⟩ := hcall
    obtain ⟨hsub, hauto⟩ := entries_sendFrame_sublist host self members data length
    rw [TableCall.heard, List.append_nil]
    exact ⟨h.sublist hsub, hauto⟩

theorem mapped_run (calls : List (TableCall (ι × UInt16)))
    (h : Mapped host history (entries members.nodes)) :
    Mapped host (history ++ TableCall.registered host self members calls)
      (entries (Run.final (TableCall.perform host self) members calls).nodes) := by
  induction calls generalizing members history with
  | nil => rwa [TableCall.registered, Run.steps_nil, List.flatMap_nil, List.append_nil]
  | cons call calls ih =>
      have hnext := ih (mapped_perform self h call).1
      rw [List.append_assoc] at hnext
      exact hnext

/-! ## What is in the table -/

theorem inTable_iff (id : UInt8) :
    InTable members id ↔ id ∈ Registry.keys (entries members.nodes) := by
  simp only [InTable, Registry.keys, entries, Members.nodes, List.map_map, List.mem_map,
    List.mem_range]
  rfl

theorem length_entries : (entries members.nodes).length = members.remoteNodeCount.toNat := by
  rw [entries, List.length_map, length_nodes]

theorem mem_keys_registerAll {id : UInt8} (h : id ∈ Registry.keys table)
    (heard : List (UInt8 × Option (ι × UInt16))) :
    id ∈ Registry.keys (registerAll host table heard) := by
  induction heard generalizing table with
  | nil => exact h
  | cons e heard ih => exact ih (Registry.mem_keys_register h e)

theorem length_registerAll_ge (table : Registry.Table UInt8 (Option (ι × UInt16)))
    (heard : List (UInt8 × Option (ι × UInt16))) :
    table.length ≤ (registerAll host table heard).length := by
  induction heard generalizing table with
  | nil => exact Nat.le_refl _
  | cons e heard ih => exact Nat.le_trans (Registry.length_register_ge _ table e) (ih _)

/-- What is registered is in the table, unless that is full. -/
theorem registeredAll_or_full {heard : List (UInt8 × Option (ι × UInt16))}
    (h : Mapped host history table) (hheard : ∀ e ∈ heard, e.1 ≠ 0)
    {e : UInt8 × Option (ι × UInt16)} (he : e ∈ heard) :
    e.1 ∈ Registry.keys (registerAll host table heard) ∨
      (registerAll host table heard).length = host.maxRemoteNodes := by
  have hbounded := (h.registerAll hheard).bounded
  obtain ⟨before, after, rfl⟩ := List.append_of_mem he
  rw [registerAll_append] at hbounded ⊢
  rw [← List.singleton_append, registerAll_append] at hbounded ⊢
  generalize registerAll host table before = front at hbounded ⊢
  rcases Registry.registered_or_full host.maxRemoteNodes front e with hin | hfull
  · exact Or.inl (mem_keys_registerAll hin after)
  · right
    apply Nat.le_antisymm hbounded
    calc host.maxRemoteNodes
        = (Registry.register host.maxRemoteNodes front e).length := hfull.symm
      _ ≤ (registerAll host (Registry.register host.maxRemoteNodes front e) after).length :=
          length_registerAll_ge _ after

theorem inTable_perform (h : Mapped host history (entries members.nodes))
    (call : TableCall (ι × UInt16)) {e : UInt8 × Option (ι × UInt16)}
    (he : e ∈ call.heard host members.autoRegistration members.lastOutSenderId) :
    InTable (call.perform host self members) e.1 ∨
      (call.perform host self members).remoteNodeCount.toNat = host.maxRemoteNodes := by
  have hcall : ∀ data length, call ≠ .sendFrame data length := by
    rintro data length rfl
    exact absurd he List.not_mem_nil
  rw [inTable_iff, ← length_entries, (perform_receives self h.counted hcall).1]
  exact registeredAll_or_full h (heard_ne_zero call _ _) he

theorem inTable_stays (h : Mapped host history (entries members.nodes))
    (call : TableCall (ι × UInt16)) {id : UInt8} (hin : InTable members id) :
    InTable (call.perform host self members) id ∨
      ∃ data length pos, call = .sendFrame data length ∧
        SendsInVain host members data length pos ∧ members.remoteId pos = id := by
  by_cases hcall : ∀ data length, call ≠ .sendFrame data length
  · left
    rw [inTable_iff] at hin ⊢
    rw [(perform_receives self h.counted hcall).1]
    exact mem_keys_registerAll hin _
  simp only [not_forall, not_not] at hcall
  obtain ⟨data, length, rfl⟩ := hcall
  by_cases hkeeps : ∀ pos, SendsInVain host members data length pos →
      pos < members.unremovableNodeCount.toNat
  · left
    rw [inTable_iff] at hin ⊢
    change id ∈ Registry.keys (entries (members.sendFrame host self data length).1.nodes)
    rwa [(sendFrame_of_not_inVain members self hkeeps).2.2.2]
  simp only [not_forall, not_lt] at hkeeps
  obtain ⟨pos, hvain, hautomatic⟩ := hkeeps
  by_cases hid : members.remoteId pos = id
  · exact Or.inr ⟨data, length, pos, rfl, hvain, hid⟩
  left
  obtain ⟨i, hi, rfl⟩ := hin
  have hnode : members.nodeAt i ∈ members.nodes.eraseIdx pos := by
    rw [List.mem_eraseIdx_iff_getElem?]
    refine ⟨i, ?_, ?_⟩
    · rintro rfl
      exact hid rfl
    · rw [getElem?_nodes, if_pos hi]
  rw [inTable_iff]
  change members.remoteId i ∈
    Registry.keys (entries (members.sendFrame host self data length).1.nodes)
  rw [(sendFrame_of_inVain members self hvain hautomatic).1]
  exact List.mem_map_of_mem (List.mem_map_of_mem hnode)

/-! ## The arrays -/

/-- A node that does not answer goes, and those behind it move up. -/
theorem removes_of_inVain {data : Memory} {length pos : Nat}
    (hvain : SendsInVain host members data length pos)
    (hautomatic : members.unremovableNodeCount.toNat ≤ pos) :
    Removes members (members.sendFrame host self data length).1 pos := by
  obtain ⟨hnodes, -⟩ := sendFrame_of_inVain members self hvain hautomatic
  have hpos := lt_of_findRemoteNode members hvain.found
  have hless : (members.sendFrame host self data length).1.remoteNodeCount.toNat + 1 =
      members.remoteNodeCount.toNat := by
    have hlength := congrArg List.length hnodes
    rw [length_nodes, List.length_eraseIdx_of_lt (by rwa [length_nodes]), length_nodes] at hlength
    omega
  refine ⟨hpos, hless, fun i hi => ?_⟩
  have hat := congrArg (fun nodes => nodes[i]?) hnodes
  simp only [getElem?_nodes, List.getElem?_eraseIdx] at hat
  rw [if_pos hi] at hat
  split_ifs with hbefore
  · rw [if_pos hbefore, if_pos (by omega), Option.some.injEq] at hat
    exact hat
  · rw [if_neg hbefore, if_pos (by omega), Option.some.injEq] at hat
    exact hat

theorem faithfulMap_of_mapped (h : Mapped host history (entries members.nodes)) :
    FaithfulMap host self members history := by
  have hentry : ∀ i, i < members.remoteNodeCount.toNat →
      (entries members.nodes)[i]? = some (entryOf (members.nodeAt i)) := by
    intro i hi
    rw [entries, List.getElem?_map, getElem?_nodes, if_pos hi, Option.map_some]
  constructor
  case bounded =>
    have hbounded := h.bounded
    rwa [length_entries] at hbounded
  case distinct =>
    intro i j hi hj hids
    have hkey : ∀ k, k < members.remoteNodeCount.toNat →
        (Registry.keys (entries members.nodes))[k]? = some (members.remoteId k) := by
      intro k hk
      rw [Registry.keys, List.getElem?_map, hentry k hk]
      rfl
    have hlength : i < (Registry.keys (entries members.nodes)).length := by
      rwa [Registry.keys, List.length_map, length_entries]
    have hsame : (Registry.keys (entries members.nodes))[i]? =
        (Registry.keys (entries members.nodes))[j]? := by
      rw [hkey i hi, hkey j hj, hids]
    exact (List.getElem?_inj hlength h.distinct).mp hsame
  case addressed =>
    intro i hi
    exact h.current (entryOf (members.nodeAt i)) (List.mem_of_getElem? (hentry i hi))
  case removal =>
    intro data length next hless
    by_cases hkeeps : ∀ pos, SendsInVain host members data length pos →
        pos < members.unremovableNodeCount.toNat
    · exact absurd (sendFrame_of_not_inVain members self hkeeps).1 hless
    simp only [not_forall, not_lt] at hkeeps
    obtain ⟨pos, hvain, hautomatic⟩ := hkeeps
    exact ⟨pos, hvain.unreachable, removes_of_inVain self hvain hautomatic⟩
  case registers => exact fun call e he => inTable_perform self h call he
  case stays => exact fun call id hin => inTable_stays self h call hin

/-- From an empty table on, the node table is a faithful map. -/
theorem nodeTable_faithfulMap (host : Host) (self : ι × UInt16) (members : Members ι)
    (calls : List (TableCall (ι × UInt16))) (hempty : members.remoteNodeCount = 0) :
    FaithfulMap host self (Run.final (TableCall.perform host self) members calls)
      (TableCall.registered host self members calls) := by
  have hnil : entries members.nodes = [] := by
    rw [Members.nodes, hempty]
    rfl
  have hstart : Mapped host [] (entries members.nodes) := by
    rw [hnil]
    exact
      { bounded := Nat.zero_le _, distinct := List.nodup_nil, nonzero := List.not_mem_nil
        current := fun e he => absurd he List.not_mem_nil }
  have hrun := mapped_run self calls hstart
  rw [List.nil_append] at hrun
  exact faithfulMap_of_mapped self hrun

/-- A device that has sent from the id 44 hears from 45, first at one port and then at another. -/
def heardTwice : List (TableCall (Nat × UInt16)) :=
  [.sendFrame (byte [45, 2, 8, 0, 44, 65, 0, 0]) 8,
    .receiveFrame (fun _ => 0) (some
      { source := (1, 7100), destination := none, bytes := [44, 2, 8, 0, 45, 65, 0, 0] }) 50,
    .receiveFrame (fun _ => 0) (some
      { source := (1, 7200), destination := none, bytes := [44, 2, 8, 0, 45, 65, 0, 0] }) 50]

def plainHost : Host where
  build := defaultBuild
  room := DualUDP.defaultBuild_room
  counted := DualUDP.defaultBuild_counted

example : TableCall.registered plainHost (0, 7000) {} heardTwice =
    [(45, some (1, 7100)), (45, some (1, 7200))] := by decide +kernel

theorem nodeTable_faithfulMap_heardTwice :
    FaithfulMap plainHost (0, 7000)
      (Run.final (TableCall.perform plainHost (0, 7000)) ({} : Members Nat) heardTwice)
      (TableCall.registered plainHost (0, 7000) {} heardTwice) :=
  nodeTable_faithfulMap plainHost (0, 7000) {} heardTwice rfl

end Pjon.Proofs.NodeMap
