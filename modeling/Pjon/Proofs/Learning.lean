import Pjon.Proofs.Canonical
import Pjon.Proofs.Destinations
import Pjon.Proofs.Identity
import Pjon.Spec.Learned
/-!
# The table of a dynamic router

A packet adds a row to the table if the router does not find the bus id that the packet
gives for its sender, whether or not the packet says where it comes from.
-/

namespace Pjon.Proofs.Learning

open Pjon.Lib Pjon.Model Pjon.Spec Pjon.Proofs.Forward Pjon.Proofs.Switch Pjon.Proofs.Identity
open Pjon.Proofs.Canonical Pjon.Proofs.Destinations Pjon.Proofs.Duplicates

variable {r : RouterBuild} {n : Nat} {σ : Type}

/-! ## What the receiver function is called with -/

/-- A bus calls the receiver function of the object for what is delivered, and for nothing
else. -/
theorem receiverCall_cases (bus : Bus r.toBuild) (delivery : Delivery) :
    (¬Delivered bus delivery.bytes ∧ receiverCall (bus.receive delivery).events = none) ∨
      ∃ payload info, Delivered bus delivery.bytes ∧ Seen bus delivery.bytes info ∧
        payload.bytes = payloadOf delivery.bytes ∧
        receiverCall (bus.receive delivery).events = some (payload, info) := by
  have hcalls := Deliver.receive_delivers_iff bus delivery r.packetMaxLength_ge
    r.packetMaxLength_lt
  cases hcall : receiverCall (bus.receive delivery).events with
  | none =>
      refine Or.inl ⟨fun hdelivered => ?_, rfl⟩
      obtain ⟨payload, info, hmem⟩ := hcalls.1.mpr hdelivered
      rw [receiverCall, List.findSome?_eq_none_iff] at hcall
      exact absurd (hcall _ hmem) (by simp)
  | some call =>
      obtain ⟨event, hmem, hevent⟩ := List.exists_of_findSome?_eq_some hcall
      cases event with
      | receiver payload info =>
          obtain ⟨hdelivered, rfl, hseen, -⟩ :=
            seen_of_receiver r.packetMaxLength_ge r.packetMaxLength_lt hmem
          obtain rfl := Option.some.inj hevent
          have hlength : (payloadOf delivery.bytes).length % 65536 =
              (payloadOf delivery.bytes).length :=
            Nat.mod_eq_of_lt (length_payloadOf_lt hdelivered.toAdmissible)
          refine Or.inr ⟨_, info, hdelivered, hseen, ?_, rfl⟩
          exact (congrArg (List.take · _) hlength).trans List.take_length
      | sendFrame frame => cases hevent
      | sendResponse response => cases hevent
      | error code data customPointer => cases hevent

/-! ## One packet -/

section Row

variable (x : Router r n) (busId : Vector UInt8 4)

theorem findAttached_eq_none_iff :
    (x.findAttachedBusWithId busId 0).1 = none ↔ ∀ i, x.busId i ≠ busId := by
  have hsearch : (x.findAttachedBusWithId busId 0).1 =
      Search.first (fun i => busId == x.busId i) 0 := by
    have hzero : (0 : UInt8).toNat = 0 := rfl
    rw [Switch.findAttachedBusWithId, hzero]
    split <;> simp [*]
  rw [hsearch, Search.first, List.find?_eq_none]
  simp only [List.mem_finRange, Nat.zero_le, decide_true, Bool.true_and, beq_iff_eq,
    forall_true_left]
  exact forall_congr' fun i => ne_comm

theorem findInTable_eq_none_iff :
    (x.findBusInTable busId (UInt8.ofNat n)).1 = none ↔ ∀ route ∈ x.table, route.busId ≠ busId := by
  have hzero : (UInt8.ofNat n - UInt8.ofNat n).toNat = 0 := by rw [UInt8.sub_self]; rfl
  have hrows : (∀ route ∈ x.table, route.busId ≠ busId) ↔
      x.table.zipIdx.find? (fun route => busId == route.1.busId) = none := by
    rw [List.find?_eq_none]
    conv_lhs => rw [← List.zipIdx_map_fst 0 x.table]
    rw [List.forall_mem_map]
    refine forall_congr' fun row => forall_congr' fun _ => ?_
    rw [beq_iff_eq]
    exact ne_comm
  rw [Router.findBusInTable, hzero, List.drop_zero, hrows]
  cases x.table.zipIdx.find? fun route => busId == route.1.busId <;> simp

/-- The id is unknown to the attached buses and to the table, where that is looked into. -/
theorem findBusWithId_eq_none_iff (hn : 0 < n) :
    (x.findBusWithId busId 0).1 = none ↔
      (∀ i, x.busId i ≠ busId) ∧ (n = 255 ∨ ∀ route ∈ x.table, route.busId ≠ busId) := by
  have hlt := x.busCount_lt
  have hcount : (UInt8.ofNat n).toNat = n := by
    rw [UInt8.toNat_ofNat']
    omega
  have hmarker : UInt8.ofNat n = notAssigned ↔ n = 255 := by
    rw [← UInt8.toNat_inj, hcount]
    rfl
  have hzero : (0 : UInt8).toNat = 0 := rfl
  have hlost (found : Option (Fin n) × UInt8) :
      (if found.1 = none then (none, notAssigned) else found).1 = none ↔ found.1 = none := by
    split_ifs with h <;> simp [h]
  rw [Router.findBusWithId]
  simp only [hzero, if_pos hn, hlost]
  rw [← findAttached_eq_none_iff, ← findInTable_eq_none_iff]
  by_cases hnone : (x.findAttachedBusWithId busId 0).1 = none
  · simp only [hnone, if_true, true_and, hcount, Nat.le_refl, ne_eq, hmarker]
    by_cases hfull : n = 255 <;> simp [hfull]
  · simp [hnone]

end Row

section Table

variable (x : Router r n) (currentBus : Fin n)

/-- Forwarding leaves the table as it is. -/
theorem table_receiverFunction (payload : Payload) (info : PacketInfo)
    (surroundings : Nat → Surroundings) :
    (x.receiverFunction currentBus payload info surroundings).state.table = x.table :=
  dynamicReceiverFunction_rule
    (fun routing : Routing (Router r n) n => routing.state.table = x.table) currentBus info rfl
    fun _ _ _ _ _ h => h

/-- What the router learns is a row behind the others.  Rows are counted in a `uint8_t`, so that
a table may lose rows when it gets another one. -/
theorem table_addSender (info : PacketInfo) :
    (Learns x info.tx.busId ∧ (x.addSenderToRoutingTable info currentBus).table =
        x.table ++ [⟨info.tx.busId, currentBus⟩]) ∨
      ¬Learns x info.tx.busId ∧
        ∃ k, (x.addSenderToRoutingTable info currentBus).table = x.table.take k := by
  have hfind := findBusWithId_eq_none_iff x info.tx.busId (Fin.pos currentBus)
  rw [Learns, ← and_assoc, ← hfind, Router.addSenderToRoutingTable, Router.add, lt_min_iff]
  split_ifs with hunknown hroom
  · by_cases hwrap : x.table.length < 255
    · refine Or.inl ⟨⟨hunknown, hroom, hwrap⟩, List.take_of_length_le ?_⟩
      rw [List.length_append, List.length_singleton]
      omega
    · refine Or.inr ⟨fun h => hwrap h.2.2, _, List.take_append_of_le_length ?_⟩
      omega
  · exact Or.inr ⟨fun h => hroom h.2.1, _, x.table.take_length.symm⟩
  · exact Or.inr ⟨fun h => hunknown h.1, _, x.table.take_length.symm⟩

end Table

/-! ## One step -/

section Step

variable {x : Router r n} {history : List (Router r n × Traffic r n)}

/-- The packet that comes in teaches the router the route. -/
def Taught (x : Router r n) (traffic : Traffic r n) (route : Route n) : Prop :=
  ∃ delivery surroundings, traffic = .receive route.via delivery surroundings ∧
    Delivered (x.bus route.via) delivery.bytes ∧ Learns x route.busId ∧
    (infoOf (x.bus route.via) delivery.bytes).tx.busId = route.busId

/-- A step adds a row for the route that is learned, or none. -/
theorem table_step (x : Router r n) (traffic : Traffic r n) :
    (∃ route, Taught x traffic route ∧
        (learningStep x traffic).table = x.table ++ [route]) ∨
      (∀ route, ¬Taught x traffic route) ∧
        ∃ k, (learningStep x traffic).table = x.table.take k := by
  cases traffic with
  | update currentBus maxAttempts turns =>
      refine Or.inr ⟨?_, _, x.table.take_length.symm⟩
      rintro route ⟨delivery, surroundings, htraffic, -⟩
      cases htraffic
  | receive currentBus delivery surroundings =>
      have hnone (hnot : ¬Delivered (x.bus currentBus) delivery.bytes ∨
          ¬Learns x (infoOf (x.bus currentBus) delivery.bytes).tx.busId) (route : Route n) :
          ¬Taught x (.receive currentBus delivery surroundings) route := by
        rintro ⟨delivery', surroundings', htraffic, hdelivered, hlearns, hid⟩
        obtain ⟨rfl, rfl, rfl⟩ := Traffic.receive.inj htraffic
        rcases hnot with hnot | hnot
        · exact hnot hdelivered
        · exact hnot (hid ▸ hlearns)
      have hstep : learningStep x (.receive currentBus delivery surroundings) =
          (x.receiveLearning currentBus delivery surroundings).state := rfl
      rw [hstep, Router.receiveLearning, receiveOn]
      rcases receiverCall_cases (x.bus currentBus) delivery with
        ⟨hnot, hcall⟩ | ⟨payload, info, hdelivered, hseen, -, hcall⟩
      · simp only [hcall]
        exact Or.inr ⟨hnone (Or.inl hnot), _, x.table.take_length.symm⟩
      · have hid : info.tx.busId = (infoOf (x.bus currentBus) delivery.bytes).tx.busId := by
          have hfield := congrArg (fun info : PacketInfo => info.tx.busId) hseen.fields
          exact hfield
        have hsame := SameBuses.receive x.toSwitch currentBus delivery
        have hlearns : Learns (afterReceive Router.toSwitch Router.setSwitch x currentBus delivery)
            info.tx.busId ↔ Learns x info.tx.busId := by
          simp only [Learns]
          exact and_congr_left' (forall_congr' fun i => by rw [← hsame.busId i]; rfl)
        simp only [hcall, Routing.andThen, Router.learningReceiverFunction, table_receiverFunction]
        rcases table_addSender (afterReceive Router.toSwitch Router.setSwitch x currentBus delivery)
          currentBus info with ⟨hlearned, htable⟩ | ⟨hnot, htable⟩
        · rw [hlearns] at hlearned
          exact Or.inl ⟨⟨info.tx.busId, currentBus⟩,
            ⟨delivery, surroundings, rfl, hdelivered, hlearned, hid.symm⟩, htable⟩
        · rw [hlearns, hid] at hnot
          exact Or.inr ⟨hnone (Or.inr hnot), htable⟩

theorem taught_unique {traffic : Traffic r n} {route route' : Route n}
    (h : Taught x traffic route) (h' : Taught x traffic route') : route' = route := by
  obtain ⟨delivery, surroundings, rfl, -, -, hid⟩ := h
  obtain ⟨delivery', surroundings', htraffic, -, -, hid'⟩ := h'
  obtain ⟨hvia, rfl, -⟩ := Traffic.receive.inj htraffic
  cases route
  cases route'
  simp only at hvia hid hid'
  subst hvia
  rw [← hid, ← hid']

/-- What is learned from the packet was observed, and is not in the table. -/
theorem carriesSender_iff (traffic : Traffic r n) :
    CarriesSender x traffic ↔ ∀ route, Taught x traffic route →
      Teaches route (x, traffic) ∧ ∀ known ∈ x.table, known.busId ≠ route.busId := by
  constructor
  · rintro hcarries route ⟨delivery, surroundings, rfl, hdelivered, hlearns, hid⟩
    obtain ⟨hmode, htxInfo, hfresh⟩ := hcarries hdelivered (hid ▸ hlearns)
    rw [hid] at hfresh
    exact ⟨⟨delivery, surroundings, rfl, hdelivered, hmode, htxInfo, hid, hlearns.1⟩, hfresh⟩
  · intro hall
    cases traffic with
    | update currentBus maxAttempts turns => trivial
    | receive currentBus delivery surroundings =>
        intro hdelivered hlearns
        obtain ⟨⟨delivery', surroundings', htraffic, -, hmode, htxInfo, -, -⟩, hfresh⟩ :=
          hall ⟨_, currentBus⟩ ⟨delivery, surroundings, rfl, hdelivered, hlearns, rfl⟩
        obtain ⟨-, rfl, -⟩ := Traffic.receive.inj htraffic
        exact ⟨hmode, htxInfo, hfresh⟩

/-- A table that has only what was observed in it stays so exactly if the packet carries its
sender, when the router learns from it. -/
theorem wellLearned_iff (h : WellLearned history x) (traffic : Traffic r n) :
    WellLearned (history ++ [(x, traffic)]) (learningStep x traffic) ↔
      CarriesSender x traffic := by
  rw [carriesSender_iff]
  have hkept : ∀ route ∈ x.table,
      Run.Since (fun v => Teaches route v ∧ route ∉ v.1.table) (fun v => route ∈ v.1.table)
        (history ++ [(x, traffic)]) := fun route hroute =>
    (Run.since_append_singleton _ _).mpr (Or.inr ⟨hroute, h.observed route hroute⟩)
  rcases table_step x traffic with ⟨route, htaught, htable⟩ | ⟨hnone, k, htable⟩
  · constructor
    · intro hafter route' htaught'
      obtain rfl := taught_unique htaught htaught'
      have hdistinct := hafter.distinct
      rw [htable, List.map_append, List.nodup_append] at hdistinct
      have hfresh : ∀ known ∈ x.table, known.busId ≠ route'.busId := fun known hknown =>
        hdistinct.2.2 _ (List.mem_map_of_mem hknown) _ (List.mem_singleton_self _)
      have hobserved := hafter.observed route' (by rw [htable]; simp)
      rw [Run.since_append_singleton] at hobserved
      rcases hobserved with ⟨hteaches, -⟩ | ⟨hmem, -⟩
      · exact ⟨hteaches, hfresh⟩
      · exact absurd rfl (hfresh route' hmem)
    · intro hall
      obtain ⟨hteaches, hfresh⟩ := hall route htaught
      obtain ⟨-, -, -, -, ⟨-, -, hroom⟩, -⟩ := htaught
      refine ⟨fun known hknown => ?_, ?_, ?_⟩
      · rw [htable, List.mem_append, List.mem_singleton] at hknown
        rcases hknown with hknown | rfl
        · exact hkept known hknown
        · exact (Run.since_append_singleton _ _).mpr
            (Or.inl ⟨hteaches, fun hmem => hfresh known hmem rfl⟩)
      · rw [htable, List.map_append, List.nodup_append]
        refine ⟨h.distinct, List.nodup_singleton _, ?_⟩
        intro id hid id' hid' heq
        obtain ⟨known, hknown, rfl⟩ := List.mem_map.mp hid
        exact hfresh known hknown (heq.trans (List.mem_singleton.mp hid'))
      · rw [htable, List.length_append, List.length_singleton]
        omega
  · refine ⟨fun _ route htaught => absurd htaught (hnone route), fun _ => ⟨?_, ?_, ?_⟩⟩
    · rw [htable]
      exact fun route hroute => hkept route (List.mem_of_mem_take hroute)
    · rw [htable, List.map_take]
      exact h.distinct.sublist (List.take_sublist _ _)
    · rw [htable]
      exact (List.length_take_le' _ _).trans h.bounded

end Step

/-! ## Runs -/

/-- A dynamic router that starts with an empty table knows only what it has observed, all along
a run, exactly if each packet of the run that it learns from carries the bus id of its sender,
which is not in the table yet. -/
theorem learned_iff (x : Router r n) (hempty : x.table = []) (traffic : List (Traffic r n)) :
    (∀ before, before <+: traffic →
        WellLearned (Run.steps learningStep x before) (Run.final learningStep x before)) ↔
      ∀ v ∈ Run.steps learningStep x traffic, CarriesSender v.1 v.2 := by
  have hstart : WellLearned [] x := by
    refine ⟨?_, ?_, ?_⟩ <;> simp [hempty]
  exact Run.forall_reached_iff hstart (fun _ _ traffic h => wellLearned_iff h traffic) traffic

/-! ## Two letters -/

def learner : Router routing 3 := { threeBuses none with table := [] }

/-- A letter from device 12 of bus 0.0.0.9 to device 45 of bus 0.0.0.2. -/
def fromNinthBus : Delivery :=
  ⟨[45, 35, 19, 96, 0, 0, 0, 2, 0, 0, 0, 9, 0, 12, 65, 161, 193, 194, 151], fun _ => 50⟩

theorem learned_iff_fromNinthBus :
    WellLearned [(learner, .receive 0 fromNinthBus fun _ => {})]
        (learningStep learner (.receive 0 fromNinthBus fun _ => {})) ∧
      (learningStep learner (.receive 0 fromNinthBus fun _ => {})).table = [⟨busIdOf 9, 0⟩] := by
  have hall := (learned_iff learner rfl [.receive 0 fromNinthBus fun _ => {}]).mpr (by
    rw [Run.steps_cons, Run.steps_nil, List.forall_mem_singleton]
    exact fun _ _ => ⟨by decide, by decide, fun route hroute => absurd hroute List.not_mem_nil⟩)
  exact ⟨hall _ (List.prefix_refl _), by decide +kernel⟩

/-- The letter `toSecondBus` does not say where it comes from, and teaches a route to 0.0.0.0. -/
theorem toSecondBus_teaches_localhost :
    learner.table = [] ∧
      ¬WellLearned (Run.steps learningStep learner [.receive 0 toSecondBus fun _ => {}])
        (Run.final learningStep learner [.receive 0 toSecondBus fun _ => {}]) := by
  refine ⟨rfl, fun hgood => ?_⟩
  have htable : (Run.final learningStep learner [.receive 0 toSecondBus fun _ => {}]).table =
      [⟨localhost, 0⟩] := by decide +kernel
  have hobserved := hgood.observed ⟨localhost, 0⟩ (by rw [htable]; exact List.mem_singleton_self _)
  rw [Run.steps_cons, Run.steps_nil, ← List.nil_append [(learner, _)],
    Run.since_append_singleton] at hobserved
  rcases hobserved with ⟨hteaches, -⟩ | ⟨-, hsince⟩
  · obtain ⟨delivery, surroundings, htraffic, -, -, htxInfo, -⟩ := hteaches
    obtain ⟨-, rfl, -⟩ := Traffic.receive.inj htraffic
    revert htxInfo
    decide
  · exact Run.not_since_nil hsince

end Pjon.Proofs.Learning
