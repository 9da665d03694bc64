import Pjon.Proofs.Destinations
import Pjon.Proofs.HandOn
/-!
# What arrives at one bus

The search of a switch changes one bus in each of its turns.  What it leaves at a bus is
what the turns that come to that bus do, one after the other; without a default gateway
there is one such turn if the bus has the id of the packet, and none otherwise.
-/

namespace Pjon.Proofs.Arrivals

open Pjon.Lib Pjon.Model Pjon.Spec Pjon.Proofs.Forward Pjon.Proofs.Switch
open Pjon.Proofs.Destinations

variable {r : RouterBuild} {n : Nat} {σ : Type}

/-! ## Turns -/

/-- A member that sends to one bus does there what `change` says, and nothing elsewhere. -/
structure SendsBy (toSwitch : σ → Switch r n) (inv : σ → Prop) (currentBus : Fin n)
    (sendPacket : Nat → Fin n → Bool → σ → Routing σ n)
    (change : Nat → Fin n → Bus r.toBuild → Bus r.toBuild) : Prop where
  keeps : ∀ turn i ackSent state, inv state → inv (sendPacket turn i ackSent state).state
  here : ∀ turn i ackSent state, inv state →
    (toSwitch (sendPacket turn i ackSent state).state).bus i =
      change turn i ((toSwitch state).bus i)
  elsewhere : ∀ turn i ackSent state j, i ≠ j →
    (toSwitch (sendPacket turn i ackSent state).state).bus j = (toSwitch state).bus j

/-- The turns that come to bus `i`. -/
abbrev turnsTo (i : Fin n) (visits : List (Nat × Option (Fin n))) : List (Nat × Option (Fin n)) :=
  visits.filter fun visit => visit.2 = some i

theorem length_turnsTo (i : Fin n) (visits : List (Nat × Option (Fin n))) :
    (turnsTo i visits).length = (visits.filterMap Prod.snd).count i := by
  induction visits with
  | nil => rfl
  | cons visit visits ih =>
      cases hvisit : visit.2 with
      | none =>
          rw [List.filterMap_cons_none hvisit, ← ih, turnsTo, List.filter_cons_of_neg]
          simp [hvisit]
      | some j =>
          rw [List.filterMap_cons_some hvisit, List.count_cons, ← ih, turnsTo, List.filter_cons]
          by_cases hj : j = i <;> simp [hvisit, hj]

section Turns

variable {toSwitch : σ → Switch r n} {inv : σ → Prop} {currentBus : Fin n}
  {sendPacket : Nat → Fin n → Bool → σ → Routing σ n}
  {change : Nat → Fin n → Bus r.toBuild → Bus r.toBuild}
  (h : SendsBy toSwitch inv currentBus sendPacket change)

include h

/-- One turn of the search, at any bus. -/
theorem bus_forwardPacket (turn : Nat) (receiverBus : Option (Fin n)) (ackSent : Bool) {state : σ}
    (hstate : inv state) (i : Fin n) :
    inv (forwardPacket (sendPacket turn) receiverBus currentBus ackSent state).state ∧
      (toSwitch
          (forwardPacket (sendPacket turn) receiverBus currentBus ackSent state).state).bus i =
        if receiverBus = some i ∧ i ≠ currentBus then change turn i ((toSwitch state).bus i)
        else (toSwitch state).bus i := by
  cases receiverBus with
  | none =>
      refine ⟨hstate, ?_⟩
      rw [if_neg (by simp)]
      rfl
  | some j =>
      rw [forwardPacket]
      by_cases hj : j = currentBus
      · rw [if_pos hj]
        refine ⟨hstate, ?_⟩
        rw [if_neg]
        rintro ⟨heq, hne⟩
        exact hne ((Option.some.inj heq).symm.trans hj)
      · rw [if_neg hj]
        refine ⟨h.keeps turn j ackSent state hstate, ?_⟩
        by_cases hij : j = i
        · subst hij
          rw [if_pos ⟨rfl, hj⟩, h.here turn j ackSent state hstate]
        · rw [if_neg (fun hset => hij (Option.some.inj hset.1)), h.elsewhere _ _ _ _ _ hij]

theorem bus_foldl (i : Fin n) (visits : List (Nat × Option (Fin n))) :
    ∀ routing : Routing σ n, inv routing.state →
      (toSwitch (visits.foldl (fun routing visit => routing.andThen fun state ackSent =>
          forwardPacket (sendPacket visit.1) visit.2 currentBus ackSent state)
            routing).state).bus i =
        if i = currentBus then (toSwitch routing.state).bus i
        else (turnsTo i visits).foldl (fun bus visit => change visit.1 i bus)
          ((toSwitch routing.state).bus i) := by
  induction visits with
  | nil => intro routing _; exact (ite_self _).symm
  | cons visit visits ih =>
      intro routing hrouting
      obtain ⟨hnext, hbus⟩ := bus_forwardPacket h visit.1 visit.2 routing.ackSent hrouting i
      rw [List.foldl_cons, ih (routing.andThen fun state ackSent =>
        forwardPacket (sendPacket visit.1) visit.2 currentBus ackSent state) hnext]
      have hstate : (routing.andThen fun state ackSent =>
          forwardPacket (sendPacket visit.1) visit.2 currentBus ackSent state).state =
          (forwardPacket (sendPacket visit.1) visit.2 currentBus routing.ackSent
            routing.state).state := rfl
      rw [hstate, hbus]
      by_cases hi : i = currentBus
      · simp [hi]
      · by_cases hvisit : visit.2 = some i
        · simp [hi, hvisit]
        · simp [hi, hvisit]

section Search

variable {s : Switch r n} {info : PacketInfo} {state : σ}
  {findBusWithId : σ → Vector UInt8 4 → UInt8 → Option (Fin n) × UInt8} (hstate : inv state)
  (hfind : ∀ state, inv state →
    findBusWithId state (targetOf info) = s.findAttachedBusWithId (targetOf info)) (i : Fin n)

include hstate hfind

/-- What a search leaves at a bus, turn by turn. -/
theorem bus_search_foldl :
    ∃ turns : List (Nat × Option (Fin n)),
      turns.length = (reached s (targetOf info)).count i ∧
      (toSwitch (dynamicReceiverFunction findBusWithId sendPacket s.defaultGateway currentBus info
        state).state).bus i =
        if i = currentBus then (toSwitch state).bus i
        else turns.foldl (fun bus turn => change turn.1 i bus) ((toSwitch state).bus i) := by
  have hloop := searchLoop_eq s.defaultGateway hfind (fun turn receiverBus ackSent state hs =>
    (bus_forwardPacket h turn receiverBus ackSent hs i).1) 256 0 0 { state := state } hstate
  have hturns := length_turnsTo i
    (visits (s.findAttachedBusWithId (targetOf info)) s.defaultGateway 256 0 0)
  rw [filterMap_visits] at hturns
  rw [dynamicReceiverFunction, hloop, bus_foldl h i _ _ hstate]
  exact ⟨_, hturns, rfl⟩

/-- What a search leaves at a bus that it comes to at most once. -/
theorem bus_search :
    ((reached s (targetOf info)).count i = 0 ∨ i = currentBus →
      (toSwitch (dynamicReceiverFunction findBusWithId sendPacket s.defaultGateway currentBus info
        state).state).bus i = (toSwitch state).bus i) ∧
    ((reached s (targetOf info)).count i = 1 → i ≠ currentBus → ∃ turn,
      (toSwitch (dynamicReceiverFunction findBusWithId sendPacket s.defaultGateway currentBus info
        state).state).bus i = change turn i ((toSwitch state).bus i)) := by
  obtain ⟨turns, hturns, hbus⟩ := bus_search_foldl h hstate hfind i
  rw [hbus]
  constructor
  · rintro (hnone | hcurrent)
    · rw [hnone, List.length_eq_zero_iff] at hturns
      rw [hturns, List.foldl_nil, ite_self]
    · rw [if_pos hcurrent]
  · intro hone hi
    rw [hone, List.length_eq_one_iff] at hturns
    obtain ⟨turn, rfl⟩ := hturns
    exact ⟨turn.1, if_neg hi⟩

/-- What the first turn that comes to a bus achieves there, the others keep. -/
theorem holds_search {holds : Bus r.toBuild → Prop}
    (hfirst : ∀ turn, holds (change turn i ((toSwitch state).bus i)))
    (hkeep : ∀ turn bus, holds bus → holds (change turn i bus))
    (hcount : (reached s (targetOf info)).count i ≠ 0) (hi : i ≠ currentBus) :
    holds ((toSwitch (dynamicReceiverFunction findBusWithId sendPacket s.defaultGateway currentBus
      info state).state).bus i) := by
  obtain ⟨turns, hturns, hbus⟩ := bus_search_foldl h hstate hfind i
  rw [hbus, if_neg hi]
  cases turns with
  | nil => exact absurd hturns.symm hcount
  | cons turn turns =>
      rw [List.foldl_cons]
      exact List.foldlRecOn turns _ (hfirst turn.1) fun bus hbus turn _ => hkeep turn.1 bus hbus

end Search

end Turns

/-! ## The switch -/

section Switch

variable (s : Switch r n) (currentBus : Fin n) (payload : Payload) (info : PacketInfo)
  (surroundings : Nat → Surroundings)

theorem sendsBy_switch (h : WithinHops r.maxHops info) :
    SendsBy id (SameBuses s) currentBus
      (fun turn => Switch.sendPacket payload currentBus info (surroundings turn))
      (fun turn i bus => (Switch.handOn bus (s.translate i currentBus info) payload
        (surroundings turn)).bus) := by
  refine ⟨fun turn i ackSent s' hs => ?_, fun turn i ackSent s' hs => ?_,
    fun turn i ackSent s' j hij => ?_⟩
  · exact hs.trans (sameBuses_sendPacket s' payload currentBus info _ i ackSent h)
  · simp only [id_eq]
    rw [sendPacket_bus, hs.translate]
  · simp only [id_eq]
    rw [sendPacket_bus_ne _ _ _ _ _ _ _ hij]

/-- Without a gateway, the search comes once to the buses that have the id, and to no other. -/
theorem count_reached_of_no_gateway {target : Vector UInt8 4} (hgateway : s.defaultGateway = none)
    (i : Fin n) : (reached s target).count i = if s.busId i = target then 1 else 0 := by
  rw [count_reached, hgateway]
  simp

end Switch

end Pjon.Proofs.Arrivals
