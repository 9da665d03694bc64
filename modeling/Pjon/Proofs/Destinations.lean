import Pjon.Proofs.Switch
/-!
# The default gateway gets copies

The search loop of a switch goes on behind each match, and its last turn finds nothing.
There the default gateway stands in, also for a packet that has been forwarded.
-/

namespace Pjon.Proofs.Destinations

open Pjon.Lib Pjon.Model Pjon.Spec Pjon.Proofs.Forward Pjon.Proofs.Switch

variable {r : RouterBuild} {n : Nat}

section Copies

variable (s : Switch r n) (currentBus : Fin n) (target : Vector UInt8 4)

theorem copiesTo_eq_count {σ : Type} (i : Fin n) (routing : Routing σ n) :
    copiesTo i routing = (routing.forwards.map Forwarded.receiverBus).count i := by
  rw [copiesTo, List.count, List.countP_map]
  rfl

/-- How often the search comes to a bus. -/
theorem count_reached (i : Fin n) :
    (reached s target).count i = (if s.busId i = target then 1 else 0) +
      if ¬EndsEarly s target ∧ s.defaultGateway = some i then 1 else 0 := by
  have hmatch : (0 ≤ i.val ∧ withId s target i = true) ↔ s.busId i = target := by
    rw [withId, beq_iff_eq]
    exact ⟨fun h => h.2.symm, fun h => ⟨Nat.zero_le _, h.symm⟩⟩
  rw [reached, List.count_append, Search.count_matchesFrom]
  congr 1
  · exact if_congr hmatch rfl rfl
  · by_cases hend : EndsEarly s target
    · rw [if_pos hend, if_neg (fun h => h.1 hend), List.count_nil]
    · rw [if_neg hend]
      cases hgateway : s.defaultGateway with
      | none => simp
      | some j =>
          by_cases hij : j = i
          · subst hij
            rw [if_pos ⟨hend, rfl⟩]
            simp
          · rw [if_neg (fun h => hij (Option.some.inj h.2))]
            simp [hij]

/-- The search does not come to the gateway behind a match, or that does no harm. -/
def GatewaySpared : Prop :=
  (∀ i, s.busId i ≠ target) ∨ s.defaultGateway = none ∨ s.defaultGateway = some currentBus ∨
    EndsEarly s target

/-- The search comes once to each bus that a packet is to go to, exactly if the gateway is
spared. -/
theorem count_reached_iff :
    (∀ i, ((reached s target).filter fun i => decide (i ≠ currentBus)).count i =
        if Destination s currentBus target i then 1 else 0) ↔
      GatewaySpared s currentBus target := by
  have hcount (i : Fin n) (hi : i ≠ currentBus) :
      ((reached s target).filter fun i => decide (i ≠ currentBus)).count i =
        (reached s target).count i :=
    List.count_filter (by simpa using hi)
  constructor
  · intro hall
    by_contra hnot
    simp only [GatewaySpared, not_or, not_forall, not_not] at hnot
    obtain ⟨⟨j, hj⟩, hsome, hother, hend⟩ := hnot
    obtain ⟨g, hg⟩ := Option.ne_none_iff_exists'.mp hsome
    -- the gateway has one copy more than it is to have
    have hgateway : g ≠ currentBus := fun heq => hother (by rw [hg, heq])
    have hcopies := hall g
    have hvisited : ¬EndsEarly s target ∧ s.defaultGateway = some g := ⟨hend, hg⟩
    rw [hcount g hgateway, count_reached, if_pos hvisited] at hcopies
    have hdestination : Destination s currentBus target g ↔ s.busId g = target := by
      rw [Destination, and_iff_right hgateway]
      exact ⟨fun h => h.resolve_right fun hnone => hnone.1 j hj, Or.inl⟩
    rw [if_congr hdestination rfl rfl] at hcopies
    omega
  · intro hspared i
    by_cases hi : i = currentBus
    · subst hi
      rw [if_neg (fun h => h.1 rfl), List.count_eq_zero]
      simp
    · rw [hcount i hi, count_reached]
      have hdestination : Destination s currentBus target i ↔
          s.busId i = target ∨ (∀ j, s.busId j ≠ target) ∧ s.defaultGateway = some i := by
        rw [Destination, and_iff_right hi]
      rw [if_congr hdestination rfl rfl]
      by_cases hid : s.busId i = target
      · have hfew : ¬(¬EndsEarly s target ∧ s.defaultGateway = some i) := by
          rintro ⟨hend, hg⟩
          rcases hspared with hnone | hnone | hsame | hearly
          · exact hnone i hid
          · rw [hnone] at hg
            cases hg
          · rw [hsame] at hg
            exact hi (Option.some.inj hg).symm
          · exact hend hearly
        rw [if_pos hid, if_neg hfew, if_pos (Or.inl hid)]
      · rw [if_neg hid, Nat.zero_add]
        apply if_congr _ rfl rfl
        constructor
        · rintro ⟨hend, hg⟩
          refine Or.inr ⟨?_, hg⟩
          rcases hspared with hnone | hnone | hsame | hearly
          · exact hnone
          · rw [hnone] at hg
            cases hg
          · rw [hsame] at hg
            exact absurd (Option.some.inj hg).symm hi
          · exact absurd hearly hend
        · rintro (hsame | ⟨hnone, hg⟩)
          · exact absurd hsame hid
          · refine ⟨fun hend => ?_, hg⟩
            obtain ⟨j, -, hj⟩ := hend
            exact hnone j hj

end Copies

/-- A packet below the hop limit goes once to each bus that it is to go to and is
acknowledged at most once, on the bus that it came from, exactly if no bus has its bus id or
no gateway is set but the bus that it came from.  The search for the id of the last of 255
buses ends there. -/
theorem receive_routesRight_iff (s : Switch r n) (currentBus : Fin n) (delivery : Delivery)
    (surroundings : Nat → Surroundings) (hconnected : Connected s)
    (hdelivered : Delivered (s.bus currentBus) delivery.bytes)
    (hhops : (infoOf (s.bus currentBus) delivery.bytes).hops < r.maxHops) :
    RoutesRight s currentBus (infoOf (s.bus currentBus) delivery.bytes)
        (s.receive currentBus delivery surroundings) ↔
      (∀ i, s.busId i ≠ targetOf (infoOf (s.bus currentBus) delivery.bytes)) ∨
        s.defaultGateway = none ∨ s.defaultGateway = some currentBus ∨
        ∃ i : Fin n, i.val = 254 ∧
          s.busId i = targetOf (infoOf (s.bus currentBus) delivery.bytes) := by
  obtain ⟨info, hinfo, -, hreceive⟩ := receive_eq hconnected hdelivered surroundings
  have htarget : targetOf info = targetOf (infoOf (s.bus currentBus) delivery.bytes) := by
    rw [← targetOf_withoutMacs, hinfo, targetOf_withoutMacs]
  have hwithin : WithinHops r.maxHops info := by
    rw [← withinHops_withoutMacs, hinfo]
    exact withinHops_of_lt hhops
  have hreached := (SameBuses.receive s currentBus delivery).reached (targetOf info)
  have hcopies (i : Fin n) : copiesTo i (s.receive currentBus delivery surroundings) =
      ((reached s (targetOf info)).filter fun i => decide (i ≠ currentBus)).count i := by
    rw [copiesTo_eq_count, hreceive, ← hreached, ← receivers_receiverFunction _ currentBus
      (delivered hdelivered) info surroundings hwithin]
    rfl
  have hacks : CountsAcks currentBus false (s.receive currentBus delivery surroundings) := by
    rw [hreceive]
    refine CountsAcks.andThen ⟨rfl, id⟩ ?_
    exact countsAcks_dynamicReceiverFunction _ info _ fun turn i ackSent s =>
      countsAcks_sendPacket _ info _ i ackSent s
  rw [← htarget]
  refine Iff.trans ?_ (count_reached_iff s currentBus (targetOf info))
  constructor
  · intro hright i
    rw [← hcopies, hright.copies, htarget]
  · intro hall
    refine ⟨fun i => ?_, hacks.atMostOne⟩
    rw [hcopies, hall, htarget]

/-! ## Three buses -/

def routing : RouterBuild := { toBuild := defaultBuild }

def busIdOf (k : UInt8) : Vector UInt8 4 := #v[0, 0, 0, k]

/-- A shared bus, as it is attached to a switch. -/
def sharedBus (k : UInt8) : Bus routing.toBuild where
  config := modeBit ||| txInfoBit
  tx := { busId := busIdOf k }

theorem twoBuses_lt : 2 < 256 := by decide

theorem threeBuses_lt : 3 < 256 := by decide

def firstBus : Fin 3 := 0

def lastBus : Fin 3 := 2

def threeBuses (defaultGateway : Option (Fin 3)) : Switch routing 3 :=
  Switch.connect #v[sharedBus 1, sharedBus 2, sharedBus 3] defaultGateway threeBuses_lt

/-- A letter to device 45 of bus 0.0.0.2. -/
def toSecondBus : Delivery := ⟨[45, 1, 11, 75, 0, 0, 0, 2, 0, 65, 56], fun _ => 50⟩

theorem connected_threeBuses (defaultGateway : Option (Fin 3)) :
    Connected (threeBuses defaultGateway) :=
  connected_connect _ defaultGateway _

theorem delivered_toSecondBus (defaultGateway : Option (Fin 3)) :
    Delivered ((threeBuses defaultGateway).bus 0) toSecondBus.bytes := by
  have hcalls : calls (((threeBuses none).bus 0).receive toSecondBus) = true := by
    decide +kernel
  have hdelivered := delivered_of_calls hcalls
  exact hdelivered

theorem receive_routesRight_iff_toSecondBus :
    RoutesRight (threeBuses none) 0 (infoOf ((threeBuses none).bus 0) toSecondBus.bytes)
        ((threeBuses none).receive 0 toSecondBus fun _ => {}) ↔
      (∀ i, (threeBuses none).busId i ≠
          targetOf (infoOf ((threeBuses none).bus 0) toSecondBus.bytes)) ∨
        (threeBuses none).defaultGateway = none ∨
        (threeBuses none).defaultGateway = some 0 ∨
        ∃ i : Fin 3, i.val = 254 ∧ (threeBuses none).busId i =
          targetOf (infoOf ((threeBuses none).bus 0) toSecondBus.bytes) :=
  receive_routesRight_iff (threeBuses none) 0 toSecondBus _ (connected_threeBuses none)
    (delivered_toSecondBus none) (by decide +kernel)

/-- The letter also goes to the third bus if that is the default gateway. -/
theorem gateway_gets_copy :
    Connected (threeBuses (some 2)) ∧
      Delivered ((threeBuses (some 2)).bus 0) toSecondBus.bytes ∧
      (infoOf ((threeBuses (some 2)).bus 0) toSecondBus.bytes).hops < routing.maxHops ∧
      ¬RoutesRight (threeBuses (some 2)) 0
        (infoOf ((threeBuses (some 2)).bus 0) toSecondBus.bytes)
        ((threeBuses (some 2)).receive 0 toSecondBus fun _ => {}) := by
  refine ⟨connected_threeBuses _, delivered_toSecondBus _, by decide +kernel, fun hright => ?_⟩
  have hcopies := hright.copies 2
  revert hcopies
  decide +kernel

end Pjon.Proofs.Destinations
