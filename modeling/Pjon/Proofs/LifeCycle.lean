import Pjon.Model.Strategies
import Pjon.Spec.LifeCycle
import Pjon.Proofs.Replies
import Pjon.Proofs.Locations
/-!
# The life of a packet in the send buffer

`update` takes one turn for each slot.  What a turn makes of a packet depends on the packet and
its own surroundings only, so the history of a slot can be told slot by slot: as many attempts
are counted in it as were made since it was taken.
-/

namespace Pjon.Proofs.LifeCycle

open Pjon.Lib Pjon.Model Pjon.Spec Pjon.Proofs.Forward Pjon.Proofs.Update Pjon.Proofs.Replies

variable {b : Build} {maxAttempts : UInt8} {i : Fin b.maxPackets} {bus : Bus b}

/-! ## One turn of `update` -/

/-- The packet of the slot is reported as lost. -/
def isLoss (i : Fin b.maxPackets) : Event → Bool
  | .error code data _ => code == connectionLost && data == i.val
  | _ => false

/-- What a turn makes of the packet `p`, by the attempt that it makes and whether it reports the
packet as lost. -/
inductive Turned (maxAttempts : UInt8) (p q : Packet) : Option Nat → Bool → Prop
  | rests (hsame : q = p) : Turned maxAttempts p q none false
  | acknowledged {r : Nat} (hused : p.state ≠ 0) (hfree : q.state = 0) (hattempts : q.attempts = 0)
      (htiming : p.timing = 0) (hr : r = ack) : Turned maxAttempts p q (some r) false
  | givenUp {r : Nat} (hused : p.state ≠ 0) (hfree : q.state = 0) (hattempts : q.attempts = 0)
      (htiming : p.timing = 0) (hr : r ≠ ack) (hlast : maxAttempts < p.attempts + 1) :
      Turned maxAttempts p q (some r) true
  | restarts {r : Nat} {lost : Bool} {now : UInt32} (hused : p.state ≠ 0) (htiming : p.timing ≠ 0)
      (hnext : q = { p with attempts := 0, registration := now, state := toBeSent }) :
      Turned maxAttempts p q (some r) lost
  | goesOn {r : Nat} (hused : p.state ≠ 0) (hr : r ≠ ack) (hr0 : r ≠ 0)
      (hmore : ¬maxAttempts < p.attempts + 1)
      (hnext : q = { p with state := r, attempts := p.attempts + 1 }) :
      Turned maxAttempts p q (some r) false

theorem Turned.state_ne_ack {p q : Packet} {outcome : Option Nat} {lost : Bool}
    (h : Turned maxAttempts p q outcome lost) (hack : p.state ≠ ack) : q.state ≠ ack := by
  have hzero : 0 ≠ ack := by decide
  have htoBeSent : toBeSent ≠ ack := by decide
  cases h with
  | rests hsame => rwa [hsame]
  | acknowledged _ hfree => rwa [hfree]
  | givenUp _ hfree => rwa [hfree]
  | restarts _ _ hnext => rwa [hnext]
  | goesOn _ hr _ _ hnext => rwa [hnext]

theorem losses_sendComposed (bus : Bus b) (packet : Memory) (length : Nat) (medium : Medium) :
    (bus.sendComposed packet length medium).2.countP (isLoss i) = 0 := by
  unfold Bus.sendComposed
  split_ifs <;> rfl

/-- The slot that is reset: a one-shot packet is removed, another one starts again. -/
theorem slot_resetPacket (hauto : bus.autoDelete = true) (now : UInt32) :
    ((bus.slot i).timing = 0 ∧ (bus.resetPacket i now).1 = true ∧
        ((bus.resetPacket i now).2.slot i).state = 0 ∧
        ((bus.resetPacket i now).2.slot i).attempts = 0) ∨
      ((bus.slot i).timing ≠ 0 ∧ (bus.resetPacket i now).1 = false ∧
        (bus.resetPacket i now).2.slot i =
          { bus.slot i with attempts := 0, registration := now, state := toBeSent }) := by
  rw [Bus.resetPacket]
  by_cases htiming : (bus.slot i).timing = 0
  · rw [if_pos htiming, if_pos hauto]
    refine Or.inl ⟨htiming, rfl, ?_, ?_⟩
    · rw [Bus.remove, Bus.slot_setSlot]
    · rw [Bus.remove, Bus.slot_setSlot]
  · rw [if_neg htiming]
    exact Or.inr ⟨htiming, rfl, Bus.slot_setSlot _ _ _⟩

/-- What is reset counts as much as it is occupied afterwards. -/
theorem count_resetPacket (hauto : bus.autoDelete = true) (now : UInt32) :
    1 - (bus.resetPacket i now).1.toNat =
      if Occupied (bus.resetPacket i now).2 i then 1 else 0 := by
  have htoBeSent : toBeSent ≠ 0 := by decide
  rcases slot_resetPacket (i := i) hauto now with ⟨-, hremoved, hstate, -⟩ | ⟨-, hkept, hslot⟩
  · have hfreed : ¬Occupied (bus.resetPacket i now).2 i := not_not_intro hstate
    rw [hremoved, if_neg hfreed]
    rfl
  · have hused : Occupied (bus.resetPacket i now).2 i := by
      rw [Occupied, hslot]
      exact htoBeSent
    rw [hkept, if_pos hused]
    rfl

variable (maxAttempts) in
theorem turned_updateSlot (hauto : bus.autoDelete = true) (hack : (bus.slot i).state ≠ ack)
    (turns : Fin b.maxPackets → Turn) :
    ∃ lost, Turned maxAttempts (bus.slot i) ((bus.updateSlot maxAttempts i (turns i)).bus.slot i)
        (attempt i (bus, .update turns)) lost ∧
      (bus.updateSlot maxAttempts i (turns i)).events.countP (isLoss i) = lost.toNat ∧
      (bus.updateSlot maxAttempts i (turns i)).result =
        if Occupied (bus.updateSlot maxAttempts i (turns i)).bus i then 1 else 0 := by
  have hattempt : attempt i (bus, .update turns) =
      if (bus.slot i).state = 0 ∨ (turns i).now - (bus.slot i).registration ≤
        (bus.slot i).timing + (turns i).backOff then none
      else some (turnSends bus i (turns i)).1 := by
    rw [attempt, turnSends, if_neg hack]
  have hsent : (turnSends bus i (turns i)).2.countP (isLoss i) = 0 := by
    rw [turnSends, if_neg hack]
    exact losses_sendComposed _ _ _ _
  have hslot : (turnSlot bus i (turns i)).slot i = { bus.slot i with
      state := (turnSends bus i (turns i)).1, attempts := (bus.slot i).attempts + 1 } :=
    Bus.slot_setSlot _ _ _
  rw [hattempt]
  unfold Bus.updateSlot
  simp only
  by_cases hfree : (bus.slot i).state = 0
  · rw [if_pos hfree, if_pos (Or.inl hfree)]
    exact ⟨false, .rests rfl, rfl, (if_neg (not_not_intro hfree)).symm⟩
  rw [if_neg hfree]
  by_cases hdue : (turns i).now - (bus.slot i).registration ≤
      (bus.slot i).timing + (turns i).backOff
  · rw [if_pos hdue, if_pos (Or.inr hdue)]
    exact ⟨false, .rests rfl, rfl, (if_pos hfree).symm⟩
  rw [if_neg hdue, if_neg (not_or.mpr ⟨hfree, hdue⟩)]
  have hautoTurn : (turnSlot bus i (turns i)).autoDelete = true := hauto
  have hreset := slot_resetPacket (i := i) hautoTurn (turns i).resetNow
  have hcount := count_resetPacket (i := i) hautoTurn (turns i).resetNow
  rw [hslot] at hreset
  by_cases hyields : (turnSends bus i (turns i)).1 = ack
  · rw [if_pos hyields]
    refine ⟨false, ?_, hsent, hcount⟩
    rcases hreset with ⟨htiming, -, hstate, hattempts⟩ | ⟨htiming, -, hnext⟩
    · exact .acknowledged hfree hstate hattempts htiming hyields
    · exact .restarts hfree htiming hnext
  rw [if_neg hyields]
  by_cases hlast : maxAttempts < (bus.slot i).attempts + 1
  · rw [if_pos hlast]
    refine ⟨true, ?_, ?_, hcount⟩
    · rcases hreset with ⟨htiming, -, hstate, hattempts⟩ | ⟨htiming, -, hnext⟩
      · exact .givenUp hfree hstate hattempts htiming hyields hlast
      · exact .restarts hfree htiming hnext
    · rw [List.countP_append, hsent]
      simp [isLoss]
  · rw [if_neg hlast]
    have hsends := turnSends_ne_zero bus i (turns i)
    have hused : Occupied (turnSlot bus i (turns i)) i := by
      rw [Occupied, hslot]
      exact hsends
    exact ⟨false, .goesOn hfree hyields hsends hlast hslot, hsent, (if_pos hused).symm⟩

/-! ## The loop of `update` -/

variable (maxAttempts) in
/-- A turn leaves the other slots and the reports about them alone. -/
theorem slot_updateSlot_ne {j : Fin b.maxPackets} (hj : j ≠ i) (turn : Turn) :
    (bus.updateSlot maxAttempts j turn).bus.slot i = bus.slot i := by
  rcases updateSlot_cases bus maxAttempts j turn with ⟨hbus, -⟩ | ⟨-, hbus | hbus, -⟩
  · rw [hbus]
  · rw [hbus]
    exact Bus.slot_setSlot_ne bus _ hj
  · rw [hbus, Bus.resetPacket]
    split_ifs
    · exact (remove_slot hj).trans (Bus.slot_setSlot_ne bus _ hj)
    · exact Bus.slot_setSlot_ne bus _ hj
    · exact (Bus.slot_setSlot_ne _ _ hj).trans (Bus.slot_setSlot_ne bus _ hj)

variable (maxAttempts) in
theorem losses_updateSlot_ne {j : Fin b.maxPackets} (hj : j ≠ i) (turn : Turn) :
    (bus.updateSlot maxAttempts j turn).events.countP (isLoss i) = 0 := by
  have hne : ¬(j : Nat) = i := fun heq => hj (Fin.ext heq)
  rw [List.countP_eq_zero]
  intro event hevent
  rcases Locations.event_updateSlot bus maxAttempts j turn event hevent with hnot | ⟨p, rfl⟩
  · cases event with
    | error code data customPointer =>
        simp only [isLoss, Bool.and_eq_true, beq_iff_eq, not_and]
        rintro rfl
        exact absurd rfl (hnot data customPointer)
    | sendFrame frame => exact Bool.false_ne_true
    | sendResponse response => exact Bool.false_ne_true
    | receiver payload info => exact Bool.false_ne_true
  · simp [isLoss, hne]

theorem attempt_congr {bus' : Bus b} (hslot : bus'.slot i = bus.slot i)
    (hmode : bus'.halfDuplex = bus.halfDuplex) (turns : Fin b.maxPackets → Turn) :
    attempt i (bus', .update turns) = attempt i (bus, .update turns) := by
  simp only [attempt, hslot, Bus.sendComposed, hmode]

variable (maxAttempts) in
/-- The loop over any list of slots, none of which occurs twice. -/
theorem turned_updateFrom (turns : Fin b.maxPackets → Turn) (slots : List (Fin b.maxPackets)) :
    ∀ bus : Bus b, slots.Nodup → bus.autoDelete = true → (bus.slot i).state ≠ ack →
      (i ∉ slots → (bus.updateFrom maxAttempts turns slots).bus.slot i = bus.slot i ∧
        ((bus.updateFrom maxAttempts turns slots).events.map Prod.snd).countP (isLoss i) = 0) ∧
      (i ∈ slots → ∃ lost,
        Turned maxAttempts (bus.slot i) ((bus.updateFrom maxAttempts turns slots).bus.slot i)
          (attempt i (bus, .update turns)) lost ∧
        ((bus.updateFrom maxAttempts turns slots).events.map Prod.snd).countP (isLoss i) =
          lost.toNat) := by
  induction slots with
  | nil =>
      intro bus _ _ _
      exact ⟨fun _ => ⟨rfl, rfl⟩, fun hmem => absurd hmem List.not_mem_nil⟩
  | cons j slots ih =>
      intro bus hnodup hauto hack
      obtain ⟨hj, hrest⟩ := List.nodup_cons.mp hnodup
      obtain ⟨packets, hbus⟩ := updateSlot_bus bus maxAttempts j (turns j)
      have hauto' : (bus.updateSlot maxAttempts j (turns j)).bus.autoDelete = true := by
        rw [hbus]
        exact hauto
      have hmode : (bus.updateSlot maxAttempts j (turns j)).bus.halfDuplex = bus.halfDuplex := by
        rw [hbus]
      have hevents : (bus.updateFrom maxAttempts turns (j :: slots)).events.map Prod.snd =
          (bus.updateSlot maxAttempts j (turns j)).events ++
            ((bus.updateSlot maxAttempts j (turns j)).bus.updateFrom maxAttempts turns
              slots).events.map Prod.snd := by
        rw [Bus.updateFrom, List.map_append, List.map_map]
        exact congrArg (· ++ _) (List.map_id _)
      rw [hevents, List.countP_append]
      by_cases hji : j = i
      · subst hji
        refine ⟨fun hnot => absurd List.mem_cons_self hnot, fun _ => ?_⟩
        obtain ⟨lost, hturned, hlosses, -⟩ := turned_updateSlot maxAttempts hauto hack turns
        obtain ⟨hslot, hnone⟩ := (ih _ hrest hauto' (hturned.state_ne_ack hack)).1 hj
        refine ⟨lost, ?_, ?_⟩
        · rw [Bus.updateFrom]
          simp only
          rw [hslot]
          exact hturned
        · rw [hnone, hlosses, Nat.add_zero]
      · have hslot : (bus.updateSlot maxAttempts j (turns j)).bus.slot i = bus.slot i :=
          slot_updateSlot_ne maxAttempts hji (turns j)
        have hnone : (bus.updateSlot maxAttempts j (turns j)).events.countP (isLoss i) = 0 :=
          losses_updateSlot_ne maxAttempts hji (turns j)
        have hlater := ih _ hrest hauto' (hslot ▸ hack)
        rw [hslot, attempt_congr hslot hmode] at hlater
        rw [hnone, Nat.zero_add]
        refine ⟨fun hnot => hlater.1 fun hmem => hnot (List.mem_cons_of_mem j hmem), fun hmem => ?_⟩
        exact hlater.2 ((List.mem_cons.mp hmem).resolve_left fun heq => hji heq.symm)

/-- `packets_count` is what the turns leave occupied. -/
theorem result_updateFrom (turns : Fin b.maxPackets → Turn) (slots : List (Fin b.maxPackets)) :
    ∀ bus : Bus b, slots.Nodup → bus.autoDelete = true → (∀ i, (bus.slot i).state ≠ ack) →
      (bus.updateFrom maxAttempts turns slots).result =
        slots.countP fun i => decide (Occupied (bus.updateFrom maxAttempts turns slots).bus i) := by
  induction slots with
  | nil => exact fun _ _ _ _ => rfl
  | cons j slots ih =>
      intro bus hnodup hauto hack
      obtain ⟨hj, hrest⟩ := List.nodup_cons.mp hnodup
      obtain ⟨packets, hbus⟩ := updateSlot_bus bus maxAttempts j (turns j)
      obtain ⟨lost, hturned, -, hresult⟩ := turned_updateSlot maxAttempts hauto (hack j) turns
      have hauto' : (bus.updateSlot maxAttempts j (turns j)).bus.autoDelete = true := by
        rw [hbus]
        exact hauto
      have hack' : ∀ i, ((bus.updateSlot maxAttempts j (turns j)).bus.slot i).state ≠ ack := by
        intro i
        by_cases hji : j = i
        · subst hji
          exact hturned.state_ne_ack (hack j)
        · rw [slot_updateSlot_ne maxAttempts hji]
          exact hack i
      have hsame := ((turned_updateFrom maxAttempts turns slots _ hrest hauto' (hack' j)).1 hj).1
      have hcount := ih _ hrest hauto' hack'
      have hoccupied : decide (Occupied (bus.updateFrom maxAttempts turns (j :: slots)).bus j) =
          decide (Occupied (bus.updateSlot maxAttempts j (turns j)).bus j) := by
        rw [decide_eq_decide, Occupied, Occupied, ← hsame]
        rfl
      rw [List.countP_cons, hoccupied, Nat.add_comm]
      simp only [decide_eq_true_eq]
      rw [← hresult]
      exact congrArg ((bus.updateSlot maxAttempts j (turns j)).result + ·) hcount

/-! ## The frame that leaves -/

section Frames

variable {index : Fin b.maxPackets}

theorem framesOf_append (events events' : List (Fin b.maxPackets × Event)) :
    framesOf index (events ++ events') = framesOf index events ++ framesOf index events' :=
  List.filterMap_append

theorem framesOf_map_ne {j : Fin b.maxPackets} (hj : j ≠ index) (events : List Event) :
    framesOf index (events.map fun event => (j, event)) = [] := by
  rw [List.eq_nil_iff_forall_not_mem]
  intro frame hmem
  rw [mem_framesOf, List.mem_map] at hmem
  obtain ⟨event, -, hpair⟩ := hmem
  exact hj (congrArg Prod.fst hpair)

/-- What leaves in a turn of `update`. -/
def leaves (bus : Bus b) (index : Fin b.maxPackets) (turn : Turn) : List (List UInt8) :=
  if bus.Sends index turn ∧ (bus.halfDuplex = true → turn.canStart = true) then
    [(bus.slot index).content.load 0 (bus.slot index).length]
  else []

theorem sent_sendComposed (packet : Memory) (length : Nat) (medium : Medium) :
    (bus.sendComposed packet length medium).2 =
      if bus.halfDuplex = true → medium.canStart = true then [.sendFrame (packet.load 0 length)]
      else [] := by
  unfold Bus.sendComposed
  cases bus.halfDuplex <;> cases medium.canStart <;> split_ifs <;> simp_all

theorem framesOf_updateSlot (turn : Turn) :
    framesOf index ((bus.updateSlot maxAttempts index turn).events.map
      fun event => (index, event)) = leaves bus index turn := by
  unfold Bus.updateSlot leaves
  simp only
  by_cases hfree : (bus.slot index).state = 0
  · rw [if_pos hfree, if_neg fun h => h.1.1 hfree]
    rfl
  rw [if_neg hfree]
  by_cases hearly : turn.now - (bus.slot index).registration ≤
      (bus.slot index).timing + turn.backOff
  · rw [if_pos hearly, if_neg fun h => UInt32.not_le.mpr h.1.2.1 hearly]
    rfl
  rw [if_neg hearly]
  by_cases hack : (bus.slot index).state = ack
  · rw [if_pos hack, if_pos rfl, if_neg fun h => h.1.2.2 hack]
    rfl
  rw [if_neg hack, sent_sendComposed]
  have hsends : bus.Sends index turn := ⟨hfree, UInt32.not_le.mp hearly, hack⟩
  simp only [hsends, true_and]
  split_ifs <;> simp [framesOf]

theorem leaves_congr {bus' : Bus b} (hslot : bus'.slot index = bus.slot index)
    (hmode : bus'.halfDuplex = bus.halfDuplex) (turn : Turn) :
    leaves bus' index turn = leaves bus index turn := by
  have hsends : bus'.Sends index turn ↔ bus.Sends index turn := by
    rw [Bus.Sends, Bus.Sends, hslot]
  simp only [leaves, hsends, hslot, hmode]

/-- What leaves for a slot does not depend on the other slots. -/
theorem framesOf_updateFrom (turns : Fin b.maxPackets → Turn) (slots : List (Fin b.maxPackets)) :
    ∀ bus : Bus b, slots.Nodup →
      framesOf index (bus.updateFrom maxAttempts turns slots).events =
        if index ∈ slots then leaves bus index (turns index) else [] := by
  induction slots with
  | nil => exact fun bus _ => rfl
  | cons j slots ih =>
      intro bus hnodup
      obtain ⟨hj, hrest⟩ := List.nodup_cons.mp hnodup
      rw [Bus.updateFrom, framesOf_append, ih _ hrest]
      by_cases hindex : j = index
      · subst hindex
        rw [framesOf_updateSlot, if_neg hj, if_pos List.mem_cons_self, List.append_nil]
      · obtain ⟨packets, hbus⟩ := updateSlot_bus bus maxAttempts j (turns j)
        have hmode : (bus.updateSlot maxAttempts j (turns j)).bus.halfDuplex =
            bus.halfDuplex := by
          rw [hbus]
        rw [framesOf_map_ne hindex, List.nil_append,
          leaves_congr (slot_updateSlot_ne maxAttempts hindex (turns j)) hmode]
        have hmem : index ∈ j :: slots ↔ index ∈ slots := by
          rw [List.mem_cons, or_iff_right fun h => hindex h.symm]
        simp only [hmem]

theorem framesOf_update (turns : Fin b.maxPackets → Turn) :
    framesOf index (bus.update maxAttempts turns).events = leaves bus index (turns index) := by
  rw [Bus.update, framesOf_updateFrom turns _ bus (List.nodup_finRange _),
    if_pos (List.mem_finRange index)]

/-- What leaves is the slot, if an attempt is made on a free medium. -/
theorem leaves_eq (hack : (bus.slot index).state ≠ ack) (turns : Fin b.maxPackets → Turn) :
    leaves bus index (turns index) =
      if (attempt index (bus, .update turns)).isSome ∧
          (bus.halfDuplex = true → (turns index).canStart = true) then
        [(bus.slot index).content.load 0 (bus.slot index).length]
      else [] := by
  have hsends : bus.Sends index (turns index) ↔
      (attempt index (bus, .update turns)).isSome = true := by
    rw [Bus.Sends, attempt]
    simp only
    split_ifs with hrests
    · refine ⟨fun h => ?_, fun h => Bool.noConfusion h⟩
      exact absurd hrests (not_or.mpr ⟨h.1, UInt32.not_le.mpr h.2.1⟩)
    · obtain ⟨hused, hdue⟩ := not_or.mp hrests
      exact ⟨fun _ => rfl, fun _ => ⟨hused, UInt32.not_le.mp hdue, hack⟩⟩
  simp only [leaves, hsends]

end Frames

/-! ## The history of a slot -/

section History

variable (i) (history : List (UsageStep b)) (bus : Bus b) (usage : Usage b)

theorem life_of_occupied (h : Occupied bus i) :
    life i (history ++ [(bus, usage)]) = life i history ++ [(bus, usage)] :=
  List.rtakeWhile_concat_pos _ _ _ (decide_eq_true h)

theorem life_of_free (h : ¬Occupied bus i) : life i (history ++ [(bus, usage)]) = [] :=
  List.rtakeWhile_concat_neg _ _ _ (by simpa using h)

theorem outcomes_of_occupied (h : Occupied bus i) :
    outcomes i (history ++ [(bus, usage)]) =
      outcomes i history ++ (attempt i (bus, usage)).toList := by
  rw [outcomes, life_of_occupied i history bus usage h, List.filterMap_append]
  cases hattempt : attempt i (bus, usage) <;> simp [hattempt, outcomes]

variable (maxAttempts) in
theorem reports_of_occupied (h : Occupied bus i) :
    reports maxAttempts i (history ++ [(bus, usage)]) =
      reports maxAttempts i history + lossesReported maxAttempts i (bus, usage) := by
  rw [reports, life_of_occupied i history bus usage h, List.map_append, List.sum_append]
  simp [reports]

theorem outcomes_of_free (h : ¬Occupied bus i) : outcomes i (history ++ [(bus, usage)]) = [] := by
  rw [outcomes, life_of_free i history bus usage h]
  rfl

theorem reports_of_free (h : ¬Occupied bus i) :
    reports maxAttempts i (history ++ [(bus, usage)]) = 0 := by
  rw [reports, life_of_free i history bus usage h]
  rfl

end History

/-! ## The other calls -/

section Calls

variable {info : PacketInfo} {payload : Payload} {timing now : UInt32}

variable (maxAttempts) in
theorem run_of_dispatched {usage : Usage b} (hproper : usage.Proper)
    (h : usage.dispatched bus = some (info, payload, timing, now)) :
    payload.length < 65500 ∧
      usage.run maxAttempts bus = bus.dispatch info payload timing now fail := by
  cases usage with
  | sendTo rxId sent header packetId rxPort at' =>
      simp only [Usage.dispatched, Option.some.injEq, Prod.mk.injEq] at h
      obtain ⟨rfl, rfl, rfl, rfl⟩ := h
      exact ⟨hproper, rfl⟩
  | send request sent at' =>
      simp only [Usage.dispatched, Option.some.injEq, Prod.mk.injEq] at h
      obtain ⟨rfl, rfl, rfl, rfl⟩ := h
      exact ⟨hproper, rfl⟩
  | reply sent at' =>
      simp only [Usage.dispatched, Option.some.injEq, Prod.mk.injEq] at h
      obtain ⟨rfl, rfl, rfl, rfl⟩ := h
      exact ⟨hproper, rfl⟩
  | sendRepeatedly request sent interval at' =>
      simp only [Usage.dispatched, Option.some.injEq, Prod.mk.injEq] at h
      obtain ⟨rfl, rfl, rfl, rfl⟩ := h
      exact ⟨hproper.1, rfl⟩
  | remove index => exact absurd h (Option.some_ne_none _).symm
  | removeAllPackets deviceId => exact absurd h (Option.some_ne_none _).symm
  | update turns => exact absurd h (Option.some_ne_none _).symm
  | receive delivery => exact absurd h (Option.some_ne_none _).symm

/-- The sum of the lengths of a payload that is dispatched does not wrap. -/
theorem composable_iff (hpayload : payload.length < 65500) :
    Composable bus info payload ↔ Frames.packetSize bus info payload < b.packetMaxLength := by
  have hover := packetOverhead_le (Tools.measure b (bus.completeInfo info) payload.length).header
  rw [Composable, Frames.packetSize, Layout.measure_newLength, Layout.totalLength_of_lt (by omega)]

theorem composed_iff (hpayload : payload.length < 65500) (destination : Memory) :
    (bus.composePacket info destination payload).result ≠ 0 ↔ Composable bus info payload := by
  have hover := packetOverhead_ge (Tools.measure b (bus.completeInfo info) payload.length).header
  have hmost := packetOverhead_le (Tools.measure b (bus.completeInfo info) payload.length).header
  rw [composable_iff hpayload, Frames.composePacket_result]
  split_ifs with hfits
  · refine iff_of_true ?_ hfits
    rw [Frames.packetSize, Layout.measure_newLength, Layout.totalLength_of_lt (by omega)]
    omega
  · exact iff_of_false (not_not_intro rfl) hfits

/-- A packet that is not composed is not written either. -/
theorem slot_dispatch_of_not_composable (hpayload : payload.length < 65500)
    (hlong : ¬Composable bus info payload) (k : Fin b.maxPackets) :
    (bus.dispatch info payload timing now fail).bus.slot k = bus.slot k := by
  cases hfind : bus.findSlot fail with
  | none => rw [Bus.dispatch, hfind]
  | some j =>
      by_cases hjk : j = k
      · subst hjk
        have hresult := not_not.mp (mt (composed_iff hpayload (bus.slot j).content).mp hlong)
        have hwrites : (bus.composePacket info (bus.slot j).content payload).writes = [] := by
          rw [Frames.composePacket_writes]
          rw [composable_iff hpayload, Nat.not_lt] at hlong
          exact Layout.composePacket_of_le _ _ hlong
        rw [Bus.dispatch, hfind]
        simp only
        rw [if_pos hresult, Bus.slot_setSlot, hwrites]
        rfl
      · exact dispatch_slot_ne info payload timing now hfind hjk

variable (timing now) in
theorem slot_dispatch_self (hpayload : payload.length < 65500) {k : Fin b.maxPackets}
    (hfind : bus.findSlot fail = some k) (hfits : Composable bus info payload) :
    (bus.dispatch info payload timing now fail).result = k ∧
      ((bus.dispatch info payload timing now fail).bus.slot k).state = toBeSent ∧
      ((bus.dispatch info payload timing now fail).bus.slot k).timing = timing ∧
      ((bus.dispatch info payload timing now fail).bus.slot k).attempts =
        (bus.slot k).attempts ∧
      HoldsComposed bus k info payload (bus.dispatch info payload timing now fail).bus := by
  have hresult := (composed_iff hpayload (bus.slot k).content).mpr hfits
  rw [Bus.dispatch, hfind]
  simp only
  rw [if_neg hresult, HoldsComposed, Bus.slot_setSlot]
  exact ⟨rfl, rfl, rfl, rfl, rfl, rfl⟩

theorem dispatches_dispatch (hpayload : payload.length < 65500) :
    Dispatches bus info payload timing (bus.dispatch info payload timing now fail) := by
  by_cases hfits : Composable bus info payload
  · cases hfind : bus.findSlot fail with
    | none =>
        have hfull : ∀ k, Occupied bus k := by
          intro k hfree
          obtain ⟨j, hj⟩ := exists_findSlot ⟨k, hfree⟩
          exact Option.some_ne_none j (hj.symm.trans hfind)
        rw [Bus.dispatch, hfind]
        exact Or.inr ⟨rfl, fun k => rfl, Or.inl hfull⟩
    | some k =>
        have htoBeSent : toBeSent ≠ 0 := by decide
        obtain ⟨hresult, hstate, htiming, -, hcomposed⟩ :=
          slot_dispatch_self timing now hpayload hfind hfits
        refine Or.inl ⟨k, not_not_intro (state_of_findSlot_fail hfind), ?_, hcomposed, htiming,
          hresult, ?_⟩
        · rw [Occupied, hstate]
          exact htoBeSent
        · exact fun j hj => dispatch_slot_ne info payload timing now hfind hj.symm
  · refine Or.inr ⟨?_, slot_dispatch_of_not_composable hpayload hfits, Or.inr hfits⟩
    rw [Bus.dispatch]
    cases bus.findSlot fail with
    | none => rfl
    | some k =>
        simp only
        rw [if_pos (not_not.mp (mt (composed_iff hpayload (bus.slot k).content).mp hfits))]

/-- What a call other than `update` makes of a slot, by whether it is one that removes packets. -/
inductive Touched (p q : Packet) (removes : Bool) : Prop
  | rests (hsame : q = p)
  | taken (hfree : p.state = 0) (hstate : q.state = toBeSent) (hattempts : q.attempts = p.attempts)
  | removed (hremoves : removes = true) (hfree : q.state = 0) (hattempts : q.attempts = 0)

theorem touched_dispatch (hpayload : payload.length < 65500) :
    Touched (bus.slot i) ((bus.dispatch info payload timing now fail).bus.slot i) false := by
  by_cases hfits : Composable bus info payload
  · cases hfind : bus.findSlot fail with
    | none =>
        rw [Bus.dispatch, hfind]
        exact .rests rfl
    | some k =>
        by_cases hki : k = i
        · subst hki
          obtain ⟨-, hstate, -, hattempts, -⟩ :=
            slot_dispatch_self timing now hpayload hfind hfits
          exact .taken (state_of_findSlot_fail hfind) hstate hattempts
        · exact .rests (dispatch_slot_ne info payload timing now hfind hki)
  · exact .rests (slot_dispatch_of_not_composable hpayload hfits i)

theorem losses_dispatch (packetIndex : Nat) :
    (bus.dispatch info payload timing now packetIndex).events.countP (isLoss i) = 0 := by
  have hfull : (packetsBufferFull == connectionLost) = false := by decide
  have hlong : (contentTooLong == connectionLost) = false := by decide
  have hcomposed (destination : Memory) :
      (bus.composePacket info destination payload).events.countP (isLoss i) = 0 := by
    unfold Bus.composePacket
    simp only
    split_ifs
    · rfl
    · simp [isLoss, hlong]
  unfold Bus.dispatch
  cases bus.findSlot packetIndex with
  | none => simp [isLoss, hfull]
  | some k =>
      simp only
      split_ifs <;> exact hcomposed _

theorem losses_receive (delivery : Delivery) :
    (bus.receive delivery).events.countP (isLoss i) = 0 := by
  rw [Bus.receive]
  split
  · rfl
  · split_ifs
    · rfl
    · rfl
    · rw [Bus.deliver]
      simp only
      split_ifs <;> rfl

theorem autoDelete_receive (delivery : Delivery) :
    (bus.receive delivery).bus.autoDelete = bus.autoDelete := by
  obtain ⟨data, info, records, hbus⟩ := receive_leaves bus delivery
  rw [hbus]

variable (i bus) in
theorem slot_remove (j : Fin b.maxPackets) :
    (bus.remove j).slot i = bus.slot i ∨
      ((bus.remove j).slot i).state = 0 ∧ ((bus.remove j).slot i).attempts = 0 := by
  by_cases hji : j = i
  · subst hji
    refine Or.inr ⟨?_, ?_⟩
    · rw [Bus.remove, Bus.slot_setSlot]
    · rw [Bus.remove, Bus.slot_setSlot]
  · exact Or.inl (remove_slot hji)

/-- A loop that removes the packets of some slots. -/
theorem slot_foldl {f : Bus b → Fin b.maxPackets → Bus b}
    (hf : ∀ bus j, f bus j = bus ∨ f bus j = bus.remove j) (slots : List (Fin b.maxPackets)) :
    ∀ bus : Bus b, (slots.foldl f bus).slot i = bus.slot i ∨
      ((slots.foldl f bus).slot i).state = 0 ∧ ((slots.foldl f bus).slot i).attempts = 0 := by
  induction slots with
  | nil => exact fun bus => Or.inl rfl
  | cons j slots ih =>
      intro bus
      rw [List.foldl_cons]
      rcases hf bus j with hsame | hremoved
      · rw [hsame]
        exact ih bus
      · rw [hremoved]
        rcases ih (bus.remove j) with hlater | hlater
        · rw [hlater]
          exact slot_remove i bus j
        · exact Or.inr hlater

/-- The body of the loop of `remove_all_packets`. -/
theorem removing (deviceId : UInt8) (bus : Bus b) (j : Fin b.maxPackets) :
    (if (bus.slot j).state = 0 then bus
      else if deviceId = 0 ∨ (bus.slot j).content 0 = deviceId then bus.remove j
      else bus) = bus ∨
    (if (bus.slot j).state = 0 then bus
      else if deviceId = 0 ∨ (bus.slot j).content 0 = deviceId then bus.remove j
      else bus) = bus.remove j := by
  split_ifs
  · exact Or.inl rfl
  · exact Or.inr rfl
  · exact Or.inl rfl

theorem autoDelete_foldl {f : Bus b → Fin b.maxPackets → Bus b}
    (hf : ∀ bus j, f bus j = bus ∨ f bus j = bus.remove j) (slots : List (Fin b.maxPackets)) :
    ∀ bus : Bus b, (slots.foldl f bus).autoDelete = bus.autoDelete := by
  induction slots with
  | nil => exact fun bus => rfl
  | cons j slots ih =>
      intro bus
      rw [List.foldl_cons, ih]
      rcases hf bus j with hsame | hremoved
      · rw [hsame]
      · rw [hremoved]
        rfl

end Calls

/-- The call is one that removes packets. -/
def Removes : Usage b → Bool
  | .remove _ | .removeAllPackets _ => true
  | _ => false

variable (maxAttempts i bus) in
theorem touched_run {usage : Usage b} (hproper : usage.Proper)
    (hother : ∀ turns, usage ≠ .update turns) :
    Touched (bus.slot i) ((usage.run maxAttempts bus).bus.slot i) (Removes usage) ∧
      (usage.run maxAttempts bus).events.countP (isLoss i) = 0 := by
  cases usage with
  | sendTo rxId sent header packetId rxPort now =>
      exact ⟨touched_dispatch hproper, losses_dispatch _⟩
  | send request sent now => exact ⟨touched_dispatch hproper, losses_dispatch _⟩
  | reply sent now => exact ⟨touched_dispatch hproper, losses_dispatch _⟩
  | sendRepeatedly request sent interval now =>
      exact ⟨touched_dispatch hproper.1, losses_dispatch _⟩
  | remove index =>
      refine ⟨?_, rfl⟩
      change Touched (bus.slot i) ((bus.removeAt index).slot i) true
      rw [Bus.removeAt]
      split_ifs with hindex
      · rcases slot_remove i bus ⟨index, hindex⟩ with hsame | ⟨hfree, hattempts⟩
        · exact .rests hsame
        · exact .removed rfl hfree hattempts
      · exact .rests rfl
  | removeAllPackets deviceId =>
      refine ⟨?_, rfl⟩
      rcases slot_foldl (i := i) (removing deviceId) (List.finRange b.maxPackets) bus with
        hsame | ⟨hfree, hattempts⟩
      · exact .rests hsame
      · exact .removed rfl hfree hattempts
  | update turns => exact absurd rfl (hother turns)
  | receive delivery =>
      refine ⟨?_, losses_receive delivery⟩
      change Touched (bus.slot i) ((bus.receive delivery).bus.slot i) false
      exact .rests (receive_slot bus delivery i)

variable (maxAttempts bus) in
theorem autoDelete_run (usage : Usage b) :
    (usage.run maxAttempts bus).bus.autoDelete = bus.autoDelete := by
  have hdispatch (info : PacketInfo) (payload : Payload) (timing now : UInt32) :
      (bus.dispatch info payload timing now fail).bus.autoDelete = bus.autoDelete := by
    have hbus : ∃ packets seed, (bus.dispatch info payload timing now fail).bus =
        { bus with packets := packets, packetIdSeed := seed } :=
      dispatch_bus info payload timing now fail
    obtain ⟨packets, seed, hseed⟩ := hbus
    rw [hseed]
  cases usage with
  | sendTo rxId sent header packetId rxPort now => exact hdispatch _ _ _ _
  | send request sent now => exact hdispatch _ _ _ _
  | reply sent now => exact hdispatch _ _ _ _
  | sendRepeatedly request sent interval now => exact hdispatch _ _ _ _
  | remove index =>
      change (bus.removeAt index).autoDelete = bus.autoDelete
      rw [Bus.removeAt]
      split_ifs <;> rfl
  | removeAllPackets deviceId =>
      change (bus.removeAllPackets deviceId).autoDelete = bus.autoDelete
      exact autoDelete_foldl (removing deviceId) _ bus
  | update turns =>
      obtain ⟨packets, hbus⟩ := updateFrom_bus maxAttempts turns (List.finRange b.maxPackets) bus
      change (bus.updateFrom maxAttempts turns (List.finRange b.maxPackets)).bus.autoDelete = _
      rw [hbus]
  | receive delivery => exact autoDelete_receive delivery

/-! ## What a history has come to -/

/-- What the history of the calls says about the slots. -/
structure Lives (maxAttempts : UInt8) (history : List (UsageStep b)) (bus : Bus b) : Prop where
  autoDelete : bus.autoDelete = true
  free : ∀ i, ¬Occupied bus i → (bus.slot i).attempts = 0
  state : ∀ i, (bus.slot i).state ≠ ack
  oneShot : ∀ i, Occupied bus i → (bus.slot i).timing = 0 →
    (bus.slot i).attempts.toNat = (outcomes i history).length ∧ Waiting maxAttempts i history

theorem lives_blank (h : Blank bus) : Lives maxAttempts [] bus where
  autoDelete := h.autoDelete
  free := fun i _ => h.attempts i
  state := by
    intro i hstate
    apply h.free i
    rw [Occupied, hstate]
    decide
  oneShot := fun i hused => absurd hused (h.free i)

section Step

variable {history : List (UsageStep b)} {usage : Usage b}

theorem turned_update (h : Lives maxAttempts history bus) (turns : Fin b.maxPackets → Turn)
    (i : Fin b.maxPackets) : ∃ lost,
    Turned maxAttempts (bus.slot i) ((Usage.run maxAttempts bus (.update turns)).bus.slot i)
      (attempt i (bus, .update turns)) lost ∧
      lossesReported maxAttempts i (bus, .update turns) = lost.toNat :=
  (turned_updateFrom maxAttempts turns _ bus (List.nodup_finRange _) h.autoDelete (h.state i)).2
    (List.mem_finRange i)

/-- The turn, without what it yields. -/
theorem turned_slot (h : Lives maxAttempts history bus) (turns : Fin b.maxPackets → Turn)
    (i : Fin b.maxPackets) : ∃ outcome lost, Turned maxAttempts (bus.slot i)
      ((Usage.run maxAttempts bus (.update turns)).bus.slot i) outcome lost := by
  obtain ⟨lost, hturned, -⟩ := turned_update h turns i
  exact ⟨_, lost, hturned⟩

variable (maxAttempts history usage) in
/-- A slot that is taken in the step has no attempts. -/
theorem waiting_of_free (hfree : ¬Occupied bus i) :
    outcomes i (history ++ [(bus, usage)]) = [] ∧
      Waiting maxAttempts i (history ++ [(bus, usage)]) := by
  have hnone := outcomes_of_free i history bus usage hfree
  refine ⟨hnone, ?_, ?_, reports_of_free i history bus usage hfree⟩
  · rw [hnone]
    exact List.not_mem_nil
  · rw [hnone]
    exact Nat.zero_le _

/-- A call without an attempt and without a report leaves a packet as it waits. -/
theorem waiting_of_none (hused : Occupied bus i) (h : Waiting maxAttempts i history)
    (hnone : attempt i (bus, usage) = none)
    (hreport : lossesReported maxAttempts i (bus, usage) = 0) :
    outcomes i (history ++ [(bus, usage)]) = outcomes i history ∧
      Waiting maxAttempts i (history ++ [(bus, usage)]) := by
  have hsame : outcomes i (history ++ [(bus, usage)]) = outcomes i history := by
    rw [outcomes_of_occupied i history bus usage hused, hnone]
    exact List.append_nil _
  refine ⟨hsame, ?_, ?_, ?_⟩
  · rw [hsame]
    exact h.outcomes
  · rw [hsame]
    exact h.length
  · rw [reports_of_occupied maxAttempts i history bus usage hused, h.reports, hreport]

/-- What a turn makes of a one-shot packet. -/
theorem oneShot_update (hmax : maxAttempts < 255) (h : Lives maxAttempts history bus)
    (turns : Fin b.maxPackets → Turn) (hused : Occupied bus i) (htiming : (bus.slot i).timing = 0) :
    let next := (Usage.run maxAttempts bus (.update turns)).bus
    let history' := history ++ [(bus, .update turns)]
    Occupied next i ∧ (next.slot i).attempts.toNat = (outcomes i history').length ∧
        Waiting maxAttempts i history' ∨
      ¬Occupied next i ∧ (next.slot i).attempts = 0 ∧
        (Acknowledged maxAttempts i history' ∨ GivenUp maxAttempts i history') := by
  simp only
  obtain ⟨hcount, hwaiting⟩ := h.oneShot i hused htiming
  obtain ⟨lost, hturned, hreport⟩ := turned_update h turns i
  have houtcomes := outcomes_of_occupied i history bus (.update turns) hused
  have hreports := reports_of_occupied maxAttempts i history bus (.update turns) hused
  rw [hreport, hwaiting.reports, Nat.zero_add] at hreports
  -- the counter cannot wrap, since it has not passed the maximum
  have hnext : ((bus.slot i).attempts + 1).toNat = (bus.slot i).attempts.toNat + 1 := by
    have hlength := hwaiting.length
    have hlt := UInt8.lt_iff_toNat_lt.mp hmax
    rw [← hcount] at hlength
    have hsmall : (255 : UInt8).toNat = 255 := rfl
    rw [UInt8.toNat_add]
    exact Nat.mod_eq_of_lt (show (bus.slot i).attempts.toNat + 1 < 256 by omega)
  cases hattempt : attempt i (bus, .update turns) with
  | none =>
      rw [hattempt] at hturned
      cases hturned with
      | rests hsame =>
          obtain ⟨hlength, hlater⟩ := waiting_of_none hused hwaiting hattempt hreport
          refine Or.inl ⟨?_, ?_, hlater⟩
          · rw [Occupied, hsame]
            exact hused
          · rw [hsame, hlength]
            exact hcount
  | some r =>
      rw [hattempt] at hturned houtcomes
      rw [Option.toList_some] at houtcomes
      cases hturned with
      | acknowledged _ hfree hattempts _ hr =>
          refine Or.inr ⟨not_not_intro hfree, hattempts, Or.inl ?_⟩
          rw [hr] at houtcomes
          exact ⟨outcomes i history, houtcomes, hwaiting.outcomes, hwaiting.length, hreports⟩
      | givenUp _ hfree hattempts _ hr hlast =>
          refine Or.inr ⟨not_not_intro hfree, hattempts, Or.inr ⟨?_, ?_, hreports⟩⟩
          · rw [houtcomes, List.mem_append, List.mem_singleton]
            exact not_or.mpr ⟨hwaiting.outcomes, fun heq => hr heq.symm⟩
          · have hover := UInt8.lt_iff_toNat_lt.mp hlast
            have hlength := hwaiting.length
            rw [hnext, hcount] at hover
            rw [houtcomes, List.length_append, List.length_singleton]
            omega
      | restarts _ hrepeated => exact absurd htiming hrepeated
      | goesOn _ hr hr0 hmore hslot =>
          have hle := UInt8.le_iff_toNat_le.mp (UInt8.not_lt.mp hmore)
          have hlength : (outcomes i (history ++ [(bus, .update turns)])).length =
              ((bus.slot i).attempts + 1).toNat := by
            rw [houtcomes, List.length_append, List.length_singleton, hnext, hcount]
          refine Or.inl ⟨?_, ?_, ?_, ?_, hreports⟩
          · rw [Occupied, hslot]
            exact hr0
          · rw [hslot, hlength]
          · rw [houtcomes, List.mem_append, List.mem_singleton]
            exact not_or.mpr ⟨hwaiting.outcomes, fun heq => hr heq.symm⟩
          · rw [hlength]
            exact hle

theorem attempt_of_other (hother : ∀ turns, usage ≠ .update turns) :
    attempt i (bus, usage) = none := by
  cases usage with
  | update turns => exact absurd rfl (hother turns)
  | _ => rfl

/-- A packet that is in the slot after a turn was there before. -/
theorem Turned.occupied {p q : Packet} {outcome : Option Nat} {lost : Bool}
    (h : Turned maxAttempts p q outcome lost) (hused : q.state ≠ 0) :
    p.state ≠ 0 ∧ q.timing = p.timing := by
  cases h with
  | rests hsame =>
      rw [hsame] at hused ⊢
      exact ⟨hused, rfl⟩
  | acknowledged _ hfree => exact absurd hfree hused
  | givenUp _ hfree => exact absurd hfree hused
  | restarts hbefore _ hnext => exact ⟨hbefore, by rw [hnext]⟩
  | goesOn hbefore _ _ _ hnext => exact ⟨hbefore, by rw [hnext]⟩

theorem Turned.attempts {p q : Packet} {outcome : Option Nat} {lost : Bool}
    (h : Turned maxAttempts p q outcome lost) (hbefore : ¬p.state ≠ 0 → p.attempts = 0)
    (hfree : ¬q.state ≠ 0) : q.attempts = 0 := by
  have htoBeSent : toBeSent ≠ 0 := by decide
  cases h with
  | rests hsame =>
      rw [hsame] at hfree ⊢
      exact hbefore hfree
  | acknowledged _ _ hattempts => exact hattempts
  | givenUp _ _ hattempts => exact hattempts
  | restarts _ _ hnext =>
      rw [hnext] at hfree
      exact absurd htoBeSent hfree
  | goesOn _ _ hr0 _ hnext =>
      rw [hnext] at hfree
      exact absurd hr0 hfree

theorem lives_update (hmax : maxAttempts < 255) (h : Lives maxAttempts history bus)
    (turns : Fin b.maxPackets → Turn) :
    Lives maxAttempts (history ++ [(bus, .update turns)])
      (Usage.run maxAttempts bus (.update turns)).bus where
  autoDelete := (autoDelete_run maxAttempts bus _).trans h.autoDelete
  free := by
    intro i hfree
    obtain ⟨outcome, lost, hturned⟩ := turned_slot h turns i
    exact hturned.attempts (h.free i) hfree
  state := by
    intro i
    obtain ⟨outcome, lost, hturned⟩ := turned_slot h turns i
    exact hturned.state_ne_ack (h.state i)
  oneShot := by
    intro i hused htiming
    obtain ⟨outcome, lost, hturned⟩ := turned_slot h turns i
    obtain ⟨hbefore, hsame⟩ := hturned.occupied hused
    rcases oneShot_update hmax h turns hbefore (hsame.symm.trans htiming) with
      ⟨-, hwaits⟩ | ⟨hfree, -⟩
    · exact hwaits
    · exact absurd hused hfree

theorem lives_other (h : Lives maxAttempts history bus) (hproper : usage.Proper)
    (hother : ∀ turns, usage ≠ .update turns) :
    Lives maxAttempts (history ++ [(bus, usage)]) (usage.run maxAttempts bus).bus where
  autoDelete := (autoDelete_run maxAttempts bus usage).trans h.autoDelete
  free := by
    intro i hfree
    have htoBeSent : toBeSent ≠ 0 := by decide
    cases (touched_run maxAttempts i bus hproper hother).1 with
    | rests hsame =>
        rw [Occupied, hsame] at hfree
        rw [hsame]
        exact h.free i hfree
    | taken _ hstate =>
        rw [Occupied, hstate] at hfree
        exact absurd htoBeSent hfree
    | removed _ _ hattempts => exact hattempts
  state := by
    intro i
    have hzero : 0 ≠ ack := by decide
    have htoBeSent : toBeSent ≠ ack := by decide
    cases (touched_run maxAttempts i bus hproper hother).1 with
    | rests hsame =>
        rw [hsame]
        exact h.state i
    | taken _ hstate => rwa [hstate]
    | removed _ hfree => rwa [hfree]
  oneShot := by
    intro i hused htiming
    obtain ⟨htouched, hlosses⟩ := touched_run maxAttempts i bus hproper hother
    cases htouched with
    | rests hsame =>
        rw [Occupied, hsame] at hused
        rw [hsame] at htiming ⊢
        obtain ⟨hcount, hwaiting⟩ := h.oneShot i hused htiming
        obtain ⟨hlength, hlater⟩ :=
          waiting_of_none hused hwaiting (attempt_of_other hother) hlosses
        rw [hlength]
        exact ⟨hcount, hlater⟩
    | taken hfree _ hattempts =>
        obtain ⟨hnone, hwaiting⟩ := waiting_of_free maxAttempts history usage
          (not_not_intro hfree)
        rw [hattempts, h.free i (not_not_intro hfree), hnone]
        exact ⟨rfl, hwaiting⟩
    | removed _ hfree => exact absurd hfree hused

theorem lives_step (hmax : maxAttempts < 255) (h : Lives maxAttempts history bus)
    (hproper : usage.Proper) :
    Lives maxAttempts (history ++ [(bus, usage)]) (usage.run maxAttempts bus).bus := by
  by_cases hupdate : ∃ turns, usage = .update turns
  · obtain ⟨turns, rfl⟩ := hupdate
    exact lives_update hmax h turns
  · exact lives_other h hproper fun turns heq => hupdate ⟨turns, heq⟩

end Step

theorem lives_run (hmax : maxAttempts < 255) {start : Bus b} (hblank : Blank start)
    (calls : List (Usage b)) (hproper : ∀ call ∈ calls, call.Proper) :
    Lives maxAttempts (Run.steps (usageStep maxAttempts) start calls)
      (Run.final (usageStep maxAttempts) start calls) := by
  induction calls using List.reverseRecOn with
  | nil => exact lives_blank hblank
  | append_singleton calls call ih =>
      rw [List.forall_mem_append, List.forall_mem_singleton] at hproper
      rw [Run.steps_append, Run.final_append]
      exact lives_step hmax (ih hproper.1) hproper.2

/-! ## The life cycle -/

section Cycle

variable {history : List (UsageStep b)} {usage : Usage b}

/-- The packet of a slot stays as it is as long as it is there. -/
theorem content_of_occupied (h : Lives maxAttempts history bus) (hproper : usage.Proper)
    (hused : Occupied bus i) (hstill : Occupied (usage.run maxAttempts bus).bus i) :
    ((usage.run maxAttempts bus).bus.slot i).content = (bus.slot i).content ∧
      ((usage.run maxAttempts bus).bus.slot i).length = (bus.slot i).length := by
  by_cases hupdate : ∃ turns, usage = .update turns
  · obtain ⟨turns, rfl⟩ := hupdate
    obtain ⟨outcome, lost, hturned⟩ := turned_slot h turns i
    cases hturned with
    | rests hsame => exact ⟨by rw [hsame], by rw [hsame]⟩
    | acknowledged _ hfree => exact absurd hfree hstill
    | givenUp _ hfree => exact absurd hfree hstill
    | restarts _ _ hnext => exact ⟨by rw [hnext], by rw [hnext]⟩
    | goesOn _ _ _ _ hnext => exact ⟨by rw [hnext], by rw [hnext]⟩
  · cases (touched_run maxAttempts i bus hproper
      fun turns heq => hupdate ⟨turns, heq⟩).1 with
    | rests hsame => exact ⟨by rw [hsame], by rw [hsame]⟩
    | taken hfree => exact absurd hfree hused
    | removed _ hfree => exact absurd hfree hstill

/-- Only `update` and the calls that remove packets end the life of one. -/
theorem oneShot_run (hmax : maxAttempts < 255) (h : Lives maxAttempts history bus)
    (hproper : usage.Proper) (hused : Occupied bus i) (htiming : (bus.slot i).timing = 0) :
    if Occupied (usage.run maxAttempts bus).bus i then
      Waiting maxAttempts i (history ++ [(bus, usage)])
    else Ends maxAttempts i (history ++ [(bus, usage)]) usage := by
  by_cases hupdate : ∃ turns, usage = .update turns
  · obtain ⟨turns, rfl⟩ := hupdate
    rcases oneShot_update hmax h turns hused htiming with ⟨hstill, -, hwaits⟩ | ⟨hfree, -, hends⟩
    · rw [if_pos hstill]
      exact hwaits
    · rw [if_neg hfree]
      exact hends
  · have hother : ∀ turns, usage ≠ .update turns := fun turns heq => hupdate ⟨turns, heq⟩
    obtain ⟨htouched, hlosses⟩ := touched_run maxAttempts i bus hproper hother
    have hwaits := (waiting_of_none hused (h.oneShot i hused htiming).2
      (attempt_of_other hother) hlosses).2
    split_ifs with hstill
    · exact hwaits
    have hremoves : Removes usage = true := by
      cases htouched with
      | rests hsame =>
          rw [Occupied, hsame] at hstill
          exact absurd hused hstill
      | taken hfree => exact absurd hfree hused
      | removed hremoves => exact hremoves
    cases usage with
    | update turns => exact absurd rfl (hother turns)
    | remove index => exact hwaits
    | removeAllPackets deviceId => exact hwaits
    | _ => exact absurd hremoves Bool.false_ne_true

theorem repeated_update (h : Lives maxAttempts history bus) (turns : Fin b.maxPackets → Turn)
    (hused : Occupied bus i) (htiming : (bus.slot i).timing ≠ 0) :
    Occupied (Usage.run maxAttempts bus (.update turns)).bus i := by
  have htoBeSent : toBeSent ≠ 0 := by decide
  obtain ⟨outcome, lost, hturned⟩ := turned_slot h turns i
  cases hturned with
  | rests hsame =>
      rw [Occupied, hsame]
      exact hused
  | acknowledged _ _ _ honce => exact absurd honce htiming
  | givenUp _ _ _ honce => exact absurd honce htiming
  | restarts _ _ hnext =>
      rw [Occupied, hnext]
      exact htoBeSent
  | goesOn _ _ hr0 _ hnext =>
      rw [Occupied, hnext]
      exact hr0

/-- The life cycle of the packets in the send buffer, wherever a program has come. -/
theorem life_cycle (maxAttempts : UInt8) (hmax : maxAttempts < 255) (start : Bus b)
    (hblank : Blank start) (calls : List (Usage b)) (hcalls : ∀ call ∈ calls, call.Proper)
    (call : Usage b) (hcall : call.Proper) :
    LifeCycle maxAttempts (Run.steps (usageStep maxAttempts) start calls)
      (Run.final (usageStep maxAttempts) start calls) call := by
  have hlives := lives_run hmax hblank calls hcalls
  exact {
    dispatches := by
      intro info payload timing now hdispatched
      obtain ⟨hpayload, hrun⟩ := run_of_dispatched maxAttempts hcall hdispatched
      rw [hrun]
      exact dispatches_dispatch hpayload
    keeps := fun i hused hstill => content_of_occupied hlives hcall hused hstill
    oneShot := fun i hused htiming => oneShot_run hmax hlives hcall hused htiming
    repeated := by
      rintro turns i rfl hused htiming
      exact repeated_update hlives turns hused htiming
    transmits := by
      rintro turns i rfl
      exact (framesOf_update turns).trans (leaves_eq (hlives.state i) turns)
    counts := by
      rintro turns rfl
      exact result_updateFrom turns _ _ (List.nodup_finRange _) hlives.autoDelete hlives.state }

end Cycle

/-- A letter that nobody answers to, and then somebody. -/
def letterCalls : List (Usage Duplicates.numbered) :=
  [.send (Duplicates.toDevice 45) Duplicates.letter 0,
    .update fun _ =>
      { canStart := true, response := fail, now := 10, backOff := 0, resetNow := 10 },
    .update fun _ =>
      { canStart := true, response := ack, now := 20, backOff := 0, resetNow := 20 }]

theorem life_cycle_letter :
    Blank (Duplicates.numberedDevice 44) ∧
      LifeCycle 10 (Run.steps (usageStep 10) (Duplicates.numberedDevice 44) letterCalls)
        (Run.final (usageStep 10) (Duplicates.numberedDevice 44) letterCalls)
        (.sendRepeatedly (Duplicates.toDevice 46) Duplicates.letter 1000 30) := by
  have hblank : Blank (Duplicates.numberedDevice 44) :=
    { autoDelete := rfl, free := by decide, attempts := by decide }
  have hshort : Duplicates.letter.length < 65500 := by decide
  refine ⟨hblank, life_cycle 10 (by decide) _ hblank letterCalls ?_ _ ⟨hshort, by decide⟩⟩
  simp [letterCalls, Usage.Proper, hshort]

end Pjon.Proofs.LifeCycle
