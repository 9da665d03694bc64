import Pjon.Lib.Clock
import Pjon.Spec.ResponseWait
/-!
# Waits that end too early or too late

The condition of the loops takes the time-out off the clock before it compares with the start
of the wait.  The difference wraps when the counter has not got as far as the time-out, and
the wait ends at once; the counter wraps when the wait began shortly before that, and the wait
goes on until it comes round again.
-/

namespace Pjon.Proofs.ResponseWait

open Pjon.Lib Pjon.Model Pjon.Spec

/-! ## One reading -/

section Reading

variable {timeout start : UInt32} {elapsed : Nat}

theorem goesOn_iff :
    start + UInt32.ofNat elapsed - timeout ≤ start ↔
      Clock.taken (2 ^ 32) timeout.toNat start.toNat elapsed ≤ start.toNat := by
  rw [UInt32.le_iff_toNat_le, Clock.toNat_add_ofNat_sub]

/-- At the time-out itself the loop goes on. -/
theorem goesOn_at (h : elapsed = timeout.toNat) :
    start + UInt32.ofNat elapsed - timeout ≤ start := by
  rw [goesOn_iff, h, Clock.taken_self start.toNat_lt timeout.toNat_lt]

/-- The condition of the loop is right about a reading if and only if the reading lies in the
window. -/
theorem inWindow_iff :
    InWindow timeout start elapsed ↔
      (elapsed < timeout.toNat → start + UInt32.ofNat elapsed - timeout ≤ start) ∧
        (timeout.toNat < elapsed → ¬start + UInt32.ofNat elapsed - timeout ≤ start) := by
  have hbefore : elapsed < timeout.toNat → (timeout.toNat ≤ start.toNat + elapsed ↔
      start + UInt32.ofNat elapsed - timeout ≤ start) := fun h => by
    rw [goesOn_iff, Clock.taken_le_iff_of_lt start.toNat_lt timeout.toNat_lt h]
  have hbehind : timeout.toNat < elapsed → ((0 < (elapsed - timeout.toNat) % 2 ^ 32 ∧
      start.toNat + (elapsed - timeout.toNat) % 2 ^ 32 < 2 ^ 32) ↔
      ¬start + UInt32.ofNat elapsed - timeout ≤ start) := fun h => by
    rw [goesOn_iff, Nat.not_le, Clock.lt_taken_iff_of_lt start.toNat_lt timeout.toNat_lt h]
  exact and_congr (forall_congr' hbefore) (forall_congr' hbehind)

end Reading

/-! ## The loop -/

section Loop

variable {ι : Type} {waits : Nat → Bool} {body : Nat → ι → Nat} {silent : ι → Bool}
  {timeout start : UInt32}

theorem readInWindow_nil : ReadInWindow silent timeout start [] := by
  intro before v after h
  exact absurd h.symm (List.append_ne_nil_of_right_ne_nil before (List.cons_ne_nil v after))

/-- The first reading has to lie in the window, and the others if the loop comes to them. -/
theorem readInWindow_cons (v : Nat × ι) (arrivals : List (Nat × ι)) :
    ReadInWindow silent timeout start (v :: arrivals) ↔
      InWindow timeout start v.1 ∧
        (v.1 ≤ timeout.toNat ∧ silent v.2 = true → ReadInWindow silent timeout start arrivals) := by
  constructor
  · intro h
    refine ⟨h [] v arrivals rfl fun u hu => absurd hu List.not_mem_nil, fun hv => ?_⟩
    intro before u after harrivals hbefore
    apply h (v :: before) u after
    · rw [harrivals, List.cons_append]
    · exact List.forall_mem_cons.mpr ⟨hv, hbefore⟩
  · rintro ⟨hfirst, hrest⟩ before u after harrivals hbefore
    cases before with
    | nil =>
        obtain ⟨rfl, -⟩ := List.cons.inj harrivals
        exact hfirst
    | cons w before =>
        obtain ⟨rfl, hafter⟩ := List.cons.inj harrivals
        obtain ⟨hv, hbefore⟩ := List.forall_mem_cons.mp hbefore
        exact hrest hv before u after hafter hbefore

theorem respectsTimeout_nil (arrivals : List (Nat × ι)) (response : Nat) :
    RespectsTimeout timeout arrivals { response := response } := by
  intro v hv
  rw [List.zip_nil_right] at hv
  exact absurd hv List.not_mem_nil

theorem respectsTimeout_cons (v : Nat × ι) (arrivals : List (Nat × ι)) (response : Nat)
    (test : Bool) (tests : List Bool) :
    RespectsTimeout timeout (v :: arrivals) { response := response, tests := test :: tests } ↔
      ((v.1 < timeout.toNat → test = true) ∧ (timeout.toNat < v.1 → test = false)) ∧
        RespectsTimeout timeout arrivals { response := response, tests := tests } := by
  unfold RespectsTimeout
  rw [List.map_cons, List.zip_cons_cons, List.forall_mem_cons]

theorem waitLoop_of_response {response : Nat} (h : ¬waits response = true)
    (turns : List (UInt32 × ι)) :
    waitLoop waits body timeout start response turns = { response := response } := by
  cases turns with
  | nil => rfl
  | cons turn turns => rw [waitLoop, if_neg h]

/-- A loop that waits for a response respects the time-out if and only if it reads the clock in
the window. -/
theorem waitLoop_respects_iff
    (hsilent : ∀ response arrival, waits response = true →
      waits (body response arrival) = silent arrival)
    (arrivals : List (Nat × ι)) {response : Nat} (hwaits : waits response = true) :
    RespectsTimeout timeout arrivals
        (waitLoop waits body timeout start response (turnsFrom start arrivals)) ↔
      ReadInWindow silent timeout start arrivals := by
  induction arrivals generalizing response with
  | nil => exact iff_of_true (respectsTimeout_nil [] response) readInWindow_nil
  | cons v arrivals ih =>
      -- what the loop does behind a turn that is not too late
      have hrest : RespectsTimeout timeout arrivals (waitLoop waits body timeout start
            (body response v.2) (turnsFrom start arrivals)) ↔
          (silent v.2 = true → ReadInWindow silent timeout start arrivals) := by
        have hnext := hsilent response v.2 hwaits
        by_cases hquiet : silent v.2 = true
        · rw [ih (hnext.trans hquiet), imp_iff_right hquiet]
        · rw [waitLoop_of_response (by rwa [hnext])]
          exact iff_of_true (respectsTimeout_nil arrivals _) fun h => absurd h hquiet
      rw [readInWindow_cons, inWindow_iff, turnsFrom, List.map_cons, ← turnsFrom, waitLoop,
        if_pos hwaits]
      by_cases hgoesOn : start + UInt32.ofNat v.1 - timeout ≤ start
      · rw [if_pos hgoesOn, respectsTimeout_cons, hrest]
        by_cases hlate : timeout.toNat < v.1
        · exact iff_of_false (fun h => absurd (h.1.2 hlate) Bool.true_eq_false_eq_False)
            fun h => h.1.2 hlate hgoesOn
        · have hearly : v.1 ≤ timeout.toNat := Nat.le_of_not_lt hlate
          simp only [hgoesOn, hearly, hlate, true_and, implies_true, not_true_eq_false,
            false_implies, and_self]
      · rw [if_neg hgoesOn, respectsTimeout_cons]
        have hne : v.1 ≠ timeout.toNat := fun heq => hgoesOn (goesOn_at heq)
        by_cases hearly : v.1 < timeout.toNat
        · exact iff_of_false (fun h => absurd (h.1.1 hearly) Bool.false_ne_true)
            fun h => hgoesOn (h.1.1 hearly)
        · refine iff_of_true ⟨⟨fun h => absurd h hearly, fun _ => rfl⟩,
            respectsTimeout_nil arrivals response⟩ ⟨⟨fun h => absurd h hearly, fun _ => hgoesOn⟩,
              fun h => absurd h.1 ?_⟩
          omega

end Loop

/-! ## The two strategies -/

/-- `receive_response` respects its time-out if and only if it reads the clock in the window. -/
theorem receiveResponse_respects_iff (start : UInt32) :
    (∀ arrivals : List (Nat × Option Nat),
        RespectsTimeout OverSampling.osTimeout arrivals
            (OverSampling.receiveResponse start (turnsFrom start arrivals)) ↔
          ReadInWindow hearsNothing OverSampling.osTimeout start arrivals) ∧
      ∀ (asResponseTimeout : UInt32) (arrivals : List (Nat × Nat)),
        RespectsTimeout asResponseTimeout arrivals
            (AnalogSampling.receiveResponse asResponseTimeout start (turnsFrom start arrivals)) ↔
          ReadInWindow hearsNoAck asResponseTimeout start arrivals := by
  constructor
  · intro arrivals
    apply waitLoop_respects_iff _ arrivals rfl
    intro response arrival hwaits
    rw [beq_iff_eq] at hwaits
    rw [hwaits, hearsNothing]
  · intro asResponseTimeout arrivals
    apply waitLoop_respects_iff _ arrivals rfl
    intro response received _
    rfl

/-- The clock is read once, and nothing has arrived. -/
def noSync (elapsed : Nat) : List (Nat × Option Nat) := [(elapsed, none)]

def noByte (elapsed : Nat) : List (Nat × Nat) := [(elapsed, fail)]

/-- Right behind a wrap of the counter, as after the boot, the wait ends a microsecond after its
start; right before a wrap it goes on behind the time-out. -/
theorem waits_around_wrap :
    ¬RespectsTimeout OverSampling.osTimeout (noSync 1)
        (OverSampling.receiveResponse 0 (turnsFrom 0 (noSync 1))) ∧
      ¬RespectsTimeout OverSampling.osTimeout (noSync 10001)
        (OverSampling.receiveResponse 4294967295 (turnsFrom 4294967295 (noSync 10001))) ∧
      ¬RespectsTimeout 15000 (noByte 1)
        (AnalogSampling.receiveResponse 15000 0 (turnsFrom 0 (noByte 1))) ∧
      ¬RespectsTimeout 15000 (noByte 15001)
        (AnalogSampling.receiveResponse 15000 4294967295
          (turnsFrom 4294967295 (noByte 15001))) := by
  unfold RespectsTimeout
  decide +kernel

end Pjon.Proofs.ResponseWait
