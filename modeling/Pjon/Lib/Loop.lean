import Mathlib.Tactic.SplitIfs
/-!
# Counted loops that may return early

`for(i = 0; i < limit; i++) step` over a state that holds the limit, where a turn
may return.  What the loop does is read off what one turn does: it returns from
the first turn that does not pass, or every turn passes.
-/

namespace Pjon.Lib

variable {σ ε : Type}

/-- At most `todo` turns, from turn `i` on. -/
def boundedLoop (limit : σ → Nat) (step : Nat → σ → Except ε σ) :
    Nat → Nat → σ → Except ε σ
  | 0, _, st => .ok st
  | todo + 1, i, st =>
    if i < limit st then (step i st).bind (boundedLoop limit step todo (i + 1)) else .ok st

theorem boundedLoop_verdict (limit : σ → Nat) (step : Nat → σ → Except ε σ)
    (inv : Nat → σ → Prop) (passes : Nat → Prop) (returns : Nat → ε → Prop) (stop : Nat)
    (hok : ∀ i st, inv i st → i < limit st → passes i →
      ∃ st', step i st = .ok st' ∧ inv (i + 1) st')
    (herror : ∀ i st, inv i st → i < limit st → ¬passes i →
      ∃ e, step i st = .error e ∧ returns i e)
    (hlimit : ∀ i st, inv i st → (∀ k < i, passes k) → i ≤ stop → (i < limit st ↔ i < stop)) :
    ∀ (todo i : Nat) (st : σ), inv i st → (∀ k < i, passes k) → i ≤ stop → stop ≤ i + todo →
      (∃ final, boundedLoop limit step todo i st = .ok final ∧ inv stop final ∧
        ∀ k < stop, passes k) ∨
      (∃ k e, boundedLoop limit step todo i st = .error e ∧ returns k e ∧ k < stop ∧
        ¬passes k ∧ ∀ j < k, passes j) := by
  intro todo
  induction todo with
  | zero =>
      intro i st hinv hall hi htodo
      have hend : i = stop := by omega
      subst hend
      exact Or.inl ⟨st, rfl, hinv, hall⟩
  | succ todo ih =>
      intro i st hinv hall hi htodo
      rw [boundedLoop]
      by_cases hturn : i < limit st
      · have hstop : i < stop := (hlimit i st hinv hall hi).mp hturn
        rw [if_pos hturn]
        by_cases hp : passes i
        · obtain ⟨st', hstep, hnext⟩ := hok i st hinv hturn hp
          have hall' : ∀ k < i + 1, passes k := by
            intro k hk
            rcases Nat.eq_or_lt_of_le (Nat.le_of_lt_succ hk) with rfl | hlt
            · exact hp
            · exact hall k hlt
          rw [hstep]
          exact ih (i + 1) st' hnext hall' hstop (by omega)
        · obtain ⟨e, hstep, hreturns⟩ := herror i st hinv hturn hp
          rw [hstep]
          exact Or.inr ⟨i, e, rfl, hreturns, hstop, hp, hall⟩
      · have hend : i = stop := by
          have hnot : ¬i < stop := fun h => hturn ((hlimit i st hinv hall hi).mpr h)
          omega
        subst hend
        rw [if_neg hturn]
        exact Or.inl ⟨st, rfl, hinv, hall⟩

/-- What every turn keeps holds where the loop ends. -/
theorem boundedLoop_ok {limit : σ → Nat} {step : Nat → σ → Except ε σ} {inv : Nat → σ → Prop}
    (hstep : ∀ i st st', inv i st → i < limit st → step i st = .ok st' → inv (i + 1) st') :
    ∀ (todo i : Nat) (st final : σ), inv i st → boundedLoop limit step todo i st = .ok final →
      ∃ k, inv k final ∧ (limit final ≤ k ∨ k = i + todo) := by
  intro todo
  induction todo with
  | zero =>
      intro i st final hinv hloop
      obtain rfl := Except.ok.inj hloop
      exact ⟨i, hinv, Or.inr rfl⟩
  | succ todo ih =>
      intro i st final hinv hloop
      rw [boundedLoop] at hloop
      split_ifs at hloop with hturn
      · cases hnext : step i st with
        | error e =>
            rw [hnext] at hloop
            cases hloop
        | ok st' =>
            rw [hnext] at hloop
            obtain ⟨k, hk, hend⟩ := ih (i + 1) st' final (hstep i st st' hinv hturn hnext) hloop
            exact ⟨k, hk, hend.imp_right fun heq => by omega⟩
      · obtain rfl := Except.ok.inj hloop
        exact ⟨i, hinv, Or.inl (Nat.le_of_not_lt hturn)⟩

end Pjon.Lib
