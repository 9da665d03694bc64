import Mathlib.Data.List.Nodup
/-!
# Steps towards a place

Tokens that each become a list of tokens with every step, as messages do that are passed on.
Where a token becomes exactly one other, which is one step closer, there is one token at a
time, and none behind the last place.
-/

namespace Pjon.Lib.Descent

variable {τ : Type}

/-- What the tokens have become after as many steps. -/
def spread (next : Nat → τ → List τ) : Nat → List τ → List τ
  | 0, tokens => tokens
  | steps + 1, tokens => (spread next steps tokens).flatMap (next steps)

/-- Tokens that are so many steps away from their place come one step closer, and go no further
than there. -/
structure Closer (next : Nat → τ → List τ) (away : Nat → Nat → τ → Prop) : Prop where
  step : ∀ step distance token, away step (distance + 1) token →
    ∃ token', next step token = [token'] ∧ away (step + 1) distance token'
  stop : ∀ step token, away step 0 token → next step token = []

variable {next : Nat → τ → List τ} {away : Nat → Nat → τ → Prop}

theorem spread_nil_of_spread_nil {tokens : List τ} {steps : Nat}
    (h : spread next steps tokens = []) (more : Nat) :
    spread next (steps + more) tokens = [] := by
  induction more with
  | zero => exact h
  | succ more ih => rw [← Nat.add_assoc, spread, ih, List.flatMap_nil]

/-- There is one token on the way. -/
theorem spread_of_le (h : Closer next away) {token : τ} {distance : Nat}
    (haway : away 0 distance token) {steps : Nat} (hsteps : steps ≤ distance) :
    ∃ token', spread next steps [token] = [token'] ∧ away steps (distance - steps) token' := by
  induction steps with
  | zero => exact ⟨token, rfl, haway⟩
  | succ steps ih =>
      obtain ⟨token', hspread, haway'⟩ := ih (Nat.le_of_succ_le hsteps)
      have hleft : distance - steps = (distance - (steps + 1)) + 1 := by omega
      rw [hleft] at haway'
      obtain ⟨token'', hnext, haway''⟩ := h.step steps _ token' haway'
      refine ⟨token'', ?_, haway''⟩
      rw [spread, hspread, List.flatMap_singleton, hnext]

/-- There is none behind its end. -/
theorem spread_of_lt (h : Closer next away) {token : τ} {distance : Nat}
    (haway : away 0 distance token) {steps : Nat} (hsteps : distance < steps) :
    spread next steps [token] = [] := by
  obtain ⟨token', hspread, hlast⟩ := spread_of_le h haway (Nat.le_refl distance)
  rw [Nat.sub_self] at hlast
  have hover : spread next (distance + 1) [token] = [] := by
    rw [spread, hspread, List.flatMap_singleton, h.stop distance token' hlast]
  have hmore : steps = distance + 1 + (steps - (distance + 1)) := by omega
  rw [hmore]
  exact spread_nil_of_spread_nil hover _

/-! ## Sums with one term -/

variable {α β : Type}

/-- Only one element of the list contributes anything. -/
theorem flatMap_eq_of_single {l : List α} (hnodup : l.Nodup) {a : α} (ha : a ∈ l)
    {f : α → List β} (h : ∀ b ∈ l, b ≠ a → f b = []) : l.flatMap f = f a := by
  induction l with
  | nil => exact absurd ha List.not_mem_nil
  | cons c l ih =>
      obtain ⟨hc, hl⟩ := List.nodup_cons.mp hnodup
      rw [List.flatMap_cons]
      rcases List.mem_cons.mp ha with rfl | hmem
      · have hrest : l.flatMap f = [] := List.flatMap_eq_nil_iff.mpr fun b hb =>
          h b (List.mem_cons_of_mem a hb) fun heq => hc (heq ▸ hb)
        rw [hrest, List.append_nil]
      · have hne : c ≠ a := fun heq => hc (heq ▸ hmem)
        rw [h c List.mem_cons_self hne, List.nil_append]
        exact ih hl hmem fun b hb => h b (List.mem_cons_of_mem c hb)

end Pjon.Lib.Descent
