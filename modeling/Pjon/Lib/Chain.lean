import Mathlib.Data.List.Chain
/-!
# Chains of steps

A chain takes a step from each of its members to the next.  What holds at its start is
carried along it, and a counter that every step raises from below a bound ends it.
-/

namespace Pjon.Lib.Chain

variable {α : Type*}

/-- Where steps keep an invariant under which good and allowed steps are the same, a chain
takes good steps exactly if it takes allowed ones. -/
theorem isChain_good_iff {step good allowed : α → α → Prop} {inv : α → Prop}
    (hiff : ∀ x y, inv x → step x y → (good x y ↔ allowed x y))
    (hstep : ∀ x y, inv x → step x y → inv y) {x : α} {l : List α} (h : inv x)
    (hchain : (x :: l).IsChain step) :
    (x :: l).IsChain good ↔ (x :: l).IsChain allowed := by
  induction l generalizing x with
  | nil => simp
  | cons y l ih =>
      rw [List.isChain_cons_cons] at hchain
      rw [List.isChain_cons_cons, List.isChain_cons_cons, hiff x y h hchain.1,
        ih (hstep x y h hchain.1) hchain.2]

/-- A condition on where the steps start. -/
theorem isChain_left_iff {p : α → Prop} (l : List α) :
    (l.IsChain fun x _ => p x) ↔ ∀ x ∈ l.dropLast, p x := by
  induction l with
  | nil => simp
  | cons x l ih =>
      cases l with
      | nil => simp
      | cons y l =>
          rw [List.isChain_cons_cons, ih, List.dropLast_cons_cons, List.forall_mem_cons]

/-- There are no more steps than the counter can be raised. -/
theorem length_le (rank : α → Nat) (bound : Nat) {x : α} {l : List α}
    (hchain : (x :: l).IsChain fun x y => rank x < bound ∧ rank x < rank y) :
    l.length ≤ bound - rank x := by
  induction l generalizing x with
  | nil => exact Nat.zero_le _
  | cons y l ih =>
      rw [List.isChain_cons_cons] at hchain
      obtain ⟨⟨hbound, hraised⟩, hrest⟩ := hchain
      have hlength := ih hrest
      rw [List.length_cons]
      omega

end Pjon.Lib.Chain
