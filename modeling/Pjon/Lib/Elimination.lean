import Mathlib.Data.List.Basic
/-!
# Sums of bit vectors

Which of the sums of some vectors have no bit set at given places?  They are the sums of other
vectors, which are found as in an elimination: for each place one vector with a bit there is
added to the others that have one, and is used up.
-/

namespace Pjon.Lib.Elimination

variable {v w : Nat}

/-! ## Sums -/

/-- The sums of all choices of vectors. -/
def sums : List (BitVec w) → List (BitVec w)
  | [] => [0#w]
  | g :: gs => sums gs ++ (sums gs).map (g ^^^ ·)

variable {f : BitVec v → BitVec w} {g x y : BitVec w} {gs : List (BitVec w)} {i : Nat}

theorem mem_sums_cons : x ∈ sums (g :: gs) ↔ x ∈ sums gs ∨ ∃ y ∈ sums gs, g ^^^ y = x := by
  rw [sums, List.mem_append, List.mem_map]

/-- The values of `f` where a single bit is set, for the lowest `n` bits. -/
def images (f : BitVec v → BitVec w) : Nat → List (BitVec w)
  | 0 => []
  | n + 1 => f (BitVec.twoPow v n) :: images f n

/-- What an additive function takes is a sum of what it takes where a single bit is set. -/
theorem mem_sums_images (hf : ∀ x y, f (x ^^^ y) = f x ^^^ f y) (n : Nat) :
    ∀ x : BitVec v, (∀ i, n ≤ i → x.getLsbD i = false) → f x ∈ sums (images f n) := by
  induction n with
  | zero =>
      intro x hx
      have hzero : x = x ^^^ x := by
        rw [BitVec.xor_self]
        exact BitVec.eq_of_getLsbD_eq fun i _ => by rw [hx i (Nat.zero_le i), BitVec.getLsbD_zero]
      rw [hzero, hf, BitVec.xor_self]
      exact List.mem_singleton_self _
  | succ n ih =>
      intro x hx
      rw [images, mem_sums_cons]
      cases hbit : x.getLsbD n with
      | false =>
          refine Or.inl (ih x fun i hi => ?_)
          rcases Nat.eq_or_lt_of_le hi with rfl | hlt
          · exact hbit
          · exact hx i hlt
      | true =>
          refine Or.inr ⟨_, ih (BitVec.twoPow v n ^^^ x) fun i hi => ?_, ?_⟩
          · rw [BitVec.getLsbD_xor, BitVec.getLsbD_twoPow]
            rcases Nat.eq_or_lt_of_le hi with rfl | hlt
            · have hn := BitVec.lt_of_getLsbD hbit
              simp [hbit, hn]
            · simp [hx i hlt, Nat.ne_of_lt hlt]
          · rw [← hf, ← BitVec.xor_assoc, BitVec.xor_self, BitVec.zero_xor]

/-! ## One place -/

/-- Adds a vector with a bit at place `i` to one that has a bit there too. -/
def cancel (i : Nat) (g y : BitVec w) : BitVec w := if y.getLsbD i then g ^^^ y else y

/-- Vectors whose sums have no bit at place `i`. -/
def clear (i : Nat) : List (BitVec w) → List (BitVec w)
  | [] => []
  | g :: gs => if g.getLsbD i then gs.map (cancel i g) else g :: clear i gs

theorem cancel_xor (h : BitVec w) : cancel i g (h ^^^ y) = cancel i g h ^^^ cancel i g y := by
  unfold cancel
  rw [BitVec.getLsbD_xor]
  cases h.getLsbD i <;> cases y.getLsbD i
  · rfl
  · show g ^^^ (h ^^^ y) = h ^^^ (g ^^^ y)
    rw [← BitVec.xor_assoc, BitVec.xor_comm g h, BitVec.xor_assoc]
  · exact (BitVec.xor_assoc ..).symm
  · show h ^^^ y = (g ^^^ h) ^^^ (g ^^^ y)
    rw [BitVec.xor_comm g h, BitVec.xor_assoc, ← BitVec.xor_assoc g g, BitVec.xor_self,
      BitVec.zero_xor]

theorem mem_sums_map_cancel (hy : y ∈ sums gs) : cancel i g y ∈ sums (gs.map (cancel i g)) := by
  induction gs generalizing y with
  | nil =>
      rw [List.mem_singleton.mp hy, cancel, BitVec.getLsbD_zero, if_neg Bool.false_ne_true]
      exact List.mem_singleton_self _
  | cons h gs ih =>
      rw [List.map_cons, mem_sums_cons]
      rcases mem_sums_cons.mp hy with hy | ⟨z, hz, rfl⟩
      · exact Or.inl (ih hy)
      · exact Or.inr ⟨_, ih hz, (cancel_xor h).symm⟩

/-- The sums without a bit at the place are sums of the vectors that are left. -/
theorem mem_sums_clear (hx : x ∈ sums gs) (hbit : x.getLsbD i = false) : x ∈ sums (clear i gs) := by
  induction gs generalizing x with
  | nil => exact hx
  | cons g gs ih =>
      rw [clear]
      rcases mem_sums_cons.mp hx with hx | ⟨y, hy, rfl⟩
      · split_ifs
        · have hsame : cancel i g x = x := by rw [cancel, hbit, if_neg Bool.false_ne_true]
          exact hsame ▸ mem_sums_map_cancel hx
        · exact mem_sums_cons.mpr (Or.inl (ih hx hbit))
      · rw [BitVec.getLsbD_xor] at hbit
        split_ifs with hg
        · have hsame : cancel i g y = g ^^^ y := by
            rw [hg, Bool.true_xor, Bool.not_eq_false'] at hbit
            rw [cancel, hbit, if_pos rfl]
          exact hsame ▸ mem_sums_map_cancel hy
        · rw [Bool.not_eq_true] at hg
          rw [hg, Bool.false_xor] at hbit
          exact mem_sums_cons.mpr (Or.inr ⟨y, ih hy hbit, rfl⟩)

/-! ## All places -/

def clearAll (places : List Nat) (gs : List (BitVec w)) : List (BitVec w) :=
  places.foldl (fun gs i => clear i gs) gs

theorem mem_sums_clearAll {places : List Nat} (hx : x ∈ sums gs)
    (hclear : ∀ i ∈ places, x.getLsbD i = false) : x ∈ sums (clearAll places gs) := by
  induction places generalizing gs with
  | nil => exact hx
  | cons i places ih =>
      obtain ⟨hi, hplaces⟩ := List.forall_mem_cons.mp hclear
      exact ih (mem_sums_clear hx hi) hplaces

end Pjon.Lib.Elimination
