import Mathlib.Tactic.SplitIfs
/-!
# Searches for the best element

A loop over a list that keeps the best element so far with its key, and skips elements that
have no key.  What it finds is the element whose key is better than the bound it starts with
and better than the keys of all others.
-/

namespace Pjon.Lib.Best

variable {α β : Type} (key : α → Option β) (better : β → β → Prop) [DecidableRel better]

/-- The bound is the key of the best element so far. -/
def search : β → Option α → List α → Option α
  | _, found, [] => found
  | bound, found, y :: l =>
    match key y with
    | none => search bound found l
    | some k => if better k bound then search k (some y) l else search bound found l

variable {key better}

theorem search_of_none {bound : β} {found : Option α} {l : List α}
    (h : ∀ y ∈ l, ∀ k, key y = some k → ¬better k bound) :
    search key better bound found l = found := by
  induction l with
  | nil => rfl
  | cons y l ih =>
      rw [List.forall_mem_cons] at h
      rw [search]
      cases hy : key y with
      | none => exact ih h.2
      | some k =>
          simp only
          rw [if_neg (h.1 k hy)]
          exact ih h.2

theorem search_eq_some {bound x : β} {found : Option α} {m : α} {l : List α} (hm : m ∈ l)
    (hkey : key m = some x) (hbound : better x bound)
    (hbest : ∀ y ∈ l, ∀ k, key y = some k → ¬better k x ∧ (y = m ∨ better x k)) :
    search key better bound found l = some m := by
  induction l generalizing bound found with
  | nil => exact absurd hm List.not_mem_nil
  | cons y l ih =>
      rw [List.forall_mem_cons] at hbest
      rw [search]
      by_cases hy : y = m
      · subst hy
        rw [hkey]
        simp only
        rw [if_pos hbound]
        exact search_of_none fun z hz k hk => (hbest.2 z hz k hk).1
      · have hlater : m ∈ l := (List.mem_cons.mp hm).resolve_left fun heq => hy heq.symm
        cases hk : key y with
        | none => exact ih hlater hbound hbest.2
        | some k =>
            have hworse : better x k := (hbest.1 k hk).2.resolve_left hy
            simp only
            split_ifs
            · exact ih hlater hworse hbest.2
            · exact ih hlater hbound hbest.2

theorem search_some_ne_none (bound : β) (found : α) (l : List α) :
    search key better bound (some found) l ≠ none := by
  induction l generalizing bound found with
  | nil => exact Option.some_ne_none found
  | cons y l ih =>
      rw [search]
      cases hy : key y with
      | none => exact ih bound found
      | some k =>
          simp only
          split_ifs
          · exact ih k y
          · exact ih bound found

/-- Something is found if one key is better than the bound. -/
theorem search_ne_none {bound x : β} (found : Option α) {m : α} {l : List α} (hm : m ∈ l)
    (hkey : key m = some x) (hbound : better x bound) :
    search key better bound found l ≠ none := by
  induction l generalizing found with
  | nil => exact absurd hm List.not_mem_nil
  | cons y l ih =>
      rw [search]
      rcases List.mem_cons.mp hm with rfl | hlater
      · rw [hkey]
        simp only
        rw [if_pos hbound]
        exact search_some_ne_none x m l
      · cases hy : key y with
        | none => exact ih found hlater
        | some k =>
            simp only
            split_ifs
            · exact search_some_ne_none k y l
            · exact ih found hlater

/-- What is found has a key. -/
theorem key_of_search {bound : β} {found : Option α} {m : α} {l : List α}
    (h : search key better bound found l = some m) :
    found = some m ∨ m ∈ l ∧ ∃ k, key m = some k := by
  induction l generalizing bound found with
  | nil => exact Or.inl h
  | cons y l ih =>
      have hlater {bound' : β} (h' : search key better bound' found l = some m) :
          found = some m ∨ m ∈ y :: l ∧ ∃ k, key m = some k :=
        (ih h').imp_right fun hmem => ⟨List.mem_cons_of_mem y hmem.1, hmem.2⟩
      rw [search] at h
      cases hy : key y with
      | none =>
          rw [hy] at h
          exact hlater h
      | some k =>
          rw [hy] at h
          simp only at h
          split_ifs at h
          · rcases ih h with hfound | hmem
            · obtain rfl := Option.some.inj hfound
              exact Or.inr ⟨List.mem_cons_self, k, hy⟩
            · exact Or.inr ⟨List.mem_cons_of_mem y hmem.1, hmem.2⟩
          · exact hlater h

end Pjon.Lib.Best
