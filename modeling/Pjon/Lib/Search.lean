import Mathlib.Data.List.FinRange
/-!
# Searches that can be continued

A search over the indices below a bound that starts at a cursor and is continued
behind each match.  Continued to its end, it visits every match once, in order.
-/

namespace Pjon.Lib.Search

variable {n : Nat}

/-- The first match at or behind the cursor. -/
def first (p : Fin n → Bool) (start : Nat) : Option (Fin n) :=
  (List.finRange n).find? fun i => decide (start ≤ i) && p i

/-- All matches at or behind the cursor. -/
def matchesFrom (p : Fin n → Bool) (start : Nat) : List (Fin n) :=
  (List.finRange n).filter fun i => decide (start ≤ i) && p i

section Sorted

variable {α : Type} [LinearOrder α]

/-- In an ordered list what passes a test starts with the first that does. -/
theorem filter_of_find? {q : α → Bool} {l : List α} (hsorted : l.Pairwise (· < ·)) {a : α}
    (h : l.find? q = some a) : l.filter q = a :: l.filter fun x => decide (a < x) && q x := by
  induction l with
  | nil => simp at h
  | cons x l ih =>
      obtain ⟨hx, hl⟩ := List.pairwise_cons.mp hsorted
      by_cases hq : q x = true
      · rw [List.find?_cons_of_pos hq, Option.some.injEq] at h
        subst h
        rw [List.filter_cons_of_pos hq, List.filter_cons_of_neg (by simp)]
        congr 1
        apply List.filter_congr
        intro y hy
        rw [decide_eq_true (hx y hy), Bool.true_and]
      · rw [List.find?_cons_of_neg hq] at h
        rw [List.filter_cons_of_neg hq, List.filter_cons_of_neg (by simp [hq])]
        exact ih hl h

end Sorted

/-- Only one element of the list gives anything. -/
theorem filterMap_eq_singleton {α β : Type} {f : α → Option β} {l : List α} {a : α} {y : β}
    (hnodup : l.Nodup) (hmem : a ∈ l) (ha : f a = some y) (hothers : ∀ x, x ≠ a → f x = none) :
    l.filterMap f = [y] := by
  obtain ⟨before, after, rfl⟩ := List.append_of_mem hmem
  have hsplit := List.nodup_append.mp hnodup
  have hbefore : before.filterMap f = [] := by
    rw [List.filterMap_eq_nil_iff]
    intro x hx
    exact hothers x fun heq => hsplit.2.2 x hx a List.mem_cons_self heq
  have hafter : after.filterMap f = [] := by
    rw [List.filterMap_eq_nil_iff]
    intro x hx
    apply hothers x
    intro heq
    exact (List.nodup_cons.mp hsplit.2.1).1 (heq ▸ hx)
  rw [List.filterMap_append, List.filterMap_cons_some ha, hbefore, hafter, List.nil_append]

variable {p : Fin n → Bool} {start : Nat}

theorem mem_matchesFrom {i : Fin n} : i ∈ matchesFrom p start ↔ start ≤ i ∧ p i = true := by
  simp [matchesFrom, List.mem_filter]

theorem nodup_matchesFrom (p : Fin n → Bool) (start : Nat) : (matchesFrom p start).Nodup :=
  (List.nodup_finRange n).filter _

theorem first_eq_none_iff : first p start = none ↔ matchesFrom p start = [] := by
  rw [first, matchesFrom, List.find?_eq_none, List.filter_eq_nil_iff]

theorem first_spec {i : Fin n} (h : first p start = some i) : start ≤ i ∧ p i = true := by
  have htest := List.find?_some h
  simpa using htest

/-- The search is continued behind the match. -/
theorem matchesFrom_of_first {i : Fin n} (h : first p start = some i) :
    matchesFrom p start = i :: matchesFrom p (i + 1) := by
  have hstart := (first_spec h).1
  rw [matchesFrom, filter_of_find? (List.pairwise_lt_finRange n) h, matchesFrom]
  congr 1
  apply List.filter_congr
  intro j _
  have hlt : i < j ↔ (i : Nat) + 1 ≤ j := Fin.lt_def
  by_cases hij : i < j
  · have hbehind := hlt.mp hij
    simp only [decide_eq_true hij, decide_eq_true hbehind, Bool.true_and,
      decide_eq_true (by omega : start ≤ (j : Nat))]
  · have hnot : ¬(i : Nat) + 1 ≤ j := fun hle => hij (hlt.mpr hle)
    simp only [decide_eq_false hij, decide_eq_false hnot, Bool.false_and]

/-- Every match is visited once, and nothing else. -/
theorem count_matchesFrom (i : Fin n) :
    (matchesFrom p start).count i = if start ≤ i ∧ p i = true then 1 else 0 := by
  by_cases h : i ∈ matchesFrom p start
  · rw [(nodup_matchesFrom p start).count, if_pos h, if_pos (mem_matchesFrom.mp h)]
  · rw [List.count_eq_zero_of_not_mem h, if_neg (fun hm => h (mem_matchesFrom.mpr hm))]

end Pjon.Lib.Search
