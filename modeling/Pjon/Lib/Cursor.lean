import Mathlib.Data.List.Basic
import Mathlib.Tactic.Conv
/-!
# Searches with a cursor that wraps

A search returns a match and where to go on behind it.  The cursor has one value that says
that the search is over, and is counted modulo the number of its values: a match that is
too far back in the list sends the search to a place where it has been before.
-/

namespace Pjon.Lib.Cursor

variable {α β γ δ : Type}

/-! ## Calls that are made one after the other -/

/-- What the calls return, each made with the cursor that the one before it left. -/
def answers (find : γ → Option α × γ) : γ → Nat → Option α
  | start, 0 => (find start).1
  | start, k + 1 => answers find (find start).2 k

/-- The calls return the elements of the list in order, and nothing from then on. -/
def Enumerates (find : γ → Option α × γ) (start : γ) (l : List α) : Prop :=
  ∀ k, answers find start k = l[k]?

/-- Two searches whose cursors stay related return the same. -/
theorem answers_rel {find : γ → Option α × γ} {other : δ → Option α × δ} {rel : γ → δ → Prop}
    (hstep : ∀ c d, rel c d → (find c).1 = (other d).1 ∧ rel (find c).2 (other d).2)
    {c : γ} {d : δ} (h : rel c d) (k : Nat) : answers find c k = answers other d k := by
  induction k generalizing c d with
  | zero => exact (hstep c d h).1
  | succ k ih => exact ih (hstep c d h).2

/-- A search that keeps finding something never says that there is nothing more. -/
theorem answers_ne_none {find : γ → Option α × γ} {inv : γ → Prop}
    (hstep : ∀ c, inv c → (find c).1 ≠ none ∧ inv (find c).2) {c : γ} (h : inv c) (k : Nat) :
    answers find c k ≠ none := by
  induction k generalizing c with
  | zero => exact (hstep c h).1
  | succ k ih => exact ih (hstep c h).2

theorem length_le_of_enumerates {find : γ → Option α × γ} {start : γ} {l : List α}
    (h : Enumerates find start l) {k : Nat} (hk : answers find start k = none) : l.length ≤ k :=
  List.getElem?_eq_none_iff.mp ((h k).symm.trans hk)

/-! ## The next match -/

section Next

variable (q : β → Bool) (l : List β)

/-- The first match at or behind a place of the list, with its place. -/
def next (c : Nat) : Option (β × Nat) := (l.zipIdx.drop c).find? fun entry => q entry.1

theorem drop_zipIdx (k c : Nat) : (l.zipIdx k).drop c = (l.drop c).zipIdx (k + c) := by
  induction c generalizing l k with
  | zero => rfl
  | succ c ih =>
      cases l with
      | nil => rfl
      | cons a l =>
          rw [List.zipIdx_cons, List.drop_succ_cons, List.drop_succ_cons, ih]
          congr 1
          omega

variable {q l} {c : Nat} {entry : β × Nat}

theorem next_eq_none_iff : next q l c = none ↔ (l.drop c).filter q = [] := by
  rw [next, drop_zipIdx, List.find?_eq_none, List.filter_eq_nil_iff]
  conv_rhs => rw [← List.zipIdx_map_fst (0 + c) (l.drop c), List.forall_mem_map]

theorem next_split (h : next q l c = some entry) :
    ∃ before after, l.drop c = before ++ entry.1 :: after ∧ entry.2 = c + before.length ∧
      q entry.1 = true ∧ ∀ b ∈ before, ¬q b = true := by
  rw [next, drop_zipIdx, Nat.zero_add, List.find?_eq_some_iff_append] at h
  obtain ⟨hmatch, before, after, hsplit, hbefore⟩ := h
  obtain ⟨first, rest, hl, rfl, hrest⟩ := List.zipIdx_eq_append_iff.mp hsplit
  obtain ⟨b, after', rfl, rfl, -⟩ := List.zipIdx_eq_cons_iff.mp hrest.symm
  refine ⟨first, after', hl, rfl, hmatch, fun a ha => ?_⟩
  rw [← List.zipIdx_map_fst c first] at ha
  obtain ⟨row, hrow, rfl⟩ := List.mem_map.mp ha
  simpa using hbefore row hrow

/-- The match is the first one, and the others are behind it. -/
theorem next_spec (h : next q l c = some entry) :
    c ≤ entry.2 ∧ l[entry.2]? = some entry.1 ∧ q entry.1 = true ∧
      (l.drop c).filter q = entry.1 :: (l.drop (entry.2 + 1)).filter q := by
  obtain ⟨before, after, hl, hplace, hmatch, hbefore⟩ := next_split h
  have hat : l[entry.2]? = some entry.1 := by
    rw [hplace, ← List.getElem?_drop, hl, List.getElem?_append_right (Nat.le_refl _), Nat.sub_self,
      List.getElem?_cons_zero]
  have hrest : l.drop (entry.2 + 1) = after := by
    rw [hplace, Nat.add_assoc, ← List.drop_drop, hl, ← List.drop_drop, List.drop_left,
      List.drop_succ_cons, List.drop_zero]
  refine ⟨by omega, hat, hmatch, ?_⟩
  rw [hl, hrest, List.filter_append, List.filter_eq_nil_iff.mpr hbefore, List.nil_append,
    List.filter_cons_of_pos hmatch]

/-- In two lists one behind the other the second is searched if nothing is found in the first. -/
theorem next_append (q : β → Bool) (first second : List β) (c : Nat) :
    next q (first ++ second) c = (next q first c).or
      ((next q second (c - first.length)).map fun entry => (entry.1, first.length + entry.2)) := by
  have hsecond : ((second.zipIdx first.length).drop (c - first.length)).find?
      (fun entry => q entry.1) =
        (next q second (c - first.length)).map fun entry => (entry.1, first.length + entry.2) := by
    rw [next, List.zipIdx_eq_map_add, ← List.map_drop, List.find?_map]
    rfl
  rw [← hsecond, next, List.zipIdx_append, Nat.zero_add, List.drop_append, List.find?_append,
    List.length_zipIdx]
  rfl

/-- What is found in front of a place is found by a search that ends there. -/
theorem next_take {m : Nat}
    (hfar : next q l c = none ∨ ∃ entry, next q l c = some entry ∧ entry.2 < m) :
    next q (l.take m) c = next q l c := by
  by_cases hm : l.length ≤ m
  · rw [List.take_of_length_le hm]
  · have hlength : (l.take m).length = m := by
      rw [List.length_take]
      omega
    have hsplit := next_append q (l.take m) (l.drop m) c
    rw [List.take_append_drop, hlength] at hsplit
    cases htake : next q (l.take m) c with
    | some entry => rw [hsplit, htake, Option.some_or]
    | none =>
        rw [htake, Option.none_or] at hsplit
        rcases hfar with hnone | ⟨entry, hentry, hlt⟩
        · exact hnone.symm
        · obtain ⟨row, -, rfl⟩ := Option.map_eq_some_iff.mp (hsplit.symm.trans hentry)
          omega

end Next

/-! ## The wrapping search -/

section Wrapping

variable (q : β → Bool) (out : β → α) (m : Nat) (l : List β)

/-- The search with a cursor of `m + 1` values, of which `m` says that it is over. -/
def wrapping (c : Nat) : Option α × Nat :=
  if c = m then (none, m)
  else
    match next q l c with
    | some entry => (some (out entry.1), (entry.2 + 1) % (m + 1))
    | none => (none, m)

variable {q out m l}

theorem wrapping_over : wrapping q out m l m = (none, m) := if_pos rfl

/-- In a list that the cursor can count nothing is lost. -/
theorem answers_of_short (hl : ∀ i b, l[i]? = some b → q b = true → i < m) {c : Nat}
    (hc : c ≤ m) (k : Nat) :
    answers (wrapping q out m l) c k = (((l.drop c).filter q).map out)[k]? := by
  have hover : (l.drop m).filter q = [] := by
    rw [List.filter_eq_nil_iff]
    intro b hb hmatch
    obtain ⟨i, hi⟩ := List.mem_iff_getElem?.mp hb
    rw [List.getElem?_drop] at hi
    have hlt := hl _ b hi hmatch
    omega
  induction k generalizing c with
  | zero =>
      rw [answers, wrapping]
      split_ifs with hm
      · rw [hm, hover]
        rfl
      · cases hnext : next q l c with
        | none => rw [next_eq_none_iff.mp hnext]; rfl
        | some entry => rw [(next_spec hnext).2.2.2]; rfl
  | succ k ih =>
      rw [answers, wrapping]
      split_ifs with hm
      · rw [ih (Nat.le_refl m), hm, hover]
        rfl
      · cases hnext : next q l c with
        | none => rw [ih (Nat.le_refl m), hover, next_eq_none_iff.mp hnext]; rfl
        | some entry =>
            obtain ⟨-, hat, hmatch, hfilter⟩ := next_spec hnext
            have hlt := hl _ _ hat hmatch
            have hmod : (entry.2 + 1) % (m + 1) = entry.2 + 1 := Nat.mod_eq_of_lt (by omega)
            rw [hfilter, List.map_cons, List.getElem?_cons_succ,
              ← ih (show entry.2 + 1 ≤ m by omega)]
            exact congrArg (fun c => answers (wrapping q out m l) c k) hmod

theorem wrapping_grows (hl : ∀ i b, l[i]? = some b → q b = true → i < m) (c : Nat) :
    (wrapping q out m l c).2 = m ∨ c < (wrapping q out m l c).2 := by
  rw [wrapping]
  split_ifs with hm
  · exact Or.inl rfl
  · cases hnext : next q l c with
    | none => exact Or.inl rfl
    | some entry =>
        obtain ⟨hle, hat, hmatch, -⟩ := next_spec hnext
        have hlt := hl _ _ hat hmatch
        have hmod : (entry.2 + 1) % (m + 1) = entry.2 + 1 := Nat.mod_eq_of_lt (by omega)
        exact Or.inr (by show c < (entry.2 + 1) % (m + 1); omega)

/-- The cursor never takes the value that says that the search is over, and there is always a
match to go to. -/
theorem answers_of_wrapped {i : Nat} {b : β} (hat : l[i]? = some b) (hmatch : q b = true)
    (hm : m ≤ i) (hlength : l.length ≤ 2 * m) (hlast : ∀ b, l[m - 1]? = some b → ¬q b = true)
    (k : Nat) : answers (wrapping q out m l) 0 k ≠ none := by
  have hi : i < l.length := (List.getElem?_eq_some_iff.mp hat).1
  have hstep : ∀ c, c < m →
      (wrapping q out m l c).1 ≠ none ∧ (wrapping q out m l c).2 < m := by
    intro c hc
    rw [wrapping, if_neg (by omega)]
    cases hnext : next q l c with
    | none =>
        refine absurd hmatch (List.filter_eq_nil_iff.mp (next_eq_none_iff.mp hnext) b ?_)
        refine List.mem_iff_getElem?.mpr ⟨i - c, ?_⟩
        rw [List.getElem?_drop, show c + (i - c) = i by omega, hat]
    | some entry =>
        obtain ⟨-, hplace, hq, -⟩ := next_spec hnext
        have hentry : entry.2 < l.length := (List.getElem?_eq_some_iff.mp hplace).1
        have hne : entry.2 ≠ m - 1 := fun heq => hlast _ (heq ▸ hplace) hq
        refine ⟨by simp, ?_⟩
        by_cases hlt : entry.2 + 1 < m + 1
        · show (entry.2 + 1) % (m + 1) < m
          rw [Nat.mod_eq_of_lt hlt]
          omega
        · show (entry.2 + 1) % (m + 1) < m
          rw [Nat.mod_eq_sub_mod (by omega), Nat.mod_eq_of_lt (by omega)]
          omega
  exact answers_ne_none hstep (by omega) k

/-- The search stops at the last place that the cursor can be behind. -/
theorem answers_of_stop {b : β} (hat : l[m - 1]? = some b) (hmatch : q b = true) (hm : 0 < m)
    (k : Nat) :
    answers (wrapping q out m l) 0 k = (((l.take m).filter q).map out)[k]? := by
  have hshort : ∀ i b, (l.take m)[i]? = some b → q b = true → i < m := by
    intro i b hi _
    have hlt := (List.getElem?_eq_some_iff.mp hi).1
    rw [List.length_take] at hlt
    omega
  rw [show (l.take m).filter q = ((l.take m).drop 0).filter q by rw [List.drop_zero],
    ← answers_of_short hshort (Nat.zero_le m)]
  have hstep : ∀ c d, (c = d ∧ c ≤ m) →
      (wrapping q out m l c).1 = (wrapping q out m (l.take m) d).1 ∧
        (wrapping q out m l c).2 = (wrapping q out m (l.take m) d).2 ∧
          (wrapping q out m l c).2 ≤ m := by
    rintro c _ ⟨rfl, hc⟩
    by_cases hover : c = m
    · subst hover
      rw [wrapping_over, wrapping_over]
      exact ⟨rfl, rfl, Nat.le_refl c⟩
    · have hbound : ∃ entry, next q l c = some entry ∧ entry.2 < m := by
        cases hnext : next q l c with
        | none =>
            refine absurd hmatch (List.filter_eq_nil_iff.mp (next_eq_none_iff.mp hnext) b ?_)
            refine List.mem_iff_getElem?.mpr ⟨m - 1 - c, ?_⟩
            rw [List.getElem?_drop, show c + (m - 1 - c) = m - 1 by omega, hat]
        | some entry =>
            refine ⟨entry, rfl, ?_⟩
            obtain ⟨before, after, hl, hplace, -, hbefore⟩ := next_split hnext
            by_contra hfar
            refine absurd hmatch (hbefore b (List.mem_iff_getElem?.mpr ⟨m - 1 - c, ?_⟩))
            have hplaced : (before ++ entry.1 :: after)[m - 1 - c]? = some b := by
              rw [← hl, List.getElem?_drop, show c + (m - 1 - c) = m - 1 by omega, hat]
            rwa [List.getElem?_append_left (by omega)] at hplaced
      have hnext := next_take (Or.inr hbound)
      obtain ⟨entry, hentry, hlt⟩ := hbound
      rw [wrapping, wrapping, if_neg hover, if_neg hover, hnext, hentry]
      refine ⟨rfl, rfl, ?_⟩
      show (entry.2 + 1) % (m + 1) ≤ m
      exact Nat.le_of_lt_succ (Nat.mod_lt _ (Nat.succ_pos m))
  exact answers_rel hstep ⟨rfl, Nat.zero_le m⟩ k

/-- All matches are returned in order, each once, if and only if the cursor can be behind each
of them. -/
theorem enumerates_iff (hm : 0 < m) (hlength : l.length ≤ 2 * m) :
    Enumerates (wrapping q out m l) 0 ((l.filter q).map out) ↔
      ∀ i b, l[i]? = some b → q b = true → i < m := by
  constructor
  · intro h i b hat hmatch
    by_contra hfar
    by_cases hlast : ∃ b, l[m - 1]? = some b ∧ q b = true
    · obtain ⟨b', hat', hmatch'⟩ := hlast
      have hnone : answers (wrapping q out m l) 0 ((l.take m).filter q).length = none := by
        have hend : (((l.take m).filter q).map out).length ≤ ((l.take m).filter q).length :=
          Nat.le_of_eq (List.length_map out)
        exact (answers_of_stop hat' hmatch' hm _).trans (List.getElem?_eq_none_iff.mpr hend)
      have hle := length_le_of_enumerates h hnone
      have hsplit : l.filter q = (l.take m).filter q ++ (l.drop m).filter q := by
        rw [← List.filter_append, List.take_append_drop]
      have hrest : (l.drop m).filter q = [] := by
        rw [List.length_map, hsplit, List.length_append] at hle
        exact List.eq_nil_of_length_eq_zero (by omega)
      refine List.filter_eq_nil_iff.mp hrest b (List.mem_iff_getElem?.mpr ⟨i - m, ?_⟩) hmatch
      rw [List.getElem?_drop, show m + (i - m) = i by omega, hat]
    · have hend : ((l.filter q).map out)[((l.filter q).map out).length]? = none :=
        List.getElem?_eq_none_iff.mpr (Nat.le_refl _)
      exact answers_of_wrapped hat hmatch (by omega) hlength (fun b hb hq => hlast ⟨b, hb, hq⟩) _
        ((h _).trans hend)
  · intro h k
    rw [answers_of_short h (Nat.zero_le m), List.drop_zero]

end Wrapping

end Pjon.Lib.Cursor
