import Mathlib.Data.List.Basic
import Mathlib.Data.Vector.Basic
/-!
# A buffer of the most recent entries

A buffer of fixed size whose newest entry is at index 0: a new entry moves the
others up by one and the oldest falls out.  An entry is found as long as fewer
entries than the buffer has places were added after it.
-/

namespace Pjon.Lib.Recent

variable {α : Type} {n : Nat}

def push (recent : Vector α n) (entry : α) : Vector α n :=
  Vector.ofFn fun i => if i.val = 0 then entry else recent[i.val - 1]

theorem push_zero (recent : Vector α n) (entry : α) (h : 0 < n) :
    (push recent entry)[0] = entry := by
  simp [push]

theorem push_succ (recent : Vector α n) (entry : α) {i : Nat} (h : i + 1 < n) :
    (push recent entry)[i + 1] = recent[i] := by
  simp [push]

theorem toList_push (recent : Vector α n) (entry : α) :
    (push recent entry).toList = (entry :: recent.toList).take n := by
  apply List.ext_getElem
  · simp
  · intro i hleft hright
    rw [Vector.length_toList] at hleft
    rw [Vector.getElem_toList, List.getElem_take]
    cases i with
    | zero => rw [push_zero recent entry hleft, List.getElem_cons_zero]
    | succ i => rw [push_succ recent entry hleft, List.getElem_cons_succ, Vector.getElem_toList]

/-! ## The loop that moves the entries -/

/-- `for(i = last; i > 0; i--) recent[i] = recent[i - 1]`. -/
def shift (recent : Vector α n) : (last : Nat) → last < n → Vector α n
  | 0, _ => recent
  | i + 1, h =>
    shift (recent.set (i + 1) (recent.get ⟨i, Nat.lt_of_succ_lt h⟩)) i (Nat.lt_of_succ_lt h)

theorem getElem_shift (recent : Vector α n) {last : Nat} (hlast : last < n) {j : Nat} (hj : j < n) :
    (shift recent last hlast)[j] = if 0 < j ∧ j ≤ last then recent[j - 1] else recent[j] := by
  induction last generalizing recent with
  | zero => rw [shift, if_neg (by omega)]
  | succ i ih =>
      rw [shift, ih]
      by_cases htop : j = i + 1
      · subst htop
        rw [if_neg (by omega), if_pos (by omega), Vector.getElem_set_self]
        rfl
      · rw [Vector.getElem_set_ne _ _ (Ne.symm htop)]
        by_cases hbelow : 0 < j ∧ j ≤ i
        · rw [if_pos hbelow, if_pos (by omega), Vector.getElem_set_ne _ _ (by omega)]
        · rw [if_neg hbelow, if_neg (by omega)]

/-- A new entry is put where the loop has made room. -/
theorem push_eq_shift (recent : Vector α n) (entry : α) (hpos : 0 < n) :
    push recent entry = (shift recent (n - 1) (Nat.sub_lt hpos Nat.one_pos)).set 0 entry := by
  apply Vector.ext
  intro j hj
  cases j with
  | zero => rw [push_zero recent entry hpos, Vector.getElem_set_self]
  | succ j =>
      rw [push_succ recent entry hj, Vector.getElem_set_ne _ _ (by omega), getElem_shift,
        if_pos (by omega)]
      rfl

theorem mem_push {recent : Vector α n} {entry e : α} (h : e ∈ (push recent entry).toList) :
    e = entry ∨ e ∈ recent.toList := by
  rw [Vector.mem_toList_iff, Vector.mem_iff_getElem] at h
  obtain ⟨i, hi, rfl⟩ := h
  cases i with
  | zero => exact Or.inl (push_zero recent entry hi)
  | succ i =>
      rw [push_succ recent entry hi, Vector.mem_toList_iff]
      exact Or.inr (Vector.getElem_mem _)

/-! ## Finding an entry -/

/-- An entry that `test` accepts is at an index below `depth`. -/
def FoundBelow (recent : Vector α n) (test : α → Bool) (depth : Nat) : Prop :=
  ∃ i, ∃ h : i < n, i < depth ∧ test recent[i] = true

theorem FoundBelow.mono {recent : Vector α n} {test : α → Bool} {depth depth' : Nat}
    (h : FoundBelow recent test depth) (hle : depth ≤ depth') : FoundBelow recent test depth' := by
  obtain ⟨i, hi, hdepth, htest⟩ := h
  exact ⟨i, hi, by omega, htest⟩

theorem any_iff_foundBelow (recent : Vector α n) (test : α → Bool) :
    recent.toList.any test = true ↔ FoundBelow recent test n := by
  rw [List.any_eq_true]
  constructor
  · rintro ⟨entry, hmem, htest⟩
    obtain ⟨i, hi, rfl⟩ := List.mem_iff_getElem.mp hmem
    rw [Vector.length_toList] at hi
    exact ⟨i, hi, hi, by simpa using htest⟩
  · rintro ⟨i, hi, -, htest⟩
    refine ⟨recent[i], ?_, htest⟩
    rw [Vector.mem_toList_iff]
    exact Vector.getElem_mem hi

/-- A new entry is the first one. -/
theorem foundBelow_push (recent : Vector α n) {test : α → Bool} {entry : α} (hpos : 0 < n)
    (htest : test entry = true) : FoundBelow (push recent entry) test 1 :=
  ⟨0, hpos, Nat.zero_lt_one, by rwa [push_zero recent entry hpos]⟩

/-- Another new entry moves it up by one. -/
theorem FoundBelow.push {recent : Vector α n} {test : α → Bool} {depth : Nat} (entry : α)
    (h : FoundBelow recent test depth) (hroom : depth < n) :
    FoundBelow (push recent entry) test (depth + 1) := by
  obtain ⟨i, hi, hdepth, htest⟩ := h
  have hnext : i + 1 < n := by omega
  refine ⟨i + 1, hnext, by omega, ?_⟩
  rwa [push_succ recent entry hnext]

/-! ## The age of an entry -/

/-- The newest entry that `test` accepts is at the index `age`; none is, if there is no such
index. -/
structure Newest (recent : Vector α n) (test : α → Bool) (age : Nat) : Prop where
  younger : ∀ i, ∀ h : i < n, i < age → test recent[i] = false
  here : ∀ h : age < n, test recent[age] = true

theorem newest_findIdx (recent : Vector α n) (test : α → Bool) :
    Newest recent test (recent.toList.findIdx test) := by
  constructor
  · intro i hi hage
    have hbefore := List.not_of_lt_findIdx hage
    rwa [Vector.getElem_toList] at hbefore
  · intro hlt
    have hlength : recent.toList.findIdx test < recent.toList.length := by
      rwa [Vector.length_toList]
    have hhere := List.findIdx_getElem (w := hlength)
    rwa [Vector.getElem_toList] at hhere

/-- An entry is found until it is as old as there are places. -/
theorem Newest.any_iff {recent : Vector α n} {test : α → Bool} {age : Nat}
    (h : Newest recent test age) : recent.toList.any test = true ↔ age < n := by
  rw [any_iff_foundBelow]
  constructor
  · rintro ⟨i, hi, -, htest⟩
    by_contra hage
    rw [h.younger i hi (by omega)] at htest
    cases htest
  · exact fun hage => ⟨age, hage, hage, h.here hage⟩

/-- Any other entry makes it older. -/
theorem Newest.push {recent : Vector α n} {test : α → Bool} {age : Nat} {entry : α}
    (h : Newest recent test age) (hentry : test entry = false) :
    Newest (push recent entry) test (age + 1) := by
  constructor
  · intro i hi hage
    cases i with
    | zero => rwa [push_zero recent entry hi]
    | succ i => exact push_succ recent entry hi ▸ h.younger i (by omega) (by omega)
  · intro hlt
    rw [push_succ recent entry hlt]
    exact h.here (by omega)

theorem newest_push (recent : Vector α n) {test : α → Bool} {entry : α}
    (hentry : test entry = true) : Newest (push recent entry) test 0 :=
  ⟨fun _ _ h => absurd h (Nat.not_lt_zero _), fun hpos => by rwa [push_zero recent entry hpos]⟩

/-! ## Sequences without near repetitions -/

/-- Two entries at most `window` places apart differ. -/
def DistinctWithin (window : Nat) (entries : List α) : Prop :=
  ∀ i j, i < j → j ≤ i + window → j < entries.length → entries[i]? ≠ entries[j]?

theorem DistinctWithin.mono {window window' : Nat} {entries : List α}
    (h : DistinctWithin window entries) (hle : window' ≤ window) :
    DistinctWithin window' entries := by
  intro i j hij hnear hj
  exact h i j hij (by omega) hj

end Pjon.Lib.Recent
