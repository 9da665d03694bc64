import Mathlib.Data.List.Infix
/-!
# Looking for a pattern in a stream

A window as wide as the pattern moves over the stream, one element at a time, until the pattern
is in it.  A list that is split at separators is read piece by piece.
-/

namespace Pjon.Lib.Scan

variable {α : Type} [DecidableEq α]

/-- What is behind the pattern, if the window reaches it. -/
def resync (pattern : List α) : List α → List α → Option (List α)
  | window, [] => if window = pattern then some [] else none
  | window, x :: stream =>
    if window = pattern then some (x :: stream) else resync pattern (window.drop 1 ++ [x]) stream

theorem resync_of_eq {pattern window : List α} (h : window = pattern) (stream : List α) :
    resync pattern window stream = some stream := by
  cases stream with
  | nil => rw [resync, if_pos h]
  | cons x stream => rw [resync, if_pos h]

/-- The pattern is in the stream at an index, and at none before it. -/
structure FirstAt (pattern stream : List α) (index : Nat) : Prop where
  here : pattern <+: stream.drop index
  before : ∀ i < index, ¬pattern <+: stream.drop i

omit [DecidableEq α] in
theorem FirstAt.length_le {pattern stream : List α} {index : Nat}
    (h : FirstAt pattern stream index) (hpattern : pattern ≠ []) :
    index + pattern.length ≤ stream.length := by
  have hle := h.here.length_le
  have hpos := List.length_pos_of_ne_nil hpattern
  rw [List.length_drop] at hle
  omega

omit [DecidableEq α] in
/-- What follows behind the pattern does not matter. -/
theorem FirstAt.append {pattern stream : List α} {index : Nat}
    (h : FirstAt pattern stream index) (hpattern : pattern ≠ []) (rest : List α) :
    FirstAt pattern (stream ++ rest) index where
  here := by
    rw [List.drop_append_of_le_length (by have := h.length_le hpattern; omega)]
    exact h.here.trans (List.prefix_append _ _)
  before := by
    intro i hi hprefix
    have hle := h.length_le hpattern
    rw [List.drop_append_of_le_length (by omega)] at hprefix
    refine h.before i hi (List.prefix_of_prefix_length_le hprefix (List.prefix_append _ _) ?_)
    rw [List.length_drop]
    omega

omit [DecidableEq α] in
theorem window_eq_iff {pattern window stream : List α} (hlength : window.length = pattern.length) :
    pattern <+: window ++ stream ↔ window = pattern := by
  constructor
  · intro h
    exact ((List.prefix_of_prefix_length_le h (List.prefix_append window stream)
      hlength.ge).eq_of_length hlength.symm).symm
  · rintro rfl
    exact List.prefix_append _ _

/-- The window stops at the pattern. -/
theorem resync_of_firstAt {pattern window stream : List α} {index : Nat}
    (hlength : window.length = pattern.length) (hpattern : pattern ≠ [])
    (h : FirstAt pattern (window ++ stream) index) :
    resync pattern window stream = some ((window ++ stream).drop (index + pattern.length)) := by
  induction index generalizing window stream with
  | zero =>
      have hwindow := (window_eq_iff hlength).mp h.here
      rw [Nat.zero_add, ← hlength, List.drop_left, resync_of_eq hwindow]
  | succ index ih =>
      have hnot : window ≠ pattern := fun heq =>
        h.before 0 (Nat.succ_pos index) ((window_eq_iff hlength).mpr heq)
      have hle := h.length_le hpattern
      cases stream with
      | nil =>
          rw [List.append_nil] at hle
          omega
      | cons x stream =>
          obtain ⟨y, window, rfl⟩ : ∃ y tail, window = y :: tail := by
            cases window with
            | nil => exact absurd (List.length_eq_zero_iff.mp hlength.symm) hpattern
            | cons y tail => exact ⟨y, tail, rfl⟩
          have hshift : y :: window ++ x :: stream = y :: (window ++ [x] ++ stream) := by simp
          have hnext : FirstAt pattern (window ++ [x] ++ stream) index := by
            refine ⟨?_, fun i hi => ?_⟩
            · have hhere := h.here
              rw [hshift, List.drop_succ_cons] at hhere
              exact hhere
            · have hbefore := h.before (i + 1) (Nat.succ_lt_succ hi)
              rw [hshift, List.drop_succ_cons] at hbefore
              exact hbefore
          have hwidth : (window ++ [x]).length = pattern.length := by
            rw [← hlength, List.length_append, List.length_singleton, List.length_cons]
          rw [resync, if_neg hnot, List.drop_succ_cons, List.drop_zero, ih hwidth hnext, hshift,
            Nat.add_right_comm, List.drop_succ_cons]

/-- Where the pattern is first. -/
def find (pattern : List α) : List α → Option Nat
  | [] => if pattern <+: [] then some 0 else none
  | x :: stream =>
    if pattern <+: x :: stream then some 0 else (find pattern stream).map (· + 1)

theorem find_eq_some {pattern stream : List α} {index : Nat}
    (h : find pattern stream = some index) : FirstAt pattern stream index := by
  induction stream generalizing index with
  | nil =>
      rw [find] at h
      split_ifs at h with hinitial
      obtain rfl := Option.some.inj h
      exact ⟨hinitial, fun i hi => absurd hi (Nat.not_lt_zero i)⟩
  | cons x stream ih =>
      rw [find] at h
      split_ifs at h with hinitial
      · obtain rfl := Option.some.inj h
        exact ⟨hinitial, fun i hi => absurd hi (Nat.not_lt_zero i)⟩
      · obtain ⟨j, hj, rfl⟩ := Option.map_eq_some_iff.mp h
        have hfirst := ih hj
        refine ⟨hfirst.here, fun i hi => ?_⟩
        cases i with
        | zero => exact hinitial
        | succ i => exact hfirst.before i (Nat.lt_of_succ_lt_succ hi)

/-- What follows behind the pattern does not matter. -/
theorem find_append {pattern stream : List α} {index : Nat} (h : find pattern stream = some index)
    (rest : List α) : find pattern (stream ++ rest) = some index := by
  induction stream generalizing index with
  | nil =>
      rw [find] at h
      split_ifs at h with hinitial
      obtain rfl := List.prefix_nil.mp hinitial
      obtain rfl := Option.some.inj h
      cases rest with
      | nil => exact if_pos hinitial
      | cons y rest => exact if_pos List.nil_prefix
  | cons x stream ih =>
      rw [find] at h
      rw [List.cons_append, find]
      split_ifs at h with hinitial
      · have hlong : pattern <+: x :: (stream ++ rest) :=
          hinitial.trans (List.prefix_append (x :: stream) rest)
        rw [if_pos hlong, h]
      · obtain ⟨j, hj, rfl⟩ := Option.map_eq_some_iff.mp h
        have hnot : ¬pattern <+: x :: (stream ++ rest) := fun hlong => by
          have hle := (find_eq_some hj).here.length_le
          rw [List.length_drop] at hle
          apply hinitial
          rw [← List.cons_append] at hlong
          apply List.prefix_of_prefix_length_le hlong (List.prefix_append _ _)
          rw [List.length_cons]
          omega
        rw [if_neg hnot, ih hj]
        rfl

theorem find_of_prefix (pattern rest : List α) : find pattern (pattern ++ rest) = some 0 := by
  cases hstream : pattern ++ rest with
  | nil => exact if_pos (hstream ▸ List.prefix_append pattern rest)
  | cons x stream => exact if_pos (hstream ▸ List.prefix_append pattern rest)

/-! ## Pieces -/

omit [DecidableEq α] in
/-- The first piece ends where the list does, or at a separator that more pieces follow. -/
theorem splitOnP_cases (p : α → Bool) (stream : List α) :
    stream.splitOnP p = [stream] ∧ (∀ x ∈ stream, p x = false) ∨
      ∃ piece sep rest, stream = piece ++ sep :: rest ∧ (∀ x ∈ piece, p x = false) ∧
        p sep = true ∧ stream.splitOnP p = piece :: rest.splitOnP p := by
  by_cases h : ∀ x ∈ stream, p x = false
  · exact Or.inl ⟨List.splitOnP_eq_singleton h, h⟩
  · simp only [not_forall, Bool.not_eq_false] at h
    obtain ⟨x, hx, hpx⟩ := h
    obtain ⟨sep, hfind⟩ := Option.isSome_iff_exists.mp (List.find?_isSome.mpr ⟨x, hx, hpx⟩)
    obtain ⟨hsep, piece, rest, rfl, hpiece⟩ := List.find?_eq_some_iff_append.mp hfind
    have hnone : ∀ y ∈ piece, p y = false := fun y hy => Bool.not_eq_true' _ ▸ hpiece y hy
    exact Or.inr ⟨piece, sep, rest, rfl, hnone, hsep,
      List.splitOnP_append_cons_of_forall_mem hnone sep hsep rest⟩

end Pjon.Lib.Scan
