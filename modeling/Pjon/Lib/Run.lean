import Mathlib.Data.List.Induction
/-!
# Runs of a machine

A machine takes a step for each input.  A property of single steps holds along a
run when an invariant carries it from one step to the next.
-/

namespace Pjon.Lib.Run

variable {σ ι : Type}

/-- The steps of a run: each state with the input it takes. -/
def steps (next : σ → ι → σ) : σ → List ι → List (σ × ι)
  | _, [] => []
  | s, i :: is => (s, i) :: steps next (next s i) is

/-- Where a run ends. -/
def final (next : σ → ι → σ) (s : σ) (is : List ι) : σ := is.foldl next s

@[simp] theorem steps_nil (next : σ → ι → σ) (s : σ) : steps next s [] = [] := rfl

@[simp] theorem steps_cons (next : σ → ι → σ) (s : σ) (i : ι) (is : List ι) :
    steps next s (i :: is) = (s, i) :: steps next (next s i) is := rfl

@[simp] theorem final_nil (next : σ → ι → σ) (s : σ) : final next s [] = s := rfl

@[simp] theorem final_cons (next : σ → ι → σ) (s : σ) (i : ι) (is : List ι) :
    final next s (i :: is) = final next (next s i) is := rfl

theorem final_append (next : σ → ι → σ) (s : σ) (is js : List ι) :
    final next s (is ++ js) = final next (final next s is) js := List.foldl_append

theorem steps_append (next : σ → ι → σ) (s : σ) (is js : List ι) :
    steps next s (is ++ js) = steps next s is ++ steps next (final next s is) js := by
  induction is generalizing s with
  | nil => rfl
  | cons i is ih => rw [List.cons_append, steps_cons, ih, steps_cons, final_cons, List.cons_append]

@[simp] theorem map_snd_steps (next : σ → ι → σ) (s : σ) (is : List ι) :
    (steps next s is).map Prod.snd = is := by
  induction is generalizing s with
  | nil => rfl
  | cons i is ih => rw [steps_cons, List.map_cons, ih]

@[simp] theorem length_steps (next : σ → ι → σ) (s : σ) (is : List ι) :
    (steps next s is).length = is.length := by
  rw [← List.length_map Prod.snd, map_snd_steps]

/-- Where a step is, the rest of a run starts from the state behind it. -/
theorem steps_split {next : σ → ι → σ} {s : σ} {is : List ι} {before after : List (σ × ι)}
    {v : σ × ι} (h : steps next s is = before ++ v :: after) :
    v.1 = final next s (before.map Prod.snd) ∧
      after = steps next (next v.1 v.2) (after.map Prod.snd) := by
  induction before generalizing s is with
  | nil =>
      cases is with
      | nil => simp at h
      | cons i is =>
          rw [steps_cons, List.nil_append, List.cons.injEq] at h
          obtain ⟨rfl, rfl⟩ := h
          rw [map_snd_steps]
          exact ⟨rfl, rfl⟩
  | cons u before ih =>
      cases is with
      | nil => simp at h
      | cons i is =>
          rw [steps_cons, List.cons_append, List.cons.injEq] at h
          obtain ⟨rfl, hrest⟩ := h
          exact ih hrest

/-- An invariant holds before every step. -/
theorem invariant (next : σ → ι → σ) (inv : σ → Prop)
    (hnext : ∀ s i, inv s → inv (next s i)) {s : σ} (h : inv s) (is : List ι) :
    (∀ v ∈ steps next s is, inv v.1) ∧ inv (final next s is) := by
  induction is generalizing s with
  | nil => exact ⟨fun v hv => by simp at hv, h⟩
  | cons i is ih =>
      obtain ⟨hsteps, hfinal⟩ := ih (hnext s i h)
      refine ⟨fun v hv => ?_, hfinal⟩
      rcases List.mem_cons.mp hv with rfl | hlater
      · exact h
      · exact hsteps v hlater

/-- What allowed steps keep holds behind a run of them. -/
theorem invariant_of_allowed {next : σ → ι → σ} {inv : σ → Prop} {allowed : σ → ι → Prop}
    (hnext : ∀ s i, inv s → allowed s i → inv (next s i)) {s : σ} (h : inv s) (is : List ι)
    (hall : ∀ v ∈ steps next s is, allowed v.1 v.2) : inv (final next s is) := by
  induction is generalizing s with
  | nil => exact h
  | cons i is ih =>
      rw [steps_cons, List.forall_mem_cons] at hall
      exact ih (hnext s i h hall.1) hall.2

/-- Every step is good exactly when every step is allowed, if allowed steps keep the
invariant under which the two are the same. -/
theorem forall_good_iff {next : σ → ι → σ} {inv : σ → Prop} {good allowed : σ → ι → Prop}
    (hiff : ∀ s i, inv s → (good s i ↔ allowed s i))
    (hnext : ∀ s i, inv s → allowed s i → inv (next s i)) {s : σ} (h : inv s) (is : List ι) :
    (∀ v ∈ steps next s is, good v.1 v.2) ↔ ∀ v ∈ steps next s is, allowed v.1 v.2 := by
  induction is generalizing s with
  | nil => simp
  | cons i is ih =>
      rw [steps_cons, List.forall_mem_cons, List.forall_mem_cons, hiff s i h]
      apply and_congr_right
      intro hallowed
      exact ih (hnext s i h hallowed)

/-- A property of histories holds wherever a run comes exactly when every step is allowed, if
it holds behind a step exactly when the step is allowed. -/
theorem forall_reached_iff {next : σ → ι → σ} {good : List (σ × ι) → σ → Prop}
    {allowed : σ → ι → Prop} {s : σ} (h : good [] s)
    (hiff : ∀ history s i, good history s →
      (good (history ++ [(s, i)]) (next s i) ↔ allowed s i)) (is : List ι) :
    (∀ before, before <+: is → good (steps next s before) (final next s before)) ↔
      ∀ v ∈ steps next s is, allowed v.1 v.2 := by
  induction is using List.reverseRecOn with
  | nil =>
      simp only [List.prefix_nil, forall_eq, steps_nil, List.not_mem_nil, false_implies,
        implies_true, iff_true]
      exact h
  | append_singleton is i ih =>
      rw [steps_append, steps_cons, steps_nil, List.forall_mem_append, ← ih]
      simp only [List.prefix_concat_iff, forall_eq_or_imp, List.forall_mem_singleton]
      rw [steps_append, final_append, steps_cons, steps_nil, final_cons, final_nil, and_comm]
      apply and_congr_right
      intro hreached
      exact hiff _ _ _ (hreached is (List.prefix_refl is))

/-! ## What has happened -/

/-- Something was `p`, and all that came after it was `q`. -/
def Since {α : Type} (p q : α → Prop) (history : List α) : Prop :=
  ∃ before v after, history = before ++ v :: after ∧ p v ∧ ∀ u ∈ after, q u

section Since

variable {α : Type} {p q : α → Prop}

@[simp] theorem not_since_nil : ¬Since p q [] := by
  rintro ⟨before, v, after, h, -⟩
  simp at h

theorem since_append_singleton (history : List α) (v : α) :
    Since p q (history ++ [v]) ↔ p v ∨ q v ∧ Since p q history := by
  constructor
  · rintro ⟨before, u, after, h, hu, hafter⟩
    induction after using List.reverseRecOn with
    | nil =>
        obtain ⟨-, huv⟩ := List.append_inj' h rfl
        obtain rfl := List.singleton_inj.mp huv
        exact Or.inl hu
    | append_singleton after w _ =>
        rw [← List.cons_append, ← List.append_assoc] at h
        obtain ⟨hhistory, hvw⟩ := List.append_inj' h rfl
        obtain rfl := List.singleton_inj.mp hvw
        rw [List.forall_mem_append, List.forall_mem_singleton] at hafter
        exact Or.inr ⟨hafter.2, before, u, after, hhistory, hu, hafter.1⟩
  · rintro (hv | ⟨hv, before, u, after, rfl, hu, hafter⟩)
    · exact ⟨history, v, [], rfl, hv, fun u hu => absurd hu List.not_mem_nil⟩
    · refine ⟨before, u, after ++ [v], by simp, hu, ?_⟩
      rw [List.forall_mem_append, List.forall_mem_singleton]
      exact ⟨hafter, hv⟩

end Since

end Pjon.Lib.Run
