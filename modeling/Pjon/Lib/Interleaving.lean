import Mathlib.Data.List.Perm.Basic
/-!
# Interleavings

Agents take their steps in any order.  Where steps of different agents commute, the order makes
no difference to the end: if one run comes to an end, every other run comes to the same one, with
as many steps of each agent.
-/

namespace Pjon.Lib.Interleaving

variable {σ ι : Type} (step : ι → σ → Option σ)

/-- A run, with the agents whose steps it is made of. -/
inductive Runs : List ι → σ → σ → Prop where
  | nil (s : σ) : Runs [] s s
  | cons {i : ι} {l : List ι} {s x t : σ} (hstep : step i s = some x) (rest : Runs l x t) :
      Runs (i :: l) s t

def Final (s : σ) : Prop := ∀ i, step i s = none

def Commutes : Prop :=
  ∀ {i j : ι} {s a b : σ}, i ≠ j → step i s = some a → step j s = some b →
    ∃ t, step j a = some t ∧ step i b = some t

variable {step}

theorem Runs.append {l l' : List ι} {s x t : σ} (h : Runs step l s x) (h' : Runs step l' x t) :
    Runs step (l ++ l') s t := by
  induction h with
  | nil _ => exact h'
  | cons hstep _ ih => exact Runs.cons hstep (ih h')

/-- What every step keeps is kept by every run. -/
theorem Runs.invariant {P : σ → Prop} (hkeep : ∀ {i s t}, step i s = some t → P s → P t)
    {l : List ι} {s t : σ} (h : Runs step l s t) (hs : P s) : P t := by
  induction h with
  | nil _ => exact hs
  | cons hstep _ ih => exact ih (hkeep hstep hs)

/-- A step that can be taken at the start of a run is taken in it, if the run comes to an end. -/
theorem mem_of_final (hcomm : Commutes step) {l : List ι} {s t a : σ} {i : ι}
    (hruns : Runs step l s t) (hfinal : Final step t) (hstep : step i s = some a) : i ∈ l := by
  induction hruns generalizing a with
  | nil _ =>
      rw [hfinal i] at hstep
      exact absurd hstep.symm (Option.some_ne_none a)
  | @cons j l s x t hj hrest ih =>
      by_cases hij : i = j
      · rw [hij]
        exact List.mem_cons_self
      · obtain ⟨y, -, hy⟩ := hcomm hij hstep hj
        exact List.mem_cons_of_mem j (ih hfinal hy)

/-- A step that is taken in a run can be taken first, if that is possible. -/
theorem residual (hcomm : Commutes step) {l : List ι} {s t a : σ} {i : ι}
    (hruns : Runs step l s t) (hi : i ∈ l) (hstep : step i s = some a) :
    ∃ l', Runs step l' a t ∧ (i :: l').Perm l := by
  induction hruns generalizing a with
  | nil _ => exact absurd hi List.not_mem_nil
  | @cons j l s x t hj hrest ih =>
      by_cases hij : i = j
      · subst hij
        rw [hstep] at hj
        obtain rfl := Option.some.inj hj
        exact ⟨l, hrest, List.Perm.refl _⟩
      · obtain ⟨y, hay, hxy⟩ := hcomm hij hstep hj
        obtain ⟨l', hruns', hperm⟩ := ih ((List.mem_cons.mp hi).resolve_left hij) hxy
        exact ⟨j :: l', Runs.cons hay hruns', (List.Perm.swap j i l').trans (hperm.cons j)⟩

/-- Every run can be continued to the end of one that comes to an end, and there are no more
steps in it. -/
theorem completes (hcomm : Commutes step) {l l' : List ι} {s t c : σ} (hend : Runs step l s t)
    (hfinal : Final step t) (hruns : Runs step l' s c) :
    ∃ rest, Runs step rest c t ∧ (l' ++ rest).Perm l := by
  induction hruns generalizing l with
  | nil _ => exact ⟨l, hend, List.Perm.refl l⟩
  | @cons i l' s x c hstep hrest ih =>
      obtain ⟨l₁, hend₁, hperm⟩ := residual hcomm hend (mem_of_final hcomm hend hfinal hstep) hstep
      obtain ⟨rest, hend₂, hperm₂⟩ := ih hend₁
      exact ⟨rest, hend₂, (hperm₂.cons i).trans hperm⟩

/-- There is one end. -/
theorem end_unique (hcomm : Commutes step) {l l' : List ι} {s t c : σ} (hend : Runs step l s t)
    (hfinal : Final step t) (hruns : Runs step l' s c) (hstuck : Final step c) : c = t := by
  obtain ⟨rest, hrest, -⟩ := completes hcomm hend hfinal hruns
  cases hrest with
  | nil _ => rfl
  | @cons i _ _ x _ hstep _ =>
      rw [hstuck i] at hstep
      exact absurd hstep.symm (Option.some_ne_none x)

end Pjon.Lib.Interleaving
