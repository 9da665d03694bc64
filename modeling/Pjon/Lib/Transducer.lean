import Mathlib.Data.List.Basic
/-!
# Machines that read one symbol at a time

A step takes a symbol and puts something out.  What such a machine puts out depends on what it
has read, and not on the pieces in which it was read.
-/

namespace Pjon.Lib.Transducer

variable {σ α β : Type} (step : σ → α → σ × List β)

def run : σ → List α → σ × List β
  | s, [] => (s, [])
  | s, a :: as =>
    let next := step s a
    let rest := run next.1 as
    (rest.1, next.2 ++ rest.2)

@[simp] theorem run_nil (s : σ) : run step s [] = (s, []) := rfl

theorem run_cons (s : σ) (a : α) (as : List α) :
    run step s (a :: as) =
      ((run step (step s a).1 as).1, (step s a).2 ++ (run step (step s a).1 as).2) := rfl

theorem run_append (s : σ) (as bs : List α) :
    run step s (as ++ bs) =
      ((run step (run step s as).1 bs).1,
        (run step s as).2 ++ (run step (run step s as).1 bs).2) := by
  induction as generalizing s with
  | nil => rfl
  | cons a as ih =>
      rw [List.cons_append, run_cons, ih, run_cons, List.append_assoc]

/-- Symbols that the machine ignores. -/
theorem run_of_ignored {s : σ} {as : List α} (h : ∀ a ∈ as, step s a = (s, [])) :
    run step s as = (s, []) := by
  induction as with
  | nil => rfl
  | cons a as ih =>
      obtain ⟨ha, has⟩ := List.forall_mem_cons.mp h
      rw [run_cons, ha, ih has, List.nil_append]

/-- Every symbol is read in a state that admits it. -/
def Admits (ok : σ → α → Prop) : σ → List α → Prop
  | _, [] => True
  | s, a :: as => ok s a ∧ Admits ok (step s a).1 as

section Admits

variable {step} {ok : σ → α → Prop}

@[simp] theorem admits_nil (s : σ) : Admits step ok s [] := trivial

theorem admits_cons (s : σ) (a : α) (as : List α) :
    Admits step ok s (a :: as) ↔ ok s a ∧ Admits step ok (step s a).1 as := Iff.rfl

theorem admits_append (s : σ) (as bs : List α) :
    Admits step ok s (as ++ bs) ↔
      Admits step ok s as ∧ Admits step ok (run step s as).1 bs := by
  induction as generalizing s with
  | nil => exact ⟨fun h => ⟨trivial, h⟩, And.right⟩
  | cons a as ih => rw [List.cons_append, admits_cons, ih, admits_cons, run_cons, and_assoc]

/-- Symbols that the machine ignores are admitted if each of them is. -/
theorem admits_of_ignored {s : σ} {as : List α} (h : ∀ a ∈ as, step s a = (s, []))
    (hok : ∀ a ∈ as, ok s a) : Admits step ok s as := by
  induction as with
  | nil => trivial
  | cons a as ih =>
      obtain ⟨ha, has⟩ := List.forall_mem_cons.mp h
      obtain ⟨hfirst, hrest⟩ := List.forall_mem_cons.mp hok
      rw [admits_cons, ha]
      exact ⟨hfirst, ih has hrest⟩

end Admits

end Pjon.Lib.Transducer
