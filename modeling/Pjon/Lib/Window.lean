import Pjon.Lib.Run
import Mathlib.Data.List.Nodup
import Mathlib.Data.List.TakeWhile
/-!
# A window over what is new

A list of at most `n` keys, the most recent one first.  A key that is in it is known; another one
is put in front, and the oldest falls out if there is no room.  Whatever keys are asked for, the
list holds the last `n` that were not known, and none of them twice.
-/

namespace Pjon.Lib.Window

variable {κ : Type} [DecidableEq κ] {n : Nat}

/-- Ask for a key. -/
def slide (n : Nat) (window : List κ) (key : κ) : List κ :=
  if key ∈ window then window else (key :: window).take n

/-- The keys that are not known when they are asked for. -/
def news (n : Nat) (window : List κ) (keys : List κ) : List κ :=
  ((Run.steps (slide n) window keys).filter fun step => decide (step.2 ∉ step.1)).map Prod.snd

@[simp] theorem news_nil (window : List κ) : news n window [] = [] := rfl

theorem news_cons_of_mem {window : List κ} {key : κ} (keys : List κ) (h : key ∈ window) :
    news n window (key :: keys) = news n window keys := by
  rw [news, Run.steps_cons, List.filter_cons_of_neg (by simpa using h), slide, if_pos h, news]

theorem news_cons_of_not_mem {window : List κ} {key : κ} (keys : List κ) (h : key ∉ window) :
    news n window (key :: keys) = key :: news n ((key :: window).take n) keys := by
  rw [news, Run.steps_cons, List.filter_cons_of_pos (by simpa using h), slide, if_neg h,
    List.map_cons, news]

theorem length_slide {window : List κ} (h : window.length ≤ n) (key : κ) :
    (slide n window key).length ≤ n := by
  unfold slide
  split_ifs
  · exact h
  · exact List.length_take_le _ _

theorem nodup_slide {window : List κ} (h : window.Nodup) (key : κ) :
    (slide n window key).Nodup := by
  unfold slide
  split_ifs with hmem
  · exact h
  · exact (List.nodup_cons.mpr ⟨hmem, h⟩).sublist (List.take_sublist _ _)

/-- The window holds the last `n` keys that were new. -/
theorem final_slide {window : List κ} (h : window.length ≤ n) (keys : List κ) :
    Run.final (slide n) window keys = ((news n window keys).reverse ++ window).take n := by
  induction keys generalizing window with
  | nil => rw [Run.final_nil, news_nil, List.reverse_nil, List.nil_append, List.take_of_length_le h]
  | cons key keys ih =>
      rw [Run.final_cons, ih (length_slide h key)]
      by_cases hmem : key ∈ window
      · rw [news_cons_of_mem keys hmem, slide, if_pos hmem]
      · rw [news_cons_of_not_mem keys hmem, slide, if_neg hmem, List.reverse_cons,
          List.append_assoc, List.singleton_append, List.take_append, List.take_append,
          List.take_take]
        congr 2
        omega

theorem nodup_final {window : List κ} (h : window.Nodup) (keys : List κ) :
    (Run.final (slide n) window keys).Nodup :=
  (Run.invariant (slide n) List.Nodup (fun _ key hnodup => nodup_slide hnodup key) h keys).2

end Pjon.Lib.Window
