import Mathlib.Data.List.Basic
/-!
# Byte stuffing

A value that must not appear in a frame is sent disguised, behind an escape.
-/

namespace Pjon.Lib

variable {α : Type}

def stuff (special : α → Bool) (esc : α) (disguise : α → α) (s : List α) : List α :=
  s.flatMap fun value => if special value then [esc, disguise value] else [value]

namespace Stuffing

variable {special : α → Bool} {esc : α} {disguise : α → α} {value : α} {s : List α}

@[simp] theorem stuff_nil : stuff special esc disguise [] = [] := rfl

theorem stuff_special (h : special value = true) :
    stuff special esc disguise (value :: s) =
      esc :: disguise value :: stuff special esc disguise s := by
  rw [stuff, List.flatMap_cons, if_pos h]
  rfl

theorem stuff_plain (h : special value = false) :
    stuff special esc disguise (value :: s) = value :: stuff special esc disguise s := by
  rw [stuff, List.flatMap_cons, if_neg (by rw [h]; exact Bool.false_ne_true)]
  rfl

theorem stuff_append (s t : List α) :
    stuff special esc disguise (s ++ t) =
      stuff special esc disguise s ++ stuff special esc disguise t :=
  List.flatMap_append

end Stuffing

end Pjon.Lib
