import Pjon.Lib.Recent
import Pjon.Lib.Run
import Mathlib.Data.List.DropRight
/-!
# Machines that recognise what they have taken

A machine that keeps recent entries takes a message at most once, however often it
arrives, if fewer other entries than there are places come in between the first and
the last time it does.
-/

namespace Pjon.Lib.Dedup

/-! ## From the first to the last -/

section Between

variable {β : Type}

/-- The part of a list from the first element that `p` accepts to the last one. -/
def firstToLast (p : β → Bool) (l : List β) : List β :=
  (l.dropWhile fun v => !p v).rdropWhile fun v => !p v

theorem dropWhile_append_cons {q : β → Bool} (before : List β) {v : β} (rest : List β)
    (hv : q v = false) : ∃ kept, (before ++ v :: rest).dropWhile q = kept ++ v :: rest := by
  induction before with
  | nil => exact ⟨[], List.dropWhile_cons_of_neg (by rw [hv]; exact Bool.false_ne_true)⟩
  | cons u before ih =>
      obtain ⟨kept, hkept⟩ := ih
      by_cases hu : q u = true
      · exact ⟨kept, by rw [List.cons_append, List.dropWhile_cons_of_pos hu, hkept]⟩
      · exact ⟨u :: before, by rw [List.cons_append, List.dropWhile_cons_of_neg hu]⟩

theorem rdropWhile_append_cons {q : β → Bool} (before : List β) {w : β} (rest : List β)
    (hw : q w = false) : ∃ kept, (before ++ w :: rest).rdropWhile q = before ++ w :: kept := by
  obtain ⟨kept, hkept⟩ := dropWhile_append_cons rest.reverse before.reverse hw
  have hreverse : (before ++ w :: rest).reverse = rest.reverse ++ w :: before.reverse := by
    rw [List.reverse_append, List.reverse_cons, List.append_assoc, List.singleton_append]
  refine ⟨kept.reverse, ?_⟩
  rw [List.rdropWhile, hreverse, hkept, List.reverse_append, List.reverse_cons,
    List.reverse_reverse, List.append_assoc, List.singleton_append]

/-- What lies between two elements that `p` accepts is part of it. -/
theorem countP_le_firstToLast {p : β → Bool} (test : β → Bool) (before middle after : List β)
    {v w : β} (hv : p v = true) (hw : p w = true) :
    middle.countP test ≤
      (firstToLast p (before ++ v :: (middle ++ w :: after))).countP test := by
  have hv' : (!p v) = false := by rw [hv]; rfl
  have hw' : (!p w) = false := by rw [hw]; rfl
  obtain ⟨front, hfront⟩ := dropWhile_append_cons (q := fun v => !p v) before
    (middle ++ w :: after) hv'
  obtain ⟨back, hback⟩ := rdropWhile_append_cons (q := fun v => !p v)
    (front ++ v :: middle) after hw'
  have hassoc : front ++ v :: (middle ++ w :: after) = (front ++ v :: middle) ++ w :: after := by
    rw [List.append_assoc, List.cons_append]
  rw [firstToLast, hfront, hassoc, hback, List.countP_append, List.countP_append,
    List.countP_cons]
  omega

theorem exists_two_of_countP {p : β → Bool} {l : List β} (h : 1 < l.countP p) :
    ∃ before v middle w after, l = before ++ v :: (middle ++ w :: after) ∧
      p v = true ∧ p w = true := by
  induction l with
  | nil => simp at h
  | cons u l ih =>
      by_cases hu : p u = true
      · rw [List.countP_cons_of_pos hu] at h
        obtain ⟨w, hmem, hw⟩ := List.countP_pos_iff.mp (by omega : 0 < l.countP p)
        obtain ⟨middle, after, rfl⟩ := List.append_of_mem hmem
        exact ⟨[], u, middle, w, after, rfl, hu, hw⟩
      · rw [List.countP_cons_of_neg hu] at h
        obtain ⟨before, v, middle, w, after, rfl, hv, hw⟩ := ih h
        exact ⟨u :: before, v, middle, w, after, rfl, hv, hw⟩

end Between

/-! ## The machine -/

section Machine

variable {σ ι α : Type} [DecidableEq α] {n : Nat}

/-- `own` inputs are arrivals of the message, `test` accepts its entry, and `takes` tells
whether the machine takes it. -/
structure Recognises (next : σ → ι → σ) (inv : σ → Prop) (recent : σ → Vector α n)
    (own : ι → Bool) (test : α → Bool) (takes : σ → ι → Bool) : Prop where
  keeps : ∀ s i, inv s → inv (next s i)
  pushes : ∀ s i, inv s → recent (next s i) = recent s ∨
    ∃ entry, recent (next s i) = Recent.push (recent s) entry
  known : ∀ s i, inv s → own i = true → (recent s).toList.any test = true →
    takes s i = false ∧ recent (next s i) = recent s
  taken : ∀ s i, inv s → own i = true → takes s i = true →
    ∃ entry, test entry = true ∧ recent (next s i) = Recent.push (recent s) entry

/-- The step adds an entry, and not for the message. -/
def addsOther (next : σ → ι → σ) (recent : σ → Vector α n) (own : ι → Bool) (v : σ × ι) : Bool :=
  !own v.2 && decide (recent (next v.1 v.2) ≠ recent v.1)

/-- The step takes the message. -/
def takesOwn (own : ι → Bool) (takes : σ → ι → Bool) (v : σ × ι) : Bool := own v.2 && takes v.1 v.2

variable {next : σ → ι → σ} {inv : σ → Prop} {recent : σ → Vector α n} {own : ι → Bool}
  {test : α → Bool} {takes : σ → ι → Bool}

/-- One step moves the entry of the message by at most one place, and not at all if it is
an arrival of the message. -/
theorem Recognises.step (h : Recognises next inv recent own test takes) {s : σ} {i : ι}
    {depth : Nat} (hinv : inv s) (hfound : Recent.FoundBelow (recent s) test depth)
    (hroom : depth + [(s, i)].countP (addsOther next recent own) ≤ n) :
    Recent.FoundBelow (recent (next s i)) test
      (depth + [(s, i)].countP (addsOther next recent own)) := by
  have hknown : (recent s).toList.any test = true :=
    (Recent.any_iff_foundBelow _ _).mpr (hfound.mono (by omega))
  by_cases hown : own i = true
  · rw [(h.known s i hinv hown hknown).2]
    exact hfound.mono (by omega)
  · by_cases hsame : recent (next s i) = recent s
    · rw [hsame]
      exact hfound.mono (by omega)
    · have hadds : addsOther next recent own (s, i) = true := by
        simp [addsOther, hown, hsame]
      obtain ⟨entry, hpush⟩ := (h.pushes s i hinv).resolve_left hsame
      rw [List.countP_singleton, if_pos hadds] at hroom ⊢
      rw [hpush]
      exact hfound.push entry (by omega)

theorem Recognises.run (h : Recognises next inv recent own test takes) (is : List ι) :
    ∀ {s : σ} {depth : Nat}, inv s → Recent.FoundBelow (recent s) test depth →
      depth + (Run.steps next s is).countP (addsOther next recent own) ≤ n →
      Recent.FoundBelow (recent (Run.final next s is)) test
        (depth + (Run.steps next s is).countP (addsOther next recent own)) := by
  induction is with
  | nil =>
      intro s depth _ hfound _
      exact hfound
  | cons i is ih =>
      intro s depth hinv hfound hroom
      have hsplit : (Run.steps next s (i :: is)).countP (addsOther next recent own) =
          [(s, i)].countP (addsOther next recent own) +
            (Run.steps next (next s i) is).countP (addsOther next recent own) := by
        rw [← List.countP_append]
        rfl
      rw [hsplit, ← Nat.add_assoc] at hroom ⊢
      exact ih (h.keeps s i hinv) (h.step hinv hfound (by omega)) hroom

/-- The message is taken at most once. -/
theorem Recognises.atMostOnce (h : Recognises next inv recent own test takes) {s : σ}
    (hinv : inv s) (is : List ι)
    (hothers : (firstToLast (fun v => own v.2) (Run.steps next s is)).countP
      (addsOther next recent own) < n) :
    (Run.steps next s is).countP (takesOwn own takes) ≤ 1 := by
  by_contra htwice
  obtain ⟨before, v, middle, w, after, hsteps, hv, hw⟩ :=
    exists_two_of_countP (Nat.lt_of_not_le htwice)
  obtain ⟨hownv, htakesv⟩ := Bool.and_eq_true_iff.mp hv
  obtain ⟨hownw, htakesw⟩ := Bool.and_eq_true_iff.mp hw
  -- the second time, the entry of the first is still there
  have hinvv : inv v.1 := (Run.invariant next inv h.keeps hinv is).1 v (by rw [hsteps]; simp)
  obtain ⟨entry, htest, hpush⟩ := h.taken v.1 v.2 hinvv hownv htakesv
  have hcount := countP_le_firstToLast (p := fun v => own v.2) (addsOther next recent own) before
    middle after hownv hownw
  rw [← hsteps] at hcount
  have hfound : Recent.FoundBelow (recent (next v.1 v.2)) test 1 := by
    rw [hpush]
    exact Recent.foundBelow_push _ (by omega) htest
  have hrest := (Run.steps_split hsteps).2
  obtain ⟨hwstate, -⟩ := Run.steps_split hrest.symm
  have hmiddle : middle = Run.steps next (next v.1 v.2) (middle.map Prod.snd) := by
    rw [List.map_append, Run.steps_append] at hrest
    exact (List.append_inj hrest (by rw [Run.length_steps, List.length_map])).1
  have hlater := h.run (middle.map Prod.snd) (h.keeps v.1 v.2 hinvv) hfound (by
    rw [← hmiddle]
    omega)
  rw [← hwstate, ← hmiddle] at hlater
  have hinvw : inv w.1 := (Run.invariant next inv h.keeps hinv is).1 w (by rw [hsteps]; simp)
  have hknown : (recent w.1).toList.any test = true :=
    (Recent.any_iff_foundBelow _ _).mpr (hlater.mono (by omega))
  have hnot := (h.known w.1 w.2 hinvw hownw hknown).1
  rw [htakesw] at hnot
  exact Bool.noConfusion hnot

end Machine

end Pjon.Lib.Dedup
