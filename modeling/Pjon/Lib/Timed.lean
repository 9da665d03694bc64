import Mathlib.Data.List.Forall2
/-!
# Programs that read a wire

A program reads the level of a wire, waits and looks at the clock.  Time is counted in ticks.  An
operation takes longer than it should, by a lag that depends on its kind and differs from one time
to the next.  What is proved about a program holds for all lags within bounds.
-/

namespace Pjon.Lib

/-- The level of a wire at each time, and the lag of each operation of the program. -/
structure Wire (κ : Type) where
  level : Nat → Bool
  lag : κ → Nat → Nat

structure Moment where
  time : Nat
  operations : Nat := 0
  deriving DecidableEq, Repr

/-- How much longer an operation of each kind takes. -/
structure Lags (κ : Type) where
  least : κ → Nat
  most : κ → Nat

def Timed (κ α : Type) : Type := Wire κ → Moment → α × Moment

namespace Timed

variable {κ α β : Type}

instance : Monad (Timed κ) where
  pure a := fun _ now => (a, now)
  bind p f := fun wire now => f (p wire now).1 wire (p wire now).2

/-- An operation of so many ticks, which looks at the wire and the clock first. -/
def operation (kind : κ) (ticks : Nat) (look : (Nat → Bool) → Nat → α) : Timed κ α :=
  fun wire now =>
    (look wire.level now.time,
      { time := now.time + ticks + wire.lag kind now.operations
        operations := now.operations + 1 })

/-- From this time on, the program comes to a result and a time of which `post` is true, whatever
the lags are. -/
def Within (lags : Lags κ) (level : Nat → Bool) (p : Timed κ α) (time : Nat)
    (post : α → Nat → Prop) : Prop :=
  ∀ (lag : κ → Nat → Nat) (operations : Nat),
    (∀ kind k, lags.least kind ≤ lag kind k ∧ lag kind k ≤ lags.most kind) →
      post (p { level := level, lag := lag } { time := time, operations := operations }).1
        (p { level := level, lag := lag } { time := time, operations := operations }).2.time

variable {lags : Lags κ} {level : Nat → Bool} {time : Nat} {post : α → Nat → Prop}

theorem within_pure {a : α} (h : post a time) : Within lags level (pure a) time post :=
  fun _ _ _ => h

theorem within_bind {p : Timed κ β} {f : β → Timed κ α}
    (h : Within lags level p time fun b time' => Within lags level (f b) time' post) :
    Within lags level (p >>= f) time post := fun lag operations hlag =>
  h lag operations hlag lag _ hlag

theorem Within.mono {p : Timed κ α} {post' : α → Nat → Prop} (h : Within lags level p time post)
    (himp : ∀ a time', post a time' → post' a time') : Within lags level p time post' :=
  fun lag operations hlag => himp _ _ (h lag operations hlag)

theorem within_operation {kind : κ} {ticks : Nat} {look : (Nat → Bool) → Nat → α}
    (h : ∀ time', time + ticks + lags.least kind ≤ time' →
      time' ≤ time + ticks + lags.most kind → post (look level time) time') :
    Within lags level (operation kind ticks look) time post := fun lag operations hlag => by
  obtain ⟨hleast, hmost⟩ := hlag kind operations
  exact h _ (Nat.add_le_add_left hleast _) (Nat.add_le_add_left hmost _)

/-- An operation in a program. -/
theorem within_step {kind : κ} {ticks : Nat} {look : (Nat → Bool) → Nat → β} {f : β → Timed κ α}
    (h : ∀ time', time + ticks + lags.least kind ≤ time' →
      time' ≤ time + ticks + lags.most kind → Within lags level (f (look level time)) time' post) :
    Within lags level (operation kind ticks look >>= f) time post :=
  within_bind (within_operation h)

end Timed

/-! ## Waveforms -/

/-- Levels with how long each of them is kept. -/
abbrev Waveform := List (Bool × Nat)

namespace Waveform

/-- The level from `start` on; the wire is low behind the last segment. -/
def levelFrom (start : Nat) : Waveform → Nat → Bool
  | [], _ => false
  | segment :: rest, time =>
    if time < start + segment.2 then segment.1 else levelFrom (start + segment.2) rest time

/-- The level of a wire that is low up to `start`. -/
def level (start : Nat) (waveform : Waveform) (time : Nat) : Bool :=
  if time < start then false else levelFrom start waveform time

def duration : Waveform → Nat
  | [] => 0
  | (_, length) :: rest => length + duration rest

theorem duration_cons (bit : Bool) (length : Nat) (rest : Waveform) :
    duration ((bit, length) :: rest) = length + duration rest := rfl

theorem duration_append (first second : Waveform) :
    duration (first ++ second) = duration first + duration second := by
  induction first with
  | nil => exact (Nat.zero_add _).symm
  | cons segment first ih =>
      obtain ⟨bit, length⟩ := segment
      rw [List.cons_append, duration_cons, duration_cons, ih, Nat.add_assoc]

/-- Each level is kept for at least as long as it should be, and at most `bound` longer. -/
def Stretched (bound : Nat) : Waveform → Waveform → Prop :=
  List.Forall₂ fun nominal actual =>
    actual.1 = nominal.1 ∧ nominal.2 ≤ actual.2 ∧ actual.2 ≤ nominal.2 + bound

variable {bound : Nat} {bit : Bool} {length : Nat}

theorem Stretched.longer {longer : Nat} (h : longer ≤ bound) (waveform : Waveform) :
    Stretched bound waveform (waveform.map fun segment => (segment.1, segment.2 + longer)) :=
  List.forall₂_map_right_iff.mpr (List.forall₂_same.mpr fun _ _ =>
    ⟨rfl, Nat.le_add_right _ _, Nat.add_le_add_left h _⟩)

theorem Stretched.cons_left {rest actual : Waveform}
    (h : Stretched bound ((bit, length) :: rest) actual) :
    ∃ (length' : Nat) (rest' : Waveform), actual = (bit, length') :: rest' ∧ length ≤ length' ∧
      length' ≤ length + bound ∧ Stretched bound rest rest' := by
  cases h with
  | @cons _ segment' _ rest' hsegment hrest =>
      obtain ⟨bit', length'⟩ := segment'
      obtain ⟨rfl, hleast, hmost⟩ := hsegment
      exact ⟨length', rest', rfl, hleast, hmost, hrest⟩

theorem Stretched.append_left {first second actual : Waveform}
    (h : Stretched bound (first ++ second) actual) :
    ∃ first' second', actual = first' ++ second' ∧ Stretched bound first first' ∧
      Stretched bound second second' := by
  induction first generalizing actual with
  | nil => exact ⟨[], actual, rfl, .nil, h⟩
  | cons segment first ih =>
      obtain ⟨bit, length⟩ := segment
      obtain ⟨length', rest, rfl, hleast, hmost, hrest⟩ := Stretched.cons_left h
      obtain ⟨first', second', rfl, hfirst, hsecond⟩ := ih hrest
      exact ⟨(bit, length') :: first', second', rfl, .cons ⟨rfl, hleast, hmost⟩ hfirst, hsecond⟩

theorem Stretched.duration_le {waveform actual : Waveform} (h : Stretched bound waveform actual) :
    duration actual ≤ duration waveform + waveform.length * bound := by
  induction waveform generalizing actual with
  | nil =>
      obtain rfl := List.forall₂_nil_left_iff.mp h
      exact Nat.zero_le _
  | cons segment waveform ih =>
      obtain ⟨bit, length⟩ := segment
      obtain ⟨length', rest, rfl, -, hmost, hrest⟩ := Stretched.cons_left h
      have hle := ih hrest
      rw [duration_cons, duration_cons, List.length_cons, Nat.succ_mul]
      omega

/-- The wire follows a waveform from this time on. -/
def Carries (level : Nat → Bool) (start : Nat) (waveform : Waveform) : Prop :=
  ∀ time, start ≤ time → level time = levelFrom start waveform time

theorem carries_level (start : Nat) (waveform : Waveform) :
    Carries (level start waveform) start waveform := fun _ htime =>
  if_neg (Nat.not_lt.mpr htime)

theorem level_before {waveform : Waveform} {start time : Nat} (h : time < start) :
    level start waveform time = false := if_pos h

variable {level : Nat → Bool} {start : Nat} {rest : Waveform}

theorem Carries.here (h : Carries level start ((bit, length) :: rest)) {time : Nat}
    (hstart : start ≤ time) (htime : time < start + length) : level time = bit := by
  rw [h time hstart, levelFrom, if_pos htime]

theorem Carries.next (h : Carries level start ((bit, length) :: rest)) :
    Carries level (start + length) rest := fun time htime => by
  rw [h time (Nat.le_trans (Nat.le_add_right _ _) htime), levelFrom, if_neg (Nat.not_lt.mpr htime)]

theorem Carries.append {first : Waveform} (h : Carries level start (first ++ rest)) :
    Carries level (start + duration first) rest := by
  induction first generalizing start with
  | nil => exact h
  | cons segment first ih =>
      obtain ⟨bit, length⟩ := segment
      rw [duration_cons, ← Nat.add_assoc]
      exact ih h.next

theorem Carries.nil (h : Carries level start []) {time : Nat} (htime : start ≤ time) :
    level time = false := h time htime

/-! ## Pulses -/

/-- The wire is high for so long. -/
def Pulse (level : Nat → Bool) (high rise : Nat) : Prop :=
  ∀ time, rise ≤ time → time < rise + high → level time = true

/-- Pulses of at least `high` ticks, each with anything behind it for at most `gap` ticks. -/
inductive Pulsed (high gap : Nat) : Waveform → Prop where
  | nil : Pulsed high gap []
  | cons {length : Nat} {between waveform : Waveform} (hlength : high ≤ length)
      (hgap : duration between ≤ gap) (h : Pulsed high gap waveform) :
      Pulsed high gap ((true, length) :: between ++ waveform)

theorem Pulsed.begins {high gap : Nat} {waveform : Waveform} (h : Pulsed high gap waveform)
    (hne : waveform ≠ []) (hlevel : Carries level start waveform) : Pulse level high start := by
  cases h with
  | nil => exact absurd rfl hne
  | cons hlength hgap h => exact fun time hfrom hto => hlevel.here hfrom (by omega)

/-- A wire that is low has another pulse soon, or nothing more to carry. -/
theorem Pulsed.soon {high gap : Nat} {waveform : Waveform} (h : Pulsed high gap waveform)
    (hlevel : Carries level start waveform) {time : Nat} (hstart : start ≤ time)
    (hlow : level time = false) :
    (∃ rise, time < rise ∧ rise ≤ time + gap ∧ Pulse level high rise) ∨
      start + duration waveform ≤ time + gap := by
  induction h generalizing start with
  | nil => exact Or.inr (Nat.le_trans hstart (Nat.le_add_right _ _))
  | @cons length between waveform hlength hgap h ih =>
      have hfall : start + length ≤ time := by
        by_contra hbefore
        have hhigh : level time = true := hlevel.here hstart (Nat.lt_of_not_le hbefore)
        rw [hhigh] at hlow
        exact Bool.noConfusion hlow
      have hrest : Carries level (start + length + duration between) waveform := hlevel.next.append
      have htotal : duration ((true, length) :: between ++ waveform) =
          length + (duration between + duration waveform) := by
        rw [List.cons_append, duration_cons, duration_append]
      rw [htotal]
      by_cases hbetween : start + length + duration between ≤ time
      · rcases ih hrest hbetween with hpulse | hend
        · exact Or.inl hpulse
        · exact Or.inr (by omega)
      · cases h with
        | nil =>
            rw [duration]
            exact Or.inr (by omega)
        | cons hlength' hgap' h' =>
            exact Or.inl ⟨start + length + duration between, by omega, by omega,
              fun time' hfrom hto => hrest.here hfrom (by omega)⟩

/-- The wire was low at `first` and is at `last`, and no pulse has begun in between. -/
structure Quiet (level : Nat → Bool) (high first last : Nat) : Prop where
  low : level first = false
  through : ∀ rise, first < rise → Pulse level high rise → last < rise

theorem Quiet.of_low {high time : Nat} (h : level time = false) : Quiet level high time time :=
  ⟨h, fun _ hlt _ => hlt⟩

/-- No pulse is over between two looks that are not further apart than it is long. -/
theorem Quiet.next {high first last next : Nat} (h : Quiet level high first last)
    (hsoon : next < last + high) (hlow : level next = false) : Quiet level high first next where
  low := h.low
  through := fun rise hfirst hpulse => by
    by_contra hover
    have hlast : last < rise := h.through rise hfirst hpulse
    have hhigh : level next = true := hpulse next (Nat.le_of_not_lt hover) (by omega)
    rw [hhigh] at hlow
    exact Bool.noConfusion hlow

end Waveform

end Pjon.Lib
