import Pjon.Lib.Run
import Pjon.Model.LinuxClock
import Mathlib.Algebra.Group.Nat.Defs
/-!
# A clock that keeps elapsed time

Modulo its range, the difference of two readings is the time between them.
-/

namespace Pjon.Spec.Linux

open Pjon.Lib Pjon.Model.Linux

/-- What a call returns. -/
def reading (startTs : Option Nat) (call : Call) : UInt32 := (micros startTs call).1

/-- The start time that it leaves. -/
def tick (startTs : Option Nat) (call : Call) : Option Nat := (micros startTs call).2

/-- The calls of a program, each with what it returns. -/
def readings (startTs : Option Nat) (calls : List Call) : List (Call × UInt32) :=
  (Run.steps tick startTs calls).map fun v => (v.2, reading v.1 v.2)

def KeepsElapsed (calls : List Call) : Prop :=
  (readings none calls).Pairwise fun r r' =>
    r'.2 - r.2 = UInt32.ofInt (durationCast (r'.1.now - r.1.now))

/-- The clock below does not go back: a call sees nothing earlier than a call before it. -/
def Forward (calls : List Call) : Prop :=
  calls.Pairwise fun call call' =>
    call.now ≤ call'.now ∧ call.initial ≤ call'.now ∧ call.again ≤ call'.now

instance (calls : List Call) : Decidable (Forward calls) := by
  unfold Forward
  exact inferInstance

/-- When a clock that shows the first call what it is shown would have shown 0.  This is the time of
the call, or whole microseconds away if the start time was initialised that long before or
behind it. -/
def origin (first : Call) : Int :=
  let elapsedUsec := durationCast (first.now - first.initial)
  first.now - 1000 * if uint32Max ≤ elapsedUsec then 0 else elapsedUsec

/-- The whole microseconds from the origin up to a time. -/
def whole (origin time : Int) : Int := (time - origin) / 1000

/-- The fraction of a microsecond at which a time lies, counted from the origin. -/
def fraction (origin time : Int) : Int := (time - origin) % 1000

/-- A call that sets the start time anew is made a multiple of the range of the clock behind the
origin.  For the others the start time is so, at no larger fraction of a microsecond than the call;
at a larger one it has to be a microsecond less. -/
def InStep (origin start now : Int) : Prop :=
  if uint32Max ≤ durationCast (now - start) then 4294967296 ∣ whole origin now
  else 4294967296 ∣ whole origin start +
    if fraction origin start ≤ fraction origin now then 0 else 1

instance (origin start now : Int) : Decidable (InStep origin start now) := by
  unfold InStep
  exact inferInstance

/-- Each call behind the first one finds the start time as it has to be. -/
def StaysInStep (calls : List Call) : Prop :=
  ∀ first ∈ calls.head?, ∀ v ∈ (Run.steps tick none calls).tail, ∀ start ∈ v.1,
    InStep (origin first) start v.2.now

/-- No call is made at a smaller fraction than one before it. -/
def FractionsGrow (calls : List Call) : Prop :=
  ∀ first ∈ calls.head?, calls.Pairwise fun call call' =>
    fraction (origin first) call.now ≤ fraction (origin first) call'.now

end Pjon.Spec.Linux
