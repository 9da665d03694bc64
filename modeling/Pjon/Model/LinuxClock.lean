import Mathlib.Init
/-!
# The microsecond clock on Linux

`micros` of `PJON_LINUX_Interface.inl`, on top of a clock that counts nanoseconds.  What this
clock shows is an input, each time that a call asks for it.
-/

namespace Pjon.Model.Linux

/-- `UINT32_MAX`. -/
def uint32Max : Int := 4294967295

/-- What the clock shows during a call: when the elapsed time is taken, when the static start time
is initialised, which happens in the first call, and when it is set anew. -/
structure Call where
  now : Nat
  initial : Nat := now
  again : Nat := now
  deriving DecidableEq, Repr

/-- `std::chrono::duration_cast` from nanoseconds to microseconds, which cuts towards zero. -/
def durationCast (nanoseconds : Int) : Int := nanoseconds.tdiv 1000

/-- `getMutableStartTime`: the static variable is set when it is first asked for. -/
def getMutableStartTime (startTs : Option Nat) (initial : Nat) : Nat := startTs.getD initial

/-- `micros`: what it returns and the start time that it leaves. -/
def micros (startTs : Option Nat) (call : Call) : UInt32 × Option Nat :=
  let start := getMutableStartTime startTs call.initial
  let elapsedUsec := durationCast (call.now - start)
  if uint32Max ≤ elapsedUsec then (0, some call.again)
  else (UInt32.ofInt elapsedUsec, some start)

end Pjon.Model.Linux
