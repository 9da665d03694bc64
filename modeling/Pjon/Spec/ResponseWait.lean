import Pjon.Model.ResponseWait
/-!
# How long a sender waits for a response

Until the time-out is over, and no longer.  Time is counted from the start of the wait, in
microseconds that do not wrap.
-/

namespace Pjon.Spec

open Pjon.Lib Pjon.Model

variable {ι : Type}

/-- The turns of a wait that begins at `start`, if the clock is read at these times. -/
def turnsFrom (start : UInt32) (arrivals : List (Nat × ι)) : List (UInt32 × ι) :=
  arrivals.map fun arrival => (start + UInt32.ofNat arrival.1, arrival.2)

/-- The loop goes on at every reading before the time-out, and not at one behind it. -/
def RespectsTimeout (timeout : UInt32) (arrivals : List (Nat × ι)) (wait : Wait) : Prop :=
  ∀ v ∈ (arrivals.map Prod.fst).zip wait.tests,
    (v.1 < timeout.toNat → v.2 = true) ∧ (timeout.toNat < v.1 → v.2 = false)

/-- Before the time-out, the counter has got as far as the time-out, counted on from the start
of the wait; behind it, the excess does not carry the start of the wait to the next wrap. -/
def InWindow (timeout start : UInt32) (elapsed : Nat) : Prop :=
  (elapsed < timeout.toNat → timeout.toNat ≤ start.toNat + elapsed) ∧
    (timeout.toNat < elapsed →
      0 < (elapsed - timeout.toNat) % 2 ^ 32 ∧
        start.toNat + (elapsed - timeout.toNat) % 2 ^ 32 < 2 ^ 32)

/-- So it is for the readings up to the first one behind the time-out, as long as nothing that
arrives is a response. -/
def ReadInWindow (silent : ι → Bool) (timeout start : UInt32) (arrivals : List (Nat × ι)) :
    Prop :=
  ∀ before v after, arrivals = before ++ v :: after →
    (∀ u ∈ before, u.1 ≤ timeout.toNat ∧ silent u.2 = true) → InWindow timeout start v.1

/-- `OverSampling` has received no byte in a turn. -/
def hearsNothing (arrival : Option Nat) : Bool := arrival.getD fail == fail

/-- What `AnalogSampling` has received in a turn is no acknowledgement. -/
def hearsNoAck (received : Nat) : Bool := received != ack

end Pjon.Spec
