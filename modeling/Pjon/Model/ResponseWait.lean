import Pjon.Model.AnalogSampling
/-!
# Waiting for a response

`receive_response` of `OverSampling` and `AnalogSampling`.  Both poll the line until a
response has arrived or the time-out is over.  What the clock shows when the condition of
the loop reads it, and what its body finds on the line, are inputs.
-/

namespace Pjon.Model

open Pjon.Lib

/-- What the loop comes to: the response, and for each time it has read the clock whether it
goes on. -/
structure Wait where
  response : Nat
  tests : List Bool := []
  deriving DecidableEq, Repr

/-- The loop of `receive_response`: `waits` is its test of the response, `body` what a turn
makes of it.  Where the turns end, the loop has not. -/
def waitLoop {ι : Type} (waits : Nat → Bool) (body : Nat → ι → Nat) (timeout time : UInt32) :
    Nat → List (UInt32 × ι) → Wait
  | response, [] => { response := response }
  | response, (now, arrival) :: turns =>
    if waits response then
      if now - timeout ≤ time then
        let rest := waitLoop waits body timeout time (body response arrival) turns
        { rest with tests := true :: rest.tests }
      else { response := response, tests := [false] }
    else { response := response }

namespace OverSampling

/-- `OS_TIMEOUT`. -/
def osTimeout : UInt32 := 10000

/-- `receive_response`.  A turn finds what `receive_byte` returns behind a `sync` that succeeds,
and `none` behind one that does not. -/
def receiveResponse (time : UInt32) (turns : List (UInt32 × Option Nat)) : Wait :=
  waitLoop (fun response => response == fail) (fun response arrival => arrival.getD response)
    osTimeout time fail turns

end OverSampling

namespace AnalogSampling

/-- `receive_response`.  A turn finds what `receive_byte` returns; `AS_RESPONSE_TIMEOUT` is a
setting. -/
def receiveResponse (asResponseTimeout time : UInt32) (turns : List (UInt32 × Nat)) : Wait :=
  waitLoop (fun response => response != ack) (fun _ received => received) asResponseTimeout time
    fail turns

end AnalogSampling

end Pjon.Model
