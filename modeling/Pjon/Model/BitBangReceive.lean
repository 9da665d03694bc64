import Pjon.Model.SoftwareBitBang
import Pjon.Model.Receive
/-!
# Receiving over a pin

`PJON::receive` where the strategy is `SoftwareBitBang`: `receive_frame` hands over one byte a call,
and what the loop does in between takes a while.
-/

namespace Pjon.Model.SoftwareBitBang

open Pjon.Lib

variable (board : Board) {b : Build}

/-- The caller is busy. -/
def caller : Program Unit := Timed.operation .caller 0 fun _ _ => ()

def fetch (b : Build) (i : Nat) (st : LoopState) : Program (Except Return LoopState) :=
  if st.batchLength = 0 then do
    match ← receiveFrame board (decide (st.length - i = b.packetMaxLength)) with
    | none => return .error (fail, st.data)
    | some byte => return .ok { st with data := st.data.store i [byte], batchLength := 0 }
  else return .ok { st with batchLength := st.batchLength - 1 }

/-- The loop of `receive`, as `Bus.receiveLoop`. -/
def receiveLoop (bus : Bus b) : Nat → Nat → LoopState → Program (Except Return LoopState)
  | 0, _, st => return .ok st
  | todo + 1, i, st =>
    if i < st.length then do
      match (← fetch board b i st).bind (bus.examine i) with
      | .error early => return .error early
      | .ok st => do
        caller
        receiveLoop bus todo (i + 1) st
    else return .ok st

def receive (bus : Bus b) : Program (Outcome b) := do
  let length := b.packetMaxLength % 65536
  match ← receiveLoop board bus length 0 { data := bus.data, length := length } with
  | .error (code, data) => return { result := code, bus := { bus with data := data } }
  | .ok st =>
    if !Bus.checksumsMatch st then return { result := nak, bus := { bus with data := st.data } }
    else if bus.rejectsMac st then return { result := busy, bus := { bus with data := st.data } }
    else return bus.deliver st

/-- The loop of `receive` with a duration. -/
def receiveUntil (duration time : UInt32) : Nat → Bus b → Program (Outcome b)
  | 0, bus => return { result := fail, bus := bus }
  | turns + 1, bus => do
    let outcome ← receive board bus
    if outcome.result = ack then return outcome
    else
      let now ← micros board
      if now - time ≤ duration then do
        caller
        let later ← receiveUntil duration time turns outcome.bus
        return { later with events := outcome.events ++ later.events }
      else return outcome

/-- `receive` with a duration.  A turn takes a tick at least, so that the loop is over before its
turns are unless every time is within the duration. -/
def receiveFor (bus : Bus b) (duration : UInt32) : Program (Outcome b) := do
  let time ← micros board
  receiveUntil board duration time ((duration.toNat + 1) * board.perMicro + 1) bus

end Pjon.Model.SoftwareBitBang
