import Pjon.Model.SoftwareBitBang
import Pjon.Model.Receive
/-!
# Responses over a pin

`send_response` and `receive_response` of `SoftwareBitBang.h`.  The end that waits for a response
makes the pin high for a while in between, which the other end takes for its turn.  A write to a pin
lags as a change of its mode does.
-/

namespace Pjon.Model.SoftwareBitBang

open Pjon.Lib

variable (board : Board)

/-- `PJON_IO_WRITE`. -/
def pinWrite : Program Unit := Timed.operation .mode 0 fun _ _ => ()

/-! ## The end that answers -/

/-- The loops of `send_response`: up to this level, or for so many microseconds. -/
def waitFor (awaited : Bool) (duration : Nat) (time : UInt32) : Nat → Program Unit
  | 0 => pure ()
  | fuel + 1 => do
    let now ← micros board
    if (now - time).toNat < duration then
      if (← pinRead) = awaited then pure () else waitFor awaited duration time fuel
    else pure ()

/-- The part of `send_response` in front of its writes.  A read takes a tick at least, so a loop is
over before its fuel is. -/
def awaitTurn : Program Unit := do
  pinMode
  let time ← micros board
  waitFor board true board.bitWidth time (board.bitWidth * board.perMicro + 1)
  let time ← micros board
  waitFor board false (board.bitWidth / 4) time (board.bitWidth / 4 * board.perMicro + 1)
  pinMode

/-- What `send_response` writes. -/
def sendResponse (response : UInt8) : Writes := pulse board 1 ++ sendByte board response

/-! ## The end that waits -/

/-- A look for a response. -/
def listen : Program UInt16 := do
  pinWrite
  if ← sync board board.bitSpacer then receiveByte board else return swbbFail

/-- The high bit that the other end waits for. -/
def ask : Program Unit := do
  pinMode
  pinWrite
  delayMicroseconds board (board.bitWidth / 4)
  pinMode

/-- The loop of `receive_response`. -/
def responseLoop (timeout : Nat) (time : UInt32) : Nat → Program UInt16
  | 0 => return swbbFail
  | turns + 1 => do
    let now ← micros board
    if (now - time).toNat < timeout then
      let response ← listen board
      if response = swbbFail then
        ask board
        responseLoop timeout time turns
      else return response
    else return swbbFail

/-- `receive_response`, with what `send_frame` has left in `_timeout`. -/
def receiveResponse (timeout : Nat) : Program UInt16 := do
  if board.separatePins then pinWrite
  let time ← micros board
  responseLoop board timeout time (timeout * board.perMicro + 1)

/-- The part of `send_packet` from `receive_response` on. -/
def awaitResponse (timeout : Nat) : Program Nat := do
  let response ← receiveResponse board timeout
  return if response.toNat = ack then ack else fail

/-- `SWBB_RESPONSE_OFFSET`. -/
def responseOffset : Nat := 20

/-- `_timeout` behind `send_frame`. -/
def responseTimeout (length : Nat) : Nat := (length * responseOffset + board.latency) % 65536

end Pjon.Model.SoftwareBitBang
