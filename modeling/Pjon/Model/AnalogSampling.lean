import Pjon.Model.Receive
import Pjon.Lib.Stuffing
/-!
# The AnalogSampling strategy

`AnalogSampling::send_frame` and `receive_frame`, over a channel that delivers the bytes
it is given.  A frame is read one byte a call: the flags around it are those of the
first and of the last call, which are told by `max_length`.
-/

namespace Pjon.Model.AnalogSampling

open Pjon.Lib

def start : UInt8 := 149
def endFlag : UInt8 := 234
def esc : UInt8 := 187

def isFlag (value : UInt8) : Bool := value == start || value == esc || value == endFlag

/-- `receive_byte`, `none` for `AS_FAIL`. -/
def receiveByte : List UInt8 → Option UInt8 × List UInt8
  | [] => (none, [])
  | value :: channel => (some value, channel)

/-- The byte of the frame that comes next, what it stands for if it is escaped. -/
def receiveData (channel : List UInt8) : Option UInt8 × List UInt8 :=
  match receiveByte channel with
  | (none, channel) => (none, channel)
  | (some value, channel) =>
    if value = start then (none, channel)
    else if value = esc then
      match receiveByte channel with
      | (none, channel) => (none, channel)
      | (some value, channel) =>
        if value ≠ start ∧ value ≠ esc ∧ value ≠ endFlag then (none, channel)
        else (some (value ^^^ esc), channel)
    else (some value, channel)

/-- The flag that closes the frame is due behind its last byte. -/
def receiveEnd (maxLength : Nat) : Option UInt8 × List UInt8 → Option UInt8 × List UInt8
  | (none, channel) => (none, channel)
  | (some value, channel) =>
    if maxLength = 1 then
      match receiveByte channel with
      | (none, channel) => (none, channel)
      | (some flag, channel) => if flag = endFlag then (some value, channel) else (none, channel)
    else (some value, channel)

/-- `receive_frame`: what it stores at `*data` if it returns 1, `none` for `AS_FAIL`. -/
def receiveFrame (packetMaxLength : Nat) (lastByte : UInt8) (maxLength : Nat)
    (channel : List UInt8) : Option UInt8 × List UInt8 :=
  if maxLength = packetMaxLength then
    match receiveByte channel with
    | (none, channel) => (none, channel)
    | (some flag, channel) =>
      if flag ≠ start ∨ lastByte = esc then (none, channel)
      else receiveEnd maxLength (receiveData channel)
  else receiveEnd maxLength (receiveData channel)

/-- The bytes that `send_frame` gives to `send_byte`. -/
def sendFrame (frame : List UInt8) : List UInt8 :=
  start :: stuff isFlag esc (fun value => value ^^^ esc) frame ++ [endFlag]

variable {b : Build}

/-- The local variables of `receive`, and what the channel has left. -/
structure Reception where
  st : LoopState
  channel : List UInt8

/-- The body of the loop of `receive`, with the `receive_frame` of this strategy. -/
def receiveTurn (bus : Bus b) (lastByte : UInt8) (i : Nat) (reception : Reception) :
    Except Return Reception :=
  match receiveFrame b.packetMaxLength lastByte (reception.st.length - i) reception.channel with
  | (none, _) => .error (fail, reception.st.data)
  | (some value, channel) =>
    (bus.examine i { reception.st with data := reception.st.data.store i [value] }).bind
      fun st => .ok { st := st, channel := channel }

/-- The loop of `receive`. -/
def receiveLoop (bus : Bus b) (lastByte : UInt8) (channel : List UInt8) :
    Except Return Reception :=
  let length := b.packetMaxLength % 65536
  boundedLoop (fun reception => reception.st.length) (receiveTurn bus lastByte) length 0
    { st := { data := bus.data, length := length }, channel := channel }

end Pjon.Model.AnalogSampling
