import Pjon.Lib.Timed
/-!
# SoftwareBitBang

The data link layer that a strategy makes of a pin, from `SoftwareBitBang.h`.  A transmitter writes
levels, each for a while; a receiver is a program that reads the level of the pin and looks at the
clock.
-/

namespace Pjon.Model.SoftwareBitBang

open Pjon.Lib

/-- A board: the ticks of a microsecond, and the timing of `Timing.h` in microseconds, by default
that of an ATmega328 in mode 1.  `separatePins` tells whether the output pin is another one than the
input pin. -/
structure Board where
  perMicro : Nat := 16
  bitWidth : Nat := 40
  bitSpacer : Nat := 112
  acceptance : Nat := 56
  readDelay : Int := 4
  latency : Nat := 13
  preamble : Nat := 1
  maxPreamble : Nat := 1
  collisionDelay : Nat := 16
  separatePins : Bool := false
  deriving DecidableEq, Repr

def swbbFail : UInt16 := 65535

/-- How long behind a falling edge the pin is read; the read delay of a board may be negative. -/
def Board.readAfter (board : Board) : Nat := (board.bitWidth / 2 - board.readDelay).toNat

variable (board : Board)

/-! ## Sending -/

/-- The levels that are written, each with the delay behind it. -/
abbrev Writes := List (Bool × Nat)

def pad (high : Nat) : Writes := [(true, high), (false, board.bitWidth)]

/-- `pulse`. -/
def pulse (n : Nat) : Writes :=
  if board.preamble ≠ 1 ∧ n = 3 then
    pad board (board.bitSpacer * board.preamble) ++
      (List.replicate (n - 1) (pad board board.bitSpacer)).flatten
  else (List.replicate n (pad board board.bitSpacer)).flatten

def sendByte (b : UInt8) : Writes :=
  pulse board 1 ++ (List.range 8).map fun i => (b.toNat.testBit i, board.bitWidth)

def sendFrame (data : List UInt8) : Writes :=
  pulse board 3 ++ data.flatMap (sendByte board)

/-- In ticks. -/
def waveform (writes : Writes) : Waveform :=
  writes.map fun write => (write.1, write.2 * board.perMicro)

/-! ## Receiving -/

/-- The kinds of operations: `PJON_IO_READ`, a delay, `PJON_MICROS`, `PJON_IO_PULL_DOWN` or
`PJON_IO_MODE`, and what the caller does between two calls. -/
inductive Operation where
  | read
  | delay
  | micros
  | mode
  | caller
  deriving DecidableEq, Repr

abbrev Program := Timed Operation

def pinRead : Program Bool := Timed.operation .read 0 fun level time => level time

def delayMicroseconds (n : Nat) : Program Unit :=
  Timed.operation .delay (n * board.perMicro) fun _ _ => ()

def micros : Program UInt32 :=
  Timed.operation .micros 0 fun _ time => UInt32.ofNat (time / board.perMicro)

def pinMode : Program Unit := Timed.operation .mode 0 fun _ _ => ()

/-- The loop of `sync`: up to a low level, or until the spacer has elapsed. -/
def whileHigh (spacer : Nat) (time : UInt32) : Nat → Program Unit
  | 0 => pure ()
  | fuel + 1 => do
    if ← pinRead then
      let now ← micros board
      if (now - time).toNat ≤ spacer then whileHigh spacer time fuel else pure ()
    else pure ()

/-- `sync`.  A read takes a tick at least, so the loop is over before its fuel is. -/
def sync (spacer : Nat) : Program Bool := do
  pinMode
  if board.separatePins then pinMode
  let time ← micros board
  whileHigh board spacer time ((spacer + 1) * board.perMicro)
  let now ← micros board
  if (now - time).toNat < board.acceptance then return false
  else
    delayMicroseconds board board.readAfter
    if ← pinRead then return false
    else
      delayMicroseconds board (board.bitWidth / 2)
      return true

/-- The loop of `read_byte`, from bit `i` on. -/
def readBits : Nat → Nat → UInt8 → Program UInt8
  | 0, _, byteValue => return byteValue
  | count + 1, i, byteValue => do
    let bit ← pinRead
    delayMicroseconds board board.bitWidth
    readBits count (i + 1) (byteValue + (bit.toUInt8 <<< UInt8.ofNat i))

def readByte : Program UInt8 := do
  delayMicroseconds board (board.bitWidth / 2)
  let byteValue ← readBits board 7 0 0
  let bit ← pinRead
  delayMicroseconds board (board.bitWidth / 2)
  return byteValue + (bit.toUInt8 <<< 7)

def receiveByte : Program UInt16 := do
  if ← sync board board.bitSpacer then
    let byte ← readByte board
    return byte.toUInt16
  else return swbbFail

/-- The part of `receive_frame` that looks for a frame initializer and checks its timing. -/
def frameInitializer : Program Bool := do
  let time ← micros board
  if ← sync board (board.bitSpacer * board.maxPreamble) then
    if ← sync board board.bitSpacer then
      if ← sync board board.bitSpacer then
        let now ← micros board
        return decide (board.bitWidth * 3 + board.bitSpacer * 3 - board.acceptance ≤
          (now - time).toNat)
      else return false
    else return false
  else return false

/-- `receive_frame`, where `first` tells whether `max_length` is `PJON_PACKET_MAX_LENGTH`.  The
result is the byte, if there is one. -/
def receiveFrame (first : Bool) : Program (Option UInt8) := do
  let heard ← (if first then frameInitializer board else pure true)
  if heard then
    let result ← receiveByte board
    return if result = swbbFail then none else some result.toUInt8
  else return none

/-! ## Looking for a transmission -/

/-- The loop of `can_start`. -/
def scan : Nat → Program Bool
  | 0 => return true
  | count + 1 => do
    if ← pinRead then return false
    else
      delayMicroseconds board board.bitWidth
      scan count

/-- `can_start`, where `random` is what `PJON_RANDOM` returns. -/
def canStart (random : Nat) : Program Bool := do
  pinMode
  delayMicroseconds board (board.bitSpacer / 2)
  if ← pinRead then return false
  else
    delayMicroseconds board (board.bitSpacer / 2)
    if ← pinRead then return false
    else
      delayMicroseconds board (board.bitWidth / 2)
      if ← scan board 9 then
        if ← pinRead then return false
        else
          delayMicroseconds board board.latency
          if ← pinRead then return false
          else
            delayMicroseconds board random
            return !(← pinRead)
      else return false

end Pjon.Model.SoftwareBitBang
