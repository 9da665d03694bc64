import Pjon.Model.Header
import Pjon.Lib.Stuffing
/-!
# The ThroughSerial strategy

`ThroughSerial::receive_frame`, a state machine over the bytes that a serial port
delivers, and `send_frame`.  What a call gets from the outside (the clock, and the bytes that are
available while it runs) is its input; every index at which `buffer` is accessed
is recorded.
-/

namespace Pjon.Model.ThroughSerial

open Pjon.Lib

def start : UInt8 := 149
def endFlag : UInt8 := 234
def esc : UInt8 := 187
def tsFail : Nat := 65535

/-- The value is one of the flags, which are escaped within a frame. -/
def isFlag (value : UInt8) : Bool := value == start || value == esc || value == endFlag

inductive State where
  | waiting
  | receiving
  | waitingEscape
  | waitingEnd
  | done
  deriving DecidableEq, Repr

/-- The compile-time settings of the strategy.  The bytes of a response are counted in an
`int8_t`. -/
structure Settings where
  packetMaxLength : Nat := 50
  responseLength : Nat := 1
  responseLength_lt : responseLength < 128 := by decide
  byteTimeOut : UInt32 := 1000000

/-- What `PJON_SERIAL_READ` returns, `none` for -1, and the time it returns at. -/
structure Read where
  value : Option UInt8
  now : UInt32 := 0
  deriving DecidableEq, Repr

/-- One call of `receive_frame`: the clock at its three tests of time, and the reads that
the port allows for while it runs. -/
structure Call where
  maxLength : Nat
  intervalNow : UInt32 := 0
  callNow : UInt32 := 0
  timeoutNow : UInt32 := 0
  reads : List Read := []
  deriving DecidableEq, Repr

/-- `before` is what lies in front of the bytes that a response is made of, the nearest first. -/
structure Port where
  before : Memory := fun _ => 0
  buffer : Memory := fun _ => 0
  position : Nat := 0
  state : State := .waiting
  response : Memory := fun _ => 0
  lastReceptionTime : UInt32 := 0
  lastCallTime : UInt32 := 0
  readInterval : UInt32 := 100

/-- What one call does. -/
structure Frame where
  result : Nat := tsFail
  port : Port
  stored : List Nat := [] -- the indexes of `buffer[position++]`
  data : List UInt8 := [] -- what is copied to the caller
  prepared : List Int := [] -- the indexes `prepare_response` reads

namespace Port

/-- `receive_byte`. -/
def receiveByte (port : Port) (read : Read) : Port :=
  match read.value with
  | none => port
  | some _ => { port with lastReceptionTime := read.now }

/-- `buffer[position++] = value`. -/
def store (port : Port) (value : UInt8) : Port :=
  { port with
    buffer := port.buffer.store port.position [value]
    position := (port.position + 1) % 65536 }

/-- `fail(state)`. -/
def fail (port : Port) (state : State) : Frame := { port := { port with state := state } }

def waiting (port : Port) : List Read → Frame
  | [] => { port := port }
  | read :: reads =>
    let port := port.receiveByte read
    match read.value with
    | none => { port := port }
    | some value =>
      if value = start then { port with position := 0 }.fail .receiving
      else port.waiting reads

/-- The loop of the case `TS_RECEIVING`. -/
def receiving (settings : Settings) (maxLength : Nat) (port : Port) : List Read → Frame
  | [] => { port := port }
  | read :: reads =>
    let port := port.receiveByte read
    match read.value with
    | none => port.fail .waiting
    | some value =>
      if value = start then port.fail .waiting
      else if value = esc then
        match reads with
        | [] => port.fail .waitingEscape
        | escaped :: reads =>
          let port := port.receiveByte escaped
          match escaped.value with
          | none => port.fail .waiting
          | some value =>
            if isFlag (value ^^^ esc) then
              let frame := (port.store (value ^^^ esc)).receiving settings maxLength reads
              { frame with stored := port.position :: frame.stored }
            else port.fail .waiting
      else if maxLength = 1 then port.fail .waitingEnd
      else if settings.packetMaxLength ≤ port.position + 1 then port.fail .waiting
      else if value = endFlag then port.fail .done
      else
        let frame := (port.store value).receiving settings maxLength reads
        { frame with stored := port.position :: frame.stored }

def waitingEscape (port : Port) : List Read → Frame
  | [] => { port := port }
  | escaped :: _ =>
    let port := port.receiveByte escaped
    match escaped.value with
    | none => port.fail .waiting
    | some value =>
      if isFlag (value ^^^ esc) then
        { (port.store (value ^^^ esc)).fail .receiving with stored := [port.position] }
      else port.fail .waiting

def waitingEnd (port : Port) : List Read → Frame
  | [] => { port := port }
  | read :: _ =>
    let port := port.receiveByte read
    if read.value = some endFlag then port.fail .done else port.fail .waiting

/-- The index that `prepare_response` reads for byte `i` of the response. -/
def responseIndex (settings : Settings) (position i : Nat) : Int :=
  position - ((settings.responseLength - 1 : Int) - i) - 1

/-- The byte at an index, which may be in front of the buffer. -/
def byteAt (port : Port) : Int → UInt8
  | .ofNat index => port.buffer index
  | .negSucc index => port.before index

/-- `prepare_response`: flags do not appear in a response. -/
def prepareResponse (settings : Settings) (port : Port) : Port :=
  { port with
    response := port.response.store 0 ((List.range settings.responseLength).map fun i =>
      let raw := port.byteAt (responseIndex settings port.position i)
      if isFlag raw then raw - 1 else raw) }

def done (settings : Settings) (port : Port) : Frame :=
  { result := port.position
    port := { port.prepareResponse settings with state := .waiting }
    data := port.buffer.load 0 port.position
    prepared := (List.range settings.responseLength).map
      (responseIndex settings port.position) }

/-- The call comes before the read interval is over. -/
def tooEarly (port : Port) (call : Call) : Bool :=
  port.lastCallTime != 0 && decide (call.intervalNow - port.lastCallTime < port.readInterval)

/-- The rest of a frame has not come in time. -/
def timedOut (settings : Settings) (port : Port) (call : Call) : Bool :=
  (port.state == .receiving || port.state == .waitingEnd || port.state == .waitingEscape) &&
    decide (settings.byteTimeOut < call.timeoutNow - port.lastReceptionTime)

/-- The `switch` over the state. -/
def switch (settings : Settings) (port : Port) (call : Call) : Frame :=
  match port.state with
  | .waiting => port.waiting call.reads
  | .receiving => port.receiving settings call.maxLength call.reads
  | .waitingEscape => port.waitingEscape call.reads
  | .waitingEnd => port.waitingEnd call.reads
  | .done => port.done settings

/-- `receive_frame`. -/
def receiveFrame (settings : Settings) (port : Port) (call : Call) : Frame :=
  if port.tooEarly call then { port := port }
  else
    let port := { port with lastCallTime := call.callNow }
    if port.timedOut settings call then port.fail .waiting else port.switch settings call

/-! ## What a call takes from the port -/

def waitingReads : List Read → Nat
  | [] => 0
  | read :: reads =>
    match read.value with
    | none => 1
    | some value => if value = start then 1 else waitingReads reads + 1

def receivingReads (settings : Settings) (maxLength : Nat) : Nat → List Read → Nat
  | _, [] => 0
  | position, read :: reads =>
    match read.value with
    | none => 1
    | some value =>
      if value = start then 1
      else if value = esc then
        match reads with
        | [] => 1
        | escaped :: reads =>
          match escaped.value with
          | none => 2
          | some value =>
            if isFlag (value ^^^ esc) then
              receivingReads settings maxLength ((position + 1) % 65536) reads + 2
            else 2
      else if maxLength = 1 then 1
      else if settings.packetMaxLength ≤ position + 1 then 1
      else if value = endFlag then 1
      else receivingReads settings maxLength ((position + 1) % 65536) reads + 1

def switchReads (settings : Settings) (port : Port) (call : Call) : Nat :=
  match port.state with
  | .waiting => waitingReads call.reads
  | .receiving => receivingReads settings call.maxLength port.position call.reads
  | .waitingEscape => (call.reads.take 1).length
  | .waitingEnd => (call.reads.take 1).length
  | .done => 0

/-- How many of the reads that are available `receive_frame` makes. -/
def readsMade (settings : Settings) (port : Port) (call : Call) : Nat :=
  if port.tooEarly call then 0
  else if port.timedOut settings call then 0
  else port.switchReads settings call

/-! ## Sending -/

/-- The bytes that `send_frame` writes, if the port takes them all. -/
def written (frame : List UInt8) : List UInt8 :=
  start :: stuff isFlag esc (fun value => value ^^^ esc) frame ++ [endFlag]

/-- What `send_frame` leaves: the response that it expects. -/
def sendFrame (settings : Settings) (port : Port) (frame : List UInt8) : Port :=
  { port with
    response := ({ port with
      buffer := fun i => frame.getD i 0
      position := frame.length }.prepareResponse settings).response }

end Port

/-! ## The object around the buffer -/

/-- What the call stores finds room in `buffer`. -/
def Frame.Inside (settings : Settings) (frame : Frame) : Prop :=
  ∀ i ∈ frame.stored, i < settings.packetMaxLength

instance (settings : Settings) (frame : Frame) : Decidable (frame.Inside settings) := by
  unfold Frame.Inside
  exact inferInstance

/-- What a call returns and copies, how many bytes it takes from the port, and the object that
it leaves. -/
structure Outcome (α : Type) where
  result : Nat := tsFail
  data : List UInt8 := []
  reads : Nat := 0
  next : α

def Outcome.map {α β : Type} (f : α → β) (outcome : Outcome α) : Outcome β where
  result := outcome.result
  data := outcome.data
  reads := outcome.reads
  next := f outcome.next

/-- What a call does that stores behind `buffer`, where the other members of the object lie,
and what later calls do.  The language leaves both open. -/
structure Overrun (σ : Type) where
  leaves : Settings → Port → Call → Outcome σ
  later : Settings → σ → Call → Outcome σ

/-- A port, or what it has become when a call stored behind its buffer. -/
inductive Receiver (σ : Type) where
  | sound (port : Port)
  | overrun (object : σ)

/-- `receive_frame` of an object. -/
def Receiver.receiveFrame {σ : Type} (overrun : Overrun σ) (settings : Settings) :
    Receiver σ → Call → Outcome (Receiver σ)
  | .sound port, call =>
    let frame := port.receiveFrame settings call
    if frame.Inside settings then
      { result := frame.result
        data := frame.data
        reads := port.readsMade settings call
        next := .sound frame.port }
    else (overrun.leaves settings port call).map .overrun
  | .overrun object, call => (overrun.later settings object call).map .overrun

/-! ## The members in the order of their declaration -/

/-- The values of `TS_state_t`. -/
def State.code : State → UInt8
  | .waiting => 0
  | .receiving => 1
  | .waitingEscape => 2
  | .waitingEnd => 3
  | .done => 4

def State.ofCode (code : UInt8) : Option State :=
  [State.waiting, .receiving, .waitingEscape, .waitingEnd, .done].find? (·.code == code)

/-- A port whose `state` may hold a value that is none of the constants. -/
structure Object where
  port : Port
  state : UInt8

namespace Object

/-- A call in a state that is one of the cases of the `switch`.  `position` is written behind
the byte at it, so what is stored over `position` is lost; what is stored over `state`, which lies
at `stateAt`, stays unless the call goes on to `fail`. -/
def leaves (stateAt : Nat) (settings : Settings) (port : Port) (call : Call) : Outcome Object :=
  let frame := port.receiveFrame settings call
  let stays := port.state == .receiving && frame.port.state == .receiving &&
    decide (stateAt ∈ frame.stored)
  { result := frame.result
    data := frame.data
    reads := port.readsMade settings call
    next := { port := frame.port
              state := if stays then frame.port.buffer stateAt else frame.port.state.code } }

/-- No case of the `switch` is that of another state. -/
def later (stateAt : Nat) (settings : Settings) (object : Object) (call : Call) :
    Outcome Object :=
  match State.ofCode object.state with
  | some state => leaves stateAt settings { object.port with state := state } call
  | none =>
    { next :=
        if object.port.tooEarly call then object
        else { object with port := { object.port with lastCallTime := call.callNow } } }

end Object

/-- `buffer`, `position` and `state` follow each other, and `state` is at `stateAt`. -/
def declared (stateAt : Nat) : Overrun Object where
  leaves := Object.leaves stateAt
  later := Object.later stateAt

end Pjon.Model.ThroughSerial
