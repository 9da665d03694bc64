import Pjon.Model.ThroughSerial
import Pjon.Model.AnalogSampling
import Pjon.Lib.Run
/-!
# A frame on a serial line, a packet on a light channel

What one port has written arrives at another one piece by piece, while that one calls
`receive_frame` again and again.  What is sampled from a channel is asked for by `receive`,
one byte a call.
-/

namespace Pjon.Spec

open Pjon.Lib Pjon.Model.ThroughSerial

/-- A receiver, and what it has not yet read of what was written. -/
structure Line where
  port : Port
  coming : List UInt8

/-- One call of `receive_frame`: the clock, and how many bytes of the line have arrived
that are not read yet. -/
structure Poll where
  intervalNow : UInt32 := 0
  callNow : UInt32 := 0
  timeoutNow : UInt32 := 0
  readNow : Nat → UInt32 := fun _ => 0
  arrived : Nat

namespace Line

variable (settings : Settings)

def call (line : Line) (poll : Poll) : Call where
  maxLength := settings.packetMaxLength
  intervalNow := poll.intervalNow
  callNow := poll.callNow
  timeoutNow := poll.timeoutNow
  reads := (line.coming.take poll.arrived).zipIdx.map fun byte =>
    { value := some byte.1, now := poll.readNow byte.2 }

def frame (line : Line) (poll : Poll) : Frame :=
  line.port.receiveFrame settings (line.call settings poll)

def step (line : Line) (poll : Poll) : Line where
  port := (line.frame settings poll).port
  coming := line.coming.drop (line.port.readsMade settings (line.call settings poll))

/-- The call does not find that the rest of a frame is missing. -/
def InTime (line : Line) (poll : Poll) : Prop :=
  line.port.tooEarly (line.call settings poll) = true ∨
    line.port.timedOut settings (line.call settings poll) = false

/-- The call does not come too early, and at least one byte has arrived if there are any. -/
def Attends (line : Line) (poll : Poll) : Prop :=
  line.port.tooEarly (line.call settings poll) = false ∧ (line.coming = [] ∨ 0 < poll.arrived)

/-- What was written is read, and no frame is left to be returned. -/
def Drained (line : Line) : Prop := line.coming = [] ∧ line.port.state ≠ .done

/-- The frame that the next call returns. -/
def pending (line : Line) : List (Nat × List UInt8) :=
  if line.port.state = .done ∧ line.port.position ≠ tsFail then
    [(line.port.position, line.port.buffer.load 0 line.port.position)]
  else []

/-- The receiver is not in the middle of a frame. -/
def BetweenFrames (line : Line) : Prop := line.port.state = .waiting ∨ line.port.state = .done

instance (line : Line) : Decidable line.BetweenFrames := by
  unfold BetweenFrames
  exact inferInstance

instance (line : Line) : Decidable line.Drained := by
  unfold Drained
  exact inferInstance

instance (line : Line) (poll : Poll) : Decidable (line.InTime settings poll) := by
  unfold InTime
  exact inferInstance

instance (line : Line) (poll : Poll) : Decidable (line.Attends settings poll) := by
  unfold Attends
  exact inferInstance

/-- The frames that the calls return, with the lengths that they return. -/
def received (steps : List (Line × Poll)) : List (Nat × List UInt8) :=
  steps.filterMap fun step =>
    let frame := step.1.frame settings step.2
    if frame.result = tsFail then none else some (frame.result, frame.data)

end Line

/-- An object that receives, whatever has become of it, and what it has not yet read of what was
written. -/
structure ObjectLine (σ : Type) where
  receiver : Receiver σ
  coming : List UInt8

namespace ObjectLine

variable {σ : Type} (overrun : Overrun σ) (settings : Settings)

def outcome (line : ObjectLine σ) (poll : Poll) : Outcome (Receiver σ) :=
  line.receiver.receiveFrame overrun settings (Line.call settings ⟨{}, line.coming⟩ poll)

def step (line : ObjectLine σ) (poll : Poll) : ObjectLine σ where
  receiver := (line.outcome overrun settings poll).next
  coming := line.coming.drop (line.outcome overrun settings poll).reads

/-- As for a line; of an object that was overrun no time is asked. -/
def InTime (line : ObjectLine σ) (poll : Poll) : Prop :=
  match line.receiver with
  | .sound port => Line.InTime settings ⟨port, line.coming⟩ poll
  | .overrun _ => True

def Attends (line : ObjectLine σ) (poll : Poll) : Prop :=
  match line.receiver with
  | .sound port => Line.Attends settings ⟨port, line.coming⟩ poll
  | .overrun _ => line.coming = [] ∨ 0 < poll.arrived

instance (line : ObjectLine σ) (poll : Poll) : Decidable (line.InTime settings poll) := by
  unfold InTime
  split <;> exact inferInstance

instance (line : ObjectLine σ) (poll : Poll) : Decidable (line.Attends settings poll) := by
  unfold Attends
  split <;> exact inferInstance

/-- The frames that the calls return, with the lengths that they return. -/
def received (steps : List (ObjectLine σ × Poll)) : List (Nat × List UInt8) :=
  steps.filterMap fun step =>
    let outcome := step.1.outcome overrun settings step.2
    if outcome.result = tsFail then none else some (outcome.result, outcome.data)

end ObjectLine

/-- The receiver gets the frame once and is ready to answer it as the sender expects. -/
def RoundTrips (settings : Settings) (sender : Port) (frame : List UInt8) (line : Line)
    (polls : List Poll) : Prop :=
  Line.received settings (Run.steps (Line.step settings) line polls) = [(frame.length, frame)] ∧
    (Run.final (Line.step settings) line polls).port.response.load 0 settings.responseLength =
      (sender.sendFrame settings frame).response.load 0 settings.responseLength

/-- The calls of `receive_frame` that `receive` makes on what was sent give it the packet, and
leave nothing behind. -/
def Reconstructs {b : Model.Build} (bus : Model.Bus b) (lastByte : UInt8) (s : List UInt8) : Prop :=
  ∃ final, Model.AnalogSampling.receiveLoop bus lastByte (Model.AnalogSampling.sendFrame s) =
      .ok final ∧
    final.st.length = s.length ∧ final.st.data.load 0 s.length = s ∧ final.channel = []

end Pjon.Spec
