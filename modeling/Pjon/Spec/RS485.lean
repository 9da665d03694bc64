import Pjon.Model.RS485
/-!
# When the RS485 line is released

A device that does not transmit lets the others drive the line.
-/

namespace Pjon.Spec

open Pjon.Lib Pjon.Model Pjon.Model.ThroughSerial

/-- No pin that is assigned enables the driver. -/
def Released (t : Transmitter) : Prop :=
  t.high t.enableRS485TxePin = false ∧
    (t.enableRS485RxePin ≠ tsNotAssigned → t.high t.enableRS485RxePin = false)

instance (t : Transmitter) : Decidable (Released t) := by
  unfold Released
  exact inferInstance

inductive SerialCall where
  | sendFrame (data : List UInt8)
  | sendResponse (response : UInt8)

namespace SerialCall

/-- What a call leaves, if the port takes the bytes that it tries to send according to `takes`. -/
def run (settings : Settings) (takes : Nat → Bool) (t : Transmitter) : SerialCall → Transmitter
  | sendFrame data => t.sendFrame takes settings data
  | sendResponse response => t.sendResponse takes settings response

/-- The bytes of a frame that are in front of the last one, as they are sent. -/
def beforeLast (data : List UInt8) : List UInt8 := (Port.written data.dropLast).dropLast

/-- The port takes every byte in front of the last of a frame; a response other than
`PJON_ACK` finds the line released. -/
def Releases (takes : Nat → Bool) (t : Transmitter) : SerialCall → Prop
  | sendFrame data => data = [] ∨ ∀ k < (beforeLast data).length, takes k = true
  | sendResponse response => response.toNat = ack ∨ Released t

end SerialCall

end Pjon.Spec
