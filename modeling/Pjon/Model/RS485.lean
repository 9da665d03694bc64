import Pjon.Model.ThroughSerial
/-!
# ThroughSerial over RS485

The transmitting half of `ThroughSerial` with the pins that enable the RS485 driver.  `send_byte`
repeats `PJON_SERIAL_WRITE` until the port takes the byte or `TS_BYTE_TIME_OUT` is over: which of
the bytes of a call the port takes in time is an input of the call.
-/

namespace Pjon.Model.ThroughSerial

open Pjon.Lib

/-- `TS_NOT_ASSIGNED`. -/
def tsNotAssigned : UInt8 := 255

structure Transmitter where
  port : Port := {}
  enableRS485TxePin : UInt8 := tsNotAssigned
  enableRS485RxePin : UInt8 := tsNotAssigned
  fails : Bool := false -- `_fail`
  high : UInt8 → Bool := fun _ => false -- the levels of the pins
  tried : List UInt8 := [] -- what the call has tried to send

namespace Transmitter

/-- `PJON_IO_WRITE(pin, level)`. -/
def ioWrite (t : Transmitter) (pin : UInt8) (level : Bool) : Transmitter :=
  { t with high := fun other => if other = pin then level else t.high other }

/-- The writes that `start_tx` and `end_tx` have in common. -/
def setEnable (t : Transmitter) (level : Bool) : Transmitter :=
  if t.enableRS485TxePin ≠ tsNotAssigned then
    let t := t.ioWrite t.enableRS485TxePin level
    if t.enableRS485RxePin ≠ tsNotAssigned then t.ioWrite t.enableRS485RxePin level else t
  else t

def startTx (t : Transmitter) : Transmitter := t.setEnable true

def endTx (t : Transmitter) : Transmitter := t.setEnable false

variable (takes : Nat → Bool)

/-- `send_byte`; the port takes byte `k` of the call if `takes k`. -/
def sendByte (t : Transmitter) (value : UInt8) : Transmitter :=
  { t with
    tried := t.tried ++ [value]
    fails := t.fails || !takes t.tried.length }

/-- A byte of the frame, behind an escape if it is a flag. -/
def sendStuffed (t : Transmitter) (value : UInt8) : Transmitter :=
  if isFlag value then (t.sendByte takes esc).sendByte takes (value ^^^ esc)
  else t.sendByte takes value

/-- The loop of `send_frame`; `error` is its `return`. -/
def sendContent (t : Transmitter) : List UInt8 → Except Transmitter Transmitter
  | [] => .ok t
  | value :: data => if t.fails then .error t else (t.sendStuffed takes value).sendContent data

/-- `send_frame`. -/
def sendFrame (settings : Settings) (t : Transmitter) (data : List UInt8) : Transmitter :=
  let t := { t with fails := false, tried := [] }.startTx.sendByte takes start
  match t.sendContent takes data with
  | .error t => t
  | .ok t =>
    let t := (t.sendByte takes endFlag).endTx
    { t with port := t.port.sendFrame settings data }

/-- `send_response`. -/
def sendResponse (settings : Settings) (t : Transmitter) (response : UInt8) : Transmitter :=
  if response.toNat = ack then
    (((List.range settings.responseLength).map t.port.response).foldl
      (sendByte takes) { t with tried := [] }.startTx).endTx
  else t

end Transmitter

end Pjon.Model.ThroughSerial
