import Pjon.Model.Receive
/-!
# ThroughLora

The frames and the responses of `ThroughLora.h`.  `LoRa.parsePacket` is an input: the packet that
the radio has, if there is one; `LoRa.read` yields its bytes.  A packet of the radio has at most 255
bytes.
-/

namespace Pjon.Model.ThroughLora

open Pjon.Lib

/-- `TL_RESPONSE_LENGTH`. -/
def responseLength : Nat := 5

/-- `prepare_response`: the last bytes of a buffer of so many. -/
def prepareResponse (buffer : Memory) (position : Nat) : List UInt8 :=
  buffer.load (position - responseLength) responseLength

/-- What `parsePacket` returns, in a `uint8_t`. -/
def frameSize (arrival : Option (List UInt8)) : Nat := (arrival.getD []).length % 256

def canStart (arrival : Option (List UInt8)) : Bool := !decide (0 < (arrival.getD []).length)

/-- `receive_frame`, and what it leaves in `_response`.  What is too short or too long is lost. -/
def receiveFrame (response : List UInt8) (arrival : Option (List UInt8)) (maxLength : Nat) :
    List UInt8 × List UInt8 :=
  if 5 < frameSize arrival ∧ frameSize arrival ≤ maxLength then
    let data := arrival.getD []
    (data, prepareResponse (fun k => data.getD (data.length - frameSize arrival + k) 0)
      (frameSize arrival))
  else ([], response)

/-- `send_frame`, and what it leaves in `_response`.  Its `length` is a `uint8_t`. -/
def sendFrame (data : Memory) (length : Nat) : List UInt8 × List UInt8 :=
  (data.load 0 (length % 256), prepareResponse data (length % 256))

def sendResponse (response : List UInt8) (code : Nat) : Option (List UInt8) :=
  if code = ack then some response else none

/-- `receive_response`, with the turns that it has time for. -/
def receiveResponse (response : List UInt8) : List (Option (List UInt8)) → Nat
  | [] => fail
  | arrival :: turns =>
    if frameSize arrival = responseLength then
      if arrival.getD [] = response then ack else fail
    else receiveResponse response turns

/-! ## The members of the instance -/

section Instance

variable {b : Build}

/-- What a call of `receive` does, what it leaves in `_response`, and what it transmits. -/
structure Receipt (b : Build) extends Outcome b where
  response : List UInt8
  sent : List (List UInt8)

/-- `PJON::receive`.  During a call the radio has one packet at most. -/
def receive (bus : Bus b) (response : List UInt8) (arrival : Option (List UInt8)) : Receipt b :=
  let received := receiveFrame response arrival (b.packetMaxLength % 65536)
  let outcome := bus.receive { bytes := received.1, batch := fun _ => received.1.length }
  { outcome with
    response := received.2
    sent := outcome.events.filterMap fun
      | .sendResponse code => sendResponse received.2 code
      | _ => none }

/-- The part of `send_packet` in front of `receive_response`: the result if it ends there, what is
left in `_response`, and what is transmitted. -/
structure Transmitting where
  result : Option Nat
  response : List UInt8
  sent : Option (List UInt8) := none

def transmit (halfDuplex : Bool) (response : List UInt8) (arrival : Option (List UInt8))
    (packet : Memory) (length : Nat) : Transmitting :=
  if halfDuplex && !canStart arrival then { result := some busy, response := response }
  else
    let frame := sendFrame packet length
    { response := frame.2, sent := some frame.1
      result :=
        if packet 0 = broadcast ∨ has (packet 1) ackReqBit = false ∨ halfDuplex = false then
          some ack
        else none }

/-- The part of `send_packet` from `receive_response` on. -/
def awaitResponse (response : List UInt8) (turns : List (Option (List UInt8))) : Nat :=
  if receiveResponse response turns = ack then ack else fail

end Instance

end Pjon.Model.ThroughLora
