import Pjon.Model.Local
import Pjon.Model.Bus
/-!
# Sending with `PJONLocal`

`PJONLocal::compose_packet` and the two members `send_packet`, which compose into a buffer
of the caller and hand it to the strategy at once.  The clock and what the strategy
answers are inputs.
-/

namespace Pjon.Model

open Pjon.Lib

variable {b : Build}

/-- The instance with the members that only sending uses. -/
structure LocalSender (b : Build) extends LocalBus b where
  lastSend : UInt32 := 0
  packetIdSeed : UInt16 := 0
  retries : UInt8 := 0

/-- The arguments of `compose_packet` besides the buffer and the payload. -/
structure LocalRequest where
  id : UInt8
  header : UInt8 := noHeader
  packetId : UInt16 := 0
  rxPort : UInt16 := noPort

/-- What a call of `send_packet` gets from the outside. -/
structure LocalMedium where
  now : UInt32 := 0
  response : Nat := ack -- `receive_response`
  maxAttempts : UInt8 := 10
  deriving DecidableEq, Repr

structure LocalSending (b : Build) extends LocalOutcome where
  sender : LocalSender b

namespace LocalSender

def effectiveHeader (sender : LocalSender b) (header : UInt8) : UInt8 :=
  if header == noHeader then sender.config else header

/-- `compose_packet` chooses the packet id itself. -/
def generatesId (sender : LocalSender b) (request : LocalRequest) : Bool :=
  b.includePacketId && request.packetId == 0 &&
    has (sender.effectiveHeader request.header) packetIdBit

/-- The info that `compose_packet` hands to `PJONTools`. -/
def completeInfo (sender : LocalSender b) (request : LocalRequest) : PacketInfo :=
  { rx := { id := request.id }
    tx := { id := sender.deviceId }
    header := sender.effectiveHeader request.header
    id :=
      if sender.generatesId request then Tools.newPacketId sender.packetIdSeed
      else if b.includePacketId then request.packetId
      else 0
    port :=
      if b.includePort then
        if request.rxPort == noPort then sender.port else request.rxPort
      else noPort }

def advanceSeed (sender : LocalSender b) (request : LocalRequest) : LocalSender b :=
  if sender.generatesId request then { sender with packetIdSeed := sender.packetIdSeed + 1 }
  else sender

/-- `compose_packet`: what `PJONTools::compose_packet` returns and stores. -/
def composePacket (sender : LocalSender b) (request : LocalRequest) (buffer : Memory)
    (payload : Payload) : Nat × Writes :=
  Tools.composePacket b (sender.completeInfo request) buffer payload

/-- `send_packet` for a packet that is composed already. -/
def sendComposed (sender : LocalSender b) (payload : Memory) (length : Nat)
    (medium : LocalMedium) : LocalSending b :=
  let sender : LocalSender b := { sender with lastSend := medium.now }
  let events := [.sendFrame (payload.load 0 length)]
  if payload 0 == broadcast || !has (payload 1) ackReqBit || !sender.halfDuplex then
    { result := ack, buffer := payload, events := events
      sender := { sender with retries := 0 } }
  else if medium.response = ack then
    { result := ack, buffer := payload, events := events
      sender := { sender with retries := 0 } }
  else
    let retries := if sender.retries < medium.maxAttempts then sender.retries + 1 else 0
    { result := if medium.response = fail then fail else busy
      buffer := payload, events := events
      sender := { sender with retries := retries } }

/-- `send_packet`. -/
def sendPacket (sender : LocalSender b) (request : LocalRequest) (buffer : Memory)
    (payload : Payload) (medium : LocalMedium) : LocalSending b :=
  let composed := sender.composePacket request buffer payload
  let buffer := buffer.apply composed.2
  let sender := sender.advanceSeed request
  if composed.1 = 0 then { result := fail, buffer := buffer, sender := sender }
  else sender.sendComposed buffer composed.1 medium

end LocalSender

end Pjon.Model
