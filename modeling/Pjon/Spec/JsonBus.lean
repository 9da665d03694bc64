import Pjon.Model.MQTTPublish
import Pjon.Spec.Publishing
/-!
# What a JSON message carries

A text that `send_frame` has published in the mode `BUS_JSON` becomes, at another strategy in that
mode, a packet with the recipient, the sender and the payload of the frame it was made of.
-/

namespace Pjon.Spec

open Pjon.Lib Pjon.Model Pjon.Model.Tools Pjon.Model.MQTTTranslate

/-- `uint8toa` of the client writes a decimal number of at most three digits. -/
structure WritesDecimal (uint8toa : UInt8 → List UInt8) : Prop where
  nonempty : ∀ n, uint8toa n ≠ []
  isDigit : ∀ n, ∀ c ∈ uint8toa n, isDigit c = true
  digits : ∀ n, digits (uint8toa n) = n.toNat
  length : ∀ n, (uint8toa n).length ≤ 3

/-- A packet has been composed: its front is sound, and these are its recipient, its sender and
its payload. -/
structure Carries (b : Build) (strategy : Strategy) (recipient sender : UInt8)
    (payload : List UInt8) : Prop where
  composed : strategy.incomingPacketSize < b.packetMaxLength
  frontCrc : strategy.packetBuffer (3 + (has (strategy.packetBuffer 1) extLenBit).toNat) =
    Crc8.compute
      (strategy.packetBuffer.load 0 (3 + (has (strategy.packetBuffer 1) extLenBit).toNat))
  recipient : (parseRx b strategy.packetBuffer).id = recipient
  txInfo : has (strategy.packetBuffer 1) txInfoBit = true
  sender : (parseTx b strategy.packetBuffer).id = sender
  payload : strategy.packetBuffer.load
    (packetOverhead (strategy.packetBuffer 1) - crcOverhead (strategy.packetBuffer 1))
    (strategy.incomingPacketSize - packetOverhead (strategy.packetBuffer 1)) = payload

/-- A packet without sender info has been composed. -/
structure Unsigned (b : Build) (strategy : Strategy) : Prop where
  composed : strategy.incomingPacketSize < b.packetMaxLength
  txInfo : has (strategy.packetBuffer 1) txInfoBit = false

/-- A message of which a packet is composed, and it names a sender. -/
def NamesSender (message : Message) : Prop :=
  ∃ request, jsonRequest {} message = some request ∧ request.info.tx.id ≠ 0

section RoundTrip

variable (b : Build) (publishing : Publishing) (publisher : Publisher) (frame : Frame)
variable (reading : Settings) (strategy : Strategy)

/-- A frame with a recipient, a sender and a payload of plain text, that there is room for
wherever it gets. -/
structure PlainFrame : Prop where
  txInfo : has (frame.data 1) txInfoBit = true
  recipient : (parseRx publishing.build frame.data).id ≠ 0
  sender : (parseTx publishing.build frame.data).id ≠ 0
  plain : ∀ c ∈ framePayload frame, c ≠ 0 ∧ c ≠ 34
  topic : (publishing.composeTopic publisher frame.data).isSome = true
  text : 31 + (framePayload frame).length < publishing.bufferSize
  packet : (measure b (fillInfo (parseTx publishing.build frame.data).id strategy.busId
    (parseRx publishing.build frame.data).id strategy.busId txInfoBit)
      (framePayload frame).length).newLength < b.packetMaxLength

/-- One text is published, and a message with this text becomes a packet that carries what the
frame does. -/
def ComesThrough : Prop :=
  ∃ sent publication success, publisher.sendFrame publishing frame = some sent ∧
    sent.published = [(publication, success)] ∧
    ∀ message : Message, message.payload.bytes = publication.payload →
      Carries b (strategy.receiver b reading message) (parseRx publishing.build frame.data).id
        (parseTx publishing.build frame.data).id (framePayload frame)

end RoundTrip

end Pjon.Spec
