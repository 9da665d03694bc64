import Pjon.Model.MQTTTranslate
import Pjon.Lib.Run
/-!
# A client that is polled for messages

Messages arrive at the client and wait there.  A call of `receive_frame` has the client hand
over as many of them as it happens to, unless a packet is still pending.
-/

namespace Pjon.Spec

open Pjon.Lib Pjon.Model Pjon.Model.MQTTTranslate

/-- The strategy, and the messages that wait at its client. -/
structure Client where
  strategy : Strategy := {}
  inbox : List Message := []

inductive ClientEvent where
  | arrive (message : Message)
  | receiveFrame (handed : Nat) -- how many messages `update` hands over if it is called

namespace Client

variable (b : Build) (settings : Settings)

def receiveFrame (client : Client) (handed : Nat) : Option (List UInt8) × Strategy :=
  client.strategy.receiveFrame b settings b.packetMaxLength (client.inbox.take handed)

def step (client : Client) : ClientEvent → Client
  | .arrive message => { client with inbox := client.inbox ++ [message] }
  | .receiveFrame handed =>
    { strategy := (client.receiveFrame b settings handed).2
      inbox :=
        if client.strategy.incomingPacketSize = 0 then client.inbox.drop handed
        else client.inbox }

/-- What is composed last of the messages that are handed over. -/
def lastRequest (strategy : Strategy) : List Message → Option Request
  | [] => none
  | message :: messages =>
    (lastRequest (strategy.receiver b settings message) messages).or
      (request settings strategy message)

/-- The packet that is left is not longer than `PJON_PACKET_MAX_LENGTH`. -/
def Digests (client : Client) : ClientEvent → Prop
  | .arrive _ => True
  | .receiveFrame handed =>
    ∀ request ∈ lastRequest b settings client.strategy (client.inbox.take handed),
      request.payload.length +
        packetOverhead (Tools.measure b request.info request.payload.length).header ≤
          b.packetMaxLength

/-- The receiver makes nothing of the message. -/
def Ignored (message : Message) : Prop := ∀ strategy, request settings strategy message = none

/-- The packet that the message encodes fits. -/
def Encodes (strategy : Strategy) (message : Message) (info : PacketInfo) (payload : Payload) :
    Prop :=
  (request settings strategy message).map (fun request => (request.info, request.payload)) =
      some (info, payload) ∧
    payload.length + packetOverhead (Tools.measure b info payload.length).header <
      b.packetMaxLength

/-- The frame is what `compose_packet` leaves in a buffer. -/
def ComposedOf (info : PacketInfo) (payload : Payload) (frame : List UInt8) : Prop :=
  ∃ buffer : Memory, frame = (buffer.apply (Tools.composePacket b info buffer payload).2).load 0
    (Tools.composePacket b info buffer payload).1

/-- The next call polls the client; and if all messages have been handed over, then a message that
arrives next is returned by the call in which it is handed over, unless another one that is not
ignored is handed over behind it in the same call. -/
structure Attentive (client : Client) : Prop where
  polls : client.strategy.incomingPacketSize = 0
  returns : ∀ message info payload others handed, client.inbox = [] →
    Encodes b settings client.strategy message info payload → 0 < handed →
    (∀ other ∈ others.take (handed - 1), Ignored settings other) →
    ∃ frame,
      ((Run.final (step b settings) client
        ((message :: others).map ClientEvent.arrive)).receiveFrame b settings handed).1 =
          some frame ∧
      ComposedOf b info payload frame

end Client

end Pjon.Spec
