import Pjon.Spec.Admission
import Pjon.Spec.Once
/-!
# Replies to one request

A device has received a request and calls `reply` as often as it likes.  The replies go through
its send buffer; the device that sent the request receives what leaves, in any order and any
number of times.
-/

namespace Pjon.Spec

open Pjon.Lib Pjon.Model

variable {b b' : Build}

/-! ## The device that replies -/

/-- A call of `reply`, and the seed of the packet ids before it. -/
structure ReplyCall where
  payload : Payload
  seed : UInt16

/-- A frame that left, and the number of the call that it is for. -/
structure SentReply where
  call : Nat
  frame : List UInt8
  deriving DecidableEq, Repr

/-- The id of a reply is that of the request, or a new one where the request has none. -/
def replyId (device : Bus b) (seed : UInt16) : UInt16 :=
  if device.lastPacketInfo.id = 0 then Tools.newPacketId seed else device.lastPacketInfo.id

/-- What the device does next. -/
inductive ReplyMove (b : Build) where
  | reply (payload : Payload) (now : UInt32)
  | update (maxAttempts : UInt8) (turns : Fin b.maxPackets → Turn)
  | remove (i : Fin b.maxPackets)

structure Replying (b : Build) where
  device : Bus b
  calls : List ReplyCall := []
  inSlot : Fin b.maxPackets → Option Nat := fun _ => none -- the call whose reply is in a slot
  sent : List SentReply := []

namespace Replying

/-- The frames of replies among the events of `update`. -/
def repliesOf (inSlot : Fin b.maxPackets → Option Nat) (events : List (Fin b.maxPackets × Event)) :
    List SentReply :=
  events.filterMap fun
    | (i, .sendFrame frame) => (inSlot i).map fun call => { call := call, frame := frame }
    | _ => none

def step (x : Replying b) : ReplyMove b → Replying b
  | .reply payload now =>
    let device := (x.device.reply payload now).bus
    { x with
      device := device
      calls := x.calls ++ [{ payload := payload, seed := x.device.packetIdSeed }]
      inSlot := fun i =>
        if (x.device.slot i).state = 0 ∧ (device.slot i).state ≠ 0 then some x.calls.length
        else x.inSlot i }
  | .update maxAttempts turns =>
    let updated := x.device.update maxAttempts turns
    { x with device := updated.bus, sent := x.sent ++ repliesOf x.inSlot updated.events }
  | .remove i => { x with device := x.device.remove i }

end Replying

/-! ## The device that gets the replies -/

/-- A reply that arrives, and how the strategy delivers it. -/
structure ReplyArrival where
  reply : SentReply
  batch : Nat → Nat

def ReplyArrival.delivery (arrival : ReplyArrival) : Delivery :=
  { bytes := arrival.reply.frame, batch := arrival.batch }

/-- The instance after these arrivals. -/
def receiveAll (requester : Bus b) (arrivals : List ReplyArrival) : Bus b :=
  arrivals.foldl (fun bus arrival => (bus.receive arrival.delivery).bus) requester

/-- `frame` is for the sender of the request. -/
structure ForSender (requester : Bus b) (request : PacketInfo) (frame : List UInt8) : Prop where
  id : (infoOf requester frame).rx.id = request.tx.id
  busId : has (header frame) modeBit → (infoOf requester frame).rx.busId = request.tx.busId
  mac : has (header frame) macBit → has request.header macBit →
    (infoOf requester frame).rx.mac = request.tx.mac

/-- What the requester is told with a reply: who sent it, that it made no hop, and its packet
id. -/
structure ToldAs (device : Bus b) (call : ReplyCall) (info : PacketInfo) : Prop where
  sender : info.tx.id = device.tx.id
  hops : info.hops = 0
  id : info.id = replyId device call.seed

/-- The replies are for the sender of the request, and each is handed over, as what it is, when it
arrives for the first time. -/
structure RepliesArrive (requester : Bus b') (device : Bus b) (request : PacketInfo)
    (x : Replying b) : Prop where
  forSender : ∀ t ∈ x.sent, ForSender requester request t.frame
  handedOver : ∀ before : List ReplyArrival, (∀ a ∈ before, a.reply ∈ x.sent) →
    ∀ arrival : ReplyArrival, arrival.reply ∈ x.sent →
      (∀ a ∈ before, a.reply.call ≠ arrival.reply.call) →
        ∃ call info, x.calls[arrival.reply.call]? = some call ∧ ToldAs device call info ∧
          .receiver call.payload.bytes info ∈
            ((receiveAll requester before).receive arrival.delivery).events

/-! ## When they do

Conditions on the device as the request has left it, on the payloads and on the requester. -/

/-- The port that replies go to: that of the request, or the device's own where the request
has none. -/
def replyPort (device : Bus b) : UInt16 :=
  if device.port ≠ noPort ∧ device.lastPacketInfo.port = noPort ∧ has device.config portBit then
    device.port
  else device.lastPacketInfo.port

/-- The header that replies start from: the configured one, with the port bit settled. -/
def replyHeader (device : Bus b) : UInt8 :=
  Tools.portHeader b (replyPort device) device.config

/-- The requester listens to what the device sends to the sender of the request. -/
structure Accepts (requester : Bus b') (device : Bus b) : Prop where
  supported : b.Supports device.config
  localMode : has device.config modeBit = false → has requester.config modeBit = false
  busId : has device.config modeBit → has device.config macBit = false →
    device.lastPacketInfo.tx.busId =
      if has requester.config modeBit then requester.tx.busId else localhost
  mac : has device.config macBit → device.lastPacketInfo.tx.mac = requester.tx.mac ∨
    device.lastPacketInfo.tx.mac = noMac
  port : b.includePort → requester.port = noPort ∨ requester.port = replyPort device

/-- There is a payload, its packet is laid out as the header will say, and that header is one that
receivers accept. -/
structure Transportable (header : UInt8) (length : Nat) : Prop where
  nonempty : 0 < length
  sum : length + packetOverhead (header ||| extLenBit ||| crcBit) < 65536
  width : has header extLenBit ∨ 255 < length ∨ length + packetOverhead (header ||| crcBit) ≤ 255
  extLenCrc : has header crcBit ∨ (has header extLenBit = false ∧ length ≤ 255) ∨
    15 < length + packetOverhead (header ||| extLenBit)

/-- What was sent can be received, and the replies are numbered by the device, with different
ids, if there is more than one. -/
structure RepliesReach (requester : Bus b') (device : Bus b) (x : Replying b) : Prop where
  accepts : x.sent ≠ [] → Accepts requester device
  transportable : ∀ t ∈ x.sent, ∀ call, x.calls[t.call]? = some call →
    Transportable (replyHeader device) call.payload.length
  ids : ∀ t ∈ x.sent, ∀ u ∈ x.sent, t.call ≠ u.call →
    device.lastPacketInfo.id = 0 ∧ ∀ call call', x.calls[t.call]? = some call →
      x.calls[u.call]? = some call' →
        Tools.newPacketId call.seed ≠ Tools.newPacketId call'.seed

end Pjon.Spec
