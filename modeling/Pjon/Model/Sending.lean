import Pjon.Model.Bus
/-!
# Sending again until it is acknowledged

The two members that repeat a transmission: `update` works through the send buffer
and leaves a packet in its slot until it is done with, `send_packet_blocking`
composes and transmits in a loop.  The clock, the strategy and the medium are
inputs.
-/

namespace Pjon.Model

open Pjon.Lib

variable {b : Build}

/-! ## The send buffer -/

/-- What a turn of `update` gets from the outside. -/
structure Turn extends Medium where
  now : UInt32
  backOff : UInt32
  resetNow : UInt32
  deriving DecidableEq, Repr

namespace Bus

def remove (bus : Bus b) (i : Fin b.maxPackets) : Bus b :=
  bus.setSlot i { bus.slot i with attempts := 0, length := 0, registration := 0, state := 0 }

/-- `remove`, with its check of the index. -/
def removeAt (bus : Bus b) (index : Nat) : Bus b :=
  if h : index < b.maxPackets then bus.remove ⟨index, h⟩ else bus

/-- `remove_all_packets`; the device id 0 stands for all devices. -/
def removeAllPackets (bus : Bus b) (deviceId : UInt8) : Bus b :=
  (List.finRange b.maxPackets).foldl (fun bus i =>
    if (bus.slot i).state = 0 then bus
    else if deviceId = 0 ∨ (bus.slot i).content 0 = deviceId then bus.remove i
    else bus) bus

/-- `reset_packet`: whether the packet was removed, and the instance it leaves. -/
def resetPacket (bus : Bus b) (i : Fin b.maxPackets) (now : UInt32) : Bool × Bus b :=
  if (bus.slot i).timing = 0 then
    if bus.autoDelete then (true, bus.remove i) else (false, bus)
  else
    (false, bus.setSlot i
      { bus.slot i with attempts := 0, registration := now, state := toBeSent })

/-- The body of the loop of `update`; the result is what it adds to `packets_count`. -/
def updateSlot (bus : Bus b) (maxAttempts : UInt8) (i : Fin b.maxPackets) (turn : Turn) :
    Outcome b :=
  let slot := bus.slot i
  if slot.state = 0 then { result := 0, bus := bus }
  else if turn.now - slot.registration ≤ slot.timing + turn.backOff then
    { result := 1, bus := bus }
  else
    let sent :=
      if slot.state = ack then (ack, [])
      else bus.sendComposed slot.content slot.length turn.toMedium
    let slot := { slot with state := sent.1, attempts := slot.attempts + 1 }
    let bus := bus.setSlot i slot
    if slot.state = ack then
      let reset := bus.resetPacket i turn.resetNow
      { result := 1 - reset.1.toNat, bus := reset.2, events := sent.2 }
    else if maxAttempts < slot.attempts then
      let reset := bus.resetPacket i turn.resetNow
      { result := 1 - reset.1.toNat, bus := reset.2
        events := sent.2 ++ [.error connectionLost i bus.customPointer] }
    else { result := 1, bus := bus, events := sent.2 }

end Bus

/-- What a call of `update` does; an event comes with the slot it is about. -/
structure Update (b : Build) where
  result : Nat := 0
  bus : Bus b
  events : List (Fin b.maxPackets × Event) := []

namespace Bus

def updateFrom (bus : Bus b) (maxAttempts : UInt8) (turns : Fin b.maxPackets → Turn) :
    List (Fin b.maxPackets) → Update b
  | [] => { bus := bus }
  | i :: is =>
    let slot := bus.updateSlot maxAttempts i (turns i)
    let rest := slot.bus.updateFrom maxAttempts turns is
    { result := slot.result + rest.result, bus := rest.bus
      events := slot.events.map (fun event => (i, event)) ++ rest.events }

def update (bus : Bus b) (maxAttempts : UInt8) (turns : Fin b.maxPackets → Turn) : Update b :=
  bus.updateFrom maxAttempts turns (List.finRange b.maxPackets)

/-! ## Blocking -/

/-- `compose_packet` with the member `data` as its destination. -/
def composeData (bus : Bus b) (info : PacketInfo) (payload : Payload) : Outcome b :=
  let composed := bus.composePacket info bus.data payload
  { result := composed.result, events := composed.events
    bus := { composed.bus with data := bus.data.apply composed.writes } }

end Bus

/-- What an attempt of `send_packet_blocking` gets from the outside: whether the timeout
has not passed when it is tested, and the medium. -/
structure Attempt extends Medium where
  inTime : Bool := true
  deriving DecidableEq, Repr

/-- A frame and the info that it was composed with. -/
structure Transmission where
  info : PacketInfo
  frame : List UInt8
  deriving DecidableEq, Repr

def transmissions (info : PacketInfo) (events : List Event) : List Transmission :=
  events.filterMap fun
    | .sendFrame frame => some { info := info, frame := frame }
    | _ => none

structure Blocking (b : Build) extends Outcome b where
  sent : List Transmission := []

namespace Bus

/-- The loop, with at most `todo` attempts left; `state` is the result of the last one. -/
def blockingLoop (info : PacketInfo) (payload : Payload) (attempts : Nat → Attempt) :
    Nat → Nat → Nat → Bus b → Blocking b
  | 0, _, state, bus => { result := state, bus := bus }
  | todo + 1, k, state, bus =>
    if (attempts k).inTime then
      let composed := bus.composeData info payload
      if composed.result = 0 then
        { result := fail, bus := composed.bus, events := composed.events }
      else
        let sending :=
          composed.bus.sendComposed composed.bus.data composed.result (attempts k).toMedium
        let sent := transmissions (bus.completeInfo info) sending.2
        if sending.1 = ack then
          { result := ack, bus := composed.bus, events := composed.events ++ sending.2
            sent := sent }
        else
          let rest := blockingLoop info payload attempts todo (k + 1) sending.1 composed.bus
          { result := rest.result, bus := rest.bus
            events := composed.events ++ sending.2 ++ rest.events
            sent := sent ++ rest.sent }
    else { result := state, bus := bus }

/-- `send_packet_blocking`, without `PJON_RECEIVE_WHILE_SENDING_BLOCKING`. -/
def sendPacketBlocking (bus : Bus b) (info : PacketInfo) (payload : Payload)
    (maxAttempts : UInt8) (attempts : Nat → Attempt) : Blocking b :=
  blockingLoop info payload attempts (maxAttempts.toNat + 1) 0 fail bus

/-- The info that a reply to the last packet is sent with. -/
def replyInfo (bus : Bus b) : PacketInfo :=
  { bus.lastPacketInfo with
    rx := bus.lastPacketInfo.tx
    header := bus.config
    hops := if b.pjonLocal then bus.lastPacketInfo.hops else 0 }

def reply (bus : Bus b) (payload : Payload) (now : UInt32) : Outcome b :=
  bus.dispatch bus.replyInfo payload 0 now fail

def sendRepeatedly (bus : Bus b) (info : PacketInfo) (payload : Payload)
    (timing now : UInt32) : Outcome b :=
  bus.dispatch info payload timing now fail

def replyBlocking (bus : Bus b) (payload : Payload) (maxAttempts : UInt8)
    (attempts : Nat → Attempt) : Blocking b :=
  bus.sendPacketBlocking bus.replyInfo payload maxAttempts attempts

end Bus

end Pjon.Model
