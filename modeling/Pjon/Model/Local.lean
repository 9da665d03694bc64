import Pjon.Model.Receive
/-!
# Receiving with `PJONLocal`

The reception of the class `PJONLocal`, which keeps no packet of its own: the
caller hands a buffer over and is told how many bytes of payload it holds.  The
class does not compile with packet ids, so the lines for those are left out.
-/

namespace Pjon.Model

open Pjon.Lib

structure LocalBus (b : Build) where
  config : UInt8 := txInfoBit ||| ackReqBit
  port : UInt16 := noPort
  halfDuplex : Bool := true -- `_mode`, `false` for `PJON_SIMPLEX`
  router : Bool := false
  deviceId : UInt8 := notAssigned

structure LocalOutcome where
  result : Nat
  buffer : Memory
  events : List Event := []

variable {b : Build}

namespace LocalBus

/-- `get_payload`, as an index into the buffer. -/
def getPayload (buffer : Memory) : Nat :=
  packetOverhead (buffer 1) - crcOverhead (buffer 1)

def checkRecipient (bus : LocalBus b) (st : LoopState) : Except Return LoopState :=
  if !bus.router && (st.data 0 != bus.deviceId && st.data 0 != broadcast) then
    .error (0, st.data)
  else .ok st

/-- The condition of the header check. -/
def rejectsHeader (b : Build) (recipient header : UInt8) : Bool :=
  has header modeBit || has header macBit || (recipient == broadcast && has header ackReqBit) ||
    (has header extLenBit && !has header crcBit) ||
    (!b.includePacketId && has header packetIdBit)

def checkHeader (b : Build) (st : LoopState) : Except Return LoopState :=
  if rejectsHeader b (st.data 0) (st.data 1) then .error (0, st.data)
  else
    .ok { st with
          extendedLength := has (st.data 1) extLenBit
          overhead := packetOverhead (st.data 1) }

def checkLength (b : Build) (length : Nat) (st : LoopState) : Except Return LoopState :=
  if length < st.overhead ∨ b.packetMaxLength ≤ length then .error (0, st.data)
  else if 15 < length ∧ has (st.data 1) crcBit = false then .error (busy, st.data)
  else .ok { st with length := length }

def examine (bus : LocalBus b) (i : Nat) (st : LoopState) : Except Return LoopState := do
  let st ← if i = 0 then bus.checkRecipient st else pure st
  let st ← if i = 1 then checkHeader b st else pure st
  let st ← if i = 2 ∧ st.extendedLength = false then checkLength b (st.data 2).toNat st
    else pure st
  if i = 3 ∧ st.extendedLength then
    checkLength b (ofBigEndian (st.data 2) (st.data 3)).toNat st
  else pure st

/-- The body of the loop of `receive`.  Its local variables are those of
`PJON::receive` without `mac` and `drop`, which stay as they are. -/
def receiveByte (bus : LocalBus b) (delivery : Delivery) (i : Nat) (st : LoopState) :
    Except Return LoopState :=
  match Bus.fetch delivery i st with
  | .error (_, data) => .error (0, data)
  | .ok st => bus.examine i st

def receiveLoop (bus : LocalBus b) (delivery : Delivery) :
    Nat → Nat → LoopState → Except Return LoopState :=
  boundedLoop LoopState.length (bus.receiveByte delivery)

def acknowledges (bus : LocalBus b) (st : LoopState) : Bool :=
  has (st.data 1) ackReqBit && st.data 0 != broadcast && (bus.halfDuplex && !bus.router)

/-- The part of `receive` behind the checks. -/
def deliver (bus : LocalBus b) (st : LoopState) : LocalOutcome :=
  let events := if bus.acknowledges st then [.sendResponse ack] else []
  let info := Tools.parseHeader b st.data
  if b.includePort && bus.port != noPort && bus.port != info.port then
    { result := 0, buffer := st.data, events := events }
  else { result := st.length - st.overhead, buffer := st.data, events := events }

def receive (bus : LocalBus b) (buffer : Memory) (delivery : Delivery) : LocalOutcome :=
  let length := b.packetMaxLength % 65536
  match bus.receiveLoop delivery length 0 { data := buffer, length := length } with
  | .error (code, buffer) => { result := code, buffer := buffer }
  | .ok st =>
    if !Bus.checksumsMatch st then { result := 0, buffer := st.data } else bus.deliver st

/-- The caller takes `payload` for received: `receive` has not returned 0, and it
is what lies at `get_payload(buffer)`. -/
def Reports (outcome : LocalOutcome) (payload : List UInt8) : Prop :=
  outcome.result ≠ 0 ∧
    payload = outcome.buffer.load (getPayload outcome.buffer) outcome.result

end LocalBus

end Pjon.Model
