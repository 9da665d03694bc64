import Pjon.Model.Bus
import Pjon.Lib.Loop
/-!
# Receiving

`PJON::receive`.  The strategy delivers bytes in batches of its own choosing; the
byte loop filters them as they come and fixes the packet length on the way.
-/

namespace Pjon.Model

open Pjon.Lib

/-- What `receive_frame` delivers during one call of `receive`: the bytes, and how
many of them it is ready to hand over at each point.  A batch has at least one
byte and at most `max_length`; it is never as long as `PJON_FAIL`, which stands
for no batch. -/
structure Delivery where
  bytes : List UInt8
  batch : Nat → Nat

def Delivery.receiveFrame (delivery : Delivery) (start maxLength : Nat) : List UInt8 :=
  (delivery.bytes.drop start).take
    (min (min maxLength (fail - 1)) (max 1 (delivery.batch start)))

/-- The local variables of `receive`. -/
structure LoopState where
  data : Memory
  length : Nat
  batchLength : Nat := 0
  overhead : Nat := 0
  extendedLength : Bool := false
  mac : Bool := false
  drop : Bool := false

/-- An early return: the code, and what is left in `data`. -/
abbrev Return := Nat × Memory

variable {b : Build}

namespace Bus

def fetch (delivery : Delivery) (i : Nat) (st : LoopState) : Except Return LoopState :=
  if st.batchLength = 0 then
    let batch := delivery.receiveFrame i (st.length - i)
    let data := st.data.store i batch
    if batch.length = fail ∨ batch.length = 0 then .error (fail, data)
    else .ok { st with data := data, batchLength := batch.length - 1 }
  else .ok { st with batchLength := st.batchLength - 1 }

def checkRecipient (bus : Bus b) (st : LoopState) : LoopState :=
  if st.data 0 != bus.tx.id && st.data 0 != broadcast && !bus.router then
    { st with drop := true }
  else st

/-- The condition of the header check. -/
def rejectsHeader (bus : Bus b) (recipient header : UInt8) (drop : Bool) : Bool :=
  (!bus.router && (has bus.config modeBit && !has header modeBit)) ||
    (recipient == broadcast && has header ackReqBit) ||
    (has header extLenBit && !has header crcBit) ||
    (!b.includePacketId && has header packetIdBit) ||
    (!b.includePort && has header portBit) ||
    ((!b.includeMac && has header macBit) || (has header macBit && !has header crcBit)) ||
    (drop && !has header macBit)

def checkHeader (bus : Bus b) (st : LoopState) : Except Return LoopState :=
  if bus.rejectsHeader (st.data 0) (st.data 1) st.drop then .error (busy, st.data)
  else
    .ok { st with
          mac := has (st.data 1) macBit
          extendedLength := has (st.data 1) extLenBit
          overhead := packetOverhead
            (if st.data 1 == noHeader then bus.config else st.data 1) }

def checkLength (b : Build) (length : Nat) (st : LoopState) : Except Return LoopState :=
  if length < st.overhead + 1 ∨ b.packetMaxLength ≤ length then .error (busy, st.data)
  else if 15 < length ∧ has (st.data 1) crcBit = false then .error (busy, st.data)
  else .ok { st with length := length }

/-- The bus id check on byte `i` turns the packet down. -/
def rejectsBusId (bus : Bus b) (i : Nat) (st : LoopState) : Bool :=
  has (st.data 1) modeBit && !bus.router && !st.mac &&
    decide (3 + st.extendedLength.toNat < i) && decide (i < 8 + st.extendedLength.toNat) &&
    (if has bus.config modeBit then
      bus.tx.busId.toList.getD (i - 4 - st.extendedLength.toNat) 0 != st.data i
    else st.data i != 0)

/-- The checks that the loop makes on byte `i` once it is there. -/
def examine (bus : Bus b) (i : Nat) (st : LoopState) : Except Return LoopState := do
  let st := if i = 0 then bus.checkRecipient st else st
  let st ← if i = 1 then bus.checkHeader st else pure st
  let st ← if i = 2 ∧ st.extendedLength = false then checkLength b (st.data 2).toNat st
    else pure st
  let st ← if i = 3 ∧ st.extendedLength then
      checkLength b (ofBigEndian (st.data 2) (st.data 3)).toNat st
    else pure st
  if bus.rejectsBusId i st then .error (busy, st.data) else pure st

/-- The body of the loop of `receive`. -/
def receiveByte (bus : Bus b) (delivery : Delivery) (i : Nat) (st : LoopState) :
    Except Return LoopState :=
  (fetch delivery i st).bind (bus.examine i)

/-- The loop.  `length` never grows, so it may be given as many turns as it starts
with. -/
def receiveLoop (bus : Bus b) (delivery : Delivery) :
    Nat → Nat → LoopState → Except Return LoopState :=
  boundedLoop LoopState.length (bus.receiveByte delivery)

/-- Both checksums match. -/
def checksumsMatch (st : LoopState) : Bool :=
  Crc8.compute (st.data.load 0 (3 + st.extendedLength.toNat)) ==
      st.data (3 + st.extendedLength.toNat) &&
    if has (st.data 1) crcBit then
      Crc32.compare (Crc32.compute (st.data.load 0 (Tools.checksumLength st.length 4)))
        fun k => st.data (st.length - 4 + k)
    else
      Crc8.compute (st.data.load 0 (Tools.checksumLength st.length 1)) == st.data (st.length - 1)

/-- The MAC address check turns the packet down. -/
def rejectsMac (bus : Bus b) (st : LoopState) : Bool :=
  b.includeMac && st.mac && decide (15 < st.length) && !bus.router &&
    st.data.vector (st.overhead - 16) 6 != bus.tx.mac &&
    st.data.vector (st.overhead - 16) 6 != noMac

def acknowledges (bus : Bus b) (st : LoopState) : Bool :=
  has (st.data 1) ackReqBit && st.data 0 != broadcast && bus.halfDuplex && !bus.router

def parse (bus : Bus b) (packet : Memory) : PacketInfo :=
  { Tools.parseHeader b packet with customPointer := bus.customPointer }

/-- The part of `receive` behind the checks. -/
def deliver (bus : Bus b) (st : LoopState) : Outcome b :=
  let response := if bus.acknowledges st then [.sendResponse ack] else []
  let info := bus.parse st.data
  let bus := { bus with data := st.data, lastPacketInfo := info }
  let dedup := b.includePacketId && !bus.router && has info.header packetIdBit
  let known :=
    if dedup then knownPacketId bus.recentPacketIds info else (false, bus.recentPacketIds)
  let bus := { bus with recentPacketIds := known.2 }
  if known.1 then { result := ack, bus := bus, events := response }
  else if b.includePort && bus.port != noPort && bus.port != info.port then
    { result := busy, bus := bus, events := response }
  else
    { result := ack, bus := bus
      events := response ++
        [.receiver (st.data.load (st.overhead - crcOverhead (st.data 1)) (st.length - st.overhead))
          info] }

def receive (bus : Bus b) (delivery : Delivery) : Outcome b :=
  let length := b.packetMaxLength % 65536
  match bus.receiveLoop delivery length 0 { data := bus.data, length := length } with
  | .error (code, data) => { result := code, bus := { bus with data := data } }
  | .ok st =>
    if !checksumsMatch st then { result := nak, bus := { bus with data := st.data } }
    else if bus.rejectsMac st then { result := busy, bus := { bus with data := st.data } }
    else bus.deliver st

end Bus

end Pjon.Model
