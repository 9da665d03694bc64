import Pjon.Model.Packet
import Mathlib.Data.List.FinRange
/-!
# Packets in a file

The strategy `LocalFile`: the instances share a file, which holds the packets that were sent
last, each in a record, and an index with the ids of these records.  Every access to the file
is made under its lock, so that `send_frame` and `receive_frame` change it in one step.
-/

namespace Pjon.Model.LocalFile

/-- `LF_QUEUESIZE` and `PJON_PACKET_MAX_LENGTH`.  The records are counted in 8 bits: with more of
them the loop that initializes the file does not end. -/
structure Settings where
  queueSize : Nat := 20
  packetMaxLength : Nat := 50
  counted : queueSize ≤ 255 := by decide

variable {s : Settings}

/-- What `send_frame` is given, which fits in a record. -/
structure Frame (s : Settings) extends Payload where
  inRecord : bytes.length ≤ s.packetMaxLength

structure Record (s : Settings) where
  length : UInt16 := 0
  message : Vector UInt8 s.packetMaxLength := Vector.replicate _ 0

structure ContentFile (s : Settings) where
  lastRecordId : UInt16 := 0
  index : Vector UInt16 s.queueSize := Vector.replicate _ 0
  records : Vector (Record s) s.queueSize := Vector.replicate _ {}

/-- The members of an instance. -/
structure Strategy where
  lastRecordIdRead : UInt16 := 0
  lastSendResult : Nat := ack

/-! ## Positions -/

section Positions

variable (lastRecordId : UInt16) (index : Vector UInt16 s.queueSize)

/-- The loop of `findReusablePosition`: a position that was never used is returned at once. -/
def reusableFrom : UInt16 → Option (Fin s.queueSize) → List (Fin s.queueSize) →
    Option (Fin s.queueSize)
  | _, pos, [] => pos
  | maxDiff, pos, i :: is =>
    if index.get i = 0 then some i
    else
      let diff := lastRecordId - index.get i
      if diff > maxDiff then reusableFrom diff (some i) is else reusableFrom maxDiff pos is

def findReusablePosition : Option (Fin s.queueSize) :=
  reusableFrom lastRecordId index 0 none (List.finRange s.queueSize)

/-- The loop of `findNextUnreadPosition`. -/
def unreadFrom (lastRecordIdRead : UInt16) : UInt16 → Option (Fin s.queueSize) →
    List (Fin s.queueSize) → Option (Fin s.queueSize)
  | _, pos, [] => pos
  | minDiff, pos, i :: is =>
    if index.get i = 0 ∨ index.get i = lastRecordIdRead then
      unreadFrom lastRecordIdRead minDiff pos is
    else
      let diff := index.get i - lastRecordIdRead
      if diff < 0x8FFF ∧ diff < minDiff then unreadFrom lastRecordIdRead diff (some i) is
      else unreadFrom lastRecordIdRead minDiff pos is

/-- `findNextUnreadPosition`, with the id of the last record read as it leaves it. -/
def findNextUnreadPosition (lastRecordIdRead : UInt16) : Option (Fin s.queueSize) × UInt16 :=
  let lastRecordIdRead :=
    if lastRecordIdRead = 0 then lastRecordId - UInt16.ofNat s.queueSize else lastRecordIdRead
  if lastRecordId = lastRecordIdRead then (none, lastRecordIdRead)
  else
    (unreadFrom index lastRecordIdRead 0xFFFF none (List.finRange s.queueSize), lastRecordIdRead)

end Positions

/-! ## The file -/

namespace ContentFile

def updateIndex (file : ContentFile s) (recordId : UInt16) (indexPos : Fin s.queueSize) :
    ContentFile s :=
  { file with lastRecordId := recordId, index := file.index.set indexPos recordId }

/-- `writePacketToFile`: whether it succeeds, and the file that it leaves. -/
def writePacketToFile (file : ContentFile s) (record : Record s) : Bool × ContentFile s :=
  match findReusablePosition file.lastRecordId file.index with
  | none => (false, file)
  | some recordPos =>
    let file := { file with records := file.records.set recordPos record }
    let nextRecordId : UInt16 := file.lastRecordId + 1
    let nextRecordId : UInt16 := if nextRecordId = 0 then 1 else nextRecordId
    (true, file.updateIndex nextRecordId recordPos)

end ContentFile

namespace Strategy

def readNextPacketFromFile (strategy : Strategy) (file : ContentFile s) :
    Option (Record s) × Strategy :=
  if file.lastRecordId ≠ 0 then
    match findNextUnreadPosition file.lastRecordId file.index strategy.lastRecordIdRead with
    | (none, lastRecordIdRead) => (none, { strategy with lastRecordIdRead := lastRecordIdRead })
    | (some recordPos, _) =>
      (some (file.records.get recordPos),
        { strategy with lastRecordIdRead := file.index.get recordPos })
  else (none, strategy)

/-! ## The members that PJON calls -/

/-- `receive_frame`: the bytes that it copies, or `none` for `PJON_FAIL`. -/
def receiveFrame (strategy : Strategy) (file : ContentFile s) (maxLength : Nat) :
    Option (List UInt8) × Strategy :=
  let next := strategy.readNextPacketFromFile file
  (next.1.map fun record => record.message.toList.take (min record.length.toNat maxLength), next.2)

def receiveResponse (strategy : Strategy) : Nat := strategy.lastSendResult

/-- The record of a frame. -/
def recordOf (frame : Frame s) : Record s where
  length := UInt16.ofNat frame.bytes.length
  message := Vector.ofFn fun i => frame.bytes.getD i 0

def sendFrame (strategy : Strategy) (file : ContentFile s) (frame : Frame s) :
    Strategy × ContentFile s :=
  let written := file.writePacketToFile (recordOf frame)
  ({ strategy with lastSendResult := if written.1 then ack else fail }, written.2)

end Strategy

end Pjon.Model.LocalFile
