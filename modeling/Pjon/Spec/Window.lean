import Pjon.Model.Bus
import Pjon.Lib.Run
/-!
# The packets that an instance remembers

A packet is remembered by its id and its sender; on a shared network the sender's bus id is part
of that.  The records should be those of the last packets that were not known, the most recent one
first.
-/

namespace Pjon.Spec

open Pjon.Lib Pjon.Model

/-- What identifies a packet, with the bus id of its sender if its header is of shared mode. -/
structure PacketKey where
  id : UInt16
  senderId : UInt8
  senderBusId : Option (Vector UInt8 4)
  deriving DecidableEq, Repr

def sharedBusId (header : UInt8) (busId : Vector UInt8 4) : Option (Vector UInt8 4) :=
  if has header modeBit then some busId else none

def packetKey (info : PacketInfo) : PacketKey :=
  { id := info.id, senderId := info.tx.id, senderBusId := sharedBusId info.header info.tx.busId }

def recordKey (record : PacketRecord) : PacketKey :=
  { id := record.id, senderId := record.senderId
    senderBusId := sharedBusId record.header record.senderBusId }

variable (b : Build)

/-- A buffer of zeros. -/
def zeroedRecords : Vector PacketRecord b.maxRecentPacketIds := Vector.replicate _ {}

/-- The calls of `known_packet_id`, each with the records that it finds. -/
def knownCalls (infos : List PacketInfo) :
    List (Vector PacketRecord b.maxRecentPacketIds × PacketInfo) :=
  Run.steps (fun records info => (Bus.knownPacketId records info).2) (zeroedRecords b) infos

/-- The records behind these calls. -/
def recordsBehind (infos : List PacketInfo) : Vector PacketRecord b.maxRecentPacketIds :=
  Run.final (fun records info => (Bus.knownPacketId records info).2) (zeroedRecords b) infos

/-- The keys of the last calls that returned `false`, as many as there are records. -/
def lastUnknown (infos : List PacketInfo) : List PacketKey :=
  (((knownCalls b infos).filter fun call => !(Bus.knownPacketId call.1 call.2).1).map
    fun call => packetKey call.2).reverse.take b.maxRecentPacketIds

/-- What the records hold behind these calls, and what the next one returns. -/
structure SlidingWindow (infos : List PacketInfo) : Prop where
  holds : (recordsBehind b infos).toList.map recordKey = lastUnknown b infos ++
    List.replicate (b.maxRecentPacketIds - (lastUnknown b infos).length) (recordKey {})
  nodup : (lastUnknown b infos).Nodup
  answers : ∀ info, info.id ≠ 0 →
    ((Bus.knownPacketId (recordsBehind b infos) info).1 = true ↔
      packetKey info ∈ lastUnknown b infos)

end Pjon.Spec
