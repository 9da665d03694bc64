import Pjon.Spec.Admission
/-!
# Bytes in chunks

What a call of `receive` does is determined by the bytes, whatever the chunks are in which
`receive_frame` hands them over.
-/

namespace Pjon.Spec

open Pjon.Lib Pjon.Model

variable {b : Build}

/-- Two calls that cannot be told apart but by the `data` buffer. -/
structure SameReception (outcome outcome' : Outcome b) : Prop where
  result : outcome.result = outcome'.result
  events : outcome.events = outcome'.events
  lastPacketInfo : outcome.bus.lastPacketInfo = outcome'.bus.lastPacketInfo
  recentPacketIds : outcome.bus.recentPacketIds = outcome'.bus.recentPacketIds

def ChunkFree (bus : Bus b) (s : List UInt8) : Prop :=
  ∀ delivery delivery' : Delivery, delivery.bytes = s → delivery'.bytes = s →
    SameReception (bus.receive delivery) (bus.receive delivery')

/-- A byte behind the end of the packet that `parse_header` copies as one of a MAC address, and
that there is room for in `data`. -/
structure ReadBehind (b : Build) (s : List UInt8) (k : Nat) : Prop where
  includeMac : b.includeMac = true
  behind : encodedLength s ≤ k
  mac : Tools.macIndex b (header s) ≤ k ∧ k < Tools.macIndex b (header s) + 12
  arrives : k < s.length
  fits : k < b.packetMaxLength

end Pjon.Spec
