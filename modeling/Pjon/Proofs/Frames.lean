import Pjon.Proofs.Layout
import Pjon.Spec.Admission
/-!
# The frames of one packet

A composed packet of any length that a receiver may admit starts with the header that
was settled, and composing the same packet again over it changes no byte.
-/

namespace Pjon.Proofs.Frames

open Pjon.Lib Pjon.Model Pjon.Model.Tools Pjon.Spec Pjon.Proofs.Layout

variable {b : Build} {info : PacketInfo} {source : Payload}

/-- The bytes in front of the end CRC. -/
abbrev bodyOf (b : Build) (info : PacketInfo) (source : Payload) : List UInt8 :=
  metaData b info (measure b info source.length) ++ source.bytes

/-- Where the end CRC is written. -/
abbrev crcStart (b : Build) (info : PacketInfo) (source : Payload) : Nat :=
  (measure b info source.length).newLength - crcOverhead (measure b info source.length).header

theorem crcOverhead_le (header : UInt8) : crcOverhead header ≤ 4 := by
  unfold crcOverhead
  split_ifs <;> omega

/-- The end CRC depends on the bytes in front of it only. -/
theorem endCrc_congr {header : UInt8} {newLength : Nat} {m m' : Memory}
    (hlong : 4 ≤ newLength) (hlt : newLength < 65536)
    (h : ∀ k < newLength - crcOverhead header, m k = m' k) :
    endCrc header newLength m = endCrc header newLength m' := by
  have hload {n : Nat} (hn : checksumLength newLength n ≤ newLength - crcOverhead header) :
      m.load 0 (checksumLength newLength n) = m'.load 0 (checksumLength newLength n) := by
    apply Memory.load_congr
    intro k hk
    rw [Nat.zero_add]
    exact h k (by omega)
  unfold endCrc
  unfold crcOverhead at hload
  split_ifs at hload ⊢
  · rw [hload (n := 4) (by unfold checksumLength; omega)]
  · rw [hload (n := 1) (by unfold checksumLength; omega)]

section Composed

variable (destination : Memory)
  (hfits : (measure b info source.length).newLength < b.packetMaxLength)
  (hlong : 4 ≤ (measure b info source.length).newLength)

include hfits hlong

theorem apply_composePacket :
    destination.apply (composePacket b info destination source).2 =
      (destination.store 0 (bodyOf b info source)).store (crcStart b info source)
        (endCrc (measure b info source.length).header (measure b info source.length).newLength
          (destination.store 0 (bodyOf b info source))) := by
  have hcopy := Memory.apply_copy destination 0 (bodyOf b info source)
  rw [Nat.cast_zero] at hcopy
  have hcrc := crcOverhead_le (measure b info source.length).header
  have hstart : ((measure b info source.length).newLength -
      crcOverhead (measure b info source.length).header : Int) =
      (crcStart b info source : Nat) := by
    rw [crcStart]
    omega
  rw [composePacket_of_lt destination source hfits, hstart, Memory.apply_append, hcopy,
    Memory.apply_copy]

/-- Composing again over a composed packet leaves it as it is. -/
theorem apply_composePacket_twice :
    (destination.apply (composePacket b info destination source).2).apply
        (composePacket b info
          (destination.apply (composePacket b info destination source).2) source).2 =
      destination.apply (composePacket b info destination source).2 := by
  have hlt : (measure b info source.length).newLength < 65536 := totalLength_lt _ _
  rw [apply_composePacket _ hfits hlong, apply_composePacket _ hfits hlong]
  -- the second end CRC covers what the first one covers
  have hcrc : endCrc (measure b info source.length).header
      (measure b info source.length).newLength
      (((destination.store 0 (bodyOf b info source)).store (crcStart b info source)
        (endCrc (measure b info source.length).header (measure b info source.length).newLength
          (destination.store 0 (bodyOf b info source)))).store 0 (bodyOf b info source)) =
      endCrc (measure b info source.length).header (measure b info source.length).newLength
        (destination.store 0 (bodyOf b info source)) := by
    apply endCrc_congr hlong hlt
    intro k hk
    by_cases hbody : k < 0 + (bodyOf b info source).length
    · simp only [Memory.store, if_pos (And.intro (Nat.zero_le k) hbody)]
    · rw [Memory.store_outside _ 0 _ (Or.inr (by omega)),
        Memory.store_outside _ (crcStart b info source) _ (Or.inl hk)]
  rw [hcrc]
  exact Memory.store_twice destination 0 (crcStart b info source) (bodyOf b info source) _

end Composed

/-! ## The header of a frame -/

theorem length_of_admissible {bus : Bus b} {s : List UInt8} (h : Admissible bus s) :
    6 ≤ s.length := by
  have hover := h.overhead
  have hge := packetOverhead_ge (header s)
  have hcomplete := h.complete
  omega

theorem byte_load (memory : Memory) {n k : Nat} (hk : k < n) :
    byte (memory.load 0 n) k = memory k := by
  rw [byte, Memory.load_getD memory 0 n k hk, Nat.zero_add]

/-- The end CRC is written behind the header. -/
theorem header_composePacket (destination : Memory)
    (hfits : (measure b info source.length).newLength < b.packetMaxLength)
    (hlong : 6 ≤ (measure b info source.length).newLength) :
    header ((destination.apply (composePacket b info destination source).2).load 0
      (measure b info source.length).newLength) = (measure b info source.length).header := by
  have hcrc := crcOverhead_le (measure b info source.length).header
  have hone : 1 < (measure b info source.length).newLength := by omega
  have hstart : 1 < crcStart b info source := by
    rw [crcStart]
    omega
  have hinside : 1 < (bodyOf b info source).length := by
    simp only [bodyOf, metaData, frontFields, List.cons_append, List.length_cons]
    omega
  rw [header, byte_load _ hone, apply_composePacket destination hfits (by omega),
    Memory.store_outside _ _ _ (Or.inl hstart)]
  exact Memory.store_inside destination 0 (bodyOf b info source) hinside

/-! ## Composition by an instance -/

section Instance

variable {sender : Bus b} {request : PacketInfo} {destination : Memory}

/-- The length that an instance measures for a packet. -/
abbrev packetSize (sender : Bus b) (request : PacketInfo) (source : Payload) : Nat :=
  (measure b (sender.completeInfo request) source.length).newLength

theorem composePacket_result (sender : Bus b) (request : PacketInfo) (destination : Memory)
    (source : Payload) :
    (sender.composePacket request destination source).result =
      if packetSize sender request source < b.packetMaxLength then packetSize sender request source
      else 0 := by
  simp only [Bus.composePacket, composePacket_fst]
  split_ifs <;> rfl

theorem composePacket_writes (sender : Bus b) (request : PacketInfo) (destination : Memory)
    (source : Payload) :
    (sender.composePacket request destination source).writes =
      (composePacket b (sender.completeInfo request) destination source).2 := by
  unfold Bus.composePacket
  simp only
  split_ifs <;> rfl

theorem fits_of_result (h : (sender.composePacket request destination source).result ≠ 0) :
    packetSize sender request source < b.packetMaxLength ∧
      (sender.composePacket request destination source).result =
        packetSize sender request source := by
  rw [composePacket_result] at h ⊢
  by_cases hfits : packetSize sender request source < b.packetMaxLength
  · rw [if_pos hfits]
    exact ⟨hfits, rfl⟩
  · rw [if_neg hfits] at h
    exact absurd rfl h

/-- The frame of a composed packet. -/
abbrev frameOf (sender : Bus b) (request : PacketInfo) (destination : Memory)
    (source : Payload) : List UInt8 :=
  (destination.apply (sender.composePacket request destination source).writes).load 0
    (sender.composePacket request destination source).result

/-- What is composed depends on the completed info only. -/
theorem composePacket_congr {sender' : Bus b} {request' : PacketInfo}
    (h : sender.completeInfo request = sender'.completeInfo request') (destination : Memory)
    (source : Payload) :
    (sender.composePacket request destination source).result =
        (sender'.composePacket request' destination source).result ∧
      frameOf sender request destination source = frameOf sender' request' destination source := by
  have hresult : (sender.composePacket request destination source).result =
      (sender'.composePacket request' destination source).result := by
    rw [composePacket_result, composePacket_result, packetSize, packetSize, h]
  refine ⟨hresult, ?_⟩
  rw [frameOf, frameOf, hresult, composePacket_writes, composePacket_writes, h]

/-- A frame that some receiver admits shows the packet id bit that it was composed with. -/
theorem has_packetId_frameOf {b' : Build} {receiver : Bus b'}
    (hid : has (sender.effectiveHeader request) packetIdBit = true)
    (hresult : (sender.composePacket request destination source).result ≠ 0)
    (hadm : Admissible receiver (frameOf sender request destination source)) :
    has (header (frameOf sender request destination source)) packetIdBit = true := by
  obtain ⟨hfits, hlength⟩ := fits_of_result hresult
  have hlong := length_of_admissible hadm
  rw [frameOf, Memory.length_load, hlength] at hlong
  rw [frameOf, hlength, composePacket_writes, header_composePacket destination hfits hlong,
    has_measure_packetId]
  exact hid

end Instance

end Pjon.Proofs.Frames
