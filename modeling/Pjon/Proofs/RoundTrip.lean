import Pjon.Proofs.Layout
import Pjon.Spec.Carried
/-!
# The parser reads back what the composer wrote

The two walk the same fields in the same order.  `holds_metaData` splits the
meta-data at the parser's own indexes, and each field is then read by itself.
-/

namespace Pjon.Proofs.RoundTrip

open Pjon.Lib Pjon.Model Pjon.Model.Tools Pjon.Spec

variable {b : Build} {info : PacketInfo} {sizing : Sizing} {memory : Memory}

theorem holds_metaData (hext : sizing.extendedLength = has sizing.header extLenBit)
    (hport : b.includePort → has sizing.header portBit → info.port ≠ noPort) :
    memory.Holds 0 (metaData b info sizing) ↔
      memory.Holds 0 (frontFields info sizing) ∧
      memory.Holds (busIndex sizing.header) (busFields b info sizing.header) ∧
      memory.Holds (txIndex b sizing.header) (txField info sizing.header) ∧
      memory.Holds (idIndex b sizing.header) (idField b info sizing.header) ∧
      memory.Holds (portIndex b sizing.header) (portField b info sizing.header) ∧
      memory.Holds (macIndex b sizing.header) (macFields b info sizing.header) := by
  simp only [metaData, Memory.holds_append, Nat.zero_add, length_frontFields info sizing hext,
    length_busFields, length_txField, length_idField, length_portField b info sizing hport]

theorem read_front (h : memory.Holds 0 (frontFields info sizing)) :
    memory 0 = info.rx.id ∧ memory 1 = sizing.header := by
  simp only [frontFields, List.cons_append, List.nil_append, Memory.holds_cons] at h
  exact ⟨h.1, h.2.1⟩

/-- The length field, read at the width that the header announces. -/
theorem read_length (hext : sizing.extendedLength = has sizing.header extLenBit)
    (hlt : sizing.newLength < 65536) (hshort : has sizing.header extLenBit = false →
      sizing.newLength < 256) (h : memory.Holds 0 (frontFields info sizing)) :
    (if has sizing.header extLenBit then (ofBigEndian (memory 2) (memory 3)).toNat
      else (memory 2).toNat) = sizing.newLength := by
  simp only [frontFields, lengthField, hext] at h
  cases hbit : has sizing.header extLenBit
  · simp only [hbit, Bool.false_eq_true, if_false, List.cons_append, List.nil_append,
      Memory.holds_cons] at h ⊢
    rw [h.2.2.1, UInt8.toNat_ofNat']
    exact Nat.mod_eq_of_lt (hshort hbit)
  · simp only [hbit, if_true, bigEndian, List.cons_append, List.nil_append,
      Memory.holds_cons] at h ⊢
    rw [h.2.2.1, h.2.2.2.1, ofBigEndian_bigEndian, UInt16.toNat_ofNat']
    exact Nat.mod_eq_of_lt hlt

/-- The CRC8 of the front stands right behind the length field. -/
theorem read_frontCrc (hext : sizing.extendedLength = has sizing.header extLenBit)
    (h : memory.Holds 0 (frontFields info sizing)) :
    memory (3 + (has sizing.header extLenBit).toNat) =
      Crc8.compute (memory.load 0 (3 + (has sizing.header extLenBit).toNat)) := by
  simp only [frontFields, Memory.holds_append, Memory.holds_cons, Memory.holds_nil,
    and_true, Nat.zero_add] at h
  have hlen : ([info.rx.id, sizing.header] ++ lengthField sizing).length =
      3 + (has sizing.header extLenBit).toNat := by
    cases hbit : has sizing.header extLenBit <;> simp [lengthField, hext, hbit]
  have hfront : memory.Holds 0 ([info.rx.id, sizing.header] ++ lengthField sizing) := by
    rw [Memory.holds_append, Nat.zero_add]
    simpa only [Memory.holds_cons, Memory.holds_nil, and_true] using h.1
  rw [Memory.Holds, hlen] at hfront
  rw [hfront, ← hlen]
  simpa using h.2

theorem read_bigEndian {start : Nat} {word : UInt16} (h : memory.Holds start (bigEndian word)) :
    ofBigEndian (memory start) (memory (start + 1)) = word := by
  simp only [bigEndian, Memory.holds_cons] at h
  rw [h.1, h.2.1, ofBigEndian_bigEndian]

/-! ## Field by field -/

section Fields

variable (hsup : b.Supports sizing.header)

include hsup

theorem holds_busFields_of_mode (hmode : has sizing.header modeBit = true)
    (h : memory.Holds (busIndex sizing.header) (busFields b info sizing.header)) :
    memory.Holds (busIndex sizing.header) info.rx.busId.toList ∧
      memory.Holds (busIndex sizing.header + 4)
        ((if has sizing.header txInfoBit then info.tx.busId.toList else []) ++ [info.hops]) := by
  have hshared : (!b.pjonLocal && has sizing.header modeBit) = true := by
    rw [hmode, hsup.2.2.2 hmode]
    rfl
  rw [busFields, if_pos hshared, List.append_assoc, Memory.holds_append,
    Vector.length_toList] at h
  exact h

theorem read_rxBusId
    (h : memory.Holds (busIndex sizing.header) (busFields b info sizing.header)) :
    (if !b.pjonLocal && has sizing.header modeBit then
        memory.vector (busIndex sizing.header) 4 else localhost) =
      if has sizing.header modeBit then info.rx.busId else localhost := by
  cases hmode : has sizing.header modeBit
  · simp
  · have hread := (holds_busFields_of_mode hsup hmode h).1
    simpa [hsup.2.2.2 hmode] using Memory.vector_of_holds hread

theorem read_txBusId
    (h : memory.Holds (busIndex sizing.header) (busFields b info sizing.header)) :
    (if !b.pjonLocal && has sizing.header modeBit && has sizing.header txInfoBit then
        memory.vector (txBusIndex sizing.header) 4 else localhost) =
      if has sizing.header modeBit && has sizing.header txInfoBit then info.tx.busId
      else localhost := by
  cases hmode : has sizing.header modeBit
  · simp
  · cases htxInfo : has sizing.header txInfoBit
    · simp
    · have hread := (holds_busFields_of_mode hsup hmode h).2
      rw [if_pos htxInfo, Memory.holds_append] at hread
      simpa [hsup.2.2.2 hmode, txBusIndex] using Memory.vector_of_holds hread.1

theorem read_hops
    (h : memory.Holds (busIndex sizing.header) (busFields b info sizing.header)) :
    (if !b.pjonLocal && has sizing.header modeBit then memory (hopsIndex sizing.header) else 0) =
      if has sizing.header modeBit then info.hops else 0 := by
  cases hmode : has sizing.header modeBit
  · simp
  · have hread := (holds_busFields_of_mode hsup hmode h).2
    rw [Memory.holds_append, Memory.holds_cons] at hread
    have hindex : hopsIndex sizing.header = busIndex sizing.header + 4 +
        (if has sizing.header txInfoBit then info.tx.busId.toList else []).length := by
      unfold hopsIndex txBusIndex
      split_ifs <;> simp
    simpa [hsup.2.2.2 hmode, hindex] using hread.2.1

omit hsup in
theorem read_txId (h : memory.Holds (txIndex b sizing.header) (txField info sizing.header)) :
    (if has sizing.header txInfoBit then memory (txIndex b sizing.header) else notAssigned) =
      if has sizing.header txInfoBit then info.tx.id else notAssigned := by
  cases htxInfo : has sizing.header txInfoBit
  · rfl
  · rw [txField, if_pos htxInfo, Memory.holds_cons] at h
    simpa using h.1

theorem read_id (h : memory.Holds (idIndex b sizing.header) (idField b info sizing.header)) :
    (if b.includePacketId && has sizing.header packetIdBit then
        ofBigEndian (memory (idIndex b sizing.header)) (memory (idIndex b sizing.header + 1))
      else 0) = if has sizing.header packetIdBit then info.id else 0 := by
  cases hbit : has sizing.header packetIdBit
  · simp
  · have hincluded := hsup.1 hbit
    rw [idField, hbit, hincluded, Bool.and_self, if_pos rfl] at h
    simpa [hincluded] using read_bigEndian h

theorem read_port (hport : b.includePort → has sizing.header portBit → info.port ≠ noPort)
    (h : memory.Holds (portIndex b sizing.header) (portField b info sizing.header)) :
    (if b.includePort && has sizing.header portBit then
        ofBigEndian (memory (portIndex b sizing.header)) (memory (portIndex b sizing.header + 1))
      else noPort) = if has sizing.header portBit then info.port else noPort := by
  cases hbit : has sizing.header portBit
  · simp
  · have hincluded := hsup.2.1 hbit
    have hset : (info.port != noPort) = true := by simpa using hport hincluded hbit
    rw [portField, hbit, hincluded, hset, Bool.and_self, Bool.and_self, if_pos rfl] at h
    simpa [hincluded] using read_bigEndian h

theorem holds_macFields_of_mac (hmac : has sizing.header macBit = true)
    (h : memory.Holds (macIndex b sizing.header) (macFields b info sizing.header)) :
    memory.Holds (macIndex b sizing.header) info.rx.mac.toList ∧
      memory.Holds (macIndex b sizing.header + 6) info.tx.mac.toList := by
  rw [macFields, hmac, hsup.2.2.1 hmac, Bool.and_self, if_pos rfl, Memory.holds_append,
    Vector.length_toList] at h
  exact h

end Fields

theorem parseHeader_recovers (hsup : b.Supports sizing.header)
    (hext : sizing.extendedLength = has sizing.header extLenBit)
    (hport : b.includePort → has sizing.header portBit → info.port ≠ noPort)
    (h : memory.Holds 0 (metaData b info sizing)) :
    Recovers info sizing.header (parseHeader b memory) := by
  rw [holds_metaData hext hport] at h
  obtain ⟨hfront, hbus, htx, hid, hportField, hmacField⟩ := h
  obtain ⟨hrx, hheader⟩ := read_front hfront
  constructor
  · simp only [withoutMacs, carried, parseHeader, parseRx, parseTx, hheader, hrx,
      read_rxBusId hsup hbus, read_txBusId hsup hbus, read_hops hsup hbus, read_txId htx,
      read_id hsup hid, read_port hsup hport hportField]
  · intro hmac
    have hread := (holds_macFields_of_mac hsup hmac hmacField).1
    simpa [parseHeader, parseRx, hheader, hsup.2.2.1 hmac] using Memory.vector_of_holds hread
  · intro hmac
    have hread := (holds_macFields_of_mac hsup hmac hmacField).2
    simpa [parseHeader, parseTx, hheader, hsup.2.2.1 hmac] using Memory.vector_of_holds hread

end Pjon.Proofs.RoundTrip
