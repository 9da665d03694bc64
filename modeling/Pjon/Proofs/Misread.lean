import Pjon.Proofs.Frames
import Pjon.Proofs.Interop
/-!
# A length field that is a byte short

The composer may raise the header to an extended length after it has settled the width of the
length field.  A receiver then reads every field one byte late.  Such a frame may still get past
both checksums, but not with the sender, the hop count and the packet id that it was composed
with.
-/

namespace Pjon.Proofs.Misread

open Pjon.Lib Pjon.Model Pjon.Model.Tools Pjon.Spec
open Pjon.Proofs.Layout Pjon.Proofs.Frames Pjon.Proofs.Interop Pjon.Proofs.Receive

variable {b : Build} {info : PacketInfo} {source : Payload} (destination : Memory)

/-- What leaves of a composed packet, whatever its length field says. -/
abbrev emitted (b : Build) (info : PacketInfo) (destination : Memory) (source : Payload) :
    List UInt8 :=
  (destination.apply (composePacket b info destination source).2).load 0
    (measure b info source.length).newLength

theorem emitted_sameFormat {b' : Build} (hformat : SameFormat b b') (info : PacketInfo)
    (destination : Memory) (source : Payload) :
    emitted b info destination source = emitted b' info destination source := by
  simp only [emitted, composePacket, measure_sameFormat hformat, metaData_sameFormat hformat,
    hformat.packetMaxLength]

/-- In front of the end CRC the frame is what was written first. -/
theorem holds_emitted (hfits : (measure b info source.length).newLength < b.packetMaxLength)
    (hlong : 4 ≤ (measure b info source.length).newLength) {front rest : List UInt8}
    (hbody : bodyOf b info source = front ++ rest) (hle : front.length ≤ crcStart b info source) :
    Memory.Holds (byte (emitted b info destination source)) 0 front := by
  rw [Memory.holds_iff]
  intro i hi
  have hcrc : crcStart b info source ≤ (measure b info source.length).newLength := Nat.sub_le _ _
  have hinside : i < (bodyOf b info source).length := by
    rw [hbody, List.length_append]
    omega
  have hstored := Memory.store_inside destination 0 (bodyOf b info source) hinside
  rw [Nat.zero_add] at hstored ⊢
  rw [byte_load _ (by omega), apply_composePacket destination hfits hlong,
    Memory.store_outside _ _ _ (Or.inl (by omega)), hstored, hbody,
    List.getD_append _ _ _ _ hi]

/-- The front CRC covers itself. -/
theorem frontCrc_of_short {s : List UInt8} {sizing : Sizing} (hext : sizing.extendedLength = false)
    (hlength : 4 ≤ s.length) (h : Memory.Holds (byte s) 0 (frontFields info sizing)) :
    Crc8.compute (s.take 4) = 0 := by
  have hfront : (frontFields info sizing).length = 4 := by
    simp [frontFields, lengthField, hext]
  rw [Memory.Holds, hfront] at h
  rw [← load_eq_take hlength fun _ _ => rfl, h, frontFields]
  exact Crc8.compute_append_compute _

section Late

variable (bus : Bus b)
  (hfits : (measure b info source.length).newLength < b.packetMaxLength)
  (hlong : 6 ≤ (measure b info source.length).newLength)
  (hsum : source.length + packetOverhead (measure b info source.length).header < 65536)
  (hsup : b.Supports info.header) (htx : has info.header txInfoBit = true)
  (hid : has info.header packetIdBit = true)

include hfits hlong hsum hsup htx hid

/-- Where the sender and the packet id are, in front of where they are looked for. -/
theorem holds_late (hshort : (measure b info source.length).extendedLength = false)
    (hset : has (measure b info source.length).header extLenBit = true) :
    Memory.Holds (byte (emitted b info destination source)) 0
        (frontFields info (measure b info source.length)) ∧
      byte (emitted b info destination source)
        (txIndex b (measure b info source.length).header - 1) = info.tx.id ∧
      Memory.Holds (byte (emitted b info destination source))
        (txIndex b (measure b info source.length).header) (bigEndian info.id) := by
  have hincluded : b.includePacketId = true := hsup.1 hid
  have hsupported := supports_measure source.length hsup
  generalize hsizing : measure b info source.length = sizing at *
  have htxInfo : has sizing.header txInfoBit = true := by
    rw [← hsizing, has_measure_txInfo, htx]
  have hpacketId : has sizing.header packetIdBit = true := by
    rw [← hsizing, has_measure_packetId, hid]
  have hfront : (frontFields info sizing).length = 4 := by
    simp [frontFields, lengthField, hshort]
  have hindex : busIndex sizing.header = 5 := by
    rw [busIndex, hset]
    rfl
  have hbus := length_busFields b info sizing
  rw [hindex] at hbus
  have hbody : bodyOf b info source =
      (frontFields info sizing ++ (busFields b info sizing.header ++
        ([info.tx.id] ++ bigEndian info.id))) ++
        (portField b info sizing.header ++ macFields b info sizing.header ++ source.bytes) := by
    simp only [bodyOf, hsizing, metaData, txField, htxInfo, idField, hincluded, hpacketId,
      Bool.and_self, if_true, List.append_assoc]
  have hend : (frontFields info sizing ++ (busFields b info sizing.header ++
      ([info.tx.id] ++ bigEndian info.id))).length ≤ crcStart b info source := by
    have hmac := macIndex_add b sizing.header hsupported
    have hport : idIndex b sizing.header + 2 ≤ macIndex b sizing.header := by
      rw [macIndex, portIndex, hincluded, hpacketId]
      simp only [Bool.and_self, if_true]
      split_ifs <;> omega
    have hnew : sizing.newLength = source.length + packetOverhead sizing.header := by
      rw [← hsizing] at hsum ⊢
      exact totalLength_of_lt hsum
    have hidIndex : idIndex b sizing.header = txIndex b sizing.header + 1 := by
      rw [idIndex, if_pos htxInfo]
    rw [crcStart, hsizing, hnew]
    simp only [List.length_append, hfront, length_bigEndian, List.length_singleton]
    omega
  have hholds := holds_emitted destination (hsizing ▸ hfits)
    (by rw [hsizing]; omega) hbody hend
  rw [Memory.holds_append, Memory.holds_append, Memory.holds_append, Nat.zero_add, hfront] at hholds
  obtain ⟨hheld, -, hsender, hnumber⟩ := hholds
  have hposition : 4 + (busFields b info sizing.header).length =
      txIndex b sizing.header - 1 := by omega
  rw [hposition] at hsender hnumber
  rw [List.length_singleton, show txIndex b sizing.header - 1 + 1 = txIndex b sizing.header by
    omega] at hnumber
  exact ⟨hheld, ((Memory.holds_cons _ _ _ _).mp hsender).1, hnumber⟩

/-- The sender is read from the high byte of the id, and that from the low one. -/
theorem read_late (hshort : (measure b info source.length).extendedLength = false)
    (hset : has (measure b info source.length).header extLenBit = true) :
    (infoOf bus (emitted b info destination source)).tx.id = (info.id >>> 8).toUInt8 ∧
      ((infoOf bus (emitted b info destination source)).id >>> 8).toUInt8 =
        info.id.toUInt8 := by
  obtain ⟨-, -, hlate⟩ := holds_late destination hfits hlong hsum hsup htx hid hshort hset
  have hheader : header (emitted b info destination source) =
      (measure b info source.length).header := header_composePacket destination hfits hlong
  have hbit : byte (emitted b info destination source) 1 =
      header (emitted b info destination source) := rfl
  have htxInfo : has (measure b info source.length).header txInfoBit = true := by
    rw [has_measure_txInfo, htx]
  have hpacketId : has (measure b info source.length).header packetIdBit = true := by
    rw [has_measure_packetId, hid]
  rw [bigEndian, Memory.holds_cons, Memory.holds_cons] at hlate
  obtain ⟨hhigh, hlow, -⟩ := hlate
  constructor
  · rw [← hhigh]
    simp only [infoOf, Bus.parse, parseHeader, parseTx, hbit, hheader, htxInfo, if_true]
  · have hread : bigEndian (infoOf bus (emitted b info destination source)).id =
        [byte (emitted b info destination source)
            (txIndex b (measure b info source.length).header + 1),
          byte (emitted b info destination source)
            (txIndex b (measure b info source.length).header + 2)] := by
      simp only [infoOf, Bus.parse, parseHeader, hbit, hheader, hpacketId, hsup.1 hid,
        Bool.and_self, if_true, bigEndian_ofBigEndian, idIndex, htxInfo]
    rw [hlow, bigEndian] at hread
    exact (List.cons.inj hread).1

variable {destination} {bus}

/-- What is admitted so, and is told to have made no hop, is from sender 0. -/
theorem sender_late (hshort : (measure b info source.length).extendedLength = false)
    (hset : has (measure b info source.length).header extLenBit = true)
    (hadm : Admissible bus (emitted b info destination source))
    (hhops : (infoOf bus (emitted b info destination source)).hops = 0) : info.tx.id = 0 := by
  obtain ⟨hfront, hearlier, -⟩ := holds_late destination hfits hlong hsum hsup htx hid hshort hset
  have hheader : header (emitted b info destination source) =
      (measure b info source.length).header := header_composePacket destination hfits hlong
  cases hmode : has (measure b info source.length).header modeBit
  · -- the byte behind the front CRC is taken for it
    have hindex : txIndex b (measure b info source.length).header - 1 = 4 := by
      rw [txIndex, hmode, Bool.and_false, if_neg Bool.false_ne_true, busIndex, hset]
      rfl
    have hcrc := hadm.frontCrc
    rw [shift, hheader, hset] at hcrc
    rw [hindex] at hearlier
    rw [← hearlier]
    have hlength : 4 ≤ (emitted b info destination source).length := by
      rw [Memory.length_load]
      omega
    exact hcrc.symm.trans (frontCrc_of_short hshort hlength hfront)
  · -- the sender is taken for the hop count
    have hlocal : b.pjonLocal = false := hsup.2.2.2 (by rwa [has_measure_mode] at hmode)
    have hindex : txIndex b (measure b info source.length).header - 1 =
        hopsIndex (measure b info source.length).header := by
      rw [txIndex, hmode, hlocal]
      rfl
    have hbit : byte (emitted b info destination source) 1 =
        header (emitted b info destination source) := rfl
    rw [← hearlier, hindex, ← hhops]
    simp only [infoOf, Bus.parse, parseHeader, hbit, hheader, hmode, hlocal, Bool.not_false,
      Bool.and_self, if_true]

/-- A frame that is taken for what it was composed of says truly how wide its length field is. -/
theorem width_of_told (hnumbered : info.id ≠ 0)
    (hadm : Admissible bus (emitted b info destination source))
    (hsender : (infoOf bus (emitted b info destination source)).tx.id = info.tx.id)
    (hhops : (infoOf bus (emitted b info destination source)).hops = 0)
    (hnumber : (infoOf bus (emitted b info destination source)).id = info.id) :
    (measure b info source.length).extendedLength =
      has (measure b info source.length).header extLenBit := by
  by_contra hwidth
  have hshort : (measure b info source.length).extendedLength = false := by
    by_contra hwide
    rw [Bool.not_eq_false] at hwide
    exact hwidth (hwide.trans (has_ext_of_extendedLength hwide).symm)
  have hset : has (measure b info source.length).header extLenBit = true := by
    by_contra hclear
    rw [Bool.not_eq_true] at hclear
    exact hwidth (hshort.trans hclear.symm)
  obtain ⟨hreadTx, hreadId⟩ :=
    read_late destination bus hfits hlong hsum hsup htx hid hshort hset
  have hhigh : (info.id >>> 8).toUInt8 = 0 := by
    rw [← hreadTx, hsender]
    exact sender_late hfits hlong hsum hsup htx hid hshort hset hadm hhops
  rw [hnumber] at hreadId
  apply hnumbered
  have hbytes : ofBigEndian (info.id >>> 8).toUInt8 info.id.toUInt8 = info.id :=
    ofBigEndian_bigEndian info.id
  rw [← hbytes, ← hreadId, hhigh]
  rfl

end Late

/-! ## What is admitted with the payload it was composed of -/

section Admitted

variable {destination} {bus : Bus b}
  (hfits : (measure b info source.length).newLength < b.packetMaxLength)
  (hadm : Admissible bus (emitted b info destination source))

include hfits hadm

theorem header_emitted :
    header (emitted b info destination source) = (measure b info source.length).header := by
  have hlong := length_of_admissible hadm
  rw [Memory.length_load] at hlong
  exact header_composePacket destination hfits hlong

theorem supports_emitted (hshared : has info.header modeBit → b.pjonLocal = false) :
    b.Supports info.header := by
  have hheader := header_emitted hfits hadm
  apply (supports_measure_iff b info source.length).mp
  rw [← hheader]
  refine ⟨hadm.packetId, hadm.port, hadm.mac, ?_⟩
  rw [hheader, has_measure_mode]
  exact hshared

variable (hpayload : source.bytes = payloadOf (emitted b info destination source))

include hpayload

/-- The payload is as long as the frame leaves room for. -/
theorem length_emitted :
    0 < source.length ∧
      source.length + packetOverhead (measure b info source.length).header < 65536 := by
  have hheader := header_emitted hfits hadm
  have hbytes := congrArg List.length hpayload
  have hover := hadm.overhead
  have hcomplete := hadm.complete
  rw [payloadOf, Memory.length_load, hheader] at hbytes
  rw [hheader] at hover
  rw [Memory.length_load, measure_newLength, Tools.totalLength] at hcomplete
  have hlength : source.bytes.length = source.length := rfl
  have hmod := Nat.mod_lt
    (source.length + packetOverhead (measure b info source.length).header)
    (by decide : 0 < 65536)
  omega

/-- What is taken for what it was composed of was composed as a packet. -/
theorem sendable_of_told (hshared : has info.header modeBit → b.pjonLocal = false)
    (htx : has info.header txInfoBit = true) (hid : has info.header packetIdBit = true)
    (hnumbered : info.id ≠ 0)
    (hsender : (infoOf bus (emitted b info destination source)).tx.id = info.tx.id)
    (hhops : (infoOf bus (emitted b info destination source)).hops = 0)
    (hnumber : (infoOf bus (emitted b info destination source)).id = info.id) :
    Sendable b info source := by
  have hlong := length_of_admissible hadm
  rw [Memory.length_load] at hlong
  have hsup := supports_emitted hfits hadm hshared
  obtain ⟨hnonempty, hsum⟩ := length_emitted hfits hadm hpayload
  have hwidth := width_of_told hfits hlong hsum hsup htx hid hnumbered hadm hsender hhops hnumber
  have hcrc := hadm.extLenCrc
  rw [header_emitted hfits hadm] at hcrc
  exact ⟨hsup, ⟨hsum, hwidth⟩, hfits, hcrc, hnonempty⟩

end Admitted

end Pjon.Proofs.Misread
