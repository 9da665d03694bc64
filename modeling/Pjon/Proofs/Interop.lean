import Pjon.Proofs.RoundTrip
import Pjon.Proofs.Deliver
import Mathlib.Tactic.IntervalCases
/-!
# A composed packet is received by those it is addressed to

Composer, overhead tables, receive filter and parser meet here: the bytes of a
composed packet satisfy every rule of `Admissible` at an addressed instance, and
what `receive` hands over is what the packet carries.
-/

namespace Pjon.Proofs.Interop

open Pjon.Lib Pjon.Model Pjon.Model.Tools Pjon.Spec
open Pjon.Proofs.Layout Pjon.Proofs.RoundTrip Pjon.Proofs.Filter Pjon.Proofs.Receive
open Pjon.Proofs.Deliver

variable {b : Build} {info : PacketInfo}

theorem holds_byte (s : List UInt8) : Memory.Holds (byte s) 0 s := by
  rw [Memory.holds_iff]
  intro i _
  rw [Nat.zero_add, byte]

/-- The header that `compose_packet` writes. -/
abbrev written (b : Build) (info : PacketInfo) (source : Payload) : UInt8 :=
  (measure b info source.length).header

/-- A packet that the layout theorem covers and that a receiver has room for. -/
structure Sendable (b : Build) (info : PacketInfo) (source : Payload) : Prop where
  supports : b.Supports info.header
  faithful : Faithful b info source.length
  fits : (measure b info source.length).newLength < b.packetMaxLength
  extLenCrc : has (written b info source) extLenBit → has (written b info source) crcBit
  nonempty : 0 < source.length

/-- The bytes of a composed packet. -/
abbrev bytesOf (b : Build) (info : PacketInfo) (source : Payload) : List UInt8 :=
  packetBytes b info (measure b info source.length) source.bytes

section Read

variable {source : Payload}

theorem holds_metaData_bytesOf (b : Build) (info : PacketInfo) (source : Payload) :
    Memory.Holds (byte (bytesOf b info source)) 0
      (metaData b info (measure b info source.length)) := by
  have hall := holds_byte (bytesOf b info source)
  rw [bytesOf, packetBytes, Memory.holds_append, Memory.holds_append] at hall
  exact hall.1.1

variable (h : Sendable b info source)

include h

theorem newLength_eq : (measure b info source.length).newLength =
    source.length + packetOverhead (written b info source) :=
  totalLength_of_lt h.faithful.noWrap

theorem length_bytesOf : (bytesOf b info source).length =
    source.length + packetOverhead (written b info source) := by
  rw [length_packetBytes source h.supports h.faithful, newLength_eq h]

theorem length_body_bytesOf :
    (metaData b info (measure b info source.length) ++ source.bytes).length +
        crcOverhead (written b info source) =
      source.length + packetOverhead (written b info source) := by
  rw [← newLength_eq h]
  exact length_body source h.supports h.faithful

theorem holds_front_bytesOf :
    Memory.Holds (byte (bytesOf b info source)) 0
      (frontFields info (measure b info source.length)) :=
  ((holds_metaData h.faithful.width fun hb => port_of_has_port b info source.length hb).mp
    (holds_metaData_bytesOf b info source)).1

theorem byte_zero_bytesOf : byte (bytesOf b info source) 0 = info.rx.id :=
  (read_front (holds_front_bytesOf h)).1

theorem header_bytesOf : header (bytesOf b info source) = written b info source :=
  (read_front (holds_front_bytesOf h)).2

theorem encodedLength_bytesOf : encodedLength (bytesOf b info source) =
    source.length + packetOverhead (written b info source) := by
  have hread := read_length h.faithful.width (totalLength_lt _ _)
    (newLength_lt_of_short h.faithful.width)
    (holds_front_bytesOf h)
  rw [encodedLength, header_bytesOf h, hread, newLength_eq h]

theorem shift_bytesOf : shift (bytesOf b info source) =
    (has (written b info source) extLenBit).toNat := by
  rw [shift, header_bytesOf h]

/-- The meta-data ends where the overhead tables say that the payload starts. -/
theorem length_metaData_bytesOf :
    (metaData b info (measure b info source.length)).length =
      packetOverhead (written b info source) - crcOverhead (written b info source) := by
  have hbody := length_body_bytesOf h
  have hsource : source.bytes.length = source.length := rfl
  rw [List.length_append] at hbody
  omega

theorem payloadOf_bytesOf : payloadOf (bytesOf b info source) = source.bytes := by
  have hall := holds_byte (bytesOf b info source)
  rw [bytesOf, packetBytes, Memory.holds_append, Memory.holds_append, Nat.zero_add,
    length_metaData_bytesOf h] at hall
  have hlen : encodedLength (bytesOf b info source) -
      packetOverhead (header (bytesOf b info source)) = source.bytes.length := by
    rw [encodedLength_bytesOf h, header_bytesOf h, Nat.add_sub_cancel]
    rfl
  rw [payloadOf, hlen, header_bytesOf h]
  exact hall.1.2

/-- What the end CRC of a composed packet covers. -/
theorem take_bytesOf :
    (bytesOf b info source).take
        (encodedLength (bytesOf b info source) - crcOverhead (written b info source)) =
      metaData b info (measure b info source.length) ++ source.bytes := by
  have hbody := length_body_bytesOf h
  apply List.take_left'
  rw [encodedLength_bytesOf h]
  omega

theorem load_endCrc_bytesOf :
    Memory.load (byte (bytesOf b info source))
        (encodedLength (bytesOf b info source) - crcOverhead (written b info source))
        (crcOverhead (written b info source)) =
      closingCrc (written b info source)
        (metaData b info (measure b info source.length) ++ source.bytes) := by
  have hall := holds_byte (bytesOf b info source)
  have hbody := length_body_bytesOf h
  have hstart : encodedLength (bytesOf b info source) - crcOverhead (written b info source) =
      (metaData b info (measure b info source.length) ++ source.bytes).length := by
    rw [encodedLength_bytesOf h]
    omega
  rw [bytesOf, packetBytes, Memory.holds_append, Nat.zero_add] at hall
  rw [hstart, ← length_closingCrc (written b info source)
    (metaData b info (measure b info source.length) ++ source.bytes)]
  exact hall.2

theorem frontCrc_bytesOf :
    Crc8.compute ((bytesOf b info source).take (3 + shift (bytesOf b info source))) =
      byte (bytesOf b info source) (3 + shift (bytesOf b info source)) := by
  have hread := read_frontCrc h.faithful.width (holds_front_bytesOf h)
  have hover := packetOverhead_ge (written b info source)
  have hshift : (has (written b info source) extLenBit).toNat ≤ 1 := Bool.toNat_le _
  have htake : Memory.load (byte (bytesOf b info source)) 0
      (3 + (has (written b info source) extLenBit).toNat) =
      (bytesOf b info source).take (3 + (has (written b info source) extLenBit).toNat) := by
    apply load_eq_take
    · rw [length_bytesOf h]
      omega
    · intro k _
      rfl
  rw [shift_bytesOf h, hread, htake]

theorem endCrc_bytesOf :
    if has (written b info source) crcBit then
      Memory.load (byte (bytesOf b info source)) (encodedLength (bytesOf b info source) - 4) 4 =
        Crc32.bytes (Crc32.compute ((bytesOf b info source).take
          (encodedLength (bytesOf b info source) - 4)))
    else byte (bytesOf b info source) (encodedLength (bytesOf b info source) - 1) =
      Crc8.compute ((bytesOf b info source).take
        (encodedLength (bytesOf b info source) - 1)) := by
  have hread := load_endCrc_bytesOf h
  rw [← take_bytesOf h] at hread
  simp only [crcOverhead, closingCrc] at hread
  split_ifs at hread ⊢ with hcrc
  · exact hread
  · simpa [Memory.load] using hread

/-- The rx MAC address lies 16 bytes in front of the payload's overhead. -/
theorem macAddress_bytesOf (hmac : has (written b info source) macBit = true)
    (hcrc : has (written b info source) crcBit = true) :
    Memory.vector (byte (bytesOf b info source)) (packetOverhead (written b info source) - 16) 6 =
      info.rx.mac := by
  have hsup := supports_measure source.length h.supports
  have hfields := ((holds_metaData h.faithful.width fun hb =>
    port_of_has_port b info source.length hb).mp (holds_metaData_bytesOf b info source)).2.2.2.2.2
  have hindex := macIndex_add b (written b info source) hsup
  simp only [hmac, crcOverhead, hcrc, if_true] at hindex
  rw [macFields, hmac, hsup.2.2.1 hmac, Bool.and_self, if_pos rfl, Memory.holds_append] at hfields
  rw [show packetOverhead (written b info source) - 16 = macIndex b (written b info source) by
    omega]
  exact Memory.vector_of_holds hfields.1

/-- The rx bus id of a shared-mode packet is the first field behind the front. -/
theorem busId_bytesOf (hmode : has (written b info source) modeBit = true) :
    ∀ k < 4, byte (bytesOf b info source) (4 + shift (bytesOf b info source) + k) =
      info.rx.busId.toList.getD k 0 := by
  intro k hk
  have hsup := supports_measure source.length h.supports
  have hfields := ((holds_metaData h.faithful.width fun hb =>
    port_of_has_port b info source.length hb).mp (holds_metaData_bytesOf b info source)).2.1
  rw [busFields, hmode, hsup.2.2.2 hmode, Bool.not_false, Bool.and_self, if_pos rfl,
    List.append_assoc, Memory.holds_append, Memory.holds_iff] at hfields
  have hread := hfields.1 k (by simpa using hk)
  rwa [busIndex, ← shift_bytesOf h] at hread

end Read

/-! ## Admission -/

/-- The MAC fields alone make a packet longer than 15 bytes. -/
theorem macCrc_measure {source : Payload} (h : Sendable b info source)
    (hmac : has (written b info source) macBit = true) :
    has (written b info source) crcBit = true := by
  apply crc_of_long
  have hlarge : 17 ≤ packetOverhead (written b info source) := by
    simp only [packetOverhead, hmac, if_true]
    split_ifs <;> omega
  have hlen := newLength_eq h
  rw [measure_newLength] at hlen
  omega

/-- The bus id that a packet is for, byte by byte. -/
theorem busId_eq_iff (id : Vector UInt8 4) (bus : Bus b) :
    (∀ k < 4, id.toList.getD k 0 =
        if has bus.config modeBit then bus.tx.busId.toList.getD k 0 else 0) ↔
      id = if has bus.config modeBit then bus.tx.busId else localhost := by
  constructor
  · intro h
    apply Vector.ext
    intro k hk
    have hbyte := h k hk
    revert hbyte
    cases has bus.config modeBit
    · simp [localhost, hk]
    · simp [hk]
  · rintro rfl k hk
    cases has bus.config modeBit
    · interval_cases k <;> rfl
    · rfl

/-- The bus id that a composed packet is for is where receivers look for it. -/
theorem busId_bytesOf_iff {source : Payload} (bus : Bus b) (h : Sendable b info source) :
    (has (written b info source) modeBit → has (written b info source) macBit = false →
        ∀ k < 4, byte (bytesOf b info source) (4 + shift (bytesOf b info source) + k) =
          if has bus.config modeBit then bus.tx.busId.toList.getD k 0 else 0) ↔
      (has (written b info source) modeBit → has (written b info source) macBit = false →
        info.rx.busId = if has bus.config modeBit then bus.tx.busId else localhost) := by
  apply forall_congr'
  intro hmode
  rw [← busId_eq_iff info.rx.busId bus]
  simp +contextual only [busId_bytesOf h hmode]

/-- So is the MAC. -/
theorem macAddress_bytesOf_iff {source : Payload} (bus : Bus b) (h : Sendable b info source) :
    (has (written b info source) macBit →
        Memory.vector (byte (bytesOf b info source)) (packetOverhead (written b info source) - 16)
            6 = bus.tx.mac ∨
          Memory.vector (byte (bytesOf b info source)) (packetOverhead (written b info source) - 16)
            6 = noMac) ↔
      (has (written b info source) macBit → info.rx.mac = bus.tx.mac ∨ info.rx.mac = noMac) := by
  apply forall_congr'
  intro hbit
  rw [macAddress_bytesOf h hbit (macCrc_measure h hbit)]

/-- A composed packet breaks no rule; whether it is admitted depends on its addresses. -/
theorem admissible_bytesOf_iff {source : Payload} (bus : Bus b) (h : Sendable b info source) :
    Admissible bus (bytesOf b info source) ↔ Receivable bus info (written b info source) := by
  have hheader := header_bytesOf h
  have hlength := encodedLength_bytesOf h
  constructor
  · intro hadm
    have hadmBus := hadm.busId
    have hadmMac := hadm.macAddress
    rw [hheader, busId_bytesOf_iff bus h] at hadmBus
    rw [hheader, macAddress_bytesOf_iff bus h] at hadmMac
    refine ⟨?_, ?_, hadmBus, hadmMac⟩
    · rw [← byte_zero_bytesOf h, ← hheader]
      exact hadm.recipient
    · rw [← hheader]
      exact hadm.mode
  · intro haddr
    have hfits := h.fits
    have hnonempty := h.nonempty
    have hsup := supports_measure source.length h.supports
    rw [newLength_eq h] at hfits
    constructor
    case complete => rw [hlength, length_bytesOf h]
    case recipient =>
      rw [byte_zero_bytesOf h, hheader]
      exact haddr.recipient
    case broadcastAck =>
      rw [byte_zero_bytesOf h, hheader]
      intro hall
      rw [has_measure_ack, hall]
      simp
    case extLenCrc =>
      rw [hheader]
      exact h.extLenCrc
    case macCrc =>
      rw [hheader]
      exact macCrc_measure h
    case packetId =>
      rw [hheader]
      exact hsup.1
    case port =>
      rw [hheader]
      exact hsup.2.1
    case mac =>
      rw [hheader]
      exact hsup.2.2.1
    case mode =>
      rw [hheader]
      exact haddr.localMode
    case busId =>
      rw [hheader, busId_bytesOf_iff bus h]
      exact haddr.busId
    case overhead =>
      rw [hheader, hlength]
      omega
    case maxLength =>
      rw [hlength]
      exact hfits
    case longCrc =>
      rw [hheader, hlength, ← newLength_eq h]
      exact crc_of_long b info source.length
    case frontCrc => exact frontCrc_bytesOf h
    case endCrc =>
      rw [hheader]
      exact endCrc_bytesOf h
    case macAddress =>
      rw [hheader, macAddress_bytesOf_iff bus h]
      exact haddr.mac

theorem admissible_bytesOf {source : Payload} (bus : Bus b) (h : Sendable b info source)
    (haddr : Addressed bus info (written b info source)) :
    Admissible bus (bytesOf b info source) :=
  (admissible_bytesOf_iff bus h).mpr haddr.receivable

/-! ## Reception -/

theorem recovers_customPointer {header : UInt8} {parsed : PacketInfo} (pointer : Nat)
    (h : Recovers info header parsed) :
    Recovers info header { parsed with customPointer := pointer } := by
  obtain ⟨hfields, hrx, htx⟩ := h
  refine ⟨?_, hrx, htx⟩
  have hset := congrArg (fun i : PacketInfo => { i with customPointer := pointer }) hfields
  exact hset

/-- The local variables that an admitted composed packet leaves hold all of it. -/
theorem recovers_settled {source : Payload} (bus : Bus b) (h : Sendable b info source)
    {st : LoopState} (hsettled : Settled (bytesOf b info source) st) :
    Recovers info (written b info source) (bus.parse st.data) := by
  have hmeta : Memory.Holds st.data 0 (metaData b info (measure b info source.length)) := by
    apply Memory.holds_congr _ (holds_metaData_bytesOf b info source)
    intro k hk
    have hlen := length_metaData_bytesOf h
    rw [Nat.zero_add, hsettled.data k]
    rw [encodedLength_bytesOf h]
    omega
  exact recovers_customPointer bus.customPointer
    (parseHeader_recovers (supports_measure source.length h.supports) h.faithful.width
      (fun hb => port_of_has_port b info source.length hb) hmeta)

/-- Ids and port decide about delivery through the carried info only. -/
theorem sameId_of_recovers {header : UInt8} {parsed : PacketInfo}
    (h : Recovers info header parsed) (record : PacketRecord) :
    Bus.sameId parsed record = Bus.sameId (carried info header) record := by
  rw [← sameId_withoutMacs parsed, h.fields]
  rfl

theorem port_of_recovers {header : UInt8} {parsed : PacketInfo}
    (h : Recovers info header parsed) : parsed.port = (carried info header).port := by
  have hport := congrArg PacketInfo.port h.fields
  exact hport

/-- `receive` on a composed packet. -/
theorem receive_bytesOf {source : Payload} (bus : Bus b) (h : Sendable b info source)
    (haddr : Addressed bus info (written b info source)) (hmax : b.packetMaxLength < 65536)
    {delivery : Delivery} (hbytes : delivery.bytes = bytesOf b info source) :
    ∃ parsed, Recovers info (written b info source) parsed ∧
      Caused bus (bytesOf b info source) parsed (bus.receive delivery) := by
  have hadm := admissible_bytesOf bus h haddr
  have hmin : 4 ≤ b.packetMaxLength := by
    have hover := packetOverhead_ge (written b info source)
    have hfits := h.fits
    rw [newLength_eq h] at hfits
    omega
  have hadm' := hadm
  rw [← hbytes] at hadm'
  obtain ⟨st, hsettled, hrun⟩ := receive_of_admissible bus delivery hmin hmax hadm'
  rw [hbytes] at hsettled
  refine ⟨bus.parse st.data, recovers_settled bus h hsettled, ?_⟩
  rw [hrun]
  exact deliver_caused ⟨hadm.overhead, hadm.maxLength, hadm.longCrc⟩ hadm.packetId hsettled

/-- The info that the rules of delivery look at, for a composed packet. -/
theorem recovers_infoOf {source : Payload} (bus : Bus b) (h : Sendable b info source) :
    Recovers info (written b info source) (infoOf bus (bytesOf b info source)) :=
  recovers_customPointer bus.customPointer
    (parseHeader_recovers (supports_measure source.length h.supports) h.faithful.width
      (fun hb => port_of_has_port b info source.length hb) (holds_metaData_bytesOf b info source))

/-- A composed packet carries the port of its info. -/
theorem portMatches_bytesOf {source : Payload} (bus : Bus b) (h : Sendable b info source)
    (hport : b.includePort → bus.port = noPort ∨ bus.port = info.port) :
    portMatches bus (bytesOf b info source) = true := by
  rw [portMatches_infoOf, port_of_recovers (recovers_infoOf bus h), carried]
  cases hb : b.includePort
  · rfl
  · rcases hport hb with hnone | hsame
    · simp [hnone]
    · rw [has_measure_port, if_pos hb, hsame]
      by_cases hset : info.port = noPort <;> simp [hset]

theorem recorded_bytesOf {source : Payload} {bus : Bus b} (h : Sendable b info source) :
    recorded bus (bytesOf b info source) =
      (has (written b info source) packetIdBit &&
        bus.recentPacketIds.toList.any
          (Bus.sameId (carried info (written b info source)))) := by
  rw [recorded_infoOf, header_bytesOf h, funext (sameId_of_recovers (recovers_infoOf bus h))]

/-! ## From one instance to another -/

theorem sameFormat_symm {b b' : Build} (h : SameFormat b b') : SameFormat b' b :=
  ⟨h.packetMaxLength.symm, h.includePacketId.symm, h.includePort.symm, h.includeMac.symm,
    h.pjonLocal.symm⟩

theorem measure_sameFormat {b b' : Build} (hformat : SameFormat b b') (info : PacketInfo)
    (length : Nat) : measure b info length = measure b' info length := by
  simp only [Tools.measure, startHeader, portHeader, hformat.includePort]

theorem metaData_sameFormat {b b' : Build} (hformat : SameFormat b b') (info : PacketInfo)
    (sizing : Sizing) : metaData b info sizing = metaData b' info sizing := by
  simp only [metaData, busFields, idField, portField, macFields, hformat.pjonLocal,
    hformat.includePacketId, hformat.includePort, hformat.includeMac]

theorem bytesOf_sameFormat {b b' : Build} (hformat : SameFormat b b') (info : PacketInfo)
    (source : Payload) : bytesOf b info source = bytesOf b' info source := by
  have hmeasure := measure_sameFormat hformat info source.length
  rw [bytesOf, bytesOf, packetBytes, packetBytes, hmeasure, metaData_sameFormat hformat]

theorem written_sameFormat {b b' : Build} (hformat : SameFormat b b') (info : PacketInfo)
    (source : Payload) : written b info source = written b' info source := by
  rw [written, written, measure_sameFormat hformat info source.length]

theorem supports_sameFormat {b b' : Build} (hformat : SameFormat b b') {header : UInt8}
    (h : b.Supports header) : b'.Supports header := by
  rwa [Build.Supports, hformat.includePacketId, hformat.includePort, hformat.includeMac,
    hformat.pjonLocal] at h

theorem sendable_sameFormat {b b' : Build} (hformat : SameFormat b b') {source : Payload}
    (h : Sendable b info source) : Sendable b' info source := by
  obtain ⟨hsup, ⟨hwrap, hwidth⟩, hfits, hcrc, hnonempty⟩ := h
  have hmeasure := measure_sameFormat hformat info source.length
  rw [written, hmeasure] at hcrc
  rw [hmeasure] at hwrap hwidth hfits
  rw [hformat.packetMaxLength] at hfits
  exact ⟨supports_sameFormat hformat hsup, ⟨hwrap, hwidth⟩, hfits, hcrc, hnonempty⟩

/-- Within 255 bytes nothing is raised to an extended length. -/
theorem sendable_of_short (info : PacketInfo) {source : Payload} (hmax : b.packetMaxLength ≤ 255)
    (hsup : b.Supports info.header) (hext : has info.header extLenBit = false)
    (hnonempty : 1 ≤ source.length)
    (hfits : source.length + packetOverhead (written b info source) < b.packetMaxLength) :
    Sendable b info source := by
  have hstart : has (startHeader b info source.length) extLenBit = false := by
    rw [has_startHeader_ext, hext, decide_eq_false (by omega)]
    rfl
  have hraised : has (written b info source) extLenBit =
      decide (255 < totalLength (forceCrc (startHeader b info source.length) source.length)
        source.length) := by
    rw [written, has_measure_ext, hstart, Bool.false_or]
  have hshort : has (written b info source) extLenBit = false := by
    by_contra hset
    rw [Bool.not_eq_false, hraised, decide_eq_true_eq] at hset
    have hheader : written b info source =
        forceCrc (startHeader b info source.length) source.length ||| extLenBit := by
      rw [written, measure_header, hstart, forceExtLen, if_pos (by simpa using hset)]
    have hover := packetOverhead_or_ext
      (forceCrc (startHeader b info source.length) source.length)
    rw [hheader, hover] at hfits
    have hle := Nat.mod_le (source.length +
      packetOverhead (forceCrc (startHeader b info source.length) source.length)) 65536
    unfold totalLength at hset
    omega
  have hwrap : source.length + packetOverhead (written b info source) < 65536 := by omega
  refine ⟨hsup, ⟨hwrap, ?_⟩, ?_, ?_, hnonempty⟩
  · rw [measure_extendedLength, hstart]
    exact hshort.symm
  · rw [measure_newLength, totalLength_of_lt hwrap]
    exact hfits
  · rw [hshort]
    exact fun hset => Bool.noConfusion hset

/-- What a successful `compose_packet` of an instance leaves at its destination. -/
theorem load_composePacket (sender : Bus b) (info : PacketInfo) (destination : Memory)
    {source : Payload} (h : Sendable b (sender.completeInfo info) source) :
    (destination.apply (sender.composePacket info destination source).writes).load 0
        (sender.composePacket info destination source).result =
      bytesOf b (sender.completeInfo info) source := by
  have hholds := holds_packetBytes destination source h.supports h.faithful h.fits
  have hlen := length_packetBytes source h.supports h.faithful
  have hcomposed : sender.composePacket info destination source =
      { result := (measure b (sender.completeInfo info) source.length).newLength
        bus := sender.advanceSeed info
        writes := (composePacket b (sender.completeInfo info) destination source).2 } := by
    rw [Bus.composePacket, composePacket_fst, if_pos h.fits]
  rw [hcomposed]
  simp only
  rw [← hlen]
  exact hholds

/-- Composing then receiving is the identity on the payload and on the carried part
of the info. -/
theorem receive_composePacket {b b' : Build} (hformat : SameFormat b b')
    (hmax : b.packetMaxLength ≤ 255) (sender : Bus b) (receiver : Bus b') (info : PacketInfo)
    (destination : Memory) (source : Payload) (delivery : Delivery)
    (hext : has (sender.effectiveHeader info) extLenBit = false)
    (hsup : b.Supports (sender.effectiveHeader info)) (hnonempty : 1 ≤ source.length)
    (hfits : source.length + packetOverhead (written b (sender.completeInfo info) source) <
      b.packetMaxLength)
    (hrouter : receiver.router = false)
    (haddr : Addressed receiver (sender.completeInfo info)
      (written b (sender.completeInfo info) source))
    (hport : b.includePort → receiver.port = noPort ∨
      receiver.port = (sender.completeInfo info).port)
    (hfresh : has (written b (sender.completeInfo info) source) packetIdBit →
      ∀ record ∈ receiver.recentPacketIds.toList, Bus.sameId
        (carried (sender.completeInfo info) (written b (sender.completeInfo info) source))
        record = false)
    (hbytes : delivery.bytes =
      (destination.apply (sender.composePacket info destination source).writes).load 0
        (sender.composePacket info destination source).result) :
    ∃ parsed,
      Recovers (sender.completeInfo info) (written b (sender.completeInfo info) source) parsed ∧
      (receiver.receive delivery).result = ack ∧
      (receiver.receive delivery).events =
        (if has (written b (sender.completeInfo info) source) ackReqBit && receiver.halfDuplex then
          [.sendResponse ack] else []) ++ [.receiver source.bytes parsed] := by
  have hsend := sendable_of_short (sender.completeInfo info) hmax hsup hext hnonempty hfits
  rw [load_composePacket sender info destination hsend] at hbytes
  have hsend' := sendable_sameFormat hformat hsend
  rw [bytesOf_sameFormat hformat] at hbytes
  rw [written_sameFormat hformat] at haddr hfresh ⊢
  obtain ⟨parsed, hrecovers, hcaused⟩ := receive_bytesOf receiver hsend' haddr
    (by rw [← hformat.packetMaxLength]; omega) hbytes
  have hnew : recorded receiver (bytesOf b' (sender.completeInfo info) source) = false := by
    rw [recorded_bytesOf hsend', Bool.and_eq_false_iff, or_iff_not_imp_left]
    intro hid
    rw [Bool.not_eq_false] at hid
    rw [List.any_eq_false]
    intro record hrecord
    rw [hfresh hid record hrecord]
    exact Bool.false_ne_true
  have hmatches := portMatches_bytesOf receiver hsend'
    (by rwa [hformat.includePort] at hport)
  refine ⟨parsed, hrecovers, ?_, ?_⟩
  · rw [hcaused.result, hnew, hmatches]
    simp
  · rw [hcaused.events, hnew, hmatches, payloadOf_bytesOf hsend', ackDue, hrouter,
      byte_zero_bytesOf hsend', header_bytesOf hsend', has_measure_ack]
    cases has (sender.completeInfo info).header ackReqBit <;>
      cases hall : (sender.completeInfo info).rx.id != broadcast <;> simp

/-- A program with packet ids and ports. -/
def featured : Build := { defaultBuild with includePacketId := true, includePort := true }

def device44 : Bus featured := { tx := { id := 44 }, port := 8001 }

def device45 : Bus featured := { tx := { id := 45 }, port := 8001 }

/-- A request from device 44 to device 45, with an id and the port of both. -/
def request : PacketInfo :=
  { header := txInfoBit ||| ackReqBit ||| packetIdBit ||| portBit, rx := { id := 45 } }

def greeting : Payload := ⟨[72, 101, 108, 108, 111], by decide⟩

theorem receive_composePacket_greeting :
    ∃ parsed,
      Recovers (device44.completeInfo request)
        (written featured (device44.completeInfo request) greeting) parsed ∧
      (device45.receive ⟨(Memory.apply (fun _ => 0)
          (device44.composePacket request (fun _ => 0) greeting).writes).load 0
        (device44.composePacket request (fun _ => 0) greeting).result, fun _ => 1⟩).result = ack ∧
      (device45.receive ⟨(Memory.apply (fun _ => 0)
          (device44.composePacket request (fun _ => 0) greeting).writes).load 0
        (device44.composePacket request (fun _ => 0) greeting).result, fun _ => 1⟩).events =
        (if has (written featured (device44.completeInfo request) greeting) ackReqBit &&
            device45.halfDuplex then [.sendResponse ack] else []) ++
          [.receiver [72, 101, 108, 108, 111] parsed] := by
  have haddr : Addressed device45 (device44.completeInfo request)
      (written featured (device44.completeInfo request) greeting) := by
    constructor <;> decide
  exact receive_composePacket ⟨rfl, rfl, rfl, rfl, rfl⟩ (by decide) device44 device45 request
    (fun _ => 0) greeting _ (by decide) (by decide) (by decide) (by decide) rfl haddr
    (fun _ => Or.inr (by decide)) (fun _ => by decide) rfl

end Pjon.Proofs.Interop
