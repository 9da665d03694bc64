import Pjon.Proofs.RoundTrip
import Pjon.Spec.Composed
/-!
# Where the composer's arithmetic holds

The total length is a 16-bit sum that is taken again each time the header grows,
and the width of the length field is settled before the header does.  For each of
the three promises of a composition this module says for which requests it holds.
-/

namespace Pjon.Proofs.Boundary

open Pjon.Lib Pjon.Model Pjon.Model.Tools Pjon.Spec Pjon.Proofs.Layout Pjon.Proofs.RoundTrip

variable {b : Build} {info : PacketInfo} {length : Nat}

/-! ## Overheads of the header as it grows -/

theorem packetOverhead_congr {header header' : UInt8}
    (hmode : has header modeBit = has header' modeBit)
    (htxInfo : has header txInfoBit = has header' txInfoBit)
    (hext : has header extLenBit = has header' extLenBit)
    (hcrc : has header crcBit = has header' crcBit)
    (hport : has header portBit = has header' portBit)
    (hid : has header packetIdBit = has header' packetIdBit)
    (hmac : has header macBit = has header' macBit) :
    packetOverhead header = packetOverhead header' := by
  simp only [packetOverhead, hmode, htxInfo, hext, hcrc, hport, hid, hmac]

theorem has_requested (b : Build) (info : PacketInfo) {bit : UInt8}
    (hport : has portBit bit = false) (hclear : ~~~portBit &&& bit = bit) :
    has (requested b info) bit = has info.header bit :=
  has_portHeader b info.port info.header bit hport hclear

/-- The header to start from differs from the requested one in nothing that costs
bytes but the extended length. -/
theorem packetOverhead_startHeader (b : Build) (info : PacketInfo) (length : Nat) :
    packetOverhead (startHeader b info length) = packetOverhead (requested b info) +
      if !has info.header extLenBit && decide (255 < length) then 1 else 0 := by
  have hraised : packetOverhead (startHeader b info length) =
      packetOverhead (if 255 < length then requested b info ||| extLenBit
        else requested b info) := by
    apply packetOverhead_congr
    case hport =>
      have hself : has extLenBit portBit = false := by decide
      rw [has_startHeader_port]
      split_ifs <;> simp_all [requested, has_or, has_portHeader_port]
    all_goals
      rw [has_startHeader b info _ length (by decide) (by decide) (by decide)]
      by_cases hlong : 255 < length
      · rw [if_pos hlong, has_or, has_requested b info (by decide) (by decide),
          decide_eq_true hlong, Bool.true_and]
      · rw [if_neg hlong, has_requested b info (by decide) (by decide),
          decide_eq_false hlong, Bool.false_and, Bool.or_false]
  rw [hraised]
  by_cases hlong : 255 < length
  · rw [if_pos hlong, packetOverhead_or_ext, has_requested b info (by decide) (by decide),
      decide_eq_true hlong, Bool.and_true]
    cases has info.header extLenBit <;> rfl
  · rw [if_neg hlong, decide_eq_false hlong, Bool.and_false]
    rfl

theorem packetOverhead_startHeader_crc (b : Build) (info : PacketInfo) (length : Nat) :
    packetOverhead (startHeader b info length ||| crcBit) =
      packetOverhead (startHeader b info length) + if has info.header crcBit then 0 else 3 := by
  rw [packetOverhead_or_crc, has_startHeader b info crcBit length (by decide) (by decide)
    (by decide), show has extLenBit crcBit = false by decide, Bool.and_false, Bool.or_false]

theorem packetOverhead_requested_crc (b : Build) (info : PacketInfo) :
    packetOverhead (requested b info ||| crcBit) =
      packetOverhead (requested b info) + if has info.header crcBit then 0 else 3 := by
  rw [packetOverhead_or_crc, has_requested b info (by decide) (by decide)]

theorem packetOverhead_requested_ext (b : Build) (info : PacketInfo) :
    packetOverhead (requested b info ||| extLenBit) =
      packetOverhead (requested b info) + if has info.header extLenBit then 0 else 1 := by
  rw [packetOverhead_or_ext, has_requested b info (by decide) (by decide)]

/-- The overhead when the header has grown as far as it can. -/
theorem packetOverhead_requested_full (b : Build) (info : PacketInfo) :
    packetOverhead (requested b info ||| extLenBit ||| crcBit) =
      packetOverhead (requested b info) + (if has info.header extLenBit then 0 else 1) +
        if has info.header crcBit then 0 else 3 := by
  rw [packetOverhead_or_crc, packetOverhead_requested_ext, has_or,
    has_requested b info (by decide) (by decide), show has extLenBit crcBit = false by decide,
    Bool.or_false]

theorem packetOverhead_forceExtLen_le (header : UInt8) (flag : Bool) (length : Nat) :
    packetOverhead (forceExtLen flag header length) ≤
      packetOverhead header + if has header extLenBit then 0 else 1 := by
  unfold forceExtLen
  split_ifs <;> simp_all [packetOverhead_or_ext]

theorem packetOverhead_forceCrc_le (b : Build) (info : PacketInfo) (length : Nat) :
    packetOverhead (forceCrc (startHeader b info length) length) ≤
      packetOverhead (startHeader b info length) + if has info.header crcBit then 0 else 3 := by
  rw [forceCrc_eq]
  by_cases htotal : 15 < totalLength (startHeader b info length) length
  · rw [if_pos htotal, packetOverhead_startHeader_crc]
  · rw [if_neg htotal]
    exact Nat.le_add_right _ _

theorem packetOverhead_measure_le (b : Build) (info : PacketInfo) (length : Nat) :
    packetOverhead (measure b info length).header ≤
      packetOverhead (requested b info ||| extLenBit ||| crcBit) := by
  have hgrown := packetOverhead_forceExtLen_le (forceCrc (startHeader b info length) length)
    (has (startHeader b info length) extLenBit) length
  have hcrc := packetOverhead_forceCrc_le b info length
  have hstart := packetOverhead_startHeader b info length
  rw [← measure_header, has_ext_forceCrc, has_startHeader_ext] at hgrown
  rw [packetOverhead_requested_full]
  cases hext : has info.header extLenBit <;> by_cases hlong : 255 < length <;>
    simp only [hext, hlong, decide_true, decide_false, Bool.or_true, Bool.or_false,
      Bool.false_eq_true, Bool.not_true, Bool.not_false, Bool.and_true, Bool.and_false,
      if_true, if_false] at hgrown hstart ⊢ <;>
    omega

/-! ## Requests that wrap the sum -/

theorem packetOverhead_startHeader_long (b : Build) (info : PacketInfo) (hlong : 255 < length) :
    packetOverhead (startHeader b info length) =
      packetOverhead (requested b info ||| extLenBit) := by
  rw [packetOverhead_startHeader, packetOverhead_requested_ext, decide_eq_true hlong,
    Bool.and_true]
  cases has info.header extLenBit <;> rfl

/-- The returned length when the sum wraps. -/
theorem newLength_of_long (b : Build) (info : PacketInfo) (hlong : 255 < length) :
    (measure b info length).newLength =
      if 15 < totalLength (requested b info ||| extLenBit) length then
        totalLength (requested b info ||| extLenBit ||| crcBit) length
      else totalLength (requested b info ||| extLenBit) length := by
  have hflag : has (startHeader b info length) extLenBit = true := by
    rw [has_startHeader_ext, decide_eq_true hlong, Bool.or_true]
  have hstart := packetOverhead_startHeader_long b info hlong
  have hfull : packetOverhead (startHeader b info length ||| crcBit) =
      packetOverhead (requested b info ||| extLenBit ||| crcBit) := by
    rw [packetOverhead_startHeader_crc, hstart, packetOverhead_requested_full,
      packetOverhead_requested_ext]
  rw [measure_newLength, measure_header, hflag, forceExtLen_true, forceCrc_eq]
  by_cases hcrc : 15 < totalLength (requested b info ||| extLenBit) length
  · have hstart' : 15 < totalLength (startHeader b info length) length := by
      rwa [totalLength, hstart]
    rw [if_pos hcrc, if_pos hstart', totalLength, totalLength, hfull]
  · have hstart' : ¬15 < totalLength (startHeader b info length) length := by
      rwa [totalLength, hstart]
    rw [if_neg hcrc, if_neg hstart', totalLength, totalLength, hstart]

/-- The sum of the lengths wraps exactly when it does for the fully grown header. -/
theorem noWrap_iff (b : Build) (info : PacketInfo) (length : Nat) (hlt : length < 65536) :
    length + packetOverhead (measure b info length).header < 65536 ↔
      length + packetOverhead (requested b info ||| extLenBit ||| crcBit) < 65536 := by
  constructor
  · intro hsum
    by_contra hwrap
    have hwrap' := Nat.le_of_not_lt hwrap
    have hle := packetOverhead_le (requested b info ||| extLenBit ||| crcBit)
    have hlong : 255 < length := by omega
    have hnew := newLength_of_long b info hlong
    have hge := packetOverhead_ge (measure b info length).header
    have hgrown : packetOverhead (requested b info ||| extLenBit ||| crcBit) ≤
        packetOverhead (requested b info ||| extLenBit) + 3 := by
      rw [packetOverhead_requested_full, packetOverhead_requested_ext]
      split_ifs <;> omega
    rw [measure_newLength, totalLength_of_lt hsum] at hnew
    unfold totalLength at hnew
    split_ifs at hnew <;> omega
  · intro hsum
    have hle := packetOverhead_measure_le b info length
    omega

/-! ## Writes stay inside the packet -/

theorem advanceSeed_customPointer (sender : Bus b) (request : PacketInfo) :
    (sender.advanceSeed request).customPointer = sender.customPointer := by
  unfold Bus.advanceSeed
  split_ifs <;> rfl

/-- What is too long is turned down on every sending path. -/
theorem rejects_of_le (sender : Bus b) (request : PacketInfo) (source : Payload)
    (h : b.packetMaxLength ≤ (measure b (sender.completeInfo request) source.length).newLength) :
    Rejects sender request source
      (measure b (sender.completeInfo request) source.length).newLength := by
  have hcompose (destination : Memory) :
      (sender.composePacket request destination source).result = 0 ∧
        (sender.composePacket request destination source).events = [.error contentTooLong
          (measure b (sender.completeInfo request) source.length).newLength
          sender.customPointer] := by
    simp only [Bus.composePacket, composePacket_fst]
    rw [if_neg (Nat.not_lt.mpr h)]
    exact ⟨rfl, by rw [advanceSeed_customPointer]⟩
  refine ⟨hcompose, ?_, ?_⟩
  · intro timing now packetIndex
    unfold Bus.dispatch
    cases sender.findSlot packetIndex with
    | none => rfl
    | some i =>
        simp only
        rw [if_pos (hcompose _).1]
  · intro medium
    simp only [Bus.sendPacket]
    rw [if_pos (hcompose _).1]

theorem refused_of_le (destination : Memory) (source : Payload)
    (h : b.packetMaxLength ≤ (measure b info source.length).newLength) :
    Refused b info destination source := by
  refine ⟨composePacket_of_le destination source h, ?_, ?_⟩
  · rwa [composePacket_fst]
  · intro sender request hinfo
    rw [← hinfo] at h
    have hrejects := rejects_of_le sender request source h
    rwa [composePacket_fst, ← hinfo]

theorem fits_of_lt (destination : Memory) (source : Payload)
    (hsum : source.length + packetOverhead (measure b info source.length).header < 65536)
    (h : (measure b info source.length).newLength < b.packetMaxLength) :
    Fits b info destination source := by
  have hnew : (measure b info source.length).newLength =
      source.length + packetOverhead (measure b info source.length).header :=
    totalLength_of_lt hsum
  have hmeta := length_metaData_le b info (measure b info source.length)
    has_ext_of_extendedLength
  have hsource : source.bytes.length = source.length := rfl
  refine ⟨by omega, by rw [composePacket_fst, hnew], ?_⟩
  intro w hw
  rw [composePacket_of_lt destination source h, List.mem_append] at hw
  rw [composePacket_fst, hnew]
  rcases hw with hbody | hcrc
  · have hrange := Writes.mem_copy hbody
    rw [List.length_append] at hrange
    omega
  · have hrange := Writes.mem_copy hcrc
    rw [length_endCrc] at hrange
    omega

/-- A wrapped sum below the maximum is reported as a success. -/
theorem not_contained_of_wrap (destination : Memory) (source : Payload)
    (hwrap : 65536 ≤ source.length + packetOverhead (measure b info source.length).header)
    (h : (measure b info source.length).newLength < b.packetMaxLength) :
    ¬Contained b info destination source := by
  rintro (hrefused | hfits)
  · have hlength := hrefused.length
    rw [composePacket_fst] at hlength
    omega
  · have hresult := hfits.result
    have hlt : (measure b info source.length).newLength < 65536 := totalLength_lt _ _
    rw [composePacket_fst] at hresult
    omega

/-- A composition is contained exactly when the fully grown packet does not wrap the
16-bit sum, or when the wrapped sum is still too long. -/
theorem composePacket_contained_iff (b : Build) (info : PacketInfo) (destination : Memory)
    (source : Payload) :
    Contained b info destination source ↔
      source.length + packetOverhead (requested b info ||| extLenBit ||| crcBit) < 65536 ∨
      b.packetMaxLength ≤
        if 15 < totalLength (requested b info ||| extLenBit) source.length then
          totalLength (requested b info ||| extLenBit ||| crcBit) source.length
        else totalLength (requested b info ||| extLenBit) source.length := by
  have hnoWrap := noWrap_iff b info source.length source.length_lt
  by_cases hsum :
      source.length + packetOverhead (requested b info ||| extLenBit ||| crcBit) < 65536
  · refine ⟨fun _ => Or.inl hsum, fun _ => ?_⟩
    by_cases hmax : b.packetMaxLength ≤ (measure b info source.length).newLength
    · exact Or.inl (refused_of_le destination source hmax)
    · exact Or.inr (fits_of_lt destination source (hnoWrap.mpr hsum) (Nat.lt_of_not_le hmax))
  · have hle := packetOverhead_le (requested b info ||| extLenBit ||| crcBit)
    have hlong : 255 < source.length := by omega
    rw [← newLength_of_long b info hlong]
    constructor
    · intro hcontained
      refine Or.inr (Nat.le_of_not_lt fun hlt => ?_)
      refine not_contained_of_wrap destination source ?_ hlt hcontained
      exact Nat.le_of_not_lt fun hfine => hsum (hnoWrap.mp hfine)
    · rintro (hfine | hmax)
      · exact absurd hfine hsum
      · exact Or.inl (refused_of_le destination source hmax)

/-- 65530 bytes: with 6 bytes of overhead the sum is 65536, and 0 is reported. -/
def wrappingPayload : Payload := ⟨List.replicate 65530 0, by rw [List.length_replicate]; decide⟩

theorem wrappingPayload_not_contained :
    ¬Contained {} { header := 0, rx := { id := 44 } } (fun _ => 0) wrappingPayload := by
  have hlength : wrappingPayload.length = 65530 := List.length_replicate
  apply not_contained_of_wrap
  · rw [hlength]
    decide
  · rw [hlength]
    decide

/-! ## The layout is the announced one -/

theorem extendedLength_iff (b : Build) (info : PacketInfo) (length : Nat) :
    (measure b info length).extendedLength = has (measure b info length).header extLenBit ↔
      (has info.header extLenBit ∨ 255 < length ∨
        length + packetOverhead (requested b info ||| crcBit) ≤ 255) := by
  rw [measure_extendedLength, has_measure_ext, has_startHeader_ext]
  by_cases hlong : 255 < length
  · simp [hlong]
  · cases hext : has info.header extLenBit
    · have hstart := packetOverhead_startHeader b info length
      have hcrc := packetOverhead_startHeader_crc b info length
      have hfull := packetOverhead_requested_crc b info
      have hle := packetOverhead_le (startHeader b info length ||| crcBit)
      rw [hext, decide_eq_false hlong, Bool.not_false, Bool.and_false,
        if_neg Bool.false_ne_true] at hstart
      have htotal : 255 < totalLength (forceCrc (startHeader b info length) length) length ↔
          255 < length + packetOverhead (requested b info ||| crcBit) := by
        have hsum : totalLength (startHeader b info length) length =
            length + packetOverhead (startHeader b info length) := totalLength_of_lt (by omega)
        rw [forceCrc_eq, hsum]
        by_cases hraise : 15 < length + packetOverhead (startHeader b info length)
        · rw [if_pos hraise, totalLength_of_lt (by omega)]
          omega
        · rw [if_neg hraise, hsum]
          split_ifs at hcrc hfull <;> omega
      simp only [hlong, decide_false, Bool.false_or, false_or, Bool.false_eq_true]
      rw [eq_comm, decide_eq_false_iff_not, htotal, Nat.not_lt]
    · simp

theorem laidOut_of_faithful (destination : Memory) (source : Payload)
    (hsup : b.Supports info.header) (hfaithful : Faithful b info source.length)
    (hfits : (measure b info source.length).newLength < b.packetMaxLength) :
    LaidOut b info source (composePacket b info destination source).1
      (destination.apply (composePacket b info destination source).2) := by
  have hholds := holds_packetBytes destination source hsup hfaithful hfits
  have hnew : (measure b info source.length).newLength =
      source.length + packetOverhead (measure b info source.length).header :=
    totalLength_of_lt hfaithful.noWrap
  have hbody := length_body source hsup hfaithful
  have hsource : source.bytes.length = source.length := rfl
  have hbody' := hbody
  rw [packetBytes, Memory.holds_append, Nat.zero_add] at hholds
  obtain ⟨hbodyHeld, hcrc⟩ := hholds
  have hload := hbodyHeld
  rw [Memory.holds_append, Nat.zero_add] at hbodyHeld
  obtain ⟨hmeta, hpayload⟩ := hbodyHeld
  have hfront := ((holds_metaData hfaithful.width fun hb =>
    port_of_has_port b info source.length hb).mp hmeta).1
  have hheader := (read_front hfront).2
  rw [List.length_append, hnew, hsource] at hbody'
  have hstart : (metaData b info (measure b info source.length)).length =
      packetOverhead (measure b info source.length).header -
        crcOverhead (measure b info source.length).header := by
    omega
  have hend : (metaData b info (measure b info source.length) ++ source.bytes).length =
      packetOverhead (measure b info source.length).header -
        crcOverhead (measure b info source.length).header + source.length := by
    rw [List.length_append, hstart, hsource]
  constructor
  · exact hheader
  · have hfield := hfront
    simp only [frontFields, List.cons_append, List.nil_append, Memory.holds_cons,
      Memory.holds_append] at hfield
    exact hfield.2.2.1
  · rw [hheader, ← hfaithful.width, lengthField]
    cases (measure b info source.length).extendedLength <;> simp
  · rw [hheader, ← hnew]
    exact read_length hfaithful.width (totalLength_lt _ _)
      (newLength_lt_of_short hfaithful.width) hfront
  · rw [hheader, composePacket_fst, hnew]
  · rw [hheader]
    exact read_frontCrc hfaithful.width hfront
  · rwa [hheader, ← hstart]
  · rw [Memory.Holds, hend] at hload
    rw [hheader, hload, ← hend]
    exact hcrc

theorem width_of_laidOut {source : Payload} {returned : Nat} {packet : Memory}
    (h : LaidOut b info source returned packet) :
    (measure b info source.length).extendedLength =
      has (measure b info source.length).header extLenBit := by
  have hwidth := h.width
  rw [h.header] at hwidth
  rw [Bool.eq_iff_iff, hwidth, lengthField]
  cases (measure b info source.length).extendedLength <;> simp

/-- The layout of an accepted packet is the announced one exactly when the request
crosses neither the 8-bit nor the 16-bit boundary behind the composer's back. -/
theorem composePacket_laidOut_iff (b : Build) (info : PacketInfo) (destination : Memory)
    (source : Payload) (hsup : b.Supports info.header)
    (haccepted : (composePacket b info destination source).1 < b.packetMaxLength) :
    LaidOut b info source (composePacket b info destination source).1
        (destination.apply (composePacket b info destination source).2) ↔
      (has info.header extLenBit ∨ 255 < source.length ∨
        source.length + packetOverhead (requested b info ||| crcBit) ≤ 255) ∧
      source.length + packetOverhead (requested b info ||| extLenBit ||| crcBit) < 65536 := by
  rw [← extendedLength_iff, ← noWrap_iff b info source.length source.length_lt]
  constructor
  · intro hlaid
    constructor
    · exact width_of_laidOut hlaid
    · have hreturned := hlaid.returned
      have hlt : (measure b info source.length).newLength < 65536 := totalLength_lt _ _
      rw [hlaid.header, composePacket_fst] at hreturned
      omega
  · rintro ⟨hwidth, hsum⟩
    rw [composePacket_fst] at haccepted
    exact laidOut_of_faithful destination source hsup ⟨hsum, hwidth⟩ haccepted

theorem composePacket_laidOut_iff_byte :
    LaidOut {} { header := 0, rx := { id := 44 } } ⟨[65], by decide⟩
        (composePacket {} { header := 0, rx := { id := 44 } } (fun _ => 0) ⟨[65], by decide⟩).1
        (Memory.apply (fun _ => 0)
          (composePacket {} { header := 0, rx := { id := 44 } } (fun _ => 0)
            ⟨[65], by decide⟩).2) ↔
      (has 0 extLenBit ∨ 255 < 1 ∨
        1 + packetOverhead (requested {} { header := 0, rx := { id := 44 } } ||| crcBit) ≤ 255) ∧
      1 + packetOverhead
        (requested {} { header := 0, rx := { id := 44 } } ||| extLenBit ||| crcBit) < 65536 :=
  composePacket_laidOut_iff {} { header := 0, rx := { id := 44 } } (fun _ => 0)
    ⟨[65], by decide⟩ (by decide) (by decide)

/-- 250 bytes: the CRC32 takes the packet over 255 bytes after the width of the length
field has been settled. -/
def crossingPayload : Payload := ⟨List.replicate 250 0, by rw [List.length_replicate]; decide⟩

theorem crossingPayload_not_laidOut :
    (composePacket { packetMaxLength := 300 } { header := 0, rx := { id := 44 } } (fun _ => 0)
        crossingPayload).1 < 300 ∧
    ¬LaidOut { packetMaxLength := 300 } { header := 0, rx := { id := 44 } } crossingPayload
      (composePacket { packetMaxLength := 300 } { header := 0, rx := { id := 44 } } (fun _ => 0)
        crossingPayload).1
      (Memory.apply (fun _ => 0) (composePacket { packetMaxLength := 300 }
        { header := 0, rx := { id := 44 } } (fun _ => 0) crossingPayload).2) := by
  have hlength : crossingPayload.length = 250 := List.length_replicate
  constructor
  · rw [composePacket_fst, hlength]
    decide
  · intro hlaid
    have hwidth := width_of_laidOut hlaid
    rw [hlength] at hwidth
    revert hwidth
    decide

/-! ## The header is an acceptable one -/

/-- The composer starts with the recipient and the header it has settled. -/
theorem composePacket_starts (destination : Memory) (source : Payload)
    (h : (measure b info source.length).newLength < b.packetMaxLength) :
    ∃ rest, (composePacket b info destination source).2 =
      (0, info.rx.id) :: (1, (measure b info source.length).header) :: rest := by
  rw [composePacket_of_lt destination source h]
  simp only [metaData, frontFields, List.cons_append, List.nil_append, List.append_assoc,
    Writes.copy]
  exact ⟨_, rfl⟩

/-- The first two stores are a recipient and a header that no receiver turns down by
rule. -/
def EmitsAcceptable (composed : Nat × Writes) : Prop :=
  ∃ recipient header rest, composed.2 = (0, recipient) :: (1, header) :: rest ∧
    Acceptable recipient header composed.1

theorem emitsAcceptable_iff_measure (destination : Memory) (source : Payload)
    (h : (measure b info source.length).newLength < b.packetMaxLength) :
    EmitsAcceptable (composePacket b info destination source) ↔
      Acceptable info.rx.id (measure b info source.length).header
        (measure b info source.length).newLength := by
  obtain ⟨rest, hstarts⟩ := composePacket_starts destination source h
  constructor
  · rintro ⟨recipient, header, rest', hstarts', hacceptable⟩
    rw [hstarts, List.cons.injEq, List.cons.injEq, Prod.mk.injEq, Prod.mk.injEq] at hstarts'
    obtain ⟨⟨-, rfl⟩, ⟨-, rfl⟩, -⟩ := hstarts'
    rwa [composePacket_fst] at hacceptable
  · intro hacceptable
    refine ⟨_, _, rest, hstarts, ?_⟩
    rwa [composePacket_fst]

theorem has_measure_crc (b : Build) (info : PacketInfo) (length : Nat) :
    has (measure b info length).header crcBit = (has info.header crcBit ||
      decide (15 < totalLength (startHeader b info length) length)) := by
  rw [measure_header, has_forceExtLen _ _ _ _ (by decide), has_forceCrc_crc,
    has_startHeader b info crcBit length (by decide) (by decide) (by decide),
    show has extLenBit crcBit = false by decide, Bool.and_false, Bool.or_false]

/-- Without the CRC bit the header is as it was before raising. -/
theorem has_measure_ext_of_no_crc
    (h : has (measure b info length).header crcBit = false) :
    has (measure b info length).header extLenBit =
      (has info.header extLenBit || decide (255 < length)) := by
  rw [has_measure_crc, Bool.or_eq_false_iff, decide_eq_false_iff_not] at h
  have hcrc : forceCrc (startHeader b info length) length = startHeader b info length := by
    rw [forceCrc_eq, if_neg h.2]
  rw [has_measure_ext, hcrc, decide_eq_false (by omega), Bool.or_false, has_startHeader_ext]

/-- A packet with MAC addresses and without a CRC32 has wrapped. -/
theorem long_of_mac_of_no_crc (hlt : length < 65536)
    (hmac : has (measure b info length).header macBit = true)
    (hcrc : has (measure b info length).header crcBit = false) : 255 < length := by
  have hshort : ¬15 < (measure b info length).newLength := by
    intro hlong
    rw [crc_of_long b info length hlong] at hcrc
    exact Bool.noConfusion hcrc
  have hover : 17 ≤ packetOverhead (measure b info length).header := by
    simp only [packetOverhead, hmac, if_true]
    split_ifs <;> omega
  have hle := packetOverhead_le (measure b info length).header
  rw [measure_newLength, totalLength] at hshort
  omega

/-- A packet that starts from an extended length is measured with it. -/
theorem totalLength_startHeader_ext (b : Build) {info : PacketInfo} {length : Nat}
    (h : has info.header extLenBit = true ∨ 255 < length) :
    totalLength (startHeader b info length) length =
      totalLength (requested b info ||| extLenBit) length := by
  rw [totalLength, totalLength, packetOverhead_startHeader, packetOverhead_requested_ext]
  rcases h with hext | hlong
  · rw [hext]
    rfl
  · rw [decide_eq_true hlong, Bool.and_true]
    cases has info.header extLenBit <;> rfl

/-- The settled header has no extended length without a CRC32 but where the total length
asks for none. -/
theorem extLenCrc_iff (b : Build) (info : PacketInfo) (length : Nat) :
    (has (measure b info length).header extLenBit →
        has (measure b info length).header crcBit) ↔
      has info.header crcBit ∨ (has info.header extLenBit = false ∧ length ≤ 255) ∨
        15 < totalLength (requested b info ||| extLenBit) length := by
  have hcrc := has_measure_crc b info length
  constructor
  · intro h
    by_cases hset : has (measure b info length).header crcBit = true
    · rw [hcrc, Bool.or_eq_true, decide_eq_true_eq] at hset
      rcases hset with hasked | hlong
      · exact Or.inl hasked
      · by_cases hext : has info.header extLenBit = true ∨ 255 < length
        · rw [totalLength_startHeader_ext b hext] at hlong
          exact Or.inr (Or.inr hlong)
        · simp only [not_or, Bool.not_eq_true, Nat.not_lt] at hext
          exact Or.inr (Or.inl hext)
    · have hclear := mt h hset
      rw [Bool.not_eq_true] at hset hclear
      rw [has_measure_ext_of_no_crc hset, Bool.or_eq_false_iff, decide_eq_false_iff_not,
        Nat.not_lt] at hclear
      exact Or.inr (Or.inl hclear)
  · intro h hext
    by_contra hset
    rw [Bool.not_eq_true] at hset
    rw [has_measure_ext_of_no_crc hset, Bool.or_eq_true, decide_eq_true_eq] at hext
    rw [hcrc, Bool.or_eq_false_iff, decide_eq_false_iff_not,
      totalLength_startHeader_ext b hext] at hset
    rcases h with hasked | ⟨hclear, hshort⟩ | hlong
    · rw [hset.1] at hasked
      exact Bool.noConfusion hasked
    · rw [hclear] at hext
      exact absurd hext (by simpa using hshort)
    · exact hset.2 hlong

/-- The rules hold of the settled header exactly when an extended length comes with a
CRC32, which the total length alone does not ensure. -/
theorem acceptable_iff (b : Build) (info : PacketInfo) (length : Nat) (hlt : length < 65536) :
    Acceptable info.rx.id (measure b info length).header (measure b info length).newLength ↔
      has info.header crcBit ∨ (has info.header extLenBit = false ∧ length ≤ 255) ∨
        15 < totalLength (requested b info ||| extLenBit) length := by
  rw [← extLenCrc_iff]
  constructor
  · intro h
    exact h.extLenCrc
  · intro hextCrc
    refine ⟨hextCrc, ?_, crc_of_long b info length, ?_⟩
    · intro hmac
      by_contra hset
      rw [Bool.not_eq_true] at hset
      have hlong := long_of_mac_of_no_crc hlt hmac hset
      have hext := has_measure_ext_of_no_crc hset
      rw [decide_eq_true hlong, Bool.or_true] at hext
      rw [hextCrc hext] at hset
      exact Bool.noConfusion hset
    · intro hall
      rw [has_measure_ack, hall]
      simp

/-- An accepted packet goes out with an acceptable header exactly when no extended
length is asked for without a CRC32 that its total length does not force. -/
theorem composePacket_acceptable_iff (b : Build) (info : PacketInfo) (destination : Memory)
    (source : Payload)
    (haccepted : (composePacket b info destination source).1 < b.packetMaxLength) :
    EmitsAcceptable (composePacket b info destination source) ↔
      has info.header crcBit ∨ (has info.header extLenBit = false ∧ source.length ≤ 255) ∨
        15 < totalLength (requested b info ||| extLenBit) source.length := by
  rw [composePacket_fst] at haccepted
  rw [emitsAcceptable_iff_measure destination source haccepted]
  exact acceptable_iff b info source.length source.length_lt

theorem composePacket_acceptable_iff_byte :
    EmitsAcceptable (composePacket {} { header := 0, rx := { id := 44 } } (fun _ => 0)
        ⟨[65], by decide⟩) ↔
      has 0 crcBit ∨ (has 0 extLenBit = false ∧ 1 ≤ 255) ∨
        15 < totalLength (requested {} { header := 0, rx := { id := 44 } } ||| extLenBit) 1 :=
  composePacket_acceptable_iff {} { header := 0, rx := { id := 44 } } (fun _ => 0)
    ⟨[65], by decide⟩ (by decide)

/-- One byte sent with a requested extended length: 7 bytes, and a CRC8 at their end. -/
theorem extLen_without_crc_emitted :
    (composePacket {} { header := extLenBit, rx := { id := 44 } } (fun _ => 0)
        ⟨[65], by decide⟩).1 < 50 ∧
    ¬EmitsAcceptable (composePacket {} { header := extLenBit, rx := { id := 44 } } (fun _ => 0)
      ⟨[65], by decide⟩) := by
  constructor
  · rw [composePacket_fst]
    decide
  · rw [emitsAcceptable_iff_measure _ _ (by decide)]
    intro hacceptable
    exact absurd (hacceptable.extLenCrc (by decide)) (by decide)

end Pjon.Proofs.Boundary
