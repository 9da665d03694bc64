import Pjon.Model.Bus
/-!
# The bytes a composed packet consists of

What the composer has settled before it writes (`measure`), and the bytes it then
leaves at the destination.  The layout theorem needs two things of the
measurement: that the 16-bit sum did not wrap, and that the flag that selects the
width of the length field agrees with the header that is written.
-/

namespace Pjon.Proofs.Layout

open Pjon.Lib Pjon.Model Pjon.Model.Tools

variable {b : Build} {info : PacketInfo} {length : Nat}

/-! ## What measuring settles -/

theorem or_crcBit_of_has {header : UInt8} (h : has header crcBit = true) :
    header ||| crcBit = header := by
  have hall : ∀ x : BitVec 8, x &&& 32 ≠ 0 → x ||| 32 = x := by decide
  have hne : header &&& crcBit ≠ 0 := by simpa [has] using h
  apply UInt8.toBitVec_inj.mp
  exact hall header.toBitVec fun hzero => hne (UInt8.toBitVec_inj.mp hzero)

theorem forceCrc_eq (header : UInt8) (length : Nat) :
    forceCrc header length =
      if 15 < totalLength header length then header ||| crcBit else header := by
  unfold forceCrc
  cases h : has header crcBit
  · simp
  · simp [or_crcBit_of_has h]

@[simp] theorem forceExtLen_true (header : UInt8) (length : Nat) :
    forceExtLen true header length = header := by
  simp [forceExtLen]

theorem has_ext_forceCrc (header : UInt8) (length : Nat) :
    has (forceCrc header length) extLenBit = has header extLenBit :=
  has_forceCrc header extLenBit length (by decide)

@[simp] theorem measure_newLength (b : Build) (info : PacketInfo) (length : Nat) :
    (measure b info length).newLength = totalLength (measure b info length).header length := rfl

@[simp] theorem measure_extendedLength (b : Build) (info : PacketInfo) (length : Nat) :
    (measure b info length).extendedLength = has (startHeader b info length) extLenBit := rfl

theorem measure_header (b : Build) (info : PacketInfo) (length : Nat) :
    (measure b info length).header =
      forceExtLen (has (startHeader b info length) extLenBit)
        (forceCrc (startHeader b info length) length) length := rfl

theorem has_startHeader_ext (b : Build) (info : PacketInfo) (length : Nat) :
    has (startHeader b info length) extLenBit =
      (has info.header extLenBit || decide (255 < length)) := by
  rw [has_startHeader b info extLenBit length (by decide) (by decide) (by decide),
    show has extLenBit extLenBit = true by decide, Bool.and_true]

theorem has_measure_ext (b : Build) (info : PacketInfo) (length : Nat) :
    has (measure b info length).header extLenBit =
      (has (startHeader b info length) extLenBit ||
        decide (255 < totalLength (forceCrc (startHeader b info length) length) length)) := by
  have h := has_forceExtLen_ext (forceCrc (startHeader b info length) length) length
  rw [has_ext_forceCrc] at h
  rw [measure_header, h]

/-- A flag that is set is never stale. -/
theorem has_ext_of_extendedLength (h : (measure b info length).extendedLength = true) :
    has (measure b info length).header extLenBit = true := by
  rw [has_measure_ext]
  simp only [measure_extendedLength] at h
  simp [h]

theorem totalLength_lt (header : UInt8) (length : Nat) : totalLength header length < 65536 :=
  Nat.mod_lt _ (by decide)

theorem totalLength_of_lt {header : UInt8} (h : length + packetOverhead header < 65536) :
    totalLength header length = length + packetOverhead header :=
  Nat.mod_eq_of_lt h

/-- A composed packet of more than 15 bytes carries a CRC32. -/
theorem crc_of_long (b : Build) (info : PacketInfo) (length : Nat)
    (hlong : 15 < totalLength (measure b info length).header length) :
    has (measure b info length).header crcBit = true := by
  rw [measure_header, has_forceExtLen _ _ _ _ (by decide), has_forceCrc_crc]
  by_cases hstart : 15 < totalLength (startHeader b info length) length
  · simp [hstart]
  · exfalso
    have hcrc : forceCrc (startHeader b info length) length = startHeader b info length := by
      simp [forceCrc, hstart]
    have hext : forceExtLen (has (startHeader b info length) extLenBit)
        (startHeader b info length) length = startHeader b info length := by
      simp only [forceExtLen]
      rw [if_neg]
      intro h
      simp only [Bool.and_eq_true, decide_eq_true_eq] at h
      omega
    rw [measure_header, hcrc, hext] at hlong
    exact hstart hlong

/-- A length byte is wide enough for a packet that is not an extended one. -/
theorem newLength_lt_of_short
    (hwidth : (measure b info length).extendedLength = has (measure b info length).header extLenBit)
    (hshort : has (measure b info length).header extLenBit = false) :
    (measure b info length).newLength < 256 := by
  have hmeasure := has_measure_ext b info length
  have hstart : has (startHeader b info length) extLenBit = false := by
    rw [← measure_extendedLength, hwidth, hshort]
  rw [hshort, hstart, Bool.false_or, eq_comm, decide_eq_false_iff_not] at hmeasure
  have hraised : forceExtLen (has (startHeader b info length) extLenBit)
      (forceCrc (startHeader b info length) length) length =
      forceCrc (startHeader b info length) length := by
    unfold forceExtLen
    rw [if_neg]
    intro hlong
    simp only [Bool.and_eq_true, decide_eq_true_eq] at hlong
    omega
  rw [measure_newLength, measure_header, hraised]
  omega

/-- The header bits that only the caller decides. -/
theorem has_measure_same (b : Build) (info : PacketInfo) (length : Nat) {bit : UInt8}
    (hext : has extLenBit bit = false) (hcrc : has crcBit bit = false)
    (hport : has portBit bit = false) (hclear : ~~~portBit &&& bit = bit)
    (hack : ~~~ackReqBit &&& bit = bit) :
    has (measure b info length).header bit = has info.header bit := by
  rw [has_measure b info bit length hext hcrc, has_startHeader b info bit length hport hclear hack,
    hext, Bool.and_false, Bool.or_false]

theorem has_measure_mode (b : Build) (info : PacketInfo) (length : Nat) :
    has (measure b info length).header modeBit = has info.header modeBit :=
  has_measure_same b info length (by decide) (by decide) (by decide) (by decide) (by decide)

theorem has_measure_txInfo (b : Build) (info : PacketInfo) (length : Nat) :
    has (measure b info length).header txInfoBit = has info.header txInfoBit :=
  has_measure_same b info length (by decide) (by decide) (by decide) (by decide) (by decide)

theorem has_measure_mac (b : Build) (info : PacketInfo) (length : Nat) :
    has (measure b info length).header macBit = has info.header macBit :=
  has_measure_same b info length (by decide) (by decide) (by decide) (by decide) (by decide)

theorem has_measure_packetId (b : Build) (info : PacketInfo) (length : Nat) :
    has (measure b info length).header packetIdBit = has info.header packetIdBit :=
  has_measure_same b info length (by decide) (by decide) (by decide) (by decide) (by decide)

theorem has_measure_port (b : Build) (info : PacketInfo) (length : Nat) :
    has (measure b info length).header portBit =
      if b.includePort then info.port != noPort else has info.header portBit := by
  rw [has_measure b info portBit length (by decide) (by decide), has_startHeader_port]

theorem has_measure_ack (b : Build) (info : PacketInfo) (length : Nat) :
    has (measure b info length).header ackReqBit =
      (has info.header ackReqBit && info.rx.id != broadcast) := by
  rw [has_measure b info ackReqBit length (by decide) (by decide), has_startHeader_ack]

/-- The written header asks for what the requested one did, but for a port that is not
there. -/
theorem supports_measure_iff (b : Build) (info : PacketInfo) (length : Nat) :
    b.Supports (measure b info length).header ↔ b.Supports info.header := by
  have hport : (has (measure b info length).header portBit → b.includePort) ↔
      (has info.header portBit → b.includePort) := by
    rw [has_measure_port]
    cases b.includePort <;> simp
  unfold Build.Supports
  rw [has_measure_packetId, has_measure_mac, has_measure_mode, hport]

theorem supports_measure (length : Nat) (h : b.Supports info.header) :
    b.Supports (measure b info length).header :=
  (supports_measure_iff b info length).mpr h

/-- The port is left out of the packet only when the header says so. -/
theorem port_of_has_port (b : Build) (info : PacketInfo) (length : Nat) (hb : b.includePort)
    (h : has (measure b info length).header portBit) : info.port ≠ noPort := by
  rw [has_measure_port, if_pos hb] at h
  simpa using h

/-! ## The length of the meta-data -/

/-- A field that a build may leave out takes no more than the header announces, and as much
only if the build does not leave it out. -/
theorem field_iff {n : Nat} (hn : 0 < n) (built announced : Bool) :
    (if built && announced then n else 0) ≤ (if announced then n else 0) ∧
      ((if built && announced then n else 0) = (if announced then n else 0) ↔
        (announced = true → built = true)) := by
  cases built <;> cases announced <;> simp [Nat.ne_of_lt hn]

theorem width_iff {flag bit : Bool} (h : flag = true → bit = true) :
    flag.toNat ≤ bit.toNat ∧ (flag.toNat = bit.toNat ↔ flag = bit) := by
  cases flag <;> cases bit <;> simp_all

theorem length_metaData_sum (b : Build) (info : PacketInfo) (sizing : Sizing) :
    (metaData b info sizing).length = 4 + sizing.extendedLength.toNat +
      (if !b.pjonLocal && has sizing.header modeBit then
        (if has sizing.header txInfoBit then 9 else 5) else 0) +
      (has sizing.header txInfoBit).toNat +
      (if b.includePacketId && has sizing.header packetIdBit then 2 else 0) +
      (if (b.includePort && info.port != noPort) && has sizing.header portBit then 2 else 0) +
      (if b.includeMac && has sizing.header macBit then 12 else 0) := by
  have hfront : (frontFields info sizing).length = 4 + sizing.extendedLength.toNat := by
    cases h : sizing.extendedLength <;> simp [frontFields, lengthField, h]
  have hbus : (busFields b info sizing.header).length =
      if !b.pjonLocal && has sizing.header modeBit then
        (if has sizing.header txInfoBit then 9 else 5) else 0 := by
    unfold busFields
    split_ifs <;> simp
  have htx : (txField info sizing.header).length = (has sizing.header txInfoBit).toNat := by
    unfold txField
    split_ifs with h <;> simp [h]
  have hid : (idField b info sizing.header).length =
      if b.includePacketId && has sizing.header packetIdBit then 2 else 0 := by
    unfold idField
    split_ifs <;> rfl
  have hport : (portField b info sizing.header).length =
      if (b.includePort && info.port != noPort) && has sizing.header portBit then 2 else 0 := by
    unfold portField
    rw [Bool.and_right_comm]
    split_ifs <;> rfl
  have hmac : (macFields b info sizing.header).length =
      if b.includeMac && has sizing.header macBit then 12 else 0 := by
    unfold macFields
    split_ifs <;> simp
  simp only [metaData, List.length_append, hfront, hbus, htx, hid, hport, hmac]
  omega

theorem packetOverhead_sum (header : UInt8) :
    packetOverhead header = 4 + (has header extLenBit).toNat +
      (if has header modeBit then (if has header txInfoBit then 9 else 5) else 0) +
      (has header txInfoBit).toNat + (if has header packetIdBit then 2 else 0) +
      (if has header portBit then 2 else 0) + (if has header macBit then 12 else 0) +
      crcOverhead header := by
  unfold packetOverhead crcOverhead
  cases has header modeBit <;> cases has header txInfoBit <;> cases has header extLenBit <;>
    simp only [Bool.false_eq_true, if_true, if_false, Bool.toNat_true, Bool.toNat_false] <;>
    omega

/-- Field by field: never more than the overhead tables allow for, and as much if every field
that the header announces is written. -/
theorem length_metaData_fields (b : Build) (info : PacketInfo) (sizing : Sizing)
    (hext : sizing.extendedLength = true → has sizing.header extLenBit = true) :
    (metaData b info sizing).length + crcOverhead sizing.header ≤ packetOverhead sizing.header ∧
      ((metaData b info sizing).length + crcOverhead sizing.header =
          packetOverhead sizing.header ↔
        sizing.extendedLength = has sizing.header extLenBit ∧
          (has sizing.header packetIdBit = true → b.includePacketId = true) ∧
          (has sizing.header portBit = true → (b.includePort && info.port != noPort) = true) ∧
          (has sizing.header macBit = true → b.includeMac = true) ∧
          (has sizing.header modeBit = true → (!b.pjonLocal) = true)) := by
  have hwidth := width_iff hext
  have hbus := field_iff (n := if has sizing.header txInfoBit then 9 else 5)
    (by split_ifs <;> decide) (!b.pjonLocal) (has sizing.header modeBit)
  have hid := field_iff (by decide : 0 < 2) b.includePacketId (has sizing.header packetIdBit)
  have hport := field_iff (by decide : 0 < 2) (b.includePort && info.port != noPort)
    (has sizing.header portBit)
  have hmac := field_iff (by decide : 0 < 12) b.includeMac (has sizing.header macBit)
  rw [length_metaData_sum, packetOverhead_sum, ← hwidth.2, ← hid.2, ← hport.2, ← hmac.2, ← hbus.2]
  omega

/-- Never more than the overhead tables allow for. -/
theorem length_metaData_le (b : Build) (info : PacketInfo) (sizing : Sizing)
    (hext : sizing.extendedLength = true → has sizing.header extLenBit = true) :
    (metaData b info sizing).length + crcOverhead sizing.header ≤
      packetOverhead sizing.header :=
  (length_metaData_fields b info sizing hext).1

/-- Exactly that much if the length field is as wide as the header says and every requested
feature is compiled in, and only then. -/
theorem length_metaData_iff (b : Build) (info : PacketInfo) {sizing : Sizing}
    (hext : sizing.extendedLength = true → has sizing.header extLenBit = true)
    (hport : b.includePort → has sizing.header portBit → info.port ≠ noPort) :
    (metaData b info sizing).length + crcOverhead sizing.header = packetOverhead sizing.header ↔
      sizing.extendedLength = has sizing.header extLenBit ∧ b.Supports sizing.header := by
  have hset : (has sizing.header portBit = true →
        (b.includePort && info.port != noPort) = true) ↔
      (has sizing.header portBit → b.includePort) := by
    apply forall_congr'
    intro hbit
    rw [Bool.and_eq_true, bne_iff_ne]
    exact and_iff_left_of_imp fun hbuilt => hport hbuilt hbit
  rw [(length_metaData_fields b info sizing hext).2, hset, Bool.not_eq_true']
  rfl

theorem length_metaData (b : Build) (info : PacketInfo) {sizing : Sizing}
    (hsup : b.Supports sizing.header)
    (hext : sizing.extendedLength = has sizing.header extLenBit)
    (hport : b.includePort → has sizing.header portBit → info.port ≠ noPort) :
    (metaData b info sizing).length + crcOverhead sizing.header =
      packetOverhead sizing.header :=
  (length_metaData_iff b info (fun h => hext ▸ h) hport).mpr ⟨hext, hsup⟩

/-! ## The composed bytes -/

/-- The end CRC of a packet whose other bytes are `body`. -/
def closingCrc (header : UInt8) (body : List UInt8) : List UInt8 :=
  if has header crcBit then Crc32.bytes (Crc32.compute body) else [Crc8.compute body]

/-- A packet: meta-data, payload, end CRC over both. -/
def packetBytes (b : Build) (info : PacketInfo) (sizing : Sizing) (payload : List UInt8) :
    List UInt8 :=
  metaData b info sizing ++ payload ++ closingCrc sizing.header (metaData b info sizing ++ payload)

@[simp] theorem length_closingCrc (header : UInt8) (body : List UInt8) :
    (closingCrc header body).length = crcOverhead header := by
  unfold closingCrc crcOverhead
  split_ifs <;> rfl

@[simp] theorem length_endCrc (header : UInt8) (newLength : Nat) (destination : Memory) :
    (endCrc header newLength destination).length = crcOverhead header := by
  unfold endCrc crcOverhead
  split_ifs <;> rfl

/-- The checksum reads back exactly the body that was written before it. -/
theorem endCrc_eq {header : UInt8} {newLength : Nat} {body : List UInt8} (destination : Memory)
    (hbody : body.length + crcOverhead header = newLength) (hlt : newLength < 65536) :
    endCrc header newLength (destination.apply (Writes.copy 0 body)) = closingCrc header body := by
  have hwritten : (destination.apply (Writes.copy 0 body)).load 0 body.length = body := by
    have hcopy := Memory.apply_copy destination 0 body
    rw [Nat.cast_zero] at hcopy
    rw [hcopy]
    exact Memory.load_store destination 0 body
  unfold endCrc closingCrc checksumLength
  unfold crcOverhead at hbody
  split_ifs at hbody ⊢ with h
  · rw [show (newLength + 65536 - 4) % 65536 = body.length by omega, hwritten]
  · rw [show (newLength + 65536 - 1) % 65536 = body.length by omega, hwritten]

theorem holds_body {header : UInt8} {newLength : Nat} {body : List UInt8} (destination : Memory)
    (hbody : body.length + crcOverhead header = newLength) :
    (destination.apply (Writes.copy 0 body ++
      Writes.copy (newLength - (closingCrc header body).length : Int)
        (closingCrc header body))).Holds 0 (body ++ closingCrc header body) := by
  have hcopy := Memory.apply_copy destination 0 body
  rw [Nat.cast_zero] at hcopy
  have hstart : (newLength - (closingCrc header body).length : Int) = (body.length : Nat) := by
    rw [length_closingCrc]
    omega
  rw [hstart, Memory.apply_append, Memory.apply_copy, hcopy, Memory.holds_append]
  constructor
  · apply Memory.holds_congr _ (Memory.holds_store destination 0 body)
    intro k hk
    rw [Memory.store_outside _ body.length _ (Or.inl (by omega))]
  · rw [Nat.zero_add]
    exact Memory.holds_store _ _ _

theorem composePacket_fst (b : Build) (info : PacketInfo) (destination : Memory)
    (source : Payload) :
    (composePacket b info destination source).1 = (measure b info source.length).newLength := by
  simp only [composePacket]
  split_ifs <;> rfl

theorem composePacket_of_le (destination : Memory) (source : Payload)
    (h : b.packetMaxLength ≤ (measure b info source.length).newLength) :
    (composePacket b info destination source).2 = [] := by
  simp only [composePacket]
  rw [if_pos h]

theorem composePacket_of_lt (destination : Memory) (source : Payload)
    (h : (measure b info source.length).newLength < b.packetMaxLength) :
    (composePacket b info destination source).2 =
      Writes.copy 0 (metaData b info (measure b info source.length) ++ source.bytes) ++
        Writes.copy ((measure b info source.length).newLength -
          crcOverhead (measure b info source.length).header : Int)
          (endCrc (measure b info source.length).header (measure b info source.length).newLength
            (destination.apply (Writes.copy 0
              (metaData b info (measure b info source.length) ++ source.bytes)))) := by
  simp only [composePacket]
  rw [if_neg (Nat.not_le.mpr h), length_endCrc]

/-- The end CRC is written behind the other bytes, also where the flag for the width of the length
field is stale. -/
theorem holds_composed (destination : Memory) (source : Payload)
    (hwrap : source.length + packetOverhead (measure b info source.length).header < 65536)
    (hfits : (measure b info source.length).newLength < b.packetMaxLength) :
    (destination.apply (composePacket b info destination source).2).Holds 0
      (metaData b info (measure b info source.length) ++ source.bytes) := by
  have hmeta := length_metaData_le b info (measure b info source.length)
    (has_ext_of_extendedLength (b := b))
  have hcopy := Memory.apply_copy destination 0
    (metaData b info (measure b info source.length) ++ source.bytes)
  have hstart : ((measure b info source.length).newLength -
      crcOverhead (measure b info source.length).header : Int) =
        ((measure b info source.length).newLength -
          crcOverhead (measure b info source.length).header : Nat) := by
    rw [measure_newLength, totalLength_of_lt hwrap]
    omega
  rw [Nat.cast_zero] at hcopy
  rw [composePacket_of_lt destination source hfits, hstart, Memory.apply_append,
    Memory.apply_copy, hcopy]
  apply Memory.holds_congr _ (Memory.holds_store destination 0 _)
  intro k hk
  apply (Memory.store_outside _ _ _ (Or.inl _)).symm
  have hsource : source.bytes.length = source.length := rfl
  rw [List.length_append, hsource] at hk
  rw [measure_newLength, totalLength_of_lt hwrap]
  omega

/-- The measured packet neither wrapped the 16-bit sum nor outgrew its length field. -/
structure Faithful (b : Build) (info : PacketInfo) (length : Nat) : Prop where
  noWrap : length + packetOverhead (measure b info length).header < 65536
  width : (measure b info length).extendedLength = has (measure b info length).header extLenBit

theorem length_body (source : Payload) (hsup : b.Supports info.header)
    (hfaithful : Faithful b info source.length) :
    (metaData b info (measure b info source.length) ++ source.bytes).length +
        crcOverhead (measure b info source.length).header =
      (measure b info source.length).newLength := by
  have hmeta := length_metaData b info (supports_measure source.length hsup) hfaithful.width
    (fun hb => port_of_has_port b info source.length hb)
  have hsource : source.bytes.length = source.length := rfl
  rw [measure_newLength, totalLength_of_lt hfaithful.noWrap, List.length_append, hsource]
  omega

theorem length_packetBytes (source : Payload) (hsup : b.Supports info.header)
    (hfaithful : Faithful b info source.length) :
    (packetBytes b info (measure b info source.length) source.bytes).length =
      (measure b info source.length).newLength := by
  rw [packetBytes, List.length_append, length_closingCrc, length_body source hsup hfaithful]

/-- What a successful composition leaves at its destination. -/
theorem holds_packetBytes (destination : Memory) (source : Payload)
    (hsup : b.Supports info.header) (hfaithful : Faithful b info source.length)
    (hfits : (measure b info source.length).newLength < b.packetMaxLength) :
    (destination.apply (composePacket b info destination source).2).Holds 0
      (packetBytes b info (measure b info source.length) source.bytes) := by
  have hbody := length_body source hsup hfaithful
  have hlt : (measure b info source.length).newLength < 65536 := totalLength_lt _ _
  rw [composePacket_of_lt destination source hfits, endCrc_eq destination hbody hlt,
    ← length_closingCrc _ (metaData b info (measure b info source.length) ++ source.bytes)]
  exact holds_body destination hbody

end Pjon.Proofs.Layout
