import Pjon.Proofs.Boundary
import Pjon.Spec.LocalSending
/-!
# What `PJONLocal` transmits

`PJONTools::compose_packet` reports a packet that does not fit by a length that is too large,
and `PJONLocal::send_packet` looks for the length 0.  So whatever is not 0 goes out, and only
a sum that wraps around to 0 is turned down.
-/

namespace Pjon.Proofs.LocalSending

open Pjon.Lib Pjon.Model Pjon.Model.Tools Pjon.Spec Pjon.Proofs.Layout Pjon.Proofs.Boundary

variable {b : Build}

/-! ## The returned length -/

section Length

variable {info : PacketInfo} {length : Nat}

/-- CRC32 makes a header longer by 3 bytes, or does not. -/
theorem packetOverhead_full_cases (b : Build) (info : PacketInfo) :
    packetOverhead (requested b info ||| extLenBit ||| crcBit) =
        packetOverhead (requested b info ||| extLenBit) ∨
      packetOverhead (requested b info ||| extLenBit ||| crcBit) =
        packetOverhead (requested b info ||| extLenBit) + 3 := by
  rw [packetOverhead_requested_full, packetOverhead_requested_ext]
  cases has info.header crcBit
  · exact Or.inr rfl
  · exact Or.inl rfl

/-- The length 0 is returned for the sums that wrap to it, and for no other. -/
theorem newLength_eq_zero_iff (b : Build) (info : PacketInfo) (hlength : length < 65536) :
    (measure b info length).newLength = 0 ↔ WrapsToZero (requested b info) length := by
  have hge := packetOverhead_ge (requested b info ||| extLenBit)
  have hle := packetOverhead_le (requested b info ||| extLenBit ||| crcBit)
  have hcases := packetOverhead_full_cases b info
  by_cases hlong : 255 < length
  · rw [newLength_of_long b info hlong, WrapsToZero]
    unfold totalLength
    split_ifs <;> omega
  · have hsum := packetOverhead_ge (measure b info length).header
    have hsum' := packetOverhead_le (measure b info length).header
    rw [measure_newLength, totalLength_of_lt (by omega), WrapsToZero]
    omega

theorem packetLength_lt_iff (b : Build) (info : PacketInfo) (hlength : length < 65536) :
    packetLength (requested b info) length < 65536 ↔
      length + packetOverhead (measure b info length).header < 65536 := by
  rw [noWrap_iff b info length hlength]
  have hle := packetOverhead_le (requested b info ||| extLenBit ||| crcBit)
  unfold packetLength
  by_cases hlong : 255 < length
  · simp only [if_pos hlong]
    rw [if_pos (by omega)]
  · have hplain := packetOverhead_le (requested b info)
    have hcrc := packetOverhead_le (requested b info ||| crcBit)
    simp only [if_neg hlong]
    split_ifs <;> omega

/-- A length field of the right width leaves the header with no more than CRC32 to add. -/
theorem measure_header_of_width
    (hwidth : (measure b info length).extendedLength =
      has (measure b info length).header extLenBit) :
    (measure b info length).header = forceCrc (startHeader b info length) length := by
  rw [measure_header, forceExtLen]
  rw [measure_extendedLength, has_measure_ext] at hwidth
  apply if_neg
  intro hraise
  rw [Bool.and_eq_true, Bool.not_eq_true'] at hraise
  rw [hraise.1, hraise.2] at hwidth
  exact Bool.false_ne_true hwidth

/-- The header that the composer starts from takes what the requested one takes, with an
extended length if the payload is longer than 255 bytes; so it does when CRC32 is added. -/
theorem packetOverhead_start (b : Build) (info : PacketInfo) (length : Nat) :
    packetOverhead (startHeader b info length) =
        packetOverhead (if 255 < length then requested b info ||| extLenBit
          else requested b info) ∧
      packetOverhead (startHeader b info length ||| crcBit) =
        packetOverhead ((if 255 < length then requested b info ||| extLenBit
          else requested b info) ||| crcBit) := by
  have hstart : packetOverhead (startHeader b info length) =
      packetOverhead (if 255 < length then requested b info ||| extLenBit
        else requested b info) := by
    by_cases hlong : 255 < length
    · rw [if_pos hlong, packetOverhead_startHeader_long b info hlong]
    · rw [if_neg hlong, packetOverhead_startHeader, decide_eq_false hlong, Bool.and_false]
      rfl
  have hcrc : has (if 255 < length then requested b info ||| extLenBit
      else requested b info) crcBit = has info.header crcBit := by
    have hrequested : has (requested b info) crcBit = has info.header crcBit :=
      has_requested b info (by decide) (by decide)
    split_ifs
    · rw [has_or, hrequested, show has extLenBit crcBit = false by decide, Bool.or_false]
    · exact hrequested
  exact ⟨hstart, by rw [packetOverhead_startHeader_crc, packetOverhead_or_crc, hstart, hcrc]⟩

theorem packetLength_eq
    (hwidth : (measure b info length).extendedLength =
      has (measure b info length).header extLenBit)
    (hsum : length + packetOverhead (measure b info length).header < 65536) :
    packetLength (requested b info) length =
      length + packetOverhead (measure b info length).header := by
  obtain ⟨hstart, hcrc⟩ := packetOverhead_start b info length
  have hraise := packetOverhead_startHeader_crc b info length
  rw [measure_header_of_width hwidth, forceCrc_eq] at hsum ⊢
  have htotal : totalLength (startHeader b info length) length =
      length + packetOverhead (startHeader b info length) := by
    apply totalLength_of_lt
    split_ifs at hsum <;> omega
  rw [packetLength, ← hstart, ← hcrc, ← htotal]
  split_ifs
  · rfl
  · exact htotal

end Length

/-! ## The stores -/

section Stores

variable {info : PacketInfo} {buffer : Memory} {payload : Payload}

theorem not_fills_nil {length : Nat} (h : length ≠ 0) : ¬Fills [] length := fun hfills =>
  List.not_mem_nil ((hfills 0).mpr ⟨Int.le_refl 0, Int.natCast_pos.mpr (Nat.pos_of_ne_zero h)⟩)

/-- Two copies, of which the second one ends at `length`, leave no gap if and only if the first
one ends where the second one starts. -/
theorem fills_copies_iff (body crc : List UInt8) (length : Nat)
    (hbody : body.length + crc.length ≤ length) (hcrc : 0 < crc.length) :
    Fills (Writes.copy 0 body ++ Writes.copy (length - crc.length : Int) crc) length ↔
      body.length + crc.length = length := by
  have hmem : ∀ j : Int,
      j ∈ (Writes.copy 0 body ++ Writes.copy (length - crc.length : Int) crc).map Prod.fst ↔
        (0 ≤ j ∧ j < body.length) ∨ (length - crc.length ≤ j ∧ j < length) := by
    intro j
    rw [List.map_append, List.mem_append, Writes.mem_map_fst_copy, Writes.mem_map_fst_copy]
    omega
  constructor
  · intro hfills
    by_contra hgap
    have hreached := (hmem body.length).mp ((hfills body.length).mpr (by omega))
    omega
  · intro heq j
    rw [hmem]
    omega

/-- When the sum has wrapped, the payload is written past the returned length. -/
theorem not_fills_of_wrap
    (hfits : (measure b info payload.length).newLength < b.packetMaxLength)
    (hwrap : 65536 ≤ payload.length + packetOverhead (measure b info payload.length).header) :
    ¬Fills (composePacket b info buffer payload).2 (measure b info payload.length).newLength := by
  intro hfills
  have hlength := payload.length_lt
  have hle := packetOverhead_le (measure b info payload.length).header
  have hnew : (measure b info payload.length).newLength =
      (payload.length + packetOverhead (measure b info payload.length).header) % 65536 := rfl
  rw [composePacket_of_lt buffer payload hfits] at hfills
  have hreached : ((measure b info payload.length).newLength : Int) ∈ List.map Prod.fst
      (Writes.copy 0 (metaData b info (measure b info payload.length) ++ payload.bytes)) := by
    have hbytes : payload.bytes.length = payload.length := rfl
    rw [Writes.mem_map_fst_copy, List.length_append]
    omega
  have hinside := (hfills _).mp (by rw [List.map_append, List.mem_append]; exact Or.inl hreached)
  exact absurd hinside.2 (Int.lt_irrefl _)

/-- Meta-data and payload reach up to the end CRC if and only if the composer writes all that
the header announces. -/
theorem length_body_iff
    (hsum : payload.length + packetOverhead (measure b info payload.length).header < 65536) :
    (metaData b info (measure b info payload.length) ++ payload.bytes).length +
          crcOverhead (measure b info payload.length).header =
        (measure b info payload.length).newLength ↔
      Announced b info payload.length := by
  have hmeta := @length_metaData_iff b info (measure b info payload.length)
    (has_ext_of_extendedLength (b := b)) (port_of_has_port b info payload.length)
  rw [supports_measure_iff, extendedLength_iff] at hmeta
  calc
    _ ↔ (metaData b info (measure b info payload.length)).length +
          crcOverhead (measure b info payload.length).header =
        packetOverhead (measure b info payload.length).header := by
      have hbytes : payload.bytes.length = payload.length := rfl
      rw [measure_newLength, totalLength_of_lt hsum, List.length_append]
      omega
    _ ↔ _ := hmeta
    _ ↔ Announced b info payload.length :=
      ⟨fun h => ⟨h.2, h.1⟩, fun h => ⟨h.width, h.supports⟩⟩

theorem fills_composed_iff (info : PacketInfo) (buffer : Memory) (payload : Payload)
    (hne : (measure b info payload.length).newLength ≠ 0) :
    Fills (composePacket b info buffer payload).2 (measure b info payload.length).newLength ↔
      (measure b info payload.length).newLength < b.packetMaxLength ∧
        payload.length + packetOverhead (measure b info payload.length).header < 65536 ∧
        Announced b info payload.length := by
  by_cases hfits : (measure b info payload.length).newLength < b.packetMaxLength
  · rw [and_iff_right hfits]
    by_cases hsum :
        payload.length + packetOverhead (measure b info payload.length).header < 65536
    · have hmeta := length_metaData_le b info (measure b info payload.length)
        (has_ext_of_extendedLength (b := b))
      have hcopies := fills_copies_iff
        (metaData b info (measure b info payload.length) ++ payload.bytes)
        (endCrc (measure b info payload.length).header (measure b info payload.length).newLength
          (buffer.apply (Writes.copy 0 (metaData b info (measure b info payload.length) ++
            payload.bytes))))
        (measure b info payload.length).newLength
        (by
          have hbytes : payload.bytes.length = payload.length := rfl
          rw [length_endCrc, List.length_append, measure_newLength, totalLength_of_lt hsum]
          omega)
        (by
          rw [length_endCrc, crcOverhead]
          split_ifs <;> decide)
      rw [length_endCrc] at hcopies
      rw [composePacket_of_lt buffer payload hfits, hcopies, length_body_iff hsum,
        and_iff_right hsum]
    · refine iff_of_false ?_ fun h => hsum h.1
      exact not_fills_of_wrap hfits (Nat.le_of_not_lt hsum)
  · rw [composePacket_of_le buffer payload (Nat.le_of_not_lt hfits)]
    exact iff_of_false (not_fills_nil hne) fun h => hfits h.1

end Stores

/-! ## Transmission -/

section Transmission

variable (sender : LocalSender b) (request : LocalRequest) (buffer : Memory) (payload : Payload)
  (medium : LocalMedium)

/-- A packet that is handed over is given to the strategy, whatever comes back. -/
theorem events_sendComposed (packet : Memory) (length : Nat) :
    (sender.sendComposed packet length medium).events = [.sendFrame (packet.load 0 length)] := by
  unfold LocalSender.sendComposed
  simp only
  split_ifs <;> rfl

theorem sendPacket_of_zero
    (h : (measure b (sender.completeInfo request) payload.length).newLength = 0) :
    (sender.sendPacket request buffer payload medium).result = fail ∧
      (sender.sendPacket request buffer payload medium).events = [] := by
  have hcomposed : (sender.composePacket request buffer payload).1 = 0 := by
    rw [LocalSender.composePacket, composePacket_fst, h]
  rw [LocalSender.sendPacket]
  simp only [if_pos hcomposed, and_self]

theorem events_of_ne_zero
    (h : (measure b (sender.completeInfo request) payload.length).newLength ≠ 0) :
    (sender.sendPacket request buffer payload medium).events =
      [.sendFrame ((buffer.apply
        (composePacket b (sender.completeInfo request) buffer payload).2).load 0
          (composePacket b (sender.completeInfo request) buffer payload).1)] := by
  have hcomposed : ¬(sender.composePacket request buffer payload).1 = 0 := by
    rwa [LocalSender.composePacket, composePacket_fst]
  rw [LocalSender.sendPacket]
  simp only [if_neg hcomposed]
  exact events_sendComposed _ medium _ _

/-- `send_packet` transmits the packet that was composed and nothing else if and only if the
composer writes all that the header announces and the packet fits, or the sum of the lengths
wraps to 0. -/
theorem transmitsComposed_iff :
    TransmitsComposed sender request buffer payload medium ↔
      WrapsToZero (requested b (sender.completeInfo request)) payload.length ∨
        Announced b (sender.completeInfo request) payload.length ∧
          packetLength (requested b (sender.completeInfo request)) payload.length < 65536 ∧
          packetLength (requested b (sender.completeInfo request)) payload.length <
            b.packetMaxLength := by
  rw [← newLength_eq_zero_iff b _ payload.length_lt, packetLength_lt_iff b _ payload.length_lt]
  by_cases hzero : (measure b (sender.completeInfo request) payload.length).newLength = 0
  · obtain ⟨hresult, hevents⟩ := sendPacket_of_zero sender request buffer payload medium hzero
    refine iff_of_true ?_ (Or.inl hzero)
    constructor
    · intro frame hframe
      rw [hevents] at hframe
      exact absurd hframe List.not_mem_nil
    · intro _
      rw [hevents]
      exact ⟨hresult, fun frame => List.not_mem_nil⟩
  · have hevents := events_of_ne_zero sender request buffer payload medium hzero
    have hfills := fills_composed_iff (sender.completeInfo request) buffer payload hzero
    rw [or_iff_right hzero]
    constructor
    · intro h
      have hfilled := (h.composed _ (by rw [hevents]; exact List.mem_singleton_self _)).1
      rw [composePacket_fst, hfills] at hfilled
      obtain ⟨hfits, hsum, hannounced⟩ := hfilled
      have hwidth := (extendedLength_iff b _ payload.length).mpr hannounced.width
      refine ⟨hannounced, hsum, ?_⟩
      rw [packetLength_eq hwidth hsum]
      rwa [measure_newLength, totalLength_of_lt hsum] at hfits
    · rintro ⟨hannounced, hsum, hfits⟩
      have hwidth := (extendedLength_iff b _ payload.length).mpr hannounced.width
      rw [packetLength_eq hwidth hsum] at hfits
      constructor
      · intro frame hframe
        rw [hevents, List.mem_singleton, Event.sendFrame.injEq] at hframe
        refine ⟨?_, hframe⟩
        rw [composePacket_fst, hfills]
        refine ⟨?_, hsum, hannounced⟩
        rwa [measure_newLength, totalLength_of_lt hsum]
      · intro hlong
        exact absurd hfits (Nat.not_lt.mpr hlong)

end Transmission

/-! ## A packet that is too long -/

def longLetter : Payload := ⟨List.replicate 50 65, by decide⟩

def localSender : LocalSender { defaultBuild with pjonLocal := true } := { deviceId := 44 }

/-- 50 bytes of payload make a packet of 59 bytes.  Nothing is composed, and 59 bytes of what
lies in the buffer are transmitted. -/
theorem longLetter_transmitted :
    (composePacket { defaultBuild with pjonLocal := true }
        (localSender.completeInfo { id := 45 }) (fun _ => 0) longLetter).2 = [] ∧
      (localSender.sendPacket { id := 45 } (fun _ => 0) longLetter {}).events =
        [.sendFrame (List.replicate 59 0)] ∧
      ¬TransmitsComposed localSender { id := 45 } (fun _ => 0) longLetter {} := by
  refine ⟨by decide +kernel, by decide +kernel, fun h => ?_⟩
  have hrefused := h.refused (by decide +kernel)
  exact absurd hrefused.1 (by decide +kernel)

end Pjon.Proofs.LocalSending
