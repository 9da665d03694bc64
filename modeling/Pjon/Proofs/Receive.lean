import Pjon.Proofs.Filter
/-!
# `receive` decides admission

Behind the byte loop stand the checksums and the MAC address.  Together they are
`Admissible`: an admissible packet reaches `deliver`, every other byte sequence
leaves without a trace outside the `data` buffer.
-/

namespace Pjon.Proofs.Receive

open Pjon.Lib Pjon.Model Pjon.Spec Pjon.Proofs.Filter

variable {b : Build}

/-- The local variables when the loop is over. -/
structure Settled (s : List UInt8) (st : LoopState) : Prop where
  data : ∀ k < encodedLength s, st.data k = byte s k
  length : st.length = encodedLength s
  mac : st.mac = has (header s) macBit
  extendedLength : st.extendedLength = has (header s) extLenBit
  overhead : st.overhead = packetOverhead (header s)

theorem settled_of_scanned {bus : Bus b} {s : List UInt8} {st : LoopState} (hok : LengthOk b s)
    (h : Scanned bus s (encodedLength s) st) : Settled s st := by
  have hover := hok.overhead
  have hge := packetOverhead_ge (header s)
  have hshift := shift_le s
  refine ⟨fun k hk => h.data k (by omega), ?_, h.mac (by omega), h.extendedLength (by omega),
    h.overhead (by omega)⟩
  rw [h.length, if_neg (by omega)]

theorem load_eq_take {s : List UInt8} {memory : Memory} {n : Nat} (hn : n ≤ s.length)
    (h : ∀ k < n, memory k = byte s k) : memory.load 0 n = s.take n := by
  have hlen : (s.take n).length = n := by simpa using hn
  have hread := (Memory.load_eq_iff memory 0 (s.take n)).mpr fun i hi => by
    rw [hlen] at hi
    rw [Nat.zero_add, h i hi, byte, List.getD_eq_getElem?_getD, List.getD_eq_getElem?_getD,
      List.getElem?_take_of_lt hi]
  rwa [hlen] at hread

/-! ## The loop, rule by rule -/

/-- The header check, rule by rule. -/
theorem rejectsHeader_eq_false_iff (bus : Bus b) (s : List UInt8) :
    bus.rejectsHeader (byte s 0) (header s) (foreign bus s) = false ↔
      (bus.router ∨ byte s 0 = bus.tx.id ∨ byte s 0 = broadcast ∨ has (header s) macBit) ∧
      (byte s 0 = broadcast → has (header s) ackReqBit = false) ∧
      (has (header s) extLenBit → has (header s) crcBit) ∧
      (has (header s) macBit → has (header s) crcBit) ∧
      (has (header s) packetIdBit → b.includePacketId) ∧
      (has (header s) portBit → b.includePort) ∧
      (has (header s) macBit → b.includeMac) ∧
      (bus.router ∨ (has (header s) modeBit = false → has bus.config modeBit = false)) := by
  have hforeign : (foreign bus s && !has (header s) macBit) = false ↔
      (bus.router ∨ byte s 0 = bus.tx.id ∨ byte s 0 = broadcast ∨ has (header s) macBit) := by
    rw [foreign, bit_without_iff, Bool.and_eq_true_iff, Bool.and_eq_true_iff, bne_iff_ne,
      bne_iff_ne, Bool.not_eq_true']
    cases bus.router
    · simp
      tauto
    · simp
  have hmode : (!bus.router && (has bus.config modeBit && !has (header s) modeBit)) = false ↔
      (bus.router ∨ (has (header s) modeBit = false → has bus.config modeBit = false)) := by
    cases bus.router <;> cases has bus.config modeBit <;> simp
  simp only [Bus.rejectsHeader, Bool.or_eq_false_iff, broadcastAck_iff, hforeign, hmode,
    bit_without_iff, without_bit_iff]
  constructor
  · rintro ⟨⟨⟨⟨⟨⟨hshared, hback⟩, hext⟩, hid⟩, hport⟩, hmac, hcrc⟩, hrecipient⟩
    exact ⟨hrecipient, hback, hext, hcrc, hid, hport, hmac, hshared⟩
  · rintro ⟨hrecipient, hback, hext, hcrc, hid, hport, hmac, hshared⟩
    exact ⟨⟨⟨⟨⟨⟨hshared, hback⟩, hext⟩, hid⟩, hport⟩, hmac, hcrc⟩, hrecipient⟩

theorem busId_iff (bus : Bus b) (s : List UInt8) (hok : LengthOk b s) :
    (∀ k < encodedLength s, BusIdOk bus s k) ↔
      (bus.router ∨ (has (header s) modeBit → has (header s) macBit = false → ∀ k < 4,
        byte s (4 + shift s + k) =
          if has bus.config modeBit then bus.tx.busId.toList.getD k 0 else 0)) := by
  constructor
  · intro h
    rcases Bool.eq_false_or_eq_true bus.router with hr | hr
    · exact Or.inl hr
    · apply Or.inr
      intro hmode hmac k hk
      -- a shared-mode packet is long enough to hold a bus id
      have hlong : 8 + shift s < encodedLength s := by
        have hover := hok.overhead
        have hshift := shift_le s
        simp only [packetOverhead, hmode, if_true] at hover
        have hext : (if has (header s) extLenBit then 2 else 1) = 1 + shift s := by
          unfold shift
          cases has (header s) extLenBit <;> rfl
        rw [hext] at hover
        split_ifs at hover <;> omega
      have hbyte := h (4 + shift s + k) (by omega) hmode hr hmac (by omega) (by omega)
      rw [show 4 + shift s + k - 4 - shift s = k by omega] at hbyte
      exact hbyte
  · rintro h i - hmode hr hmac h3 h8
    have hrule := h.resolve_left (by simp [hr]) hmode hmac (i - 4 - shift s) (by omega)
    rw [show 4 + shift s + (i - 4 - shift s) = i by omega] at hrule
    exact hrule

/-- All bytes pass exactly when the rules that the loop checks hold. -/
theorem passes_all_iff (bus : Bus b) (s : List UInt8) :
    (LengthOk b s ∧ ∀ k < encodedLength s, k < s.length ∧ Passes bus s k) ↔
      LengthOk b s ∧ encodedLength s ≤ s.length ∧
      bus.rejectsHeader (byte s 0) (header s) (foreign bus s) = false ∧
      ∀ k < encodedLength s, BusIdOk bus s k := by
  have hge := packetOverhead_ge (header s)
  constructor
  · rintro ⟨hok, hall⟩
    have hover := hok.overhead
    refine ⟨hok, ?_, (hall 1 (by omega)).2.header rfl,
      fun k hk => (hall k hk).2.busId⟩
    have := (hall (encodedLength s - 1) (by omega)).1
    omega
  · rintro ⟨hok, hcomplete, hheader, hbus⟩
    exact ⟨hok, fun k hk => ⟨by omega, fun _ => hheader, fun _ => hok, hbus k hk⟩⟩

/-! ## Behind the loop -/

section Settled

variable {bus : Bus b} {s : List UInt8} {st : LoopState}

theorem five_le_of_lengthOk (hok : LengthOk b s) : 5 ≤ encodedLength s := by
  have hover := hok.overhead
  have hge := packetOverhead_ge (header s)
  omega

theorem settled_header (hlong : 5 ≤ encodedLength s) (h : Settled s st) :
    st.data 1 = header s :=
  h.data 1 (by omega)

theorem checksumsMatch_iff (hlong : 5 ≤ encodedLength s) (hcomplete : encodedLength s ≤ s.length)
    (h : Settled s st) (hsmall : encodedLength s < 65536) :
    Bus.checksumsMatch st = true ↔
      Crc8.compute (s.take (3 + shift s)) = byte s (3 + shift s) ∧
      if has (header s) crcBit then
        Memory.load (byte s) (encodedLength s - 4) 4 =
          Crc32.bytes (Crc32.compute (s.take (encodedLength s - 4)))
      else byte s (encodedLength s - 1) = Crc8.compute (s.take (encodedLength s - 1)) := by
  have hshift := shift_le s
  have hext : st.extendedLength.toNat = shift s := by rw [h.extendedLength, shift]
  have hfront : st.data.load 0 (3 + shift s) = s.take (3 + shift s) :=
    load_eq_take (by omega) fun k hk => h.data k (by omega)
  have hcheck4 : Tools.checksumLength (encodedLength s) 4 = encodedLength s - 4 := by
    unfold Tools.checksumLength
    omega
  have hcheck1 : Tools.checksumLength (encodedLength s) 1 = encodedLength s - 1 := by
    unfold Tools.checksumLength
    omega
  have hbody4 : st.data.load 0 (encodedLength s - 4) = s.take (encodedLength s - 4) :=
    load_eq_take (by omega) fun k hk => h.data k (by omega)
  have hbody1 : st.data.load 0 (encodedLength s - 1) = s.take (encodedLength s - 1) :=
    load_eq_take (by omega) fun k hk => h.data k (by omega)
  have hlast : Memory.load (fun k => st.data (encodedLength s - 4 + k)) 0 4 =
      Memory.load (byte s) (encodedLength s - 4) 4 := by
    apply List.map_congr_left
    intro k hk
    have : k < 4 := List.mem_range.1 hk
    simp only [Nat.zero_add]
    exact h.data _ (by omega)
  simp only [Bus.checksumsMatch, hext, hfront, h.data (3 + shift s) (by omega),
    settled_header hlong h, h.length, hcheck4, hcheck1, hbody4, hbody1, Bool.and_eq_true,
    beq_iff_eq]
  apply and_congr_right
  intro _
  split_ifs
  · rw [Crc32.compare_iff, hlast]
  · rw [beq_iff_eq, h.data (encodedLength s - 1) (by omega), eq_comm]

theorem vector_congr {m m' : Memory} {start n : Nat}
    (h : ∀ k < n, m (start + k) = m' (start + k)) : m.vector start n = m'.vector start n := by
  apply Vector.ext
  intro i hi
  simpa [Memory.vector] using h i hi

theorem rejectsMac_eq_false_iff (hok : LengthOk b s) (h : Settled s st)
    (hcrc : has (header s) macBit → has (header s) crcBit)
    (hmac : has (header s) macBit → b.includeMac) :
    bus.rejectsMac st = false ↔
      (bus.router ∨ (has (header s) macBit →
        Memory.vector (byte s) (packetOverhead (header s) - 16) 6 = bus.tx.mac ∨
          Memory.vector (byte s) (packetOverhead (header s) - 16) 6 = noMac)) := by
  simp only [Bus.rejectsMac, h.mac, h.length, h.overhead]
  cases hbit : has (header s) macBit
  · simp
  · have hover := hok.overhead
    have hlarge : 17 ≤ packetOverhead (header s) := by
      simp only [packetOverhead, hbit, hcrc hbit, if_true]
      split_ifs <;> omega
    have hread : st.data.vector (packetOverhead (header s) - 16) 6 =
        Memory.vector (byte s) (packetOverhead (header s) - 16) 6 :=
      vector_congr fun k hk => h.data _ (by omega)
    rw [hread, hmac hbit, decide_eq_true (by omega : 15 < encodedLength s)]
    cases bus.router <;> simp [or_iff_not_imp_left]

end Settled

/-! ## Admission -/

theorem admissible_iff (bus : Bus b) (s : List UInt8) :
    Admissible bus s ↔
      (LengthOk b s ∧ encodedLength s ≤ s.length ∧
        bus.rejectsHeader (byte s 0) (header s) (foreign bus s) = false ∧
        ∀ k < encodedLength s, BusIdOk bus s k) ∧
      (Crc8.compute (s.take (3 + shift s)) = byte s (3 + shift s) ∧
        if has (header s) crcBit then
          Memory.load (byte s) (encodedLength s - 4) 4 =
            Crc32.bytes (Crc32.compute (s.take (encodedLength s - 4)))
        else byte s (encodedLength s - 1) = Crc8.compute (s.take (encodedLength s - 1))) ∧
      (bus.router ∨ (has (header s) macBit →
        Memory.vector (byte s) (packetOverhead (header s) - 16) 6 = bus.tx.mac ∨
          Memory.vector (byte s) (packetOverhead (header s) - 16) 6 = noMac)) := by
  rw [rejectsHeader_eq_false_iff]
  constructor
  · intro h
    have hok : LengthOk b s := ⟨h.overhead, h.maxLength, h.longCrc⟩
    exact ⟨⟨hok, h.complete, ⟨h.recipient, h.broadcastAck, h.extLenCrc, h.macCrc, h.packetId,
      h.port, h.mac, h.mode⟩, (busId_iff bus s hok).mpr h.busId⟩, ⟨h.frontCrc, h.endCrc⟩,
      h.macAddress⟩
  · rintro ⟨⟨hok, hcomplete, ⟨hrec, hback, hext, hmcrc, hid, hport, hmac, hmode⟩, hbus⟩,
      ⟨hfront, hend⟩, haddr⟩
    exact ⟨hcomplete, hrec, hback, hext, hmcrc, hid, hport, hmac, hmode,
      (busId_iff bus s hok).mp hbus, hok.overhead, hok.maxLength, hok.longCrc, hfront, hend, haddr⟩

section Receive

variable (bus : Bus b) (delivery : Delivery) (hmin : 4 ≤ b.packetMaxLength)
  (hmax : b.packetMaxLength < 65536)

include hmin hmax

theorem receive_of_admissible_kept (kept : Nat → LoopState → Prop)
    (hkept : ∀ i st fetched st', Scanned bus delivery.bytes i st → i < st.length →
      (2 + shift delivery.bytes < i → LengthOk b delivery.bytes) → kept i st →
      Bus.fetch delivery i st = .ok fetched → st'.data = fetched.data →
      st'.batchLength = fetched.batchLength → kept (i + 1) st')
    (hstart : kept 0 { data := bus.data, length := b.packetMaxLength })
    (h : Admissible bus delivery.bytes) :
    ∃ st, Scanned bus delivery.bytes (encodedLength delivery.bytes) st ∧
      kept (encodedLength delivery.bytes) st ∧ bus.receive delivery = bus.deliver st := by
  have hlength : b.packetMaxLength % 65536 = b.packetMaxLength := Nat.mod_eq_of_lt (by omega)
  have hparts := (admissible_iff bus delivery.bytes).mp h
  obtain ⟨hok, hall⟩ := (passes_all_iff bus delivery.bytes).mpr hparts.1
  rcases receiveLoop_turns kept hmin hkept (scanned_start bus delivery.bytes bus.data) hstart with
    ⟨st, hrun, hscan, hkeep, -, -⟩ | ⟨k, data, -, hk, hnot, -⟩
  · have hsettled := settled_of_scanned hok hscan
    have hsmall := hok.maxLength
    have hsum := (checksumsMatch_iff (five_le_of_lengthOk hok) h.complete hsettled
      (by omega)).mpr hparts.2.1
    have hmac := (rejectsMac_eq_false_iff hok hsettled h.macCrc h.mac).mpr hparts.2.2
    refine ⟨st, hscan, hkeep, ?_⟩
    simp only [Bus.receive, hlength, hrun, hsum, hmac, Bool.not_true, Bool.false_eq_true, if_false]
  · rw [lastTurn, if_pos hok] at hk
    exact absurd (hall k hk) hnot

theorem receive_of_admissible (h : Admissible bus delivery.bytes) :
    ∃ st, Settled delivery.bytes st ∧ bus.receive delivery = bus.deliver st := by
  obtain ⟨hok, -⟩ := (passes_all_iff bus delivery.bytes).mpr
    ((admissible_iff bus delivery.bytes).mp h).1
  obtain ⟨st, hscan, -, hrun⟩ := receive_of_admissible_kept bus delivery hmin hmax
    (fun _ _ => True) (fun _ _ _ _ _ _ _ _ _ _ _ => trivial) trivial h
  exact ⟨st, settled_of_scanned hok hscan, hrun⟩

/-- What is not admissible only overwrites the `data` buffer. -/
theorem receive_of_not_admissible (h : ¬Admissible bus delivery.bytes) :
    ∃ code data, bus.receive delivery = { result := code, bus := { bus with data := data } } ∧
      code ≠ ack := by
  have hstart : b.packetMaxLength % 65536 = b.packetMaxLength := Nat.mod_eq_of_lt (by omega)
  rcases receiveLoop_verdict hmin (scanned_start bus delivery.bytes bus.data) with
    ⟨st, hrun, hscan, hok, hall⟩ | ⟨code, data, hrun, hcode, -⟩
  · have hsettled := settled_of_scanned hok hscan
    have hsmall := hok.maxLength
    have hparts := (passes_all_iff bus delivery.bytes).mp ⟨hok, hall⟩
    have hcomplete := hparts.2.1
    have hheader := (rejectsHeader_eq_false_iff bus delivery.bytes).mp hparts.2.2.1
    by_cases hsum : Bus.checksumsMatch st
    · by_cases hmac : bus.rejectsMac st
      · refine ⟨busy, st.data, ?_, by decide⟩
        simp only [Bus.receive, hstart, hrun, hsum, hmac, Bool.not_true, Bool.false_eq_true,
          if_false, if_true]
      · exfalso
        refine h ((admissible_iff bus delivery.bytes).mpr ⟨hparts, ?_, ?_⟩)
        · exact (checksumsMatch_iff (five_le_of_lengthOk hok) hcomplete hsettled
            (by omega)).mp hsum
        · exact (rejectsMac_eq_false_iff hok hsettled hheader.2.2.2.1
            hheader.2.2.2.2.2.2.1).mp (by simpa using hmac)
    · refine ⟨nak, st.data, ?_, by decide⟩
      simp only [Bool.not_eq_true] at hsum
      simp only [Bus.receive, hstart, hrun, hsum, Bool.not_false, if_true]
  · refine ⟨code, data, ?_, hcode⟩
    simp only [Bus.receive, hstart, hrun]

end Receive

end Pjon.Proofs.Receive
