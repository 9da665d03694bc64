import Pjon.Proofs.Deliver
import Pjon.Spec.MetaData
/-!
# What the parser reads

The fields that `parse_header` reads follow each other and end where the payload starts, but for
the MAC addresses: with `PJON_INCLUDE_MAC` they are copied whether or not the packet has them.
-/

namespace Pjon.Proofs.MetaData

open Pjon.Lib Pjon.Model Pjon.Spec Pjon.Proofs.Receive Pjon.Proofs.Deliver

variable {b : Build}

/-! ## The reads -/

theorem mem_parseReads {header : UInt8} {i : Nat} :
    i ∈ Tools.parseReads b header ↔
      (i = 0 ∨ i = 1) ∨
        ((!b.pjonLocal && has header modeBit) = true ∧
          ((Tools.busIndex header ≤ i ∧ i < Tools.busIndex header + 4) ∨
            (has header txInfoBit = true ∧ Tools.txBusIndex header ≤ i ∧
              i < Tools.txBusIndex header + 4) ∨ i = Tools.hopsIndex header)) ∨
        (has header txInfoBit = true ∧ i = Tools.txIndex b header) ∨
        ((b.includePacketId && has header packetIdBit) = true ∧ Tools.idIndex b header ≤ i ∧
          i < Tools.idIndex b header + 2) ∨
        ((b.includePort && has header portBit) = true ∧ Tools.portIndex b header ≤ i ∧
          i < Tools.portIndex b header + 2) ∨
        (b.includeMac = true ∧ Tools.macIndex b header ≤ i ∧ i < Tools.macIndex b header + 12) := by
  simp only [Tools.parseReads, List.mem_append, List.mem_cons, List.not_mem_nil, or_false,
    List.mem_ite_nil_right, List.mem_range'_1, or_assoc]

/-- The MAC addresses are the last to be read. -/
theorem lt_parsedLength {header : UInt8} {i : Nat} (h : i ∈ Tools.parseReads b header) :
    i < Tools.parsedLength b header := by
  have hfour := four_le_macIndex b header
  have hid := idIndex_le_portIndex b header
  have hport := portIndex_le_macIndex b header
  have htx := txIndex_le_idIndex b header
  unfold Tools.parsedLength
  rw [mem_parseReads] at h
  rcases h with h | ⟨hmode, h⟩ | ⟨hinfo, h⟩ | ⟨hbit, h⟩ | ⟨hbit, h⟩ | ⟨hmac, h⟩
  · omega
  · have htxIndex : Tools.txIndex b header = Tools.hopsIndex header + 1 := by
      rw [Tools.txIndex, if_pos hmode]
    have hhops : Tools.txBusIndex header ≤ Tools.hopsIndex header ∧
        (has header txInfoBit = true → Tools.txBusIndex header + 4 ≤ Tools.hopsIndex header) := by
      unfold Tools.hopsIndex
      split_ifs with hinfo
      · exact ⟨by omega, fun _ => Nat.le_refl _⟩
      · exact ⟨Nat.le_refl _, fun h => absurd h hinfo⟩
    have hbus : Tools.txBusIndex header = Tools.busIndex header + 4 := rfl
    rcases h with h | ⟨hinfo, h⟩ | h
    · omega
    · have hlast := hhops.2 hinfo
      omega
    · omega
  · have hnext : Tools.idIndex b header = Tools.txIndex b header + 1 := by
      rw [Tools.idIndex, if_pos hinfo]
    omega
  · have hnext : Tools.portIndex b header = Tools.idIndex b header + 2 := by
      rw [Tools.portIndex, if_pos hbit]
    omega
  · have hnext : Tools.macIndex b header = Tools.portIndex b header + 2 := by
      rw [Tools.macIndex, if_pos hbit]
    omega
  · rw [if_pos hmac]
    omega

/-- The last byte that the parser expects is read, if there are MAC addresses to be copied. -/
theorem mac_mem_parseReads (header : UInt8) (hmac : b.includeMac = true) :
    Tools.macIndex b header + 11 ∈ Tools.parseReads b header := by
  rw [mem_parseReads]
  exact Or.inr (Or.inr (Or.inr (Or.inr (Or.inr ⟨hmac, by omega, by omega⟩))))

/-- The info depends on nothing but what is read. -/
theorem parseHeader_of_reads {m m' : Memory}
    (h : ∀ i ∈ Tools.parseReads b (m 1), m i = m' i) :
    Tools.parseHeader b m = Tools.parseHeader b m' := by
  have h0 : m 0 = m' 0 := h 0 (mem_parseReads.mpr (by simp))
  have h1 : m 1 = m' 1 := h 1 (mem_parseReads.mpr (by simp))
  generalize hheader : m 1 = header at h h1
  have hbus (hmode : (!b.pjonLocal && has header modeBit) = true) {i : Nat}
      (hi : (Tools.busIndex header ≤ i ∧ i < Tools.busIndex header + 4) ∨
        (has header txInfoBit = true ∧ Tools.txBusIndex header ≤ i ∧
          i < Tools.txBusIndex header + 4) ∨ i = Tools.hopsIndex header) : m i = m' i :=
    h i (mem_parseReads.mpr (Or.inr (Or.inl ⟨hmode, hi⟩)))
  have hrx : (if (!b.pjonLocal && has header modeBit) = true then
        m.vector (Tools.busIndex header) 4 else localhost) =
      if (!b.pjonLocal && has header modeBit) = true then
        m'.vector (Tools.busIndex header) 4 else localhost := by
    split_ifs with hmode
    · exact vector_congr fun k hk => hbus hmode (Or.inl ⟨by omega, by omega⟩)
    · rfl
  have htx : (if (!b.pjonLocal && has header modeBit && has header txInfoBit) = true then
        m.vector (Tools.txBusIndex header) 4 else localhost) =
      if (!b.pjonLocal && has header modeBit && has header txInfoBit) = true then
        m'.vector (Tools.txBusIndex header) 4 else localhost := by
    split_ifs with hshared
    · obtain ⟨hmode, hinfo⟩ := Bool.and_eq_true_iff.mp hshared
      exact vector_congr fun k hk => hbus hmode (Or.inr (Or.inl ⟨hinfo, by omega, by omega⟩))
    · rfl
  have hhops : (if (!b.pjonLocal && has header modeBit) = true then
        m (Tools.hopsIndex header) else 0) =
      if (!b.pjonLocal && has header modeBit) = true then m' (Tools.hopsIndex header) else 0 := by
    split_ifs with hmode
    · exact hbus hmode (Or.inr (Or.inr rfl))
    · rfl
  have htxId : (if has header txInfoBit = true then m (Tools.txIndex b header) else notAssigned) =
      if has header txInfoBit = true then m' (Tools.txIndex b header) else notAssigned := by
    split_ifs with hinfo
    · exact h _ (mem_parseReads.mpr (Or.inr (Or.inr (Or.inl ⟨hinfo, rfl⟩))))
    · rfl
  have hid : (if (b.includePacketId && has header packetIdBit) = true then
        ofBigEndian (m (Tools.idIndex b header)) (m (Tools.idIndex b header + 1)) else 0) =
      if (b.includePacketId && has header packetIdBit) = true then
        ofBigEndian (m' (Tools.idIndex b header)) (m' (Tools.idIndex b header + 1)) else 0 := by
    split_ifs with hbit
    · rw [h _ (mem_parseReads.mpr (Or.inr (Or.inr (Or.inr (Or.inl ⟨hbit, le_rfl, by omega⟩))))),
        h _ (mem_parseReads.mpr (Or.inr (Or.inr (Or.inr (Or.inl ⟨hbit, by omega, by omega⟩)))))]
    · rfl
  have hport : (if (b.includePort && has header portBit) = true then
        ofBigEndian (m (Tools.portIndex b header)) (m (Tools.portIndex b header + 1))
        else noPort) =
      if (b.includePort && has header portBit) = true then
        ofBigEndian (m' (Tools.portIndex b header)) (m' (Tools.portIndex b header + 1))
      else noPort := by
    split_ifs with hbit
    · rw [h _ (mem_parseReads.mpr
          (Or.inr (Or.inr (Or.inr (Or.inr (Or.inl ⟨hbit, le_rfl, by omega⟩)))))),
        h _ (mem_parseReads.mpr
          (Or.inr (Or.inr (Or.inr (Or.inr (Or.inl ⟨hbit, by omega, by omega⟩))))))]
    · rfl
  have hmac {start : Nat} (hstart : Tools.macIndex b header ≤ start)
      (hend : start + 6 ≤ Tools.macIndex b header + 12) :
      (if b.includeMac = true then m.vector start 6 else noMac) =
        if b.includeMac = true then m'.vector start 6 else noMac := by
    split_ifs with hinclude
    · exact vector_congr fun k hk => h _ (mem_parseReads.mpr
        (Or.inr (Or.inr (Or.inr (Or.inr (Or.inr ⟨hinclude, by omega, by omega⟩))))))
    · rfl
  simp only [Tools.parseHeader, Tools.parseRx, Tools.parseTx, hheader, ← h0, ← h1, hrx, htx, hhops,
    htxId, hid, hport, hmac (Nat.le_refl _) (Nat.add_le_add_left (by decide) _),
    hmac (Nat.le_add_right _ 6) (Nat.le_refl _)]

/-! ## The payload -/

/-- Where the parser's last field ends, compared with the payload: a packet for a local bus may
have room for bus ids that a build with `PJON_LOCAL` does not read. -/
theorem payloadIndex_bounds {s : List UInt8}
    (hid : has (header s) packetIdBit → b.includePacketId)
    (hport : has (header s) portBit → b.includePort) :
    Tools.macIndex b (header s) + (if has (header s) macBit then 12 else 0) ≤ payloadIndex s ∧
      payloadIndex s ≤
        Tools.macIndex b (header s) + 9 + if has (header s) macBit then 12 else 0 := by
  have hle := macFields_le b (header s)
  refine ⟨by unfold payloadIndex; omega, ?_⟩
  have h2 : (b.includePacketId && has (header s) packetIdBit) = has (header s) packetIdBit := by
    cases h : has (header s) packetIdBit
    · simp
    · simp [hid h]
  have h3 : (b.includePort && has (header s) portBit) = has (header s) portBit := by
    cases h : has (header s) portBit
    · simp
    · simp [hport h]
  unfold payloadIndex
  simp only [Tools.macIndex, Tools.portIndex, Tools.idIndex, Tools.txIndex, Tools.hopsIndex,
    Tools.txBusIndex, Tools.busIndex, h2, h3, packetOverhead, crcOverhead]
  cases has (header s) modeBit <;> cases has (header s) txInfoBit <;>
    cases has (header s) extLenBit <;> cases b.pjonLocal <;>
    simp only [Bool.false_eq_true, if_true, if_false, Bool.toNat_true, Bool.toNat_false,
      Bool.not_true, Bool.not_false, Bool.and_true, Bool.and_false] <;>
    split_ifs <;> omega

/-! ## Accepted packets -/

theorem keepsDefaults_parseHeader (m : Memory)
    (h : b.includeMac = false ∨ has (m 1) macBit = true) :
    KeepsDefaults (Tools.parseHeader b m) where
  mode := by
    intro hmode
    change has (m 1) modeBit = false at hmode
    simp only [Tools.parseHeader, Tools.parseRx, Tools.parseTx, hmode, Bool.and_false,
      Bool.false_and, Bool.false_eq_true, if_false, and_true]
    exact ⟨rfl, rfl⟩
  txInfo := by
    intro hinfo
    change has (m 1) txInfoBit = false at hinfo
    simp only [Tools.parseHeader, Tools.parseTx, hinfo, Bool.and_false, Bool.false_eq_true,
      if_false, true_and]
    rfl
  packetId := by
    intro hid
    change has (m 1) packetIdBit = false at hid
    simp only [Tools.parseHeader, hid, Bool.and_false, Bool.false_eq_true, if_false]
  port := by
    intro hport
    change has (m 1) portBit = false at hport
    simp only [Tools.parseHeader, hport, Bool.and_false, Bool.false_eq_true, if_false]
  mac := by
    intro hmac
    change has (m 1) macBit = false at hmac
    rcases h with hinclude | hset
    · simp only [Tools.parseHeader, Tools.parseRx, Tools.parseTx, hinclude, Bool.false_eq_true,
        if_false, and_self]
      rfl
    · rw [hmac] at hset
      cases hset

/-- What is known of a packet that some instance takes. -/
theorem admissible_of_accepted (hmin : 4 ≤ b.packetMaxLength) (hmax : b.packetMaxLength < 65536)
    {s : List UInt8} (h : Accepted b s) : ∃ bus : Bus b, Admissible bus s := by
  obtain ⟨bus, delivery, rfl, hresult⟩ := h
  refine ⟨bus, ?_⟩
  by_contra hnot
  obtain ⟨code, data, hrun, hcode⟩ := receive_of_not_admissible bus delivery hmin hmax hnot
  rw [hrun] at hresult
  exact hcode hresult

/-- The info of an accepted packet is that of its meta-data exactly when the build leaves MAC
addresses out or the packet has them. -/
theorem parsesMetaData_iff (hmin : 4 ≤ b.packetMaxLength) (hmax : b.packetMaxLength < 65536)
    (s : List UInt8) (h : Accepted b s) :
    ParsesMetaData b s ↔ b.includeMac = false ∨ has (header s) macBit = true := by
  obtain ⟨bus, hadmissible⟩ := admissible_of_accepted hmin hmax h
  have hbounds := payloadIndex_bounds hadmissible.packetId hadmissible.port
  have hlong : payloadIndex s ≤ s.length := by
    have hoverhead := hadmissible.overhead
    have hcomplete := hadmissible.complete
    unfold payloadIndex
    omega
  constructor
  · intro hparses
    by_contra hnot
    rw [not_or, Bool.not_eq_false] at hnot
    have hread := hparses.inFront _ (mac_mem_parseReads (header s) hnot.1)
    rw [if_neg hnot.2] at hbounds
    omega
  · intro hmac
    have hfront : Tools.parsedLength b (header s) ≤ payloadIndex s := by
      unfold Tools.parsedLength
      rcases hmac with hinclude | hset
      · rw [hinclude, if_neg Bool.false_ne_true]
        omega
      · rw [if_pos hset] at hbounds
        split_ifs <;> omega
    have hfour : 4 ≤ Tools.parsedLength b (header s) :=
      (four_le_macIndex b (header s)).trans (Nat.le_add_right _ _)
    have hheld {t : List UInt8} {m : Memory} (hm : m.Holds 0 t) {i : Nat} (hi : i < t.length) :
        m i = byte t i := by
      have hread := (Memory.holds_iff m 0 t).mp hm i hi
      rwa [Nat.zero_add] at hread
    refine ⟨fun t haccepted hsame m m' hm hm' => ?_,
      fun i hi => Nat.lt_of_lt_of_le (lt_parsedLength hi) hfront, fun m hm => ?_⟩
    · have hheader : m 1 = header s := hheld hm (by omega)
      apply parseHeader_of_reads
      intro i hi
      rw [hheader] at hi
      have hlt := Nat.lt_of_lt_of_le (lt_parsedLength hi) hfront
      have hlength := congrArg List.length hsame
      rw [List.length_take, List.length_take] at hlength
      have hbyte : byte t i = byte s i := by
        have hget := congrArg (fun l => l.getD i 0) hsame
        simpa [byte, List.getD_eq_getElem?_getD, List.getElem?_take, hlt] using hget
      rw [hheld hm (by omega), hheld hm' (by omega), hbyte]
    · have hheader : m 1 = header s := hheld hm (by omega)
      exact keepsDefaults_parseHeader m (hheader ▸ hmac)

/-! ## A payload in the place of MAC addresses -/

def macBuild : Build := { defaultBuild with includeMac := true }

/-- A letter from device 44 to device 45, which has no MAC addresses. -/
def plainLetter (letter crc : UInt8) : List UInt8 := [45, 6, 7, 1, 44, letter, crc]

theorem plainLetter_accepted : Accepted macBuild (plainLetter 65 229) :=
  ⟨{ tx := { id := 45 } }, { bytes := plainLetter 65 229, batch := fun _ => 7 }, rfl,
    by decide +kernel⟩

theorem otherLetter_accepted : Accepted macBuild (plainLetter 66 64) :=
  ⟨{ tx := { id := 45 } }, { bytes := plainLetter 66 64, batch := fun _ => 7 }, rfl,
    by decide +kernel⟩

/-- The two letters differ in their payload, and are parsed to different MAC addresses. -/
theorem plainLetter_leaks : ¬∀ s, Accepted macBuild s → ParsesMetaData macBuild s := by
  intro h
  have hsame := (h _ plainLetter_accepted).determined _ otherLetter_accepted (by decide)
    (byte (plainLetter 65 229)) (byte (plainLetter 66 64)) rfl rfl
  have hmac := congrArg (fun info => info.rx.mac.toList.head?) hsame
  exact absurd hmac (by decide)

theorem parsesMetaData_iff_plainLetter :
    ParsesMetaData macBuild (plainLetter 65 229) ↔
      macBuild.includeMac = false ∨ has (header (plainLetter 65 229)) macBit = true :=
  parsesMetaData_iff (by decide) (by decide) _ plainLetter_accepted

end Pjon.Proofs.MetaData
