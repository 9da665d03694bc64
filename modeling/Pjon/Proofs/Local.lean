import Pjon.Proofs.Deliver
import Pjon.Spec.LocalAdmission
/-!
# `PJONLocal` beside `PJON`

The byte loop of `PJONLocal::receive` is another copy of the filter.  It goes
through the same analysis, and the comparison of the two verdicts gives the byte
sequences on which the classes part.
-/

namespace Pjon.Proofs.Local

open Pjon.Lib Pjon.Model Pjon.Spec Pjon.Proofs.Filter Pjon.Proofs.Receive Pjon.Proofs.Deliver

variable {b b' : Build}

/-! ## What one byte has to satisfy -/

structure LengthWithin (b : Build) (s : List UInt8) : Prop where
  overhead : packetOverhead (header s) ≤ encodedLength s
  maxLength : encodedLength s < b.packetMaxLength

/-- What the length check asks for. -/
structure LocalLengthOk (b : Build) (s : List UInt8) : Prop extends LengthWithin b s where
  longCrc : 15 < encodedLength s → has (header s) crcBit

structure LocalPasses (bus : LocalBus b) (s : List UInt8) (i : Nat) : Prop where
  recipient : i = 0 → bus.router ∨ byte s 0 = bus.deviceId ∨ byte s 0 = broadcast
  header : i = 1 → LocalBus.rejectsHeader b (byte s 0) (Spec.header s) = false
  length : i = 2 + shift s → LocalLengthOk b s

/-- What `receive` returns when byte `i` is the first that does not pass. -/
def Returned (b : Build) (s : List UInt8) (i code : Nat) : Prop :=
  (i = 2 + shift s ∧ i < s.length ∧ LengthWithin b s → code = busy) ∧
    (¬(i = 2 + shift s ∧ i < s.length ∧ LengthWithin b s) → code = 0)

/-! ## The local variables before turn `i` -/

structure LocalFlags (b : Build) (s : List UInt8) (i : Nat) (st : LoopState) : Prop where
  length : st.length = if i ≤ 2 + shift s then b.packetMaxLength else encodedLength s
  mac : st.mac = false
  extendedLength : 2 ≤ i → st.extendedLength = has (header s) extLenBit
  overhead : 2 ≤ i → st.overhead = packetOverhead (header s)

structure LocalScanned (b : Build) (s : List UInt8) (i : Nat) (st : LoopState) : Prop
    extends LocalFlags b s i st, Fetched s i st

/-- Byte `i` is there and the flags are those before turn `i`. -/
structure LocalReady (b : Build) (s : List UInt8) (i : Nat) (st : LoopState) : Prop
    extends LocalFlags b s i st where
  data : ∀ k ≤ i, st.data k = byte s k

section Examine

variable {bus : LocalBus b} {s : List UInt8} {i : Nat} {st : LoopState}

/-- What one turn makes of the flags, by the verdict on its byte. -/
def LocalVerdict (bus : LocalBus b) (s : List UInt8) (i : Nat) (st : LoopState) : Prop :=
  (LocalPasses bus s i → ∃ st', bus.examine i st = .ok st' ∧ st'.data = st.data ∧
    st'.batchLength = st.batchLength ∧ LocalFlags b s (i + 1) st') ∧
  (¬LocalPasses bus s i → ∃ code, bus.examine i st = .error (code, st.data) ∧
    (i = 2 + shift s ∧ LengthWithin b s → code = busy) ∧
    (¬(i = 2 + shift s ∧ LengthWithin b s) → code = 0))

theorem examine_zero (h : LocalReady b s 0 st) : LocalVerdict bus s 0 st := by
  have h0 : st.data 0 = byte s 0 := h.data 0 le_rfl
  have hpasses : LocalPasses bus s 0 ↔
      (bus.router ∨ byte s 0 = bus.deviceId ∨ byte s 0 = broadcast) :=
    ⟨fun hp => hp.recipient rfl, fun hp => ⟨fun _ => hp, by omega, by omega⟩⟩
  have hcheck : (!bus.router && (byte s 0 != bus.deviceId && byte s 0 != broadcast)) = true ↔
      ¬(bus.router ∨ byte s 0 = bus.deviceId ∨ byte s 0 = broadcast) := by
    simp [not_or]
  have hexamine : bus.examine 0 st = bus.checkRecipient st := by
    simp [LocalBus.examine]
  rw [LocalVerdict, hpasses, hexamine, LocalBus.checkRecipient, h0]
  constructor
  · intro hp
    refine ⟨st, by rw [if_neg (by rw [hcheck]; exact not_not.mpr hp)], rfl, rfl, ?_⟩
    refine ⟨?_, h.mac, by omega, by omega⟩
    rw [h.length, if_pos (by omega), if_pos (by omega)]
  · intro hp
    exact ⟨0, by rw [if_pos (hcheck.mpr hp)], by omega, fun _ => rfl⟩

theorem examine_one (h : LocalReady b s 1 st) : LocalVerdict bus s 1 st := by
  have h0 : st.data 0 = byte s 0 := h.data 0 (by omega)
  have h1 : st.data 1 = header s := h.data 1 le_rfl
  have hpasses : LocalPasses bus s 1 ↔
      LocalBus.rejectsHeader b (byte s 0) (header s) = false :=
    ⟨fun hp => hp.header rfl, fun hp => ⟨by omega, fun _ => hp, by omega⟩⟩
  have hexamine : bus.examine 1 st = LocalBus.checkHeader b st := by
    simp [LocalBus.examine]
  rw [LocalVerdict, hpasses, hexamine, LocalBus.checkHeader, h0, h1]
  constructor
  · intro hp
    refine ⟨{ st with
      extendedLength := has (header s) extLenBit
      overhead := packetOverhead (header s) }, by rw [if_neg (by simp [hp])], rfl, rfl, ?_⟩
    refine ⟨?_, h.mac, fun _ => rfl, fun _ => rfl⟩
    exact h.length.trans (by rw [if_pos (by omega), if_pos (by omega)])
  · intro hp
    exact ⟨0, by rw [if_pos (by simpa using hp)], by omega, fun _ => rfl⟩

/-- The length check, with the length field of `s`. -/
theorem checkLength_verdict (hhead : st.data 1 = header s)
    (hover : st.overhead = packetOverhead (header s)) :
    (LocalLengthOk b s → LocalBus.checkLength b (encodedLength s) st =
      .ok { st with length := encodedLength s }) ∧
    (¬LocalLengthOk b s → ∃ code, LocalBus.checkLength b (encodedLength s) st =
        .error (code, st.data) ∧
      (LengthWithin b s → code = busy) ∧ (¬LengthWithin b s → code = 0)) := by
  simp only [LocalBus.checkLength, hhead, hover]
  constructor
  · rintro ⟨⟨ho, hm⟩, hc⟩
    rw [if_neg (by omega), if_neg]
    rintro ⟨hlong, hno⟩
    simp [hc hlong] at hno
  · intro hnot
    by_cases hrange : encodedLength s < packetOverhead (header s) ∨
        b.packetMaxLength ≤ encodedLength s
    · refine ⟨0, by rw [if_pos hrange], ?_, fun _ => rfl⟩
      rintro ⟨ho, hm⟩
      omega
    · have hwithin : LengthWithin b s := ⟨by omega, by omega⟩
      refine ⟨busy, ?_, fun _ => rfl, fun hno => absurd hwithin hno⟩
      rw [if_neg hrange, if_pos]
      by_contra hcrc
      apply hnot
      refine ⟨hwithin, fun hlong => ?_⟩
      by_contra hno
      exact hcrc ⟨hlong, by simpa using hno⟩

theorem flags_of_length {length : Nat} (h : LocalReady b s i st) (hi : 2 ≤ i)
    (hlength : length = if i + 1 ≤ 2 + shift s then b.packetMaxLength else encodedLength s) :
    LocalFlags b s (i + 1) { st with length := length } :=
  ⟨hlength, h.mac, fun _ => h.extendedLength hi, fun _ => h.overhead hi⟩

/-- A byte that no check looks at. -/
theorem verdict_of_skipped (h : LocalReady b s i st) (hi : 2 ≤ i) (hne : i ≠ 2 + shift s)
    (hskip : bus.examine i st = .ok st) : LocalVerdict bus s i st := by
  have hpasses : LocalPasses bus s i := ⟨by omega, by omega, fun heq => absurd heq hne⟩
  refine ⟨fun _ => ⟨st, hskip, rfl, rfl, ?_⟩, fun hnot => absurd hpasses hnot⟩
  exact flags_of_length h hi (h.length.trans (limit_succ b hne))

/-- The byte that completes the length field. -/
theorem verdict_of_length (h : LocalReady b s i st) (hi : 2 ≤ i) (heq : i = 2 + shift s)
    (hexamine : bus.examine i st = LocalBus.checkLength b (encodedLength s) st) :
    LocalVerdict bus s i st := by
  have hpasses : LocalPasses bus s i ↔ LocalLengthOk b s :=
    ⟨fun hp => hp.length heq, fun hp => ⟨by omega, by omega, fun _ => hp⟩⟩
  obtain ⟨hok, herror⟩ := checkLength_verdict (b := b) (h.data 1 (by omega)) (h.overhead hi)
  rw [LocalVerdict, hpasses, hexamine]
  constructor
  · intro hp
    refine ⟨_, hok hp, rfl, rfl, ?_⟩
    exact flags_of_length h hi (by rw [if_neg (by omega)])
  · intro hp
    obtain ⟨code, hcheck, hbusy, hzero⟩ := herror hp
    exact ⟨code, hcheck, fun hw => hbusy hw.2, fun hw => hzero fun hin => hw ⟨heq, hin⟩⟩

theorem examine_two (h : LocalReady b s 2 st) : LocalVerdict bus s 2 st := by
  have h2 : st.data 2 = byte s 2 := h.data 2 le_rfl
  have hext := h.extendedLength le_rfl
  cases hbit : has (header s) extLenBit
  · have hlen : encodedLength s = (byte s 2).toNat := by simp [encodedLength, hbit]
    apply verdict_of_length h le_rfl (by rw [(shift_eq_zero_iff s).mpr hbit])
    rw [hbit] at hext
    simp [LocalBus.examine, hext, h2, ← hlen]
  · have hshift : shift s = 1 := by simp [shift, hbit]
    apply verdict_of_skipped h le_rfl (by omega)
    rw [hbit] at hext
    simp [LocalBus.examine, hext]
    rfl

theorem examine_three (h : LocalReady b s 3 st) : LocalVerdict bus s 3 st := by
  have h2 : st.data 2 = byte s 2 := h.data 2 (by omega)
  have h3 : st.data 3 = byte s 3 := h.data 3 le_rfl
  have hext := h.extendedLength (by omega)
  cases hbit : has (header s) extLenBit
  · have hshift : shift s = 0 := (shift_eq_zero_iff s).mpr hbit
    apply verdict_of_skipped h (by omega) (by omega)
    rw [hbit] at hext
    simp [LocalBus.examine, hext]
    rfl
  · have hlen : encodedLength s = (ofBigEndian (byte s 2) (byte s 3)).toNat := by
      simp [encodedLength, hbit]
    have hshift : shift s = 1 := by simp [shift, hbit]
    apply verdict_of_length h (by omega) (by omega)
    rw [hbit] at hext
    simp [LocalBus.examine, hext, h2, h3, ← hlen]

theorem examine_verdict (bus : LocalBus b) (h : LocalReady b s i st) : LocalVerdict bus s i st := by
  rcases i with _ | _ | _ | _ | i
  · exact examine_zero h
  · exact examine_one h
  · exact examine_two h
  · exact examine_three h
  · have hshift := shift_le s
    apply verdict_of_skipped h (by omega) (by omega)
    have n2 : i + 4 ≠ 2 := by omega
    have n3 : i + 4 ≠ 3 := by omega
    simp [LocalBus.examine, n2, n3]
    rfl

end Examine

/-! ## The loop -/

theorem settled_of_localScanned {s : List UInt8} {st : LoopState} (hok : LocalLengthOk b s)
    (hmac : has (header s) macBit = false) (h : LocalScanned b s (encodedLength s) st) :
    Settled s st := by
  have hfar := lengthField_lt hok.overhead
  refine ⟨fun k hk => h.data k (by omega), ?_, ?_, h.extendedLength (by omega),
    h.overhead (by omega)⟩
  · rw [h.length, if_neg (by omega)]
  · rw [h.mac, hmac]

section Loop

variable {bus : LocalBus b} {delivery : Delivery}

theorem receiveByte_verdict {i : Nat} {st : LoopState}
    (h : LocalScanned b delivery.bytes i st) (hlen : i < st.length) :
    ((i < delivery.bytes.length ∧ LocalPasses bus delivery.bytes i) →
      ∃ st', bus.receiveByte delivery i st = .ok st' ∧
        LocalScanned b delivery.bytes (i + 1) st') ∧
    (¬(i < delivery.bytes.length ∧ LocalPasses bus delivery.bytes i) →
      ∃ e, bus.receiveByte delivery i st = .error e ∧ Returned b delivery.bytes i e.1) := by
  by_cases hi : i < delivery.bytes.length
  · obtain ⟨data, batchLength, hfetch, havail, hdata⟩ := fetch_available h.toFetched hi hlen
    have hready : LocalReady b delivery.bytes i
        { st with data := data, batchLength := batchLength } :=
      { length := h.length, mac := h.mac, extendedLength := h.extendedLength
        overhead := h.overhead, data := fun k hk => hdata k (by omega) }
    obtain ⟨hpass, hreject⟩ := examine_verdict bus hready
    constructor
    · rintro ⟨-, hp⟩
      obtain ⟨st', hok, hsame, hbatch, hflags⟩ := hpass hp
      refine ⟨st', ?_, { toLocalFlags := hflags, toFetched := ⟨?_, ?_⟩ }⟩
      · rw [LocalBus.receiveByte, hfetch]
        exact hok
      · rw [hsame, hbatch]
        exact hdata
      · rw [hbatch]
        exact havail
    · intro hnot
      obtain ⟨code, herror, hbusy, hzero⟩ := hreject fun hp => hnot ⟨hi, hp⟩
      refine ⟨(code, data), ?_, ?_, ?_⟩
      · rw [LocalBus.receiveByte, hfetch]
        exact herror
      · rintro ⟨heq, -, hwithin⟩
        exact hbusy ⟨heq, hwithin⟩
      · intro hno
        exact hzero fun hyes => hno ⟨hyes.1, hi, hyes.2⟩
  · obtain ⟨data, hfetch⟩ := fetch_empty h.toFetched (by omega)
    refine ⟨fun hp => absurd hp.1 hi, fun _ => ⟨(0, data), ?_, ?_, fun _ => rfl⟩⟩
    · rw [LocalBus.receiveByte, hfetch]
    · rintro ⟨-, hlt, -⟩
      exact absurd hlt hi

theorem scanned_start (b : Build) (s : List UInt8) (buffer : Memory) :
    LocalScanned b s 0 { data := buffer, length := b.packetMaxLength } := by
  constructor
  · constructor <;> simp
  · constructor <;> simp

instance (b : Build) (s : List UInt8) : Decidable (LocalLengthOk b s) :=
  decidable_of_iff (packetOverhead (header s) ≤ encodedLength s ∧
      encodedLength s < b.packetMaxLength ∧
      (15 < encodedLength s → has (header s) crcBit))
    ⟨fun h => ⟨⟨h.1, h.2.1⟩, h.2.2⟩, fun h => ⟨h.overhead, h.maxLength, h.longCrc⟩⟩

/-- The turn behind which the loop has nothing to do. -/
def localLastTurn (b : Build) (s : List UInt8) : Nat :=
  if LocalLengthOk b s then encodedLength s else 3 + shift s

theorem local_lt_length_iff {s : List UInt8} {i : Nat} {st : LoopState}
    (hmin : 4 ≤ b.packetMaxLength) (h : LocalFlags b s i st)
    (hall : ∀ k < i, k < s.length ∧ LocalPasses bus s k) :
    i < st.length ↔ i < localLastTurn b s :=
  lt_limit_iff hmin h.length (fun hok => lengthField_lt hok.overhead) fun hread =>
    (hall (2 + shift s) hread).2.length rfl

/-- Every byte up to the encoded length passes, or the first that does not says what is
returned. -/
theorem receiveLoop_verdict (bus : LocalBus b) (delivery : Delivery)
    (hmin : 4 ≤ b.packetMaxLength) (buffer : Memory) :
    (∃ final, bus.receiveLoop delivery b.packetMaxLength 0
          { data := buffer, length := b.packetMaxLength } = .ok final ∧
        LocalScanned b delivery.bytes (encodedLength delivery.bytes) final ∧
        LocalLengthOk b delivery.bytes ∧ ∀ k < encodedLength delivery.bytes,
          k < delivery.bytes.length ∧ LocalPasses bus delivery.bytes k) ∨
    (∃ k e, bus.receiveLoop delivery b.packetMaxLength 0
          { data := buffer, length := b.packetMaxLength } = .error e ∧
        Returned b delivery.bytes k e.1 ∧
        ¬(k < delivery.bytes.length ∧ LocalPasses bus delivery.bytes k) ∧
        (∀ j < k, j < delivery.bytes.length ∧ LocalPasses bus delivery.bytes j) ∧
        (LocalLengthOk b delivery.bytes → k < encodedLength delivery.bytes)) := by
  have hshift := shift_le delivery.bytes
  have hstop : localLastTurn b delivery.bytes ≤ 0 + b.packetMaxLength := by
    unfold localLastTurn
    split_ifs with hok
    · have := hok.maxLength
      omega
    · omega
  have hverdict := boundedLoop_verdict LoopState.length (bus.receiveByte delivery)
    (LocalScanned b delivery.bytes)
    (fun k => k < delivery.bytes.length ∧ LocalPasses bus delivery.bytes k)
    (fun i e => Returned b delivery.bytes i e.1) (localLastTurn b delivery.bytes)
    (fun i st hinv hturn => (receiveByte_verdict hinv hturn).1)
    (fun i st hinv hturn => (receiveByte_verdict hinv hturn).2)
    (fun i st hinv hall _ => local_lt_length_iff hmin hinv.toLocalFlags hall)
    b.packetMaxLength 0 _ (scanned_start b delivery.bytes buffer) (fun k hk => by omega)
    (Nat.zero_le _) hstop
  rcases hverdict with ⟨final, hrun, hscan, hall⟩ | ⟨k, e, hrun, hreturned, hk, hnot, hall⟩
  · have hok : LocalLengthOk b delivery.bytes := by
      by_contra hbad
      rw [localLastTurn, if_neg hbad] at hall
      exact hbad ((hall (2 + shift delivery.bytes) (by omega)).2.length rfl)
    rw [localLastTurn, if_pos hok] at hscan hall
    exact Or.inl ⟨final, hrun, hscan, hok, hall⟩
  · refine Or.inr ⟨k, e, hrun, hreturned, hnot, hall, fun hok => ?_⟩
    rwa [localLastTurn, if_pos hok] at hk

end Loop

/-! ## What `receive` does with a byte sequence -/

theorem localHeader_iff (bus : LocalBus b) (s : List UInt8) :
    LocalHeader bus s ↔ LocalPasses bus s 0 ∧ LocalPasses bus s 1 := by
  have hrejects : LocalBus.rejectsHeader b (byte s 0) (header s) = false ↔
      has (header s) modeBit = false ∧ has (header s) macBit = false ∧
      (byte s 0 = broadcast → has (header s) ackReqBit = false) ∧
      (has (header s) extLenBit → has (header s) crcBit) ∧
      (has (header s) packetIdBit → b.includePacketId) := by
    simp only [LocalBus.rejectsHeader, Bool.or_eq_false_iff, broadcastAck_iff, bit_without_iff,
      without_bit_iff, and_assoc]
  constructor
  · intro h
    exact ⟨⟨fun _ => h.recipient, by omega, by omega⟩, ⟨by omega, fun _ =>
      hrejects.mpr ⟨h.mode, h.mac, h.broadcastAck, h.extLenCrc, h.packetId⟩, by omega⟩⟩
  · rintro ⟨hzero, hone⟩
    obtain ⟨hmode, hmac, hback, hext, hid⟩ := hrejects.mp (hone.header rfl)
    exact ⟨hzero.recipient rfl, hmode, hmac, hback, hext, hid⟩

section Receive

variable (bus : LocalBus b) (delivery : Delivery) (buffer : Memory)
  (hmin : 4 ≤ b.packetMaxLength) (hmax : b.packetMaxLength < 65536)

include hmin hmax

theorem receive_of_locallyAdmissible (h : LocallyAdmissible bus delivery.bytes) :
    ∃ st, Settled delivery.bytes st ∧ bus.receive buffer delivery = bus.deliver st := by
  have hstart : b.packetMaxLength % 65536 = b.packetMaxLength := Nat.mod_eq_of_lt hmax
  have hshift := shift_le delivery.bytes
  have hge := packetOverhead_ge (header delivery.bytes)
  have hover := h.overhead
  have hmaxLength := h.maxLength
  have hok : LocalLengthOk b delivery.bytes := ⟨⟨h.overhead, h.maxLength⟩, h.longCrc⟩
  obtain ⟨hzero, hone⟩ := (localHeader_iff bus delivery.bytes).mp h.toLocalHeader
  rcases receiveLoop_verdict bus delivery hmin buffer with
    ⟨st, hrun, hscan, -, -⟩ | ⟨k, e, -, -, hnot, -, hwithin⟩
  · have hsettled := settled_of_localScanned hok h.mac hscan
    have hsum := (checksumsMatch_iff (by omega) h.complete hsettled (by omega)).mpr
      ⟨h.frontCrc, h.endCrc⟩
    refine ⟨st, hsettled, ?_⟩
    simp only [LocalBus.receive, hstart, hrun, hsum, Bool.not_true, Bool.false_eq_true, if_false]
  · exfalso
    have hcomplete := h.complete
    have hk := hwithin hok
    refine hnot ⟨by omega, ?_, ?_, fun _ => hok⟩
    · rintro rfl
      exact hzero.recipient rfl
    · rintro rfl
      exact hone.header rfl

/-- The code `PJON_BUSY` is handed to a caller that takes it for a length. -/
theorem receive_of_longWithoutCrc (h : LongWithoutCrc bus delivery.bytes) :
    (bus.receive buffer delivery).result = busy ∧
      (bus.receive buffer delivery).events = [] := by
  have hstart : b.packetMaxLength % 65536 = b.packetMaxLength := Nat.mod_eq_of_lt hmax
  have hshift := shift_le delivery.bytes
  have hnotOk : ¬LocalLengthOk b delivery.bytes := by
    intro hok
    have hcrc := hok.longCrc h.long
    rw [h.noCrc] at hcrc
    exact Bool.noConfusion hcrc
  have harrived := h.arrived
  obtain ⟨hzero, hone⟩ := (localHeader_iff bus delivery.bytes).mp h.toLocalHeader
  rcases receiveLoop_verdict bus delivery hmin buffer with
    ⟨st, -, -, hok, -⟩ | ⟨k, e, hrun, hreturned, hnot, hall, -⟩
  · exact absurd hok hnotOk
  · have hk : k = 2 + shift delivery.bytes := by
      rcases Nat.lt_trichotomy k (2 + shift delivery.bytes) with hlt | heq | hgt
      · exfalso
        refine hnot ⟨by omega, ?_, ?_, by omega⟩
        · rintro rfl
          exact hzero.recipient rfl
        · rintro rfl
          exact hone.header rfl
      · exact heq
      · exact absurd ((hall _ hgt).2.length rfl) hnotOk
    have hcode := hreturned.1 ⟨hk, by omega, h.overhead, h.maxLength⟩
    simp only [LocalBus.receive, hstart, hrun, hcode]
    exact ⟨trivial, trivial⟩

theorem receive_of_neither (hadm : ¬LocallyAdmissible bus delivery.bytes)
    (hlong : ¬LongWithoutCrc bus delivery.bytes) :
    (bus.receive buffer delivery).result = 0 ∧ (bus.receive buffer delivery).events = [] := by
  have hstart : b.packetMaxLength % 65536 = b.packetMaxLength := Nat.mod_eq_of_lt hmax
  have hshift := shift_le delivery.bytes
  have hge := packetOverhead_ge (header delivery.bytes)
  rcases receiveLoop_verdict bus delivery hmin buffer with
    ⟨st, hrun, hscan, hok, hall⟩ | ⟨k, e, hrun, hreturned, hnot, hall, -⟩
  · have hover := hok.overhead
    have hmaxLength := hok.maxLength
    have hheader := (localHeader_iff bus delivery.bytes).mpr
      ⟨(hall 0 (by omega)).2, (hall 1 (by omega)).2⟩
    have hcomplete : encodedLength delivery.bytes ≤ delivery.bytes.length := by
      have := (hall (encodedLength delivery.bytes - 1) (by omega)).1
      omega
    have hsettled := settled_of_localScanned hok hheader.mac hscan
    have hsum : Bus.checksumsMatch st = false := by
      rw [Bool.eq_false_iff]
      intro hmatch
      obtain ⟨hfront, hend⟩ :=
        (checksumsMatch_iff (by omega) hcomplete hsettled (by omega)).mp hmatch
      exact hadm ⟨hheader, hcomplete, hok.overhead, hok.maxLength, hok.longCrc, hfront, hend⟩
    simp only [LocalBus.receive, hstart, hrun, hsum, Bool.not_false, if_true]
    exact ⟨trivial, trivial⟩
  · have hcode : e.1 = 0 := by
      apply hreturned.2
      rintro ⟨hk, harrived, hwithin⟩
      have hheader := (localHeader_iff bus delivery.bytes).mpr
        ⟨(hall 0 (by omega)).2, (hall 1 (by omega)).2⟩
      have hnotOk : ¬LocalLengthOk b delivery.bytes :=
        fun hok => hnot ⟨harrived, by omega, by omega, fun _ => hok⟩
      have hbad : ¬(15 < encodedLength delivery.bytes →
          has (header delivery.bytes) crcBit = true) := fun hcrc => hnotOk ⟨hwithin, hcrc⟩
      rw [Classical.not_imp, Bool.not_eq_true] at hbad
      exact hlong ⟨hheader, by omega, hwithin.overhead, hwithin.maxLength, hbad.1, hbad.2⟩
    simp only [LocalBus.receive, hstart, hrun, hcode]
    exact ⟨trivial, trivial⟩

end Receive

/-! ## What is acknowledged and reported -/

section Deliver

variable {bus : LocalBus b} {s : List UInt8} {st : LoopState}

theorem localPort_settled (hlong : 5 ≤ encodedLength s)
    (hover : packetOverhead (header s) ≤ encodedLength s) (h : Settled s st) :
    (Tools.parseHeader b st.data).port = (Tools.parseHeader b (byte s)).port := by
  have hheader := settled_header hlong h
  have hmac := macIndex_le b (header s)
  have hparse := parseHeader_congr b st.data (byte s) fun k hk =>
    h.data k (by rw [hheader] at hk; omega)
  have hport := congrArg PacketInfo.port hparse
  exact hport

theorem deliver_response (bus : LocalBus b) (hlong : 5 ≤ encodedLength s) (h : Settled s st) :
    Event.sendResponse ack ∈ (bus.deliver st).events ↔ localAckDue bus s = true := by
  have hdue : bus.acknowledges st = localAckDue bus s := by
    rw [LocalBus.acknowledges, settled_header hlong h, h.data 0 (by omega), localAckDue]
  have hevents : (bus.deliver st).events =
      if localAckDue bus s then [Event.sendResponse ack] else [] := by
    rw [← hdue, LocalBus.deliver]
    split_ifs <;> rfl
  rw [hevents]
  cases localAckDue bus s <;> simp

theorem deliver_reports (bus : LocalBus b) (hlong : 5 ≤ encodedLength s)
    (hover : packetOverhead (header s) ≤ encodedLength s) (h : Settled s st)
    (payload : List UInt8) :
    LocalBus.Reports (bus.deliver st) payload ↔
      localPortMatches bus s = true ∧ packetOverhead (header s) < encodedLength s ∧
        payload = payloadOf s := by
  have hport := localPort_settled (b := b) hlong hover h
  have hbuffer : (bus.deliver st).buffer = st.data := by
    unfold LocalBus.deliver
    simp only
    split_ifs <;> rfl
  have hmismatch : (b.includePort && bus.port != noPort &&
      bus.port != (Tools.parseHeader b (byte s)).port) = !localPortMatches bus s := by
    simp only [localPortMatches, portOf_eq, Bool.not_or, Bool.not_not]
    rfl
  have hresult : (bus.deliver st).result =
      if localPortMatches bus s then encodedLength s - packetOverhead (header s) else 0 := by
    simp only [LocalBus.deliver, hport, h.length, h.overhead, hmismatch]
    cases localPortMatches bus s <;> rfl
  have hload : st.data.load (LocalBus.getPayload st.data)
      (encodedLength s - packetOverhead (header s)) = payloadOf s := by
    rw [LocalBus.getPayload, settled_header hlong h, payloadOf]
    exact Memory.load_congr fun k hk => h.data _ (by omega)
  rw [LocalBus.Reports, hbuffer, hresult]
  by_cases hmatch : localPortMatches bus s = true
  · rw [if_pos hmatch, hload]
    refine ⟨fun hrep => ⟨hmatch, by omega, hrep.2⟩, fun hrep => ⟨by omega, hrep.2.2⟩⟩
  · rw [if_neg hmatch]
    exact ⟨fun hrep => absurd rfl hrep.1, fun hrep => absurd hrep.1 hmatch⟩

end Deliver

/-! ## The two classes side by side -/

section Compare

variable {bus : Bus b} {loc : LocalBus b'} {s : List UInt8} (hsame : SameDevice bus loc)
  (hmode : has (header s) modeBit = false) (hmac : has (header s) macBit = false)

include hsame hmode hmac

/-- `PJON` admits what `PJONLocal` admits, empty payloads and unknown ports apart. -/
theorem admissible_iff_locally :
    Admissible bus s ↔ LocallyAdmissible loc s ∧ packetOverhead (header s) < encodedLength s ∧
      (has (header s) portBit → b.includePort) := by
  have hnoMac : ¬has (header s) macBit = true := by simp [hmac]
  have hnoMode : ¬has (header s) modeBit = true := by simp [hmode]
  constructor
  · intro h
    refine ⟨⟨⟨?_, hmode, hmac, h.broadcastAck, h.extLenCrc, ?_⟩, h.complete, ?_, ?_, h.longCrc,
      h.frontCrc, h.endCrc⟩, h.overhead, h.port⟩
    · rw [hsame.deviceId]
      rcases h.recipient with hrouter | hown | hall | hbit
      · rw [hsame.router] at hrouter
        exact Bool.noConfusion hrouter
      · exact Or.inr (Or.inl hown)
      · exact Or.inr (Or.inr hall)
      · exact absurd hbit hnoMac
    · intro hid
      have hincluded := h.packetId hid
      rw [hsame.noPacketId] at hincluded
      exact Bool.noConfusion hincluded
    · have hover := h.overhead
      omega
    · rw [hsame.packetMaxLength]
      exact h.maxLength
  · rintro ⟨h, hover, hport⟩
    have hmaxLength := h.maxLength
    rw [hsame.packetMaxLength] at hmaxLength
    refine ⟨h.complete, ?_, h.broadcastAck, h.extLenCrc, fun hbit => absurd hbit hnoMac, ?_, hport,
      fun hbit => absurd hbit hnoMac, Or.inr fun _ => hsame.localMode,
      Or.inr fun hbit => absurd hbit hnoMode, hover, hmaxLength, h.longCrc, h.frontCrc, h.endCrc,
      Or.inr fun hbit => absurd hbit hnoMac⟩
    · rcases h.recipient with hrouter | hown | hall
      · rw [hsame.router'] at hrouter
        exact Bool.noConfusion hrouter
      · rw [hsame.deviceId] at hown
        exact Or.inr (Or.inl hown)
      · exact Or.inr (Or.inr (Or.inl hall))
    · intro hid
      have hincluded := h.packetId hid
      rw [hsame.noPacketId'] at hincluded
      exact Bool.noConfusion hincluded

omit hmac in
theorem portMatches_eq : portMatches bus s = localPortMatches loc s := by
  have hport : portOf b s = portOf b' s := by
    simp only [portOf, portStart, idStart, senderStart, hmode, hsame.noPacketId,
      hsame.noPacketId', hsame.includePort, Bool.and_false, Bool.false_and]
  rw [portMatches, localPortMatches, hport, hsame.port, hsame.includePort]

omit hmode hmac in
theorem ackDue_eq : ackDue bus s = localAckDue loc s := by
  rw [ackDue, localAckDue, hsame.halfDuplex, hsame.router, hsame.router', Bool.and_assoc]

omit hmode hmac in
/-- Without packet ids nothing is a duplicate. -/
theorem recorded_eq_false (h : Admissible bus s) : recorded bus s = false := by
  rw [recorded, Bool.and_eq_false_iff]
  apply Or.inl
  rw [Bool.eq_false_iff]
  intro hid
  have hincluded := h.packetId hid
  rw [hsame.noPacketId] at hincluded
  exact Bool.noConfusion hincluded

end Compare

/-- Nothing is left to disagree about when `PJON` admits the packet. -/
theorem agree_of_admissible {bus : Bus b} {loc : LocalBus b'} {delivery : Delivery}
    {localOutcome : LocalOutcome} (hsame : SameDevice bus loc) (hmin : 4 ≤ b.packetMaxLength)
    (hmax : b.packetMaxLength < 65536)
    (hmode : has (header delivery.bytes) modeBit = false)
    (hadm : Admissible bus delivery.bytes)
    (hresponse : Event.sendResponse ack ∈ localOutcome.events ↔
      localAckDue loc delivery.bytes = true)
    (hreports : ∀ payload, LocalBus.Reports localOutcome payload ↔
      localPortMatches loc delivery.bytes = true ∧
        packetOverhead (header delivery.bytes) < encodedLength delivery.bytes ∧
        payload = payloadOf delivery.bytes) :
    Agree (bus.receive delivery) localOutcome := by
  obtain ⟨info, -, hcaused⟩ := receive_caused bus delivery hmin hmax hadm
  have hover := hadm.overhead
  constructor
  · rw [mem_events_response hcaused, hresponse, ackDue_eq hsame]
  · intro payload
    have hmem : (∃ info, Event.receiver payload info ∈ (bus.receive delivery).events) ↔
        portMatches bus delivery.bytes = true ∧ payload = payloadOf delivery.bytes := by
      rw [mem_events_receiver hcaused payload, or_iff_right (by simp [hsame.router])]
      exact ⟨fun h => ⟨h.1.2, h.2⟩, fun h => ⟨⟨recorded_eq_false hsame hadm, h.1⟩, h.2⟩⟩
    rw [hmem, hreports, portMatches_eq hsame hmode]
    exact ⟨fun h => ⟨h.1, hover, h.2⟩, fun h => ⟨h.1, h.2.2⟩⟩

/-- What only `PJONLocal` admits is an empty payload or a packet with an unknown port. -/
theorem agree_iff_of_not_admissible {bus : Bus b} {loc : LocalBus b'} {s : List UInt8}
    {outcome : Outcome b} {localOutcome : LocalOutcome} (hsame : SameDevice bus loc)
    (hiff : Admissible bus s ↔ LocallyAdmissible loc s ∧
      packetOverhead (header s) < encodedLength s ∧ (has (header s) portBit → b.includePort))
    (hlocal : LocallyAdmissible loc s) (hlong : ¬LongWithoutCrc loc s)
    (hnot : ¬Admissible bus s) (hsilent : outcome.events = [])
    (hresponse : Event.sendResponse ack ∈ localOutcome.events ↔ localAckDue loc s = true)
    (hreports : ∀ payload, LocalBus.Reports localOutcome payload ↔
      localPortMatches loc s = true ∧ packetOverhead (header s) < encodedLength s ∧
        payload = payloadOf s) :
    Agree outcome localOutcome ↔
      ¬(EmptyAcknowledged loc s ∨ PortNotCompiled loc s ∨ LongWithoutCrc loc s) := by
  have hover := hlocal.overhead
  by_cases hempty : encodedLength s = packetOverhead (header s)
  · have hnoReport (payload : List UInt8) : ¬LocalBus.Reports localOutcome payload := by
      rw [hreports]
      omega
    constructor
    · intro hagree hkinds
      have hdue : localAckDue loc s = true := by
        rcases hkinds with ⟨-, -, hdue⟩ | ⟨-, -, -, hdue | hmore⟩ | hcrc
        · exact hdue
        · exact hdue
        · omega
        · exact absurd hcrc hlong
      have hmem := hagree.response.mpr (hresponse.mpr hdue)
      rw [hsilent] at hmem
      simp at hmem
    · intro hkinds
      have hnoDue : ¬localAckDue loc s = true :=
        fun hdue => hkinds (Or.inl ⟨hlocal, hempty, hdue⟩)
      refine ⟨?_, fun payload => ?_⟩
      · rw [hsilent, hresponse]
        exact iff_of_false (by simp) hnoDue
      · rw [hsilent]
        refine iff_of_false ?_ (hnoReport payload)
        rintro ⟨info, hmem⟩
        simp at hmem
  · have hmore : packetOverhead (header s) < encodedLength s := by omega
    have hport : ¬(has (header s) portBit = true → b.includePort = true) :=
      fun hcompiled => hnot (hiff.mpr ⟨hlocal, hmore, hcompiled⟩)
    rw [Classical.not_imp, Bool.not_eq_true] at hport
    have hnone : b'.includePort = false := hsame.includePort.trans hport.2
    apply iff_of_false
    · intro hagree
      have hmatch : localPortMatches loc s = true := by
        rw [localPortMatches, hnone]
        rfl
      obtain ⟨info, hmem⟩ := (hagree.payload _).mpr ((hreports _).mpr ⟨hmatch, hmore, rfl⟩)
      rw [hsilent] at hmem
      simp at hmem
    · exact fun hkinds => hkinds (Or.inr (Or.inl ⟨hlocal, hport.1, hnone, Or.inr hmore⟩))

/-- What neither class admits leaves both silent. -/
theorem agree_of_silent {outcome : Outcome b} {localOutcome : LocalOutcome}
    (hsilent : outcome.events = []) (hevents : localOutcome.events = [])
    (hresult : localOutcome.result = 0) : Agree outcome localOutcome := by
  constructor
  · rw [hsilent, hevents]
  · intro payload
    rw [hsilent]
    constructor
    · rintro ⟨info, hmem⟩
      simp at hmem
    · intro hreport
      exact absurd hresult hreport.1

/-- The caller of `PJONLocal` is told that 666 bytes are there. -/
theorem disagree_of_busy {outcome : Outcome b} {localOutcome : LocalOutcome}
    (hsilent : outcome.events = []) (hresult : localOutcome.result = busy) :
    ¬Agree outcome localOutcome := by
  intro hagree
  have hnonzero : busy ≠ 0 := by decide
  obtain ⟨info, hmem⟩ := (hagree.payload _).mpr ⟨by rwa [hresult], rfl⟩
  rw [hsilent] at hmem
  simp at hmem

theorem not_admissible_of_longWithoutCrc {bus : Bus b} {loc : LocalBus b'} {s : List UInt8}
    (hlong : LongWithoutCrc loc s) : ¬Admissible bus s := by
  intro hadm
  have hcrc := hadm.longCrc hlong.long
  rw [hlong.noCrc] at hcrc
  exact Bool.noConfusion hcrc

/-- The classes agree on a byte sequence exactly when it is none of the three kinds on
which their copies of the filter differ. -/
theorem receive_agree_iff (bus : Bus b) (loc : LocalBus b') (hsame : SameDevice bus loc)
    (hmin : 4 ≤ b.packetMaxLength) (hmax : b.packetMaxLength < 65536) (buffer : Memory)
    (delivery delivery' : Delivery) (hbytes : delivery'.bytes = delivery.bytes)
    (hmode : has (header delivery.bytes) modeBit = false)
    (hmac : has (header delivery.bytes) macBit = false) :
    Agree (bus.receive delivery) (loc.receive buffer delivery') ↔
      ¬(EmptyAcknowledged loc delivery.bytes ∨ PortNotCompiled loc delivery.bytes ∨
        LongWithoutCrc loc delivery.bytes) := by
  have hmin' : 4 ≤ b'.packetMaxLength := by rwa [hsame.packetMaxLength]
  have hmax' : b'.packetMaxLength < 65536 := by rwa [hsame.packetMaxLength]
  have hge := packetOverhead_ge (header delivery.bytes)
  have hiff := admissible_iff_locally hsame hmode hmac
  have hsilent (hnot : ¬Admissible bus delivery.bytes) :=
    events_of_not_admissible bus delivery hmin hmax hnot
  by_cases hlong : LongWithoutCrc loc delivery.bytes
  · have hresult := (receive_of_longWithoutCrc loc delivery' buffer hmin' hmax'
      (by rwa [hbytes])).1
    refine iff_of_false ?_ fun hnone => hnone (Or.inr (Or.inr hlong))
    exact disagree_of_busy (hsilent (not_admissible_of_longWithoutCrc hlong)) hresult
  · by_cases hlocal : LocallyAdmissible loc delivery.bytes
    · obtain ⟨st, hsettled, hrun⟩ := receive_of_locallyAdmissible loc delivery' buffer
        hmin' hmax' (by rwa [hbytes])
      rw [hbytes] at hsettled
      have hover := hlocal.overhead
      have hresponse := deliver_response loc (by omega) hsettled
      have hreports := deliver_reports loc (by omega) hover hsettled
      rw [hrun]
      by_cases hadm : Admissible bus delivery.bytes
      · apply iff_of_true
        · exact agree_of_admissible hsame hmin hmax hmode hadm hresponse hreports
        · obtain ⟨-, hmore, hport⟩ := hiff.mp hadm
          rintro (⟨-, hempty, -⟩ | ⟨-, hbit, hnone, -⟩ | hcrc)
          · omega
          · have hcompiled := hport hbit
            rw [← hsame.includePort, hnone] at hcompiled
            exact Bool.noConfusion hcompiled
          · exact hlong hcrc
      · exact agree_iff_of_not_admissible hsame hiff hlocal hlong hadm (hsilent hadm) hresponse
          hreports
    · have hnot : ¬Admissible bus delivery.bytes := fun hadm => hlocal (hiff.mp hadm).1
      obtain ⟨hresult, hevents⟩ := receive_of_neither loc delivery' buffer
        hmin' hmax' (by rwa [hbytes]) (by rwa [hbytes])
      apply iff_of_true (agree_of_silent (hsilent hnot) hevents hresult)
      rintro (hempty | hport | hcrc)
      · exact hlocal hempty.1
      · exact hlocal hport.1
      · exact hlong hcrc

def fullDevice : Bus defaultBuild := { config := ackReqBit, tx := { id := 45 } }

def limitedDevice : LocalBus { defaultBuild with pjonLocal := true } :=
  { config := ackReqBit, deviceId := 45 }

theorem sameDevice_limited : SameDevice fullDevice limitedDevice := by
  constructor <;> rfl

/-- A packet for device 45 with an empty payload, which asks for an acknowledgement. -/
def emptyRequest : Delivery := ⟨[45, 4, 5, 233, 0], fun _ => 5⟩

theorem receive_agree_iff_emptyRequest :
    Agree (fullDevice.receive emptyRequest) (limitedDevice.receive (fun _ => 0) emptyRequest) ↔
      ¬(EmptyAcknowledged limitedDevice emptyRequest.bytes ∨
        PortNotCompiled limitedDevice emptyRequest.bytes ∨
        LongWithoutCrc limitedDevice emptyRequest.bytes) :=
  receive_agree_iff fullDevice limitedDevice sameDevice_limited (by decide) (by decide)
    (fun _ => 0) emptyRequest emptyRequest rfl (by decide) (by decide)

theorem emptyRequest_disagree :
    SameDevice fullDevice limitedDevice ∧
      ¬Agree (fullDevice.receive emptyRequest)
        (limitedDevice.receive (fun _ => 0) emptyRequest) := by
  refine ⟨sameDevice_limited, ?_⟩
  have hlocal : LocallyAdmissible limitedDevice emptyRequest.bytes := by
    constructor
    · constructor <;> decide
    all_goals decide +kernel
  have hnot : ¬Admissible fullDevice emptyRequest.bytes := by
    intro hadm
    exact absurd hadm.overhead (by decide)
  obtain ⟨st, hsettled, hrun⟩ := receive_of_locallyAdmissible limitedDevice emptyRequest
    (fun _ => 0) (by decide) (by decide) hlocal
  intro hagree
  have hmem := hagree.response.mpr (by
    rw [hrun]
    exact (deliver_response limitedDevice (by decide) hsettled).mpr (by decide))
  rw [events_of_not_admissible fullDevice emptyRequest (by decide) (by decide) hnot] at hmem
  simp at hmem

end Pjon.Proofs.Local
