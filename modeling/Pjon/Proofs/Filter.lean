import Pjon.Spec.Admission
/-!
# The byte loop of `receive`

`Scanned bus s i st` relates the local variables before turn `i` to the bytes
that arrive.  One turn either finds nothing to read, turns the packet down, or
leads from `Scanned` to `Scanned`; which of the three is decided by the bytes
alone (`Passes`), whatever the batches are.
-/

namespace Pjon.Proofs.Filter

open Pjon.Lib Pjon.Model Pjon.Spec

variable {b : Build}

/-! ## What one byte has to satisfy -/

/-- The recipient is another device. -/
def foreign (bus : Bus b) (s : List UInt8) : Bool :=
  byte s 0 != bus.tx.id && byte s 0 != broadcast && !bus.router

structure LengthOk (b : Build) (s : List UInt8) : Prop where
  overhead : packetOverhead (header s) + 1 ≤ encodedLength s
  maxLength : encodedLength s < b.packetMaxLength
  longCrc : 15 < encodedLength s → has (header s) crcBit

/-- The bus id rule for byte `i`. -/
def BusIdOk (bus : Bus b) (s : List UInt8) (i : Nat) : Prop :=
  has (header s) modeBit → bus.router = false → has (header s) macBit = false →
    3 + shift s < i → i < 8 + shift s →
    byte s i = if has bus.config modeBit then bus.tx.busId.toList.getD (i - 4 - shift s) 0 else 0

structure Passes (bus : Bus b) (s : List UInt8) (i : Nat) : Prop where
  header : i = 1 → bus.rejectsHeader (byte s 0) (byte s 1) (foreign bus s) = false
  length : i = 2 + shift s → LengthOk b s
  busId : BusIdOk bus s i

/-! ## Rules as checks on bits -/

/-- A check that turns down `bit` without what it needs. -/
theorem bit_without_iff (bit needed : Bool) :
    (bit && !needed) = false ↔ (bit = true → needed = true) := by
  cases bit <;> simp

theorem without_bit_iff (bit needed : Bool) :
    (!needed && bit) = false ↔ (bit = true → needed = true) := by
  rw [Bool.and_comm, bit_without_iff]

theorem broadcastAck_iff (recipient header : UInt8) :
    (recipient == broadcast && has header ackReqBit) = false ↔
      (recipient = broadcast → has header ackReqBit = false) := by
  rw [Bool.and_eq_false_imp, beq_iff_eq]

/-! ## The local variables before turn `i` -/

structure Flags (bus : Bus b) (s : List UInt8) (i : Nat) (st : LoopState) : Prop where
  length : st.length = if i ≤ 2 + shift s then b.packetMaxLength else encodedLength s
  drop : st.drop = (decide (0 < i) && foreign bus s)
  mac : 2 ≤ i → st.mac = has (header s) macBit
  extendedLength : 2 ≤ i → st.extendedLength = has (header s) extLenBit
  overhead : 2 ≤ i → st.overhead = packetOverhead (header s)

/-- What has been fetched is there. -/
structure Fetched (s : List UInt8) (i : Nat) (st : LoopState) : Prop where
  data : ∀ k < i + st.batchLength, st.data k = byte s k
  available : i + st.batchLength ≤ s.length

structure Scanned (bus : Bus b) (s : List UInt8) (i : Nat) (st : LoopState) : Prop
    extends Flags bus s i st, Fetched s i st

theorem scanned_start (bus : Bus b) (s : List UInt8) (data : Memory) :
    Scanned bus s 0 { data := data, length := b.packetMaxLength } := by
  constructor
  · constructor <;> simp
  · constructor <;> simp

/-! ## Fetching -/

theorem fetch_empty {delivery : Delivery} {i : Nat} {st : LoopState}
    (h : Fetched delivery.bytes i st) (hi : delivery.bytes.length ≤ i) :
    ∃ data, Bus.fetch delivery i st = .error (fail, data) := by
  have hbatch : st.batchLength = 0 := by
    have := h.available
    omega
  have hnil : delivery.receiveFrame i (st.length - i) = [] := by
    simp [Delivery.receiveFrame, List.drop_eq_nil_of_le hi]
  refine ⟨st.data, ?_⟩
  simp [Bus.fetch, hbatch, hnil]

theorem fetch_available {delivery : Delivery} {i : Nat} {st : LoopState}
    (h : Fetched delivery.bytes i st) (hi : i < delivery.bytes.length)
    (hlen : i < st.length) :
    ∃ data batchLength, Bus.fetch delivery i st = .ok { st with data, batchLength } ∧
      i + 1 + batchLength ≤ delivery.bytes.length ∧
      ∀ k < i + 1 + batchLength, data k = byte delivery.bytes k := by
  have hdata := h.data
  have havail := h.available
  by_cases hbatch : st.batchLength = 0
  · let chunk := delivery.receiveFrame i (st.length - i)
    have hfail : fail = 65535 := rfl
    have hchunk : chunk.length =
        min (min (min (st.length - i) (fail - 1)) (max 1 (delivery.batch i)))
          (delivery.bytes.length - i) := by
      simp [chunk, Delivery.receiveFrame]
    have hpos : 0 < chunk.length := by omega
    have hne : ¬(chunk.length = fail ∨ chunk.length = 0) := by omega
    refine ⟨st.data.store i chunk, chunk.length - 1, ?_, by omega, ?_⟩
    · simp only [Bus.fetch]
      rw [if_pos hbatch, if_neg hne]
    · intro k hk
      by_cases hki : k < i
      · rw [Memory.store_outside _ _ _ (Or.inl hki), hdata k (by omega)]
      · obtain ⟨j, rfl⟩ := Nat.exists_eq_add_of_le (Nat.le_of_not_lt hki)
        rw [Memory.store_inside _ _ _ (by omega), byte]
        simp only [chunk, Delivery.receiveFrame, List.getD_eq_getElem?_getD]
        rw [List.getElem?_take_of_lt (by omega), List.getElem?_drop]
  · refine ⟨st.data, st.batchLength - 1, ?_, by omega, ?_⟩
    · simp only [Bus.fetch]
      rw [if_neg hbatch]
    · intro k hk
      exact hdata k (by omega)

/-! ## Examining -/

section Examine

variable {bus : Bus b} {s : List UInt8} {i : Nat} {st : LoopState}

/-- Byte `i` is there and the flags are those before turn `i`. -/
structure Ready (bus : Bus b) (s : List UInt8) (i : Nat) (st : LoopState) : Prop
    extends Flags bus s i st where
  data : ∀ k ≤ i, st.data k = byte s k

theorem shift_le (s : List UInt8) : shift s ≤ 1 := by
  unfold shift
  cases has (header s) extLenBit <;> simp

theorem shift_eq_zero_iff (s : List UInt8) : shift s = 0 ↔ has (header s) extLenBit = false := by
  unfold shift
  cases has (header s) extLenBit <;> simp

theorem rejectsBusId_eq_false_iff (h : Ready bus s i st) (hi : 2 ≤ i) :
    bus.rejectsBusId i st = false ↔ BusIdOk bus s i := by
  have h1 : st.data 1 = header s := h.data 1 (by omega)
  have hi' : st.data i = byte s i := h.data i le_rfl
  have hshift : st.extendedLength.toNat = shift s := by rw [h.extendedLength hi, shift]
  have hbyte : (if has bus.config modeBit then
        bus.tx.busId.toList.getD (i - 4 - shift s) 0 != byte s i
      else byte s i != 0) = true ↔
      ¬byte s i =
        if has bus.config modeBit then bus.tx.busId.toList.getD (i - 4 - shift s) 0 else 0 := by
    cases has bus.config modeBit
    · exact bne_iff_ne
    · exact bne_iff_ne.trans ne_comm
  rw [Bool.eq_false_iff, BusIdOk, Bus.rejectsBusId, h1, hi', h.mac hi, hshift]
  simp only [ne_eq, Bool.and_eq_true, Bool.not_eq_true', decide_eq_true_eq, hbyte]
  tauto

/-- Before the bus id bytes the check never applies. -/
theorem rejectsBusId_early (bus : Bus b) (st : LoopState) (hi : i ≤ 3) :
    bus.rejectsBusId i st = false := by
  have : ¬(3 + st.extendedLength.toNat < i) := by omega
  simp [Bus.rejectsBusId, this]

theorem busId_skipped (bus : Bus b) (hi : i ≤ 3) (checked : Except Return LoopState) :
    (checked.bind fun st => if bus.rejectsBusId i st then .error (busy, st.data) else .ok st) =
      checked := by
  cases checked with
  | error e => rfl
  | ok st => exact if_neg (by rw [rejectsBusId_early bus st hi]; exact Bool.false_ne_true)

theorem busIdOk_early (bus : Bus b) (s : List UInt8) (hi : i ≤ 3) : BusIdOk bus s i := by
  intro _ _ _ h3 _
  omega

/-- The length check, with the length field of `s`. -/
theorem checkLength_eq (hhead : st.data 1 = header s)
    (hover : st.overhead = packetOverhead (header s)) :
    (LengthOk b s → Bus.checkLength b (encodedLength s) st =
      .ok { st with length := encodedLength s }) ∧
    (¬LengthOk b s → Bus.checkLength b (encodedLength s) st = .error (busy, st.data)) := by
  simp only [Bus.checkLength, hhead, hover]
  constructor
  · rintro ⟨ho, hm, hc⟩
    rw [if_neg (by omega), if_neg]
    rintro ⟨hlong, hno⟩
    simp [hc hlong] at hno
  · intro hnot
    by_cases hrange : encodedLength s < packetOverhead (header s) + 1 ∨
        b.packetMaxLength ≤ encodedLength s
    · rw [if_pos hrange]
    · rw [if_neg hrange, if_pos]
      by_contra hcrc
      apply hnot
      refine ⟨by omega, by omega, fun hlong => ?_⟩
      by_contra hno
      exact hcrc ⟨hlong, by simpa using hno⟩

theorem noHeader_rejected (bus : Bus b) (recipient : UInt8) (drop : Bool) :
    bus.rejectsHeader recipient noHeader drop = true := by
  have hext : has noHeader extLenBit = true := by decide
  have hcrc : has noHeader crcBit = false := by decide
  simp [Bus.rejectsHeader, hext, hcrc]

/-- What one turn makes of the flags, by the verdict on its byte. -/
def Verdict (bus : Bus b) (s : List UInt8) (i : Nat) (st : LoopState) : Prop :=
  (Passes bus s i → ∃ st', bus.examine i st = .ok st' ∧ st'.data = st.data ∧
    st'.batchLength = st.batchLength ∧ Flags bus s (i + 1) st') ∧
  (¬Passes bus s i → ∃ data, bus.examine i st = .error (busy, data))

theorem examine_zero (h : Ready bus s 0 st) : Verdict bus s 0 st := by
  have h0 : st.data 0 = byte s 0 := h.data 0 le_rfl
  have hdrop : (if byte s 0 != bus.tx.id && byte s 0 != broadcast && !bus.router then
      { st with drop := true } else st).drop = foreign bus s := by
    have hinit : st.drop = false := by simpa using h.drop
    unfold foreign
    split_ifs with hforeign
    · simp [hforeign]
    · simpa [hinit] using hforeign
  constructor
  · intro _
    refine ⟨bus.checkRecipient st, ?_, ?_, ?_, ?_⟩
    · simp [Bus.examine, rejectsBusId_early]
      rfl
    · unfold Bus.checkRecipient
      split_ifs <;> rfl
    · unfold Bus.checkRecipient
      split_ifs <;> rfl
    · constructor
      · have hlen := h.length
        have : (bus.checkRecipient st).length = st.length := by
          unfold Bus.checkRecipient
          split_ifs <;> rfl
        rw [this, hlen, if_pos (by omega), if_pos (by omega)]
      · simpa [Bus.checkRecipient, h0] using hdrop
      all_goals omega
  · intro hnot
    exact absurd ⟨by omega, by omega, busIdOk_early bus s (by omega)⟩ hnot

theorem examine_one (h : Ready bus s 1 st) : Verdict bus s 1 st := by
  have h0 : st.data 0 = byte s 0 := h.data 0 (by omega)
  have h1 : st.data 1 = header s := h.data 1 le_rfl
  have hdrop : st.drop = foreign bus s := by simpa using h.drop
  have hpasses : Passes bus s 1 ↔
      bus.rejectsHeader (byte s 0) (header s) (foreign bus s) = false :=
    ⟨fun hp => hp.header rfl, fun hp => ⟨fun _ => hp, by omega, busIdOk_early bus s (by omega)⟩⟩
  rw [Verdict, hpasses]
  constructor
  · intro hp
    have hheader : (if header s == noHeader then bus.config else header s) = header s := by
      rw [if_neg]
      intro heq
      rw [beq_iff_eq] at heq
      rw [heq, noHeader_rejected] at hp
      exact Bool.noConfusion hp
    refine ⟨{ st with
      mac := has (header s) macBit
      extendedLength := has (header s) extLenBit
      overhead := packetOverhead (header s) }, ?_, rfl, rfl, ?_⟩
    · simp [Bus.examine, Bus.checkHeader, h0, h1, hdrop, hp, rejectsBusId_early]
      rw [show (if header s = noHeader then bus.config else header s) = header s by
        simpa using hheader]
    · constructor
      · rw [if_pos (by omega)]
        exact h.length.trans (if_pos (by omega))
      · simpa using hdrop
      all_goals exact fun _ => rfl
  · intro hp
    refine ⟨st.data, ?_⟩
    simp only [Bool.not_eq_false] at hp
    simp [Bus.examine, Bus.checkHeader, h0, h1, hdrop, hp]
    rfl

/-- The limit of the loop changes at the length field only. -/
theorem limit_succ (b : Build) (hne : i ≠ 2 + shift s) :
    (if i ≤ 2 + shift s then b.packetMaxLength else encodedLength s) =
      if i + 1 ≤ 2 + shift s then b.packetMaxLength else encodedLength s := by
  by_cases hearly : i ≤ 2 + shift s
  · rw [if_pos hearly, if_pos (by omega)]
  · rw [if_neg hearly, if_neg (by omega)]

theorem flags_of_length {length : Nat} (h : Ready bus s i st) (hi : 2 ≤ i)
    (hlength : length = if i + 1 ≤ 2 + shift s then b.packetMaxLength else encodedLength s) :
    Flags bus s (i + 1) { st with length := length } := by
  constructor
  · exact hlength
  · rw [h.drop, decide_eq_true (by omega : 0 < i), decide_eq_true (by omega : 0 < i + 1)]
  · exact fun _ => h.mac hi
  · exact fun _ => h.extendedLength hi
  · exact fun _ => h.overhead hi

/-- A byte that no check looks at. -/
theorem verdict_of_skipped (h : Ready bus s i st) (hi : 2 ≤ i) (hi3 : i ≤ 3)
    (hne : i ≠ 2 + shift s) (hskip : bus.examine i st = .ok st) : Verdict bus s i st := by
  have hpasses : Passes bus s i :=
    ⟨by omega, fun heq => absurd heq hne, busIdOk_early bus s hi3⟩
  refine ⟨fun _ => ⟨st, hskip, rfl, rfl, ?_⟩, fun hnot => absurd hpasses hnot⟩
  exact flags_of_length h hi (h.length.trans (limit_succ b hne))

/-- The byte that completes the length field. -/
theorem verdict_of_length (h : Ready bus s i st) (heq : i = 2 + shift s)
    (hexamine : bus.examine i st = (Bus.checkLength b (encodedLength s) st).bind fun st =>
      if bus.rejectsBusId i st then .error (busy, st.data) else .ok st) :
    Verdict bus s i st := by
  have hshift := shift_le s
  have hi : 2 ≤ i := by omega
  have hpasses : Passes bus s i ↔ LengthOk b s :=
    ⟨fun hp => hp.length heq,
      fun hp => ⟨by omega, fun _ => hp, busIdOk_early bus s (by omega)⟩⟩
  obtain ⟨hok, herror⟩ := checkLength_eq (b := b) (h.data 1 (by omega)) (h.overhead hi)
  rw [Verdict, hpasses, hexamine, busId_skipped bus (by omega)]
  constructor
  · intro hp
    refine ⟨_, hok hp, rfl, rfl, ?_⟩
    exact flags_of_length h hi (by rw [if_neg (by omega)])
  · intro hp
    exact ⟨st.data, herror hp⟩

theorem examine_two (h : Ready bus s 2 st) : Verdict bus s 2 st := by
  have h2 : st.data 2 = byte s 2 := h.data 2 le_rfl
  have hext := h.extendedLength le_rfl
  cases hbit : has (header s) extLenBit
  · have hlen : encodedLength s = (byte s 2).toNat := by simp [encodedLength, hbit]
    apply verdict_of_length h (by rw [(shift_eq_zero_iff s).mpr hbit])
    rw [hbit] at hext
    simp [Bus.examine, hext, h2, ← hlen]
    rfl
  · have hshift : shift s = 1 := by simp [shift, hbit]
    apply verdict_of_skipped h le_rfl (by omega) (by omega)
    rw [hbit] at hext
    simp [Bus.examine, hext, rejectsBusId_early]
    rfl

theorem examine_three (h : Ready bus s 3 st) : Verdict bus s 3 st := by
  have h2 : st.data 2 = byte s 2 := h.data 2 (by omega)
  have h3 : st.data 3 = byte s 3 := h.data 3 le_rfl
  have hext := h.extendedLength (by omega)
  cases hbit : has (header s) extLenBit
  · have hshift : shift s = 0 := (shift_eq_zero_iff s).mpr hbit
    apply verdict_of_skipped h (by omega) le_rfl (by omega)
    rw [hbit] at hext
    simp [Bus.examine, hext, rejectsBusId_early]
    rfl
  · have hlen : encodedLength s = (ofBigEndian (byte s 2) (byte s 3)).toNat := by
      simp [encodedLength, hbit]
    have hshift : shift s = 1 := by simp [shift, hbit]
    apply verdict_of_length h (by omega)
    rw [hbit] at hext
    simp [Bus.examine, hext, h2, h3, ← hlen]
    rfl

/-- Behind the length field only the bus id rule is left. -/
theorem examine_later (h : Ready bus s i st) (hi : 4 ≤ i) : Verdict bus s i st := by
  have hshift := shift_le s
  have hpasses : Passes bus s i ↔ BusIdOk bus s i :=
    ⟨fun hp => hp.busId, fun hp => ⟨by omega, by omega, hp⟩⟩
  have hreject := rejectsBusId_eq_false_iff h (by omega)
  have hskip : bus.examine i st =
      if bus.rejectsBusId i st then .error (busy, st.data) else .ok st := by
    have n0 : i ≠ 0 := by omega
    have n1 : i ≠ 1 := by omega
    have n2 : i ≠ 2 := by omega
    have n3 : i ≠ 3 := by omega
    simp [Bus.examine, n0, n1, n2, n3]
    rfl
  rw [Verdict, hpasses, ← hreject, hskip]
  constructor
  · intro hp
    refine ⟨st, by rw [if_neg (by simp [hp])], rfl, rfl, ?_⟩
    apply flags_of_length h (by omega)
    rw [h.length, if_neg (by omega), if_neg (by omega)]
  · intro hp
    exact ⟨st.data, by rw [if_pos (by simpa using hp)]⟩

theorem examine_verdict (h : Ready bus s i st) : Verdict bus s i st := by
  rcases i with _ | _ | _ | _ | i
  · exact examine_zero h
  · exact examine_one h
  · exact examine_two h
  · exact examine_three h
  · exact examine_later h (by omega)

end Examine

/-! ## One turn of the loop -/

/-- A byte that is there and passes. -/
theorem receiveByte_of_passes {bus : Bus b} {delivery : Delivery} {i : Nat} {st : LoopState}
    (h : Scanned bus delivery.bytes i st) (hlen : i < st.length) (hi : i < delivery.bytes.length)
    (hpasses : Passes bus delivery.bytes i) :
    ∃ fetched st', Bus.fetch delivery i st = .ok fetched ∧
      bus.receiveByte delivery i st = .ok st' ∧ st'.data = fetched.data ∧
      st'.batchLength = fetched.batchLength ∧ Scanned bus delivery.bytes (i + 1) st' := by
  obtain ⟨data, batchLength, hfetch, havail, hdata⟩ := fetch_available h.toFetched hi hlen
  have hready : Ready bus delivery.bytes i { st with data := data, batchLength := batchLength } :=
    { length := h.length, drop := h.drop, mac := h.mac, extendedLength := h.extendedLength
      overhead := h.overhead, data := fun k hk => hdata k (by omega) }
  obtain ⟨st', hok, hsame, hbatch, hflags⟩ := (examine_verdict hready).1 hpasses
  refine ⟨_, st', hfetch, ?_, hsame, hbatch, { toFlags := hflags, toFetched := ⟨?_, ?_⟩ }⟩
  · rw [Bus.receiveByte, hfetch]
    exact hok
  · rw [hsame, hbatch]
    exact hdata
  · rw [hbatch]
    exact havail

/-- The code of a turn that does not pass. -/
def refusal (s : List UInt8) (i : Nat) : Nat := if i < s.length then busy else fail

theorem refusal_ne_ack (s : List UInt8) (i : Nat) : refusal s i ≠ ack := by
  unfold refusal
  split_ifs <;> decide

theorem receiveByte_of_refused {bus : Bus b} {delivery : Delivery} {i : Nat} {st : LoopState}
    (h : Scanned bus delivery.bytes i st) (hlen : i < st.length)
    (hnot : ¬(i < delivery.bytes.length ∧ Passes bus delivery.bytes i)) :
    ∃ data, bus.receiveByte delivery i st = .error (refusal delivery.bytes i, data) := by
  by_cases hi : i < delivery.bytes.length
  · obtain ⟨data, batchLength, hfetch, -, hdata⟩ := fetch_available h.toFetched hi hlen
    have hready : Ready bus delivery.bytes i { st with data := data, batchLength := batchLength } :=
      { length := h.length, drop := h.drop, mac := h.mac, extendedLength := h.extendedLength
        overhead := h.overhead, data := fun k hk => hdata k (by omega) }
    obtain ⟨left, herror⟩ := (examine_verdict hready).2 fun hp => hnot ⟨hi, hp⟩
    refine ⟨left, ?_⟩
    rw [Bus.receiveByte, hfetch, refusal, if_pos hi]
    exact herror
  · obtain ⟨data, hfetch⟩ := fetch_empty h.toFetched (by omega)
    refine ⟨data, ?_⟩
    rw [Bus.receiveByte, hfetch, refusal, if_neg hi]
    rfl

/-! ## The whole loop -/

instance (b : Build) (s : List UInt8) : Decidable (LengthOk b s) :=
  decidable_of_iff (packetOverhead (header s) + 1 ≤ encodedLength s ∧
      encodedLength s < b.packetMaxLength ∧
      (15 < encodedLength s → has (header s) crcBit))
    ⟨fun h => ⟨h.1, h.2.1, h.2.2⟩, fun h => ⟨h.overhead, h.maxLength, h.longCrc⟩⟩

/-- The turn behind which the loop has nothing to do. -/
def lastTurn (b : Build) (s : List UInt8) : Nat :=
  if LengthOk b s then encodedLength s else 3 + shift s

/-- A packet reaches beyond its length field. -/
theorem lengthField_lt {s : List UInt8} (hover : packetOverhead (header s) ≤ encodedLength s) :
    2 + shift s < encodedLength s := by
  have hshift := shift_le s
  have hge := packetOverhead_ge (header s)
  omega

/-- The limit of the loop is the encoded length once that has been read. -/
theorem lt_limit_iff {s : List UInt8} {ok : Prop} [Decidable ok] {i limit start : Nat}
    (hmin : 4 ≤ start) (hlimit : limit = if i ≤ 2 + shift s then start else encodedLength s)
    (hfar : ok → 2 + shift s < encodedLength s) (hread : 2 + shift s < i → ok) :
    i < limit ↔ i < if ok then encodedLength s else 3 + shift s := by
  have hshift := shift_le s
  by_cases hearly : i ≤ 2 + shift s
  · rw [hlimit, if_pos hearly]
    by_cases hok : ok
    · have hlong := hfar hok
      rw [if_pos hok]
      exact ⟨fun _ => by omega, fun _ => by omega⟩
    · rw [if_neg hok]
      exact ⟨fun _ => by omega, fun _ => by omega⟩
  · rw [hlimit, if_neg hearly, if_pos (hread (by omega))]

theorem lengthField_lt_of_lengthOk {s : List UInt8} (hok : LengthOk b s) :
    2 + shift s < encodedLength s := by
  have hover := hok.overhead
  exact lengthField_lt (by omega)

theorem lt_length_iff {bus : Bus b} {s : List UInt8} {i : Nat} {st : LoopState}
    (hmin : 4 ≤ b.packetMaxLength) (h : Flags bus s i st)
    (hall : ∀ k < i, k < s.length ∧ Passes bus s k) : i < st.length ↔ i < lastTurn b s :=
  lt_limit_iff hmin h.length lengthField_lt_of_lengthOk fun hread =>
    (hall (2 + shift s) hread).2.length rfl

/-- The loop ends with the first turn that does not pass, or at the encoded length; `kept` is
whatever else the turns keep. -/
theorem receiveLoop_turns {bus : Bus b} {delivery : Delivery} (kept : Nat → LoopState → Prop)
    (hmin : 4 ≤ b.packetMaxLength)
    (hkept : ∀ i st fetched st', Scanned bus delivery.bytes i st → i < st.length →
      (2 + shift delivery.bytes < i → LengthOk b delivery.bytes) → kept i st →
      Bus.fetch delivery i st = .ok fetched → st'.data = fetched.data →
      st'.batchLength = fetched.batchLength → kept (i + 1) st')
    {st : LoopState} (h : Scanned bus delivery.bytes 0 st) (hstart : kept 0 st) :
    (∃ final, bus.receiveLoop delivery b.packetMaxLength 0 st = .ok final ∧
        Scanned bus delivery.bytes (encodedLength delivery.bytes) final ∧
        kept (encodedLength delivery.bytes) final ∧
        LengthOk b delivery.bytes ∧ ∀ k < encodedLength delivery.bytes,
          k < delivery.bytes.length ∧ Passes bus delivery.bytes k) ∨
    (∃ k data, bus.receiveLoop delivery b.packetMaxLength 0 st =
        .error (refusal delivery.bytes k, data) ∧ k < lastTurn b delivery.bytes ∧
      ¬(k < delivery.bytes.length ∧ Passes bus delivery.bytes k) ∧
      ∀ j < k, j < delivery.bytes.length ∧ Passes bus delivery.bytes j) := by
  have hshift := shift_le delivery.bytes
  have hstop : lastTurn b delivery.bytes ≤ 0 + b.packetMaxLength := by
    unfold lastTurn
    split_ifs with hok
    · have := hok.maxLength
      omega
    · omega
  have hverdict := boundedLoop_verdict LoopState.length (bus.receiveByte delivery)
    (fun i st => Scanned bus delivery.bytes i st ∧ kept i st ∧
      (2 + shift delivery.bytes < i → LengthOk b delivery.bytes))
    (fun k => k < delivery.bytes.length ∧ Passes bus delivery.bytes k)
    (fun k e => e.1 = refusal delivery.bytes k) (lastTurn b delivery.bytes)
    (fun i st ⟨hscan, hkeep, hlength⟩ hturn ⟨hi, hpasses⟩ => by
      obtain ⟨fetched, st', hfetch, hrun, hdata, hbatch, hnext⟩ :=
        receiveByte_of_passes hscan hturn hi hpasses
      refine ⟨st', hrun, hnext, hkept i st fetched st' hscan hturn hlength hkeep hfetch hdata
        hbatch, fun hlate => ?_⟩
      rcases Nat.eq_or_lt_of_le (Nat.le_of_lt_succ hlate) with heq | hlt
      · exact hpasses.length heq.symm
      · exact hlength hlt)
    (fun i st ⟨hscan, _, _⟩ hturn hnot => by
      obtain ⟨data, herror⟩ := receiveByte_of_refused hscan hturn hnot
      exact ⟨(refusal delivery.bytes i, data), herror, rfl⟩)
    (fun i st hinv hall _ => lt_length_iff hmin hinv.1.toFlags hall)
    b.packetMaxLength 0 st ⟨h, hstart, by omega⟩ (fun k hk => by omega) (Nat.zero_le _) hstop
  rcases hverdict with ⟨final, hrun, ⟨hscan, hkeep, -⟩, hall⟩ |
    ⟨k, e, hrun, hcode, hk, hnot, hall⟩
  · have hok : LengthOk b delivery.bytes := by
      by_contra hbad
      rw [lastTurn, if_neg hbad] at hall
      exact hbad ((hall (2 + shift delivery.bytes) (by omega)).2.length rfl)
    rw [lastTurn, if_pos hok] at hscan hkeep hall
    exact Or.inl ⟨final, hrun, hscan, hkeep, hok, hall⟩
  · refine Or.inr ⟨k, e.2, ?_, hk, hnot, hall⟩
    rw [← hcode]
    exact hrun

/-- The loop succeeds exactly when every byte up to the encoded length is there and
passes; it then stops at that length. -/
theorem receiveLoop_verdict {bus : Bus b} {delivery : Delivery} {st : LoopState}
    (hmin : 4 ≤ b.packetMaxLength) (h : Scanned bus delivery.bytes 0 st) :
    (∃ final, bus.receiveLoop delivery b.packetMaxLength 0 st = .ok final ∧
        Scanned bus delivery.bytes (encodedLength delivery.bytes) final ∧
        LengthOk b delivery.bytes ∧ ∀ k < encodedLength delivery.bytes,
          k < delivery.bytes.length ∧ Passes bus delivery.bytes k) ∨
    (∃ code data, bus.receiveLoop delivery b.packetMaxLength 0 st = .error (code, data) ∧
      code ≠ ack ∧ ¬(LengthOk b delivery.bytes ∧ ∀ k < encodedLength delivery.bytes,
        k < delivery.bytes.length ∧ Passes bus delivery.bytes k)) := by
  rcases receiveLoop_turns (fun _ _ => True) hmin (fun _ _ _ _ _ _ _ _ _ _ _ => trivial) h
    trivial with ⟨final, hrun, hscan, -, hok, hall⟩ | ⟨k, data, hrun, hk, hnot, -⟩
  · exact Or.inl ⟨final, hrun, hscan, hok, hall⟩
  · refine Or.inr ⟨_, data, hrun, refusal_ne_ack _ k, ?_⟩
    rintro ⟨hok, hevery⟩
    rw [lastTurn, if_pos hok] at hk
    exact hnot (hevery k hk)

end Pjon.Proofs.Filter
