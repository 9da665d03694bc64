import Pjon.Proofs.Distance
import Pjon.Lib.Elimination
/-!
# Bursts that reach into the checksum

The register of the CRC32 takes the least significant bit of a byte first, and its own bytes
follow the data with the most significant one first.  The bits of the checksum are therefore
not in the order in which the register would take them, and a burst of 32 bits that begins in
the data and ends in the checksum can go unnoticed.
-/

namespace Pjon.Proofs.Bursts

open Pjon.Lib Pjon.Lib.Remainder Pjon.Lib.Elimination Pjon.Model Pjon.Spec
open Pjon.Proofs.Distance

/-! ## Differences as bytes -/

theorem bitsOf_zipWith (s t : List UInt8) : bitsOf (s.zipWith (· ^^^ ·) t) = differences s t := by
  induction s generalizing t with
  | nil => rfl
  | cons byte s ih =>
      cases t with
      | nil =>
          rw [List.zipWith_nil_right, differences, show bitsOf [] = [] from rfl,
            List.zipWith_nil_right]
      | cons byte' t =>
          rw [List.zipWith_cons_cons, bitsOf_cons, ih, differences_cons, UInt8.toBitVec_xor]

theorem getD_bitsOf (s : List UInt8) (j : Nat) :
    (bitsOf s).getD j false = (s.getD (j / 8) 0).toBitVec.getLsbD (j % 8) := by
  induction s generalizing j with
  | nil => simp [bitsOf]
  | cons byte s ih =>
      rw [bitsOf_cons]
      by_cases hj : j < 8
      · rw [List.getD_append _ _ _ _ (by rwa [length_lowBits]), getD_lowBits, decide_eq_true hj,
          Nat.div_eq_of_lt hj, Nat.mod_eq_of_lt hj]
        rfl
      · obtain ⟨k, rfl⟩ : ∃ k, j = k + 8 := ⟨j - 8, by omega⟩
        rw [List.getD_append_right _ _ _ _ (by rw [length_lowBits]; omega), length_lowBits,
          Nat.add_sub_cancel, ih, Nat.add_mod_right, Nat.add_div_right k (by decide)]
        rfl

theorem bytes_xor (c c' : UInt32) :
    Crc32.bytes (c ^^^ c') = (Crc32.bytes c).zipWith (· ^^^ ·) (Crc32.bytes c') := by
  have hshift (k : UInt32) :
      ((c ^^^ c') >>> k).toUInt8 = (c >>> k).toUInt8 ^^^ (c' >>> k).toUInt8 := by
    rw [UInt32.shiftRight_xor, UInt32.toUInt8_xor]
  rw [Crc32.bytes, hshift, hshift, hshift, UInt32.toUInt8_xor]
  rfl

/-- Where bit `j` of the checksum, in the order of the bytes, is in the register. -/
def registerBit (j : Nat) : Nat := 24 - 8 * (j / 8) + j % 8

theorem getD_bitsOf_bytes (c : UInt32) {j : Nat} (hj : j < 32) :
    (bitsOf (Crc32.bytes c)).getD j false = c.toBitVec.getLsbD (registerBit j) := by
  have hlt : j % 8 < 8 := Nat.mod_lt _ (by decide)
  rw [getD_bitsOf, registerBit]
  obtain h | h | h | h : j / 8 = 0 ∨ j / 8 = 1 ∨ j / 8 = 2 ∨ j / 8 = 3 := by omega
  · rw [h]
    simp [Crc32.bytes, hlt]
  · rw [h]
    simp [Crc32.bytes, hlt]
  · rw [h]
    simp [Crc32.bytes, hlt]
  · rw [h]
    simp [Crc32.bytes, hlt]

/-! ## The last eight bytes -/

/-- The differences between the checksums that those in the last four bytes of the data make. -/
def remainderOf (x : BitVec 32) : UInt32 := UInt32.ofBitVec ((shiftOut pattern32)^[32] x)

/-- The bits that differ in the last eight bytes. -/
def lastBits (x : BitVec 32) : List Bool := lowBits 32 x ++ bitsOf (Crc32.bytes (remainderOf x))

/-- The same, with the bits of the checksum in the order in which they are in the register. -/
def window (x : BitVec 32) : BitVec 64 := (remainderOf x).toBitVec ++ x

theorem window_xor (x y : BitVec 32) : window (x ^^^ y) = window x ^^^ window y := by
  have hremainder : (remainderOf (x ^^^ y)).toBitVec =
      (remainderOf x).toBitVec ^^^ (remainderOf y).toBitVec := iterate_xor 32
  rw [window, hremainder, window, window]
  exact (BitVec.xor_append).symm

def place (j : Nat) : Nat := if j < 32 then j else 32 + registerBit (j - 32)

theorem getLsbD_window (x : BitVec 32) {j : Nat} (hj : j < 64) :
    (window x).getLsbD (place j) = (lastBits x).getD j false := by
  rw [window, place, lastBits]
  split_ifs with hlow
  · rw [List.getD_append _ _ _ _ (by rwa [length_lowBits]), getD_lowBits, decide_eq_true hlow,
      Bool.true_and, BitVec.getLsbD_append, if_pos hlow]
  · rw [List.getD_append_right _ _ _ _ (by rw [length_lowBits]; omega), length_lowBits,
      getD_bitsOf_bytes _ (by omega), BitVec.getLsbD_append, if_neg (by omega),
      Nat.add_sub_cancel_left]

/-- The places of the bits that are not among the 32 from bit `p` on. -/
def outside (p : Nat) : List Nat :=
  ((List.range 64).filter fun j => decide (j < p ∨ p + 32 ≤ j)).map place

def unnoticed (x : BitVec 64) : Bool :=
  x == 0 || unnoticedBursts.any fun pattern => bitsOf pattern ==
    lowBits 32 x ++ bitsOf (Crc32.bytes (UInt32.ofBitVec ((x >>> 32).setWidth 32)))

/-- What an elimination finds for each burst that reaches into the checksum. -/
theorem all_unnoticed : ((List.range 33).all fun p =>
    (sums (clearAll (outside p) (images window 32))).all unnoticed) = true := by
  decide +kernel

theorem burst_of_lastBits (x : BitVec 32) {p : Nat} (hp : p ≤ 32)
    (hburst : ∀ j, (lastBits x).getD j false = true → p ≤ j ∧ j < p + 32) :
    x = 0#32 ∨ ∃ pattern ∈ unnoticedBursts, lastBits x = bitsOf pattern := by
  have hsum : window x ∈ sums (clearAll (outside p) (images window 32)) := by
    refine mem_sums_clearAll (mem_sums_images window_xor 32 x fun i hi =>
      BitVec.getLsbD_of_ge x i hi) fun i hi => ?_
    obtain ⟨j, hj, rfl⟩ := List.mem_map.mp hi
    rw [List.mem_filter, List.mem_range, decide_eq_true_eq] at hj
    rw [getLsbD_window x hj.1, ← Bool.not_eq_true]
    intro hset
    have hinside := hburst j hset
    omega
  have hmem : p ∈ List.range 33 := List.mem_range.mpr (by omega)
  have hfound := List.all_eq_true.mp (List.all_eq_true.mp all_unnoticed p hmem) _ hsum
  have hlow : lowBits 32 (window x) = lowBits 32 x := by
    apply lowBits_congr
    intro i hi
    rw [window, BitVec.getLsbD_append, if_pos hi]
  have hhigh : ((window x) >>> 32).setWidth 32 = (remainderOf x).toBitVec := by
    apply BitVec.eq_of_getLsbD_eq
    intro i hi
    rw [BitVec.getLsbD_setWidth, BitVec.getLsbD_ushiftRight, window, BitVec.getLsbD_append,
      if_neg (by omega), Nat.add_sub_cancel_left, decide_eq_true hi, Bool.true_and]
  rw [unnoticed, Bool.or_eq_true, beq_iff_eq, List.any_eq_true] at hfound
  rcases hfound with hzero | ⟨pattern, hpattern, hbits⟩
  · refine Or.inl (lowBits_inj ?_)
    rw [← hlow, hzero]
    rfl
  · refine Or.inr ⟨pattern, hpattern, ?_⟩
    rw [beq_iff_eq.mp hbits, hlow, hhigh]
    rfl

/-! ## Data in front of a checksum -/

theorem eq_replicate_of_count {bits : List Bool} (h : bits.count true = 0) :
    bits = List.replicate bits.length false := by
  refine List.eq_replicate_iff.mpr ⟨rfl, fun bit hbit => ?_⟩
  cases bit with
  | false => rfl
  | true => exact absurd hbit (List.count_eq_zero.mp h)

theorem count_eq_zero_of_getD {bits : List Bool} (h : ∀ i, ¬bits.getD i false = true) :
    bits.count true = 0 := by
  apply List.count_eq_zero.mpr
  intro hmem
  obtain ⟨i, hi, hbit⟩ := List.getElem_of_mem hmem
  apply h i
  rw [List.getD_eq_getElem?_getD, List.getElem?_eq_getElem hi, hbit, Option.getD_some]

/-- The last bits of a string that is not shorter, as a number. -/
theorem exists_lowBits {bits : List Bool} {n : Nat} (h : bits.length = n) :
    ∃ x : BitVec n, lowBits n x = bits := by
  subst h
  exact ⟨BitVec.ofBoolListLE bits, lowBits_ofBoolListLE bits⟩

theorem registerBit_registerBit {i : Nat} (hi : i < 32) :
    registerBit i < 32 ∧ registerBit (registerBit i) = i := by
  unfold registerBit
  omega

/-- Four bytes without a bit are a checksum of 0. -/
theorem eq_zero_of_bytes {c : UInt32}
    (h : ∀ j < 32, (bitsOf (Crc32.bytes c)).getD j false = false) : c = 0 := by
  apply UInt32.toBitVec_inj.mp
  apply BitVec.eq_of_getLsbD_eq
  intro i hi
  obtain ⟨hlt, hback⟩ := registerBit_registerBit hi
  have hbit := getD_bitsOf_bytes c hlt
  rw [hback, h _ hlt] at hbit
  rw [← hbit, show (0 : UInt32).toBitVec = 0#32 from rfl, BitVec.getLsbD_zero]

theorem feed_replicate_append (n : Nat) (bits : List Bool) :
    feed pattern32 0#32 (List.replicate n false ++ bits) = feed pattern32 0#32 bits := by
  rw [feed_append, feed_of_count_zero (List.count_replicate.trans (if_neg (by decide)))]

/-- The last four bytes of data with nothing in front of them. -/
theorem feed_last (n : Nat) (x : BitVec 32) :
    feed pattern32 0#32 (List.replicate n false ++ lowBits 32 x) = (remainderOf x).toBitVec := by
  rw [feed_replicate_append, feed_of_le (Nat.le_refl 32) (Nat.le_refl 32), BitVec.zero_xor,
    BitVec.setWidth_eq]
  rfl

section Burst

variable {d : List Bool} {c : UInt32} {start : Nat}

/-- The data, with as much in front that its last four bytes can be taken from it. -/
def padded (d : List Bool) : List Bool := List.replicate 32 false ++ d

theorem length_padded : (padded d).length = d.length + 32 := by
  rw [padded, List.length_append, List.length_replicate, Nat.add_comm]

theorem padded_set {i : Nat} (h : (padded d).getD i false = true) :
    32 ≤ i ∧ d.getD (i - 32) false = true := by
  rw [padded] at h
  by_cases hi : i < 32
  · rw [List.getD_append _ _ _ _ (by rwa [List.length_replicate]),
      List.getD_eq_getElem?_getD, List.getElem?_replicate, if_pos hi] at h
    cases h
  · rw [List.getD_append_right _ _ _ _ (by rw [List.length_replicate]; omega),
      List.length_replicate] at h
    exact ⟨by omega, h⟩

theorem data_burst (hburst : ∀ i, (d ++ bitsOf (Crc32.bytes c)).getD i false = true →
      start ≤ i ∧ i < start + 32) (i : Nat) (hset : d.getD i false = true) :
    start ≤ i ∧ i < start + 32 := by
  apply hburst i
  have hi : i < d.length := by
    by_contra hlong
    rw [List.getD_eq_default _ _ (by omega)] at hset
    cases hset
  rwa [List.getD_append _ _ _ _ hi]

theorem checksum_burst (hburst : ∀ i, (d ++ bitsOf (Crc32.bytes c)).getD i false = true →
      start ≤ i ∧ i < start + 32) (j : Nat)
    (hset : (bitsOf (Crc32.bytes c)).getD j false = true) :
    start ≤ d.length + j ∧ d.length + j < start + 32 := by
  apply hburst (d.length + j)
  rwa [List.getD_append_right _ _ _ _ (Nat.le_add_right _ _), Nat.add_sub_cancel_left]

/-- A burst that reaches behind the data is one of its last four bytes and the checksum. -/
theorem exists_last (hburst : ∀ i, (d ++ bitsOf (Crc32.bytes c)).getD i false = true →
      start ≤ i ∧ i < start + 32) (hout : d.length < start + 32) :
    ∃ x : BitVec 32, padded d = List.replicate d.length false ++ lowBits 32 x := by
  obtain ⟨x, hx⟩ : ∃ x : BitVec 32, lowBits 32 x = (padded d).drop d.length :=
    exists_lowBits (by rw [List.length_drop, length_padded, Nat.add_sub_cancel_left])
  have hcount : ((padded d).take d.length).count true = 0 := by
    apply count_eq_zero_of_getD
    intro i hi
    rw [List.getD_eq_getElem?_getD, List.getElem?_take] at hi
    split_ifs at hi with hlt
    · obtain ⟨hle, hset⟩ := padded_set ((List.getD_eq_getElem?_getD ..).trans hi)
      have hinside := data_burst hburst _ hset
      omega
    · cases hi
  have hfront := eq_replicate_of_count hcount
  rw [List.length_take, length_padded, Nat.min_eq_left (Nat.le_add_right _ _)] at hfront
  exact ⟨x, by rw [hx, ← hfront, List.take_append_drop]⟩

/-- Where the differences of the data leave those of the checksums, a burst goes unnoticed only
if it is in the list. -/
theorem burst_cases (hfeed : feed pattern32 0#32 d = c.toBitVec)
    (hburst : ∀ i, (d ++ bitsOf (Crc32.bytes c)).getD i false = true →
      start ≤ i ∧ i < start + 32) :
    (d.count true = 0 ∧ c = 0) ∨ ∃ pattern ∈ unnoticedBursts,
      padded d ++ bitsOf (Crc32.bytes c) = List.replicate d.length false ++ bitsOf pattern := by
  by_cases hinside : start + 32 ≤ d.length
  · -- the checksums are the same, and the register notices every burst in the data
    have hzero : c = 0 := by
      apply eq_zero_of_bytes
      intro j hj
      rw [← Bool.not_eq_true]
      intro hset
      have hbehind := checksum_burst hburst j hset
      omega
    have hnothing : feed pattern32 0#32 d = 0#32 := by
      rw [hfeed, hzero]
      rfl
    exact Or.inl
      ⟨count_zero_of_burst (by decide) hnothing start (data_burst hburst), hzero⟩
  · obtain ⟨x, hx⟩ := exists_last hburst (by omega)
    have hc : c = remainderOf x := by
      apply UInt32.toBitVec_inj.mp
      rw [← hfeed, ← feed_last d.length x, ← hx, padded, feed_replicate_append]
    have hlast : padded d ++ bitsOf (Crc32.bytes c) =
        List.replicate d.length false ++ lastBits x := by
      rw [hx, hc, List.append_assoc, lastBits]
    have hshift (j : Nat) (hset : (lastBits x).getD j false = true) :
        start + 32 ≤ d.length + j ∧ d.length + j < start + 64 ∧ j < 64 := by
      rw [lastBits] at hset
      by_cases hj : j < 32
      · have hpadded : (padded d).getD (d.length + j) false = true := by
          rw [List.getD_append _ _ _ _ (by rwa [length_lowBits])] at hset
          rwa [hx, List.getD_append_right _ _ _ _ (by rw [List.length_replicate]; omega),
            List.length_replicate, Nat.add_sub_cancel_left]
        obtain ⟨hle, hdata⟩ := padded_set hpadded
        have hinside := data_burst hburst _ hdata
        omega
      · rw [List.getD_append_right _ _ _ _ (by rw [length_lowBits]; omega), length_lowBits] at hset
        have hend : j - 32 < 32 := by
          by_contra hlong
          rw [List.getD_eq_default _ _ (by rw [length_bitsOf, Crc32.length_bytes]; omega)] at hset
          cases hset
        have hbehind := checksum_burst hburst (j - 32) (hc ▸ hset)
        omega
    have hcases := burst_of_lastBits x (Nat.min_le_left 32 (start + 32 - d.length)) (by
      intro j hset
      have hin := hshift j hset
      omega)
    rcases hcases with hzero | ⟨pattern, hpattern, hbits⟩
    · have hnone : remainderOf 0#32 = 0 := by
        rw [remainderOf, iterate_zero]
        rfl
      refine Or.inl ⟨?_, by rw [hc, hzero, hnone]⟩
      have hcount : (padded d).count true = 0 := by
        have hlow : (lowBits 32 0#32).count true = 0 := by decide
        rw [hx, hzero, List.count_append, hlow, List.count_replicate, if_neg (by decide)]
      rw [padded, List.count_append] at hcount
      omega
    · exact Or.inr ⟨pattern, hpattern, by rw [hlast, hbits]⟩

end Burst

/-! ## Packets -/

section Packets

variable {s t : List UInt8}

/-- What the two checksums differ in follows what the data differ in. -/
theorem differences_split (hs : EndsInCrc32 s) (ht : EndsInCrc32 t)
    (hlength : s.length = t.length) :
    ∃ c : UInt32,
      differences s t = differences (s.take (s.length - 4)) (t.take (t.length - 4)) ++
        bitsOf (Crc32.bytes c) ∧
      feed pattern32 0#32 (differences (s.take (s.length - 4)) (t.take (t.length - 4))) =
        c.toBitVec := by
  have hdata : (s.take (s.length - 4)).length = (t.take (t.length - 4)).length := by
    rw [List.length_take, List.length_take, hlength]
  refine ⟨Crc32.compute (s.take (s.length - 4)) ^^^ Crc32.compute (t.take (t.length - 4)), ?_, ?_⟩
  · rw [bytes_xor, bitsOf_zipWith, ← differences_append hdata, ← split_crc32 hs, ← split_crc32 ht]
  · rw [feed_differences32 hdata, UInt32.toBitVec_xor]

theorem bitsOf_replicate (n : Nat) :
    bitsOf (List.replicate n 0) = List.replicate (8 * n) false := by
  induction n with
  | zero => rfl
  | succ n ih =>
      rw [List.replicate_succ, bitsOf_cons, ih, Nat.mul_succ, Nat.add_comm, List.replicate_add]
      rfl

/-- All of the bursts that go unnoticed are eight bytes. -/
theorem length_unnoticed : ∀ pattern ∈ unnoticedBursts, pattern.length = 8 := by decide

theorem changedBy_iff {pattern : List UInt8} (hpattern : pattern ∈ unnoticedBursts)
    (hlength : s.length = t.length) :
    ChangedBy pattern s t ↔ List.replicate 64 false ++ differences s t =
      List.replicate (8 * s.length) false ++ bitsOf pattern := by
  have height := length_unnoticed pattern hpattern
  have hleft : List.replicate 64 false ++ differences s t =
      bitsOf (List.replicate 8 0 ++ s.zipWith (· ^^^ ·) t) := by
    rw [bitsOf_append, bitsOf_replicate, bitsOf_zipWith]
  have hright : List.replicate (8 * s.length) false ++ bitsOf pattern =
      bitsOf (List.replicate s.length 0 ++ pattern) := by
    rw [bitsOf_append, bitsOf_replicate]
  rw [ChangedBy, height, hleft, hright]
  refine ⟨congrArg bitsOf, bitsOf_inj ?_⟩
  rw [List.length_append, List.length_append, List.length_replicate, List.length_replicate,
    List.length_zipWith, height, hlength, Nat.min_self, Nat.add_comm]

/-- Two packets that end in their checksums and differ within a burst differ in one of the list. -/
theorem changedBy_of_burst (hs : EndsInCrc32 s) (ht : EndsInCrc32 t)
    (hlength : s.length = t.length) (hne : s ≠ t) (hburst : DifferWithin 32 s t) :
    ∃ pattern ∈ unnoticedBursts, ChangedBy pattern s t := by
  obtain ⟨c, hsplit, hfeed⟩ := differences_split hs ht hlength
  obtain ⟨start, hwithin⟩ := hburst
  rw [hsplit] at hwithin
  have hdata : (s.take (s.length - 4)).length = (t.take (t.length - 4)).length := by
    rw [List.length_take, List.length_take, hlength]
  rcases burst_cases hfeed hwithin with ⟨hcount, rfl⟩ | ⟨pattern, hpattern, hbits⟩
  · have hzero : (bitsOf (Crc32.bytes 0)).count true = 0 := by decide
    refine absurd ?_ (distance_ne_zero hlength hne)
    rw [distance, hsplit, List.count_append, hcount, hzero]
  · refine ⟨pattern, hpattern, (changedBy_iff hpattern hlength).mpr ?_⟩
    have hfour := hs.1
    calc List.replicate 64 false ++ differences s t
        = List.replicate 32 false ++
            (padded (differences (s.take (s.length - 4)) (t.take (t.length - 4))) ++
              bitsOf (Crc32.bytes c)) := by
          rw [hsplit, padded, List.append_assoc, ← List.append_assoc (List.replicate 32 false),
            List.replicate_append_replicate]
      _ = List.replicate 32 false ++ (List.replicate (8 * (s.length - 4)) false ++
            bitsOf pattern) := by
          rw [hbits, length_differences hdata, List.length_take,
            Nat.min_eq_left (Nat.sub_le _ _)]
      _ = List.replicate (8 * s.length) false ++ bitsOf pattern := by
          rw [← List.append_assoc, List.replicate_append_replicate,
            show 32 + 8 * (s.length - 4) = 8 * s.length by omega]

/-- The changes in the data make the changes in the checksum. -/
theorem checksum_unnoticed : ∀ pattern ∈ unnoticedBursts,
    Crc32.bytes (UInt32.ofBitVec (feed pattern32 0#32 (bitsOf (pattern.take 4)))) =
      pattern.drop 4 := by
  decide +kernel

theorem eq_of_zipWith_xor {as bs cs : List UInt8} (hbs : as.length = bs.length)
    (hcs : as.length = cs.length)
    (h : as.zipWith (· ^^^ ·) bs = as.zipWith (· ^^^ ·) cs) : bs = cs := by
  induction as generalizing bs cs with
  | nil =>
      rw [List.eq_nil_of_length_eq_zero hbs.symm, List.eq_nil_of_length_eq_zero hcs.symm]
  | cons a as ih =>
      cases bs with
      | nil => cases hbs
      | cons b bs =>
          cases cs with
          | nil => cases hcs
          | cons c cs =>
              obtain ⟨hfirst, hrest⟩ := List.cons.inj h
              rw [(UInt8.xor_right_inj a).mp hfirst, ih (Nat.succ.inj hbs) (Nat.succ.inj hcs) hrest]

/-- A packet that is changed by a burst of the list still ends in its checksum. -/
theorem endsInCrc32_of_changedBy {pattern : List UInt8} (hpattern : pattern ∈ unnoticedBursts)
    (hs : EndsInCrc32 s) (hlength : s.length = t.length) (h : ChangedBy pattern s t) :
    EndsInCrc32 t := by
  obtain ⟨hfour, hlast⟩ := endsInCrc32_iff.mp hs
  have height := length_unnoticed pattern hpattern
  have hdata : (s.take (s.length - 4)).length = (t.take (t.length - 4)).length := by
    rw [List.length_take, List.length_take, hlength]
  have hsplit : s.zipWith (· ^^^ ·) t =
      (s.take (s.length - 4)).zipWith (· ^^^ ·) (t.take (t.length - 4)) ++
        (s.drop (s.length - 4)).zipWith (· ^^^ ·) (t.drop (t.length - 4)) := by
    rw [← List.zipWith_append hdata, List.take_append_drop, List.take_append_drop]
  rw [ChangedBy, height, hsplit, ← List.take_append_drop 4 pattern, ← List.append_assoc,
    ← List.append_assoc] at h
  obtain ⟨hfront, hback⟩ := List.append_inj' h (by
    rw [List.length_zipWith, List.length_drop, List.length_drop, List.length_drop, height]
    omega)
  have hfeed : feed pattern32 0#32 (bitsOf (pattern.take 4)) =
      (Crc32.compute (s.take (s.length - 4)) ^^^
        Crc32.compute (t.take (t.length - 4))).toBitVec := by
    have hbits := congrArg bitsOf hfront
    rw [bitsOf_append, bitsOf_append, bitsOf_replicate, bitsOf_replicate, bitsOf_zipWith] at hbits
    rw [UInt32.toBitVec_xor, ← feed_differences32 hdata, ← feed_replicate_append (8 * s.length),
      ← hbits, feed_replicate_append]
  have hchecksum : Crc32.bytes (Crc32.compute (s.take (s.length - 4)) ^^^
      Crc32.compute (t.take (t.length - 4))) = pattern.drop 4 := by
    rw [← checksum_unnoticed pattern hpattern, hfeed]
  rw [bytes_xor, ← hback, hlast] at hchecksum
  have hend : (t.drop (t.length - 4)).length = 4 := by
    rw [List.length_drop]
    omega
  have hsame : Crc32.bytes (Crc32.compute (t.take (t.length - 4))) = t.drop (t.length - 4) :=
    eq_of_zipWith_xor (by rw [Crc32.length_bytes, Crc32.length_bytes])
      (by rw [hend, Crc32.length_bytes]) hchecksum
  exact endsInCrc32_iff.mpr ⟨by omega, hsame.symm⟩

/-- Among the strings that differ from a packet within 32 consecutive bits, those that end in
their checksum as well are the ones that a burst of the list leads to. -/
theorem crc32_burst_iff (s t : List UInt8) (hs : EndsInCrc32 s) (hlength : s.length = t.length)
    (hne : s ≠ t) (hburst : DifferWithin 32 s t) :
    EndsInCrc32 t ↔ ∃ pattern ∈ unnoticedBursts, ChangedBy pattern s t := by
  constructor
  · exact fun ht => changedBy_of_burst hs ht hlength hne hburst
  · rintro ⟨pattern, hpattern, h⟩
    exact endsInCrc32_of_changedBy hpattern hs hlength h

theorem differWithin_of_lt {n start : Nat} (h : ∀ i < (differences s t).length,
    (differences s t).getD i false = true → start ≤ i ∧ i < start + n) : DifferWithin n s t := by
  refine ⟨start, fun i hset => h i ?_ hset⟩
  by_contra hlong
  rw [List.getD_eq_default _ _ (by omega)] at hset
  cases hset

end Packets

/-! ## A burst of 31 bits -/

/-- A byte of data and its CRC32. -/
def oneByte : List UInt8 := 1 :: Crc32.bytes 0xa505df1b

/-- The last bit of the data is changed, and those of the checksum that make up for it. -/
def changedByte : List UInt8 := 0x81 :: Crc32.bytes 0x48bd5c3b

theorem differWithin_changedByte : DifferWithin 32 oneByte changedByte := by
  have hbits : ∀ i < (differences oneByte changedByte).length,
      (differences oneByte changedByte).getD i false = true → 7 ≤ i ∧ i < 7 + 32 := by
    decide +kernel
  exact differWithin_of_lt hbits

theorem crc32_burst_iff_changedByte :
    EndsInCrc32 changedByte ↔ ∃ pattern ∈ unnoticedBursts, ChangedBy pattern oneByte changedByte :=
  crc32_burst_iff oneByte changedByte (by decide) rfl (by decide) differWithin_changedByte

theorem changedByte_unnoticed :
    oneByte.length = 5 ∧ changedByte.length = 5 ∧ oneByte ≠ changedByte ∧ EndsInCrc32 oneByte ∧
      EndsInCrc32 changedByte ∧ DifferWithin 32 oneByte changedByte :=
  ⟨rfl, rfl, by decide, by decide, by decide, differWithin_changedByte⟩

end Pjon.Proofs.Bursts
