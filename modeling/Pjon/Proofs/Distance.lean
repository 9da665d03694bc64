import Pjon.Spec.Distance
import Pjon.Lib.Period
import Mathlib.Tactic.NormNum.Prime
/-!
# What the checksums tell apart

Both checksums are remainders.  The differences between two packets that end in their
checksums leave nothing in the register, and few bits, or bits close to each other, always
leave something there.
-/

namespace Pjon.Proofs.Distance

open Pjon.Lib Pjon.Lib.Remainder Pjon.Model Pjon.Spec

/-! ## Differences -/

theorem bitsOf_cons (byte : UInt8) (s : List UInt8) :
    bitsOf (byte :: s) = lowBits 8 byte.toBitVec ++ bitsOf s := List.flatMap_cons

theorem bitsOf_append (s t : List UInt8) : bitsOf (s ++ t) = bitsOf s ++ bitsOf t :=
  List.flatMap_append

theorem length_bitsOf (s : List UInt8) : (bitsOf s).length = 8 * s.length := by
  induction s with
  | nil => rfl
  | cons byte s ih =>
      rw [bitsOf_cons, List.length_append, length_lowBits, ih, List.length_cons]
      omega

theorem bitsOf_inj {s t : List UInt8} (hlength : s.length = t.length) (h : bitsOf s = bitsOf t) :
    s = t := by
  induction s generalizing t with
  | nil => exact (List.length_eq_zero_iff.mp hlength.symm).symm
  | cons byte s ih =>
      cases t with
      | nil => cases hlength
      | cons byte' t =>
          rw [bitsOf_cons, bitsOf_cons] at h
          obtain ⟨hbyte, hrest⟩ := List.append_inj h (by rw [length_lowBits, length_lowBits])
          rw [UInt8.toBitVec_inj.mp (lowBits_inj hbyte), ih (Nat.succ.inj hlength) hrest]

theorem length_differences {s t : List UInt8} (hlength : s.length = t.length) :
    (differences s t).length = 8 * s.length := by
  rw [differences, List.length_zipWith, length_bitsOf, length_bitsOf, hlength, Nat.min_self]

theorem differences_append {s t : List UInt8} (hlength : s.length = t.length) (s' t' : List UInt8) :
    differences (s ++ s') (t ++ t') = differences s t ++ differences s' t' := by
  rw [differences, bitsOf_append, bitsOf_append,
    List.zipWith_append (by rw [length_bitsOf, length_bitsOf, hlength])]
  rfl

theorem eq_of_zipWith_count (as bs : List Bool) (hlength : as.length = bs.length)
    (h : (as.zipWith xor bs).count true = 0) : as = bs := by
  induction as generalizing bs with
  | nil => exact (List.length_eq_zero_iff.mp hlength.symm).symm
  | cons a as ih =>
      cases bs with
      | nil => cases hlength
      | cons b bs =>
          rw [List.zipWith_cons_cons, List.count_cons] at h
          have hsame : a = b := by cases a <;> cases b <;> simp_all
          rw [hsame, ih bs (Nat.succ.inj hlength) (by omega)]

theorem distance_ne_zero {s t : List UInt8} (hlength : s.length = t.length) (hne : s ≠ t) :
    distance s t ≠ 0 := by
  intro h
  have hbits := eq_of_zipWith_count _ _ (by rw [length_bitsOf, length_bitsOf, hlength]) h
  exact hne (bitsOf_inj hlength hbits)

/-! ## CRC8 -/

def pattern8 : BitVec 8 := 0x97#8

theorem apart_pattern8 : Apart pattern8 127 := by
  have haway : ∀ k < 127, 0 < k → (shiftOut pattern8)^[k] (1#8) ≠ 1#8 := by decide +kernel
  exact fun k hpos hlt => haway k hlt hpos

theorem low_bit8 (c : UInt8) : (c &&& 1 != 0) = c.toBitVec.getLsbD 0 := by
  rw [← and_one_ne_zero (by decide) c.toBitVec, Bool.eq_iff_iff, bne_iff_ne, bne_iff_ne,
    ← UInt8.toBitVec_inj.ne]
  rfl

theorem rollBit_eq (inputByte crc : UInt8) :
    (Crc8.rollBit inputByte crc).toBitVec =
      shiftOut pattern8 (crc.toBitVec ^^^ ofBit (inputByte.toBitVec.getLsbD 0)) := by
  have hshift : ∀ bit, ((ofBit bit : BitVec 8) >>> 1) = 0#8 := by decide
  have hlow : ∀ bit, (ofBit bit : BitVec 8).getLsbD 0 = bit := by decide
  rw [Crc8.rollBit, low_bit8, shiftOut, UInt8.toBitVec_xor, BitVec.getLsbD_xor,
    BitVec.getLsbD_xor, hlow, BitVec.ushiftRight_xor_distrib, hshift, BitVec.xor_zero]
  split
  · rfl
  · rfl

theorem roll_eq (inputByte crc : UInt8) :
    (Crc8.roll inputByte crc).toBitVec =
      feed pattern8 crc.toBitVec (lowBits 8 inputByte.toBitVec) := by
  have hbits : ∀ n (inputByte crc : UInt8), (Crc8.rollBits n inputByte crc).toBitVec =
      feed pattern8 crc.toBitVec (lowBits n inputByte.toBitVec) := by
    intro n
    induction n with
    | zero => exact fun _ _ => rfl
    | succ n ih =>
        intro inputByte crc
        rw [Crc8.rollBits, ih, rollBit_eq, lowBits, feed_cons]
        rfl
  exact hbits 8 inputByte crc

theorem compute_eq8 (data : List UInt8) :
    (Crc8.compute data).toBitVec = feed pattern8 0#8 (bitsOf data) := by
  have hfold : ∀ crc : UInt8, (data.foldl (fun crc byte => Crc8.roll byte crc) crc).toBitVec =
      feed pattern8 crc.toBitVec (bitsOf data) := by
    induction data with
    | nil => exact fun _ => rfl
    | cons byte data ih =>
        intro crc
        rw [List.foldl_cons, ih, roll_eq, bitsOf_cons, feed_append]
  exact hfold 0

/-- The CRC8 of a string, fed to the register behind it, leaves nothing there. -/
theorem feed_crc8 {s : List UInt8} (h : EndsInCrc8 s) : feed pattern8 0#8 (bitsOf s) = 0#8 := by
  obtain ⟨hpos, hcrc⟩ := h
  have hlast : s = s.take (s.length - 1) ++ [Crc8.compute (s.take (s.length - 1))] := by
    rw [← hcrc, byte, List.getD_eq_getElem?_getD, List.getElem?_eq_getElem (by omega),
      Option.getD_some, ← List.getLast_eq_getElem (List.ne_nil_of_length_pos hpos),
      ← List.dropLast_eq_take, List.dropLast_append_getLast]
  rw [hlast, bitsOf_append, feed_append, ← compute_eq8, bitsOf_cons, bitsOf, List.flatMap_nil,
    List.append_nil, feed_lowBits (by decide)]
  exact BitVec.ushiftRight_eq_zero (Nat.le_refl 8)

/-- Within 15 bytes, two packets that end in their CRC8 differ in at least four bits; in no
length do they differ within eight consecutive bits only. -/
theorem crc8_distance (s t : List UInt8) (hs : EndsInCrc8 s) (ht : EndsInCrc8 t)
    (hlength : s.length = t.length) (hne : s ≠ t) :
    (s.length ≤ 15 → 4 ≤ distance s t) ∧ ¬DifferWithin 8 s t := by
  have hnothing : feed pattern8 0#8 (differences s t) = 0#8 := by
    have hfed : feed pattern8 (0#8 ^^^ 0#8) (differences s t) =
        feed pattern8 0#8 (bitsOf s) ^^^ feed pattern8 0#8 (bitsOf t) :=
      feed_zipWith (bitsOf s) (bitsOf t) (by rw [length_bitsOf, length_bitsOf, hlength])
    rwa [feed_crc8 hs, feed_crc8 ht, BitVec.xor_zero] at hfed
  have hset := distance_ne_zero hlength hne
  constructor
  · intro hshort
    have hbits : (differences s t).length < 127 := by
      rw [length_differences hlength]
      omega
    exact four_le_count (by decide) (by decide) (apart_pattern8.mono hbits.le) hnothing hset
  · rintro ⟨start, hburst⟩
    exact hset (count_zero_of_burst (by decide) hnothing start hburst)

theorem crc8_distance_twoBytes :
    4 ≤ distance [1, 0x86] [3, 0xa5] ∧ ¬DifferWithin 8 [1, 0x86] [3, 0xa5] := by
  have hdistance := crc8_distance [1, 0x86] [3, 0xa5] (by decide) (by decide) rfl (by decide)
  exact ⟨hdistance.1 (by decide), hdistance.2⟩

/-! ## CRC32 -/

def pattern32 : BitVec 32 := 0xEDB88320#32

/-- The two halves of an exponent, the highest bit first. -/
def exponentBits (upper lower : BitVec 16) : List Bool :=
  (lowBits 16 upper).reverse ++ (lowBits 16 lower).reverse

theorem power_of_halves (upper lower : BitVec 16) {m m' : BitVec 32}
    (hupper : raise pattern32 (unit 32) (lowBits 16 upper).reverse = m)
    (hlower : raise pattern32 m (lowBits 16 lower).reverse = m') :
    (shiftOut pattern32)^[exponent 0 (exponentBits upper lower)] (unit 32) = m' := by
  have hpower : raise pattern32 (unit 32) (exponentBits upper lower) =
      (shiftOut pattern32)^[exponent 0 (exponentBits upper lower)] (unit 32) := raise_power 0
  rw [← hpower, exponentBits, raise, List.foldl_append]
  exact (congrArg (fun c => raise pattern32 c (lowBits 16 lower).reverse) hupper).trans hlower

theorem back_pattern32 : (shiftOut pattern32)^[4294967295] (unit 32) = unit 32 :=
  power_of_halves 0xffff 0xffff (m := 0xdc7b5c5f#32) (by decide +kernel)
    (by decide +kernel)

/-- The primes that 2 ^ 32 - 1 is made of. -/
theorem prime_of_dvd {q : Nat} (hq : q.Prime) (hdvd : q ∣ 4294967295) :
    q = 3 ∨ q = 5 ∨ q = 17 ∨ q = 257 ∨ q = 65537 := by
  have hfactors : 4294967295 = 3 * (5 * (17 * (257 * 65537))) := by norm_num
  rw [hfactors, hq.dvd_mul, hq.dvd_mul, hq.dvd_mul, hq.dvd_mul,
    Nat.prime_dvd_prime_iff_eq hq (by norm_num), Nat.prime_dvd_prime_iff_eq hq (by norm_num),
    Nat.prime_dvd_prime_iff_eq hq (by norm_num), Nat.prime_dvd_prime_iff_eq hq (by norm_num),
    Nat.prime_dvd_prime_iff_eq hq (by norm_num)] at hdvd
  exact hdvd

/-- The shift has the period of a register that runs through all states but 0. -/
theorem apart_pattern32 : Apart pattern32 4294967295 := by
  apply apart_of_prime_factors (by decide) back_pattern32
  intro q hq hdvd
  have haway : ∀ (upper lower : BitVec 16) (m : BitVec 32),
      raise pattern32 (unit 32) (lowBits 16 upper).reverse = m →
      raise pattern32 m (lowBits 16 lower).reverse ≠ unit 32 →
      (shiftOut pattern32)^[exponent 0 (exponentBits upper lower)] (unit 32) ≠ unit 32 := by
    intro upper lower m hupper hlower heq
    exact hlower ((power_of_halves upper lower hupper rfl).symm.trans heq)
  rcases prime_of_dvd hq hdvd with rfl | rfl | rfl | rfl | rfl
  · exact haway 0x5555 0x5555 0xeba0264a#32 (by decide +kernel)
      (by decide +kernel)
  · exact haway 0x3333 0x3333 0xc1a99cf7#32 (by decide +kernel)
      (by decide +kernel)
  · exact haway 0x0f0f 0x0f0f 0xe01f9dcf#32 (by decide +kernel)
      (by decide +kernel)
  · exact haway 0x00ff 0x00ff 0x01b5fd1d#32 (by decide +kernel)
      (by decide +kernel)
  · exact haway 0 0xffff (unit 32) (by decide +kernel) (by decide +kernel)

theorem low_bit32 (c : UInt32) : (c &&& 1 != 0) = c.toBitVec.getLsbD 0 := by
  rw [← and_one_ne_zero (by decide) c.toBitVec, Bool.eq_iff_iff, bne_iff_ne, bne_iff_ne,
    ← UInt32.toBitVec_inj.ne]
  rfl

theorem computeBits_eq (n : Nat) (crc : UInt32) :
    (Crc32.computeBits n crc).toBitVec = (shiftOut pattern32)^[n] crc.toBitVec := by
  induction n generalizing crc with
  | zero => rfl
  | succ n ih =>
      have hbit : (Crc32.computeBit crc).toBitVec = shiftOut pattern32 crc.toBitVec := by
        rw [Crc32.computeBit, low_bit32, shiftOut]
        split
        · rfl
        · rfl
      rw [Crc32.computeBits, ih, hbit, Function.iterate_succ_apply]

theorem compute_eq32 (data : List UInt8) :
    (Crc32.compute data).toBitVec = ~~~feed pattern32 (~~~0#32) (bitsOf data) := by
  have hfold : ∀ crc : UInt32,
      (data.foldl (fun crc byte => Crc32.computeBits 8 (crc ^^^ byte.toUInt32)) crc).toBitVec =
        feed pattern32 crc.toBitVec (bitsOf data) := by
    induction data with
    | nil => exact fun _ => rfl
    | cons byte data ih =>
        intro crc
        rw [List.foldl_cons, ih, computeBits_eq, bitsOf_cons, feed_append,
          feed_of_le (by decide) (by decide), UInt32.toBitVec_xor, UInt8.toBitVec_toUInt32]
  rw [Crc32.compute, Crc32.computeFrom, UInt32.toBitVec_not, hfold]
  rfl

/-- What two strings differ in is what their checksums differ in. -/
theorem feed_differences32 {s t : List UInt8} (hlength : s.length = t.length) :
    feed pattern32 0#32 (differences s t) =
      (Crc32.compute s).toBitVec ^^^ (Crc32.compute t).toBitVec := by
  have hfed : feed pattern32 (~~~0#32 ^^^ ~~~0#32) (differences s t) =
      feed pattern32 (~~~0#32) (bitsOf s) ^^^ feed pattern32 (~~~0#32) (bitsOf t) :=
    feed_zipWith (bitsOf s) (bitsOf t) (by rw [length_bitsOf, length_bitsOf, hlength])
  rw [BitVec.xor_self] at hfed
  rw [hfed, compute_eq32, compute_eq32]
  apply BitVec.eq_of_getLsbD_eq
  intro i hi
  simp [hi]

theorem differences_cons (byte byte' : UInt8) (s t : List UInt8) :
    differences (byte :: s) (byte' :: t) =
      lowBits 8 (byte.toBitVec ^^^ byte'.toBitVec) ++ differences s t := by
  rw [differences, bitsOf_cons, bitsOf_cons,
    List.zipWith_append (by rw [length_lowBits, length_lowBits]), lowBits_xor]
  rfl

/-- A byte of a checksum, taken from the register. -/
theorem lowBits_byte (c : UInt32) (k : Nat) (hk : k < 32) :
    lowBits 8 ((c >>> UInt32.ofNat k).toUInt8.toBitVec) = lowBits 8 (c.toBitVec >>> k) := by
  apply lowBits_congr
  intro i hi
  have hsmall : k % 32 = k := Nat.mod_eq_of_lt hk
  simp [hi, hsmall]

theorem differences_crc32 (c c' : UInt32) :
    (differences (Crc32.bytes c) (Crc32.bytes c')).count true =
      (lowBits 32 (c.toBitVec ^^^ c'.toBitVec)).count true := by
  have hbytes : lowBits 32 (c.toBitVec ^^^ c'.toBitVec) =
      (lowBits 8 c.toBitVec).zipWith xor (lowBits 8 c'.toBitVec) ++
        ((lowBits 8 (c.toBitVec >>> 8)).zipWith xor (lowBits 8 (c'.toBitVec >>> 8)) ++
          ((lowBits 8 (c.toBitVec >>> 16)).zipWith xor (lowBits 8 (c'.toBitVec >>> 16)) ++
            (lowBits 8 (c.toBitVec >>> 24)).zipWith xor (lowBits 8 (c'.toBitVec >>> 24)))) := by
    simp only [← lowBits_xor, ← BitVec.ushiftRight_xor_distrib]
    rw [lowBits_add 8 24, lowBits_add 8 16, lowBits_add 8 8, ← BitVec.shiftRight_add,
      ← BitVec.shiftRight_add]
  have hlast : ∀ c : UInt32, lowBits 8 c.toUInt8.toBitVec = lowBits 8 c.toBitVec := by
    intro c
    apply lowBits_congr
    intro i hi
    simp [hi]
  rw [hbytes, Crc32.bytes, Crc32.bytes, differences_cons, differences_cons, differences_cons,
    differences_cons, lowBits_xor, lowBits_xor, lowBits_xor, lowBits_xor,
    show (24 : UInt32) = UInt32.ofNat 24 by rfl, show (16 : UInt32) = UInt32.ofNat 16 by rfl,
    show (8 : UInt32) = UInt32.ofNat 8 by rfl]
  simp only [lowBits_byte _ _ (by decide : 24 < 32), lowBits_byte _ _ (by decide : 16 < 32),
    lowBits_byte _ _ (by decide : 8 < 32), hlast, List.count_append]
  have hnil : (differences [] []).count true = 0 := rfl
  omega

theorem endsInCrc32_iff {s : List UInt8} : EndsInCrc32 s ↔
    4 ≤ s.length ∧ s.drop (s.length - 4) = Crc32.bytes (Crc32.compute (s.take (s.length - 4))) := by
  apply and_congr_right
  intro hpos
  have hread := (Memory.load_eq_iff (fun i => byte s (s.length - 4 + i)) 0
    (s.drop (s.length - 4))).mpr fun i hi => by
      rw [Nat.zero_add, byte, List.getD_eq_getElem?_getD, List.getD_eq_getElem?_getD,
        List.getElem?_drop]
  have hfour : (s.drop (s.length - 4)).length = 4 := by
    rw [List.length_drop]
    omega
  rw [hfour] at hread
  rw [Crc32.compare_iff, hread]

theorem split_crc32 {s : List UInt8} (h : EndsInCrc32 s) :
    s = s.take (s.length - 4) ++ Crc32.bytes (Crc32.compute (s.take (s.length - 4))) := by
  rw [← (endsInCrc32_iff.mp h).2, List.take_append_drop]

/-- Two packets of one admitted length that end in their CRC32 differ in at least three bits. -/
theorem crc32_distance (s t : List UInt8) (hs : EndsInCrc32 s) (ht : EndsInCrc32 t)
    (hlength : s.length = t.length) (hmin : 5 ≤ s.length) (hmax : s.length ≤ 65535)
    (hne : s ≠ t) : 3 ≤ distance s t := by
  have hdata : (s.take (s.length - 4)).length = (t.take (t.length - 4)).length := by
    rw [List.length_take, List.length_take, hlength]
  obtain ⟨crc, hcrc⟩ : ∃ crc, crc = feed pattern32 0#32
      (differences (s.take (s.length - 4)) (t.take (t.length - 4))) := ⟨_, rfl⟩
  -- the checksums follow in another order of bytes, which keeps the number of bits
  have hdistance : distance s t =
      (differences (s.take (s.length - 4)) (t.take (t.length - 4)) ++ lowBits 32 crc).count
        true := by
    have hsplit : differences s t =
        differences (s.take (s.length - 4)) (t.take (t.length - 4)) ++
          differences (Crc32.bytes (Crc32.compute (s.take (s.length - 4))))
            (Crc32.bytes (Crc32.compute (t.take (t.length - 4)))) := by
      rw [← differences_append hdata, ← split_crc32 hs, ← split_crc32 ht]
    rw [distance, hsplit, List.count_append, List.count_append, differences_crc32,
      ← feed_differences32 hdata, hcrc]
  have hnothing : feed pattern32 0#32
      (differences (s.take (s.length - 4)) (t.take (t.length - 4)) ++ lowBits 32 crc) = 0#32 := by
    rw [feed_append, ← hcrc, feed_lowBits (by decide)]
    exact BitVec.ushiftRight_eq_zero (Nat.le_refl 32)
  have hbits : (differences (s.take (s.length - 4)) (t.take (t.length - 4)) ++
      lowBits 32 crc).length ≤ 4294967295 := by
    rw [List.length_append, length_differences hdata, length_lowBits, List.length_take]
    omega
  have hset := distance_ne_zero hlength hne
  rw [hdistance] at hset ⊢
  exact three_le_count (by decide) (apart_pattern32.mono hbits) hnothing hset

theorem crc32_distance_fiveBytes :
    3 ≤ distance (1 :: Crc32.bytes 0xa505df1b) (3 :: Crc32.bytes 0x4b0bbe37) :=
  crc32_distance _ _ (by decide) (by decide) rfl (by decide) (by decide) (by decide)

end Pjon.Proofs.Distance
