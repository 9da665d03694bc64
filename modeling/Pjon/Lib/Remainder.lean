import Mathlib.Data.List.Count
import Mathlib.Data.Nat.Bits
import Mathlib.Logic.Function.Iterate
/-!
# Remainders of bit strings

A register of `w` bits from which bits are shifted out at the lower end; where the bit
that leaves is set, a pattern is added.  The register is linear in what it is fed, so
that two strings leave the same register behind only if their difference leaves nothing.
-/

namespace Pjon.Lib.Remainder

variable {v w : Nat}

/-! ## Bits -/

/-- The `n` lowest bits, the lowest first. -/
def lowBits : Nat → BitVec v → List Bool
  | 0, _ => []
  | n + 1, c => c.getLsbD 0 :: lowBits n (c >>> 1)

@[simp] theorem length_lowBits (n : Nat) (c : BitVec v) : (lowBits n c).length = n := by
  induction n generalizing c with
  | zero => rfl
  | succ n ih => rw [lowBits, List.length_cons, ih]

theorem getD_lowBits (n : Nat) (c : BitVec v) (i : Nat) :
    (lowBits n c).getD i false = (decide (i < n) && c.getLsbD i) := by
  induction n generalizing c i with
  | zero => simp [lowBits]
  | succ n ih =>
      cases i with
      | zero => simp [lowBits]
      | succ i =>
          rw [lowBits, List.getD_cons_succ, ih, BitVec.getLsbD_ushiftRight, Nat.add_comm 1 i]
          simp

theorem lowBits_congr {n : Nat} {c : BitVec v} {c' : BitVec w}
    (h : ∀ i < n, c.getLsbD i = c'.getLsbD i) : lowBits n c = lowBits n c' := by
  induction n generalizing c c' with
  | zero => rfl
  | succ n ih =>
      have hrest : lowBits n (c >>> 1) = lowBits n (c' >>> 1) := by
        apply ih
        intro i hi
        rw [BitVec.getLsbD_ushiftRight, BitVec.getLsbD_ushiftRight, h (1 + i) (by omega)]
      rw [lowBits, lowBits, h 0 (by omega), hrest]

theorem lowBits_ofBoolListLE (bits : List Bool) :
    lowBits bits.length (BitVec.ofBoolListLE bits) = bits := by
  apply List.ext_getElem?
  intro i
  by_cases hi : i < bits.length
  · have hbit := getD_lowBits bits.length (BitVec.ofBoolListLE bits) i
    rw [BitVec.getLsbD_ofBoolListLE, decide_eq_true hi, Bool.true_and] at hbit
    have hi' : i < (lowBits bits.length (BitVec.ofBoolListLE bits)).length := by
      rwa [length_lowBits]
    rw [List.getElem?_eq_getElem hi, List.getElem?_eq_getElem hi']
    simpa [List.getElem?_eq_getElem hi, List.getElem?_eq_getElem hi'] using hbit
  · rw [List.getElem?_eq_none (by rw [length_lowBits]; omega), List.getElem?_eq_none (by omega)]

theorem lowBits_inj {c c' : BitVec v} (h : lowBits v c = lowBits v c') : c = c' := by
  apply BitVec.eq_of_getLsbD_eq
  intro i hi
  have hbit := congrArg (fun bits => bits.getD i false) h
  simp only [getD_lowBits, hi, decide_true, Bool.true_and] at hbit
  exact hbit

theorem lowBits_xor (n : Nat) (c c' : BitVec v) :
    lowBits n (c ^^^ c') = (lowBits n c).zipWith xor (lowBits n c') := by
  induction n generalizing c c' with
  | zero => rfl
  | succ n ih => simp only [lowBits, List.zipWith_cons_cons, BitVec.getLsbD_xor,
      BitVec.ushiftRight_xor_distrib, ih]

/-- Whether an odd number of bits is set. -/
def parity : List Bool → Bool
  | [] => false
  | bit :: bits => xor bit (parity bits)

theorem parity_eq (bits : List Bool) : parity bits = (bits.count true).bodd := by
  induction bits with
  | nil => rfl
  | cons bit bits ih => cases bit <;> simp [parity, ih]

theorem parity_zipWith (as bs : List Bool) (h : as.length = bs.length) :
    parity (as.zipWith xor bs) = xor (parity as) (parity bs) := by
  induction as generalizing bs with
  | nil =>
      have hnil : bs = [] := List.length_eq_zero_iff.mp h.symm
      rw [hnil]
      rfl
  | cons a as ih =>
      cases bs with
      | nil => cases h
      | cons b bs =>
          have hlength : as.length = bs.length := Nat.succ.inj h
          rw [List.zipWith_cons_cons, parity, parity, parity, ih bs hlength]
          cases a <;> cases b <;> simp

theorem parity_append (as bs : List Bool) : parity (as ++ bs) = xor (parity as) (parity bs) := by
  induction as with
  | nil => simp [parity]
  | cons a as ih => rw [List.cons_append, parity, parity, ih, Bool.xor_assoc]

theorem lowBits_add (m n : Nat) (c : BitVec v) :
    lowBits (m + n) c = lowBits m c ++ lowBits n (c >>> m) := by
  induction m generalizing c with
  | zero => rw [Nat.zero_add, BitVec.ushiftRight_zero]; rfl
  | succ m ih =>
      rw [Nat.succ_add, lowBits, lowBits, ih, List.cons_append, ← BitVec.shiftRight_add,
        Nat.add_comm 1 m]

theorem lowBits_succ (n : Nat) (c : BitVec v) :
    lowBits (n + 1) c = lowBits n c ++ [c.getLsbD n] := by
  rw [lowBits_add, lowBits, lowBits, BitVec.getLsbD_ushiftRight, Nat.add_zero]

/-! ## The register -/

def shiftOut (p c : BitVec w) : BitVec w :=
  if c.getLsbD 0 then (c >>> 1) ^^^ p else c >>> 1

theorem and_one_ne_zero (hw : 0 < w) (c : BitVec w) : (c &&& 1#w != 0#w) = c.getLsbD 0 := by
  have hbit := congrArg (fun c => c.getLsbD 0) (BitVec.and_one_eq_setWidth_ofBool_getLsbD (x := c))
  cases hlow : c.getLsbD 0
  · have hzero : c &&& 1#w = 0#w := by
      rw [BitVec.and_one_eq_setWidth_ofBool_getLsbD, hlow]
      apply BitVec.eq_of_toNat_eq
      simp
    rw [hzero, bne_self_eq_false]
  · rw [bne_iff_ne]
    intro hzero
    rw [hzero, hlow] at hbit
    simp [hw] at hbit

def ofBit (bit : Bool) : BitVec w := if bit then 1#w else 0#w

/-- Every bit is added to the one that leaves the register next. -/
def feed (p c : BitVec w) (bits : List Bool) : BitVec w :=
  bits.foldl (fun c bit => shiftOut p (c ^^^ ofBit bit)) c

variable {p c c' : BitVec w} {bits : List Bool}

theorem shiftOut_xor : shiftOut p (c ^^^ c') = shiftOut p c ^^^ shiftOut p c' := by
  unfold shiftOut
  rw [BitVec.getLsbD_xor, BitVec.ushiftRight_xor_distrib]
  cases c.getLsbD 0 <;> cases c'.getLsbD 0
  · rfl
  · exact BitVec.xor_assoc _ _ _
  · show (c >>> 1 ^^^ c' >>> 1) ^^^ p = (c >>> 1 ^^^ p) ^^^ c' >>> 1
    rw [BitVec.xor_assoc, BitVec.xor_comm (c' >>> 1), ← BitVec.xor_assoc]
  · show c >>> 1 ^^^ c' >>> 1 = (c >>> 1 ^^^ p) ^^^ (c' >>> 1 ^^^ p)
    rw [BitVec.xor_comm (c' >>> 1) p, BitVec.xor_assoc, ← BitVec.xor_assoc p p, BitVec.xor_self,
      BitVec.zero_xor]

@[simp] theorem shiftOut_zero : shiftOut p (0#w) = 0#w := by simp [shiftOut]

@[simp] theorem iterate_zero (n : Nat) : (shiftOut p)^[n] (0#w) = 0#w := by
  induction n with
  | zero => rfl
  | succ n ih => rw [Function.iterate_succ_apply', ih, shiftOut_zero]

theorem iterate_xor (n : Nat) :
    (shiftOut p)^[n] (c ^^^ c') = (shiftOut p)^[n] c ^^^ (shiftOut p)^[n] c' := by
  induction n with
  | zero => rfl
  | succ n ih => rw [Function.iterate_succ_apply', ih, shiftOut_xor,
      Function.iterate_succ_apply', Function.iterate_succ_apply']

theorem eq_of_xor_eq_zero (h : c ^^^ c' = 0#w) : c = c' := by
  have hback : c ^^^ (c' ^^^ c') = c' := by rw [← BitVec.xor_assoc, h, BitVec.zero_xor]
  rwa [BitVec.xor_self, BitVec.xor_zero] at hback

/-- The pattern shows in the highest bit, which is free after the shift. -/
theorem eq_zero_of_shiftOut (hp : p.msb = true) (h : shiftOut p c = 0#w) : c = 0#w := by
  cases w with
  | zero => exact Subsingleton.elim _ _
  | succ w =>
  unfold shiftOut at h
  split at h
  · have hpattern : c >>> 1 = p := eq_of_xor_eq_zero h
    have hmsb : (c >>> 1).msb = true := by rw [hpattern, hp]
    rw [BitVec.msb_ushiftRight] at hmsb
    exact absurd hmsb (by simp)
  · rename_i hlow
    apply BitVec.eq_of_getLsbD_eq
    intro i hi
    cases i with
    | zero => simpa using hlow
    | succ i =>
        have hbit := congrArg (fun c => c.getLsbD i) h
        simpa [Nat.add_comm 1 i] using hbit

theorem eq_zero_of_iterate (hp : p.msb = true) {n : Nat} (h : (shiftOut p)^[n] c = 0#w) :
    c = 0#w := by
  induction n with
  | zero => exact h
  | succ n ih =>
      rw [Function.iterate_succ_apply'] at h
      exact ih (eq_zero_of_shiftOut hp h)

theorem iterate_injective (hp : p.msb = true) (n : Nat) :
    Function.Injective (shiftOut p)^[n] := by
  intro c c' h
  have hzero : (shiftOut p)^[n] (c ^^^ c') = 0#w := by rw [iterate_xor, h, BitVec.xor_self]
  exact eq_of_xor_eq_zero (eq_zero_of_iterate hp hzero)

/-! ## What the register is fed -/

@[simp] theorem feed_nil : feed p c [] = c := rfl

theorem feed_cons (bit : Bool) :
    feed p c (bit :: bits) = feed p (shiftOut p (c ^^^ ofBit bit)) bits := rfl

theorem feed_append (as bs : List Bool) : feed p c (as ++ bs) = feed p (feed p c as) bs := by
  rw [feed, List.foldl_append]
  rfl

theorem ofBit_xor (a b : Bool) : (ofBit (xor a b) : BitVec w) = ofBit a ^^^ ofBit b := by
  cases a <;> cases b <;> simp [ofBit]

theorem feed_zipWith (as bs : List Bool) (h : as.length = bs.length) :
    feed p (c ^^^ c') (as.zipWith xor bs) = feed p c as ^^^ feed p c' bs := by
  induction as generalizing bs c c' with
  | nil =>
      have hnil : bs = [] := List.length_eq_zero_iff.mp h.symm
      rw [hnil]
      rfl
  | cons a as ih =>
      cases bs with
      | nil => cases h
      | cons b bs =>
          have hlength : as.length = bs.length := Nat.succ.inj h
          have hpair : (c ^^^ c') ^^^ ofBit (xor a b) = (c ^^^ ofBit a) ^^^ (c' ^^^ ofBit b) := by
            rw [ofBit_xor, BitVec.xor_assoc, BitVec.xor_assoc, ← BitVec.xor_assoc c',
              BitVec.xor_comm c' (ofBit a), BitVec.xor_assoc (ofBit a)]
          rw [List.zipWith_cons_cons, feed_cons, feed_cons, feed_cons, hpair, shiftOut_xor,
            ih bs hlength]

/-- What was in the register and what it is fed add up. -/
theorem feed_eq : feed p c bits = (shiftOut p)^[bits.length] c ^^^ feed p (0#w) bits := by
  induction bits generalizing c with
  | nil => rw [feed_nil, feed_nil, BitVec.xor_zero]; rfl
  | cons bit bits ih =>
      rw [feed_cons, ih, shiftOut_xor, iterate_xor, feed_cons, ih (c := shiftOut p (0#w ^^^ _)),
        BitVec.zero_xor, BitVec.xor_assoc, List.length_cons, Function.iterate_succ_apply]

theorem feed_zero_false : feed p (0#w) (false :: bits) = feed p (0#w) bits := by
  rw [feed_cons, ofBit, if_neg Bool.false_ne_true, BitVec.xor_zero, shiftOut_zero]

theorem feed_zero_true :
    feed p (0#w) (true :: bits) = (shiftOut p)^[bits.length + 1] (1#w) ^^^ feed p (0#w) bits := by
  rw [feed_cons, ofBit, if_pos rfl, BitVec.zero_xor, feed_eq, Function.iterate_succ_apply]

theorem shiftOut_low (hw : 0 < w) : shiftOut p (c ^^^ ofBit (c.getLsbD 0)) = c >>> 1 := by
  have hone : (1#w).getLsbD 0 = true := by simp [hw]
  have hshift : (1#w) >>> 1 = 0#w := by
    apply BitVec.eq_of_getLsbD_eq
    intro i _
    simp [BitVec.getLsbD_one]
  cases hlow : c.getLsbD 0
  · simp [ofBit, shiftOut, hlow]
  · simp [ofBit, shiftOut, BitVec.getLsbD_xor, hlow, hone, BitVec.ushiftRight_xor_distrib, hshift]

/-- Bits that are in the register already just leave it. -/
theorem feed_lowBits (hw : 0 < w) (n : Nat) : feed p c (lowBits n c) = c >>> n := by
  induction n generalizing c with
  | zero => simp [lowBits]
  | succ n ih =>
      rw [lowBits, feed_cons, shiftOut_low hw, ih, ← BitVec.shiftRight_add, Nat.add_comm 1 n]

/-- A few bits can be added to the register at once. -/
theorem feed_of_le {n : Nat} (hn : n ≤ w) {c' : BitVec v} (hv : v ≤ n) :
    feed p c (lowBits n c') = (shiftOut p)^[n] (c ^^^ c'.setWidth w) := by
  rcases Nat.eq_zero_or_pos w with rfl | hw
  · exact Subsingleton.elim _ _
  have hbits : lowBits n c' = lowBits n (c'.setWidth w) := by
    apply lowBits_congr
    intro i hi
    rw [BitVec.getLsbD_setWidth, decide_eq_true (Nat.lt_of_lt_of_le hi hn), Bool.true_and]
  have hgone : (c'.setWidth w) >>> n = 0#w := by
    apply BitVec.eq_of_getLsbD_eq
    intro i _
    rw [BitVec.getLsbD_ushiftRight, BitVec.getLsbD_setWidth, BitVec.getLsbD_of_ge c' _ (by omega)]
    simp
  have hfed := feed_lowBits (p := p) (c := c'.setWidth w) hw n
  rw [hgone, feed_eq, length_lowBits] at hfed
  rw [hbits, feed_eq, length_lowBits, iterate_xor, eq_of_xor_eq_zero hfed]

/-! ## Strings that leave nothing -/

theorem feed_of_count_zero (h : bits.count true = 0) : feed p (0#w) bits = 0#w := by
  induction bits with
  | nil => rfl
  | cons bit bits ih =>
      cases bit with
      | true => rw [List.count_cons_self] at h; omega
      | false =>
          rw [List.count_cons_of_ne Bool.false_ne_true] at h
          rw [feed_zero_false, ih h]

theorem feed_of_count_one (h : bits.count true = 1) :
    ∃ k, 0 < k ∧ k ≤ bits.length ∧ feed p (0#w) bits = (shiftOut p)^[k] (1#w) := by
  induction bits with
  | nil => cases h
  | cons bit bits ih =>
      rw [List.length_cons]
      cases bit with
      | true =>
          rw [List.count_cons_self] at h
          have hrest : bits.count true = 0 := Nat.succ.inj h
          refine ⟨bits.length + 1, Nat.succ_pos _, Nat.le_refl _, ?_⟩
          rw [feed_zero_true, feed_of_count_zero hrest, BitVec.xor_zero]
      | false =>
          rw [List.count_cons_of_ne Bool.false_ne_true] at h
          obtain ⟨k, hpos, hle, hfeed⟩ := ih h
          exact ⟨k, hpos, by omega, by rw [feed_zero_false, hfeed]⟩

theorem feed_of_count_two (h : bits.count true = 2) :
    ∃ j k, 0 < j ∧ j < k ∧ k ≤ bits.length ∧
      feed p (0#w) bits = (shiftOut p)^[k] (1#w) ^^^ (shiftOut p)^[j] (1#w) := by
  induction bits with
  | nil => cases h
  | cons bit bits ih =>
      rw [List.length_cons]
      cases bit with
      | true =>
          rw [List.count_cons_self] at h
          obtain ⟨j, hpos, hle, hfeed⟩ := feed_of_count_one (p := p) (Nat.succ.inj h)
          exact ⟨j, bits.length + 1, hpos, by omega, Nat.le_refl _, by rw [feed_zero_true, hfeed]⟩
      | false =>
          rw [List.count_cons_of_ne Bool.false_ne_true] at h
          obtain ⟨j, k, hpos, hlt, hle, hfeed⟩ := ih h
          exact ⟨j, k, hpos, hlt, by omega, by rw [feed_zero_false, hfeed]⟩

/-- A bit that is alone in the register does not come back within `n` turns. -/
def Apart (p : BitVec w) (n : Nat) : Prop := ∀ k, 0 < k → k < n → (shiftOut p)^[k] (1#w) ≠ 1#w

theorem Apart.mono {m n : Nat} (h : Apart p n) (hmn : m ≤ n) : Apart p m :=
  fun k hpos hlt => h k hpos (Nat.lt_of_lt_of_le hlt hmn)

theorem iterate_ne (hp : p.msb = true) {n : Nat} (h : Apart p n) {j k : Nat} (hjk : j < k)
    (hk : k - j < n) : (shiftOut p)^[k] (1#w) ≠ (shiftOut p)^[j] (1#w) := by
  intro heq
  have hsplit : j + (k - j) = k := by omega
  rw [← hsplit, Function.iterate_add_apply] at heq
  exact h (k - j) (by omega) hk (iterate_injective hp j heq)

theorem one_ne_zero (hp : p.msb = true) : (1#w) ≠ 0#w := by
  intro h
  have hw : 0 < w := by
    rcases Nat.eq_zero_or_pos w with rfl | hw
    · rw [Subsingleton.elim p 0#0] at hp
      cases hp
    · exact hw
  have hbit := congrArg (fun c => c.getLsbD 0) h
  simp [hw] at hbit

/-- Neither one nor two bits go unnoticed. -/
theorem three_le_count (hp : p.msb = true) (h : Apart p bits.length)
    (hfeed : feed p (0#w) bits = 0#w) (hset : bits.count true ≠ 0) : 3 ≤ bits.count true := by
  by_contra hlt
  have hcases : bits.count true = 1 ∨ bits.count true = 2 := by omega
  rcases hcases with hone | htwo
  · obtain ⟨k, -, -, hleft⟩ := feed_of_count_one (p := p) hone
    exact one_ne_zero hp (eq_zero_of_iterate hp (hleft.symm.trans hfeed))
  · obtain ⟨j, k, hpos, hlt, hle, hleft⟩ := feed_of_count_two (p := p) htwo
    exact iterate_ne hp h hlt (by omega) (eq_of_xor_eq_zero (hleft.symm.trans hfeed))

/-! ## Parity -/

theorem parity_shiftOut (hp : parity (lowBits w p) = true) :
    parity (lowBits w (shiftOut p c)) = parity (lowBits w c) := by
  have hshift : parity (lowBits w c) = xor (c.getLsbD 0) (parity (lowBits w (c >>> 1))) := by
    have hlast := congrArg parity (lowBits_succ w c)
    rw [lowBits, parity, parity_append, BitVec.getLsbD_of_ge c w (Nat.le_refl w)] at hlast
    rw [hlast]
    simp [parity]
  rw [hshift, shiftOut]
  cases c.getLsbD 0
  · rw [if_neg Bool.false_ne_true, Bool.false_xor]
  · rw [if_pos rfl, lowBits_xor, parity_zipWith _ _ (by rw [length_lowBits, length_lowBits]), hp,
      Bool.xor_comm]

theorem parity_ofBit (hw : 0 < w) (bit : Bool) :
    parity (lowBits w (ofBit bit : BitVec w)) = bit := by
  obtain ⟨w, rfl⟩ := Nat.exists_eq_succ_of_ne_zero (Nat.ne_of_gt hw)
  have hzero : ∀ n, parity (lowBits n (0#(w + 1))) = false := by
    intro n
    induction n with
    | zero => rfl
    | succ n ih => rw [lowBits, parity, BitVec.zero_ushiftRight, ih]; simp
  have hrest : (ofBit bit : BitVec (w + 1)) >>> 1 = 0#(w + 1) := by
    apply BitVec.eq_of_getLsbD_eq
    intro i _
    cases bit <;> simp [ofBit, BitVec.getLsbD_one]
  rw [lowBits, parity, hrest, hzero]
  cases bit <;> simp [ofBit]

/-- With such a pattern the register keeps count of the bits, modulo 2. -/
theorem parity_feed (hw : 0 < w) (hp : parity (lowBits w p) = true) :
    parity (lowBits w (feed p c bits)) = xor (parity (lowBits w c)) (parity bits) := by
  induction bits generalizing c with
  | nil => simp [parity]
  | cons bit bits ih =>
      rw [feed_cons, ih, parity_shiftOut hp, lowBits_xor,
        parity_zipWith _ _ (by rw [length_lowBits, length_lowBits]), parity_ofBit hw, parity,
        Bool.xor_assoc]

theorem four_le_count (hp : p.msb = true) (hodd : parity (lowBits w p) = true)
    (h : Apart p bits.length) (hfeed : feed p (0#w) bits = 0#w) (hset : bits.count true ≠ 0) :
    4 ≤ bits.count true := by
  have hw : 0 < w := by
    rcases Nat.eq_zero_or_pos w with rfl | hw
    · cases hodd
    · exact hw
  have hthree := three_le_count hp h hfeed hset
  have heven : parity bits = false := by
    have hparity : parity (lowBits w (feed p (0#w) bits)) =
        xor (parity (lowBits w (0#w))) (parity bits) := parity_feed hw hodd
    rw [hfeed] at hparity
    cases hcount : parity bits with
    | false => rfl
    | true => rw [hcount] at hparity; cases hzero : parity (lowBits w (0#w)) <;> simp_all
  rw [parity_eq] at heven
  have hne : bits.count true ≠ 3 := by
    intro hcount
    rw [hcount] at heven
    cases heven
  omega

/-! ## Bursts -/

theorem count_zero_of_short (hp : p.msb = true) (hlength : bits.length ≤ w)
    (hfeed : feed p (0#w) bits = 0#w) : bits.count true = 0 := by
  have hfed : feed p (0#w) (lowBits bits.length (BitVec.ofBoolListLE bits)) =
      (shiftOut p)^[bits.length] (0#w ^^^ (BitVec.ofBoolListLE bits).setWidth w) :=
    feed_of_le hlength (Nat.le_refl _)
  rw [lowBits_ofBoolListLE, hfeed, BitVec.zero_xor] at hfed
  have hnothing : (BitVec.ofBoolListLE bits).setWidth w = 0#w := eq_zero_of_iterate hp hfed.symm
  apply List.count_eq_zero.mpr
  intro hmem
  obtain ⟨i, hi, hbit⟩ := List.getElem_of_mem hmem
  have hset := congrArg (fun c => c.getLsbD i) hnothing
  have hi' : i < w := Nat.lt_of_lt_of_le hi hlength
  simp [hi', List.getElem?_eq_getElem hi, hbit] at hset

/-- Bits that lie within the width of the register do not go unnoticed. -/
theorem count_zero_of_burst (hp : p.msb = true) (hfeed : feed p (0#w) bits = 0#w) (start : Nat)
    (hburst : ∀ i, bits.getD i false = true → start ≤ i ∧ i < start + w) :
    bits.count true = 0 := by
  have hsplit :
      bits = bits.take start ++ ((bits.drop start).take w ++ (bits.drop start).drop w) := by
    rw [List.take_append_drop, List.take_append_drop]
  have hfront : (bits.take start).count true = 0 := by
    apply List.count_eq_zero.mpr
    intro hmem
    obtain ⟨i, hi, hbit⟩ := List.getElem_of_mem hmem
    rw [List.length_take] at hi
    rw [List.getElem_take] at hbit
    have hset := hburst i (by rw [List.getD_eq_getElem?_getD, List.getElem?_eq_getElem (by omega),
      hbit, Option.getD_some])
    omega
  have hback : ((bits.drop start).drop w).count true = 0 := by
    apply List.count_eq_zero.mpr
    intro hmem
    obtain ⟨i, hi, hbit⟩ := List.getElem_of_mem hmem
    rw [List.length_drop, List.length_drop] at hi
    rw [List.getElem_drop, List.getElem_drop] at hbit
    have hset := hburst (start + (w + i)) (by rw [List.getD_eq_getElem?_getD,
      List.getElem?_eq_getElem (by omega), hbit, Option.getD_some])
    omega
  have hmiddle : feed p (0#w) ((bits.drop start).take w) = 0#w := by
    rw [hsplit, feed_append, feed_append, feed_of_count_zero hfront, feed_eq,
      feed_of_count_zero hback, BitVec.xor_zero] at hfeed
    exact eq_zero_of_iterate hp hfeed
  rw [hsplit, List.count_append, List.count_append, hfront, hback,
    count_zero_of_short hp (by rw [List.length_take]; omega) hmiddle]

end Pjon.Lib.Remainder
