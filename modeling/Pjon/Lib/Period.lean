import Pjon.Lib.Remainder
import Mathlib.Dynamics.PeriodicPts.Defs
import Mathlib.Data.Nat.Prime.Basic
/-!
# How long a bit stays away

The registers are polynomials modulo the pattern, their highest bit is the constant 1,
and shifting out is multiplication by the variable.  Products give powers of the shift
by repeated squaring, and with them the period of the register.
-/

namespace Pjon.Lib.Remainder

variable {w : Nat} {p c : BitVec w} {bits : List Bool}

/-- The constant 1. -/
def unit (w : Nat) : BitVec w := BitVec.twoPow w (w - 1)

/-! ## Products -/

/-- `c` is added for every bit that is set. -/
def spread (p c sum : BitVec w) (bits : List Bool) : BitVec w :=
  bits.foldl (fun sum bit => shiftOut p sum ^^^ if bit then c else 0#w) sum

def times (p a c : BitVec w) : BitVec w := spread p c (0#w) (lowBits w a)

theorem spread_cons (sum : BitVec w) (bit : Bool) :
    spread p c sum (bit :: bits) =
      spread p c (shiftOut p sum ^^^ if bit then c else 0#w) bits := rfl

theorem spread_append_singleton (sum : BitVec w) (bit : Bool) :
    spread p c sum (bits ++ [bit]) =
      shiftOut p (spread p c sum bits) ^^^ if bit then c else 0#w := by
  rw [spread, List.foldl_append]
  rfl

theorem spread_xor (sum sum' : BitVec w) :
    spread p c (sum ^^^ sum') bits =
      (shiftOut p)^[bits.length] sum' ^^^ spread p c sum bits := by
  induction bits generalizing sum sum' with
  | nil => exact BitVec.xor_comm sum sum'
  | cons bit bits ih =>
      have hsum : shiftOut p (sum ^^^ sum') ^^^ (if bit then c else 0#w) =
          (shiftOut p sum ^^^ if bit then c else 0#w) ^^^ shiftOut p sum' := by
        rw [shiftOut_xor, BitVec.xor_assoc, BitVec.xor_comm (shiftOut p sum'), BitVec.xor_assoc]
      rw [spread_cons, spread_cons, hsum, ih, List.length_cons, Function.iterate_succ_apply]

theorem spread_zipWith (as bs : List Bool) (h : as.length = bs.length) (sum sum' : BitVec w) :
    spread p c (sum ^^^ sum') (as.zipWith xor bs) = spread p c sum as ^^^ spread p c sum' bs := by
  induction as generalizing bs sum sum' with
  | nil =>
      have hnil : bs = [] := List.length_eq_zero_iff.mp h.symm
      rw [hnil]
      rfl
  | cons a as ih =>
      cases bs with
      | nil => cases h
      | cons b bs =>
          have hsum : (shiftOut p (sum ^^^ sum') ^^^ if xor a b then c else 0#w) =
              (shiftOut p sum ^^^ if a then c else 0#w) ^^^
                (shiftOut p sum' ^^^ if b then c else 0#w) := by
            rw [shiftOut_xor]
            apply BitVec.eq_of_getLsbD_eq
            intro i _
            cases a <;> cases b <;>
              simp [Bool.xor_left_comm, Bool.xor_comm]
          rw [List.zipWith_cons_cons, spread_cons, spread_cons, spread_cons, hsum,
            ih bs (Nat.succ.inj h)]

theorem times_xor (a a' : BitVec w) : times p (a ^^^ a') c = times p a c ^^^ times p a' c := by
  have hsum := spread_zipWith (p := p) (c := c) (lowBits w a) (lowBits w a')
    (by rw [length_lowBits, length_lowBits]) (0#w) (0#w)
  rwa [BitVec.xor_zero, ← lowBits_xor] at hsum

/-- The unit is neutral on the right. -/
theorem spread_unit (a : BitVec w) {n : Nat} (hn : n ≤ w) :
    spread p (unit w) (0#w) (lowBits n a) = a <<< (w - n) := by
  induction n with
  | zero =>
      apply BitVec.eq_of_getLsbD_eq
      intro i hi
      simp [lowBits, spread, hi]
  | succ n ih =>
      have hlow : (a <<< (w - n)).getLsbD 0 = false := by
        rw [BitVec.getLsbD_shiftLeft]
        simp
        omega
      rw [lowBits_succ, spread_append_singleton, ih (by omega), shiftOut, hlow,
        if_neg Bool.false_ne_true]
      apply BitVec.eq_of_getLsbD_eq
      intro i hi
      rw [BitVec.getLsbD_xor, BitVec.getLsbD_ushiftRight, BitVec.getLsbD_shiftLeft,
        BitVec.getLsbD_shiftLeft]
      rcases Nat.lt_or_ge (1 + i) w with hinner | htop
      · have hunit : (if a.getLsbD n then unit w else 0#w).getLsbD i = false := by
          split
          · rw [unit, BitVec.getLsbD_twoPow]
            simp
            omega
          · exact BitVec.getLsbD_zero
        have hindex : 1 + i - (w - n) = i - (w - (n + 1)) := by omega
        have hside : (1 + i < w - n) = (i < w - (n + 1)) := propext (by omega)
        rw [hunit, Bool.xor_false, hindex]
        simp only [hside, hinner, hi]
      · have hlast : i = w - 1 := by omega
        have hunit : (if a.getLsbD n then unit w else 0#w).getLsbD i = a.getLsbD n := by
          split
          · rename_i hset
            rw [unit, BitVec.getLsbD_twoPow, hset, hlast]
            simp
            omega
          · rename_i hclear
            rw [BitVec.getLsbD_zero, Bool.not_eq_true] at *
            exact hclear.symm
        have hindex : i - (w - (n + 1)) = n := by omega
        have hover : ¬1 + i < w := by omega
        have hunder : ¬i < w - (n + 1) := by omega
        rw [hunit, hindex]
        simp [hover, hunder, hi]

theorem times_unit (a : BitVec w) : times p a (unit w) = a := by
  rw [times, spread_unit a (Nat.le_refl w), Nat.sub_self, BitVec.shiftLeft_zero]

/-- Every register is made of the unit by shifting out and adding. -/
theorem register_induction {q : BitVec w → Prop} (hzero : q (0#w)) (hunit : q (unit w))
    (hxor : ∀ c c', q c → q c' → q (c ^^^ c')) (hshift : ∀ c, q c → q (shiftOut p c))
    (c : BitVec w) : q c := by
  have hspread : ∀ n, q (spread p (unit w) (0#w) (lowBits n c)) := by
    intro n
    induction n with
    | zero => exact hzero
    | succ n ih =>
        rw [lowBits_succ, spread_append_singleton]
        apply hxor _ _ (hshift _ ih)
        split
        · exact hunit
        · exact hzero
  have hself := hspread w
  rwa [← times, times_unit] at hself

theorem spread_add (c' sum sum' : BitVec w) :
    spread p (c ^^^ c') (sum ^^^ sum') bits = spread p c sum bits ^^^ spread p c' sum' bits := by
  induction bits generalizing sum sum' with
  | nil => rfl
  | cons bit bits ih =>
      have hsum : (shiftOut p (sum ^^^ sum') ^^^ if bit then c ^^^ c' else 0#w) =
          (shiftOut p sum ^^^ if bit then c else 0#w) ^^^
            (shiftOut p sum' ^^^ if bit then c' else 0#w) := by
        rw [shiftOut_xor]
        apply BitVec.eq_of_getLsbD_eq
        intro i _
        cases bit <;> simp [Bool.xor_left_comm]
      rw [spread_cons, spread_cons, spread_cons, hsum, ih]

theorem spread_shiftOut (sum : BitVec w) :
    spread p (shiftOut p c) (shiftOut p sum) bits = shiftOut p (spread p c sum bits) := by
  induction bits generalizing sum with
  | nil => rfl
  | cons bit bits ih =>
      have hsum : (shiftOut p (shiftOut p sum) ^^^ if bit then shiftOut p c else 0#w) =
          shiftOut p (shiftOut p sum ^^^ if bit then c else 0#w) := by
        rw [shiftOut_xor]
        cases bit
        · rw [if_neg Bool.false_ne_true, if_neg Bool.false_ne_true, shiftOut_zero]
        · rw [if_pos rfl, if_pos rfl]
      rw [spread_cons, spread_cons, hsum, ih]

theorem times_add (a c' : BitVec w) : times p a (c ^^^ c') = times p a c ^^^ times p a c' := by
  have hsum : spread p (c ^^^ c') (0#w ^^^ 0#w) (lowBits w a) =
      times p a c ^^^ times p a c' := spread_add c' (0#w) (0#w)
  rwa [BitVec.xor_zero] at hsum

theorem times_shiftOut_right (a : BitVec w) :
    times p a (shiftOut p c) = shiftOut p (times p a c) := by
  have hshift : spread p (shiftOut p c) (shiftOut p (0#w)) (lowBits w a) =
      shiftOut p (times p a c) := spread_shiftOut (0#w)
  rwa [shiftOut_zero] at hshift

theorem times_zero (a : BitVec w) : times p a (0#w) = 0#w := by
  have hself := times_add (p := p) (c := 0#w) a (0#w)
  rwa [BitVec.xor_self, BitVec.xor_self] at hself

theorem iterate_unit {n : Nat} (hn : n < w) :
    (shiftOut p)^[n] (unit w) = BitVec.twoPow w (w - 1 - n) := by
  induction n with
  | zero => rfl
  | succ n ih =>
      have hlow : (BitVec.twoPow w (w - 1 - n)).getLsbD 0 = false := by
        rw [BitVec.getLsbD_twoPow]
        simp
        omega
      rw [Function.iterate_succ_apply', ih (by omega), shiftOut, hlow, if_neg Bool.false_ne_true]
      apply BitVec.eq_of_getLsbD_eq
      intro i hi
      rw [BitVec.getLsbD_ushiftRight, BitVec.getLsbD_twoPow, BitVec.getLsbD_twoPow]
      have hindex : (w - 1 - n = 1 + i) = (w - 1 - (n + 1) = i) := propext (by omega)
      simp only [hindex]
      congr 1
      exact decide_eq_decide.mpr (by omega)

theorem iterate_unit_last (hw : 0 < w) : (shiftOut p)^[w - 1] (unit w) = 1#w := by
  rw [iterate_unit (by omega), Nat.sub_self]
  exact BitVec.eq_of_toNat_eq (by simp)

/-- The pattern is the first power that does not fit the register. -/
theorem times_pattern (c : BitVec w) : times p p c = (shiftOut p)^[w] c := by
  rcases Nat.eq_zero_or_pos w with rfl | hw
  · exact Subsingleton.elim _ _
  induction c using register_induction (p := p) with
  | hzero => rw [times_zero, iterate_zero]
  | hunit =>
      have hone : (1#w).getLsbD 0 = true := by simp [hw]
      have hshift : (1#w) >>> 1 = 0#w := by
        apply BitVec.eq_of_getLsbD_eq
        intro i _
        simp [BitVec.getLsbD_one]
      have hlast : (shiftOut p)^[w] (unit w) = shiftOut p ((shiftOut p)^[w - 1] (unit w)) := by
        rw [← Function.iterate_succ_apply' (shiftOut p), Nat.succ_eq_add_one, Nat.sub_add_cancel hw]
      rw [times_unit, hlast, iterate_unit_last hw, shiftOut, hone, if_pos rfl, hshift,
        BitVec.zero_xor]
  | hxor c c' hc hc' => rw [times_add, hc, hc', iterate_xor]
  | hshift c hc =>
      rw [times_shiftOut_right, hc, ← Function.iterate_succ_apply' (shiftOut p),
        Function.iterate_succ_apply]

/-- Shifting out of a factor shifts the product. -/
theorem times_shiftOut (a : BitVec w) : times p (shiftOut p a) c = shiftOut p (times p a c) := by
  cases w with
  | zero => exact Subsingleton.elim _ _
  | succ w =>
  have hshifted : times p (a >>> 1) c =
      shiftOut p (spread p c (0#(w + 1)) (lowBits w (a >>> 1))) := by
    rw [times, lowBits_succ, BitVec.getLsbD_ushiftRight, BitVec.getLsbD_of_ge a _ (by omega),
      spread_append_singleton, if_neg Bool.false_ne_true, BitVec.xor_zero]
  have hwhole : times p a c =
      (shiftOut p)^[w] (if a.getLsbD 0 then c else 0#(w + 1)) ^^^
        spread p c (0#(w + 1)) (lowBits w (a >>> 1)) := by
    rw [times, lowBits, spread_cons, shiftOut_zero, spread_xor, length_lowBits]
  rw [hwhole, shiftOut_xor, ← hshifted, ← Function.iterate_succ_apply' (shiftOut p)]
  cases hlow : a.getLsbD 0
  · rw [shiftOut, hlow, if_neg Bool.false_ne_true, if_neg Bool.false_ne_true, iterate_zero,
      BitVec.zero_xor]
  · rw [shiftOut, hlow, if_pos rfl, if_pos rfl, times_xor, times_pattern, BitVec.xor_comm]

theorem unit_times (c : BitVec w) : times p (unit w) c = c := by
  induction c using register_induction (p := p) with
  | hzero => exact times_zero _
  | hunit => exact times_unit _
  | hxor c c' hc hc' => rw [times_add, hc, hc']
  | hshift c hc => rw [times_shiftOut_right, hc]

theorem times_power (n : Nat) : times p ((shiftOut p)^[n] (unit w)) c = (shiftOut p)^[n] c := by
  induction n with
  | zero => exact unit_times c
  | succ n ih => rw [Function.iterate_succ_apply', times_shiftOut, ih, Function.iterate_succ_apply']

/-! ## Powers -/

/-- Goes through an exponent from its highest bit on. -/
def raise (p c : BitVec w) (bits : List Bool) : BitVec w :=
  bits.foldl (fun c bit => if bit then shiftOut p (times p c c) else times p c c) c

def exponent (n : Nat) (bits : List Bool) : Nat :=
  bits.foldl (fun n bit => 2 * n + bit.toNat) n

theorem raise_power (n : Nat) :
    raise p ((shiftOut p)^[n] (unit w)) bits = (shiftOut p)^[exponent n bits] (unit w) := by
  induction bits generalizing n with
  | nil => rfl
  | cons bit bits ih =>
      have hsquare : times p ((shiftOut p)^[n] (unit w)) ((shiftOut p)^[n] (unit w)) =
          (shiftOut p)^[2 * n] (unit w) := by
        rw [times_power, ← Function.iterate_add_apply, Nat.two_mul]
      have hstep : raise p ((shiftOut p)^[n] (unit w)) (bit :: bits) =
          raise p ((shiftOut p)^[2 * n + bit.toNat] (unit w)) bits := by
        cases bit
        · rw [raise, List.foldl_cons, if_neg Bool.false_ne_true, hsquare]
          rfl
        · rw [raise, List.foldl_cons, if_pos rfl, hsquare,
            ← Function.iterate_succ_apply' (shiftOut p)]
          rfl
      rw [hstep, ih]
      rfl

/-! ## The period -/

/-- The bit is away for `n` turns if `n` brings it back and no `n / q` does. -/
theorem apart_of_prime_factors {n : Nat} (hp : p.msb = true)
    (hback : (shiftOut p)^[n] (unit w) = unit w)
    (haway : ∀ q, q.Prime → q ∣ n → (shiftOut p)^[n / q] (unit w) ≠ unit w) : Apart p n := by
  intro k hpos hlt hone
  have hw : 0 < w := by
    rcases Nat.eq_zero_or_pos w with rfl | hw
    · rw [Subsingleton.elim p 0#0] at hp
      cases hp
    · exact hw
  have hunit : (shiftOut p)^[k] (unit w) = unit w := by
    apply iterate_injective hp (w - 1)
    rw [← Function.iterate_add_apply, Nat.add_comm, Function.iterate_add_apply,
      iterate_unit_last hw, hone]
  have hk : Function.minimalPeriod (shiftOut p) (unit w) ∣ k :=
    Function.IsPeriodicPt.minimalPeriod_dvd hunit
  have hdvd : Function.minimalPeriod (shiftOut p) (unit w) ∣ n :=
    Function.IsPeriodicPt.minimalPeriod_dvd hback
  have hle := Nat.le_of_dvd hpos hk
  obtain ⟨t, ht⟩ := hdvd
  have hne : t ≠ 1 := by
    rintro rfl
    omega
  obtain ⟨q, hq, s, hs⟩ := Nat.exists_prime_and_dvd hne
  have hquotient : n / q = Function.minimalPeriod (shiftOut p) (unit w) * s := by
    rw [ht, hs, Nat.mul_left_comm, Nat.mul_div_cancel_left _ hq.pos]
  have hreturn : Function.IsPeriodicPt (shiftOut p) (n / q) (unit w) := by
    rw [hquotient]
    exact (Function.isPeriodicPt_minimalPeriod _ _).mul_const s
  exact haway q hq ⟨_, by rw [ht, hs, Nat.mul_left_comm]⟩ hreturn

end Pjon.Lib.Remainder
