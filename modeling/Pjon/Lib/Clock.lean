import Mathlib.Data.Nat.ModEq
/-!
# Clocks that wrap around

A timer that compares what has elapsed with a limit, both modulo the range of the clock, and
one that takes the limit off the clock before it compares.
-/

namespace Pjon.Lib

namespace Clock

variable {n limit elapsed : Nat}

/-- What has elapsed seems never more than it is: a limit within the range is kept. -/
theorem limit_lt_elapsed (hlimit : limit < n) (h : limit % n < elapsed % n) : limit < elapsed :=
  calc
    limit = limit % n := (Nat.mod_eq_of_lt hlimit).symm
    _ < elapsed % n := h
    _ ≤ elapsed := Nat.mod_le _ _

/-- A limit beyond the range is kept by chance only: if it wraps to the last value of the
clock, which nothing exceeds. -/
theorem keeps_limit_iff (hn : 0 < n) :
    (∀ elapsed, limit % n < elapsed % n → limit < elapsed) ↔ limit < n ∨ limit % n + 1 = n := by
  constructor
  · intro h
    by_contra hnot
    rw [not_or, not_lt] at hnot
    have hlt : limit % n + 1 < n := by
      have := Nat.mod_lt limit hn
      omega
    have hearly := h (limit % n + 1) (by rw [Nat.mod_eq_of_lt hlt]; omega)
    omega
  · rintro (hlimit | hlast) elapsed h
    · exact limit_lt_elapsed hlimit h
    · have := Nat.mod_lt elapsed hn
      omega

/-- The difference of two readings of a 32-bit clock. -/
theorem toNat_ofNat_sub_ofNat {start now : Nat} (h : start ≤ now) :
    (UInt32.ofNat now - UInt32.ofNat start).toNat = (now - start) % 2 ^ 32 := by
  rw [← UInt32.ofNat_sub h, UInt32.toNat_ofNat']

/-! ## The limit is taken off first -/

section TakenOff

variable {start : Nat}

/-- The clock less the limit, which wraps below 0. -/
def taken (n limit start elapsed : Nat) : Nat := (start + elapsed + (n - limit)) % n

/-- Before the limit the difference lies below the start if it does not wrap. -/
theorem taken_le_iff_of_lt (hstart : start < n) (hlimit : limit < n) (h : elapsed < limit) :
    taken n limit start elapsed ≤ start ↔ limit ≤ start + elapsed := by
  unfold taken
  by_cases hreached : limit ≤ start + elapsed
  · have hdown : start + elapsed + (n - limit) = (start + elapsed - limit) + n := by omega
    rw [hdown, Nat.add_mod_right, Nat.mod_eq_of_lt (by omega)]
    exact iff_of_true (by omega) hreached
  · rw [Nat.mod_eq_of_lt (by omega)]
    exact iff_of_false (by omega) hreached

theorem taken_self (hstart : start < n) (hlimit : limit < n) :
    taken n limit start limit = start :=
  calc
    taken n limit start limit = (start + n) % n := by
      unfold taken
      congr 1
      omega
    _ = start := by rw [Nat.add_mod_right, Nat.mod_eq_of_lt hstart]

/-- Behind the limit the difference lies above the start if it does not wrap. -/
theorem lt_taken_iff_of_lt (hstart : start < n) (hlimit : limit < n) (h : limit < elapsed) :
    start < taken n limit start elapsed ↔
      0 < (elapsed - limit) % n ∧ start + (elapsed - limit) % n < n := by
  have hexcess : taken n limit start elapsed = (start + (elapsed - limit) % n) % n :=
    calc
      taken n limit start elapsed = (start + (elapsed - limit) + n) % n := by
        unfold taken
        congr 1
        omega
      _ = (start + (elapsed - limit) % n) % n := by rw [Nat.add_mod_right, Nat.add_mod_mod]
  have hlt := Nat.mod_lt (elapsed - limit) (Nat.zero_lt_of_lt hstart)
  rw [hexcess]
  by_cases hwrap : start + (elapsed - limit) % n < n
  · rw [Nat.mod_eq_of_lt hwrap]
    omega
  · have hdown : (start + (elapsed - limit) % n) % n = start + (elapsed - limit) % n - n := by
      rw [Nat.mod_eq_sub_mod (Nat.le_of_not_lt hwrap), Nat.mod_eq_of_lt (by omega)]
    rw [hdown]
    omega

/-- Two readings of a 32-bit clock, less a limit. -/
theorem toNat_add_ofNat_sub (start limit : UInt32) (elapsed : Nat) :
    (start + UInt32.ofNat elapsed - limit).toNat =
      taken (2 ^ 32) limit.toNat start.toNat elapsed := by
  have hlimit := limit.toNat_lt
  rw [UInt32.toNat_sub, UInt32.toNat_add, UInt32.toNat_ofNat', taken]
  omega

end TakenOff

end Clock

end Pjon.Lib
