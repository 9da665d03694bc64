import Mathlib.Data.Nat.ModEq
/-!
# A log in a ring

Entry `k` of a log is kept in slot `k % q` of a ring, under a serial number that counts modulo
`M` from 1 on.  What a slot holds, and how far apart two entries are, is told from that.
-/

namespace Pjon.Lib.Ring

/-! ## Slots -/

section Slots

variable {q n k k' i : Nat}

/-- A slot that has been used holds one of the last `q` entries. -/
theorem exists_held (hi : i < q) (hn : i < n) : ∃ k, k < n ∧ n ≤ k + q ∧ k % q = i := by
  have hd : (n - 1 - i) % q < q := Nat.mod_lt _ (Nat.zero_lt_of_lt hi)
  have hsplit := Nat.div_add_mod (n - 1 - i) q
  refine ⟨i + q * ((n - 1 - i) / q), by omega, by omega, ?_⟩
  rw [Nat.add_mul_mod_self_left, Nat.mod_eq_of_lt hi]

theorem held_unique (hk : k < n) (hkq : n ≤ k + q) (hk' : k' < n) (hkq' : n ≤ k' + q)
    (hslot : k % q = k' % q) : k = k' := by
  rcases Nat.le_total k k' with hle | hle
  · have hmod : k ≡ k' [MOD q] := hslot
    have hdvd := (Nat.modEq_iff_dvd' hle).mp hmod
    have hzero := Nat.eq_zero_of_dvd_of_lt hdvd (by omega)
    omega
  · have hmod : k' ≡ k [MOD q] := hslot.symm
    have hdvd := (Nat.modEq_iff_dvd' hle).mp hmod
    have hzero := Nat.eq_zero_of_dvd_of_lt hdvd (by omega)
    omega

end Slots

/-! ## Serial numbers -/

section Serial

variable {M k k' m : Nat}

/-- The serial number of entry `k`; zero is not used. -/
def serial (M k : Nat) : Nat := k % M + 1

/-- How far apart the serial numbers of the entries `k` and `m` are. -/
def gap (M m k : Nat) : Nat := m - k + (m / M - k / M)

theorem serial_le (hM : 0 < M) : serial M k ≤ M := Nat.mod_lt k hM

theorem serial_succ (hM : 0 < M) :
    serial M (k + 1) = if serial M k = M then 1 else serial M k + 1 := by
  have hk := Nat.mod_lt k hM
  have hsplit := Nat.div_add_mod k M
  rw [serial, serial]
  split_ifs with hlast
  · have hnext : k + 1 = M * (k / M + 1) := by
      rw [Nat.mul_succ]
      omega
    rw [hnext, Nat.mul_mod_right]
  · have hnext : k + 1 = M * (k / M) + (k % M + 1) := by omega
    have hsmall : k % M + 1 < M := Nat.lt_of_le_of_ne hk hlast
    rw [hnext, Nat.mul_add_mod, Nat.mod_eq_of_lt hsmall]

/-- The serial numbers start again between two entries once at most. -/
theorem div_cases (hM : 0 < M) (hk : k ≤ m) (hm : m < k + M) :
    m / M = k / M ∨ m / M = k / M + 1 := by
  have hle : k / M ≤ m / M := Nat.div_le_div_right hk
  have hlt : m / M < k / M + 2 := by
    rw [Nat.div_lt_iff_lt_mul hM, Nat.add_mul]
    have hsplit := Nat.div_add_mod k M
    have hrest := Nat.mod_lt k hM
    rw [Nat.mul_comm] at hsplit
    omega
  omega

theorem gap_le (hM : 0 < M) (hk : k ≤ m) (hm : m < k + M) : gap M m k ≤ m - k + 1 := by
  rw [gap]
  rcases div_cases hM hk hm with hsame | hnext
  · omega
  · omega

theorem gap_self : gap M m m = 0 := by
  rw [gap, Nat.sub_self, Nat.sub_self]

/-- Later entries are closer. -/
theorem gap_lt (hk : k < k') (hk' : k' ≤ m) : gap M m k' < gap M m k := by
  have hdiv : k / M ≤ k' / M := Nat.div_le_div_right (Nat.le_of_lt hk)
  have hdiv' : k' / M ≤ m / M := Nat.div_le_div_right hk'
  rw [gap, gap]
  omega

theorem gap_lt_gap {m' : Nat} (hk : k ≤ m) (hm : m < m') : gap M m k < gap M m' k := by
  have hdiv : m / M ≤ m' / M := Nat.div_le_div_right (Nat.le_of_lt hm)
  rw [gap, gap]
  omega

/-- The difference of two serial numbers, where they are counted with one more than `M`. -/
theorem serial_sub (hM : 0 < M) (hk : k ≤ m) (hm : m < k + M) :
    serial M k + gap M m k ≡ serial M m [MOD M + 1] := by
  have hsplit := Nat.div_add_mod k M
  have hsplit' := Nat.div_add_mod m M
  rw [serial, serial, gap]
  rcases div_cases hM hk hm with hsame | hnext
  · rw [hsame] at hsplit' ⊢
    have hsum : k % M + 1 + (m - k + (k / M - k / M)) = m % M + 1 := by omega
    rw [hsum]
  · rw [hnext, Nat.mul_succ] at hsplit'
    rw [hnext]
    have hsum : k % M + 1 + (m - k + (k / M + 1 - k / M)) = m % M + 1 + (M + 1) := by omega
    rw [hsum]
    exact Nat.add_mod_right _ _

end Serial

end Pjon.Lib.Ring
