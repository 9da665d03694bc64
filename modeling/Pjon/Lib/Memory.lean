import Mathlib.Data.List.Basic
import Mathlib.Data.Nat.Bitwise
import Mathlib.Tactic.Ring
/-!
# Byte memory behind a pointer

A buffer that a C function writes through a pointer, and the record of the
indexes it wrote.  Indexes of writes are integers, so that a write in front of
the pointer stays visible in the record; the memory itself is what lies at and
after the pointer.
-/

namespace Pjon.Lib

/-- The bytes at and after a pointer. -/
abbrev Memory := Nat → UInt8

/-- Stores through a pointer, oldest first. -/
abbrev Writes := List (Int × UInt8)

namespace Memory

/-- The `count` bytes from `start` on. -/
def load (memory : Memory) (start count : Nat) : List UInt8 :=
  (List.range count).map fun k => memory (start + k)

/-- `memcpy(memory + start, bytes, bytes.length)`. -/
def store (memory : Memory) (start : Nat) (bytes : List UInt8) : Memory :=
  fun j => if start ≤ j ∧ j < start + bytes.length then bytes.getD (j - start) 0 else memory j

/-- Perform the stores of a record.  One in front of the pointer reaches no
byte of the memory. -/
def apply (memory : Memory) (writes : Writes) : Memory :=
  writes.foldl (fun m w j => if (j : Int) = w.1 then w.2 else m j) memory

/-- `bytes` lie in memory from `start` on. -/
def Holds (memory : Memory) (start : Nat) (bytes : List UInt8) : Prop :=
  memory.load start bytes.length = bytes

@[simp] theorem length_load (memory : Memory) (start count : Nat) :
    (memory.load start count).length = count := by
  simp [load]

@[simp] theorem load_zero (memory : Memory) (start : Nat) : memory.load start 0 = [] := rfl

theorem load_getD (memory : Memory) (start count i : Nat) (hi : i < count) :
    (memory.load start count).getD i 0 = memory (start + i) := by
  simp [load, List.getD_eq_getElem?_getD, hi]

theorem load_append (memory : Memory) (start a b : Nat) :
    memory.load start (a + b) = memory.load start a ++ memory.load (start + a) b := by
  simp only [load, List.range_add, List.map_append, List.map_map]
  congr 1
  apply List.map_congr_left
  intro k _
  simp only [Function.comp_apply, Nat.add_assoc]

theorem load_congr {m m' : Memory} {start count : Nat}
    (h : ∀ k < count, m (start + k) = m' (start + k)) :
    m.load start count = m'.load start count := by
  apply List.map_congr_left
  intro k hk
  exact h k (List.mem_range.1 hk)

theorem load_eq_iff (memory : Memory) (start : Nat) (bytes : List UInt8) :
    memory.load start bytes.length = bytes ↔
      ∀ i < bytes.length, memory (start + i) = bytes.getD i 0 := by
  constructor
  · intro h i hi
    rw [← load_getD memory start bytes.length i hi, h]
  · intro h
    apply List.ext_getElem (by simp)
    intro i hleft hright
    have hi := h i hright
    rw [List.getD_eq_getElem?_getD, List.getElem?_eq_getElem hright] at hi
    simpa [load] using hi

/-! ## Writing and reading back -/

@[simp] theorem store_nil (memory : Memory) (start : Nat) : memory.store start [] = memory := by
  funext j
  simp only [store, List.length_nil, Nat.add_zero]
  exact if_neg (by omega)

theorem store_inside (memory : Memory) (start : Nat) (bytes : List UInt8) {i : Nat}
    (hi : i < bytes.length) : memory.store start bytes (start + i) = bytes.getD i 0 := by
  simp [store, hi]

theorem store_outside (memory : Memory) (start : Nat) (bytes : List UInt8) {j : Nat}
    (hj : j < start ∨ start + bytes.length ≤ j) : memory.store start bytes j = memory j := by
  simp only [store]
  exact if_neg (by omega)

theorem load_store (memory : Memory) (start : Nat) (bytes : List UInt8) :
    (memory.store start bytes).load start bytes.length = bytes := by
  rw [load_eq_iff]
  intro i hi
  exact store_inside memory start bytes hi

/-- Bytes that are stored behind others go on with them. -/
theorem load_store_behind (memory : Memory) (n : Nat) (bytes : List UInt8) :
    (memory.store n bytes).load 0 (n + bytes.length) = memory.load 0 n ++ bytes := by
  have hfront : (memory.store n bytes).load 0 n = memory.load 0 n := by
    apply load_congr
    intro k hk
    exact store_outside memory n bytes (Or.inl (by omega))
  rw [load_append, hfront, Nat.zero_add, load_store]

/-- `for(i = 0; i < count; i++) memory[i] = memory[i + distance]`. -/
def moveDown (memory : Memory) (distance : Nat) : (count : Nat) → Memory
  | 0 => memory
  | i + 1 =>
    let moved := moveDown memory distance i
    fun j => if j = i then moved (i + distance) else moved j

/-- What is moved was not overwritten before. -/
theorem moveDown_eq (memory : Memory) (distance count j : Nat) :
    memory.moveDown distance count j = if j < count then memory (j + distance) else memory j := by
  induction count generalizing j with
  | zero => rw [moveDown, if_neg (Nat.not_lt_zero j)]
  | succ i ih =>
      simp only [moveDown]
      by_cases hlast : j = i
      · rw [if_pos hlast, ih, if_neg (by omega), if_pos (by omega), hlast]
      · rw [if_neg hlast, ih]
        by_cases hbefore : j < i
        · rw [if_pos hbefore, if_pos (by omega)]
        · rw [if_neg hbefore, if_neg (by omega)]

theorem load_moveDown (memory : Memory) (distance count : Nat) :
    (memory.moveDown distance count).load 0 count = memory.load distance count := by
  apply List.map_congr_left
  intro k hk
  rw [moveDown_eq, Nat.zero_add, if_pos (List.mem_range.mp hk), Nat.add_comm]

/-- Storing the same again over what was stored changes nothing. -/
theorem store_twice (memory : Memory) (start start' : Nat) (bytes bytes' : List UInt8) :
    (((memory.store start bytes).store start' bytes').store start bytes).store start' bytes' =
      (memory.store start bytes).store start' bytes' := by
  funext j
  by_cases hlast : start' ≤ j ∧ j < start' + bytes'.length
  · simp only [store, if_pos hlast]
  · by_cases hfirst : start ≤ j ∧ j < start + bytes.length
    · simp only [store, if_neg hlast, if_pos hfirst]
    · simp only [store, if_neg hlast, if_neg hfirst]

@[simp] theorem apply_nil (memory : Memory) : memory.apply [] = memory := rfl

theorem apply_append (memory : Memory) (a b : Writes) :
    memory.apply (a ++ b) = (memory.apply a).apply b := by
  simp [apply]

end Memory

namespace Writes

/-- The stores of a copy of `bytes` to `start` on. -/
def copy : Int → List UInt8 → Writes
  | _, [] => []
  | start, b :: bytes => (start, b) :: copy (start + 1) bytes

@[simp] theorem length_copy (start : Int) (bytes : List UInt8) :
    (copy start bytes).length = bytes.length := by
  induction bytes generalizing start with
  | nil => rfl
  | cons b bytes ih => simp [copy, ih]

/-- A copy reaches the indexes from `start` on, one for each byte. -/
theorem mem_map_fst_copy (start j : Int) (bytes : List UInt8) :
    j ∈ (copy start bytes).map Prod.fst ↔ start ≤ j ∧ j < start + bytes.length := by
  induction bytes generalizing start with
  | nil =>
      rw [copy, List.map_nil, List.length_nil, Nat.cast_zero]
      exact iff_of_false List.not_mem_nil (by omega)
  | cons b bytes ih =>
      rw [copy, List.map_cons, List.mem_cons, ih, List.length_cons, Nat.cast_add, Nat.cast_one]
      omega

theorem mem_copy {start : Int} {bytes : List UInt8} {w : Int × UInt8}
    (hw : w ∈ copy start bytes) : start ≤ w.1 ∧ w.1 < start + bytes.length :=
  (mem_map_fst_copy start w.1 bytes).mp (List.mem_map_of_mem hw)

end Writes

namespace Memory

theorem apply_copy (memory : Memory) (start : Nat) (bytes : List UInt8) :
    memory.apply (Writes.copy start bytes) = memory.store start bytes := by
  induction bytes generalizing start memory with
  | nil => simp [Writes.copy]
  | cons b bytes ih =>
      have hstep : memory.apply (Writes.copy start (b :: bytes)) =
          (memory.store start [b]).apply (Writes.copy ((start + 1 : Nat) : Int) bytes) := by
        simp only [Writes.copy, apply, List.foldl_cons, Nat.cast_add, Nat.cast_one]
        congr 1
        funext j
        simp only [store, List.length_singleton, Nat.cast_inj]
        by_cases hj : j = start
        · subst hj
          simp
        · rw [if_neg hj, if_neg (by omega)]
      rw [hstep, ih]
      funext j
      simp only [store, List.length_cons, List.length_nil]
      by_cases hlow : j = start
      · subst hlow
        simp
      · by_cases hin : start + 1 ≤ j ∧ j < start + 1 + bytes.length
        · have hj : j - start = (j - (start + 1)) + 1 := by omega
          rw [if_pos hin, if_pos (by omega), hj]
          simp
        · rw [if_neg hin, if_neg (by omega), if_neg (by omega)]

/-! ## Consecutive fields -/

@[simp] theorem holds_nil (memory : Memory) (start : Nat) : memory.Holds start [] := rfl

theorem holds_append (memory : Memory) (start : Nat) (a b : List UInt8) :
    memory.Holds start (a ++ b) ↔ memory.Holds start a ∧ memory.Holds (start + a.length) b := by
  simp only [Holds, List.length_append, load_append]
  constructor
  · intro h
    exact List.append_inj h (by simp)
  · rintro ⟨ha, hb⟩
    rw [ha, hb]

theorem holds_cons (memory : Memory) (start : Nat) (b : UInt8) (bytes : List UInt8) :
    memory.Holds start (b :: bytes) ↔ memory start = b ∧ memory.Holds (start + 1) bytes := by
  rw [show b :: bytes = [b] ++ bytes from rfl, holds_append]
  simp [Holds, load]

theorem holds_iff (memory : Memory) (start : Nat) (bytes : List UInt8) :
    memory.Holds start bytes ↔ ∀ i < bytes.length, memory (start + i) = bytes.getD i 0 :=
  load_eq_iff memory start bytes

theorem holds_store (memory : Memory) (start : Nat) (bytes : List UInt8) :
    (memory.store start bytes).Holds start bytes :=
  load_store memory start bytes

theorem holds_congr {m m' : Memory} {start : Nat} {bytes : List UInt8}
    (h : ∀ k < bytes.length, m (start + k) = m' (start + k)) (hm : m.Holds start bytes) :
    m'.Holds start bytes := by
  rw [Holds, ← load_congr h]
  exact hm

/-- The `n` bytes from `start` on as a vector. -/
def vector (memory : Memory) (start n : Nat) : Vector UInt8 n :=
  Vector.ofFn fun k => memory (start + k)

theorem vector_of_holds {memory : Memory} {start n : Nat} {v : Vector UInt8 n}
    (h : memory.Holds start v.toList) : memory.vector start n = v := by
  rw [holds_iff] at h
  apply Vector.ext
  intro i hi
  have hread := h i (by simpa using hi)
  simp only [vector, Vector.getElem_ofFn, hread, List.getD_eq_getElem?_getD]
  simp [hi]

theorem holds_vector (memory : Memory) (start n : Nat) :
    memory.Holds start (memory.vector start n).toList := by
  rw [holds_iff]
  intro i hi
  rw [Vector.length_toList] at hi
  simp [vector, List.getD_eq_getElem?_getD, hi]

end Memory

/-! ## Two-byte words, most significant byte first -/

/-- `(uint8_t)(word >> 8)`, `(uint8_t)word`. -/
def bigEndian (word : UInt16) : List UInt8 := [(word >>> 8).toUInt8, word.toUInt8]

/-- `(high << 8) | (low & 0xFF)` as a 16-bit word. -/
def ofBigEndian (high low : UInt8) : UInt16 := (high.toUInt16 <<< 8) ||| low.toUInt16

@[simp] theorem length_bigEndian (word : UInt16) : (bigEndian word).length = 2 := rfl

private theorem high_low_nat (n : Nat) (hn : n < 2 ^ 16) :
    ((n >>> 8) % 2 ^ 8) <<< 8 % 2 ^ 16 ||| n % 2 ^ 8 = n := by
  have hhigh : (n >>> 8) % 2 ^ 8 = n / 256 := by
    rw [Nat.shiftRight_eq_div_pow]
    omega
  rw [hhigh, Nat.shiftLeft_eq, Nat.mod_eq_of_lt (by omega), Nat.mul_comm,
    ← Nat.two_pow_add_eq_or_of_lt (Nat.mod_lt _ (by decide))]
  omega

theorem ofBigEndian_bigEndian (word : UInt16) :
    ofBigEndian (word >>> 8).toUInt8 word.toUInt8 = word := by
  apply UInt16.toNat_inj.mp
  simp only [ofBigEndian, UInt16.toNat_or, UInt16.toNat_shiftLeft, UInt8.toNat_toUInt16,
    UInt16.toNat_toUInt8, UInt16.toNat_shiftRight]
  exact high_low_nat word.toNat (UInt16.toNat_lt word)

theorem bigEndian_ofBigEndian (high low : UInt8) :
    bigEndian (ofBigEndian high low) = [high, low] := by
  have hhigh : ((ofBigEndian high low) >>> 8).toUInt8 = high := by
    apply UInt8.toBitVec_inj.mp
    ext i hi
    have hword : 8 + i < 16 ∧ i < 16 := by omega
    simp [ofBigEndian, hword, BitVec.getLsbD_eq_getElem hi]
  have hlow : (ofBigEndian high low).toUInt8 = low := by
    apply UInt8.toBitVec_inj.mp
    ext i hi
    simp [ofBigEndian]
  rw [bigEndian, hhigh, hlow]

end Pjon.Lib
