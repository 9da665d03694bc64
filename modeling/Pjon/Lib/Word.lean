import Mathlib.Data.List.Basic
/-!
# Words in the memory of a little-endian host

The four bytes of a 32-bit word, from the lowest address on: the first is the least significant.
A word that is shifted right by eight bits and gets a byte at its highest address is a window over
the bytes that were stored, one byte further on.
-/

namespace Pjon.Lib.Word

/-- The bytes of a word in memory. -/
def bytes (w : UInt32) : List UInt8 :=
  [UInt8.ofNat w.toNat, UInt8.ofNat (w.toNat / 256), UInt8.ofNat (w.toNat / 65536),
    UInt8.ofNat (w.toNat / 16777216)]

/-- The number that bytes hold, the least significant first. -/
def value : List UInt8 → Nat
  | [] => 0
  | b :: bs => b.toNat + 256 * value bs

/-- The word that lies in memory as these bytes. -/
def ofBytes (bs : List UInt8) : UInt32 := UInt32.ofNat (value bs)

/-- `memcpy((uint8_t*)&w + start, stored, stored.length)`. -/
def store (w : UInt32) (start : Nat) (stored : List UInt8) : UInt32 :=
  ofBytes ((bytes w).take start ++ stored ++ (bytes w).drop (start + stored.length))

/-- `htonl` and `ntohl`. -/
def swap (w : UInt32) : UInt32 := ofBytes (bytes w).reverse

@[simp] theorem length_bytes (w : UInt32) : (bytes w).length = 4 := rfl

theorem bytes_ofBytes {bs : List UInt8} (h : bs.length = 4) : bytes (ofBytes bs) = bs := by
  obtain ⟨a, b, c, d, rfl⟩ := List.length_eq_four.mp h
  have ha := a.toNat_lt
  have hb := b.toNat_lt
  have hc := c.toNat_lt
  have hd := d.toNat_lt
  have hvalue : (ofBytes [a, b, c, d]).toNat =
      a.toNat + 256 * (b.toNat + 256 * (c.toNat + 256 * d.toNat)) := by
    rw [ofBytes, UInt32.toNat_ofNat']
    simp only [value]
    omega
  simp only [bytes, hvalue, List.cons.injEq, and_true, ← UInt8.toNat_inj, UInt8.toNat_ofNat']
  omega

theorem ofBytes_bytes (w : UInt32) : ofBytes (bytes w) = w := by
  have hw := w.toNat_lt
  rw [← UInt32.toNat_inj, ofBytes, UInt32.toNat_ofNat']
  simp only [bytes, value, UInt8.toNat_ofNat']
  omega

theorem bytes_inj {w w' : UInt32} : bytes w = bytes w' ↔ w = w' := by
  constructor
  · intro h
    rw [← ofBytes_bytes w, h, ofBytes_bytes]
  · rintro rfl
    rfl

theorem bytes_swap (w : UInt32) : bytes (swap w) = (bytes w).reverse :=
  bytes_ofBytes (by rw [List.length_reverse, length_bytes])

theorem swap_swap (w : UInt32) : swap (swap w) = w := by
  rw [← bytes_inj, bytes_swap, bytes_swap, List.reverse_reverse]

theorem bytes_shiftRight (w : UInt32) : bytes (w >>> 8) = (bytes w).drop 1 ++ [0] := by
  have hw := w.toNat_lt
  have hshift : (w >>> 8).toNat = w.toNat / 256 := by
    rw [UInt32.toNat_shiftRight, Nat.shiftRight_eq_div_pow]
    rfl
  simp only [bytes, hshift, List.drop_succ_cons, List.drop_zero, List.cons_append, List.nil_append,
    List.cons.injEq, and_true, true_and, ← UInt8.toNat_inj, UInt8.toNat_ofNat', UInt8.toNat_zero]
  omega

/-- A whole word is stored. -/
theorem bytes_store_all (w : UInt32) {stored : List UInt8} (h : stored.length = 4) :
    bytes (store w 0 stored) = stored := by
  have hrest : (bytes w).drop (0 + stored.length) = [] := by
    rw [h]
    rfl
  rw [store, hrest, List.take_zero, List.nil_append, List.append_nil, bytes_ofBytes h]

theorem store_bytes (w v : UInt32) : store w 0 (bytes v) = v :=
  bytes_inj.mp (bytes_store_all w (length_bytes v))

/-- The window moves on by a byte. -/
theorem bytes_store_shift (w : UInt32) (b : UInt8) :
    bytes (store (w >>> 8) 3 [b]) = (bytes w).drop 1 ++ [b] := by
  rw [store, bytes_shiftRight]
  exact bytes_ofBytes rfl

end Pjon.Lib.Word
