import Pjon.Model.Header
/-!
# The two checksums

`PJON_crc8` and `PJON_crc32`, bit by bit as `utils/crc` computes them, over the
bytes that the C functions read through their pointer argument.  Each loop is a
recursion on the turns it has left.
-/

namespace Pjon.Model

open Pjon.Lib

namespace Crc8

def rollBit (inputByte crc : UInt8) : UInt8 :=
  let result := (crc ^^^ inputByte) &&& 0x01
  let crc := crc >>> 1
  if result != 0 then crc ^^^ 0x97 else crc

def rollBits : Nat → UInt8 → UInt8 → UInt8
  | 0, _, crc => crc
  | i + 1, inputByte, crc => rollBits i (inputByte >>> 1) (rollBit inputByte crc)

def roll (inputByte crc : UInt8) : UInt8 := rollBits 8 inputByte crc

def compute (input : List UInt8) : UInt8 :=
  input.foldl (fun crc byte => roll byte crc) 0

theorem roll_self (crc : UInt8) : roll crc crc = 0 := by
  have hbit : ∀ crc : UInt8, rollBit crc crc = crc >>> 1 := by
    intro crc
    simp [rollBit]
  have hall : ∀ crc : BitVec 8,
      crc >>> 1 >>> 1 >>> 1 >>> 1 >>> 1 >>> 1 >>> 1 >>> 1 = 0 := by
    decide
  simp only [roll, rollBits, hbit]
  exact UInt8.toBitVec_inj.mp (hall crc.toBitVec)

/-- Bytes with their checksum behind them. -/
theorem compute_append_compute (input : List UInt8) : compute (input ++ [compute input]) = 0 := by
  rw [compute, List.foldl_append, List.foldl_cons, List.foldl_nil]
  exact roll_self (compute input)

end Crc8

namespace Crc32

def computeBit (crc : UInt32) : UInt32 :=
  if crc &&& 1 != 0 then (crc >>> 1) ^^^ 0xEDB88320 else crc >>> 1

def computeBits : Nat → UInt32 → UInt32
  | 0, crc => crc
  | bits + 1, crc => computeBits bits (computeBit crc)

def computeFrom (previousCrc32 : UInt32) (data : List UInt8) : UInt32 :=
  ~~~data.foldl (fun crc byte => computeBits 8 (crc ^^^ byte.toUInt32)) (~~~previousCrc32)

def compute (data : List UInt8) : UInt32 := computeFrom 0 data

def compareFrom (computed : UInt32) (received : Memory) : Nat → Bool
  | 0 => true
  | i + 1 =>
    if (computed >>> (8 * i).toUInt32).toUInt8 != received (3 - i) then false
    else compareFrom computed received i

def compare (computed : UInt32) (received : Memory) : Bool :=
  compareFrom computed received 4

/-- The four bytes of a CRC32 as `compose_packet` writes them. -/
def bytes (crc : UInt32) : List UInt8 :=
  [(crc >>> 24).toUInt8, (crc >>> 16).toUInt8, (crc >>> 8).toUInt8, crc.toUInt8]

@[simp] theorem length_bytes (crc : UInt32) : (bytes crc).length = 4 := rfl

/-- The receiver's comparison reads the four bytes in the composer's order. -/
theorem compare_iff (computed : UInt32) (received : Memory) :
    compare computed received = true ↔ received.load 0 4 = bytes computed := by
  have hload : received.load 0 4 = [received 0, received 1, received 2, received 3] := rfl
  have hzero : computed >>> (8 * 0).toUInt32 = computed :=
    UInt32.toBitVec_inj.mp (by simp)
  have h8 : (8 * 1).toUInt32 = 8 := rfl
  have h16 : (8 * 2).toUInt32 = 16 := rfl
  have h24 : (8 * 3).toUInt32 = 24 := rfl
  simp only [compare, compareFrom, hload, bytes, hzero, h8, h16, h24, List.cons.injEq, and_true,
    bne_iff_ne, ne_eq, ite_not, Nat.sub_self, Nat.sub_zero]
  constructor
  · intro h
    split_ifs at h with h0 h1 h2 h3
    simp_all
  · rintro ⟨h0, h1, h2, h3⟩
    simp [h0, h1, h2, h3]

end Crc32

end Pjon.Model
