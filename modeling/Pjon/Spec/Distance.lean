import Pjon.Spec.Admission
import Pjon.Lib.Remainder
/-!
# In how many bits packets differ

The bits of a byte string, in the order in which the checksums take them: the bytes from
the first on, the least significant bit of each first.
-/

namespace Pjon.Spec

open Pjon.Lib Pjon.Lib.Remainder Pjon.Model

def bitsOf (s : List UInt8) : List Bool := s.flatMap fun byte => lowBits 8 byte.toBitVec

/-- Where the bits of two strings differ. -/
def differences (s t : List UInt8) : List Bool := (bitsOf s).zipWith xor (bitsOf t)

/-- The Hamming distance of two strings. -/
def distance (s t : List UInt8) : Nat := (differences s t).count true

/-- All the bits that differ lie within `n` consecutive ones. -/
def DifferWithin (n : Nat) (s t : List UInt8) : Prop :=
  ∃ start, ∀ i, (differences s t).getD i false = true → start ≤ i ∧ i < start + n

/-- The last byte is the CRC8 of those before it. -/
def EndsInCrc8 (s : List UInt8) : Prop :=
  0 < s.length ∧ byte s (s.length - 1) = Crc8.compute (s.take (s.length - 1))

/-- The receiver takes the last four bytes for the CRC32 of those before them. -/
def EndsInCrc32 (s : List UInt8) : Prop :=
  4 ≤ s.length ∧
    Crc32.compare (Crc32.compute (s.take (s.length - 4)))
      (fun i => byte s (s.length - 4 + i)) = true

instance (s : List UInt8) : Decidable (EndsInCrc8 s) := by
  unfold EndsInCrc8
  exact inferInstance

instance (s : List UInt8) : Decidable (EndsInCrc32 s) := by
  unfold EndsInCrc32
  exact inferInstance

/-- `t` is `s` with the bits of `pattern` changed in its last bytes. -/
def ChangedBy (pattern s t : List UInt8) : Prop :=
  List.replicate pattern.length 0 ++ s.zipWith (· ^^^ ·) t =
    List.replicate s.length 0 ++ pattern

instance (pattern s t : List UInt8) : Decidable (ChangedBy pattern s t) := by
  unfold ChangedBy
  exact inferInstance

/-- What the CRC32 does not notice although it is within 32 consecutive bits: changes in the last
four bytes of the data and in the four bytes of the checksum. -/
def unnoticedBursts : List (List UInt8) :=
  [[0, 0, 0, 0x80, 0xed, 0xb8, 0x83, 0x20],
   [0, 0, 0x90, 0xb1, 0xcd, 0x27, 0x09, 0],
   [0, 0, 0x08, 0x39, 0x97, 0xdc, 0x02, 0],
   [0, 0, 0x84, 0x1c, 0x4b, 0xee, 0x01, 0],
   [0, 0, 0x8c, 0x25, 0xdc, 0x32, 0x03, 0],
   [0, 0, 0x61, 0xd8, 0xf4, 0xee, 0, 0],
   [0, 0x80, 0x30, 0x6c, 0x7a, 0x77, 0, 0],
   [0, 0xb0, 0xcd, 0xc7, 0xbe, 0x0a, 0, 0],
   [0, 0xd8, 0xe6, 0x63, 0x5f, 0x05, 0, 0],
   [0, 0x14, 0x64, 0x37, 0xa2, 0x03, 0, 0],
   [0xc0, 0x7a, 0xaf, 0xf3, 0x22, 0, 0, 0],
   [0x60, 0xbd, 0xd7, 0x79, 0x11, 0, 0, 0],
   [0x08, 0xb7, 0x0d, 0xfc, 0x04, 0, 0, 0],
   [0x84, 0xdb, 0x06, 0x7e, 0x02, 0, 0, 0],
   [0xc2, 0x6d, 0x03, 0x3f, 0x01, 0, 0, 0]]

end Pjon.Spec
