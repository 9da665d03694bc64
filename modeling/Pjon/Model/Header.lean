import Pjon.Lib.Memory
/-!
# Header bits and packet overhead

The header byte is a bitmap of what a packet carries.  The bits, the protocol
symbols and the two overhead tables are those of `PJONDefines.h`; a build fixes
the compile-time settings that the composer, the parser and the receiver share.
-/

/-! ## Protocol symbols -/

namespace Pjon

def ack : Nat := 6
def busy : Nat := 666
def nak : Nat := 21
def fail : Nat := 65535
def toBeSent : Nat := 74
def connectionLost : Nat := 101
def packetsBufferFull : Nat := 102
def contentTooLong : Nat := 104
def broadcast : UInt8 := 0
def notAssigned : UInt8 := 255

/-- `PJON_BROADCAST` where a port is expected: no port is set. -/
def noPort : UInt16 := 0

end Pjon

namespace Pjon.Model

/-! ## The header bitmap -/

/-- The unacceptable header that stands for no header given. -/
def noHeader : UInt8 := 0b01001000
def modeBit : UInt8 := 0b00000001
def txInfoBit : UInt8 := 0b00000010
def ackReqBit : UInt8 := 0b00000100
def macBit : UInt8 := 0b00001000
def portBit : UInt8 := 0b00010000
def crcBit : UInt8 := 0b00100000
def extLenBit : UInt8 := 0b01000000
def packetIdBit : UInt8 := 0b10000000

/-- `header & bit`, read as a condition. -/
def has (header bit : UInt8) : Bool := header &&& bit != 0

theorem has_or (header a bit : UInt8) :
    has (header ||| a) bit = (has header bit || has a bit) := by
  have hsplit : (header ||| a) &&& bit = (header &&& bit) ||| (a &&& bit) :=
    UInt8.toBitVec_inj.mp (by ext i; simp [Bool.and_or_distrib_right])
  rw [Bool.eq_iff_iff]
  simp only [has, hsplit, bne_iff_ne, ne_eq, UInt8.or_eq_zero_iff, Bool.or_eq_true]
  tauto

theorem has_clear_self (header bit : UInt8) : has (header &&& ~~~bit) bit = false := by
  have : header &&& ~~~bit &&& bit = 0 := by
    apply UInt8.toBitVec_inj.mp
    ext i
    simp
  simp [has, this]

theorem has_clear_other {a bit : UInt8} (h : ~~~a &&& bit = bit) (header : UInt8) :
    has (header &&& ~~~a) bit = has header bit := by
  rw [has, has, UInt8.and_assoc, h]

/-! ## Overheads -/

def packetOverhead (header : UInt8) : Nat :=
  (if has header modeBit then
      (if has header txInfoBit then 11 else 6)
    else
      (if has header txInfoBit then 2 else 1)) +
    (if has header extLenBit then 2 else 1) +
    (if has header crcBit then 4 else 1) +
    (if has header portBit then 2 else 0) +
    (if has header packetIdBit then 2 else 0) +
    (if has header macBit then 12 else 0) +
    2 -- header and the CRC8 of the front

def crcOverhead (header : UInt8) : Nat := if has header crcBit then 4 else 1

/-- A field that is `n` bytes long, or `m` if a bit asks for more. -/
theorem field_bounds (bit : Bool) {m n : Nat} (h : n ≤ m) :
    n ≤ (if bit then m else n) ∧ (if bit then m else n) ≤ m := by
  cases bit
  · exact ⟨le_rfl, h⟩
  · exact ⟨h, le_rfl⟩

theorem packetOverhead_bounds (header : UInt8) :
    5 ≤ packetOverhead header ∧ packetOverhead header ≤ 35 := by
  have hids : 1 ≤ (if has header modeBit then (if has header txInfoBit then 11 else 6)
        else if has header txInfoBit then 2 else 1) ∧
      (if has header modeBit then (if has header txInfoBit then 11 else 6)
        else if has header txInfoBit then 2 else 1) ≤ 11 := by
    cases has header modeBit <;> cases has header txInfoBit <;> decide
  have hext := field_bounds (has header extLenBit) (by decide : 1 ≤ 2)
  have hcrc := field_bounds (has header crcBit) (by decide : 1 ≤ 4)
  have hport := field_bounds (has header portBit) (by decide : 0 ≤ 2)
  have hid := field_bounds (has header packetIdBit) (by decide : 0 ≤ 2)
  have hmac := field_bounds (has header macBit) (by decide : 0 ≤ 12)
  unfold packetOverhead
  omega

theorem packetOverhead_le (header : UInt8) : packetOverhead header ≤ 35 :=
  (packetOverhead_bounds header).2

theorem packetOverhead_ge (header : UInt8) : 5 ≤ packetOverhead header :=
  (packetOverhead_bounds header).1

/-! ## Builds -/

/-- The compile-time settings of a program that includes the library.  The last three
fields are what `save_packet_id`, which always writes record 0, `known_packet_id`, which
counts records in a `uint8_t`, and the loops over the send buffer, which count its slots in
a `uint16_t`, rely on. -/
structure Build where
  packetMaxLength : Nat := 50
  maxPackets : Nat := 5
  maxRecentPacketIds : Nat := 10
  includePacketId : Bool := false
  includePort : Bool := false
  includeMac : Bool := false
  pjonLocal : Bool := false -- `PJON_LOCAL`, defined by `PJONLocal.h`
  recent_pos : 0 < maxRecentPacketIds := by decide
  recent_lt : maxRecentPacketIds < 256 := by decide
  packets_lt : maxPackets < 65536 := by decide

/-- The settings of a program that defines none of its own. -/
def defaultBuild : Build := {}

/-- The header asks for no feature that the build leaves out. -/
def Build.Supports (b : Build) (header : UInt8) : Prop :=
  (has header packetIdBit → b.includePacketId) ∧
    (has header portBit → b.includePort) ∧
    (has header macBit → b.includeMac) ∧
    (has header modeBit → b.pjonLocal = false)

instance (b : Build) (header : UInt8) : Decidable (b.Supports header) := by
  unfold Build.Supports
  exact inferInstance

end Pjon.Model
