import Pjon.Model.Packet
import Mathlib.Tactic.SplitIfs
/-!
# Composing a packet

`PJONTools::compose_packet`.  The composer first settles the header, then the
total length, raising the header to CRC32 and to an extended length on the way,
and then writes the packet front to back.  Lengths are 16-bit sums.
-/

namespace Pjon.Model.Tools

open Pjon.Lib

def newPacketId (seed : UInt16) : UInt16 :=
  let seed := seed + 1
  if seed = 0 then 1 else seed

/-! ## The header -/

/-- The `PJON_INCLUDE_PORT` lines: the port bit follows the port. -/
def portHeader (b : Build) (port : UInt16) (header : UInt8) : UInt8 :=
  if b.includePort then
    let header := if port != noPort then header ||| portBit else header
    if has header portBit && port == noPort then header &&& ~~~portBit else header
  else
    header

def startHeader (b : Build) (info : PacketInfo) (length : Nat) : UInt8 :=
  let header := if 255 < length then info.header ||| extLenBit else info.header
  let header := portHeader b info.port header
  if info.rx.id == broadcast then header &&& ~~~ackReqBit else header

/-- `length + packet_overhead(header)` as a `uint16_t`. -/
def totalLength (header : UInt8) (length : Nat) : Nat :=
  (length + packetOverhead header) % 65536

def forceCrc (header : UInt8) (length : Nat) : UInt8 :=
  if 15 < totalLength header length && !has header crcBit then header ||| crcBit else header

def forceExtLen (extendedLength : Bool) (header : UInt8) (length : Nat) : UInt8 :=
  if 255 < totalLength header length && !extendedLength then header ||| extLenBit else header

/-- What the composer has settled when it compares with the maximum length. -/
structure Sizing where
  header : UInt8
  newLength : Nat
  extendedLength : Bool
  deriving DecidableEq, Repr

def measure (b : Build) (info : PacketInfo) (length : Nat) : Sizing :=
  let header := startHeader b info length
  -- the flag that selects the width of the length field is read here, before
  -- the header is raised
  let extendedLength := has header extLenBit
  let header := forceExtLen extendedLength (forceCrc header length) length
  { header := header, newLength := totalLength header length, extendedLength := extendedLength }

/-! ## The bytes

One list for each group of `destination[index++]` lines; the composer's `index`
is the length of what has been written. -/

def lengthField (sizing : Sizing) : List UInt8 :=
  if sizing.extendedLength then bigEndian (UInt16.ofNat sizing.newLength)
  else [UInt8.ofNat sizing.newLength]

def frontFields (info : PacketInfo) (sizing : Sizing) : List UInt8 :=
  let front := [info.rx.id, sizing.header] ++ lengthField sizing
  front ++ [Crc8.compute front]

def busFields (b : Build) (info : PacketInfo) (header : UInt8) : List UInt8 :=
  if !b.pjonLocal && has header modeBit then
    info.rx.busId.toList ++ (if has header txInfoBit then info.tx.busId.toList else []) ++
      [info.hops]
  else []

def txField (info : PacketInfo) (header : UInt8) : List UInt8 :=
  if has header txInfoBit then [info.tx.id] else []

def idField (b : Build) (info : PacketInfo) (header : UInt8) : List UInt8 :=
  if b.includePacketId && has header packetIdBit then bigEndian info.id else []

def portField (b : Build) (info : PacketInfo) (header : UInt8) : List UInt8 :=
  if b.includePort && has header portBit && info.port != noPort then bigEndian info.port else []

def macFields (b : Build) (info : PacketInfo) (header : UInt8) : List UInt8 :=
  if b.includeMac && has header macBit then info.rx.mac.toList ++ info.tx.mac.toList else []

def metaData (b : Build) (info : PacketInfo) (sizing : Sizing) : List UInt8 :=
  frontFields info sizing ++ (busFields b info sizing.header ++ (txField info sizing.header ++
    (idField b info sizing.header ++ (portField b info sizing.header ++
      macFields b info sizing.header))))

/-- `new_length - n` as the `uint16_t` argument of a checksum. -/
def checksumLength (newLength n : Nat) : Nat := (newLength + 65536 - n) % 65536

/-- The end CRC, computed over `destination` as written so far. -/
def endCrc (header : UInt8) (newLength : Nat) (destination : Memory) : List UInt8 :=
  if has header crcBit then
    Crc32.bytes (Crc32.compute (destination.load 0 (checksumLength newLength 4)))
  else [Crc8.compute (destination.load 0 (checksumLength newLength 1))]

/-- `PJONTools::compose_packet`: the value returned and the stores made. -/
def composePacket (b : Build) (info : PacketInfo) (destination : Memory) (source : Payload) :
    Nat × Writes :=
  let sizing := measure b info source.length
  if b.packetMaxLength ≤ sizing.newLength then (sizing.newLength, [])
  else
    let body := Writes.copy 0 (metaData b info sizing ++ source.bytes)
    let crc := endCrc sizing.header sizing.newLength (destination.apply body)
    (sizing.newLength, body ++ Writes.copy (sizing.newLength - crc.length : Int) crc)

/-! ## What the header becomes -/

section Header

variable (b : Build) (info : PacketInfo) (port : UInt16) (header bit : UInt8) (length : Nat)

/-- A single header bit other than the port bit survives the port lines. -/
theorem has_portHeader (hport : has portBit bit = false) (hclear : ~~~portBit &&& bit = bit) :
    has (portHeader b port header) bit = has header bit := by
  unfold portHeader
  simp only
  split_ifs <;> simp [has_or, has_clear_other hclear, hport]

theorem has_portHeader_port :
    has (portHeader b port header) portBit =
      if b.includePort then port != noPort else has header portBit := by
  have hself : has portBit portBit = true := by decide
  unfold portHeader
  simp only
  split_ifs with hb hp hc hc <;> simp_all [has_or, has_clear_self]

/-- What the header settles before measuring, bit by bit. -/
theorem has_startHeader (hport : has portBit bit = false) (hclear : ~~~portBit &&& bit = bit)
    (hack : ~~~ackReqBit &&& bit = bit) :
    has (startHeader b info length) bit =
      (has info.header bit || (decide (255 < length) && has extLenBit bit)) := by
  unfold startHeader
  simp only
  split_ifs <;> simp_all [has_or, has_clear_other hack, has_portHeader]

theorem has_startHeader_port :
    has (startHeader b info length) portBit =
      if b.includePort then info.port != noPort else has info.header portBit := by
  have hack : ~~~ackReqBit &&& portBit = portBit := by decide
  have hext : has extLenBit portBit = false := by decide
  unfold startHeader
  simp only
  split_ifs <;> simp_all [has_or, has_clear_other hack, has_portHeader_port]

theorem has_startHeader_ack :
    has (startHeader b info length) ackReqBit =
      (has info.header ackReqBit && info.rx.id != broadcast) := by
  have hext : has extLenBit ackReqBit = false := by decide
  have hport : has portBit ackReqBit = false := by decide
  have hclear : ~~~portBit &&& ackReqBit = ackReqBit := by decide
  unfold startHeader
  simp only
  split_ifs <;> simp_all [has_or, has_clear_self, has_portHeader]

theorem has_forceExtLen (extendedLength : Bool) (hext : has extLenBit bit = false) :
    has (forceExtLen extendedLength header length) bit = has header bit := by
  unfold forceExtLen
  split_ifs <;> simp [has_or, hext]

theorem has_forceCrc (hcrc : has crcBit bit = false) :
    has (forceCrc header length) bit = has header bit := by
  unfold forceCrc
  split_ifs <;> simp [has_or, hcrc]

theorem has_forceCrc_crc :
    has (forceCrc header length) crcBit =
      (has header crcBit || decide (15 < totalLength header length)) := by
  have hself : has crcBit crcBit = true := by decide
  unfold forceCrc
  split_ifs <;> simp_all [has_or]

theorem has_forceExtLen_ext :
    has (forceExtLen (has header extLenBit) header length) extLenBit =
      (has header extLenBit || decide (255 < totalLength header length)) := by
  have hself : has extLenBit extLenBit = true := by decide
  unfold forceExtLen
  split_ifs <;> simp_all [has_or]

/-- Raising the header touches the CRC bit and the extended-length bit only. -/
theorem has_measure (hext : has extLenBit bit = false) (hcrc : has crcBit bit = false) :
    has (measure b info length).header bit = has (startHeader b info length) bit := by
  simp only [measure, has_forceExtLen _ _ _ _ hext, has_forceCrc _ _ _ hcrc]

end Header

theorem packetOverhead_or_crc (header : UInt8) :
    packetOverhead (header ||| crcBit) =
      packetOverhead header + if has header crcBit then 0 else 3 := by
  have h1 : has crcBit modeBit = false := by decide
  have h2 : has crcBit txInfoBit = false := by decide
  have h3 : has crcBit extLenBit = false := by decide
  have h4 : has crcBit crcBit = true := by decide
  have h5 : has crcBit portBit = false := by decide
  have h6 : has crcBit packetIdBit = false := by decide
  have h7 : has crcBit macBit = false := by decide
  simp only [packetOverhead, has_or, h1, h2, h3, h4, h5, h6, h7, Bool.or_false, Bool.or_true]
  split_ifs <;> omega

theorem packetOverhead_or_ext (header : UInt8) :
    packetOverhead (header ||| extLenBit) =
      packetOverhead header + if has header extLenBit then 0 else 1 := by
  have h1 : has extLenBit modeBit = false := by decide
  have h2 : has extLenBit txInfoBit = false := by decide
  have h3 : has extLenBit extLenBit = true := by decide
  have h4 : has extLenBit crcBit = false := by decide
  have h5 : has extLenBit portBit = false := by decide
  have h6 : has extLenBit packetIdBit = false := by decide
  have h7 : has extLenBit macBit = false := by decide
  simp only [packetOverhead, has_or, h1, h2, h3, h4, h5, h6, h7, Bool.or_false, Bool.or_true]
  split_ifs <;> omega

end Pjon.Model.Tools
