import Pjon.Model.Compose
/-!
# Parsing a packet

`PJONTools::parse_header`.  The parser walks an index over the packet; here the
value of that index at each field is a function of the header alone, so that a
field can be read without the ones before it.
-/

namespace Pjon.Model.Tools

open Pjon.Lib

/-! ## Where the fields are -/

def busIndex (header : UInt8) : Nat := 4 + (has header extLenBit).toNat

def txBusIndex (header : UInt8) : Nat := busIndex header + 4

def hopsIndex (header : UInt8) : Nat :=
  if has header txInfoBit then txBusIndex header + 4 else txBusIndex header

def txIndex (b : Build) (header : UInt8) : Nat :=
  if !b.pjonLocal && has header modeBit then hopsIndex header + 1 else busIndex header

def idIndex (b : Build) (header : UInt8) : Nat :=
  if has header txInfoBit then txIndex b header + 1 else txIndex b header

def portIndex (b : Build) (header : UInt8) : Nat :=
  if b.includePacketId && has header packetIdBit then idIndex b header + 2 else idIndex b header

def macIndex (b : Build) (header : UInt8) : Nat :=
  if b.includePort && has header portBit then portIndex b header + 2 else portIndex b header

/-! ## What they hold -/

def parseRx (b : Build) (packet : Memory) : Endpoint where
  id := packet 0
  busId :=
    if !b.pjonLocal && has (packet 1) modeBit then packet.vector (busIndex (packet 1)) 4
    else localhost
  -- the MAC addresses are copied whether or not the packet carries them
  mac := if b.includeMac then packet.vector (macIndex b (packet 1)) 6 else noMac

def parseTx (b : Build) (packet : Memory) : Endpoint where
  id := if has (packet 1) txInfoBit then packet (txIndex b (packet 1)) else notAssigned
  busId :=
    if !b.pjonLocal && has (packet 1) modeBit && has (packet 1) txInfoBit then
      packet.vector (txBusIndex (packet 1)) 4
    else localhost
  mac := if b.includeMac then packet.vector (macIndex b (packet 1) + 6) 6 else noMac

def parseHeader (b : Build) (packet : Memory) : PacketInfo where
  tx := parseTx b packet
  rx := parseRx b packet
  header := packet 1
  hops :=
    if !b.pjonLocal && has (packet 1) modeBit then packet (hopsIndex (packet 1)) else 0
  id :=
    if b.includePacketId && has (packet 1) packetIdBit then
      ofBigEndian (packet (idIndex b (packet 1))) (packet (idIndex b (packet 1) + 1))
    else 0
  port :=
    if b.includePort && has (packet 1) portBit then
      ofBigEndian (packet (portIndex b (packet 1))) (packet (portIndex b (packet 1) + 1))
    else noPort

/-! ## What is read -/

/-- The indexes at which `parse_header` reads a packet, in its order. -/
def parseReads (b : Build) (header : UInt8) : List Nat :=
  [0, 1] ++
    (if !b.pjonLocal && has header modeBit then
      List.range' (busIndex header) 4 ++
        (if has header txInfoBit then List.range' (txBusIndex header) 4 else []) ++
        [hopsIndex header]
    else []) ++
    (if has header txInfoBit then [txIndex b header] else []) ++
    (if b.includePacketId && has header packetIdBit then List.range' (idIndex b header) 2
      else []) ++
    (if b.includePort && has header portBit then List.range' (portIndex b header) 2 else []) ++
    (if b.includeMac then List.range' (macIndex b header) 12 else [])

/-- The number of bytes that `parse_header` expects. -/
def parsedLength (b : Build) (header : UInt8) : Nat :=
  macIndex b header + if b.includeMac then 12 else 0

/-! ## The fields are where the composer puts them -/

section Layout

variable (b : Build) (info : PacketInfo) (sizing : Sizing)

theorem length_frontFields (hext : sizing.extendedLength = has sizing.header extLenBit) :
    (frontFields info sizing).length = busIndex sizing.header := by
  cases h : has sizing.header extLenBit <;>
    simp [frontFields, lengthField, busIndex, hext, h]

theorem length_busFields :
    busIndex sizing.header + (busFields b info sizing.header).length = txIndex b sizing.header := by
  unfold busFields txIndex hopsIndex txBusIndex
  split_ifs <;> simp

theorem length_txField :
    txIndex b sizing.header + (txField info sizing.header).length = idIndex b sizing.header := by
  unfold txField idIndex
  split_ifs <;> simp

theorem length_idField :
    idIndex b sizing.header + (idField b info sizing.header).length =
      portIndex b sizing.header := by
  unfold idField portIndex
  split_ifs <;> simp

/-- The composer leaves the port out when it is 0, the parser when the bit is clear. -/
theorem length_portField (hport : b.includePort → has sizing.header portBit →
      info.port ≠ noPort) :
    portIndex b sizing.header + (portField b info sizing.header).length =
      macIndex b sizing.header := by
  unfold portField macIndex
  split_ifs <;> simp_all

end Layout

/-! ## Where the payload starts -/

/-- The end of the meta-data, as the parser walks it, is where the overhead tables
put the payload. -/
theorem macIndex_add (b : Build) (header : UInt8) (hsup : b.Supports header) :
    macIndex b header + (if has header macBit then 12 else 0) + crcOverhead header =
      packetOverhead header := by
  obtain ⟨hid, hport, -, hmode⟩ := hsup
  have h1 : (!b.pjonLocal && has header modeBit) = has header modeBit := by
    cases h : has header modeBit
    · simp
    · simp [hmode h]
  have h2 : (b.includePacketId && has header packetIdBit) = has header packetIdBit := by
    cases h : has header packetIdBit
    · simp
    · simp [hid h]
  have h3 : (b.includePort && has header portBit) = has header portBit := by
    cases h : has header portBit
    · simp
    · simp [hport h]
  simp only [macIndex, portIndex, idIndex, txIndex, hopsIndex, txBusIndex, busIndex, h1, h2, h3,
    packetOverhead, crcOverhead]
  cases has header modeBit <;> cases has header txInfoBit <;> cases has header extLenBit <;>
    simp only [Bool.false_eq_true, if_true, if_false, Bool.toNat_true, Bool.toNat_false] <;>
    split_ifs <;> omega

end Pjon.Model.Tools
