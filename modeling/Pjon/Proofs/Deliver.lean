import Pjon.Proofs.Receive
import Pjon.Spec.Carried
/-!
# What an admissible packet causes

The acknowledgement, the record of the packet id and the call of the receiver
function, all read off the bytes that arrived.  The parser may read MAC addresses
beyond the packet when it carries none, so the info is determined up to those.
-/

namespace Pjon.Proofs.Deliver

open Pjon.Lib Pjon.Model Pjon.Spec Pjon.Proofs.Filter Pjon.Proofs.Receive

variable {b : Build}

/-! ## The parsed info -/

/-- The fields lie in front of the payload. -/
theorem macFields_le (b : Build) (header : UInt8) :
    Tools.macIndex b header + (if has header macBit then 12 else 0) + crcOverhead header ≤
      packetOverhead header := by
  have hfront : Tools.idIndex b header + 1 ≤
      (if has header modeBit then (if has header txInfoBit then 11 else 6)
        else if has header txInfoBit then 2 else 1) +
      (if has header extLenBit then 2 else 1) + 3 := by
    unfold Tools.idIndex Tools.txIndex Tools.hopsIndex Tools.txBusIndex Tools.busIndex
    cases has header modeBit <;> cases has header txInfoBit <;>
      cases has header extLenBit <;> cases b.pjonLocal <;> decide
  have hid : Tools.portIndex b header ≤
      Tools.idIndex b header + if has header packetIdBit then 2 else 0 := by
    unfold Tools.portIndex
    split_ifs <;> simp_all
  have hport : Tools.macIndex b header ≤
      Tools.portIndex b header + if has header portBit then 2 else 0 := by
    unfold Tools.macIndex
    split_ifs <;> simp_all
  unfold packetOverhead crcOverhead
  omega

theorem macIndex_le (b : Build) (header : UInt8) :
    Tools.macIndex b header + crcOverhead header ≤ packetOverhead header := by
  have hmac := macFields_le b header
  omega

section Order

variable (b : Build) (header : UInt8)

theorem idIndex_le_portIndex : Tools.idIndex b header ≤ Tools.portIndex b header := by
  unfold Tools.portIndex
  split_ifs <;> omega

theorem portIndex_le_macIndex : Tools.portIndex b header ≤ Tools.macIndex b header := by
  unfold Tools.macIndex
  split_ifs <;> omega

theorem txIndex_le_idIndex : Tools.txIndex b header ≤ Tools.idIndex b header := by
  unfold Tools.idIndex
  split_ifs <;> omega

theorem busIndex_le_txIndex : Tools.busIndex header ≤ Tools.txIndex b header := by
  unfold Tools.txIndex Tools.hopsIndex Tools.txBusIndex
  split_ifs <;> omega

theorem txIndex_le_macIndex : Tools.txIndex b header ≤ Tools.macIndex b header :=
  (txIndex_le_idIndex b header).trans
    ((idIndex_le_portIndex b header).trans (portIndex_le_macIndex b header))

theorem four_le_macIndex : 4 ≤ Tools.macIndex b header := by
  have hbus : 4 ≤ Tools.busIndex header := by
    unfold Tools.busIndex
    omega
  exact hbus.trans ((busIndex_le_txIndex b header).trans (txIndex_le_macIndex b header))

end Order

/-- Two packets with the same meta-data parse alike, up to the MAC addresses. -/
theorem parseHeader_congr (b : Build) (m m' : Memory)
    (h : ∀ k < Tools.macIndex b (m 1), m k = m' k) :
    withoutMacs (Tools.parseHeader b m) = withoutMacs (Tools.parseHeader b m') := by
  have hfour := four_le_macIndex b (m 1)
  have h0 : m 0 = m' 0 := h 0 (by omega)
  have h1 : m 1 = m' 1 := h 1 (by omega)
  generalize hheader : m 1 = header at h hfour h1
  have htx := txIndex_le_macIndex b header
  have hid := (idIndex_le_portIndex b header).trans (portIndex_le_macIndex b header)
  have hport := portIndex_le_macIndex b header
  simp only [withoutMacs, Tools.parseHeader, Tools.parseRx, Tools.parseTx, ← h0, ← h1, hheader,
    PacketInfo.mk.injEq, Endpoint.mk.injEq, true_and, and_true]
  refine ⟨⟨?_, ?_⟩, ?_, ?_, ?_, ?_⟩
  · split_ifs with htxInfo
    · simp only [Tools.idIndex, if_pos htxInfo] at hid
      exact h _ (by omega)
    · rfl
  · split_ifs with hshared
    · obtain ⟨hmode, htxInfo⟩ := Bool.and_eq_true_iff.1 hshared
      simp only [Tools.txIndex, if_pos hmode, Tools.hopsIndex, if_pos htxInfo] at htx
      exact vector_congr fun k hk => h _ (by omega)
    · rfl
  · split_ifs with hmode
    · simp only [Tools.txIndex, if_pos hmode, Tools.hopsIndex, Tools.txBusIndex] at htx
      exact vector_congr fun k hk => h _ (by split_ifs at htx <;> omega)
    · rfl
  · split_ifs with hmode
    · simp only [Tools.txIndex, if_pos hmode] at htx
      exact h _ (by omega)
    · rfl
  · split_ifs with hpacketId
    · simp only [Tools.portIndex, if_pos hpacketId] at hport
      rw [h _ (by omega), h _ (by omega)]
    · rfl
  · split_ifs with hportBit
    · have hmac : Tools.portIndex b header + 2 = Tools.macIndex b header := by
        rw [Tools.macIndex, if_pos hportBit]
      rw [h _ (by omega), h _ (by omega)]
    · rfl

/-! ## The events -/

section Events

variable {bus : Bus b} {s : List UInt8} {st : LoopState}

theorem parse_settled (bus : Bus b) (hok : LengthOk b s) (h : Settled s st) :
    withoutMacs (bus.parse st.data) = withoutMacs (infoOf bus s) := by
  have hheader := settled_header (five_le_of_lengthOk hok) h
  have hover := hok.overhead
  have hmac := macIndex_le b (header s)
  have hparse := parseHeader_congr b st.data (byte s) fun k hk =>
    h.data k (by rw [hheader] at hk; omega)
  simp only [withoutMacs, Bus.parse, infoOf, PacketInfo.mk.injEq] at hparse ⊢
  exact ⟨hparse.1, hparse.2.1, hparse.2.2.1, trivial, hparse.2.2.2.2⟩

theorem recorded_settled (hok : LengthOk b s) (h : Settled s st) (record : PacketRecord) :
    Bus.sameId (bus.parse st.data) record = Bus.sameId (infoOf bus s) record := by
  rw [← sameId_withoutMacs, parse_settled bus hok h, sameId_withoutMacs]

theorem payload_settled (hok : LengthOk b s) (h : Settled s st) :
    st.data.load (st.overhead - crcOverhead (st.data 1)) (st.length - st.overhead) =
      payloadOf s := by
  have hover := hok.overhead
  rw [settled_header (five_le_of_lengthOk hok) h, h.overhead, h.length, payloadOf]
  exact Memory.load_congr fun k hk => h.data _ (by omega)

theorem acknowledges_settled (bus : Bus b) (hok : LengthOk b s) (h : Settled s st) :
    bus.acknowledges st = ackDue bus s := by
  have hover := hok.overhead
  have hge := packetOverhead_ge (header s)
  rw [Bus.acknowledges, settled_header (five_le_of_lengthOk hok) h, h.data 0 (by omega), ackDue]

/-- The record buffer after an admissible packet. -/
def recordsAfter (bus : Bus b) (s : List UInt8) : Vector PacketRecord b.maxRecentPacketIds :=
  if b.includePacketId && !bus.router && has (header s) packetIdBit then
    (Bus.knownPacketId bus.recentPacketIds (infoOf bus s)).2
  else bus.recentPacketIds

theorem knownPacketId_settled (hok : LengthOk b s) (h : Settled s st) :
    Bus.knownPacketId bus.recentPacketIds (bus.parse st.data) =
      Bus.knownPacketId bus.recentPacketIds (infoOf bus s) := by
  have hsame : Bus.sameId (bus.parse st.data) = Bus.sameId (infoOf bus s) :=
    funext (recorded_settled hok h)
  have hrecord : Bus.recordOf (bus.parse st.data) = Bus.recordOf (infoOf bus s) := by
    rw [← recordOf_withoutMacs, parse_settled bus hok h, recordOf_withoutMacs]
  simp only [Bus.knownPacketId, Bus.savePacketId, hsame, hrecord]

theorem knownPacketId_fst (records : Vector PacketRecord b.maxRecentPacketIds)
    (info : PacketInfo) :
    (Bus.knownPacketId records info).1 = records.toList.any (Bus.sameId info) := by
  unfold Bus.knownPacketId
  split_ifs with h <;> simp [h]

/-- Everything observable that an admissible packet causes. -/
structure Caused (bus : Bus b) (s : List UInt8) (info : PacketInfo) (outcome : Outcome b) :
    Prop where
  events : outcome.events = (if ackDue bus s then [.sendResponse ack] else []) ++
    if (bus.router || !recorded bus s) && portMatches bus s then [.receiver (payloadOf s) info]
    else []
  result : outcome.result =
    if (!bus.router && recorded bus s) || portMatches bus s then ack else busy
  records : outcome.bus.recentPacketIds = recordsAfter bus s
  bus_eq : outcome.bus = { bus with
    data := outcome.bus.data
    lastPacketInfo := info
    recentPacketIds := outcome.bus.recentPacketIds }

theorem deliver_caused (hok : LengthOk b s) (hid : has (header s) packetIdBit → b.includePacketId)
    (h : Settled s st) : Caused bus s (bus.parse st.data) (bus.deliver st) := by
  have hheader : (bus.parse st.data).header = header s := settled_header (five_le_of_lengthOk hok) h
  have hport : (bus.parse st.data).port = (infoOf bus s).port := by
    have hsame := congrArg PacketInfo.port (parse_settled bus hok h)
    exact hsame
  have hpayload := payload_settled hok h
  have hack := acknowledges_settled bus hok h
  have hmatch : (b.includePort && bus.port != noPort && bus.port != (infoOf bus s).port) =
      !portMatches bus s := by
    simp only [portMatches_infoOf bus, Bool.not_or, Bool.not_not]
    rfl
  have hdedup : (if b.includePacketId && !bus.router && has (header s) packetIdBit then
        Bus.knownPacketId bus.recentPacketIds (infoOf bus s)
      else (false, bus.recentPacketIds)) =
      (!bus.router && recorded bus s, recordsAfter bus s) := by
    unfold recordsAfter
    rw [recorded_infoOf, ← knownPacketId_fst]
    cases bus.router <;> cases hbit : has (header s) packetIdBit <;> simp [hbit, hid]
  have hdeliver : bus.deliver st =
      let after := { bus with
        data := st.data, lastPacketInfo := bus.parse st.data
        recentPacketIds := recordsAfter bus s }
      let response := if ackDue bus s then [.sendResponse ack] else []
      if !bus.router && recorded bus s then { result := ack, bus := after, events := response }
      else if !portMatches bus s then { result := busy, bus := after, events := response }
      else
        { result := ack, bus := after
          events := response ++ [.receiver (payloadOf s) (bus.parse st.data)] } := by
    simp only [Bus.deliver, hheader, hport, knownPacketId_settled hok h, hdedup, hack, hpayload,
      hmatch]
  rw [hdeliver]
  cases hr : bus.router <;> cases hrec : recorded bus s <;> cases hp : portMatches bus s <;>
    constructor <;> simp [hr, hrec, hp]

end Events

/-! ## The receiver function is called for the packets the protocol admits -/

theorem mem_events_receiver {bus : Bus b} {s : List UInt8} {info : PacketInfo}
    {outcome : Outcome b} (h : Caused bus s info outcome) (payload : List UInt8) :
    (∃ parsed, Event.receiver payload parsed ∈ outcome.events) ↔
      ((bus.router ∨ recorded bus s = false) ∧ portMatches bus s) ∧ payload = payloadOf s := by
  have hresponse : ∀ parsed, Event.receiver payload parsed ∉
      (if ackDue bus s then [Event.sendResponse ack] else []) := by
    intro parsed
    split_ifs <;> simp
  rw [h.events]
  constructor
  · rintro ⟨parsed, hmem⟩
    have hcalled := (List.mem_append.mp hmem).resolve_left (hresponse parsed)
    split_ifs at hcalled with hrule
    · rw [List.mem_singleton, Event.receiver.injEq] at hcalled
      exact ⟨by simpa using hrule, hcalled.1⟩
    · simp at hcalled
  · rintro ⟨hrule, rfl⟩
    refine ⟨info, List.mem_append_right _ ?_⟩
    rw [if_pos (by simpa using hrule)]
    exact List.mem_singleton_self _

/-- Whatever payload is handed over, it is that of the packet. -/
theorem exists_mem_events_receiver {bus : Bus b} {s : List UInt8} {info : PacketInfo}
    {outcome : Outcome b} (h : Caused bus s info outcome) :
    (∃ payload parsed, Event.receiver payload parsed ∈ outcome.events) ↔
      (bus.router ∨ recorded bus s = false) ∧ portMatches bus s := by
  constructor
  · rintro ⟨payload, hcalled⟩
    exact ((mem_events_receiver h payload).mp hcalled).1
  · intro hrule
    exact ⟨payloadOf s, (mem_events_receiver h (payloadOf s)).mpr ⟨hrule, rfl⟩⟩

theorem mem_events_response {bus : Bus b} {s : List UInt8} {info : PacketInfo}
    {outcome : Outcome b} (h : Caused bus s info outcome) :
    Event.sendResponse ack ∈ outcome.events ↔ ackDue bus s := by
  have hcall : Event.sendResponse ack ∉
      (if (bus.router || !recorded bus s) && portMatches bus s then
        [Event.receiver (payloadOf s) info] else []) := by
    split_ifs <;> simp
  rw [h.events, List.mem_append, or_iff_left hcall]
  cases ackDue bus s <;> simp

section Receive

variable (bus : Bus b) (delivery : Delivery) (hmin : 4 ≤ b.packetMaxLength)
  (hmax : b.packetMaxLength < 65536)

include hmin hmax

theorem receive_caused (h : Admissible bus delivery.bytes) :
    ∃ info, withoutMacs info = withoutMacs (infoOf bus delivery.bytes) ∧
      Caused bus delivery.bytes info (bus.receive delivery) := by
  obtain ⟨st, hsettled, hrun⟩ := receive_of_admissible bus delivery hmin hmax h
  have hok : LengthOk b delivery.bytes := ⟨h.overhead, h.maxLength, h.longCrc⟩
  refine ⟨bus.parse st.data, parse_settled bus hok hsettled, ?_⟩
  rw [hrun]
  exact deliver_caused hok h.packetId hsettled

theorem events_of_not_admissible (h : ¬Admissible bus delivery.bytes) :
    (bus.receive delivery).events = [] := by
  obtain ⟨code, data, hrun, -⟩ := receive_of_not_admissible bus delivery hmin hmax h
  rw [hrun]

end Receive

/-- A device hands over what it admits and has not had before, if it is for its port. -/
theorem receiver_of_admissible {device : Bus b} {arrival : Delivery}
    (hmin : 4 ≤ b.packetMaxLength) (hmax : b.packetMaxLength < 65536)
    (hadm : Admissible device arrival.bytes) (hfresh : recorded device arrival.bytes = false)
    (hport : portMatches device arrival.bytes = true) :
    ∃ info, .receiver (payloadOf arrival.bytes) info ∈ (device.receive arrival).events := by
  obtain ⟨info, -, hcaused⟩ := receive_caused device arrival hmin hmax hadm
  exact (mem_events_receiver hcaused _).mpr ⟨⟨Or.inr hfresh, hport⟩, rfl⟩

/-- The receiver function is called exactly for what `Delivered` describes, and an
acknowledgement leaves exactly for what is admissible and due one. -/
theorem receive_delivers_iff (bus : Bus b) (delivery : Delivery)
    (hmin : 4 ≤ b.packetMaxLength) (hmax : b.packetMaxLength < 65536) :
    ((∃ payload info, Event.receiver payload info ∈ (bus.receive delivery).events) ↔
      Delivered bus delivery.bytes) ∧
    (Event.sendResponse ack ∈ (bus.receive delivery).events ↔
      Admissible bus delivery.bytes ∧ ackDue bus delivery.bytes) := by
  by_cases hadm : Admissible bus delivery.bytes
  · obtain ⟨info, -, hcaused⟩ := receive_caused bus delivery hmin hmax hadm
    rw [exists_mem_events_receiver hcaused, mem_events_response hcaused]
    refine ⟨⟨?_, ?_⟩, fun hdue => ⟨hadm, hdue⟩, fun hdue => hdue.2⟩
    · rintro ⟨hfresh, hport⟩
      exact ⟨hadm, hfresh, hport⟩
    · intro hdelivered
      exact ⟨hdelivered.fresh, hdelivered.port_matches⟩
  · rw [events_of_not_admissible bus delivery hmin hmax hadm]
    constructor
    · constructor
      · rintro ⟨payload, info, hmem⟩
        simp at hmem
      · intro hdelivered
        exact absurd hdelivered.toAdmissible hadm
    · constructor
      · intro hmem
        simp at hmem
      · rintro ⟨hadm', -⟩
        exact absurd hadm' hadm

/-- An instance with the default settings and a broadcast of one byte. -/
theorem receive_delivers_iff_broadcast :
    ((∃ payload info, Event.receiver payload info ∈
        (Bus.receive ({} : Bus {}) ⟨[0, 0, 6, 101, 65, 90], fun _ => 6⟩).events) ↔
      Delivered ({} : Bus {}) [0, 0, 6, 101, 65, 90]) ∧
    (Event.sendResponse ack ∈
        (Bus.receive ({} : Bus {}) ⟨[0, 0, 6, 101, 65, 90], fun _ => 6⟩).events ↔
      Admissible ({} : Bus {}) [0, 0, 6, 101, 65, 90] ∧
        ackDue ({} : Bus {}) [0, 0, 6, 101, 65, 90]) :=
  receive_delivers_iff {} ⟨[0, 0, 6, 101, 65, 90], fun _ => 6⟩ (by decide) (by decide)

end Pjon.Proofs.Deliver
