import Pjon.Proofs.JsonText
import Pjon.Proofs.RoundTrip
/-!
# From a frame to a packet through a JSON message

The header of a message that names a sender is the one that the messages before it have left, and
only then it is raised.  So the sender of the first one is lost; and a message without a sender
gets one, once another has been named.
-/

namespace Pjon.Proofs.JsonBus

open Pjon.Lib Pjon.Model Pjon.Model.Tools Pjon.Model.MQTTTranslate Pjon.Spec
open Pjon.Proofs.Layout Pjon.Proofs.RoundTrip Pjon.Proofs.MQTTTranslate Pjon.Proofs.JsonText

variable {b : Build}

/-! ## The header that is left behind -/

section History

variable {reading : Settings} (hreading : reading.mode = .busJson)

theorem receiver_busId (strategy : Strategy) (message : Message) :
    (strategy.receiver b reading message).busId = strategy.busId := by
  rw [Strategy.receiver]
  cases request reading strategy message <;> rfl

theorem foldl_busId (b : Build) (reading : Settings) (strategy : Strategy) (prior : List Message) :
    (prior.foldl (Strategy.receiver b reading) strategy).busId = strategy.busId := by
  induction prior generalizing strategy with
  | nil => rfl
  | cons message prior ih => rw [List.foldl_cons, ih, receiver_busId]

/-- What is read in a message depends on the message alone. -/
theorem jsonRequest_eq (strategy : Strategy) (message : Message) :
    jsonRequest strategy message = (jsonRequest {} message).map fun request =>
      { info := fillInfo request.info.tx.id strategy.busId request.info.rx.id strategy.busId
          strategy.header
        payload := request.payload
        header := if request.info.tx.id ≠ 0 then strategy.header ||| txInfoBit
          else strategy.header } := by
  simp only [jsonRequest]
  generalize readFields (message.payload.bytes ++ message.behind) message.payload.length
    message.payload.length 0 { length := message.payload.length } = fields
  by_cases hnone : fields.receiverId = 0 ∨ fields.found = false
  · rw [if_pos hnone, if_pos hnone, Option.map_none]
  · rw [if_neg hnone, if_neg hnone, Option.map_some]
    rfl

include hreading

theorem request_eq (strategy : Strategy) (message : Message) :
    request reading strategy message = jsonRequest strategy message := by
  rw [request, hreading]

theorem receiver_header_of_named {strategy : Strategy} {message : Message}
    (h : NamesSender message) :
    (strategy.receiver b reading message).header = strategy.header ||| txInfoBit := by
  obtain ⟨named, hrequest, hsender⟩ := h
  have hread := request_eq hreading strategy message
  rw [jsonRequest_eq, hrequest] at hread
  rw [receiver_of_some hread]
  exact if_pos hsender

theorem receiver_header_of_unnamed {strategy : Strategy} {message : Message}
    (h : ¬NamesSender message) :
    (strategy.receiver b reading message).header = strategy.header := by
  have hread := request_eq hreading strategy message
  rw [jsonRequest_eq] at hread
  cases hrequest : jsonRequest {} message with
  | none =>
      rw [hrequest] at hread
      rw [receiver_of_none hread]
  | some request =>
      rw [hrequest] at hread
      have hsender : ¬request.info.tx.id ≠ 0 := fun hne => h ⟨request, hrequest, hne⟩
      rw [receiver_of_some hread]
      exact if_neg hsender

theorem header_of_unnamed (strategy : Strategy) {prior : List Message}
    (h : ∀ message ∈ prior, ¬NamesSender message) :
    (prior.foldl (Strategy.receiver b reading) strategy).header = strategy.header := by
  induction prior generalizing strategy with
  | nil => rfl
  | cons message prior ih =>
      rw [List.forall_mem_cons] at h
      rw [List.foldl_cons, ih _ h.2, receiver_header_of_unnamed hreading h.1]

/-- Once a sender has been named, the header stays raised. -/
theorem header_of_raised {strategy : Strategy} (hraised : strategy.header = txInfoBit)
    (prior : List Message) :
    (prior.foldl (Strategy.receiver b reading) strategy).header = txInfoBit := by
  induction prior generalizing strategy with
  | nil => exact hraised
  | cons message prior ih =>
      rw [List.foldl_cons]
      apply ih
      by_cases hnamed : NamesSender message
      · rw [receiver_header_of_named hreading hnamed, hraised]
        rfl
      · rw [receiver_header_of_unnamed hreading hnamed, hraised]

theorem header_of_named {strategy : Strategy} (hstart : strategy.header = 0)
    {prior : List Message} (h : ∃ message ∈ prior, NamesSender message) :
    (prior.foldl (Strategy.receiver b reading) strategy).header = txInfoBit := by
  induction prior generalizing strategy with
  | nil => simp at h
  | cons message prior ih =>
      rw [List.foldl_cons]
      by_cases hnamed : NamesSender message
      · apply header_of_raised hreading
        rw [receiver_header_of_named hreading hnamed, hstart]
        rfl
      · apply ih
        · rw [receiver_header_of_unnamed hreading hnamed, hstart]
        · obtain ⟨other, hother, hname⟩ := h
          rcases List.mem_cons.mp hother with rfl | hmem
          · exact absurd hname hnamed
          · exact ⟨other, hmem, hname⟩

end History

/-! ## What is composed -/

theorem has_txInfo_txInfo : has txInfoBit txInfoBit = true := by decide

theorem has_zero_txInfo : has 0 txInfoBit = false := by decide

section Composed

variable {sender recipient : UInt8} {busId : Vector UInt8 4} {header : UInt8}

/-- A header without an acknowledgement or a port. -/
theorem startHeader_fillInfo (hheader : header = 0 ∨ header = txInfoBit) (length : Nat) :
    startHeader b (fillInfo sender busId recipient busId header) length =
      if 255 < length then header ||| extLenBit else header := by
  have hport : ∀ header : UInt8, has header portBit = false →
      portHeader b noPort header = header := by
    intro header hbit
    simp [portHeader, hbit]
  have hplain : ∀ header : UInt8, has header portBit = false → header &&& ~~~ackReqBit = header →
      (if recipient == broadcast then portHeader b noPort header &&& ~~~ackReqBit
        else portHeader b noPort header) = header := by
    intro header hbit hclear
    rw [hport header hbit, hclear, ite_self]
  simp only [startHeader, fillInfo]
  by_cases hlong : 255 < length
  · simp only [if_pos hlong]
    rcases hheader with rfl | rfl <;> exact hplain _ (by decide) (by decide)
  · simp only [if_neg hlong]
    rcases hheader with rfl | rfl <;> exact hplain _ (by decide) (by decide)

theorem startHeader_of_short (hheader : header = 0 ∨ header = txInfoBit) {length : Nat}
    (hlength : length < 256) :
    startHeader b (fillInfo sender busId recipient busId header) length = header := by
  rw [startHeader_fillInfo hheader, if_neg (by omega)]

theorem totalLength_forceCrc {length : Nat} (hlength : length < 256) :
    totalLength (forceCrc txInfoBit length) length = length + if 9 < length then 9 else 6 := by
  have hplain : packetOverhead txInfoBit = 6 := by decide
  have hcrc : packetOverhead (txInfoBit ||| crcBit) = 9 := by decide
  have hstart : totalLength txInfoBit length = length + 6 := by
    rw [totalLength, hplain, Nat.mod_eq_of_lt (by omega)]
  rw [forceCrc_eq, hstart]
  by_cases hlong : 9 < length
  · rw [if_pos (by omega), if_pos hlong, totalLength, hcrc, Nat.mod_eq_of_lt (by omega)]
  · rw [if_neg (by omega), if_neg hlong, hstart]

/-- The length field is as wide as the header says up to this length. -/
theorem has_measure_extLen {length : Nat} (hlength : length < 256) :
    has (measure b (fillInfo sender busId recipient busId txInfoBit) length).header extLenBit =
      decide (246 < length) := by
  have hbit : has txInfoBit extLenBit = false := by decide
  rw [has_measure_ext, startHeader_of_short (Or.inr rfl) hlength, hbit, Bool.false_or,
    totalLength_forceCrc hlength, decide_eq_decide]
  split_ifs <;> omega

/-- Nothing wraps. -/
theorem noWrap_fillInfo {length : Nat} (hlength : length < 256) :
    length + packetOverhead
      (measure b (fillInfo sender busId recipient busId header) length).header < 65536 := by
  have hover := packetOverhead_le
    (measure b (fillInfo sender busId recipient busId header) length).header
  omega

/-- A packet that fits without sender info does not wrap with it. -/
theorem noWrap_raised {length : Nat} (hsmall : b.packetMaxLength < 65536)
    (hfits : length + packetOverhead
      (measure b (fillInfo sender busId recipient busId 0) length).header < b.packetMaxLength) :
    length + packetOverhead
      (measure b (fillInfo sender busId recipient busId txInfoBit) length).header < 65536 := by
  by_cases hlength : 255 < length
  · have hlong : ∀ header : UInt8, has (header ||| extLenBit) extLenBit = true := by
      intro header
      rw [has_or, show has extLenBit extLenBit = true by decide, Bool.or_true]
    have hplain : packetOverhead (0 ||| extLenBit) = 6 := by decide
    have hcrc : packetOverhead (0 ||| extLenBit ||| crcBit) = 9 := by decide
    have hcrc' : packetOverhead (txInfoBit ||| extLenBit ||| crcBit) = 10 := by decide
    have hplain' : packetOverhead (txInfoBit ||| extLenBit) = 7 := by decide
    rw [measure_header, startHeader_fillInfo (Or.inl rfl), if_pos hlength, hlong,
      forceExtLen_true, forceCrc_eq, totalLength, hplain] at hfits
    rw [measure_header, startHeader_fillInfo (Or.inr rfl), if_pos hlength, hlong,
      forceExtLen_true, forceCrc_eq, totalLength, hplain']
    split_ifs at hfits ⊢ <;> omega
  · exact noWrap_fillInfo (by omega)

theorem extendedLength_fillInfo {length : Nat} (hlength : length < 256) :
    (measure b (fillInfo sender busId recipient busId txInfoBit) length).extendedLength =
      false := by
  rw [measure_extendedLength, startHeader_of_short (Or.inr rfl) hlength]
  decide

theorem supports_fillInfo (hheader : header = 0 ∨ header = txInfoBit) :
    b.Supports (fillInfo sender busId recipient busId header).header := by
  change b.Supports header
  rcases hheader with rfl | rfl <;>
    exact ⟨fun h => absurd h (by decide), fun h => absurd h (by decide),
      fun h => absurd h (by decide), fun h => absurd h (by decide)⟩

end Composed

/-- What `receiver` leaves behind a message that it makes a packet of. -/
structure Composes (b : Build) (strategy : Strategy) (info : PacketInfo) (payload : Payload) :
    Prop where
  size : strategy.incomingPacketSize = (measure b info payload.length).newLength
  buffer : ∃ memory : Memory,
    strategy.packetBuffer = memory.apply (composePacket b info memory payload).2

theorem composes_of_some {reading : Settings} {strategy : Strategy} {message : Message}
    {wanted : Request} (h : request reading strategy message = some wanted) :
    Composes b (strategy.receiver b reading message) wanted.info wanted.payload := by
  rw [receiver_of_some h]
  exact ⟨composePacket_fst _ _ _ _, strategy.packetBuffer, rfl⟩

section Packet

variable {strategy : Strategy} {sender recipient : UInt8} {busId : Vector UInt8 4}
variable {header : UInt8} {payload : Payload} {info : PacketInfo}

theorem holds_of_composes (h : Composes b strategy info payload)
    (hwrap : payload.length + packetOverhead (measure b info payload.length).header < 65536)
    (hsize : strategy.incomingPacketSize < b.packetMaxLength) :
    strategy.packetBuffer.Holds 0
      (metaData b info (measure b info payload.length) ++ payload.bytes) := by
  obtain ⟨memory, hbuffer⟩ := h.buffer
  rw [h.size] at hsize
  rw [hbuffer]
  exact holds_composed memory payload hwrap hsize

theorem header_of_composes (h : Composes b strategy info payload)
    (hwrap : payload.length + packetOverhead (measure b info payload.length).header < 65536)
    (hsize : strategy.incomingPacketSize < b.packetMaxLength) :
    strategy.packetBuffer 1 = (measure b info payload.length).header := by
  have hholds := holds_of_composes h hwrap hsize
  rw [metaData, List.append_assoc, Memory.holds_append] at hholds
  exact (read_front hholds.1).2

theorem txInfo_of_composes (h : Composes b strategy info payload)
    (hwrap : payload.length + packetOverhead (measure b info payload.length).header < 65536)
    (hsize : strategy.incomingPacketSize < b.packetMaxLength) :
    has (strategy.packetBuffer 1) txInfoBit = has info.header txInfoBit := by
  rw [header_of_composes h hwrap hsize, has_measure_txInfo]

/-- A packet carries as many bytes as it was composed of. -/
theorem length_of_carries
    (h : Composes b strategy (fillInfo sender busId recipient busId header) payload)
    (hlength : payload.length < 256) {recipient' sender' : UInt8} {expected : List UInt8}
    (hcarries : Carries b strategy recipient' sender' expected) :
    expected.length = payload.length := by
  have hexpected := hcarries.payload
  rw [header_of_composes h (noWrap_fillInfo hlength) hcarries.composed, h.size, measure_newLength,
    totalLength_of_lt (noWrap_fillInfo hlength), Nat.add_sub_cancel] at hexpected
  rw [← hexpected, Memory.length_load]

/-- The sender stands where the checksum of the front is expected. -/
theorem sender_of_wide
    (h : Composes b strategy (fillInfo sender busId recipient busId txInfoBit) payload)
    (hlength : payload.length < 256) (hwide : 246 < payload.length)
    {recipient' sender' : UInt8} {expected : List UInt8}
    (hcarries : Carries b strategy recipient' sender' expected) : sender = 0 := by
  have hholds := holds_of_composes h (noWrap_fillInfo hlength) hcarries.composed
  have hheader := header_of_composes h (noWrap_fillInfo hlength) hcarries.composed
  have hext : has (measure b (fillInfo sender busId recipient busId txInfoBit)
      payload.length).header extLenBit = _ := has_measure_extLen hlength
  have hflag : (measure b (fillInfo sender busId recipient busId txInfoBit)
      payload.length).extendedLength = false := extendedLength_fillInfo hlength
  have hcrc := hcarries.frontCrc
  rw [decide_eq_true hwide] at hext
  rw [hheader, hext] at hcrc
  set sizing := measure b (fillInfo sender busId recipient busId txInfoBit) payload.length
    with hsizing
  have hmode : has sizing.header modeBit = false := by
    rw [hsizing, has_measure_mode]
    change has txInfoBit modeBit = false
    decide
  have htx : has sizing.header txInfoBit = true := by
    rw [hsizing, has_measure_txInfo]
    exact has_txInfo_txInfo
  have hfields : metaData b (fillInfo sender busId recipient busId txInfoBit) sizing =
      ([recipient, sizing.header, UInt8.ofNat sizing.newLength] ++
        [Crc8.compute [recipient, sizing.header, UInt8.ofNat sizing.newLength]]) ++ [sender] ++
          (idField b (fillInfo sender busId recipient busId txInfoBit) sizing.header ++
            (portField b (fillInfo sender busId recipient busId txInfoBit) sizing.header ++
              macFields b (fillInfo sender busId recipient busId txInfoBit) sizing.header)) := by
    simp [metaData, frontFields, lengthField, busFields, txField, hflag, hmode, htx, fillInfo]
  rw [hfields, List.append_assoc, List.append_assoc, Memory.holds_append, List.singleton_append,
    Memory.holds_cons] at hholds
  have hfront : strategy.packetBuffer.load 0 4 =
      [recipient, sizing.header, UInt8.ofNat sizing.newLength] ++
        [Crc8.compute [recipient, sizing.header, UInt8.ofNat sizing.newLength]] := hholds.1
  have hsender : strategy.packetBuffer 4 = sender := hholds.2.1
  change strategy.packetBuffer 4 = Crc8.compute (strategy.packetBuffer.load 0 4) at hcrc
  rw [hfront, Crc8.compute_append_compute, hsender] at hcrc
  exact hcrc

/-- The packet carries what the message says, if the header was raised before. -/
theorem carries_of_composes
    (h : Composes b strategy (fillInfo sender busId recipient busId txInfoBit) payload)
    (hlength : payload.length < 247)
    (hfits : (measure b (fillInfo sender busId recipient busId txInfoBit)
      payload.length).newLength < b.packetMaxLength) :
    Carries b strategy recipient sender payload.bytes := by
  have hshort : payload.length < 256 := by omega
  have hsize : strategy.incomingPacketSize < b.packetMaxLength := h.size ▸ hfits
  have hholds := holds_of_composes h (noWrap_fillInfo hshort) hsize
  have hheader := header_of_composes h (noWrap_fillInfo hshort) hsize
  have hwidth : (measure b (fillInfo sender busId recipient busId txInfoBit)
      payload.length).extendedLength =
        has (measure b (fillInfo sender busId recipient busId txInfoBit)
          payload.length).header extLenBit := by
    rw [extendedLength_fillInfo hshort, has_measure_extLen hshort, eq_comm,
      decide_eq_false_iff_not]
    omega
  have hsup : b.Supports
      (measure b (fillInfo sender busId recipient busId txInfoBit) payload.length).header :=
    supports_measure payload.length (supports_fillInfo (Or.inr rfl))
  have hport := port_of_has_port b (fillInfo sender busId recipient busId txInfoBit)
    payload.length
  have hmeta := length_metaData b _ hsup hwidth hport
  rw [Memory.holds_append, Nat.zero_add] at hholds
  have hrecovers := (parseHeader_recovers hsup hwidth hport hholds.1).fields
  have htx : has (strategy.packetBuffer 1) txInfoBit = true := by
    rw [txInfo_of_composes h (noWrap_fillInfo hshort) hsize]
    exact has_txInfo_txInfo
  have hfront := (holds_metaData hwidth hport).mp hholds.1
  have hlast : (metaData b (fillInfo sender busId recipient busId txInfoBit)
      (measure b (fillInfo sender busId recipient busId txInfoBit) payload.length)).length =
        packetOverhead (strategy.packetBuffer 1) - crcOverhead (strategy.packetBuffer 1) := by
    rw [hheader]
    omega
  constructor
  · exact hsize
  · rw [hheader]
    exact read_frontCrc hwidth hfront.1
  · exact congrArg (fun info : PacketInfo => info.rx.id) hrecovers
  · exact htx
  · have hsender := congrArg (fun info : PacketInfo => info.tx.id) hrecovers
    rw [hheader] at htx
    exact hsender.trans (if_pos htx)
  · rw [← hlast, hheader, h.size, measure_newLength, totalLength_of_lt (noWrap_fillInfo hshort),
      Nat.add_sub_cancel]
    exact hholds.2

end Packet

/-! ## From one strategy to the other -/

section Sent

variable {publishing : Publishing} {publisher : Publisher} {frame : Frame} {reading : Settings}
variable {strategy : Strategy}

/-- A `uint8_t` counts the bytes of the payload that are published. -/
def sentPayload (frame : Frame) : Payload where
  bytes := (framePayload frame).take ((framePayload frame).length % 256)
  fits := by
    rw [List.length_take]
    omega

theorem length_sentPayload (frame : Frame) :
    (sentPayload frame).length = (framePayload frame).length % 256 := by
  rw [Payload.length, sentPayload, List.length_take]
  omega

theorem sentPayload_bytes (frame : Frame) (h : (framePayload frame).length < 256) :
    (sentPayload frame).bytes = framePayload frame := by
  simp only [sentPayload, Nat.mod_eq_of_lt h, List.take_length]

/-- The text that is published for the frame. -/
def sentText (publishing : Publishing) (frame : Frame) : List UInt8 :=
  publishing.jsonText (parseRx publishing.build frame.data).id
    (parseTx publishing.build frame.data).id (sentPayload frame).bytes

theorem sendFrame_text (hmode : publishing.mode = .busJson)
    (htopic : (publishing.composeTopic publisher frame.data).isSome = true)
    (htext : 31 + (framePayload frame).length < publishing.bufferSize) :
    ∃ sent publication, publisher.sendFrame publishing frame = some sent ∧
      sent.published = [(publication, frame.results 0)] ∧
      publication.payload = sentText publishing frame := by
  obtain ⟨topic, htopic⟩ := Option.isSome_iff_exists.mp htopic
  have hlength : (framePayload frame).length =
      Publishing.payloadLength frame.data frame.length := Memory.length_load _ _ _
  have hdata : frame.data.load (Publishing.payloadStart frame.data)
      (Publishing.payloadLength frame.data frame.length % 256) = (sentPayload frame).bytes := by
    obtain ⟨more, hmore⟩ := Nat.exists_eq_add_of_le
      (Nat.mod_le (Publishing.payloadLength frame.data frame.length) 256)
    have hsplit : framePayload frame = frame.data.load (Publishing.payloadStart frame.data)
        (Publishing.payloadLength frame.data frame.length % 256 + more) := hmore ▸ rfl
    rw [Memory.load_append] at hsplit
    have hbytes : (sentPayload frame).bytes =
        (framePayload frame).take ((framePayload frame).length % 256) := rfl
    rw [hbytes, hlength, hsplit, List.take_left' (Memory.length_load _ _ _)]
  rw [hlength] at htext
  rw [Publisher.sendFrame, htopic]
  simp only [hmode]
  rw [if_neg (by omega)]
  exact ⟨_, _, rfl, rfl, by rw [hdata]; rfl⟩

theorem comesThrough_iff_text (hmode : publishing.mode = .busJson)
    (htopic : (publishing.composeTopic publisher frame.data).isSome = true)
    (htext : 31 + (framePayload frame).length < publishing.bufferSize) :
    ComesThrough b publishing publisher frame reading strategy ↔
      ∀ message : Message, message.payload.bytes = sentText publishing frame →
        Carries b (strategy.receiver b reading message) (parseRx publishing.build frame.data).id
          (parseTx publishing.build frame.data).id (framePayload frame) := by
  obtain ⟨sent, publication, hsent, hpublished, hpayload⟩ := sendFrame_text hmode htopic htext
  constructor
  · rintro ⟨sent', publication', success, hsent', hpublished', hall⟩
    rw [hsent, Option.some.injEq] at hsent'
    rw [← hsent', hpublished, List.singleton_inj, Prod.mk.injEq] at hpublished'
    rw [← hpublished'.1, hpayload] at hall
    exact hall
  · intro hall
    exact ⟨sent, publication, _, hsent, hpublished, hpayload ▸ hall⟩

theorem length_sentText (hlibrary : WritesDecimal publishing.uint8toa) :
    (sentText publishing frame).length < 65536 := by
  have hdata : (cString (sentPayload frame).bytes).length ≤ (sentPayload frame).bytes.length :=
    (List.takeWhile_sublist _).length_le
  have hpayload := length_sentPayload frame
  have hrecipient := hlibrary.length (parseRx publishing.build frame.data).id
  have hsender := hlibrary.length (parseTx publishing.build frame.data).id
  rw [Payload.length] at hpayload
  simp only [sentText, Publishing.jsonText, Publishing.jsonFront, List.length_append,
    List.length_cons, List.length_nil]
  omega

/-- What becomes of the text, at a strategy that has received messages before. -/
theorem composes_sentText (hreading : reading.mode = .busJson)
    (hlibrary : WritesDecimal publishing.uint8toa)
    (hplain : PlainFrame b publishing publisher frame strategy) {message : Message}
    (hmessage : message.payload.bytes = sentText publishing frame) :
    Composes b (strategy.receiver b reading message)
      (fillInfo (parseTx publishing.build frame.data).id strategy.busId
        (parseRx publishing.build frame.data).id strategy.busId strategy.header)
      (sentPayload frame) := by
  have hdata : ∀ x ∈ (sentPayload frame).bytes, x ≠ 0 ∧ x ≠ 34 :=
    fun x hx => hplain.plain x (List.mem_of_mem_take hx)
  have hrequest := jsonRequest_of_text hlibrary strategy hplain.recipient (sentPayload frame)
    hdata hmessage
  rw [← request_eq hreading] at hrequest
  exact composes_of_some hrequest

theorem comesThrough_iff_raised (hmode : publishing.mode = .busJson)
    (hreading : reading.mode = .busJson) (hlibrary : WritesDecimal publishing.uint8toa)
    (hheader : strategy.header = 0 ∨ strategy.header = txInfoBit)
    (hplain : PlainFrame b publishing publisher frame strategy) :
    ComesThrough b publishing publisher frame reading strategy ↔
      strategy.header = txInfoBit ∧ (framePayload frame).length < 247 := by
  have hshort : (sentPayload frame).length < 256 := by
    rw [length_sentPayload]
    exact Nat.mod_lt _ (by decide)
  rw [comesThrough_iff_text hmode hplain.topic hplain.text]
  constructor
  · intro hall
    obtain ⟨message, hmessage⟩ :
        ∃ message : Message, message.payload.bytes = sentText publishing frame :=
      ⟨{ payload := ⟨sentText publishing frame, length_sentText hlibrary⟩ }, rfl⟩
    have hcarries := hall message hmessage
    have hcomposes := composes_sentText hreading hlibrary hplain hmessage
    have hraised : strategy.header = txInfoBit := by
      rcases hheader with hzero | hraised
      · have htx := hcarries.txInfo
        rw [txInfo_of_composes hcomposes (noWrap_fillInfo hshort) hcarries.composed, hzero] at htx
        exact absurd htx (by rw [fillInfo, has_zero_txInfo]; exact Bool.false_ne_true)
      · exact hraised
    refine ⟨hraised, ?_⟩
    rw [hraised] at hcomposes
    have hlength := length_of_carries hcomposes hshort hcarries
    by_contra hlong
    exact hplain.sender (sender_of_wide hcomposes hshort (by omega) hcarries)
  · rintro ⟨hraised, hlength⟩ message hmessage
    have hcomposes := composes_sentText hreading hlibrary hplain hmessage
    have hbytes := sentPayload_bytes frame (by omega)
    have hsame : (sentPayload frame).length = (framePayload frame).length := by
      rw [Payload.length, hbytes]
    rw [hraised] at hcomposes
    rw [← hbytes]
    apply carries_of_composes hcomposes (by omega)
    rw [hsame]
    exact hplain.packet

end Sent

/-- What becomes of a message that names no sender. -/
theorem unsigned_iff_unraised {reading : Settings} (hreading : reading.mode = .busJson)
    (hsmall : b.packetMaxLength < 65536) {strategy : Strategy}
    (hheader : strategy.header = 0 ∨ strategy.header = txInfoBit) {message : Message}
    {named : Request} (hrequest : jsonRequest {} message = some named)
    (hfits : named.payload.length + packetOverhead
      (measure b (fillInfo named.info.tx.id strategy.busId named.info.rx.id strategy.busId 0)
        named.payload.length).header < b.packetMaxLength) :
    Unsigned b (strategy.receiver b reading message) ↔ strategy.header = 0 := by
  have hread := request_eq hreading strategy message
  rw [jsonRequest_eq, hrequest] at hread
  have hcomposes := composes_of_some (b := b) hread
  simp only at hcomposes
  constructor
  · intro hunsigned
    rcases hheader with hzero | hraised
    · exact hzero
    · rw [hraised] at hcomposes
      have htx := txInfo_of_composes hcomposes (noWrap_raised hsmall hfits) hunsigned.composed
      rw [hunsigned.txInfo] at htx
      exact absurd (htx.trans has_txInfo_txInfo) Bool.false_ne_true
  · intro hzero
    rw [hzero] at hcomposes
    have hwrap := Nat.lt_trans hfits hsmall
    have hsize := hcomposes.size
    rw [measure_newLength, totalLength_of_lt hwrap] at hsize
    rw [← hsize] at hfits
    exact ⟨hfits, (txInfo_of_composes hcomposes hwrap hfits).trans has_zero_txInfo⟩

section Prior

variable {reading : Settings} {start : Strategy}

/-- Whether the header is raised tells whether a sender has been named. -/
theorem header_cases (b : Build) (prior : List Message) (hreading : reading.mode = .busJson)
    (hstart : start.header = 0) :
    (∃ message ∈ prior, NamesSender message) ∧
        (prior.foldl (Strategy.receiver b reading) start).header = txInfoBit ∨
      (¬∃ message ∈ prior, NamesSender message) ∧
        (prior.foldl (Strategy.receiver b reading) start).header = 0 := by
  by_cases hnamed : ∃ message ∈ prior, NamesSender message
  · exact Or.inl ⟨hnamed, header_of_named hreading hstart hnamed⟩
  · have hnone : ∀ message ∈ prior, ¬NamesSender message :=
      fun message hmem hname => hnamed ⟨message, hmem, hname⟩
    exact Or.inr ⟨hnamed, (header_of_unnamed hreading start hnone).trans hstart⟩

theorem comesThrough_behind (prior : List Message) {publishing : Publishing}
    {publisher : Publisher} {frame : Frame} (hmode : publishing.mode = .busJson)
    (hreading : reading.mode = .busJson)
    (hlibrary : WritesDecimal publishing.uint8toa) (hstart : start.header = 0)
    (hplain : PlainFrame b publishing publisher frame start) :
    ComesThrough b publishing publisher frame reading
        (prior.foldl (Strategy.receiver b reading) start) ↔
      (∃ message ∈ prior, NamesSender message) ∧ (framePayload frame).length < 247 := by
  have hbehind : PlainFrame b publishing publisher frame
      (prior.foldl (Strategy.receiver b reading) start) :=
    { hplain with packet := by rw [foldl_busId]; exact hplain.packet }
  rcases header_cases b prior hreading hstart with
    ⟨hnamed, hheader⟩ | ⟨hnone, hheader⟩
  · rw [comesThrough_iff_raised hmode hreading hlibrary (Or.inr hheader) hbehind]
    exact and_congr_left fun _ => iff_of_true hheader hnamed
  · rw [comesThrough_iff_raised hmode hreading hlibrary (Or.inl hheader) hbehind]
    refine and_congr_left fun _ => iff_of_false ?_ hnone
    rw [hheader]
    decide

theorem unsigned_behind (prior : List Message) (hreading : reading.mode = .busJson)
    (hstart : start.header = 0) (hsmall : b.packetMaxLength < 65536) {message : Message}
    {named : Request} (hrequest : jsonRequest start message = some named)
    (hfits : named.payload.length + packetOverhead
      (measure b named.info named.payload.length).header < b.packetMaxLength) :
    Unsigned b ((prior.foldl (Strategy.receiver b reading) start).receiver b reading message) ↔
      ¬∃ message ∈ prior, NamesSender message := by
  rw [jsonRequest_eq] at hrequest
  obtain ⟨alone, halone, rfl⟩ := Option.map_eq_some_iff.mp hrequest
  rw [hstart] at hfits
  have hfits' := hfits
  simp only at hfits'
  rw [← foldl_busId b reading start prior] at hfits'
  rcases header_cases b prior hreading hstart with
    ⟨hnamed, hheader⟩ | ⟨hnone, hheader⟩
  · rw [unsigned_iff_unraised hreading hsmall (Or.inr hheader) halone hfits']
    refine iff_of_false ?_ (not_not.mpr hnamed)
    rw [hheader]
    decide
  · rw [unsigned_iff_unraised hreading hsmall (Or.inl hheader) halone hfits']
    exact iff_of_true hheader hnone

end Prior

/-- A frame comes through if a message before it has named a sender, and its payload is not too
long for a length field of one byte.  A message without a sender becomes a packet without one, if
no message before it has named any. -/
theorem comesThrough_iff (publishing : Publishing) (publisher : Publisher) (frame : Frame)
    (reading : Settings) (start : Strategy) (hsmall : b.packetMaxLength < 65536)
    (hmode : publishing.mode = .busJson) (hreading : reading.mode = .busJson)
    (hlibrary : WritesDecimal publishing.uint8toa) (hstart : start.header = 0)
    (prior : List Message) :
    (PlainFrame b publishing publisher frame start →
      (ComesThrough b publishing publisher frame reading
          (prior.foldl (Strategy.receiver b reading) start) ↔
        (∃ message ∈ prior, NamesSender message) ∧ (framePayload frame).length < 247)) ∧
    ∀ message named, jsonRequest start message = some named → named.info.tx.id = 0 →
      named.payload.length + packetOverhead
        (measure b named.info named.payload.length).header < b.packetMaxLength →
      (Unsigned b ((prior.foldl (Strategy.receiver b reading) start).receiver b reading message) ↔
        ¬∃ message ∈ prior, NamesSender message) := by
  constructor
  · exact comesThrough_behind prior hmode hreading hlibrary hstart
  · intro message named hrequest _ hfits
    exact unsigned_behind prior hreading hstart hsmall hrequest hfits

/-! ## Two messages -/

def decimal (n : UInt8) : List UInt8 :=
  (if 100 ≤ n then [48 + n / 100] else []) ++ (if 10 ≤ n then [48 + n / 10 % 10] else []) ++
    [48 + n % 10]

theorem writesDecimal_decimal : WritesDecimal decimal := by
  have hall : ∀ n : Fin 256, decimal (UInt8.ofNat n) ≠ [] ∧
      (decimal (UInt8.ofNat n)).all isDigit = true ∧
      digits (decimal (UInt8.ofNat n)) = n ∧ (decimal (UInt8.ofNat n)).length ≤ 3 := by
    decide +kernel
  have hofNat : ∀ n : UInt8, decimal n ≠ [] ∧ (decimal n).all isDigit = true ∧
      digits (decimal n) = n.toNat ∧ (decimal n).length ≤ 3 := by
    intro n
    have hn := hall ⟨n.toNat, n.toNat_lt⟩
    simp only [UInt8.ofNat_toNat] at hn
    exact hn
  exact ⟨fun n => (hofNat n).1, fun n => List.all_eq_true.mp (hofNat n).2.1,
    fun n => (hofNat n).2.2.1, fun n => (hofNat n).2.2.2⟩

def jsonPublishing : Publishing where
  build := defaultBuild
  mode := .busJson
  topicSize := 64
  uint8toa := decimal

def jsonReading : Settings := { mode := .busJson }

/-- A packet from device 45 to device 44 with the payload `OK`. -/
def plainFrame : Frame where
  data := Memory.apply (fun _ => 0) (composePacket defaultBuild
    (fillInfo 45 (Vector.replicate 4 0) 44 (Vector.replicate 4 0) txInfoBit) (fun _ => 0)
      ⟨[79, 75], by decide⟩).2
  length := 8
  results := fun _ => true

theorem plainFrame_plain : PlainFrame defaultBuild jsonPublishing {} plainFrame {} where
  txInfo := by decide +kernel
  recipient := by decide +kernel
  sender := by decide +kernel
  plain := by decide +kernel
  topic := by decide +kernel
  text := by decide +kernel
  packet := by decide +kernel

/-- The message that is made of it, or another one with this sender. -/
def jsonMessage (sender : UInt8) : Message where
  payload :=
    { bytes := jsonPublishing.jsonText 44 sender [79, 75]
      fits := by
        have hlength := writesDecimal_decimal.length sender
        have hrecipient := writesDecimal_decimal.length 44
        have hdata : cString [79, 75] = [79, 75] := rfl
        simp only [Publishing.jsonText, Publishing.jsonFront, jsonPublishing, hdata,
          List.length_append, List.length_cons, List.length_nil]
        omega }

theorem writesDecimal_jsonPublishing : WritesDecimal jsonPublishing.uint8toa :=
  writesDecimal_decimal

theorem jsonRequest_jsonMessage (strategy : Strategy) (sender : UInt8) :
    jsonRequest strategy (jsonMessage sender) =
      some
        { info := fillInfo sender strategy.busId 44 strategy.busId strategy.header
          payload := ⟨[79, 75], by decide⟩
          header := if sender ≠ 0 then strategy.header ||| txInfoBit else strategy.header } :=
  jsonRequest_of_text writesDecimal_jsonPublishing strategy (by decide) ⟨[79, 75], by decide⟩
    (by simp) rfl

theorem namesSender_jsonMessage : NamesSender (jsonMessage 45) :=
  ⟨_, jsonRequest_jsonMessage {} 45, by decide⟩

theorem comesThrough_iff_two :
    ComesThrough defaultBuild jsonPublishing {} plainFrame jsonReading
        ([jsonMessage 45].foldl (Strategy.receiver defaultBuild jsonReading) {}) ∧
      Unsigned defaultBuild (([].foldl (Strategy.receiver defaultBuild jsonReading) {}).receiver
        defaultBuild jsonReading (jsonMessage 0)) :=
  ⟨((comesThrough_iff jsonPublishing {} plainFrame jsonReading {} (by decide) rfl rfl
      writesDecimal_jsonPublishing rfl [jsonMessage 45]).1 plainFrame_plain).mpr
        ⟨⟨_, List.mem_singleton_self _, namesSender_jsonMessage⟩, by decide +kernel⟩,
    ((comesThrough_iff jsonPublishing {} plainFrame jsonReading {} (by decide) rfl rfl
      writesDecimal_jsonPublishing rfl []).2 _ _ (jsonRequest_jsonMessage {} 0) rfl
        (by decide)).mpr (by simp)⟩

/-- The sender of the first message is lost, and then given to a message that has none. -/
theorem sender_late :
    PlainFrame defaultBuild jsonPublishing {} plainFrame {} ∧
      ¬ComesThrough defaultBuild jsonPublishing {} plainFrame jsonReading {} ∧
      (∃ named, jsonRequest {} (jsonMessage 0) = some named ∧ named.info.tx.id = 0) ∧
      ¬Unsigned defaultBuild ((Strategy.receiver defaultBuild jsonReading {}
        (jsonMessage 45)).receiver defaultBuild jsonReading (jsonMessage 0)) := by
  refine ⟨plainFrame_plain, ?_, ⟨_, jsonRequest_jsonMessage {} 0, rfl⟩, ?_⟩
  · intro hround
    have hnamed := (comesThrough_behind [] rfl rfl writesDecimal_jsonPublishing rfl
      plainFrame_plain).mp hround
    obtain ⟨⟨message, hmem, -⟩, -⟩ := hnamed
    exact List.not_mem_nil hmem
  · intro hunsigned
    have hnone := (unsigned_behind [jsonMessage 45] rfl rfl (by decide)
      (jsonRequest_jsonMessage {} 0) (by decide)).mp hunsigned
    exact hnone ⟨_, List.mem_singleton_self _, namesSender_jsonMessage⟩

end Pjon.Proofs.JsonBus
