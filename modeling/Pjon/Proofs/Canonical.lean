import Pjon.Proofs.Frames
import Pjon.Proofs.Recompose
/-!
# An acceptable packet has one composition

The composer writes back what the parser read, field by field.  So the info of a packet,
with another hop count perhaps, is composed to the bytes that were received, up to the hop
byte and the end CRC that covers it.
-/

namespace Pjon.Proofs.Canonical

open Pjon.Lib Pjon.Model Pjon.Model.Tools Pjon.Spec
open Pjon.Proofs.Layout Pjon.Proofs.RoundTrip Pjon.Proofs.Interop Pjon.Proofs.Recompose
open Pjon.Proofs.Receive

variable {b : Build}

/-! ## Writing back what was read -/

section Write

variable {info : PacketInfo} {sizing : Sizing} {memory : Memory}
  (hsup : b.Supports sizing.header) (hheader : memory 1 = sizing.header)
  (h : Recovers info sizing.header (parseHeader b memory))

include hsup hheader h

theorem write_busFields :
    memory.Holds (busIndex sizing.header) (busFields b info sizing.header) := by
  cases hmode : has sizing.header modeBit
  · simp [busFields, hmode]
  · have hshared := hsup.2.2.2 hmode
    have hrx : memory.vector (busIndex sizing.header) 4 = info.rx.busId := by
      have hfield := congrArg (fun info : PacketInfo => info.rx.busId) h.fields
      simpa [withoutMacs, carried, parseHeader, parseRx, hheader, hmode, hshared] using hfield
    have hhops : memory (hopsIndex sizing.header) = info.hops := by
      have hfield := congrArg PacketInfo.hops h.fields
      simpa [withoutMacs, carried, parseHeader, hheader, hmode, hshared] using hfield
    have hbit : (!b.pjonLocal && has sizing.header modeBit) = true := by
      rw [hmode, hshared]
      rfl
    rw [busFields, if_pos hbit, List.append_assoc, Memory.holds_append, Vector.length_toList,
      ← hrx]
    refine ⟨Memory.holds_vector memory _ 4, ?_⟩
    cases htxInfo : has sizing.header txInfoBit
    · rw [hopsIndex, htxInfo] at hhops
      rw [if_neg Bool.false_ne_true, List.nil_append, Memory.holds_cons]
      exact ⟨hhops, Memory.holds_nil _ _⟩
    · have htx : memory.vector (txBusIndex sizing.header) 4 = info.tx.busId := by
        have hfield := congrArg (fun info : PacketInfo => info.tx.busId) h.fields
        simpa [withoutMacs, carried, parseHeader, parseTx, hheader, hmode, hshared, htxInfo]
          using hfield
      rw [hopsIndex, htxInfo] at hhops
      rw [if_pos rfl, Memory.holds_append, Vector.length_toList, Memory.holds_cons, ← htx]
      exact ⟨Memory.holds_vector memory _ 4, hhops, Memory.holds_nil _ _⟩

omit hsup in
theorem write_txField :
    memory.Holds (txIndex b sizing.header) (txField info sizing.header) := by
  cases htxInfo : has sizing.header txInfoBit
  · simp [txField, htxInfo]
  · have hfield := congrArg (fun info : PacketInfo => info.tx.id) h.fields
    simp only [withoutMacs, carried, parseHeader, parseTx, hheader, htxInfo, if_true] at hfield
    rw [txField, if_pos htxInfo, Memory.holds_cons]
    exact ⟨hfield, Memory.holds_nil _ _⟩

theorem write_idField :
    memory.Holds (idIndex b sizing.header) (idField b info sizing.header) := by
  cases hbit : has sizing.header packetIdBit
  · simp [idField, hbit]
  · have hfield := congrArg PacketInfo.id h.fields
    simp only [withoutMacs, carried, parseHeader, hheader, hbit, hsup.1 hbit, Bool.and_self,
      if_true] at hfield
    rw [idField, hbit, hsup.1 hbit, Bool.and_self, if_pos rfl, ← hfield, bigEndian_ofBigEndian,
      Memory.holds_cons, Memory.holds_cons]
    exact ⟨rfl, rfl, Memory.holds_nil _ _⟩

theorem write_portField (hport : has sizing.header portBit → info.port ≠ noPort) :
    memory.Holds (portIndex b sizing.header) (portField b info sizing.header) := by
  cases hbit : has sizing.header portBit
  · simp [portField, hbit]
  · have hfield := congrArg PacketInfo.port h.fields
    have hset : (info.port != noPort) = true := by simpa using hport hbit
    simp only [withoutMacs, carried, parseHeader, hheader, hbit, hsup.2.1 hbit, Bool.and_self,
      if_true] at hfield
    rw [portField, hbit, hsup.2.1 hbit, hset, Bool.and_self, Bool.and_self, if_pos rfl, ← hfield,
      bigEndian_ofBigEndian, Memory.holds_cons, Memory.holds_cons]
    exact ⟨rfl, rfl, Memory.holds_nil _ _⟩

theorem write_macFields :
    memory.Holds (macIndex b sizing.header) (macFields b info sizing.header) := by
  cases hmac : has sizing.header macBit
  · simp [macFields, hmac]
  · have hincluded := hsup.2.2.1 hmac
    have hrx : memory.vector (macIndex b sizing.header) 6 = info.rx.mac := by
      have hfield := h.rxMac hmac
      simpa [parseHeader, parseRx, hheader, hincluded] using hfield
    have htx : memory.vector (macIndex b sizing.header + 6) 6 = info.tx.mac := by
      have hfield := h.txMac hmac
      simpa [parseHeader, parseTx, hheader, hincluded] using hfield
    rw [macFields, hmac, hincluded, Bool.and_self, if_pos rfl, Memory.holds_append,
      Vector.length_toList, ← hrx, ← htx]
    exact ⟨Memory.holds_vector memory _ 6, Memory.holds_vector memory _ 6⟩

/-- The converse of `parseHeader_recovers`. -/
theorem write_metaData (hext : sizing.extendedLength = has sizing.header extLenBit)
    (hport : has sizing.header portBit → info.port ≠ noPort)
    (hfront : memory.Holds 0 (frontFields info sizing)) :
    memory.Holds 0 (metaData b info sizing) :=
  (holds_metaData hext fun _ => hport).mpr ⟨hfront, write_busFields hsup hheader h,
    write_txField hheader h, write_idField hsup hheader h,
    write_portField hsup hheader h hport, write_macFields hsup hheader h⟩

end Write

/-! ## The front -/

/-- What is measured when a packet is composed again. -/
def sizingOf (s : List UInt8) : Sizing where
  header := header s
  newLength := encodedLength s
  extendedLength := has (header s) extLenBit

section Front

variable {receiver : Bus b} {s : List UInt8} {info : PacketInfo}

theorem lengthField_sizingOf (s : List UInt8) : lengthField (sizingOf s) =
    if has (header s) extLenBit then [byte s 2, byte s 3] else [byte s 2] := by
  rw [lengthField, sizingOf]
  cases hext : has (header s) extLenBit
  · rw [if_neg Bool.false_ne_true, if_neg Bool.false_ne_true]
    simp only [encodedLength, hext, Bool.false_eq_true, if_false, UInt8.ofNat_toNat]
  · rw [if_pos rfl, if_pos rfl]
    simp only [encodedLength, hext, if_true, UInt16.ofNat_toNat, bigEndian_ofBigEndian]

theorem take_front (hlength : 3 + shift s ≤ s.length) (hrx : info.rx.id = byte s 0) :
    [info.rx.id, (sizingOf s).header] ++ lengthField (sizingOf s) = s.take (3 + shift s) := by
  have hholds : Memory.Holds (byte s) 0
      ([info.rx.id, (sizingOf s).header] ++ lengthField (sizingOf s)) := by
    rw [lengthField_sizingOf, hrx]
    cases has (header s) extLenBit <;>
      simp [Memory.holds_cons, sizingOf, header]
  have hlen : ([info.rx.id, (sizingOf s).header] ++ lengthField (sizingOf s)).length =
      3 + shift s := by
    rw [lengthField_sizingOf, shift]
    cases has (header s) extLenBit <;> rfl
  rw [Memory.Holds, hlen] at hholds
  rw [← hholds]
  exact load_eq_take hlength fun _ _ => rfl

theorem holds_front (hadm : Admissible receiver s) (hrx : info.rx.id = byte s 0) :
    Memory.Holds (byte s) 0 (frontFields info (sizingOf s)) := by
  have hlength : 3 + shift s ≤ s.length := by
    have hover := hadm.overhead
    have hge := packetOverhead_ge (header s)
    have hcomplete := hadm.complete
    have hshift : shift s ≤ 1 := Bool.toNat_le _
    omega
  have hfront := take_front hlength hrx
  have hholds : Memory.Holds (byte s) 0 (s.take (3 + shift s)) := by
    have hlen : (s.take (3 + shift s)).length = 3 + shift s := by simpa using hlength
    rw [Memory.Holds, hlen]
    exact load_eq_take hlength fun _ _ => rfl
  rw [frontFields, hfront, Memory.holds_append, Nat.zero_add, List.length_take,
    Nat.min_eq_left hlength, hadm.frontCrc, Memory.holds_cons]
  exact ⟨hholds, rfl, Memory.holds_nil _ _⟩

end Front

/-! ## Bits that are settled -/

/-- A bit that is set already. -/
theorem or_of_has {header bit : UInt8} (hbit : bit = extLenBit ∨ bit = portBit)
    (h : has header bit = true) : header ||| bit = header := by
  have hext : ∀ x : BitVec 8, x &&& 64 ≠ 0 → x ||| 64 = x := by decide
  have hport : ∀ x : BitVec 8, x &&& 16 ≠ 0 → x ||| 16 = x := by decide
  have hne : header &&& bit ≠ 0 := by simpa [has] using h
  apply UInt8.toBitVec_inj.mp
  rcases hbit with rfl | rfl
  · exact hext header.toBitVec fun hzero => hne (UInt8.toBitVec_inj.mp hzero)
  · exact hport header.toBitVec fun hzero => hne (UInt8.toBitVec_inj.mp hzero)

theorem clear_of_not_has {header : UInt8} (h : has header ackReqBit = false) :
    header &&& ~~~ackReqBit = header := by
  have hall : ∀ x : BitVec 8, x &&& 4 = 0 → x &&& ~~~4 = x := by decide
  have hzero : header &&& ackReqBit = 0 := by simpa [has] using h
  apply UInt8.toBitVec_inj.mp
  exact hall header.toBitVec (UInt8.toBitVec_inj.mpr hzero)

/-! ## What was received -/

/-- What `receive` hands over for the packet `s`.  The MAC addresses are those of the packet
where it has any. -/
structure Seen (bus : Bus b) (s : List UInt8) (info : PacketInfo) : Prop where
  fields : withoutMacs info = withoutMacs (infoOf bus s)
  rxMac : has (header s) macBit → info.rx.mac = (infoOf bus s).rx.mac
  txMac : has (header s) macBit → info.tx.mac = (infoOf bus s).tx.mac

/-- The id and the port of a packet that has them are not the values that stand for none. -/
structure Explicit (bus : Bus b) (s : List UInt8) : Prop where
  id : has (header s) packetIdBit → (infoOf bus s).id ≠ 0
  port : has (header s) portBit → (infoOf bus s).port ≠ noPort

/-- An info that sends the packet `s` on as it is, up to bus ids, hop count and sender. -/
structure Resent (bus : Bus b) (s : List UInt8) (info : PacketInfo) : Prop where
  header : info.header = header s
  recipient : info.rx.id = byte s 0
  id : info.id = (infoOf bus s).id
  port : info.port = (infoOf bus s).port

section Seen

variable {receiver : Bus b} {s : List UInt8} {info : PacketInfo}

/-- What is parsed is at its default where the packet has no field for it. -/
theorem recovers_self (receiver : Bus b) (s : List UInt8) :
    Recovers (infoOf receiver s) (header s) (infoOf receiver s) := by
  refine ⟨?_, fun _ => rfl, fun _ => rfl⟩
  have hbyte : byte s 1 = header s := rfl
  simp only [withoutMacs, carried, infoOf, Bus.parse, parseHeader, parseRx, parseTx, hbyte]
  cases has (header s) modeBit <;> cases has (header s) txInfoBit <;>
    cases has (header s) packetIdBit <;> cases has (header s) portBit <;> simp

theorem carried_congr {info info' : PacketInfo} (h : withoutMacs info = withoutMacs info')
    (header : UInt8) : withoutMacs (carried info header) = withoutMacs (carried info' header) := by
  have hrx := congrArg PacketInfo.rx h
  have htx := congrArg PacketInfo.tx h
  have hhops := congrArg PacketInfo.hops h
  have hid := congrArg PacketInfo.id h
  have hport := congrArg PacketInfo.port h
  simp only [withoutMacs, Endpoint.mk.injEq] at hrx htx hhops hid hport
  simp only [withoutMacs, carried, hrx.1, hrx.2.1, htx.1, htx.2.1, hhops, hid, hport]

/-- What the packet does not carry makes no difference. -/
theorem recovers_congr {info' parsed : PacketInfo} {header : UInt8}
    (h : Recovers info header parsed) (hfields : withoutMacs info = withoutMacs info')
    (hrx : has header macBit → info.rx.mac = info'.rx.mac)
    (htx : has header macBit → info.tx.mac = info'.tx.mac) : Recovers info' header parsed := by
  refine ⟨?_, fun hmac => (h.rxMac hmac).trans (hrx hmac),
    fun hmac => (h.txMac hmac).trans (htx hmac)⟩
  rw [h.fields]
  exact congrArg (fun i : PacketInfo => { i with customPointer := parsed.customPointer })
    (carried_congr hfields header)

/-- What was received is what the packet carries. -/
theorem recovers_seen (h : Seen receiver s info) :
    Recovers info (header s) (infoOf receiver s) :=
  recovers_congr (recovers_self receiver s) h.fields.symm (fun hmac => (h.rxMac hmac).symm)
    fun hmac => (h.txMac hmac).symm

theorem header_seen (h : Seen receiver s info) : info.header = header s := by
  have hheader := congrArg PacketInfo.header h.fields
  exact hheader

theorem recipient_seen (h : Seen receiver s info) : info.rx.id = byte s 0 := by
  have hrecipient := congrArg (fun info : PacketInfo => info.rx.id) h.fields
  exact hrecipient

theorem id_seen (h : Seen receiver s info) : info.id = (infoOf receiver s).id := by
  have hid := congrArg PacketInfo.id h.fields
  exact hid

theorem port_seen (h : Seen receiver s info) : info.port = (infoOf receiver s).port := by
  have hport := congrArg PacketInfo.port h.fields
  exact hport

theorem resent_seen (h : Seen receiver s info) (hops : UInt8) :
    Resent receiver s { info with hops := hops } := by
  have hheader := header_seen h
  have hrecipient := recipient_seen h
  have hid := id_seen h
  have hport := port_seen h
  exact ⟨hheader, hrecipient, hid, hport⟩

end Seen

section Resent

variable {receiver : Bus b} {s : List UInt8} {info : PacketInfo}

theorem passedOn_resent (h : Resent receiver s info) : PassedOn b s info :=
  ⟨Or.inl h.header, h.recipient, h.port⟩

/-- Nothing is left for `compose_packet` to fill in. -/
theorem completeInfo_resent (hadm : Admissible receiver s) (h : Resent receiver s info)
    (hexplicit : Explicit receiver s) (sender : Bus b) (htx : sender.tx = info.tx) :
    sender.completeInfo info = info := by
  have hheader := effectiveHeader_passedOn hadm (passedOn_resent h) sender
  have hgenerates : sender.generatesId info = false := by
    rw [Bus.generatesId, hheader, h.header]
    cases hbit : has (header s) packetIdBit
    · simp
    · have hne : (info.id == 0) = false := by
        rw [h.id]
        simpa using hexplicit.id hbit
      simp [hne]
  have hport : (b.includePort && sender.port != noPort && info.port == noPort &&
      has info.header portBit) = false := by
    rw [h.header]
    cases hbit : has (header s) portBit
    · simp
    · have hne : (info.port == noPort) = false := by
        rw [h.port]
        simpa using hexplicit.port hbit
      simp [hne]
  rw [Bus.completeInfo]
  simp only [hheader, hgenerates, hport, htx]
  simp

end Resent

section HandedOver

variable {bus : Bus b} {s : List UInt8} {st : LoopState}

/-- The MAC addresses of a packet that has them are in front of its payload. -/
theorem macs_settled (bus : Bus b) (hadm : Admissible bus s) (h : Settled s st)
    (hmac : has (header s) macBit = true) :
    (bus.parse st.data).rx.mac = (infoOf bus s).rx.mac ∧
      (bus.parse st.data).tx.mac = (infoOf bus s).tx.mac := by
  have hok : Filter.LengthOk b s := ⟨hadm.overhead, hadm.maxLength, hadm.longCrc⟩
  have hheader : st.data 1 = byte s 1 := settled_header (five_le_of_lengthOk hok) h
  have hover := hok.overhead
  have hend := Deliver.macFields_le b (header s)
  rw [if_pos hmac] at hend
  have hread (start : Nat) (hstart : start + 6 ≤ encodedLength s) :
      st.data.vector start 6 = Memory.vector (byte s) start 6 :=
    vector_congr fun k hk => h.data _ (by omega)
  have hbit : byte s 1 = header s := rfl
  simp only [Bus.parse, infoOf, parseHeader, parseRx, parseTx, hheader, hbit]
  rw [hread _ (by omega), hread _ (by omega)]
  exact ⟨rfl, rfl⟩

/-- What the receiver function is called with. -/
theorem seen_of_receiver {bus : Bus b} {delivery : Delivery} (hmin : 4 ≤ b.packetMaxLength)
    (hmax : b.packetMaxLength < 65536) {payload : List UInt8} {info : PacketInfo}
    (h : .receiver payload info ∈ (bus.receive delivery).events) :
    Delivered bus delivery.bytes ∧ payload = payloadOf delivery.bytes ∧
      Seen bus delivery.bytes info ∧ (bus.receive delivery).bus.lastPacketInfo = info := by
  have hdelivered := (Deliver.receive_delivers_iff bus delivery hmin hmax).1.mp ⟨payload, info, h⟩
  have hadm := hdelivered.toAdmissible
  have hok : Filter.LengthOk b delivery.bytes := ⟨hadm.overhead, hadm.maxLength, hadm.longCrc⟩
  obtain ⟨st, hsettled, hrun⟩ := receive_of_admissible bus delivery hmin hmax hadm
  have hcaused : Deliver.Caused bus delivery.bytes (bus.parse st.data) (bus.deliver st) :=
    Deliver.deliver_caused hok hadm.packetId hsettled
  have hlast : (bus.receive delivery).bus.lastPacketInfo = bus.parse st.data := by
    rw [hrun, hcaused.bus_eq]
  rw [hrun, hcaused.events] at h
  have hcall : payload = payloadOf delivery.bytes ∧ info = bus.parse st.data := by
    rcases List.mem_append.mp h with hresponse | hcall
    · split_ifs at hresponse <;> simp at hresponse
    · split_ifs at hcall <;> simp_all
  obtain ⟨rfl, rfl⟩ := hcall
  exact ⟨hdelivered, rfl, ⟨Deliver.parse_settled bus hok hsettled,
    fun hmac => (macs_settled bus hadm hsettled hmac).1,
    fun hmac => (macs_settled bus hadm hsettled hmac).2⟩, hlast⟩

end HandedOver

/-! ## The measurement -/

section Measure

variable {receiver : Bus b} {s : List UInt8} {info : PacketInfo} {source : Payload}
  (hadm : Admissible receiver s) (hexplicit : Explicit receiver s)
  (hpayload : source.bytes = payloadOf s)

include hadm hexplicit hpayload

/-- Nothing is added to the header, and nothing taken back. -/
theorem startHeader_resent (h : Resent receiver s info) :
    startHeader b info source.length = header s := by
  have hlength := length_payload hadm hpayload
  have hext : (if 255 < source.length then header s ||| extLenBit else header s) = header s := by
    split_ifs with hlong
    · apply or_of_has (Or.inl rfl)
      by_contra hset
      have hshort := encodedLength_lt_of_short (by simpa using hset)
      omega
    · rfl
  have hbit : portHeader b info.port (header s) = header s := by
    rw [portHeader]
    cases hset : has (header s) portBit
    · have hnone : info.port = noPort := port_passedOn (passedOn_resent h) hset
      simp [hnone, hset]
    · have hne : info.port ≠ noPort := by
        rw [h.port]
        exact hexplicit.port hset
      simp [hne, or_of_has (Or.inr rfl) hset]
  rw [startHeader]
  simp only [h.header, h.recipient, hext, hbit]
  split_ifs with hbroadcast
  · exact clear_of_not_has (hadm.broadcastAck (beq_iff_eq.mp hbroadcast))
  · rfl

theorem measure_resent (h : Resent receiver s info) :
    measure b info source.length = sizingOf s := by
  have hmeasure := measure_passedOn hadm (passedOn_resent h) hpayload { tx := info.tx }
  rw [completeInfo_resent hadm h hexplicit _ rfl, startHeader_resent hadm hexplicit hpayload h,
    length_payload hadm hpayload] at hmeasure
  exact hmeasure

/-- The packet up to its end CRC is what the composer writes. -/
theorem take_body_seen (h : Seen receiver s info) (hshared : b.pjonLocal = false) :
    s.take (encodedLength s - crcOverhead (header s)) =
      metaData b info (sizingOf s) ++ source.bytes := by
  have hsup : b.Supports (sizingOf s).header :=
    ⟨hadm.packetId, hadm.port, hadm.mac, fun _ => hshared⟩
  have hport : has (header s) portBit → info.port ≠ noPort := by
    rw [port_seen h]
    exact hexplicit.port
  have hparse : Recovers info (header s) (parseHeader b (byte s)) :=
    recovers_customPointer 0 (recovers_seen h)
  have hmeta := write_metaData hsup rfl hparse rfl hport
    (holds_front hadm (recipient_seen h))
  have hlength := length_metaData b info hsup rfl fun _ => hport
  have hcrc := hadm.overhead
  have hsource := length_payload hadm hpayload
  have hcomplete := hadm.complete
  have hbytes : source.bytes.length = encodedLength s - packetOverhead (header s) := by
    rw [← hsource, Nat.add_sub_cancel]
    rfl
  have hstart : (metaData b info (sizingOf s)).length =
      packetOverhead (header s) - crcOverhead (header s) := by
    have hheader : (sizingOf s).header = header s := rfl
    rw [hheader] at hlength
    omega
  have hholds : Memory.Holds (byte s) 0 (metaData b info (sizingOf s) ++ source.bytes) := by
    have hloaded : Memory.Holds (byte s) (packetOverhead (header s) - crcOverhead (header s))
        source.bytes := by
      rw [Memory.Holds, hbytes, hpayload]
      rfl
    rw [Memory.holds_append, Nat.zero_add, hstart]
    exact ⟨hmeta, hloaded⟩
  have hover : crcOverhead (header s) ≤ packetOverhead (header s) := by
    have hheader : (sizingOf s).header = header s := rfl
    rw [hheader] at hlength
    omega
  have hbody : (metaData b info (sizingOf s) ++ source.bytes).length =
      encodedLength s - crcOverhead (header s) := by
    rw [List.length_append, hstart, hbytes]
    omega
  rw [Memory.Holds, hbody] at hholds
  rw [← hholds]
  exact (load_eq_take (by omega) fun _ _ => rfl).symm

end Measure

/-! ## Another hop count -/

/-- The packet `s` with another hop count, if it has one, and its end CRC computed anew. -/
def withHops (s : List UInt8) (hops : UInt8) : List UInt8 :=
  let body := s.take (encodedLength s - crcOverhead (header s))
  let body := if has (header s) modeBit then body.set (hopsIndex (header s)) hops else body
  body ++ closingCrc (header s) body

/-- The hop count is the last of the fields that shared packets add. -/
theorem metaData_hops (info : PacketInfo) (sizing : Sizing) (hshared : b.pjonLocal = false)
    (hext : sizing.extendedLength = has sizing.header extLenBit) (hops : UInt8) :
    metaData b { info with hops := hops } sizing =
        (if has sizing.header modeBit then
          (metaData b info sizing).set (hopsIndex sizing.header) hops
        else metaData b info sizing) ∧
      (has sizing.header modeBit → hopsIndex sizing.header < (metaData b info sizing).length) := by
  have hlength := length_frontFields info sizing hext
  cases hmode : has sizing.header modeBit
  · refine ⟨?_, fun hset => Bool.noConfusion hset⟩
    simp only [metaData, busFields, hmode, Bool.and_false, Bool.false_eq_true, if_false]
    rfl
  · have hbit : (!b.pjonLocal && true) = true := by
      rw [hshared]
      rfl
    have hindex : hopsIndex sizing.header = (frontFields info sizing ++ (info.rx.busId.toList ++
        if has sizing.header txInfoBit then info.tx.busId.toList else [])).length := by
      rw [List.length_append, hlength, hopsIndex, txBusIndex]
      split_ifs <;> simp
    have hsplit (hops : UInt8) : metaData b { info with hops := hops } sizing =
        (frontFields info sizing ++ (info.rx.busId.toList ++
          if has sizing.header txInfoBit then info.tx.busId.toList else [])) ++
          hops :: (txField info sizing.header ++ (idField b info sizing.header ++
            (portField b info sizing.header ++ macFields b info sizing.header))) := by
      simp only [metaData, busFields, hmode, hbit, if_true, List.append_assoc]
      rfl
    have hown := hsplit info.hops
    constructor
    · rw [if_pos rfl, hsplit, hown, hindex, List.set_append_right _ _ le_rfl, Nat.sub_self,
        List.set_cons_zero]
    · intro _
      rw [hown, hindex]
      simp only [List.length_append, List.length_cons]
      omega

section Composed

variable {receiver : Bus b} {s : List UInt8} {info : PacketInfo} {source : Payload}
  (hadm : Admissible receiver s) (hexplicit : Explicit receiver s)
  (hpayload : source.bytes = payloadOf s) (hshared : b.pjonLocal = false)
  (h : Resent receiver s info)

include hadm hexplicit hpayload hshared h

theorem sendable_resent : Sendable b info source := by
  have hsendable := sendable_passedOn hadm (passedOn_resent h) hpayload { tx := info.tx } hshared
  rwa [completeInfo_resent hadm h hexplicit _ rfl] at hsendable

omit hshared in
theorem written_resent : written b info source = header s := by
  rw [written, measure_resent hadm hexplicit hpayload h]
  rfl

/-- What was received is sent on with the addresses and the hop count of the info. -/
theorem recovers_resent (bus : Bus b) :
    header (bytesOf b info source) = header s ∧
      encodedLength (bytesOf b info source) = encodedLength s ∧
      payloadOf (bytesOf b info source) = payloadOf s ∧
      Recovers info (header s) (infoOf bus (bytesOf b info source)) := by
  have hsendable := sendable_resent hadm hexplicit hpayload hshared h
  have hwritten := written_resent hadm hexplicit hpayload h
  have hrecovers := recovers_infoOf bus hsendable
  have hheader := header_bytesOf hsendable
  have hlength := encodedLength_bytesOf hsendable
  have hpayloadOf := payloadOf_bytesOf hsendable
  rw [hwritten] at hrecovers hheader hlength
  rw [length_payload hadm hpayload] at hlength
  exact ⟨hheader, hlength, hpayloadOf.trans hpayload, hrecovers⟩

end Composed

section Bytes

variable {receiver : Bus b} {s : List UInt8} {info : PacketInfo} {source : Payload}
  (hadm : Admissible receiver s) (h : Seen receiver s info) (hexplicit : Explicit receiver s)
  (hpayload : source.bytes = payloadOf s) (hshared : b.pjonLocal = false)

include hadm h hexplicit hpayload hshared

/-- The packet that is composed of what was received is the one received. -/
theorem bytesOf_seen (hops : UInt8) :
    bytesOf b { info with hops := hops } source = withHops s hops := by
  obtain ⟨hmeta, hindex⟩ := metaData_hops info (sizingOf s) hshared rfl hops
  have hbody := take_body_seen hadm hexplicit hpayload h hshared
  have hheader : (sizingOf s).header = header s := rfl
  rw [hheader] at hmeta hindex
  rw [bytesOf, measure_resent hadm hexplicit hpayload (resent_seen h hops),
    packetBytes, hmeta, hheader, withHops, hbody]
  cases hmode : has (header s) modeBit
  · simp
  · simp only [if_true]
    rw [List.set_append_left _ _ (hindex hmode)]

end Bytes

end Pjon.Proofs.Canonical
