import Pjon.Proofs.Arrivals
import Pjon.Proofs.Canonical
/-!
# Address translation

A local bus that is attached with a bus id is reached under that id from other buses.  The
switch puts the id in the place of 0.0.0.0 where a packet leaves the local bus, and takes
it out again where one comes in.
-/

namespace Pjon.Proofs.Translation

open Pjon.Lib Pjon.Model Pjon.Spec Pjon.Proofs.Forward Pjon.Proofs.Switch
open Pjon.Proofs.Interop Pjon.Proofs.Recompose Pjon.Proofs.Canonical Pjon.Proofs.HandOn
open Pjon.Proofs.Arrivals Pjon.Proofs.Destinations Pjon.Proofs.Duplicates

variable {r : RouterBuild} {n : Nat}

/-! ## A packet for one bus -/

section Queued

variable {x : Switch r n} {currentBus i : Fin n} {delivery : Delivery}

theorem resent_hopped_translate {receiver : Bus r.toBuild} {s : List UInt8} {info : PacketInfo}
    (h : Seen receiver s info) (x : Switch r n) (i j : Fin n) :
    Resent receiver s (hopped (x.translate i j info)) := by
  have hheader := header_seen h
  have hid := id_seen h
  have hport := port_seen h
  refine ⟨hheader, ?_, hid, hport⟩
  rw [← recipient_seen h, hopped, Switch.translate]
  simp only
  split_ifs <;> rfl

/-- A packet that comes in is queued once on a bus that has its bus id. -/
theorem queued_receive (hconnected : Connected x) (hgateway : x.defaultGateway = none)
    (hdelivered : Delivered (x.bus currentBus) delivery.bytes)
    (hexplicit : Explicit (x.bus currentBus) delivery.bytes)
    (hhops : (infoOf (x.bus currentBus) delivery.bytes).hops < r.maxHops) (hi : i ≠ currentBus)
    (htarget : x.busId i = targetOf (infoOf (x.bus currentBus) delivery.bytes))
    (hroom : HasRoom (x.bus i)) (surroundings : Nat → Surroundings) :
    ∃ info, Seen (x.bus currentBus) delivery.bytes info ∧
      queued (x.bus i) ((x.receive currentBus delivery surroundings).state.bus i) =
        [bytesOf r.toBuild (hopped (x.translate i currentBus info)) (delivered hdelivered)] := by
  obtain ⟨info, hinfo, hcalled, hreceive⟩ := receive_eq hconnected hdelivered surroundings
  obtain ⟨-, -, hseen, -⟩ := seen_of_receiver r.packetMaxLength_ge r.packetMaxLength_lt hcalled
  have hadm := hdelivered.toAdmissible
  have hsame := SameBuses.receive x currentBus delivery
  have hwithin : WithinHops r.maxHops info := by
    rw [← withinHops_withoutMacs, hinfo]
    exact withinHops_of_lt hhops
  have htargetOf : x.busId i = targetOf info := by
    rw [htarget, ← targetOf_withoutMacs info, hinfo, targetOf_withoutMacs]
  have hresent := resent_hopped_translate hseen x i currentBus
  have hsend (sender : Bus r.toBuild) :=
    sendable_passedOn hadm (passedOn_resent hresent) (bytes_delivered hdelivered) sender
      r.shared
  refine ⟨info, hseen, ?_⟩
  obtain ⟨-, hone⟩ := bus_search (sendsBy_switch (x.setBus currentBus
    ((x.bus currentBus).receive delivery).bus) currentBus (delivered hdelivered) info surroundings
    hwithin) (SameBuses.refl _) (fun s hs => funext fun start => hs.find (targetOf info) start) i
  have hcount : (reached (x.setBus currentBus ((x.bus currentBus).receive delivery).bus)
      (targetOf info)).count i = 1 := by
    rw [hsame.reached, count_reached_of_no_gateway x hgateway, if_pos htargetOf]
  obtain ⟨turn, hbus⟩ := hone hcount hi
  simp only [id_eq, hsame.translate, Switch.bus_setBus_ne x _ hi.symm] at hbus
  have hafter : (x.receive currentBus delivery surroundings).state.bus i =
      (Switch.handOn (x.bus i) (x.translate i currentBus info) (delivered hdelivered)
        (surroundings turn)).bus := by
    rw [hreceive]
    exact hbus
  rw [hafter, queued_handOn hsend hroom hwithin]
  have hcomplete := completeInfo_resent hadm hresent hexplicit
    { x.bus i with tx := (x.translate i currentBus info).tx } rfl
  rw [hcomplete]

end Queued

/-! ## Both directions -/

/-- A switch between a local bus that has a bus id of its own and a shared bus. -/
structure Translates (x : Switch r n) (localBus sharedBus : Fin n) : Prop where
  connected : Connected x
  localConfig : has (x.bus localBus).config modeBit = false
  publicId : x.busId localBus ≠ localhost
  sharedConfig : has (x.bus sharedBus).config modeBit = true
  distinct : Function.Injective x.busId
  noGateway : x.defaultGateway = none
  roomLocal : HasRoom (x.bus localBus)
  roomShared : HasRoom (x.bus sharedBus)

/-- A shared packet for this bus id comes in on `currentBus`, with hops to spare. -/
structure Arrives (x : Switch r n) (currentBus : Fin n) (s : List UInt8)
    (recipient : Vector UInt8 4) : Prop where
  delivered : Delivered (x.bus currentBus) s
  explicit : Explicit (x.bus currentBus) s
  shared : has (header s) modeBit
  hops : (infoOf (x.bus currentBus) s).hops < r.maxHops
  recipient : (infoOf (x.bus currentBus) s).rx.busId = recipient

/-- An info one hop later, with its sender under a public bus id. -/
def outboundInfo (publicId : Vector UInt8 4) (info : PacketInfo) : PacketInfo :=
  { info with
    tx := { info.tx with busId := publicId }
    hops := info.hops + 1 }

/-- An info one hop later, with its recipient on a local bus. -/
def inboundInfo (info : PacketInfo) : PacketInfo :=
  { info with
    rx := { info.rx with busId := localhost }
    hops := info.hops + 1 }

/-- `frame` is the packet `s`, with another info. -/
structure Rewritten (b : Build) (s frame : List UInt8) (info : PacketInfo) : Prop where
  header : header frame = header s
  payload : payloadOf frame = payloadOf s
  info : ∀ {b' : Build} (bus : Bus b'), SameFormat b b' →
    Recovers info (Spec.header s) (infoOf bus frame)

section Directions

variable {x : Switch r n} {localBus sharedBus : Fin n} (h : Translates x localBus sharedBus)

theorem rewritten_bytesOf {b : Build} {receiver : Bus b} {s : List UInt8} {info : PacketInfo}
    {source : Payload} (hadm : Admissible receiver s) (hexplicit : Explicit receiver s)
    (hpayload : source.bytes = payloadOf s) (hshared : b.pjonLocal = false)
    (h : Resent receiver s info) : Rewritten b s (bytesOf b info source) info := by
  obtain ⟨hheader, -, hpayloadOf, -⟩ :=
    recovers_resent hadm hexplicit hpayload hshared h receiver
  refine ⟨hheader, hpayloadOf, fun bus hformat => ?_⟩
  have hsendable := sendable_sameFormat hformat (sendable_resent hadm hexplicit hpayload hshared h)
  have hwritten := written_resent hadm hexplicit hpayload h
  rw [written_sameFormat hformat] at hwritten
  have hrecovers := recovers_infoOf bus hsendable
  rwa [hwritten, ← bytesOf_sameFormat hformat] at hrecovers

theorem rewritten_congr {b : Build} {s frame : List UInt8} {info info' : PacketInfo}
    (h : Rewritten b s frame info) (hfields : withoutMacs info = withoutMacs info')
    (hrx : has (header s) macBit → info.rx.mac = info'.rx.mac)
    (htx : has (header s) macBit → info.tx.mac = info'.tx.mac) : Rewritten b s frame info' :=
  ⟨h.header, h.payload, fun bus hformat => recovers_congr (h.info bus hformat) hfields hrx htx⟩

include h

theorem ne_of_translates : sharedBus ≠ localBus := by
  rintro rfl
  have hconfig := h.localConfig.symm.trans h.sharedConfig
  exact Bool.noConfusion hconfig

theorem isNat_local : x.isNat localBus = true := by
  have hid := h.publicId
  rw [Switch.isNat, h.localConfig]
  simpa using hid

theorem isNat_shared : x.isNat sharedBus = false := by
  rw [Switch.isNat, h.sharedConfig]
  rfl

/-- What leaves the local bus has its public id as the sender's. -/
theorem translate_outbound {info : PacketInfo} (hmode : has info.header modeBit = true)
    (hsender : info.tx.busId = localhost) :
    x.translate sharedBus localBus info =
      { info with tx := { info.tx with busId := x.busId localBus } } := by
  rw [Switch.translate, isNat_local h, isNat_shared h, hmode, hsender]
  simp

/-- What comes in for the public id is for 0.0.0.0 on the local bus. -/
theorem translate_inbound {info : PacketInfo} (hmode : has info.header modeBit = true)
    (hrecipient : info.rx.busId = x.busId localBus) :
    x.translate localBus sharedBus info =
      { info with rx := { info.rx with busId := localhost } } := by
  rw [Switch.translate, isNat_local h, isNat_shared h, hmode, hrecipient]
  simp

/-- A shared packet from 0.0.0.0 on the local bus is queued on the shared bus. -/
theorem outbound {delivery : Delivery}
    (harrives : Arrives x localBus delivery.bytes (x.busId sharedBus))
    (hsender : (infoOf (x.bus localBus) delivery.bytes).tx.busId = localhost)
    (surroundings : Nat → Surroundings) :
    ∃ frame, queued (x.bus sharedBus)
        ((x.receive localBus delivery surroundings).state.bus sharedBus) = [frame] ∧
      Rewritten r.toBuild delivery.bytes frame
        (outboundInfo (x.busId localBus) (infoOf (x.bus localBus) delivery.bytes)) := by
  obtain ⟨hdelivered, hexplicit, hmode, hhops, hrecipient⟩ := harrives
  have hadm := hdelivered.toAdmissible
  have htarget : x.busId sharedBus = targetOf (infoOf (x.bus localBus) delivery.bytes) := by
    rw [← hrecipient]
    exact (if_pos hmode).symm
  obtain ⟨info, hseen, hqueued⟩ := queued_receive h.connected h.noGateway hdelivered hexplicit hhops
    (ne_of_translates h) htarget h.roomShared surroundings
  have hresent := resent_hopped_translate hseen x sharedBus localBus
  have hmode' : has info.header modeBit = true := by rwa [header_seen hseen]
  have hsender' : info.tx.busId = localhost := by
    have hfield := congrArg (fun info : PacketInfo => info.tx.busId) hseen.fields
    exact hfield.trans hsender
  have hrewritten := rewritten_bytesOf hadm hexplicit (bytes_delivered hdelivered) r.shared
    hresent
  rw [translate_outbound h hmode' hsender'] at hqueued hrewritten
  refine ⟨_, hqueued, rewritten_congr hrewritten ?_ hseen.rxMac hseen.txMac⟩
  exact congrArg (outboundInfo (x.busId localBus)) hseen.fields

/-- A shared packet for the public id is queued on the local bus, where its recipient
accepts it. -/
theorem inbound {delivery : Delivery}
    (harrives : Arrives x sharedBus delivery.bytes (x.busId localBus))
    (surroundings : Nat → Surroundings) :
    ∃ frame, queued (x.bus localBus)
        ((x.receive sharedBus delivery surroundings).state.bus localBus) = [frame] ∧
      Rewritten r.toBuild delivery.bytes frame
        (inboundInfo (infoOf (x.bus sharedBus) delivery.bytes)) ∧
      ∀ {b : Build} (device : Bus b), SameFormat r.toBuild b → has device.config modeBit = false →
        ((infoOf (x.bus sharedBus) delivery.bytes).rx.id = device.tx.id ∨
          (infoOf (x.bus sharedBus) delivery.bytes).rx.id = broadcast) →
        (has (header delivery.bytes) macBit →
          (infoOf (x.bus sharedBus) delivery.bytes).rx.mac = device.tx.mac ∨
            (infoOf (x.bus sharedBus) delivery.bytes).rx.mac = noMac) →
        Admissible device frame := by
  obtain ⟨hdelivered, hexplicit, hmode, hhops, hrecipient⟩ := harrives
  have hadm := hdelivered.toAdmissible
  have htarget : x.busId localBus = targetOf (infoOf (x.bus sharedBus) delivery.bytes) := by
    rw [← hrecipient]
    exact (if_pos hmode).symm
  obtain ⟨info, hseen, hqueued⟩ := queued_receive h.connected h.noGateway hdelivered hexplicit hhops
    (ne_of_translates h).symm htarget h.roomLocal surroundings
  have hresent := resent_hopped_translate hseen x localBus sharedBus
  have hmode' : has info.header modeBit = true := by rwa [header_seen hseen]
  have hrecipient' : info.rx.busId = x.busId localBus := by
    have hfield := congrArg (fun info : PacketInfo => info.rx.busId) hseen.fields
    exact hfield.trans hrecipient
  have hrewritten := rewritten_bytesOf hadm hexplicit (bytes_delivered hdelivered) r.shared
    hresent
  have hsendable := sendable_resent hadm hexplicit (bytes_delivered hdelivered) r.shared
    hresent
  have hwritten := written_resent hadm hexplicit (bytes_delivered hdelivered) hresent
  rw [translate_inbound h hmode' hrecipient'] at hqueued hrewritten hsendable hwritten
  refine ⟨_, hqueued, rewritten_congr hrewritten ?_ hseen.rxMac hseen.txMac, ?_⟩
  · exact congrArg inboundInfo hseen.fields
  · intro b device hformat hconfig hid hmac
    have haddressed : Addressed device (inboundInfo info) (header delivery.bytes) := by
      refine ⟨?_, fun hlocal => ?_, fun _ => ?_, fun hbit => ?_⟩
      · have hrx : info.rx.id = (infoOf (x.bus sharedBus) delivery.bytes).rx.id :=
          recipient_seen hseen
        rw [← hrx] at hid
        exact hid
      · rw [hmode] at hlocal
        cases hlocal
      · rw [if_neg (by rw [hconfig]; exact Bool.false_ne_true)]
        rfl
      · have hrxMac := hseen.rxMac hbit
        rcases hmac hbit with hown | hnone
        · exact Or.inl (hrxMac.trans hown)
        · exact Or.inr (hrxMac.trans hnone)
    rw [bytesOf_sameFormat hformat]
    rw [← hwritten, written_sameFormat hformat] at haddressed
    exact admissible_bytesOf device (sendable_sameFormat hformat hsendable) haddressed

end Directions

/-! ## Replies -/

/-- Device `e` has the packet `frame` handed over, and a reply to it with this payload, which
makes a packet that others have room for, is in its send buffer. -/
def RepliesTo {b : Build} (e : Bus b) (frame : List UInt8) (payload : Payload)
    (reply : List UInt8) : Prop :=
  ∃ (arrival : Delivery) (request : List UInt8) (info : PacketInfo) (now : UInt32),
    arrival.bytes = frame ∧ .receiver request info ∈ (e.receive arrival).events ∧
    Sendable b ((e.receive arrival).bus.completeInfo (e.receive arrival).bus.replyInfo) payload ∧
    reply ∈ queued (e.receive arrival).bus ((e.receive arrival).bus.reply payload now).bus

section Replies

variable {b : Build}

/-- The info that a reply is composed with goes back to the sender of the packet. -/
theorem reply_eq {e : Bus b} {frame reply : List UInt8} {payload : Payload}
    (hformat : SameFormat r.toBuild b) (h : RepliesTo e frame payload reply) :
    ∃ info request, Seen e frame info ∧ request.header = e.config ∧ request.rx = info.tx ∧
      request.hops = 0 ∧ (has e.config packetIdBit → b.includePacketId → request.id ≠ 0) ∧
      Sendable b request payload ∧ reply = bytesOf b request payload := by
  obtain ⟨arrival, content, info, now, rfl, hcalled, hsendable, hreply⟩ := h
  have hmin := hformat.packetMaxLength ▸ r.packetMaxLength_ge
  have hmax := hformat.packetMaxLength ▸ r.packetMaxLength_lt
  have hshared : b.pjonLocal = false := hformat.pjonLocal ▸ r.shared
  obtain ⟨-, -, hseen, hlast⟩ := seen_of_receiver hmin hmax hcalled
  have hsettings := sameSettings_receive e arrival
  generalize (e.receive arrival).bus = sender at hsendable hreply hlast hsettings
  have hheader : (sender.completeInfo sender.replyInfo).header = e.config := by
    rw [← hsettings.config, Bus.completeInfo, Bus.effectiveHeader]
    split_ifs <;> rfl
  refine ⟨info, sender.completeInfo sender.replyInfo, hseen, hheader, ?_, ?_, ?_, hsendable, ?_⟩
  · rw [← hlast]
    rfl
  · have hhops : (sender.completeInfo sender.replyInfo).hops =
        if b.pjonLocal then sender.lastPacketInfo.hops else 0 := rfl
    rw [hhops, hshared]
    rfl
  · intro hbit hincluded
    have hid : (sender.completeInfo sender.replyInfo).id =
        if sender.generatesId sender.replyInfo then Tools.newPacketId sender.packetIdSeed
        else sender.replyInfo.id := rfl
    have heffective : sender.effectiveHeader sender.replyInfo = e.config := hheader
    rw [hid, Bus.generatesId, heffective, hbit, hincluded]
    split_ifs with hzero
    · exact PacketIds.newPacketId_ne_zero _
    · simpa using hzero
  · obtain ⟨k, hfree, -, -⟩ := mem_queued.mp hreply
    obtain ⟨j, hfind⟩ := exists_findSlot ⟨k, hfree⟩
    rw [Bus.reply, queued_dispatch _ _ _ _ hfind (composes_of_sendable hsendable _),
      List.mem_singleton] at hreply
    exact hreply.trans (load_composePacket _ _ _ hsendable)

/-- What is composed with an id is not composed with the one that stands for none. -/
theorem explicit_bytesOf {receiver : Bus b} {info : PacketInfo} {payload : Payload}
    (hsendable : Sendable b info payload) (hadm : Admissible receiver (bytesOf b info payload))
    (hid : has info.header packetIdBit → info.id ≠ 0) :
    Explicit receiver (bytesOf b info payload) := by
  have hrecovers := (recovers_infoOf receiver hsendable).fields
  have hheader := header_bytesOf hsendable
  constructor
  · intro hbit
    rw [hheader] at hbit
    have hfield := congrArg PacketInfo.id hrecovers
    simp only [withoutMacs, carried, hbit, if_true] at hfield
    rw [hfield]
    exact hid (by rwa [written, Layout.has_measure_packetId] at hbit)
  · intro hbit
    have hincluded := hadm.port hbit
    rw [hheader] at hbit
    have hfield := congrArg PacketInfo.port hrecovers
    simp only [withoutMacs, carried, hbit, if_true] at hfield
    rw [hfield]
    exact Layout.port_of_has_port b info payload.length hincluded hbit

/-- A reply that comes back to the switch for the sender of the request, whom it reaches. -/
theorem reply_arrives {x : Switch r n} {sharedBus : Fin n} {e : Bus b} {frame reply : List UInt8}
    {payload : Payload} {info : PacketInfo} {publicId : Vector UInt8 4}
    (hformat : SameFormat r.toBuild b) (hconfig : has e.config modeBit = true)
    (hreply : RepliesTo e frame payload reply)
    (hinfo : Recovers info (header frame) (infoOf e frame))
    (hmode : has (header frame) modeBit = true) (htxInfo : has (header frame) txInfoBit = true)
    (hpublic : info.tx.busId = publicId) (hmax : 0 < r.maxHops)
    (hdelivered : Delivered (x.bus sharedBus) reply) :
    Arrives x sharedBus reply publicId ∧ payloadOf reply = payload.bytes ∧
      (infoOf (x.bus sharedBus) reply).rx.id = info.tx.id ∧
      (has (header reply) macBit → has e.config macBit ∧ (has (header frame) macBit →
        (infoOf (x.bus sharedBus) reply).rx.mac = info.tx.mac)) := by
  obtain ⟨seen, request, hseen, hheader, hrx, hnoHops, hid, hsendable, rfl⟩ :=
    reply_eq hformat hreply
  have hsendable' := sendable_sameFormat (sameFormat_symm hformat) hsendable
  have hwritten := written_sameFormat (sameFormat_symm hformat) request payload
  rw [bytesOf_sameFormat (sameFormat_symm hformat)] at hdelivered ⊢
  have hparsed := recovers_infoOf (x.bus sharedBus) hsendable'
  have hheaderOf := header_bytesOf hsendable'
  have hshared : has (written r.toBuild request payload) modeBit = true := by
    rw [written, Layout.has_measure_mode, hheader, hconfig]
  -- the reply is for the sender of what was seen
  have hseenBus : seen.tx.busId = publicId := by
    have hfield := congrArg (fun info : PacketInfo => info.tx.busId) hseen.fields
    have hcarried := congrArg (fun info : PacketInfo => info.tx.busId) hinfo.fields
    simp only [withoutMacs, carried, hmode, htxInfo, Bool.and_self, if_true] at hcarried
    exact hfield.trans (hcarried.trans hpublic)
  have hseenId : seen.tx.id = info.tx.id := by
    have hfield := congrArg (fun info : PacketInfo => info.tx.id) hseen.fields
    have hcarried := congrArg (fun info : PacketInfo => info.tx.id) hinfo.fields
    simp only [withoutMacs, carried, htxInfo, if_true] at hcarried
    exact hfield.trans hcarried
  have hexplicit := explicit_bytesOf hsendable' hdelivered.toAdmissible fun hbit => by
    rw [hheader] at hbit
    have hincluded : b.includePacketId = true := by
      rw [← hformat.includePacketId]
      exact hsendable'.supports.1 (hheader ▸ hbit)
    exact hid hbit hincluded
  refine ⟨⟨hdelivered, hexplicit, ?_, ?_, ?_⟩, payloadOf_bytesOf hsendable', ?_, fun hmac => ?_⟩
  · rw [hheaderOf, hshared]
  · have hfield := congrArg PacketInfo.hops hparsed.fields
    simp only [withoutMacs, carried, hshared, if_true, hnoHops] at hfield
    rw [hfield]
    exact hmax
  · have hfield := congrArg (fun info : PacketInfo => info.rx.busId) hparsed.fields
    simp only [withoutMacs, carried, hshared, if_true, hrx] at hfield
    rw [hfield, hseenBus]
  · have hfield := congrArg (fun info : PacketInfo => info.rx.id) hparsed.fields
    simp only [withoutMacs, carried, hrx] at hfield
    rw [hfield, hseenId]
  · rw [hheaderOf] at hmac
    have hbit : has e.config macBit = true := by
      rwa [written, Layout.has_measure_mac, hheader] at hmac
    refine ⟨hbit, fun hframe => ?_⟩
    rw [hparsed.rxMac hmac, hrx, hseen.txMac hframe, hinfo.txMac hframe]

end Replies

/-- Between a local bus with a public bus id and a shared bus, packets are passed on in both
directions with the one address translated that has to be, and the recipient on the local
bus accepts them; so the reply to a packet from there finds its way back. -/
theorem translation_round_trip {x : Switch r n} {localBus sharedBus : Fin n}
    (h : Translates x localBus sharedBus) :
    (∀ (delivery : Delivery) (surroundings : Nat → Surroundings),
      Arrives x localBus delivery.bytes (x.busId sharedBus) →
      has (header delivery.bytes) txInfoBit →
      (infoOf (x.bus localBus) delivery.bytes).tx.busId = localhost →
      ∃ frame, queued (x.bus sharedBus)
          ((x.receive localBus delivery surroundings).state.bus sharedBus) = [frame] ∧
        Rewritten r.toBuild delivery.bytes frame
          (outboundInfo (x.busId localBus) (infoOf (x.bus localBus) delivery.bytes)) ∧
        ∀ {b : Build} (e : Bus b) (payload : Payload) (x' : Switch r n) (reply : Delivery)
          (surroundings' : Nat → Surroundings), SameFormat r.toBuild b → has e.config modeBit →
          RepliesTo e frame payload reply.bytes → Translates x' localBus sharedBus →
          x'.busId localBus = x.busId localBus → Delivered (x'.bus sharedBus) reply.bytes →
          ∃ frame', queued (x'.bus localBus)
              ((x'.receive sharedBus reply surroundings').state.bus localBus) = [frame'] ∧
            ∀ {b' : Build} (device : Bus b') (arrival : Delivery), SameFormat r.toBuild b' →
              has device.config modeBit = false →
              (infoOf (x.bus localBus) delivery.bytes).tx.id = device.tx.id →
              (has e.config macBit → has (header delivery.bytes) macBit ∧
                (infoOf (x.bus localBus) delivery.bytes).tx.mac = device.tx.mac) →
              arrival.bytes = frame' →
              Admissible device frame' ∧
                (recorded device frame' = false → portMatches device frame' →
                  ∃ info, .receiver payload.bytes info ∈ (device.receive arrival).events)) ∧
    ∀ (delivery : Delivery) (surroundings : Nat → Surroundings),
      Arrives x sharedBus delivery.bytes (x.busId localBus) →
      ∃ frame, queued (x.bus localBus)
          ((x.receive sharedBus delivery surroundings).state.bus localBus) = [frame] ∧
        Rewritten r.toBuild delivery.bytes frame
          (inboundInfo (infoOf (x.bus sharedBus) delivery.bytes)) ∧
        ∀ {b : Build} (device : Bus b), SameFormat r.toBuild b →
          has device.config modeBit = false →
          ((infoOf (x.bus sharedBus) delivery.bytes).rx.id = device.tx.id ∨
            (infoOf (x.bus sharedBus) delivery.bytes).rx.id = broadcast) →
          (has (header delivery.bytes) macBit →
            (infoOf (x.bus sharedBus) delivery.bytes).rx.mac = device.tx.mac ∨
              (infoOf (x.bus sharedBus) delivery.bytes).rx.mac = noMac) →
          Admissible device frame := by
  refine ⟨?_, fun delivery surroundings harrives => inbound h harrives surroundings⟩
  intro delivery surroundings harrives htxInfo hsender
  obtain ⟨frame, hqueued, hrewritten⟩ := outbound h harrives hsender surroundings
  refine ⟨frame, hqueued, hrewritten, ?_⟩
  intro b e payload x' reply surroundings' hformat hconfig hreply h' hpublic hdelivered
  have hinfo := hrewritten.info e hformat
  have hmode := harrives.shared
  have hmax : 0 < r.maxHops :=
    UInt8.lt_iff_toNat_lt.mpr ((Nat.zero_le _).trans_lt (UInt8.lt_iff_toNat_lt.mp harrives.hops))
  rw [← hrewritten.header] at hinfo hmode htxInfo
  obtain ⟨harrives', hpayload, hid, hmac⟩ := reply_arrives hformat hconfig hreply hinfo hmode
    htxInfo hpublic.symm hmax hdelivered
  obtain ⟨frame', hqueued', hrewritten', haccepts⟩ := inbound h' harrives' surroundings'
  refine ⟨frame', hqueued', ?_⟩
  intro b' device arrival hformat' hlocal hdevice hdeviceMac harrival
  have hadm : Admissible device frame' := by
    refine haccepts device hformat' hlocal (Or.inl (hid.trans hdevice)) fun hbit => Or.inl ?_
    obtain ⟨hbit', hmacOf⟩ := hmac hbit
    obtain ⟨hrequest, hown⟩ := hdeviceMac hbit'
    exact (hmacOf (hrewritten.header ▸ hrequest)).trans hown
  refine ⟨hadm, fun hfresh hport => ?_⟩
  rw [← harrival] at hadm hfresh hport
  obtain ⟨info, hcalled⟩ := Deliver.receiver_of_admissible
    (hformat'.packetMaxLength ▸ r.packetMaxLength_ge)
    (hformat'.packetMaxLength ▸ r.packetMaxLength_lt) hadm hfresh hport
  rw [harrival, hrewritten'.payload, hpayload] at hcalled
  exact ⟨info, hcalled⟩

/-! ## A local and a shared bus -/

/-- A local bus that is attached as 0.0.0.1, and the shared bus 0.0.0.2. -/
def localAndShared : Switch routing 2 :=
  Switch.connect #v[{ config := txInfoBit, tx := { busId := busIdOf 1 } }, sharedBus 2] none
    twoBuses_lt

/-- A shared letter from device 7 of the local bus to device 45 of bus 0.0.0.2. -/
def fromLocal : Delivery :=
  ⟨[45, 35, 19, 96, 0, 0, 0, 2, 0, 0, 0, 0, 0, 7, 65, 63, 61, 84, 214], fun _ => 50⟩

theorem translates_localAndShared : Translates localAndShared 0 1 where
  connected := connected_connect _ none _
  localConfig := by decide
  publicId := by decide
  sharedConfig := by decide
  distinct := by unfold Function.Injective; decide
  noGateway := rfl
  roomLocal := ⟨⟨0, by decide⟩, by decide⟩
  roomShared := ⟨⟨0, by decide⟩, by decide⟩

theorem arrives_fromLocal :
    Arrives localAndShared 0 fromLocal.bytes (localAndShared.busId 1) where
  delivered := by
    have hcalls : calls ((localAndShared.bus 0).receive fromLocal) = true := by decide +kernel
    exact delivered_of_calls hcalls
  explicit := ⟨by decide, by decide⟩
  shared := by decide
  hops := by decide
  recipient := by decide

theorem translation_round_trip_fromLocal :
    ∃ frame, queued (localAndShared.bus 1)
        ((localAndShared.receive 0 fromLocal fun _ => {}).state.bus 1) = [frame] ∧
      Rewritten defaultBuild fromLocal.bytes frame
        (outboundInfo (busIdOf 1) (infoOf (localAndShared.bus 0) fromLocal.bytes)) := by
  obtain ⟨frame, hqueued, hrewritten, -⟩ := (translation_round_trip translates_localAndShared).1
    fromLocal (fun _ => {}) arrives_fromLocal (by decide) (by decide)
  exact ⟨frame, hqueued, hrewritten⟩

/-- A program that includes ports. -/
def portRouting : RouterBuild := { routing with includePort := true }

/-- The local bus takes what is sent to its own port only. -/
def withPort (port : UInt16) : Switch portRouting 2 :=
  Switch.connect #v[{ config := txInfoBit, tx := { busId := busIdOf 1 }, port := port },
    { config := modeBit ||| txInfoBit, tx := { busId := busIdOf 2 } }] none twoBuses_lt

/-- A port keeps the switch from passing on what is not for that port. -/
theorem withPort_keeps_fromLocal :
    Translates (withPort 7) 0 1 ∧ Admissible ((withPort 7).bus 0) fromLocal.bytes ∧
      Explicit ((withPort 7).bus 0) fromLocal.bytes ∧
      has (header fromLocal.bytes) modeBit = true ∧ has (header fromLocal.bytes) txInfoBit = true ∧
      infoOf ((withPort 7).bus 0) fromLocal.bytes =
        { rx := { id := 45, busId := (withPort 7).busId 1 }, tx := { id := 7 }, header := 35 } ∧
      queued ((withPort 7).bus 1) (((withPort 7).receive 0 fromLocal fun _ => {}).state.bus 1) =
        [] := by
  have hcalls : calls (((withPort 0).bus 0).receive fromLocal) = true := by decide +kernel
  have hadm := (delivered_of_calls hcalls).toAdmissible
  refine ⟨?_, ?_, ⟨by decide, by decide⟩, by decide, by decide, by decide, by decide +kernel⟩
  · exact ⟨connected_connect _ none _, by decide, by decide, by decide,
      by unfold Function.Injective; decide, rfl, ⟨⟨0, by decide⟩, by decide⟩,
      ⟨⟨0, by decide⟩, by decide⟩⟩
  · -- the checks of the protocol do not look at the port
    exact ⟨hadm.complete, hadm.recipient, hadm.broadcastAck, hadm.extLenCrc, hadm.macCrc,
      hadm.packetId, hadm.port, hadm.mac, hadm.mode, hadm.busId, hadm.overhead, hadm.maxLength,
      hadm.longCrc, hadm.frontCrc, hadm.endCrc, hadm.macAddress⟩

end Pjon.Proofs.Translation
