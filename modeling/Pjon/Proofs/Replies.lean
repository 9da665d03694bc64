import Pjon.Proofs.HandOn
import Pjon.Proofs.Update
import Pjon.Proofs.Canonical
import Pjon.Proofs.Boundary
import Pjon.Proofs.Misread
import Pjon.Spec.Replies
/-!
# Replies and their packet ids

`reply` keeps the packet id and the port of the request.  What the slots hold and what leaves is
always composed of the same info, but for the id where the request has none; so the device
that sent the request takes one reply for a duplicate of another.  Whether it receives them at all
depends on the modes and the addresses of the two, and on the payloads.
-/

namespace Pjon.Proofs.Replies

open Pjon.Lib Pjon.Model Pjon.Spec Pjon.Proofs.Duplicates Pjon.Proofs.Frames Pjon.Proofs.Forward
open Pjon.Proofs.Update Pjon.Proofs.Interop Pjon.Proofs.Canonical Pjon.Proofs.Layout
open Pjon.Proofs.Boundary Pjon.Proofs.Misread

variable {b b' : Build}

/-! ## What `update` leaves -/

/-- `update` changes the send buffer only. -/
theorem updateSlot_bus (bus : Bus b) (maxAttempts : UInt8) (i : Fin b.maxPackets) (turn : Turn) :
    ∃ packets, (bus.updateSlot maxAttempts i turn).bus = { bus with packets := packets } := by
  rcases updateSlot_cases bus maxAttempts i turn with ⟨hbus, -⟩ | ⟨-, hbus | hbus, -⟩
  · exact ⟨bus.packets, hbus⟩
  · exact ⟨_, hbus⟩
  · rw [hbus, Bus.resetPacket]
    split_ifs
    · exact ⟨_, rfl⟩
    · exact ⟨_, rfl⟩
    · exact ⟨_, rfl⟩

theorem updateFrom_bus (maxAttempts : UInt8) (turns : Fin b.maxPackets → Turn)
    (slots : List (Fin b.maxPackets)) :
    ∀ bus : Bus b, ∃ packets,
      (bus.updateFrom maxAttempts turns slots).bus = { bus with packets := packets } := by
  induction slots with
  | nil => exact fun bus => ⟨bus.packets, rfl⟩
  | cons i slots ih =>
      intro bus
      obtain ⟨packets, hslot⟩ := updateSlot_bus bus maxAttempts i (turns i)
      obtain ⟨packets', hrest⟩ := ih (bus.updateSlot maxAttempts i (turns i)).bus
      refine ⟨packets', ?_⟩
      rw [Bus.updateFrom]
      simp only
      rw [hrest, hslot]

/-! ## What the slots hold -/

/-- The device that has received the request, when the seed of its packet ids is `seed`. -/
abbrev atSeed (first : Bus b) (seed : UInt16) : Bus b := { first with packetIdSeed := seed }

/-- The frame is what `compose_packet` makes of the reply of this call. -/
def IsReply (first : Bus b) (call : ReplyCall) (frame : List UInt8) : Prop :=
  ∃ destination,
    ((atSeed first call.seed).composePacket first.replyInfo destination call.payload).result ≠ 0 ∧
      frame = frameOf (atSeed first call.seed) first.replyInfo destination call.payload

/-- The device is the one that received the request, but for its buffer and its seed, and has
replies to that in its slots and has sent nothing else for them. -/
structure Composes (first : Bus b) (x : Replying b) : Prop where
  device : ∃ packets seed, x.device = { first with packets := packets, packetIdSeed := seed }
  slots : ∀ i k, x.inSlot i = some k → ∃ call frame, x.calls[k]? = some call ∧
    IsReply first call frame ∧ Holds i frame x.device
  sent : ∀ t ∈ x.sent, ∃ call, x.calls[t.call]? = some call ∧ IsReply first call t.frame

section Composes

variable {first : Bus b} {x : Replying b}

theorem mem_repliesOf {inSlot : Fin b.maxPackets → Option Nat}
    {events : List (Fin b.maxPackets × Event)} {t : SentReply}
    (h : t ∈ Replying.repliesOf inSlot events) :
    ∃ i, inSlot i = some t.call ∧ t.frame ∈ framesOf i events := by
  rw [Replying.repliesOf, List.mem_filterMap] at h
  obtain ⟨⟨i, event⟩, hmem, hsome⟩ := h
  cases event with
  | sendFrame frame =>
      simp only [Option.map_eq_some_iff] at hsome
      obtain ⟨call, hcall, rfl⟩ := hsome
      exact ⟨i, hcall, mem_framesOf.mpr hmem⟩
  | sendResponse response => cases hsome
  | receiver payload info => cases hsome
  | error code data customPointer => cases hsome

theorem composes_start (first : Bus b) : Composes first { device := first } where
  device := ⟨first.packets, first.packetIdSeed, rfl⟩
  slots i k h := by cases h
  sent t ht := absurd ht List.not_mem_nil

theorem composes_update (h : Composes first x) (maxAttempts : UInt8)
    (turns : Fin b.maxPackets → Turn) : Composes first (x.step (.update maxAttempts turns)) := by
  refine ⟨?_, fun i k hk => ?_, fun t ht => ?_⟩
  · obtain ⟨packets, seed, hdevice⟩ := h.device
    obtain ⟨packets', hupdate⟩ := updateFrom_bus maxAttempts turns (List.finRange b.maxPackets)
      x.device
    exact ⟨packets', seed, hupdate.trans (by rw [hdevice])⟩
  · obtain ⟨call, frame, hcall, hreply, hholds⟩ := h.slots i k hk
    exact ⟨call, frame, hcall, hreply, (updateFrom_holds maxAttempts turns _ x.device hholds).1⟩
  · rcases List.mem_append.mp ht with hbefore | hnew
    · exact h.sent t hbefore
    · obtain ⟨i, hi, hframe⟩ := mem_repliesOf hnew
      obtain ⟨call, frame, hcall, hreply, hholds⟩ := h.slots i t.call hi
      have hsame := (updateFrom_holds maxAttempts turns _ x.device hholds).2 t.frame hframe
      exact ⟨call, hcall, hsame ▸ hreply⟩

theorem composes_remove (h : Composes first x) (i : Fin b.maxPackets) :
    Composes first (x.step (.remove i)) := by
  refine ⟨?_, fun j k hk => ?_, h.sent⟩
  · obtain ⟨packets, seed, hdevice⟩ := h.device
    exact ⟨_, seed, congrArg (fun bus : Bus b => bus.remove i) hdevice⟩
  · obtain ⟨call, frame, hcall, hreply, hholds⟩ := h.slots j k hk
    exact ⟨call, frame, hcall, hreply, holds_remove i hholds⟩

theorem composes_reply (h : Composes first x) (payload : Payload) (now : UInt32) :
    Composes first (x.step (.reply payload now)) := by
  obtain ⟨packets, seed, hdevice⟩ := h.device
  have hlater {k : Nat} {call : ReplyCall} (hcall : x.calls[k]? = some call) :
      (x.calls ++ [{ payload := payload, seed := x.device.packetIdSeed }])[k]? = some call := by
    rwa [List.getElem?_append_left (List.getElem?_eq_some_iff.mp hcall).1]
  refine ⟨?_, fun i k hk => ?_, fun t ht => ?_⟩
  · obtain ⟨packets', seed', hreply⟩ : ∃ packets seed, (x.device.reply payload now).bus =
        { x.device with packets := packets, packetIdSeed := seed } :=
      dispatch_bus x.device.replyInfo payload 0 now fail
    exact ⟨packets', seed', hreply.trans (by rw [hdevice])⟩
  · by_cases hnew : (x.device.slot i).state = 0 ∧
        ((x.device.reply payload now).bus.slot i).state ≠ 0
    · rw [Replying.step] at hk
      simp only [if_pos hnew, Option.some.injEq] at hk
      subst hk
      obtain ⟨hfits, hframe⟩ :=
        dispatch_slot_free x.device.replyInfo payload 0 now hnew.1 hnew.2
      have hinfo : x.device.completeInfo x.device.replyInfo =
          (atSeed first x.device.packetIdSeed).completeInfo first.replyInfo := by
        rw [hdevice]
        rfl
      obtain ⟨hresult, hsame⟩ := composePacket_congr hinfo (x.device.slot i).content payload
      refine ⟨_, _, List.getElem?_concat_length, ⟨_, ?_, rfl⟩, fun _ => hframe.trans hsame⟩
      rwa [hresult] at hfits
    · rw [Replying.step] at hk
      simp only [if_neg hnew] at hk
      obtain ⟨call, frame, hcall, hreply, hholds⟩ := h.slots i k hk
      refine ⟨call, frame, hlater hcall, hreply, fun hstate => ?_⟩
      have hused : (x.device.slot i).state ≠ 0 := fun hfree => hnew ⟨hfree, hstate⟩
      have hslot : (x.device.reply payload now).bus.slot i = x.device.slot i :=
        dispatch_slot_used x.device.replyInfo payload 0 now hused
      rw [Replying.step]
      simp only
      rw [hslot]
      exact hholds hused
  · obtain ⟨call, hcall, hreply⟩ := h.sent t ht
    exact ⟨call, hlater hcall, hreply⟩

theorem composes_step (h : Composes first x) (move : ReplyMove b) :
    Composes first (x.step move) := by
  cases move with
  | reply payload now => exact composes_reply h payload now
  | update maxAttempts turns => exact composes_update h maxAttempts turns
  | remove i => exact composes_remove h i

theorem composes_run (first : Bus b) (moves : List (ReplyMove b)) :
    Composes first (Run.final Replying.step { device := first } moves) :=
  (Run.invariant Replying.step (Composes first) (fun _ move h => composes_step h move)
    (composes_start first) moves).2

end Composes

/-! ## What a reply carries -/

/-- The info that a reply is composed with, when the seed is `seed`. -/
abbrev composedInfo (first : Bus b) (seed : UInt16) : PacketInfo :=
  (atSeed first seed).completeInfo first.replyInfo

theorem header_composedInfo (first : Bus b) (seed : UInt16) :
    (composedInfo first seed).header = first.config := by
  rw [composedInfo, Bus.completeInfo, Bus.effectiveHeader]
  split_ifs <;> rfl

theorem id_composedInfo {first : Bus b} (hcompiled : b.includePacketId = true)
    (hid : has first.config packetIdBit = true) (seed : UInt16) :
    (composedInfo first seed).id = replyId first seed := by
  have heffective : (atSeed first seed).effectiveHeader first.replyInfo = first.config :=
    header_composedInfo first seed
  have hcomposed : (composedInfo first seed).id =
      if (atSeed first seed).generatesId first.replyInfo then Tools.newPacketId seed
      else first.lastPacketInfo.id := rfl
  rw [hcomposed, Bus.generatesId, heffective, hcompiled, hid, replyId]
  have hzero : first.replyInfo.id = first.lastPacketInfo.id := rfl
  simp only [hzero, Bool.true_and, Bool.and_true, beq_iff_eq]

theorem replyId_ne_zero (first : Bus b) (seed : UInt16) : replyId first seed ≠ 0 := by
  rw [replyId]
  split_ifs with hzero
  · exact PacketIds.newPacketId_ne_zero seed
  · exact hzero

theorem port_composedInfo (first : Bus b) (seed : UInt16) (hincluded : b.includePort = true) :
    (composedInfo first seed).port = replyPort first := by
  have heffective : (atSeed first seed).effectiveHeader first.replyInfo = first.config :=
    header_composedInfo first seed
  have hcomposed : (composedInfo first seed).port =
      if b.includePort && first.port != noPort && first.lastPacketInfo.port == noPort &&
        has ((atSeed first seed).effectiveHeader first.replyInfo) portBit then first.port
      else first.lastPacketInfo.port := rfl
  rw [hcomposed, heffective, hincluded, replyPort]
  simp only [Bool.true_and, Bool.and_eq_true, bne_iff_ne, ne_eq, beq_iff_eq, and_assoc]

theorem requested_composedInfo (first : Bus b) (seed : UInt16) :
    requested b (composedInfo first seed) = replyHeader first := by
  rw [requested, replyHeader, header_composedInfo]
  cases hincluded : b.includePort
  · simp only [Tools.portHeader, hincluded, Bool.false_eq_true, if_false]
  · rw [port_composedInfo first seed hincluded]

theorem has_replyHeader (first : Bus b) {bit : UInt8} (hport : has portBit bit = false)
    (hclear : ~~~portBit &&& bit = bit) : has (replyHeader first) bit = has first.config bit :=
  Tools.has_portHeader b _ first.config bit hport hclear

/-- The composer makes a packet of a reply that is laid out as its header says exactly if the
conditions on the payload hold. -/
theorem sendable_iff (first : Bus b) (seed : UInt16) {payload : Payload}
    (hfits : packetSize (atSeed first seed) first.replyInfo payload < b.packetMaxLength) :
    Sendable b (composedInfo first seed) payload ↔
      b.Supports first.config ∧ Transportable (replyHeader first) payload.length := by
  have hext : has (replyHeader first) extLenBit = has first.config extLenBit :=
    has_replyHeader first (by decide) (by decide)
  have hcrc : has (replyHeader first) crcBit = has first.config crcBit :=
    has_replyHeader first (by decide) (by decide)
  have hheader := header_composedInfo first seed
  have hsum := noWrap_iff b (composedInfo first seed) payload.length payload.length_lt
  have hwidth := extendedLength_iff b (composedInfo first seed) payload.length
  have haccepted := extLenCrc_iff b (composedInfo first seed) payload.length
  rw [requested_composedInfo] at hsum hwidth haccepted
  rw [hheader, ← hext] at hwidth haccepted
  rw [← hcrc] at haccepted
  have htotal (hfull : payload.length +
      packetOverhead (replyHeader first ||| extLenBit ||| crcBit) < 65536) :
      Tools.totalLength (replyHeader first ||| extLenBit) payload.length =
        payload.length + packetOverhead (replyHeader first ||| extLenBit) := by
    have hgrown := Tools.packetOverhead_or_crc (replyHeader first ||| extLenBit)
    apply totalLength_of_lt
    split_ifs at hgrown <;> omega
  constructor
  · intro h
    have hfull := hsum.mp h.faithful.noWrap
    have hset := haccepted.mp h.extLenCrc
    rw [htotal hfull] at hset
    exact ⟨hheader ▸ h.supports, h.nonempty, hfull, hwidth.mp h.faithful.width, hset⟩
  · rintro ⟨hsup, h⟩
    have hset := h.extLenCrc
    rw [← htotal h.sum] at hset
    exact ⟨hheader ▸ hsup, ⟨hsum.mpr h.sum, hwidth.mpr h.width⟩, hfits, haccepted.mpr hset,
      h.nonempty⟩

theorem frame_of_isReply {first : Bus b} {call : ReplyCall} {frame : List UInt8}
    (h : IsReply first call frame) : ∃ destination,
      packetSize (atSeed first call.seed) first.replyInfo call.payload < b.packetMaxLength ∧
        frame = emitted b (composedInfo first call.seed) destination call.payload := by
  obtain ⟨destination, hresult, rfl⟩ := h
  obtain ⟨hfits, hlength⟩ := fits_of_result hresult
  refine ⟨destination, hfits, ?_⟩
  rw [frameOf, hlength, composePacket_writes]

/-- The frame of a reply, at the device that gets it. -/
theorem bytesOf_of_isReply {first : Bus b} {call : ReplyCall} {frame : List UInt8}
    (hformat : SameFormat b b') (hsend : Sendable b (composedInfo first call.seed) call.payload)
    (h : IsReply first call frame) :
    Sendable b' (composedInfo first call.seed) call.payload ∧
      frame = bytesOf b' (composedInfo first call.seed) call.payload := by
  obtain ⟨destination, -, rfl⟩ := h
  refine ⟨sendable_sameFormat hformat hsend, ?_⟩
  rw [← bytesOf_sameFormat hformat]
  exact load_composePacket (atSeed first call.seed) first.replyInfo destination hsend

/-! ## The device that gets the replies -/

section Requester

variable {first : Bus b} {requester : Bus b'} {call call' : ReplyCall} {frame frame' : List UInt8}

/-- The sender of the replies, as far as they carry it. -/
abbrev replySender (first : Bus b) : Endpoint :=
  (carried (composedInfo first first.packetIdSeed) first.config).tx

/-- A reply as the requester sees it. -/
structure Readable (first : Bus b) (requester : Bus b') (call : ReplyCall) (frame : List UInt8) :
    Prop where
  admissible : Admissible requester frame
  packetId : has (header frame) packetIdBit = true
  payload : payloadOf frame = call.payload.bytes
  info : Recovers (composedInfo first call.seed) (header frame) (infoOf requester frame)
  mode : has (infoOf requester frame).header modeBit = has first.config modeBit
  senderId : (infoOf requester frame).tx.id = (replySender first).id
  senderBus : (infoOf requester frame).tx.busId = (replySender first).busId
  id : (infoOf requester frame).id = replyId first call.seed
  port : b.includePort = true → (infoOf requester frame).port = (composedInfo first call.seed).port

theorem readable_of_isReply (hformat : SameFormat b b') (hcompiled : b'.includePacketId = true)
    (hid : has first.config packetIdBit = true)
    (hsend : Sendable b (composedInfo first call.seed) call.payload)
    (h : IsReply first call frame) (hadm : Admissible requester frame) :
    Readable first requester call frame := by
  obtain ⟨hsend', rfl⟩ := bytesOf_of_isReply hformat hsend h
  have hheader := header_bytesOf hsend'
  have hinfo := recovers_infoOf requester hsend'
  have hbit : has (written b' (composedInfo first call.seed) call.payload) packetIdBit = true := by
    rw [written, has_measure_packetId, header_composedInfo, hid]
  have hmode : has (written b' (composedInfo first call.seed) call.payload) modeBit =
      has first.config modeBit := by
    rw [written, has_measure_mode, header_composedInfo]
  have htxInfo : has (written b' (composedInfo first call.seed) call.payload) txInfoBit =
      has first.config txInfoBit := by
    rw [written, has_measure_txInfo, header_composedInfo]
  constructor
  case admissible => exact hadm
  case packetId => rw [hheader, hbit]
  case payload => exact payloadOf_bytesOf hsend'
  case info => rwa [hheader]
  case mode =>
    have hfield := congrArg PacketInfo.header hinfo.fields
    rw [← hmode]
    exact congrArg (fun header => has header modeBit) hfield
  case senderId =>
    have hfield := congrArg (fun info : PacketInfo => info.tx.id) hinfo.fields
    simp only [withoutMacs, carried, htxInfo] at hfield
    exact hfield
  case senderBus =>
    have hfield := congrArg (fun info : PacketInfo => info.tx.busId) hinfo.fields
    simp only [withoutMacs, carried, htxInfo, hmode] at hfield
    exact hfield
  case id =>
    have hfield := congrArg PacketInfo.id hinfo.fields
    simp only [withoutMacs, carried, hbit, if_true] at hfield
    rw [hfield, id_composedInfo (hformat.includePacketId.trans hcompiled) hid]
  case port =>
    intro hincluded
    have hincluded' : b'.includePort = true := hformat.includePort ▸ hincluded
    have hfield := port_of_recovers hinfo
    simp only [carried, written, has_measure_port, hincluded', if_true] at hfield
    rw [hfield]
    by_cases hset : (composedInfo first call.seed).port = noPort <;> simp [hset]

/-- A reply is found under the record of another exactly if they have the same id. -/
theorem recordTest_recordOf (h : Readable first requester call frame)
    (h' : Readable first requester call' frame') :
    recordTest b' frame (Bus.recordOf (infoOf requester frame')) = true ↔
      replyId first call.seed = replyId first call'.seed := by
  rw [← sameId_infoOf requester, Bus.sameId, Bus.recordOf]
  simp only [h.id, h'.id, h.senderId, h'.senderId, h.senderBus, h'.senderBus, h.mode, h'.mode]
  cases has first.config modeBit <;> simp

/-- Replies with one id are found under the same records. -/
theorem recordTest_congr (h : Readable first requester call frame)
    (h' : Readable first requester call' frame')
    (hid : replyId first call.seed = replyId first call'.seed) :
    recordTest b' frame = recordTest b' frame' := by
  funext record
  rw [← sameId_infoOf requester, ← sameId_infoOf requester, Bus.sameId, Bus.sameId, h.id, h'.id,
    h.senderId, h'.senderId, h.senderBus, h'.senderBus, h.mode, h'.mode, hid]

/-- The port of the requester is that of a reply exactly if it is the one replies go to. -/
theorem portMatches_iff (hformat : SameFormat b b') (h : Readable first requester call frame) :
    portMatches requester frame = true ↔ (b.includePort = true →
      requester.port = noPort ∨ requester.port = replyPort first) := by
  rw [portMatches_infoOf, ← hformat.includePort]
  cases hincluded : b.includePort
  · simp
  · rw [h.port hincluded, port_composedInfo first call.seed hincluded]
    simp

/-! ### What it accepts -/

/-- The addresses of a reply are for the sender of the request. -/
theorem accepts_iff (hrouter : requester.router = false)
    (hsender : first.lastPacketInfo.tx.id = requester.tx.id) (seed : UInt16) (payload : Payload) :
    Accepts requester first ↔ b.Supports first.config ∧
      Receivable requester (composedInfo first seed)
        (written b' (composedInfo first seed) payload) ∧
      (b.includePort = true → requester.port = noPort ∨ requester.port = replyPort first) := by
  have hmode : has (written b' (composedInfo first seed) payload) modeBit =
      has first.config modeBit := by
    rw [written, has_measure_mode, header_composedInfo]
  have hmac : has (written b' (composedInfo first seed) payload) macBit =
      has first.config macBit := by
    rw [written, has_measure_mac, header_composedInfo]
  constructor
  · intro h
    refine ⟨h.supported, ⟨Or.inr (Or.inl hsender), ?_, ?_, ?_⟩, h.port⟩
    · rw [hmode]
      exact Or.inr h.localMode
    · rw [hmode, hmac]
      exact Or.inr h.busId
    · rw [hmac]
      exact Or.inr h.mac
  · rintro ⟨hsup, haddr, hport⟩
    have hnot {p : Prop} (h : requester.router = true ∨ p) : p :=
      h.resolve_left (by rw [hrouter]; exact Bool.false_ne_true)
    have hlocal := hnot haddr.localMode
    have hbus := hnot haddr.busId
    have haddress := hnot haddr.mac
    rw [hmode] at hlocal hbus
    rw [hmac] at hbus haddress
    exact ⟨hsup, hlocal, hbus, haddress, hport⟩

/-- What the requester accepts it can read. -/
theorem readable_of_accepts (hformat : SameFormat b b') (hkeeps : KeepsIds requester)
    (hid : has first.config packetIdBit = true)
    (hsender : first.lastPacketInfo.tx.id = requester.tx.id) (haccepts : Accepts requester first)
    (htransportable : Transportable (replyHeader first) call.payload.length)
    (h : IsReply first call frame) : Readable first requester call frame := by
  obtain ⟨-, hfits, -⟩ := frame_of_isReply h
  have hsend := (sendable_iff first call.seed hfits).mpr ⟨haccepts.supported, htransportable⟩
  obtain ⟨hsend', hframe⟩ := bytesOf_of_isReply hformat hsend h
  have haddr := ((accepts_iff hkeeps.notRouter hsender call.seed call.payload).mp haccepts).2.1
  have hadm := (admissible_bytesOf_iff requester hsend').mpr haddr
  rw [← hframe] at hadm
  exact readable_of_isReply hformat hkeeps.compiled hid hsend h hadm

/-- A reply that can be read is handed over as what it is. -/
theorem told_of_readable (htx : has first.config txInfoBit = true)
    (hlocal : has first.config modeBit → b.pjonLocal = false)
    (h : Readable first requester call frame) {bus : Bus b'} {info : PacketInfo}
    (hseen : Seen bus frame info) : ToldAs first call info := by
  have hfields := hseen.fields
  constructor
  case sender =>
    have hfield := congrArg (fun info : PacketInfo => info.tx.id) hfields
    have hsender := h.senderId
    simp only [replySender, carried, htx, if_true] at hsender
    exact hfield.trans hsender
  case hops =>
    have hfield := congrArg PacketInfo.hops hfields
    have hcarried := congrArg PacketInfo.hops h.info.fields
    have hheader := congrArg PacketInfo.header h.info.fields
    have hmode : has (header frame) modeBit = has first.config modeBit :=
      (congrArg (fun header => has header modeBit) hheader).symm.trans h.mode
    apply (hfield.trans hcarried).trans
    simp only [withoutMacs, carried, hmode]
    split_ifs with hshared
    · have hkept : (composedInfo first call.seed).hops =
          if b.pjonLocal then first.lastPacketInfo.hops else 0 := rfl
      rw [hkept, hlocal hshared]
      rfl
    · rfl
  case id =>
    have hfield := congrArg PacketInfo.id hfields
    exact hfield.trans h.id

/-- What it is told of a reply shows that it accepts it. -/
theorem accepts_of_told (hformat : SameFormat b b') (hkeeps : KeepsIds requester)
    (htx : has first.config txInfoBit = true) (hid : has first.config packetIdBit = true)
    (hlocal : has first.config modeBit → b.pjonLocal = false)
    (hsender : first.lastPacketInfo.tx.id = requester.tx.id) (h : IsReply first call frame)
    (hdelivered : Delivered requester frame) (hpayload : call.payload.bytes = payloadOf frame)
    {info : PacketInfo} (hseen : Seen requester frame info) (htold : ToldAs first call info) :
    Accepts requester first ∧ Transportable (replyHeader first) call.payload.length := by
  obtain ⟨destination, hfits, hframe⟩ := frame_of_isReply h
  have hadm := hdelivered.toAdmissible
  have hconfig := header_composedInfo first call.seed
  have hnumber := id_composedInfo (hformat.includePacketId.trans hkeeps.compiled) hid call.seed
  have hfields := hseen.fields
  have hsend' : Sendable b' (composedInfo first call.seed) call.payload := by
    have hsent := hframe.trans (emitted_sameFormat hformat _ destination call.payload)
    rw [packetSize, measure_sameFormat hformat, hformat.packetMaxLength] at hfits
    rw [hsent] at hadm hpayload hfields
    apply sendable_of_told hfits hadm hpayload
    · rw [hconfig, ← hformat.pjonLocal]
      exact hlocal
    · rw [hconfig, htx]
    · rw [hconfig, hid]
    · rw [hnumber]
      exact replyId_ne_zero first call.seed
    · exact (congrArg (fun info : PacketInfo => info.tx.id) hfields).symm.trans htold.sender
    · exact (congrArg PacketInfo.hops hfields).symm.trans htold.hops
    · rw [hnumber]
      exact (congrArg PacketInfo.id hfields).symm.trans htold.id
  have hsend := sendable_sameFormat (sameFormat_symm hformat) hsend'
  have hread := readable_of_isReply hformat hkeeps.compiled hid hsend h hadm
  obtain ⟨-, hframe'⟩ := bytesOf_of_isReply hformat hsend h
  obtain ⟨hsupported, htransportable⟩ := (sendable_iff first call.seed hfits).mp hsend
  rw [hframe'] at hadm
  have haccepts := (accepts_iff hkeeps.notRouter hsender call.seed call.payload).mpr
    ⟨hsupported, (admissible_bytesOf_iff requester hsend').mp hadm,
      (portMatches_iff hformat hread).mp hdelivered.port_matches⟩
  exact ⟨haccepts, htransportable⟩

end Requester

/-! ## The records of the requester -/

section Arrivals

variable {requester : Bus b'} (hmin : 4 ≤ b'.packetMaxLength) (hmax : b'.packetMaxLength < 65536)

include hmin hmax

/-- A call of `receive` records nothing but the id of what it gets. -/
theorem mem_records_receive (bus : Bus b') (delivery : Delivery) {record : PacketRecord}
    (h : record ∈ (bus.receive delivery).bus.recentPacketIds.toList) :
    record = Bus.recordOf (infoOf bus delivery.bytes) ∨ record ∈ bus.recentPacketIds.toList := by
  by_cases hadm : Admissible bus delivery.bytes
  · obtain ⟨info, -, hcaused⟩ := Deliver.receive_caused bus delivery hmin hmax hadm
    rw [hcaused.records, Deliver.recordsAfter, Bus.knownPacketId] at h
    split_ifs at h
    · exact Or.inr h
    · rw [PacketIds.savePacketId_eq_push] at h
      exact Recent.mem_push h
    · exact Or.inr h
  · rw [receive_records_of_not bus delivery hmin hmax hadm] at h
    exact Or.inr h

/-- The requester after some arrivals. -/
structure Received (requester : Bus b') (before : List ReplyArrival) (bus : Bus b') : Prop where
  settings : SameSettings requester bus
  keepsIds : KeepsIds bus
  records : ∀ record ∈ bus.recentPacketIds.toList, record ∈ requester.recentPacketIds.toList ∨
    ∃ a ∈ before, record = Bus.recordOf (infoOf requester a.reply.frame)

theorem received_receiveAll (hkeeps : KeepsIds requester) (before : List ReplyArrival) :
    Received requester before (receiveAll requester before) := by
  induction before using List.reverseRecOn with
  | nil => exact ⟨SameSettings.refl requester, hkeeps, fun record h => Or.inl h⟩
  | append_singleton before a ih =>
      rw [receiveAll, List.foldl_append]
      refine ⟨ih.settings.trans (sameSettings_receive _ a.delivery),
        keepsIds_arrive hmin hmax ih.keepsIds [] (.other a.delivery), fun record h => ?_⟩
      rcases mem_records_receive hmin hmax _ a.delivery h with rfl | hbefore
      · exact Or.inr ⟨a, by simp, rfl⟩
      · rcases ih.records record hbefore with hstart | ⟨a', ha', hrecord⟩
        · exact Or.inl hstart
        · exact Or.inr ⟨a', List.mem_append_left _ ha', hrecord⟩

end Arrivals

/-! ## Who is told apart -/

section Apart

variable {first : Bus b} {requester : Bus b'} {x : Replying b}
  (hmin : 4 ≤ b'.packetMaxLength) (hmax : b'.packetMaxLength < 65536)
  (hkeeps : KeepsIds requester) (hformat : SameFormat b b')
  (htx : has first.config txInfoBit = true)
  (hlocal : has first.config modeBit → b.pjonLocal = false)

include hmin hmax hkeeps

/-- Where two replies are handed over, they have different ids. -/
theorem apart_of_handedOver {t u : SentReply} {call call' : ReplyCall}
    (hread : Readable first requester call t.frame)
    (hread' : Readable first requester call' u.frame)
    (hfirst : calls (requester.receive ⟨t.frame, fun _ => 0⟩) = true)
    (hsecond : calls ((receiveAll requester [⟨t, fun _ => 0⟩]).receive ⟨u.frame, fun _ => 0⟩) =
      true) : replyId first call.seed ≠ replyId first call'.seed := by
  have hreceived := received_receiveAll hmin hmax hkeeps [⟨t, fun _ => 0⟩]
  obtain ⟨entry, hentry, hpush⟩ := records_of_calls requester ⟨t.frame, fun _ => 0⟩ hmin hmax
    hkeeps (fun _ => hread.packetId) hfirst
  rw [calls_own _ ⟨u.frame, fun _ => 0⟩ hmin hmax hreceived.keepsIds (fun _ => hread'.packetId)
    (hreceived.settings.admissible hread'.admissible)] at hsecond
  intro hsame
  have hfound := Recent.foundBelow_push requester.recentPacketIds b'.recent_pos hentry
  rw [← hpush, recordTest_congr hread hread' hsame] at hfound
  have hany := (Recent.any_iff_foundBelow _ _).mpr (hfound.mono b'.recent_pos)
  have hnone := hsecond.1
  rw [receiveAll, List.foldl_cons, List.foldl_nil, ReplyArrival.delivery, hany] at hnone
  cases hnone

include hformat htx hlocal in
/-- Where every reply is handed over, the conditions hold. -/
theorem reach_of_arrive (hid : has first.config packetIdBit = true)
    (hsender : first.lastPacketInfo.tx.id = requester.tx.id)
    (hreplies : ∀ t ∈ x.sent, ∃ call, x.calls[t.call]? = some call ∧ IsReply first call t.frame)
    {request : PacketInfo} (harrive : RepliesArrive requester first request x) :
    RepliesReach requester first x := by
  have hfirst (t : SentReply) (ht : t ∈ x.sent) :
      ∃ call info, x.calls[t.call]? = some call ∧ ToldAs first call info ∧
        .receiver call.payload.bytes info ∈ (requester.receive ⟨t.frame, fun _ => 0⟩).events :=
    harrive.handedOver [] (by simp) ⟨t, fun _ => 0⟩ ht (by simp)
  have haccepted (t : SentReply) (ht : t ∈ x.sent) : ∃ call, x.calls[t.call]? = some call ∧
      IsReply first call t.frame ∧ Accepts requester first ∧
        Transportable (replyHeader first) call.payload.length := by
    obtain ⟨call, info, hcall, htold, hcalled⟩ := hfirst t ht
    obtain ⟨call', hcall', hreply⟩ := hreplies t ht
    obtain rfl := Option.some.inj (hcall.symm.trans hcall')
    obtain ⟨hdelivered, hpayload, hseen, -⟩ := seen_of_receiver hmin hmax hcalled
    exact ⟨call, hcall, hreply, accepts_of_told hformat hkeeps htx hid hlocal hsender hreply
      hdelivered hpayload hseen htold⟩
  constructor
  case accepts =>
    intro hsent
    obtain ⟨t, ht⟩ := List.exists_mem_of_ne_nil _ hsent
    obtain ⟨-, -, -, haccepts, -⟩ := haccepted t ht
    exact haccepts
  case transportable =>
    intro t ht call hcall
    obtain ⟨call', hcall', -, -, htransportable⟩ := haccepted t ht
    obtain rfl := Option.some.inj (hcall.symm.trans hcall')
    exact htransportable
  case ids =>
    intro t ht u hu hne
    obtain ⟨call, hcall, hreply, haccepts, htransportable⟩ := haccepted t ht
    obtain ⟨call', hcall', hreply', -, htransportable'⟩ := haccepted u hu
    have hread := readable_of_accepts hformat hkeeps hid hsender haccepts htransportable hreply
    have hread' := readable_of_accepts hformat hkeeps hid hsender haccepts htransportable' hreply'
    -- first one reply arrives, then the other
    obtain ⟨_, info, -, -, hcalled⟩ := hfirst t ht
    obtain ⟨_, info', -, -, hcalled'⟩ := harrive.handedOver [⟨t, fun _ => 0⟩] (by simpa using ht)
      ⟨u, fun _ => 0⟩ hu (by simpa using hne)
    have hdiffer := apart_of_handedOver hmin hmax hkeeps hread hread'
      ((calls_iff _).mpr ⟨_, info, hcalled⟩) ((calls_iff _).mpr ⟨_, info', hcalled'⟩)
    rw [replyId, replyId] at hdiffer
    by_cases hzero : first.lastPacketInfo.id = 0
    · rw [if_pos hzero, if_pos hzero] at hdiffer
      refine ⟨hzero, fun call₁ call₂ h₁ h₂ => ?_⟩
      obtain rfl := Option.some.inj (hcall.symm.trans h₁)
      obtain rfl := Option.some.inj (hcall'.symm.trans h₂)
      exact hdiffer
    · rw [if_neg hzero, if_neg hzero] at hdiffer
      exact absurd rfl hdiffer

variable (hreadable : ∀ t ∈ x.sent, ∃ call, x.calls[t.call]? = some call ∧
  Readable first requester call t.frame)

include hreadable

/-- A reply is new to the requester until a frame of it arrives, if no other has its id. -/
theorem not_recorded_of_apart (hfresh : ∀ t ∈ x.sent, recorded requester t.frame = false)
    (hreach : RepliesReach requester first x) {before : List ReplyArrival}
    (hbefore : ∀ a ∈ before, a.reply ∈ x.sent) {t : SentReply} (ht : t ∈ x.sent)
    (hother : ∀ a ∈ before, a.reply.call ≠ t.call) :
    recorded (receiveAll requester before) t.frame = false := by
  obtain ⟨call, hcall, hread⟩ := hreadable t ht
  have hreceived := received_receiveAll hmin hmax hkeeps before
  rw [recorded_infoOf, hread.packetId, Bool.true_and, List.any_eq_false]
  intro record hmem htest
  rw [sameId_infoOf] at htest
  rcases hreceived.records record hmem with hstart | ⟨a, ha, rfl⟩
  · have hnot := hfresh t ht
    rw [recorded_infoOf, hread.packetId, Bool.true_and, List.any_eq_false] at hnot
    exact hnot record hstart htest
  · obtain ⟨call', hcall', hread'⟩ := hreadable a.reply (hbefore a ha)
    have hsame := (recordTest_recordOf hread hread').mp htest
    obtain ⟨hzero, hids⟩ := hreach.ids t ht a.reply (hbefore a ha) (hother a ha).symm
    rw [replyId, replyId, if_pos hzero, if_pos hzero] at hsame
    exact hids call call' hcall hcall' hsame

include hformat htx hlocal in
/-- The replies are handed over, each when it arrives for the first time. -/
theorem handedOver_of_reach (hfresh : ∀ t ∈ x.sent, recorded requester t.frame = false)
    (hreach : RepliesReach requester first x) (before : List ReplyArrival)
    (hbefore : ∀ a ∈ before, a.reply ∈ x.sent) (arrival : ReplyArrival)
    (harrival : arrival.reply ∈ x.sent)
    (hother : ∀ a ∈ before, a.reply.call ≠ arrival.reply.call) :
    ∃ call info, x.calls[arrival.reply.call]? = some call ∧ ToldAs first call info ∧
      .receiver call.payload.bytes info ∈
        ((receiveAll requester before).receive arrival.delivery).events := by
  obtain ⟨call, hcall, hread⟩ := hreadable arrival.reply harrival
  have hreceived := received_receiveAll hmin hmax hkeeps before
  have hport : portMatches (receiveAll requester before) arrival.reply.frame = true := by
    rw [hreceived.settings.portMatches, portMatches_iff hformat hread]
    exact (hreach.accepts (List.ne_nil_of_mem harrival)).port
  have hadm : Admissible (receiveAll requester before) arrival.delivery.bytes :=
    hreceived.settings.admissible hread.admissible
  obtain ⟨info, hcalled⟩ := Deliver.receiver_of_admissible hmin hmax hadm
    (not_recorded_of_apart hmin hmax hkeeps hreadable hfresh hreach hbefore harrival hother) hport
  obtain ⟨-, -, hseen, -⟩ := seen_of_receiver hmin hmax hcalled
  refine ⟨call, info, hcall, told_of_readable htx hlocal hread hseen, ?_⟩
  rw [← hread.payload]
  exact hcalled

end Apart

/-- A reply is for the sender of the request. -/
theorem forSender_of_readable {e : Bus b} {s : List UInt8} {first : Bus b} {requester : Bus b'}
    {call : ReplyCall} {frame : List UInt8} (hseen : Seen e s first.lastPacketInfo)
    (h : Readable first requester call frame) : ForSender requester (infoOf e s) frame := by
  have hid := congrArg (fun info : PacketInfo => info.tx.id) hseen.fields
  have hbus := congrArg (fun info : PacketInfo => info.tx.busId) hseen.fields
  constructor
  · have hfield := congrArg (fun info : PacketInfo => info.rx.id) h.info.fields
    exact hfield.trans hid
  · intro hmode
    have hfield := congrArg (fun info : PacketInfo => info.rx.busId) h.info.fields
    simp only [withoutMacs, carried, hmode, if_true] at hfield
    exact hfield.trans hbus
  · intro hmac hrequest
    exact (h.info.rxMac hmac).trans (hseen.txMac hrequest)

/-- Whatever a device replies to a request, every reply is for the sender of the request and is
handed over there, as what it is, when it arrives for the first time, exactly if that device
listens to what it is sent, the payloads can be transported and, where there are several replies,
the request came without an id of its own and they got different ones. -/
theorem replies_arrive_iff (hformat : SameFormat b b') (hmin : 4 ≤ b'.packetMaxLength)
    (hmax : b'.packetMaxLength < 65536) (e : Bus b) (arrival : Delivery)
    (hrequest : calls (e.receive arrival) = true) (htx : has e.config txInfoBit = true)
    (hid : has e.config packetIdBit = true)
    (hlocal : has e.config modeBit → b.pjonLocal = false)
    (moves : List (ReplyMove b)) (x : Replying b)
    (hx : x = Run.final Replying.step { device := (e.receive arrival).bus } moves)
    (requester : Bus b') (hkeeps : KeepsIds requester)
    (hsender : (infoOf e arrival.bytes).tx.id = requester.tx.id)
    (hfresh : ∀ t ∈ x.sent, recorded requester t.frame = false) :
    RepliesArrive requester (e.receive arrival).bus (infoOf e arrival.bytes) x ↔
      RepliesReach requester (e.receive arrival).bus x := by
  obtain ⟨payload, info, hcalled⟩ := (calls_iff _).mp hrequest
  have hlength := hformat.packetMaxLength
  obtain ⟨-, -, hseen, hlast⟩ := seen_of_receiver (hlength ▸ hmin) (hlength ▸ hmax) hcalled
  rw [← hlast] at hseen
  have hsettings := sameSettings_receive e arrival
  have hcomposes := composes_run (e.receive arrival).bus moves
  rw [← hx] at hcomposes
  rw [← hsettings.config] at htx hid hlocal
  generalize (e.receive arrival).bus = first at *
  have hfrom : first.lastPacketInfo.tx.id = requester.tx.id :=
    (congrArg (fun info : PacketInfo => info.tx.id) hseen.fields).trans hsender
  constructor
  · exact reach_of_arrive hmin hmax hkeeps hformat htx hlocal hid hfrom hcomposes.sent
  · intro hreach
    have hreadable : ∀ t ∈ x.sent, ∃ call, x.calls[t.call]? = some call ∧
        Readable first requester call t.frame := by
      intro t ht
      obtain ⟨call, hcall, hreply⟩ := hcomposes.sent t ht
      exact ⟨call, hcall, readable_of_accepts hformat hkeeps hid hfrom
        (hreach.accepts (List.ne_nil_of_mem ht)) (hreach.transportable t ht call hcall) hreply⟩
    refine ⟨fun t ht => ?_, handedOver_of_reach hmin hmax hkeeps hformat htx hlocal hreadable hfresh
      hreach⟩
    obtain ⟨call, -, hread⟩ := hreadable t ht
    exact forSender_of_readable hseen hread

/-! ## Two devices -/

/-- The letter of device 44 arrives. -/
def requestArrival : Delivery := ⟨letterFrame, fun _ => 50⟩

/-- What is due is transmitted and acknowledged. -/
def sendReplies : ReplyMove numbered :=
  .update 10 fun _ =>
    { canStart := true, response := ack, now := 1000, backOff := 0, resetNow := 1000 }

/-- Device 45 makes these moves after the letter of device 44 has come in. -/
def answering (moves : List (ReplyMove numbered)) : Replying numbered :=
  Run.final Replying.step { device := ((numberedDevice 45).receive requestArrival).bus } moves

/-- The letter as a reply, with the packet id of the request. -/
def replyFrame : List UInt8 := [44, 134, 9, 154, 45, 0, 1, 65, 8]

theorem sent_answering_once :
    (answering [.reply letter 0, sendReplies]).sent = [⟨0, replyFrame⟩] := by decide +kernel

theorem admissible_replyFrame : Admissible (numberedDevice 44) replyFrame := by
  have hcalled : calls ((numberedDevice 44).receive ⟨replyFrame, fun _ => 50⟩) = true := by
    decide +kernel
  by_contra hnot
  have hsilent := calls_of_not_admissible (numberedDevice 44) ⟨replyFrame, fun _ => 50⟩
    (by decide) (by decide) hnot
  rw [hsilent] at hcalled
  exact Bool.noConfusion hcalled

/-- A single reply is handed over. -/
theorem replies_arrive_iff_letter :
    RepliesArrive (numberedDevice 44) ((numberedDevice 45).receive requestArrival).bus
      (infoOf (numberedDevice 45) letterFrame) (answering [.reply letter 0, sendReplies]) := by
  have hsent := sent_answering_once
  have hall {p : SentReply → Prop} (h : p ⟨0, replyFrame⟩) :
      ∀ t ∈ (answering [.reply letter 0, sendReplies]).sent, p t := by
    rw [hsent, List.forall_mem_singleton]
    exact h
  refine (replies_arrive_iff ⟨rfl, rfl, rfl, rfl, rfl⟩ (by decide) (by decide) (numberedDevice 45)
    requestArrival (by decide +kernel) (by decide) (by decide) (by decide)
    [.reply letter 0, sendReplies] _ rfl (numberedDevice 44) ⟨rfl, rfl⟩ (by decide)
    (hall (by decide))).mpr ⟨fun _ => ?_, hall fun call hcall => ?_,
      hall (hall fun hne => absurd rfl hne)⟩
  · constructor <;> decide +kernel
  · obtain rfl := Option.some.inj hcall
    constructor <;> decide +kernel

/-- The second of two replies is taken for a duplicate of the first one. -/
theorem second_reply_suppressed :
    calls ((numberedDevice 45).receive requestArrival) = true ∧
      has (header letterFrame) txInfoBit = true ∧ has (header letterFrame) packetIdBit = true ∧
      (infoOf (numberedDevice 45) letterFrame).tx.id = (numberedDevice 44).tx.id ∧
      KeepsIds (numberedDevice 44) ∧ recorded (numberedDevice 44) replyFrame = false ∧
      Admissible (numberedDevice 44) replyFrame ∧
      (answering [.reply letter 0, .reply letter 0, sendReplies]).sent =
        [⟨0, replyFrame⟩, ⟨1, replyFrame⟩] ∧
      calls ((receiveAll (numberedDevice 44) [⟨⟨0, replyFrame⟩, fun _ => 50⟩]).receive
        ⟨replyFrame, fun _ => 50⟩) = false ∧
      ¬RepliesArrive (numberedDevice 44) ((numberedDevice 45).receive requestArrival).bus
        (infoOf (numberedDevice 45) letterFrame)
        (answering [.reply letter 0, .reply letter 0, sendReplies]) := by
  have hsent : (answering [.reply letter 0, .reply letter 0, sendReplies]).sent =
      [⟨0, replyFrame⟩, ⟨1, replyFrame⟩] := by
    decide +kernel
  have hsilent : calls ((receiveAll (numberedDevice 44) [⟨⟨0, replyFrame⟩, fun _ => 50⟩]).receive
      ⟨replyFrame, fun _ => 50⟩) = false := by
    decide +kernel
  refine ⟨by decide +kernel, by decide, by decide, by decide, ⟨rfl, rfl⟩, by decide,
    admissible_replyFrame, hsent, hsilent, fun harrive => ?_⟩
  obtain ⟨call, info, -, -, hcalled⟩ := harrive.handedOver [⟨⟨0, replyFrame⟩, fun _ => 50⟩]
    (by simp [hsent]) ⟨⟨1, replyFrame⟩, fun _ => 50⟩ (by simp [hsent]) (by simp)
  have hcalls := (calls_iff _).mpr ⟨_, info, hcalled⟩
  exact Bool.false_ne_true (hsilent.symm.trans hcalls)

end Pjon.Proofs.Replies
