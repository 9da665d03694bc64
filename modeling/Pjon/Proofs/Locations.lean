import Pjon.Proofs.Arrivals
import Pjon.Proofs.Identity
import Pjon.Proofs.Learning
import Pjon.Proofs.Update
/-!
# Where a virtual bus router knows its devices

The router knows a device to be on a bus exactly if it was last heard there and no packet
for it has been lost there since.  Receiving adds what was heard, errors take away what was
lost, and forwarding changes neither.
-/

namespace Pjon.Proofs.Locations

open Pjon.Lib Pjon.Model Pjon.Spec Pjon.Proofs.Forward Pjon.Proofs.Switch Pjon.Proofs.Identity
open Pjon.Proofs.Canonical Pjon.Proofs.Learning

variable {r : RouterBuild} {n : Nat}

/-! ## Errors -/

/-- The event does not report a lost packet. -/
def NotLost (event : Event) : Prop := ∀ data customPointer,
  event ≠ .error connectionLost data customPointer

theorem errorFunction_of_notLost {event : Event} (h : NotLost event) (v : VirtualBusRouter r n)
    (i : Fin n) : v.errorFunction i event = v := by
  cases event with
  | error code data customPointer =>
      have hcode : code ≠ connectionLost := fun hcode => h data customPointer (by rw [hcode])
      rw [VirtualBusRouter.errorFunction, VirtualBusRouter.handleSendError]
      simp only [hcode, false_and, if_false]
      split <;> rfl
  | sendFrame frame => rfl
  | sendResponse response => rfl
  | receiver payload info => rfl

theorem notLost_dispatch {b : Build} (bus : Bus b) (info : PacketInfo) (payload : Payload)
    (timing now : UInt32) (packetIndex : Nat) :
    ∀ event ∈ (bus.dispatch info payload timing now packetIndex).events, NotLost event := by
  have hfull : packetsBufferFull ≠ connectionLost := by decide
  have hlong : contentTooLong ≠ connectionLost := by decide
  have hcomposed (destination : Memory) :
      ∀ event ∈ (bus.composePacket info destination payload).events, NotLost event := by
    unfold Bus.composePacket
    simp only
    split_ifs <;> simp [NotLost, hlong]
  unfold Bus.dispatch
  split
  · simp [NotLost, hfull]
  · simp only
    split_ifs <;> exact hcomposed _

/-- A bus that has a send buffer reports no loss while it forwards. -/
theorem notLost_handOn (hslots : r.maxPackets ≠ 0) (bus : Bus r.toBuild) (info : PacketInfo)
    (payload : Payload) (surroundings : Surroundings) :
    ∀ event ∈ (Switch.handOn bus info payload surroundings).events, NotLost event := by
  rw [Switch.handOn, if_neg hslots, Bus.forward]
  by_cases hpasses : Passes r.toBuild r.maxHops info
  · rw [forwardBy_of_passes _ _ _ _ hpasses]
    exact notLost_dispatch _ _ _ _ _ _
  · rw [forwardBy_of_not_passes _ _ _ _ hpasses]
    simp

theorem foldl_errorFunction {events : List Event} (h : ∀ event ∈ events, NotLost event)
    (v : VirtualBusRouter r n) (i : Fin n) :
    events.foldl (fun v event => v.errorFunction i event) v = v := by
  rw [List.foldl_ext _ (fun v _ => v) v fun v event hevent =>
    errorFunction_of_notLost (h event hevent) v i]
  exact List.foldl_fixed events

/-! ## Forwarding one packet -/

section SendPacket

variable (hslots : r.maxPackets ≠ 0) (v : VirtualBusRouter r n) (payload : Payload)
  (senderBus : Fin n) (info : PacketInfo) (unknownDeviceLocation : Bool)
  (surroundings : Surroundings) (receiverBus : Fin n) (ackSent : Bool)

include hslots

theorem foldl_sendPacket (s : Switch r n) (v : VirtualBusRouter r n) :
    ((s.sendPacket payload senderBus info surroundings receiverBus ackSent).events.filterMap
      fun event => if event.1 = receiverBus then some event.2 else none).foldl
        (fun v event => v.errorFunction receiverBus event) v = v := by
  refine foldl_errorFunction (fun event hevent => ?_) v receiverBus
  obtain ⟨inner, hinner, hsome⟩ := List.mem_filterMap.mp hevent
  split_ifs at hsome
  obtain rfl := Option.some.inj hsome
  rw [Switch.sendPacket] at hinner
  simp only at hinner
  rcases List.mem_append.mp hinner with hack | hhanded
  · split_ifs at hack
    · obtain rfl := List.mem_singleton.mp hack
      simp [NotLost]
    · simp at hack
  · obtain ⟨event, hmem, rfl⟩ := List.mem_map.mp hhanded
    exact notLost_handOn hslots _ _ _ _ event hmem

/-- Where the device is known, or not looked for, `send_packet` is that of the switch. -/
theorem sendPacket_of_known
    (h : (unknownDeviceLocation && v.isVbus (v.busId receiverBus)) = false) :
    v.sendPacket payload senderBus info unknownDeviceLocation surroundings receiverBus ackSent =
      let sent := v.toSwitch.sendPacket payload senderBus info surroundings receiverBus ackSent
      { sent with state := v.setSwitch sent.state } := by
  rw [VirtualBusRouter.sendPacket]
  simp only [h, Bool.false_eq_true, if_false]
  rw [foldl_sendPacket hslots]

/-- A part of the virtual bus that may not have the device gets a copy that asks for no
acknowledgement, and none is sent for it. -/
theorem sendPacket_of_unknown
    (h : (unknownDeviceLocation && v.isVbus (v.busId receiverBus)) = true) :
    v.sendPacket payload senderBus info unknownDeviceLocation surroundings receiverBus ackSent =
      let sent := v.toSwitch.sendPacket payload senderBus
        { info with header := info.header &&& ~~~ackReqBit } surroundings receiverBus true
      { sent with state := v.setSwitch sent.state, ackSent := ackSent } := by
  rw [VirtualBusRouter.sendPacket]
  simp only [h, if_true]
  rw [foldl_sendPacket hslots]

end SendPacket

/-! ## What stays while a packet is forwarded -/

/-- The buses are configured, and the devices known, as before. -/
structure SameLocations (v v' : VirtualBusRouter r n) : Prop where
  buses : SameBuses v.toSwitch v'.toSwitch
  virtualBus : v'.virtualBus = v.virtualBus
  locations : v'.deviceViaAttachedBus = v.deviceViaAttachedBus

namespace SameLocations

theorem refl (v : VirtualBusRouter r n) : SameLocations v v := ⟨SameBuses.refl _, rfl, rfl⟩

theorem trans {v v' v'' : VirtualBusRouter r n} (h : SameLocations v v')
    (h' : SameLocations v' v'') : SameLocations v v'' :=
  ⟨h.buses.trans h'.buses, h'.virtualBus.trans h.virtualBus, h'.locations.trans h.locations⟩

theorem setSwitch (v : VirtualBusRouter r n) {s : Switch r n} (h : SameBuses v.toSwitch s) :
    SameLocations v (v.setSwitch s) := ⟨h, rfl, rfl⟩

variable {v v' : VirtualBusRouter r n} (h : SameLocations v v')

include h

theorem isVbus (busId : Vector UInt8 4) : v'.isVbus busId = v.isVbus busId := by
  rw [VirtualBusRouter.isVbus, VirtualBusRouter.isVbus, h.virtualBus]
  cases v.virtualBus with
  | none => rfl
  | some i => exact congrArg (· == busId) (h.buses.busId i)

theorem via (d : UInt8) : v'.via d = v.via d := by
  rw [VirtualBusRouter.via, VirtualBusRouter.via, h.locations]

theorem isVirtualBus {busId : Vector UInt8 4} (hv : IsVirtualBus v busId) :
    IsVirtualBus v' busId := by
  obtain ⟨i, hi, hid⟩ := hv
  exact ⟨i, h.virtualBus.trans hi, (h.buses.busId i).trans hid⟩

end SameLocations

theorem keepsEndpoint_iff {v v' : VirtualBusRouter r n} (h : SameBuses v.toSwitch v'.toSwitch)
    (call : Forwarded n) : KeepsEndpoint v' call ↔ KeepsEndpoint v call := by
  rw [KeepsEndpoint, KeepsEndpoint, (h.settings call.receiverBus).tx]

/-- What the search finds has the bus id that is looked for. -/
theorem busId_of_found {s : Switch r n} {busId : Vector UInt8 4} {start : UInt8} {i : Fin n}
    (h : (s.findAttachedBusWithId busId start).1 = some i) : s.busId i = busId := by
  rw [Switch.findAttachedBusWithId] at h
  cases hfirst : Search.first (fun i => busId == s.busId i) start.toNat with
  | none => simp [hfirst] at h
  | some j =>
      obtain ⟨-, htest⟩ := Search.first_spec hfirst
      simp only [hfirst, Option.some.injEq] at h
      subst h
      exact (beq_iff_eq.mp htest).symm

theorem isVbus_iff {v : VirtualBusRouter r n} {busId : Vector UInt8 4} (h : IsVirtualBus v busId)
    (id : Vector UInt8 4) : v.isVbus id = true ↔ id = busId := by
  obtain ⟨i, hi, rfl⟩ := h
  rw [VirtualBusRouter.isVbus, hi]
  exact beq_iff_eq.trans eq_comm

theorem sameLocations_sendPacket (hslots : r.maxPackets ≠ 0) (v : VirtualBusRouter r n)
    (payload : Payload) (senderBus : Fin n) {info : PacketInfo} (h : WithinHops r.maxHops info)
    (unknownDeviceLocation : Bool) (surroundings : Surroundings) (receiverBus : Fin n)
    (ackSent : Bool) :
    SameLocations v (v.sendPacket payload senderBus info unknownDeviceLocation surroundings
      receiverBus ackSent).state := by
  cases hknown : unknownDeviceLocation && v.isVbus (v.busId receiverBus)
  · rw [sendPacket_of_known hslots v payload senderBus info _ surroundings receiverBus ackSent
      hknown]
    exact SameLocations.setSwitch v (sameBuses_sendPacket _ _ _ _ _ _ _ h)
  · rw [sendPacket_of_unknown hslots v payload senderBus info _ surroundings receiverBus ackSent
      hknown]
    exact SameLocations.setSwitch v (sameBuses_sendPacket _ _ _ _ _ _ _ h)

/-- If the calls of `forward` leave the endpoints, what the router knows stays. -/
theorem preserves_locations_sendPacket (hslots : r.maxPackets ≠ 0) {v v' : VirtualBusRouter r n}
    (h : SameLocations v v') (payload : Payload) (senderBus : Fin n) (info : PacketInfo)
    (unknownDeviceLocation : Bool) (surroundings : Surroundings) (receiverBus : Fin n)
    (ackSent : Bool) :
    Preserves (KeepsEndpoint v) (SameLocations v) (v'.sendPacket payload senderBus info
      unknownDeviceLocation surroundings receiverBus ackSent) := by
  cases hknown : unknownDeviceLocation && v'.isVbus (v'.busId receiverBus)
  · rw [sendPacket_of_known hslots v' payload senderBus info _ surroundings receiverBus ackSent
      hknown]
    intro hall
    have hcall := (keepsEndpoint_iff h.buses _).mpr (hall _ (List.mem_singleton_self _))
    exact h.trans (SameLocations.setSwitch v' (sameBuses_sendPacket_of_keeps _ _ _ _ _ _ _ hcall))
  · rw [sendPacket_of_unknown hslots v' payload senderBus info _ surroundings receiverBus ackSent
      hknown]
    intro hall
    have hcall := (keepsEndpoint_iff h.buses _).mpr (hall _ (List.mem_singleton_self _))
    exact h.trans (SameLocations.setSwitch v' (sameBuses_sendPacket_of_keeps _ _ _ _ _ _ _ hcall))

/-- The first thing that the receiver function does. -/
def registered (v : VirtualBusRouter r n) (info : PacketInfo) (currentBus : Fin n) :
    VirtualBusRouter r n :=
  if v.isVbus info.tx.busId then v.registerDeviceOnVbus info.tx.id currentBus else v

theorem lt_of_via {v : VirtualBusRouter r n} {d : UInt8} {i : Fin n} (h : v.via d = some i) :
    d.toNat < r.maxDevices := by
  by_contra hd
  rw [VirtualBusRouter.via, Vector.getElem?_eq_none (by omega)] at h
  cases h

theorem via_setVia (v : VirtualBusRouter r n) {d : UInt8} (hd : d.toNat < r.maxDevices)
    (bus : Option (Fin n)) (d' : UInt8) :
    (v.setVia d bus).via d' = if d = d' then bus else v.via d' := by
  rw [VirtualBusRouter.setVia, VirtualBusRouter.via, VirtualBusRouter.via]
  simp only
  rw [Vector.getElem?_setIfInBounds, if_pos hd]
  have hsame : d.toNat = d'.toNat ↔ d = d' := UInt8.toNat_inj
  simp only [hsame]
  split_ifs <;> rfl

theorem sameBuses_registered (v : VirtualBusRouter r n) (info : PacketInfo) (currentBus : Fin n) :
    SameBuses v.toSwitch (registered v info currentBus).toSwitch ∧
      (registered v info currentBus).virtualBus = v.virtualBus := by
  rw [registered, VirtualBusRouter.registerDeviceOnVbus]
  split_ifs
  all_goals exact ⟨SameBuses.refl v.toSwitch, rfl⟩

theorem preserves_locations_receiverFunction (hslots : r.maxPackets ≠ 0)
    (v : VirtualBusRouter r n) (currentBus : Fin n) (payload : Payload) (info : PacketInfo)
    (surroundings : Nat → Surroundings) :
    Preserves (KeepsEndpoint (registered v info currentBus))
      (SameLocations (registered v info currentBus))
      (v.receiverFunction currentBus payload info surroundings) := by
  have hregistered : (if v.isVbus info.tx.busId then v.registerDeviceOnVbus info.tx.id currentBus
      else v) = registered v info currentBus := rfl
  have hrefl := SameLocations.refl (registered v info currentBus)
  rw [VirtualBusRouter.receiverFunction, hregistered]
  split
  · exact preserves_forwardPacket _ currentBus false hrefl fun i _ =>
      preserves_locations_sendPacket hslots hrefl payload currentBus info false _ i false
  · exact preserves_dynamicReceiverFunction currentBus info hrefl
      fun turn i ackSent _ _ hsame =>
        preserves_locations_sendPacket hslots hsame payload currentBus info true
          (surroundings turn) i ackSent

/-! ## What is heard -/

theorem via_registered {v : VirtualBusRouter r n} {busId : Vector UInt8 4}
    (hv : IsVirtualBus v busId) (info : PacketInfo) (currentBus : Fin n) {d : UInt8}
    (hd : d.toNat < r.maxDevices) :
    (registered v info currentBus).via d =
      if info.tx.busId = busId ∧ info.tx.id = d then some currentBus else v.via d := by
  rw [registered, VirtualBusRouter.registerDeviceOnVbus]
  simp only [isVbus_iff hv]
  split_ifs with hbus hregister hsender hsender hsender
  · rw [via_setVia _ hregister, if_pos hsender.2]
  · rw [via_setVia _ hregister, if_neg fun hid => hsender ⟨hbus, hid⟩]
  · exact absurd (hsender.2 ▸ hd) hregister
  · rfl
  · exact absurd hsender.1 hbus
  · rfl

theorem sameLocations_registered {v v' : VirtualBusRouter r n} (h : SameLocations v v')
    (info : PacketInfo) (currentBus : Fin n) :
    SameLocations (registered v info currentBus) (registered v' info currentBus) := by
  rw [registered, registered, h.isVbus]
  split_ifs
  · rw [VirtualBusRouter.registerDeviceOnVbus, VirtualBusRouter.registerDeviceOnVbus]
    split_ifs
    · exact ⟨h.buses, h.virtualBus, by
        rw [VirtualBusRouter.setVia, VirtualBusRouter.setVia, h.locations]⟩
    · exact h
  · exact h

/-- A packet that comes in is passed on with its sender registered. -/
theorem receive_cases (hslots : r.maxPackets ≠ 0) {v : VirtualBusRouter r n} {currentBus : Fin n}
    {delivery : Delivery} {surroundings : Nat → Surroundings}
    (hwithin : WithinLimit v (.receive currentBus delivery surroundings)) :
    (¬Delivered (v.bus currentBus) delivery.bytes ∧
        SameLocations v (virtualStep v (.receive currentBus delivery surroundings))) ∨
      ∃ info, Delivered (v.bus currentBus) delivery.bytes ∧
        Seen (v.bus currentBus) delivery.bytes info ∧
        SameLocations (registered v info currentBus)
          (virtualStep v (.receive currentBus delivery surroundings)) := by
  have hstep : virtualStep v (.receive currentBus delivery surroundings) =
      (v.receive currentBus delivery surroundings).state := rfl
  have hafter := SameLocations.setSwitch v (SameBuses.receive v.toSwitch currentBus delivery)
  rw [hstep, VirtualBusRouter.receive, receiveOn]
  rcases receiverCall_cases (v.bus currentBus) delivery with
    ⟨hnot, hcall⟩ | ⟨payload, info, hdelivered, hseen, -, hcall⟩
  · simp only [hcall]
    exact Or.inl ⟨hnot, hafter⟩
  · simp only [hcall]
    obtain ⟨hbuses, -⟩ := sameBuses_registered (afterReceive VirtualBusRouter.toSwitch
      VirtualBusRouter.setSwitch v currentBus delivery) info currentBus
    have hforwards : (v.receive currentBus delivery surroundings).forwards =
        (VirtualBusRouter.receiverFunction (afterReceive VirtualBusRouter.toSwitch
          VirtualBusRouter.setSwitch v currentBus delivery) currentBus payload info
            surroundings).forwards := by
      rw [VirtualBusRouter.receive, receiveOn]
      simp only [hcall]
      rfl
    refine Or.inr ⟨info, hdelivered, hseen, SameLocations.trans
      (sameLocations_registered hafter info currentBus)
      (preserves_locations_receiverFunction hslots _ currentBus payload info surroundings
        fun call hmem => ?_)⟩
    apply (keepsEndpoint_iff (hafter.buses.trans hbuses) call).mpr
    apply hwithin
    show call ∈ (v.receive currentBus delivery surroundings).forwards
    rw [hforwards]
    exact hmem

/-! ## What is lost -/

section Update

variable {b : Build}

theorem event_updateSlot (bus : Bus b) (maxAttempts : UInt8) (i : Fin b.maxPackets) (turn : Turn) :
    ∀ event ∈ (bus.updateSlot maxAttempts i turn).events,
      NotLost event ∨ ∃ customPointer, event = .error connectionLost i customPointer := by
  have hsent (packet : Memory) (length : Nat) (medium : Medium) :
      ∀ event ∈ (bus.sendComposed packet length medium).2, NotLost event := by
    unfold Bus.sendComposed
    split_ifs <;> simp [NotLost]
  have hturn : ∀ event ∈ (Update.turnSends bus i turn).2, NotLost event := by
    unfold Update.turnSends
    split_ifs
    · simp
    · exact hsent _ _ _
  unfold Bus.updateSlot
  simp only
  by_cases hfree : (bus.slot i).state = 0
  · simp [hfree]
  rw [if_neg hfree]
  by_cases hdue : turn.now - (bus.slot i).registration ≤ (bus.slot i).timing + turn.backOff
  · simp [hdue]
  rw [if_neg hdue]
  by_cases hack : (Update.turnSends bus i turn).1 = ack
  · rw [if_pos hack]
    exact fun event hevent => Or.inl (hturn event hevent)
  rw [if_neg hack]
  by_cases hlost : maxAttempts < (bus.slot i).attempts + 1
  · rw [if_pos hlost]
    intro event hevent
    rcases List.mem_append.mp hevent with hsending | herror
    · exact Or.inl (hturn event hsending)
    · exact Or.inr ⟨_, List.mem_singleton.mp herror⟩
  · rw [if_neg hlost]
    exact fun event hevent => Or.inl (hturn event hevent)

/-- The errors that `update` reports are packets that it gives up. -/
theorem event_updateFrom (maxAttempts : UInt8) (turns : Fin b.maxPackets → Turn)
    (slots : List (Fin b.maxPackets)) :
    ∀ bus : Bus b, ∀ event ∈ (bus.updateFrom maxAttempts turns slots).events,
      NotLost event.2 ∨ ∃ customPointer, event.2 = .error connectionLost event.1 customPointer := by
  induction slots with
  | nil => exact fun bus event hevent => absurd hevent List.not_mem_nil
  | cons i slots ih =>
      intro bus event hevent
      rw [Bus.updateFrom] at hevent
      rcases List.mem_append.mp hevent with hslot | hrest
      · obtain ⟨inner, hinner, rfl⟩ := List.mem_map.mp hslot
        exact event_updateSlot bus maxAttempts i (turns i) inner hinner
      · exact ih _ event hrest

theorem content_setSlot (bus : Bus b) {i : Fin b.maxPackets} {packet : Packet}
    (h : packet.content = (bus.slot i).content) (k : Fin b.maxPackets) :
    ((bus.setSlot i packet).slot k).content = (bus.slot k).content := by
  by_cases hi : i = k
  · subst hi
    rw [Bus.slot_setSlot, h]
  · rw [Bus.slot_setSlot_ne bus packet hi]

theorem content_updateSlot (bus : Bus b) (maxAttempts : UInt8) (i : Fin b.maxPackets)
    (turn : Turn) (k : Fin b.maxPackets) :
    ((bus.updateSlot maxAttempts i turn).bus.slot k).content = (bus.slot k).content := by
  have hturn : ((Update.turnSlot bus i turn).slot k).content = (bus.slot k).content :=
    content_setSlot bus (by rfl) k
  rcases Update.updateSlot_cases bus maxAttempts i turn with ⟨hbus, -⟩ | ⟨-, hbus | hbus, -⟩
  · rw [hbus]
  · rw [hbus, hturn]
  · rw [hbus, ← hturn]
    unfold Bus.resetPacket
    split_ifs
    · exact content_setSlot (Update.turnSlot bus i turn) (by rfl) k
    · rfl
    · exact content_setSlot (Update.turnSlot bus i turn) (by rfl) k

theorem content_updateFrom (maxAttempts : UInt8) (turns : Fin b.maxPackets → Turn)
    (k : Fin b.maxPackets) (slots : List (Fin b.maxPackets)) :
    ∀ bus : Bus b, ((bus.updateFrom maxAttempts turns slots).bus.slot k).content =
      (bus.slot k).content := by
  induction slots with
  | nil => exact fun _ => rfl
  | cons i slots ih =>
      intro bus
      exact (ih _).trans (content_updateSlot bus maxAttempts i (turns i) k)

end Update

section Errors

variable {busId : Vector UInt8 4} {i : Fin n}

theorem sameBuses_errorFunction (v : VirtualBusRouter r n) (i : Fin n) (event : Event) :
    (v.errorFunction i event).toSwitch = v.toSwitch ∧
      (v.errorFunction i event).virtualBus = v.virtualBus := by
  refine ⟨toSwitch_errorFunction v i event, ?_⟩
  cases event with
  | error code data customPointer =>
      rw [VirtualBusRouter.errorFunction, VirtualBusRouter.handleSendError]
      simp only
      split
      · rfl
      · split_ifs <;> rfl
  | sendFrame frame => rfl
  | sendResponse response => rfl
  | receiver payload info => rfl

/-- The packet in the slot is for the device `d` of the virtual bus. -/
abbrev IsFor (busId : Vector UInt8 4) (bus : Bus r.toBuild) (k : Fin r.maxPackets) (d : UInt8) :
    Prop :=
  (slotRecipient bus k).busId = busId ∧ (slotRecipient bus k).id = d

/-- A device that the router knows on a part of the virtual bus is forgotten when a packet for
it is lost there. -/
theorem via_lost {v : VirtualBusRouter r n} (hv : IsVirtualBus v busId) (k : Fin r.maxPackets)
    (hk : k.val < 256)
    (hpart : (slotRecipient (v.bus i) k).busId = busId →
      v.via (slotRecipient (v.bus i) k).id = some i → v.busId i = busId)
    (customPointer : Nat) {d : UInt8} (hd : d.toNat < r.maxDevices) (j : Fin n) :
    (v.errorFunction i (.error connectionLost k customPointer)).via d = some j ↔
      v.via d = some j ∧ ¬(j = i ∧ IsFor busId (v.bus i) k d) := by
  have hslots : r.maxPackets ≠ 0 := (Fin.pos k).ne'
  have hindex : (UInt8.ofNat k.val).toNat = k.val := by
    rw [UInt8.toNat_ofNat']
    omega
  rw [VirtualBusRouter.errorFunction, VirtualBusRouter.handleSendError]
  simp only [hindex, if_neg hslots, k.isLt, dif_pos, isVbus_iff hv, true_and]
  have hrecipient : ((v.bus i).parse ((v.bus i).slot ⟨k.val, k.isLt⟩).content).rx =
      slotRecipient (v.bus i) k := rfl
  have hid : (v.bus i).tx.busId = v.busId i := rfl
  have hkept (hnot : v.via d = some j → ¬(j = i ∧ IsFor busId (v.bus i) k d)) :
      v.via d = some j ↔ v.via d = some j ∧ ¬(j = i ∧ IsFor busId (v.bus i) k d) :=
    ⟨fun h => ⟨h, hnot h⟩, And.left⟩
  simp only [hrecipient, hid]
  split_ifs with honPart hfor hknown
  · rw [via_setVia v hfor.1]
    split_ifs with hd'
    · rw [hd'] at hknown
      simp [hknown, IsFor, hfor.2, hd', eq_comm]
    · exact hkept fun _ h => hd' h.2.2
  · exact hkept fun h hnot => hknown (by rw [hnot.2.2, h, hnot.1])
  · exact hkept fun _ hnot => hfor ⟨hnot.2.2 ▸ hd, hnot.2.1⟩
  · exact hkept fun h hnot => honPart (hpart hnot.2.1 (by rw [hnot.2.2, h, hnot.1]))

/-- The event reports that a packet for the device is lost. -/
def LosesTo (busId : Vector UInt8 4) (bus : Bus r.toBuild) (event : Fin r.maxPackets × Event)
    (d : UInt8) : Prop :=
  (∃ customPointer, event.2 = .error connectionLost event.1 customPointer) ∧
    IsFor busId bus event.1 d

/-- An error that is about a slot that the router can find, and not about a device that it knows
on a bus outside of the virtual bus. -/
def OnPart (busId : Vector UInt8 4) (v : VirtualBusRouter r n) (i : Fin n)
    (event : Fin r.maxPackets × Event) : Prop :=
  NotLost event.2 ∨ (∃ customPointer, event.2 = .error connectionLost event.1 customPointer) ∧
    event.1.val < 256 ∧ ((slotRecipient (v.bus i) event.1).busId = busId →
      v.via (slotRecipient (v.bus i) event.1).id = some i → v.busId i = busId)

theorem via_event {v : VirtualBusRouter r n} (hv : IsVirtualBus v busId)
    {event : Fin r.maxPackets × Event} (h : OnPart busId v i event) {d : UInt8}
    (hd : d.toNat < r.maxDevices) (j : Fin n) :
    (v.errorFunction i event.2).via d = some j ↔
      v.via d = some j ∧ (j = i → ¬LosesTo busId (v.bus i) event d) := by
  rcases h with hnot | ⟨⟨customPointer, hevent⟩, hk, hpart⟩
  · rw [errorFunction_of_notLost hnot]
    exact ⟨fun h => ⟨h, fun _ hloses => hloses.1.elim fun _ heq => hnot _ _ heq⟩, And.left⟩
  · rw [hevent, via_lost hv event.1 hk hpart customPointer hd j]
    apply and_congr_right
    intro _
    rw [not_and]
    refine imp_congr_right fun _ => not_congr ?_
    exact ⟨fun h => ⟨⟨customPointer, hevent⟩, h⟩, And.right⟩

/-- The errors of a bus, one after the other. -/
theorem via_foldl {d : UInt8} (hd : d.toNat < r.maxDevices) (j : Fin n)
    (events : List (Fin r.maxPackets × Event)) :
    ∀ v : VirtualBusRouter r n, IsVirtualBus v busId → (∀ event ∈ events, OnPart busId v i event) →
      ((events.foldl (fun v event => v.errorFunction i event.2) v).via d = some j ↔
        v.via d = some j ∧ ∀ event ∈ events, j = i → ¬LosesTo busId (v.bus i) event d) := by
  induction events with
  | nil => simp
  | cons event events ih =>
      intro v hv hevents
      rw [List.forall_mem_cons] at hevents
      obtain ⟨hswitch, hvirtual⟩ := sameBuses_errorFunction v i event.2
      have hbus : (v.errorFunction i event.2).bus i = v.bus i := by rw [hswitch]
      have hv' : IsVirtualBus (v.errorFunction i event.2) busId := by
        rw [IsVirtualBus, hvirtual, hswitch]
        exact hv
      have hlater : ∀ event' ∈ events, OnPart busId (v.errorFunction i event.2) i event' := by
        intro event' hmem
        rcases hevents.2 event' hmem with hnot | ⟨hlost, hk, hpart⟩
        · exact Or.inl hnot
        · refine Or.inr ⟨hlost, hk, ?_⟩
          rw [hbus, hswitch]
          intro hid hvia
          apply hpart hid
          rw [via_event hv hevents.1 (lt_of_via hvia)] at hvia
          exact hvia.1
      rw [List.foldl_cons, ih _ hv' hlater, via_event hv hevents.1 hd, hbus, and_assoc,
        List.forall_mem_cons]

end Errors

theorem toSwitch_virtualStep (v : VirtualBusRouter r n) (currentBus : Fin n) (maxAttempts : UInt8)
    (turns : Fin r.maxPackets → Turn) :
    (virtualStep v (.update currentBus maxAttempts turns)).toSwitch =
        v.toSwitch.update currentBus maxAttempts turns ∧
      (virtualStep v (.update currentBus maxAttempts turns)).virtualBus = v.virtualBus := by
  refine ⟨toSwitch_update v currentBus maxAttempts turns, ?_⟩
  have hstep : virtualStep v (.update currentBus maxAttempts turns) =
      v.update currentBus maxAttempts turns := rfl
  rw [hstep, VirtualBusRouter.update]
  generalize ((v.bus currentBus).update maxAttempts turns).events = events
  generalize hv' : v.setSwitch _ = v'
  have hvirtual : v'.virtualBus = v.virtualBus := by rw [← hv']; rfl
  clear hv'
  induction events generalizing v' with
  | nil => exact hvirtual
  | cons event events ih =>
      exact ih _ ((sameBuses_errorFunction v' currentBus event.2).2.trans hvirtual)

/-- An update forgets the devices that packets were lost for. -/
theorem via_update {busId : Vector UInt8 4} {v : VirtualBusRouter r n} (hv : IsVirtualBus v busId)
    {currentBus : Fin n} {maxAttempts : UInt8} {turns : Fin r.maxPackets → Turn}
    (hparts : LosesOnParts busId v (.update currentBus maxAttempts turns)) {d : UInt8}
    (hd : d.toNat < r.maxDevices) (j : Fin n) :
    (virtualStep v (.update currentBus maxAttempts turns)).via d = some j ↔
      v.via d = some j ∧ ¬Lost busId d j (v, .update currentBus maxAttempts turns) := by
  have hstep : virtualStep v (.update currentBus maxAttempts turns) =
      v.update currentBus maxAttempts turns := rfl
  have hsame := SameLocations.setSwitch v
    (sameBuses_update v.toSwitch currentBus maxAttempts turns)
  have hrecipient (k : Fin r.maxPackets) :
      slotRecipient ((v.toSwitch.update currentBus maxAttempts turns).bus currentBus) k =
        slotRecipient (v.bus currentBus) k := by
    rw [Switch.update, Switch.bus_setBus]
    exact congrArg (fun content => (Tools.parseHeader r.toBuild content).rx)
      (content_updateFrom maxAttempts turns k _ (v.bus currentBus))
  have hevents : ∀ event ∈ ((v.bus currentBus).update maxAttempts turns).events,
      OnPart busId (v.setSwitch (v.toSwitch.update currentBus maxAttempts turns)) currentBus
        event := by
    intro event hmem
    rcases event_updateFrom maxAttempts turns _ (v.bus currentBus) event hmem with
      hnot | ⟨customPointer, hlost⟩
    · exact Or.inl hnot
    · obtain ⟨hk, hpart⟩ := hparts event.1 ⟨customPointer, hlost ▸ hmem⟩
      refine Or.inr ⟨⟨customPointer, hlost⟩, hk, ?_⟩
      rw [hsame.via, hsame.buses.busId]
      exact hrecipient event.1 ▸ hpart
  rw [hstep, VirtualBusRouter.update]
  refine (via_foldl hd j _ _ (hsame.isVirtualBus hv) hevents).trans
    (and_congr (by rw [hsame.via]) ?_)
  constructor
  · rintro hnone ⟨maxAttempts', turns', k, htraffic, ⟨customPointer, hmem⟩, hfor⟩
    obtain ⟨rfl, rfl, rfl⟩ := Traffic.update.inj htraffic
    refine hnone _ hmem rfl ⟨⟨customPointer, rfl⟩, ?_⟩
    exact ⟨(congrArg Endpoint.busId (hrecipient k)).trans hfor.1,
      (congrArg Endpoint.id (hrecipient k)).trans hfor.2⟩
  · rintro hnot event hmem rfl ⟨⟨customPointer, hlost⟩, hfor⟩
    refine hnot ⟨maxAttempts, turns, event.1, rfl, ⟨customPointer, hlost ▸ hmem⟩, ?_⟩
    exact ⟨(congrArg Endpoint.busId (hrecipient event.1)).symm.trans hfor.1,
      (congrArg Endpoint.id (hrecipient event.1)).symm.trans hfor.2⟩

/-! ## Runs -/

/-- The router has the buses that it started with, and knows where devices were last heard. -/
structure Knows (busId : Vector UInt8 4) (x : VirtualBusRouter r n)
    (history : List (VirtualBusRouter r n × Traffic r n)) (v : VirtualBusRouter r n) : Prop where
  buses : SameBuses x.toSwitch v.toSwitch
  virtualBus : v.virtualBus = x.virtualBus
  located : ∀ d i, d.toNat < r.maxDevices → (v.via d = some i ↔ LocatedOn busId history d i)

section Runs

variable {busId : Vector UInt8 4} {x v : VirtualBusRouter r n}
  {history : List (VirtualBusRouter r n × Traffic r n)}

theorem locatedOn_append (d : UInt8) (i : Fin n) (u : VirtualBusRouter r n × Traffic r n) :
    LocatedOn busId (history ++ [u]) d i ↔
      Heard busId d i u ∨
        ((∀ j, ¬Heard busId d j u) ∧ ¬Lost busId d i u) ∧ LocatedOn busId history d i :=
  Run.since_append_singleton history u

/-- Whether the sender of a packet is heard is up to its info. -/
theorem heard_iff {d : UInt8} {i currentBus : Fin n} {delivery : Delivery}
    {surroundings : Nat → Surroundings} {info : PacketInfo}
    (hdelivered : Delivered (v.bus currentBus) delivery.bytes)
    (hseen : Seen (v.bus currentBus) delivery.bytes info) :
    Heard busId d i (v, .receive currentBus delivery surroundings) ↔
      (info.tx.busId = busId ∧ info.tx.id = d) ∧ currentBus = i := by
  have hbus := congrArg (fun info : PacketInfo => info.tx.busId) hseen.fields
  have hid := congrArg (fun info : PacketInfo => info.tx.id) hseen.fields
  constructor
  · rintro ⟨delivery', surroundings', htraffic, -, hsenderBus, hsender⟩
    obtain ⟨rfl, rfl, rfl⟩ := Traffic.receive.inj htraffic
    exact ⟨⟨hbus.trans hsenderBus, hid.trans hsender⟩, rfl⟩
  · rintro ⟨⟨rfl, rfl⟩, rfl⟩
    exact ⟨delivery, surroundings, rfl, hdelivered, hbus.symm, hid.symm⟩

/-- While a packet is passed on, the router knows of its sender already. -/
theorem located_registered (hv : IsVirtualBus v busId) (h : Knows busId x history v)
    {currentBus : Fin n} {delivery : Delivery} (surroundings : Nat → Surroundings)
    {info : PacketInfo} (hdelivered : Delivered (v.bus currentBus) delivery.bytes)
    (hseen : Seen (v.bus currentBus) delivery.bytes info) {d : UInt8}
    (hd : d.toNat < r.maxDevices) (i : Fin n) :
    (registered v info currentBus).via d = some i ↔
      LocatedOn busId (history ++ [(v, .receive currentBus delivery surroundings)]) d i := by
  have hlost : ¬Lost busId d i (v, .receive currentBus delivery surroundings) := by
    rintro ⟨maxAttempts, turns, k, htraffic, -⟩
    cases htraffic
  rw [via_registered hv info currentBus hd, locatedOn_append]
  simp only [heard_iff hdelivered hseen, hlost, not_false_eq_true, and_true]
  split_ifs with hsender
  · simp [hsender]
  · simp only [hsender, false_and, not_false_eq_true, implies_true, true_and, false_or]
    exact h.located d i hd

theorem knows_step (hslots : r.maxPackets ≠ 0) (hx : IsVirtualBus x busId)
    (h : Knows busId x history v) {traffic : Traffic r n} (hwithin : WithinLimit v traffic)
    (hparts : LosesOnParts busId v traffic) :
    Knows busId x (history ++ [(v, traffic)]) (virtualStep v traffic) := by
  have hv : IsVirtualBus v busId := by
    obtain ⟨i, hi, hid⟩ := hx
    exact ⟨i, h.virtualBus.trans hi, (h.buses.busId i).trans hid⟩
  cases traffic with
  | update currentBus maxAttempts turns =>
      obtain ⟨hswitch, hvirtual⟩ := toSwitch_virtualStep v currentBus maxAttempts turns
      refine ⟨?_, hvirtual.trans h.virtualBus, fun d i hd => ?_⟩
      · rw [hswitch]
        exact h.buses.trans (sameBuses_update v.toSwitch currentBus maxAttempts turns)
      · have hnot (j : Fin n) : ¬Heard busId d j (v, .update currentBus maxAttempts turns) := by
          rintro ⟨delivery, surroundings, htraffic, -⟩
          cases htraffic
        rw [via_update hv hparts hd, h.located d i hd, locatedOn_append]
        simp only [hnot, not_false_eq_true, implies_true, true_and, false_or]
        exact and_comm
  | receive currentBus delivery surroundings =>
      have hlost (d : UInt8) (i : Fin n) :
          ¬Lost busId d i (v, .receive currentBus delivery surroundings) := by
        rintro ⟨maxAttempts, turns, k, htraffic, -⟩
        cases htraffic
      rcases receive_cases hslots hwithin with ⟨hnot, hsame⟩ | ⟨info, hdelivered, hseen, hsame⟩
      · refine ⟨h.buses.trans hsame.buses, hsame.virtualBus.trans h.virtualBus, fun d i hd => ?_⟩
        have hheard (j : Fin n) :
            ¬Heard busId d j (v, .receive currentBus delivery surroundings) := by
          rintro ⟨delivery', surroundings', htraffic, hdelivered, -⟩
          obtain ⟨rfl, rfl, rfl⟩ := Traffic.receive.inj htraffic
          exact hnot hdelivered
        rw [hsame.via, h.located d i hd, locatedOn_append]
        simp [hheard, hlost]
      · obtain ⟨hbuses, hvirtual⟩ := sameBuses_registered v info currentBus
        refine ⟨h.buses.trans (hbuses.trans hsame.buses),
          hsame.virtualBus.trans (hvirtual.trans h.virtualBus), fun d i hd => ?_⟩
        rw [hsame.via]
        exact located_registered hv h surroundings hdelivered hseen hd i

/-- Along a run of packets within the hop limit and losses on parts of the virtual bus, the
router knows where the devices were last heard. -/
theorem knows_run (hslots : r.maxPackets ≠ 0) (hx : IsVirtualBus x busId)
    (hstart : ∀ d, x.via d = none) (traffic : List (Traffic r n))
    (hall : ∀ u ∈ Run.steps virtualStep x traffic,
      WithinLimit u.1 u.2 ∧ LosesOnParts busId u.1 u.2) :
    Knows busId x (Run.steps virtualStep x traffic) (Run.final virtualStep x traffic) := by
  induction traffic using List.reverseRecOn with
  | nil =>
      refine ⟨SameBuses.refl _, rfl, fun d i _ => ?_⟩
      simp [hstart, LocatedOn]
  | append_singleton traffic last ih =>
      rw [Run.steps_append, List.forall_mem_append] at hall
      obtain ⟨hbefore, hlast⟩ := hall
      rw [Run.steps_cons, Run.steps_nil, List.forall_mem_singleton] at hlast
      rw [Run.steps_append, Run.final_append]
      exact knows_step hslots hx (ih hbefore) hlast.1 hlast.2

end Runs

end Pjon.Proofs.Locations
