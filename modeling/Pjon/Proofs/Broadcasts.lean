import Pjon.Proofs.VirtualBus
/-!
# Broadcasts on a virtual bus

Broadcasts go through the table of the devices as well.  They reach all parts of the virtual
bus as long as no packet came from a device 0.
-/

namespace Pjon.Proofs.Broadcasts

open Pjon.Lib Pjon.Model Pjon.Spec Pjon.Proofs.Forward Pjon.Proofs.Switch Pjon.Proofs.Identity
open Pjon.Proofs.Interop Pjon.Proofs.Recompose Pjon.Proofs.Canonical Pjon.Proofs.HandOn
open Pjon.Proofs.Arrivals Pjon.Proofs.Learning Pjon.Proofs.Locations Pjon.Proofs.Destinations
open Pjon.Proofs.VirtualBus

variable {r : RouterBuild} {n : Nat} {busId : Vector UInt8 4} {x v : VirtualBusRouter r n}

/-! ## Earlier traffic -/

/-- The router is connected as it was, and broadcasts are not bound to a bus. -/
structure Unbound (x v : VirtualBusRouter r n) : Prop where
  buses : SameBuses x.toSwitch v.toSwitch
  virtualBus : v.virtualBus = x.virtualBus
  via : v.via broadcast = none

theorem Unbound.isVirtualBus (h : Unbound x v) (hx : IsVirtualBus x busId) :
    IsVirtualBus v busId := by
  obtain ⟨i, hi, hid⟩ := hx
  exact ⟨i, h.virtualBus.trans hi, (h.buses.busId i).trans hid⟩

/-- Errors take devices out of the table only. -/
theorem via_of_errorFunction {i j : Fin n} {event : Event} {d : UInt8}
    (h : (v.errorFunction i event).via d = some j) : v.via d = some j := by
  by_cases hevent : NotLost event
  · rwa [errorFunction_of_notLost hevent] at h
  · simp only [NotLost, not_forall, not_not] at hevent
    obtain ⟨data, customPointer, rfl⟩ := hevent
    rw [VirtualBusRouter.errorFunction, VirtualBusRouter.handleSendError] at h
    simp only at h
    split at h
    · exact h
    · split_ifs at h with hpart hdevice hknown
      · rw [via_setVia v hdevice.1] at h
        split_ifs at h
        exact h
      · exact h
      · exact h
      · exact h

theorem unbound_update (h : Unbound x v) (currentBus : Fin n) (maxAttempts : UInt8)
    (turns : Fin r.maxPackets → Turn) :
    Unbound x (virtualStep v (.update currentBus maxAttempts turns)) := by
  obtain ⟨hswitch, hvirtual⟩ := toSwitch_virtualStep v currentBus maxAttempts turns
  refine ⟨?_, hvirtual.trans h.virtualBus, ?_⟩
  · rw [hswitch]
    exact h.buses.trans (sameBuses_update v.toSwitch currentBus maxAttempts turns)
  · have hstep : virtualStep v (.update currentBus maxAttempts turns) =
        ((v.bus currentBus).update maxAttempts turns).events.foldl
          (fun v event => v.errorFunction currentBus event.2)
          (v.setSwitch (v.toSwitch.update currentBus maxAttempts turns)) := rfl
    rw [hstep]
    refine List.foldlRecOn (motive := fun v : VirtualBusRouter r n => v.via broadcast = none)
      _ _ h.via
      fun v hv event _ => ?_
    rw [Option.eq_none_iff_forall_ne_some]
    intro i hi
    rw [via_of_errorFunction hi] at hv
    cases hv

/-- While a packet of another device is passed on, broadcasts are not bound to a bus. -/
theorem via_broadcast_registered (h : Unbound x v) (hx : IsVirtualBus x busId)
    {currentBus : Fin n} {delivery : Delivery} {surroundings : Nat → Surroundings}
    {info : PacketInfo} (hdelivered : Delivered (v.bus currentBus) delivery.bytes)
    (hseen : Seen (v.bus currentBus) delivery.bytes info)
    (hnot : ∀ i, ¬Heard busId broadcast i (v, .receive currentBus delivery surroundings)) :
    (registered v info currentBus).via broadcast = none := by
  rw [Option.eq_none_iff_forall_ne_some]
  intro i hi
  have hsender : ¬(info.tx.busId = busId ∧ info.tx.id = broadcast) := fun hsender =>
    hnot currentBus ((heard_iff hdelivered hseen).mpr ⟨hsender, rfl⟩)
  rw [via_registered (h.isVirtualBus hx) info currentBus (lt_of_via hi), if_neg hsender,
    h.via] at hi
  cases hi

theorem unbound_step (hslots : r.maxPackets ≠ 0) (hx : IsVirtualBus x busId) (h : Unbound x v)
    {traffic : Traffic r n} (hleaves : LeavesBroadcasts busId v traffic) :
    Unbound x (virtualStep v traffic) := by
  cases traffic with
  | update currentBus maxAttempts turns => exact unbound_update h currentBus maxAttempts turns
  | receive currentBus delivery surroundings =>
      obtain ⟨hwithin, hnot⟩ := hleaves
      rcases receive_cases hslots hwithin with ⟨-, hsame⟩ | ⟨info, hdelivered, hseen, hsame⟩
      · refine ⟨h.buses.trans hsame.buses, hsame.virtualBus.trans h.virtualBus, ?_⟩
        rw [hsame.via, h.via]
      · obtain ⟨hbuses, hvirtual⟩ := sameBuses_registered v info currentBus
        refine ⟨h.buses.trans (hbuses.trans hsame.buses),
          hsame.virtualBus.trans (hvirtual.trans h.virtualBus), ?_⟩
        rw [hsame.via]
        exact via_broadcast_registered h hx hdelivered hseen hnot

theorem unbound_run (hslots : r.maxPackets ≠ 0) (hx : IsVirtualBus x busId)
    (hstart : x.via broadcast = none) (traffic : List (Traffic r n))
    (hall : ∀ u ∈ Run.steps virtualStep x traffic, LeavesBroadcasts busId u.1 u.2) :
    Unbound x (Run.final virtualStep x traffic) := by
  have hstep (v : VirtualBusRouter r n) (traffic : Traffic r n) (h : Unbound x v)
      (hleaves : LeavesBroadcasts busId v traffic) : Unbound x (virtualStep v traffic) :=
    unbound_step hslots hx h hleaves
  exact Run.invariant_of_allowed hstep ⟨SameBuses.refl _, rfl, hstart⟩ traffic hall

/-! ## One broadcast -/

section Broadcast

variable {payload : Payload} {info : PacketInfo} {receiver : Bus r.toBuild} {s : List UInt8}
  (hadm : Admissible receiver s) (hpayload : payload.bytes = payloadOf s)
  (hseen : Seen receiver s info)

include hadm hpayload hseen

/-- What is handed on of a broadcast, with any address translated, is a broadcast. -/
theorem broadcast_handedOn (hbroadcast : byte s 0 = broadcast) {currentBus i : Fin n}
    {frame : List UInt8}
    (h : HandedOn r (v.translate i currentBus
      { info with header := info.header &&& ~~~ackReqBit }) payload frame) :
    payloadOf frame = payloadOf s ∧ byte frame 0 = broadcast ∧
      ((∀ j, v.isNat j = false) → CopyOf r.toBuild s frame false) := by
  obtain ⟨-, sender, hsender, rfl⟩ := h
  have hpassed := passedOn_clear (passedOn_resent (resent_seen hseen info.hops))
  have htranslated := passedOn_translate hpassed v.toSwitch i currentBus
  have hsendable := sendable_copy hadm hpayload r.shared htranslated sender
  refine ⟨(payloadOf_bytesOf hsendable).trans hpayload, ?_, fun hnotNat => ?_⟩
  · rw [byte_zero_bytesOf hsendable]
    exact htranslated.recipient.trans hbroadcast
  · have htranslate := Transparent.translate_of_not_nat (hnotNat currentBus) (hnotNat i)
      { info with header := info.header &&& ~~~ackReqBit }
    rw [htranslate] at hsender ⊢
    have hrx := congrArg (fun info : PacketInfo => info.rx.busId) hseen.fields
    have hid := congrArg (fun info : PacketInfo => info.tx.id) hseen.fields
    have hbus := congrArg (fun info : PacketInfo => info.tx.busId) hseen.fields
    have hcopy := copyOf_bytesOf hadm hpayload r.shared hpassed sender hsender hrx hid hbus
    rw [has_clear_self, Bool.false_and] at hcopy
    exact hcopy

end Broadcast

/-- The bus has in a slot, which was free before, what handing `info` on gives. -/
def HoldsHanded (info : PacketInfo) (payload : Payload) (before bus : Bus r.toBuild) : Prop :=
  ∃ k, (before.slot k).state = 0 ∧ (bus.slot k).state ≠ 0 ∧
    HandedOn r info payload (slotFrame bus k)

theorem holdsHanded_handOn {bus : Bus r.toBuild} {info : PacketInfo} {payload : Payload}
    (hsend : ∀ sender : Bus r.toBuild,
      Sendable r.toBuild (sender.completeInfo (hopped info)) payload) (hroom : HasRoom bus)
    (hwithin : WithinHops r.maxHops info) (surroundings : Surroundings) :
    HoldsHanded info payload bus (Switch.handOn bus info payload surroundings).bus := by
  have hqueued : ∃ frame, frame ∈
      queued bus (Switch.handOn bus info payload surroundings).bus := by
    rw [queued_handOn hsend hroom hwithin]
    exact ⟨_, List.mem_singleton_self _⟩
  obtain ⟨frame, hmem⟩ := hqueued
  obtain ⟨k, hfree, hused, -⟩ := mem_queued.mp hmem
  exact ⟨k, hfree, hused, handOn_slot_free hsend hfree hused⟩

/-- What else is handed on goes to other slots. -/
theorem holdsHanded_keeps {before bus : Bus r.toBuild} {info info' : PacketInfo}
    {payload payload' : Payload} (h : HoldsHanded info payload before bus)
    (surroundings : Surroundings) :
    HoldsHanded info payload before (Switch.handOn bus info' payload' surroundings).bus := by
  obtain ⟨k, hfree, hused, hframe⟩ := h
  have hslot : (Switch.handOn bus info' payload' surroundings).bus.slot k = bus.slot k :=
    handOn_slot_used hused
  refine ⟨k, hfree, ?_, ?_⟩
  · rwa [hslot]
  · rwa [slotFrame, hslot]

/-- A broadcast on a virtual bus that is bound to no bus goes to all other parts. -/
theorem takesBroadcast {currentBus : Fin n} {delivery : Delivery} (hv : IsVirtualBus v busId)
    (hdelivered : Delivered (v.bus currentBus) delivery.bytes)
    (hhops : (infoOf (v.bus currentBus) delivery.bytes).hops < r.maxHops)
    (hbus : (infoOf (v.bus currentBus) delivery.bytes).rx.busId = busId)
    (hbroadcast : byte delivery.bytes 0 = broadcast) (hroom : ∀ i, HasRoom (v.bus i))
    (surroundings : Nat → Surroundings)
    (hvia : ∀ info, Seen (v.bus currentBus) delivery.bytes info →
      (registered v info currentBus).via broadcast = none) {i : Fin n}
    (hpart : v.busId i = busId) (hi : i ≠ currentBus) :
    TakesBroadcast v (v.bus i) ((v.receive currentBus delivery surroundings).state.bus i)
      delivery.bytes := by
  have hslots : r.maxPackets ≠ 0 := (hroom i).elim fun k _ => (Fin.pos k).ne'
  have hadm := hdelivered.toAdmissible
  obtain ⟨payload, info, hpayload, hseen, hreceive⟩ := receive_virtual hdelivered surroundings
  have hpassing := passing_registered currentBus delivery hv info
  have hvia' : (registered (arrived v currentBus delivery) info currentBus).via broadcast =
      none := by
    rw [← hvia info hseen]
    exact (sameLocations_registered (sameLocations_arrived v currentBus delivery) info
      currentBus).via broadcast
  generalize hw : registered (arrived v currentBus delivery) info currentBus = w
    at hpassing hvia'
  have hwithin : WithinHops r.maxHops info := by
    rw [← withinHops_withoutMacs, hseen.fields]
    exact withinHops_of_lt hhops
  have htarget : targetOf info = busId := by
    have hfield := congrArg (fun info : PacketInfo => info.rx.busId) hseen.fields
    exact (targetOf_seen hseen).trans (hfield.trans hbus)
  have hfind : w.findVbusWithDevice info.rx.busId info.rx.id = none := by
    rw [VirtualBusRouter.findVbusWithDevice, recipient_seen hseen, hbroadcast, hvia', ite_self]
  have hrouting := receiverFunction_unknown (arrived v currentBus delivery) currentBus payload
    info surroundings (hw ▸ hfind)
  rw [hw] at hrouting
  have hstate : (v.receive currentBus delivery surroundings).state =
      (dynamicReceiverFunction (fun v : VirtualBusRouter r n => v.findAttachedBusWithId)
        (fun turn => VirtualBusRouter.sendPacket payload currentBus info true
          (surroundings turn)) w.defaultGateway currentBus info w).state := by
    rw [hreceive, ← hrouting]
    rfl
  have hinfo : infoFor w i info = { info with header := info.header &&& ~~~ackReqBit } := by
    rw [infoFor, (hpassing.isVbus _).mpr ((hpassing.buses.busId i).trans hpart)]
    rfl
  have hsend (sender : Bus r.toBuild) :=
    sendable_copy hadm hpayload r.shared (passedOn_translate (passedOn_clear (passedOn_resent
      (resent_seen hseen info.hops))) v.toSwitch i currentBus) sender
  have htakes : HoldsHanded (v.translate i currentBus
      { info with header := info.header &&& ~~~ackReqBit }) payload (v.bus i)
      ((v.receive currentBus delivery surroundings).state.bus i) := by
    rw [hstate]
    refine holds_search (s := w.toSwitch)
      (sendsBy_virtual w currentBus payload info surroundings hslots hwithin)
      (SameLocations.refl w)
      (fun w' (hsame : SameLocations w w') =>
        funext fun start => hsame.buses.find (targetOf info) start) i (fun turn => ?_)
      (fun turn bus hbus => ?_) ?_ hi
    · rw [hinfo, hpassing.buses.translate, hpassing.bus i hi]
      exact holdsHanded_handOn hsend (hroom i) hwithin _
    · exact holdsHanded_keeps hbus _
    · rw [count_reached, hpassing.buses.busId, hpart, htarget, if_pos rfl]
      omega
  obtain ⟨k, hfree, hused, hframe⟩ := htakes
  exact ⟨_, mem_queued.mpr ⟨k, hfree, hused, rfl⟩,
    broadcast_handedOn hadm hpayload hseen hbroadcast hframe⟩

/-! ## Broadcasts -/

/-- On a virtual bus, after any packets and errors, a broadcast is queued on all other parts, if
no packet was received from a device 0 of the virtual bus and none that was to be forwarded
was over the hop limit. -/
theorem broadcast_reaches_parts (x : VirtualBusRouter r n) (hx : IsVirtualBus x busId)
    (hunknown : ∀ d, x.via d = none) (traffic : List (Traffic r n)) (currentBus : Fin n)
    (delivery : Delivery) (surroundings : Nat → Surroundings)
    (hall : ∀ u ∈ Run.steps virtualStep x
      (traffic ++ [.receive currentBus delivery surroundings]), LeavesBroadcasts busId u.1 u.2)
    (v : VirtualBusRouter r n) (hv : v = Run.final virtualStep x traffic)
    (hdelivered : Delivered (v.bus currentBus) delivery.bytes)
    (hhops : (infoOf (v.bus currentBus) delivery.bytes).hops < r.maxHops)
    (hbus : (infoOf (v.bus currentBus) delivery.bytes).rx.busId = busId)
    (hbroadcast : byte delivery.bytes 0 = broadcast) (hroom : ∀ i, HasRoom (v.bus i)) (i : Fin n)
    (hpart : v.busId i = busId) (hi : i ≠ currentBus) :
    TakesBroadcast v (v.bus i) ((v.receive currentBus delivery surroundings).state.bus i)
      delivery.bytes := by
  have hslots : r.maxPackets ≠ 0 := (hroom i).elim fun k _ => (Fin.pos k).ne'
  rw [Run.steps_append, List.forall_mem_append] at hall
  obtain ⟨hbefore, hlast⟩ := hall
  rw [Run.steps_cons, Run.steps_nil, List.forall_mem_singleton, ← hv] at hlast
  have hunbound := unbound_run hslots hx (hunknown broadcast) traffic hbefore
  rw [← hv] at hunbound
  exact takesBroadcast (hunbound.isVirtualBus hx) hdelivered hhops hbus hbroadcast hroom
    surroundings (fun info hseen => via_broadcast_registered hunbound hx hdelivered hseen
      hlast.2) hpart hi

/-- A broadcast on the virtual bus of `twoParts`. -/
def toAll : Delivery := ⟨[0, 1, 11, 219, 0, 0, 0, 1, 0, 65, 107], fun _ => 50⟩

/-- A letter that says it is from device 0 of the virtual bus. -/
def fromNobody : Delivery :=
  ⟨[12, 35, 19, 147, 0, 0, 0, 1, 0, 0, 0, 1, 0, 0, 65, 68, 98, 123, 5], fun _ => 50⟩

theorem broadcast_reaches_parts_toAll :
    TakesBroadcast (heardOn 1) ((heardOn 1).bus 1)
      (((heardOn 1).receive 0 toAll fun _ => {}).state.bus 1) toAll.bytes := by
  have hcalls : calls (((heardOn 1).bus 0).receive toAll) = true := by decide +kernel
  refine broadcast_reaches_parts twoParts installed_twoParts.virtualBus installed_twoParts.unknown
    [.receive 1 fromDevice fun _ => {}] 0 toAll (fun _ => {}) ?_ (heardOn 1) rfl
    (delivered_of_calls hcalls) (by decide) (by decide) rfl
    (fun i => ⟨⟨4, by decide⟩, by revert i; decide +kernel⟩) 1 (by decide +kernel) (by decide)
  rw [List.singleton_append, Run.steps_cons, Run.steps_cons, Run.steps_nil, List.forall_mem_cons,
    List.forall_mem_singleton]
  constructor
  · refine ⟨by decide +kernel, ?_⟩
    rintro i ⟨delivery, surroundings, htraffic, -, -, hid⟩
    obtain ⟨rfl, rfl, -⟩ := Traffic.receive.inj htraffic
    have hdevice : (45 : UInt8) = broadcast := hid
    exact absurd hdevice (by decide)
  · refine ⟨by decide +kernel, ?_⟩
    rintro i ⟨delivery, surroundings, htraffic, -, -, hid⟩
    obtain ⟨rfl, rfl, -⟩ := Traffic.receive.inj htraffic
    have hnobody : notAssigned = broadcast := hid
    exact absurd hnobody (by decide)

/-- `twoParts` after a packet of device 0 came in on bus 0. -/
def boundToFirst : VirtualBusRouter routing 3 :=
  Run.final virtualStep twoParts [.receive firstBus fromNobody fun _ => {}]

/-- Broadcasts that come in on bus 0 are not forwarded any more. -/
theorem boundToFirst_keeps_broadcast :
    Installed (busIdOf 1) twoParts ∧
      Delivered (boundToFirst.bus 0) toAll.bytes ∧
      (infoOf (boundToFirst.bus 0) toAll.bytes).hops < routing.maxHops ∧
      (infoOf (boundToFirst.bus 0) toAll.bytes).rx.busId = busIdOf 1 ∧
      byte toAll.bytes 0 = broadcast ∧
      (∀ i, HasRoom (boundToFirst.bus i)) ∧ boundToFirst.busId 1 = busIdOf 1 ∧
      ¬TakesBroadcast boundToFirst (boundToFirst.bus 1)
        ((boundToFirst.receive 0 toAll fun _ => {}).state.bus 1) toAll.bytes := by
  have hcalls : calls ((boundToFirst.bus 0).receive toAll) = true := by decide +kernel
  refine ⟨installed_twoParts, delivered_of_calls hcalls, by decide +kernel, by decide +kernel,
    rfl, fun i => ⟨⟨4, by decide⟩, by revert i; decide +kernel⟩, by decide +kernel, ?_⟩
  rintro ⟨frame, hqueued, -⟩
  have hnothing : queued (boundToFirst.bus 1)
      ((boundToFirst.receive 0 toAll fun _ => {}).state.bus 1) = [] := by decide +kernel
  rw [hnothing] at hqueued
  cases hqueued

end Pjon.Proofs.Broadcasts
