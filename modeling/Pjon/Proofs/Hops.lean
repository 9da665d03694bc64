import Pjon.Lib.Chain
import Pjon.Proofs.HandOn
import Pjon.Proofs.Destinations
import Pjon.Proofs.Identity
/-!
# How far a packet travels

Each class of switch or router passes a shared packet on with its hop count raised by one,
if that is within the limit.  The count is a `uint8_t`, and 255 wraps to 0 in front of the
comparison.
-/

namespace Pjon.Proofs.Hops

open Pjon.Lib Pjon.Model Pjon.Spec Pjon.Proofs.Forward Pjon.Proofs.HandOn Pjon.Proofs.Interop
open Pjon.Proofs.Recompose Pjon.Proofs.Switch Pjon.Proofs.Identity Pjon.Proofs.Destinations

variable {r : RouterBuild} {n : Nat} {σ : Type}

/-! ## The count of one packet -/

/-- `frame` is `s`, one hop further. -/
structure Hopped (maxHops : UInt8) (s frame : List UInt8) : Prop where
  count : hopCount frame = hopCount s + 1
  limit : hopCount s + 1 ≤ maxHops
  shared : has (header frame) modeBit

/-- An info that a member sends on for the packet `s`. -/
structure SentOn (r : RouterBuild) (s : List UInt8) (info : PacketInfo) : Prop
    extends PassedOn r.toBuild s info where
  hops : info.hops = hopCount s

theorem hops_parse {b : Build} (hshared : b.pjonLocal = false) {s : List UInt8}
    (hmode : has (header s) modeBit = true) : (Tools.parseHeader b (byte s)).hops = hopCount s := by
  have hbit : has (byte s 1) modeBit = true := hmode
  rw [Tools.parseHeader, hshared, hbit]
  rfl

section Count

variable {receiver : Bus r.toBuild} {s frame : List UInt8} {info : PacketInfo} {payload : Payload}
  (hadm : Admissible receiver s) (hpayload : payload.bytes = payloadOf s)

include hadm hpayload

theorem sendable_hopped (h : PassedOn r.toBuild s info) (sender : Bus r.toBuild) :
    Sendable r.toBuild (sender.completeInfo (hopped info)) payload :=
  sendable_passedOn hadm (passedOn_hopped h) hpayload sender r.shared

theorem hopped_of_handedOn (hmode : has (header s) modeBit = true) (h : SentOn r s info)
    (hframe : HandedOn r info payload frame) : Hopped r.maxHops s frame := by
  obtain ⟨hwithin, sender, -, rfl⟩ := hframe
  have hsendable := sendable_hopped hadm hpayload h.toPassedOn sender
  have hshared : has (header (bytesOf r.toBuild (sender.completeInfo (hopped info)) payload))
      modeBit = true := by
    rw [header_bytesOf hsendable, written, Layout.has_measure_mode,
      header_completeInfo hadm (passedOn_hopped h.toPassedOn)]
    exact (has_passedOn h.toPassedOn (by decide)).trans hmode
  have hrecovers := congrArg PacketInfo.hops (recovers_infoOf receiver hsendable).fields
  refine ⟨?_, ?_, hshared⟩
  · rw [← hops_parse r.shared hshared, ← h.hops]
    rw [header_bytesOf hsendable] at hshared
    apply hrecovers.trans
    simp only [withoutMacs, carried, if_pos hshared]
    rfl
  · rw [← h.hops]
    exact hwithin

end Count

/-! ## What the members emit -/

/-- From `s` on, what was put in free slots or on the medium is good. -/
structure Emits (good : List UInt8 → Prop) (s s' : Switch r n) (events : List (Fin n × Event)) :
    Prop where
  kept : ∀ i k, ((s.bus i).slot k).state ≠ 0 → (s'.bus i).slot k = (s.bus i).slot k
  taken : ∀ i k, ((s.bus i).slot k).state = 0 → ((s'.bus i).slot k).state ≠ 0 →
    good (slotFrame (s'.bus i) k)
  transmitted : ∀ i frame, (i, .sendFrame frame) ∈ events → good frame

namespace Emits

variable {good : List UInt8 → Prop} {s s' s'' : Switch r n} {events events' : List (Fin n × Event)}

theorem refl (good : List UInt8 → Prop) (s : Switch r n) : Emits good s s [] :=
  ⟨fun _ _ _ => rfl, fun _ _ hfree hused => absurd hfree hused,
    fun _ _ h => absurd h List.not_mem_nil⟩

theorem trans (h : Emits good s s' events) (h' : Emits good s' s'' events') :
    Emits good s s'' (events ++ events') := by
  refine ⟨fun i k hused => ?_, fun i k hfree hused => ?_, fun i frame hmem => ?_⟩
  · have hfirst := h.kept i k hused
    rw [h'.kept i k (by rwa [hfirst]), hfirst]
  · by_cases hmiddle : ((s'.bus i).slot k).state = 0
    · exact h'.taken i k hmiddle hused
    · have hlater := h'.kept i k hmiddle
      rw [slotFrame, hlater]
      exact h.taken i k hfree hmiddle
  · rcases List.mem_append.mp hmem with hfirst | hsecond
    · exact h.transmitted i frame hfirst
    · exact h'.transmitted i frame hsecond

theorem receive (good : List UInt8 → Prop) (s : Switch r n) (currentBus : Fin n)
    (delivery : Delivery) :
    Emits good s (s.setBus currentBus ((s.bus currentBus).receive delivery).bus) [] := by
  have hslot (i : Fin n) (k : Fin r.maxPackets) :
      ((s.setBus currentBus ((s.bus currentBus).receive delivery).bus).bus i).slot k =
        (s.bus i).slot k := by
    by_cases hi : currentBus = i
    · subst hi
      rw [Switch.bus_setBus, receive_slot]
    · rw [Switch.bus_setBus_ne s _ hi]
  refine ⟨fun i k _ => hslot i k, fun i k hfree hused => ?_,
    fun _ _ h => absurd h List.not_mem_nil⟩
  rw [hslot] at hused
  exact absurd hfree hused

/-- What a search emits, turn by turn. -/
theorem search (toSwitch : σ → Switch r n) {gateway : Option (Fin n)}
    {findBusWithId : σ → Vector UInt8 4 → UInt8 → Option (Fin n) × UInt8}
    {sendPacket : Nat → Fin n → Bool → σ → Routing σ n} (currentBus : Fin n) (info : PacketInfo)
    (state : σ)
    (hsend : ∀ turn i ackSent state, Emits good (toSwitch state)
      (toSwitch (sendPacket turn i ackSent state).state)
      (sendPacket turn i ackSent state).events) :
    Emits good (toSwitch state)
      (toSwitch (dynamicReceiverFunction findBusWithId sendPacket gateway currentBus info
        state).state)
      (dynamicReceiverFunction findBusWithId sendPacket gateway currentBus info state).events :=
  dynamicReceiverFunction_rule
    (fun routing => Emits good (toSwitch state) (toSwitch routing.state) routing.events)
    currentBus info (refl good _) fun turn i _ _ _ h => h.trans (hsend turn i _ _)

end Emits

/-! ## The members -/

section Members

variable {receiver : Bus r.toBuild} {s : List UInt8} {info : PacketInfo} {payload : Payload}
  (hadm : Admissible receiver s) (hpayload : payload.bytes = payloadOf s)
  (hmode : has (header s) modeBit = true) (h : SentOn r s info)

include h in
theorem sentOn_translate (state : Switch r n) (receiverBus senderBus : Fin n) :
    SentOn r s (state.translate receiverBus senderBus info) :=
  ⟨passedOn_translate h.toPassedOn state receiverBus senderBus, h.hops⟩

include h in
theorem sentOn_clear : SentOn r s { info with header := info.header &&& ~~~ackReqBit } :=
  ⟨passedOn_clear h.toPassedOn, h.hops⟩

include hadm hpayload hmode h

theorem emits_sendPacket (state : Switch r n) (senderBus : Fin n) (surroundings : Surroundings)
    (receiverBus : Fin n) (ackSent : Bool) :
    Emits (Hopped r.maxHops s) state
      (state.sendPacket payload senderBus info surroundings receiverBus ackSent).state
      (state.sendPacket payload senderBus info surroundings receiverBus ackSent).events := by
  have hsent := sentOn_translate h state receiverBus senderBus
  have hsend := sendable_hopped hadm hpayload hsent.toPassedOn
  refine ⟨fun i k hused => ?_, fun i k hfree hused => ?_, fun i frame hmem => ?_⟩
  · by_cases hi : receiverBus = i
    · subst hi
      rw [sendPacket_bus, handOn_slot_used hused]
    · rw [sendPacket_bus_ne _ _ _ _ _ _ _ hi]
  · by_cases hi : receiverBus = i
    · subst hi
      rw [sendPacket_bus] at hused ⊢
      exact hopped_of_handedOn hadm hpayload hmode hsent (handOn_slot_free hsend hfree hused)
    · rw [sendPacket_bus_ne _ _ _ _ _ _ _ hi] at hused
      exact absurd hfree hused
  · rw [Switch.sendPacket] at hmem
    simp only at hmem
    rcases List.mem_append.mp hmem with hack | hhanded
    · split_ifs at hack <;> simp at hack
    · obtain ⟨event, hevent, heq⟩ := List.mem_map.mp hhanded
      obtain ⟨-, rfl⟩ := Prod.mk.inj heq
      exact hopped_of_handedOn hadm hpayload hmode hsent (handOn_sendFrame hsend hevent)

theorem emits_sendPacket_virtual (v : VirtualBusRouter r n) (senderBus : Fin n)
    (unknownDeviceLocation : Bool) (surroundings : Surroundings) (receiverBus : Fin n)
    (ackSent : Bool) :
    Emits (Hopped r.maxHops s) v.toSwitch
      (v.sendPacket payload senderBus info unknownDeviceLocation surroundings receiverBus
        ackSent).state.toSwitch
      (v.sendPacket payload senderBus info unknownDeviceLocation surroundings receiverBus
        ackSent).events := by
  obtain ⟨header, flag, hheader, hstate, -, hevents⟩ := toSwitch_sendPacket v payload senderBus
    info unknownDeviceLocation surroundings receiverBus ackSent
  have hsent : SentOn r s { info with header := header } := by
    rcases hheader with rfl | rfl
    · exact h
    · exact sentOn_clear h
  rw [hstate, hevents]
  exact emits_sendPacket hadm hpayload hmode hsent v.toSwitch senderBus surroundings receiverBus
    flag

theorem emits_receiverFunction_virtual (v : VirtualBusRouter r n) (currentBus : Fin n)
    (surroundings : Nat → Surroundings) :
    Emits (Hopped r.maxHops s) v.toSwitch
      (v.receiverFunction currentBus payload info surroundings).state.toSwitch
      (v.receiverFunction currentBus payload info surroundings).events := by
  have hregistered : (if v.isVbus info.tx.busId then v.registerDeviceOnVbus info.tx.id currentBus
      else v).toSwitch = v.toSwitch := by
    split_ifs
    · exact toSwitch_registerDeviceOnVbus v info.tx.id currentBus
    · rfl
  rw [← hregistered, VirtualBusRouter.receiverFunction]
  generalize (if v.isVbus info.tx.busId then v.registerDeviceOnVbus info.tx.id currentBus
    else v) = v
  split
  · rw [forwardPacket]
    split_ifs
    · exact Emits.refl _ _
    · exact emits_sendPacket_virtual hadm hpayload hmode h v currentBus false _ _ false
  · exact Emits.search VirtualBusRouter.toSwitch currentBus info v fun turn i ackSent v =>
      emits_sendPacket_virtual hadm hpayload hmode h v currentBus true (surroundings turn) i ackSent

end Members

/-! ## The classes -/

section Classes

variable {currentBus : Fin n} {delivery : Delivery}
  (hmode : has (header delivery.bytes) modeBit = true)

include hmode

theorem sentOn_of_delivered {bus : Bus r.toBuild} {info : PacketInfo}
    (hinfo : withoutMacs info = withoutMacs (infoOf bus delivery.bytes)) :
    SentOn r delivery.bytes info := by
  have hheader := congrArg PacketInfo.header hinfo
  have hrecipient := congrArg (fun info : PacketInfo => info.rx.id) hinfo
  have hport := congrArg PacketInfo.port hinfo
  have hhops := congrArg PacketInfo.hops hinfo
  exact ⟨⟨Or.inl hheader, hrecipient, hport⟩, hhops.trans (hops_parse r.shared hmode)⟩

/-- What `receive` emits, if the receiver function emits nothing else. -/
theorem emits_receiveOn (switch : σ → Switch r n) {setSwitch : σ → Switch r n → σ}
    {receiverFunction : σ → Payload → PacketInfo → Routing σ n} {state : σ}
    (hset : ∀ state s, switch (setSwitch state s) = s)
    (hrouter : ((switch state).bus currentBus).router = true)
    (hfunction : ∀ (receiver : Bus r.toBuild) state payload info,
      Admissible receiver delivery.bytes → payload.bytes = payloadOf delivery.bytes →
      SentOn r delivery.bytes info →
      Emits (Hopped r.maxHops delivery.bytes) (switch state)
        (switch (receiverFunction state payload info).state)
        (receiverFunction state payload info).events) :
    Emits (Hopped r.maxHops delivery.bytes) (switch state)
      (switch (receiveOn switch setSwitch receiverFunction state currentBus delivery).state)
      (receiveOn switch setSwitch receiverFunction state currentBus delivery).events := by
  have hreceived := Emits.receive (Hopped r.maxHops delivery.bytes) (switch state) currentBus
    delivery
  by_cases h : Delivered ((switch state).bus currentBus) delivery.bytes
  · obtain ⟨info, hinfo, -, hreceive⟩ := receiveOn_of_delivered switch setSwitch receiverFunction
      hrouter h
    have hsent := sentOn_of_delivered hmode hinfo
    have hmember := hfunction _ (afterReceive switch setSwitch state currentBus delivery)
      (delivered h) info h.toAdmissible rfl hsent
    have hsilent : Emits (Hopped r.maxHops delivery.bytes) (switch state)
        (switch (afterReceive switch setSwitch state currentBus delivery))
        [(currentBus, .receiver (payloadOf delivery.bytes) info)] := by
      rw [afterReceive, hset]
      exact ⟨hreceived.kept, hreceived.taken, fun i frame hmem => by simp at hmem⟩
    rw [hreceive]
    exact hsilent.trans hmember
  · rw [receiveOn_of_not_delivered hrouter h]
    simp only [afterReceive, hset]
    exact hreceived

/-- Whatever the class, a shared packet is passed on one hop further or not at all. -/
theorem emits_receive {cls : RouterClass r n} (hcls : cls ∈ RouterClass.all r n) (x : cls.State)
    (hconnected : Connected (cls.switch x)) (currentBus : Fin n)
    (surroundings : Nat → Surroundings) :
    Emits (Hopped r.maxHops delivery.bytes) (cls.switch x)
      (cls.switch (cls.receive x currentBus delivery surroundings).state)
      (cls.receive x currentBus delivery surroundings).events := by
  have hrouter := hconnected currentBus
  simp only [RouterClass.all, List.mem_cons, List.not_mem_nil, or_false] at hcls
  rcases hcls with rfl | rfl | rfl | rfl
  · exact emits_receiveOn hmode id (fun _ _ => rfl) hrouter
      fun _ s payload info hadm hpayload h => Emits.search id currentBus info s
        fun turn i ackSent s => emits_sendPacket hadm hpayload hmode h s currentBus _ i ackSent
  · exact emits_receiveOn hmode Router.toSwitch (fun _ _ => rfl) hrouter
      fun _ router payload info hadm hpayload h =>
        Emits.search Router.toSwitch currentBus info router fun turn i ackSent router =>
          emits_sendPacket hadm hpayload hmode h router.toSwitch currentBus _ i ackSent
  · refine emits_receiveOn hmode Router.toSwitch (fun _ _ => rfl) hrouter
      fun _ router payload info hadm hpayload h => ?_
    rw [← toSwitch_addSenderToRoutingTable router info currentBus]
    exact Emits.search Router.toSwitch currentBus info _ fun turn i ackSent router =>
      emits_sendPacket hadm hpayload hmode h router.toSwitch currentBus _ i ackSent
  · exact emits_receiveOn hmode VirtualBusRouter.toSwitch (fun _ _ => rfl) hrouter
      fun _ v payload info hadm hpayload h =>
        emits_receiverFunction_virtual hadm hpayload hmode h v currentBus surroundings

end Classes

/-! ## Routes -/

theorem hopped_of_relays {maxHops : UInt8} {s frame : List UInt8}
    (hmode : has (header s) modeBit = true) (h : Relays maxHops s frame) :
    Hopped maxHops s frame := by
  obtain ⟨r, n, rfl, cls, hcls, x, currentBus, i, delivery, surroundings, hconnected, rfl,
    hframe⟩ := h
  have hemits := emits_receive hmode hcls x hconnected currentBus surroundings
  rcases hframe with hqueued | htransmitted
  · obtain ⟨k, hfree, hused, rfl⟩ := mem_queued.mp hqueued
    exact hemits.taken i k hfree hused
  · exact hemits.transmitted i frame htransmitted

/-- A count that does not wrap is raised, and was below the limit. -/
theorem raised_iff {maxHops : UInt8} {s frame : List UInt8} (h : Hopped maxHops s frame) :
    (hopCount s < maxHops ∧ hopCount s < hopCount frame) ↔ hopCount s ≠ 255 := by
  obtain ⟨hcount, hlimit, -⟩ := h
  have hsum : (hopCount s + 1).toNat = ((hopCount s).toNat + 1) % 256 := UInt8.toNat_add _ _
  have hlt := (hopCount s).toNat_lt
  rw [hcount, ne_eq, ← UInt8.toNat_inj, UInt8.lt_iff_toNat_lt, UInt8.lt_iff_toNat_lt, hsum]
  rw [UInt8.le_iff_toNat_le, hsum] at hlimit
  have h255 : (255 : UInt8).toNat = 255 := rfl
  omega

/-- On the way of a shared packet through switches and routers, every frame that is passed on
had a hop count below the limit and is passed on with a greater one, and no more frames follow
than the limit, exactly if no frame with hop count 255 is taken in. -/
theorem route_bounded_iff (maxHops : UInt8) (first : List UInt8) (route : List (List UInt8))
    (hshared : has (header first) modeBit) (hroute : (first :: route).IsChain (Relays maxHops)) :
    ((first :: route).IsChain
          (fun s frame => hopCount s < maxHops ∧ hopCount s < hopCount frame) ∧
        route.length ≤ maxHops.toNat) ↔
      ∀ s ∈ (first :: route).dropLast, hopCount s ≠ 255 := by
  have hsteps := Chain.isChain_good_iff
    (fun s frame (hmode : has (header s) modeBit = true) hstep =>
      raised_iff (hopped_of_relays hmode hstep))
    (fun s frame hmode hstep => (hopped_of_relays hmode hstep).shared) hshared hroute
  rw [← Chain.isChain_left_iff (p := fun s => hopCount s ≠ 255), ← hsteps]
  apply and_iff_left_of_imp
  intro hraised
  have hlength := Chain.length_le (fun s => (hopCount s).toNat) maxHops.toNat hraised
  omega

/-! ## Two letters -/

/-- `toSecondBus` one hop later. -/
def hopLater : List UInt8 := [45, 1, 11, 75, 0, 0, 0, 2, 1, 65, 202]

/-- `toSecondBus` with the greatest hop count. -/
def worn : Delivery := ⟨[45, 1, 11, 75, 0, 0, 0, 2, 255, 65, 241], fun _ => 50⟩

theorem relays_threeBuses {delivery : Delivery} {passed : List UInt8}
    (h : passed ∈ queued ((threeBuses none).bus 1)
      (((threeBuses none).receive 0 delivery fun _ => {}).state.bus 1)) :
    Relays 15 delivery.bytes passed :=
  ⟨routing, 3, rfl, RouterClass.simpleSwitch routing 3, List.mem_cons_self, threeBuses none, 0, 1,
    delivery, fun _ => {}, connected_threeBuses none, rfl, Or.inl h⟩

theorem route_bounded_iff_toSecondBus :
    ([toSecondBus.bytes, hopLater].IsChain
          (fun s frame => hopCount s < 15 ∧ hopCount s < hopCount frame) ∧
        [hopLater].length ≤ (15 : UInt8).toNat) ↔
      ∀ s ∈ [toSecondBus.bytes, hopLater].dropLast, hopCount s ≠ 255 :=
  route_bounded_iff 15 toSecondBus.bytes [hopLater] (by decide)
    ((List.isChain_pair).mpr (relays_threeBuses (by decide +kernel)))

/-- A packet with hop count 255 starts anew. -/
theorem worn_passes :
    has (header worn.bytes) modeBit ∧ Relays 15 worn.bytes toSecondBus.bytes ∧
      ¬(hopCount worn.bytes < 15 ∧ hopCount worn.bytes < hopCount toSecondBus.bytes) :=
  ⟨by decide, relays_threeBuses (by decide +kernel), by decide⟩

end Pjon.Proofs.Hops
