import Pjon.Spec.Device
import Pjon.Proofs.Learning
/-!
# An interactive router as a device

In router mode a bus hands on every packet, and the router compares the id and the bus id that
the packet is for with its own.  A plain instance also takes broadcasts, and compares no bus
id of its own while its bus is a local one.
-/

namespace Pjon.Proofs.Interactive

open Pjon.Lib Pjon.Model Pjon.Spec Pjon.Proofs.Filter Pjon.Proofs.Receive Pjon.Proofs.Switch
open Pjon.Proofs.Learning

variable {b : Build} {r : RouterBuild} {n : Nat} {c : RoutingClass r n}

/-! ## What the plain instance admits -/

theorem busId_iff_vector (s : List UInt8) (busId : Vector UInt8 4) :
    (∀ k < 4, byte s (4 + shift s + k) = busId.toList.getD k 0) ↔
      Memory.vector (byte s) (4 + shift s) 4 = busId := by
  constructor
  · intro h
    apply Vector.ext
    intro k hk
    simpa [Memory.vector, hk] using h k hk
  · rintro rfl k hk
    simp [Memory.vector, hk]

theorem getD_localhost (k : Nat) : localhost.toList.getD k 0 = 0 := by
  rcases k with _ | _ | _ | _ | k <;> rfl

theorem onBus_iff (bus : Bus b) (s : List UInt8) :
    OnBus bus s ↔ (has (header s) modeBit = false → has bus.config modeBit = false) ∧
      (has (header s) modeBit → ∀ k < 4, byte s (4 + shift s + k) =
        if has bus.config modeBit then bus.tx.busId.toList.getD k 0 else 0) := by
  have hexpected : ∀ k : Nat,
      (if has bus.config modeBit then bus.tx.busId.toList.getD k 0 else (0 : UInt8)) =
        (if has bus.config modeBit then bus.tx.busId else localhost).toList.getD k 0 := by
    intro k
    split_ifs
    · rfl
    · exact (getD_localhost k).symm
  rw [OnBus, recipientBus]
  by_cases hmode : has (header s) modeBit = true
  · simp only [hmode, if_true, Bool.true_eq_false, false_implies, true_and, true_implies,
      hexpected, busId_iff_vector]
  · simp [hmode]

/-- What the plain instance admits is what the attached bus admits and is for the id and the bus
of the instance. -/
theorem admissible_plain_iff (bus : Bus b) (s : List UInt8) (hrouter : bus.router = true)
    (hmac : b.includeMac = false) :
    Admissible (plain bus) s ↔ Admissible bus s ∧
      (byte s 0 = bus.tx.id ∨ byte s 0 = broadcast) ∧ OnBus bus s := by
  rw [onBus_iff]
  constructor
  · intro h
    have hnomac : has (header s) macBit = false := by
      rw [Bool.eq_false_iff]
      intro hset
      have hincluded := h.mac hset
      rw [hmac] at hincluded
      cases hincluded
    have hplain : ¬(plain bus).router = true := Bool.false_ne_true
    refine ⟨{ h with
      recipient := Or.inl hrouter, mode := Or.inl hrouter, busId := Or.inl hrouter
      macAddress := Or.inl hrouter }, ?_, h.mode.resolve_left hplain,
      fun hmode => h.busId.resolve_left hplain hmode hnomac⟩
    rcases h.recipient.resolve_left hplain with hid | hall | hset
    · exact Or.inl hid
    · exact Or.inr hall
    · rw [hnomac] at hset
      cases hset
  · rintro ⟨h, hrecipient, hlocal, hshared⟩
    have hnomac : ¬has (header s) macBit = true := by
      intro hset
      have hincluded := h.mac hset
      rw [hmac] at hincluded
      cases hincluded
    exact { h with
      recipient := Or.inr (hrecipient.imp_right Or.inl)
      mode := Or.inr hlocal
      busId := Or.inr fun hmode _ => hshared hmode
      macAddress := Or.inr fun hset => absurd hset hnomac }

/-! ## What is handed over -/

theorem withoutMacs_parse (bus : Bus b) (packet : Memory) (hmac : b.includeMac = false) :
    withoutMacs (bus.parse packet) = bus.parse packet := by
  simp [withoutMacs, Bus.parse, Tools.parseHeader, Tools.parseRx, Tools.parseTx, hmac]

/-- Without packet ids and ports what is admitted is handed over. -/
theorem delivered_iff (bus : Bus b) (s : List UInt8) (hid : b.includePacketId = false)
    (hport : b.includePort = false) : Delivered bus s ↔ Admissible bus s := by
  constructor
  · exact Delivered.toAdmissible
  · intro h
    have hnone : has (header s) packetIdBit = false := by
      rw [Bool.eq_false_iff]
      intro hset
      have hincluded := h.packetId hset
      rw [hid] at hincluded
      cases hincluded
    refine ⟨h, Or.inr ?_, ?_⟩
    · rw [recorded, hnone, Bool.false_and]
    · rw [portMatches_infoOf, hport]
      rfl

theorem receiverCall_response (bus : Bus b) (s : List UInt8) :
    receiverCall (if ackDue bus s then [.sendResponse ack] else []) = none := by
  split_ifs <;> rfl

/-- What the receiver function of an instance gets. -/
theorem receiverCall_of_admissible (bus : Bus r.toBuild) (delivery : Delivery)
    (hid : r.includePacketId = false) (hport : r.includePort = false)
    (hmac : r.includeMac = false) (h : Admissible bus delivery.bytes) :
    receiverCall (bus.receive delivery).events =
      some (⟨payloadOf delivery.bytes, length_payloadOf_lt h⟩, infoOf bus delivery.bytes) := by
  have hdelivered := (delivered_iff bus delivery.bytes hid hport).mpr h
  have hok : LengthOk r.toBuild delivery.bytes := ⟨h.overhead, h.maxLength, h.longCrc⟩
  obtain ⟨st, hsettled, hrun⟩ := receive_of_admissible bus delivery r.packetMaxLength_ge
    r.packetMaxLength_lt h
  have hinfo : bus.parse st.data = infoOf bus delivery.bytes := by
    have hparse := Deliver.parse_settled bus hok hsettled
    rwa [withoutMacs_parse bus st.data hmac, infoOf, withoutMacs_parse bus _ hmac] at hparse
  have hfresh : (bus.router || !recorded bus delivery.bytes) = true := by
    rcases hdelivered.fresh with hrouter | hnew
    · rw [hrouter, Bool.true_or]
    · rw [hnew, Bool.not_false, Bool.or_true]
  have hcaused : Deliver.Caused bus delivery.bytes (bus.parse st.data) (bus.deliver st) :=
    Deliver.deliver_caused hok h.packetId hsettled
  have hevents := hcaused.events
  rw [hfresh, hdelivered.port_matches, hinfo] at hevents
  rw [hrun, hevents]
  exact receiverCall_append_receiver (receiverCall_response bus delivery.bytes) _ _
    (length_payloadOf_lt h)

theorem receiverCall_of_not_admissible (bus : Bus r.toBuild) (delivery : Delivery)
    (h : ¬Admissible bus delivery.bytes) : receiverCall (bus.receive delivery).events = none := by
  rw [Deliver.events_of_not_admissible bus delivery r.packetMaxLength_ge r.packetMaxLength_lt h]
  rfl

/-! ## What the object compares -/

theorem rx_busId_infoOf (bus : Bus r.toBuild) (s : List UInt8) :
    (infoOf bus s).rx.busId = recipientBus s := by
  have hshared : r.pjonLocal = false := r.shared
  simp only [infoOf, Bus.parse, Tools.parseHeader, Tools.parseRx, hshared, Bool.not_false,
    Bool.true_and]
  rfl

theorem packetIsForMe_iff (bus : Bus r.toBuild) (s : List UInt8) (hid : bus.tx.id ≠ notAssigned) :
    Interactive.packetIsForMe bus (infoOf bus s) = true ↔
      byte s 0 = bus.tx.id ∧ recipientBus s = bus.tx.busId := by
  have hrecipient : (infoOf bus s).rx.id = byte s 0 := rfl
  rw [Interactive.packetIsForMe, rx_busId_infoOf, hrecipient, Bool.and_eq_true, Bool.and_eq_true,
    bne_iff_ne, beq_iff_eq, beq_iff_eq, and_iff_right hid, eq_comm, and_comm,
    @eq_comm _ bus.tx.id]

/-- The two comparisons come to the same result exactly where they agree. -/
theorem agrees_iff (bus : Bus b) (s : List UInt8) :
    Agrees bus s ↔
      (byte s 0 = bus.tx.id ∧ recipientBus s = bus.tx.busId ↔
        (byte s 0 = bus.tx.id ∨ byte s 0 = broadcast) ∧ OnBus bus s) := by
  by_cases hme : byte s 0 = bus.tx.id
  · rw [and_iff_right hme, and_iff_right (Or.inl hme)]
    have hnotAll : byte s 0 = broadcast → bus.tx.id ≠ broadcast → ¬OnBus bus s :=
      fun hall hne => absurd (hme.symm.trans hall) hne
    cases hmode : has (header s) modeBit with
    | false =>
        have hclause : Agrees bus s ↔ (has bus.config modeBit = false ↔ bus.tx.busId = localhost) :=
          ⟨fun h => h.localPacket hme hmode, fun h => ⟨hnotAll, fun _ _ => h,
            fun _ hset => absurd (hmode.symm.trans hset) Bool.false_ne_true⟩⟩
        rw [hclause, OnBus, recipientBus, hmode, if_neg Bool.false_ne_true,
          if_neg Bool.false_ne_true, @eq_comm _ localhost]
        exact iff_comm
    | true =>
        have hshared : has (header s) modeBit ≠ false := by simp [hmode]
        cases hconfig : has bus.config modeBit with
        | false =>
            have hclause : Agrees bus s ↔
                (recipientBus s = localhost ↔ recipientBus s = bus.tx.busId) :=
              ⟨fun h => h.localBus hme hmode hconfig, fun h => ⟨hnotAll,
                fun _ hclear => absurd hclear hshared, fun _ _ _ => h⟩⟩
            rw [hclause, OnBus, hmode, hconfig, if_pos rfl, if_neg Bool.false_ne_true]
            exact iff_comm
        | true =>
            have hagrees : Agrees bus s := ⟨hnotAll, fun _ hclear => absurd hclear hshared,
              fun _ _ hclear => absurd (hclear.symm.trans hconfig) Bool.false_ne_true⟩
            rw [OnBus, hmode, hconfig, if_pos rfl, if_pos rfl]
            exact iff_of_true hagrees Iff.rfl
  · have hclause : Agrees bus s ↔ (byte s 0 = broadcast → ¬OnBus bus s) :=
      ⟨fun h hall => h.broadcast hall fun hid => hme (hall.trans hid.symm), fun h =>
        ⟨fun hall _ => h hall, fun hid => absurd hid hme, fun hid => absurd hid hme⟩⟩
    rw [hclause, or_iff_right hme]
    tauto

/-! ## Reception -/

theorem calls_receiverFunction (object : Interactive c) (currentBus : Fin n) (payload : Payload)
    (info : PacketInfo) (surroundings : Nat → Surroundings) (hmode : object.router = false) :
    (object.receiverFunction currentBus payload info surroundings).state.calls =
      object.calls ++
        if Interactive.packetIsForMe (object.switch.bus currentBus) info then
          [(payload, { info with customPointer := object.customPointer })]
        else [] := by
  rw [Interactive.receiverFunction, hmode]
  cases Interactive.packetIsForMe (object.switch.bus currentBus) info with
  | true => rfl
  | false => exact (List.append_nil _).symm

section Reception

variable (object : Interactive c) (currentBus : Fin n) (delivery : Delivery)
  (surroundings : Nat → Surroundings)

theorem calls_of_none
    (hnone : receiverCall ((object.switch.bus currentBus).receive delivery).events = none) :
    (object.receive currentBus delivery surroundings).state.calls = object.calls := by
  rw [Interactive.receive, receiveOn]
  simp only [hnone]
  rfl

/-- What the receiver function of the bus gets is compared with the endpoint of the bus. -/
theorem calls_of_some (hmode : object.router = false) {payload : Payload} {info : PacketInfo}
    (hsome : receiverCall ((object.switch.bus currentBus).receive delivery).events =
      some (payload, info)) :
    (object.receive currentBus delivery surroundings).state.calls =
      object.calls ++
        if Interactive.packetIsForMe (object.switch.bus currentBus) info then
          [(payload, { info with customPointer := object.customPointer })]
        else [] := by
  -- the object as the bus has left it
  let received := object.setSwitch (object.switch.setBus currentBus
    ((object.switch.bus currentBus).receive delivery).bus)
  have htx : (received.switch.bus currentBus).tx = (object.switch.bus currentBus).tx := by
    have hswitch : received.switch = object.switch.setBus currentBus
        ((object.switch.bus currentBus).receive delivery).bus := c.switch_setSwitch _ _
    rw [hswitch]
    exact ((SameBuses.receive object.switch currentBus delivery).settings currentBus).tx
  have hsame : Interactive.packetIsForMe (received.switch.bus currentBus) info =
      Interactive.packetIsForMe (object.switch.bus currentBus) info := by
    rw [Interactive.packetIsForMe, Interactive.packetIsForMe, htx]
  have hcalls := calls_receiverFunction received currentBus payload info surroundings hmode
  rw [hsame] at hcalls
  rw [Interactive.receive, receiveOn]
  simp only [hsome]
  exact hcalls

end Reception

/-- Of a packet that comes in on a bus the router and the plain instance make the same exactly
where the two comparisons agree. -/
theorem calls_eq_iff (bus : Bus r.toBuild) (delivery : Delivery) (customPointer : Nat)
    (hid : r.includePacketId = false) (hport : r.includePort = false)
    (hmac : r.includeMac = false) (hrouter : bus.router = true)
    (hassigned : bus.tx.id ≠ notAssigned) (hadm : Admissible bus delivery.bytes) :
    (if Interactive.packetIsForMe bus (infoOf bus delivery.bytes) then
        [((⟨payloadOf delivery.bytes, length_payloadOf_lt hadm⟩ : Payload),
          { infoOf bus delivery.bytes with customPointer := customPointer })]
      else []) =
        ((receiverCall ((plain bus).receive delivery).events).map fun call =>
          (call.1, { call.2 with customPointer := customPointer })).toList ↔
      Agrees bus delivery.bytes := by
  have hforMe := packetIsForMe_iff bus delivery.bytes hassigned
  have hplain := admissible_plain_iff bus delivery.bytes hrouter hmac
  rw [agrees_iff, ← hforMe]
  by_cases hagain : Admissible (plain bus) delivery.bytes
  · have hcall := receiverCall_of_admissible (plain bus) delivery hid hport hmac hagain
    rw [hcall, iff_true_right (hplain.mp hagain).2]
    by_cases hme : Interactive.packetIsForMe bus (infoOf bus delivery.bytes) = true
    · rw [if_pos hme]
      exact iff_of_true rfl hme
    · rw [if_neg hme]
      exact iff_of_false (List.cons_ne_nil _ _).symm hme
  · have hcall := receiverCall_of_not_admissible (plain bus) delivery hagain
    have hnot : ¬((byte delivery.bytes 0 = bus.tx.id ∨ byte delivery.bytes 0 = broadcast) ∧
        OnBus bus delivery.bytes) := fun h => hagain (hplain.mpr ⟨hadm, h⟩)
    rw [hcall, iff_false_right hnot]
    by_cases hme : Interactive.packetIsForMe bus (infoOf bus delivery.bytes) = true
    · rw [if_pos hme]
      exact iff_of_false (List.cons_ne_nil _ _) (not_not_intro hme)
    · rw [if_neg hme]
      exact iff_of_true rfl hme

/-- The router serves its program as a plain instance would where the two ways to compare a
recipient agree, and nowhere else. -/
theorem behavesAsDevice_iff (c : RoutingClass r n) (object : Interactive c) (currentBus : Fin n)
    (delivery : Delivery) (surroundings : Nat → Surroundings)
    (hid : r.includePacketId = false) (hport : r.includePort = false)
    (hmac : r.includeMac = false) (hmode : object.router = false)
    (hconnected : Connected object.switch)
    (hassigned : (object.switch.bus currentBus).tx.id ≠ notAssigned) :
    BehavesAsDevice object currentBus delivery surroundings ↔
      (Admissible (object.switch.bus currentBus) delivery.bytes →
        Agrees (object.switch.bus currentBus) delivery.bytes) := by
  have hrouter := hconnected currentBus
  rw [BehavesAsDevice]
  by_cases hadm : Admissible (object.switch.bus currentBus) delivery.bytes
  · rw [calls_of_some object currentBus delivery surroundings hmode
      (receiverCall_of_admissible _ delivery hid hport hmac hadm), List.append_cancel_left_eq,
      calls_eq_iff _ delivery _ hid hport hmac hrouter hassigned hadm]
    exact ⟨fun h _ => h, fun h => h hadm⟩
  · have hnot : ¬Admissible (plain (object.switch.bus currentBus)) delivery.bytes :=
      fun h => hadm ((admissible_plain_iff _ _ hrouter hmac).mp h).1
    rw [calls_of_none object currentBus delivery surroundings
      (receiverCall_of_not_admissible _ delivery hadm), receiverCall_of_not_admissible _ _ hnot]
    exact iff_of_true (List.append_nil _).symm fun h => absurd h hadm

/-! ## A switch between two local buses -/

/-- Device 45 on a local bus. -/
def localBus : Bus Destinations.routing.toBuild where
  config := txInfoBit
  tx := { id := 45 }

/-- A switch that is device 45 on both of its buses. -/
def device45 : Interactive (RoutingClass.ofSwitch : RoutingClass Destinations.routing 2) where
  base := Switch.connect #v[localBus, localBus] none Destinations.twoBuses_lt

theorem connected_device45 : Connected device45.switch := connected_connect _ none _

/-- A letter for device 45. -/
def toDevice45 : Delivery := ⟨[45, 2, 7, 184, 44, 65, 229], fun _ => 50⟩

theorem behavesAsDevice_iff_toDevice45 :
    BehavesAsDevice device45 0 toDevice45 (fun _ => {}) ↔
      (Admissible (device45.switch.bus 0) toDevice45.bytes →
        Agrees (device45.switch.bus 0) toDevice45.bytes) :=
  behavesAsDevice_iff RoutingClass.ofSwitch device45 0 toDevice45 (fun _ => {}) rfl rfl rfl rfl
    connected_device45 (by decide)

/-- A letter for all devices. -/
def toEveryone : Delivery := ⟨[0, 2, 7, 40, 44, 65, 229], fun _ => 50⟩

/-- A plain instance takes the broadcast. -/
theorem broadcast_not_received :
    Connected device45.switch ∧ device45.router = false ∧
      (device45.switch.bus 0).tx.id ≠ notAssigned ∧
      (receiverCall ((plain (device45.switch.bus 0)).receive toEveryone).events).isSome ∧
      (device45.receive 0 toEveryone fun _ => {}).state.calls = [] ∧
      ¬BehavesAsDevice device45 0 toEveryone fun _ => {} := by
  have hcalled : (receiverCall ((plain (device45.switch.bus 0)).receive toEveryone).events).isSome =
      true := by decide +kernel
  have hcalls : (device45.receive 0 toEveryone fun _ => {}).state.calls = [] := by decide +kernel
  refine ⟨connected_device45, rfl, by decide, hcalled, hcalls, fun h => ?_⟩
  obtain ⟨call, hcall⟩ := Option.isSome_iff_exists.mp hcalled
  rw [BehavesAsDevice, hcalls, hcall] at h
  exact absurd h.symm (List.append_ne_nil_of_right_ne_nil _ (List.cons_ne_nil _ _))

end Pjon.Proofs.Interactive
