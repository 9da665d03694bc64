import Pjon.Proofs.Locations
import Pjon.Proofs.Transparent
/-!
# Packets on a virtual bus

A packet for a device of a virtual bus goes to the one bus where the device was last heard,
and to all other parts of the virtual bus as long as it was not; so do broadcasts, as long as
nobody sends as device 0.
-/

namespace Pjon.Proofs.VirtualBus

open Pjon.Lib Pjon.Model Pjon.Spec Pjon.Proofs.Forward Pjon.Proofs.Switch Pjon.Proofs.Identity
open Pjon.Proofs.Interop Pjon.Proofs.Recompose Pjon.Proofs.Canonical Pjon.Proofs.HandOn
open Pjon.Proofs.Arrivals Pjon.Proofs.Learning Pjon.Proofs.Locations Pjon.Proofs.Destinations

/-! ## Copies -/

section Copy

variable {b : Build} {receiver : Bus b} {s : List UInt8} {info : PacketInfo} {payload : Payload}
  (hadm : Admissible receiver s) (hpayload : payload.bytes = payloadOf s)
  (hshared : b.pjonLocal = false) (h : PassedOn b s info)

include hadm hpayload hshared h

theorem sendable_copy (sender : Bus b) : Sendable b (sender.completeInfo (hopped info)) payload :=
  sendable_passedOn hadm (passedOn_hopped h) hpayload sender hshared

omit hpayload hshared in
theorem has_copy (payload : Payload) (sender : Bus b) {bit : UInt8}
    (hext : has extLenBit bit = false) (hcrc : has crcBit bit = false)
    (hport : has portBit bit = false) (hclear : ~~~portBit &&& bit = bit)
    (hack : ~~~ackReqBit &&& bit = bit) :
    has (written b (sender.completeInfo (hopped info)) payload) bit = has (header s) bit := by
  rw [written, Layout.has_measure_same b _ _ hext hcrc hport hclear hack,
    header_completeInfo hadm (passedOn_hopped h)]
  exact has_passedOn h hack

/-- What is composed of the info of a packet with its endpoints is a copy of it. -/
theorem copyOf_bytesOf (sender : Bus b) (hsender : sender.tx = info.tx)
    (hrecipient : info.rx.busId = (infoOf receiver s).rx.busId)
    (hid : info.tx.id = (infoOf receiver s).tx.id)
    (hbus : info.tx.busId = (infoOf receiver s).tx.busId) :
    CopyOf b s (bytesOf b (sender.completeInfo (hopped info)) payload)
      (has info.header ackReqBit && info.rx.id != broadcast) := by
  have hsendable := sendable_copy hadm hpayload hshared h sender
  have hfields := (recovers_infoOf receiver hsendable).fields
  have hmode := has_copy hadm h payload sender (by decide : has extLenBit modeBit = false)
    (by decide) (by decide) (by decide) (by decide)
  have htxInfo := has_copy hadm h payload sender (by decide : has extLenBit txInfoBit = false)
    (by decide) (by decide) (by decide) (by decide)
  have htx : (sender.completeInfo (hopped info)).tx = info.tx := hsender
  have hself := (recovers_self receiver s).fields
  refine ⟨(payloadOf_bytesOf hsendable).trans hpayload, ?_, ?_, ?_, ?_, ?_⟩
  · have hfield := congrArg (fun info : PacketInfo => info.rx.id) hfields
    exact hfield.trans h.recipient
  · have hfield := congrArg (fun info : PacketInfo => info.rx.busId) hfields
    have hsame := congrArg (fun info : PacketInfo => info.rx.busId) hself
    simp only [withoutMacs, carried, hmode] at hfield hsame
    rw [← hrecipient] at hsame
    exact (hfield.trans hsame.symm).trans hrecipient
  · have hfield := congrArg (fun info : PacketInfo => info.tx.id) hfields
    have hsame := congrArg (fun info : PacketInfo => info.tx.id) hself
    simp only [withoutMacs, carried, htxInfo, htx] at hfield hsame
    rw [← hid] at hsame
    exact (hfield.trans hsame.symm).trans hid
  · have hfield := congrArg (fun info : PacketInfo => info.tx.busId) hfields
    have hsame := congrArg (fun info : PacketInfo => info.tx.busId) hself
    simp only [withoutMacs, carried, hmode, htxInfo, htx] at hfield hsame
    rw [← hbus] at hsame
    exact (hfield.trans hsame.symm).trans hbus
  · rw [header_bytesOf hsendable, written, Layout.has_measure_ack,
      header_completeInfo hadm (passedOn_hopped h)]
    rfl

end Copy

theorem queued_of_slots {b : Build} {before after : Bus b}
    (h : ∀ k, after.slot k = before.slot k) : queued before after = [] := by
  rw [queued, List.filterMap_eq_nil_iff]
  intro k _
  rw [h, if_neg]
  exact fun hboth => hboth.2 hboth.1

/-! ## What the receiver function does -/

section ReceiverFunction

variable {r : RouterBuild} {n : Nat} (v : VirtualBusRouter r n) (currentBus : Fin n)
  (payload : Payload) (info : PacketInfo) (surroundings : Nat → Surroundings)

theorem receiverFunction_known {i : Fin n}
    (h : (registered v info currentBus).findVbusWithDevice info.rx.busId info.rx.id = some i) :
    v.receiverFunction currentBus payload info surroundings =
      if i = currentBus then { state := registered v info currentBus }
      else (registered v info currentBus).sendPacket payload currentBus info false
        (surroundings 0) i false := by
  have hregistered : (if v.isVbus info.tx.busId then v.registerDeviceOnVbus info.tx.id currentBus
      else v) = registered v info currentBus := rfl
  rw [VirtualBusRouter.receiverFunction, hregistered]
  simp only [h]
  rfl

theorem receiverFunction_unknown
    (h : (registered v info currentBus).findVbusWithDevice info.rx.busId info.rx.id = none) :
    v.receiverFunction currentBus payload info surroundings =
      dynamicReceiverFunction (fun v => v.findAttachedBusWithId)
        (fun turn => VirtualBusRouter.sendPacket payload currentBus info true (surroundings turn))
        (registered v info currentBus).defaultGateway currentBus info
        (registered v info currentBus) := by
  have hregistered : (if v.isVbus info.tx.busId then v.registerDeviceOnVbus info.tx.id currentBus
      else v) = registered v info currentBus := rfl
  rw [VirtualBusRouter.receiverFunction, hregistered]
  simp only [h]

theorem isVbus_registered (busId : Vector UInt8 4) :
    (registered v info currentBus).isVbus busId = v.isVbus busId := by
  obtain ⟨hbuses, hvirtual⟩ := sameBuses_registered v info currentBus
  rw [VirtualBusRouter.isVbus, VirtualBusRouter.isVbus, hvirtual]
  cases v.virtualBus with
  | none => rfl
  | some i => exact congrArg (· == busId) (hbuses.busId i)

theorem toSwitch_registered : (registered v info currentBus).toSwitch = v.toSwitch := by
  rw [registered]
  split_ifs
  · exact toSwitch_registerDeviceOnVbus v info.tx.id currentBus
  · rfl

/-- The info that bus `i` gets while the location of the recipient is unknown. -/
def infoFor (v : VirtualBusRouter r n) (i : Fin n) (info : PacketInfo) : PacketInfo :=
  if v.isVbus (v.busId i) then { info with header := info.header &&& ~~~ackReqBit } else info

/-- A turn of the search for the recipient, by the bus that it comes to. -/
theorem sendsBy_virtual (hslots : r.maxPackets ≠ 0) (h : WithinHops r.maxHops info) :
    SendsBy VirtualBusRouter.toSwitch (SameLocations v) currentBus
      (fun turn => VirtualBusRouter.sendPacket payload currentBus info true (surroundings turn))
      (fun turn i bus => (Switch.handOn bus (v.translate i currentBus (infoFor v i info)) payload
        (surroundings turn)).bus) := by
  have hsent (turn : Nat) (i : Fin n) (ackSent : Bool) (v' : VirtualBusRouter r n) :
      ∃ flag, (v'.sendPacket payload currentBus info true (surroundings turn) i
        ackSent).state.toSwitch = (v'.toSwitch.sendPacket payload currentBus (infoFor v' i info)
          (surroundings turn) i flag).state := by
    cases hpart : v'.isVbus (v'.busId i)
    · refine ⟨ackSent, ?_⟩
      rw [sendPacket_of_known hslots v' payload currentBus info true _ i ackSent hpart, infoFor,
        hpart]
      rfl
    · refine ⟨true, ?_⟩
      rw [sendPacket_of_unknown hslots v' payload currentBus info true _ i ackSent hpart, infoFor,
        hpart]
      rfl
  have hinfo {v' : VirtualBusRouter r n} (hsame : SameLocations v v') (i : Fin n) :
      infoFor v' i info = infoFor v i info := by
    rw [infoFor, infoFor, hsame.isVbus, hsame.buses.busId]
  refine ⟨fun turn i ackSent v' hsame => ?_, fun turn i ackSent v' hsame => ?_,
    fun turn i ackSent v' j hij => ?_⟩
  · exact hsame.trans (sameLocations_sendPacket hslots v' payload currentBus h true _ i ackSent)
  · obtain ⟨flag, hstate⟩ := hsent turn i ackSent v'
    rw [hstate, sendPacket_bus, hinfo hsame, hsame.buses.translate]
  · obtain ⟨flag, hstate⟩ := hsent turn i ackSent v'
    rw [hstate, sendPacket_bus_ne _ _ _ _ _ _ _ hij]

/-- As long as the location of the recipient is unknown, nothing is acknowledged on the virtual
bus. -/
theorem acknowledgements_unknown (hslots : r.maxPackets ≠ 0) (h : WithinHops r.maxHops info)
    (hpart : v.isVbus (targetOf info) = true) :
    acknowledgements (dynamicReceiverFunction (fun v => v.findAttachedBusWithId)
      (fun turn => VirtualBusRouter.sendPacket payload currentBus info true (surroundings turn))
      none currentBus info v) = [] := by
  refine (dynamicReceiverFunction_rule
    (fun routing : Routing (VirtualBusRouter r n) n =>
      SameLocations v routing.state ∧ acknowledgements routing = [])
    currentBus info ⟨SameLocations.refl v, rfl⟩ ?_).2
  rintro turn i routing - ⟨start, hfound⟩ ⟨hsame, hacks⟩
  refine ⟨hsame.trans (sameLocations_sendPacket hslots _ payload currentBus h true _ i _), ?_⟩
  rw [Option.or_none] at hfound
  have hknown : (true && routing.state.isVbus (routing.state.busId i)) = true := by
    rw [busId_of_found hfound, hsame.isVbus, hpart]
    rfl
  have hsilent := acknowledgements_sendPacket routing.state.toSwitch payload currentBus
    { info with header := info.header &&& ~~~ackReqBit } (surroundings turn) i true
  rw [acknowledgements_andThen, hacks, sendPacket_of_unknown hslots _ payload currentBus info true
    _ i _ hknown, List.nil_append]
  exact hsilent

end ReceiverFunction

/-! ## One packet -/

section Packet

variable {r : RouterBuild} {n : Nat} {busId : Vector UInt8 4} {v : VirtualBusRouter r n}
  {currentBus : Fin n} {delivery : Delivery}

/-- The router while the receiver function runs. -/
abbrev arrived (v : VirtualBusRouter r n) (currentBus : Fin n) (delivery : Delivery) :
    VirtualBusRouter r n :=
  afterReceive VirtualBusRouter.toSwitch VirtualBusRouter.setSwitch v currentBus delivery

theorem sameLocations_arrived (v : VirtualBusRouter r n) (currentBus : Fin n)
    (delivery : Delivery) : SameLocations v (arrived v currentBus delivery) :=
  SameLocations.setSwitch v (SameBuses.receive v.toSwitch currentBus delivery)

theorem receive_virtual (hdelivered : Delivered (v.bus currentBus) delivery.bytes)
    (surroundings : Nat → Surroundings) :
    ∃ payload info, payload.bytes = payloadOf delivery.bytes ∧
      Seen (v.bus currentBus) delivery.bytes info ∧
      v.receive currentBus delivery surroundings = Routing.andThen
        { state := arrived v currentBus delivery
          events := ((v.bus currentBus).receive delivery).events.map fun event =>
            (currentBus, event) }
        fun v _ => v.receiverFunction currentBus payload info surroundings := by
  rcases receiverCall_cases (v.bus currentBus) delivery with
    ⟨hnot, -⟩ | ⟨payload, info, -, hseen, hpayload, hcall⟩
  · exact absurd hdelivered hnot
  · refine ⟨payload, info, hpayload, hseen, ?_⟩
    rw [VirtualBusRouter.receive, receiveOn]
    simp only [hcall]

/-- Of what it does itself, a bus acknowledges nothing. -/
theorem acknowledgements_arrived (hrouter : (v.bus currentBus).router = true)
    (hdelivered : Delivered (v.bus currentBus) delivery.bytes) :
    acknowledgements { state := arrived v currentBus delivery
                       events := ((v.bus currentBus).receive delivery).events.map fun event =>
                         (currentBus, event) } = [] := by
  obtain ⟨info, -, hevents⟩ := receive_of_delivered hrouter hdelivered
  rw [hevents]
  rfl

/-- Receiving does not touch the send buffers. -/
theorem slot_arrived (i : Fin n) (k : Fin r.maxPackets) :
    ((arrived v currentBus delivery).bus i).slot k = (v.bus i).slot k := by
  by_cases hi : currentBus = i
  · subst hi
    rw [arrived, afterReceive, VirtualBusRouter.setSwitch, Switch.bus_setBus, receive_slot]
  · rw [arrived, afterReceive, VirtualBusRouter.setSwitch, Switch.bus_setBus_ne _ _ hi]

theorem bus_arrived {i : Fin n} (hi : i ≠ currentBus) :
    (arrived v currentBus delivery).bus i = v.bus i := by
  rw [arrived, afterReceive, VirtualBusRouter.setSwitch, Switch.bus_setBus_ne _ _ hi.symm]

section Handed

variable {payload : Payload} {info info' : PacketInfo} {receiver : Bus r.toBuild} {s : List UInt8}
  (hadm : Admissible receiver s) (hpayload : payload.bytes = payloadOf s)
  (hseen : Seen receiver s info)

include hadm hpayload hseen

/-- A bus that has room takes a copy of what was seen, with the request for an acknowledgement
of the header that is handed on. -/
theorem takesCopy_handOn {bus : Bus r.toBuild} (hroom : HasRoom bus)
    (hwithin : WithinHops r.maxHops info) {header : UInt8}
    (hheader : header = info.header ∨ header = info.header &&& ~~~ackReqBit)
    (surroundings : Surroundings) :
    TakesCopy bus (Switch.handOn bus { info with header := header } payload surroundings).bus s
      (has header ackReqBit && byte s 0 != broadcast) := by
  have hpassed : PassedOn r.toBuild s { info with header := header } := by
    have hsame := passedOn_resent (resent_seen hseen info.hops)
    rcases hheader with rfl | rfl
    · exact hsame
    · exact passedOn_clear hsame
  have hrx := congrArg (fun info : PacketInfo => info.rx.busId) hseen.fields
  have hid := congrArg (fun info : PacketInfo => info.tx.id) hseen.fields
  have hbus := congrArg (fun info : PacketInfo => info.tx.busId) hseen.fields
  have hcopy := copyOf_bytesOf hadm hpayload r.shared hpassed { bus with tx := info.tx } rfl hrx
    hid hbus
  refine ⟨_, queued_handOn (sendable_copy hadm hpayload r.shared hpassed) hroom hwithin, ?_⟩
  have hrecipient := recipient_seen hseen
  rw [← hrecipient]
  exact hcopy

end Handed

/-- A packet is for the bus id that it carries; a local one carries none. -/
theorem targetOf_seen {receiver : Bus r.toBuild} {s : List UInt8} {info : PacketInfo}
    (h : Seen receiver s info) : targetOf info = info.rx.busId := by
  have hbus := congrArg (fun info : PacketInfo => info.rx.busId) h.fields
  have hparsed : targetOf (infoOf receiver s) = (infoOf receiver s).rx.busId := by
    simp only [targetOf, infoOf, Bus.parse, Tools.parseHeader, Tools.parseRx, r.shared,
      Bool.not_false, Bool.true_and]
    split_ifs <;> rfl
  rw [← targetOf_withoutMacs, h.fields, targetOf_withoutMacs, hparsed]
  exact hbus.symm

/-- `w` is the router while a packet that came in on `currentBus` is passed on. -/
structure Passing (busId : Vector UInt8 4) (v w : VirtualBusRouter r n) (currentBus : Fin n) :
    Prop where
  isVbus : ∀ id, w.isVbus id = true ↔ id = busId
  buses : SameBuses v.toSwitch w.toSwitch
  slots : ∀ i k, (w.bus i).slot k = (v.bus i).slot k
  bus : ∀ i, i ≠ currentBus → w.bus i = v.bus i

theorem passing_registered (currentBus : Fin n) (delivery : Delivery) (hv : IsVirtualBus v busId)
    (info : PacketInfo) :
    Passing busId v (registered (arrived v currentBus delivery) info currentBus) currentBus := by
  have hswitch := toSwitch_registered (arrived v currentBus delivery) currentBus info
  have hsame := sameLocations_arrived v currentBus delivery
  refine ⟨fun id => ?_, ?_, fun i k => ?_, fun i hi => ?_⟩
  · rw [isVbus_registered, hsame.isVbus, isVbus_iff hv]
  · rw [hswitch]
    exact hsame.buses
  · rw [hswitch, slot_arrived]
  · rw [hswitch, bus_arrived hi]

section Passing

variable {w : VirtualBusRouter r n} (h : Passing busId v w currentBus)
  (hnotNat : ∀ i, v.isNat i = false) {payload : Payload} {info : PacketInfo}
  {receiver : Bus r.toBuild} {s : List UInt8}
  (hadm : Admissible receiver s) (hpayload : payload.bytes = payloadOf s)
  (hseen : Seen receiver s info) (hwithin : WithinHops r.maxHops info)
  (hroom : ∀ i, HasRoom (v.bus i))

include h

theorem queued_passing (i : Fin n) : queued (v.bus i) (w.bus i) = [] :=
  queued_of_slots (h.slots i)

include hnotNat hadm hpayload hseen hwithin hroom

/-- A packet for a device that is known goes to its bus, with its request for an
acknowledgement. -/
theorem known_routing {i : Fin n} (hi : i ≠ currentBus) (surroundings : Surroundings) :
    let routing := w.sendPacket payload currentBus info false surroundings i false
    TakesCopy (v.bus i) (routing.state.bus i) s
        (has (header s) ackReqBit && byte s 0 != broadcast) ∧
      (∀ j, j ≠ i → queued (v.bus j) (routing.state.bus j) = []) ∧
      (acknowledgements routing = [] ∨ acknowledgements routing = [currentBus]) := by
  have hslots : r.maxPackets ≠ 0 := (hroom i).elim fun k _ => (Fin.pos k).ne'
  have hsend := sendPacket_of_known hslots w payload currentBus info false surroundings i false rfl
  have hacks := acknowledgements_sendPacket w.toSwitch payload currentBus info surroundings i false
  have htranslate : w.translate i currentBus info = info :=
    Transparent.translate_of_not_nat (by rw [h.buses.isNat, hnotNat])
      (by rw [h.buses.isNat, hnotNat]) info
  have hcopy := takesCopy_handOn hadm hpayload hseen (hroom i) hwithin (Or.inl rfl) surroundings
  simp only [hsend]
  refine ⟨?_, fun j hj => ?_, ?_⟩
  · rw [VirtualBusRouter.setSwitch, sendPacket_bus, htranslate, h.bus i hi, ← header_seen hseen]
    exact hcopy
  · rw [VirtualBusRouter.setSwitch, sendPacket_bus_ne _ _ _ _ _ _ _ hj.symm]
    exact queued_passing h j
  · split_ifs at hacks
    · exact Or.inr hacks
    · exact Or.inl hacks

/-- A packet for a device that is not known goes to all other parts of the virtual bus, and asks
for no acknowledgement there. -/
theorem unknown_routing (hgateway : v.defaultGateway = none) (htarget : targetOf info = busId)
    (surroundings : Nat → Surroundings) :
    let routing := dynamicReceiverFunction (fun v => v.findAttachedBusWithId)
      (fun turn => VirtualBusRouter.sendPacket payload currentBus info true (surroundings turn))
      w.defaultGateway currentBus info w
    (∀ i, v.busId i = busId → i ≠ currentBus →
        TakesCopy (v.bus i) (routing.state.bus i) s false) ∧
      (∀ j, v.busId j ≠ busId ∨ j = currentBus →
        queued (v.bus j) (routing.state.bus j) = []) ∧
      acknowledgements routing = [] := by
  have hslots : r.maxPackets ≠ 0 := (hroom currentBus).elim fun k _ => (Fin.pos k).ne'
  have hgateway' : w.defaultGateway = none := h.buses.defaultGateway.trans hgateway
  have hcount (i : Fin n) : (reached w.toSwitch (targetOf info)).count i =
      if v.busId i = busId then 1 else 0 := by
    rw [count_reached_of_no_gateway w.toSwitch hgateway', h.buses.busId, htarget]
  have hsearch := bus_search (s := w.toSwitch)
    (sendsBy_virtual w currentBus payload info surroundings hslots hwithin)
    (SameLocations.refl w)
    (fun w' (hsame : SameLocations w w') =>
      funext fun start => hsame.buses.find (targetOf info) start)
  refine ⟨fun i hpart hi => ?_, fun j hj => ?_, ?_⟩
  · obtain ⟨turn, hbus⟩ := (hsearch i).2 (by rw [hcount, if_pos hpart]) hi
    have hcopy := takesCopy_handOn hadm hpayload hseen (hroom i) hwithin (Or.inr rfl)
      (surroundings turn)
    have hinfo : infoFor w i info = { info with header := info.header &&& ~~~ackReqBit } := by
      rw [infoFor, (h.isVbus _).mpr ((h.buses.busId i).trans hpart)]
      rfl
    have htranslate := Transparent.translate_of_not_nat (x := w.toSwitch)
      (by rw [h.buses.isNat, hnotNat] : w.isNat currentBus = false)
      (by rw [h.buses.isNat, hnotNat] : w.isNat i = false) (infoFor w i info)
    rw [htranslate, hinfo, h.bus i hi] at hbus
    rw [hbus]
    rw [has_clear_self, Bool.false_and] at hcopy
    exact hcopy
  · rw [(hsearch j).1 (hj.imp_left fun hpart => by rw [hcount, if_neg hpart])]
    exact queued_passing h j
  · rw [hgateway']
    exact acknowledgements_unknown w currentBus payload info surroundings hslots hwithin
      ((h.isVbus _).mpr htarget)

end Passing

/-- A packet for a device of the virtual bus goes where the router knows the device, or to all
other parts. -/
theorem routesDevice {x : VirtualBusRouter r n}
    {history : List (VirtualBusRouter r n × Traffic r n)} (hx : Installed busId x)
    (h : Knows busId x history v) (hdelivered : Delivered (v.bus currentBus) delivery.bytes)
    (hhops : (infoOf (v.bus currentBus) delivery.bytes).hops < r.maxHops)
    (hbus : (infoOf (v.bus currentBus) delivery.bytes).rx.busId = busId)
    (hd : byte delivery.bytes 0 ≠ broadcast) (hmax : (byte delivery.bytes 0).toNat < r.maxDevices)
    (hroom : ∀ i, HasRoom (v.bus i)) (surroundings : Nat → Surroundings) :
    RoutesDevice busId (history ++ [(v, .receive currentBus delivery surroundings)]) v currentBus
      delivery.bytes (v.receive currentBus delivery surroundings) := by
  have hv : IsVirtualBus v busId := by
    obtain ⟨i, hi, hid⟩ := hx.virtualBus
    exact ⟨i, h.virtualBus.trans hi, (h.buses.busId i).trans hid⟩
  have hadm := hdelivered.toAdmissible
  have hnotNat (i : Fin n) : v.isNat i = false := (h.buses.isNat i).trans (hx.notNat i)
  have hgateway : v.defaultGateway = none := h.buses.defaultGateway.trans hx.noGateway
  obtain ⟨payload, info, hpayload, hseen, hreceive⟩ := receive_virtual hdelivered surroundings
  have hpassing := passing_registered currentBus delivery hv info
  have hwithin : WithinHops r.maxHops info := by
    rw [← withinHops_withoutMacs, hseen.fields]
    exact withinHops_of_lt hhops
  have hrecipientBus : info.rx.busId = busId := by
    have hfield := congrArg (fun info : PacketInfo => info.rx.busId) hseen.fields
    exact hfield.trans hbus
  have htarget : targetOf info = busId := (targetOf_seen hseen).trans hrecipientBus
  -- what the router knows of the recipient while the packet is passed on
  have hlocated (i : Fin n) := located_registered hv h surroundings hdelivered hseen hmax i
  rw [← (sameLocations_registered (sameLocations_arrived v currentBus delivery) info
    currentBus).via] at hlocated
  have hfind : (registered (arrived v currentBus delivery) info currentBus).findVbusWithDevice
      info.rx.busId info.rx.id = (registered (arrived v currentBus delivery) info currentBus).via
        (byte delivery.bytes 0) := by
    rw [VirtualBusRouter.findVbusWithDevice, (hpassing.isVbus _).mpr hrecipientBus,
      recipient_seen hseen, if_neg]
    simpa using hmax
  have hroutes (routing : Routing (VirtualBusRouter r n) n)
      (hrouting : (arrived v currentBus delivery).receiverFunction currentBus payload info
        surroundings = routing) :
      (v.receive currentBus delivery surroundings).state = routing.state ∧
        (v.receive currentBus delivery surroundings).forwards = routing.forwards ∧
        acknowledgements (v.receive currentBus delivery surroundings) =
          acknowledgements routing := by
    rw [hreceive, acknowledgements_andThen, acknowledgements_arrived
      (h.buses.connected hx.connected currentBus) hdelivered, ← hrouting]
    exact ⟨rfl, List.nil_append _, List.nil_append _⟩
  constructor
  · intro i hi hne
    have hrouting := receiverFunction_known _ currentBus payload info surroundings
      (hfind.trans ((hlocated i).mpr hi))
    rw [if_neg hne] at hrouting
    obtain ⟨hstate, -, hacks⟩ := hroutes _ hrouting
    have hknown := known_routing hpassing hnotNat hadm hpayload hseen hwithin hroom hne
      (surroundings 0)
    have hack : (byte delivery.bytes 0 != broadcast) = true := by simpa using hd
    rw [hack, Bool.and_true] at hknown
    rw [hstate, hacks]
    exact hknown
  · intro hi
    have hrouting := receiverFunction_known _ currentBus payload info surroundings
      (hfind.trans ((hlocated currentBus).mpr hi))
    rw [if_pos rfl] at hrouting
    obtain ⟨hstate, hforwards, -⟩ := hroutes _ hrouting
    rw [hstate, hforwards]
    exact ⟨rfl, queued_passing hpassing⟩
  · intro hnone
    have hvia : (registered (arrived v currentBus delivery) info currentBus).via
        (byte delivery.bytes 0) = none := by
      rw [Option.eq_none_iff_forall_ne_some]
      exact fun i hi => hnone i ((hlocated i).mp hi)
    have hrouting := receiverFunction_unknown _ currentBus payload info surroundings
      (hfind.trans hvia)
    obtain ⟨hstate, -, hacks⟩ := hroutes _ hrouting
    rw [hstate, hacks]
    exact unknown_routing hpassing hnotNat hadm hpayload hseen hwithin hroom hgateway htarget
      surroundings

end Packet

/-! ## Unicast -/

/-- On a virtual bus, after any packets and errors, a packet for a device is queued on the one
bus where the device was last heard, or on all other parts of the virtual bus as long as it
is not known, if the packets that were lost before were in slots that the router can find, and
those for devices that it knew on the bus of the loss were lost on parts of the virtual bus. -/
theorem unicast_routed {r : RouterBuild} {n : Nat} {busId : Vector UInt8 4}
    (x : VirtualBusRouter r n) (hx : Installed busId x) (traffic : List (Traffic r n))
    (hall : ∀ u ∈ Run.steps virtualStep x traffic,
      WithinLimit u.1 u.2 ∧ LosesOnParts busId u.1 u.2)
    (v : VirtualBusRouter r n) (hv : v = Run.final virtualStep x traffic) (currentBus : Fin n)
    (delivery : Delivery) (surroundings : Nat → Surroundings)
    (hdelivered : Delivered (v.bus currentBus) delivery.bytes)
    (hhops : (infoOf (v.bus currentBus) delivery.bytes).hops < r.maxHops)
    (hbus : (infoOf (v.bus currentBus) delivery.bytes).rx.busId = busId)
    (hd : byte delivery.bytes 0 ≠ broadcast) (hmax : (byte delivery.bytes 0).toNat < r.maxDevices)
    (hroom : ∀ i, HasRoom (v.bus i)) :
    RoutesDevice busId
      (Run.steps virtualStep x (traffic ++ [.receive currentBus delivery surroundings])) v
      currentBus delivery.bytes (v.receive currentBus delivery surroundings) := by
  have hslots : r.maxPackets ≠ 0 := (hroom currentBus).elim fun k _ => (Fin.pos k).ne'
  have hknows := knows_run hslots hx.virtualBus hx.unknown traffic hall
  rw [← hv] at hknows
  rw [Run.steps_append, Run.steps_cons, Run.steps_nil, ← hv]
  exact routesDevice hx hknows hdelivered hhops hbus hd hmax hroom surroundings

/-! ## A virtual bus of two parts -/

/-- Two parts of the virtual bus 0.0.0.1, and the bus 0.0.0.2. -/
def twoParts : VirtualBusRouter routing 3 where
  toSwitch := Switch.connect #v[sharedBus 1, sharedBus 1, sharedBus 2] none threeBuses_lt
  virtualBus := some firstBus

theorem installed_twoParts : Installed (busIdOf 1) twoParts where
  connected := connected_connect _ none _
  noGateway := rfl
  notNat := by decide
  virtualBus := ⟨0, rfl, by decide⟩
  unknown d := by
    rw [VirtualBusRouter.via, twoParts, Vector.getElem?_replicate]
    split_ifs <;> rfl

/-- A letter from device 45 to device 12, both on the virtual bus. -/
def fromDevice : Delivery :=
  ⟨[12, 35, 19, 147, 0, 0, 0, 1, 0, 0, 0, 1, 0, 45, 65, 100, 72, 33, 234], fun _ => 50⟩

/-- A letter to device 45 of the virtual bus that asks for an acknowledgement. -/
def toDevice : Delivery := ⟨[45, 5, 11, 242, 0, 0, 0, 1, 0, 65, 107], fun _ => 50⟩

/-- `twoParts` after device 45 was heard on bus `i`. -/
def heardOn (i : Fin 3) : VirtualBusRouter routing 3 :=
  virtualStep twoParts (.receive i fromDevice fun _ => {})

theorem delivered_fromDevice (i : Fin 3) : Delivered (twoParts.bus i) fromDevice.bytes := by
  have hcalls : calls ((twoParts.bus i).receive fromDevice) = true := by
    revert i
    decide +kernel
  exact delivered_of_calls hcalls

theorem heard_fromDevice (i : Fin 3) :
    Heard (busIdOf 1) 45 i (twoParts, .receive i fromDevice fun _ => {}) := by
  refine ⟨fromDevice, _, rfl, delivered_fromDevice i, ?_, ?_⟩
  · rfl
  · rfl

/-- `toDevice` does not say where it comes from. -/
theorem not_heard_toDevice (v : VirtualBusRouter routing 3) (i j : Fin 3)
    (surroundings : Nat → Surroundings) :
    ¬Heard (busIdOf 1) 45 j (v, .receive i toDevice surroundings) := by
  rintro ⟨delivery, surroundings', htraffic, -, -, hid⟩
  obtain ⟨rfl, rfl, -⟩ := Traffic.receive.inj htraffic
  have hnobody : notAssigned = 45 := hid
  exact absurd hnobody (by decide)

theorem unicast_routed_toDevice :
    TakesCopy ((heardOn 1).bus 1)
        (((heardOn 1).receive 0 toDevice fun _ => {}).state.bus 1) toDevice.bytes true ∧
      queued ((heardOn 1).bus 2)
        (((heardOn 1).receive 0 toDevice fun _ => {}).state.bus 2) = [] := by
  have hcalls : calls (((heardOn 1).bus 0).receive toDevice) = true := by decide +kernel
  have hroutes := unicast_routed twoParts installed_twoParts
    [.receive 1 fromDevice fun _ => {}] (by
      rw [Run.steps_cons, Run.steps_nil, List.forall_mem_singleton]
      exact ⟨by decide +kernel, trivial⟩)
    (heardOn 1) rfl 0 toDevice (fun _ => {}) (delivered_of_calls hcalls) (by decide) (by decide)
    (by decide) (by decide) (fun i => ⟨⟨4, by decide⟩, by revert i; decide +kernel⟩)
  have hlocated : LocatedOn (busIdOf 1) ([(twoParts, .receive 1 fromDevice fun _ => {})] ++
      [(heardOn 1, .receive 0 toDevice fun _ => {})]) 45 1 := by
    refine (locatedOn_append 45 1 _).mpr (Or.inr ⟨⟨?_, ?_⟩, ?_⟩)
    · exact fun j => not_heard_toDevice _ 0 j _
    · rintro ⟨maxAttempts, turns, k, htraffic, -⟩
      cases htraffic
    · exact ⟨[], _, [], rfl, heard_fromDevice 1, fun u hu => absurd hu List.not_mem_nil⟩
  obtain ⟨hcopy, hothers, -⟩ := hroutes.known 1 hlocated (by decide)
  exact ⟨hcopy, hothers 2 (by decide)⟩

/-- An update in which nobody answers. -/
def unanswered : Traffic routing 3 :=
  .update lastBus 0 fun _ =>
    { canStart := true, response := fail, now := 1, backOff := 0, resetNow := 0 }

/-- Device 45 was heard on bus 2, which is no part of the virtual bus, and then lost there. -/
def lostOutside : VirtualBusRouter routing 3 :=
  Run.final virtualStep twoParts
    [.receive lastBus fromDevice fun _ => {}, .receive firstBus toDevice fun _ => {}, unanswered]

theorem lost_unanswered :
    Lost (busIdOf 1) 45 2
      (virtualStep (heardOn 2) (.receive 0 toDevice fun _ => {}), unanswered) := by
  refine ⟨0, _, ⟨0, by decide⟩, rfl, ⟨0, ?_⟩, ?_, ?_⟩
  · decide +kernel
  · decide +kernel
  · decide +kernel

/-- The router goes on sending to bus 2 what it should send to bus 1 now. -/
theorem lostOutside_keeps_location :
    Installed (busIdOf 1) twoParts ∧
      Delivered (lostOutside.bus 0) toDevice.bytes ∧
      (infoOf (lostOutside.bus 0) toDevice.bytes).hops < routing.maxHops ∧
      (infoOf (lostOutside.bus 0) toDevice.bytes).rx.busId = busIdOf 1 ∧
      (∀ i, HasRoom (lostOutside.bus i)) ∧
      ¬RoutesDevice (busIdOf 1)
        (Run.steps virtualStep twoParts [.receive 2 fromDevice fun _ => {},
          .receive 0 toDevice fun _ => {}, unanswered, .receive 0 toDevice fun _ => {}])
        lostOutside 0 toDevice.bytes (lostOutside.receive 0 toDevice fun _ => {}) := by
  have hcalls : calls ((lostOutside.bus 0).receive toDevice) = true := by decide +kernel
  refine ⟨installed_twoParts, delivered_of_calls hcalls, by decide +kernel, by decide +kernel,
    fun i => ⟨⟨4, by decide⟩, by revert i; decide +kernel⟩, fun hgood => ?_⟩
  have hnowhere : ∀ i, ¬LocatedOn (busIdOf 1) ([(twoParts, .receive 2 fromDevice fun _ => {})] ++
      [(heardOn 2, .receive 0 toDevice fun _ => {})] ++
      [(virtualStep (heardOn 2) (.receive 0 toDevice fun _ => {}), unanswered)] ++
      [(lostOutside, .receive 0 toDevice fun _ => {})]) 45 i := by
    intro i hlocated
    have hlast := (locatedOn_append 45 i _).mp hlocated
    have hupdate := (locatedOn_append 45 i _).mp
      (hlast.resolve_left (not_heard_toDevice _ 0 i _)).2
    rcases hupdate with ⟨delivery, surroundings, htraffic, -⟩ | ⟨⟨-, hkept⟩, hbefore⟩
    · cases htraffic
    have hsecond := (locatedOn_append 45 i _).mp hbefore
    have hfirst : LocatedOn (busIdOf 1) ([] ++ [(twoParts, .receive 2 fromDevice fun _ => {})]) 45
        i := (hsecond.resolve_left (not_heard_toDevice _ 0 i _)).2
    rcases (locatedOn_append 45 i _).mp hfirst with
      ⟨delivery, surroundings, htraffic, -⟩ | ⟨-, hnever⟩
    · obtain ⟨rfl, -, -⟩ := Traffic.receive.inj htraffic
      exact hkept lost_unanswered
    · exact Run.not_since_nil hnever
  obtain ⟨frame, hqueued, -⟩ := (hgood.unknown hnowhere).1 1 (by decide +kernel) (by decide)
  have hnothing : queued (lostOutside.bus 1)
      ((lostOutside.receive 0 toDevice fun _ => {}).state.bus 1) = [] := by decide +kernel
  rw [hnothing] at hqueued
  cases hqueued

end Pjon.Proofs.VirtualBus
