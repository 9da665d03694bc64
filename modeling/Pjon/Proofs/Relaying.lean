import Pjon.Proofs.Arrivals
import Pjon.Proofs.Hops
import Pjon.Proofs.Routes
import Pjon.Proofs.Transparent
import Pjon.Proofs.VirtualBus
import Pjon.Spec.Internetwork
/-!
# A router on the way

What a packet with another hop count is accepted by, and what a router with a table makes of a
packet that comes in: the frame one hop further, on the bus that it knows for the bus id.
-/

namespace Pjon.Proofs.Relaying

open Pjon.Lib Pjon.Model Pjon.Model.Tools Pjon.Spec
open Pjon.Proofs.Layout Pjon.Proofs.Interop Pjon.Proofs.Recompose Pjon.Proofs.Receive
open Pjon.Proofs.Canonical Pjon.Proofs.Forward Pjon.Proofs.Switch Pjon.Proofs.Arrivals
open Pjon.Proofs.Routes Pjon.Proofs.Transparent Pjon.Proofs.Destinations

/-! ## Where the hop count stands -/

/-- The hop count is behind the recipient's bus id and in front of the MAC addresses. -/
theorem hopsIndex_bounds {header : UInt8} (hmode : has header modeBit = true) :
    8 + (has header extLenBit).toNat ≤ hopsIndex header ∧
      hopsIndex header + 1 + crcOverhead header + (if has header macBit then 12 else 0) ≤
        packetOverhead header := by
  unfold hopsIndex txBusIndex busIndex crcOverhead packetOverhead
  rw [hmode]
  cases has header txInfoBit <;> cases has header extLenBit <;>
    simp only [Bool.false_eq_true, if_true, if_false, Bool.toNat_true, Bool.toNat_false] <;>
    split_ifs <;> omega

section Bytes

variable {b : Build} {bus : Bus b} {s : List UInt8} (hadm : Admissible bus s)
  (hmode : has (header s) modeBit = true) (hops : UInt8)

include hadm

theorem crcOverhead_lt : crcOverhead (header s) < encodedLength s := by
  have hover := hadm.overhead
  have hge := packetOverhead_ge (header s)
  have hcrc := Frames.crcOverhead_le (header s)
  omega

include hmode

omit hadm in
theorem withHops_eq : withHops s hops =
    (s.take (encodedLength s - crcOverhead (header s))).set (hopsIndex (header s)) hops ++
      closingCrc (header s)
        ((s.take (encodedLength s - crcOverhead (header s))).set (hopsIndex (header s)) hops) := by
  rw [withHops, if_pos hmode]

omit hmode in
theorem length_body : ((s.take (encodedLength s - crcOverhead (header s))).set
    (hopsIndex (header s)) hops).length = encodedLength s - crcOverhead (header s) := by
  have hcomplete := hadm.complete
  rw [List.length_set, List.length_take]
  omega

theorem length_withHops : (withHops s hops).length = encodedLength s := by
  have hlt := crcOverhead_lt hadm
  rw [withHops_eq hmode, List.length_append, length_body hadm, length_closingCrc]
  omega

/-- In front of the end CRC one byte is another. -/
theorem byte_withHops {i : Nat} (hi : i < encodedLength s - crcOverhead (header s)) :
    byte (withHops s hops) i = if i = hopsIndex (header s) then hops else byte s i := by
  have hcomplete := hadm.complete
  have hbody := length_body hadm hops
  rw [byte, withHops_eq hmode, List.getD_append _ _ _ _ (by omega), List.getD_eq_getElem?_getD,
    List.getElem?_set, List.length_take]
  by_cases heq : hopsIndex (header s) = i
  · rw [if_pos heq, if_pos (by omega), if_pos heq.symm]
    rfl
  · rw [if_neg heq, if_neg (Ne.symm heq), List.getElem?_take_of_lt hi, byte,
      List.getD_eq_getElem?_getD]

theorem byte_withHops_of_ne {i : Nat} (hi : i < encodedLength s - crcOverhead (header s))
    (hne : i ≠ hopsIndex (header s)) : byte (withHops s hops) i = byte s i := by
  rw [byte_withHops hadm hmode hops hi, if_neg hne]

/-- In front of the hop count nothing changes. -/
theorem byte_withHops_of_lt {i : Nat} (hi : i < hopsIndex (header s)) :
    byte (withHops s hops) i = byte s i := by
  have hbounds := hopsIndex_bounds hmode
  have hover := hadm.overhead
  exact byte_withHops_of_ne hadm hmode hops (by omega) hi.ne

theorem header_withHops : header (withHops s hops) = header s := by
  have hbounds := hopsIndex_bounds hmode
  exact byte_withHops_of_lt hadm hmode hops (by omega)

theorem encodedLength_withHops : encodedLength (withHops s hops) = encodedLength s := by
  have hbounds := hopsIndex_bounds hmode
  rw [encodedLength, encodedLength, header_withHops hadm hmode,
    byte_withHops_of_lt hadm hmode hops (by omega), byte_withHops_of_lt hadm hmode hops (by omega)]

theorem shift_withHops : shift (withHops s hops) = shift s := by
  rw [shift, shift, header_withHops hadm hmode]

theorem hopCount_withHops : hopCount (withHops s hops) = hops := by
  have hbounds := hopsIndex_bounds hmode
  have hover := hadm.overhead
  rw [hopCount, header_withHops hadm hmode, byte_withHops hadm hmode hops (by omega), if_pos rfl]

/-- The end CRC is that of the bytes in front of it. -/
theorem endCrc_withHops :
    if has (header s) crcBit then
      Memory.load (byte (withHops s hops)) (encodedLength s - 4) 4 =
        Crc32.bytes (Crc32.compute ((withHops s hops).take (encodedLength s - 4)))
    else byte (withHops s hops) (encodedLength s - 1) =
      Crc8.compute ((withHops s hops).take (encodedLength s - 1)) := by
  have hbody := length_body hadm hops
  have hall := holds_byte (withHops s hops)
  have htake : (withHops s hops).take (encodedLength s - crcOverhead (header s)) =
      (s.take (encodedLength s - crcOverhead (header s))).set (hopsIndex (header s)) hops := by
    rw [withHops_eq hmode]
    exact List.take_left' hbody
  have hcrc : Memory.load (byte (withHops s hops)) (encodedLength s - crcOverhead (header s))
      (crcOverhead (header s)) = closingCrc (header s)
        ((withHops s hops).take (encodedLength s - crcOverhead (header s))) := by
    rw [htake]
    generalize hframe : withHops s hops = frame at hall ⊢
    rw [withHops_eq hmode] at hframe
    rw [← hframe, Memory.holds_append, Nat.zero_add, hbody] at hall
    have hend := hall.2
    rw [Memory.Holds, length_closingCrc] at hend
    rw [← hframe]
    exact hend
  simp only [crcOverhead, closingCrc] at hcrc
  split_ifs at hcrc ⊢ with hset
  · exact hcrc
  · simpa [Memory.load] using hcrc

/-- What a bus accepts, it accepts with any hop count. -/
theorem admissible_withHops : Admissible bus (withHops s hops) := by
  have hbounds := hopsIndex_bounds hmode
  have hover := hadm.overhead
  have hheader := header_withHops hadm hmode hops
  have hlength := encodedLength_withHops hadm hmode hops
  have hshift := shift_withHops hadm hmode hops
  have hzero : byte (withHops s hops) 0 = byte s 0 :=
    byte_withHops_of_lt hadm hmode hops (by omega)
  have hshiftOf : shift s = (has (header s) extLenBit).toNat := rfl
  constructor
  · rw [hlength, length_withHops hadm hmode]
  · rw [hzero, hheader]
    exact hadm.recipient
  · rw [hzero, hheader]
    exact hadm.broadcastAck
  · rw [hheader]
    exact hadm.extLenCrc
  · rw [hheader]
    exact hadm.macCrc
  · rw [hheader]
    exact hadm.packetId
  · rw [hheader]
    exact hadm.port
  · rw [hheader]
    exact hadm.mac
  · rw [hheader]
    exact hadm.mode
  · rw [hheader, hshift]
    refine hadm.busId.imp_right fun h hshared hmac k hk => ?_
    rw [byte_withHops_of_lt hadm hmode hops (by omega)]
    exact h hshared hmac k hk
  · rw [hheader, hlength]
    exact hover
  · rw [hlength]
    exact hadm.maxLength
  · rw [hheader, hlength]
    exact hadm.longCrc
  · have hcomplete := hadm.complete
    have hfront : (withHops s hops).take (3 + shift s) = s.take (3 + shift s) := by
      have hload : Memory.load (byte s) 0 (3 + shift s) = (withHops s hops).take (3 + shift s) :=
        load_eq_take (by rw [length_withHops hadm hmode]; omega) fun k hk =>
          (byte_withHops_of_lt hadm hmode hops (by omega)).symm
      rw [← hload]
      exact load_eq_take (by omega) fun _ _ => rfl
    rw [hshift, hfront, byte_withHops_of_lt hadm hmode hops (by omega)]
    exact hadm.frontCrc
  · rw [hheader, hlength]
    exact endCrc_withHops hadm hmode hops
  · rw [hheader]
    refine hadm.macAddress.imp_right fun h hmac => ?_
    have hcrc : crcOverhead (header s) = 4 := if_pos (hadm.macCrc hmac)
    simp only [hmac, hcrc, if_true] at hbounds
    have hvector : Memory.vector (byte (withHops s hops)) (packetOverhead (header s) - 16) 6 =
        Memory.vector (byte s) (packetOverhead (header s) - 16) 6 :=
      vector_congr fun k hk => byte_withHops_of_ne hadm hmode hops (by omega) (by omega)
    rw [hvector]
    exact h hmac

/-- With the hop count that it has, a packet is as it is. -/
theorem withHops_hopCount : withHops s (hopCount s) = s.take (encodedLength s) := by
  have hcomplete := hadm.complete
  have hlt := crcOverhead_lt hadm
  have hover := hadm.overhead
  have hbounds := hopsIndex_bounds hmode
  have hbody : (s.take (encodedLength s - crcOverhead (header s))).set (hopsIndex (header s))
      (hopCount s) = s.take (encodedLength s - crcOverhead (header s)) := by
    have hindex : hopsIndex (header s) <
        (s.take (encodedLength s - crcOverhead (header s))).length := by
      rw [List.length_take]
      omega
    have hcount : hopCount s = (s.take (encodedLength s - crcOverhead (header s)))[hopsIndex
        (header s)] := by
      rw [List.getElem_take, hopCount, byte, List.getD_eq_getElem]
    rw [hcount]
    exact List.set_getElem_self hindex
  have hload : Memory.load (byte s) 0 (encodedLength s - crcOverhead (header s)) =
      s.take (encodedLength s - crcOverhead (header s)) := load_eq_take (by omega) fun _ _ => rfl
  have hwhole : Memory.load (byte s) 0 (encodedLength s) = s.take (encodedLength s) :=
    load_eq_take hcomplete fun _ _ => rfl
  have hlength : encodedLength s =
      (encodedLength s - crcOverhead (header s)) + crcOverhead (header s) := by omega
  rw [withHops_eq hmode, hbody, closingCrc_eq hadm, ← hwhole]
  conv_rhs => rw [hlength, Memory.load_append, hload, Nat.zero_add]

end Bytes

/-! ## What the packet carries -/

section Carried

variable {b : Build} {s : List UInt8} (hmode : has (header s) modeBit = true) (hops : UInt8)
  {bus : Bus b} (hadm : Admissible bus s) (hexplicit : Explicit bus s)
  (hshared : b.pjonLocal = false) (hmax : b.packetMaxLength < 65536)

include hadm hexplicit hshared hmax

/-- A device finds another hop count in the packet, and nothing else. -/
theorem recovers_infoOf_withHops : payloadOf (withHops s hops) = payloadOf s ∧
    Recovers { infoOf bus s with hops := hops } (header s) (infoOf bus (withHops s hops)) := by
  have hlength : (payloadOf s).length < 65536 := by
    have hlt := hadm.maxLength
    rw [payloadOf, Memory.length_load]
    omega
  have hseen : Seen bus s (infoOf bus s) := ⟨rfl, fun _ => rfl, fun _ => rfl⟩
  have hpayload : (⟨payloadOf s, hlength⟩ : Payload).bytes = payloadOf s := rfl
  exact (recovers_withHops hadm hseen hexplicit hpayload hshared hops).2.2

include hmode in
theorem infoOf_withHops :
    withoutMacs (infoOf bus (withHops s hops)) =
      withoutMacs { infoOf bus s with hops := hops } := by
  have hself := (recovers_self bus s).fields
  rw [(recovers_infoOf_withHops hops hadm hexplicit hshared hmax).2.fields]
  calc withoutMacs { carried { infoOf bus s with hops := hops } (header s) with
          customPointer := bus.customPointer }
      = { withoutMacs { carried (infoOf bus s) (header s) with
          customPointer := bus.customPointer } with hops := hops } := by
        simp only [withoutMacs, carried, hmode, if_true]
    _ = { withoutMacs (infoOf bus s) with hops := hops } :=
        congrArg (fun info : PacketInfo => { info with hops := hops }) hself.symm

end Carried

/-! ## Packets that routers take in -/

section Routable

variable {r : RouterBuild} {s : List UInt8} {target : Vector UInt8 4} (h : Routable r s target)

include h

theorem explicit_listener : Explicit (listener r) s := ⟨h.id, h.port⟩

/-- What one bus in router mode accepts, all do. -/
theorem admissible_of_router {bus : Bus r.toBuild} (hrouter : bus.router = true) :
    Admissible bus s := by
  obtain ⟨hcomplete, -, hbroadcast, hextLen, hmacCrc, hid, hport, hmac, -, -, hoverhead, hmax,
    hlong, hfront, hend, -⟩ := h.admissible
  exact ⟨hcomplete, Or.inl hrouter, hbroadcast, hextLen, hmacCrc, hid, hport, hmac, Or.inl hrouter,
    Or.inl hrouter, hoverhead, hmax, hlong, hfront, hend, Or.inl hrouter⟩

theorem delivered_of_router {bus : Bus r.toBuild} (hrouter : bus.router = true)
    (hport : bus.port = noPort) : Delivered bus s := by
  refine ⟨admissible_of_router h hrouter, Or.inl hrouter, ?_⟩
  rw [portMatches, hport]
  simp

theorem targetOf_of_routable (bus : Bus r.toBuild) : targetOf (infoOf bus s) = target :=
  (if_pos h.shared).trans h.recipient

theorem hops_of_routable (bus : Bus r.toBuild) : (infoOf bus s).hops = hopCount s :=
  Hops.hops_parse r.shared h.shared

theorem infoOf_listener_withHops (hops : UInt8) :
    withoutMacs (infoOf (listener r) (withHops s hops)) =
      withoutMacs { infoOf (listener r) s with hops := hops } :=
  infoOf_withHops h.shared hops h.admissible (explicit_listener h) r.shared r.packetMaxLength_lt

/-- With any hop count it comes from the same bus id. -/
theorem sender_withHops (hops : UInt8) : (infoOf (listener r) (withHops s hops)).tx.busId =
    (infoOf (listener r) s).tx.busId := by
  have hsender := congrArg (fun info : PacketInfo => info.tx.busId)
    (infoOf_listener_withHops h hops)
  exact hsender

/-- The packet is one for the same bus id with any hop count. -/
theorem routable_withHops (hops : UInt8) : Routable r (withHops s hops) target := by
  have hadm := h.admissible
  have hheader := header_withHops hadm h.shared hops
  have hinfo := infoOf_listener_withHops h hops
  have hrecipient := congrArg (fun info : PacketInfo => info.rx.busId) hinfo
  have hid := congrArg PacketInfo.id hinfo
  have hport := congrArg PacketInfo.port hinfo
  simp only [withoutMacs] at hrecipient hid hport
  refine ⟨admissible_withHops hadm h.shared hops, ?_, ?_, hrecipient.trans h.recipient,
    sender_withHops h hops ▸ h.sender, ?_, ?_⟩
  · rw [length_withHops hadm h.shared, encodedLength_withHops hadm h.shared]
  · rw [hheader]
    exact h.shared
  · rw [hheader, hid]
    exact h.id
  · rw [hheader, hport]
    exact h.port

theorem withHops_self : withHops s (hopCount s) = s := by
  rw [withHops_hopCount h.admissible h.shared, ← h.exact, List.take_length]

theorem withHops_again (hops hops' : UInt8) :
    withHops (withHops s hops) hops' = withHops s hops' := by
  have hadm := h.admissible
  have hseen : Seen (listener r) s (infoOf (listener r) s) := ⟨rfl, fun _ => rfl, fun _ => rfl⟩
  have hpayload : (⟨payloadOf s, length_payloadOf_lt hadm⟩ : Payload).bytes = payloadOf s := rfl
  exact withHops_withHops hadm hseen (explicit_listener h) hpayload r.shared hops hops'

/-- Devices have the packet handed over as if they were on the segment of its sender. -/
theorem arrivesAs_withHops (hops : UInt8) : ArrivesAs s (withHops s hops) hops := by
  intro b device arrival hshared hmin hmax harrival hdelivered
  have hadm := hdelivered.toAdmissible
  have hexplicit : Explicit device s := explicit_of_supports r.shared hshared
    (supports_of_admissible r.shared h.admissible) (supports_of_admissible hshared hadm)
    (explicit_listener h)
  obtain ⟨hpayload, hrecovers⟩ := recovers_infoOf_withHops hops hadm hexplicit hshared hmax
  have hinfo := infoOf_withHops h.shared hops hadm hexplicit hshared hmax
  have hheader := header_withHops hadm h.shared hops
  have hagain : Delivered device arrival.bytes := by
    rw [harrival]
    refine ⟨admissible_withHops hadm h.shared hops, ?_, ?_⟩
    · have hrecorded : recorded device (withHops s hops) = recorded device s := by
        have hsame : Bus.sameId (infoOf device (withHops s hops)) =
            Bus.sameId (infoOf device s) := by
          funext record
          rw [← sameId_withoutMacs, hinfo, sameId_withoutMacs]
          rfl
        rw [recorded_infoOf, recorded_infoOf, hheader, hsame]
      rw [hrecorded]
      exact hdelivered.fresh
    · have hport := congrArg PacketInfo.port hinfo
      simp only [withoutMacs] at hport
      rw [portMatches_infoOf, hport, ← portMatches_infoOf]
      exact hdelivered.port_matches
  obtain ⟨payload, info, hcalled⟩ := (Deliver.receive_delivers_iff device arrival hmin hmax).1.mpr
    hagain
  obtain ⟨-, hbytes, hseen, -⟩ := seen_of_receiver hmin hmax hcalled
  rw [harrival] at hbytes hseen
  refine ⟨info, ?_, ?_⟩
  · rw [← hpayload, ← hbytes]
    exact hcalled
  · obtain ⟨hfields, hrx, htx⟩ := hseen
    have hpointer : info.customPointer = device.customPointer :=
      congrArg PacketInfo.customPointer hfields
    refine ⟨?_, fun hmac => ?_, fun hmac => ?_⟩
    · rw [hfields, hpointer]
      exact hrecovers.fields
    · exact (hrx (hheader.symm ▸ hmac)).trans (hrecovers.rxMac hmac)
    · exact (htx (hheader.symm ▸ hmac)).trans (hrecovers.txMac hmac)

end Routable

/-! ## The search of a router -/

section Search

variable {r : RouterBuild} {n : Nat}

/-- The turns of a search whose results are a list come to its elements one after the other. -/
theorem filterMap_visits_of_enumerates {find : UInt8 → Option (Fin n) × UInt8}
    (hgrows : ∀ c, (find c).2 = notAssigned ∨ c.toNat < (find c).2.toNat)
    (hend : (find notAssigned).1 = none) (todo : Nat) :
    ∀ (turn : Nat) (start : UInt8) (l : List (Fin n)), Cursor.Enumerates find start l →
      256 ≤ start.toNat + todo → (visits find none todo turn start).filterMap Prod.snd = l := by
  induction todo with
  | zero =>
      intro _ start _ _ hleft
      have hlt := start.toNat_lt
      omega
  | succ todo ih =>
      intro turn start l hall hleft
      have htail : Cursor.Enumerates find (find start).2 l.tail := by
        intro k
        rw [List.getElem?_tail]
        exact hall (k + 1)
      have hrest : (if (find start).2 = notAssigned then []
          else visits find none todo (turn + 1) (find start).2).filterMap Prod.snd = l.tail := by
        split_ifs with hover
        · have hlast := htail 0
          rw [Cursor.answers, hover, hend] at hlast
          have hnone := Nat.le_zero.mp (List.getElem?_eq_none_iff.mp hlast.symm)
          exact (List.eq_nil_of_length_eq_zero hnone).symm
        · have hgrown := (hgrows start).resolve_left hover
          exact ih _ _ _ htail (by omega)
      have hfirst : (find start).1 = l[0]? := hall 0
      rw [visits, Option.or_none, hfirst, List.filterMap_cons, hrest]
      cases l <;> rfl

variable (x : Router r n) (currentBus : Fin n) (payload : Payload) (info : PacketInfo)
  (surroundings : Nat → Surroundings)

/-- The router while it sends: its buses are configured as before, and its table is the same. -/
abbrev SameRouter (x y : Router r n) : Prop :=
  SameBuses x.toSwitch y.toSwitch ∧ y.table = x.table

theorem findBusWithId_same {x y : Router r n} (h : SameRouter x y) (busId : Vector UInt8 4) :
    y.findBusWithId busId = x.findBusWithId busId := by
  funext start
  have hattached := h.1.find busId start
  unfold Router.findBusWithId Router.findBusInTable
  rw [hattached, h.2]

theorem sendsBy_router (h : WithinHops r.maxHops info) :
    SendsBy Router.toSwitch (SameRouter x) currentBus
      (fun turn => Router.sendPacket payload currentBus info (surroundings turn))
      (fun turn i bus => (Switch.handOn bus (x.translate i currentBus info) payload
        (surroundings turn)).bus) := by
  obtain ⟨hkeeps, hhere, helsewhere⟩ :=
    sendsBy_switch x.toSwitch currentBus payload info surroundings h
  exact ⟨fun turn i ackSent y hy => ⟨hkeeps turn i ackSent y.toSwitch hy.1, hy.2⟩,
    fun turn i ackSent y hy => hhere turn i ackSent y.toSwitch hy.1,
    fun turn i ackSent y => helsewhere turn i ackSent y.toSwitch⟩

/-- The search for a bus id comes to one bus, or to none. -/
structure Finds (x : Router r n) (target : Vector UInt8 4) (via : Option (Fin n)) : Prop where
  routes : routesTo x target = via.toList
  rows : x.table.length < 256
  reach : WithinReach x target
  gateway : x.defaultGateway = none

variable {x} {via : Option (Fin n)} (hfinds : Finds x (targetOf info) via)

include hfinds

theorem filterMap_visits_finds :
    (visits (x.findBusWithId (targetOf info)) none 256 0 0).filterMap Prod.snd = via.toList := by
  rw [← hfinds.routes]
  refine filterMap_visits_of_enumerates (fun c => cursor_grows hfinds.reach rfl c) ?_ 256 0 0 _
    ((findBusWithId_enumerates_iff hfinds.rows).mpr hfinds.reach) (by decide)
  rw [findBusWithId_notAssigned]

/-- What the receiver function leaves at a bus, turn by turn. -/
theorem bus_receiverFunction (h : WithinHops r.maxHops info) {y : Router r n}
    (hy : SameRouter x y) (i : Fin n) :
    ∃ turns : List (Nat × Option (Fin n)), turns.length = via.toList.count i ∧
      (y.receiverFunction currentBus payload info surroundings).state.bus i =
        if i = currentBus then y.bus i
        else turns.foldl (fun bus turn => (Switch.handOn bus (x.translate i currentBus info) payload
          (surroundings turn.1)).bus) (y.bus i) := by
  have hsends := sendsBy_router x currentBus payload info surroundings h
  have hgateway : y.defaultGateway = none := hy.1.defaultGateway.trans hfinds.gateway
  have hloop := searchLoop_eq none
    (fun z (hz : SameRouter x z) => findBusWithId_same hz (targetOf info))
    (fun turn receiverBus ackSent z hz =>
      (bus_forwardPacket hsends turn receiverBus ackSent hz i).1) 256 0 0 { state := y } hy
  have hturns := length_turnsTo i (visits (x.findBusWithId (targetOf info)) none 256 0 0)
  rw [filterMap_visits_finds info hfinds] at hturns
  refine ⟨_, hturns, ?_⟩
  rw [Router.receiverFunction, dynamicReceiverFunction, hgateway, hloop]
  exact bus_foldl hsends i _ _ hy

end Search

/-! ## What a dynamic router learns -/

section Learned

variable {r : RouterBuild} {n : Nat} {x : Router r n} {target : Vector UInt8 4}
  {via : Option (Fin n)}

/-- The first thing that the receiver function of a dynamic router does, and that of another
router does not. -/
abbrev prepared (dynamic : Bool) (x : Router r n) (info : PacketInfo) (currentBus : Fin n) :
    Router r n :=
  if dynamic then x.addSenderToRoutingTable info currentBus else x

variable (dynamic : Bool) (info : PacketInfo) (currentBus : Fin n)

theorem toSwitch_prepared : (prepared dynamic x info currentBus).toSwitch = x.toSwitch := by
  unfold prepared
  split_ifs
  · exact Identity.toSwitch_addSenderToRoutingTable x info currentBus
  · rfl

theorem sameRouter_prepared {y : Router r n} (h : SameRouter x y) :
    SameRouter (prepared dynamic x info currentBus) (prepared dynamic y info currentBus) := by
  constructor
  · rw [toSwitch_prepared, toSwitch_prepared]
    exact h.1
  · unfold prepared Router.addSenderToRoutingTable Router.add
    rw [findBusWithId_same h, h.2]
    split_ifs <;> first | rfl | exact h.2

/-- A new row is behind the others. -/
theorem table_add (hrows : x.table.length < 255) (hroom : x.table.length < r.tableSize)
    (busId : Vector UInt8 4) (i : Fin n) : (x.add busId i).table = x.table ++ [⟨busId, i⟩] := by
  have hlength : (x.table.length + 1) % 256 = (x.table ++ [(⟨busId, i⟩ : Route n)]).length := by
    rw [List.length_append, List.length_singleton]
    exact Nat.mod_eq_of_lt (by omega)
  rw [Router.add, if_pos hroom, hlength, List.take_length]

/-- A row is added behind the others, or the table stays as it is. -/
theorem table_prepared (hrows : x.table.length < 255) :
    (prepared dynamic x info currentBus).table = x.table ∨
      (prepared dynamic x info currentBus).table = x.table ++ [⟨info.tx.busId, currentBus⟩] := by
  unfold prepared Router.addSenderToRoutingTable
  split_ifs
  · by_cases hroom : x.table.length < r.tableSize
    · exact Or.inr (table_add hrows hroom info.tx.busId currentBus)
    · rw [Router.add, if_neg hroom]
      exact Or.inl rfl
  all_goals exact Or.inl rfl

/-- What is learned of the sender is nothing to packets for another bus id. -/
theorem finds_prepared (h : Ready x target via) (hsender : info.tx.busId ≠ target) :
    Finds (prepared dynamic x info currentBus) target via := by
  have hswitch : (prepared dynamic x info currentBus).toSwitch = x.toSwitch :=
    toSwitch_prepared dynamic info currentBus
  have hbusId (i : Fin n) : (prepared dynamic x info currentBus).busId i = x.busId i :=
    congrArg (fun s : Switch r n => s.busId i) hswitch
  have hgateway : (prepared dynamic x info currentBus).defaultGateway = none :=
    (congrArg Switch.defaultGateway hswitch).trans h.gateway
  have hroutes := h.routes
  have hrows := h.rows
  have hbeq : (target == info.tx.busId) = false := beq_eq_false_iff_ne.mpr hsender.symm
  rw [routesTo] at hroutes
  rcases table_prepared dynamic info currentBus h.rows with htable | htable
  · refine ⟨?_, by rw [htable]; omega, ?_, hgateway⟩
    · rw [routesTo, htable]
      simp only [hbusId]
      exact hroutes
    · unfold WithinReach
      rw [htable]
      exact fun i hi => h.reach ⟨i, hi⟩
  · refine ⟨?_, ?_, ?_, hgateway⟩
    · rw [routesTo, htable, List.filter_append, List.filter_singleton, hbeq]
      simp only [hbusId, Bool.cond_false, List.append_nil]
      exact hroutes
    · rw [htable, List.length_append, List.length_singleton]
      omega
    · unfold WithinReach
      rw [htable]
      intro i hi hid
      by_cases hold : i < x.table.length
      · refine h.reach ⟨i, hold⟩ ?_
        rw [← hid]
        simp [List.getElem_append_left hold]
      · have hnew : (x.table ++ [(⟨info.tx.busId, currentBus⟩ : Route n)]).get ⟨i, hi⟩ =
            ⟨info.tx.busId, currentBus⟩ := by
          simp [List.getElem_append_right (Nat.le_of_not_lt hold)]
        rw [hnew] at hid
        exact absurd hid hsender

end Learned

/-! ## One router -/

section Relayed

variable {r : RouterBuild} {n : Nat} {x : Router r n} {target : Vector UInt8 4}
  {via : Option (Fin n)} {dynamic : Bool} {currentBus : Fin n} {delivery : Delivery}
  {surroundings : Nat → Surroundings}

/-- At the hop limit nothing is put in a send buffer. -/
theorem queued_received_over (hconnected : Connected x.toSwitch)
    (hmode : has (header delivery.bytes) modeBit)
    (hover : ¬hopCount delivery.bytes + 1 ≤ r.maxHops) (i : Fin n) :
    queued (x.bus i) ((received dynamic x currentBus delivery surroundings).bus i) = [] := by
  have hall (cls : RouterClass r n) (hcls : cls ∈ RouterClass.all r n) (y : cls.State)
      (hy : Connected (cls.switch y)) :
      queued ((cls.switch y).bus i)
        ((cls.switch (cls.receive y currentBus delivery surroundings).state).bus i) = [] := by
    have hemits := Hops.emits_receive hmode hcls y hy currentBus surroundings
    rw [List.eq_nil_iff_forall_not_mem]
    intro frame hframe
    obtain ⟨k, hfree, hused, -⟩ := mem_queued.mp hframe
    exact hover (hemits.taken i k hfree hused).limit
  cases dynamic with
  | false => exact hall (RouterClass.router r n) (by simp [RouterClass.all]) x hconnected
  | true => exact hall (RouterClass.dynamicRouter r n) (by simp [RouterClass.all]) x hconnected

/-- A packet that is handed over: what its info says, and what the receiver function starts with. -/
structure Taken (x : Router r n) (currentBus : Fin n) (delivery : Delivery)
    (target : Vector UInt8 4) (info : PacketInfo) (payload : Payload) (y : Router r n) : Prop where
  seen : Seen (x.bus currentBus) delivery.bytes info
  target : targetOf info = target
  hops : info.hops = hopCount delivery.bytes
  sender : info.tx.busId = (infoOf (listener r) delivery.bytes).tx.busId
  payload : payload.bytes = payloadOf delivery.bytes
  switch : y.toSwitch = x.toSwitch.setBus currentBus ((x.bus currentBus).receive delivery).bus
  same : SameRouter x y

variable (dynamic currentBus surroundings) in
/-- What is left of a router that a packet is handed over to. -/
theorem received_eq (hready : Ready x target via) (h : Routable r delivery.bytes target) :
    ∃ info payload y, Taken x currentBus delivery target info payload y ∧
      received dynamic x currentBus delivery surroundings =
        ((prepared dynamic y info currentBus).receiverFunction currentBus payload info
          surroundings).state := by
  have hdelivered := delivered_of_router h (hready.connected currentBus) (hready.noPort currentBus)
  obtain ⟨info, hinfo, hcalled, hreceive⟩ := receiveOn_of_delivered Router.toSwitch Router.setSwitch
    (fun router payload info => (prepared dynamic router info currentBus).receiverFunction
      currentBus payload info surroundings) (hready.connected currentBus) hdelivered
  obtain ⟨-, -, hseen, -⟩ := seen_of_receiver r.packetMaxLength_ge r.packetMaxLength_lt hcalled
  have hhops := congrArg PacketInfo.hops hinfo
  have hsender := congrArg (fun info : PacketInfo => info.tx.busId) hinfo
  refine ⟨info, delivered hdelivered,
    afterReceive Router.toSwitch Router.setSwitch x currentBus delivery, ⟨hseen, ?_, ?_, hsender,
      bytes_delivered hdelivered, rfl, SameBuses.receive x.toSwitch currentBus delivery, rfl⟩, ?_⟩
  · rw [← targetOf_withoutMacs, hinfo, targetOf_withoutMacs, targetOf_of_routable h]
  · exact hhops.trans (hops_of_routable h (x.bus currentBus))
  · have hstate := congrArg Routing.state hreceive
    cases dynamic <;> exact hstate

/-- A router that knows the way puts the packet in the send buffer of that bus, one hop further,
unless it has come in there; all other send buffers stay as they are. -/
theorem queued_received (hready : Ready x target via) (h : Routable r delivery.bytes target)
    (i : Fin n) (hhops : via = some i ∧ i ≠ currentBus → hopCount delivery.bytes < r.maxHops) :
    queued (x.bus i) ((received dynamic x currentBus delivery surroundings).bus i) =
      if via = some i ∧ i ≠ currentBus then
        [withHops delivery.bytes (hopCount delivery.bytes + 1)]
      else [] := by
  obtain ⟨info, payload, y, htaken, hreceived⟩ :=
    received_eq dynamic currentBus surroundings hready h
  have hcount := htaken.hops
  have hadm := admissible_of_router h (hready.connected currentBus)
  have hsender : info.tx.busId ≠ target := htaken.sender ▸ h.sender
  by_cases hover : ¬WithinHops r.maxHops info
  · rw [if_neg (fun hboth => hover (withinHops_of_lt (hcount ▸ hhops hboth)))]
    exact queued_received_over hready.connected h.shared (hcount ▸ hover) i
  have hwithin := not_not.mp hover
  have hswitch : (prepared dynamic x info currentBus).toSwitch = x.toSwitch :=
    toSwitch_prepared dynamic info currentBus
  have hswitch' : (prepared dynamic y info currentBus).toSwitch = y.toSwitch :=
    toSwitch_prepared dynamic info currentBus
  obtain rfl := htaken.target
  obtain ⟨turns, hturns, hbus⟩ := bus_receiverFunction currentBus payload info surroundings
    (finds_prepared dynamic info currentBus hready hsender) hwithin
    (sameRouter_prepared dynamic info currentBus htaken.same) i
  rw [hswitch, hswitch', htaken.switch] at hbus
  rw [hreceived, hbus]
  by_cases hi : i = currentBus
  · -- the bus that has received has its send buffer as before
    subst hi
    rw [if_pos rfl, if_neg (fun hboth => hboth.2 rfl), Switch.bus_setBus]
    exact VirtualBus.queued_of_slots fun k => receive_slot _ _ k
  · rw [if_neg hi, Switch.bus_setBus_ne _ _ (Ne.symm hi)]
    by_cases hvia : via = some i
    · rw [if_pos ⟨hvia, hi⟩]
      rw [hvia, Option.toList_some, List.count_singleton_self, List.length_eq_one_iff] at hturns
      obtain ⟨turn, rfl⟩ := hturns
      rw [List.foldl_cons, List.foldl_nil, ← sendPacket_bus x.toSwitch _ _ _ _ i false, ← hcount]
      exact queued_sendPacket hadm htaken.seen
        ⟨(explicit_listener h).id, (explicit_listener h).port⟩ htaken.payload
        (hcount ▸ hhops ⟨hvia, hi⟩) (hready.noNat currentBus) (hready.noNat i) (hready.room i) _
        false
    · rw [if_neg (fun hboth => hvia hboth.1)]
      have hnone : via.toList.count i = 0 := by
        rw [List.count_eq_zero, Option.mem_toList]
        exact hvia
      rw [hnone, List.length_eq_zero_iff] at hturns
      rw [hturns, List.foldl_nil]
      exact VirtualBus.queued_of_slots fun _ => rfl

end Relayed

/-! ## What is left of its table -/

section Table

variable {r : RouterBuild} {n : Nat} {x y : Router r n} {via : Option (Fin n)}

/-- What is found in a list is in it. -/
theorem mem_of_wrapping {busId : Vector UInt8 4} {l : List (Route n)} {c : Nat} {i : Fin n}
    (h : (Cursor.wrapping (Leads busId) Route.via 255 l c).1 = some i) :
    i ∈ (l.filter (Leads busId)).map Route.via := by
  rw [wrapping_eq] at h
  split_ifs at h
  cases hnext : Cursor.next (Leads busId) l c with
  | none =>
      rw [hnext] at h
      cases h
  | some entry =>
      rw [hnext] at h
      obtain ⟨-, hat, hleads, -⟩ := Cursor.next_spec hnext
      exact List.mem_map.mpr ⟨entry.1, List.mem_filter.mpr ⟨List.mem_of_getElem? hat, hleads⟩,
        Option.some.inj h⟩

theorem mem_routesTo_of_find {busId : Vector UInt8 4} {start : UInt8} {i : Fin n}
    (h : (x.findBusWithId busId start).1 = some i) : i ∈ routesTo x busId := by
  have hlt := x.busCount_lt
  rw [← filter_routes]
  by_cases hn : n < 255
  · exact mem_of_wrapping ((findBusWithId_eq x busId hn start).1.symm.trans h)
  · have hmem := mem_of_wrapping ((findBusWithId_eq_full x busId (by omega) start).1.symm.trans h)
    rw [List.filter_append, List.map_append]
    exact List.mem_append_left _ hmem

theorem routesTo_same (h : SameRouter x y) (busId : Vector UInt8 4) :
    routesTo y busId = routesTo x busId := by
  have hbusId (i : Fin n) : y.busId i = x.busId i := h.1.busId i
  simp only [routesTo, hbusId, h.2]

/-- The receiver function leaves the ids and the table as they are if it does not come to the hop
limit. -/
theorem sameRouter_receiverFunction {info : PacketInfo} {currentBus : Fin n} (payload : Payload)
    (surroundings : Nat → Surroundings) (hroutes : routesTo y (targetOf info) = via.toList)
    (hgateway : y.defaultGateway = none)
    (hwithin : ∀ i, via = some i → i ≠ currentBus → WithinHops r.maxHops info) :
    SameRouter y (y.receiverFunction currentBus payload info surroundings).state := by
  refine dynamicReceiverFunction_rule (fun routing => SameRouter y routing.state) currentBus info
    ⟨SameBuses.refl _, rfl⟩ fun turn i routing hi hfound hsame => ?_
  obtain ⟨start, hfind⟩ := hfound
  rw [hgateway, Option.or_none] at hfind
  have hmem := mem_routesTo_of_find hfind
  rw [routesTo_same hsame, hroutes, Option.mem_toList] at hmem
  have hsent := sameBuses_sendPacket routing.state.toSwitch payload currentBus info
    (surroundings turn) i routing.ackSent (hwithin i hmem hi)
  exact ⟨hsame.1.trans hsent, hsame.2⟩

/-- The search for an id starts with the first of its routes. -/
theorem findBusWithId_zero {busId : Vector UInt8 4} (hrows : x.table.length < 256)
    (hreach : WithinReach x busId) :
    (x.findBusWithId busId 0).1 = (routesTo x busId)[0]? :=
  (findBusWithId_enumerates_iff hrows).mpr hreach 0

/-- A router that is receptive to the id of the sender knows it afterwards. -/
theorem routesTo_prepared {dynamic : Bool} {info : PacketInfo} {currentBus : Fin n}
    (hrows : x.table.length < 255)
    (h : Receptive dynamic x info.tx.busId (some currentBus)) :
    routesTo (prepared dynamic x info currentBus) info.tx.busId = [currentBus] := by
  have hswitch : (prepared dynamic x info currentBus).toSwitch = x.toSwitch :=
    toSwitch_prepared dynamic info currentBus
  rcases h with ⟨hroutes, hreach⟩ | ⟨rfl, hroutes, hroom⟩
  · have hfound := findBusWithId_zero (by omega) (fun i hi => hreach ⟨i, hi⟩)
    have hunchanged : prepared dynamic x info currentBus = x := by
      unfold prepared Router.addSenderToRoutingTable
      rw [hfound, hroutes]
      simp
    rw [hunchanged, hroutes]
    rfl
  · have hnone := List.append_eq_nil_iff.mp hroutes
    have hreach : WithinReach x info.tx.busId := by
      intro i hi hid
      have hrow := List.filter_eq_nil_iff.mp (List.map_eq_nil_iff.mp hnone.2) _
        (List.get_mem x.table ⟨i, hi⟩)
      exact absurd (beq_iff_eq.mpr hid.symm) hrow
    have hfound := findBusWithId_zero (by omega) hreach
    rw [hroutes, List.getElem?_nil] at hfound
    have htable : (prepared true x info currentBus).table =
        x.table ++ [⟨info.tx.busId, currentBus⟩] := by
      show (x.addSenderToRoutingTable info currentBus).table = _
      rw [Router.addSenderToRoutingTable, if_pos hfound, table_add hrows hroom]
    have hbusId (i : Fin n) : (prepared true x info currentBus).busId i = x.busId i :=
      congrArg (fun s : Switch r n => s.busId i) hswitch
    rw [routesTo, htable, List.filter_append, List.map_append]
    simp only [hbusId]
    rw [← List.append_assoc, ← routesTo, hroutes]
    simp

variable {target : Vector UInt8 4} {dynamic : Bool} {currentBus : Fin n} {delivery : Delivery}
  {surroundings : Nat → Surroundings}

/-- A router that a packet is handed over to on the bus where its sender is knows that bus for the
bus id of the sender. -/
theorem routesTo_received (hready : Ready x target via) (h : Routable r delivery.bytes target)
    (hhops : ∀ i, via = some i → i ≠ currentBus → hopCount delivery.bytes < r.maxHops)
    {sender : Vector UInt8 4} (hsender : (infoOf (listener r) delivery.bytes).tx.busId = sender)
    (hreceptive : Receptive dynamic x sender (some currentBus)) :
    routesTo (received dynamic x currentBus delivery surroundings) sender = [currentBus] := by
  obtain ⟨info, payload, y, htaken, hreceived⟩ :=
    received_eq dynamic currentBus surroundings hready h
  have hbusId : info.tx.busId = sender := htaken.sender.trans hsender
  have hforeign : info.tx.busId ≠ target := htaken.sender ▸ h.sender
  have hfinds := finds_prepared dynamic info currentBus hready hforeign
  have hprepared := sameRouter_prepared dynamic info currentBus htaken.same
  have hwithin : ∀ i, via = some i → i ≠ currentBus → WithinHops r.maxHops info :=
    fun i hvia hi => withinHops_of_lt (htaken.hops ▸ hhops i hvia hi)
  have hroutes : routesTo (prepared dynamic y info currentBus) (targetOf info) = via.toList := by
    rw [htaken.target, routesTo_same hprepared, hfinds.routes]
  have hsame := sameRouter_receiverFunction payload surroundings hroutes
    (hprepared.1.defaultGateway.trans hfinds.gateway) hwithin
  subst hbusId
  rw [hreceived, routesTo_same hsame, routesTo_same hprepared]
  exact routesTo_prepared hready.rows hreceptive

end Table

end Pjon.Proofs.Relaying
