import Pjon.Proofs.Forward
import Pjon.Proofs.Deliver
/-!
# Where a switch sends a packet

The members of the classes are put together from calls that forward one packet to one
bus.  The rules here carry facts about single calls through the search loop and the
receiver; then the buses that the search visits are counted.
-/

namespace Pjon.Proofs.Switch

open Pjon.Lib Pjon.Model Pjon.Spec Pjon.Proofs.Forward

variable {r : RouterBuild} {n : Nat} {σ : Type}

/-! ## Rules for members -/

section Rules

/-- A member that does nothing. -/
theorem andThen_nothing (routing : Routing σ n) :
    routing.andThen (fun state ackSent => { state := state, ackSent := ackSent }) = routing := by
  simp [Routing.andThen]

/-- What holds of all that was done keeps holding if each turn of the search keeps it. -/
theorem searchLoop_rule {holds : Routing σ n → Prop}
    {find : σ → UInt8 → Option (Fin n) × UInt8} {gateway : Option (Fin n)}
    {send : Nat → Option (Fin n) → Bool → σ → Routing σ n}
    (hsend : ∀ turn start routing, holds routing →
      holds (routing.andThen fun state ackSent =>
        send turn ((find routing.state start).1.or gateway) ackSent state))
    (todo : Nat) :
    ∀ (turn : Nat) (start : UInt8) (routing : Routing σ n), holds routing →
      holds (searchLoop find gateway send todo turn start routing) := by
  induction todo with
  | zero => exact fun _ _ _ h => h
  | succ todo ih =>
      intro turn start routing h
      rw [searchLoop]
      split_ifs
      · exact hsend turn start routing h
      · exact ih _ _ _ (hsend turn start routing h)

/-- The rule for the search loop, with what `forward_packet` decides taken in. -/
theorem dynamicReceiverFunction_rule (holds : Routing σ n → Prop)
    {findBusWithId : σ → Vector UInt8 4 → UInt8 → Option (Fin n) × UInt8}
    {sendPacket : Nat → Fin n → Bool → σ → Routing σ n} {gateway : Option (Fin n)}
    (currentBus : Fin n) (info : PacketInfo) {state : σ} (h : holds { state := state })
    (hsend : ∀ turn i routing, i ≠ currentBus →
      (∃ start, (findBusWithId routing.state (targetOf info) start).1.or gateway = some i) →
      holds routing →
      holds (routing.andThen fun state ackSent => sendPacket turn i ackSent state)) :
    holds (dynamicReceiverFunction findBusWithId sendPacket gateway currentBus info state) := by
  refine searchLoop_rule (fun turn start routing hrouting => ?_) 256 0 0 _ h
  cases hfound : (findBusWithId routing.state (targetOf info) start).1.or gateway with
  | none => exact (andThen_nothing routing).symm ▸ hrouting
  | some i =>
      simp only [forwardPacket]
      by_cases hi : i = currentBus
      · simp only [if_pos hi]
        exact (andThen_nothing routing).symm ▸ hrouting
      · simp only [if_neg hi]
        exact hsend turn i routing hi ⟨start, hfound⟩ hrouting

/-- If all calls of `forward` were allowed, the object satisfies `inv`. -/
def Preserves (allowed : Forwarded n → Prop) (inv : σ → Prop) (routing : Routing σ n) : Prop :=
  (∀ call ∈ routing.forwards, allowed call) → inv routing.state

variable {allowed : Forwarded n → Prop} {inv : σ → Prop}

theorem Preserves.andThen {before : Routing σ n} {rest : σ → Bool → Routing σ n}
    (h : Preserves allowed inv before)
    (hrest : ∀ state ackSent, inv state → Preserves allowed inv (rest state ackSent)) :
    Preserves allowed inv (before.andThen rest) := by
  intro hall
  have hbefore := h fun call hcall => hall call (List.mem_append_left _ hcall)
  exact hrest _ _ hbefore fun call hcall => hall call (List.mem_append_right _ hcall)

theorem preserves_forwardPacket {sendPacket : Fin n → Bool → σ → Routing σ n}
    (receiverBus : Option (Fin n)) (senderBus : Fin n) (ackSent : Bool) {state : σ}
    (hstate : inv state)
    (hsend : ∀ i, i ≠ senderBus → Preserves allowed inv (sendPacket i ackSent state)) :
    Preserves allowed inv (forwardPacket sendPacket receiverBus senderBus ackSent state) := by
  cases receiverBus with
  | none => exact fun _ => hstate
  | some i =>
      rw [forwardPacket]
      by_cases hi : i = senderBus
      · rw [if_pos hi]
        exact fun _ => hstate
      · rw [if_neg hi]
        exact hsend i hi

variable {gateway : Option (Fin n)}

theorem preserves_dynamicReceiverFunction
    {findBusWithId : σ → Vector UInt8 4 → UInt8 → Option (Fin n) × UInt8}
    {sendPacket : Nat → Fin n → Bool → σ → Routing σ n} (currentBus : Fin n) (info : PacketInfo)
    {state : σ} (hstate : inv state)
    (hsend : ∀ turn i ackSent state, i ≠ currentBus → inv state →
      Preserves allowed inv (sendPacket turn i ackSent state)) :
    Preserves allowed inv
      (dynamicReceiverFunction findBusWithId sendPacket gateway currentBus info state) :=
  dynamicReceiverFunction_rule _ currentBus info (fun _ => hstate) fun turn i _ hi _ h =>
    h.andThen fun state ackSent hs => hsend turn i ackSent state hi hs

end Rules

/-! ## What `receive` hands to the object -/

section Receive

theorem receiverCall_append_receiver {events : List Event} (h : receiverCall events = none)
    (payload : List UInt8) (info : PacketInfo) (hlt : payload.length < 65536) :
    receiverCall (events ++ [.receiver payload info]) = some (⟨payload, hlt⟩, info) := by
  have htake : payload.take (payload.length % 65536) = payload := by
    rw [Nat.mod_eq_of_lt hlt, List.take_length]
  rw [receiverCall] at h
  rw [receiverCall, List.findSome?_append, h, Option.none_or, List.findSome?_cons_of_isSome]
  · simp only [htake]
  · rfl

/-- A bus in router mode hands over what is delivered, and acknowledges nothing itself. -/
theorem receive_of_delivered {bus : Bus r.toBuild} (hrouter : bus.router = true)
    {delivery : Delivery} (h : Delivered bus delivery.bytes) :
    ∃ info, withoutMacs info = withoutMacs (infoOf bus delivery.bytes) ∧
      (bus.receive delivery).events = [.receiver (payloadOf delivery.bytes) info] := by
  obtain ⟨info, hinfo, hcaused⟩ := Deliver.receive_caused bus delivery r.packetMaxLength_ge
    r.packetMaxLength_lt h.toAdmissible
  refine ⟨info, hinfo, ?_⟩
  rw [hcaused.events, ackDue, hrouter, h.port_matches]
  simp

theorem receive_of_not_delivered {bus : Bus r.toBuild} (hrouter : bus.router = true)
    {delivery : Delivery} (h : ¬Delivered bus delivery.bytes) :
    (bus.receive delivery).events = [] := by
  by_cases hadm : Admissible bus delivery.bytes
  · obtain ⟨info, -, hcaused⟩ := Deliver.receive_caused bus delivery r.packetMaxLength_ge
      r.packetMaxLength_lt hadm
    have hport : portMatches bus delivery.bytes = false := by
      rw [Bool.eq_false_iff]
      exact fun hport => h ⟨hadm, Or.inl hrouter, hport⟩
    rw [hcaused.events, ackDue, hrouter, hport]
    simp
  · exact Deliver.events_of_not_admissible bus delivery r.packetMaxLength_ge
      r.packetMaxLength_lt hadm

theorem length_payloadOf_lt {bus : Bus r.toBuild} {s : List UInt8} (h : Admissible bus s) :
    (payloadOf s).length < 65536 := by
  have hmax := h.maxLength
  have hlt := r.packetMaxLength_lt
  rw [payloadOf, Memory.length_load]
  omega

/-- The payload that is handed over. -/
def delivered {bus : Bus r.toBuild} {s : List UInt8} (h : Delivered bus s) : Payload :=
  ⟨payloadOf s, length_payloadOf_lt h.toAdmissible⟩

@[simp] theorem bytes_delivered {bus : Bus r.toBuild} {s : List UInt8} (h : Delivered bus s) :
    (delivered h).bytes = payloadOf s := rfl

theorem delivered_of_calls {bus : Bus r.toBuild} {delivery : Delivery}
    (h : calls (bus.receive delivery) = true) : Delivered bus delivery.bytes :=
  (Deliver.receive_delivers_iff bus delivery r.packetMaxLength_ge r.packetMaxLength_lt).1.mp
    ((Duplicates.calls_iff _).mp h)

section On

variable {switch : σ → Switch r n} {setSwitch : σ → Switch r n → σ}
  {receiverFunction : σ → Payload → PacketInfo → Routing σ n} {state : σ} {currentBus : Fin n}
  {delivery : Delivery}

/-- The object while the receiver function runs: the bus has received. -/
abbrev afterReceive (switch : σ → Switch r n) (setSwitch : σ → Switch r n → σ) (state : σ)
    (currentBus : Fin n) (delivery : Delivery) : σ :=
  setSwitch state
    ((switch state).setBus currentBus (((switch state).bus currentBus).receive delivery).bus)

theorem receiveOn_of_delivered (switch : σ → Switch r n) (setSwitch : σ → Switch r n → σ)
    (receiverFunction : σ → Payload → PacketInfo → Routing σ n)
    (hrouter : ((switch state).bus currentBus).router = true)
    (h : Delivered ((switch state).bus currentBus) delivery.bytes) :
    ∃ info, withoutMacs info =
        withoutMacs (infoOf ((switch state).bus currentBus) delivery.bytes) ∧
      .receiver (payloadOf delivery.bytes) info ∈
        (((switch state).bus currentBus).receive delivery).events ∧
      receiveOn switch setSwitch receiverFunction state currentBus delivery =
        Routing.andThen
          { state := afterReceive switch setSwitch state currentBus delivery
            events := [(currentBus, .receiver (payloadOf delivery.bytes) info)] }
          fun state _ => receiverFunction state (delivered h) info := by
  obtain ⟨info, hinfo, hevents⟩ := receive_of_delivered hrouter h
  have hnothing : receiverCall [] = none := rfl
  have hcall := receiverCall_append_receiver hnothing (payloadOf delivery.bytes) info
    (length_payloadOf_lt h.toAdmissible)
  rw [List.nil_append, ← hevents] at hcall
  refine ⟨info, hinfo, hevents ▸ List.mem_singleton_self _, ?_⟩
  rw [receiveOn]
  simp only [hcall]
  rw [hevents]
  rfl

theorem receiveOn_of_not_delivered (hrouter : ((switch state).bus currentBus).router = true)
    (h : ¬Delivered ((switch state).bus currentBus) delivery.bytes) :
    receiveOn switch setSwitch receiverFunction state currentBus delivery =
      { state := afterReceive switch setSwitch state currentBus delivery } := by
  have hevents := receive_of_not_delivered hrouter h
  have hcall : receiverCall (((switch state).bus currentBus).receive delivery).events = none := by
    rw [hevents]
    rfl
  rw [receiveOn]
  simp only [hcall]
  rw [hevents]
  rfl

/-- What `receive` on the bus and the receiver function preserve. -/
theorem preserves_receiveOn {allowed : Forwarded n → Prop} {inv : σ → Prop}
    (hstate : inv (afterReceive switch setSwitch state currentBus delivery))
    (hfunction : ∀ state payload info, inv state →
      Preserves allowed inv (receiverFunction state payload info)) :
    Preserves allowed inv
      (receiveOn switch setSwitch receiverFunction state currentBus delivery) := by
  rw [receiveOn]
  split
  · exact fun _ => hstate
  · exact Preserves.andThen (fun _ => hstate) fun state _ hs => hfunction state _ _ hs

end On

end Receive

/-! ## One call of `send_packet` -/

/-- Every attached bus is configured as before. -/
structure SameBuses (s s' : Switch r n) : Prop where
  settings : ∀ i, SameSettings (s.bus i) (s'.bus i)
  defaultGateway : s'.defaultGateway = s.defaultGateway

namespace SameBuses

theorem refl (s : Switch r n) : SameBuses s s := ⟨fun i => SameSettings.refl (s.bus i), rfl⟩

theorem trans {s s' s'' : Switch r n} (h : SameBuses s s') (h' : SameBuses s' s'') :
    SameBuses s s'' :=
  ⟨fun i => (h.settings i).trans (h'.settings i), h'.defaultGateway.trans h.defaultGateway⟩

theorem setBus (s : Switch r n) (i : Fin n) {bus : Bus r.toBuild}
    (h : SameSettings (s.bus i) bus) : SameBuses s (s.setBus i bus) := by
  refine ⟨fun j => ?_, rfl⟩
  by_cases hij : i = j
  · subst hij
    rwa [Switch.bus_setBus]
  · rw [Switch.bus_setBus_ne s bus hij]
    exact SameSettings.refl _

theorem busId {s s' : Switch r n} (h : SameBuses s s') (i : Fin n) : s'.busId i = s.busId i := by
  rw [Switch.busId, Switch.busId, (h.settings i).tx]

theorem isNat {s s' : Switch r n} (h : SameBuses s s') (i : Fin n) : s'.isNat i = s.isNat i := by
  rw [Switch.isNat, Switch.isNat, (h.settings i).config, h.busId]

theorem translate {s s' : Switch r n} (h : SameBuses s s') (i j : Fin n) (info : PacketInfo) :
    s'.translate i j info = s.translate i j info := by
  rw [Switch.translate, Switch.translate, h.isNat, h.isNat, h.busId, h.busId]

theorem find {s s' : Switch r n} (h : SameBuses s s') (busId : Vector UInt8 4) (start : UInt8) :
    s'.findAttachedBusWithId busId start = s.findAttachedBusWithId busId start := by
  simp only [Switch.findAttachedBusWithId, h.busId]

theorem connected {s s' : Switch r n} (h : SameBuses s s') (hs : Connected s) : Connected s' :=
  fun i => (h.settings i).router.trans (hs i)

theorem receive (s : Switch r n) (i : Fin n) (delivery : Delivery) :
    SameBuses s (s.setBus i ((s.bus i).receive delivery).bus) :=
  setBus s i (sameSettings_receive (s.bus i) delivery)

end SameBuses

theorem connected_connect (buses : Vector (Bus r.toBuild) n) (defaultGateway : Option (Fin n))
    (hn : n < 256) : Connected (Switch.connect buses defaultGateway hn) := by
  intro i
  simp [Switch.connect, Switch.bus]

section SendPacket

variable (s : Switch r n) (payload : Payload) (senderBus : Fin n) (info : PacketInfo)
  (surroundings : Surroundings) (receiverBus : Fin n) (ackSent : Bool)

/-- Only the receiver bus changes. -/
theorem sendPacket_bus_ne {i : Fin n} (h : receiverBus ≠ i) :
    (s.sendPacket payload senderBus info surroundings receiverBus ackSent).state.bus i =
      s.bus i := by
  rw [Switch.sendPacket, Switch.bus_setBus_ne _ _ h]

theorem sendPacket_bus :
    (s.sendPacket payload senderBus info surroundings receiverBus ackSent).state.bus receiverBus =
      (Switch.handOn (s.bus receiverBus) (s.translate receiverBus senderBus info) payload
        surroundings).bus := by
  rw [Switch.sendPacket, Switch.bus_setBus]

theorem sameBuses_sendPacket_of_keeps
    (h : WithinHops r.maxHops (s.translate receiverBus senderBus info) ∨
      (s.translate receiverBus senderBus info).tx = (s.bus receiverBus).tx) :
    SameBuses s (s.sendPacket payload senderBus info surroundings receiverBus ackSent).state :=
  SameBuses.setBus s receiverBus (sameSettings_handOn_of_keeps (s.bus receiverBus)
    (s.translate receiverBus senderBus info) payload surroundings h)

theorem sameBuses_sendPacket (h : WithinHops r.maxHops info) :
    SameBuses s (s.sendPacket payload senderBus info surroundings receiverBus ackSent).state :=
  sameBuses_sendPacket_of_keeps s payload senderBus info surroundings receiverBus ackSent (Or.inl h)

theorem acknowledgements_sendPacket :
    acknowledgements (s.sendPacket payload senderBus info surroundings receiverBus ackSent) =
      if !ackSent && has info.header ackReqBit && info.rx.id != broadcast then [senderBus]
      else [] := by
  have hsilent := silent_handOn (s.bus receiverBus) (s.translate receiverBus senderBus info)
    payload surroundings
  have hnone : (((Switch.handOn (s.bus receiverBus) (s.translate receiverBus senderBus info)
      payload surroundings).events.map fun event => (receiverBus, event)).filterMap
        fun event => if event.2 = .sendResponse ack then some event.1 else none) = [] := by
    rw [List.filterMap_eq_nil_iff]
    intro event hevent
    obtain ⟨inner, hinner, rfl⟩ := List.mem_map.mp hevent
    rw [if_neg]
    rintro heq
    exact hsilent ack (heq ▸ hinner)
  rw [acknowledgements, Switch.sendPacket]
  simp only [List.filterMap_append, hnone, List.append_nil]
  split_ifs <;> rfl

end SendPacket

/-! ## The buses that the search visits -/

section Visits

/-- The turns of the search loop, with the bus that each is about. -/
def visits (find : UInt8 → Option (Fin n) × UInt8) (gateway : Option (Fin n)) :
    Nat → Nat → UInt8 → List (Nat × Option (Fin n))
  | 0, _, _ => []
  | todo + 1, turn, start =>
    (turn, (find start).1.or gateway) ::
      if (find start).2 = notAssigned then []
      else visits find gateway todo (turn + 1) (find start).2

/-- While the bus ids stay as they are, the loop does its visits one after the other. -/
theorem searchLoop_eq (gateway : Option (Fin n)) {find : σ → UInt8 → Option (Fin n) × UInt8}
    {send : Nat → Option (Fin n) → Bool → σ → Routing σ n} {inv : σ → Prop}
    {found : UInt8 → Option (Fin n) × UInt8} (hfind : ∀ state, inv state → find state = found)
    (hsend : ∀ turn receiverBus ackSent state, inv state →
      inv (send turn receiverBus ackSent state).state) (todo : Nat) :
    ∀ (turn : Nat) (start : UInt8) (routing : Routing σ n), inv routing.state →
      searchLoop find gateway send todo turn start routing =
        (visits found gateway todo turn start).foldl
          (fun routing visit => routing.andThen fun state ackSent =>
            send visit.1 visit.2 ackSent state) routing := by
  induction todo with
  | zero => exact fun _ _ _ _ => rfl
  | succ todo ih =>
      intro turn start routing h
      rw [searchLoop, visits, hfind _ h]
      simp only [List.foldl_cons]
      by_cases hend : (found start).2 = notAssigned
      · rw [if_pos hend, if_pos hend, List.foldl_nil]
      · rw [if_neg hend, if_neg hend]
        exact ih _ _ _ (hsend _ _ _ _ h)

variable {s : Switch r n} {target : Vector UInt8 4}

/-- The buses that have the bus id of a packet. -/
def withId (s : Switch r n) (target : Vector UInt8 4) : Fin n → Bool :=
  fun i => target == s.busId i

/-- The search finds the last of 255 attached buses, and so ends with it. -/
def EndsEarly (s : Switch r n) (target : Vector UInt8 4) : Prop :=
  ∃ i : Fin n, i.val = 254 ∧ s.busId i = target

instance (s : Switch r n) (target : Vector UInt8 4) : Decidable (EndsEarly s target) := by
  unfold EndsEarly
  exact inferInstance

/-- The search visits the buses with the id one after the other, then the gateway. -/
theorem visits_attached (target : Vector UInt8 4) (gateway : Option (Fin n)) (todo : Nat) :
    ∀ (turn : Nat) (start : UInt8), start.toNat ≤ 254 → 255 ≤ start.toNat + todo →
      (visits (s.findAttachedBusWithId target) gateway todo turn start).map Prod.snd =
        (Search.matchesFrom (withId s target) start.toNat).map some ++
          if EndsEarly s target then [] else [gateway] := by
  induction todo with
  | zero =>
      intro turn start hstart htodo
      omega
  | succ todo ih =>
      intro turn start hstart htodo
      rw [visits, List.map_cons]
      have hn := s.busCount_lt
      cases hfirst : Search.first (withId s target) start.toNat with
      | none =>
          have hfound : s.findAttachedBusWithId target start = (none, notAssigned) := by
            unfold withId at hfirst
            rw [Switch.findAttachedBusWithId, hfirst]
          have hnone := Search.first_eq_none_iff.mp hfirst
          have hnot : ¬EndsEarly s target := by
            rintro ⟨i, hi, hid⟩
            have hmem : i ∈ Search.matchesFrom (withId s target) start.toNat :=
              Search.mem_matchesFrom.mpr ⟨by omega, by simp [withId, hid]⟩
            rw [hnone] at hmem
            exact absurd hmem List.not_mem_nil
          rw [hfound, hnone, if_neg hnot]
          rfl
      | some i =>
          have hfound : s.findAttachedBusWithId target start = (some i, UInt8.ofNat (i + 1)) := by
            unfold withId at hfirst
            rw [Switch.findAttachedBusWithId, hfirst]
          obtain ⟨hle, htest⟩ := Search.first_spec hfirst
          have hi := i.isLt
          rw [hfound, Search.matchesFrom_of_first hfirst, Option.some_or, List.map_cons,
            List.cons_append]
          congr 1
          by_cases hlast : i.val = 254
          · -- the cursor behind the last bus is the marker of a search that is over
            have hbehind : Search.matchesFrom (withId s target) (i.val + 1) = [] := by
              rw [List.eq_nil_iff_forall_not_mem]
              intro j hj
              have hafter := (Search.mem_matchesFrom.mp hj).1
              have hjn := j.isLt
              omega
            have hid : s.busId i = target := by
              unfold withId at htest
              exact (beq_iff_eq.mp htest).symm
            have hend : UInt8.ofNat (i.val + 1) = notAssigned := by
              rw [hlast]
              rfl
            rw [if_pos hend, hbehind, if_pos ⟨i, hlast, hid⟩]
            rfl
          · have hcursor : (UInt8.ofNat (i.val + 1)).toNat = i.val + 1 := by
              rw [UInt8.toNat_ofNat']
              omega
            have hmore : UInt8.ofNat (i.val + 1) ≠ notAssigned := by
              intro heq
              rw [heq] at hcursor
              have hmarker : notAssigned.toNat = 255 := rfl
              omega
            rw [if_neg hmore, ih _ _ (by rw [hcursor]; omega) (by rw [hcursor]; omega), hcursor]

/-- The buses that the search comes to. -/
def reached (s : Switch r n) (target : Vector UInt8 4) : List (Fin n) :=
  Search.matchesFrom (withId s target) 0 ++
    if EndsEarly s target then [] else s.defaultGateway.toList

theorem SameBuses.reached {s' : Switch r n} (h : SameBuses s s') (target : Vector UInt8 4) :
    reached s' target = reached s target := by
  have hid : withId s' target = withId s target := by
    funext i
    rw [withId, withId, h.busId]
  have hend : EndsEarly s' target ↔ EndsEarly s target := by
    simp only [EndsEarly, h.busId]
  rw [Switch.reached, Switch.reached, hid, h.defaultGateway]
  congr 1
  exact if_congr hend rfl rfl

theorem filterMap_visits (s : Switch r n) (target : Vector UInt8 4) :
    (visits (s.findAttachedBusWithId target) s.defaultGateway 256 0 0).filterMap Prod.snd =
      reached s target := by
  have hzero : (0 : UInt8).toNat = 0 := rfl
  have hvisits := visits_attached (s := s) target s.defaultGateway 256 0 0
    (by rw [hzero]; omega) (by rw [hzero]; omega)
  have hmap : (visits (s.findAttachedBusWithId target) s.defaultGateway 256 0 0).filterMap Prod.snd
      = ((visits (s.findAttachedBusWithId target) s.defaultGateway 256 0 0).map
          Prod.snd).filterMap id := by
    rw [List.filterMap_map]
    rfl
  rw [hmap, hvisits, reached, List.filterMap_append, List.filterMap_map]
  congr 1
  · exact List.filterMap_some
  · split_ifs
    · rfl
    · cases s.defaultGateway <;> rfl

end Visits

/-! ## The receiver function of the switch -/

section ReceiverFunction

/-- What the visits log, one after the other. -/
theorem log_foldl {ι α : Type} (view : Routing σ n → List α)
    (hview : ∀ (before : Routing σ n) rest,
      view (before.andThen rest) = view before ++ view (rest before.state before.ackSent))
    {send : ι → Bool → σ → Routing σ n} {inv : σ → Prop} {log : ι → List α}
    (hsend : ∀ visit ackSent state, inv state →
      inv (send visit ackSent state).state ∧ view (send visit ackSent state) = log visit)
    (list : List ι) :
    ∀ routing : Routing σ n, inv routing.state →
      view (list.foldl (fun routing visit => routing.andThen fun state ackSent =>
        send visit ackSent state) routing) = view routing ++ list.flatMap log := by
  induction list with
  | nil => exact fun routing _ => (List.append_nil _).symm
  | cons visit list ih =>
      intro routing h
      obtain ⟨hnext, hlog⟩ := hsend visit routing.ackSent routing.state h
      rw [List.foldl_cons, ih (routing.andThen fun state ackSent => send visit ackSent state) hnext,
        hview, hlog, List.flatMap_cons, List.append_assoc]

variable (s : Switch r n) (currentBus : Fin n) (payload : Payload) (info : PacketInfo)
  (surroundings : Nat → Surroundings)

/-- One turn of the search of the switch. -/
abbrev turnOf (visit : Nat × Option (Fin n)) (ackSent : Bool) (s : Switch r n) :
    Routing (Switch r n) n :=
  forwardPacket (Switch.sendPacket payload currentBus info (surroundings visit.1)) visit.2
    currentBus ackSent s

theorem sameBuses_turnOf (h : WithinHops r.maxHops info) (visit : Nat × Option (Fin n))
    (ackSent : Bool) (s : Switch r n) :
    SameBuses s (turnOf currentBus payload info surroundings visit ackSent s).state := by
  unfold turnOf forwardPacket
  cases visit.2 with
  | none => exact SameBuses.refl s
  | some i =>
      simp only
      split_ifs
      · exact SameBuses.refl s
      · exact sameBuses_sendPacket s payload currentBus info _ i ackSent h

theorem receivers_turnOf (visit : Nat × Option (Fin n)) (ackSent : Bool) (s : Switch r n) :
    (turnOf currentBus payload info surroundings visit ackSent s).forwards.map
        Forwarded.receiverBus = visit.2.toList.filter fun i => decide (i ≠ currentBus) := by
  unfold turnOf forwardPacket
  cases visit.2 with
  | none => rfl
  | some i =>
      simp only
      by_cases hi : i = currentBus
      · rw [if_pos hi]
        simp [hi]
      · rw [if_neg hi]
        simp [hi, Switch.sendPacket]

theorem receiverFunction_eq (h : WithinHops r.maxHops info) :
    s.receiverFunction currentBus payload info surroundings =
      (visits (s.findAttachedBusWithId (targetOf info)) s.defaultGateway 256 0 0).foldl
        (fun routing visit => routing.andThen fun s ackSent =>
          turnOf currentBus payload info surroundings visit ackSent s) { state := s } :=
  searchLoop_eq s.defaultGateway
    (fun s' (hs : SameBuses s s') => funext fun start => hs.find _ start)
    (fun turn receiverBus ackSent s' hs => hs.trans
      (sameBuses_turnOf currentBus payload info surroundings h (turn, receiverBus) ackSent s'))
    256 0 0 { state := s } (SameBuses.refl s)

/-- The buses that a packet is forwarded to, in order. -/
theorem receivers_receiverFunction (h : WithinHops r.maxHops info) :
    (s.receiverFunction currentBus payload info surroundings).forwards.map Forwarded.receiverBus =
      (reached s (targetOf info)).filter fun i => decide (i ≠ currentBus) := by
  have hlog := log_foldl (fun routing : Routing (Switch r n) n =>
      routing.forwards.map Forwarded.receiverBus)
    (fun before rest => List.map_append)
    (fun visit ackSent s' (hs : SameBuses s s') =>
      ⟨hs.trans (sameBuses_turnOf currentBus payload info surroundings h visit ackSent s'),
        receivers_turnOf currentBus payload info surroundings visit ackSent s'⟩)
    (visits (s.findAttachedBusWithId (targetOf info)) s.defaultGateway 256 0 0) { state := s }
    (SameBuses.refl s)
  rw [receiverFunction_eq s currentBus payload info surroundings h, hlog, ← filterMap_visits]
  generalize visits (s.findAttachedBusWithId (targetOf info)) s.defaultGateway 256 0 0 = list
  induction list with
  | nil => rfl
  | cons visit list ih =>
      simp only [List.map_nil, List.nil_append, List.flatMap_cons] at ih ⊢
      rw [ih]
      cases hvisit : visit.2 with
      | none => rw [List.filterMap_cons_none hvisit]; rfl
      | some i =>
          rw [List.filterMap_cons_some hvisit, ← List.singleton_append, List.filter_append]
          rfl

end ReceiverFunction

/-! ## Acknowledgements -/

section Acknowledgements

/-- A member that is called with the flag `ackSent` acknowledges once, on `currentBus`, if it
raises the flag. -/
structure CountsAcks (currentBus : Fin n) (ackSent : Bool) (routing : Routing σ n) : Prop where
  acknowledged : acknowledgements routing =
    if !ackSent && routing.ackSent then [currentBus] else []
  raised : ackSent = true → routing.ackSent = true

variable {currentBus : Fin n}

theorem acknowledgements_andThen (before : Routing σ n) (rest : σ → Bool → Routing σ n) :
    acknowledgements (before.andThen rest) =
      acknowledgements before ++ acknowledgements (rest before.state before.ackSent) :=
  List.filterMap_append

theorem CountsAcks.andThen {ackSent : Bool} {before : Routing σ n}
    {rest : σ → Bool → Routing σ n} (h : CountsAcks currentBus ackSent before)
    (hrest : CountsAcks currentBus before.ackSent (rest before.state before.ackSent)) :
    CountsAcks currentBus ackSent (before.andThen rest) := by
  have hflag : (before.andThen rest).ackSent = (rest before.state before.ackSent).ackSent := rfl
  obtain ⟨hacks, hraised⟩ := h
  obtain ⟨hacks', hraised'⟩ := hrest
  constructor
  · rw [acknowledgements_andThen, hacks, hacks', hflag]
    cases ackSent <;> cases hbefore : before.ackSent <;> simp_all
  · intro hset
    rw [hflag]
    exact hraised' (hraised hset)

theorem countsAcks_dynamicReceiverFunction
    {findBusWithId : σ → Vector UInt8 4 → UInt8 → Option (Fin n) × UInt8}
    {sendPacket : Nat → Fin n → Bool → σ → Routing σ n} (gateway : Option (Fin n))
    (info : PacketInfo) (state : σ)
    (hsend : ∀ turn i ackSent state,
      CountsAcks currentBus ackSent (sendPacket turn i ackSent state)) :
    CountsAcks currentBus false
      (dynamicReceiverFunction findBusWithId sendPacket gateway currentBus info state) :=
  dynamicReceiverFunction_rule _ currentBus info ⟨rfl, id⟩ fun turn i _ _ _ h =>
    h.andThen (hsend turn i _ _)

theorem countsAcks_sendPacket (payload : Payload) (info : PacketInfo)
    (surroundings : Surroundings) (receiverBus : Fin n) (ackSent : Bool) (s : Switch r n) :
    CountsAcks currentBus ackSent
      (s.sendPacket payload currentBus info surroundings receiverBus ackSent) := by
  constructor
  · rw [acknowledgements_sendPacket, Switch.sendPacket]
    cases ackSent <;> simp
  · intro hset
    rw [Switch.sendPacket, hset]
    rfl

/-- What is acknowledged is acknowledged once, where the packet came from. -/
theorem CountsAcks.atMostOne {routing : Routing σ n} (h : CountsAcks currentBus false routing) :
    acknowledgements routing = [] ∨ acknowledgements routing = [currentBus] := by
  rw [h.acknowledged]
  split_ifs
  · exact Or.inr rfl
  · exact Or.inl rfl

end Acknowledgements

/-! ## A packet that comes in -/

section Arrival

theorem receive_eq {s : Switch r n} (hconnected : Connected s) {currentBus : Fin n}
    {delivery : Delivery} (h : Delivered (s.bus currentBus) delivery.bytes)
    (surroundings : Nat → Surroundings) :
    ∃ info, withoutMacs info = withoutMacs (infoOf (s.bus currentBus) delivery.bytes) ∧
      .receiver (payloadOf delivery.bytes) info ∈ ((s.bus currentBus).receive delivery).events ∧
      s.receive currentBus delivery surroundings =
        Routing.andThen
          { state := s.setBus currentBus ((s.bus currentBus).receive delivery).bus
            events := [(currentBus, .receiver (payloadOf delivery.bytes) info)] }
          fun s _ => s.receiverFunction currentBus (delivered h) info surroundings :=
  receiveOn_of_delivered id (fun _ s => s) _ (hconnected currentBus) h

/-- A hop count below the limit leaves room for one more hop. -/
theorem withinHops_of_lt {info : PacketInfo} (h : info.hops < r.maxHops) :
    WithinHops r.maxHops info := by
  have hlt : info.hops.toNat < r.maxHops.toNat := h
  have hmax := r.maxHops.toNat_lt
  rw [WithinHops, UInt8.le_iff_toNat_le, UInt8.toNat_add]
  show (info.hops.toNat + 1) % 256 ≤ _
  omega

theorem targetOf_withoutMacs (info : PacketInfo) : targetOf (withoutMacs info) = targetOf info :=
  rfl

theorem withinHops_withoutMacs (info : PacketInfo) :
    WithinHops r.maxHops (withoutMacs info) ↔ WithinHops r.maxHops info := Iff.rfl

end Arrival

end Pjon.Proofs.Switch
