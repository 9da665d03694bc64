import Pjon.Proofs.Destinations
import Pjon.Proofs.Switch
/-!
# The identity of a bus that forwards

`forward` restores the endpoint of its instance on every way out but one: the return at
the hop limit.  A packet that takes it leaves its own sender behind, in every class of
switch or router.
-/

namespace Pjon.Proofs.Identity

open Pjon.Lib Pjon.Model Pjon.Spec Pjon.Proofs.Forward Pjon.Proofs.Switch Pjon.Proofs.Destinations

variable {r : RouterBuild} {n : Nat}

/-! ## One call -/

/-- A call that leaves these endpoints as they are. -/
def Keeps (endpoints : Fin n → Endpoint) (maxHops : UInt8) (call : Forwarded n) : Prop :=
  WithinHops maxHops call.info ∨ call.info.tx = endpoints call.receiverBus

variable {endpoints : Fin n → Endpoint}

/-- The attached buses have these endpoints. -/
abbrev Has (endpoints : Fin n → Endpoint) (s : Switch r n) : Prop :=
  ∀ i, (s.bus i).tx = endpoints i

theorem has_of_sameBuses {s s' : Switch r n} (hsame : SameBuses s s') (h : Has endpoints s) :
    Has endpoints s' :=
  fun i => (hsame.settings i).tx.trans (h i)

theorem preserves_sendPacket {s : Switch r n} (h : Has endpoints s) (payload : Payload)
    (senderBus : Fin n) (info : PacketInfo) (surroundings : Surroundings) (receiverBus : Fin n)
    (ackSent : Bool) :
    Preserves (Keeps endpoints r.maxHops) (Has endpoints)
      (s.sendPacket payload senderBus info surroundings receiverBus ackSent) := by
  intro hall i
  by_cases hi : receiverBus = i
  · subst hi
    have hcall := hall _ (List.mem_singleton_self _)
    rw [sendPacket_bus, ← h receiverBus, handOn_tx_iff, h receiverBus]
    exact hcall
  · rw [sendPacket_bus_ne _ _ _ _ _ _ _ hi]
    exact h i

/-! ## The switch -/

theorem preserves_receive_switch {s : Switch r n} (h : Has endpoints s) (currentBus : Fin n)
    (delivery : Delivery) (surroundings : Nat → Surroundings) :
    Preserves (Keeps endpoints r.maxHops) (Has endpoints)
      (s.receive currentBus delivery surroundings) :=
  preserves_receiveOn (has_of_sameBuses (SameBuses.receive s currentBus delivery) h)
    fun _ payload info hs => preserves_dynamicReceiverFunction currentBus info hs
      fun turn i ackSent _ _ hs =>
        preserves_sendPacket hs payload currentBus info (surroundings turn) i ackSent

theorem sameBuses_update (s : Switch r n) (currentBus : Fin n) (maxAttempts : UInt8)
    (turns : Fin r.maxPackets → Turn) : SameBuses s (s.update currentBus maxAttempts turns) :=
  SameBuses.setBus s currentBus (sameSettings_updateFrom maxAttempts turns _ (s.bus currentBus))

/-! ## The routers -/

/-- The table is nothing to the attached buses. -/
theorem toSwitch_addSenderToRoutingTable (router : Router r n) (info : PacketInfo)
    (senderBus : Fin n) :
    (router.addSenderToRoutingTable info senderBus).toSwitch = router.toSwitch := by
  unfold Router.addSenderToRoutingTable Router.add
  split_ifs <;> rfl

theorem preserves_receiverFunction_router {router : Router r n}
    (h : Has endpoints router.toSwitch) (currentBus : Fin n) (payload : Payload)
    (info : PacketInfo) (surroundings : Nat → Surroundings) :
    Preserves (Keeps endpoints r.maxHops) (fun router => Has endpoints router.toSwitch)
      (router.receiverFunction currentBus payload info surroundings) :=
  preserves_dynamicReceiverFunction currentBus info h fun turn i ackSent _ _ hs =>
    preserves_sendPacket hs payload currentBus info (surroundings turn) i ackSent

theorem preserves_receive_router {router : Router r n} (h : Has endpoints router.toSwitch)
    (currentBus : Fin n) (delivery : Delivery) (surroundings : Nat → Surroundings) :
    Preserves (Keeps endpoints r.maxHops) (fun router => Has endpoints router.toSwitch)
      (router.receive currentBus delivery surroundings) :=
  preserves_receiveOn
    (has_of_sameBuses (SameBuses.receive router.toSwitch currentBus delivery) h)
    fun _ payload info hs =>
      preserves_receiverFunction_router hs currentBus payload info surroundings

theorem preserves_receiveLearning {router : Router r n} (h : Has endpoints router.toSwitch)
    (currentBus : Fin n) (delivery : Delivery) (surroundings : Nat → Surroundings) :
    Preserves (Keeps endpoints r.maxHops) (fun router => Has endpoints router.toSwitch)
      (router.receiveLearning currentBus delivery surroundings) :=
  preserves_receiveOn
    (has_of_sameBuses (SameBuses.receive router.toSwitch currentBus delivery) h)
    fun router payload info hs => by
      have hlearned : Has endpoints (router.addSenderToRoutingTable info currentBus).toSwitch := by
        rw [toSwitch_addSenderToRoutingTable]
        exact hs
      exact preserves_receiverFunction_router hlearned currentBus payload info surroundings

/-! ## The virtual bus router -/

/-- Errors are about the locations of devices only. -/
theorem toSwitch_errorFunction (v : VirtualBusRouter r n) (currentBus : Fin n) (event : Event) :
    (v.errorFunction currentBus event).toSwitch = v.toSwitch := by
  unfold VirtualBusRouter.errorFunction VirtualBusRouter.handleSendError
  cases event with
  | error code data customPointer =>
      simp only
      split
      · rfl
      · split_ifs <;> rfl
  | sendFrame frame => rfl
  | sendResponse response => rfl
  | receiver payload info => rfl

theorem toSwitch_foldl {ι : Type} {report : VirtualBusRouter r n → ι → VirtualBusRouter r n}
    (hreport : ∀ v event, (report v event).toSwitch = v.toSwitch) (events : List ι) :
    ∀ v : VirtualBusRouter r n, (events.foldl report v).toSwitch = v.toSwitch := by
  induction events with
  | nil => exact fun _ => rfl
  | cons event events ih =>
      intro v
      rw [List.foldl_cons, ih, hreport]

theorem toSwitch_update (v : VirtualBusRouter r n) (currentBus : Fin n) (maxAttempts : UInt8)
    (turns : Fin r.maxPackets → Turn) :
    (v.update currentBus maxAttempts turns).toSwitch =
      v.toSwitch.update currentBus maxAttempts turns := by
  rw [VirtualBusRouter.update]
  exact toSwitch_foldl
    (fun v (event : Fin r.maxPackets × Event) => toSwitch_errorFunction v currentBus event.2) _ _

/-- To the attached buses, `send_packet` is that of the switch, perhaps with the request for
an acknowledgement taken back. -/
theorem toSwitch_sendPacket (v : VirtualBusRouter r n) (payload : Payload) (senderBus : Fin n)
    (info : PacketInfo) (unknownDeviceLocation : Bool) (surroundings : Surroundings)
    (receiverBus : Fin n) (ackSent : Bool) :
    ∃ header flag, (header = info.header ∨ header = info.header &&& ~~~ackReqBit) ∧
      let routing := v.sendPacket payload senderBus info unknownDeviceLocation surroundings
        receiverBus ackSent
      let sent := v.toSwitch.sendPacket payload senderBus { info with header := header }
        surroundings receiverBus flag
      routing.state.toSwitch = sent.state ∧ routing.forwards = sent.forwards ∧
        routing.events = sent.events := by
  unfold VirtualBusRouter.sendPacket
  simp only
  rw [toSwitch_foldl fun v event => toSwitch_errorFunction v receiverBus event]
  by_cases hack : (unknownDeviceLocation && v.isVbus (v.busId receiverBus)) = true
  · simp only [if_pos hack]
    exact ⟨_, true, Or.inr rfl, rfl, rfl, rfl⟩
  · simp only [if_neg hack]
    exact ⟨info.header, ackSent, Or.inl rfl, rfl, rfl, rfl⟩

theorem toSwitch_registerDeviceOnVbus (v : VirtualBusRouter r n) (deviceId : UInt8)
    (attachedBus : Fin n) :
    (v.registerDeviceOnVbus deviceId attachedBus).toSwitch = v.toSwitch := by
  unfold VirtualBusRouter.registerDeviceOnVbus
  split_ifs <;> rfl

theorem preserves_sendPacket_virtual {v : VirtualBusRouter r n} (h : Has endpoints v.toSwitch)
    (payload : Payload) (senderBus : Fin n) (info : PacketInfo) (unknownDeviceLocation : Bool)
    (surroundings : Surroundings) (receiverBus : Fin n) (ackSent : Bool) :
    Preserves (Keeps endpoints r.maxHops) (fun v => Has endpoints v.toSwitch)
      (v.sendPacket payload senderBus info unknownDeviceLocation surroundings receiverBus
        ackSent) := by
  obtain ⟨header, flag, -, hstate, hforwards, -⟩ := toSwitch_sendPacket v payload senderBus info
    unknownDeviceLocation surroundings receiverBus ackSent
  intro hall
  rw [hforwards] at hall
  simp only [hstate]
  exact preserves_sendPacket h payload senderBus _ surroundings receiverBus flag hall

theorem preserves_receive_virtual {v : VirtualBusRouter r n} (h : Has endpoints v.toSwitch)
    (currentBus : Fin n) (delivery : Delivery) (surroundings : Nat → Surroundings) :
    Preserves (Keeps endpoints r.maxHops) (fun v => Has endpoints v.toSwitch)
      (v.receive currentBus delivery surroundings) := by
  refine preserves_receiveOn
    (has_of_sameBuses (SameBuses.receive v.toSwitch currentBus delivery) h) ?_
  intro v payload info hs
  have hregistered : Has endpoints (if v.isVbus info.tx.busId then
      v.registerDeviceOnVbus info.tx.id currentBus else v).toSwitch := by
    split_ifs
    · rw [toSwitch_registerDeviceOnVbus]
      exact hs
    · exact hs
  rw [VirtualBusRouter.receiverFunction]
  split
  · exact preserves_forwardPacket _ currentBus false hregistered fun i _ =>
      preserves_sendPacket_virtual hregistered payload currentBus info false _ i false
  · exact preserves_dynamicReceiverFunction currentBus info hregistered
      fun turn i ackSent _ _ hs =>
        preserves_sendPacket_virtual hs payload currentBus info true (surroundings turn) i ackSent

/-! ## Runs -/

/-- A step whose calls keep the endpoints keeps them, whatever the class. -/
theorem endpoint_step {cls : RouterClass r n} (hcls : cls ∈ RouterClass.all r n) (x : cls.State)
    (traffic : Traffic r n)
    (hall : ∀ call ∈ cls.forwardsOf x traffic, Keeps (cls.endpoint x) r.maxHops call) :
    cls.endpoint (cls.step x traffic) = cls.endpoint x := by
  funext i
  simp only [RouterClass.all, List.mem_cons, List.not_mem_nil, or_false] at hcls
  cases traffic with
  | receive currentBus delivery surroundings =>
      rcases hcls with rfl | rfl | rfl | rfl
      · exact preserves_receive_switch (fun _ => rfl) currentBus delivery surroundings hall i
      · exact preserves_receive_router (fun _ => rfl) currentBus delivery surroundings hall i
      · exact preserves_receiveLearning (fun _ => rfl) currentBus delivery surroundings hall i
      · exact preserves_receive_virtual (fun _ => rfl) currentBus delivery surroundings hall i
  | update currentBus maxAttempts turns =>
      rcases hcls with rfl | rfl | rfl | rfl
      · exact ((sameBuses_update x currentBus maxAttempts turns).settings i).tx
      · exact ((sameBuses_update x.toSwitch currentBus maxAttempts turns).settings i).tx
      · exact ((sameBuses_update x.toSwitch currentBus maxAttempts turns).settings i).tx
      · have hupdated := sameBuses_update x.toSwitch currentBus maxAttempts turns
        have hswitch := toSwitch_update x currentBus maxAttempts turns
        show ((VirtualBusRouter.update x currentBus maxAttempts turns).toSwitch.bus i).tx = _
        rw [hswitch]
        exact (hupdated.settings i).tx

/-- The endpoints along a run. -/
theorem endpoint_run {cls : RouterClass r n} (hcls : cls ∈ RouterClass.all r n)
    (traffic : List (Traffic r n)) :
    ∀ x : cls.State,
      (∀ v ∈ Run.steps cls.step x traffic, ∀ call ∈ cls.forwardsOf v.1 v.2,
        Keeps (cls.endpoint v.1) r.maxHops call) →
      (∀ v ∈ Run.steps cls.step x traffic, cls.endpoint v.1 = cls.endpoint x) ∧
        cls.endpoint (Run.final cls.step x traffic) = cls.endpoint x := by
  induction traffic with
  | nil => exact fun x _ => ⟨fun v hv => absurd hv List.not_mem_nil, rfl⟩
  | cons input traffic ih =>
      intro x hall
      rw [Run.steps_cons, List.forall_mem_cons] at hall
      have hstep := endpoint_step hcls x input hall.1
      obtain ⟨hsteps, hfinal⟩ := ih (cls.step x input) hall.2
      rw [hstep] at hsteps hfinal
      refine ⟨fun v hv => ?_, hfinal⟩
      rw [Run.steps_cons] at hv
      rcases List.mem_cons.mp hv with rfl | hlater
      · rfl
      · exact hsteps v hlater

/-- `forward` and `forward_blocking` leave the endpoint of an instance as it was exactly if
the packet is within the hop limit or comes from that endpoint; in a run of a switch or router
in which all calls are such, every bus keeps its endpoint. -/
theorem forward_keeps_identity {b : Build} (bus : Bus b) (maxHops : UInt8) (info : PacketInfo)
    (payload : Payload) (now : UInt32) (maxAttempts : UInt8) (attempts : Nat → Attempt) :
    (((bus.forward maxHops info payload now).bus.tx = bus.tx ↔
        b.pjonLocal = true ∨ info.hops + 1 ≤ maxHops ∨ info.tx = bus.tx) ∧
      ((bus.forwardBlocking maxHops info payload maxAttempts attempts).bus.tx = bus.tx ↔
        b.pjonLocal = true ∨ info.hops + 1 ≤ maxHops ∨ info.tx = bus.tx)) ∧
    ∀ (r : RouterBuild) (n : Nat), ∀ cls ∈ RouterClass.all r n, ∀ (x : cls.State)
      (traffic : List (Traffic r n)),
      (∀ v ∈ Run.steps cls.step x traffic, ∀ call ∈ cls.forwardsOf v.1 v.2,
        call.info.hops + 1 ≤ r.maxHops ∨ call.info.tx = cls.endpoint v.1 call.receiverBus) →
      (∀ v ∈ Run.steps cls.step x traffic, cls.endpoint v.1 = cls.endpoint x) ∧
        cls.endpoint (Run.final cls.step x traffic) = cls.endpoint x := by
  constructor
  · rw [← or_assoc]
    exact ⟨forwardBy_tx_iff bus _ maxHops info, forwardBy_tx_iff bus _ maxHops info⟩
  · intro r n cls hcls x traffic hall
    exact endpoint_run hcls traffic x hall

/-- A switch that sends a letter on keeps its endpoints. -/
theorem forward_keeps_identity_toSecondBus :
    (RouterClass.simpleSwitch routing 3).endpoint
        (Run.final (RouterClass.simpleSwitch routing 3).step (threeBuses none)
          [.receive 0 toSecondBus fun _ => {}]) =
      (RouterClass.simpleSwitch routing 3).endpoint (threeBuses none) :=
  ((forward_keeps_identity ({} : Bus defaultBuild) 15 {} (.single 65) 0 0
    fun _ => { canStart := true, response := ack }).2 routing 3
    (RouterClass.simpleSwitch routing 3) List.mem_cons_self (threeBuses none)
    [.receive 0 toSecondBus fun _ => {}] (by decide +kernel)).2

def forwarder : Bus defaultBuild := { tx := { id := 44 } }

/-- A packet from device 45 that has come as far as it may. -/
def tired : PacketInfo :=
  { tx := { id := 45 }, rx := { id := 46 }, header := modeBit ||| txInfoBit, hops := 15 }

theorem forward_tired_takes_sender :
    (forwarder.forward 15 tired (.single 65) 0).bus.tx ≠ forwarder.tx := by
  decide +kernel

end Pjon.Proofs.Identity
