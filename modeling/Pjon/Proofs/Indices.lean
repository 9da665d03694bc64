import Pjon.Spec.Indices
import Pjon.Lib.Triple
/-!
# Which indices the classes use

While an entry of the object is in progress `current_bus` is the index of an attached bus, and
every member that changes it puts it back.  So the entries of a bus and the packets that the
user sends from a callback are safe.  Between two iterations of `loop` it is
`PJON_NOT_ASSIGNED`, and a packet that the user sends then is looked up at `buses[255]`.
-/

namespace Pjon.Proofs.Indices

open Pjon.Lib Pjon.Lib.Hoare Pjon.Model Pjon.Model.Built Pjon.Spec

/-! ## What members keep -/

/-- The indices that the object keeps, with `n` buses, while `current_bus` is `b`. -/
structure At (n b : UInt8) (x : BuiltObject) : Prop where
  busCount : x.busCount = n
  gateway : Names n x.defaultGateway
  rows : ∀ row ∈ x.table, Names n row.viaAttachedBus
  devices : ∀ level deviceId, Names n ((x.virtualBuses level).deviceViaAttachedBus deviceId)
  currentBus : x.currentBus = b

theorem not_names {n : UInt8} (h : notAssigned < n) : False := by
  have hlt := UInt8.lt_iff_toNat_lt.mp h
  have hmax := n.toNat_lt
  have hmarker : notAssigned.toNat = 255 := rfl
  omega

theorem attached_of_names {n k : UInt8} (h : Names n k) (hne : k ≠ notAssigned) : k < n :=
  h.resolve_right hne

theorem names_marker (n : UInt8) : Names n notAssigned := Or.inr rfl

variable {n b b' k : UInt8} {x : BuiltObject} {α β : Type}

theorem At.moved (h : At n b x) (k : UInt8) : At n k (x.setCurrentBus k) :=
  ⟨h.busCount, h.gateway, h.rows, h.devices, rfl⟩

theorem At.ticked (h : At n b x) : At n b x.tick :=
  ⟨h.busCount, h.gateway, h.rows, h.devices, h.currentBus⟩

theorem At.setVirtualBus (h : At n b x) (level : Nat) (members : VirtualBusMembers)
    (hmembers : ∀ deviceId, Names n (members.deviceViaAttachedBus deviceId)) :
    At n b (x.setVirtualBus level members) := by
  refine ⟨h.busCount, h.gateway, h.rows, fun i deviceId => ?_, h.currentBus⟩
  rw [BuiltObject.setVirtualBus]
  dsimp only
  split_ifs
  · exact hmembers deviceId
  · exact h.devices i deviceId

theorem At.setVia (h : At n b x) (level : Nat) (deviceId : UInt8) (hk : Names n k) :
    At n b (x.setVia level deviceId k) := by
  apply h.setVirtualBus level _
  intro i
  dsimp only
  split_ifs
  · exact hk
  · exact h.devices level i

theorem At.setUnknown (h : At n b x) (level : Nat) (unknown : Bool) :
    At n b (x.setUnknown level unknown) :=
  h.setVirtualBus level _ (h.devices level)

theorem At.addRow (h : At n b x) (tableSize : Nat) (busId : Vector UInt8 4) (hk : Names n k) :
    At n b (x.addRow tableSize busId k) := by
  rw [BuiltObject.addRow]
  split_ifs
  · refine ⟨h.busCount, h.gateway, fun row hrow => ?_, h.devices, h.currentBus⟩
    rcases List.mem_append.mp (List.mem_of_mem_take hrow) with hold | hnew
    · exact h.rows row hold
    · rw [List.mem_singleton.mp hnew]
      exact hk
  · exact h

/-! ## Buses and the user -/

theorem keeps_busAt (hk : k < n) : Keeps (At n b) (busAt k) := by
  intro x hx
  refine ⟨(), x.tick, ?_, hx.ticked, trivial⟩
  show (if k < x.busCount then (set x.tick : Member Unit) else throw k) x = _
  rw [if_pos (hx.busCount ▸ hk)]
  rfl

section World

variable (w : World)

theorem keeps_txOf (hk : k < n) : Keeps (At n b) (txOf w k) :=
  Keeps.bind (keeps_busAt hk) fun _ => Gives.bind Gives.get fun _ _ => Gives.returns trivial

theorem keeps_configOf (hk : k < n) : Keeps (At n b) (configOf w k) :=
  Keeps.bind (keeps_busAt hk) fun _ => Gives.bind Gives.get fun _ _ => Gives.returns trivial

theorem keeps_isNatBus (hk : k < n) : Keeps (At n b) (isNatBus w k) :=
  Keeps.bind (keeps_configOf w hk) fun _ =>
    Gives.ite (fun _ => Gives.returns trivial) fun _ =>
      Keeps.bind (keeps_txOf w hk) fun _ => Gives.returns trivial

/-- What is entered, for whatever bus, keeps the indices and puts `current_bus` back. -/
def EntersSafely (n : UInt8) (enter : Entry → Member Unit) : Prop :=
  ∀ b, b < n → ∀ entry, Keeps (At n b) (enter entry)

variable {enter : Entry → Member Unit} (henter : EntersSafely n enter)

include henter

theorem keeps_callBus (hb : b < n) (hk : k < n) (call : BusCall) :
    Keeps (At n b) (callBus w enter k call) :=
  Keeps.bind (keeps_busAt hk) fun _ => Gives.bind Gives.get fun _ _ =>
    Keeps.bind (Keeps.forM _ (henter b hb)) fun _ => Gives.bind Gives.get fun _ _ =>
      Gives.returns trivial

theorem keeps_callUser (hb : b < n) (level : Nat) (call : UserCall) :
    Keeps (At n b) (callUser w enter level call) :=
  Keeps.bind (Keeps.modify fun _ hx => hx.ticked) fun _ => Gives.bind Gives.get fun _ _ =>
    Keeps.forM _ fun _ => henter b hb _

end World

/-! ## The search for a bus -/

section Search

variable (w : World)

theorem gives_findAttachedBusWithId (busId : Vector UInt8 4) (todo : Nat) :
    ∀ i, Gives (At n b) (findAttachedBusWithId w busId todo i) fun found => Names n found.1 := by
  induction todo with
  | zero => exact fun _ => Gives.returns (names_marker n)
  | succ todo ih =>
      intro i
      refine Gives.bind Gives.get fun x hx => Gives.ite (fun hi => ?_) fun _ =>
        Gives.returns (names_marker n)
      rw [hx.busCount] at hi
      exact Keeps.bind (keeps_txOf w hi) fun _ =>
        Gives.ite (fun _ => Gives.returns (Or.inl hi)) fun _ => ih (i + 1)

theorem names_findBusInTable (hx : At n b x) (busId : Vector UInt8 4) (startBus : UInt8) :
    Names n (findBusInTable x busId startBus).1 := by
  rw [findBusInTable]
  split
  · rename_i row hfound
    have hmem := List.mem_of_mem_drop (List.mem_of_find?_eq_some hfound)
    exact hx.rows row.1 (List.fst_mem_of_mem_zipIdx hmem)
  · exact names_marker n

theorem gives_searchAttached (busId : Vector UInt8 4) (startBus : UInt8) :
    Gives (At n b) (searchAttached w busId startBus) fun found => Names n found.1 := by
  refine Gives.bind Gives.get fun x _ => Gives.ite (fun _ => ?_) fun _ =>
    Gives.returns (names_marker n)
  refine Gives.bind (gives_findAttachedBusWithId w busId 256 startBus) fun found hfound =>
    Gives.returns ?_
  split_ifs
  · exact names_marker n
  · exact hfound

theorem gives_routerBusWithId (busId : Vector UInt8 4) (startBus : UInt8) :
    Gives (At n b) (routerBusWithId w busId startBus) fun found => Names n found.1 := by
  refine Gives.bind (gives_searchAttached w busId startBus) fun attached hattached =>
    Gives.bind Gives.get fun x hx => Gives.returns ?_
  split_ifs
  · exact names_marker n
  · exact names_findBusInTable hx busId attached.2
  · exact names_marker n
  · exact hattached

theorem gives_findBusWithId (plain : PlainClass) (busId : Vector UInt8 4) (startBus : UInt8) :
    Gives (At n b) (findBusWithId w plain busId startBus) fun found => Names n found.1 := by
  cases plain with
  | switch => exact gives_findAttachedBusWithId w busId 256 startBus
  | router => exact gives_routerBusWithId w busId startBus
  | dynamicRouter => exact gives_routerBusWithId w busId startBus

end Search

/-! ## The virtual bus -/

section Members

variable (r : RouterBuild) (w : World) (c : BuiltClass)

theorem keeps_isVbus (level : Nat) (busId : Vector UInt8 4) :
    Keeps (At n b) (isVbus w level busId) := by
  refine Gives.bind Gives.get fun x hx => Gives.ite (fun hvbus => ?_) fun _ =>
    Gives.returns trivial
  rw [hx.busCount] at hvbus
  exact Keeps.bind (keeps_txOf w hvbus) fun _ => Gives.returns trivial

theorem keeps_registerDeviceOnVbus (level : Nat) (deviceId : UInt8) (hk : Names n k) :
    Keeps (At n b) (registerDeviceOnVbus r level deviceId k) :=
  Gives.ite (fun _ => Keeps.modify fun _ hx => hx.setVia level deviceId hk) fun _ =>
    Gives.returns trivial

theorem gives_findVbusWithDevice (level : Nat) (busId : Vector UInt8 4) (deviceId : UInt8) :
    Gives (At n b) (findVbusWithDevice r w level busId deviceId) fun found => Names n found := by
  refine Keeps.bind (keeps_isVbus w level busId) fun found =>
    Gives.bind Gives.get fun x hx => Gives.returns ?_
  split_ifs
  · exact names_marker n
  · exact hx.devices level deviceId

theorem keeps_unregisterReceiver (hb : b < n) (level packet : Nat) :
    Keeps (At n b) (unregisterReceiver r w level packet) := by
  apply Gives.bind Gives.get
  intro x hx
  have hcurrent : x.currentBus < n := hx.currentBus ▸ hb
  refine Keeps.bind (keeps_busAt hcurrent) fun _ => Keeps.bind (keeps_busAt hcurrent) fun _ =>
    Gives.bind Gives.get fun x _ => Gives.ite (fun _ => ?_) fun _ => Gives.returns trivial
  exact Keeps.bind (keeps_isVbus w level _) fun _ => Gives.bind Gives.get fun _ _ =>
    Gives.ite (fun _ => Keeps.modify fun _ hx => hx.setVia level _ (names_marker n)) fun _ =>
      Gives.returns trivial

theorem keeps_handleSendError (hb : b < n) (level code packet : Nat) :
    Keeps (At n b) (handleSendError r w level code packet) := by
  refine Gives.ite (fun _ => ?_) fun _ => Gives.returns trivial
  apply Gives.bind Gives.get
  intro x hx
  have hcurrent : x.currentBus < n := hx.currentBus ▸ hb
  exact Keeps.bind (keeps_txOf w hcurrent) fun _ => Keeps.bind (keeps_isVbus w level _) fun _ =>
    Gives.ite (fun _ => keeps_unregisterReceiver r w hb level packet) fun _ =>
      Gives.returns trivial

/-! ## Sending -/

variable {enter : Entry → Member Unit} (henter : EntersSafely n enter)

include henter in
theorem keeps_dynamicErrorFunction (hb : b < n) (templates : List Template) :
    ∀ code data, Keeps (At n b) (dynamicErrorFunction r w enter templates code data) := by
  induction templates with
  | nil => exact fun _ _ => Gives.returns trivial
  | cons template inner ih =>
      intro code data
      cases template with
      | virtualBus => exact keeps_handleSendError r w hb inner.length code _
      | interactive => exact Keeps.bind (ih code data) fun _ => keeps_callUser w henter hb _ _

variable {senderBus receiverBus : UInt8}

theorem keeps_acknowledge (hsender : senderBus < n) (ackSent : Bool) (info : PacketInfo) :
    Keeps (At n b) (acknowledge senderBus ackSent info) :=
  Gives.ite (fun _ => Keeps.bind (keeps_busAt hsender) fun _ => Gives.returns trivial) fun _ =>
    Gives.returns trivial

theorem keeps_translateSender (hsender : senderBus < n) (info : PacketInfo) :
    Keeps (At n b) (translateSender w senderBus info) := by
  refine Gives.ite (fun _ => ?_) fun _ => Gives.returns trivial
  refine Keeps.bind (keeps_isNatBus w hsender) fun _ => Gives.ite (fun _ => ?_) fun _ =>
    Gives.returns trivial
  exact Keeps.bind (keeps_txOf w hsender) fun _ => Gives.returns trivial

theorem keeps_translateReceiver (hreceiver : receiverBus < n) (info : PacketInfo) :
    Keeps (At n b) (translateReceiver w receiverBus info) := by
  refine Gives.ite (fun _ => ?_) fun _ => Gives.returns trivial
  refine Keeps.bind (keeps_isNatBus w hreceiver) fun _ => Gives.ite (fun _ => ?_) fun _ =>
    Gives.returns trivial
  exact Keeps.bind (keeps_txOf w hreceiver) fun _ => Gives.returns trivial

include henter in
/-- The packet is forwarded while the receiver is the current bus. -/
theorem keeps_forwardOn (hreceiver : receiverBus < n) (hsender : senderBus < n)
    (payload : Payload) (info : PacketInfo) :
    Keeps (At n receiverBus) (forwardOn r w c enter payload receiverBus senderBus info) :=
  Keeps.bind (keeps_translateSender w hsender info) fun _ =>
    Keeps.bind (keeps_translateReceiver w hreceiver info) fun _ =>
      Keeps.bind (keeps_callBus w henter hreceiver hreceiver _) fun _ =>
        Gives.ite (fun _ => keeps_dynamicErrorFunction r w henter hreceiver c.templates _ _)
          fun _ => Gives.returns trivial

include henter in
/-- `send_packet` puts `current_bus` back. -/
theorem keeps_switchSendPacket (hreceiver : receiverBus < n) (hsender : senderBus < n)
    (payload : Payload) (ackSent : Bool) (info : PacketInfo) :
    Keeps (At n b) (switchSendPacket r w c enter payload receiverBus senderBus ackSent info) := by
  refine Keeps.bind (keeps_acknowledge hsender ackSent info) fun ackSent =>
    Gives.bind Gives.get fun x hx => ?_
  have hthere : Triple (At n b) (modify (BuiltObject.setCurrentBus receiverBus) : Member Unit)
      fun _ => At n receiverBus := Triple.modify fun _ hx => hx.moved receiverBus
  have hforward := keeps_forwardOn r w c henter hreceiver hsender payload info
  have hback : Triple (At n receiverBus)
      (modify (BuiltObject.setCurrentBus x.currentBus) : Member Unit) fun _ => At n b :=
    Triple.modify fun _ h => hx.currentBus ▸ h.moved x.currentBus
  refine Triple.bind hthere fun _ => Triple.bind hforward fun _ => Triple.of_and fun _ =>
    Triple.bind hback fun _ => ?_
  exact Gives.returns trivial

theorem keeps_disableAck (hreceiver : receiverBus < n) (level : Nat) :
    Keeps (At n b) (disableAck w level receiverBus) :=
  Gives.bind Gives.get fun _ _ =>
    Gives.ite (fun _ => Keeps.bind (keeps_txOf w hreceiver) fun _ => keeps_isVbus w level _)
      fun _ => Gives.returns trivial

include henter in
theorem keeps_sendPacket (hb : b < n) (hreceiver : receiverBus < n) (hsender : senderBus < n)
    (payload : Payload) (templates : List Template) :
    ∀ ackSent info, Keeps (At n b)
      (sendPacket r w c enter templates payload receiverBus senderBus ackSent info) := by
  induction templates with
  | nil => exact keeps_switchSendPacket r w c henter hreceiver hsender payload
  | cons template inner ih =>
      intro ackSent info
      cases template with
      | virtualBus =>
          exact Keeps.bind (keeps_disableAck w hreceiver _) fun _ =>
            Gives.ite (fun _ => Keeps.bind (ih _ _) fun _ => Gives.returns trivial)
              fun _ => ih ackSent info
      | interactive =>
          exact Keeps.bind (ih ackSent info) fun _ =>
            Keeps.bind (keeps_callUser w henter hb _ _) fun _ => Gives.returns trivial

include henter in
theorem keeps_forwardPacket (hb : b < n) (hreceiver : Names n receiverBus)
    (hsender : senderBus < n) (payload : Payload) (ackSent : Bool) (info : PacketInfo) :
    Keeps (At n b) (forwardPacket r w c enter payload receiverBus senderBus ackSent info) :=
  Gives.ite (fun h => keeps_sendPacket r w c henter hb (attached_of_names hreceiver h.1) hsender
    payload c.templates ackSent info) fun _ => Gives.returns trivial

/-! ## Receiving -/

include henter in
theorem keeps_receiverLoop (hb : b < n) (payload : Payload) (info : PacketInfo) (turns : Nat) :
    ∀ startSearch ackSent, Keeps (At n b)
      (receiverLoop r w c enter payload info turns startSearch ackSent) := by
  induction turns with
  | zero => exact fun _ _ => Gives.returns trivial
  | succ turns ih =>
      intro startSearch ackSent
      refine Gives.bind (gives_findBusWithId w c.plain _ startSearch) fun found hfound =>
        Gives.bind Gives.get fun x hx => ?_
      have hreceiver : Names n (if found.1 = notAssigned then x.defaultGateway else found.1) := by
        split_ifs
        · exact hx.gateway
        · exact hfound
      have hsender : x.currentBus < n := hx.currentBus ▸ hb
      exact Keeps.bind (keeps_forwardPacket r w c henter hb hreceiver hsender payload ackSent info)
        fun _ => Gives.ite (fun _ => ih _ _) fun _ => Gives.returns trivial

theorem keeps_addSenderToRoutingTable (info : PacketInfo) (hk : Names n k) :
    Keeps (At n b) (addSenderToRoutingTable r w c info k) :=
  Keeps.bind (gives_findBusWithId w c.plain _ 0).keeps fun _ =>
    Gives.ite (fun _ => Keeps.modify fun _ hx => hx.addRow r.tableSize _ hk) fun _ =>
      Gives.returns trivial

include henter in
theorem keeps_plainReceiverFunction (hb : b < n) (payload : Payload) (info : PacketInfo) :
    Keeps (At n b) (plainReceiverFunction r w c enter payload info) := by
  have hloop := keeps_receiverLoop r w c henter hb payload info w.turns 0 false
  rw [plainReceiverFunction]
  split
  · apply Gives.bind Gives.get
    intro x hx
    have hcurrent : Names n x.currentBus := Or.inl (hx.currentBus ▸ hb)
    exact Keeps.bind (keeps_addSenderToRoutingTable r w c info hcurrent) fun _ => hloop
  · exact hloop

theorem keeps_packetIsForMe (hb : b < n) (info : PacketInfo) :
    Keeps (At n b) (packetIsForMe w info) := by
  apply Gives.bind Gives.get
  intro x hx
  have htx := keeps_txOf (b := b) w (hx.currentBus ▸ hb : x.currentBus < n)
  exact Keeps.bind htx fun _ => Gives.ite (fun _ => Gives.returns trivial) fun _ =>
    Keeps.bind htx fun _ => Gives.ite (fun _ => Keeps.bind htx fun _ => Gives.returns trivial)
      fun _ => Gives.returns trivial

theorem keeps_acknowledgeMine (hb : b < n) (info : PacketInfo) :
    Keeps (At n b) (acknowledgeMine info) :=
  Gives.bind Gives.get fun _ hx =>
    Gives.ite (fun _ => keeps_busAt (hx.currentBus ▸ hb)) fun _ => Gives.returns trivial

theorem keeps_registerSender (hb : b < n) (level : Nat) (info : PacketInfo) :
    Keeps (At n b) (registerSender r w level info) := by
  refine Keeps.bind (keeps_isVbus w level _) fun _ => Gives.bind Gives.get fun x hx =>
    Gives.ite (fun _ => ?_) fun _ => Gives.returns trivial
  exact keeps_registerDeviceOnVbus r level _ (Or.inl (hx.currentBus ▸ hb))

include henter in
theorem keeps_dynamicReceiverFunction (hb : b < n) (payload : Payload) (info : PacketInfo)
    (templates : List Template) :
    Keeps (At n b) (dynamicReceiverFunction r w c enter templates payload info) := by
  induction templates with
  | nil => exact keeps_plainReceiverFunction r w c henter hb payload info
  | cons template inner ih =>
      cases template with
      | virtualBus =>
          refine Keeps.bind (keeps_registerSender r w hb _ info) fun _ =>
            Gives.bind (gives_findVbusWithDevice r w _ _ _) fun receiverBus hreceiver =>
              Gives.bind Gives.get fun x hx => Gives.ite (fun _ => ?_) fun _ => ?_
          · have hsender : x.currentBus < n := hx.currentBus ▸ hb
            exact Keeps.bind (keeps_forwardPacket r w c henter hb hreceiver hsender payload _ info)
              fun _ => Gives.returns trivial
          · exact Keeps.bind (Keeps.modify fun _ hx => hx.setUnknown _ true) fun _ =>
              Keeps.bind ih fun _ => Keeps.modify fun _ hx => hx.setUnknown _ false
      | interactive =>
          exact Keeps.bind (keeps_packetIsForMe w hb info) fun _ =>
            Keeps.bind (Gives.ite (fun _ => keeps_acknowledgeMine hb info) fun _ => ih) fun _ =>
              Gives.bind Gives.get fun _ _ =>
                Gives.ite (fun _ => keeps_callUser w henter hb _ _) fun _ => Gives.returns trivial

include henter in
theorem entersSafely_handle : EntersSafely n (handle r w c enter) := by
  intro b hb entry
  cases entry with
  | receiverFunction payload info =>
      exact keeps_dynamicReceiverFunction r w c henter hb payload info c.templates
  | errorFunction code data =>
      exact keeps_dynamicErrorFunction r w henter hb c.templates code data
  | sendPacket payload info =>
      exact keeps_dynamicReceiverFunction r w c henter hb payload info c.templates

/-- However deep entries are within entries. -/
theorem entersSafely_enterTo (depth : Nat) : EntersSafely n (enterTo r w c depth) := by
  induction depth with
  | zero => exact entersSafely_handle r w c fun _ _ _ => Gives.returns trivial
  | succ depth ih => exact entersSafely_handle r w c ih

/-! ## Iterations of the main loop -/

/-- Both loops of `loop` count with `current_bus`. -/
def Loops (n : UInt8) (m : Member Unit) : Prop :=
  ∀ b, Triple (At n b) m fun _ x => ∃ b, At n b x

theorem loops_next {m : Member Unit} (hm : Loops n m) (b : UInt8) :
    Triple (At n b) (do
      modify fun x => x.setCurrentBus (x.currentBus + 1)
      m) fun _ x => ∃ b, At n b x := by
  have hnext : Triple (At n b)
      (modify fun x => x.setCurrentBus (x.currentBus + 1) : Member Unit)
      fun _ => At n (b + 1) := Triple.modify fun _ hx => hx.currentBus ▸ hx.moved _
  exact Triple.bind hnext fun _ => hm (b + 1)

/-- An iteration is for the bus that `current_bus` counts, if there is one. -/
theorem loops_iteration {body : BuiltObject → Member Unit}
    (hbody : ∀ b x, b < n → At n b x → Triple (At n b) (body x) fun _ x => ∃ b, At n b x) :
    Loops n (do
      let x ← get
      if x.currentBus < x.busCount then body x else return ()) := by
  intro b
  refine Triple.bind Gives.get fun x => Triple.of_and fun hx => Triple.ite (fun hlt => ?_)
    fun _ => Triple.returns fun _ h => ⟨b, h⟩
  rw [hx.currentBus, hx.busCount] at hlt
  exact hbody b x hlt hx

include henter in
theorem loops_receiveLoop (todo : Nat) : Loops n (receiveLoop r w enter todo) := by
  induction todo with
  | zero => exact fun b => Triple.returns fun _ hx => ⟨b, hx⟩
  | succ todo ih =>
      apply loops_iteration
      intro b x hlt hx
      rw [hx.currentBus]
      refine Triple.bind (keeps_busAt hlt) fun _ => Triple.of_and fun _ =>
        Triple.bind (keeps_callBus w henter hlt hlt .receive) fun _ => Triple.of_and fun _ => ?_
      exact Triple.ite (fun _ => Triple.returns fun _ h => ⟨b, h⟩) fun _ => loops_next ih b

include henter in
theorem loops_updateLoop (todo : Nat) : Loops n (updateLoop w enter todo) := by
  induction todo with
  | zero => exact fun b => Triple.returns fun _ hx => ⟨b, hx⟩
  | succ todo ih =>
      apply loops_iteration
      intro b x hlt hx
      rw [hx.currentBus]
      exact Triple.bind (keeps_callBus w henter hlt hlt .update) fun _ => Triple.of_and fun _ =>
        loops_next ih b

theorem moves (k : UInt8) : Triple (fun x => ∃ b, At n b x)
    (modify (BuiltObject.setCurrentBus k) : Member Unit) fun _ => At n k :=
  Triple.modify fun _ ⟨_, hx⟩ => hx.moved k

include henter in
/-- `loop` leaves `PJON_NOT_ASSIGNED` in `current_bus`. -/
theorem keeps_loop : Keeps (At n notAssigned) (loop r w enter) := by
  have hstart : Triple (At n notAssigned) (modify (BuiltObject.setCurrentBus 0) : Member Unit)
      fun _ => At n 0 := Triple.modify fun _ hx => hx.moved 0
  have hend : Triple (fun x => ∃ b, At n b x)
      (modify (BuiltObject.setCurrentBus notAssigned) : Member Unit)
      fun _ x => At n notAssigned x ∧ True :=
    Triple.consequence (moves notAssigned) (fun _ hx => hx) fun _ _ hx => ⟨hx, trivial⟩
  exact Triple.bind hstart fun _ => Triple.bind (loops_receiveLoop r w henter 256 0) fun _ =>
    Triple.bind (moves 0) fun _ => Triple.bind (loops_updateLoop w henter 256 0) fun _ => hend

end Members

/-! ## Programs -/

section Programs

variable (r : RouterBuild) (w : World) (c : BuiltClass) (depth : Nat)

theorem at_of_configured (h : Configured x) : At x.busCount notAssigned x :=
  ⟨rfl, h.gateway, h.rows, h.devices, h.idle⟩

/-- A program that only iterates `loop` is in none of the members in between. -/
theorem keeps_program {steps : List ProgramStep} (hsteps : ∀ step ∈ steps, step = .loop) :
    Keeps (At n notAssigned) (program r w c depth steps) := by
  induction steps with
  | nil => exact Gives.returns trivial
  | cons step steps ih =>
      obtain ⟨rfl, hrest⟩ := List.forall_mem_cons.mp hsteps
      exact Keeps.bind (keeps_loop r w (entersSafely_enterTo r w c depth)) fun _ => ih hrest

theorem busAt_outside (hx : At n notAssigned x) : busAt x.currentBus x = .error notAssigned := by
  show (if x.currentBus < x.busCount then (set x.tick : Member Unit) else throw x.currentBus) x = _
  rw [hx.currentBus, hx.busCount, if_neg not_names]
  rfl

/-- An interactive router looks for its own id on the current bus first. -/
theorem handle_outside (enter : Entry → Member Unit) (hx : At n notAssigned x)
    (inner : List Template) (payload : Payload) (info : PacketInfo) :
    dynamicReceiverFunction r w c enter (.interactive :: inner) payload info x =
      .error notAssigned := by
  have htx : txOf w x.currentBus x = .error notAssigned := bind_error (busAt_outside hx) _
  have hmine : packetIsForMe w info x = .error notAssigned :=
    (bind_ok rfl _).trans (bind_error htx _)
  exact bind_error hmine _

theorem enterTo_outside (hx : At n notAssigned x) (hc : c.templates.head? = some .interactive)
    (payload : Payload) (info : PacketInfo) :
    enterTo r w c depth (.sendPacket payload info) x = .error notAssigned := by
  obtain ⟨inner, htemplates⟩ := List.head?_eq_some_iff.mp hc
  cases depth with
  | zero =>
      rw [enterTo, handle, htemplates]
      exact handle_outside r w c _ hx inner payload info
  | succ depth =>
      rw [enterTo, handle, htemplates]
      exact handle_outside r w c _ hx inner payload info

theorem program_outside (hx : At n notAssigned x) (hc : c.templates.head? = some .interactive)
    {steps : List ProgramStep} (hsteps : ¬∀ step ∈ steps, step = .loop) :
    program r w c depth steps x = .error notAssigned := by
  induction steps generalizing x with
  | nil => exact absurd (fun step hstep => absurd hstep List.not_mem_nil) hsteps
  | cons step steps ih =>
      cases step with
      | sendPacket payload info => exact bind_error (enterTo_outside r w c depth hx hc _ _) _
      | loop =>
          obtain ⟨⟨⟩, y, hloop, hy, -⟩ := keeps_loop r w (entersSafely_enterTo r w c depth) x hx
          refine (bind_ok hloop _).trans (ih hy fun hrest => hsteps ?_)
          exact List.forall_mem_cons.mpr ⟨rfl, hrest⟩

/-- No member uses an index that is not that of an attached bus, if the main program does not send
packets itself; if the object is an interactive router, only then. -/
theorem program_inRange (h : Configured x) (steps : List ProgramStep) :
    ((∀ step ∈ steps, step = .loop) → InRange (program r w c depth steps) x) ∧
      (c.templates.head? = some .interactive →
        (InRange (program r w c depth steps) x ↔ ∀ step ∈ steps, step = .loop)) := by
  have hloops (hsteps : ∀ step ∈ steps, step = .loop) :
      InRange (program r w c depth steps) x := by
    obtain ⟨_, _, hrun, -⟩ := keeps_program r w c depth hsteps x (at_of_configured h)
    intro k herror
    rw [hrun] at herror
    cases herror
  refine ⟨hloops, fun hc => ⟨fun hinRange => ?_, hloops⟩⟩
  by_contra hsteps
  exact hinRange _ (program_outside r w c depth (at_of_configured h) hc hsteps)

end Programs

/-! ## An interactive switch that answers -/

/-- The bus hands over a letter whenever it receives, and the user answers what is for the
device. -/
def answeringWorld : World where
  tx := fun _ _ => { id := 44 }
  config := fun _ _ => txInfoBit
  calls := fun _ _ call =>
    match call with
    | .receive => [.receiverFunction (.single 65) { tx := { id := 45 }, rx := { id := 44 } }]
    | _ => []
  result := fun _ _ _ => ack
  parsed := fun _ _ _ => {}
  user := fun _ _ call =>
    match call with
    | .receiver payload info => [(payload, { tx := info.rx, rx := info.tx })]
    | _ => []
  turns := 256

def interactiveSwitch : BuiltClass := ⟨[.interactive], .switch⟩

/-- One bus, with itself for the default gateway. -/
def onOneBus : BuiltObject := { busCount := 1, defaultGateway := 0 }

theorem configured_onOneBus : Configured onOneBus :=
  ⟨Or.inl (by decide), fun _ hrow => absurd hrow List.not_mem_nil, fun _ _ => Or.inr rfl, rfl⟩

theorem program_inRange_answers :
    ((∀ step ∈ [ProgramStep.loop, .loop], step = .loop) →
        InRange (program { toBuild := defaultBuild } answeringWorld interactiveSwitch 2
          [.loop, .loop]) onOneBus) ∧
      (interactiveSwitch.templates.head? = some .interactive →
        (InRange (program { toBuild := defaultBuild } answeringWorld interactiveSwitch 2
            [.loop, .loop]) onOneBus ↔ ∀ step ∈ [ProgramStep.loop, .loop], step = .loop)) :=
  program_inRange { toBuild := defaultBuild } answeringWorld interactiveSwitch 2
    configured_onOneBus [.loop, .loop]

/-- The main program sends a letter behind an iteration. -/
theorem letter_outside : Configured onOneBus ∧
    ¬InRange (program { toBuild := defaultBuild } answeringWorld interactiveSwitch 2
      [.loop, .sendPacket (.single 65) { tx := { id := 44 }, rx := { id := 45 } }]) onOneBus := by
  refine ⟨configured_onOneBus, fun hinRange => hinRange notAssigned ?_⟩
  exact program_outside _ answeringWorld interactiveSwitch 2 (at_of_configured configured_onOneBus)
    rfl fun hall => nomatch hall _ (List.mem_cons_of_mem _ List.mem_cons_self)

end Pjon.Proofs.Indices
