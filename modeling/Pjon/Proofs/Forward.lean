import Pjon.Proofs.Blocking
import Pjon.Proofs.Update
import Pjon.Spec.Routing
/-!
# One call of `forward`

The endpoint that a call leaves behind, the packet that it puts in the send buffer, and
what it leaves alone.
-/

namespace Pjon.Proofs.Forward

open Pjon.Lib Pjon.Model Pjon.Spec Pjon.Proofs.Frames Pjon.Proofs.Update

variable {b : Build}

/-! ## The endpoint -/

section Endpoint

variable (bus : Bus b) (send : Bus b → PacketInfo → Outcome b) (maxHops : UInt8)
  (info : PacketInfo)

/-- The info that is sent on. -/
def counted (b : Build) (info : PacketInfo) : PacketInfo :=
  if b.pjonLocal then info else { info with hops := info.hops + 1 }

/-- The call reaches the line that restores the endpoint. -/
def Passes (b : Build) (maxHops : UInt8) (info : PacketInfo) : Prop :=
  b.pjonLocal = true ∨ WithinHops maxHops info

theorem forwardBy_of_passes (h : Passes b maxHops info) :
    bus.forwardBy send maxHops info =
      { send { bus with tx := info.tx } (counted b info) with
        bus := { (send { bus with tx := info.tx } (counted b info)).bus with tx := bus.tx } } := by
  have hlimit : (!b.pjonLocal && decide (maxHops < (counted b info).hops)) = false := by
    cases hlocal : b.pjonLocal
    · have hwithin := h.resolve_left (by simp [hlocal])
      rw [counted, hlocal]
      simpa [WithinHops, UInt8.not_lt] using hwithin
    · rfl
  exact if_neg fun hset => Bool.noConfusion (hlimit.symm.trans hset)

theorem forwardBy_of_not_passes (h : ¬Passes b maxHops info) :
    bus.forwardBy send maxHops info =
      { result := fail, bus := { bus with tx := info.tx } } := by
  have hlocal : b.pjonLocal = false := by
    rw [Bool.eq_false_iff]
    exact fun hset => h (Or.inl hset)
  have hlimit : (!b.pjonLocal && decide (maxHops < (counted b info).hops)) = true := by
    have hover : ¬WithinHops maxHops info := fun hwithin => h (Or.inr hwithin)
    rw [counted, hlocal]
    simpa [WithinHops, UInt8.not_le] using hover
  exact if_pos hlimit

/-- The endpoint is the instance's own again, but where the hop limit ends the call. -/
theorem forwardBy_tx_iff :
    (bus.forwardBy send maxHops info).bus.tx = bus.tx ↔
      Passes b maxHops info ∨ info.tx = bus.tx := by
  by_cases h : Passes b maxHops info
  · rw [forwardBy_of_passes bus send maxHops info h]
    exact iff_of_true rfl (Or.inl h)
  · rw [forwardBy_of_not_passes bus send maxHops info h]
    exact ⟨Or.inr, fun htx => htx.resolve_left h⟩

end Endpoint

/-! ## The send buffer -/

section Dispatch

variable {bus : Bus b} {k : Fin b.maxPackets} (info : PacketInfo) (payload : Payload)
  (timing now : UInt32)

theorem state_of_findSlot_fail (h : bus.findSlot fail = some k) : (bus.slot k).state = 0 := by
  rw [Bus.findSlot] at h
  have htest := List.find?_some h
  simpa using htest

theorem exists_findSlot (h : HasRoom bus) : ∃ k, bus.findSlot fail = some k := by
  obtain ⟨i, hi⟩ := h
  rw [← Option.isSome_iff_exists, Bus.findSlot, List.find?_isSome]
  exact ⟨i, List.mem_finRange i, by simp [hi]⟩

/-- A packet that is dispatched takes a free slot. -/
theorem dispatch_slot_used {i : Fin b.maxPackets} (hused : (bus.slot i).state ≠ 0) :
    (bus.dispatch info payload timing now fail).bus.slot i = bus.slot i := by
  unfold Bus.dispatch
  cases hfind : bus.findSlot fail with
  | none => rfl
  | some k =>
      have hne : k ≠ i := by
        rintro rfl
        exact hused (state_of_findSlot_fail hfind)
      simp only
      split_ifs
      · rw [Bus.slot_setSlot_ne _ _ hne, composePacket_slot]
      · rw [Bus.slot_setSlot_ne _ _ hne, composePacket_slot]

theorem dispatch_slot_ne {i : Fin b.maxPackets} (hfind : bus.findSlot fail = some k)
    (hne : k ≠ i) : (bus.dispatch info payload timing now fail).bus.slot i = bus.slot i := by
  unfold Bus.dispatch
  rw [hfind]
  simp only
  split_ifs
  · rw [Bus.slot_setSlot_ne _ _ hne, composePacket_slot]
  · rw [Bus.slot_setSlot_ne _ _ hne, composePacket_slot]

/-- The slot that is taken holds the composed packet, if it fits. -/
theorem dispatch_slot_self (hfind : bus.findSlot fail = some k)
    (hfits : (bus.composePacket info (bus.slot k).content payload).result ≠ 0) :
    ((bus.dispatch info payload timing now fail).bus.slot k).state ≠ 0 ∧
      slotFrame (bus.dispatch info payload timing now fail).bus k =
        frameOf bus info (bus.slot k).content payload := by
  have htoBeSent : toBeSent ≠ 0 := by decide
  unfold slotFrame Bus.dispatch
  rw [hfind]
  simp only
  rw [if_neg hfits, Bus.slot_setSlot]
  exact ⟨htoBeSent, rfl⟩

/-- A slot that was free and is used now has the composed packet. -/
theorem dispatch_slot_free {i : Fin b.maxPackets} (hfree : (bus.slot i).state = 0)
    (hused : ((bus.dispatch info payload timing now fail).bus.slot i).state ≠ 0) :
    (bus.composePacket info (bus.slot i).content payload).result ≠ 0 ∧
      slotFrame (bus.dispatch info payload timing now fail).bus i =
        frameOf bus info (bus.slot i).content payload := by
  obtain ⟨k, hfind⟩ := exists_findSlot ⟨i, hfree⟩
  have hk : k = i := by
    by_contra hne
    rw [dispatch_slot_ne info payload timing now hfind hne] at hused
    exact hused hfree
  subst hk
  have hfits : (bus.composePacket info (bus.slot k).content payload).result ≠ 0 := by
    intro hzero
    apply hused
    unfold Bus.dispatch
    rw [hfind]
    simp only
    rw [if_pos hzero, Bus.slot_setSlot]
    exact hfree
  exact ⟨hfits, (dispatch_slot_self info payload timing now hfind hfits).2⟩

theorem queued_dispatch (hfind : bus.findSlot fail = some k)
    (hfits : (bus.composePacket info (bus.slot k).content payload).result ≠ 0) :
    queued bus (bus.dispatch info payload timing now fail).bus =
      [frameOf bus info (bus.slot k).content payload] := by
  obtain ⟨hstate, hframe⟩ := dispatch_slot_self info payload timing now hfind hfits
  apply Search.filterMap_eq_singleton (List.nodup_finRange _) (List.mem_finRange k)
  · rw [if_pos ⟨state_of_findSlot_fail hfind, hstate⟩, hframe]
  · intro i hi
    rw [if_neg]
    rintro ⟨hfree, hused⟩
    rw [dispatch_slot_ne info payload timing now hfind hi.symm] at hused
    exact hused hfree

theorem mem_queued {before after : Bus b} {frame : List UInt8} :
    frame ∈ queued before after ↔ ∃ k, (before.slot k).state = 0 ∧
      (after.slot k).state ≠ 0 ∧ slotFrame after k = frame := by
  rw [queued, List.mem_filterMap]
  constructor
  · rintro ⟨k, -, hk⟩
    split_ifs at hk with hslot
    exact ⟨k, hslot.1, hslot.2, Option.some.inj hk⟩
  · rintro ⟨k, hfree, hused, hframe⟩
    exact ⟨k, List.mem_finRange k, by rw [if_pos ⟨hfree, hused⟩, hframe]⟩

/-- `dispatch` changes the send buffer and the seed. -/
theorem dispatch_bus (packetIndex : Nat) : ∃ packets seed,
    (bus.dispatch info payload timing now packetIndex).bus =
      { bus with packets := packets, packetIdSeed := seed } := by
  unfold Bus.dispatch
  cases bus.findSlot packetIndex with
  | none => exact ⟨bus.packets, bus.packetIdSeed, rfl⟩
  | some k =>
      have hcomposed : ∃ seed, (bus.composePacket info (bus.slot k).content payload).bus =
          { bus with packetIdSeed := seed } := by
        rw [PacketIds.composePacket_bus, Bus.advanceSeed]
        split_ifs
        · exact ⟨_, rfl⟩
        · exact ⟨bus.packetIdSeed, rfl⟩
      obtain ⟨seed, hseed⟩ := hcomposed
      simp only
      split_ifs
      · exact ⟨_, seed, by rw [Bus.setSlot, hseed]⟩
      · exact ⟨_, seed, by rw [Bus.setSlot, hseed]⟩

end Dispatch

/-! ## What stays as it is -/

/-- The configuration of an instance, which the traffic leaves as it is. -/
structure SameSettings (bus bus' : Bus b) : Prop where
  config : bus'.config = bus.config
  tx : bus'.tx = bus.tx
  port : bus'.port = bus.port
  router : bus'.router = bus.router

namespace SameSettings

theorem refl (bus : Bus b) : SameSettings bus bus := ⟨rfl, rfl, rfl, rfl⟩

theorem trans {bus bus' bus'' : Bus b} (h : SameSettings bus bus')
    (h' : SameSettings bus' bus'') : SameSettings bus bus'' :=
  ⟨h'.config.trans h.config, h'.tx.trans h.tx, h'.port.trans h.port, h'.router.trans h.router⟩

/-- The rules for a receiver look at its configuration only. -/
theorem admissible {bus bus' : Bus b} (h : SameSettings bus bus') {s : List UInt8}
    (hadm : Admissible bus s) : Admissible bus' s := by
  obtain ⟨hconfig, htx, -, hrouter⟩ := h
  constructor
  case complete => exact hadm.complete
  case recipient =>
    rw [hrouter, htx]
    exact hadm.recipient
  case broadcastAck => exact hadm.broadcastAck
  case extLenCrc => exact hadm.extLenCrc
  case macCrc => exact hadm.macCrc
  case packetId => exact hadm.packetId
  case port => exact hadm.port
  case mac => exact hadm.mac
  case mode =>
    rw [hrouter, hconfig]
    exact hadm.mode
  case busId =>
    rw [hrouter, hconfig, htx]
    exact hadm.busId
  case overhead => exact hadm.overhead
  case maxLength => exact hadm.maxLength
  case longCrc => exact hadm.longCrc
  case frontCrc => exact hadm.frontCrc
  case endCrc => exact hadm.endCrc
  case macAddress =>
    rw [hrouter, htx]
    exact hadm.macAddress

theorem portMatches {bus bus' : Bus b} (h : SameSettings bus bus') {s : List UInt8} :
    Spec.portMatches bus' s = Spec.portMatches bus s := by
  rw [Spec.portMatches, h.port]
  rfl

end SameSettings

section Settings

variable (bus : Bus b) (info : PacketInfo) (payload : Payload)

theorem sameSettings_dispatch (timing now : UInt32) (packetIndex : Nat) :
    SameSettings bus (bus.dispatch info payload timing now packetIndex).bus := by
  obtain ⟨packets, seed, hbus⟩ := dispatch_bus info payload timing now packetIndex
  rw [hbus]
  exact ⟨rfl, rfl, rfl, rfl⟩

theorem sameSettings_composeData : SameSettings bus (bus.composeData info payload).bus := by
  rw [Blocking.composeData_bus, Bus.advanceSeed]
  split_ifs <;> exact ⟨rfl, rfl, rfl, rfl⟩

theorem sameSettings_blockingLoop (attempts : Nat → Attempt) (todo : Nat) :
    ∀ (k state : Nat) (bus : Bus b),
      SameSettings bus (Bus.blockingLoop info payload attempts todo k state bus).bus := by
  induction todo with
  | zero => exact fun k state bus => SameSettings.refl bus
  | succ todo ih =>
      intro k state bus
      have hcomposed := sameSettings_composeData bus info payload
      rw [Bus.blockingLoop]
      simp only
      split_ifs
      · exact hcomposed
      · exact hcomposed
      · exact hcomposed.trans (ih _ _ _)
      · exact SameSettings.refl bus

theorem sameSettings_receive (delivery : Delivery) :
    SameSettings bus (bus.receive delivery).bus := by
  obtain ⟨data, info, records, hbus⟩ := receive_leaves bus delivery
  rw [hbus]
  exact ⟨rfl, rfl, rfl, rfl⟩

/-- The send buffer is nothing to `receive`. -/
theorem receive_slot (delivery : Delivery) (k : Fin b.maxPackets) :
    (bus.receive delivery).bus.slot k = bus.slot k := by
  rw [Bus.slot, receive_packets, ← Bus.slot]

theorem sameSettings_setSlot (i : Fin b.maxPackets) (packet : Packet) :
    SameSettings bus (bus.setSlot i packet) := ⟨rfl, rfl, rfl, rfl⟩

theorem sameSettings_resetPacket (i : Fin b.maxPackets) (now : UInt32) :
    SameSettings bus (bus.resetPacket i now).2 := by
  unfold Bus.resetPacket
  split_ifs
  · exact sameSettings_setSlot bus i _
  · exact SameSettings.refl bus
  · exact sameSettings_setSlot bus i _

theorem sameSettings_updateSlot (maxAttempts : UInt8) (i : Fin b.maxPackets) (turn : Turn) :
    SameSettings bus (bus.updateSlot maxAttempts i turn).bus := by
  rcases updateSlot_cases bus maxAttempts i turn with ⟨hbus, -⟩ | ⟨-, hbus | hbus, -⟩
  · rw [hbus]
    exact SameSettings.refl bus
  · rw [hbus]
    exact sameSettings_setSlot bus i _
  · rw [hbus]
    exact (sameSettings_setSlot bus i _).trans (sameSettings_resetPacket _ i _)

theorem sameSettings_updateFrom (maxAttempts : UInt8) (turns : Fin b.maxPackets → Turn)
    (slots : List (Fin b.maxPackets)) :
    ∀ bus : Bus b, SameSettings bus (bus.updateFrom maxAttempts turns slots).bus := by
  induction slots with
  | nil => exact fun bus => SameSettings.refl bus
  | cons i slots ih =>
      intro bus
      exact (sameSettings_updateSlot bus maxAttempts i (turns i)).trans (ih _)

end Settings

/-! ## What is not acknowledged -/

section Silent

/-- No response is sent. -/
def Silent (events : List Event) : Prop := ∀ response, Event.sendResponse response ∉ events

theorem Silent.append {events events' : List Event} (h : Silent events) (h' : Silent events') :
    Silent (events ++ events') := by
  intro response hmem
  rcases List.mem_append.mp hmem with hfirst | hsecond
  · exact h response hfirst
  · exact h' response hsecond

theorem silent_nil : Silent [] := fun _ => List.not_mem_nil

theorem silent_error (code data customPointer : Nat) :
    Silent [.error code data customPointer] := by
  intro response hmem
  simp at hmem

variable (info : PacketInfo) (payload : Payload)

theorem silent_composePacket (bus : Bus b) (destination : Memory) :
    Silent (bus.composePacket info destination payload).events := by
  unfold Bus.composePacket
  simp only
  split_ifs
  · exact silent_nil
  · exact silent_error _ _ _

theorem silent_dispatch (bus : Bus b) (timing now : UInt32) (packetIndex : Nat) :
    Silent (bus.dispatch info payload timing now packetIndex).events := by
  unfold Bus.dispatch
  cases bus.findSlot packetIndex with
  | none => exact silent_error _ _ _
  | some k =>
      simp only
      split_ifs <;> exact silent_composePacket info payload bus _

theorem silent_sendComposed (bus : Bus b) (packet : Memory) (length : Nat) (medium : Medium) :
    Silent (bus.sendComposed packet length medium).2 := by
  intro response hmem
  unfold Bus.sendComposed at hmem
  split_ifs at hmem <;> simp at hmem

theorem silent_blockingLoop (attempts : Nat → Attempt) (todo : Nat) :
    ∀ (k state : Nat) (bus : Bus b),
      Silent (Bus.blockingLoop info payload attempts todo k state bus).events := by
  induction todo with
  | zero => exact fun _ _ _ => silent_nil
  | succ todo ih =>
      intro k state bus
      have hcomposed := silent_composePacket info payload bus bus.data
      rw [Bus.blockingLoop]
      simp only
      split_ifs
      · exact hcomposed
      · exact hcomposed.append (silent_sendComposed _ _ _ _)
      · exact (hcomposed.append (silent_sendComposed _ _ _ _)).append (ih _ _ _)
      · exact silent_nil

end Silent

/-! ## Handing a packet on -/

section ForwardBy

variable {send : Bus b → PacketInfo → Outcome b} (bus : Bus b) (maxHops : UInt8)
  (info : PacketInfo)

theorem sameSettings_forwardBy (hsend : ∀ bus info, SameSettings bus (send bus info).bus) :
    SameSettings { bus with tx := (bus.forwardBy send maxHops info).bus.tx }
      (bus.forwardBy send maxHops info).bus := by
  by_cases h : Passes b maxHops info
  · have hsent := hsend { bus with tx := info.tx } (counted b info)
    rw [forwardBy_of_passes bus send maxHops info h]
    exact ⟨hsent.config, rfl, hsent.port, hsent.router⟩
  · rw [forwardBy_of_not_passes bus send maxHops info h]
    exact ⟨rfl, rfl, rfl, rfl⟩

theorem silent_forwardBy (hsend : ∀ bus info, Silent (send bus info).events) :
    Silent (bus.forwardBy send maxHops info).events := by
  by_cases h : Passes b maxHops info
  · rw [forwardBy_of_passes bus send maxHops info h]
    exact hsend _ _
  · rw [forwardBy_of_not_passes bus send maxHops info h]
    exact silent_nil

end ForwardBy

section HandOn

variable {r : RouterBuild} (bus : Bus r.toBuild) (info : PacketInfo) (payload : Payload)
  (surroundings : Surroundings)

/-- What is sent on in a program that has a send buffer. -/
theorem handOn_of_within (hbuffer : r.maxPackets ≠ 0) (h : WithinHops r.maxHops info) :
    (Switch.handOn bus info payload surroundings).bus =
      { (Bus.dispatch { bus with tx := info.tx } { info with hops := info.hops + 1 } payload 0
          surroundings.now fail).bus with tx := bus.tx } := by
  have hcounted : counted r.toBuild info = { info with hops := info.hops + 1 } := by
    rw [counted, r.shared]
    rfl
  rw [Switch.handOn, if_neg hbuffer, Bus.forward, forwardBy_of_passes _ _ _ _ (Or.inr h), hcounted]

/-- Handing a packet on leaves the endpoint as it is, but where the hop limit ends it. -/
theorem handOn_tx_iff :
    (Switch.handOn bus info payload surroundings).bus.tx = bus.tx ↔
      WithinHops r.maxHops info ∨ info.tx = bus.tx := by
  have hpasses : Passes r.toBuild r.maxHops info ↔ WithinHops r.maxHops info := by
    rw [Passes, r.shared]
    simp
  unfold Switch.handOn
  simp only
  split_ifs
  · rw [Bus.forwardBlocking, forwardBy_tx_iff, hpasses]
  · rw [Bus.forwardBlocking, forwardBy_tx_iff, hpasses]
  · rw [Bus.forward, forwardBy_tx_iff, hpasses]

/-- Apart from the endpoint, handing a packet on leaves the settings as they are. -/
theorem sameSettings_handOn :
    SameSettings { bus with tx := (Switch.handOn bus info payload surroundings).bus.tx }
      (Switch.handOn bus info payload surroundings).bus := by
  unfold Switch.handOn
  simp only
  split_ifs
  · exact sameSettings_forwardBy bus _ info fun bus info =>
      sameSettings_blockingLoop info payload _ _ _ _ bus
  · exact sameSettings_forwardBy bus _ info fun bus info =>
      sameSettings_blockingLoop info payload _ _ _ _ bus
  · exact sameSettings_forwardBy bus _ info fun bus info =>
      sameSettings_dispatch bus info payload _ _ _

theorem sameSettings_handOn_of_keeps (h : WithinHops r.maxHops info ∨ info.tx = bus.tx) :
    SameSettings bus (Switch.handOn bus info payload surroundings).bus := by
  have hsettings := sameSettings_handOn bus info payload surroundings
  rwa [(handOn_tx_iff bus info payload surroundings).mpr h] at hsettings

theorem silent_handOn : Silent (Switch.handOn bus info payload surroundings).events := by
  have hblocking : Silent (bus.forwardBlocking r.maxHops info payload surroundings.maxAttempts
      surroundings.attempts).events :=
    silent_forwardBy bus _ info fun bus info => silent_blockingLoop info payload _ _ _ _ bus
  unfold Switch.handOn
  simp only
  split_ifs
  · exact hblocking.append (silent_error _ _ _)
  · exact hblocking
  · exact silent_forwardBy bus _ info fun bus info => silent_dispatch info payload bus _ _ _

end HandOn

end Pjon.Proofs.Forward
