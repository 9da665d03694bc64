import Pjon.Spec.Conversation
import Pjon.Proofs.Blocking
import Pjon.Proofs.Due
import Pjon.Proofs.Duplicates
/-!
# A packet is handed over once, or reported

`update` and `receive` do with a packet what the abstract channel does: step by step, whatever the
medium loses.
-/

namespace Pjon.Proofs.Conversation

open Pjon.Lib Pjon.Model Pjon.Spec
open Pjon.Proofs.Deliver Pjon.Proofs.Duplicates Pjon.Proofs.Frames Pjon.Proofs.Update
open Pjon.Proofs.LifeCycle Pjon.Proofs.Interop Pjon.Proofs.Layout

/-! ## The channel -/

section Channel

variable {maxAttempts : Nat} {c : Channel} {fates : List Fate}

/-- What the fates so far have made of the channel. -/
structure Told (maxAttempts : Nat) (fates : List Fate) (c : Channel) : Prop where
  waits : c.waits = true → c.attempts = fates.length ∧ fates.length ≤ maxAttempts ∧
    (∀ fate ∈ fates, fate.lucky = false) ∧ c.reported = false
  delivered : c.waits = false → c.reported = false → c.received = true
  reported : c.reported = true → ∃ before after, fates = before ++ after ∧
    before.length = maxAttempts + 1 ∧ ∀ fate ∈ before, fate.lucky = false

theorem told_start : Told maxAttempts [] {} where
  waits := fun _ => ⟨rfl, Nat.zero_le _, nofun, rfl⟩
  delivered := fun h => Bool.noConfusion h
  reported := fun h => Bool.noConfusion h

theorem told_attempt (h : Told maxAttempts fates c) (fate : Fate) :
    Told maxAttempts (fates ++ [fate]) (c.attempt maxAttempts fate) := by
  rw [Channel.attempt]
  cases hwaits : c.waits with
  | false =>
      refine ⟨fun h => ?_, h.delivered, fun hreported => ?_⟩
      · change c.waits = true at h
        exact Bool.noConfusion (hwaits.symm.trans h)
      · obtain ⟨before, after, rfl, hrest⟩ := h.reported hreported
        exact ⟨before, after ++ [fate], List.append_assoc .., hrest⟩
  | true =>
      obtain ⟨hattempts, hfew, hunlucky, hnone⟩ := h.waits hwaits
      rw [if_pos rfl]
      cases hlucky : fate.lucky with
      | true =>
          rw [if_pos rfl]
          refine ⟨fun h => Bool.noConfusion h, fun _ _ => ?_, fun hreported => ?_⟩
          · simp only [Fate.lucky, Bool.and_eq_true] at hlucky
            simp only [hlucky.1.1, hlucky.1.2, Bool.and_self, Bool.or_true]
          · exact Bool.noConfusion (hnone.symm.trans hreported)
      | false =>
          have hall : ∀ f ∈ fates ++ [fate], f.lucky = false := by
            rw [List.forall_mem_append, List.forall_mem_singleton]
            exact ⟨hunlucky, hlucky⟩
          have hlength : (fates ++ [fate]).length = fates.length + 1 := List.length_append
          rw [if_neg Bool.false_ne_true]
          split
          case isTrue hlast =>
            refine ⟨fun h => Bool.noConfusion h, fun _ h => Bool.noConfusion h, fun _ => ?_⟩
            exact ⟨fates ++ [fate], [], (List.append_nil _).symm, by omega, hall⟩
          case isFalse hmore =>
            refine ⟨fun _ => ⟨?_, by omega, hall, hnone⟩, fun h => Bool.noConfusion h,
              fun hreported => ?_⟩
            · rw [hlength, ← hattempts]
            · exact Bool.noConfusion (hnone.symm.trans hreported)

theorem attempt_of_not_waits (h : c.waits = false) (fate : Fate) :
    c.attempt maxAttempts fate = c := by
  rw [Channel.attempt, if_neg (by rw [h]; exact Bool.false_ne_true)]

theorem told_run (fates : List Fate) : Told maxAttempts fates (Channel.run maxAttempts fates) := by
  induction fates using List.reverseRecOn with
  | nil => exact told_start
  | append_singleton fates fate ih =>
      rw [Channel.run, List.foldl_append]
      exact told_attempt ih fate

/-- Instances that do as the channel does are reliable. -/
theorem reliable_of_mirrors {b b' : Build} {payload : List UInt8} {x : Conversation b b'}
    (h : Mirrors payload x (Channel.run maxAttempts fates)) :
    Reliable maxAttempts payload x fates := by
  have htold : Told maxAttempts fates (Channel.run maxAttempts fates) := told_run fates
  have hlost : x.lost = 1 ↔ (Channel.run maxAttempts fates).reported = true := by
    rw [h.lost]
    cases (Channel.run maxAttempts fates).reported <;> simp
  refine ⟨?_, fun hwaits hnone => ?_, ⟨?_, fun hone => htold.reported (hlost.mp hone)⟩, ?_⟩
  · rw [h.taken]
    split_ifs
    · exact Or.inr rfl
    · exact Or.inl rfl
  · have hreported : (Channel.run maxAttempts fates).reported = false := by
      rw [h.lost] at hnone
      cases hcase : (Channel.run maxAttempts fates).reported
      · rfl
      · rw [hcase] at hnone
        exact absurd hnone (by decide)
    rw [h.taken, if_pos (htold.delivered (h.waits.symm.trans hwaits) hreported)]
  · rw [h.lost]
    exact Bool.toNat_le _
  · rintro ⟨fate, hfate, hlucky⟩
    have hnot : (Channel.run maxAttempts fates).reported = false := by
      rw [← Bool.not_eq_true]
      intro hreported
      obtain ⟨before, after, hsplit, hlength, hunlucky⟩ := htold.reported hreported
      rw [hsplit, ← hlength, List.take_left] at hfate
      exact Bool.noConfusion ((hunlucky fate hfate).symm.trans hlucky)
    refine ⟨?_, ?_⟩
    · rw [h.waits, ← Bool.not_eq_true]
      intro hwaits
      have hunlucky := (htold.waits hwaits).2.2.1 fate (List.mem_of_mem_take hfate)
      exact Bool.noConfusion (hunlucky.symm.trans hlucky)
    · rw [h.lost, hnot]
      rfl

end Channel

/-! ## The receiver -/

section Receiver

variable {b : Build} {receiver : Bus b} {frame : List UInt8} {received : Bool}

/-- The receiver has the packet or still expects it. -/
structure Expects (receiver : Bus b) (frame : List UInt8) (received : Bool) : Prop where
  keepsIds : KeepsIds receiver
  admissible : Admissible receiver frame
  packetId : has (header frame) packetIdBit = true
  ackDue : ackDue receiver frame = true
  port : portMatches receiver frame = true
  recorded : recorded receiver frame = received

/-- Whenever the frame arrives it is acknowledged; the first time it is handed over. -/
theorem expects_receive (hmin : 4 ≤ b.packetMaxLength) (hmax : b.packetMaxLength < 65536)
    (h : Expects receiver frame received) (delivery : Delivery) (hbytes : delivery.bytes = frame) :
    Event.sendResponse ack ∈ (receiver.receive delivery).events ∧
      handedOver (receiver.receive delivery) = (if received then [] else [payloadOf frame]) ∧
      Expects (receiver.receive delivery).bus frame true := by
  subst hbytes
  obtain ⟨info, -, hcaused⟩ := receive_caused receiver delivery hmin hmax h.admissible
  refine ⟨(mem_events_response hcaused).mpr h.ackDue, ?_, ?_⟩
  · rw [handedOver, hcaused.events, h.ackDue, h.keepsIds.notRouter, h.recorded, h.port]
    cases received <;> rfl
  · have hfound : (receiver.receive delivery).bus.recentPacketIds.toList.any
        (recordTest b delivery.bytes) = true := by
      rw [hcaused.records, recordsAfter_own receiver delivery h.keepsIds (fun _ => h.packetId)
        h.admissible]
      split_ifs with hknown
      · exact hknown
      · rw [Recent.any_iff_foundBelow]
        exact (Recent.foundBelow_push _ b.recent_pos
          (PacketIds.sameId_recordOf (infoOf receiver delivery.bytes))).mono b.recent_pos
    rw [hcaused.bus_eq]
    exact {
      keepsIds := ⟨h.keepsIds.compiled, h.keepsIds.notRouter⟩
      admissible := { h.admissible with }
      packetId := h.packetId
      ackDue := h.ackDue
      port := h.port
      recorded := by
        rw [recorded_infoOf, h.packetId, Bool.true_and, sameId_infoOf]
        exact hfound }

end Receiver

/-! ## The sender -/

section Sender

variable {b : Build} {maxAttempts : UInt8} {sender : Bus b} {index : Fin b.maxPackets}
  {registered : UInt32} {frame : List UInt8} {attempts : Nat} {turns : Fin b.maxPackets → Turn}

/-- The sender has the packet, which is sent once, and has tried to send it so many times. -/
structure Keeps (sender : Bus b) (index : Fin b.maxPackets) (registered : UInt32)
    (frame : List UInt8) (attempts : Nat) : Prop where
  autoDelete : sender.autoDelete = true
  halfDuplex : sender.halfDuplex = true
  used : Occupied sender index
  unanswered : (sender.slot index).state ≠ ack
  once : (sender.slot index).timing = 0
  registered : (sender.slot index).registration = registered
  holds : (sender.slot index).content.load 0 (sender.slot index).length = frame
  attempts : (sender.slot index).attempts.toNat = attempts

/-- The slot is the same, and what the instance is set to. -/
theorem keeps_congr {sender' : Bus b} (h : Keeps sender index registered frame attempts)
    (hauto : sender'.autoDelete = sender.autoDelete)
    (hmode : sender'.halfDuplex = sender.halfDuplex)
    (hslot : sender'.slot index = sender.slot index) :
    Keeps sender' index registered frame attempts := by
  constructor
  · rw [hauto, h.autoDelete]
  · rw [hmode, h.halfDuplex]
  · rw [Occupied, hslot]
    exact h.used
  · rw [hslot]
    exact h.unanswered
  · rw [hslot, h.once]
  · rw [hslot, h.registered]
  · rw [hslot, h.holds]
  · rw [hslot, h.attempts]

variable (maxAttempts sender) in
theorem update_settings (turns : Fin b.maxPackets → Turn) :
    (sender.update maxAttempts turns).bus.autoDelete = sender.autoDelete ∧
      (sender.update maxAttempts turns).bus.halfDuplex = sender.halfDuplex := by
  obtain ⟨packets, hbus⟩ :=
    Replies.updateFrom_bus maxAttempts turns (List.finRange b.maxPackets) sender
  rw [Bus.update, hbus]
  exact ⟨rfl, rfl⟩

theorem turned_keeps (maxAttempts : UInt8) (h : Keeps sender index registered frame attempts)
    (turns : Fin b.maxPackets → Turn) : ∃ lost,
    Turned maxAttempts (sender.slot index) ((sender.update maxAttempts turns).bus.slot index)
      (Spec.attempt index (sender, .update turns)) lost ∧
    lossesReported maxAttempts index (sender, .update turns) = lost.toNat :=
  (turned_updateFrom maxAttempts turns _ sender (List.nodup_finRange _) h.autoDelete
    h.unanswered).2 (List.mem_finRange index)

variable (maxAttempts) in
/-- Before the back-off is over nothing happens. -/
theorem keeps_early (h : Keeps sender index registered frame attempts)
    (hearly : (turns index).now - registered ≤ (turns index).backOff) :
    framesOf index (sender.update maxAttempts turns).events = [] ∧
      lossesReported maxAttempts index (sender, .update turns) = 0 ∧
      Keeps (sender.update maxAttempts turns).bus index registered frame attempts := by
  have hwait : (turns index).now - (sender.slot index).registration ≤
      (sender.slot index).timing + (turns index).backOff := by
    rwa [h.registered, h.once, UInt32.zero_add]
  obtain ⟨lost, hturned, hlosses⟩ := turned_keeps maxAttempts h turns
  have hnone : Spec.attempt index (sender, .update turns) = none := by
    rw [Spec.attempt]
    exact if_pos (Or.inr hwait)
  rw [hnone] at hturned
  obtain ⟨hauto, hmode⟩ := update_settings maxAttempts sender turns
  cases hturned with
  | rests hsame =>
      refine ⟨?_, hlosses, keeps_congr h hauto hmode hsame⟩
      rw [framesOf_update, leaves, if_neg fun hsent => ?_]
      exact UInt32.not_le.mpr hsent.1.2.1 hwait

/-- Afterwards an attempt is made. -/
theorem keeps_due (h : Keeps sender index registered frame attempts)
    (hdue : ¬(turns index).now - registered ≤ (turns index).backOff)
    (hwants : wantsAck (sender.slot index).content = true) (hmax : maxAttempts < 255)
    (hfew : attempts ≤ maxAttempts.toNat) {acked : Bool}
    (hacked : (turns index).canStart = true ∧ (turns index).response = ack ↔ acked = true) :
    framesOf index (sender.update maxAttempts turns).events =
        (if (turns index).canStart then [frame] else []) ∧
      if acked then
        ¬Occupied (sender.update maxAttempts turns).bus index ∧
          lossesReported maxAttempts index (sender, .update turns) = 0
      else if maxAttempts.toNat < attempts + 1 then
        ¬Occupied (sender.update maxAttempts turns).bus index ∧
          lossesReported maxAttempts index (sender, .update turns) = 1
      else
        Keeps (sender.update maxAttempts turns).bus index registered frame (attempts + 1) ∧
          lossesReported maxAttempts index (sender, .update turns) = 0 := by
  have hover : ¬(turns index).now - (sender.slot index).registration ≤
      (sender.slot index).timing + (turns index).backOff := by
    rwa [h.registered, h.once, UInt32.zero_add]
  have hsends : sender.Sends index (turns index) :=
    ⟨h.used, UInt32.not_le.mp hover, h.unanswered⟩
  have hmedium : (sender.sendComposed (sender.slot index).content (sender.slot index).length
      (turns index).toMedium).1 = ack ↔ acked = true := by
    rw [Blocking.sendComposed_ack_iff, Answered, h.halfDuplex, hwants, ← hacked]
    simp only [forall_const]
  -- the counter does not wrap
  have hnext : ((sender.slot index).attempts + 1).toNat = attempts + 1 := by
    have hlt : maxAttempts.toNat < 255 := UInt8.lt_iff_toNat_lt.mp hmax
    have hbyte : (sender.slot index).attempts.toNat + 1 < 256 := by
      rw [h.attempts]
      omega
    rw [UInt8.toNat_add, ← h.attempts]
    exact Nat.mod_eq_of_lt hbyte
  have hlast : maxAttempts < (sender.slot index).attempts + 1 ↔
      maxAttempts.toNat < attempts + 1 := by
    rw [UInt8.lt_iff_toNat_lt, hnext]
  obtain ⟨lost, hturned, hlosses⟩ := turned_keeps maxAttempts h turns
  have hattempt : Spec.attempt index (sender, .update turns) =
      some (sender.sendComposed (sender.slot index).content (sender.slot index).length
        (turns index).toMedium).1 := by
    rw [Spec.attempt]
    exact if_neg (not_or.mpr ⟨h.used, hover⟩)
  rw [hattempt] at hturned
  obtain ⟨hauto, hmode⟩ := update_settings maxAttempts sender turns
  refine ⟨?_, ?_⟩
  · rw [framesOf_update, leaves, h.holds, h.halfDuplex]
    simp only [hsends, forall_const, true_and]
  · cases hturned with
    | acknowledged _ hfree _ _ hr =>
        rw [if_pos (hmedium.mp hr)]
        exact ⟨not_not_intro hfree, hlosses⟩
    | givenUp _ hfree _ _ hr hnever =>
        rw [if_neg (mt hmedium.mpr hr), if_pos (hlast.mp hnever)]
        exact ⟨not_not_intro hfree, hlosses⟩
    | restarts _ htiming => exact absurd h.once htiming
    | goesOn _ hr hr0 hmore hslot =>
        rw [if_neg (mt hmedium.mpr hr), if_neg (mt hlast.mpr hmore)]
        refine ⟨?_, hlosses⟩
        constructor
        · rw [hauto, h.autoDelete]
        · rw [hmode, h.halfDuplex]
        · rw [Occupied, hslot]
          exact hr0
        · rw [hslot]
          exact hr
        · rw [hslot]
          exact h.once
        · rw [hslot]
          exact h.registered
        · rw [hslot]
          exact h.holds
        · rw [hslot]
          exact hnext

/-- The other calls leave the packet alone. -/
theorem keeps_call (h : Keeps sender index registered frame attempts) {usage : Usage b}
    (hproper : (Happening.call usage).Proper) :
    Keeps (usage.run maxAttempts sender).bus index registered frame attempts := by
  obtain ⟨hpayload, hupdate, hremove, hremoveAll⟩ := hproper
  have hslot : (usage.run maxAttempts sender).bus.slot index = sender.slot index := by
    cases (touched_run maxAttempts index sender hpayload hupdate).1 with
    | rests hsame => exact hsame
    | taken hfree => exact absurd hfree h.used
    | removed hremoves =>
        cases usage with
        | remove i => exact absurd rfl (hremove i)
        | removeAllPackets deviceId => exact absurd rfl (hremoveAll deviceId)
        | _ => exact absurd hremoves Bool.false_ne_true
  have hdispatch (info : PacketInfo) (payload : Payload) (timing now : UInt32) :
      (sender.dispatch info payload timing now fail).bus.halfDuplex = sender.halfDuplex := by
    have hbus : ∃ packets seed, (sender.dispatch info payload timing now fail).bus =
        { sender with packets := packets, packetIdSeed := seed } :=
      Forward.dispatch_bus info payload timing now fail
    obtain ⟨packets, seed, hsame⟩ := hbus
    rw [hsame]
  have hmode : (usage.run maxAttempts sender).bus.halfDuplex = sender.halfDuplex := by
    cases usage with
    | update turns => exact absurd rfl (hupdate turns)
    | remove i => exact absurd rfl (hremove i)
    | removeAllPackets deviceId => exact absurd rfl (hremoveAll deviceId)
    | receive delivery =>
        obtain ⟨data, info, records, hbus⟩ := receive_leaves sender delivery
        rw [Usage.run, hbus]
    | _ => exact hdispatch _ _ _ _
  exact keeps_congr h (autoDelete_run maxAttempts sender usage) hmode hslot

end Sender

/-! ## Both ends -/

section Ends

variable {b b' : Build} {maxAttempts : UInt8} {index : Fin b.maxPackets} {registered : UInt32}
  {frame : List UInt8} {x : Conversation b b'} {c : Channel}

/-- The instances have come to what the channel has, and as long as the packet waits they are
ready for the next attempt. -/
structure Synchronised (maxAttempts : UInt8) (index : Fin b.maxPackets) (registered : UInt32)
    (frame : List UInt8) (x : Conversation b b') (c : Channel) : Prop where
  mirrors : Mirrors (payloadOf frame) x c
  sender : x.waits = true → Keeps x.sender index registered frame c.attempts
  receiver : x.waits = true → Expects x.receiver frame c.received
  few : x.waits = true → c.attempts ≤ maxAttempts.toNat ∧ c.reported = false

/-- The packet in the slot asks for what the receiver owes. -/
theorem wantsAck_of_expects {receiver : Bus b'} {received : Bool} {content : Memory} {length : Nat}
    (h : Expects receiver (content.load 0 length) received) : wantsAck content = true := by
  have hlength := length_of_admissible h.admissible
  rw [Memory.length_load] at hlength
  have hdue := h.ackDue
  rw [ackDue, header, byte_load content (by omega), byte_load content (by omega)] at hdue
  simp only [Bool.and_eq_true] at hdue
  rw [wantsAck, hdue.1.1.1, hdue.1.1.2]
  rfl

variable (index) in
/-- The sender gets an answer when the frame arrives and the response returns. -/
theorem answered_response (turns : Fin b.maxPackets → Turn) {outcome : Outcome b'}
    {arrives : Bool} (returns : Bool)
    (h : outcome.events.contains (.sendResponse ack) = arrives) :
    (Conversation.answered index turns outcome returns index).response = ack ↔
      arrives = true ∧ returns = true := by
  have hfail : fail ≠ ack := by decide
  rw [Conversation.answered, Function.update_self, h]
  cases arrives <;> cases returns <;> simp [hfail]

section Receiving

variable (hmin : 4 ≤ b'.packetMaxLength) (hmax : b'.packetMaxLength < 65536)

include hmin hmax

/-- What the receiver makes of the frame, if it arrives. -/
theorem heard_of_expects {received : Bool} (h : Expects x.receiver frame received)
    (hframe : x.frame index = frame) (arrives : Bool) (batch : Nat → Nat) :
    (x.heard index arrives batch).events.contains (.sendResponse ack) = arrives ∧
      handedOver (x.heard index arrives batch) =
        (if arrives && !received then [payloadOf frame] else []) ∧
      Expects (x.heard index arrives batch).bus frame (received || arrives) := by
  cases arrives with
  | false =>
      rw [Bool.or_false]
      exact ⟨rfl, rfl, h⟩
  | true =>
      rw [Bool.or_true]
      rw [Conversation.heard, if_pos rfl]
      obtain ⟨hack, htaken, hnext⟩ := expects_receive hmin hmax h
        { bytes := x.frame index, batch := batch } hframe
      refine ⟨List.contains_iff_mem.mpr hack, ?_, hnext⟩
      rw [htaken]
      cases received <;> rfl

end Receiving

/-! ### A happening -/

section Happening

variable {turns : Fin b.maxPackets → Turn} {outcome : Outcome b'}
  (h : Synchronised maxAttempts index registered frame x c) (hwaits : x.waits = true)

include h hwaits

theorem exchange_early (hearly : (turns index).now - registered ≤ (turns index).backOff) :
    Synchronised maxAttempts index registered frame (x.exchange maxAttempts index outcome turns)
      c := by
  obtain ⟨hframes, hlosses, hstill⟩ :=
    keeps_early maxAttempts (h.sender hwaits) hearly
  rw [Conversation.exchange]
  simp only [hframes, hlosses, List.isEmpty_nil, Bool.not_true, Bool.false_eq_true, if_false,
    List.append_nil]
  refine ⟨⟨?_, h.mirrors.taken, h.mirrors.lost⟩, fun _ => hstill, fun _ => h.receiver hwaits,
    fun _ => h.few hwaits⟩
  rw [← h.mirrors.waits, hwaits]
  exact decide_eq_true hstill.used

theorem exchange_due (hattempts : maxAttempts < 255) {fate : Fate}
    (hdue : ¬(turns index).now - registered ≤ (turns index).backOff)
    (hfree : (turns index).canStart = fate.free)
    (hacked : (turns index).response = ack ↔ fate.arrives = true ∧ fate.returns = true)
    (htaken : handedOver outcome =
      if fate.arrives && !c.received then [payloadOf frame] else [])
    (hnext : Expects outcome.bus frame (c.received || fate.arrives)) :
    Synchronised maxAttempts index registered frame (x.exchange maxAttempts index outcome turns)
      (c.attempt maxAttempts.toNat fate) := by
  have hkeeps := h.sender hwaits
  obtain ⟨hfew, hunreported⟩ := h.few hwaits
  have hwants : wantsAck (x.sender.slot index).content = true := by
    have hexpects := h.receiver hwaits
    rw [← hkeeps.holds] at hexpects
    exact wantsAck_of_expects hexpects
  have hlucky : (turns index).canStart = true ∧ (turns index).response = ack ↔
      fate.lucky = true := by
    rw [hfree, hacked, Fate.lucky, Bool.and_eq_true, Bool.and_eq_true, and_assoc]
  obtain ⟨hframes, hends⟩ := keeps_due hkeeps hdue hwants hattempts hfew hlucky
  have hsent : (framesOf index (x.sender.update maxAttempts turns).events).isEmpty =
      !fate.free := by
    rw [hframes, hfree]
    cases fate.free <;> rfl
  have htotal : (x.taken ++ if fate.free then handedOver outcome else []) =
      if c.received || (fate.free && fate.arrives) then [payloadOf frame] else [] := by
    rw [h.mirrors.taken, htaken]
    cases c.received <;> cases fate.free <;> cases fate.arrives <;> rfl
  have hexpects : Expects (if fate.free then outcome.bus else x.receiver) frame
      (c.received || (fate.free && fate.arrives)) := by
    cases fate.free with
    | false =>
        rw [Bool.false_and, Bool.or_false]
        exact h.receiver hwaits
    | true => exact hnext
  rw [Conversation.exchange, Channel.attempt, if_pos (h.mirrors.waits.symm.trans hwaits)]
  simp only [hsent, Bool.not_not, htotal]
  have hdone (hnot : ¬Occupied (x.sender.update maxAttempts turns).bus index) {p : Prop} :
      decide (Occupied (x.sender.update maxAttempts turns).bus index) = true → p :=
    fun hw => absurd (of_decide_eq_true hw) hnot
  cases hcase : fate.lucky with
  | true =>
      rw [hcase, if_pos rfl] at hends
      rw [if_pos rfl, hends.2]
      exact ⟨⟨decide_eq_false hends.1, rfl, h.mirrors.lost⟩, hdone hends.1, hdone hends.1,
        hdone hends.1⟩
  | false =>
      rw [hcase, if_neg Bool.false_ne_true] at hends
      rw [if_neg Bool.false_ne_true]
      by_cases hlast : maxAttempts.toNat < c.attempts + 1
      · rw [if_pos hlast] at hends ⊢
        rw [hends.2]
        refine ⟨⟨decide_eq_false hends.1, rfl, ?_⟩, hdone hends.1, hdone hends.1, hdone hends.1⟩
        rw [h.mirrors.lost, hunreported]
        rfl
      · rw [if_neg hlast] at hends ⊢
        rw [hends.2]
        refine ⟨⟨?_, rfl, h.mirrors.lost⟩, fun _ => hends.1, fun _ => hexpects,
          fun _ => ⟨Nat.not_lt.mp hlast, hunreported⟩⟩
        exact (decide_eq_true hends.1.used).trans (hwaits.symm.trans h.mirrors.waits)

end Happening

/-- A happening does to the packet what its fate says. -/
theorem synchronised_update (hmin : 4 ≤ b'.packetMaxLength) (hmax : b'.packetMaxLength < 65536)
    (hattempts : maxAttempts < 255)
    (h : Synchronised maxAttempts index registered frame x c) (turns : Fin b.maxPackets → Turn)
    (arrives returns : Bool) (batch : Nat → Nat) :
    Synchronised maxAttempts index registered frame
      (x.step maxAttempts index (.update turns arrives returns batch))
      (((Happening.update turns arrives returns batch).fate index registered).elim c
        (c.attempt maxAttempts.toNat)) := by
  cases hwaits : x.waits with
  | false =>
      have hdone : c.waits = false := h.mirrors.waits.symm.trans hwaits
      have hsame : ((Happening.update turns arrives returns batch).fate index registered).elim c
          (c.attempt maxAttempts.toNat) = c := by
        cases (Happening.update turns arrives returns batch).fate index registered with
        | none => rfl
        | some fate => exact attempt_of_not_waits hdone fate
      have hnever {p : Prop} : x.waits = true → p := fun hw =>
        Bool.noConfusion (hwaits.symm.trans hw)
      rw [hsame, Conversation.step, if_neg (by rw [hwaits]; exact Bool.false_ne_true)]
      exact ⟨⟨h.mirrors.waits, h.mirrors.taken, h.mirrors.lost⟩, hnever, hnever, hnever⟩
  | true =>
      obtain ⟨hack, htaken, hnext⟩ := heard_of_expects hmin hmax (h.receiver hwaits)
        (h.sender hwaits).holds arrives batch
      have hresponse := answered_response index turns returns hack
      obtain ⟨response, hturn⟩ : ∃ response, Conversation.answered index turns
          (x.heard index arrives batch) returns index =
            { turns index with response := response } := ⟨_, Function.update_self ..⟩
      rw [Conversation.step, if_pos hwaits, Happening.fate]
      by_cases hearly : (turns index).now - registered ≤ (turns index).backOff
      · rw [if_pos hearly]
        apply exchange_early h hwaits
        rwa [hturn]
      · rw [if_neg hearly]
        refine exchange_due h hwaits hattempts ?_ ?_ hresponse htaken hnext
        · rwa [hturn]
        · rw [hturn]

theorem synchronised_step (hmin : 4 ≤ b'.packetMaxLength) (hmax : b'.packetMaxLength < 65536)
    (hattempts : maxAttempts < 255)
    (h : Synchronised maxAttempts index registered frame x c) {happening : Happening b}
    (hproper : happening.Proper) :
    Synchronised maxAttempts index registered frame (x.step maxAttempts index happening)
      ((happening.fate index registered).elim c (c.attempt maxAttempts.toNat)) := by
  cases happening with
  | update turns arrives returns batch =>
      exact synchronised_update hmin hmax hattempts h turns arrives returns batch
  | call usage =>
      exact ⟨⟨h.mirrors.waits, h.mirrors.taken, h.mirrors.lost⟩,
        fun hwaits => keeps_call (h.sender hwaits) hproper, h.receiver, h.few⟩

/-- So does any number of happenings. -/
theorem synchronised_run (hmin : 4 ≤ b'.packetMaxLength) (hmax : b'.packetMaxLength < 65536)
    (hattempts : maxAttempts < 255)
    (h : Synchronised maxAttempts index registered frame x {}) (happenings : List (Happening b))
    (hproper : ∀ happening ∈ happenings, happening.Proper) :
    Synchronised maxAttempts index registered frame
      (Run.final (Conversation.step maxAttempts index) x happenings)
      (Channel.run maxAttempts.toNat (happenings.filterMap (Happening.fate index registered))) := by
  induction happenings using List.reverseRecOn with
  | nil => exact h
  | append_singleton happenings happening ih =>
      rw [List.forall_mem_append, List.forall_mem_singleton] at hproper
      have hnext := synchronised_step hmin hmax hattempts (ih hproper.1) hproper.2
      rw [Run.final_append, List.filterMap_append, Channel.run, List.foldl_append]
      cases hfate : happening.fate index registered with
      | none =>
          rw [hfate] at hnext
          rw [List.filterMap_cons_none hfate]
          exact hnext
      | some fate =>
          rw [hfate] at hnext
          rw [List.filterMap_cons_some hfate]
          exact hnext

end Ends

/-! ## The beginning -/

section Start

variable {b b' : Build} {sender : Bus b} {receiver : Bus b'} {info : PacketInfo}
  {packet : Payload} {now : UInt32} {index : Fin b.maxPackets}
  (hsend : Sendable b (sender.completeInfo info) packet)

include hsend

/-- The sender has the packet as soon as it has dispatched it. -/
theorem keeps_dispatch (hslot : sender.findSlot fail = some index)
    (hattempts : (sender.slot index).attempts = 0) (hauto : sender.autoDelete = true)
    (hmode : sender.halfDuplex = true) :
    Keeps (sender.dispatch info packet 0 now fail).bus index now
      (bytesOf b (sender.completeInfo info) packet) 0 := by
  have hload := load_composePacket sender info (sender.slot index).content hsend
  have hresult : (sender.composePacket info (sender.slot index).content packet).result ≠ 0 := by
    intro hzero
    have hlength := length_bytesOf hsend
    rw [← hload, hzero, Memory.length_load] at hlength
    have hnonempty := hsend.nonempty
    omega
  have hstate : toBeSent ≠ 0 ∧ toBeSent ≠ ack := by decide
  have hbus : ∃ packets seed, (sender.dispatch info packet 0 now fail).bus =
      { sender with packets := packets, packetIdSeed := seed } :=
    Forward.dispatch_bus info packet 0 now fail
  have hpacket : (sender.dispatch info packet 0 now fail).bus.slot index =
      { sender.slot index with
        content := (sender.slot index).content.apply
          (sender.composePacket info (sender.slot index).content packet).writes
        length := (sender.composePacket info (sender.slot index).content packet).result
        state := toBeSent, registration := now, timing := 0 } := by
    rw [Bus.dispatch, hslot]
    simp only
    rw [if_neg hresult, Bus.slot_setSlot]
  obtain ⟨packets, seed, hsame⟩ := hbus
  constructor
  · rw [hsame]
    exact hauto
  · rw [hsame]
    exact hmode
  · rw [Occupied, hpacket]
    exact hstate.1
  · rw [hpacket]
    exact hstate.2
  · rw [hpacket]
  · rw [hpacket]
  · rw [hpacket]
    exact hload
  · rw [hpacket, hattempts]
    rfl

omit hsend in
/-- A receiver that the packet is addressed to, and that does not know its id. -/
theorem expects_bytesOf {completed : PacketInfo} (h : Sendable b' completed packet)
    (haddr : Addressed receiver completed (written b' completed packet))
    (hack : has completed.header ackReqBit = true) (hid : has completed.header packetIdBit = true)
    (hone : completed.rx.id ≠ broadcast) (hkeeps : KeepsIds receiver)
    (hmode : receiver.halfDuplex = true)
    (hport : b'.includePort → receiver.port = noPort ∨ receiver.port = completed.port)
    (hfresh : ∀ record ∈ receiver.recentPacketIds.toList,
      Bus.sameId (carried completed (written b' completed packet)) record = false) :
    Expects receiver (bytesOf b' completed packet) false where
  keepsIds := hkeeps
  admissible := admissible_bytesOf receiver h haddr
  packetId := by
    rw [header_bytesOf h, has_measure_packetId, hid]
  ackDue := by
    rw [ackDue, header_bytesOf h, byte_zero_bytesOf h, has_measure_ack, hack, hmode,
      hkeeps.notRouter]
    simpa using hone
  port := portMatches_bytesOf receiver h hport
  recorded := by
    rw [recorded_bytesOf h, Bool.and_eq_false_iff, List.any_eq_false]
    exact Or.inr fun record hrecord => by simp [hfresh record hrecord]

end Start

/-- Whatever frames and responses the medium loses, and whatever else the sender does meanwhile:
a packet that is dispatched once comes to what the abstract channel makes of it. -/
theorem conversation_reliable {b b' : Build} (hformat : SameFormat b b') (sender : Bus b)
    (receiver : Bus b') (info : PacketInfo) (packet : Payload) (now : UInt32)
    (index : Fin b.maxPackets) (hslot : sender.findSlot fail = some index)
    (hunused : (sender.slot index).attempts = 0) (hauto : sender.autoDelete = true)
    (hsender : sender.halfDuplex = true) (hreceiver : receiver.halfDuplex = true)
    (hkeeps : KeepsIds receiver) (hmax : b.packetMaxLength < 65536)
    (hsend : Sendable b (sender.completeInfo info) packet)
    (haddr : Addressed receiver (sender.completeInfo info)
      (written b (sender.completeInfo info) packet))
    (hack : has (sender.completeInfo info).header ackReqBit = true)
    (hid : has (sender.completeInfo info).header packetIdBit = true)
    (hone : info.rx.id ≠ broadcast)
    (hport : b.includePort → receiver.port = noPort ∨
      receiver.port = (sender.completeInfo info).port)
    (hfresh : ∀ record ∈ receiver.recentPacketIds.toList,
      Bus.sameId (carried (sender.completeInfo info)
        (written b (sender.completeInfo info) packet)) record = false)
    (maxAttempts : UInt8) (hattempts : maxAttempts < 255) (happenings : List (Happening b))
    (hproper : ∀ happening ∈ happenings, happening.Proper) :
    let x := Run.final (Conversation.step maxAttempts index)
      (Conversation.start sender receiver info packet now) happenings
    let fates := happenings.filterMap (Happening.fate index now)
    Mirrors packet.bytes x (Channel.run maxAttempts.toNat fates) ∧
      Reliable maxAttempts.toNat packet.bytes x fates := by
  have hsend' := sendable_sameFormat hformat hsend
  have hbytes := bytesOf_sameFormat hformat (sender.completeInfo info) packet
  rw [written_sameFormat hformat] at haddr hfresh
  have hexpects := expects_bytesOf hsend' haddr hack hid hone hkeeps hreceiver
    (by rwa [hformat.includePort] at hport) hfresh
  have hsync : Synchronised maxAttempts index now (bytesOf b (sender.completeInfo info) packet)
      (Conversation.start sender receiver info packet now) {} := by
    refine ⟨⟨rfl, rfl, rfl⟩, fun _ => keeps_dispatch hsend hslot hunused hauto hsender, fun _ => ?_,
      fun _ => ⟨Nat.zero_le _, rfl⟩⟩
    rw [hbytes]
    exact hexpects
  have hlong := hexpects.admissible.maxLength
  have hover := hexpects.admissible.overhead
  have hge := packetOverhead_ge (header (bytesOf b' (sender.completeInfo info) packet))
  have hrun := (synchronised_run (by omega) (by rwa [← hformat.packetMaxLength]) hattempts hsync
    happenings hproper).mirrors
  rw [payloadOf_bytesOf hsend] at hrun
  exact ⟨hrun, reliable_of_mirrors hrun⟩

def slotZero : Fin featured.maxPackets := ⟨0, by decide⟩

/-- `update` at some time, with a free medium. -/
def tryAt (now : UInt32) (arrives returns : Bool) : Happening featured :=
  let turn : Turn :=
    { canStart := true, response := fail, now := now, backOff := 0, resetNow := now }
  .update (fun _ => turn) arrives returns fun _ => 50

/-- The first frame is lost, the response for the second one, and another packet is sent before
the third one gets through. -/
def adversity : List (Happening featured) :=
  [tryAt 10 false true, tryAt 20 true false, .call (.send request greeting 25), tryAt 30 true true]

theorem conversation_reliable_greeting :
    let x := Run.final (Conversation.step 10 slotZero)
      (Conversation.start device44 device45 request greeting 0) adversity
    Mirrors greeting.bytes x { waits := false, attempts := 3, received := true } ∧
      Reliable 10 greeting.bytes x
        [⟨true, false, true⟩, ⟨true, true, false⟩, ⟨true, true, true⟩] := by
  have haddr : Addressed device45 (device44.completeInfo request)
      (written featured (device44.completeInfo request) greeting) := by
    constructor <;> decide
  have hslot : device44.findSlot fail = some slotZero := by decide +kernel
  have hproper : ∀ happening ∈ adversity, happening.Proper := by
    have hshort : greeting.length < 65500 := by decide
    simp [adversity, tryAt, Happening.Proper, Usage.Proper, hshort]
  exact conversation_reliable ⟨rfl, rfl, rfl, rfl, rfl⟩ device44 device45 request greeting 0
    slotZero hslot rfl rfl rfl rfl ⟨rfl, rfl⟩ (by decide)
    (sendable_of_short _ (by decide) (by decide) (by decide) (by decide) (by decide)) haddr
    (by decide) (by decide) (by decide) (fun _ => Or.inr (by decide)) (by decide) 10 (by decide)
    adversity hproper

end Pjon.Proofs.Conversation
