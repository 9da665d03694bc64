import Pjon.Model.Sending
import Pjon.Model.Receive
import Pjon.Spec.Exchange
import Pjon.Lib.Run
import Mathlib.Data.List.DropRight
/-!
# The life of a packet in the send buffer

What a program does with the send buffer of an instance, and what it may rely on: where a
packet goes, how often it is sent, and how it leaves.
-/

namespace Pjon.Spec

open Pjon.Lib Pjon.Model

variable {b : Build}

/-- What the program calls; what a member reads from the outside comes with the call. -/
inductive Usage (b : Build) where
  | sendTo (rxId : UInt8) (payload : Payload) (header : UInt8) (packetId rxPort : UInt16)
      (now : UInt32)
  | send (info : PacketInfo) (payload : Payload) (now : UInt32)
  | reply (payload : Payload) (now : UInt32)
  | sendRepeatedly (info : PacketInfo) (payload : Payload) (timing now : UInt32)
  | remove (index : Nat)
  | removeAllPackets (deviceId : UInt8)
  | update (turns : Fin b.maxPackets → Turn)
  | receive (delivery : Delivery)

namespace Usage

/-- What the call dispatches: the info, the payload, the interval and the clock. -/
def dispatched (bus : Bus b) : Usage b → Option (PacketInfo × Payload × UInt32 × UInt32)
  | .sendTo rxId payload header packetId rxPort now =>
    some (bus.fillInfo rxId header packetId rxPort, payload, 0, now)
  | .send info payload now => some (info, payload, 0, now)
  | .reply payload now => some (bus.replyInfo, payload, 0, now)
  | .sendRepeatedly info payload timing now => some (info, payload, timing, now)
  | _ => none

/-- What the call does, in an instance whose strategy has `maxAttempts` as its maximum. -/
def run (maxAttempts : UInt8) (bus : Bus b) : Usage b → Outcome b
  | .sendTo rxId payload header packetId rxPort now =>
    bus.send rxId payload header packetId rxPort now
  | .send info payload now => bus.dispatch info payload 0 now fail
  | .reply payload now => bus.reply payload now
  | .sendRepeatedly info payload timing now => bus.sendRepeatedly info payload timing now
  | .remove index => { result := 0, bus := bus.removeAt index }
  | .removeAllPackets deviceId => { result := 0, bus := bus.removeAllPackets deviceId }
  | .update turns =>
    let updated := bus.update maxAttempts turns
    { result := updated.result, bus := updated.bus, events := updated.events.map Prod.snd }
  | .receive delivery => bus.receive delivery

/-- Payloads are shorter than 65500 bytes, and what is sent repeatedly has an interval. -/
def Proper : Usage b → Prop
  | .sendTo _ payload _ _ _ _ => payload.length < 65500
  | .send _ payload _ => payload.length < 65500
  | .reply payload _ => payload.length < 65500
  | .sendRepeatedly _ payload timing _ => payload.length < 65500 ∧ timing ≠ 0
  | _ => True

end Usage

/-- A state of the instance, and the call that is made in it. -/
abbrev UsageStep (b : Build) := Bus b × Usage b

def usageStep (maxAttempts : UInt8) (bus : Bus b) (usage : Usage b) : Bus b :=
  (usage.run maxAttempts bus).bus

section Slot

variable (maxAttempts : UInt8) (i : Fin b.maxPackets)

def Occupied (bus : Bus b) (i : Fin b.maxPackets) : Prop := (bus.slot i).state ≠ 0

instance (bus : Bus b) (i : Fin b.maxPackets) : Decidable (Occupied bus i) := by
  unfold Occupied
  exact inferInstance

/-- The attempt to send the packet of the slot, by what it yields. -/
def attempt (step : UsageStep b) : Option Nat :=
  match step.2 with
  | .update turns =>
    let slot := step.1.slot i
    let turn := turns i
    if slot.state = 0 ∨ turn.now - slot.registration ≤ slot.timing + turn.backOff then none
    else some (step.1.sendComposed slot.content slot.length turn.toMedium).1
  | _ => none

/-- How many packets are reported as lost with the index of the slot. -/
def lossesReported (step : UsageStep b) : Nat :=
  (step.2.run maxAttempts step.1).events.countP fun
    | .error code data _ => code == connectionLost && data == i.val
    | _ => false

/-- The last steps that found the slot occupied: those of the packet that is in it, or that has
left it in the last of them. -/
def life (history : List (UsageStep b)) : List (UsageStep b) :=
  history.rtakeWhile fun step => decide (Occupied step.1 i)

def outcomes (history : List (UsageStep b)) : List Nat := (life i history).filterMap (attempt i)

def reports (history : List (UsageStep b)) : Nat :=
  ((life i history).map (lossesReported maxAttempts i)).sum

/-- No attempt has been acknowledged yet, and there may be another one. -/
structure Waiting (history : List (UsageStep b)) : Prop where
  outcomes : ack ∉ outcomes i history
  length : (Spec.outcomes i history).length ≤ maxAttempts.toNat
  reports : reports maxAttempts i history = 0

/-- The last attempt was acknowledged, and nothing was reported. -/
def Acknowledged (history : List (UsageStep b)) : Prop :=
  ∃ before, outcomes i history = before ++ [ack] ∧ ack ∉ before ∧
    before.length ≤ maxAttempts.toNat ∧ reports maxAttempts i history = 0

/-- All attempts were made and none was acknowledged, and that was reported once. -/
structure GivenUp (history : List (UsageStep b)) : Prop where
  outcomes : ack ∉ outcomes i history
  length : (Spec.outcomes i history).length = maxAttempts.toNat + 1
  reports : reports maxAttempts i history = 1

/-- What a one-shot packet has come to when the last call of the history frees its slot. -/
def Ends (history : List (UsageStep b)) : Usage b → Prop
  | .update _ => Acknowledged maxAttempts i history ∨ GivenUp maxAttempts i history
  | .remove _ | .removeAllPackets _ => Waiting maxAttempts i history
  | _ => False

end Slot

/-- The packet is not longer than the instance composes. -/
def Composable (bus : Bus b) (info : PacketInfo) (payload : Payload) : Prop :=
  payload.length +
    packetOverhead (Tools.measure b (bus.completeInfo info) payload.length).header <
      b.packetMaxLength

/-- The slot has in it what `compose_packet` makes of the packet. -/
def HoldsComposed (bus : Bus b) (i : Fin b.maxPackets) (info : PacketInfo) (payload : Payload)
    (next : Bus b) : Prop :=
  (next.slot i).content = (bus.slot i).content.apply
      (bus.composePacket info (bus.slot i).content payload).writes ∧
    (next.slot i).length = (bus.composePacket info (bus.slot i).content payload).result

/-- What a packet that is dispatched meets: a free slot, which then holds it, or no change at
all. -/
def Dispatches (bus : Bus b) (info : PacketInfo) (payload : Payload) (timing : UInt32)
    (outcome : Outcome b) : Prop :=
  (∃ i, ¬Occupied bus i ∧ Occupied outcome.bus i ∧ HoldsComposed bus i info payload outcome.bus ∧
      (outcome.bus.slot i).timing = timing ∧ outcome.result = i ∧
      ∀ k, k ≠ i → outcome.bus.slot k = bus.slot k) ∨
    (outcome.result = fail ∧ (∀ k, outcome.bus.slot k = bus.slot k) ∧
      ((∀ k, Occupied bus k) ∨ ¬Composable bus info payload))

/-- What the call after `history` does to the send buffer. -/
structure LifeCycle (maxAttempts : UInt8) (history : List (UsageStep b)) (bus : Bus b)
    (usage : Usage b) : Prop where
  dispatches : ∀ info payload timing now,
    usage.dispatched bus = some (info, payload, timing, now) →
      Dispatches bus info payload timing (usage.run maxAttempts bus)
  keeps : ∀ i, Occupied bus i → Occupied (usage.run maxAttempts bus).bus i →
    ((usage.run maxAttempts bus).bus.slot i).content = (bus.slot i).content ∧
      ((usage.run maxAttempts bus).bus.slot i).length = (bus.slot i).length
  oneShot : ∀ i, Occupied bus i → (bus.slot i).timing = 0 →
    if Occupied (usage.run maxAttempts bus).bus i then
      Waiting maxAttempts i (history ++ [(bus, usage)])
    else Ends maxAttempts i (history ++ [(bus, usage)]) usage
  repeated : ∀ turns i, usage = .update turns → Occupied bus i → (bus.slot i).timing ≠ 0 →
    Occupied (usage.run maxAttempts bus).bus i
  transmits : ∀ turns i, usage = .update turns →
    framesOf i (bus.update maxAttempts turns).events =
      if (attempt i (bus, usage)).isSome ∧ (bus.halfDuplex = true → (turns i).canStart = true) then
        [(bus.slot i).content.load 0 (bus.slot i).length]
      else []
  counts : ∀ turns, usage = .update turns → (usage.run maxAttempts bus).result =
    (List.finRange b.maxPackets).countP fun i => decide (Occupied (usage.run maxAttempts bus).bus i)

/-- The instance has no packets, deletes automatically what is done with, and has not counted an
attempt. -/
structure Blank (bus : Bus b) : Prop where
  autoDelete : bus.autoDelete = true
  free : ∀ i, ¬Occupied bus i
  attempts : ∀ i, (bus.slot i).attempts = 0

end Pjon.Spec
