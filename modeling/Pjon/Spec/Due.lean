import Pjon.Model.Strategies
/-!
# When a packet is due

Not before its interval and the back-off are over.
-/

namespace Pjon.Spec

open Pjon.Lib Pjon.Model

variable {b : Build}

/-- What `back_off` stands for, in numbers that do not overflow. -/
def exactBackOff (attempts random : Nat) : LinkStrategy → Nat
  | .analogSampling => attempts ^ 6
  | .any strategy => exactBackOff attempts random strategy
  | .dualUDP => 1000 * attempts + random
  | .espnow => 10000 * attempts + random
  | .ethernetTCP => 10000 * attempts
  | .globalUDP .esp => 10000 * attempts + random
  | .globalUDP .windows => 1000 + random
  | .globalUDP .other => 1
  | .localFile => 1000 * attempts
  | .localUDP .esp => 10000 * attempts + random
  | .localUDP .windows => 1000 * attempts + random
  | .localUDP .other => 1
  | .mqttTranslate => 10000
  | .overSampling => attempts ^ 6
  | .softwareBitBang => attempts ^ 5
  | .throughLoRa => attempts ^ 6
  | .throughSerial => attempts ^ 5 + random

/-- How long the packet of a slot has to wait. -/
def wait (strategy : LinkStrategy) (slot : Packet) (random : UInt32) : Nat :=
  slot.timing.toNat + exactBackOff slot.attempts.toNat random.toNat strategy

/-- A slot with a packet that was not acknowledged, and has attempts left. -/
structure Pending (strategy : LinkStrategy) (slot : Packet) : Prop where
  used : slot.state ≠ 0
  unconfirmed : slot.state ≠ ack
  attempts : slot.attempts ≤ strategy.maxAttempts

/-- `4293014170`, the maximum of `send_repeatedly`. -/
def maxTiming : UInt32 := 4293014170

/-- Whenever `update` is called and whatever it does for the other slots, it sends the packet
after the wait only; `registered` and `now` are readings of a clock that does not wrap. -/
def NeverEarly (strategy : LinkStrategy) (bus : Bus b) (i : Fin b.maxPackets) (random : UInt32) :
    Prop :=
  ∀ (turns : Fin b.maxPackets → Turn) (registered now : Nat), registered ≤ now →
    (bus.slot i).registration = UInt32.ofNat registered → (turns i).now = UInt32.ofNat now →
    (turns i).backOff = strategy.backOff (bus.slot i).attempts random →
    i ∈ bus.updateSends strategy.maxAttempts turns →
    wait strategy (bus.slot i) random < now - registered

end Pjon.Spec
