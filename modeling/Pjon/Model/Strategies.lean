import Pjon.Model.Sending
import Mathlib.Logic.Function.Iterate
/-!
# What the strategies tell `update`

`back_off` and `get_max_attempts` of the strategies with the default constants of their
`Timing.h`.  What `PJON_RANDOM` returns is an input.
-/

namespace Pjon.Model

/-- The platforms that the UDP strategies distinguish: `PJON_ESP`, `_WIN32` and the others. -/
inductive Platform where
  | esp
  | windows
  | other
  deriving DecidableEq, Repr

inductive LinkStrategy where
  | analogSampling
  | any (strategy : LinkStrategy)
  | dualUDP
  | espnow
  | ethernetTCP
  | globalUDP (platform : Platform)
  | localFile
  | localUDP (platform : Platform)
  | mqttTranslate
  | overSampling
  | softwareBitBang
  | throughLoRa
  | throughSerial
  deriving DecidableEq, Repr

namespace LinkStrategy

/-- The loop over `BACK_OFF_DEGREE` that the strategies for wires and radios share. -/
def powerBackOff (degree : Nat) (attempts : UInt8) : UInt32 :=
  (fun result => result * attempts.toUInt32)^[degree] attempts.toUInt32

/-- `get_max_attempts`. -/
def maxAttempts : LinkStrategy → UInt8
  | analogSampling => 10
  | any strategy => strategy.maxAttempts
  | dualUDP => 5
  | espnow => 10
  | ethernetTCP => 5
  | globalUDP _ => 10
  | localFile => 10
  | localUDP _ => 10
  | mqttTranslate => 0
  | overSampling => 10
  | softwareBitBang => 20
  | throughLoRa => 5
  | throughSerial => 20

/-- What `back_off` passes to `PJON_RANDOM`, which returns at most that much. -/
def randomMax : LinkStrategy → UInt32
  | any strategy => strategy.randomMax
  | dualUDP => 500
  | espnow => 10000
  | globalUDP .esp => 10000
  | globalUDP .windows => 1000
  | localUDP .esp => 10000
  | localUDP .windows => 1000
  | throughSerial => 64
  | _ => 0

/-- `back_off`. -/
def backOff (attempts : UInt8) (random : UInt32) : LinkStrategy → UInt32
  | analogSampling => powerBackOff 5 attempts
  | any strategy => strategy.backOff attempts random
  | dualUDP => 1000 * attempts.toUInt32 + random
  | espnow => 10000 * attempts.toUInt32 + random
  | ethernetTCP => 10000 * attempts.toUInt32
  | globalUDP .esp => 10000 * attempts.toUInt32 + random
  | globalUDP .windows => 1000 + random
  | globalUDP .other => 1
  | localFile => 1000 * attempts.toUInt32
  | localUDP .esp => 10000 * attempts.toUInt32 + random
  | localUDP .windows => 1000 * attempts.toUInt32 + random
  | localUDP .other => 1
  | mqttTranslate => 10000
  | overSampling => powerBackOff 5 attempts
  | softwareBitBang => powerBackOff 4 attempts
  | throughLoRa => powerBackOff 5 attempts
  | throughSerial => powerBackOff 4 attempts + random

end LinkStrategy

variable {b : Build}

namespace Bus

/-- The two tests of `update` in front of its call of `send_packet`. -/
def Sends (bus : Bus b) (i : Fin b.maxPackets) (turn : Turn) : Prop :=
  (bus.slot i).state ≠ 0 ∧
    (bus.slot i).timing + turn.backOff < turn.now - (bus.slot i).registration ∧
    (bus.slot i).state ≠ ack

instance (bus : Bus b) (i : Fin b.maxPackets) (turn : Turn) : Decidable (bus.Sends i turn) := by
  unfold Sends
  exact inferInstance

/-- The slots that `update` calls `send_packet` for. -/
def sendsFrom (bus : Bus b) (maxAttempts : UInt8) (turns : Fin b.maxPackets → Turn) :
    List (Fin b.maxPackets) → List (Fin b.maxPackets)
  | [] => []
  | i :: is =>
    let rest := (bus.updateSlot maxAttempts i (turns i)).bus.sendsFrom maxAttempts turns is
    if bus.Sends i (turns i) then i :: rest else rest

def updateSends (bus : Bus b) (maxAttempts : UInt8) (turns : Fin b.maxPackets → Turn) :
    List (Fin b.maxPackets) :=
  bus.sendsFrom maxAttempts turns (List.finRange b.maxPackets)

end Bus

end Pjon.Model
