import Pjon.Model.Interactive
import Pjon.Spec.Admission
import Pjon.Spec.Routing
/-!
# A router that is a device

What a plain instance in the place of an attached bus hands to its receiver, and the
packets of which an interactive router takes the same view.
-/

namespace Pjon.Spec

open Pjon.Lib Pjon.Model

variable {b : Build} {r : RouterBuild} {n : Nat} {c : RoutingClass r n}

/-- The instance with the device id, the bus id and the configuration of the bus that is not
attached to a router. -/
def plain (bus : Bus b) : Bus b := { bus with router := false }

/-- The user's receiver is called as that of the plain instance is: once with the packet, or not
at all. -/
def BehavesAsDevice (object : Interactive c) (currentBus : Fin n) (delivery : Delivery)
    (surroundings : Nat → Surroundings) : Prop :=
  (object.receive currentBus delivery surroundings).state.calls =
    object.calls ++
      ((receiverCall ((plain (object.switch.bus currentBus)).receive delivery).events).map
        fun call => (call.1, { call.2 with customPointer := object.customPointer })).toList

/-- The bus id that a packet is for, 0.0.0.0 if it has none. -/
def recipientBus (s : List UInt8) : Vector UInt8 4 :=
  if has (header s) modeBit then Memory.vector (byte s) (4 + shift s) 4 else localhost

/-- The bus of the packet is that of the instance. -/
def OnBus (bus : Bus b) (s : List UInt8) : Prop :=
  if has (header s) modeBit then
    recipientBus s = if has bus.config modeBit then bus.tx.busId else localhost
  else has bus.config modeBit = false

/-- The two ways to compare a recipient agree. -/
structure Agrees (bus : Bus b) (s : List UInt8) : Prop where
  broadcast : byte s 0 = broadcast → bus.tx.id ≠ broadcast → ¬OnBus bus s
  localPacket : byte s 0 = bus.tx.id → has (header s) modeBit = false →
    (has bus.config modeBit = false ↔ bus.tx.busId = localhost)
  localBus : byte s 0 = bus.tx.id → has (header s) modeBit → has bus.config modeBit = false →
    (recipientBus s = localhost ↔ recipientBus s = bus.tx.busId)

end Pjon.Spec
