import Pjon.Spec.Routing
/-!
# What an acknowledgement promises

A sender whose packet is acknowledged does not send it again: the switch that acknowledges has to
have the packet in one of its send buffers.
-/

namespace Pjon.Spec

open Pjon.Lib Pjon.Model

variable {r : RouterBuild} {n : Nat}

/-- The length of a packet that a bus forwards, as `compose_packet` computes it. -/
def forwardedLength (bus : Bus r.toBuild) (info : PacketInfo) (payload : Payload) : Nat :=
  (Tools.measure r.toBuild
    (Bus.completeInfo { bus with tx := info.tx } { info with hops := info.hops + 1 })
    payload.length).newLength

/-- A bus has a slot for the packet, which fits in it and is allowed one more hop. -/
structure TakesOver (bus : Bus r.toBuild) (info : PacketInfo) (payload : Payload) : Prop where
  hops : WithinHops r.maxHops info
  room : HasRoom bus
  composed : 0 < forwardedLength bus info payload
  fits : forwardedLength bus info payload < r.packetMaxLength

/-- The switch forwards a packet for the bus id `target` to bus `i`; the search that ends with the
last of 255 buses does not come to the default gateway. -/
def ForwardsTo (s : Switch r n) (currentBus : Fin n) (target : Vector UInt8 4) (i : Fin n) :
    Prop :=
  i ≠ currentBus ∧ (s.busId i = target ∨
    s.defaultGateway = some i ∧ ¬∃ last : Fin n, last.val = 254 ∧ s.busId last = target)

instance (s : Switch r n) (currentBus : Fin n) (target : Vector UInt8 4) (i : Fin n) :
    Decidable (ForwardsTo s currentBus target i) := by
  unfold ForwardsTo
  exact inferInstance

/-- The packet is acknowledged where it came from, once, if a call of `forward` has returned the
index of a slot, and is not acknowledged otherwise. -/
def KeepsPromise {σ : Type} (currentBus : Fin n) (routing : Routing σ n) : Prop :=
  acknowledgements routing =
    if ∃ call ∈ routing.forwards, call.result ≠ fail then [currentBus] else []

instance {σ : Type} (currentBus : Fin n) (routing : Routing σ n) :
    Decidable (KeepsPromise currentBus routing) := by
  unfold KeepsPromise
  exact inferInstance

end Pjon.Spec
