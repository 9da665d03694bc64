import Pjon.Model.Sending
/-!
# Forwarding

`forward` and `forward_blocking` put the sender of a packet in the place of the
instance's own endpoint while the packet is composed, and count the hop.
-/

namespace Pjon.Model

variable {b : Build}

/-- What forwarding a packet gets from the outside: the clock, and for a blocking
transmission the maximum of attempts and what each of them meets. -/
structure Surroundings where
  now : UInt32 := 0
  maxAttempts : UInt8 := 0
  attempts : Nat → Attempt := fun _ => { canStart := true, response := ack }

namespace Bus

/-- What `forward` and `forward_blocking` do around the call that sends the packet. -/
def forwardBy (bus : Bus b) (send : Bus b → PacketInfo → Outcome b) (maxHops : UInt8)
    (info : PacketInfo) : Outcome b :=
  let originalEndPoint := bus.tx
  let bus := { bus with tx := info.tx }
  -- hops are not compiled in with `PJON_LOCAL`
  let info := if b.pjonLocal then info else { info with hops := info.hops + 1 }
  if !b.pjonLocal && decide (maxHops < info.hops) then { result := fail, bus := bus }
  else
    let sent := send bus info
    { sent with bus := { sent.bus with tx := originalEndPoint } }

def forward (bus : Bus b) (maxHops : UInt8) (info : PacketInfo) (payload : Payload)
    (now : UInt32) : Outcome b :=
  bus.forwardBy (fun bus info => bus.dispatch info payload 0 now fail) maxHops info

def forwardBlocking (bus : Bus b) (maxHops : UInt8) (info : PacketInfo) (payload : Payload)
    (maxAttempts : UInt8) (attempts : Nat → Attempt) : Outcome b :=
  bus.forwardBy
    (fun bus info => (bus.sendPacketBlocking info payload maxAttempts attempts).toOutcome)
    maxHops info

end Bus

end Pjon.Model
