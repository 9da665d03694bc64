import Pjon.Model.Datagrams
import Pjon.Lib.Registry
import Pjon.Lib.Run
import Mathlib.Data.Finset.Card
/-!
# A table that follows the devices

What the node table of ESPNOW is for: a frame for a device goes to the MAC address that the device
was heard from last.
-/

namespace Pjon.Spec

open Pjon.Lib Pjon.Model Pjon.Model.ESPNOW

abbrev Mac := Vector UInt8 6

/-- A packet that the queue yields to a call of `receive_frame`. -/
structure PacketReception where
  data : Memory := fun _ => 0
  packet : Packet Mac
  maxLength : Nat

namespace PacketReception

variable (settings : Settings) (reception : PacketReception)

/-- The frame in the packet. -/
def frame : List UInt8 := (reception.packet.receiveFrame reception.maxLength).getD []

/-- The sender that the frame names. -/
def senderId : UInt8 :=
  (Tools.parseTx settings.build (reception.data.store 0 reception.frame)).id

/-- A frame of more than four bytes from a device. -/
structure FromDevice : Prop where
  received : (reception.packet.receiveFrame reception.maxLength).isSome
  long : 4 < reception.frame.length
  positive : reception.senderId settings ≠ 0
  assigned : reception.senderId settings ≠ notAssigned

def receive (strategy : Strategy Mac) : Strategy Mac :=
  (strategy.receiveFrame settings reception.data (some reception.packet)
    reception.maxLength).strategy

end PacketReception

/-- The devices that are heard, each with the MAC address that it sends from. -/
def heardDevices (settings : Settings) (receptions : List PacketReception) : List (UInt8 × Mac) :=
  receptions.map fun reception => (reception.senderId settings, reception.packet.mac)

/-- The strategy behind receptions. -/
def strategyBehind (settings : Settings) (receptions : List PacketReception) : Strategy Mac :=
  Run.final (fun strategy reception => reception.receive settings strategy) {} receptions

/-- The six bytes behind the meta-data of a frame, where its MAC addresses start if it has any. -/
def macField (settings : Settings) (data : Memory) : Mac :=
  data.vector (Tools.macIndex settings.build (data 1)) 6

/-- The frame names no device by its MAC address: the one that it has is all zeros, or it has none,
and goes on with six bytes out of `payloads`. -/
def NamesNone (settings : Settings) (payloads : Mac → Prop) (data : Memory) : Prop :=
  if has (data 1) macBit then macField settings data = noMac
  else payloads (macField settings data)

/-- There is one entry for each device that was heard, and a frame for it that names no MAC address
goes to the one that it was heard from last. -/
structure FollowsDevices (settings : Settings) (payloads : Mac → Prop) (strategy : Strategy Mac)
    (history : List (UInt8 × Mac)) : Prop where
  distinct : (strategy.nodes.map Node.id).Nodup
  devices : ∀ id, id ∈ strategy.nodes.map Node.id ↔ id ∈ history.map Prod.fst
  reached : ∀ id ∈ history.map Prod.fst, ∀ data length, 0 < length → data 0 = id →
    NamesNone settings payloads data →
      ((strategy.sendFrame settings data length).map fun sending => sending.destination) =
        some (Registry.last history id)

/-- Each device keeps its MAC address.  The first one has it to itself, and it is not all zeros,
if there are others. -/
structure SteadyDevices (history : List (UInt8 × Mac)) : Prop where
  keeps : ∀ e ∈ history, ∀ e' ∈ history, e.1 = e'.1 → e.2 = e'.2
  first : ∀ e₀ ∈ history.head?, ∀ e ∈ history, e.1 ≠ e₀.1 → e.2 ≠ e₀.2 ∧ e₀.2 ≠ noMac

/-- Where MAC addresses are looked for, no payload begins with that of the first device, if there
are others. -/
def PayloadsApart (settings : Settings) (payloads : Mac → Prop) (history : List (UInt8 × Mac)) :
    Prop :=
  settings.build.includeMac = true →
    ∀ e₀ ∈ history.head?, ∀ e ∈ history, e.1 ≠ e₀.1 → ¬payloads e₀.2

end Pjon.Spec
