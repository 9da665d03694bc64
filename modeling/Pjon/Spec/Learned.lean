import Pjon.Spec.Routing
/-!
# What routers learn

A dynamic router and a virtual bus router learn where others are from the packets that come
in.  Here is said what they should know, from what has happened: a history is the list of the
steps of a run, each with the state that it starts in.
-/

namespace Pjon.Spec

open Pjon.Lib Pjon.Model

variable {r : RouterBuild} {n : Nat}

/-! ## Remote buses -/

/-- A step of a dynamic router. -/
def learningStep (x : Router r n) (traffic : Traffic r n) : Router r n :=
  (RouterClass.dynamicRouter r n).step x traffic

/-- In this step a packet is handed over that carries the bus id of its sender, and that id and
the bus it came in on are those of `route`; no attached bus has the id. -/
def Teaches (route : Route n) (v : Router r n × Traffic r n) : Prop :=
  ∃ delivery surroundings, v.2 = .receive route.via delivery surroundings ∧
    Delivered (v.1.bus route.via) delivery.bytes ∧
    has (header delivery.bytes) modeBit ∧ has (header delivery.bytes) txInfoBit ∧
    (infoOf (v.1.bus route.via) delivery.bytes).tx.busId = route.busId ∧
    ∀ i, v.1.busId i ≠ route.busId

/-- The routing table has what was observed in it, and nothing else. -/
structure WellLearned (history : List (Router r n × Traffic r n)) (x : Router r n) : Prop where
  observed : ∀ route ∈ x.table,
    Run.Since (fun v => Teaches route v ∧ route ∉ v.1.table) (fun v => route ∈ v.1.table) history
  distinct : (x.table.map Route.busId).Nodup
  bounded : x.table.length ≤ r.tableSize

/-- The router takes `busId` for the id of a bus that it does not know yet.  With 255 attached
buses it does not look into its table; rows are counted in a `uint8_t`. -/
def Learns (x : Router r n) (busId : Vector UInt8 4) : Prop :=
  (∀ i, x.busId i ≠ busId) ∧ (n = 255 ∨ ∀ route ∈ x.table, route.busId ≠ busId) ∧
    x.table.length < min r.tableSize 255

/-- A packet that the router learns from carries the bus id of its sender, which is not in the
table. -/
def CarriesSender (x : Router r n) : Traffic r n → Prop
  | .receive currentBus delivery _ =>
    Delivered (x.bus currentBus) delivery.bytes →
      Learns x (infoOf (x.bus currentBus) delivery.bytes).tx.busId →
        has (header delivery.bytes) modeBit ∧ has (header delivery.bytes) txInfoBit ∧
          ∀ route ∈ x.table,
            route.busId ≠ (infoOf (x.bus currentBus) delivery.bytes).tx.busId
  | .update _ _ _ => True

/-! ## Devices of a virtual bus -/

/-- A step of a virtual bus router over a switch. -/
def virtualStep (v : VirtualBusRouter r n) (traffic : Traffic r n) : VirtualBusRouter r n :=
  (RouterClass.virtualBusRouter r n).step v traffic

/-- In this step a packet from the device `d` of the bus `busId` is handed over, which came in
on `i`. -/
def Heard (busId : Vector UInt8 4) (d : UInt8) (i : Fin n)
    (v : VirtualBusRouter r n × Traffic r n) : Prop :=
  ∃ delivery surroundings, v.2 = .receive i delivery surroundings ∧
    Delivered (v.1.bus i) delivery.bytes ∧
    (infoOf (v.1.bus i) delivery.bytes).tx.busId = busId ∧
    (infoOf (v.1.bus i) delivery.bytes).tx.id = d

/-- The recipient of the packet in a slot. -/
def slotRecipient (bus : Bus r.toBuild) (k : Fin r.maxPackets) : Endpoint :=
  (bus.parse (bus.slot k).content).rx

/-- The bus gives up the packet in a slot. -/
def GivesUp (bus : Bus r.toBuild) (maxAttempts : UInt8) (turns : Fin r.maxPackets → Turn)
    (k : Fin r.maxPackets) : Prop :=
  ∃ customPointer, (k, .error connectionLost k customPointer) ∈
    (bus.update maxAttempts turns).events

/-- In this step bus `i` gives up a packet for the device `d` of the bus `busId`. -/
def Lost (busId : Vector UInt8 4) (d : UInt8) (i : Fin n)
    (v : VirtualBusRouter r n × Traffic r n) : Prop :=
  ∃ maxAttempts turns k, v.2 = .update i maxAttempts turns ∧
    GivesUp (v.1.bus i) maxAttempts turns k ∧
    (slotRecipient (v.1.bus i) k).busId = busId ∧ (slotRecipient (v.1.bus i) k).id = d

/-- The device was last heard on bus `i`, and no packet for it has been lost there since. -/
def LocatedOn (busId : Vector UInt8 4) (history : List (VirtualBusRouter r n × Traffic r n))
    (d : UInt8) (i : Fin n) : Prop :=
  Run.Since (Heard busId d i) (fun v => (∀ j, ¬Heard busId d j v) ∧ ¬Lost busId d i v) history

/-- The buses with this id are the parts of the virtual bus. -/
def IsVirtualBus (v : VirtualBusRouter r n) (busId : Vector UInt8 4) : Prop :=
  ∃ i, v.virtualBus = some i ∧ v.busId i = busId

/-- A packet that is forwarded has a hop to spare, or comes from the endpoint of the bus that
forwards it. -/
def KeepsEndpoint (v : VirtualBusRouter r n) (call : Forwarded n) : Prop :=
  WithinHops r.maxHops call.info ∨ call.info.tx = (v.bus call.receiverBus).tx

instance (v : VirtualBusRouter r n) (call : Forwarded n) : Decidable (KeepsEndpoint v call) := by
  unfold KeepsEndpoint
  exact inferInstance

/-- All calls of `forward` that are made are such. -/
def WithinLimit (v : VirtualBusRouter r n) (traffic : Traffic r n) : Prop :=
  ∀ call ∈ (RouterClass.virtualBusRouter r n).forwardsOf v traffic, KeepsEndpoint v call

instance (v : VirtualBusRouter r n) (traffic : Traffic r n) :
    Decidable (WithinLimit v traffic) := by
  unfold WithinLimit
  exact inferInstance

/-- A packet that is given up is in a slot whose index fits in a `uint8_t`; if it is for a device
of the virtual bus that the router knows on this bus, the bus is a part of the virtual bus. -/
def LosesOnParts (busId : Vector UInt8 4) (v : VirtualBusRouter r n) : Traffic r n → Prop
  | .receive _ _ _ => True
  | .update currentBus maxAttempts turns =>
    ∀ k, GivesUp (v.bus currentBus) maxAttempts turns k →
      k.val < 256 ∧ ((slotRecipient (v.bus currentBus) k).busId = busId →
        v.via (slotRecipient (v.bus currentBus) k).id = some currentBus →
        v.busId currentBus = busId)

/-- `frame` has the contents and the endpoints of the packet `s`, and asks for an
acknowledgement as said. -/
structure CopyOf (b : Build) (s frame : List UInt8) (ackRequested : Bool) : Prop where
  payload : payloadOf frame = payloadOf s
  recipient : (Tools.parseHeader b (byte frame)).rx.id = (Tools.parseHeader b (byte s)).rx.id
  recipientBus :
    (Tools.parseHeader b (byte frame)).rx.busId = (Tools.parseHeader b (byte s)).rx.busId
  sender : (Tools.parseHeader b (byte frame)).tx.id = (Tools.parseHeader b (byte s)).tx.id
  senderBus :
    (Tools.parseHeader b (byte frame)).tx.busId = (Tools.parseHeader b (byte s)).tx.busId
  ack : has (header frame) ackReqBit = ackRequested

/-- A virtual bus router as it is connected: without a default gateway and address translation,
and without knowing any device. -/
structure Installed (busId : Vector UInt8 4) (v : VirtualBusRouter r n) : Prop where
  connected : Connected v.toSwitch
  noGateway : v.defaultGateway = none
  notNat : ∀ i, v.isNat i = false
  virtualBus : IsVirtualBus v busId
  unknown : ∀ d, v.via d = none

/-- The bus has taken one packet, which is a copy of `s`. -/
def TakesCopy {b : Build} (before after : Bus b) (s : List UInt8) (ackRequested : Bool) : Prop :=
  ∃ frame, queued before after = [frame] ∧ CopyOf b s frame ackRequested

/-- The packet `s`, for a device of the virtual bus, came in on `currentBus` and goes where the
device was last heard, or else to all other parts of the virtual bus.  The history ends with the
step in which it comes in. -/
structure RoutesDevice (busId : Vector UInt8 4)
    (history : List (VirtualBusRouter r n × Traffic r n)) (v : VirtualBusRouter r n)
    (currentBus : Fin n) (s : List UInt8) (routing : Routing (VirtualBusRouter r n) n) : Prop where
  known : ∀ i, LocatedOn busId history (byte s 0) i → i ≠ currentBus →
    TakesCopy (v.bus i) (routing.state.bus i) s (has (header s) ackReqBit) ∧
      (∀ j, j ≠ i → queued (v.bus j) (routing.state.bus j) = []) ∧
      (acknowledgements routing = [] ∨ acknowledgements routing = [currentBus])
  here : LocatedOn busId history (byte s 0) currentBus →
    routing.forwards = [] ∧ ∀ j, queued (v.bus j) (routing.state.bus j) = []
  unknown : (∀ i, ¬LocatedOn busId history (byte s 0) i) →
    (∀ i, v.busId i = busId → i ≠ currentBus →
      TakesCopy (v.bus i) (routing.state.bus i) s false) ∧
      (∀ j, v.busId j ≠ busId ∨ j = currentBus → queued (v.bus j) (routing.state.bus j) = []) ∧
      acknowledgements routing = []

/-- The bus has taken the broadcast `s`; all fields are as they were unless addresses are
translated. -/
def TakesBroadcast (v : VirtualBusRouter r n) (before after : Bus r.toBuild) (s : List UInt8) :
    Prop :=
  ∃ frame ∈ queued before after, payloadOf frame = payloadOf s ∧ byte frame 0 = broadcast ∧
    ((∀ i, v.isNat i = false) → CopyOf r.toBuild s frame false)

/-- What is forwarded is within the hop limit, and no packet comes from a device 0 of the virtual
bus. -/
def LeavesBroadcasts (busId : Vector UInt8 4) (v : VirtualBusRouter r n)
    (traffic : Traffic r n) : Prop :=
  WithinLimit v traffic ∧ ∀ i, ¬Heard busId broadcast i (v, traffic)

end Pjon.Spec
