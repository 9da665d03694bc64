import Pjon.Lib.Descent
import Pjon.Spec.Routes
import Pjon.Spec.Routing
import Pjon.Spec.Carried
import Mathlib.Data.Set.Defs
/-!
# Buses behind routers

Routers join segments to one network.  A packet for a bus id is to come to the segment with that
bus id over as many routers as there are on the way, once, and to go no further; the tables of the
routers are to say where the way is.
-/

namespace Pjon.Spec

open Pjon.Lib Pjon.Model

/-! ## Segments and routers -/

/-- Every bus of every router is attached to a segment.  Some of the routers are dynamic. -/
structure Internetwork (σ : Type) where
  routers : Nat
  buses : Fin routers → Nat
  segment : (i : Fin routers) → Fin (buses i) → σ
  dynamic : Fin routers → Bool := fun _ => false

/-- What `receive` leaves of a router, which is a dynamic one or not. -/
def received {r : RouterBuild} {n : Nat} (dynamic : Bool) (x : Router r n) (currentBus : Fin n)
    (delivery : Delivery) (surroundings : Nat → Surroundings) : Router r n :=
  if dynamic then (x.receiveLearning currentBus delivery surroundings).state
  else (x.receive currentBus delivery surroundings).state

namespace Internetwork

variable {σ : Type} (w : Internetwork σ)

/-- A router, and one of its buses. -/
abbrev Port := (i : Fin w.routers) × Fin (w.buses i)

def ports : List w.Port := (List.finRange w.routers).sigma fun i => List.finRange (w.buses i)

/-- The segment of a port. -/
def place (p : w.Port) : σ := w.segment p.1 p.2

/-- A frame on a segment, and the port that it comes from if a router has transmitted it. -/
structure Travelling where
  segment : σ
  frame : List UInt8
  source : Option w.Port := none

/-- What a frame meets at the ports that hear it: the router there as it is then, how the medium
hands the bytes over and what the surroundings of the calls are. -/
structure Moment (r : RouterBuild) where
  router : (p : w.Port) → Router r (w.buses p.1)
  batch : w.Port → Nat → Nat
  surroundings : w.Port → Nat → Surroundings

section Hearing

variable {w} {r : RouterBuild} (moment : w.Moment r) (t : w.Travelling) (p : w.Port)

/-- The router of a port after it has heard the frame there. -/
def after : Router r (w.buses p.1) :=
  received (w.dynamic p.1) (moment.router p) p.2 { bytes := t.frame, batch := moment.batch p }
    (moment.surroundings p)

/-- What it puts on its segments. -/
def passedOn : List w.Travelling :=
  (List.finRange (w.buses p.1)).flatMap fun k =>
    (queued ((moment.router p).bus k) ((after moment t p).bus k)).map fun frame =>
      { segment := w.segment p.1 k, frame := frame, source := some ⟨p.1, k⟩ }

/-- All ports of the segment hear a frame, but for the one that it comes from. -/
def Hears : Prop := w.place p = t.segment ∧ t.source ≠ some p

instance [DecidableEq σ] : Decidable (Hears t p) := by
  unfold Hears
  exact inferInstance

end Hearing

/-- What follows a frame: what the routers that hear it pass on. -/
def relay [DecidableEq σ] {r : RouterBuild} (moment : w.Moment r) (t : w.Travelling) :
    List w.Travelling :=
  w.ports.flatMap fun p => if Hears t p then passedOn moment t p else []

/-- What is on the segments so many steps after a frame has been sent on one of them. -/
def travels [DecidableEq σ] {r : RouterBuild} (moments : Nat → w.Moment r) (start : σ)
    (frame : List UInt8) (steps : Nat) : List w.Travelling :=
  Descent.spread (fun step => w.relay (moments step)) steps [{ segment := start, frame := frame }]

/-! ## The way to a segment -/

/-- The bus that each router passes packets on to, if it knows one. -/
abbrev Directions := (i : Fin w.routers) → Option (Fin (w.buses i))

variable {w}

/-- The router of the port passes on what that port hears. -/
def LeadsOn (via : w.Directions) (p : w.Port) : Prop := ∃ k, via p.1 = some k ∧ k ≠ p.2

/-- From each segment on the way one port leads on, a step closer to the last one, from which none
does. -/
structure LeadsTo (via : w.Directions) (way : Set σ) (home : σ) (distance : σ → Nat) : Prop where
  arrived : distance home = 0
  onward : ∀ s ∈ way, s ≠ home → ∃ p k, w.place p = s ∧ via p.1 = some k ∧ k ≠ p.2 ∧
    w.segment p.1 k ∈ way ∧ distance (w.segment p.1 k) + 1 = distance s ∧
    ∀ q, w.place q = s → LeadsOn via q → q = p
  ends : ∀ q, w.place q = home → ¬LeadsOn via q

end Internetwork

variable {r : RouterBuild} {n : Nat}

/-- A router that knows the way, or knows none, and takes what there is to be passed on. -/
structure Ready (x : Router r n) (target : Vector UInt8 4) (via : Option (Fin n)) : Prop where
  connected : Connected x.toSwitch
  routes : routesTo x target = via.toList
  rows : x.table.length < 255
  reach : ∀ i : Fin x.table.length, (x.table.get i).busId = target → n + i < 255
  gateway : x.defaultGateway = none
  noNat : ∀ i, x.isNat i = false
  noPort : ∀ i, (x.bus i).port = noPort
  room : ∀ i, HasRoom (x.bus i)

/-- A router that knows the bus id by this bus, or a dynamic one that has room to learn it. -/
def Receptive (dynamic : Bool) (x : Router r n) (busId : Vector UInt8 4) (back : Option (Fin n)) :
    Prop :=
  (routesTo x busId = back.toList ∧
      ∀ i : Fin x.table.length, (x.table.get i).busId = busId → n + i < 255) ∨
    dynamic = true ∧ routesTo x busId = [] ∧ x.table.length < r.tableSize

/-- Each router that hears one of the frames knows the bus id then by the bus it hears it on. -/
def Learnt {σ : Type} {w : Internetwork σ} (frames : Nat → List w.Travelling)
    (moments : Nat → w.Moment r) (busId : Vector UInt8 4) : Prop :=
  ∀ steps, ∀ t ∈ frames steps, ∀ p, Internetwork.Hears t p →
    routesTo (Internetwork.after (moments steps) t p) busId = [p.2]

/-- What the routers that have heard one of the frames know of a bus id then, they know later. -/
def Remembered {σ : Type} {w : Internetwork σ} (frames : Nat → List w.Travelling)
    (moments later : Nat → w.Moment r) (busId : Vector UInt8 4) : Prop :=
  ∀ steps, ∀ t ∈ frames steps, ∀ p, Internetwork.Hears t p → ∀ k step,
    routesTo ((later step).router ⟨p.1, k⟩) busId =
      routesTo (Internetwork.after (moments steps) t p) busId

/-! ## The packet -/

/-- A bus of a router, before anything has happened to it. -/
def listener (r : RouterBuild) : Bus r.toBuild := { router := true }

/-- A packet for the bus id that routers take in. -/
structure Routable (r : RouterBuild) (frame : List UInt8) (target : Vector UInt8 4) : Prop where
  admissible : Admissible (listener r) frame
  exact : frame.length = encodedLength frame
  shared : has (header frame) modeBit
  recipient : (infoOf (listener r) frame).rx.busId = target
  sender : (infoOf (listener r) frame).tx.busId ≠ target
  -- neither its id nor its port is the value that stands for none
  id : has (header frame) packetIdBit → (infoOf (listener r) frame).id ≠ 0
  port : has (header frame) portBit → (infoOf (listener r) frame).port ≠ noPort

/-- Whoever would have the packet handed over on the segment of its sender has it handed over
when this arrives, so many hops later. -/
def ArrivesAs (frame arrived : List UInt8) (hops : UInt8) : Prop :=
  ∀ {b : Build} (device : Bus b) (arrival : Delivery), b.pjonLocal = false →
    4 ≤ b.packetMaxLength → b.packetMaxLength < 65536 → arrival.bytes = arrived →
    Delivered device frame → ∃ info, .receiver (payloadOf frame) info ∈
      (device.receive arrival).events ∧
      Recovers { infoOf device frame with hops := hops } (header frame) info

/-- What becomes of a frame step by step: it comes to the segment `home`, once and with as many
hops as it took steps, and no further. -/
structure ReachesHome {σ : Type} {w : Internetwork σ} (frames : Nat → List w.Travelling)
    (frame : List UInt8) (home : σ) (distance : Nat) : Prop where
  underway : ∀ steps ≤ distance, ∃ t, frames steps = [t] ∧
    (hopCount t.frame).toNat = (hopCount frame).toNat + steps ∧
    (t.segment = home ↔ steps = distance) ∧ ArrivesAs frame t.frame (hopCount t.frame)
  ended : ∀ steps > distance, frames steps = []

/-- What goes back is on the same segments in the opposite order, and each router that takes it
from one to the next has taken the first frame from the second to the first. -/
structure Retraces {σ : Type} {w : Internetwork σ} (there back : Nat → List w.Travelling)
    (distance : Nat) : Prop where
  segments : ∀ steps ≤ distance, ∀ t ∈ there steps, ∀ t' ∈ back (distance - steps),
    t'.segment = t.segment
  routers : ∀ steps < distance, ∀ t ∈ there (steps + 1), ∀ t' ∈ back (distance - steps),
    ∃ i : Fin w.routers, t.source.map Sigma.fst = some i ∧ t'.source.map Sigma.fst = some i

end Pjon.Spec
