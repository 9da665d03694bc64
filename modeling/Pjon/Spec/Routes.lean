import Pjon.Model.Router
import Pjon.Lib.Cursor
/-!
# What a router should find

For a bus id there are the attached buses with that id and the buses that a row of the table
names for it.  The search of a router has to come to each of them once, and to its end.
-/

namespace Pjon.Spec

open Pjon.Lib Pjon.Model

variable {r : RouterBuild} {n : Nat}

/-- The attached buses in the order of their indices, then those of the table row by row. -/
def routesTo (x : Router r n) (busId : Vector UInt8 4) : List (Fin n) :=
  ((List.finRange n).filter fun i => busId == x.busId i) ++
    (x.table.filter fun route => busId == route.busId).map Route.via

section Loop

variable {σ : Type} (find : σ → UInt8 → Option (Fin n) × UInt8) (gateway : Option (Fin n))
  (send : Nat → Option (Fin n) → Bool → σ → Routing σ n)

/-- What one turn of the loop of `dynamic_receiver_function` leaves. -/
def searchTurn (turn : Nat) (startSearch : UInt8) (routing : Routing σ n) : Routing σ n :=
  routing.andThen fun state ackSent =>
    send turn ((find routing.state startSearch).1.or gateway) ackSent state

/-- The loop comes to an end: some turn moves the cursor to `PJON_NOT_ASSIGNED`. -/
inductive LoopEnds : Nat → UInt8 → Routing σ n → Prop
  | last {turn startSearch routing} (h : (find routing.state startSearch).2 = notAssigned) :
    LoopEnds turn startSearch routing
  | more {turn startSearch routing}
    (h : LoopEnds (turn + 1) (find routing.state startSearch).2
      (searchTurn find gateway send turn startSearch routing)) :
    LoopEnds turn startSearch routing

end Loop

/-- The search for a bus id comes to an end, whatever packet it is made for, and its successive
results are the routes to that id, then `PJON_NOT_ASSIGNED`. -/
structure SearchesRight (x : Router r n) (busId : Vector UInt8 4) : Prop where
  ends : ∀ (currentBus : Fin n) (payload : Payload) (info : PacketInfo)
    (surroundings : Nat → Surroundings), targetOf info = busId →
    LoopEnds (fun state : Router r n => state.findBusWithId busId) x.defaultGateway
      (fun turn receiverBus => forwardPacket
        (Router.sendPacket payload currentBus info (surroundings turn)) receiverBus currentBus)
      0 0 { state := x }
  finds : Cursor.Enumerates (x.findBusWithId busId) 0 (routesTo x busId)

end Pjon.Spec
