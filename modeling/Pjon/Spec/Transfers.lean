import Pjon.Model.EthernetLink
import Pjon.Lib.Run
import Pjon.Lib.Scan
/-!
# Packets over a stream

What a link is for: the packets that are written at one end of a stream are delivered at the
other, each once and in order.
-/

namespace Pjon.Spec

open Pjon.Lib Pjon.Model Pjon.Model.EthernetTCP

structure Parcel where
  id : UInt8
  contents : Payload
  deriving DecidableEq, Repr

def etcpPattern : List UInt8 := Word.bytes (Word.swap etcpHeader)

/-- A call of `send` whose writes are all taken writes these bytes. -/
def Sends (settings : Settings) (parcel : Parcel) (bytes : List UInt8) : Prop :=
  ∃ (link : Link) (client : TCPHelperClient) (outgoing : Outgoing), outgoing.waiting = false ∧
    (∀ k, 65548 ≤ outgoing.takes k) ∧
    ((link.send settings client outgoing parcel.id parcel.contents).map
      fun sending => sending.written) = some bytes

/-- How many bytes the rounds of a read have in all. -/
def offered : List Round → Nat
  | [] => 0
  | .available count :: rounds => count + offered rounds
  | .lost :: rounds => offered rounds

/-- A read gets all the bytes that it asks for.  Those that are there beyond them stay in the
stream. -/
structure Prompt (client : TCPHelperClient) : Prop where
  connected : client.connected = true
  kept : ∀ k, Round.lost ∉ client.rounds k
  timely : ∀ k, 65535 ≤ offered (client.rounds k)

variable (settings : Settings) (incoming : Bool)

/-- What calls of `receive` for one client deliver. -/
def deliveries (link : Link) (client : TCPHelperClient) (calls : List Call) :
    List (UInt8 × List UInt8) :=
  (Run.steps (fun (state : Link × TCPHelperClient) call =>
      let reception := state.1.receive settings incoming state.2 call
      (reception.link, reception.client)) (link, client) calls).filterMap
    fun step => (step.1.1.receive settings incoming step.1.2 step.2).delivered

/-- The parcels that are sent behind some other bytes are delivered. -/
def Transfers (garbage : List UInt8) (parcels : List Parcel) : Prop :=
  ∃ frames, List.Forall₂ (Sends settings) parcels frames ∧
    ∀ (link : Link) (client : TCPHelperClient) (calls : List Call), link.receiveAndDiscard = false →
      Prompt client → client.incoming = garbage ++ frames.flatten →
      calls.length = parcels.length → (∀ call ∈ calls, call.available ≠ 0) →
        deliveries settings incoming link client calls =
          parcels.map fun parcel => (parcel.id, parcel.contents.bytes)

end Pjon.Spec
