import Pjon.Model.Datagrams
import Pjon.Spec.Admission
/-!
# What may be read of a datagram

Nothing but the bytes that were received.
-/

namespace Pjon.Spec

open Pjon.Lib Pjon.Model

variable {α : Type}

/-- A call of `receive_frame` or `receive_response` on one of the strategies that parse what they
receive, from any state of it. -/
inductive DatagramCall (α : Type) where
  | dualUDP (host : DualUDP.Host) (strategy : DualUDP.Strategy α) (data : Memory)
      (arrival : Option (DualUDP.Datagram α)) (maxLength : Nat)
  | dualUDPResponse (host : DualUDP.Host) (strategy : DualUDP.Strategy α)
      (polls : List (DualUDP.Listening α))
  | globalUDP (settings : GlobalUDP.Settings) (strategy : GlobalUDP.Strategy α) (data : Memory)
      (arrival : Option (DualUDP.Datagram α)) (maxLength : Nat)
  | globalUDPResponse (settings : GlobalUDP.Settings) (strategy : GlobalUDP.Strategy α)
      (polls : List (DualUDP.Listening α))
  | espnow (settings : ESPNOW.Settings) (strategy : ESPNOW.Strategy α) (data : Memory)
      (arrival : Option (ESPNOW.Packet α)) (maxLength : Nat)
  | espnowResponse (settings : ESPNOW.Settings) (strategy : ESPNOW.Strategy α)
      (polls : List (Memory × Option (ESPNOW.Packet α)))

/-- A frame as long as `parse_header` expects. -/
def HoldsMetaData (b : Build) (s : List UInt8) : Prop :=
  Tools.parsedLength b (header s) ≤ s.length

instance (b : Build) (s : List UInt8) : Decidable (HoldsMetaData b s) := by
  unfold HoldsMetaData
  exact inferInstance

namespace DatagramCall

def build : DatagramCall α → Build
  | dualUDP host _ _ _ _ => host.build
  | dualUDPResponse host _ _ => host.build
  | globalUDP settings _ _ _ _ => settings.build
  | globalUDPResponse settings _ _ => settings.build
  | espnow settings _ _ _ _ => settings.build
  | espnowResponse settings _ _ => settings.build

/-- The calls of `parse_header` that are made. -/
def parsings [DecidableEq α] : DatagramCall α → List Parsing
  | dualUDP host _ data arrival maxLength =>
    DualUDP.Strategy.parsings host data arrival maxLength
  | dualUDPResponse host strategy polls => strategy.responseParsings host polls
  | globalUDP settings strategy data arrival maxLength =>
    (strategy.receiveFrame settings data arrival maxLength).parsings
  | globalUDPResponse settings strategy polls => (strategy.receiveResponse settings polls).parsings
  | espnow settings strategy data arrival maxLength =>
    (strategy.receiveFrame settings data arrival maxLength).parsings
  | espnowResponse settings strategy polls => (strategy.receiveResponse settings polls).parsings

/-- Every byte that is read was received. -/
def ReadsInside [DecidableEq α] (call : DatagramCall α) : Prop :=
  ∀ parsing ∈ call.parsings,
    ∀ i ∈ Tools.parseReads call.build (parsing.packet 1), i < parsing.received

/-! ## The frames that are parsed -/

/-- The frame in a datagram, if the helper takes it. -/
def taken (helper : DualUDP.UDPHelper) (arrival : Option (DualUDP.Datagram α)) (maxLength : Nat) :
    Option (List UInt8) :=
  (arrival.map fun datagram => datagram.bytes).filter fun bytes =>
    helper.takes maxLength bytes.length

/-- The response that ends `receive_response` of DualUDP. -/
def confirms (lastOutSenderId : UInt8) (frame : Option (List UInt8)) : Bool :=
  match frame with
  | some [receiverId, _, code] => receiverId == lastOutSenderId && code.toNat == ack
  | _ => false

def isAck (frame : Option (List UInt8)) : Bool := frame == some [UInt8.ofNat ack]

/-- The frames that a call receives before the response that it waits for. -/
def frames : DatagramCall α → List (List UInt8)
  | dualUDP host _ _ arrival maxLength => (taken host.helper arrival maxLength).toList
  | dualUDPResponse host strategy polls =>
    ((polls.map fun poll => taken host.helper poll.arrival 10).takeWhile
      fun frame => !confirms strategy.lastOutSenderId frame).reduceOption
  | globalUDP settings _ _ arrival maxLength => (taken settings.helper arrival maxLength).toList
  | globalUDPResponse settings _ polls =>
    ((polls.map fun poll => taken settings.helper poll.arrival 8).takeWhile
      fun frame => !isAck frame).reduceOption
  | espnow _ _ _ arrival maxLength =>
    (arrival.bind fun packet => packet.receiveFrame maxLength).toList
  | espnowResponse settings _ polls =>
    ((polls.map fun poll => poll.2.bind fun packet =>
        packet.receiveFrame (settings.build.packetMaxLength % 65536)).takeWhile
      fun frame => !isAck frame).reduceOption

/-- DualUDP looks for the sender in every frame, the others only when they register it. -/
def registers : DatagramCall α → Bool
  | dualUDP _ _ _ _ _ => true
  | dualUDPResponse _ _ _ => true
  | globalUDP _ strategy _ _ _ => strategy.autoRegistration
  | globalUDPResponse _ strategy _ => strategy.autoRegistration
  | espnow _ strategy _ _ _ => strategy.autoRegistration
  | espnowResponse _ strategy _ => strategy.autoRegistration

/-- Each frame of more than four bytes that a call receives is as long as its header says. -/
def Complete (call : DatagramCall α) : Prop :=
  call.registers = true → ∀ s ∈ call.frames, 4 < s.length → HoldsMetaData call.build s

end DatagramCall

end Pjon.Spec
