import Pjon.Proofs.Composed
import Pjon.Proofs.ThroughLora
/-!
# A packet and its response over the radio

A station that waits keeps the end of its frame until its wait is over, whatever others do.  So it
takes the response of the station that its packet is for, if that comes before any other packet as
long.
-/

namespace Pjon.Proofs.RadioExchange

open Pjon.Lib Pjon.Model Pjon.Model.ThroughLora Pjon.Spec
open Pjon.Proofs.Interop Pjon.Proofs.ThroughLora

/-! ## The response -/

/-- A wait ends with the first packet that is as long as a response. -/
theorem receiveResponse_eq_ack_iff {response : List UInt8}
    (hlength : response.length = responseLength) (turns : List (Option (List UInt8))) :
    receiveResponse response turns = ack ↔ firstResponse turns = some (some response) := by
  have hfail : fail ≠ ack := by decide
  have hsize : frameSize (some response) = responseLength := by
    rw [frameSize, Option.getD_some, hlength]
    rfl
  induction turns with
  | nil => exact ⟨fun h => absurd h hfail, nofun⟩
  | cons arrival turns ih =>
      rw [receiveResponse, firstResponse, List.find?_cons]
      by_cases hresponse : frameSize arrival = responseLength
      · rw [if_pos hresponse, decide_eq_true hresponse, Option.some.injEq]
        cases arrival with
        | none => exact absurd hresponse (by decide)
        | some packet =>
            rw [Option.getD_some, Option.some.injEq]
            by_cases hsame : packet = response
            · simp only [hsame, if_true]
            · simp only [hsame, if_false, iff_false]
              exact hfail
      · rw [if_neg hresponse, decide_eq_false hresponse]
        exact ih

theorem awaitResponse_eq_ack_iff (response : List UInt8) (turns : List (Option (List UInt8))) :
    awaitResponse response turns = ack ↔ receiveResponse response turns = ack := by
  have hfail : fail ≠ ack := by decide
  rw [awaitResponse]
  split_ifs with hack
  · exact iff_of_true rfl hack
  · exact iff_of_false hfail hack

/-! ## A frame at another station -/

section Heard

variable {b : Build} (bus : Bus b) {frame : List UInt8} (hlong : 5 < frame.length)
  (hshort : frame.length < 256) (hfits : frame.length ≤ b.packetMaxLength % 65536)

include hlong hshort hfits

theorem toOutcome_receive (response : List UInt8) :
    (ThroughLora.receive bus response (some frame)).toOutcome =
      bus.receive ⟨frame, fun _ => frame.length⟩ := by
  simp only [ThroughLora.receive, receiveFrame_of_fits response hlong hshort hfits]

/-- A station that owes an acknowledgement transmits the end of the frame. -/
theorem ending_mem_sent (hmin : 4 ≤ b.packetMaxLength) (hmax : b.packetMaxLength < 65536)
    (hadm : Admissible bus frame) (hdue : ackDue bus frame = true) (response : List UInt8) :
    ending frame ∈ (ThroughLora.receive bus response (some frame)).sent := by
  obtain ⟨info, -, hcaused⟩ :=
    Deliver.receive_caused bus ⟨frame, fun _ => frame.length⟩ hmin hmax hadm
  have hevent : Event.sendResponse ack ∈ (bus.receive ⟨frame, fun _ => frame.length⟩).events :=
    (Deliver.mem_events_response hcaused).mpr hdue
  simp only [ThroughLora.receive, receiveFrame_of_fits response hlong hshort hfits]
  exact List.mem_filterMap.mpr ⟨_, hevent, if_pos rfl⟩

end Heard

/-! ## The calls of others -/

section Others

variable {ι : Type} [DecidableEq ι] {builds : ι → Build}

/-- A station waits as before, and what has been transmitted is on the channel. -/
structure StillWaits (station : ι) (x y : RadioNetwork ι) : Prop where
  responses : y.responses station = x.responses station
  waiting : y.waiting station = x.waiting station
  packets : x.packets ⊆ y.packets

theorem stillWaits_step {station : ι} (x : RadioNetwork ι) (call : RadioCall builds)
    (hcaller : call.caller ≠ station) : StillWaits station x (x.step call) := by
  have hother : station ≠ call.caller := hcaller.symm
  cases call with
  | transmit caller halfDuplex arrival packet length =>
      exact ⟨Function.update_of_ne hother _ _, Function.update_of_ne hother _ _,
        List.subset_append_left _ _⟩
  | await caller turns => exact ⟨rfl, Function.update_of_ne hother _ _, List.Subset.refl _⟩
  | receive caller bus arrival =>
      exact ⟨Function.update_of_ne hother _ _, rfl, List.subset_append_left _ _⟩

theorem stillWaits_final {station : ι} (x : RadioNetwork ι) (calls : List (RadioCall builds))
    (hcallers : ∀ call ∈ calls, call.caller ≠ station) :
    StillWaits station x (Run.final RadioNetwork.step x calls) := by
  have hall : ∀ v ∈ Run.steps RadioNetwork.step x calls, v.2.caller ≠ station := by
    intro v hv
    apply hcallers
    rw [← Run.map_snd_steps RadioNetwork.step x calls]
    exact List.mem_map_of_mem hv
  have hnext (y : RadioNetwork ι) (call : RadioCall builds) (h : StillWaits station x y)
      (hcaller : call.caller ≠ station) : StillWaits station x (y.step call) := by
    obtain ⟨hresponses, hwaiting, hpackets⟩ := stillWaits_step y call hcaller
    exact ⟨hresponses.trans h.responses, hwaiting.trans h.waiting,
      fun packet hpacket => hpackets (h.packets hpacket)⟩
  exact Run.invariant_of_allowed hnext ⟨rfl, rfl, List.Subset.refl _⟩ calls hall

end Others

/-! ## The exchange -/

section Exchange

variable {ι : Type} [DecidableEq ι] {builds : ι → Build} {station other : ι} {packet : Memory}
  {length : Nat}

/-- On a free channel a packet that asks for an acknowledgement is transmitted, and the station
waits. -/
theorem transmit_free (response : List UInt8) (hlong : 5 < length) (hshort : length < 256)
    (hbroadcast : packet 0 ≠ broadcast) (hack : has (packet 1) ackReqBit = true) :
    ThroughLora.transmit true response none packet length =
      { result := none, response := ending (packet.load 0 length)
        sent := some (packet.load 0 length) } := by
  have hwaits : ¬(packet 0 = broadcast ∨ has (packet 1) ackReqBit = false ∨ true = false) := by
    rintro (h | h | h)
    · exact hbroadcast h
    · exact absurd (hack.symm.trans h) (by decide)
    · exact absurd h (by decide)
  have hfree : ¬(true && !canStart none) = true := by decide
  rw [ThroughLora.transmit, if_neg hfree, ThroughLora.sendFrame, Nat.mod_eq_of_lt hshort,
    prepareResponse_load hlong, if_neg hwaits]

/-- What a station transmits and another one answers, whatever others do meanwhile. -/
theorem exchanged_of_ackDue (hother : other ≠ station)
    (hmin : 4 ≤ (builds other).packetMaxLength) (hmax : (builds other).packetMaxLength < 65536)
    (receiver : Bus (builds other)) (hshort : length < 256)
    (hadm : Admissible receiver (packet.load 0 length))
    (hroom : length ≤ (builds other).packetMaxLength)
    (hdue : ackDue receiver (packet.load 0 length) = true) (x : RadioNetwork ι)
    (between after : List (RadioCall builds))
    (hbetween : ∀ call ∈ between, call.caller ≠ station)
    (hafter : ∀ call ∈ after, call.caller ≠ station) {heard behind : RadioNetwork ι}
    (hheard : heard =
      Run.final RadioNetwork.step x (.transmit station true none packet length :: between))
    (hbehind : behind = Run.final RadioNetwork.step heard
      (.receive other receiver (some (packet.load 0 length)) :: after)) :
    Exchanged builds station packet length heard behind := by
  have hlength := Memory.length_load packet 0 length
  have hlong : 5 < length := hlength ▸ Frames.length_of_admissible hadm
  have hfits : (packet.load 0 length).length ≤ (builds other).packetMaxLength % 65536 := by
    rw [hlength, Nat.mod_eq_of_lt hmax]
    exact hroom
  have hzero : byte (packet.load 0 length) 0 = packet 0 := Frames.byte_load packet (by omega)
  have hone : header (packet.load 0 length) = packet 1 := Frames.byte_load packet (by omega)
  have hasked : packet 0 ≠ broadcast ∧ has (packet 1) ackReqBit = true := by
    simp only [ackDue, hzero, hone, Bool.and_eq_true, bne_iff_ne] at hdue
    exact ⟨hdue.1.1.2, hdue.1.1.1⟩
  have hsending := transmit_free (x.responses station) hlong hshort hasked.1 hasked.2
  have hending : (ending (packet.load 0 length)).length = responseLength :=
    length_ending (hlength.symm ▸ hlong)
  -- the station waits until its own next call
  obtain ⟨hresponses, hwaiting, hpackets⟩ := stillWaits_final
    (x.step (.transmit station true none packet length : RadioCall builds)) between hbetween
  rw [← Run.final_cons, ← hheard] at hresponses hwaiting hpackets
  have hstill := stillWaits_final heard
    (.receive other receiver (some (packet.load 0 length)) :: after)
    (List.forall_mem_cons.mpr ⟨hother, hafter⟩)
  rw [← hbehind] at hstill
  simp only [RadioNetwork.step, hsending, Function.update_self] at hresponses hwaiting hpackets
  constructor
  · apply hpackets
    exact List.mem_append_right _ (List.mem_singleton_self _)
  · have hlater := stillWaits_final
      (heard.step (.receive other receiver (some (packet.load 0 length)) : RadioCall builds))
      after hafter
    rw [← Run.final_cons, ← hbehind] at hlater
    apply hlater.packets
    apply List.mem_append_right
    exact ending_mem_sent receiver (hlength.symm ▸ hlong) (hlength.symm ▸ hshort) hfits hmin hmax
      hadm hdue _
  · intro turns hallowed
    have hkept : behind.responses station = ending (packet.load 0 length) :=
      hstill.responses.trans hresponses
    have hwaits : behind.waiting station = some (packet, length) :=
      hstill.waiting.trans hwaiting
    rw [RadioNetwork.Confirms, hkept, awaitResponse_eq_ack_iff,
      receiveResponse_eq_ack_iff hending]
    exact ⟨fun h => h.2.2, fun h => ⟨hallowed, hwaits, h⟩⟩

variable (builds) in
/-- What a station composes and sends to another one is handed over there when it is heard, and the
station that has sent it gets `PJON_ACK` if the answer is the first response that it hears. -/
theorem exchange_completes (hother : other ≠ station)
    (hformat : SameFormat (builds station) (builds other)) (sender : Bus (builds station))
    (receiver : Bus (builds other)) (request : PacketInfo) (destination : Memory)
    (source : Payload) (hsend : Sendable (builds station) (sender.completeInfo request) source)
    (hmax : (builds station).packetMaxLength < 65536)
    (haddr : Addressed receiver (sender.completeInfo request)
      (written (builds station) (sender.completeInfo request) source))
    (hport : (builds station).includePort → receiver.port = noPort ∨
      receiver.port = (sender.completeInfo request).port)
    (hfresh : has (written (builds station) (sender.completeInfo request) source) packetIdBit →
      ∀ record ∈ receiver.recentPacketIds.toList,
        Bus.sameId (carried (sender.completeInfo request)
          (written (builds station) (sender.completeInfo request) source)) record = false)
    (hack : has (written (builds station) (sender.completeInfo request) source) ackReqBit)
    (hduplex : receiver.halfDuplex = true) (hrouter : receiver.router = false)
    (hpacket : packet = destination.apply (sender.composePacket request destination source).writes)
    (hlength : length = (sender.composePacket request destination source).result)
    (hshort : length < 256) (x : RadioNetwork ι) (between after : List (RadioCall builds))
    (hbetween : ∀ call ∈ between, call.caller ≠ station)
    (hafter : ∀ call ∈ after, call.caller ≠ station) {heard behind : RadioNetwork ι}
    (hheard : heard =
      Run.final RadioNetwork.step x (.transmit station true none packet length :: between))
    (hbehind : behind = Run.final RadioNetwork.step heard
      (.receive other receiver (some (packet.load 0 length)) :: after)) :
    Exchanged builds station packet length heard behind ∧
      (ThroughLora.receive receiver (heard.responses other)
        (some (packet.load 0 length))).result = ack ∧
      ∃ parsed, Recovers (sender.completeInfo request)
          (written (builds station) (sender.completeInfo request) source) parsed ∧
        .receiver source.bytes parsed ∈ (ThroughLora.receive receiver (heard.responses other)
          (some (packet.load 0 length))).events := by
  have hframe : packet.load 0 length =
      bytesOf (builds station) (sender.completeInfo request) source := by
    rw [hpacket, hlength]
    exact load_composePacket sender request destination hsend
  have hadm := Composed.admissible_composed hformat hsend haddr
  have hdue : ackDue receiver (bytesOf (builds station) (sender.completeInfo request) source) =
      true := by
    rw [Composed.ackDue_composed hformat hsend, hack, hduplex, hrouter]
    rfl
  have hmax' : (builds other).packetMaxLength < 65536 := hformat.packetMaxLength ▸ hmax
  -- the frame ends where its length says
  have hexact : length = encodedLength (bytesOf (builds station) (sender.completeInfo request)
      source) := by
    rw [encodedLength_bytesOf hsend, ← length_bytesOf hsend, ← hframe, Memory.length_load]
  have hroom := hadm.maxLength
  have hover := hadm.overhead
  have hge := packetOverhead_ge
    (header (bytesOf (builds station) (sender.completeInfo request) source))
  rw [← hexact] at hroom hover
  have hlong : 5 < (packet.load 0 length).length := hframe ▸ Frames.length_of_admissible hadm
  have hfits : (packet.load 0 length).length ≤ (builds other).packetMaxLength % 65536 := by
    rw [Memory.length_load, Nat.mod_eq_of_lt hmax']
    exact hroom.le
  have hsame := toOutcome_receive receiver hlong
    ((Memory.length_load packet 0 length).symm ▸ hshort) hfits (heard.responses other)
  rw [hsame, hframe]
  refine ⟨?_, Composed.receive_composed hformat hsend haddr hmax hport (Or.inr hfresh) rfl⟩
  rw [← hframe] at hadm hdue
  exact exchanged_of_ackDue hother (by omega) hmax' receiver hshort hadm hroom.le hdue x between
    after hbetween hafter hheard hbehind

end Exchange

/-! ## The greeting of device 44 -/

def greetingPacket : Memory :=
  Memory.apply (fun _ => 0) (device44.composePacket request (fun _ => 0) greeting).writes

/-- Device 45 polls its radio in vain. -/
def vainCall : RadioCall (fun _ : Bool => featured) := .receive true device45 none

def greetingOnAir : RadioNetwork Bool :=
  Run.final RadioNetwork.step {} [.transmit false true none greetingPacket 15, vainCall]

def greetingAnswered : RadioNetwork Bool :=
  Run.final RadioNetwork.step greetingOnAir
    [.receive true device45 (some (greetingPacket.load 0 15)), vainCall]

theorem exchange_completes_greeting :
    Exchanged (fun _ => featured) false greetingPacket 15 greetingOnAir greetingAnswered ∧
      (ThroughLora.receive device45 (greetingOnAir.responses true)
        (some (greetingPacket.load 0 15))).result = ack ∧
      ∃ parsed, Recovers (device44.completeInfo request)
          (written featured (device44.completeInfo request) greeting) parsed ∧
        .receiver greeting.bytes parsed ∈ (ThroughLora.receive device45
          (greetingOnAir.responses true) (some (greetingPacket.load 0 15))).events := by
  have haddr : Addressed device45 (device44.completeInfo request)
      (written featured (device44.completeInfo request) greeting) := by
    constructor <;> decide
  have hsend : Sendable featured (device44.completeInfo request) greeting :=
    sendable_of_short _ (by decide) (by decide) (by decide) (by decide) (by decide)
  have hcaller : ∀ call ∈ [vainCall], call.caller ≠ false := by
    intro call hcall
    obtain rfl := List.mem_singleton.mp hcall
    decide
  exact exchange_completes (fun _ => featured) (by decide) ⟨rfl, rfl, rfl, rfl, rfl⟩ device44
    device45 request (fun _ => 0) greeting hsend (by decide) haddr (fun _ => Or.inr (by decide))
    (fun _ => by decide) (by decide) rfl rfl rfl (by decide) (by decide) {} [vainCall] [vainCall]
    hcaller hcaller rfl rfl

end Pjon.Proofs.RadioExchange
