import Pjon.Proofs.Deliver
import Pjon.Proofs.PacketIds
import Pjon.Spec.Once
/-!
# A receiver takes a packet once

What one call of `receive` does to the records, and what it does with a frame whose
packet id is recorded.  The library of machines that recognise what they have taken
then counts the calls over a whole run.
-/

namespace Pjon.Proofs.Duplicates

open Pjon.Lib Pjon.Model Pjon.Spec Pjon.Proofs.Deliver Pjon.Proofs.Receive Pjon.Proofs.PacketIds

variable {b : Build}

/-! ## One call of `receive` -/

theorem calls_iff (outcome : Outcome b) :
    calls outcome = true ↔ ∃ payload info, Event.receiver payload info ∈ outcome.events := by
  rw [calls, List.any_eq_true]
  constructor
  · intro hany
    obtain ⟨event, hmem, hevent⟩ := hany
    cases event with
    | receiver payload info => exact ⟨payload, info, hmem⟩
    | sendFrame frame => exact absurd hevent Bool.false_ne_true
    | sendResponse response => exact absurd hevent Bool.false_ne_true
    | error code data customPointer => exact absurd hevent Bool.false_ne_true
  · intro hcalled
    obtain ⟨payload, info, hmem⟩ := hcalled
    exact ⟨_, hmem, rfl⟩

theorem calls_of_events_nil {outcome : Outcome b} (h : outcome.events = []) :
    calls outcome = false := by
  rw [calls, h, List.any_nil]

/-- The receiver's test for the record of a packet. -/
def recordTest (b : Build) (s : List UInt8) : PacketRecord → Bool :=
  Bus.sameId (Tools.parseHeader b (byte s))

theorem sameId_infoOf (bus : Bus b) (s : List UInt8) :
    Bus.sameId (infoOf bus s) = recordTest b s := rfl

section Receive

variable (bus : Bus b) (delivery : Delivery) (hmin : 4 ≤ b.packetMaxLength)
  (hmax : b.packetMaxLength < 65536)

include hmin hmax

/-- `receive` changes its own variables only. -/
theorem receive_bus :
    ∃ data info, (bus.receive delivery).bus = { bus with
      data := data
      lastPacketInfo := info
      recentPacketIds := (bus.receive delivery).bus.recentPacketIds } := by
  by_cases hadm : Admissible bus delivery.bytes
  · obtain ⟨info, -, hcaused⟩ := receive_caused bus delivery hmin hmax hadm
    exact ⟨_, info, hcaused.bus_eq⟩
  · obtain ⟨code, data, hrun, -⟩ := receive_of_not_admissible bus delivery hmin hmax hadm
    rw [hrun]
    exact ⟨data, bus.lastPacketInfo, rfl⟩

theorem calls_of_not_admissible (h : ¬Admissible bus delivery.bytes) :
    calls (bus.receive delivery) = false :=
  calls_of_events_nil (events_of_not_admissible bus delivery hmin hmax h)

theorem receive_records_of_not (h : ¬Admissible bus delivery.bytes) :
    (bus.receive delivery).bus.recentPacketIds = bus.recentPacketIds := by
  obtain ⟨code, data, hrun, -⟩ := receive_of_not_admissible bus delivery hmin hmax h
  rw [hrun]

/-- A call records at most one packet id. -/
theorem receive_pushes :
    (bus.receive delivery).bus.recentPacketIds = bus.recentPacketIds ∨
      ∃ entry, (bus.receive delivery).bus.recentPacketIds =
        Recent.push bus.recentPacketIds entry := by
  by_cases hadm : Admissible bus delivery.bytes
  · obtain ⟨info, -, hcaused⟩ := receive_caused bus delivery hmin hmax hadm
    rw [hcaused.records, recordsAfter, Bus.knownPacketId]
    split_ifs
    · exact Or.inl rfl
    · exact Or.inr ⟨_, savePacketId_eq_push _ _⟩
    · exact Or.inl rfl
  · exact Or.inl (receive_records_of_not bus delivery hmin hmax hadm)

section Own

variable (hkeeps : KeepsIds bus)
  (hbit : Admissible bus delivery.bytes → has (header delivery.bytes) packetIdBit = true)

include hkeeps hbit

omit hmin hmax in
/-- The records after an admissible frame with a packet id. -/
theorem recordsAfter_own (hadm : Admissible bus delivery.bytes) :
    recordsAfter bus delivery.bytes =
      if bus.recentPacketIds.toList.any (recordTest b delivery.bytes) then bus.recentPacketIds
      else Recent.push bus.recentPacketIds (Bus.recordOf (infoOf bus delivery.bytes)) := by
  rw [recordsAfter, hkeeps.compiled, hkeeps.notRouter, hbit hadm, Bus.knownPacketId,
    sameId_infoOf]
  simp only [Bool.not_false, Bool.and_self, if_true, savePacketId_eq_push]
  split_ifs <;> rfl

theorem calls_own (hadm : Admissible bus delivery.bytes) :
    calls (bus.receive delivery) = true ↔
      bus.recentPacketIds.toList.any (recordTest b delivery.bytes) = false ∧
        portMatches bus delivery.bytes = true := by
  obtain ⟨info, -, hcaused⟩ := receive_caused bus delivery hmin hmax hadm
  rw [calls_iff, exists_mem_events_receiver hcaused, hkeeps.notRouter, recorded_infoOf, hbit hadm,
    Bool.true_and, sameId_infoOf]
  simp only [Bool.false_eq_true, false_or]

/-- A recorded packet is not handed over, and not recorded again. -/
theorem receive_of_recorded
    (hrecorded : bus.recentPacketIds.toList.any (recordTest b delivery.bytes) = true) :
    calls (bus.receive delivery) = false ∧
      (bus.receive delivery).bus.recentPacketIds = bus.recentPacketIds := by
  by_cases hadm : Admissible bus delivery.bytes
  · obtain ⟨info, -, hcaused⟩ := receive_caused bus delivery hmin hmax hadm
    rw [hcaused.records, recordsAfter_own bus delivery hkeeps hbit hadm, if_pos hrecorded]
    refine ⟨?_, rfl⟩
    rw [Bool.eq_false_iff, ne_eq, calls_own bus delivery hmin hmax hkeeps hbit hadm, hrecorded]
    exact fun hnew => Bool.noConfusion hnew.1
  · exact ⟨calls_of_not_admissible bus delivery hmin hmax hadm,
      receive_records_of_not bus delivery hmin hmax hadm⟩

/-- A packet that is handed over is recorded. -/
theorem records_of_calls (hcalls : calls (bus.receive delivery) = true) :
    ∃ entry, recordTest b delivery.bytes entry = true ∧
      (bus.receive delivery).bus.recentPacketIds = Recent.push bus.recentPacketIds entry := by
  have hadm : Admissible bus delivery.bytes := by
    by_contra hnot
    rw [calls_of_not_admissible bus delivery hmin hmax hnot] at hcalls
    exact Bool.noConfusion hcalls
  obtain ⟨hnew, -⟩ := (calls_own bus delivery hmin hmax hkeeps hbit hadm).mp hcalls
  obtain ⟨info, -, hcaused⟩ := receive_caused bus delivery hmin hmax hadm
  refine ⟨Bus.recordOf (infoOf bus delivery.bytes), sameId_recordOf (infoOf bus delivery.bytes), ?_⟩
  rw [hcaused.records, recordsAfter_own bus delivery hkeeps hbit hadm, if_neg (by simp [hnew])]

end Own

end Receive

/-! ## Arrivals -/

/-- All frames that some receiver of this build may admit are `s`, and it has a packet id. -/
def SameFrame (b : Build) (s : List UInt8) (sent : List (List UInt8)) : Prop :=
  ∀ frame ∈ sent, ∀ bus : Bus b, Admissible bus frame →
    frame = s ∧ has (header frame) packetIdBit = true

section Arrive

variable (hmin : 4 ≤ b.packetMaxLength) (hmax : b.packetMaxLength < 65536)

include hmin hmax

theorem arrive_bus (bus : Bus b) (sent : List (List UInt8)) (arrival : Arrival) :
    ∃ data info, (arrive bus sent arrival).bus = { bus with
      data := data
      lastPacketInfo := info
      recentPacketIds := (arrive bus sent arrival).bus.recentPacketIds } := by
  cases arrival with
  | frame k batch =>
      rw [arrive]
      cases sent[k]? with
      | none => exact ⟨bus.data, bus.lastPacketInfo, rfl⟩
      | some frame => exact receive_bus bus _ hmin hmax
  | other delivery => exact receive_bus bus delivery hmin hmax

theorem keepsIds_arrive {bus : Bus b} (h : KeepsIds bus) (sent : List (List UInt8))
    (arrival : Arrival) : KeepsIds (arrive bus sent arrival).bus := by
  obtain ⟨data, info, hbus⟩ := arrive_bus hmin hmax bus sent arrival
  rw [hbus]
  exact ⟨h.compiled, h.notRouter⟩

theorem arrive_pushes (bus : Bus b) (sent : List (List UInt8)) (arrival : Arrival) :
    (arrive bus sent arrival).bus.recentPacketIds = bus.recentPacketIds ∨
      ∃ entry, (arrive bus sent arrival).bus.recentPacketIds =
        Recent.push bus.recentPacketIds entry := by
  cases arrival with
  | frame k batch =>
      rw [arrive]
      cases sent[k]? with
      | none => exact Or.inl rfl
      | some frame => exact receive_pushes bus _ hmin hmax
  | other delivery => exact receive_pushes bus delivery hmin hmax

theorem arrive_of_recorded {bus : Bus b} {s : List UInt8} {sent : List (List UInt8)}
    {arrival : Arrival} (hkeeps : KeepsIds bus) (hsame : SameFrame b s sent)
    (hown : arrival.own = true)
    (hrecorded : bus.recentPacketIds.toList.any (recordTest b s) = true) :
    calls (arrive bus sent arrival) = false ∧
      (arrive bus sent arrival).bus.recentPacketIds = bus.recentPacketIds := by
  cases arrival with
  | other delivery => exact Bool.noConfusion hown
  | frame k batch =>
      rw [arrive]
      cases hframe : sent[k]? with
      | none => exact ⟨rfl, rfl⟩
      | some frame =>
          have hmem : frame ∈ sent := List.mem_of_getElem? hframe
          simp only
          by_cases hadm : Admissible bus frame
          · obtain ⟨rfl, hbit⟩ := hsame frame hmem bus hadm
            exact receive_of_recorded bus _ hmin hmax hkeeps (fun _ => hbit) hrecorded
          · exact ⟨calls_of_not_admissible bus _ hmin hmax hadm,
              receive_records_of_not bus _ hmin hmax hadm⟩

theorem records_of_arrive {bus : Bus b} {s : List UInt8} {sent : List (List UInt8)}
    {arrival : Arrival} (hkeeps : KeepsIds bus) (hsame : SameFrame b s sent)
    (hown : arrival.own = true) (hcalls : calls (arrive bus sent arrival) = true) :
    ∃ entry, recordTest b s entry = true ∧
      (arrive bus sent arrival).bus.recentPacketIds = Recent.push bus.recentPacketIds entry := by
  cases arrival with
  | other delivery => exact Bool.noConfusion hown
  | frame k batch =>
      rw [arrive] at hcalls ⊢
      cases hframe : sent[k]? with
      | none =>
          rw [hframe, calls_of_events_nil rfl] at hcalls
          exact Bool.noConfusion hcalls
      | some frame =>
          have hmem : frame ∈ sent := List.mem_of_getElem? hframe
          rw [hframe] at hcalls
          simp only at hcalls ⊢
          have hadm : Admissible bus frame := by
            by_contra hnot
            have hsilent := calls_of_not_admissible bus { bytes := frame, batch := batch } hmin hmax
              hnot
            rw [hsilent] at hcalls
            exact Bool.noConfusion hcalls
          obtain ⟨rfl, hbit⟩ := hsame frame hmem bus hadm
          exact records_of_calls bus { bytes := frame, batch := batch } hmin hmax hkeeps
            (fun _ => hbit) hcalls

/-! ## A run of arrivals -/

/-- A receiver recognises the frames of one packet. -/
theorem recognises_arrive {s : List UInt8} {sent : List (List UInt8)}
    (hsame : SameFrame b s sent) :
    Dedup.Recognises (fun (bus : Bus b) arrival => (arrive bus sent arrival).bus) KeepsIds
      Bus.recentPacketIds Arrival.own (recordTest b s)
      fun bus arrival => calls (arrive bus sent arrival) where
  keeps _ arrival hkeeps := keepsIds_arrive hmin hmax hkeeps sent arrival
  pushes bus arrival _ := arrive_pushes hmin hmax bus sent arrival
  known _ _ hkeeps hown := arrive_of_recorded hmin hmax hkeeps hsame hown
  taken _ _ hkeeps hown := records_of_arrive hmin hmax hkeeps hsame hown

theorem callbacks_le_one {receiver : Bus b} (hkeeps : KeepsIds receiver) {s : List UInt8}
    {sent : List (List UInt8)} (hsame : SameFrame b s sent) (arrivals : List Arrival)
    (hothers : otherRecords receiver sent arrivals < b.maxRecentPacketIds) :
    callbacks receiver sent arrivals ≤ 1 :=
  (recognises_arrive hmin hmax hsame).atMostOnce hkeeps arrivals hothers

end Arrive

/-! ## Devices with packet ids -/

def numbered : Build := { defaultBuild with includePacketId := true }

def numberedDevice (id : UInt8) : Bus numbered where
  config := txInfoBit ||| ackReqBit ||| packetIdBit
  tx := { id := id }

def toDevice (id : UInt8) : PacketInfo := { rx := { id := id } }

def letter : Payload := .single 65

end Pjon.Proofs.Duplicates
