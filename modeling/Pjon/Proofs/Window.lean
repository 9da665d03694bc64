import Pjon.Spec.Window
import Pjon.Lib.Window
import Pjon.Proofs.PacketIds
/-!
# The recent packet ids are a window

Two keys are the same exactly when `known_packet_id` takes the packets for the same, and the
records follow a window of keys call by call.
-/

namespace Pjon.Proofs.Window

open Pjon.Lib Pjon.Model Pjon.Spec Pjon.Proofs.PacketIds

variable {b : Build}

/-- `save_packet_id` moves the records up with its loop, from the last one on. -/
theorem savePacketId_eq_shift (records : Vector PacketRecord b.maxRecentPacketIds)
    (info : PacketInfo) :
    Bus.savePacketId records info =
      (Recent.shift records (b.maxRecentPacketIds - 1) (Nat.sub_lt b.recent_pos Nat.one_pos)).set 0
        (Bus.recordOf info) b.recent_pos := by
  rw [savePacketId_eq_push, Recent.push_eq_shift records _ b.recent_pos]

/-! ## Keys -/

@[simp] theorem recordKey_recordOf (info : PacketInfo) :
    recordKey (Bus.recordOf info) = packetKey info := rfl

theorem sharedBusId_eq_iff (header header' : UInt8) (busId busId' : Vector UInt8 4) :
    sharedBusId header busId = sharedBusId header' busId' ↔
      (has header modeBit = true ∧ has header' modeBit = true ∧ busId = busId') ∨
        (has header modeBit = false ∧ has header' modeBit = false) := by
  unfold sharedBusId
  cases has header modeBit <;> cases has header' modeBit <;> simp

theorem sameId_iff (info : PacketInfo) (record : PacketRecord) :
    Bus.sameId info record = true ↔ packetKey info = recordKey record := by
  rw [packetKey, recordKey, PacketKey.mk.injEq, sharedBusId_eq_iff, Bus.sameId]
  simp only [Bool.and_eq_true, Bool.or_eq_true, beq_iff_eq, Bool.not_eq_eq_eq_not, Bool.not_true,
    and_assoc]

theorem any_sameId_iff (records : Vector PacketRecord b.maxRecentPacketIds) (info : PacketInfo) :
    records.toList.any (Bus.sameId info) = true ↔
      packetKey info ∈ records.toList.map recordKey := by
  rw [List.any_eq_true, List.mem_map]
  constructor
  · rintro ⟨record, hmem, hsame⟩
    exact ⟨record, hmem, ((sameId_iff info record).mp hsame).symm⟩
  · rintro ⟨record, hmem, hkey⟩
    exact ⟨record, hmem, (sameId_iff info record).mpr hkey.symm⟩

/-! ## The records and the window -/

/-- The keys of the records are those of the window, and behind them nothing was stored. -/
def Shows (records : Vector PacketRecord b.maxRecentPacketIds) (window : List PacketKey) : Prop :=
  records.toList.map recordKey =
    window ++ List.replicate (b.maxRecentPacketIds - window.length) (recordKey {})

theorem shows_zeroed : Shows (zeroedRecords b) [] := by
  rw [Shows, zeroedRecords, Vector.toList_replicate, List.map_replicate, List.nil_append,
    List.length_nil, Nat.sub_zero]

/-- What was never stored has the id 0. -/
theorem Shows.known_iff {records : Vector PacketRecord b.maxRecentPacketIds}
    {window : List PacketKey} (h : Shows records window) {info : PacketInfo} (hid : info.id ≠ 0) :
    (Bus.knownPacketId records info).1 = true ↔ packetKey info ∈ window := by
  have hnever : ∀ count, packetKey info ∉ List.replicate count (recordKey {}) := by
    intro count hmem
    exact hid (congrArg PacketKey.id (List.eq_of_mem_replicate hmem))
  have hany : records.toList.any (Bus.sameId info) = true ↔ packetKey info ∈ window := by
    rw [any_sameId_iff, h, List.mem_append, or_iff_left (hnever _)]
  rw [← hany, Bus.knownPacketId]
  split_ifs with hknown <;> simp [hknown]

/-- One call moves the records and the window alike. -/
theorem Shows.call {records : Vector PacketRecord b.maxRecentPacketIds} {window : List PacketKey}
    (h : Shows records window) (hlength : window.length ≤ b.maxRecentPacketIds)
    {info : PacketInfo} (hid : info.id ≠ 0) :
    Shows (Bus.knownPacketId records info).2
      (Window.slide b.maxRecentPacketIds window (packetKey info)) := by
  have hknown := h.known_iff hid
  rw [Window.slide]
  rw [Bus.knownPacketId] at hknown ⊢
  split_ifs at hknown ⊢ with hany hmem hmem
  · exact h
  · exact absurd (hknown.mp rfl) hmem
  · exact (hknown.mpr hmem).elim
  · rw [Shows, savePacketId_eq_push, Recent.toList_push, List.map_take, List.map_cons,
      recordKey_recordOf, h, ← List.cons_append, List.take_append, List.take_replicate,
      List.length_take, List.length_cons]
    congr 2
    omega

/-! ## Runs of calls -/

/-- The keys that are new to the window are those of the calls that return `false`. -/
theorem news_eq {infos : List PacketInfo} (hids : ∀ info ∈ infos, info.id ≠ 0)
    {records : Vector PacketRecord b.maxRecentPacketIds} {window : List PacketKey}
    (h : Shows records window) (hlength : window.length ≤ b.maxRecentPacketIds) :
    ((Run.steps (fun records info => (Bus.knownPacketId records info).2) records infos).filter
        fun call => !(Bus.knownPacketId call.1 call.2).1).map (fun call => packetKey call.2) =
      Window.news b.maxRecentPacketIds window (infos.map packetKey) := by
  induction infos generalizing records window with
  | nil => rfl
  | cons info infos ih =>
      obtain ⟨hid, hrest⟩ := List.forall_mem_cons.mp hids
      have hknown := h.known_iff hid
      have hlater := ih hrest (h.call hlength hid) (Window.length_slide hlength _)
      rw [Run.steps_cons, List.map_cons]
      by_cases hmem : packetKey info ∈ window
      · rw [List.filter_cons_of_neg (by simp [hknown.mpr hmem]), hlater,
          Window.news_cons_of_mem _ hmem, Window.slide, if_pos hmem]
      · have hfalse : (Bus.knownPacketId records info).1 = false :=
          Bool.eq_false_iff.mpr fun htrue => hmem (hknown.mp htrue)
        rw [List.filter_cons_of_pos (by simp [hfalse]), List.map_cons, hlater,
          Window.news_cons_of_not_mem _ hmem, Window.slide, if_neg hmem]

theorem shows_final {infos : List PacketInfo} (hids : ∀ info ∈ infos, info.id ≠ 0)
    {records : Vector PacketRecord b.maxRecentPacketIds} {window : List PacketKey}
    (h : Shows records window) (hlength : window.length ≤ b.maxRecentPacketIds) :
    Shows (Run.final (fun records info => (Bus.knownPacketId records info).2) records infos)
      (Run.final (Window.slide b.maxRecentPacketIds) window (infos.map packetKey)) := by
  induction infos generalizing records window with
  | nil => exact h
  | cons info infos ih =>
      obtain ⟨hid, hrest⟩ := List.forall_mem_cons.mp hids
      rw [List.map_cons, Run.final_cons, Run.final_cons]
      exact ih hrest (h.call hlength hid) (Window.length_slide hlength _)

/-- The last keys that were not known are the window. -/
theorem lastUnknown_eq {infos : List PacketInfo} (hids : ∀ info ∈ infos, info.id ≠ 0) :
    lastUnknown b infos =
      Run.final (Window.slide b.maxRecentPacketIds) [] (infos.map packetKey) := by
  rw [Window.final_slide (Nat.zero_le _), lastUnknown, knownCalls,
    news_eq hids shows_zeroed (Nat.zero_le _), List.append_nil]

/-- The records are a window of the last keys that were not known. -/
theorem recordsBehind_slidingWindow (b : Build) (infos : List PacketInfo)
    (hids : ∀ info ∈ infos, info.id ≠ 0) : SlidingWindow b infos := by
  have hshows : Shows (recordsBehind b infos) (lastUnknown b infos) := by
    rw [lastUnknown_eq hids]
    exact shows_final hids shows_zeroed (Nat.zero_le _)
  refine { holds := hshows, nodup := ?_, answers := ?_ }
  · rw [lastUnknown_eq hids]
    exact Window.nodup_final List.nodup_nil _
  · intro info hid
    exact hshows.known_iff hid

/-- A packet of a local sender, one with the same id on a shared bus, and the first one again. -/
theorem recordsBehind_slidingWindow_thrice :
    SlidingWindow defaultBuild
      [{ id := 7 }, { id := 7, header := modeBit }, { id := 7 }] :=
  recordsBehind_slidingWindow defaultBuild
    [{ id := 7 }, { id := 7, header := modeBit }, { id := 7 }] (by decide)

end Pjon.Proofs.Window
