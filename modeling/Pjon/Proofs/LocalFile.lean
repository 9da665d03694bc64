import Pjon.Lib.Best
import Pjon.Lib.Ring
import Pjon.Spec.SharedLog
import Mathlib.Data.List.FinRange
import Mathlib.Data.List.TakeWhile
/-!
# Following the log in the file

The file is a ring over the log: entry `k` has the id `k % 65535 + 1` and is in the position
`k % LF_QUEUESIZE`.  The two searches over the index then come to what they are for: the
position of the oldest entry, and the position of the first entry behind the one read last.
-/

namespace Pjon.Proofs.LocalFile

open Pjon.Lib Pjon.Model Pjon.Spec Pjon.Model.LocalFile

variable {s : Settings}

/-! ## Ids -/

def recordId (k : Nat) : UInt16 := UInt16.ofNat (Ring.serial 65535 k)

/-- The id in front of the index when the log has `n` entries. -/
def lastId : Nat → UInt16
  | 0 => 0
  | n + 1 => recordId n

theorem toNat_recordId (k : Nat) : (recordId k).toNat = Ring.serial 65535 k := by
  have hle := Ring.serial_le (M := 65535) (k := k) (by decide)
  rw [recordId, UInt16.toNat_ofNat']
  exact Nat.mod_eq_of_lt (Nat.lt_succ_of_le hle)

theorem recordId_ne_zero (k : Nat) : recordId k ≠ 0 := by
  intro hzero
  have hnat := congrArg UInt16.toNat hzero
  rw [toNat_recordId] at hnat
  exact Nat.succ_ne_zero _ hnat

theorem nextRecordId (n : Nat) :
    (if lastId n + 1 = 0 then 1 else lastId n + 1) = recordId n := by
  cases n with
  | zero => decide
  | succ n =>
      have hsucc := Ring.serial_succ (M := 65535) (k := n) (by decide)
      have hle := Ring.serial_le (M := 65535) (k := n) (by decide)
      have hnat : (recordId n + 1).toNat = (Ring.serial 65535 n + 1) % 65536 := by
        rw [UInt16.toNat_add, toNat_recordId]
        rfl
      change (if recordId n + 1 = 0 then 1 else recordId n + 1) = recordId (n + 1)
      apply UInt16.toNat_inj.mp
      rw [toNat_recordId, hsucc]
      by_cases hlast : Ring.serial 65535 n = 65535
      · have hzero : recordId n + 1 = 0 := by
          apply UInt16.toNat_inj.mp
          rw [hnat, hlast]
          rfl
        rw [if_pos hzero, if_pos hlast]
        rfl
      · have hsmall : (Ring.serial 65535 n + 1) % 65536 = Ring.serial 65535 n + 1 :=
          Nat.mod_eq_of_lt (by omega)
        have hne : recordId n + 1 ≠ 0 := by
          intro hzero
          rw [hzero, hsmall] at hnat
          exact absurd hnat (Nat.succ_ne_zero _).symm
        rw [if_neg hne, if_neg hlast, hnat, hsmall]

section Distance

variable {k m : Nat} (hk : k ≤ m) (hm : m < k + 65535)

include hk hm

theorem recordId_sub : (recordId m - recordId k).toNat = Ring.gap 65535 m k := by
  have hmod := Ring.serial_sub (M := 65535) (by decide) hk hm
  have hle := Ring.gap_le (M := 65535) (by decide) hk hm
  have hserial := Ring.serial_le (M := 65535) (k := k) (by decide)
  have hserial' := Ring.serial_le (M := 65535) (k := m) (by decide)
  rw [UInt16.toNat_sub, toNat_recordId, toNat_recordId]
  rw [Nat.ModEq] at hmod
  omega

theorem recordId_sub_of_lt (hlt : k < m) :
    (recordId k - recordId m).toNat = 65536 - Ring.gap 65535 m k := by
  have hmod := Ring.serial_sub (M := 65535) (by decide) hk hm
  have hle := Ring.gap_le (M := 65535) (by decide) hk hm
  have hpos := Ring.gap_lt (M := 65535) hlt (Nat.le_refl m)
  have hserial := Ring.serial_le (M := 65535) (k := k) (by decide)
  have hserial' := Ring.serial_le (M := 65535) (k := m) (by decide)
  rw [UInt16.toNat_sub, toNat_recordId, toNat_recordId]
  rw [Nat.ModEq] at hmod
  omega

theorem recordId_inj (h : recordId k = recordId m) : k = m := by
  have hgap := recordId_sub hk hm
  rw [h, UInt16.sub_self] at hgap
  by_contra hne
  have hpos := Ring.gap_lt (M := 65535) (Nat.lt_of_le_of_ne hk hne) (Nat.le_refl m)
  rw [← hgap] at hpos
  exact absurd hpos (Nat.not_lt_zero _)

end Distance

/-! ## The file as a ring -/

/-- The file holds the last entries of the log. -/
structure Rings (file : ContentFile s) (log : List (Frame s)) : Prop where
  room : 0 < log.length → 0 < s.queueSize
  last : file.lastRecordId = lastId log.length
  unused : ∀ i : Fin s.queueSize, log.length ≤ i → file.index.get i = 0
  held : ∀ (k : Nat) (hk : k < log.length), log.length ≤ k + s.queueSize →
    ∀ i : Fin s.queueSize, k % s.queueSize = i →
      file.index.get i = recordId k ∧ file.records.get i = Strategy.recordOf log[k]

theorem rings_start : Rings ({} : ContentFile s) [] where
  room := fun hlog => absurd hlog (Nat.lt_irrefl 0)
  last := rfl
  unused := fun i _ => Vector.getElem_replicate i.isLt
  held := fun k hk => absurd hk (Nat.not_lt_zero k)

section Rings

variable {file : ContentFile s} {log : List (Frame s)} (h : Rings file log)

include h

theorem slot_cases (i : Fin s.queueSize) :
    (log.length ≤ i ∧ file.index.get i = 0) ∨
      ∃ k, ∃ hk : k < log.length, log.length ≤ k + s.queueSize ∧ k % s.queueSize = i ∧
        file.index.get i = recordId k ∧ file.records.get i = Strategy.recordOf log[k] := by
  by_cases hi : log.length ≤ i
  · exact Or.inl ⟨hi, h.unused i hi⟩
  · obtain ⟨k, hk, hkq, hslot⟩ := Ring.exists_held i.isLt (Nat.not_le.mp hi)
    exact Or.inr ⟨k, hk, hkq, hslot, h.held k hk hkq i hslot⟩

end Rings

/-! ## The position that is written -/

/-- The search for a position that can be used again is a search for an unused one, and then
one for the greatest distance. -/
theorem reusableFrom_eq (lastRecordId : UInt16) (index : Vector UInt16 s.queueSize)
    (slots : List (Fin s.queueSize)) : ∀ maxDiff pos,
    reusableFrom lastRecordId index maxDiff pos slots =
      (slots.find? fun i => index.get i == 0).or
        (Best.search (fun i => some (lastRecordId - index.get i)) (· > ·) maxDiff pos slots) := by
  induction slots with
  | nil => exact fun maxDiff pos => rfl
  | cons i slots ih =>
      intro maxDiff pos
      rw [reusableFrom, Best.search]
      by_cases hunused : index.get i = 0
      · rw [if_pos hunused, List.find?_cons_of_pos (by simpa using hunused)]
        rfl
      · rw [if_neg hunused, List.find?_cons_of_neg (by simpa using hunused)]
        simp only
        split_ifs
        · exact ih _ _
        · exact ih _ _

section Write

variable {file : ContentFile s} {log : List (Frame s)} (h : Rings file log)

include h

theorem findReusable_of_unused (hroom : log.length < s.queueSize) :
    findReusablePosition file.lastRecordId file.index = some ⟨log.length, hroom⟩ := by
  have hfind : (List.finRange s.queueSize).find? (fun i => file.index.get i == 0) =
      some ⟨log.length, hroom⟩ := by
    rw [List.find?_eq_some_iff_getElem]
    refine ⟨by simpa using h.unused ⟨log.length, hroom⟩ (Nat.le_refl _), log.length, by simpa,
      ?_, ?_⟩
    · simp
    · intro j hj
      have hheld := (h.held j hj (by omega) ⟨j, by omega⟩ (Nat.mod_eq_of_lt (by omega))).1
      simpa [hheld] using recordId_ne_zero j
  rw [findReusablePosition, reusableFrom_eq, hfind]
  rfl

/-- When all positions are used, the oldest entry gives way; a single position never does. -/
theorem findReusable_of_full (hfull : s.queueSize ≤ log.length) :
    (∀ hq : 2 ≤ s.queueSize, findReusablePosition file.lastRecordId file.index =
        some ⟨log.length % s.queueSize, Nat.mod_lt _ (by omega)⟩) ∧
      (s.queueSize < 2 → findReusablePosition file.lastRecordId file.index = none) := by
  have hq255 := s.counted
  have hused : (List.finRange s.queueSize).find? (fun i => file.index.get i == 0) = none := by
    rw [List.find?_eq_none]
    intro i _
    rcases slot_cases h i with ⟨hi, -⟩ | ⟨k, -, -, -, hindex, -⟩
    · exact absurd i.isLt (by omega)
    · simpa [hindex] using recordId_ne_zero k
  rw [findReusablePosition, reusableFrom_eq, hused, Option.none_or, h.last]
  obtain ⟨n, hn⟩ | hempty : (∃ n, log.length = n + 1) ∨ log.length = 0 := by
    cases log.length with
    | zero => exact Or.inr rfl
    | succ n => exact Or.inl ⟨n, rfl⟩
  · rw [hn, lastId]
    -- the distance of the entry in a position
    have hdiff : ∀ i : Fin s.queueSize, ∃ k, k ≤ n ∧ n < k + s.queueSize ∧ k % s.queueSize = i ∧
        (recordId n - file.index.get i).toNat = Ring.gap 65535 n k := by
      intro i
      rcases slot_cases h i with ⟨hi, -⟩ | ⟨k, hk, hkq, hslot, hindex, -⟩
      · exact absurd i.isLt (by omega)
      · refine ⟨k, by omega, by omega, hslot, ?_⟩
        rw [hindex]
        exact recordId_sub (by omega) (by omega)
    constructor
    · intro hq
      have holdest : (n + 1) % s.queueSize = (n + 1 - s.queueSize) % s.queueSize :=
        Nat.mod_eq_sub_mod (by omega)
      obtain ⟨k, hk, hkq, hslot, hgap⟩ :=
        hdiff ⟨(n + 1) % s.queueSize, Nat.mod_lt _ (by omega)⟩
      have hfirst : k = n + 1 - s.queueSize :=
        Ring.held_unique (n := n + 1) (by omega) (by omega) (by omega) (by omega)
          (hslot.trans holdest)
      refine Best.search_eq_some (List.mem_finRange _) rfl ?_ ?_
      · change (0 : UInt16) < _
        rw [UInt16.lt_iff_toNat_lt, hgap]
        have hpos := Ring.gap_lt (M := 65535) (show k < n by omega) (Nat.le_refl n)
        exact Nat.lt_of_le_of_lt (Nat.zero_le _) hpos
      · intro i _ x hx
        obtain rfl := Option.some.inj hx
        obtain ⟨k', hk', hkq', hslot', hgap'⟩ := hdiff i
        rcases Nat.eq_or_lt_of_le (show k ≤ k' by omega) with heq | hlt
        · have hi : i = ⟨(n + 1) % s.queueSize, Nat.mod_lt _ (by omega)⟩ := by
            apply Fin.ext
            rw [← hslot', ← heq, hslot]
          rw [hi]
          exact ⟨UInt16.lt_irrefl _, Or.inl rfl⟩
        · have hgaps := Ring.gap_lt (M := 65535) hlt hk'
          rw [← hgap, ← hgap', ← UInt16.lt_iff_toNat_lt] at hgaps
          exact ⟨UInt16.not_lt.mpr (UInt16.le_of_lt hgaps), Or.inr hgaps⟩
    · intro hq
      apply Best.search_of_none
      intro i _ x hx
      obtain rfl := Option.some.inj hx
      obtain ⟨k, hk, hkq, -, hgap⟩ := hdiff i
      have hself : k = n := by omega
      rw [hself, Ring.gap_self] at hgap
      change ¬(0 : UInt16) < _
      rw [UInt16.lt_iff_toNat_lt, hgap]
      exact Nat.not_lt_zero _
  · refine ⟨fun hq => by omega, fun hq => ?_⟩
    have hnone : List.finRange s.queueSize = [] := by
      rw [List.finRange_eq_nil_iff]
      omega
    rw [hnone]
    rfl

/-- The entry is written behind the log. -/
theorem rings_write (frame : Frame s) (pos : Fin s.queueSize)
    (hpos : log.length % s.queueSize = pos) :
    Rings
      (({ file with records := file.records.set pos (Strategy.recordOf frame) }).updateIndex
        (recordId log.length) pos) (log ++ [frame]) where
  room := fun _ => pos.pos
  last := by
    rw [List.length_append, List.length_singleton]
    rfl
  unused := by
    intro i hi
    rw [List.length_append, List.length_singleton] at hi
    have hlog : log.length < s.queueSize := by omega
    have hne : (pos : Nat) ≠ i := by
      rw [← hpos, Nat.mod_eq_of_lt hlog]
      omega
    have hother : (file.index.set pos (recordId log.length))[i] = file.index.get i :=
      Vector.getElem_set_ne _ _ hne
    exact hother.trans (h.unused i (by omega))
  held := by
    intro k hk hkq i hi
    rw [List.length_append, List.length_singleton] at hk hkq
    change (file.index.set pos (recordId log.length))[i] = recordId k ∧
      (file.records.set pos (Strategy.recordOf frame))[i] = _
    by_cases hnew : k = log.length
    · subst hnew
      obtain rfl : pos = i := Fin.ext (hpos.symm.trans hi)
      rw [List.getElem_concat_length rfl]
      exact ⟨Vector.getElem_set_self _, Vector.getElem_set_self _⟩
    · have hklog : k < log.length := by omega
      have hne : (pos : Nat) ≠ i := by
        intro heq
        apply hnew
        exact Ring.held_unique (n := log.length + 1) (by omega) hkq (by omega) (by omega)
          (hi.trans (heq.symm.trans hpos.symm))
      have hindex : (file.index.set pos (recordId log.length))[i] = file.index.get i :=
        Vector.getElem_set_ne _ _ hne
      have hrecord : (file.records.set pos (Strategy.recordOf frame))[i] = file.records.get i :=
        Vector.getElem_set_ne _ _ hne
      rw [hindex, hrecord, List.getElem_append_left hklog]
      exact h.held k hklog (by omega) i hi

/-- A frame that is sent is behind the log, or it is not written at all. -/
theorem sendFrame_cases (strategy : Strategy) (frame : Frame s) :
    ((strategy.sendFrame file frame).1.receiveResponse = ack ∧
        Rings (strategy.sendFrame file frame).2 (log ++ [frame])) ∨
      (strategy.sendFrame file frame).1.receiveResponse ≠ ack ∧
        (strategy.sendFrame file frame).2 = file := by
  have hwrite (pos : Fin s.queueSize)
      (hfind : findReusablePosition file.lastRecordId file.index = some pos)
      (hpos : log.length % s.queueSize = pos) :
      (strategy.sendFrame file frame).1.receiveResponse = ack ∧
        Rings (strategy.sendFrame file frame).2 (log ++ [frame]) := by
    have hnext := nextRecordId log.length
    rw [← h.last] at hnext
    rw [Strategy.sendFrame, ContentFile.writePacketToFile, hfind]
    simp only
    rw [hnext]
    exact ⟨rfl, rings_write h frame pos hpos⟩
  by_cases hroom : log.length < s.queueSize
  · exact Or.inl (hwrite _ (findReusable_of_unused h hroom) (Nat.mod_eq_of_lt hroom))
  obtain ⟨hmany, hfew⟩ := findReusable_of_full h (Nat.not_lt.mp hroom)
  by_cases hq : 2 ≤ s.queueSize
  · exact Or.inl (hwrite _ (hmany hq) rfl)
  · right
    have hfail : fail ≠ ack := by decide
    rw [Strategy.sendFrame, ContentFile.writePacketToFile, hfew (Nat.not_le.mp hq)]
    exact ⟨hfail, rfl⟩

end Write

/-! ## The position that is read -/

/-- The distance of an entry behind the one read last, if that may be the next one. -/
def ahead (index : Vector UInt16 s.queueSize) (lastRecordIdRead : UInt16) (i : Fin s.queueSize) :
    Option UInt16 :=
  if index.get i = 0 ∨ index.get i = lastRecordIdRead then none
  else if index.get i - lastRecordIdRead < 0x8FFF then some (index.get i - lastRecordIdRead)
  else none

theorem unreadFrom_eq (index : Vector UInt16 s.queueSize) (lastRecordIdRead : UInt16)
    (slots : List (Fin s.queueSize)) : ∀ minDiff pos,
    unreadFrom index lastRecordIdRead minDiff pos slots =
      Best.search (ahead index lastRecordIdRead) (· < ·) minDiff pos slots := by
  induction slots with
  | nil => exact fun minDiff pos => rfl
  | cons i slots ih =>
      intro minDiff pos
      rw [unreadFrom, Best.search, ahead]
      by_cases hskip : index.get i = 0 ∨ index.get i = lastRecordIdRead
      · rw [if_pos hskip, if_pos hskip]
        exact ih _ _
      · rw [if_neg hskip, if_neg hskip]
        simp only
        by_cases hnear : index.get i - lastRecordIdRead < 0x8FFF
        · rw [if_pos hnear]
          simp only [hnear, true_and]
          split_ifs
          · exact ih _ _
          · exact ih _ _
        · rw [if_neg hnear, if_neg fun hboth => hnear hboth.1]
          exact ih _ _

section Read

variable {file : ContentFile s} {log : List (Frame s)} (h : Rings file log)

include h

/-- Whatever a reader reads is one of the entries that the file holds. -/
theorem readNext_some {strategy : Strategy} {record : Record s}
    (hread : (strategy.readNextPacketFromFile file).1 = some record) :
    ∃ k, ∃ hk : k < log.length, log.length ≤ k + s.queueSize ∧
      record = Strategy.recordOf log[k] ∧
      (strategy.readNextPacketFromFile file).2.lastRecordIdRead = recordId k := by
  have hpos : ∀ pos id,
      findNextUnreadPosition file.lastRecordId file.index strategy.lastRecordIdRead =
        (some pos, id) → file.index.get pos ≠ 0 := by
    intro pos id hfound hunused
    rw [findNextUnreadPosition] at hfound
    generalize (if strategy.lastRecordIdRead = 0 then
      file.lastRecordId - UInt16.ofNat s.queueSize else strategy.lastRecordIdRead) = last at hfound
    simp only [unreadFrom_eq] at hfound
    split_ifs at hfound
    · exact Option.some_ne_none pos (congrArg Prod.fst hfound).symm
    · obtain hnone | ⟨-, x, hx⟩ := Best.key_of_search (congrArg Prod.fst hfound)
      · exact Option.some_ne_none pos hnone.symm
      · rw [ahead, if_pos (Or.inl hunused)] at hx
        exact Option.some_ne_none x hx.symm
  rw [Strategy.readNextPacketFromFile] at hread ⊢
  split_ifs at hread ⊢
  · generalize hfound : findNextUnreadPosition file.lastRecordId file.index
      strategy.lastRecordIdRead = found at hread ⊢
    obtain ⟨_ | pos, id⟩ := found
    · exact absurd hread.symm (Option.some_ne_none record)
    · rcases slot_cases h pos with ⟨-, hunused⟩ | ⟨k, hk, hkq, -, hindex, hrecord⟩
      · exact absurd hunused (hpos pos id hfound)
      · exact ⟨k, hk, hkq, (Option.some.inj hread).symm.trans hrecord, hindex⟩

/-- A reader that has read nothing yet starts among the last entries. -/
theorem readNext_first {strategy : Strategy} (hunread : strategy.lastRecordIdRead = 0)
    (hlog : 0 < log.length) : (strategy.readNextPacketFromFile file).1 ≠ none := by
  have hq255 := s.counted
  have hq := h.room hlog
  obtain ⟨n, hn⟩ : ∃ n, log.length = n + 1 := ⟨log.length - 1, by omega⟩
  have hlast : file.lastRecordId = recordId n := by rw [h.last, hn, lastId]
  have hzero : file.lastRecordId ≠ 0 := by
    rw [hlast]
    exact recordId_ne_zero n
  obtain ⟨start, hstart⟩ : ∃ start, start = recordId n - UInt16.ofNat s.queueSize := ⟨_, rfl⟩
  -- the newest entry is as far ahead as the file has records
  have hback : recordId n - start = UInt16.ofNat s.queueSize := by
    grind
  have hdistance : (UInt16.ofNat s.queueSize).toNat = s.queueSize := by
    rw [UInt16.toNat_ofNat']
    exact Nat.mod_eq_of_lt (show s.queueSize < 65536 by omega)
  have hne : recordId n ≠ start := by
    intro heq
    rw [← heq, UInt16.sub_self] at hback
    have hnone := congrArg UInt16.toNat hback
    rw [hdistance] at hnone
    exact Nat.ne_of_gt hq hnone.symm
  have hpos : n % s.queueSize < s.queueSize := Nat.mod_lt n hq
  obtain ⟨hindex, -⟩ := h.held n (by omega) (by omega) ⟨n % s.queueSize, hpos⟩ rfl
  have hnear : UInt16.ofNat s.queueSize < 0x8FFF := by
    rw [UInt16.lt_iff_toNat_lt, hdistance]
    change s.queueSize < 36863
    omega
  have hahead : ahead file.index start ⟨n % s.queueSize, hpos⟩ =
      some (UInt16.ofNat s.queueSize) := by
    rw [ahead, hindex, if_neg (not_or.mpr ⟨recordId_ne_zero n, hne⟩), hback, if_pos hnear]
  have hfound := Best.search_ne_none none (List.mem_finRange _) hahead
    (UInt16.lt_trans hnear (by decide : (0x8FFF : UInt16) < 0xFFFF))
  have hfind : findNextUnreadPosition file.lastRecordId file.index strategy.lastRecordIdRead =
      (Best.search (ahead file.index start) (· < ·) 0xFFFF none (List.finRange s.queueSize),
        start) := by
    rw [findNextUnreadPosition, if_pos hunread, hlast, ← hstart, if_neg hne, unreadFrom_eq]
  rw [Strategy.readNextPacketFromFile, if_pos hzero, hfind]
  obtain ⟨pos, hsearch⟩ := Option.ne_none_iff_exists'.mp hfound
  rw [hsearch]
  exact Option.some_ne_none _

section Tracks

variable {strategy : Strategy} {r p : Nat} (hid : strategy.lastRecordIdRead = recordId r)
  (hrp : r < p) (hpr : p ≤ r + s.queueSize) (hp : p ≤ log.length)
  (htimely : log.length - p < 0x8FFE)

include hid hrp hpr hp htimely

omit hid in
/-- The entries that are ahead are those behind the one read last. -/
theorem ahead_cases (i : Fin s.queueSize) :
    ahead file.index (recordId r) i = none ∨
      ∃ k, r < k ∧ k < log.length ∧ log.length ≤ k + s.queueSize ∧ k % s.queueSize = i ∧
        ∀ x, ahead file.index (recordId r) i = some x → x.toNat = Ring.gap 65535 k r := by
  have hq255 := s.counted
  rcases slot_cases h i with ⟨-, hunused⟩ | ⟨k, hk, hkq, hslot, hindex, -⟩
  · left
    rw [ahead, if_pos (Or.inl hunused)]
  rcases Nat.lt_trichotomy k r with hlt | heq | hgt
  · -- an entry in front of it is too far ahead
    left
    have hsub := recordId_sub_of_lt (Nat.le_of_lt hlt) (show r < k + 65535 by omega) hlt
    have hgap := Ring.gap_le (M := 65535) (by decide) (Nat.le_of_lt hlt)
      (show r < k + 65535 by omega)
    have hfar : ¬recordId k - recordId r < 0x8FFF := by
      rw [UInt16.lt_iff_toNat_lt, hsub]
      change ¬65536 - Ring.gap 65535 r k < 36863
      omega
    rw [ahead, hindex, if_neg hfar, ite_self]
  · left
    rw [ahead, hindex, heq, if_pos (Or.inr rfl)]
  · right
    refine ⟨k, hgt, hk, hkq, hslot, ?_⟩
    intro x hx
    rw [ahead, hindex] at hx
    split_ifs at hx
    rw [← Option.some.inj hx]
    exact recordId_sub (Nat.le_of_lt hgt) (by omega)

/-- A reader that has not been away for long reads the first entry behind the one it has read
last that the file still holds. -/
theorem readNext_of_tracks :
    (r + 1 = log.length ∧ (strategy.readNextPacketFromFile file).1 = none ∧
        (strategy.readNextPacketFromFile file).2 = strategy) ∨
      ∃ k, ∃ hk : k < log.length, k = max (r + 1) (log.length - s.queueSize) ∧
        (strategy.readNextPacketFromFile file).1 = some (Strategy.recordOf log[k]) ∧
        (strategy.readNextPacketFromFile file).2.lastRecordIdRead = recordId k := by
  have hq255 := s.counted
  obtain ⟨n, hn⟩ : ∃ n, log.length = n + 1 := ⟨log.length - 1, by omega⟩
  have hlast : file.lastRecordId = recordId n := by rw [h.last, hn, lastId]
  have hzero : file.lastRecordId ≠ 0 := by
    rw [hlast]
    exact recordId_ne_zero n
  have hrid : strategy.lastRecordIdRead ≠ 0 := by
    rw [hid]
    exact recordId_ne_zero r
  have hfind : findNextUnreadPosition file.lastRecordId file.index strategy.lastRecordIdRead =
      if recordId n = recordId r then (none, recordId r)
      else (Best.search (ahead file.index (recordId r)) (· < ·) 0xFFFF none
        (List.finRange s.queueSize), recordId r) := by
    rw [findNextUnreadPosition, if_neg hrid, hlast, hid, unreadFrom_eq]
  by_cases hall : r = n
  · left
    rw [if_pos (congrArg recordId hall.symm)] at hfind
    rw [Strategy.readNextPacketFromFile, if_pos hzero, hfind]
    refine ⟨by omega, rfl, ?_⟩
    change { strategy with lastRecordIdRead := recordId r } = strategy
    rw [← hid]
  right
  have hne : recordId n ≠ recordId r := fun heq =>
    hall (recordId_inj (by omega) (by omega) heq.symm)
  obtain ⟨k, hk⟩ : ∃ k, k = max (r + 1) (log.length - s.queueSize) := ⟨_, rfl⟩
  have hkr : r < k := by omega
  have hkn : k < log.length := by omega
  have hkq : log.length ≤ k + s.queueSize := by omega
  have hpos : k % s.queueSize < s.queueSize := Nat.mod_lt k (by omega)
  obtain ⟨hindex, hrecord⟩ := h.held k hkn hkq ⟨k % s.queueSize, hpos⟩ rfl
  have hsub := recordId_sub (Nat.le_of_lt hkr) (show k < r + 65535 by omega)
  have hgap := Ring.gap_le (M := 65535) (by decide) (Nat.le_of_lt hkr)
    (show k < r + 65535 by omega)
  have hnear : recordId k - recordId r < 0x8FFF := by
    rw [UInt16.lt_iff_toNat_lt, hsub]
    change Ring.gap 65535 k r < 36863
    omega
  have hahead : ahead file.index (recordId r) ⟨k % s.queueSize, hpos⟩ =
      some (recordId k - recordId r) := by
    have hskip : ¬(recordId k = 0 ∨ recordId k = recordId r) := by
      rintro (hnull | hsame)
      · exact recordId_ne_zero k hnull
      · exact absurd (recordId_inj (Nat.le_of_lt hkr) (by omega) hsame.symm) (by omega)
    rw [ahead, hindex, if_neg hskip, if_pos hnear]
  have hbest : Best.search (ahead file.index (recordId r)) (· < ·) 0xFFFF none
      (List.finRange s.queueSize) = some ⟨k % s.queueSize, hpos⟩ := by
    apply Best.search_eq_some (List.mem_finRange _) hahead
    · exact UInt16.lt_trans hnear (by decide)
    · intro i _ x hx
      rcases ahead_cases h hrp hpr hp htimely i with hnone | ⟨k', hrk', hk', hkq', hslot, hx'⟩
      · exact absurd (hx.symm.trans hnone) (Option.some_ne_none x)
      rcases Nat.eq_or_lt_of_le (show k ≤ k' by omega) with heq | hlt
      · subst heq
        obtain rfl : i = ⟨k % s.queueSize, hpos⟩ := Fin.ext hslot.symm
        obtain rfl := Option.some.inj (hahead.symm.trans hx)
        exact ⟨UInt16.lt_irrefl _, Or.inl rfl⟩
      · have hgaps := Ring.gap_lt_gap (M := 65535) (Nat.le_of_lt hkr) hlt
        rw [← hsub, ← hx' x hx, ← UInt16.lt_iff_toNat_lt] at hgaps
        exact ⟨UInt16.not_lt.mpr (UInt16.le_of_lt hgaps), Or.inr hgaps⟩
  rw [if_neg hne, hbest] at hfind
  rw [Strategy.readNextPacketFromFile, if_pos hzero, hfind]
  exact ⟨k, hkn, hk, congrArg some hrecord, hindex⟩

end Tracks

end Read

/-! ## The bytes of a record -/

theorem take_recordOf (frame : Frame s) (maxLength : Nat) :
    (Strategy.recordOf frame).message.toList.take
        (min (Strategy.recordOf frame).length.toNat maxLength) = frame.bytes.take maxLength := by
  have hlength : (Strategy.recordOf frame).length.toNat = frame.bytes.length := by
    rw [Strategy.recordOf, UInt16.toNat_ofNat']
    exact Nat.mod_eq_of_lt frame.fits
  have hin := frame.inRecord
  rw [hlength, Strategy.recordOf]
  apply List.ext_getElem
  · simp
    omega
  · intro i hi hi'
    rw [List.length_take] at hi'
    have hsmall : i < frame.bytes.length := by omega
    simp [hsmall]

section Frames

variable {file : ContentFile s} {log : List (Frame s)} (h : Rings file log)

include h

theorem receiveFrame_some {strategy : Strategy} {maxLength : Nat} {bytes : List UInt8}
    (hread : (strategy.receiveFrame file maxLength).1 = some bytes) :
    ∃ k, ∃ hk : k < log.length, log.length ≤ k + s.queueSize ∧
      bytes = log[k].bytes.take maxLength ∧
      (strategy.receiveFrame file maxLength).2.lastRecordIdRead = recordId k := by
  rw [Strategy.receiveFrame] at hread ⊢
  simp only [Option.map_eq_some_iff] at hread
  obtain ⟨record, hrecord, hbytes⟩ := hread
  obtain ⟨k, hk, hkq, rfl, hid⟩ := readNext_some h hrecord
  exact ⟨k, hk, hkq, by rw [← hbytes, take_recordOf], hid⟩

theorem receiveFrame_of_tracks {strategy : Strategy} {r p : Nat}
    (hid : strategy.lastRecordIdRead = recordId r) (hrp : r < p) (hpr : p ≤ r + s.queueSize)
    (hp : p ≤ log.length) (htimely : log.length - p < 0x8FFE) (maxLength : Nat) :
    (r + 1 = log.length ∧ (strategy.receiveFrame file maxLength).1 = none ∧
        (strategy.receiveFrame file maxLength).2 = strategy) ∨
      ∃ k, ∃ hk : k < log.length, k = max (r + 1) (log.length - s.queueSize) ∧
        (strategy.receiveFrame file maxLength).1 = some (log[k].bytes.take maxLength) ∧
        (strategy.receiveFrame file maxLength).2.lastRecordIdRead = recordId k := by
  rcases readNext_of_tracks h hid hrp hpr hp htimely with ⟨hall, hnone, hsame⟩ |
    ⟨k, hk, hnext, hsome, hid'⟩
  · left
    refine ⟨hall, ?_, hsame⟩
    rw [Strategy.receiveFrame, hnone]
    rfl
  · right
    refine ⟨k, hk, hnext, ?_, hid'⟩
    rw [Strategy.receiveFrame, hsome]
    exact congrArg some (take_recordOf _ _)

end Frames

/-! ## Runs -/

section Reader

variable {ι : Type} {x : Shared ι s} {reader : ι} {readings : List Reading}

/-- The reader has read entry `r` last, and polled last when there were `p` entries. -/
structure Tracks (x : Shared ι s) (reader : ι) (readings : List Reading) (r p : Nat) : Prop where
  id : (x.instances reader).lastRecordIdRead = recordId r
  read : r < p
  within : p ≤ r + s.queueSize
  entries : p ≤ x.log.length
  last : (readings.map fun reading => reading.entries).getLast? = some p
  started : entriesRead readings ≠ []
  upTo : ∀ k ∈ entriesRead readings, k ≤ r
  covered : ∀ first, (entriesRead readings).head? = some first → ∀ k, first ≤ k → k ≤ r →
    k ∈ entriesRead readings ∨ k + s.queueSize < p

/-- What a reader has come to. -/
structure Keeps (x : Shared ι s) (reader : ι) (readings : List Reading) : Prop where
  visits : readings.map Reading.toVisit = sinceFirst (x.visits reader)
  follows : Follows s.queueSize x.log readings
  tracks : readings = [] ∨ ∃ r p, Tracks x reader readings r p

theorem follows_append {log : List (Frame s)} (h : Follows s.queueSize log readings)
    (more : List (Frame s)) : Follows s.queueSize (log ++ more) readings where
  returns := by
    intro r hr
    rw [h.returns r hr]
    cases hentry : r.entry with
    | none => rfl
    | some k =>
        have hk := h.written r hr k hentry
        simp only [Option.bind_some]
        rw [List.getElem?_append_left (by omega)]
  written := by
    intro r hr k hk
    obtain ⟨hlt, hle⟩ := h.written r hr k hk
    rw [List.length_append]
    exact ⟨hlt, by omega⟩
  ordered := h.ordered
  complete := h.complete

theorem follows_nil (q : Nat) (log : List (Frame s)) : Follows q log [] where
  returns := fun r hr => absurd hr List.not_mem_nil
  written := fun r hr => absurd hr List.not_mem_nil
  ordered := List.Pairwise.nil
  complete := fun before r after h => by simp at h

/-- Nothing but a poll of the reader changes what it has come to. -/
theorem keeps_of_other {x' : Shared ι s} (h : Keeps x reader readings)
    (hid : (x'.instances reader).lastRecordIdRead = (x.instances reader).lastRecordIdRead)
    (hvisits : x'.visits reader = x.visits reader) {more : List (Frame s)}
    (hlog : x'.log = x.log ++ more) : Keeps x' reader readings where
  visits := by rw [hvisits, h.visits]
  follows := by
    rw [hlog]
    exact follows_append h.follows more
  tracks := by
    apply h.tracks.imp_right
    rintro ⟨r, p, htracks⟩
    refine ⟨r, p, { htracks with id := hid.trans htracks.id, entries := ?_ }⟩
    rw [hlog, List.length_append]
    exact Nat.le_add_right_of_le htracks.entries

theorem entriesRead_concat (readings : List Reading) (reading : Reading) :
    entriesRead (readings ++ [reading]) = entriesRead readings ++ reading.entry.toList := by
  rw [entriesRead, List.filterMap_append]
  cases hentry : reading.entry <;> simp [hentry, entriesRead]

/-- One more reading. -/
theorem follows_concat {q : Nat} {log : List (Frame s)} (h : Follows q log readings)
    (hstarted : readings = [] ∨ entriesRead readings ≠ []) {reading : Reading}
    (hreturns : reading.result =
      reading.entry.bind fun k => log[k]?.map fun frame => frame.bytes.take reading.maxLength)
    (hwritten : ∀ k, reading.entry = some k → k < reading.entries ∧ reading.entries ≤ log.length)
    (hlater : ∀ k ∈ entriesRead readings, ∀ m, reading.entry = some m → k < m)
    (hcomplete : ∀ first, (entriesRead (readings ++ [reading])).head? = some first →
      ∀ k, first < k → Skips reading k →
        k ∈ entriesRead (readings ++ [reading]) ∨ k + q < reading.entries) :
    Follows q log (readings ++ [reading]) where
  returns := by
    rw [List.forall_mem_append, List.forall_mem_singleton]
    exact ⟨h.returns, hreturns⟩
  written := by
    rw [List.forall_mem_append, List.forall_mem_singleton]
    exact ⟨h.written, hwritten⟩
  ordered := by
    rw [entriesRead_concat, List.pairwise_append]
    refine ⟨h.ordered, ?_, ?_⟩
    · cases reading.entry with
      | none => exact List.Pairwise.nil
      | some m => exact List.pairwise_singleton _ m
    · intro k hk m hm
      exact hlater k hk m (by simpa using hm)
  complete := by
    intro before r after hsplit first hfirst
    induction after using List.reverseRecOn with
    | nil =>
        obtain ⟨rfl, hlast⟩ := List.append_inj' hsplit rfl
        obtain rfl := List.singleton_inj.mp hlast
        exact hcomplete first hfirst
    | append_singleton after last _ =>
        rw [← List.cons_append, ← List.append_assoc] at hsplit
        obtain ⟨hbefore, -⟩ := List.append_inj' hsplit rfl
        apply h.complete before r after hbefore first
        have hne : entriesRead readings ≠ [] := by
          apply hstarted.resolve_left
          intro hnil
          rw [hnil] at hbefore
          exact List.append_ne_nil_of_right_ne_nil before (List.cons_ne_nil r after) hbefore.symm
        rw [entriesRead_concat, List.head?_append_of_ne_nil _ hne] at hfirst
        exact hfirst

theorem sinceFirst_concat (visits : List Visit) (visit : Visit) :
    sinceFirst (visits ++ [visit]) =
      if sinceFirst visits = [] then if visit.result = none then [] else [visit]
      else sinceFirst visits ++ [visit] := by
  rw [sinceFirst, sinceFirst, List.dropWhile_append]
  simp only [List.isEmpty_iff]
  split_ifs with hnone hresult
  · simp [hresult]
  · cases hvisit : visit.result with
    | none => exact absurd hvisit hresult
    | some bytes => simp [hvisit]
  · rfl

/-- A poll of a reader that has started, by what it returns. -/
theorem keeps_concat (h : Keeps x reader readings) {r p : Nat}
    (htracks : Tracks x reader readings r p) {x' : Shared ι s} {visit : Visit} (entry : Option Nat)
    {r' : Nat} (hlog : x'.log = x.log) (hvisits : x'.visits reader = x.visits reader ++ [visit])
    (hentries : visit.entries = x.log.length)
    (hid : (x'.instances reader).lastRecordIdRead = recordId r')
    (hreturns : visit.result =
      entry.bind fun k => x.log[k]?.map fun frame => frame.bytes.take visit.maxLength)
    (hentry : entry = none ∧ r' = r ∧ r + 1 = x.log.length ∨
      entry = some r' ∧ r' < x.log.length ∧ r' = max (r + 1) (x.log.length - s.queueSize)) :
    Keeps x' reader (readings ++ [{ visit with entry := entry }]) := by
  have hread := htracks.read
  have hwithin := htracks.within
  have hp := htracks.entries
  have hr' : r ≤ r' ∧ r' < x.log.length ∧ x.log.length ≤ r' + s.queueSize := by
    rcases hentry with ⟨-, rfl, hall⟩ | ⟨-, hlt, hnext⟩
    · omega
    · omega
  have hhead : ∀ first,
      (entriesRead (readings ++ [{ visit with entry := entry }])).head? = some first →
        (entriesRead readings).head? = some first := by
    intro first hfirst
    rwa [entriesRead_concat, List.head?_append_of_ne_nil _ htracks.started] at hfirst
  -- what the reader has come past
  have hcovered : ∀ first,
      (entriesRead (readings ++ [{ visit with entry := entry }])).head? = some first →
        ∀ k, first ≤ k → k ≤ r' →
          k ∈ entriesRead (readings ++ [{ visit with entry := entry }]) ∨
            k + s.queueSize < x.log.length := by
    intro first hfirst k hk hkr'
    rw [entriesRead_concat, List.mem_append]
    by_cases hkr : k ≤ r
    · rcases htracks.covered first (hhead first hfirst) k hk hkr with hmem | hlost
      · exact Or.inl (Or.inl hmem)
      · exact Or.inr (by omega)
    · rcases hentry with ⟨-, rfl, -⟩ | ⟨rfl, hlt, hnext⟩
      · exact absurd hkr' hkr
      · rcases Nat.eq_or_lt_of_le hkr' with rfl | hbefore
        · exact Or.inl (Or.inr (by simp))
        · exact Or.inr (by omega)
  have hsince : sinceFirst (x.visits reader) ≠ [] := by
    rw [← h.visits]
    intro hnil
    exact htracks.started (by rw [List.map_eq_nil_iff.mp hnil]; rfl)
  have hlater : ∀ k ∈ entriesRead readings, ∀ m, entry = some m → k < m := by
    intro k hk m hm
    have hkr := htracks.upTo k hk
    rcases hentry with ⟨hnone, -⟩ | ⟨hsome, -, hnext⟩
    · exact absurd (hm.symm.trans hnone) (Option.some_ne_none m)
    · obtain rfl := Option.some.inj (hm.symm.trans hsome)
      omega
  exact {
    visits := by
      rw [hvisits, sinceFirst_concat, if_neg hsince, List.map_append, h.visits]
      rfl
    follows := by
      rw [hlog]
      refine follows_concat h.follows (Or.inr htracks.started) hreturns ?_ hlater ?_
      · intro k hk
        rcases hentry with ⟨hnone, -⟩ | ⟨hsome, hlt, -⟩
        · exact absurd (hk.symm.trans hnone) (Option.some_ne_none k)
        · obtain rfl := Option.some.inj (hk.symm.trans hsome)
          exact ⟨hentries ▸ hlt, Nat.le_of_eq hentries⟩
      · intro first hfirst k hk hskips
        refine (hcovered first hfirst k (Nat.le_of_lt hk) ?_).imp_right fun hlost => ?_
        · rcases hentry with ⟨rfl, rfl, hall⟩ | ⟨rfl, -, -⟩
          · have hwritten : k < visit.entries := hskips
            omega
          · exact Nat.le_of_lt hskips
        · exact hentries ▸ hlost
    tracks := by
      refine Or.inr ⟨r', x.log.length, ?_⟩
      exact {
        id := hid
        read := hr'.2.1
        within := hr'.2.2
        entries := Nat.le_of_eq (congrArg List.length hlog).symm
        last := by
          rw [List.map_append, List.map_singleton, List.getLast?_concat, hentries]
        started := by
          rw [entriesRead_concat]
          exact List.append_ne_nil_of_left_ne_nil htracks.started _
        upTo := by
          rw [entriesRead_concat, List.forall_mem_append]
          refine ⟨fun k hk => Nat.le_trans (htracks.upTo k hk) hr'.1, fun k hk => ?_⟩
          rcases hentry with ⟨rfl, -⟩ | ⟨rfl, -⟩
          · simp at hk
          · exact Nat.le_of_eq (by simpa using hk)
        covered := hcovered } }

/-- The first poll that returns something. -/
theorem keeps_first (hnone : sinceFirst (x.visits reader) = []) {x' : Shared ι s} {visit : Visit}
    {k : Nat} (hlog : x'.log = x.log) (hvisits : x'.visits reader = x.visits reader ++ [visit])
    (hentries : visit.entries = x.log.length) (hk : k < x.log.length)
    (hkq : x.log.length ≤ k + s.queueSize)
    (hid : (x'.instances reader).lastRecordIdRead = recordId k)
    (hreturns : visit.result = some (x.log[k].bytes.take visit.maxLength)) :
    Keeps x' reader [{ visit with entry := some k }] where
  visits := by
    rw [hvisits, sinceFirst_concat, if_pos hnone, hreturns, if_neg (Option.some_ne_none _)]
    rfl
  follows := by
    rw [hlog]
    apply follows_concat (follows_nil _ _) (Or.inl rfl)
    · simp only [Option.bind_some]
      rw [hreturns, List.getElem?_eq_getElem hk]
      rfl
    · intro m hm
      obtain rfl := Option.some.inj hm
      exact ⟨hentries ▸ hk, Nat.le_of_eq hentries⟩
    · exact fun m hm => absurd hm List.not_mem_nil
    · intro first hfirst m hm hskips
      obtain rfl := Option.some.inj hfirst
      exact absurd hskips (Nat.lt_asymm hm)
  tracks := by
    refine Or.inr ⟨k, x.log.length, ?_⟩
    exact {
      id := hid
      read := hk
      within := hkq
      entries := Nat.le_of_eq (congrArg List.length hlog).symm
      last := congrArg some hentries
      started := List.cons_ne_nil _ _
      upTo := by
        intro m hm
        exact Nat.le_of_eq (List.mem_singleton.mp hm)
      covered := by
        intro first hfirst m hm hmk
        obtain rfl := Option.some.inj hfirst
        exact Or.inl (List.mem_singleton.mpr (Nat.le_antisymm hmk hm)) }

end Reader

section Run

variable {ι : Type} [DecidableEq ι] {x : Shared ι s} {reader : ι} {readings : List Reading}

theorem keeps_receive (hrings : Rings x.file x.log) (h : Keeps x reader readings) (maxLength : Nat)
    (htimely : Timely (sinceFirst ((x.step (.receive reader maxLength)).visits reader))) :
    ∃ readings', Keeps (x.step (.receive reader maxLength)) reader readings' := by
  obtain ⟨received, hreceived⟩ :
      ∃ received, received = (x.instances reader).receiveFrame x.file maxLength := ⟨_, rfl⟩
  obtain ⟨visit, hvisit⟩ : ∃ visit : Visit, visit =
      { entries := x.log.length, maxLength := maxLength, result := received.1 } := ⟨_, rfl⟩
  have hvisits : (x.step (.receive reader maxLength)).visits reader =
      x.visits reader ++ [visit] := by
    rw [hvisit, hreceived]
    exact Function.update_self _ _ _
  have hinstance : (x.step (.receive reader maxLength)).instances reader = received.2 := by
    rw [hreceived]
    exact Function.update_self _ _ _
  rw [hvisits, sinceFirst_concat] at htimely
  rcases h.tracks with rfl | ⟨r, p, htracks⟩
  · have hnone : sinceFirst (x.visits reader) = [] := by
      rw [← h.visits]
      rfl
    cases hresult : received.1 with
    | none =>
        refine ⟨[], ?_, follows_nil _ _, Or.inl rfl⟩
        rw [hvisits, sinceFirst_concat, if_pos hnone, if_pos (by rw [hvisit, hresult])]
        rfl
    | some bytes =>
        rw [hreceived] at hresult
        obtain ⟨k, hk, hkq, hbytes, hid⟩ := receiveFrame_some hrings hresult
        refine ⟨_, keeps_first hnone rfl hvisits (by rw [hvisit]) hk hkq ?_ ?_⟩
        · rw [hinstance, hreceived]
          exact hid
        · rw [hvisit, hreceived]
          exact hresult.trans (congrArg some hbytes)
  · have hsince : sinceFirst (x.visits reader) ≠ [] := by
      rw [← h.visits]
      intro hnil
      exact htracks.started (by rw [List.map_eq_nil_iff.mp hnil]; rfl)
    rw [if_neg hsince, Timely, List.isChain_append, ← h.visits] at htimely
    have hwithin : x.log.length - p < 0x8FFE := by
      have hlast := htracks.last
      rw [List.getLast?_map, Option.map_eq_some_iff] at hlast
      obtain ⟨reading, hreading, hp⟩ := hlast
      have hchain :=
        htimely.2.2 reading.toVisit (by rw [List.getLast?_map, hreading]; rfl) visit rfl
      rw [hvisit, hp] at hchain
      exact hchain
    rcases receiveFrame_of_tracks hrings htracks.id htracks.read htracks.within htracks.entries
        hwithin maxLength with ⟨hall, hnone, hsame⟩ | ⟨k, hk, hnext, hsome, hid⟩
    · refine ⟨_, keeps_concat h htracks none rfl hvisits (by rw [hvisit]) ?_ ?_
        (Or.inl ⟨rfl, rfl, hall⟩)⟩
      · rw [hinstance, hreceived, hsame]
        exact htracks.id
      · rw [hvisit, hreceived]
        exact hnone
    · refine ⟨_, keeps_concat h htracks (some k) rfl hvisits (by rw [hvisit]) ?_ ?_
        (Or.inr ⟨rfl, hk, hnext⟩)⟩
      · rw [hinstance, hreceived]
        exact hid
      · rw [hvisit, hreceived, Option.bind_some, List.getElem?_eq_getElem hk]
        exact hsome

/-- What a call leaves of a reader that does not poll in it. -/
theorem other_call (x : Shared ι s) (call : FileCall ι s)
    (hother : ∀ maxLength, call ≠ .receive reader maxLength) :
    (x.step call).visits reader = x.visits reader ∧
      ((x.step call).instances reader).lastRecordIdRead =
        (x.instances reader).lastRecordIdRead ∧ ∃ more, (x.step call).log = x.log ++ more := by
  cases call with
  | send sender frame =>
      refine ⟨rfl, ?_, ?_⟩
      · by_cases hsender : reader = sender
        · subst hsender
          have hself : (x.step (.send reader frame)).instances reader =
              ((x.instances reader).sendFrame x.file frame).1 := Function.update_self _ _ _
          rw [hself]
          rfl
        · exact congrArg Strategy.lastRecordIdRead (Function.update_of_ne hsender _ _)
      · rw [Shared.step]
        simp only
        split_ifs
        · exact ⟨[frame], rfl⟩
        · exact ⟨[], (List.append_nil _).symm⟩
  | receive other maxLength =>
      have hne : reader ≠ other := by
        rintro rfl
        exact hother maxLength rfl
      exact ⟨Function.update_of_ne hne _ _,
        congrArg Strategy.lastRecordIdRead (Function.update_of_ne hne _ _),
        [], (List.append_nil _).symm⟩

theorem keeps_call (h : Keeps x reader readings) (call : FileCall ι s)
    (hother : ∀ maxLength, call ≠ .receive reader maxLength) :
    Keeps (x.step call) reader readings := by
  obtain ⟨hvisits, hid, more, hlog⟩ := other_call x call hother
  exact keeps_of_other h hid hvisits hlog

theorem rings_step (h : Rings x.file x.log) (call : FileCall ι s) :
    Rings (x.step call).file (x.step call).log := by
  cases call with
  | receive other maxLength => exact h
  | send sender frame =>
      rw [Shared.step]
      simp only
      rcases sendFrame_cases h (x.instances sender) frame with ⟨hack, hwritten⟩ | ⟨hnot, hsame⟩
      · rw [if_pos hack]
        exact hwritten
      · rw [if_neg hnot, hsame]
        exact h

theorem timely_of_step (call : FileCall ι s)
    (htimely : Timely (sinceFirst ((x.step call).visits reader))) :
    Timely (sinceFirst (x.visits reader)) := by
  cases call with
  | send sender frame => exact htimely
  | receive other maxLength =>
      by_cases hother : reader = other
      · subst hother
        have hvisits : ∃ visit, (x.step (.receive reader maxLength)).visits reader =
            x.visits reader ++ [visit] := ⟨_, Function.update_self _ _ _⟩
        obtain ⟨visit, hvisits⟩ := hvisits
        rw [hvisits, sinceFirst_concat] at htimely
        by_cases hnone : sinceFirst (x.visits reader) = []
        · rw [hnone]
          exact List.isChain_nil
        · rw [if_neg hnone] at htimely
          exact htimely.left_of_append
      · have hsame : (x.step (.receive other maxLength)).visits reader = x.visits reader :=
          Function.update_of_ne hother _ _
        rwa [hsame] at htimely

/-! ### Before the first entry is read -/

theorem mem_untilFirst_concat {visits : List Visit} {visit v : Visit}
    (hv : v ∈ untilFirst (visits ++ [visit])) : v ∈ untilFirst visits ∨
      v = visit ∧ visit.result = none ∧ sinceFirst visits = [] := by
  rw [untilFirst, List.takeWhile_append] at hv
  split_ifs at hv with hall
  · have hwhole : visits.takeWhile (fun v => v.result.isNone) = visits :=
      List.IsPrefix.eq_of_length (List.takeWhile_prefix _) hall
    rcases List.mem_append.mp hv with hbefore | hlast
    · left
      rwa [untilFirst, hwhole]
    · right
      rw [List.takeWhile_cons] at hlast
      split_ifs at hlast with hnone
      · refine ⟨List.mem_singleton.mp hlast, Option.isNone_iff_eq_none.mp hnone, ?_⟩
        apply List.dropWhile_eq_nil_iff.mpr
        exact List.takeWhile_eq_self_iff.mp hwhole
      · exact absurd hlast List.not_mem_nil
  · exact Or.inl hv

/-- A reader that has read nothing has found nothing to read. -/
structure Waits (x : Shared ι s) (reader : ι) : Prop where
  empty : ∀ v ∈ untilFirst (x.visits reader), v.entries = 0
  unread : sinceFirst (x.visits reader) = [] → (x.instances reader).lastRecordIdRead = 0

theorem waits_step (hrings : Rings x.file x.log) (h : Waits x reader) (call : FileCall ι s) :
    Waits (x.step call) reader := by
  by_cases hpoll : ∃ maxLength, call = .receive reader maxLength
  · obtain ⟨maxLength, rfl⟩ := hpoll
    obtain ⟨received, hreceived⟩ :
        ∃ received, received = (x.instances reader).receiveFrame x.file maxLength := ⟨_, rfl⟩
    have hvisits : (x.step (.receive reader maxLength)).visits reader = x.visits reader ++
        [{ entries := x.log.length, maxLength := maxLength, result := received.1 }] := by
      rw [hreceived]
      exact Function.update_self _ _ _
    have hinstance : (x.step (.receive reader maxLength)).instances reader = received.2 := by
      rw [hreceived]
      exact Function.update_self _ _ _
    -- nothing is returned only where there is nothing
    have hempty (hnone : received.1 = none) (hfirst : sinceFirst (x.visits reader) = []) :
        x.log.length = 0 := by
      by_contra hlog
      apply readNext_first hrings (h.unread hfirst) (Nat.pos_of_ne_zero hlog)
      rw [hreceived, Strategy.receiveFrame] at hnone
      exact Option.map_eq_none_iff.mp hnone
    constructor
    · intro v hv
      rw [hvisits] at hv
      rcases mem_untilFirst_concat hv with hbefore | ⟨rfl, hnone, hfirst⟩
      · exact h.empty v hbefore
      · exact hempty hnone hfirst
    · intro hfirst
      rw [hvisits, sinceFirst_concat] at hfirst
      split_ifs at hfirst with hbefore hnone
      · have hlast : x.file.lastRecordId = 0 := by
          rw [hrings.last, hempty hnone hbefore]
          rfl
        rw [hinstance, hreceived, Strategy.receiveFrame, Strategy.readNextPacketFromFile,
          if_neg (not_not_intro hlast)]
        exact h.unread hbefore
      · exact absurd hfirst (List.append_ne_nil_of_right_ne_nil _ (List.cons_ne_nil _ _))
  · obtain ⟨hvisits, hid, -⟩ := other_call x call fun maxLength heq => hpoll ⟨maxLength, heq⟩
    constructor
    · rw [hvisits]
      exact h.empty
    · rw [hvisits, hid]
      exact h.unread

theorem waits_run (reader : ι) (calls : List (FileCall ι s)) :
    Waits (Run.final Shared.step ({} : Shared ι s) calls) reader := by
  have hstart : Waits ({} : Shared ι s) reader :=
    ⟨fun v hv => absurd hv List.not_mem_nil, fun _ => rfl⟩
  exact (Run.invariant Shared.step
    (fun x : Shared ι s => Rings x.file x.log ∧ Waits x reader)
    (fun x call h => ⟨rings_step h.1 call, waits_step h.1 h.2 call⟩)
    ⟨rings_start, hstart⟩ calls).2.2

theorem keeps_run (reader : ι) (calls : List (FileCall ι s)) :
    Rings (Run.final Shared.step ({} : Shared ι s) calls).file
        (Run.final Shared.step ({} : Shared ι s) calls).log ∧
      (Timely (sinceFirst ((Run.final Shared.step ({} : Shared ι s) calls).visits reader)) →
        ∃ readings, Keeps (Run.final Shared.step ({} : Shared ι s) calls) reader readings) := by
  induction calls using List.reverseRecOn with
  | nil => exact ⟨rings_start, fun _ => ⟨[], rfl, follows_nil _ _, Or.inl rfl⟩⟩
  | append_singleton calls call ih =>
      obtain ⟨hrings, hkeeps⟩ := ih
      rw [Run.final_append, Run.final_cons, Run.final_nil]
      refine ⟨rings_step hrings call, fun htimely => ?_⟩
      obtain ⟨readings, h⟩ := hkeeps (timely_of_step call htimely)
      by_cases hpoll : ∃ maxLength, call = .receive reader maxLength
      · obtain ⟨maxLength, rfl⟩ := hpoll
        exact keeps_receive hrings h maxLength htimely
      · exact ⟨readings, keeps_call h call fun maxLength heq => hpoll ⟨maxLength, heq⟩⟩

/-- Every reader reads something as soon as there is something to read, and if it polls in time
it follows the log in the order in which it was written from there on. -/
theorem reader_follows (calls : List (FileCall ι s)) (reader : ι)
    (htimely :
      Timely (sinceFirst ((Run.final Shared.step ({} : Shared ι s) calls).visits reader))) :
    (∀ v ∈ untilFirst ((Run.final Shared.step ({} : Shared ι s) calls).visits reader),
        v.entries = 0) ∧
      ∃ readings, readings.map Reading.toVisit =
          sinceFirst ((Run.final Shared.step ({} : Shared ι s) calls).visits reader) ∧
        Follows s.queueSize (Run.final Shared.step ({} : Shared ι s) calls).log readings := by
  obtain ⟨readings, h⟩ := (keeps_run reader calls).2 htimely
  exact ⟨(waits_run reader calls).empty, readings, h.visits, h.follows⟩

end Run

/-- A file with three records of up to four bytes. -/
def threeRecords : Settings := { queueSize := 3, packetMaxLength := 4 }

def letter (byte : UInt8) : Frame threeRecords where
  toPayload := Payload.single byte
  inRecord := Nat.le_add_left 1 3

/-- The reader reads the first letter and misses the second, which a fifth one replaces. -/
def letterCalls : List (FileCall Bool threeRecords) :=
  [.send true (letter 65), .receive false 4, .send true (letter 66), .send true (letter 67),
    .send true (letter 68), .send true (letter 69), .receive false 4]

theorem visits_letterCalls :
    sinceFirst ((Run.final Shared.step ({} : Shared Bool threeRecords) letterCalls).visits false) =
      [{ entries := 1, maxLength := 4, result := some [65] },
        { entries := 5, maxLength := 4, result := some [67] }] := by
  decide

theorem reader_follows_letters :
    Timely (sinceFirst
        ((Run.final Shared.step ({} : Shared Bool threeRecords) letterCalls).visits false)) ∧
      (∀ v ∈ untilFirst
          ((Run.final Shared.step ({} : Shared Bool threeRecords) letterCalls).visits false),
        v.entries = 0) ∧
      ∃ readings, readings.map Reading.toVisit =
          sinceFirst
            ((Run.final Shared.step ({} : Shared Bool threeRecords) letterCalls).visits false) ∧
        Follows 3 (Run.final Shared.step ({} : Shared Bool threeRecords) letterCalls).log
          readings := by
  have htimely : Timely (sinceFirst
      ((Run.final Shared.step ({} : Shared Bool threeRecords) letterCalls).visits false)) := by
    rw [visits_letterCalls]
    simp [Timely]
  exact ⟨htimely, reader_follows letterCalls false htimely⟩

end Pjon.Proofs.LocalFile
