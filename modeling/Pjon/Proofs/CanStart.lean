import Pjon.Proofs.BitBangReceive
/-!
# When a transmission may start

`can_start` looks at the pin again and again.  The padding bits of a frame are longer than the time
between two looks, and the looks go on for longer than the time between two padding bits.
-/

namespace Pjon.Proofs.CanStart

open Pjon.Lib Pjon.Lib.Timed Pjon.Model.SoftwareBitBang Pjon.Spec
open Pjon.Lib.Waveform (Pulse Pulsed Quiet)

variable {board : Board} {lags : Lags Operation} {level : Nat → Bool} {stretch : Nat}

/-! ## What frames look like -/

theorem duration_bitsWave (bits : List Bool) :
    Waveform.duration (BitBang.bitsWave board bits) = bits.length * ticks board board.bitWidth := by
  induction bits with
  | nil => exact (Nat.zero_mul _).symm
  | cons bit bits ih =>
      rw [BitBang.bitsWave_cons, Waveform.duration_cons, ih, List.length_cons, Nat.succ_mul]
      exact Nat.add_comm _ _

/-- The bits of a byte, behind its first padding bit. -/
theorem between_le {low : Nat} {bits : List Bool} {wave : Waveform} (hbits : bits.length ≤ 8)
    (hlow : low ≤ ticks board board.bitWidth + stretch)
    (hwave : Waveform.Stretched stretch (BitBang.bitsWave board bits) wave) :
    Waveform.duration ((false, low) :: wave) ≤ 9 * (ticks board board.bitWidth + stretch) := by
  have hle := hwave.duration_le
  have hlength : (BitBang.bitsWave board bits).length = bits.length := List.length_map _
  rw [duration_bitsWave, hlength, ← Nat.mul_add] at hle
  have hmul := Nat.mul_le_mul_right (ticks board board.bitWidth + stretch) hbits
  rw [Waveform.duration_cons]
  omega

/-- A stretched frame is made of padding bits, with the bits of a byte between them at most. -/
theorem pulsed_bytesWave {data : List UInt8} {wave : Waveform}
    (hwave : Waveform.Stretched stretch (BitBang.bytesWave board data) wave) :
    Pulsed (ticks board board.bitSpacer) (9 * (ticks board board.bitWidth + stretch)) wave := by
  induction data generalizing wave with
  | nil =>
      obtain rfl := List.forall₂_nil_left_iff.mp hwave
      exact .nil
  | cons b data ih =>
      rw [BitBang.bytesWave_cons] at hwave
      obtain ⟨wave, rest, rfl, hwave, hrest⟩ := Waveform.Stretched.append_left hwave
      rw [BitBang.waveform_sendByte] at hwave
      obtain ⟨high, wave, rfl, hhigh, -, hwave⟩ := Waveform.Stretched.cons_left hwave
      obtain ⟨low, wave, rfl, -, hlow, hwave⟩ := Waveform.Stretched.cons_left hwave
      have hbits : BitBang.bitsWave board (BitBang.firstBits b ++ [b.toNat.testBit 7]) = _ :=
        List.map_append
      exact .cons hhigh (between_le le_rfl hlow (hbits ▸ hwave)) (ih hrest)

theorem pulsed_sendFrame (htol : 1 ≤ board.preamble) {data : List UInt8} {wave : Waveform}
    (hwave : Waveform.Stretched stretch (waveform board (sendFrame board data)) wave) :
    Pulsed (ticks board board.bitSpacer) (9 * (ticks board board.bitWidth + stretch)) wave := by
  rw [BitBang.waveform_sendFrame] at hwave
  obtain ⟨high₁, wave, rfl, hhigh₁, -, hwave⟩ := Waveform.Stretched.cons_left hwave
  obtain ⟨low₁, wave, rfl, -, hlow₁, hwave⟩ := Waveform.Stretched.cons_left hwave
  obtain ⟨high₂, wave, rfl, hhigh₂, -, hwave⟩ := Waveform.Stretched.cons_left hwave
  obtain ⟨low₂, wave, rfl, -, hlow₂, hwave⟩ := Waveform.Stretched.cons_left hwave
  obtain ⟨high₃, wave, rfl, hhigh₃, -, hwave⟩ := Waveform.Stretched.cons_left hwave
  obtain ⟨low₃, wave, rfl, -, hlow₃, hwave⟩ := Waveform.Stretched.cons_left hwave
  have hlong : ticks board board.bitSpacer ≤ ticks board (board.bitSpacer * board.preamble) :=
    Nat.mul_le_mul_right _ (Nat.le_mul_of_pos_right _ htol)
  have hnone : Waveform.Stretched stretch (BitBang.bitsWave board []) [] := .nil
  exact .cons (Nat.le_trans hlong hhigh₁) (between_le (Nat.zero_le _) hlow₁ hnone)
    (.cons hhigh₂ (between_le (Nat.zero_le _) hlow₂ hnone)
      (.cons hhigh₃ (between_le (Nat.zero_le _) hlow₃ hnone) (pulsed_bytesWave hwave)))

/-! ## Looks at the pin -/

variable {random first last time : Nat} {post : Bool → Nat → Prop}

/-- A look at the pin, soon behind the last one. -/
theorem look_within {next : Program Bool}
    (hquiet : Quiet level (ticks board board.bitSpacer) first last)
    (hsoon : time < last + ticks board board.bitSpacer) (hbusy : ∀ time', post false time')
    (hnext : ∀ time', time + lags.least .read ≤ time' → time' ≤ time + lags.most .read →
      Quiet level (ticks board board.bitSpacer) first time → Within lags level next time' post) :
    Within lags level (do if ← pinRead then return false else next) time post := by
  refine within_step fun behind hbehind hbehind' => ?_
  cases hlevel : level time with
  | true => exact within_pure (hbusy behind)
  | false => exact hnext behind hbehind hbehind' (hquiet.next hsoon hlevel)

theorem scan_within (hlistens : Listens board lags stretch random) {count : Nat}
    (hquiet : Quiet level (ticks board board.bitSpacer) first last)
    (hsoon : time < last + ticks board board.bitSpacer) (hbusy : ∀ time', post false time')
    (hfree : ∀ last' time', Quiet level (ticks board board.bitSpacer) first last' →
      time' < last' + ticks board board.bitSpacer →
      time + count * ticks board board.bitWidth ≤ time' → post true time') :
    Within lags level (scan board count) time post := by
  induction count generalizing last time with
  | zero => exact within_pure (hfree last time hquiet hsoon (by omega))
  | succ count ih =>
      have hwidth := hlistens.width
      rw [Nat.succ_mul] at hfree
      refine look_within hquiet hsoon hbusy fun behind hbehind hbehind' hquiet' => ?_
      refine within_step fun later hlater hlater' => ?_
      have hticks : board.bitWidth * board.perMicro = ticks board board.bitWidth := rfl
      exact ih hquiet' (by omega) fun last' time' hquiet'' hsoon' hspan =>
        hfree last' time' hquiet'' hsoon' (by omega)

/-- Where a transmission may start, a low level has been found several times, and no padding bit
has begun between the first and the last time. -/
theorem canStart_within (hlistens : Listens board lags stretch random)
    (hbusy : ∀ time', post false time')
    (hfree : ∀ first last time', Quiet level (ticks board board.bitSpacer) first last →
      last ≤ time' → time' ≤ last + lags.most .read →
      first + ticks board (board.bitSpacer / 2) + ticks board (board.bitWidth / 2) +
        9 * ticks board board.bitWidth ≤ last → post true time') :
    Within lags level (canStart board random) time post := by
  have hspacer := hlistens.spacer
  have hwidth := hlistens.width
  have hlatency := hlistens.latency
  have hrandom := hlistens.random
  have hhalf : ticks board (board.bitWidth / 2) ≤ ticks board board.bitWidth :=
    Nat.mul_le_mul_right _ (Nat.div_le_self _ _)
  refine within_step fun started hstarted hstarted' => within_step fun first _ _ => ?_
  refine within_step fun after hafter hafter' => ?_
  cases hlevel : level first with
  | true => exact within_pure (hbusy after)
  | false =>
      have hquiet₀ : Quiet level (ticks board board.bitSpacer) first first := Quiet.of_low hlevel
      refine within_step fun second hsecond hsecond' => ?_
      change after + ticks board (board.bitSpacer / 2) + _ ≤ second at hsecond
      change second ≤ after + ticks board (board.bitSpacer / 2) + _ at hsecond'
      refine look_within hquiet₀ (by omega) hbusy fun behind hbehind hbehind' hquiet => ?_
      refine within_step fun third hthird hthird' => ?_
      change behind + ticks board (board.bitWidth / 2) + _ ≤ third at hthird
      change third ≤ behind + ticks board (board.bitWidth / 2) + _ at hthird'
      refine within_bind (scan_within hlistens hquiet (by omega)
        (fun time' => within_pure (hbusy time')) fun last scanned hquiet' hsoon hspan => ?_)
      rw [if_pos rfl]
      refine look_within hquiet' hsoon hbusy fun behind' hbehind₁ hbehind₂ hquiet₁ => ?_
      refine within_step fun fourth hfourth hfourth' => ?_
      change fourth ≤ behind' + ticks board board.latency + _ at hfourth'
      refine look_within hquiet₁ (by omega) hbusy fun behind₃ hbehind₃ hbehind₄ hquiet₂ => ?_
      refine within_step fun fifth hfifth hfifth' => ?_
      change fifth ≤ behind₃ + ticks board random + _ at hfifth'
      refine within_step fun done hdone hdone' => ?_
      cases hfinal : level fifth with
      | true => exact within_pure (hbusy done)
      | false =>
          exact within_pure (hfree first fifth done (hquiet₂.next (by omega) hfinal) (by omega)
            (by omega) (by omega))

/-! ## A busy channel -/

theorem listens_mono {wait : Nat} (h : Listens board lags stretch random) (hwait : wait ≤ random) :
    Listens board lags stretch wait :=
  ⟨h.spacer, h.width, h.latency,
    Nat.lt_of_le_of_lt (Nat.add_le_add_right (Nat.add_le_add_right
      (Nat.mul_le_mul_right _ hwait) _) _) h.random, h.span⟩

variable (time) in
/-- Where a transmission may start, a frame on the wire has not begun yet or is over. -/
theorem canStart_sound (hlistens : Listens board lags stretch random)
    (hpreamble : 1 ≤ board.preamble) {data : List UInt8} {wave : Waveform} {rise : Nat}
    (hwave : Waveform.Stretched stretch (waveform board (sendFrame board data)) wave)
    (hdrives : ∀ time, Waveform.level rise wave time = true → level time = true) :
    Within lags level (canStart board random) time fun free time' =>
      free = true →
        time' < rise + lags.most .read ∨ rise + Waveform.duration wave ≤ time' := by
  refine canStart_within hlistens (fun _ hfree => Bool.noConfusion hfree)
    fun first last time' hquiet hdone hdone' hspan _ => ?_
  have hpulsed := pulsed_sendFrame hpreamble hwave
  have hlevel := Waveform.carries_level rise wave
  have hgap := hlistens.span
  by_cases hbefore : first < rise
  · refine Or.inl ?_
    have hne : wave ≠ [] := fun hnil => by
      rw [BitBang.waveform_sendFrame, hnil] at hwave
      cases hwave
    have hbegins := hpulsed.begins hne hlevel
    have hlast := hquiet.through rise hbefore fun time hfrom hto =>
      hdrives time (hbegins time hfrom hto)
    omega
  · refine Or.inr ?_
    have hlow : Waveform.level rise wave first = false := by
      rw [← Bool.not_eq_true]
      intro hhigh
      have hlow := hquiet.low
      rw [hdrives first hhigh] at hlow
      exact Bool.noConfusion hlow
    rcases hpulsed.soon hlevel (Nat.le_of_not_lt hbefore) hlow with
      ⟨rise', hlater, hsoon, hpulse⟩ | hend
    · have hlast := hquiet.through rise' hlater fun time hfrom hto =>
        hdrives time (hpulse time hfrom hto)
      omega
    · omega

variable {turnaround : Nat} {transmissions : List OnWire}

/-- What is not over when another frame begins has only just begun. -/
theorem rise_lt_of_not_over (hlistens : Listens board lags stretch random)
    (hpreamble : 1 ≤ board.preamble) {first second : OnWire}
    (hfirst : Granted board lags stretch random turnaround level first)
    (hsecond : Granted board lags stretch random turnaround level second)
    (hover : second.rise < first.finish) :
    second.rise < first.rise + lags.most .read + turnaround := by
  obtain ⟨wait, called, granted, operations, operations', lag, hwait, hlag, hrun, hbegan, hsoon⟩ :=
    hsecond.asked
  have hsound := canStart_sound called (listens_mono hlistens hwait) hpreamble
    hfirst.stretched hfirst.drives lag operations hlag
  rw [hrun] at hsound
  rcases hsound rfl with hearly | hlate
  · change granted < first.rise + lags.most .read at hearly
    omega
  · change first.finish ≤ granted at hlate
    omega

/-- Frames of stations that have asked overlap only if they begin at about the same time. -/
theorem overlap_only_at_start (hlistens : Listens board lags stretch random)
    (hpreamble : 1 ≤ board.preamble)
    (hgranted : ∀ t ∈ transmissions, Granted board lags stretch random turnaround level t)
    {first second : OnWire} (hfirst : first ∈ transmissions)
    (hsecond : second ∈ transmissions) (hover : second.rise < first.finish)
    (hover' : first.rise < second.finish) :
    second.rise < first.rise + lags.most .read + turnaround ∧
      first.rise < second.rise + lags.most .read + turnaround :=
  ⟨rise_lt_of_not_over hlistens hpreamble (hgranted first hfirst) (hgranted second hsecond) hover,
    rise_lt_of_not_over hlistens hpreamble (hgranted second hsecond) (hgranted first hfirst) hover'⟩

theorem listens_uno : Listens {} BitBangReceive.unoLags 20 16 := by
  constructor <;> decide

/-- Two stations that ask at the same time. -/
def collision : List OnWire :=
  [([1, 2, 6, 111, 1, 60], 8700), ([2, 2, 6, 187, 1, 92], 8710)].map fun (data, rise) =>
    { data := data
      rise := rise
      wave := (waveform {} (sendFrame {} data)).map fun segment => (segment.1, segment.2 + 20) }

theorem granted_collision : ∀ t ∈ collision, Granted {} BitBangReceive.unoLags 20 16 100
    (fun time => collision.any fun t => Waveform.level t.rise t.wave time) t := by
  intro t ht
  have hrun : canStart {} 16
      { level := fun time => collision.any fun t => Waveform.level t.rise t.wave time
        lag := fun kind _ => BitBangReceive.unoLags.least kind } { time := 0 } =
      (true, { time := 8688, operations := 29 }) := by decide +kernel
  have hrise : 8688 ≤ t.rise ∧ t.rise ≤ 8688 + 100 := by
    revert t
    decide +kernel
  refine ⟨?_, fun time hhigh => List.any_eq_true.mpr ⟨t, ht, hhigh⟩, 16, 0, 8688, 0, 29, _, le_rfl,
    fun kind _ => ?_, hrun, hrise.1, hrise.2⟩
  · obtain ⟨⟨data, rise⟩, -, rfl⟩ := List.mem_map.mp ht
    exact Waveform.Stretched.longer le_rfl _
  · cases kind <;> exact ⟨by decide, by decide⟩

theorem overlap_only_at_start_collision :
    collision[1].rise < collision[0].rise + 20 + 100 ∧
      collision[0].rise < collision[1].rise + 20 + 100 :=
  overlap_only_at_start listens_uno (by decide) granted_collision (List.getElem_mem _)
    (List.getElem_mem _) (by decide +kernel) (by decide +kernel)

end Pjon.Proofs.CanStart
