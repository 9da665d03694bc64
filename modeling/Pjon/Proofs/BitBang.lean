import Pjon.Spec.BitBang
import Pjon.Lib.Clock
import Mathlib.Tactic.Common
import Mathlib.Tactic.Ring
/-!
# What is heard over a pin

A receiver that has seen the falling edge of a padding bit knows where the next bits are, up to its
own lags and those of the transmitter.  Each byte has a padding bit of its own, so that they do not
add up over a frame.
-/

namespace Pjon.Proofs.BitBang

open Pjon.Lib Pjon.Lib.Timed Pjon.Model.SoftwareBitBang Pjon.Spec

variable {board : Board} {lags : Lags Operation} {level : Nat → Bool}

/-! ## The clock -/

section Clock

variable {p start now n : Nat}

/-- Two looks at the clock whose ticks are not too far apart. -/
theorem toNat_sub (hp : 0 < p) (hle : start ≤ now) (hrange : now < start + 4294967296) :
    (UInt32.ofNat (now / p) - UInt32.ofNat (start / p)).toNat = now / p - start / p := by
  have hmore : now ≤ start + (now - start) * p := by
    have hmul := Nat.le_mul_of_pos_right (now - start) hp
    omega
  have hdiv : now / p ≤ start / p + (now - start) := by
    rw [← Nat.add_mul_div_right _ _ hp]
    exact Nat.div_le_div_right hmore
  rw [Clock.toNat_ofNat_sub_ofNat (Nat.div_le_div_right hle)]
  exact Nat.mod_eq_of_lt (by omega)

theorem le_elapsed (hp : 0 < p) (h : start + n * p ≤ now) : n ≤ now / p - start / p := by
  have hdiv := Nat.div_le_div_right (c := p) h
  rw [Nat.add_mul_div_right _ _ hp] at hdiv
  omega

theorem elapsed_le (hp : 0 < p) (h : now ≤ start + n * p) : now / p - start / p ≤ n := by
  have hdiv := Nat.div_le_div_right (c := p) h
  rw [Nat.add_mul_div_right _ _ hp] at hdiv
  omega

theorem elapsed_lt (hp : 0 < p) (h : now + p ≤ start + n * p) (hn : 0 < n) :
    now / p - start / p < n := by
  have hdiv := Nat.div_le_div_right (c := p) h
  rw [Nat.add_mul_div_right _ _ hp, Nat.add_div_right _ hp] at hdiv
  omega

end Clock

/-! ## Synchronization -/

/-- The pin is high for so long, and then low for as long as a bit is. -/
structure Pad (board : Board) (level : Nat → Bool) (rise fall : Nat) : Prop where
  high : ∀ time, rise ≤ time → time < fall → level time = true
  low : ∀ time, fall ≤ time → time < fall + ticks board board.bitWidth → level time = false

theorem halves (board : Board) :
    2 * ticks board (board.bitWidth / 2) ≤ ticks board board.bitWidth := by
  unfold ticks
  rw [← Nat.mul_assoc]
  exact Nat.mul_le_mul_right _ (Nat.mul_div_le _ 2)

/-- The loop ends behind the falling edge, or when the spacer has elapsed.  Each turn looks at the
clock later than the one before it, so it ends. -/
theorem whileHigh_within (hp : 0 < board.perMicro) (hreads : 1 ≤ lags.least .read)
    {rise fall start checked time spacer fuel : Nat} (hpad : Pad board level rise fall)
    (hrise : rise ≤ time) (hstart : start ≤ checked) (hchecked : checked ≤ time)
    (htime : time + 1 ≤ fall + lags.most .read + lags.most .micros)
    (hshort : lags.most .read + lags.most .micros ≤ ticks board board.bitWidth)
    (hrange : fall + lags.most .read ≤ start + 4294967296)
    (hfuel : start + (spacer + 1) * board.perMicro ≤ checked + fuel)
    (helapsed : checked / board.perMicro - start / board.perMicro ≤ spacer)
    {post : Unit → Nat → Prop}
    (hpost : ∀ time', fall + lags.least .read ≤ time' ∨
        start + ticks board spacer + 1 + lags.least .micros ≤ time' →
      time' + 1 ≤ fall + 2 * lags.most .read + lags.most .micros → post () time') :
    Within lags level (whileHigh board spacer (UInt32.ofNat (start / board.perMicro)) fuel) time
      post := by
  induction fuel generalizing checked time with
  | zero =>
      have hover : spacer + 1 ≤ checked / board.perMicro - start / board.perMicro :=
        le_elapsed hp hfuel
      omega
  | succ fuel ih =>
      refine within_step fun behind hleast hmost => ?_
      by_cases hhigh : time < fall
      · rw [hpad.high time hrise hhigh, if_pos rfl]
        refine within_step fun next hnext hnext' => ?_
        have hsub : (UInt32.ofNat (behind / board.perMicro) -
            UInt32.ofNat (start / board.perMicro)).toNat = _ := toNat_sub hp (by omega) (by omega)
        rw [hsub]
        split
        case isTrue hle => exact ih (by omega) (by omega) (by omega) (by omega) (by omega) hle
        case isFalse hgt =>
          refine within_pure (hpost next (Or.inr ?_) (by omega))
          have hover : start + ticks board spacer < behind := by
            by_contra hnot
            exact hgt (elapsed_le hp (Nat.le_of_not_lt hnot))
          omega
      · rw [hpad.low time (by omega) (by omega), if_neg Bool.false_ne_true]
        exact within_pure (hpost behind (Or.inl (by omega)) (by omega))

theorem pullDown_within {α : Type} {time : Nat} {next : Program α} {post : α → Nat → Prop}
    (h : ∀ time', time + lags.least .mode ≤ time' → time' ≤ time + 2 * lags.most .mode →
      Within lags level next time' post) :
    Within lags level (do
      pinMode
      if board.separatePins then pinMode
      next) time post := by
  refine within_step fun first hfirst hfirst' => ?_
  cases board.separatePins with
  | false => exact within_bind (within_pure (h first (by omega) (by omega)))
  | true => exact within_step fun second hsecond hsecond' => h second (by omega) (by omega)

variable {stretch window : Nat}

/-- `sync` behind its first look at the clock: what is low is left at once. -/
theorem low_within (htol : Tolerates board lags stretch window) {start time spacer : Nat}
    (hstart : start ≤ time) (htime : time ≤ start + lags.most .micros) (hlow : level time = false)
    {next : Program Bool} {post : Bool → Nat → Prop}
    (hpost : ∀ time', time + lags.least .read ≤ time' →
      time' ≤ time + lags.most .read + lags.most .micros → post false time') :
    Within lags level (do
      whileHigh board spacer (UInt32.ofNat (start / board.perMicro)) ((spacer + 1) * board.perMicro)
      let now ← micros board
      if (now - UInt32.ofNat (start / board.perMicro)).toNat < board.acceptance then return false
      else next) time post := by
  have hp := htol.perMicro_pos
  have hquick := htol.quick
  have hrange := htol.range
  have haccept : ticks board board.acceptance ≤ ticks board board.bitSpacer :=
    Nat.mul_le_mul_right _ htol.acceptance_le
  have hpositive : 0 < board.acceptance := Nat.pos_of_ne_zero fun hzero => by
    rw [hzero, ticks, Nat.zero_mul] at hquick
    omega
  rw [← Nat.succ_pred_eq_of_pos (Nat.mul_pos (Nat.succ_pos spacer) hp)]
  refine within_bind (within_step fun exit hexit hexit' => ?_)
  rw [hlow, if_neg Bool.false_ne_true]
  refine within_pure (within_step fun now hnow hnow' => ?_)
  have hsub : (UInt32.ofNat (exit / board.perMicro) -
      UInt32.ofNat (start / board.perMicro)).toNat = _ := toNat_sub hp (by omega) (by omega)
  have helapsed : exit / board.perMicro - start / board.perMicro < board.acceptance :=
    elapsed_lt hp
      (by change exit + board.perMicro ≤ start + ticks board board.acceptance; omega) hpositive
  rw [hsub, if_pos helapsed]
  exact within_pure (hpost now (by omega) (by omega))

/-- Nothing is heard over a pin that is low. -/
theorem sync_low_within (htol : Tolerates board lags stretch window) {time spacer : Nat}
    (hlow : ∀ time', time + lags.least .mode + lags.least .micros ≤ time' → level time' = false)
    {post : Bool → Nat → Prop} (hpost : ∀ time', post false time') :
    Within lags level (sync board spacer) time post := by
  refine pullDown_within fun start hstart hstart' => ?_
  refine within_step fun first hfirst hfirst' => ?_
  exact low_within htol (by omega) (by omega) (hlow first (by omega)) fun time' _ _ => hpost time'

/-- A padding bit that is heard for long enough is synchronized to.  If it has not begun, nothing is
heard. -/
theorem sync_within (htol : Tolerates board lags stretch window) {rise fall time spacer : Nat}
    (hpad : Pad board level rise fall)
    (hidle : ∀ time', time + lags.least .mode + lags.least .micros ≤ time' → time' < rise →
      level time' = false)
    (hheard : time + 2 * lags.most .mode + ticks board board.acceptance ≤ fall)
    (hlong : fall ≤ rise + ticks board spacer + stretch) (hspacer : board.bitSpacer ≤ spacer)
    (hmax : ticks board spacer ≤ ticks board (board.bitSpacer * board.maxPreamble))
    {post : Bool → Nat → Prop}
    (hfail : ∀ time', time + lags.least .mode + lags.least .micros < rise →
      time + lags.least .read ≤ time' → time' + 1 ≤ rise + lags.most .read + lags.most .micros →
      post false time')
    (hsync : ∀ time', rise ≤ time + 2 * lags.most .mode + lags.most .micros →
      fall + ticks board board.readAfter + ticks board (board.bitWidth / 2) +
        2 * lags.least .micros + 2 * lags.least .delay + lags.least .read ≤
          time' + stretch + lags.most .micros →
      time' + 1 ≤ fall + ticks board board.readAfter + ticks board (board.bitWidth / 2) +
        3 * lags.most .read + 2 * lags.most .micros + 2 * lags.most .delay → post true time') :
    Within lags level (sync board spacer) time post := by
  have hbit := halves board
  have hp := htol.perMicro_pos
  have hrange := htol.range
  have hquick := htol.quick
  have hlow_from := htol.low_from
  have hlow_to := htol.low_to
  have haccept : ticks board board.acceptance ≤ ticks board board.bitSpacer :=
    Nat.mul_le_mul_right _ htol.acceptance_le
  have hspace : ticks board board.bitSpacer ≤ ticks board spacer :=
    Nat.mul_le_mul_right _ hspacer
  have hafter : board.readAfter * board.perMicro = ticks board board.readAfter := rfl
  refine pullDown_within fun start hstart hstart' => ?_
  refine within_step fun first hfirst hfirst' => ?_
  by_cases hbegun : first < rise
  · exact low_within htol (by omega) (by omega) (hidle first (by omega) hbegun)
      fun time' hfrom hto => hfail time' (by omega) (by omega) (by omega)
  · refine within_bind (whileHigh_within hp htol.reads hpad (by omega) le_rfl (by omega) (by omega)
      (by omega) (by omega) (by omega) (by omega) fun exit hexit hexit' => ?_)
    refine within_step fun now hnow hnow' => ?_
    have hsub : (UInt32.ofNat (exit / board.perMicro) -
        UInt32.ofNat (start / board.perMicro)).toNat = _ := toNat_sub hp (by omega) (by omega)
    have helapsed : board.acceptance ≤ exit / board.perMicro - start / board.perMicro :=
      le_elapsed hp (by change start + ticks board board.acceptance ≤ exit; omega)
    rw [hsub, if_neg (Nat.not_lt.mpr helapsed)]
    refine within_step fun middle hmiddle hmiddle' => ?_
    refine within_step fun behind hbehind hbehind' => ?_
    rw [hpad.low middle (by omega) (by omega), if_neg Bool.false_ne_true]
    refine within_step fun done hdone hdone' => ?_
    have hticks : board.bitWidth / 2 * board.perMicro = ticks board (board.bitWidth / 2) := rfl
    exact within_pure (hsync done (by omega) (by omega) (by omega))

/-! ## Bytes -/

/-- The bits that `readBits` has read, from bit `i` on. -/
def assembled : Nat → UInt8 → List Bool → UInt8
  | _, byteValue, [] => byteValue
  | i, byteValue, bit :: bits =>
    assembled (i + 1) (byteValue + (bit.toUInt8 <<< UInt8.ofNat i)) bits

def firstBits (b : UInt8) : List Bool := (List.range 7).map fun i => b.toNat.testBit i

theorem assembled_firstBits (b : UInt8) :
    assembled 0 0 (firstBits b) + ((b.toNat.testBit 7).toUInt8 <<< 7) = b := by
  have hall : ∀ n < 256, assembled 0 0 (firstBits (UInt8.ofNat n)) +
      (((UInt8.ofNat n).toNat.testBit 7).toUInt8 <<< 7) = UInt8.ofNat n := by decide +kernel
  have hb := hall b.toNat b.toNat_lt
  rwa [UInt8.ofNat_toNat] at hb

/-- A waveform of bits, each of which is kept for its width. -/
def bitsWave (board : Board) (bits : List Bool) : Waveform :=
  bits.map fun bit => (bit, ticks board board.bitWidth)

theorem bitsWave_cons (bit : Bool) (bits : List Bool) : bitsWave board (bit :: bits) =
    (bit, ticks board board.bitWidth) :: bitsWave board bits := rfl

theorem readBits_within (bits : List Bool) {i : Nat} {byteValue : UInt8} {start time : Nat}
    {wave rest : Waveform} (hwave : Waveform.Stretched stretch (bitsWave board bits) wave)
    (hlevel : Waveform.Carries level start (wave ++ rest))
    (hfrom : start + bits.length * stretch ≤ time)
    (hto : time + bits.length * (lags.most .read + lags.most .delay) <
      start + ticks board board.bitWidth)
    {post : UInt8 → Nat → Prop}
    (hpost : ∀ start' time', Waveform.Carries level start' rest → start' ≤ time' →
      time' < start' + ticks board board.bitWidth →
      start + bits.length * ticks board board.bitWidth ≤ start' →
      start' ≤ start + bits.length * ticks board board.bitWidth + bits.length * stretch →
      time + bits.length * ticks board board.bitWidth +
        bits.length * (lags.least .read + lags.least .delay) ≤ time' →
      time' ≤ time + bits.length * ticks board board.bitWidth +
        bits.length * (lags.most .read + lags.most .delay) →
      post (assembled i byteValue bits) time') :
    Within lags level (readBits board bits.length i byteValue) time post := by
  induction bits generalizing i byteValue start time wave with
  | nil =>
      cases hwave
      simp only [List.length_nil, Nat.zero_mul, Nat.add_zero] at hfrom hto hpost
      exact within_pure (hpost start time hlevel hfrom hto le_rfl le_rfl le_rfl le_rfl)
  | cons bit bits ih =>
      rw [bitsWave_cons] at hwave
      obtain ⟨length, wave, rfl, hleast, hmost, hwave⟩ := Waveform.Stretched.cons_left hwave
      simp only [List.length_cons, Nat.succ_mul] at hfrom hto hpost
      refine within_step fun behind hbehind hbehind' => ?_
      have hread : level time = bit := hlevel.here (by omega) (by omega)
      rw [hread]
      refine within_step fun next hnext hnext' => ?_
      have hticks : board.bitWidth * board.perMicro = ticks board board.bitWidth := rfl
      refine ih hwave hlevel.next (by omega) (by omega)
        fun start' time' hlevel' h₁ h₂ h₃ h₄ h₅ h₆ => ?_
      exact hpost start' time' hlevel' h₁ h₂ (by omega) (by omega) (by omega) (by omega)

theorem pulse_one (board : Board) : pulse board 1 = pad board board.bitSpacer := by
  rw [pulse, if_neg (fun h => absurd h.2 (by decide))]
  rfl

theorem waveform_sendByte (b : UInt8) : waveform board (sendByte board b) =
    (true, ticks board board.bitSpacer) :: (false, ticks board board.bitWidth) ::
      (bitsWave board (firstBits b) ++ bitsWave board [b.toNat.testBit 7]) := by
  rw [sendByte, pulse_one]
  rfl

theorem pad_of_carries {rise high low : Nat} {rest : Waveform}
    (hlevel : Waveform.Carries level rise ((true, high) :: (false, low) :: rest))
    (hlow : ticks board board.bitWidth ≤ low) : Pad board level rise (rise + high) where
  high := fun _ hrise hfall => hlevel.here hrise hfall
  low := fun _ hfall hend => hlevel.next.here hfall (by omega)

/-- The last bit is read as the others are, and then the end of the byte is waited for. -/
theorem readByte_within (b : UInt8) {start time : Nat} {wave rest : Waveform}
    (hwave : Waveform.Stretched stretch
      (bitsWave board (firstBits b) ++ bitsWave board [b.toNat.testBit 7]) wave)
    (hlevel : Waveform.Carries level start (wave ++ rest))
    (hfrom : start + 7 * stretch ≤ time + ticks board (board.bitWidth / 2) + lags.least .delay)
    (hto : time + ticks board (board.bitWidth / 2) + 7 * lags.most .read + 8 * lags.most .delay <
      start + ticks board board.bitWidth)
    {post : UInt8 → Nat → Prop}
    (hpost : ∀ rise' time', Waveform.Carries level rise' rest →
      start + 8 * ticks board board.bitWidth ≤ rise' →
      rise' ≤ start + 8 * ticks board board.bitWidth + 8 * stretch →
      time + 2 * ticks board (board.bitWidth / 2) + 7 * ticks board board.bitWidth +
        8 * lags.least .read + 9 * lags.least .delay ≤ time' →
      time' ≤ time + 2 * ticks board (board.bitWidth / 2) + 7 * ticks board board.bitWidth +
        8 * lags.most .read + 9 * lags.most .delay → post b time') :
    Within lags level (readByte board) time post := by
  obtain ⟨first, last, rfl, hfirst, hlast⟩ := Waveform.Stretched.append_left hwave
  rw [bitsWave_cons] at hlast
  obtain ⟨final, nothing, rfl, hfinal, hfinal', hnothing⟩ := Waveform.Stretched.cons_left hlast
  obtain rfl := List.forall₂_nil_left_iff.mp hnothing
  rw [List.append_assoc] at hlevel
  have hhalf : board.bitWidth / 2 * board.perMicro = ticks board (board.bitWidth / 2) := rfl
  refine within_step fun first hdelay hdelay' => ?_
  refine within_bind (readBits_within (firstBits b) hfirst hlevel
    (by change start + 7 * stretch ≤ first; omega)
    (by change first + 7 * (lags.most .read + lags.most .delay) < _; omega)
    fun start' time' hlevel' hfrom' hto' hstart hstart' htime htime' => ?_)
  change start + 7 * _ ≤ start' at hstart
  change start' ≤ start + 7 * _ + 7 * stretch at hstart'
  change first + 7 * _ + 7 * _ ≤ time' at htime
  change time' ≤ first + 7 * _ + 7 * _ at htime'
  refine within_step fun read hread hread' => ?_
  have hbit : level time' = b.toNat.testBit 7 := hlevel'.here hfrom' (by omega)
  rw [hbit]
  refine within_step fun done hdone hdone' => ?_
  rw [assembled_firstBits b]
  exact within_pure (hpost (start' + final) done hlevel'.next (by omega) (by omega) (by omega)
    (by omega))

/-! ## Frames -/

def bytesWave (board : Board) (data : List UInt8) : Waveform :=
  data.flatMap fun b => waveform board (sendByte board b)

theorem bytesWave_cons (b : UInt8) (data : List UInt8) : bytesWave board (b :: data) =
    waveform board (sendByte board b) ++ bytesWave board data := rfl

/-- The bytes that the wire carries from now on.  The padding bit of the first one has begun when a
receiver looks for it, and is still long enough. -/
def Ahead (board : Board) (lags : Lags Operation) (stretch : Nat) (level : Nat → Bool)
    (data : List UInt8) (time : Nat) : Prop :=
  ∃ rise wave, Waveform.Stretched stretch (bytesWave board data) wave ∧
    Waveform.Carries level rise wave ∧ rise ≤ time + lags.least .mode + lags.least .micros ∧
    time + 2 * lags.most .mode + ticks board board.acceptance ≤ rise + ticks board board.bitSpacer

/-- A byte is read, and the next one is ahead when the caller looks for it. -/
theorem receiveByte_within (htol : Tolerates board lags stretch window) {b : UInt8}
    {data : List UInt8} {time : Nat} (hahead : Ahead board lags stretch level (b :: data) time)
    {post : UInt16 → Nat → Prop}
    (hpost : ∀ time', (∀ later, time' + lags.least .caller ≤ later →
      later ≤ time' + lags.most .caller → Ahead board lags stretch level data later) →
      post b.toUInt16 time') :
    Within lags level (receiveByte board) time post := by
  obtain ⟨rise, wave, hwave, hlevel, hbegun, hheard⟩ := hahead
  rw [bytesWave_cons] at hwave
  obtain ⟨wave, rest, rfl, hwave, hrest⟩ := Waveform.Stretched.append_left hwave
  rw [waveform_sendByte] at hwave
  obtain ⟨high, wave, rfl, hhigh, hhigh', hwave⟩ := Waveform.Stretched.cons_left hwave
  obtain ⟨low, wave, rfl, hlow, hlow', hwave⟩ := Waveform.Stretched.cons_left hwave
  have hbits_from := htol.bits_from
  have hbits_to := htol.bits_to
  have hbyte_from := htol.byte_from
  have hbyte_to := htol.byte_to
  have hmax : ticks board board.bitSpacer ≤ ticks board (board.bitSpacer * board.maxPreamble) :=
    Nat.mul_le_mul_right _
      (Nat.le_mul_of_pos_right _ (Nat.le_trans htol.preamble_pos htol.preamble_le))
  refine within_bind (sync_within htol (pad_of_carries hlevel hlow) (by omega) (by omega) (by omega)
    le_rfl hmax (by omega) fun time' _ hfrom hto => ?_)
  rw [if_pos rfl]
  refine within_bind (readByte_within b hwave hlevel.next.next (by omega) (by omega)
    fun rise' done hlevel' h₁ h₂ h₃ h₄ => within_pure (hpost done fun later hlater hlater' => ?_))
  exact ⟨rise', rest, hrest, hlevel', by omega, by omega⟩

/-- Behind the last byte, none is heard. -/
theorem receiveByte_low_within (htol : Tolerates board lags stretch window) {time : Nat}
    (hahead : Ahead board lags stretch level [] time) {post : UInt16 → Nat → Prop}
    (hpost : ∀ time', post swbbFail time') : Within lags level (receiveByte board) time post := by
  obtain ⟨rise, wave, hwave, hlevel, hbegun, -⟩ := hahead
  obtain rfl := List.forall₂_nil_left_iff.mp hwave
  refine within_bind (sync_low_within htol (fun time' hfrom => hlevel.nil (by omega))
    fun time' => ?_)
  rw [if_neg Bool.false_ne_true]
  exact within_pure (hpost time')

theorem waveform_sendFrame (data : List UInt8) : waveform board (sendFrame board data) =
    (true, ticks board (board.bitSpacer * board.preamble)) ::
      (false, ticks board board.bitWidth) :: (true, ticks board board.bitSpacer) ::
      (false, ticks board board.bitWidth) :: (true, ticks board board.bitSpacer) ::
      (false, ticks board board.bitWidth) :: bytesWave board data := by
  have hpulse : pulse board 3 = pad board (board.bitSpacer * board.preamble) ++
      (pad board board.bitSpacer ++ pad board board.bitSpacer) := by
    unfold pulse
    split
    case isTrue hlong => rfl
    case isFalse hshort =>
      have hone : board.preamble = 1 := by_contra fun hne => hshort ⟨hne, rfl⟩
      rw [hone, Nat.mul_one]
      rfl
  rw [sendFrame, hpulse, waveform, List.map_append, List.map_flatMap]
  rfl

/-- The time of a frame initializer whose beginning is heard is consistent. -/
theorem frameInitializer_within (htol : Tolerates board lags stretch window) {rise time : Nat}
    {data : List UInt8} {wave : Waveform}
    (hwave : Waveform.Stretched stretch (waveform board (sendFrame board data)) wave)
    (hlevel : Waveform.Carries level rise wave)
    (hidle : ∀ time', time ≤ time' → time' < rise → level time' = false)
    (hwindow : time ≤ rise + window) {post : Bool → Nat → Prop}
    (hfail : ∀ time', time < rise → time < time' →
      time' + 1 ≤ rise + lags.most .read + lags.most .micros → post false time')
    (hheard : ∀ time', Ahead board lags stretch level data time' → post true time') :
    Within lags level (frameInitializer board) time post := by
  rw [waveform_sendFrame] at hwave
  obtain ⟨high₁, wave, rfl, hhigh₁, hhigh₁', hwave⟩ := Waveform.Stretched.cons_left hwave
  obtain ⟨low₁, wave, rfl, hlow₁, hlow₁', hwave⟩ := Waveform.Stretched.cons_left hwave
  obtain ⟨high₂, wave, rfl, hhigh₂, hhigh₂', hwave⟩ := Waveform.Stretched.cons_left hwave
  obtain ⟨low₂, wave, rfl, hlow₂, hlow₂', hwave⟩ := Waveform.Stretched.cons_left hwave
  obtain ⟨high₃, wave, rfl, hhigh₃, hhigh₃', hwave⟩ := Waveform.Stretched.cons_left hwave
  obtain ⟨low₃, wave, rfl, hlow₃, hlow₃', hwave⟩ := Waveform.Stretched.cons_left hwave
  have hp := htol.perMicro_pos
  have hreads := htol.reads
  have hrange := htol.range
  have hnext_from := htol.next_from
  have hnext_to := htol.next_to
  have hwindow_pad := htol.window_pad
  have hwindow_initializer := htol.window_initializer
  have hspacer : board.bitSpacer ≤ board.bitSpacer * board.preamble :=
    Nat.le_mul_of_pos_right _ htol.preamble_pos
  have hpreamble : board.bitSpacer * board.preamble ≤ board.bitSpacer * board.maxPreamble :=
    Nat.mul_le_mul_left _ htol.preamble_le
  have hspacer' : ticks board board.bitSpacer ≤ ticks board (board.bitSpacer * board.preamble) :=
    Nat.mul_le_mul_right _ hspacer
  have hpreamble' : ticks board (board.bitSpacer * board.preamble) ≤
      ticks board (board.bitSpacer * board.maxPreamble) := Nat.mul_le_mul_right _ hpreamble
  refine within_step fun begun hbegun hbegun' => ?_
  refine within_bind (sync_within htol (pad_of_carries hlevel hlow₁)
    (fun time' hfrom hto => hidle time' (by omega) hto) (by omega) (by omega)
    (Nat.le_trans hspacer hpreamble) le_rfl (fun time' hbefore hlater hsoon => ?_)
    fun first hearing hfirst hfirst' => ?_)
  · rw [if_neg Bool.false_ne_true]
    exact within_pure (hfail time' (by omega) (by omega) hsoon)
  rw [if_pos rfl]
  refine within_bind (sync_within htol (pad_of_carries hlevel.next.next hlow₂)
    (by omega) (by omega) (by omega) le_rfl (Nat.le_trans hspacer' hpreamble') (by omega)
    fun second _ hsecond hsecond' => ?_)
  rw [if_pos rfl]
  refine within_bind (sync_within htol (pad_of_carries hlevel.next.next.next.next hlow₃)
    (by omega) (by omega) (by omega) le_rfl (Nat.le_trans hspacer' hpreamble') (by omega)
    fun third _ hthird hthird' => ?_)
  rw [if_pos rfl]
  refine within_step fun now hnow hnow' => ?_
  have hsub : (UInt32.ofNat (third / board.perMicro) -
      UInt32.ofNat (time / board.perMicro)).toNat = _ := toNat_sub hp (by omega) (by omega)
  have helapsed : board.bitWidth * 3 + board.bitSpacer * 3 - board.acceptance ≤
      third / board.perMicro - time / board.perMicro := le_elapsed hp (by
    have hticks : (board.bitWidth * 3 + board.bitSpacer * 3 - board.acceptance) * board.perMicro =
        3 * ticks board board.bitWidth + 3 * ticks board board.bitSpacer -
          ticks board board.acceptance := by
      simp only [ticks, Nat.sub_mul, Nat.add_mul]
      ring_nf
    omega)
  rw [hsub, decide_eq_true helapsed]
  exact within_pure (hheard now
    ⟨_, wave, hwave, hlevel.next.next.next.next.next.next, by omega, by omega⟩)

/-- No byte is taken for a failure. -/
theorem toUInt16_ne_swbbFail (b : UInt8) : b.toUInt16 ≠ swbbFail := fun heq => by
  have hlt := b.toNat_lt
  have hnat := congrArg UInt16.toNat heq
  rw [UInt8.toNat_toUInt16] at hnat
  change b.toNat = 65535 at hnat
  omega

/-- `receive_frame` behind the frame initializer. -/
theorem heardByte_within (htol : Tolerates board lags stretch window) {b : UInt8}
    {data : List UInt8} {time : Nat} (hahead : Ahead board lags stretch level (b :: data) time)
    {post : Option UInt8 → Nat → Prop}
    (hpost : ∀ time', (∀ later, time' + lags.least .caller ≤ later →
      later ≤ time' + lags.most .caller → Ahead board lags stretch level data later) →
      post (some b) time') :
    Within lags level (do
      let result ← receiveByte board
      return if result = swbbFail then none else some result.toUInt8) time post := by
  refine within_bind (receiveByte_within htol hahead fun time' hnext => ?_)
  rw [if_neg (toUInt16_ne_swbbFail b), UInt8.toUInt8_toUInt16]
  exact within_pure (hpost time' hnext)

theorem receiveFrame_ahead_within (htol : Tolerates board lags stretch window) {b : UInt8}
    {data : List UInt8} {time : Nat} (hahead : Ahead board lags stretch level (b :: data) time)
    {post : Option UInt8 → Nat → Prop}
    (hpost : ∀ time', (∀ later, time' + lags.least .caller ≤ later →
      later ≤ time' + lags.most .caller → Ahead board lags stretch level data later) →
      post (some b) time') :
    Within lags level (receiveFrame board false) time post := by
  rw [receiveFrame, if_neg Bool.false_ne_true]
  refine within_bind (within_pure ?_)
  rw [if_pos rfl]
  exact heardByte_within htol hahead hpost

theorem receiveFrame_low_within (htol : Tolerates board lags stretch window) {time : Nat}
    (hahead : Ahead board lags stretch level [] time) {post : Option UInt8 → Nat → Prop}
    (hpost : ∀ time', post none time') :
    Within lags level (receiveFrame board false) time post := by
  rw [receiveFrame, if_neg Bool.false_ne_true]
  refine within_bind (within_pure ?_)
  rw [if_pos rfl]
  refine within_bind (receiveByte_low_within htol hahead fun time' => ?_)
  rw [if_pos rfl]
  exact within_pure (hpost time')

/-- The first byte of a frame whose beginning is heard. -/
theorem receiveFrame_first_within (htol : Tolerates board lags stretch window) {rise time : Nat}
    {b : UInt8} {data : List UInt8} {wave : Waveform}
    (hwave : Waveform.Stretched stretch (waveform board (sendFrame board (b :: data))) wave)
    (hlevel : Waveform.Carries level rise wave)
    (hidle : ∀ time', time ≤ time' → time' < rise → level time' = false)
    (hwindow : time ≤ rise + window) {post : Option UInt8 → Nat → Prop}
    (hfail : ∀ time', time < rise → time < time' →
      time' + 1 ≤ rise + lags.most .read + lags.most .micros → post none time')
    (hpost : ∀ time', (∀ later, time' + lags.least .caller ≤ later →
      later ≤ time' + lags.most .caller → Ahead board lags stretch level data later) →
      post (some b) time') :
    Within lags level (receiveFrame board true) time post := by
  rw [receiveFrame, if_pos rfl]
  refine within_bind (frameInitializer_within htol hwave hlevel hidle hwindow
    (fun time' hbefore hlater hsoon => ?_) fun time' hahead => ?_)
  · rw [if_neg Bool.false_ne_true]
    exact within_pure (hfail time' hbefore hlater hsoon)
  · rw [if_pos rfl]
    exact heardByte_within htol hahead hpost

end Pjon.Proofs.BitBang
