import Pjon.Proofs.BitBangReceive
/-!
# A response comes over a pin

An end that waits for a response is deaf while it asks for one, but not for longer than the first
padding bit of the response leaves.  The end that answers waits for its turn no longer than two
bits, whatever it hears.
-/

namespace Pjon.Proofs.BitBangResponse

open Pjon.Lib Pjon.Lib.Timed Pjon.Model Pjon.Model.SoftwareBitBang Pjon.Spec
open Pjon.Proofs.BitBang Pjon.Proofs.BitBangReceive

variable {board : Board} {lags : Lags Operation} {level : Nat → Bool}

/-! ## Waiting for the turn -/

theorem waitFor_within (hp : 0 < board.perMicro) {awaited : Bool} {duration start time fuel : Nat}
    (hstart : start ≤ time)
    (htime : time ≤ start + ticks board duration + lags.most .micros + lags.most .read)
    (hrange : ticks board duration + lags.most .micros + lags.most .read < 4294967296)
    {post : Unit → Nat → Prop}
    (hpost : ∀ time', time ≤ time' →
      time' ≤ start + ticks board duration + 2 * lags.most .micros + lags.most .read →
      post () time') :
    Within lags level
      (waitFor board awaited duration (UInt32.ofNat (start / board.perMicro)) fuel) time post := by
  induction fuel generalizing time with
  | zero => exact within_pure (hpost time le_rfl (by omega))
  | succ fuel ih =>
      refine within_step fun read hread hread' => ?_
      have hsub : (UInt32.ofNat (time / board.perMicro) -
          UInt32.ofNat (start / board.perMicro)).toNat = _ := toNat_sub hp hstart (by omega)
      rw [hsub]
      split_ifs with helapsed
      · have hearly : time < start + ticks board duration := by
          by_contra hover
          exact absurd (le_elapsed hp (Nat.le_of_not_lt hover)) (Nat.not_le.mpr helapsed)
        refine within_step fun again hagain hagain' => ?_
        split_ifs
        · exact within_pure (hpost again (by omega) (by omega))
        · exact ih (by omega) (by omega) fun time' hfrom hto => hpost time' (by omega) hto
      · exact within_pure (hpost read (by omega) (by omega))

/-- Whatever there is on the wire, the turn comes. -/
theorem awaitTurn_within (hp : 0 < board.perMicro)
    (hrange : ticks board board.bitWidth + lags.most .micros + lags.most .read < 4294967296)
    {time : Nat} : Within lags level (awaitTurn board) time
      fun _ time' => time ≤ time' ∧ time' ≤ time + turnaround board lags := by
  have hquarter : ticks board (board.bitWidth / 4) ≤ ticks board board.bitWidth :=
    Nat.mul_le_mul_right _ (Nat.div_le_self _ _)
  refine within_step fun first hfirst hfirst' => ?_
  refine within_step fun low hlow hlow' => ?_
  refine within_bind (waitFor_within hp (by omega) (by omega) hrange
    fun second hsecond hsecond' => ?_)
  refine within_step fun high hhigh hhigh' => ?_
  refine within_bind (waitFor_within hp (by omega) (by omega) (by omega)
    fun third hthird hthird' => ?_)
  refine within_operation fun done hdone hdone' => ?_
  unfold turnaround
  constructor <;> omega

/-! ## Waiting for the response -/

variable {stretch window : Nat} {response : UInt8} {rise time : Nat} {wave : Waveform}

theorem waveform_sendResponse (board : Board) (response : UInt8) :
    waveform board (sendResponse board response) = (true, ticks board board.bitSpacer) ::
      (false, ticks board board.bitWidth) :: bytesWave board [response] := by
  have hbytes : bytesWave board [response] = waveform board (sendByte board response) :=
    List.flatMap_singleton _ _
  rw [hbytes, sendResponse, pulse_one, waveform, List.map_append]
  rfl

/-- A response whose beginning is heard is received; if it has not begun, nothing is. -/
theorem listen_within (htol : Tolerates board lags stretch window)
    (hwave : Waveform.Stretched stretch (waveform board (sendResponse board response)) wave)
    (hlevel : Waveform.Carries level rise wave)
    (hidle : ∀ time', time ≤ time' → time' < rise → level time' = false)
    (hheard : time + 3 * lags.most .mode + ticks board board.acceptance ≤
      rise + ticks board board.bitSpacer) {post : UInt16 → Nat → Prop}
    (hfail : ∀ time', time < rise → time < time' →
      time' + 1 ≤ rise + lags.most .read + lags.most .micros → post swbbFail time')
    (hpost : ∀ time', post response.toUInt16 time') :
    Within lags level (listen board) time post := by
  rw [waveform_sendResponse] at hwave
  obtain ⟨high, wave, rfl, hhigh, hhigh', hwave⟩ := Waveform.Stretched.cons_left hwave
  obtain ⟨low, wave, rfl, hlow, hlow', hwave⟩ := Waveform.Stretched.cons_left hwave
  have hreads := htol.reads
  have hnext_from := htol.next_from
  have hnext_to := htol.next_to
  have hmax : ticks board board.bitSpacer ≤ ticks board (board.bitSpacer * board.maxPreamble) :=
    Nat.mul_le_mul_right _
      (Nat.le_mul_of_pos_right _ (Nat.le_trans htol.preamble_pos htol.preamble_le))
  refine within_step fun first hfirst hfirst' => ?_
  refine within_bind (sync_within htol (pad_of_carries hlevel hlow)
    (fun time' hfrom hto => hidle time' (by omega) hto) (by omega) (by omega) le_rfl hmax
    (fun time' hbefore hlater hsoon => ?_) fun time' _ hfrom hto => ?_)
  · rw [if_neg Bool.false_ne_true]
    exact within_pure (hfail time' (by omega) (by omega) hsoon)
  · rw [if_pos rfl]
    exact receiveByte_within htol ⟨_, wave, hwave, hlevel.next.next, by omega, by omega⟩
      fun done _ => hpost done

theorem ask_within {post : Unit → Nat → Prop}
    (hpost : ∀ time', time ≤ time' → time' ≤ time + ticks board (board.bitWidth / 4) +
      lags.most .delay + 3 * lags.most .mode → post () time') :
    Within lags level (ask board) time post := by
  have hticks : board.bitWidth / 4 * board.perMicro = ticks board (board.bitWidth / 4) := rfl
  refine within_step fun first hfirst hfirst' => ?_
  refine within_step fun second hsecond hsecond' => ?_
  refine within_step fun third hthird hthird' => ?_
  exact within_operation fun done hdone hdone' => hpost done (by omega) (by omega)

section Loop

variable (htol : Tolerates board lags stretch window) (hhears : HearsResponse board lags)
  {timeout start turns : Nat}
  (hwave : Waveform.Stretched stretch (waveform board (sendResponse board response)) wave)
  (hlevel : Waveform.Carries level rise wave)
  (hlasts : rise + deafness board lags + board.perMicro ≤ start + ticks board timeout)
  (hrange : ticks board timeout < 4294967296)

include htol hhears hwave hlevel hlasts hrange

/-- A turn brings the response, or nothing if the response has not begun. -/
theorem responseTurn_within (hidle : ∀ time', time ≤ time' → time' < rise → level time' = false)
    (hstart : start ≤ time) (htime : time ≤ rise + deafness board lags)
    {post : UInt16 → Nat → Prop} (hpost : ∀ time', post response.toUInt16 time')
    (hnext : ∀ time', time < rise → time < time' → time' ≤ rise + deafness board lags →
      Within lags level
        (responseLoop board timeout (UInt32.ofNat (start / board.perMicro)) turns) time' post) :
    Within lags level
      (responseLoop board timeout (UInt32.ofNat (start / board.perMicro)) (turns + 1)) time
      post := by
  have hp := htol.perMicro_pos
  unfold HearsResponse at hhears
  have hsub : (UInt32.ofNat (time / board.perMicro) -
      UInt32.ofNat (start / board.perMicro)).toNat = _ := toNat_sub hp hstart (by omega)
  have hpositive : 0 < timeout := Nat.pos_of_ne_zero fun hzero => by
    rw [hzero, ticks, Nat.zero_mul] at hlasts
    omega
  have helapsed : time / board.perMicro - start / board.perMicro < timeout :=
    elapsed_lt hp (by change time + board.perMicro ≤ start + ticks board timeout; omega) hpositive
  refine within_step fun first hfirst hfirst' => ?_
  rw [hsub, if_pos helapsed]
  refine within_bind (listen_within htol hwave hlevel
    (fun time' hfrom hto => hidle time' (by omega) hto) (by omega)
    (fun time' hbefore hlater hsoon => ?_) fun time' => ?_)
  · rw [if_pos rfl]
    refine within_bind (ask_within fun again hagain hagain' => ?_)
    have hdeaf : again ≤ rise + deafness board lags := by
      unfold deafness
      omega
    exact hnext again (by omega) (by omega) hdeaf
  · rw [if_neg (toUInt16_ne_swbbFail response)]
    exact within_pure (hpost time')

/-- The turns before the response bring nothing, and the one that hears it is the last. -/
theorem responseLoop_within
    (hidle : ∀ time', time ≤ time' → time' < rise → level time' = false) (hstart : start ≤ time)
    (htime : time ≤ rise + deafness board lags) (hturns : rise ≤ time + turns) :
    Within lags level
      (responseLoop board timeout (UInt32.ofNat (start / board.perMicro)) (turns + 1)) time
      fun result _ => result = response.toUInt16 := by
  induction turns generalizing time with
  | zero =>
      refine responseTurn_within htol hhears hwave hlevel hlasts hrange hidle hstart htime
        (fun _ => rfl) fun time' hbefore _ _ => ?_
      omega
  | succ turns ih =>
      refine responseTurn_within htol hhears hwave hlevel hlasts hrange hidle hstart htime
        (fun _ => rfl) fun time' _ hlater hdeaf => ?_
      exact ih (fun time'' hfrom hto => hidle time'' (by omega) hto) (by omega) hdeaf (by omega)

end Loop

/-- A response that begins before the time is over is received. -/
theorem receiveResponse_within (htol : Tolerates board lags stretch window)
    (hhears : HearsResponse board lags) {timeout : Nat} (htime : time ≤ rise)
    (hwave : Waveform.Stretched stretch (waveform board (sendResponse board response)) wave)
    (hlasts : rise + deafness board lags + board.perMicro ≤ time + ticks board timeout)
    (hrange : ticks board timeout < 4294967296) :
    Within lags (Waveform.level rise wave) (receiveResponse board timeout) time
      fun result _ => result = response.toUInt16 := by
  have hdeaf : lags.most .mode + lags.most .micros ≤ deafness board lags := by
    unfold deafness
    omega
  have hloop {start : Nat} (hfrom : time ≤ start) (hto : start ≤ time + lags.most .mode) :
      Within lags (Waveform.level rise wave) (do
        let first ← micros board
        responseLoop board timeout first (timeout * board.perMicro + 1)) start
        fun result _ => result = response.toUInt16 := by
    have hfuel : timeout * board.perMicro = ticks board timeout := rfl
    refine within_step fun first hfirst hfirst' => ?_
    exact responseLoop_within htol hhears hwave (Waveform.carries_level rise wave)
      (by omega) hrange (fun time' _ hbefore => Waveform.level_before hbefore) (by omega)
      (by omega) (by omega)
  rw [receiveResponse]
  cases board.separatePins with
  | false => exact hloop le_rfl (by omega)
  | true => exact within_step fun first hfirst hfirst' => hloop (by omega) (by omega)

/-- Over a wire that stays low the wait comes to nothing. -/
theorem responseLoop_low_within (htol : Tolerates board lags stretch window)
    (hlow : ∀ time', level time' = false) {timeout turns : Nat} {start : UInt32} :
    Within lags level (responseLoop board timeout start turns) time
      fun result _ => result = swbbFail := by
  induction turns generalizing time with
  | zero => exact within_pure rfl
  | succ turns ih =>
      refine within_step fun first _ _ => ?_
      split_ifs
      · refine within_bind (within_step fun second _ _ => within_bind
          (sync_low_within htol (fun time' _ => hlow time') fun time' => ?_))
        rw [if_neg Bool.false_ne_true]
        refine within_pure ?_
        rw [if_pos rfl]
        exact within_bind (ask_within fun _ _ _ => ih)
      · exact within_pure rfl

theorem receiveResponse_low_within (htol : Tolerates board lags stretch window)
    (hlow : ∀ time', level time' = false) (timeout : Nat) :
    Within lags level (receiveResponse board timeout) time fun result _ => result = swbbFail := by
  rw [receiveResponse]
  cases board.separatePins with
  | false => exact within_step fun _ _ _ => responseLoop_low_within htol hlow
  | true =>
      exact within_step fun _ _ _ => within_step fun _ _ _ => responseLoop_low_within htol hlow

theorem awaitResponse_within {timeout : Nat} {result : UInt16}
    (h : Within lags level (receiveResponse board timeout) time fun response _ =>
      response = result) :
    Within lags level (awaitResponse board timeout) time
      fun code _ => code = if result.toNat = ack then ack else fail :=
  within_bind (Within.mono h fun _ _ hresult => within_pure (by rw [hresult]))

/-- The end that answers finds its turn early enough, and its response is received as it is.
Where none answers, none is received. -/
theorem response_arrives {lags' : Lags Operation} {level' : Nat → Bool} {timeout called : Nat}
    (htol : Tolerates board lags stretch window) (hhears : HearsResponse board lags)
    (hrange : ticks board timeout < 4294967296) (hcalled : time ≤ called)
    (hlasts : called + turnaround board lags' + deafness board lags + board.perMicro ≤
      time + ticks board timeout) :
    (Within lags' level' (awaitTurn board) called fun _ rise => ∀ wave,
      Waveform.Stretched stretch (waveform board (sendResponse board response)) wave →
        Within lags (Waveform.level rise wave) (receiveResponse board timeout) time
            (fun result _ => result = response.toUInt16) ∧
          Within lags (Waveform.level rise wave) (awaitResponse board timeout) time
            fun code _ => code = if response.toNat = ack then ack else fail) ∧
      Within lags (fun _ => false) (receiveResponse board timeout) time
          (fun result _ => result = swbbFail) ∧
        Within lags (fun _ => false) (awaitResponse board timeout) time
          fun code _ => code = fail := by
  have hbit : ticks board board.bitWidth + lags'.most .micros + lags'.most .read < 4294967296 := by
    unfold turnaround at hlasts
    omega
  constructor
  · refine Within.mono (awaitTurn_within htol.perMicro_pos hbit) fun _ rise hrise wave hwave => ?_
    obtain ⟨hfrom, hto⟩ := hrise
    have hreceived := receiveResponse_within htol hhears (Nat.le_trans hcalled hfrom) hwave
      (by omega) hrange
    have hawaited := awaitResponse_within hreceived
    rw [UInt8.toNat_toUInt16] at hawaited
    exact ⟨hreceived, hawaited⟩
  · have hnone : Within lags (fun _ => false) (receiveResponse board timeout) time
        fun result _ => result = swbbFail := receiveResponse_low_within htol (fun _ => rfl) timeout
    exact ⟨hnone, awaitResponse_within hnone⟩

theorem hearsResponse_uno : HearsResponse {} unoLags := by
  unfold HearsResponse
  decide

/-- The acknowledgement of a frame of ten bytes, 125 microseconds behind it. -/
theorem response_arrives_uno :
    (Within unoLags (Waveform.level 1000 []) (awaitTurn {}) 3000 fun _ rise => ∀ wave,
      Waveform.Stretched 20 (waveform {} (sendResponse {} 6)) wave →
        Within unoLags (Waveform.level rise wave) (receiveResponse {} (responseTimeout {} 10)) 1000
            (fun result _ => result = 6) ∧
          Within unoLags (Waveform.level rise wave) (awaitResponse {} (responseTimeout {} 10)) 1000
            fun code _ => code = ack) ∧
      Within unoLags (fun _ => false) (receiveResponse {} (responseTimeout {} 10)) 1000
          (fun result _ => result = swbbFail) ∧
        Within unoLags (fun _ => false) (awaitResponse {} (responseTimeout {} 10)) 1000
          fun code _ => code = fail :=
  response_arrives tolerates_uno hearsResponse_uno (by decide) (by decide) (by decide)

end Pjon.Proofs.BitBangResponse
