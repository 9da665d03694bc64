import Pjon.Model.BitBangReceive
import Pjon.Model.BitBangResponse
/-!
# Frames over a pin

What the timing of a board is for: a frame is heard although neither end keeps its time exactly.
-/

namespace Pjon.Spec

open Pjon.Lib Pjon.Model Pjon.Model.SoftwareBitBang

/-- In ticks. -/
def ticks (board : Board) (n : Nat) : Nat := n * board.perMicro

/-- The receiver's lags and the transmitter's, which keeps a level up to `stretch` ticks longer, are
such that the pin is read in the middle of the bits.  A receiver that is not yet in a frame looks
for one again within `window` ticks. -/
structure Tolerates (board : Board) (lags : Lags Operation) (stretch window : Nat) : Prop where
  reads : 1 ≤ lags.least .read
  perMicro_pos : 0 < board.perMicro
  /-- No delay is negative. -/
  readDelay_le : board.readDelay ≤ board.bitWidth / 2
  acceptance_le : board.acceptance ≤ board.bitSpacer
  preamble_pos : 1 ≤ board.preamble
  preamble_le : board.preamble ≤ board.maxPreamble
  /-- No clock wraps in a frame initializer. -/
  range : ticks board (board.bitSpacer * board.maxPreamble) + 5 * ticks board board.bitSpacer +
    10 * ticks board board.bitWidth + 6 * stretch < 4294967296
  /-- A low level is not taken for a padding bit. -/
  quick : lags.most .micros + lags.most .read + board.perMicro ≤ ticks board board.acceptance
  /-- Behind the falling edge of a padding bit, the low padding bit is read. -/
  low_from : stretch + lags.most .micros ≤
    ticks board board.readAfter + 2 * lags.least .micros + lags.least .delay
  low_to : ticks board board.readAfter + 2 * lags.most .read + 2 * lags.most .micros +
    lags.most .delay ≤ ticks board board.bitWidth
  /-- The next padding bit has begun when it is looked for, and is still long enough. -/
  next_from : ticks board board.bitWidth + 2 * stretch + lags.most .micros ≤
    ticks board board.readAfter + ticks board (board.bitWidth / 2) + 3 * lags.least .micros +
      2 * lags.least .delay + lags.least .read + lags.least .mode
  next_to : ticks board board.readAfter + ticks board (board.bitWidth / 2) + 3 * lags.most .read +
    3 * lags.most .micros + 2 * lags.most .delay + 2 * lags.most .mode +
      ticks board board.acceptance ≤ ticks board board.bitWidth + ticks board board.bitSpacer
  /-- No bit of a byte is read too early, and none too late. -/
  bits_from : ticks board board.bitWidth + 9 * stretch + lags.most .micros ≤
    ticks board board.readAfter + 2 * ticks board (board.bitWidth / 2) + 2 * lags.least .micros +
      3 * lags.least .delay + lags.least .read
  bits_to : ticks board board.readAfter + 2 * ticks board (board.bitWidth / 2) +
    10 * lags.most .read + 10 * lags.most .delay + 2 * lags.most .micros ≤
      2 * ticks board board.bitWidth
  /-- The caller takes no less and no more time between two bytes. -/
  byte_from : 2 * ticks board board.bitWidth + 10 * stretch + lags.most .micros ≤
    ticks board board.readAfter + 3 * ticks board (board.bitWidth / 2) + lags.least .caller +
      3 * lags.least .micros + 9 * lags.least .read + 11 * lags.least .delay + lags.least .mode
  byte_to : ticks board board.readAfter + 3 * ticks board (board.bitWidth / 2) +
    11 * lags.most .read + 11 * lags.most .delay + 2 * lags.most .micros + lags.most .caller +
      2 * lags.most .mode + ticks board board.acceptance ≤
        2 * ticks board board.bitWidth + ticks board board.bitSpacer
  /-- The padding bit that a frame starts with is heard for long enough. -/
  window_pad : window + lags.most .micros + 2 * lags.most .mode +
    ticks board board.acceptance ≤ ticks board board.bitSpacer
  window_initializer : window + ticks board board.bitWidth + stretch + lags.most .micros ≤
    ticks board board.readAfter + ticks board (board.bitWidth / 2) +
      ticks board board.acceptance + 2 * lags.least .micros + 2 * lags.least .delay +
        lags.least .read
  window_poll : lags.most .read + 2 * lags.most .micros + lags.most .caller ≤ window

/-- A byte a batch. -/
def bytewise (s : List UInt8) : Delivery := { bytes := s, batch := fun _ => 1 }

/-- The wire is low up to `rise`, and carries a frame from there.  It is `time`, and not too late to
hear the beginning. -/
structure Coming (board : Board) (stretch window : Nat) (level : Nat → Bool) (data : List UInt8)
    (rise time : Nat) : Prop where
  carries : ∃ wave, Waveform.Stretched stretch (waveform board (sendFrame board data)) wave ∧
    Waveform.Carries level rise wave
  idle : ∀ time', time ≤ time' → time' < rise → level time' = false
  window : time ≤ rise + window

/-- Between two looks at the pin a padding bit is not missed, and the looks go on for longer than
the bits of a byte. -/
structure Listens (board : Board) (lags : Lags Operation) (stretch random : Nat) : Prop where
  spacer : ticks board (board.bitSpacer / 2) + lags.most .delay + lags.most .read <
    ticks board board.bitSpacer
  width : ticks board board.bitWidth + lags.most .delay + lags.most .read <
    ticks board board.bitSpacer
  latency : ticks board board.latency + lags.most .delay + lags.most .read <
    ticks board board.bitSpacer
  random : ticks board random + lags.most .delay + lags.most .read < ticks board board.bitSpacer
  span : 9 * stretch ≤ ticks board (board.bitSpacer / 2) + ticks board (board.bitWidth / 2)

/-- A frame that a station sends from `rise` on. -/
structure OnWire where
  data : List UInt8
  rise : Nat
  wave : Waveform

def OnWire.finish (t : OnWire) : Nat := t.rise + Waveform.duration t.wave

/-- The station has been told that it may start, and has begun soon behind that. -/
structure Granted (board : Board) (lags : Lags Operation) (stretch random turnaround : Nat)
    (level : Nat → Bool) (t : OnWire) : Prop where
  stretched : Waveform.Stretched stretch (waveform board (sendFrame board t.data)) t.wave
  drives : ∀ time, Waveform.level t.rise t.wave time = true → level time = true
  asked : ∃ (wait called granted operations operations' : Nat) (lag : Operation → Nat → Nat),
    wait ≤ random ∧ (∀ kind k, lags.least kind ≤ lag kind k ∧ lag kind k ≤ lags.most kind) ∧
    canStart board wait { level := level, lag := lag }
        { time := called, operations := operations } =
      (true, { time := granted, operations := operations' }) ∧
    granted ≤ t.rise ∧ t.rise ≤ granted + turnaround

/-- How long an end that answers waits for its turn at most. -/
def turnaround (board : Board) (lags : Lags Operation) : Nat :=
  ticks board board.bitWidth + ticks board (board.bitWidth / 4) + 2 * lags.most .mode +
    4 * lags.most .micros + 2 * lags.most .read

/-- How long an end that waits does not listen at most. -/
def deafness (board : Board) (lags : Lags Operation) : Nat :=
  ticks board (board.bitWidth / 4) + lags.most .delay + 3 * lags.most .mode + lags.most .read +
    lags.most .micros

/-- Although it asks in between, an end that waits hears the first padding bit of a response for
long enough. -/
def HearsResponse (board : Board) (lags : Lags Operation) : Prop :=
  deafness board lags + lags.most .micros + 3 * lags.most .mode +
    ticks board board.acceptance ≤ ticks board board.bitSpacer

theorem coming_level {board : Board} {stretch window : Nat} {data : List UInt8} {wave : Waveform}
    {rise time : Nat}
    (hwave : Waveform.Stretched stretch (waveform board (sendFrame board data)) wave)
    (hwindow : time ≤ rise + window) :
    Coming board stretch window (Waveform.level rise wave) data rise time where
  carries := ⟨wave, hwave, Waveform.carries_level rise wave⟩
  idle := fun _ _ hbefore => Waveform.level_before hbefore
  window := hwindow

end Pjon.Spec
