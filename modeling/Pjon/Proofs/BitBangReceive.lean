import Pjon.Proofs.BitBang
import Pjon.Proofs.Composed
import Pjon.Proofs.DualUDP
/-!
# A packet comes over a pin

A receiver that hears the beginning of a frame does what it would with the bytes themselves.
-/

namespace Pjon.Proofs.BitBangReceive

open Pjon.Lib Pjon.Lib.Timed Pjon.Model Pjon.Model.SoftwareBitBang Pjon.Spec
open Pjon.Proofs.BitBang

variable {b : Build} {board : Board} {lags : Lags Operation} {level : Nat → Bool}
variable {stretch window : Nat}

section Fetch

variable {s : List UInt8} {i : Nat} {st : LoopState}

theorem receiveFrame_bytewise (hi : i < st.length) :
    (bytewise s).receiveFrame i (st.length - i) = (s.drop i).take 1 := by
  have hone : min (min (st.length - i) (fail - 1)) (max 1 1) = 1 := by
    have hfail : fail = 65535 := rfl
    omega
  change (s.drop i).take (min (min (st.length - i) (fail - 1)) (max 1 1)) = _
  rw [hone]

theorem fetch_bytewise_cons {byte : UInt8} {rest : List UInt8} (hi : i < st.length)
    (hbatch : st.batchLength = 0) (hdrop : s.drop i = byte :: rest) :
    Bus.fetch (bytewise s) i st =
      .ok { st with data := st.data.store i [byte], batchLength := 0 } := by
  rw [Bus.fetch, if_pos hbatch]
  simp only [receiveFrame_bytewise hi, hdrop]
  rfl

theorem fetch_bytewise_nil (hi : i < st.length) (hbatch : st.batchLength = 0)
    (hdrop : s.drop i = []) : Bus.fetch (bytewise s) i st = .error (fail, st.data) := by
  rw [Bus.fetch, if_pos hbatch]
  simp only [receiveFrame_bytewise hi, hdrop, List.take_nil, List.length_nil, or_true, if_true,
    Memory.store_nil]

end Fetch

/-! ## The loop -/

section Loop

variable {s : List UInt8} {todo i time : Nat} {st : LoopState} {bus : Bus b}

theorem receiveLoop_succ (hi : i < st.length) : bus.receiveLoop (bytewise s) (todo + 1) i st =
    ((Bus.fetch (bytewise s) i st).bind (bus.examine i)).bind
      (bus.receiveLoop (bytewise s) todo (i + 1)) := by
  rw [Bus.receiveLoop, boundedLoop, if_pos hi]
  rfl

/-- A turn whose byte has been read. -/
theorem turn_within {byte : UInt8} {rest : List UInt8} (hi : i < st.length)
    (hbatch : st.batchLength = 0) (hdrop : s.drop i = byte :: rest)
    (hexamined : DualUDP.Examined bus i st)
    (hnext : ∀ later, time + lags.least .caller ≤ later → later ≤ time + lags.most .caller →
      Ahead board lags stretch level rest later)
    (hloop : ∀ st' later, DualUDP.Examined bus (i + 1) st' → st'.batchLength = 0 →
      Ahead board lags stretch level rest later →
      Within lags level (receiveLoop board bus todo (i + 1) st') later
        fun result _ => result = bus.receiveLoop (bytewise s) todo (i + 1) st') :
    Within lags level
      (match (Except.ok { st with data := st.data.store i [byte], batchLength := 0 }).bind
        (bus.examine i) with
      | .error early => return .error early
      | .ok st => do
        caller
        receiveLoop board bus todo (i + 1) st) time
      fun result _ => result = bus.receiveLoop (bytewise s) (todo + 1) i st := by
  rw [receiveLoop_succ hi, fetch_bytewise_cons hi hbatch hdrop]
  cases hturn : (Except.ok { st with data := st.data.store i [byte], batchLength := 0 }).bind
      (bus.examine i) with
  | error early => exact within_pure rfl
  | ok st' =>
      obtain ⟨hexamined', -, hbatch'⟩ :=
        DualUDP.examined_examine (hexamined.store [byte] 0) hturn
      exact within_step fun later hlater hlater' =>
        hloop st' later hexamined' hbatch' (hnext later hlater hlater')

/-- Behind the first byte of a frame. -/
theorem receiveLoop_ahead_within (htol : Tolerates board lags stretch window)
    (hi : 1 ≤ i) (hbatch : st.batchLength = 0)
    (hexamined : DualUDP.Examined bus i st)
    (hahead : Ahead board lags stretch level (s.drop i) time) :
    Within lags level (receiveLoop board bus todo i st) time
      fun result _ => result = bus.receiveLoop (bytewise s) todo i st := by
  induction todo generalizing i st time with
  | zero => exact within_pure rfl
  | succ todo ih =>
      rw [receiveLoop]
      by_cases hlimit : i < st.length
      case neg =>
        rw [if_neg hlimit]
        refine within_pure ?_
        rw [Bus.receiveLoop, boundedLoop, if_neg hlimit]
      rw [if_pos hlimit, fetch, if_pos hbatch]
      have hshort := hexamined.short
      rw [decide_eq_false (p := st.length - i = b.packetMaxLength) (by omega)]
      cases hdrop : s.drop i with
      | nil =>
          rw [hdrop] at hahead
          refine within_bind (within_bind (receiveFrame_low_within htol hahead fun time' => ?_))
          refine within_pure (within_pure ?_)
          rw [receiveLoop_succ hlimit, fetch_bytewise_nil hlimit hbatch hdrop]
          rfl
      | cons byte rest =>
          rw [hdrop] at hahead
          have hrest : s.drop (i + 1) = rest := by rw [← List.tail_drop, hdrop, List.tail_cons]
          refine within_bind (within_bind (receiveFrame_ahead_within htol hahead
            fun time' hnext => ?_))
          exact within_pure (turn_within hlimit hbatch hdrop hexamined hnext
            fun st' later hexamined' hbatch' hahead' =>
              ih (by omega) hbatch' hexamined' (by rwa [hrest]))

end Loop

/-! ## Receiving -/

section Receive

variable {bus : Bus b} {rise time : Nat} {byte : UInt8} {data : List UInt8}

/-- The local variables at the beginning of `receive`. -/
abbrev begun (bus : Bus b) : LoopState := { data := bus.data, length := b.packetMaxLength }

theorem examined_begun (bus : Bus b) : DualUDP.Examined bus 0 (begun bus) := by
  refine ⟨?_, ?_, ?_, ?_, ?_, le_rfl, Or.inl rfl⟩
  all_goals omega

/-- A call of `receive` that is over before the frame has been heard. -/
def Early (lags : Lags Operation) (rise time time' : Nat) : Prop :=
  time < rise ∧ time < time' ∧ time' + 1 ≤ rise + lags.most .read + lags.most .micros

theorem receiveLoop_begun_within (htol : Tolerates board lags stretch window)
    (hmin : 0 < b.packetMaxLength)
    (hcoming : Coming board stretch window level (byte :: data) rise time) :
    Within lags level (receiveLoop board bus b.packetMaxLength 0 (begun bus)) time
      fun result time' =>
        result = bus.receiveLoop (bytewise (byte :: data)) b.packetMaxLength 0 (begun bus) ∨
          result = .error (fail, bus.data) ∧ Early lags rise time time' := by
  obtain ⟨⟨wave, hwave, hlevel⟩, hidle, hwindow⟩ := hcoming
  obtain ⟨todo, htodo⟩ : ∃ todo, b.packetMaxLength = todo + 1 :=
    ⟨b.packetMaxLength - 1, (Nat.succ_pred_eq_of_pos hmin).symm⟩
  have hlimit : 0 < (begun bus).length := hmin
  rw [htodo, receiveLoop, if_pos hlimit, fetch, if_pos rfl]
  rw [decide_eq_true (p := (begun bus).length - 0 = b.packetMaxLength) rfl]
  refine within_bind (within_bind (receiveFrame_first_within htol hwave hlevel hidle hwindow
    (fun time' hbefore hlater hsoon => ?_) fun time' hnext => ?_))
  · exact within_pure (within_pure (Or.inr ⟨rfl, hbefore, hlater, hsoon⟩))
  · refine within_pure (Within.mono (turn_within hlimit rfl rfl (examined_begun bus) hnext
      fun st' later hexamined hbatch hahead =>
        receiveLoop_ahead_within htol le_rfl hbatch hexamined hahead) fun result _ => Or.inl)

/-- `receive` does what it would with the bytes of the frame, unless it is called too early. -/
theorem receive_within (htol : Tolerates board lags stretch window) (hmin : 0 < b.packetMaxLength)
    (hmax : b.packetMaxLength < 65536)
    (hcoming : Coming board stretch window level (byte :: data) rise time) :
    Within lags level (receive board bus) time fun outcome time' =>
      outcome = bus.receive (bytewise (byte :: data)) ∨
        outcome = { result := fail, bus := bus } ∧ Early lags rise time time' := by
  have hlength : b.packetMaxLength % 65536 = b.packetMaxLength := Nat.mod_eq_of_lt hmax
  rw [receive, Bus.receive, hlength]
  refine within_bind (Within.mono (receiveLoop_begun_within htol hmin hcoming)
    fun result time' hresult => ?_)
  rcases hresult with rfl | ⟨rfl, hearly⟩
  · cases bus.receiveLoop (bytewise (byte :: data)) b.packetMaxLength 0 (begun bus) with
    | error early => exact within_pure (Or.inl rfl)
    | ok st =>
        simp only
        split_ifs
        all_goals exact within_pure (Or.inl rfl)
  · exact within_pure (Or.inr ⟨rfl, hearly⟩)

/-- Whatever the bytes of a frame are, a receiver in time comes to the same result as with them. -/
theorem receive_heard (htol : Tolerates board lags stretch window) (hmin : 0 < b.packetMaxLength)
    (hmax : b.packetMaxLength < 65536) {s : List UInt8} (hs : s ≠ []) (hrise : rise ≤ time)
    (hcoming : Coming board stretch window level s rise time) :
    Within lags level (receive board bus) time fun outcome _ =>
      outcome = bus.receive (bytewise s) := by
  obtain ⟨byte, data, rfl⟩ := List.exists_cons_of_ne_nil hs
  refine Within.mono (receive_within htol hmin hmax hcoming) fun outcome time' houtcome => ?_
  rcases houtcome with heard | ⟨-, hearly, -⟩
  · exact heard
  · omega

/-- An ATmega328 in mode 1.  An operation takes a microsecond or so. -/
def unoLags : Lags Operation where
  least
    | .read => 16
    | .delay => 8
    | .micros => 40
    | .mode => 16
    | .caller => 200
  most
    | .read => 20
    | .delay => 10
    | .micros => 40
    | .mode => 16
    | .caller => 300

theorem tolerates_uno : Tolerates {} unoLags 20 400 := by
  constructor <;> decide

theorem receive_heard_uno :
    Within unoLags (Waveform.level 1000
        ((waveform {} (sendFrame {} [0, 2, 6, 111, 1, 60])).map fun segment =>
          (segment.1, segment.2 + 20)))
      (receive {} ({} : Bus defaultBuild)) 1300
      fun outcome _ => outcome = Bus.receive {} (bytewise [0, 2, 6, 111, 1, 60]) :=
  receive_heard tolerates_uno (by decide) (by decide) (by decide) (by decide)
    (coming_level (Waveform.Stretched.longer (by decide) _) (by decide))

/-- The calls before the frame change nothing, and the one that hears it is the last. -/
theorem receiveUntil_within (htol : Tolerates board lags stretch window)
    (hmin : 0 < b.packetMaxLength) (hmax : b.packetMaxLength < 65536) {turns start : Nat}
    {duration : UInt32} (hstart : start ≤ time)
    (hcoming : Coming board stretch window level (byte :: data) rise time)
    (hack : (bus.receive (bytewise (byte :: data))).result = ack) (hturns : rise ≤ time + turns)
    (hlasts : rise + lags.most .read + lags.most .micros ≤ start + ticks board duration.toNat) :
    Within lags level
      (receiveUntil board duration (UInt32.ofNat (start / board.perMicro)) (turns + 1) bus) time
      fun outcome _ => outcome = bus.receive (bytewise (byte :: data)) := by
  induction turns generalizing time with
  | zero =>
      refine within_bind (Within.mono (receive_within htol hmin hmax hcoming)
        fun outcome time' houtcome => ?_)
      rcases houtcome with rfl | ⟨-, hearly, -⟩
      · rw [if_pos hack]
        exact within_pure rfl
      · omega
  | succ turns ih =>
      refine within_bind (Within.mono (receive_within htol hmin hmax hcoming)
        fun outcome time' houtcome => ?_)
      rcases houtcome with rfl | ⟨rfl, hbefore, hlater, hsoon⟩
      · rw [if_pos hack]
        exact within_pure rfl
      have hfail : fail ≠ ack := by decide
      have hwindow := htol.window_poll
      rw [if_neg hfail]
      refine within_step fun now hnow hnow' => ?_
      have hwithin : UInt32.ofNat (time' / board.perMicro) - UInt32.ofNat (start / board.perMicro) ≤
          duration := by
        rw [UInt32.le_iff_toNat_le, Clock.toNat_ofNat_sub_ofNat (Nat.div_le_div_right (by omega))]
        exact Nat.le_trans (Nat.mod_le _ _) (elapsed_le htol.perMicro_pos
          (by change time' ≤ start + ticks board duration.toNat; omega))
      rw [if_pos hwithin]
      refine within_step fun again hagain hagain' => ?_
      have hcoming' : Coming board stretch window level (byte :: data) rise again :=
        ⟨hcoming.carries, fun time'' hfrom => hcoming.idle time'' (by omega), by omega⟩
      refine within_bind (Within.mono (ih (by omega) hcoming' (by omega))
        fun outcome _ houtcome => ?_)
      rw [houtcome]
      exact within_pure rfl

/-- A packet that would be acknowledged is, by a receiver that listens for long enough. -/
theorem receiveFor_within (htol : Tolerates board lags stretch window)
    (hmin : 0 < b.packetMaxLength) (hmax : b.packetMaxLength < 65536) {duration : UInt32}
    {s : List UInt8} (hs : s ≠ []) (hrise : time ≤ rise)
    (hcoming : Coming board stretch window level s rise time)
    (hack : (bus.receive (bytewise s)).result = ack)
    (hlasts : rise + lags.most .read + lags.most .micros ≤ time + ticks board duration.toNat) :
    Within lags level (receiveFor board bus duration) time
      fun outcome _ => outcome = bus.receive (bytewise s) := by
  obtain ⟨byte, data, rfl⟩ := List.exists_cons_of_ne_nil hs
  have hwindow := htol.window_poll
  refine within_step fun first hfirst hfirst' => ?_
  have hturns : rise ≤ first + (duration.toNat + 1) * board.perMicro := by
    have hmore : ticks board duration.toNat ≤ (duration.toNat + 1) * board.perMicro :=
      Nat.mul_le_mul_right _ (Nat.le_succ _)
    omega
  exact receiveUntil_within htol hmin hmax (by omega)
    ⟨hcoming.carries, fun time' hfrom => hcoming.idle time' (by omega), by omega⟩ hack hturns hlasts

end Receive

/-! ## From one instance to another -/

/-- What one instance composes and sends over the pin, another one receives. -/
theorem receiveFor_composePacket {b b' : Build} (hformat : SameFormat b b') (sender : Bus b)
    (receiver : Bus b') (request : PacketInfo) (destination : Memory) (source : Payload)
    (hsend : Interop.Sendable b (sender.completeInfo request) source)
    (hmax : b.packetMaxLength < 65536)
    (haddr : Addressed receiver (sender.completeInfo request)
      (Interop.written b (sender.completeInfo request) source))
    (hport : b.includePort → receiver.port = noPort ∨
      receiver.port = (sender.completeInfo request).port)
    (hfresh : receiver.router ∨
      (has (Interop.written b (sender.completeInfo request) source) packetIdBit →
        ∀ record ∈ receiver.recentPacketIds.toList,
          Bus.sameId (carried (sender.completeInfo request)
            (Interop.written b (sender.completeInfo request) source)) record = false))
    (htol : Tolerates board lags stretch window) {rise time : Nat} {duration : UInt32}
    {wave : Waveform} (hwave : Waveform.Stretched stretch (waveform board (sendFrame board
      ((destination.apply (sender.composePacket request destination source).writes).load 0
        (sender.composePacket request destination source).result))) wave)
    (hrise : time ≤ rise)
    (hlasts : rise + lags.most .read + lags.most .micros ≤ time + ticks board duration.toNat) :
    Within lags (Waveform.level rise wave) (receiveFor board receiver duration) time
      fun outcome _ => outcome.result = ack ∧ ∃ parsed,
        Recovers (sender.completeInfo request)
          (Interop.written b (sender.completeInfo request) source) parsed ∧
        .receiver source.bytes parsed ∈ outcome.events := by
  rw [Interop.load_composePacket sender request destination hsend] at hwave
  have hadm := Composed.admissible_composed hformat hsend haddr
  have hmax' : b'.packetMaxLength < 65536 := hformat.packetMaxLength ▸ hmax
  have hmin : 0 < b'.packetMaxLength := Nat.lt_of_le_of_lt (Nat.zero_le _) hadm.maxLength
  have hbytes : (bytewise (Interop.bytesOf b (sender.completeInfo request) source)).bytes =
      Interop.bytesOf b (sender.completeInfo request) source := rfl
  obtain ⟨hack, hcalled⟩ :=
    Composed.receive_composed hformat hsend haddr hmax hport hfresh hbytes
  have hlong : Interop.bytesOf b (sender.completeInfo request) source ≠ [] := fun hnil => by
    have hheader := hadm.overhead
    have hcomplete := hadm.complete
    rw [hnil] at hheader hcomplete
    exact absurd (Nat.le_trans hheader hcomplete) (by decide)
  exact Within.mono (receiveFor_within htol hmin hmax' hlong hrise
    (coming_level hwave (Nat.le_trans hrise (Nat.le_add_right _ _))) hack hlasts)
    fun outcome _ houtcome => houtcome ▸ ⟨hack, hcalled⟩

/-- The greeting of device 44, to a device that listens for ten milliseconds. -/
theorem receiveFor_composePacket_greeting :
    Within unoLags (Waveform.level 100000 ((waveform {} (sendFrame {}
        ((Memory.apply (fun _ => 0) (Interop.device44.composePacket Interop.request (fun _ => 0)
          Interop.greeting).writes).load 0 (Interop.device44.composePacket Interop.request
            (fun _ => 0) Interop.greeting).result))).map fun segment =>
              (segment.1, segment.2 + 20)))
      (receiveFor {} Interop.device45 10000) 1000
      fun outcome _ => outcome.result = ack ∧ ∃ parsed,
        Recovers (Interop.device44.completeInfo Interop.request)
          (Interop.written Interop.featured (Interop.device44.completeInfo Interop.request)
            Interop.greeting) parsed ∧
        .receiver Interop.greeting.bytes parsed ∈ outcome.events := by
  have haddr : Addressed Interop.device45 (Interop.device44.completeInfo Interop.request)
      (Interop.written Interop.featured (Interop.device44.completeInfo Interop.request)
        Interop.greeting) := by
    constructor <;> decide
  exact receiveFor_composePacket ⟨rfl, rfl, rfl, rfl, rfl⟩ Interop.device44 Interop.device45
    Interop.request (fun _ => 0) Interop.greeting
    (Interop.sendable_of_short _ (by decide) (by decide) (by decide) (by decide) (by decide))
    (by decide) haddr (fun _ => Or.inr (by decide)) (Or.inr fun _ => by decide) tolerates_uno
    (Waveform.Stretched.longer (by decide) _) (by decide) (by decide)

end Pjon.Proofs.BitBangReceive
