import Pjon.Spec.LinuxClock
/-!
# Where the microsecond clock jumps

`micros` starts again from 0 when the count of 64 bits has reached `UINT32_MAX`, whatever the
count is by then, and counts on from a later reading of the clock.  What is over a multiple of 2^32
is lost, and so is what is missing to one.
-/

namespace Pjon.Proofs.LinuxClock

open Pjon.Lib Pjon.Model.Linux Pjon.Spec.Linux

/-! ## Whole microseconds -/

theorem ofInt_eq_iff (a b : Int) : UInt32.ofInt a = UInt32.ofInt b ↔ 4294967296 ∣ a - b := by
  rw [← UInt32.toNat_inj, UInt32.ofInt, UInt32.ofInt, UInt32.toNat_ofNat', UInt32.toNat_ofNat']
  omega

theorem ofInt_sub (a b : Int) : UInt32.ofInt a - UInt32.ofInt b = UInt32.ofInt (a - b) := by
  rw [Int.sub_eq_add_neg, UInt32.ofInt_add, UInt32.ofInt_neg, UInt32.sub_eq_add_neg]

section Microseconds

variable {origin t t' : Int}

theorem durationCast_sub_of_le (h : t ≤ t') : durationCast (t' - t) = (t' - t) / 1000 :=
  Int.tdiv_eq_ediv_of_nonneg (Int.sub_nonneg_of_le h)

/-- What lies between two times is the difference of their microseconds if the fraction has not
become smaller, and one less if it has. -/
theorem whole_eq (origin t t' : Int) :
    whole origin t' = whole origin t + (t' - t) / 1000 +
      if fraction origin t ≤ fraction origin t' then 0 else 1 := by
  unfold whole fraction
  split_ifs <;> omega

/-- Two readings that are right differ by what has elapsed if and only if the fraction has not
become smaller. -/
theorem ofInt_sub_iff (h : t ≤ t') :
    UInt32.ofInt (whole origin t') - UInt32.ofInt (whole origin t) =
        UInt32.ofInt (durationCast (t' - t)) ↔
      fraction origin t ≤ fraction origin t' := by
  rw [ofInt_sub, ofInt_eq_iff, durationCast_sub_of_le h, whole_eq origin t t']
  split_ifs with hgrows
  · exact iff_of_true (by omega) hgrows
  · exact iff_of_false (by omega) hgrows

end Microseconds

/-! ## One call -/

section Call

variable {origin : Int} {start : Nat} {call : Call}

/-- The reading is right if and only if the call finds the start time in step. -/
theorem reading_iff (h : start ≤ call.now) :
    reading (some start) call = UInt32.ofInt (whole origin call.now) ↔
      InStep origin start call.now := by
  have hle : (start : Int) ≤ call.now := Int.ofNat_le.mpr h
  rw [reading, micros, getMutableStartTime, Option.getD_some, InStep]
  by_cases hlimit : uint32Max ≤ durationCast (call.now - start)
  · simp only [if_pos hlimit]
    rw [eq_comm, show (0 : UInt32) = UInt32.ofInt 0 from rfl, ofInt_eq_iff, Int.sub_zero]
  · simp only [if_neg hlimit]
    rw [eq_comm, ofInt_eq_iff, whole_eq origin start, durationCast_sub_of_le hle]
    have hdiff (carry : Int) : whole origin start + (call.now - start) / 1000 + carry -
        (call.now - start) / 1000 = whole origin start + carry := by omega
    rw [hdiff]

/-- The first call shows what its origin says. -/
theorem reading_none (call : Call) :
    reading none call = UInt32.ofInt (whole (Spec.Linux.origin call) call.now) := by
  have hwhole (count : Int) : whole (call.now - 1000 * count) call.now = count := by
    unfold whole
    omega
  rw [reading, micros, getMutableStartTime, Option.getD_none, Spec.Linux.origin, hwhole]
  split_ifs with hlimit
  · rfl
  · rfl

theorem tick_eq (startTs : Option Nat) (call : Call) :
    ∃ start, tick startTs call = some start ∧
      (start = getMutableStartTime startTs call.initial ∨ start = call.again) := by
  rw [tick, micros]
  by_cases hlimit :
      uint32Max ≤ durationCast (call.now - getMutableStartTime startTs call.initial)
  · exact ⟨call.again, by simp only [if_pos hlimit], Or.inr rfl⟩
  · exact ⟨_, by simp only [if_neg hlimit], Or.inl rfl⟩

end Call

/-! ## A run of calls -/

section Calls

variable {origin : Int} {start : Nat} {calls : List Call}

theorem readings_cons (startTs : Option Nat) (call : Call) (calls : List Call) :
    readings startTs (call :: calls) =
      (call, reading startTs call) :: readings (tick startTs call) calls := by
  rw [readings, Run.steps_cons, List.map_cons, ← readings]

theorem map_fst_readings (startTs : Option Nat) (calls : List Call) :
    (readings startTs calls).map Prod.fst = calls := by
  rw [readings, List.map_map]
  exact Run.map_snd_steps tick startTs calls

/-- The start time is never behind the calls that follow, so each reading is right if and only if
the call finds it in step. -/
theorem readings_iff (h : ∀ call ∈ calls, start ≤ call.now) (hforward : Forward calls) :
    (∀ r ∈ readings (some start) calls, r.2 = UInt32.ofInt (whole origin r.1.now)) ↔
      ∀ v ∈ Run.steps tick (some start) calls, ∀ start' ∈ v.1, InStep origin start' v.2.now := by
  induction calls generalizing start with
  | nil =>
      apply iff_of_true
      · exact fun r hr => absurd hr List.not_mem_nil
      · exact fun v hv => absurd hv List.not_mem_nil
  | cons call calls ih =>
      obtain ⟨hcall, hcalls⟩ := List.forall_mem_cons.mp h
      obtain ⟨hlater, hforward⟩ := List.pairwise_cons.mp hforward
      obtain ⟨start', htick, hstart'⟩ := tick_eq (some start) call
      have hbehind : ∀ call' ∈ calls, start' ≤ call'.now := by
        intro call' hmem
        rcases hstart' with rfl | rfl
        · exact hcalls call' hmem
        · exact (hlater call' hmem).2.2
      rw [readings_cons, List.forall_mem_cons, Run.steps_cons, List.forall_mem_cons, htick,
        ih hbehind hforward]
      apply and_congr_left
      intro _
      simp only [Option.mem_some_iff, forall_eq']
      exact reading_iff hcall

/-- Readings that are right keep the time between them if and only if the fractions grow. -/
theorem pairwise_readings_iff (startTs : Option Nat) (hforward : Forward calls)
    (hright : ∀ r ∈ readings startTs calls, r.2 = UInt32.ofInt (whole origin r.1.now)) :
    ((readings startTs calls).Pairwise fun r r' =>
        r'.2 - r.2 = UInt32.ofInt (durationCast (r'.1.now - r.1.now))) ↔
      calls.Pairwise fun call call' => fraction origin call.now ≤ fraction origin call'.now := by
  have hsorted : (readings startTs calls).Pairwise fun r r' => r.1.now ≤ r'.1.now := by
    rw [← map_fst_readings startTs calls, Forward, List.pairwise_map] at hforward
    exact hforward.imp fun hpair => hpair.1
  have hpair : ∀ r ∈ readings startTs calls, ∀ r' ∈ readings startTs calls,
      r.1.now ≤ r'.1.now →
      (r'.2 - r.2 = UInt32.ofInt (durationCast (r'.1.now - r.1.now)) ↔
        fraction origin r.1.now ≤ fraction origin r'.1.now) := by
    intro r hr r' hr' hle
    rw [hright r hr, hright r' hr', ofInt_sub_iff (Int.ofNat_le.mpr hle)]
  calc
    _ ↔ (readings startTs calls).Pairwise
        fun r r' => fraction origin r.1.now ≤ fraction origin r'.1.now := by
      constructor
      · intro h
        apply (h.and hsorted).imp_of_mem
        exact fun hr hr' hboth => (hpair _ hr _ hr' hboth.2).mp hboth.1
      · intro h
        apply (h.and hsorted).imp_of_mem
        exact fun hr hr' hboth => (hpair _ hr _ hr' hboth.2).mpr hboth.1
    _ ↔ ((readings startTs calls).map Prod.fst).Pairwise
        fun call call' => fraction origin call.now ≤ fraction origin call'.now := by
      rw [List.pairwise_map]
    _ ↔ _ := by rw [map_fst_readings]

/-- The origin is whole microseconds away from the first call. -/
theorem fraction_origin (first : Call) : fraction (Spec.Linux.origin first) first.now = 0 := by
  have hzero (count : Int) : fraction (first.now - 1000 * count) first.now = 0 := by
    unfold fraction
    omega
  exact hzero _

/-- A reading keeps the time since the first call if and only if it is right. -/
theorem sub_reading_iff {first : Call} {now : Nat} (h : first.now ≤ now) (value : UInt32) :
    value - reading none first = UInt32.ofInt (durationCast (now - first.now)) ↔
      value = UInt32.ofInt (whole (Spec.Linux.origin first) now) := by
  have hfraction : fraction (Spec.Linux.origin first) first.now ≤
      fraction (Spec.Linux.origin first) now := by
    rw [fraction_origin]
    exact Int.emod_nonneg _ (by decide)
  rw [reading_none, ← (ofInt_sub_iff (Int.ofNat_le.mpr h)).mpr hfraction, UInt32.sub_left_inj]

theorem fractionsGrow_cons (first : Call) (calls : List Call) :
    FractionsGrow (first :: calls) ↔ calls.Pairwise fun call call' =>
      fraction (Spec.Linux.origin first) call.now ≤
        fraction (Spec.Linux.origin first) call'.now := by
  rw [FractionsGrow, List.head?_cons]
  simp only [Option.mem_some_iff, forall_eq', List.pairwise_cons]
  refine and_iff_right fun call _ => ?_
  rw [fraction_origin]
  exact Int.emod_nonneg _ (by decide)

end Calls

/-- The clock keeps elapsed time if and only if each call finds the start time in step, and the
calls are made at growing fractions of a microsecond. -/
theorem keepsElapsed_iff {calls : List Call} (hforward : Forward calls) :
    KeepsElapsed calls ↔ StaysInStep calls ∧ FractionsGrow calls := by
  cases calls with
  | nil => exact iff_of_true List.Pairwise.nil ⟨nofun, nofun⟩
  | cons first calls =>
      obtain ⟨hlater, hforward⟩ := List.pairwise_cons.mp hforward
      obtain ⟨start, htick, hstart⟩ := tick_eq none first
      have hbehind : ∀ call ∈ calls, start ≤ call.now := by
        intro call hmem
        rcases hstart with rfl | rfl
        · exact (hlater call hmem).2.1
        · exact (hlater call hmem).2.2
      have hfirst : ∀ r ∈ readings (some start) calls, first.now ≤ r.1.now := by
        intro r hr
        apply fun hmem => (hlater r.1 hmem).1
        rw [← map_fst_readings (some start) calls]
        exact List.mem_map_of_mem hr
      calc
        KeepsElapsed (first :: calls) ↔
            (∀ r ∈ readings (some start) calls,
              r.2 = UInt32.ofInt (whole (origin first) r.1.now)) ∧
            (readings (some start) calls).Pairwise fun r r' =>
              r'.2 - r.2 = UInt32.ofInt (durationCast (r'.1.now - r.1.now)) := by
          rw [KeepsElapsed, readings_cons, htick, List.pairwise_cons]
          apply and_congr_left
          intro _
          exact forall₂_congr fun r hr => sub_reading_iff (hfirst r hr) r.2
        _ ↔ (∀ r ∈ readings (some start) calls,
              r.2 = UInt32.ofInt (whole (origin first) r.1.now)) ∧
            FractionsGrow (first :: calls) := by
          apply and_congr_right
          intro hright
          rw [pairwise_readings_iff (some start) hforward hright, fractionsGrow_cons]
        _ ↔ StaysInStep (first :: calls) ∧ FractionsGrow (first :: calls) := by
          rw [readings_iff hbehind hforward, StaysInStep, Run.steps_cons, htick, List.head?_cons,
            List.tail_cons]
          simp only [Option.mem_some_iff, forall_eq']

/-- Calls at the start, 2^32 microseconds later and a microsecond after that; the start time is set
anew 300 nanoseconds behind the second call. -/
def onTheDot : List Call :=
  [{ now := 0 }, { now := 4294967296000, again := 4294967296300 }, { now := 4294967297400 }]

theorem keepsElapsed_onTheDot : KeepsElapsed onTheDot := by
  apply (keepsElapsed_iff (by decide)).mpr
  constructor
  · unfold StaysInStep
    decide +kernel
  · unfold FractionsGrow
    decide +kernel

/-- `UINT32_MAX` microseconds after the first call the clock returns 0 once more. -/
theorem maximum_lost :
    Forward [{ now := 0 }, { now := 4294967295000 }] ∧
      readings none [{ now := 0 }, { now := 4294967295000 }] =
        [({ now := 0 }, 0), ({ now := 4294967295000 }, 0)] ∧
      ¬KeepsElapsed [{ now := 0 }, { now := 4294967295000 }] := by
  unfold KeepsElapsed
  decide +kernel

end Pjon.Proofs.LinuxClock
