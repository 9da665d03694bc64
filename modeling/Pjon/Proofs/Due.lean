import Pjon.Lib.Clock
import Pjon.Proofs.LifeCycle
import Pjon.Spec.Due
import Mathlib.Tactic.IntervalCases
/-!
# Packets that are sent too early

The test of `update` compares a difference that wraps with a sum that wraps.  As long as the sum
does not, the packet waits; the back-off of `SoftwareBitBang` and `ThroughSerial` in the last two
attempts is longer than what the maximum of `send_repeatedly` leaves room for.
-/

namespace Pjon.Proofs.Due

open Pjon.Lib Pjon.Model Pjon.Spec Pjon.Proofs.LifeCycle

variable {b : Build} {strategy : LinkStrategy} {bus : Bus b} {i : Fin b.maxPackets}
  {random : UInt32}

/-! ## The back-off does not overflow -/

theorem toNat_powerBackOff {degree : Nat} {attempts : UInt8}
    (h : attempts.toNat ^ (degree + 1) < 2 ^ 32) :
    (LinkStrategy.powerBackOff degree attempts).toNat = attempts.toNat ^ (degree + 1) := by
  have hmod : ∀ k, (LinkStrategy.powerBackOff k attempts).toNat =
      attempts.toNat ^ (k + 1) % 2 ^ 32 := by
    intro k
    induction k with
    | zero =>
        rw [LinkStrategy.powerBackOff, Function.iterate_zero_apply, UInt8.toNat_toUInt32, zero_add,
          pow_one, Nat.mod_eq_of_lt (attempts.toNat_lt.trans (by decide))]
    | succ k ih =>
        unfold LinkStrategy.powerBackOff at ih ⊢
        rw [Function.iterate_succ_apply', UInt32.toNat_mul, ih, UInt8.toNat_toUInt32,
          Nat.mod_mul_mod, ← pow_succ]
  rw [hmod degree, Nat.mod_eq_of_lt h]

theorem toNat_linear {k attempts random : UInt32} (hk : k ≤ 10000) (hattempts : attempts ≤ 255)
    (hrandom : random ≤ 10000) :
    (k * attempts + random).toNat = k.toNat * attempts.toNat + random.toNat := by
  rw [UInt32.le_iff_toNat_le] at hk hattempts hrandom
  have hproduct : k.toNat * attempts.toNat ≤ 10000 * 255 := Nat.mul_le_mul hk hattempts
  have hrandom' : random.toNat ≤ 10000 := hrandom
  rw [UInt32.toNat_add, UInt32.toNat_mul, Nat.mod_eq_of_lt (a := k.toNat * attempts.toNat),
    Nat.mod_eq_of_lt]
  · omega
  · omega

theorem pow_lt_of_le {n m k : Nat} (h : n ≤ m) (hm : m ^ k < 2 ^ 32) : n ^ k < 2 ^ 32 :=
  (Nat.pow_le_pow_left h k).trans_lt hm

/-- The attempts that a strategy allows for keep its back-off within 32 bits. -/
theorem toNat_backOff {attempts : UInt8} (hattempts : attempts ≤ strategy.maxAttempts)
    (hrandom : random ≤ strategy.randomMax) :
    (strategy.backOff attempts random).toNat =
      exactBackOff attempts.toNat random.toNat strategy := by
  have hbyte : attempts.toUInt32 ≤ 255 := by
    rw [UInt32.le_iff_toNat_le, UInt8.toNat_toUInt32]
    exact Nat.le_of_lt_succ attempts.toNat_lt
  have hlinear : ∀ k : UInt32, k ≤ 10000 →
      (k * attempts.toUInt32).toNat = k.toNat * attempts.toNat := by
    intro k hk
    have hzero : (0 : UInt32) ≤ 10000 := by decide
    have hsum := toNat_linear hk hbyte hzero
    rwa [UInt32.add_zero, UInt8.toNat_toUInt32] at hsum
  have hrandomly : ∀ k : UInt32, k ≤ 10000 → random ≤ 10000 →
      (k * attempts.toUInt32 + random).toNat = k.toNat * attempts.toNat + random.toNat := by
    intro k hk hrandom
    rw [toNat_linear hk hbyte hrandom, UInt8.toNat_toUInt32]
  induction strategy with
  | any strategy ih => exact ih hattempts hrandom
  | analogSampling => exact toNat_powerBackOff (pow_lt_of_le hattempts (by decide))
  | overSampling => exact toNat_powerBackOff (pow_lt_of_le hattempts (by decide))
  | throughLoRa => exact toNat_powerBackOff (pow_lt_of_le hattempts (by decide))
  | softwareBitBang => exact toNat_powerBackOff (pow_lt_of_le hattempts (by decide))
  | throughSerial =>
      have hpower : attempts.toNat ^ 5 ≤ 20 ^ 5 := Nat.pow_le_pow_left hattempts 5
      have hmax : random.toNat ≤ 64 := hrandom
      have hbackOff : (LinkStrategy.powerBackOff 4 attempts).toNat = attempts.toNat ^ 5 :=
        toNat_powerBackOff (pow_lt_of_le hattempts (by decide))
      rw [LinkStrategy.backOff, UInt32.toNat_add, hbackOff, exactBackOff]
      exact Nat.mod_eq_of_lt (by omega)
  | dualUDP =>
      have hmax : (500 : UInt32) ≤ 10000 := by decide
      exact hrandomly 1000 (by decide) (UInt32.le_trans hrandom hmax)
  | espnow => exact hrandomly 10000 (by decide) hrandom
  | ethernetTCP => exact hlinear 10000 (by decide)
  | localFile => exact hlinear 1000 (by decide)
  | mqttTranslate => rfl
  | globalUDP platform =>
      cases platform with
      | esp => exact hrandomly 10000 (by decide) hrandom
      | windows =>
          have hmax : random.toNat ≤ 1000 := hrandom
          have hthousand : (1000 : UInt32).toNat = 1000 := rfl
          rw [LinkStrategy.backOff, UInt32.toNat_add, exactBackOff, hthousand]
          exact Nat.mod_eq_of_lt (by omega)
      | other => rfl
  | localUDP platform =>
      cases platform with
      | esp => exact hrandomly 10000 (by decide) hrandom
      | windows =>
          have hmax : (1000 : UInt32) ≤ 10000 := by decide
          exact hrandomly 1000 (by decide) (UInt32.le_trans hrandom hmax)
      | other => rfl

/-! ## The slots that are sent -/

/-- The turns of other slots do not matter. -/
theorem mem_sendsFrom {maxAttempts : UInt8} {turns : Fin b.maxPackets → Turn}
    {slots : List (Fin b.maxPackets)} (hnodup : slots.Nodup) :
    i ∈ bus.sendsFrom maxAttempts turns slots ↔ i ∈ slots ∧ bus.Sends i (turns i) := by
  induction slots generalizing bus with
  | nil => simp [Bus.sendsFrom]
  | cons j slots ih =>
      obtain ⟨hj, hrest⟩ := List.nodup_cons.mp hnodup
      have hrun : i ∈ (bus.updateSlot maxAttempts j (turns j)).bus.sendsFrom maxAttempts turns
          slots ↔ i ∈ slots ∧ (bus.updateSlot maxAttempts j (turns j)).bus.Sends i (turns i) :=
        ih hrest
      rw [Bus.sendsFrom]
      by_cases hi : j = i
      · subst hi
        have hlater : j ∉ (bus.updateSlot maxAttempts j (turns j)).bus.sendsFrom maxAttempts
            turns slots := fun hmem => hj (hrun.mp hmem).1
        split_ifs with hsends <;> simp [hsends, hlater]
      · have hsame : (bus.updateSlot maxAttempts j (turns j)).bus.Sends i (turns i) ↔
            bus.Sends i (turns i) := by
          unfold Bus.Sends
          rw [slot_updateSlot_ne maxAttempts hi (turns j)]
        have hne : i ≠ j := fun h => hi h.symm
        split_ifs <;> simp [hrun, hsame, hne]

theorem mem_updateSends (maxAttempts : UInt8) (turns : Fin b.maxPackets → Turn) :
    i ∈ bus.updateSends maxAttempts turns ↔ bus.Sends i (turns i) := by
  rw [Bus.updateSends, mem_sendsFrom (List.nodup_finRange _),
    and_iff_right (List.mem_finRange i)]

theorem sends_of_updateSlot {maxAttempts : UInt8} {turn : Turn} {s : List UInt8}
    (h : Event.sendFrame s ∈ (bus.updateSlot maxAttempts i turn).events) : bus.Sends i turn := by
  unfold Bus.updateSlot at h
  dsimp only at h
  by_cases hfree : (bus.slot i).state = 0
  · rw [if_pos hfree] at h
    exact absurd h List.not_mem_nil
  · rw [if_neg hfree] at h
    by_cases hearly : turn.now - (bus.slot i).registration ≤ (bus.slot i).timing + turn.backOff
    · rw [if_pos hearly] at h
      exact absurd h List.not_mem_nil
    · rw [if_neg hearly] at h
      refine ⟨hfree, UInt32.not_le.mp hearly, fun hack => ?_⟩
      rw [if_pos hack, if_pos rfl] at h
      exact absurd h List.not_mem_nil

/-- What `update` puts on the medium for a slot is what it calls `send_packet` for. -/
theorem sends_of_sendFrame {maxAttempts : UInt8} {turns : Fin b.maxPackets → Turn}
    {slots : List (Fin b.maxPackets)} {s : List UInt8}
    (h : (i, Event.sendFrame s) ∈ (bus.updateFrom maxAttempts turns slots).events) :
    i ∈ bus.sendsFrom maxAttempts turns slots := by
  induction slots generalizing bus with
  | nil => exact absurd h List.not_mem_nil
  | cons j slots ih =>
      rw [Bus.updateFrom, List.mem_append, List.mem_map] at h
      rw [Bus.sendsFrom]
      rcases h with ⟨event, hevent, hpair⟩ | hlater
      · obtain ⟨rfl, rfl⟩ := Prod.mk.inj hpair
        rw [if_pos (sends_of_updateSlot hevent)]
        exact List.mem_cons_self
      · have hrest := ih hlater
        split_ifs
        · exact List.mem_cons_of_mem _ hrest
        · exact hrest

/-! ## The wait -/

/-- The packet waits for every clock if the wait fits in 32 bits, and only then. -/
theorem neverEarly_iff_fits (hpending : Pending strategy (bus.slot i))
    (hrandom : random ≤ strategy.randomMax) :
    NeverEarly strategy bus i random ↔ wait strategy (bus.slot i) random < 2 ^ 32 := by
  have hback := toNat_backOff hpending.attempts hrandom
  have htiming := (bus.slot i).timing.toNat_lt
  have hsmall := (strategy.backOff (bus.slot i).attempts random).toNat_lt
  have hsum : ((bus.slot i).timing + strategy.backOff (bus.slot i).attempts random).toNat =
      wait strategy (bus.slot i) random % 2 ^ 32 := by
    rw [UInt32.toNat_add, hback, wait]
  have hnever : NeverEarly strategy bus i random ↔
      ∀ elapsed, wait strategy (bus.slot i) random % 2 ^ 32 < elapsed % 2 ^ 32 →
        wait strategy (bus.slot i) random < elapsed := by
    constructor
    · intro h elapsed hdue
      have hsent := h (fun _ =>
          { canStart := true
            response := fail
            now := UInt32.ofNat ((bus.slot i).registration.toNat + elapsed)
            backOff := strategy.backOff (bus.slot i).attempts random
            resetNow := 0 })
        (bus.slot i).registration.toNat ((bus.slot i).registration.toNat + elapsed)
        (Nat.le_add_right _ _) (UInt32.ofNat_toNat).symm rfl rfl
      rw [Nat.add_sub_cancel_left] at hsent
      refine hsent (mem_updateSends _ _ |>.mpr ⟨hpending.used, ?_, hpending.unconfirmed⟩)
      rw [UInt32.lt_iff_toNat_lt, hsum]
      have hdiff := Clock.toNat_ofNat_sub_ofNat
        (Nat.le_add_right (bus.slot i).registration.toNat elapsed)
      rw [UInt32.ofNat_toNat, Nat.add_sub_cancel_left] at hdiff
      rwa [hdiff]
    · intro h turns registered now hle hregistered hnow hbackOff hmem
      have hdue := ((mem_updateSends _ _).mp hmem).2.1
      rw [hregistered, hnow, hbackOff, UInt32.lt_iff_toNat_lt, hsum,
        Clock.toNat_ofNat_sub_ofNat hle] at hdue
      exact h _ hdue
  rw [hnever, Clock.keeps_limit_iff (by decide)]
  constructor
  · rintro (hfits | hlast)
    · exact hfits
    · -- two numbers below 2 ^ 32 do not add up to a last value of a later round
      unfold wait at hlast ⊢
      rw [← hback] at hlast ⊢
      omega
  · exact Or.inl

theorem exactBackOff_le {attempts : UInt8} (hattempts : attempts ≤ strategy.maxAttempts)
    (hrandom : random ≤ strategy.randomMax) (heighteen : attempts ≤ 18) :
    exactBackOff attempts.toNat random.toNat strategy ≤ 1953125 := by
  have hpower : ∀ m k : Nat, attempts.toNat ≤ m → attempts.toNat ^ k ≤ m ^ k :=
    fun m k h => Nat.pow_le_pow_left h k
  induction strategy with
  | any strategy ih => exact ih hattempts hrandom
  | analogSampling => exact (hpower 10 6 hattempts).trans (by decide)
  | overSampling => exact (hpower 10 6 hattempts).trans (by decide)
  | throughLoRa => exact (hpower 5 6 hattempts).trans (by decide)
  | softwareBitBang => exact (hpower 18 5 heighteen).trans (by decide)
  | throughSerial => exact (Nat.add_le_add (hpower 18 5 heighteen) hrandom).trans (by decide)
  | mqttTranslate => exact (by decide : 10000 ≤ 1953125)
  | dualUDP | espnow =>
      exact (Nat.add_le_add (Nat.mul_le_mul_left _ hattempts) hrandom).trans (by decide)
  | ethernetTCP | localFile => exact (Nat.mul_le_mul_left _ hattempts).trans (by decide)
  | globalUDP platform =>
      cases platform with
      | esp => exact (Nat.add_le_add (Nat.mul_le_mul_left _ hattempts) hrandom).trans (by decide)
      | windows => exact (Nat.add_le_add_left hrandom 1000).trans (by decide)
      | other => exact (by decide : 1 ≤ 1953125)
  | localUDP platform =>
      cases platform with
      | esp => exact (Nat.add_le_add (Nat.mul_le_mul_left _ hattempts) hrandom).trans (by decide)
      | windows =>
          exact (Nat.add_le_add (Nat.mul_le_mul_left _ hattempts) hrandom).trans (by decide)
      | other => exact (by decide : 1 ≤ 1953125)

/-- Up to eighteen attempts, the maximum of `send_repeatedly` leaves room for the back-off. -/
theorem wait_lt_of_attempts (hpending : Pending strategy (bus.slot i))
    (hrandom : random ≤ strategy.randomMax) (htiming : (bus.slot i).timing ≤ maxTiming)
    (hattempts : (bus.slot i).attempts ≤ 18) : wait strategy (bus.slot i) random < 2 ^ 32 := by
  have hback := exactBackOff_le hpending.attempts hrandom hattempts
  have hmax : (bus.slot i).timing.toNat ≤ 4293014170 := htiming
  unfold wait
  omega

/-- A packet is never sent early if and only if the sum of its interval and its back-off fits in
32 bits, as it does in the first nineteen attempts of an interval that is allowed. -/
theorem neverEarly_iff (strategy : LinkStrategy) (bus : Bus b) (i : Fin b.maxPackets)
    (random : UInt32) (hpending : Pending strategy (bus.slot i))
    (hrandom : random ≤ strategy.randomMax) :
    (NeverEarly strategy bus i random ↔ wait strategy (bus.slot i) random < 2 ^ 32) ∧
      ((bus.slot i).timing ≤ maxTiming → (bus.slot i).attempts ≤ 18 →
        NeverEarly strategy bus i random) := by
  have hiff := neverEarly_iff_fits hpending hrandom
  exact ⟨hiff, fun htiming hattempts =>
    hiff.mpr (wait_lt_of_attempts hpending hrandom htiming hattempts)⟩

/-! ## The longest interval -/

theorem defaultBuild_packets : 0 < defaultBuild.maxPackets := by decide

def firstPacket : Fin defaultBuild.maxPackets := ⟨0, defaultBuild_packets⟩

/-- A device whose first slot has been tried `attempts` times in the longest interval. -/
def longest (attempts : UInt8) : Bus defaultBuild :=
  ({} : Bus defaultBuild).setSlot firstPacket
    { attempts := attempts, length := 5, state := toBeSent, timing := maxTiming }

theorem slot_longest (attempts : UInt8) :
    (longest attempts).slot firstPacket =
      { attempts := attempts, length := 5, state := toBeSent, timing := maxTiming } :=
  Bus.slot_setSlot _ _ _

theorem pending_longest (attempts : UInt8) (h : attempts ≤ 20) :
    Pending .softwareBitBang ((longest attempts).slot firstPacket) := by
  rw [slot_longest]
  have hused : toBeSent ≠ 0 ∧ toBeSent ≠ ack := by decide
  exact ⟨hused.1, hused.2, h⟩

/-- Eighteen attempts in the longest interval. -/
theorem neverEarly_iff_eighteen :
    (NeverEarly .softwareBitBang (longest 18) firstPacket 0 ↔
        wait .softwareBitBang ((longest 18).slot firstPacket) 0 < 2 ^ 32) ∧
      (((longest 18).slot firstPacket).timing ≤ maxTiming →
        ((longest 18).slot firstPacket).attempts ≤ 18 →
          NeverEarly .softwareBitBang (longest 18) firstPacket 0) :=
  neverEarly_iff _ _ _ _ (pending_longest 18 (by decide)) (by decide)

/-- After nineteen attempts the sum wraps: the packet is sent at once. -/
theorem nineteenth_sent_early :
    ¬ ∀ (strategy : LinkStrategy) (b : Build) (bus : Bus b) (i : Fin b.maxPackets)
      (random : UInt32), Pending strategy (bus.slot i) → random ≤ strategy.randomMax →
      (bus.slot i).timing ≤ maxTiming → NeverEarly strategy bus i random := by
  intro h
  have hpending := pending_longest 19 (by decide)
  have htiming : ((longest 19).slot firstPacket).timing ≤ maxTiming := by
    rw [slot_longest]
    exact UInt32.le_refl maxTiming
  have hnever := h .softwareBitBang defaultBuild (longest 19) firstPacket 0 hpending
    (by decide) htiming
  rw [neverEarly_iff_fits hpending (by decide), slot_longest] at hnever
  exact absurd hnever (by decide)

end Pjon.Proofs.Due
