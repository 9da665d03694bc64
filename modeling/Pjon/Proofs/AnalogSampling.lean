import Pjon.Spec.Framing
import Pjon.Proofs.Receive
import Pjon.Proofs.Update
/-!
# What a light channel gives `receive`

An escaped byte is compared with the flags before it is decoded.  Decoded it would be one,
as it comes it never is: `receive` fails on the first byte of a packet that needs an escape.
-/

namespace Pjon.Proofs.AnalogSampling

open Pjon.Lib Pjon.Model Pjon.Model.AnalogSampling Pjon.Spec Pjon.Proofs.Filter
open Pjon.Proofs.Receive

variable {b : Build} {bus : Bus b} {lastByte : UInt8} {s : List UInt8}

/-- The bytes of the frame on the channel. -/
def stuffed (s : List UInt8) : List UInt8 := stuff isFlag esc (fun value => value ^^^ esc) s

/-! ## One byte -/

theorem isFlag_eq_true_iff (value : UInt8) :
    isFlag value = true ↔ value = start ∨ value = esc ∨ value = endFlag := by
  rw [isFlag, Bool.or_eq_true, Bool.or_eq_true, beq_iff_eq, beq_iff_eq, beq_iff_eq, or_assoc]

theorem receiveData_plain {value : UInt8} (h : isFlag value = false) (rest : List UInt8) :
    receiveData (stuffed (value :: s) ++ rest) = (some value, stuffed s ++ rest) := by
  have hflag := mt (isFlag_eq_true_iff value).mpr (by rw [h]; exact Bool.false_ne_true)
  have hstart : value ≠ start := fun heq => hflag (Or.inl heq)
  have hesc : value ≠ esc := fun heq => hflag (Or.inr (Or.inl heq))
  rw [stuffed, Stuffing.stuff_plain h, List.cons_append, receiveData, receiveByte]
  simp only [if_neg hstart, if_neg hesc]
  rfl

/-- No flag is a flag once it is escaped. -/
theorem isFlag_escaped {value : UInt8} (h : isFlag value = true) :
    value ^^^ esc ≠ start ∧ value ^^^ esc ≠ esc ∧ value ^^^ esc ≠ endFlag := by
  rcases (isFlag_eq_true_iff value).mp h with rfl | rfl | rfl <;> decide

theorem receiveData_flag {value : UInt8} (h : isFlag value = true) (rest : List UInt8) :
    receiveData (stuffed (value :: s) ++ rest) = (none, stuffed s ++ rest) := by
  have hescape : esc ≠ start := by decide
  rw [stuffed, Stuffing.stuff_special h, List.cons_append, List.cons_append, receiveData,
    receiveByte]
  simp only [if_neg hescape, receiveByte, if_pos (isFlag_escaped h), if_true]
  rfl

/-! ## The calls of `receive` -/

/-- What the channel has left before turn `i`. -/
def remaining (s : List UInt8) (i : Nat) : List UInt8 :=
  (if i = 0 then [start] else []) ++
    (stuffed (s.drop i) ++ if i < s.length then [endFlag] else [])

theorem drop_eq_byte_cons {i : Nat} (hi : i < s.length) :
    s.drop i = byte s i :: s.drop (i + 1) := by
  rw [List.drop_eq_getElem_cons hi, byte, List.getD_eq_getElem s 0 hi]

/-- The first call takes the flag that opens the frame, the others find none. -/
theorem receiveFrame_remaining {packetMaxLength maxLength i : Nat} (hi : i < s.length)
    (hlast : lastByte ≠ esc) (hfirst : maxLength = packetMaxLength ↔ i = 0) :
    receiveFrame packetMaxLength lastByte maxLength (remaining s i) =
      receiveEnd maxLength
        (receiveData (stuffed (byte s i :: s.drop (i + 1)) ++ [endFlag])) := by
  rw [remaining, if_pos hi, receiveFrame, drop_eq_byte_cons hi]
  by_cases hopen : i = 0
  · have hnone : ¬(start ≠ start ∨ lastByte = esc) := fun h => h.elim (fun h => h rfl) hlast
    rw [if_pos (hfirst.mpr hopen), if_pos hopen, List.cons_append, List.nil_append]
    exact if_neg hnone
  · rw [if_neg (mt hfirst.mp hopen), if_neg hopen, List.nil_append]

/-- A byte that is no flag arrives. -/
theorem receiveFrame_plain {packetMaxLength maxLength i : Nat} (hi : i < s.length)
    (hlast : lastByte ≠ esc) (hfirst : maxLength = packetMaxLength ↔ i = 0)
    (hend : maxLength = 1 ↔ i + 1 = s.length) (hplain : isFlag (byte s i) = false) :
    receiveFrame packetMaxLength lastByte maxLength (remaining s i) =
      (some (byte s i), remaining s (i + 1)) := by
  have hlater : ¬i + 1 = 0 := Nat.succ_ne_zero i
  rw [receiveFrame_remaining hi hlast hfirst, receiveData_plain hplain, receiveEnd, remaining,
    if_neg hlater, List.nil_append]
  by_cases hclose : i + 1 = s.length
  · have hnone : s.drop (i + 1) = [] := List.drop_eq_nil_of_le (Nat.le_of_eq hclose.symm)
    have hover : ¬i + 1 < s.length := by omega
    rw [if_pos (hend.mpr hclose), if_neg hover, hnone]
    rfl
  · rw [if_neg (mt hend.mp hclose), if_pos (by omega : i + 1 < s.length)]

/-- On a flag the call fails. -/
theorem receiveFrame_flag {packetMaxLength maxLength i : Nat} (hi : i < s.length)
    (hlast : lastByte ≠ esc) (hfirst : maxLength = packetMaxLength ↔ i = 0)
    (hflag : isFlag (byte s i) = true) :
    (receiveFrame packetMaxLength lastByte maxLength (remaining s i)).1 = none := by
  rw [receiveFrame_remaining hi hlast hfirst, receiveData_flag hflag, receiveEnd]

/-! ## The loop of `receive` -/

/-- Before turn `i` the bytes in front are there and the others are on the channel. -/
structure Sampled (bus : Bus b) (s : List UInt8) (i : Nat) (reception : Reception) : Prop
    extends Flags bus s i reception.st where
  data : ∀ k < i, reception.st.data k = byte s k
  channel : reception.channel = remaining s i

section Packet

variable (hadm : Admissible bus s) (hlength : s.length = encodedLength s)

include hadm hlength

/-- Which call is the first one and which is the last can be told by `max_length`. -/
theorem maxLength_iff {i : Nat} {reception : Reception} (h : Sampled bus s i reception)
    (hi : i < s.length) :
    (reception.st.length - i = b.packetMaxLength ↔ i = 0) ∧
      (reception.st.length - i = 1 ↔ i + 1 = s.length) := by
  have hshift := shift_le s
  have hmax := hadm.maxLength
  have hlong : 2 + shift s < encodedLength s := by
    have hover := hadm.overhead
    exact lengthField_lt (by omega)
  have hlimit := h.length
  by_cases hearly : i ≤ 2 + shift s
  · have hfive := five_le_of_lengthOk ⟨hadm.overhead, hadm.maxLength, hadm.longCrc⟩
    rw [if_pos hearly] at hlimit
    omega
  · rw [if_neg hearly] at hlimit
    omega

theorem receiveTurn_verdict (hlast : lastByte ≠ esc) {i : Nat} {reception : Reception}
    (h : Sampled bus s i reception) (hi : i < s.length) :
    (isFlag (byte s i) = false →
      ∃ next, receiveTurn bus lastByte i reception = .ok next ∧ Sampled bus s (i + 1) next) ∧
    (isFlag (byte s i) = true →
      receiveTurn bus lastByte i reception = .error (fail, reception.st.data)) := by
  obtain ⟨hfirst, hend⟩ := maxLength_iff hadm hlength h hi
  constructor
  · intro hplain
    have hcall := receiveFrame_plain hi hlast hfirst hend hplain
    have hready : Ready bus s i
        { reception.st with data := reception.st.data.store i [byte s i] } :=
      { length := h.length, drop := h.drop, mac := h.mac, extendedLength := h.extendedLength
        overhead := h.overhead
        data := by
          intro k hk
          rcases Nat.lt_or_eq_of_le hk with hlt | rfl
          · exact (Memory.store_outside _ _ _ (Or.inl hlt)).trans (h.data k hlt)
          · exact Memory.store_inside _ _ _ (i := 0) Nat.one_pos }
    have hpasses := ((passes_all_iff bus s).mpr ((admissible_iff bus s).mp hadm).1).2 i
      (hlength ▸ hi)
    obtain ⟨st, hok, hsame, -, hflags⟩ := (examine_verdict hready).1 hpasses.2
    refine ⟨⟨st, remaining s (i + 1)⟩, ?_, hflags, ?_, rfl⟩
    · rw [receiveTurn, h.channel, hcall]
      simp only [hok]
      rfl
    · intro k hk
      rw [hsame]
      exact hready.data k (Nat.le_of_lt_succ hk)
  · intro hflag
    have hcall := receiveFrame_flag hi hlast hfirst hflag
    rw [receiveTurn, h.channel]
    generalize receiveFrame b.packetMaxLength lastByte (reception.st.length - i)
      (remaining s i) = call at hcall
    obtain ⟨value, channel⟩ := call
    cases hcall
    rfl

end Packet

theorem plain_iff (s : List UInt8) :
    (∀ value ∈ s, isFlag value = false) ↔ ∀ k < s.length, isFlag (byte s k) = false := by
  constructor
  · intro h k hk
    rw [byte, List.getD_eq_getElem s 0 hk]
    exact h _ (List.getElem_mem hk)
  · intro h value hmem
    obtain ⟨k, hk, rfl⟩ := List.getElem_of_mem hmem
    have hbyte := h k hk
    rwa [byte, List.getD_eq_getElem s 0 hk] at hbyte

/-- A packet makes it over the channel exactly when none of its bytes is a flag. -/
theorem reconstructs_iff (bus : Bus b) (lastByte : UInt8) (s : List UInt8)
    (hsmall : b.packetMaxLength < 65536) (hlast : lastByte ≠ esc) (hadm : Admissible bus s)
    (hlength : s.length = encodedLength s) :
    Reconstructs bus lastByte s ↔ ∀ value ∈ s, isFlag value = false := by
  have hok : LengthOk b s := ⟨hadm.overhead, hadm.maxLength, hadm.longCrc⟩
  have hfive := five_le_of_lengthOk hok
  have hmax := hadm.maxLength
  have hall := ((passes_all_iff bus s).mpr ((admissible_iff bus s).mp hadm).1).2
  have hmod : b.packetMaxLength % 65536 = b.packetMaxLength := Nat.mod_eq_of_lt hsmall
  have hstart : Sampled bus s 0
      { st := { data := bus.data, length := b.packetMaxLength }, channel := sendFrame s } :=
    { toFlags := (scanned_start bus s bus.data).toFlags
      data := fun k hk => absurd hk (Nat.not_lt_zero k)
      channel := by
        rw [remaining, if_pos rfl, if_pos (by omega : 0 < s.length)]
        rfl }
  have hlimit : ∀ (i : Nat) (reception : Reception), Sampled bus s i reception → i ≤ s.length →
      (i < reception.st.length ↔ i < s.length) := by
    intro i reception h hi
    have hturns := lt_length_iff (by omega) h.toFlags fun k hk => hall k (by omega)
    rwa [lastTurn, if_pos hok, ← hlength] at hturns
  have hloop := boundedLoop_verdict (fun reception => reception.st.length)
    (receiveTurn bus lastByte) (fun i reception => Sampled bus s i reception ∧ i ≤ s.length)
    (fun i => isFlag (byte s i) = false) (fun _ _ => True) s.length
    (by
      rintro i reception ⟨h, hi⟩ hturn hplain
      have hin := (hlimit i reception h hi).mp hturn
      obtain ⟨next, hstep, hnext⟩ := (receiveTurn_verdict hadm hlength hlast h hin).1 hplain
      exact ⟨next, hstep, hnext, hin⟩)
    (by
      rintro i reception ⟨h, hi⟩ hturn hflag
      have hin := (hlimit i reception h hi).mp hturn
      exact ⟨_, (receiveTurn_verdict hadm hlength hlast h hin).2 (by simpa using hflag), trivial⟩)
    (fun i reception h _ hi => hlimit i reception h.1 hi)
    b.packetMaxLength 0 _ ⟨hstart, Nat.zero_le _⟩ (fun k hk => absurd hk (Nat.not_lt_zero k))
    (Nat.zero_le _) (by omega)
  rw [Reconstructs, receiveLoop, hmod, plain_iff]
  rcases hloop with ⟨final, hrun, ⟨hsampled, -⟩, hplain⟩ | ⟨k, e, hrun, -, hk, hflag, -⟩
  · refine ⟨fun _ => hplain, fun _ => ⟨final, hrun, ?_, ?_, ?_⟩⟩
    · have hshift := lengthField_lt_of_lengthOk hok
      rw [hsampled.length, if_neg (by omega), hlength]
    · rw [load_eq_take (Nat.le_refl _) hsampled.data, List.take_length]
    · rw [hsampled.channel, remaining, if_neg (by omega), if_neg (Nat.lt_irrefl _),
        List.drop_length]
      rfl
  · refine ⟨?_, fun hplain => absurd (hplain k hk) hflag⟩
    rintro ⟨final, hend, -⟩
    rw [hrun] at hend
    cases hend

/-! ## Two packets -/

theorem reconstructs_iff_letterFrame :
    Reconstructs Update.simplexDevice 0 Update.letterFrame ↔
      ∀ value ∈ Update.letterFrame, isFlag value = false :=
  reconstructs_iff Update.simplexDevice 0 Update.letterFrame (by decide) (by decide)
    Update.admissible_letterFrame rfl

/-- The same letter, with a content that is the flag `AS_START`. -/
def flaggedFrame : List UInt8 := [45, 134, 9, 171, 44, 0, 1, 149, 237]

theorem flaggedFrame_lost :
    Admissible Update.simplexDevice flaggedFrame ∧
      flaggedFrame.length = encodedLength flaggedFrame ∧ (0 : UInt8) ≠ esc ∧
      ¬Reconstructs Update.simplexDevice 0 flaggedFrame := by
  have hadm : Admissible Update.simplexDevice flaggedFrame := by
    have hcalled : calls (Update.simplexDevice.receive
        { bytes := flaggedFrame, batch := fun _ => 50 }) = true := by
      decide +kernel
    by_contra hnot
    have hsilent := Duplicates.calls_of_not_admissible Update.simplexDevice
      { bytes := flaggedFrame, batch := fun _ => 50 } (by decide) (by decide) hnot
    rw [hsilent] at hcalled
    exact Bool.noConfusion hcalled
  refine ⟨hadm, rfl, by decide, ?_⟩
  rintro ⟨final, hrun, -⟩
  have hfails : (receiveLoop Update.simplexDevice 0 (sendFrame flaggedFrame)).toBool = false := by
    decide +kernel
  rw [hrun] at hfails
  exact Bool.noConfusion hfails

end Pjon.Proofs.AnalogSampling
