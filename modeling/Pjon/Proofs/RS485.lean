import Pjon.Spec.RS485
/-!
# The driver of an RS485 line

`send_frame` looks at `_fail` in front of each byte of the frame, not behind the last one: a port
that refuses a byte earlier makes it return with the driver enabled.
-/

namespace Pjon.Proofs.RS485

open Pjon.Lib Pjon.Model Pjon.Model.ThroughSerial Pjon.Spec

variable {settings : Settings} {takes : Nat → Bool} {t : Transmitter}

/-! ## The pins -/

@[simp] theorem setEnable_txePin (level : Bool) :
    (t.setEnable level).enableRS485TxePin = t.enableRS485TxePin := by
  unfold Transmitter.setEnable
  dsimp only [Transmitter.ioWrite]
  split_ifs <;> rfl

@[simp] theorem setEnable_rxePin (level : Bool) :
    (t.setEnable level).enableRS485RxePin = t.enableRS485RxePin := by
  unfold Transmitter.setEnable
  dsimp only [Transmitter.ioWrite]
  split_ifs <;> rfl

/-- Both pins that are assigned get the level. -/
theorem high_setEnable (htxe : t.enableRS485TxePin ≠ tsNotAssigned) (level : Bool) {pin : UInt8}
    (hpin : pin = t.enableRS485TxePin ∨
      pin = t.enableRS485RxePin ∧ t.enableRS485RxePin ≠ tsNotAssigned) :
    (t.setEnable level).high pin = level := by
  unfold Transmitter.setEnable
  rw [if_pos htxe]
  by_cases hrxe : t.enableRS485RxePin = tsNotAssigned
  · obtain rfl | ⟨_, hassigned⟩ := hpin
    · simp [Transmitter.ioWrite, hrxe]
    · exact absurd hrxe hassigned
  · obtain rfl | ⟨rfl, _⟩ := hpin <;> simp [Transmitter.ioWrite, hrxe]

theorem released_endTx (htxe : t.enableRS485TxePin ≠ tsNotAssigned) : Released t.endTx := by
  unfold Released Transmitter.endTx
  rw [setEnable_txePin, setEnable_rxePin]
  exact ⟨high_setEnable htxe false (Or.inl rfl),
    fun hrxe => high_setEnable htxe false (Or.inr ⟨rfl, hrxe⟩)⟩

theorem not_released_startTx (htxe : t.enableRS485TxePin ≠ tsNotAssigned) :
    ¬ Released t.startTx := by
  intro h
  have hhigh : t.startTx.high t.startTx.enableRS485TxePin = true := by
    unfold Transmitter.startTx
    rw [setEnable_txePin]
    exact high_setEnable htxe true (Or.inl rfl)
  rw [h.1] at hhigh
  exact Bool.false_ne_true hhigh

/-! ## Bytes leave the pins alone -/

/-- The pins and their levels are the same. -/
structure SamePins (t u : Transmitter) : Prop where
  txe : u.enableRS485TxePin = t.enableRS485TxePin
  rxe : u.enableRS485RxePin = t.enableRS485RxePin
  high : u.high = t.high

theorem SamePins.trans {u v : Transmitter} (htu : SamePins t u) (huv : SamePins u v) :
    SamePins t v :=
  ⟨huv.txe.trans htu.txe, huv.rxe.trans htu.rxe, huv.high.trans htu.high⟩

theorem SamePins.released_iff {u : Transmitter} (h : SamePins t u) :
    Released u ↔ Released t := by
  unfold Released
  rw [h.txe, h.rxe, h.high]

theorem samePins_sendByte (value : UInt8) : SamePins t (t.sendByte takes value) :=
  ⟨rfl, rfl, rfl⟩

theorem samePins_sendStuffed (value : UInt8) : SamePins t (t.sendStuffed takes value) := by
  unfold Transmitter.sendStuffed
  split_ifs
  · exact (samePins_sendByte esc).trans (samePins_sendByte _)
  · exact samePins_sendByte value

theorem samePins_sendContent (data : List UInt8) :
    (∀ u, t.sendContent takes data = .ok u → SamePins t u) ∧
      ∀ u, t.sendContent takes data = .error u → SamePins t u := by
  induction data generalizing t with
  | nil =>
      refine ⟨fun u h => ?_, fun u h => nomatch h⟩
      rw [← Except.ok.inj h]
      exact ⟨rfl, rfl, rfl⟩
  | cons value data ih =>
      rw [Transmitter.sendContent]
      split_ifs
      · refine ⟨fun u h => ?_, fun u h => ?_⟩
        · exact nomatch h
        · rw [← Except.error.inj h]
          exact ⟨rfl, rfl, rfl⟩
      · have hfirst : SamePins t (t.sendStuffed takes value) := samePins_sendStuffed value
        exact ⟨fun u h => hfirst.trans (ih.1 u h), fun u h => hfirst.trans (ih.2 u h)⟩

theorem samePins_foldl (values : List UInt8) :
    SamePins t (values.foldl (Transmitter.sendByte takes) t) := by
  induction values generalizing t with
  | nil => exact ⟨rfl, rfl, rfl⟩
  | cons value values ih => exact (samePins_sendByte value).trans ih

/-! ## When the loop returns -/

/-- The bytes a byte of the frame is sent as. -/
def stuffed (data : List UInt8) : List UInt8 := stuff isFlag esc (fun value => value ^^^ esc) data

theorem stuffed_cons (value : UInt8) (data : List UInt8) :
    stuffed (value :: data) = stuffed [value] ++ stuffed data := by
  unfold stuffed stuff
  rw [← List.flatMap_append]
  rfl

theorem tried_sendStuffed (value : UInt8) :
    (t.sendStuffed takes value).tried = t.tried ++ stuffed [value] := by
  unfold Transmitter.sendStuffed
  split_ifs with hflag
  · simp [stuffed, Stuffing.stuff_special hflag, Transmitter.sendByte]
  · rw [Bool.not_eq_true] at hflag
    simp [stuffed, Stuffing.stuff_plain hflag, Transmitter.sendByte]

/-- The port has taken what was tried before, and takes the bytes that follow. -/
theorem sendStuffed_fails_iff (value : UInt8) :
    (t.sendStuffed takes value).fails = false ↔
      t.fails = false ∧
        ∀ k < (stuffed [value]).length, takes (t.tried.length + k) = true := by
  unfold Transmitter.sendStuffed
  split_ifs with hflag
  · have htwo : (stuffed [value]).length = 2 := by
      simp [stuffed, Stuffing.stuff_special hflag]
    rw [htwo]
    simp only [Transmitter.sendByte, List.length_append, List.length_singleton,
      Bool.or_eq_false_iff, Bool.not_eq_false', and_assoc]
    refine and_congr_right fun _ => ⟨fun ⟨h0, h1⟩ k hk => ?_, fun h => ⟨h 0 (by omega),
      h 1 (by omega)⟩⟩
    obtain rfl | rfl : k = 0 ∨ k = 1 := by omega
    · exact h0
    · exact h1
  · rw [Bool.not_eq_true] at hflag
    have hone : (stuffed [value]).length = 1 := by
      simp [stuffed, Stuffing.stuff_plain hflag]
    rw [hone]
    simp [Transmitter.sendByte]

/-- The loop reaches its end if the port takes every byte up to the last of the frame. -/
theorem sendContent_isOk_iff (data : List UInt8) :
    (∃ u, t.sendContent takes data = .ok u) ↔
      data = [] ∨
        (t.fails = false ∧
          ∀ k < (stuffed data.dropLast).length, takes (t.tried.length + k) = true) := by
  induction data generalizing t with
  | nil => exact iff_of_true ⟨t, rfl⟩ (Or.inl rfl)
  | cons value data ih =>
      rw [Transmitter.sendContent]
      cases hfails : t.fails with
      | true => simp
      | false =>
          rw [if_neg Bool.false_ne_true, ih, tried_sendStuffed, sendStuffed_fails_iff, hfails]
          cases data with
          | nil => simp [stuffed]
          | cons next data =>
              rw [List.dropLast_cons_cons, stuffed_cons value (next :: data).dropLast]
              simp only [List.length_append, reduceCtorEq, false_or, true_and]
              constructor
              · rintro ⟨hfirst, hrest⟩ k hk
                by_cases hlt : k < (stuffed [value]).length
                · exact hfirst k hlt
                · have := hrest (k - (stuffed [value]).length) (by omega)
                  rwa [Nat.add_assoc, Nat.add_sub_cancel' (by omega)] at this
              · intro h
                refine ⟨fun k hk => h k (by omega), fun k hk => ?_⟩
                rw [Nat.add_assoc]
                exact h _ (by omega)

/-! ## The calls -/

theorem length_beforeLast (data : List UInt8) :
    (SerialCall.beforeLast data).length = 1 + (stuffed data.dropLast).length := by
  simp [SerialCall.beforeLast, Port.written, stuffed]
  omega

/-- What `send_frame` starts its loop with. -/
theorem begun_iff (data : List UInt8) :
    (∃ u, (({ t with fails := false, tried := [] }.startTx).sendByte takes start).sendContent
        takes data = .ok u) ↔
      data = [] ∨ ∀ k < (SerialCall.beforeLast data).length, takes k = true := by
  have hstart : ({ t with fails := false, tried := [] }.startTx).fails = false ∧
      ({ t with fails := false, tried := [] }.startTx).tried = [] := by
    unfold Transmitter.startTx Transmitter.setEnable
    dsimp only [Transmitter.ioWrite]
    split_ifs <;> exact ⟨rfl, rfl⟩
  rw [sendContent_isOk_iff, length_beforeLast]
  simp only [Transmitter.sendByte, hstart.1, hstart.2, List.nil_append, List.length_nil,
    List.length_singleton, Bool.false_or, Bool.not_eq_false']
  refine or_congr_right ⟨?_, fun h => ⟨h 0 (by omega), fun k hk => h _ (by omega)⟩⟩
  rintro ⟨hfirst, hrest⟩ k hk
  cases k with
  | zero => exact hfirst
  | succ k =>
      rw [Nat.add_comm]
      exact hrest k (by omega)

theorem released_sendFrame_iff (htxe : t.enableRS485TxePin ≠ tsNotAssigned) (data : List UInt8) :
    Released (t.sendFrame takes settings data) ↔
      data = [] ∨ ∀ k < (SerialCall.beforeLast data).length, takes k = true := by
  rw [← begun_iff (t := t)]
  unfold Transmitter.sendFrame
  set begun := ({ t with fails := false, tried := [] }.startTx).sendByte takes start with hbegun
  have hassigned : begun.enableRS485TxePin ≠ tsNotAssigned := by
    rw [hbegun, (samePins_sendByte start).txe, Transmitter.startTx, setEnable_txePin]
    exact htxe
  have hdriven : ¬ Released begun := by
    rw [hbegun, (samePins_sendByte start).released_iff]
    exact not_released_startTx htxe
  cases hcontent : begun.sendContent takes data with
  | error u =>
      have hsame := (samePins_sendContent data).2 u hcontent
      dsimp only
      rw [hcontent]
      apply iff_of_false (mt hsame.released_iff.mp hdriven)
      rintro ⟨v, hv⟩
      exact nomatch hv
  | ok u =>
      have hsame := (samePins_sendContent data).1 u hcontent
      have hend : (u.sendByte takes endFlag).enableRS485TxePin ≠ tsNotAssigned := by
        rw [(samePins_sendByte endFlag).txe, hsame.txe]
        exact hassigned
      dsimp only
      rw [hcontent]
      have hpins : SamePins (u.sendByte takes endFlag).endTx
          { (u.sendByte takes endFlag).endTx with
            port := (u.sendByte takes endFlag).endTx.port.sendFrame settings data } :=
        ⟨rfl, rfl, rfl⟩
      exact iff_of_true (hpins.released_iff.mpr (released_endTx hend)) ⟨u, rfl⟩

theorem released_sendResponse_iff (htxe : t.enableRS485TxePin ≠ tsNotAssigned)
    (response : UInt8) :
    Released (t.sendResponse takes settings response) ↔
      response.toNat = ack ∨ Released t := by
  unfold Transmitter.sendResponse
  split_ifs with hack
  · refine iff_of_true (released_endTx ?_) (Or.inl hack)
    rw [(samePins_foldl _).txe, Transmitter.startTx, setEnable_txePin]
    exact htxe
  · exact (or_iff_right hack).symm

/-- A call releases the line exactly if the port takes all that is in front of the last byte. -/
theorem call_releases_iff (settings : Settings) (takes : Nat → Bool) (t : Transmitter)
    (call : SerialCall) (htxe : t.enableRS485TxePin ≠ tsNotAssigned) :
    Released (call.run settings takes t) ↔ call.Releases takes t := by
  cases call with
  | sendFrame data => exact released_sendFrame_iff htxe data
  | sendResponse response => exact released_sendResponse_iff htxe response

/-- Two pins and a port that refuses the last byte of a frame only. -/
theorem call_releases_iff_lastRefused :
    Released ((SerialCall.sendFrame [1, 2]).run {} (fun k => k != 2)
        { enableRS485TxePin := 2, enableRS485RxePin := 3 }) ↔
      (SerialCall.sendFrame [1, 2]).Releases (fun k => k != 2)
        { enableRS485TxePin := 2, enableRS485RxePin := 3 } :=
  call_releases_iff _ _ _ _ (by decide)

/-- The port does not take the flag that starts a frame: the driver stays enabled. -/
theorem refused_start_drives :
    ¬ ∀ (settings : Settings) (takes : Nat → Bool) (t : Transmitter) (call : SerialCall),
      t.enableRS485TxePin ≠ tsNotAssigned → Released (call.run settings takes t) := by
  intro h
  have hdriven : ¬ Released ((SerialCall.sendFrame [44, 2, 6, 181, 64]).run {}
      (fun k => k != 0) { enableRS485TxePin := 2, enableRS485RxePin := 3 }) := by
    decide
  exact hdriven (h _ _ _ _ (by decide))

end Pjon.Proofs.RS485
