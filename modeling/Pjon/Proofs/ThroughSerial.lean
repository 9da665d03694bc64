import Pjon.Model.ThroughSerial
import Pjon.Lib.Run
/-!
# Where the ThroughSerial receiver stays inside its buffer

A plain byte is stored only below the maximum length; an escaped byte is stored
without a look at the position, and a frame may end before it has as many bytes as
the response is made of.  Nothing else can go wrong: a run is safe exactly when
neither happens in it.
-/

namespace Pjon.Proofs.ThroughSerial

open Pjon.Lib Pjon.Model.ThroughSerial

/-! ## Safety of one call -/

/-- The accesses of one call that starts at `position` are in range. -/
structure Safe (settings : Settings) (position : Nat) (frame : Frame) : Prop where
  stored : ∀ i ∈ frame.stored, i < settings.packetMaxLength
  returned : frame.data.length ≤ settings.packetMaxLength
  prepared : ∀ i ∈ frame.prepared, 0 ≤ i ∧ i < position

/-- Every escape sequence that is completed among the reads finds room in the buffer;
`position` bytes of the frame are stored already. -/
def EscapesFit (settings : Settings) (maxLength : Nat) : Nat → List Read → Prop
  | _, [] => True
  | position, read :: reads =>
    match read.value with
    | none => True
    | some value =>
      if value = start then True
      else if value = esc then
        match reads with
        | [] => True
        | escaped :: reads =>
          match escaped.value with
          | none => True
          | some value =>
            if isFlag (value ^^^ esc) then
              position < settings.packetMaxLength ∧
                EscapesFit settings maxLength ((position + 1) % 65536) reads
            else True
      else if maxLength = 1 then True
      else if settings.packetMaxLength ≤ position + 1 then True
      else if value = endFlag then True
      else EscapesFit settings maxLength ((position + 1) % 65536) reads

/-- The next read completes an escape sequence. -/
def CompletesEscape (reads : List Read) : Prop :=
  ∃ escaped value, reads.head? = some escaped ∧ escaped.value = some value ∧
    isFlag (value ^^^ esc) = true

/-- The state machine does not take the branches without a check: an escaped byte comes
when there is room for it, a frame is handed over with enough bytes for a response. -/
def Fits (settings : Settings) (port : Port) (call : Call) : Prop :=
  match port.state with
  | .receiving => EscapesFit settings call.maxLength port.position call.reads
  | .waitingEscape => CompletesEscape call.reads → port.position < settings.packetMaxLength
  | .done => settings.responseLength ≤ port.position
  | .waiting => True
  | .waitingEnd => True

/-- The call is turned away by the clock, or what it reads fits. -/
def Allowed (settings : Settings) (port : Port) (call : Call) : Prop :=
  port.tooEarly call = true ∨ port.timedOut settings call = true ∨ Fits settings port call

/-! ## The cases of the state machine -/

section Cases

variable {settings : Settings}

@[simp] theorem receiveByte_position (port : Port) (read : Read) :
    (port.receiveByte read).position = port.position := by
  unfold Port.receiveByte
  cases read.value <;> rfl

@[simp] theorem store_position (port : Port) (value : UInt8) :
    (port.store value).position = (port.position + 1) % 65536 := rfl

/-- The frame of a call that hands nothing over. -/
structure Quiet (frame : Frame) : Prop where
  data : frame.data = []
  prepared : frame.prepared = []

theorem quiet_fail (port : Port) (state : State) : Quiet (port.fail state) := ⟨rfl, rfl⟩

theorem safe_iff_of_quiet {position : Nat} {frame : Frame} (h : Quiet frame) :
    Safe settings position frame ↔ ∀ i ∈ frame.stored, i < settings.packetMaxLength := by
  refine ⟨fun hsafe => hsafe.stored, fun hstored => ⟨hstored, ?_, ?_⟩⟩
  · rw [h.data]
    exact Nat.zero_le _
  · rw [h.prepared]
    intro i hi
    simp at hi

/-- What a call that starts at `position` stores is in range exactly when `fits` holds, and
it then leaves the position in range. -/
structure Stores (settings : Settings) (position : Nat) (fits : Prop) (frame : Frame) : Prop
    extends Quiet frame where
  stored : (∀ i ∈ frame.stored, i < settings.packetMaxLength) ↔ fits
  final : fits → position ≤ settings.packetMaxLength →
    frame.port.position ≤ settings.packetMaxLength

theorem stores_nothing {port : Port} {frame : Frame} (hquiet : Quiet frame)
    (hstored : frame.stored = []) (hport : frame.port.position = port.position) :
    Stores settings port.position True frame := by
  refine ⟨hquiet, ?_, fun _ h => hport ▸ h⟩
  rw [hstored]
  simp

theorem stores_fail {port port' : Port} (state : State) (h : port'.position = port.position) :
    Stores settings port.position True (port'.fail state) :=
  stores_nothing (quiet_fail port' state) rfl h

/-- One byte is stored, and then what the rest of the call stores. -/
theorem Stores.cons {position : Nat} {fits : Prop} {frame : Frame}
    (h : Stores settings ((position + 1) % 65536) fits frame) :
    Stores settings position (position < settings.packetMaxLength ∧ fits)
      { frame with stored := position :: frame.stored } := by
  refine ⟨⟨h.data, h.prepared⟩, ?_, ?_⟩
  · rw [List.forall_mem_cons, h.stored]
  · rintro ⟨hroom, hfits⟩ -
    have hnext : (position + 1) % 65536 ≤ settings.packetMaxLength :=
      (Nat.mod_le _ _).trans hroom
    exact h.final hfits hnext

theorem waiting_stores (settings : Settings) (port : Port) (reads : List Read) :
    Stores settings port.position True (port.waiting reads) := by
  induction reads generalizing port with
  | nil => exact stores_nothing ⟨rfl, rfl⟩ rfl rfl
  | cons read reads ih =>
      have hread := receiveByte_position port read
      rw [Port.waiting]
      cases read.value with
      | none => exact stores_nothing ⟨rfl, rfl⟩ rfl hread
      | some value =>
          by_cases hstart : value = start
          · simp only [if_pos hstart]
            refine ⟨⟨rfl, rfl⟩, iff_of_true ?_ trivial, fun _ _ => Nat.zero_le _⟩
            intro i hi
            simp [Port.fail] at hi
          · simp only [if_neg hstart]
            have hnext := ih (port.receiveByte read)
            rwa [hread] at hnext

theorem receiving_stores (settings : Settings) (maxLength : Nat) :
    ∀ (reads : List Read) (port : Port),
      Stores settings port.position (EscapesFit settings maxLength port.position reads)
        (port.receiving settings maxLength reads)
  | [], port => stores_nothing ⟨rfl, rfl⟩ rfl rfl
  | read :: reads, port => by
      have hread := receiveByte_position port read
      rw [Port.receiving.eq_def, EscapesFit.eq_def]
      simp only
      cases read.value with
      | none => exact stores_fail _ hread
      | some value =>
          by_cases hstart : value = start
          · simp only [if_pos hstart]
            exact stores_fail _ hread
          · simp only [if_neg hstart]
            by_cases hesc : value = esc
            · simp only [if_pos hesc]
              cases reads with
              | nil => exact stores_fail _ hread
              | cons escaped reads =>
                  have hescaped := (receiveByte_position (port.receiveByte read) escaped).trans
                    hread
                  simp only
                  cases escaped.value with
                  | none => exact stores_fail _ hescaped
                  | some symbol =>
                      by_cases hflag : isFlag (symbol ^^^ esc) = true
                      · simp only [if_pos hflag]
                        have hrest := receiving_stores settings maxLength reads
                          (((port.receiveByte read).receiveByte escaped).store (symbol ^^^ esc))
                        rw [store_position, hescaped] at hrest
                        simp only [hescaped]
                        exact hrest.cons
                      · simp only [if_neg hflag]
                        exact stores_fail _ hescaped
            · simp only [if_neg hesc]
              by_cases hone : maxLength = 1
              · simp only [if_pos hone]
                exact stores_fail _ hread
              · simp only [if_neg hone, hread]
                by_cases hfull : settings.packetMaxLength ≤ port.position + 1
                · simp only [if_pos hfull]
                  exact stores_fail _ hread
                · simp only [if_neg hfull]
                  by_cases hend : value = endFlag
                  · simp only [if_pos hend]
                    exact stores_fail _ hread
                  · simp only [if_neg hend]
                    -- the only store with a check in front of it
                    have hroom : port.position < settings.packetMaxLength := by omega
                    have hrest := receiving_stores settings maxLength reads
                      ((port.receiveByte read).store value)
                    rw [store_position, hread] at hrest
                    have hstores := hrest.cons
                    rwa [and_iff_right hroom] at hstores

/-- What a call stores that reads nothing which completes an escape sequence. -/
theorem stores_iff_of_not {position : Nat} {completes fits : Prop} {frame : Frame}
    (hnot : ¬completes) (h : Stores settings position True frame) :
    Stores settings position (completes → fits) frame :=
  ⟨h.toQuiet, h.stored.trans (iff_of_true trivial fun hyes => absurd hyes hnot),
    fun _ => h.final trivial⟩

theorem waitingEscape_stores (settings : Settings) (port : Port) (reads : List Read) :
    Stores settings port.position
      (CompletesEscape reads → port.position < settings.packetMaxLength)
      (port.waitingEscape reads) := by
  cases reads with
  | nil =>
      apply stores_iff_of_not
      · rintro ⟨escaped, value, hhead, -⟩
        simp at hhead
      · exact stores_nothing ⟨rfl, rfl⟩ rfl rfl
  | cons escaped reads =>
      have hread := receiveByte_position port escaped
      rw [Port.waitingEscape]
      cases hvalue : escaped.value with
      | none =>
          apply stores_iff_of_not
          · rintro ⟨other, value, hhead, hother, -⟩
            rw [List.head?_cons, Option.some.injEq] at hhead
            rw [← hhead, hvalue] at hother
            simp at hother
          · exact stores_fail _ hread
      | some value =>
          by_cases hflag : isFlag (value ^^^ esc) = true
          · have hcompletes : CompletesEscape (escaped :: reads) :=
              ⟨escaped, value, rfl, hvalue, hflag⟩
            have hstored : Stores settings ((port.position + 1) % 65536) True
                (((port.receiveByte escaped).store (value ^^^ esc)).fail .receiving) := by
              rw [← hread, ← store_position]
              exact stores_fail _ rfl
            have hcons := hstored.cons
            rw [and_true] at hcons
            simp only [if_pos hflag, hread]
            rw [forall_prop_of_true hcompletes]
            exact hcons
          · apply stores_iff_of_not
            · rintro ⟨other, symbol, hhead, hother, hsymbol⟩
              rw [List.head?_cons, Option.some.injEq] at hhead
              rw [← hhead, hvalue, Option.some.injEq] at hother
              exact hflag (hother ▸ hsymbol)
            · simp only [if_neg hflag]
              exact stores_fail _ hread

theorem waitingEnd_stores (settings : Settings) (port : Port) (reads : List Read) :
    Stores settings port.position True (port.waitingEnd reads) := by
  cases reads with
  | nil => exact stores_nothing ⟨rfl, rfl⟩ rfl rfl
  | cons read reads =>
      rw [Port.waitingEnd]
      split_ifs
      · exact stores_fail _ (receiveByte_position port read)
      · exact stores_fail _ (receiveByte_position port read)

/-- The response is made of the last bytes of the frame, if it has as many. -/
theorem done_prepared (settings : Settings) (port : Port) :
    (∀ i ∈ (port.done settings).prepared, 0 ≤ i ∧ i < port.position) ↔
      settings.responseLength ≤ port.position := by
  simp only [Port.done, List.mem_map, List.mem_range, Port.responseIndex]
  constructor
  · intro h
    by_cases hnone : settings.responseLength = 0
    · omega
    · have hfirst := (h _ ⟨0, by omega, rfl⟩).1
      omega
  · rintro h i ⟨k, hk, rfl⟩
    omega

end Cases

/-! ## One call -/

/-- What is safe, and what of it is in range afterwards, for a frame that starts at
`position`. -/
def SafeIff (settings : Settings) (position : Nat) (fits : Prop) (frame : Frame) : Prop :=
  (Safe settings position frame ↔ fits) ∧ (fits → frame.port.position ≤ settings.packetMaxLength)

theorem Stores.safeIff {settings : Settings} {position : Nat} {fits : Prop} {frame : Frame}
    (h : Stores settings position fits frame) (hposition : position ≤ settings.packetMaxLength) :
    SafeIff settings position fits frame := by
  refine ⟨?_, fun hfits => h.final hfits hposition⟩
  rw [safe_iff_of_quiet h.toQuiet, h.stored]

theorem done_safeIff (settings : Settings) (port : Port)
    (h : port.position ≤ settings.packetMaxLength) :
    SafeIff settings port.position (settings.responseLength ≤ port.position)
      (port.done settings) := by
  refine ⟨⟨fun hsafe => (done_prepared settings port).mp hsafe.prepared, fun hlong => ?_⟩,
    fun _ => h⟩
  refine ⟨?_, ?_, (done_prepared settings port).mpr hlong⟩
  · intro i hi
    simp [Port.done] at hi
  · simpa [Port.done] using h

theorem switch_safeIff (settings : Settings) (port : Port) (call : Call)
    (h : port.position ≤ settings.packetMaxLength) :
    SafeIff settings port.position (Fits settings port call) (port.switch settings call) := by
  unfold Fits Port.switch
  cases port.state with
  | waiting => exact (waiting_stores settings port call.reads).safeIff h
  | receiving => exact (receiving_stores settings call.maxLength call.reads port).safeIff h
  | waitingEscape => exact (waitingEscape_stores settings port call.reads).safeIff h
  | waitingEnd => exact (waitingEnd_stores settings port call.reads).safeIff h
  | done => exact done_safeIff settings port h

/-- A call is safe exactly when it is allowed, and it then keeps the position in range. -/
theorem receiveFrame_safeIff (settings : Settings) (port : Port) (call : Call)
    (h : port.position ≤ settings.packetMaxLength) :
    SafeIff settings port.position (Allowed settings port call)
      (port.receiveFrame settings call) := by
  have hsame : ({ port with lastCallTime := call.callNow } : Port).timedOut settings call =
      port.timedOut settings call := rfl
  rw [Port.receiveFrame]
  simp only [hsame]
  by_cases hearly : port.tooEarly call = true
  · have hallowed : Allowed settings port call ↔ True :=
      iff_of_true (Or.inl hearly) trivial
    rw [if_pos hearly, hallowed]
    have hstores : Stores settings port.position True { port := port } :=
      stores_nothing ⟨rfl, rfl⟩ rfl rfl
    exact hstores.safeIff h
  · rw [if_neg hearly]
    by_cases hlate : port.timedOut settings call = true
    · have hallowed : Allowed settings port call ↔ True :=
        iff_of_true (Or.inr (Or.inl hlate)) trivial
      rw [if_pos hlate, hallowed]
      have hstores : Stores settings port.position True
          (({ port with lastCallTime := call.callNow } : Port).fail .waiting) :=
        stores_fail _ rfl
      exact hstores.safeIff h
    · have hallowed : Allowed settings port call ↔ Fits settings port call := by
        rw [Allowed, or_iff_right hearly, or_iff_right hlate]
      rw [if_neg hlate, hallowed]
      exact switch_safeIff settings { port with lastCallTime := call.callNow } call h

/-! ## A whole run -/

def next (settings : Settings) (port : Port) (call : Call) : Port :=
  (port.receiveFrame settings call).port

/-- Over any sequence of calls, every access is in range exactly when every call is
allowed in the state it finds. -/
theorem receiveFrame_run_safe_iff (settings : Settings) (port : Port)
    (h : port.position ≤ settings.packetMaxLength) (calls : List Call) :
    (∀ step ∈ Run.steps (next settings) port calls,
        Safe settings step.1.position (step.1.receiveFrame settings step.2)) ↔
      ∀ step ∈ Run.steps (next settings) port calls, Allowed settings step.1 step.2 := by
  have hiff (port : Port) (call : Call) (hposition : port.position ≤ settings.packetMaxLength) :
      Safe settings port.position (port.receiveFrame settings call) ↔
        Allowed settings port call :=
    (receiveFrame_safeIff settings port call hposition).1
  have hnext (port : Port) (call : Call) (hposition : port.position ≤ settings.packetMaxLength)
      (hallowed : Allowed settings port call) :
      (next settings port call).position ≤ settings.packetMaxLength :=
    (receiveFrame_safeIff settings port call hposition).2 hallowed
  have hrun := @Run.forall_good_iff Port Call (next settings)
    (fun port => port.position ≤ settings.packetMaxLength)
    (fun port call => Safe settings port.position (port.receiveFrame settings call))
    (Allowed settings) hiff hnext port h calls
  exact hrun

/-! ## Two runs that leave the buffer -/

/-- A call at a time at which the bytes are available. -/
def callAt (now : UInt32) (bytes : List UInt8) : Call where
  maxLength := 50
  intervalNow := now
  callNow := now
  timeoutNow := now
  reads := bytes.map fun value => { value := some value, now := now }

/-- A frame without content. -/
def emptyFrame : List Call := [callAt 1000 [start], callAt 2000 [endFlag], callAt 3000 []]

/-- A frame of flags, each of them escaped. -/
def escapedFlags (count : Nat) : List Call :=
  [callAt 1000 [start], callAt 2000 (List.replicate count [esc, start ^^^ esc]).flatten]

theorem receiveFrame_run_safe_iff_emptyFrame :
    ({} : Port).position ≤ ({} : Settings).packetMaxLength ∧
      ((∀ step ∈ Run.steps (next {}) {} (emptyFrame.take 2),
          Safe {} step.1.position (step.1.receiveFrame {} step.2)) ↔
        ∀ step ∈ Run.steps (next {}) {} (emptyFrame.take 2), Allowed {} step.1 step.2) :=
  ⟨by decide, receiveFrame_run_safe_iff {} {} (by decide) _⟩

/-- The response to an empty frame is read in front of the buffer, and the 51st escaped flag
is stored behind it. -/
theorem emptyFrame_escapedFlags_unsafe :
    (∃ step ∈ Run.steps (next {}) {} emptyFrame,
      -1 ∈ (step.1.receiveFrame {} step.2).prepared) ∧
    (∃ step ∈ Run.steps (next {}) {} (escapedFlags 51),
      50 ∈ (step.1.receiveFrame {} step.2).stored) ∧
    ¬∀ calls : List Call,
      (∀ call ∈ calls, call.maxLength = ({} : Settings).packetMaxLength) →
        ∀ step ∈ Run.steps (next {}) {} calls,
          Safe {} step.1.position (step.1.receiveFrame {} step.2) := by
  have hprepared : ∃ step ∈ Run.steps (next {}) {} emptyFrame,
      -1 ∈ (step.1.receiveFrame {} step.2).prepared := by
    refine ⟨_, List.mem_cons_of_mem _ (List.mem_cons_of_mem _ List.mem_cons_self), ?_⟩
    decide
  have hstored : ∃ step ∈ Run.steps (next {}) {} (escapedFlags 51),
      50 ∈ (step.1.receiveFrame {} step.2).stored := by
    refine ⟨_, List.mem_cons_of_mem _ List.mem_cons_self, ?_⟩
    decide +kernel
  refine ⟨hprepared, hstored, fun hsafe => ?_⟩
  obtain ⟨step, hstep, hindex⟩ := hstored
  have hroom := (hsafe (escapedFlags 51) (by decide +kernel) step hstep).stored 50 hindex
  exact absurd hroom (by decide)

end Pjon.Proofs.ThroughSerial
