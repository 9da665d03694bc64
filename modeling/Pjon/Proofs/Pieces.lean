import Pjon.Proofs.Framing
import Pjon.Lib.Transducer
/-!
# A stream that arrives in pieces

The receiver of ThroughSerial is a machine that reads one byte at a time: the state in which it
waits for the rest of an escape does what the loop does when the rest is there already, and a
frame that is complete is handed out by the next call.  The frames that it returns are therefore
those of the stream, in whatever pieces this arrives.
-/

namespace Pjon.Proofs.Pieces

open Pjon.Lib Pjon.Lib.Stuffing Pjon.Model.ThroughSerial Pjon.Spec Pjon.Proofs.Framing

variable {settings : Settings}

/-! ## Byte by byte -/

/-- What a port knows of the frame that it receives. -/
structure Reader where
  buffer : Memory
  position : Nat
  state : State

namespace Reader

def moveTo (reader : Reader) (state : State) : Reader × List (Nat × List UInt8) :=
  ({ reader with state := state }, [])

def store (reader : Reader) (value : UInt8) : Reader × List (Nat × List UInt8) :=
  ({ buffer := reader.buffer.store reader.position [value]
     position := (reader.position + 1) % 65536
     state := .receiving }, [])

/-- The frame that the reader holds, which a call can return if its length is not `TS_FAIL`. -/
def frame (reader : Reader) : List (Nat × List UInt8) :=
  if reader.position = tsFail then []
  else [(reader.position, reader.buffer.load 0 reader.position)]

def finish (reader : Reader) : Reader × List (Nat × List UInt8) :=
  ({ reader with state := .waiting }, reader.frame)

/-- What a byte does; a frame is put out with its last byte. -/
def step (settings : Settings) (reader : Reader) (value : UInt8) :
    Reader × List (Nat × List UInt8) :=
  match reader.state with
  | .waiting | .done =>
    if value = start then { reader with position := 0 }.moveTo .receiving
    else reader.moveTo .waiting
  | .receiving =>
    if value = start then reader.moveTo .waiting
    else if value = esc then reader.moveTo .waitingEscape
    else if settings.packetMaxLength = 1 then reader.moveTo .waitingEnd
    else if settings.packetMaxLength ≤ reader.position + 1 then reader.moveTo .waiting
    else if value = endFlag then reader.finish
    else reader.store value
  | .waitingEscape =>
    if isFlag (value ^^^ esc) then reader.store (value ^^^ esc) else reader.moveTo .waiting
  | .waitingEnd => if value = endFlag then reader.finish else reader.moveTo .waiting

abbrev run (settings : Settings) : Reader → List UInt8 → Reader × List (Nat × List UInt8) :=
  Transducer.run (step settings)

section Step

variable {reader : Reader} {value : UInt8}

theorem step_opens (h : reader.state = .waiting) :
    reader.step settings start = { reader with position := 0 }.moveTo .receiving := by
  rw [step, h]
  exact if_pos rfl

theorem step_escape (h : reader.state = .receiving) :
    reader.step settings esc = reader.moveTo .waitingEscape := by
  have hesc : esc ≠ start := by decide
  rw [step, h]
  simp only [if_neg hesc, if_true]

theorem step_escaped (h : reader.state = .waitingEscape) (hflag : isFlag (value ^^^ esc) = true) :
    reader.step settings value = reader.store (value ^^^ esc) := by
  rw [step, h]
  exact if_pos hflag

theorem step_stores (h : reader.state = .receiving) (hstart : value ≠ start) (hesc : value ≠ esc)
    (hend : value ≠ endFlag) (hone : settings.packetMaxLength ≠ 1)
    (hfull : ¬settings.packetMaxLength ≤ reader.position + 1) :
    reader.step settings value = reader.store value := by
  rw [step, h]
  simp only [if_neg hstart, if_neg hesc, if_neg hone, if_neg hfull, if_neg hend]

end Step

end Reader

/-- The reader that a port is, and the frame that it still has to return. -/
def settle (port : Port) : Reader × List (Nat × List UInt8) :=
  if port.state = .done then
    Reader.finish { buffer := port.buffer, position := port.position, state := .done }
  else ({ buffer := port.buffer, position := port.position, state := port.state }, [])

theorem settle_of_ne {port : Port} (h : port.state ≠ .done) :
    settle port = ({ buffer := port.buffer, position := port.position, state := port.state }, []) :=
  if_neg h

theorem settle_ne_done (port : Port) : (settle port).1.state ≠ .done := by
  unfold settle
  split_ifs with h
  · exact State.noConfusion
  · exact h

theorem settle_done {port : Port} (h : port.state = .done) :
    settle port =
      Reader.finish { buffer := port.buffer, position := port.position, state := .done } :=
  if_pos h

/-- What a call makes of the bytes that it reads. -/
def Follows (settings : Settings) (port : Port) (frame : Frame) (piece : List UInt8) : Prop :=
  ((settle port).1.run settings piece).1 = (settle frame.port).1 ∧
    (settle port).2 ++ ((settle port).1.run settings piece).2 =
      returned frame ++ (settle frame.port).2

/-! ## The states -/

theorem follows_idle (port : Port) : Follows settings port { port := port } [] := by
  refine ⟨rfl, ?_⟩
  show (settle port).2 ++ [] = [] ++ (settle port).2
  rw [List.append_nil, List.nil_append]

theorem follows_done {port : Port} (h : port.state = .done) :
    Follows settings port (port.done settings) [] := by
  have hafter : settle (port.done settings).port =
      ({ buffer := port.buffer, position := port.position, state := .waiting }, []) :=
    settle_of_ne State.noConfusion
  rw [Follows, hafter, settle_done h]
  refine ⟨rfl, ?_⟩
  simp only [Reader.finish, Reader.frame, Reader.run, Transducer.run_nil, List.append_nil]
  rfl

/-- A byte after which the call goes on reading. -/
theorem follows_cons {port port' : Port} {value : UInt8} {frame : Frame} {piece : List UInt8}
    (hport : port.state ≠ .done) (hport' : port'.state ≠ .done)
    (hstep : Reader.step settings (settle port).1 value = ((settle port').1, []))
    (h : Follows settings port' frame piece) : Follows settings port frame (value :: piece) := by
  obtain ⟨hreader, hframes⟩ := h
  have hnone : (settle port).2 = [] := by rw [settle_of_ne hport]
  have hnone' : (settle port').2 = [] := by rw [settle_of_ne hport']
  rw [hnone', List.nil_append] at hframes
  rw [Follows, Reader.run, Transducer.run_cons, hstep, hnone]
  exact ⟨hreader, hframes⟩

/-- A byte after which the call ends. -/
theorem follows_last {port : Port} {value : UInt8} {frame : Frame} (hport : port.state ≠ .done)
    (hresult : frame.result = tsFail)
    (hstep : Reader.step settings (settle port).1 value = settle frame.port) :
    Follows settings port frame [value] := by
  have hnone : (settle port).2 = [] := by rw [settle_of_ne hport]
  rw [Follows, Reader.run, Transducer.run_cons, hstep, hnone, returned, if_pos hresult]
  exact ⟨rfl, List.append_nil _⟩

/-- A read leaves nothing but its time. -/
theorem receiveByte_eq (port : Port) (read : Read) :
    port.receiveByte read =
      { port with lastReceptionTime := (port.receiveByte read).lastReceptionTime } := by
  unfold Port.receiveByte
  cases read.value
  · rfl
  · rfl

theorem settle_receiveByte (port : Port) (read : Read) :
    settle (port.receiveByte read) = settle port := by
  rw [receiveByte_eq]
  rfl

theorem receiveByte_state (port : Port) (read : Read) :
    (port.receiveByte read).state = port.state := by
  rw [receiveByte_eq]

theorem receiveByte_position (port : Port) (read : Read) :
    (port.receiveByte read).position = port.position := by
  rw [receiveByte_eq]

theorem receiveByte_buffer (port : Port) (read : Read) :
    (port.receiveByte read).buffer = port.buffer := by
  rw [receiveByte_eq]

theorem settle_fail (port : Port) (read : Read) {state : State} (h : state ≠ .done) :
    settle ((port.receiveByte read).fail state).port =
      ({ buffer := port.buffer, position := port.position, state := state }, []) := by
  rw [settle_of_ne h, receiveByte_eq]
  rfl

theorem settle_finish (port : Port) (read : Read) :
    settle ((port.receiveByte read).fail .done).port =
      Reader.finish { buffer := port.buffer, position := port.position, state := .done } := by
  rw [settle_done rfl, receiveByte_eq]
  rfl

theorem settle_store (port : Port) (read : Read) (value : UInt8)
    (h : port.state = .receiving) :
    settle ((port.receiveByte read).store value) =
      Reader.store { buffer := port.buffer, position := port.position, state := .receiving }
        value := by
  have hstate : ((port.receiveByte read).store value).state = .receiving :=
    (receiveByte_state port read).trans h
  rw [settle_of_ne (by rw [hstate]; exact State.noConfusion), hstate, receiveByte_eq]
  rfl

theorem follows_waiting (chunk : List UInt8) : ∀ (reads : List Read) (port : Port),
    port.state = .waiting → Reading reads chunk →
      Follows settings port (port.waiting reads) (chunk.take (Port.waitingReads reads)) := by
  induction chunk with
  | nil =>
      intro reads port hstate hreading
      rw [reading_nil hreading]
      exact follows_idle port
  | cons value chunk ih =>
      intro reads port hstate hreading
      obtain ⟨read, reads, rfl, hvalue, hrest⟩ := reading_cons hreading
      have hne : port.state ≠ .done := by rw [hstate]; exact State.noConfusion
      have hstate' : (port.receiveByte read).state = .waiting :=
        (receiveByte_state port read).trans hstate
      have hreader := settle_of_ne hne
      rw [hstate] at hreader
      rw [Port.waiting, Port.waitingReads, hvalue]
      by_cases hstart : value = start
      · simp only [if_pos hstart, List.take_succ_cons, List.take_zero]
        apply follows_last hne rfl
        rw [hreader, Reader.step]
        simp only [if_pos hstart]
        have hafter : ({ port.receiveByte read with position := 0 }.fail .receiving).port.state ≠
            .done := State.noConfusion
        rw [settle_of_ne hafter, Port.receiveByte, hvalue]
        rfl
      · simp only [if_neg hstart, List.take_succ_cons]
        refine follows_cons hne (by rw [hstate']; exact State.noConfusion) ?_
          (ih reads _ hstate' hrest)
        rw [settle_receiveByte, hreader, Reader.step]
        simp only [if_neg hstart]
        rfl

/-- The loop of the state `TS_RECEIVING`, by induction on the bytes that are available; an escape
takes two of them. -/
theorem follows_receiving : ∀ (chunk : List UInt8) (reads : List Read) (port : Port),
    port.state = .receiving → Reading reads chunk →
      Follows settings port (port.receiving settings settings.packetMaxLength reads)
        (chunk.take (Port.receivingReads settings settings.packetMaxLength port.position reads))
  | [], reads, port, hstate, hreading => by
    rw [reading_nil hreading]
    exact follows_idle port
  | value :: chunk, reads, port, hstate, hreading => by
    obtain ⟨read, reads, rfl, hvalue, hrest⟩ := reading_cons hreading
    have hne : port.state ≠ .done := by rw [hstate]; exact State.noConfusion
    have hposition := receiveByte_position port read
    have hreader := settle_of_ne hne
    rw [hstate] at hreader
    have hends {state : State} (hstate : state ≠ .done)
        (hstep : Reader.step settings (settle port).1 value =
          ({ buffer := port.buffer, position := port.position, state := state }, [])) :
        Follows settings port ((port.receiveByte read).fail state) [value] :=
      follows_last hne rfl (hstep.trans (settle_fail port read hstate).symm)
    rw [Port.receiving.eq_def, Port.receivingReads.eq_def]
    simp only [hvalue, hposition]
    by_cases hstart : value = start
    · simp only [if_pos hstart, List.take_succ_cons, List.take_zero]
      apply hends State.noConfusion
      rw [hreader, Reader.step]
      simp only [if_pos hstart]
      rfl
    · simp only [if_neg hstart]
      by_cases hesc : value = esc
      · simp only [if_pos hesc]
        have hopens : Reader.step settings (settle port).1 value =
            settle ((port.receiveByte read).fail .waitingEscape).port := by
          rw [settle_fail port read State.noConfusion, hreader, Reader.step]
          simp only [if_neg hstart, if_pos hesc]
          rfl
        cases chunk with
        | nil =>
            rw [reading_nil hrest]
            exact follows_last hne rfl hopens
        | cons second chunk =>
            obtain ⟨escaped, reads, rfl, hsecond, hrest'⟩ := reading_cons hrest
            have hescape : State.waitingEscape ≠ .done := State.noConfusion
            have hopen : ((port.receiveByte read).fail .waitingEscape).port.state ≠ .done :=
              hescape
            have hopened := settle_fail port read hescape
            simp only [hsecond]
            by_cases hflag : isFlag (second ^^^ esc) = true
            · simp only [if_pos hflag, List.take_succ_cons]
              have hstate' : ((port.receiveByte read).receiveByte escaped).state = .receiving :=
                (receiveByte_state _ _).trans ((receiveByte_state _ _).trans hstate)
              have hstore := settle_store (port.receiveByte read) escaped (second ^^^ esc)
                ((receiveByte_state port read).trans hstate)
              have hrest'' := follows_receiving chunk reads
                (((port.receiveByte read).receiveByte escaped).store (second ^^^ esc))
                hstate' hrest'
              rw [show (((port.receiveByte read).receiveByte escaped).store
                (second ^^^ esc)).position = (port.position + 1) % 65536 by
                  rw [Port.store, receiveByte_position, hposition]] at hrest''
              have hsecond' : Reader.step settings
                  (settle ((port.receiveByte read).fail .waitingEscape).port).1 second =
                  settle
                    (((port.receiveByte read).receiveByte escaped).store (second ^^^ esc)) := by
                rw [hopened, hstore, Reader.step, receiveByte_buffer, hposition]
                exact if_pos hflag
              have hstate'' : (((port.receiveByte read).receiveByte escaped).store
                  (second ^^^ esc)).state ≠ .done := by
                rw [Port.store, hstate']
                exact State.noConfusion
              refine follows_cons hne hopen ?_ (follows_cons hopen hstate'' ?_ hrest'')
              · rw [hopens, hopened]
              · rw [hsecond', hstore]
                rfl
            · simp only [if_neg hflag, List.take_succ_cons, List.take_zero]
              refine follows_cons hne hopen (by rw [hopens, hopened]) (follows_last hopen rfl ?_)
              rw [hopened, settle_fail (port.receiveByte read) escaped State.noConfusion,
                receiveByte_buffer, hposition]
              exact if_neg hflag
      · simp only [if_neg hesc]
        by_cases hone : settings.packetMaxLength = 1
        · simp only [if_pos hone, List.take_succ_cons, List.take_zero]
          apply hends State.noConfusion
          rw [hreader, Reader.step]
          simp only [if_neg hstart, if_neg hesc, if_pos hone]
          rfl
        · simp only [if_neg hone]
          by_cases hfull : settings.packetMaxLength ≤ port.position + 1
          · simp only [if_pos hfull, List.take_succ_cons, List.take_zero]
            apply hends State.noConfusion
            rw [hreader, Reader.step]
            simp only [if_neg hstart, if_neg hesc, if_neg hone, if_pos hfull]
            rfl
          · simp only [if_neg hfull]
            by_cases hend : value = endFlag
            · simp only [if_pos hend, List.take_succ_cons, List.take_zero]
              apply follows_last hne rfl
              rw [settle_finish, hreader, Reader.step]
              simp only [if_neg hstart, if_neg hesc, if_neg hone, if_neg hfull, if_pos hend]
              rfl
            · simp only [if_neg hend, List.take_succ_cons]
              have hstate' : ((port.receiveByte read).store value).state = .receiving :=
                (receiveByte_state port read).trans hstate
              have hrest' := follows_receiving chunk reads ((port.receiveByte read).store value)
                hstate' hrest
              rw [show ((port.receiveByte read).store value).position =
                (port.position + 1) % 65536 by rw [Port.store, hposition]] at hrest'
              refine follows_cons hne (by rw [hstate']; exact State.noConfusion) ?_ hrest'
              rw [settle_store port read value hstate, hreader, Reader.step]
              simp only [if_neg hstart, if_neg hesc, if_neg hone, if_neg hfull, if_neg hend]
              rfl

theorem follows_waitingEscape (chunk : List UInt8) (reads : List Read) {port : Port}
    (hstate : port.state = .waitingEscape) (hreading : Reading reads chunk) :
    Follows settings port (port.waitingEscape reads) (chunk.take (reads.take 1).length) := by
  cases chunk with
  | nil =>
      rw [reading_nil hreading]
      exact follows_idle port
  | cons value chunk =>
      obtain ⟨read, reads, rfl, hvalue, -⟩ := reading_cons hreading
      have hne : port.state ≠ .done := by rw [hstate]; exact State.noConfusion
      have hreader := settle_of_ne hne
      rw [hstate] at hreader
      rw [Port.waitingEscape, hvalue]
      by_cases hflag : isFlag (value ^^^ esc) = true
      · simp only [if_pos hflag]
        apply follows_last hne rfl
        have hafter : (((port.receiveByte read).store (value ^^^ esc)).fail
            .receiving).port.state ≠ .done := State.noConfusion
        rw [hreader, settle_of_ne hafter, receiveByte_eq]
        exact if_pos hflag
      · simp only [if_neg hflag]
        apply follows_last hne rfl
        rw [hreader, settle_fail port read State.noConfusion]
        exact if_neg hflag

theorem follows_waitingEnd (chunk : List UInt8) (reads : List Read) {port : Port}
    (hstate : port.state = .waitingEnd) (hreading : Reading reads chunk) :
    Follows settings port (port.waitingEnd reads) (chunk.take (reads.take 1).length) := by
  cases chunk with
  | nil =>
      rw [reading_nil hreading]
      exact follows_idle port
  | cons value chunk =>
      obtain ⟨read, reads, rfl, hvalue, -⟩ := reading_cons hreading
      have hne : port.state ≠ .done := by rw [hstate]; exact State.noConfusion
      have hreader := settle_of_ne hne
      rw [hstate] at hreader
      rw [Port.waitingEnd, hvalue]
      by_cases hend : value = endFlag
      · simp only [if_pos (congrArg some hend)]
        apply follows_last hne rfl
        rw [hreader, settle_finish]
        exact if_pos hend
      · have hother : some value ≠ some endFlag := fun h => hend (Option.some.inj h)
        simp only [if_neg hother]
        apply follows_last hne rfl
        rw [hreader, settle_fail port read State.noConfusion]
        exact if_neg hend

/-! ## Calls -/

theorem waitingReads_le (reads : List Read) : Port.waitingReads reads ≤ reads.length := by
  fun_induction Port.waitingReads reads <;> grind

theorem receivingReads_le (maxLength position : Nat) (reads : List Read) :
    Port.receivingReads settings maxLength position reads ≤ reads.length := by
  fun_induction Port.receivingReads settings maxLength position reads <;> grind

theorem switchReads_le (port : Port) (call : Call) :
    port.switchReads settings call ≤ call.reads.length := by
  unfold Port.switchReads
  split
  · exact waitingReads_le _
  · exact receivingReads_le _ _ _
  · exact List.length_take_le' _ _
  · exact List.length_take_le' _ _
  · exact Nat.zero_le _

theorem follows_switch {port : Port} {call : Call} {chunk : List UInt8}
    (hlength : call.maxLength = settings.packetMaxLength) (hreading : Reading call.reads chunk) :
    Follows settings port (port.switch settings call)
      (chunk.take (port.switchReads settings call)) := by
  unfold Port.switch Port.switchReads
  rw [hlength]
  cases hstate : port.state with
  | waiting => exact follows_waiting chunk _ _ hstate hreading
  | receiving => exact follows_receiving chunk _ _ hstate hreading
  | waitingEscape => exact follows_waitingEscape chunk _ hstate hreading
  | waitingEnd => exact follows_waitingEnd chunk _ hstate hreading
  | done => exact follows_done hstate

/-- What a line has returned and what its port still holds, as the reader puts it out. -/
def Carries (settings : Settings) (line line' : Line) (got : List (Nat × List UInt8)) : Prop :=
  ∃ piece, line.coming = piece ++ line'.coming ∧
    ((settle line.port).1.run settings piece).1 = (settle line'.port).1 ∧
    (settle line.port).2 ++ ((settle line.port).1.run settings piece).2 =
      got ++ (settle line'.port).2

theorem Carries.trans {line line' line'' : Line} {got got' : List (Nat × List UInt8)}
    (h : Carries settings line line' got) (h' : Carries settings line' line'' got') :
    Carries settings line line'' (got ++ got') := by
  obtain ⟨piece, hcoming, hreader, hgot⟩ := h
  obtain ⟨piece', hcoming', hreader', hgot'⟩ := h'
  refine ⟨piece ++ piece', by rw [hcoming, hcoming', List.append_assoc], ?_, ?_⟩
  · rw [Reader.run, Transducer.run_append, hreader, hreader']
  · rw [Reader.run, Transducer.run_append, hreader, ← List.append_assoc, hgot, List.append_assoc,
      hgot', List.append_assoc]

/-- The port in a call that is not turned away. -/
def called (port : Port) (now : UInt32) : Port := { port with lastCallTime := now }

theorem step_of_early {line : Line} {poll : Poll}
    (hearly : line.port.tooEarly (line.call settings poll) = true) :
    line.frame settings poll = { port := line.port } ∧ line.step settings poll = line := by
  have hframe : line.frame settings poll = { port := line.port } := by
    rw [Line.frame, Port.receiveFrame, if_pos hearly]
  refine ⟨hframe, ?_⟩
  rw [Line.step, hframe, Port.readsMade, if_pos hearly, List.drop_zero]

theorem step_of_called {line : Line} {poll : Poll}
    (hearly : line.port.tooEarly (line.call settings poll) = false)
    (htime : line.InTime settings poll) :
    line.frame settings poll =
        (called line.port poll.callNow).switch settings (line.call settings poll) ∧
      (line.step settings poll).coming =
        line.coming.drop
          ((called line.port poll.callNow).switchReads settings (line.call settings poll)) := by
  have hcalled : ¬line.port.tooEarly (line.call settings poll) = true := by
    rw [hearly]
    exact Bool.false_ne_true
  have hlate : ¬line.port.timedOut settings (line.call settings poll) = true := by
    rw [htime.resolve_left hcalled]
    exact Bool.false_ne_true
  constructor
  · rw [Line.frame, Port.receiveFrame, if_neg hcalled]
    exact if_neg hlate
  · rw [Line.step, Port.readsMade, if_neg hcalled, if_neg hlate]
    rfl

theorem carries_step {line : Line} {poll : Poll} (htime : line.InTime settings poll) :
    Carries settings line (line.step settings poll) (returned (line.frame settings poll)) := by
  cases hearly : line.port.tooEarly (line.call settings poll) with
  | true =>
      obtain ⟨hframe, hstep⟩ := step_of_early hearly
      rw [hstep, hframe]
      exact ⟨[], rfl, follows_idle line.port⟩
  | false =>
      obtain ⟨hframe, hcoming⟩ := step_of_called hearly htime
      have hreading : Reading (line.call settings poll).reads _ := reading_call line poll
      have hfollows : Follows settings (called line.port poll.callNow) _ _ :=
        follows_switch rfl hreading
      have hfew : (called line.port poll.callNow).switchReads settings (line.call settings poll) ≤
          poll.arrived := by
        have hreads : (called line.port poll.callNow).switchReads settings
            (line.call settings poll) ≤ _ := switchReads_le _ _
        have harrived := congrArg List.length hreading
        rw [List.length_map, List.length_map, List.length_take] at harrived
        omega
      rw [List.take_take, Nat.min_eq_left hfew, ← hframe] at hfollows
      refine ⟨_, ?_, hfollows⟩
      rw [hcoming, List.take_append_drop]

theorem carries_run (polls : List Poll) (line : Line)
    (htime : ∀ step ∈ Run.steps (Line.step settings) line polls,
      step.1.InTime settings step.2) :
    Carries settings line (Run.final (Line.step settings) line polls)
      (Line.received settings (Run.steps (Line.step settings) line polls)) := by
  induction polls generalizing line with
  | nil =>
      refine ⟨[], rfl, rfl, ?_⟩
      rw [Run.steps_nil, Line.received, List.filterMap_nil, Run.final_nil]
      exact List.append_nil _
  | cons poll polls ih =>
      rw [Run.steps_cons, List.forall_mem_cons] at htime
      rw [Run.steps_cons, Run.final_cons, received_cons]
      exact (carries_step htime.1).trans (ih _ htime.2)

/-- A line that is drained has returned what the reader puts out. -/
theorem received_of_drained {line : Line} {polls : List Poll}
    (htime : ∀ step ∈ Run.steps (Line.step settings) line polls, step.1.InTime settings step.2)
    (hdrained : (Run.final (Line.step settings) line polls).Drained) :
    Line.received settings (Run.steps (Line.step settings) line polls) =
      (settle line.port).2 ++ ((settle line.port).1.run settings line.coming).2 := by
  obtain ⟨piece, hcoming, -, hgot⟩ := carries_run polls line htime
  obtain ⟨hnothing, hstate⟩ := hdrained
  rw [hnothing, List.append_nil] at hcoming
  rw [settle_of_ne hstate, List.append_nil] at hgot
  rw [hcoming, hgot]

/-- However a stream is spread over the calls, the frames that they return are the same. -/
theorem received_independent (port : Port) (stream : List UInt8) (polls polls' : List Poll)
    (htime : ∀ step ∈ Run.steps (Line.step settings) ⟨port, stream⟩ polls,
      step.1.InTime settings step.2)
    (hdrained : (Run.final (Line.step settings) ⟨port, stream⟩ polls).Drained)
    (htime' : ∀ step ∈ Run.steps (Line.step settings) ⟨port, stream⟩ polls',
      step.1.InTime settings step.2)
    (hdrained' : (Run.final (Line.step settings) ⟨port, stream⟩ polls').Drained) :
    Line.received settings (Run.steps (Line.step settings) ⟨port, stream⟩ polls) =
      Line.received settings (Run.steps (Line.step settings) ⟨port, stream⟩ polls') := by
  rw [received_of_drained htime hdrained, received_of_drained htime' hdrained']

/-! ## A whole frame -/

/-- The reader has the front of a frame. -/
structure Reader.Holds (reader : Reader) (front : List UInt8) : Prop where
  state : reader.state = .receiving
  position : reader.position = front.length
  buffer : reader.buffer.load 0 front.length = front

theorem holds_store {reader : Reader} {front : List UInt8} (h : reader.Holds front)
    (value : UInt8) (hsmall : front.length + 1 < 65536) :
    (reader.store value).1.Holds (front ++ [value]) where
  state := rfl
  position := by
    rw [Reader.store, h.position, List.length_append, List.length_singleton,
      Nat.mod_eq_of_lt hsmall]
  buffer := by
    rw [Reader.store, h.position, List.length_append]
    exact (Memory.load_store_behind reader.buffer front.length [value]).trans (by rw [h.buffer])

/-- One byte of the content, escaped if it is a flag. -/
theorem run_symbol {reader : Reader} {front : List UInt8} (h : reader.Holds front) (value : UInt8)
    (hroom : front.length + 1 < settings.packetMaxLength) :
    reader.run settings (stuffed [value]) = reader.store value := by
  cases hflag : isFlag value with
  | true =>
      have hstep : Reader.step settings { reader with state := .waitingEscape }
          (value ^^^ esc) = reader.store (value ^^^ esc ^^^ esc) :=
        Reader.step_escaped rfl (by rwa [xor_esc])
      rw [xor_esc] at hstep
      rw [stuffed, stuff_special hflag, Reader.run, Transducer.run_cons,
        Reader.step_escape h.state, Reader.moveTo, Transducer.run_cons, hstep]
      rfl
  | false =>
      obtain ⟨hstart, hesc, hend⟩ := ne_of_not_flag hflag
      have hone : settings.packetMaxLength ≠ 1 := by omega
      have hfull : ¬settings.packetMaxLength ≤ reader.position + 1 := by
        rw [h.position]
        omega
      rw [stuffed, stuff_plain hflag, Reader.run, Transducer.run_cons,
        Reader.step_stores h.state hstart hesc hend hone hfull]
      rfl

theorem stuffed_cons (value : UInt8) (rest : List UInt8) :
    stuffed (value :: rest) = stuffed [value] ++ stuffed rest :=
  stuff_append [value] rest

section Whole

variable {f : List UInt8} (hmax : f.length + 2 ≤ settings.packetMaxLength)
variable (hsmall : settings.packetMaxLength < 65536)

include hmax hsmall

/-- The content of a frame with its end flag, by induction on what is left of it. -/
theorem run_stuffed (rest : List UInt8) : ∀ (front : List UInt8) (reader : Reader),
    f = front ++ rest → reader.Holds front →
      ∃ last, last.state = .waiting ∧
        reader.run settings (stuffed rest ++ [endFlag]) = (last, [(f.length, f)]) := by
  have hone : settings.packetMaxLength ≠ 1 := by omega
  induction rest with
  | nil =>
      intro front reader hframe h
      rw [List.append_nil] at hframe
      subst hframe
      have hfacts : endFlag ≠ start ∧ endFlag ≠ esc := by decide
      have hfull : ¬settings.packetMaxLength ≤ reader.position + 1 := by
        rw [h.position]
        omega
      have hcode : f.length ≠ tsFail := by
        have hfail : tsFail = 65535 := rfl
        omega
      have hstep : reader.step settings endFlag = reader.finish := by
        rw [Reader.step, h.state]
        simp only [if_neg hfacts.1, if_neg hfacts.2, if_neg hone, if_neg hfull, if_true]
      refine ⟨{ reader with state := .waiting }, rfl, ?_⟩
      show Reader.run settings reader [endFlag] = _
      rw [Reader.run, Transducer.run_cons, hstep, Reader.finish, Reader.frame, h.position,
        h.buffer, if_neg hcode]
      rfl
  | cons value rest ih =>
      intro front reader hframe h
      have hnext : f = (front ++ [value]) ++ rest := by
        rw [hframe, List.append_assoc, List.singleton_append]
      have hlength : front.length < f.length := by
        rw [hframe, List.length_append, List.length_cons]
        omega
      obtain ⟨last, hlast, hrun⟩ := ih (front ++ [value]) (reader.store value).1 hnext
        (holds_store h value (by omega))
      refine ⟨last, hlast, ?_⟩
      rw [stuffed_cons, List.append_assoc, Reader.run, Transducer.run_append]
      rw [Reader.run] at hrun
      rw [show Transducer.run (Reader.step settings) reader (stuffed [value]) = reader.store value
        from run_symbol h value (by omega), hrun]
      rfl

theorem run_written {reader : Reader} (h : reader.state = .waiting) :
    ∃ last, last.state = .waiting ∧
      reader.run settings (Port.written f) = (last, [(f.length, f)]) := by
  obtain ⟨last, hlast, hrun⟩ := run_stuffed hmax hsmall f []
    { reader with position := 0, state := .receiving } rfl ⟨rfl, rfl, rfl⟩
  refine ⟨last, hlast, ?_⟩
  rw [Port.written, List.cons_append, Reader.run, Transducer.run_cons, Reader.step_opens h]
  exact hrun

end Whole

theorem not_start_of_mem_stuffed {f : List UInt8} {value : UInt8}
    (h : value ∈ stuffed f ++ [endFlag]) : value ≠ start := by
  rw [List.mem_append, List.mem_singleton, stuffed, stuff, List.mem_flatMap] at h
  rcases h with ⟨sent, -, hmem⟩ | rfl
  · cases hflag : isFlag sent with
    | true =>
        rw [hflag, if_pos rfl, List.mem_cons, List.mem_singleton] at hmem
        rcases hmem with rfl | rfl
        · decide
        · rcases (isFlag_iff sent).mp hflag with rfl | rfl | rfl <;> decide
    | false =>
        rw [hflag, if_neg Bool.false_ne_true, List.mem_singleton] at hmem
        rw [hmem]
        exact (ne_of_not_flag hflag).1
  · decide

/-- In the middle of something else, a start flag only brings the reader back. -/
theorem step_start {reader : Reader} (hwaiting : reader.state ≠ .waiting)
    (hdone : reader.state ≠ .done) : reader.step settings start = reader.moveTo .waiting := by
  have hflag : ¬isFlag (start ^^^ esc) = true := by decide
  have hend : start ≠ endFlag := by decide
  rw [Reader.step]
  cases hstate : reader.state with
  | waiting => exact absurd hstate hwaiting
  | receiving => exact if_pos rfl
  | waitingEscape => exact if_neg hflag
  | waitingEnd => exact if_neg hend
  | done => exact absurd hstate hdone

theorem run_written_lost (f : List UInt8) {reader : Reader} (hwaiting : reader.state ≠ .waiting)
    (hdone : reader.state ≠ .done) :
    reader.run settings (Port.written f) = ({ reader with state := .waiting }, []) := by
  have hignored : Reader.run settings { reader with state := .waiting } (stuffed f ++ [endFlag]) =
      ({ reader with state := .waiting }, []) :=
    Transducer.run_of_ignored _ fun value hvalue => if_neg (not_start_of_mem_stuffed hvalue)
  rw [Port.written, List.cons_append, Reader.run, Transducer.run_cons,
    step_start hwaiting hdone]
  exact congrArg (fun rest => (rest.1, [] ++ rest.2)) hignored

/-! ## Progress -/

/-- How many attentive calls drain a line: every byte takes one, and every frame that is
complete one more. -/
def remaining (line : Line) : Nat :=
  2 * line.coming.length + if line.port.state = .done then 1 else 0

theorem drained_of_remaining {line : Line} (h : remaining line = 0) : line.Drained := by
  unfold remaining at h
  split_ifs at h with hstate
  exact ⟨List.length_eq_zero_iff.mp (by omega), hstate⟩

theorem waitingReads_pos {reads : List Read} (h : reads ≠ []) : 0 < Port.waitingReads reads := by
  cases reads with
  | nil => exact absurd rfl h
  | cons read reads =>
      unfold Port.waitingReads
      split <;> [exact Nat.one_pos; split] <;> exact Nat.succ_pos _

theorem receivingReads_pos (maxLength position : Nat) {reads : List Read} (h : reads ≠ []) :
    0 < Port.receivingReads settings maxLength position reads := by
  fun_cases Port.receivingReads settings maxLength position reads <;> simp_all

theorem switchReads_pos {port : Port} {call : Call} (hstate : port.state ≠ .done)
    (h : call.reads ≠ []) : 0 < port.switchReads settings call := by
  have htake : 0 < (call.reads.take 1).length := by
    rw [List.length_take]
    exact Nat.lt_min.mpr ⟨Nat.one_pos, List.length_pos_of_ne_nil h⟩
  unfold Port.switchReads
  split
  · exact waitingReads_pos h
  · exact receivingReads_pos _ _ h
  · exact htake
  · exact htake
  · exact absurd (by assumption) hstate

theorem switch_nil {port : Port} {call : Call} (hstate : port.state ≠ .done)
    (h : call.reads = []) : port.switch settings call = { port := port } := by
  rw [Port.switch, h]
  cases hport : port.state with
  | waiting => rfl
  | receiving => rfl
  | waitingEscape => rfl
  | waitingEnd => rfl
  | done => exact absurd hport hstate

theorem remaining_step (line : Line) (poll : Poll) (htime : line.InTime settings poll) :
    remaining (line.step settings poll) ≤ remaining line ∧
      (line.Attends settings poll → remaining line ≠ 0 →
        remaining (line.step settings poll) < remaining line) := by
  cases hearly : line.port.tooEarly (line.call settings poll) with
  | true =>
      rw [(step_of_early hearly).2]
      refine ⟨Nat.le_refl _, fun hattends => ?_⟩
      rw [Line.Attends, hearly] at hattends
      cases hattends.1
  | false =>
      obtain ⟨hframe, hcoming⟩ := step_of_called hearly htime
      have hport : (line.step settings poll).port = _ := congrArg Frame.port hframe
      unfold remaining
      rw [hport, hcoming, List.length_drop]
      by_cases hdone : line.port.state = .done
      · have hdone' : (called line.port poll.callNow).state = .done := hdone
        have hreads : (called line.port poll.callNow).switchReads settings
            (line.call settings poll) = 0 := by
          rw [Port.switchReads, hdone']
        have hafter : ((called line.port poll.callNow).switch settings
            (line.call settings poll)).port.state ≠ .done := by
          rw [Port.switch, hdone']
          exact State.noConfusion
        rw [hreads, if_neg hafter, if_pos hdone]
        exact ⟨by omega, fun _ _ => by omega⟩
      · have hdone' : (called line.port poll.callNow).state ≠ .done := hdone
        have hcall : Reading (line.call settings poll).reads _ := reading_call line poll
        have hreading := congrArg List.length hcall
        rw [List.length_map, List.length_map, List.length_take] at hreading
        rw [if_neg hdone]
        by_cases hnone : (line.call settings poll).reads = []
        · rw [switch_nil hdone' hnone, if_neg hdone']
          refine ⟨by omega, fun hattends hleft => ?_⟩
          rw [hnone, List.length_nil] at hreading
          rcases hattends.2 with hempty | harrived
          · rw [hempty, List.length_nil] at hleft
            omega
          · omega
        · have hmoved : 0 < (called line.port poll.callNow).switchReads settings
              (line.call settings poll) := switchReads_pos hdone' hnone
          have hsome := List.length_pos_of_ne_nil hnone
          constructor
          · split_ifs <;> omega
          · intro _ _
            split_ifs <;> omega

theorem remaining_run (polls : List Poll) (line : Line)
    (htime : ∀ step ∈ Run.steps (Line.step settings) line polls,
      step.1.InTime settings step.2) :
    remaining (Run.final (Line.step settings) line polls) ≤
      remaining line - (Run.steps (Line.step settings) line polls).countP fun step =>
        decide (step.1.Attends settings step.2) := by
  induction polls generalizing line with
  | nil => exact Nat.le_refl _
  | cons poll polls ih =>
      rw [Run.steps_cons, List.forall_mem_cons] at htime
      obtain ⟨hle, hlt⟩ := remaining_step line poll htime.1
      have hrest := ih _ htime.2
      rw [Run.steps_cons, Run.final_cons, List.countP_cons]
      by_cases hattends : line.Attends settings poll
      · rw [if_pos (decide_eq_true hattends)]
        rcases Nat.eq_zero_or_pos (remaining line) with hzero | hpos
        · omega
        · have hstep := hlt hattends (Nat.ne_of_gt hpos)
          omega
      · rw [if_neg (by rw [decide_eq_false hattends]; exact Bool.false_ne_true)]
        omega

/-- From whatever state a receiver is in, of two frames that follow each other it returns the
second one, and the first one as well unless it was in the middle of something else. -/
theorem received_two (line : Line) (f1 f2 : List UInt8) (polls : List Poll)
    (hcoming : line.coming = Port.written f1 ++ Port.written f2)
    (hmax1 : f1.length + 2 ≤ settings.packetMaxLength)
    (hmax2 : f2.length + 2 ≤ settings.packetMaxLength)
    (hsmall : settings.packetMaxLength < 65536)
    (htime : ∀ step ∈ Run.steps (Line.step settings) line polls, step.1.InTime settings step.2)
    (hmany : 2 * line.coming.length <
      (Run.steps (Line.step settings) line polls).countP fun step =>
        decide (step.1.Attends settings step.2)) :
    Line.received settings (Run.steps (Line.step settings) line polls) =
      line.pending ++ (if line.BetweenFrames then [(f1.length, f1)] else []) ++
        [(f2.length, f2)] := by
  have hdrained : (Run.final (Line.step settings) line polls).Drained := by
    apply drained_of_remaining
    have hleft := remaining_run polls line htime
    have hstart : remaining line ≤ 2 * line.coming.length + 1 := by
      unfold remaining
      split_ifs <;> omega
    omega
  have hpending : (settle line.port).2 = line.pending := by
    unfold settle Line.pending
    by_cases hdone : line.port.state = .done
    · by_cases hcode : line.port.position = tsFail
      · simp [hdone, hcode, Reader.finish, Reader.frame]
      · simp [hdone, hcode, Reader.finish, Reader.frame]
    · simp [hdone]
  rw [received_of_drained htime hdrained, hpending, hcoming, Reader.run, Transducer.run_append,
    List.append_assoc]
  congr 1
  by_cases hbetween : line.BetweenFrames
  · have hreader : (settle line.port).1.state = .waiting := by
      unfold settle
      rcases hbetween with hwaiting | hdone
      · rw [if_neg (by rw [hwaiting]; exact State.noConfusion)]
        exact hwaiting
      · rw [if_pos hdone]
        rfl
    obtain ⟨last, hlast, hfirst⟩ := run_written hmax1 hsmall hreader
    obtain ⟨last', -, hsecond⟩ := run_written hmax2 hsmall hlast
    have hfirst' : Transducer.run (Reader.step settings) (settle line.port).1 (Port.written f1) =
      (last, [(f1.length, f1)]) := hfirst
    rw [if_pos hbetween, hfirst']
    show [(f1.length, f1)] ++ (Reader.run settings last (Port.written f2)).2 = _
    rw [hsecond]
  · have hdone : line.port.state ≠ .done := fun h => hbetween (Or.inr h)
    have hstate : (settle line.port).1.state = line.port.state := by rw [settle_of_ne hdone]
    have hlost : Transducer.run (Reader.step settings) (settle line.port).1 (Port.written f1) =
        ({ (settle line.port).1 with state := .waiting }, []) :=
      run_written_lost f1 (fun h => hbetween (Or.inl (hstate.symm.trans h)))
        (fun h => hdone (hstate.symm.trans h))
    have hwaiting : ({ (settle line.port).1 with state := .waiting } : Reader).state = .waiting :=
      rfl
    obtain ⟨last, -, hsecond⟩ := run_written hmax2 hsmall hwaiting
    rw [if_neg hbetween, hlost]
    show [] ++ (Reader.run settings _ (Port.written f2)).2 = _
    rw [hsecond]

/-! ## A frame in pieces -/

/-- A call in which one more byte has arrived. -/
def byteAt (now : UInt32) : Poll := { pollAt now with arrived := 1 }

def bytesFor (n : Nat) : List Poll := (List.range n).map fun k => byteAt (1000 * k.toUInt32 + 1000)

theorem received_independent_fiveBytes :
    Line.received {} (Run.steps (Line.step {}) ⟨{}, Port.written fiveBytes⟩ (pollsFor 5)) =
      Line.received {} (Run.steps (Line.step {}) ⟨{}, Port.written fiveBytes⟩ (bytesFor 12)) :=
  received_independent {} (Port.written fiveBytes) (pollsFor 5) (bytesFor 12) (by decide +kernel)
    (by decide +kernel) (by decide +kernel) (by decide +kernel)

end Pjon.Proofs.Pieces
