import Pjon.Proofs.Pieces
import Pjon.Proofs.ThroughSerial
/-!
# Two frames after anything that stayed in the buffer

A call that completes an escape sequence where the buffer is full stores over the members of the
object that are declared behind it, and nothing is known of the calls after that.  Where none did,
two frames bring the receiver back, and they do not make it leave the buffer themselves: a
receiver that is in the middle of something else drops the first one with its start flag, and one
that is not starts at the front of the buffer.
-/

namespace Pjon.Proofs.Overrun

open Pjon.Lib Pjon.Model.ThroughSerial Pjon.Spec Pjon.Proofs.ThroughSerial Pjon.Proofs.Framing
open Pjon.Proofs.Pieces

variable {settings : Settings}

/-! ## Which calls stay in the buffer -/

/-- Whatever escape sequences the bytes complete, there is room for them. -/
def FitsInside (settings : Settings) (port : Port) (call : Call) : Prop :=
  match port.state with
  | .receiving => EscapesFit settings call.maxLength port.position call.reads
  | .waitingEscape => CompletesEscape call.reads → port.position < settings.packetMaxLength
  | .waiting | .waitingEnd | .done => True

/-- The call is turned away by the clock, or what it reads fits. -/
def StaysInside (settings : Settings) (port : Port) (call : Call) : Prop :=
  port.tooEarly call = true ∨ port.timedOut settings call = true ∨ FitsInside settings port call

theorem switch_inside_iff (port : Port) (call : Call) :
    (port.switch settings call).Inside settings ↔ FitsInside settings port call := by
  unfold Frame.Inside FitsInside Port.switch
  cases port.state with
  | waiting => exact (waiting_stores settings port call.reads).stored
  | receiving => exact (receiving_stores settings call.maxLength call.reads port).stored
  | waitingEscape => exact (waitingEscape_stores settings port call.reads).stored
  | waitingEnd => exact (waitingEnd_stores settings port call.reads).stored
  | done => exact iff_of_true (fun i hi => absurd hi List.not_mem_nil) trivial

/-- A call stays in the buffer exactly when what it reads fits there. -/
theorem receiveFrame_inside_iff (port : Port) (call : Call) :
    (port.receiveFrame settings call).Inside settings ↔ StaysInside settings port call := by
  have hnothing {frame : Frame} (h : frame.stored = []) : frame.Inside settings := by
    intro i hi
    rw [h] at hi
    exact absurd hi List.not_mem_nil
  have hsame : ({ port with lastCallTime := call.callNow } : Port).timedOut settings call =
      port.timedOut settings call := rfl
  rw [Port.receiveFrame, StaysInside]
  simp only [hsame]
  by_cases hearly : port.tooEarly call = true
  · rw [if_pos hearly]
    exact iff_of_true (hnothing rfl) (Or.inl hearly)
  · rw [if_neg hearly, or_iff_right hearly]
    by_cases hlate : port.timedOut settings call = true
    · rw [if_pos hlate]
      exact iff_of_true (hnothing rfl) (Or.inl hlate)
    · rw [if_neg hlate, or_iff_right hlate]
      exact switch_inside_iff { port with lastCallTime := call.callNow } call

/-! ## A history that stays in the buffer -/

/-- The object behind a call. -/
def next {σ : Type} (overrun : Overrun σ) (settings : Settings) (receiver : Receiver σ)
    (call : Call) : Receiver σ :=
  (receiver.receiveFrame overrun settings call).next

/-- A call of an object that is still sound stays in the buffer. -/
def Sound {σ : Type} (settings : Settings) : Receiver σ → Call → Prop
  | .sound port, call => StaysInside settings port call
  | .overrun _, _ => False

instance {σ : Type} (settings : Settings) (receiver : Receiver σ) (call : Call) :
    Decidable (Sound settings receiver call) :=
  match receiver with
  | .sound port => decidable_of_iff _ (receiveFrame_inside_iff port call)
  | .overrun _ => inferInstanceAs (Decidable False)

section History

variable {σ : Type} (overrun : Overrun σ)

theorem receiveFrame_sound {port : Port} {call : Call} (h : StaysInside settings port call) :
    (Receiver.sound port).receiveFrame overrun settings call =
      { result := (port.receiveFrame settings call).result
        data := (port.receiveFrame settings call).data
        reads := port.readsMade settings call
        next := .sound (port.receiveFrame settings call).port } :=
  if_pos ((receiveFrame_inside_iff port call).mpr h)

theorem next_sound {receiver : Receiver σ} {call : Call}
    (h : ∃ port, receiver = .sound port) (hsound : Sound settings receiver call) :
    ∃ port, next overrun settings receiver call = .sound port := by
  obtain ⟨port, rfl⟩ := h
  refine ⟨(port.receiveFrame settings call).port, ?_⟩
  rw [next, receiveFrame_sound overrun hsound]

theorem final_sound (port : Port) (history : List Call)
    (h : ∀ step ∈ Run.steps (next overrun settings) (.sound port) history,
      Sound settings step.1 step.2) :
    ∃ port', Run.final (next overrun settings) (.sound port) history = .sound port' :=
  @Run.invariant_of_allowed _ _ (next overrun settings)
    (fun receiver => ∃ port', receiver = .sound port') (Sound settings)
    (fun _ _ => next_sound overrun) _ ⟨port, rfl⟩ history h

end History

/-! ## Two frames fit -/

/-- The byte does not complete an escape sequence for which there is no room. -/
def Roomy (settings : Settings) (reader : Reader) (value : UInt8) : Prop :=
  reader.state = .waitingEscape → isFlag (value ^^^ esc) = true →
    reader.position < settings.packetMaxLength

theorem roomy_of_ne {reader : Reader} (h : reader.state ≠ .waitingEscape) (value : UInt8) :
    Roomy settings reader value :=
  fun hstate => absurd hstate h

/-- The bytes find room one after the other. -/
abbrev AllRoomy (settings : Settings) : Reader → List UInt8 → Prop :=
  Transducer.Admits (Reader.step settings) (Roomy settings)

theorem allRoomy_symbol {reader : Reader} {front : List UInt8} (h : reader.Holds front)
    (value : UInt8) (hroom : front.length + 1 < settings.packetMaxLength) :
    AllRoomy settings reader (stuffed [value]) := by
  have hstate : reader.state ≠ .waitingEscape := by
    rw [h.state]
    exact State.noConfusion
  have hposition : reader.position < settings.packetMaxLength := by
    rw [h.position]
    omega
  cases hflag : isFlag value with
  | true =>
      rw [stuffed, Stuffing.stuff_special hflag]
      refine ⟨roomy_of_ne hstate esc, ?_, trivial⟩
      rw [Reader.step_escape h.state]
      exact fun _ _ => hposition
  | false =>
      rw [stuffed, Stuffing.stuff_plain hflag]
      exact ⟨roomy_of_ne hstate value, trivial⟩

section Whole

variable {f : List UInt8} (hmax : f.length + 2 ≤ settings.packetMaxLength)
variable (hsmall : settings.packetMaxLength < 65536)

include hmax hsmall

theorem allRoomy_stuffed (rest : List UInt8) : ∀ (front : List UInt8) (reader : Reader),
    f = front ++ rest → reader.Holds front →
      AllRoomy settings reader (stuffed rest ++ [endFlag]) := by
  induction rest with
  | nil =>
      intro front reader _ h
      refine ⟨roomy_of_ne ?_ endFlag, trivial⟩
      rw [h.state]
      exact State.noConfusion
  | cons value rest ih =>
      intro front reader hframe h
      have hnext : f = (front ++ [value]) ++ rest := by
        rw [hframe, List.append_assoc, List.singleton_append]
      have hlength : front.length < f.length := by
        rw [hframe, List.length_append, List.length_cons]
        omega
      have hsymbol : Transducer.run (Reader.step settings) reader (stuffed [value]) =
          reader.store value := run_symbol h value (by omega)
      rw [stuffed_cons, List.append_assoc, AllRoomy, Transducer.admits_append, hsymbol]
      exact ⟨allRoomy_symbol h value (by omega),
        ih (front ++ [value]) (reader.store value).1 hnext (holds_store h value (by omega))⟩

theorem allRoomy_written {reader : Reader} (h : reader.state = .waiting) :
    AllRoomy settings reader (Port.written f) := by
  rw [Port.written, List.cons_append, AllRoomy, Transducer.admits_cons, Reader.step_opens h]
  refine ⟨roomy_of_ne ?_ start, ?_⟩
  · rw [h]
    exact State.noConfusion
  · exact allRoomy_stuffed hmax hsmall f [] { reader with position := 0, state := .receiving } rfl
      ⟨rfl, rfl, rfl⟩

end Whole

/-- The start flag of a frame completes no escape sequence, and the rest of a frame that is
dropped is only looked through for another one. -/
theorem allRoomy_lost (f : List UInt8) {reader : Reader} (hwaiting : reader.state ≠ .waiting)
    (hdone : reader.state ≠ .done) : AllRoomy settings reader (Port.written f) := by
  have hstep : reader.step settings start = reader.moveTo .waiting :=
    step_start hwaiting hdone
  have hflag : ¬isFlag (start ^^^ esc) = true := by decide
  rw [Port.written, List.cons_append, AllRoomy, Transducer.admits_cons, hstep]
  refine ⟨fun _ hescape => absurd hescape hflag, ?_⟩
  apply Transducer.admits_of_ignored
  · intro value hvalue
    exact if_neg (not_start_of_mem_stuffed hvalue)
  · intro value _
    exact roomy_of_ne State.noConfusion value

theorem allRoomy_two {f1 f2 : List UInt8} (port : Port)
    (hmax1 : f1.length + 2 ≤ settings.packetMaxLength)
    (hmax2 : f2.length + 2 ≤ settings.packetMaxLength)
    (hsmall : settings.packetMaxLength < 65536) :
    AllRoomy settings (settle port).1 (Port.written f1 ++ Port.written f2) := by
  have hdone : (settle port).1.state ≠ .done := settle_ne_done port
  rw [AllRoomy, Transducer.admits_append]
  by_cases hwaiting : (settle port).1.state = .waiting
  · obtain ⟨last, hlast, hrun⟩ := run_written hmax1 hsmall hwaiting
    have hrun' : Transducer.run (Reader.step settings) (settle port).1 (Port.written f1) =
        (last, [(f1.length, f1)]) := hrun
    rw [hrun']
    exact ⟨allRoomy_written hmax1 hsmall hwaiting, allRoomy_written hmax2 hsmall hlast⟩
  · have hlost : Transducer.run (Reader.step settings) (settle port).1 (Port.written f1) =
        ({ (settle port).1 with state := .waiting }, []) := run_written_lost f1 hwaiting hdone
    rw [hlost]
    exact ⟨allRoomy_lost f1 hwaiting hdone, allRoomy_written hmax2 hsmall rfl⟩

/-! ## Calls -/

theorem escapesFit_of_allRoomy : ∀ (chunk : List UInt8) (reads : List Read) (reader : Reader),
    reader.state = .receiving → Reading reads chunk → AllRoomy settings reader chunk →
      EscapesFit settings settings.packetMaxLength reader.position reads
  | [], reads, reader, _, hreading, _ => by
    rw [reading_nil hreading]
    trivial
  | value :: chunk, reads, reader, hstate, hreading, hroomy => by
    obtain ⟨read, reads, rfl, hvalue, hrest⟩ := reading_cons hreading
    obtain ⟨-, hlater⟩ := hroomy
    rw [EscapesFit.eq_def]
    simp only [hvalue]
    by_cases hstart : value = start
    · simp only [if_pos hstart]
    · simp only [if_neg hstart]
      by_cases hesc : value = esc
      · simp only [if_pos hesc]
        rw [hesc, Reader.step_escape hstate] at hlater
        cases chunk with
        | nil =>
            rw [reading_nil hrest]
            trivial
        | cons second chunk =>
            obtain ⟨escaped, reads, rfl, hsecond, hrest'⟩ := reading_cons hrest
            obtain ⟨hroom, hlater⟩ := hlater
            simp only [hsecond]
            by_cases hflag : isFlag (second ^^^ esc) = true
            · rw [Reader.step_escaped rfl hflag] at hlater
              simp only [if_pos hflag]
              exact ⟨hroom rfl hflag, escapesFit_of_allRoomy chunk reads
                (reader.store (second ^^^ esc)).1 rfl hrest' hlater⟩
            · simp only [if_neg hflag]
      · simp only [if_neg hesc]
        by_cases hone : settings.packetMaxLength = 1
        · simp only [if_pos hone]
        · simp only [if_neg hone]
          by_cases hfull : settings.packetMaxLength ≤ reader.position + 1
          · simp only [if_pos hfull]
          · simp only [if_neg hfull]
            by_cases hend : value = endFlag
            · simp only [if_pos hend]
            · simp only [if_neg hend]
              rw [Reader.step_stores hstate hstart hesc hend hone hfull] at hlater
              exact escapesFit_of_allRoomy chunk reads (reader.store value).1 rfl hrest hlater

theorem roomy_of_completes {reader : Reader} {reads : List Read} {chunk : List UInt8}
    (hstate : reader.state = .waitingEscape) (hreading : Reading reads chunk)
    (hroomy : AllRoomy settings reader chunk) (h : CompletesEscape reads) :
    reader.position < settings.packetMaxLength := by
  obtain ⟨escaped, value, hhead, hvalue, hflag⟩ := h
  cases chunk with
  | nil =>
      rw [reading_nil hreading] at hhead
      cases hhead
  | cons first chunk =>
      obtain ⟨read, reads, rfl, hfirst, -⟩ := reading_cons hreading
      rw [List.head?_cons, Option.some.injEq] at hhead
      rw [← hhead, hfirst, Option.some.injEq] at hvalue
      exact hroomy.1 hstate (hvalue ▸ hflag)

theorem staysInside_of_allRoomy {line : Line} {poll : Poll} (htime : line.InTime settings poll)
    (hroomy : AllRoomy settings (settle line.port).1 line.coming) :
    StaysInside settings line.port (line.call settings poll) := by
  have hchunk : AllRoomy settings (settle line.port).1 (line.coming.take poll.arrived) := by
    rw [AllRoomy, ← List.take_append_drop poll.arrived line.coming,
      Transducer.admits_append] at hroomy
    exact hroomy.1
  have hreading : Reading (line.call settings poll).reads (line.coming.take poll.arrived) :=
    reading_call line poll
  rcases htime with hearly | hlate
  · exact Or.inl hearly
  · refine Or.inr (Or.inr ?_)
    have hreader := @settle_of_ne line.port
    unfold FitsInside
    cases hstate : line.port.state with
    | receiving =>
        rw [hreader (by rw [hstate]; exact State.noConfusion)] at hchunk
        exact escapesFit_of_allRoomy _ _ _ hstate hreading hchunk
    | waitingEscape =>
        rw [hreader (by rw [hstate]; exact State.noConfusion)] at hchunk
        exact roomy_of_completes hstate hreading hchunk
    | waiting => trivial
    | waitingEnd => trivial
    | done => trivial

/-! ## Where nothing leaves the buffer -/

section ObjectLine

variable {σ : Type} (overrun : Overrun σ)

def ofLine (line : Line) : ObjectLine σ where
  receiver := .sound line.port
  coming := line.coming

theorem outcome_ofLine {line : Line} {poll : Poll}
    (h : StaysInside settings line.port (line.call settings poll)) :
    (ofLine line).outcome overrun settings poll =
      { result := (line.frame settings poll).result
        data := (line.frame settings poll).data
        reads := line.port.readsMade settings (line.call settings poll)
        next := .sound (line.frame settings poll).port } :=
  receiveFrame_sound overrun h

theorem step_ofLine {line : Line} {poll : Poll}
    (h : StaysInside settings line.port (line.call settings poll)) :
    (ofLine line).step overrun settings poll = ofLine (line.step settings poll) := by
  rw [ObjectLine.step, outcome_ofLine overrun h]
  rfl

theorem allRoomy_step {line : Line} {poll : Poll} (htime : line.InTime settings poll)
    (hroomy : AllRoomy settings (settle line.port).1 line.coming) :
    AllRoomy settings (settle (line.step settings poll).port).1
      (line.step settings poll).coming := by
  obtain ⟨piece, hcoming, hreader, -⟩ := carries_step htime
  have hrun : (Transducer.run (Reader.step settings) (settle line.port).1 piece).1 =
      (settle (line.step settings poll).port).1 := hreader
  rw [AllRoomy, hcoming, Transducer.admits_append, hrun] at hroomy
  exact hroomy.2

theorem steps_ofLine (polls : List Poll) (line : Line)
    (htime : ∀ step ∈ Run.steps (ObjectLine.step overrun settings) (ofLine line) polls,
      step.1.InTime settings step.2)
    (hroomy : AllRoomy settings (settle line.port).1 line.coming) :
    Run.steps (ObjectLine.step overrun settings) (ofLine line) polls =
      (Run.steps (Line.step settings) line polls).map fun step => (ofLine step.1, step.2) := by
  induction polls generalizing line with
  | nil => rfl
  | cons poll polls ih =>
      rw [Run.steps_cons, List.forall_mem_cons] at htime
      have hinside : StaysInside settings line.port (line.call settings poll) :=
        staysInside_of_allRoomy htime.1 hroomy
      rw [step_ofLine overrun hinside] at htime
      rw [Run.steps_cons, Run.steps_cons, List.map_cons, step_ofLine overrun hinside,
        ih _ htime.2 (allRoomy_step htime.1 hroomy)]

theorem received_ofLine (polls : List Poll) (line : Line)
    (htime : ∀ step ∈ Run.steps (Line.step settings) line polls, step.1.InTime settings step.2)
    (hroomy : AllRoomy settings (settle line.port).1 line.coming) :
    ObjectLine.received overrun settings
        ((Run.steps (Line.step settings) line polls).map fun step => (ofLine step.1, step.2)) =
      Line.received settings (Run.steps (Line.step settings) line polls) := by
  induction polls generalizing line with
  | nil => rfl
  | cons poll polls ih =>
      rw [Run.steps_cons, List.forall_mem_cons] at htime
      have hrest := ih _ htime.2 (allRoomy_step htime.1 hroomy)
      rw [ObjectLine.received, Line.received] at hrest ⊢
      rw [Run.steps_cons, List.map_cons, List.filterMap_cons, List.filterMap_cons, hrest,
        outcome_ofLine overrun (staysInside_of_allRoomy htime.1 hroomy)]

end ObjectLine

/-! ## Two frames -/

/-- Behind any calls that stayed in the buffer, of two frames that follow each other the second
one is returned, and the first one as well unless the receiver was in the middle of something
else. -/
theorem resynchronises {σ : Type} (overrun : Overrun σ) (settings : Settings) (port : Port)
    (history : List Call) (f1 f2 : List UInt8) (polls : List Poll)
    (hsound : ∀ step ∈ Run.steps (next overrun settings) (.sound port) history,
      Sound settings step.1 step.2)
    (hmax1 : f1.length + 2 ≤ settings.packetMaxLength)
    (hmax2 : f2.length + 2 ≤ settings.packetMaxLength)
    (hsmall : settings.packetMaxLength < 65536)
    (htime : ∀ step ∈ Run.steps (ObjectLine.step overrun settings)
        ⟨Run.final (next overrun settings) (.sound port) history,
          Port.written f1 ++ Port.written f2⟩ polls, step.1.InTime settings step.2)
    (hmany : 2 * (Port.written f1 ++ Port.written f2).length <
      (Run.steps (ObjectLine.step overrun settings)
        ⟨Run.final (next overrun settings) (.sound port) history,
          Port.written f1 ++ Port.written f2⟩ polls).countP fun step =>
        decide (step.1.Attends settings step.2)) :
    ∃ reached : Port, Run.final (next overrun settings) (.sound port) history = .sound reached ∧
      ObjectLine.received overrun settings (Run.steps (ObjectLine.step overrun settings)
          ⟨Run.final (next overrun settings) (.sound port) history,
            Port.written f1 ++ Port.written f2⟩ polls) =
        Line.pending ⟨reached, Port.written f1 ++ Port.written f2⟩ ++
          (if Line.BetweenFrames ⟨reached, Port.written f1 ++ Port.written f2⟩ then
            [(f1.length, f1)] else []) ++ [(f2.length, f2)] := by
  obtain ⟨reached, hreached⟩ := final_sound overrun port history hsound
  rw [hreached] at htime hmany ⊢
  have hroomy : AllRoomy settings (settle reached).1 (Port.written f1 ++ Port.written f2) :=
    allRoomy_two reached hmax1 hmax2 hsmall
  have hsteps := steps_ofLine overrun polls ⟨reached, Port.written f1 ++ Port.written f2⟩ htime
    hroomy
  rw [ofLine] at hsteps
  rw [hsteps, List.forall_mem_map] at htime
  rw [hsteps, List.countP_map] at hmany
  refine ⟨reached, rfl, ?_⟩
  rw [hsteps]
  apply (received_ofLine overrun polls _ htime hroomy).trans
  exact received_two _ f1 f2 polls rfl hmax1 hmax2 hsmall htime hmany

/-- Calls that come after those of a history. -/
def laterPolls (n : Nat) : List Poll :=
  (List.range n).map fun k => byteAt (1000 * k.toUInt32 + 3000)

/-- A frame that breaks off behind an escape. -/
def brokenOff : List Call := [callAt 1000 [start], callAt 2000 [45, esc]]

theorem resynchronises_brokenOff :
    ∃ reached : Port, Run.final (next (declared 52) {}) (.sound {}) brokenOff = .sound reached ∧
      ObjectLine.received (declared 52) {} (Run.steps (ObjectLine.step (declared 52) {})
          ⟨Run.final (next (declared 52) {}) (.sound {}) brokenOff,
            Port.written fiveBytes ++ Port.written fiveBytes⟩ (laterPolls 60)) =
        Line.pending ⟨reached, Port.written fiveBytes ++ Port.written fiveBytes⟩ ++
          (if Line.BetweenFrames ⟨reached, Port.written fiveBytes ++ Port.written fiveBytes⟩
            then [(5, fiveBytes)] else []) ++ [(5, fiveBytes)] :=
  resynchronises (declared 52) {} {} brokenOff fiveBytes fiveBytes (laterPolls 60)
    (by decide +kernel) (by decide) (by decide) (by decide) (by decide +kernel)
    (by decide +kernel)

/-- The object that is left when 53 escaped flags have been stored: the last of them lies over
`state`, and its value is none of the cases. -/
def stuck : Receiver Object :=
  Run.final (next (declared 52) {}) (.sound {}) (escapedFlags 53)

/-- Nothing is read any more, and neither of two frames is returned. -/
theorem overrun_stuck :
    (Run.final (ObjectLine.step (declared 52) {})
        ⟨stuck, Port.written fiveBytes ++ Port.written fiveBytes⟩ (laterPolls 60)).coming =
        Port.written fiveBytes ++ Port.written fiveBytes ∧
      ObjectLine.received (declared 52) {} (Run.steps (ObjectLine.step (declared 52) {})
        ⟨stuck, Port.written fiveBytes ++ Port.written fiveBytes⟩ (laterPolls 60)) = [] ∧
      ¬∀ (history : List Call) (f1 f2 : List UInt8) (polls : List Poll),
        (∀ call ∈ history, call.maxLength = ({} : Settings).packetMaxLength) →
        1 ≤ f1.length ∧ f1.length + 2 ≤ ({} : Settings).packetMaxLength →
        1 ≤ f2.length ∧ f2.length + 2 ≤ ({} : Settings).packetMaxLength →
        (∀ step ∈ Run.steps (ObjectLine.step (declared 52) {})
          ⟨Run.final (next (declared 52) {}) (.sound {}) history,
            Port.written f1 ++ Port.written f2⟩ polls, step.1.InTime {} step.2) →
        2 * (Port.written f1 ++ Port.written f2).length <
          ((Run.steps (ObjectLine.step (declared 52) {})
            ⟨Run.final (next (declared 52) {}) (.sound {}) history,
              Port.written f1 ++ Port.written f2⟩ polls).countP fun step =>
            decide (step.1.Attends {} step.2)) →
        (f2.length, f2) ∈ ObjectLine.received (declared 52) {}
          (Run.steps (ObjectLine.step (declared 52) {})
            ⟨Run.final (next (declared 52) {}) (.sound {}) history,
              Port.written f1 ++ Port.written f2⟩ polls) := by
  have hnothing : ObjectLine.received (declared 52) {} (Run.steps (ObjectLine.step (declared 52) {})
      ⟨stuck, Port.written fiveBytes ++ Port.written fiveBytes⟩ (laterPolls 60)) = [] := by
    decide +kernel
  refine ⟨by decide +kernel, hnothing, fun hall => ?_⟩
  have hreturned := hall (escapedFlags 53) fiveBytes fiveBytes (laterPolls 60)
    (by decide +kernel) (by decide) (by decide) (by decide +kernel) (by decide +kernel)
  rw [stuck] at hnothing
  rw [hnothing] at hreturned
  exact absurd hreturned List.not_mem_nil

end Pjon.Proofs.Overrun
