import Pjon.Lib.Interleaving
import Pjon.Lib.Scan
/-!
# Processes at the ends of a connection

A process reads from one stream, writes to another and makes calls of its own.  Two processes on
a connection read what the other one has written.  The order in which they proceed makes no
difference to what they do: a read waits for its items, and what has been written stays.

A connection may also be lost at one end, during any read or write.  From then on this end reads
nothing and writes nothing.  What is true of each end as long as it follows its script, and true of
what it does if the connection is lost there, is then true of both ends in every run.
-/

namespace Pjon.Lib

/-- A process that comes to a result.  A read gets fewer items than it asks for, a search does not
find its pattern and a write fails if the connection is lost. -/
inductive Process (β ε α : Type) where
  | done (result : α)
  | read (count : Nat) (next : List β → Process β ε α)
  | seek (pattern : List β) (next : Bool → Process β ε α)
  | write (items : List β) (next : Bool → Process β ε α)
  | call (event : ε) (next : Process β ε α)

namespace Process

variable {β ε α γ : Type}

def bind : Process β ε α → (α → Process β ε γ) → Process β ε γ
  | done result, f => f result
  | read count next, f => read count fun items => (next items).bind f
  | seek pattern next, f => seek pattern fun found => (next found).bind f
  | write items next, f => write items fun ok => (next ok).bind f
  | call event next, f => call event (next.bind f)

instance : Monad (Process β ε) where
  pure := done
  bind := bind

@[simp] theorem pure_eq (a : α) : (pure a : Process β ε α) = done a := rfl

@[simp] theorem bind_eq (p : Process β ε α) (f : α → Process β ε γ) : p >>= f = p.bind f := rfl

theorem bind_assoc {δ : Type} (p : Process β ε α) (f : α → Process β ε γ)
    (g : γ → Process β ε δ) : (p.bind f).bind g = p.bind fun a => (f a).bind g := by
  induction p with
  | done result => rfl
  | read count next ih => exact congrArg (read count) (funext ih)
  | seek pattern next ih => exact congrArg (seek pattern) (funext ih)
  | write items next ih => exact congrArg (write items) (funext ih)
  | call event next ih => exact congrArg (call event) ih

def readItems (count : Nat) : Process β ε (List β) := read count done
def seekPattern (pattern : List β) : Process β ε Bool := seek pattern done
def writeItems (items : List β) : Process β ε Bool := write items done
def callEvent (event : ε) : Process β ε Unit := call event (done ())

/-! ## One end -/

/-- What a step makes of an end: the items that it takes, those that it gives and the calls. -/
structure Step (β ε α : Type) where
  process : Process β ε α
  taken : Nat := 0
  given : List β := []
  events : List ε := []

/-- What an end does once the connection is lost: its result and its calls. -/
def afterLoss : Process β ε α → α × List ε
  | done result => (result, [])
  | read _ next => (next []).afterLoss
  | seek _ next => (next false).afterLoss
  | write _ next => (next false).afterLoss
  | call event next => (next.afterLoss.1, event :: next.afterLoss.2)

theorem afterLoss_bind (p : Process β ε α) (f : α → Process β ε γ) :
    (p.bind f).afterLoss =
      ((f p.afterLoss.1).afterLoss.1, p.afterLoss.2 ++ (f p.afterLoss.1).afterLoss.2) := by
  induction p with
  | done result => rfl
  | read count next ih => exact ih []
  | seek pattern next ih => exact ih false
  | write items next ih => exact ih false
  | call event next ih =>
      rw [bind, afterLoss, ih]
      rfl

variable [DecidableEq β]

/-- The next step, with these items to be read; none if there are not enough. -/
def advance : Process β ε α → List β → Option (Step β ε α)
  | done _, _ => none
  | read count next, incoming =>
    if count ≤ incoming.length then some { process := next (incoming.take count), taken := count }
    else none
  | seek pattern next, incoming =>
    (Scan.find pattern incoming).map fun index =>
      { process := next true, taken := index + pattern.length }
  | write items next, _ => some { process := next true, given := items }
  | call event next, _ => some { process := next, events := [event] }

/-- A step stays possible when more items come. -/
theorem advance_append {p : Process β ε α} {incoming : List β} {s : Step β ε α}
    (h : p.advance incoming = some s) (more : List β) :
    p.advance (incoming ++ more) = some s := by
  cases p with
  | done result => exact h
  | read count next =>
      rw [advance] at h
      split_ifs at h with hcount
      have hlong : count ≤ (incoming ++ more).length := by
        rw [List.length_append]
        omega
      rw [advance, if_pos hlong, List.take_append_of_le_length hcount]
      exact h
  | seek pattern next =>
      obtain ⟨index, hindex, rfl⟩ := Option.map_eq_some_iff.mp h
      rw [advance, Scan.find_append hindex]
      rfl
  | write items next => exact h
  | call event next => exact h

theorem taken_le {p : Process β ε α} {incoming : List β} {s : Step β ε α}
    (h : p.advance incoming = some s) : s.taken ≤ incoming.length := by
  cases p with
  | done result => exact absurd h.symm (Option.some_ne_none s)
  | read count next =>
      rw [advance] at h
      split_ifs at h with hcount
      obtain rfl := Option.some.inj h
      exact hcount
  | seek pattern next =>
      obtain ⟨index, hindex, rfl⟩ := Option.map_eq_some_iff.mp h
      by_cases hpattern : pattern = []
      · subst hpattern
        have hzero : Scan.find ([] : List β) incoming = some 0 := Scan.find_of_prefix [] incoming
        rw [hzero] at hindex
        obtain rfl := Option.some.inj hindex
        exact Nat.zero_le _
      · exact (Scan.find_eq_some hindex).length_le hpattern
  | write items next =>
      obtain rfl := Option.some.inj h
      exact Nat.zero_le _
  | call event next =>
      obtain rfl := Option.some.inj h
      exact Nat.zero_le _

end Process

/-! ## Both ends -/

inductive Side where
  | left
  | right
  deriving DecidableEq, Repr

namespace Side

def other : Side → Side
  | left => right
  | right => left

@[simp] theorem other_other (side : Side) : side.other.other = side := by
  cases side <;> rfl

@[simp] theorem other_ne (side : Side) : side.other ≠ side := by
  cases side <;> decide

theorem eq_other {side side' : Side} (h : side' ≠ side) : side' = side.other := by
  cases side <;> cases side' <;> first | rfl | exact absurd rfl h

end Side

/-- An end with the calls that it has made. -/
structure End (β ε α : Type) where
  process : Process β ε α
  events : List ε := []

/-- `stream side` is what can be read at that side. -/
structure Connection (β ε α : Type) where
  ends : Side → End β ε α
  stream : Side → List β

variable {β ε α : Type}

namespace Connection

open Interleaving

/-- A connection, described from one side. -/
def between (side : Side) (near far : End β ε α) (nearStream farStream : List β) :
    Connection β ε α :=
  { ends := fun side' => if side' = side then near else far
    stream := fun side' => if side' = side then nearStream else farStream }

section Between

variable (side : Side) (near far : End β ε α) (nearStream farStream : List β)

@[simp] theorem ends_between : (between side near far nearStream farStream).ends side = near :=
  if_pos rfl

@[simp] theorem ends_between_other :
    (between side near far nearStream farStream).ends side.other = far := if_neg side.other_ne

@[simp] theorem stream_between :
    (between side near far nearStream farStream).stream side = nearStream := if_pos rfl

@[simp] theorem stream_between_other :
    (between side near far nearStream farStream).stream side.other = farStream :=
  if_neg side.other_ne

theorem between_other :
    between side.other near far nearStream farStream =
      between side far near farStream nearStream := by
  unfold between
  congr 1 <;> funext side' <;> cases side <;> cases side' <;> rfl

theorem eq_between (c : Connection β ε α) :
    c = between side (c.ends side) (c.ends side.other) (c.stream side) (c.stream side.other) := by
  obtain ⟨ends, stream⟩ := c
  unfold between
  congr 1 <;> funext side' <;> cases side <;> cases side' <;> rfl

end Between

variable [DecidableEq β]

/-- The side takes its next step. -/
def step (side : Side) (c : Connection β ε α) : Option (Connection β ε α) :=
  ((c.ends side).process.advance (c.stream side)).map fun s =>
    between side { process := s.process, events := (c.ends side).events ++ s.events }
      (c.ends side.other) ((c.stream side).drop s.taken) (c.stream side.other ++ s.given)

theorem step_between {side : Side} {near far : End β ε α} {nearStream farStream : List β}
    {s : Process.Step β ε α} (h : near.process.advance nearStream = some s) :
    step side (between side near far nearStream farStream) =
      some (between side { process := s.process, events := near.events ++ s.events } far
        (nearStream.drop s.taken) (farStream ++ s.given)) := by
  rw [step, ends_between, stream_between, h, ends_between_other, stream_between_other]
  rfl

theorem step_eq_some {side : Side} {c a : Connection β ε α} (h : step side c = some a) :
    ∃ s, (c.ends side).process.advance (c.stream side) = some s ∧
      a = between side { process := s.process, events := (c.ends side).events ++ s.events }
        (c.ends side.other) ((c.stream side).drop s.taken) (c.stream side.other ++ s.given) := by
  obtain ⟨s, hs, rfl⟩ := Option.map_eq_some_iff.mp h
  exact ⟨s, hs, rfl⟩

theorem commutes : Commutes (step (β := β) (ε := ε) (α := α)) := by
  intro i j c a b hij ha hb
  obtain rfl := Side.eq_other hij.symm
  obtain ⟨s, hs, rfl⟩ := step_eq_some ha
  obtain ⟨s', hs', rfl⟩ := step_eq_some hb
  refine ⟨between i { process := s.process, events := (c.ends i).events ++ s.events }
    { process := s'.process, events := (c.ends i.other).events ++ s'.events }
    ((c.stream i).drop s.taken ++ s'.given) ((c.stream i.other).drop s'.taken ++ s.given), ?_, ?_⟩
  · rw [← between_other, step_between (Process.advance_append hs' s.given), between_other,
      List.drop_append_of_le_length (Process.taken_le hs')]
  · rw [Side.other_other, between_other, step_between (Process.advance_append hs s'.given),
      List.drop_append_of_le_length (Process.taken_le hs)]

/-- Two ends that are done take no more steps. -/
theorem final_of_done {c : Connection β ε α} (results : Side → α)
    (h : ∀ side, (c.ends side).process = .done (results side)) : Final step c := by
  intro side
  rw [step, h side]
  rfl

/-! ## Runs, composed -/

/-- There is a run from the one to the other. -/
def Leads (c d : Connection β ε α) : Prop := ∃ l, Runs step l c d

theorem Leads.trans {c d e : Connection β ε α} (h : Leads c d) (h' : Leads d e) : Leads c e := by
  obtain ⟨l, hl⟩ := h
  obtain ⟨l', hl'⟩ := h'
  exact ⟨l ++ l', hl.append hl'⟩

theorem Leads.refl (c : Connection β ε α) : Leads c c := ⟨[], .nil c⟩

section Leads

variable (side : Side) (far : End β ε α) (nearStream farStream : List β) (events : List ε)

theorem leads_of_advance {process : Process β ε α} {s : Process.Step β ε α}
    (h : process.advance nearStream = some s) :
    Leads (between side { process := process, events := events } far nearStream farStream)
      (between side { process := s.process, events := events ++ s.events } far
        (nearStream.drop s.taken) (farStream ++ s.given)) :=
  ⟨[side], .cons (step_between h) (.nil _)⟩

theorem leads_read (next : List β → Process β ε α) (items : List β) :
    Leads (between side { process := .read items.length next, events := events } far
        (items ++ nearStream) farStream)
      (between side { process := next items, events := events } far nearStream farStream) := by
  have hadvance : (Process.read items.length next).advance (items ++ nearStream) =
      some { process := next items, taken := items.length } := by
    have hle : items.length ≤ (items ++ nearStream).length := by
      rw [List.length_append]
      exact Nat.le_add_right _ _
    rw [Process.advance, if_pos hle, List.take_left]
  have hleads := leads_of_advance side far (items ++ nearStream) farStream events hadvance
  simp only [List.append_nil, List.drop_left] at hleads
  exact hleads

theorem leads_seek (next : Bool → Process β ε α) (pattern : List β) :
    Leads (between side { process := .seek pattern next, events := events } far
        (pattern ++ nearStream) farStream)
      (between side { process := next true, events := events } far nearStream farStream) := by
  have hadvance : (Process.seek pattern next).advance (pattern ++ nearStream) =
      some { process := next true, taken := 0 + pattern.length } := by
    rw [Process.advance, Scan.find_of_prefix]
    rfl
  have hleads := leads_of_advance side far (pattern ++ nearStream) farStream events hadvance
  simp only [List.append_nil, Nat.zero_add, List.drop_left] at hleads
  exact hleads

theorem leads_write (next : Bool → Process β ε α) (items : List β) :
    Leads (between side { process := .write items next, events := events } far nearStream farStream)
      (between side { process := next true, events := events } far nearStream
        (farStream ++ items)) := by
  have hadvance : (Process.write items next).advance nearStream =
      some { process := next true, given := items } := rfl
  have hleads := leads_of_advance side far nearStream farStream events hadvance
  simp only [List.append_nil, List.drop_zero] at hleads
  exact hleads

theorem leads_call (next : Process β ε α) (event : ε) :
    Leads (between side { process := .call event next, events := events } far nearStream farStream)
      (between side { process := next, events := events ++ [event] } far nearStream
        farStream) := by
  have hadvance : (Process.call event next).advance nearStream =
      some { process := next, events := [event] } := rfl
  have hleads := leads_of_advance side far nearStream farStream events hadvance
  simp only [List.append_nil, List.drop_zero] at hleads
  exact hleads

end Leads

end Connection

/-! ## Scripts -/

namespace Process

/-- What an end does in all once it has lost the connection, if `calls` is what it does behind a
result. -/
def lossEvents (calls : α → List ε) (p : Process β ε α) : List ε :=
  p.afterLoss.2 ++ calls p.afterLoss.1

theorem lossEvents_bind {γ : Type} (calls : γ → List ε) (p : Process β ε α)
    (f : α → Process β ε γ) :
    lossEvents calls (p.bind f) = lossEvents (fun a => lossEvents calls (f a)) p := by
  rw [lossEvents, afterLoss_bind, List.append_assoc]
  rfl

variable (I : List ε → List β → List β → Prop)

/-- An end that reads `incoming` and writes `outgoing`, in this order, comes to a result of which
`Q` is true.  Before each of its steps `I` is true of the calls that it has made and of what is
still to be read and written, and `I` stays true if the connection is lost in the step. -/
def Follows (calls : α → List ε) (Q : α → List ε → List β → List β → Prop) :
    Process β ε α → List ε → List β → List β → Prop
  | done result, events, incoming, outgoing => Q result events incoming outgoing
  | read count next, events, incoming, outgoing =>
    I events incoming outgoing ∧
      (∀ items, items.length < count →
        I (events ++ lossEvents calls (next items)) incoming outgoing) ∧
      count ≤ incoming.length ∧
        (next (incoming.take count)).Follows calls Q events (incoming.drop count) outgoing
  | seek pattern next, events, incoming, outgoing =>
    I events incoming outgoing ∧
      I (events ++ lossEvents calls (next false)) incoming outgoing ∧
      pattern <+: incoming ∧
        (next true).Follows calls Q events (incoming.drop pattern.length) outgoing
  | write items next, events, incoming, outgoing =>
    I events incoming outgoing ∧
      (∀ count < items.length,
        I (events ++ lossEvents calls (next false)) incoming (outgoing.drop count)) ∧
      items <+: outgoing ∧
        (next true).Follows calls Q events incoming (outgoing.drop items.length)
  | call event next, events, incoming, outgoing =>
    I events incoming outgoing ∧ next.Follows calls Q (events ++ [event]) incoming outgoing

variable {I}

theorem follows_bind {γ : Type} {calls : γ → List ε} {Q : γ → List ε → List β → List β → Prop}
    {f : α → Process β ε γ} {p : Process β ε α} {events : List ε} {incoming outgoing : List β}
    (h : p.Follows I (fun a => lossEvents calls (f a)) (fun a => (f a).Follows I calls Q) events
      incoming outgoing) : (p.bind f).Follows I calls Q events incoming outgoing := by
  induction p generalizing events incoming outgoing with
  | done result => exact h
  | read count next ih =>
      obtain ⟨hhere, hloss, hcount, hnext⟩ := h
      refine ⟨hhere, fun items hitems => ?_, hcount, ih _ hnext⟩
      rw [lossEvents_bind]
      exact hloss items hitems
  | seek pattern next ih =>
      obtain ⟨hhere, hloss, hpattern, hnext⟩ := h
      refine ⟨hhere, ?_, hpattern, ih _ hnext⟩
      rw [lossEvents_bind]
      exact hloss
  | write items next ih =>
      obtain ⟨hhere, hloss, hitems, hnext⟩ := h
      refine ⟨hhere, fun count hcount => ?_, hitems, ih _ hnext⟩
      rw [lossEvents_bind]
      exact hloss count hcount
  | call event next ih => exact ⟨h.1, ih h.2⟩

variable {calls : α → List ε} {Q : α → List ε → List β → List β → Prop} {p : Process β ε α}
  {events : List ε} {incoming outgoing : List β}

/-- An end that follows a script has not left it. -/
theorem Follows.here (h : p.Follows I (fun _ => []) (fun _ => I) events incoming outgoing) :
    I events incoming outgoing := by
  cases p with
  | done result => exact h
  | read count next => exact h.1
  | seek pattern next => exact h.1
  | write items next => exact h.1
  | call event next => exact h.1

end Process

namespace Connection

open Interleaving

variable (I : Side → List ε → List β → List β → Prop)

variable {I}

variable [DecidableEq β]

/-- An end makes its way alone, if all that it reads is there. -/
theorem leads_of_follows {γ : Type} {p : Process β ε γ} {f : γ → Process β ε α}
    {calls : γ → List ε} {result : γ} {side : Side} {far : End β ε α}
    {rest farStream incoming outgoing : List β} {events events' : List ε}
    (h : p.Follows (fun _ _ _ => True) calls
      (fun a made toRead toWrite => a = result ∧ made = events' ∧ toRead = [] ∧ toWrite = [])
      events incoming outgoing) :
    Leads (between side { process := p.bind f, events := events } far (incoming ++ rest) farStream)
      (between side { process := f result, events := events' } far rest
        (farStream ++ outgoing)) := by
  induction p generalizing events incoming outgoing farStream with
  | done a =>
      obtain ⟨rfl, rfl, rfl, rfl⟩ := h
      rw [List.append_nil]
      exact Leads.refl _
  | read count next ih =>
      obtain ⟨-, -, hcount, hnext⟩ := h
      have hread := leads_read side far (incoming.drop count ++ rest) farStream events
        (fun items => (next items).bind f) (incoming.take count)
      rw [← List.append_assoc, List.take_append_drop, List.length_take_of_le hcount] at hread
      exact hread.trans (ih _ hnext)
  | seek pattern next ih =>
      obtain ⟨-, -, ⟨more, rfl⟩, hnext⟩ := h
      rw [List.drop_left] at hnext
      rw [List.append_assoc]
      exact (leads_seek side far _ farStream events _ pattern).trans (ih _ hnext)
  | write items next ih =>
      obtain ⟨-, -, ⟨more, rfl⟩, hnext⟩ := h
      rw [List.drop_left] at hnext
      rw [← List.append_assoc]
      exact (leads_write side far _ farStream events _ items).trans (ih _ hnext)
  | call event next ih => exact (leads_call side far _ farStream events _ event).trans (ih h.2)

end Connection

end Pjon.Lib
