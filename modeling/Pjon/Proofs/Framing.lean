import Pjon.Spec.Framing
import Mathlib.Tactic.SplitIfs
/-!
# Frames that make it over a serial line

The receiver of ThroughSerial undoes the byte stuffing of the sender, however the bytes
are spread over its calls.  What it does not do is take the end flag of a frame that is one
byte shorter than the buffer: the flag finds no room.
-/

namespace Pjon.Proofs.Framing

open Pjon.Lib Pjon.Lib.Stuffing Pjon.Model.ThroughSerial Pjon.Spec

variable {settings : Settings} {sender : Port} {frame : List UInt8}

/-! ## Flags -/

/-- The content of a frame on the line. -/
def stuffed (s : List UInt8) : List UInt8 := stuff isFlag esc (fun value => value ^^^ esc) s

theorem xor_esc (value : UInt8) : value ^^^ esc ^^^ esc = value := by
  rw [UInt8.xor_assoc, UInt8.xor_self, UInt8.xor_zero]

theorem isFlag_iff (value : UInt8) :
    isFlag value = true ↔ value = start ∨ value = esc ∨ value = endFlag := by
  rw [isFlag, Bool.or_eq_true, Bool.or_eq_true, beq_iff_eq, beq_iff_eq, beq_iff_eq, or_assoc]

theorem ne_of_not_flag {value : UInt8} (h : isFlag value = false) :
    value ≠ start ∧ value ≠ esc ∧ value ≠ endFlag := by
  rw [← Bool.not_eq_true, isFlag_iff] at h
  exact ⟨fun heq => h (Or.inl heq), fun heq => h (Or.inr (Or.inl heq)),
    fun heq => h (Or.inr (Or.inr heq))⟩

/-! ## How far a receiver is -/

/-- The buffer starts with what was received so far. -/
def Holding (port : Port) (front : List UInt8) : Prop :=
  port.position = front.length ∧ port.buffer.load 0 front.length = front

/-- How far the frame has come, and what the calls have returned. -/
inductive Stage (settings : Settings) (sender : Port) (frame : List UInt8) :
    Line → List (Nat × List UInt8) → Prop where
  | waiting {line : Line} (hstate : line.port.state = .waiting)
      (hcoming : line.coming = Port.written frame) : Stage settings sender frame line []
  | receiving {line : Line} (front rest : List UInt8) (hframe : frame = front ++ rest)
      (hstate : line.port.state = .receiving) (hbuffer : Holding line.port front)
      (hcoming : line.coming = stuffed rest ++ [endFlag]) : Stage settings sender frame line []
  | waitingEscape {line : Line} (front rest : List UInt8) (value : UInt8)
      (hframe : frame = front ++ value :: rest) (hstate : line.port.state = .waitingEscape)
      (hbuffer : Holding line.port front) (hflag : isFlag value = true)
      (hcoming : line.coming = (value ^^^ esc) :: (stuffed rest ++ [endFlag])) :
      Stage settings sender frame line []
  | done {line : Line} (hroom : frame.length + 1 < settings.packetMaxLength)
      (hstate : line.port.state = .done) (hbuffer : Holding line.port frame)
      (hcoming : line.coming = []) : Stage settings sender frame line []
  | delivered {line : Line} (hroom : frame.length + 1 < settings.packetMaxLength)
      (hstate : line.port.state = .waiting) (hcoming : line.coming = [])
      (hresponse : line.port.response.load 0 settings.responseLength =
        (sender.sendFrame settings frame).response.load 0 settings.responseLength) :
      Stage settings sender frame line [(frame.length, frame)]
  | lost {line : Line} (hfull : settings.packetMaxLength ≤ frame.length + 1)
      (hstate : line.port.state = .waiting) (hcoming : line.coming = []) :
      Stage settings sender frame line []

theorem holding_store {port : Port} {front : List UInt8} (h : Holding port front) (value : UInt8)
    (hsmall : front.length + 1 < 65536) : Holding (port.store value) (front ++ [value]) := by
  obtain ⟨hposition, hbuffer⟩ := h
  constructor
  · rw [Port.store, hposition, List.length_append, List.length_singleton,
      Nat.mod_eq_of_lt hsmall]
  · rw [Port.store, hposition, List.length_append]
    exact (Memory.load_store_behind port.buffer front.length [value]).trans (by rw [hbuffer])

/-- The reads of a call are of bytes that have come. -/
def Reading (reads : List Read) (chunk : List UInt8) : Prop :=
  reads.map Read.value = chunk.map some

theorem reading_nil {reads : List Read} (h : Reading reads []) : reads = [] :=
  List.map_eq_nil_iff.mp h

theorem reading_cons {reads : List Read} {value : UInt8} {chunk : List UInt8}
    (h : Reading reads (value :: chunk)) :
    ∃ read rest, reads = read :: rest ∧ read.value = some value ∧ Reading rest chunk := by
  cases reads with
  | nil => cases h
  | cons read rest =>
      obtain ⟨hvalue, hrest⟩ := List.cons.inj h
      exact ⟨read, rest, rfl, hvalue, hrest⟩

theorem reading_call (line : Line) (poll : Poll) :
    Reading (line.call settings poll).reads (line.coming.take poll.arrived) := by
  rw [Reading, Line.call, List.map_map]
  have hvalues : (Read.value ∘ fun byte : UInt8 × Nat =>
      ({ value := some byte.1, now := poll.readNow byte.2 } : Read)) = some ∘ Prod.fst := rfl
  rw [hvalues, ← List.map_map, List.zipIdx_map_fst]

/-- What a call returns if it does not fail. -/
def returned (frame : Frame) : List (Nat × List UInt8) :=
  if frame.result = tsFail then [] else [(frame.result, frame.data)]

theorem received_cons (line : Line) (poll : Poll) (steps : List (Line × Poll)) :
    Line.received settings ((line, poll) :: steps) =
      returned (line.frame settings poll) ++ Line.received settings steps := by
  rw [Line.received, List.filterMap_cons, returned]
  dsimp only
  split_ifs <;> rfl

/-- How many attentive calls the receiver needs at most. -/
def left (line : Line) : Nat :=
  line.coming.length + if line.coming = [] ∧ line.port.state = .waiting then 0 else 1

/-- Every byte that is read brings the receiver closer to the end. -/
theorem left_drop (port port' : Port) {coming : List UInt8} (hcoming : coming ≠ []) (n : Nat) :
    left ⟨port', coming.drop n⟩ ≤ left ⟨port, coming⟩ ∧
      (0 < n → left ⟨port', coming.drop n⟩ < left ⟨port, coming⟩) := by
  have hleft : left ⟨port, coming⟩ = coming.length + 1 := by
    rw [left, if_neg fun h => hcoming h.1]
  have hlength : 0 < coming.length := List.length_pos_of_ne_nil hcoming
  have hafter : left ⟨port', coming.drop n⟩ ≤ coming.length - n + 1 := by
    rw [left, List.length_drop]
    split_ifs <;> omega
  constructor
  · omega
  · intro hn
    omega

/-- With nothing to come and no frame begun, a call changes nothing, and none is needed. -/
theorem switch_idle {port : Port} {call : Call} {chunk later : List UInt8}
    (hstate : port.state = .waiting) (hcoming : [] = chunk ++ later)
    (hreading : Reading call.reads chunk) :
    port.switch settings call = { port := port } ∧ left ⟨port, []⟩ = 0 := by
  obtain ⟨rfl, -⟩ := List.append_eq_nil_iff.mp hcoming.symm
  constructor
  · rw [Port.switch, hstate, reading_nil hreading]
    rfl
  · rw [left, if_pos ⟨rfl, hstate⟩]
    rfl

/-- A response that is not longer than the frame is made of the frame alone. -/
theorem response_done {port : Port} (hlong : settings.responseLength ≤ frame.length)
    (hbuffer : Holding port frame) :
    (port.prepareResponse settings).response.load 0 settings.responseLength =
      (sender.sendFrame settings frame).response.load 0 settings.responseLength := by
  obtain ⟨hposition, hbuffer⟩ := hbuffer
  rw [Memory.load_eq_iff] at hbuffer
  have hsame : ((List.range settings.responseLength).map fun i =>
        let raw := port.byteAt (Port.responseIndex settings port.position i)
        if isFlag raw then raw - 1 else raw) =
      (List.range settings.responseLength).map fun i =>
        let raw := ({ sender with
          buffer := fun i => frame.getD i 0
          position := frame.length } : Port).byteAt (Port.responseIndex settings frame.length i)
        if isFlag raw then raw - 1 else raw := by
    apply List.map_congr_left
    intro i hi
    obtain ⟨index, hindex, hlt⟩ : ∃ index : Nat,
        Port.responseIndex settings frame.length i = index ∧ index < frame.length := by
      rw [List.mem_range] at hi
      refine ⟨(Port.responseIndex settings frame.length i).toNat, ?_, ?_⟩
      · unfold Port.responseIndex
        omega
      · unfold Port.responseIndex
        omega
    have hbyte := hbuffer _ hlt
    rw [Nat.zero_add] at hbyte
    simp only [hposition, hindex]
    show (if isFlag (port.buffer index) then port.buffer index - 1 else port.buffer index) = _
    rw [hbyte]
    rfl
  have hlength : ∀ (memory : Memory) (bytes : List UInt8), bytes.length = settings.responseLength →
      (memory.store 0 bytes).load 0 settings.responseLength = bytes := by
    intro memory bytes hlen
    rw [← hlen, Memory.load_store]
  rw [Port.sendFrame, Port.prepareResponse, Port.prepareResponse,
    hlength _ _ (by rw [List.length_map, List.length_range]),
    hlength _ _ (by rw [List.length_map, List.length_range])]
  exact hsame

/-! ## The states -/

section States

variable (hmax : frame.length < settings.packetMaxLength)
variable (hsmall : settings.packetMaxLength < 65536) (hmin : 5 ≤ frame.length)

include hmax hsmall hmin

variable (sender) in
/-- The loop of the state `TS_RECEIVING`, by induction on what is left of the frame. -/
theorem receiving_stage (rest : List UInt8) :
    ∀ (front chunk later : List UInt8) (port : Port) (reads : List Read),
      frame = front ++ rest → port.state = .receiving → Holding port front →
      Reading reads chunk → chunk ++ later = stuffed rest ++ [endFlag] →
      (port.receiving settings settings.packetMaxLength reads).result = tsFail ∧
      Stage settings sender frame
        ⟨(port.receiving settings settings.packetMaxLength reads).port,
          (chunk ++ later).drop
            (Port.receivingReads settings settings.packetMaxLength port.position reads)⟩ [] ∧
      (chunk ≠ [] →
        0 < Port.receivingReads settings settings.packetMaxLength port.position reads) := by
  have hone : settings.packetMaxLength ≠ 1 := by omega
  induction rest with
  | nil =>
      intro front chunk later port reads hframe hstate hbuffer hreading hcoming
      rw [List.append_nil] at hframe
      cases chunk with
      | nil =>
          rw [reading_nil hreading]
          refine ⟨rfl, Stage.receiving front [] (by rw [hframe, List.append_nil]) hstate hbuffer
            hcoming, fun h => absurd rfl h⟩
      | cons value chunk =>
          obtain ⟨read, reads, rfl, hvalue, hrest⟩ := reading_cons hreading
          obtain ⟨rfl, hnothing⟩ := List.cons.inj hcoming
          obtain ⟨rfl, rfl⟩ := List.append_eq_nil_iff.mp hnothing
          rw [reading_nil hrest]
          subst hframe
          have hfacts : endFlag ≠ start ∧ endFlag ≠ esc := by decide
          have hbuffer' : Holding (port.receiveByte read) frame := by
            rw [Port.receiveByte, hvalue]
            exact hbuffer
          have hfound : (port.receiveByte read).position = frame.length := hbuffer'.1
          have hreads : Port.receivingReads settings settings.packetMaxLength port.position
              [read] = 1 := by
            rw [Port.receivingReads, hvalue]
            simp only [if_neg hfacts.1, if_neg hfacts.2, if_neg hone]
            split_ifs <;> rfl
          rw [hreads, Port.receiving, hvalue]
          simp only [if_neg hfacts.1, if_neg hfacts.2, if_neg hone, hfound]
          by_cases hfull : settings.packetMaxLength ≤ frame.length + 1
          · rw [if_pos hfull]
            exact ⟨rfl, Stage.lost hfull rfl rfl, fun _ => Nat.one_pos⟩
          · rw [if_neg hfull]
            exact ⟨rfl, Stage.done (by omega) rfl hbuffer' rfl, fun _ => Nat.one_pos⟩
  | cons value rest ih =>
      intro front chunk later port reads hframe hstate hbuffer hreading hcoming
      have hlength : front.length < frame.length := by
        rw [hframe, List.length_append, List.length_cons]
        omega
      have hnext : frame = (front ++ [value]) ++ rest := by
        rw [hframe, List.append_assoc, List.singleton_append]
      cases chunk with
      | nil =>
          rw [reading_nil hreading]
          exact ⟨rfl, Stage.receiving front (value :: rest) hframe hstate hbuffer hcoming,
            fun h => absurd rfl h⟩
      | cons first chunk =>
          obtain ⟨read, reads, rfl, hvalue, hrest⟩ := reading_cons hreading
          have hbuffer' : Holding (port.receiveByte read) front := by
            rw [Port.receiveByte, hvalue]
            exact hbuffer
          have hstate' : (port.receiveByte read).state = .receiving := by
            rw [Port.receiveByte, hvalue]
            exact hstate
          cases hflag : isFlag value with
          | true =>
              -- the flag comes disguised behind an escape
              rw [stuffed, stuff_special hflag] at hcoming
              obtain ⟨rfl, hgoes⟩ := List.cons.inj hcoming
              have hesc : esc ≠ start := by decide
              cases chunk with
              | nil =>
                  rw [reading_nil hrest]
                  have hreads : Port.receivingReads settings settings.packetMaxLength
                      port.position [read] = 1 := by
                    rw [Port.receivingReads.eq_def]
                    simp only [hvalue, if_neg hesc, if_true]
                  rw [hreads, Port.receiving.eq_def]
                  simp only [hvalue, if_neg hesc, if_true]
                  exact ⟨rfl, Stage.waitingEscape front rest value hframe rfl hbuffer' hflag hgoes,
                    fun _ => Nat.one_pos⟩
              | cons second chunk =>
                  obtain ⟨escaped, reads, rfl, hsecond, hrest'⟩ := reading_cons hrest
                  obtain ⟨rfl, hgoes'⟩ := List.cons.inj hgoes
                  have hbuffer'' : Holding ((port.receiveByte read).receiveByte escaped) front := by
                    rw [Port.receiveByte, hsecond]
                    exact hbuffer'
                  have hstate'' : ((port.receiveByte read).receiveByte escaped).state =
                      .receiving := by
                    rw [Port.receiveByte, hsecond]
                    exact hstate'
                  obtain ⟨hresult, hstage, -⟩ := ih (front ++ [value]) chunk later
                    (((port.receiveByte read).receiveByte escaped).store value) reads hnext hstate''
                    (holding_store hbuffer'' value (by omega)) hrest' hgoes'
                  have hreads : Port.receivingReads settings settings.packetMaxLength
                      port.position (read :: escaped :: reads) =
                    Port.receivingReads settings settings.packetMaxLength
                      (((port.receiveByte read).receiveByte escaped).store value).position
                      reads + 2 := by
                    rw [Port.receivingReads.eq_def]
                    simp only [hvalue, hsecond, if_neg hesc, if_true, xor_esc, hflag, hbuffer.1,
                      Port.store, hbuffer''.1]
                  rw [hreads, Port.receiving.eq_def]
                  simp only [hvalue, hsecond, if_neg hesc, if_true, xor_esc, hflag]
                  exact ⟨hresult, hstage, fun _ => Nat.succ_pos _⟩
          | false =>
              rw [stuffed, stuff_plain hflag] at hcoming
              obtain ⟨rfl, hgoes⟩ := List.cons.inj hcoming
              obtain ⟨hstart, hesc, hend⟩ := ne_of_not_flag hflag
              have hroom : ¬settings.packetMaxLength ≤ front.length + 1 := by omega
              obtain ⟨hresult, hstage, -⟩ := ih (front ++ [first]) chunk later
                ((port.receiveByte read).store first) reads hnext hstate'
                (holding_store hbuffer' first (by omega)) hrest hgoes
              have hreads : Port.receivingReads settings settings.packetMaxLength port.position
                  (read :: reads) =
                Port.receivingReads settings settings.packetMaxLength
                  ((port.receiveByte read).store first).position reads + 1 := by
                rw [Port.receivingReads.eq_def]
                simp only [hvalue, if_neg hstart, if_neg hesc, if_neg hone, if_neg hend, hbuffer.1,
                  if_neg hroom, Port.store, hbuffer'.1]
              rw [hreads, Port.receiving.eq_def]
              simp only [hvalue, if_neg hstart, if_neg hesc, if_neg hone, if_neg hend, hbuffer'.1,
                if_neg hroom]
              exact ⟨hresult, hstage, fun _ => Nat.succ_pos _⟩

variable (hlong : settings.responseLength ≤ frame.length)

include hlong

/-- What one call makes of a stage. -/
theorem stage_switch {port : Port} {coming chunk later : List UInt8}
    {got : List (Nat × List UInt8)} (h : Stage settings sender frame ⟨port, coming⟩ got)
    (call : Call) (hlength : call.maxLength = settings.packetMaxLength)
    (hcoming : coming = chunk ++ later) (hreading : Reading call.reads chunk) :
    Stage settings sender frame
        ⟨(port.switch settings call).port, coming.drop (port.switchReads settings call)⟩
        (got ++ returned (port.switch settings call)) ∧
      left ⟨(port.switch settings call).port, coming.drop (port.switchReads settings call)⟩ ≤
        left ⟨port, coming⟩ ∧
      (coming = [] ∨ chunk ≠ [] → left ⟨port, coming⟩ ≠ 0 →
        left ⟨(port.switch settings call).port, coming.drop (port.switchReads settings call)⟩ <
          left ⟨port, coming⟩) := by
  have hmoved : ∀ {n : Nat}, coming ≠ [] → (chunk ≠ [] → 0 < n) →
      left ⟨(port.switch settings call).port, coming.drop n⟩ ≤ left ⟨port, coming⟩ ∧
        (coming = [] ∨ chunk ≠ [] → left ⟨port, coming⟩ ≠ 0 →
          left ⟨(port.switch settings call).port, coming.drop n⟩ < left ⟨port, coming⟩) := by
    intro n hsome hn
    obtain ⟨hle, hlt⟩ := left_drop port (port.switch settings call).port hsome n
    exact ⟨hle, fun h _ => hlt (hn (h.resolve_left hsome))⟩
  cases h with
  | waiting hstate hwritten =>
      have hsome : coming ≠ [] := by rw [show coming = _ from hwritten]; exact List.cons_ne_nil _ _
      have hreads : port.switchReads settings call = Port.waitingReads call.reads := by
        rw [Port.switchReads, show port.state = _ from hstate]
      have hswitch : port.switch settings call = port.waiting call.reads := by
        rw [Port.switch, show port.state = _ from hstate]
      cases chunk with
      | nil =>
          rw [reading_nil hreading] at hreads hswitch
          refine ⟨?_, hmoved hsome fun h => absurd rfl h⟩
          rw [hreads, hswitch]
          exact Stage.waiting hstate hwritten
      | cons value chunk =>
          obtain ⟨read, reads, hcall, hvalue, -⟩ := reading_cons hreading
          have hfirst : value :: (chunk ++ later) =
              start :: (stuffed frame ++ [endFlag]) := hcoming.symm.trans hwritten
          obtain ⟨rfl, hrest⟩ := List.cons.inj hfirst
          rw [hcall, Port.waitingReads, hvalue] at hreads
          rw [hcall, Port.waiting, hvalue] at hswitch
          simp only [if_true] at hreads hswitch
          rw [hreads]
          refine ⟨?_, hmoved hsome fun _ => Nat.one_pos⟩
          rw [hswitch, hcoming]
          exact Stage.receiving [] frame rfl rfl ⟨rfl, rfl⟩ hrest
  | receiving front rest hframe hstate hbuffer hrest =>
      have hsome : coming ≠ [] := by
        rw [show coming = _ from hrest]
        exact List.append_ne_nil_of_right_ne_nil _ (List.cons_ne_nil _ _)
      obtain ⟨hresult, hstage, hread⟩ := receiving_stage sender hmax hsmall hmin rest
        front chunk later port call.reads hframe hstate hbuffer hreading (hcoming.symm.trans hrest)
      have hposition : port.position = front.length := hbuffer.1
      have hreads : port.switchReads settings call =
          Port.receivingReads settings settings.packetMaxLength port.position call.reads := by
        rw [Port.switchReads, show port.state = _ from hstate, hlength]
      have hswitch : port.switch settings call =
          port.receiving settings settings.packetMaxLength call.reads := by
        rw [Port.switch, show port.state = _ from hstate, hlength]
      rw [hreads]
      refine ⟨?_, hmoved hsome hread⟩
      rw [hswitch, returned, if_pos hresult, hcoming]
      exact hstage
  | waitingEscape front rest value hframe hstate hbuffer hflag hrest =>
      have hsome : coming ≠ [] := by rw [show coming = _ from hrest]; exact List.cons_ne_nil _ _
      have hroom : front.length < frame.length := by
        rw [hframe, List.length_append, List.length_cons]
        omega
      have hreads : port.switchReads settings call = (call.reads.take 1).length := by
        rw [Port.switchReads, show port.state = _ from hstate]
      have hswitch : port.switch settings call = port.waitingEscape call.reads := by
        rw [Port.switch, show port.state = _ from hstate]
      rw [hreads]
      cases chunk with
      | nil =>
          rw [reading_nil hreading] at hswitch ⊢
          refine ⟨?_, hmoved hsome fun h => absurd rfl h⟩
          rw [hswitch]
          exact Stage.waitingEscape front rest value hframe hstate hbuffer hflag hrest
      | cons first chunk =>
          obtain ⟨read, reads, hcall, hvalue, -⟩ := reading_cons hreading
          obtain ⟨rfl, hgoes⟩ := List.cons.inj (hcoming.symm.trans hrest)
          have hbuffer' : Holding (port.receiveByte read) front := by
            rw [Port.receiveByte, hvalue]
            exact hbuffer
          rw [hcall, Port.waitingEscape, hvalue] at hswitch
          simp only [xor_esc, hflag, if_true] at hswitch
          rw [hcall]
          refine ⟨?_, hmoved hsome fun _ => Nat.one_pos⟩
          rw [hswitch, hcoming]
          exact Stage.receiving (front ++ [value]) rest
            (by rw [hframe, List.append_assoc, List.singleton_append]) rfl
            (holding_store hbuffer' value (by omega)) hgoes
  | done hroom hstate hbuffer hnothing =>
      have hnone : coming = [] := hnothing
      obtain ⟨hposition, hload⟩ := hbuffer
      have hcode : frame.length ≠ tsFail := by
        have : tsFail = 65535 := rfl
        omega
      have hswitch : port.switch settings call = port.done settings := by
        rw [Port.switch, show port.state = _ from hstate]
      have hreturned : returned (port.done settings) = [(frame.length, frame)] := by
        have hlen : port.position = frame.length := hposition
        have hdata : port.buffer.load 0 frame.length = frame := hload
        simp only [returned, Port.done, hlen, hdata, if_neg hcode]
      rw [hswitch, hreturned, hnone, List.drop_nil]
      refine ⟨Stage.delivered hroom rfl rfl (response_done hlong ⟨hposition, hload⟩),
        Nat.zero_le _, fun _ hleft => Nat.pos_of_ne_zero hleft⟩
  | delivered hroom hstate hnothing hresponse =>
      have hnone : coming = [] := hnothing
      subst hnone
      obtain ⟨hswitch, hzero⟩ := switch_idle hstate hcoming hreading
      rw [hswitch, List.drop_nil, hzero]
      exact ⟨Stage.delivered hroom hstate rfl hresponse, Nat.le_refl 0, fun _ h => absurd rfl h⟩
  | lost hfull hstate hnothing =>
      have hnone : coming = [] := hnothing
      subst hnone
      obtain ⟨hswitch, hzero⟩ := switch_idle hstate hcoming hreading
      rw [hswitch, List.drop_nil, hzero]
      exact ⟨Stage.lost hfull hstate rfl, Nat.le_refl 0, fun _ h => absurd rfl h⟩

/-! ## A whole run -/

theorem stage_step {line : Line} {got : List (Nat × List UInt8)}
    (h : Stage settings sender frame line got) (poll : Poll) (htime : line.InTime settings poll) :
    Stage settings sender frame (line.step settings poll)
        (got ++ returned (line.frame settings poll)) ∧
      left (line.step settings poll) ≤ left line ∧
      (line.Attends settings poll → left line ≠ 0 →
        left (line.step settings poll) < left line) := by
  cases hearly : line.port.tooEarly (line.call settings poll) with
  | true =>
      have hframe : line.frame settings poll = { port := line.port } := by
        rw [Line.frame, Port.receiveFrame, if_pos hearly]
      have hstep : line.step settings poll = line := by
        rw [Line.step, hframe, Port.readsMade, if_pos hearly, List.drop_zero]
      rw [hstep, hframe]
      refine ⟨?_, Nat.le_refl _, fun hattends => ?_⟩
      · rw [returned, if_pos rfl, List.append_nil]
        exact h
      · rw [Line.Attends, hearly] at hattends
        cases hattends.1
  | false =>
      have hlate : line.port.timedOut settings (line.call settings poll) = false := by
        rcases htime with hbefore | hlate
        · rw [hearly] at hbefore
          cases hbefore
        · exact hlate
      obtain ⟨port', hport⟩ : ∃ port' : Port,
          port' = { line.port with lastCallTime := poll.callNow } := ⟨_, rfl⟩
      have hstage : Stage settings sender frame ⟨port', line.coming⟩ got := by
        rw [hport]
        cases h with
        | waiting hstate hcoming => exact Stage.waiting hstate hcoming
        | receiving front rest hframe hstate hbuffer hcoming =>
            exact Stage.receiving front rest hframe hstate hbuffer hcoming
        | waitingEscape front rest value hframe hstate hbuffer hflag hcoming =>
            exact Stage.waitingEscape front rest value hframe hstate hbuffer hflag hcoming
        | done hroom hstate hbuffer hcoming => exact Stage.done hroom hstate hbuffer hcoming
        | delivered hroom hstate hcoming hresponse =>
            exact Stage.delivered hroom hstate hcoming hresponse
        | lost hfull hstate hcoming => exact Stage.lost hfull hstate hcoming
      have hswitch := stage_switch hmax hsmall hmin hlong hstage (line.call settings poll) rfl
        (List.take_append_drop poll.arrived line.coming).symm (reading_call line poll)
      have hframe : line.frame settings poll =
          port'.switch settings (line.call settings poll) := by
        rw [hport, Line.frame, Port.receiveFrame, if_neg (by rw [hearly]; exact Bool.false_ne_true)]
        exact if_neg fun hlate' => Bool.false_ne_true (hlate.symm.trans hlate')
      have hstep : line.step settings poll =
          ⟨(port'.switch settings (line.call settings poll)).port,
            line.coming.drop (port'.switchReads settings (line.call settings poll))⟩ := by
        rw [Line.step, hframe, Port.readsMade, if_neg (by rw [hearly]; exact Bool.false_ne_true),
          if_neg (by rw [hlate]; exact Bool.false_ne_true), hport]
        rfl
      have hleft : left ⟨port', line.coming⟩ = left line := by rw [hport]; rfl
      rw [hstep, hframe, ← hleft]
      obtain ⟨hnext, hle, hlt⟩ := hswitch
      refine ⟨hnext, hle, fun hattends hsome => hlt ?_ hsome⟩
      rcases hattends.2 with hnone | harrived
      · exact Or.inl hnone
      · by_cases hnone : line.coming = []
        · exact Or.inl hnone
        · apply Or.inr
          intro hempty
          rw [List.take_eq_nil_iff] at hempty
          rcases hempty with hzero | hempty
          · omega
          · exact hnone hempty

/-- A receiver that is called often enough gets to the end. -/
theorem stage_run (polls : List Poll) {line : Line} {got : List (Nat × List UInt8)}
    (h : Stage settings sender frame line got)
    (htime : ∀ step ∈ Run.steps (Line.step settings) line polls,
      step.1.InTime settings step.2) :
    Stage settings sender frame (Run.final (Line.step settings) line polls)
        (got ++ Line.received settings (Run.steps (Line.step settings) line polls)) ∧
      left (Run.final (Line.step settings) line polls) ≤
        left line - (Run.steps (Line.step settings) line polls).countP fun step =>
          decide (step.1.Attends settings step.2) := by
  induction polls generalizing line got with
  | nil =>
      rw [Run.steps_nil, Run.final_nil, Line.received, List.filterMap_nil, List.append_nil]
      exact ⟨h, Nat.le_refl _⟩
  | cons poll polls ih =>
      rw [Run.steps_cons, List.forall_mem_cons] at htime
      obtain ⟨hnext, hle, hlt⟩ := stage_step hmax hsmall hmin hlong h poll htime.1
      obtain ⟨hstage, hleft⟩ := ih hnext htime.2
      rw [Run.steps_cons, Run.final_cons, received_cons, ← List.append_assoc, List.countP_cons]
      refine ⟨hstage, ?_⟩
      by_cases hattends : line.Attends settings poll
      · rw [if_pos (decide_eq_true hattends)]
        rcases Nat.eq_zero_or_pos (left line) with hzero | hpos
        · omega
        · have hstep := hlt hattends (Nat.ne_of_gt hpos)
          omega
      · rw [if_neg (by rw [decide_eq_false hattends]; exact Bool.false_ne_true)]
        omega

end States

/-- A frame that is shorter than the buffer, and no shorter than a response, makes it over the line
exactly when it is shorter than the buffer by two bytes. -/
theorem framing_round_trip_iff (settings : Settings) (sender : Port) (frame : List UInt8)
    (line : Line) (polls : List Poll) (hstate : line.port.state = .waiting)
    (hcoming : line.coming = Port.written frame) (hmin : 5 ≤ frame.length)
    (hmax : frame.length < settings.packetMaxLength) (hsmall : settings.packetMaxLength < 65536)
    (hlong : settings.responseLength ≤ frame.length)
    (htime : ∀ step ∈ Run.steps (Line.step settings) line polls, step.1.InTime settings step.2)
    (hmany : (Port.written frame).length <
      (Run.steps (Line.step settings) line polls).countP fun step =>
        decide (step.1.Attends settings step.2)) :
    RoundTrips settings sender frame line polls ↔
      frame.length + 1 < settings.packetMaxLength := by
  have hbegin : Stage settings sender frame line [] := Stage.waiting hstate hcoming
  obtain ⟨hstage, hleft⟩ := stage_run hmax hsmall hmin hlong polls hbegin htime
  have hstart : left line ≤ line.coming.length + 1 := by
    rw [left]
    split_ifs <;> omega
  have hend : left (Run.final (Line.step settings) line polls) = 0 := by
    rw [hcoming] at hstart
    omega
  have hover : (Run.final (Line.step settings) line polls).coming = [] ∧
      (Run.final (Line.step settings) line polls).port.state = .waiting := by
    by_contra hnot
    rw [left, if_neg hnot] at hend
    omega
  rw [List.nil_append] at hstage
  rw [RoundTrips]
  generalize Line.received settings (Run.steps (Line.step settings) line polls) = got at *
  generalize Run.final (Line.step settings) line polls = last at *
  cases hstage with
  | waiting _ hwritten => rw [hover.1] at hwritten; cases hwritten
  | receiving _ _ _ hreceiving => rw [hover.2] at hreceiving; cases hreceiving
  | waitingEscape _ _ _ _ hescape => rw [hover.2] at hescape; cases hescape
  | done _ hdone => rw [hover.2] at hdone; cases hdone
  | delivered hroom _ _ hresponse => exact ⟨fun _ => hroom, fun _ => ⟨rfl, hresponse⟩⟩
  | lost hfull _ _ =>
      refine ⟨fun h => ?_, fun hroom => ?_⟩
      · cases h.1
      · omega

/-! ## Two frames -/

/-- A call in which everything that is on its way has arrived. -/
def pollAt (now : UInt32) : Poll :=
  { intervalNow := now, callNow := now, timeoutNow := now, readNow := fun _ => now, arrived := 100 }

def pollsFor (n : Nat) : List Poll := (List.range n).map fun k => pollAt (1000 * k.toUInt32 + 1000)

/-- Five bytes, two of them flags. -/
def fiveBytes : List UInt8 := [45, 187, 6, 234, 90]

theorem framing_round_trip_iff_fiveBytes :
    RoundTrips {} {} fiveBytes ⟨{}, Port.written fiveBytes⟩ (pollsFor 10) ↔
      fiveBytes.length + 1 < ({} : Settings).packetMaxLength :=
  framing_round_trip_iff {} {} fiveBytes ⟨{}, Port.written fiveBytes⟩ (pollsFor 10) rfl rfl
    (by decide) (by decide) (by decide) (by decide) (by decide +kernel) (by decide +kernel)

/-- The frame is as long as `compose_packet` allows. -/
theorem longest_frame_lost :
    (List.replicate 49 0).length < ({} : Settings).packetMaxLength ∧
      (∀ step ∈ Run.steps (Line.step {}) ⟨{}, Port.written (List.replicate 49 0)⟩ (pollsFor 60),
        step.1.InTime {} step.2) ∧
      Line.received {}
        (Run.steps (Line.step {}) ⟨{}, Port.written (List.replicate 49 0)⟩ (pollsFor 60)) = [] ∧
      ¬RoundTrips {} {} (List.replicate 49 0) ⟨{}, Port.written (List.replicate 49 0)⟩
        (pollsFor 60) := by
  have hlost : Line.received {}
      (Run.steps (Line.step {}) ⟨{}, Port.written (List.replicate 49 0)⟩ (pollsFor 60)) = [] := by
    decide +kernel
  refine ⟨by decide, by decide +kernel, hlost, fun h => ?_⟩
  rw [RoundTrips, hlost] at h
  cases h.1

end Pjon.Proofs.Framing
