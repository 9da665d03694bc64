import Pjon.Spec.RadioNetwork
import Pjon.Proofs.Frames
import Pjon.Proofs.Deliver
/-!
# What an acknowledgement over the radio is worth

A response is the end of the frame that it answers, and a frame is longer than a response.  So a
station that is acknowledged has the end of a frame that some station has received.
-/

namespace Pjon.Proofs.ThroughLora

open Pjon.Lib Pjon.Model Pjon.Model.ThroughLora Pjon.Spec
open Pjon.Proofs.Deliver

/-! ## Responses -/

theorem frameSize_of_short {frame : List UInt8} (h : frame.length < 256) :
    frameSize (some frame) = frame.length := Nat.mod_eq_of_lt h

theorem length_ending {frame : List UInt8} (h : 5 < frame.length) : (ending frame).length = 5 := by
  rw [ending, List.length_drop, responseLength]
  omega

/-- What is prepared is the end of the buffer. -/
theorem prepareResponse_load {buffer : Memory} {length : Nat} (h : 5 < length) :
    prepareResponse buffer length = ending (buffer.load 0 length) := by
  obtain ⟨front, rfl⟩ : ∃ front, length = front + responseLength :=
    ⟨length - responseLength, (Nat.sub_add_cancel (Nat.le_of_lt h)).symm⟩
  have hdrop : (buffer.load 0 front).drop front = [] :=
    List.drop_eq_nil_of_le (Memory.length_load buffer 0 front).le
  rw [ending, Memory.length_load, prepareResponse, Nat.add_sub_cancel, Memory.load_append,
    List.drop_append, hdrop, Memory.length_load, Nat.sub_self, List.nil_append, List.drop_zero,
    Nat.zero_add]

/-- A frame that is neither too short nor too long is received, and the response is its end. -/
theorem receiveFrame_of_fits {frame : List UInt8} (response : List UInt8) {maxLength : Nat}
    (hlong : 5 < frame.length) (hshort : frame.length < 256) (hfits : frame.length ≤ maxLength) :
    receiveFrame response (some frame) maxLength = (frame, ending frame) := by
  have hlength := frameSize_of_short hshort
  have hload : Memory.load (fun k => frame.getD (frame.length - frame.length + k) 0) 0
      frame.length = frame := by
    rw [Memory.load_eq_iff]
    intro i _
    simp only [Nat.sub_self, Nat.zero_add]
  rw [receiveFrame, hlength, if_pos ⟨hlong, hfits⟩]
  simp only [Option.getD_some]
  rw [prepareResponse_load hlong, hload]

/-- What a station receives is a frame that its radio had. -/
theorem receiveFrame_cases (response : List UInt8) (arrival : Option (List UInt8))
    (maxLength : Nat) (hshort : ∀ frame ∈ arrival, frame.length < 256) :
    (receiveFrame response arrival maxLength).1 = [] ∨
      ∃ frame, arrival = some frame ∧ 5 < frame.length ∧
        receiveFrame response arrival maxLength = (frame, ending frame) := by
  by_cases hsize : 5 < frameSize arrival ∧ frameSize arrival ≤ maxLength
  case neg => exact Or.inl (congrArg Prod.fst (if_neg hsize))
  cases arrival with
  | none => exact absurd hsize.1 (by decide)
  | some frame =>
      have hlength := frameSize_of_short (hshort frame rfl)
      rw [hlength] at hsize
      exact Or.inr ⟨frame, rfl, hsize.1,
        receiveFrame_of_fits response hsize.1 (hshort frame rfl) hsize.2⟩

/-- The response of a station that is acknowledged is on the channel. -/
theorem receiveResponse_ack {response : List UInt8} {turns : List (Option (List UInt8))}
    (hresponse : response ≠ []) (h : receiveResponse response turns = ack) :
    some response ∈ turns := by
  induction turns with
  | nil =>
      have hfail : fail ≠ ack := by decide
      exact absurd h hfail
  | cons arrival turns ih =>
      rw [receiveResponse] at h
      split_ifs at h with hsize hsame
      · cases arrival with
        | none => exact absurd hsame.symm hresponse
        | some packet => exact hsame ▸ List.mem_cons_self
      · exact absurd h (by decide)
      · exact List.mem_cons_of_mem _ (ih h)

/-- A frame that is transmitted leaves its end in `_response`. -/
theorem transmit_cases (halfDuplex : Bool) (response : List UInt8) (arrival : Option (List UInt8))
    (packet : Memory) {length : Nat} (hlong : 5 < length) (hshort : length < 256) :
    ThroughLora.transmit halfDuplex response arrival packet length =
        { result := some busy, response := response } ∨
      ∃ result, ThroughLora.transmit halfDuplex response arrival packet length =
        { result := result, response := ending (packet.load 0 length)
          sent := some (packet.load 0 length) } := by
  rw [ThroughLora.transmit, ThroughLora.sendFrame, Nat.mod_eq_of_lt hshort,
    prepareResponse_load hlong]
  by_cases hbusy : (halfDuplex && !canStart arrival) = true
  · exact Or.inl (if_pos hbusy)
  · exact Or.inr ⟨_, if_neg hbusy⟩

section Receive

variable {b : Build} {bus : Bus b} {response : List UInt8} {arrival : Option (List UInt8)}

theorem admissible_of_response (hmin : 4 ≤ b.packetMaxLength) (hmax : b.packetMaxLength < 65536)
    {delivery : Delivery} (h : Event.sendResponse ack ∈ (bus.receive delivery).events) :
    Admissible bus delivery.bytes ∧ ackDue bus delivery.bytes := by
  by_cases hadm : Admissible bus delivery.bytes
  · obtain ⟨info, -, hcaused⟩ := receive_caused bus delivery hmin hmax hadm
    exact ⟨hadm, (mem_events_response hcaused).mp h⟩
  · rw [events_of_not_admissible bus delivery hmin hmax hadm] at h
    exact absurd h List.not_mem_nil

/-- A response leaves for a frame that is admissible, and is its end. -/
theorem sent_receive (hmin : 4 ≤ b.packetMaxLength) (hmax : b.packetMaxLength < 65536)
    (hshort : ∀ frame ∈ arrival, frame.length < 256) {packet : List UInt8}
    (h : packet ∈ (ThroughLora.receive bus response arrival).sent) :
    ∃ frame, arrival = some frame ∧ 5 < frame.length ∧ Admissible bus frame ∧ ackDue bus frame ∧
      packet = ending frame := by
  obtain ⟨event, hevent, hsent⟩ := List.mem_filterMap.mp h
  cases event with
  | sendResponse code =>
      change ThroughLora.sendResponse _ code = some packet at hsent
      rw [ThroughLora.sendResponse] at hsent
      split_ifs at hsent with hcode
      rw [hcode] at hevent
      obtain rfl := Option.some.inj hsent
      rcases receiveFrame_cases response arrival (b.packetMaxLength % 65536) hshort with
        hnone | ⟨frame, harrival, hlong, hreceived⟩
      · have hlong := Frames.length_of_admissible (admissible_of_response hmin hmax hevent).1
        rw [hnone] at hlong
        exact absurd hlong (by decide)
      · rw [hreceived] at hevent ⊢
        obtain ⟨hadm, hdue⟩ := admissible_of_response hmin hmax hevent
        exact ⟨frame, harrival, hlong, hadm, hdue, rfl⟩
  | sendFrame frame => cases hsent
  | receiver payload info => cases hsent
  | error code data customPointer => cases hsent

end Receive

/-! ## Runs -/

section Run

variable {ι : Type} [DecidableEq ι] {builds : ι → Build}
  {history : List (RadioNetwork ι × RadioCall builds)} {x : RadioNetwork ι}

/-- What is on the channel, and what the waiting stations remember. -/
structure Traces (builds : ι → Build) (history : List (RadioNetwork ι × RadioCall builds))
    (x : RadioNetwork ι) : Prop where
  short : ∀ packet ∈ x.packets, packet.length < 256
  waiting : ∀ station packet length, x.waiting station = some (packet, length) →
    5 < length ∧ x.responses station = ending (packet.load 0 length)
  packets : ∀ packet ∈ x.packets, 5 < packet.length ∨ AnsweredEnding history packet

omit [DecidableEq ι] in
theorem traces_start : Traces builds [] ({} : RadioNetwork ι) where
  short := fun packet h => absurd h List.not_mem_nil
  waiting := fun station packet length h => by cases h
  packets := fun packet h => absurd h List.not_mem_nil

omit [DecidableEq ι] in
theorem answeredEnding_append {last : List UInt8} (h : AnsweredEnding history last)
    (later : List (RadioNetwork ι × RadioCall builds)) :
    AnsweredEnding (history ++ later) last := by
  obtain ⟨y, station, bus, frame, hmem, hrest⟩ := h
  exact ⟨y, station, bus, frame, List.mem_append_left _ hmem, hrest⟩

omit [DecidableEq ι] in
theorem Traces.earlier (h : Traces builds history x) (call : RadioCall builds)
    {packet : List UInt8} (hpacket : packet ∈ x.packets) :
    5 < packet.length ∨ AnsweredEnding (history ++ [(x, call)]) packet :=
  (h.packets packet hpacket).imp_right fun hanswered => answeredEnding_append hanswered _

/-- The stations that wait are not the one that makes the call. -/
theorem Traces.others (h : Traces builds history x) {caller : ι} {response : List UInt8}
    {waits : Option (Memory × Nat)}
    (hcaller : ∀ packet length, waits = some (packet, length) →
      5 < length ∧ response = ending (packet.load 0 length))
    (station : ι) (packet : Memory) (length : Nat)
    (hwaiting : Function.update x.waiting caller waits station = some (packet, length)) :
    5 < length ∧
      Function.update x.responses caller response station = ending (packet.load 0 length) := by
  by_cases hstation : station = caller
  · subst hstation
    rw [Function.update_self] at hwaiting ⊢
    exact hcaller packet length hwaiting
  · rw [Function.update_of_ne hstation] at hwaiting ⊢
    exact h.waiting station packet length hwaiting

theorem traces_transmit (h : Traces builds history x) {station : ι} {halfDuplex : Bool}
    {arrival : Option (List UInt8)} {packet : Memory} {length : Nat} (hlong : 5 < length)
    (hshort : length < 256) :
    Traces builds (history ++ [(x, .transmit station halfDuplex arrival packet length)])
      (x.step (.transmit station halfDuplex arrival packet length : RadioCall builds)) := by
  rcases transmit_cases halfDuplex (x.responses station) arrival packet hlong hshort with
    hbusy | ⟨result, hsent⟩
  · simp only [RadioNetwork.step, hbusy, Option.toList_none, List.append_nil]
    exact ⟨h.short, h.others fun packet' length' hwaiting => (by cases hwaiting),
      fun packet' hpacket => h.earlier _ hpacket⟩
  · simp only [RadioNetwork.step, hsent, Option.toList_some]
    refine ⟨?_, h.others fun packet' length' hwaiting => ?_, ?_⟩
    · rw [List.forall_mem_append, List.forall_mem_singleton, Memory.length_load]
      exact ⟨h.short, hshort⟩
    · split_ifs at hwaiting
      obtain ⟨rfl, rfl⟩ := Prod.mk.inj (Option.some.inj hwaiting)
      exact ⟨hlong, rfl⟩
    · rw [List.forall_mem_append, List.forall_mem_singleton, Memory.length_load]
      exact ⟨fun packet' hpacket => h.earlier _ hpacket, Or.inl hlong⟩

theorem traces_receive (hbuilds : ∀ i, 4 ≤ (builds i).packetMaxLength ∧
      (builds i).packetMaxLength < 65536) (h : Traces builds history x) {station : ι}
    {bus : Bus (builds station)} {arrival : Option (List UInt8)}
    (hfree : x.waiting station = none) (harrival : ∀ packet ∈ arrival, packet ∈ x.packets) :
    Traces builds (history ++ [(x, .receive station bus arrival)])
      (x.step (.receive station bus arrival : RadioCall builds)) := by
  have hsent : ∀ packet ∈ (ThroughLora.receive bus (x.responses station) arrival).sent,
      packet.length = 5 ∧ AnsweredEnding (history ++ [(x, .receive station bus arrival)]) packet := by
    intro packet hpacket
    obtain ⟨frame, hframe, hlong, hadm, hdue, rfl⟩ :=
      sent_receive (hbuilds station).1 (hbuilds station).2
        (fun frame hframe => h.short frame (harrival frame hframe)) hpacket
    refine ⟨length_ending hlong, x, station, bus, frame, ?_, harrival frame hframe, hlong, rfl, hadm,
      hdue⟩
    rw [← hframe]
    exact List.mem_append_right _ (List.mem_singleton_self _)
  refine ⟨fun packet hpacket => ?_, fun other packet length hwaiting => ?_, fun packet hpacket => ?_⟩
  · rcases List.mem_append.mp hpacket with hbefore | hnew
    · exact h.short packet hbefore
    · rw [(hsent packet hnew).1]
      decide
  · have hother : other ≠ station := by
      rintro rfl
      exact Option.some_ne_none _ (hwaiting.symm.trans hfree)
    have hsame : (x.step (.receive station bus arrival : RadioCall builds)).responses other =
        x.responses other := Function.update_of_ne hother _ _
    rw [hsame]
    exact h.waiting other packet length hwaiting
  · rcases List.mem_append.mp hpacket with hbefore | hnew
    · exact h.earlier _ hbefore
    · exact Or.inr (hsent packet hnew).2

theorem traces_step (hbuilds : ∀ i, 4 ≤ (builds i).packetMaxLength ∧
      (builds i).packetMaxLength < 65536) (h : Traces builds history x) (call : RadioCall builds)
    (hallowed : x.Allowed call) : Traces builds (history ++ [(x, call)]) (x.step call) := by
  cases call with
  | transmit station halfDuplex arrival packet length =>
      exact traces_transmit h hallowed.2.1 hallowed.2.2.1
  | await station turns =>
      refine ⟨h.short, fun other packet length hwaiting => ?_,
        fun packet hpacket => h.earlier _ hpacket⟩
      have hother : other ≠ station := by
        rintro rfl
        have hnone : Function.update x.waiting other none other = none := Function.update_self ..
        exact Option.some_ne_none _ (hwaiting.symm.trans hnone)
      exact h.waiting other packet length ((Function.update_of_ne hother _ _).symm.trans hwaiting)
  | receive station bus arrival => exact traces_receive hbuilds h hallowed.1 hallowed.2

theorem traces_run (hbuilds : ∀ i, 4 ≤ (builds i).packetMaxLength ∧
      (builds i).packetMaxLength < 65536) (calls : List (RadioCall builds))
    (hallowed : ∀ v ∈ Run.steps RadioNetwork.step ({} : RadioNetwork ι) calls, v.1.Allowed v.2) :
    Traces builds (Run.steps RadioNetwork.step {} calls)
      (Run.final RadioNetwork.step {} calls) := by
  induction calls using List.reverseRecOn with
  | nil => exact traces_start
  | append_singleton calls call ih =>
      rw [Run.steps_append, List.forall_mem_append, Run.steps_cons, Run.steps_nil,
        List.forall_mem_singleton] at hallowed
      rw [Run.steps_append, Run.final_append]
      exact traces_step hbuilds (ih hallowed.1) call hallowed.2

/-- What is acknowledged ends as a frame that has been received, by a station that it is for. -/
theorem confirmed_answeredEnding (hbuilds : ∀ i, 4 ≤ (builds i).packetMaxLength ∧
      (builds i).packetMaxLength < 65536) (calls : List (RadioCall builds))
    (hallowed : ∀ v ∈ Run.steps RadioNetwork.step ({} : RadioNetwork ι) calls, v.1.Allowed v.2)
    (station : ι) (turns : List (Option (List UInt8))) (packet : Memory) (length : Nat)
    (hconfirms : (Run.final RadioNetwork.step ({} : RadioNetwork ι) calls).Confirms builds station
      turns packet length) :
    AnsweredEnding (Run.steps RadioNetwork.step ({} : RadioNetwork ι) calls)
      (ending (packet.load 0 length)) := by
  obtain ⟨⟨-, hturns⟩, hwaiting, hack⟩ := hconfirms
  have htraces := traces_run hbuilds calls hallowed
  obtain ⟨hlong, hprepared⟩ := htraces.waiting station packet length hwaiting
  have hlength : (ending (packet.load 0 length)).length = 5 :=
    length_ending (by rw [Memory.length_load]; exact hlong)
  have hresponse : receiveResponse ((Run.final RadioNetwork.step ({} : RadioNetwork ι)
      calls).responses station) turns = ack := by
    have hfail : fail ≠ ack := by decide
    rw [awaitResponse] at hack
    by_contra hnot
    rw [if_neg hnot] at hack
    exact hfail hack
  rw [hprepared] at hresponse
  have hsome : ending (packet.load 0 length) ≠ [] := fun hnil => by
    rw [hnil] at hlength
    exact absurd hlength (by decide)
  have hpacket := hturns _ (receiveResponse_ack hsome hresponse) _ rfl
  exact (htraces.packets _ hpacket).resolve_left (by omega)

end Run

/-! ## A letter -/

/-- From the device with the id 44 to the one with the id 45. -/
def letter : List UInt8 := [45, 6, 7, 1, 44, 65, 229]

/-- The first time it is lost, the second time it is answered. -/
def letterCalls : List (RadioCall (fun _ : Bool => defaultBuild)) :=
  [.transmit false true none (byte letter) 7, .await false [none],
    .receive true { tx := { id := 45 } } none, .transmit false true none (byte letter) 7,
    .receive true { tx := { id := 45 } } (some letter)]

theorem allowed_letterCalls : ∀ v ∈ Run.steps RadioNetwork.step ({} : RadioNetwork Bool) letterCalls,
    v.1.Allowed v.2 := by
  simp only [letterCalls, Run.steps_cons, Run.steps_nil, List.forall_mem_cons]
  refine ⟨⟨rfl, by decide, by decide, nofun⟩, ⟨?_, ?_⟩, ⟨rfl, nofun⟩,
    ⟨rfl, by decide, by decide, nofun⟩, ⟨rfl, ?_⟩, nofun⟩
  · exact Option.some_ne_none (byte letter, 7)
  · intro arrival harrival packet hpacket
    obtain rfl := List.mem_singleton.mp harrival
    cases hpacket
  · intro packet hpacket
    obtain rfl := Option.some.inj hpacket
    decide +kernel

theorem confirmed_answeredEnding_letter :
    AnsweredEnding (Run.steps RadioNetwork.step ({} : RadioNetwork Bool) letterCalls)
      [7, 1, 44, 65, 229] := by
  refine confirmed_answeredEnding (fun _ => by decide) letterCalls allowed_letterCalls false
    [none, some [7, 1, 44, 65, 229]] (byte letter) 7 ⟨⟨?_, ?_⟩, rfl, by decide +kernel⟩
  · exact Option.some_ne_none (byte letter, 7)
  · intro arrival harrival packet hpacket
    rcases List.mem_cons.mp harrival with rfl | hlater
    · cases hpacket
    · obtain rfl := List.mem_singleton.mp hlater
      obtain rfl := Option.some.inj hpacket
      decide +kernel

end Pjon.Proofs.ThroughLora
