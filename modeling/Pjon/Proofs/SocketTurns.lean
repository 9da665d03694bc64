import Pjon.Proofs.SingleSocket
/-!
# The turns of a single socket

One way in which two ends come to the end of a session is that each of them proceeds until it has
to wait for the other one.  As the order of their steps makes no difference, every way comes to
the same end.
-/

namespace Pjon.Proofs.SingleSocket

open Pjon.Lib Pjon.Lib.Interleaving Pjon.Model Pjon.Model.EthernetTCP Pjon.Spec

variable {settings : Settings} {remote : UInt8} {side : Side}

open Connection

variable {f : Bool → Talk Unit} {far : End UInt8 LinkEvent Unit}
  {nearStream farStream : List UInt8} {events : List LinkEvent}

/-- A part that goes its way without a loss. -/
def Plays {γ : Type} (p : Talk γ) (result : γ) (events made : List LinkEvent)
    (incoming outgoing : List UInt8) : Prop :=
  ∀ (rest left : List UInt8) (Q : γ → List LinkEvent → List UInt8 → List UInt8 → Prop),
    Q result made rest left →
      p.Follows (fun _ _ _ => True) (fun _ => []) Q events (incoming ++ rest) (outgoing ++ left)

theorem leads_of_plays {γ : Type} {p : Talk γ} {f : γ → Talk Unit} {result : γ}
    {made : List LinkEvent} {incoming outgoing : List UInt8}
    (h : Plays p result events made incoming outgoing) :
    Leads (between side { process := p.bind f, events := events } far (incoming ++ nearStream)
        farStream)
      (between side { process := f result, events := made } far nearStream
        (farStream ++ outgoing)) := by
  have hfollows := h [] []
    (fun a made' toRead toWrite => a = result ∧ made' = made ∧ toRead = [] ∧ toWrite = [])
    ⟨rfl, rfl, rfl, rfl⟩
  rw [List.append_nil, List.append_nil] at hfollows
  exact leads_of_follows hfollows

theorem leads_of_reads {γ : Type} {p : Talk γ} {f : γ → Talk Unit} {result : γ}
    {made : List LinkEvent} {incoming : List UInt8} (h : Plays p result events made incoming []) :
    Leads (between side { process := p.bind f, events := events } far (incoming ++ nearStream)
        farStream)
      (between side { process := f result, events := made } far nearStream farStream) :=
  (leads_of_plays h).trans (by rw [List.append_nil]; exact Leads.refl _)

theorem leads_of_writes {γ : Type} {p : Talk γ} {f : γ → Talk Unit} {result : γ}
    {made : List LinkEvent} {outgoing : List UInt8} (h : Plays p result events made [] outgoing) :
    Leads (between side { process := p.bind f, events := events } far nearStream farStream)
      (between side { process := f result, events := made } far nearStream
        (farStream ++ outgoing)) :=
  leads_of_plays h

theorem throughout_true (events lost : List LinkEvent) (incoming outgoing : List UInt8) :
    Throughout (fun _ _ _ => True) events lost incoming outgoing :=
  ⟨fun _ _ => trivial, fun _ _ => trivial⟩

theorem writeItems_plays (items : List UInt8) :
    Plays (Process.writeItems items) true events events [] items := fun _ _ _ hQ =>
  writeItems_follows items rfl (throughout_true _ _ _ _) hQ

theorem writeAll_plays (writes : List (List UInt8)) :
    Plays (Talk.writeAll writes) true events events [] writes.flatten := fun _ _ _ hQ =>
  writeAll_follows writes rfl (throughout_true _ _ _ _) hQ

theorem readUntilHeader_plays (header : UInt32) :
    Plays (Talk.readUntilHeader header) true events events (Word.bytes (Word.swap header)) [] :=
  fun _ _ _ hQ => readUntilHeader_follows header rfl (throughout_true _ _ _ _) hQ

theorem readWord_plays (word : UInt32) :
    Plays (Talk.readWord word) true events events (Word.bytes (Word.swap word)) [] :=
  fun _ _ _ hQ => readWord_follows word rfl (throughout_true _ _ _ _) hQ

theorem readNumPackets_plays (number : UInt8) :
    Plays (Talk.readNumPackets true) (true, number) events events [number] [] :=
  fun _ _ _ hQ => readNumPackets_follows number rfl (throughout_true _ _ _ _) hQ

theorem receivePackets_plays {call : TransferCall} (hcall : Admissible settings call) :
    Plays (Talk.receivePackets settings call.numPackets.toNat) true events
      (events ++ callbackOf call) (frameOf call) (ackOf call) := fun _ _ _ hQ =>
  receivePackets_follows hcall rfl rfl (throughout_true _ _ _ _) (throughout_true _ _ _ _) hQ

theorem connect_plays (connected : Bool) :
    Plays (Talk.establish true connected) true events events [] (greeting .left connected) := by
  rw [← greeting_right connected]
  exact fun _ _ _ hQ => establish_follows .left connected rfl (throughout_true _ _ _ _) hQ

theorem accept_plays (connected : Bool) :
    Plays (Talk.establish false connected) true events events (greeting .left connected) [] := by
  rw [← greeting_right connected]
  exact fun _ _ _ hQ => establish_follows .right connected rfl (throughout_true _ _ _ _) hQ

/-- What is left of `sendPackets` when the packet has been written. -/
def awaitAck (call : TransferCall) : Talk Bool := do
  if 0 < call.numPackets then
    let code ← Process.readItems 2
    return (if code = [0, 6] then ack else fail) == ack
  else return true

theorem leads_sendPackets (call : TransferCall) :
    Leads (between side { process := (Talk.sendPackets settings call).bind f, events := events }
        far nearStream farStream)
      (between side { process := (awaitAck call).bind f, events := events } far nearStream
        (farStream ++ frameOf call)) := by
  unfold Talk.sendPackets awaitAck frameOf
  by_cases hlength : 0 < call.length
  · simp only [if_pos hlength, if_pos (numPackets_pos.mpr hlength), Talk.send, Process.bind_eq,
      Process.bind_assoc, frame_eq settings call]
    exact leads_of_writes (writeAll_plays _)
  · simp only [if_neg hlength, if_neg (mt numPackets_pos.mp hlength), List.append_nil]
    exact Leads.refl _

theorem leads_awaitAck (call : TransferCall) :
    Leads (between side { process := (awaitAck call).bind f, events := events } far
        (ackOf call ++ nearStream) farStream)
      (between side { process := f true, events := events } far nearStream farStream) := by
  unfold awaitAck ackOf
  by_cases hlength : 0 < call.length
  · rw [if_pos hlength, if_pos (numPackets_pos.mpr hlength)]
    exact leads_read side far nearStream farStream events _ [0, 6]
  · rw [if_neg hlength, if_neg (mt numPackets_pos.mp hlength)]
    exact Leads.refl _

/-- A call returns, and the next ones are made. -/
def returning (settings : Settings) (side : Side) (call : TransferCall) (calls : List TransferCall)
    (transfer : Bool × UInt8) : Talk Unit := do
  Process.callEvent (.returned (if call.contents.isNone && transfer.2 == 0 then fail
    else if transfer.1 then ack else fail))
  if transfer.1 then Talk.session settings (side == .left) true calls else return ()

/-- What is left of a call of the initiator when its packet has been written. -/
def masterRest (settings : Settings) (call : TransferCall) (calls : List TransferCall)
    (ok : Bool) : Talk Unit := do
  let incoming ← Talk.readNumPackets ok
  let ok ← Talk.andThen incoming.1 (Talk.receivePackets settings incoming.2.toNat)
  let ok ← Talk.andThen ok (Talk.writeWord singleSocketFooter)
  returning settings .left call calls (ok, incoming.2)

def slaveRest (settings : Settings) (call : TransferCall) (calls : List TransferCall)
    (number : UInt8) (ok : Bool) : Talk Unit := do
  let ok ← Talk.andThen ok (Talk.readWord singleSocketFooter)
  returning settings .right call calls (ok, number)

variable {call other : TransferCall} {calls : List TransferCall}

/-- The turns of an exchange: what the initiator writes up to its packet, the whole of what the
other end writes, and what the initiator writes behind its packet. -/
theorem leads_masterFirst (connected : Bool) :
    Leads (between .left
        { process := Talk.session settings true connected (call :: calls), events := events } far
        [] [])
      (between .left
        { process := (awaitAck call).bind (masterRest settings call calls)
          events := events } far []
        (greeting .left connected ++ (Word.bytes (Word.swap singleSocketHeader) ++
          ([call.numPackets] ++ frameOf call)))) := by
  simp only [Talk.session, Talk.singleSocketTransfer, Talk.transfer, Talk.masterTransfer,
    Process.bind_eq, Process.bind_assoc, if_true]
  refine Leads.trans (leads_of_writes (connect_plays connected)) ?_
  simp only [if_true, Process.bind_assoc]
  refine Leads.trans (leads_of_writes (writeItems_plays _)) ?_
  refine (leads_sendPackets call).trans ?_
  simp only [List.append_assoc, List.nil_append]
  exact Leads.refl _

theorem leads_slaveTurn (hother : Admissible settings other) (connected : Bool) :
    Leads (between .right
        { process := Talk.session settings false connected (call :: calls), events := events } far
        (greeting .left connected ++ (Word.bytes (Word.swap singleSocketHeader) ++
          ([other.numPackets] ++ frameOf other))) [])
      (between .right
        { process := (awaitAck call).bind (slaveRest settings call calls other.numPackets)
          events := events ++ callbackOf other } far []
        (ackOf other ++ ([call.numPackets] ++ frameOf call))) := by
  simp only [Talk.session, Talk.singleSocketTransfer, Talk.transfer, Talk.slaveTransfer,
    Process.bind_eq, Process.bind_assoc]
  refine Leads.trans (leads_of_reads (accept_plays connected)) ?_
  simp only [if_true, Bool.false_eq_true, if_false, Process.bind_assoc]
  refine Leads.trans (leads_of_reads (readUntilHeader_plays _)) ?_
  refine Leads.trans (leads_of_reads (readNumPackets_plays other.numPackets)) ?_
  rw [← List.append_nil (frameOf other)]
  refine Leads.trans (leads_of_plays (receivePackets_plays hother)) ?_
  refine Leads.trans (leads_of_writes (writeItems_plays _)) ?_
  refine (leads_sendPackets call).trans ?_
  simp only [List.append_assoc, List.nil_append]
  exact Leads.refl _

theorem leads_masterSecond (hother : Admissible settings other) :
    Leads (between .left
        { process := (awaitAck call).bind (masterRest settings call calls), events := events } far
        (ackOf call ++ ([other.numPackets] ++ frameOf other)) [])
      (between .left
        { process := Talk.session settings true true calls
          events := events ++ callbackOf other ++ [.returned (resultOf call other)] } far []
        (ackOf other ++ Word.bytes (Word.swap singleSocketFooter))) := by
  refine (leads_awaitAck call).trans ?_
  refine Leads.trans (leads_of_reads (readNumPackets_plays other.numPackets)) ?_
  rw [← List.append_nil (frameOf other)]
  refine Leads.trans (leads_of_plays (receivePackets_plays hother)) ?_
  refine Leads.trans (leads_of_writes (writeItems_plays _)) ?_
  exact leads_call _ _ _ _ _ _ _

theorem leads_slaveEnd :
    Leads (between .right
        { process := (awaitAck call).bind (slaveRest settings call calls other.numPackets)
          events := events } far (ackOf call ++ Word.bytes (Word.swap singleSocketFooter)) [])
      (between .right
        { process := Talk.session settings false true calls
          events := events ++ [.returned (resultOf call other)] } far [] []) := by
  refine (leads_awaitAck call).trans ?_
  rw [← List.append_nil (Word.bytes (Word.swap singleSocketFooter))]
  refine Leads.trans (leads_of_reads (readWord_plays _)) ?_
  exact leads_call _ _ _ _ _ _ _

/-- Both ends between two exchanges, with what has happened so far. -/
def pausing (exchanges : List (PacketExchange settings remote)) (connected : Bool)
    (made : Side → List LinkEvent) : Connection UInt8 LinkEvent Unit :=
  { ends := fun side =>
      { process := Talk.session settings (side == .left) connected
          (exchanges.map fun exchange => exchange.calls side)
        events := made side }
    stream := fun _ => [] }

theorem leads_exchange (exchange : PacketExchange settings remote)
    (rest : List (PacketExchange settings remote)) (connected : Bool)
    (made : Side → List LinkEvent) :
    Leads (pausing (exchange :: rest) connected made)
      (pausing rest true fun side => made side ++ exchange.history side) := by
  have hadmissible : ∀ side, Admissible settings (exchange.calls side) := fun side =>
    ⟨exchange.fits side, exchange.short side⟩
  rw [eq_between .left (pausing (exchange :: rest) connected made),
    eq_between .left (pausing rest true _)]
  refine (leads_masterFirst connected).trans ?_
  rw [← between_other]
  refine (leads_slaveTurn (hadmissible .left) connected).trans ?_
  rw [← between_other .right]
  refine (leads_masterSecond (hadmissible .right)).trans ?_
  rw [← between_other .left]
  refine leads_slaveEnd.trans ?_
  rw [← between_other .right]
  simp only [pausing, history_eq, List.append_assoc]
  exact Leads.refl _

def finished (made : Side → List LinkEvent) : Connection UInt8 LinkEvent Unit :=
  { ends := fun side => { process := .done (), events := made side }, stream := fun _ => [] }

theorem leads_finished (exchanges : List (PacketExchange settings remote)) (connected : Bool)
    (made : Side → List LinkEvent) : Leads (pausing exchanges connected made)
      (finished fun side => made side ++ exchanges.flatMap (PacketExchange.history side)) := by
  induction exchanges generalizing connected made with
  | nil =>
      simp only [List.flatMap_nil, List.append_nil]
      exact Leads.refl _
  | cons exchange rest ih =>
      have hrest := ih true fun side => made side ++ exchange.history side
      simp only [List.append_assoc] at hrest
      exact (leads_exchange exchange rest connected made).trans hrest

/-- No interleaving of the two ends comes to a stop before all exchanges are made. -/
theorem session_completes (exchanges : List (PacketExchange settings remote)) :
    Completes exchanges := by
  obtain ⟨l, hend⟩ := leads_finished exchanges false fun _ => []
  have hfinal := final_of_done (c := finished fun side =>
    [] ++ exchanges.flatMap (PacketExchange.history side)) (fun _ => ()) fun _ => rfl
  refine ⟨l.length, fun steps c hruns => ⟨?_, fun hstuck side => ?_⟩⟩
  · obtain ⟨rest, -, hperm⟩ := completes commutes hend hfinal hruns
    rw [← hperm.length_eq, List.length_append]
    exact Nat.le_add_right _ _
  · rw [end_unique commutes hend hfinal hruns hstuck]
    exact ⟨rfl, rfl⟩

end Pjon.Proofs.SingleSocket
