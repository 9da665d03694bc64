import Pjon.Spec.Messages
import Pjon.Proofs.Layout
/-!
# A message that is too long for a packet

`compose_packet` returns the length of what it does not compose.  `receiver` keeps it as the
length of a pending packet, and `receive_frame` neither returns such a packet nor polls the
client for another one.
-/

namespace Pjon.Proofs.MQTTTranslate

open Pjon.Lib Pjon.Model Pjon.Model.MQTTTranslate Pjon.Model.Tools Pjon.Spec Pjon.Spec.Client
open Pjon.Proofs.Layout

variable {b : Build} {settings : Settings}

/-! ## The loop over the keys ends by itself -/

theorem le_skip (s : List UInt8) (length : Nat) (stop : UInt8 → Bool) (todo p : Nat) :
    p ≤ skip s length stop todo p := by
  induction todo generalizing p with
  | zero => exact Nat.le_refl p
  | succ todo ih =>
      rw [skip]
      split_ifs
      · exact Nat.le_of_succ_le (ih (p + 1))
      · exact Nat.le_refl p

/-- A key is found ahead of the pointer, and the pointer is left behind its quotation mark. -/
theorem findNextJsonKey_bounds {s : List UInt8} {length p : Nat}
    (h : (findNextJsonKey s length p).1 = true) :
    p < (findNextJsonKey s length p).2 ∧ (findNextJsonKey s length p).2 < length := by
  have hfirst := le_skip s length (fun c => c == 123 || c == 44) length p
  have hsecond := le_skip s length (fun c => c == 34) length
    (skip s length (fun c => c == 123 || c == 44) length p + 1)
  unfold findNextJsonKey at h ⊢
  simp only at h ⊢
  split_ifs at h ⊢ with hnone hlate
  exact ⟨by omega, by omega⟩

theorem le_findNextJsonValue (s : List UInt8) (length p : Nat) :
    p ≤ (findNextJsonValue s length p).2 := by
  have hfirst := le_skip s length (fun c => c == 58) length p
  have hsecond := le_skip s length (fun c => c != 32 && c != 9) length
    (skip s length (fun c => c == 58) length p + 1)
  unfold findNextJsonValue
  simp only
  split_ifs <;> simp only <;> omega

theorem le_valueOf (s key : List UInt8) (length p : Nat) : p ≤ (valueOf s key length p).2 := by
  rw [valueOf]
  split_ifs
  · exact le_findNextJsonValue s length p
  · exact Nat.le_refl p

/-- As many turns as there are bytes ahead of the pointer are enough. -/
theorem readFields_succ (s : List UInt8) (length todo p : Nat) (fields : Fields)
    (htodo : length ≤ p + todo) :
    readFields s length (todo + 1) p fields = readFields s length todo p fields := by
  induction todo generalizing p fields with
  | zero =>
      have hkey : (findNextJsonKey s length p).1 = false := by
        by_contra hfound
        have hbounds := findNextJsonKey_bounds (Bool.not_eq_false _ ▸ hfound)
        omega
      simp only [readFields, hkey, if_true]
  | succ todo ih =>
      by_cases hkey : (findNextJsonKey s length p).1 = false
      · simp only [readFields, hkey, if_true]
      · have hbounds := findNextJsonKey_bounds (Bool.not_eq_false _ ▸ hkey)
        have hto := le_valueOf s toKey length (findNextJsonKey s length p).2
        have hfrom := le_valueOf s fromKey length
          (valueOf s toKey length (findNextJsonKey s length p).2).2
        have hdata := le_valueOf s dataKey length (valueOf s fromKey length
          (valueOf s toKey length (findNextJsonKey s length p).2).2).2
        rw [readFields, readFields]
        simp only [if_neg hkey]
        rw [ih _ _ (by omega), ih _ _ (by omega), ih _ _ (by omega)]

theorem readFields_of_le (s : List UInt8) (length extra : Nat) (fields : Fields) :
    readFields s length (length + extra) 0 fields = readFields s length length 0 fields := by
  induction extra with
  | zero => rfl
  | succ extra ih => rw [← Nat.add_assoc, readFields_succ s length _ 0 fields (by omega), ih]

/-- The text `{"to":44,"from":"45","data":"A"}`. -/
example : readFields [123, 34, 116, 111, 34, 58, 52, 52, 44, 34, 102, 114, 111, 109, 34, 58, 34,
    52, 53, 34, 44, 34, 100, 97, 116, 97, 34, 58, 34, 65, 34, 125] 32 32 0 { length := 32 } =
      { senderId := 45, receiverId := 44, found := true, payload := 29, length := 1 } := by
  decide +kernel

/-! ## What the receiver leaves -/

section Receiver

variable {strategy : Strategy} {message : Message}

theorem receiver_of_none (h : request settings strategy message = none) :
    strategy.receiver b settings message = strategy := by
  rw [Strategy.receiver, h]

theorem receiver_of_some {wanted : Request} (h : request settings strategy message = some wanted) :
    strategy.receiver b settings message =
      { strategy with
        header := wanted.header
        packetBuffer := strategy.packetBuffer.apply
          (composePacket b wanted.info strategy.packetBuffer wanted.payload).2
        incomingPacketSize :=
          (composePacket b wanted.info strategy.packetBuffer wanted.payload).1 } := by
  rw [Strategy.receiver, h]

theorem receiver_size (strategy : Strategy) (message : Message) :
    (strategy.receiver b settings message).incomingPacketSize =
      match request settings strategy message with
      | none => strategy.incomingPacketSize
      | some wanted => (measure b wanted.info wanted.payload.length).newLength := by
  cases hrequest : request settings strategy message with
  | none => rw [receiver_of_none hrequest]
  | some wanted => rw [receiver_of_some hrequest, composePacket_fst]

/-- The last message that is not ignored settles what is pending. -/
theorem foldl_receiver_size (strategy : Strategy) (messages : List Message) :
    (messages.foldl (Strategy.receiver b settings) strategy).incomingPacketSize =
      match lastRequest b settings strategy messages with
      | none => strategy.incomingPacketSize
      | some wanted => (measure b wanted.info wanted.payload.length).newLength := by
  induction messages generalizing strategy with
  | nil => rfl
  | cons message messages ih =>
      rw [List.foldl_cons, ih, lastRequest]
      cases lastRequest b settings (strategy.receiver b settings message) messages with
      | some wanted => rfl
      | none => exact receiver_size strategy message

theorem foldl_receiver_of_ignored (strategy : Strategy) {messages : List Message}
    (h : ∀ message ∈ messages, Ignored settings message) :
    messages.foldl (Strategy.receiver b settings) strategy = strategy := by
  induction messages with
  | nil => rfl
  | cons message messages ih =>
      rw [List.forall_mem_cons] at h
      rw [List.foldl_cons, receiver_of_none (h.1 strategy), ih h.2]

end Receiver

/-! ## Runs -/

/-- What is not too long is returned in the call in which it comes. -/
theorem polls_step {client : Client} {event : ClientEvent}
    (hsize : client.strategy.incomingPacketSize = 0) (hsmall : b.packetMaxLength < 65536)
    (h : client.Digests b settings event) :
    (client.step b settings event).strategy.incomingPacketSize = 0 := by
  cases event with
  | arrive message => exact hsize
  | receiveFrame handed =>
      have hshort : ((client.inbox.take handed).foldl (Strategy.receiver b settings)
          client.strategy).incomingPacketSize ≤ b.packetMaxLength := by
        rw [foldl_receiver_size]
        cases hlast : lastRequest b settings client.strategy (client.inbox.take handed) with
        | none => exact hsize.le.trans (Nat.zero_le _)
        | some wanted =>
            have hfits := h wanted hlast
            simp only
            rw [measure_newLength, totalLength_of_lt (by omega)]
            exact hfits
      simp only [Client.step, Client.receiveFrame, Strategy.receiveFrame, if_pos hsize]
      split_ifs with hpending
      · rfl
      · simp only
        omega

theorem arrive_run (client : Client) (messages : List Message) :
    Run.final (step b settings) client (messages.map ClientEvent.arrive) =
      { client with inbox := client.inbox ++ messages } := by
  induction messages generalizing client with
  | nil => rw [List.map_nil, Run.final_nil, List.append_nil]
  | cons message messages ih =>
      rw [List.map_cons, Run.final_cons, ih]
      simp only [Client.step, List.append_assoc, List.singleton_append]

theorem returns_of_polls {client : Client} (hsize : client.strategy.incomingPacketSize = 0)
    (hsmall : b.packetMaxLength < 65536) : client.Attentive b settings where
  polls := hsize
  returns := by
    rintro message info payload others handed hinbox ⟨hencodes, hfits⟩ hhanded hignored
    obtain ⟨wanted, hrequest, hwanted⟩ := Option.map_eq_some_iff.mp hencodes
    obtain ⟨rfl, rfl⟩ := Prod.mk.inj hwanted
    obtain ⟨more, rfl⟩ := Nat.exists_eq_add_of_le' hhanded
    have hlater : ∀ other ∈ others.take more, Ignored settings other := hignored
    have hover := packetOverhead_ge (measure b wanted.info wanted.payload.length).header
    have hcomposed : (composePacket b wanted.info client.strategy.packetBuffer
        wanted.payload).1 = wanted.payload.length +
          packetOverhead (measure b wanted.info wanted.payload.length).header := by
      rw [composePacket_fst, measure_newLength, totalLength_of_lt (by omega)]
    refine ⟨_, ?_, client.strategy.packetBuffer, rfl⟩
    rw [arrive_run, hinbox, List.nil_append, Client.receiveFrame, Strategy.receiveFrame]
    simp only [if_pos hsize]
    rw [List.take_succ_cons, List.foldl_cons, foldl_receiver_of_ignored _ hlater,
      receiver_of_some hrequest]
    simp only
    rw [if_pos ⟨by omega, by omega⟩]

/-- Where no message is left that is too long for a packet, the strategy goes on polling the
client and returns what the next message encodes. -/
theorem reception_attentive (b : Build) (settings : Settings)
    (hsmall : b.packetMaxLength < 65536) (client : Client)
    (hstart : client.strategy.incomingPacketSize = 0) (run : List ClientEvent)
    (hall : ∀ taken ∈ Run.steps (step b settings) client run, taken.1.Digests b settings taken.2) :
    (Run.final (step b settings) client run).Attentive b settings := by
  have hnext : ∀ (client : Client) (event : ClientEvent), client.strategy.incomingPacketSize = 0 →
      client.Digests b settings event →
      (client.step b settings event).strategy.incomingPacketSize = 0 :=
    fun _ _ hsize hdigests => polls_step hsize hsmall hdigests
  exact returns_of_polls (Run.invariant_of_allowed hnext hstart run hall) hsmall

/-! ## What is too long -/

/-- Nothing is returned and nothing is handed over any more. -/
theorem receiveFrame_of_long {client : Client} (handed : Nat)
    (h : b.packetMaxLength < client.strategy.incomingPacketSize) :
    client.receiveFrame b settings handed = (none, client.strategy) := by
  have hpending : ¬client.strategy.incomingPacketSize = 0 := by omega
  have hlong : ¬(0 < client.strategy.incomingPacketSize ∧
      client.strategy.incomingPacketSize ≤ b.packetMaxLength) := by omega
  simp only [Client.receiveFrame, Strategy.receiveFrame, if_neg hpending, if_neg hlong]

theorem long_run {client : Client} (h : b.packetMaxLength < client.strategy.incomingPacketSize)
    (run : List ClientEvent) (handed : Nat) :
    ∀ taken ∈ Run.steps (step b settings) client run,
      (taken.1.receiveFrame b settings handed).1 = none := by
  have hnext : ∀ (client : Client) (event : ClientEvent),
      b.packetMaxLength < client.strategy.incomingPacketSize →
      b.packetMaxLength < (client.step b settings event).strategy.incomingPacketSize := by
    intro client event hlong
    cases event with
    | arrive message => exact hlong
    | receiveFrame handed =>
        rw [Client.step, receiveFrame_of_long handed hlong]
        exact hlong
  intro taken htaken
  have hlong := (Run.invariant (step b settings) _ hnext h run).1 taken htaken
  rw [receiveFrame_of_long handed hlong]

/-! ## Two messages -/

def direct : Settings := { mode := .mirrorDirect }

/-- A message that comes on the topic `pjon/device44/input`. -/
def messageOf (payload : Payload) : Message where
  topic := [112, 106, 111, 110, 47, 100, 101, 118, 105, 99, 101, 52, 52, 47, 105, 110, 112, 117,
    116]
  payload := payload

theorem reception_attentive_short :
    (Run.final (step defaultBuild direct) {}
      [.arrive (messageOf (.single 65)), .receiveFrame 1]).Attentive defaultBuild direct :=
  reception_attentive defaultBuild direct (by decide) {} rfl
    [.arrive (messageOf (.single 65)), .receiveFrame 1] (by
      intro taken htaken
      simp only [Run.steps_cons, Run.steps_nil, List.mem_cons, List.not_mem_nil, or_false]
        at htaken
      rcases htaken with rfl | rfl
      · trivial
      · rintro wanted hwanted
        cases hwanted
        decide)

theorem longBytes_lt : (List.replicate 60 (65 : UInt8)).length < 65536 := by
  rw [List.length_replicate]
  decide

/-- The client has handed over a message of 60 bytes. -/
def behindLong : Client :=
  Run.final (step defaultBuild direct) {}
    [.arrive (messageOf ⟨List.replicate 60 65, longBytes_lt⟩), .receiveFrame 1]

/-- No message that comes behind it is ever returned. -/
theorem longMessage_wedges :
    behindLong.inbox = [] ∧
      Encodes defaultBuild direct behindLong.strategy (messageOf (.single 65))
        (fillInfo 44 (Vector.replicate 4 0) 44 (Vector.replicate 4 0) 0) (.single 65) ∧
      (∀ run handed, ∀ taken ∈ Run.steps (step defaultBuild direct) behindLong run,
        (taken.1.receiveFrame defaultBuild direct handed).1 = none) ∧
      ¬behindLong.Attentive defaultBuild direct := by
  have hlong : defaultBuild.packetMaxLength < behindLong.strategy.incomingPacketSize := by
    decide +kernel
  refine ⟨by decide +kernel, ⟨by rfl, by decide⟩, fun run handed => long_run hlong run handed, ?_⟩
  intro hattentive
  have hpolls := hattentive.polls
  omega

end Pjon.Proofs.MQTTTranslate
