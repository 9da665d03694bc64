import Pjon.Proofs.Publishing
/-!
# Responses for what has not been published

`last_send_success` is only set at the end of `send_frame`.  A call that returns early leaves the
outcome of an earlier one behind.
-/

namespace Pjon.Proofs.Responses

open Pjon.Lib Pjon.Model Pjon.Model.MQTTTranslate Pjon.Spec Pjon.Proofs.Publishing

variable {settings : Publishing} {publisher : Publisher} {frame : Frame} {sent : Sent}

theorem receiveResponse_eq_ack (publisher : Publisher) :
    publisher.receiveResponse = ack ↔ publisher.lastSendSuccess = true := by
  rw [Publisher.receiveResponse]
  cases publisher.lastSendSuccess with
  | false => exact iff_of_false (by decide) Bool.false_ne_true
  | true => exact iff_of_true rfl rfl

theorem honestResponse_of_some (h : publisher.sendFrame settings frame = some sent) :
    HonestResponse settings publisher frame ↔
      (sent.publisher.lastSendSuccess = true →
        ∃ published ∈ sent.published, published.2 = true) := by
  rw [HonestResponse, h]
  constructor
  · intro hall hlast
    exact hall sent rfl ((receiveResponse_eq_ack _).mpr hlast)
  · intro hhonest other hother hack
    obtain rfl := Option.some.inj hother
    exact hhonest ((receiveResponse_eq_ack _).mp hack)

/-- A frame that is published as a whole settles its own response. -/
theorem honestResponse_of_publish {topic payload : List UInt8} (before : Publisher)
    (h : publisher.sendFrame settings frame = some (before.publish frame topic payload)) :
    HonestResponse settings publisher frame :=
  (honestResponse_of_some h).mpr fun hlast => ⟨_, List.mem_singleton_self _, hlast⟩

/-- A call that has done nothing leaves the response as it was. -/
theorem honestResponse_of_nothing
    (h : publisher.sendFrame settings frame =
      some { published := [], publisher := publisher }) :
    HonestResponse settings publisher frame ↔ ¬publisher.lastSendSuccess = true := by
  rw [honestResponse_of_some h]
  constructor
  · intro hhonest hlast
    obtain ⟨published, hmem, -⟩ := hhonest hlast
    exact List.not_mem_nil hmem
  · intro hnot hlast
    exact absurd hlast hnot

theorem exists_of_counted {published : List (Publication × Bool)}
    (h : decide (0 < counted published) = true) :
    ∃ attempt ∈ published, attempt.2 = true := by
  refine List.countP_pos_iff.mp (Nat.pos_of_ne_zero fun hzero => ?_)
  rw [counted, hzero] at h
  exact absurd h (by decide)

theorem honestResponse_translate {topic : List UInt8}
    (htopic : settings.composeTopic publisher frame.data = some topic)
    (hmode : settings.mode = .mirrorTranslate) :
    HonestResponse settings publisher frame ↔
      ¬(publisher.lastSendSuccess = true ∧ LeftAtKey settings publisher frame topic) := by
  constructor
  · rintro hhonest ⟨hlast, before, item, after, hpieces, hturns, hbefore, hitem, hlong, hfailed⟩
    have hleft := sendFrame_translate htopic hmode
    rw [hpieces, publishPieces_left hbefore hitem hlong hturns, Option.map_some] at hleft
    obtain ⟨published, hmem, hsuccess⟩ := (honestResponse_of_some hleft).mp hhonest hlast
    have hnone := (forall_attempts_iff 0 before).mpr
      (fun j hj => by rw [Nat.zero_add]; exact hfailed j hj) published hmem
    rw [hsuccess] at hnone
    exact Bool.false_ne_true hnone.symm
  · intro hnot
    cases hsent : publisher.sendFrame settings frame with
    | none =>
        intro sent hsome
        rw [hsent] at hsome
        exact absurd hsome (Option.some_ne_none sent).symm
    | some sent =>
        apply (honestResponse_of_some hsent).mpr
        intro hlast
        rcases sendFrame_cases htopic hmode hsent with
          ⟨before, item, after, hpieces, hturns, hbefore, hitem, hlong, rfl⟩ |
            ⟨-, -, hsuccess⟩
        · by_contra hnone
          refine hnot ⟨hlast, before, item, after, hpieces, hturns, hbefore, hitem, hlong, ?_⟩
          have hfailed := (forall_attempts_iff 0 before).mp fun attempt hmem => by
            rw [← Bool.not_eq_true]
            exact fun hsuccess => hnone ⟨attempt, hmem, hsuccess⟩
          intro k hk
          have hk' := hfailed k hk
          rw [Nat.zero_add] at hk'
          exact hk'
        · rw [hsuccess] at hlast
          exact exists_of_counted hlast

theorem honestResponse_iff (settings : Publishing) (publisher : Publisher) (frame : Frame) :
    HonestResponse settings publisher frame ↔
      ¬(publisher.lastSendSuccess = true ∧ ReturnsEarly settings publisher frame) := by
  rw [ReturnsEarly]
  cases htopic : settings.composeTopic publisher frame.data with
  | none =>
      rw [honestResponse_of_nothing (sendFrame_of_none htopic)]
      exact not_congr (and_iff_left trivial).symm
  | some topic =>
      cases hmode : settings.mode with
      | mirrorTranslate => exact honestResponse_translate htopic hmode
      | busRaw =>
          have hsent : publisher.sendFrame settings frame =
              some (publisher.publish frame topic (frame.data.load 0 frame.length)) := by
            rw [Publisher.sendFrame, htopic]
            simp only [hmode]
          exact iff_of_true (honestResponse_of_publish publisher hsent) fun h => h.2
      | mirrorDirect =>
          have hsent : publisher.sendFrame settings frame =
              some (publisher.publish frame topic (framePayload frame)) := by
            rw [Publisher.sendFrame, htopic]
            simp only [hmode]
            rfl
          exact iff_of_true (honestResponse_of_publish publisher hsent) fun h => h.2
      | busJson =>
          by_cases hlong : settings.bufferSize ≤
              31 + Publishing.payloadLength frame.data frame.length % 256
          · have hsent : publisher.sendFrame settings frame =
                some { published := [], publisher := publisher } := by
              rw [Publisher.sendFrame, htopic]
              simp only [hmode]
              rw [if_pos (by omega)]
            rw [honestResponse_of_nothing hsent]
            exact not_congr (and_iff_left hlong).symm
          · have hsent : ∃ before payload, publisher.sendFrame settings frame =
                some (Publisher.publish before frame topic payload) := by
              rw [Publisher.sendFrame, htopic]
              simp only [hmode]
              rw [if_neg (by omega)]
              exact ⟨_, _, rfl⟩
            obtain ⟨before, payload, hsent⟩ := hsent
            exact iff_of_true (honestResponse_of_publish before hsent) fun h => hlong h.2

theorem responses_honest_iff (settings : Publishing) (publisher : Publisher)
    (events : List SendEvent) :
    (∀ taken ∈ Run.steps (sendStep settings) publisher events,
        HonestEvent settings taken.1 taken.2) ↔
      ∀ taken ∈ Run.steps (sendStep settings) publisher events,
        FreshEvent settings taken.1 taken.2 := by
  have hiff : ∀ (publisher : Publisher) (event : SendEvent), True →
      (HonestEvent settings publisher event ↔ FreshEvent settings publisher event) := by
    intro publisher event _
    cases event with
    | setTopic topic => exact Iff.rfl
    | sendFrame frame => exact honestResponse_iff settings publisher frame
  exact Run.forall_good_iff hiff (fun _ _ _ _ => trivial) trivial events

/-- A client in the JSON mode. -/
def talking : Publishing := { translating with mode := .busJson }

/-- The second frame does not fit in the buffer, and is acknowledged as the first one was. -/
theorem long_acknowledged :
    ¬∀ taken ∈ Run.steps (sendStep talking) {}
        [.sendFrame (frameWith [65]), .sendFrame (frameWith (List.replicate 30 65))],
      HonestEvent talking taken.1 taken.2 := by
  intro hall
  have hhonest := hall _ (List.mem_cons_of_mem _ List.mem_cons_self)
  have hlast : (sendStep talking {} (.sendFrame (frameWith [65]))).lastSendSuccess = true := by
    decide +kernel
  have htopic : talking.composeTopic (sendStep talking {} (.sendFrame (frameWith [65])))
      (frameWith (List.replicate 30 65)).data =
        some [112, 106, 111, 110, 47, 100, 101, 118, 105, 99, 101, 53] := by decide +kernel
  have hlong : talking.bufferSize ≤ 31 + Publishing.payloadLength
      (frameWith (List.replicate 30 65)).data (frameWith (List.replicate 30 65)).length % 256 := by
    decide +kernel
  refine (honestResponse_iff talking _ _).mp hhonest ⟨hlast, ?_⟩
  rw [ReturnsEarly, htopic]
  exact hlong

end Pjon.Proofs.Responses
