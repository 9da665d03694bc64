import Pjon.Proofs.Interop
/-!
# What has been composed, on another instance

The bytes that one instance composes, handed to an addressed one with the same format: it accepts
them, and hands them over unless it has the id on record.
-/

namespace Pjon.Proofs.Composed

open Pjon.Lib Pjon.Model Pjon.Spec Pjon.Proofs.Interop

variable {b b' : Build} {sender : Bus b} {receiver : Bus b'} {request : PacketInfo}
  {source : Payload} (hformat : SameFormat b b')
  (hsend : Sendable b (sender.completeInfo request) source)
  (haddr : Addressed receiver (sender.completeInfo request)
    (written b (sender.completeInfo request) source))

include hformat hsend haddr

theorem admissible_composed :
    Admissible receiver (bytesOf b (sender.completeInfo request) source) := by
  rw [written_sameFormat hformat] at haddr
  rw [bytesOf_sameFormat hformat]
  exact admissible_bytesOf receiver (sendable_sameFormat hformat hsend) haddr

omit haddr in
/-- The receiver owes an acknowledgement if it is asked for one and may answer. -/
theorem ackDue_composed : ackDue receiver (bytesOf b (sender.completeInfo request) source) =
    (has (written b (sender.completeInfo request) source) ackReqBit && receiver.halfDuplex &&
      !receiver.router) := by
  have hsend' := sendable_sameFormat hformat hsend
  rw [written_sameFormat hformat, bytesOf_sameFormat hformat, ackDue, header_bytesOf hsend',
    byte_zero_bytesOf hsend', written, Layout.has_measure_ack]
  cases (sender.completeInfo request).rx.id != broadcast
  · simp only [Bool.and_false, Bool.false_and]
  · simp only [Bool.and_true]

variable (hmax : b.packetMaxLength < 65536)
  (hport : b.includePort → receiver.port = noPort ∨
    receiver.port = (sender.completeInfo request).port)
  (hfresh : receiver.router ∨
    (has (written b (sender.completeInfo request) source) packetIdBit →
      ∀ record ∈ receiver.recentPacketIds.toList,
        Bus.sameId (carried (sender.completeInfo request)
          (written b (sender.completeInfo request) source)) record = false))

include hmax hport hfresh

theorem receive_composed {delivery : Delivery}
    (hbytes : delivery.bytes = bytesOf b (sender.completeInfo request) source) :
    (receiver.receive delivery).result = ack ∧ ∃ parsed,
      Recovers (sender.completeInfo request)
        (written b (sender.completeInfo request) source) parsed ∧
      .receiver source.bytes parsed ∈ (receiver.receive delivery).events := by
  rw [bytesOf_sameFormat hformat] at hbytes
  rw [written_sameFormat hformat] at haddr hfresh ⊢
  have hsend' := sendable_sameFormat hformat hsend
  obtain ⟨parsed, hrecovers, hcaused⟩ := receive_bytesOf receiver hsend' haddr
    (hformat.packetMaxLength ▸ hmax) hbytes
  have hmatches := portMatches_bytesOf receiver hsend' (by rwa [hformat.includePort] at hport)
  have hnew : receiver.router = true ∨
      recorded receiver (bytesOf b' (sender.completeInfo request) source) = false := by
    refine hfresh.imp id fun hids => ?_
    rw [recorded_bytesOf hsend', Bool.and_eq_false_iff, or_iff_not_imp_left]
    intro hid
    rw [List.any_eq_false]
    intro record hrecord
    rw [hids (by simpa using hid) record hrecord]
    exact Bool.false_ne_true
  refine ⟨?_, parsed, hrecovers, ?_⟩
  · rw [hcaused.result, hmatches, Bool.or_true, if_pos rfl]
  · rw [hcaused.events, hmatches, Bool.and_true, payloadOf_bytesOf hsend']
    apply List.mem_append_right
    rw [if_pos (by simpa using hnew)]
    exact List.mem_singleton_self _

end Pjon.Proofs.Composed
