import Pjon.Proofs.Switch
import Pjon.Proofs.Recompose
/-!
# The packet that is handed on

What a call of `forward` or `forward_blocking` puts in the send buffer or on the medium is
the packet composed of the info, under the endpoint of its sender and one hop further, and
the payload.
-/

namespace Pjon.Proofs.HandOn

open Pjon.Lib Pjon.Model Pjon.Spec Pjon.Proofs.Forward Pjon.Proofs.Frames Pjon.Proofs.Interop

variable {b : Build}

/-! ## Composition -/

section Composition

variable {info : PacketInfo} {payload : Payload}

theorem composes_of_sendable {sender : Bus b}
    (h : Sendable b (sender.completeInfo info) payload) (destination : Memory) :
    (sender.composePacket info destination payload).result ≠ 0 := by
  have hfits : packetSize sender info payload < b.packetMaxLength := h.fits
  have hlength : packetSize sender info payload =
      payload.length + packetOverhead (written b (sender.completeInfo info) payload) :=
    newLength_eq h
  have hover := packetOverhead_ge (written b (sender.completeInfo info) payload)
  rw [composePacket_result, if_pos hfits]
  omega

theorem sendFrame_composePacket (bus : Bus b) (info : PacketInfo) (destination : Memory)
    (payload : Payload) (frame : List UInt8) :
    .sendFrame frame ∉ (bus.composePacket info destination payload).events := by
  unfold Bus.composePacket
  simp only
  split_ifs <;> simp

theorem sendFrame_sendComposed {bus : Bus b} {packet : Memory} {length : Nat} {medium : Medium}
    {frame : List UInt8} (h : .sendFrame frame ∈ (bus.sendComposed packet length medium).2) :
    frame = packet.load 0 length := by
  unfold Bus.sendComposed at h
  split_ifs at h <;> simp_all

/-- Every attempt transmits a packet composed of this info. -/
theorem sendFrame_blockingLoop {attempts : Nat → Attempt} {frame : List UInt8}
    (hsend : ∀ sender : Bus b, Sendable b (sender.completeInfo info) payload) (todo : Nat) :
    ∀ (k state : Nat) (bus : Bus b),
      .sendFrame frame ∈ (Bus.blockingLoop info payload attempts todo k state bus).events →
      ∃ sender : Bus b, sender.tx = bus.tx ∧
        frame = bytesOf b (sender.completeInfo info) payload := by
  induction todo with
  | zero => exact fun _ _ _ h => absurd h List.not_mem_nil
  | succ todo ih =>
      intro k state bus h
      have hsilent := sendFrame_composePacket bus info bus.data payload frame
      have hcomposed (hsent : .sendFrame frame ∈ ((bus.composeData info payload).bus.sendComposed
          (bus.composeData info payload).bus.data (bus.composeData info payload).result
          (attempts k).toMedium).2) :
          ∃ sender : Bus b, sender.tx = bus.tx ∧
            frame = bytesOf b (sender.completeInfo info) payload :=
        ⟨bus, rfl, (sendFrame_sendComposed hsent).trans (load_composePacket bus info bus.data
          (hsend bus))⟩
      rw [Bus.blockingLoop] at h
      simp only at h
      split_ifs at h
      · exact absurd h hsilent
      · rcases List.mem_append.mp h with hfirst | hsent
        · exact absurd hfirst hsilent
        · exact hcomposed hsent
      · rcases List.mem_append.mp h with hnow | hlater
        · rcases List.mem_append.mp hnow with hfirst | hsent
          · exact absurd hfirst hsilent
          · exact hcomposed hsent
        · obtain ⟨sender, htx, hframe⟩ := ih _ _ _ hlater
          exact ⟨sender, htx.trans (sameSettings_composeData bus info payload).tx, hframe⟩
      · exact absurd h List.not_mem_nil

end Composition

/-! ## One packet -/

/-- The info that is composed when `info` is handed on. -/
def hopped (info : PacketInfo) : PacketInfo := { info with hops := info.hops + 1 }

theorem passedOn_hopped {s : List UInt8} {info : PacketInfo} (h : Recompose.PassedOn b s info) :
    Recompose.PassedOn b s (hopped info) :=
  ⟨h.header, h.recipient, h.port⟩

/-- The request for an acknowledgement may be taken back twice. -/
theorem passedOn_clear {s : List UInt8} {info : PacketInfo} (h : Recompose.PassedOn b s info) :
    Recompose.PassedOn b s { info with header := info.header &&& ~~~ackReqBit } := by
  refine ⟨?_, h.recipient, h.port⟩
  rcases h.header with hsame | hcleared
  · exact Or.inr (congrArg (· &&& ~~~ackReqBit) hsame)
  · apply Or.inr
    rw [hcleared, UInt8.and_assoc, UInt8.and_self]

theorem passedOn_translate {r : RouterBuild} {n : Nat} {s : List UInt8} {info : PacketInfo}
    (h : Recompose.PassedOn r.toBuild s info) (state : Switch r n)
    (receiverBus senderBus : Fin n) :
    Recompose.PassedOn r.toBuild s (state.translate receiverBus senderBus info) := by
  refine ⟨h.header, ?_, h.port⟩
  rw [← h.recipient, Switch.translate]
  simp only
  split_ifs <;> rfl

variable {r : RouterBuild}

/-- Handing `info` on gives this frame. -/
def HandedOn (r : RouterBuild) (info : PacketInfo) (payload : Payload) (frame : List UInt8) :
    Prop :=
  WithinHops r.maxHops info ∧ ∃ sender : Bus r.toBuild, sender.tx = info.tx ∧
    frame = bytesOf r.toBuild (sender.completeInfo (hopped info)) payload

section HandOn

variable {bus : Bus r.toBuild} {info : PacketInfo} {payload : Payload}
  {surroundings : Surroundings}

theorem handOn_of_not_within (h : ¬WithinHops r.maxHops info) :
    (Switch.handOn bus info payload surroundings).bus = { bus with tx := info.tx } ∧
      ∀ frame, .sendFrame frame ∉ (Switch.handOn bus info payload surroundings).events := by
  have hpasses : ¬Passes r.toBuild r.maxHops info := by
    rw [Passes, r.shared]
    simpa using h
  unfold Switch.handOn Bus.forward Bus.forwardBlocking
  simp only [forwardBy_of_not_passes _ _ _ _ hpasses]
  split_ifs <;> simp

/-- A slot that is taken stays as it is. -/
theorem handOn_slot_used {k : Fin r.maxPackets} (hused : (bus.slot k).state ≠ 0) :
    (Switch.handOn bus info payload surroundings).bus.slot k = bus.slot k := by
  by_cases h : WithinHops r.maxHops info
  · rw [handOn_of_within bus info payload surroundings (Fin.pos k).ne' h]
    have hused' : (Bus.slot { bus with tx := info.tx } k).state ≠ 0 := hused
    exact dispatch_slot_used _ payload 0 _ hused'
  · rw [(handOn_of_not_within h).1]
    rfl

variable (hsend : ∀ sender : Bus r.toBuild,
  Sendable r.toBuild (sender.completeInfo (hopped info)) payload)

include hsend

/-- A slot that was free holds nothing else than the packet. -/
theorem handOn_slot_free {k : Fin r.maxPackets} (hfree : (bus.slot k).state = 0)
    (hafter : ((Switch.handOn bus info payload surroundings).bus.slot k).state ≠ 0) :
    HandedOn r info payload
      (slotFrame (Switch.handOn bus info payload surroundings).bus k) := by
  by_cases h : WithinHops r.maxHops info
  · rw [handOn_of_within bus info payload surroundings (Fin.pos k).ne' h] at hafter ⊢
    have hroom : HasRoom { bus with tx := info.tx } := ⟨k, hfree⟩
    obtain ⟨j, hfind⟩ := exists_findSlot hroom
    have hj : j = k := by
      by_contra hne
      have hslot := dispatch_slot_ne (hopped info) payload 0 surroundings.now hfind hne
      have hstate := congrArg Packet.state hslot
      exact hafter (hstate.trans hfree)
    subst hj
    have hcomposes := composes_of_sendable (hsend { bus with tx := info.tx })
      (Bus.slot { bus with tx := info.tx } j).content
    obtain ⟨-, hframe⟩ :=
      dispatch_slot_self (hopped info) payload 0 surroundings.now hfind hcomposes
    exact ⟨h, { bus with tx := info.tx }, rfl, hframe.trans (load_composePacket _ _ _ (hsend _))⟩
  · rw [(handOn_of_not_within h).1] at hafter
    exact absurd hfree hafter

/-- Nothing else is transmitted. -/
theorem handOn_sendFrame {frame : List UInt8}
    (h : .sendFrame frame ∈ (Switch.handOn bus info payload surroundings).events) :
    HandedOn r info payload frame := by
  by_cases hwithin : WithinHops r.maxHops info
  · have hcounted : counted r.toBuild info = hopped info := by
      rw [counted, r.shared]
      rfl
    have hblocking : .sendFrame frame ∈ (bus.forwardBlocking r.maxHops info payload
        surroundings.maxAttempts surroundings.attempts).events → HandedOn r info payload frame := by
      intro hsent
      rw [Bus.forwardBlocking, forwardBy_of_passes _ _ _ _ (Or.inr hwithin), hcounted] at hsent
      obtain ⟨sender, htx, hframe⟩ := sendFrame_blockingLoop hsend _ _ _ _ hsent
      exact ⟨hwithin, sender, htx, hframe⟩
    unfold Switch.handOn at h
    simp only at h
    split_ifs at h
    · rcases List.mem_append.mp h with hsent | herror
      · exact hblocking hsent
      · simp at herror
    · exact hblocking h
    · rw [Bus.forward, forwardBy_of_passes _ _ _ _ (Or.inr hwithin)] at h
      have hnone : .sendFrame frame ∉ (Bus.dispatch { bus with tx := info.tx }
          (counted r.toBuild info) payload 0 surroundings.now fail).events := by
        unfold Bus.dispatch
        split
        · simp
        · simp only
          split_ifs <;> exact sendFrame_composePacket _ _ _ _ _
      exact absurd h hnone
  · exact absurd h ((handOn_of_not_within hwithin).2 frame)

/-- Where there is room, the packet is put in the send buffer once. -/
theorem queued_handOn (hroom : HasRoom bus) (h : WithinHops r.maxHops info) :
    queued bus (Switch.handOn bus info payload surroundings).bus =
      [bytesOf r.toBuild ({ bus with tx := info.tx : Bus r.toBuild }.completeInfo (hopped info))
        payload] := by
  have hroom' : HasRoom { bus with tx := info.tx } := hroom
  obtain ⟨k, hfind⟩ := exists_findSlot hroom'
  have hcomposes := composes_of_sendable (hsend { bus with tx := info.tx })
    (Bus.slot { bus with tx := info.tx } k).content
  have hqueued := queued_dispatch (hopped info) payload 0 surroundings.now hfind hcomposes
  rw [handOn_of_within bus info payload surroundings (Fin.pos k).ne' h]
  exact hqueued.trans (congrArg (fun frame => [frame]) (load_composePacket _ _ _ (hsend _)))

end HandOn

end Pjon.Proofs.HandOn
