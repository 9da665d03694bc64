import Pjon.Proofs.Duplicates
import Pjon.Proofs.Frames
import Pjon.Proofs.PacketIds
import Mathlib.Logic.Function.Iterate
/-!
# Blocking transmission and packet ids

`send_packet_blocking` composes anew for each attempt, and a composition that is not
given an id generates one.  So a frame that is sent again is a new packet to its
receiver, but where the generator repeats itself.
-/

namespace Pjon.Proofs.Blocking

open Pjon.Lib Pjon.Model Pjon.Spec Pjon.Proofs.Duplicates Pjon.Proofs.Frames
open Pjon.Proofs.PacketIds

variable {b : Build}

/-! ## One attempt -/

/-- An answer ends the loop exactly where no other attempt is needed. -/
theorem sendComposed_ack_iff (bus : Bus b) (packet : Memory) (length : Nat) (medium : Medium) :
    (bus.sendComposed packet length medium).1 = ack ↔ Answered bus packet medium := by
  have hbusy : busy ≠ ack := by decide
  have hfail : fail ≠ ack := by decide
  unfold Bus.sendComposed Answered wantsAck
  cases bus.halfDuplex <;> cases medium.canStart <;> cases hrx : packet 0 == broadcast <;>
    cases has (packet 1) ackReqBit <;> by_cases hresponse : medium.response = ack <;>
    simp [bne, hrx, hresponse, hbusy, hfail]

theorem mem_transmissions_sendComposed (bus : Bus b) (packet : Memory) (length : Nat)
    (medium : Medium) (info : PacketInfo) (t : Transmission) :
    t ∈ transmissions info (bus.sendComposed packet length medium).2 ↔
      (bus.halfDuplex = true → medium.canStart = true) ∧
        t = { info := info, frame := packet.load 0 length } := by
  unfold Bus.sendComposed
  cases bus.halfDuplex <;> cases medium.canStart <;> split_ifs <;>
    simp_all [transmissions]

theorem composeData_bus (bus : Bus b) (info : PacketInfo) (payload : Payload) :
    (bus.composeData info payload).bus =
      { bus.advanceSeed info with data := (bus.composeData info payload).bus.data } := by
  rw [Bus.composeData]
  simp only [composePacket_bus]

theorem composeData_halfDuplex (bus : Bus b) (info : PacketInfo) (payload : Payload) :
    (bus.composeData info payload).bus.halfDuplex = bus.halfDuplex := by
  rw [composeData_bus, Bus.advanceSeed]
  split_ifs <;> rfl

section Attempts

variable (sender : Bus b) (info : PacketInfo) (payload : Payload)

theorem before_succ (k : Nat) : before sender info payload (k + 1) =
    ((before sender info payload k).composeData info payload).bus :=
  Function.iterate_succ_apply' _ k sender

theorem before_succ_left (k : Nat) : before sender info payload (k + 1) =
    before (sender.composeData info payload).bus info payload k :=
  Function.iterate_succ_apply _ k sender

/-- Attempts change the seed and what is composed, nothing else. -/
theorem before_eq (k : Nat) : ∃ data, before sender info payload k = { sender with
    data := data
    packetIdSeed :=
      if sender.generatesId info then sender.packetIdSeed + UInt16.ofNat k
      else sender.packetIdSeed } := by
  induction k with
  | zero =>
      have hzero : sender.packetIdSeed + UInt16.ofNat 0 = sender.packetIdSeed := UInt16.add_zero _
      rw [hzero, ite_self]
      exact ⟨sender.data, rfl⟩
  | succ k ih =>
      obtain ⟨data, hk⟩ := ih
      have hnext : sender.packetIdSeed + UInt16.ofNat k + 1 =
          sender.packetIdSeed + UInt16.ofNat (k + 1) := by
        rw [UInt16.add_assoc, UInt16.ofNat_add]
        rfl
      have hgen (data : Memory) (seed : UInt16) :
          ({ sender with data := data, packetIdSeed := seed } : Bus b).generatesId info =
            sender.generatesId info := rfl
      rw [before_succ, composeData_bus, hk, Bus.advanceSeed, hgen]
      by_cases hg : sender.generatesId info = true
      · simp only [if_pos hg, hnext]
        exact ⟨_, rfl⟩
      · simp only [if_neg hg]
        exact ⟨_, rfl⟩

/-- The info that attempt `k` composes. -/
theorem completeInfo_before (k : Nat) :
    (before sender info payload k).completeInfo info = { sender.completeInfo info with
      id := if sender.generatesId info then idAt sender.packetIdSeed k else info.id } := by
  obtain ⟨data, hk⟩ := before_eq sender info payload k
  have hgen (data : Memory) (seed : UInt16) :
      ({ sender with data := data, packetIdSeed := seed } : Bus b).generatesId info =
        sender.generatesId info := rfl
  by_cases hg : sender.generatesId info = true
  · rw [if_pos hg] at hk ⊢
    rw [hk, Bus.completeInfo, hgen, if_pos hg]
    rfl
  · rw [if_neg hg] at hk ⊢
    rw [hk, Bus.completeInfo, hgen, if_neg hg]
    rfl

/-- All attempts compose a packet of one length. -/
theorem packetSize_before (k : Nat) :
    packetSize (before sender info payload k) info payload = packetSize sender info payload := by
  rw [packetSize, completeInfo_before]
  rfl

theorem result_before (k : Nat) :
    ((before sender info payload k).composeData info payload).result =
      (sender.composeData info payload).result := by
  have hk := composePacket_result (before sender info payload k) info
    (before sender info payload k).data payload
  rw [packetSize_before, ← composePacket_result sender info sender.data payload] at hk
  exact hk

theorem fits_before (hresult : (sender.composeData info payload).result ≠ 0) (k : Nat) :
    ((before sender info payload k).composePacket info
      (before sender info payload k).data payload).result ≠ 0 := by
  rw [← result_before sender info payload k] at hresult
  exact hresult

/-! ## What is transmitted -/

/-- The transmission of attempt `k`. -/
def transmissionAt (k : Nat) : Transmission :=
  let bus := before sender info payload k
  { info := bus.completeInfo info
    frame := (bus.composeData info payload).bus.data.load 0
      (bus.composeData info payload).result }

end Attempts

section Loop

variable {info : PacketInfo} {payload : Payload}

theorem transmits_zero {sender : Bus b} {todo : Nat} {attempts : Nat → Attempt} :
    Transmits sender info payload (todo + 1) attempts 0 ↔
      (sender.composeData info payload).result ≠ 0 ∧ (attempts 0).inTime = true ∧
        (sender.halfDuplex = true → (attempts 0).canStart = true) := by
  constructor
  · intro h
    exact ⟨h.fits, h.inTime 0 (Nat.le_refl 0), h.free⟩
  · rintro ⟨hfits, htime, hfree⟩
    refine ⟨hfits, Nat.succ_pos todo, ?_, ?_, hfree⟩
    · intro j hj
      rwa [Nat.le_zero.mp hj]
    · intro j hj
      exact absurd hj (Nat.not_lt_zero j)

/-- A later attempt is made by the instance that the first one leaves, if the first one
was made and not answered. -/
theorem transmits_succ {sender : Bus b} {todo k : Nat} {attempts : Nat → Attempt} :
    Transmits sender info payload (todo + 1) attempts (k + 1) ↔
      (sender.composeData info payload).result ≠ 0 ∧ (attempts 0).inTime = true ∧
        ¬Answered sender (sender.composeData info payload).bus.data (attempts 0).toMedium ∧
        Transmits (sender.composeData info payload).bus info payload todo
          (fun j => attempts (j + 1)) k := by
  have hresult : ((sender.composeData info payload).bus.composeData info payload).result =
      (sender.composeData info payload).result := result_before sender info payload 1
  have hanswered (packet : Memory) (medium : Medium) :
      Answered (sender.composeData info payload).bus packet medium ↔
        Answered sender packet medium := by
    rw [Answered, Answered, composeData_halfDuplex]
  constructor
  · intro h
    refine ⟨h.fits, h.inTime 0 (Nat.zero_le _), h.unanswered 0 (Nat.succ_pos k), ?_⟩
    refine ⟨?_, Nat.lt_of_succ_lt_succ h.limit, ?_, ?_, ?_⟩
    · rw [hresult]
      exact h.fits
    · intro j hj
      exact h.inTime (j + 1) (Nat.succ_le_succ hj)
    · intro j hj
      rw [hanswered, ← before_succ_left]
      exact h.unanswered (j + 1) (Nat.succ_lt_succ hj)
    · rw [composeData_halfDuplex]
      exact h.free
  · rintro ⟨hfits, htime, hfirst, hlater⟩
    refine ⟨hfits, Nat.succ_lt_succ hlater.limit, ?_, ?_, ?_⟩
    · intro j hj
      cases j with
      | zero => exact htime
      | succ j => exact hlater.inTime j (Nat.le_of_succ_le_succ hj)
    · intro j hj
      cases j with
      | zero => exact hfirst
      | succ j =>
          have hj' := hlater.unanswered j (Nat.lt_of_succ_lt_succ hj)
          rwa [hanswered, ← before_succ_left] at hj'
    · rw [← composeData_halfDuplex sender info payload]
      exact hlater.free

/-- One turn of the loop: the attempt transmits if the medium is free, and the loop goes on
if it is not answered. -/
theorem mem_blockingLoop_succ (info : PacketInfo) (payload : Payload)
    (attempts : Nat → Attempt) (t : Transmission) (todo k state : Nat) (sender : Bus b) :
    t ∈ (Bus.blockingLoop info payload attempts (todo + 1) k state sender).sent ↔
      (sender.composeData info payload).result ≠ 0 ∧ (attempts k).inTime = true ∧
        ((sender.halfDuplex = true → (attempts k).canStart = true) ∧
            t = transmissionAt sender info payload 0 ∨
          ¬Answered sender (sender.composeData info payload).bus.data (attempts k).toMedium ∧
            t ∈ (Bus.blockingLoop info payload attempts todo (k + 1)
              ((sender.composeData info payload).bus.sendComposed
                (sender.composeData info payload).bus.data
                (sender.composeData info payload).result (attempts k).toMedium).1
              (sender.composeData info payload).bus).sent) := by
  have hack := sendComposed_ack_iff (sender.composeData info payload).bus
    (sender.composeData info payload).bus.data (sender.composeData info payload).result
    (attempts k).toMedium
  rw [Answered, composeData_halfDuplex, ← Answered] at hack
  have hhere := mem_transmissions_sendComposed (sender.composeData info payload).bus
    (sender.composeData info payload).bus.data (sender.composeData info payload).result
    (attempts k).toMedium (sender.completeInfo info) t
  rw [composeData_halfDuplex] at hhere
  rw [Bus.blockingLoop, ← hack]
  by_cases htime : (attempts k).inTime = true
  · rw [if_pos htime]
    by_cases hresult : (sender.composeData info payload).result = 0
    · simp only [if_pos hresult]
      exact iff_of_false List.not_mem_nil fun h => h.1 hresult
    · simp only [if_neg hresult]
      rw [and_iff_right hresult, and_iff_right htime]
      by_cases hdone : ((sender.composeData info payload).bus.sendComposed
          (sender.composeData info payload).bus.data
          (sender.composeData info payload).result (attempts k).toMedium).1 = ack
      · rw [if_pos hdone, or_iff_left fun h => h.1 hdone]
        exact hhere
      · rw [if_neg hdone, and_iff_right hdone, List.mem_append]
        exact or_congr_left hhere
  · rw [if_neg htime]
    exact iff_of_false List.not_mem_nil fun h => htime h.2.1

/-- The loop transmits what the attempts that `Transmits` describes compose. -/
theorem mem_blockingLoop_sent (info : PacketInfo) (payload : Payload)
    (attempts : Nat → Attempt) (t : Transmission) (todo : Nat) :
    ∀ (start state : Nat) (sender : Bus b),
      t ∈ (Bus.blockingLoop info payload attempts todo start state sender).sent ↔
        ∃ k, Transmits sender info payload todo (fun j => attempts (start + j)) k ∧
          t = transmissionAt sender info payload k := by
  induction todo with
  | zero =>
      intro start state sender
      apply iff_of_false List.not_mem_nil
      rintro ⟨k, hk, -⟩
      exact absurd hk.limit (Nat.not_lt_zero k)
  | succ todo ih =>
      intro start state sender
      have hshift : (fun j => attempts (start + (j + 1))) = fun j => attempts (start + 1 + j) := by
        funext j
        rw [Nat.add_assoc, Nat.add_comm 1 j]
      rw [mem_blockingLoop_succ, ih, ← hshift]
      constructor
      · rintro ⟨hfits, htime, ⟨hfree, ht⟩ | ⟨hnot, k, hk, ht⟩⟩
        · exact ⟨0, transmits_zero.mpr ⟨hfits, htime, hfree⟩, ht⟩
        · exact ⟨k + 1, transmits_succ.mpr ⟨hfits, htime, hnot, hk⟩, ht⟩
      · rintro ⟨k, hk, ht⟩
        cases k with
        | zero =>
            obtain ⟨hfits, htime, hfree⟩ := transmits_zero.mp hk
            exact ⟨hfits, htime, Or.inl ⟨hfree, ht⟩⟩
        | succ k =>
            obtain ⟨hfits, htime, hnot, hlater⟩ := transmits_succ.mp hk
            exact ⟨hfits, htime, Or.inr ⟨hnot, k, hlater, ht⟩⟩

end Loop

theorem mem_sendPacketBlocking_sent (sender : Bus b) (info : PacketInfo) (payload : Payload)
    (maxAttempts : UInt8) (attempts : Nat → Attempt) (t : Transmission) :
    t ∈ (sender.sendPacketBlocking info payload maxAttempts attempts).sent ↔
      ∃ k, Transmits sender info payload (maxAttempts.toNat + 1) attempts k ∧
        t = transmissionAt sender info payload k := by
  have hmem := mem_blockingLoop_sent info payload attempts t (maxAttempts.toNat + 1) 0 fail sender
  simp only [Nat.zero_add] at hmem
  exact hmem

/-! ## The ids of one call -/

section Ids

variable {sender : Bus b} {info : PacketInfo} {payload : Payload}

theorem generatesId_iff (sender : Bus b) (info : PacketInfo) (hbuild : b.includePacketId = true)
    (hheader : has (sender.effectiveHeader info) packetIdBit = true) :
    sender.generatesId info = true ↔ info.id = 0 := by
  rw [Bus.generatesId, hbuild, hheader, Bool.true_and, Bool.and_true, beq_iff_eq]

theorem id_transmissionAt (k : Nat) : (transmissionAt sender info payload k).info.id =
    if sender.generatesId info then idAt sender.packetIdSeed k else info.id := by
  rw [transmissionAt]
  simp only [completeInfo_before]

/-- The ids of a call agree exactly under `KeepsOneId`. -/
theorem sameId_iff (sender : Bus b) (info : PacketInfo) (payload : Payload)
    (hbuild : b.includePacketId = true)
    (hheader : has (sender.effectiveHeader info) packetIdBit = true) (todo : Nat)
    (htodo : todo ≤ 65535) (attempts : Nat → Attempt) :
    (∀ j k, Transmits sender info payload todo attempts j →
      Transmits sender info payload todo attempts k →
        (transmissionAt sender info payload j).info.id =
          (transmissionAt sender info payload k).info.id) ↔
      KeepsOneId sender info payload todo attempts := by
  have hgen := generatesId_iff sender info hbuild hheader
  simp only [id_transmissionAt]
  by_cases hid : info.id = 0
  · rw [KeepsOneId, or_iff_right (fun hne => hne hid)]
    simp only [if_pos (hgen.mpr hid)]
    constructor
    · intro hsame j k hjk hj hk
      have hlimit := hk.limit
      exact (idAt_eq_iff sender.packetIdSeed hjk (by omega)).mp (hsame j k hj hk)
    · intro hwrap j k hj hk
      have hjlimit := hj.limit
      have hklimit := hk.limit
      rcases Nat.lt_trichotomy j k with hlt | rfl | hlt
      · exact (idAt_eq_iff sender.packetIdSeed hlt (by omega)).mpr (hwrap j k hlt hj hk)
      · rfl
      · exact ((idAt_eq_iff sender.packetIdSeed hlt (by omega)).mpr (hwrap k j hlt hk hj)).symm
  · simp only [if_neg (fun hg => hid (hgen.mp hg))]
    exact iff_of_true (fun _ _ _ _ => trivial) (Or.inl hid)

/-- Attempts that compose with one id leave the same bytes in `data`. -/
theorem data_before_eq (hresult : (sender.composeData info payload).result ≠ 0)
    (hlong : 4 ≤ packetSize sender info payload) {j k : Nat} (hjk : j ≤ k)
    (hsame : ∀ i, j ≤ i → i < k → (before sender info payload (i + 1)).completeInfo info =
      (before sender info payload i).completeInfo info) :
    (before sender info payload (k + 1)).data = (before sender info payload (j + 1)).data := by
  induction k, hjk using Nat.le_induction with
  | base => rfl
  | succ k hjk ih =>
      have hfits (i : Nat) : packetSize (before sender info payload i) info payload <
          b.packetMaxLength :=
        (fits_of_result (fits_before sender info payload hresult i)).1
      have hwritten (i : Nat) : (before sender info payload (i + 1)).data =
          (before sender info payload i).data.apply (Tools.composePacket b
            ((before sender info payload i).completeInfo info)
            (before sender info payload i).data payload).2 := by
        rw [before_succ, ← composePacket_writes]
        rfl
      have hlast := hsame k hjk (Nat.lt_succ_self k)
      calc (before sender info payload (k + 1 + 1)).data
          = (before sender info payload (k + 1)).data.apply (Tools.composePacket b
              ((before sender info payload k).completeInfo info)
              (before sender info payload (k + 1)).data payload).2 := by
            rw [hwritten (k + 1), hlast]
        _ = (before sender info payload (k + 1)).data := by
            rw [hwritten k]
            exact apply_composePacket_twice _ (hfits k) (by
              rw [← packetSize_before sender info payload k] at hlong
              exact hlong)
        _ = (before sender info payload (j + 1)).data :=
            ih fun i hji hik => hsame i hji (Nat.lt_succ_of_lt hik)

/-- Two transmissions with one id are the same frame, or too short for any receiver. -/
theorem frame_transmissionAt_eq (hbuild : b.includePacketId = true)
    (hheader : has (sender.effectiveHeader info) packetIdBit = true) {todo : Nat}
    {attempts : Nat → Attempt} (hkeeps : KeepsOneId sender info payload todo attempts)
    (hlong : 4 ≤ packetSize sender info payload) {j k : Nat} (hjk : j ≤ k)
    (hj : Transmits sender info payload todo attempts j)
    (hk : Transmits sender info payload todo attempts k) :
    (transmissionAt sender info payload k).frame =
      (transmissionAt sender info payload j).frame := by
  have hdata : (before sender info payload (k + 1)).data =
      (before sender info payload (j + 1)).data := by
    apply data_before_eq hj.fits hlong hjk
    intro i hji hik
    rw [completeInfo_before, completeInfo_before]
    rcases hkeeps with hid | hwrap
    · rw [if_neg fun hg => hid ((generatesId_iff sender info hbuild hheader).mp hg)]
      rw [if_neg fun hg => hid ((generatesId_iff sender info hbuild hheader).mp hg)]
    · -- the pair across the wrap of the seed
      obtain ⟨hnext, hseed⟩ := hwrap j k (by omega) hj hk
      have hi : i = j := by omega
      rw [hi, (idAt_eq_iff sender.packetIdSeed (Nat.lt_succ_self j) (by omega)).mpr
        ⟨rfl, hseed⟩]
  rw [transmissionAt, transmissionAt]
  simp only [← before_succ, hdata, result_before]

theorem frame_eq_frameOf (k : Nat) : (transmissionAt sender info payload k).frame =
    frameOf (before sender info payload k) info (before sender info payload k).data payload := rfl

/-- The frames of one call, for any receiver. -/
theorem sameFrame_of_keepsOneId (b' : Build) (hbuild : b.includePacketId = true)
    (hheader : has (sender.effectiveHeader info) packetIdBit = true) {todo : Nat}
    {attempts : Nat → Attempt} (hkeeps : KeepsOneId sender info payload todo attempts)
    {sent : List Transmission} (hsent : ∀ t ∈ sent,
      ∃ k, Transmits sender info payload todo attempts k ∧
        t = transmissionAt sender info payload k) :
    ∃ s, SameFrame b' s (sent.map Transmission.frame) := by
  cases sent with
  | nil => exact ⟨[], fun frame hframe => absurd hframe List.not_mem_nil⟩
  | cons first rest =>
      obtain ⟨j, hj, rfl⟩ := hsent first List.mem_cons_self
      refine ⟨(transmissionAt sender info payload j).frame, ?_⟩
      intro frame hframe receiver hadm
      obtain ⟨t, ht, rfl⟩ := List.mem_map.mp hframe
      obtain ⟨k, hk, rfl⟩ := hsent t ht
      have hresult := fits_before sender info payload hk.fits k
      constructor
      · have hlength := length_of_admissible hadm
        rw [frame_eq_frameOf, frameOf, Memory.length_load, (fits_of_result hresult).2,
          packetSize_before] at hlength
        rcases Nat.le_total j k with hjk | hkj
        · exact frame_transmissionAt_eq hbuild hheader hkeeps (by omega) hjk hj hk
        · exact (frame_transmissionAt_eq hbuild hheader hkeeps (by omega) hkj hk hj).symm
      · have hbit : has ((before sender info payload k).effectiveHeader info) packetIdBit =
            true := by
          obtain ⟨data, hbefore⟩ := before_eq sender info payload k
          rw [hbefore]
          exact hheader
        exact has_packetId_frameOf hbit hresult hadm

/-- One call delivers at most once exactly if its frames keep one id. -/
theorem deliversOnce_iff (hbuild : b.includePacketId = true)
    (hheader : has (sender.effectiveHeader info) packetIdBit = true) (maxAttempts : UInt8)
    (attempts : Nat → Attempt) :
    DeliversOnce (sender.sendPacketBlocking info payload maxAttempts attempts).sent ↔
      KeepsOneId sender info payload (maxAttempts.toNat + 1) attempts := by
  have hmem := mem_sendPacketBlocking_sent sender info payload maxAttempts attempts
  have hmax := maxAttempts.toNat_lt
  have hids := sameId_iff sender info payload hbuild hheader (maxAttempts.toNat + 1)
    (by omega) attempts
  constructor
  · intro h
    apply hids.mp
    intro j k hj hk
    exact h.sameId _ ((hmem _).mpr ⟨j, hj, rfl⟩) _ ((hmem _).mpr ⟨k, hk, rfl⟩)
  · intro hkeeps
    constructor
    · intro t ht t' ht'
      obtain ⟨j, hj, rfl⟩ := (hmem t).mp ht
      obtain ⟨k, hk, rfl⟩ := (hmem t').mp ht'
      exact hids.mpr hkeeps j k hj hk
    · intro b' receiver hreceiver hmin hmax arrivals hothers
      obtain ⟨s, hsame⟩ := sameFrame_of_keepsOneId b' hbuild hheader hkeeps
        fun t ht => (hmem t).mp ht
      apply callbacks_le_one hmin hmax hreceiver hsame arrivals
      rw [hothers]
      exact b'.recent_pos

end Ids

/-- Both blocking members, for an instance that adds packet ids. -/
theorem sendPacketBlocking_deliversOnce_iff (sender : Bus b) (payload : Payload)
    (maxAttempts : UInt8) (attempts : Nat → Attempt) (hbuild : b.includePacketId = true)
    (hconfig : has sender.config packetIdBit = true) :
    (∀ info, has (sender.effectiveHeader info) packetIdBit = true →
      (DeliversOnce (sender.sendPacketBlocking info payload maxAttempts attempts).sent ↔
        KeepsOneId sender info payload (maxAttempts.toNat + 1) attempts)) ∧
    (DeliversOnce (sender.replyBlocking payload maxAttempts attempts).sent ↔
      KeepsOneId sender sender.replyInfo payload (maxAttempts.toNat + 1) attempts) := by
  constructor
  · intro info hheader
    exact deliversOnce_iff hbuild hheader maxAttempts attempts
  · have hheader : has (sender.effectiveHeader sender.replyInfo) packetIdBit = true := by
      rw [Bus.effectiveHeader, Bus.replyInfo, ite_self]
      exact hconfig
    exact deliversOnce_iff hbuild hheader maxAttempts attempts

/-! ## A lost acknowledgement -/

/-- A medium that is always free, and from which no acknowledgement comes back. -/
def lostAcks : Nat → Attempt := fun _ => { canStart := true, response := fail }

theorem sendPacketBlocking_deliversOnce_iff_letter :
    (DeliversOnce ((numberedDevice 44).sendPacketBlocking (toDevice 45) letter 1 lostAcks).sent ↔
      KeepsOneId (numberedDevice 44) (toDevice 45) letter ((1 : UInt8).toNat + 1) lostAcks) ∧
    (DeliversOnce ((numberedDevice 44).replyBlocking letter 1 lostAcks).sent ↔
      KeepsOneId (numberedDevice 44) (numberedDevice 44).replyInfo letter
        ((1 : UInt8).toNat + 1) lostAcks) := by
  have hboth := sendPacketBlocking_deliversOnce_iff (numberedDevice 44) letter 1 lostAcks
    (by decide) (by decide)
  exact ⟨hboth.1 (toDevice 45) (by decide), hboth.2⟩

/-- Both frames of one call arrive, and the receiver hands the letter over twice. -/
theorem lostAck_delivered_twice :
    callbacks (numberedDevice 45)
        (((numberedDevice 44).sendPacketBlocking (toDevice 45) letter 1 lostAcks).sent.map
          Transmission.frame) [.frame 0 fun _ => 50, .frame 1 fun _ => 50] = 2 ∧
      ¬DeliversOnce
        ((numberedDevice 44).sendPacketBlocking (toDevice 45) letter 1 lostAcks).sent := by
  have htwice : callbacks (numberedDevice 45)
      (((numberedDevice 44).sendPacketBlocking (toDevice 45) letter 1 lostAcks).sent.map
        Transmission.frame) [.frame 0 fun _ => 50, .frame 1 fun _ => 50] = 2 := by
    decide +kernel
  refine ⟨htwice, fun honce => ?_⟩
  have hle := honce.atMostOnce (numberedDevice 45) ⟨rfl, rfl⟩ (by decide) (by decide)
    [.frame 0 fun _ => 50, .frame 1 fun _ => 50] (by decide +kernel)
  rw [htwice] at hle
  exact absurd hle (by decide)

end Pjon.Proofs.Blocking
