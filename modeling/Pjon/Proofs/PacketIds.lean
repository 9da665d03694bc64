import Pjon.Model.Bus
import Pjon.Lib.Recent
/-!
# Generated packet ids

An instance numbers the packets it generates an id for.  The counter is
incremented twice, by `compose_packet` on the seed and by `new_packet_id` on its
copy, and the copy skips 0.  The ids are consecutive until the seed passes 65535;
there the id 1 comes twice in a row.
-/

namespace Pjon.Proofs.PacketIds

open Pjon.Lib Pjon.Model Pjon.Model.Tools

variable {b : Build}

/-! ## The generator -/

theorem newPacketId_ne_zero (seed : UInt16) : newPacketId seed ≠ 0 := by
  unfold newPacketId
  by_cases hzero : seed + 1 = 0
  · rw [if_pos hzero]
    decide
  · rwa [if_neg hzero]

theorem toNat_newPacketId (seed : UInt16) :
    (newPacketId seed).toNat = if seed.toNat = 65535 then 1 else seed.toNat + 1 := by
  have hlt := seed.toNat_lt
  have hsum : (seed + 1).toNat = (seed.toNat + 1) % 65536 := by
    rw [UInt16.toNat_add]
    rfl
  have hzero : seed + 1 = 0 ↔ seed.toNat = 65535 := by
    rw [← UInt16.toNat_inj, hsum]
    show (seed.toNat + 1) % 65536 = 0 ↔ _
    omega
  unfold newPacketId
  by_cases hlast : seed.toNat = 65535
  · rw [if_pos (hzero.mpr hlast), if_pos hlast]
    rfl
  · rw [if_neg (fun h => hlast (hzero.mp h)), if_neg hlast, hsum]
    omega

/-- The `k`-th id generated from `seed` on. -/
def idAt (seed : UInt16) (k : Nat) : UInt16 := newPacketId (seed + UInt16.ofNat k)

theorem toNat_seed_add (seed : UInt16) (k : Nat) :
    (seed + UInt16.ofNat k).toNat = (seed.toNat + k) % 65536 := by
  rw [UInt16.toNat_add, UInt16.toNat_ofNat']
  omega

theorem toNat_idAt (seed : UInt16) (k : Nat) :
    (idAt seed k).toNat = if (seed.toNat + k) % 65536 = 65535 then 1
      else (seed.toNat + k) % 65536 + 1 := by
  rw [idAt, toNat_newPacketId, toNat_seed_add]

/-- Two ids less than 65535 generations apart agree only across the wrap. -/
theorem idAt_eq_iff (seed : UInt16) {i j : Nat} (hij : i < j) (hnear : j < i + 65535) :
    idAt seed i = idAt seed j ↔ j = i + 1 ∧ (seed.toNat + i) % 65536 = 65535 := by
  rw [← UInt16.toNat_inj, toNat_idAt, toNat_idAt]
  split_ifs <;> omega

/-! ## A sequence of compositions -/

/-- A call of `compose_packet`. -/
structure Request where
  info : PacketInfo
  destination : Memory
  source : Payload

/-- The ids that an instance generates over a sequence of compositions. -/
def generatedIds (bus : Bus b) : List Request → List UInt16
  | [] => []
  | r :: rs =>
    (if bus.generatesId r.info then [(bus.completeInfo r.info).id] else []) ++
      generatedIds (bus.composePacket r.info r.destination r.source).bus rs

/-- How many compositions of a sequence generate an id. -/
def generations (bus : Bus b) (rs : List Request) : Nat :=
  rs.countP fun r => bus.generatesId r.info

theorem composePacket_bus (bus : Bus b) (info : PacketInfo) (destination : Memory)
    (source : Payload) :
    (bus.composePacket info destination source).bus = bus.advanceSeed info := by
  unfold Bus.composePacket
  simp only
  split_ifs <;> rfl

theorem generatesId_advanceSeed (bus : Bus b) (info info' : PacketInfo) :
    (bus.advanceSeed info).generatesId info' = bus.generatesId info' := by
  unfold Bus.advanceSeed
  split_ifs <;> rfl

theorem generatedIds_eq (bus : Bus b) (rs : List Request) :
    generatedIds bus rs = (List.range (generations bus rs)).map (idAt bus.packetIdSeed) := by
  induction rs generalizing bus with
  | nil => rfl
  | cons r rs ih =>
      have hcount : generations (bus.advanceSeed r.info) rs = generations bus rs := by
        simp only [generations, generatesId_advanceSeed]
      rw [generatedIds, composePacket_bus, ih, hcount]
      by_cases hgen : bus.generatesId r.info = true
      · have hhead : (bus.completeInfo r.info).id = idAt bus.packetIdSeed 0 := by
          simp only [Bus.completeInfo, if_pos hgen, idAt]
          rw [show UInt16.ofNat 0 = 0 from rfl, UInt16.add_zero]
        have hseed : (bus.advanceSeed r.info).packetIdSeed = bus.packetIdSeed + 1 := by
          rw [Bus.advanceSeed, if_pos hgen]
        have hshift (k : Nat) : idAt (bus.packetIdSeed + 1) k = idAt bus.packetIdSeed (k + 1) := by
          apply UInt16.toNat_inj.mp
          have hone : (bus.packetIdSeed + 1).toNat = (bus.packetIdSeed.toNat + 1) % 65536 := by
            rw [UInt16.toNat_add]
            rfl
          rw [toNat_idAt, toNat_idAt, hone]
          split_ifs <;> omega
        have hsucc : generations bus (r :: rs) = generations bus rs + 1 := by
          rw [generations, List.countP_cons_of_pos (by exact hgen)]
          rfl
        rw [if_pos hgen, hseed, hsucc, List.range_succ_eq_map, List.map_cons, List.map_map,
          ← hhead, List.singleton_append]
        congr 1
        exact List.map_congr_left fun k _ => hshift k
      · have hseed : (bus.advanceSeed r.info).packetIdSeed = bus.packetIdSeed := by
          rw [Bus.advanceSeed, if_neg hgen]
        have hsame : generations bus (r :: rs) = generations bus rs := by
          rw [generations, List.countP_cons_of_neg (by exact hgen)]
          rfl
        rw [if_neg hgen, hseed, hsame, List.nil_append]

/-! ## Freshness -/

/-- A receiver that is handed these packets finds one of them in its records. -/
def discards : Vector PacketRecord b.maxRecentPacketIds → List PacketInfo → Bool
  | _, [] => false
  | records, info :: infos =>
    (Bus.knownPacketId records info).1 || discards (Bus.knownPacketId records info).2 infos

/-- What the ids of one sender are for. -/
structure Fresh (b : Build) (ids : List UInt16) : Prop where
  nonzero : ∀ id ∈ ids, id ≠ 0
  distinct : Recent.DistinctWithin (b.maxRecentPacketIds - 1) ids
  accepted : ∀ (records : Vector PacketRecord b.maxRecentPacketIds) (received : List PacketInfo),
    received.map PacketInfo.id = ids →
    (∀ info ∈ received, records.toList.any (Bus.sameId info) = false) →
    discards records received = false

theorem savePacketId_eq_push (records : Vector PacketRecord b.maxRecentPacketIds)
    (info : PacketInfo) :
    Bus.savePacketId records info = Recent.push records (Bus.recordOf info) := rfl

theorem sameId_recordOf (info : PacketInfo) : Bus.sameId info (Bus.recordOf info) = true := by
  simp only [Bus.sameId, Bus.recordOf, BEq.rfl, Bool.true_and, Bool.and_true]
  cases has info.header modeBit <;> rfl

theorem id_eq_of_sameId {info : PacketInfo} {record : PacketRecord}
    (h : Bus.sameId info record = true) : info.id = record.id := by
  simp only [Bus.sameId, Bool.and_eq_true, beq_iff_eq] at h
  exact h.1.1

/-- Each record is one of `before`, or that of the packet received as many turns ago. -/
def Explained (before records : Vector PacketRecord b.maxRecentPacketIds)
    (seen : List PacketInfo) : Prop :=
  ∀ (p : Nat) (h : p < b.maxRecentPacketIds),
    (∃ hp : p < seen.length, records[p] = Bus.recordOf seen[p]) ∨ records[p] ∈ before.toList

theorem explained_save {before records : Vector PacketRecord b.maxRecentPacketIds}
    {seen : List PacketInfo} (info : PacketInfo) (h : Explained before records seen) :
    Explained before (Bus.savePacketId records info) (info :: seen) := by
  intro p hp
  cases p with
  | zero =>
      refine Or.inl ⟨by simp, ?_⟩
      rw [savePacketId_eq_push, Recent.push_zero _ _ b.recent_pos]
      rfl
  | succ p =>
      simp only [savePacketId_eq_push, Recent.push_succ records _ hp]
      rcases h p (by omega) with ⟨hseen, hrecord⟩ | hbefore
      · exact Or.inl ⟨by simpa using hseen, by simpa using hrecord⟩
      · exact Or.inr hbefore

/-- Nothing is discarded when an id differs from as many before it as there are
records. -/
theorem discards_eq_false {before : Vector PacketRecord b.maxRecentPacketIds}
    (received : List PacketInfo) :
    ∀ (seen : List PacketInfo) (records : Vector PacketRecord b.maxRecentPacketIds),
      Explained before records seen →
      Recent.DistinctWithin b.maxRecentPacketIds
        ((seen.reverse ++ received).map PacketInfo.id) →
      (∀ info ∈ received, before.toList.any (Bus.sameId info) = false) →
      discards records received = false := by
  induction received with
  | nil =>
      intro seen records _ _ _
      rfl
  | cons info received ih =>
      intro seen records hexplained hids hbefore
      have hnew : records.toList.any (Bus.sameId info) = false := by
        rw [Bool.eq_false_iff]
        intro hknown
        obtain ⟨p, hp, -, hsame⟩ := (Recent.any_iff_foundBelow records _).mp hknown
        rcases hexplained p hp with ⟨hseen, hrecord⟩ | hmem
        · rw [hrecord] at hsame
          have hid : info.id = seen[p].id := id_eq_of_sameId hsame
          have hne := hids (seen.length - 1 - p) seen.length (by omega) (by omega) (by simp)
          apply hne
          have hback : seen.length - 1 - (seen.length - 1 - p) = p := by omega
          rw [List.getElem?_map, List.getElem?_map,
            List.getElem?_append_left (by rw [List.length_reverse]; omega),
            List.getElem?_reverse (by omega), hback, List.getElem?_eq_getElem hseen,
            List.getElem?_append_right (by simp), List.length_reverse, Nat.sub_self,
            List.getElem?_cons_zero, Option.map_some, Option.map_some, hid]
        · have hnone := hbefore info (List.mem_cons_self ..)
          rw [List.any_eq_false] at hnone
          exact hnone _ hmem hsame
      have hanswer : Bus.knownPacketId records info = (false, Bus.savePacketId records info) := by
        rw [Bus.knownPacketId, if_neg (by simp [hnew])]
      rw [discards, hanswer, Bool.false_or]
      apply ih (info :: seen) _ (explained_save info hexplained)
      · rw [List.reverse_cons, List.append_assoc, List.singleton_append]
        exact hids
      · intro other hother
        exact hbefore other (List.mem_cons_of_mem _ hother)

theorem distinctWithin_generatedIds (bus : Bus b) (rs : List Request)
    (h : bus.packetIdSeed.toNat + generations bus rs ≤ 65536) :
    Recent.DistinctWithin b.maxRecentPacketIds (generatedIds bus rs) := by
  have hrecent := b.recent_lt
  intro i j hij hnear hj
  rw [generatedIds_eq, List.length_map, List.length_range] at hj
  rw [generatedIds_eq, List.getElem?_map, List.getElem?_map, List.getElem?_range (by omega),
    List.getElem?_range hj, Option.map_some, Option.map_some, ne_eq, Option.some.injEq,
    idAt_eq_iff _ hij (by omega)]
  omega

/-- Where the seed wraps, the id 1 comes twice in a row. -/
theorem ones_of_wrap (bus : Bus b) (rs : List Request)
    (h : 65536 < bus.packetIdSeed.toNat + generations bus rs) :
    ∃ before after, generatedIds bus rs = before ++ 1 :: 1 :: after := by
  have hseed := bus.packetIdSeed.toNat_lt
  have hlast (k : Nat) (hk : (bus.packetIdSeed.toNat + k) % 65536 = 65535 ∨
      (bus.packetIdSeed.toNat + k) % 65536 = 0) : idAt bus.packetIdSeed k = 1 := by
    apply UInt16.toNat_inj.mp
    rw [toNat_idAt]
    rcases hk with hlast | hfirst
    · rw [if_pos hlast]
      rfl
    · rw [if_neg (by omega), hfirst]
      rfl
  have hlength : (generatedIds bus rs).length = generations bus rs := by
    rw [generatedIds_eq, List.length_map, List.length_range]
  have hget (k : Nat) (hk : k < (generatedIds bus rs).length) :
      (generatedIds bus rs)[k] = idAt bus.packetIdSeed k := by
    simp only [generatedIds_eq, List.getElem_map, List.getElem_range]
  have hfirst : 65535 - bus.packetIdSeed.toNat < (generatedIds bus rs).length := by omega
  have hsecond : 65535 - bus.packetIdSeed.toNat + 1 < (generatedIds bus rs).length := by omega
  refine ⟨(generatedIds bus rs).take (65535 - bus.packetIdSeed.toNat),
    (generatedIds bus rs).drop (65535 - bus.packetIdSeed.toNat + 1 + 1), ?_⟩
  conv_lhs => rw [← List.take_append_drop (65535 - bus.packetIdSeed.toNat) (generatedIds bus rs)]
  rw [List.drop_eq_getElem_cons hfirst, List.drop_eq_getElem_cons hsecond, hget _ hfirst,
    hget _ hsecond, hlast _ (Or.inl (by omega)), hlast _ (Or.inr (by omega))]

/-- A packet that comes twice in a row is found in the records. -/
theorem discards_of_repeated (received : List PacketInfo) (info : PacketInfo)
    (later : List PacketInfo) (records : Vector PacketRecord b.maxRecentPacketIds) :
    discards records (received ++ info :: info :: later) = true := by
  induction received generalizing records with
  | nil =>
      rw [List.nil_append, discards, discards]
      by_cases hknown : records.toList.any (Bus.sameId info) = true
      · rw [Bus.knownPacketId, if_pos hknown, Bool.true_or]
      · have hfound : (Bus.savePacketId records info).toList.any (Bus.sameId info) = true := by
          rw [Recent.any_iff_foundBelow, savePacketId_eq_push]
          exact (Recent.foundBelow_push records b.recent_pos (sameId_recordOf info)).mono
            b.recent_pos
        have hfirst : Bus.knownPacketId records info =
            (false, Bus.savePacketId records info) := by
          rw [Bus.knownPacketId, if_neg hknown]
        rw [hfirst, Bus.knownPacketId, if_pos hfound]
        rfl
  | cons other received ih =>
      rw [List.cons_append, discards, ih, Bool.or_true]

theorem not_fresh_of_wrap (bus : Bus b) (rs : List Request)
    (h : 65536 < bus.packetIdSeed.toNat + generations bus rs) :
    ¬Fresh b (generatedIds bus rs) := by
  intro hfresh
  obtain ⟨before, after, hones⟩ := ones_of_wrap bus rs h
  -- a receiver whose records are as they were initialised
  have hnew : ∀ info ∈ (generatedIds bus rs).map (fun id => ({ id := id } : PacketInfo)),
      (Vector.replicate b.maxRecentPacketIds ({} : PacketRecord)).toList.any
        (Bus.sameId info) = false := by
    intro info hinfo
    obtain ⟨id, hid, rfl⟩ := List.mem_map.mp hinfo
    rw [List.any_eq_false]
    intro record hrecord hsame
    rw [Vector.toList_replicate] at hrecord
    have hzero : id = 0 := by
      have hid := id_eq_of_sameId hsame
      rw [List.eq_of_mem_replicate hrecord] at hid
      exact hid
    exact hfresh.nonzero id hid hzero
  have haccepted := hfresh.accepted _ _ (by rw [List.map_map]; exact List.map_id _) hnew
  rw [hones, List.map_append, List.map_cons, List.map_cons, discards_of_repeated] at haccepted
  exact Bool.noConfusion haccepted

/-- Generated ids are fresh exactly as long as the seed does not pass 65535. -/
theorem generatedIds_fresh_iff (bus : Bus b) (rs : List Request) :
    Fresh b (generatedIds bus rs) ↔ bus.packetIdSeed.toNat + generations bus rs ≤ 65536 := by
  constructor
  · intro hfresh
    by_contra hwrap
    exact not_fresh_of_wrap bus rs (by omega) hfresh
  · intro hsmall
    have hdistinct := distinctWithin_generatedIds bus rs hsmall
    refine ⟨?_, hdistinct.mono (Nat.sub_le _ _), ?_⟩
    · intro id hid
      rw [generatedIds_eq, List.mem_map] at hid
      obtain ⟨k, -, rfl⟩ := hid
      exact newPacketId_ne_zero _
    · intro records received hids hnew
      refine discards_eq_false received [] records ?_ ?_ hnew
      · intro p hp
        apply Or.inr
        rw [Vector.mem_toList_iff]
        exact Vector.getElem_mem hp
      · rwa [List.reverse_nil, List.nil_append, hids]

/-- Two packets composed by an instance whose seed is at its last value. -/
def twoRequests : List Request :=
  [{ info := { header := packetIdBit }, destination := fun _ => 0, source := ⟨[65], by decide⟩ },
    { info := { header := packetIdBit }, destination := fun _ => 0, source := ⟨[66], by decide⟩ }]

theorem twoRequests_not_fresh :
    generatedIds ({ packetIdSeed := 65535 } : Bus { includePacketId := true }) twoRequests =
      [1, 1] ∧
    ¬Fresh { includePacketId := true } (generatedIds
      ({ packetIdSeed := 65535 } : Bus { includePacketId := true }) twoRequests) := by
  have hgenerations : generations ({ packetIdSeed := 65535 } : Bus { includePacketId := true })
      twoRequests = 2 := by
    decide
  constructor
  · rw [generatedIds_eq, hgenerations]
    decide
  · apply not_fresh_of_wrap
    rw [hgenerations]
    decide

end Pjon.Proofs.PacketIds
