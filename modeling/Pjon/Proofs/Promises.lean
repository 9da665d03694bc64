import Pjon.Proofs.Destinations
import Pjon.Spec.Promises
/-!
# Acknowledged and dropped

A switch acknowledges in front of the first call of `forward`, whatever that call returns.
-/

namespace Pjon.Proofs.Promises

open Pjon.Lib Pjon.Model Pjon.Spec Pjon.Proofs.Forward Pjon.Proofs.Switch

variable {r : RouterBuild} {n : Nat} {σ : Type}

/-! ## A search in which nothing is hit -/

/-- What was forwarded before the search, or in an earlier turn, stays forwarded. -/
theorem mem_forwards_searchLoop {find : σ → UInt8 → Option (Fin n) × UInt8}
    {gateway : Option (Fin n)} {send : Nat → Option (Fin n) → Bool → σ → Routing σ n}
    {call : Forwarded n} (todo turn : Nat) (start : UInt8) {routing : Routing σ n}
    (h : call ∈ routing.forwards) :
    call ∈ (searchLoop find gateway send todo turn start routing).forwards := by
  have hturn : ∀ (turn : Nat) (start : UInt8) (routing : Routing σ n), call ∈ routing.forwards →
      call ∈ (routing.andThen fun state ackSent =>
        send turn ((find routing.state start).1.or gateway) ackSent state).forwards :=
    fun _ _ _ hmem => List.mem_append_left _ hmem
  exact @searchLoop_rule n σ (fun routing => call ∈ routing.forwards) find gateway send hturn todo
    turn start routing h

/-- As long as no visit is hit the object stays as the search found it, so the search hits nothing
if and only if no bus that it would visit then is hit. -/
theorem searchLoop_none_iff {p : Forwarded n → Prop} {inv : σ → Prop} {hit : Option (Fin n) → Prop}
    {find : σ → UInt8 → Option (Fin n) × UInt8} {gateway : Option (Fin n)}
    {send : Nat → Option (Fin n) → Bool → σ → Routing σ n}
    {found : UInt8 → Option (Fin n) × UInt8} (hfind : ∀ state, inv state → find state = found)
    (hhit : ∀ turn visit ackSent state, inv state → hit visit →
      ∃ call ∈ (send turn visit ackSent state).forwards, p call)
    (hmiss : ∀ turn visit ackSent state, inv state → ¬hit visit →
      inv (send turn visit ackSent state).state ∧
        ∀ call ∈ (send turn visit ackSent state).forwards, ¬p call) (todo : Nat) :
    ∀ (turn : Nat) (start : UInt8) (routing : Routing σ n), inv routing.state →
      (∀ call ∈ routing.forwards, ¬p call) →
      ((∀ call ∈ (searchLoop find gateway send todo turn start routing).forwards, ¬p call) ↔
        ∀ visit ∈ visits found gateway todo turn start, ¬hit visit.2) := by
  induction todo with
  | zero =>
      intro turn start routing _ hnone
      exact iff_of_true hnone fun visit hvisit => absurd hvisit List.not_mem_nil
  | succ todo ih =>
      intro turn start routing hinv hnone
      rw [searchLoop, visits, hfind _ hinv, List.forall_mem_cons]
      by_cases hfirst : hit ((found start).1.or gateway)
      · obtain ⟨call, hcall, hp⟩ := hhit turn _ routing.ackSent _ hinv hfirst
        have hmem : call ∈ (routing.andThen fun state ackSent =>
            send turn ((found start).1.or gateway) ackSent state).forwards :=
          List.mem_append_right _ hcall
        refine iff_of_false (fun hall => hall call ?_ hp) fun hall => hall.1 hfirst
        split_ifs
        · exact hmem
        · exact mem_forwards_searchLoop _ _ _ hmem
      · obtain ⟨hnext, hmissed⟩ := hmiss turn _ routing.ackSent _ hinv hfirst
        have hstill : ∀ call ∈ (routing.andThen fun state ackSent =>
            send turn ((found start).1.or gateway) ackSent state).forwards, ¬p call :=
          List.forall_mem_append.mpr ⟨hnone, hmissed⟩
        rw [and_iff_right hfirst]
        by_cases hend : (found start).2 = notAssigned
        · rw [if_pos hend, if_pos hend]
          exact iff_of_true hstill fun visit hvisit => absurd hvisit List.not_mem_nil
        · rw [if_neg hend, if_neg hend]
          exact ih _ _ _ hnext hstill

/-! ## One bus -/

section Bus

variable (bus : Bus r.toBuild) (info : PacketInfo) (payload : Payload)
  (surroundings : Surroundings)

/-- The fields of a packet that its length depends on. -/
theorem forwardedLength_eq {info info' : PacketInfo} (hheader : info'.header = info.header)
    (hport : info'.port = info.port) (hid : info'.rx.id = info.rx.id) :
    forwardedLength bus info' payload = forwardedLength bus info payload := by
  unfold forwardedLength Tools.measure Tools.startHeader Bus.completeInfo Bus.effectiveHeader
  dsimp only
  rw [hheader, hport, hid]

theorem id_translate (s : Switch r n) (i j : Fin n) (info : PacketInfo) :
    (s.translate i j info).rx.id = info.rx.id := by
  unfold Switch.translate
  dsimp only
  split_ifs <;> rfl

/-- The length does not depend on what is in the send buffer, or on packet ids. -/
theorem forwardedLength_congr {bus bus' : Bus r.toBuild} (h : SameSettings bus bus') :
    forwardedLength bus' info payload = forwardedLength bus info payload := by
  unfold forwardedLength Tools.measure Tools.startHeader Bus.completeInfo Bus.effectiveHeader
  dsimp only
  rw [h.config, h.port]

theorem dispatch_fails_iff {b : Build} (bus : Bus b) (info : PacketInfo) (payload : Payload)
    (timing now : UInt32) (hmax : b.maxPackets ≤ fail) :
    (bus.dispatch info payload timing now fail).result ≠ fail ↔
      HasRoom bus ∧ Frames.packetSize bus info payload < b.packetMaxLength ∧
        0 < Frames.packetSize bus info payload := by
  unfold Bus.dispatch
  cases hfind : bus.findSlot fail with
  | none =>
      apply iff_of_false (not_not_intro rfl)
      intro h
      obtain ⟨k, hk⟩ := exists_findSlot h.1
      exact Option.some_ne_none k (hk.symm.trans hfind)
  | some k =>
      have hroom : HasRoom bus := ⟨k, state_of_findSlot_fail hfind⟩
      rw [and_iff_right hroom]
      dsimp only
      rw [Frames.composePacket_result]
      split_ifs with hfits hzero hzero
      · exact iff_of_false (not_not_intro rfl) fun h => h.2.ne' hzero
      · exact iff_of_true (k.isLt.trans_le hmax).ne ⟨hfits, Nat.pos_of_ne_zero hzero⟩
      · exact iff_of_false (not_not_intro rfl) fun h => hfits h.1
      · exact absurd rfl hzero

/-- `forward` returns the index of a slot if and only if the bus can take the packet over. -/
theorem handOn_accepted_iff (hbuffer : r.maxPackets ≠ 0) (hmax : r.maxPackets ≤ fail) :
    (Switch.handOn bus info payload surroundings).result ≠ fail ↔
      TakesOver bus info payload := by
  have hpasses : Passes r.toBuild r.maxHops info ↔ WithinHops r.maxHops info := by
    rw [Passes, r.shared]
    simp
  rw [Switch.handOn, if_neg hbuffer, Bus.forward]
  by_cases hwithin : WithinHops r.maxHops info
  · have hcounted : counted r.toBuild info = { info with hops := info.hops + 1 } := by
      rw [counted, r.shared]
      rfl
    rw [forwardBy_of_passes _ _ _ _ (hpasses.mpr hwithin), hcounted]
    rw [dispatch_fails_iff _ _ _ _ _ hmax]
    exact ⟨fun h => ⟨hwithin, h.1, h.2.2, h.2.1⟩, fun h => ⟨h.room, h.fits, h.composed⟩⟩
  · rw [forwardBy_of_not_passes _ _ _ _ (mt hpasses.mp hwithin)]
    exact iff_of_false (not_not_intro rfl) fun h => hwithin h.hops

/-- What a bus cannot take over, it cannot take over after it has failed to do so either. -/
theorem not_takesOver_handOn (hbuffer : r.maxPackets ≠ 0) (hwithin : WithinHops r.maxHops info)
    (h : ¬TakesOver bus info payload) :
    ¬TakesOver (Switch.handOn bus info payload surroundings).bus info payload := by
  intro htakes
  have hlength := forwardedLength_congr info payload
    (sameSettings_handOn_of_keeps bus info payload surroundings (Or.inl hwithin))
  obtain ⟨_, ⟨k, hfree⟩, hcomposed, hfits⟩ := htakes
  rw [hlength] at hcomposed hfits
  refine h ⟨hwithin, ⟨k, ?_⟩, hcomposed, hfits⟩
  by_contra hused
  have hstays : (Bus.dispatch { bus with tx := info.tx } { info with hops := info.hops + 1 }
      payload 0 surroundings.now fail).bus.slot k = bus.slot k :=
    dispatch_slot_used _ payload 0 surroundings.now hused
  rw [handOn_of_within bus info payload surroundings hbuffer hwithin] at hfree
  exact hused ((congrArg Packet.state hstays).symm.trans hfree)

end Bus

/-! ## The receiver function -/

section ForwardPacket

variable {sendPacket : Fin n → Bool → σ → Routing σ n} {visit : Option (Fin n)}
  {currentBus : Fin n}

theorem forwardPacket_of_other {i : Fin n} (hi : i ≠ currentBus) (ackSent : Bool) (state : σ) :
    forwardPacket sendPacket (some i) currentBus ackSent state = sendPacket i ackSent state :=
  if_neg hi

theorem forwardPacket_of_none (h : ¬∃ i, visit = some i ∧ i ≠ currentBus) (ackSent : Bool)
    (state : σ) :
    forwardPacket sendPacket visit currentBus ackSent state =
      { state := state, ackSent := ackSent } := by
  cases visit with
  | none => rfl
  | some i =>
      have hi : i = currentBus := by
        by_contra hne
        exact h ⟨i, rfl, hne⟩
      exact if_pos hi

end ForwardPacket

section ReceiverFunction

variable (s : Switch r n) (currentBus : Fin n) (payload : Payload) (info : PacketInfo)
  (surroundings : Nat → Surroundings)

theorem mem_reached {i : Fin n} {target : Vector UInt8 4} :
    i ∈ reached s target ↔ s.busId i = target ∨
      s.defaultGateway = some i ∧ ¬∃ last : Fin n, last.val = 254 ∧ s.busId last = target := by
  rw [reached, List.mem_append, Search.mem_matchesFrom, withId, beq_iff_eq,
    and_iff_right (Nat.zero_le _), eq_comm]
  apply or_congr_right
  by_cases hend : EndsEarly s target
  · rw [if_pos hend]
    exact iff_of_false List.not_mem_nil fun h => h.2 hend
  · rw [if_neg hend, Option.mem_toList]
    exact (and_iff_left hend).symm

/-- The buses that the search would come to in `s`, but for the one that the packet is from. -/
theorem forall_visits_iff (p : Fin n → Prop) :
    (∀ visit ∈ visits (s.findAttachedBusWithId (targetOf info)) s.defaultGateway 256 0 0,
        ¬∃ i, visit.2 = some i ∧ i ≠ currentBus ∧ p i) ↔
      ¬∃ i, ForwardsTo s currentBus (targetOf info) i ∧ p i := by
  have hvisited (i : Fin n) :
      (∃ visit ∈ visits (s.findAttachedBusWithId (targetOf info)) s.defaultGateway 256 0 0,
        visit.2 = some i) ↔ s.busId i = targetOf info ∨
          s.defaultGateway = some i ∧
            ¬∃ last : Fin n, last.val = 254 ∧ s.busId last = targetOf info := by
    rw [← mem_reached, ← filterMap_visits, List.mem_filterMap]
  constructor
  · rintro hnone ⟨i, ⟨hi, hforwards⟩, hp⟩
    obtain ⟨visit, hvisit, hsome⟩ := (hvisited i).mpr hforwards
    exact hnone visit hvisit ⟨i, hsome, hi, hp⟩
  · rintro hnone visit hvisit ⟨i, hsome, hi, hp⟩
    exact hnone ⟨i, ⟨hi, (hvisited i).mp ⟨visit, hvisit, hsome⟩⟩, hp⟩

/-- The receiver function makes no call of `forward` with `p` if and only if no bus that it would
forward the packet to is hit, as long as missing a bus changes nothing that counts. -/
theorem receiverFunction_none_iff {p : Forwarded n → Prop} {inv : Switch r n → Prop}
    {hit : Fin n → Prop} (hinv : inv s)
    (hfind : ∀ s', inv s' → s'.findAttachedBusWithId (targetOf info) =
      s.findAttachedBusWithId (targetOf info))
    (hhit : ∀ turn i ackSent s', inv s' → i ≠ currentBus → hit i →
      ∃ call ∈ (Switch.sendPacket payload currentBus info (surroundings turn) i ackSent
        s').forwards, p call)
    (hmiss : ∀ turn i ackSent s', inv s' → i ≠ currentBus → ¬hit i →
      inv (Switch.sendPacket payload currentBus info (surroundings turn) i ackSent s').state ∧
        ∀ call ∈ (Switch.sendPacket payload currentBus info (surroundings turn) i ackSent
          s').forwards, ¬p call) :
    (∀ call ∈ (s.receiverFunction currentBus payload info surroundings).forwards, ¬p call) ↔
      ¬∃ i, ForwardsTo s currentBus (targetOf info) i ∧ hit i := by
  have hturnHit : ∀ turn (visit : Option (Fin n)) ackSent s', inv s' →
      (∃ i, visit = some i ∧ i ≠ currentBus ∧ hit i) →
        ∃ call ∈ (forwardPacket (Switch.sendPacket payload currentBus info (surroundings turn))
          visit currentBus ackSent s').forwards, p call := by
    rintro turn _ ackSent s' hs' ⟨i, rfl, hi, hit⟩
    rw [forwardPacket_of_other hi]
    exact hhit turn i ackSent s' hs' hi hit
  have hturnMiss : ∀ turn (visit : Option (Fin n)) ackSent s', inv s' →
      ¬(∃ i, visit = some i ∧ i ≠ currentBus ∧ hit i) →
        inv (forwardPacket (Switch.sendPacket payload currentBus info (surroundings turn)) visit
          currentBus ackSent s').state ∧
        ∀ call ∈ (forwardPacket (Switch.sendPacket payload currentBus info (surroundings turn))
          visit currentBus ackSent s').forwards, ¬p call := by
    intro turn visit ackSent s' hs' hnot
    by_cases hother : ∃ i, visit = some i ∧ i ≠ currentBus
    · obtain ⟨i, rfl, hi⟩ := hother
      rw [forwardPacket_of_other hi]
      exact hmiss turn i ackSent s' hs' hi fun hit => hnot ⟨i, rfl, hi, hit⟩
    · rw [forwardPacket_of_none hother]
      exact ⟨hs', fun call hcall => absurd hcall List.not_mem_nil⟩
  exact (searchLoop_none_iff hfind hturnHit hturnMiss 256 0 0 { state := s } hinv
    fun call hcall => absurd hcall List.not_mem_nil).trans (forall_visits_iff s currentBus info hit)

/-- Nothing is forwarded if and only if there is no other bus to forward to. -/
theorem forwards_eq_nil_iff :
    (s.receiverFunction currentBus payload info surroundings).forwards = [] ↔
      ¬∃ i, ForwardsTo s currentBus (targetOf info) i := by
  have hfind : ∀ s' : Switch r n, s = s' → s'.findAttachedBusWithId (targetOf info) =
      s.findAttachedBusWithId (targetOf info) := by
    rintro s' rfl
    rfl
  have hhit : ∀ turn i ackSent (s' : Switch r n), s = s' → i ≠ currentBus → True →
      ∃ call ∈ (Switch.sendPacket payload currentBus info (surroundings turn) i ackSent
        s').forwards, True :=
    fun turn i ackSent s' _ _ _ => ⟨_, List.mem_singleton_self _, trivial⟩
  have hmiss : ∀ turn i ackSent (s' : Switch r n), s = s' → i ≠ currentBus → ¬True →
      s = (Switch.sendPacket payload currentBus info (surroundings turn) i ackSent s').state ∧
        ∀ call ∈ (Switch.sendPacket payload currentBus info (surroundings turn) i ackSent
          s').forwards, ¬True :=
    fun turn i ackSent s' _ _ hnot => absurd trivial hnot
  have hnone :=
    receiverFunction_none_iff s currentBus payload info surroundings rfl hfind hhit hmiss
  rw [List.eq_nil_iff_forall_not_mem]
  simpa using hnone

/-- The flag is raised with the first call of `forward`. -/
theorem ackSent_receiverFunction (hrequested : has info.header ackReqBit = true)
    (hunicast : info.rx.id ≠ broadcast) :
    (s.receiverFunction currentBus payload info surroundings).ackSent = true ↔
      (s.receiverFunction currentBus payload info surroundings).forwards ≠ [] := by
  refine dynamicReceiverFunction_rule
    (fun routing : Routing (Switch r n) n => routing.ackSent = true ↔ routing.forwards ≠ [])
    currentBus info (iff_of_false Bool.false_ne_true (not_not_intro rfl))
    fun turn i routing _ _ _ => ?_
  have hraised : (routing.andThen fun s ackSent => Switch.sendPacket payload currentBus info
      (surroundings turn) i ackSent s).ackSent = true := by
    have hother : (info.rx.id != broadcast) = true := bne_iff_ne.mpr hunicast
    simp [Routing.andThen, Switch.sendPacket, hrequested, hother]
  apply iff_of_true hraised
  exact List.append_ne_nil_of_right_ne_nil _ (List.cons_ne_nil _ _)

/-- The buses of `s'` have the settings of those of `s`, and can take the packet over if those
can. -/
structure SameOffers (s' : Switch r n) : Prop where
  buses : SameBuses s s'
  takes : ∀ i, i ≠ currentBus →
    (TakesOver (s'.bus i) (s.translate i currentBus info) payload ↔
      TakesOver (s.bus i) (s.translate i currentBus info) payload)

/-- A call of `forward` returns an index if and only if a bus that the packet is forwarded to can
take it over. -/
theorem accepted_receiverFunction_iff (hbuffer : r.maxPackets ≠ 0) (hmax : r.maxPackets ≤ fail) :
    (∃ call ∈ (s.receiverFunction currentBus payload info surroundings).forwards,
        call.result ≠ fail) ↔
      ∃ i, ForwardsTo s currentBus (targetOf info) i ∧
        TakesOver (s.bus i) (s.translate i currentBus info) payload := by
  have hresult (turn i ackSent) (s' : Switch r n) :
      (∃ call ∈ (Switch.sendPacket payload currentBus info (surroundings turn) i ackSent
          s').forwards, call.result ≠ fail) ↔
        TakesOver (s'.bus i) (s'.translate i currentBus info) payload := by
    rw [← handOn_accepted_iff (s'.bus i) _ payload (surroundings turn) hbuffer hmax]
    constructor
    · rintro ⟨call, hcall, haccepted⟩
      rwa [List.mem_singleton.mp hcall] at haccepted
    · exact fun haccepted => ⟨_, List.mem_singleton_self _, haccepted⟩
  by_cases hwithin : WithinHops r.maxHops info
  · -- a bus that fails to take the packet over does not come to be able to
    have hfind : ∀ s', SameOffers s currentBus payload info s' →
        s'.findAttachedBusWithId (targetOf info) = s.findAttachedBusWithId (targetOf info) :=
      fun s' hs' => funext fun start => hs'.buses.find _ start
    have hhit : ∀ turn i ackSent s', SameOffers s currentBus payload info s' → i ≠ currentBus →
        TakesOver (s.bus i) (s.translate i currentBus info) payload →
        ∃ call ∈ (Switch.sendPacket payload currentBus info (surroundings turn) i ackSent
          s').forwards, call.result ≠ fail := by
      intro turn i ackSent s' hs' hi htakes
      rw [hresult, hs'.buses.translate]
      exact (hs'.takes i hi).mpr htakes
    have hmiss : ∀ turn i ackSent s', SameOffers s currentBus payload info s' → i ≠ currentBus →
        ¬TakesOver (s.bus i) (s.translate i currentBus info) payload →
        SameOffers s currentBus payload info
            (Switch.sendPacket payload currentBus info (surroundings turn) i ackSent s').state ∧
          ∀ call ∈ (Switch.sendPacket payload currentBus info (surroundings turn) i ackSent
            s').forwards, ¬call.result ≠ fail := by
      intro turn i ackSent s' hs' hi htakes
      have hnot : ¬TakesOver (s'.bus i) (s.translate i currentBus info) payload :=
        mt (hs'.takes i hi).mp htakes
      refine ⟨⟨hs'.buses.trans
        (sameBuses_sendPacket s' payload currentBus info _ i ackSent hwithin), fun j hj => ?_⟩, ?_⟩
      · by_cases hij : i = j
        · subst hij
          rw [sendPacket_bus, hs'.buses.translate]
          exact iff_of_false (not_takesOver_handOn _ _ payload _ hbuffer hwithin hnot) htakes
        · rw [sendPacket_bus_ne _ _ _ _ _ _ _ hij]
          exact hs'.takes j hj
      · have hnone :=
          mt (hresult turn i ackSent s').mp (hs'.buses.translate i currentBus info ▸ hnot)
        exact fun call hcall haccepted => hnone ⟨call, hcall, haccepted⟩
    have hnone := receiverFunction_none_iff s currentBus payload info surroundings
      ⟨SameBuses.refl s, fun _ _ => Iff.rfl⟩ hfind hhit hmiss
    rw [← not_iff_not, ← hnone]
    simp only [not_exists, not_and]
  · have hall : ∀ call ∈ (s.receiverFunction currentBus payload info surroundings).forwards,
        ¬call.result ≠ fail := by
      refine dynamicReceiverFunction_rule
        (fun routing : Routing (Switch r n) n => ∀ call ∈ routing.forwards, ¬call.result ≠ fail)
        currentBus info (fun call hcall => absurd hcall List.not_mem_nil)
        fun turn i routing _ _ hbefore => ?_
      have hnone := mt (hresult turn i routing.ackSent routing.state).mp fun h => hwithin h.hops
      exact List.forall_mem_append.mpr
        ⟨hbefore, fun call hcall haccepted => hnone ⟨call, hcall, haccepted⟩⟩
    exact iff_of_false (fun ⟨call, hcall, haccepted⟩ => hall call hcall haccepted)
      fun ⟨i, _, htakes⟩ => hwithin htakes.hops

end ReceiverFunction

/-! ## A packet that comes in -/

/-- The MAC addresses of a packet are nothing to the bus that takes it over. -/
theorem takesOver_withoutMacs (bus : Bus r.toBuild) (s : Switch r n) (i currentBus : Fin n)
    (info : PacketInfo) (payload : Payload) :
    TakesOver bus (s.translate i currentBus (withoutMacs info)) payload ↔
      TakesOver bus (s.translate i currentBus info) payload := by
  have hlength : forwardedLength bus (s.translate i currentBus (withoutMacs info)) payload =
      forwardedLength bus (s.translate i currentBus info) payload := by
    refine forwardedLength_eq bus payload rfl rfl ?_
    rw [id_translate, id_translate]
    rfl
  constructor
  · exact fun h => ⟨h.hops, h.room, hlength ▸ h.composed, hlength ▸ h.fits⟩
  · exact fun h => ⟨h.hops, h.room, hlength.symm ▸ h.composed, hlength.symm ▸ h.fits⟩

theorem forwardsTo_congr {s s' : Switch r n} (h : SameBuses s s') {currentBus : Fin n}
    {target : Vector UInt8 4} {i : Fin n} :
    ForwardsTo s' currentBus target i ↔ ForwardsTo s currentBus target i := by
  simp only [ForwardsTo, h.busId, h.defaultGateway]

/-- What the receiver function acknowledges, by whether it forwards the packet. -/
theorem acknowledgements_receiverFunction (s : Switch r n) (currentBus : Fin n) (payload : Payload)
    (info : PacketInfo) (surroundings : Nat → Surroundings)
    (hrequested : has info.header ackReqBit = true) (hunicast : info.rx.id ≠ broadcast) :
    acknowledgements (s.receiverFunction currentBus payload info surroundings) =
      if ∃ i, ForwardsTo s currentBus (targetOf info) i then [currentBus] else [] := by
  have hcounts : CountsAcks currentBus false
      (s.receiverFunction currentBus payload info surroundings) :=
    countsAcks_dynamicReceiverFunction _ info _ fun turn i ackSent s =>
      countsAcks_sendPacket payload info _ i ackSent s
  have hraised :=
    ackSent_receiverFunction s currentBus payload info surroundings hrequested hunicast
  rw [Ne, forwards_eq_nil_iff, not_not] at hraised
  rw [hcounts.acknowledged, Bool.not_false, Bool.true_and]
  exact if_congr hraised rfl rfl

/-- A switch acknowledges a packet for one device that asks for it exactly if it has taken the
packet over, as long as there is no other bus to forward it to or one of these can take it over. -/
theorem keepsPromise_iff (s : Switch r n) (currentBus : Fin n) (delivery : Delivery)
    (surroundings : Nat → Surroundings) (hconnected : Connected s)
    (hdelivered : Delivered (s.bus currentBus) delivery.bytes)
    (hbuffer : 0 < r.maxPackets ∧ r.maxPackets ≤ fail)
    (hrequested : has (infoOf (s.bus currentBus) delivery.bytes).header ackReqBit = true)
    (hunicast : (infoOf (s.bus currentBus) delivery.bytes).rx.id ≠ broadcast) :
    KeepsPromise currentBus (s.receive currentBus delivery surroundings) ↔
      (¬∃ i, ForwardsTo s currentBus
          (targetOf (infoOf (s.bus currentBus) delivery.bytes)) i) ∨
        ∃ i, ForwardsTo s currentBus (targetOf (infoOf (s.bus currentBus) delivery.bytes)) i ∧
          TakesOver (s.bus i)
            (s.translate i currentBus (infoOf (s.bus currentBus) delivery.bytes))
            (delivered hdelivered) := by
  obtain ⟨info, hinfo, -, hreceive⟩ := receive_eq hconnected hdelivered surroundings
  have hsame := SameBuses.receive s currentBus delivery
  have hheader : (withoutMacs info).header =
      (withoutMacs (infoOf (s.bus currentBus) delivery.bytes)).header := by
    rw [hinfo]
  have hid : (withoutMacs info).rx.id =
      (withoutMacs (infoOf (s.bus currentBus) delivery.bytes)).rx.id := by
    rw [hinfo]
  have htarget : targetOf info = targetOf (infoOf (s.bus currentBus) delivery.bytes) := by
    rw [← targetOf_withoutMacs, hinfo, targetOf_withoutMacs]
  have hrequested' : has info.header ackReqBit = true :=
    (congrArg (fun header => has header ackReqBit) hheader).trans hrequested
  have hunicast' : info.rx.id ≠ broadcast := hid.trans_ne hunicast
  have hacks := acknowledgements_receiverFunction
    (s.setBus currentBus ((s.bus currentBus).receive delivery).bus) currentBus
    (delivered hdelivered) info surroundings hrequested' hunicast'
  have haccepted := accepted_receiverFunction_iff
    (s.setBus currentBus ((s.bus currentBus).receive delivery).bus) currentBus
    (delivered hdelivered) info surroundings hbuffer.1.ne' hbuffer.2
  have htakes (i : Fin n) (hi : i ≠ currentBus) :
      TakesOver ((s.setBus currentBus ((s.bus currentBus).receive delivery).bus).bus i)
          ((s.setBus currentBus ((s.bus currentBus).receive delivery).bus).translate i currentBus
            info) (delivered hdelivered) ↔
        TakesOver (s.bus i) (s.translate i currentBus
          (infoOf (s.bus currentBus) delivery.bytes)) (delivered hdelivered) := by
    rw [hsame.translate, Switch.bus_setBus_ne _ _ hi.symm, ← takesOver_withoutMacs, hinfo,
      takesOver_withoutMacs]
  have hforwards (i : Fin n) :
      ForwardsTo (s.setBus currentBus ((s.bus currentBus).receive delivery).bus) currentBus
          (targetOf info) i ↔
        ForwardsTo s currentBus (targetOf (infoOf (s.bus currentBus) delivery.bytes)) i := by
    rw [forwardsTo_congr hsame, htarget]
  have hshown : acknowledgements (s.receive currentBus delivery surroundings) =
      if ∃ i, ForwardsTo s currentBus (targetOf (infoOf (s.bus currentBus) delivery.bytes)) i then
        [currentBus] else [] := by
    rw [hreceive, acknowledgements_andThen, hacks]
    simp only [hforwards]
    rfl
  have htaken : (∃ call ∈ (s.receive currentBus delivery surroundings).forwards,
      call.result ≠ fail) ↔
        ∃ i, ForwardsTo s currentBus (targetOf (infoOf (s.bus currentBus) delivery.bytes)) i ∧
          TakesOver (s.bus i) (s.translate i currentBus
            (infoOf (s.bus currentBus) delivery.bytes)) (delivered hdelivered) := by
    have hsent : (s.receive currentBus delivery surroundings).forwards =
        (Switch.receiverFunction (s.setBus currentBus ((s.bus currentBus).receive delivery).bus)
          currentBus (delivered hdelivered) info surroundings).forwards := by
      rw [hreceive]
      rfl
    rw [hsent, haccepted]
    apply exists_congr
    intro i
    rw [hforwards]
    exact and_congr_right fun hto => htakes i hto.1
  have hne : [currentBus] ≠ [] := List.cons_ne_nil _ _
  rw [KeepsPromise, hshown, ← htaken]
  by_cases haccepts : ∃ call ∈ (s.receive currentBus delivery surroundings).forwards,
      call.result ≠ fail
  · have hto : ∃ i, ForwardsTo s currentBus
        (targetOf (infoOf (s.bus currentBus) delivery.bytes)) i := by
      obtain ⟨i, hto, -⟩ := htaken.mp haccepts
      exact ⟨i, hto⟩
    rw [if_pos hto, if_pos haccepts]
    exact iff_of_true rfl (Or.inr haccepts)
  · rw [if_neg haccepts, or_iff_left haccepts]
    by_cases hto : ∃ i, ForwardsTo s currentBus
        (targetOf (infoOf (s.bus currentBus) delivery.bytes)) i
    · rw [if_pos hto]
      exact iff_of_false hne fun hnone => hnone hto
    · rw [if_neg hto]
      exact iff_of_true rfl hto

/-! ## Two letters for the second bus -/

/-- A letter to device 45 of bus 0.0.0.2 that asks for an acknowledgement. -/
def freshLetter : Delivery := ⟨[45, 5, 11, 242, 0, 0, 0, 2, 0, 65, 56], fun _ => 50⟩

/-- The letter behind as many hops as there may be. -/
def travelledLetter : Delivery := ⟨[45, 5, 11, 242, 0, 0, 0, 2, 15, 65, 229], fun _ => 50⟩

theorem delivered_freshLetter :
    Delivered ((Destinations.threeBuses none).bus Destinations.firstBus) freshLetter.bytes := by
  have hcalls : calls (((Destinations.threeBuses none).bus Destinations.firstBus).receive
      freshLetter) = true := by
    decide +kernel
  exact delivered_of_calls hcalls

theorem delivered_travelledLetter :
    Delivered ((Destinations.threeBuses none).bus Destinations.firstBus)
      travelledLetter.bytes := by
  have hcalls : calls (((Destinations.threeBuses none).bus Destinations.firstBus).receive
      travelledLetter) = true := by
    decide +kernel
  exact delivered_of_calls hcalls

theorem routing_buffered :
    0 < Destinations.routing.maxPackets ∧ Destinations.routing.maxPackets ≤ fail := by
  decide

theorem keepsPromise_iff_freshLetter :
    KeepsPromise Destinations.firstBus
        ((Destinations.threeBuses none).receive Destinations.firstBus freshLetter fun _ => {}) ↔
      (¬∃ i, ForwardsTo (Destinations.threeBuses none) Destinations.firstBus
          (targetOf (infoOf ((Destinations.threeBuses none).bus Destinations.firstBus)
            freshLetter.bytes)) i) ∨
        ∃ i, ForwardsTo (Destinations.threeBuses none) Destinations.firstBus
            (targetOf (infoOf ((Destinations.threeBuses none).bus Destinations.firstBus)
              freshLetter.bytes)) i ∧
          TakesOver ((Destinations.threeBuses none).bus i)
            ((Destinations.threeBuses none).translate i Destinations.firstBus
              (infoOf ((Destinations.threeBuses none).bus Destinations.firstBus)
                freshLetter.bytes)) (delivered delivered_freshLetter) :=
  keepsPromise_iff _ _ _ _ (Destinations.connected_threeBuses none) delivered_freshLetter
    routing_buffered (by decide +kernel) (by decide +kernel)

/-- The letter that has come to its last hop is acknowledged, and then not forwarded. -/
theorem last_hop_acknowledged :
    ¬ ∀ (r : RouterBuild) (n : Nat) (s : Switch r n) (currentBus : Fin n) (delivery : Delivery)
      (surroundings : Nat → Surroundings), Connected s →
      Delivered (s.bus currentBus) delivery.bytes → 0 < r.maxPackets ∧ r.maxPackets ≤ fail →
      has (infoOf (s.bus currentBus) delivery.bytes).header ackReqBit = true →
      (infoOf (s.bus currentBus) delivery.bytes).rx.id ≠ broadcast →
      KeepsPromise currentBus (s.receive currentBus delivery surroundings) := by
  intro h
  have hbroken : ¬KeepsPromise Destinations.firstBus
      ((Destinations.threeBuses none).receive Destinations.firstBus travelledLetter
        fun _ => {}) := by
    decide +kernel
  exact hbroken (h _ _ _ _ travelledLetter _ (Destinations.connected_threeBuses none)
    delivered_travelledLetter routing_buffered (by decide +kernel) (by decide +kernel))

end Pjon.Proofs.Promises
