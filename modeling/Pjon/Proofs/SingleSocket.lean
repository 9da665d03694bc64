import Pjon.Proofs.SocketPackets
/-!
# What a single socket carries

What either end writes in an exchange is known from the calls.  So each end follows a script, in
which the packets that it has received and the calls that it has returned from are counted; the
script of one end is what the other one writes.
-/

namespace Pjon.Proofs.SingleSocket

open Pjon.Lib Pjon.Lib.Interleaving Pjon.Model Pjon.Model.EthernetTCP Pjon.Spec

/-! ## Scripts of the parts -/

section Scripts

variable {I : List LinkEvent → List UInt8 → List UInt8 → Prop}

/-- `I` is true as long as no more than `incoming` is to be read and no less than `outgoing` is to
be written, also if the connection is lost. -/
structure Throughout (I : List LinkEvent → List UInt8 → List UInt8 → Prop)
    (events lost : List LinkEvent) (incoming outgoing : List UInt8) : Prop where
  here : ∀ {toRead toWrite : List UInt8}, toRead.length ≤ incoming.length →
    outgoing.length ≤ toWrite.length → I events toRead toWrite
  loss : ∀ {toRead toWrite : List UInt8}, toRead.length ≤ incoming.length →
    outgoing.length ≤ toWrite.length → I (events ++ lost) toRead toWrite

variable {events lost : List LinkEvent} {incoming outgoing : List UInt8}

theorem Throughout.mono {incoming' outgoing' : List UInt8}
    (h : Throughout I events lost incoming outgoing) (hread : incoming'.length ≤ incoming.length)
    (hwrite : outgoing.length ≤ outgoing'.length) :
    Throughout I events lost incoming' outgoing' where
  here := fun hr hw => h.here (hr.trans hread) (hwrite.trans hw)
  loss := fun hr hw => h.loss (hr.trans hread) (hwrite.trans hw)

/-- Some of it has been read. -/
theorem Throughout.read {items : List UInt8}
    (h : Throughout I events lost (items ++ incoming) outgoing) :
    Throughout I events lost incoming outgoing :=
  h.mono (by rw [List.length_append]; omega) le_rfl

/-- More of it is still to be written. -/
theorem Throughout.unwritten (h : Throughout I events lost incoming outgoing) (items : List UInt8) :
    Throughout I events lost incoming (items ++ outgoing) :=
  h.mono le_rfl (by rw [List.length_append]; omega)

section

variable {calls : Bool → List LinkEvent}
  {Q : Bool → List LinkEvent → List UInt8 → List UInt8 → Prop}

theorem writeItems_follows (items : List UInt8) (hlost : calls false = lost)
    (h : Throughout I events lost incoming outgoing) (hQ : Q true events incoming outgoing) :
    (Process.writeItems items).Follows I calls Q events incoming (items ++ outgoing) := by
  have hwrite : ∀ count ≤ items.length, outgoing.length ≤ ((items ++ outgoing).drop count).length :=
    fun count hcount => by
      rw [List.length_drop, List.length_append]
      omega
  refine ⟨h.here le_rfl (hwrite 0 (Nat.zero_le _)), fun count hcount => ?_,
    List.prefix_append _ _, ?_⟩
  · have hloss := h.loss le_rfl (hwrite count hcount.le)
    rw [← hlost] at hloss
    exact hloss
  · rw [List.drop_left]
    exact hQ

theorem readUntilHeader_follows (header : UInt32) (hlost : calls false = lost)
    (h : Throughout I events lost (Word.bytes (Word.swap header) ++ incoming) outgoing)
    (hQ : Q true events incoming outgoing) :
    (Talk.readUntilHeader header).Follows I calls Q events
      (Word.bytes (Word.swap header) ++ incoming) outgoing := by
  have hloss := h.loss le_rfl (le_refl outgoing.length)
  rw [← hlost] at hloss
  refine ⟨h.here le_rfl le_rfl, hloss, List.prefix_append _ _, ?_⟩
  rw [List.drop_left]
  exact hQ

end

theorem readItems_follows {calls : List UInt8 → List LinkEvent}
    {Q : List UInt8 → List LinkEvent → List UInt8 → List UInt8 → Prop} (items : List UInt8)
    {count : Nat} (hcount : items.length = count)
    (hlost : ∀ short, short.length < count → calls short = lost)
    (h : Throughout I events lost (items ++ incoming) outgoing)
    (hQ : Q items events incoming outgoing) :
    (Process.readItems count).Follows I calls Q events (items ++ incoming) outgoing := by
  subst hcount
  refine ⟨h.here le_rfl le_rfl, fun short hshort => ?_, ?_, ?_⟩
  · have hloss := h.loss le_rfl (le_refl outgoing.length)
    rw [← hlost short hshort] at hloss
    exact hloss
  · rw [List.length_append]
    exact Nat.le_add_right _ _
  · rw [List.take_left, List.drop_left]
    exact hQ

theorem readWord_follows {calls : Bool → List LinkEvent}
    {Q : Bool → List LinkEvent → List UInt8 → List UInt8 → Prop} (word : UInt32)
    (hlost : calls false = lost)
    (h : Throughout I events lost (Word.bytes (Word.swap word) ++ incoming) outgoing)
    (hQ : Q true events incoming outgoing) :
    (Talk.readWord word).Follows I calls Q events (Word.bytes (Word.swap word) ++ incoming)
      outgoing := by
  refine Process.follows_bind (readItems_follows (Word.bytes (Word.swap word)) rfl ?_ h ?_)
  · intro short hshort
    show calls (decide (short.length = 4) && _) = lost
    rw [decide_eq_false (Nat.ne_of_lt hshort), Bool.false_and, hlost]
  · have hword : (decide ((Word.bytes (Word.swap word)).length = 4) &&
        Word.store 0 0 (Word.bytes (Word.swap word)) == Word.swap word) = true := by
      rw [Word.store_bytes, beq_self_eq_true]
      rfl
    show Q (decide _ && _) events incoming outgoing
    rw [hword]
    exact hQ

/-! ## Packets -/

variable {settings : Settings} {call : TransferCall}

/-- A packet that is neither empty nor too long. -/
structure Sendable (settings : Settings) (call : TransferCall) : Prop where
  nonempty : 0 < call.length
  fits : call.length ≤ settings.maxPacketSize
  short : call.length < 32768

theorem Sendable.toNat_length (h : Sendable settings call) :
    (UInt32.ofNat call.length).toNat = call.length :=
  UInt32.toNat_ofNat_of_lt' (h.short.trans (by decide))

theorem Sendable.length_ne_zero (h : Sendable settings call) : UInt32.ofNat call.length ≠ 0 := by
  intro heq
  have hnat := h.toNat_length
  rw [heq] at hnat
  exact absurd hnat (Nat.ne_of_lt h.nonempty)

theorem receive_follows {calls : Nat → List LinkEvent}
    {Q : Nat → List LinkEvent → List UInt8 → List UInt8 → Prop} (hcall : Sendable settings call)
    (hfail : calls fail = lost) (hack : calls ack = lost)
    (h : Throughout I events lost (frame call ++ incoming) outgoing)
    (hreceived : Throughout I (events ++ [callback call]) lost (frame call ++ incoming) outgoing)
    (hQ : Q ack (events ++ [callback call]) incoming outgoing) :
    (Talk.receive settings).Follows I calls Q events (frame call ++ incoming)
      ([0, 6] ++ outgoing) := by
  have hlength : Word.swap (Word.store 0 0 ((packetHead call).drop 1)) =
      UInt32.ofNat call.length := by
    rw [packetHead, List.drop_succ_cons, List.drop_zero, Word.store_bytes, Word.swap_swap]
  have hnot : ¬((packetHead call).length ≠ 5 ∨ UInt32.ofNat call.length = 0 ∨
      settings.maxPacketSize < (UInt32.ofNat call.length).toNat) := by
    rw [hcall.toNat_length]
    rintro (hshort | hzero | hlong)
    · exact hshort rfl
    · exact hcall.length_ne_zero hzero
    · exact absurd hlong (Nat.not_lt.mpr hcall.fits)
  have hcount : (call.contents.getD []).length = (UInt32.ofNat call.length).toNat % 65536 := by
    rw [hcall.toNat_length]
    exact (Nat.mod_eq_of_lt (hcall.short.trans (by decide))).symm
  have hcontents : ¬((call.contents.getD []).length : Int).bmod 65536 % 4294967296 ≠
      (UInt32.ofNat call.length).toNat := by
    have hbound := hcall.short
    rw [hcall.toNat_length]
    change ¬((call.length : Int).bmod 65536 % 4294967296 ≠ call.length)
    rw [EthernetLink.bmod_of_lt hbound]
    omega
  unfold frame at h hreceived ⊢
  simp only [List.append_assoc] at h hreceived ⊢
  have h₀ := h.unwritten [0, 6]
  refine Process.follows_bind (readUntilHeader_follows etcpHeader hfail h₀ ?_)
  have h₁ := h₀.read
  refine Process.follows_bind (readItems_follows (packetHead call) rfl ?_ h₁ ?_)
  · intro short hshort
    simp only [if_pos (Or.inl (Nat.ne_of_lt hshort))]
    exact hfail
  simp only [hlength]
  rw [if_neg hnot]
  refine Process.follows_bind (readItems_follows (call.contents.getD []) hcount ?_ h₁.read ?_)
  · intro short hshort
    have hwrong : (short.length : Int).bmod 65536 % 4294967296 ≠
        (UInt32.ofNat call.length).toNat := by
      have hbound := hcall.short
      rw [← hcount] at hshort
      change short.length < call.length at hshort
      rw [EthernetLink.bmod_of_lt (hshort.trans hbound), hcall.toNat_length]
      omega
    simp only [if_pos hwrong]
    exact hfail
  rw [if_neg hcontents]
  refine Process.follows_bind (readWord_follows etcpFooter hfail h₁.read.read ?_)
  have hlost : Throughout I events (callback call :: lost) incoming outgoing := by
    refine ⟨h.read.read.read.read.here, fun hread hwrite => ?_⟩
    have hloss := hreceived.read.read.read.read.loss hread hwrite
    rw [List.append_assoc] at hloss
    exact hloss
  refine Process.follows_bind (writeItems_follows [0, 6] ?_ hlost ?_)
  · show callback call :: calls ack = callback call :: lost
    rw [hack]
  · exact ⟨hlost.here le_rfl le_rfl, hQ⟩

theorem writeAll_follows {calls : Bool → List LinkEvent}
    {Q : Bool → List LinkEvent → List UInt8 → List UInt8 → Prop} (writes : List (List UInt8))
    (hlost : calls false = lost) (h : Throughout I events lost incoming outgoing)
    (hQ : Q true events incoming outgoing) :
    (Talk.writeAll writes).Follows I calls Q events incoming (writes.flatten ++ outgoing) := by
  induction writes with
  | nil => exact hQ
  | cons items rest ih =>
      rw [List.flatten_cons, List.append_assoc]
      exact Process.follows_bind (writeItems_follows items hlost (h.unwritten _) ih)

theorem numPackets_pos : 0 < call.numPackets ↔ 0 < call.length := by
  unfold TransferCall.numPackets
  split <;> simp_all

/-- A call without a packet, or with one that can be sent. -/
structure Admissible (settings : Settings) (call : TransferCall) : Prop where
  fits : call.length ≤ settings.maxPacketSize
  short : call.length < 32768

section

variable {calls : Bool → List LinkEvent}
  {Q : Bool → List LinkEvent → List UInt8 → List UInt8 → Prop}

theorem receivePackets_follows (hcall : Admissible settings call) (hfalse : calls false = lost)
    (htrue : calls true = lost)
    (h : Throughout I events lost (frameOf call ++ incoming) outgoing)
    (hreceived : Throughout I (events ++ callbackOf call) lost (frameOf call ++ incoming) outgoing)
    (hQ : Q true (events ++ callbackOf call) incoming outgoing) :
    (Talk.receivePackets settings call.numPackets.toNat).Follows I calls Q events
      (frameOf call ++ incoming) (ackOf call ++ outgoing) := by
  unfold frameOf callbackOf ackOf TransferCall.numPackets at *
  by_cases hlength : 0 < call.length
  · simp only [if_pos hlength] at *
    exact Process.follows_bind
      (receive_follows ⟨hlength, hcall.fits, hcall.short⟩ hfalse htrue h hreceived hQ)
  · simp only [if_neg hlength, List.append_nil] at *
    exact hQ

end

theorem readNumPackets_follows {calls : Bool × UInt8 → List LinkEvent}
    {Q : Bool × UInt8 → List LinkEvent → List UInt8 → List UInt8 → Prop} (number : UInt8)
    (hlost : calls (false, 0) = lost) (h : Throughout I events lost ([number] ++ incoming) outgoing)
    (hQ : Q (true, number) events incoming outgoing) :
    (Talk.readNumPackets true).Follows I calls Q events ([number] ++ incoming) outgoing := by
  refine Process.follows_bind (readItems_follows [number] rfl (fun short hshort => ?_) h hQ)
  obtain rfl : short = [] := List.length_eq_zero_iff.mp (Nat.lt_one_iff.mp hshort)
  exact hlost

/-! ## Transfers -/

variable {near far : TransferCall} {calls : Bool × UInt8 → List LinkEvent}
  {Q : Bool × UInt8 → List LinkEvent → List UInt8 → List UInt8 → Prop}

/-- What the initiator writes, and what the other end does. -/
def masterScript (near far : TransferCall) : List UInt8 :=
  Word.bytes (Word.swap singleSocketHeader) ++ [near.numPackets] ++ frameOf near ++ ackOf far ++
    Word.bytes (Word.swap singleSocketFooter)

def slaveScript (near far : TransferCall) : List UInt8 :=
  ackOf far ++ [near.numPackets] ++ frameOf near

end Scripts

/-! ## Sessions -/

variable {settings : Settings} {remote : UInt8} {side : Side}

/-- What a side writes in an exchange. -/
def written (side : Side) (exchange : PacketExchange settings remote) : List UInt8 :=
  if side = .left then masterScript (exchange.calls side) (exchange.calls side.other)
  else slaveScript (exchange.calls side) (exchange.calls side.other)

/-- What a side writes when there is no connection yet. -/
def greeting (side : Side) (connected : Bool) : List UInt8 :=
  if connected || side == .right then [] else Word.bytes (Word.swap connectionHeaderAAck)

theorem greeting_right (connected : Bool) : greeting .right connected = [] := by
  cases connected <;> rfl

/-- What the receiver is called with in an exchange. -/
theorem callbackOf_eq (call : TransferCall) : callbackOf call =
    (parcel call).toList.map fun packet => .received packet.1 packet.2 := by
  unfold callbackOf parcel
  split <;> rfl

theorem establish_follows {events lost : List LinkEvent} {incoming outgoing : List UInt8}
    {I : List LinkEvent → List UInt8 → List UInt8 → Prop} {calls : Bool → List LinkEvent}
    {Q : Bool → List LinkEvent → List UInt8 → List UInt8 → Prop} (side : Side) (connected : Bool)
    (hlost : calls false = lost)
    (h : Throughout I events lost (greeting side.other connected ++ incoming) outgoing)
    (hQ : Q true events incoming outgoing) :
    (Talk.establish (side == .left) connected).Follows I calls Q events
      (greeting side.other connected ++ incoming) (greeting side connected ++ outgoing) := by
  cases connected with
  | true => exact hQ
  | false =>
      cases side with
      | left => exact writeItems_follows _ hlost h hQ
      | right => exact readWord_follows _ hlost h hQ

/-- The result of a call that goes well. -/
def resultOf (near far : TransferCall) : Nat :=
  if near.contents.isNone && far.numPackets == 0 then fail else ack

theorem history_eq (exchange : PacketExchange settings remote) : exchange.history side =
    callbackOf (exchange.calls side.other) ++
      [.returned (resultOf (exchange.calls side) (exchange.calls side.other))] := by
  have hnone : ((exchange.calls side.other).numPackets == 0) =
      (parcel (exchange.calls side.other)).isNone := by
    unfold TransferCall.numPackets parcel
    split <;> rfl
  rw [callbackOf_eq, resultOf, hnone]
  rfl

/-- One exchange: the initiator has a packet of one byte. -/
def oneByte : PacketExchange {} 5 where
  calls
    | .left => { id := 5, contents := some [1] }
    | .right => { id := 0, contents := none }
  toRemote := rfl
  fits := by rintro (_ | _) <;> decide
  short := by rintro (_ | _) <;> decide

end Pjon.Proofs.SingleSocket
