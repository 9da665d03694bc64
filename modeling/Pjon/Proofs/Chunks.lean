import Pjon.Spec.Chunks
import Pjon.Proofs.MetaData
/-!
# Chunks do not matter, but for what is behind the packet

The loop examines a byte when it is there and looks at none behind it, so its verdict is that of
the bytes.  What the chunks decide is how much of what arrives behind the packet gets into `data`,
and `parse_header` looks there for the MAC addresses of a packet that has none.
-/

namespace Pjon.Proofs.Chunks

open Pjon.Lib Pjon.Model Pjon.Spec
open Pjon.Proofs.Filter Pjon.Proofs.Receive Pjon.Proofs.Deliver Pjon.Proofs.MetaData

variable {b : Build}

/-! ## The code -/

section Code

variable (bus : Bus b) (hmin : 4 ≤ b.packetMaxLength) (hmax : b.packetMaxLength < 65536)

include hmin hmax

omit hmax in
theorem loop_turns (delivery : Delivery) :
    (∃ st, bus.receiveLoop delivery b.packetMaxLength 0
          { data := bus.data, length := b.packetMaxLength } = .ok st ∧
        Settled delivery.bytes st ∧ LengthOk b delivery.bytes ∧
        ∀ k < encodedLength delivery.bytes,
          k < delivery.bytes.length ∧ Passes bus delivery.bytes k) ∨
      ∃ k data, bus.receiveLoop delivery b.packetMaxLength 0
          { data := bus.data, length := b.packetMaxLength } =
            .error (refusal delivery.bytes k, data) ∧
        k < lastTurn b delivery.bytes ∧
        ¬(k < delivery.bytes.length ∧ Passes bus delivery.bytes k) ∧
        ∀ j < k, j < delivery.bytes.length ∧ Passes bus delivery.bytes j := by
  rcases receiveLoop_turns (fun _ _ => True) hmin (fun _ _ _ _ _ _ _ _ _ _ _ => trivial)
    (scanned_start bus delivery.bytes bus.data) trivial with
    ⟨st, hrun, hscan, -, hok, hall⟩ | herror
  · exact Or.inl ⟨st, hrun, settled_of_scanned hok hscan, hok, hall⟩
  · exact Or.inr herror

omit hmin in
/-- The code of a packet that passes the loop, but is not taken. -/
theorem result_of_settled {delivery : Delivery} {st : LoopState}
    (hrun : bus.receiveLoop delivery b.packetMaxLength 0
      { data := bus.data, length := b.packetMaxLength } = .ok st)
    (hsettled : Settled delivery.bytes st) (hok : LengthOk b delivery.bytes)
    (hall : ∀ k < encodedLength delivery.bytes,
      k < delivery.bytes.length ∧ Passes bus delivery.bytes k)
    (hnot : ¬Admissible bus delivery.bytes) :
    (bus.receive delivery).result = if Bus.checksumsMatch st then busy else nak := by
  have hstart : b.packetMaxLength % 65536 = b.packetMaxLength := Nat.mod_eq_of_lt hmax
  have hparts := (passes_all_iff bus delivery.bytes).mp ⟨hok, hall⟩
  have hheader := (rejectsHeader_eq_false_iff bus delivery.bytes).mp hparts.2.2.1
  have hsmall := hok.maxLength
  simp only [Bus.receive, hstart, hrun]
  cases hsum : Bus.checksumsMatch st with
  | false => rfl
  | true =>
      have hmac : bus.rejectsMac st = true := by
        by_contra hpasses
        rw [Bool.not_eq_true] at hpasses
        apply hnot
        rw [admissible_iff]
        exact ⟨hparts,
          (checksumsMatch_iff (five_le_of_lengthOk hok) hparts.2.1 hsettled (by omega)).mp hsum,
          (rejectsMac_eq_false_iff hok hsettled hheader.2.2.2.1 hheader.2.2.2.2.2.2.1).mp hpasses⟩
      rw [hmac]
      rfl

/-- What is not admissible is turned down with the same code. -/
theorem result_of_not_admissible {delivery delivery' : Delivery}
    (hsame : delivery'.bytes = delivery.bytes) (hnot : ¬Admissible bus delivery.bytes) :
    (bus.receive delivery).result = (bus.receive delivery').result := by
  have hstart : b.packetMaxLength % 65536 = b.packetMaxLength := Nat.mod_eq_of_lt hmax
  rcases loop_turns bus hmin delivery with
    ⟨st, hrun, hsettled, hok, hall⟩ | ⟨k, data, hrun, hk, hrefused, hbefore⟩
  · rcases loop_turns bus hmin delivery' with
      ⟨st', hrun', hsettled', -, -⟩ | ⟨k', data', -, hk', hrefused', -⟩
    · have hparts := (passes_all_iff bus delivery.bytes).mp ⟨hok, hall⟩
      have hsmall := hok.maxLength
      have hsums : Bus.checksumsMatch st = Bus.checksumsMatch st' := by
        rw [Bool.eq_iff_iff, checksumsMatch_iff (five_le_of_lengthOk hok) hparts.2.1 hsettled
            (by omega), checksumsMatch_iff (five_le_of_lengthOk hok) hparts.2.1
              (hsame ▸ hsettled') (by omega)]
      rw [result_of_settled bus hmax hrun hsettled hok hall hnot, hsums,
        result_of_settled bus hmax hrun' hsettled' (hsame ▸ hok) (hsame ▸ hall)
          (hsame ▸ hnot)]
    · rw [hsame] at hk' hrefused'
      rw [lastTurn, if_pos hok] at hk'
      exact absurd (hall k' hk') hrefused'
  · rcases loop_turns bus hmin delivery' with
      ⟨st', -, -, hok', hall'⟩ | ⟨k', data', hrun', -, hrefused', hbefore'⟩
    · rw [hsame] at hok' hall'
      rw [lastTurn, if_pos hok'] at hk
      exact absurd (hall' k hk) hrefused
    · rw [hsame] at hrun' hrefused' hbefore'
      have hturn : k = k' := by
        rcases Nat.lt_trichotomy k k' with hlt | heq | hlt
        · exact absurd (hbefore' k hlt) hrefused
        · exact heq
        · exact absurd (hbefore k' hlt) hrefused'
      simp only [Bus.receive, hstart, hrun, hrun', hturn]

end Code

/-! ## What is in the buffer behind the packet -/

/-- What has not been fetched is as it was, and no more is fetched than there is room for. -/
structure Beyond (old : Memory) (room i : Nat) (st : LoopState) : Prop where
  stale : ∀ k, i + st.batchLength ≤ k → st.data k = old k
  bounded : i + st.batchLength ≤ room

theorem fetch_beyond {delivery : Delivery} {old : Memory} {room i : Nat}
    {st fetched st' : LoopState} (h : Beyond old room i st) (hlength : st.length ≤ room)
    (hi : i < st.length)
    (hfetch : Bus.fetch delivery i st = .ok fetched) (hdata : st'.data = fetched.data)
    (hbatch : st'.batchLength = fetched.batchLength) : Beyond old room (i + 1) st' := by
  rw [Bus.fetch] at hfetch
  by_cases hempty : st.batchLength = 0
  · simp only [if_pos hempty] at hfetch
    set chunk := delivery.receiveFrame i (st.length - i) with hchunk
    have hwithin : chunk.length ≤ st.length - i := by
      rw [hchunk, Delivery.receiveFrame, List.length_take]
      omega
    split_ifs at hfetch with hnone
    obtain rfl := Except.ok.inj hfetch
    rw [not_or] at hnone
    simp only at hdata hbatch
    refine ⟨fun k hk => ?_, by omega⟩
    rw [hdata, Memory.store_outside _ _ _ (Or.inr (by omega))]
    exact h.stale k (by omega)
  · rw [if_neg hempty] at hfetch
    obtain rfl := Except.ok.inj hfetch
    simp only at hdata hbatch
    have hroom := h.bounded
    refine ⟨fun k hk => ?_, by omega⟩
    rw [hdata]
    exact h.stale k (by omega)

/-- While the loop goes on, its limit is within the buffer. -/
theorem length_le_of_scanned {bus : Bus b} {s : List UInt8} {i : Nat} {st : LoopState}
    (h : Scanned bus s i st) (hread : 2 + shift s < i → LengthOk b s) :
    st.length ≤ b.packetMaxLength := by
  rw [h.length]
  by_cases hearly : i ≤ 2 + shift s
  · rw [if_pos hearly]
  · have hok := hread (by omega)
    rw [if_neg hearly]
    exact hok.maxLength.le

theorem beyond_start (bus : Bus b) :
    Beyond bus.data b.packetMaxLength 0 { data := bus.data, length := b.packetMaxLength } where
  stale _ _ := rfl
  bounded := Nat.zero_le _

section Reached

variable (bus : Bus b) (hmin : 4 ≤ b.packetMaxLength) (hmax : b.packetMaxLength < 65536)

include hmin hmax

/-- What is parsed of an admissible packet: its bytes, what has come with them, and behind that
what was there before. -/
theorem deliver_beyond {delivery : Delivery} (h : Admissible bus delivery.bytes) :
    ∃ st, bus.receive delivery = bus.deliver st ∧
      Scanned bus delivery.bytes (encodedLength delivery.bytes) st ∧
      Beyond bus.data b.packetMaxLength (encodedLength delivery.bytes) st := by
  obtain ⟨st, hscan, hbeyond, hrun⟩ := receive_of_admissible_kept bus delivery hmin hmax
    (Beyond bus.data b.packetMaxLength)
    (fun i st fetched st' hscan hturn hread hkept hfetch hdata hbatch =>
      fetch_beyond hkept (length_le_of_scanned hscan hread) hturn hfetch hdata hbatch)
    (beyond_start bus) h
  exact ⟨st, hrun, hscan, hbeyond⟩

end Reached

/-! ## A first chunk of a given length -/

/-- The first chunk has `n` bytes, and the loop is still busy with it. -/
def FirstChunk (n i : Nat) (st : LoopState) : Prop :=
  if i = 0 then st.batchLength = 0 else i + st.batchLength = n

theorem fetch_firstChunk {s : List UInt8} {n i : Nat} {st fetched st' : LoopState}
    (h : FirstChunk n i st) (hi : i < n) (hlength : n ≤ s.length) (hfail : n < fail)
    (hroom : i = 0 → n ≤ st.length) (hfetch : Bus.fetch ⟨s, fun _ => n⟩ i st = .ok fetched)
    (hbatch : st'.batchLength = fetched.batchLength) : FirstChunk n (i + 1) st' := by
  rw [FirstChunk, if_neg (Nat.succ_ne_zero i), hbatch]
  by_cases hzero : i = 0
  · subst hzero
    rw [FirstChunk, if_pos rfl] at h
    have hwithin := hroom rfl
    have hchunk : (Delivery.receiveFrame ⟨s, fun _ => n⟩ 0 (st.length - 0)).length = n := by
      simp only [Delivery.receiveFrame, List.length_take, List.drop_zero]
      omega
    simp only [Bus.fetch, if_pos h, hchunk] at hfetch
    rw [if_neg (by omega)] at hfetch
    obtain rfl := Except.ok.inj hfetch
    simp only
    omega
  · rw [FirstChunk, if_neg hzero] at h
    rw [Bus.fetch, if_neg (by omega)] at hfetch
    obtain rfl := Except.ok.inj hfetch
    simp only
    omega

section Chunk

variable (bus : Bus b) (hmin : 4 ≤ b.packetMaxLength) (hmax : b.packetMaxLength < 65536)

include hmin hmax

/-- As much as is in the first chunk is in the buffer when the packet is parsed. -/
theorem deliver_firstChunk {s : List UInt8} (h : Admissible bus s) {n : Nat}
    (hpacket : encodedLength s ≤ n) (hlength : n ≤ s.length) (hroom : n ≤ b.packetMaxLength)
    (hfail : n < fail) :
    ∃ st, bus.receive ⟨s, fun _ => n⟩ = bus.deliver st ∧ Settled s st ∧
      (∀ k < n, st.data k = byte s k) ∧ ∀ k, n ≤ k → st.data k = bus.data k := by
  have hok : LengthOk b s := ⟨h.overhead, h.maxLength, h.longCrc⟩
  have hfive := five_le_of_lengthOk hok
  have hshift := shift_le s
  obtain ⟨st, hscan, ⟨hbeyond, hfirst⟩, hrun⟩ := receive_of_admissible_kept bus
    ⟨s, fun _ => n⟩ hmin hmax
    (fun i st => Beyond bus.data b.packetMaxLength i st ∧ FirstChunk n i st)
    (fun i st fetched st' hscan hturn hread hkept hfetch hdata hbatch => by
      refine ⟨fetch_beyond hkept.1 (length_le_of_scanned hscan hread) hturn hfetch hdata hbatch,
        fetch_firstChunk hkept.2 ?_ hlength hfail (fun hzero => ?_) hfetch hbatch⟩
      · have hlimit := hscan.length
        simp only at hlimit
        split_ifs at hlimit <;> omega
      · rw [hscan.length, if_pos (by omega)]
        exact hroom)
    ⟨beyond_start bus, rfl⟩ h
  have hne : ¬encodedLength s = 0 := by omega
  rw [FirstChunk, if_neg hne] at hfirst
  simp only at hfirst hscan hbeyond
  refine ⟨st, hrun, settled_of_scanned hok hscan, fun k hk => hscan.data k (by omega),
    fun k hk => hbeyond.stale k (by omega)⟩

end Chunk

/-! ## The info decides -/

theorem sameReception_of_caused {bus : Bus b} {s : List UInt8} {info info' : PacketInfo}
    {outcome outcome' : Outcome b} (h : Caused bus s info outcome)
    (h' : Caused bus s info' outcome') :
    SameReception outcome outcome' ↔ info = info' := by
  have hlast : outcome.bus.lastPacketInfo = info :=
    congrArg (fun bus => bus.lastPacketInfo) h.bus_eq
  have hlast' : outcome'.bus.lastPacketInfo = info' :=
    congrArg (fun bus => bus.lastPacketInfo) h'.bus_eq
  constructor
  · intro hsame
    rw [← hlast, ← hlast', hsame.lastPacketInfo]
  · rintro rfl
    exact ⟨h.result.trans h'.result.symm, h.events.trans h'.events.symm,
      hlast.trans hlast'.symm, h.records.trans h'.records.symm⟩

theorem vector_inj {m m' : Memory} {start n : Nat} (h : m.vector start n = m'.vector start n)
    {i : Nat} (hi : i < n) : m (start + i) = m' (start + i) := by
  have hread := congrArg (fun v : Vector UInt8 n => v.toList.getD i 0) h
  simpa [Memory.vector, List.getD_eq_getElem?_getD, hi] using hread

/-- Two infos with the same MAC addresses are parsed of the same bytes there. -/
theorem mac_of_parse {bus : Bus b} {m m' : Memory} (hmac : b.includeMac = true)
    (hheader : m 1 = m' 1) (h : bus.parse m = bus.parse m') {k : Nat}
    (hk : Tools.macIndex b (m 1) ≤ k ∧ k < Tools.macIndex b (m 1) + 12) : m k = m' k := by
  have hrx := congrArg (fun info : PacketInfo => info.rx.mac) h
  have htx := congrArg (fun info : PacketInfo => info.tx.mac) h
  simp only [Bus.parse, Tools.parseHeader, Tools.parseRx, Tools.parseTx, if_pos hmac,
    ← hheader] at hrx htx
  by_cases hfirst : k < Tools.macIndex b (m 1) + 6
  · obtain ⟨i, rfl⟩ := Nat.exists_eq_add_of_le hk.1
    exact vector_inj hrx (by omega)
  · obtain ⟨i, rfl⟩ := Nat.exists_eq_add_of_le (Nat.le_of_not_lt hfirst)
    exact vector_inj htx (by omega)

/-! ## Chunks -/

section ChunkFree

variable (bus : Bus b) (hmin : 4 ≤ b.packetMaxLength) (hmax : b.packetMaxLength < 65536)

omit hmin hmax in
/-- What is read behind the packet is as it was, where the chunks cannot change it. -/
theorem data_of_stale {s : List UInt8} {st : LoopState}
    (hscan : Scanned bus s (encodedLength s) st)
    (hbeyond : Beyond bus.data b.packetMaxLength (encodedLength s) st) {k : Nat}
    (hsame : k < s.length → k < b.packetMaxLength → byte s k = bus.data k) :
    st.data k = bus.data k := by
  have havailable := hscan.available
  have hbounded := hbeyond.bounded
  by_cases hfetched : k < encodedLength s + st.batchLength
  · rw [hscan.data k hfetched]
    exact hsame (by omega) (by omega)
  · exact hbeyond.stale k (by omega)

include hmin hmax

theorem sameReception_of_stale {delivery delivery' : Delivery}
    (hbytes : delivery'.bytes = delivery.bytes) (h : Admissible bus delivery.bytes)
    (hsame : ∀ k, ReadBehind b delivery.bytes k → byte delivery.bytes k = bus.data k) :
    SameReception (bus.receive delivery) (bus.receive delivery') := by
  have hok : LengthOk b delivery.bytes := ⟨h.overhead, h.maxLength, h.longCrc⟩
  have hoverhead := hok.overhead
  have hmacIndex := macIndex_le b (header delivery.bytes)
  obtain ⟨st, hrun, hscan, hbeyond⟩ := deliver_beyond bus hmin hmax h
  obtain ⟨st', hrun', hscan', hbeyond'⟩ := deliver_beyond bus hmin hmax (hbytes ▸ h)
  rw [hbytes] at hscan' hbeyond'
  have hsettled := settled_of_scanned hok hscan
  have hsettled' := settled_of_scanned hok hscan'
  have hheader := settled_header (five_le_of_lengthOk hok) hsettled
  rw [hrun, hrun', sameReception_of_caused (deliver_caused hok h.packetId hsettled)
    (deliver_caused hok h.packetId hsettled')]
  have hparse : Tools.parseHeader b st.data = Tools.parseHeader b st'.data := by
    apply parseHeader_of_reads
    intro k hk
    rw [hheader] at hk
    by_cases hpacket : k < encodedLength delivery.bytes
    · rw [hsettled.data k hpacket, hsettled'.data k hpacket]
    · have hlast := lt_parsedLength hk
      unfold Tools.parsedLength at hlast
      have hinclude : b.includeMac = true := by
        by_contra hnone
        rw [if_neg hnone] at hlast
        omega
      rw [if_pos hinclude] at hlast
      have hstale : k < delivery.bytes.length → k < b.packetMaxLength →
          byte delivery.bytes k = bus.data k := fun harrives hfits =>
        hsame k ⟨hinclude, by omega, ⟨by omega, hlast⟩, harrives, hfits⟩
      rw [data_of_stale bus hscan hbeyond hstale,
        data_of_stale bus hscan' hbeyond' hstale]
  rw [Bus.parse, Bus.parse, hparse]

theorem sameReception_of_not_admissible {delivery delivery' : Delivery}
    (hbytes : delivery'.bytes = delivery.bytes) (h : ¬Admissible bus delivery.bytes) :
    SameReception (bus.receive delivery) (bus.receive delivery') := by
  have hresult := result_of_not_admissible bus hmin hmax hbytes h
  obtain ⟨code, data, hrun, -⟩ := receive_of_not_admissible bus delivery hmin hmax h
  obtain ⟨code', data', hrun', -⟩ :=
    receive_of_not_admissible bus delivery' hmin hmax (hbytes ▸ h)
  rw [hrun, hrun'] at hresult ⊢
  exact ⟨hresult, rfl, rfl, rfl⟩

/-- A chunk that ends with the packet, and one that ends behind a byte that is read there. -/
theorem stale_of_chunkFree {s : List UInt8} (hfree : ChunkFree bus s) (h : Admissible bus s)
    {k : Nat} (hread : ReadBehind b s k) : byte s k = bus.data k := by
  have hok : LengthOk b s := ⟨h.overhead, h.maxLength, h.longCrc⟩
  have hmaxLength := h.maxLength
  have hmacIndex := macIndex_le b (header s)
  have hoverhead := packetOverhead_le (header s)
  have hfail : fail = 65535 := rfl
  have harrives := hread.arrives
  have hfits := hread.fits
  have hlast := hread.mac.2
  obtain ⟨st, hrun, hsettled, -, hstale⟩ := deliver_firstChunk bus hmin hmax h (Nat.le_refl _)
    h.complete hmaxLength.le (by omega)
  obtain ⟨st', hrun', hsettled', hfetched, -⟩ := deliver_firstChunk bus hmin hmax h
    (Nat.le_succ_of_le hread.behind) harrives hfits (by omega)
  have hheader := settled_header (five_le_of_lengthOk hok) hsettled
  have hheader' := settled_header (five_le_of_lengthOk hok) hsettled'
  have hsame := hfree ⟨s, fun _ => encodedLength s⟩ ⟨s, fun _ => k + 1⟩ rfl rfl
  rw [hrun, hrun', sameReception_of_caused (deliver_caused hok h.packetId hsettled)
    (deliver_caused hok h.packetId hsettled')] at hsame
  have hbyte := mac_of_parse hread.includeMac (hheader.trans hheader'.symm) hsame
    (hheader.symm ▸ hread.mac)
  rw [hstale k hread.behind, hfetched k (Nat.lt_succ_self k)] at hbyte
  exact hbyte.symm

end ChunkFree

/-- The chunks do not matter exactly if nothing that differs from what was in the buffer before
arrives where MAC addresses are read behind the packet. -/
theorem chunkFree_iff (bus : Bus b) (hmin : 4 ≤ b.packetMaxLength)
    (hmax : b.packetMaxLength < 65536) (s : List UInt8) :
    ChunkFree bus s ↔ (Admissible bus s → ∀ k, ReadBehind b s k → byte s k = bus.data k) := by
  constructor
  · intro hfree hadmissible k hread
    exact stale_of_chunkFree bus hmin hmax hfree hadmissible hread
  · intro hsame delivery delivery' hbytes hbytes'
    subst hbytes
    by_cases hadmissible : Admissible bus delivery.bytes
    · exact sameReception_of_stale bus hmin hmax hbytes' hadmissible (hsame hadmissible)
    · exact sameReception_of_not_admissible bus hmin hmax hbytes' hadmissible

theorem chunkFree_iff_broadcast : ChunkFree ({} : Bus {}) [0, 0, 6, 101, 65, 90, 1] :=
  (chunkFree_iff ({} : Bus {}) (by decide) (by decide) [0, 0, 6, 101, 65, 90, 1]).mpr
    fun _ _ hread => absurd hread.includeMac (by decide)

/-- A letter and a byte that arrives behind it. -/
def trailing : List UInt8 := plainLetter 65 229 ++ [1]

/-- Whether the byte is in the MAC address of the recipient depends on the chunks. -/
theorem trailing_parsed : ¬∀ s, encodedLength s ≤ s.length →
    ChunkFree ({ tx := { id := 45 } } : Bus macBuild) s := by
  intro h
  have hsame := h trailing (by decide) ⟨trailing, fun _ => 1⟩ ⟨trailing, fun _ => 8⟩ rfl rfl
  exact absurd hsame.lastPacketInfo (by decide +kernel)

end Pjon.Proofs.Chunks
