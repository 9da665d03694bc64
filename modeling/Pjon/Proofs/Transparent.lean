import Pjon.Proofs.Canonical
import Pjon.Proofs.Destinations
import Pjon.Proofs.HandOn
import Pjon.Spec.Routing
import Mathlib.Data.List.Chain
/-!
# Routing is transparent

A switch does not copy the packets that it forwards, it parses and composes them.  Where no
address is translated, what it puts in a send buffer is the packet that came in, one hop
further.
-/

namespace Pjon.Proofs.Transparent

open Pjon.Lib Pjon.Model Pjon.Model.Tools Pjon.Spec
open Pjon.Proofs.Layout Pjon.Proofs.RoundTrip Pjon.Proofs.Interop Pjon.Proofs.Recompose
open Pjon.Proofs.Receive Pjon.Proofs.Canonical Pjon.Proofs.HandOn Pjon.Proofs.Destinations

variable {b : Build}

/-! ## The packet with another hop count -/

section Frame

variable {receiver : Bus b} {s : List UInt8} {info : PacketInfo} {payload : Payload}

/-- A frame that is accepted up to its end is all that is compared with. -/
theorem closingCrc_eq (hadm : Admissible receiver s) :
    closingCrc (header s) (s.take (encodedLength s - crcOverhead (header s))) =
      Memory.load (byte s) (encodedLength s - crcOverhead (header s)) (crcOverhead (header s)) := by
  have hend := hadm.endCrc
  rw [closingCrc, crcOverhead]
  split_ifs at hend ⊢ with hcrc
  · exact hend.symm
  · rw [← hend]
    rfl

/-- A local packet has no hop count to change. -/
theorem withHops_local (hadm : Admissible receiver s) (hmode : has (header s) modeBit = false)
    (hops : UInt8) : withHops s hops = s.take (encodedLength s) := by
  have hover := hadm.overhead
  have hge := packetOverhead_ge (header s)
  have hcrc := Frames.crcOverhead_le (header s)
  have hcomplete := hadm.complete
  have hload : Memory.load (byte s) 0 (encodedLength s) = s.take (encodedLength s) :=
    load_eq_take hcomplete fun _ _ => rfl
  have hbody : Memory.load (byte s) 0 (encodedLength s - crcOverhead (header s)) =
      s.take (encodedLength s - crcOverhead (header s)) :=
    load_eq_take (by omega) fun _ _ => rfl
  have hlength : encodedLength s =
      (encodedLength s - crcOverhead (header s)) + crcOverhead (header s) := by omega
  rw [withHops, hmode, ← hload]
  simp only [Bool.false_eq_true, if_false]
  rw [closingCrc_eq hadm]
  conv_rhs => rw [hlength, Memory.load_append, hbody, Nat.zero_add]

variable (hadm : Admissible receiver s) (h : Seen receiver s info)
  (hexplicit : Explicit receiver s) (hpayload : payload.bytes = payloadOf s)
  (hshared : b.pjonLocal = false)

include hadm h hexplicit hpayload hshared

/-- What the packet carries when its hop count has changed. -/
theorem recovers_withHops (hops : UInt8) :
    header (withHops s hops) = header s ∧ encodedLength (withHops s hops) = encodedLength s ∧
      payloadOf (withHops s hops) = payloadOf s ∧
      Recovers { info with hops := hops } (header s) (infoOf receiver (withHops s hops)) := by
  rw [← bytesOf_seen hadm h hexplicit hpayload hshared hops]
  exact recovers_resent hadm hexplicit hpayload hshared (resent_seen h hops) receiver

theorem withHops_withHops (hops hops' : UInt8) :
    withHops (withHops s hops) hops' = withHops s hops' := by
  obtain ⟨hheader, hlength, -, -⟩ := recovers_withHops hadm h hexplicit hpayload hshared hops
  have hcomplete := hadm.complete
  have htake : (withHops s hops).take (encodedLength s - crcOverhead (header s)) =
      if has (header s) modeBit then
        (s.take (encodedLength s - crcOverhead (header s))).set (hopsIndex (header s)) hops
      else s.take (encodedLength s - crcOverhead (header s)) := by
    rw [withHops]
    apply List.take_left'
    split_ifs
    · rw [List.length_set, List.length_take]
      omega
    · rw [List.length_take]
      omega
  rw [withHops, hheader, hlength, htake, withHops]
  split_ifs
  · rw [List.set_set]
  · rfl

end Frame

/-! ## Programs that are compiled in other ways -/

section Builds

variable {b b' : Build} {s : List UInt8} (hshared : b.pjonLocal = false)
  (hshared' : b'.pjonLocal = false)

include hshared

theorem supports_of_admissible {bus : Bus b} (hadm : Admissible bus s) : b.Supports (header s) :=
  ⟨hadm.packetId, hadm.port, hadm.mac, fun _ => hshared⟩

include hshared'

/-- Builds that have what a header asks for find its fields in the same places. -/
theorem index_eq {header : UInt8} (hsup : b.Supports header) (hsup' : b'.Supports header) :
    idIndex b header = idIndex b' header ∧ portIndex b header = portIndex b' header := by
  have hid : idIndex b header = idIndex b' header := by
    rw [idIndex, idIndex, txIndex, txIndex, hshared, hshared']
  refine ⟨hid, ?_⟩
  rw [portIndex, portIndex, hid]
  cases hbit : has header packetIdBit with
  | false => simp only [Bool.and_false]
  | true => rw [hsup.1 hbit, hsup'.1 hbit]

theorem explicit_of_supports {bus : Bus b} {bus' : Bus b'} (hsup : b.Supports (header s))
    (hsup' : b'.Supports (header s)) (h : Explicit bus s) : Explicit bus' s := by
  obtain ⟨hid, hport⟩ := index_eq hshared hshared' hsup hsup'
  have hbyte : byte s 1 = header s := rfl
  constructor
  · intro hbit
    have hne := h.id hbit
    simp only [infoOf, Bus.parse, parseHeader, hbyte, hbit, hsup.1 hbit, hsup'.1 hbit] at hne ⊢
    rwa [hid] at hne
  · intro hbit
    have hne := h.port hbit
    simp only [infoOf, Bus.parse, parseHeader, hbyte, hbit, hsup.2.1 hbit, hsup'.2.1 hbit] at hne ⊢
    rwa [hport] at hne

end Builds

/-! ## One forward -/

section Forward

variable {r : RouterBuild} {n : Nat} {receiver : Bus r.toBuild} {s : List UInt8}
  {info : PacketInfo} {payload : Payload}

/-- No address is translated between two buses that are not reached by translation. -/
theorem translate_of_not_nat {x : Switch r n} {receiverBus senderBus : Fin n}
    (hsender : x.isNat senderBus = false) (hreceiver : x.isNat receiverBus = false)
    (info : PacketInfo) : x.translate receiverBus senderBus info = info := by
  simp [Switch.translate, hsender, hreceiver]

theorem queued_sendPacket (hadm : Admissible receiver s) (h : Seen receiver s info)
    (hexplicit : Explicit receiver s) (hpayload : payload.bytes = payloadOf s)
    (hhops : info.hops < r.maxHops) {x : Switch r n} {senderBus receiverBus : Fin n}
    (hsender : x.isNat senderBus = false) (hreceiver : x.isNat receiverBus = false)
    (hroom : HasRoom (x.bus receiverBus)) (surroundings : Surroundings) (ackSent : Bool) :
    queued (x.bus receiverBus) ((x.sendPacket payload senderBus info surroundings receiverBus
        ackSent).state.bus receiverBus) = [withHops s (info.hops + 1)] := by
  have hsend (sender : Bus r.toBuild) :=
    sendable_passedOn hadm (passedOn_resent (resent_seen h (info.hops + 1))) hpayload sender
      r.shared
  rw [Switch.sendPacket_bus, translate_of_not_nat hsender hreceiver,
    queued_handOn hsend hroom (Switch.withinHops_of_lt hhops)]
  have hcomplete := completeInfo_resent hadm (resent_seen h (info.hops + 1)) hexplicit
    { x.bus receiverBus with tx := info.tx } rfl
  rw [hopped, hcomplete, bytesOf_seen hadm h hexplicit hpayload r.shared]

/-- A switch, compiled in some way, sends `frame` on as `passed`: a bus in router mode hands the
packet over with a hop count below the limit, and no address is translated between the two
buses. -/
def Forwards (frame passed : List UInt8) : Prop :=
  ∃ (r : RouterBuild) (receiver : Bus r.toBuild) (delivery : Delivery) (payload : Payload)
    (info : PacketInfo), receiver.router = true ∧ delivery.bytes = frame ∧
    .receiver payload.bytes info ∈ (receiver.receive delivery).events ∧ info.hops < r.maxHops ∧
    ∃ (n : Nat) (x : Switch r n) (senderBus receiverBus : Fin n) (surroundings : Surroundings)
      (ackSent : Bool), x.isNat senderBus = false ∧ x.isNat receiverBus = false ∧
      HasRoom (x.bus receiverBus) ∧
      passed ∈ queued (x.bus receiverBus) ((x.sendPacket payload senderBus info surroundings
        receiverBus ackSent).state.bus receiverBus)

/-- The hop count of a packet, 0 where it has none. -/
abbrev hopsOf (s : List UInt8) : UInt8 := if has (header s) modeBit then hopCount s else 0

theorem hops_seen {b : Build} {bus : Bus b} (hshared : b.pjonLocal = false)
    (h : Seen bus s info) : info.hops = hopsOf s := by
  have hhops := congrArg PacketInfo.hops h.fields
  have hbyte : byte s 1 = header s := rfl
  simp only [withoutMacs, infoOf, Bus.parse, parseHeader, hbyte, hshared, Bool.not_false,
    Bool.true_and] at hhops
  exact hhops

/-- One forward, with what keeps the next one going. -/
theorem forwards_step {passed : List UInt8} (hstep : Forwards s passed) :
    ∃ (r : RouterBuild) (receiver : Bus r.toBuild) (info : PacketInfo) (payload : Payload),
      Admissible receiver s ∧ Seen receiver s info ∧ payload.bytes = payloadOf s ∧
      hopsOf s < r.maxHops ∧ (Explicit receiver s → passed = withHops s (hopsOf s + 1)) := by
  obtain ⟨r, receiver, delivery, payload, info, -, rfl, hcalled, hhops, n, x, senderBus,
    receiverBus, surroundings, ackSent, hsender, hreceiver, hroom, hpassed⟩ := hstep
  obtain ⟨hdelivered, hpayload, hseen, -⟩ :=
    seen_of_receiver r.packetMaxLength_ge r.packetMaxLength_lt hcalled
  have hadm := hdelivered.toAdmissible
  have hcount := hops_seen r.shared hseen
  refine ⟨r, receiver, info, payload, hadm, hseen, hpayload, hcount ▸ hhops, fun hexplicit => ?_⟩
  rw [queued_sendPacket hadm hseen hexplicit hpayload hhops hsender hreceiver hroom surroundings
    ackSent, List.mem_singleton, hcount] at hpassed
  exact hpassed

/-- The id and the port stay what they are. -/
theorem explicit_withHops {b : Build} {bus : Bus b} {s : List UInt8} {info : PacketInfo}
    {payload : Payload} (hadm : Admissible bus s) (h : Seen bus s info)
    (hexplicit : Explicit bus s) (hpayload : payload.bytes = payloadOf s)
    (hshared : b.pjonLocal = false) (hops : UInt8) : Explicit bus (withHops s hops) := by
  obtain ⟨hheader, -, -, hrecovers⟩ := recovers_withHops hadm h hexplicit hpayload hshared hops
  constructor
  · intro hbit
    rw [hheader] at hbit
    have hid := congrArg PacketInfo.id hrecovers.fields
    simp only [withoutMacs, carried, hbit, if_true] at hid
    intro hzero
    exact hexplicit.id hbit ((id_seen h).symm.trans (hid.symm.trans hzero))
  · intro hbit
    rw [hheader] at hbit
    have hport := congrArg PacketInfo.port hrecovers.fields
    simp only [withoutMacs, carried, hbit, if_true] at hport
    intro hnone
    exact hexplicit.port hbit ((port_seen h).symm.trans (hport.symm.trans hnone))

/-- Behind any number of forwards, by programs compiled in any ways, only the hop count is
another. -/
theorem forwards_chain (route : List (List UInt8)) :
    ∀ {b : Build} {bus : Bus b} (first last : List UInt8), b.pjonLocal = false →
      b.Supports (header first) → Explicit bus first →
      (first :: (route ++ [last])).IsChain Forwards →
      ∃ hops, last = withHops first hops ∧
        (has (header first) modeBit →
          hops.toNat = (hopsOf first).toNat + (route.length + 1)) := by
  have hnext {r : RouterBuild} {s : List UInt8} (hlimit : hopsOf s < r.maxHops) :
      (hopsOf s + 1).toNat = (hopsOf s).toNat + 1 := by
    have hlt : (hopsOf s).toNat < r.maxHops.toNat := hlimit
    have hmax := r.maxHops.toNat_lt
    rw [UInt8.toNat_add]
    exact Nat.mod_eq_of_lt (by show _ + 1 < 256; omega)
  induction route with
  | nil =>
      intro b bus first last hshared hsup hexplicit hchain
      rw [List.nil_append, List.isChain_pair] at hchain
      obtain ⟨r, receiver, info, payload, hadm, -, -, hlimit, hpassed⟩ := forwards_step hchain
      have hexplicit' : Explicit receiver first :=
        explicit_of_supports hshared r.shared hsup (supports_of_admissible r.shared hadm) hexplicit
      exact ⟨_, hpassed hexplicit', fun _ => hnext hlimit⟩
  | cons f route ih =>
      intro b bus first last hshared hsup hexplicit hchain
      rw [List.cons_append, List.isChain_cons_cons] at hchain
      obtain ⟨r, receiver, info, payload, hadm, hseen, hpayload, hlimit, hpassed⟩ :=
        forwards_step hchain.1
      have hsup' := supports_of_admissible r.shared hadm
      have hexplicit' : Explicit receiver first :=
        explicit_of_supports hshared r.shared hsup hsup' hexplicit
      obtain rfl := hpassed hexplicit'
      obtain ⟨hheader, -, -, hrecovers⟩ := recovers_withHops hadm hseen hexplicit' hpayload r.shared
        (hopsOf first + 1)
      have hkept := explicit_withHops hadm hseen hexplicit' hpayload r.shared (hopsOf first + 1)
      obtain ⟨hops, hlast, hcount⟩ := ih _ last r.shared (hheader.symm ▸ hsup') hkept hchain.2
      rw [withHops_withHops hadm hseen hexplicit' hpayload r.shared] at hlast
      refine ⟨hops, hlast, fun hmode => ?_⟩
      have hself : Seen receiver (withHops first (hopsOf first + 1))
          (infoOf receiver (withHops first (hopsOf first + 1))) :=
        ⟨rfl, fun _ => rfl, fun _ => rfl⟩
      have hcurrent : hopsOf (withHops first (hopsOf first + 1)) = hopsOf first + 1 := by
        have hhops := congrArg PacketInfo.hops hrecovers.fields
        simp only [withoutMacs, carried, hmode, if_true] at hhops
        exact (hops_seen r.shared hself).symm.trans hhops
      rw [hheader] at hcount
      rw [hcount hmode, hcurrent, hnext hlimit, List.length_cons]
      omega

end Forward

/-! ## The final receiver -/

/-- Builds that have what a header asks for write the same meta-data. -/
theorem metaData_supports {b' : Build} {sizing : Sizing} (hsup : b.Supports sizing.header)
    (hsup' : b'.Supports sizing.header) (info : PacketInfo) :
    metaData b info sizing = metaData b' info sizing := by
  obtain ⟨hid, hport, hmac, hmode⟩ := hsup
  obtain ⟨hid', hport', hmac', hmode'⟩ := hsup'
  have hbus : busFields b info sizing.header = busFields b' info sizing.header := by
    unfold busFields
    cases hbit : has sizing.header modeBit
    · simp
    · rw [hmode hbit, hmode' hbit]
  have hidField : idField b info sizing.header = idField b' info sizing.header := by
    unfold idField
    cases hbit : has sizing.header packetIdBit
    · simp
    · rw [hid hbit, hid' hbit]
  have hportField : portField b info sizing.header = portField b' info sizing.header := by
    unfold portField
    cases hbit : has sizing.header portBit
    · simp
    · rw [hport hbit, hport' hbit]
  have hmacFields : macFields b info sizing.header = macFields b' info sizing.header := by
    unfold macFields
    cases hbit : has sizing.header macBit
    · simp
    · rw [hmac hbit, hmac' hbit]
  rw [metaData, metaData, hbus, hidField, hportField, hmacFields]

section Final

variable {receiver : Bus b} {s : List UInt8} {info : PacketInfo} {payload : Payload}
  (hadm : Admissible receiver s) (h : Seen receiver s info) (hexplicit : Explicit receiver s)
  (hpayload : payload.bytes = payloadOf s) (hshared : b.pjonLocal = false)

include hadm h hexplicit hpayload hshared

/-- Whoever accepts the packet with another hop count sees the rest of it unchanged. -/
theorem recovers_final {b' : Build} {final : Bus b'} {hops : UInt8} {info' : PacketInfo}
    (hshared' : b'.pjonLocal = false) (hadm' : Admissible final (withHops s hops))
    (h' : Seen final (withHops s hops) info') :
    Recovers { info with hops := hops } (header s) info' := by
  obtain ⟨hheader, -, -, -⟩ := recovers_withHops hadm h hexplicit hpayload hshared hops
  have hsup : b.Supports (sizingOf s).header :=
    ⟨hadm.packetId, hadm.port, hadm.mac, fun _ => hshared⟩
  have hsup' : b'.Supports (sizingOf s).header := by
    have hsame : (sizingOf s).header = header (withHops s hops) := hheader.symm
    rw [hsame]
    exact ⟨hadm'.packetId, hadm'.port, hadm'.mac, fun _ => hshared'⟩
  have hport : has (header s) portBit → info.port ≠ noPort := by
    rw [port_seen h]
    exact hexplicit.port
  have hholds : Memory.Holds (byte (withHops s hops)) 0
      (metaData b' { info with hops := hops } (sizingOf s)) := by
    have hbytes := holds_metaData_bytesOf b { info with hops := hops } payload
    rw [measure_resent hadm hexplicit hpayload (resent_seen h hops),
      bytesOf_seen hadm h hexplicit hpayload hshared, metaData_supports hsup hsup'] at hbytes
    exact hbytes
  have hread : Recovers { info with hops := hops } (sizingOf s).header
      (Tools.parseHeader b' (byte (withHops s hops))) :=
    parseHeader_recovers hsup' rfl (fun _ => hport) hholds
  have hparse := recovers_customPointer final.customPointer hread
  refine ⟨?_, fun hmac => ?_, fun hmac => ?_⟩
  · have hpointer : info'.customPointer = final.customPointer := by
      have hfield := congrArg PacketInfo.customPointer h'.fields
      exact hfield
    rw [h'.fields, hpointer]
    exact hparse.fields
  · rw [h'.rxMac (hheader.symm ▸ hmac)]
    exact hparse.rxMac hmac
  · rw [h'.txMac (hheader.symm ▸ hmac)]
    exact hparse.txMac hmac

end Final

/-- What a switch puts in a send buffer for a packet that a bus has handed over is that packet
with its hop count raised by one; a local packet is the one that came in.  Behind any number of
forwards, whoever accepts the packet sees what it was sent with, as many hops later. -/
theorem routing_transparent (r : RouterBuild) (receiver : Bus r.toBuild) (delivery : Delivery)
    (payload : Payload) (info : PacketInfo)
    (hcalled : .receiver payload.bytes info ∈ (receiver.receive delivery).events)
    (hexplicit : Explicit receiver delivery.bytes) (hhops : info.hops < r.maxHops) :
    (∀ {n : Nat} (x : Switch r n) (senderBus receiverBus : Fin n) (surroundings : Surroundings)
      (ackSent : Bool), x.isNat senderBus = false → x.isNat receiverBus = false →
      HasRoom (x.bus receiverBus) →
      queued (x.bus receiverBus) ((x.sendPacket payload senderBus info surroundings receiverBus
        ackSent).state.bus receiverBus) = [withHops delivery.bytes (info.hops + 1)]) ∧
    (has (header delivery.bytes) modeBit = false → ∀ hops,
      withHops delivery.bytes hops = delivery.bytes.take (encodedLength delivery.bytes)) ∧
    ∀ (route : List (List UInt8)) (last : List UInt8),
      (delivery.bytes :: (route ++ [last])).IsChain Forwards →
      ∀ {b : Build} (final : Bus b) (arrival : Delivery) (payload' : List UInt8)
        (info' : PacketInfo), b.pjonLocal = false → 4 ≤ b.packetMaxLength →
        b.packetMaxLength < 65536 → arrival.bytes = last →
        .receiver payload' info' ∈ (final.receive arrival).events →
        payload' = payload.bytes ∧
          Recovers { info with hops := info'.hops } (header delivery.bytes) info' ∧
          (has (header delivery.bytes) modeBit →
            info'.hops.toNat = info.hops.toNat + (route.length + 1)) := by
  obtain ⟨hdelivered, hpayload, hseen, -⟩ :=
    seen_of_receiver r.packetMaxLength_ge r.packetMaxLength_lt hcalled
  have hadm := hdelivered.toAdmissible
  refine ⟨?_, fun hmode hops => withHops_local hadm hmode hops, ?_⟩
  · intro n x senderBus receiverBus surroundings ackSent hsender hreceiver hroom
    exact queued_sendPacket hadm hseen hexplicit hpayload hhops hsender hreceiver hroom
      surroundings ackSent
  · intro route last hchain b final arrival payload' info' hshared hmin hmax harrival hfinal
    have hsup := supports_of_admissible r.shared hadm
    obtain ⟨hops, rfl, hcount⟩ :=
      forwards_chain route delivery.bytes last r.shared hsup hexplicit hchain
    obtain ⟨hdelivered', hpayload', hseen', -⟩ := seen_of_receiver hmin hmax hfinal
    rw [harrival] at hdelivered' hpayload' hseen'
    obtain ⟨-, -, hpayloadOf, -⟩ :=
      recovers_withHops hadm hseen hexplicit hpayload r.shared hops
    have hrecovers := recovers_final hadm hseen hexplicit hpayload r.shared hshared
      hdelivered'.toAdmissible hseen'
    have hsame : info'.hops = if has (header delivery.bytes) modeBit then hops else 0 := by
      have hfield := congrArg PacketInfo.hops hrecovers.fields
      exact hfield
    refine ⟨hpayload'.trans (hpayloadOf.trans hpayload.symm), ?_, fun hmode => ?_⟩
    · refine ⟨?_, hrecovers.rxMac, hrecovers.txMac⟩
      rw [hrecovers.fields]
      simp only [carried, hsame]
      split_ifs <;> rfl
    · rw [hsame, if_pos hmode, hcount hmode, hops_seen r.shared hseen]

/-! ## Two letters -/

/-- `toSecondBus`, as it is handed over. -/
def letter : PacketInfo := { rx := { id := 45, busId := busIdOf 2 }, header := modeBit }

theorem routing_transparent_toSecondBus :
    queued ((threeBuses none).bus 1)
        (((threeBuses none).sendPacket (.single 65) 0 letter {} 1 false).state.bus 1) =
      [withHops toSecondBus.bytes 1] :=
  (routing_transparent routing ((threeBuses none).bus 0) toSecondBus (.single 65) letter
    (by decide +kernel) ⟨by decide, by decide⟩ (by decide)).1 (threeBuses none) 0 1 {} false
    (by decide) (by decide) ⟨⟨0, by decide⟩, by decide⟩

/-- A program that allows no hops. -/
def noHops : RouterBuild := { routing with maxHops := 0 }

def twoLocalBuses : Switch noHops 2 := Switch.connect #v[{}, {}] none twoBuses_lt

/-- A local letter to device 45. -/
def toDevice : Delivery := ⟨[45, 0, 6, 245, 65, 90], fun _ => 50⟩

/-- Without a hop to spare, a local packet is not forwarded either. -/
theorem noHops_keeps_toDevice :
    .receiver [65] { rx := { id := 45 }, header := 0 } ∈
        ((twoLocalBuses.bus 0).receive toDevice).events ∧
      Explicit (twoLocalBuses.bus 0) toDevice.bytes ∧
      has (header toDevice.bytes) modeBit = false ∧
      twoLocalBuses.isNat 0 = false ∧ twoLocalBuses.isNat 1 = false ∧
      HasRoom (twoLocalBuses.bus 1) ∧
      queued (twoLocalBuses.bus 1) ((twoLocalBuses.sendPacket (.single 65) 0
        { rx := { id := 45 }, header := 0 } {} 1 false).state.bus 1) ≠ [toDevice.bytes] :=
  ⟨by decide +kernel, ⟨by decide, by decide⟩, by decide, by decide, by decide,
    ⟨⟨0, by decide⟩, by decide⟩, by decide +kernel⟩

end Pjon.Proofs.Transparent
