import Pjon.Proofs.Interop
/-!
# Composing again what was received

A switch hands the parsed info and the payload of a packet to the composer of another
bus.  The composer raises a header for packets that would not be acceptable without; what
was received is acceptable already, so it raises nothing.
-/

namespace Pjon.Proofs.Recompose

open Pjon.Lib Pjon.Model Pjon.Model.Tools Pjon.Spec
open Pjon.Proofs.Layout Pjon.Proofs.Interop

variable {b : Build} {receiver : Bus b} {s : List UInt8} {info : PacketInfo} {source : Payload}

theorem encodedLength_lt (s : List UInt8) : encodedLength s < 65536 := by
  unfold encodedLength
  split_ifs
  · exact UInt16.toNat_lt _
  · exact (byte s 2).toNat_lt.trans (by decide)

theorem encodedLength_lt_of_short (hext : has (header s) extLenBit = false) :
    encodedLength s < 256 := by
  rw [encodedLength, hext]
  exact (byte s 2).toNat_lt

/-- An info that is sent on for the packet `s`: its endpoints, hop count and id may have
changed, the request for an acknowledgement may have been taken back. -/
structure PassedOn (b : Build) (s : List UInt8) (info : PacketInfo) : Prop where
  header : info.header = header s ∨ info.header = header s &&& ~~~ackReqBit
  recipient : info.rx.id = byte s 0
  port : info.port = (parseHeader b (byte s)).port

theorem has_passedOn (h : PassedOn b s info) {bit : UInt8} (hack : ~~~ackReqBit &&& bit = bit) :
    has info.header bit = has (header s) bit := by
  rcases h.header with hsame | hcleared
  · rw [hsame]
  · rw [hcleared, has_clear_other hack]

/-- A packet without a port is sent on without one. -/
theorem port_passedOn (h : PassedOn b s info) (hport : has (header s) portBit = false) :
    info.port = noPort := by
  have hbit : has (byte s 1) portBit = false := hport
  rw [h.port, parseHeader, hbit, Bool.and_false]
  rfl

section Header

variable (hadm : Admissible receiver s) (h : PassedOn b s info) (sender : Bus b)

include hadm h

/-- An acceptable header is not the one that stands for none. -/
theorem effectiveHeader_passedOn : sender.effectiveHeader info = info.header := by
  have hne : info.header ≠ noHeader := by
    intro hnone
    have hext : has (header s) extLenBit = true := by
      rw [← has_passedOn h (by decide), hnone]
      decide
    have hcrc := hadm.extLenCrc hext
    rw [← has_passedOn h (by decide), hnone] at hcrc
    exact absurd hcrc (by decide)
  rw [Bus.effectiveHeader, if_neg (by simpa using hne)]

theorem header_completeInfo : (sender.completeInfo info).header = info.header :=
  effectiveHeader_passedOn hadm h sender

theorem port_completeInfo (hport : has (header s) portBit = false) :
    (sender.completeInfo info).port = noPort := by
  have hbit : has (sender.effectiveHeader info) portBit = false := by
    rw [effectiveHeader_passedOn hadm h, has_passedOn h (by decide), hport]
  rw [Bus.completeInfo]
  simp only [hbit, Bool.and_false]
  exact port_passedOn h hport

/-- A header bit that neither the port nor the length decides. -/
theorem has_start (length : Nat) (bit : UInt8) (hport : has portBit bit = false)
    (hclear : ~~~portBit &&& bit = bit) (hack : ~~~ackReqBit &&& bit = bit)
    (hext : has extLenBit bit = false) :
    has (startHeader b (sender.completeInfo info) length) bit = has (header s) bit := by
  rw [has_startHeader b _ bit length hport hclear hack, hext, Bool.and_false, Bool.or_false,
    header_completeInfo hadm h, has_passedOn h hack]

theorem has_start_port (length : Nat)
    (hset : has (startHeader b (sender.completeInfo info) length) portBit = true) :
    has (header s) portBit = true := by
  rw [has_startHeader_port] at hset
  by_contra hport
  rw [Bool.not_eq_true] at hport
  split_ifs at hset
  · rw [port_completeInfo hadm h sender hport] at hset
    exact absurd hset (by decide)
  · rw [header_completeInfo hadm h, has_passedOn h (by decide), hport] at hset
    exact Bool.noConfusion hset

end Header

/-! ## The measurement -/

section Measure

variable (hadm : Admissible receiver s) (h : PassedOn b s info)
  (hpayload : source.bytes = payloadOf s) (sender : Bus b)

omit h sender in
include hadm hpayload in
theorem length_payload : source.length + packetOverhead (header s) = encodedLength s := by
  have hover := hadm.overhead
  rw [Payload.length, hpayload, payloadOf, Memory.length_load]
  omega

include hadm h hpayload

theorem has_start_ext :
    has (startHeader b (sender.completeInfo info) source.length) extLenBit =
      has (header s) extLenBit := by
  rw [has_startHeader_ext, header_completeInfo hadm h, has_passedOn h (by decide)]
  cases hext : has (header s) extLenBit
  · have hlength := length_payload hadm hpayload
    have hshort := encodedLength_lt_of_short hext
    rw [Bool.false_or, decide_eq_false (by omega)]
  · rfl

theorem packetOverhead_start :
    packetOverhead (startHeader b (sender.completeInfo info) source.length) ≤
      packetOverhead (header s) := by
  have hport := has_start_port hadm h sender source.length
  simp only [packetOverhead, has_start_ext hadm h hpayload sender,
    has_start hadm h sender source.length modeBit (by decide) (by decide) (by decide)
      (by decide),
    has_start hadm h sender source.length txInfoBit (by decide) (by decide) (by decide)
      (by decide),
    has_start hadm h sender source.length crcBit (by decide) (by decide) (by decide)
      (by decide),
    has_start hadm h sender source.length packetIdBit (by decide) (by decide) (by decide)
      (by decide),
    has_start hadm h sender source.length macBit (by decide) (by decide) (by decide)
      (by decide)]
  have hbound : (if has (startHeader b (sender.completeInfo info) source.length) portBit then 2
      else 0) ≤ if has (header s) portBit then 2 else 0 := by
    split_ifs <;> simp_all
  omega

/-- The packet that is measured is no longer than the one received. -/
theorem totalLength_start :
    totalLength (startHeader b (sender.completeInfo info) source.length) source.length =
        source.length +
          packetOverhead (startHeader b (sender.completeInfo info) source.length) ∧
      source.length + packetOverhead (startHeader b (sender.completeInfo info) source.length) ≤
        encodedLength s := by
  have hover := packetOverhead_start hadm h hpayload sender
  have hlength := length_payload hadm hpayload
  have hlt := encodedLength_lt s
  exact ⟨totalLength_of_lt (by omega), by omega⟩

/-- Nothing is raised. -/
theorem measure_passedOn :
    measure b (sender.completeInfo info) source.length =
      { header := startHeader b (sender.completeInfo info) source.length
        newLength := source.length +
          packetOverhead (startHeader b (sender.completeInfo info) source.length)
        extendedLength := has (header s) extLenBit } := by
  obtain ⟨htotal, hle⟩ := totalLength_start hadm h hpayload sender
  have hcrc : forceCrc (startHeader b (sender.completeInfo info) source.length) source.length =
      startHeader b (sender.completeInfo info) source.length := by
    unfold forceCrc
    rw [if_neg]
    intro hforce
    simp only [Bool.and_eq_true, decide_eq_true_eq, Bool.not_eq_true'] at hforce
    rw [has_start hadm h sender source.length crcBit (by decide) (by decide) (by decide)
      (by decide)] at hforce
    have hlong := hadm.longCrc (by omega)
    rw [hlong] at hforce
    exact Bool.noConfusion hforce.2
  have hext : forceExtLen (has (header s) extLenBit)
      (startHeader b (sender.completeInfo info) source.length) source.length =
        startHeader b (sender.completeInfo info) source.length := by
    unfold forceExtLen
    rw [if_neg]
    intro hforce
    simp only [Bool.and_eq_true, decide_eq_true_eq, Bool.not_eq_true'] at hforce
    have hshort := encodedLength_lt_of_short hforce.2
    omega
  rw [Tools.measure]
  simp only [hcrc, has_start_ext hadm h hpayload sender, hext, htotal]

theorem written_passedOn :
    written b (sender.completeInfo info) source =
      startHeader b (sender.completeInfo info) source.length := by
  rw [written, measure_passedOn hadm h hpayload sender]

/-- What was received can be sent on. -/
theorem sendable_passedOn (hshared : b.pjonLocal = false) :
    Sendable b (sender.completeInfo info) source := by
  have hmeasure := measure_passedOn hadm h hpayload sender
  obtain ⟨-, hle⟩ := totalLength_start hadm h hpayload sender
  have hmax := hadm.maxLength
  have hover := hadm.overhead
  have hlength := length_payload hadm hpayload
  refine ⟨?_, ⟨?_, ?_⟩, ?_, ?_, by omega⟩
  · rw [header_completeInfo hadm h, Build.Supports, has_passedOn h (by decide),
      has_passedOn h (by decide), has_passedOn h (by decide), has_passedOn h (by decide)]
    exact ⟨hadm.packetId, hadm.port, hadm.mac, fun _ => hshared⟩
  · rw [hmeasure]
    simp only
    have hlt := encodedLength_lt s
    omega
  · rw [hmeasure]
    exact (has_start_ext hadm h hpayload sender).symm
  · rw [hmeasure]
    simp only
    omega
  · rw [written_passedOn hadm h hpayload, has_start_ext hadm h hpayload,
      has_start hadm h sender source.length crcBit (by decide) (by decide) (by decide)
        (by decide)]
    exact hadm.extLenCrc

end Measure

end Pjon.Proofs.Recompose
