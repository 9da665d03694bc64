import Pjon.Spec.Links
/-!
# The frames that the UDP helper carries

A datagram is four bytes longer than its frame, and it is received into a buffer for a frame.  One
that fills the buffer is taken for one that is too large.
-/

namespace Pjon.Proofs.UDPHelper

open Pjon.Lib Pjon.Model Pjon.Model.Posix Pjon.Spec

variable {α : Type}

/-- The magic header goes in front of the frame. -/
theorem sendFrame_eq (sender : UDPHelper α) (frame : Memory) {length : Nat} (hpos : 0 < length)
    (hfits : 4 + length < 65536) :
    sender.sendFrame frame length = some (sender.magicHeader.toList ++ frame.load 0 length) := by
  have hlength : (sender.magicHeader.toList ++ frame.load 0 length).length = 4 + length := by
    rw [List.length_append, Vector.length_toList, Memory.length_load]
  rw [UDPHelper.sendFrame, if_pos hpos, Nat.mod_eq_of_lt hfits, ← hlength, List.take_length]

section Receive

variable (receiver : UDPHelper α) (string : Memory) (source : α)

/-- A datagram that does not leave a byte of the buffer is dropped. -/
theorem receiveFrame_of_full {maxLength : Nat} {datagram : List UInt8}
    (h : maxLength ≤ datagram.length) :
    (receiver.receiveFrame string maxLength (some (source, datagram))).result = 0 := by
  have hcount : (datagram.take maxLength).length = maxLength := by
    rw [List.length_take, Nat.min_eq_left h]
  simp only [UDPHelper.receiveFrame, UDPHelper.recvfrom, hcount, true_or, if_true]

/-- A datagram with the magic header of the helper is returned without it. -/
theorem receiveFrame_of_room {maxLength : Nat} {bytes : List UInt8}
    (hroom : 4 + bytes.length < maxLength) (hfits : bytes.length < 65536) :
    let received := receiver.receiveFrame string maxLength
      (some (source, receiver.magicHeader.toList ++ bytes))
    received.result = bytes.length ∧ received.string.load 0 bytes.length = bytes ∧
      received.helper.remoteSender = some source := by
  have hlength : (receiver.magicHeader.toList ++ bytes).length = 4 + bytes.length := by
    rw [List.length_append, Vector.length_toList]
  have htake : (receiver.magicHeader.toList ++ bytes).take maxLength =
      receiver.magicHeader.toList ++ bytes := List.take_of_length_le (by omega)
  have hstored : (string.store 0 (receiver.magicHeader.toList ++ bytes)).load 0
      (4 + bytes.length) = receiver.magicHeader.toList ++ bytes := by
    rw [← hlength, Memory.load_store]
  rw [Memory.load_append] at hstored
  obtain ⟨hheader, hbytes⟩ := List.append_inj hstored
    (by rw [Memory.length_load, Vector.length_toList])
  have hcount : ¬(4 + bytes.length = maxLength ∨ 4 + bytes.length < 4) := by omega
  simp only [UDPHelper.receiveFrame, UDPHelper.recvfrom, htake, hlength, if_neg hcount, hheader,
    ne_eq, not_true_eq_false, if_false, Nat.add_sub_cancel_left, Nat.mod_eq_of_lt hfits,
    Memory.load_moveDown, hbytes, and_self]

end Receive

/-- What the helper takes of a datagram in the model of DualUDP. -/
theorem takes_posix_iff (maxLength length : Nat) :
    DualUDP.UDPHelper.takes .posix maxLength length = true ↔ length + 4 < maxLength := by
  rw [DualUDP.UDPHelper.takes, decide_eq_true_eq, Nat.add_comm]

/-- A frame that PJON can send is carried exactly when its datagram is shorter than a packet may
be. -/
theorem carriesFrame_iff {maxLength length : Nat} (sender receiver : UDPHelper α) (source : α)
    (frame string : Memory) (hmax : maxLength ≤ 65000)
    (hmagic : sender.magicHeader = receiver.magicHeader) (hpos : 1 ≤ length)
    (hlength : length < maxLength) :
    CarriesFrame sender receiver maxLength source frame string length ↔
      length + 4 < maxLength := by
  rw [CarriesFrame, sendFrame_eq sender frame hpos (by omega), hmagic]
  constructor
  · intro hcarried
    by_contra hfull
    have hlong : maxLength ≤ (receiver.magicHeader.toList ++ frame.load 0 length).length := by
      rw [List.length_append, Vector.length_toList, Memory.length_load]
      omega
    have hdropped := receiveFrame_of_full receiver string source hlong
    have hzero := hdropped.symm.trans hcarried.1
    omega
  · intro hroom
    have hshort : 4 + (frame.load 0 length).length < maxLength := by
      rw [Memory.length_load]
      omega
    obtain ⟨hresult, hbytes, -⟩ := receiveFrame_of_room receiver string source hshort
      (by omega)
    rw [Memory.length_load] at hresult hbytes
    exact ⟨hresult, hbytes⟩

/-- The magic header of DualUDP. -/
def dualUdpHelper : UDPHelper Unit where
  magicHeader := #v[0x0E, 0xFA, 0x23, 0xFF]

theorem carriesFrame_iff_five :
    CarriesFrame dualUdpHelper dualUdpHelper 50 () (fun _ => 7) (fun _ => 0) 5 ↔ 5 + 4 < 50 :=
  carriesFrame_iff dualUdpHelper dualUdpHelper () (fun _ => 7) (fun _ => 0) (by decide) rfl
    (by decide) (by decide)

/-- A frame of 46 bytes is shorter than a packet may be, and it is dropped. -/
theorem frame_of_46_dropped :
    ¬CarriesFrame dualUdpHelper dualUdpHelper 50 () (fun _ => 7) (fun _ => 0) 46 := by
  unfold CarriesFrame
  decide +kernel

end Pjon.Proofs.UDPHelper
