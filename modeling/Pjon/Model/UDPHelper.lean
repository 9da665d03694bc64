import Pjon.Model.DualUDP
/-!
# The UDP helper of POSIX systems

`UDPHelper::send_frame` and `UDPHelper::receive_frame` for the interface `LINUX`: a magic header
goes in front of each frame, and both are received into the buffer of the caller.
-/

namespace Pjon.Model.Posix

open Pjon.Lib

variable {α : Type}

/-- The members of the helper; the magic header as it lies in memory. -/
structure UDPHelper (α : Type) where
  magicHeader : Vector UInt8 4
  remoteSender : Option α := none

/-- What `receive_frame` leaves. -/
structure Received (α : Type) where
  result : Nat
  string : Memory
  helper : UDPHelper α

namespace UDPHelper

variable (helper : UDPHelper α)

/-- `send_frame`: the datagram that it sends, from a buffer whose size is kept in 16 bits. -/
def sendFrame (string : Memory) (length : Nat) : Option (List UInt8) :=
  if 0 < length then
    some ((helper.magicHeader.toList ++ string.load 0 length).take ((4 + length) % 65536))
  else none

/-- `recvfrom`: what a datagram leaves in a buffer of `maxLength` bytes, and how many bytes it
returns.  The rest of a longer datagram is lost. -/
def recvfrom (string : Memory) (maxLength : Nat) (datagram : List UInt8) : Memory × Nat :=
  (string.store 0 (datagram.take maxLength), (datagram.take maxLength).length)

/-- `receive_frame`, where `arrival` is what arrives at the socket before it times out. -/
def receiveFrame (string : Memory) (maxLength : Nat) (arrival : Option (α × List UInt8)) :
    Received α :=
  match arrival with
  | none => { result := 0, string := string, helper := helper } -- `return false`
  | some (source, datagram) =>
    let received := recvfrom string maxLength datagram
    let string := received.1
    let count := received.2
    if count = maxLength ∨ count < 4 then { result := 0, string := string, helper := helper }
    else
      let helper := { helper with remoteSender := some source }
      if string.load 0 4 ≠ helper.magicHeader.toList then
        { result := 0, string := string, helper := helper }
      else
        { result := (count - 4) % 65536, string := string.moveDown 4 (count - 4)
          helper := helper }

end UDPHelper

end Pjon.Model.Posix
