import Pjon.Model.Crc
/-!
# Packet data structures

The structures of `PJONDefines.h`, with the defaults they are declared with.  A
field that a build leaves out keeps its default and is never written.
-/

namespace Pjon.Model

open Pjon.Lib

structure Endpoint where
  id : UInt8 := notAssigned
  busId : Vector UInt8 4 := Vector.replicate 4 0
  mac : Vector UInt8 6 := Vector.replicate 6 0
  deriving DecidableEq, Repr

structure PacketInfo where
  tx : Endpoint := {}
  rx : Endpoint := {}
  header : UInt8 := noHeader
  customPointer : Nat := 0
  hops : UInt8 := 0
  id : UInt16 := 0
  port : UInt16 := noPort
  deriving DecidableEq, Repr

structure PacketRecord where
  header : UInt8 := 0
  senderId : UInt8 := 0
  senderBusId : Vector UInt8 4 := Vector.replicate 4 0
  id : UInt16 := 0
  deriving DecidableEq, Repr

structure Packet where
  attempts : UInt8 := 0
  content : Memory := fun _ => 0
  length : Nat := 0
  registration : UInt32 := 0
  state : Nat := 0
  timing : UInt32 := 0

/-- The bytes behind a payload pointer, as many as its `uint16_t` length says. -/
structure Payload where
  bytes : List UInt8
  fits : bytes.length < 65536
  deriving DecidableEq, Repr

def Payload.single (byte : UInt8) : Payload := ⟨[byte], by simp⟩

def Payload.length (payload : Payload) : Nat := payload.bytes.length

theorem Payload.length_lt (payload : Payload) : payload.length < 65536 := payload.fits

def localhost : Vector UInt8 4 := Vector.replicate 4 0

def noMac : Vector UInt8 6 := Vector.replicate 6 0

end Pjon.Model
