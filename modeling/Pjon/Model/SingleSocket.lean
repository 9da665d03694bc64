import Pjon.Model.EthernetLink
import Pjon.Lib.Process
/-!
# Transfers over a single socket

`EthernetLink::single_socket_transfer`, as `ETCP_SINGLE_SOCKET_WITH_ACK` has it, with the functions
that it calls, after `single_socket` has set `_keep_connection` and `_request_ack`.  The initiator
connects to one node, the other end accepts.  A call is a process at its end of the connection;
the call that accepts is one that finds the client there, and a read that comes to nothing in time
is one at which the connection is lost.
-/

namespace Pjon.Model.EthernetTCP

open Pjon.Lib

/-- What the user of a link sees: a call of `_receiver`, and the result of its own call. -/
inductive LinkEvent where
  | received (senderId : UInt8) (contents : List UInt8)
  | returned (result : Nat)
  deriving DecidableEq, Repr

abbrev Talk := Process UInt8 LinkEvent

/-- The arguments of a call; `contents` is a pointer. -/
structure TransferCall where
  id : UInt8
  contents : Option (List UInt8)
  deriving DecidableEq, Repr

def singleSocketHeader : UInt32 := 0x4E92AC90
def singleSocketFooter : UInt32 := 0x7BB1E3F4
def connectionHeaderAAck : UInt32 := 0xFEDFED68

def TransferCall.length (call : TransferCall) : Nat := (call.contents.getD []).length

def TransferCall.numPackets (call : TransferCall) : UInt8 := if 0 < call.length then 1 else 0

namespace Talk

def readUntilHeader (header : UInt32) : Talk Bool :=
  Process.seekPattern (Word.bytes (Word.swap header))

/-- `read_bytes` of a word, and whether it is that one. -/
def readWord (word : UInt32) : Talk Bool := do
  let bytes ← Process.readItems 4
  return bytes.length = 4 && Word.store 0 0 bytes == Word.swap word

def writeWord (word : UInt32) : Talk Bool := Process.writeItems (Word.bytes (Word.swap word))

/-- `connect`, and `accept` of a client that is there, where there is no connection yet. -/
def connect : Talk Bool := writeWord connectionHeaderAAck
def accept : Talk Bool := readWord connectionHeaderAAck

variable (settings : Settings)

/-- `receive`, once something is available.  The acknowledgement is written before the receiver is
called; whether it is written does not matter. -/
def receive : Talk Nat := do
  if ← readUntilHeader etcpHeader then
    let head ← Process.readItems 5
    let contentLength := Word.swap (Word.store 0 0 (head.drop 1))
    if head.length ≠ 5 ∨ contentLength = 0 ∨ settings.maxPacketSize < contentLength.toNat then
      return fail
    else
      let contents ← Process.readItems (contentLength.toNat % 65536)
      if (contents.length : Int).bmod 65536 % 4294967296 ≠ contentLength.toNat then return fail
      else if ← readWord etcpFooter then
        let _ ← Process.writeItems [0, 6]
        Process.callEvent (.received (head.getD 0 0) contents)
        return ack
      else return fail
  else return fail

/-- The writes, up to one that fails. -/
def writeAll : List (List UInt8) → Talk Bool
  | [] => return true
  | bytes :: rest => do
    if ← Process.writeItems bytes then writeAll rest else return false

def send (call : TransferCall) : Talk Nat := do
  let head := Word.bytes (Word.swap etcpHeader) ++ [call.id] ++
    Word.bytes (Word.swap (UInt32.ofNat call.length))
  let foot := Word.bytes (Word.swap etcpFooter)
  let packet := call.contents.getD []
  let writes :=
    if settings.hasEthernetUDP then [head, packet, foot] else [head ++ packet ++ foot]
  if ← writeAll writes then
    let code ← Process.readItems 2
    return if code = [0, 6] then ack else fail
  else return fail

/-- The loop over the incoming packets. -/
def receivePackets : Nat → Talk Bool
  | 0 => return true
  | count + 1 => do
    let result ← receive settings
    if result = ack then receivePackets count else return false

/-- A step that is made if all went well up to it. -/
def andThen (ok : Bool) (next : Talk Bool) : Talk Bool := if ok then next else return false

/-- The outgoing packet, if there is one. -/
def sendPackets (call : TransferCall) : Talk Bool := do
  if 0 < call.numPackets then
    let result ← send settings call
    return result == ack
  else return true

/-- The number of incoming packets; it stays zero if it cannot be read. -/
def readNumPackets (ok : Bool) : Talk (Bool × UInt8) := do
  if ok then
    let bytes ← Process.readItems 1
    return (bytes.length == 1, bytes.getD 0 0)
  else return (false, 0)

/-- The branch of the initiator: whether it went well, and `numpackets_in`. -/
def masterTransfer (call : TransferCall) : Talk (Bool × UInt8) := do
  let head := Word.bytes (Word.swap singleSocketHeader) ++ [call.numPackets]
  let ok ← Process.writeItems head
  let ok ← andThen ok (sendPackets settings call)
  let incoming ← readNumPackets ok
  let ok ← andThen incoming.1 (receivePackets settings incoming.2.toNat)
  let ok ← andThen ok (writeWord singleSocketFooter)
  return (ok, incoming.2)

/-- The branch of the end that accepts. -/
def slaveTransfer (call : TransferCall) : Talk (Bool × UInt8) := do
  let ok ← readUntilHeader singleSocketHeader
  let incoming ← readNumPackets ok
  let ok ← andThen incoming.1 (receivePackets settings incoming.2.toNat)
  let ok ← andThen ok (Process.writeItems [call.numPackets])
  let ok ← andThen ok (sendPackets settings call)
  let ok ← andThen ok (readWord singleSocketFooter)
  return (ok, incoming.2)

def transfer (master : Bool) (call : TransferCall) : Talk (Bool × UInt8) :=
  if master then masterTransfer settings call else slaveTransfer settings call

/-- `connect` and `accept`; nothing is done if there is a connection. -/
def establish (master connected : Bool) : Talk Bool :=
  if connected then return true else if master then connect else accept

/-- `single_socket_transfer`, where `connected` tells whether there is a connection before it: the
result, and whether the connection is kept. -/
def singleSocketTransfer (master connected : Bool) (call : TransferCall) : Talk (Nat × Bool) := do
  if ← establish master connected then
    let (ok, numPacketsIn) ← transfer settings master call
    let result := if ok then ack else fail
    return (if call.contents.isNone && numPacketsIn == 0 then fail else result, ok)
  else return (fail, false)

/-- Call after call, up to one behind which the connection is not kept. -/
def session (master : Bool) : Bool → List TransferCall → Talk Unit
  | _, [] => return ()
  | connected, call :: calls => do
    let (result, connected) ← singleSocketTransfer settings master connected call
    Process.callEvent (.returned result)
    if connected then session master true calls else return ()

end Talk

end Pjon.Model.EthernetTCP
