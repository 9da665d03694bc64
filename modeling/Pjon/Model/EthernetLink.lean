import Pjon.Model.Packet
import Pjon.Lib.Word
/-!
# The Ethernet link

`EthernetLink::send` and `EthernetLink::receive` for a client, on a little-endian host.  A client
is a stream of bytes; how many of them are there for each read is its input.
-/

namespace Pjon.Model.EthernetTCP

open Pjon.Lib

def etcpHeader : UInt32 := 0x18ABC427
def etcpFooter : UInt32 := 0x9ABE8873

/-- `ETCP_MAX_PACKET_SIZE`, and whether `HAS_ETHERNETUDP` is defined. -/
structure Settings where
  maxPacketSize : Nat := 300
  hasEthernetUDP : Bool := false

/-- What a round of `read_bytes` meets: some bytes are there, maybe none, or the connection is
lost. -/
inductive Round where
  | available (count : Nat)
  | lost
  deriving DecidableEq, Repr

/-- A client with the bytes that are still to be read.  For each call of `read_bytes`, `rounds`
has those that are made before it times out. -/
structure TCPHelperClient where
  connected : Bool := true
  incoming : List UInt8 := []
  rounds : Nat → List Round := fun _ => []

/-- What a call of `read_bytes` leaves. -/
structure Read where
  bytes : List UInt8
  client : TCPHelperClient

/-- The value that `read_bytes` returns, in 16 bits with a sign. -/
def Read.result (read : Read) : Int := (read.bytes.length : Int).bmod 65536

namespace TCPHelperClient

variable (client : TCPHelperClient)

def stop : TCPHelperClient := { client with connected := false }

/-- The loop of `read_bytes` over its rounds. -/
def readRounds : List Round → Nat → TCPHelperClient → Read
  | [], _, client => { bytes := [], client := client }
  | .lost :: _, _, client => { bytes := [], client := client.stop }
  | .available count :: rounds, length, client =>
    let bytes := client.incoming.take (min count length)
    let client := { client with incoming := client.incoming.drop bytes.length }
    if bytes.length < length then
      let read := readRounds rounds (length - bytes.length) client
      { read with bytes := bytes ++ read.bytes }
    else { bytes := bytes, client := client }

/-- `read_bytes`; the length is a `uint16_t`. -/
def readBytes (length : Nat) : Read :=
  if client.connected then
    readRounds (client.rounds 0) (length % 65536)
      { client with rounds := fun k => client.rounds (k + 1) }
  else { bytes := [], client := client }

theorem length_readRounds (rounds : List Round) (length : Nat) (client : TCPHelperClient) :
    (readRounds rounds length client).bytes.length +
      (readRounds rounds length client).client.incoming.length = client.incoming.length := by
  induction rounds generalizing length client with
  | nil => exact Nat.zero_add _
  | cons round rounds ih =>
      cases round with
      | lost => exact Nat.zero_add _
      | available count =>
          simp only [readRounds]
          have htaken : (client.incoming.take (min count length)).length ≤
              client.incoming.length := List.length_take_le' _ _
          split
          · rw [List.length_append, Nat.add_assoc, ih, List.length_drop]
            omega
          · simp only [List.length_drop]
            omega

theorem length_readBytes (length : Nat) (client : TCPHelperClient) :
    (client.readBytes length).bytes.length + (client.readBytes length).client.incoming.length =
      client.incoming.length := by
  unfold readBytes
  split
  · exact length_readRounds _ _ _
  · exact Nat.zero_add _

/-- The search of `read_until_header` for a lost position: one byte is read into the most
significant one of `head`. -/
def resync (header head : UInt32) (client : TCPHelperClient) : Bool × TCPHelperClient :=
  let read := client.readBytes 1
  let head := Word.store (head >>> 8) 3 read.bytes
  if _hread : read.bytes.length ≠ 1 then (head == header, read.client)
  else if head ≠ header then resync header head read.client
  else (true, read.client)
termination_by client.incoming.length
decreasing_by
  have hlength := length_readBytes 1 client
  have hone : (client.readBytes 1).bytes.length = 1 := not_not.mp _hread
  omega

/-- `read_until_header`. -/
def readUntilHeader (header : UInt32) : Bool × TCPHelperClient :=
  let header := Word.swap header
  let read := client.readBytes 4
  let head := Word.store 0 0 read.bytes
  if read.bytes.length ≠ 4 ∨ head ≠ header then resync header head read.client
  else (true, read.client)

end TCPHelperClient

/-- The members of a link that `send` and `receive` use. -/
structure Link where
  ackRequested : Bool := false
  receiveAndDiscard : Bool := false
  singleSocket : Bool := false
  requestAck : Bool := false
  lastReceiveTime : UInt32 := 0
  deriving DecidableEq, Repr

/-! ## Receiving -/

/-- A call of `receive`: what it finds to be available, and the clock behind the footer. -/
structure Call where
  available : UInt32
  now : UInt32 := 0
  deriving DecidableEq, Repr

/-- What `receive` leaves: the call of `_receiver` that it makes, and what it writes. -/
structure Reception where
  result : Nat
  delivered : Option (UInt8 × List UInt8) := none
  written : List UInt8 := []
  link : Link
  client : TCPHelperClient

/-- What is known of a packet while it is read. -/
structure PacketReading where
  ok : Bool
  senderId : UInt8 := 0
  contentLength : UInt32 := 0
  contents : List UInt8 := []
  client : TCPHelperClient

namespace TCPHelperClient

/-- The header, the sender's id and the length. -/
def readHead (client : TCPHelperClient) : PacketReading :=
  let search := client.readUntilHeader etcpHeader
  if search.1 then
    let read := search.2.readBytes 5
    if read.result ≠ 5 then { ok := false, client := read.client }
    else
      let contentLength := Word.swap (Word.store 0 0 (read.bytes.drop 1))
      { ok := contentLength ≠ 0, senderId := read.bytes.getD 0 0, contentLength := contentLength
        client := read.client }
  else { ok := false, client := search.2 }

end TCPHelperClient

namespace PacketReading

variable (reading : PacketReading)

/-- The contents; the length that was read is compared with its 32 bits. -/
def readContents : PacketReading :=
  if reading.ok then
    let read := reading.client.readBytes reading.contentLength.toNat
    { reading with
      ok := decide (read.result % 4294967296 = reading.contentLength.toNat)
      contents := read.bytes, client := read.client }
  else reading

def readFooter : PacketReading :=
  if reading.ok then
    let read := reading.client.readBytes 4
    { reading with
      ok := read.result = 4 ∧ Word.store 0 0 read.bytes = Word.swap etcpFooter
      client := read.client }
  else reading

end PacketReading

/-- `receive`, where `incoming` tells whether the client is `_client_in`, which is stopped when
the packet is not complete. -/
def Link.receive (settings : Settings) (link : Link) (incoming : Bool) (client : TCPHelperClient)
    (call : Call) : Reception :=
  if call.available = 0 then { result := fail, link := link, client := client }
  else
    let reading := client.readHead
    if settings.maxPacketSize < reading.contentLength.toNat then
      { result := fail, link := link, client := reading.client }
    else
      let reading := reading.readContents.readFooter
      if reading.ok then
        { result := ack
          delivered :=
            if link.receiveAndDiscard then none else some (reading.senderId, reading.contents)
          written := if link.ackRequested && !link.receiveAndDiscard then [0, 6] else []
          link := { link with lastReceiveTime := call.now }
          client := reading.client }
      else
        { result := fail, link := link
          client := if incoming then reading.client.stop else reading.client }

/-! ## Sending -/

/-- What `send` meets: whether there are bytes to be read from `_client_in`, and how many bytes
each `write` takes. -/
structure Outgoing where
  waiting : Bool := false
  takes : Nat → Nat

/-- What `send` leaves. -/
structure Sending where
  result : Nat
  written : List UInt8
  client : TCPHelperClient

/-- The writes, up to one that does not take all of its bytes. -/
def writeAll (takes : Nat → Nat) : List (List UInt8) → Bool × List UInt8
  | [] => (true, [])
  | bytes :: rest =>
    if bytes.length ≤ takes 0 then
      let next := writeAll (fun k => takes (k + 1)) rest
      (next.1, bytes ++ next.2)
    else (false, bytes.take (takes 0))

/-- `send`.  The buffer for a whole frame has its size in 16 bits; there is no result if the frame
is copied beyond its end. -/
def Link.send (settings : Settings) (link : Link) (client : TCPHelperClient) (outgoing : Outgoing)
    (id : UInt8) (packet : Payload) : Option Sending :=
  let head := Word.bytes (Word.swap etcpHeader) ++ [id] ++
    Word.bytes (Word.swap (UInt32.ofNat packet.length))
  let foot := Word.bytes (Word.swap etcpFooter)
  if !link.singleSocket && outgoing.waiting then
    some { result := busy, written := [], client := client }
  else if !settings.hasEthernetUDP && decide (65536 ≤ 9 + packet.length + 4) then none
  else
    let writes :=
      if settings.hasEthernetUDP then [head, packet.bytes, foot]
      else [head ++ packet.bytes ++ foot]
    let write := writeAll outgoing.takes writes
    if link.requestAck then
      if write.1 then
        let read := client.readBytes 2
        let acknowledged := read.result = 2 ∧ read.bytes = [0, 6]
        some { result := if acknowledged then ack else fail, written := write.2
               client := read.client }
      else some { result := fail, written := write.2, client := client }
    else some { result := if write.1 then ack else fail, written := write.2, client := client }

end Pjon.Model.EthernetTCP
