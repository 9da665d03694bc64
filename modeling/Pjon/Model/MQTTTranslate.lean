import Pjon.Model.Compose
/-!
# The MQTTTranslate strategy

`MQTTTranslate::receiver`, which makes a packet of each message that the client hands over,
and `receive_frame`, in the modes `BUS_JSON` and `MIRROR_DIRECT`.
-/

namespace Pjon.Model.MQTTTranslate

open Pjon.Lib

inductive Mode where
  | busJson
  | mirrorDirect
  deriving DecidableEq, Repr

/-- The compile-time settings of the strategy. -/
structure Settings where
  mode : Mode
  useMac : Bool := false -- `MQTTT_MAC`

/-- The arguments of `receiver`: two C strings, the first one up to its end, the second one with
the length that is given for it and what the client's buffer holds behind that. -/
structure Message where
  topic : List UInt8 := []
  payload : Payload
  behind : List UInt8 := []

structure Strategy where
  incomingPacketSize : Nat := 0
  packetBuffer : Memory := fun _ => 0
  myId : UInt8 := notAssigned
  busId : Vector UInt8 4 := Vector.replicate 4 0
  header : UInt8 := 0

/-! ## C strings -/

/-- `s[p]`; the string ends with a zero. -/
def char (s : List UInt8) (p : Nat) : UInt8 := s.getD p 0

/-- `strncmp(s + p, key, strlen(key)) == 0`. -/
def startsWith (s key : List UInt8) (p : Nat) : Bool := key.isPrefixOf (s.drop p)

/-- `strstr`: the string from where `key` is found. -/
def strstr (s key : List UInt8) : Option (List UInt8) :=
  s.tails.find? fun rest => key.isPrefixOf rest

def isSpace (c : UInt8) : Bool := c == 32 || (decide (9 ≤ c) && decide (c ≤ 13))

def isDigit (c : UInt8) : Bool := decide (48 ≤ c) && decide (c ≤ 57)

def digits (s : List UInt8) : Nat :=
  (s.takeWhile isDigit).foldl (fun value c => 10 * value + (c.toNat - 48)) 0

/-- `atoi`. -/
def atoi (s : List UInt8) : Int :=
  match s.dropWhile isSpace with
  | 45 :: rest => -(digits rest : Int)
  | 43 :: rest => digits rest
  | rest => digits rest

/-! ## JSON -/

/-- `while(*p && p < last && !stop(*p)) p++`, where `last` is the last of `length` bytes. -/
def skip (s : List UInt8) (length : Nat) (stop : UInt8 → Bool) : Nat → Nat → Nat
  | 0, p => p
  | todo + 1, p =>
    if char s p ≠ 0 ∧ p + 1 < length ∧ stop (char s p) = false then skip s length stop todo (p + 1)
    else p

def findNextJsonKey (s : List UInt8) (length p : Nat) : Bool × Nat :=
  let p := skip s length (fun c => c == 123 || c == 44) length p
  if char s p = 0 ∨ length ≤ p + 1 then (false, p)
  else
    let p := skip s length (fun c => c == 34) length (p + 1)
    if char s p ≠ 34 ∨ length ≤ p + 1 then (false, p) else (true, p + 1)

def findNextJsonValue (s : List UInt8) (length p : Nat) : Bool × Nat :=
  let p := skip s length (fun c => c == 58) length p
  if char s p = 0 ∨ length ≤ p + 1 then (false, p)
  else
    let p := skip s length (fun c => c != 32 && c != 9) length (p + 1)
    if char s p = 0 ∨ length ≤ p + 1 then (false, p)
    else if char s p = 34 then (true, p + 1)
    else (true, p)

/-- The value of `key`, if it is what `p` points to. -/
def valueOf (s key : List UInt8) (length p : Nat) : Bool × Nat :=
  if startsWith s key p then findNextJsonValue s length p else (false, p)

def toKey : List UInt8 := [116, 111, 34] -- to"
def fromKey : List UInt8 := [102, 114, 111, 109, 34] -- from"
def dataKey : List UInt8 := [100, 97, 116, 97, 34] -- data"

/-- The local variables of the JSON mode; `payload` is an offset. -/
structure Fields where
  senderId : UInt8 := 0
  receiverId : UInt8 := 0
  found : Bool := false
  payload : Nat := 0
  length : Nat
  deriving DecidableEq, Repr

/-- The data that starts at `p`.  The search for its end is bounded by `payload` and `len`, which
are those of the data found before if there are any. -/
def takeData (s : List UInt8) (p : Nat) (fields : Fields) : Fields :=
  let p2 := skip s (fields.payload + fields.length) (fun c => c == 34) s.length p
  if char s p2 = 34 then
    { fields with found := true, payload := p, length := (p2 - p) % 65536 }
  else fields

/-- The loop over the keys. -/
def readFields (s : List UInt8) (length : Nat) : Nat → Nat → Fields → Fields
  | 0, _, fields => fields
  | todo + 1, p, fields =>
    let key := findNextJsonKey s length p
    if key.1 = false then fields
    else
      -- a key without a value moves the pointer, and the other keys are tried there
      let recipient := valueOf s toKey length key.2
      if recipient.1 then
        readFields s length todo recipient.2
          { fields with receiverId := UInt8.ofInt (atoi (s.drop recipient.2)) }
      else
        let sender := valueOf s fromKey length recipient.2
        if sender.1 then
          readFields s length todo sender.2
            { fields with senderId := UInt8.ofInt (atoi (s.drop sender.2)) }
        else
          let data := valueOf s dataKey length sender.2
          readFields s length todo data.2
            (if data.1 then takeData s data.2 fields else fields)

/-! ## Receiving -/

/-- What is composed of a message, and the `header` that is left behind. -/
structure Request where
  info : PacketInfo
  payload : Payload
  header : UInt8

def fillInfo (senderId : UInt8) (senderBusId : Vector UInt8 4) (receiverId : UInt8)
    (receiverBusId : Vector UInt8 4) (header : UInt8) : PacketInfo where
  tx := { id := senderId, busId := senderBusId }
  rx := { id := receiverId, busId := receiverBusId }
  header := header

/-- `length` bytes from `p` on. -/
def slice (s : List UInt8) (p length : Nat) : Payload where
  bytes := (s.drop p).take (length % 65536)
  fits := Nat.lt_of_le_of_lt (List.length_take_le _ _) (Nat.mod_lt _ (by decide))

def jsonRequest (strategy : Strategy) (message : Message) : Option Request :=
  let s := message.payload.bytes ++ message.behind
  let fields := readFields s message.payload.length message.payload.length 0
    { length := message.payload.length }
  if fields.receiverId = 0 ∨ fields.found = false then none
  else
    some
      { info := fillInfo fields.senderId strategy.busId fields.receiverId strategy.busId
          strategy.header
        payload := slice s fields.payload fields.length
        header := if fields.senderId ≠ 0 then strategy.header ||| txInfoBit else strategy.header }

def deviceTopic : List UInt8 := [47, 100, 101, 118, 105, 99, 101] -- /device

def directRequest (settings : Settings) (strategy : Strategy) (message : Message) : Request :=
  let receiverId :=
    if settings.useMac then strategy.myId
    else
      match strstr message.topic deviceTopic with
      | none => strategy.myId
      | some device => UInt8.ofInt (atoi (device.drop 7))
  { info := fillInfo receiverId strategy.busId receiverId strategy.busId strategy.header
    payload := message.payload
    header := strategy.header }

/-- What `receiver` composes, `none` if it ignores the message. -/
def request (settings : Settings) (strategy : Strategy) (message : Message) : Option Request :=
  match settings.mode with
  | .busJson => jsonRequest strategy message
  | .mirrorDirect => some (directRequest settings strategy message)

variable (b : Build) (settings : Settings)

namespace Strategy

/-- `receiver`. -/
def receiver (strategy : Strategy) (message : Message) : Strategy :=
  match request settings strategy message with
  | none => strategy
  | some request =>
    let composed := Tools.composePacket b request.info strategy.packetBuffer request.payload
    { strategy with
      header := request.header
      packetBuffer := strategy.packetBuffer.apply composed.2
      incomingPacketSize := composed.1 }

/-- `receive_frame`, if `mqttclient.update` hands over these messages: the frame that is
returned, `none` for `PJON_FAIL`. -/
def receiveFrame (strategy : Strategy) (maxLength : Nat) (handed : List Message) :
    Option (List UInt8) × Strategy :=
  let strategy :=
    if strategy.incomingPacketSize = 0 then handed.foldl (receiver b settings) strategy
    else strategy
  if 0 < strategy.incomingPacketSize ∧ strategy.incomingPacketSize ≤ maxLength then
    (some (strategy.packetBuffer.load 0 strategy.incomingPacketSize),
      { strategy with incomingPacketSize := 0 })
  else (none, strategy)

end Strategy

end Pjon.Model.MQTTTranslate
