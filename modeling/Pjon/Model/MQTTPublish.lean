import Pjon.Model.MQTTTranslate
import Pjon.Model.Parse
/-!
# Publishing frames

`MQTTTranslate::send_frame` in its four modes, and `receive_response`.  The client library is a
parameter: the room it has for a topic, and how it writes a number; whether it succeeds in
publishing is an input.
-/

namespace Pjon.Model.MQTTTranslate

open Pjon.Lib

inductive PublishMode where
  | busRaw
  | busJson
  | mirrorTranslate
  | mirrorDirect
  deriving DecidableEq, Repr

/-- The compile-time settings of sending. -/
structure Publishing where
  build : Build
  mode : PublishMode
  useMac : Bool := false -- `MQTTT_USE_MAC`
  bufferSize : Nat := build.packetMaxLength
  keySize : Nat := 15
  valueSize : Nat := 15
  translationTableSize : Nat := 5
  topicSize : Nat -- `SMCTOPICSIZE`
  uint8toa : UInt8 → List UInt8 -- the text that it writes, without the zero behind it

/-- The members that are used in sending.  A row of the translation table is a `pjon_key` with its
`mqtt_key`. -/
structure Publisher where
  topic : List UInt8 := [112, 106, 111, 110] -- pjon
  mac : Vector UInt8 6 := noMac
  lowercaseTopics : Bool := true
  retain : Bool := false
  qos : UInt8 := 0
  translations : List (List UInt8 × List UInt8) := []
  packetBuffer : Memory := fun _ => 0
  lastSendSuccess : Bool := false

/-- The arguments of a call of `publish`. -/
structure Publication where
  topic : List UInt8
  payload : List UInt8
  retain : Bool
  qos : UInt8
  deriving DecidableEq, Repr

/-- What `send_frame` leaves: what it has published, each with the success of it. -/
structure Sent where
  published : List (Publication × Bool)
  publisher : Publisher

/-- A call of `send_frame`: its arguments, the success of each call of `publish`, and how many
turns of the loop over the items are looked at. -/
structure Frame where
  data : Memory
  length : Nat
  results : Nat → Bool
  turns : Nat := 0

/-! ## Topics -/

/-- The string that lies in memory as these bytes. -/
def cString (s : List UInt8) : List UInt8 := s.takeWhile fun c => c != 0

/-- A digit of `%X`. -/
def hexDigit (n : UInt8) : UInt8 := if n < 10 then 48 + n else 55 + n

/-- `%2X`. -/
def hex (n : UInt8) : List UInt8 :=
  if n < 16 then [32, hexDigit n] else [hexDigit (n / 16), hexDigit (n % 16)]

/-- `add_mac`. -/
def addMac (mac : Vector UInt8 6) : List UInt8 := 47 :: mac.toList.flatMap hex

def outputTopic : List UInt8 := [47, 111, 117, 116, 112, 117, 116] -- /output

namespace Publishing

variable (settings : Publishing)

def isMirror : Bool := settings.mode == .mirrorTranslate || settings.mode == .mirrorDirect

/-- The topic up to where a key is added, `none` if there is no room for it. -/
def composeTopic (publisher : Publisher) (data : Memory) : Option (List UInt8) :=
  let text := cString publisher.topic
  let len := text.length % 256
  if settings.topicSize ≤ len then none
  else if settings.useMac && settings.isMirror then
    if settings.topicSize ≤ len + 7 + 7 then none
    else some (text.take len ++ addMac publisher.mac ++ outputTopic)
  else if settings.topicSize ≤ len + 7 + 3 + 7 then none
  else if settings.isMirror then
    some (text.take len ++ deviceTopic ++
      settings.uint8toa (Tools.parseTx settings.build data).id ++ outputTopic)
  else
    some (text.take len ++ deviceTopic ++
      settings.uint8toa (Tools.parseRx settings.build data).id)

/-- `length - overhead` as a `uint16_t`. -/
def payloadLength (data : Memory) (length : Nat) : Nat :=
  (length + 65536 - packetOverhead (data 1)) % 65536

def payloadStart (data : Memory) : Nat := packetOverhead (data 1) - crcOverhead (data 1)

/-! ## Items -/

/-- `find_value_separator`: where the item that starts at `v` ends. -/
def findValueSeparator (payload : List UInt8) (v : Nat) : Nat :=
  v + ((payload.drop v).takeWhile fun c => c != 44 && c != 0).length

def toLower (c : UInt8) : UInt8 := if 65 ≤ c ∧ c ≤ 90 then c + 32 else c

/-- `add_translation`. -/
def addTranslation (translations : List (List UInt8 × List UInt8)) (pjonKey mqttKey : List UInt8) :
    List (List UInt8 × List UInt8) :=
  if settings.translationTableSize ≤ translations.length then translations
  else translations ++ [((cString pjonKey).take (settings.keySize - 1),
    ((cString mqttKey).take (settings.keySize - 1)).map toLower)]

/-- `translate`, to MQTT. -/
def translate (publisher : Publisher) (key : List UInt8) : Option (List UInt8) :=
  (publisher.translations.find? fun row => cString row.1 == key).map
    fun row => (cString row.2).take (settings.keySize % 256 - 1)

/-- The key that is published for the one in the payload; a `uint8_t` counts its characters. -/
def shownKey (publisher : Publisher) (key : List UInt8) : List UInt8 :=
  let key := key.take (min key.length (settings.keySize - 1) % 256)
  match settings.translate publisher key with
  | some key => key
  | none => if publisher.lowercaseTopics then key.map toLower else key

def shownValue (value : List UInt8) : List UInt8 :=
  value.take (min value.length (settings.valueSize - 1) % 256)

/-- What the loop over the items leaves; `success` is what it makes of `last_send_success`, if it
gets that far. -/
structure Translated where
  published : List (Publication × Bool)
  success : Option Bool

/-- The loop over the items, from `v` on, for a number of turns. -/
def translateItems (publisher : Publisher) (topic payload : List UInt8) (results : Nat → Bool) :
    Nat → Nat → UInt8 → List (Publication × Bool) → Option Translated
  | 0, _, _, _ => none
  | turns + 1, v, sendCnt, published =>
    let c := findValueSeparator payload v
    let item := (payload.drop v).take (c - v)
    if (61 : UInt8) ∈ item then
      let key := settings.shownKey publisher (item.takeWhile fun c => c != 61)
      let value := settings.shownValue ((item.dropWhile fun c => c != 61).drop 1)
      if settings.topicSize ≤ topic.length + 1 + key.length then
        some { published := published, success := none }
      else
        let result := results published.length
        let published := published ++
          [({ topic := topic ++ [47] ++ key, payload := value, retain := publisher.retain,
              qos := publisher.qos }, result)]
        let sendCnt := if result then sendCnt + 1 else sendCnt
        if payload.length ≤ c then -- `v` becomes NULL
          some { published := published, success := some (decide (0 < sendCnt)) }
        else
          translateItems publisher topic payload results turns (c + 1) sendCnt published
    else translateItems publisher topic payload results turns v sendCnt published

/-! ## JSON -/

/-- The text in front of the data. -/
def jsonFront (recipient sender : UInt8) : List UInt8 :=
  [123, 34, 116, 111, 34, 58] ++ settings.uint8toa recipient ++ -- {"to":
    [44, 34, 102, 114, 111, 109, 34, 58] ++ settings.uint8toa sender ++ -- ,"from":
    [44, 34, 100, 97, 116, 97, 34, 58, 34] -- ,"data":"

def jsonText (recipient sender : UInt8) (data : List UInt8) : List UInt8 :=
  settings.jsonFront recipient sender ++ cString data ++ [34, 125]

/-- What is in the buffer behind the text: `strncpy` fills up with zeros. -/
def jsonBuffer (buffer : Memory) (recipient sender : UInt8) (data : List UInt8) : Memory :=
  let front := settings.jsonFront recipient sender
  (buffer.store 0 (front ++ cString data ++
    List.replicate (data.length - (cString data).length) 0 ++ [0])).store
      (front.length + (cString data).length) [34, 125, 0]

end Publishing

/-! ## Sending -/

namespace Publisher

variable (settings : Publishing) (publisher : Publisher)

/-- The last lines of `send_frame`. -/
def publish (frame : Frame) (topic payload : List UInt8) : Sent where
  published := [({ topic := topic, payload := payload, retain := publisher.retain,
                   qos := publisher.qos }, frame.results 0)]
  publisher := { publisher with lastSendSuccess := frame.results 0 }

/-- `send_frame`, `none` if it has not returned after as many turns. -/
def sendFrame (frame : Frame) : Option Sent :=
  match settings.composeTopic publisher frame.data with
  | none => some { published := [], publisher := publisher }
  | some topic =>
    let plen := Publishing.payloadLength frame.data frame.length
    let start := Publishing.payloadStart frame.data
    match settings.mode with
    | .mirrorTranslate =>
      (settings.translateItems publisher topic (frame.data.load start plen) frame.results
          frame.turns 0 0 []).map fun translated =>
        { published := translated.published
          publisher :=
            { publisher with
              lastSendSuccess := translated.success.getD publisher.lastSendSuccess } }
    | .mirrorDirect => some (publisher.publish frame topic (frame.data.load start plen))
    | .busJson =>
      let payloadLen := plen % 256 -- a `uint8_t`
      if settings.bufferSize ≤ 6 + 3 + 8 + 3 + 9 + payloadLen + 2 then
        some { published := [], publisher := publisher }
      else
        let recipient := (Tools.parseRx settings.build frame.data).id
        let sender := (Tools.parseTx settings.build frame.data).id
        let data := frame.data.load start payloadLen
        let publisher :=
          { publisher with
            packetBuffer := settings.jsonBuffer publisher.packetBuffer recipient sender data }
        some (publisher.publish frame topic (settings.jsonText recipient sender data))
    | .busRaw => some (publisher.publish frame topic (frame.data.load 0 frame.length))

/-- `receive_response`. -/
def receiveResponse : Nat := if publisher.lastSendSuccess then ack else fail

end Publisher

end Pjon.Model.MQTTTranslate
