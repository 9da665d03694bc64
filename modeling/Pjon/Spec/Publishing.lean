import Pjon.Model.MQTTPublish
import Pjon.Lib.Run
/-!
# What is owed for a frame

The items of its payload are published, each once; and it is acknowledged only if something has
been published for it.
-/

namespace Pjon.Spec

open Pjon.Lib Pjon.Model Pjon.Model.MQTTTranslate

/-! ## Items -/

def isSeparator (c : UInt8) : Bool := c == 44 || c == 0

/-- What is between the separators of a payload. -/
def pieces (payload : List UInt8) : List (List UInt8) := payload.splitOnP isSeparator

/-- The pieces that have the form `key=value`. -/
def items (payload : List UInt8) : List (List UInt8) :=
  (pieces payload).filter fun piece => decide ((61 : UInt8) ∈ piece)

section Items

variable (settings : Publishing) (publisher : Publisher) (topic item : List UInt8)

/-- What is in front of the first `=`. -/
def itemKey : List UInt8 := item.takeWhile fun c => c != 61

/-- What is behind it. -/
def itemValue : List UInt8 := (item.dropWhile fun c => c != 61).drop 1

/-- The name that stands for a key in topics: its translation, if it has one. -/
def publishedName (key : List UInt8) : List UInt8 :=
  match publisher.translations.find? fun row => cString row.1 == key with
  | some row => cString row.2
  | none => if publisher.lowercaseTopics then key.map Publishing.toLower else key

/-- What is owed for an item. -/
def itemPublication : Publication where
  topic := topic ++ [47] ++ publishedName publisher (itemKey item)
  payload := itemValue item
  retain := publisher.retain
  qos := publisher.qos

/-- Key and value are no longer than the buffers that they are copied to, in which a `uint8_t`
counts. -/
structure ItemWhole : Prop where
  key : (itemKey item).length ≤ settings.keySize - 1
  value : (itemValue item).length ≤ settings.valueSize - 1
  counted : (itemValue item).length < 256

/-- There is room for the name in the topic. -/
def NameFits : Prop :=
  topic.length + 1 + (publishedName publisher (itemKey item)).length < settings.topicSize

/-- There is room for the key in the topic, as it is shown. -/
def KeyFits : Prop :=
  topic.length + 1 + (settings.shownKey publisher (itemKey item)).length < settings.topicSize

instance : Decidable (KeyFits settings publisher topic item) := by
  unfold KeyFits
  exact inferInstance

end Items

def framePayload (frame : Frame) : List UInt8 :=
  frame.data.load (Publishing.payloadStart frame.data)
    (Publishing.payloadLength frame.data frame.length)

variable (settings : Publishing) (publisher : Publisher) (frame : Frame)

/-- `send_frame` returns, and has published each item once. -/
def PublishesItems : Prop :=
  ∃ turns sent, publisher.sendFrame settings { frame with turns := turns } = some sent ∧
    sent.published.map Prod.fst = (items (framePayload frame)).map
      (itemPublication publisher ((settings.composeTopic publisher frame.data).getD []))

/-- The payload has nothing but items that there is room for; or no items at all, if there is no
room for the topic. -/
def Translatable : Prop :=
  match settings.composeTopic publisher frame.data with
  | none => ∀ piece ∈ pieces (framePayload frame), (61 : UInt8) ∉ piece
  | some topic => ∀ piece ∈ pieces (framePayload frame), (61 : UInt8) ∈ piece ∧
      NameFits settings publisher topic piece ∧ ItemWhole settings piece

/-- The rows of the translation table, when `add_translation` was called with these keys. -/
def translationsBehind (added : List (List UInt8 × List UInt8)) : List (List UInt8 × List UInt8) :=
  Run.final (fun table keys => settings.addTranslation table keys.1 keys.2) [] added

/-! ## Acknowledgements -/

/-- If the call returns, then `receive_response` answers with `PJON_ACK` only if something has
been published in it. -/
def HonestResponse : Prop :=
  ∀ sent, publisher.sendFrame settings frame = some sent →
    sent.publisher.receiveResponse = ack → ∃ published ∈ sent.published, published.2 = true

/-- The loop over the items is left at one whose key there is no room for, and nothing has been
published successfully before it. -/
def LeftAtKey (topic : List UInt8) : Prop :=
  ∃ before item after, pieces (framePayload frame) = before ++ item :: after ∧
    before.length < frame.turns ∧
    (∀ piece ∈ before, (61 : UInt8) ∈ piece ∧ KeyFits settings publisher topic piece) ∧
    (61 : UInt8) ∈ item ∧ ¬KeyFits settings publisher topic item ∧
    ∀ k < before.length, frame.results k = false

/-- The call returns early, and nothing has been published successfully. -/
def ReturnsEarly : Prop :=
  match settings.composeTopic publisher frame.data with
  | none => True
  | some topic =>
    match settings.mode with
    | .mirrorTranslate => LeftAtKey settings publisher frame topic
    | .busJson =>
      settings.bufferSize ≤
        31 + Publishing.payloadLength frame.data frame.length % 256
    | _ => False

/-- What happens to a strategy that sends. -/
inductive SendEvent where
  | setTopic (topic : List UInt8)
  | sendFrame (frame : Frame)

/-- The members behind an event; a call that does not return leaves them. -/
def sendStep : SendEvent → Publisher
  | .setTopic topic => { publisher with topic := topic }
  | .sendFrame frame =>
    ((publisher.sendFrame settings frame).map fun sent => sent.publisher).getD publisher

def HonestEvent : SendEvent → Prop
  | .setTopic _ => True
  | .sendFrame frame => HonestResponse settings publisher frame

/-- The call does not return early while the success of an earlier one is remembered. -/
def FreshEvent : SendEvent → Prop
  | .setTopic _ => True
  | .sendFrame frame =>
    ¬(publisher.lastSendSuccess = true ∧ ReturnsEarly settings publisher frame)

end Pjon.Spec
