import DtPhm.Lib.Text
import DtPhm.Lib.Bytes

/-!
# Topics — which subscriptions of a log are replayed

The checks of `Replay::readAndAddSubscription`, under the names of `Replay.cpp`: the topic of an
`ADD_LOGGED_MSG` message must be known, its format must be the one of the running build or one that
can be converted, and it must have a timestamp of eight bytes.

* `OrbMetadata`, `Build` — the topics and the parameters of the running build;
* `Build.findFieldOffset` — a field in a format;
* `AddLoggedMsg`, `AddLoggedMsg.readId` — a subscription in the log, and its ID as it is read;
* `Build.subscribe` — the checks.
-/

namespace DtPhm
namespace Replay

open Lib

/-! ## The running build -/

/-- `orb_metadata`. -/
structure OrbMetadata where
  oName : Text
  oFields : Text
  oSize : ℕ
  oSizeNoPadding : ℕ
  deriving DecidableEq, Repr

/-- The topics of the build, the names that `param_find` knows, and the parameters in
`_overridden_params`. -/
structure Build where
  topics : List OrbMetadata
  params : List Text
  overriddenParams : List Text

/-- `findTopic`. -/
def Build.findTopic (b : Build) (name : Text) : Option OrbMetadata :=
  b.topics.find? fun topic => topic.oName = name

/-- `string::find`. -/
def find (c : Char) (s : Text) : Option ℕ := s.findIdx? (· = c)

/-- `atoi`, of a number without a sign. -/
def atoi (s : Text) : ℕ := Nat.ofDigitChars 10 ((s.dropWhile isSpace).takeWhile Char.isDigit) 0

/-- `extractArraySize`. -/
def extractArraySize (typeNameFull : Text) : Text × ℕ :=
  match find '[' typeNameFull, find ']' typeNameFull with
  | some start, some stop =>
      (typeNameFull.take start, atoi ((typeNameFull.drop (start + 1)).take (stop - start - 1)))
  | _, _ => (typeNameFull, 1)

/-- `sizeOfType`. -/
def Build.sizeOfType (b : Build) (typeName : Text) : ℕ :=
  if typeName = "int8_t".toList ∨ typeName = "uint8_t".toList then 1
  else if typeName = "int16_t".toList ∨ typeName = "uint16_t".toList then 2
  else if typeName = "int32_t".toList ∨ typeName = "uint32_t".toList then 4
  else if typeName = "int64_t".toList ∨ typeName = "uint64_t".toList then 8
  else if typeName = "float".toList then 4
  else if typeName = "double".toList then 8
  else if typeName = "char".toList ∨ typeName = "bool".toList then 1
  else ((b.findTopic typeName).map OrbMetadata.oSize).getD 0

/-- `sizeOfFullType`. -/
def Build.sizeOfFullType (b : Build) (typeNameFull : Text) : ℕ :=
  let (typeName, arraySize) := extractArraySize typeNameFull
  b.sizeOfType typeName * arraySize

/-- The loop of `findFieldOffset`, on what is left of the format: the offset of the field, and its
size. A field takes up at least its semicolon, so that no more rounds than characters are needed. -/
def Build.findFieldOffsetLoop (b : Build) (fieldName : Text) :
    (rounds : ℕ) → (offset : ℕ) → Text → Option (ℕ × ℕ)
  | 0, _, _ => none
  | rounds + 1, offset, format =>
      match find ';' format with
      | none => none
      | some fieldEnd =>
          match find ' ' format with
          | none => b.findFieldOffsetLoop fieldName rounds offset (format.drop (fieldEnd + 1))
          | some space =>
              let size := b.sizeOfFullType (format.take space)
              let name := format.drop (space + 1)
              -- where the blank is not in the field, the length of the name is a `size_t` below 0
              let name := if space < fieldEnd then name.take (fieldEnd - space - 1) else name
              if name = fieldName then some (offset, size)
              else
                b.findFieldOffsetLoop fieldName rounds (offset + size) (format.drop (fieldEnd + 1))

/-- `findFieldOffset`. -/
def Build.findFieldOffset (b : Build) (format fieldName : Text) : Option (ℕ × ℕ) :=
  b.findFieldOffsetLoop fieldName (format.length + 1) 0 format

/-! ## Subscriptions -/

/-- `ulog_message_add_logged_s`. -/
structure AddLoggedMsg where
  multiId : UInt8
  msgId : UInt16
  messageName : Text

/-- A `char` that is made a `uint16_t`; it is signed. -/
def widen (c : UInt8) : UInt16 := c.toInt8.toInt16.toUInt16

/-- The message ID as it is put together from the two characters `message[1]` and `message[2]`. -/
def AddLoggedMsg.readId (add : AddLoggedMsg) : UInt16 :=
  widen (UInt8.ofNat add.msgId.toNat) ||| widen (UInt8.ofNat (add.msgId.toNat / 256)) <<< 8

/-- The format of `sensor_combined` that is converted, with floating point times. -/
def sensorCombinedFile : Text :=
  ("uint64_t timestamp;float[3] gyro_rad;float gyro_integral_dt;" ++
    "int32_t accelerometer_timestamp_relative;float[3] accelerometer_m_s2;" ++
    "float accelerometer_integral_dt;").toList

/-- The format that it is converted to, as it is written in the comparison. -/
def sensorCombinedIntern : Text :=
  ("uint64_t timestamp;float[3] gyro_rad;uint32_t gyro_integral_dt;" ++
    "int32_t accelerometer_timestamp_relative;float[3] accelerometer_m_s2;" ++
    "uint32_t accelerometer_integral_dt").toList

/-- There is a conversion: the names are those of `sensor_combined`, and both formats have both
times. -/
def Build.Converts (b : Build) (topic : OrbMetadata) (fileFormat : Text) : Prop :=
  topic.oName = "sensor_combined".toList ∧ topic.oFields = sensorCombinedIntern ∧
    fileFormat = sensorCombinedFile ∧
    ∀ format ∈ [fileFormat, topic.oFields],
      ∀ name ∈ ["gyro_integral_dt".toList, "accelerometer_integral_dt".toList],
        (b.findFieldOffset format name).isSome

instance (b : Build) (topic : OrbMetadata) (fileFormat : Text) :
    Decidable (b.Converts topic fileFormat) := inferInstanceAs (Decidable (_ ∧ _))

/-- `Subscription`: `orbMeta` is none for `nullptr`, `advertised` says that there is an
`orb_advert`. The position to be read next is counted in messages. -/
structure Subscription where
  orbMeta : Option OrbMetadata
  advertised : Bool
  multiId : UInt8
  timestampOffset : ℕ
  nextReadPos : ℕ
  nextTimestamp : ℕ
  compat : Bool

/-- The checks of `readAndAddSubscription` on the message at a position: the subscription before its
first message is looked for, or none if it is ignored. -/
def Build.subscribe (b : Build) (fileFormats : Text → Text) (position : ℕ) (add : AddLoggedMsg) :
    Option Subscription :=
  match b.findTopic add.messageName with
  | none => none
  | some topic =>
      let fileFormat := fileFormats add.messageName
      if fileFormat ≠ topic.oFields ∧ ¬b.Converts topic fileFormat then none
      else
        match b.findFieldOffset topic.oFields "timestamp".toList with
        | none => none
        | some (offset, fieldSize) =>
            if fieldSize ≠ 8 then none
            else
              some
                { orbMeta := some topic
                  advertised := false
                  multiId := add.multiId
                  timestampOffset := offset
                  nextReadPos := position
                  nextTimestamp := 0
                  compat := decide (fileFormat ≠ topic.oFields) }

/-! ### A small build -/

/-- A topic that has a timestamp only. -/
def timeTopic (name : Text) : OrbMetadata :=
  { oName := name
    oFields := "uint64_t timestamp;".toList
    oSize := 8
    oSizeNoPadding := 8 }

/-- A build with two topics and a parameter. -/
def timeBuild : Build :=
  { topics := [timeTopic "a".toList, timeTopic "b".toList]
    params := ["P".toList]
    overriddenParams := [] }

end Replay
end DtPhm
