import DtPhm.Replay.Replay
import DtPhm.Lib.Stream

/-!
# FileReader — the bytes of a log

The readers of `Replay.cpp` on the bytes of a file, under their names: the definitions, the
additional messages between two published ones, and the search for the next message of a
subscription.  Behind the bytes that were just read, anything may stand in `_read_buffer`; a reader
that uses more than these bytes notes the message down.

* `Header`, `MessageAt` — a message as its header describes it;
* `Reader`, `Outcome` — the members of `Replay`, with the messages that have been handled;
* `Reader.readFlagBits`, `Reader.readFormat`, `Reader.readAndAddSubscription`,
  `Reader.readAndApplyParameter` — the readers of one message;
* `Reader.readFileDefinitions`, `Reader.readAndHandleAdditionalMessages`, `Reader.nextDataMessage` —
  the loops.
-/

namespace DtPhm
namespace Replay

open Lib

/-! ## Messages in a file -/

/-- `ULOG_MSG_HEADER_LEN`. -/
def ulogMsgHeaderLen : ℕ := 3

/-- `ULogMessageType`; `other` stands for the types that are passed over everywhere. -/
inductive ULogMessageType
  | flagBits
  | format
  | parameter
  | addLoggedMsg
  | data
  | dropout
  | other
  deriving DecidableEq, Repr

def ULogMessageType.ofByte (b : UInt8) : ULogMessageType :=
  if b = 'B'.toUInt8 then .flagBits
  else if b = 'F'.toUInt8 then .format
  else if b = 'P'.toUInt8 then .parameter
  else if b = 'A'.toUInt8 then .addLoggedMsg
  else if b = 'D'.toUInt8 then .data
  else if b = 'O'.toUInt8 then .dropout
  else .other

/-- `ulog_message_header_s`. -/
structure Header where
  msgSize : ℕ
  msgType : ULogMessageType
  deriving DecidableEq, Repr

/-- The header in its three bytes. -/
def Header.ofBytes : List UInt8 → Option Header
  | [low, high, type] => some ⟨leValue [low, high], .ofByte type⟩
  | _ => none

/-- The header at the position of a stream. -/
def readHeader (file : Stream) : Option Header × Stream :=
  let (bytes, file) := file.read ulogMsgHeaderLen
  (Header.ofBytes bytes, file)

/-- A message, and the position of its header. -/
structure MessageAt where
  position : ℕ
  header : Header
  deriving DecidableEq, Repr

/-- Where its body starts. -/
def MessageAt.body (m : MessageAt) : ℕ := m.position + ulogMsgHeaderLen

/-- Where the next message starts. -/
def MessageAt.next (m : MessageAt) : ℕ := m.body + m.header.msgSize

/-! ## The reader -/

/-- How a reader ends: it returns whether it was successful. -/
inductive Outcome
  | returns (ok : Bool)
  | outOfFuel
  deriving DecidableEq, Repr

/-- A message that has been handled: what its reader has returned, the file behind it, and the
subscription that it is for. -/
structure HandledMessage where
  message : MessageAt
  ok : Bool
  file : Stream
  found : Option Subscription

/-- What stands in memory where a message is read to: its bytes, and the text up to the next
zero. -/
structure Junk where
  bytes : Mem
  text : Text

/-- The file and the members of `Replay` that its readers use; what stands in `_read_buffer` before
each read; the messages that have been handled, and those of which more bytes were used than were
read. -/
structure Reader where
  file : Stream
  junk : ℕ → Junk
  reads : ℕ
  fileFormats : Text → Text
  subscriptionFilePos : ℕ
  readUntilFilePosition : ℤ
  dataSectionStart : ℕ
  subscriptions : ℕ → Option Subscription
  handled : List HandledMessage
  stale : List MessageAt

/-- The characters of bytes. -/
def toText (bytes : List UInt8) : Text := bytes.map fun b => Char.ofNat b.toNat

/-- The bytes up to a zero. -/
def cString (bytes : List UInt8) : Text := toText (bytes.takeWhile (· ≠ 0))

/-- A number of 64 bits with a sign. -/
def int64 (bytes : List UInt8) : ℤ :=
  let value : ℤ := leValue bytes
  if value < 2 ^ 63 then value else value - 2 ^ 64

namespace Reader

variable (b : Build) (r : Reader) (m : MessageAt)

/-- A message is passed over. -/
def skip : Reader := { r with file := r.file.skip m.header.msgSize }

/-- `_read_buffer` with these bytes at its front. -/
def buffer (bytes : List UInt8) : Mem := store (r.junk r.reads).bytes 0 bytes

/-- The reader after its file was read to `_read_buffer`. -/
def afterRead (file : Stream) : Reader := { r with file := file, reads := r.reads + 1 }

/-- The first `n` bytes of the message are used, of which so many are valid. -/
def uses (valid n : ℕ) : Reader := if valid < n then { r with stale := r.stale ++ [m] } else r

/-- `readFlagBits`; that the read has failed is not noticed here. -/
def readFlagBits : Reader × Outcome :=
  if m.header.msgSize ≠ 40 then (r, .returns false)
  else
    let (bytes, file) := r.file.read m.header.msgSize
    let message := r.buffer bytes
    let r := (r.afterRead file).uses m bytes.length 16
    let incompatFlags := load message 8 8
    if incompatFlags.headD 0 &&& 0xfe ≠ 0 ∨ incompatFlags.tail.any (· ≠ 0) then (r, .returns false)
    else if incompatFlags.headD 0 &&& 1 ≠ 0 then
      let r := r.uses m bytes.length 40
      let offset := load message 16 8
      (if 0 < leValue offset then { r with readUntilFilePosition := int64 offset } else r,
        .returns true)
    else (r, .returns true)

/-- `readFormat`. -/
def readFormat : Reader × Outcome :=
  let (bytes, file) := r.file.read m.header.msgSize
  let r := r.afterRead file
  if file.fail then (r, .returns false)
  else
    let strFormat := cString bytes
    match find ':' strFormat with
    | none => (r, .returns false)
    | some pos =>
        ({ r with
          fileFormats :=
            Function.update r.fileFormats (strFormat.take pos) (strFormat.drop (pos + 1)) },
          .returns true)

/-- The end of `readAndAddSubscription`: the first message is searched for, and the file goes
back. -/
def addSubscription
    (nextDataMessage : Reader → Subscription → ℕ → Reader × Subscription × Outcome)
    (sub : Subscription) (msgId : ℕ) : Reader × Outcome :=
  let curPos := r.file.pos
  let (r, sub, outcome) := nextDataMessage r sub msgId
  if outcome ≠ .returns true then (r, outcome)
  else
    let r := { r with file := r.file.seek curPos }
    -- no message found
    if sub.orbMeta.isNone then (r, .returns true)
    else
      ({ r with subscriptions := Function.update r.subscriptions msgId (some sub) }, .returns true)

/-- `readAndAddSubscription`; the byte behind the message is set to zero. -/
def readAndAddSubscription
    (nextDataMessage : Reader → Subscription → ℕ → Reader × Subscription × Outcome) :
    Reader × Outcome :=
  let thisMessagePos := r.file.pos - ulogMsgHeaderLen
  let (bytes, file) := r.file.read m.header.msgSize
  let message := store (r.buffer bytes) m.header.msgSize [0]
  let junk := (r.junk r.reads).text
  let r := r.afterRead file
  if file.fail then (r, .returns false)
  -- already read this subscription
  else if file.tell ≤ r.subscriptionFilePos then (r, .returns true)
  else
    let r := ({ r with subscriptionFilePos := file.pos } : Reader).uses m (m.header.msgSize + 1) 4
    let topicName := if 3 ≤ m.header.msgSize then cString (bytes.drop 3) else junk
    let add : AddLoggedMsg :=
      ⟨message 0, UInt16.ofNat (leValue [message 1, message 2]), topicName⟩
    match b.subscribe r.fileFormats thisMessagePos add with
    | none => (r, .returns true)
    | some sub => r.addSubscription nextDataMessage sub add.readId.toNat

/-- `readAndApplyParameter`; the value of a parameter that is set has four bytes. -/
def readAndApplyParameter : Reader × Outcome :=
  let (bytes, file) := r.file.read m.header.msgSize
  let message := r.buffer bytes
  let r := r.afterRead file
  if file.fail then (r, .returns false)
  else
    let keyLen := (message 0).toNat
    let r := r.uses m m.header.msgSize (1 + keyLen)
    match Replay.readAndApplyParameter b (toText (load message 1 keyLen)) with
    | none => (r, .returns false)
    | some true => (r.uses m m.header.msgSize (1 + keyLen + 4), .returns true)
    | some false => (r, .returns true)

/-- `readDropout`: two bytes are read, whatever size the message has. -/
def readDropout : Reader := { r with file := (r.file.read 2).2 }

/-- The message has been handled. -/
def note (ok : Bool) (found : Option Subscription) : Reader :=
  { r with handled := r.handled ++ [⟨m, ok, r.file, found⟩] }

/-! ### The loops -/

/-- The switch of `readFileDefinitions`. -/
def handleDefinition : Reader × Outcome :=
  match m.header.msgType with
  | .flagBits => r.readFlagBits m
  | .format => r.readFormat m
  | .parameter => r.readAndApplyParameter b m
  | _ => (r.skip m, .returns true)

/-- The loop of `readFileDefinitions`. -/
def readFileDefinitionsLoop : (fuel : ℕ) → Reader → Reader × Outcome
  | 0, r => (r, .outOfFuel)
  | fuel + 1, r =>
      let position := r.file.pos
      match readHeader r.file with
      | (none, file) => ({ r with file := file }, .returns false)
      | (some header, file) =>
          let r := { r with file := file }
          if header.msgType = .addLoggedMsg then
            ({ r with dataSectionStart := file.pos - ulogMsgHeaderLen }, .returns true)
          else
            let m : MessageAt := ⟨position, header⟩
            let (r, outcome) := r.handleDefinition b m
            match outcome with
            | .returns true => readFileDefinitionsLoop fuel (r.note m true none)
            | .returns false => (r.note m false none, .returns false)
            | .outOfFuel => (r, .outOfFuel)

/-- `readFileDefinitions`, behind the header of the file. -/
def readFileDefinitions : Reader × Outcome :=
  readFileDefinitionsLoop b (r.file.content.length + 1) { r with file := r.file.seek 16 }

/-- The switch of `readAndHandleAdditionalMessages`; what `readDropout` returns is not looked at. -/
def handleAdditional : Reader × Outcome :=
  match m.header.msgType with
  | .parameter => r.readAndApplyParameter b m
  | .dropout => (r.readDropout, .returns true)
  | _ => (r.skip m, .returns true)

/-- The loop of `readAndHandleAdditionalMessages`. -/
def readAndHandleAdditionalMessagesLoop (endPosition : ℕ) : (fuel : ℕ) → Reader → Reader × Outcome
  | 0, r => (r, .outOfFuel)
  | fuel + 1, r =>
      if ¬r.file.tell < endPosition then (r, .returns true)
      else
        let position := r.file.pos
        match readHeader r.file with
        | (none, file) => ({ r with file := file }, .returns false)
        | (some header, file) =>
            let m : MessageAt := ⟨position, header⟩
            let (r, outcome) := ({ r with file := file } : Reader).handleAdditional b m
            match outcome with
            | .returns true =>
                readAndHandleAdditionalMessagesLoop endPosition fuel (r.note m true none)
            | .returns false => (r.note m false none, .returns false)
            | .outOfFuel => (r, .outOfFuel)

/-- `readAndHandleAdditionalMessages`. -/
def readAndHandleAdditionalMessages (endPosition : ℕ) : Reader × Outcome :=
  readAndHandleAdditionalMessagesLoop b endPosition (r.file.content.length + 1) r

/-- The end of `nextDataMessage`: at the end of the file there are no more messages. -/
def finish (sub : Subscription) : Reader × Subscription × Outcome :=
  if r.file.eof then ({ r with file := r.file.clear }, { sub with orbMeta := none }, .returns true)
  else (r, sub, .returns r.file.good)

/-- The case of a data message in `nextDataMessage`, with the subscription if the message is for
it. -/
def readData (sub : Subscription) (msgId : ℕ) : Reader × Option Subscription :=
  let (fileMsgId, file) := r.file.read 2
  let r := { r with file := file }
  if file.fail then (r, none)
  else if msgId = leValue fileMsgId ∧
      sub.orbMeta.map (fun topic => topic.oSizeNoPadding + 2) = some m.header.msgSize then
    let (bytes, file) := (file.skip sub.timestampOffset).read 8
    ({ r with file := file },
      some
        { sub with
          nextReadPos := m.position
          nextTimestamp := leValue (bytes ++ (leBytes 8 sub.nextTimestamp).drop bytes.length) })
  -- the difference wraps around, and so goes back
  else ({ r with file := file.skip (m.header.msgSize - 2) }, none)

/-- The first message, which was read before, is passed over. -/
def skipFirst (sub : Subscription) : Reader :=
  match readHeader (r.file.seek sub.nextReadPos) with
  | (none, file) => { r with file := file }
  | (some header, file) => { r with file := file.skip header.msgSize }

/-- The loop of `nextDataMessage`. -/
def nextDataMessageLoop :
    (fuel : ℕ) → Reader → Subscription → (msgId : ℕ) → Reader × Subscription × Outcome
  | 0, r, sub, _ => (r, sub, .outOfFuel)
  | fuel + 1, r, sub, msgId =>
      if r.file.fail then r.finish sub
      else
        let position := r.file.pos
        match readHeader r.file with
        | (none, file) => ({ r with file := file } : Reader).finish sub
        | (some header, file) =>
            let m : MessageAt := ⟨position, header⟩
            let r := { r with file := file }
            if r.readUntilFilePosition < (m.next : ℤ) then
              ({ r with file := file.setEof } : Reader).finish sub
            else
              match header.msgType with
              | .addLoggedMsg =>
                  let (r, outcome) := r.readAndAddSubscription b m fun r sub msgId =>
                    nextDataMessageLoop fuel (r.skipFirst sub) sub msgId
                  -- what it returns is not looked at
                  match outcome with
                  | .returns ok => nextDataMessageLoop fuel (r.note m ok none) sub msgId
                  | .outOfFuel => (r, sub, .outOfFuel)
              | .data =>
                  match r.readData m sub msgId with
                  | (r, some sub) => (r.note m true (some sub)).finish sub
                  | (r, none) => nextDataMessageLoop fuel (r.note m true none) sub msgId
              | _ => nextDataMessageLoop fuel ((r.skip m).note m true none) sub msgId

/-- `nextDataMessage`. -/
def nextDataMessage (sub : Subscription) (msgId : ℕ) : Reader × Subscription × Outcome :=
  nextDataMessageLoop b (r.file.content.length + 1) (r.skipFirst sub) sub msgId

end Reader

end Replay
end DtPhm
