import DtPhm.Replay.Topics
import DtPhm.Lib.Loop

/-!
# Replay — a log is played back

`Replay::run` and what it calls, under the names of `Replay.cpp`.  Subscriptions are found while
another one is searched for its next message; of all of them, the message with the lowest timestamp
is published next.  A position in the file is counted in messages of the data section.

* `Message`, `LogFile` — the data section;
* `nextDataMessageLoop`, `readAndAddSubscription` — the two readers, which call each other;
* `readAndHandleAdditionalMessages` — the parameters between two published messages;
* `step`, `reached` — a round of the main loop, and the states it comes to.
-/

namespace DtPhm
namespace Replay

open Lib

/-! ## The file -/

/-- A message of the data section; `other` stands for all that are passed over everywhere. -/
inductive Message
  | addLoggedMsg (add : AddLoggedMsg)
  | data (msgId : UInt16) (payload : List UInt8)
  | parameter (key : Text) (value : List UInt8)
  | other

/-- A log without appended data: `_file_formats`, and the data section, which starts with a
subscription. A name without a format has the empty one. -/
structure LogFile where
  fileFormats : Text → Text
  first : AddLoggedMsg
  rest : List Message

/-- The data section. -/
def LogFile.messages (file : LogFile) : List Message := .addLoggedMsg file.first :: file.rest

/-! ## The readers -/

/-- What a replay does outside: a parameter is set, or a message of a subscription is published.
Both are given by positions. -/
inductive Event
  | applied (position : ℕ)
  | published (subscription position : ℕ)
  deriving DecidableEq, Repr

/-- The members of `Replay`.  Subscriptions are on the heap, at the positions of their messages;
`_subscriptions` holds pointers to them, up to its size. -/
structure State where
  heap : ℕ → Option Subscription
  subscriptions : ℕ → Option ℕ
  size : ℕ
  subscriptionFilePos : ℕ
  lastAdditionalMessagePos : ℕ
  events : List Event

/-- The timestamp of a message, if it has the ID and the size that is looked for. -/
def Subscription.timestamp (sub : Subscription) (msgId : ℕ) : Message → Option ℕ
  | .data fileMsgId payload =>
      if msgId = fileMsgId.toNat ∧
        some payload.length = sub.orbMeta.map OrbMetadata.oSizeNoPadding then
        some (leValue ((payload.drop sub.timestampOffset).take 8))
      else none
  | _ => none

/-- `readAndAddSubscription`, for the message at a position; `nextDataMessage` is given what is
behind it. -/
def readAndAddSubscription (b : Build) (fileFormats : Text → Text)
    (nextDataMessage : State → Subscription → ℕ → State × Subscription) (st : State) (position : ℕ)
    (add : AddLoggedMsg) : State :=
  -- already read this subscription
  if position + 1 ≤ st.subscriptionFilePos then st
  else
    let st := { st with subscriptionFilePos := position + 1 }
    match b.subscribe fileFormats position add with
    | none => st
    | some sub =>
        let msgId := add.readId.toNat
        let (st, sub) := nextDataMessage st sub msgId
        -- no message found
        if sub.orbMeta.isNone then st
        else
          { st with
            heap := Function.update st.heap position (some sub)
            subscriptions := Function.update st.subscriptions msgId (some position)
            size := max st.size (msgId + 1) }

/-- The loop of `nextDataMessage`, on the messages from a position on. -/
def nextDataMessageLoop (b : Build) (fileFormats : Text → Text) :
    List Message → (position : ℕ) → State → Subscription → (msgId : ℕ) → State × Subscription
  | [], _, st, sub, _ => (st, { sub with orbMeta := none })
  | m :: ms, position, st, sub, msgId =>
      match m with
      | .addLoggedMsg add =>
          let st := readAndAddSubscription b fileFormats
            (fun st sub msgId => nextDataMessageLoop b fileFormats ms (position + 1) st sub msgId)
              st
            position add
          nextDataMessageLoop b fileFormats ms (position + 1) st sub msgId
      | m =>
          match sub.timestamp msgId m with
          | some timestamp =>
              (st, { sub with nextReadPos := position, nextTimestamp := timestamp })
          | none => nextDataMessageLoop b fileFormats ms (position + 1) st sub msgId

/-- `nextDataMessage`; the first message was read before. -/
def nextDataMessage (b : Build) (file : LogFile) (st : State) (sub : Subscription) (msgId : ℕ) :
    State × Subscription :=
  nextDataMessageLoop b file.fileFormats (file.messages.drop (sub.nextReadPos + 1))
    (sub.nextReadPos + 1) st sub msgId

/-! ## Parameters -/

/-- `readAndApplyParameter`: whether the parameter is set, or none for an error. -/
def readAndApplyParameter (b : Build) (key : Text) : Option Bool :=
  match find ' ' key with
  | none => none
  | some space =>
      let type := key.take space
      let paramName := key.drop (space + 1)
      if b.overriddenParams.contains paramName then some false
      else if type ≠ "int32_t".toList ∧ type ≠ "float".toList then some false
      else some (b.params.contains paramName)

/-- `readAndHandleAdditionalMessages`, on the messages up to the end position: the parameters that
are set. -/
def readAndHandleAdditionalMessages (b : Build) : List Message → (position : ℕ) → List Event
  | [], _ => []
  | .parameter key _ :: ms, position =>
      match readAndApplyParameter b key with
      | none => []
      | some true => .applied position :: readAndHandleAdditionalMessages b ms (position + 1)
      | some false => readAndHandleAdditionalMessages b ms (position + 1)
  | _ :: ms, position => readAndHandleAdditionalMessages b ms (position + 1)

/-! ## The main loop -/

namespace State

variable (st : State)

/-- The subscriptions with messages left: index, pointer and subscription. -/
def active : List (ℕ × ℕ × Subscription) :=
  (List.range st.size).filterMap fun i =>
    (st.subscriptions i).bind fun pointer =>
      (st.heap pointer).bind fun sub =>
        if sub.orbMeta.isSome then some (i, pointer, sub) else none

/-- The first one with the lowest timestamp. -/
def next : Option (ℕ × ℕ × Subscription) :=
  st.active.foldl
    (fun best candidate =>
      match best with
      | none => some candidate
      | some b => if candidate.2.2.nextTimestamp < b.2.2.nextTimestamp then some candidate else
        some b)
    none

/-- `publishTopic` publishes: the subscription is advertised, or it can be. -/
def Publishes (sub : Subscription) : Prop :=
  sub.advertised = true ∨ sub.multiId = 0 ∨
    ∃ other ∈ st.active, other.2.2.orbMeta.map OrbMetadata.oName =
      sub.orbMeta.map OrbMetadata.oName ∧
      other.2.2.advertised = true ∧ other.2.2.multiId.toNat + 1 = sub.multiId.toNat

instance (sub : Subscription) : Decidable (st.Publishes sub) := inferInstanceAs (Decidable (_ ∨ _))

/-- The additional messages up to the message of a subscription are handled, and it is published. -/
def publish (b : Build) (file : LogFile) (pointer : ℕ) (sub : Subscription) : State :=
  let first := st.lastAdditionalMessagePos
  let additional := (file.messages.drop first).take (sub.nextReadPos - first)
  let published : List Event :=
    if st.Publishes sub then [.published pointer sub.nextReadPos] else []
  { st with
    lastAdditionalMessagePos := sub.nextReadPos
    events := st.events ++ readAndHandleAdditionalMessages b additional first ++ published }

/-- The subscription goes on to its next message. -/
def advance (b : Build) (file : LogFile) (msgId pointer : ℕ) (sub : Subscription) : State :=
  let (st, sub) := nextDataMessage b file st sub msgId
  { st with heap := Function.update st.heap pointer (some sub) }

end State

/-- One round of the loop of `run`, or none when no subscription has messages left. -/
def step (b : Build) (file : LogFile) (st : State) : Option State :=
  match st.next with
  | none => none
  | some (msgId, pointer, sub) =>
      -- a message without a timestamp is not valid
      if sub.nextTimestamp = 0 then some (st.advance b file msgId pointer sub)
      else
        let sub' := { sub with advertised := sub.advertised || decide (st.Publishes sub) }
        some ((st.publish b file pointer sub).advance b file msgId pointer sub')

/-- Before the loop: the first message has been read, and what it leads to. -/
def start (b : Build) (file : LogFile) : State :=
  readAndAddSubscription b file.fileFormats (nextDataMessageLoop b file.fileFormats file.rest 1)
    { heap := fun _ => none
      subscriptions := fun _ => none
      size := 0
      subscriptionFilePos := 0
      lastAdditionalMessagePos := 0
      events := [] }
    0 file.first

/-- The state after `n` rounds. -/
def reached (b : Build) (file : LogFile) (n : ℕ) : State := rounds (step b file) n (start b file)

end Replay
end DtPhm
