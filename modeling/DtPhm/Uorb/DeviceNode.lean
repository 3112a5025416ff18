import Mathlib.Logic.Function.Basic
import Mathlib.Data.List.Basic

/-!
# DeviceNode — a uORB topic and its subscribers

`DeviceNode` keeps the newest messages of a topic in a ring of slots, indexed by a generation
counter of 32 bits; every `Subscription` keeps the generation that it is going to read next.  The
messages are of an arbitrary type, and the memory of a ring starts with arbitrary content.
-/

namespace DtPhm
namespace Uorb

/-! ## The node -/

/-- The inclusive range from `left` to `right`, around the end of the counter if need be. -/
def isInRange (left value right : BitVec 32) : Bool :=
  if right > left then left ≤ value && value ≤ right
  else left ≤ value || value ≤ right  -- maybe a wraparound occurred

/-- Round up to the nearest power of two; above 128 there is none that fits, and it is 128. -/
def roundPowOfTwo8 (n : UInt8) : UInt8 :=
  if n = 0 then 1
  else
    let value := n - 1
    let value := value ||| (value >>> 1)
    let value := value ||| (value >>> 2)
    let value := value ||| (value >>> 4)
    let value := if value = 255 then value >>> 1 else value
    value + 1

/-- `uORB::DeviceNode`; `data` is `none` before the first publication. -/
structure DeviceNode (M : Type) where
  data : Option (ℕ → M)
  dataValid : Bool
  generation : BitVec 32
  queueSize : UInt8
  advertised : Bool

variable {M : Type}

/-- A node as it is constructed, with any value of the counter. -/
def DeviceNode.create (generation : BitVec 32) (queueSize : UInt8) : DeviceNode M where
  data := none
  dataValid := false
  generation := generation
  queueSize := roundPowOfTwo8 queueSize
  advertised := false

namespace DeviceNode

/-- The slot of a generation. -/
def slot (n : DeviceNode M) (generation : BitVec 32) : ℕ := generation.toNat % n.queueSize.toNat

/-- The message that is copied, and the generation of the reader after it. -/
def copy (n : DeviceNode M) (generation : BitVec 32) : Option (M × BitVec 32) :=
  match n.data with
  | none => none
  | some data =>
      if n.queueSize = 1 then
        some (data 0, n.generation)
      else
        let current := n.generation
        let size := BitVec.ofNat 32 n.queueSize.toNat
        -- nothing new was published: the previous message again
        let generation := if current = generation then generation - 1 else generation
        -- the reader is too far behind: some messages are lost
        let generation :=
          if isInRange (current - size) generation (current - 1) then generation else current - size
        some (data (n.slot generation), generation + 1)

/-- `write`: the memory of the ring is allocated by the first message, with the content `memory`. -/
def write (memory : ℕ → M) (n : DeviceNode M) (message : M) : DeviceNode M :=
  let data := n.data.getD memory
  { n with
    data := some (Function.update data (n.slot n.generation) message)
    dataValid := true
    generation := n.generation + 1 }

/-- Nobody may have published yet, and a queue does not shrink. -/
def updateQueueSize (n : DeviceNode M) (queueSize : ℕ) : Bool × DeviceNode M :=
  if n.queueSize.toNat = queueSize then
    (true, n)
  else if n.data.isSome ∨ n.queueSize.toNat > queueSize ∨ queueSize > 255 then
    (false, n)
  else
    (true, { n with queueSize := roundPowOfTwo8 (UInt8.ofNat queueSize) })

/-- If there are any previous publications, the subscriber may read the last one. -/
def getInitialGeneration (n : DeviceNode M) : BitVec 32 :=
  n.generation - (if n.dataValid then 1 else 0)

def updatesAvailable (n : DeviceNode M) (generation : BitVec 32) : BitVec 32 :=
  n.generation - generation

/-- `orb_advertise`: mark the node, and try to set the queue size; a failure is only reported. -/
def advertise (n : DeviceNode M) (queueSize : ℕ) : DeviceNode M :=
  (({ n with advertised := true } : DeviceNode M).updateQueueSize queueSize).2

def unadvertise (n : DeviceNode M) : DeviceNode M := { n with advertised := false }

end DeviceNode

/-! ## Subscribers -/

/-- A message as a subscriber received it: its place among the published messages, and how many of
these there were at that time. -/
structure Receipt (M : Type) where
  message : M
  index : ℕ
  published : ℕ

/-- A subscription: `_last_generation` and, for the statements about it, the number of messages that
had been published when it was made and what it has received since. -/
structure Subscriber (M : Type) where
  lastGeneration : BitVec 32
  since : ℕ
  received : List (Receipt M)

/-- The place of the message that the subscriber is going to read next: after the last one that it
received, or at first at the last message published before it subscribed. -/
def Subscriber.position (sub : Subscriber M) : ℕ :=
  match sub.received.getLast? with
  | some r => r.index + 1
  | none => sub.since - 1

/-- The node, everything that was published so far, and the subscribers in the order of their
subscription. -/
structure Topic (M : Type) where
  node : DeviceNode M
  published : List M
  subscribers : List (Subscriber M)

def Subscriber.subscribe (t : Topic M) : Subscriber M where
  lastGeneration := t.node.getInitialGeneration
  since := t.published.length
  received := []

/-- `update()`: `updated()`, and then a copy.  The place of the message is counted back from the
newest one. -/
def Subscriber.update (t : Topic M) (sub : Subscriber M) : Subscriber M :=
  if t.node.advertised ∧ t.node.updatesAvailable sub.lastGeneration ≠ 0 then
    match t.node.copy sub.lastGeneration with
    | some (message, generation) =>
        { sub with
          lastGeneration := generation
          received := sub.received ++
            [{ message := message
               index := t.published.length - 1 - (t.node.generation - generation).toNat
               published := t.published.length }] }
    | none => sub
  else sub

/-! ## Runs -/

inductive Event (M : Type) where
  | advertise (queueSize : ℕ)
  | unadvertise
  | subscribe
  | publish (message : M)
  | update (k : ℕ)

def Topic.step (memory : ℕ → M) (t : Topic M) : Event M → Topic M
  | .advertise queueSize => { t with node := t.node.advertise queueSize }
  | .unadvertise => { t with node := t.node.unadvertise }
  | .subscribe => { t with subscribers := t.subscribers ++ [Subscriber.subscribe t] }
  | .publish message =>
      { t with node := t.node.write memory message, published := t.published ++ [message] }
  | .update k => { t with subscribers := t.subscribers.modify k (Subscriber.update t) }

/-- A topic before its first publication. -/
def Topic.initial (generation : BitVec 32) (queueSize : UInt8) : Topic M where
  node := DeviceNode.create generation queueSize
  published := []
  subscribers := []

end Uorb
end DtPhm
