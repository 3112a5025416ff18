import DtPhm.Dataman.Backends
import DtPhm.Platform.SqQueue
import DtPhm.Lib.Run

/-!
# WorkQueue — the data manager as its callers share it

A call of `dm_write`, `dm_read`, `dm_clear` or `dm_restart` takes a work item from the free queue,
puts it on the work queue, wakes the worker task and waits at the semaphore of its item for the
result.  The events are what a caller or the worker does between two changes of a lock or a
semaphore.  The worker is not told to exit, and no wait is interrupted.

* `WorkQ`, `WorkItem`, `Queues` — the two queues, whose items share their links with each other;
* `QueueOps` — what the code does with the queues, on their links (`linked`) or on two lists
  (`listed`);
* `Caller`, `Worker`, `Dm`, `step` — where the callers and the worker are, and what they do;
* `History`, `record` — what has been served, and what has been returned to each caller;
* `FreshMemory` — what is asked of `malloc`.
-/

namespace DtPhm
namespace Dataman

open Lib DtPhm.Platform

universe u

/-! ## The queues -/

/-- `work_q_t`, but for its lock. -/
structure WorkQ (α : Type u) where
  head : Option α
  tail : Option α
  size : ℕ
  maxSize : ℕ

/-- `g_free_q` and `g_work_q`, with the links of all work items. -/
structure Queues (α : Type u) where
  free : WorkQ α
  work : WorkQ α
  link : α → Option α

namespace WorkQ

variable {α : Type u}

/-- `init_q`. -/
def init : WorkQ α := ⟨none, none, 0, 0⟩

def queue (q : WorkQ α) (link : α → Option α) : SqQueue α := ⟨q.head, q.tail, link⟩

/-- The queue with other ends, and one item less. -/
def less (q : WorkQ α) (sq : SqQueue α) : WorkQ α := ⟨sq.head, sq.tail, q.size - 1, q.maxSize⟩

/-- The queue with other ends, and so many items more. -/
def more (q : WorkQ α) (sq : SqQueue α) (n : ℕ) : WorkQ α :=
  ⟨sq.head, sq.tail, q.size + n, if q.size + n > q.maxSize then q.size + n else q.maxSize⟩

end WorkQ

/-- What the code does with the queues while it holds the lock of one. -/
structure QueueOps (Q : Type u) (α : Type u) where
  takeFree : Q → Option α × Q
  giveFree : List α → Q → Q
  putWork : α → Q → Q
  takeWork : Q → Option α × Q

namespace Queues

variable {α : Type u}

def init (link : α → Option α) : Queues α := ⟨.init, .init, link⟩

variable [DecidableEq α]

/-- An item is taken from the free queue, in `create_work_item`. -/
def takeFree (q : Queues α) : Option α × Queues α :=
  match (q.free.queue q.link).remfirst with
  | (none, sq) => (none, ⟨⟨sq.head, sq.tail, q.free.size, q.free.maxSize⟩, q.work, sq.flink⟩)
  | (some item, sq) => (some item, ⟨q.free.less sq, q.work, sq.flink⟩)

/-- Items are put on the free queue one by one, in `create_work_item` and `destroy_work_item`. -/
def giveFree (items : List α) (q : Queues α) : Queues α :=
  let sq := items.foldl SqQueue.addfirst (q.free.queue q.link)
  ⟨q.free.more sq items.length, q.work, sq.flink⟩

/-- An item is put on the work queue, in `enqueue_work_item_and_wait_for_result`. -/
def putWork (item : α) (q : Queues α) : Queues α :=
  let sq := (q.work.queue q.link).addlast item
  ⟨q.free, q.work.more sq 1, sq.flink⟩

/-- `dequeue_work_item`. -/
def takeWork (q : Queues α) : Option α × Queues α :=
  match (q.work.queue q.link).remfirst with
  | (none, sq) => (none, ⟨q.free, ⟨sq.head, sq.tail, q.work.size, q.work.maxSize⟩, sq.flink⟩)
  | (some item, sq) => (some item, ⟨q.free, q.work.less sq, sq.flink⟩)

end Queues

/-- The queues as the code has them. -/
def linked (α : Type u) [DecidableEq α] : QueueOps (Queues α) α :=
  ⟨Queues.takeFree, Queues.giveFree, Queues.putWork, Queues.takeWork⟩

/-- The free items and the items that wait, as two lists. -/
structure Lists (α : Type u) where
  free : List α
  work : List α

/-- The same on the lists. -/
def listed (α : Type u) : QueueOps (Lists α) α where
  takeFree q := (q.free.head?, ⟨q.free.tail, q.work⟩)
  giveFree items q := ⟨items.reverse ++ q.free, q.work⟩
  putWork item q := ⟨q.free, q.work ++ [item]⟩
  takeWork q := (q.work.head?, ⟨q.free, q.work.tail⟩)

/-! ## Callers and the worker -/

/-- `work_q_item_t`, but for its link: the function and its parameters are one operation. -/
structure WorkItem (Req Res : Type u) where
  first : Bool
  op : Req
  result : Res
  waitSem : ℕ

/-- Where a caller is. -/
inductive Caller (α Req Res : Type u)
  | idle
  -- in `create_work_item`: at the free queue, at `malloc`, and with new items to put on the free
  -- queue
  | creating (op : Req)
  | allocating (op : Req)
  | adding (op : Req) (item : α) (rest : List α)
  | enqueueing (op : Req) (item : α)
  -- in `enqueue_work_item_and_wait_for_result`
  | posting (op : Req) (item : α)
  | waiting (op : Req) (item : α)
  | destroying (op : Req) (item : α) (result : Res)

/-- Where the worker is in the loop of `task_main`. -/
inductive Worker (α : Type u)
  | waiting
  | dequeueing
  | serving (item : α)
  | answering (item : α)

/-- The data manager: `memory` are the work items that `malloc` has given. -/
structure Dm (Q ι α Req Res σ : Type u) where
  queues : Q
  items : α → WorkItem Req Res
  memory : List α
  workQueued : ℕ
  callers : ι → Caller α Req Res
  worker : Worker α
  store : σ

/-- `k_work_item_allocation_chunk_size`. -/
def kWorkItemAllocationChunkSize : ℕ := 8

/-- What happens between two changes of a lock or a semaphore. -/
inductive Event (ι α Req : Type u)
  | call (caller : ι) (op : Req)
  | create (caller : ι)
  | malloc (caller : ι) (chunk : Option (α × List α))
  | add (caller : ι)
  | enqueue (caller : ι)
  | post (caller : ι)
  | wake (caller : ι)
  | destroy (caller : ι)
  | work
  | dequeue
  | serve
  | answer

namespace Dm

variable {Q ι α Req Res σ : Type u} [DecidableEq ι] [DecidableEq α]

def setCaller (s : Dm Q ι α Req Res σ) (c : ι) (at' : Caller α Req Res) : Dm Q ι α Req Res σ :=
  { s with callers := Function.update s.callers c at' }

def setItem (s : Dm Q ι α Req Res σ) (item : α) (w : WorkItem Req Res) : Dm Q ι α Req Res σ :=
  { s with items := Function.update s.items item w }

/-- One event; who is not there does nothing. -/
def step (ops : QueueOps Q α) (serve : σ → Req → Res × σ) (s : Dm Q ι α Req Res σ) :
    Event ι α Req → Dm Q ι α Req Res σ
  | .call c op =>
      match s.callers c with
      | .idle => s.setCaller c (.creating op)
      | _ => s
  | .create c =>
      match s.callers c with
      -- try to reuse item from free item queue
      | .creating op =>
          match ops.takeFree s.queues with
          | (none, q) => { s with queues := q }.setCaller c (.allocating op)
          | (some item, q) => { s with queues := q }.setCaller c (.enqueueing op item)
      | _ => s
  | .malloc c chunk =>
      match s.callers c, chunk with
      | .allocating _, none => s.setCaller c .idle
      | .allocating op, some (item, rest) =>
          { s with memory := item :: rest ++ s.memory }.setCaller c (.adding op item rest)
      | _, _ => s
  | .add c =>
      match s.callers c with
      | .adding op item rest =>
          let items := fun x =>
            if x = item then { s.items x with first := true }
            else if x ∈ rest then { s.items x with first := false } else s.items x
          { s with items := items, queues := ops.giveFree rest s.queues }.setCaller c
            (.enqueueing op item)
      | _ => s
  | .enqueue c =>
      match s.callers c with
      -- the item is the caller's own until it is on the work queue
      | .enqueueing op item =>
          let s := s.setItem item { s.items item with op := op, waitSem := 0 }
          { s with queues := ops.putWork item s.queues }.setCaller c (.posting op item)
      | _ => s
  | .post c =>
      match s.callers c with
      -- tell the work thread that work is available
      | .posting op item => { s with workQueued := s.workQueued + 1 }.setCaller c (.waiting op item)
      | _ => s
  | .wake c =>
      match s.callers c with
      | .waiting op item =>
          if (s.items item).waitSem = 0 then s
          else
            (s.setItem item { s.items item with waitSem := (s.items item).waitSem - 1 }).setCaller c
              (.destroying op item (s.items item).result)
      | _ => s
  | .destroy c =>
      match s.callers c with
      | .destroying _ item _ => { s with queues := ops.giveFree [item] s.queues }.setCaller c .idle
      | _ => s
  | .work =>
      match s.worker with
      | .waiting =>
          if s.workQueued = 0 then s
          else { s with workQueued := s.workQueued - 1, worker := .dequeueing }
      | _ => s
  | .dequeue =>
      match s.worker with
      | .dequeueing =>
          match ops.takeWork s.queues with
          | (none, q) => { s with queues := q, worker := .waiting }
          | (some item, q) => { s with queues := q, worker := .serving item }
      | _ => s
  | .serve =>
      match s.worker with
      | .serving item =>
          let (result, store) := serve s.store (s.items item).op
          { s.setItem item { s.items item with result := result } with
            store := store, worker := .answering item }
      | _ => s
  | .answer =>
      match s.worker with
      -- inform the caller that work is done
      | .answering item =>
          { s.setItem item { s.items item with waitSem := (s.items item).waitSem + 1 } with
            worker := .dequeueing }
      | _ => s

/-- Before the first call. -/
def init (q : Q) (items : α → WorkItem Req Res) (store : σ) : Dm Q ι α Req Res σ :=
  ⟨q, items, [], 0, fun _ => .idle, .waiting, store⟩

end Dm

/-! ## What has been served and returned -/

/-- Whose request an item holds, what has been served in which order, and what has been returned to
each caller; nothing is returned by a call that has found no memory. -/
structure History (ι α Req Res : Type u) where
  owner : α → ι
  served : List (ι × Req × Res)
  returned : ι → List (Req × Option Res)

namespace History

variable {ι α Req Res : Type u}

def init (owner : α → ι) : History ι α Req Res := ⟨owner, [], fun _ => []⟩

variable [DecidableEq ι] [DecidableEq α] (h : History ι α Req Res)

/-- What has been served of one caller. -/
def servedOf (c : ι) : List (Req × Res) := (h.served.filter (·.1 = c)).map (·.2)

omit [DecidableEq ι] [DecidableEq α] in
/-- What one caller has been returned. -/
def results (c : ι) : List (Req × Res) := (h.returned c).filterMap fun r => r.2.map (r.1, ·)

def return' (c : ι) (req : Req) (res : Option Res) : History ι α Req Res :=
  { h with returned := Function.update h.returned c (h.returned c ++ [(req, res)]) }

end History

/-- What an event adds to the history. -/
def record {Q ι α Req Res σ : Type u} [DecidableEq ι] [DecidableEq α] (serve : σ → Req → Res × σ)
    (s : Dm Q ι α Req Res σ) : Event ι α Req → History ι α Req Res → History ι α Req Res
  | .malloc c none, h =>
      match s.callers c with
      | .allocating req => h.return' c req none
      | _ => h
  | .enqueue c, h =>
      match s.callers c with
      | .enqueueing _ item => { h with owner := Function.update h.owner item c }
      | _ => h
  | .destroy c, h =>
      match s.callers c with
      | .destroying req _ res => h.return' c req (some res)
      | _ => h
  | .serve, h =>
      match s.worker with
      | .serving item =>
          let req := (s.items item).op
          { h with served := h.served ++ [(h.owner item, req, (serve s.store req).1)] }
      | _ => h
  | _, h => h

/-- `malloc` gives memory that is not in use, for `kWorkItemAllocationChunkSize` items. -/
def FreshMemory {Q ι α Req Res σ : Type u} (s : Dm Q ι α Req Res σ) : Event ι α Req → Prop
  | .malloc _ (some (item, rest)) =>
      (item :: rest).length = kWorkItemAllocationChunkSize ∧ (item :: rest).Nodup ∧
        ∀ x ∈ item :: rest, x ∉ s.memory
  | _ => True

end Dataman
end DtPhm
