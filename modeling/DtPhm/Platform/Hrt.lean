import DtPhm.Platform.SqQueue
import Mathlib.Data.Fintype.Card

/-!
# Hrt — callouts at a time

`drv_hrt.cpp`: entries wait in a queue in the order of their deadlines, and a handler on a work
queue stands in for the interrupt of a timer.  The lock is released while a callout runs, and so the
events are what is done between two changes of the lock; every event reads the clock anew, and the
handler is queued with two readings of it.

* `Hrt`, `Isr` — the entries, the queue, the work item, and where the handler is;
* `hrtCallReschedule`, `hrtCallEnter`, `hrtCallInternal`, `hrtCancel`, `hrtCallDelay` — the
  functions;
* `Event`, `step`, `run` — calls of any threads and of the callouts themselves, and the handler;
* `Event.Meant` — a call is about no entry whose callout is running, unless it has no period;
* `fired`, `allFired` — the entries that have been taken off as due.

Times are numbers of microseconds that do not wrap.
-/

namespace DtPhm
namespace Platform

open Lib

universe u

variable {α : Type u}

/-! ## Entries and the queue -/

/-- `struct hrt_call`, but for its link: whether there is a callout, which may do anything. -/
structure HrtCall where
  deadline : ℕ
  period : ℕ
  callout : Bool
deriving DecidableEq, Repr

/-- Where `hrt_tim_isr` is: not running, in the loop, in the callout of an entry, which was taken
off the queue at the given time with the given deadline, or behind the loop. -/
inductive Isr (α : Type u)
  | idle
  | looping
  | calling (call : α) (deadline now : ℕ)
  | leaving

/-- The callout of the entry is running. -/
def Isr.Running : Isr α → α → Prop
  | .calling call _ _, entry => call = entry
  | _, _ => False

instance [DecidableEq α] (isr : Isr α) (entry : α) : Decidable (isr.Running entry) := by
  cases isr <;> unfold Isr.Running <;> infer_instance

/-- The clock when the handler is queued: in `hrt_call_reschedule`, and then in `hrt_work_queue`. -/
structure Reads where
  now : ℕ
  qtime : ℕ
deriving DecidableEq

/-- The time between the two. -/
def Reads.lag (r : Reads) : ℕ := r.qtime - r.now

/-- The state: `_hrt_work` is queued until the given time. -/
structure Hrt (α : Type u) where
  queue : SqQueue α
  calls : α → HrtCall
  work : Option ℕ
  isr : Isr α

/-- `HRT_INTERVAL_MIN`. -/
def hrtIntervalMin : ℕ := 50

/-- `HRT_INTERVAL_MAX`. -/
def hrtIntervalMax : ℕ := 50000000

namespace Hrt

/-- `hrt_init`, with entries that `hrt_call_init` has cleared. -/
def init (flink : α → Option α) : Hrt α := ⟨.init flink, fun _ => ⟨0, 0, false⟩, none, .idle⟩

variable (s : Hrt α)

def deadline (e : α) : ℕ := (s.calls e).deadline

def period (e : α) : ℕ := (s.calls e).period

/-- `hrt_called`. -/
def hrtCalled (e : α) : Bool := s.deadline e == 0

/-- `hrt_call_reschedule`: the delay counts from the second reading of the clock on. -/
def hrtCallReschedule (r : Reads) : Hrt α :=
  let now := r.now
  let delay :=
    match s.queue.peek with
    | none => hrtIntervalMax
    | some next =>
        -- set a minimal deadline so that we call ASAP
        if s.deadline next ≤ now + hrtIntervalMin then hrtIntervalMin
        else if s.deadline next < now + hrtIntervalMax then s.deadline next - now
        else hrtIntervalMax
  { s with work := some (r.qtime + delay) }

variable [DecidableEq α]

/-- The loop of `hrt_call_enter`, from an entry in the queue on. -/
def enterLoop (entry : α) : (fuel : ℕ) → (call : α) → Option (Hrt α)
  | 0, _ => none
  | fuel + 1, call =>
      match s.queue.flink call with
      | none => some { s with queue := s.queue.addafter call entry }
      | some next =>
          if s.deadline entry < s.deadline next then
            some { s with queue := s.queue.addafter call entry }
          else enterLoop entry fuel next

/-- `hrt_call_enter`. -/
def hrtCallEnter (fuel : ℕ) (entry : α) (now : Reads) : Option (Hrt α) :=
  match s.queue.peek with
  | none => some (hrtCallReschedule { s with queue := s.queue.addfirst entry } now)
  | some call =>
      if s.deadline entry < s.deadline call then
        some (hrtCallReschedule { s with queue := s.queue.addfirst entry } now)
      else s.enterLoop entry fuel call

/-- An entry is written. -/
def setCall (entry : α) (c : HrtCall) : Hrt α := { s with calls := Function.update s.calls entry c }

/-- `hrt_call_internal`. -/
def hrtCallInternal (fuel : ℕ) (entry : α) (c : HrtCall) (now : Reads) : Option (Hrt α) :=
  -- if the entry is currently queued, remove it
  (if s.deadline entry ≠ 0 then s.queue.rem fuel entry else some s.queue).bind fun queue =>
    hrtCallEnter (setCall { s with queue := queue } entry c) fuel entry now

/-- `hrt_cancel`. -/
def hrtCancel (fuel : ℕ) (entry : α) : Option (Hrt α) :=
  (s.queue.rem fuel entry).map fun queue =>
    setCall { s with queue := queue } entry { s.calls entry with deadline := 0, period := 0 }

/-- `hrt_call_delay`. -/
def hrtCallDelay (entry : α) (delay now : ℕ) : Hrt α :=
  s.setCall entry { s.calls entry with deadline := now + delay }

/-- The end of a turn of the loop of `hrt_call_invoke`: an entry with a period is entered again, at
the time `now'`. -/
def reenter (fuel : ℕ) (call : α) (deadline now : ℕ) (now' : Reads) : Option (Hrt α) :=
  if s.period call ≠ 0 then
    -- a callout may have set another deadline by `hrt_call_delay`
    let s := if s.deadline call ≤ now then
        s.setCall call { s.calls call with deadline := deadline + s.period call } else s
    (s.hrtCallEnter fuel call now').map fun s => { s with isr := .looping }
  else some { s with isr := .looping }

/-- The entry that a turn of the loop takes off the queue at the time `now`. -/
def due (now : ℕ) : Option α :=
  s.queue.peek.filter fun call => decide (s.deadline call ≤ now)

/-- A turn of the loop of `hrt_call_invoke`, up to the callout if there is one. -/
def invokeNext (fuel now : ℕ) (now' : Reads) : Option (Hrt α) :=
  match s.due now with
  | none => some { s with isr := .leaving }
  | some call =>
      (s.queue.rem fuel call).bind fun queue =>
        -- zero the deadline, as the call has occurred
        let called := setCall { s with queue := queue } call { s.calls call with deadline := 0 }
        if (s.calls call).callout then
          some { called with isr := .calling call (s.deadline call) now }
        else called.reenter fuel call (s.deadline call) now now'

/-! ## Events -/

/-- What happens between two changes of the lock, with the times that are read. -/
inductive Event (α : Type u)
  | call (entry : α) (c : HrtCall) (now : Reads)
  | cancel (entry : α)
  | delay (entry : α) (delay now : ℕ)
  | expire (now : ℕ)
  | invoke (now : ℕ) (now' : Reads)
  | returned (now' : Reads)
  | reschedule (now : Reads)

/-- An event; what the handler cannot do where it is changes nothing. -/
def step (fuel : ℕ) : Event α → Option (Hrt α)
  | .call entry c now => s.hrtCallInternal fuel entry c now
  | .cancel entry => s.hrtCancel fuel entry
  | .delay entry delay now => some (s.hrtCallDelay entry delay now)
  | .expire now =>
      match s.isr, s.work with
      -- the work item leaves its queue, and the handler starts
      | .idle, some time =>
          some (if time ≤ now then { s with work := none, isr := .looping } else s)
      | _, _ => some s
  | .invoke now now' =>
      match s.isr with
      | .looping => s.invokeNext fuel now now'
      | _ => some s
  | .returned now' =>
      match s.isr with
      | .calling call deadline now => s.reenter fuel call deadline now now'
      | _ => some s
  | .reschedule now =>
      match s.isr with
      | .leaving => some { s.hrtCallReschedule now with isr := .idle }
      | _ => some s

/-- A run of events. -/
def run (fuel : ℕ) : Hrt α → List (Event α) → Option (Hrt α)
  | s, [] => some s
  | s, e :: es => (s.step fuel e).bind fun s => run fuel s es

omit [DecidableEq α] in
/-- A call with which the queue stays one: at a time other than zero, which says that the entry is
not queued; not periodic while the callout of the entry is running, which is entered again by its
period; and a delay only from within the callout of a periodic entry.  `drv_hrt.h` asks for none of
this. -/
def Event.Meant (calls : α → HrtCall) (isr : Isr α) : Event α → Prop
  | .call entry c _ => c.deadline ≠ 0 ∧ (isr.Running entry → c.period = 0)
  | .delay entry _ _ => isr.Running entry ∧ (calls entry).period ≠ 0
  | _ => True

instance (calls : α → HrtCall) (isr : Isr α) (e : Event α) : Decidable (e.Meant calls isr) := by
  cases e <;> unfold Event.Meant <;> infer_instance

/-- All calls of a run are meant so. -/
def AllMeant (fuel : ℕ) : Hrt α → List (Event α) → Prop
  | _, [] => True
  | s, e :: es => e.Meant s.calls s.isr ∧ ∀ s' ∈ s.step fuel e, AllMeant fuel s' es

instance decidableAllMeant (fuel : ℕ) :
    (s : Hrt α) → (es : List (Event α)) → Decidable (AllMeant fuel s es)
  | _, [] => .isTrue trivial
  | s, e :: es =>
      have : ∀ s', Decidable (AllMeant fuel s' es) := fun s' => decidableAllMeant fuel s' es
      inferInstanceAs (Decidable (_ ∧ ∀ s' ∈ s.step fuel e, _))

/-- The entries that a run takes off the queue as due, with their deadlines. -/
def fired (s : Hrt α) : Event α → List (α × ℕ)
  | .invoke now _ =>
      match s.isr with
      | .looping => ((s.due now).map fun call => (call, s.deadline call)).toList
      | _ => []
  | _ => []

/-- All that a run takes off. -/
def allFired (fuel : ℕ) : Hrt α → List (Event α) → List (α × ℕ)
  | _, [] => []
  | s, e :: es => s.fired e ++ ((s.step fuel e).map fun s => allFired fuel s es).getD []

/-- The deadlines at which one entry has been taken off. -/
def firings (e : α) (fired : List (α × ℕ)) : List ℕ := (fired.filter (·.1 = e)).map (·.2)

/-- A call about the entry. -/
def Concerns (e : α) : Event α → Prop
  | .call e' _ _ => e' = e
  | .cancel e' => e' = e
  | .delay e' _ _ => e' = e
  | _ => False

instance (e : α) : DecidablePred (Concerns e) := fun ev => by
  cases ev <;> unfold Concerns <;> infer_instance

omit [DecidableEq α] in
/-- The clock as an event reads it, if it may queue the handler. -/
def reads : Event α → Reads
  | .call _ _ r => r
  | .invoke _ r => r
  | .returned r => r
  | .reschedule r => r
  | _ => ⟨0, 0⟩

end Hrt

end Platform
end DtPhm
