import DtPhm.Lib.Run
import Mathlib.Data.List.Nodup
import Mathlib.Logic.Function.Basic

/-!
# Lockstep — waiting for the simulated time

In simulation the time is set from outside, and a thread waits for it on a condition of its own.
Each thread has one `TimedWait`, which is used again for its next wait and may be on the list of the
scheduler long after a wait has ended.  `cond_timedwait` and `set_absolute_time` run against each
other; a step is what one thread does between two accesses to what others may change.

* `TimedWait`, `Place`, `Setter`, `Lockstep` — the scheduler, and where its threads are;
* `step` — the two functions, with the locks and conditions of their callers;
* `Setter.Ahead` — the waits that `set_absolute_time` still comes to.

One thread sets the time.  Threads that end or are cancelled, and errors of the conditions, are left
out.
-/

namespace DtPhm
namespace Platform

/-- A wait of a thread: the condition, its lock, and how far the wait is. -/
structure TimedWait (κ μ : Type*) where
  passedCond : Option κ
  passedLock : Option μ
  timeUs : ℕ
  timeout : Bool
  done : Bool
  removed : Bool
  deriving DecidableEq, Repr

/-- Where a thread is in `cond_timedwait`, from `pthread_cond_wait` on. -/
inductive Place
  | ready
  | waiting
  | woken
  | resumed
  | read (timeout : Bool)
  | done (timeout : Bool)
  | aside
  | unlocked
  | passed
  deriving DecidableEq, Repr

namespace Place

/-- The wait is not marked as done. -/
def early : Place → Bool
  | ready | waiting | woken | resumed | read _ => true
  | _ => false

/-- The thread has not been woken. -/
def asleep : Place → Bool
  | ready | waiting => true
  | _ => false

/-- The thread holds the lock of the wait. -/
def owns : Place → Bool
  | ready | resumed | read _ | done _ | aside => true
  | _ => false

/-- The thread does not return before `set_absolute_time` is done. -/
def attended : Place → Bool
  | read timeout | done timeout => !timeout
  | passed => false
  | _ => true

/-- The thread has seen that the time has passed. -/
def timedOut : Place → Bool
  | read timeout | done timeout => timeout
  | _ => false

end Place

/-- Where a thread is: not in `cond_timedwait`, or returned from a wait until a time, or before the
list, or in its wait. -/
inductive Waiter (κ μ : Type*)
  | outside
  | returned (timeUs : ℕ) (timedOut : Bool)
  | called (cond : κ) (lock : μ) (timeUs : ℕ)
  | inside (cond : κ) (lock : μ) (place : Place)
  deriving DecidableEq, Repr

namespace Waiter

variable {κ μ : Type*}

/-- The thread does something else. -/
def isOutside : Waiter κ μ → Bool
  | outside | returned .. => true
  | _ => false

/-- The lock that the thread holds for the wait. -/
def owned : Waiter κ μ → Option μ
  | called _ lock _ => some lock
  | inside _ lock place => if place.owns then some lock else none
  | _ => none

/-- Who waits on the condition wakes up. -/
def hear [DecidableEq κ] (cond : Option κ) : Waiter κ μ → Waiter κ μ
  | inside c lock .waiting => if some c = cond then inside c lock .woken else inside c lock .waiting
  | w => w

section

variable [DecidableEq κ]

@[simp] theorem owned_hear (cond : Option κ) (w : Waiter κ μ) : (w.hear cond).owned = w.owned := by
  rcases w with _ | _ | _ | ⟨c, lock, place⟩
  · rfl
  · rfl
  · rfl
  · cases place with
    | waiting =>
        dsimp only [hear]
        split <;> rfl
    | _ => rfl

@[simp] theorem isOutside_hear (cond : Option κ) (w : Waiter κ μ) :
    (w.hear cond).isOutside = w.isOutside := by
  rcases w with _ | _ | _ | ⟨c, lock, place⟩
  · rfl
  · rfl
  · rfl
  · cases place with
    | waiting =>
        dsimp only [hear]
        split <;> rfl
    | _ => rfl

theorem hear_eq_inside {cond : Option κ} {w : Waiter κ μ} {c : κ} {lock : μ} {place : Place}
    (h : w.hear cond = inside c lock place) :
    ∃ place', w = inside c lock place' ∧ place'.owns = place.owns := by
  rcases w with _ | _ | _ | ⟨c', lock', place'⟩
  · cases h
  · cases h
  · cases h
  · cases place' with
    | waiting =>
        dsimp only [hear] at h
        split at h
        · cases h
          exact ⟨_, rfl, rfl⟩
        · cases h
          exact ⟨_, rfl, rfl⟩
    | _ => exact ⟨_, h, rfl⟩

theorem hear_eq_returned {cond : Option κ} {w : Waiter κ μ} {timeUs : ℕ} {timedOut : Bool}
    (h : w.hear cond = returned timeUs timedOut) : w = returned timeUs timedOut := by
  rcases w with _ | _ | _ | ⟨c, lock, place⟩
  · exact h
  · exact h
  · exact h
  · cases place with
    | waiting =>
        dsimp only [hear] at h
        split at h <;> cases h
    | _ => exact h

end

end Waiter

/-- Where `set_absolute_time` is: `rest` are the waits from the next one on. -/
inductive Setter (τ : Type*)
  | idle
  | stored (timeUs : ℕ)
  | locked (timeUs : ℕ)
  | walking (timeUs : ℕ) (rest : List τ)
  | locking (timeUs : ℕ) (n : τ) (rest : List τ)
  | holding (timeUs : ℕ) (n : τ) (rest : List τ)
  | signalled (timeUs : ℕ) (n : τ) (rest : List τ)
  | cleared
  deriving DecidableEq, Repr

namespace Setter

variable {τ : Type*}

/-- It holds `_timed_waits_mutex`. -/
def holdsMutex : Setter τ → Bool
  | idle | stored _ => false
  | _ => true

/-- `_setting_time`. -/
def settingTime : Setter τ → Bool
  | walking .. | locking .. | holding .. | signalled .. => true
  | _ => false

/-- The time that it sets. -/
def time : Setter τ → Option ℕ
  | stored timeUs | locked timeUs | walking timeUs _ => some timeUs
  | locking timeUs _ _ | holding timeUs _ _ | signalled timeUs _ _ => some timeUs
  | idle | cleared => none

/-- The waits that it has not gone past. -/
def remaining : Setter τ → List τ
  | walking _ rest => rest
  | locking _ n rest | holding _ n rest | signalled _ n rest => n :: rest
  | _ => []

/-- The wait whose lock it takes, or holds. -/
def target : Setter τ → Option τ
  | locking _ n _ | holding _ n _ | signalled _ n _ => some n
  | _ => none

/-- The wait whose lock it holds. -/
def held : Setter τ → Option τ
  | holding _ n _ | signalled _ n _ => some n
  | _ => none

/-- The wait that it has found due, and not marked yet. -/
def due : Setter τ → Option τ
  | locking _ n _ | holding _ n _ => some n
  | _ => none

/-- It still comes to a wait. -/
def Ahead (n : τ) : Setter τ → Prop
  | stored _ | locked _ => True
  | walking _ rest | signalled _ _ rest => n ∈ rest
  | locking _ m rest | holding _ m rest => n = m ∨ n ∈ rest
  | idle | cleared => False

theorem target_of_due {s : Setter τ} {n : τ} (h : s.due = some n) : s.target = some n := by
  cases s with
  | locking | holding => exact h
  | _ => cases h

theorem holdsMutex_of_target {s : Setter τ} {n : τ} (h : s.target = some n) :
    s.holdsMutex = true ∧ s.settingTime = true := by
  cases s with
  | locking | holding | signalled => exact ⟨rfl, rfl⟩
  | _ => cases h

theorem target_of_held {s : Setter τ} {n : τ} (h : s.held = some n) : s.target = some n := by
  cases s with
  | holding | signalled => exact h
  | _ => cases h

end Setter

/-- Who holds a lock. -/
inductive Owner (τ : Type*)
  | thread (n : τ)
  | setter
  deriving DecidableEq, Repr

/-- The scheduler, the locks of the waits, and the threads. -/
structure Lockstep (τ κ μ : Type*) where
  timeUs : ℕ
  timedWaits : List τ
  waits : τ → TimedWait κ μ
  holder : μ → Option (Owner τ)
  threads : τ → Waiter κ μ
  setter : Setter τ

namespace Lockstep

variable {τ κ μ : Type*}

/-- What happens: a thread that is not in the scheduler takes or gives back a lock, or calls
`cond_timedwait`; a thread goes on in it, or is woken by someone else; the time is set. -/
inductive Event (τ κ μ : Type*)
  | lock (n : τ) (lock : μ)
  | unlock (n : τ) (lock : μ)
  | call (n : τ) (cond : κ) (lock : μ) (timeUs : ℕ)
  | run (n : τ)
  | wake (n : τ)
  | setAbsoluteTime (timeUs : ℕ)
  | set
  deriving DecidableEq, Repr

/-- The time that is set. -/
def Event.time : Event τ κ μ → ℕ
  | .setAbsoluteTime timeUs => timeUs
  | _ => 0

section

variable [DecidableEq τ] [DecidableEq κ] [DecidableEq μ] (s : Lockstep τ κ μ)

def setThread (n : τ) (w : Waiter κ μ) : Lockstep τ κ μ :=
  { s with threads := Function.update s.threads n w }

def setWait (n : τ) (w : TimedWait κ μ) : Lockstep τ κ μ :=
  { s with waits := Function.update s.waits n w }

def setHolder (lock : μ) (owner : Option (Owner τ)) : Lockstep τ κ μ :=
  { s with holder := Function.update s.holder lock owner }

/-- `cond_timedwait` up to the wait, under the mutex. -/
def enter (n : τ) (cond : κ) (lock : μ) (timeUs : ℕ) : Lockstep τ κ μ :=
  -- the time has already passed
  if timeUs ≤ s.timeUs then s.setThread n (.returned timeUs true)
  else
    -- add to the list if not removed yet, otherwise just re-use the object
    let timedWaits := if (s.waits n).removed then n :: s.timedWaits else s.timedWaits
    { s.setWait n ⟨some cond, some lock, timeUs, false, false, false⟩ with
      timedWaits := timedWaits }.setThread n (.inside cond lock .ready)

/-- The next step of a thread in its wait. -/
def resume (n : τ) (cond : κ) (lock : μ) : Place → Lockstep τ κ μ
  -- `pthread_cond_wait` gives back the lock and waits, and takes the lock again
  | .ready => (s.setHolder lock none).setThread n (.inside cond lock .waiting)
  | .waiting => s
  | .woken =>
      if s.holder lock = none then
        (s.setHolder lock (some (.thread n))).setThread n (.inside cond lock .resumed)
      else s
  | .resumed => s.setThread n (.inside cond lock (.read (s.waits n).timeout))
  | .read timeout =>
      (s.setWait n { s.waits n with done := true }).setThread n (.inside cond lock (.done timeout))
  | .done timeout =>
      if ¬timeout ∧ s.setter.settingTime then s.setThread n (.inside cond lock .aside)
      else s.setThread n (.returned (s.waits n).timeUs timeout)
  -- the lock is given back until `set_absolute_time` is done
  | .aside => (s.setHolder lock none).setThread n (.inside cond lock .unlocked)
  | .unlocked => if s.setter.holdsMutex then s else s.setThread n (.inside cond lock .passed)
  | .passed =>
      if s.holder lock = none then
        (s.setHolder lock (some (.thread n))).setThread n (.returned (s.waits n).timeUs false)
      else s

/-- The next step of `set_absolute_time`. -/
def goOn : Lockstep τ κ μ :=
  match s.setter with
  | .idle => s
  | .stored timeUs => { s with setter := .locked timeUs }
  | .locked timeUs => { s with setter := .walking timeUs s.timedWaits }
  | .walking _ [] => { s with setter := .cleared }
  | .walking timeUs (n :: rest) =>
      -- clean up the ones that are already done from last iteration
      if (s.waits n).done then
        { s.setWait n { s.waits n with removed := true } with
          timedWaits := s.timedWaits.erase n, setter := .walking timeUs rest }
      else if (s.waits n).timeUs ≤ timeUs ∧ ¬(s.waits n).timeout then
        { s with setter := .locking timeUs n rest }
      else { s with setter := .walking timeUs rest }
  | .locking timeUs n rest =>
      match (s.waits n).passedLock with
      | none => s
      | some lock =>
          if s.holder lock = none then
            { s.setHolder lock (some .setter) with setter := .holding timeUs n rest }
          else s
  -- the condition is abused to signal that the time has passed
  | .holding timeUs n rest =>
      { s.setWait n { s.waits n with timeout := true } with
        threads := fun m => (s.threads m).hear (s.waits n).passedCond
        setter := .signalled timeUs n rest }
  | .signalled timeUs n rest =>
      match (s.waits n).passedLock with
      | none => s
      | some lock => { s.setHolder lock none with setter := .walking timeUs rest }
  | .cleared => { s with setter := .idle }

/-- One event; who cannot go on stays where he is. -/
def step : Event τ κ μ → Lockstep τ κ μ
  | .lock n lock =>
      if (s.threads n).isOutside ∧
        s.holder lock = none then s.setHolder lock (some (.thread n)) else s
  | .unlock n lock =>
      if (s.threads n).isOutside ∧ s.holder lock = some (.thread n) then s.setHolder lock none else
        s
  | .call n cond lock timeUs =>
      if (s.threads n).isOutside ∧ s.holder lock = some (.thread n) then
        s.setThread n (.called cond lock timeUs)
      else s
  | .run n =>
      match s.threads n with
      | .called cond lock timeUs => if s.setter.holdsMutex then s else s.enter n cond lock timeUs
      | .inside cond lock place => s.resume n cond lock place
      | _ => s
  | .wake n =>
      match s.threads n with
      | .inside cond lock .waiting => s.setThread n (.inside cond lock .woken)
      | _ => s
  | .setAbsoluteTime timeUs =>
      match s.setter with
      | .idle => { s with timeUs := timeUs, setter := .stored timeUs }
      | _ => s
  | .set => s.goOn

end

/-- Before the first wait. -/
def init : Lockstep τ κ μ :=
  ⟨0, [], fun _ => ⟨none, none, 0, false, false, true⟩, fun _ => none, fun _ => .outside, .idle⟩

end Lockstep

end Platform
end DtPhm
