import Mathlib.Data.BitVec
import Mathlib.Logic.Function.Basic

/-!
# Components — the barrier of a lockstep cycle

Each component that takes part has a bit of its own.  Whoever sets the last bit of a cycle opens the
semaphore on which `wait_for_components` waits.  The bitsets are atomic integers, and a step is what
a thread does up to its next access to one of them or to the semaphore.

* `Components`, `step` — `register_component`, `unregister_component`, `lockstep_progress` and
  `wait_for_components`, in any order of their steps;
* `Stage` — where a thread is in one of them.

One thread waits.  The semaphore is ideal: a wait ends by a post only, and its count is never below
zero.
-/

namespace DtPhm
namespace Platform

/-- Where a thread is: between two accesses of the functions, or outside of them. -/
inductive Stage
  | outside
  /-- `register_component`, before it reads the bitset, and before it exchanges it. -/
  | loading (component : ℕ)
  | exchanging (component : ℕ) (expected : BitVec 32)
  /-- `unregister_component`, from the second `fetch_and` on. -/
  | leaving (component : ℕ)
  | left
  | leftOf (used : BitVec 32)
  | opening
  /-- `lockstep_progress`, from the comparison on. -/
  | progressed (component : ℕ) (prevValue : BitVec 32)
  | last
  | cleared
  | posting
  deriving DecidableEq, Repr

/-- `1 << component`. -/
def bit (component : ℕ) : BitVec 32 := BitVec.twoPow 32 component

namespace Stage

/-- What a thread knows of its component where it stands. -/
def Knows (own : Option ℕ) : Stage → Prop
  | loading _ => own = none
  | exchanging component expected => own = none ∧ component < 31 ∧
    expected.getLsbD component = false
  | leaving component | progressed component _ => own = some component
  | _ => True

/-- The thread is not in a function, or registers. -/
def registers : Stage → Bool
  | outside | loading _ | exchanging .. => true
  | _ => false

/-- The thread is not in a function, or makes progress. -/
def steady : Stage → Bool
  | outside | progressed .. | last | cleared | posting => true
  | _ => false

/-- The thread is going to open the semaphore, for the components in `used`. -/
def Opens (used : BitVec 32) : Stage → Prop
  | progressed component prevValue => prevValue ||| bit component = used
  | last | cleared | posting => True
  | _ => False

/-- The thread has cleared the progress, and not opened the semaphore yet. -/
def hasCleared : Stage → Bool
  | cleared | posting => true
  | _ => false

theorem opens_of_hasCleared {stage : Stage} (h : stage.hasCleared = true) (used : BitVec 32) :
    stage.Opens used := by
  cases stage with
  | cleared | posting => trivial
  | _ => cases h

end Stage

/-- The bitsets, the semaphore and whether it is waited for, and the threads: where each is, and the
component that it was given.  How often a component has made progress, and `wait_for_components` has
returned, is kept for the statements. -/
structure Components (τ : Type*) where
  used : BitVec 32
  progress : BitVec 32
  sem : ℕ
  waiting : Bool
  stages : τ → Stage
  own : τ → Option ℕ
  calls : τ → ℕ
  returned : ℕ

namespace Components

variable {τ : Type*}

/-- What happens: a thread calls one of the functions, or goes on in it; `compare_exchange_weak` may
fail for no reason.  The thread that waits calls, and comes through `px4_sem_wait`. -/
inductive Event (τ : Type*)
  | register (n : τ)
  | unregister (n : τ)
  | lockstepProgress (n : τ)
  | run (n : τ) (fails : Bool)
  | waitForComponents
  | wake
  deriving DecidableEq, Repr

section

variable [DecidableEq τ] (s : Components τ)

def goTo (n : τ) (stage : Stage) : Components τ :=
  { s with stages := Function.update s.stages n stage }

/-- The next step of a thread. -/
def run (n : τ) (fails : Bool) : Components τ :=
  match s.stages n with
  | .outside => s
  | .loading component =>
      -- no more components left
      if 31 ≤ component then s.goTo n .outside
      -- already used
      else if s.used &&& bit component ≠ 0 then s.goTo n (.loading (component + 1))
      else s.goTo n (.exchanging component s.used)
  | .exchanging component expected =>
      if s.used = expected ∧ fails = false then
        { s.goTo n .outside with
          used := expected ||| bit component, own := Function.update s.own n (some component) }
      else s.goTo n (.loading component)
  | .leaving component =>
      { s.goTo n .left with
        used := s.used &&& ~~~bit component, own := Function.update s.own n none }
  | .left => s.goTo n (.leftOf s.used)
  | .leftOf used => if s.progress = used ∧ used ≠ 0 then s.goTo n .opening else s.goTo n .outside
  | .opening => { s.goTo n .posting with progress := 0 }
  | .progressed component prevValue =>
      -- proceed if this is the last component setting its bit
      if prevValue ||| bit component = s.used then s.goTo n .last else s.goTo n .outside
  | .last => { s.goTo n .cleared with progress := 0 }
  | .cleared => if s.sem < 1 then s.goTo n .posting else s.goTo n .outside
  | .posting => { s.goTo n .outside with sem := s.sem + 1 }

/-- One event.  A call without a component has no effect. -/
def step : Event τ → Components τ
  | .register n => if s.stages n = .outside ∧ s.own n = none then s.goTo n (.loading 0) else s
  | .unregister n =>
      match s.stages n, s.own n with
      | .outside, some component =>
          { s.goTo n (.leaving component) with progress := s.progress &&& ~~~bit component }
      | _, _ => s
  | .lockstepProgress n =>
      match s.stages n, s.own n with
      | .outside, some component =>
          { s.goTo n (.progressed component s.progress) with
            progress := s.progress ||| bit component
            calls := Function.update s.calls n (s.calls n + 1) }
      | _, _ => s
  | .run n fails => s.run n fails
  | .waitForComponents =>
      if s.waiting then s
      else if s.used = 0 then { s with returned := s.returned + 1 }
      else { s with waiting := true }
  | .wake =>
      if s.waiting ∧ s.sem ≠ 0 then
        { s with sem := s.sem - 1, waiting := false, returned := s.returned + 1 }
      else s

end

/-- Before the first component. -/
def init : Components τ := ⟨0, 0, 0, false, fun _ => .outside, fun _ => none, fun _ => 0, 0⟩

end Components
end Platform
end DtPhm
