import DtPhm.Lib.Run
import DtPhm.Lib.Family
import DtPhm.Collection.Vehicle

/-!
# Runner — timelines of a collection run

`CollectionRunner.run` executes its timelines one after another; the first one that raises ends the
run.  A timeline is a list of steps, each of which calls one method on all vehicles it selects, one
thread a vehicle.  Whatever happens in the steps, `_run_one_timeline` then stops the recorder,
clears the faults of the real vehicles and copies the offline logs.

* `executeStep`, `runSteps`, `runOneTimeline`, `next` — the runner, on a state `Runner`;
* `Cleared` — no real vehicle that was sent a fault in the last timeline has one left;
* `Clears` — the condition on a timeline, and on the vehicles before it, under which the clearing at
  its end is enough;
* `faults_cleared_iff` — along every run, the one holds after each timeline exactly when the other
  does before it.

Where a call, the recorder or the log copy raises is part of the input.
-/

namespace DtPhm
namespace Collection

open Lib

universe u v

variable {ι : Type u} {R : Type v} [DecidableEq ι] [Zero R]

/-! ## Timelines -/

/-- The configured vehicles: the keys of `self.vehicles`, in order, and each one's
`spec.backend`. -/
structure Fleet (ι : Type u) where
  ids : List ι
  nodup : ids.Nodup
  backend : ι → Backend

/-- The `targets` or `target` of a step. -/
inductive Targets (ι : Type u)
  | unset
  | all
  | named (targets : List ι)

/-- The actions that send no fault message. -/
inductive Action
  | arm
  | disarm
  | takeoff
  | goto
  | velocity
  | hover
  | land
  | mission
  deriving DecidableEq, Repr

/-- How far `_start_recording` gets. -/
inductive Start
  | notBuilt
  | notStarted
  | started
  deriving DecidableEq, Repr

/-- One step of a timeline.  `raises i` and `outcome i` belong to the thread of the `i`-th
target. -/
inductive Step (ι : Type u) (R : Type v)
  | wait (raises : Bool)
  | command (action : Action) (targets : Targets ι) (trajectoryRaises : Bool) (raises : ℕ → Bool)
      (start : Start)
  | injectFault (targets : Targets ι) (mode : UInt8) (flag : UInt64) (params : List R)
      (outcome : ℕ → Outcome)
  | clearFault (targets : Targets ι) (mode : Option UInt8)
  | unsupported (targets : Targets ι)

structure Timeline (ι : Type u) (R : Type v) where
  steps : List (Step ι R)
  /-- `recorder.stop()` raises: the workbook cannot be written. -/
  stopRaises : Bool := false
  /-- `_collect_offline_logs` raises. -/
  collectRaises : Bool := false

/-! ## The runner -/

/-- The state of the runner inside a timeline. -/
structure Round (ι : Type u) (R : Type v) where
  vehicles : ι → Vehicle R
  /-- `self.recorder` is not `None`. -/
  recorder : Bool := false
  /-- The fault calls made in the timeline, in order: a history variable. -/
  calls : List (ι × FaultCall R) := []

/-- The real vehicles, in order. -/
def Fleet.realTargets (fleet : Fleet ι) : List ι :=
  fleet.ids.filter fun v => fleet.backend v = .real

/-- `_select_targets`; `none` is the `KeyError` of an unknown name. -/
def selectTargets (fleet : Fleet ι) (isFault : Bool) : Targets ι → Option (List ι)
  | .unset =>
      if isFault then
        some (if fleet.realTargets = [] then fleet.ids else fleet.realTargets)
      else
        some fleet.ids
  | .all => some fleet.ids
  | .named targets => if ∀ v ∈ targets, v ∈ fleet.ids then some targets else none

/-- `_parallel_call` of a fault method: all threads run to their end. -/
def parallelCall (fleet : Fleet ι) (cs : List (ι × FaultCall R)) (r : Round ι R) : Round ι R :=
  { r with
    vehicles := callEach (fun v c => c.run (fleet.backend v)) cs r.vehicles
    calls := r.calls ++ cs }

/-- `_start_recording`, and whether it raises. -/
def startRecording : Start → Round ι R → Round ι R × Bool
  | .notBuilt, r => (r, true)
  | .notStarted, r => ({ r with recorder := true }, true)
  | .started, r => ({ r with recorder := true }, false)

/-- One call for each target, numbered by its thread. -/
def callTargets (targets : List ι) (call : ℕ → FaultCall R) : List (ι × FaultCall R) :=
  targets.zipIdx.map fun p => (p.1, call p.2)

/-- `_execute_step`, and whether it raises. -/
def executeStep (fleet : Fleet ι) (step : Step ι R) (r : Round ι R) : Round ι R × Bool :=
  match step with
  | .wait raises => (r, raises)
  | .command action targets trajectoryRaises raises start =>
      match selectTargets fleet false targets with
      | none => (r, true)
      | some selected =>
          if action = .mission ∧ trajectoryRaises then
            (r, true)
          else if (List.range selected.length).any raises then
            (r, true)
          else if action = .arm ∧ r.recorder = false then
            startRecording start r
          else
            (r, false)
  | .injectFault targets mode flag params outcome =>
      match selectTargets fleet true targets with
      | none => (r, true)
      | some selected =>
          let cs := callTargets selected fun i => .inject mode flag params (outcome i)
          (parallelCall fleet cs r, cs.any fun c => c.2.raises)
  | .clearFault targets mode =>
      match selectTargets fleet true targets with
      | none => (r, true)
      | some selected =>
          let cs := callTargets selected fun _ => .clear mode
          (parallelCall fleet cs r, cs.any fun c => c.2.raises)
  | .unsupported _ => (r, true)

/-- The `try` block of `_run_one_timeline`: the steps up to the first one that raises. -/
def runSteps (fleet : Fleet ι) : List (Step ι R) → Round ι R → Round ι R × Bool
  | [], r => (r, false)
  | step :: steps, r =>
      match executeStep fleet step r with
      | (r', true) => (r', true)
      | (r', false) => runSteps fleet steps r'

/-- `_clear_real_faults`. -/
def clearRealFaults (fleet : Fleet ι) (vehicles : ι → Vehicle R) : ι → Vehicle R :=
  callEach (fun v c => FaultCall.run (fleet.backend v) c)
    (callTargets fleet.realTargets fun _ => .clear none) vehicles

/-- The state of the runner between timelines. -/
structure Runner (ι : Type u) (R : Type v) where
  vehicles : ι → Vehicle R
  /-- The fault calls that the steps of the last timeline made. -/
  calls : List (ι × FaultCall R) := []
  /-- A timeline has raised, or the vehicles could not be initialized. -/
  raised : Bool := false

/-- `_run_one_timeline`. -/
def runOneTimeline (fleet : Fleet ι) (tl : Timeline ι R) (vehicles : ι → Vehicle R) : Runner ι R :=
  match runSteps fleet tl.steps { vehicles := vehicles } with
  | (r, raised) =>
      -- the `finally` block: an exception of `_stop_recording` leaves it at once
      if r.recorder ∧ tl.stopRaises then
        { vehicles := r.vehicles, calls := r.calls, raised := true }
      else
        { vehicles := clearRealFaults fleet r.vehicles
          calls := r.calls
          raised := raised || tl.collectRaises }

/-- The loop of `run`: the next timeline, unless one has raised. -/
def next (fleet : Fleet ι) (r : Runner ι R) (tl : Timeline ι R) : Runner ι R :=
  if r.raised then r else runOneTimeline fleet tl r.vehicles

/-! ## What a step does, from its input alone -/

/-- The targets are known, and the call returns on each of them. -/
def callsReturn (fleet : Fleet ι) (targets : Targets ι) (raises : ℕ → Bool) : Bool :=
  match selectTargets fleet false targets with
  | none => false
  | some selected => !(List.range selected.length).any raises

/-- The fault calls of a step. -/
def Step.faultCalls (fleet : Fleet ι) : Step ι R → List (ι × FaultCall R)
  | .injectFault targets mode flag params outcome =>
      callTargets ((selectTargets fleet true targets).getD [])
        fun i => .inject mode flag params (outcome i)
  | .clearFault targets mode =>
      callTargets ((selectTargets fleet true targets).getD []) fun _ => .clear mode
  | _ => []

/-- The recorder after a step: an `arm` on which all calls return creates it. -/
def Step.recorderAfter (fleet : Fleet ι) (recorder : Bool) : Step ι R → Bool
  | .command action targets _ raises start =>
      recorder || (action = .arm && callsReturn fleet targets raises && start ≠ .notBuilt)
  | _ => recorder

/-- The step raises. -/
def Step.raises (fleet : Fleet ι) (recorder : Bool) : Step ι R → Bool
  | .wait raises => raises
  | .command action targets trajectoryRaises raises start =>
      !callsReturn fleet targets raises || (action = .mission && trajectoryRaises) ||
        (action = .arm && !recorder && start ≠ .started)
  | .injectFault targets mode flag params outcome =>
      (selectTargets fleet true targets).isNone ||
        ((Step.injectFault targets mode flag params outcome).faultCalls fleet).any
          fun c => c.2.raises
  | .clearFault targets _ => (selectTargets fleet true targets).isNone
  | .unsupported _ => true

theorem callsReturn_iff {fleet : Fleet ι} {targets : Targets ι} {selected : List ι}
    (hsel : selectTargets fleet false targets = some selected) (raises : ℕ → Bool) :
    callsReturn fleet targets raises = !(List.range selected.length).any raises := by
  simp [callsReturn, hsel]

theorem executeStep_command (fleet : Fleet ι) (action : Action) (targets : Targets ι)
    (trajectoryRaises : Bool) (raises : ℕ → Bool) (start : Start) (r : Round ι R) :
    executeStep fleet (.command action targets trajectoryRaises raises start) r =
      ({ r with recorder := (Step.command action targets trajectoryRaises raises start :
            Step ι R).recorderAfter fleet r.recorder },
        (Step.command action targets trajectoryRaises raises start : Step ι R).raises fleet
          r.recorder) := by
  rcases r with ⟨vehicles, recorder, calls⟩
  cases hsel : selectTargets fleet false targets with
  | none =>
      simp [executeStep, hsel, Step.recorderAfter, Step.raises, callsReturn]
  | some selected =>
      simp only [executeStep, hsel, Step.recorderAfter, Step.raises, callsReturn_iff hsel]
      by_cases hmission : action = .mission ∧ trajectoryRaises
      · simp [hmission.1, hmission.2]
      · rw [if_neg hmission]
        have htraj : (decide (action = .mission) && trajectoryRaises) = false := by
          simpa using hmission
        cases hany : (List.range selected.length).any raises with
        | true =>
            simp
        | false =>
            by_cases harm : action = .arm ∧ recorder = false
            · -- the recorder is created, and started
              cases start <;> simp [harm.1, harm.2, startRecording]
            · cases recorder with
              | true =>
                  simp [htraj]
              | false =>
                  have : action ≠ .arm := fun h => harm ⟨h, rfl⟩
                  simp [htraj, this]

theorem executeStep_eq (fleet : Fleet ι) (step : Step ι R) (r : Round ι R) :
    executeStep fleet step r =
      ({ vehicles := callEach (fun v c => c.run (fleet.backend v)) (step.faultCalls fleet)
           r.vehicles
         recorder := step.recorderAfter fleet r.recorder
         calls := r.calls ++ step.faultCalls fleet },
        step.raises fleet r.recorder) := by
  cases step with
  | wait raises =>
      simp [executeStep, Step.faultCalls, Step.recorderAfter, Step.raises, callEach]
  | command action targets trajectoryRaises raises start =>
      rw [executeStep_command]
      simp [Step.faultCalls, callEach]
  | injectFault targets mode flag params outcome =>
      cases hsel : selectTargets fleet true targets with
      | none =>
          simp [executeStep, hsel, Step.faultCalls, Step.recorderAfter, Step.raises, callEach,
            callTargets]
      | some selected =>
          simp [executeStep, hsel, Step.faultCalls, Step.recorderAfter, Step.raises, parallelCall]
  | clearFault targets mode =>
      cases hsel : selectTargets fleet true targets with
      | none =>
          simp [executeStep, hsel, Step.faultCalls, Step.recorderAfter, Step.raises, callEach,
            callTargets]
      | some selected =>
          simp [executeStep, hsel, Step.faultCalls, Step.recorderAfter, Step.raises, parallelCall,
            callTargets, FaultCall.raises]
  | unsupported targets =>
      simp [executeStep, Step.faultCalls, Step.recorderAfter, Step.raises, callEach]

/-! ## What a timeline does, from its input alone -/

/-- The steps that are executed: those up to the first one that raises. -/
def executed (fleet : Fleet ι) : Bool → List (Step ι R) → List (Step ι R)
  | _, [] => []
  | recorder, step :: steps =>
      step ::
        if step.raises fleet recorder then []
        else executed fleet (step.recorderAfter fleet recorder) steps

/-- The fault calls that the steps of a timeline make. -/
def Timeline.calls (fleet : Fleet ι) (tl : Timeline ι R) : List (ι × FaultCall R) :=
  (executed fleet false tl.steps).flatMap (Step.faultCalls fleet)

/-- There is a recorder to stop when the steps are over. -/
def Timeline.recording (fleet : Fleet ι) (tl : Timeline ι R) : Bool :=
  (executed fleet false tl.steps).foldl (Step.recorderAfter fleet) false

theorem runSteps_eq (fleet : Fleet ι) (steps : List (Step ι R)) (r : Round ι R) :
    (runSteps fleet steps r).1 =
      { vehicles := callEach (fun v c => c.run (fleet.backend v))
          ((executed fleet r.recorder steps).flatMap (Step.faultCalls fleet)) r.vehicles
        recorder := (executed fleet r.recorder steps).foldl (Step.recorderAfter fleet) r.recorder
        calls := r.calls ++
          (executed fleet r.recorder steps).flatMap (Step.faultCalls fleet) } := by
  induction steps generalizing r with
  | nil =>
      simp [runSteps, executed, callEach]
  | cons step steps ih =>
      rw [runSteps, executeStep_eq, executed]
      cases hraises : step.raises fleet r.recorder with
      | true =>
          simp
      | false =>
          simp only [ih, List.flatMap_cons, List.foldl_cons, Bool.false_eq_true, if_false]
          simp [callEach, List.foldl_append]

theorem runSteps_vehicles (fleet : Fleet ι) (tl : Timeline ι R) (vehicles : ι → Vehicle R) (v : ι) :
    (runSteps fleet tl.steps { vehicles := vehicles }).1.vehicles v =
      (callsOn v (tl.calls fleet)).foldl (fun x c => c.run (fleet.backend v) x) (vehicles v) := by
  rw [runSteps_eq]
  exact callEach_apply (fun v c => c.run (fleet.backend v)) (tl.calls fleet) vehicles v

theorem callTargets_const {ι : Type u} {R : Type v} (targets : List ι) (c : FaultCall R) :
    callTargets targets (fun _ => c) = targets.map fun w => (w, c) := by
  calc callTargets targets (fun _ => c)
      = (targets.zipIdx.map Prod.fst).map fun w => (w, c) := by rw [List.map_map]; rfl
    _ = targets.map fun w => (w, c) := by rw [List.zipIdx_map_fst]

theorem callsOn_callTargets {R : Type v} {targets : List ι} (hnodup : targets.Nodup)
    (c : FaultCall R) {v : ι}
    (hv : v ∈ targets) : callsOn v (callTargets targets fun _ => c) = [c] := by
  rw [callTargets_const]
  induction targets with
  | nil =>
      simp at hv
  | cons w targets ih =>
      rcases List.nodup_cons.1 hnodup with ⟨hw, hnodup⟩
      rw [List.map_cons, callsOn_cons]
      by_cases h : w = v
      · subst h
        have hnone : callsOn w (targets.map fun w => (w, c)) = [] := by
          apply List.eq_nil_iff_forall_not_mem.2
          intro x hx
          simp [hw] at hx
        simp [hnone]
      · have hv : v ∈ targets := by simpa [Ne.symm h] using hv
        simpa [h] using ih hnodup hv

/-- `_clear_real_faults` calls `clear_fault` once on every real vehicle. -/
theorem clearRealFaults_apply (fleet : Fleet ι) (vehicles : ι → Vehicle R) {v : ι}
    (hv : v ∈ fleet.ids) (hreal : fleet.backend v = .real) :
    clearRealFaults fleet vehicles v = clearFault .real none (vehicles v) := by
  have hmem : v ∈ fleet.realTargets := by simp [Fleet.realTargets, hv, hreal]
  have hnodup : fleet.realTargets.Nodup := fleet.nodup.filter _
  rw [clearRealFaults, callEach_apply, callsOn_callTargets hnodup _ hmem, hreal]
  rfl

/-! ## Clearing -/

/-- No real vehicle that was sent a fault in the last timeline has one left on a topic. -/
def Cleared (fleet : Fleet ι) (r : Runner ι R) : Prop :=
  ∀ v ∈ fleet.ids, fleet.backend v = .real → (∃ c ∈ callsOn v r.calls, c.sendsFault) →
    ∀ t rc, (r.vehicles v).px4.ctrl t = some rc → rc.Clean

/-- The clearing at the end of a timeline is enough: for every real vehicle that is sent a fault, a
topic that the steps leave with a fault is the topic of the mode the steps leave stored, and the
recorder, if there is one, can be stopped. -/
def Clears (fleet : Fleet ι) (tl : Timeline ι R) (vehicles : ι → Vehicle R) : Prop :=
  ∀ v ∈ fleet.ids, fleet.backend v = .real → (∃ c ∈ callsOn v (tl.calls fleet), c.sendsFault) →
    ∀ t, LeavesFault .real (vehicles v) (callsOn v (tl.calls fleet)) t →
      topicOf (storedMode .real (vehicles v).lastFaultMode (callsOn v (tl.calls fleet))) = some t ∧
        ¬ (tl.recording fleet ∧ tl.stopRaises)

theorem runOneTimeline_calls (fleet : Fleet ι) (tl : Timeline ι R) (vehicles : ι → Vehicle R) :
    (runOneTimeline fleet tl vehicles).calls = tl.calls fleet := by
  have hcalls : (runOneTimeline fleet tl vehicles).calls =
      (runSteps fleet tl.steps { vehicles := vehicles }).1.calls := by
    unfold runOneTimeline
    dsimp only
    split
    · rfl
    · rfl
  rw [hcalls, runSteps_eq]
  rfl

theorem runOneTimeline_vehicles (fleet : Fleet ι) (tl : Timeline ι R) (vehicles : ι → Vehicle R)
    {v : ι} (hv : v ∈ fleet.ids) (hreal : fleet.backend v = .real) :
    (runOneTimeline fleet tl vehicles).vehicles v =
      let x := (callsOn v (tl.calls fleet)).foldl (fun x c => c.run .real x) (vehicles v)
      if tl.recording fleet ∧ tl.stopRaises then x else clearFault .real none x := by
  have hx := runSteps_vehicles fleet tl vehicles v
  have hrec : (runSteps fleet tl.steps { vehicles := vehicles }).1.recorder =
      tl.recording fleet := by
    rw [runSteps_eq]
    rfl
  rw [hreal] at hx
  simp only [runOneTimeline, hrec]
  by_cases hstop : tl.recording fleet ∧ tl.stopRaises
  · simp only [if_pos hstop]
    exact hx
  · simp only [if_neg hstop]
    rw [clearRealFaults_apply fleet _ hv hreal, hx]

theorem cleared_runOneTimeline_iff (fleet : Fleet ι) (tl : Timeline ι R)
    (vehicles : ι → Vehicle R) :
    Cleared fleet (runOneTimeline fleet tl vehicles) ↔ Clears fleet tl vehicles := by
  unfold Cleared Clears
  rw [runOneTimeline_calls]
  refine forall₄_congr ?_
  intro v hv hreal _
  refine forall_congr' ?_
  intro t
  have hleft := leavesFault_iff .real (vehicles v) (callsOn v (tl.calls fleet)) t
  have hstored : (List.foldl (fun x c => FaultCall.run .real c x) (vehicles v)
        (callsOn v (tl.calls fleet))).lastFaultMode =
      storedMode .real (vehicles v).lastFaultMode (callsOn v (tl.calls fleet)) := by
    rw [foldl_run_eq]
  have hnot : ∀ p : Px4 R, (∀ rc, p.ctrl t = some rc → rc.Clean) ↔
      ¬ ∃ rc, p.ctrl t = some rc ∧ ¬ rc.Clean := by
    intro p
    simp
  rw [runOneTimeline_vehicles fleet tl vehicles hv hreal, hnot]
  dsimp only
  by_cases hstop : tl.recording fleet ∧ tl.stopRaises
  · -- the recorder raises: what the steps left stays
    rw [if_pos hstop, ← hleft]
    simp [hstop]
  · rw [if_neg hstop, clearFault_fault_iff, ← hleft, hstored]
    simp only [hstop, not_false_eq_true, and_true]
    constructor
    · intro h hl
      by_contra hne
      exact h ⟨hne, hl⟩
    · rintro h ⟨hne, hl⟩
      exact hne (h hl)

/-- After every timeline that a run executes, no real vehicle that was sent a fault in it has one
left, exactly when the clearing at the end of every such timeline is enough. -/
theorem faults_cleared_iff (fleet : Fleet ι) (r : Runner ι R) (tls : List (Timeline ι R)) :
    AllSteps (next fleet) (fun r tl => r.raised = false → Cleared fleet (next fleet r tl)) r tls ↔
      AllSteps (next fleet) (fun r tl => r.raised = false → Clears fleet tl r.vehicles) r tls := by
  apply allSteps_congr
  intro r tl
  refine forall_congr' ?_
  intro hr
  simp only [next, hr, Bool.false_eq_true, if_false]
  exact cleared_runOneTimeline_iff fleet tl r.vehicles

/-! ## Two faults on two topics -/

/-- One real vehicle. -/
def oneReal : Fleet Unit where
  ids := [()]
  nodup := by simp
  backend := fun _ => .real

/-- A float32, by its bits. -/
structure F32 where
  bits : UInt32

instance : Zero F32 := ⟨⟨0⟩⟩

/-- A fault of mode 150 and then one of mode 10. -/
def twoFaults : Timeline Unit F32 where
  steps :=
    [.injectFault .unset 150 1 [] fun _ => .returned,
      .injectFault .unset 10 1 [] fun _ => .returned]

/-- The fault of mode 150 stays on `rfly_ctrl1`: only mode 10 is cleared. -/
theorem twoFaults_not_cleared :
    ¬ AllSteps (next oneReal)
      (fun r tl => r.raised = false → Cleared oneReal (next oneReal r tl))
      ({ vehicles := fun _ => {} } : Runner Unit F32) [twoFaults] := by
  rintro ⟨h, -⟩
  have hsent : ∃ c ∈ callsOn () (next oneReal { vehicles := fun _ => {} } twoFaults).calls,
      c.sendsFault :=
    ⟨.inject 150 1 [] .returned, List.mem_cons_self .., rfl⟩
  have hclean := h rfl () (by decide) rfl hsent .rflyCtrl1
    { flags := 1, modes := 150, controls := faultCtrls [] } rfl
  exact absurd hclean.1 (by decide)

end Collection
end DtPhm
