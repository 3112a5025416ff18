import Mathlib.Data.List.Count
import Mathlib.Data.List.Nodup
import Mathlib.Data.List.Perm.Basic
import Mathlib.Data.List.TakeWhile
import DtPhm.Lib.Proc

/-!
# Runner — the life cycle of a verification run

`VerificationRunner.run` initializes the vehicles, starts the recorder and executes the timeline;
its `finally` block stops the recorder, shuts the vehicles down, copies the offline logs and stops
the toolchain, one after the other.

* `Call` — everything outside the runner that it calls, with enough detail to make every call of a
  run different from the others; `World.raises` says which of them raise;
* `run` and its parts — the runner, on the list of calls made so far;
* `cleaned_up_iff` — every vehicle is shut down once and the toolchain is stopped once exactly when
  neither stopping the recorder nor the log copy raises.
-/

namespace DtPhm
namespace Verification

open Lib

universe u

variable {ι : Type u}

/-! ## The run and the world around it -/

/-- The methods of a backend; `initializeBackend` is its `initialize`. -/
inductive Method where
  | initializeBackend
  | shutdown
  | arm
  | disarm
  | takeoff
  | goto
  | velocity
  | hover
  | land
  | injectFault
  | clearFault
  | switchVirtualRedundancy
  | runMission
  deriving DecidableEq, Repr

/-- The `action` of a step; a text that the runner does not know is `other`. -/
inductive Action where
  | wait
  | arm
  | disarm
  | takeoff
  | goto
  | velocity
  | hover
  | land
  | injectFault
  | clearFault
  | switchVirtualRedundancy
  | mission
  | other (name : String)
  deriving DecidableEq, Repr

/-- The `targets` or `target` of a step: `all` is the default, and a single name is a list of
one. -/
inductive Targets (ι : Type u) where
  | all
  | named (targets : List ι)

structure Step (ι : Type u) where
  action : Action
  targets : Targets ι

/-- The place in the run from which a method is called on all its targets. -/
inductive Site where
  | initializing
  | step (index : ℕ)
  | shutdown
  deriving DecidableEq, Repr

/-- A call of the runner that may raise. -/
inductive Call (ι : Type u) where
  /-- the method of a backend, in the thread of the `thread`-th target -/
  | backend (site : Site) (thread : ℕ) (vehicle : ι) (method : Method)
  /-- `start` of this thread -/
  | threadStart (site : Site) (thread : ℕ)
  /-- `RealtimeDataRecorder.from_config` -/
  | recorderFromConfig
  /-- `output_dir.mkdir` of the recorder -/
  | recorderMkdir
  | recordSnapshot (vehicle : ι)
  /-- `start` of the recorder's thread -/
  | recorderThread
  /-- `_write_xlsx` -/
  | writeXlsx
  /-- `float(seconds)` of a `wait`, and the `sleep` -/
  | seconds (index : ℕ)
  | sleep (index : ℕ)
  | generateTrajectory (index : ℕ)
  /-- `snapshot` for the report -/
  | snapshot (index : ℕ) (vehicle : ι)
  /-- `PX4OfflineLogCollector.from_config` -/
  | collectorFromConfig
  | settle
  /-- `target_dir.mkdir` of the collector -/
  | collectorMkdir
  | resolveBuildDir
  | findLatestUlg (vehicle : ι)
  /-- `shutil.copy2` -/
  | copyLog (vehicle : ι)
  | toolchainStop
  | writeReport
  deriving DecidableEq, Repr

/-- What is raised; `except Exception` does not catch all of it. -/
inductive Raised where
  | exception
  | baseException
  deriving DecidableEq, Repr

/-- The run config after `build_vehicles`: the keys of `self.vehicles`, in order, and the rest. -/
structure Config (ι : Type u) where
  ids : List ι
  nodup : ids.Nodup
  /-- `spec.backend == "dt"` -/
  isDt : ι → Bool
  dryRun : Bool
  /-- `recording.enabled` -/
  recording : Bool
  /-- `offline_logs.enabled` -/
  offlineLogs : Bool
  timeline : List (Step ι)

/-- What the calls do, whether a log is found for a vehicle, and the order in which threads run.
The recorder's thread runs after a `start` that returns, and does not after one that raises an
`Exception`; an interrupt of `start` may come before it or after it. -/
structure World (ι : Type u) where
  raises : Call ι → Option Raised
  threadStarted : Bool
  started_of_returns : raises .recorderThread = none → threadStarted = true
  not_started : raises .recorderThread = some .exception → threadStarted = false
  found : ι → Bool
  order : List (ι × ℕ) → List (ι × ℕ)
  perm : ∀ threads, (order threads).Perm threads

/-- The runner: whether `self.recorder` is set, whether the recorder's `_thread` is, and the calls
made so far. -/
structure Runner (ι : Type u) where
  recorder : Bool := false
  thread : Bool := false
  calls : List (Call ι) := []

abbrev RunnerProc (ι : Type u) := Proc (Runner ι) Raised

/-! ## The runner -/

variable (cfg : Config ι) (w : World ι)

def call (c : Call ι) : RunnerProc ι := fun r =>
  ({ r with calls := r.calls ++ [c] }, w.raises c)

/-- The calls of threads, in the order in which they make them. -/
def threadCalls (site : Site) (threads : List (ι × ℕ)) (method : Method) : List (Call ι) :=
  (w.order threads).map fun thread => .backend site thread.2 thread.1 method

/-- `_parallel_call`: a thread for each target; the first error is raised after all of them have
ended.  When one cannot be started, those before it are not waited for. -/
def parallelCall (site : Site) (targets : List ι) (method : Method) (tolerateErrors : Bool) :
    RunnerProc ι := fun r =>
  let start := fun thread : ι × ℕ => w.raises (.threadStart site thread.2)
  let cs := threadCalls w site (targets.zipIdx.takeWhile fun thread => start thread = none) method
  ({ r with calls := r.calls ++ cs },
    match (targets.zipIdx.filterMap start).head? with
    | some e => some e
    | none => if tolerateErrors then none else (cs.filterMap w.raises).head?)

def initializeVehicles : RunnerProc ι :=
  parallelCall w .initializing cfg.ids .initializeBackend false

def shutdownVehicles : RunnerProc ι :=
  parallelCall w .shutdown cfg.ids .shutdown true

/-- One vehicle of `_sample_once`: an `Exception` becomes part of the row. -/
def sampleVehicle (v : ι) : RunnerProc ι :=
  (call w (.recordSnapshot v)).catching fun e => e = .exception

/-- `self._thread = …` -/
def setThread : RunnerProc ι := fun r => ({ r with thread := true }, none)

/-- `RealtimeDataRecorder.start` -/
def recorderStart : RunnerProc ι :=
  if cfg.recording then
    (call w .recorderMkdir).seq ((Proc.forEach (sampleVehicle w) cfg.ids).seq
      (setThread.seq (call w .recorderThread)))
  else .skip

/-- `self.recorder = …` -/
def setRecorder : RunnerProc ι := fun r => ({ r with recorder := true }, none)

def startRecording : RunnerProc ι :=
  (call w .recorderFromConfig).seq (setRecorder.seq (recorderStart cfg w))

/-- An exception that comes from none of the calls. -/
def raise : RunnerProc ι := fun r => (r, some .exception)

/-- `_thread.join`: a `RuntimeError` if the thread was never started. -/
def joinThread : RunnerProc ι := if w.threadStarted then .skip else raise

/-- `RealtimeDataRecorder.stop` -/
def recorderStop : RunnerProc ι := fun r =>
  if cfg.recording then
    ((if r.thread then joinThread w else .skip).seq (call w .writeXlsx)) r
  else Proc.skip r

/-- `_stop_recording` -/
def stopRecording : RunnerProc ι := fun r =>
  if r.recorder then recorderStop cfg w r else Proc.skip r

/-- The newest log of a vehicle, if there is one. -/
def copyVehicleLog (v : ι) : RunnerProc ι :=
  (call w (.findLatestUlg v)).seq (if w.found v then call w (.copyLog v) else .skip)

/-- `PX4OfflineLogCollector.collect` -/
def collect : RunnerProc ι :=
  let dtVehicles := cfg.ids.filter cfg.isDt
  if !cfg.offlineLogs ∨ cfg.dryRun ∨ dtVehicles = [] then .skip
  else
    (call w .settle).seq ((call w .collectorMkdir).seq ((call w .resolveBuildDir).seq
      (Proc.forEach (copyVehicleLog w) dtVehicles)))

def collectOfflineLogs : RunnerProc ι :=
  (call w .collectorFromConfig).seq (collect cfg w)

/-- `_select_targets`; `none` is the `KeyError` of an unknown name. -/
def selectTargets [DecidableEq ι] : Targets ι → Option (List ι)
  | .all => some cfg.ids
  | .named targets => if ∀ v ∈ targets, v ∈ cfg.ids then some targets else none

/-- The method of an action; `wait` is not looked up. -/
def methodName : Action → Option Method
  | .arm => some .arm
  | .disarm => some .disarm
  | .takeoff => some .takeoff
  | .goto => some .goto
  | .velocity => some .velocity
  | .hover => some .hover
  | .land => some .land
  | .injectFault => some .injectFault
  | .clearFault => some .clearFault
  | .switchVirtualRedundancy => some .switchVirtualRedundancy
  | .mission => some .runMission
  | .wait => none
  | .other _ => none

def recordEvent (index : ℕ) : RunnerProc ι :=
  Proc.forEach (fun v => call w (.snapshot index v)) cfg.ids

def executeStep [DecidableEq ι] (step : Step ι × ℕ) : RunnerProc ι :=
  let index := step.2
  if step.1.action = .wait then
    (call w (.seconds index)).seq
      ((if cfg.dryRun then .skip else call w (.sleep index)).seq (recordEvent cfg w index))
  else
    match selectTargets cfg step.1.targets with
    -- a `KeyError`
    | none => raise
    | some targets =>
        (if step.1.action = .mission then call w (.generateTrajectory index) else .skip).seq
          (match methodName step.1.action with
          -- a `ValueError`
          | none => raise
          | some method =>
              (parallelCall w (.step index) targets method false).seq (recordEvent cfg w index))

/-- The `try` block of `run`. -/
def body [DecidableEq ι] : RunnerProc ι :=
  (initializeVehicles cfg w).seq ((startRecording cfg w).seq
    (Proc.forEach (executeStep cfg w) (cfg.timeline.zipIdx 1)))

/-- The `finally` block of `run`. -/
def cleanup : RunnerProc ι :=
  (stopRecording cfg w).seq ((shutdownVehicles cfg w).seq
    ((collectOfflineLogs cfg w).seq (call w .toolchainStop)))

/-- `run`, after `build_vehicles` and `toolchain.start`. -/
def run [DecidableEq ι] : RunnerProc ι :=
  ((body cfg w).tryFinally (cleanup cfg w)).seq (call w .writeReport)

/-! ## Counting calls -/

/-- The call shuts down the vehicle `v`. -/
def Call.shutsDown [DecidableEq ι] (v : ι) : Call ι → Bool
  | .backend _ _ v' method => v' = v ∧ method = .shutdown
  | _ => false

/-- The calls that only the `finally` block makes. -/
def Call.isCleanup : Call ι → Bool
  | .backend _ _ _ method => method = .shutdown
  | .toolchainStop => true
  | _ => false

/-- How often a kind of call was made. -/
def Runner.count (P : Call ι → Bool) (r : Runner ι) : ℕ := r.calls.countP P

/-- Every vehicle was shut down once, and the toolchain was stopped once. -/
def Config.CleanedUp [DecidableEq ι] (r : Runner ι) : Prop :=
  (∀ v ∈ cfg.ids, r.count (Call.shutsDown v) = 1) ∧ r.count (fun c => c = .toolchainStop) = 1

variable {cfg w} {P : Call ι → Bool}

theorem call_preserves {c : Call ι} (h : P c = false) : (call w c).Preserves (Runner.count P) := by
  intro r
  simp [call, Runner.count, h]

theorem parallelCall_preserves {site : Site} {targets : List ι} {method : Method} {tolerate : Bool}
    (h : ∀ k v, P (.backend site k v method) = false) :
    (parallelCall w site targets method tolerate).Preserves (Runner.count P) := by
  intro r
  -- none of the calls that the threads add is counted
  have hnone : ∀ threads, (threadCalls w site threads method).countP P = 0 := by
    intro threads
    rw [List.countP_eq_zero]
    intro c hc
    rcases List.mem_map.1 hc with ⟨thread, _, rfl⟩
    simp [h]
  simp [parallelCall, Runner.count, hnone]

/-- No action of a timeline is a `shutdown`. -/
theorem methodName_ne_shutdown {action : Action} {method : Method}
    (h : methodName action = some method) : method ≠ .shutdown := by
  rintro rfl
  cases action <;> simp [methodName] at h

/-- A value that no call changes, those of the `finally` block apart. -/
structure Untouched {β : Type} (w : World ι) (g : Runner ι → β) : Prop where
  call : ∀ c, c.isCleanup = false → (call w c).Preserves g
  parallelCall : ∀ site targets method tolerate, method ≠ .shutdown →
    (parallelCall w site targets method tolerate).Preserves g

theorem untouched_count (hP : ∀ c : Call ι, P c = true → c.isCleanup = true) :
    Untouched w (Runner.count P) := by
  have hfalse : ∀ {c : Call ι}, c.isCleanup = false → P c = false := by
    intro c hc
    by_contra htrue
    have := hP c (by simpa using htrue)
    simp [hc] at this
  refine ⟨fun c hc => call_preserves (hfalse hc), ?_⟩
  intro site targets method tolerate hmethod
  refine parallelCall_preserves fun k v => hfalse ?_
  simp [Call.isCleanup, hmethod]

theorem untouched_recorder : Untouched w (Runner.recorder : Runner ι → Bool) :=
  ⟨fun _ _ _ => rfl, fun _ _ _ _ _ _ => rfl⟩

theorem untouched_thread : Untouched w (Runner.thread : Runner ι → Bool) :=
  ⟨fun _ _ _ => rfl, fun _ _ _ _ _ _ => rfl⟩

variable {β : Type} {g : Runner ι → β}

theorem recordEvent_preserves (h : Untouched w g) (index : ℕ) :
    (recordEvent cfg w index).Preserves g :=
  Proc.Preserves.forEach (fun _ => h.call _ rfl) _

theorem executeStep_preserves [DecidableEq ι] (h : Untouched w g) (step : Step ι × ℕ) :
    (executeStep cfg w step).Preserves g := by
  unfold executeStep
  dsimp only
  split
  · refine (h.call _ rfl).seq (Proc.Preserves.seq ?_ (recordEvent_preserves h _))
    split
    · exact Proc.Preserves.skip
    · exact h.call _ rfl
  · split
    · exact fun _ => rfl
    · refine Proc.Preserves.seq ?_ ?_
      · split
        · exact h.call _ rfl
        · exact Proc.Preserves.skip
      · split
        · exact fun _ => rfl
        · rename_i method hmethod
          exact (h.parallelCall _ _ _ _ (methodName_ne_shutdown hmethod)).seq
            (recordEvent_preserves h _)

theorem sampleVehicle_preserves (h : Untouched w g) (v : ι) : (sampleVehicle w v).Preserves g :=
  (h.call _ rfl).catching _

theorem recorderStart_preserves (h : Untouched w g)
    (hset : (setThread : RunnerProc ι).Preserves g) :
    (recorderStart cfg w).Preserves g := by
  unfold recorderStart
  split
  -- the first sample is taken before the thread starts
  · exact (h.call _ rfl).seq ((Proc.Preserves.forEach (sampleVehicle_preserves h) _).seq
      (hset.seq (h.call _ rfl)))
  · exact Proc.Preserves.skip

/-- The `try` block makes no call of the `finally` block. -/
theorem body_preserves_count [DecidableEq ι] (h : Untouched w (Runner.count P)) :
    (body cfg w).Preserves (Runner.count P) := by
  have hset : (setRecorder : RunnerProc ι).Preserves (Runner.count P) := fun _ => rfl
  have hstart : (startRecording cfg w).Preserves (Runner.count P) :=
    (h.call _ rfl).seq (hset.seq (recorderStart_preserves h fun _ => rfl))
  exact (h.parallelCall _ _ _ _ (by decide)).seq
    (hstart.seq (Proc.Preserves.forEach (executeStep_preserves h) _))

theorem joinThread_preserves : (joinThread w).Preserves g := by
  unfold joinThread
  split <;> exact fun _ => rfl

theorem recorderStop_preserves (h : Untouched w g) : (recorderStop cfg w).Preserves g := by
  intro r
  unfold recorderStop
  split
  · refine Proc.Preserves.seq ?_ (h.call _ rfl) r
    split
    · exact joinThread_preserves
    · exact Proc.Preserves.skip
  · rfl

theorem stopRecording_preserves (h : Untouched w g) : (stopRecording cfg w).Preserves g := by
  intro r
  unfold stopRecording
  split
  · exact recorderStop_preserves h r
  · rfl

theorem collectOfflineLogs_preserves (h : Untouched w g) :
    (collectOfflineLogs cfg w).Preserves g := by
  have hcopy : ∀ v, (copyVehicleLog w v).Preserves g := by
    intro v
    refine (h.call _ rfl).seq ?_
    split
    · exact h.call _ rfl
    · exact Proc.Preserves.skip
  refine (h.call _ rfl).seq ?_
  unfold collect
  dsimp only
  split
  · exact Proc.Preserves.skip
  · exact (h.call _ rfl).seq ((h.call _ rfl).seq ((h.call _ rfl).seq
      (Proc.Preserves.forEach hcopy _)))

/-! ## When the parts of the `finally` block return -/

variable (cfg w)

/-- The threads of `_parallel_call` for all vehicles are started. -/
def ThreadsStarted (site : Site) : Prop :=
  ∀ thread ∈ cfg.ids.zipIdx, w.raises (.threadStart site thread.2) = none

/-- All vehicles are initialized, and `self.recorder` is set: `_stop_recording` has something to
stop. -/
def RecorderBuilt : Prop :=
  ThreadsStarted cfg w .initializing ∧
  (∀ thread ∈ cfg.ids.zipIdx,
      w.raises (.backend .initializing thread.2 thread.1 .initializeBackend) = none) ∧
    w.raises .recorderFromConfig = none

/-- `start` of the recorder comes to its thread: the directory is made, and no sample is
interrupted. -/
def ThreadBuilt : Prop :=
  w.raises .recorderMkdir = none ∧ ∀ v ∈ cfg.ids, w.raises (.recordSnapshot v) ≠ some .baseException

/-- If there is a recorder that records, its thread was started if there is one, and its workbook
can be written. -/
def WorkbookWritten : Prop :=
  RecorderBuilt cfg w → cfg.recording = true →
    (ThreadBuilt cfg w → w.threadStarted = true) ∧ w.raises .writeXlsx = none

/-- The offline logs are disabled, or all that is found of them can be copied. -/
def LogsCopied : Prop :=
  w.raises .collectorFromConfig = none ∧
    (cfg.offlineLogs = true → cfg.dryRun = false → cfg.ids.filter cfg.isDt ≠ [] →
      w.raises .settle = none ∧ w.raises .collectorMkdir = none ∧ w.raises .resolveBuildDir = none ∧
        ∀ v ∈ cfg.ids.filter cfg.isDt, w.raises (.findLatestUlg v) = none ∧
          (w.found v = true → w.raises (.copyLog v) = none))

variable {cfg w}

theorem call_returns {c : Call ι} {r : Runner ι} : (call w c).Returns r ↔ w.raises c = none :=
  Iff.rfl

theorem collectOfflineLogs_returns {r : Runner ι} :
    (collectOfflineLogs cfg w).Returns r ↔ LogsCopied cfg w := by
  have hcopy : ∀ v (r : Runner ι), (copyVehicleLog w v).Returns r ↔
      w.raises (.findLatestUlg v) = none ∧ (w.found v = true → w.raises (.copyLog v) = none) := by
    intro v r
    rw [copyVehicleLog, Proc.seq_returns, call_returns]
    cases w.found v with
    | true => simp [call_returns]
    | false => simp
  rw [collectOfflineLogs, Proc.seq_returns, call_returns, LogsCopied]
  refine and_congr_right fun _ => ?_
  unfold collect
  dsimp only
  split
  · rename_i hskip
    refine iff_of_true rfl ?_
    intro henabled hdry hdt
    -- `collect` skips its work for one of three reasons, and none of them holds
    simp [henabled, hdry, hdt] at hskip
  · rename_i hcollect
    have hactive : cfg.offlineLogs = true ∧ cfg.dryRun = false ∧ cfg.ids.filter cfg.isDt ≠ [] := by
      simpa [not_or] using hcollect
    rw [Proc.seq_returns, Proc.seq_returns, Proc.seq_returns, call_returns, call_returns,
      call_returns,
      Proc.forEach_returns hcopy]
    constructor
    · intro h _ _ _
      exact h
    · intro h
      exact h hactive.1 hactive.2.1 hactive.2.2

theorem takeWhile_started {site : Site} (h : ThreadsStarted cfg w site) :
    cfg.ids.zipIdx.takeWhile (fun thread => w.raises (.threadStart site thread.2) = none) =
      cfg.ids.zipIdx := by
  rw [List.takeWhile_eq_self_iff]
  exact fun thread hthread => decide_eq_true (h thread hthread)

/-- `_parallel_call` for all vehicles: all threads are started, and the errors are tolerated or
there are none. -/
theorem parallelCall_returns {site : Site} {method : Method} {tolerate : Bool} {r : Runner ι} :
    (parallelCall w site cfg.ids method tolerate).Returns r ↔ ThreadsStarted cfg w site ∧
      (tolerate = false → ∀ c ∈ threadCalls w site cfg.ids.zipIdx method, w.raises c = none) := by
  have hstart :
      (cfg.ids.zipIdx.filterMap fun thread => w.raises (.threadStart site thread.2)).head? = none ↔
      ThreadsStarted cfg w site := by
    simp [ThreadsStarted]
  simp only [Proc.Returns, parallelCall]
  by_cases hall : ThreadsStarted cfg w site
  · rw [hstart.2 hall, takeWhile_started hall]
    cases tolerate with
    | true => simp [hall]
    | false => simp [hall]
  · cases hhead :
      (cfg.ids.zipIdx.filterMap fun thread => w.raises (.threadStart site thread.2)).head? with
    | none => exact absurd (hstart.1 hhead) hall
    | some e => exact iff_of_false (Option.some_ne_none e) fun h => hall h.1

theorem initializeVehicles_returns {r : Runner ι} :
    (initializeVehicles cfg w).Returns r ↔ ThreadsStarted cfg w .initializing ∧
      ∀ thread ∈ cfg.ids.zipIdx,
        w.raises (.backend .initializing thread.2 thread.1 .initializeBackend) = none := by
  rw [initializeVehicles, parallelCall_returns]
  refine and_congr_right fun _ => ?_
  simp only [forall_const, threadCalls, List.mem_map]
  constructor
  · intro h thread hthread
    -- the order of the threads does not matter: one error is enough
    exact h _ ⟨thread, (w.perm _).mem_iff.2 hthread, rfl⟩
  · rintro h c ⟨thread, hthread, rfl⟩
    exact h thread ((w.perm _).mem_iff.1 hthread)

/-- Only `_start_recording` sets the recorder, and nothing unsets it. -/
theorem recorder_body [DecidableEq ι] : ((body cfg w) {}).1.recorder = true ↔
    RecorderBuilt cfg w := by
  have hsteps :
      (Proc.forEach (executeStep cfg w) (cfg.timeline.zipIdx 1)).Preserves Runner.recorder :=
    Proc.Preserves.forEach (executeStep_preserves untouched_recorder) _
  have hstart : (recorderStart cfg w).Preserves Runner.recorder :=
    recorderStart_preserves untouched_recorder fun _ => rfl
  unfold body RecorderBuilt
  by_cases hinit : (initializeVehicles cfg w).Returns {}
  -- the recorder is set between `from_config` and `start`, so a `start` that raises leaves it set
  · rw [Proc.seq_of_returns hinit, hsteps.seq_right, startRecording]
    by_cases hbuilt : (call w .recorderFromConfig).Returns ((initializeVehicles cfg w) {}).1
    · rw [Proc.seq_of_returns hbuilt, hstart.seq_right]
      have hthreads := initializeVehicles_returns.1 hinit
      exact iff_of_true rfl ⟨hthreads.1, hthreads.2, hbuilt⟩
    · rw [Proc.seq_of_raises hbuilt]
      refine iff_of_false (by simp [call, initializeVehicles, parallelCall]) ?_
      intro h
      exact hbuilt h.2.2
  · rw [Proc.seq_of_raises hinit]
    refine iff_of_false (by simp [initializeVehicles, parallelCall]) ?_
    intro h
    exact hinit (initializeVehicles_returns.2 ⟨h.1, h.2.1⟩)

theorem sampleVehicle_returns (v : ι) (r : Runner ι) :
    (sampleVehicle w v).Returns r ↔ w.raises (.recordSnapshot v) ≠ some .baseException := by
  rw [Proc.Returns, sampleVehicle, Proc.catching]
  show (w.raises (.recordSnapshot v)).filter _ = none ↔ _
  cases w.raises (.recordSnapshot v) with
  | none => simp
  | some e => cases e <;> simp

/-- The recorder has a thread when the two steps before it return, whether the thread is started or
not. -/
theorem thread_recorderStart (hrecording : cfg.recording = true) {r : Runner ι}
    (hr : r.thread = false) :
    ((recorderStart cfg w) r).1.thread = true ↔ ThreadBuilt cfg w := by
  have hsample : (Proc.forEach (sampleVehicle w) cfg.ids).Preserves Runner.thread :=
    Proc.Preserves.forEach (sampleVehicle_preserves untouched_thread) _
  have hsamples := Proc.forEach_returns (f := sampleVehicle w) sampleVehicle_returns cfg.ids
    ((call w .recorderMkdir) r).1
  rw [recorderStart, if_pos hrecording, ThreadBuilt, ← hsamples]
  by_cases hmkdir : (call w .recorderMkdir).Returns r
  · rw [Proc.seq_of_returns hmkdir]
    by_cases hreturns :
      (Proc.forEach (sampleVehicle w) cfg.ids).Returns ((call w .recorderMkdir) r).1
    · rw [Proc.seq_of_returns hreturns]
      exact iff_of_true rfl ⟨hmkdir, hreturns⟩
    · rw [Proc.seq_of_raises hreturns, hsample]
      exact iff_of_false (by simp [call, hr]) fun h => hreturns h.2
  · rw [Proc.seq_of_raises hmkdir]
    exact iff_of_false (by simp [call, hr]) fun h => hmkdir h.1

theorem thread_body [DecidableEq ι] (hbuilt : RecorderBuilt cfg w)
    (hrecording : cfg.recording = true) :
    ((body cfg w) {}).1.thread = true ↔ ThreadBuilt cfg w := by
  have hsteps :
      (Proc.forEach (executeStep cfg w) (cfg.timeline.zipIdx 1)).Preserves Runner.thread :=
    Proc.Preserves.forEach (executeStep_preserves untouched_thread) _
  have hinit : (initializeVehicles cfg w).Returns {} :=
    initializeVehicles_returns.2 ⟨hbuilt.1, hbuilt.2.1⟩
  have hrecorder : (call w .recorderFromConfig).Returns ((initializeVehicles cfg w) {}).1 :=
    hbuilt.2.2
  have hset : ∀ r, (setRecorder : RunnerProc ι).Returns r := fun _ => rfl
  unfold body
  rw [Proc.seq_of_returns hinit, hsteps.seq_right, startRecording, Proc.seq_of_returns hrecorder,
    Proc.seq_of_returns (hset _)]
  exact thread_recorderStart hrecording rfl

/-! ## The clean-up -/

/-- `_shutdown_vehicles` calls every vehicle once, in whatever order. -/
theorem count_shutdownVehicles [DecidableEq ι] (hthreads : ThreadsStarted cfg w .shutdown) {v : ι}
    (hv : v ∈ cfg.ids) (r : Runner ι) :
    ((shutdownVehicles cfg w) r).1.count (Call.shutsDown v) = r.count (Call.shutsDown v) + 1 := by
  have hone : (threadCalls w .shutdown cfg.ids.zipIdx .shutdown).countP (Call.shutsDown v) = 1 := by
    calc
      (threadCalls w .shutdown cfg.ids.zipIdx .shutdown).countP (Call.shutsDown v)
          = (w.order cfg.ids.zipIdx).countP (fun thread => thread.1 = v) := by
            rw [threadCalls, List.countP_map]
            congr 1
            funext thread
            simp [Call.shutsDown]
      _ = cfg.ids.zipIdx.countP (fun thread => thread.1 = v) := (w.perm _).countP_eq _
      _ = (cfg.ids.zipIdx.map Prod.fst).countP (fun v' => v' = v) := by
            rw [List.countP_map]
            rfl
      _ = cfg.ids.count v := by
            rw [List.zipIdx_map_fst]
            rfl
      _ = 1 := List.count_eq_one_of_mem cfg.nodup hv
  simp only [shutdownVehicles, parallelCall, Runner.count, takeWhile_started hthreads,
    List.countP_append, hone]

/-- Errors of a `shutdown` are tolerated. -/
theorem shutdownVehicles_returns {r : Runner ι} :
    (shutdownVehicles cfg w).Returns r ↔ ThreadsStarted cfg w .shutdown := by
  rw [shutdownVehicles, parallelCall_returns]
  exact and_iff_left fun h => absurd h (by decide)

theorem shutsDown_isCleanup [DecidableEq ι] (v : ι) (c : Call ι) (h : c.shutsDown v = true) :
    c.isCleanup = true := by
  cases c <;> simp_all [Call.shutsDown, Call.isCleanup]

theorem toolchainStop_isCleanup [DecidableEq ι] (c : Call ι)
    (h : decide (c = .toolchainStop) = true) :
    c.isCleanup = true := by
  simp only [decide_eq_true_eq] at h
  rw [h]
  rfl

/-- When stopping the recorder raises, or a thread is not started, the `finally` block ends there;
when copying the logs raises, the toolchain is not stopped. -/
theorem cleanup_of_raises {r : Runner ι} (h : Untouched w (Runner.count P))
    (hraises : ¬((stopRecording cfg w).Returns r ∧ ThreadsStarted cfg w .shutdown ∧
      LogsCopied cfg w))
    (hshutdown : (shutdownVehicles cfg w).Preserves (Runner.count P)) :
    ((cleanup cfg w) r).1.count P = r.count P := by
  have hstop : (stopRecording cfg w).Preserves (Runner.count P) := stopRecording_preserves h
  have hcollect : (collectOfflineLogs cfg w).Preserves (Runner.count P) :=
    collectOfflineLogs_preserves h
  unfold cleanup
  by_cases hreturns : (stopRecording cfg w).Returns r
  · rw [Proc.seq_of_returns hreturns]
    by_cases hthreads : ThreadsStarted cfg w .shutdown
    -- the vehicles are shut down, but the copy raises before the toolchain is stopped
    · have hraised : ∀ r', ¬(collectOfflineLogs cfg w).Returns r' := by
        intro r' hlogs
        exact hraises ⟨hreturns, hthreads, collectOfflineLogs_returns.1 hlogs⟩
      rw [Proc.seq_of_returns (shutdownVehicles_returns.2 hthreads), Proc.seq_of_raises (hraised _)]
      calc
        _ = ((shutdownVehicles cfg w) ((stopRecording cfg w) r).1).1.count P := hcollect _
        _ = ((stopRecording cfg w) r).1.count P := hshutdown _
        _ = r.count P := hstop r
    · rw [Proc.seq_of_raises (mt shutdownVehicles_returns.1 hthreads)]
      exact (hshutdown _).trans (hstop r)
  · rw [Proc.seq_of_raises hreturns]
    exact hstop r

/-- Otherwise all four parts of the `finally` block are executed. -/
theorem cleanup_of_returns {r : Runner ι} (hstop : (stopRecording cfg w).Returns r)
    (hthreads : ThreadsStarted cfg w .shutdown) (hlogs : LogsCopied cfg w) :
    ((cleanup cfg w) r).1 = ((call w .toolchainStop) ((collectOfflineLogs cfg w)
      ((shutdownVehicles cfg w) ((stopRecording cfg w) r).1).1).1).1 := by
  unfold cleanup
  rw [Proc.seq_of_returns hstop, Proc.seq_of_returns (shutdownVehicles_returns.2 hthreads),
    Proc.seq_of_returns (collectOfflineLogs_returns.2 hlogs)]

theorem stopRecording_returns [DecidableEq ι] :
    (stopRecording cfg w).Returns ((body cfg w) {}).1 ↔ WorkbookWritten cfg w := by
  have hjoin : ∀ r, (joinThread w).Returns r ↔ w.threadStarted = true := by
    intro r
    unfold joinThread
    split
    · rename_i hstarted
      exact iff_of_true rfl hstarted
    · rename_i hstarted
      exact iff_of_false (Option.some_ne_none _) hstarted
  rw [WorkbookWritten, ← recorder_body, Proc.Returns, stopRecording]
  by_cases hrecorder : ((body cfg w) {}).1.recorder = true
  · rw [if_pos hrecorder, recorderStop]
    by_cases hrecording : cfg.recording = true
    · rw [if_pos hrecording, ← Proc.Returns, Proc.seq_returns, call_returns,
        ← thread_body (recorder_body.1 hrecorder) hrecording]
      cases ((body cfg w) {}).1.thread with
      | true => simp [hjoin, hrecorder, hrecording]
      | false => simp [hrecorder, hrecording]
    · rw [if_neg hrecording]
      exact iff_of_true rfl fun _ h => absurd h hrecording
  · rw [if_neg hrecorder]
    exact iff_of_true rfl fun h => absurd h hrecorder

/-- Whatever raises, every vehicle is shut down once and the toolchain is stopped once exactly when
the recorder is stopped and its workbook written, the threads for the vehicles are started, and the
offline logs are copied. -/
theorem cleaned_up_iff [DecidableEq ι] (cfg : Config ι) (w : World ι) :
    cfg.CleanedUp ((run cfg w) {}).1 ↔
      WorkbookWritten cfg w ∧ ThreadsStarted cfg w .shutdown ∧ LogsCopied cfg w := by
  have hshut : ∀ v, Untouched w (Runner.count (Call.shutsDown v)) := fun v =>
    untouched_count (shutsDown_isCleanup v)
  have hstops : Untouched w (Runner.count fun c : Call ι => c = .toolchainStop) :=
    untouched_count toolchainStop_isCleanup
  have hshutdown : (shutdownVehicles cfg w).Preserves
      (Runner.count fun c : Call ι => c = .toolchainStop) :=
    parallelCall_preserves fun _ _ => by simp
  -- the report is written after everything
  have hrun : ∀ {P : Call ι → Bool}, Untouched w (Runner.count P) →
      ((run cfg w) {}).1.count P = ((cleanup cfg w) ((body cfg w) {}).1).1.count P := by
    intro P h
    rw [run, (h.call .writeReport rfl).seq_right, Proc.tryFinally_fst]
  have hbody : ∀ {P : Call ι → Bool}, Untouched w (Runner.count P) →
      ((body cfg w) {}).1.count P = 0 := fun h => body_preserves_count h _
  rw [← stopRecording_returns, Config.CleanedUp, hrun hstops]
  constructor
  · intro hclean
    by_contra hraises
    -- in all cases `toolchain.stop` is not reached, which is enough
    have hzero := cleanup_of_raises hstops hraises hshutdown
    rw [hbody hstops, hclean.2] at hzero
    omega
  · rintro ⟨hstop, hthreads, hlogs⟩
    rw [cleanup_of_returns hstop hthreads hlogs]
    constructor
    · intro v hv
      rw [hrun (hshut v), cleanup_of_returns hstop hthreads hlogs]
      calc
        _ = ((collectOfflineLogs cfg w) ((shutdownVehicles cfg w)
              ((stopRecording cfg w) ((body cfg w) {}).1).1).1).1.count (Call.shutsDown v) :=
            call_preserves rfl _
        _ = ((shutdownVehicles cfg w) ((stopRecording cfg w) ((body cfg w) {}).1).1).1.count
              (Call.shutsDown v) := collectOfflineLogs_preserves (hshut v) _
        _ = ((stopRecording cfg w) ((body cfg w) {}).1).1.count (Call.shutsDown v) + 1 :=
            count_shutdownVehicles hthreads hv _
        _ = 1 := by
            rw [stopRecording_preserves (hshut v), hbody (hshut v)]
    -- before the last call the toolchain was not stopped
    · have hearlier : ((collectOfflineLogs cfg w) ((shutdownVehicles cfg w)
          ((stopRecording cfg w) ((body cfg w) {}).1).1).1).1.count
            (fun c : Call ι => c = .toolchainStop) = 0 := by
        rw [collectOfflineLogs_preserves hstops, hshutdown, stopRecording_preserves hstops,
          hbody hstops]
      unfold Runner.count at hearlier ⊢
      simp [call, hearlier]

/-- One vehicle, a recorder that records, and a workbook that cannot be written: the vehicle is not
shut down, and the toolchain is not stopped. -/
theorem workbook_error_skips_cleanup :
    let cfg : Config ℕ := { ids := [1], nodup := by decide, isDt := fun _ => true, dryRun := false,
                            recording := true, offlineLogs := false, timeline := [] }
    let w : World ℕ := { raises := fun c => if c = .writeXlsx then some .exception else none,
                         threadStarted := true, started_of_returns := fun _ => rfl,
                         not_started := by decide, found := fun _ => false, order := id,
                         perm := fun _ => List.Perm.refl _ }
    ¬cfg.CleanedUp ((run cfg w) {}).1 := by
  intro cfg w hclean
  have hstop := hclean.2
  revert hstop
  decide

end Verification
end DtPhm
