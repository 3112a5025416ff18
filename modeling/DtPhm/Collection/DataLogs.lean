import DtPhm.Lib.Paths
import DtPhm.Collection.Runner

/-!
# DataLogs — the workbooks of a collection run

Each round that has a recorder to stop writes one workbook, whose name is put together from the case
id and the time the round was started at, in whole seconds.

* `DateTime`, `stamp` — what `datetime.now()` shows, and its `strftime`;
* `outputPath`, `runRound`, `collect` — the name of a workbook, a round, a run;
* `recordedRounds` — the rounds that write a workbook, from the input alone;
* `data_logs_nodup_iff` — when no two of them have the same path.
-/

namespace DtPhm
namespace Collection

open Lib

universe u v

variable {ι : Type u} {R : Type v} [DecidableEq ι] [Zero R]

/-! ## Clock and names -/

/-- A time in whole seconds, in a year of four digits. -/
structure Second where
  year : ℕ
  month : ℕ
  day : ℕ
  hour : ℕ
  minute : ℕ
  second : ℕ
  four_digits : 1000 ≤ year ∧ year < 10000
  two_digits : month < 100 ∧ day < 100 ∧ hour < 100 ∧ minute < 100 ∧ second < 100
  deriving DecidableEq

/-- What `datetime.now()` shows. -/
structure DateTime extends Second where
  microsecond : ℕ

/-- A number below 100, in two digits. -/
def twoDigits (n : ℕ) : Text := [Nat.digitChar (n / 10), Nat.digitChar (n % 10)]

/-- `strftime('%Y%m%d_%H%M%S')`. -/
def stamp (t : Second) : Text :=
  twoDigits (t.year / 100) ++ twoDigits (t.year % 100) ++ twoDigits t.month ++ twoDigits t.day ++
    ['_'] ++ twoDigits t.hour ++ twoDigits t.minute ++ twoDigits t.second

theorem digitChar_inj {m n : ℕ} (hm : m < 10) (hn : n < 10)
    (h : Nat.digitChar m = Nat.digitChar n) :
    m = n := by
  have hall : ∀ m < 10, ∀ n < 10, Nat.digitChar m = Nat.digitChar n → m = n := by decide
  exact hall m hm n hn h

theorem digitChar_ne_slash {n : ℕ} (hn : n < 10) : Nat.digitChar n ≠ '/' := by
  revert n
  decide

theorem twoDigits_inj {m n : ℕ} (hm : m < 100) (hn : n < 100) (h : twoDigits m = twoDigits n) :
    m = n := by
  simp only [twoDigits, List.cons.injEq, and_true] at h
  have htens := digitChar_inj (by omega) (by omega) h.1
  have hones := digitChar_inj (by omega) (by omega) h.2
  omega

theorem slash_not_mem_twoDigits {n : ℕ} (hn : n < 100) : '/' ∉ twoDigits n := by
  intro h
  simp only [twoDigits, List.mem_cons, List.not_mem_nil, or_false] at h
  rcases h with h | h
  · exact digitChar_ne_slash (by omega) h.symm
  · exact digitChar_ne_slash (by omega) h.symm

theorem length_stamp (t : Second) : (stamp t).length = 15 := rfl

theorem stamp_inj {t t' : Second} : stamp t = stamp t' ↔ t = t' := by
  refine ⟨fun h => ?_, congrArg stamp⟩
  obtain ⟨hmonth, hday, hhour, hminute, hsecond⟩ := t.two_digits
  obtain ⟨hmonth', hday', hhour', hminute', hsecond'⟩ := t'.two_digits
  have hyear := t.four_digits
  have hyear' := t'.four_digits
  unfold stamp at h
  obtain ⟨h, h7⟩ := List.append_inj' h rfl
  obtain ⟨h, h6⟩ := List.append_inj' h rfl
  obtain ⟨h, h5⟩ := List.append_inj' h rfl
  obtain ⟨h, -⟩ := List.append_inj' h rfl
  obtain ⟨h, h4⟩ := List.append_inj' h rfl
  obtain ⟨h, h3⟩ := List.append_inj' h rfl
  obtain ⟨h1, h2⟩ := List.append_inj' h rfl
  have hcentury := twoDigits_inj (by omega) (by omega) h1
  have hrest := twoDigits_inj (by omega) (by omega) h2
  have hy : t.year = t'.year := by omega
  have hm := twoDigits_inj hmonth hmonth' h3
  have hd := twoDigits_inj hday hday' h4
  have hh := twoDigits_inj hhour hhour' h5
  have hmin := twoDigits_inj hminute hminute' h6
  have hs := twoDigits_inj hsecond hsecond' h7
  cases t
  cases t'
  simp_all

/-- What is written behind the case id. -/
def nameSuffix (t : Second) : Text := ['_'] ++ stamp t ++ ".xlsx".toList

theorem isSuffix_nameSuffix (t : Second) : IsSuffix (nameSuffix t) where
  no_slash := by
    obtain ⟨hmonth, hday, hhour, hminute, hsecond⟩ := t.two_digits
    have hyear := t.four_digits
    simp only [nameSuffix, stamp, List.mem_append, not_or]
    refine ⟨⟨by decide, ⟨⟨⟨⟨⟨⟨⟨?_, ?_⟩, ?_⟩, ?_⟩, by decide⟩, ?_⟩, ?_⟩, ?_⟩⟩, by decide⟩ <;>
      exact slash_not_mem_twoDigits (by omega)
  length := by
    rw [nameSuffix, List.length_append, List.length_append, length_stamp]
    decide

theorem nameSuffix_inj {t t' : Second} : nameSuffix t = nameSuffix t' ↔ t = t' := by
  rw [nameSuffix, nameSuffix, List.append_cancel_right_eq, List.append_cancel_left_eq, stamp_inj]

/-! ## Rounds -/

/-- A timeline with its `case_id`, and the time it is started at. -/
structure Scheduled (ι : Type u) (R : Type v) extends Timeline ι R where
  caseId : Text
  started : DateTime

/-- The recording section of the configuration. -/
structure Recording where
  outputDir : PosixPath
  enabled : Bool

/-- The path of `_write_xlsx`. -/
def outputPath (cfg : Recording) (caseId : Text) (started : DateTime) : PosixPath :=
  joinPath cfg.outputDir (caseId ++ nameSuffix started.toSecond)

/-- `recorder.stop()`; a recorder that is not enabled has no workbook. -/
def stopRecorder (cfg : Recording) (caseId : Text) (started : DateTime) : Option PosixPath :=
  if cfg.enabled then some (outputPath cfg caseId started) else none

/-- The runner, and `data_logs`. -/
structure Collected (ι : Type u) (R : Type v) extends Runner ι R where
  dataLogs : List PosixPath := []

/-- What `_stop_recording` returns at the end of a round, and its `finally` block collects. -/
def roundLog (fleet : Fleet ι) (cfg : Recording) (round : Scheduled ι R)
    (vehicles : ι → Vehicle R) : Option PosixPath :=
  match runSteps fleet round.steps { vehicles := vehicles } with
  | (r, _) =>
      -- without a recorder there is nothing to stop; if it raises, there is no path
      if r.recorder = true ∧ round.stopRaises = false then
        stopRecorder cfg round.caseId round.started
      else none

/-- A round of `run`, unless one has raised. -/
def runRound (fleet : Fleet ι) (cfg : Recording) (s : Collected ι R) (round : Scheduled ι R) :
    Collected ι R :=
  if s.raised then s
  else
    { toRunner := runOneTimeline fleet round.toTimeline s.vehicles
      dataLogs := s.dataLogs ++ (roundLog fleet cfg round s.vehicles).toList }

/-- `run`, on vehicles that were initialized. -/
def collect (fleet : Fleet ι) (cfg : Recording) (vehicles : ι → Vehicle R)
    (rounds : List (Scheduled ι R)) : Collected ι R :=
  rounds.foldl (runRound fleet cfg) { vehicles := vehicles }

/-! ## Rounds, from their input alone -/

/-- One of the steps raises. -/
def stepsRaise (fleet : Fleet ι) : Bool → List (Step ι R) → Bool
  | _, [] => false
  | recorder, step :: steps =>
      step.raises fleet recorder || stepsRaise fleet (step.recorderAfter fleet recorder) steps

/-- The timeline ends the run. -/
def Timeline.raises (fleet : Fleet ι) (tl : Timeline ι R) : Bool :=
  (tl.recording fleet && tl.stopRaises) || stepsRaise fleet false tl.steps || tl.collectRaises

/-- The timeline writes a workbook. -/
def Timeline.records (fleet : Fleet ι) (cfg : Recording) (tl : Timeline ι R) : Bool :=
  tl.recording fleet && !tl.stopRaises && cfg.enabled

/-- The rounds that write a workbook, up to the first one that ends the run. -/
def recordedRounds (fleet : Fleet ι) (cfg : Recording) :
    List (Scheduled ι R) → List (Scheduled ι R)
  | [] => []
  | round :: rounds =>
      (if round.records fleet cfg then [round] else []) ++
        if round.raises fleet then [] else recordedRounds fleet cfg rounds

section Rounds

variable {fleet : Fleet ι} {cfg : Recording}

theorem runSteps_raises (fleet : Fleet ι) (steps : List (Step ι R)) (r : Round ι R) :
    (runSteps fleet steps r).2 = stepsRaise fleet r.recorder steps := by
  induction steps generalizing r with
  | nil => rfl
  | cons step steps ih =>
      rw [runSteps, executeStep_eq, stepsRaise]
      cases hraises : step.raises fleet r.recorder with
      | true => rfl
      | false =>
          rw [Bool.false_or]
          exact ih _

theorem runSteps_recorder (fleet : Fleet ι) (tl : Timeline ι R) (vehicles : ι → Vehicle R) :
    (runSteps fleet tl.steps { vehicles := vehicles }).1.recorder = tl.recording fleet := by
  rw [runSteps_eq]
  rfl

theorem runOneTimeline_raised (fleet : Fleet ι) (tl : Timeline ι R) (vehicles : ι → Vehicle R) :
    (runOneTimeline fleet tl vehicles).raised = tl.raises fleet := by
  have hraises := runSteps_raises fleet tl.steps ({ vehicles := vehicles } : Round ι R)
  have hrecorder := runSteps_recorder fleet tl vehicles
  simp only [runOneTimeline, hrecorder, Timeline.raises]
  split
  · rename_i hstop
    simp [hstop.1, hstop.2]
  · rename_i hstop
    have hno : (tl.recording fleet && tl.stopRaises) = false := by simpa using hstop
    rw [hno, Bool.false_or, hraises]

theorem roundLog_eq (fleet : Fleet ι) (cfg : Recording) (round : Scheduled ι R)
    (vehicles : ι → Vehicle R) :
    (roundLog fleet cfg round vehicles).toList =
      (if round.records fleet cfg then [round] else []).map
        fun round => outputPath cfg round.caseId round.started := by
  have hrecorder := runSteps_recorder fleet round.toTimeline vehicles
  simp only [roundLog, hrecorder, Timeline.records, stopRecorder]
  by_cases hrec : round.recording fleet = true <;> by_cases hstop : round.stopRaises = true <;>
    by_cases henabled : cfg.enabled = true <;> simp [hrec, hstop, henabled]

/-- The paths of a run, by induction on its rounds: one for each of `recordedRounds`. -/
theorem foldl_runRound_dataLogs (fleet : Fleet ι) (cfg : Recording) (rounds : List (Scheduled ι R))
    (s : Collected ι R) :
    (rounds.foldl (runRound fleet cfg) s).dataLogs =
      s.dataLogs ++ if s.raised then [] else
        (recordedRounds fleet cfg rounds).map
          fun round => outputPath cfg round.caseId round.started := by
  induction rounds generalizing s with
  | nil => simp [recordedRounds]
  | cons round rounds ih =>
      rw [List.foldl_cons, ih]
      cases hs : s.raised with
      | true => simp [runRound, hs]
      | false =>
          have hround : runRound fleet cfg s round =
              { toRunner := runOneTimeline fleet round.toTimeline s.vehicles
                dataLogs := s.dataLogs ++ (roundLog fleet cfg round s.vehicles).toList } := by
            simp [runRound, hs]
          rw [hround, roundLog_eq]
          simp only [runOneTimeline_raised, recordedRounds, List.map_append, List.append_assoc,
            Bool.false_eq_true, if_false]
          congr 2
          split <;> rfl

theorem collect_dataLogs (fleet : Fleet ι) (cfg : Recording) (vehicles : ι → Vehicle R)
    (rounds : List (Scheduled ι R)) :
    (collect fleet cfg vehicles rounds).dataLogs =
      (recordedRounds fleet cfg rounds).map
        fun round => outputPath cfg round.caseId round.started := by
  rw [collect, foldl_runRound_dataLogs]
  rfl

theorem outputPath_inj (cfg : Recording) (caseId caseId' : Text) (t t' : DateTime) :
    outputPath cfg caseId t = outputPath cfg caseId' t' ↔
      stem cfg.outputDir caseId = stem cfg.outputDir caseId' ∧ t.toSecond = t'.toSecond := by
  rw [outputPath, outputPath, joinPath_append_inj (isSuffix_nameSuffix t.toSecond)
    (isSuffix_nameSuffix t'.toSecond) rfl, nameSuffix_inj]

end Rounds

/-- No two rounds of a run have the same path just when any two that write a workbook are started in
different seconds, or have case ids that are different as paths. -/
theorem data_logs_nodup_iff (fleet : Fleet ι) (cfg : Recording) (vehicles : ι → Vehicle R)
    (rounds : List (Scheduled ι R)) :
    (collect fleet cfg vehicles rounds).dataLogs.Nodup ↔
      (recordedRounds fleet cfg rounds).Pairwise fun a b =>
        a.started.toSecond ≠ b.started.toSecond ∨
          stem cfg.outputDir a.caseId ≠ stem cfg.outputDir b.caseId := by
  rw [collect_dataLogs, List.Nodup, List.pairwise_map]
  refine List.Pairwise.iff fun a b => ?_
  rw [Ne, outputPath_inj, not_and_or, or_comm]

/-! ## Two short rounds -/

/-- A round that only arms. -/
def armOnly (caseId : Text) (started : DateTime) : Scheduled Unit F32 where
  steps := [.command .arm .unset false (fun _ => false) .started]
  caseId := caseId
  started := started

/-- The morning of the first of May 2024. -/
def mayMorning (microsecond : ℕ) : DateTime where
  year := 2024
  month := 5
  day := 1
  hour := 9
  minute := 30
  second := 0
  four_digits := ⟨by decide, by decide⟩
  two_digits := ⟨by decide, by decide, by decide, by decide, by decide⟩
  microsecond := microsecond

/-- Two rounds of one case, a millisecond apart, have one workbook. -/
theorem data_logs_same_second :
    ¬(collect oneReal ⟨⟨['/'], ["log".toList]⟩, true⟩ (fun _ => ({} : Vehicle F32))
      [armOnly "C1".toList (mayMorning 0),
        armOnly "C1".toList (mayMorning 1000)]).dataLogs.Nodup := by
  decide +kernel

end Collection
end DtPhm
