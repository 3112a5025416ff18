import DtPhm.Lib.Run
import Mathlib.Algebra.Order.Field.Rat
import Mathlib.Data.List.FinRange
import Mathlib.Tactic.Linarith
import Mathlib.Tactic.NormNum

/-!
# DataValidator — how far the values of a sensor can be trusted

`DataValidator` of the sensors module, under the names of `DataValidator.cpp`.  Numbers are
rational; the statistics behind `rms()`, which nothing else reads, are left out.

* `DataValidator.put`, `DataValidator.confidence` — a new value, and the confidence in the last one;
* `Sound` — what one call has to do;
* `confidence_sound` — it does so in exactly the runs without a jump of the errors beyond an `int`
  and without a question about the time before the last value.
-/

namespace DtPhm
namespace Sensors

open Lib

/-! ## The validator -/

namespace ErrorFlag

def noError : UInt32 := 0
def noData : UInt32 := 1
def staleData : UInt32 := 2
def timeout : UInt32 := 4
def highErrcount : UInt32 := 8
def highErrdensity : UInt32 := 16

end ErrorFlag

/-- `NORETURN_ERRCOUNT`. -/
def noreturnErrcount : UInt32 := 10000

/-- `ERROR_DENSITY_WINDOW`. -/
def errorDensityWindow : ℤ := 100

/-- `VALUE_EQUAL_COUNT_DEFAULT`. -/
def valueEqualCountDefault : UInt32 := 100

/-- `DataValidator`. -/
structure DataValidator where
  errorMask : UInt32
  timeoutInterval : UInt32
  timeLast : UInt64
  errorCount : UInt32
  /-- An `int`. -/
  errorDensity : ℤ
  priority : UInt8
  value : Fin 3 → ℚ
  valueEqualCount : UInt32
  valueEqualCountThreshold : UInt32

/-- A number as a 32 bit `int` holds it. -/
def toInt32 (x : ℤ) : ℤ := x.bmod (2 ^ 32)

namespace DataValidator

/-- A validator without data. -/
def initial : DataValidator where
  errorMask := ErrorFlag.noError
  timeoutInterval := 20000
  timeLast := 0
  errorCount := 0
  errorDensity := 0
  priority := 0
  value := fun _ => 0
  valueEqualCount := 0
  valueEqualCountThreshold := valueEqualCountDefault

variable (v : DataValidator)

/-- The error density after a value that comes with this error count. -/
def density (errorCountIn : UInt32) : ℤ :=
  if errorCountIn > v.errorCount then toInt32 (v.errorDensity + (errorCountIn - v.errorCount).toNat)
  else if v.errorDensity > 0 then v.errorDensity - 1
  else v.errorDensity

/-- How many values in a row were equal, counted over all dimensions. -/
def equalCount (val : Fin 3 → ℚ) : UInt32 :=
  if v.timeLast = 0 then v.valueEqualCount
  else
    (List.finRange 3).foldl
      (fun count i => if |v.value i - val i| < 1 / 1000000 then count + 1 else 0) v.valueEqualCount

/-- `put`. -/
def put (timestamp : UInt64) (val : Fin 3 → ℚ) (errorCountIn : UInt32) (priorityIn : UInt8) :
    DataValidator :=
  { v with
    errorDensity := v.density errorCountIn
    errorCount := errorCountIn
    priority := priorityIn
    valueEqualCount := v.equalCount val
    value := val
    timeLast := timestamp }

/-- The last value is older than the timeout interval; times are unsigned. -/
def TimesOut (timestamp : UInt64) : Prop := timestamp - v.timeLast > v.timeoutInterval.toUInt64

instance (timestamp : UInt64) : Decidable (v.TimesOut timestamp) :=
  inferInstanceAs (Decidable (_ > _))

/-- `_error_mask |= flag`. -/
def flag (f : UInt32) : DataValidator := { v with errorMask := v.errorMask ||| f }

/-- The error density is capped at the size of the window. -/
def capDensity : DataValidator :=
  if v.errorDensity > errorDensityWindow then
    { v.flag ErrorFlag.highErrdensity with errorDensity := errorDensityWindow }
  else v

/-- `confidence`, with the validator that it leaves. -/
def confidence (timestamp : UInt64) : ℚ × DataValidator :=
  if v.timeLast = 0 then (0, v.flag ErrorFlag.noData)
  else if v.TimesOut timestamp then (0, v.flag ErrorFlag.timeout)
  else if v.valueEqualCount > v.valueEqualCountThreshold then (0, v.flag ErrorFlag.staleData)
  else if v.errorCount > noreturnErrcount then (0, v.flag ErrorFlag.highErrcount)
  else
    -- no critical errors: the error density of the last measurements
    let v := v.capDensity
    let ret : ℚ := 1 - v.errorDensity / errorDensityWindow
    (ret, if ret > 0 then { v with errorMask := ErrorFlag.noError } else v)

/-- `set_timeout`. -/
def setTimeout (timeoutIntervalUs : UInt32) : DataValidator :=
  { v with timeoutInterval := timeoutIntervalUs }

/-- `set_equal_value_threshold`. -/
def setEqualValueThreshold (threshold : UInt32) : DataValidator :=
  { v with valueEqualCountThreshold := threshold }

/-- `reset_state`. -/
def resetState : DataValidator := { v with errorMask := ErrorFlag.noError }

end DataValidator

/-- The calls of a validator. -/
inductive Call
  | put (timestamp : UInt64) (val : Fin 3 → ℚ) (errorCount : UInt32) (priority : UInt8)
  | confidence (timestamp : UInt64)
  | setTimeout (timeoutIntervalUs : UInt32)
  | setEqualValueThreshold (threshold : UInt32)
  | resetState

def call (v : DataValidator) : Call → DataValidator
  | .put timestamp val errorCount priority => v.put timestamp val errorCount priority
  | .confidence timestamp => (v.confidence timestamp).2
  | .setTimeout timeoutIntervalUs => v.setTimeout timeoutIntervalUs
  | .setEqualValueThreshold threshold => v.setEqualValueThreshold threshold
  | .resetState => v.resetState

/-! ## One call -/

/-- A confidence is between 0 and 1, and 0 for a timeout only when the last value is that old. -/
structure ConfidenceSound (v : DataValidator) (timestamp : UInt64) : Prop where
  nonneg : 0 ≤ (v.confidence timestamp).1
  le_one : (v.confidence timestamp).1 ≤ 1
  timeout : v.timeLast ≠ 0 → v.TimesOut timestamp →
    v.timeLast.toNat + v.timeoutInterval.toNat < timestamp.toNat

/-- What a call has to do. -/
def Sound (v : DataValidator) (c : Call) : Prop :=
  0 ≤ (call v c).errorDensity ∧ ∀ timestamp, c = .confidence timestamp → ConfidenceSound v timestamp

/-- The error density goes beyond the greatest `int`, and does not come back to 0. -/
def Overflows (v : DataValidator) (errorCount : UInt32) : Prop :=
  v.errorCount < errorCount ∧
    2 ^ 31 ≤ v.errorDensity + (errorCount.toNat - v.errorCount.toNat : ℤ) ∧
    v.errorDensity + (errorCount.toNat - v.errorCount.toNat : ℤ) < 2 ^ 32

/-- The question is about a time before the last value, closer to it than the timeout interval is to
the range of times. -/
def AsksBefore (v : DataValidator) (timestamp : UInt64) : Prop :=
  v.timeLast ≠ 0 ∧ timestamp.toNat < v.timeLast.toNat ∧
    v.timeLast.toNat + v.timeoutInterval.toNat < timestamp.toNat + 2 ^ 64

/-- The calls that are answered as they should be. -/
def Regular (v : DataValidator) : Call → Prop
  | .put _ _ errorCount _ => ¬Overflows v errorCount
  | .confidence timestamp => ¬AsksBefore v timestamp
  | _ => True

/-- The error density is a natural number, and an `int`. -/
def DensityInRange (v : DataValidator) : Prop := 0 ≤ v.errorDensity ∧ v.errorDensity < 2 ^ 31

namespace DataValidator

variable {v : DataValidator} {timestamp : UInt64} {errorCount : UInt32}

theorem density_of_gt (h : v.errorCount < errorCount) :
    v.density errorCount =
      toInt32 (v.errorDensity + (errorCount.toNat - v.errorCount.toNat : ℤ)) := by
  have hsub : (errorCount - v.errorCount).toNat = errorCount.toNat - v.errorCount.toNat :=
    UInt32.toNat_sub_of_le _ _ (UInt32.le_of_lt h)
  have hle : v.errorCount.toNat ≤ errorCount.toNat := UInt32.le_iff_toNat_le.1 (UInt32.le_of_lt h)
  rw [density, if_pos h, hsub, Nat.cast_sub hle]

/-- An `int` below 2³² is negative from 2³¹ on. -/
theorem toInt32_nonneg_iff {x : ℤ} (h : 0 ≤ x) (h' : x < 2 ^ 31 + 2 ^ 32) :
    0 ≤ toInt32 x ↔ ¬(2 ^ 31 ≤ x ∧ x < 2 ^ 32) := by
  unfold toInt32
  rw [Int.bmod_def]
  split <;> omega

theorem toInt32_lt (x : ℤ) : toInt32 x < 2 ^ 31 := by
  unfold toInt32
  rw [Int.bmod_def]
  split <;> omega

theorem density_nonneg_iff (h : DensityInRange v) (errorCount : UInt32) :
    0 ≤ v.density errorCount ↔ ¬Overflows v errorCount := by
  by_cases hgt : v.errorCount < errorCount
  · have hlt := errorCount.toNat_lt
    have hlt' : v.errorCount.toNat < errorCount.toNat := UInt32.lt_iff_toNat_lt.1 hgt
    have h' := h
    unfold DensityInRange at h'
    -- both terms are below 2³², and so is what the sum wraps around by
    rw [density_of_gt hgt, toInt32_nonneg_iff (by omega) (by omega)]
    unfold Overflows
    simp only [hgt, true_and]
  · refine iff_of_true ?_ fun hover => hgt hover.1
    have h' := h
    unfold DensityInRange at h'
    unfold density
    rw [if_neg hgt]
    split <;> omega

theorem density_lt (h : DensityInRange v) (errorCount : UInt32) :
    v.density errorCount < 2 ^ 31 := by
  have h' := h
  unfold DensityInRange at h'
  unfold density
  split
  · exact toInt32_lt _
  · split <;> omega

/-- Unsigned times: a question about the time before the last value looks like one long after it. -/
theorem timesOut_iff : v.TimesOut timestamp ↔
    v.timeLast.toNat + v.timeoutInterval.toNat < timestamp.toNat ∨
      timestamp.toNat < v.timeLast.toNat ∧
        v.timeLast.toNat + v.timeoutInterval.toNat < timestamp.toNat + 2 ^ 64 := by
  have hlast := v.timeLast.toNat_lt
  have hstamp := timestamp.toNat_lt
  have hinterval := v.timeoutInterval.toNat_lt
  unfold TimesOut
  rw [gt_iff_lt, UInt64.lt_iff_toNat_lt, UInt64.toNat_sub, UInt32.toNat_toUInt64]
  omega

theorem capDensity_errorDensity :
    v.capDensity.errorDensity = min v.errorDensity errorDensityWindow := by
  unfold capDensity
  split
  · rw [min_eq_right (by omega)]
  · rw [min_eq_left (by omega)]

/-- A confidence is 0, or tells how many of the last measurements were without errors. -/
theorem confidence_cases (v : DataValidator) (timestamp : UInt64) :
    ((v.confidence timestamp).1 = 0 ∧ (v.confidence timestamp).2.errorDensity = v.errorDensity) ∨
      (v.confidence timestamp).1 =
          1 - ((min v.errorDensity errorDensityWindow : ℤ) : ℚ) / errorDensityWindow ∧
        (v.confidence timestamp).2.errorDensity = min v.errorDensity errorDensityWindow := by
  unfold confidence
  -- no data, timed out, a stuck value, too many errors in all
  split
  · exact Or.inl ⟨rfl, rfl⟩
  split
  · exact Or.inl ⟨rfl, rfl⟩
  split
  · exact Or.inl ⟨rfl, rfl⟩
  split
  · exact Or.inl ⟨rfl, rfl⟩
  · right
    dsimp only
    rw [← capDensity_errorDensity]
    refine ⟨rfl, ?_⟩
    split <;> rfl

theorem confidence_mem (h : DensityInRange v) (timestamp : UInt64) :
    0 ≤ (v.confidence timestamp).1 ∧ (v.confidence timestamp).1 ≤ 1 := by
  rcases confidence_cases v timestamp with ⟨hzero, -⟩ | ⟨hret, -⟩
  · rw [hzero]
    exact ⟨le_rfl, zero_le_one⟩
  · have hlow : (0 : ℚ) ≤ (min v.errorDensity errorDensityWindow : ℤ) := by
      exact_mod_cast le_min h.1 (by decide)
    have hhigh : ((min v.errorDensity errorDensityWindow : ℤ) : ℚ) ≤ 100 := by
      exact_mod_cast min_le_right v.errorDensity errorDensityWindow
    have hwindow : ((errorDensityWindow : ℤ) : ℚ) = 100 := rfl
    rw [hret, hwindow]
    constructor <;> linarith

end DataValidator

/-- A question is answered as it should be unless it is about a time before the last value. -/
theorem confidenceSound_iff {v : DataValidator} (h : DensityInRange v) (timestamp : UInt64) :
    ConfidenceSound v timestamp ↔ ¬AsksBefore v timestamp := by
  constructor
  · rintro hsound ⟨hdata, hbefore, hwrap⟩
    have := hsound.timeout hdata (DataValidator.timesOut_iff.2 (Or.inr ⟨hbefore, hwrap⟩))
    omega
  · intro hask
    refine ⟨(v.confidence_mem h timestamp).1, (v.confidence_mem h timestamp).2, fun hdata hout =>
      ?_⟩
    rcases DataValidator.timesOut_iff.1 hout with hold | ⟨hbefore, hwrap⟩
    · exact hold
    · exact absurd ⟨hdata, hbefore, hwrap⟩ hask

theorem densityInRange_confidence {v : DataValidator} (h : DensityInRange v) (timestamp : UInt64) :
    DensityInRange (v.confidence timestamp).2 := by
  have h' := h
  unfold DensityInRange at h' ⊢
  rcases v.confidence_cases timestamp with ⟨-, heq⟩ | ⟨-, heq⟩
  · rw [heq]
    exact h'
  · have hwindow : errorDensityWindow = 100 := rfl
    rw [heq, hwindow]
    omega

theorem sound_iff {v : DataValidator} (h : DensityInRange v) (c : Call) :
    Sound v c ↔ Regular v c := by
  unfold Sound
  cases c with
  | put timestamp val errorCount priority =>
      refine Iff.trans ?_ (DataValidator.density_nonneg_iff h errorCount)
      exact and_iff_left fun _ heq => Call.noConfusion heq
  | confidence timestamp =>
      refine Iff.trans ?_ (confidenceSound_iff h timestamp)
      constructor
      · exact fun hsound => hsound.2 timestamp rfl
      · intro hsound
        refine ⟨(densityInRange_confidence h timestamp).1, fun t heq => ?_⟩
        cases heq
        exact hsound
  | setTimeout timeoutIntervalUs =>
      exact iff_of_true ⟨h.1, fun _ heq => Call.noConfusion heq⟩ trivial
  | setEqualValueThreshold threshold =>
      exact iff_of_true ⟨h.1, fun _ heq => Call.noConfusion heq⟩ trivial
  | resetState => exact iff_of_true ⟨h.1, fun _ heq => Call.noConfusion heq⟩ trivial

theorem call_densityInRange {v : DataValidator} (h : DensityInRange v) {c : Call}
    (hc : Regular v c) : DensityInRange (call v c) := by
  cases c with
  | put timestamp val errorCount priority =>
      exact ⟨(DataValidator.density_nonneg_iff h errorCount).2 hc,
        DataValidator.density_lt h errorCount⟩
  | confidence timestamp => exact densityInRange_confidence h timestamp
  | setTimeout timeoutIntervalUs => exact h
  | setEqualValueThreshold threshold => exact h
  | resetState => exact h

/-! ## All runs -/

/-- All calls of a run do what they have to do exactly if none makes the error density overflow and
none asks about a time before the last value. -/
theorem confidence_sound (calls : List Call) :
    AllSteps call Sound DataValidator.initial calls ↔
      AllSteps call Regular DataValidator.initial calls :=
  allSteps_iff_of_invariant (fun _ c h => sound_iff h c) (fun _ _ h hc => call_densityInRange h hc)
    (show DensityInRange DataValidator.initial from ⟨le_rfl, by decide⟩)

/-- A driver that has counted 2³¹ errors starts again from 0, and the next value is trusted more
than fully. -/
theorem confidence_not_sound :
    ¬∀ calls : List Call, AllSteps call Sound DataValidator.initial calls := by
  intro hall
  have hrun := hall [.put 100 (fun _ => 0) 2147483648 0, .put 200 (fun _ => 1) 0 0, .confidence 300]
  exact absurd hrun.1.1 (by decide)

end Sensors
end DtPhm
