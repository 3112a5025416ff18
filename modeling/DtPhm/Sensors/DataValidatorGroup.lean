import DtPhm.Lib.Choice
import DtPhm.Sensors.DataValidator
import Mathlib.Algebra.Order.Field.Basic
import Mathlib.Tactic.Ring

/-!
# DataValidatorGroup — the best of several sensors

`DataValidatorGroup::get_best`, under the names of `DataValidatorGroup.cpp`: one pass over the
validators of a group, and what is noted down when another sensor has become the best.

* `Replaces`, `scanLoop`, `DataValidatorGroup.getBest` — the rule, the pass, and the function;
* `Candidate` — a sensor as the pass sees it; confidences are hundredths;
* `improves` — the rule follows the relation `Better`;
* `best_sensor` — no sensor is better than the one that is returned.
-/

namespace DtPhm
namespace Sensors

open Lib

/-! ## The group -/

/-- `DataValidatorGroup`, with its validators in the order of the list. -/
structure DataValidatorGroup where
  validators : List DataValidator
  currBest : ℤ
  prevBest : ℤ
  firstFailoverTime : UInt64
  toggleCount : UInt32

/-- `MIN_REGULAR_CONFIDENCE`. -/
def minRegularConfidence : ℚ := 9 / 10

/-- `FLT_EPSILON`. -/
def fltEpsilon : ℚ := 1 / 8388608

/-- The condition under which `get_best` switches to a sensor. -/
def Replaces (maxConfidence : ℚ) (maxPriority : ℤ) (confidence : ℚ) (priority : UInt8) : Prop :=
  (maxConfidence < minRegularConfidence ∧ confidence ≥ minRegularConfidence ∨
      confidence > maxConfidence ∧ (priority.toNat : ℤ) ≥ maxPriority ∨
      |confidence - maxConfidence| < 1 / 100 ∧ (priority.toNat : ℤ) > maxPriority) ∧
    confidence > 0

instance (maxConfidence : ℚ) (maxPriority : ℤ) (confidence : ℚ) (priority : UInt8) :
    Decidable (Replaces maxConfidence maxPriority confidence priority) :=
  inferInstanceAs (Decidable (_ ∧ _))

/-- The variables of the loop of `get_best`. -/
structure Scan where
  preCheckConfidence : ℚ
  preCheckPrio : ℤ
  maxConfidence : ℚ
  maxPriority : ℤ
  maxIndex : ℤ

def Scan.initial : Scan := ⟨1, -1, -1, -1000, -1⟩

/-- One sensor. -/
def Scan.visit (s : Scan) (preCheckBest : ℤ) (i : ℕ) (confidence : ℚ) (priority : UInt8) : Scan :=
  let s :=
    if (i : ℤ) = preCheckBest then
      { s with preCheckPrio := priority.toNat, preCheckConfidence := confidence }
    else s
  if Replaces s.maxConfidence s.maxPriority confidence priority then
    { s with maxIndex := i, maxConfidence := confidence, maxPriority := priority.toNat }
  else s

/-- The loop of `get_best`, from the validator `i` on. -/
def scanLoop (preCheckBest : ℤ) (timestamp : UInt64) :
    (i : ℕ) → Scan → List DataValidator → Scan × List DataValidator
  | _, s, [] => (s, [])
  | i, s, v :: vs =>
      let checked := v.confidence timestamp
      let rest :=
        scanLoop preCheckBest timestamp (i + 1) (s.visit preCheckBest i checked.1 v.priority) vs
      (rest.1, checked.2 :: rest.2)

/-- What `get_best` returns: the index, and the values of the sensor unless there is none. -/
structure Best where
  index : ℤ
  value : Option (Fin 3 → ℚ)
  group : DataValidatorGroup

namespace DataValidatorGroup

variable (g : DataValidatorGroup)

/-- The switch is to a sensor of higher priority that is about as good: this is not a failover. -/
def Prefers (scan : Scan) : Prop :=
  scan.preCheckPrio ≠ -1 ∧ scan.preCheckPrio < scan.maxPriority ∧
    |scan.preCheckConfidence - scan.maxConfidence| < 1 / 10

instance (scan : Scan) : Decidable (Prefers scan) := inferInstanceAs (Decidable (_ ∧ _))

/-- The index of the best sensor, if there is one. -/
def bestIndex (scan : Scan) : Option ℕ :=
  if scan.maxIndex < 0 then none else some scan.maxIndex.toNat

/-- What is noted down when the best sensor is another one than before. -/
def switch (scan : Scan) (timestamp : UInt64) : DataValidatorGroup :=
  let g' :=
    if Prefers scan then
      match bestIndex scan with
      | none => g
      | some i => { g with validators := g.validators.modify i DataValidator.resetState }
    else g
  let g' :=
    if g.currBest < 0 then { g' with prevBest := scan.maxIndex }
    else if Prefers scan then { g' with prevBest := g.currBest }
    else
      { g' with
        prevBest := g.currBest
        toggleCount := g.toggleCount + 1
        firstFailoverTime := if g.firstFailoverTime = 0 then timestamp else g.firstFailoverTime }
  { g' with currBest := scan.maxIndex }

/-- `get_best`. -/
def getBest (timestamp : UInt64) : Best :=
  let (scan, validators) := scanLoop g.currBest timestamp 0 Scan.initial g.validators
  let g := { g with validators := validators }
  { index := scan.maxIndex
    value := (bestIndex scan).bind fun i => validators[i]?.map DataValidator.value
    group :=
      if scan.maxIndex ≠ g.currBest ∨ scan.maxConfidence < fltEpsilon ∧ g.currBest ≥ 0 then
        g.switch scan timestamp
      else g }

end DataValidatorGroup

/-! ## Candidates -/

/-- A sensor as the pass sees it: its confidence is a number of hundredths. -/
structure Candidate where
  index : ℕ
  confidence : ℚ
  priority : UInt8
  hundredths : ∃ k : ℤ, confidence = k / 100

theorem Candidate.eq_of_near {x m : Candidate} (h : |x.confidence - m.confidence| < 1 / 100) :
    x.confidence = m.confidence := by
  obtain ⟨k, hk⟩ := x.hundredths
  obtain ⟨l, hl⟩ := m.hundredths
  have hdiff : x.confidence - m.confidence = ((k - l : ℤ) : ℚ) / 100 := by
    rw [hk, hl]
    push_cast
    ring
  have hlt : |((k - l : ℤ) : ℚ)| < 1 := by
    rw [hdiff, abs_div, abs_of_pos (show (0 : ℚ) < 100 by norm_num)] at h
    linarith
  have hzero : k - l = 0 := Int.abs_lt_one_iff.1 (by exact_mod_cast hlt)
  rw [hk, hl, sub_eq_zero.1 hzero]

theorem hundredths_confidence (v : DataValidator) (timestamp : UInt64) :
    ∃ k : ℤ, (v.confidence timestamp).1 = k / 100 := by
  rcases v.confidence_cases timestamp with ⟨hzero, -⟩ | ⟨hret, -⟩
  · exact ⟨0, by rw [hzero, Int.cast_zero, zero_div]⟩
  · refine ⟨100 - min v.errorDensity errorDensityWindow, ?_⟩
    have hwindow : ((errorDensityWindow : ℤ) : ℚ) = 100 := rfl
    rw [hret, hwindow]
    push_cast
    ring

theorem confidence_nonneg (v : DataValidator) (timestamp : UInt64) :
    0 ≤ (v.confidence timestamp).1 := by
  rcases v.confidence_cases timestamp with ⟨hzero, -⟩ | ⟨hret, -⟩
  · exact hzero.ge
  · have hhigh : ((min v.errorDensity errorDensityWindow : ℤ) : ℚ) ≤ 100 := by
      exact_mod_cast min_le_right v.errorDensity errorDensityWindow
    have hwindow : ((errorDensityWindow : ℤ) : ℚ) = 100 := rfl
    rw [hret, hwindow]
    linarith

/-- The validator `i` as a candidate. -/
def candidate (timestamp : UInt64) (i : ℕ) (v : DataValidator) : Candidate :=
  ⟨i, (v.confidence timestamp).1, v.priority, hundredths_confidence v timestamp⟩

/-- The validators from `i` on as candidates. -/
def candidates (timestamp : UInt64) : (i : ℕ) → List DataValidator → List Candidate
  | _, [] => []
  | i, v :: vs => candidate timestamp i v :: candidates timestamp (i + 1) vs

theorem mem_candidates {timestamp : UInt64} {i : ℕ} {vs : List DataValidator} {x : Candidate} :
    x ∈ candidates timestamp i vs ↔
      ∃ j v, vs[j]? = some v ∧ x = candidate timestamp (i + j) v := by
  induction vs generalizing i with
  | nil => simp [candidates]
  | cons v vs ih =>
      rw [candidates, List.mem_cons, ih]
      constructor
      · rintro (rfl | ⟨j, w, hw, rfl⟩)
        · exact ⟨0, v, rfl, rfl⟩
        · exact ⟨j + 1, w, hw, by rw [Nat.add_right_comm, Nat.add_assoc]⟩
      · rintro ⟨j, w, hw, rfl⟩
        cases j with
        | zero =>
            obtain rfl : v = w := Option.some.inj hw
            exact Or.inl rfl
        | succ j => exact Or.inr ⟨j, w, hw, by rw [Nat.add_right_comm, Nat.add_assoc]⟩

/-! ## The rule -/

/-- The maxima in the variables of the pass. -/
def maxima : Option Candidate → ℚ × ℤ × ℤ
  | none => (-1, -1000, -1)
  | some m => (m.confidence, m.priority.toNat, m.index)

/-- The rule of the pass, for candidates. -/
def Rule (c : Option Candidate) (x : Candidate) : Prop :=
  Replaces (maxima c).1 (maxima c).2.1 x.confidence x.priority

instance (c : Option Candidate) (x : Candidate) : Decidable (Rule c x) :=
  inferInstanceAs (Decidable (Replaces _ _ _ _))

/-- What the pass knows of the best sensor so far. -/
def Scan.best (s : Scan) : ℚ × ℤ × ℤ := (s.maxConfidence, s.maxPriority, s.maxIndex)

theorem Scan.best_visit (s : Scan) (preCheckBest : ℤ) (i : ℕ) (confidence : ℚ) (priority : UInt8) :
    (s.visit preCheckBest i confidence priority).best =
      if Replaces s.maxConfidence s.maxPriority confidence priority then
        (confidence, (priority.toNat : ℤ), (i : ℤ))
      else s.best := by
  by_cases hcurrent : (i : ℤ) = preCheckBest <;>
    by_cases hreplaces : Replaces s.maxConfidence s.maxPriority confidence priority <;>
    simp [Scan.visit, Scan.best, hcurrent, hreplaces]

theorem scanLoop_maxima (preCheckBest : ℤ) (timestamp : UInt64) {i : ℕ} {s : Scan}
    {c : Option Candidate} (h : s.best = maxima c) (vs : List DataValidator) :
    (scanLoop preCheckBest timestamp i s vs).1.best =
      maxima (choose Rule c (candidates timestamp i vs)) := by
  induction vs generalizing i s c with
  | nil => exact h
  | cons v vs ih =>
      rw [candidates, choose_cons]
      refine ih ?_
      obtain ⟨hconfidence, hrest⟩ := Prod.mk.inj h
      obtain ⟨hpriority, -⟩ := Prod.mk.inj hrest
      have hrule : Rule c (candidate timestamp i v) ↔
          Replaces s.maxConfidence s.maxPriority (v.confidence timestamp).1 v.priority := by
        rw [hconfidence, hpriority]
        rfl
      rw [Scan.best_visit]
      by_cases hreplaces :
          Replaces s.maxConfidence s.maxPriority (v.confidence timestamp).1 v.priority
      · rw [if_pos hreplaces, if_pos (hrule.2 hreplaces)]
        rfl
      · rw [if_neg hreplaces, if_neg (hrule.not.2 hreplaces)]
        exact h

/-- At least as good in confidence and priority, and better in one of them. -/
def Dominates (confidence confidence' : ℚ) (priority priority' : UInt8) : Prop :=
  confidence' ≤ confidence ∧ priority' ≤ priority ∧
    (confidence' < confidence ∨ priority' < priority)

/-- A regular confidence is better than another one; else both confidence and priority count. -/
def Better (x m : Candidate) : Prop :=
  m.confidence < minRegularConfidence ∧ minRegularConfidence ≤ x.confidence ∨
    Dominates x.confidence m.confidence x.priority m.priority

/-- What is better than a candidate that dominates another one is better than that one. -/
theorem Better.of_dominates {x m y : Candidate}
    (h : Dominates x.confidence m.confidence x.priority m.priority) (hy : Better y x) :
    Better y m := by
  obtain ⟨hconfidence, hpriority, hone⟩ := h
  rcases hy with ⟨hlow, hregular⟩ | ⟨hconfidence', hpriority', -⟩
  · exact Or.inl ⟨lt_of_le_of_lt hconfidence hlow, hregular⟩
  · refine Or.inr ⟨hconfidence.trans hconfidence', UInt8.le_trans hpriority hpriority', ?_⟩
    rcases hone with hlt | hlt
    · exact Or.inl (lt_of_lt_of_le hlt hconfidence')
    · exact Or.inr (UInt8.lt_of_lt_of_le hlt hpriority')

theorem improves : Improves Rule (fun x => 0 < x.confidence) Better where
  irrefl := by
    rintro x (⟨hlow, hregular⟩ | ⟨-, -, hlt | hlt⟩)
    · exact absurd hregular (not_le.2 hlow)
    · exact lt_irrefl _ hlt
    · exact UInt8.lt_irrefl _ hlt
  upward := by
    rintro x y (⟨-, hregular⟩ | ⟨hle, -, -⟩) hx
    · exact lt_of_lt_of_le (by norm_num [minRegularConfidence]) hregular
    · exact lt_of_lt_of_le hx hle
  first := by
    intro x
    refine ⟨fun h => h.2, fun hx => ⟨Or.inr (Or.inl ⟨?_, ?_⟩), hx⟩⟩
    · exact lt_trans (by norm_num [maxima]) hx
    · have := x.priority.toNat_lt
      simp only [maxima]
      omega
  takes := by
    intro m x hm hbetter
    rcases hbetter with ⟨hlow, hregular⟩ | ⟨hconfidence, hpriority, hone⟩
    · exact ⟨Or.inl ⟨hlow, hregular⟩, lt_of_lt_of_le (by norm_num [minRegularConfidence]) hregular⟩
    · have hle : m.priority.toNat ≤ x.priority.toNat := UInt8.le_iff_toNat_le.1 hpriority
      refine ⟨Or.inr ?_, lt_of_lt_of_le hm hconfidence⟩
      rcases hconfidence.lt_or_eq with hlt | heq
      · exact Or.inl ⟨hlt, Int.ofNat_le.2 hle⟩
      · have hlt : m.priority.toNat < x.priority.toNat :=
          UInt8.lt_iff_toNat_lt.1 (hone.resolve_left (not_lt.2 heq.ge))
        refine Or.inr ⟨?_, Int.ofNat_lt.2 hlt⟩
        have hzero : x.confidence - (maxima (some m)).1 = 0 := sub_eq_zero.2 heq.symm
        rw [hzero, abs_zero]
        norm_num
  keeps := by
    rintro m x hm ⟨⟨hlow, hregular⟩ | ⟨hlt, hpriority⟩ | ⟨hnear, hpriority⟩, hx⟩
    · refine ⟨hx, fun y hy => Or.inl ⟨hlow, ?_⟩⟩
      -- what is better than a sensor of regular confidence has a regular confidence itself
      rcases hy with ⟨hlow', -⟩ | ⟨hle, -, -⟩
      · exact absurd hregular (not_le.2 hlow')
      · exact hregular.trans hle
    · have hle : m.priority ≤ x.priority := UInt8.le_iff_toNat_le.2 (Int.ofNat_le.1 hpriority)
      exact ⟨hx, fun y hy => hy.of_dominates ⟨hlt.le, hle, Or.inl hlt⟩⟩
    · have heq : x.confidence = m.confidence := Candidate.eq_of_near hnear
      have hlt : m.priority < x.priority := UInt8.lt_iff_toNat_lt.2 (Int.ofNat_lt.1 hpriority)
      exact ⟨hx, fun y hy => hy.of_dominates ⟨heq.ge, UInt8.le_of_lt hlt, Or.inr hlt⟩⟩

/-! ## The best sensor -/

/-- The sensor at the index `i` is a best one: it can be trusted, regularly if any can, and no other
is as good in confidence and priority and better in one of them. -/
structure IsBest (vs : List DataValidator) (timestamp : UInt64) (i : ℕ) (v : DataValidator) :
    Prop where
  at_index : vs[i]? = some v
  positive : 0 < (v.confidence timestamp).1
  regular : (∃ w ∈ vs, minRegularConfidence ≤ (w.confidence timestamp).1) →
    minRegularConfidence ≤ (v.confidence timestamp).1
  undominated : ∀ w ∈ vs,
    ¬Dominates (w.confidence timestamp).1 (v.confidence timestamp).1 w.priority v.priority

/-- `get_best` finds no sensor exactly if none can be trusted, and else a best one. -/
theorem best_sensor (g : DataValidatorGroup) (timestamp : UInt64) :
    ((g.getBest timestamp).index = -1 ↔ ∀ v ∈ g.validators, (v.confidence timestamp).1 = 0) ∧
      ((g.getBest timestamp).index ≠ -1 →
        ∃ (i : ℕ) (v : DataValidator), (g.getBest timestamp).index = i ∧
          IsBest g.validators timestamp i v) := by
  have hindex : (g.getBest timestamp).index =
      (maxima (choose Rule none (candidates timestamp 0 g.validators))).2.2 :=
    (Prod.mk.inj (Prod.mk.inj
      (scanLoop_maxima g.currBest timestamp (c := none) rfl g.validators)).2).2
  have hmem : ∀ v ∈ g.validators, ∃ i, candidate timestamp i v ∈
      candidates timestamp 0 g.validators := by
    intro v hv
    obtain ⟨i, hi⟩ := List.getElem?_of_mem hv
    exact ⟨0 + i, mem_candidates.2 ⟨i, v, hi, rfl⟩⟩
  have hchosen := improves.choose_spec (candidates timestamp 0 g.validators)
  rw [hindex]
  cases hchoice : choose Rule none (candidates timestamp 0 g.validators) with
  | none =>
      rw [hchoice] at hchosen
      refine ⟨iff_of_true rfl fun v hv => ?_, fun hne => absurd rfl hne⟩
      obtain ⟨i, hi⟩ := hmem v hv
      exact le_antisymm (not_lt.1 (hchosen _ hi)) (confidence_nonneg v timestamp)
  | some m =>
      rw [hchoice] at hchosen
      obtain ⟨hm, hpositive, hbest⟩ := hchosen
      obtain ⟨i, v, hv, rfl⟩ := mem_candidates.1 hm
      have hne : (maxima (some (candidate timestamp (0 + i) v))).2.2 ≠ -1 := by
        simp only [maxima]
        omega
      refine ⟨iff_of_false hne fun hall => ?_, fun _ => ⟨i, v, ?_, hv, hpositive, ?_, ?_⟩⟩
      · exact hpositive.ne' (hall v (List.mem_of_getElem? hv))
      · show ((0 + i : ℕ) : ℤ) = i
        rw [Nat.zero_add]
      · rintro ⟨w, hw, hregular⟩
        obtain ⟨j, hj⟩ := hmem w hw
        by_contra hlow
        exact hbest _ hj (Or.inl ⟨not_le.1 hlow, hregular⟩)
      · intro w hw hdominates
        obtain ⟨j, hj⟩ := hmem w hw
        exact hbest _ hj (Or.inr hdominates)

end Sensors
end DtPhm
