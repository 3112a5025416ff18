import DtPhm.Lib.Desaturation
import Mathlib.Data.Rat.Lemmas
import Mathlib.Algebra.Order.Field.Rat
import Mathlib.Data.List.FinRange

/-!
# Multirotor — mixing the controls of a multirotor

The outputs of the rotors are mixed from roll, pitch, yaw and thrust, and brought back between their
limits as far as one direction allows after another.  Numbers are rational.

* `computeDesaturationGain`, `minimizeSaturation` — one direction;
* `mixYaw`, `mixAirmodeRp`, `mixAirmodeRpy`, `mixAirmodeDisabled` — the modes;
* `isGain_computeDesaturationGain` — the loop over the rotors finds the gain of `IsGain`.
-/

namespace DtPhm
namespace Mixer
namespace Multirotor

open Lib

/-! ## Data -/

/-- `Rotor`. -/
structure Rotor where
  rollScale : ℚ
  pitchScale : ℚ
  yawScale : ℚ
  thrustScale : ℚ
deriving DecidableEq, Repr

/-- The flags of `saturation_status` that the loop over the rotors sets. -/
structure SaturationStatus where
  motorPos : Bool
  motorNeg : Bool
deriving DecidableEq, Repr

/-- What the mixing functions work on: the outputs of the rotors and `_saturation_status`. -/
structure Mix (n : ℕ) where
  outputs : Fin n → ℚ
  saturationStatus : SaturationStatus

/-- `FLT_EPSILON`. -/
def fltEpsilon : ℚ := 1 / 8388608

/-! ## One direction -/

/-- The locals of the loop of `compute_desaturation_gain`. -/
structure Gains where
  kMin : ℚ
  kMax : ℚ
  satStatus : SaturationStatus
deriving DecidableEq, Repr

/-- `if (k < k_min) { k_min = k; }` and `if (k > k_max) { k_max = k; }`. -/
def Gains.take (g : Gains) (k : ℚ) : Gains :=
  { g with
    kMin := if k < g.kMin then k else g.kMin
    kMax := if k > g.kMax then k else g.kMax }

def Gains.setNeg (g : Gains) : Gains :=
  { g with satStatus := { g.satStatus with motorNeg := true } }

def Gains.setPos (g : Gains) : Gains :=
  { g with satStatus := { g.satStatus with motorPos := true } }

/-- One turn of the loop of `compute_desaturation_gain`. -/
def gainStep {n : ℕ} (desaturationVector outputs : Fin n → ℚ) (minOutput maxOutput : ℚ) (g : Gains)
    (i : Fin n) : Gains :=
  -- a rotor that the direction does not move cannot be unsaturated along it
  if |desaturationVector i| < fltEpsilon then g
  else
    let g :=
      if outputs i < minOutput then
        (g.take ((minOutput - outputs i) / desaturationVector i)).setNeg
      else g
    if outputs i > maxOutput then
      (g.take ((maxOutput - outputs i) / desaturationVector i)).setPos
    else g

/-- `compute_desaturation_gain`, with the status it leaves. -/
def computeDesaturationGain {n : ℕ} (desaturationVector outputs : Fin n → ℚ)
    (satStatus : SaturationStatus) (minOutput maxOutput : ℚ) : ℚ × SaturationStatus :=
  let g := (List.finRange n).foldl (gainStep desaturationVector outputs minOutput maxOutput)
    ⟨0, 0, satStatus⟩
  (g.kMin + g.kMax, g.satStatus)

/-- `minimize_saturation`. -/
def minimizeSaturation {n : ℕ} (desaturationVector : Fin n → ℚ) (m : Mix n)
    (minOutput maxOutput : ℚ)
    (reduceOnly : Bool) : Mix n :=
  let (k1, satStatus) := computeDesaturationGain desaturationVector m.outputs m.saturationStatus
    minOutput maxOutput
  if reduceOnly && decide (k1 > 0) then { m with saturationStatus := satStatus }
  else
    let outputs := shift desaturationVector m.outputs k1
    let (k, satStatus) := computeDesaturationGain desaturationVector outputs satStatus
      minOutput maxOutput
    let k2 := 1 / 2 * k
    { outputs := shift desaturationVector outputs k2, saturationStatus := satStatus }

/-- A desaturation moves the outputs by two gains, or, where it may only reduce them, not at all. -/
theorem minimizeSaturation_eq {n : ℕ} (d : Fin n → ℚ) (m : Mix n) (lo hi : ℚ) (reduceOnly : Bool) :
    let k₁ := computeDesaturationGain d m.outputs m.saturationStatus lo hi
    let k₂ := computeDesaturationGain d (shift d m.outputs k₁.1) k₁.2 lo hi
    (minimizeSaturation d m lo hi reduceOnly).outputs =
      if reduceOnly = true ∧ 0 < k₁.1 then m.outputs else
        shift d m.outputs (k₁.1 + 1 / 2 * k₂.1) := by
  intro k₁ k₂
  have hdef : minimizeSaturation d m lo hi reduceOnly =
      if reduceOnly && decide (k₁.1 > 0) then { m with saturationStatus := k₁.2 }
      else ⟨shift d (shift d m.outputs k₁.1) (1 / 2 * k₂.1), k₂.2⟩ := rfl
  rw [hdef, shift_shift, apply_ite Mix.outputs]
  simp only [Bool.and_eq_true, decide_eq_true_eq, gt_iff_lt]

/-! ## The modes -/

section Modes

variable {n : ℕ} (rotors : Fin n → Rotor)

/-- `mix_yaw`. -/
def mixYaw (yaw : ℚ) (m : Mix n) : Mix n :=
  let m := { m with outputs := fun i => m.outputs i + yaw * (rotors i).yawScale }
  -- some yaw response is left at maximum thrust
  let m := minimizeSaturation (fun i => (rotors i).yawScale) m 0 (115 / 100) false
  minimizeSaturation (fun i => (rotors i).thrustScale) m 0 1 true

/-- `mix_airmode_rp`; the outputs are overwritten, the status is kept. -/
def mixAirmodeRp (roll pitch yaw thrust : ℚ) (satStatus : SaturationStatus) : Mix n :=
  let m : Mix n :=
    { outputs := fun i => roll * (rotors i).rollScale + pitch * (rotors i).pitchScale +
        thrust * (rotors i).thrustScale
      saturationStatus := satStatus }
  let m := minimizeSaturation (fun i => (rotors i).thrustScale) m 0 1 false
  mixYaw rotors yaw m

/-- `mix_airmode_rpy`. -/
def mixAirmodeRpy (roll pitch yaw thrust : ℚ) (satStatus : SaturationStatus) : Mix n :=
  let m : Mix n :=
    { outputs := fun i => roll * (rotors i).rollScale + pitch * (rotors i).pitchScale +
        yaw * (rotors i).yawScale + thrust * (rotors i).thrustScale
      saturationStatus := satStatus }
  let m := minimizeSaturation (fun i => (rotors i).thrustScale) m 0 1 false
  minimizeSaturation (fun i => (rotors i).yawScale) m 0 1 false

/-- `mix_airmode_disabled`. -/
def mixAirmodeDisabled (roll pitch yaw thrust : ℚ) (satStatus : SaturationStatus) : Mix n :=
  let m : Mix n :=
    { outputs := fun i => roll * (rotors i).rollScale + pitch * (rotors i).pitchScale +
        thrust * (rotors i).thrustScale
      saturationStatus := satStatus }
  let m := minimizeSaturation (fun i => (rotors i).thrustScale) m 0 1 true
  let m := minimizeSaturation (fun i => (rotors i).rollScale) m 0 1 false
  let m := minimizeSaturation (fun i => (rotors i).pitchScale) m 0 1 false
  mixYaw rotors yaw m

end Modes

/-! ## The loop finds the gain -/

section Gain

variable {n : ℕ} {d u : Fin n → ℚ} {lo hi : ℚ} {S : Set ℚ} {g : Gains}

/-- A direction as the allocation matrices have it: each rotor is moved by at least a millionth or
not at all. -/
def Resolved (d : Fin n → ℚ) : Prop := ∀ i, d i = 0 ∨ 1 / 1000000 ≤ |d i|

theorem Resolved.skip_iff (hd : Resolved d) {ε : ℚ} (hε : 0 < ε) (hle : ε ≤ 1 / 1000000)
    (i : Fin n) :
    |d i| < ε ↔ d i = 0 := by
  constructor
  · intro hlt
    rcases hd i with h0 | hge
    · exact h0
    · exact absurd hlt (not_lt.2 (hle.trans hge))
  · intro h0
    rw [h0, abs_zero]
    exact hε

theorem Extremes.take (h : Extremes S g.kMin g.kMax) (k : ℚ) :
    Extremes (insert k S) (g.take k).kMin (g.take k).kMax := by
  have hmin : (g.take k).kMin = min k g.kMin := by
    rw [min_def_lt]
    rfl
  have hmax : (g.take k).kMax = max k g.kMax := by
    rw [max_comm, max_def_lt]
    rfl
  rw [hmin, hmax]
  exact h.insert k

theorem Extremes.gainStep (hd : Resolved d) (hlh : lo ≤ hi) (h : Extremes S g.kMin g.kMax)
    (i : Fin n) :
    Extremes (S ∪ pullsAt d u lo hi i) (gainStep d u lo hi g i).kMin
      (gainStep d u lo hi g i).kMax := by
  have hskip :=
    hd.skip_iff (ε := fltEpsilon) (by norm_num [fltEpsilon]) (by norm_num [fltEpsilon]) i
  unfold Multirotor.gainStep
  by_cases h0 : d i = 0
  · have hnone : pullsAt d u lo hi i = ∅ := by
      ext k
      simp [pullsAt, h0]
    rw [if_pos (hskip.2 h0), hnone, Set.union_empty]
    exact h
  · rw [if_neg (hskip.not.2 h0)]
    rcases lt_or_ge (u i) lo with hlow | hlow
    · -- an output below is not above as well
      have hone : pullsAt d u lo hi i = {(lo - u i) / d i} := by
        ext k
        simp [pullsAt, h0, hlow, not_lt.2 (hlow.le.trans hlh)]
      rw [if_pos hlow, if_neg (not_lt.2 (hlow.le.trans hlh)), hone, Set.union_singleton]
      exact Extremes.take h _
    · rw [if_neg (not_lt.2 hlow)]
      rcases lt_or_ge hi (u i) with hhigh | hhigh
      · have hone : pullsAt d u lo hi i = {(hi - u i) / d i} := by
          ext k
          simp [pullsAt, h0, hhigh, not_lt.2 hlow]
        rw [if_pos hhigh, hone, Set.union_singleton]
        exact Extremes.take h _
      · have hnone : pullsAt d u lo hi i = ∅ := by
          ext k
          simp [pullsAt, not_lt.2 hlow, not_lt.2 hhigh]
        rw [if_neg (not_lt.2 hhigh), hnone, Set.union_empty]
        exact h

theorem Extremes.foldl_gainStep (hd : Resolved d) (hlh : lo ≤ hi) (l : List (Fin n))
    (h : Extremes S g.kMin g.kMax) :
    Extremes (S ∪ ⋃ i ∈ l, pullsAt d u lo hi i) (l.foldl (Multirotor.gainStep d u lo hi) g).kMin
      (l.foldl (Multirotor.gainStep d u lo hi) g).kMax := by
  induction l generalizing S g with
  | nil => simpa using h
  | cons i l ih =>
      have hrun := ih (Extremes.gainStep (u := u) hd hlh h i)
      have hsplit : S ∪ ⋃ j ∈ i :: l, pullsAt d u lo hi j =
          S ∪ pullsAt d u lo hi i ∪ ⋃ j ∈ l, pullsAt d u lo hi j := by
        ext k
        simp [or_assoc]
      rw [hsplit]
      exact hrun

/-- `compute_desaturation_gain` returns the gain. -/
theorem isGain_computeDesaturationGain (hd : Resolved d) (hlh : lo ≤ hi) (sat : SaturationStatus) :
    IsGain d u lo hi (computeDesaturationGain d u sat lo hi).1 := by
  have hrun := Extremes.foldl_gainStep (g := ⟨0, 0, sat⟩) (u := u) hd hlh (List.finRange n)
    (Extremes.singleton 0)
  have hall : {0} ∪ ⋃ i ∈ List.finRange n, pullsAt d u lo hi i =
      insert 0 (⋃ i, pullsAt d u lo hi i) := by
    ext k
    simp
  exact ⟨_, _, hall ▸ hrun, rfl⟩

end Gain

end Multirotor
end Mixer
end DtPhm
