import DtPhm.Mixer.Multirotor
import Mathlib.Algebra.BigOperators.Fin
import Mathlib.Algebra.Order.BigOperators.Group.Finset
import Mathlib.Data.Fin.VecNotation

/-!
# Thrust — what desaturation does to the thrust

* `thrust_desaturation` — where the outputs lie after they were moved along the thrust;
* `total_thrust_le` — without airmode the outputs together do not exceed the thrust that was asked
  for.
-/

namespace DtPhm
namespace Mixer
namespace Multirotor

open Lib

variable {n : ℕ}

/-! ## One direction -/

theorem exists_shift (d : Fin n → ℚ) (m : Mix n) (lo hi : ℚ) (reduceOnly : Bool) :
    ∃ k, (minimizeSaturation d m lo hi reduceOnly).outputs = shift d m.outputs k := by
  rw [minimizeSaturation_eq]
  split
  · exact ⟨0, by funext i; simp⟩
  · exact ⟨_, rfl⟩

theorem sum_minimizeSaturation {d : Fin n → ℚ} (hd : ∑ i, d i = 0) (m : Mix n) (lo hi : ℚ)
    (reduceOnly : Bool) :
    ∑ i, (minimizeSaturation d m lo hi reduceOnly).outputs i = ∑ i, m.outputs i := by
  obtain ⟨k, hk⟩ := exists_shift d m lo hi reduceOnly
  rw [hk, sum_shift, hd, mul_zero, add_zero]

/-! ## Along the thrust -/

/-- The direction of the thrust, where all rotors have the same scale. -/
def thrustDirection (n : ℕ) : Fin n → ℚ := fun _ => 1

theorem resolved_thrustDirection (n : ℕ) : Resolved (thrustDirection n) := by
  intro i
  right
  norm_num [thrustDirection]

section Gains

variable (m : Mix n) {lo hi : ℚ}

theorem exists_gains (h : lo ≤ hi) (reduceOnly : Bool) :
    ∃ k₁ k₂, IsGain (fun _ => 1) m.outputs lo hi k₁ ∧
      IsGain (fun _ => 1) (shift (fun _ => 1) m.outputs k₁) lo hi k₂ ∧
      (minimizeSaturation (thrustDirection n) m lo hi reduceOnly).outputs =
        if reduceOnly = true ∧ 0 < k₁ then m.outputs
        else shift (fun _ => 1) m.outputs (k₁ + 1 / 2 * k₂) :=
  ⟨_, _, isGain_computeDesaturationGain (resolved_thrustDirection n) h _,
    isGain_computeDesaturationGain (resolved_thrustDirection n) h _,
    minimizeSaturation_eq (thrustDirection n) m lo hi reduceOnly⟩

theorem reduceOnly_le (h : lo ≤ hi) (i : Fin n) :
    (minimizeSaturation (thrustDirection n) m lo hi true).outputs i ≤ m.outputs i := by
  obtain ⟨k₁, k₂, h₁, h₂, heq⟩ := exists_gains m h true
  rw [heq]
  by_cases hpos : 0 < k₁
  · rw [if_pos ⟨rfl, hpos⟩]
  · have hle : k₁ + 1 / 2 * k₂ ≤ 0 := not_lt.1 ((h₁.pos_iff h₂).not.2 hpos)
    rw [if_neg fun hand => hpos hand.2, shift_apply, mul_one]
    exact add_le_of_nonpos_right hle

/-- Where the outputs lie after a desaturation along the thrust. -/
structure Desaturated (m : Mix n) (lo hi : ℚ) : Prop where
  /-- All outputs are shifted by one amount. -/
  shifted : ∃ k, ∀ i,
    (minimizeSaturation (thrustDirection n) m lo hi false).outputs i = m.outputs i + k
  /-- Outputs that fit between the limits lie there. -/
  inside : (∀ i j, m.outputs i - m.outputs j ≤ hi - lo) →
    ∀ i, (minimizeSaturation (thrustDirection n) m lo hi false).outputs i ∈ Set.Icc lo hi
  /-- Otherwise the highest output is as far above as the lowest one is below. -/
  balanced : (∃ i j, hi - lo < m.outputs i - m.outputs j) →
    ∃ top bottom,
      IsGreatest (Set.range (minimizeSaturation (thrustDirection n) m lo hi false).outputs) top ∧
        IsLeast (Set.range (minimizeSaturation (thrustDirection n) m lo hi false).outputs) bottom ∧
        top - hi = lo - bottom ∧ hi < top
  unchanged : (∀ i, m.outputs i ∈ Set.Icc lo hi) →
    ∀ reduceOnly,
      (minimizeSaturation (thrustDirection n) m lo hi reduceOnly).outputs = m.outputs
  reduced : ∀ i, (minimizeSaturation (thrustDirection n) m lo hi true).outputs i ≤ m.outputs i

/-- The excess over the limits is made as small as it can be. -/
theorem thrust_desaturation (m : Mix n) (h : lo < hi) : Desaturated m lo hi where
  shifted := by
    obtain ⟨k, hk⟩ := exists_shift (thrustDirection n) m lo hi false
    refine ⟨k, fun i => ?_⟩
    rw [hk, shift_apply, thrustDirection, mul_one]
  inside := by
    intro hfits i
    obtain ⟨k₁, k₂, h₁, h₂, heq⟩ := exists_gains m h.le false
    rw [heq, if_neg fun hand => Bool.false_ne_true hand.1]
    exact h₁.inside h₂ hfits i
  balanced := by
    intro hout
    obtain ⟨k₁, k₂, h₁, h₂, heq⟩ := exists_gains m h.le false
    obtain ⟨c, hc, hgreatest, hleast⟩ := h₁.balanced h₂ hout
    rw [heq, if_neg fun hand => Bool.false_ne_true hand.1]
    exact ⟨hi + c, lo - c, hgreatest, hleast, by ring, lt_add_of_pos_right hi hc⟩
  unchanged := by
    intro hinside reduceOnly
    obtain ⟨k₁, k₂, h₁, h₂, heq⟩ := exists_gains m h.le reduceOnly
    have hzero : ∀ u : Fin n → ℚ, shift (fun _ => 1) u 0 = u := fun u => by funext i; simp
    obtain rfl := h₁.eq_zero hinside
    rw [hzero] at h₂
    obtain rfl := h₂.eq_zero hinside
    rw [heq, if_neg fun hand => lt_irrefl 0 hand.2, mul_zero, add_zero, hzero]
  reduced := reduceOnly_le m h.le

end Gains

/-- Two outputs that are three limits apart. -/
theorem thrust_desaturation_two :
    (0 : ℚ) < 1 ∧ Desaturated ⟨![2, -1], ⟨false, false⟩⟩ 0 1 :=
  ⟨zero_lt_one, thrust_desaturation _ zero_lt_one⟩

/-! ## Without airmode -/

/-- The rotors of a vehicle: the thrust moves them alike, and in the other directions they balance
each other. -/
structure Balanced (rotors : Fin n → Rotor) : Prop where
  thrust : ∀ i, (rotors i).thrustScale = 1
  roll : ∑ i, (rotors i).rollScale = 0
  pitch : ∑ i, (rotors i).pitchScale = 0
  yaw : ∑ i, (rotors i).yawScale = 0

namespace Balanced

variable {rotors : Fin n → Rotor}

theorem thrust_eq (h : Balanced rotors) : (fun i => (rotors i).thrustScale) = thrustDirection n :=
  funext h.thrust

theorem sum_reduced_le (h : Balanced rotors) (m : Mix n) :
    ∑ i, (minimizeSaturation (fun i => (rotors i).thrustScale) m 0 1 true).outputs i ≤
      ∑ i, m.outputs i := by
  rw [h.thrust_eq]
  exact Finset.sum_le_sum fun i _ => reduceOnly_le m zero_le_one i

theorem sum_mixYaw_le (h : Balanced rotors) (yaw : ℚ) (m : Mix n) :
    ∑ i, (mixYaw rotors yaw m).outputs i ≤ ∑ i, m.outputs i := by
  have hyaw : ∑ i, (m.outputs i + yaw * (rotors i).yawScale) = ∑ i, m.outputs i := by
    rw [Finset.sum_add_distrib, ← Finset.mul_sum, h.yaw, mul_zero, add_zero]
  unfold mixYaw
  refine (h.sum_reduced_le _).trans ?_
  rw [sum_minimizeSaturation h.yaw]
  exact hyaw.le

theorem sum_mixed (h : Balanced rotors) (roll pitch thrust : ℚ) :
    ∑ i, (roll * (rotors i).rollScale + pitch * (rotors i).pitchScale +
      thrust * (rotors i).thrustScale) = n * thrust := by
  simp only [Finset.sum_add_distrib, ← Finset.mul_sum, h.roll, h.pitch, h.thrust]
  simp [mul_comm]

end Balanced

/-- The total thrust is never raised: the outputs add up to at most the thrust times the rotors. -/
theorem total_thrust_le {rotors : Fin n → Rotor} (h : Balanced rotors) (roll pitch yaw thrust : ℚ)
    (sat : SaturationStatus) :
    ∑ i, (mixAirmodeDisabled rotors roll pitch yaw thrust sat).outputs i ≤ n * thrust := by
  unfold mixAirmodeDisabled
  refine (h.sum_mixYaw_le yaw _).trans ?_
  rw [sum_minimizeSaturation h.pitch, sum_minimizeSaturation h.roll]
  exact (h.sum_reduced_le _).trans (h.sum_mixed roll pitch thrust).le

/-- Four rotors, which turn against each other in pairs. -/
def quad : Fin 4 → Rotor :=
  ![⟨-1, 1, 1, 1⟩, ⟨1, -1, 1, 1⟩, ⟨1, 1, -1, 1⟩, ⟨-1, -1, -1, 1⟩]

theorem balanced_quad : Balanced quad where
  thrust := by decide +kernel
  roll := by decide +kernel
  pitch := by decide +kernel
  yaw := by decide +kernel

theorem total_thrust_le_quad :
    Balanced quad ∧
      ∑ i, (mixAirmodeDisabled quad 1 (1 / 2) 1 (9 / 10) ⟨false, false⟩).outputs i ≤
        (4 : ℕ) * (9 / 10) :=
  ⟨balanced_quad, total_thrust_le balanced_quad _ _ _ _ _⟩

end Multirotor
end Mixer
end DtPhm
