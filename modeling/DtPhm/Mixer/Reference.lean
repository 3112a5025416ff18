import DtPhm.Mixer.Multirotor
import Mathlib.Data.Matrix.Mul
import Mathlib.Algebra.BigOperators.Fin

/-!
# Reference — the mixing algorithms of the script

`mixer_multirotor.py` mixes with an allocation matrix: a row for each rotor, columns for roll,
pitch, yaw and thrust.  The built-in `min` and `max` raise an error if there is nothing to compare.

* `computeDesaturationGain`, `minimizeSat`, `mixYaw`, `airmodeRp`, `airmodeRpy`, `normalMode` — the
  functions of the script;
* `isGain_computeDesaturationGain` — its list of gains has the extremes of `IsGain`;
* `minimizeSat_eq`, `reduceOnly_eq` — one direction, as the script and the mixer take it;
* `modes_eq_script` — the modes of the mixer give the outputs of the script.
-/

namespace DtPhm
namespace Mixer
namespace Reference

open Lib Multirotor

/-! ## The script -/

/-- What the literals of a column look up. -/
local instance neZeroColumns : NeZero (4 : ℕ) := ⟨Nat.succ_ne_zero 3⟩

/-- A row for each rotor. -/
abbrev Allocation (n : ℕ) := Matrix (Fin n) (Fin 4) ℚ

/-- The array `k` of `compute_desaturation_gain`: two entries for each output. -/
def gains {n : ℕ} (u : Fin n → ℚ) (uMin uMax : ℚ) (desaturationVector : Fin n → ℚ) : List ℚ :=
  (List.finRange n).flatMap fun i =>
    let dUSatPlus := uMax - u i
    let dUSatMinus := uMin - u i
    if |desaturationVector i| < 1 / 1000000 then [0, 0]
    else
      [if dUSatMinus > 0 then dUSatMinus / desaturationVector i else 0,
        if dUSatPlus < 0 then dUSatPlus / desaturationVector i else 0]

/-- `compute_desaturation_gain`; `none` is the error of `min` for an empty array. -/
def computeDesaturationGain {n : ℕ} (u : Fin n → ℚ) (uMin uMax : ℚ)
    (desaturationVector : Fin n → ℚ) :
    Option ℚ := do
  let k := gains u uMin uMax desaturationVector
  let kMin ← k.min?
  let kMax ← k.max?
  pure (kMin + kMax)

/-- `minimize_sat`. -/
def minimizeSat {n : ℕ} (u : Fin n → ℚ) (uMin uMax : ℚ) (desaturationVector : Fin n → ℚ) :
    Option (Fin n → ℚ) := do
  let k1 ← computeDesaturationGain u uMin uMax desaturationVector
  let u1 := fun i => u i + k1 * desaturationVector i
  let k2 ← computeDesaturationGain u1 uMin uMax desaturationVector
  let kOpt := k1 + 1 / 2 * k2
  pure fun i => u i + kOpt * desaturationVector i

/-- `if (u' > u).any(): u' = u`. -/
def reduceOnly {n : ℕ} (u u' : Fin n → ℚ) : Fin n → ℚ := if ∃ i, u' i > u i then u else u'

section Modes

variable {n : ℕ}

/-- `mix_yaw`. -/
def mixYaw (mSp : Fin 4 → ℚ) (u : Fin n → ℚ) (P : Allocation n) (uMin uMax : ℚ) :
    Option (Fin n → ℚ) := do
  let mSpYawOnly : Fin 4 → ℚ := Function.update (fun _ => 0) 2 (mSp 2)
  let up := u + P.mulVec mSpYawOnly
  let uRDot := fun i => P i 2
  let upp ← minimizeSat up uMin (uMax + 15 / 100) uRDot
  let uT := fun i => P i 3
  let uppp ← minimizeSat upp 0 uMax uT
  pure (reduceOnly upp uppp)

/-- `airmode_rp`. -/
def airmodeRp (mSp : Fin 4 → ℚ) (P : Allocation n) (uMin uMax : ℚ) :
    Option ((Fin n → ℚ) × (Fin n → ℚ)) := do
  let mSpNoYaw := Function.update mSp 2 0
  let u := P.mulVec mSpNoYaw
  let uT := fun i => P i 3
  let uPrime ← minimizeSat u uMin uMax uT
  let uFinal ← mixYaw mSp uPrime P uMin uMax
  pure (u, uFinal)

/-- `airmode_rpy`. -/
def airmodeRpy (mSp : Fin 4 → ℚ) (P : Allocation n) (uMin uMax : ℚ) :
    Option ((Fin n → ℚ) × (Fin n → ℚ)) := do
  let u := P.mulVec mSp
  let uT := fun i => P i 3
  let uPrime ← minimizeSat u uMin uMax uT
  let uT := fun i => P i 2
  let uPrimeYaw ← minimizeSat uPrime uMin uMax uT
  pure (u, uPrimeYaw)

/-- `normal_mode`. -/
def normalMode (mSp : Fin 4 → ℚ) (P : Allocation n) (uMin uMax : ℚ) :
    Option ((Fin n → ℚ) × (Fin n → ℚ)) := do
  let mSpNoYaw := Function.update mSp 2 0
  let u := P.mulVec mSpNoYaw
  let uT := fun i => P i 3
  let uPrime ← minimizeSat u uMin uMax uT
  let uPrime := reduceOnly u uPrime
  let uPDot := fun i => P i 0
  let up2 ← minimizeSat uPrime uMin uMax uPDot
  let uQDot := fun i => P i 1
  let up3 ← minimizeSat up2 uMin uMax uQDot
  let uFinal ← mixYaw mSp up3 P uMin uMax
  pure (u, uFinal)

end Modes

/-! ## One direction, in both programs -/

section Gain

variable {n : ℕ} {d u : Fin n → ℚ} {lo hi : ℚ}

/-- The array holds 0 and the pulls: of the two entries of an output one is always 0. -/
theorem mem_gains (hn : 0 < n) (hd : Resolved d) (hlh : lo ≤ hi) {x : ℚ} :
    x ∈ gains u lo hi d ↔ x ∈ insert 0 (⋃ i, pullsAt d u lo hi i) := by
  have hskip := hd.skip_iff (ε := 1 / 1000000) (by norm_num) le_rfl
  simp only [gains, List.mem_flatMap, List.mem_finRange, true_and, hskip, Set.mem_insert_iff,
    Set.mem_iUnion, pullsAt, Set.mem_ofPred_eq, gt_iff_lt, sub_pos, sub_neg]
  constructor
  · rintro ⟨i, hx⟩
    by_cases h0 : d i = 0
    · left
      simpa [h0] using hx
    · rw [if_neg h0, List.mem_pair] at hx
      rcases hx with hx | hx
      · by_cases hlow : u i < lo
        · rw [if_pos hlow] at hx
          exact Or.inr ⟨i, h0, Or.inl ⟨hlow, hx⟩⟩
        · rw [if_neg hlow] at hx
          exact Or.inl hx
      · by_cases hhigh : hi < u i
        · rw [if_pos hhigh] at hx
          exact Or.inr ⟨i, h0, Or.inr ⟨hhigh, hx⟩⟩
        · rw [if_neg hhigh] at hx
          exact Or.inl hx
  · rintro (rfl | ⟨i, h0, ⟨hlow, hx⟩ | ⟨hhigh, hx⟩⟩)
    · -- the first output has an entry that is 0
      refine ⟨⟨0, hn⟩, ?_⟩
      by_cases h0 : d ⟨0, hn⟩ = 0
      · simp [h0]
      · rw [if_neg h0, List.mem_pair]
        rcases lt_or_ge (u ⟨0, hn⟩) lo with hlow | hlow
        · right
          rw [if_neg (not_lt.2 (hlow.le.trans hlh))]
        · left
          rw [if_neg (not_lt.2 hlow)]
    · exact ⟨i, by simp [h0, hlow, hx]⟩
    · exact ⟨i, by simp [h0, hhigh, hx]⟩

theorem computeDesaturationGain_eq (hn : 0 < n) (hd : Resolved d) (hlh : lo ≤ hi)
    (sat : SaturationStatus) :
    computeDesaturationGain u lo hi d =
      some (Multirotor.computeDesaturationGain d u sat lo hi).1 := by
  have hzero : (0 : ℚ) ∈ gains u lo hi d := (mem_gains hn hd hlh).2 (Set.mem_insert _ _)
  obtain ⟨a, ha⟩ : ∃ a, (gains u lo hi d).min? = some a :=
    Option.ne_none_iff_exists'.1 (List.min?_eq_none_iff.not.2 (List.ne_nil_of_mem hzero))
  obtain ⟨b, hb⟩ : ∃ b, (gains u lo hi d).max? = some b :=
    Option.ne_none_iff_exists'.1 (List.max?_eq_none_iff.not.2 (List.ne_nil_of_mem hzero))
  have hk : IsGain d u lo hi (a + b) := by
    obtain ⟨hamem, hale⟩ := List.min?_eq_some_iff.1 ha
    obtain ⟨hbmem, hble⟩ := List.max?_eq_some_iff.1 hb
    refine ⟨a, b, ⟨⟨(mem_gains hn hd hlh).1 hamem, ?_⟩, ⟨(mem_gains hn hd hlh).1 hbmem, ?_⟩⟩, rfl⟩
    · intro x hx
      exact hale x ((mem_gains hn hd hlh).2 hx)
    · intro x hx
      exact hble x ((mem_gains hn hd hlh).2 hx)
  have heq := hk.unique (isGain_computeDesaturationGain hd hlh sat)
  simp [computeDesaturationGain, ha, hb, heq]

/-- `minimize_sat` moves the outputs where `minimize_saturation` does. -/
theorem minimizeSat_eq (hn : 0 < n) (hd : Resolved d) (hlh : lo ≤ hi) (sat : SaturationStatus) :
    minimizeSat u lo hi d = some (minimizeSaturation d ⟨u, sat⟩ lo hi false).outputs := by
  set k₁ := Multirotor.computeDesaturationGain d u sat lo hi with hk₁
  set k₂ := Multirotor.computeDesaturationGain d (shift d u k₁.1) k₁.2 lo hi with hk₂
  have h₁ : computeDesaturationGain u lo hi d = some k₁.1 :=
    computeDesaturationGain_eq hn hd hlh sat
  have h₂ : computeDesaturationGain (shift d u k₁.1) lo hi d = some k₂.1 :=
    computeDesaturationGain_eq hn hd hlh k₁.2
  have hscript : minimizeSat u lo hi d = some (shift d u (k₁.1 + 1 / 2 * k₂.1)) := by
    rw [minimizeSat, h₁]
    exact congrArg (Option.bind · _) h₂
  rw [hscript, minimizeSaturation_eq, if_neg (not_and.2 fun h => nomatch h)]

/-- Along the thrust, `(u' > u).any()` tells what the sign of the first gain tells. -/
theorem reduceOnly_eq (hn : 0 < n) (hd : d = fun _ => 1) (hlh : lo ≤ hi) (sat : SaturationStatus) :
    (minimizeSat u lo hi d).map (reduceOnly u) =
      some (minimizeSaturation d ⟨u, sat⟩ lo hi true).outputs := by
  have hres : Resolved d := fun i => Or.inr (by rw [hd]; norm_num)
  have hmixer := minimizeSaturation_eq d ⟨u, sat⟩ lo hi
  set k₁ := Multirotor.computeDesaturationGain d u sat lo hi with hk₁
  set k₂ := Multirotor.computeDesaturationGain d (shift d u k₁.1) k₁.2 lo hi with hk₂
  have hsign : 0 < k₁.1 + 1 / 2 * k₂.1 ↔ 0 < k₁.1 := by
    have h₁ := isGain_computeDesaturationGain (u := u) hres hlh sat
    have h₂ := isGain_computeDesaturationGain (u := shift d u k₁.1) hres hlh k₁.2
    subst hd
    exact h₁.pos_iff h₂
  have hany : (∃ i, shift d u (k₁.1 + 1 / 2 * k₂.1) i > u i) ↔ 0 < k₁.1 := by
    rw [← hsign]
    subst hd
    simp only [shift_apply, mul_one, gt_iff_lt, lt_add_iff_pos_right]
    exact ⟨fun ⟨_, h⟩ => h, fun h => ⟨⟨0, hn⟩, h⟩⟩
  rw [minimizeSat_eq hn hres hlh sat, Option.map_some, hmixer false, hmixer true,
    if_neg (not_and.2 fun h => nomatch h), reduceOnly]
  congr 1
  by_cases hpos : 0 < k₁.1
  · rw [if_pos (hany.2 hpos), if_pos ⟨rfl, hpos⟩]
  · rw [if_neg (hany.not.2 hpos), if_neg (not_and.2 fun _ => hpos)]

end Gain

/-! ## The modes, in both programs -/

/-- The allocation matrices: the thrust moves all rotors alike, and the other directions move a
rotor by at least a millionth or not at all. -/
structure Allocated {n : ℕ} (P : Allocation n) : Prop where
  thrust : ∀ i, P i 3 = 1
  resolved : ∀ j, j ≠ 3 → Resolved fun i => P i j

/-- The rotors of an allocation matrix. -/
def rotors {n : ℕ} (P : Allocation n) (i : Fin n) : Rotor := ⟨P i 0, P i 1, P i 2, P i 3⟩

section Equal

variable {n : ℕ} {P : Allocation n}

theorem Allocated.thrust_eq (hP : Allocated P) : (fun i => P i 3) = fun _ => 1 := funext hP.thrust

theorem Allocated.resolved_thrust (hP : Allocated P) : Resolved fun i => P i 3 := by
  intro i
  right
  simp only [hP.thrust i]
  norm_num

theorem mulVec_eq (m : Fin 4 → ℚ) (i : Fin n) :
    P.mulVec m i = m 0 * P i 0 + m 1 * P i 1 + m 2 * P i 2 + m 3 * P i 3 := by
  rw [Matrix.mulVec, dotProduct, Fin.sum_univ_four]
  ring

theorem exists_reduceOnly (hn : 0 < n) (hP : Allocated P) (u : Fin n → ℚ) (sat : SaturationStatus) :
    ∃ u', (minimizeSat u 0 1 fun i => P i 3) = some u' ∧
      reduceOnly u u' = (minimizeSaturation (fun i => P i 3) ⟨u, sat⟩ 0 1 true).outputs :=
  Option.map_eq_some_iff.1 (reduceOnly_eq hn hP.thrust_eq zero_le_one sat)

theorem mixYaw_eq (hn : 0 < n) (hP : Allocated P) (roll pitch yaw thrust : ℚ) (m : Mix n) :
    mixYaw ![roll, pitch, yaw, thrust] m.outputs P 0 1 =
      some (Multirotor.mixYaw (rotors P) yaw m).outputs := by
  have hadd : m.outputs + P.mulVec (Function.update (fun _ => 0) 2 yaw) =
      fun i => m.outputs i + yaw * P i 2 := by
    funext i
    simp [mulVec_eq]
  have hmax : (1 : ℚ) + 15 / 100 = 115 / 100 := by norm_num
  have hlimits : (0 : ℚ) ≤ 115 / 100 := by norm_num
  have hyaw := minimizeSat_eq (u := fun i => m.outputs i + yaw * P i 2) hn
    (hP.resolved 2 (by decide)) hlimits m.saturationStatus
  set pp := minimizeSaturation (fun i => P i 2)
    ⟨fun i => m.outputs i + yaw * P i 2, m.saturationStatus⟩ 0 (115 / 100) false
  obtain ⟨u', hu', hred⟩ := exists_reduceOnly hn hP pp.outputs pp.saturationStatus
  change ((minimizeSat (m.outputs + P.mulVec (Function.update (fun _ => 0) 2 yaw)) 0 (1 + 15 / 100)
    fun i => P i 2).bind fun upp => (minimizeSat upp 0 1 fun i => P i 3).bind fun u' =>
      some (reduceOnly upp u')) = _
  rw [hadd, hmax, hyaw, Option.bind_some, hu', Option.bind_some, hred]
  rfl

theorem airmodeRp_eq (hn : 0 < n) (hP : Allocated P) (roll pitch yaw thrust : ℚ)
    (sat : SaturationStatus) :
    (airmodeRp ![roll, pitch, yaw, thrust] P 0 1).map Prod.snd =
      some (mixAirmodeRp (rotors P) roll pitch yaw thrust sat).outputs := by
  have hmix : P.mulVec (Function.update ![roll, pitch, yaw, thrust] 2 0) =
      fun i => roll * P i 0 + pitch * P i 1 + thrust * P i 3 := by
    funext i
    simp [mulVec_eq]
  rw [airmodeRp, hmix, minimizeSat_eq hn hP.resolved_thrust zero_le_one sat]
  simp only [Option.bind_eq_bind, Option.bind_some, mixYaw_eq hn hP]
  rfl

theorem airmodeRpy_eq (hn : 0 < n) (hP : Allocated P) (roll pitch yaw thrust : ℚ)
    (sat : SaturationStatus) :
    (airmodeRpy ![roll, pitch, yaw, thrust] P 0 1).map Prod.snd =
      some (mixAirmodeRpy (rotors P) roll pitch yaw thrust sat).outputs := by
  have hmix : P.mulVec ![roll, pitch, yaw, thrust] =
      fun i => roll * P i 0 + pitch * P i 1 + yaw * P i 2 + thrust * P i 3 := by
    funext i
    simp [mulVec_eq]
  rw [airmodeRpy, hmix, minimizeSat_eq hn hP.resolved_thrust zero_le_one sat]
  simp only [Option.bind_eq_bind, Option.bind_some]
  rw [minimizeSat_eq hn (hP.resolved 2 (by decide)) zero_le_one _]
  rfl

theorem normalMode_eq (hn : 0 < n) (hP : Allocated P) (roll pitch yaw thrust : ℚ)
    (sat : SaturationStatus) :
    (normalMode ![roll, pitch, yaw, thrust] P 0 1).map Prod.snd =
      some (mixAirmodeDisabled (rotors P) roll pitch yaw thrust sat).outputs := by
  have hmix : P.mulVec (Function.update ![roll, pitch, yaw, thrust] 2 0) =
      fun i => roll * P i 0 + pitch * P i 1 + thrust * P i 3 := by
    funext i
    simp [mulVec_eq]
  obtain ⟨u', hu', hred⟩ := exists_reduceOnly hn hP
    (fun i => roll * P i 0 + pitch * P i 1 + thrust * P i 3) sat
  simp only [normalMode, hmix, Option.bind_eq_bind, hu', Option.bind_some, hred]
  rw [minimizeSat_eq hn (hP.resolved 0 (by decide)) zero_le_one
      (minimizeSaturation (fun i => P i 3) ⟨_, sat⟩ 0 1 true).saturationStatus, Option.bind_some,
    minimizeSat_eq hn (hP.resolved 1 (by decide)) zero_le_one _, Option.bind_some,
    mixYaw_eq hn hP]
  rfl

/-- The three modes of the mixer give the outputs of the script. -/
theorem modes_eq_script (hn : 0 < n) (hP : Allocated P) (roll pitch yaw thrust : ℚ)
    (sat : SaturationStatus) :
    (normalMode ![roll, pitch, yaw, thrust] P 0 1).map Prod.snd =
        some (mixAirmodeDisabled (rotors P) roll pitch yaw thrust sat).outputs ∧
      (airmodeRp ![roll, pitch, yaw, thrust] P 0 1).map Prod.snd =
        some (mixAirmodeRp (rotors P) roll pitch yaw thrust sat).outputs ∧
      (airmodeRpy ![roll, pitch, yaw, thrust] P 0 1).map Prod.snd =
        some (mixAirmodeRpy (rotors P) roll pitch yaw thrust sat).outputs :=
  ⟨normalMode_eq hn hP roll pitch yaw thrust sat, airmodeRp_eq hn hP roll pitch yaw thrust sat,
    airmodeRpy_eq hn hP roll pitch yaw thrust sat⟩

end Equal

/-- Four rotors at the right, left, front and back. -/
def quadPlus : Allocation 4 :=
  ![![-1, 0, 1, 1], ![1, 0, 1, 1], ![0, 1, -1, 1], ![0, -1, -1, 1]]

theorem allocated_quadPlus : Allocated quadPlus := by
  refine ⟨by decide, ?_⟩
  intro j hj i
  have hentry : ∀ i j, quadPlus i j = 0 ∨ quadPlus i j = 1 ∨ quadPlus i j = -1 := by
    simp [Fin.forall_fin_succ, quadPlus]
  rcases hentry i j with hzero | hone | hone
  · exact Or.inl hzero
  · exact Or.inr (by norm_num [hone])
  · exact Or.inr (by norm_num [hone])

theorem modes_eq_script_quad :
    0 < 4 ∧ Allocated quadPlus ∧
      (normalMode ![1 / 2, 1 / 4, 1 / 2, 3 / 4] quadPlus 0 1).map Prod.snd =
          some (mixAirmodeDisabled (rotors quadPlus) (1 / 2) (1 / 4) (1 / 2) (3 / 4)
            ⟨false, false⟩).outputs ∧
        (airmodeRp ![1 / 2, 1 / 4, 1 / 2, 3 / 4] quadPlus 0 1).map Prod.snd =
          some (mixAirmodeRp (rotors quadPlus) (1 / 2) (1 / 4) (1 / 2) (3 / 4)
            ⟨false, false⟩).outputs ∧
        (airmodeRpy ![1 / 2, 1 / 4, 1 / 2, 3 / 4] quadPlus 0 1).map Prod.snd =
          some (mixAirmodeRpy (rotors quadPlus) (1 / 2) (1 / 4) (1 / 2) (3 / 4)
            ⟨false, false⟩).outputs :=
  ⟨by decide, allocated_quadPlus, modes_eq_script (by decide) allocated_quadPlus _ _ _ _ _⟩

/-- Without rotors the script has nothing to compare, and raises an error; the mixer has no
outputs. -/
theorem normalMode_no_rotors :
    Allocated (0 : Allocation 0) ∧
      (normalMode ![0, 0, 0, 1] (0 : Allocation 0) 0 1).map Prod.snd ≠
        some (mixAirmodeDisabled (rotors (0 : Allocation 0)) 0 0 0 1 ⟨false, false⟩).outputs :=
  ⟨⟨fun i => i.elim0, fun _ _ i => i.elim0⟩, by simp [normalMode, minimizeSat,
    computeDesaturationGain, gains]⟩

end Reference
end Mixer
end DtPhm
