import Mathlib.Algebra.BigOperators.Ring.Finset
import Mathlib.Algebra.Order.Field.Basic
import Mathlib.Data.Set.Lattice
import Mathlib.Order.Bounds.Basic
import Mathlib.Tactic.Linarith
import Mathlib.Tactic.Ring

/-!
# Desaturation — bringing outputs back between two limits along a direction

Outputs `u` are moved along a direction `d`, by a gain that depends on those outside the limits.

* `pullsAt` — the gain that brings one output to the limit it exceeds, if the direction moves it;
* `IsGain` — the sum of the least and the greatest of these and 0;
* `shift` — the outputs after a gain was applied;
* `IsGain.pos_iff` — a second gain, taken by half, does not turn the first one around when the
  direction moves all outputs alike;
* `IsGain.inside`, `IsGain.balanced` — with both gains, outputs that fit between the limits come to
  lie between them, and others go beyond both by the same amount.
-/

namespace DtPhm
namespace Lib

variable {K ι : Type*} [Field K] [LinearOrder K]

/-! ## Gains -/

/-- The gains that bring output `i` to the limit it exceeds. -/
def pullsAt (d u : ι → K) (lo hi : K) (i : ι) : Set K :=
  {k | d i ≠ 0 ∧ (u i < lo ∧ k = (lo - u i) / d i ∨ hi < u i ∧ k = (hi - u i) / d i)}

/-- `a` and `b` are the least and the greatest number of `S`. -/
structure Extremes (S : Set K) (a b : K) : Prop where
  least : IsLeast S a
  greatest : IsGreatest S b

/-- `k` is the gain of `u` along `d`. -/
def IsGain (d u : ι → K) (lo hi k : K) : Prop :=
  ∃ a b, Extremes (insert 0 (⋃ i, pullsAt d u lo hi i)) a b ∧ a + b = k

/-- The outputs moved by `k` along `d`. -/
def shift (d u : ι → K) (k : K) : ι → K := fun i => u i + k * d i

omit [LinearOrder K] in
@[simp] theorem shift_apply (d u : ι → K) (k : K) (i : ι) : shift d u k i = u i + k * d i := rfl

omit [LinearOrder K] in
/-- Two shifts are one. -/
theorem shift_shift (d u : ι → K) (k₁ k₂ : K) :
    shift d (shift d u k₁) k₂ = shift d u (k₁ + k₂) := by
  funext i
  simp only [shift_apply]
  ring

omit [LinearOrder K] in
theorem sum_shift [Fintype ι] (d u : ι → K) (k : K) :
    ∑ i, shift d u k i = ∑ i, u i + k * ∑ i, d i := by
  simp only [shift_apply, Finset.sum_add_distrib, Finset.mul_sum]

namespace Extremes

variable {S : Set K} {a b a' b' : K}

omit [Field K]

theorem singleton (a : K) : Extremes {a} a a :=
  ⟨isLeast_singleton, isGreatest_singleton⟩

theorem insert (h : Extremes S a b) (k : K) :
    Extremes (Insert.insert k S) (min k a) (max k b) :=
  ⟨h.least.insert k, h.greatest.insert k⟩

theorem unique (h : Extremes S a b) (h' : Extremes S a' b') : a = a' ∧ b = b' :=
  ⟨h.least.unique h'.least, h.greatest.unique h'.greatest⟩

end Extremes

theorem IsGain.unique {d u : ι → K} {lo hi k k' : K} (h : IsGain d u lo hi k)
    (h' : IsGain d u lo hi k') : k = k' := by
  obtain ⟨a, b, he, rfl⟩ := h
  obtain ⟨a', b', he', rfl⟩ := h'
  obtain ⟨rfl, rfl⟩ := he.unique he'
  rfl

/-! ## A direction that moves all outputs alike -/

section Uniform

variable [IsStrictOrderedRing K] {u : ι → K} {lo hi k : K}

theorem mem_pullsAt_one {i : ι} :
    k ∈ pullsAt (fun _ => 1) u lo hi i ↔ u i < lo ∧ k = lo - u i ∨ hi < u i ∧ k = hi - u i := by
  simp [pullsAt]

/-- How far the outputs go below `lo` (`b`) and above `hi` (`a`). -/
structure Excess (u : ι → K) (lo hi a b : K) : Prop where
  above_nonneg : 0 ≤ a
  below_nonneg : 0 ≤ b
  above : ∀ i, u i - hi ≤ a
  below : ∀ i, lo - u i ≤ b
  above_attained : 0 < a → ∃ i, u i - hi = a
  below_attained : 0 < b → ∃ i, lo - u i = b

/-- Along the uniform direction the gain is the difference of the two excesses. -/
theorem IsGain.excess (h : IsGain (fun _ => 1) u lo hi k) :
    ∃ a b, Excess u lo hi a b ∧ k = b - a := by
  obtain ⟨m, b, ⟨⟨hm, hlow⟩, hb, hhigh⟩, rfl⟩ := h
  have hmem : ∀ {x}, x ∈ insert (0 : K) (⋃ i, pullsAt (fun _ => 1) u lo hi i) ↔
      x = 0 ∨ ∃ i, u i < lo ∧ x = lo - u i ∨ hi < u i ∧ x = hi - u i := by
    intro x
    simp [mem_pullsAt_one]
  have hm0 : m ≤ 0 := hlow (hmem.2 (Or.inl rfl))
  have hb0 : 0 ≤ b := hhigh (hmem.2 (Or.inl rfl))
  refine ⟨-m, b, ⟨by linarith, hb0, ?_, ?_, ?_, ?_⟩, by ring⟩
  · intro i
    rcases lt_or_ge hi (u i) with hi' | hi'
    · have := hlow (hmem.2 (Or.inr ⟨i, Or.inr ⟨hi', rfl⟩⟩))
      linarith
    · linarith
  · intro i
    rcases lt_or_ge (u i) lo with hi' | hi'
    · exact hhigh (hmem.2 (Or.inr ⟨i, Or.inl ⟨hi', rfl⟩⟩))
    · linarith
  · intro hpos
    rcases hmem.1 hm with h0 | ⟨i, ⟨hlt, hx⟩ | ⟨hlt, hx⟩⟩
    · linarith
    · linarith
    · exact ⟨i, by linarith⟩
  · intro hpos
    rcases hmem.1 hb with h0 | ⟨i, ⟨hlt, hx⟩ | ⟨hlt, hx⟩⟩
    · linarith
    · exact ⟨i, by linarith⟩
    · linarith

/-- After a shift by the difference, the excesses have changed places: what was above is now at most
what was below, and the other way around. -/
theorem Excess.shifted {a b a' b' : K} (h : Excess u lo hi a b)
    (h' : Excess (shift (fun _ => 1) u (b - a)) lo hi a' b') :
    a' ≤ b ∧ b' ≤ a ∧ (0 < a → b ≤ a') ∧ (0 < b → a ≤ b') := by
  have hshift : ∀ i, shift (fun _ => (1 : K)) u (b - a) i = u i + (b - a) := fun i => by simp
  refine ⟨?_, ?_, ?_, ?_⟩
  · rcases h'.above_nonneg.lt_or_eq with hpos | h0
    · obtain ⟨i, hi'⟩ := h'.above_attained hpos
      have := h.above i
      have := hshift i
      linarith
    · exact h0 ▸ h.below_nonneg
  · rcases h'.below_nonneg.lt_or_eq with hpos | h0
    · obtain ⟨i, hi'⟩ := h'.below_attained hpos
      have := h.below i
      have := hshift i
      linarith
    · exact h0 ▸ h.above_nonneg
  · intro hpos
    obtain ⟨i, hi'⟩ := h.above_attained hpos
    have := h'.above i
    have := hshift i
    linarith
  · intro hpos
    obtain ⟨i, hi'⟩ := h.below_attained hpos
    have := h'.below i
    have := hshift i
    linarith

/-- Outputs that are nowhere outside of the limits. -/
theorem Excess.mem_Icc (h : Excess u lo hi 0 0) (i : ι) : u i ∈ Set.Icc lo hi :=
  ⟨sub_nonpos.1 (h.below i), sub_nonpos.1 (h.above i)⟩

theorem Excess.eq_zero {a b : K} (h : Excess u lo hi a b) (hu : ∀ i, u i ∈ Set.Icc lo hi) :
    a = 0 ∧ b = 0 := by
  constructor
  · by_contra ha
    obtain ⟨i, hi'⟩ := h.above_attained (lt_of_le_of_ne h.above_nonneg (Ne.symm ha))
    have := (hu i).2
    have := lt_of_le_of_ne h.above_nonneg (Ne.symm ha)
    linarith
  · by_contra hb
    obtain ⟨i, hi'⟩ := h.below_attained (lt_of_le_of_ne h.below_nonneg (Ne.symm hb))
    have := (hu i).1
    have := lt_of_le_of_ne h.below_nonneg (Ne.symm hb)
    linarith

/-- Outputs that fit between the limits are there after the first shift. -/
theorem Excess.eq_zero_of_fits {a b a' b' : K} (h : Excess u lo hi a b)
    (h' : Excess (shift (fun _ => 1) u (b - a)) lo hi a' b')
    (hfits : ∀ i j, u i - u j ≤ hi - lo) : a' = 0 ∧ b' = 0 := by
  obtain ⟨ha', hb', -, -⟩ := h.shifted h'
  have hshift : ∀ i, shift (fun _ => (1 : K)) u (b - a) i = u i + (b - a) := fun i => by simp
  constructor
  · by_contra hne
    have hpos : 0 < a' := lt_of_le_of_ne h'.above_nonneg (Ne.symm hne)
    -- one output is the lowest, and another one is too far above it
    obtain ⟨i, hi'⟩ := h'.above_attained hpos
    obtain ⟨j, hj⟩ := h.below_attained (lt_of_lt_of_le hpos ha')
    have := hshift i
    have := hfits i j
    rcases h.above_nonneg.lt_or_eq with hlt | h0
    · obtain ⟨k, hk⟩ := h.above_attained hlt
      have := hfits k j
      linarith
    · linarith
  · by_contra hne
    have hpos : 0 < b' := lt_of_le_of_ne h'.below_nonneg (Ne.symm hne)
    obtain ⟨j, hj⟩ := h'.below_attained hpos
    obtain ⟨i, hi'⟩ := h.above_attained (lt_of_lt_of_le hpos hb')
    have := hshift j
    have := hfits i j
    rcases h.below_nonneg.lt_or_eq with hlt | h0
    · obtain ⟨k, hk⟩ := h.below_attained hlt
      have := hfits i k
      linarith
    · linarith

/-- After the first shift there are outputs as far above and below as the excesses say, if they do
not fit between the limits. -/
theorem Excess.attained {a b a' b' : K} (h : Excess u lo hi a b)
    (h' : Excess (shift (fun _ => 1) u (b - a)) lo hi a' b')
    (hout : ∃ i j, hi - lo < u i - u j) :
    (∃ i, shift (fun _ => 1) u (b - a) i - hi = a') ∧
      (∃ i, lo - shift (fun _ => 1) u (b - a) i = b') ∧ 0 < a' + b' := by
  obtain ⟨ha', hb', ha, hb⟩ := h.shifted h'
  have hshift : ∀ i, shift (fun _ => (1 : K)) u (b - a) i = u i + (b - a) := fun i => by simp
  have hsum : 0 < a' + b' := by
    obtain ⟨i, j, hij⟩ := hout
    have := h'.above i
    have := h'.below j
    have := hshift i
    have := hshift j
    linarith
  refine ⟨?_, ?_, hsum⟩
  · rcases h'.above_nonneg.lt_or_eq with hpos | h0
    · exact h'.above_attained hpos
    · -- the highest output was brought down to the limit
      have hapos : 0 < a := by linarith
      obtain ⟨i, hi'⟩ := h.above_attained hapos
      have := ha hapos
      have := h.below_nonneg
      exact ⟨i, by rw [hshift]; linarith⟩
  · rcases h'.below_nonneg.lt_or_eq with hpos | h0
    · exact h'.below_attained hpos
    · have hbpos : 0 < b := by linarith
      obtain ⟨i, hi'⟩ := h.below_attained hbpos
      have := hb hbpos
      have := h.above_nonneg
      exact ⟨i, by rw [hshift]; linarith⟩

/-- The first gain and half of the second together have the sign of the first. -/
theorem IsGain.pos_iff {k₁ k₂ : K} (h₁ : IsGain (fun _ => 1) u lo hi k₁)
    (h₂ : IsGain (fun _ => 1) (shift (fun _ => 1) u k₁) lo hi k₂) :
    0 < k₁ + 1 / 2 * k₂ ↔ 0 < k₁ := by
  obtain ⟨a, b, he, rfl⟩ := h₁.excess
  obtain ⟨a', b', he', rfl⟩ := h₂.excess
  obtain ⟨ha', hb', ha, hb⟩ := he.shifted he'
  have ha0 := he.above_nonneg
  have hb0 := he.below_nonneg
  constructor
  · intro hpos
    by_contra hle
    -- nothing is gained: either both excesses are 0, or the outputs go further above
    rcases ha0.lt_or_eq with hpos' | h0
    · have := ha hpos'
      linarith
    · have := he'.above_nonneg
      linarith
  · intro hpos
    have := hb (by linarith)
    linarith

/-- Between the limits there is nothing to gain. -/
theorem IsGain.eq_zero (h : IsGain (fun _ => 1) u lo hi k) (hu : ∀ i, u i ∈ Set.Icc lo hi) :
    k = 0 := by
  obtain ⟨a, b, he, rfl⟩ := h.excess
  obtain ⟨rfl, rfl⟩ := he.eq_zero hu
  exact sub_zero 0

/-- Outputs that fit between the limits are brought there. -/
theorem IsGain.inside {k₁ k₂ : K} (h₁ : IsGain (fun _ => 1) u lo hi k₁)
    (h₂ : IsGain (fun _ => 1) (shift (fun _ => 1) u k₁) lo hi k₂)
    (hfits : ∀ i j, u i - u j ≤ hi - lo) (i : ι) :
    shift (fun _ => 1) u (k₁ + 1 / 2 * k₂) i ∈ Set.Icc lo hi := by
  obtain ⟨a, b, he, rfl⟩ := h₁.excess
  obtain ⟨a', b', he', rfl⟩ := h₂.excess
  obtain ⟨rfl, rfl⟩ := he.eq_zero_of_fits he' hfits
  have hmem := he'.mem_Icc i
  simpa using hmem

/-- Others go beyond both limits by the same amount. -/
theorem IsGain.balanced {k₁ k₂ : K} (h₁ : IsGain (fun _ => 1) u lo hi k₁)
    (h₂ : IsGain (fun _ => 1) (shift (fun _ => 1) u k₁) lo hi k₂)
    (hout : ∃ i j, hi - lo < u i - u j) :
    ∃ c, 0 < c ∧ IsGreatest (Set.range (shift (fun _ => 1) u (k₁ + 1 / 2 * k₂))) (hi + c) ∧
      IsLeast (Set.range (shift (fun _ => 1) u (k₁ + 1 / 2 * k₂))) (lo - c) := by
  obtain ⟨a, b, he, rfl⟩ := h₁.excess
  obtain ⟨a', b', he', rfl⟩ := h₂.excess
  obtain ⟨⟨i, hi'⟩, ⟨j, hj⟩, hsum⟩ := he.attained he' hout
  have hfinal : ∀ l, shift (fun _ => (1 : K)) u (b - a + 1 / 2 * (b' - a')) l =
      shift (fun _ => 1) u (b - a) l + 1 / 2 * (b' - a') := by
    intro l
    rw [← shift_shift]
    simp
  refine ⟨1 / 2 * (a' + b'), by linarith, ⟨⟨i, ?_⟩, ?_⟩, ⟨⟨j, ?_⟩, ?_⟩⟩
  · rw [hfinal]
    linarith
  · rintro _ ⟨l, rfl⟩
    have := he'.above l
    rw [hfinal]
    linarith
  · rw [hfinal]
    linarith
  · rintro _ ⟨l, rfl⟩
    have := he'.below l
    rw [hfinal]
    linarith

end Uniform

end Lib
end DtPhm
