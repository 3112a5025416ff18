import Mathlib.Data.Rat.Floor
import Mathlib.Tactic.Linarith
import Mathlib.Tactic.FieldSimp
import Mathlib.Tactic.Positivity

/-!
# Rounding — C conversions between exact reals and bounded integers

Programs that store floating point values in integer fields rely on three operations of the
language.  They are stated here over exact rationals:

* `truncZero` — the value a float-to-integer conversion takes when it is representable;
* `IntConv lo hi` — a float-to-integer conversion with range `[lo, hi]`.  The language fixes it for
  representable values only, so a conversion is *any* function into the range that truncates there;
* `roundAway` — `round()`, to the nearest integer, halves away from zero;
* `wrapFloating` — reduction of an angle into a half-open interval.
-/

namespace DtPhm
namespace Lib

/-! ## Truncation and rounding -/

/-- Truncation towards zero. -/
def truncZero (q : ℚ) : ℤ :=
  if 0 ≤ q then ⌊q⌋ else ⌈q⌉

/-- The nearest integer, halves rounded away from zero. -/
def roundAway (q : ℚ) : ℤ :=
  if 0 ≤ q then ⌊q + 1 / 2⌋ else ⌈q - 1 / 2⌉

@[simp] theorem truncZero_intCast (z : ℤ) : truncZero (z : ℚ) = z := by
  simp [truncZero]

theorem truncZero_natCast_add_half (n : ℕ) : truncZero ((n : ℚ) + 1 / 2) = n := by
  have hpos : (0 : ℚ) ≤ (n : ℚ) + 1 / 2 := by positivity
  rw [truncZero, if_pos hpos, Int.floor_eq_iff]
  constructor
  · push_cast
    linarith
  · push_cast
    linarith

/-- Truncation stays within a whole bound exactly below the next one. -/
theorem abs_truncZero_le_iff {q : ℚ} {n : ℕ} : |truncZero q| ≤ n ↔ |q| < n + 1 := by
  unfold truncZero
  split
  · rename_i hq
    rw [abs_of_nonneg (Int.floor_nonneg.2 hq), abs_of_nonneg hq, ← Int.lt_add_one_iff, Int.floor_lt]
    push_cast
    rfl
  · rename_i hq
    have hneg : q ≤ 0 := (not_le.1 hq).le
    have hceil : ⌈q⌉ ≤ 0 := by
      rw [Int.ceil_le, Int.cast_zero]
      exact hneg
    rw [abs_of_nonpos hceil, abs_of_nonpos hneg, neg_le, neg_lt, ← Int.sub_one_lt_iff, Int.lt_ceil]
    push_cast
    rw [neg_add']

@[simp] theorem roundAway_intCast (z : ℤ) : roundAway (z : ℚ) = z := by
  unfold roundAway
  split
  · rw [Int.floor_eq_iff]
    constructor <;> linarith
  · rw [Int.ceil_eq_iff]
    constructor <;> linarith

/-! ## Conversions to bounded integers -/

/-- A float-to-integer conversion with target range `[lo, hi]`.  Values whose truncation is not
representable convert to *some* value of the range. -/
structure IntConv (lo hi : ℤ) where
  toFun : ℚ → ℤ
  lower : ∀ q, lo ≤ toFun q
  upper : ∀ q, toFun q ≤ hi
  exact : ∀ q, lo ≤ truncZero q → truncZero q ≤ hi → toFun q = truncZero q

namespace IntConv

variable {lo hi : ℤ}

instance : CoeFun (IntConv lo hi) (fun _ => ℚ → ℤ) := ⟨IntConv.toFun⟩

/-- The conversion that saturates at the ends of the range. -/
def saturate (h : lo ≤ hi) : IntConv lo hi where
  toFun q := max lo (min hi (truncZero q))
  lower _ := le_max_left _ _
  upper _ := max_le h (min_le_left _ _)
  exact q hlo hhi := by rw [min_eq_right hhi, max_eq_right hlo]

theorem apply_intCast (c : IntConv lo hi) {z : ℤ} (hlo : lo ≤ z) (hhi : z ≤ hi) :
    c (z : ℚ) = z := by
  have h := c.exact (z : ℚ)
  rw [truncZero_intCast] at h
  exact h hlo hhi

/-- Converting a converted value again changes nothing. -/
@[simp] theorem apply_apply (c : IntConv lo hi) (q : ℚ) : c ((c q : ℤ) : ℚ) = c q :=
  c.apply_intCast (c.lower q) (c.upper q)

/-- A conversion keeps exactly the integers of its range. -/
theorem cast_apply_eq_iff (c : IntConv lo hi) (q : ℚ) :
    ((c q : ℤ) : ℚ) = q ↔ ∃ z : ℤ, lo ≤ z ∧ z ≤ hi ∧ (z : ℚ) = q := by
  constructor
  · intro h
    exact ⟨c q, c.lower q, c.upper q, h⟩
  · rintro ⟨z, hlo, hhi, rfl⟩
    rw [c.apply_intCast hlo hhi]

end IntConv

/-! ## Wrapping -/

/-- Reduce `x` into `[low, high)` by a whole number of periods. -/
def wrapFloating (x low high : ℚ) : ℚ :=
  if low ≤ x ∧ x < high then x
  else x - (high - low) * (⌊(x - low) * (1 / (high - low))⌋ : ℚ)

theorem wrapFloating_mem {low high : ℚ} (h : low < high) (x : ℚ) :
    low ≤ wrapFloating x low high ∧ wrapFloating x low high < high := by
  unfold wrapFloating
  split
  · assumption
  · have hr : 0 < high - low := by linarith
    have hfloor := Int.floor_le ((x - low) * (1 / (high - low)))
    have hlt := Int.lt_floor_add_one ((x - low) * (1 / (high - low)))
    generalize ((⌊(x - low) * (1 / (high - low))⌋ : ℤ) : ℚ) = n at hfloor hlt ⊢
    have hx : (x - low) * (1 / (high - low)) = (x - low) / (high - low) := by ring
    rw [hx] at hfloor hlt
    rw [le_div_iff₀ hr] at hfloor
    rw [div_lt_iff₀ hr] at hlt
    constructor
    · linarith
    · linarith

theorem wrapFloating_of_mem {low high x : ℚ} (h : low ≤ x ∧ x < high) :
    wrapFloating x low high = x := by
  simp [wrapFloating, h]

/-- Wrapping is idempotent. -/
theorem wrapFloating_wrapFloating {low high : ℚ} (h : low < high) (x : ℚ) :
    wrapFloating (wrapFloating x low high) low high = wrapFloating x low high :=
  wrapFloating_of_mem (wrapFloating_mem h x)

end Lib
end DtPhm
