import Mathlib.Data.List.Basic
import Mathlib.Logic.Function.Basic

/-!
# Flags — flags in words of sixteen bits

A word holds flags, and a mask names one or more of them.

* `hasFlag v m` — some flag of the mask `m` is set in `v`;
* `hasFlag_or`, `hasFlag_and_not`, `hasFlag_and` — flags after others are set or cleared.
-/

namespace DtPhm
namespace Lib

/-- Some flag of the mask is set. -/
def hasFlag (v m : UInt16) : Bool := v &&& m != 0

variable {v w m : UInt16}

theorem eq_zero_iff_bits : v = 0 ↔ ∀ i, v.toBitVec.getLsbD i = false := by
  constructor
  · rintro rfl i
    simp
  · intro h
    apply UInt16.eq_of_toBitVec_eq
    apply BitVec.eq_of_getLsbD_eq
    intro i _
    rw [h i]
    simp

theorem hasFlag_iff : hasFlag v m = true ↔
    ∃ i, v.toBitVec.getLsbD i = true ∧ m.toBitVec.getLsbD i = true := by
  simp [hasFlag, eq_zero_iff_bits]

/-- Flags after others are set. -/
theorem hasFlag_or (v w m : UInt16) : hasFlag (v ||| w) m = (hasFlag v m || hasFlag w m) := by
  rw [Bool.eq_iff_iff, Bool.or_eq_true, hasFlag_iff, hasFlag_iff, hasFlag_iff]
  simp [or_and_right, exists_or]

theorem hasFlag_or_right {v : UInt16} (m : UInt16) (h : hasFlag v w = true) :
    hasFlag v (m ||| w) = true := by
  obtain ⟨i, hv, hw⟩ := hasFlag_iff.1 h
  refine hasFlag_iff.2 ⟨i, hv, ?_⟩
  simp [hw]

theorem hasFlag_or_self (v : UInt16) (h : m ≠ 0) : hasFlag (v ||| m) m = true := by
  rw [hasFlag_or, Bool.or_eq_true]
  right
  simpa [hasFlag] using h

/-- Flags after others are cleared. -/
theorem hasFlag_and_not (v : UInt16) (h : w &&& m = 0) :
    hasFlag (v &&& ~~~w) m = hasFlag v m := by
  have hbits : ∀ i, w.toBitVec.getLsbD i = true → m.toBitVec.getLsbD i = false := by
    intro i hw
    have hi := eq_zero_iff_bits.1 h i
    simpa [hw] using hi
  rw [Bool.eq_iff_iff, hasFlag_iff, hasFlag_iff]
  constructor
  · rintro ⟨i, hv, hm⟩
    rw [UInt16.toBitVec_and, BitVec.getLsbD_and, Bool.and_eq_true] at hv
    exact ⟨i, hv.1, hm⟩
  · rintro ⟨i, hv, hm⟩
    refine ⟨i, ?_, hm⟩
    have hw : w.toBitVec.getLsbD i = false := by
      rw [Bool.eq_false_iff]
      intro hset
      exact absurd (hbits i hset) (by simp [hm])
    have hlt : i < 16 := BitVec.lt_of_getLsbD hv
    rw [UInt16.toBitVec_and, UInt16.toBitVec_not, BitVec.getLsbD_and, BitVec.getLsbD_not, hv, hw]
    simp [hlt]

/-- Flags that are cleared, with others or not. -/
theorem hasFlag_and_not_of_and (v : UInt16) (h : m &&& w = m) : hasFlag (v &&& ~~~w) m = false := by
  rw [Bool.eq_false_iff, Ne, hasFlag_iff]
  rintro ⟨i, hv, hm⟩
  have hw : w.toBitVec.getLsbD i = true := by
    rw [← h, UInt16.toBitVec_and, BitVec.getLsbD_and, Bool.and_eq_true] at hm
    exact hm.2
  simp [hw] at hv

theorem hasFlag_and_not_self (v m : UInt16) : hasFlag (v &&& ~~~m) m = false :=
  hasFlag_and_not_of_and v UInt16.and_self

/-- Flags that a mask lets through. -/
theorem hasFlag_and (v : UInt16) (h : m &&& w = m) : hasFlag (v &&& w) m = hasFlag v m := by
  unfold hasFlag
  rw [UInt16.and_assoc, UInt16.and_comm w m, h]

end Lib
end DtPhm
