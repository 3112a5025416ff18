import Mathlib.Data.List.Basic
import Mathlib.Data.List.Range

/-!
# Ring — windows of a ring of cells

A ring of `size` cells is a memory whose addresses are taken modulo `size`.  What a reader sees of
it is a `window`: a number of consecutive cells from a start on, around the end if need be.
-/

namespace DtPhm
namespace Lib

universe u

variable {α : Type u}

/-- The `len` cells from `start` on. -/
def window (m : ℕ → α) (size start len : ℕ) : List α :=
  (List.range len).map fun i => m ((start + i) % size)

variable {m m' : ℕ → α} {size start len : ℕ}

@[simp] theorem length_window : (window m size start len).length = len := by
  simp [window]

@[simp] theorem window_zero : window m size start 0 = [] := rfl

theorem window_add (m : ℕ → α) (size start a b : ℕ) :
    window m size start (a + b) = window m size start a ++ window m size (start + a) b := by
  simp [window, List.range_add, Nat.add_assoc]

theorem window_mod (m : ℕ → α) (size start len : ℕ) :
    window m size (start % size) len = window m size start len := by
  simp [window]

theorem window_congr (h : ∀ i < len, m ((start + i) % size) = m' ((start + i) % size)) :
    window m size start len = window m' size start len := by
  apply List.map_congr_left
  intro i hi
  exact h i (List.mem_range.1 hi)

theorem take_window {k : ℕ} (hk : k ≤ len) :
    (window m size start len).take k = window m size start k := by
  have hlen : len = k + (len - k) := by omega
  rw [hlen, window_add]
  exact List.take_left' length_window

theorem drop_window {k : ℕ} (hk : k ≤ len) :
    (window m size start len).drop k = window m size (start + k) (len - k) := by
  have hlen : len = k + (len - k) := by omega
  calc
    (window m size start len).drop k
        = (window m size start k ++ window m size (start + k) (len - k)).drop k := by
          rw [← window_add, ← hlen]
    _ = window m size (start + k) (len - k) := List.drop_left' length_window

/-- Cells that do not reach around the end. -/
theorem window_of_le (h : start + len ≤ size) :
    window m size start len = (List.range len).map fun i => m (start + i) := by
  apply List.map_congr_left
  intro i hi
  have := List.mem_range.1 hi
  rw [Nat.mod_eq_of_lt (by omega)]

/-- The last `count` cells before `head`, extended at `head` by cells that were not among them. -/
theorem window_extend {head count : ℕ} {xs : List α} (hfits : count + xs.length ≤ size)
    (hnew : window m' size head xs.length = xs)
    (hold : ∀ j, xs.length ≤ j → j < size → m' ((head + j) % size) = m ((head + j) % size)) :
    window m' size (head + size - count) (count + xs.length) =
      window m size (head + size - count) count ++ xs := by
  have hfirst : window m' size (head + size - count) count =
      window m size (head + size - count) count := by
    apply window_congr
    intro i hi
    have hi' : head + size - count + i = head + (size - count + i) := by omega
    rw [hi']
    exact hold _ (by omega) (by omega)
  have hsecond : window m' size (head + size - count + count) xs.length = xs := by
    calc
      window m' size (head + size - count + count) xs.length
          = window m' size ((head + size - count + count) % size) xs.length := (window_mod ..).symm
      _ = window m' size (head % size) xs.length := by
            rw [Nat.sub_add_cancel (by omega), Nat.add_mod_right]
      _ = window m' size head xs.length := window_mod ..
      _ = xs := hnew
  rw [window_add, hfirst, hsecond]

end Lib
end DtPhm
