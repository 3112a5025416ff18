import Mathlib.Data.Nat.Notation
import Mathlib.Data.List.Infix

/-!
# Paging — a list that is sent page by page

A page takes items from the front of a list as long as the sum of their costs stays within a budget.

* `page` — the items of a page, with the costs so far;
* `page_eq_nil_iff`, `cost_le_of_mem_page` — an item that does not fit into a page of its own is on
  none.
-/

namespace DtPhm
namespace Lib

variable {α : Type*} (cost : α → ℕ) (budget : ℕ)

/-- The items that fit, where `used` is spent already. -/
def page : (used : ℕ) → List α → List α
  | _, [] => []
  | used, x :: l => if budget < used + cost x then [] else x :: page (used + cost x) l

variable {cost budget}

theorem page_isPrefix (used : ℕ) (l : List α) : page cost budget used l <+: l := by
  induction l generalizing used with
  | nil => exact List.prefix_rfl
  | cons x l ih =>
      rw [page]
      split
      · exact List.nil_prefix
      · exact List.cons_prefix_cons.2 ⟨rfl, ih _⟩

theorem page_eq_nil_iff {l : List α} :
    page cost budget 0 l = [] ↔ ∀ x ∈ l.head?, budget < cost x := by
  cases l with
  | nil => simp [page]
  | cons x l => simp [page]

theorem cost_le_of_mem_page {used : ℕ} {l : List α} {x : α} (h : x ∈ page cost budget used l) :
    cost x ≤ budget := by
  induction l generalizing used with
  | nil => cases h
  | cons y l ih =>
      rw [page] at h
      split at h
      · cases h
      · rename_i hfits
        rcases List.mem_cons.1 h with rfl | hmem
        · omega
        · exact ih hmem

/-- The page that follows the first `m` items leads to the first `m + k`, for the `k` on it. -/
theorem take_append_page (l : List α) (m : ℕ) :
    l.take m ++ page cost budget 0 (l.drop m) =
      l.take (m + (page cost budget 0 (l.drop m)).length) := by
  have hprefix : page cost budget 0 (l.drop m) = _ := List.prefix_iff_eq_take.1 (page_isPrefix 0 _)
  rw [List.take_add, ← hprefix]

end Lib
end DtPhm
