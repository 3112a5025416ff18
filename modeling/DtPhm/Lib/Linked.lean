import Mathlib.Data.List.Basic
import Mathlib.Logic.Function.Basic

/-!
# Linked — singly linked lists in a memory of links

The cells are of any type, and `next` gives the link of each, where `none` is the null pointer.

* `Linked next p l` — from `p` on, the links go through the cells `l`, and end there;
* `Linked.nodup`, `Linked.unique` — such a list is the only one, and has no cell twice;
* `walk`, `walk_of_linked` — the cells that a loop along the links comes to;
* `Linked.append_singleton`, `Linked.unlink` — a cell is put at the end, or taken out.
-/

namespace DtPhm
namespace Lib

universe u

variable {α : Type u}

/-- From `p` on, the links go through the cells `l`, and end there. -/
def Linked (next : α → Option α) : Option α → List α → Prop
  | p, [] => p = none
  | p, x :: xs => p = some x ∧ Linked next (next x) xs

/-- The cells that a loop comes to, if there are less than `fuel`. -/
def walk (next : α → Option α) : (fuel : ℕ) → Option α → Option (List α)
  | 0, _ => none
  | _ + 1, none => some []
  | fuel + 1, some x => (walk next fuel (next x)).map (x :: ·)

namespace Linked

variable {next next' : α → Option α} {p : Option α} {l l' pre post : List α} {x y : α}

theorem head (h : Linked next p l) : p = l.head? := by
  cases l with
  | nil => exact h
  | cons x xs => exact h.1

theorem next_nil : Linked next none l ↔ l = [] := by
  constructor
  · intro h
    cases l with
    | nil => rfl
    | cons x xs => cases h.1
  · rintro rfl
    rfl

/-- The rest of the list, from one of its cells on. -/
theorem suffix (h : Linked next p (pre ++ l)) : ∃ q, Linked next q l := by
  induction pre generalizing p with
  | nil => exact ⟨p, h⟩
  | cons y pre ih => exact ih h.2

theorem next_of_append (h : Linked next p (pre ++ x :: post)) : Linked next (next x) post := by
  obtain ⟨q, hq⟩ := h.suffix
  exact hq.2

theorem unique (h : Linked next p l) (h' : Linked next p l') : l = l' := by
  induction l generalizing p l' with
  | nil =>
      obtain rfl : p = none := h
      exact (next_nil.1 h').symm
  | cons x xs ih =>
      obtain ⟨rfl, hxs⟩ := h
      cases l' with
      | nil => cases h'
      | cons y ys =>
          obtain ⟨hy, hys⟩ := h'
          cases hy
          exact congrArg (List.cons x) (ih hxs hys)

/-- Links that end do not come to a cell again. -/
theorem nodup (h : Linked next p l) : l.Nodup := by
  induction l generalizing p with
  | nil => exact List.nodup_nil
  | cons x xs ih =>
      refine List.nodup_cons.2 ⟨fun hmem => ?_, ih h.2⟩
      -- behind its second place there would be as many cells as behind its first one
      obtain ⟨pre, post, rfl⟩ := List.append_of_mem hmem
      have hsame : pre ++ x :: post = post := h.2.unique h.2.next_of_append
      have hlength := congrArg List.length hsame
      simp only [List.length_append, List.length_cons] at hlength
      omega

theorem walk_of_linked (h : Linked next p l) {fuel : ℕ} (hfuel : l.length < fuel) :
    walk next fuel p = some l := by
  induction l generalizing p fuel with
  | nil =>
      obtain rfl : p = none := h
      obtain ⟨fuel, rfl⟩ := Nat.exists_eq_add_one.2 (Nat.zero_lt_of_lt hfuel)
      rfl
  | cons x xs ih =>
      obtain ⟨rfl, hxs⟩ := h
      obtain ⟨fuel, rfl⟩ := Nat.exists_eq_add_one.2 (Nat.zero_lt_of_lt hfuel)
      rw [walk, ih hxs (Nat.lt_of_succ_lt_succ hfuel), Option.map_some]

/-- Only the links of its cells matter. -/
theorem congr (h : Linked next p l) (heq : ∀ x ∈ l, next' x = next x) : Linked next' p l := by
  induction l generalizing p with
  | nil => exact h
  | cons x xs ih =>
      refine ⟨h.1, ?_⟩
      rw [heq x List.mem_cons_self]
      exact ih h.2 fun y hy => heq y (List.mem_cons_of_mem x hy)

variable [DecidableEq α]

/-- A link of another cell is set. -/
theorem update (h : Linked next p l) (hx : x ∉ l) (q : Option α) :
    Linked (Function.update next x q) p l := by
  apply h.congr
  intro y hy
  apply Function.update_of_ne
  rintro rfl
  exact hx hy

/-- The link of a cell is set to the start of another list; what was behind it is cut off. -/
theorem link (h : Linked next p (pre ++ y :: post)) {q : Option α} (hl : Linked next q l)
    (hy : y ∉ l) :
    Linked (Function.update next y q) p (pre ++ y :: l) := by
  induction pre generalizing p with
  | nil =>
      refine ⟨h.1, ?_⟩
      rw [Function.update_self]
      exact hl.update hy q
  | cons z pre ih =>
      refine ⟨h.1, ?_⟩
      have hne : z ≠ y := by
        rintro rfl
        exact (List.nodup_cons.1 h.nodup).1 (List.mem_append_right pre List.mem_cons_self)
      rw [Function.update_of_ne hne]
      exact ih h.2

/-- A cell is put at the end. -/
theorem append_singleton (h : Linked next p (pre ++ [y])) (hx : x ∉ pre ++ [y])
    (hnext : next x = none) :
    Linked (Function.update next y (some x)) p (pre ++ [y] ++ [x]) := by
  have hlast : Linked next (some x) [x] := ⟨rfl, hnext⟩
  have hne : y ∉ [x] := fun hmem => hx (by rw [List.mem_singleton.1 hmem]; simp)
  rw [List.append_assoc]
  exact h.link hlast hne

/-- A cell is taken out, and its link set to null. -/
theorem unlink (h : Linked next p (pre ++ y :: x :: post)) :
    Linked (Function.update (Function.update next y (next x)) x none) p (pre ++ y :: post) := by
  have hpost : Linked next (next x) post := by
    rw [← List.singleton_append, ← List.append_assoc] at h
    exact h.next_of_append
  have hnodup := h.nodup
  have hy : y ∉ post := by
    intro hmem
    have hcons := (List.nodup_cons.1 (List.nodup_append.1 hnodup).2.1).1
    exact hcons (List.mem_cons_of_mem x hmem)
  refine (h.link hpost hy).update ?_ none
  intro hmem
  have hperm : (pre ++ y :: x :: post).Perm (x :: (pre ++ y :: post)) := by
    rw [← List.singleton_append, ← List.append_assoc]
    refine List.perm_middle.trans ?_
    simp
  exact (List.nodup_cons.1 (hperm.nodup_iff.1 hnodup)).1 hmem

end Linked

end Lib
end DtPhm
