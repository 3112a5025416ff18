import Mathlib.Data.List.Basic

/-!
# Choice — one pass over candidates that keeps the best so far

A rule says which candidate takes the place of the current one, or of none.  The rule need not be
transitive, and what is chosen may depend on the order of the candidates.

* `choose` — the choice at the end of a pass;
* `Improves` — the rule follows a relation "is better than": a better candidate takes the place, and
  what is better than a candidate that takes the place was better than the one before;
* `Improves.choose_spec` — then there is no better candidate than the choice.
-/

namespace DtPhm
namespace Lib

variable {α : Type*}

/-- The choice after the candidates `l`, which starts with `c`. -/
def choose (rule : Option α → α → Prop) [∀ c x, Decidable (rule c x)] :
    Option α → List α → Option α :=
  List.foldl fun c x => if rule c x then some x else c

section Choose

variable {rule : Option α → α → Prop} [∀ c x, Decidable (rule c x)]

@[simp] theorem choose_nil (c : Option α) : choose rule c [] = c := rfl

@[simp] theorem choose_cons (c : Option α) (x : α) (l : List α) :
    choose rule c (x :: l) = choose rule (if rule c x then some x else c) l := rfl

end Choose

/-- The rule takes candidates that meet `P` only, and follows the relation `better`. -/
structure Improves (rule : Option α → α → Prop) (P : α → Prop) (better : α → α → Prop) : Prop where
  irrefl : ∀ x, ¬better x x
  upward : ∀ x y, better y x → P x → P y
  first : ∀ x, rule none x ↔ P x
  takes : ∀ m x, P m → better x m → rule (some m) x
  keeps : ∀ m x, P m → rule (some m) x → P x ∧ ∀ y, better y x → better y m

/-- What has been chosen of the candidates `l`: one that meets `P`, and that none is better than. -/
def Chosen (P : α → Prop) (better : α → α → Prop) (l : List α) : Option α → Prop
  | none => ∀ x ∈ l, ¬P x
  | some m => m ∈ l ∧ P m ∧ ∀ y ∈ l, ¬better y m

namespace Improves

variable {rule : Option α → α → Prop} [∀ c x, Decidable (rule c x)] {P : α → Prop}
  {better : α → α → Prop}

/-- The first candidate that can be taken. -/
theorem step_none (h : Improves rule P better) {seen : List α} (hseen : ∀ y ∈ seen, ¬P y) (x : α) :
    Chosen P better (seen ++ [x]) (if rule none x then some x else none) := by
  by_cases hx : P x
  · rw [if_pos ((h.first x).2 hx)]
    refine ⟨by simp, hx, fun y hy hbetter => ?_⟩
    rcases List.mem_append.1 hy with hy | hy
    · exact hseen y hy (h.upward x y hbetter hx)
    · obtain rfl := List.mem_singleton.1 hy
      exact h.irrefl y hbetter
  · rw [if_neg ((h.first x).not.2 hx)]
    intro y hy
    rcases List.mem_append.1 hy with hy | hy
    · exact hseen y hy
    · obtain rfl := List.mem_singleton.1 hy
      exact hx

/-- One more candidate. -/
theorem step (h : Improves rule P better) {c : Option α} {seen : List α}
    (hc : Chosen P better seen c) (x : α) :
    Chosen P better (seen ++ [x]) (if rule c x then some x else c) := by
  cases c with
  | none => exact h.step_none hc x
  | some m =>
      obtain ⟨hmem, hm, hbest⟩ := hc
      by_cases hrule : rule (some m) x
      · obtain ⟨hx, hkeeps⟩ := h.keeps m x hm hrule
        rw [if_pos hrule]
        refine ⟨by simp, hx, fun y hy hbetter => ?_⟩
        rcases List.mem_append.1 hy with hy | hy
        · exact hbest y hy (hkeeps y hbetter)
        · obtain rfl := List.mem_singleton.1 hy
          exact h.irrefl y hbetter
      · rw [if_neg hrule]
        refine ⟨List.mem_append_left _ hmem, hm, fun y hy hbetter => ?_⟩
        rcases List.mem_append.1 hy with hy | hy
        · exact hbest y hy hbetter
        · obtain rfl := List.mem_singleton.1 hy
          exact hrule (h.takes m y hm hbetter)

/-- The pass goes on with the candidates `l`. -/
theorem choose_from (h : Improves rule P better) (l : List α) {c : Option α} {seen : List α}
    (hc : Chosen P better seen c) : Chosen P better (seen ++ l) (choose rule c l) := by
  induction l generalizing c seen with
  | nil => simpa using hc
  | cons x l ih =>
      have hrest := ih (h.step hc x)
      rwa [List.append_assoc, List.singleton_append] at hrest

/-- At the end of a pass there is no better candidate than the choice. -/
theorem choose_spec (h : Improves rule P better) (l : List α) :
    Chosen P better l (choose rule none l) := by
  have hempty : Chosen P better [] (none : Option α) := fun x hx => absurd hx List.not_mem_nil
  exact h.choose_from l hempty

end Improves

end Lib
end DtPhm
