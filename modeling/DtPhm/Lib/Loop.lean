import Mathlib.Logic.Function.Iterate
import Mathlib.Order.Basic

/-!
# Loop — rounds until there is none left

A loop is given by its round, which has no next state when the loop is over.

* `rounds` — the state after a number of rounds;
* `rounds_invariant` — what every round keeps;
* `exists_finished` — a loop that goes down a measure is over at some time.
-/

namespace DtPhm
namespace Lib

variable {σ : Type*} {round : σ → Option σ}

/-- The state after `n` rounds, or after the last one. -/
def rounds (round : σ → Option σ) (n : ℕ) (s : σ) : σ := (fun s => (round s).getD s)^[n] s

theorem rounds_succ (round : σ → Option σ) (n : ℕ) (s : σ) :
    rounds round (n + 1) s = (round (rounds round n s)).getD (rounds round n s) :=
  Function.iterate_succ_apply' _ _ _

theorem rounds_succ_of_some {s s' : σ} (h : round s = some s') (n : ℕ) :
    rounds round (n + 1) s = rounds round n s' := by
  rw [rounds, Function.iterate_succ_apply, h]
  rfl

/-- An invariant of the rounds that meet `ok`. -/
theorem rounds_invariant {Inv ok : σ → Prop}
    (hround : ∀ s s', Inv s → ok s → round s = some s' → Inv s') {s : σ} (hs : Inv s) {n : ℕ}
    (hok : ∀ k < n, ok (rounds round k s)) : Inv (rounds round n s) := by
  induction n with
  | zero => exact hs
  | succ n ih =>
      have hn : Inv (rounds round n s) := ih fun k hk => hok k (Nat.lt_succ_of_lt hk)
      rw [rounds_succ]
      cases h : round (rounds round n s) with
      | none => exact hn
      | some s' => exact hround _ s' hn (hok n (Nat.lt_succ_self n)) h

/-- A loop is over at some time, if each of its rounds goes down. -/
theorem exists_finished {Inv : σ → Prop} (measure : σ → ℕ)
    (hround : ∀ s s', Inv s → round s = some s' → Inv s' ∧ measure s' < measure s) {s : σ}
    (hs : Inv s) : ∃ n, round (rounds round n s) = none := by
  induction hm : measure s using Nat.strongRecOn generalizing s with
  | _ m ih =>
      cases h : round s with
      | none => exact ⟨0, h⟩
      | some s' =>
          obtain ⟨hs', hlt⟩ := hround s s' hs h
          obtain ⟨n, hn⟩ := ih (measure s') (hm ▸ hlt) hs' rfl
          exact ⟨n + 1, by rw [rounds_succ_of_some h, hn]⟩

end Lib
end DtPhm
