import Mathlib.Order.Basic

/-!
# Passes — through entries by their index, with rounds that may give up

Entries are read one after the other.  A read may fail, and the round on an entry may end the pass;
both end it with an error.

* `pass` — the entries from an index on;
* `pass_keeps` — an invariant of the rounds holds where a pass comes to its end;
* `pass_succeeds` — a pass comes to its end, if no round that starts from the invariant gives up.
-/

namespace DtPhm
namespace Lib

variable {ε α σ : Type*}

/-- A pass through `n` entries from index `i` on. -/
def pass (entry : ℕ → Except ε α) (round : ℕ → α → σ → Except ε σ) : ℕ → ℕ → σ → Except ε σ
  | 0, _, s => .ok s
  | n + 1, i, s =>
      match entry i with
      | .error e => .error e
      | .ok a =>
          match round i a s with
          | .error e => .error e
          | .ok s' => pass entry round n (i + 1) s'

variable {entry : ℕ → Except ε α} {round : ℕ → α → σ → Except ε σ} {n i : ℕ} {s s' : σ}

theorem pass_succ {a : α} (he : entry i = .ok a) (hr : round i a s = .ok s') :
    pass entry round (n + 1) i s = pass entry round n (i + 1) s' := by
  simp only [pass, he, hr]

/-- The first round of a pass that comes to its end. -/
theorem pass_succ_eq_ok (h : pass entry round (n + 1) i s = .ok s') :
    ∃ a t, entry i = .ok a ∧ round i a s = .ok t ∧ pass entry round n (i + 1) t = .ok s' := by
  cases he : entry i with
  | error e =>
      simp only [pass, he] at h
      cases h
  | ok a =>
      cases hr : round i a s with
      | error e =>
          simp only [pass, he, hr] at h
          cases h
      | ok t => exact ⟨a, t, rfl, hr, pass_succ he hr ▸ h⟩

/-- By induction on the entries to go: what every round keeps, from each index to the next. -/
theorem pass_keeps (Inv : ℕ → σ → Prop)
    (hround : ∀ k a t t', i ≤ k → k < i + n → entry k = .ok a → Inv k t → round k a t = .ok t' →
      Inv (k + 1) t')
    (hs : Inv i s) (h : pass entry round n i s = .ok s') : Inv (i + n) s' := by
  induction n generalizing i s with
  | zero =>
      cases h
      exact hs
  | succ n ih =>
      obtain ⟨a, t, he, hr, htail⟩ := pass_succ_eq_ok h
      have ht := hround i a s t (Nat.le_refl i) (by omega) he hs hr
      have := ih (fun k b u u' hik hkn => hround k b u u' (by omega) (by omega)) ht htail
      rwa [Nat.add_right_comm] at this

/-- By induction on the entries to go: a pass whose rounds all go on. -/
theorem pass_succeeds (Inv : ℕ → σ → Prop)
    (hround : ∀ k t, i ≤ k → k < i + n → Inv k t →
      ∃ a t', entry k = .ok a ∧ round k a t = .ok t' ∧ Inv (k + 1) t')
    (hs : Inv i s) : ∃ s', pass entry round n i s = .ok s' ∧ Inv (i + n) s' := by
  induction n generalizing i s with
  | zero => exact ⟨s, rfl, hs⟩
  | succ n ih =>
      obtain ⟨a, t, he, hr, ht⟩ := hround i s (Nat.le_refl i) (by omega) hs
      obtain ⟨s', hpass, hs'⟩ := ih
        (fun k u hik hkn hu => hround k u (by omega) (by omega) hu) ht
      refine ⟨s', ?_, ?_⟩
      · rw [pass_succ he hr, hpass]
      · rwa [Nat.add_right_comm] at hs'

end Lib
end DtPhm
