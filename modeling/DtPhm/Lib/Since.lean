import DtPhm.Lib.Run

/-!
# Since — what has held in a run since something happened

* `steps step s es` — the events of a run, each with the state before it;
* `Since keep start l` — some entry of `l` is a `start`, and all later ones `keep` it up;
* `since_append_singleton` — how it changes with one more entry.
-/

namespace DtPhm
namespace Lib

universe u v

variable {σ : Type u} {ε : Type v}

/-! ## The steps of a run -/

/-- The events of a run, each with the state before it. -/
def steps (step : σ → ε → σ) : σ → List ε → List (σ × ε)
  | _, [] => []
  | s, e :: es => (s, e) :: steps step (step s e) es

theorem steps_append_singleton (step : σ → ε → σ) (s : σ) (es : List ε) (e : ε) :
    steps step s (es ++ [e]) = steps step s es ++ [(exec step s es, e)] := by
  induction es generalizing s with
  | nil => rfl
  | cons e' es ih => exact congrArg (List.cons _) (ih (step s e'))

theorem map_snd_steps (step : σ → ε → σ) (s : σ) (es : List ε) :
    (steps step s es).map Prod.snd = es := by
  induction es generalizing s with
  | nil => rfl
  | cons e es ih => exact congrArg (List.cons e) (ih (step s e))

/-! ## Since -/

variable {α : Type u} {keep start : α → Prop} {l : List α}

/-- Some entry is a `start`, and all later ones `keep` it up. -/
def Since (keep start : α → Prop) (l : List α) : Prop :=
  ∃ pre e post, l = pre ++ e :: post ∧ start e ∧ ∀ e' ∈ post, keep e'

theorem not_since_nil : ¬Since keep start [] := by
  rintro ⟨pre, e, post, hl, -, -⟩
  exact absurd hl.symm (List.append_ne_nil_of_right_ne_nil pre (List.cons_ne_nil e post))

/-- One more entry starts it, or keeps it up. -/
theorem since_append_singleton {e : α} :
    Since keep start (l ++ [e]) ↔ start e ∨ Since keep start l ∧ keep e := by
  constructor
  · rintro ⟨pre, e', post, hl, hstart, hkeep⟩
    rcases List.eq_nil_or_concat post with rfl | ⟨post, last, rfl⟩
    · obtain ⟨-, hlast⟩ := List.append_inj' hl rfl
      obtain rfl : e = e' := List.singleton_inj.1 hlast
      exact Or.inl hstart
    · rw [List.concat_eq_append] at hl hkeep
      rw [← List.cons_append, ← List.append_assoc] at hl
      obtain ⟨rfl, hlast⟩ := List.append_inj' hl rfl
      obtain rfl : e = last := List.singleton_inj.1 hlast
      refine Or.inr ⟨⟨pre, e', post, rfl, hstart, fun d hd => ?_⟩, ?_⟩
      · exact hkeep d (List.mem_append_left _ hd)
      · exact hkeep e (List.mem_append_right _ (List.mem_singleton_self e))
  · rintro (hstart | ⟨⟨pre, e', post, rfl, hstart, hkeep⟩, hlast⟩)
    · exact ⟨l, e, [], rfl, hstart, fun _ hmem => absurd hmem List.not_mem_nil⟩
    · refine ⟨pre, e', post ++ [e], List.append_assoc pre (e' :: post) [e], hstart, fun d hd => ?_⟩
      rcases List.mem_append.1 hd with hd | hd
      · exact hkeep d hd
      · obtain rfl := List.mem_singleton.1 hd
        exact hlast

/-- Some entry is a `start`. -/
theorem Since.exists_start (h : Since keep start l) : ∃ e ∈ l, start e := by
  obtain ⟨pre, e, post, rfl, hstart, -⟩ := h
  exact ⟨e, List.mem_append_right pre List.mem_cons_self, hstart⟩

end Lib
end DtPhm
