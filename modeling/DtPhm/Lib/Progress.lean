import DtPhm.Lib.Run

/-!
# Progress — functions that go on from event to event

A function that waits for events is given by what it does with one: it goes on in a new state, it
returns, or it is held up inside of the event and never comes back.

* `Progress`, `Progress.step` — such a function as a transition function;
* `Progress.Meets` — a condition on the events that it takes;
* `Progress.ReturnsAt`, `exists_returnsAt` — the event in which it returns;
* `post_of_allSteps` — what holds when it returns.
-/

namespace DtPhm
namespace Lib

variable {σ ρ ε ω : Type*}

/-- How far a function has come. -/
inductive Progress (σ ρ : Type*)
  | goesOn (s : σ)
  | isHeld
  | returns (r : ρ)

namespace Progress

/-- An event for a function that does `f` with it. -/
def step (f : σ → ε → Progress σ ρ) : Progress σ ρ → ε → Progress σ ρ
  | .goesOn s, e => f s e
  | p, _ => p

/-- If the function takes the event, it meets `ok`. -/
def Meets (ok : σ → ε → Prop) : Progress σ ρ → ε → Prop
  | .goesOn s, e => ok s e
  | _, _ => True

/-- What the function puts out for an event. -/
def out (g : σ → ε → List ω) : Progress σ ρ → ε → List ω
  | .goesOn s, e => g s e
  | _, _ => []

variable {f : σ → ε → Progress σ ρ} {ok : σ → ε → Prop}

@[simp] theorem step_goesOn (f : σ → ε → Progress σ ρ) (s : σ) (e : ε) :
    step f (.goesOn s) e = f s e := rfl

@[simp] theorem exec_isHeld (es : List ε) : exec (step f) .isHeld es = .isHeld := by
  induction es with
  | nil => rfl
  | cons e es ih => exact ih

@[simp] theorem exec_returns (r : ρ) (es : List ε) :
    exec (step f) (.returns r) es = .returns r := by
  induction es with
  | nil => rfl
  | cons e es ih => exact ih

/-- After events that lead to the state `s'`, the function returns `r` in the event `e`. -/
def ReturnsAt (f : σ → ε → Progress σ ρ) (s : σ) (es : List ε) (s' : σ) (e : ε) (r : ρ) : Prop :=
  ∃ es₁ es₂, es = es₁ ++ e :: es₂ ∧ exec (step f) (.goesOn s) es₁ = .goesOn s' ∧ f s' e = .returns r

theorem ReturnsAt.mem {s s' : σ} {es : List ε} {e : ε} {r : ρ} (h : ReturnsAt f s es s' e r) :
    e ∈ es := by
  obtain ⟨es₁, es₂, rfl, -, -⟩ := h
  exact List.mem_append_right es₁ List.mem_cons_self

/-- What returns does so in one of its events, which is taken in a state with the invariant. -/
theorem exists_returnsAt {Inv : σ → Prop}
    (hgo : ∀ s e s', Inv s → ok s e → f s e = .goesOn s' → Inv s') {s : σ} {es : List ε}
    (hs : Inv s) (hok : AllSteps (step f) (Meets ok) (.goesOn s) es) {r : ρ}
    (h : exec (step f) (.goesOn s) es = .returns r) :
    ∃ s' e, ReturnsAt f s es s' e r ∧ Inv s' ∧ ok s' e := by
  induction es generalizing s with
  | nil => cases h
  | cons e es ih =>
      rcases hok with ⟨he, hes⟩
      rw [exec_cons] at h
      change exec (step f) (f s e) es = _ at h
      change AllSteps (step f) (Meets ok) (f s e) es at hes
      cases hf : f s e with
      | goesOn t =>
          rw [hf] at h hes
          obtain ⟨s', e', ⟨es₁, es₂, rfl, hexec, hreturn⟩, hs', he'⟩ :=
              ih (hgo s e t hs he hf) hes h
          refine ⟨s', e', ⟨e :: es₁, es₂, rfl, ?_, hreturn⟩, hs', he'⟩
          rw [exec_cons, step_goesOn, hf, hexec]
      | isHeld =>
          rw [hf, exec_isHeld] at h
          cases h
      | returns r' =>
          rw [hf, exec_returns] at h
          cases h
          exact ⟨s, e, ⟨[], es, rfl, rfl, hf⟩, hs, he⟩

/-- An invariant of the states it goes on in, and what follows when it returns. -/
theorem post_of_allSteps {Inv : σ → Prop} {Post : ρ → Prop}
    (hgo : ∀ s e s', Inv s → ok s e → f s e = .goesOn s' → Inv s')
    (hreturn : ∀ s e r, Inv s → ok s e → f s e = .returns r → Post r) {s : σ} {es : List ε}
    (hs : Inv s) (hok : AllSteps (step f) (Meets ok) (.goesOn s) es) {r : ρ}
    (h : exec (step f) (.goesOn s) es = .returns r) : Post r := by
  obtain ⟨s', e, ⟨_, _, _, _, hf⟩, hs', he⟩ := exists_returnsAt hgo hs hok h
  exact hreturn s' e r hs' he hf

/-- A condition on the events that follows from `ok`. -/
theorem allSteps_meets {Q : σ → ε → Prop} (hQ : ∀ s e, ok s e → Q s e) {p : Progress σ ρ}
    {es : List ε} (hok : AllSteps (step f) (Meets ok) p es) : AllSteps (step f) (Meets Q) p es := by
  have hstep : ∀ (p : Progress σ ρ) (e : ε), True → Meets ok p e → True := fun _ _ _ _ => trivial
  refine allSteps_of_invariant hstep ?_ trivial hok
  intro p e _ he
  cases p with
  | goesOn s => exact hQ s e he
  | isHeld => trivial
  | returns r => trivial

/-- What is put out for events that meet `ok`. -/
theorem forall_mem_outputs {g : σ → ε → List ω} {Q : ω → Prop}
    (hQ : ∀ s e, ok s e → ∀ m ∈ g s e, Q m) {p : Progress σ ρ} {es : List ε}
    (hok : AllSteps (step f) (Meets ok) p es) : ∀ m ∈ outputs (step f) (out g) p es, Q m := by
  induction es generalizing p with
  | nil =>
      intro m hm
      cases hm
  | cons e es ih =>
      rcases hok with ⟨he, hes⟩
      intro m hm
      rcases List.mem_append.1 hm with hm | hm
      · cases p with
        | goesOn s => exact hQ s e he m hm
        | isHeld => cases hm
        | returns r => cases hm
      · exact ih hes m hm

end Progress

end Lib
end DtPhm
