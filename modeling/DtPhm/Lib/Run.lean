import Mathlib.Logic.Function.Basic
import Mathlib.Data.List.Basic

/-!
# Run — finite runs of a deterministic transition function

A reactive component is a function `step : σ → ε → σ`: it takes a state and one event and returns
the next state.  A run is a finite list of events.  This file collects what the developments about
such components share:

* `exec step s es` — the state after the events `es`;
* `visited step s es` — every state of the run, the first and the last one included;
* `AllSteps step ok s es` — every step of the run meets the condition `ok` on the state before it
  and on its event;
* the invariant rules, for an invariant kept by the steps that meet `ok`, and for a property that
  is kept by a step *exactly* when that step meets `ok`;
* `historyStep step record` — the same runs, with a history variable;
* `outputs step out` — what a run puts out, for a component whose steps have outputs.
-/

namespace DtPhm
namespace Lib

universe u v

variable {σ : Type u} {ε : Type v}

/-! ## Runs -/

/-- The state after the events `es`. -/
def exec (step : σ → ε → σ) (s : σ) (es : List ε) : σ :=
  es.foldl step s

/-- All states of a run, from its first to its last. -/
def visited (step : σ → ε → σ) : σ → List ε → List σ
  | s, [] => [s]
  | s, e :: es => s :: visited step (step s e) es

/-- Every step of the run meets `ok`, a condition on the state before the step and on its event. -/
def AllSteps (step : σ → ε → σ) (ok : σ → ε → Prop) : σ → List ε → Prop
  | _, [] => True
  | s, e :: es => ok s e ∧ AllSteps step ok (step s e) es

@[simp] theorem exec_nil (step : σ → ε → σ) (s : σ) : exec step s [] = s := rfl

@[simp] theorem exec_cons (step : σ → ε → σ) (s : σ) (e : ε) (es : List ε) :
    exec step s (e :: es) = exec step (step s e) es := rfl

@[simp] theorem visited_nil (step : σ → ε → σ) (s : σ) : visited step s [] = [s] := rfl

@[simp] theorem visited_cons (step : σ → ε → σ) (s : σ) (e : ε) (es : List ε) :
    visited step s (e :: es) = s :: visited step (step s e) es := rfl

@[simp] theorem allSteps_nil (step : σ → ε → σ) (ok : σ → ε → Prop) (s : σ) :
    AllSteps step ok s [] := trivial

@[simp] theorem allSteps_cons (step : σ → ε → σ) (ok : σ → ε → Prop) (s : σ) (e : ε)
    (es : List ε) :
    AllSteps step ok s (e :: es) ↔ ok s e ∧ AllSteps step ok (step s e) es := Iff.rfl

theorem start_mem_visited (step : σ → ε → σ) (s : σ) (es : List ε) : s ∈ visited step s es := by
  cases es with
  | nil =>
      simp
  | cons e es =>
      simp

theorem exec_mem_visited (step : σ → ε → σ) (s : σ) (es : List ε) :
    exec step s es ∈ visited step s es := by
  induction es generalizing s with
  | nil =>
      simp
  | cons e es ih =>
      exact List.mem_cons_of_mem _ (ih (step s e))

theorem exec_append (step : σ → ε → σ) (s : σ) (es es' : List ε) :
    exec step s (es ++ es') = exec step (exec step s es) es' :=
  List.foldl_append

/-- The states of the first part of a run are states of the run. -/
theorem visited_subset_append (step : σ → ε → σ) (s : σ) (es es' : List ε) :
    visited step s es ⊆ visited step s (es ++ es') := by
  induction es generalizing s with
  | nil =>
      intro t ht
      have hts : t = s := by simpa using ht
      rw [hts]
      exact start_mem_visited step s es'
  | cons e es ih =>
      intro t ht
      rcases List.mem_cons.1 ht with hts | ht
      · exact List.mem_cons.2 (.inl hts)
      · exact List.mem_cons_of_mem _ (ih (step s e) ht)

/-- The states of the second part of a run are states of the run. -/
theorem visited_append_subset (step : σ → ε → σ) (s : σ) (es es' : List ε) :
    visited step (exec step s es) es' ⊆ visited step s (es ++ es') := by
  induction es generalizing s with
  | nil => exact fun _ h => h
  | cons e es ih => exact fun t ht => List.mem_cons_of_mem _ (ih (step s e) ht)

/-- Two conditions on steps that say the same say the same of runs. -/
theorem allSteps_congr {step : σ → ε → σ} {ok ok' : σ → ε → Prop} (h : ∀ s e, ok s e ↔ ok' s e)
    (s : σ) (es : List ε) : AllSteps step ok s es ↔ AllSteps step ok' s es := by
  induction es generalizing s with
  | nil =>
      simp
  | cons e es ih =>
      simp only [allSteps_cons, h, ih]

theorem allSteps_true {step : σ → ε → σ} {s : σ} (es : List ε) :
    AllSteps step (fun _ _ => True) s es := by
  induction es generalizing s with
  | nil => simp
  | cons e es ih => exact ⟨trivial, ih⟩

theorem allSteps_and {step : σ → ε → σ} {ok ok' : σ → ε → Prop} {es : List ε} {s : σ}
    (h : AllSteps step ok s es) (h' : AllSteps step ok' s es) :
    AllSteps step (fun t e => ok t e ∧ ok' t e) s es := by
  induction es generalizing s with
  | nil => trivial
  | cons e es ih => exact ⟨⟨h.1, h'.1⟩, ih h.2 h'.2⟩

theorem allSteps_append {step : σ → ε → σ} {ok : σ → ε → Prop} {es es' : List ε} {s : σ} :
    AllSteps step ok s (es ++ es') ↔
      AllSteps step ok s es ∧ AllSteps step ok (exec step s es) es' := by
  induction es generalizing s with
  | nil => simp
  | cons e es ih => simp only [List.cons_append, allSteps_cons, exec_cons, ih, and_assoc]

/-- A condition on the states of a run and one on its events, as a condition on its steps. -/
theorem allSteps_of_forall {step : σ → ε → σ} {P : σ → Prop} {Q : ε → Prop} {es : List ε} {s : σ}
    (hP : ∀ t ∈ visited step s es, P t) (hQ : ∀ e ∈ es, Q e) :
    AllSteps step (fun t e => P t ∧ Q e) s es := by
  induction es generalizing s with
  | nil =>
      simp
  | cons e es ih =>
      refine ⟨⟨hP s (start_mem_visited step s _), hQ e (by simp)⟩, ih ?_ ?_⟩
      · intro t ht
        exact hP t (List.mem_cons_of_mem _ ht)
      · intro e' he'
        exact hQ e' (List.mem_cons_of_mem _ he')

/-! ## Invariants -/

/-- An invariant kept by every step that meets `ok` holds in every state of a run whose steps all
meet `ok`. -/
theorem invariant_of_allSteps {step : σ → ε → σ} {ok : σ → ε → Prop} {Inv : σ → Prop}
    (hstep : ∀ s e, Inv s → ok s e → Inv (step s e)) :
    ∀ {es : List ε} {s : σ}, Inv s → AllSteps step ok s es → ∀ t ∈ visited step s es, Inv t := by
  intro es
  induction es with
  | nil =>
      intro s hs _ t ht
      have : t = s := by simpa using ht
      exact this ▸ hs
  | cons e es ih =>
      intro s hs hok t ht
      rcases hok with ⟨he, hes⟩
      rcases List.mem_cons.1 ht with rfl | ht
      · exact hs
      · exact ih (hstep s e hs he) hes t ht

/-- An invariant kept by every step holds in every state of a run. -/
theorem invariant_visited {step : σ → ε → σ} {Inv : σ → Prop}
    (hstep : ∀ s e, Inv s → Inv (step s e)) {s : σ} (h : Inv s) (es : List ε) :
    ∀ t ∈ visited step s es, Inv t :=
  invariant_of_allSteps (fun s e hs _ => hstep s e hs) h (allSteps_true es)

theorem invariant_exec {step : σ → ε → σ} {Inv : σ → Prop}
    (hstep : ∀ s e, Inv s → Inv (step s e)) {s : σ} (h : Inv s) (es : List ε) :
    Inv (exec step s es) :=
  invariant_visited hstep h es _ (exec_mem_visited step s es)

/-- What an invariant gives for the steps taken in the states that satisfy it. -/
theorem allSteps_of_invariant {step : σ → ε → σ} {ok Q : σ → ε → Prop} {Inv : σ → Prop}
    (hstep : ∀ s e, Inv s → ok s e → Inv (step s e)) (hQ : ∀ s e, Inv s → ok s e → Q s e) :
    ∀ {es : List ε} {s : σ}, Inv s → AllSteps step ok s es → AllSteps step Q s es := by
  intro es
  induction es with
  | nil =>
      intro s _ _
      trivial
  | cons e es ih =>
      intro s hs hok
      rcases hok with ⟨he, hes⟩
      exact ⟨hQ s e hs he, ih (hstep s e hs he) hes⟩

/-- Where `J` holds, let `Q` say the same of a step as `ok`.  If such steps keep `J`, then `Q` and
`ok` say the same of runs. -/
theorem allSteps_iff_of_invariant {step : σ → ε → σ} {Q ok : σ → ε → Prop} {J : σ → Prop}
    (hiff : ∀ s e, J s → (Q s e ↔ ok s e)) (hstep : ∀ s e, J s → ok s e → J (step s e)) :
    ∀ {es : List ε} {s : σ}, J s → (AllSteps step Q s es ↔ AllSteps step ok s es) := by
  intro es
  induction es with
  | nil =>
      intro s _
      simp
  | cons e es ih =>
      intro s hs
      rw [allSteps_cons, allSteps_cons, hiff s e hs]
      exact and_congr_right fun he => ih (hstep s e hs he)

/-- Where `J` holds, let a step keep `P` exactly when it meets `ok`.  If such steps keep `J` too,
then `P` holds along a run exactly when every step of the run meets `ok`. -/
theorem forall_visited_iff_allSteps_of_invariant {step : σ → ε → σ} {ok : σ → ε → Prop}
    {P J : σ → Prop} (hstep : ∀ s e, J s → P s → (P (step s e) ↔ ok s e))
    (haux : ∀ s e, J s → P s → ok s e → J (step s e)) :
    ∀ {es : List ε} {s : σ}, J s → P s →
      ((∀ t ∈ visited step s es, P t) ↔ AllSteps step ok s es) := by
  intro es
  induction es with
  | nil =>
      intro s _ hs
      simpa using hs
  | cons e es ih =>
      intro s hj hs
      constructor
      · intro hall
        have hnext : P (step s e) :=
          hall _ (List.mem_cons_of_mem _ (start_mem_visited step (step s e) es))
        have hok : ok s e := (hstep s e hj hs).1 hnext
        refine ⟨hok, (ih (haux s e hj hs hok) hnext).1 ?_⟩
        intro t ht
        exact hall t (List.mem_cons_of_mem _ ht)
      · intro hok t ht
        rcases hok with ⟨he, hes⟩
        rcases List.mem_cons.1 ht with rfl | ht
        · exact hs
        · exact (ih (haux s e hj hs he) ((hstep s e hj hs).2 he)).2 hes t ht

/-- A property that a step keeps exactly when the step meets `ok` holds along a run exactly when
every step of the run meets `ok`. -/
theorem forall_visited_iff_allSteps {step : σ → ε → σ} {ok : σ → ε → Prop} {P : σ → Prop}
    (hstep : ∀ s e, P s → (P (step s e) ↔ ok s e)) {es : List ε} {s : σ} (hs : P s) :
    (∀ t ∈ visited step s es, P t) ↔ AllSteps step ok s es :=
  forall_visited_iff_allSteps_of_invariant (J := fun _ => True) (fun s e _ => hstep s e)
    (fun _ _ _ _ _ => trivial) trivial hs

/-! ## History variables -/

universe w

variable {η : Type w}

/-- A step that also records something about the run it is part of. -/
def historyStep (step : σ → ε → σ) (record : σ → ε → η → η) (p : σ × η) (e : ε) : σ × η :=
  (step p.1 e, record p.1 e p.2)

/-- The history does not take part in the run. -/
theorem allSteps_historyStep (step : σ → ε → σ) (record : σ → ε → η → η) (ok : σ → ε → Prop) :
    ∀ (es : List ε) (p : σ × η),
      AllSteps (historyStep step record) (fun q e => ok q.1 e) p es ↔ AllSteps step ok p.1 es := by
  intro es
  induction es with
  | nil =>
      intro p
      simp
  | cons e es ih =>
      intro p
      simp only [allSteps_cons, ih]
      rfl

/-! ## Outputs -/

variable {ω : Type w}

/-- What the steps of a run put out. -/
def outputs (step : σ → ε → σ) (out : σ → ε → List ω) : σ → List ε → List ω
  | _, [] => []
  | s, e :: es => out s e ++ outputs step out (step s e) es

theorem outputs_append (step : σ → ε → σ) (out : σ → ε → List ω) (s : σ) (es es' : List ε) :
    outputs step out s (es ++ es') =
      outputs step out s es ++ outputs step out (exec step s es) es' := by
  induction es generalizing s with
  | nil => rfl
  | cons e es ih => simp only [List.cons_append, outputs, exec_cons, ih, List.append_assoc]

/-- What every step puts out where an invariant holds is put out in every run. -/
theorem forall_mem_outputs_of_invariant {step : σ → ε → σ} {out : σ → ε → List ω} {Inv : σ → Prop}
    {Q : ω → Prop} (hstep : ∀ s e, Inv s → Inv (step s e))
    (hQ : ∀ s e, Inv s → ∀ m ∈ out s e, Q m) :
    ∀ {es : List ε} {s : σ}, Inv s → ∀ m ∈ outputs step out s es, Q m := by
  intro es
  induction es with
  | nil =>
      intro s _ m hm
      cases hm
  | cons e es ih =>
      intro s hs m hm
      rcases List.mem_append.1 hm with hm | hm
      · exact hQ s e hs m hm
      · exact ih (hstep s e hs) m hm

end Lib
end DtPhm
