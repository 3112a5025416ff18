import Mathlib.Data.List.Basic

/-!
# Proc — procedures that may raise

A procedure takes a state and leaves a state, and it returns or raises.  This file has the control
structures of a language with exceptions:

* `seq`, `forEach` — the first exception ends the sequence or the loop;
* `tryFinally` — the second procedure runs in any case, and its own exception takes precedence;
* `catching` — an exception that meets a condition is dropped.

For each of them there is a rule for when it returns (`…_returns`) and one for the values that it
does not change (`Preserves`).
-/

namespace DtPhm
namespace Lib

universe u v w x

variable {σ : Type u} {E : Type v} {α : Type w} {β : Type x}

/-- The state after the procedure and, if it raises, the exception. -/
def Proc (σ : Type u) (E : Type v) := σ → σ × Option E

namespace Proc

def skip : Proc σ E := fun s => (s, none)

def seq (p q : Proc σ E) : Proc σ E := fun s =>
  match p s with
  | (s', none) => q s'
  | (s', some e) => (s', some e)

def tryFinally (p q : Proc σ E) : Proc σ E := fun s =>
  match q (p s).1 with
  | (s', none) => (s', (p s).2)
  | (s', some e) => (s', some e)

def catching (drop : E → Bool) (p : Proc σ E) : Proc σ E := fun s =>
  ((p s).1, (p s).2.filter fun e => !drop e)

def forEach (f : α → Proc σ E) : List α → Proc σ E
  | [] => skip
  | a :: as => (f a).seq (forEach f as)

/-- The procedure does not raise in this state. -/
def Returns (p : Proc σ E) (s : σ) : Prop := (p s).2 = none

/-- The procedure does not change the value `g`, whether it returns or raises. -/
def Preserves (g : σ → β) (p : Proc σ E) : Prop := ∀ s, g (p s).1 = g s

variable {p q : Proc σ E} {f : α → Proc σ E} {g : σ → β} {s : σ}

/-! ## When a procedure returns -/

@[simp] theorem skip_returns : (skip : Proc σ E).Returns s := rfl

theorem seq_of_returns (h : p.Returns s) : p.seq q s = q (p s).1 := by
  unfold seq
  rw [Returns] at h
  cases hp : p s with
  | mk s' r =>
      rw [hp] at h
      cases h
      rfl

theorem seq_of_raises (h : ¬p.Returns s) : p.seq q s = p s := by
  unfold seq
  rw [Returns] at h
  cases hp : p s with
  | mk s' r =>
      cases r with
      | none => simp [hp] at h
      | some e => rfl

theorem seq_returns : (p.seq q).Returns s ↔ p.Returns s ∧ q.Returns (p s).1 := by
  by_cases h : p.Returns s
  · simp only [Returns, seq_of_returns h]
    exact ⟨fun hq => ⟨h, hq⟩, fun hq => hq.2⟩
  · refine iff_of_false ?_ (fun hpq => h hpq.1)
    rwa [Returns, seq_of_raises h]

/-- A loop whose passes return or raise whatever the state is. -/
theorem forEach_returns {R : α → Prop} (h : ∀ a s, (f a).Returns s ↔ R a) (as : List α) (s : σ) :
    (forEach f as).Returns s ↔ ∀ a ∈ as, R a := by
  induction as generalizing s with
  | nil =>
      simp [forEach]
  | cons a as ih =>
      rw [forEach, seq_returns, h, ih]
      simp

/-- Both parts of `try … finally` are executed. -/
theorem tryFinally_fst (p q : Proc σ E) (s : σ) : (p.tryFinally q s).1 = (q (p s).1).1 := by
  unfold tryFinally
  cases hq : q (p s).1 with
  | mk s' r =>
      cases r <;> rfl

/-! ## What a procedure does not change -/

theorem Preserves.skip : (skip : Proc σ E).Preserves g := fun _ => rfl

theorem Preserves.seq (hp : p.Preserves g) (hq : q.Preserves g) : (p.seq q).Preserves g := by
  intro s
  by_cases h : p.Returns s
  · rw [seq_of_returns h, hq, hp]
  · rw [seq_of_raises h, hp]

/-- What the second procedure does not change is as the first one left it. -/
theorem Preserves.seq_right (hq : q.Preserves g) (p : Proc σ E) (s : σ) :
    g (p.seq q s).1 = g (p s).1 := by
  by_cases h : p.Returns s
  · rw [seq_of_returns h, hq]
  · rw [seq_of_raises h]

theorem Preserves.catching (drop : E → Bool) (hp : p.Preserves g) : (p.catching drop).Preserves g :=
  hp

theorem Preserves.forEach (hf : ∀ a, (f a).Preserves g) (as : List α) :
    (forEach f as).Preserves g := by
  induction as with
  | nil =>
      exact Preserves.skip
  | cons a as ih =>
      exact (hf a).seq ih

end Proc

end Lib
end DtPhm
