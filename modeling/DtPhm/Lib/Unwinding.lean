import DtPhm.Lib.Run

/-!
# Unwinding — runs that do not depend on their events

Two runs take the same number of steps, with different events.  Where no step depends on its event,
neither in the state that it leaves nor in what it puts out, the runs cannot be told apart.

* `Blind step out s` — at the state `s` all events do the same;
* `outputs_eq_of_blind` — what follows for runs, if it is so in the states of one of them.
-/

namespace DtPhm
namespace Lib

universe u v w

variable {σ : Type u} {ε : Type v} {ω : Type w} {step : σ → ε → σ} {out : σ → ε → List ω}

/-- At the state `s` all events do the same. -/
def Blind (step : σ → ε → σ) (out : σ → ε → List ω) (s : σ) : Prop :=
  ∀ e e', step s e = step s e' ∧ out s e = out s e'

theorem outputs_eq_of_blind {es es' : List ε} {s : σ} (hlength : es.length = es'.length)
    (hblind : AllSteps step (fun t _ => Blind step out t) s es) :
    outputs step out s es = outputs step out s es' := by
  induction es generalizing s es' with
  | nil =>
      obtain rfl := List.length_eq_zero_iff.1 hlength.symm
      rfl
  | cons e es ih =>
      cases es' with
      | nil => cases hlength
      | cons e' es' =>
          obtain ⟨hfirst, hrest⟩ := hblind
          obtain ⟨hstep, hout⟩ := hfirst e e'
          rw [outputs, outputs, hout, ← hstep]
          exact congrArg _ (ih (Nat.succ.inj hlength) hrest)

end Lib
end DtPhm
