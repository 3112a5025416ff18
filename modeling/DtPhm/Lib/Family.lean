import Mathlib.Logic.Function.Basic
import Mathlib.Data.List.Basic

/-!
# Family — calls on the members of a family of objects

A family is a function `κ → σ` that gives each key the state of its object.  A call `(k, c)` changes
the object of `k` alone, by `f k c`.  `callEach f cs s` makes the calls `cs` one after another.
What one object becomes is decided by the calls on its own key (`callEach_apply`), so that threads
which work on different objects may be run in any order.

A *latch* is an object that keeps the last value it was given (`callEach_latch_iff`); an array is a
family whose elements are written (`callEach_write_of_mem`).
-/

namespace DtPhm
namespace Lib

universe u v w

variable {κ : Type u} {χ : Type v} {σ : Type w} [DecidableEq κ]

/-- The calls `cs` on the members of the family `s`, one after another. -/
def callEach (f : κ → χ → σ → σ) (cs : List (κ × χ)) (s : κ → σ) : κ → σ :=
  cs.foldl (fun s c => Function.update s c.1 (f c.1 c.2 (s c.1))) s

/-- The calls made on the object of `k`, in order. -/
def callsOn (k : κ) (cs : List (κ × χ)) : List χ :=
  cs.filterMap fun c => if c.1 = k then some c.2 else none

theorem callsOn_cons (k : κ) (c : κ × χ) (cs : List (κ × χ)) :
    callsOn k (c :: cs) = if c.1 = k then c.2 :: callsOn k cs else callsOn k cs := by
  by_cases h : c.1 = k
  · simp [callsOn, h]
  · simp [callsOn, h]

@[simp] theorem mem_callsOn {k : κ} {x : χ} {cs : List (κ × χ)} :
    x ∈ callsOn k cs ↔ (k, x) ∈ cs := by
  simp only [callsOn, List.mem_filterMap]
  constructor
  · rintro ⟨⟨j, y⟩, hmem, heq⟩
    by_cases h : j = k
    · subst h
      have : y = x := by simpa using heq
      exact this ▸ hmem
    · simp [h] at heq
  · intro h
    exact ⟨(k, x), h, by simp⟩

/-- What becomes of one object is decided by the calls on it. -/
theorem callEach_apply (f : κ → χ → σ → σ) (cs : List (κ × χ)) (s : κ → σ) (k : κ) :
    callEach f cs s k = (callsOn k cs).foldl (fun x c => f k c x) (s k) := by
  induction cs generalizing s with
  | nil =>
      rfl
  | cons c cs ih =>
      have hstep : callEach f (c :: cs) s =
          callEach f cs (Function.update s c.1 (f c.1 c.2 (s c.1))) := rfl
      rw [hstep, ih, callsOn_cons]
      by_cases h : c.1 = k
      · subst h
        simp
      · simp [h, Function.update_of_ne (Ne.symm h)]

/-- A latch holds the last value it was given, and before the first one what it held. -/
theorem callEach_latch_iff (cs : List (κ × χ)) (s : κ → Option χ) (k : κ) (x : χ) :
    callEach (fun _ c _ => some c) cs s k = some x ↔
      (∃ before after, cs = before ++ (k, x) :: after ∧ ∀ c ∈ after, c.1 ≠ k) ∨
        ((∀ c ∈ cs, c.1 ≠ k) ∧ s k = some x) := by
  induction cs generalizing s with
  | nil =>
      simp [callEach]
  | cons c cs ih =>
      have hstep : callEach (fun _ c _ => some c) (c :: cs) s =
          callEach (fun _ c _ => some c) cs (Function.update s c.1 (some c.2)) := rfl
      rw [hstep, ih]
      constructor
      · rintro (⟨before, after, rfl, hafter⟩ | ⟨hnone, hval⟩)
        · exact Or.inl ⟨c :: before, after, rfl, hafter⟩
        · by_cases h : c.1 = k
          · -- `c` is the last call on `k`
            subst h
            have hx : c.2 = x := by simpa using hval
            exact Or.inl ⟨[], cs, by simp [← hx], hnone⟩
          · rw [Function.update_of_ne (Ne.symm h)] at hval
            refine Or.inr ⟨?_, hval⟩
            simpa using ⟨h, fun a b hab => hnone (a, b) hab⟩
      · rintro (⟨before, after, hsplit, hafter⟩ | ⟨hnone, hval⟩)
        · cases before with
          | nil =>
              rcases List.cons.inj hsplit with ⟨rfl, rfl⟩
              exact Or.inr ⟨hafter, by simp⟩
          | cons d before =>
              rcases List.cons.inj hsplit with ⟨-, rfl⟩
              exact Or.inl ⟨before, after, rfl, hafter⟩
        · have h : c.1 ≠ k := hnone c (List.mem_cons_self ..)
          refine Or.inr ⟨fun d hd => hnone d (List.mem_cons_of_mem _ hd), ?_⟩
          rwa [Function.update_of_ne (Ne.symm h)]

/-! ## Arrays -/

/-- The call that writes an element. -/
def write (_ : κ) (value _ : σ) : σ := value

/-- An element that is not written keeps its value. -/
theorem callEach_write_of_forall_ne {cs : List (κ × σ)} {k : κ} (h : ∀ c ∈ cs, c.1 ≠ k)
    (s : κ → σ) :
    callEach write cs s k = s k := by
  have hnone : callsOn k cs = [] := by
    rw [List.eq_nil_iff_forall_not_mem]
    intro x hx
    exact h _ (mem_callsOn.1 hx) rfl
  rw [callEach_apply, hnone]
  rfl

/-- An element that is written once has the value it was given. -/
theorem callEach_write_of_mem {cs : List (κ × σ)} {c : κ × σ} (hnodup : (cs.map Prod.fst).Nodup)
    (hc : c ∈ cs) (s : κ → σ) : callEach write cs s c.1 = c.2 := by
  obtain ⟨before, after, rfl⟩ := List.append_of_mem hc
  have hafter : ∀ d ∈ after, d.1 ≠ c.1 := by
    rw [List.map_append, List.map_cons] at hnodup
    have hcons := (List.nodup_append.1 hnodup).2.1
    intro d hd heq
    exact (List.nodup_cons.1 hcons).1 (heq ▸ List.mem_map_of_mem hd)
  have hsplit : callEach write (before ++ c :: after) s =
      callEach write after (Function.update (callEach write before s) c.1 c.2) := by
    rw [callEach, List.foldl_append]
    rfl
  rw [hsplit, callEach_write_of_forall_ne hafter, Function.update_self]

/-- What holds of all that is written and of all that was there holds of all that is there. -/
theorem callEach_write_of_forall {P : σ → Prop} {cs : List (κ × σ)} (hcs : ∀ c ∈ cs, P c.2)
    {s : κ → σ}
    {k : κ} (hs : P (s k)) : P (callEach write cs s k) := by
  induction cs generalizing s with
  | nil => exact hs
  | cons c cs ih =>
      have hnext : P (Function.update s c.1 c.2 k) := by
        by_cases hk : k = c.1
        · rw [hk, Function.update_self]
          exact hcs c List.mem_cons_self
        · rw [Function.update_of_ne hk]
          exact hs
      exact ih (fun d hd => hcs d (List.mem_cons_of_mem _ hd)) hnext

end Lib
end DtPhm
