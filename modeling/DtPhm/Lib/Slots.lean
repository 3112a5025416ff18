import Mathlib.Data.List.Basic

/-!
# Slots — a fixed number of slots with timestamps

A small store for items that are kept until they are dropped: a slot whose timestamp is zero is
free, and when there is no free slot the oldest item is overwritten.

* `put` — the first free slot, otherwise the oldest one;
* `modifyFirst` — the first item that meets a condition is changed;
* `Slot.Live` — the slots whose item counts.
-/

namespace DtPhm
namespace Lib

/-- A slot; a timestamp of zero signals that it is free. -/
structure Slot (α : Type) where
  timestampUs : UInt64
  value : α
deriving DecidableEq

namespace Slot

variable {α : Type}

/-- The slot holds an item. -/
def Live (s : Slot α) : Prop := s.timestampUs ≠ 0

instance (s : Slot α) : Decidable s.Live := inferInstanceAs (Decidable (_ ≠ _))

end Slot

section Slots

variable {α : Type}

/-- The index of the oldest slot: the first one with the smallest timestamp. -/
def oldest (slots : List (Slot α)) : ℕ :=
  (List.range slots.length).foldl (fun best i =>
    match slots[i]?, slots[best]? with
    | some s, some t => if s.timestampUs < t.timestampUs then i else best
    | _, _ => best) 0

/-- Insert a value, overwriting the oldest one if there is no free slot. -/
def put (slots : List (Slot α)) (now : UInt64) (v : α) : List (Slot α) :=
  match slots.findIdx? fun s => s.timestampUs == 0 with
  | some i => slots.set i ⟨now, v⟩
  | none => slots.set (oldest slots) ⟨now, v⟩

/-- Change the first item that meets the condition, if there is one. -/
def modifyFirst (p : α → Bool) (f : α → α) : List (Slot α) → Option (List (Slot α))
  | [] => none
  | s :: slots =>
    if s.Live ∧ p s.value = true then some ({ s with value := f s.value } :: slots)
    else (modifyFirst p f slots).map (s :: ·)

theorem mem_put {slots : List (Slot α)} {now : UInt64} {v : α} {s : Slot α}
    (h : s ∈ put slots now v) : s ∈ slots ∨ s = ⟨now, v⟩ := by
  unfold put at h
  split at h
  · exact List.mem_or_eq_of_mem_set h
  · exact List.mem_or_eq_of_mem_set h

theorem pairwise_set {l : List (Slot α)} {R : Slot α → Slot α → Prop} (h : l.Pairwise R) (i : ℕ)
    {a : Slot α} (ha : ∀ s ∈ l, R s a ∧ R a s) : (l.set i a).Pairwise R := by
  rw [List.pairwise_iff_getElem] at h ⊢
  intro j k hj hk hjk
  rw [List.length_set] at hj hk
  rw [List.getElem_set, List.getElem_set]
  split
  · rw [if_neg (by omega)]
    exact (ha _ (List.getElem_mem hk)).2
  · split
    · exact (ha _ (List.getElem_mem hj)).1
    · exact h j k hj hk hjk

/-- A relation that the new item has to all others survives `put`. -/
theorem pairwise_put {slots : List (Slot α)} {now : UInt64} {v : α} {R : Slot α → Slot α → Prop}
    (h : slots.Pairwise R) (hnew : ∀ s ∈ slots, R s ⟨now, v⟩ ∧ R ⟨now, v⟩ s) :
    (put slots now v).Pairwise R := by
  unfold put
  split
  · exact pairwise_set h _ hnew
  · exact pairwise_set h _ hnew

/-- The first item that meets the condition, with what stands before and behind it. -/
theorem modifyFirst_eq_some {p : α → Bool} {f : α → α} {slots slots' : List (Slot α)}
    (h : modifyFirst p f slots = some slots') :
    ∃ pre s post, slots = pre ++ s :: post ∧ slots' = pre ++ { s with value := f s.value } :: post ∧
      s.Live ∧ p s.value = true ∧ ∀ t ∈ pre, ¬ (t.Live ∧ p t.value = true) := by
  induction slots generalizing slots' with
  | nil => exact absurd h (by simp [modifyFirst])
  | cons s slots ih =>
    rw [modifyFirst] at h
    split at h
    · rename_i hs
      exact ⟨[], s, slots, rfl, (Option.some.inj h).symm, hs.1, hs.2, by simp⟩
    · rename_i hs
      obtain ⟨rest, hrest, rfl⟩ := Option.map_eq_some_iff.1 h
      obtain ⟨pre, t, post, rfl, rfl, hlive, hp, hpre⟩ := ih hrest
      refine ⟨s :: pre, t, post, rfl, rfl, hlive, hp, ?_⟩
      intro u hu
      rcases List.mem_cons.1 hu with rfl | hu
      · exact hs
      · exact hpre u hu

theorem modifyFirst_eq_none {p : α → Bool} {f : α → α} {slots : List (Slot α)} :
    modifyFirst p f slots = none ↔ ∀ s ∈ slots, ¬ (s.Live ∧ p s.value = true) := by
  induction slots with
  | nil => simp [modifyFirst]
  | cons s slots ih =>
    rw [modifyFirst]
    split
    · rename_i hs
      constructor
      · intro h
        cases h
      · intro h
        exact absurd hs (h s (by simp))
    · rename_i hs
      rw [Option.map_eq_none_iff, ih]
      constructor
      · intro h t ht
        rcases List.mem_cons.1 ht with rfl | ht
        · exact hs
        · exact h t ht
      · intro h t ht
        exact h t (List.mem_cons_of_mem _ ht)

end Slots

end Lib
end DtPhm
