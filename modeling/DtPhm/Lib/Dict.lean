import Mathlib.Data.List.Basic
import Mathlib.Data.List.Nodup

/-!
# Dict — dictionaries in the order of insertion

A dictionary is a list of entries with at most one entry for a key, in the order in which the keys
came. Setting a key that is there replaces its value in place, and a list of settings is an
`update`: for each key the last one wins.
-/

namespace DtPhm
namespace Lib

universe u v

variable {κ : Type u} {V : Type v} [DecidableEq κ]

/-- The value of the last entry with the key `k`. -/
def lastLookup (es : List (κ × V)) (k : κ) : Option V := es.reverse.lookup k

namespace Dict

/-- `d[k] = v` -/
def set (d : List (κ × V)) (k : κ) (v : V) : List (κ × V) :=
  match d with
  | [] => [(k, v)]
  | e :: d => if e.1 = k then (k, v) :: d else e :: set d k v

/-- `d.update(es)`, the entries one after another. -/
def update (d es : List (κ × V)) : List (κ × V) :=
  es.foldl (fun d e => set d e.1 e.2) d

theorem lookup_cons_eq_ite (e : κ × V) (d : List (κ × V)) (k : κ) :
    (e :: d).lookup k = if k = e.1 then some e.2 else d.lookup k := by
  rcases e with ⟨k', v⟩
  rw [List.lookup_cons]
  by_cases h : k = k'
  · simp [h]
  · have hne : (k == k') = false := by simp [h]
    simp [h, hne]

theorem lookup_set (d : List (κ × V)) (k k' : κ) (v : V) :
    (set d k v).lookup k' = if k' = k then some v else d.lookup k' := by
  induction d with
  | nil =>
      simp [set, lookup_cons_eq_ite]
  | cons e d ih =>
      unfold set
      by_cases he : e.1 = k
      · rw [if_pos he, lookup_cons_eq_ite, lookup_cons_eq_ite, he]
        by_cases h : k' = k <;> simp [h]
      · rw [if_neg he, lookup_cons_eq_ite, lookup_cons_eq_ite, ih]
        by_cases h : k' = e.1
        · have hk : ¬k' = k := fun heq => he (h.symm.trans heq)
          simp [h, he]
        · simp [h]

/-- After an update, the last setting of a key counts, and before the first one what was there. -/
theorem lookup_update (d es : List (κ × V)) (k : κ) :
    (update d es).lookup k = (lastLookup es k).or (d.lookup k) := by
  induction es generalizing d with
  | nil =>
      simp [update, lastLookup]
  | cons e es ih =>
      have hstep : update d (e :: es) = update (set d e.1 e.2) es := rfl
      rw [hstep, ih, lookup_set, lastLookup, lastLookup, List.reverse_cons, List.lookup_append,
        Option.or_assoc]
      congr 1
      rw [lookup_cons_eq_ite]
      by_cases h : k = e.1 <;> simp [h]

theorem keys_set (d : List (κ × V)) (k : κ) (v : V) :
    (set d k v).map Prod.fst = if k ∈ d.map Prod.fst then d.map Prod.fst else d.map Prod.fst ++
      [k] := by
  induction d with
  | nil =>
      simp [set]
  | cons e d ih =>
      unfold set
      by_cases he : e.1 = k
      · simp [he]
      · by_cases hk : k ∈ d.map Prod.fst
        · rw [if_pos hk] at ih
          simp [he, ih, hk]
        · rw [if_neg hk] at ih
          simp [he, Ne.symm he, ih, hk]

theorem mem_keys_update (d es : List (κ × V)) (k : κ) :
    k ∈ (update d es).map Prod.fst ↔ k ∈ d.map Prod.fst ∨ k ∈ es.map Prod.fst := by
  induction es generalizing d with
  | nil =>
      simp [update]
  | cons e es ih =>
      have hstep : update d (e :: es) = update (set d e.1 e.2) es := rfl
      have hset : k ∈ (set d e.1 e.2).map Prod.fst ↔ k ∈ d.map Prod.fst ∨ k = e.1 := by
        rw [keys_set]
        split
        · rename_i hold
          constructor
          · exact Or.inl
          · rintro (hk | rfl)
            · exact hk
            · exact hold
        · simp
      rw [hstep, ih, hset, List.map_cons, List.mem_cons, or_assoc]

/-- A key never comes twice. -/
theorem nodup_update {d : List (κ × V)} (hd : (d.map Prod.fst).Nodup) (es : List (κ × V)) :
    ((update d es).map Prod.fst).Nodup := by
  induction es generalizing d with
  | nil =>
      exact hd
  | cons e es ih =>
      refine ih ?_
      rw [keys_set]
      split
      · exact hd
      · rename_i hnew
        refine List.nodup_append.2 ⟨hd, List.nodup_singleton _, ?_⟩
        intro a ha b hb hab
        rw [List.mem_singleton.1 hb] at hab
        exact hnew (hab ▸ ha)

end Dict

variable {es es' : List (κ × V)} {k : κ} {v : V}

theorem lookup_of_mem (h : (es.map Prod.fst).Nodup) (hmem : (k, v) ∈ es) :
    es.lookup k = some v := by
  induction es with
  | nil =>
      simp at hmem
  | cons e es ih =>
      rw [List.map_cons, List.nodup_cons] at h
      rw [Dict.lookup_cons_eq_ite]
      rcases List.mem_cons.1 hmem with heq | hrest
      · simp [← heq]
      · have hne : k ≠ e.1 := by
          rintro rfl
          exact h.1 (List.mem_map.2 ⟨_, hrest, rfl⟩)
        rw [if_neg hne]
        exact ih h.2 hrest

/-- In a dictionary the last entry of a key is its only one. -/
theorem lastLookup_eq_lookup (h : (es.map Prod.fst).Nodup) (k : κ) :
    lastLookup es k = es.lookup k := by
  induction es with
  | nil =>
      rfl
  | cons e es ih =>
      rw [List.map_cons, List.nodup_cons] at h
      rw [lastLookup, List.reverse_cons, List.lookup_append, Dict.lookup_cons_eq_ite,
        Dict.lookup_cons_eq_ite]
      change (lastLookup es k).or _ = _
      rw [ih h.2]
      by_cases hk : k = e.1
      · have hnone : es.lookup e.1 = none := by
          rw [List.lookup_eq_none_iff]
          intro e' he'
          simp only [bne_iff_ne, ne_eq]
          intro heq
          exact h.1 (heq ▸ List.mem_map_of_mem he')
        simp [hk, hnone]
      · simp [hk]

theorem lastLookup_append : lastLookup (es ++ es') k = (lastLookup es' k).or (lastLookup es k) := by
  simp [lastLookup, List.lookup_append]

theorem mem_of_lastLookup (h : lastLookup es k = some v) : (k, v) ∈ es := by
  rcases List.lookup_eq_some_iff.1 h with ⟨l₁, l₂, heq, _⟩
  rw [← List.mem_reverse, heq]
  simp

theorem lastLookup_isSome (h : (k, v) ∈ es) : ∃ v', lastLookup es k = some v' := by
  rw [← Option.isSome_iff_exists, lastLookup]
  by_contra hnone
  have := List.lookup_eq_none_iff.1 (Option.not_isSome_iff_eq_none.1 hnone) (k, v)
    (List.mem_reverse.2 h)
  simp at this

/-- An entry after which its key does not come again. -/
theorem lastLookup_of_not_mem_later {l₁ l₂ : List (κ × V)} (h : k ∉ l₂.map Prod.fst) :
    lastLookup (l₁ ++ (k, v) :: l₂) k = some v := by
  have hlater : lastLookup l₂ k = none := by
    rw [lastLookup, List.lookup_eq_none_iff]
    intro e he
    have : e.1 ∈ l₂.map Prod.fst := List.mem_map_of_mem (List.mem_reverse.1 he)
    simp only [bne_iff_ne, ne_eq]
    rintro rfl
    exact h this
  have hlast : lastLookup ((k, v) :: l₂) k = some v := by
    rw [← List.singleton_append, lastLookup_append, hlater]
    simp [lastLookup]
  rw [lastLookup_append, hlast, Option.some_or]

end Lib
end DtPhm
