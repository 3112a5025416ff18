import Mathlib.Data.List.Infix

/-!
# Markers — cutting a list at the first occurrence of another

* `splitOnce marker text` — what stands before and behind the first occurrence, as `str.split` with
  a limit of one;
* `Cut` — the same as a relation;
* `splitOnce_eq_some_iff`, `splitOnce_eq_none_iff` — the function finds the cut, if there is one;
* `infix_append_cons` — an occurrence does not go across a symbol the marker does not have.
-/

namespace DtPhm
namespace Lib

universe u

variable {α : Type u} {marker text before behind : List α} {a : α}

/-- The first occurrence of the marker stands between the two parts: none ends earlier. -/
structure Cut (marker text before behind : List α) : Prop where
  eq : text = before ++ marker ++ behind
  first : ¬ marker <:+: before ++ marker.dropLast

theorem not_infix_dropLast (hm : marker ≠ []) : ¬ marker <:+: marker.dropLast := by
  intro h
  have hle := h.length_le
  have hpos := List.length_pos_iff.2 hm
  rw [List.length_dropLast] at hle
  omega

/-- At the beginning of a text there is a cut if the marker stands there. -/
theorem cut_of_start (hm : marker ≠ []) (h : marker <+: text) :
    Cut marker text before behind ↔ before = [] ∧ behind = text.drop marker.length := by
  obtain ⟨rest, rfl⟩ := h
  constructor
  · rintro ⟨heq, hfirst⟩
    cases before with
    | nil => exact ⟨rfl, by simpa using heq.symm⟩
    | cons a before =>
        -- the occurrence at the beginning would be an earlier one
        refine absurd ?_ hfirst
        have hpre : marker <+: (a :: before) ++ marker ++ behind := ⟨rest, heq⟩
        have hpre' : (a :: before) ++ marker.dropLast <+: (a :: before) ++ marker ++ behind := by
          rw [List.append_assoc]
          exact (List.prefix_append_right_inj (a :: before)).2
            ((List.dropLast_prefix marker).trans (List.prefix_append marker behind))
        refine (List.prefix_of_prefix_length_le hpre hpre' ?_).isInfix
        simp only [List.length_append, List.length_cons, List.length_dropLast]
        omega
  · rintro ⟨rfl, rfl⟩
    exact ⟨by simp, by simpa using not_infix_dropLast hm⟩

/-- Elsewhere the cut is that of the rest. -/
theorem cut_cons_of_not_start (h : ¬ marker <+: a :: text) :
    Cut marker (a :: text) before behind ↔
      ∃ before', before = a :: before' ∧ Cut marker text before' behind := by
  constructor
  · rintro ⟨heq, hfirst⟩
    cases before with
    | nil => exact absurd ⟨behind, heq.symm⟩ h
    | cons b before =>
        obtain ⟨rfl, htext⟩ := List.cons.inj heq
        exact ⟨before, rfl, htext, fun hin => hfirst (List.infix_cons hin)⟩
  · rintro ⟨before', rfl, rfl, hfirst⟩
    refine ⟨rfl, fun hin => ?_⟩
    rcases List.infix_cons_iff.1 hin with hpre | hin
    · refine h (hpre.trans ?_)
      change a :: before' ++ marker.dropLast <+: a :: (before' ++ marker ++ behind)
      rw [List.append_assoc, ← List.cons_append]
      exact (List.prefix_append_right_inj (a :: before')).2
        ((List.dropLast_prefix marker).trans (List.prefix_append marker behind))
    · exact hfirst hin

/-- A marker without the symbol `a` stands before it or behind it. -/
theorem infix_append_cons (ha : a ∉ marker) (h : marker <:+: before ++ a :: behind) :
    marker <:+: before ∨ marker <:+: behind := by
  obtain ⟨s, t, heq⟩ := h
  rw [List.append_assoc] at heq
  rcases List.append_eq_append_iff.1 heq with ⟨as, rfl, has⟩ | ⟨bs, rfl, hbs⟩
  · rcases List.append_eq_append_iff.1 has.symm with ⟨cs, rfl, hcs⟩ | ⟨ds, rfl, -⟩
    · cases cs with
      | nil => exact .inl ⟨s, [], by simp⟩
      | cons c cs =>
          obtain ⟨rfl, -⟩ := List.cons.inj hcs
          exact absurd (List.mem_append_right _ List.mem_cons_self) ha
    · exact .inl ⟨s, ds, by simp⟩
  · cases bs with
    | nil =>
        cases marker with
        | nil => exact .inl (List.nil_infix)
        | cons m marker =>
            obtain ⟨rfl, -⟩ := List.cons.inj hbs
            exact absurd List.mem_cons_self ha
    | cons b bs =>
        obtain ⟨rfl, rfl⟩ := List.cons.inj hbs
        exact .inr ⟨bs, t, by simp⟩

theorem infix_of_infix_cons (ha : a ∉ marker) (hne : marker ≠ []) (h : marker <:+: a :: behind) :
    marker <:+: behind := by
  have h : marker <:+: [] ++ a :: behind := h
  exact (infix_append_cons ha h).resolve_left fun hnil => hne (List.infix_nil.1 hnil)

variable [DecidableEq α]

/-- What stands before and behind the first occurrence of the marker. -/
def splitOnce (marker : List α) : List α → Option (List α × List α)
  | [] => none
  | a :: text =>
      if marker.isPrefixOf (a :: text) then some ([], (a :: text).drop marker.length)
      else (splitOnce marker text).map fun parts => (a :: parts.1, parts.2)

theorem splitOnce_eq_some_iff (hm : marker ≠ []) :
    splitOnce marker text = some (before, behind) ↔ Cut marker text before behind := by
  induction text generalizing before with
  | nil =>
      refine ⟨fun h => (nomatch h), fun h => ?_⟩
      have hnil := h.eq.symm
      simp only [List.append_eq_nil_iff] at hnil
      exact absurd hnil.1.2 hm
  | cons a text ih =>
      rw [splitOnce]
      split
      · rename_i hpre
        rw [cut_of_start hm (List.isPrefixOf_iff_prefix.1 hpre), Option.some.injEq, Prod.mk.injEq,
          eq_comm, eq_comm (a := List.drop _ _)]
      · rename_i hpre
        rw [cut_cons_of_not_start (mt List.isPrefixOf_iff_prefix.2 hpre)]
        constructor
        · intro h
          obtain ⟨parts, hparts, heq⟩ := Option.map_eq_some_iff.1 h
          obtain ⟨rfl, rfl⟩ := Prod.mk.inj heq
          exact ⟨parts.1, rfl, ih.1 hparts⟩
        · rintro ⟨before', rfl, hcut⟩
          rw [ih.2 hcut]
          rfl

/-- There is one first occurrence at most. -/
theorem Cut.unique {before' behind' : List α} (hm : marker ≠ []) (h : Cut marker text before behind)
    (h' : Cut marker text before' behind') : before = before' ∧ behind = behind' := by
  have heq := ((splitOnce_eq_some_iff hm).2 h).symm.trans ((splitOnce_eq_some_iff hm).2 h')
  exact Prod.mk.inj (Option.some.inj heq)

theorem splitOnce_eq_none_iff (hm : marker ≠ []) :
    splitOnce marker text = none ↔ ¬ marker <:+: text := by
  induction text with
  | nil =>
      refine iff_of_true rfl fun h => hm ?_
      simpa using h
  | cons a text ih =>
      rw [splitOnce, List.infix_cons_iff, not_or]
      split
      · rename_i hpre
        exact iff_of_false (by simp) fun h => h.1 (List.isPrefixOf_iff_prefix.1 hpre)
      · rename_i hpre
        rw [Option.map_eq_none_iff, ih]
        exact ⟨fun h => ⟨mt List.isPrefixOf_iff_prefix.2 hpre, h⟩, And.right⟩

end Lib
end DtPhm
