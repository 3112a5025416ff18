import Mathlib.Data.Nat.Log
import DtPhm.Params.SaveLoad

/-!
# Lookup — the search for a parameter by its name

`param_find_internal` halves an interval of the table whose upper bound is exclusive, under the test
`front <= last`.  Here it is taken round by round, with the indices that it inspects.

* `paramFindInternalLoop` — the loop, a simulation of the bisection that the store uses;
* `mem_inspected_lt`, `inspected_length_le` — it stays in the table, for a logarithm of rounds;
* `param_lookup` — it finds the names of the table, and no others.
-/

namespace DtPhm
namespace Params

open Lib Bson

variable {F : Type} (t : Table F) (name : CString)

/-! ## The loop -/

/-- `PARAM_INVALID`. -/
def paramInvalid : UInt16 := 0xffff

/-- `param_name`; out of range it is a null pointer. -/
def paramName (param : ℕ) : Option CString := (t.infos[param]?).map ParamInfo.name

/-- How the loop ends; a null pointer is nothing to compare a name with. -/
inductive LookupEnd
  | found (middle : ℕ)
  | notFound
  | comparesNull
  deriving DecidableEq, Repr

/-- The loop of `param_find_internal`, and the indices that are inspected. -/
def paramFindInternalLoop (front last : ℕ) : LookupEnd × List ℕ :=
  if front ≤ last then
    let middle := front + (last - front) / 2
    match paramName t middle with
    | none => (.comparesNull, [middle])
    | some other =>
        match strcmp name.chars other.chars with
        | .eq => (.found middle, [middle])
        | .lt =>
            -- an end point has been hit, but there has been no match
            if _h : middle = front then (.notFound, [middle])
            else
              let (ending, inspected) := paramFindInternalLoop front middle
              (ending, middle :: inspected)
        | .gt =>
            if _h : middle = front then (.notFound, [middle])
            else
              let (ending, inspected) := paramFindInternalLoop middle last
              (ending, middle :: inspected)
  else (.notFound, [])
termination_by last - front
decreasing_by all_goals omega

/-- `param_set_used`, on the bits of `params_active`. -/
def paramSetUsed (active : ℕ → Bool) (param : ℕ) : ℕ → Bool :=
  if handleInRange t param then Function.update active param true else active

/-- The handle that `param_find_internal` returns, and the bits of `params_active` after it; nothing
where a name is compared with a null pointer. -/
def paramFindInternalCall (active : ℕ → Bool) (notification : Bool) :
    Option (UInt16 × (ℕ → Bool)) :=
  match (paramFindInternalLoop t name 0 t.count).1 with
  | .found middle =>
      some (UInt16.ofNat middle, if notification then paramSetUsed t active middle else active)
  | .notFound => some (paramInvalid, active)
  | .comparesNull => none

/-! ## In the table -/

variable {t name} {front last : ℕ}

theorem middle_lt (h : front < last) : front + (last - front) / 2 < last := by omega

theorem exists_paramName {param : ℕ} (h : param < t.count) :
    ∃ info, t.infos[param]? = some info ∧ paramName t param = some info.name := by
  have hget : t.infos[param]? = some t.infos[param] := List.getElem?_eq_getElem h
  exact ⟨t.infos[param], hget, by rw [paramName, hget, Option.map_some]⟩

theorem chars_of_paramName {param : ℕ} {other : CString} (h : paramName t param = some other) :
    ((t.infos[param]?).elim [] fun info => info.name.chars) = other.chars := by
  rw [paramName, Option.map_eq_some_iff] at h
  obtain ⟨info, hget, rfl⟩ := h
  rw [hget, Option.elim_some]

theorem paramFindInternalLoop_fst (hfront : front < last) (hlast : last ≤ t.count) :
    (paramFindInternalLoop t name front last).1 =
      (bisect (fun middle => strcmp name.chars
        ((t.infos[middle]?).elim [] fun info => info.name.chars)) front last).elim .notFound
          .found := by
  fun_induction paramFindInternalLoop t name front last with
  | case1 front last hle middle hname =>
      obtain ⟨info, -, hsome⟩ := exists_paramName ((middle_lt hfront).trans_le hlast)
      cases hname.symm.trans hsome
  | case2 front last hle middle other hname hret =>
      rw [← chars_of_paramName hname] at hret
      rw [bisect, if_pos hle, hret]
      rfl
  | case3 front last hle middle other hname hret hmiddle =>
      rw [← chars_of_paramName hname] at hret
      have hend : front + (last - front) / 2 = front := hmiddle
      rw [bisect, if_pos hle, hret]
      dsimp only
      rw [dif_pos hend, Option.elim_none]
  | case4 front last hle middle other hname hret hmiddle ending inspected heq ih =>
      rw [← chars_of_paramName hname] at hret
      have hmore : front + (last - front) / 2 ≠ front := hmiddle
      have hlt : middle < last := middle_lt hfront
      have hrest := ih (by omega) (hlt.le.trans hlast)
      rw [heq] at hrest
      rw [bisect, if_pos hle, hret]
      dsimp only
      rw [dif_neg hmore]
      exact hrest
  | case5 front last hle middle other hname hret hmiddle =>
      rw [← chars_of_paramName hname] at hret
      have hend : front + (last - front) / 2 = front := hmiddle
      rw [bisect, if_pos hle, hret]
      dsimp only
      rw [dif_pos hend, Option.elim_none]
  | case6 front last hle middle other hname hret hmiddle ending inspected heq ih =>
      rw [← chars_of_paramName hname] at hret
      have hmore : front + (last - front) / 2 ≠ front := hmiddle
      have hrest := ih (middle_lt hfront) hlast
      rw [heq] at hrest
      rw [bisect, if_pos hle, hret]
      dsimp only
      rw [dif_neg hmore]
      exact hrest
  | case7 front last hnot => exact absurd hfront.le hnot

theorem mem_inspected_lt (hfront : front < last) :
    ∀ i ∈ (paramFindInternalLoop t name front last).2, i < last := by
  fun_induction paramFindInternalLoop t name front last with
  | case1 | case2 | case3 | case5 =>
      intro i hi
      obtain rfl := List.mem_singleton.1 hi
      exact middle_lt hfront
  | case4 front last hle middle other hname hret hmiddle ending inspected heq ih =>
      have hmore : front + (last - front) / 2 ≠ front := hmiddle
      have hlt : middle < last := middle_lt hfront
      have hrest := ih (by omega)
      rw [heq] at hrest
      intro i hi
      rcases List.mem_cons.1 hi with rfl | hi
      · exact hlt
      · exact (hrest i hi).trans hlt
  | case6 front last hle middle other hname hret hmiddle ending inspected heq ih =>
      have hrest := ih (middle_lt hfront)
      rw [heq] at hrest
      intro i hi
      rcases List.mem_cons.1 hi with rfl | hi
      · exact middle_lt hfront
      · exact hrest i hi
  | case7 front last hnot => exact absurd hfront.le hnot

theorem clog_half {m n : ℕ} (hn : 2 ≤ n) (hm : m ≤ n - n / 2) :
    Nat.clog 2 m + 1 ≤ Nat.clog 2 n := by
  rw [Nat.clog_of_two_le (by decide) hn]
  exact Nat.add_le_add_right (Nat.clog_mono_right 2 (by omega)) 1

theorem inspected_length_le (hfront : front < last) :
    (paramFindInternalLoop t name front last).2.length ≤ Nat.clog 2 (last - front) + 1 := by
  fun_induction paramFindInternalLoop t name front last with
  | case1 | case2 | case3 | case5 => exact Nat.le_add_left 1 _
  | case4 front last hle middle other hname hret hmiddle ending inspected heq ih =>
      have hmore : front + (last - front) / 2 ≠ front := hmiddle
      have hdef : middle = front + (last - front) / 2 := rfl
      have hrest := ih (by omega)
      rw [heq] at hrest
      calc
        (middle :: inspected).length ≤ Nat.clog 2 (middle - front) + 1 + 1 :=
              Nat.add_le_add_right hrest 1
        _ ≤ Nat.clog 2 (last - front) + 1 :=
          Nat.add_le_add_right (clog_half (by omega) (by omega)) 1
  | case6 front last hle middle other hname hret hmiddle ending inspected heq ih =>
      have hmore : front + (last - front) / 2 ≠ front := hmiddle
      have hdef : middle = front + (last - front) / 2 := rfl
      have hrest := ih (middle_lt hfront)
      rw [heq] at hrest
      calc
        (middle :: inspected).length ≤ Nat.clog 2 (last - middle) + 1 + 1 :=
              Nat.add_le_add_right hrest 1
        _ ≤ Nat.clog 2 (last - front) + 1 :=
          Nat.add_le_add_right (clog_half (by omega) (by omega)) 1
  | case7 front last hnot => exact absurd hfront.le hnot

/-! ## The whole table -/

theorem paramFindInternalLoop_count (h : 0 < t.count) :
    (paramFindInternalLoop t name 0 t.count).1 =
      (paramFindInternal t name.chars).elim .notFound .found :=
  paramFindInternalLoop_fst h le_rfl

theorem eq_of_chars {s₁ s₂ : CString} (h : s₁.chars = s₂.chars) : s₁ = s₂ := by
  cases s₁
  cases s₂
  cases h
  rfl

theorem exists_of_paramFindInternal (h : 0 < t.count) {param : ℕ}
    (hfind : paramFindInternal t name.chars = some param) :
    param < t.count ∧ ∃ info, t.infos[param]? = some info ∧ info.name = name := by
  have hlt := lt_of_bisect_eq_some h hfind
  obtain ⟨info, hinfo, -⟩ := exists_paramName hlt
  have hprobe := probe_of_bisect_eq_some hfind
  rw [hinfo, Option.elim_some] at hprobe
  refine ⟨hlt, info, hinfo, ?_⟩
  unfold strcmp at hprobe
  split at hprobe
  · exact (eq_of_chars ‹_›).symm
  · split at hprobe <;> cases hprobe

/-- In every table with a name, `param_find_internal` comes to an end, inspects indices of the table
only, and returns the index of the name, or `PARAM_INVALID` where the table does not have it. -/
theorem param_lookup (t : Table F) (h : 0 < t.count) (name : CString) (active : ℕ → Bool)
    (notification : Bool) :
    (∀ i ∈ (paramFindInternalLoop t name 0 t.count).2, i < t.count) ∧
      (paramFindInternalLoop t name 0 t.count).2.length ≤ Nat.clog 2 t.count + 1 ∧
      ∃ param active', paramFindInternalCall t name active notification = some (param, active') ∧
        (∀ i info, t.infos[i]? = some info → info.name = name → param.toNat = i) ∧
        ((∀ info ∈ t.infos, info.name ≠ name) → param = paramInvalid) := by
  refine ⟨mem_inspected_lt h, inspected_length_le h, ?_⟩
  have hloop : (paramFindInternalLoop t name 0 t.count).1 = _ := paramFindInternalLoop_count h
  cases hfind : paramFindInternal t name.chars with
  | none =>
      rw [hfind] at hloop
      refine ⟨paramInvalid, active, by rw [paramFindInternalCall, hloop]; rfl, ?_, fun _ => rfl⟩
      rintro i info hinfo rfl
      cases (paramFindInternal_name hinfo).symm.trans hfind
  | some middle =>
      rw [hfind] at hloop
      obtain ⟨hlt, found, hfound, hname⟩ := exists_of_paramFindInternal h hfind
      refine ⟨UInt16.ofNat middle, _, by rw [paramFindInternalCall, hloop]; rfl, ?_, fun hno => ?_⟩
      · rintro i info hinfo rfl
        obtain rfl : middle = i :=
          Option.some.inj (hfind.symm.trans (paramFindInternal_name hinfo))
        exact UInt16.toNat_ofNat_of_lt' (hlt.trans t.count_lt)
      · exact absurd hname (hno found (List.mem_of_getElem? hfound))

/-- A table of two names. -/
def twoParams : Table Unit where
  infos := [⟨⟨[65], by decide⟩, .int32, ⟨0, ()⟩⟩, ⟨⟨[66], by decide⟩, .int32, ⟨0, ()⟩⟩]
  sorted := List.pairwise_pair.2 (by decide)
  count_lt := by decide

theorem param_lookup_twoParams : ∃ active',
    paramFindInternalCall twoParams ⟨[66], by decide⟩ (fun _ => false) true =
      some (1, active') := by
  obtain ⟨-, -, param, active', hcall, hfound, -⟩ :=
    param_lookup twoParams (by decide) ⟨[66], by decide⟩ (fun _ => false) true
  obtain rfl : param = 1 := UInt16.toNat_inj.1 (hfound 1 _ rfl rfl)
  exact ⟨active', hcall⟩

end Params
end DtPhm
