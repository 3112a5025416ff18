import Mathlib.Data.List.Sort
import Mathlib.Data.List.Basic

/-!
# Keyed — sorted arrays of entries with a key, and binary search

* `findKey`, `pushSort`, `modifyKey`, `eraseKey` — the operations on an array of entries that is
  kept sorted by a key, no two entries with the same one;
* `bsearch` — the library's binary search over such an array, which finds what `findKey` finds;
* `bisect` — the bisection of an interval of indices, driven by a comparison.
-/

namespace DtPhm
namespace Lib

/-! ## Sorted arrays -/

section Keyed

variable {α : Type} (key : α → ℕ)

/-- Sorted by the key, every key at most once. -/
def KeySorted (l : List α) : Prop := l.Pairwise fun a b => key a < key b

/-- The entry with this key. -/
def findKey (k : ℕ) (l : List α) : Option α := l.find? fun e => key e == k

/-- Append an entry, then sort. -/
def pushSort (e : α) (l : List α) : List α := (l ++ [e]).insertionSort fun a b => key a ≤ key b

/-- Change the entry with this key in place. -/
def modifyKey (k : ℕ) (f : α → α) (l : List α) : List α :=
  l.map fun e => if key e = k then f e else e

/-- Remove the entry with this key. -/
def eraseKey (k : ℕ) (l : List α) : List α := l.eraseP fun e => key e == k

variable {key}

theorem KeySorted.key_inj {l : List α} (h : KeySorted key l) {a b : α} (ha : a ∈ l) (hb : b ∈ l)
    (hkey : key a = key b) : a = b := by
  induction l with
  | nil => simp at ha
  | cons c l ih =>
      rcases List.pairwise_cons.1 h with ⟨hc, hl⟩
      rcases List.mem_cons.1 ha with rfl | ha' <;> rcases List.mem_cons.1 hb with rfl | hb'
      · rfl
      · have := hc b hb'
        omega
      · have := hc a ha'
        omega
      · exact ih hl ha' hb'

theorem KeySorted.findKey_eq_some {l : List α} (h : KeySorted key l) {k : ℕ} {e : α} :
    findKey key k l = some e ↔ e ∈ l ∧ key e = k := by
  constructor
  · intro hfind
    refine ⟨List.mem_of_find?_eq_some hfind, ?_⟩
    simpa using List.find?_some hfind
  · rintro ⟨hmem, hkey⟩
    cases hfind : findKey key k l with
    | none =>
        have := List.find?_eq_none.1 hfind e hmem
        simp [hkey] at this
    | some e' =>
        have hmem' := List.mem_of_find?_eq_some hfind
        have hkey' : key e' = k := by simpa using List.find?_some hfind
        rw [h.key_inj hmem' hmem (hkey'.trans hkey.symm)]

theorem findKey_eq_none {l : List α} {k : ℕ} : findKey key k l = none ↔ ∀ e ∈ l, key e ≠ k := by
  simp [findKey]

theorem mem_pushSort {l : List α} {e e' : α} : e' ∈ pushSort key e l ↔ e' ∈ l ∨ e' = e := by
  simp [pushSort, (List.perm_insertionSort _ _).mem_iff]

theorem keySorted_pushSort {l : List α} (h : KeySorted key l) {e : α}
    (hnew : ∀ e' ∈ l, key e' ≠ key e) : KeySorted key (pushSort key e l) := by
  have hnodup : (l ++ [e]).Pairwise fun a b => key a ≠ key b := by
    refine List.pairwise_append.2 ⟨h.imp fun hlt => by omega, by simp, ?_⟩
    simpa using hnew
  have hperm : (pushSort key e l).Pairwise fun a b => key a ≠ key b :=
    ((List.perm_insertionSort _ _).pairwise_iff (fun hne => hne.symm)).2 hnodup
  have hle : (pushSort key e l).Pairwise fun a b => key a ≤ key b :=
    List.pairwise_insertionSort (fun a b => key a ≤ key b) (l ++ [e])
  exact (hle.and hperm).imp fun ⟨hle, hne⟩ => by omega

theorem findKey_pushSort {l : List α} (h : KeySorted key l) {e : α}
    (hnew : ∀ e' ∈ l, key e' ≠ key e) (k : ℕ) :
    findKey key k (pushSort key e l) = if k = key e then some e else findKey key k l := by
  have hsorted := keySorted_pushSort h hnew
  split
  · rename_i hk
    exact hsorted.findKey_eq_some.2 ⟨mem_pushSort.2 (Or.inr rfl), hk.symm⟩
  · rename_i hk
    apply Option.ext
    intro e'
    rw [hsorted.findKey_eq_some, h.findKey_eq_some, mem_pushSort]
    constructor
    · rintro ⟨hmem | rfl, hkey⟩
      · exact ⟨hmem, hkey⟩
      · exact (hk hkey.symm).elim
    · rintro ⟨hmem, hkey⟩
      exact ⟨Or.inl hmem, hkey⟩

theorem keySorted_modifyKey {l : List α} (h : KeySorted key l) (k : ℕ) {f : α → α}
    (hf : ∀ e, key (f e) = key e) : KeySorted key (modifyKey key k f l) := by
  refine List.pairwise_map.2 (h.imp ?_)
  intro a b hlt
  split <;> split <;> simpa [hf] using hlt

theorem findKey_modifyKey {l : List α} {k : ℕ} {f : α → α} (hf : ∀ e, key (f e) = key e) (q : ℕ) :
    findKey key q (modifyKey key k f l) =
      if q = k then (findKey key q l).map f else findKey key q l := by
  induction l with
  | nil => simp [findKey, modifyKey]
  | cons a l ih =>
      simp only [findKey, modifyKey, List.map_cons, List.find?_cons] at ih ⊢
      by_cases hak : key a = k <;> by_cases haq : key a = q <;> grind

theorem keySorted_eraseKey {l : List α} (h : KeySorted key l) (k : ℕ) :
    KeySorted key (eraseKey key k l) :=
  h.sublist List.eraseP_sublist

theorem mem_eraseKey {l : List α} (h : KeySorted key l) {k : ℕ} {e : α} :
    e ∈ eraseKey key k l ↔ e ∈ l ∧ key e ≠ k := by
  induction l with
  | nil => simp [eraseKey]
  | cons a l ih =>
      rcases List.pairwise_cons.1 h with ⟨ha, hl⟩
      have ih := ih hl
      simp only [eraseKey] at ih ⊢
      by_cases hak : key a = k
      · have hrest : ∀ e ∈ l, key e ≠ k := by
          intro e he
          have := ha e he
          omega
        have herase : (a :: l).eraseP (fun e => key e == k) = l := by simp [hak]
        rw [herase]
        constructor
        · intro he
          exact ⟨List.mem_cons_of_mem _ he, hrest e he⟩
        · rintro ⟨he, hne⟩
          rcases List.mem_cons.1 he with rfl | he
          · exact (hne hak).elim
          · exact he
      · have herase : (a :: l).eraseP (fun e => key e == k) =
            a :: l.eraseP (fun e => key e == k) := by simp [hak]
        rw [herase, List.mem_cons, ih, List.mem_cons]
        constructor
        · rintro (rfl | ⟨he, hne⟩)
          · exact ⟨Or.inl rfl, hak⟩
          · exact ⟨Or.inr he, hne⟩
        · rintro ⟨rfl | he, hne⟩
          · exact Or.inl rfl
          · exact Or.inr ⟨he, hne⟩

theorem findKey_eraseKey {l : List α} (h : KeySorted key l) (k q : ℕ) :
    findKey key q (eraseKey key k l) = if q = k then none else findKey key q l := by
  split
  · rename_i hq
    refine findKey_eq_none.2 ?_
    intro e he
    rw [hq]
    exact ((mem_eraseKey h).1 he).2
  · rename_i hq
    apply Option.ext
    intro e
    rw [(keySorted_eraseKey h k).findKey_eq_some, h.findKey_eq_some, mem_eraseKey h]
    constructor
    · rintro ⟨⟨hmem, _⟩, hkey⟩
      exact ⟨hmem, hkey⟩
    · rintro ⟨hmem, hkey⟩
      exact ⟨⟨hmem, by omega⟩, hkey⟩

/-! ## Binary search -/

/-- `bsearch` between the indices `lo` and `hi`. -/
def bsearchBetween (key : α → ℕ) (k : ℕ) (l : List α) (lo hi : ℕ) : Option α :=
  if lo < hi then
    match l[(lo + hi) / 2]? with
    | none => none
    | some e =>
        if k < key e then bsearchBetween key k l lo ((lo + hi) / 2)
        else if key e < k then bsearchBetween key k l ((lo + hi) / 2 + 1) hi
        else some e
  else none
termination_by hi - lo
decreasing_by all_goals omega

/-- `bsearch` over the whole array. -/
def bsearch (key : α → ℕ) (k : ℕ) (l : List α) : Option α :=
  bsearchBetween key k l 0 l.length

theorem KeySorted.key_lt {l : List α} (h : KeySorted key l) {i j : ℕ} {a b : α} (hij : i < j)
    (ha : l[i]? = some a) (hb : l[j]? = some b) : key a < key b := by
  obtain ⟨hi, rfl⟩ := List.getElem?_eq_some_iff.1 ha
  obtain ⟨hj, rfl⟩ := List.getElem?_eq_some_iff.1 hb
  exact List.pairwise_iff_getElem.1 h i j hi hj hij

/-- What lies outside of the interval is known to be on the wrong side. -/
theorem KeySorted.bsearchBetween_eq {l : List α} (h : KeySorted key l) {k lo hi : ℕ}
    (hhi : hi ≤ l.length) (hbelow : ∀ i e, l[i]? = some e → i < lo → key e < k)
    (habove : ∀ i e, l[i]? = some e → hi ≤ i → k < key e) :
    bsearchBetween key k l lo hi = findKey key k l := by
  fun_induction bsearchBetween key k l lo hi with
  | case1 lo hi hlt hnone =>
      have hle := List.getElem?_eq_none_iff.1 hnone
      omega
  | case2 lo hi hlt e hmid hk ih =>
      refine ih (by omega) hbelow ?_
      intro i e' hi' hle
      rcases Nat.eq_or_lt_of_le hle with rfl | hgt
      · rw [hmid] at hi'
        cases hi'
        exact hk
      · exact hk.trans (h.key_lt hgt hmid hi')
  | case3 lo hi hlt e hmid hk hk' ih =>
      refine ih hhi ?_ habove
      intro i e' hi' hle
      rcases Nat.eq_or_lt_of_le (Nat.le_of_lt_succ hle) with rfl | hless
      · rw [hmid] at hi'
        cases hi'
        exact hk'
      · exact (h.key_lt hless hi' hmid).trans hk'
  | case4 lo hi hlt e hmid hk hk' =>
      symm
      exact h.findKey_eq_some.2 ⟨List.mem_of_getElem? hmid, by omega⟩
  | case5 lo hi hle =>
      -- every index is below or above the empty interval
      symm
      refine findKey_eq_none.2 ?_
      intro e he
      obtain ⟨i, hi⟩ := List.getElem?_of_mem he
      rcases Nat.lt_or_ge i lo with hless | hge
      · have := hbelow i e hi hless
        omega
      · have := habove i e hi (by omega)
        omega

/-- On a sorted array the binary search finds the entry with the key. -/
theorem KeySorted.bsearch_eq {l : List α} (h : KeySorted key l) (k : ℕ) :
    bsearch key k l = findKey key k l := by
  refine h.bsearchBetween_eq (le_refl _) (fun i e _ hlt => by omega) ?_
  intro i e hi hle
  rw [List.getElem?_eq_none hle] at hi
  cases hi

end Keyed

/-! ## Bisection -/

/-- Bisection of the indices from `front` up to `last`: `probe i` says on which side of `i` the
index searched for lies.  The search gives up when its middle is its front. -/
def bisect (probe : ℕ → Ordering) (front last : ℕ) : Option ℕ :=
  if front ≤ last then
    match probe (front + (last - front) / 2) with
    | .eq => some (front + (last - front) / 2)
    | .lt =>
        if _hmid : front + (last - front) / 2 = front then none
        else bisect probe front (front + (last - front) / 2)
    | .gt =>
        if _hmid : front + (last - front) / 2 = front then none
        else bisect probe (front + (last - front) / 2) last
  else
    none
termination_by last - front
decreasing_by all_goals omega

/-- The index is found when every comparison points to it. -/
theorem bisect_eq_some {probe : ℕ → Ordering} {front last p : ℕ}
    (heq : probe p = .eq) (hlt : ∀ i, p < i → i < last → probe i = .lt)
    (hgt : ∀ i < p, probe i = .gt) (hfront : front ≤ p) (hlast : p < last) :
    bisect probe front last = some p := by
  fun_induction bisect probe front last with
  | case1 front last hle hprobe =>
      -- the probe answers `eq` at `p` only
      rcases Nat.lt_trichotomy p (front + (last - front) / 2) with h | h | h
      · rw [hlt _ h (by omega)] at hprobe
        cases hprobe
      · rw [h]
      · rw [hgt _ h] at hprobe
        cases hprobe
  | case2 front last hle hprobe hmid =>
      have : p = front := by omega
      rw [hmid, ← this, heq] at hprobe
      cases hprobe
  | case3 front last hle hprobe hmid ih =>
      refine ih (fun i hi hi' => hlt i hi (by omega)) hfront ?_
      rcases Nat.lt_trichotomy p (front + (last - front) / 2) with h | h | h
      · exact h
      · rw [← h, heq] at hprobe
        cases hprobe
      · rw [hgt _ h] at hprobe
        cases hprobe
  | case4 front last hle hprobe hmid =>
      have : p = front := by omega
      rw [hmid, ← this, heq] at hprobe
      cases hprobe
  | case5 front last hle hprobe hmid ih =>
      refine ih hlt ?_ hlast
      rcases Nat.lt_trichotomy p (front + (last - front) / 2) with h | h | h
      · rw [hlt _ h (by omega)] at hprobe
        cases hprobe
      · exact h.ge
      · exact h.le
  | case6 front last hnot => omega

/-- An index that is found is one that a comparison has pointed to. -/
theorem probe_of_bisect_eq_some {probe : ℕ → Ordering} {front last p : ℕ}
    (h : bisect probe front last = some p) : probe p = .eq := by
  fun_induction bisect probe front last with
  | case1 front last hle hprobe =>
      cases h
      exact hprobe
  | case2 => cases h
  | case3 front last hle hprobe hmid ih => exact ih h
  | case4 => cases h
  | case5 front last hle hprobe hmid ih => exact ih h
  | case6 => cases h

theorem lt_of_bisect_eq_some {probe : ℕ → Ordering} {front last p : ℕ} (hlt : front < last)
    (h : bisect probe front last = some p) : p < last := by
  fun_induction bisect probe front last with
  | case1 front last hle hprobe =>
      cases h
      omega
  | case2 => cases h
  | case3 front last hle hprobe hmid ih =>
      have hp := ih (by omega) h
      omega
  | case4 => cases h
  | case5 front last hle hprobe hmid ih => exact ih (by omega) h
  | case6 => cases h

end Lib
end DtPhm
