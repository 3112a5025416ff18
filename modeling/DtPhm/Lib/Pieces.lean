import Mathlib.Data.List.Basic

/-!
# Pieces — a text that is loaded piece by piece

A loader makes items of a text from the left, and leaves over what it cannot use yet.  Fed with
pieces, it keeps what is left over and puts the next piece behind it.

* `IsUnit load ok u m` — the loader makes the item `m` of `u` whatever follows, and leaves every
  proper prefix of `u` over;
* `load_units` — a text that is put together of units;
* `feed`, `feed_units` — the same text in pieces.
-/

namespace DtPhm
namespace Lib

universe u v

variable {α : Type u} {β : Type v}

/-- The loader makes the item `m` of `u` whatever follows, if it is made of symbols that are `ok`,
and it leaves proper prefixes over. -/
structure IsUnit (load : List α → List β × List α) (ok : α → Prop) (u : List α) (m : β) : Prop where
  symbols : ∀ a ∈ u, ok a
  complete : ∀ rest, (∀ a ∈ rest, ok a) → load (u ++ rest) = (m :: (load rest).1, (load rest).2)
  cut : ∀ p q, p ++ q = u → q ≠ [] → load p = ([], p)

/-- The text of a list of units. -/
def unitText (units : List (List α × β)) : List α := (units.map Prod.fst).flatten

/-- The items of a list of units. -/
def unitItems (units : List (List α × β)) : List β := units.map Prod.snd

variable {load : List α → List β × List α} {ok : α → Prop} {units : List (List α × β)}

@[simp] theorem unitText_nil : unitText ([] : List (List α × β)) = [] := rfl

@[simp] theorem unitText_cons (x : List α × β) (units : List (List α × β)) :
    unitText (x :: units) = x.1 ++ unitText units := rfl

theorem unitText_ok (h : ∀ x ∈ units, IsUnit load ok x.1 x.2) : ∀ a ∈ unitText units, ok a := by
  intro a ha
  rcases List.mem_flatten.1 ha with ⟨u, hu, hau⟩
  rcases List.mem_map.1 hu with ⟨x, hx, rfl⟩
  exact (h x hx).symbols a hau

/-- What a loader makes of the first part `p` of a text of units: it takes the units that are
complete and leaves over where the others begin. -/
structure TakesUnits (load : List α → List β × List α) (units : List (List α × β))
    (p rest : List α) : Prop where
  exists_taken : ∃ taken left, units = taken ++ left ∧ (load p).1 = unitItems taken ∧
    (load p).2 ++ rest = unitText left
  settled : load (load p).2 = ([], (load p).2)

theorem load_prefix (hnil : load [] = ([], [])) (h : ∀ x ∈ units, IsUnit load ok x.1 x.2)
    {p rest : List α} (hp : p ++ rest = unitText units) : TakesUnits load units p rest := by
  induction units generalizing p with
  | nil =>
      obtain ⟨rfl, rfl⟩ := List.append_eq_nil_iff.1 hp
      exact ⟨⟨[], [], rfl, by rw [hnil]; rfl, by rw [hnil]; rfl⟩, by rw [hnil, hnil]⟩
  | cons x units ih =>
      have hx := h x (by simp)
      rw [unitText_cons] at hp
      rcases List.append_eq_append_iff.1 hp with ⟨q, hu, hrest⟩ | ⟨p', hp', hrest⟩
      · -- the text ends in the first unit, or with it
        cases q with
        | nil =>
            rw [List.append_nil] at hu
            have hload : load p = ([x.2], []) := by
              rw [← List.append_nil p, ← hu, hx.complete [] (by simp), hnil]
            exact ⟨⟨[x], units, rfl, by rw [hload]; rfl, by rw [hload]; exact hrest⟩,
              by rw [hload, hnil]⟩
        | cons a q =>
            have hload : load p = ([], p) := hx.cut p (a :: q) hu.symm (by simp)
            exact ⟨⟨[], x :: units, rfl, by rw [hload]; rfl, by rw [hload]; exact hp⟩,
              by rw [hload, hload]⟩
      · have hunits : ∀ y ∈ units, IsUnit load ok y.1 y.2 :=
          fun y hy => h y (List.mem_cons_of_mem x hy)
        have hload : load p = (x.2 :: (load p').1, (load p').2) := by
          rw [hp']
          refine hx.complete p' fun a ha => unitText_ok hunits a ?_
          exact hrest ▸ List.mem_append_left _ ha
        rcases ih hunits hrest.symm with ⟨⟨taken, left, hsplit, hitems, hleft⟩, hsettled⟩
        refine ⟨⟨x :: taken, left, by rw [hsplit, List.cons_append], ?_, ?_⟩, ?_⟩
        · rw [hload, hitems]
          rfl
        · rw [hload, hleft]
        · rw [hload, hsettled]

/-- A text of units is used up. -/
theorem load_units (hnil : load [] = ([], [])) (h : ∀ x ∈ units, IsUnit load ok x.1 x.2) :
    load (unitText units) = (unitItems units, []) := by
  induction units with
  | nil => exact hnil
  | cons x units ih =>
      have hunits : ∀ y ∈ units, IsUnit load ok y.1 y.2 :=
        fun y hy => h y (List.mem_cons_of_mem x hy)
      rw [unitText_cons, (h x (by simp)).complete _ (unitText_ok hunits), ih hunits]
      rfl

/-! ## Pieces -/

/-- The items so far and what is left over, after one more piece. -/
def feed (load : List α → List β × List α) (s : List β × List α) (piece : List α) :
    List β × List α :=
  (s.1 ++ (load (s.2 ++ piece)).1, (load (s.2 ++ piece)).2)

/-- In pieces a text of units gives the same items, and it is used up too. -/
theorem feed_units (hnil : load [] = ([], [])) {pieces : List (List α)} {items : List β}
    {left : List α} (h : ∀ x ∈ units, IsUnit load ok x.1 x.2)
    (hleft : load left = ([], left)) (hpieces : left ++ pieces.flatten = unitText units) :
    pieces.foldl (feed load) (items, left) = (items ++ unitItems units, []) := by
  induction pieces generalizing units items left with
  | nil =>
      rw [List.flatten_nil, List.append_nil] at hpieces
      have hload := load_units hnil h
      rw [← hpieces, hleft] at hload
      have hitems : unitItems units = [] := (Prod.mk.inj hload).1.symm
      rw [List.foldl_nil, hitems, List.append_nil, (Prod.mk.inj hload).2]
  | cons piece pieces ih =>
      rw [List.flatten_cons, ← List.append_assoc] at hpieces
      rcases load_prefix hnil h hpieces with ⟨⟨taken, left', rfl, hitems, htext⟩, hsettled⟩
      have hunits : ∀ x ∈ left', IsUnit load ok x.1 x.2 :=
        fun x hx => h x (List.mem_append_right _ hx)
      have hall : unitItems (taken ++ left') = unitItems taken ++ unitItems left' :=
        List.map_append
      rw [List.foldl_cons, feed, ih hunits hsettled htext, hall, hitems, List.append_assoc]

end Lib
end DtPhm
