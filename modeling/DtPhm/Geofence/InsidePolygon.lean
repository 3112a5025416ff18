import DtPhm.Geofence.Polygons
import DtPhm.Lib.ConvexPolygon
import Mathlib.Algebra.BigOperators.Fin
import Mathlib.Algebra.Ring.Parity
import Mathlib.Logic.Equiv.Fin.Rotate

/-!
# InsidePolygon — whether a position lies inside a polygon of the fence

The loop runs over the edges of the polygon, and counts those that a ray from the position meets.

* `insidePolygon` — `Geofence::insidePolygon`; coordinates are rational, and a division by zero has
  no result;
* `insidePolygon_eq` — the result is the parity of `crossings`;
* `insidePolygon_correct` — it does not depend on the order of the vertices, and is right for
  strictly convex polygons.
-/

namespace DtPhm
namespace Geofence

open Lib Mission

/-! ## The loop -/

def supportedFrame : MavFrame → Bool
  | .global => true
  | .globalInt => true
  | .globalRelativeAlt => true
  | .globalRelativeAltInt => true
  | _ => false

/-- A division, where it is defined. -/
def divide (a b : ℚ) : Option ℚ := if b = 0 then none else some (a / b)

/-- The condition of the loop for the vertices `i` and `j`; the division is only evaluated if the
first part holds. -/
def meets (lat lon : ℚ) (vi vj : FencePoint) : Option Bool :=
  if decide (vi.lon ≥ lon) != decide (vj.lon ≥ lon) then do
    let q ← divide ((vj.lat - vi.lat) * (lon - vi.lon)) (vj.lon - vi.lon)
    pure (decide (lat ≤ q + vi.lat))
  else
    pure false

/-- The loop, with `left` vertices to come; `read` is `dm_read` of the fence points. -/
def polygonLoop (read : ℕ → Option DmData) (datamanIndex : ℕ) (lat lon : ℚ) :
    (left i j : ℕ) → (c : Bool) → Option Bool
  | 0, _, _, c => some c
  | left + 1, i, j, c =>
      match read (datamanIndex + i), read (datamanIndex + j) with
      | some (.fencePoint vi), some (.fencePoint vj) =>
          if supportedFrame vi.frame then do
            let hit ← meets lat lon vi vj
            polygonLoop read datamanIndex lat lon left (i + 1) i (if hit then !c else c)
          else
            some c
      -- a vertex that cannot be read
      | _, _ => some c

/-- `insidePolygon`. -/
def insidePolygon (read : ℕ → Option DmData) (datamanIndex vertexCount : ℕ) (lat lon : ℚ) :
    Option Bool :=
  polygonLoop read datamanIndex lat lon vertexCount 0 (vertexCount - 1) false

/-! ## One edge -/

/-- Where a vertex is. -/
def position (p : FencePoint) : ℚ × ℚ := (p.lat, p.lon)

/-- The divisor is not zero where it is used, and an edge is met as `Crosses` says. -/
theorem meets_eq (lat lon : ℚ) (vi vj : FencePoint) :
    meets lat lon vi vj =
      some (decide (Polygon.Crosses (lat, lon) (position vi) (position vj))) := by
  have hside : (decide (vi.lon ≥ lon) != decide (vj.lon ≥ lon)) = true ↔
      Polygon.Rises (lat, lon) (position vi) (position vj) ∨
        Polygon.Rises (lat, lon) (position vj) (position vi) := by
    simp only [Polygon.Rises, position, bne_iff_ne, ne_eq, decide_eq_decide, ge_iff_le]
    rcases lt_or_ge vi.lon lon with hi | hi <;> rcases lt_or_ge vj.lon lon with hj | hj <;>
      simp [hi, hj, not_lt.2, not_le.2]
  simp only [meets, Polygon.crosses_iff]
  by_cases h : Polygon.Rises (lat, lon) (position vi) (position vj) ∨
      Polygon.Rises (lat, lon) (position vj) (position vi)
  · have hne : vj.lon - vi.lon ≠ 0 := by
      rcases h with h | h
      · exact sub_ne_zero.2 h.lt.ne'
      · exact sub_ne_zero.2 h.lt.ne
    have hlevel : (Polygon.levelPoint (position vi) (position vj) lon).1 =
        (vj.lat - vi.lat) * (lon - vi.lon) / (vj.lon - vi.lon) + vi.lat := add_comm _ _
    rw [if_pos (hside.2 h), divide, if_neg hne, hlevel]
    simp only [h, true_and]
    rfl
  · rw [if_neg (hside.not.2 h)]
    simp [h]

theorem polygonLoop_ne_none (read : ℕ → Option DmData) (datamanIndex : ℕ) (lat lon : ℚ)
    (left i j : ℕ) (c : Bool) : polygonLoop read datamanIndex lat lon left i j c ≠ none := by
  induction left generalizing i j c with
  | zero => exact Option.some_ne_none c
  | succ left ih =>
      unfold polygonLoop
      split
      · split
        · rw [meets_eq]
          exact ih _ _ _
        · exact Option.some_ne_none c
      · exact Option.some_ne_none c

/-! ## All edges -/

/-- The fence points from `datamanIndex` on are the vertices of the polygon, in frames that the loop
supports. -/
structure HoldsPolygon (read : ℕ → Option DmData) (datamanIndex : ℕ) {n : ℕ}
    (v : Fin n → FencePoint) : Prop where
  read : ∀ i : Fin n, read (datamanIndex + i) = some (.fencePoint (v i))
  frame : ∀ i, supportedFrame (v i).frame = true

variable {read : ℕ → Option DmData} {datamanIndex n : ℕ} {v : Fin n → FencePoint} {lat lon : ℚ}

/-- Whether the loop changes `c` at vertex `i`. -/
def hits (lat lon : ℚ) (v : Fin n → FencePoint) (i : Fin n) : Bool :=
  decide (Polygon.Crosses (lat, lon) (position (v i)) (position (v ((finRotate n).symm i))))

/-- The vertex before `i`, as the loop counts. -/
def before (n i : ℕ) : ℕ := if i = 0 then n - 1 else i - 1

theorem val_finRotate_symm (i : Fin n) : (((finRotate n).symm i : Fin n) : ℕ) = before n i := by
  obtain ⟨j, rfl⟩ := (finRotate n).surjective i
  rw [Equiv.symm_apply_apply, before]
  cases n with
  | zero => exact j.elim0
  | succ m =>
      rw [coe_finRotate]
      split
      · rename_i hlast
        simp [hlast]
      · simp

/-- 1 if the loop changes `c` at vertex `k`. -/
def hitCount (lat lon : ℚ) (v : Fin n → FencePoint) (k : ℕ) : ℕ :=
  if h : k < n then if hits lat lon v ⟨k, h⟩ then 1 else 0 else 0

theorem xor_odd_succ (c : Bool) (m : ℕ) :
    ((!c) ^^ decide (Odd m)) = (c ^^ decide (Odd (m + 1))) := by
  cases c <;> by_cases hm : Odd m <;> simp [hm, Nat.odd_add_one]

theorem polygonLoop_eq (h : HoldsPolygon read datamanIndex v) (lat lon : ℚ) (left i : ℕ)
    (hle : i + left = n)
    (c : Bool) :
    polygonLoop read datamanIndex lat lon left i (before n i) c =
      some (c ^^ decide (Odd (∑ k ∈ Finset.range left, hitCount lat lon v (i + k)))) := by
  induction left generalizing i c with
  | zero => simp [polygonLoop]
  | succ left ih =>
      have hi : i < n := by omega
      have hread := h.read ⟨i, hi⟩
      have hprev := h.read ((finRotate n).symm ⟨i, hi⟩)
      rw [val_finRotate_symm] at hprev
      have hnext : before n (i + 1) = i := by simp [before]
      have hrest := ih (i + 1) (by omega) (if hits lat lon v ⟨i, hi⟩ then !c else c)
      have hshift : ∀ k, i + 1 + k = i + (k + 1) := fun k => by omega
      simp only [hnext, hshift] at hrest
      have hcount : hitCount lat lon v i = if hits lat lon v ⟨i, hi⟩ then 1 else 0 := dif_pos hi
      simp only [polygonLoop, hread, hprev, h.frame, if_true, meets_eq, Option.bind_eq_bind,
        Option.bind_some]
      refine hrest.trans ?_
      rw [Finset.sum_range_succ', Nat.add_zero i, hcount]
      cases hits lat lon v ⟨i, hi⟩ with
      | true => exact congrArg some (xor_odd_succ c _)
      | false => rfl

theorem insidePolygon_eq (h : HoldsPolygon read datamanIndex v) :
    insidePolygon read datamanIndex n lat lon =
      some (decide (Odd (Polygon.crossings (finRotate n) (position ∘ v) (lat, lon)))) := by
  have hloop := polygonLoop_eq h lat lon n 0 (Nat.zero_add n) false
  have hsum : ∑ k ∈ Finset.range n, hitCount lat lon v (0 + k) =
      Polygon.crossings (finRotate n) (position ∘ v) (lat, lon) := by
    rw [← Polygon.crossings_symm, Polygon.crossings, Finset.card_filter, Finset.sum_range]
    refine Finset.sum_congr rfl fun k _ => ?_
    rw [Nat.zero_add, hitCount, dif_pos k.isLt]
    simp [hits]
  rw [hsum] at hloop
  simpa [insidePolygon, before] using hloop

/-! ## Orders of the vertices -/

theorem around_finRotate (hn : 3 ≤ n) : Polygon.Around (finRotate n) := by
  obtain ⟨m, rfl⟩ := Nat.exists_eq_add_of_le' hn
  have hpow : ∀ (i : Fin (m + 3)) (t : ℕ), (((finRotate (m + 3)) ^ t) i : ℕ) =
      (i + t) % (m + 3) := by
    intro i t
    induction t with
    | zero => simp [Nat.mod_eq_of_lt i.isLt]
    | succ t ih =>
        rw [pow_succ', Equiv.Perm.mul_apply, finRotate_apply, Fin.val_add, ih]
        simp [Nat.add_assoc]
  have hmove : ∀ (i : Fin (m + 3)) (t : ℕ), 0 < t → t < m + 3 →
      ((finRotate (m + 3)) ^ t) i ≠ i := by
    intro i t hpos hlt heq
    have hval := hpow i t
    rw [heq] at hval
    rcases Nat.lt_or_ge (i + t) (m + 3) with h | h
    · rw [Nat.mod_eq_of_lt h] at hval
      omega
    · rw [Nat.mod_eq_sub_mod h, Nat.mod_eq_of_lt (by omega)] at hval
      omega
  refine ⟨fun i => hmove i 1 (by omega) (by omega), fun i => hmove i 2 (by omega) (by omega), ?_⟩
  intro i j
  refine ⟨j + (m + 3 - i), Fin.ext ?_⟩
  have hturn : (i : ℕ) + (j + (m + 3 - i)) = j + (m + 3) := by omega
  rw [hpow, hturn, Nat.add_mod_right, Nat.mod_eq_of_lt j.isLt]

theorem insidePolygon_rotate {read' : ℕ → Option DmData} {datamanIndex' : ℕ} (k : Fin n)
    (h : HoldsPolygon read datamanIndex v)
    (h' : HoldsPolygon read' datamanIndex' fun i => v (i + k)) :
    insidePolygon read' datamanIndex' n lat lon = insidePolygon read datamanIndex n lat lon := by
  rw [insidePolygon_eq h, insidePolygon_eq h']
  have : NeZero n := ⟨k.pos.ne'⟩
  have hcount := Polygon.crossings_comp_equiv (v := position ∘ v) (p := (lat, lon))
    (σ := finRotate n) (τ := finRotate n) (Equiv.addRight k) fun i => by
      simp only [Equiv.coe_addRight, finRotate_apply]
      exact add_right_comm i 1 k
  rw [← hcount]
  rfl

theorem insidePolygon_reverse {read' : ℕ → Option DmData} {datamanIndex' : ℕ}
    (h : HoldsPolygon read datamanIndex v)
    (h' : HoldsPolygon read' datamanIndex' fun i => v i.rev) :
    insidePolygon read' datamanIndex' n lat lon = insidePolygon read datamanIndex n lat lon := by
  rw [insidePolygon_eq h, insidePolygon_eq h']
  have hcount := Polygon.crossings_comp_equiv (v := position ∘ v) (p := (lat, lon))
    (σ := (finRotate n).symm) (τ := finRotate n) Fin.revPerm fun i => by
      have : NeZero n := ⟨i.pos.ne'⟩
      rw [Equiv.eq_symm_apply]
      simp only [Fin.revPerm_apply, finRotate_apply]
      rw [Fin.rev_add, sub_add_cancel]
  rw [← hcount.trans Polygon.crossings_symm]
  rfl

/-- `Geofence::insidePolygon` never divides by zero; its answer is the same for every rotation and
for the reversal of the vertices; and it is right for the points inside and outside of a strictly
convex polygon. -/
theorem insidePolygon_correct :
    (∀ (read : ℕ → Option DmData) (datamanIndex vertexCount : ℕ) (lat lon : ℚ),
        insidePolygon read datamanIndex vertexCount lat lon ≠ none) ∧
      ∀ (n : ℕ) (v : Fin n → FencePoint) (read : ℕ → Option DmData) (datamanIndex : ℕ),
        HoldsPolygon read datamanIndex v → ∀ lat lon : ℚ,
          (∀ (k : Fin n) (read' : ℕ → Option DmData) (datamanIndex' : ℕ),
            HoldsPolygon read' datamanIndex' (fun i => v (i + k)) →
              insidePolygon read' datamanIndex' n lat lon =
                insidePolygon read datamanIndex n lat lon) ∧
          (∀ (read' : ℕ → Option DmData) (datamanIndex' : ℕ),
            HoldsPolygon read' datamanIndex' (fun i => v i.rev) →
              insidePolygon read' datamanIndex' n lat lon =
                insidePolygon read datamanIndex n lat lon) ∧
          (3 ≤ n → Polygon.StrictlyConvex (finRotate n) (position ∘ v) →
            (Polygon.Inside (finRotate n) (position ∘ v) (lat, lon) →
              insidePolygon read datamanIndex n lat lon = some true) ∧
            (Polygon.Outside (finRotate n) (position ∘ v) (lat, lon) →
              insidePolygon read datamanIndex n lat lon = some false)) := by
  refine ⟨fun read datamanIndex vertexCount lat lon => polygonLoop_ne_none _ _ _ _ _ _ _ _, ?_⟩
  intro n v read datamanIndex h lat lon
  refine ⟨fun k _ _ h' => insidePolygon_rotate k h h', fun _ _ h' => insidePolygon_reverse h h', ?_⟩
  intro hn hconvex
  have haround := around_finRotate hn
  have : Nonempty (Fin n) := ⟨⟨0, by omega⟩⟩
  rw [insidePolygon_eq h]
  refine ⟨fun hin => ?_, fun hout => ?_⟩
  · exact congrArg some (decide_eq_true (hconvex.odd_crossings haround hin))
  · exact congrArg some
      (decide_eq_false (Nat.not_odd_iff_even.2 (hconvex.even_crossings haround hout)))

/-! ## A triangle -/

/-- The vertices (0, 0), (2, 0) and (0, 2). -/
def triangle (i : Fin 3) : FencePoint where
  lat := if i = 1 then 2 else 0
  lon := if i = 2 then 2 else 0
  alt := 0
  vertexCount := 3
  circleRadius := 0
  navCmd := .navFencePolygonVertexInclusion
  frame := .global

/-- A store with the triangle behind its first entry. -/
def triangleStore (k : ℕ) : Option DmData := some (.fencePoint (triangle (Fin.ofNat 3 (k + 2))))

theorem holdsPolygon_triangle : HoldsPolygon triangleStore 1 triangle where
  read := fun i => by
    have hi : Fin.ofNat 3 (1 + (i : ℕ) + 2) = i := Fin.ext (by simp only [Fin.val_ofNat]; omega)
    rw [triangleStore, hi]
  frame := fun _ => rfl

theorem strictlyConvex_triangle : Polygon.StrictlyConvex (finRotate 3) (position ∘ triangle) := by
  unfold Polygon.StrictlyConvex
  decide +kernel

theorem inside_triangle :
    Polygon.Inside (finRotate 3) (position ∘ triangle) (1 / 2, 1 / 2) := by
  unfold Polygon.Inside
  decide +kernel

theorem insidePolygon_triangle : insidePolygon triangleStore 1 3 (1 / 2) (1 / 2) = some true :=
  ((insidePolygon_correct.2 3 triangle triangleStore 1 holdsPolygon_triangle (1 / 2) (1 / 2)).2.2
    (Nat.le_refl 3) strictlyConvex_triangle).1 inside_triangle

end Geofence
end DtPhm
