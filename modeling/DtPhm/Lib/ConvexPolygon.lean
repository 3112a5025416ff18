import Mathlib.Algebra.Order.Field.Basic
import Mathlib.Data.Finset.Card
import Mathlib.Data.Fintype.Lattice
import Mathlib.Data.Fintype.Perm
import Mathlib.Order.Fin.Basic
import Mathlib.Tactic.FieldSimp
import Mathlib.Tactic.Linarith
import Mathlib.Tactic.LinearCombination
import Mathlib.Tactic.Ring

/-!
# Convex polygons — points, edges and the parity of crossings

A polygon is a family of points `v` and the permutation `σ` that leads from each vertex to the next.
A ray runs from a point in the direction of the first coordinate; an edge crosses it if its ends lie
on different sides of the second coordinate, where a point on the ray counts as above it.

* `cross` — on which side of an edge a point lies;
* `Crosses`, `crossings` — the edges that the ray meets;
* `StrictlyConvex`, `Inside`, `Outside` — all by the sides of the edges;
* `StrictlyConvex.odd_crossings`, `StrictlyConvex.even_crossings` — what the parity tells.
-/

namespace DtPhm
namespace Lib
namespace Polygon

variable {K ι : Type*}

/-! ## Sides of an edge -/

section Sides

variable [Field K]

/-- Positive if `p` lies to the left of the edge from `a` to `b`. -/
def cross (a b p : K × K) : K := (b.1 - a.1) * (p.2 - a.2) - (b.2 - a.2) * (p.1 - a.1)

/-- Where the line through `a` and `b` is at the height `y`. -/
def levelPoint (a b : K × K) (y : K) : K × K := (a.1 + (b.1 - a.1) * (y - a.2) / (b.2 - a.2), y)

@[simp] theorem cross_start (a b : K × K) : cross a b a = 0 := by simp [cross]

@[simp] theorem cross_finish (a b : K × K) : cross a b b = 0 := by
  rw [cross]
  ring

theorem cross_swap (a b p : K × K) : cross b a p = -cross a b p := by
  rw [cross, cross]
  ring

theorem cross_rotate (a b p : K × K) : cross b p a = cross a b p := by
  rw [cross, cross]
  ring

variable {p a b c d : K × K}

theorem levelPoint_comm (h : a.2 ≠ b.2) (y : K) : levelPoint a b y = levelPoint b a y := by
  have hab : b.2 - a.2 ≠ 0 := sub_ne_zero.2 (Ne.symm h)
  have hba : a.2 - b.2 ≠ 0 := sub_ne_zero.2 h
  refine Prod.ext ?_ rfl
  simp only [levelPoint]
  field_simp
  ring

/-- The side of a point tells how far it is from the edge along the ray. -/
theorem cross_eq_level (h : a.2 ≠ b.2) :
    cross a b p = (b.2 - a.2) * ((levelPoint a b p.2).1 - p.1) := by
  have hab : b.2 - a.2 ≠ 0 := sub_ne_zero.2 (Ne.symm h)
  simp only [cross, levelPoint]
  field_simp
  ring

/-- A point of an edge is a mean of its ends. -/
theorem cross_levelPoint (h : c.2 ≠ d.2) (y : K) :
    (d.2 - c.2) * cross a b (levelPoint c d y) =
      (d.2 - y) * cross a b c + (y - c.2) * cross a b d := by
  have hcd : d.2 - c.2 ≠ 0 := sub_ne_zero.2 (Ne.symm h)
  simp only [cross, levelPoint]
  field_simp
  ring

/-- The triangle at `b`, in terms of the heights above it. -/
theorem cross_heights (a b c q : K × K) :
    (a.2 - b.2) * cross b c q + (c.2 - b.2) * cross a b q = (q.2 - b.2) * cross a b c := by
  simp only [cross]
  ring

end Sides

/-! ## Edges that cross the ray -/

section Rising

variable [LinearOrder K] {p a b : K × K}

/-- The edge leads from below the ray to the ray or above it. -/
def Rises (p a b : K × K) : Prop := a.2 < p.2 ∧ p.2 ≤ b.2

instance (p a b : K × K) : Decidable (Rises p a b) := inferInstanceAs (Decidable (_ ∧ _))

theorem Rises.lt (h : Rises p a b) : a.2 < b.2 := h.1.trans_le h.2

theorem Rises.asymm (h : Rises p a b) : ¬Rises p b a :=
  fun h' => absurd h'.1 (not_lt.2 h.2)

end Rising

section Crossing

variable [Field K] [LinearOrder K]

/-- The edge has its ends on different sides, and the ray from `p` meets it. -/
def Crosses (p a b : K × K) : Prop :=
  Rises p a b ∧ 0 ≤ cross a b p ∨ Rises p b a ∧ cross a b p ≤ 0

instance (p a b : K × K) : Decidable (Crosses p a b) := inferInstanceAs (Decidable (_ ∨ _))

variable [IsStrictOrderedRing K] {p a b c d : K × K}

theorem crosses_comm : Crosses p a b ↔ Crosses p b a := by
  rw [Crosses, Crosses, cross_swap a b, neg_nonneg, neg_nonpos, or_comm]

/-- A point is to the left of an edge that rises if the ray from it meets the edge. -/
theorem cross_nonneg_iff (h : a.2 < b.2) :
    0 ≤ cross a b p ↔ p.1 ≤ (levelPoint a b p.2).1 := by
  rw [cross_eq_level h.ne, mul_nonneg_iff_of_pos_left (sub_pos.2 h), sub_nonneg]

/-- An edge with its ends on different sides crosses the ray if the ray's line meets it beyond
`p`. -/
theorem crosses_iff :
    Crosses p a b ↔ (Rises p a b ∨ Rises p b a) ∧ p.1 ≤ (levelPoint a b p.2).1 := by
  rw [or_and_right, Crosses]
  refine or_congr (and_congr_right fun h => cross_nonneg_iff h.lt) (and_congr_right fun h => ?_)
  rw [← neg_nonneg, ← cross_swap, cross_nonneg_iff h.lt, levelPoint_comm h.lt.ne]

/-- Where an edge meets the ray's line, it is on the side of its ends. -/
theorem cross_levelPoint_nonneg (h : Rises p c d) (hc : 0 ≤ cross a b c) (hd : 0 ≤ cross a b d) :
    0 ≤ cross a b (levelPoint c d p.2) := by
  have hpos : 0 < d.2 - c.2 := sub_pos.2 h.lt
  have hsum : 0 ≤ (d.2 - c.2) * cross a b (levelPoint c d p.2) := by
    rw [cross_levelPoint h.lt.ne]
    exact add_nonneg (mul_nonneg (sub_nonneg.2 h.2) hc) (mul_nonneg (sub_nonneg.2 h.1.le) hd)
  exact nonneg_of_mul_nonneg_right hsum hpos

/-- A point at the ray's height between two others is on the side of both. -/
theorem cross_nonneg_of_between {x x' : K} (hx : x < p.1) (hx' : p.1 ≤ x')
    (h : 0 ≤ cross a b (x, p.2)) (h' : 0 ≤ cross a b (x', p.2)) : 0 ≤ cross a b p := by
  have hmean : (x' - x) * cross a b p =
      (x' - p.1) * cross a b (x, p.2) + (p.1 - x) * cross a b (x', p.2) := by
    simp only [cross]
    ring
  have hsum : 0 ≤ (x' - x) * cross a b p := by
    rw [hmean]
    exact add_nonneg (mul_nonneg (sub_nonneg.2 hx') h) (mul_nonneg (sub_nonneg.2 hx.le) h')
  exact nonneg_of_mul_nonneg_right hsum (sub_pos.2 (hx.trans_le hx'))

end Crossing

/-! ## Around a polygon -/

section Cycle

/-- The permutation that leads around a polygon of at least three vertices. -/
structure Around (σ : Equiv.Perm ι) : Prop where
  ne : ∀ i, σ i ≠ i
  ne_ne : ∀ i, σ (σ i) ≠ i
  reach : ∀ i j, ∃ t : ℕ, (σ ^ t) i = j

variable {σ : Equiv.Perm ι}

/-- What is passed on to the next vertex holds at all of them. -/
theorem Around.forall_of_step (h : Around σ) {P : ι → Prop} {i : ι} (hi : P i)
    (hstep : ∀ k, P k → P (σ k)) (j : ι) : P j := by
  obtain ⟨t, rfl⟩ := h.reach i j
  induction t with
  | zero => simpa using hi
  | succ t ih =>
      rw [pow_succ', Equiv.Perm.mul_apply]
      exact hstep _ ih

theorem Around.symm (h : Around σ) : Around σ.symm where
  ne := fun i hi => h.ne i ((σ.symm_apply_eq).1 hi).symm
  ne_ne := fun i hi => h.ne_ne i (σ.symm_apply_eq.1 (σ.symm_apply_eq.1 hi)).symm
  reach := fun i j => by
    obtain ⟨t, ht⟩ := h.reach j i
    refine ⟨t, ?_⟩
    show (σ⁻¹ ^ t) i = j
    rw [inv_pow, Equiv.Perm.inv_eq_iff_eq, ht]

end Cycle

section Heights

variable [LinearOrder K] {σ : Equiv.Perm ι} {v : ι → K × K} {p : K × K}

/-- Around a polygon as many edges rise as fall. -/
theorem card_rises_eq_card_falls [Fintype ι] :
    (Finset.univ.filter fun i => Rises p (v i) (v (σ i))).card =
      (Finset.univ.filter fun i => Rises p (v (σ i)) (v i)).card := by
  classical
  set above : Finset ι := Finset.univ.filter fun i => p.2 ≤ (v i).2 with habove
  set next : Finset ι := Finset.univ.filter fun i => p.2 ≤ (v (σ i)).2 with hnext
  have hcard : next.card = above.card :=
    Finset.card_equiv σ fun i => by simp [habove, hnext]
  have hrise : (Finset.univ.filter fun i => Rises p (v i) (v (σ i))) = next \ above := by
    ext i
    simp only [Finset.mem_filter, Finset.mem_sdiff, Finset.mem_univ, true_and, habove, hnext,
      not_le]
    exact and_comm
  have hfall : (Finset.univ.filter fun i => Rises p (v (σ i)) (v i)) = above \ next := by
    ext i
    simp only [Finset.mem_filter, Finset.mem_sdiff, Finset.mem_univ, true_and, habove, hnext,
      not_le]
    exact and_comm
  rw [hrise, hfall]
  exact Finset.card_sdiff_comm hcard

/-- Some edge rises if there are vertices on both sides. -/
theorem exists_rise (ha : Around σ) {i j : ι} (hi : (v i).2 < p.2) (hj : p.2 ≤ (v j).2) :
    ∃ k, Rises p (v k) (v (σ k)) := by
  by_contra hno
  have hstep : ∀ k, (v k).2 < p.2 → (v (σ k)).2 < p.2 := by
    intro k hk
    by_contra hge
    exact hno ⟨k, hk, not_lt.1 hge⟩
  exact absurd (ha.forall_of_step (P := fun k => (v k).2 < p.2) hi hstep j) (not_lt.2 hj)

end Heights

/-! ## Polygons -/

section Defs

variable [Field K] [LinearOrder K] (σ : Equiv.Perm ι) (v : ι → K × K) (p : K × K)

/-- The number of edges that the ray from `p` meets. -/
def crossings [Fintype ι] : ℕ := (Finset.univ.filter fun i => Crosses p (v i) (v (σ i))).card

/-- The other vertices lie strictly on one side of each edge. -/
def StrictlyConvex : Prop :=
  ∀ i k l, k ≠ i → k ≠ σ i → l ≠ i → l ≠ σ i →
    0 < cross (v i) (v (σ i)) (v k) * cross (v i) (v (σ i)) (v l)

/-- The point lies strictly on the side of the other vertices, at each edge. -/
def Inside : Prop :=
  ∀ i k, k ≠ i → k ≠ σ i → 0 < cross (v i) (v (σ i)) (v k) * cross (v i) (v (σ i)) p

/-- The point lies strictly on the other side, at some edge. -/
def Outside : Prop :=
  ∃ i k, k ≠ i ∧ k ≠ σ i ∧ cross (v i) (v (σ i)) (v k) * cross (v i) (v (σ i)) p < 0

/-- The other vertices lie strictly to the left of each edge. -/
def TurnsLeft : Prop := ∀ i k, k ≠ i → k ≠ σ i → 0 < cross (v i) (v (σ i)) (v k)

end Defs

section Counting

variable [Field K] [LinearOrder K] [Fintype ι] {σ : Equiv.Perm ι} {v : ι → K × K} {p : K × K}

/-- The crossings do not depend on how the vertices are numbered. -/
theorem crossings_comp_equiv {κ : Type*} [Fintype κ] {τ : Equiv.Perm κ} (e : κ ≃ ι)
    (h : ∀ i, e (τ i) = σ (e i)) : crossings τ (v ∘ e) p = crossings σ v p := by
  refine Finset.card_equiv e fun i => ?_
  simp [h]

/-- … nor on the direction in which the polygon is run through. -/
theorem crossings_symm [IsStrictOrderedRing K] : crossings σ.symm v p = crossings σ v p := by
  refine (Finset.card_equiv σ fun i => ?_).symm
  simp [crosses_comm (a := v i)]

/-- An edge that crosses rises or falls. -/
theorem crossings_eq :
    crossings σ v p =
      (Finset.univ.filter fun i => Rises p (v i) (v (σ i)) ∧ 0 ≤ cross (v i) (v (σ i)) p).card +
        (Finset.univ.filter fun i => Rises p (v (σ i)) (v i) ∧
          cross (v i) (v (σ i)) p ≤ 0).card := by
  classical
  rw [crossings, ← Finset.card_union_of_disjoint, ← Finset.filter_or]
  · rfl
  · rw [Finset.disjoint_filter]
    intro i _ h h'
    exact h.1.asymm h'.1

end Counting

/-! ## One direction -/

section Left

variable [Field K] [LinearOrder K] {σ : Equiv.Perm ι} {v : ι → K × K} {p : K × K}

theorem Inside.symm (h : Inside σ v p) : Inside σ.symm v p := by
  intro i k hk hk'
  have hpos := h (σ.symm i) k hk' (by rwa [σ.apply_symm_apply])
  rw [σ.apply_symm_apply] at hpos
  rwa [cross_swap (v (σ.symm i)), cross_swap (v (σ.symm i)), neg_mul_neg]

theorem Outside.symm (h : Outside σ v p) : Outside σ.symm v p := by
  obtain ⟨i, k, hk, hk', hneg⟩ := h
  refine ⟨σ i, k, hk', by rwa [σ.symm_apply_apply], ?_⟩
  rwa [σ.symm_apply_apply, cross_swap (v i), cross_swap (v i), neg_mul_neg]

theorem TurnsLeft.nonneg (h : TurnsLeft σ v) (i k : ι) : 0 ≤ cross (v i) (v (σ i)) (v k) := by
  by_cases hk : k = i
  · simp [hk]
  · by_cases hk' : k = σ i
    · simp [hk']
    · exact (h i k hk hk').le

variable [IsStrictOrderedRing K]

theorem TurnsLeft.inside (ha : Around σ) (h : TurnsLeft σ v) (hin : Inside σ v p) (i : ι) :
    0 < cross (v i) (v (σ i)) p :=
  pos_of_mul_pos_right (hin i (σ (σ i)) (ha.ne_ne i) (ha.ne (σ i)))
    (h i (σ (σ i)) (ha.ne_ne i) (ha.ne (σ i))).le

theorem TurnsLeft.outside (h : TurnsLeft σ v) (hout : Outside σ v p) :
    ∃ i, cross (v i) (v (σ i)) p < 0 := by
  obtain ⟨i, k, hk, hk', hneg⟩ := hout
  exact ⟨i, (pos_iff_neg_of_mul_neg hneg).1 (h i k hk hk')⟩

/-- A strictly convex polygon turns left all the way around, or right all the way around. -/
theorem StrictlyConvex.turnsLeft (ha : Around σ) (h : StrictlyConvex σ v) (i₀ : ι) :
    TurnsLeft σ v ∨ TurnsLeft σ.symm v := by
  -- the turn at one edge, and the edge after it, are seen at the triangle of their vertices
  have hne : ∀ i, cross (v i) (v (σ i)) (v (σ (σ i))) ≠ 0 := by
    intro i h0
    have := h i _ _ (ha.ne_ne i) (ha.ne (σ i)) (ha.ne_ne i) (ha.ne (σ i))
    simp [h0] at this
  have hnext : ∀ i, 0 < cross (v i) (v (σ i)) (v (σ (σ i))) *
      cross (v (σ i)) (v (σ (σ i))) (v (σ (σ (σ i)))) := by
    intro i
    have := h (σ i) i (σ (σ (σ i))) (ha.ne i).symm (ha.ne_ne i).symm (ha.ne_ne (σ i))
      (ha.ne (σ (σ i)))
    rwa [cross_rotate] at this
  rcases lt_or_gt_of_ne (hne i₀) with hneg | hpos
  · right
    have hall := ha.forall_of_step (P := fun i => cross (v i) (v (σ i)) (v (σ (σ i))) < 0) hneg
      fun i hi => (neg_iff_neg_of_mul_pos (hnext i)).1 hi
    intro i k hk hk'
    have hback : σ (σ.symm i) = i := σ.apply_symm_apply i
    have hside := h (σ.symm i) (σ (σ (σ.symm i))) k (ha.ne_ne _) (ha.ne _) hk' (by rwa [hback])
    have hlt := (neg_iff_neg_of_mul_pos hside).1 (hall (σ.symm i))
    rw [hback] at hlt
    rw [cross_swap]
    exact neg_pos.2 hlt
  · left
    have hall := ha.forall_of_step (P := fun i => 0 < cross (v i) (v (σ i)) (v (σ (σ i)))) hpos
      fun i hi => (pos_iff_pos_of_mul_pos (hnext i)).1 hi
    intro i k hk hk'
    exact (pos_iff_pos_of_mul_pos (h i _ k (ha.ne_ne i) (ha.ne (σ i)) hk hk')).1 (hall i)

/-! ## Edges that rise -/

/-- Of two edges that rise, neither is to the right of the other where the ray's line meets them. -/
theorem TurnsLeft.level_le (h : TurnsLeft σ v) {i j : ι} (hi : Rises p (v i) (v (σ i)))
    (hj : Rises p (v j) (v (σ j)) ∨ Rises p (v (σ j)) (v j)) :
    (levelPoint (v j) (v (σ j)) p.2).1 ≤ (levelPoint (v i) (v (σ i)) p.2).1 := by
  have hside : 0 ≤ cross (v i) (v (σ i)) (levelPoint (v j) (v (σ j)) p.2) := by
    rcases hj with hj | hj
    · exact cross_levelPoint_nonneg hj (h.nonneg i j) (h.nonneg i (σ j))
    · rw [levelPoint_comm hj.lt.ne']
      exact cross_levelPoint_nonneg hj (h.nonneg i (σ j)) (h.nonneg i j)
  exact (cross_nonneg_iff hi.lt).1 hside

/-- At most one edge rises. -/
theorem TurnsLeft.rise_unique (h : TurnsLeft σ v) {i j : ι} (hi : Rises p (v i) (v (σ i)))
    (hj : Rises p (v j) (v (σ j))) : i = j := by
  have heq : (levelPoint (v j) (v (σ j)) p.2).1 = (levelPoint (v i) (v (σ i)) p.2).1 :=
    le_antisymm (h.level_le hi (Or.inl hj)) (h.level_le hj (Or.inl hi))
  -- the upper end of the one lies on the other
  have hzero : cross (v i) (v (σ i)) (v (σ j)) = 0 := by
    have hmean := cross_levelPoint (a := v i) (b := v (σ i)) hj.lt.ne p.2
    rw [cross_eq_level hi.lt.ne, heq] at hmean
    have h₁ : 0 ≤ ((v (σ j)).2 - p.2) * cross (v i) (v (σ i)) (v j) :=
      mul_nonneg (sub_nonneg.2 hj.2) (h.nonneg i j)
    have h₂ : 0 ≤ (p.2 - (v j).2) * cross (v i) (v (σ i)) (v (σ j)) :=
      mul_nonneg (sub_nonneg.2 hj.1.le) (h.nonneg i (σ j))
    have hsum : (p.2 - (v j).2) * cross (v i) (v (σ i)) (v (σ j)) = 0 := by
      have hlevel : (levelPoint (v j) (v (σ j)) p.2).2 = p.2 := rfl
      rw [hlevel, sub_self, mul_zero, mul_zero] at hmean
      linarith
    exact (mul_eq_zero.1 hsum).resolve_left (sub_pos.2 hj.1).ne'
  by_cases hcase : σ j = i
  · exact absurd (hcase ▸ hj.2) (not_le.2 hi.1)
  · by_contra hne
    have hne' : σ j ≠ σ i := fun heq' => hne (σ.injective heq').symm
    exact absurd hzero (h i (σ j) hcase hne').ne'

/-- Seen from inside, there are vertices below the ray. -/
theorem TurnsLeft.exists_below [Finite ι] [Nonempty ι] (ha : Around σ) (h : TurnsLeft σ v)
    (hin : Inside σ v p) : ∃ i, (v i).2 < p.2 := by
  by_contra hno
  have hge : ∀ i, p.2 ≤ (v i).2 := fun i => not_lt.1 fun hlt => hno ⟨i, hlt⟩
  obtain ⟨m, hm⟩ := Finite.exists_min fun i => (v (σ i)).2
  -- the lowest vertex `σ m` and its two neighbours
  have hpos := h.inside ha hin
  have hturn : 0 < cross (v m) (v (σ m)) (v (σ (σ m))) := h m _ (ha.ne_ne m) (ha.ne (σ m))
  have hlow : ∀ i, (v (σ m)).2 ≤ (v i).2 := by
    intro i
    simpa using hm (σ.symm i)
  have h₁ : 0 ≤ ((v m).2 - (v (σ m)).2) * cross (v (σ m)) (v (σ (σ m))) p :=
    mul_nonneg (sub_nonneg.2 (hlow m)) (hpos (σ m)).le
  have h₂ : 0 ≤ ((v (σ (σ m))).2 - (v (σ m)).2) * cross (v m) (v (σ m)) p :=
    mul_nonneg (sub_nonneg.2 (hlow _)) (hpos m).le
  have h₃ : (p.2 - (v (σ m)).2) * cross (v m) (v (σ m)) (v (σ (σ m))) ≤ 0 :=
    mul_nonpos_of_nonpos_of_nonneg (sub_nonpos.2 (hge _)) hturn.le
  have hsum := cross_heights (v m) (v (σ m)) (v (σ (σ m))) p
  -- so all three are at one height, and do not make a turn
  have hm0 : (v m).2 - (v (σ m)).2 = 0 :=
    (mul_eq_zero.1 (by linarith)).resolve_right (hpos (σ m)).ne'
  have hs0 : (v (σ (σ m))).2 - (v (σ m)).2 = 0 :=
    (mul_eq_zero.1 (by linarith)).resolve_right (hpos m).ne'
  have hflat : cross (v m) (v (σ m)) (v (σ (σ m))) = 0 := by
    rw [cross, sub_eq_zero.1 hm0, sub_eq_zero.1 hs0]
    ring
  exact hturn.ne' hflat

/-- … and vertices on it or above. -/
theorem TurnsLeft.exists_above [Finite ι] [Nonempty ι] (ha : Around σ) (h : TurnsLeft σ v)
    (hin : Inside σ v p) : ∃ i, p.2 ≤ (v i).2 := by
  by_contra hno
  have hlt : ∀ i, (v i).2 < p.2 := fun i => not_le.1 fun hle => hno ⟨i, hle⟩
  obtain ⟨m, hm⟩ := Finite.exists_max fun i => (v (σ i)).2
  have hpos := h.inside ha hin
  have hturn : 0 < cross (v m) (v (σ m)) (v (σ (σ m))) := h m _ (ha.ne_ne m) (ha.ne (σ m))
  have hhigh : ∀ i, (v i).2 ≤ (v (σ m)).2 := by
    intro i
    simpa using hm (σ.symm i)
  have h₁ : ((v m).2 - (v (σ m)).2) * cross (v (σ m)) (v (σ (σ m))) p ≤ 0 :=
    mul_nonpos_of_nonpos_of_nonneg (sub_nonpos.2 (hhigh m)) (hpos (σ m)).le
  have h₂ : ((v (σ (σ m))).2 - (v (σ m)).2) * cross (v m) (v (σ m)) p ≤ 0 :=
    mul_nonpos_of_nonpos_of_nonneg (sub_nonpos.2 (hhigh _)) (hpos m).le
  have h₃ : 0 < (p.2 - (v (σ m)).2) * cross (v m) (v (σ m)) (v (σ (σ m))) :=
    mul_pos (sub_pos.2 (hlt _)) hturn
  have hsum := cross_heights (v m) (v (σ m)) (v (σ (σ m))) p
  linarith

end Left

/-! ## What the parity tells -/

section Parity

variable [Field K] [LinearOrder K] [IsStrictOrderedRing K] [Fintype ι]
  {σ : Equiv.Perm ι} {v : ι → K × K} {p : K × K}

/-- A polygon that turns left has an edge that rises and one that falls, or none of either. -/
theorem TurnsLeft.rise_and_fall (h : TurnsLeft σ v) :
    (∃ u d, (Finset.univ.filter fun i => Rises p (v i) (v (σ i))) = {u} ∧
        (Finset.univ.filter fun i => Rises p (v (σ i)) (v i)) = {d}) ∨
      (Finset.univ.filter fun i => Rises p (v i) (v (σ i))) = ∅ ∧
        (Finset.univ.filter fun i => Rises p (v (σ i)) (v i)) = ∅ := by
  have hle : (Finset.univ.filter fun i => Rises p (v i) (v (σ i))).card ≤ 1 := by
    refine Finset.card_le_one.2 fun i hi j hj => ?_
    exact h.rise_unique (Finset.mem_filter.1 hi).2 (Finset.mem_filter.1 hj).2
  have hcard := card_rises_eq_card_falls (σ := σ) (v := v) (p := p)
  rcases Nat.le_one_iff_eq_zero_or_eq_one.1 hle with h0 | h1
  · right
    exact ⟨Finset.card_eq_zero.1 h0, Finset.card_eq_zero.1 (hcard.symm.trans h0)⟩
  · left
    obtain ⟨u, hu⟩ := Finset.card_eq_one.1 h1
    obtain ⟨d, hd⟩ := Finset.card_eq_one.1 (hcard.symm.trans h1)
    exact ⟨u, d, hu, hd⟩

theorem TurnsLeft.crossings_of_inside [Nonempty ι] (ha : Around σ) (h : TurnsLeft σ v)
    (hin : Inside σ v p) :
    crossings σ v p = 1 := by
  obtain ⟨i, hi⟩ := h.exists_below ha hin
  obtain ⟨j, hj⟩ := h.exists_above ha hin
  obtain ⟨k, hk⟩ := exists_rise ha hi hj
  have hpos := h.inside ha hin
  have hrise : (Finset.univ.filter fun i => Rises p (v i) (v (σ i)) ∧
      0 ≤ cross (v i) (v (σ i)) p) = {k} := by
    ext i
    simp only [Finset.mem_filter, Finset.mem_univ, true_and, Finset.mem_singleton]
    constructor
    · exact fun hi => h.rise_unique hi.1 hk
    · rintro rfl
      exact ⟨hk, (hpos i).le⟩
  have hfall : (Finset.univ.filter fun i => Rises p (v (σ i)) (v i) ∧
      cross (v i) (v (σ i)) p ≤ 0) = ∅ := by
    refine Finset.filter_eq_empty_iff.2 fun i _ hi => ?_
    exact absurd hi.2 (not_le.2 (hpos i))
  rw [crossings_eq, hrise, hfall, Finset.card_singleton, Finset.card_empty]

/-- Outside, the ray meets both of the two edges or neither: if it met one of them only, then the
point would be between them, or they would have changed places. -/
theorem TurnsLeft.crossings_of_outside (h : TurnsLeft σ v) (hout : Outside σ v p) :
    Even (crossings σ v p) := by
  rw [crossings_eq, ← Finset.filter_filter, ← Finset.filter_filter]
  rcases h.rise_and_fall (p := p) with ⟨u, d, hu, hd⟩ | ⟨hu, hd⟩
  · have hup : Rises p (v u) (v (σ u)) := by
      have hmem := Finset.mem_singleton_self u
      rw [← hu, Finset.mem_filter] at hmem
      exact hmem.2
    have hdown : Rises p (v (σ d)) (v d) := by
      have hmem := Finset.mem_singleton_self d
      rw [← hd, Finset.mem_filter] at hmem
      exact hmem.2
    have hiff : 0 ≤ cross (v u) (v (σ u)) p ↔ cross (v d) (v (σ d)) p ≤ 0 := by
      rw [← neg_nonneg (a := cross (v d) _ p), ← cross_swap, cross_nonneg_iff hup.lt,
        cross_nonneg_iff hdown.lt]
      constructor
      · intro hle
        by_contra hlt
        obtain ⟨e, he⟩ := h.outside hout
        have hu' := cross_levelPoint_nonneg hup (h.nonneg e u) (h.nonneg e (σ u))
        have hd' := cross_levelPoint_nonneg hdown (h.nonneg e (σ d)) (h.nonneg e d)
        exact absurd (cross_nonneg_of_between (not_le.1 hlt) hle hd' hu') (not_le.2 he)
      · intro hle
        have hlevel := h.level_le hup (Or.inr hdown)
        rw [levelPoint_comm hdown.lt.ne'] at hlevel
        exact hle.trans hlevel
    rw [hu, hd, Finset.filter_singleton, Finset.filter_singleton]
    by_cases hmeet : 0 ≤ cross (v u) (v (σ u)) p
    · rw [if_pos hmeet, if_pos (hiff.1 hmeet)]
      exact ⟨1, rfl⟩
    · rw [if_neg hmeet, if_neg (hiff.not.1 hmeet)]
      exact ⟨0, rfl⟩
  · rw [hu, hd]
    exact ⟨0, rfl⟩

/-- The ray from a point inside a strictly convex polygon meets an odd number of edges. -/
theorem StrictlyConvex.odd_crossings [Nonempty ι] (ha : Around σ) (h : StrictlyConvex σ v)
    (hin : Inside σ v p) : Odd (crossings σ v p) := by
  rcases h.turnsLeft ha (Classical.arbitrary ι) with hl | hr
  · rw [hl.crossings_of_inside ha hin]
    exact odd_one
  · rw [← crossings_symm, hr.crossings_of_inside ha.symm hin.symm]
    exact odd_one

/-- The ray from a point outside a strictly convex polygon meets an even number of edges. -/
theorem StrictlyConvex.even_crossings (ha : Around σ) (h : StrictlyConvex σ v)
    (hout : Outside σ v p) : Even (crossings σ v p) := by
  rcases h.turnsLeft ha hout.choose with hl | hr
  · exact hl.crossings_of_outside hout
  · rw [← crossings_symm]
    exact hr.crossings_of_outside hout.symm

end Parity

end Polygon
end Lib
end DtPhm
