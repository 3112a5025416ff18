import Mathlib.Algebra.Field.ZMod
import Mathlib.Algebra.CharP.Two
import Mathlib.Algebra.Polynomial.FieldDivision
import Mathlib.Tactic.LinearCombination

/-!
# Crc — cyclic redundancy checks as remainders of polynomials

A register of `w` bits takes the bits of a message one by one; the polynomial of its feedback is the
generator without its leading term.

* `poly` — the polynomial of a word of bits, the highest power first;
* `shiftIn`, `remainder` — the register, bit by bit; `generator` — what it divides by;
* `generator_dvd_remainder` — the register holds the remainder of the message;
* `remainder_eq_iff` — two messages leave the same remainder exactly if the generator divides their
  difference;
* `IsBurst`, `not_dvd_of_isBurst`, `not_dvd_of_odd` — differences that no generator misses;
* `shiftRight`, `iterate_shiftRight_eq_table` — registers that run the other way, and their tables.
-/

namespace DtPhm
namespace Lib
namespace Crc

open Polynomial

/-! ## Words of bits as polynomials -/

/-- The coefficient of a bit. -/
def coeffOf (b : Bool) : ZMod 2 := if b then 1 else 0

/-- The polynomial of a word of bits, the highest power first. -/
noncomputable def poly : List Bool → (ZMod 2)[X]
  | [] => 0
  | b :: bs => C (coeffOf b) * X ^ bs.length + poly bs

theorem coeffOf_xor (a b : Bool) : coeffOf (a ^^ b) = coeffOf a + coeffOf b := by
  cases a <;> cases b <;> decide

theorem poly_append (as bs : List Bool) :
    poly (as ++ bs) = poly as * X ^ bs.length + poly bs := by
  induction as with
  | nil => simp [poly]
  | cons a as ih =>
      rw [List.cons_append, poly, poly, ih, List.length_append, pow_add]
      ring

theorem poly_replicate_false (n : ℕ) : poly (List.replicate n false) = 0 := by
  induction n with
  | zero => rfl
  | succ n ih => simp [List.replicate_succ, poly, coeffOf, ih]

theorem poly_xor {as bs : List Bool} (h : as.length = bs.length) :
    poly (List.zipWith xor as bs) = poly as + poly bs := by
  induction as generalizing bs with
  | nil =>
      obtain rfl := List.length_eq_zero_iff.1 h.symm
      simp [poly]
  | cons a as ih =>
      cases bs with
      | nil => exact absurd h (Nat.succ_ne_zero _)
      | cons b bs =>
          have hlen : as.length = bs.length := Nat.succ.inj h
          rw [List.zipWith_cons_cons, poly, poly, poly, ih hlen, List.length_zipWith, ← hlen,
            Nat.min_self, coeffOf_xor, C_add]
          ring

theorem degree_poly_lt (bs : List Bool) : (poly bs).degree < bs.length := by
  induction bs with
  | nil => exact Polynomial.degree_zero.trans_lt (WithBot.bot_lt_coe _)
  | cons b bs ih =>
      have hlead : (C (coeffOf b) * X ^ bs.length).degree ≤ (bs.length : WithBot ℕ) :=
        degree_C_mul_X_pow_le _ _
      have hlt : (bs.length : WithBot ℕ) < ((b :: bs).length : ℕ) := by
        exact_mod_cast Nat.lt_succ_self bs.length
      calc (poly (b :: bs)).degree
          ≤ max (C (coeffOf b) * X ^ bs.length).degree (poly bs).degree := degree_add_le _ _
        _ ≤ (bs.length : WithBot ℕ) := max_le hlead ih.le
        _ < ((b :: bs).length : ℕ) := hlt

/-- A word with a bit that is set has a polynomial other than zero. -/
theorem poly_ne_zero {bs : List Bool} (h : true ∈ bs) : poly bs ≠ 0 := by
  induction bs with
  | nil => exact absurd h List.not_mem_nil
  | cons b bs ih =>
      cases b with
      | false =>
          have hmem : true ∈ bs := by simpa using h
          simpa [poly, coeffOf] using ih hmem
      | true =>
          -- the leading term is not cancelled, since the rest has a smaller degree
          intro hzero
          have hlead : X ^ bs.length = -poly bs := by
            apply eq_neg_of_add_eq_zero_left
            simpa [poly, coeffOf] using hzero
          have hdegree : (X ^ bs.length : (ZMod 2)[X]).degree = bs.length := degree_X_pow _
          rw [hlead, degree_neg] at hdegree
          exact absurd hdegree (degree_poly_lt bs).ne

theorem eval_one_poly (bs : List Bool) : (poly bs).eval 1 = (bs.count true : ZMod 2) := by
  induction bs with
  | nil => simp [poly]
  | cons b bs ih =>
      cases b with
      | false => simpa [poly, coeffOf] using ih
      | true =>
          rw [poly, eval_add, ih, List.count_cons_self, Nat.cast_add, add_comm]
          simp [coeffOf]

/-! ## The register -/

variable {w : ℕ}

/-- The bits of a register, the highest first. -/
def regBits (r : BitVec w) : List Bool := (List.range w).map r.getMsbD

@[simp] theorem length_regBits (r : BitVec w) : (regBits r).length = w := by simp [regBits]

/-- A register with feedback `g` takes a bit. -/
def shiftIn (g r : BitVec w) (b : Bool) : BitVec w :=
  if r.msb ^^ b then (r <<< 1) ^^^ g else r <<< 1

/-- A register takes a message. -/
def remainder (g r : BitVec w) (bits : List Bool) : BitVec w := bits.foldl (shiftIn g) r

/-- The polynomial that a register with feedback `g` divides by. -/
noncomputable def generator (g : BitVec w) : (ZMod 2)[X] := X ^ w + poly (regBits g)

theorem remainder_append (g r : BitVec w) (as bs : List Bool) :
    remainder g r (as ++ bs) = remainder g (remainder g r as) bs := List.foldl_append

theorem regBits_xor (r s : BitVec w) :
    regBits (r ^^^ s) = List.zipWith xor (regBits r) (regBits s) := by
  simp [regBits, List.zipWith_map, List.zipWith_self]

theorem poly_regBits_xor (r s : BitVec w) :
    poly (regBits (r ^^^ s)) = poly (regBits r) + poly (regBits s) := by
  rw [regBits_xor, poly_xor (by simp)]

theorem poly_regBits_eq_zero_iff {r : BitVec w} : poly (regBits r) = 0 ↔ r = 0#w := by
  constructor
  · intro h
    apply BitVec.eq_of_getMsbD_eq
    intro i hi
    rw [BitVec.getMsbD_zero]
    by_contra hne
    refine poly_ne_zero ?_ h
    exact List.mem_map.2 ⟨i, List.mem_range.2 hi, by simpa using hne⟩
  · rintro rfl
    have hzero : regBits (0#w) = List.replicate w false := by
      rw [List.eq_replicate_iff]
      simp [regBits]
    rw [hzero, poly_replicate_false]

/-- A shift multiplies by `X`, but for the bit that leaves. -/
theorem poly_regBits_shiftLeft (r : BitVec w) :
    poly (regBits r) * X = C (coeffOf r.msb) * X ^ w + poly (regBits (r <<< 1)) := by
  cases w with
  | zero =>
      obtain rfl := BitVec.eq_nil r
      simp [regBits, poly, coeffOf, BitVec.msb]
  | succ n =>
      have hcons : regBits r = r.msb :: (List.range n).map fun i => r.getMsbD (i + 1) := by
        rw [regBits, List.range_succ_eq_map, List.map_cons, List.map_map]
        rfl
      have hsnoc : regBits (r <<< 1) = ((List.range n).map fun i => r.getMsbD (i + 1)) ++
          [false] := by
        have hinit : (List.range n).map (r <<< 1).getMsbD =
            (List.range n).map fun i => r.getMsbD (i + 1) :=
          List.map_congr_left fun _ _ => BitVec.getMsbD_shiftLeft r 1
        have hlast : (r <<< 1).getMsbD n = false := by
          rw [BitVec.getMsbD_shiftLeft, BitVec.getMsbD_of_ge _ _ (Nat.le_refl _)]
        rw [regBits, List.range_succ, List.map_append, hinit, List.map_singleton, hlast]
      rw [hcons, hsnoc, poly, poly_append, List.length_map, List.length_range]
      simp only [poly, coeffOf, List.length_cons, List.length_nil, Bool.false_eq_true, if_false,
        C_0,
        pow_succ, pow_zero]
      ring

/-- The step lemma: a bit that is taken is the next digit of the dividend. -/
theorem generator_dvd_shiftIn (g r : BitVec w) (b : Bool) :
    generator g ∣ poly (regBits r) * X + C (coeffOf b) * X ^ w +
      poly (regBits (shiftIn g r b)) := by
  have hshift := poly_regBits_shiftLeft r
  refine ⟨C (coeffOf (r.msb ^^ b)), ?_⟩
  have hin : poly (regBits (shiftIn g r b)) =
      poly (regBits (r <<< 1)) + C (coeffOf (r.msb ^^ b)) * poly (regBits g) := by
    unfold shiftIn
    cases r.msb ^^ b with
    | false => simp [coeffOf]
    | true => simp [coeffOf, poly_regBits_xor]
  rw [hin, hshift, generator, coeffOf_xor, C_add]
  linear_combination CharTwo.add_self_eq_zero (poly (regBits (r <<< 1)))

/-- The register holds the remainder of what it held, followed by the message. -/
theorem generator_dvd_remainder (g r : BitVec w) (bits : List Bool) :
    generator g ∣ poly (regBits r) * X ^ bits.length + poly bits * X ^ w +
      poly (regBits (remainder g r bits)) := by
  -- on the message: the first bit is taken, and the rest divides what it leaves
  induction bits generalizing r with
  | nil =>
      refine ⟨0, ?_⟩
      simp only [remainder, List.foldl_nil, List.length_nil, pow_zero, poly]
      linear_combination CharTwo.add_self_eq_zero (poly (regBits r))
  | cons b bits ih =>
      obtain ⟨q, hq⟩ := generator_dvd_shiftIn g r b
      obtain ⟨q', hq'⟩ := ih (shiftIn g r b)
      refine ⟨q * X ^ bits.length + q', ?_⟩
      have hrest : remainder g r (b :: bits) = remainder g (shiftIn g r b) bits := rfl
      rw [hrest, List.length_cons, poly, pow_succ]
      linear_combination X ^ bits.length * hq + hq' -
        CharTwo.add_self_eq_zero (poly (regBits (shiftIn g r b)) * X ^ bits.length)

/-! ## Messages with the same remainder -/

theorem degree_generator (g : BitVec w) : (generator g).degree = w := by
  have hg : (poly (regBits g)).degree < w := by simpa using degree_poly_lt (regBits g)
  rw [generator, degree_add_eq_left_of_degree_lt, degree_X_pow]
  rwa [degree_X_pow]

/-- No register holds a multiple of the generator but zero. -/
theorem generator_dvd_regBits_iff {g r : BitVec w} :
    generator g ∣ poly (regBits r) ↔ r = 0#w := by
  have hr : (poly (regBits r)).degree < w := by simpa using degree_poly_lt (regBits r)
  constructor
  · intro h
    apply poly_regBits_eq_zero_iff.1
    apply eq_zero_of_dvd_of_degree_lt h
    rwa [degree_generator]
  · intro h
    rw [poly_regBits_eq_zero_iff.2 h]
    exact dvd_zero _

theorem shiftIn_xor (g r s : BitVec w) (a b : Bool) :
    shiftIn g (r ^^^ s) (a ^^ b) = shiftIn g r a ^^^ shiftIn g s b := by
  have hcancel : ∀ x y : BitVec w, x ^^^ g ^^^ (y ^^^ g) = x ^^^ y := by
    intro x y
    rw [BitVec.xor_comm y g, ← BitVec.xor_assoc, BitVec.xor_assoc x g g, BitVec.xor_self,
      BitVec.xor_zero]
  unfold shiftIn
  rw [BitVec.msb_xor, BitVec.shiftLeft_xor_distrib]
  cases r.msb <;> cases s.msb <;> cases a <;> cases b <;>
    simp only [Bool.xor_false, Bool.xor_true, Bool.not_true, Bool.not_false, Bool.false_eq_true,
      if_true, if_false, hcancel]
  all_goals first
    | rfl
    | exact BitVec.xor_assoc ..
    | rw [BitVec.xor_assoc, BitVec.xor_comm _ g, BitVec.xor_assoc]

/-- The remainder is linear. -/
theorem remainder_xor (g r s : BitVec w) {as bs : List Bool} (h : as.length = bs.length) :
    remainder g (r ^^^ s) (List.zipWith xor as bs) = remainder g r as ^^^ remainder g s bs := by
  induction as generalizing r s bs with
  | nil =>
      obtain rfl := List.length_eq_zero_iff.1 h.symm
      rfl
  | cons a as ih =>
      cases bs with
      | nil => exact absurd h (Nat.succ_ne_zero _)
      | cons b bs =>
          calc remainder g (r ^^^ s) (List.zipWith xor (a :: as) (b :: bs))
              = remainder g (shiftIn g (r ^^^ s) (a ^^ b)) (List.zipWith xor as bs) := rfl
            _ = remainder g (shiftIn g r a ^^^ shiftIn g s b) (List.zipWith xor as bs) := by
                rw [shiftIn_xor]
            _ = remainder g r (a :: as) ^^^ remainder g s (b :: bs) := ih _ _ (Nat.succ.inj h)

/-- A feedback with the lowest bit set: the generator has a constant term. -/
theorem isCoprime_generator_X_pow {g : BitVec w} (hg : g.getLsbD 0 = true) (n : ℕ) :
    IsCoprime (generator g) (X ^ n) := by
  apply IsCoprime.pow_right
  have hw : 0 < w := BitVec.lt_of_getLsbD hg
  obtain ⟨k, rfl⟩ : ∃ k, w = k + 1 := ⟨w - 1, by omega⟩
  have hlast : regBits g = (List.range k).map g.getMsbD ++ [true] := by
    have hbit : g.getMsbD k = true := by
      rw [BitVec.getMsbD_eq_getLsbD]
      simpa using hg
    rw [regBits, List.range_succ, List.map_append, List.map_singleton, hbit]
  -- the generator is one more than a multiple of `X`
  refine ⟨1, -(X ^ k + poly ((List.range k).map g.getMsbD)), ?_⟩
  rw [generator, hlast, poly_append]
  simp only [poly, coeffOf, if_true, C_1, List.length_cons, List.length_nil, pow_succ, pow_zero]
  ring

/-- A message leaves nothing exactly if the generator divides it. -/
theorem remainder_eq_zero_iff {g : BitVec w} (hg : g.getLsbD 0 = true) {bits : List Bool} :
    remainder g 0#w bits = 0#w ↔ generator g ∣ poly bits := by
  have hdvd := generator_dvd_remainder g 0#w bits
  rw [poly_regBits_eq_zero_iff.2 rfl, zero_mul, zero_add] at hdvd
  calc remainder g 0#w bits = 0#w
      ↔ generator g ∣ poly (regBits (remainder g 0#w bits)) := generator_dvd_regBits_iff.symm
    _ ↔ generator g ∣ poly bits * X ^ w :=
        ⟨fun h => (dvd_add_left h).1 hdvd, fun h => (dvd_add_right h).1 hdvd⟩
    _ ↔ generator g ∣ poly bits :=
        ⟨(isCoprime_generator_X_pow hg w).dvd_of_dvd_mul_right, fun h => h.mul_right _⟩

/-- Two messages of one length leave the same exactly if the generator divides their difference. -/
theorem remainder_eq_iff {g : BitVec w} (hg : g.getLsbD 0 = true) (r : BitVec w)
    {as bs : List Bool} (h : as.length = bs.length) :
    remainder g r as = remainder g r bs ↔ generator g ∣ poly (List.zipWith xor as bs) := by
  have hxor := remainder_xor g r r h
  rw [BitVec.xor_self] at hxor
  rw [← remainder_eq_zero_iff hg, hxor]
  exact BitVec.xor_eq_zero_iff.symm

/-! ## Messages with their checksum behind them -/

/-- A register that takes its own bits only moves them on. -/
theorem remainder_take_regBits (g r : BitVec w) {k : ℕ} (hk : k ≤ w) :
    remainder g r ((regBits r).take k) = r <<< k := by
  induction k with
  | zero => exact (BitVec.shiftLeft_zero r).symm
  | succ k ih =>
      have hlen : k < (regBits r).length := by
        rw [length_regBits]
        exact hk
      have hbit : (regBits r)[k] = (r <<< k).msb := by
        rw [BitVec.msb, BitVec.getMsbD_shiftLeft, Nat.zero_add]
        simp [regBits]
      rw [List.take_succ_eq_append_getElem hlen, remainder_append, ih (Nat.le_of_succ_le hk), hbit]
      show shiftIn g (r <<< k) (r <<< k).msb = r <<< (k + 1)
      rw [shiftIn, Bool.xor_self, if_neg (by decide), BitVec.shiftLeft_add]

/-- A message as it was sent and as it was received, each with a checksum: if the one sent fits, the
one received fits exactly if the generator divides their difference. -/
theorem fits_iff_dvd (g r : BitVec w) {sent received : List Bool} {c c' : BitVec w}
    (hlen : sent.length = received.length) (hsent : c = remainder g r sent) :
    c' = remainder g r received ↔
      generator g ∣ poly (List.zipWith xor (sent ++ regBits c) (received ++ regBits c')) := by
  have hdvd := generator_dvd_remainder g 0#w (List.zipWith xor sent received)
  have hxor := remainder_xor g r r hlen
  rw [BitVec.xor_self, ← hsent] at hxor
  rw [poly_regBits_eq_zero_iff.2 rfl, zero_mul, zero_add, hxor] at hdvd
  have hzip : List.zipWith xor (sent ++ regBits c) (received ++ regBits c') =
      List.zipWith xor sent received ++ regBits (c ^^^ c') := by
    rw [List.zipWith_append hlen, regBits_xor]
  -- what is left of the difference is what the two checksums differ by, beside the remainders
  have hsum : poly (List.zipWith xor (sent ++ regBits c) (received ++ regBits c')) +
      poly (regBits (remainder g r received ^^^ c')) =
      poly (List.zipWith xor sent received) * X ^ w +
        poly (regBits (c ^^^ remainder g r received)) := by
    rw [hzip, poly_append, length_regBits]
    simp only [poly_regBits_xor]
    linear_combination CharTwo.add_self_eq_zero (poly (regBits c'))
  have hfits : c' = remainder g r received ↔ remainder g r received ^^^ c' = 0#w := by
    rw [BitVec.xor_eq_zero_iff]
    exact eq_comm
  rw [hfits, ← generator_dvd_regBits_iff]
  rw [← hsum] at hdvd
  exact ⟨fun h => (dvd_add_left h).1 hdvd, fun h => (dvd_add_right h).1 hdvd⟩

/-! ## Differences that are noticed -/

/-- The bits that are set lie within `n` neighbours. -/
def IsBurst (n : ℕ) (e : List Bool) : Prop :=
  ∃ a m b, e = List.replicate a false ++ m ++ List.replicate b false ∧ m.length ≤ n ∧ true ∈ m

/-- A burst that fits into the register is no multiple of the generator. -/
theorem not_dvd_of_isBurst {g : BitVec w} (hg : g.getLsbD 0 = true) {e : List Bool}
    (he : IsBurst w e) : ¬generator g ∣ poly e := by
  obtain ⟨a, m, b, rfl, hlen, hm⟩ := he
  intro hdvd
  have hpoly : poly (List.replicate a false ++ m ++ List.replicate b false) = poly m * X ^ b := by
    rw [poly_append, poly_append, poly_replicate_false, poly_replicate_false, zero_mul, zero_add,
      add_zero, List.length_replicate]
  have hm' : generator g ∣ poly m := by
    apply (isCoprime_generator_X_pow hg b).dvd_of_dvd_mul_right
    rwa [← hpoly]
  refine poly_ne_zero hm (eq_zero_of_dvd_of_degree_lt hm' ?_)
  calc (poly m).degree < m.length := degree_poly_lt m
    _ ≤ (w : WithBot ℕ) := by exact_mod_cast hlen
    _ = (generator g).degree := (degree_generator g).symm

/-- A generator with an even number of terms divides nothing with an odd number of them. -/
theorem not_dvd_of_odd {g : BitVec w} (hg : Odd ((regBits g).count true)) {e : List Bool}
    (he : Odd (e.count true)) : ¬generator g ∣ poly e := by
  rintro ⟨q, hq⟩
  have hgen : (generator g).eval 1 = 0 := by
    rw [generator, eval_add, eval_one_poly, eval_pow, eval_X, one_pow,
      ZMod.natCast_eq_one_iff_odd.2 hg]
    decide
  have hzero : (e.count true : ZMod 2) = 0 := by
    calc (e.count true : ZMod 2) = (poly e).eval 1 := (eval_one_poly e).symm
      _ = (generator g).eval 1 * q.eval 1 := by rw [hq, eval_mul]
      _ = 0 := by rw [hgen, zero_mul]
  rw [ZMod.natCast_eq_one_iff_odd.2 he] at hzero
  exact absurd hzero (by decide)

/-- A difference of a message and its checksum that is never missed: bits close together, or an odd
number of them. -/
def Noticed (n : ℕ) (e : List Bool) : Prop := IsBurst n e ∨ Odd (e.count true)

theorem not_dvd_of_noticed {g : BitVec w} (hg : g.getLsbD 0 = true)
    (hodd : Odd ((regBits g).count true)) {e : List Bool} (he : Noticed w e) :
    ¬generator g ∣ poly e :=
  he.elim (not_dvd_of_isBurst hg) (not_dvd_of_odd hodd)

/-! ## A byte at a time -/

/-- A register shifts without a bit coming in. -/
def shiftLeft (g r : BitVec w) : BitVec w := if r.msb then (r <<< 1) ^^^ g else r <<< 1

theorem shiftIn_false (g r : BitVec w) : shiftIn g r false = shiftLeft g r := by
  rw [shiftIn, Bool.xor_false, shiftLeft]

theorem remainder_replicate_false (g r : BitVec w) (n : ℕ) :
    remainder g r (List.replicate n false) = (shiftLeft g)^[n] r := by
  induction n generalizing r with
  | zero => rfl
  | succ n ih =>
      calc remainder g r (List.replicate (n + 1) false)
          = remainder g (shiftIn g r false) (List.replicate n false) := rfl
        _ = (shiftLeft g)^[n] (shiftLeft g r) := by rw [shiftIn_false, ih]
        _ = (shiftLeft g)^[n + 1] r := (Function.iterate_succ_apply (shiftLeft g) n r).symm

/-- Bits that are taken one by one may as well be added at the top before the shifts. -/
theorem remainder_take (g r x : BitVec w) {k : ℕ} (hk : k ≤ w)
    (hx : ∀ i, k ≤ i → x.getMsbD i = false) :
    remainder g r ((regBits x).take k) = (shiftLeft g)^[k] (r ^^^ x) := by
  have hlen : ((regBits x).take k).length = k := by simpa using hk
  have hself : List.zipWith xor ((regBits x).take k) ((regBits x).take k) =
      List.replicate k false := by
    rw [List.eq_replicate_iff]
    refine ⟨by simpa using hk, ?_⟩
    intro b hb
    rw [List.zipWith_self] at hb
    obtain ⟨a, -, rfl⟩ := List.mem_map.1 hb
    exact Bool.xor_self a
  have hgone : x <<< k = 0#w := by
    apply BitVec.eq_of_getMsbD_eq
    intro i _
    rw [BitVec.getMsbD_shiftLeft, BitVec.getMsbD_zero]
    exact hx (i + k) (Nat.le_add_left k i)
  have hxor := remainder_xor g r x (Eq.refl ((regBits x).take k).length)
  rw [hself, remainder_replicate_false, remainder_take_regBits g x hk, hgone,
    BitVec.xor_zero] at hxor
  exact hxor.symm

/-- A byte at the top of a register. -/
def atTop (w : ℕ) (b : BitVec 8) : BitVec w := b.setWidth w <<< (w - 8)

theorem getMsbD_atTop (hw : 8 ≤ w) (b : BitVec 8) (i : ℕ) :
    (atTop w b).getMsbD i = b.getMsbD i := by
  have hle : decide (w - 8 ≤ i + (w - 8)) = true := decide_eq_true (Nat.le_add_left _ i)
  have hindex : i + (w - 8) + 8 - w = i := by omega
  rw [atTop, BitVec.getMsbD_shiftLeft, BitVec.getMsbD_setWidth, hle, hindex, Bool.true_and]

theorem atTop_eight (b : BitVec 8) : atTop 8 b = b := by simp [atTop]

/-- The bits of some bytes, the highest bit of each first. -/
def highFirst (bs : List UInt8) : List Bool := bs.flatMap fun b => regBits b.toBitVec

/-- The bits of some bytes, the lowest bit of each first. -/
def lowFirst (bs : List UInt8) : List Bool := bs.flatMap fun b => regBits b.toBitVec.reverse

theorem highFirst_append (bs cs : List UInt8) :
    highFirst (bs ++ cs) = highFirst bs ++ highFirst cs :=
  List.flatMap_append

theorem highFirst_singleton (b : UInt8) : highFirst [b] = regBits b.toBitVec :=
  List.flatMap_singleton ..

theorem length_highFirst (bs : List UInt8) : (highFirst bs).length = 8 * bs.length := by
  induction bs with
  | nil => rfl
  | cons b bs ih =>
      rw [highFirst, List.flatMap_cons, List.length_append, length_regBits, List.length_cons]
      rw [highFirst] at ih
      omega

theorem length_lowFirst (bs : List UInt8) : (lowFirst bs).length = 8 * bs.length := by
  induction bs with
  | nil => rfl
  | cons b bs ih =>
      rw [lowFirst, List.flatMap_cons, List.length_append, length_regBits, List.length_cons]
      rw [lowFirst] at ih
      omega

/-- The bits in which two messages differ, the lowest bit of each byte first. -/
def lowDifference (bs cs : List UInt8) : List Bool := List.zipWith xor (lowFirst bs) (lowFirst cs)

/-- The bits in which two messages differ. -/
def difference (bs cs : List UInt8) : List Bool := List.zipWith xor (highFirst bs) (highFirst cs)

theorem difference_append {bs bs' : List UInt8} (h : bs.length = bs'.length) (cs cs' : List UInt8) :
    difference (bs ++ cs) (bs' ++ cs') = difference bs bs' ++ difference cs cs' := by
  unfold difference
  rw [highFirst_append, highFirst_append, List.zipWith_append]
  rw [length_highFirst, length_highFirst, h]

theorem difference_cons (b b' : UInt8) (bs bs' : List UInt8) :
    difference (b :: bs) (b' :: bs') = difference [b] [b'] ++ difference bs bs' :=
  difference_append (show [b].length = [b'].length from rfl) bs bs'

theorem difference_self (bs : List UInt8) :
    difference bs bs = List.replicate (8 * bs.length) false := by
  rw [List.eq_replicate_iff]
  refine ⟨by simp [difference, length_highFirst], ?_⟩
  intro b hb
  rw [difference, List.zipWith_self] at hb
  obtain ⟨a, -, rfl⟩ := List.mem_map.1 hb
  exact Bool.xor_self a

/-- Two messages differ in one byte. -/
def OneByte (bs cs : List UInt8) : Prop :=
  ∃ front b c back, b ≠ c ∧ bs = front ++ b :: back ∧ cs = front ++ c :: back

theorem OneByte.isBurst {bs cs : List UInt8} (h : OneByte bs cs) :
    IsBurst 8 (difference bs cs) := by
  obtain ⟨front, b, c, back, hne, rfl, rfl⟩ := h
  have hmiddle : difference [b] [c] = regBits (b.toBitVec ^^^ c.toBitVec) := by
    rw [difference, highFirst_singleton, highFirst_singleton, regBits_xor]
  refine ⟨8 * front.length, difference [b] [c], 8 * back.length, ?_, ?_, ?_⟩
  · rw [← difference_self front, ← difference_self back, List.append_assoc,
      ← difference_cons, ← difference_append rfl]
  · rw [hmiddle, length_regBits]
  · -- otherwise the two bytes would be the same
    by_contra hno
    rw [hmiddle] at hno
    have hzero : b.toBitVec ^^^ c.toBitVec = 0#8 := by
      apply BitVec.eq_of_getMsbD_eq
      intro i hi
      rw [BitVec.getMsbD_zero]
      by_contra hbit
      exact hno (List.mem_map.2 ⟨i, List.mem_range.2 hi, by simpa using hbit⟩)
    exact hne (UInt8.toBitVec_inj.1 (BitVec.xor_eq_zero_iff.1 hzero))

/-- Eight shifts take a byte that was added at the top. -/
theorem remainder_byte (hw : 8 ≤ w) (g r : BitVec w) (b : BitVec 8) :
    remainder g r (regBits b) = (shiftLeft g)^[8] (r ^^^ atTop w b) := by
  have hbits : (regBits (atTop w b)).take 8 = regBits b := by
    rw [regBits, regBits, ← List.map_take, List.take_range, Nat.min_eq_left hw]
    exact List.map_congr_left fun i _ => getMsbD_atTop hw b i
  rw [← hbits]
  apply remainder_take g r _ hw
  intro i hi
  rw [getMsbD_atTop hw, BitVec.getMsbD_of_ge _ _ hi]

/-- A loop over bytes takes their bits, if a turn takes those of its byte. -/
theorem foldl_eq_remainder {ρ : Type*} {g : BitVec w} {turn : ρ → UInt8 → ρ}
    {bits : UInt8 → List Bool}
    (reg : ρ → BitVec w) (hturn : ∀ r b, reg (turn r b) = remainder g (reg r) (bits b)) (r : ρ)
    (bs : List UInt8) : reg (bs.foldl turn r) = remainder g (reg r) (bs.flatMap bits) := by
  induction bs generalizing r with
  | nil => rfl
  | cons b bs ih => rw [List.foldl_cons, ih, hturn, List.flatMap_cons, remainder_append]

/-! ## Registers that shift to the right -/

/-- A register with its lowest bit first shifts. -/
def shiftRight (g r : BitVec w) : BitVec w := if r.getLsbD 0 then (r >>> 1) ^^^ g else r >>> 1

theorem reverse_xor (r s : BitVec w) : (r ^^^ s).reverse = r.reverse ^^^ s.reverse := by
  apply BitVec.eq_of_getLsbD_eq
  intro i _
  simp only [BitVec.getLsbD_reverse, BitVec.getMsbD_xor, BitVec.getLsbD_xor]

theorem reverse_injective : Function.Injective (BitVec.reverse : BitVec w → BitVec w) :=
  Function.LeftInverse.injective (g := BitVec.reverse) fun _ => BitVec.reverse_reverse_eq

theorem reverse_ushiftRight (r : BitVec w) (k : ℕ) : (r >>> k).reverse = r.reverse <<< k := by
  apply BitVec.eq_of_getMsbD_eq
  intro i _
  rw [BitVec.getMsbD_reverse, BitVec.getMsbD_shiftLeft, BitVec.getMsbD_reverse,
    BitVec.getLsbD_ushiftRight, Nat.add_comm]

/-- It is the other register, read from the other end. -/
theorem reverse_shiftRight (g r : BitVec w) :
    (shiftRight g r).reverse = shiftLeft g.reverse r.reverse := by
  unfold shiftRight shiftLeft
  rw [BitVec.msb_reverse]
  split
  · rw [reverse_xor, reverse_ushiftRight]
  · exact reverse_ushiftRight r 1

theorem reverse_iterate_shiftRight (g r : BitVec w) (n : ℕ) :
    ((shiftRight g)^[n] r).reverse = (shiftLeft g.reverse)^[n] r.reverse :=
  Function.Semiconj.iterate_right (reverse_shiftRight g) n r

theorem iterate_shift_xor (g r s : BitVec w) (n : ℕ) :
    (shiftLeft g)^[n] (r ^^^ s) = (shiftLeft g)^[n] r ^^^ (shiftLeft g)^[n] s := by
  have hself : List.zipWith xor (List.replicate n false) (List.replicate n false) =
      List.replicate n false := by
    simp [List.zipWith_self]
  have hxor := remainder_xor g r s (Eq.refl (List.replicate n false).length)
  rwa [hself, remainder_replicate_false, remainder_replicate_false,
    remainder_replicate_false] at hxor

theorem iterate_shiftRight_xor (g r s : BitVec w) (n : ℕ) :
    (shiftRight g)^[n] (r ^^^ s) = (shiftRight g)^[n] r ^^^ (shiftRight g)^[n] s := by
  apply reverse_injective
  rw [reverse_xor, reverse_iterate_shiftRight, reverse_iterate_shiftRight,
    reverse_iterate_shiftRight, reverse_xor, iterate_shift_xor]

/-- While no bit that is set leaves, there is no feedback. -/
theorem iterate_shiftRight_of_low (g r : BitVec w) (n : ℕ) (hr : ∀ i < n, r.getLsbD i = false) :
    (shiftRight g)^[n] r = r >>> n := by
  induction n with
  | zero => exact (BitVec.ushiftRight_zero r).symm
  | succ n ih =>
      have hbit : (r >>> n).getLsbD 0 = false := by
        rw [BitVec.getLsbD_ushiftRight]
        exact hr n (Nat.lt_succ_self n)
      rw [Function.iterate_succ_apply', ih fun i hi => hr i (Nat.lt_succ_of_lt hi), shiftRight,
        hbit, if_neg (by decide), BitVec.shiftRight_add]

/-- Eight shifts look their lowest byte up in a table and move the others down. -/
theorem iterate_shiftRight_eq_table (g r : BitVec w) :
    (shiftRight g)^[8] r = (r >>> 8) ^^^ (shiftRight g)^[8] ((r.setWidth 8).setWidth w) := by
  have hlow : ∀ i, ((r.setWidth 8).setWidth w).getLsbD i = (decide (i < 8) && r.getLsbD i) := by
    intro i
    rw [BitVec.getLsbD_setWidth, BitVec.getLsbD_setWidth]
    by_cases hi : i < w
    · simp [hi]
    · simp [hi, BitVec.getLsbD_of_ge r i (Nat.not_lt.1 hi)]
  obtain ⟨high, hhigh⟩ : ∃ high, high = r ^^^ (r.setWidth 8).setWidth w := ⟨_, rfl⟩
  have hsplit : r = high ^^^ (r.setWidth 8).setWidth w := by
    rw [hhigh, BitVec.xor_assoc, BitVec.xor_self, BitVec.xor_zero]
  have hclear : ∀ i < 8, high.getLsbD i = false := by
    intro i hi
    rw [hhigh, BitVec.getLsbD_xor, hlow]
    simp [hi]
  have hmoved : high >>> 8 = r >>> 8 := by
    apply BitVec.eq_of_getLsbD_eq
    intro i _
    have hi : ¬8 + i < 8 := by omega
    rw [BitVec.getLsbD_ushiftRight, BitVec.getLsbD_ushiftRight, hhigh, BitVec.getLsbD_xor, hlow]
    simp [hi]
  calc (shiftRight g)^[8] r
      = (shiftRight g)^[8] (high ^^^ (r.setWidth 8).setWidth w) := by rw [← hsplit]
    _ = (shiftRight g)^[8] high ^^^ (shiftRight g)^[8] ((r.setWidth 8).setWidth w) :=
        iterate_shiftRight_xor ..
    _ = (r >>> 8) ^^^ (shiftRight g)^[8] ((r.setWidth 8).setWidth w) := by
        rw [iterate_shiftRight_of_low g high 8 hclear, hmoved]

/-- Eight shifts to the right take a byte, its lowest bit first. -/
theorem reverse_byte (hw : 8 ≤ w) (g r : BitVec w) (b : BitVec 8) :
    ((shiftRight g)^[8] (r ^^^ b.setWidth w)).reverse =
      remainder g.reverse r.reverse (regBits b.reverse) := by
  have htop : (b.setWidth w).reverse = atTop w b.reverse := by
    apply BitVec.eq_of_getMsbD_eq
    intro i hi
    rw [getMsbD_atTop hw, BitVec.getMsbD_reverse, BitVec.getMsbD_reverse, BitVec.getLsbD_setWidth]
    simp [hi]
  rw [reverse_iterate_shiftRight, reverse_xor, htop, remainder_byte hw]

/-- A turn that looks the lowest byte up in a table is eight shifts to the right. -/
theorem table_turn (hw : 8 ≤ w) {g : BitVec w} {table : BitVec 8 → BitVec w}
    (htable : ∀ x, table x = (shiftRight g)^[8] (x.setWidth w)) (r : BitVec w) (b : BitVec 8) :
    (r >>> 8) ^^^ table (r.setWidth 8 ^^^ b) = (shiftRight g)^[8] (r ^^^ b.setWidth w) := by
  have hindex : (r ^^^ b.setWidth w).setWidth 8 = r.setWidth 8 ^^^ b := by
    apply BitVec.eq_of_getLsbD_eq
    intro i hi
    have hiw : i < w := hi.trans_le hw
    simp [hi, hiw]
  have hgone : b.setWidth w >>> 8 = 0#w := by
    apply BitVec.eq_of_getLsbD_eq
    intro i _
    rw [BitVec.getLsbD_ushiftRight, BitVec.getLsbD_setWidth,
      BitVec.getLsbD_of_ge b (8 + i) (Nat.le_add_right 8 i), Bool.and_false, BitVec.getLsbD_zero]
  rw [iterate_shiftRight_eq_table, hindex, htable, BitVec.ushiftRight_xor_distrib, hgone,
    BitVec.xor_zero]

/-! ## Tables as numbers -/

/-- `shiftLeft` on numbers. -/
def shiftNat (w g r : ℕ) : ℕ := if 2 ^ (w - 1) ≤ r then (2 * r % 2 ^ w) ^^^ g else 2 * r % 2 ^ w

/-- `shiftRight` on numbers. -/
def shiftRightNat (g r : ℕ) : ℕ := if r % 2 = 1 then (r / 2) ^^^ g else r / 2

theorem toNat_shift (g r : BitVec w) : (shiftLeft g r).toNat = shiftNat w g.toNat r.toNat := by
  unfold shiftLeft shiftNat
  rw [BitVec.msb_eq_decide]
  simp only [decide_eq_true_eq]
  split
  · rw [BitVec.toNat_xor, BitVec.toNat_shiftLeft, Nat.shiftLeft_eq, pow_one, Nat.mul_comm]
  · rw [BitVec.toNat_shiftLeft, Nat.shiftLeft_eq, pow_one, Nat.mul_comm]

theorem toNat_shiftRight (g r : BitVec w) :
    (shiftRight g r).toNat = shiftRightNat g.toNat r.toNat := by
  have hbit : r.getLsbD 0 = true ↔ r.toNat % 2 = 1 := by
    rw [BitVec.getLsbD, Nat.testBit_zero, decide_eq_true_eq]
  unfold shiftRight shiftRightNat
  simp only [hbit]
  split
  · rw [BitVec.toNat_xor, BitVec.toNat_ushiftRight, Nat.shiftRight_eq_div_pow, pow_one]
  · rw [BitVec.toNat_ushiftRight, Nat.shiftRight_eq_div_pow, pow_one]

/-- A table that lists what eight turns do to the numbers of a byte. -/
theorem getD_table {ρ : Type*} {reg : ρ → BitVec w} {table : List ρ} {turn : BitVec w → BitVec w}
    {turnNat : ℕ → ℕ} (hturn : ∀ r, (turn r).toNat = turnNat r.toNat)
    (htable : (List.range 256).map turnNat^[8] = table.map fun r => (reg r).toNat) (d : ρ)
    {x : BitVec w} (hx : x.toNat < 256) : reg (table.getD x.toNat d) = turn^[8] x := by
  have hlen : table.length = 256 := by simpa using (congrArg List.length htable).symm
  have hentry := congrArg (fun l : List ℕ => l[x.toNat]?) htable
  simp only [List.getElem?_map, List.getElem?_range hx, Option.map_some] at hentry
  rw [List.getElem?_eq_getElem (hlen ▸ hx), Option.map_some, Option.some.injEq] at hentry
  apply BitVec.eq_of_toNat_eq
  rw [Function.Semiconj.iterate_right hturn 8 x, hentry, List.getD_eq_getElem?_getD,
    List.getElem?_eq_getElem (hlen ▸ hx), Option.getD_some]

/-! ## Tests of bits -/

/-- The test of a loop for the bit that leaves. -/
theorem and_twoPow_ne_zero_iff (r : BitVec w) {i : ℕ} (hi : i < w) :
    r &&& BitVec.twoPow w i ≠ 0#w ↔ r.getLsbD i = true := by
  rw [BitVec.and_twoPow]
  cases r.getLsbD i with
  | false => simp
  | true =>
      have hne : BitVec.twoPow w i ≠ 0#w := by
        intro h
        have hbit := congrArg (fun y => y.getLsbD i) h
        simp [hi] at hbit
      simpa using hne

theorem and_top_ne_zero_iff (r : BitVec w) (hw : 0 < w) :
    r &&& BitVec.twoPow w (w - 1) ≠ 0#w ↔ r.msb = true := by
  rw [BitVec.msb_eq_getLsbD_last]
  exact and_twoPow_ne_zero_iff r (Nat.sub_lt hw Nat.one_pos)

end Crc
end Lib
end DtPhm
