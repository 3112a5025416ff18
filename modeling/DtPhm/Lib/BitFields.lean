import DtPhm.Lib.Bytes
import Mathlib.Data.Nat.Bitwise

/-!
# BitFields — numbers of a fixed width packed into consecutive bytes

A byte memory is also a stream of bits, the lowest bit of each byte first:

* `bitAt` — bit `k` of the stream;
* `fieldBit w xs` — the stream in which the numbers `xs` stand one after the other, `w` bits each;
* `orByte` — or-ing a number into one byte, which is how a packer writes a piece of a field;
* `BitPick` — one entry of a table that gathers a field out of its bytes again.

`bitAt_orField` says what the three pieces of a field do to the stream, `testBit_gather` what a
table reads back.
-/

namespace DtPhm
namespace Lib

/-! ## Streams of bits -/

/-- Bit `k` of the memory, the lowest bit of each byte first. -/
def bitAt (m : Mem) (k : ℕ) : Bool :=
  (m (k / 8)).toNat.testBit (k % 8)

/-- Bit `k` of the stream in which the numbers `xs` take `w` bits each. -/
def fieldBit (w : ℕ) (xs : List ℕ) (k : ℕ) : Bool :=
  (xs.getD (k / w) 0).testBit (k % w)

theorem bitAt_mul_add (m : Mem) (b : ℕ) {j : ℕ} (hj : j < 8) :
    bitAt m (8 * b + j) = (m b).toNat.testBit j := by
  have hdiv : (8 * b + j) / 8 = b := by omega
  have hmod : (8 * b + j) % 8 = j := by omega
  rw [bitAt, hdiv, hmod]

theorem fieldBit_mul_add (w : ℕ) (xs : List ℕ) (c : ℕ) {j : ℕ} (hj : j < w) :
    fieldBit w xs (w * c + j) = (xs.getD c 0).testBit j := by
  have hw : 0 < w := by omega
  have hdiv : (w * c + j) / w = c := by
    rw [Nat.mul_add_div hw, Nat.div_eq_of_lt hj, Nat.add_zero]
  have hmod : (w * c + j) % w = j := by
    rw [Nat.mul_add_mod, Nat.mod_eq_of_lt hj]
  rw [fieldBit, hdiv, hmod]

/-- Appending a number sets the bits of its own field and no other. -/
theorem fieldBit_append {w : ℕ} (xs : List ℕ) {x : ℕ} (hx : x < 2 ^ w) (hw : 0 < w) (k : ℕ) :
    fieldBit w (xs ++ [x]) k =
      (fieldBit w xs k || (decide (w * xs.length ≤ k) && x.testBit (k - w * xs.length))) := by
  obtain ⟨c, j, hj, rfl⟩ : ∃ c j, j < w ∧ k = w * c + j :=
    ⟨k / w, k % w, Nat.mod_lt k hw, (Nat.div_add_mod k w).symm⟩
  rw [fieldBit_mul_add w _ c hj, fieldBit_mul_add w _ c hj]
  rcases Nat.lt_trichotomy c xs.length with hc | rfl | hc
  · -- the bit lies in an earlier field
    have hlt : w * c + w ≤ w * xs.length := by
      calc w * c + w = w * (c + 1) := by ring
        _ ≤ w * xs.length := Nat.mul_le_mul_left w hc
    have hnot : ¬ w * xs.length ≤ w * c + j := by omega
    simp [List.getD_eq_getElem?_getD, List.getElem?_append_left hc, hnot]
  · have hsub : w * xs.length + j - w * xs.length = j := by omega
    simp [List.getD_eq_getElem?_getD, hsub]
  · -- the bit lies behind all fields
    have hlt : w * xs.length + w ≤ w * c := by
      calc w * xs.length + w = w * (xs.length + 1) := by ring
        _ ≤ w * c := Nat.mul_le_mul_left w hc
    have hbig : x < 2 ^ (w * c + j - w * xs.length) := by
      refine Nat.lt_of_lt_of_le hx (Nat.pow_le_pow_right (by decide) ?_)
      omega
    have hout : (xs ++ [x]).length ≤ c := by
      rw [List.length_append]
      exact hc
    simp [List.getD_eq_getElem?_getD, List.getElem?_eq_none hout, List.getElem?_eq_none hc.le,
      Nat.testBit_lt_two_pow hbig]

/-! ## Writing a field -/

/-- The memory with the low byte of `x` or-ed into the byte at `a`. -/
def orByte (m : Mem) (a x : ℕ) : Mem :=
  Function.update m a (m a ||| UInt8.ofNat (x &&& 0xff))

theorem orByte_of_ne (m : Mem) {a b : ℕ} (x : ℕ) (h : b ≠ a) : orByte m a x b = m b := by
  simp [orByte, h]

theorem testBit_ofNat_low (x : ℕ) {j : ℕ} (hj : j < 8) :
    (UInt8.ofNat (x &&& 0xff)).toNat.testBit j = x.testBit j := by
  have hlow : x &&& 0xff = x % 2 ^ 8 := Nat.and_two_pow_sub_one_eq_mod x 8
  rw [hlow, UInt8.toNat_ofNat', Nat.mod_mod_of_dvd _ (dvd_refl _), Nat.testBit_mod_two_pow]
  simp [hj]

theorem bitAt_orByte (m : Mem) (a x k : ℕ) :
    bitAt (orByte m a x) k = (bitAt m k || (decide (k / 8 = a) && x.testBit (k % 8))) := by
  have hj : k % 8 < 8 := Nat.mod_lt k (by decide)
  by_cases h : k / 8 = a
  · rw [bitAt, bitAt, h, orByte, Function.update_self, UInt8.toNat_or, Nat.testBit_or,
      testBit_ofNat_low x hj]
    simp
  · rw [bitAt, orByte_of_ne m x h, bitAt]
    simp [h]

/-- The three bytes that a field of at most eleven bits can touch, when it starts at bit `off` of
byte `b`. -/
def orField (m : Mem) (b off x : ℕ) : Mem :=
  orByte (orByte (orByte m b (x <<< off)) (b + 1) (x >>> (8 - off))) (b + 2) (x >>> (16 - off))

/-- The pieces of a field set exactly the bits of the field. -/
theorem bitAt_orField (m : Mem) {b off x : ℕ} (hoff : off < 8) (hx : x < 2 ^ 11) (k : ℕ) :
    bitAt (orField m b off x) k =
      (bitAt m k || (decide (8 * b + off ≤ k) && x.testBit (k - (8 * b + off)))) := by
  rw [orField, bitAt_orByte, bitAt_orByte, bitAt_orByte, Nat.testBit_shiftLeft,
    Nat.testBit_shiftRight, Nat.testBit_shiftRight]
  have hdm := Nat.div_add_mod k 8
  have hmod : k % 8 < 8 := Nat.mod_lt k (by decide)
  -- which of the three bytes bit `k` lies in, if any
  obtain h | h | h | h | h :
      k / 8 < b ∨ k / 8 = b ∨ k / 8 = b + 1 ∨ k / 8 = b + 2 ∨ b + 3 ≤ k / 8 := by omega
  · have hnot : ¬ 8 * b + off ≤ k := by omega
    have h0 : ¬ k / 8 = b := by omega
    have h1 : ¬ k / 8 = b + 1 := by omega
    have h2 : ¬ k / 8 = b + 2 := by omega
    simp [hnot, h0, h1, h2]
  · have hsub : k - (8 * b + off) = k % 8 - off := by omega
    have hle : 8 * b + off ≤ k ↔ off ≤ k % 8 := by omega
    have h1 : ¬ k / 8 = b + 1 := by omega
    have h2 : ¬ k / 8 = b + 2 := by omega
    simp [h, hsub, hle]
  · have hsub : k - (8 * b + off) = 8 - off + k % 8 := by omega
    have hle : 8 * b + off ≤ k := by omega
    simp [h, hsub, hle]
  · have hsub : k - (8 * b + off) = 16 - off + k % 8 := by omega
    have hle : 8 * b + off ≤ k := by omega
    simp [h, hsub, hle]
  · have hbig : x < 2 ^ (k - (8 * b + off)) :=
      Nat.lt_of_lt_of_le hx (Nat.pow_le_pow_right (by decide) (by omega))
    have h0 : ¬ k / 8 = b := by omega
    have h1 : ¬ k / 8 = b + 1 := by omega
    have h2 : ¬ k / 8 = b + 2 := by omega
    simp [h0, h1, h2, Nat.testBit_lt_two_pow hbig]

/-! ## Gathering a field -/

/-- One piece of a field: the bits `mask` of a byte shifted right by `rshift`, moved to `lshift`. -/
structure BitPick where
  byte : ℕ
  rshift : ℕ
  mask : ℕ
  lshift : ℕ
deriving Repr, DecidableEq

namespace BitPick

/-- What the pick adds to the value; a pick with an empty mask is not used. -/
def piece (m : Mem) (d : BitPick) : ℕ :=
  if d.mask ≠ 0 then (((m d.byte).toNat >>> d.rshift) &&& d.mask) <<< d.lshift else 0

/-- Bit `j` of the mask carries bit `p + d.lshift + j` of the stream. -/
def Aligned (w p : ℕ) (d : BitPick) : Prop :=
  d.mask < 2 ^ 8 ∧ ∀ j < 8, d.mask.testBit j = true →
    8 * d.byte + (d.rshift + j) = p + (d.lshift + j) ∧ d.rshift + j < 8 ∧ d.lshift + j < w

instance (w p : ℕ) (d : BitPick) : Decidable (d.Aligned w p) :=
  inferInstanceAs (Decidable (_ ∧ _))

/-- The pick yields bit `k` of the value. -/
def Covers (d : BitPick) (k : ℕ) : Prop :=
  d.lshift ≤ k ∧ d.mask.testBit (k - d.lshift) = true

instance (d : BitPick) (k : ℕ) : Decidable (d.Covers k) :=
  inferInstanceAs (Decidable (_ ∧ _))

/-- A mask of eight bits has no bit from the ninth on. -/
theorem Covers.sub_lt {d : BitPick} {k : ℕ} (hmask : d.mask < 2 ^ 8) (hk : d.Covers k) :
    k - d.lshift < 8 := by
  by_contra hge
  have hbig : d.mask < 2 ^ (k - d.lshift) :=
    Nat.lt_of_lt_of_le hmask (Nat.pow_le_pow_right (by decide) (by omega))
  have hfalse := Nat.testBit_lt_two_pow hbig
  rw [hk.2] at hfalse
  exact absurd hfalse (by decide)

theorem testBit_piece_of_covers {m : Mem} {w p k : ℕ} {d : BitPick} (h : d.Aligned w p)
    (hk : d.Covers k) : (d.piece m).testBit k = bitAt m (p + k) := by
  have hj : k - d.lshift < 8 := hk.sub_lt h.1
  have hmask : d.mask ≠ 0 := by
    intro h0
    have := hk.2
    simp [h0] at this
  obtain ⟨heq, hlt, -⟩ := h.2 _ hj hk.2
  have hpos : p + k = 8 * d.byte + (d.rshift + (k - d.lshift)) := by
    have := hk.1
    omega
  rw [hpos, bitAt_mul_add m d.byte hlt, piece, if_pos hmask, Nat.testBit_shiftLeft,
    Nat.testBit_and, Nat.testBit_shiftRight, hk.2]
  simp [hk.1]

theorem testBit_piece_of_not_covers {m : Mem} {k : ℕ} {d : BitPick} (hk : ¬ d.Covers k) :
    (d.piece m).testBit k = false := by
  rw [piece]
  split
  · rw [Nat.testBit_shiftLeft, Nat.testBit_and]
    by_cases hle : d.lshift ≤ k
    · have hbit : d.mask.testBit (k - d.lshift) = false := by
        cases hb : d.mask.testBit (k - d.lshift) with
        | false => rfl
        | true => exact absurd ⟨hle, hb⟩ hk
      simp [hbit]
    · simp [hle]
  · simp

theorem Aligned.lt_of_covers {w p k : ℕ} {d : BitPick} (h : d.Aligned w p) (hk : d.Covers k) :
    k < w := by
  have hfield := (h.2 _ (hk.sub_lt h.1) hk.2).2.2
  have hle := hk.1
  omega

end BitPick

/-- The value gathered by a row of picks. -/
def gather (m : Mem) (picks : List BitPick) : ℕ :=
  picks.foldl (fun value d => value ||| d.piece m) 0

theorem testBit_foldl_piece (m : Mem) (picks : List BitPick) (value k : ℕ) :
    (picks.foldl (fun value d => value ||| d.piece m) value).testBit k =
      (value.testBit k || picks.any fun d => (d.piece m).testBit k) := by
  induction picks generalizing value with
  | nil => simp
  | cons d picks ih => simp [ih, Bool.or_assoc]

/-- A row whose picks are aligned with position `p` and cover `w` bits reads the field at `p`. -/
theorem testBit_gather {m : Mem} {w p : ℕ} {picks : List BitPick}
    (halign : ∀ d ∈ picks, d.Aligned w p) (hcover : ∀ k < w, ∃ d ∈ picks, d.Covers k) (k : ℕ) :
    (gather m picks).testBit k = (decide (k < w) && bitAt m (p + k)) := by
  rw [gather, testBit_foldl_piece, Nat.zero_testBit, Bool.false_or]
  by_cases hk : k < w
  · rw [decide_eq_true hk, Bool.true_and]
    cases hb : bitAt m (p + k) with
    | true =>
      obtain ⟨d, hd, hcov⟩ := hcover k hk
      rw [List.any_eq_true]
      refine ⟨d, hd, ?_⟩
      rw [BitPick.testBit_piece_of_covers (halign d hd) hcov, hb]
    | false =>
      rw [List.any_eq_false]
      intro d hd
      by_cases hcov : d.Covers k
      · simp [BitPick.testBit_piece_of_covers (halign d hd) hcov, hb]
      · simp [BitPick.testBit_piece_of_not_covers hcov]
  · rw [decide_eq_false hk, Bool.false_and, List.any_eq_false]
    intro d hd
    have hcov : ¬ d.Covers k := fun hcov => hk ((halign d hd).lt_of_covers hcov)
    simp [BitPick.testBit_piece_of_not_covers hcov]

end Lib
end DtPhm
