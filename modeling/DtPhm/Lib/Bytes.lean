import Mathlib.Logic.Function.Basic
import Mathlib.Data.List.Basic
import Mathlib.Tactic.Ring
import Mathlib.Tactic.Linarith

/-!
# Bytes — byte memories, regular files and sweeps over slots

* `Mem` — a byte memory, addressed by natural numbers, with `load`, `store` and `memmove`;
* `File` — a regular file: its content and its length.  A read stops at the end of the file, a write
  past the end leaves a hole that reads as zeros;
* `leBytes`, `leValue` — numbers as bytes, the lowest byte first;
* `sweep` — the loop that walks over equally spaced slots and zeroes the first byte of those whose
  two leading bytes meet a condition.
-/

namespace DtPhm
namespace Lib

/-! ## Memories -/

/-- A byte memory. -/
abbrev Mem := ℕ → UInt8

/-- The `n` bytes at address `a`. -/
def load (m : Mem) (a n : ℕ) : List UInt8 :=
  (List.range n).map fun i => m (a + i)

/-- The memory with the bytes `bs` at address `a`. -/
def store (m : Mem) (a : ℕ) (bs : List UInt8) : Mem := fun x =>
  if a ≤ x ∧ x < a + bs.length then bs.getD (x - a) 0 else m x

@[simp] theorem length_load (m : Mem) (a n : ℕ) : (load m a n).length = n := by
  simp [load]

theorem getD_load (m : Mem) (a : ℕ) {n i : ℕ} (h : i < n) : (load m a n).getD i 0 = m (a + i) := by
  simp [load, List.getD_eq_getElem?_getD, List.getElem?_map, List.getElem?_range h]

theorem load_congr {m m' : Mem} {a n : ℕ} (h : ∀ i < n, m (a + i) = m' (a + i)) :
    load m a n = load m' a n := by
  apply List.map_congr_left
  intro i hi
  exact h i (List.mem_range.1 hi)

theorem load_add (m : Mem) (a n k : ℕ) : load m a (n + k) = load m a n ++ load m (a + n) k := by
  rw [load, List.range_add, List.map_append, List.map_map]
  simp [load, Function.comp_def, Nat.add_assoc]

/-- What is loaded in one piece is loaded in two. -/
theorem load_eq_append {m : Mem} {a n k : ℕ} {xs ys : List UInt8} (h : load m a (n + k) = xs ++ ys)
    (hlen : xs.length = n) : load m a n = xs ∧ load m (a + n) k = ys := by
  rw [load_add] at h
  exact List.append_inj h (by simp [hlen])

theorem load_update_of_le (m : Mem) {a n : ℕ} (b : UInt8) (h : n ≤ a) :
    load (Function.update m a b) 0 n = load m 0 n := by
  apply load_congr
  intro i hi
  exact Function.update_of_ne (by omega) _ _

/-- A byte is written behind those that are loaded. -/
theorem load_update_add (m : Mem) (a n : ℕ) (b : UInt8) :
    load (Function.update m (a + n) b) a (n + 1) = load m a n ++ [b] := by
  have hfront : load (Function.update m (a + n) b) a n = load m a n := by
    apply load_congr
    intro i hi
    exact Function.update_of_ne (by omega) _ _
  rw [load_add, hfront]
  simp [load]

theorem load_update_succ (m : Mem) (n : ℕ) (b : UInt8) :
    load (Function.update m n b) 0 (n + 1) = load m 0 n ++ [b] := by
  simpa using load_update_add m 0 n b

theorem store_of_lt (m : Mem) {a x : ℕ} (bs : List UInt8) (h : x < a) : store m a bs x = m x := by
  have : ¬(a ≤ x ∧ x < a + bs.length) := by omega
  simp [store, this]

theorem store_of_le (m : Mem) {a x : ℕ} (bs : List UInt8) (h : a + bs.length ≤ x) :
    store m a bs x = m x := by
  have : ¬(a ≤ x ∧ x < a + bs.length) := by omega
  simp [store, this]

theorem store_add (m : Mem) (a : ℕ) {i : ℕ} {bs : List UInt8} (h : i < bs.length) :
    store m a bs (a + i) = bs.getD i 0 := by
  simp [store, h]

/-- What was stored after a prefix of `k` bytes is loaded back from address `a + k`. -/
theorem load_store_append (m : Mem) (a : ℕ) (hd bs : List UInt8) :
    load (store m a (hd ++ bs)) (a + hd.length) bs.length = bs := by
  apply List.ext_getElem
  · simp
  · intro i h₁ h₂
    have hlt : hd.length + i < (hd ++ bs).length := by
      simpa using h₂
    have hat : store m a (hd ++ bs) (a + hd.length + i) = bs.getD i 0 := by
      rw [Nat.add_assoc, store_add m a hlt]
      simp [List.getD_eq_getElem?_getD, List.getElem?_append_right]
    simp [load, hat, h₂]

/-- Bytes that are stored behind others. -/
theorem load_store_end (m : Mem) (n : ℕ) (bs : List UInt8) :
    load (store m n bs) 0 (n + bs.length) = load m 0 n ++ bs := by
  have hold : load (store m n bs) 0 n = load m 0 n :=
    load_congr fun i hi => store_of_lt m bs (by omega)
  have hnew : load (store m n bs) (0 + n) bs.length = bs := by
    simpa using load_store_append m n [] bs
  rw [load_add, hold, hnew]

theorem load_drop (m : Mem) (a : ℕ) {n k : ℕ} (h : k ≤ n) :
    (load m a n).drop k = load m (a + k) (n - k) := by
  obtain ⟨j, rfl⟩ := Nat.exists_eq_add_of_le h
  rw [load_add, List.drop_append_of_le_length (by simp), List.drop_of_length_le (by simp),
    List.nil_append, Nat.add_sub_cancel_left]

theorem load_take (m : Mem) (a : ℕ) {n k : ℕ} (h : k ≤ n) : (load m a n).take k = load m a k := by
  obtain ⟨j, rfl⟩ := Nat.exists_eq_add_of_le h
  rw [load_add, List.take_append_of_le_length (by simp), List.take_of_length_le (by simp)]

/-- `memmove`: the source is read before the destination is written. -/
def memmove (m : Mem) (dst src n : ℕ) : Mem := store m dst (load m src n)

/-- What is loaded after a move to the beginning. -/
theorem load_memmove (m : Mem) (src : ℕ) {n k : ℕ} (h : k ≤ n) :
    load (memmove m 0 src n) 0 k = load m src k := by
  have hload := load_store_append m 0 [] (load m src n)
  rw [List.nil_append, List.length_nil, length_load] at hload
  rw [memmove, ← load_take _ _ h, ← load_take _ _ h, hload]

/-! ## Files -/

/-- The content and the length of a regular file; what stands past the end is not part of it. -/
structure File where
  content : Mem
  length : ℕ

namespace File

/-- `lseek` to `a`, then `read` of `n` bytes: what there is of them before the end of the file. -/
def read (f : File) (a n : ℕ) : List UInt8 :=
  load f.content a (min n (f.length - a))

/-- `lseek` to `a`, then `write` of `bs`: a gap before `a` is filled with zeros. -/
def write (f : File) (a : ℕ) (bs : List UInt8) : File where
  content := store (fun x => if x < f.length then f.content x else 0) a bs
  length := max f.length (a + bs.length)

/-- The file is `len` bytes long, and its bytes are those of `m`. -/
def HasContent (f : File) (len : ℕ) (m : Mem) : Prop :=
  f.length = len ∧ ∀ x < len, f.content x = m x

/-- A read inside the file is a load. -/
theorem HasContent.read {f : File} {len a n : ℕ} {m : Mem} (h : f.HasContent len m)
    (hin : a + n ≤ len) : f.read a n = load m a n := by
  rcases h with ⟨rfl, hbytes⟩
  have hmin : min n (f.length - a) = n := by omega
  rw [File.read, hmin]
  apply load_congr
  intro i hi
  exact hbytes (a + i) (by omega)

/-- A write inside the file is a store. -/
theorem HasContent.write {f : File} {len a : ℕ} {m : Mem} {bs : List UInt8}
    (h : f.HasContent len m) (hin : a + bs.length ≤ len) :
    (f.write a bs).HasContent len (store m a bs) := by
  rcases h with ⟨rfl, hbytes⟩
  refine ⟨by simp [File.write, hin], ?_⟩
  intro x hx
  simp [File.write, store, hx, hbytes x hx]

end File

/-! ## Little-endian numbers -/

/-- The `n` low bytes of `x`, the lowest one first. -/
def leBytes : ℕ → ℕ → List UInt8
  | 0, _ => []
  | n + 1, x => UInt8.ofNat x :: leBytes n (x / 256)

/-- The number that these bytes stand for, the lowest byte first. -/
def leValue : List UInt8 → ℕ
  | [] => 0
  | b :: bs => b.toNat + 256 * leValue bs

@[simp] theorem length_leBytes (n x : ℕ) : (leBytes n x).length = n := by
  induction n generalizing x with
  | zero => rfl
  | succ n ih => simp [leBytes, ih]

theorem leValue_leBytes (n x : ℕ) : leValue (leBytes n x) = x % 256 ^ n := by
  induction n generalizing x with
  | zero => simp [leBytes, leValue, Nat.mod_one]
  | succ n ih =>
      calc
        leValue (leBytes (n + 1) x)
            = x % 256 + 256 * (x / 256 % 256 ^ n) := by simp [leBytes, leValue, ih]
        _ = x % 256 ^ (n + 1) := by
              rw [Nat.pow_succ', Nat.mod_mul]

theorem leValue_lt : ∀ bs : List UInt8, leValue bs < 256 ^ bs.length := by
  intro bs
  induction bs with
  | nil => simp [leValue]
  | cons b bs ih =>
      have hb := b.toNat_lt
      rw [leValue, List.length_cons, Nat.pow_succ]
      omega

/-! ## The two bytes of a number, the higher one first -/

theorem high_or_low (x : ℕ) : (x / 256) <<< 8 ||| x % 256 = x := by
  have hlow : x % 256 < 2 ^ 8 := Nat.mod_lt _ (by decide)
  rw [← Nat.shiftLeft_add_eq_or_of_lt hlow, Nat.shiftLeft_eq]
  exact Nat.div_add_mod' x 256

theorem toNat_high_or_low (high low : UInt8) :
    (high.toUInt16 <<< 8 ||| low.toUInt16).toNat = high.toNat * 256 + low.toNat := by
  have hhigh := high.toNat_lt
  have hlow := low.toNat_lt
  have hshift : high.toNat <<< 8 % 65536 = high.toNat <<< 8 := by
    rw [Nat.shiftLeft_eq]
    omega
  simp only [UInt16.toNat_or, UInt16.toNat_shiftLeft, UInt8.toNat_toUInt16]
  rw [show (8 : UInt16).toNat % 16 = 8 by decide]
  calc
    high.toNat <<< 8 % 65536 ||| low.toNat = high.toNat <<< 8 ||| low.toNat := by rw [hshift]
    _ = high.toNat <<< 8 + low.toNat := (Nat.shiftLeft_add_eq_or_of_lt hlow _).symm
    _ = high.toNat * 256 + low.toNat := by rw [Nat.shiftLeft_eq]

/-- A word is put together from its two bytes. -/
theorem high_or_low_bytes (w : UInt16) :
    (w >>> 8).toUInt8.toUInt16 <<< 8 ||| w.toUInt8.toUInt16 = w := by
  have hlt : w.toNat < 65536 := w.toNat_lt
  apply UInt16.toNat_inj.1
  rw [toNat_high_or_low, UInt16.toNat_toUInt8, UInt16.toNat_toUInt8, UInt16.toNat_shiftRight,
    show (8 : UInt16).toNat % 16 = 8 by decide, Nat.shiftRight_eq_div_pow]
  omega

/-! ## Sweeps -/

/-- Zero the first byte of the slot at `a` when its two leading bytes meet `drop`. -/
def clearHead (drop : UInt8 → UInt8 → Bool) (m : Mem) (a : ℕ) : Mem :=
  if drop (m a) (m (a + 1)) then Function.update m a 0 else m

/-- `clearHead` on `n` slots, `size` bytes apart, the first one at `a`. -/
def sweep (drop : UInt8 → UInt8 → Bool) (size : ℕ) : ℕ → ℕ → Mem → Mem
  | 0, _, m => m
  | n + 1, a, m => sweep drop size n (a + size) (clearHead drop m a)

variable {drop : UInt8 → UInt8 → Bool} {size : ℕ}

theorem clearHead_of_ne {m : Mem} {a x : ℕ} (h : x ≠ a) : clearHead drop m a x = m x := by
  unfold clearHead
  split
  · exact Function.update_of_ne h _ _
  · rfl

theorem clearHead_self (m : Mem) (a : ℕ) :
    clearHead drop m a a = if drop (m a) (m (a + 1)) then 0 else m a := by
  unfold clearHead
  split
  · exact Function.update_self a 0 m
  · rfl

theorem update_eq_store (m : Mem) (a : ℕ) (b : UInt8) : Function.update m a b = store m a [b] := by
  funext x
  by_cases hx : x = a
  · subst hx
    simp [store]
  · have hout : ¬(a ≤ x ∧ x < a + [b].length) := by
      rw [List.length_singleton]
      omega
    rw [Function.update_of_ne hx, store, if_neg hout]

/-- The file operations of `clearHead`. -/
theorem File.HasContent.clearHead {f : File} {len a : ℕ} {m : Mem} (h : f.HasContent len m)
    (hin : a < len) :
    (if drop (m a) (m (a + 1)) then f.write a [0] else f).HasContent len (clearHead drop m a) := by
  unfold Lib.clearHead
  split
  · rw [update_eq_store]
    exact h.write hin
  · exact h

/-- A sweep touches the first byte of a slot and no other. -/
theorem sweep_of_ne {n : ℕ} : ∀ {a x : ℕ} {m : Mem}, (∀ j < n, x ≠ a + j * size) →
    sweep drop size n a m x = m x := by
  induction n with
  | zero =>
      intro a x m _
      rfl
  | succ n ih =>
      intro a x m h
      have htail : ∀ j < n, x ≠ a + size + j * size := by
        intro j hj hx
        refine h (j + 1) (by omega) ?_
        rw [hx]
        ring
      have hhead : x ≠ a := by
        simpa using h 0 (Nat.succ_pos n)
      calc
        sweep drop size (n + 1) a m x
            = sweep drop size n (a + size) (clearHead drop m a) x := rfl
        _ = clearHead drop m a x := ih htail
        _ = m x := clearHead_of_ne hhead

/-- What a sweep leaves in the first byte of each slot: the condition is read off the memory before
the sweep, since the slots before it do not reach into this one. -/
theorem sweep_slot {n : ℕ} (hsize : 2 ≤ size) : ∀ {a j : ℕ} {m : Mem}, j < n →
    sweep drop size n a m (a + j * size) =
      if drop (m (a + j * size)) (m (a + j * size + 1)) then 0 else m (a + j * size) := by
  induction n with
  | zero =>
      intro a j m hj
      omega
  | succ n ih =>
      intro a j m hj
      cases j with
      | zero =>
          -- the later slots all start after this one
          have hlater : ∀ i < n, a ≠ a + size + i * size := by
            intro i _
            omega
          have hkeep : sweep drop size n (a + size) (clearHead drop m a) a = clearHead drop m a a :=
            sweep_of_ne hlater
          simpa [sweep, clearHead_self] using hkeep
      | succ j =>
          have hpos : a + (j + 1) * size = a + size + j * size := by ring
          have h₀ : a + size + j * size ≠ a := by omega
          have h₁ : a + size + j * size + 1 ≠ a := by omega
          have := ih (a := a + size) (m := clearHead drop m a) (show j < n by omega)
          rw [clearHead_of_ne h₀, clearHead_of_ne h₁] at this
          simpa [sweep, hpos] using this

end Lib
end DtPhm
