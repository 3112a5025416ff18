import DtPhm.Lib.Bytes

/-!
# Flash — NOR flash memories

Programming can only clear bits, and erasing sets the bits of a whole block.

* `program`, `eraseBlock`, `Blank` — the memory after programming or erasing, and blank cells;
* `FlashOp`, `applyOps` — sequences of operations, of which a loss of power leaves a first part;
* `wordOps` — bytes programmed word by word, `applyOps_take_wordOps` — what a first part of that
  leaves;
* `load_program_of_blank` — what is programmed into blank cells can be read back.
-/

namespace DtPhm
namespace Lib

/-! ## Programming and erasing -/

/-- The memory after these bytes were programmed at address `a`. -/
def program (m : Mem) (a : ℕ) (bs : List UInt8) : Mem := fun x =>
  if a ≤ x ∧ x < a + bs.length then m x &&& bs.getD (x - a) 0 else m x

/-- The memory after `n` bytes at address `a` were erased. -/
def eraseBlock (m : Mem) (a n : ℕ) : Mem := fun x => if a ≤ x ∧ x < a + n then 0xff else m x

/-- The `n` bytes at address `a` are blank. -/
def Blank (m : Mem) (a n : ℕ) : Prop := ∀ i < n, m (a + i) = 0xff

instance (m : Mem) (a n : ℕ) : Decidable (Blank m a n) :=
  inferInstanceAs (Decidable (∀ i < n, m (a + i) = 0xff))

theorem program_of_outside (m : Mem) {a x : ℕ} (bs : List UInt8) (h : x < a ∨ a + bs.length ≤ x) :
    program m a bs x = m x := by
  have hnot : ¬(a ≤ x ∧ x < a + bs.length) := by omega
  simp [program, hnot]

theorem eraseBlock_of_outside (m : Mem) {a n x : ℕ} (h : x < a ∨ a + n ≤ x) :
    eraseBlock m a n x = m x := by
  have hnot : ¬(a ≤ x ∧ x < a + n) := by omega
  simp [eraseBlock, hnot]

@[simp] theorem program_nil (m : Mem) (a : ℕ) : program m a [] = m := by
  funext x
  exact program_of_outside m [] (by simp; omega)

theorem program_append (m : Mem) (a : ℕ) (bs bs' : List UInt8) :
    program m a (bs ++ bs') = program (program m a bs) (a + bs.length) bs' := by
  funext x
  by_cases hfirst : x < a + bs.length
  · rw [program_of_outside (program m a bs) bs' (.inl hfirst)]
    unfold program
    by_cases hle : a ≤ x
    · have hlong : x < a + (bs ++ bs').length := by
        rw [List.length_append]
        omega
      have hget : (bs ++ bs').getD (x - a) 0 = bs.getD (x - a) 0 := by
        rw [List.getD_eq_getElem?_getD, List.getD_eq_getElem?_getD,
          List.getElem?_append_left (by omega)]
      rw [if_pos ⟨hle, hlong⟩, if_pos ⟨hle, hfirst⟩, hget]
    · simp [hle]
  · unfold program
    have hsecond : ¬(a ≤ x ∧ x < a + bs.length) := by omega
    by_cases hlast : x < a + (bs.length + bs'.length)
    · have hget : (bs ++ bs').getD (x - a) 0 = bs'.getD (x - (a + bs.length)) 0 := by
        rw [List.getD_eq_getElem?_getD, List.getD_eq_getElem?_getD,
          List.getElem?_append_right (by omega)]
        congr 2
        omega
      have h₁ : a ≤ x ∧ x < a + (bs ++ bs').length := by
        rw [List.length_append]
        omega
      have h₂ : a + bs.length ≤ x ∧ x < a + bs.length + bs'.length := by omega
      rw [if_pos h₁, if_pos h₂, if_neg hsecond, hget]
    · have h₁ : ¬(a ≤ x ∧ x < a + (bs ++ bs').length) := by
        rw [List.length_append]
        omega
      have h₂ : ¬(a + bs.length ≤ x ∧ x < a + bs.length + bs'.length) := by omega
      rw [if_neg h₁, if_neg h₂, if_neg hsecond]

/-! ## Blank cells -/

theorem Blank.sub {m : Mem} {a n b k : ℕ} (h : Blank m a n) (hab : a ≤ b) (hk : b + k ≤ a + n) :
    Blank m b k := by
  intro i hi
  have := h (b - a + i) (by omega)
  rwa [show a + (b - a + i) = b + i by omega] at this

theorem Blank.congr {m m' : Mem} {a n : ℕ} (h : Blank m a n)
    (heq : ∀ x, a ≤ x → x < a + n → m' x = m x) : Blank m' a n := by
  intro i hi
  rw [heq (a + i) (by omega) (by omega)]
  exact h i hi

theorem blank_eraseBlock (m : Mem) (a n : ℕ) : Blank (eraseBlock m a n) a n := by
  intro i hi
  have : a ≤ a + i ∧ a + i < a + n := by omega
  simp [eraseBlock, this]

/-- Programming blank cells stores. -/
theorem load_program_of_blank {m : Mem} {a : ℕ} {bs : List UInt8} (h : Blank m a bs.length) :
    load (program m a bs) a bs.length = bs := by
  apply List.ext_getElem
  · simp
  · intro i h₁ h₂
    have hin : a ≤ a + i ∧ a + i < a + bs.length := by omega
    have hff : ∀ b : UInt8, 0xff &&& b = b := fun b => UInt8.neg_one_and
    simp [load, program, h i h₂, hff, h₂]

theorem load_of_blank {m : Mem} {a n : ℕ} (h : Blank m a n) :
    load m a n = List.replicate n 0xff := by
  apply List.ext_getElem
  · simp
  · intro i h₁ h₂
    have hi : i < n := by simpa using h₁
    simp [load, h i hi]

/-- Behind what was programmed, the cells stay blank. -/
theorem load_program_append_blank {m : Mem} {a n : ℕ} {bs : List UInt8} (h : Blank m a n)
    (hle : bs.length ≤ n) :
    load (program m a bs) a n = bs ++ List.replicate (n - bs.length) 0xff := by
  have hrest : Blank (program m a bs) (a + bs.length) (n - bs.length) :=
    (h.sub (by omega) (by omega)).congr fun x hx _ => program_of_outside m bs (.inr hx)
  calc
    load (program m a bs) a n
        = load (program m a bs) a (bs.length + (n - bs.length)) := by rw [Nat.add_sub_cancel' hle]
    _ = bs ++ List.replicate (n - bs.length) 0xff := by
          rw [load_add, load_program_of_blank (h.sub (Nat.le_refl a) (by omega)),
            load_of_blank hrest]

/-! ## Operations -/

/-- What can be done to a flash memory. -/
inductive FlashOp where
  | program (a : ℕ) (bs : List UInt8)
  | erase (a n : ℕ)
deriving DecidableEq

def FlashOp.apply (m : Mem) : FlashOp → Mem
  | .program a bs => Lib.program m a bs
  | .erase a n => eraseBlock m a n

def applyOps (m : Mem) (ops : List FlashOp) : Mem := ops.foldl FlashOp.apply m

theorem applyOps_append (m : Mem) (ops ops' : List FlashOp) :
    applyOps m (ops ++ ops') = applyOps (applyOps m ops) ops' := by
  simp [applyOps]

/-- Erasing blocks leaves the cells of all of them blank. -/
theorem applyOps_erases {ops : List FlashOp} (hall : ∀ op ∈ ops, ∃ a n, op = .erase a n) {x : ℕ} :
    ∀ {m : Mem}, (m x = 0xff ∨ ∃ a n, FlashOp.erase a n ∈ ops ∧ a ≤ x ∧ x < a + n) →
      applyOps m ops x = 0xff := by
  induction ops with
  | nil =>
      intro m h
      simpa [applyOps] using h
  | cons op ops ih =>
      intro m h
      obtain ⟨a, n, rfl⟩ := hall op List.mem_cons_self
      refine ih (fun op hop => hall op (List.mem_cons_of_mem _ hop)) ?_
      by_cases hin : a ≤ x ∧ x < a + n
      · left
        simp [FlashOp.apply, eraseBlock, hin]
      · rcases h with h | ⟨b, k, hmem, hb⟩
        · left
          simpa [FlashOp.apply, eraseBlock, hin] using h
        · right
          rcases List.mem_cons.1 hmem with heq | hmem
          · cases heq
            exact absurd hb hin
          · exact ⟨b, k, hmem, hb⟩

/-- Bytes programmed word by word. -/
def wordOps (a : ℕ) (bs : List UInt8) : List FlashOp :=
  (List.range (bs.length / 4)).map fun i => .program (a + 4 * i) ((bs.drop (4 * i)).take 4)

@[simp] theorem length_wordOps (a : ℕ) (bs : List UInt8) :
    (wordOps a bs).length = bs.length / 4 := by
  simp [wordOps]

/-- After the first words, the first bytes are programmed. -/
theorem applyOps_take_wordOps (m : Mem) (a : ℕ) {bs : List UInt8} (hbs : 4 ∣ bs.length) (k : ℕ) :
    applyOps m ((wordOps a bs).take k) = program m a (bs.take (4 * k)) := by
  induction k with
  | zero => simp [applyOps]
  | succ k ih =>
      by_cases hk : k < bs.length / 4
      · have htake : (wordOps a bs).take (k + 1) = (wordOps a bs).take k ++
            [.program (a + 4 * k) ((bs.drop (4 * k)).take 4)] := by
          rw [List.take_add_one]
          simp [wordOps, hk]
        have hlen : (bs.take (4 * k)).length = 4 * k := by
          rw [List.length_take]
          omega
        have hbytes : bs.take (4 * (k + 1)) = bs.take (4 * k) ++ (bs.drop (4 * k)).take 4 := by
          rw [Nat.mul_succ, List.take_add]
        rw [htake, applyOps_append, ih, hbytes, program_append, hlen]
        rfl
      · -- there is no further word
        have hwords : (wordOps a bs).take (k + 1) = (wordOps a bs).take k := by
          rw [List.take_of_length_le (by simp; omega), List.take_of_length_le (by simp; omega)]
        have hbytes : bs.take (4 * (k + 1)) = bs.take (4 * k) := by
          rw [List.take_of_length_le (by omega), List.take_of_length_le (by omega)]
        rw [hwords, ih, hbytes]

theorem applyOps_wordOps (m : Mem) (a : ℕ) {bs : List UInt8} (hbs : 4 ∣ bs.length) :
    applyOps m (wordOps a bs) = program m a bs := by
  have h := applyOps_take_wordOps m a hbs (bs.length / 4)
  rw [List.take_of_length_le (by simp), List.take_of_length_le (by omega)] at h
  exact h

end Lib
end DtPhm
