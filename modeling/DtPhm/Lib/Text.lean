import Mathlib.Data.List.TakeWhile
import Mathlib.Data.List.Basic

/-!
# Text — lines of text files, written with `fprintf` and read with `fgets` and `sscanf`

Only what text tables need: unsigned numbers and words, separated by blanks, one record a line.

* `decimal`, `scanUnsigned`, `scanWord` — the conversions `%u` and `%s`;
* `readLine`, `lines` — the lines that `fgets` reads with a buffer of a given size;
* `scanUnsigned_decimal`, `scanWord_word`, `lines_flatten` — what was written is read back.
-/

namespace DtPhm
namespace Lib

abbrev Text := List Char

/-- `isspace`. -/
def isSpace (c : Char) : Bool := c == ' ' || ('\t' ≤ c && c ≤ '\r')

/-! ## Numbers and words -/

/-- `%u` of `printf`. -/
def decimal (n : ℕ) : Text := Nat.toDigits 10 n

/-- The optional sign of a number, and what comes behind it. -/
def scanSign : Text → Bool × Text
  | [] => (false, [])
  | c :: s => if c = '-' then (true, s) else if c = '+' then (false, s) else (false, c :: s)

/-- `%u` of `scanf`: the number, taken to 32 bits, and the rest. -/
def scanUnsigned (s : Text) : Option (UInt32 × Text) :=
  let (negative, s) := scanSign (s.dropWhile isSpace)
  let digits := s.takeWhile Char.isDigit
  let value := UInt32.ofNat (Nat.ofDigitChars 10 digits 0)
  if digits = [] then none
  else some (if negative then -value else value, s.dropWhile Char.isDigit)

/-- `%s` of `scanf`: the word and the rest. -/
def scanWord (s : Text) : Option (Text × Text) :=
  let s := s.dropWhile isSpace
  let word := s.takeWhile fun c => !isSpace c
  if word = [] then none else some (word, s.dropWhile fun c => !isSpace c)

theorem isDigit_of_mem_decimal {n : ℕ} {c : Char} (h : c ∈ decimal n) : c.isDigit = true :=
  Nat.isDigit_of_mem_toDigits (by decide) (by decide) h

theorem decimal_ne_nil (n : ℕ) : decimal n ≠ [] := Nat.toDigits_ne_nil

theorem not_special_of_isDigit {c : Char} (h : c.isDigit = true) :
    isSpace c = false ∧ c ≠ '-' ∧ c ≠ '+' := by
  have hrange : 48 ≤ c.val.toNat ∧ c.val.toNat ≤ 57 := by
    simpa [Char.isDigit, UInt32.le_iff_toNat_le] using h
  refine ⟨?_, ?_, ?_⟩
  · have hblank : c ≠ ' ' := by
      rintro rfl
      exact absurd hrange (by decide)
    have hhigh : ¬ c ≤ '\r' := by
      intro hle
      have hval : c.val.toNat ≤ 13 := UInt32.le_iff_toNat_le.1 hle
      omega
    simp [isSpace, hblank, hhigh]
  · rintro rfl
    exact absurd hrange (by decide)
  · rintro rfl
    exact absurd hrange (by decide)

/-- What stands before the first character that is not in a class. -/
theorem span_append {p : Char → Bool} {w rest : Text} (hw : ∀ c ∈ w, p c = true)
    (hrest : ∀ c ∈ rest.head?, p c = false) :
    (w ++ rest).takeWhile p = w ∧ (w ++ rest).dropWhile p = rest := by
  rw [List.takeWhile_append_of_pos hw, List.dropWhile_append_of_pos hw]
  cases rest with
  | nil => simp
  | cons c rest =>
      have hc : p c = false := hrest c rfl
      simp [hc]

/-- A number is read back, whatever follows that is no digit. -/
theorem scanUnsigned_decimal {n : ℕ} {rest : Text} (hrest : ∀ c ∈ rest.head?, c.isDigit = false) :
    scanUnsigned (decimal n ++ rest) = some (UInt32.ofNat n, rest) := by
  obtain ⟨htake, hdrop⟩ := span_append (p := Char.isDigit) (w := decimal n)
    (fun c hc => isDigit_of_mem_decimal hc) hrest
  have hne := decimal_ne_nil n
  -- the first digit is neither a blank nor a sign
  have hsign : scanSign ((decimal n ++ rest).dropWhile isSpace) = (false, decimal n ++ rest) := by
    cases hcases : decimal n with
    | nil => exact absurd hcases hne
    | cons c s =>
        obtain ⟨hspace, hminus, hplus⟩ :=
          not_special_of_isDigit (isDigit_of_mem_decimal (n := n) (c := c) (by simp [hcases]))
        simp [hspace, scanSign, hminus, hplus]
  unfold scanUnsigned
  rw [hsign]
  simp only [htake, hdrop, hne, if_false, Bool.false_eq_true]
  rw [decimal, Nat.ofDigitChars_toDigits (by decide) (by decide)]

/-- A word is read back, if it has no white space and some follows. -/
theorem scanWord_word {w rest : Text} (hne : w ≠ []) (hw : ∀ c ∈ w, isSpace c = false)
    (hrest : ∀ c ∈ rest.head?, isSpace c = true) : scanWord (w ++ rest) = some (w, rest) := by
  obtain ⟨htake, hdrop⟩ : (w ++ rest).takeWhile (fun c => !isSpace c) = w ∧
      (w ++ rest).dropWhile (fun c => !isSpace c) = rest :=
    span_append (fun c hc => by simp [hw c hc]) (fun c hc => by simp [hrest c hc])
  have hstart : (w ++ rest).dropWhile isSpace = w ++ rest := by
    cases w with
    | nil => exact absurd rfl hne
    | cons c w =>
        have hc : isSpace c = false := hw c (by simp)
        simp [hc]
  unfold scanWord
  simp only [hstart, htake, hdrop, hne, if_false]

/-- The blank between two conversions. -/
theorem scan_blank (s : Text) :
    scanUnsigned (' ' :: s) = scanUnsigned s ∧ scanWord (' ' :: s) = scanWord s := by
  have hblank : (' ' :: s).dropWhile isSpace = s.dropWhile isSpace := by
    have hspace : isSpace ' ' = true := by decide
    simp [hspace]
  unfold scanUnsigned scanWord
  rw [hblank]
  exact ⟨rfl, rfl⟩

/-! ## Lines -/

/-- At most so many characters, to the end of the line. -/
def readLine : ℕ → Text → Text × Text
  | 0, s => ([], s)
  | _ + 1, [] => ([], [])
  | n + 1, c :: s =>
      if c = '\n' then ([c], s)
      else
        let (line, rest) := readLine n s
        (c :: line, rest)

/-- At most `k` lines. -/
def linesFrom (n : ℕ) : ℕ → Text → List Text
  | 0, _ => []
  | k + 1, s =>
      match readLine n s with
      | ([], _) => []
      | (line, rest) => line :: linesFrom n k rest

/-- The lines that `fgets` gives one after the other, with a buffer of `size` characters. -/
def lines (size : ℕ) (s : Text) : List Text := linesFrom (size - 1) s.length s

theorem readLine_line {n : ℕ} {w rest : Text} (hw : '\n' ∉ w) (hlen : w.length < n) :
    readLine n (w ++ '\n' :: rest) = (w ++ ['\n'], rest) := by
  induction w generalizing n with
  | nil =>
      obtain ⟨n, rfl⟩ : ∃ m, n = m + 1 := ⟨n - 1, by simp at hlen; omega⟩
      simp [readLine]
  | cons c w ih =>
      obtain ⟨n, rfl⟩ : ∃ m, n = m + 1 := ⟨n - 1, by simp at hlen; omega⟩
      have hc : c ≠ '\n' := fun h => hw (by simp [h])
      have hrest := ih (n := n) (fun h => hw (List.mem_cons_of_mem _ h)) (by simpa using hlen)
      simp [readLine, hc, hrest]

/-- Lines that fit into the buffer are read one by one. -/
theorem lines_flatten {size : ℕ} {ws : List Text} (hws : ∀ w ∈ ws, '\n' ∉ w ∧ w.length + 1 < size) :
    lines size (ws.flatMap fun w => w ++ ['\n']) = ws.map fun w => w ++ ['\n'] := by
  -- for any bound that is at least the number of lines
  have hfrom : ∀ k, ws.length ≤ k →
      linesFrom (size - 1) k (ws.flatMap fun w => w ++ ['\n']) = ws.map fun w => w ++ ['\n'] := by
    induction ws with
    | nil =>
        intro k _
        cases k with
        | zero => rfl
        | succ k =>
            unfold linesFrom
            cases size - 1 <;> rfl
    | cons w ws ih =>
        intro k hk
        obtain ⟨k, rfl⟩ : ∃ m, k = m + 1 := ⟨k - 1, by simp at hk; omega⟩
        obtain ⟨hnew, hlen⟩ := hws w (by simp)
        have hline : readLine (size - 1) (w ++ '\n' :: ws.flatMap fun w => w ++ ['\n']) =
            (w ++ ['\n'], ws.flatMap fun w => w ++ ['\n']) := readLine_line hnew (by omega)
        have hnext := ih (fun v hv => hws v (List.mem_cons_of_mem _ hv)) k (by simpa using hk)
        have hcons : (w :: ws).flatMap (fun w => w ++ ['\n']) =
            w ++ '\n' :: ws.flatMap fun w => w ++ ['\n'] := by simp
        rw [hcons, linesFrom, hline, List.map_cons, ← hnext]
        cases w <;> rfl
  apply hfrom
  clear hfrom hws
  induction ws with
  | nil => simp
  | cons w ws ih =>
      simp only [List.flatMap_cons, List.length_append, List.length_cons, List.length_nil]
      omega

end Lib
end DtPhm
