import DtPhm.Lib.Text

/-!
# Scanf — lines of numbers, read with `sscanf`

A line of numbers is read with several `%u` or `%d` in a row.  Numbers have an optional sign and are
separated by blanks; what follows the last one is no number.

* `scanNumbers` — conversions up to the first that fails;
* `Numeral`, `Field` — numbers as they are written, with the blanks before them;
* `scanNumbers_fields` — what is written is read, whatever follows.
-/

namespace DtPhm
namespace Lib

/-- The end of a line. -/
def isLineEnd (c : Char) : Bool := c == '\n' || c == '\r'

/-- White space within a line. -/
def isBlank (c : Char) : Bool := isSpace c && !isLineEnd c

/-- A character that a number can start with. -/
def isNumberStart (c : Char) : Bool := c.isDigit || c == '-' || c == '+'

/-- Up to `n` numbers, as far as they can be converted. -/
def scanNumbers : ℕ → Text → List UInt32
  | 0, _ => []
  | n + 1, s =>
    match scanUnsigned s with
    | none => []
    | some (v, rest) => v :: scanNumbers n rest

/-! ## Numbers as they are written -/

inductive Sign
  | none
  | plus
  | minus
deriving DecidableEq, Repr

def Sign.text : Sign → Text
  | .none => []
  | .plus => ['+']
  | .minus => ['-']

/-- A number as it is written. -/
structure Numeral where
  sign : Sign
  digits : Text
  nonempty : digits ≠ []
  isDigit : ∀ c ∈ digits, c.isDigit = true

def Numeral.text (w : Numeral) : Text := w.sign.text ++ w.digits

/-- The value, taken to 32 bits. -/
def Numeral.value (w : Numeral) : UInt32 :=
  let value := UInt32.ofNat (Nat.ofDigitChars 10 w.digits 0)
  if w.sign = .minus then -value else value

/-- A number with the white space before it. -/
structure Field where
  blanks : Text
  numeral : Numeral
  isBlank : ∀ c ∈ blanks, isBlank c = true

def Field.text (f : Field) : Text := f.blanks ++ f.numeral.text

/-- Numbers in a row. -/
def fieldsText (fields : List Field) : Text := fields.flatMap Field.text

def fieldValues (fields : List Field) : List UInt32 := fields.map fun f => f.numeral.value

/-- All numbers but the first have blanks before them. -/
def Separated (fields : List Field) : Prop := ∀ f ∈ fields.tail, f.blanks ≠ []

variable {w : Numeral} {f : Field} {fields : List Field} {rest : Text}

theorem isSpace_of_isBlank {c : Char} (h : isBlank c = true) : isSpace c = true :=
  (Bool.and_eq_true_iff.1 h).1

theorem not_isDigit_of_isSpace {c : Char} (h : isSpace c = true) : c.isDigit = false := by
  rw [Bool.eq_false_iff]
  intro hdigit
  rw [(not_special_of_isDigit hdigit).1] at h
  cases h

/-- The first character of a number is neither a blank nor empty. -/
theorem Numeral.head (w : Numeral) : ∃ c s, w.text = c :: s ∧ isNumberStart c = true := by
  rcases w with ⟨sign, digits, hne, hdigit⟩
  cases digits with
  | nil => exact absurd rfl hne
  | cons d digits =>
      have hd : d.isDigit = true := hdigit d (by simp)
      cases sign with
      | none => exact ⟨d, digits, rfl, by simp [isNumberStart, hd]⟩
      | plus => exact ⟨'+', d :: digits, rfl, by decide⟩
      | minus => exact ⟨'-', d :: digits, rfl, by decide⟩

theorem not_isSpace_of_isNumberStart {c : Char} (h : isNumberStart c = true) :
    isSpace c = false := by
  rw [isNumberStart, Bool.or_eq_true, Bool.or_eq_true, beq_iff_eq, beq_iff_eq] at h
  rcases h with (hdigit | rfl) | rfl
  · exact (not_special_of_isDigit hdigit).1
  · decide
  · decide

/-- White space, and then a sign and the digits. -/
theorem scanSign_numeral (hdigits : ∀ c ∈ w.digits, c.isDigit = true) :
    scanSign (w.text ++ rest) = (w.sign == .minus, w.digits ++ rest) := by
  rcases w with ⟨sign, digits, hne, hdigit⟩
  cases sign with
  | plus => rfl
  | minus => rfl
  | none =>
      cases digits with
      | nil => exact absurd rfl hne
      | cons d digits =>
          have hd := not_special_of_isDigit (hdigits d (by simp))
          simp [Numeral.text, Sign.text, scanSign, hd]

/-- A number is read, whatever follows that is no digit. -/
theorem scanUnsigned_numeral {blanks : Text} (hblanks : ∀ c ∈ blanks, isSpace c = true)
    (hrest : ∀ c ∈ rest.head?, c.isDigit = false) :
    scanUnsigned (blanks ++ (w.text ++ rest)) = some (w.value, rest) := by
  obtain ⟨c, s, htext, hc⟩ := w.head
  have hdrop : (blanks ++ (w.text ++ rest)).dropWhile isSpace = w.text ++ rest := by
    rw [List.dropWhile_append_of_pos hblanks, htext, List.cons_append]
    simp [not_isSpace_of_isNumberStart hc]
  obtain ⟨htake, hdrop'⟩ := span_append w.isDigit hrest
  unfold scanUnsigned
  rw [hdrop, scanSign_numeral w.isDigit]
  simp only [htake, hdrop', w.nonempty, if_false]
  cases hsign : w.sign <;> simp [Numeral.value, hsign]

/-- White space, and then no number. -/
theorem scanUnsigned_none {s : Text}
    (h : ∀ c ∈ (s.dropWhile isSpace).head?, isNumberStart c = false) : scanUnsigned s = none := by
  unfold scanUnsigned
  generalize s.dropWhile isSpace = t at h
  cases t with
  | nil => rfl
  | cons c t =>
      have hc : isNumberStart c = false := h c rfl
      rw [isNumberStart, Bool.or_eq_false_iff, Bool.or_eq_false_iff] at hc
      rcases hc with ⟨⟨hdigit, hminus⟩, hplus⟩
      have hsign : scanSign (c :: t) = (false, c :: t) := by
        rw [scanSign, if_neg (by simpa using hminus), if_neg (by simpa using hplus)]
      simp [hsign, hdigit]

/-! ## Lines of numbers -/

theorem scanNumbers_of_none {s : Text} (h : scanUnsigned s = none) (n : ℕ) :
    scanNumbers n s = [] := by
  cases n with
  | zero => rfl
  | succ n => rw [scanNumbers, h]

theorem Separated.tail (h : Separated (f :: fields)) : Separated fields :=
  fun g hg => h g (List.mem_of_mem_tail hg)

/-- After a number there is no digit. -/
theorem fieldsText_head (h : Separated (f :: fields))
    (hrest : ∀ c ∈ rest.head?, c.isDigit = false) :
    ∀ c ∈ (fieldsText fields ++ rest).head?, c.isDigit = false := by
  cases fields with
  | nil => exact hrest
  | cons g fields =>
      have hne : g.blanks ≠ [] := h g (by simp)
      cases hblanks : g.blanks with
      | nil => exact absurd hblanks hne
      | cons b blanks =>
          intro c hc
          have hcb : c = b := by
            simpa [fieldsText, Field.text, hblanks] using hc.symm
          have hb : isBlank b = true := g.isBlank b (by simp [hblanks])
          rw [hcb]
          exact not_isDigit_of_isSpace (isSpace_of_isBlank hb)

/-- Numbers in a row are read, and then it goes on behind them. -/
theorem scanNumbers_fields (h : Separated fields) (hrest : ∀ c ∈ rest.head?, c.isDigit = false)
    (n : ℕ) :
    scanNumbers (fields.length + n) (fieldsText fields ++ rest) =
      fieldValues fields ++ scanNumbers n rest := by
  induction fields with
  | nil => simp [fieldsText, fieldValues]
  | cons f fields ih =>
      have hone : scanUnsigned (fieldsText (f :: fields) ++ rest) =
          some (f.numeral.value, fieldsText fields ++ rest) := by
        have hblanks : ∀ c ∈ f.blanks, isSpace c = true :=
          fun c hc => isSpace_of_isBlank (f.isBlank c hc)
        have hscan := scanUnsigned_numeral (w := f.numeral) hblanks (fieldsText_head h hrest)
        simpa [fieldsText, Field.text, List.append_assoc] using hscan
      have hlen : (f :: fields).length + n = (fields.length + n) + 1 := by
        rw [List.length_cons]
        omega
      rw [hlen, scanNumbers, hone]
      simp only [ih h.tail]
      rfl

/-- A row of numbers takes a digit for each of them, and a blank between two. -/
theorem length_fieldsText (h : Separated fields) :
    2 * fields.length ≤ (fieldsText fields).length + 1 := by
  cases fields with
  | nil => exact Nat.zero_le _
  | cons f fields =>
      have hdigit : ∀ g : Field, 0 < g.numeral.text.length := by
        intro g
        obtain ⟨c, s, htext, -⟩ := g.numeral.head
        simp [htext]
      have htail : 2 * fields.length ≤ (fieldsText fields).length := by
        have hblanks : ∀ g ∈ fields, g.blanks ≠ [] := h
        clear h
        induction fields with
        | nil => exact Nat.zero_le _
        | cons g fields ih =>
            have hg := List.length_pos_iff.2 (hblanks g (by simp))
            have hd := hdigit g
            have hfields := ih fun g' hg' => hblanks g' (List.mem_cons_of_mem g hg')
            simp only [fieldsText, List.flatMap_cons, Field.text, List.length_append,
              List.length_cons] at hfields ⊢
            omega
      have hd := hdigit f
      simp only [fieldsText, List.flatMap_cons, Field.text, List.length_append,
        List.length_cons] at htail ⊢
      omega

end Lib
end DtPhm
