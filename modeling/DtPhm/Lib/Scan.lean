import Mathlib.Data.List.Basic

/-!
# Scan — messages in a text that may hold garbage

`frameAt` says which message starts at the beginning of a text, and how long it is.  A scan looks
for messages from the left: after a message it goes on behind it, elsewhere it moves on by one
symbol.

* `scan frameAt text` — the messages of a text;
* `Found`, `Rejected` — what is settled by the symbols read so far, whatever follows them;
* `Sent` — the frame of a message, which is found whatever follows it;
* `scan_append_of_rejected`, `scan_append_of_found` — what is settled need not be kept.
-/

namespace DtPhm
namespace Lib

universe u v

variable {α : Type u} {β : Type v} (frameAt : List α → Option (β × ℕ))

/-! ## Scans -/

/-- The messages of a text, of which the first symbols are skipped. -/
def scanFrom : ℕ → List α → List β
  | _, [] => []
  | k + 1, _ :: text => scanFrom k text
  | 0, a :: text =>
    match frameAt (a :: text) with
    | none => scanFrom 0 text
    | some (m, n) => m :: scanFrom (n - 1) text

/-- The messages of a text. -/
def scan (text : List α) : List β := scanFrom frameAt 0 text

/-- Whatever follows, the message `m` of length `n` starts here. -/
def Found (text : List α) (m : β) (n : ℕ) : Prop :=
  0 < n ∧ n ≤ text.length ∧ ∀ rest, frameAt (text ++ rest) = some (m, n)

/-- Whatever follows, no message starts here. -/
def Rejected (text : List α) : Prop := text ≠ [] ∧ ∀ rest, frameAt (text ++ rest) = none

/-- A frame as it is sent, with its message. -/
def Sent (frame : β × List α) : Prop :=
  0 < frame.2.length ∧ ∀ rest, frameAt (frame.2 ++ rest) = some (frame.1, frame.2.length)

variable {frameAt} {text : List α} {m : β} {n : ℕ}

@[simp] theorem scan_nil : scan frameAt [] = [] := rfl

theorem scanFrom_eq (k : ℕ) (text : List α) :
    scanFrom frameAt k text = scan frameAt (text.drop k) := by
  induction text generalizing k with
  | nil => cases k <;> simp [scan, scanFrom]
  | cons a text ih =>
      cases k with
      | zero => rfl
      | succ k => exact ih k

theorem scan_cons_of_none {a : α} (h : frameAt (a :: text) = none) :
    scan frameAt (a :: text) = scan frameAt text := by
  simp [scan, scanFrom, h]

theorem scan_of_some (h : frameAt text = some (m, n)) (hn : 0 < n) (hlen : n ≤ text.length) :
    scan frameAt text = m :: scan frameAt (text.drop n) := by
  cases text with
  | nil => exact absurd hlen (Nat.not_le.2 hn)
  | cons a text =>
      obtain ⟨k, rfl⟩ : ∃ k, n = k + 1 := ⟨n - 1, by omega⟩
      have hcons : scan frameAt (a :: text) = m :: scanFrom frameAt k text := by
        simp [scan, scanFrom, h]
      rw [hcons, scanFrom_eq, List.drop_succ_cons]

/-! ## What is settled -/

/-- What is rejected can be dropped before the rest has come. -/
theorem scan_append_of_rejected {k : ℕ} (hk : k ≤ text.length)
    (h : ∀ i < k, Rejected frameAt (text.drop i)) (rest : List α) :
    scan frameAt (text ++ rest) = scan frameAt (text.drop k ++ rest) := by
  induction k with
  | zero => rfl
  | succ k ih =>
      have hlt : k < text.length := hk
      have hnone : frameAt (text.drop k ++ rest) = none := (h k (Nat.lt_succ_self k)).2 rest
      rw [ih (Nat.le_of_lt hlt) fun i hi => h i (Nat.lt_succ_of_lt hi)]
      rw [List.drop_eq_getElem_cons hlt, List.cons_append] at hnone ⊢
      exact scan_cons_of_none hnone

/-- A message can be taken before the rest has come. -/
theorem scan_append_of_found (h : Found frameAt text m n) (rest : List α) :
    scan frameAt (text ++ rest) = m :: scan frameAt (text.drop n ++ rest) := by
  rcases h with ⟨hn, hlen, hsome⟩
  rw [scan_of_some (hsome rest) hn (by rw [List.length_append]; omega),
    List.drop_append_of_le_length hlen]

end Lib
end DtPhm
