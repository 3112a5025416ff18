import Mathlib.Data.List.Basic
import Mathlib.Data.Int.Basic

/-!
# Stream — input streams over a file

A stream has a position in the bytes of a file, and the two flags of `std::istream`: a read that the
end of the file cuts off sets both of them, and then nothing is read and the position stays until
they are cleared.

* `Stream.read`, `Stream.seek`, `Stream.skip`, `Stream.tell` — reading, and the position;
* `read_content`, `read_of_not_fail` — what a read without an error has read.
-/

namespace DtPhm
namespace Lib

/-- An input stream. -/
structure Stream where
  content : List UInt8
  pos : ℕ
  eof : Bool
  fail : Bool

namespace Stream

variable (s : Stream)

def good : Bool := !s.eof && !s.fail

/-- `read`: the bytes that are there, at most `n`. -/
def read (n : ℕ) : List UInt8 × Stream :=
  if s.good then
    let bytes := (s.content.drop s.pos).take n
    let short := decide (bytes.length < n)
    (bytes, { s with pos := s.pos + bytes.length, eof := short, fail := short })
  else ([], { s with fail := true })

/-- `seekg` to a position; it may be behind the end of the file. -/
def seek (p : ℕ) : Stream := { s with pos := if s.fail then s.pos else p, eof := false }

/-- `seekg` from where the stream is. -/
def skip (offset : ℤ) : Stream :=
  if s.fail then { s with eof := false }
  else if 0 ≤ s.pos + offset then { s with pos := (s.pos + offset).toNat, eof := false }
  else { s with eof := false, fail := true }

/-- `tellg`. -/
def tell : ℤ := if s.good then s.pos else -1

/-- `setstate` with the flag of the end. -/
def setEof : Stream := { s with eof := true }

def clear : Stream := { s with eof := false, fail := false }

variable {s}

@[simp] theorem seek_content (p : ℕ) : (s.seek p).content = s.content := rfl

@[simp] theorem seek_fail (p : ℕ) : (s.seek p).fail = s.fail := rfl

@[simp] theorem seek_eof (p : ℕ) : (s.seek p).eof = false := rfl

@[simp] theorem setEof_content : s.setEof.content = s.content := rfl

@[simp] theorem clear_content : s.clear.content = s.content := rfl

theorem good_eq_true_iff : s.good = true ↔ s.eof = false ∧ s.fail = false := by simp [good]

theorem seek_pos (h : s.fail = false) (p : ℕ) : (s.seek p).pos = p := by simp [seek, h]

@[simp] theorem read_content (n : ℕ) : (s.read n).2.content = s.content := by
  rw [read]
  split <;> rfl

@[simp] theorem skip_content (offset : ℤ) : (s.skip offset).content = s.content := by
  rw [skip]
  split
  · rfl
  · split <;> rfl

/-- A skip that does not go back over the start of the file. -/
theorem skip_of_le {offset : ℤ} {p : ℕ} (hfail : s.fail = false) (h : s.pos + offset = p) :
    s.skip offset = { s with pos := p, eof := false } := by
  rw [skip, if_neg (by rw [hfail]; decide), h, if_pos (Int.natCast_nonneg p), Int.toNat_natCast]

/-- A read without an error has read all of the bytes. -/
theorem read_of_not_fail {n : ℕ} (h : (s.read n).2.fail = false) :
    s.good = true ∧ (s.read n).1 = (s.content.drop s.pos).take n ∧ (s.read n).1.length = n ∧
      (s.read n).2 = { s with pos := s.pos + n } := by
  by_cases hgood : s.good = true
  · have hread : s.read n = ((s.content.drop s.pos).take n, { s with
        pos := s.pos + ((s.content.drop s.pos).take n).length
        eof := decide (((s.content.drop s.pos).take n).length < n)
        fail := decide (((s.content.drop s.pos).take n).length < n) }) := if_pos hgood
    have hlength : ((s.content.drop s.pos).take n).length = n := by
      rw [hread] at h
      have hle : ((s.content.drop s.pos).take n).length ≤ n := List.length_take_le _ _
      exact le_antisymm hle (Nat.le_of_not_lt (of_decide_eq_false h))
    obtain ⟨heof, hfail⟩ := good_eq_true_iff.1 hgood
    refine ⟨hgood, by rw [hread], by rw [hread, hlength], ?_⟩
    rw [hread, hlength, heof, hfail, decide_eq_false (Nat.lt_irrefl n)]
  · rw [read, if_neg hgood] at h
    cases h

/-- A short read is one with an error. -/
theorem read_fail_iff {n : ℕ} : (s.read n).2.fail = true ↔ (s.read n).1.length < n ∨
    s.good = false := by
  by_cases hgood : s.good = true
  · rw [read, if_pos hgood]
    simp [hgood]
  · rw [read, if_neg hgood]
    simp [hgood]

end Stream

end Lib
end DtPhm
