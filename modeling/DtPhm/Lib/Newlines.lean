import DtPhm.Lib.Text
import DtPhm.Lib.Markers

/-!
# Newlines — line ends of text files

A text file is read with universal newlines: a carriage return, with or without a line feed behind
it, is one line end.  It is written with the line ends of the host.

* `readText`, `writeText` — `open` in text mode, for reading and for writing;
* `readText_writeText` — what was written is read back;
* `readText_append_marker` — around a text without line ends, the parts are read on their own;
* `Cut.readText`, `Cut.writeText` — a text is cut at the same place when it is read, or written.
-/

namespace DtPhm
namespace Lib

inductive Host
  | linux
  | windows
  deriving DecidableEq, Repr

/-- `os.linesep`. -/
def Host.linesep : Host → Text
  | .linux => ['\n']
  | .windows => ['\r', '\n']

/-- Reading; `cr` says that the last character was a carriage return. -/
def readFrom : (cr : Bool) → Text → Text
  | _, [] => []
  | cr, c :: text =>
      if c = '\r' then '\n' :: readFrom true text
      -- the line feed belongs to the carriage return before it
      else if cr ∧ c = '\n' then readFrom false text
      else c :: readFrom false text

def readText (text : Text) : Text := readFrom false text

def writeText (host : Host) (text : Text) : Text :=
  text.flatMap fun c => if c = '\n' then host.linesep else [c]

/-- The text has no line end. -/
structure NewlineFree (text : Text) : Prop where
  cr : '\r' ∉ text
  lf : '\n' ∉ text

section Newlines

variable {host : Host} {text marker before behind : Text} {c : Char} {cr : Bool}

@[simp] theorem writeText_append (host : Host) (text text' : Text) :
    writeText host (text ++ text') = writeText host text ++ writeText host text' :=
  List.flatMap_append

theorem NewlineFree.tail (h : NewlineFree (c :: text)) : NewlineFree text :=
  ⟨fun hc => h.cr (List.mem_cons_of_mem _ hc), fun hc => h.lf (List.mem_cons_of_mem _ hc)⟩

theorem NewlineFree.head (h : NewlineFree (c :: text)) : c ≠ '\r' ∧ c ≠ '\n' :=
  ⟨fun hc => h.cr (hc ▸ List.mem_cons_self), fun hc => h.lf (hc ▸ List.mem_cons_self)⟩

theorem NewlineFree.dropLast (h : NewlineFree text) : NewlineFree text.dropLast :=
  ⟨fun hc => h.cr ((List.dropLast_sublist _).subset hc), fun hc =>
    h.lf ((List.dropLast_sublist _).subset hc)⟩

theorem writeText_of_newlineFree (h : NewlineFree text) : writeText host text = text := by
  induction text with
  | nil => rfl
  | cons c text ih =>
      have htail : writeText host (c :: text) = [c] ++ writeText host text := by
        simp [writeText, h.head.2]
      rw [htail, ih h.tail]
      rfl

/-! ## Reading -/

theorem readFrom_cons_of_ne (h : c ≠ '\r' ∧ c ≠ '\n') :
    readFrom cr (c :: text) = c :: readFrom false text := by
  rw [readFrom, if_neg h.1, if_neg fun hc => h.2 hc.2]

theorem readFrom_append_of_newlineFree (h : NewlineFree marker) (hne : marker ≠ []) :
    readFrom cr (marker ++ text) = marker ++ readText text := by
  induction marker generalizing cr with
  | nil => exact absurd rfl hne
  | cons c marker ih =>
      rw [List.cons_append, readFrom_cons_of_ne h.head]
      cases marker with
      | nil => rfl
      | cons d marker => rw [ih h.tail (by simp)]; rfl

/-- Around a text without line ends, the parts are read on their own. -/
theorem readFrom_append_marker (h : NewlineFree marker) (hne : marker ≠ []) :
    readFrom cr (before ++ marker ++ behind) = readFrom cr before ++ marker ++ readText behind := by
  induction before generalizing cr with
  | nil => exact readFrom_append_of_newlineFree h hne
  | cons c before ih =>
      simp only [List.cons_append, readFrom]
      split
      · rw [ih, List.cons_append, List.cons_append]
      · split
        · exact ih
        · rw [ih, List.cons_append, List.cons_append]

theorem readText_append_marker (h : NewlineFree marker) (hne : marker ≠ []) :
    readText (before ++ marker ++ behind) = readText before ++ marker ++ readText behind :=
  readFrom_append_marker h hne

/-- What is read has line feeds only. -/
theorem cr_not_mem_readFrom (cr : Bool) (text : Text) : '\r' ∉ readFrom cr text := by
  induction text generalizing cr with
  | nil => simp [readFrom]
  | cons c text ih =>
      rw [readFrom]
      split
      · simpa using ih true
      · rename_i hc
        split
        · exact ih false
        · simpa using ⟨fun h => hc h.symm, ih false⟩

/-- What was written is read back. -/
theorem readText_writeText (h : '\r' ∉ text) : readText (writeText host text) = text := by
  induction text with
  | nil => rfl
  | cons c text ih =>
      have hcr : c ≠ '\r' := fun hc => h (hc ▸ List.mem_cons_self)
      have htail := ih fun hc => h (List.mem_cons_of_mem _ hc)
      by_cases hc : c = '\n'
      · subst hc
        have hwrite : writeText host ('\n' :: text) = host.linesep ++ writeText host text := rfl
        rw [hwrite]
        cases host with
        | linux => exact congrArg _ htail
        | windows => exact congrArg _ htail
      · have hwrite : writeText host (c :: text) = c :: writeText host text := by
          simp [writeText, hc]
        rw [hwrite, readText, readFrom_cons_of_ne ⟨hcr, hc⟩]
        exact congrArg _ htail

theorem eq_nil_of_readText (h : readText text = []) : text = [] := by
  cases text with
  | nil => rfl
  | cons c text =>
      rw [readText, readFrom] at h
      split at h
      · cases h
      · simp at h

/-- What is read around a text without line ends stands around it. -/
theorem exists_of_readFrom_eq (h : NewlineFree marker) (hne : marker ≠ [])
    (heq : readFrom cr text = before ++ marker ++ behind) :
    ∃ before' behind', text = before' ++ marker ++ behind' ∧ readFrom cr before' = before ∧
      readText behind' = behind := by
  induction text generalizing cr before marker with
  | nil =>
      have hnil := heq.symm
      simp only [readFrom, List.append_eq_nil_iff] at hnil
      exact absurd hnil.1.2 hne
  | cons c text ih =>
      rw [readFrom] at heq
      split at heq
      · rename_i hc
        cases before with
        | nil =>
            cases marker with
            | nil => exact absurd rfl hne
            | cons d marker => exact absurd (List.cons.inj heq).1.symm h.head.2
        | cons d before =>
            obtain ⟨rfl, htail⟩ := List.cons.inj heq
            obtain ⟨before', behind', rfl, hbefore, hbehind⟩ := ih h hne htail
            exact ⟨c :: before', behind', rfl, by rw [readFrom, if_pos hc, hbefore], hbehind⟩
      · rename_i hc
        split at heq
        · rename_i hskip
          obtain ⟨before', behind', rfl, hbefore, hbehind⟩ := ih h hne heq
          exact ⟨c :: before', behind', rfl, by rw [readFrom, if_neg hc, if_pos hskip, hbefore],
            hbehind⟩
        · rename_i hskip
          cases before with
          | cons d before =>
              obtain ⟨rfl, htail⟩ := List.cons.inj heq
              obtain ⟨before', behind', rfl, hbefore, hbehind⟩ := ih h hne htail
              exact ⟨c :: before', behind', rfl, by rw [readFrom, if_neg hc, if_neg hskip, hbefore],
                hbehind⟩
          | nil =>
              cases marker with
              | nil => exact absurd rfl hne
              | cons d marker =>
                  obtain ⟨rfl, htail⟩ := List.cons.inj heq
                  cases marker with
                  | nil => exact ⟨[], text, rfl, rfl, htail⟩
                  | cons e marker =>
                      -- the rest of the marker is read at the beginning of the rest
                      have htail' : _ = [] ++ (e :: marker) ++ behind := htail
                      obtain ⟨before', behind', rfl, hbefore, hbehind⟩ :=
                        ih h.tail (List.cons_ne_nil e marker) htail'
                      obtain rfl := eq_nil_of_readText hbefore
                      exact ⟨[], behind', rfl, rfl, hbehind⟩

theorem exists_of_readText_eq (h : NewlineFree marker) (hne : marker ≠ [])
    (heq : readText text = before ++ marker ++ behind) :
    ∃ before' behind', text = before' ++ marker ++ behind' ∧ readText before' = before ∧
      readText behind' = behind :=
  exists_of_readFrom_eq h hne heq

/-- Reading brings no text without line ends about. -/
theorem infix_of_infix_readText (h : NewlineFree marker) (hne : marker ≠ [])
    (hin : marker <:+: readText text) : marker <:+: text := by
  obtain ⟨before, behind, heq⟩ := hin
  obtain ⟨before', behind', rfl, -, -⟩ := exists_of_readText_eq h hne heq.symm
  exact List.infix_append _ _ _

theorem prefix_of_prefix_writeText (h : NewlineFree marker)
    (hpre : marker <+: writeText host text) :
    marker <+: text := by
  induction marker generalizing text with
  | nil => exact List.nil_prefix
  | cons d marker ih =>
      cases text with
      | nil => exact hpre
      | cons c text =>
          by_cases hc : c = '\n'
          · -- a line end begins with neither
            subst hc
            change d :: marker <+: host.linesep ++ writeText host text at hpre
            cases host with
            | linux => exact absurd (List.cons_prefix_cons.1 hpre).1 h.head.2
            | windows => exact absurd (List.cons_prefix_cons.1 hpre).1 h.head.1
          · have hwrite : writeText host (c :: text) = c :: writeText host text := by
              simp [writeText, hc]
            rw [hwrite, List.cons_prefix_cons] at hpre
            exact List.cons_prefix_cons.2 ⟨hpre.1, ih h.tail hpre.2⟩

/-- Neither does writing. -/
theorem infix_of_infix_writeText (h : NewlineFree marker) (hne : marker ≠ [])
    (hin : marker <:+: writeText host text) : marker <:+: text := by
  induction text with
  | nil => exact hin
  | cons c text ih =>
      by_cases hc : c = '\n'
      · subst hc
        change marker <:+: host.linesep ++ writeText host text at hin
        refine List.infix_cons (ih ?_)
        cases host with
        | linux => exact infix_of_infix_cons h.lf hne hin
        | windows => exact infix_of_infix_cons h.lf hne (infix_of_infix_cons h.cr hne hin)
      · have hwrite : writeText host (c :: text) = c :: writeText host text := by
          simp [writeText, hc]
        rw [hwrite, List.infix_cons_iff, ← hwrite] at hin
        rcases hin with hpre | hin
        · exact (prefix_of_prefix_writeText h hpre).isInfix
        · exact List.infix_cons (ih hin)

theorem readText_writeText_readText (host : Host) (text : Text) :
    readText (writeText host (readText text)) = readText text :=
  readText_writeText (cr_not_mem_readFrom false text)

theorem readText_append_newlineFree (h : NewlineFree marker) :
    readText (before ++ marker) = readText before ++ marker := by
  by_cases hne : marker = []
  · rw [hne, List.append_nil, List.append_nil]
  · have hread : readText (before ++ marker ++ []) = readText before ++ marker ++ readText [] :=
      readText_append_marker h hne
    rwa [List.append_nil, show readText [] = [] from rfl, List.append_nil] at hread

/-- A text is cut at the same place when it is read. -/
theorem Cut.readText (hm : NewlineFree marker) (hne : marker ≠ [])
    (h : Cut marker text before behind) :
    Cut marker (readText text) (readText before) (readText behind) := by
  refine ⟨by rw [h.eq, readText_append_marker hm hne], fun hin => h.first ?_⟩
  rw [← readText_append_newlineFree hm.dropLast] at hin
  exact infix_of_infix_readText hm hne hin

/-- It is cut at the same place when it is written. -/
theorem Cut.writeText (hm : NewlineFree marker) (hne : marker ≠ [])
    (h : Cut marker text before behind) :
    Cut marker (writeText host text) (writeText host before) (writeText host behind) := by
  refine ⟨?_, fun hin => h.first ?_⟩
  · rw [h.eq, writeText_append, writeText_append, writeText_of_newlineFree hm]
  · have hsame : Lib.writeText host marker.dropLast = marker.dropLast :=
      writeText_of_newlineFree hm.dropLast
    rw [← hsame, ← writeText_append] at hin
    exact infix_of_infix_writeText hm hne hin

/-! ## Line ends of the host -/

/-- All line ends are those of the host. -/
def hasHostEnds (host : Host) (text : Text) : Prop := writeText host (readText text) = text

end Newlines

end Lib
end DtPhm
