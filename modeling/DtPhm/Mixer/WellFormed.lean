import DtPhm.Lib.Pieces
import DtPhm.Mixer.Parsers

/-!
# WellFormed — mixers as they should be written

A well-formed mixer has a line for each of its parts, ended by a newline.  A parser accepts it
whatever follows, and refuses every part of it that is cut off before its end.

* `NumberLine`, `RotorLine`, `NullLine` — the lines;
* `SimpleLines` — a simple mixer: its head, maybe an output scaler, and its controls;
* `parseControls_lines`, `parseControls_cut` — the controls, whole and cut;
* `mixerLines_isUnit` — every mixer is accepted as a whole only.
-/

namespace DtPhm
namespace Mixer

open Lib

/-! ## Lines -/

/-- Numbers in a row, and then anything but a number, up to the end of the line. -/
structure NumberLine where
  fields : List Field
  separated : Separated fields
  tail : Text
  noNumber : ∀ c ∈ (tail.dropWhile isSpace).head?, isNumberStart c = false
  oneLine : ∀ c ∈ tail, isLineEnd c = false

def NumberLine.content (l : NumberLine) : Text := fieldsText l.fields ++ l.tail

/-- A line with its tag. -/
def tagged (tag : Char) (content : Text) : Text := tag :: ':' :: (content ++ ['\n'])

def NumberLine.text (l : NumberLine) (tag : Char) : Text := tagged tag l.content

def NumberLine.values (l : NumberLine) : List UInt32 := fieldValues l.fields

/-- A null mixer. -/
structure NullLine where
  blanks : Text
  isBlank : ∀ c ∈ blanks, isBlank c = true

/-- A multirotor mixer: the name of its geometry, and then numbers that are not read. -/
structure RotorLine (configKey : List Text) where
  blanks : Text
  key : Text
  tail : Text
  isBlank : ∀ c ∈ blanks, isBlank c = true
  mem : key ∈ configKey
  nonempty : key ≠ []
  length : key.length ≤ 15
  isWord : ∀ c ∈ key, isSpace c = false ∧ c ≠ '\x00'
  separated : ∀ c ∈ tail.head?, isSpace c = true
  oneLine : ∀ c ∈ tail, isLineEnd c = false

def RotorLine.content {configKey : List Text} (l : RotorLine configKey) : Text :=
  l.blanks ++ (l.key ++ l.tail)

/-- A simple mixer: its head has the number of its controls. -/
structure SimpleLines where
  head : NumberLine
  output : Option NumberLine
  controls : List NumberLine
  head_length : head.fields.length = 1
  output_length : ∀ l ∈ output, l.fields.length = 5 ∨ l.fields.length = 6
  controls_length : ∀ l ∈ controls, l.fields.length = 7
  counted : (head.values.headD 0).toNat = controls.length
  nonempty : controls ≠ []

def controlsText (ls : List NumberLine) : Text := ls.flatMap (NumberLine.text · 'S')

def outputText (l : Option NumberLine) : Text := l.elim [] (NumberLine.text · 'O')

def SimpleLines.text (l : SimpleLines) : Text :=
  l.head.text 'M' ++ (outputText l.output ++ controlsText l.controls)

/-! ## What the lines say -/

/-- The control of seven numbers. -/
def controlOf : List UInt32 → Control
  | [u0, u1, s0, s1, s2, s3, s4] => ⟨u0.toUInt8, u1.toUInt8, scalerOf s0 s1 s2 s3 s4⟩
  | _ => ⟨0, 0, defaultScaler⟩

/-- The output scaler and the rise time of five or six numbers. -/
def outputOf : List UInt32 → Scaler × Int32
  | s0 :: s1 :: s2 :: s3 :: s4 :: more => (scalerOf s0 s1 s2 s3 s4, (more.headD 0).toInt32)
  | _ => (defaultScaler, 0)

def SimpleLines.pinfo (l : SimpleLines) : Simple :=
  let output := l.output.elim (defaultScaler, 0) fun o => outputOf o.values
  { controlCount := (l.head.values.headD 0).toUInt8
    outputScaler := output.1
    slewRateRiseTime := output.2
    controls := l.controls.map fun c => controlOf c.values }

variable {w s p q rest : Text} {l : NumberLine} {ls : List NumberLine} {tag c : Char}

/-! ## The ends of lines -/

/-- A text without the end of a line. -/
def OneLine (w : Text) : Prop := ∀ c ∈ w, isLineEnd c = false

theorem isLineEnd_of_isBlank (h : isBlank c = true) : isLineEnd c = false := by
  rw [isBlank, Bool.and_eq_true, Bool.not_eq_true'] at h
  exact h.2

theorem OneLine.append {v : Text} (hw : OneLine w) (hv : OneLine v) : OneLine (w ++ v) := by
  intro c hc
  rcases List.mem_append.1 hc with hc | hc
  · exact hw c hc
  · exact hv c hc

theorem OneLine.not_mem (hw : OneLine w) (hc : isLineEnd c = true) : c ∉ w := by
  intro hmem
  rw [hw c hmem] at hc
  cases hc

theorem isLineEnd_of_not_isSpace (h : isSpace c = false) : isLineEnd c = false := by
  cases hend : isLineEnd c with
  | false => rfl
  | true =>
    rw [isLineEnd, Bool.or_eq_true, beq_iff_eq, beq_iff_eq] at hend
    rcases hend with rfl | rfl <;> exact absurd h (by decide)

theorem isLineEnd_of_isNumberStart (h : isNumberStart c = true) : isLineEnd c = false :=
  isLineEnd_of_not_isSpace (not_isSpace_of_isNumberStart h)

theorem oneLine_fieldsText (fields : List Field) : OneLine (fieldsText fields) := by
  intro c hc
  rcases List.mem_flatMap.1 hc with ⟨f, -, hcf⟩
  rcases List.mem_append.1 hcf with hblank | hnumeral
  · exact isLineEnd_of_isBlank (f.isBlank c hblank)
  · refine isLineEnd_of_isNumberStart ?_
    rcases List.mem_append.1 hnumeral with hsign | hdigit
    · revert hsign
      cases f.numeral.sign with
      | none => exact fun h => nomatch h
      | plus =>
        intro h
        rw [List.mem_singleton.1 h]
        decide
      | minus =>
        intro h
        rw [List.mem_singleton.1 h]
        decide
    · simp [isNumberStart, f.numeral.isDigit c hdigit]

theorem NumberLine.oneLine_content (l : NumberLine) : OneLine l.content :=
  (oneLine_fieldsText l.fields).append l.oneLine

theorem skipLine_line (hw : OneLine w) (hrest : '\r' ∉ rest) :
    skipLine (w ++ '\n' :: rest) = some rest := by
  have hcr : '\r' ∉ w ++ '\n' :: rest := by
    intro hmem
    rcases List.mem_append.1 hmem with hmem | hmem
    · exact hw.not_mem (by decide) hmem
    · rcases List.mem_cons.1 hmem with heq | hmem
      · exact absurd heq (by decide)
      · exact hrest hmem
  have hnl : ∀ c ∈ w, (c != '\n') = true := by
    intro c hc
    rw [bne_iff_ne]
    rintro rfl
    exact hw.not_mem (by decide) hc
  unfold skipLine
  rw [if_neg hcr, if_pos (by simp), List.dropWhile_append_of_pos hnl]
  simp

theorem skipLine_none (hs : OneLine s) : skipLine s = none := by
  unfold skipLine
  rw [if_neg (hs.not_mem (by decide)), if_neg (hs.not_mem (by decide))]

theorem stringWellFormed_none (hs : OneLine s) : stringWellFormed s = false := by
  rw [stringWellFormed, List.any_eq_false]
  intro c hc
  simp [hs c hc]

theorem stringWellFormed_line : stringWellFormed (w ++ '\n' :: rest) = true := by
  rw [stringWellFormed, List.any_append]
  simp [isLineEnd]

theorem oneLine_of_append (hw : OneLine w) (h : p ++ q = w ++ ['\n']) (hq : q ≠ []) :
    OneLine p := by
  rcases List.append_eq_append_iff.1 h with ⟨v, hv, -⟩ | ⟨v, hp, hv⟩
  · intro c hc
    exact hw c (hv ▸ List.mem_append_left _ hc)
  · cases v with
    | nil =>
      rw [List.append_nil] at hp
      exact hp ▸ hw
    | cons a v =>
      have hlen := congrArg List.length hv
      simp only [List.length_append, List.length_cons, List.length_nil] at hlen
      have hzero : q.length = 0 := by omega
      exact absurd (List.length_eq_zero_iff.1 hzero) hq

theorem cut_cases (hw : OneLine w) (h : p ++ q = (w ++ ['\n']) ++ s) :
    OneLine p ∨ ∃ p', p = (w ++ ['\n']) ++ p' ∧ p' ++ q = s := by
  rcases List.append_eq_append_iff.1 h with ⟨v, hv, hq⟩ | ⟨v, hp, hs⟩
  · cases v with
    | nil => exact .inr ⟨[], by simp [hv], hq⟩
    | cons a v => exact .inl (oneLine_of_append hw hv.symm (by simp))
  · exact .inr ⟨v, hp, hs.symm⟩

/-! ## Tagged lines -/

theorem OneLine.tagged {content : Text} (h : OneLine content) (htag : isLineEnd tag = false) :
    OneLine (tag :: ':' :: content) := by
  intro c hc
  rcases List.mem_cons.1 hc with rfl | hc
  · exact htag
  rcases List.mem_cons.1 hc with rfl | hc
  · decide
  · exact h c hc

theorem tagged_append (tag : Char) (content rest : Text) :
    tagged tag content ++ rest = (tag :: ':' :: content) ++ '\n' :: rest := by
  simp [tagged]

theorem skipLine_tagged {content : Text} (h : OneLine (tag :: ':' :: content))
    (hrest : '\r' ∉ rest) : skipLine (tagged tag content ++ rest) = some rest := by
  rw [tagged_append]
  exact skipLine_line h hrest

theorem stringWellFormed_tagged (tag : Char) (content rest : Text) :
    stringWellFormed (tagged tag content ++ rest) = true := by
  rw [tagged_append]
  exact stringWellFormed_line

theorem not_cr_tagged {content : Text} (h : OneLine (tag :: ':' :: content)) :
    ∀ c ∈ tagged tag content, c ≠ '\r' := by
  rintro c hc rfl
  have hsplit : tagged tag content = (tag :: ':' :: content) ++ ['\n'] := rfl
  rw [hsplit] at hc
  rcases List.mem_append.1 hc with hc | hc
  · exact h.not_mem (by decide) hc
  · exact absurd (List.mem_singleton.1 hc) (by decide)

/-! ## Lines of numbers -/

theorem NumberLine.oneLine_tagged (l : NumberLine) (htag : isLineEnd tag = false) :
    OneLine (tag :: ':' :: l.content) :=
  l.oneLine_content.tagged htag

theorem NumberLine.tail_head (l : NumberLine) (rest : Text) :
    ∀ c ∈ (l.tail ++ '\n' :: rest).head?, c.isDigit = false := by
  intro c hc
  cases htail : l.tail with
  | nil =>
    rw [htail] at hc
    have hcn : '\n' = c := Option.some.inj hc
    rw [← hcn]
    decide
  | cons d tail =>
    rw [htail] at hc
    have hcd : d = c := Option.some.inj hc
    rw [← hcd]
    cases hspace : isSpace d with
    | true => exact not_isDigit_of_isSpace hspace
    | false =>
      have hstart : isNumberStart d = false := l.noNumber d (by simp [htail, hspace])
      rw [isNumberStart, Bool.or_eq_false_iff, Bool.or_eq_false_iff] at hstart
      exact hstart.1.1

theorem NumberLine.text_append (l : NumberLine) (tag : Char) (rest : Text) :
    l.text tag ++ rest = tag :: ':' :: (fieldsText l.fields ++ (l.tail ++ '\n' :: rest)) := by
  simp [NumberLine.text, tagged, NumberLine.content]

theorem scanTagged_line (l : NumberLine) (tag : Char) (n : ℕ) (rest : Text) :
    scanTagged tag (l.fields.length + n) (l.text tag ++ rest) =
      l.values ++ scanNumbers n (l.tail ++ '\n' :: rest) := by
  rw [l.text_append, scanTagged, if_pos ⟨rfl, rfl⟩]
  exact scanNumbers_fields l.separated (l.tail_head rest) n

/-- Behind the numbers of a line there is no number, if the next line starts with a letter. -/
theorem NumberLine.no_more (l : NumberLine) (hrest : ∀ c ∈ rest.head?, isNumberStart c = false ∧
    isSpace c = false) (n : ℕ) : scanNumbers n (l.tail ++ '\n' :: rest) = [] := by
  refine scanNumbers_of_none (scanUnsigned_none ?_) n
  have hnoNumber := l.noNumber
  revert hnoNumber
  generalize l.tail = tail
  intro hnoNumber
  induction tail with
  | nil =>
    intro c hc
    cases rest with
    | nil => simp [isSpace] at hc
    | cons d rest =>
      have hd := hrest d rfl
      have hnl : isSpace '\n' = true := by decide
      have hcd : d = c := by simpa [hnl, hd.2] using hc
      rw [← hcd]
      exact hd.1
  | cons d tail ih =>
    cases hspace : isSpace d with
    | true =>
      have hdrop : ((d :: tail) ++ '\n' :: rest).dropWhile isSpace =
          (tail ++ '\n' :: rest).dropWhile isSpace := by simp [hspace]
      rw [hdrop]
      refine ih fun c hc => hnoNumber c ?_
      simpa [hspace] using hc
    | false =>
      intro c hc
      refine hnoNumber c ?_
      simpa [hspace] using hc

theorem findTag_line (l : NumberLine) (tag : Char) (rest : Text) :
    findTag tag (l.text tag ++ rest) = some (l.text tag ++ rest) := by
  rw [l.text_append, findTag, if_pos ⟨rfl, rfl⟩]

theorem NumberLine.length_text (l : NumberLine) (tag : Char) :
    2 * l.fields.length + 2 ≤ (l.text tag).length := by
  have hfields := length_fieldsText l.separated
  simp only [NumberLine.text, tagged, NumberLine.content, List.length_cons, List.length_append,
    List.length_nil]
  omega

theorem skipLine_text (l : NumberLine) (htag : isLineEnd tag = false) (hrest : '\r' ∉ rest) :
    skipLine (l.text tag ++ rest) = some rest :=
  skipLine_tagged (l.oneLine_tagged htag) hrest

/-! ## Controls -/

theorem parseControlScaler_line (hl : l.fields.length = 7) (hrest : '\r' ∉ rest) :
    parseControlScaler (l.text 'S' ++ rest) = some (controlOf l.values, rest) := by
  have hlen : ¬(l.text 'S' ++ rest).length < 16 := by
    have htext := l.length_text 'S'
    rw [List.length_append]
    omega
  have hscan : scanTagged 'S' 7 (l.text 'S' ++ rest) = l.values := by
    have hline := scanTagged_line l 'S' 0 rest
    rwa [hl, scanNumbers, List.append_nil] at hline
  have hvalues : l.values.length = 7 := (List.length_map ..).trans hl
  unfold parseControlScaler
  rw [findTag_line]
  dsimp only
  rw [if_neg hlen, hscan, skipLine_text l (by decide) hrest]
  generalize l.values = values at hvalues
  rcases values with _ | ⟨_, _ | ⟨_, _ | ⟨_, _ | ⟨_, _ | ⟨_, _ | ⟨_, _ | ⟨_, _ | _⟩⟩⟩⟩⟩⟩⟩
  case cons.cons.cons.cons.cons.cons.cons.nil => rfl
  all_goals
    simp only [List.length_cons, List.length_nil] at hvalues
    omega

theorem oneLine_of_findTag {buf : Text} (hs : OneLine s) (h : findTag tag s = some buf) :
    OneLine buf := by
  induction s with
  | nil => cases h
  | cons a s ih =>
    cases s with
    | nil => cases h
    | cons d s =>
      unfold findTag at h
      split at h
      · cases h
        exact hs
      · exact ih (fun c hc => hs c (List.mem_cons_of_mem a hc)) h

theorem parseControlScaler_cut (hs : OneLine s) : parseControlScaler s = none := by
  unfold parseControlScaler
  split
  · rfl
  case h_2 buf hfind =>
    rw [skipLine_none (oneLine_of_findTag hs hfind)]
    split
    · rfl
    · split <;> rfl

theorem controlsText_cons (l : NumberLine) (ls : List NumberLine) :
    controlsText (l :: ls) = l.text 'S' ++ controlsText ls := rfl

theorem parseControls_lines (hls : ∀ l ∈ ls, l.fields.length = 7)
    (htext : '\r' ∉ controlsText ls ++ rest) :
    parseControls ls.length (controlsText ls ++ rest) =
      some (ls.map fun l => controlOf l.values, rest) := by
  induction ls with
  | nil => rfl
  | cons l ls ih =>
    rw [controlsText_cons, List.append_assoc] at htext ⊢
    have hrest : '\r' ∉ controlsText ls ++ rest := fun h => htext (List.mem_append_right _ h)
    rw [List.length_cons, parseControls, parseControlScaler_line (hls l (by simp)) hrest]
    dsimp only
    rw [ih (fun l' hl' => hls l' (List.mem_cons_of_mem l hl')) hrest]
    rfl

theorem parseControls_cut (hls : ∀ l ∈ ls, l.fields.length = 7) (htext : '\r' ∉ controlsText ls)
    (h : p ++ q = controlsText ls) (hq : q ≠ []) : parseControls ls.length p = none := by
  induction ls generalizing p with
  | nil => exact absurd (List.append_eq_nil_iff.1 h).2 hq
  | cons l ls ih =>
    rw [controlsText_cons] at h htext
    rw [List.length_cons, parseControls]
    rcases cut_cases (l.oneLine_tagged (by decide)) h with hone | ⟨p', rfl, hp'⟩
    · rw [parseControlScaler_cut hone]
    · have hcr : '\r' ∉ p' := fun hmem =>
        htext (List.mem_append_right _ (hp' ▸ List.mem_append_left _ hmem))
      have hline : parseControlScaler (('S' :: ':' :: l.content) ++ ['\n'] ++ p') =
          some (controlOf l.values, p') := parseControlScaler_line (hls l (by simp)) hcr
      have hrest := ih (fun l' hl' => hls l' (List.mem_cons_of_mem l hl'))
        (fun hmem => htext (List.mem_append_right _ hmem)) hp'
      rw [hline]
      dsimp only
      rw [hrest]
      rfl

/-! ## Output scalers -/

/-- A mixer has controls, so that the line behind its output scaler starts with a letter. -/
theorem controlsText_head (hls : ls ≠ []) (rest : Text) :
    ∃ s, controlsText ls ++ rest = 'S' :: ':' :: s := by
  cases ls with
  | nil => exact absurd rfl hls
  | cons l ls => exact ⟨_, rfl⟩

theorem parseOutputScaler_line (hl : l.fields.length = 5 ∨ l.fields.length = 6)
    (hrest : '\r' ∉ rest)
    (hhead : ∀ c ∈ rest.head?, isNumberStart c = false ∧ isSpace c = false) :
    parseOutputScaler (l.text 'O' ++ rest) =
      some ((outputOf l.values).1, (outputOf l.values).2, rest) := by
  have hlen : ¬(l.text 'O' ++ rest).length < 12 := by
    have htext := l.length_text 'O'
    rw [List.length_append]
    omega
  have hscan : scanTagged 'O' 6 (l.text 'O' ++ rest) = l.values := by
    have hline := fun n => scanTagged_line l 'O' n rest
    rcases hl with hl | hl
    · have h := hline 1
      rwa [hl, l.no_more hhead, List.append_nil] at h
    · have h := hline 0
      rwa [hl, scanNumbers, List.append_nil] at h
  have hvalues : 5 ≤ l.values.length := by
    rw [NumberLine.values, fieldValues, List.length_map]
    omega
  unfold parseOutputScaler
  rw [findTag_line]
  dsimp only
  rw [if_neg hlen, hscan, skipLine_text l (by decide) hrest]
  generalize l.values = values at hvalues
  rcases values with _ | ⟨_, _ | ⟨_, _ | ⟨_, _ | ⟨_, _ | _⟩⟩⟩⟩
  case cons.cons.cons.cons.cons => rfl
  all_goals
    simp only [List.length_cons, List.length_nil] at hvalues
    omega

theorem parseOutputScaler_some {scaler : Scaler} {riseTime : Int32}
    (h : parseOutputScaler s = some (scaler, riseTime, rest)) :
    ∃ buf, findTag 'O' s = some buf ∧ skipLine buf = some rest := by
  unfold parseOutputScaler at h
  split at h
  · cases h
  case h_2 buf hfind =>
    split at h
    · cases h
    · split at h
      · rcases Option.map_eq_some_iff.1 h with ⟨rest', hskip, heq⟩
        cases heq
        exact ⟨buf, hfind, hskip⟩
      · cases h

theorem parseOutput_lines {o : Option NumberLine}
    (ho : ∀ l ∈ o, l.fields.length = 5 ∨ l.fields.length = 6) (hls : ls ≠ [])
    (hrest : '\r' ∉ controlsText ls ++ rest) :
    parseOutput (outputText o ++ (controlsText ls ++ rest)) =
      some ((o.elim (defaultScaler, 0) fun o => outputOf o.values).1,
        (o.elim (defaultScaler, 0) fun o => outputOf o.values).2, controlsText ls ++ rest) := by
  rcases controlsText_head hls rest with ⟨s, hs⟩
  cases o with
  | none =>
    have hnext : findNextTag (outputText none ++ (controlsText ls ++ rest)) = some 'S' := by
      rw [hs]
      rfl
    unfold parseOutput
    rw [if_pos hnext]
    rfl
  | some l =>
    have hnext : findNextTag (l.text 'O' ++ (controlsText ls ++ rest)) ≠ some 'S' := by
      rw [l.text_append, findNextTag, if_pos ⟨by decide, rfl⟩]
      decide
    unfold parseOutput
    rw [show outputText (some l) = l.text 'O' from rfl, if_neg hnext]
    refine parseOutputScaler_line (ho l rfl) hrest fun c hc => ?_
    rw [hs] at hc
    rw [← Option.some.inj hc]
    decide

theorem two_le_of_parseOutput {r : Scaler × Int32 × Text} (h : parseOutput p = some r) :
    ∃ c d p', p = c :: d :: p' := by
  match p, h with
  | [], h => cases h
  | [c], h =>
    have hnone : parseOutput [c] = none := rfl
    rw [hnone] at h
    cases h
  | c :: d :: p', _ => exact ⟨c, d, p', rfl⟩

theorem parseOutput_controls {scaler : Scaler} {riseTime : Int32} (hls : ls ≠ [])
    (h : p ++ q = controlsText ls) (hout : parseOutput p = some (scaler, riseTime, rest)) :
    rest = p := by
  rcases controlsText_head hls [] with ⟨s, hs⟩
  rcases two_le_of_parseOutput hout with ⟨c, d, p', rfl⟩
  rw [List.append_nil] at hs
  have heq : c :: d :: (p' ++ q) = 'S' :: ':' :: s := h.trans hs
  have hc := (List.cons.inj heq).1
  have hd := (List.cons.inj (List.cons.inj heq).2).1
  subst hc hd
  have hnext : findNextTag ('S' :: ':' :: p') = some 'S' := rfl
  unfold parseOutput at hout
  rw [if_pos hnext] at hout
  cases hout
  rfl

theorem parseOutput_scaler {scaler : Scaler} {riseTime : Int32} (l : NumberLine)
    (h : p ++ q = l.text 'O' ++ s) (hout : parseOutput p = some (scaler, riseTime, rest)) :
    skipLine p = some rest := by
  rcases two_le_of_parseOutput hout with ⟨c, d, p', rfl⟩
  rw [l.text_append] at h
  have hc := (List.cons.inj h).1
  have hd := (List.cons.inj (List.cons.inj h).2).1
  subst hc hd
  have hnext : findNextTag ('O' :: ':' :: p') ≠ some 'S' := by
    rw [findNextTag, if_pos ⟨by decide, rfl⟩]
    decide
  unfold parseOutput at hout
  rw [if_neg hnext] at hout
  rcases parseOutputScaler_some hout with ⟨buf, hfind, hskip⟩
  rw [findTag, if_pos ⟨rfl, rfl⟩] at hfind
  cases hfind
  exact hskip

/-- Of a part of a mixer behind its head the parsers leave a part of the controls, if anything. -/
theorem parseOutput_cut {o : Option NumberLine} {scaler : Scaler} {riseTime : Int32} (hls : ls ≠ [])
    (htext : '\r' ∉ controlsText ls) (h : p ++ q = outputText o ++ controlsText ls)
    (hout : parseOutput p = some (scaler, riseTime, rest)) : rest ++ q = controlsText ls := by
  cases o with
  | none =>
    rw [parseOutput_controls hls h hout]
    exact h
  | some l =>
    have hskip := parseOutput_scaler l h hout
    rcases cut_cases (l.oneLine_tagged (by decide)) h with hone | ⟨p', hp, hp'⟩
    · rw [skipLine_none hone] at hskip
      cases hskip
    · have hcr : '\r' ∉ p' := fun hmem => htext (hp' ▸ List.mem_append_left _ hmem)
      have hline : skipLine (('O' :: ':' :: l.content) ++ ['\n'] ++ p') = some p' :=
        skipLine_text l (by decide) hcr
      rw [hp, hline] at hskip
      rw [← Option.some.inj hskip]
      exact hp'

/-! ## Simple mixers -/

theorem SimpleLines.values (l : SimpleLines) : ∃ inputs, l.head.values = [inputs] ∧ inputs ≠ 0 ∧
    inputs.toNat = l.controls.length := by
  have hlen : l.head.values.length = 1 := (List.length_map ..).trans l.head_length
  obtain ⟨inputs, hinputs⟩ := List.length_eq_one_iff.1 hlen
  have hcounted := l.counted
  rw [hinputs] at hcounted
  refine ⟨inputs, hinputs, ?_, hcounted⟩
  rintro rfl
  exact l.nonempty (List.length_eq_zero_iff.1 hcounted.symm)

theorem SimpleLines.scanHead (l : SimpleLines) (rest : Text) :
    scanTagged 'M' 1 (l.head.text 'M' ++ rest) = l.head.values := by
  have hline := scanTagged_line l.head 'M' 0 rest
  rwa [l.head_length, scanNumbers, List.append_nil] at hline

variable {ω : Type}

theorem simpleFromText_lines (l : SimpleLines) (hrest : '\r' ∉ l.text ++ rest) :
    simpleFromText (l.text ++ rest) = some ((.simple l.pinfo : Mixer ω), rest) := by
  rcases l.values with ⟨inputs, hinputs, hne, hcount⟩
  have heq : l.text ++ rest = l.head.text 'M' ++
      (outputText l.output ++ (controlsText l.controls ++ rest)) := by
    simp [SimpleLines.text, List.append_assoc]
  rw [heq] at hrest ⊢
  have hbody : '\r' ∉ outputText l.output ++ (controlsText l.controls ++ rest) :=
    fun h => hrest (List.mem_append_right _ h)
  have hcontrols : '\r' ∉ controlsText l.controls ++ rest :=
    fun h => hbody (List.mem_append_right _ h)
  have hparse := parseControls_lines l.controls_length hcontrols
  unfold simpleFromText
  have hwell : stringWellFormed (l.head.text 'M' ++
      (outputText l.output ++ (controlsText l.controls ++ rest))) = true :=
    stringWellFormed_tagged ..
  rw [hwell, l.scanHead, hinputs, skipLine_text l.head (by decide) hbody]
  simp only [Bool.not_true, Bool.false_eq_true, if_false, hne]
  rw [parseOutput_lines l.output_length l.nonempty hcontrols]
  dsimp only
  rw [hcount, hparse]
  unfold SimpleLines.pinfo
  rw [hinputs]
  rfl

theorem simpleFromText_cut (l : SimpleLines) (htext : '\r' ∉ l.text) (h : p ++ q = l.text)
    (hq : q ≠ []) : (simpleFromText p : Option (Mixer ω × Text)) = none := by
  rcases l.values with ⟨inputs, hinputs, hne, hcount⟩
  have hbody : '\r' ∉ outputText l.output ++ controlsText l.controls :=
    fun hmem => htext (List.mem_append_right _ hmem)
  have hcontrols : '\r' ∉ controlsText l.controls :=
    fun hmem => hbody (List.mem_append_right _ hmem)
  rcases cut_cases (l.head.oneLine_tagged (by decide)) h with hone | ⟨p', hp, hp'⟩
  · unfold simpleFromText
    rw [stringWellFormed_none hone]
    rfl
  · have hcr : '\r' ∉ p' := fun hmem => hbody (hp' ▸ List.mem_append_left _ hmem)
    rw [show (('M' :: ':' :: l.head.content) ++ ['\n']) ++ p' = l.head.text 'M' ++
      p' from rfl] at hp
    have hwell : stringWellFormed (l.head.text 'M' ++ p') = true := stringWellFormed_tagged ..
    unfold simpleFromText
    rw [hp, hwell, l.scanHead, hinputs, skipLine_text l.head (by decide) hcr]
    simp only [Bool.not_true, Bool.false_eq_true, if_false, hne]
    split
    · rfl
    case h_2 scaler riseTime rest hout =>
      have hcut := parseOutput_cut l.nonempty hcontrols hp' hout
      have hnone := parseControls_cut l.controls_length hcontrols hcut hq
      rw [hcount, hnone]
      rfl

/-! ## Multirotor mixers -/

variable {configKey : List Text}

def RotorLine.text (l : RotorLine configKey) : Text := tagged 'R' l.content

theorem RotorLine.oneLine_tagged (l : RotorLine configKey) : OneLine ('R' :: ':' :: l.content) := by
  have hblanks : OneLine l.blanks := fun c hc => isLineEnd_of_isBlank (l.isBlank c hc)
  have hkey : OneLine l.key := fun c hc => isLineEnd_of_not_isSpace (l.isWord c hc).1
  exact OneLine.tagged (hblanks.append (hkey.append l.oneLine)) (by decide)

theorem RotorLine.scanGeometry (l : RotorLine configKey) (rest : Text) :
    scanGeometry (l.text ++ rest) = l.key := by
  have htext : l.text ++ rest = 'R' :: ':' ::
      (l.blanks ++ (l.key ++ (l.tail ++ '\n' :: rest))) := by
    simp [RotorLine.text, tagged, RotorLine.content]
  have hhead : ∀ c ∈ (l.tail ++ '\n' :: rest).head?,
      (!isSpace c && c != '\x00') = false := by
    intro c hc
    have hspace : isSpace c = true := by
      cases htail : l.tail with
      | nil =>
        rw [htail] at hc
        rw [← Option.some.inj hc]
        decide
      | cons d tail =>
        rw [htail] at hc
        exact l.separated c (by rw [htail]; exact hc)
    rw [hspace]
    rfl
  have hdrop : (l.blanks ++ (l.key ++ (l.tail ++ '\n' :: rest))).dropWhile isSpace =
      l.key ++ (l.tail ++ '\n' :: rest) := by
    rw [List.dropWhile_append_of_pos fun c hc => isSpace_of_isBlank (l.isBlank c hc)]
    cases hkey : l.key with
    | nil => exact absurd hkey l.nonempty
    | cons d key =>
      have hd := (l.isWord d (by simp [hkey])).1
      simp [hd]
  have hword : ∀ c ∈ l.key, (!isSpace c && c != '\x00') = true := by
    intro c hc
    simp [l.isWord c hc]
  rw [htext, Mixer.scanGeometry, hdrop, (span_append hword hhead).1,
    List.take_of_length_le l.length]

theorem multirotorFromText_line (l : RotorLine configKey) (hrest : '\r' ∉ rest) :
    multirotorFromText configKey (l.text ++ rest) =
      some ((.multirotor (configKey.idxOf l.key) : Mixer ω), rest) := by
  have hwell : stringWellFormed (l.text ++ rest) = true := stringWellFormed_tagged ..
  have hskip : skipLine (l.text ++ rest) = some rest := skipLine_tagged l.oneLine_tagged hrest
  unfold multirotorFromText
  rw [hwell, l.scanGeometry, hskip, if_neg l.nonempty]
  dsimp only
  rw [if_pos l.mem]
  rfl

/-! ## Loading -/

/-- A well-formed mixer. -/
inductive MixerLines (configKey : List Text)
  | null (l : NullLine)
  | simple (l : SimpleLines)
  | multirotor (l : RotorLine configKey)

def NullLine.text (l : NullLine) : Text := tagged 'Z' l.blanks

def MixerLines.text : MixerLines configKey → Text
  | .null l => l.text
  | .simple l => l.text
  | .multirotor l => l.text

/-- The mixer that is described. -/
def MixerLines.mixer : MixerLines configKey → Mixer ω
  | .null _ => .null
  | .simple l => .simple l.pinfo
  | .multirotor l => .multirotor (configKey.idxOf l.key)

variable {cfg : Config ω}

theorem loadFrom_eq (k : ℕ) (s : Text) : loadFrom cfg k s = loadFromBuf cfg (s.drop k) := by
  induction s generalizing k with
  | nil => cases k <;> simp [loadFromBuf, loadFrom]
  | cons c s ih =>
    cases k with
    | zero => rfl
    | succ k => exact ih k

theorem loadFromBuf_junk (hc : cfg.parser c = none) (s : Text) :
    loadFromBuf cfg (c :: s) = loadFromBuf cfg s := by
  unfold loadFromBuf
  rw [loadFrom, hc]

theorem loadFromBuf_accepted {fromText : Text → Option (Mixer ω × Text)} {m : Mixer ω} {u : Text}
    (hc : cfg.parser c = some fromText) (h : fromText (c :: (u ++ rest)) = some (m, rest)) :
    loadFromBuf cfg (c :: (u ++ rest)) =
      (m :: (loadFromBuf cfg rest).1, (loadFromBuf cfg rest).2) := by
  have hskip : (u ++ rest).length - rest.length = u.length := by
    rw [List.length_append]
    omega
  rw [loadFromBuf, loadFrom, hc]
  dsimp only
  rw [h]
  dsimp only
  rw [hskip, loadFrom_eq, List.drop_left]

theorem loadFromBuf_refused {fromText : Text → Option (Mixer ω × Text)}
    (hc : cfg.parser c = some fromText) (h : fromText (c :: s) = none) :
    loadFromBuf cfg (c :: s) = ([], c :: s) := by
  rw [loadFromBuf, loadFrom, hc]
  dsimp only
  rw [h]

theorem loadFromBuf_blanks (hs : ∀ c ∈ s, isSpace c = true) (rest : Text) :
    loadFromBuf cfg (s ++ rest) = loadFromBuf cfg rest := by
  induction s with
  | nil => rfl
  | cons d s ih =>
    have hd : cfg.parser d = none := by
      have hspace := hs d (by simp)
      unfold Config.parser
      split
      all_goals first | rfl | exact absurd hspace (by decide)
    rw [List.cons_append, loadFromBuf_junk hd]
    exact ih fun c hc => hs c (List.mem_cons_of_mem d hc)

/-! ## Mixers as units -/

theorem NullLine.oneLine_tagged (l : NullLine) : OneLine ('Z' :: ':' :: l.blanks) :=
  OneLine.tagged (fun c hc => isLineEnd_of_isBlank (l.isBlank c hc)) (by decide)

theorem SimpleLines.not_cr (l : SimpleLines) : ∀ c ∈ l.text, c ≠ '\r' := by
  have hline : ∀ (n : NumberLine) (tag : Char), isLineEnd tag = false →
      ∀ c ∈ n.text tag, c ≠ '\r' := fun n tag htag => not_cr_tagged (n.oneLine_tagged htag)
  intro c hc
  rcases List.mem_append.1 hc with hc | hc
  · exact hline l.head 'M' (by decide) c hc
  rcases List.mem_append.1 hc with hc | hc
  · cases hout : l.output with
    | none =>
      rw [hout] at hc
      cases hc
    | some o =>
      rw [hout] at hc
      exact hline o 'O' (by decide) c hc
  · rcases List.mem_flatMap.1 hc with ⟨n, -, hcn⟩
    exact hline n 'S' (by decide) c hcn

theorem MixerLines.not_cr (m : MixerLines configKey) : ∀ c ∈ m.text, c ≠ '\r' := by
  cases m with
  | null l => exact not_cr_tagged l.oneLine_tagged
  | simple l => exact l.not_cr
  | multirotor l => exact not_cr_tagged l.oneLine_tagged

theorem NullLine.complete (l : NullLine) (rest : Text) :
    loadFromBuf cfg (l.text ++ rest) =
      (.null :: (loadFromBuf cfg rest).1, (loadFromBuf cfg rest).2) := by
  have htext : l.text ++ rest = 'Z' :: ([':'] ++ ((l.blanks ++ ['\n']) ++ rest)) := rfl
  have hwell : stringWellFormed ('Z' :: ([':'] ++ ((l.blanks ++ ['\n']) ++ rest))) = true :=
    stringWellFormed_tagged 'Z' l.blanks rest
  have hparse : nullFromText ('Z' :: ([':'] ++ ((l.blanks ++ ['\n']) ++ rest))) =
      some ((.null : Mixer ω), (l.blanks ++ ['\n']) ++ rest) := by
    unfold nullFromText
    rw [hwell]
    rfl
  have hblanks : ∀ c ∈ l.blanks ++ ['\n'], isSpace c = true := by
    intro c hc
    rcases List.mem_append.1 hc with hc | hc
    · exact isSpace_of_isBlank (l.isBlank c hc)
    · rw [List.mem_singleton.1 hc]
      decide
  rw [htext, loadFromBuf_accepted rfl hparse, loadFromBuf_blanks hblanks]

theorem MixerLines.complete (m : MixerLines cfg.configKey) (hrest : '\r' ∉ rest) :
    loadFromBuf cfg (m.text ++ rest) =
      (m.mixer :: (loadFromBuf cfg rest).1, (loadFromBuf cfg rest).2) := by
  cases m with
  | null l => exact l.complete rest
  | simple l =>
    have htext : '\r' ∉ l.text ++ rest := by
      intro hmem
      rcases List.mem_append.1 hmem with hmem | hmem
      · exact l.not_cr _ hmem rfl
      · exact hrest hmem
    exact loadFromBuf_accepted rfl (simpleFromText_lines l htext)
  | multirotor l => exact loadFromBuf_accepted rfl (multirotorFromText_line l hrest)

theorem loadFromBuf_line {fromText : Text → Option (Mixer ω × Text)} {content : Text}
    (htag : cfg.parser tag = some fromText) (hone : OneLine (tag :: ':' :: content))
    (hrefuse : ∀ s, OneLine s → fromText s = none) (h : p ++ q = tagged tag content) (hq : q ≠ []) :
    loadFromBuf cfg p = ([], p) := by
  have hp : OneLine p := oneLine_of_append hone h hq
  cases p with
  | nil => rfl
  | cons c p =>
    have hc : c = tag := (List.cons.inj h).1
    exact loadFromBuf_refused (hc ▸ htag) (hrefuse _ hp)

theorem MixerLines.cut (m : MixerLines cfg.configKey) (h : p ++ q = m.text) (hq : q ≠ []) :
    loadFromBuf cfg p = ([], p) := by
  cases m with
  | null l =>
    refine loadFromBuf_line rfl l.oneLine_tagged (fun s hs => ?_) h hq
    unfold nullFromText
    rw [stringWellFormed_none hs]
    rfl
  | simple l =>
    have htext : '\r' ∉ l.text := fun hmem => l.not_cr _ hmem rfl
    have hnone : (simpleFromText p : Option (Mixer ω × Text)) = none :=
      simpleFromText_cut l htext h hq
    cases p with
    | nil => rfl
    | cons c p =>
      have hc : c = 'M' := (List.cons.inj h).1
      subst hc
      exact loadFromBuf_refused rfl hnone
  | multirotor l =>
    refine loadFromBuf_line rfl l.oneLine_tagged (fun s hs => ?_) h hq
    unfold multirotorFromText
    rw [stringWellFormed_none hs]
    rfl

theorem mixerLines_isUnit (m : MixerLines cfg.configKey) :
    IsUnit (loadFromBuf cfg) (· ≠ '\r') m.text m.mixer where
  symbols := m.not_cr
  complete := fun _ hrest => m.complete fun hmem => hrest _ hmem rfl
  cut := fun _ _ h hq => m.cut h hq

end Mixer
end DtPhm
