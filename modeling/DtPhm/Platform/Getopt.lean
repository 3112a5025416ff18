import DtPhm.Lib.Text
import Mathlib.Data.Int.Basic

/-!
# Getopt — the options of a command

`px4_getopt` is called again and again; its first call moves the options and their arguments to the
front of the argument vector, and each call after it takes the next one from there.

* `isvalidopt` — what the option string says of a character;
* `moveOptions`, `addOthers`, `reorder` — the first call's two passes over the words;
* `px4Getopt`, `calls` — one call, and several;
* `OptionString`, `scan` — letters with and without an argument, and the options they let a reader
  see;
* `scan_induction` — induction over the words of a scan.
-/

namespace DtPhm
namespace Platform
namespace Getopt

open Lib

/-- A character of a string; behind its end there is the zero. -/
def charAt (s : Text) (i : ℕ) : Char := s.getD i '\x00'

/-- The word starts with `-`. -/
def startsOption (word : Text) : Bool := charAt word 0 == '-'

/-! ## The code -/

/-- `isvalidopt`, with what it stores in `takesarg`. -/
def isvalidopt (p : Char) : (options : Text) → Char × Bool
  | [] => ('?', false)
  | c :: options => if p = c then (c, options.head? == some ':') else isvalidopt p options

/-- The first pass of `reorder`: the options and their arguments.  `none` is the return with an
error. -/
def moveOptions (options : Text) : (words : List Text) → (tmpArgv : List Text) → Option (List Text)
  | [], tmpArgv => some tmpArgv
  | word :: words, tmpArgv =>
      if startsOption word then
        let (c, takesarg) := isvalidopt (charAt word 1) options
        if c = '?' then none
        else if takesarg then
          match words with
          -- Error: option takes an argument, but there is no more argument
          | [] => none
          | arg :: words => moveOptions options words (tmpArgv ++ [word, arg])
        else moveOptions options words (tmpArgv ++ [word])
      else moveOptions options words tmpArgv

/-- The second pass: the other words. -/
def addOthers (options : Text) : (words : List Text) → (tmpArgv : List Text) → Option (List Text)
  | [], tmpArgv => some tmpArgv
  | word :: words, tmpArgv =>
      if startsOption word then
        let (c, takesarg) := isvalidopt (charAt word 1) options
        if c = '?' then none
        else if takesarg then
          match words with
          | [] => some tmpArgv
          | _ :: words => addOthers options words tmpArgv
        else addOthers options words tmpArgv
      else addOthers options words (tmpArgv ++ [word])

/-- `reorder`: the new argument vector.  Entries of `tmp_argv` that are not written hold what is
`unset`. -/
def reorder (unset : ℕ → Text) (options : Text) (argv : List Text) : Option (List Text) :=
  (moveOptions options argv.tail []).bind fun tmpArgv =>
    (addOthers options argv.tail tmpArgv).map fun tmpArgv =>
      argv.take 1 ++ (List.range (argv.length - 1)).map fun i => tmpArgv.getD i (unset i)

/-- The argument vector, the place in it, and the argument of an option.  Behind its words the
vector has a null pointer. -/
structure State where
  argv : List Text
  myoptind : ℕ
  myoptarg : Option Text

/-- `px4_getopt` behind the call of `reorder`. -/
def takeOption (options : Text) (s : State) : ℤ × State :=
  let p := s.argv[s.myoptind]?
  let s := if s.myoptarg = none then { s with myoptarg := p } else s
  match p with
  | none => (-1, s)
  | some p =>
      if startsOption p then
        let (c, takesarg) := isvalidopt (charAt p 1) options
        let s := { s with myoptind := s.myoptind + 1 }
        if c = '?' then ((c.toNat : ℤ), s)
        else if takesarg then
          let s := { s with myoptarg := s.argv[s.myoptind]? }
          -- Error: option takes an argument, but there is no more argument
          if s.myoptarg = none then (-1, s)
          else ((c.toNat : ℤ), { s with myoptind := s.myoptind + 1 })
        else ((c.toNat : ℤ), s)
      else (-1, s)

/-- `px4_getopt`. -/
def px4Getopt (unset : ℕ → Text) (options : Text) (s : State) : ℤ × State :=
  if s.myoptind = 1 then
    match reorder unset options s.argv with
    | none => (('?'.toNat : ℤ), { s with myoptind := s.myoptind + 1 })
    | some argv => takeOption options { s with argv := argv }
  else takeOption options s

/-- Several calls: what each returns, with the state it leaves. -/
def calls (unset : ℕ → Text) (options : Text) : ℕ → State → List (ℤ × State)
  | 0, _ => []
  | n + 1, s =>
      let r := px4Getopt unset options s
      r :: calls unset options n r.2

/-! ## Options and their words -/

/-- A letter of an option string. -/
structure Opt where
  letter : Char
  takesArg : Bool
  deriving DecidableEq

/-- Its part of the string. -/
def Opt.chars (o : Opt) : Text := if o.takesArg then [o.letter, ':'] else [o.letter]

/-- Distinct letters, some of them followed by `:`. -/
structure OptionString where
  opts : List Opt
  distinct : (opts.map Opt.letter).Nodup
  letters : ∀ o ∈ opts, o.letter ≠ '\x00' ∧ o.letter ≠ ':' ∧ o.letter ≠ '?' ∧ o.letter.toNat < 128

def OptionString.chars (s : OptionString) : Text := s.opts.flatMap Opt.chars

/-- An option among the words. -/
structure OptionWord where
  word : Text
  letter : Char
  arg : Option Text

/-- Its words. -/
def OptionWord.words (o : OptionWord) : List Text := o.word :: o.arg.toList

def wordsOf (options : List OptionWord) : List Text := options.flatMap OptionWord.words

/-- The options among the words, and the other words, where each option has a letter of `opts`, and
an argument behind it if the letter takes one. -/
def scan (opts : List Opt) : (words : List Text) → Option (List OptionWord × List Text)
  | [] => some ([], [])
  | word :: words =>
      if startsOption word then
        match opts.find? (·.letter = charAt word 1) with
        | none => none
        | some ⟨letter, false⟩ =>
            (scan opts words).map fun (options, others) => (⟨word, letter, none⟩ :: options, others)
        | some ⟨letter, true⟩ =>
            match words with
            | [] => none
            | arg :: words =>
                (scan opts words).map fun (options, others) =>
                  (⟨word, letter, some arg⟩ :: options, others)
      else (scan opts words).map fun (options, others) => (options, word :: others)

/-! ## What is scanned -/

variable {opts : List Opt} {words others : List Text} {options : List OptionWord} {word arg : Text}

/-- The words with the options in front, and in each part in their order. -/
structure Reordered (words options others : List Text) : Prop where
  perm : (options ++ others).Perm words
  options_sublist : options.Sublist words
  others_sublist : others.Sublist words

namespace Reordered

variable {front : List Text}

theorem option (h : Reordered words front others) (ws : List Text) :
    Reordered (ws ++ words) (ws ++ front) others where
  perm := by
    rw [List.append_assoc]
    exact h.perm.append_left ws
  options_sublist := h.options_sublist.append_left ws
  others_sublist := h.others_sublist.trans (List.sublist_append_right ws words)

theorem other (h : Reordered words front others) (w : Text) :
    Reordered (w :: words) front (w :: others) where
  perm := List.perm_middle.trans (h.perm.cons w)
  options_sublist := h.options_sublist.cons w
  others_sublist := h.others_sublist.cons_cons w

end Reordered

/-- An option that has been scanned, by the letters it was scanned with. -/
def OptionWord.Among (opts : List Opt) (o : OptionWord) : Prop :=
  startsOption o.word = true ∧
    opts.find? (·.letter = charAt o.word 1) = some ⟨o.letter, o.arg.isSome⟩

variable {o : OptionWord} {found : List OptionWord}

theorem scan_option (ho : o.Among opts) :
    scan opts (o.words ++ words) = (scan opts words).map fun (options, others) =>
      (o :: options, others) := by
  obtain ⟨word, letter, arg⟩ := o
  obtain ⟨hstart, hfind⟩ := ho
  have hstart : startsOption word = true := hstart
  rw [OptionWord.words, scan.eq_def]
  cases arg with
  | none =>
      have hfind : opts.find? (·.letter = charAt word 1) = some ⟨letter, false⟩ := hfind
      simp [hstart, hfind]
  | some arg =>
      have hfind : opts.find? (·.letter = charAt word 1) = some ⟨letter, true⟩ := hfind
      simp [hstart, hfind]

theorem scan_other (hplain : startsOption word = false) :
    scan opts (word :: words) = (scan opts words).map fun (options, others) =>
      (options, word :: others) := by
  rw [scan.eq_def]
  simp [hplain]

/-- What holds of no words, and goes on to one more option or another word, holds of all that is
scanned. -/
theorem scan_induction {motive : List Text → List OptionWord → List Text → Prop}
    (nil : motive [] [] [])
    (option : ∀ {o words found others}, o.Among opts → motive words found others →
      motive (o.words ++ words) (o :: found) others)
    (other : ∀ {word words found others}, startsOption word = false → motive words found others →
      motive (word :: words) found (word :: others))
    (hscan : scan opts words = some (found, others)) : motive words found others := by
  fun_induction scan opts words generalizing found others with
  | case1 =>
      cases hscan
      exact nil
  | case2 word words hstart hfind => cases hscan
  | case3 word words hstart letter hfind ih =>
      obtain ⟨⟨found, others⟩, hrest, heq⟩ := Option.map_eq_some_iff.1 hscan
      cases heq
      have hamong : OptionWord.Among opts ⟨word, letter, none⟩ := ⟨hstart, hfind⟩
      exact option hamong (ih hrest)
  | case4 word hstart letter hfind => cases hscan
  | case5 word hstart letter hfind arg words ih =>
      obtain ⟨⟨found, others⟩, hrest, heq⟩ := Option.map_eq_some_iff.1 hscan
      cases heq
      have hamong : OptionWord.Among opts ⟨word, letter, some arg⟩ := ⟨hstart, hfind⟩
      exact option hamong (ih hrest)
  | case6 word words hstart ih =>
      obtain ⟨⟨found, others⟩, hrest, heq⟩ := Option.map_eq_some_iff.1 hscan
      cases heq
      exact other (Bool.eq_false_iff.2 hstart) (ih hrest)

end Getopt
end Platform
end DtPhm
