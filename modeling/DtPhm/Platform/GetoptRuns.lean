import DtPhm.Platform.Getopt
import Mathlib.Data.List.GetD

/-!
# GetoptRuns — which words the calls take for options

`isvalidopt` looks for a character in the whole option string, the separators included.  Where an
option takes an argument, the word `-:` is an option too.

* `OptionString.accepted`, `isvalidopt_chars` — the letters that `isvalidopt` finds;
* `Reads.reorder`, `Reads.calls` — the passes and the calls follow the scan with these letters;
* `ParsesRightly` — what the calls should do with the letters of the option string;
* `Fooled`, `parsesRightly_iff` — the words for which they do not.
-/

namespace DtPhm
namespace Platform
namespace Getopt

open Lib

variable {opts : List Opt} {words others : List Text} {found : List OptionWord}
    {options word arg : Text}
  {c : Char}

/-! ## The letters that are found -/

/-- What `isvalidopt` answers. -/
def answer : Option Opt → Char × Bool
  | none => ('?', false)
  | some o => (o.letter, o.takesArg)

theorem head?_flatMap_chars_ne (h : ∀ o ∈ opts, o.letter ≠ ':') :
    (opts.flatMap Opt.chars).head? ≠ some ':' := by
  cases opts with
  | nil => exact (Option.some_ne_none ':').symm
  | cons o opts =>
      have ho : o.letter ≠ ':' := h o List.mem_cons_self
      rw [List.flatMap_cons, Opt.chars]
      cases o.takesArg <;> simpa using ho

theorem isvalidopt_of_ne (h : ∀ o ∈ opts, o.letter ≠ ':') (hc : c ≠ ':') :
    isvalidopt c (opts.flatMap Opt.chars) = answer (opts.find? (·.letter = c)) := by
  induction opts with
  | nil => rfl
  | cons o opts ih =>
      have hrest : ∀ o ∈ opts, o.letter ≠ ':' := fun o' ho' => h o' (List.mem_cons_of_mem o ho')
      have hnext := head?_flatMap_chars_ne hrest
      obtain ⟨letter, takesArg⟩ := o
      rw [List.flatMap_cons, Opt.chars]
      by_cases heq : c = letter
      -- a separator behind the letter is its own, since the next letter is none
      · subst heq
        cases takesArg <;> simp [isvalidopt, answer, hnext]
      · have hne : ¬letter = c := fun heq' => heq heq'.symm
        cases takesArg <;> simp [isvalidopt, heq, hne, hc, ih hrest]

theorem isvalidopt_separator (h : ∀ o ∈ opts, o.letter ≠ ':') :
    isvalidopt ':' (opts.flatMap Opt.chars) = if opts.any Opt.takesArg then (':', false) else
      ('?', false) := by
  induction opts with
  | nil => rfl
  | cons o opts ih =>
      have hrest : ∀ o ∈ opts, o.letter ≠ ':' := fun o' ho' => h o' (List.mem_cons_of_mem o ho')
      have hnext := head?_flatMap_chars_ne hrest
      have ho : ':' ≠ o.letter := (h o List.mem_cons_self).symm
      obtain ⟨letter, takesArg⟩ := o
      rw [List.flatMap_cons, Opt.chars]
      cases takesArg with
      | false => simp [isvalidopt, ho, ih hrest]
      | true => simp [isvalidopt, ho, hnext]

/-- The letters of the option string, and the separator if there is one. -/
def OptionString.accepted (s : OptionString) : List Opt :=
  s.opts ++ if s.opts.any Opt.takesArg then [⟨':', false⟩] else []

theorem isvalidopt_chars (s : OptionString) (c : Char) :
    isvalidopt c s.chars = answer (s.accepted.find? (·.letter = c)) := by
  have hletters : ∀ o ∈ s.opts, o.letter ≠ ':' := fun o ho => (s.letters o ho).2.1
  rw [OptionString.chars, OptionString.accepted, List.find?_append]
  by_cases hc : c = ':'
  · subst hc
    have hnone : s.opts.find? (·.letter = ':') = none := by
      simpa using hletters
    rw [isvalidopt_separator hletters, hnone]
    cases s.opts.any Opt.takesArg <;> rfl
  · have hnone :
        (if s.opts.any Opt.takesArg then [(⟨':', false⟩ : Opt)] else []).find? (·.letter = c) =
        none := by
      split <;> simp [Ne.symm hc]
    rw [isvalidopt_of_ne hletters hc, hnone, Option.or_none]

/-! ## The passes -/

/-- In the option string `isvalidopt` finds the letters `opts`. -/
structure Reads (options : Text) (opts : List Opt) : Prop where
  valid : ∀ c, isvalidopt c options = answer (opts.find? (·.letter = c))
  letters : ∀ o ∈ opts, o.letter ≠ '?'

theorem OptionString.reads (s : OptionString) : Reads s.chars s.accepted where
  valid := isvalidopt_chars s
  letters := by
    intro o ho
    rcases List.mem_append.1 ho with ho | ho
    · exact (s.letters o ho).2.2.1
    · split at ho
      · obtain rfl := List.mem_singleton.1 ho
        decide
      · cases ho

namespace Reads

theorem valid_of_none (h : Reads options opts) (hfind : opts.find? (·.letter = c) = none) :
    isvalidopt c options = ('?', false) := by
  rw [h.valid, hfind]
  rfl

theorem valid_of_some (h : Reads options opts) {o : Opt}
    (hfind : opts.find? (·.letter = c) = some o) :
    isvalidopt c options = (o.letter, o.takesArg) ∧ o.letter ≠ '?' := by
  refine ⟨?_, h.letters o (List.mem_of_find?_eq_some hfind)⟩
  rw [h.valid, hfind]
  rfl

theorem moveOptions (h : Reads options opts) (tmpArgv : List Text) :
    moveOptions options words tmpArgv = (scan opts words).map fun r => tmpArgv ++ wordsOf r.1 := by
  fun_induction scan opts words generalizing tmpArgv with
  | case1 => simp [Getopt.moveOptions, wordsOf]
  | case2 word words hstart hfind =>
      rw [Getopt.moveOptions.eq_def]
      simp [hstart, h.valid_of_none hfind]
  | case3 word words hstart letter hfind ih =>
      obtain ⟨hvalid, hletter⟩ := h.valid_of_some hfind
      rw [Getopt.moveOptions.eq_def]
      simp [hstart, hvalid, hletter, ih, wordsOf, OptionWord.words, Function.comp_def]
  | case4 word hstart letter hfind =>
      obtain ⟨hvalid, hletter⟩ := h.valid_of_some hfind
      rw [Getopt.moveOptions.eq_def]
      simp [hstart, hvalid, hletter]
  | case5 word hstart letter hfind arg words ih =>
      obtain ⟨hvalid, hletter⟩ := h.valid_of_some hfind
      rw [Getopt.moveOptions.eq_def]
      simp [hstart, hvalid, hletter, ih, wordsOf, OptionWord.words, Function.comp_def]
  | case6 word words hstart ih =>
      rw [Getopt.moveOptions.eq_def]
      simp [hstart, ih, Function.comp_def]

theorem addOthers_option (h : Reads options opts) {o : OptionWord} (ho : o.Among opts)
    (tmpArgv : List Text) :
    Getopt.addOthers options (o.words ++ words) tmpArgv =
      Getopt.addOthers options words tmpArgv := by
  obtain ⟨word, letter, arg⟩ := o
  have hstart : startsOption word = true := ho.1
  obtain ⟨hvalid, hletter⟩ : isvalidopt (charAt word 1) options = (letter, arg.isSome) ∧
      letter ≠ '?' :=
    h.valid_of_some ho.2
  rw [OptionWord.words, Getopt.addOthers.eq_def]
  cases arg <;> simp [hstart, hvalid, hletter]

theorem addOthers (h : Reads options opts) (hscan : scan opts words = some (found, others)) :
    ∀ tmpArgv, Getopt.addOthers options words tmpArgv = some (tmpArgv ++ others) := by
  refine scan_induction (motive := fun words _ others =>
    ∀ tmpArgv, Getopt.addOthers options words tmpArgv = some (tmpArgv ++ others)) ?_ ?_ ?_ hscan
  · intro tmpArgv
    rw [Getopt.addOthers, List.append_nil]
  · intro o words found others ho ih tmpArgv
    exact (h.addOthers_option ho tmpArgv).trans (ih tmpArgv)
  · intro word words found others hplain ih tmpArgv
    rw [Getopt.addOthers.eq_def]
    simp [hplain, ih]

end Reads

/-- What a scan finds. -/
structure Scanned (opts : List Opt) (words : List Text) (found : List OptionWord)
    (others : List Text) :
    Prop where
  reordered : Reordered words (wordsOf found) others
  among : ∀ o ∈ found, o.Among opts
  plain : ∀ word ∈ others, startsOption word = false

theorem scanned_of_scan (hscan : scan opts words = some (found, others)) :
    Scanned opts words found others := by
  refine scan_induction (motive := Scanned opts) ?_ ?_ ?_ hscan
  · have hnil : Reordered [] [] [] :=
      ⟨List.Perm.refl [], List.Sublist.refl [], List.Sublist.refl []⟩
    exact ⟨hnil, List.forall_mem_nil _, List.forall_mem_nil _⟩
  · intro o words found others ho ih
    exact ⟨ih.reordered.option o.words, List.forall_mem_cons.2 ⟨ho, ih.among⟩, ih.plain⟩
  · intro word words found others hplain ih
    exact ⟨ih.reordered.other word, ih.among, List.forall_mem_cons.2 ⟨hplain, ih.plain⟩⟩

theorem map_getD_range {tmpArgv : List Text} (unset : ℕ → Text) {n : ℕ}
    (hlength : tmpArgv.length = n) :
    ((List.range n).map fun i => tmpArgv.getD i (unset i)) = tmpArgv := by
  apply List.ext_getElem
  · rw [List.length_map, List.length_range, hlength]
  · intro i hi hi'
    rw [List.getElem_map, List.getElem_range]
    exact List.getD_eq_getElem _ _ hi'

theorem Reads.reorder (h : Reads options opts) (unset : ℕ → Text) (prog : Text)
    (words : List Text) :
    reorder unset options (prog :: words) =
      (scan opts words).map fun r => prog :: (wordsOf r.1 ++ r.2) := by
  rw [Getopt.reorder, List.tail_cons, h.moveOptions]
  cases hscan : scan opts words with
  | none => rfl
  | some r =>
      obtain ⟨found, others⟩ := r
      have hlength : (wordsOf found ++ others).length = words.length :=
        (scanned_of_scan hscan).reordered.perm.length_eq
      rw [Option.map_some, Option.bind_some, h.addOthers hscan, Option.map_some, List.nil_append,
        List.length_cons, Nat.add_sub_cancel, map_getD_range unset hlength]
      rfl

/-! ## The calls -/

variable {pre : List Text} {o : OptionWord} {myoptarg : Option Text} {unset : ℕ → Text}

theorem Reads.takeOption (h : Reads options opts) (ho : o.Among opts) :
    ∃ myoptarg', takeOption options ⟨pre ++ (o.words ++ others), pre.length, myoptarg⟩ =
        ((o.letter.toNat : ℤ),
          ⟨pre ++ (o.words ++ others), pre.length + o.words.length, myoptarg'⟩) ∧
      ∀ arg, o.arg = some arg → myoptarg' = some arg := by
  obtain ⟨word, letter, arg⟩ := o
  have hstart : startsOption word = true := ho.1
  obtain ⟨hvalid, hletter⟩ : isvalidopt (charAt word 1) options = (letter, arg.isSome) ∧
      letter ≠ '?' :=
    h.valid_of_some ho.2
  have hword : (pre ++ (word :: (arg.toList ++ others)))[pre.length]? = some word := by
    rw [List.getElem?_append_right (Nat.le_refl _), Nat.sub_self]
    rfl
  cases arg with
  | none =>
      have hno : ∀ myoptarg' : Option Text, ∀ arg, none = some arg → myoptarg' = some arg := by
        intro _ arg harg
        cases harg
      simp only [Getopt.takeOption, OptionWord.words, List.cons_append, hword, hstart, hvalid]
      cases myoptarg with
      | none => exact ⟨some word, by simp [hletter], hno _⟩
      | some old => exact ⟨some old, by simp [hletter], hno _⟩
  | some arg =>
      refine ⟨some arg, ?_, fun _ harg => harg⟩
      simp only [Getopt.takeOption, OptionWord.words, List.cons_append, hword, hstart, hvalid]
      cases myoptarg <;> simp [hletter]

theorem takeOption_others (hplain : ∀ word ∈ others, startsOption word = false) :
    ∃ myoptarg', takeOption options ⟨pre ++ others, pre.length, myoptarg⟩ =
      (-1, ⟨pre ++ others, pre.length, myoptarg'⟩) := by
  have hword : (pre ++ others)[pre.length]? = others.head? := by
    rw [List.getElem?_append_right (Nat.le_refl _), Nat.sub_self, List.head?_eq_getElem?]
  rw [takeOption, hword]
  cases others with
  | nil => cases myoptarg <;> exact ⟨_, rfl⟩
  | cons word others =>
      have hstart : startsOption word = false := hplain word List.mem_cons_self
      simp only [List.head?_cons, hstart]
      cases myoptarg <;> exact ⟨_, rfl⟩

/-- The calls return the options `found`, one after another, and then that there are no more of
them; all leave the vector `argv`, and the last one the place `myoptind`. -/
inductive TakesOptions (argv : List Text) (myoptind : ℕ) : List OptionWord → List (ℤ × State) → Prop
  | done (s : State) (hargv : s.argv = argv) (hind : s.myoptind = myoptind) :
      TakesOptions argv myoptind [] [(-1, s)]
  | option {found : List OptionWord} {rs : List (ℤ × State)} (o : OptionWord) (s : State)
      (hargv : s.argv = argv) (harg : ∀ arg, o.arg = some arg → s.myoptarg = some arg)
      (rest : TakesOptions argv myoptind found rs) :
      TakesOptions argv myoptind (o :: found) (((o.letter.toNat : ℤ), s) :: rs)

theorem Reads.calls (h : Reads options opts) (hpre : 0 < pre.length)
    (hamong : ∀ o ∈ found, o.Among opts)
    (hplain : ∀ word ∈ others, startsOption word = false) {s : State}
    (hs : px4Getopt unset options s =
      Getopt.takeOption options ⟨pre ++ (wordsOf found ++ others), pre.length, myoptarg⟩) :
    TakesOptions (pre ++ (wordsOf found ++ others)) (pre.length + (wordsOf found).length) found
      (calls unset options (found.length + 1) s) := by
  induction found generalizing pre s myoptarg with
  | nil =>
      obtain ⟨myoptarg', hlast⟩ : ∃ myoptarg',
          Getopt.takeOption options ⟨pre ++ others, pre.length, myoptarg⟩ =
          (-1, ⟨pre ++ others, pre.length, myoptarg'⟩) := takeOption_others hplain
      rw [Getopt.calls, hs.trans hlast]
      exact TakesOptions.done _ rfl rfl
  | cons o found ih =>
      have hsplit : wordsOf (o :: found) ++ others = o.words ++ (wordsOf found ++ others) := by
        rw [wordsOf, List.flatMap_cons, List.append_assoc]
        rfl
      have hlength : pre.length + (wordsOf (o :: found)).length =
          (pre ++ o.words).length + (wordsOf found).length := by
        rw [wordsOf, List.flatMap_cons, List.length_append, List.length_append, Nat.add_assoc]
        rfl
      obtain ⟨myoptarg', htake, harg⟩ : ∃ myoptarg',
          Getopt.takeOption options ⟨pre ++ (o.words ++ (wordsOf found ++ others)), pre.length,
            myoptarg⟩ =
            ((o.letter.toNat : ℤ),
              ⟨pre ++ (o.words ++ (wordsOf found ++ others)), pre.length + o.words.length,
                myoptarg'⟩) ∧
          ∀ arg, o.arg = some arg → myoptarg' = some arg :=
            h.takeOption (hamong o List.mem_cons_self)
      rw [hsplit] at hs ⊢
      have hplace : pre.length + o.words.length = (pre ++ o.words).length := List.length_append.symm
      rw [Getopt.calls, hs.trans htake, hlength, hplace, ← List.append_assoc]
      refine TakesOptions.option o _ rfl harg ?_
      -- the words are not reordered again: the place is behind the first one
      have hone : 1 < (pre ++ o.words).length := by
        rw [List.length_append, OptionWord.words, List.length_cons]
        omega
      apply ih (Nat.zero_lt_of_lt hone) fun o' ho' => hamong o' (List.mem_cons_of_mem o ho')
      exact if_neg hone.ne'

/-! ## All argument vectors -/

/-- What the calls should do: take the options that the letters of the option string give, or refuse
at once. -/
def ParsesRightly (unset : ℕ → Text) (s : OptionString) (prog : Text) (words : List Text)
    (myoptarg : Option Text) : Prop :=
  match scan s.opts words with
  | some (found, others) =>
      Reordered words (wordsOf found) others ∧
        TakesOptions (prog :: (wordsOf found ++ others)) (1 + (wordsOf found).length) found
          (calls unset s.chars (found.length + 1) ⟨prog :: words, 1, myoptarg⟩)
  | none =>
      let r := px4Getopt unset s.chars ⟨prog :: words, 1, myoptarg⟩
      r.1 = ('?'.toNat : ℤ) ∧ r.2.argv = prog :: words

/-- The separator is one of the options, as a letter without an argument, and nothing else is
wrong. -/
def Fooled (s : OptionString) (words : List Text) : Prop :=
  s.opts.any Opt.takesArg = true ∧
    ∃ found others, scan (s.opts ++ [⟨':', false⟩]) words = some (found, others) ∧
      ∃ o ∈ found, o.letter = ':'

theorem scan_append (more : List Opt) (hscan : scan opts words = some (found, others)) :
    scan (opts ++ more) words = some (found, others) := by
  refine scan_induction (motive := fun words found others =>
    scan (opts ++ more) words = some (found, others)) rfl ?_ ?_ hscan
  · intro o words found others ho ih
    have ho' : o.Among (opts ++ more) := by
      refine ⟨ho.1, ?_⟩
      rw [List.find?_append, ho.2, Option.some_or]
    rw [scan_option ho', ih, Option.map_some]
  · intro word words found others hplain ih
    rw [scan_other hplain, ih, Option.map_some]

theorem scan_of_append {more : List Opt}
    (hscan : scan (opts ++ more) words = some (found, others)) :
    (∀ o ∈ found, ∀ o' ∈ more, o'.letter ≠ o.letter) → scan opts words = some (found, others) := by
  refine scan_induction (motive := fun words found others =>
    (∀ o ∈ found, ∀ o' ∈ more, o'.letter ≠ o.letter) → scan opts words = some (found, others))
    (fun _ => rfl) ?_ ?_ hscan
  · intro o words found others ho ih hneed
    obtain ⟨hfirst, hneed⟩ := List.forall_mem_cons.1 hneed
    have ho' : o.Among opts := by
      refine ⟨ho.1, ?_⟩
      have hfind := ho.2
      rw [List.find?_append] at hfind
      rcases Option.or_eq_some_iff.1 hfind with hfind | ⟨-, hfind⟩
      · exact hfind
      · exact absurd rfl (hfirst _ (List.mem_of_find?_eq_some hfind))
    rw [scan_option ho', ih hneed, Option.map_some]
  · intro word words found others hplain ih hneed
    rw [scan_other hplain, ih hneed, Option.map_some]

theorem Reads.px4Getopt_of_some (h : Reads options opts) (prog : Text)
    (hscan : scan opts words = some (found, others)) :
    px4Getopt unset options ⟨prog :: words, 1, myoptarg⟩ =
      Getopt.takeOption options ⟨[prog] ++ (wordsOf found ++ others), 1, myoptarg⟩ := by
  rw [px4Getopt, if_pos rfl, h.reorder, hscan]
  rfl

theorem Reads.calls_of_some (h : Reads options opts) (prog : Text)
    (hscan : scan opts words = some (found, others)) :
    TakesOptions (prog :: (wordsOf found ++ others)) (1 + (wordsOf found).length) found
      (Getopt.calls unset options (found.length + 1) ⟨prog :: words, 1, myoptarg⟩) := by
  have hscanned := scanned_of_scan hscan
  have hpre : 0 < [prog].length := Nat.one_pos
  exact h.calls hpre hscanned.among hscanned.plain (h.px4Getopt_of_some prog hscan)

theorem Reads.px4Getopt_of_none (h : Reads options opts) (prog : Text)
    (hscan : scan opts words = none) :
    px4Getopt unset options ⟨prog :: words, 1, myoptarg⟩ =
      (('?'.toNat : ℤ), ⟨prog :: words, 2, myoptarg⟩) := by
  rw [px4Getopt, if_pos rfl, h.reorder, hscan]
  rfl

theorem letter_ne_question (h : Reads options opts) (hscan : scan opts words = some (found, others))
    {o : OptionWord} (ho : o ∈ found) : o.letter ≠ '?' :=
  h.letters _ (List.mem_of_find?_eq_some ((scanned_of_scan hscan).among o ho).2)

/-- The words are refused by the option string, and not by `isvalidopt`. -/
theorem fooled_iff {s : OptionString} :
    Fooled s words ↔ scan s.opts words = none ∧ ∃ r, scan s.accepted words = some r := by
  constructor
  · rintro ⟨hany, found, others, hscan, o, ho, hletter⟩
    refine ⟨?_, (found, others), by rwa [OptionString.accepted, if_pos hany]⟩
    cases hopts : scan s.opts words with
    | none => rfl
    | some r =>
        obtain rfl : r = (found, others) :=
          Option.some.inj ((scan_append [⟨':', false⟩] hopts).symm.trans hscan)
        have hfind := ((scanned_of_scan hopts).among o ho).2
        exact absurd hletter (s.letters _ (List.mem_of_find?_eq_some hfind)).2.1
  · rintro ⟨hopts, ⟨found, others⟩, hscan⟩
    -- only the separator can make the difference
    rw [OptionString.accepted] at hscan
    by_cases hany : s.opts.any Opt.takesArg = true
    · rw [if_pos hany] at hscan
      refine ⟨hany, found, others, hscan, ?_⟩
      by_contra hno
      have hneed : ∀ o ∈ found, ∀ o' ∈ [(⟨':', false⟩ : Opt)], o'.letter ≠ o.letter := by
        intro o ho o' ho' heq
        obtain rfl := List.mem_singleton.1 ho'
        exact hno ⟨o, ho, heq.symm⟩
      cases hopts.symm.trans (scan_of_append hscan hneed)
    · rw [if_neg hany, List.append_nil] at hscan
      cases hopts.symm.trans hscan

theorem TakesOptions.head_eq {argv : List Text} {myoptind : ℕ} {r : ℤ × State}
    {rs : List (ℤ × State)}
    (h : TakesOptions argv myoptind (o :: found) (r :: rs)) : r.1 = (o.letter.toNat : ℤ) := by
  cases h
  rfl

theorem Reads.px4Getopt_fst_ne (h : Reads options opts) (prog : Text)
    (hscan : scan opts words = some (found, others)) (ho : o ∈ found) :
    (px4Getopt unset options ⟨prog :: words, 1, myoptarg⟩).1 ≠ ('?'.toNat : ℤ) := by
  cases found with
  | nil => cases ho
  | cons o' found =>
      have hcalls :
          TakesOptions _ _ _ (Getopt.calls unset options _ ⟨prog :: words, 1, myoptarg⟩) :=
        h.calls_of_some prog hscan
      have hletter : o'.letter ≠ '?' := letter_ne_question h hscan List.mem_cons_self
      rw [Getopt.calls] at hcalls
      rw [hcalls.head_eq]
      intro heq
      exact hletter (Char.toNat_inj.1 (Int.ofNat.inj heq))

/-- The calls do what they should, but for the words that take the separator for a letter. -/
theorem parsesRightly_iff (unset : ℕ → Text) (s : OptionString) (prog : Text) (words : List Text)
    (myoptarg : Option Text) : ParsesRightly unset s prog words myoptarg ↔ ¬Fooled s words := by
  rw [fooled_iff, ParsesRightly]
  cases hopts : scan s.opts words with
  | some r =>
      obtain ⟨found, others⟩ := r
      have haccepted : scan s.accepted words = some (found, others) := scan_append _ hopts
      exact iff_of_true
        ⟨(scanned_of_scan hopts).reordered, s.reads.calls_of_some prog haccepted⟩ fun hnone =>
          nomatch hnone.1
  | none =>
      cases haccepted : scan s.accepted words with
      | none =>
          rw [s.reads.px4Getopt_of_none prog haccepted]
          exact iff_of_true ⟨rfl, rfl⟩ fun hsome => nomatch hsome.2
      | some r =>
          obtain ⟨found, others⟩ := r
          cases found with
          | nil =>
              -- words without an option are never refused
              have hopts' := scan_of_append haccepted (List.forall_mem_nil _)
              cases hopts.symm.trans hopts'
          | cons o found =>
              refine iff_of_false (fun hright => ?_) (not_not.2 ⟨rfl, _, rfl⟩)
              exact s.reads.px4Getopt_fst_ne prog haccepted List.mem_cons_self hright.1

/-- With an option `-a` that takes an argument, the word `-:` alone is taken for an option. -/
theorem separator_is_taken :
    ¬∀ (unset : ℕ → Text) (s : OptionString) (prog : Text) (words : List Text) (myoptarg :
      Option Text),
      ParsesRightly unset s prog words myoptarg := by
  intro hall
  have hright :=
    hall (fun _ => []) ⟨[⟨'a', true⟩], by decide, by decide⟩ "prog".toList ["-:".toList] none
  exact absurd hright.1 (by decide)

end Getopt
end Platform
end DtPhm
