import DtPhm.Lib.Unwinding
import DtPhm.Tune.Tunes
import Mathlib.Data.List.DropRight

/-!
# Playback — what a tune sounds like depends on the tune

Two callers play the same tune.  Their variables hold different values before the calls, and the
compiler orders the arguments of a function in different ways.

* `readLoop_eq`, `Round.Below` — the loops over the string, and that the parser comes to an end;
* `arguments_eq` — when the order of the arguments does not matter;
* `Regular`, `blind_iff` — the calls that do not depend on the caller;
* `playback_eq` — runs of such calls;
* `rest_replays` — a rest that is played with what the caller's variables held.
-/

namespace DtPhm
namespace Tune

open Lib

variable {accepts accepts' : Char → Bool} {add add' : UInt32 → Char → UInt32} {text : Text}
    {number : UInt32}

/-! ## The loops over the string -/

theorem nextChar_blank {c : Char} (h : isSpace c = true) :
    nextChar (c :: text) = nextChar text := by
  rw [nextChar, List.dropWhile_cons_of_pos h, nextChar]

theorem nextChar_cons {c : Char} (h : isSpace c = false) :
    nextChar (c :: text) = (c.toUpper, c :: text) := by
  rw [nextChar, List.dropWhile_cons_of_neg (by simp [h])]
  rfl

theorem readLoop_eq (hzero : accepts '\x00' = false) :
    readLoop accepts add text number =
      if accepts (nextChar text).1 then
        readLoop accepts add (nextChar text).2.tail (add number (nextChar text).1)
      else (number, (nextChar text).2) := by
  induction text with
  | nil =>
      have hnul : nextChar [] = ('\x00', []) := by decide
      rw [hnul, hzero]
      rfl
  | cons c text ih =>
      rw [readLoop]
      by_cases hblank : isSpace c = true
      · rw [if_pos hblank, ih, nextChar_blank hblank]
      · rw [if_neg hblank, nextChar_cons (Bool.eq_false_iff.2 hblank)]
        rfl

theorem length_nextChar_le (text : Text) : (nextChar text).2.length ≤ text.length :=
  (List.dropWhile_suffix _).length_le

theorem length_readLoop_le (accepts : Char → Bool) (add : UInt32 → Char → UInt32) (text : Text)
    (number : UInt32) : (readLoop accepts add text number).2.length ≤ text.length := by
  induction text generalizing number with
  | nil => exact Nat.le_refl _
  | cons c text ih =>
      rw [readLoop]
      split
      · exact Nat.le_succ_of_le (ih number)
      · split
        · exact Nat.le_succ_of_le (ih _)
        · exact Nat.le_refl _

theorem nextChar_readLoop (accepts : Char → Bool) (add : UInt32 → Char → UInt32) (text : Text)
    (number : UInt32) :
    (nextChar (readLoop accepts add text number).2).2 = (readLoop accepts add text number).2 := by
  induction text generalizing number with
  | nil => rfl
  | cons c text ih =>
      rw [readLoop]
      by_cases hblank : isSpace c = true
      · rw [if_pos hblank]
        exact ih number
      · rw [if_neg hblank]
        split
        · exact ih _
        · rw [nextChar_cons (Bool.eq_false_iff.2 hblank)]

theorem readLoop_nextChar (accepts : Char → Bool) (add : UInt32 → Char → UInt32) (text : Text)
    (number : UInt32) :
    readLoop accepts add (nextChar text).2 number = readLoop accepts add text number := by
  induction text with
  | nil => rfl
  | cons c text ih =>
      by_cases hblank : isSpace c = true
      · rw [nextChar_blank hblank, ih]
        conv_rhs => rw [readLoop, if_pos hblank]
      · rw [nextChar_cons (Bool.eq_false_iff.2 hblank)]

theorem nextChar_nextChar (text : Text) : nextChar (nextChar text).2 = nextChar text := by
  simp only [nextChar, List.dropWhile_idempotent]

theorem length_tail_nextChar_lt (h : (nextChar text).1 ≠ '\x00') :
    (nextChar text).2.tail.length < text.length := by
  have hle := length_nextChar_le text
  cases hrest : (nextChar text).2 with
  | nil =>
      have hend : (nextChar text).1 = '\x00' := by
        have hsame := nextChar_nextChar text
        rw [hrest] at hsame
        rw [← hsame]
        decide
      exact absurd hend h
  | cons c rest =>
      rw [hrest] at hle
      exact hle

section

variable (hzero : accepts '\x00' = false)
include hzero

theorem readLoop_of_not (h : accepts (nextChar text).1 = false) :
    readLoop accepts add text number = (number, (nextChar text).2) := by
  rw [readLoop_eq hzero, h]
  rfl

theorem length_readLoop_lt (h : accepts (nextChar text).1 = true) :
    (readLoop accepts add text number).2.length < text.length := by
  have hne : (nextChar text).1 ≠ '\x00' := by
    intro heq
    rw [heq, hzero] at h
    cases h
  rw [readLoop_eq hzero, if_pos h]
  exact (length_readLoop_le ..).trans_lt (length_tail_nextChar_lt hne)

theorem readLoop_readLoop_of_not
    (h : accepts (nextChar (readLoop accepts' add' text number).2).1 = false) (number' : UInt32) :
    readLoop accepts add (readLoop accepts' add' text number).2 number' =
      (number', (readLoop accepts' add' text number).2) := by
  rw [readLoop_of_not hzero h, nextChar_readLoop]

end

/-! ## The order of the arguments -/

theorem isDigit_zero : Char.isDigit '\x00' = false := by decide

theorem isDot_zero : isDot '\x00' = false := by decide

theorem isDot_of_isDigit {c : Char} (h : c.isDigit = true) : isDot c = false := by
  have hne : c ≠ '.' := by
    rintro rfl
    exact absurd h (by decide)
  simpa [isDot] using hne

/-- Both a number and dots follow. -/
def Mixed (text : Text) : Prop :=
  ((nextChar text).1.isDigit = true ∧ isDot (nextChar (nextNumber text).2).1 = true) ∨
    (isDot (nextChar text).1 = true ∧ (nextChar (nextDots text).2).1.isDigit = true)

theorem nextDots_of_not (h : isDot (nextChar text).1 = false) :
    nextDots text = (0, (nextChar text).2) :=
  readLoop_of_not isDot_zero h

theorem nextNumber_of_not (h : (nextChar text).1.isDigit = false) :
    nextNumber text = (0, (nextChar text).2) :=
  readLoop_of_not isDigit_zero h

theorem arguments_eq_of_not_mixed (h : ¬Mixed text) :
    arguments .numberFirst text = arguments .dotsFirst text := by
  obtain ⟨hnumber, hdots⟩ := not_or.1 h
  by_cases hdigit : (nextChar text).1.isDigit = true
  -- a number alone: no dots, neither in front of it nor behind it
  · have hafter : isDot (nextChar (nextNumber text).2).1 = false :=
      Bool.eq_false_iff.2 fun hdot => hnumber ⟨hdigit, hdot⟩
    have hlast : nextDots (nextNumber text).2 = (0, (nextNumber text).2) :=
      readLoop_readLoop_of_not isDot_zero hafter 0
    have hfirst := nextDots_of_not (isDot_of_isDigit hdigit)
    have hsame : nextNumber (nextChar text).2 = nextNumber text := readLoop_nextChar ..
    simp only [arguments, hlast, hfirst, hsame]
  -- dots alone, or none of both
  · have hfirst := nextNumber_of_not (Bool.eq_false_iff.2 hdigit)
    have hsame : nextDots (nextChar text).2 = nextDots text := readLoop_nextChar ..
    have hafter : (nextChar (nextDots text).2).1.isDigit = false := by
      by_cases hdot : isDot (nextChar text).1 = true
      · exact Bool.eq_false_iff.2 fun hdigit' => hdots ⟨hdot, hdigit'⟩
      · rw [nextDots_of_not (Bool.eq_false_iff.2 hdot), nextChar_nextChar]
        exact Bool.eq_false_iff.2 hdigit
    have hlast : nextNumber (nextDots text).2 = (0, (nextDots text).2) :=
      readLoop_readLoop_of_not isDigit_zero hafter 0
    simp only [arguments, hlast, hfirst, hsame]

/-- Of a number and dots, the other order leaves what it reads first not to be there. -/
theorem arguments_ne_of_mixed (h : Mixed text) :
    (arguments .numberFirst text).2.2 ≠ (arguments .dotsFirst text).2.2 := by
  intro heq
  rcases h with ⟨hdigit, hdot⟩ | ⟨hdot, hdigit⟩
  · have hfirst := nextDots_of_not (isDot_of_isDigit hdigit)
    have hsame : nextNumber (nextChar text).2 = nextNumber text := readLoop_nextChar ..
    simp only [arguments, hfirst, hsame] at heq
    have hlt : (nextDots (nextNumber text).2).2.length < (nextNumber text).2.length :=
      length_readLoop_lt isDot_zero hdot
    exact hlt.ne (congrArg List.length heq)
  · have hnot : (nextChar text).1.isDigit = false := by
      by_contra hdigit'
      rw [Bool.not_eq_false] at hdigit'
      cases (isDot_of_isDigit hdigit').symm.trans hdot
    have hfirst := nextNumber_of_not hnot
    have hsame : nextDots (nextChar text).2 = nextDots text := readLoop_nextChar ..
    simp only [arguments, hfirst, hsame] at heq
    have hlt : (nextNumber (nextDots text).2).2.length < (nextDots text).2.length :=
      length_readLoop_lt isDigit_zero hdigit
    exact hlt.ne' (congrArg List.length heq)

theorem arguments_eq (h : ¬Mixed text) (order order' : Order) :
    arguments order text = arguments order' text := by
  have hsame := arguments_eq_of_not_mixed h
  cases order <;> cases order' <;> simp only [hsame]

/-! ## The parser comes to an end -/

/-- A round leaves less than `n` characters to the next one. -/
def Round.Below (n : ℕ) : Round → Prop
  | .next _ _ _ text => text.length < n
  | .exit _ _ => True

theorem Round.Below.ite {n : ℕ} {p : Prop} [Decidable p] {r r' : Round} (h : r.Below n)
    (h' : r'.Below n) :
    (if p then r else r').Below n := by
  split
  · exact h
  · exact h'

theorem length_nextNumber_lt {n : ℕ} (h : text.length < n) : (nextNumber text).2.length < n :=
  (length_readLoop_le ..).trans_lt h

theorem length_tail_nextChar_lt_of_lt {n : ℕ} (h : text.length < n) :
    (nextChar text).2.tail.length < n := by
  have hle := length_nextChar_le text
  rw [List.length_tail]
  omega

theorem gap_below {noteLength : UInt32} {t : Tunes} {n : ℕ} (h : text.length < n) :
    (gap noteLength t text).Below n := by
  have htail := length_tail_nextChar_lt_of_lt h
  refine .ite trivial ?_
  exact .ite htail (.ite htail (.ite htail (.ite htail (.ite htail trivial))))

theorem letterNote_below {t : Tunes} {c : Char} {n : ℕ} (h : text.length < n) :
    (letterNote t c text).Below n := by
  have htail := length_tail_nextChar_lt_of_lt h
  have hhere := (length_nextChar_le text).trans_lt h
  unfold letterNote
  dsimp only
  -- with an accidental, which is taken, or without one
  split_ifs <;> first | exact length_nextNumber_lt htail | exact length_nextNumber_lt hhere

theorem command_below (noteLength : UInt32) (t : Tunes) (text : Text) :
    (command noteLength t text).Below text.length := by
  unfold command
  dsimp only
  by_cases hend : (nextChar text).1 = '\x00'
  · rw [if_pos hend]
    trivial
  · have htail := length_tail_nextChar_lt hend
    have hnumber := length_nextNumber_lt htail
    rw [if_neg hend]
    -- the commands in the order of the source: L, O, < and >, M, P, T, N, and the letters
    refine .ite (.ite trivial hnumber) ?_
    refine .ite hnumber ?_
    refine .ite htail (.ite htail ?_)
    refine .ite (gap_below htail) ?_
    refine .ite trivial ?_
    refine .ite (.ite hnumber trivial) ?_
    refine .ite (.ite trivial (.ite trivial hnumber)) ?_
    exact .ite (letterNote_below htail) trivial

theorem commands_isSome {fuel : ℕ} {noteLength : UInt32} {t : Tunes} (h : text.length < fuel) :
    (commands fuel noteLength t text).isSome = true := by
  induction fuel generalizing noteLength t text with
  | zero => exact absurd h (Nat.not_lt_zero _)
  | succ fuel ih =>
      have hbelow := command_below noteLength t text
      rw [commands]
      cases hround : command noteLength t text with
      | exit t exit => rfl
      | next t note noteLength text' =>
          rw [hround] at hbelow
          dsimp only
          split
          · exact ih (hbelow.trans_le (Nat.le_of_lt_succ h))
          · rfl

theorem exists_exit (t : Tunes) (text : Text) : ∃ t' exit, t.exit text = some (t', exit) := by
  obtain ⟨⟨t', exit⟩, h⟩ :=
      Option.isSome_iff_exists.1 (commands_isSome (Nat.lt_succ_self text.length))
  exact ⟨t', exit, h⟩

/-! ## Calls that do not depend on the caller -/

variable {noteToFrequency : UInt32 → UInt32} {t t' : Tunes} {call call' : Call} {exit : Exit}

/-- The branches that set all variables, in an order that does not matter.  Without a tempo there is
no pause to be computed. -/
def Exit.Regular (t : Tunes) : Exit → Prop
  -- the restart of a repeated tune
  | .ended => t.repeats = false
  | .pause text => t.tempo = 0 ∨ ¬Mixed text
  | .rest _ => t.tempo = 0
  | .bad | .note .. => True

/-- The call comes to such a branch. -/
def Regular (t : Tunes) : Prop :=
  t.usingCustomMsg = true ∨
    match t.playing.bind t.exit with
    | none => True
    | some (t', exit) => exit.Regular t'

instance : Decidable (Mixed text) := inferInstanceAs (Decidable (_ ∨ _))

instance : Decidable (exit.Regular t) :=
  match exit with
  | .ended => inferInstanceAs (Decidable (t.repeats = false))
  | .pause text => inferInstanceAs (Decidable (t.tempo = 0 ∨ ¬Mixed text))
  | .rest _ => inferInstanceAs (Decidable (t.tempo = 0))
  | .bad => inferInstanceAs (Decidable True)
  | .note .. => inferInstanceAs (Decidable True)

instance : Decidable (Regular t) :=
  match h : t.playing.bind t.exit with
  | none => isTrue (Or.inr (by rw [h]; trivial))
  | some (t', exit) =>
      decidable_of_iff (t.usingCustomMsg = true ∨ exit.Regular t') (by rw [Regular, h])

/-- What a call does: what is heard of it, and the object behind it. -/
def effect (r : Option (Answer × Tunes)) :
    Option ((Status × Option (UInt32 × UInt32 × UInt32)) × Tunes) :=
  r.map fun (a, t) => (a.heard, t)

theorem restDuration_of_zero (htempo : t.tempo = 0) (restLength dots : UInt32) :
    t.restDuration restLength dots = none := by
  rw [Tunes.restDuration, Tunes.wholeNotePeriod, if_pos htempo, Option.map_none]

theorem exists_restDuration (htempo : t.tempo ≠ 0) (restLength dots : UInt32) :
    ∃ silence, t.restDuration restLength dots = some silence := by
  rw [Tunes.restDuration, Tunes.wholeNotePeriod, if_neg htempo]
  exact ⟨_, rfl⟩

/-- Two callers that can be told apart by what their variables hold, or by the order of the
arguments. -/
def quiet (order : Order) : Call := ⟨0, 0, 0, order⟩

def loud (order : Order) : Call := ⟨1, 0, 0, order⟩

/-- The end of a repeated tune is heard of, with what the caller's variables hold. -/
theorem ended_regular_iff :
    (∀ call call', effect (leave noteToFrequency call t .ended) =
      effect (leave noteToFrequency call' t .ended)) ↔ t.repeats = false := by
  cases hrepeats : t.repeats with
  | false =>
      refine iff_of_true (fun call call' => ?_) rfl
      simp [leave, effect, Tunes.tuneEnd, Tunes.reset, hrepeats, Answer.heard]
  | true =>
      refine iff_of_false (fun hsame => ?_) Bool.true_eq_false.mp
      have hdiff := hsame (quiet .numberFirst) (loud .numberFirst)
      simp [leave, effect, Tunes.tuneEnd, Tunes.reset, hrepeats, Answer.heard, quiet, loud] at hdiff

/-- A rest is heard of with what the caller's variables hold, if there is a tempo. -/
theorem rest_regular_iff :
    (∀ call call', effect (leave noteToFrequency call t (.rest text)) =
      effect (leave noteToFrequency call' t (.rest text))) ↔ t.tempo = 0 := by
  constructor
  · intro hsame
    by_contra htempo
    obtain ⟨silence, hsilence⟩ := exists_restDuration htempo t.noteLength (nextDots text).1
    have hdiff := hsame (quiet .numberFirst) (loud .numberFirst)
    simp [leave, effect, hsilence, Answer.heard, quiet, loud] at hdiff
  · intro htempo call call'
    simp only [leave, restDuration_of_zero htempo]
    rfl

/-- Of a pause the arguments matter, and nothing that the caller's variables hold. -/
theorem pause_regular_iff :
    (∀ call call', effect (leave noteToFrequency call t (.pause text)) =
      effect (leave noteToFrequency call' t (.pause text))) ↔ t.tempo = 0 ∨ ¬Mixed text := by
  constructor
  · intro hsame
    by_contra hmixed
    obtain ⟨htempo, hmixed⟩ := not_or.1 hmixed
    -- the strings that are left differ
    apply arguments_ne_of_mixed (not_not.1 hmixed)
    have hnext :=
      congrArg (Option.map fun e => e.2.nextTune) (hsame (quiet .numberFirst) (quiet .dotsFirst))
    simpa [leave, effect, Tunes.restDuration, Tunes.wholeNotePeriod, htempo, quiet] using hnext
  · rintro (htempo | hmixed) call call'
    · simp only [leave, restDuration_of_zero htempo]
      rfl
    · rw [leave, leave, arguments_eq hmixed call.order call'.order]

theorem leave_regular_iff (noteToFrequency : UInt32 → UInt32) (t : Tunes) (exit : Exit) :
    (∀ call call', effect (leave noteToFrequency call t exit) =
      effect (leave noteToFrequency call' t exit)) ↔
      exit.Regular t := by
  cases exit with
  | ended => exact ended_regular_iff
  | bad => exact iff_of_true (fun _ _ => rfl) trivial
  | pause text => exact pause_regular_iff
  | rest text => exact rest_regular_iff
  | note note noteLength text => exact iff_of_true (fun _ _ => rfl) trivial

theorem heard_eq :
    heard noteToFrequency t call = (effect (getNextNote noteToFrequency t call)).map Prod.fst := by
  rw [heard, effect, Option.map_map]
  rfl

theorem afterCall_eq :
    afterCall noteToFrequency t call =
      (effect (getNextNote noteToFrequency t call)).elim t Prod.snd := by
  rw [afterCall]
  cases getNextNote noteToFrequency t call <;> rfl

theorem effect_eq : effect (getNextNote noteToFrequency t call) =
    (heard noteToFrequency t call).map fun h => (h, afterCall noteToFrequency t call) := by
  rw [heard, afterCall]
  cases getNextNote noteToFrequency t call <;> rfl

theorem effect_regular_iff :
    (∀ call call', effect (getNextNote noteToFrequency t call) =
      effect (getNextNote noteToFrequency t call')) ↔ Regular t := by
  by_cases hcustom : t.usingCustomMsg = true
  · refine iff_of_true (fun call call' => ?_) (Or.inl hcustom)
    rw [getNextNote, getNextNote, if_pos hcustom, if_pos hcustom]
  · have hregular : Regular t ↔
        match t.playing.bind t.exit with
        | none => True
        | some (t', exit) => exit.Regular t' := or_iff_right hcustom
    rw [hregular]
    simp only [getNextNote, if_neg hcustom]
    cases hplaying : t.playing with
    | none => exact iff_of_true (fun _ _ => rfl) trivial
    | some text =>
        obtain ⟨t', exit, hexit⟩ := exists_exit t text
        simp only [Option.bind_some, hexit]
        exact leave_regular_iff noteToFrequency t' exit

theorem blind_iff :
    Blind (afterCall noteToFrequency) (fun t call => [heard noteToFrequency t call]) t ↔
      Regular t := by
  rw [← @effect_regular_iff noteToFrequency t]
  constructor
  · intro hblind call call'
    obtain ⟨hafter, hheard⟩ := hblind call call'
    rw [effect_eq, effect_eq, hafter, List.singleton_inj.1 hheard]
  · intro heffect call call'
    refine ⟨?_, congrArg (fun h => [h]) ?_⟩
    · rw [afterCall_eq, afterCall_eq, heffect call call']
    · rw [heard_eq, heard_eq, heffect call call']

/-! ## Whole tunes -/

/-- In every run whose calls are all regular, what is heard is the same for all callers. -/
theorem playback_eq (noteToFrequency : UInt32 → UInt32) (defaults : Defaults) (string : Text)
    (calls calls' : List Call) (hlength : calls.length = calls'.length)
    (hregular : AllSteps (afterCall noteToFrequency) (fun t _ => Regular t) (start defaults string)
      calls) :
    playback noteToFrequency defaults string calls =
      playback noteToFrequency defaults string calls' :=
  outputs_eq_of_blind hlength ((allSteps_congr (fun _ _ => blind_iff) _ _).2 hregular)

/-- A note, a pause and a note with a dot. -/
theorem playback_notes :
    playback (fun _ => 1760) ⟨4, .normal, 4, 120⟩ "A P8 A.".toList
        [⟨0, 0, 0, .numberFirst⟩, ⟨0, 0, 0, .numberFirst⟩, ⟨0, 0, 0, .numberFirst⟩] =
      playback (fun _ => 1760) ⟨4, .normal, 4, 120⟩ "A P8 A.".toList
        [⟨1, 2, 3, .dotsFirst⟩, ⟨4, 5, 6, .dotsFirst⟩, ⟨7, 8, 9, .dotsFirst⟩] := by
  refine playback_eq _ _ _ _ _ rfl ⟨?_, ?_, ?_, trivial⟩
  · decide +kernel
  · decide +kernel
  · decide +kernel

/-- The rest `N0` is played with the frequency and the duration that the caller's variables held. -/
theorem rest_replays :
    ¬∀ (noteToFrequency : UInt32 → UInt32) (defaults : Defaults) (string : Text) (calls calls' :
      List Call),
      calls.length = calls'.length →
        playback noteToFrequency defaults string calls =
          playback noteToFrequency defaults string calls' := by
  intro hall
  have hsame := hall (fun note => note) ⟨4, .normal, 4, 120⟩ "N0".toList [⟨0, 0, 0, .numberFirst⟩]
    [⟨880, 500000, 0, .numberFirst⟩] rfl
  exact absurd hsame (by decide)

end Tune
end DtPhm
