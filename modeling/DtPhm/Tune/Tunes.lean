import DtPhm.Lib.Run
import DtPhm.Lib.Text

/-!
# Tunes — melodies from strings

A tune is a string in the notation of BASIC's `PLAY`.  Each call of `get_next_note` parses
characters out of it until it comes to a note or a pause, and the commands in between set the
parameters of the notes that follow.

* `nextChar`, `nextNumber`, `nextDots` — reading the string;
* `command` — one round of the parser's loop, and `commands` — its rounds up to one that leaves the
  loop;
* `getNextNote` — one call, with what the caller's variables hold before it;
* `Order` — the order in which the arguments of a function are evaluated, which is up to the
  compiler.

Pointers into the string are what is left of it from there on.  The frequency of a note is computed
with floating point numbers, and is a parameter here.
-/

namespace DtPhm
namespace Tune

open Lib

inductive NoteMode
  | normal
  | legato
  | staccato
  deriving DecidableEq

inductive Status
  | continue
  | stop
  | error
  deriving DecidableEq

/-- The defaults that a `Tunes` object is made with. -/
structure Defaults where
  noteLength : UInt32
  noteMode : NoteMode
  octave : UInt32
  tempo : UInt32

/-- `Tunes`. -/
structure Tunes where
  nextTune : Option Text
  tune : Option Text
  tuneStartPtr : Option Text
  /-- `_repeat`: the tune restarts at its end. -/
  repeats : Bool
  defaults : Defaults
  noteLength : UInt32
  noteMode : NoteMode
  octave : UInt32
  tempo : UInt32
  duration : UInt32
  frequency : UInt32
  silence : UInt32
  usingCustomMsg : Bool

/-! ## The object -/

/-- `reset`. -/
def Tunes.reset (t : Tunes) (repeatFlag : Bool) : Tunes :=
  let t :=
    if repeatFlag then { t with tune := t.tuneStartPtr, nextTune := t.tuneStartPtr }
    else { t with tune := none, nextTune := none }
  { t with
    noteLength := t.defaults.noteLength
    noteMode := t.defaults.noteMode
    octave := t.defaults.octave
    tempo := t.defaults.tempo }

/-- The constructor. -/
def construct (defaults : Defaults) : Tunes :=
  ({ nextTune := none
     tune := none
     tuneStartPtr := none
     repeats := false
     defaults := defaults
     noteLength := 4
     noteMode := .normal
     octave := 4
     tempo := 120
     duration := 0
     frequency := 0
     silence := 0
     usingCustomMsg := false } : Tunes).reset false

/-- `set_string`, but for the volume. -/
def Tunes.setString (t : Tunes) (string : Text) : Tunes :=
  match t.tune with
  | none => { t with tune := some string, tuneStartPtr := some string, nextTune := some string }
  | some _ => t

/-- `tune_end`. -/
def Tunes.tuneEnd (t : Tunes) : Status × Tunes :=
  -- Restore initial parameters.
  let t := t.reset t.repeats
  (if t.repeats then .continue else .stop, t)

/-- `tune_error`. -/
def Tunes.tuneError (t : Tunes) : Status × Tunes :=
  -- Don't loop on error.
  let t := { t with repeats := false }
  (.error, t.reset t.repeats)

/-! ## Reading the string -/

/-- `next_char`, and the string without the blanks in front of the character. -/
def nextChar (text : Text) : Char × Text :=
  let text := text.dropWhile isSpace
  ((text.headD '\x00').toUpper, text)

/-- The loops of `next_number` and `next_dots`, which go on with `next_char` as long as `accepts`
holds. -/
def readLoop (accepts : Char → Bool) (add : UInt32 → Char → UInt32) :
    (text : Text) → UInt32 → UInt32 × Text
  | [], number => (number, [])
  | c :: text, number =>
      if isSpace c then readLoop accepts add text number
      else if accepts c.toUpper then readLoop accepts add text (add number c.toUpper)
      else (number, c :: text)

def isDot (c : Char) : Bool := c == '.'

/-- `next_number`. -/
def nextNumber (text : Text) : UInt32 × Text :=
  readLoop Char.isDigit (fun number c => number * 10 + (c.val - '0'.val)) text 0

/-- `next_dots`. -/
def nextDots (text : Text) : UInt32 × Text := readLoop isDot (fun dots _ => dots + 1) text 0

/-! ## Durations -/

/-- The loops over the dots. -/
def extend : (dots : ℕ) → (period dotExtension : UInt32) → UInt32
  | 0, period, _ => period
  | dots + 1, period, dotExtension => extend dots (period + dotExtension) (dotExtension / 2)

/-- `BEAT_TIME_CONVERSION / _tempo`.  There is no period without a tempo: the program stops at the
division. -/
def Tunes.wholeNotePeriod (t : Tunes) : Option UInt32 :=
  if t.tempo = 0 then none else some (60 * 1000 * 4 * 1000 / t.tempo)

/-- `note_duration`: the duration and the silence. -/
def Tunes.noteDuration (t : Tunes) (noteLength dots : UInt32) : Option (UInt32 × UInt32) :=
  t.wholeNotePeriod.map fun wholeNotePeriod =>
    let noteLength := if noteLength = 0 then 1 else noteLength
    let notePeriod := wholeNotePeriod / noteLength
    let silence :=
      match t.noteMode with
      | .normal => notePeriod / 8
      | .staccato => notePeriod / 4
      | .legato => 0
    let notePeriod := notePeriod - silence
    (extend dots.toNat notePeriod (notePeriod / 2), silence)

/-- `rest_duration`. -/
def Tunes.restDuration (t : Tunes) (restLength dots : UInt32) : Option UInt32 :=
  t.wholeNotePeriod.map fun wholeNotePeriod =>
    let restLength := if restLength = 0 then 1 else restLength
    let restPeriod := wholeNotePeriod / restLength
    extend dots.toNat restPeriod (restPeriod / 2)

/-! ## The parser -/

/-- How a round leaves the loop of `get_next_note`.  What is read behind the loop, or in the
arguments of the duration, is still in the string. -/
inductive Exit
  /-- The string is at its end. -/
  | ended
  /-- `return tune_error()`. -/
  | bad
  /-- `P`: pause for a note length. -/
  | pause (text : Text)
  /-- `N` with the number 0: pause for the current note length. -/
  | rest (text : Text)
  /-- A note has been resolved. -/
  | note (note noteLength : UInt32) (text : Text)

/-- A round comes to the end of the loop's body, or leaves the loop. -/
inductive Round
  | next (t : Tunes) (note noteLength : UInt32) (text : Text)
  | exit (t : Tunes) (exit : Exit)

/-- `_note_tab`. -/
def noteTab : List UInt32 := [9, 11, 0, 2, 4, 5, 7]

/-- `case 'M'`: select the gap between notes, or whether the tune repeats. -/
def gap (noteLength : UInt32) (t : Tunes) (text : Text) : Round :=
  let (c, text) := nextChar text
  if c = '\x00' then .exit t .bad
  else
    let text := text.tail
    if c = 'N' then .next { t with noteMode := .normal } 0 noteLength text
    else if c = 'L' then .next { t with noteMode := .legato } 0 noteLength text
    else if c = 'S' then .next { t with noteMode := .staccato } 0 noteLength text
    else if c = 'F' then .next { t with repeats := false } 0 noteLength text
    else if c = 'B' then .next { t with repeats := true } 0 noteLength text
    else .exit t .bad

/-- `case 'A'...'G'`: a note in the current octave. -/
def letterNote (t : Tunes) (c : Char) (text : Text) : Round :=
  let note := noteTab.getD (c.toNat - 'A'.toNat) 0 + t.octave * 12 + 1
  let (c, text) := nextChar text
  let (note, text) :=
    -- Up a semitone.
    if c = '#' ∨ c = '+' then (if note < 84 then note + 1 else note, text.tail)
    -- Down a semitone.
    else if c = '-' then (if note > 1 then note - 1 else note, text.tail)
    else (note, text)
  -- Shorthand length notation.
  let (noteLength, text) := nextNumber text
  .next t note (if noteLength = 0 then t.noteLength else noteLength) text

/-- The body of the loop of `get_next_note`. -/
def command (noteLength : UInt32) (t : Tunes) (text : Text) : Round :=
  let (c, text) := nextChar text
  if c = '\x00' then .exit t .ended
  else
    let text := text.tail
    if c = 'L' then
      let (number, text) := nextNumber text
      let t := { t with noteLength := number }
      if number < 1 then .exit t .bad else .next t 0 noteLength text
    else if c = 'O' then
      let (number, text) := nextNumber text
      .next { t with octave := if number > 6 then 6 else number } 0 noteLength text
    else if c = '<' then
      .next { t with octave := if t.octave > 0 then t.octave - 1 else t.octave } 0 noteLength text
    else if c = '>' then
      .next { t with octave := if t.octave < 6 then t.octave + 1 else t.octave } 0 noteLength text
    else if c = 'M' then gap noteLength t text
    else if c = 'P' then .exit t (.pause text)
    else if c = 'T' then
      let (nt, text) := nextNumber text
      if nt ≥ 32 ∧ nt ≤ 255 then .next { t with tempo := nt } 0 noteLength text else .exit t .bad
    else if c = 'N' then
      let (note, text) := nextNumber text
      if note > 84 then .exit t .bad
      else if note = 0 then .exit t (.rest text)
      else .next t note noteLength text
    else if 'A' ≤ c ∧ c ≤ 'G' then letterNote t c text
    else .exit t .bad

/-- The loop of `get_next_note`, if less than `fuel` rounds are enough. -/
def commands : (fuel : ℕ) → (noteLength : UInt32) → Tunes → Text → Option (Tunes × Exit)
  | 0, _, _, _ => none
  | fuel + 1, noteLength, t, text =>
      match command noteLength t text with
      | .next t note noteLength text =>
          if note = 0 then commands fuel noteLength t text else some (t, .note note noteLength text)
      | .exit t exit => some (t, exit)

/-! ## One call -/

/-- The order of evaluation in `rest_duration(next_number(), next_dots())`. -/
inductive Order
  | numberFirst
  | dotsFirst
  deriving DecidableEq

/-- What a call finds: the caller's variables, and the compiler's order. -/
structure Call where
  frequency : UInt32
  duration : UInt32
  silence : UInt32
  order : Order

/-- What a call returns, with the caller's variables then. -/
structure Answer where
  status : Status
  frequency : UInt32
  duration : UInt32
  silence : UInt32
  deriving DecidableEq

/-- The two arguments, and the string behind them. -/
def arguments : Order → Text → UInt32 × UInt32 × Text
  | .numberFirst, text =>
      let (number, text) := nextNumber text
      let (dots, text) := nextDots text
      (number, dots, text)
  | .dotsFirst, text =>
      let (dots, text) := nextDots text
      let (number, text) := nextNumber text
      (number, dots, text)

variable (noteToFrequency : UInt32 → UInt32)

/-- Behind the loop.  `none`: the program stops at a division. -/
def leave (call : Call) (t : Tunes) : Exit → Option (Answer × Tunes)
  | .ended =>
      let (status, t) := t.tuneEnd
      some (⟨status, call.frequency, call.duration, 0⟩, t)
  | .bad =>
      let (status, t) := t.tuneError
      some (⟨status, call.frequency, call.duration, call.silence⟩, t)
  | .pause text =>
      let (number, dots, text) := arguments call.order text
      (t.restDuration number dots).map fun silence =>
        (⟨.continue, 0, 0, silence⟩, { t with nextTune := some text })
  | .rest text =>
      let (dots, text) := nextDots text
      (t.restDuration t.noteLength dots).map fun silence =>
        (⟨.continue, call.frequency, call.duration, silence⟩, { t with nextTune := some text })
  | .note note noteLength text =>
      let (dots, text) := nextDots text
      (t.noteDuration noteLength dots).map fun (duration, silence) =>
        (⟨.continue, noteToFrequency note, duration, silence⟩, { t with nextTune := some text })

/-- The tune that there is. -/
def Tunes.playing (t : Tunes) : Option Text :=
  match t.nextTune, t.tune with
  | some text, some _ => some text
  | _, _ => none

/-- The exit of a call that parses the string. -/
def Tunes.exit (t : Tunes) (text : Text) : Option (Tunes × Exit) :=
  commands (text.length + 1) t.noteLength t text

/-- `get_next_note`. -/
def getNextNote (t : Tunes) (call : Call) : Option (Answer × Tunes) :=
  if t.usingCustomMsg then
    some (⟨.continue, t.frequency, t.duration, t.silence⟩, { t with usingCustomMsg := false })
  else
    match t.playing with
    -- Make sure we still have a tune.
    | none =>
        let (status, t) := t.tuneError
        some (⟨status, call.frequency, call.duration, call.silence⟩, t)
    | some text => (t.exit text).bind fun (t, exit) => leave noteToFrequency call t exit

/-! ## Runs -/

/-- The object after a call; where the program has stopped, it stays as it was. -/
def afterCall (t : Tunes) (call : Call) : Tunes :=
  match getNextNote noteToFrequency t call with
  | none => t
  | some (_, t) => t

/-- What the caller can hear of a call: its status, and with `Continue` the note. -/
def Answer.heard (a : Answer) : Status × Option (UInt32 × UInt32 × UInt32) :=
  (a.status, if a.status = .continue then some (a.frequency, a.duration, a.silence) else none)

/-- It is nothing where the program has stopped. -/
def heard (t : Tunes) (call : Call) : Option (Status × Option (UInt32 × UInt32 × UInt32)) :=
  (getNextNote noteToFrequency t call).map fun (a, _) => a.heard

/-- The object when a tune has been set. -/
def start (defaults : Defaults) (string : Text) : Tunes := (construct defaults).setString string

/-- What is heard of a tune. -/
def playback (defaults : Defaults) (string : Text) (calls : List Call) :
    List (Option (Status × Option (UInt32 × UInt32 × UInt32))) :=
  outputs (afterCall noteToFrequency) (fun t call => [heard noteToFrequency t call])
    (start defaults string) calls

end Tune
end DtPhm
