import DtPhm.Lib.Scanf

/-!
# Parsers — mixers as they are read from text

A mixer file has a line for each part of a mixer, with a tag in front.  The parsers work on what is
in a buffer and fail if it does not hold a whole mixer.

* `findTag`, `findNextTag`, `skipLine`, `stringWellFormed` — the helpers of all mixers;
* `nullFromText`, `simpleFromText`, `multirotorFromText` — the mixers;
* `loadFromBuf` — the loop over a buffer.

Scale factors are kept as the numbers of the text, in units of 1/10000.  Allocations succeed.
-/

namespace DtPhm
namespace Mixer

open Lib

set_option linter.dupNamespace false

/-! ## Mixers -/

/-- `mixer_scaler_s`. -/
structure Scaler where
  negativeScale : Int32
  positiveScale : Int32
  offset : Int32
  minOutput : Int32
  maxOutput : Int32
deriving DecidableEq, Repr

/-- `mixer_control_s`. -/
structure Control where
  controlGroup : UInt8
  controlIndex : UInt8
  scaler : Scaler
deriving DecidableEq, Repr

/-- `mixer_simple_s`. -/
structure Simple where
  controlCount : UInt8
  outputScaler : Scaler
  slewRateRiseTime : Int32
  controls : List Control
deriving DecidableEq, Repr

/-- A mixer of a group; `other` are those whose parsers are not modelled. -/
inductive Mixer (ω : Type)
  | null
  | simple (pinfo : Simple)
  | multirotor (geometry : ℕ)
  | other (m : ω)
deriving DecidableEq, Repr

/-- What the parsers are given: the names of the geometries, and the parsers of other mixers. -/
structure Config (ω : Type) where
  /-- `_config_key`. -/
  configKey : List Text
  allocatedFromText : Text → Option (ω × Text)
  helicopterFromText : Text → Option (ω × Text)

variable {ω : Type}

/-! ## Helpers -/

/-- `findtag`: the text from the tag on. -/
def findTag (tag : Char) : Text → Option Text
  | c :: d :: s => if c = tag ∧ d = ':' then some (c :: d :: s) else findTag tag (d :: s)
  | _ => none

/-- `findnexttag`. -/
def findNextTag : Text → Option Char
  | c :: d :: s => if c.isUpper = true ∧ d = ':' then some c else findNextTag (d :: s)
  | _ => none

/-- `skipline`: what follows a CR, or else a NL. -/
def skipLine (s : Text) : Option Text :=
  if '\r' ∈ s then some ((s.dropWhile (· != '\r')).tail)
  else if '\n' ∈ s then some ((s.dropWhile (· != '\n')).tail)
  else none

/-- `string_well_formed`: there is the end of a line. -/
def stringWellFormed (s : Text) : Bool := s.any isLineEnd

/-- The numbers that `sscanf` reads behind a tag. -/
def scanTagged (tag : Char) (n : ℕ) : Text → List UInt32
  | c :: d :: s => if c = tag ∧ d = ':' then scanNumbers n s else []
  | _ => []

/-! ## Null mixer -/

/-- `NullMixer::from_text`: only the tag is used. -/
def nullFromText (s : Text) : Option (Mixer ω × Text) :=
  if !stringWellFormed s then none
  else
    match s with
    | 'Z' :: ':' :: rest => some (.null, rest)
    | _ => none

/-! ## Simple mixer -/

/-- A scaler of five numbers. -/
def scalerOf (s0 s1 s2 s3 s4 : UInt32) : Scaler where
  negativeScale := s0.toInt32
  positiveScale := s1.toInt32
  offset := s2.toInt32
  minOutput := s3.toInt32
  maxOutput := s4.toInt32

/-- `parse_output_scaler`: the scaler, the rise time and what follows. -/
def parseOutputScaler (s : Text) : Option (Scaler × Int32 × Text) :=
  match findTag 'O' s with
  | none => none
  | some buf =>
    if buf.length < 12 then none
    else
      match scanTagged 'O' 6 buf with
      | s0 :: s1 :: s2 :: s3 :: s4 :: more =>
        (skipLine buf).map fun rest =>
          -- without a sixth number there is no limit
          (scalerOf s0 s1 s2 s3 s4, (more.headD 0).toInt32, rest)
      | _ => none

/-- `parse_control_scaler`: the control and what follows. -/
def parseControlScaler (s : Text) : Option (Control × Text) :=
  match findTag 'S' s with
  | none => none
  | some buf =>
    if buf.length < 16 then none
    else
      match scanTagged 'S' 7 buf with
      | [u0, u1, s0, s1, s2, s3, s4] =>
        (skipLine buf).map fun rest =>
          (⟨u0.toUInt8, u1.toUInt8, scalerOf s0 s1 s2 s3 s4⟩, rest)
      | _ => none

/-- The loop over the controls. -/
def parseControls : ℕ → Text → Option (List Control × Text)
  | 0, s => some ([], s)
  | n + 1, s =>
    match parseControlScaler s with
    | none => none
    | some (control, rest) =>
      (parseControls n rest).map fun r => (control :: r.1, r.2)

/-- The scaler of a mixer that has no line for it. -/
def defaultScaler : Scaler := ⟨10000, 10000, 0, -10000, 10000⟩

/-- The output scaler of a mixer: it has a line of its own, unless the controls come next. -/
def parseOutput (s : Text) : Option (Scaler × Int32 × Text) :=
  if findNextTag s = some 'S' then some (defaultScaler, 0, s) else parseOutputScaler s

/-- `SimpleMixer::from_text`. -/
def simpleFromText (s : Text) : Option (Mixer ω × Text) :=
  if !stringWellFormed s then none
  else
    match scanTagged 'M' 1 s with
    | [inputs] =>
      if inputs = 0 then none
      else
        match skipLine s with
        | none => none
        | some body =>
          match parseOutput body with
          | none => none
          | some (scaler, riseTime, rest) =>
            (parseControls inputs.toNat rest).map fun r =>
              (.simple ⟨inputs.toUInt8, scaler, riseTime, r.1⟩, r.2)
    | _ => none

/-! ## Multirotor mixer -/

/-- `%15s` behind the tag. -/
def scanGeometry : Text → Text
  | 'R' :: ':' :: s => ((s.dropWhile isSpace).takeWhile fun c => !isSpace c && c != '\x00').take 15
  | _ => []

/-- `MultirotorMixer::from_text`. -/
def multirotorFromText (configKey : List Text) (s : Text) : Option (Mixer ω × Text) :=
  if !stringWellFormed s then none
  else if scanGeometry s = [] then none
  else
    match skipLine s with
    | none => none
    | some rest =>
      if scanGeometry s ∈ configKey then
        some (.multirotor (configKey.idxOf (scanGeometry s)), rest)
      else none

/-! ## Loading -/

/-- The parser that the first character stands for. -/
def Config.parser (cfg : Config ω) (c : Char) : Option (Text → Option (Mixer ω × Text)) :=
  match c with
  | 'Z' => some nullFromText
  | 'A' => some fun s => (cfg.allocatedFromText s).map fun r => (.other r.1, r.2)
  | 'M' => some simpleFromText
  | 'R' => some (multirotorFromText cfg.configKey)
  | 'H' => some fun s => (cfg.helicopterFromText s).map fun r => (.other r.1, r.2)
  | _ => none

/-- The loop of `load_from_buf`, with the characters of the last mixer that are still to be passed:
the mixers that are added, and what is left over. -/
def loadFrom (cfg : Config ω) : ℕ → Text → List (Mixer ω) × Text
  | _, [] => ([], [])
  | k + 1, _ :: s => loadFrom cfg k s
  | 0, c :: s =>
    match cfg.parser c with
    | none => loadFrom cfg 0 s
    | some fromText =>
      match fromText (c :: s) with
      | none => ([], c :: s)
      | some (m, rest) =>
        let loaded := loadFrom cfg (s.length - rest.length) s
        (m :: loaded.1, loaded.2)

/-- `MixerGroup::load_from_buf`. -/
def loadFromBuf (cfg : Config ω) (s : Text) : List (Mixer ω) × Text := loadFrom cfg 0 s

end Mixer
end DtPhm
