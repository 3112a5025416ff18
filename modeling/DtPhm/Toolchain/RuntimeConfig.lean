import DtPhm.Lib.Newlines

/-!
# RuntimeConfig — the block of settings in a start script

Before the toolchain is started, the runtime values are written into its script, between two marker
lines.  The script is read and written as a text file, so that its line ends become those of the
host.

* `writeRuntimeConfigToBat`, `writeRuntimeConfigToSh` — the two writers, of one scheme;
* `Marked` — a script with its markers: what stands before, between and behind them;
* `rewriteScript_of_marked` — what is written;
* `runtime_config_rewritten` — the last values win, the rest of the script stays, and without
  markers nothing is written.
-/

namespace DtPhm
namespace Toolchain

open Lib

/-! ## The writers -/

inductive Script
  | bat
  | sh
  deriving DecidableEq, Repr

def Script.beginMarker : Script → Text
  | .bat => "REM BEGIN RFV_RUNTIME_CONFIG".toList
  | .sh => "# BEGIN RFV_RUNTIME_CONFIG".toList

def Script.endMarker : Script → Text
  | .bat => "REM END RFV_RUNTIME_CONFIG".toList
  | .sh => "# END RFV_RUNTIME_CONFIG".toList

/-- How a line of settings begins. -/
def Script.command : Script → Text
  | .bat => "SET ".toList
  | .sh => "export ".toList

/-- The keys that are written. -/
def writableKeys : List Text :=
  ["RFV_VEHICLE_NUM".toList, "RFV_START_INDEX".toList, "RFV_DLL_MODEL".toList]

/-- `runtime_env`. -/
abbrev Env := Text → Option Text

def settings (script : Script) (env : Env) : List Text :=
  writableKeys.filterMap fun key => (env key).map fun value => script.command ++ key ++ '=' :: value

def block (script : Script) (env : Env) : Text :=
  ['\n'].intercalate ([script.beginMarker] ++ settings script env ++ [script.endMarker])

/-- The errors, both of them a `ValueError`. -/
inductive WriteError
  /-- `Missing RFV runtime config markers in …` -/
  | missingMarkers
  /-- `not enough values to unpack (expected 2, got 1)` -/
  | notEnoughValues
  deriving DecidableEq, Repr

/-- The script file after a call, and what was raised. -/
structure Written where
  file : Text
  error : Option WriteError := none
  deriving DecidableEq

/-- The scheme of the two writers. -/
def rewriteScript (script : Script) (host : Host) (file : Text) (env : Env) : Written :=
  let text := readText file
  -- both markers are looked for in the whole text
  if (splitOnce script.beginMarker text).isNone || (splitOnce script.endMarker text).isNone then
    ⟨file, some .missingMarkers⟩
  else
    match splitOnce script.beginMarker text with
    | none => ⟨file, some .notEnoughValues⟩
    | some (before, rest) =>
        -- what stood between the markers is dropped
        match splitOnce script.endMarker rest with
        -- the end marker stands before the begin marker only
        | none => ⟨file, some .notEnoughValues⟩
        | some (_, behind) => ⟨writeText host (before ++ block script env ++ behind), none⟩

/-- `_write_runtime_config_to_bat`. -/
def writeRuntimeConfigToBat (host : Host) (batFile : Text) (env : Env) : Written :=
  rewriteScript .bat host batFile env

/-- `_write_runtime_config_to_sh`. -/
def writeRuntimeConfigToSh (host : Host) (shFile : Text) (env : Env) : Written :=
  rewriteScript .sh host shFile env

/-! ## Markers -/

/-- The first begin marker of a text, and the first end marker behind it. -/
structure Marked (script : Script) (text before inside behind : Text) : Prop where
  begins : Cut script.beginMarker text before (inside ++ script.endMarker ++ behind)
  ends : Cut script.endMarker (inside ++ script.endMarker ++ behind) inside behind

section Markers

variable {script : Script} {host : Host} {file text before inside behind : Text} {env : Env}

theorem newlineFree_beginMarker (script : Script) : NewlineFree script.beginMarker := by
  cases script <;> exact ⟨by decide, by decide⟩

theorem newlineFree_endMarker (script : Script) : NewlineFree script.endMarker := by
  cases script <;> exact ⟨by decide, by decide⟩

theorem beginMarker_ne_nil (script : Script) : script.beginMarker ≠ [] := by
  cases script <;> decide

theorem endMarker_ne_nil (script : Script) : script.endMarker ≠ [] := by
  cases script <;> decide

theorem eq_not_mem_endMarker (script : Script) : '=' ∉ script.endMarker := by
  cases script <;> decide

theorem endMarker_not_infix_command {key : Text} (h : key ∈ writableKeys) :
    ¬ script.endMarker <:+: script.command ++ key := by
  simp only [writableKeys, List.mem_cons, List.not_mem_nil, or_false] at h
  rcases h with rfl | rfl | rfl <;> cases script <;> decide

/-- What stands between the markers of a block. -/
def inner (script : Script) (env : Env) : Text :=
  (settings script env).flatMap (fun line => '\n' :: line) ++ ['\n']

theorem block_eq (script : Script) (env : Env) :
    block script env = script.beginMarker ++ inner script env ++ script.endMarker := by
  have hjoin : ∀ (lines : List Text) (first last : Text),
      ['\n'].intercalate ([first] ++ lines ++ [last]) =
        first ++ (lines.flatMap (fun line => '\n' :: line) ++ ['\n']) ++ last := by
    intro lines
    induction lines with
    | nil => simp [List.intercalate]
    | cons line lines ih =>
        intro first last
        have hcons : ['\n'].intercalate ([first] ++ line :: lines ++ [last]) =
            first ++ '\n' :: ['\n'].intercalate ([line] ++ lines ++ [last]) := by
          simp [List.intercalate]
        rw [hcons, ih]
        simp
  exact hjoin _ _ _

theorem not_infix_lines {marker : Text} (hm : NewlineFree marker) (hne : marker ≠ [])
    {lines : List Text} (hlines : ∀ line ∈ lines, ¬ marker <:+: line) {last : Text}
    (hlast : ¬ marker <:+: last) :
    ¬ marker <:+: lines.flatMap (fun line => '\n' :: line) ++ '\n' :: last := by
  induction lines with
  | nil =>
      intro h
      exact hlast (infix_of_infix_cons hm.lf hne h)
  | cons line lines ih =>
      have hrest := ih fun l hl => hlines l (List.mem_cons_of_mem _ hl)
      obtain ⟨rest, hsplit⟩ : ∃ rest,
          lines.flatMap (fun line => '\n' :: line) ++ '\n' :: last = '\n' :: rest := by
        cases lines with
        | nil => exact ⟨last, rfl⟩
        | cons l lines => exact ⟨_, rfl⟩
      rw [List.flatMap_cons, List.append_assoc, hsplit]
      intro h
      have htail := infix_of_infix_cons hm.lf hne h
      rcases infix_append_cons hm.lf htail with hline | hrest'
      · exact hlines line List.mem_cons_self hline
      · exact hrest (hsplit ▸ List.infix_cons hrest')

theorem endMarker_not_infix_inner
    (henv : ∀ key value, env key = some value → ¬ script.endMarker <:+: value) :
    ¬ script.endMarker <:+: inner script env ++ script.endMarker.dropLast := by
  rw [inner, List.append_assoc]
  refine not_infix_lines (newlineFree_endMarker script) (endMarker_ne_nil script) ?_
    (not_infix_dropLast (endMarker_ne_nil script))
  intro line hline h
  obtain ⟨key, hkey, hsome⟩ := List.mem_filterMap.1 hline
  obtain ⟨value, hvalue, rfl⟩ := Option.map_eq_some_iff.1 hsome
  rcases infix_append_cons (eq_not_mem_endMarker script) h with hcommand | hval
  · exact endMarker_not_infix_command hkey hcommand
  · exact henv key value hvalue hval

/-! ## What is written -/

theorem Marked.read (h : Marked script file before inside behind) :
    Marked script (readText file) (readText before) (readText inside) (readText behind) := by
  have hbegins := h.begins.readText (newlineFree_beginMarker script) (beginMarker_ne_nil script)
  have hends := h.ends.readText (newlineFree_endMarker script) (endMarker_ne_nil script)
  rw [hends.eq] at hbegins hends
  exact ⟨hbegins, hends⟩

theorem Marked.write (h : Marked script file before inside behind) (host : Host) :
    Marked script (writeText host file) (writeText host before) (writeText host inside)
      (writeText host behind) := by
  have hbegins : Cut script.beginMarker (writeText host file) (writeText host before) _ :=
    h.begins.writeText (newlineFree_beginMarker script) (beginMarker_ne_nil script)
  have hends : Cut script.endMarker _ (writeText host inside) (writeText host behind) :=
    h.ends.writeText (newlineFree_endMarker script) (endMarker_ne_nil script)
  rw [hends.eq] at hbegins hends
  exact ⟨hbegins, hends⟩

theorem Marked.unique {before' inside' behind' : Text} (h : Marked script text before inside behind)
    (h' : Marked script text before' inside' behind') : before = before' ∧ behind = behind' := by
  obtain ⟨hbefore, hrest⟩ := h.begins.unique (beginMarker_ne_nil script) h'.begins
  have hends := h.ends
  rw [hrest] at hends
  exact ⟨hbefore, (hends.unique (endMarker_ne_nil script) h'.ends).2⟩

theorem rewriteScript_of_read (h : Marked script (readText file) before inside behind)
    (host : Host) (env : Env) :
    rewriteScript script host file env =
      ⟨writeText host (before ++ block script env ++ behind), none⟩ := by
  have hbegin := (splitOnce_eq_some_iff (beginMarker_ne_nil script)).2 h.begins
  have hend := (splitOnce_eq_some_iff (endMarker_ne_nil script)).2 h.ends
  have hendIn : (splitOnce script.endMarker (readText file)).isNone = false := by
    rw [Option.isNone_eq_false_iff, Option.isSome_iff_ne_none, Ne,
      splitOnce_eq_none_iff (endMarker_ne_nil script), not_not, h.begins.eq]
    exact ⟨before ++ script.beginMarker ++ inside, behind, by simp⟩
  rw [rewriteScript]
  simp only [hbegin, hend, hendIn, Option.isNone_some, Bool.or_self, Bool.false_eq_true, if_false]

theorem rewriteScript_of_marked (h : Marked script file before inside behind) (host : Host)
    (env : Env) :
    rewriteScript script host file env =
      ⟨writeText host (readText before) ++ writeText host (block script env) ++
        writeText host (readText behind), none⟩ := by
  rw [rewriteScript_of_read h.read, writeText_append, writeText_append]

theorem marked_block (h : Marked script text before inside behind)
    (henv : ∀ key value, env key = some value → ¬ script.endMarker <:+: value) :
    Marked script (before ++ block script env ++ behind) before (inner script env) behind := by
  refine ⟨⟨?_, h.begins.first⟩, ⟨rfl, endMarker_not_infix_inner henv⟩⟩
  rw [block_eq]
  simp

theorem marked_rewritten (h : Marked script file before inside behind) (host : Host)
    (henv : ∀ key value, env key = some value → ¬ script.endMarker <:+: value) :
    Marked script (readText (rewriteScript script host file env).file) (readText before)
      (readText (writeText host (inner script env))) (readText behind) := by
  rw [rewriteScript_of_read h.read]
  have hmarked := ((marked_block h.read henv).write host).read
  rwa [readText_writeText_readText, readText_writeText_readText] at hmarked

theorem rewriteScript_unmarked
    (h : ¬∃ before inside behind,
      file = before ++ script.beginMarker ++ inside ++ script.endMarker ++ behind)
    (host : Host) (env : Env) :
    (rewriteScript script host file env).file = file ∧
      (rewriteScript script host file env).error ≠ none := by
  rw [rewriteScript]
  split
  · exact ⟨rfl, by simp⟩
  · cases hbegin : splitOnce script.beginMarker (readText file) with
    | none => exact ⟨rfl, by simp⟩
    | some parts =>
        obtain ⟨pre, rest⟩ := parts
        cases hend : splitOnce script.endMarker rest with
        | none => exact ⟨by simp only [hend], by simp [hend]⟩
        | some parts =>
            -- the markers that were read stand in the file
            obtain ⟨inside, behind⟩ := parts
            have hcut := ((splitOnce_eq_some_iff (beginMarker_ne_nil script)).1 hbegin).eq
            have hcut' := ((splitOnce_eq_some_iff (endMarker_ne_nil script)).1 hend).eq
            obtain ⟨before', rest', rfl, -, hrest⟩ := exists_of_readText_eq
              (newlineFree_beginMarker script) (beginMarker_ne_nil script) hcut
            obtain ⟨inside', behind', rfl, -, -⟩ := exists_of_readText_eq
              (newlineFree_endMarker script) (endMarker_ne_nil script) (hrest.trans hcut')
            exact absurd ⟨before', inside', behind', by simp⟩ h

theorem Marked.hostEnds (h : Marked script file before inside behind)
    (hfile : hasHostEnds host file) :
    hasHostEnds host before ∧ hasHostEnds host behind := by
  have hmarked := h.read.write host
  rw [hfile] at hmarked
  exact hmarked.unique h

end Markers

/-- On a script with its markers, the values of the last call win; what stands before the first
begin marker and behind the first end marker after it stays, with the line ends of the host, and as
it is if it had these.  On any other script the call raises, and nothing is written. -/
theorem runtime_config_rewritten (script : Script) (host : Host) (file : Text) :
    (∀ before inside behind, Marked script file before inside behind →
      (∀ e₁ e₂ : Env, (∀ key value, e₁ key = some value → ¬ script.endMarker <:+: value) →
        rewriteScript script host (rewriteScript script host file e₁).file e₂ =
          rewriteScript script host file e₂) ∧
      (∀ env, rewriteScript script host file env =
        ⟨writeText host (readText before) ++ writeText host (block script env) ++
          writeText host (readText behind), none⟩) ∧
      (hasHostEnds host file → ∀ env, rewriteScript script host file env =
        ⟨before ++ writeText host (block script env) ++ behind, none⟩)) ∧
    ((¬∃ before inside behind,
        file = before ++ script.beginMarker ++ inside ++ script.endMarker ++ behind) →
      ∀ env, (rewriteScript script host file env).file = file ∧
        (rewriteScript script host file env).error ≠ none) := by
  refine ⟨fun before inside behind h => ⟨fun e₁ e₂ henv => ?_, ?_, fun hfile env => ?_⟩,
    fun h env => rewriteScript_unmarked h host env⟩
  · rw [rewriteScript_of_read (marked_rewritten h host henv), rewriteScript_of_read h.read]
  · exact rewriteScript_of_marked h host
  · obtain ⟨hbefore, hbehind⟩ := h.hostEnds hfile
    rw [rewriteScript_of_marked h, hbefore, hbehind]

example : (writeRuntimeConfigToSh .linux
      "# BEGIN RFV_RUNTIME_CONFIG\n\n# END RFV_RUNTIME_CONFIG\necho\n".toList fun _ => none).file =
    "# BEGIN RFV_RUNTIME_CONFIG\n# END RFV_RUNTIME_CONFIG\necho\n".toList := by
  decide +kernel

/-- A batch file with line feeds only. -/
def lineFeedScript : Text :=
  "cd ..\nREM BEGIN RFV_RUNTIME_CONFIG\nREM END RFV_RUNTIME_CONFIG\n".toList

theorem lineFeedScript_marked :
    Marked .bat lineFeedScript "cd ..\n".toList "\n".toList "\n".toList :=
  ⟨⟨by decide, by decide⟩, ⟨by decide, by decide⟩⟩

/-- On Windows, the line ends before and behind the markers do not stay as they are. -/
theorem runtime_config_line_ends :
    ¬∀ file before inside behind, Marked .bat file before inside behind →
      ∃ block, (writeRuntimeConfigToBat .windows file fun _ => none).file =
        before ++ block ++ behind := by
  intro hall
  obtain ⟨block, h⟩ := hall _ _ _ _ lineFeedScript_marked
  have hwritten : (writeRuntimeConfigToBat .windows lineFeedScript fun _ => none).file =
      "cd ..\r\nREM BEGIN RFV_RUNTIME_CONFIG\r\nREM END RFV_RUNTIME_CONFIG\r\n".toList := by
    decide +kernel
  have htake := congrArg (List.take 6) (hwritten.symm.trans h)
  rw [List.append_assoc, List.take_append_of_le_length (by decide)] at htake
  exact absurd htake (by decide)

end Toolchain
end DtPhm
