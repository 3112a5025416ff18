import DtPhm.Mixer.WellFormed
import DtPhm.Px4io.MixerText

/-!
# MixerPieces — a mixer that is uploaded in pieces

The FMU may cut the text of a mixer anywhere.  With a tick after each piece the IO builds the same
mixers as from the text as a whole.

* `mixerLoader` — the mixer group of the IO, as a list of mixers;
* `Piece`, `appendPiece` — a piece of the text, its message and a tick;
* `appendPiece_feed` — what one piece does;
* `pieces_load_same` — all pieces of a well-formed text.
-/

namespace DtPhm
namespace Px4io

open Lib Mixer

variable {ω : Type}

/-- The mixer group: `load_from_buf` adds mixers, and returns how much text is left over. -/
def mixerLoader (cfg : Config ω) : MixerLoader (List (Mixer.Mixer ω)) where
  reset := []
  loadFromBuf := fun group text =>
    (group ++ (loadFromBuf cfg text).1, (loadFromBuf cfg text).2.length)

/-- A piece of a text, as it is sent. -/
structure Piece where
  bytes : List UInt8
  nonempty : bytes ≠ []

def Piece.text (piece : Piece) : Text := piece.bytes.map fun b => Char.ofNat b.toNat

/-- The message of a piece, with `F2I_MIXER_MAGIC` and `F2I_MIXER_ACTION_APPEND`. -/
def Piece.message (piece : Piece) : List UInt8 := [0x74, 0x6d, 1] ++ piece.bytes

/-- A piece is appended, and a tick parses it. -/
def appendPiece (piece : Piece) : List UploadEvent :=
  [.message false piece.message, .tick false]

/-- There is space in the buffer for a message. -/
def HasSpace (b : MixerText (List (Mixer.Mixer ω))) : UploadEvent → Prop
  | .message _ buffer => ∀ msg, MixData.ofBytes buffer = some msg → Fits b msg
  | .tick _ => True

/-- Nothing is pending. -/
structure Ready (b : MixerText (List (Mixer.Mixer ω))) : Prop where
  update : b.mixerUpdatePending = false
  reset : b.mixerResetPending = false

variable {cfg : Config ω} {b : MixerText (List (Mixer.Mixer ω))} {piece : Piece}

/-! ## One piece -/

theorem loadFrom_suffix (cfg : Config ω) (k : ℕ) (s : Text) : (loadFrom cfg k s).2 <:+ s := by
  induction s generalizing k with
  | nil => cases k <;> exact List.suffix_refl []
  | cons c s ih =>
    have hnext : ∀ k, (loadFrom cfg k s).2 <:+ c :: s :=
      fun k => (ih k).trans (List.suffix_cons c s)
    cases k with
    | succ k => exact hnext k
    | zero =>
      rw [loadFrom]
      split
      · exact hnext 0
      · split
        · exact List.suffix_refl _
        · exact hnext _

theorem parseText_text (cfg : Config ω) (b : MixerText (List (Mixer.Mixer ω))) :
    (parseText (mixerLoader cfg) b).text = (loadFromBuf cfg b.text).2 := by
  rcases loadFrom_suffix cfg 0 b.text with ⟨used, hused⟩
  have hlen := congrArg List.length hused
  rw [List.length_append] at hlen
  have hdrop : b.text.drop (b.text.length - (loadFromBuf cfg b.text).2.length) =
      (loadFromBuf cfg b.text).2 := by
    have hcount : b.text.length - (loadFromBuf cfg b.text).2.length = used.length := by
      unfold loadFromBuf
      omega
    calc
      b.text.drop (b.text.length - (loadFromBuf cfg b.text).2.length)
          = b.text.drop used.length := by rw [hcount]
      _ = (used ++ (loadFromBuf cfg b.text).2).drop used.length := by
            rw [show used ++ (loadFromBuf cfg b.text).2 = b.text from hused]
      _ = (loadFromBuf cfg b.text).2 := List.drop_left
  unfold parseText mixerLoader
  dsimp only
  split
  · exact hdrop
  case isFalse heq =>
    have hzero : b.text.length - (loadFromBuf cfg b.text).2.length = 0 := by omega
    rwa [hzero, List.drop_zero] at hdrop

/-- With space for it, a piece is appended and parsed: the mixers that are complete are added, and
the rest is kept. -/
theorem appendPiece_feed (hb : Ready b)
    (hspace : AllSteps (uploadStep (mixerLoader cfg)) HasSpace b (appendPiece piece)) :
    Ready (exec (uploadStep (mixerLoader cfg)) b (appendPiece piece)) ∧
      ((exec (uploadStep (mixerLoader cfg)) b (appendPiece piece)).mixerGroup,
          (exec (uploadStep (mixerLoader cfg)) b (appendPiece piece)).text) =
        feed (loadFromBuf cfg) (b.mixerGroup, b.text) piece.text := by
  have hmsg : MixData.ofBytes piece.message = some ⟨.append, piece.text⟩ := rfl
  have hfits : Fits b ⟨.append, piece.text⟩ := hspace.1 _ hmsg
  have hne : (b.text ++ piece.text).length ≠ 0 := by
    have hpos := List.length_pos_iff.2 piece.nonempty
    rw [List.length_append, Piece.text, List.length_map]
    omega
  have happend : uploadStep (mixerLoader cfg) b (.message false piece.message) =
      { b with text := b.text ++ piece.text, mixerUpdatePending := true } := by
    have hlen : ¬b.text.length + piece.text.length + 1 > maxMixerLength := not_lt.2 hfits.2
    unfold uploadStep interruptMixerHandleText
    simp only [Bool.false_eq_true, if_false, hmsg]
    unfold handleAction handleAppend
    simp only [if_neg hlen, hb.update, Bool.false_eq_true, if_false]
  have htick : exec (uploadStep (mixerLoader cfg)) b (appendPiece piece) =
      parseText (mixerLoader cfg)
        { b with text := b.text ++ piece.text, mixerUpdatePending := true } := by
    unfold appendPiece
    rw [exec_cons, exec_cons, exec_nil, happend]
    unfold uploadStep mixerHandleTextCreateMixer applyReset
    simp only [hb.reset, Bool.false_eq_true, if_false, Bool.not_true, Bool.false_or, beq_iff_eq,
      hne]
  rw [htick]
  refine ⟨⟨rfl, hb.reset⟩, ?_⟩
  rw [parseText_text]
  rfl

/-! ## All pieces -/

theorem appendPieces_feed {pieces : List Piece} (hb : Ready b)
    (hspace : AllSteps (uploadStep (mixerLoader cfg)) HasSpace b (pieces.flatMap appendPiece)) :
    ((exec (uploadStep (mixerLoader cfg)) b (pieces.flatMap appendPiece)).mixerGroup,
        (exec (uploadStep (mixerLoader cfg)) b (pieces.flatMap appendPiece)).text) =
      (pieces.map Piece.text).foldl (feed (loadFromBuf cfg)) (b.mixerGroup, b.text) := by
  induction pieces generalizing b with
  | nil => rfl
  | cons piece pieces ih =>
    rw [List.flatMap_cons, allSteps_append] at hspace
    rcases appendPiece_feed hb hspace.1 with ⟨hready, hfeed⟩
    rw [List.flatMap_cons, exec_append, List.map_cons, List.foldl_cons, ← hfeed]
    exact ih hready hspace.2

/-- The units of a text of well-formed mixers. -/
def mixerUnits (mixers : List (MixerLines cfg.configKey)) : List (Text × Mixer.Mixer ω) :=
  mixers.map fun m => (m.text, m.mixer)

theorem unitText_mixerUnits (mixers : List (MixerLines cfg.configKey)) :
    unitText (mixerUnits mixers) = mixers.flatMap MixerLines.text := by
  unfold unitText mixerUnits
  rw [List.map_map, List.flatMap_def]
  rfl

/-- A text of well-formed mixers in pieces, each appended with space for it and followed by a tick:
the mixers that are added are those of the text as a whole, and nothing but white space is left
over. -/
theorem pieces_load_same (cfg : Config ω) (b : MixerText (List (Mixer.Mixer ω)))
    (mixers : List (MixerLines cfg.configKey)) (pieces : List Piece) (hb : Ready b)
    (hempty : b.text = [])
    (hcut : (pieces.map Piece.text).flatten = mixers.flatMap MixerLines.text)
    (hspace : AllSteps (uploadStep (mixerLoader cfg)) HasSpace b (pieces.flatMap appendPiece)) :
    (exec (uploadStep (mixerLoader cfg)) b (pieces.flatMap appendPiece)).mixerGroup =
        ((mixerLoader cfg).loadFromBuf b.mixerGroup (mixers.flatMap MixerLines.text)).1 ∧
      ∀ c ∈ (exec (uploadStep (mixerLoader cfg)) b (pieces.flatMap appendPiece)).text,
        isSpace c = true := by
  have hunits : ∀ x ∈ mixerUnits mixers, IsUnit (loadFromBuf cfg) (· ≠ '\r') x.1 x.2 := by
    intro x hx
    rcases List.mem_map.1 hx with ⟨m, -, rfl⟩
    exact mixerLines_isUnit m
  have hnil : loadFromBuf cfg [] = ([], []) := rfl
  have hpieces := appendPieces_feed hb hspace
  rw [hempty, feed_units hnil hunits hnil
    (by rw [List.nil_append, hcut, unitText_mixerUnits])] at hpieces
  have hwhole := load_units hnil hunits
  rw [unitText_mixerUnits] at hwhole
  refine ⟨?_, ?_⟩
  · rw [(Prod.mk.inj hpieces).1]
    unfold mixerLoader
    dsimp only
    rw [hwhole]
  · rw [(Prod.mk.inj hpieces).2]
    exact fun c hc => nomatch hc

/-- A field of one digit, behind a blank. -/
def digitField (d : Fin 10) : Field where
  blanks := [' ']
  numeral := ⟨.none, [Char.ofNat (48 + d.val)], by simp, by
    simp only [List.mem_singleton, forall_eq]
    revert d
    decide⟩
  isBlank := by simp [isBlank, isSpace, isLineEnd]

theorem digitField_separated (ds : List (Fin 10)) : Separated (ds.map digitField) := by
  intro f hf
  rcases List.mem_map.1 (List.mem_of_mem_tail hf) with ⟨d, -, rfl⟩
  exact List.cons_ne_nil _ _

/-- A line of digits. -/
def digitLine (ds : List (Fin 10)) : NumberLine where
  fields := ds.map digitField
  separated := digitField_separated ds
  tail := []
  noNumber := fun _ hc => nomatch hc
  oneLine := fun _ hc => nomatch hc

/-- A simple mixer with one control and a null mixer, cut in a line of numbers and in a tag. -/
theorem cut_mixers_loaded :
    let cfg : Config Unit := ⟨[], fun _ => none, fun _ => none⟩
    let mixers : List (MixerLines cfg.configKey) :=
      [.simple ⟨digitLine [1], none, [digitLine [0, 0, 1, 1, 0, 1, 1]], rfl, nofun,
        fun _ hl => List.mem_singleton.1 hl ▸ rfl, rfl, List.cons_ne_nil _ _⟩, .null ⟨[], nofun⟩]
    let pieces : List Piece :=
      [⟨[77, 58, 32, 49, 10, 83, 58, 32, 48, 32, 48, 32, 49, 32, 49, 32, 48, 32, 49],
          List.cons_ne_nil _ _⟩,
        ⟨[32, 49, 10, 90], List.cons_ne_nil _ _⟩, ⟨[58, 10], List.cons_ne_nil _ _⟩]
    let b := MixerText.initial (mixerLoader cfg)
    (pieces.map Piece.text).flatten = mixers.flatMap MixerLines.text ∧
      (exec (uploadStep (mixerLoader cfg)) b (pieces.flatMap appendPiece)).mixerGroup =
        ((mixerLoader cfg).loadFromBuf b.mixerGroup (mixers.flatMap MixerLines.text)).1 := by
  intro cfg mixers pieces b
  have hcut : (pieces.map Piece.text).flatten = mixers.flatMap MixerLines.text := by decide
  have hspace :
      AllSteps (uploadStep (mixerLoader cfg)) HasSpace b (pieces.flatMap appendPiece) := by
    refine ⟨?_, trivial, ?_, trivial, ?_, trivial, trivial⟩
    all_goals
      intro msg hmsg
      cases hmsg
      exact ⟨by decide, by decide +kernel⟩
  exact ⟨hcut, (pieces_load_same cfg b mixers pieces ⟨rfl, rfl⟩ rfl hcut hspace).1⟩

end Px4io
end DtPhm
