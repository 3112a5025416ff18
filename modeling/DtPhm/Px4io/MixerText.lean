import DtPhm.Lib.Run
import DtPhm.Lib.Text
import DtPhm.Px4io.Protocol

/-!
# MixerText — the upload of a mixer to the IO

The FMU sends a mixer as text, in pieces.  The interrupt side appends each piece to a buffer and
sets a flag; the next tick parses what it can, keeps the rest and clears the flag.

* `interruptMixerHandleText` — a message that comes in;
* `mixerHandleTextCreateMixer` — the part of a tick that parses;
* `HandshakeKept` — after a tick the next piece is accepted;
* `handshake_kept` — this holds exactly when no message leaves the flag set over an empty buffer.

What the parser does with the text is a parameter here.
-/

namespace DtPhm
namespace Px4io

open Lib

/-! ## Data -/

/-- `PX4IO_MAX_MIXER_LENGTH`. -/
def maxMixerLength : ℕ := 330

/-- What the upload uses of the mixer group: `load_from_buf` returns how much text is left over. -/
structure MixerLoader (G : Type) where
  reset : G
  loadFromBuf : G → Text → G × ℕ

/-- The buffer that interrupt and tick share; `text` are its first `mixer_text_length` bytes. -/
structure MixerText (G : Type) where
  mixerGroup : G
  text : Text
  mixerUpdatePending : Bool
  mixerResetPending : Bool
deriving DecidableEq, Repr

/-- The action of a message. -/
inductive MixerAction
  | reset
  | append
  | other
deriving DecidableEq, Repr

/-- `px4io_mixdata`. -/
structure MixData where
  action : MixerAction
  text : Text
deriving DecidableEq, Repr

/-- The message in a buffer, which may be too short for one. -/
def MixData.ofBytes : List UInt8 → Option MixData
  | _ :: _ :: action :: text =>
    some
      { action := if action = 0 then .reset else if action = 1 then .append else .other
        text := text.map fun b => Char.ofNat b.toNat }
  | _ => none

variable {G : Type}

/-- A mixer change is not allowed while the safety is off and the FMU is armed. -/
def changeForbidden (statusFlags setupArming : UInt16) : Bool :=
  hasFlag statusFlags StatusFlag.safetyOff && hasFlag setupArming ArmingFlag.fmuArmed

/-! ## Interrupt and tick -/

/-- The result of a message: the buffer and what is returned. -/
structure HandleResult (G : Type) where
  mixer : MixerText G
  ret : ℤ
deriving DecidableEq, Repr

/-- `F2I_MIXER_ACTION_APPEND`. -/
def handleAppend (b : MixerText G) (text : Text) : HandleResult G :=
  if b.text.length + text.length + 1 > maxMixerLength then ⟨b, 0⟩
  else if b.mixerUpdatePending then ⟨b, 1⟩
  else ⟨{ b with text := b.text ++ text, mixerUpdatePending := true }, 0⟩

/-- The switch over the action.  A reset empties the buffer and falls through to the append. -/
def handleAction (b : MixerText G) (msg : MixData) : HandleResult G :=
  match msg.action with
  | .reset => handleAppend { b with mixerResetPending := true, text := [] } msg.text
  | .append => handleAppend b msg.text
  | .other => ⟨b, 0⟩

/-- `interrupt_mixer_handle_text`; `forbidden` is the check at its beginning. -/
def interruptMixerHandleText (b : MixerText G) (forbidden : Bool) (buffer : List UInt8) :
    HandleResult G :=
  if forbidden then ⟨b, 1⟩
  else
    match MixData.ofBytes buffer with
    | none => ⟨b, 0⟩
    | some msg => handleAction b msg

/-- The group is reset before anything is parsed. -/
def applyReset (ops : MixerLoader G) (b : MixerText G) : MixerText G :=
  if b.mixerResetPending then { b with mixerGroup := ops.reset, mixerResetPending := false } else b

/-- The text is parsed, and what is left over is moved to the base of the buffer. -/
def parseText (ops : MixerLoader G) (b : MixerText G) : MixerText G :=
  let loaded := ops.loadFromBuf b.mixerGroup b.text
  { b with
    mixerGroup := loaded.1
    text :=
      if loaded.2 ≠ b.text.length then b.text.drop (b.text.length - loaded.2) else b.text
    mixerUpdatePending := false }

/-- `mixer_handle_text_create_mixer`. -/
def mixerHandleTextCreateMixer (ops : MixerLoader G) (b : MixerText G) (forbidden : Bool) :
    MixerText G :=
  if forbidden then b
  else
    let b := applyReset ops b
    if !b.mixerUpdatePending || b.text.length == 0 then b else parseText ops b

/-! ## Runs of messages and ticks -/

/-- Messages and ticks, each with whether a change is forbidden at that time. -/
inductive UploadEvent
  | message (forbidden : Bool) (buffer : List UInt8)
  | tick (forbidden : Bool)
deriving DecidableEq, Repr

def uploadStep (ops : MixerLoader G) (b : MixerText G) : UploadEvent → MixerText G
  | .message forbidden buffer => (interruptMixerHandleText b forbidden buffer).mixer
  | .tick forbidden => mixerHandleTextCreateMixer ops b forbidden

/-- The buffer at startup. -/
def MixerText.initial (ops : MixerLoader G) : MixerText G := ⟨ops.reset, [], false, false⟩

/-- What is in the buffer before the text of a message is appended. -/
def baseText (b : MixerText G) (msg : MixData) : Text :=
  if msg.action = .reset then [] else b.text

/-- A message that resets or appends, and fits. -/
def Fits (b : MixerText G) (msg : MixData) : Prop :=
  msg.action ≠ .other ∧ (baseText b msg).length + msg.text.length + 1 ≤ maxMixerLength

/-- A message is accepted: it returns 0 and its text is stored. -/
def Accepted (b : MixerText G) (msg : MixData) : Prop :=
  (handleAction b msg).ret = 0 ∧ (handleAction b msg).mixer.text = baseText b msg ++ msg.text

/-- After a tick that may change the mixer nothing is pending, and what fits is accepted. -/
def HandshakeKept (ops : MixerLoader G) (b : MixerText G) : UploadEvent → Prop
  | .message _ _ => True
  | .tick forbidden =>
    forbidden = false →
      (mixerHandleTextCreateMixer ops b forbidden).mixerUpdatePending = false ∧
        ∀ msg, Fits (mixerHandleTextCreateMixer ops b forbidden) msg →
          Accepted (mixerHandleTextCreateMixer ops b forbidden) msg

/-- A message leaves the flag set over an empty buffer: a reset that comes before the last text was
parsed, or an empty text that is stored in an empty buffer. -/
def LeavesEmpty (b : MixerText G) : UploadEvent → Prop
  | .tick _ => False
  | .message forbidden buffer =>
    forbidden = false ∧ ∃ msg, MixData.ofBytes buffer = some msg ∧
      ((msg.action = .reset ∧ b.mixerUpdatePending = true) ∨
        (msg.action ≠ .other ∧ b.mixerUpdatePending = false ∧ baseText b msg ++ msg.text = []))

/-! ## The empty buffer -/

/-- The flag is set only over a text that is not empty. -/
def PendingText (b : MixerText G) : Prop := b.mixerUpdatePending = true → b.text ≠ []

/-- The flag is set over an empty buffer. -/
def Wedged (b : MixerText G) : Prop := b.mixerUpdatePending = true ∧ b.text = []

variable {ops : MixerLoader G} {b : MixerText G} {e : UploadEvent} {msg : MixData}

theorem handleAppend_cases (b : MixerText G) (text : Text) :
    (b.text.length + text.length + 1 > maxMixerLength ∧ handleAppend b text = ⟨b, 0⟩) ∨
      (b.mixerUpdatePending = true ∧ handleAppend b text = ⟨b, 1⟩) ∨
      (b.mixerUpdatePending = false ∧ b.text.length + text.length + 1 ≤ maxMixerLength ∧
        handleAppend b text =
          ⟨{ b with text := b.text ++ text, mixerUpdatePending := true }, 0⟩) := by
  unfold handleAppend
  split
  case isTrue hlong => exact .inl ⟨hlong, rfl⟩
  case isFalse hfits =>
    cases hp : b.mixerUpdatePending with
    | true => exact .inr (.inl ⟨rfl, rfl⟩)
    | false => exact .inr (.inr ⟨rfl, by omega, rfl⟩)

/-- Where a message appends its text. -/
def baseBuffer (b : MixerText G) (msg : MixData) : MixerText G :=
  if msg.action = .reset then { b with mixerResetPending := true, text := [] } else b

@[simp] theorem baseBuffer_text : (baseBuffer b msg).text = baseText b msg := by
  unfold baseBuffer baseText
  split <;> rfl

@[simp] theorem baseBuffer_pending :
    (baseBuffer b msg).mixerUpdatePending = b.mixerUpdatePending := by
  unfold baseBuffer
  split <;> rfl

theorem handleAction_eq (hmsg : msg.action ≠ .other) :
    handleAction b msg = handleAppend (baseBuffer b msg) msg.text := by
  unfold handleAction baseBuffer
  cases haction : msg.action with
  | reset => rfl
  | append => rfl
  | other => exact absurd haction hmsg

@[simp] theorem applyReset_text : (applyReset ops b).text = b.text := by
  unfold applyReset
  split <;> rfl

@[simp] theorem applyReset_pending :
    (applyReset ops b).mixerUpdatePending = b.mixerUpdatePending := by
  unfold applyReset
  split <;> rfl

theorem PendingText.tick (hb : PendingText b) :
    (mixerHandleTextCreateMixer ops b false).mixerUpdatePending = false := by
  unfold mixerHandleTextCreateMixer
  simp only [Bool.false_eq_true, if_false, applyReset_pending, applyReset_text]
  split
  case isTrue hidle =>
    rw [applyReset_pending]
    cases hp : b.mixerUpdatePending with
    | false => rfl
    | true =>
        have hempty : b.text = [] := by simpa [hp] using hidle
        exact absurd hempty (hb hp)
  case isFalse => rfl

theorem PendingText.step (hb : PendingText b) (hok : ¬LeavesEmpty b e) :
    PendingText (uploadStep ops b e) := by
  cases e with
  | tick forbidden =>
      cases forbidden with
      | true => exact hb
      | false => exact fun hp => absurd (hb.tick.symm.trans hp) (by decide)
  | message forbidden buffer =>
      cases forbidden with
      | true => exact hb
      | false =>
          unfold uploadStep interruptMixerHandleText
          simp only [Bool.false_eq_true, if_false]
          cases hmsg : MixData.ofBytes buffer with
          | none => exact hb
          | some msg =>
              by_cases hother : msg.action = .other
              · simpa [handleAction, hother] using hb
              have hno : ¬(msg.action = .reset ∧ b.mixerUpdatePending = true) :=
                fun h => hok ⟨rfl, msg, hmsg, .inl h⟩
              have hbase : PendingText (baseBuffer b msg) := by
                intro hp
                rw [baseBuffer_pending] at hp
                have haction : msg.action ≠ .reset := fun h => hno ⟨h, hp⟩
                rw [baseBuffer_text, baseText, if_neg haction]
                exact hb hp
              simp only [handleAction_eq hother]
              rcases handleAppend_cases (baseBuffer b msg) msg.text with
                ⟨-, hres⟩ | ⟨-, hres⟩ | ⟨hp, -, hres⟩
              · rwa [hres]
              · rwa [hres]
              · rw [hres]
                intro _ hempty
                rw [baseBuffer_pending] at hp
                rw [baseBuffer_text] at hempty
                exact hok ⟨rfl, msg, hmsg, .inr ⟨hother, hp, hempty⟩⟩

theorem accepted_of_idle (hp : b.mixerUpdatePending = false) (hfits : Fits b msg) :
    Accepted b msg := by
  unfold Accepted
  rw [handleAction_eq hfits.1]
  have hlen := hfits.2
  rcases handleAppend_cases (baseBuffer b msg) msg.text with
    ⟨hlong, -⟩ | ⟨hpending, -⟩ | ⟨-, -, hres⟩
  · rw [baseBuffer_text] at hlong
    omega
  · rw [baseBuffer_pending, hp] at hpending
    cases hpending
  · rw [hres, baseBuffer_text]
    exact ⟨rfl, rfl⟩

theorem Wedged.step (hb : Wedged b) (e : UploadEvent) : Wedged (uploadStep ops b e) := by
  rcases hb with ⟨hp, hempty⟩
  cases e with
  | tick forbidden =>
      cases forbidden with
      | true => exact ⟨hp, hempty⟩
      | false =>
          unfold uploadStep mixerHandleTextCreateMixer
          simp [Wedged, hp, hempty]
  | message forbidden buffer =>
      cases forbidden with
      | true => exact ⟨hp, hempty⟩
      | false =>
          unfold uploadStep interruptMixerHandleText
          simp only [Bool.false_eq_true, if_false]
          cases hmsg : MixData.ofBytes buffer with
          | none => exact ⟨hp, hempty⟩
          | some msg =>
              by_cases hother : msg.action = .other
              · simpa [handleAction, hother, Wedged] using And.intro hp hempty
              have hbase : Wedged (baseBuffer b msg) := by
                refine ⟨by rw [baseBuffer_pending, hp], ?_⟩
                rw [baseBuffer_text, baseText, hempty, ite_self]
              simp only [handleAction_eq hother]
              rcases handleAppend_cases (baseBuffer b msg) msg.text with
                ⟨-, hres⟩ | ⟨-, hres⟩ | ⟨hno, -, -⟩
              · rwa [hres]
              · rwa [hres]
              · rw [baseBuffer_pending, hp] at hno
                cases hno

theorem Wedged.exec (hb : Wedged b) (es : List UploadEvent) :
    Wedged (Lib.exec (uploadStep ops) b es) := by
  induction es generalizing b with
  | nil => exact hb
  | cons e es ih => exact ih (hb.step e)

theorem LeavesEmpty.wedged (he : LeavesEmpty b e) : Wedged (uploadStep ops b e) := by
  cases e with
  | tick forbidden => exact he.elim
  | message forbidden buffer =>
      rcases he with ⟨rfl, msg, hmsg, hcase⟩
      unfold uploadStep interruptMixerHandleText
      simp only [Bool.false_eq_true, if_false, hmsg]
      have hother : msg.action ≠ .other := by
        rcases hcase with ⟨hreset, -⟩ | ⟨hother, -⟩
        · simp [hreset]
        · exact hother
      simp only [handleAction_eq hother]
      rcases hcase with ⟨hreset, hp⟩ | ⟨-, hp, hempty⟩
      · have hbase : Wedged (baseBuffer b msg) := by
          refine ⟨by rw [baseBuffer_pending, hp], ?_⟩
          rw [baseBuffer_text, baseText, if_pos hreset]
        rcases handleAppend_cases (baseBuffer b msg) msg.text with
          ⟨-, hres⟩ | ⟨-, hres⟩ | ⟨hno, -, -⟩
        · rwa [hres]
        · rwa [hres]
        · rw [baseBuffer_pending, hp] at hno
          cases hno
      · rcases handleAppend_cases (baseBuffer b msg) msg.text with
          ⟨hlong, -⟩ | ⟨hpending, -⟩ | ⟨-, -, hres⟩
        · have hlen := congrArg List.length hempty
          rw [List.length_append, List.length_nil] at hlen
          rw [baseBuffer_text, maxMixerLength] at hlong
          omega
        · rw [baseBuffer_pending, hp] at hpending
          cases hpending
        · rw [hres]
          exact ⟨rfl, by rw [baseBuffer_text, hempty]⟩

/-! ## The handshake -/

theorem handshakeKept_of_pendingText (hb : PendingText b) : HandshakeKept ops b e := by
  cases e with
  | message forbidden buffer => trivial
  | tick forbidden =>
      rintro rfl
      exact ⟨hb.tick, fun msg hfits => accepted_of_idle hb.tick hfits⟩

/-- If the handshake is kept up to a last tick, no message has left the buffer empty. -/
theorem not_leavesEmpty_of_kept {es : List UploadEvent} :
    ∀ {b : MixerText G}, AllSteps (uploadStep ops) (HandshakeKept ops) b (es ++ [.tick false]) →
      AllSteps (uploadStep ops) (fun b e => ¬LeavesEmpty b e) b es := by
  induction es with
  | nil =>
      intro b _
      trivial
  | cons e es ih =>
      intro b hkept
      refine ⟨fun he => ?_, ih hkept.2⟩
      have hlast := (allSteps_append.1 hkept.2).2.1
      have hempty : Wedged (exec (uploadStep ops) (uploadStep ops b e) es) := he.wedged.exec es
      have hwedged : Wedged (uploadStep ops _ (.tick false)) := hempty.step (.tick false)
      exact absurd ((hlast rfl).1.symm.trans hwedged.1) (by decide)

/-- In a run that ends with a tick that may change the mixer, every such tick clears the flag and
what fits is accepted after it, exactly if no message has left the flag set over an empty buffer. -/
theorem handshake_kept (ops : MixerLoader G) (es : List UploadEvent) :
    AllSteps (uploadStep ops) (HandshakeKept ops) (.initial ops) (es ++ [.tick false]) ↔
      AllSteps (uploadStep ops) (fun b e => ¬LeavesEmpty b e) (.initial ops) es := by
  have hstart : PendingText (MixerText.initial ops) := fun hp => nomatch hp
  have hstep : ∀ b e, PendingText b → ¬LeavesEmpty b e → PendingText (uploadStep ops b e) :=
    fun _ _ hb he => hb.step he
  refine ⟨not_leavesEmpty_of_kept, fun hok => ?_⟩
  have hall : AllSteps (uploadStep ops) (fun b e => ¬LeavesEmpty b e) (.initial ops)
      (es ++ [.tick false]) := allSteps_append.2 ⟨hok, id, trivial⟩
  exact allSteps_of_invariant hstep (fun _ _ hb _ => handshakeKept_of_pendingText hb) hstart hall

/-- A piece, and a reset with a new text before the tick: the upload is wedged. -/
theorem reset_before_tick_wedges : ¬∀ (ops : MixerLoader (List Text)) (es : List UploadEvent),
    AllSteps (uploadStep ops) (HandshakeKept ops) (.initial ops) es := by
  intro hall
  have hrun := hall ⟨[], fun g text => (g ++ [text], 0)⟩
    [.message false [0x74, 0x6d, 0, 90, 58, 10], .message false [0x74, 0x6d, 0, 90, 58, 10],
      .tick false]
  exact absurd (hrun.2.2.1 rfl).1 (by decide)

end Px4io
end DtPhm
