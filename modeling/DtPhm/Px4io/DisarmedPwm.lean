import DtPhm.Lib.Run
import DtPhm.Px4io.Registers

/-!
# DisarmedPwm — the pulses of a disarmed vehicle, and the flag that keeps them on

* `copyPage_written`, `copyPage_outside` — a page after a message, register by register;
* `disarmedWrite` — a message to `PX4IO_PAGE_DISARMED_PWM`;
* `disarmed_flag` — the flag agrees with the page exactly as long as every message can tell it from
  its own values.

The flag is "for all outputs", but it is made of the values of one message.
-/

namespace DtPhm
namespace Px4io

open Lib

variable {G : Type}

/-! ## A page after a message -/

theorem copyPage_outside {n : ℕ} {f : UInt16 → UInt16 → UInt16} {values : List UInt16}
    {page : RegPage} {offset i : ℕ} (h : i < offset ∨ offset + values.length ≤ i) :
    copyPage n f page offset values i = page i := by
  induction values generalizing page offset with
  | nil => rfl
  | cons v vs ih =>
      rw [List.length_cons] at h
      have hne : i ≠ offset := by omega
      rw [copyPage]
      split
      · rw [ih (by omega), Function.update_of_ne hne]
      · rfl

theorem copyPage_written {n : ℕ} {f : UInt16 → UInt16 → UInt16} {values : List UInt16}
    {page : RegPage} {offset k : ℕ} {v : UInt16} (hv : values[k]? = some v) (h : offset + k < n) :
    copyPage n f page offset values (offset + k) = f (page (offset + k)) v := by
  induction values generalizing page offset k with
  | nil => cases hv
  | cons w vs ih =>
      have hoffset : offset < n := by omega
      rw [copyPage, if_pos hoffset]
      cases k with
      | zero =>
          obtain rfl : w = v := Option.some.inj hv
          rw [copyPage_outside (Or.inl (by omega)), Nat.add_zero, Function.update_self]
      | succ k =>
          have hne : offset + 1 + k ≠ offset := by omega
          have hrest : copyPage n f (Function.update page offset (f (page offset) w)) (offset + 1)
              vs
              (offset + 1 + k) = _ := ih hv (show offset + 1 + k < n by omega)
          rwa [Function.update_of_ne hne, Nat.add_right_comm] at hrest

theorem mem_copied {n offset : ℕ} {values : List UInt16} {v : UInt16} :
    v ∈ copied n offset values ↔ ∃ k, values[k]? = some v ∧ offset + k < n := by
  rw [copied, List.mem_iff_getElem?]
  constructor
  · rintro ⟨k, hk⟩
    rw [List.getElem?_take] at hk
    split at hk
    · exact ⟨k, hk, by omega⟩
    · cases hk
  · rintro ⟨k, hv, hk⟩
    refine ⟨k, ?_⟩
    rw [List.getElem?_take, if_pos (by omega), hv]

/-! ## The pulses -/

/-- A pulse that can be sent. -/
def InPwmRange (v : UInt16) : Prop := pwmLowestMin ≤ v ∧ v ≤ pwmHighestMax

theorem limitDisarmed_eq_zero {old v : UInt16} : limitDisarmed old v = 0 ↔ v = 0 := by
  unfold limitDisarmed
  split
  · exact iff_of_true rfl ‹_›
  · split
    · exact iff_of_false (by decide) ‹_›
    · split
      · exact iff_of_false (by decide) ‹_›
      · exact Iff.rfl

theorem limitDisarmed_range {old v : UInt16} (h : limitDisarmed old v ≠ 0) :
    InPwmRange (limitDisarmed old v) := by
  have hv : v ≠ 0 := limitDisarmed_eq_zero.not.1 h
  unfold limitDisarmed
  rw [if_neg hv]
  split
  · exact ⟨by decide, by decide⟩
  · rename_i hlow
    split
    · exact ⟨by decide, by decide⟩
    · rename_i hhigh
      exact ⟨UInt16.not_lt.1 hlow, UInt16.not_lt.1 hhigh⟩

/-! ## Messages -/

/-- A message to `PX4IO_PAGE_DISARMED_PWM`. -/
structure DisarmedMessage where
  board : Board
  offset : UInt8
  values : List UInt16

/-- The IO takes such a message. -/
def disarmedWrite (s : Io G) (m : DisarmedMessage) : Io G :=
  (registersSet s m.board 109 m.offset m.values).1

/-- Some output has a pulse while it is disarmed. -/
def SomeDisarmed (s : Io G) : Prop := ∃ i < servoCount, s.servoDisarmed i ≠ 0

/-- The flag says whether some output has a pulse, and every pulse can be sent. -/
def DisarmedRight (s : Io G) : Prop :=
  (s.hasArming ArmingFlag.alwaysPwmEnable = true ↔ SomeDisarmed s) ∧
    ∀ i < servoCount, s.servoDisarmed i ≠ 0 → InPwmRange (s.servoDisarmed i)

/-- The message says itself what the flag is: some output gets a pulse from it, or the outputs it
leaves alone have none. -/
def TellsFlag (s : Io G) (m : DisarmedMessage) : Prop :=
  (∃ v ∈ copied servoCount m.offset.toNat m.values, v ≠ 0) ∨
    ∀ i < servoCount, (i < m.offset.toNat ∨ m.offset.toNat + m.values.length ≤ i) →
      s.servoDisarmed i = 0

variable {s : Io G} {m : DisarmedMessage}

theorem disarmedWrite_eq : disarmedWrite s m = setDisarmedPwm s m.offset.toNat m.values := rfl

theorem disarmedWrite_page : (disarmedWrite s m).servoDisarmed =
    copyPage servoCount limitDisarmed s.servoDisarmed m.offset.toNat m.values := by
  rw [disarmedWrite_eq, setDisarmedPwm]
  split <;> rfl

theorem disarmedWrite_flag : (disarmedWrite s m).hasArming ArmingFlag.alwaysPwmEnable = true ↔
    ∃ v ∈ copied servoCount m.offset.toNat m.values, v ≠ 0 := by
  have hsetup : ∀ (t : Io G) (v : UInt16),
      (t.setSetup SetupReg.arming v).hasArming ArmingFlag.alwaysPwmEnable =
        hasFlag v ArmingFlag.alwaysPwmEnable := by
    intro t v
    have harming : (t.setSetup SetupReg.arming v).setupArming = v := by
      simp [Io.setupArming, Io.setSetup]
    rw [Io.hasArming, harming]
  rw [disarmedWrite_eq, setDisarmedPwm]
  split
  -- all values are zero, and the flag is cleared
  · rename_i hall
    rw [hsetup, hasFlag_and_not_self]
    refine iff_of_false Bool.false_ne_true ?_
    rintro ⟨v, hv, hne⟩
    exact hne (by simpa using List.all_eq_true.1 hall v hv)
  · rename_i hall
    rw [hsetup, hasFlag_or_self _ (by decide)]
    refine iff_of_true rfl ?_
    by_contra hnone
    refine hall (List.all_eq_true.2 fun v hv => ?_)
    by_contra hne
    exact hnone ⟨v, hv, fun hzero => hne (by simp [hzero])⟩

theorem someDisarmed_disarmedWrite : SomeDisarmed (disarmedWrite s m) ↔
    (∃ v ∈ copied servoCount m.offset.toNat m.values, v ≠ 0) ∨
      ∃ i < servoCount, (i < m.offset.toNat ∨ m.offset.toNat + m.values.length ≤ i) ∧
        s.servoDisarmed i ≠ 0 := by
  unfold SomeDisarmed
  rw [disarmedWrite_page]
  constructor
  · rintro ⟨i, hi, hne⟩
    by_cases houtside : i < m.offset.toNat ∨ m.offset.toNat + m.values.length ≤ i
    · rw [copyPage_outside houtside] at hne
      exact Or.inr ⟨i, hi, houtside, hne⟩
    -- within the window, the limits leave zero and nothing else at zero
    · obtain ⟨k, rfl⟩ : ∃ k, i = m.offset.toNat + k := ⟨i - m.offset.toNat, by omega⟩
      have hk : k < m.values.length := by omega
      have hget : m.values[k]? = some m.values[k] := List.getElem?_eq_getElem hk
      rw [copyPage_written hget hi] at hne
      exact Or.inl ⟨_, mem_copied.2 ⟨k, hget, hi⟩, limitDisarmed_eq_zero.not.1 hne⟩
  · rintro (⟨v, hv, hne⟩ | ⟨i, hi, houtside, hne⟩)
    · obtain ⟨k, hget, hk⟩ := mem_copied.1 hv
      refine ⟨m.offset.toNat + k, hk, ?_⟩
      rw [copyPage_written hget hk]
      exact limitDisarmed_eq_zero.not.2 hne
    · exact ⟨i, hi, by rwa [copyPage_outside houtside]⟩

theorem disarmedWrite_range (hs : ∀ i < servoCount, s.servoDisarmed i ≠ 0 →
    InPwmRange (s.servoDisarmed i)) :
    ∀ i < servoCount, (disarmedWrite s m).servoDisarmed i ≠ 0 →
      InPwmRange ((disarmedWrite s m).servoDisarmed i) := by
  intro i hi hne
  rw [disarmedWrite_page] at hne ⊢
  by_cases houtside : i < m.offset.toNat ∨ m.offset.toNat + m.values.length ≤ i
  · rw [copyPage_outside houtside] at hne ⊢
    exact hs i hi hne
  · obtain ⟨k, rfl⟩ : ∃ k, i = m.offset.toNat + k := ⟨i - m.offset.toNat, by omega⟩
    have hk : k < m.values.length := by omega
    rw [copyPage_written (List.getElem?_eq_getElem hk) hi] at hne ⊢
    exact limitDisarmed_range hne

theorem disarmedWrite_right (hs : DisarmedRight s) :
    DisarmedRight (disarmedWrite s m) ↔ TellsFlag s m := by
  unfold DisarmedRight TellsFlag
  rw [disarmedWrite_flag, someDisarmed_disarmedWrite, and_iff_left (disarmedWrite_range hs.2)]
  constructor
  · intro hiff
    -- without a pulse of its own the message clears the flag, so that no other output may have one
    by_cases hown : ∃ v ∈ copied servoCount m.offset.toNat m.values, v ≠ 0
    · exact Or.inl hown
    · refine Or.inr fun i hi houtside => ?_
      by_contra hne
      exact hown (hiff.2 (Or.inr ⟨i, hi, houtside, hne⟩))
  · rintro (hown | hnone)
    · exact iff_of_true hown (Or.inl hown)
    · refine ⟨Or.inl, ?_⟩
      rintro (hown | ⟨i, hi, houtside, hne⟩)
      · exact hown
      · exact absurd (hnone i hi houtside) hne

theorem initial_disarmedRight (ops : MixerLoader G) : DisarmedRight (Io.initial ops) := by
  refine ⟨iff_of_false ?_ ?_, fun i _ hne => absurd rfl hne⟩
  · show ¬hasFlag ArmingFlag.overrideImmediate ArmingFlag.alwaysPwmEnable = true
    decide
  · rintro ⟨i, -, hne⟩
    exact hne rfl

/-- The flag is right after every message exactly as long as every message tells it. -/
theorem disarmed_flag (ops : MixerLoader G) (ms : List DisarmedMessage) :
    (∀ t ∈ visited disarmedWrite (Io.initial ops) ms, DisarmedRight t) ↔
      AllSteps disarmedWrite TellsFlag (Io.initial ops) ms := by
  have hstep : ∀ (s : Io G) (m : DisarmedMessage),
      DisarmedRight s → (DisarmedRight (disarmedWrite s m) ↔ TellsFlag s m) :=
    fun s m hs => disarmedWrite_right hs
  exact forall_visited_iff_allSteps hstep (initial_disarmedRight ops)

/-- A pulse for the first output, and then none for the second. -/
theorem disarmed_flag_lost : ¬∀ (ops : MixerLoader Unit) (ms : List DisarmedMessage),
    ∀ t ∈ visited disarmedWrite (Io.initial ops) ms, DisarmedRight t := by
  intro hall
  have hlast := hall ⟨(), fun g _ => (g, 0)⟩
    [⟨idleBoard, 0, [1000]⟩, ⟨idleBoard, 1, [0]⟩] _
    (exec_mem_visited ..)
  exact absurd (hlast.1.2 ⟨0, by decide, by decide⟩) (by decide)

end Px4io
end DtPhm
