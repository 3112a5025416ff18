import DtPhm.Lib.Run
import DtPhm.Px4io.Registers
import Mathlib.Data.List.Induction

/-!
# PwmRates — the rates of the outputs, in the registers and in the timers

Outputs that share a timer are a group, and a group has one rate.

* `configureRates` — `pwm_configure_rates` with the timers that it programs; `configureRates_io`
  says that it is the function of the registers;
* `rateWrite` — a write to one of the three registers;
* `programmed_rates` — the timers agree with the registers exactly as long as no write gives another
  value to a rate that some group has.

The timers are programmed with the rates of the registers, which are stored after that.
-/

namespace DtPhm
namespace Px4io

open Lib

variable {G : Type}

/-! ## Programming the timers -/

/-- The registers, and the rate that was last programmed into each group. -/
structure Pwm (G : Type) where
  io : Io G
  programmed : ℕ → Option UInt16

/-- `PX4IO_P_STATUS_ALARMS_PWM_ERROR`. -/
def Io.pwmAlarm (s : Io G) : Io G := { s with statusAlarms := s.statusAlarms ||| alarmPwmError }

/-- The rate of the registers that a group gets. -/
def groupRate (map : UInt16) (mask : UInt32) (setup : RegPage) : UInt16 :=
  if map.toUInt32 &&& mask ≠ 0 then setup SetupReg.pwmAltrate else setup SetupReg.pwmDefaultrate

/-- The second pass of `pwm_configure_rates`, for one group. -/
def programGroup (board : Board) (map : UInt16) (p : Pwm G) (group : ℕ) : Pwm G :=
  let mask := board.rateGroup group
  if mask = 0 then p
  else if board.setRateOk group then
    { p with programmed := Function.update p.programmed group (some (groupRate map mask p.io.setup))
      }
  else { p with io := p.io.pwmAlarm }

/-- `pwm_configure_rates`, with the timers. -/
def configureRates (p : Pwm G) (board : Board) (map defaultrate altrate : UInt16) : Pwm G :=
  if !ratesLegal board map then { p with io := p.io.pwmAlarm }
  else
    let p := (List.range servoCount).foldl (programGroup board map) p
    { p with
      io :=
        ((p.io.setSetup SetupReg.pwmRates map).setSetup SetupReg.pwmDefaultrate
          defaultrate).setSetup
          SetupReg.pwmAltrate altrate }

section Passes

variable {p : Pwm G} {board : Board} {map defaultrate altrate : UInt16}

/-- The timer of a group cannot be programmed. -/
def groupFails (board : Board) (group : ℕ) : Bool :=
  board.rateGroup group != 0 && !board.setRateOk group

theorem pwmAlarm_pwmAlarm (s : Io G) : s.pwmAlarm.pwmAlarm = s.pwmAlarm := by
  unfold Io.pwmAlarm
  simp only [UInt16.or_assoc, UInt16.or_self]

theorem programGroup_io (group : ℕ) : (programGroup board map p group).io =
    if groupFails board group then p.io.pwmAlarm else p.io := by
  unfold programGroup groupFails
  by_cases hmask : board.rateGroup group = 0
  · simp [hmask]
  · cases hok : board.setRateOk group <;> simp [hmask]

theorem foldl_programGroup_io (groups : List ℕ) :
    (groups.foldl (programGroup board map) p).io =
      if groups.any (groupFails board) then p.io.pwmAlarm else p.io := by
  induction groups generalizing p with
  | nil => rfl
  | cons group groups ih =>
      rw [List.foldl_cons, ih, List.any_cons, programGroup_io]
      cases hfails : groupFails board group
      · rw [Bool.false_or]
        rfl
      · cases groups.any (groupFails board)
        · rfl
        · exact pwmAlarm_pwmAlarm p.io

theorem foldl_programGroup_setup (groups : List ℕ) :
    (groups.foldl (programGroup board map) p).io.setup = p.io.setup := by
  rw [foldl_programGroup_io]
  split <;> rfl

theorem foldl_programGroup_programmed {groups : List ℕ} {group : ℕ} (hmem : group ∈ groups)
    (hmask : board.rateGroup group ≠ 0) (hok : board.setRateOk group = true) :
    (groups.foldl (programGroup board map) p).programmed group =
      some (groupRate map (board.rateGroup group) p.io.setup) := by
  -- from the back: the last pass over the group counts, and the registers are those of the start
  induction groups using List.reverseRecOn with
  | nil => cases hmem
  | append_singleton groups last ih =>
      rw [List.foldl_append, List.foldl_cons, List.foldl_nil]
      by_cases hlast : group = last
      · subst hlast
        rw [programGroup, if_neg hmask, if_pos hok, foldl_programGroup_setup]
        exact Function.update_self ..
      · have hbefore : group ∈ groups :=
          (List.mem_append.1 hmem).resolve_right fun h => hlast (List.mem_singleton.1 h)
        rw [← ih hbefore, programGroup]
        split
        · rfl
        · split
          · exact Function.update_of_ne hlast ..
          · rfl

theorem configureRates_io : (configureRates p board map defaultrate altrate).io =
    pwmConfigureRates p.io board map defaultrate altrate := by
  unfold configureRates pwmConfigureRates
  split
  · rfl
  · dsimp only
    rw [foldl_programGroup_io]
    rfl

end Passes

/-! ## Writes -/

/-- The registers of the rates. -/
inductive RateRegister
  | rates
  | defaultrate
  | altrate
deriving DecidableEq

/-- A write to one of them, and which timers can be programmed meanwhile. -/
structure RateWrite where
  register : RateRegister
  value : UInt16
  now : UInt64
  setRateOk : ℕ → Bool

namespace RateWrite

variable (w : RateWrite) (masks : ℕ → UInt32)

/-- The board has the groups `masks`. -/
def board : Board := ⟨w.now, masks, w.setRateOk, fun _ => 0⟩

/-- The map with which `pwm_configure_rates` is called. -/
def map (setup : RegPage) : UInt16 :=
  match w.register with
  | .rates => w.value &&& 0xff
  | _ => setup SetupReg.pwmRates

def defaultrate (setup : RegPage) : UInt16 :=
  match w.register with
  | .defaultrate => limitRate w.value
  | _ => setup SetupReg.pwmDefaultrate

/-- Zero is a rate, that of oneshots. -/
def altrate (setup : RegPage) : UInt16 :=
  match w.register with
  | .altrate => if w.value ≠ 0 then limitRate w.value else w.value
  | _ => setup SetupReg.pwmAltrate

end RateWrite

/-- The IO takes a write, on a board with the groups `masks`. -/
def rateWrite (masks : ℕ → UInt32) (p : Pwm G) (w : RateWrite) : Pwm G :=
  configureRates p (w.board masks) (w.map p.io.setup) (w.defaultrate p.io.setup)
    (w.altrate p.io.setup)

variable {p : Pwm G} {masks : ℕ → UInt32} {w : RateWrite}

/-- The map splits a group. -/
def Splits (masks : ℕ → UInt32) (map : UInt16) : Prop :=
  ∃ group < servoCount, masks group ≠ 0 ∧ map.toUInt32 &&& masks group ≠ 0 ∧
    map.toUInt32 &&& masks group ≠ masks group

/-- The write raises an alarm: its map splits a group, or the timer of a group cannot be
programmed. -/
def RaisesAlarm (masks : ℕ → UInt32) (p : Pwm G) (w : RateWrite) : Prop :=
  Splits masks (w.map p.io.setup) ∨
    ∃ group < servoCount, masks group ≠ 0 ∧ w.setRateOk group = false

/-- Each group has the rate that the registers say. -/
def RatesAgree (masks : ℕ → UInt32) (p : Pwm G) : Prop :=
  ∀ group < servoCount, masks group ≠ 0 →
    p.programmed group =
      some (if (p.io.setup SetupReg.pwmRates).toUInt32 &&& masks group = masks group then
          p.io.setup SetupReg.pwmAltrate
        else p.io.setup SetupReg.pwmDefaultrate)

/-- What is wanted of a write. -/
def RateWriteRight (masks : ℕ → UInt32) (p : Pwm G) (w : RateWrite) : Prop :=
  (¬RaisesAlarm masks p w → RatesAgree masks (rateWrite masks p w)) ∧
    (Splits masks (w.map p.io.setup) →
      (rateWrite masks p w).io.setup = p.io.setup ∧
        (rateWrite masks p w).programmed = p.programmed)

/-- Some group has the alternate rate. -/
def SomeAlt (masks : ℕ → UInt32) (map : UInt16) : Prop :=
  ∃ group < servoCount, masks group ≠ 0 ∧ map.toUInt32 &&& masks group = masks group

/-- Some group has the default rate. -/
def SomeDefault (masks : ℕ → UInt32) (map : UInt16) : Prop :=
  ∃ group < servoCount, masks group ≠ 0 ∧ map.toUInt32 &&& masks group ≠ masks group

/-- The write gives another value to a rate that some group has. -/
def ChangesUsedRate (masks : ℕ → UInt32) (p : Pwm G) (w : RateWrite) : Prop :=
  match w.register with
  | .rates => False
  | .defaultrate =>
      limitRate w.value ≠ p.io.setup SetupReg.pwmDefaultrate ∧
        SomeDefault masks (p.io.setup SetupReg.pwmRates)
  | .altrate =>
      (if w.value ≠ 0 then limitRate w.value else w.value) ≠ p.io.setup SetupReg.pwmAltrate ∧
        SomeAlt masks (p.io.setup SetupReg.pwmRates)

theorem ratesLegal_iff {map : UInt16} :
    ratesLegal (w.board masks) map = true ↔ ¬Splits masks map := by
  unfold ratesLegal Splits
  rw [List.all_eq_true]
  constructor
  · rintro hall ⟨group, hgroup, hmask, hsome, hnotall⟩
    have hlegal := hall group (List.mem_range.2 hgroup)
    simp [RateWrite.board, hmask, hsome, hnotall] at hlegal
  · intro hnone group hgroup
    by_contra hillegal
    refine hnone ⟨group, List.mem_range.1 hgroup, ?_⟩
    simpa [RateWrite.board, and_assoc] using hillegal

theorem rateWrite_of_splits (h : Splits masks (w.map p.io.setup)) :
    rateWrite masks p w = { p with io := p.io.pwmAlarm } := by
  have hillegal : ratesLegal (w.board masks) (w.map p.io.setup) = false := by
    rw [Bool.eq_false_iff, Ne, ratesLegal_iff]
    exact not_not.2 h
  rw [rateWrite, configureRates, hillegal]
  rfl

theorem rateWrite_of_not_splits (h : ¬Splits masks (w.map p.io.setup)) :
    rateWrite masks p w =
      let p' := (List.range servoCount).foldl (programGroup (w.board masks) (w.map p.io.setup)) p
      { p' with
        io :=
          ((p'.io.setSetup SetupReg.pwmRates (w.map p.io.setup)).setSetup SetupReg.pwmDefaultrate
            (w.defaultrate p.io.setup)).setSetup SetupReg.pwmAltrate (w.altrate p.io.setup) } := by
  rw [rateWrite, configureRates, ratesLegal_iff.2 h]
  rfl

/-- A write that raises no alarm programs the groups with the rates of the registers, and stores
what it was given. -/
theorem rateWrite_spec (h : ¬RaisesAlarm masks p w) :
    (∀ group < servoCount, masks group ≠ 0 →
        (rateWrite masks p w).programmed group =
          some (groupRate (w.map p.io.setup) (masks group) p.io.setup)) ∧
      (rateWrite masks p w).io.setup SetupReg.pwmRates = w.map p.io.setup ∧
      (rateWrite masks p w).io.setup SetupReg.pwmDefaultrate = w.defaultrate p.io.setup ∧
      (rateWrite masks p w).io.setup SetupReg.pwmAltrate = w.altrate p.io.setup := by
  obtain ⟨hsplits, hfails⟩ := not_or.1 h
  rw [rateWrite_of_not_splits hsplits]
  refine ⟨fun group hgroup hmask => ?_, ?_, ?_, ?_⟩
  · have hok : w.setRateOk group = true := by
      by_contra hfail
      exact hfails ⟨group, hgroup, hmask, Bool.eq_false_iff.2 hfail⟩
    exact foldl_programGroup_programmed (List.mem_range.2 hgroup) hmask hok
  · simp [Io.setSetup, SetupReg.pwmRates, SetupReg.pwmDefaultrate, SetupReg.pwmAltrate]
  · simp [Io.setSetup, SetupReg.pwmDefaultrate, SetupReg.pwmAltrate]
  · simp [Io.setSetup]

/-- Where no group is split, a group that has some of its channels in the map has all of them. -/
theorem groupRate_of_not_splits {map : UInt16} {group : ℕ} (h : ¬Splits masks map)
    (hgroup : group < servoCount) (hmask : masks group ≠ 0) (setup : RegPage) :
    groupRate map (masks group) setup =
      if map.toUInt32 &&& masks group = masks group then setup SetupReg.pwmAltrate
      else setup SetupReg.pwmDefaultrate := by
  unfold groupRate
  by_cases hall : map.toUInt32 &&& masks group = masks group
  · rw [if_pos hall, if_pos (by rwa [hall])]
  · have hnone : map.toUInt32 &&& masks group = 0 := by
      by_contra hsome
      exact h ⟨group, hgroup, hmask, hsome, hall⟩
    rw [if_neg hall, if_neg (not_not.2 hnone)]

/-- After a write that raises no alarm the groups have the rates of the registers exactly if every
rate that some group has is what it was. -/
theorem ratesAgree_iff (h : ¬RaisesAlarm masks p w) :
    RatesAgree masks (rateWrite masks p w) ↔
      ¬(w.altrate p.io.setup ≠ p.io.setup SetupReg.pwmAltrate ∧ SomeAlt masks (w.map p.io.setup)) ∧
        ¬(w.defaultrate p.io.setup ≠ p.io.setup SetupReg.pwmDefaultrate ∧
          SomeDefault masks (w.map p.io.setup)) := by
  obtain ⟨hprogrammed, hrates, hdefaultrate, haltrate⟩ := rateWrite_spec h
  have hgroups : RatesAgree masks (rateWrite masks p w) ↔
      ∀ group < servoCount, masks group ≠ 0 →
        if (w.map p.io.setup).toUInt32 &&& masks group = masks group then
          p.io.setup SetupReg.pwmAltrate = w.altrate p.io.setup
        else p.io.setup SetupReg.pwmDefaultrate = w.defaultrate p.io.setup := by
    unfold RatesAgree
    rw [hrates, hdefaultrate, haltrate]
    refine forall₃_congr fun group hgroup hmask => ?_
    rw [hprogrammed group hgroup hmask, Option.some.injEq,
      groupRate_of_not_splits (not_or.1 h).1 hgroup hmask]
    split <;> exact Iff.rfl
  rw [hgroups]
  constructor
  · intro hkeeps
    -- a group that has the rate tells that it was kept
    refine ⟨?_, ?_⟩ <;> rintro ⟨hne, group, hgroup, hmask, huses⟩
    · have hrate := hkeeps group hgroup hmask
      rw [if_pos huses] at hrate
      exact hne hrate.symm
    · have hrate := hkeeps group hgroup hmask
      rw [if_neg huses] at hrate
      exact hne hrate.symm
  · rintro ⟨halt, hdefault⟩ group hgroup hmask
    split
    · rename_i huses
      by_contra hne
      exact halt ⟨Ne.symm hne, group, hgroup, hmask, huses⟩
    · rename_i huses
      by_contra hne
      exact hdefault ⟨Ne.symm hne, group, hgroup, hmask, huses⟩

theorem ratesAgree_rateWrite (h : ¬RaisesAlarm masks p w) :
    RatesAgree masks (rateWrite masks p w) ↔ ¬ChangesUsedRate masks p w := by
  rw [ratesAgree_iff h]
  unfold ChangesUsedRate RateWrite.map RateWrite.defaultrate RateWrite.altrate
  cases w.register <;> simp

/-- A write is right exactly if it raises an alarm, or leaves the rates alone that some group
has. -/
theorem rateWriteRight_iff (masks : ℕ → UInt32) (p : Pwm G) (w : RateWrite) :
    RateWriteRight masks p w ↔ RaisesAlarm masks p w ∨ ¬ChangesUsedRate masks p w := by
  have hsplits : Splits masks (w.map p.io.setup) →
      (rateWrite masks p w).io.setup = p.io.setup ∧
        (rateWrite masks p w).programmed = p.programmed := by
    intro h
    rw [rateWrite_of_splits h]
    exact ⟨rfl, rfl⟩
  unfold RateWriteRight
  rw [and_iff_left hsplits]
  by_cases halarm : RaisesAlarm masks p w
  · exact iff_of_true (fun hno => absurd halarm hno) (Or.inl halarm)
  · rw [or_iff_right halarm, ← ratesAgree_rateWrite halarm]
    exact ⟨fun h => h halarm, fun h _ => h⟩

/-- Before the first write. -/
def Pwm.initial (ops : MixerLoader G) : Pwm G := ⟨Io.initial ops, fun _ => none⟩

/-- Every write is right exactly as long as no write without an alarm changes a rate that some group
has. -/
theorem programmed_rates (ops : MixerLoader G) (masks : ℕ → UInt32) (ws : List RateWrite) :
    AllSteps (rateWrite masks) (RateWriteRight masks) (Pwm.initial ops) ws ↔
      AllSteps (rateWrite masks)
        (fun p w => RaisesAlarm masks p w ∨ ¬ChangesUsedRate masks p w) (Pwm.initial ops) ws :=
  allSteps_congr (rateWriteRight_iff masks) (Pwm.initial ops) ws

/-- The groups of three timers. -/
def threeTimers : ℕ → UInt32
  | 0 => 0x03
  | 1 => 0xf0
  | 2 => 0x0c
  | _ => 0

/-- The default rate is set to 100 Hz, and the timers stay at 50 Hz. -/
theorem programmed_rates_stale : ¬∀ (ops : MixerLoader Unit) (masks : ℕ → UInt32)
    (ws : List RateWrite),
    AllSteps (rateWrite masks) (RateWriteRight masks) (Pwm.initial ops) ws := by
  intro hall
  obtain ⟨hwrite, -⟩ := hall ⟨(), fun g _ => (g, 0)⟩ threeTimers
    [⟨.defaultrate, 100, 0, fun _ => true⟩]
  rcases (rateWriteRight_iff _ _ _).1 hwrite
    with (⟨group, hgroup, hmask, hsome, -⟩ | halarm) | hkeeps
  -- the map is empty, and splits nothing
  · have hzero : ∀ m : UInt32, UInt16.toUInt32 0 &&& m = 0 := fun m => by simp
    exact hsome (hzero _)
  · obtain ⟨group, -, -, hfail⟩ := halarm
    exact Bool.noConfusion hfail
  · exact hkeeps ⟨by decide, 0, by decide, by decide, by decide⟩

end Px4io
end DtPhm
