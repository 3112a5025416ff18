import DtPhm.Lib.Run
import DtPhm.Commander.Status

/-!
# Arming — the arming state machine of the commander

`arming_state_transition` looks a requested state up in a table, runs the checks before an arming,
and changes `arming_state` and the two booleans of `actuator_armed` that follow it.  What the checks
answer is not modelled: a call carries the answers.

* `armingTransitions` — the table;
* `armingStateTransition` — one call, stage by stage;
* `CallKeepsWord` — what a call is meant to leave behind;
* `arming_calls_keep_word` — this holds of all calls of a run exactly when hardware in the loop
  never recovers the state of a call that it denies.
-/

namespace DtPhm
namespace Commander

open Lib

/-! ## The table -/

/-- The place of a state in the rows and columns of the table. -/
def ArmingState.toNat : ArmingState → ℕ
  | .init => 0
  | .standby => 1
  | .armed => 2
  | .standbyError => 3
  | .shutdown => 4
  | .inAirRestore => 5

/-- `arming_transitions`, by the new state and then the current one. -/
def armingTransitions (new current : ArmingState) : Bool :=
  let table :=
    [ /- INIT -/            [true, true, false, true, false, false],
      /- STANDBY -/         [true, true, true, false, false, false],
      /- ARMED -/           [false, true, true, false, false, true],
      /- STANDBY_ERROR -/   [true, true, true, true, false, false],
      /- SHUTDOWN -/        [true, true, false, true, true, true],
      /- IN_AIR_RESTORE -/  [false, false, false, false, false, false] ]
  (table.getD new.toNat []).getD current.toNat false

/-- `arming_state_names`. -/
def ArmingState.name : ArmingState → String
  | .init => "INIT"
  | .standby => "STANDBY"
  | .armed => "ARMED"
  | .standbyError => "STANDBY_ERROR"
  | .shutdown => "SHUTDOWN"
  | .inAirRestore => "IN_AIR_RESTORE"

/-! ## A call -/

/-- A request, with what the checks answer and the times that are read. -/
structure ArmingCall where
  newArmingState : ArmingState
  fRunPreArmChecks : Bool
  callingReason : ArmDisarmReason
  /-- `preflightCheck` before an arming. -/
  preflightCheck : Bool
  /-- `preflightCheck` that is run again as long as sensors are failing. -/
  sensorsCheck : Bool
  preArmCheck : Bool
  elapsedAt : UInt64
  checkedAt : UInt64
  armedAt : UInt64
deriving DecidableEq, Repr

/-- The messages that are passed by reference, and the time of the last check of the sensors. -/
structure ArmingContext where
  status : VehicleStatus
  armed : ActuatorArmed
  statusFlags : VehicleStatusFlags
  lastPreflightCheck : UInt64
deriving DecidableEq, Repr

/-- The result of a call, with the message of a request that is denied without any other
feedback. -/
structure ArmingAnswer where
  context : ArmingContext
  ret : TransitionResult
  critical : Option String := none
deriving DecidableEq, Repr

variable (s : ArmingContext) (c : ArmingCall)

/-- `hil_enabled`. -/
def ArmingContext.hilEnabled : Bool := s.status.hilState == .on

/-- The pre-arm part of the preflight check has to be done. -/
def preflightRuns : Bool :=
  c.fRunPreArmChecks && c.newArmingState == .armed && !s.hilEnabled

/-- `preflight_check_ret`. -/
def preflightCheckRet : Bool := !preflightRuns s c || c.preflightCheck

/-- The context after the preflight check of an arming. -/
def preflightStage : ArmingContext :=
  if preflightRuns s c && c.preflightCheck then
    { s with statusFlags := { s.statusFlags with conditionSystemSensorsInitialized := true } }
  else s

/-- The context after the sensors have been looked at again. -/
def sensorsStage : ArmingContext :=
  if !s.statusFlags.conditionSystemSensorsInitialized && c.fRunPreArmChecks &&
      (c.newArmingState == .armed || c.newArmingState == .standby) && !s.hilEnabled &&
      (s.lastPreflightCheck == 0 ||
        decide (hrtElapsedTime c.elapsedAt s.lastPreflightCheck > 1000 * 1000)) then
    { s with
      statusFlags := { s.statusFlags with conditionSystemSensorsInitialized := c.sensorsCheck }
      lastPreflightCheck := c.checkedAt }
  else s

/-- The prearm check has nothing against the arming; it is run only if the preflight check has
nothing against it either. -/
def prearmCheckRet : Bool :=
  !(c.fRunPreArmChecks && preflightCheckRet s c) || c.preArmCheck

/-- An arming that the table allows is rejected by the checks. -/
def prearmRejects : Bool :=
  armingTransitions c.newArmingState s.status.armingState && c.newArmingState == .armed &&
    s.status.armingState != .inAirRestore && (!preflightCheckRet s c || !prearmCheckRet s c)

/-- `valid_transition` after the table and the checks. -/
def validBefore : Bool :=
  armingTransitions c.newArmingState s.status.armingState && !prearmRejects s c

/-- The context after the rules for hardware in the loop. -/
def hilStage : ArmingContext :=
  if s.hilEnabled then
    { s with
      armed := { s.armed with lockdown := true }
      statusFlags := { s.statusFlags with conditionSystemSensorsInitialized := true }
      status := { s.status with
        armingState :=
          if s.status.armingState = .standbyError then .standby else s.status.armingState } }
  else s

/-- Standby is refused because sensors are failing. -/
def sensorsReject : Bool :=
  !s.hilEnabled && c.newArmingState == .standby && s.status.armingState != .standbyError &&
    !s.statusFlags.conditionSystemSensorsInitialized

/-- The changes of a valid transition. -/
def finish : ArmingContext :=
  let nowArmed := c.newArmingState == .armed
  { s with
    armed := { s.armed with
      armed := nowArmed
      readyToArm := nowArmed || c.newArmingState == .standby }
    status := { s.status with
      armingState := c.newArmingState
      latestDisarmingReason :=
        if s.armed.armed && !nowArmed then c.callingReason else s.status.latestDisarmingReason
      latestArmingReason :=
        if !s.armed.armed && nowArmed then c.callingReason else s.status.latestArmingReason
      armedTime := if nowArmed then c.armedAt else 0 } }

/-- The context after the checks. -/
def sensed : ArmingContext := sensorsStage (preflightStage s c) c

/-- The context in which the transition is decided. -/
def decided : ArmingContext := hilStage (sensed s c)

/-- `valid_transition`.  The table is read before hardware in the loop changes the state. -/
def validTransition : Bool :=
  (validBefore (sensed s c) c || (s.hilEnabled && c.newArmingState == .standby)) &&
    !sensorsReject (decided s c) c

/-- `feedback_provided`. -/
def feedbackProvided : Bool :=
  preflightRuns s c || prearmRejects (sensed s c) c || sensorsReject (decided s c) c

/-- `arming_state_transition`. -/
def armingStateTransition : ArmingAnswer :=
  if c.newArmingState = s.status.armingState then ⟨s, .notChanged, none⟩
  else if validTransition s c then ⟨finish (decided s c) c, .changed, none⟩
  else
    ⟨decided s c, .denied,
      if feedbackProvided s c then none
      else some ("Transition denied: " ++ (decided s c).status.armingState.name ++ " to " ++
        c.newArmingState.name)⟩

variable {s : ArmingContext} {c : ArmingCall}

/-! ## What a call can do -/

@[simp] theorem preflightStage_status : (preflightStage s c).status = s.status := by
  unfold preflightStage
  split <;> rfl

@[simp] theorem preflightStage_armed : (preflightStage s c).armed = s.armed := by
  unfold preflightStage
  split <;> rfl

@[simp] theorem sensorsStage_status : (sensorsStage s c).status = s.status := by
  unfold sensorsStage
  split <;> rfl

@[simp] theorem sensorsStage_armed : (sensorsStage s c).armed = s.armed := by
  unfold sensorsStage
  split <;> rfl

/-- The state that hardware in the loop makes of the current one. -/
def recovered (s : ArmingContext) : ArmingState :=
  if s.status.hilState = .on ∧ s.status.armingState = .standbyError then .standby
  else s.status.armingState

@[simp] theorem hilStage_armingState : (hilStage s).status.armingState = recovered s := by
  unfold hilStage recovered ArmingContext.hilEnabled
  cases s.status.hilState <;> simp

@[simp] theorem hilStage_armed : (hilStage s).armed.armed = s.armed.armed := by
  unfold hilStage
  split <;> rfl

@[simp] theorem hilStage_readyToArm : (hilStage s).armed.readyToArm = s.armed.readyToArm := by
  unfold hilStage
  split <;> rfl

@[simp] theorem sensed_status : (sensed s c).status = s.status := by
  simp [sensed]

@[simp] theorem decided_armingState : (decided s c).status.armingState = recovered s := by
  simp [decided, recovered]

@[simp] theorem decided_armed : (decided s c).armed.armed = s.armed.armed := by
  simp [decided, sensed]

@[simp] theorem decided_readyToArm : (decided s c).armed.readyToArm = s.armed.readyToArm := by
  simp [decided, sensed]

theorem armingStateTransition_cases (s : ArmingContext) (c : ArmingCall) :
    (c.newArmingState = s.status.armingState ∧ (armingStateTransition s c).ret = .notChanged ∧
        (armingStateTransition s c).context = s) ∨
      (c.newArmingState ≠ s.status.armingState ∧ validTransition s c = true ∧
        (armingStateTransition s c).ret = .changed ∧
        (armingStateTransition s c).context = finish (decided s c) c) ∨
      (c.newArmingState ≠ s.status.armingState ∧ validTransition s c = false ∧
        (armingStateTransition s c).ret = .denied ∧
        (armingStateTransition s c).context = decided s c) := by
  unfold armingStateTransition
  by_cases hsame : c.newArmingState = s.status.armingState
  · exact .inl ⟨hsame, by rw [if_pos hsame], by rw [if_pos hsame]⟩
  · rw [if_neg hsame]
    cases hv : validTransition s c with
    | true => exact .inr (.inl ⟨hsame, rfl, rfl, rfl⟩)
    | false => exact .inr (.inr ⟨hsame, rfl, rfl, rfl⟩)

/-- A transition that goes ahead is in the table, or goes to standby with hardware in the loop. -/
theorem armingTransitions_of_valid (hv : validTransition s c = true) :
    armingTransitions c.newArmingState s.status.armingState = true ∨
      (s.status.hilState = .on ∧ c.newArmingState = .standby) := by
  unfold validTransition validBefore at hv
  simp only [sensed_status, Bool.and_eq_true, Bool.or_eq_true, ArmingContext.hilEnabled, beq_iff_eq]
    at hv
  rcases hv with ⟨⟨htable, -⟩ | hhil, -⟩
  · exact .inl htable
  · exact .inr hhil

theorem checks_of_valid (hv : validTransition s c = true) (hc : c.newArmingState = .armed)
    (hground : s.status.armingState ≠ .inAirRestore) (hrun : c.fRunPreArmChecks = true) :
    (s.status.hilState ≠ .on → c.preflightCheck = true) ∧ c.preArmCheck = true := by
  have htable : armingTransitions .armed s.status.armingState = true := by
    rcases armingTransitions_of_valid hv with htable | ⟨-, hstandby⟩
    · rwa [hc] at htable
    · rw [hc] at hstandby
      cases hstandby
  have hrejects : prearmRejects (sensed s c) c = false := by
    unfold validTransition validBefore at hv
    simp only [hc, Bool.and_eq_true, Bool.or_eq_true, Bool.not_eq_true'] at hv
    rcases hv with ⟨⟨-, hrejects⟩ | ⟨-, hstandby⟩, -⟩
    · exact hrejects
    · cases hstandby
  unfold prearmRejects prearmCheckRet preflightCheckRet preflightRuns ArmingContext.hilEnabled
    at hrejects
  simp only [sensed_status, hc, htable, hrun] at hrejects
  cases hhil : s.status.hilState <;> simp_all

/-- With hardware in the loop only an arming or an in-air restore is denied after a failed
prearm. -/
theorem valid_of_recovering (hhil : s.status.hilState = .on)
    (herror : s.status.armingState = .standbyError) (hne : c.newArmingState ≠ .standbyError) :
    validTransition s c = true ↔
      c.newArmingState ≠ .armed ∧ c.newArmingState ≠ .inAirRestore := by
  unfold validTransition validBefore prearmRejects sensorsReject ArmingContext.hilEnabled
  have hon : (decided s c).status.hilState = .on := by
    simp [decided, hilStage, ArmingContext.hilEnabled, hhil]
  simp only [sensed_status, hon, hhil, herror]
  cases hnew : c.newArmingState with
  | standbyError => exact absurd hnew hne
  | init => simp [armingTransitions, ArmingState.toNat]
  | standby => simp
  | armed => simp [armingTransitions, ArmingState.toNat]
  | shutdown => simp [armingTransitions, ArmingState.toNat]
  | inAirRestore => simp [armingTransitions, ArmingState.toNat]

/-- Of the other flags of `actuator_armed` a call only sets the lockdown, with hardware in the
loop. -/
theorem armingStateTransition_armed :
    (armingStateTransition s c).context.armed.forceFailsafe = s.armed.forceFailsafe ∧
      (armingStateTransition s c).context.armed.lockdown =
        (s.armed.lockdown ||
          (s.hilEnabled && c.newArmingState != s.status.armingState)) := by
  have hhil : (sensed s c).hilEnabled = s.hilEnabled := by
    simp [ArmingContext.hilEnabled]
  have hsensed : (sensed s c).armed = s.armed := by
    simp [sensed]
  have hdecided : (decided s c).armed.forceFailsafe = s.armed.forceFailsafe ∧
      (decided s c).armed.lockdown = (s.armed.lockdown || s.hilEnabled) := by
    unfold decided hilStage
    rw [hhil]
    cases s.hilEnabled <;> simp [hsensed]
  rcases armingStateTransition_cases s c with
    ⟨hsame, -, hcontext⟩ | ⟨hne, -, -, hcontext⟩ | ⟨hne, -, -, hcontext⟩
  · rw [hcontext]
    simp [hsame]
  · rw [hcontext]
    have : (c.newArmingState != s.status.armingState) = true := by simpa using hne
    rw [this, Bool.and_true]
    exact hdecided
  · rw [hcontext]
    have : (c.newArmingState != s.status.armingState) = true := by simpa using hne
    rw [this, Bool.and_true]
    exact hdecided

/-! ## Runs of calls -/

/-- A call, with the state of the simulation loop and the flags at that time. -/
structure ArmingEvent where
  hilState : HilState
  statusFlags : VehicleStatusFlags
  call : ArmingCall
deriving DecidableEq, Repr

/-- What a call finds. -/
def ArmingEvent.found (e : ArmingEvent) (s : ArmingContext) : ArmingContext :=
  { s with status := { s.status with hilState := e.hilState }, statusFlags := e.statusFlags }

def armingAnswer (s : ArmingContext) (e : ArmingEvent) : ArmingAnswer :=
  armingStateTransition (e.found s) e.call

def armingStep (s : ArmingContext) (e : ArmingEvent) : ArmingContext := (armingAnswer s e).context

/-- The context at startup: in the state INIT and not armed. -/
def ArmingContext.initial : ArmingContext :=
  ⟨VehicleStatus.initial, ActuatorArmed.initial, VehicleStatusFlags.initial, 0⟩

/-- The two booleans say what the arming state is. -/
structure FlagsAgree (s : ArmingContext) : Prop where
  armed : s.armed.armed = true ↔ s.status.armingState = .armed
  readyToArm : s.armed.readyToArm = true ↔
    s.status.armingState = .armed ∨ s.status.armingState = .standby

/-- What a call is meant to leave behind. -/
structure CallKeepsWord (s : ArmingContext) (e : ArmingEvent) : Prop where
  agree : FlagsAgree (armingStep s e)
  from_ground : s.status.armingState ≠ .armed → (armingStep s e).status.armingState = .armed →
    s.status.armingState = .standby ∨ s.status.armingState = .inAirRestore ∨
      (s.status.armingState = .standbyError ∧ e.hilState = .on)
  checked : s.status.armingState ≠ .armed → (armingStep s e).status.armingState = .armed →
    e.call.fRunPreArmChecks = true →
    (e.hilState ≠ .on → e.call.preflightCheck = true) ∧ e.call.preArmCheck = true
  unchanged : (armingAnswer s e).ret ≠ .changed →
    (armingStep s e).status.armingState = s.status.armingState ∧
      (armingStep s e).armed.armed = s.armed.armed ∧
      (armingStep s e).armed.readyToArm = s.armed.readyToArm

/-- Hardware in the loop recovers a failed prearm while the table still denies what is asked for. -/
def RecoversDenied (s : ArmingContext) (e : ArmingEvent) : Prop :=
  e.hilState = .on ∧ s.status.armingState = .standbyError ∧
    (e.call.newArmingState = .armed ∨ e.call.newArmingState = .inAirRestore)

/-- The state of restoring in the air is not reached by a transition. -/
structure OnGround (s : ArmingContext) : Prop where
  agree : FlagsAgree s
  not_restoring : s.status.armingState ≠ .inAirRestore

variable {e : ArmingEvent}

@[simp] theorem found_armingState : (e.found s).status.armingState = s.status.armingState := rfl

theorem OnGround.initial : OnGround ArmingContext.initial where
  agree := ⟨by decide, by decide⟩
  not_restoring := by decide

theorem not_restoring_of_valid (hv : validTransition s c = true) :
    c.newArmingState ≠ .inAirRestore := by
  intro hnew
  rcases armingTransitions_of_valid hv with htable | ⟨-, hstandby⟩
  · rw [hnew] at htable
    cases hcur : s.status.armingState <;> rw [hcur] at htable <;> cases htable
  · rw [hnew] at hstandby
    cases hstandby

theorem FlagsAgree.finish (s : ArmingContext) (c : ArmingCall) :
    FlagsAgree (Commander.finish s c) where
  armed := by simp [Commander.finish]
  readyToArm := by simp [Commander.finish]

theorem OnGround.keepsWord_of_same (hs : OnGround s)
    (hstate : (armingStep s e).status.armingState = s.status.armingState)
    (harmed : (armingStep s e).armed.armed = s.armed.armed)
    (hready : (armingStep s e).armed.readyToArm = s.armed.readyToArm) :
    CallKeepsWord s e ∧ OnGround (armingStep s e) := by
  have hagree : FlagsAgree (armingStep s e) :=
    ⟨by rw [harmed, hstate]; exact hs.agree.armed,
      by rw [hready, hstate]; exact hs.agree.readyToArm⟩
  refine ⟨⟨hagree, ?_, ?_, fun _ => ⟨hstate, harmed, hready⟩⟩, hagree, ?_⟩
  · intro hno hyes
    exact absurd (hstate ▸ hyes) hno
  · intro hno hyes
    exact absurd (hstate ▸ hyes) hno
  · rw [hstate]
    exact hs.not_restoring

theorem OnGround.keepsWord_of_valid (hs : OnGround s)
    (hv : validTransition (e.found s) e.call = true)
    (hret : (armingAnswer s e).ret = .changed)
    (hstep : armingStep s e = finish (decided (e.found s) e.call) e.call) :
    CallKeepsWord s e ∧ OnGround (armingStep s e) := by
  have hstate : (armingStep s e).status.armingState = e.call.newArmingState := by
    rw [hstep]
    rfl
  have hagree : FlagsAgree (armingStep s e) := hstep ▸ FlagsAgree.finish _ _
  refine ⟨⟨hagree, ?_, ?_, ?_⟩, hagree, ?_⟩
  · intro hno hyes
    rw [hstate] at hyes
    rcases armingTransitions_of_valid hv with htable | ⟨-, hstandby⟩
    · -- the row of the table for ARMED
      rw [hyes, found_armingState] at htable
      cases hcur : s.status.armingState with
      | standby => exact .inl rfl
      | inAirRestore => exact .inr (.inl rfl)
      | armed => exact absurd hcur hno
      | init => rw [hcur] at htable; cases htable
      | standbyError => rw [hcur] at htable; cases htable
      | shutdown => rw [hcur] at htable; cases htable
    · rw [hyes] at hstandby
      cases hstandby
  · intro _ hyes hrun
    rw [hstate] at hyes
    exact checks_of_valid hv hyes hs.not_restoring hrun
  · intro hno
    exact absurd hret hno
  · rw [hstate]
    exact not_restoring_of_valid hv

theorem OnGround.keepsWord (hs : OnGround s) (hok : ¬RecoversDenied s e) :
    CallKeepsWord s e ∧ OnGround (armingStep s e) := by
  rcases armingStateTransition_cases (e.found s) e.call with
    ⟨-, -, hcontext⟩ | ⟨-, hv, hret, hcontext⟩ | ⟨hne, hv, -, hcontext⟩
  · have hstep : armingStep s e = e.found s := hcontext
    exact hs.keepsWord_of_same (by rw [hstep]; rfl) (by rw [hstep]; rfl) (by rw [hstep]; rfl)
  · exact hs.keepsWord_of_valid hv hret hcontext
  · have hstep : armingStep s e = decided (e.found s) e.call := hcontext
    have hrecovered : recovered (e.found s) = s.status.armingState := by
      unfold recovered
      rw [if_neg]
      · rfl
      · rintro ⟨hhil, herror⟩
        have hwanted :=
          (not_congr (valid_of_recovering hhil herror (herror ▸ hne))).1 (by simp [hv])
        exact hok ⟨hhil, herror, by tauto⟩
    refine hs.keepsWord_of_same ?_ ?_ ?_
    · rw [hstep, decided_armingState, hrecovered]
    · rw [hstep, decided_armed]
      rfl
    · rw [hstep, decided_readyToArm]
      rfl

theorem not_keepsWord_of_recoversDenied (hbad : RecoversDenied s e) : ¬CallKeepsWord s e := by
  rcases hbad with ⟨hhil, herror, hnew⟩
  intro hkeeps
  have hne : e.call.newArmingState ≠ .standbyError := by
    rcases hnew with hnew | hnew <;> simp [hnew]
  have hv : validTransition (e.found s) e.call ≠ true := by
    rw [Ne, valid_of_recovering (s := e.found s) hhil herror hne]
    tauto
  have hsame : e.call.newArmingState ≠ (e.found s).status.armingState := by
    rwa [found_armingState, herror]
  have hanswer : (armingAnswer s e).ret = .denied ∧
      armingStep s e = decided (e.found s) e.call := by
    unfold armingStep armingAnswer armingStateTransition
    rw [if_neg hsame, if_neg hv]
    exact ⟨rfl, rfl⟩
  have hstate := (hkeeps.unchanged (by rw [hanswer.1]; decide)).1
  rw [hanswer.2, decided_armingState, herror, recovered, if_pos ⟨hhil, herror⟩] at hstate
  cases hstate

/-- From the start, all calls of a run keep the word exactly when none of them recovers the state
while it is denied. -/
theorem arming_calls_keep_word (es : List ArmingEvent) :
    AllSteps armingStep CallKeepsWord ArmingContext.initial es ↔
      AllSteps armingStep (fun s e => ¬RecoversDenied s e) ArmingContext.initial es := by
  refine allSteps_iff_of_invariant (J := OnGround) ?_ ?_ OnGround.initial
  · intro s e hs
    constructor
    · intro hkeeps hbad
      exact not_keepsWord_of_recoversDenied hbad hkeeps
    · intro hok
      exact (hs.keepsWord hok).1
  · intro s e hs hok
    exact (hs.keepsWord hok).2

/-- A request from outside with checks that pass. -/
def plainCall (new : ArmingState) : ArmingCall :=
  ⟨new, true, .commandExternal, true, true, true, 0, 0, 0⟩

/-- Standby fails, hardware in the loop is switched on, and an arming is denied: the state is
standby now, but `ready_to_arm` is not set. -/
theorem denied_arming_recovers : ¬∀ es : List ArmingEvent,
    AllSteps armingStep CallKeepsWord ArmingContext.initial es := by
  intro hall
  have hkeeps := hall
    [⟨.off, VehicleStatusFlags.initial, plainCall .standbyError⟩,
      ⟨.on, VehicleStatusFlags.initial, plainCall .armed⟩]
  exact absurd (hkeeps.2.1.agree.readyToArm.2 (.inr (by decide))) (by decide)

end Commander
end DtPhm
