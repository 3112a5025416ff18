import DtPhm.Lib.Run
import DtPhm.Commander.Arming
import DtPhm.Commander.NavState

/-!
# Failsafe — runs of the navigation state machine

What holds over runs of `main_state_transition` and `set_nav_state`, and of the other functions that
set `force_failsafe` and `lockdown`.

* `HasEstimate` — the estimate that a navigation state flies on;
* `Outcome` — what one choice of `set_nav_state` does, for all of its branches;
* `nav_state_has_estimate` — the chosen state has its estimate, or is left alone on purpose;
* `flags_end_with_failsafe` — when the two flags do not outlive the failsafe;
* `outside_flags_kept` — when the two flags stay that another function has set.
-/

namespace DtPhm
namespace Commander

open Lib

/-! ## Estimates and causes -/

/-- A navigation state has the position estimate that it needs. -/
def HasEstimate (f : VehicleStatusFlags) : NavigationState → Prop
  | .autoMission | .autoLoiter | .autoRtl | .autoFollowTarget | .orbit =>
    f.conditionGlobalPositionValid = true
  | .autoTakeoff | .autoLand | .autoPrecland =>
    f.conditionLocalPositionValid = true ∨ f.conditionGlobalPositionValid = true
  | _ => True

instance (f : VehicleStatusFlags) (nav : NavigationState) : Decidable (HasEstimate f nav) := by
  cases nav <;> unfold HasEstimate <;> infer_instance

/-- The main states that need a pilot with sticks. -/
def MainState.NeedsSticks (m : MainState) : Prop :=
  m = .acro ∨ m = .manual ∨ m = .stab ∨ m = .altctl ∨ m = .posctl

instance (m : MainState) : Decidable m.NeedsSticks := by
  unfold MainState.NeedsSticks
  infer_instance

/-- The flight is terminated by configuration. -/
def LossActions.Terminates (a : LossActions) : Prop :=
  a.rcLossAct = .terminate ∨ a.dataLinkLossAct = .terminate ∨ a.offbLossAct = .terminate ∨
    a.offbLossRcAct = .terminate

/-- The actuators are locked by configuration. -/
def LossActions.Locks (a : LossActions) : Prop :=
  a.rcLossAct = .lockdown ∨ a.dataLinkLossAct = .lockdown ∨ a.offbLossAct = .lockdown ∨
    a.offbLossRcAct = .lockdown

instance (a : LossActions) : Decidable a.Terminates := by
  unfold LossActions.Terminates
  infer_instance

instance (a : LossActions) : Decidable a.Locks := by
  unfold LossActions.Locks
  infer_instance

/-- No action is taken on the navigation state. -/
def LinkLossAction.IsPassive (act : LinkLossAction) : Prop := act = .disabled ∨ act = .lockdown

/-- The reaction falls back from one way of holding or landing to the next. -/
def LinkLossAction.FallsBack (act : LinkLossAction) : Prop :=
  act = .autoRtl ∨ act = .autoLoiter ∨ act = .autoLand

/-- No estimate is left. -/
def NoEstimate (f : VehicleStatusFlags) : Prop :=
  f.conditionGlobalPositionValid = false ∧ f.conditionLocalPositionValid = false ∧
    f.conditionLocalAltitudeValid = false

variable (s : NavContext) (c : NavCall) (oldFailsafe : Bool) (a : LossActions)

/-- The reaction to a lost remote control at the end of whose fallbacks the flight is terminated: a
multicopter is flown by sticks and has no estimate left. -/
structure Stranded : Prop where
  sticks : s.internalState.mainState.NeedsSticks
  armed : s.isArmed = true
  rc_lost : s.status.rcSignalLost = true
  rotary : s.isRotaryWing = true
  no_estimate : NoEstimate c.statusFlags
  act : (delayedAction c (failsafeSince s c oldFailsafe) a.rcLossAct
    c.paramComRclActT).FallsBack

/-- The reaction to a lost link is configured to be none, or to lock the actuators. -/
def LeftAlone : Prop :=
  match s.internalState.mainState with
  | .acro | .manual | .stab | .altctl | .posctl =>
    s.status.rcSignalLost = true ∧ a.rcLossAct.IsPassive
  | .autoTakeoff =>
    (dataLinkReacts s c a = true ∧ a.dataLinkLossAct = .lockdown) ∨
      (dataLinkReacts s c a = false ∧
        (rcReacts s c rclExceptHold = true ∨ allLinksReact s c a rclExceptHold = true) ∧
        a.rcLossAct.IsPassive)
  | .offboard =>
    c.statusFlags.offboardControlSignalLost = true ∧
      if s.status.rcSignalLost && !c.excepts rclExceptOffboard then
        a.offbLossAct = .disabled ∨ a.offbLossAct = .lockdown
      else a.offbLossRcAct = .disabled ∨ a.offbLossRcAct = .lockdown
  | _ => False

/-- What a choice does to the navigation state and to the two flags. -/
structure Outcome (t : NavContext) : Prop where
  estimate : s.isArmed = true → HasEstimate c.statusFlags t.status.navState ∨
    (LeftAlone s c a ∧ t.status.navState = s.status.navState)
  flags : t.armed = s.armed ∨
    (t.armed = { s.armed with forceFailsafe := true } ∧ t.status.failsafe = true ∧
      (a.Terminates ∨ Stranded s c oldFailsafe a)) ∨
    (t.armed = { s.armed with lockdown := true } ∧ t.status.failsafe = true ∧ a.Locks)

variable {s c oldFailsafe a} {t u : NavContext}

/-! ## Reactions, one by one -/

theorem hasEstimate_of_global {f : VehicleStatusFlags} (h : f.conditionGlobalPositionValid = true)
    (nav : NavigationState) : HasEstimate f nav := by
  cases nav <;> simp [HasEstimate, h]

/-- The navigation state is chosen, with its estimate. -/
def Moved (s : NavContext) (c : NavCall) (t : NavContext) : Prop :=
  t.armed = s.armed ∧ HasEstimate c.statusFlags t.status.navState

theorem moved_setNav {nav : NavigationState} (h : HasEstimate c.statusFlags nav) :
    Moved s c (s.setNav nav) := ⟨rfl, h⟩

theorem linkLossLand_cases (s : NavContext) (c : NavCall) :
    Moved s c (linkLossLand s c) ∨
      (linkLossLand s c = s.terminate ∧ s.isRotaryWing = true ∧ NoEstimate c.statusFlags) := by
  unfold linkLossLand
  split
  case isTrue hglobal => exact .inl (moved_setNav (hasEstimate_of_global hglobal _))
  case isFalse hglobal =>
    split
    case isFalse => exact .inl (moved_setNav trivial)
    case isTrue hrotary =>
      split
      case isTrue hlocal => exact .inl (moved_setNav (.inl hlocal))
      case isFalse hlocal =>
        split
        case isTrue => exact .inl (moved_setNav trivial)
        case isFalse haltitude => exact .inr ⟨rfl, hrotary, by simp_all [NoEstimate]⟩

theorem linkLossLoiter_cases (s : NavContext) (c : NavCall) :
    Moved s c (linkLossLoiter s c) ∨
      (linkLossLoiter s c = s.terminate ∧ s.isRotaryWing = true ∧ NoEstimate c.statusFlags) := by
  unfold linkLossLoiter
  split
  case isTrue hglobal => exact .inl (moved_setNav hglobal)
  case isFalse => exact linkLossLand_cases s c

theorem linkLossRtl_cases (s : NavContext) (c : NavCall) :
    Moved s c (linkLossRtl s c) ∨
      (linkLossRtl s c = s.terminate ∧ s.isRotaryWing = true ∧ NoEstimate c.statusFlags) := by
  unfold linkLossRtl
  split
  case isTrue hglobal => exact .inl ⟨rfl, (Bool.and_eq_true_iff.1 hglobal).1⟩
  case isFalse => exact linkLossLoiter_cases s c

/-- What `set_link_loss_nav_state` can do, by the action that is taken now. -/
theorem setLinkLossNavState_cases (s : NavContext) (c : NavCall) (act : LinkLossAction)
    (llDelay : ℚ) {now : LinkLossAction}
    (hnow : delayedAction c s.status.failsafeTimestamp act llDelay = now) :
    (now = .disabled ∧ setLinkLossNavState s c act llDelay = s) ∨
      (now = .lockdown ∧ setLinkLossNavState s c act llDelay = s.lock) ∨
      Moved s c (setLinkLossNavState s c act llDelay) ∨
      (setLinkLossNavState s c act llDelay = s.terminate ∧
        (now = .terminate ∨
          (now.FallsBack ∧ s.isRotaryWing = true ∧ NoEstimate c.statusFlags))) := by
  unfold setLinkLossNavState
  rw [hnow]
  cases now with
  | disabled => exact .inl ⟨rfl, rfl⟩
  | lockdown => exact .inr (.inl ⟨rfl, rfl⟩)
  | terminate => exact .inr (.inr (.inr ⟨rfl, .inl rfl⟩))
  | autoRtl =>
      rcases linkLossRtl_cases s c with hmoved | ⟨hterm, hcause⟩
      · exact .inr (.inr (.inl hmoved))
      · exact .inr (.inr (.inr ⟨hterm, .inr ⟨.inl rfl, hcause⟩⟩))
  | autoLoiter =>
      rcases linkLossLoiter_cases s c with hmoved | ⟨hterm, hcause⟩
      · exact .inr (.inr (.inl hmoved))
      · exact .inr (.inr (.inr ⟨hterm, .inr ⟨.inr (.inl rfl), hcause⟩⟩))
  | autoLand =>
      rcases linkLossLand_cases s c with hmoved | ⟨hterm, hcause⟩
      · exact .inr (.inr (.inl hmoved))
      · exact .inr (.inr (.inr ⟨hterm, .inr ⟨.inr (.inr rfl), hcause⟩⟩))

theorem linkLossLand_failsafe (s : NavContext) (c : NavCall) :
    (linkLossLand s c).status.failsafe = s.status.failsafe := by
  unfold linkLossLand
  split <;> try split <;> try split <;> try split
  all_goals rfl

theorem setLinkLossNavState_failsafe (s : NavContext) (c : NavCall) (act : LinkLossAction)
    (llDelay : ℚ) : (setLinkLossNavState s c act llDelay).status.failsafe = s.status.failsafe := by
  have hloiter : (linkLossLoiter s c).status.failsafe = s.status.failsafe := by
    unfold linkLossLoiter
    split
    · rfl
    · exact linkLossLand_failsafe s c
  unfold setLinkLossNavState
  split
  case h_2 =>
    unfold linkLossRtl
    split
    · rfl
    · exact hloiter
  case h_3 => exact hloiter
  case h_4 => exact linkLossLand_failsafe s c
  all_goals rfl

/-- Holding the position is the only action that a delay puts in the place of another. -/
theorem delayedAction_cases (c : NavCall) (since : UInt64) (act : LinkLossAction) (llDelay : ℚ) :
    delayedAction c since act llDelay = act ∨
      delayedAction c since act llDelay = .autoLoiter := by
  unfold delayedAction
  split
  · exact .inr rfl
  · exact .inl rfl

/-! ## Outcomes -/

theorem Outcome.of_moved (h : Moved s c t) : Outcome s c oldFailsafe a t where
  estimate := fun _ => .inl h.2
  flags := .inl h.1

/-- The navigation state is chosen without regard to the flags, and has its estimate if armed. -/
theorem Outcome.of_armed (harmed : t.armed = s.armed)
    (h : s.isArmed = true → HasEstimate c.statusFlags t.status.navState) :
    Outcome s c oldFailsafe a t where
  estimate := fun hs => .inl (h hs)
  flags := .inl harmed

theorem Outcome.of_terminate (harmed : t.armed = { s.armed with forceFailsafe := true })
    (hnav : t.status.navState = .termination) (hfailsafe : t.status.failsafe = true)
    (hcause : a.Terminates ∨ Stranded s c oldFailsafe a) : Outcome s c oldFailsafe a t where
  estimate := fun _ => .inl (hnav ▸ trivial)
  flags := .inr (.inl ⟨harmed, hfailsafe, hcause⟩)

/-- The outcome of a reaction to a lost link.  It starts from `u`, where the failsafe may be enabled
already, and `t` is its result, with the failsafe enabled. -/
theorem Outcome.of_linkLoss {act : LinkLossAction} {llDelay : ℚ}
    (hu : u.armed = s.armed ∧ u.status.navState = s.status.navState ∧
      u.isRotaryWing = s.isRotaryWing)
    (ht : t.armed = (setLinkLossNavState u c act llDelay).armed ∧
      t.status.navState = (setLinkLossNavState u c act llDelay).status.navState)
    (hfailsafe : t.status.failsafe = true)
    (hpassive : act.IsPassive → s.isArmed = true → HasEstimate c.statusFlags s.status.navState ∨
      LeftAlone s c a)
    (hterminate : act = .terminate → a.Terminates) (hlock : act = .lockdown → a.Locks)
    (hstranded : (delayedAction c u.status.failsafeTimestamp act llDelay).FallsBack →
      s.isRotaryWing = true → NoEstimate c.statusFlags → Stranded s c oldFailsafe a) :
    Outcome s c oldFailsafe a t := by
  have hkept : act.IsPassive → t.status.navState = s.status.navState → s.isArmed = true →
      HasEstimate c.statusFlags t.status.navState ∨
        (LeftAlone s c a ∧ t.status.navState = s.status.navState) := by
    intro hact hsame hs
    rw [hsame]
    exact (hpassive hact hs).imp_right fun halone => ⟨halone, rfl⟩
  have hact : ∀ now, now ≠ .autoLoiter →
      delayedAction c u.status.failsafeTimestamp act llDelay = now → act = now := by
    intro now hne hnow
    rcases delayedAction_cases c u.status.failsafeTimestamp act llDelay with hsame | hhold
    · rw [← hsame, hnow]
    · exact absurd (hnow.symm.trans hhold) hne
  rcases setLinkLossNavState_cases u c act llDelay rfl with
    ⟨hnow, hres⟩ | ⟨hnow, hres⟩ | hmoved | ⟨hres, hcause⟩
  · rw [hres] at ht
    have hdisabled := hact _ (by decide) hnow
    exact ⟨hkept (.inl hdisabled) (ht.2.trans hu.2.1), .inl (ht.1.trans hu.1)⟩
  · rw [hres] at ht
    have hlockdown := hact _ (by decide) hnow
    refine ⟨hkept (.inr hlockdown) (ht.2.trans hu.2.1),
      .inr (.inr ⟨?_, hfailsafe, hlock hlockdown⟩)⟩
    rw [ht.1, ← hu.1]
    rfl
  · refine Outcome.of_moved ⟨?_, ?_⟩
    · rw [ht.1, hmoved.1, hu.1]
    · rw [ht.2]
      exact hmoved.2
  · rw [hres] at ht
    refine Outcome.of_terminate ?_ ht.2 hfailsafe ?_
    · rw [ht.1, ← hu.1]
      rfl
    · rcases hcause with hnow | ⟨hback, hrotary, hno⟩
      · exact .inl (hterminate (hact _ (by decide) hnow))
      · exact .inr (hstranded hback (hu.2.2 ▸ hrotary) hno)

theorem Outcome.of_linkLoss_global {u : NavContext} {act : LinkLossAction} {llDelay : ℚ}
    (hu : u.armed = s.armed ∧ u.status.navState = s.status.navState ∧
      u.isRotaryWing = s.isRotaryWing)
    (ht : t.armed = (setLinkLossNavState u c act llDelay).armed ∧
      t.status.navState = (setLinkLossNavState u c act llDelay).status.navState)
    (hfailsafe : t.status.failsafe = true)
    (hglobal : c.statusFlags.conditionGlobalPositionValid = true)
    (hterminate : act = .terminate → a.Terminates) (hlock : act = .lockdown → a.Locks) :
    Outcome s c oldFailsafe a t :=
  .of_linkLoss hu ht hfailsafe (fun _ _ => .inl (hasEstimate_of_global hglobal _)) hterminate hlock
    fun _ _ hno => absurd (hno.1.symm.trans hglobal) (by decide)

/-- The outcome of `reactToLinkLoss`. -/
theorem Outcome.of_react {reason : String} {act : LinkLossAction} {llDelay : ℚ}
    (hpassive : act.IsPassive → s.isArmed = true → HasEstimate c.statusFlags s.status.navState ∨
      LeftAlone s c a)
    (hterminate : act = .terminate → a.Terminates) (hlock : act = .lockdown → a.Locks)
    (hstranded : (delayedAction c (failsafeSince s c oldFailsafe) act llDelay).FallsBack →
      s.isRotaryWing = true → NoEstimate c.statusFlags → Stranded s c oldFailsafe a) :
    Outcome s c oldFailsafe a (reactToLinkLoss s c oldFailsafe reason act llDelay) := by
  refine Outcome.of_linkLoss (u := enableFailsafe s c oldFailsafe reason) ⟨rfl, rfl, rfl⟩
    ⟨rfl, rfl⟩ ?_ hpassive hterminate hlock hstranded
  exact setLinkLossNavState_failsafe _ _ _ _

/-! ## Main states, one by one -/

theorem manualNav_outcome {nav : NavigationState} (hnav : HasEstimate c.statusFlags nav)
    (hmain : s.internalState.mainState.NeedsSticks)
    (halone : s.status.rcSignalLost = true → a.rcLossAct.IsPassive → LeftAlone s c a) :
    Outcome s c oldFailsafe a (manualNav s c oldFailsafe a nav) := by
  unfold manualNav
  split
  case isFalse => exact .of_moved (moved_setNav hnav)
  case isTrue hlost =>
    rcases Bool.and_eq_true_iff.1 hlost with ⟨hrc, harmed⟩
    refine .of_react ?_ (fun h => .inl h) (fun h => .inl h) ?_
    · intro hpassive _
      exact .inr (halone hrc hpassive)
    · intro hback hrotary hno
      exact ⟨hmain, harmed, hrc, hrotary, hno, hback⟩

theorem Outcome.of_react_global {reason : String} {act : LinkLossAction} {llDelay : ℚ}
    (hglobal : c.statusFlags.conditionGlobalPositionValid = true)
    (hterminate : act = .terminate → a.Terminates) (hlock : act = .lockdown → a.Locks) :
    Outcome s c oldFailsafe a (reactToLinkLoss s c oldFailsafe reason act llDelay) :=
  Outcome.of_linkLoss_global (u := enableFailsafe s c oldFailsafe reason) ⟨rfl, rfl, rfl⟩
    ⟨rfl, rfl⟩ (setLinkLossNavState_failsafe _ _ _ _) hglobal hterminate hlock

theorem checkInvalidPosNavState_moved {useRc usingGlobalPos : Bool}
    (h : checkInvalidPosNavState s c oldFailsafe useRc usingGlobalPos = some t) : Moved s c t := by
  unfold checkInvalidPosNavState at h
  split at h
  case isFalse => cases h
  case isTrue =>
    cases h
    refine ⟨rfl, ?_⟩
    change HasEstimate c.statusFlags (if useRc then stickFallback s c else descentFallback s c)
    split
    · unfold stickFallback
      split
      · trivial
      · split <;> trivial
    · unfold descentFallback
      split
      case isTrue hlocal => exact .inl hlocal
      case isFalse =>
        split
        · split <;> trivial
        · trivial

theorem armedPosCheck_moved {usingGlobalPos : Bool}
    (h : armedPosCheck s c oldFailsafe usingGlobalPos = some t) : Moved s c t := by
  unfold armedPosCheck at h
  split at h
  case isTrue => exact checkInvalidPosNavState_moved h
  case isFalse => cases h

/-- What the check of the position has found. -/
def PositionFound (c : NavCall) (usingGlobalPos : Bool) : Prop :=
  if usingGlobalPos then c.statusFlags.conditionGlobalPositionValid = true
  else c.statusFlags.conditionLocalPositionValid = true

theorem PositionFound.not_noEstimate {usingGlobalPos : Bool}
    (h : PositionFound c usingGlobalPos) : ¬NoEstimate c.statusFlags := by
  intro hno
  cases usingGlobalPos with
  | true => exact absurd (hno.1.symm.trans h) (by decide)
  | false => exact absurd (hno.2.1.symm.trans h) (by decide)

theorem position_of_armedPosCheck {usingGlobalPos : Bool}
    (h : armedPosCheck s c oldFailsafe usingGlobalPos = none) (hs : s.isArmed = true) :
    PositionFound c usingGlobalPos := by
  unfold armedPosCheck checkInvalidPosNavState fallbackRequired at h
  unfold PositionFound
  rw [if_pos hs] at h
  cases usingGlobalPos with
  | true => simpa using h
  | false => simp_all

theorem posctlNav_outcome (hmain : s.internalState.mainState = .posctl) :
    Outcome s c oldFailsafe a (posctlNav s c oldFailsafe a) := by
  have hsticks : s.internalState.mainState.NeedsSticks := by
    rw [hmain]
    decide
  unfold posctlNav
  split
  case isTrue hlost =>
    have h : Outcome s c oldFailsafe a (manualNav s c oldFailsafe a .manual) :=
      manualNav_outcome trivial hsticks fun hrc hpassive => by
        unfold LeftAlone
        rw [hmain]
        exact ⟨hrc, hpassive⟩
    unfold manualNav at h
    rwa [if_pos hlost] at h
  case isFalse =>
    split
    case h_1 t hcheck => exact .of_moved (checkInvalidPosNavState_moved hcheck)
    case h_2 => exact .of_moved (moved_setNav trivial)

theorem isArmed_of_dataLinkReacts (h : dataLinkReacts s c a = true) : s.isArmed = true := by
  unfold dataLinkReacts at h
  simp only [Bool.and_eq_true] at h
  exact h.1.2

theorem isArmed_of_rcReacts {bit : UInt32} (h : rcReacts s c bit = true) : s.isArmed = true := by
  unfold rcReacts at h
  simp only [Bool.and_eq_true] at h
  exact h.1.2

theorem isArmed_of_allLinksReact {bit : UInt32} (h : allLinksReact s c a bit = true) :
    s.isArmed = true := by
  unfold allLinksReact at h
  simp only [Bool.and_eq_true] at h
  exact h.1.2

theorem missionNav_outcome : Outcome s c oldFailsafe a (missionNav s c oldFailsafe a) := by
  unfold missionNav
  split
  case h_1 t hcheck => exact .of_moved (armedPosCheck_moved hcheck)
  case h_2 hcheck =>
    have hglobal : s.isArmed = true → c.statusFlags.conditionGlobalPositionValid = true :=
      position_of_armedPosCheck hcheck
    have hplain : ∀ t, t.armed = s.armed → Outcome s c oldFailsafe a t := fun t ht =>
      .of_armed ht fun hs => hasEstimate_of_global (hglobal hs) _
    split
    · exact hplain _ rfl
    split
    · exact hplain _ rfl
    split
    · exact hplain _ rfl
    split
    case isTrue hreacts =>
      exact .of_react_global (hglobal (isArmed_of_dataLinkReacts hreacts))
        (fun h => .inr (.inl h)) (fun h => .inr (.inl h))
    split
    case isTrue hreacts =>
      exact .of_react_global (hglobal (isArmed_of_rcReacts hreacts)) (fun h => .inl h)
        (fun h => .inl h)
    split
    case isTrue hreacts =>
      exact .of_react_global (hglobal (isArmed_of_allLinksReact hreacts)) (fun h => .inl h)
        (fun h => .inl h)
    split
    case isTrue hreacts =>
      -- the return after the mission is not configured
      simp only [Bool.and_eq_true] at hreacts
      exact .of_react_global (hglobal hreacts.1.1.2) (fun h => by cases h) (fun h => by cases h)
    split
    · exact hplain _ rfl
    · exact hplain _ rfl

theorem plainAutoNav_outcome {nav : NavigationState} {usingGlobalPos : Bool}
    (hnav : PositionFound c usingGlobalPos → HasEstimate c.statusFlags nav) :
    Outcome s c oldFailsafe a (plainAutoNav s c oldFailsafe nav usingGlobalPos) := by
  unfold plainAutoNav
  split
  case isTrue => exact .of_moved (moved_setNav trivial)
  case isFalse =>
    split
    case h_1 t hcheck => exact .of_moved (armedPosCheck_moved hcheck)
    case h_2 hcheck =>
      exact .of_armed rfl fun hs => hnav (position_of_armedPosCheck hcheck hs)

theorem orbitNav_outcome : Outcome s c oldFailsafe a (orbitNav s c oldFailsafe a) := by
  unfold orbitNav
  split
  case isTrue => exact .of_moved ⟨rfl, trivial⟩
  case isFalse =>
    split
    case h_1 t hcheck =>
      have hmoved := armedPosCheck_moved hcheck
      exact .of_moved ⟨hmoved.1, hmoved.2⟩
    case h_2 hcheck =>
      have hglobal : s.isArmed = true → c.statusFlags.conditionGlobalPositionValid = true :=
        position_of_armedPosCheck hcheck
      split
      case isTrue hreacts =>
        exact .of_linkLoss_global ⟨rfl, rfl, rfl⟩ ⟨rfl, rfl⟩ rfl
          (hglobal (isArmed_of_dataLinkReacts hreacts))
          (fun h => .inr (.inl h)) (fun h => .inr (.inl h))
      case isFalse =>
        split
        case isTrue hreacts =>
          simp only [Bool.and_eq_true] at hreacts
          exact .of_linkLoss_global
            (u := enableFailsafe s c oldFailsafe "No manual control stick input") ⟨rfl, rfl, rfl⟩
            ⟨rfl, rfl⟩ (setLinkLossNavState_failsafe _ _ _ _) (hglobal hreacts.2)
            (fun h => .inl h) (fun h => .inl h)
        case isFalse => exact .of_armed rfl fun hs => hglobal hs

/-- `hpassive` says what becomes of a navigation state that a passive reaction leaves as it is. -/
theorem holdNav_outcome {nav : NavigationState} {usingGlobalPos : Bool}
    (hnav : PositionFound c usingGlobalPos → HasEstimate c.statusFlags nav)
    (hpassive : PositionFound c usingGlobalPos →
      (dataLinkReacts s c a = true ∧ a.dataLinkLossAct = .lockdown) ∨
        (dataLinkReacts s c a = false ∧
          (rcReacts s c rclExceptHold = true ∨ allLinksReact s c a rclExceptHold = true) ∧
          a.rcLossAct.IsPassive) →
      HasEstimate c.statusFlags s.status.navState ∨ LeftAlone s c a) :
    Outcome s c oldFailsafe a (holdNav s c oldFailsafe a nav usingGlobalPos) := by
  unfold holdNav
  split
  case isTrue => exact .of_moved (moved_setNav trivial)
  case isFalse =>
    split
    case h_1 t hcheck => exact .of_moved (armedPosCheck_moved hcheck)
    case h_2 hcheck =>
      have hfound : s.isArmed = true → PositionFound c usingGlobalPos :=
        position_of_armedPosCheck hcheck
      split
      case isTrue hreacts =>
        have hhere := hfound (isArmed_of_dataLinkReacts hreacts)
        refine .of_react ?_ (fun h => .inr (.inl h)) (fun h => .inr (.inl h))
          fun _ _ hno => absurd hno hhere.not_noEstimate
        rintro (hdisabled | hlockdown) _
        · -- a disabled reaction is not a configured one
          unfold dataLinkReacts LossActions.dataLinkLossActConfigured at hreacts
          simp [hdisabled] at hreacts
        · exact hpassive hhere (.inl ⟨hreacts, hlockdown⟩)
      case isFalse hdata =>
        have hno := Bool.eq_false_iff.2 hdata
        split
        case isTrue hreacts =>
          have hhere := hfound (isArmed_of_rcReacts hreacts)
          exact .of_react (fun hact _ => hpassive hhere (.inr ⟨hno, .inl hreacts, hact⟩))
            (fun h => .inl h) (fun h => .inl h)
            fun _ _ hnone => absurd hnone hhere.not_noEstimate
        split
        case isTrue hreacts =>
          have hhere := hfound (isArmed_of_allLinksReact hreacts)
          exact .of_react (fun hact _ => hpassive hhere (.inr ⟨hno, .inr hreacts, hact⟩))
            (fun h => .inl h) (fun h => .inl h)
            fun _ _ hnone => absurd hnone hhere.not_noEstimate
        case isFalse => exact .of_armed rfl fun hs => hnav (hfound hs)

/-! ## Offboard -/

theorem offboardLand_moved (s : NavContext) (c : NavCall) : Moved s c (offboardLand s c) := by
  unfold offboardLand offboardMitigate
  split
  case isTrue hglobal => exact moved_setNav (.inr hglobal)
  case isFalse =>
    split
    · split <;> exact moved_setNav trivial
    · exact moved_setNav trivial

theorem offboardLoiter_moved (s : NavContext) (c : NavCall) : Moved s c (offboardLoiter s c) := by
  unfold offboardLoiter
  split
  case isTrue hglobal => exact moved_setNav hglobal
  case isFalse => exact offboardLand_moved s c

theorem offboardRtl_moved (s : NavContext) (c : NavCall) : Moved s c (offboardRtl s c) := by
  unfold offboardRtl
  split
  case isTrue hglobal => exact moved_setNav (Bool.and_eq_true_iff.1 hglobal).1
  case isFalse => exact offboardLoiter_moved s c

theorem offboardAltitude_moved (s : NavContext) (c : NavCall) :
    Moved s c (offboardAltitude s c) := by
  unfold offboardAltitude
  split <;> exact moved_setNav trivial

theorem offboardPosition_moved (s : NavContext) (c : NavCall) :
    Moved s c (offboardPosition s c) := by
  unfold offboardPosition
  split
  · exact moved_setNav trivial
  split
  · exact moved_setNav trivial
  · exact offboardAltitude_moved s c

theorem offboardNav_outcome (hmain : s.internalState.mainState = .offboard) :
    Outcome s c oldFailsafe a (offboardNav s c oldFailsafe a) := by
  unfold offboardNav
  split
  case isFalse => exact .of_moved (moved_setNav trivial)
  case isTrue hlost =>
    split
    case isTrue hrc =>
      have halone : a.offbLossAct = .disabled ∨ a.offbLossAct = .lockdown → LeftAlone s c a := by
        intro hact
        unfold LeftAlone
        rw [hmain]
        exact ⟨hlost, by rwa [if_pos hrc]⟩
      cases hact : a.offbLossAct with
      | disabled => exact ⟨fun _ => .inr ⟨halone (.inl hact), rfl⟩, .inl rfl⟩
      | lockdown =>
          exact ⟨fun _ => .inr ⟨halone (.inr hact), rfl⟩,
            .inr (.inr ⟨rfl, rfl, .inr (.inr (.inl hact))⟩)⟩
      | terminate => exact .of_terminate rfl rfl rfl (.inl (.inr (.inr (.inl hact))))
      | autoRtl => exact .of_moved (offboardRtl_moved _ c)
      | autoLoiter => exact .of_moved (offboardLoiter_moved _ c)
      | autoLand => exact .of_moved (offboardLand_moved _ c)
    case isFalse hrc =>
      have halone : a.offbLossRcAct = .disabled ∨ a.offbLossRcAct = .lockdown →
          LeftAlone s c a := by
        intro hact
        unfold LeftAlone
        rw [hmain]
        exact ⟨hlost, by rwa [if_neg hrc]⟩
      cases hact : a.offbLossRcAct with
      | disabled => exact ⟨fun _ => .inr ⟨halone (.inl hact), rfl⟩, .inl rfl⟩
      | lockdown =>
          exact ⟨fun _ => .inr ⟨halone (.inr hact), rfl⟩,
            .inr (.inr ⟨rfl, rfl, .inr (.inr (.inr hact))⟩)⟩
      | terminate => exact .of_terminate rfl rfl rfl (.inl (.inr (.inr (.inr hact))))
      | manualPosition => exact .of_moved (offboardPosition_moved _ c)
      | manualAltitude => exact .of_moved (offboardAltitude_moved _ c)
      | manualAttitude => exact .of_moved ⟨rfl, trivial⟩
      | autoRtl => exact .of_moved (offboardRtl_moved _ c)
      | autoLoiter => exact .of_moved (offboardLoiter_moved _ c)
      | autoLand => exact .of_moved (offboardLand_moved _ c)

/-! ## The whole choice -/

/-- What `set_nav_state` does after the flags have been reset. -/
theorem chooseNavState_outcome (s : NavContext) (c : NavCall) (oldFailsafe : Bool)
    (a : LossActions) : Outcome s c oldFailsafe a (chooseNavState s c oldFailsafe a) := by
  have hsticks : ∀ m, s.internalState.mainState = m → m.NeedsSticks →
      s.internalState.mainState.NeedsSticks := fun m hm h => hm ▸ h
  unfold chooseNavState
  cases hmain : s.internalState.mainState with
  | acro =>
      exact manualNav_outcome trivial (hsticks _ hmain (by decide)) fun hrc hact => by
        unfold LeftAlone; rw [hmain]; exact ⟨hrc, hact⟩
  | manual =>
      exact manualNav_outcome trivial (hsticks _ hmain (by decide)) fun hrc hact => by
        unfold LeftAlone; rw [hmain]; exact ⟨hrc, hact⟩
  | stab =>
      exact manualNav_outcome trivial (hsticks _ hmain (by decide)) fun hrc hact => by
        unfold LeftAlone; rw [hmain]; exact ⟨hrc, hact⟩
  | altctl =>
      exact manualNav_outcome trivial (hsticks _ hmain (by decide)) fun hrc hact => by
        unfold LeftAlone; rw [hmain]; exact ⟨hrc, hact⟩
  | posctl => exact posctlNav_outcome hmain
  | autoMission => exact missionNav_outcome
  | autoLoiter =>
      exact holdNav_outcome id fun hfound _ => .inl (hasEstimate_of_global hfound _)
  | autoRtl => exact plainAutoNav_outcome id
  | autoFollowTarget => exact plainAutoNav_outcome id
  | orbit => exact orbitNav_outcome
  | autoTakeoff =>
      refine holdNav_outcome (fun hfound => .inl hfound) fun _ hpassive => .inr ?_
      unfold LeftAlone
      rw [hmain]
      exact hpassive
  | autoLand => exact plainAutoNav_outcome fun hfound => .inl hfound
  | autoPrecland => exact plainAutoNav_outcome fun hfound => .inl hfound
  | offboard => exact offboardNav_outcome hmain

theorem resetLinkLossGlobals_flags (old : Bool) (armed : ActuatorArmed) (act : LinkLossAction) :
    ((resetLinkLossGlobals old armed act).forceFailsafe = true ↔
        armed.forceFailsafe = true ∧ ¬(old = true ∧ act = .terminate)) ∧
      ((resetLinkLossGlobals old armed act).lockdown = true ↔
        armed.lockdown = true ∧ ¬(old = true ∧ act = .lockdown)) := by
  cases old <;> cases act <;> simp [resetLinkLossGlobals]

theorem resetOffboardLossGlobals_flags (old : Bool) (armed : ActuatorArmed)
    (act : OffboardLossAction) (rcAct : OffboardLossRcAction) :
    ((resetOffboardLossGlobals old armed act rcAct).forceFailsafe = true ↔
        armed.forceFailsafe = true ∧ ¬(old = true ∧ (act = .terminate ∨ rcAct = .terminate))) ∧
      ((resetOffboardLossGlobals old armed act rcAct).lockdown = true ↔
        armed.lockdown = true ∧ ¬(old = true ∧ (act = .lockdown ∨ rcAct = .lockdown))) := by
  cases old with
  | false => simp [resetOffboardLossGlobals]
  | true =>
      simp only [resetOffboardLossGlobals, if_true, true_and]
      constructor
      · split <;> simp_all
      · split <;> simp_all

/-- The reset clears a flag exactly when the failsafe was on and an action is configured for it. -/
theorem resetFlags_flags (s : NavContext) (a : LossActions) :
    ((resetFlags s a).armed.forceFailsafe = true ↔
        s.armed.forceFailsafe = true ∧ ¬(s.status.failsafe = true ∧ a.Terminates)) ∧
      ((resetFlags s a).armed.lockdown = true ↔
        s.armed.lockdown = true ∧ ¬(s.status.failsafe = true ∧ a.Locks)) := by
  unfold resetFlags LossActions.Terminates LossActions.Locks
  dsimp only
  rw [(resetOffboardLossGlobals_flags _ _ _ _).1, (resetOffboardLossGlobals_flags _ _ _ _).2,
    (resetLinkLossGlobals_flags _ _ _).1, (resetLinkLossGlobals_flags _ _ _).2,
    (resetLinkLossGlobals_flags _ _ _).1, (resetLinkLossGlobals_flags _ _ _).2]
  constructor <;> tauto

/-! ## Runs -/

/-- What a call finds: the fields of the status that it does not write are arbitrary. -/
def NavContext.found (s : NavContext) (seen : VehicleStatus) : NavContext :=
  { s with status := { seen with
      navState := s.status.navState
      failsafe := s.status.failsafe
      failsafeTimestamp := s.status.failsafeTimestamp } }

/-- The calls of the navigation state machine. -/
inductive NavEvent
  | mainStateTransition (seen : VehicleStatus) (newMainState : Option MainState)
      (f : VehicleStatusFlags) (now : UInt64)
  | setNavState (seen : VehicleStatus) (c : NavCall)

def navStep (a : LossActions) (s : NavContext) : NavEvent → NavContext
  | .mainStateTransition seen newMainState f now =>
    { s with internalState :=
        (mainStateTransition (s.found seen).status newMainState f s.internalState now).1 }
  | .setNavState seen c => (setNavState (s.found seen) c a).1

/-- The context at startup. -/
def NavContext.initial : NavContext :=
  ⟨VehicleStatus.initial, ActuatorArmed.initial, CommanderState.initial, []⟩

/-! ## Estimates -/

/-- A call of a run with its own configuration. -/
abbrev ConfiguredEvent := LossActions × NavEvent

def configuredStep (s : NavContext) (e : ConfiguredEvent) : NavContext := navStep e.1 s e.2

/-- A choice made while armed has its estimate, or is excused. -/
def ChoiceHasEstimate (excused : NavContext → ConfiguredEvent → Prop) (s : NavContext)
    (e : ConfiguredEvent) : Prop :=
  match e.2 with
  | .mainStateTransition _ _ _ _ => True
  | .setNavState seen c =>
    seen.armingState = .armed →
      HasEstimate c.statusFlags (configuredStep s e).status.navState ∨ excused s e

/-- A choice leaves the navigation state as it was, because the reaction to a lost link is
configured to do so. -/
def ChoiceLeftAlone (s : NavContext) (e : ConfiguredEvent) : Prop :=
  match e.2 with
  | .mainStateTransition _ _ _ _ => False
  | .setNavState seen c =>
    LeftAlone (s.found seen) c e.1 ∧ (configuredStep s e).status.navState = s.status.navState

/-- In every run of requests and choices, with any configuration for each of them, the choices made
while armed have their estimate, unless the configured reaction leaves the state alone. -/
theorem nav_state_has_estimate (es : List ConfiguredEvent) :
    AllSteps configuredStep (ChoiceHasEstimate ChoiceLeftAlone) NavContext.initial es := by
  have hstep : ∀ s e, True → ChoiceHasEstimate ChoiceLeftAlone s e := by
    rintro s ⟨a, e⟩ _
    cases e with
    | mainStateTransition seen m f now => trivial
    | setNavState seen c =>
        intro harmed
        have hout := chooseNavState_outcome (resetFlags (s.found seen) a) c s.status.failsafe a
        exact hout.estimate (beq_iff_eq.2 harmed)
  exact (allSteps_congr (fun s e => ⟨fun _ => trivial, hstep s e⟩) _ _).2 (allSteps_true es)

/-- Flags of a vehicle that knows where it is, or not. -/
def located (known : Bool) : VehicleStatusFlags :=
  { VehicleStatusFlags.initial with
    conditionLocalAltitudeValid := known
    conditionLocalPositionValid := known
    conditionGlobalPositionValid := known }

/-- An armed vehicle, with or without its remote control. -/
def flying (rcSignalLost : Bool) : VehicleStatus :=
  { VehicleStatus.initial with
    armingState := .armed
    vehicleType := .rotaryWing
    rcSignalLost := rcSignalLost }

/-- A call without any special arguments, at one time. -/
def callAt (now : UInt64) (f : VehicleStatusFlags) : NavCall where
  statusFlags := f
  missionFinished := false
  stayInFailsafe := false
  landed := false
  posctlNavLossAct := .altitudeManual
  paramComRclActT := 0
  paramComRclExcept := 0
  elapsedAt := now
  failsafeAt := now
  reactAt := now
  mainStateAt := now

/-- After a loiter the vehicle is flown by sticks; the remote control and the position are lost, and
no reaction to that is configured. -/
theorem loiter_without_position : ¬∀ es : List ConfiguredEvent,
    AllSteps configuredStep (ChoiceHasEstimate fun _ _ => False) NavContext.initial es := by
  intro hall
  have hrun := hall
    ([.mainStateTransition (flying false) (some .autoLoiter) (located true) 1,
      .setNavState (flying false) (callAt 2 (located true)),
      .mainStateTransition (flying false) (some .manual) (located true) 3,
      .setNavState (flying true) (callAt 4 (located false))].map
        fun e => (⟨.disabled, .disabled, .disabled, .disabled⟩, e))
  have hlast := hrun.2.2.2.1 rfl
  rcases hlast with hestimate | hno
  · exact absurd hestimate (by decide +kernel)
  · exact hno

/-! ## Flags and the failsafe -/

/-- A call terminates the flight at the end of its fallbacks, and termination is not configured. -/
def StrandsVehicle (a : LossActions) (s : NavContext) : NavEvent → Prop
  | .mainStateTransition _ _ _ _ => False
  | .setNavState seen c => ¬a.Terminates ∧ Stranded (s.found seen) c s.status.failsafe a

/-- A flag is set only while the failsafe is on, by an action that is configured. -/
structure FlagsCovered (a : LossActions) (s : NavContext) : Prop where
  force : s.armed.forceFailsafe = true → s.status.failsafe = true ∧ a.Terminates
  lock : s.armed.lockdown = true → s.status.failsafe = true ∧ a.Locks

theorem Stranded.of_resetFlags (h : Stranded (resetFlags s a) c oldFailsafe a) :
    Stranded s c oldFailsafe a where
  sticks := h.sticks
  armed := h.armed
  rc_lost := h.rc_lost
  rotary := h.rotary
  no_estimate := h.no_estimate
  act := h.act

theorem FlagsCovered.resetFlags (h : FlagsCovered a s) :
    (resetFlags s a).armed.forceFailsafe = false ∧ (resetFlags s a).armed.lockdown = false := by
  constructor
  · rw [Bool.eq_false_iff, Ne, (resetFlags_flags s a).1]
    rintro ⟨hforce, hno⟩
    exact hno (h.force hforce)
  · rw [Bool.eq_false_iff, Ne, (resetFlags_flags s a).2]
    rintro ⟨hlock, hno⟩
    exact hno (h.lock hlock)

theorem FlagsCovered.setNavState (h : FlagsCovered a s)
    (hok : a.Terminates ∨ ¬Stranded s c s.status.failsafe a) :
    FlagsCovered a (setNavState s c a).1 := by
  rcases h.resetFlags with ⟨hforce, hlock⟩
  rcases (chooseNavState_outcome (Commander.resetFlags s a) c s.status.failsafe a).flags with
    hsame | ⟨hterm, hfailsafe, hcause⟩ | ⟨hlocked, hfailsafe, hcause⟩
  · have hsame' : (Commander.setNavState s c a).1.armed = (Commander.resetFlags s a).armed := hsame
    refine ⟨?_, ?_⟩
    · rw [hsame', hforce]
      exact fun hno => absurd hno (by decide)
    · rw [hsame', hlock]
      exact fun hno => absurd hno (by decide)
  · refine ⟨fun _ => ⟨hfailsafe, ?_⟩, ?_⟩
    · rcases hcause with hterminates | hstranded
      · exact hterminates
      · exact hok.resolve_right fun hno => hno hstranded.of_resetFlags
    · have hterm' : (Commander.setNavState s c a).1.armed =
          { (Commander.resetFlags s a).armed with forceFailsafe := true } := hterm
      rw [hterm', hlock]
      exact fun hno => absurd hno (by decide)
  · refine ⟨?_, fun _ => ⟨hfailsafe, hcause⟩⟩
    have hlocked' : (Commander.setNavState s c a).1.armed =
        { (Commander.resetFlags s a).armed with lockdown := true } := hlocked
    rw [hlocked', hforce]
    exact fun hno => absurd hno (by decide)

/-- From flags that are not set, the two flags do not outlive the failsafe in a run without a call
that terminates the flight at the end of its fallbacks. -/
theorem flags_end_with_failsafe (a : LossActions) (s : NavContext)
    (hforce : s.armed.forceFailsafe = false) (hlock : s.armed.lockdown = false)
    (es : List NavEvent)
    (hok : AllSteps (navStep a) (fun t e => ¬StrandsVehicle a t e) s es) :
    ∀ t ∈ visited (navStep a) s es, t.status.failsafe = false →
      t.armed.forceFailsafe = false ∧ t.armed.lockdown = false := by
  have hstart : FlagsCovered a s :=
    ⟨fun h => absurd (hforce.symm.trans h) (by decide),
      fun h => absurd (hlock.symm.trans h) (by decide)⟩
  have hcovered : ∀ t ∈ visited (navStep a) s es, FlagsCovered a t := by
    refine invariant_of_allSteps ?_ hstart hok
    intro t e ht he
    cases e with
    | mainStateTransition seen m f now => exact ⟨ht.force, ht.lock⟩
    | setNavState seen c =>
        have hfound : FlagsCovered a (t.found seen) := ⟨ht.force, ht.lock⟩
        refine hfound.setNavState ?_
        by_cases hterminates : a.Terminates
        · exact .inl hterminates
        · exact .inr fun hstranded => he ⟨hterminates, hstranded⟩
  intro t ht hfailsafe
  constructor
  · rw [Bool.eq_false_iff]
    intro hset
    exact absurd (hfailsafe.symm.trans ((hcovered t ht).force hset).1) (by decide)
  · rw [Bool.eq_false_iff]
    intro hset
    exact absurd (hfailsafe.symm.trans ((hcovered t ht).lock hset).1) (by decide)

/-- The remote control is lost where the position is known, and comes back. -/
theorem flags_end_after_return :
    let a : LossActions := ⟨.disabled, .autoRtl, .disabled, .disabled⟩
    let es : List NavEvent :=
      [.setNavState (flying true) (callAt 1 (located true)),
        .setNavState (flying false) (callAt 2 (located true))]
    let t := exec (navStep a) NavContext.initial es
    t.status.failsafe = false ∧ t.armed.forceFailsafe = false ∧ t.armed.lockdown = false := by
  intro a es t
  have hfailsafe : t.status.failsafe = false := by decide +kernel
  refine ⟨hfailsafe, flags_end_with_failsafe a NavContext.initial rfl rfl es ?_ t
    (exec_mem_visited _ _ _) hfailsafe⟩
  exact ⟨fun h => absurd h.2.no_estimate.1 (by decide),
    fun h => absurd h.2.no_estimate.1 (by decide), trivial⟩

/-- The remote control is lost where no estimate is left, and comes back: the flight stays
terminated. -/
theorem termination_outlives_failsafe : ¬∀ (a : LossActions) (s : NavContext),
    s.armed.forceFailsafe = false → s.armed.lockdown = false → ∀ es : List NavEvent,
    ∀ t ∈ visited (navStep a) s es, t.status.failsafe = false →
      t.armed.forceFailsafe = false ∧ t.armed.lockdown = false := by
  intro hall
  have hlast := hall ⟨.disabled, .autoLoiter, .disabled, .disabled⟩ NavContext.initial rfl rfl
    [.setNavState (flying true) (callAt 1 (located false)),
      .setNavState (flying false) (callAt 2 (located false))] _ (exec_mem_visited _ _ _)
  exact absurd (hlast (by decide +kernel)).1 (by decide +kernel)

/-! ## Flags set by others -/

/-- Calls of the navigation state machine, and of the functions that set the flags as well: a flight
termination, and an arming transition with hardware in the loop. -/
inductive FailsafeEvent
  | nav (e : NavEvent)
  | terminateFlight
  | armingStateTransition (seen : VehicleStatus) (f : VehicleStatusFlags)
      (lastPreflightCheck : UInt64) (c : ArmingCall)

/-- What an arming transition finds. -/
def NavContext.arming (s : NavContext) (seen : VehicleStatus) (f : VehicleStatusFlags)
    (lastPreflightCheck : UInt64) : ArmingContext :=
  ⟨(s.found seen).status, s.armed, f, lastPreflightCheck⟩

def failsafeStep (a : LossActions) (s : NavContext) : FailsafeEvent → NavContext
  | .nav e => navStep a s e
  | .terminateFlight => { s with armed := { s.armed with forceFailsafe := true } }
  | .armingStateTransition seen f last c =>
    let t := (armingStateTransition (s.arming seen f last) c).context
    { s with status := t.status, armed := t.armed }

/-- The flags that were set by others. -/
structure SetOutside where
  force : Bool
  lock : Bool
deriving DecidableEq, Repr

def SetOutside.record (_ : NavContext) (e : FailsafeEvent) (h : SetOutside) : SetOutside :=
  match e with
  | .nav _ => h
  | .terminateFlight => { h with force := true }
  | .armingStateTransition seen _ _ c =>
    { h with lock := h.lock || (seen.hilState == .on && c.newArmingState != seen.armingState) }

/-- A flag that was set by others is set. -/
structure OutsideKept (p : NavContext × SetOutside) : Prop where
  force : p.2.force = true → p.1.armed.forceFailsafe = true
  lock : p.2.lock = true → p.1.armed.lockdown = true

/-- A call resets a flag after a failsafe that others have set. -/
def ResetsOutside (a : LossActions) (p : NavContext × SetOutside) : FailsafeEvent → Prop
  | .nav (.setNavState _ _) =>
    p.1.status.failsafe = true ∧
      ((p.2.force = true ∧ a.Terminates) ∨ (p.2.lock = true ∧ a.Locks))
  | _ => False

theorem setNavState_keeps (s : NavContext) (c : NavCall) (a : LossActions) :
    ((resetFlags s a).armed.forceFailsafe = true →
        (setNavState s c a).1.armed.forceFailsafe = true) ∧
      ((resetFlags s a).armed.lockdown = true → (setNavState s c a).1.armed.lockdown = true) := by
  have hout := (chooseNavState_outcome (resetFlags s a) c s.status.failsafe a).flags
  change _ ∨ _ ∨ _ at hout
  have harmed : (setNavState s c a).1.armed =
      (chooseNavState (resetFlags s a) c s.status.failsafe a).armed := rfl
  rw [harmed]
  rcases hout with hsame | ⟨hterm, -, -⟩ | ⟨hlocked, -, -⟩
  · rw [hsame]
    exact ⟨id, id⟩
  · rw [hterm]
    exact ⟨fun _ => rfl, id⟩
  · rw [hlocked]
    exact ⟨id, fun _ => rfl⟩

theorem OutsideKept.step {a : LossActions} {p : NavContext × SetOutside} {e : FailsafeEvent}
    (h : OutsideKept p) (hok : ¬ResetsOutside a p e) :
    OutsideKept (historyStep (failsafeStep a) SetOutside.record p e) := by
  rcases p with ⟨s, o⟩
  cases e with
  | nav e =>
      cases e with
      | mainStateTransition seen m f now => exact ⟨h.force, h.lock⟩
      | setNavState seen c =>
          have hkeeps := setNavState_keeps (s.found seen) c a
          have hflags := resetFlags_flags (s.found seen) a
          refine ⟨fun hset => hkeeps.1 (hflags.1.2 ⟨h.force hset, ?_⟩),
            fun hset => hkeeps.2 (hflags.2.2 ⟨h.lock hset, ?_⟩)⟩
          · rintro ⟨hfailsafe, hterminates⟩
            exact hok ⟨hfailsafe, .inl ⟨hset, hterminates⟩⟩
          · rintro ⟨hfailsafe, hlocks⟩
            exact hok ⟨hfailsafe, .inr ⟨hset, hlocks⟩⟩
  | terminateFlight => exact ⟨fun _ => rfl, h.lock⟩
  | armingStateTransition seen f last c =>
      rcases armingStateTransition_armed (s := s.arming seen f last) (c := c) with
        ⟨hforce, hlock⟩
      refine ⟨fun hset => hforce.trans (h.force hset), fun hset => hlock.trans ?_⟩
      -- the lockdown was set before, or is set by this call
      have hset' : (o.lock ||
          (seen.hilState == .on && c.newArmingState != seen.armingState)) = true := hset
      rcases Bool.or_eq_true_iff.1 hset' with hbefore | hnow
      · exact Bool.or_eq_true_iff.2 (.inl (h.lock hbefore))
      · exact Bool.or_eq_true_iff.2 (.inr hnow)

/-- In a run in which no call resets a flag that others have set, these flags stay set. -/
theorem outside_flags_kept (a : LossActions) (s : NavContext) (es : List FailsafeEvent)
    (hok : AllSteps (historyStep (failsafeStep a) SetOutside.record)
      (fun p e => ¬ResetsOutside a p e) (s, ⟨false, false⟩) es) :
    ∀ p ∈ visited (historyStep (failsafeStep a) SetOutside.record) (s, ⟨false, false⟩) es,
      OutsideKept p :=
  invariant_of_allSteps (fun _ _ h he => h.step he)
    ⟨fun h => (nomatch h), fun h => (nomatch h)⟩ hok

/-- The geofence terminates a flight without a configured termination. -/
theorem geofence_termination_kept :
    let a : LossActions := ⟨.autoRtl, .autoLoiter, .disabled, .disabled⟩
    let es : List FailsafeEvent :=
      [.nav (.setNavState (flying true) (callAt 1 (located true))), .terminateFlight,
        .nav (.setNavState (flying true) (callAt 2 (located true)))]
    OutsideKept (exec (historyStep (failsafeStep a) SetOutside.record)
      (NavContext.initial, ⟨false, false⟩) es) := by
  intro a es
  refine outside_flags_kept a NavContext.initial es ?_ _ (exec_mem_visited _ _ _)
  exact ⟨fun h => absurd h.1 (by decide), id,
    fun h => h.2.elim (fun hno => absurd hno.2 (by decide)) fun hno => absurd hno.1 (by decide),
    trivial⟩

/-- The remote control is lost and the vehicle loiters; the geofence terminates the flight.  The
next call takes that back, because termination is configured for the data link. -/
theorem geofence_termination_undone : ¬∀ (a : LossActions) (s : NavContext)
    (es : List FailsafeEvent),
    ∀ p ∈ visited (historyStep (failsafeStep a) SetOutside.record) (s, ⟨false, false⟩) es,
      OutsideKept p := by
  intro hall
  have hlast := hall ⟨.terminate, .autoLoiter, .disabled, .disabled⟩ NavContext.initial
    [.nav (.setNavState (flying true) (callAt 1 (located true))), .terminateFlight,
      .nav (.setNavState (flying true) (callAt 2 (located true)))] _ (exec_mem_visited _ _ _)
  exact absurd (hlast.force rfl) (by decide +kernel)

end Commander
end DtPhm
