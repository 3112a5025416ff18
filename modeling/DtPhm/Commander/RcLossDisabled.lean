import DtPhm.Commander.NavState

/-!
# RcLossDisabled — a lost remote control without a configured reaction

Two calls of `set_nav_state` are compared, from the same state with the remote control lost and with
the remote control present, where no reaction to its loss is configured and the data link is there.

* `NavContext.withRc` — the same state with the remote control present;
* `rcLossReached`, `offboardAndRcLost` — where the loss makes a difference;
* `SameChoice`, `Spared` — how the two results compare;
* `disabled_rc_loss` — the comparison for all states.

No action means that the navigation state is left alone.  It stays what it was before, which need
not be what the main state asks for.
-/

namespace DtPhm
namespace Commander

/-- The same state with the remote control present. -/
def NavContext.withRc (s : NavContext) : NavContext :=
  { s with status := { s.status with rcSignalLost := false } }

/-- There is nothing else to react to, in a state that holds a position. -/
def holdClear (s : NavContext) (c : NavCall) (usingGlobalPos : Bool) : Bool :=
  !s.status.engineFailure && !(s.isArmed && fallbackRequired c usingGlobalPos)

/-- There is nothing else to react to, in a mission. -/
def missionClear (s : NavContext) (c : NavCall) : Bool :=
  holdClear s c true && !c.statusFlags.vtolTransitionFailure && !s.status.missionFailure

/-- The reaction to a lost remote control is reached. -/
def rcLossReached (s : NavContext) (c : NavCall) : Bool :=
  match s.internalState.mainState with
  | .acro | .manual | .stab | .altctl | .posctl => s.status.rcSignalLost && s.isArmed
  | .autoMission => missionClear s c && rcReacts s c rclExceptMission
  | .autoLoiter => holdClear s c true && rcReacts s c rclExceptHold
  | .autoTakeoff => holdClear s c false && rcReacts s c rclExceptHold
  | _ => false

/-- Without an offboard link, the remote control decides which reaction to that is taken. -/
def offboardAndRcLost (s : NavContext) (c : NavCall) : Bool :=
  s.internalState.mainState == .offboard && c.statusFlags.offboardControlSignalLost &&
    s.status.rcSignalLost && !c.excepts rclExceptOffboard

/-- Nothing is done but to choose a navigation state. -/
structure SameFlags (t u : NavContext) : Prop where
  armed : t.armed = u.armed
  internalState : t.internalState = u.internalState

/-- The same navigation state is chosen, too. -/
structure SameChoice (t u : NavContext) : Prop extends SameFlags t u where
  nav : t.status.navState = u.status.navState

/-- The navigation state is left alone, and the other choice sets no flag. -/
structure Spared (s t u : NavContext) : Prop extends SameFlags t u where
  nav : t.status.navState = s.status.navState

/-- How the results `t` and `u` with and without the loss compare. -/
def Compares (reached : Bool) (s t u : NavContext) : Prop :=
  if reached then Spared s t u else SameChoice t u

variable {s : NavContext} {c : NavCall} {old : Bool} {a : LossActions}

/-! ## What does not read the remote control -/

theorem sameChoice_withRc (t : NavContext) : SameChoice t t.withRc := ⟨⟨rfl, rfl⟩, rfl⟩

theorem compares_withRc (s t : NavContext) : Compares false s t t.withRc := sameChoice_withRc t

theorem checkInvalidPosNavState_withRc (s : NavContext) (useRc usingGlobalPos : Bool) :
    checkInvalidPosNavState s.withRc c old useRc usingGlobalPos =
      (checkInvalidPosNavState s c old useRc usingGlobalPos).map NavContext.withRc := by
  unfold checkInvalidPosNavState
  split
  · rfl
  · rfl

theorem armedPosCheck_withRc (s : NavContext) (usingGlobalPos : Bool) :
    armedPosCheck s.withRc c old usingGlobalPos =
      (armedPosCheck s c old usingGlobalPos).map NavContext.withRc := by
  have harmed : s.withRc.isArmed = s.isArmed := rfl
  unfold armedPosCheck
  rw [harmed]
  split
  · exact checkInvalidPosNavState_withRc s false usingGlobalPos
  · rfl

theorem armedPosCheck_none {usingGlobalPos : Bool}
    (h : armedPosCheck s c old usingGlobalPos = none) :
    (s.isArmed && fallbackRequired c usingGlobalPos) = false := by
  unfold armedPosCheck checkInvalidPosNavState at h
  cases hfallback : (s.isArmed && fallbackRequired c usingGlobalPos) with
  | false => rfl
  | true =>
      obtain ⟨harmed, hrequired⟩ := Bool.and_eq_true_iff.1 hfallback
      rw [if_pos harmed, if_pos hrequired] at h
      cases h

theorem armedPosCheck_some {usingGlobalPos : Bool} {t : NavContext}
    (h : armedPosCheck s c old usingGlobalPos = some t) :
    (s.isArmed && fallbackRequired c usingGlobalPos) = true ∧ SameFlags t s := by
  unfold armedPosCheck checkInvalidPosNavState at h
  cases harmed : s.isArmed with
  | false =>
      rw [harmed] at h
      cases h
  | true =>
      cases hrequired : fallbackRequired c usingGlobalPos with
      | false =>
          rw [harmed, hrequired] at h
          cases h
      | true =>
          rw [harmed, hrequired, if_pos rfl, if_pos rfl] at h
          cases h
          exact ⟨rfl, rfl, rfl⟩

theorem reactToLinkLoss_disabled (reason : String) (llDelay : ℚ) :
    reactToLinkLoss s c old reason .disabled llDelay = enableFailsafe s c old reason := by
  have hact : delayedAction c (enableFailsafe s c old reason).status.failsafeTimestamp .disabled
      llDelay = .disabled := if_neg fun h => h.2 rfl
  unfold reactToLinkLoss setLinkLossNavState
  rw [hact]

/-! ## State by state -/

theorem manualNav_compares (hact : a.rcLossAct = .disabled) (nav : NavigationState) :
    Compares (s.status.rcSignalLost && s.isArmed) s (manualNav s c old a nav)
      (manualNav s.withRc c old a nav) := by
  have hpresent : manualNav s.withRc c old a nav = s.withRc.setNav nav := rfl
  rw [hpresent, manualNav, hact, reactToLinkLoss_disabled]
  cases (s.status.rcSignalLost && s.isArmed) with
  | true => exact ⟨⟨rfl, rfl⟩, rfl⟩
  | false => exact ⟨⟨rfl, rfl⟩, rfl⟩

theorem checkInvalidPosNavState_some {useRc usingGlobalPos : Bool} {t : NavContext}
    (h : checkInvalidPosNavState s c old useRc usingGlobalPos = some t) : SameFlags s t := by
  unfold checkInvalidPosNavState at h
  split at h
  · cases h
    exact ⟨rfl, rfl⟩
  · cases h

theorem posctlNav_withRc :
    posctlNav s.withRc c old a =
      ((checkInvalidPosNavState s c old (c.posctlNavLossAct != .landTerminate || !s.isArmed)
        (s.status.vehicleType == .fixedWing)).map NavContext.withRc).getD
          (s.withRc.setNav .posctl) := by
  have harmed : s.withRc.isArmed = s.isArmed := rfl
  have hvehicle : s.withRc.status.vehicleType = s.status.vehicleType := rfl
  have hthere : ¬(s.withRc.status.rcSignalLost && s.isArmed) = true := Bool.false_ne_true
  rw [← checkInvalidPosNavState_withRc, posctlNav, harmed, hvehicle, if_neg hthere]
  cases checkInvalidPosNavState s.withRc c old (c.posctlNavLossAct != .landTerminate || !s.isArmed)
      (s.status.vehicleType == .fixedWing) with
  | some t => rfl
  | none => rfl

theorem posctlNav_compares (hact : a.rcLossAct = .disabled) :
    Compares (s.status.rcSignalLost && s.isArmed) s (posctlNav s c old a)
      (posctlNav s.withRc c old a) := by
  rw [posctlNav_withRc, posctlNav, hact, reactToLinkLoss_disabled]
  cases hcheck :
    checkInvalidPosNavState s c old (c.posctlNavLossAct != .landTerminate || !s.isArmed)
      (s.status.vehicleType == .fixedWing) with
  | none =>
      cases (s.status.rcSignalLost && s.isArmed) with
      | true => exact ⟨⟨rfl, rfl⟩, rfl⟩
      | false => exact ⟨⟨rfl, rfl⟩, rfl⟩
  | some t =>
      obtain ⟨harmed, hinternal⟩ := checkInvalidPosNavState_some hcheck
      cases (s.status.rcSignalLost && s.isArmed) with
      | true => exact ⟨⟨harmed, hinternal⟩, rfl⟩
      | false => exact sameChoice_withRc t

theorem dataLinkReacts_present (h : s.status.dataLinkLost = false) :
    dataLinkReacts s c a = false := by
  simp [dataLinkReacts, h]

theorem allLinksReact_present (h : s.status.dataLinkLost = false) (bit : UInt32) :
    allLinksReact s c a bit = false := by
  simp [allLinksReact, h]

theorem rcReacts_withRc (bit : UInt32) : rcReacts s.withRc c bit = false := rfl

theorem missionNav_compares (hlink : s.status.dataLinkLost = false)
    (hact : a.rcLossAct = .disabled) :
    Compares (missionClear s c && rcReacts s c rclExceptMission) s (missionNav s c old a)
      (missionNav s.withRc c old a) := by
  have hlink' : s.withRc.status.dataLinkLost = false := hlink
  rw [missionNav, missionNav, armedPosCheck_withRc]
  -- the position check comes before the reactions to a lost link, and does not read the remote
  -- control
  cases hcheck : armedPosCheck s c old true with
  | some t =>
      have hclear : missionClear s c = false := by
        simp [missionClear, holdClear, (armedPosCheck_some hcheck).1]
      rw [hclear]
      exact compares_withRc s t
  | none =>
      have hposition := armedPosCheck_none hcheck
      have hengine : s.withRc.status.engineFailure = s.status.engineFailure := rfl
      have hmission : s.withRc.status.missionFailure = s.status.missionFailure := rfl
      dsimp only [Option.map_none]
      rw [dataLinkReacts_present hlink, dataLinkReacts_present hlink', allLinksReact_present hlink,
        allLinksReact_present hlink', rcReacts_withRc, hlink, hlink', hact,
          reactToLinkLoss_disabled,
        hengine, hmission]
      simp only [missionClear, holdClear, hposition, Bool.false_eq_true, if_false, Bool.and_false,
        Bool.false_and]
      cases s.status.engineFailure with
      | true => exact compares_withRc s _
      | false =>
          cases c.statusFlags.vtolTransitionFailure with
          | true => exact compares_withRc s _
          | false =>
              cases s.status.missionFailure with
              | true => exact compares_withRc s _
              | false =>
                  -- only here the two runs part: the disabled reaction ends the branch
                  cases rcReacts s c rclExceptMission with
                  | true =>
                      cases c.stayInFailsafe with
                      | true => exact ⟨⟨rfl, rfl⟩, rfl⟩
                      | false => exact ⟨⟨rfl, rfl⟩, rfl⟩
                  | false =>
                      cases c.stayInFailsafe with
                      | true => exact compares_withRc s s
                      | false => exact compares_withRc s _

theorem holdNav_compares (hlink : s.status.dataLinkLost = false) (hact : a.rcLossAct = .disabled)
    (nav : NavigationState) (usingGlobalPos : Bool) :
    Compares (holdClear s c usingGlobalPos && rcReacts s c rclExceptHold) s
      (holdNav s c old a nav usingGlobalPos) (holdNav s.withRc c old a nav usingGlobalPos) := by
  have hlink' : s.withRc.status.dataLinkLost = false := hlink
  have hengine : s.withRc.status.engineFailure = s.status.engineFailure := rfl
  rw [holdNav, holdNav, armedPosCheck_withRc, hengine]
  cases hfailure : s.status.engineFailure with
  | true =>
      have hclear : holdClear s c usingGlobalPos = false := by
        simp [holdClear, hfailure]
      rw [hclear]
      exact compares_withRc s _
  | false =>
      cases hcheck : armedPosCheck s c old usingGlobalPos with
      | some t =>
          have hclear : holdClear s c usingGlobalPos = false := by
            simp [holdClear, (armedPosCheck_some hcheck).1]
          rw [hclear]
          exact compares_withRc s t
      | none =>
          have hclear : holdClear s c usingGlobalPos = true := by
            simp [holdClear, hfailure, armedPosCheck_none hcheck]
          dsimp only [Option.map_none]
          rw [dataLinkReacts_present hlink, dataLinkReacts_present hlink',
            allLinksReact_present hlink, allLinksReact_present hlink', rcReacts_withRc, hact,
            reactToLinkLoss_disabled, hclear]
          cases rcReacts s c rclExceptHold with
          | true => exact ⟨⟨rfl, rfl⟩, rfl⟩
          | false => exact ⟨⟨rfl, rfl⟩, rfl⟩

theorem plainAutoNav_compares (nav : NavigationState) (usingGlobalPos : Bool) :
    Compares false s (plainAutoNav s c old nav usingGlobalPos)
      (plainAutoNav s.withRc c old nav usingGlobalPos) := by
  have hengine : s.withRc.status.engineFailure = s.status.engineFailure := rfl
  rw [plainAutoNav, plainAutoNav, armedPosCheck_withRc, hengine]
  cases s.status.engineFailure with
  | true => exact compares_withRc s _
  | false =>
      cases armedPosCheck s c old usingGlobalPos with
      | some t => exact compares_withRc s t
      | none => exact compares_withRc s _

theorem orbitNav_compares (hlink : s.status.dataLinkLost = false) :
    Compares false s (orbitNav s c old a) (orbitNav s.withRc c old a) := by
  have hlink' : s.withRc.status.dataLinkLost = false := hlink
  have hengine : s.withRc.status.engineFailure = s.status.engineFailure := rfl
  rw [orbitNav, orbitNav, armedPosCheck_withRc, hengine]
  cases s.status.engineFailure with
  | true => exact compares_withRc s _
  | false =>
      cases armedPosCheck s c old true with
      | some t => exact ⟨⟨rfl, rfl⟩, rfl⟩
      | none =>
          dsimp only [Option.map_none]
          rw [dataLinkReacts_present hlink, dataLinkReacts_present hlink', hlink, hlink']
          simp only [Bool.and_false, Bool.false_and, Bool.false_eq_true, if_false]
          exact compares_withRc s _

/-! ## Offboard -/

theorem offboardMitigate_withRc (s : NavContext) (c : NavCall) :
    offboardMitigate s.withRc c = (offboardMitigate s c).withRc := by
  have hrotary : s.withRc.isRotaryWing = s.isRotaryWing := rfl
  unfold offboardMitigate
  rw [hrotary]
  cases c.statusFlags.conditionLocalAltitudeValid with
  | false => rfl
  | true =>
      cases s.isRotaryWing with
      | false => rfl
      | true => rfl

theorem offboardLand_withRc (s : NavContext) (c : NavCall) :
    offboardLand s.withRc c = (offboardLand s c).withRc := by
  unfold offboardLand
  rw [offboardMitigate_withRc]
  split
  · rfl
  · rfl

theorem offboardLoiter_withRc (s : NavContext) (c : NavCall) :
    offboardLoiter s.withRc c = (offboardLoiter s c).withRc := by
  unfold offboardLoiter
  rw [offboardLand_withRc]
  split
  · rfl
  · rfl

theorem offboardRtl_withRc (s : NavContext) (c : NavCall) :
    offboardRtl s.withRc c = (offboardRtl s c).withRc := by
  unfold offboardRtl
  rw [offboardLoiter_withRc]
  split
  · rfl
  · rfl

theorem offboardAltitude_withRc (s : NavContext) (c : NavCall) :
    offboardAltitude s.withRc c = (offboardAltitude s c).withRc := by
  unfold offboardAltitude
  split
  · rfl
  · rfl

theorem offboardPosition_withRc (s : NavContext) (c : NavCall) :
    offboardPosition s.withRc c = (offboardPosition s c).withRc := by
  have hrotary : s.withRc.isRotaryWing = s.isRotaryWing := rfl
  unfold offboardPosition
  rw [offboardAltitude_withRc, hrotary]
  split
  · rfl
  · split
    · rfl
    · rfl

theorem setOffboardLossRcNavState_withRc (s : NavContext) (c : NavCall)
    (act : OffboardLossRcAction) :
    setOffboardLossRcNavState s.withRc c act = (setOffboardLossRcNavState s c act).withRc := by
  cases act with
  | disabled => rfl
  | terminate => rfl
  | lockdown => rfl
  | manualAttitude => rfl
  | manualAltitude => exact offboardAltitude_withRc s c
  | manualPosition => exact offboardPosition_withRc s c
  | autoRtl => exact offboardRtl_withRc s c
  | autoLoiter => exact offboardLoiter_withRc s c
  | autoLand => exact offboardLand_withRc s c

theorem offboardNav_withRc
    (h : (c.statusFlags.offboardControlSignalLost && s.status.rcSignalLost &&
      !c.excepts rclExceptOffboard) = false) :
    offboardNav s.withRc c old a = (offboardNav s c old a).withRc := by
  have hpresent : s.withRc.status.rcSignalLost = false := rfl
  have henable : ∀ reason, enableFailsafe s.withRc c old reason =
      (enableFailsafe s c old reason).withRc := fun _ => rfl
  unfold offboardNav
  rw [hpresent, Bool.false_and, henable, henable, setOffboardLossRcNavState_withRc]
  cases hoffboard : c.statusFlags.offboardControlSignalLost with
  | false => rfl
  | true =>
      rw [hoffboard, Bool.true_and] at h
      rw [h]
      rfl

/-! ### What they keep -/

/-- Nothing is done but to choose a navigation state. -/
def Navigates (s t : NavContext) : Prop := ∃ nav, t = s.setNav nav

theorem offboardMitigate_navigates (s : NavContext) (c : NavCall) :
    Navigates s (offboardMitigate s c) := by
  unfold offboardMitigate
  cases c.statusFlags.conditionLocalAltitudeValid with
  | false => exact ⟨_, rfl⟩
  | true =>
      cases s.isRotaryWing with
      | false => exact ⟨_, rfl⟩
      | true => exact ⟨_, rfl⟩

theorem offboardLand_navigates (s : NavContext) (c : NavCall) : Navigates s (offboardLand s c) := by
  unfold offboardLand
  split
  · exact ⟨_, rfl⟩
  · exact offboardMitigate_navigates s c

theorem offboardLoiter_navigates (s : NavContext) (c : NavCall) :
    Navigates s (offboardLoiter s c) := by
  unfold offboardLoiter
  split
  · exact ⟨_, rfl⟩
  · exact offboardLand_navigates s c

theorem offboardRtl_navigates (s : NavContext) (c : NavCall) : Navigates s (offboardRtl s c) := by
  unfold offboardRtl
  split
  · exact ⟨_, rfl⟩
  · exact offboardLoiter_navigates s c

theorem offboardAltitude_navigates (s : NavContext) (c : NavCall) :
    Navigates s (offboardAltitude s c) := by
  unfold offboardAltitude
  split
  · exact ⟨_, rfl⟩
  · exact ⟨_, rfl⟩

theorem offboardPosition_navigates (s : NavContext) (c : NavCall) :
    Navigates s (offboardPosition s c) := by
  unfold offboardPosition
  split
  · exact ⟨_, rfl⟩
  · split
    · exact ⟨_, rfl⟩
    · exact offboardAltitude_navigates s c

theorem Navigates.internalState {s t : NavContext} (h : Navigates s t) :
    t.internalState = s.internalState := by
  obtain ⟨nav, rfl⟩ := h
  rfl

theorem setOffboardLossNavState_internalState (s : NavContext) (c : NavCall)
    (act : OffboardLossAction) :
    (setOffboardLossNavState s c act).internalState = s.internalState := by
  cases act with
  | disabled => rfl
  | terminate => rfl
  | lockdown => rfl
  | autoRtl => exact (offboardRtl_navigates s c).internalState
  | autoLoiter => exact (offboardLoiter_navigates s c).internalState
  | autoLand => exact (offboardLand_navigates s c).internalState

theorem setOffboardLossRcNavState_internalState (s : NavContext) (c : NavCall)
    (act : OffboardLossRcAction) :
    (setOffboardLossRcNavState s c act).internalState = s.internalState := by
  cases act with
  | disabled => rfl
  | terminate => rfl
  | lockdown => rfl
  | manualAttitude => rfl
  | manualAltitude => exact (offboardAltitude_navigates s c).internalState
  | manualPosition => exact (offboardPosition_navigates s c).internalState
  | autoRtl => exact (offboardRtl_navigates s c).internalState
  | autoLoiter => exact (offboardLoiter_navigates s c).internalState
  | autoLand => exact (offboardLand_navigates s c).internalState

theorem offboardNav_internalState (s : NavContext) (c : NavCall) :
    (offboardNav s c old a).internalState = s.internalState := by
  unfold offboardNav
  split
  · split
    · exact setOffboardLossNavState_internalState _ c a.offbLossAct
    · exact setOffboardLossRcNavState_internalState _ c a.offbLossRcAct
  · rfl

/-! ## The comparison -/

/-- All states but the one in which the remote control decides about the offboard reaction. -/
theorem chooseNavState_compares (hlink : s.status.dataLinkLost = false)
    (hact : a.rcLossAct = .disabled) (hoffboard : offboardAndRcLost s c = false) :
    Compares (rcLossReached s c) s (chooseNavState s c old a)
      (chooseNavState s.withRc c old a) := by
  have hmain' : s.withRc.internalState.mainState = s.internalState.mainState := rfl
  unfold rcLossReached chooseNavState
  rw [hmain']
  cases hmain : s.internalState.mainState with
  | acro => exact manualNav_compares hact .acro
  | manual => exact manualNav_compares hact .manual
  | stab => exact manualNav_compares hact .stab
  | altctl => exact manualNav_compares hact .altctl
  | posctl => exact posctlNav_compares hact
  | autoMission => exact missionNav_compares hlink hact
  | autoLoiter => exact holdNav_compares hlink hact .autoLoiter true
  | autoRtl => exact plainAutoNav_compares .autoRtl true
  | autoFollowTarget => exact plainAutoNav_compares .autoFollowTarget true
  | orbit => exact orbitNav_compares hlink
  | autoTakeoff => exact holdNav_compares hlink hact .autoTakeoff false
  | autoLand => exact plainAutoNav_compares .autoLand false
  | autoPrecland => exact plainAutoNav_compares .autoPrecland false
  | offboard =>
      have hbranch : (c.statusFlags.offboardControlSignalLost && s.status.rcSignalLost &&
          !c.excepts rclExceptOffboard) = false := by
        simpa [offboardAndRcLost, hmain] using hoffboard
      have hsame := @offboardNav_withRc s c old a hbranch
      dsimp only
      rw [hsame]
      exact compares_withRc s _

/-- Neither the flags nor the states differ. -/
structure NoAction (t u : NavContext) : Prop where
  nav : t.status.navState = u.status.navState
  mainState : t.internalState.mainState = u.internalState.mainState
  forceFailsafe : t.armed.forceFailsafe = u.armed.forceFailsafe
  lockdown : t.armed.lockdown = u.armed.lockdown

/-- The results with and without the loss of the remote control. -/
structure Compared (s : NavContext) (c : NavCall) (a : LossActions) (t u : NavContext) : Prop where
  mainState : t.internalState.mainState = u.internalState.mainState
  flags : offboardAndRcLost s c = false →
    t.armed.forceFailsafe = u.armed.forceFailsafe ∧ t.armed.lockdown = u.armed.lockdown
  same : offboardAndRcLost s c = false → rcLossReached s c = false →
    t.status.navState = u.status.navState
  spared : rcLossReached s c = true → t.status.navState = s.status.navState
  offboard : offboardAndRcLost s c = true →
    t = setOffboardLossNavState
      (enableFailsafe (resetFlags s a) c s.status.failsafe "no RC and no offboard") c a.offbLossAct
  offboardRc : offboardAndRcLost s c = true →
    u = setOffboardLossRcNavState
      (enableFailsafe (resetFlags s a).withRc c s.status.failsafe "no offboard") c a.offbLossRcAct

/-- Where the reaction to a lost remote control is disabled, its loss takes no action: the
navigation state is left alone where the reaction is reached, and is the same elsewhere.  It takes
part in the choice between the reactions to a lost offboard link. -/
theorem disabled_rc_loss (s : NavContext) (c : NavCall) (a : LossActions)
    (hlink : s.status.dataLinkLost = false) (hact : a.rcLossAct = .disabled) :
    Compared s c a (setNavState s c a).1 (setNavState s.withRc c a).1 := by
  have hreached : rcLossReached (resetFlags s a) c = rcLossReached s c := rfl
  have hlost : offboardAndRcLost (resetFlags s a) c = offboardAndRcLost s c := rfl
  have hmissing : (setNavState s c a).1 = chooseNavState (resetFlags s a) c s.status.failsafe a :=
    rfl
  have hpresent : (setNavState s.withRc c a).1 =
      chooseNavState (resetFlags s a).withRc c s.status.failsafe a := rfl
  have hcompares : offboardAndRcLost s c = false →
      Compares (rcLossReached s c) (resetFlags s a) (setNavState s c a).1
        (setNavState s.withRc c a).1 := by
    intro h
    rw [hpresent, ← hreached]
    exact chooseNavState_compares hlink hact (hlost.trans h)
  have hflags : offboardAndRcLost s c = false →
      SameFlags (setNavState s c a).1 (setNavState s.withRc c a).1 := by
    intro h
    have hcmp := hcompares h
    unfold Compares at hcmp
    split at hcmp
    · exact hcmp.toSameFlags
    · exact hcmp.toSameFlags
  have hoffboard : offboardAndRcLost s c = true → s.internalState.mainState = .offboard ∧
      (c.statusFlags.offboardControlSignalLost = true ∧
        (s.status.rcSignalLost && !c.excepts rclExceptOffboard) = true) := by
    intro h
    simpa [offboardAndRcLost, and_assoc] using h
  refine ⟨?_, ?_, ?_, ?_, ?_, ?_⟩
  · cases h : offboardAndRcLost s c with
    | false => rw [(hflags h).internalState]
    | true =>
        obtain ⟨hmain, -⟩ := hoffboard h
        have hchoice : ∀ t : NavContext, t.internalState.mainState = .offboard →
            chooseNavState t c s.status.failsafe a = offboardNav t c s.status.failsafe a := by
          intro t ht
          rw [chooseNavState, ht]
        rw [hmissing, hpresent, hchoice (resetFlags s a) hmain,
          hchoice (resetFlags s a).withRc hmain,
          offboardNav_internalState, offboardNav_internalState]
        rfl
  · intro h
    rw [(hflags h).armed]
    exact ⟨rfl, rfl⟩
  · intro h hnot
    have hcmp := hcompares h
    rw [hnot] at hcmp
    exact hcmp.nav
  · intro h
    have hnot : offboardAndRcLost s c = false := by
      cases hlost' : offboardAndRcLost s c with
      | false => rfl
      | true =>
          rw [rcLossReached, (hoffboard hlost').1] at h
          cases h
    have hcmp := hcompares hnot
    rw [h] at hcmp
    exact hcmp.nav
  · intro h
    obtain ⟨hmain, hsignal, hrc⟩ := hoffboard h
    have hmain' : (resetFlags s a).internalState.mainState = .offboard := hmain
    have hrc' : ((resetFlags s a).status.rcSignalLost && !c.excepts rclExceptOffboard) = true := hrc
    rw [setNavState, chooseNavState, hmain']
    dsimp only
    rw [offboardNav, if_pos hsignal, if_pos hrc']
  · intro h
    obtain ⟨hmain, hsignal, -⟩ := hoffboard h
    have hmain' : (resetFlags s a).withRc.internalState.mainState = .offboard := hmain
    have hrc' : ¬((resetFlags s a).withRc.status.rcSignalLost && !c.excepts rclExceptOffboard) =
        true :=
      Bool.false_ne_true
    rw [hpresent, chooseNavState, hmain']
    dsimp only
    rw [offboardNav, if_pos hsignal, if_neg hrc']

/-- A multicopter in the air without remote control, in this main state, found in this navigation
state. -/
def adrift (main : MainState) (nav : NavigationState) : NavContext where
  status := { VehicleStatus.initial with
    navState := nav
    armingState := .armed
    vehicleType := .rotaryWing
    rcSignalLost := true }
  armed := ActuatorArmed.initial
  internalState := ⟨main, 0, 0⟩
  mavlinkLog := []

/-- A turn with an altitude, with or without an offboard link. -/
def quietCall (offboardLost : Bool) : NavCall where
  statusFlags := { VehicleStatusFlags.initial with
    conditionLocalAltitudeValid := true
    offboardControlSignalLost := offboardLost }
  missionFinished := false
  stayInFailsafe := false
  landed := false
  posctlNavLossAct := .altitudeManual
  paramComRclActT := 0
  paramComRclExcept := 0
  elapsedAt := 0
  failsafeAt := 0
  reactAt := 0
  mainStateAt := 0

/-- Reactions to a lost offboard link alone. -/
def offboardActions : LossActions := ⟨.disabled, .disabled, .terminate, .manualAltitude⟩

/-- The main state was changed while the remote control was lost. -/
theorem disabled_rc_loss_stab :
    Compared (adrift .stab .altctl) (quietCall false) offboardActions
      (setNavState (adrift .stab .altctl) (quietCall false) offboardActions).1
      (setNavState (adrift .stab .altctl).withRc (quietCall false) offboardActions).1 :=
  disabled_rc_loss _ _ _ rfl rfl

theorem stale_nav_state : ¬ NoAction
    (setNavState (adrift .stab .altctl) (quietCall false) offboardActions).1
    (setNavState (adrift .stab .altctl).withRc (quietCall false) offboardActions).1 := by
  intro hsame
  have hspared : Spared (resetFlags (adrift .stab .altctl) offboardActions)
      (setNavState (adrift .stab .altctl) (quietCall false) offboardActions).1
      (setNavState (adrift .stab .altctl).withRc (quietCall false) offboardActions).1 :=
    @chooseNavState_compares (resetFlags (adrift .stab .altctl) offboardActions) (quietCall false)
      false offboardActions rfl rfl rfl
  have hstale := hspared.nav.symm.trans hsame.nav
  revert hstale
  decide

theorem offboard_terminated : ¬ NoAction
    (setNavState (adrift .offboard .offboard) (quietCall true) offboardActions).1
    (setNavState (adrift .offboard .offboard).withRc (quietCall true) offboardActions).1 := by
  intro hsame
  have hflags := hsame.forceFailsafe
  revert hflags
  decide

/-- A lost remote control without a reaction may make a difference, in two ways. -/
theorem disabled_rc_loss_acts :
    (¬ ∀ (s : NavContext) (c : NavCall) (a : LossActions), s.status.dataLinkLost = false →
        a.rcLossAct = .disabled → NoAction (setNavState s c a).1 (setNavState s.withRc c a).1) ∧
      ¬ NoAction (setNavState (adrift .stab .altctl) (quietCall false) offboardActions).1
        (setNavState (adrift .stab .altctl).withRc (quietCall false) offboardActions).1 ∧
      ¬ NoAction (setNavState (adrift .offboard .offboard) (quietCall true) offboardActions).1
        (setNavState (adrift .offboard .offboard).withRc (quietCall true) offboardActions).1 :=
  ⟨fun hall => stale_nav_state (hall _ _ _ rfl rfl), stale_nav_state, offboard_terminated⟩

end Commander
end DtPhm
