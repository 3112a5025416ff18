import DtPhm.Commander.Status

/-!
# NavState — which navigation state the commander chooses

`set_nav_state` is called in every turn of the commander.  From what the user wants, from the links
and estimates that are left, and from the configured actions it chooses the navigation state, and it
may terminate the flight (`force_failsafe`) or lock the actuators (`lockdown`).

* `mainStateTransition` — a request of the user;
* `checkInvalidPosNavState`, `setLinkLossNavState`, `setOffboardLossNavState`,
  `setOffboardLossRcNavState` — the reactions, with their chains of fallbacks;
* `setNavState` — the whole decision.
-/

namespace DtPhm
namespace Commander

/-! ## Configured actions -/

/-- `link_loss_actions_t`. -/
inductive LinkLossAction
  | disabled
  | autoLoiter
  | autoRtl
  | autoLand
  | terminate
  | lockdown
deriving DecidableEq, Repr

/-- `offboard_loss_actions_t`. -/
inductive OffboardLossAction
  | disabled
  | autoLand
  | autoLoiter
  | autoRtl
  | terminate
  | lockdown
deriving DecidableEq, Repr

/-- `offboard_loss_rc_actions_t`. -/
inductive OffboardLossRcAction
  | disabled
  | manualPosition
  | manualAltitude
  | manualAttitude
  | autoRtl
  | autoLand
  | autoLoiter
  | terminate
  | lockdown
deriving DecidableEq, Repr

/-- `position_nav_loss_actions_t`. -/
inductive PositionNavLossAction
  | altitudeManual
  | landTerminate
deriving DecidableEq, Repr

/-- The configured reactions to lost links. -/
structure LossActions where
  dataLinkLossAct : LinkLossAction
  rcLossAct : LinkLossAction
  offbLossAct : OffboardLossAction
  offbLossRcAct : OffboardLossRcAction
deriving DecidableEq, Repr

/-! ## Context -/

/-- What is passed by reference, with the messages to the user. -/
structure NavContext where
  status : VehicleStatus
  armed : ActuatorArmed
  internalState : CommanderState
  mavlinkLog : List String
deriving DecidableEq, Repr

/-- The other arguments of a call, and the times that it reads. -/
structure NavCall where
  statusFlags : VehicleStatusFlags
  missionFinished : Bool
  stayInFailsafe : Bool
  landed : Bool
  posctlNavLossAct : PositionNavLossAction
  /-- The delay of the reaction to a lost remote control, in seconds. -/
  paramComRclActT : ℚ
  paramComRclExcept : UInt32
  /-- The times that `enable_failsafe` reads. -/
  elapsedAt : UInt64
  failsafeAt : UInt64
  /-- The time at which a reaction is found to be due or not. -/
  reactAt : UInt64
  mainStateAt : UInt64
deriving DecidableEq, Repr

def NavContext.setNav (s : NavContext) (nav : NavigationState) : NavContext :=
  { s with status := { s.status with navState := nav } }

/-- The flight is terminated. -/
def NavContext.terminate (s : NavContext) : NavContext :=
  { s.setNav .termination with armed := { s.armed with forceFailsafe := true } }

/-- The actuators are locked. -/
def NavContext.lock (s : NavContext) : NavContext :=
  { s with armed := { s.armed with lockdown := true } }

/-- `is_armed`. -/
def NavContext.isArmed (s : NavContext) : Bool := s.status.armingState == .armed

def NavContext.isRotaryWing (s : NavContext) : Bool := s.status.vehicleType == .rotaryWing

/-! ## Requests of the user -/

/-- The conditions under which `main_state_transition` allows a state. -/
def mainStateAllowed (status : VehicleStatus) (f : VehicleStatusFlags) : MainState → Bool
  | .manual | .stab | .acro => true
  | .altctl => f.conditionLocalAltitudeValid || f.conditionGlobalPositionValid
  | .posctl => f.conditionLocalPositionValid || f.conditionGlobalPositionValid
  | .autoLoiter => f.conditionGlobalPositionValid
  | .autoFollowTarget | .orbit => status.vehicleType == .rotaryWing
  | .autoMission => f.conditionGlobalPositionValid && f.conditionAutoMissionAvailable
  | .autoRtl => f.conditionGlobalPositionValid && f.conditionHomePositionValid
  | .autoTakeoff | .autoLand => f.conditionLocalPositionValid
  | .autoPrecland =>
    f.conditionLocalPositionValid && f.conditionGlobalPositionValid &&
      status.vehicleType == .rotaryWing
  | .offboard => !f.offboardControlSignalLost

/-- `main_state_transition`; a request that names no state, such as `MAIN_STATE_MAX`, is denied. -/
def mainStateTransition (status : VehicleStatus) (newMainState : Option MainState)
    (f : VehicleStatusFlags) (internalState : CommanderState) (now : UInt64) :
    CommanderState × TransitionResult :=
  match newMainState with
  | none => (internalState, .denied)
  | some m =>
    if !mainStateAllowed status f m then (internalState, .denied)
    else if internalState.mainState = m then (internalState, .notChanged)
    else
      ({ mainState := m
         mainStateChanges := internalState.mainStateChanges + 1
         timestamp := now }, .changed)

/-! ## Reactions -/

variable (s : NavContext) (c : NavCall) (oldFailsafe : Bool)

/-- The start of the failsafe, which is not moved by failsafes that come and go. -/
def failsafeSince : UInt64 :=
  if !oldFailsafe && s.isArmed &&
      (s.status.failsafeTimestamp == 0 ||
        decide (hrtElapsedTime c.elapsedAt s.status.failsafeTimestamp > 30000000)) then
    c.failsafeAt
  else s.status.failsafeTimestamp

/-- `enable_failsafe`. -/
def enableFailsafe (reason : String) : NavContext :=
  { s with
    status := { s.status with
      failsafe := true
      failsafeTimestamp := failsafeSince s c oldFailsafe }
    mavlinkLog :=
      if !oldFailsafe && s.isArmed then s.mavlinkLog ++ ["Failsafe enabled: " ++ reason]
      else s.mavlinkLog }

/-- The fallback of `check_invalid_pos_nav_state` to a mode with stick control. -/
def stickFallback : NavigationState :=
  if s.isRotaryWing && c.statusFlags.conditionLocalPositionValid then .posctl
  else if c.statusFlags.conditionLocalAltitudeValid then .altctl
  else .stab

/-- Its fallback to a descent without stick control. -/
def descentFallback : NavigationState :=
  if c.statusFlags.conditionLocalPositionValid then .autoLand
  else if c.statusFlags.conditionLocalAltitudeValid then
    if s.isRotaryWing then .descend else .autoLandgpsfail
  else .termination

/-- `fallback_required`. -/
def fallbackRequired (usingGlobalPos : Bool) : Bool :=
  if usingGlobalPos then !c.statusFlags.conditionGlobalPositionValid
  else !c.statusFlags.conditionLocalPositionValid || !c.statusFlags.conditionLocalVelocityValid

/-- `check_invalid_pos_nav_state`, where a fallback is required. -/
def invalidPosFallback (useRc usingGlobalPos : Bool) : NavContext :=
  enableFailsafe (s.setNav (if useRc then stickFallback s c else descentFallback s c)) c oldFailsafe
    (if usingGlobalPos then "no global position" else "no local position")

/-- `check_invalid_pos_nav_state`: nothing if no fallback is required. -/
def checkInvalidPosNavState (useRc usingGlobalPos : Bool) : Option NavContext :=
  if fallbackRequired c usingGlobalPos then
    some (invalidPosFallback s c oldFailsafe useRc usingGlobalPos)
  else none

/-- `AUTO_LAND` in `set_link_loss_nav_state`, which falls through to `TERMINATE`. -/
def linkLossLand : NavContext :=
  if c.statusFlags.conditionGlobalPositionValid then s.setNav .autoLand
  else if s.isRotaryWing then
    if c.statusFlags.conditionLocalPositionValid then s.setNav .autoLand
    else if c.statusFlags.conditionLocalAltitudeValid then s.setNav .descend
    else s.terminate
  else s.setNav .autoLandgpsfail

/-- `AUTO_LOITER`, which falls through to `AUTO_LAND`. -/
def linkLossLoiter : NavContext :=
  if c.statusFlags.conditionGlobalPositionValid then s.setNav .autoLoiter else linkLossLand s c

/-- `AUTO_RTL`, which falls through to `AUTO_LOITER`. -/
def linkLossRtl : NavContext :=
  if c.statusFlags.conditionGlobalPositionValid && c.statusFlags.conditionHomePositionValid then
    let internalState :=
      (mainStateTransition s.status (some .autoRtl) c.statusFlags s.internalState c.mainStateAt).1
    { s.setNav .autoRtl with internalState := internalState }
  else linkLossLoiter s c

/-- The action that is taken now: a configured reaction is delayed by holding the position.  The
source compares the two times as floats, here they are exact. -/
def delayedAction (since : UInt64) (act : LinkLossAction) (llDelay : ℚ) : LinkLossAction :=
  if ((hrtElapsedTime c.reactAt since).toNat : ℚ) < llDelay * 1000000 ∧ act ≠ .disabled then
    .autoLoiter
  else act

/-- `set_link_loss_nav_state`. -/
def setLinkLossNavState (act : LinkLossAction) (llDelay : ℚ) : NavContext :=
  match delayedAction c s.status.failsafeTimestamp act llDelay with
  | .disabled => s
  | .autoRtl => linkLossRtl s c
  | .autoLoiter => linkLossLoiter s c
  | .autoLand => linkLossLand s c
  | .terminate => s.terminate
  | .lockdown => s.lock

/-- The end of both reactions to a lost offboard link. -/
def offboardMitigate : NavContext :=
  if c.statusFlags.conditionLocalAltitudeValid then
    if s.isRotaryWing then s.setNav .descend else s.setNav .autoLandgpsfail
  else s.setNav .termination

/-- `AUTO_LAND` in both. -/
def offboardLand : NavContext :=
  if c.statusFlags.conditionGlobalPositionValid then s.setNav .autoLand else offboardMitigate s c

/-- `AUTO_LOITER` in both, which falls through to `AUTO_LAND`. -/
def offboardLoiter : NavContext :=
  if c.statusFlags.conditionGlobalPositionValid then s.setNav .autoLoiter else offboardLand s c

/-- `AUTO_RTL` in both, which falls through to `AUTO_LOITER`. -/
def offboardRtl : NavContext :=
  if c.statusFlags.conditionGlobalPositionValid && c.statusFlags.conditionHomePositionValid then
    s.setNav .autoRtl
  else offboardLoiter s c

/-- `set_offboard_loss_nav_state`. -/
def setOffboardLossNavState : OffboardLossAction → NavContext
  | .disabled => s
  | .terminate => s.terminate
  | .lockdown => s.lock
  | .autoRtl => offboardRtl s c
  | .autoLoiter => offboardLoiter s c
  | .autoLand => offboardLand s c

/-- `MANUAL_ALTITUDE`, which falls through to `MANUAL_ATTITUDE`. -/
def offboardAltitude : NavContext :=
  if c.statusFlags.conditionLocalAltitudeValid then s.setNav .altctl else s.setNav .manual

/-- `MANUAL_POSITION`, which falls through to `MANUAL_ALTITUDE`. -/
def offboardPosition : NavContext :=
  if s.isRotaryWing && c.statusFlags.conditionLocalPositionValid then s.setNav .posctl
  else if c.statusFlags.conditionGlobalPositionValid then s.setNav .posctl
  else offboardAltitude s c

/-- `set_offboard_loss_rc_nav_state`. -/
def setOffboardLossRcNavState : OffboardLossRcAction → NavContext
  | .disabled => s
  | .terminate => s.terminate
  | .lockdown => s.lock
  | .manualPosition => offboardPosition s c
  | .manualAltitude => offboardAltitude s c
  | .manualAttitude => s.setNav .manual
  | .autoRtl => offboardRtl s c
  | .autoLoiter => offboardLoiter s c
  | .autoLand => offboardLand s c

/-! ## Resets -/

/-- `reset_link_loss_globals`. -/
def resetLinkLossGlobals (armed : ActuatorArmed) (act : LinkLossAction) : ActuatorArmed :=
  if oldFailsafe then
    match act with
    | .terminate => { armed with forceFailsafe := false }
    | .lockdown => { armed with lockdown := false }
    | _ => armed
  else armed

/-- `reset_offboard_loss_globals`. -/
def resetOffboardLossGlobals (armed : ActuatorArmed) (act : OffboardLossAction)
    (rcAct : OffboardLossRcAction) : ActuatorArmed :=
  if oldFailsafe then
    { armed with
      forceFailsafe :=
        if act = .terminate ∨ rcAct = .terminate then false else armed.forceFailsafe
      lockdown := if act = .lockdown ∨ rcAct = .lockdown then false else armed.lockdown }
  else armed

variable (a : LossActions)

/-- The context after the flags have been reset. -/
def resetFlags : NavContext :=
  let old := s.status.failsafe
  { s with
    status := { s.status with failsafe := false }
    armed :=
      resetOffboardLossGlobals old
        (resetLinkLossGlobals old (resetLinkLossGlobals old s.armed a.rcLossAct)
          a.dataLinkLossAct)
        a.offbLossAct a.offbLossRcAct }

/-! ## The decision -/

/-- `data_link_loss_act_configured`. -/
def LossActions.dataLinkLossActConfigured : Bool := a.dataLinkLossAct != .disabled

/-- `RCL_EXCEPT_MISSION`, `RCL_EXCEPT_HOLD` and `RCL_EXCEPT_OFFBOARD`. -/
def rclExceptMission : UInt32 := 1

def rclExceptHold : UInt32 := 2

def rclExceptOffboard : UInt32 := 4

def NavCall.excepts (bit : UInt32) : Bool := c.paramComRclExcept &&& bit != 0

/-- The data link is lost, and a reaction is configured. -/
def dataLinkReacts : Bool :=
  s.status.dataLinkLost && a.dataLinkLossActConfigured && s.isArmed && !c.landed

/-- The remote control is lost, was there before, and is not excepted. -/
def rcReacts (bit : UInt32) : Bool :=
  s.status.rcSignalLost && !c.excepts bit && c.statusFlags.rcSignalFoundOnce && s.isArmed &&
    !c.landed

/-- All links are lost, without a configured reaction to a lost data link. -/
def allLinksReact (bit : UInt32) : Bool :=
  s.status.rcSignalLost && !c.excepts bit && s.status.dataLinkLost &&
    !a.dataLinkLossActConfigured && s.isArmed && !c.landed

/-- The failsafe is enabled, and the reaction to a lost link chosen. -/
def reactToLinkLoss (reason : String) (act : LinkLossAction) (llDelay : ℚ) : NavContext :=
  setLinkLossNavState (enableFailsafe s c oldFailsafe reason) c act llDelay

/-- `ACRO`, `MANUAL`, `STAB` and `ALTCTL`, each with its navigation state. -/
def manualNav (nav : NavigationState) : NavContext :=
  if s.status.rcSignalLost && s.isArmed then
    reactToLinkLoss s c oldFailsafe "No manual control stick input" a.rcLossAct c.paramComRclActT
  else s.setNav nav

/-- `POSCTL`. -/
def posctlNav : NavContext :=
  if s.status.rcSignalLost && s.isArmed then
    reactToLinkLoss s c oldFailsafe "No manual control stick input" a.rcLossAct c.paramComRclActT
  else
    match checkInvalidPosNavState s c oldFailsafe
        (c.posctlNavLossAct != .landTerminate || !s.isArmed)
        (s.status.vehicleType == .fixedWing) with
    | some t => t
    | none => s.setNav .posctl

/-- The check of the position is made only while armed. -/
def armedPosCheck (usingGlobalPos : Bool) : Option NavContext :=
  if s.isArmed then checkInvalidPosNavState s c oldFailsafe false usingGlobalPos else none

/-- `AUTO_MISSION`. -/
def missionNav : NavContext :=
  match armedPosCheck s c oldFailsafe true with
  | some t => t
  | none =>
    if s.status.engineFailure then s.setNav .autoLandengfail
    else if c.statusFlags.vtolTransitionFailure then s.setNav .autoRtl
    else if s.status.missionFailure then s.setNav .autoRtl
    else if dataLinkReacts s c a then
      reactToLinkLoss s c oldFailsafe "no datalink" a.dataLinkLossAct 0
    else if rcReacts s c rclExceptMission then
      reactToLinkLoss s c oldFailsafe "No manual control stick input" a.rcLossAct
        c.paramComRclActT
    else if allLinksReact s c a rclExceptMission then
      reactToLinkLoss s c oldFailsafe "no datalink" a.rcLossAct 0
    else if s.status.rcSignalLost && c.excepts rclExceptMission && s.status.dataLinkLost &&
        !a.dataLinkLossActConfigured && s.isArmed && !c.landed && c.missionFinished then
      reactToLinkLoss s c oldFailsafe "no RC and no datalink" .autoRtl 0
    else if !c.stayInFailsafe then s.setNav .autoMission
    else s

/-- `AUTO_LOITER` and `AUTO_TAKEOFF`, each with its navigation state and the position it needs. -/
def holdNav (nav : NavigationState) (usingGlobalPos : Bool) : NavContext :=
  if s.status.engineFailure then s.setNav .autoLandengfail
  else
    match armedPosCheck s c oldFailsafe usingGlobalPos with
    | some t => t
    | none =>
      if dataLinkReacts s c a then
        reactToLinkLoss s c oldFailsafe "no datalink" a.dataLinkLossAct 0
      else if rcReacts s c rclExceptHold then
        reactToLinkLoss s c oldFailsafe "No manual control stick input" a.rcLossAct
          c.paramComRclActT
      else if allLinksReact s c a rclExceptHold then
        reactToLinkLoss s c oldFailsafe "no datalink" a.rcLossAct 0
      else s.setNav nav

/-- `AUTO_RTL`, `AUTO_FOLLOW_TARGET`, `AUTO_LAND` and `AUTO_PRECLAND`, each with its navigation
state and the position it needs. -/
def plainAutoNav (nav : NavigationState) (usingGlobalPos : Bool) : NavContext :=
  if s.status.engineFailure then s.setNav .autoLandengfail
  else
    match armedPosCheck s c oldFailsafe usingGlobalPos with
    | some t => t
    | none => s.setNav nav

/-- After a failsafe there is no recovery into an orbit. -/
def NavContext.leaveOrbit : NavContext :=
  { s with internalState := { s.internalState with mainState := .posctl } }

/-- `ORBIT`. -/
def orbitNav : NavContext :=
  if s.status.engineFailure then (s.setNav .autoLandengfail).leaveOrbit
  else
    match armedPosCheck s c oldFailsafe true with
    | some t => t.leaveOrbit
    | none =>
      if dataLinkReacts s c a then
        -- here the failsafe is enabled after the reaction
        (enableFailsafe (setLinkLossNavState s c a.dataLinkLossAct 0) c oldFailsafe
          "no datalink").leaveOrbit
      else if s.status.rcSignalLost && s.status.dataLinkLost && !a.dataLinkLossActConfigured &&
          s.isArmed then
        (reactToLinkLoss s c oldFailsafe "No manual control stick input" a.rcLossAct 0).leaveOrbit
      else s.setNav .orbit

/-- `OFFBOARD`. -/
def offboardNav : NavContext :=
  if c.statusFlags.offboardControlSignalLost then
    if s.status.rcSignalLost && !c.excepts rclExceptOffboard then
      setOffboardLossNavState (enableFailsafe s c oldFailsafe "no RC and no offboard") c
        a.offbLossAct
    else
      setOffboardLossRcNavState (enableFailsafe s c oldFailsafe "no offboard") c a.offbLossRcAct
  else s.setNav .offboard

/-- The switch of `set_nav_state`. -/
def chooseNavState : NavContext :=
  match s.internalState.mainState with
  | .acro => manualNav s c oldFailsafe a .acro
  | .manual => manualNav s c oldFailsafe a .manual
  | .stab => manualNav s c oldFailsafe a .stab
  | .altctl => manualNav s c oldFailsafe a .altctl
  | .posctl => posctlNav s c oldFailsafe a
  | .autoMission => missionNav s c oldFailsafe a
  | .autoLoiter => holdNav s c oldFailsafe a .autoLoiter true
  | .autoRtl => plainAutoNav s c oldFailsafe .autoRtl true
  | .autoFollowTarget => plainAutoNav s c oldFailsafe .autoFollowTarget true
  | .orbit => orbitNav s c oldFailsafe a
  | .autoTakeoff => holdNav s c oldFailsafe a .autoTakeoff false
  | .autoLand => plainAutoNav s c oldFailsafe .autoLand false
  | .autoPrecland => plainAutoNav s c oldFailsafe .autoPrecland false
  | .offboard => offboardNav s c oldFailsafe a

/-- `set_nav_state`, with whether the navigation state has changed. -/
def setNavState : NavContext × Bool :=
  let t := chooseNavState (resetFlags s a) c s.status.failsafe a
  (t, t.status.navState != s.status.navState)

end Commander
end DtPhm
