import Mathlib.Data.Rat.Defs

/-!
# Status — what the state machines of the commander read and write

The messages `vehicle_status`, `vehicle_status_flags`, `actuator_armed` and `commander_state`, as
far as the arming, the main and the navigation state machine use them.  Times are in microseconds.

* `VehicleStatus`, `VehicleStatusFlags`, `ActuatorArmed`, `CommanderState` — the messages;
* `hrtElapsedTime` — the time since a time stamp.
-/

namespace DtPhm
namespace Commander

/-! ## Enumerations -/

/-- `ARMING_STATE_*`. -/
inductive ArmingState
  | init
  | standby
  | armed
  | standbyError
  | shutdown
  | inAirRestore
deriving DecidableEq, Repr

/-- `HIL_STATE_*`: whether the hardware is in a simulation loop. -/
inductive HilState
  | off
  | on
deriving DecidableEq, Repr

/-- `NAVIGATION_STATE_*`: what the vehicle should do. -/
inductive NavigationState
  | manual
  | altctl
  | posctl
  | autoMission
  | autoLoiter
  | autoRtl
  | autoLandengfail
  | autoLandgpsfail
  | acro
  | descend
  | termination
  | offboard
  | stab
  | autoTakeoff
  | autoLand
  | autoFollowTarget
  | autoPrecland
  | orbit
deriving DecidableEq, Repr

/-- `MAIN_STATE_*`: what the user wants. -/
inductive MainState
  | manual
  | altctl
  | posctl
  | autoMission
  | autoLoiter
  | autoRtl
  | acro
  | offboard
  | stab
  | autoTakeoff
  | autoLand
  | autoFollowTarget
  | autoPrecland
  | orbit
deriving DecidableEq, Repr

/-- `VEHICLE_TYPE_*`. -/
inductive VehicleType
  | unknown
  | rotaryWing
  | fixedWing
  | rover
  | airship
deriving DecidableEq, Repr

/-- `arm_disarm_reason_t`. -/
inductive ArmDisarmReason
  | transitionToStandby
  | rcStick
  | rcSwitch
  | commandInternal
  | commandExternal
  | missionStart
  | safetyButton
  | autoDisarmLand
  | autoDisarmPreflight
  | killSwitch
  | lockdown
  | failureDetector
  | shutdown
  | unitTest
deriving DecidableEq, Repr

/-- `transition_result_t`. -/
inductive TransitionResult
  | denied
  | notChanged
  | changed
deriving DecidableEq, Repr

/-! ## Messages -/

/-- `vehicle_status_s`. -/
structure VehicleStatus where
  navState : NavigationState
  armingState : ArmingState
  hilState : HilState
  failsafe : Bool
  failsafeTimestamp : UInt64
  vehicleType : VehicleType
  rcSignalLost : Bool
  dataLinkLost : Bool
  engineFailure : Bool
  missionFailure : Bool
  latestArmingReason : ArmDisarmReason
  latestDisarmingReason : ArmDisarmReason
  armedTime : UInt64
deriving DecidableEq, Repr

/-- `vehicle_status_flags_s`. -/
structure VehicleStatusFlags where
  conditionSystemSensorsInitialized : Bool
  conditionAutoMissionAvailable : Bool
  conditionLocalAltitudeValid : Bool
  conditionLocalPositionValid : Bool
  conditionLocalVelocityValid : Bool
  conditionGlobalPositionValid : Bool
  conditionHomePositionValid : Bool
  offboardControlSignalLost : Bool
  rcSignalFoundOnce : Bool
  vtolTransitionFailure : Bool
deriving DecidableEq, Repr

/-- `actuator_armed_s`. -/
structure ActuatorArmed where
  armed : Bool
  readyToArm : Bool
  lockdown : Bool
  forceFailsafe : Bool
deriving DecidableEq, Repr

/-- `commander_state_s`. -/
structure CommanderState where
  mainState : MainState
  mainStateChanges : UInt16
  timestamp : UInt64
deriving DecidableEq, Repr

/-- `hrt_elapsed_time`, read at the time `now`. -/
def hrtElapsedTime (now since : UInt64) : UInt64 := now - since

/-! ## Start -/

def VehicleStatus.initial : VehicleStatus where
  navState := .manual
  armingState := .init
  hilState := .off
  failsafe := false
  failsafeTimestamp := 0
  vehicleType := .unknown
  rcSignalLost := false
  dataLinkLost := false
  engineFailure := false
  missionFailure := false
  latestArmingReason := .transitionToStandby
  latestDisarmingReason := .transitionToStandby
  armedTime := 0

def VehicleStatusFlags.initial : VehicleStatusFlags where
  conditionSystemSensorsInitialized := false
  conditionAutoMissionAvailable := false
  conditionLocalAltitudeValid := false
  conditionLocalPositionValid := false
  conditionLocalVelocityValid := false
  conditionGlobalPositionValid := false
  conditionHomePositionValid := false
  offboardControlSignalLost := false
  rcSignalFoundOnce := false
  vtolTransitionFailure := false

def ActuatorArmed.initial : ActuatorArmed := ⟨false, false, false, false⟩

def CommanderState.initial : CommanderState := ⟨.manual, 0, 0⟩

end Commander
end DtPhm
