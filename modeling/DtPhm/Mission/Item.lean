import DtPhm.Lib.Rounding

/-!
# Item — mission items, and their MAVLink messages

The data of one mission item as the autopilot stores it (`mission_item_s`), as the MISSION_ITEM and
MISSION_ITEM_INT messages carry it, and the two functions of `mavlink_mission.cpp` between them:
`parseMavlinkMissionItem` and `formatMavlinkMissionItem`.

Floating point values are exact rationals.  The conversions to integer fields are those of
`FloatConv`; the two mathematical constants are the literals of the source.
-/

namespace DtPhm
namespace Mission

open Lib

/-! ## Enumerations of the protocol -/

/-- `MAV_CMD`, as far as the mission manager names its values. -/
inductive MavCmd
  | navWaypoint
  | navLoiterUnlim
  | navLoiterTime
  | navReturnToLaunch
  | navLand
  | navTakeoff
  | navLoiterToAlt
  | navRoi
  | navVtolTakeoff
  | navVtolLand
  | navDelay
  | conditionDelay
  | conditionDistance
  | doJump
  | doChangeSpeed
  | doSetHome
  | doSetServo
  | doLandStart
  | doSetRoiLocation
  | doSetRoiWpnextOffset
  | doSetRoiNone
  | doControlVideo
  | doSetRoi
  | doDigicamControl
  | doMountConfigure
  | doMountControl
  | doSetCamTriggDist
  | doSetCamTriggInterval
  | obliqueSurvey
  | setCameraMode
  | setCameraZoom
  | setCameraFocus
  | doGimbalManagerPitchyaw
  | doGimbalManagerConfigure
  | imageStartCapture
  | imageStopCapture
  | doTriggerControl
  | videoStartCapture
  | videoStopCapture
  | doVtolTransition
  | conditionGate
  | navFenceReturnPoint
  | navFencePolygonVertexInclusion
  | navFencePolygonVertexExclusion
  | navFenceCircleInclusion
  | navFenceCircleExclusion
  | navRallyPoint
  | other (code : ℕ)
  deriving DecidableEq, Repr

/-- `MAV_FRAME`, as far as the mission manager names its values. -/
inductive MavFrame
  | global
  | mission
  | globalRelativeAlt
  | globalInt
  | globalRelativeAltInt
  | other (code : ℕ)
  deriving DecidableEq, Repr

/-- `MAV_MISSION_RESULT`. -/
inductive MavMissionResult
  | accepted
  | error
  | unsupportedFrame
  | unsupported
  | noSpace
  | invalidParam1
  | operationCancelled
  | other (code : ℕ)
  deriving DecidableEq, Repr

/-- `MAV_MISSION_TYPE`: a byte, of which four values have a name. -/
inductive MavMissionType
  | mission
  | fence
  | rally
  | all
  | other (code : Fin 252)
  deriving DecidableEq, Repr

inductive Origin
  | mavlink
  | onboard
  deriving DecidableEq, Repr

/-! ## Constants and conversions -/

/-- `MATH_PI` of `mathlib/math/Limits.hpp`. -/
def mathPi : ℚ := 3.141592653589793238462643383280

/-- `M_TWOPI` of `matrix/stdlib_imports.hpp`, twice the `M_PI` of the C library. -/
def mTwoPi : ℚ := 3.14159265358979323846 * 2

def radians (degrees : ℚ) : ℚ := degrees * (mathPi / 180)

def degrees (radians : ℚ) : ℚ := radians * (180 / mathPi)

def wrap2Pi (x : ℚ) : ℚ := wrapFloating x 0 mTwoPi

def mavRoiNone : ℤ := 0
def mavRoiWpnext : ℤ := 1
def mavRoiWpindex : ℤ := 2
def mavRoiLocation : ℤ := 3

/-- The float-to-integer conversions the mission manager performs. -/
structure FloatConv where
  toInt : IntConv (-2147483648) 2147483647
  toInt16 : IntConv (-32768) 32767
  toUInt16 : IntConv 0 65535

/-- The conversions of a target that saturates. -/
def FloatConv.saturating : FloatConv where
  toInt := .saturate (by decide)
  toInt16 := .saturate (by decide)
  toUInt16 := .saturate (by decide)

@[simp] theorem wrap2Pi_wrap2Pi (x : ℚ) : wrap2Pi (wrap2Pi x) = wrap2Pi x :=
  wrapFloating_wrapFloating (by norm_num [mTwoPi]) x

@[simp] theorem radians_degrees (x : ℚ) : radians (degrees x) = x := by
  have h : mathPi ≠ 0 := by norm_num [mathPi]
  unfold radians degrees
  field_simp

/-! ## Messages -/

/-- A coordinate field of a mission item message: four bytes, a `float` in MISSION_ITEM and an
`int32_t` in MISSION_ITEM_INT. -/
inductive Coord
  | float (v : ℚ)
  | int32 (v : Int32)
  deriving DecidableEq

namespace Coord

/-- The field read as `float`.  The manager reads a field only as what it was written as: the
message handlers set `_int_mode` from the kind of the message first. -/
def asFloat : Coord → ℚ
  | .float v => v
  | .int32 _ => 0

def asInt32 : Coord → Int32
  | .float _ => 0
  | .int32 v => v

end Coord

/-- `mavlink_mission_item_t`; in int mode the same bytes are a `mavlink_mission_item_int_t`. -/
structure MavlinkMissionItem where
  param1 : ℚ := 0
  param2 : ℚ := 0
  param3 : ℚ := 0
  param4 : ℚ := 0
  x : Coord := .float 0
  y : Coord := .float 0
  z : ℚ := 0
  seq : ℕ := 0
  command : MavCmd := .other 0
  frame : MavFrame := .global
  current : Bool := false
  autocontinue : ℕ := 0
  missionType : MavMissionType := .mission
  deriving DecidableEq

/-- `mavlink_mission_item_int_t`. -/
structure MavlinkMissionItemInt where
  param1 : ℚ := 0
  param2 : ℚ := 0
  param3 : ℚ := 0
  param4 : ℚ := 0
  x : Int32 := 0
  y : Int32 := 0
  z : ℚ := 0
  seq : ℕ := 0
  command : MavCmd := .other 0
  frame : MavFrame := .global
  current : Bool := false
  autocontinue : ℕ := 0
  missionType : MavMissionType := .mission
  deriving DecidableEq

/-- The `reinterpret_cast` between the two layouts. -/
def MavlinkMissionItemInt.cast (m : MavlinkMissionItemInt) : MavlinkMissionItem where
  param1 := m.param1
  param2 := m.param2
  param3 := m.param3
  param4 := m.param4
  x := .int32 m.x
  y := .int32 m.y
  z := m.z
  seq := m.seq
  command := m.command
  frame := m.frame
  current := m.current
  autocontinue := m.autocontinue
  missionType := m.missionType

/-! ## Stored items -/

/-- `mission_item_s`.  The seven floats are a union with `params[7]`, the first of them also with
`circle_radius`; `doJumpCurrentCount` is a union with `vertex_count` and `land_precision`. -/
structure MissionItem where
  lat : ℚ := 0
  lon : ℚ := 0
  timeInside : ℚ := 0
  acceptanceRadius : ℚ := 0
  loiterRadius : ℚ := 0
  yaw : ℚ := 0
  latFloat : ℚ := 0
  lonFloat : ℚ := 0
  altitude : ℚ := 0
  navCmd : MavCmd := .other 0
  doJumpMissionIndex : ℤ := 0
  doJumpRepeatCount : ℤ := 0
  doJumpCurrentCount : ℤ := 0
  frame : MavFrame := .global
  origin : Origin := .mavlink
  loiterExitXtrack : Bool := false
  forceHeading : Bool := false
  altitudeIsRelative : Bool := false
  autocontinue : Bool := false
  vtolBackTransition : Bool := false
  deriving DecidableEq

namespace MissionItem

/-- `params[7]`. -/
def params (s : MissionItem) : List ℚ :=
  [s.timeInside, s.acceptanceRadius, s.loiterRadius, s.yaw, s.latFloat, s.lonFloat, s.altitude]

def circleRadius (s : MissionItem) : ℚ := s.timeInside

def vertexCount (s : MissionItem) : ℤ := s.doJumpCurrentCount

def landPrecision (s : MissionItem) : ℤ := s.doJumpCurrentCount

end MissionItem

/-! ## Parsing -/

def isGlobalFrame (intMode : Bool) : MavFrame → Bool
  | .global => true
  | .globalRelativeAlt => true
  -- the two `…_INT` frames are accepted only from a MISSION_ITEM_INT
  | .globalInt => intMode
  | .globalRelativeAltInt => intMode
  | _ => false

/-- The switch over the commands of an item with coordinates. -/
def parseGlobalCommand (conv : FloatConv) (m : MavlinkMissionItem) (item : MissionItem) :
    Except MavMissionResult MissionItem :=
  match m.command with
  | .navWaypoint =>
      .ok { item with
        navCmd := .navWaypoint
        timeInside := m.param1
        acceptanceRadius := m.param2
        yaw := wrap2Pi (radians m.param4) }
  | .navLoiterUnlim =>
      .ok { item with
        navCmd := .navLoiterUnlim
        loiterRadius := m.param3
        yaw := wrap2Pi (radians m.param4) }
  | .navLoiterTime =>
      .ok { item with
        navCmd := .navLoiterTime
        timeInside := m.param1
        -- the heading and the crosstrack flag are both read from `param4`
        forceHeading := decide (m.param2 > 0)
        loiterRadius := m.param3
        loiterExitXtrack := decide (m.param4 > 0)
        yaw := wrap2Pi (radians m.param4) }
  | .navLand =>
      .ok { item with
        navCmd := .navLand
        yaw := wrap2Pi (radians m.param4)
        doJumpCurrentCount := conv.toUInt16 m.param2 }
  | .navTakeoff =>
      .ok { item with
        navCmd := .navTakeoff
        yaw := wrap2Pi (radians m.param4) }
  | .navLoiterToAlt =>
      .ok { item with
        navCmd := .navLoiterToAlt
        forceHeading := decide (m.param1 > 0)
        loiterRadius := m.param2
        loiterExitXtrack := decide (m.param4 > 0) }
  | .navRoi | .doSetRoi =>
      -- `params[0]` of the item, which is a union with `time_inside`, keeps the mode
      if conv.toInt m.param1 = mavRoiLocation then
        .ok { item with
          navCmd := .doSetRoi
          timeInside := mavRoiLocation
          altitude := m.z }
      else if conv.toInt m.param1 = mavRoiNone then
        .ok { item with
          navCmd := .doSetRoi
          timeInside := mavRoiNone }
      else
        .error .invalidParam1
  | .doSetRoiLocation =>
      .ok { item with navCmd := .doSetRoiLocation, altitude := m.z }
  | .navVtolTakeoff | .navVtolLand =>
      .ok { item with navCmd := m.command, yaw := wrap2Pi (radians m.param4) }
  | .conditionGate | .navFenceReturnPoint =>
      .ok { item with navCmd := m.command }
  | .navFencePolygonVertexInclusion | .navFencePolygonVertexExclusion =>
      .ok { item with
        navCmd := m.command
        -- `vertex_count`, rounded to the nearest integer
        doJumpCurrentCount := conv.toUInt16 (m.param1 + 1 / 2) }
  | .navFenceCircleInclusion | .navFenceCircleExclusion =>
      -- `circle_radius`
      .ok { item with navCmd := m.command, timeInside := m.param1 }
  | .navRallyPoint =>
      .ok { item with navCmd := m.command }
  | _ =>
      .error .unsupported

/-- The switch over the commands of an item without coordinates (`MAV_FRAME_MISSION`). -/
def parseMissionCommand (conv : FloatConv) (m : MavlinkMissionItem) (item : MissionItem) :
    Except MavMissionResult MissionItem :=
  match m.command with
  | .doJump =>
      .ok { item with
        navCmd := .doJump
        -- the generic mapping has kept the parameters as floats too
        doJumpMissionIndex := conv.toInt16 m.param1
        doJumpCurrentCount := 0
        doJumpRepeatCount := conv.toUInt16 m.param2 }
  | .navRoi | .doSetRoi =>
      if conv.toInt m.param1 = mavRoiNone ∨ conv.toInt m.param1 = mavRoiWpnext ∨
          conv.toInt m.param1 = mavRoiWpindex then
        .ok { item with navCmd := .doSetRoi }
      else
        .error .invalidParam1
  | .doChangeSpeed | .doSetHome | .doSetServo | .doLandStart | .doTriggerControl
  | .doDigicamControl | .doMountConfigure | .doMountControl | .doGimbalManagerPitchyaw
  | .setCameraFocus | .doGimbalManagerConfigure | .imageStartCapture | .imageStopCapture
  | .videoStartCapture | .videoStopCapture | .doControlVideo | .doSetCamTriggDist
  | .obliqueSurvey | .doSetCamTriggInterval | .setCameraMode | .setCameraZoom
  | .doVtolTransition | .navDelay | .navReturnToLaunch | .doSetRoiWpnextOffset
  | .doSetRoiNone | .conditionDelay | .conditionDistance =>
      .ok { item with navCmd := m.command }
  | _ =>
      .error .unsupported

/-- The fields of an item with coordinates that do not depend on its command. -/
def globalItem (intMode : Bool) (m : MavlinkMissionItem) : MissionItem where
  lat := if intMode then (m.x.asInt32.toInt : ℚ) * 1e-7 else m.x.asFloat
  lon := if intMode then (m.y.asInt32.toInt : ℚ) * 1e-7 else m.y.asFloat
  altitude := m.z
  altitudeIsRelative :=
    decide (m.frame = .globalRelativeAlt) || decide (m.frame = .globalRelativeAltInt)

/-- The generic mapping of an item without coordinates to `params`. -/
def missionFrameItem (intMode : Bool) (m : MavlinkMissionItem) : MissionItem where
  timeInside := m.param1
  acceptanceRadius := m.param2
  loiterRadius := m.param3
  yaw := m.param4
  latFloat := if intMode then (m.x.asInt32.toInt : ℚ) else m.x.asFloat
  lonFloat := if intMode then (m.y.asInt32.toInt : ℚ) else m.y.asFloat
  altitude := m.z

/-- What is set last, after the command was accepted. -/
def finishItem (frame : MavFrame) (m : MavlinkMissionItem) (item : MissionItem) : MissionItem :=
  { item with
    frame := frame
    autocontinue := decide (m.autocontinue % 2 = 1)
    origin := .mavlink }

/-- `parse_mavlink_mission_item`, into an item the caller has zeroed.  An `…_INT` frame is only
looked at in int mode, so the assignment to `_int_mode` in the source never changes it. -/
def parseMavlinkMissionItem (conv : FloatConv) (intMode : Bool) (m : MavlinkMissionItem) :
    Except MavMissionResult MissionItem :=
  if isGlobalFrame intMode m.frame then
    (parseGlobalCommand conv m (globalItem intMode m)).map (finishItem m.frame m)
  else if m.frame = .mission then
    (parseMissionCommand conv m (missionFrameItem intMode m)).map (finishItem .mission m)
  else
    .error .unsupportedFrame

/-! ## Formatting -/

/-- The parameters of an item with coordinates; a command the switch does not name keeps the zeros
written before it and makes the function return `PX4_ERROR`. -/
def formatGlobalCommand (s : MissionItem) (wp : MavlinkMissionItem) : MavlinkMissionItem × Bool :=
  match s.navCmd with
  | .navWaypoint =>
      ({ wp with
        param1 := s.timeInside
        param2 := s.acceptanceRadius
        param4 := degrees s.yaw }, true)
  | .navLoiterUnlim =>
      ({ wp with param3 := s.loiterRadius, param4 := degrees s.yaw }, true)
  | .navLoiterTime =>
      ({ wp with
        param1 := s.timeInside
        -- the heading of a timed loiter is not sent
        param2 := if s.forceHeading then 1 else 0
        param3 := s.loiterRadius
        param4 := if s.loiterExitXtrack then 1 else 0 }, true)
  | .navLand =>
      ({ wp with param2 := s.landPrecision, param4 := degrees s.yaw }, true)
  | .navTakeoff =>
      ({ wp with param4 := degrees s.yaw }, true)
  | .navLoiterToAlt =>
      ({ wp with
        param1 := if s.forceHeading then 1 else 0
        param2 := s.loiterRadius
        param4 := if s.loiterExitXtrack then 1 else 0 }, true)
  | .navVtolTakeoff | .navVtolLand =>
      ({ wp with param4 := degrees s.yaw }, true)
  | .navFenceReturnPoint =>
      (wp, true)
  | .navFencePolygonVertexInclusion | .navFencePolygonVertexExclusion =>
      ({ wp with param1 := s.vertexCount }, true)
  | .navFenceCircleInclusion | .navFenceCircleExclusion =>
      ({ wp with param1 := s.circleRadius }, true)
  | .navRallyPoint =>
      (wp, true)
  | _ =>
      (wp, false)

/-- The commands of an item without coordinates; only a jump changes the generic mapping. -/
def formatMissionCommand (s : MissionItem) (wp : MavlinkMissionItem) : MavlinkMissionItem × Bool :=
  match wp.command with
  | .doJump =>
      ({ wp with param1 := s.doJumpMissionIndex, param2 := s.doJumpRepeatCount }, true)
  | .doChangeSpeed | .doSetHome | .doSetServo | .doLandStart | .doTriggerControl
  | .doDigicamControl | .imageStartCapture | .imageStopCapture | .videoStartCapture
  | .videoStopCapture | .doControlVideo | .doMountConfigure | .doMountControl
  | .doGimbalManagerPitchyaw | .doGimbalManagerConfigure | .doSetRoi | .doSetCamTriggDist
  | .obliqueSurvey | .doSetCamTriggInterval | .setCameraMode | .setCameraZoom | .setCameraFocus
  | .doVtolTransition =>
      (wp, true)
  | _ =>
      (wp, false)

/-- The int32 value a double is assigned to in `item_int->x = round(…)`. -/
def toInt32Coord (conv : FloatConv) (q : ℚ) : Coord :=
  .int32 (Int32.ofInt (conv.toInt (roundAway q)))

/-- The message of an item without coordinates before its command is looked at. -/
def missionFrameMessage (conv : FloatConv) (intMode : Bool) (s : MissionItem) :
    MavlinkMissionItem where
  frame := s.frame
  command := s.navCmd
  autocontinue := if s.autocontinue then 1 else 0
  param1 := s.timeInside
  param2 := s.acceptanceRadius
  param3 := s.loiterRadius
  param4 := s.yaw
  -- `params[4]` and `params[5]` are no positions, and are not scaled
  x := if intMode then toInt32Coord conv s.latFloat else .float s.latFloat
  y := if intMode then toInt32Coord conv s.lonFloat else .float s.lonFloat
  z := s.altitude

/-- The message of an item with coordinates before its command is looked at: no parameters yet. -/
def globalMessage (conv : FloatConv) (intMode : Bool) (s : MissionItem) : MavlinkMissionItem where
  command := s.navCmd
  autocontinue := if s.autocontinue then 1 else 0
  x := if intMode then toInt32Coord conv (s.lat * 1e7) else .float s.lat
  y := if intMode then toInt32Coord conv (s.lon * 1e7) else .float s.lon
  z := s.altitude
  frame :=
    if s.altitudeIsRelative then
      (if intMode then .globalRelativeAltInt else .globalRelativeAlt)
    else
      (if intMode then .globalInt else .global)

/-- `format_mavlink_mission_item`, into a message the caller has zeroed.  The second component is
false when the source returns `PX4_ERROR`; the message is written in either case. -/
def formatMavlinkMissionItem (conv : FloatConv) (intMode : Bool) (s : MissionItem) :
    MavlinkMissionItem × Bool :=
  if s.frame = .mission then
    formatMissionCommand s (missionFrameMessage conv intMode s)
  else
    formatGlobalCommand s (globalMessage conv intMode s)

end Mission
end DtPhm
