import DtPhm.Mission.Item

/-!
# RoundTrip — downloading a mission item and uploading it again

An item accepted from a MISSION_ITEM_INT message is stored, formatted for a download, and parsed
again when the ground station uploads what it downloaded.  The two switches are written separately;
this file says for which messages they are inverse to each other.
-/

namespace DtPhm
namespace Mission

open Lib

/-! ## What has to come back -/

inductive FrameClass
  | absolute
  | relative
  | mission
  | unsupported
  deriving DecidableEq, Repr

def MavFrame.frameClass : MavFrame → FrameClass
  | .global | .globalInt => .absolute
  | .globalRelativeAlt | .globalRelativeAltInt => .relative
  | .mission => .mission
  | .other _ => .unsupported

/-- The region-of-interest mode an item carries, if it is one. -/
def MissionItem.roiMode (s : MissionItem) : Option ℚ :=
  if s.navCmd = .doSetRoi then some s.timeInside else none

/-- Two stored items are the same up to the spelling (`…_INT` or not) of their frame. -/
structure SameItem (s t : MissionItem) : Prop where
  navCmd : t.navCmd = s.navCmd
  frameClass : t.frame.frameClass = s.frame.frameClass
  lat : t.lat = s.lat
  lon : t.lon = s.lon
  altitude : t.altitude = s.altitude
  doJumpMissionIndex : t.doJumpMissionIndex = s.doJumpMissionIndex
  doJumpRepeatCount : t.doJumpRepeatCount = s.doJumpRepeatCount
  vertexCount : t.vertexCount = s.vertexCount
  circleRadius : t.circleRadius = s.circleRadius
  acceptanceRadius : t.acceptanceRadius = s.acceptanceRadius
  loiterRadius : t.loiterRadius = s.loiterRadius
  forceHeading : t.forceHeading = s.forceHeading
  loiterExitXtrack : t.loiterExitXtrack = s.loiterExitXtrack
  roiMode : t.roiMode = s.roiMode
  params : t.params = s.params

/-- The messages that survive the round trip.  A region of interest with a location is downloaded
with mode 0, a timed loiter with its crosstrack flag in place of its heading, and a jump with the
integers its target and count were stored as. -/
def SurvivesDownload (conv : FloatConv) (m : MavlinkMissionItemInt) : Prop :=
  if m.frame = .mission then
    m.command = .doJump →
      (∃ z : ℤ, -32768 ≤ z ∧ z ≤ 32767 ∧ (z : ℚ) = m.param1) ∧
      (∃ z : ℤ, 0 ≤ z ∧ z ≤ 65535 ∧ (z : ℚ) = m.param2)
  else
    (m.command = .navRoi ∨ m.command = .doSetRoi → conv.toInt m.param1 ≠ mavRoiLocation) ∧
    (m.command = .navLoiterTime →
      wrap2Pi (radians (if m.param4 > 0 then 1 else 0)) = wrap2Pi (radians m.param4))

/-! ## The coordinates -/

theorem toInt32Coord_toInt (conv : FloatConv) (x : Int32) :
    toInt32Coord conv (x.toInt : ℚ) = .int32 x := by
  -- an int32 is in range, so the conversion is exact
  have hlo : (-2147483648 : ℤ) ≤ x.toInt := x.le_toInt
  have hhi : x.toInt ≤ 2147483647 := Int.le_of_lt_add_one x.toInt_lt
  rw [toInt32Coord, roundAway_intCast, conv.toInt.apply_intCast hlo hhi, Int32.ofInt_toInt]

theorem toInt32Coord_degrees (conv : FloatConv) (x : Int32) :
    toInt32Coord conv ((x.toInt : ℚ) * 1e-7 * 1e7) = .int32 x := by
  have h : (x.toInt : ℚ) * 1e-7 * 1e7 = (x.toInt : ℚ) := by
    rw [mul_assoc]
    norm_num
  rw [h, toInt32Coord_toInt]

theorem toUInt16_add_half (conv : FloatConv) (q : ℚ) :
    conv.toUInt16 ((conv.toUInt16 q : ℤ) + 1 / 2) = conv.toUInt16 q := by
  -- the stored count is some natural number `n`, and `n + 1/2` truncates to `n`
  obtain ⟨n, hn⟩ := Int.eq_ofNat_of_zero_le (conv.toUInt16.lower q)
  have hhi := conv.toUInt16.upper q
  rw [hn] at hhi ⊢
  have htrunc : truncZero ((n : ℚ) + 1 / 2) = n := truncZero_natCast_add_half n
  have hexact := conv.toUInt16.exact ((n : ℚ) + 1 / 2)
  rw [htrunc] at hexact
  exact_mod_cast hexact (Int.natCast_nonneg n) hhi

@[simp] theorem toInt_zero (conv : FloatConv) : conv.toInt (0 : ℚ) = 0 := by
  simpa using conv.toInt.apply_intCast (z := 0) (by decide) (by decide)

@[simp] theorem flag_pos_iff (p : Prop) [Decidable p] : (0 : ℚ) < (if p then 1 else 0) ↔ p := by
  split <;> simp [*]

/-! ## Items with coordinates -/

theorem formatGlobalCommand_frame_fields (s : MissionItem) (wp : MavlinkMissionItem) :
    (formatGlobalCommand s wp).1.x = wp.x ∧ (formatGlobalCommand s wp).1.y = wp.y ∧
    (formatGlobalCommand s wp).1.z = wp.z ∧ (formatGlobalCommand s wp).1.frame = wp.frame ∧
    (formatGlobalCommand s wp).1.autocontinue = wp.autocontinue := by
  unfold formatGlobalCommand
  split <;> exact ⟨rfl, rfl, rfl, rfl, rfl⟩

variable {conv : FloatConv} {m : MavlinkMissionItem} {base item : MissionItem} {f : MavFrame}
  {wp : MavlinkMissionItem}

/-- The two switches over the commands with coordinates are inverse to each other, except for a
region of interest with a location and for a timed loiter. -/
theorem parseGlobalCommand_format (hitem : parseGlobalCommand conv m base = .ok item)
    (hroi : m.command = .navRoi ∨ m.command = .doSetRoi → conv.toInt m.param1 ≠ mavRoiLocation)
    (hloiter : m.command ≠ .navLoiterTime)
    (hcmd : wp.command = item.navCmd) (hp : wp.param1 = 0) (hz : wp.z = m.z) :
    parseGlobalCommand conv (formatGlobalCommand (finishItem f m item) wp).1 base = .ok item := by
  cases hc : m.command with
  | navLoiterTime =>
      exact absurd hc hloiter
  | navRoi | doSetRoi =>
      -- format writes no mode, and the zero that is there reads as `MAV_ROI_NONE`
      have hloc : conv.toInt m.param1 ≠ mavRoiLocation := hroi (by simp [hc])
      simp only [parseGlobalCommand, hc, if_neg hloc] at hitem
      split at hitem
      · injection hitem with hitem
        subst hitem
        simp [parseGlobalCommand, formatGlobalCommand, finishItem, mavRoiNone, mavRoiLocation,
          hcmd, hp]
      · cases hitem
  | navWaypoint | navLoiterUnlim | navTakeoff | doSetRoiLocation | navVtolTakeoff | navVtolLand
  | conditionGate | navFenceReturnPoint | navFenceCircleInclusion | navFenceCircleExclusion
  | navRallyPoint =>
      simp only [parseGlobalCommand, hc] at hitem
      injection hitem with hitem
      subst hitem
      simp [parseGlobalCommand, formatGlobalCommand, finishItem, MissionItem.circleRadius, hcmd, hz]
  | navLoiterToAlt =>
      simp only [parseGlobalCommand, hc] at hitem
      injection hitem with hitem
      subst hitem
      simp [parseGlobalCommand, formatGlobalCommand, finishItem, hcmd]
  | navLand =>
      simp only [parseGlobalCommand, hc] at hitem
      injection hitem with hitem
      subst hitem
      simp [parseGlobalCommand, formatGlobalCommand, finishItem, MissionItem.landPrecision, hcmd]
  | navFencePolygonVertexInclusion | navFencePolygonVertexExclusion =>
      simp only [parseGlobalCommand, hc] at hitem
      injection hitem with hitem
      subst hitem
      -- the count is rounded once more
      simp [-one_div, parseGlobalCommand, formatGlobalCommand, finishItem,
        MissionItem.vertexCount, toUInt16_add_half, hcmd]
  | _ =>
      simp [parseGlobalCommand, hc] at hitem

/-- A region of interest with a location is parsed as one without when it comes back. -/
theorem parseGlobalCommand_format_roi (hitem : parseGlobalCommand conv m base = .ok item)
    (hcommand : m.command = .navRoi ∨ m.command = .doSetRoi)
    (hloc : conv.toInt m.param1 = mavRoiLocation)
    (hcmd : wp.command = item.navCmd) (hp : wp.param1 = 0) :
    item.navCmd = .doSetRoi ∧ item.timeInside = 3 ∧
      parseGlobalCommand conv (formatGlobalCommand (finishItem f m item) wp).1 base =
        .ok { base with navCmd := .doSetRoi, timeInside := 0 } := by
  -- the switch of format has no case for the command
  have hitem' : item = { base with navCmd := .doSetRoi, timeInside := 3, altitude := m.z } := by
    rcases hcommand with hc | hc
    · simp only [parseGlobalCommand, hc, if_pos hloc] at hitem
      injection hitem with hitem
      simp [← hitem, mavRoiLocation]
    · simp only [parseGlobalCommand, hc, if_pos hloc] at hitem
      injection hitem with hitem
      simp [← hitem, mavRoiLocation]
  subst hitem'
  refine ⟨rfl, rfl, ?_⟩
  simp [parseGlobalCommand, formatGlobalCommand, finishItem, mavRoiNone, mavRoiLocation, hcmd, hp]

theorem parseGlobalCommand_format_loiterTime (hitem : parseGlobalCommand conv m base = .ok item)
    (hc : m.command = .navLoiterTime) (hcmd : wp.command = item.navCmd) :
    item.yaw = wrap2Pi (radians m.param4) ∧
      parseGlobalCommand conv (formatGlobalCommand (finishItem f m item) wp).1 base =
        .ok { item with yaw := wrap2Pi (radians (if m.param4 > 0 then 1 else 0)) } := by
  simp only [parseGlobalCommand, hc] at hitem
  injection hitem with hitem
  subst hitem
  refine ⟨rfl, ?_⟩
  simp [parseGlobalCommand, formatGlobalCommand, finishItem, hcmd]

/-! ## Items without coordinates -/

theorem parseMissionCommand_format (hitem : parseMissionCommand conv m base = .ok item)
    (hjump : m.command ≠ .doJump) (hcmd : wp.command = item.navCmd) (hp : wp.param1 = m.param1) :
    (formatMissionCommand (finishItem f m item) wp).1 = wp ∧
      parseMissionCommand conv wp base = .ok item := by
  cases hc : m.command with
  | doJump =>
      exact absurd hc hjump
  | navRoi | doSetRoi =>
      simp only [parseMissionCommand, hc] at hitem
      split at hitem
      · rename_i hmode
        injection hitem with hitem
        subst hitem
        simp [parseMissionCommand, formatMissionCommand, hcmd, hp, hmode]
      · cases hitem
  | doChangeSpeed | doSetHome | doSetServo | doLandStart | doTriggerControl | doDigicamControl
  | doMountConfigure | doMountControl | doGimbalManagerPitchyaw | setCameraFocus
  | doGimbalManagerConfigure | imageStartCapture | imageStopCapture | videoStartCapture
  | videoStopCapture | doControlVideo | doSetCamTriggDist | obliqueSurvey | doSetCamTriggInterval
  | setCameraMode | setCameraZoom | doVtolTransition | navDelay | navReturnToLaunch
  | doSetRoiWpnextOffset | doSetRoiNone | conditionDelay | conditionDistance =>
      simp only [parseMissionCommand, hc] at hitem
      injection hitem with hitem
      subst hitem
      simp [parseMissionCommand, formatMissionCommand, hcmd]
  | _ =>
      simp [parseMissionCommand, hc] at hitem

theorem parseMissionCommand_fields (hitem : parseMissionCommand conv m base = .ok item) :
    item.params = base.params ∧ item.autocontinue = base.autocontinue := by
  unfold parseMissionCommand at hitem
  repeat' split at hitem
  all_goals first
    | cases hitem
      done
    | injection hitem with hitem
      subst hitem
      exact ⟨rfl, rfl⟩

theorem parseGlobalCommand_fields (hitem : parseGlobalCommand conv m base = .ok item)
    (hz : base.altitude = m.z) :
    item.lat = base.lat ∧ item.lon = base.lon ∧ item.altitude = base.altitude ∧
      item.altitudeIsRelative = base.altitudeIsRelative := by
  unfold parseGlobalCommand at hitem
  repeat' split at hitem
  all_goals first
    | cases hitem
      done
    | injection hitem with hitem
      subst hitem
      exact ⟨rfl, rfl, rfl, rfl⟩
    | injection hitem with hitem
      subst hitem
      exact ⟨rfl, rfl, hz.symm, rfl⟩

/-! ## Assembly -/

theorem sameItem_finishItem {f g : MavFrame} (h : g.frameClass = f.frameClass)
    (m w : MavlinkMissionItem) (item : MissionItem) :
    SameItem (finishItem f m item) (finishItem g w item) where
  navCmd := rfl
  frameClass := h
  lat := rfl
  lon := rfl
  altitude := rfl
  doJumpMissionIndex := rfl
  doJumpRepeatCount := rfl
  vertexCount := rfl
  circleRadius := rfl
  acceptanceRadius := rfl
  loiterRadius := rfl
  forceHeading := rfl
  loiterExitXtrack := rfl
  roiMode := rfl
  params := rfl

/-- The message of a stored position is again at that position, in the same class of frames. -/
theorem globalMessage_position (conv : FloatConv) (m : MavlinkMissionItemInt) {s : MissionItem}
    (hlat : s.lat = (m.x.toInt : ℚ) * 1e-7) (hlon : s.lon = (m.y.toInt : ℚ) * 1e-7) :
    (globalMessage conv true s).x = m.cast.x ∧ (globalMessage conv true s).y = m.cast.y := by
  constructor
  · simp only [globalMessage, if_true, hlat, toInt32Coord_degrees]
    rfl
  · simp only [globalMessage, if_true, hlon, toInt32Coord_degrees]
    rfl

theorem globalMessage_frame (s : MissionItem) :
    (globalMessage conv true s).frame =
      if s.altitudeIsRelative then .globalRelativeAltInt else .globalInt := by
  simp [globalMessage]

/-- What the second parse of an item with coordinates works on: the first parse's position and the
message of the format switch. -/
theorem parse_format_global (m : MavlinkMissionItemInt) (hf : isGlobalFrame true m.frame = true)
    (hitem : parseGlobalCommand conv m.cast (globalItem true m.cast) = .ok item) :
    ∃ w : MavlinkMissionItem, ∃ g : MavFrame, g.frameClass = m.frame.frameClass ∧
      w.command = item.navCmd ∧ w.param1 = 0 ∧ w.z = m.z ∧
      parseMavlinkMissionItem conv true
          (formatMavlinkMissionItem conv true (finishItem m.frame m.cast item)).1 =
        (parseGlobalCommand conv (formatGlobalCommand (finishItem m.frame m.cast item) w).1
          (globalItem true m.cast)).map
            (finishItem g (formatGlobalCommand (finishItem m.frame m.cast item) w).1) := by
  have hne : m.frame ≠ .mission := by
    intro h
    simp [h, isGlobalFrame] at hf
  obtain ⟨hlat, hlon, halt, hrel⟩ := parseGlobalCommand_fields hitem rfl
  -- what matters of the stored item is its position, its frame and its command
  generalize hs : finishItem m.frame m.cast item = s
  have hsframe : s.frame ≠ .mission := by
    rw [← hs]
    exact hne
  have hlat' : s.lat = (m.x.toInt : ℚ) * 1e-7 := by rw [← hs]; exact hlat
  have hlon' : s.lon = (m.y.toInt : ℚ) * 1e-7 := by rw [← hs]; exact hlon
  have halt' : s.altitude = m.z := by rw [← hs]; exact halt
  have hrel' : s.altitudeIsRelative = (globalItem true m.cast).altitudeIsRelative := by
    rw [← hs]; exact hrel
  have hcmd : s.navCmd = item.navCmd := by rw [← hs]; rfl
  obtain ⟨hx, hy, hz, hframe, -⟩ := formatGlobalCommand_frame_fields s (globalMessage conv true s)
  obtain ⟨hmx, hmy⟩ := globalMessage_position conv m hlat' hlon'
  have hmz : (globalMessage conv true s).z = m.cast.z := halt'
  -- so the second parse starts from the same item as the first one
  have hbase : globalItem true (formatGlobalCommand s (globalMessage conv true s)).1 =
      globalItem true m.cast := by
    simp only [globalItem, hx, hy, hz, hframe, hmx, hmy, hmz, globalMessage_frame, hrel']
    congr 1
    cases hfr : m.cast.frame <;> simp
  have hglobal : isGlobalFrame true (globalMessage conv true s).frame = true := by
    rw [globalMessage_frame]
    split <;> rfl
  refine ⟨globalMessage conv true s, (globalMessage conv true s).frame, ?_, hcmd, rfl, halt', ?_⟩
  -- the frame may change its spelling, not its class
  · rw [globalMessage_frame, hrel']
    cases hfr : m.frame with
    | mission =>
        exact absurd hfr hne
    | other c =>
        simp [hfr, isGlobalFrame] at hf
    | _ =>
        simp [globalItem, MavlinkMissionItemInt.cast, hfr, MavFrame.frameClass]
  · have hformat : (formatMavlinkMissionItem conv true s).1 =
        (formatGlobalCommand s (globalMessage conv true s)).1 := by
      rw [formatMavlinkMissionItem, if_neg hsframe]
    rw [hformat, parseMavlinkMissionItem, hframe, if_pos hglobal, hbase]

/-- The generic message of an item without coordinates carries the parameters it was sent with. -/
theorem missionFrameMessage_params (conv : FloatConv) (m : MavlinkMissionItemInt) {s : MissionItem}
    (hparams : s.params = (missionFrameItem true m.cast).params) :
    missionFrameItem true (missionFrameMessage conv true s) = missionFrameItem true m.cast ∧
      (missionFrameMessage conv true s).param1 = m.param1 ∧
      (missionFrameMessage conv true s).param2 = m.param2 := by
  -- parameter by parameter
  simp only [MissionItem.params, missionFrameItem, List.cons.injEq, and_true, if_true] at hparams
  obtain ⟨h0, h1, h2, h3, h4, h5, h6⟩ := hparams
  have hx : (missionFrameMessage conv true s).x = m.cast.x := by
    simp only [missionFrameMessage, if_true, h4]
    exact toInt32Coord_toInt conv m.x
  have hy : (missionFrameMessage conv true s).y = m.cast.y := by
    simp only [missionFrameMessage, if_true, h5]
    exact toInt32Coord_toInt conv m.y
  refine ⟨?_, h0, h1⟩
  simp only [missionFrameItem, hx, hy]
  simp only [missionFrameMessage, h0, h1, h2, h3, h6]

theorem parse_format_jump (m : MavlinkMissionItemInt) (hc : m.command = .doJump)
    (hitem : parseMissionCommand conv m.cast (missionFrameItem true m.cast) = .ok item) :
    ∃ w : MavlinkMissionItem,
      parseMavlinkMissionItem conv true
          (formatMavlinkMissionItem conv true (finishItem .mission m.cast item)).1 =
        .ok (finishItem .mission w { item with
          timeInside := conv.toInt16 m.param1
          acceptanceRadius := conv.toUInt16 m.param2 }) ∧
      item.timeInside = m.param1 ∧ item.acceptanceRadius = m.param2 := by
  have hc' : m.cast.command = .doJump := hc
  simp only [parseMissionCommand, hc'] at hitem
  injection hitem with hitem
  refine ⟨(formatMavlinkMissionItem conv true (finishItem .mission m.cast item)).1, ?_, ?_, ?_⟩
  · subst hitem
    simp [formatMavlinkMissionItem, finishItem, formatMissionCommand, missionFrameMessage,
      parseMavlinkMissionItem, isGlobalFrame, parseMissionCommand, missionFrameItem, Except.map,
      MavlinkMissionItemInt.cast, Coord.asInt32, toInt32Coord_toInt]
  · rw [← hitem]
    rfl
  · rw [← hitem]
    rfl

theorem parse_format_mission (m : MavlinkMissionItemInt) (hjump : m.command ≠ .doJump)
    (hitem : parseMissionCommand conv m.cast (missionFrameItem true m.cast) = .ok item) :
    ∃ w : MavlinkMissionItem,
      parseMavlinkMissionItem conv true
          (formatMavlinkMissionItem conv true (finishItem .mission m.cast item)).1 =
        .ok (finishItem .mission w item) := by
  -- as above, of the stored item only the parameters and the command matter
  generalize hs : finishItem .mission m.cast item = s
  have hsframe : s.frame = .mission := by rw [← hs]; rfl
  have hparams : s.params = (missionFrameItem true m.cast).params := by
    rw [← hs]
    exact (parseMissionCommand_fields hitem).1
  have hcmd : (missionFrameMessage conv true s).command = item.navCmd := by rw [← hs]; rfl
  obtain ⟨hbase, hp, -⟩ := missionFrameMessage_params conv m hparams
  obtain ⟨hformat, hparse⟩ :=
    parseMissionCommand_format (f := .mission) hitem hjump hcmd hp
  rw [hs] at hformat
  refine ⟨missionFrameMessage conv true s, ?_⟩
  have hframe : (missionFrameMessage conv true s).frame = .mission := hsframe
  rw [formatMavlinkMissionItem, if_pos hsframe, hformat, parseMavlinkMissionItem, hframe,
    if_neg (by simp [isGlobalFrame]), if_pos rfl, hbase, hparse]
  rfl

theorem roundTrip_global_iff (m : MavlinkMissionItemInt) (hf : isGlobalFrame true m.frame = true)
    (hitem : parseGlobalCommand conv m.cast (globalItem true m.cast) = .ok item) :
    (∃ t, parseMavlinkMissionItem conv true
        (formatMavlinkMissionItem conv true (finishItem m.frame m.cast item)).1 = .ok t ∧
      SameItem (finishItem m.frame m.cast item) t) ↔
    (m.command = .navRoi ∨ m.command = .doSetRoi → conv.toInt m.param1 ≠ mavRoiLocation) ∧
    (m.command = .navLoiterTime →
      wrap2Pi (radians (if m.param4 > 0 then 1 else 0)) = wrap2Pi (radians m.param4)) := by
  obtain ⟨w, g, hclass, hcmd, hp, hz, hparse⟩ := parse_format_global m hf hitem
  rw [hparse]
  by_cases hroi : (m.command = .navRoi ∨ m.command = .doSetRoi) ∧
      conv.toInt m.param1 = mavRoiLocation
  · obtain ⟨-, htime, hback⟩ :=
      parseGlobalCommand_format_roi (f := m.frame) hitem hroi.1 hroi.2 hcmd hp
    rw [hback]
    constructor
    · rintro ⟨t, ht, hsame⟩
      injection ht with ht
      -- the stored mode is 3, the one that comes back is 0
      have hmode : t.timeInside = item.timeInside := hsame.circleRadius
      rw [← ht, htime] at hmode
      exact absurd hmode (by norm_num [finishItem])
    · rintro ⟨hno, -⟩
      exact absurd hroi.2 (hno hroi.1)
  · have hroi' : m.command = .navRoi ∨ m.command = .doSetRoi →
        conv.toInt m.param1 ≠ mavRoiLocation := fun hc hloc => hroi ⟨hc, hloc⟩
    by_cases hl : m.command = .navLoiterTime
    · obtain ⟨hyaw, hback⟩ := parseGlobalCommand_format_loiterTime (f := m.frame) hitem hl hcmd
      rw [hback]
      constructor
      · rintro ⟨t, ht, hsame⟩
        injection ht with ht
        -- the heading is `params[3]`
        have hparams := hsame.params
        rw [← ht] at hparams
        simp only [MissionItem.params, finishItem, List.cons.injEq] at hparams
        exact ⟨hroi', fun _ => hparams.2.2.2.1.trans hyaw⟩
      · rintro ⟨-, hheading⟩
        refine ⟨_, rfl, ?_⟩
        have heq : wrap2Pi (radians (if m.cast.param4 > 0 then 1 else 0)) = item.yaw :=
          (hheading hl).trans hyaw.symm
        rw [heq]
        exact sameItem_finishItem hclass _ _ _
    · rw [parseGlobalCommand_format hitem hroi' hl hcmd hp hz]
      constructor
      · intro _
        exact ⟨hroi', fun h => absurd h hl⟩
      · intro _
        exact ⟨_, rfl, sameItem_finishItem hclass _ _ _⟩

theorem roundTrip_mission_iff (m : MavlinkMissionItemInt)
    (hitem : parseMissionCommand conv m.cast (missionFrameItem true m.cast) = .ok item) :
    (∃ t, parseMavlinkMissionItem conv true
        (formatMavlinkMissionItem conv true (finishItem .mission m.cast item)).1 = .ok t ∧
      SameItem (finishItem .mission m.cast item) t) ↔
    (m.command = .doJump →
      (∃ z : ℤ, -32768 ≤ z ∧ z ≤ 32767 ∧ (z : ℚ) = m.param1) ∧
      (∃ z : ℤ, 0 ≤ z ∧ z ≤ 65535 ∧ (z : ℚ) = m.param2)) := by
  by_cases hjump : m.command = .doJump
  · obtain ⟨w, hparse, htarget, hcount⟩ := parse_format_jump m hjump hitem
    -- a parameter survives the conversion exactly when it is an integer of the type
    rw [hparse, ← conv.toInt16.cast_apply_eq_iff, ← conv.toUInt16.cast_apply_eq_iff]
    constructor
    · rintro ⟨t, ht, hsame⟩ -
      injection ht with ht
      have hparams := hsame.params
      rw [← ht] at hparams
      simp only [MissionItem.params, finishItem, List.cons.injEq] at hparams
      exact ⟨hparams.1.trans htarget, hparams.2.1.trans hcount⟩
    · intro hint
      obtain ⟨h1, h2⟩ := hint hjump
      refine ⟨_, rfl, ?_⟩
      rw [h1, h2, ← htarget, ← hcount]
      exact sameItem_finishItem rfl _ _ _
  · obtain ⟨w, hparse⟩ := parse_format_mission m hjump hitem
    rw [hparse]
    constructor
    · intro _ h
      exact absurd h hjump
    · intro _
      exact ⟨_, rfl, sameItem_finishItem rfl _ _ _⟩

theorem map_eq_ok {ε α β : Type} {x : Except ε α} {g : α → β} {b : β}
    (h : x.map g = .ok b) : ∃ a, x = .ok a ∧ b = g a := by
  cases x with
  | error e =>
      cases h
  | ok a =>
      injection h with h
      exact ⟨a, rfl, h.symm⟩

/-- Download and upload are inverse to each other exactly on the messages that survive a
download. -/
theorem download_upload_iff_survivesDownload (conv : FloatConv) (m : MavlinkMissionItemInt)
    (s : MissionItem) (haccepted : parseMavlinkMissionItem conv true m.cast = .ok s) :
    (∃ t, parseMavlinkMissionItem conv true (formatMavlinkMissionItem conv true s).1 = .ok t ∧
      SameItem s t) ↔ SurvivesDownload conv m := by
  unfold parseMavlinkMissionItem at haccepted
  split at haccepted
  · rename_i hglobal
    obtain ⟨item, hitem, rfl⟩ := map_eq_ok haccepted
    have hne : m.frame ≠ .mission := by
      intro h
      simp [MavlinkMissionItemInt.cast, h, isGlobalFrame] at hglobal
    rw [SurvivesDownload, if_neg hne]
    -- an item with coordinates
    exact roundTrip_global_iff m hglobal hitem
  · split at haccepted
    · rename_i hmission
      obtain ⟨item, hitem, rfl⟩ := map_eq_ok haccepted
      have hframe : m.frame = .mission := hmission
      rw [SurvivesDownload, if_pos hframe]
      -- an item without
      exact roundTrip_mission_iff m hitem
    -- no other frame is accepted
    · cases haccepted

/-- A waypoint in the relative frame, as a ground station sends it. -/
def sampleWaypoint : MavlinkMissionItemInt where
  command := .navWaypoint
  frame := .globalRelativeAltInt
  param1 := 5
  param2 := 2
  x := 473977418
  y := 85455939
  z := 50

theorem sampleWaypoint_round_trip :
    ∃ s, parseMavlinkMissionItem .saturating true sampleWaypoint.cast = .ok s ∧
      ∃ t, parseMavlinkMissionItem .saturating true
        (formatMavlinkMissionItem .saturating true s).1 = .ok t ∧ SameItem s t := by
  refine ⟨_, rfl, ?_⟩
  refine (download_upload_iff_survivesDownload .saturating sampleWaypoint _ rfl).2 ?_
  simp [SurvivesDownload, sampleWaypoint]

/-- A region of interest at a location, in the global frame. -/
def sampleRoi : MavlinkMissionItemInt where
  command := .doSetRoi
  frame := .globalInt
  param1 := 3
  x := 473977418
  y := 85455939
  z := 500

theorem sampleRoi_lost :
    ∃ s, parseMavlinkMissionItem .saturating true sampleRoi.cast = .ok s ∧
      ¬ ∃ t, parseMavlinkMissionItem .saturating true
        (formatMavlinkMissionItem .saturating true s).1 = .ok t ∧ SameItem s t := by
  have hmode : FloatConv.saturating.toInt (3 : ℚ) = mavRoiLocation := by decide +kernel
  obtain ⟨item, hitem⟩ : ∃ item, parseGlobalCommand .saturating sampleRoi.cast
      (globalItem true sampleRoi.cast) = .ok item := by
    have hcmd : sampleRoi.cast.command = .doSetRoi := rfl
    simp only [parseGlobalCommand, hcmd]
    exact ⟨_, if_pos hmode⟩
  refine ⟨finishItem .globalInt sampleRoi.cast item, ?_, ?_⟩
  · have hglobal : isGlobalFrame true sampleRoi.cast.frame = true := rfl
    rw [parseMavlinkMissionItem, if_pos hglobal, hitem]
    rfl
  · intro hback
    have hsurvives := (roundTrip_global_iff sampleRoi rfl hitem).1 hback
    exact hsurvives.1 (Or.inr rfl) hmode

end Mission
end DtPhm
