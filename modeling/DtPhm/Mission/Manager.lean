import DtPhm.Mission.State
import Mathlib.Logic.Function.Basic

/-!
# Manager — the handlers of the mission protocol

The message handlers of `MavlinkMissionManager`, its periodic `send` and `check_active_mission`, and
the system of all managers over the statics they share.  The branches stand in the order of
`mavlink_mission.cpp`.
-/

namespace DtPhm
namespace Mission

open Dataman

namespace Ctx

variable (cfg : Config) (env : Env) (msg : Message) (c : Ctx)

/-! ## Acknowledgements and requests -/

def setIntMode (int : Bool) : Ctx := { c with m := { c.m with intMode := int } }

/-- `handle_mission_ack`. -/
def handleMissionAck (type : MavMissionResult) (missionType : MavMissionType) : Ctx :=
  if checkSysidCompidMission cfg msg then
    if msg.sysid = c.m.transferPartnerSysid ∧ msg.compid = c.m.transferPartnerCompid then
      if c.m.state = .sendlist ∧ c.m.missionType = missionType then
        -- whatever the type of the acknowledgement, the download is over
        (c.touchRecv env).switchToIdleState
      else if c.m.state = .getlist then
        if type = .unsupported then
          -- the partner does not know the message: the other of the two request messages
          (c.setIntMode !c.m.intMode).requestPartner cfg env
        else if type = .operationCancelled then
          c.giveUp
        else
          c
      else
        c
    else
      c.sendStatustext .critical "REJ. WP CMD: partner id mismatch"
  else
    c

/-- `handle_mission_set_current`. -/
def handleMissionSetCurrent (seq : ℕ) : Ctx :=
  if checkSysidCompidMission cfg msg then
    if c.m.state = .idle then
      let c := c.touchRecv env
      if seq < c.sh.countMission then
        -- the storage and the count stay, only the current item changes
        let (c, ok) := c.updateActiveMission env c.sh.datamanId c.sh.countMission seq
        if ok then c
        else c.sendStatustext .critical "WPM: WP CURR CMD: Error setting ID"
      else
        c.sendStatustext .critical "WPM: WP CURR CMD: Not in list"
    else
      c.sendStatustext .critical "WPM: IGN WP CURR CMD: Busy"
  else
    c

/-- The item counts a list request brings up to date. -/
def loadStats : Ctx :=
  match c.m.missionType with
  | .fence => c.loadGeofenceStats env
  | .rally => c.loadSafepointStats env
  | _ => c

def enterSendlist (missionType : MavMissionType) : Ctx :=
  { c with m := { c.m with
    timeLastRecv := env.now
    state := .sendlist
    missionType := missionType } }

/-- The transfer of a download is set up, and its count is sent. -/
def announceCount : Ctx :=
  let count := c.currentItemCount
  sendMissionCount env
    { c with m := { c.m with
      transferSeq := 0
      transferCount := count
      transferPartnerSysid := msg.sysid
      transferPartnerCompid := msg.compid } }
    msg.sysid msg.compid count c.m.missionType

/-- The start of a download, once `handle_mission_request_list` has decided on it. -/
def startDownload (missionType : MavMissionType) : Ctx :=
  ((c.enterSendlist env missionType).loadStats env).announceCount env msg

/-- `handle_mission_request_list`. -/
def handleMissionRequestList (missionType : MavMissionType) : Ctx :=
  if checkSysidCompidMission cfg msg then
    -- `maybe_completed`
    let c := if c.m.transferSeq = c.currentItemCount then c.switchToIdleState else c
    if c.m.state = .idle ∨ (c.m.state = .sendlist ∧ c.m.missionType = missionType) then
      c.startDownload env msg missionType
    else
      c.sendStatustext .info "Mission download request ignored, already active"
  else
    c

/-- A request that ends a download. -/
def rejectRequest : Ctx :=
  ((c.switchToIdleState).ackPartner .error).sendStatustext .critical
    "WPM: REJ. CMD: Req. WP was unexpected"

/-- The end of `handle_mission_request_both`: the bounds are checked again, in case the item count
has changed. -/
def answerRequest (seq : ℕ) : Ctx :=
  if seq < c.currentItemCount then
    c.sendMissionItem cfg env c.m.transferPartnerSysid c.m.transferPartnerCompid seq
  else
    c.rejectRequest

/-- `handle_mission_request_both`. -/
def handleMissionRequestBoth (seq : ℕ) (missionType : MavMissionType) : Ctx :=
  if checkSysidCompidMission cfg msg then
    if msg.sysid = c.m.transferPartnerSysid ∧ msg.compid = c.m.transferPartnerCompid then
      match c.m.state with
      | .sendlist =>
          -- a warning in the console, and nothing on the link
          if c.m.missionType ≠ missionType then
            c
          else
            let c := c.touchRecv env
            if seq = c.m.transferSeq ∧ c.m.transferSeq < c.m.transferCount then
              answerRequest cfg env
                { c with m := { c.m with transferSeq := (c.m.transferSeq + 1) % 65536 } } seq
            -- the item before: the partner has not received it
            else if seq + 1 = c.m.transferSeq then
              answerRequest cfg env c seq
            else
              c.rejectRequest
      | .idle => c
      | .getlist => c.sendStatustext .critical "WPM: REJ. CMD: Busy"
    else
      c.sendStatustext .critical "WPM: REJ. CMD: partner id mismatch"
  else
    c

/-- `handle_mission_request` and `handle_mission_request_int`. -/
def handleMissionRequest (int : Bool) (seq : ℕ) (missionType : MavMissionType) : Ctx :=
  (c.setIntMode int).handleMissionRequestBoth cfg env msg seq missionType

/-! ## Uploads -/

/-- The list is cleared: `MISSION_COUNT` with count 0. -/
def clearList : Ctx :=
  match c.m.missionType with
  | .mission => (c.updateActiveMission env (otherStorage c.sh.datamanId) 0 0).1
  | .fence => (c.updateGeofenceCount env 0).1
  | .rally => (c.updateSafepointCount env 0).1
  | _ => c

/-- The start of an upload, once `handle_mission_count` has decided on it. -/
def startUpload (count : ℕ) : Ctx :=
  -- use inactive storage for transmission
  let c : Ctx := { c with m := { c.m with
    state := .getlist
    transferSeq := 0
    transferPartnerSysid := msg.sysid
    transferPartnerCompid := msg.compid
    transferCount := count
    transferDatamanId := otherStorage c.sh.datamanId
    transferCurrentSeq := -1 } }
  -- the lock is released when switching back to idle
  if c.m.missionType = .fence ∧ env.lockOk then
    { c with
      sh := { c.sh with fenceLock := true }
      m := { c.m with geofenceLocked := true } }
  else
    c

def setInProgress (b : Bool) : Ctx := { c with sh := { c.sh with transferInProgress := b } }

/-- `handle_mission_count`. -/
def handleMissionCount (count : ℕ) (missionType : MavMissionType) : Ctx :=
  if checkSysidCompidMission cfg msg then
    match c.m.state with
    | .idle =>
        let c := c.touchRecv env
        if c.sh.transferInProgress then
          c.ackPartner .error
        else
          -- from here on uploads on other links are turned down
          let c := { c with m := { c.m with missionType := missionType } }.setInProgress true
          if count > c.currentMaxItemCount cfg then
            (c.ackPartner .noSpace).setInProgress false
          else if count = 0 then
            ((c.clearList env).ackPartner .accepted).setInProgress false
          else
            (c.startUpload env msg count).requestPartner cfg env
    | .getlist =>
        let c := c.touchRecv env
        if c.m.transferSeq = 0 then
          -- looks like our MISSION_REQUEST was lost, try again
          c.requestPartner cfg env
        else
          (c.sendStatustext .critical "WPM: REJ. CMD: Busy").ackPartner .error
    | .sendlist =>
        (c.sendStatustext .critical "WPM: IGN MISSION_COUNT: Busy").ackPartner .error
  else
    c

def isPolygonVertex : MavCmd → Bool
  | .navFencePolygonVertexInclusion => true
  | .navFencePolygonVertexExclusion => true
  | _ => false

/-- The commands that are refused in a mission. -/
def isFenceOrRally : MavCmd → Bool
  | .navFencePolygonVertexInclusion => true
  | .navFencePolygonVertexExclusion => true
  | .navFenceCircleInclusion => true
  | .navFenceCircleExclusion => true
  | .navRallyPoint => true
  | _ => false

/-- The fence point an item is stored as. -/
def fencePointOf (item : MissionItem) : FencePoint where
  lat := item.lat
  lon := item.lon
  alt := item.altitude
  vertexCount := if isPolygonVertex item.navCmd then item.vertexCount else 0
  circleRadius := if isPolygonVertex item.navCmd then 0 else item.circleRadius
  navCmd := item.navCmd
  frame := item.frame

/-- The safe point an item is stored as. -/
def safePointOf (item : MissionItem) : SafePoint where
  lat := item.lat
  lon := item.lon
  alt := item.altitude
  frame := item.frame

/-- What became of the item: `check_failed`, and `write_failed`. -/
inductive Stored
  | ok
  | writeFailed
  | checkFailed
  deriving DecidableEq, Repr

def storedOf (r : Ctx × Bool) : Ctx × Stored :=
  (r.1, if r.2 then .ok else .writeFailed)

/-- The switch of `handle_mission_item_both` that stores an item. -/
def storeItem (wp : MavlinkMissionItem) (item : MissionItem) : Ctx × Stored :=
  match c.m.missionType with
  | .mission =>
      if isFenceOrRally item.navCmd then
        (c, .checkFailed)
      else
        -- a mission goes to the storage that is not in use
        storedOf (c.dmWrite env c.m.transferDatamanId.key wp.seq (.waypoint item))
  | .fence =>
      -- a polygon that is no polygon: the fence is dropped as well
      if isPolygonVertex item.navCmd ∧ item.vertexCount < 3 then
        ((c.updateGeofenceCount env 0).1, .checkFailed)
      else
        -- entry 0 is the count, so the points start at entry 1
        storedOf (c.dmWrite env .fencePoints (wp.seq + 1) (.fencePoint (fencePointOf item)))
  | .rally =>
      storedOf (c.dmWrite env .safePoints (wp.seq + 1) (.safePoint (safePointOf item)))
  -- neither of the two flags is set, and the transfer goes on
  | _ => (c.sendStatustext .critical "Received unknown mission type, abort.", .ok)

/-- All items are there: the counts are written, and the manager is idle again. -/
def completeUpload : Ctx :=
  let (c, ok) :=
    match c.m.missionType with
    | .mission =>
        c.updateActiveMission env c.m.transferDatamanId c.m.transferCount c.m.transferCurrentSeq
    | .fence => c.updateGeofenceCount env c.m.transferCount
    | .rally => c.updateSafepointCount env c.m.transferCount
    | _ => (c, true)
  let c := c.switchToIdleState
  -- the flag is dropped either way
  (if ok then c.ackPartner .accepted else c.ackPartner .error).setInProgress false

/-- The item that was expected has been stored. -/
def acceptItem (wp : MavlinkMissionItem) : Ctx :=
  let c : Ctx := { c with m := { c.m with
    transferCurrentSeq := if wp.current then (wp.seq : ℤ) else c.m.transferCurrentSeq
    -- a uint16
    transferSeq := (wp.seq + 1) % 65536 } }
  if c.m.transferSeq = c.m.transferCount then
    c.completeUpload env
  else
    c.requestPartner cfg env

/-- `handle_mission_item_both`, from the parse of the item that was expected on. -/
def receiveItem (wp : MavlinkMissionItem) : Ctx :=
  match parseMavlinkMissionItem cfg.conv c.m.intMode wp with
  | .error ret =>
      ((c.sendStatustext .critical "IGN MISSION_ITEM: Invalid item").ackPartner ret).giveUp
  | .ok item =>
      match c.storeItem env wp item with
      | (c, .checkFailed) => (c.ackPartner .error).giveUp
      | (c, .writeFailed) =>
          ((c.ackPartner .error).sendStatustext .critical "Unable to write on micro SD").giveUp
      | (c, .ok) => c.acceptItem cfg env wp

/-- `handle_mission_item_both`. -/
def handleMissionItemBoth (wp : MavlinkMissionItem) : Ctx :=
  if checkSysidCompidMission cfg msg then
    if wp.missionType ≠ c.m.missionType then
      c.ackPartner .error
    else
      match c.m.state with
      | .getlist =>
          let c := c.touchRecv env
          -- an item out of sequence: the one that is missing is requested again
          if wp.seq ≠ c.m.transferSeq then
            c.requestPartner cfg env
          else
            c.receiveItem cfg env wp
      | .idle =>
          if c.m.transferSeq = wp.seq + 1 then
            -- a duplicate: the partner did not receive the last ack
            c.ackPartner .accepted
          else
            (c.sendStatustext .critical "IGN MISSION_ITEM: No transfer").ackPartner .error
      | .sendlist =>
          (c.sendStatustext .critical "IGN MISSION_ITEM: Busy").ackPartner .error
  else
    c

/-- `handle_mission_item` and `handle_mission_item_int`. -/
def handleMissionItem (int : Bool) (wp : MavlinkMissionItem) : Ctx :=
  (c.setIntMode int).handleMissionItemBoth cfg env msg wp

/-- The updates of `handle_mission_clear_all`. -/
def clearType (missionType : MavMissionType) : Ctx × Bool :=
  match missionType with
  | .mission => c.updateActiveMission env (otherStorage c.sh.datamanId) 0 0
  | .fence => c.updateGeofenceCount env 0
  | .rally => c.updateSafepointCount env 0
  | .all =>
      -- `ret` stands after each `||`: all three calls are made
      let r₁ := c.updateActiveMission env (otherStorage c.sh.datamanId) 0 0
      let r₂ := r₁.1.updateGeofenceCount env 0
      let r₃ := r₂.1.updateSafepointCount env 0
      (r₃.1, r₁.2 && r₂.2 && r₃.2)
  | .other _ => (c, true)

/-- `handle_mission_clear_all`. -/
def handleMissionClearAll (missionType : MavMissionType) : Ctx :=
  if checkSysidCompidMission cfg msg then
    if c.m.state = .idle then
      let c : Ctx := { c with m := { c.m with
        timeLastRecv := env.now
        missionType := missionType } }
      let (c, ok) := c.clearType env missionType
      if ok then c.ackPartner .accepted else c.ackPartner .error
    else
      c.sendStatustext .critical "WPM: IGN CLEAR CMD: Busy"
  else
    c

/-- `handle_message`. -/
def handleMessage : Ctx :=
  match msg.payload with
  | .missionAck type missionType => c.handleMissionAck cfg env msg type missionType
  | .missionSetCurrent seq => c.handleMissionSetCurrent cfg env msg seq
  | .missionRequestList missionType => c.handleMissionRequestList cfg env msg missionType
  | .missionRequest seq missionType => c.handleMissionRequest cfg env msg false seq missionType
  | .missionRequestInt seq missionType => c.handleMissionRequest cfg env msg true seq missionType
  | .missionCount count missionType => c.handleMissionCount cfg env msg count missionType
  | .missionItem wp => c.handleMissionItem cfg env msg false wp
  | .missionItemInt wp => c.handleMissionItem cfg env msg true wp.cast
  | .missionClearAll missionType => c.handleMissionClearAll cfg env msg missionType

/-! ## Periodic calls -/

/-- A waypoint that was reached for the first time is reported. -/
def reportReached (seqReached : ℤ) : Ctx :=
  if c.m.lastReached ≠ seqReached then
    let c : Ctx := { c with m := { c.m with lastReached := seqReached, reachedSentCount := 0 } }
    -- the cast to uint16
    if 0 ≤ seqReached then c.sendMissionItemReached (seqReached.toNat % 65536) else c
  else
    c

/-- The item of a jump is sent again, but not during a transfer. -/
def reportDoJump (r : MissionResult) : Ctx :=
  if r.itemDoJumpChanged ∧ c.m.state = .idle then
    sendMissionItem cfg env { c with m := { c.m with missionType := .mission } }
      c.m.transferPartnerSysid c.m.transferPartnerCompid r.itemChangedIndex
  else
    c

/-- The part of `send` that follows a new mission result. -/
def sendMissionResult (r : MissionResult) : Ctx :=
  -- a static: the item becomes the current one for all managers
  let c : Ctx := { c with sh := { c.sh with currentSeq := r.seqCurrent } }
  ((c.reportReached r.seqReached).sendMissionCurrent r.seqCurrent).reportDoJump cfg env r

/-- `MavlinkRateLimiter::check` of the limiter of 10 Hz. -/
def slowRateLimiterCheck : Bool :=
  let dt := hrtElapsedTime env.now c.m.slowRateLimiterLastSent
  decide (0 < dt ∧ 100000 ≤ dt)

/-- The reached message is sent another 10 times. -/
def repeatReached : Ctx :=
  if 0 ≤ c.m.lastReached ∧ c.m.reachedSentCount < 10 then
    { c.sendMissionItemReached (c.m.lastReached.toNat % 65536) with
      m := { c.m with reachedSentCount := (c.m.reachedSentCount + 1) % 256 } }
  else
    c

/-- The part of `send` without a new mission result. -/
def sendSlowly : Ctx :=
  if c.slowRateLimiterCheck env then
    let c : Ctx := { c with m := { c.m with slowRateLimiterLastSent := env.now } }
    (c.sendMissionCurrent c.sh.currentSeq).repeatReached
  else
    c

/-- The next item of an upload is requested again. -/
def retryDue : Bool :=
  decide (c.m.state = .getlist ∧ 0 < c.m.timeLastSent ∧
    retryTimeoutDefault < hrtElapsedTime env.now c.m.timeLastSent)

/-- The transfer is given up. -/
def timedOut : Bool :=
  decide (c.m.state ≠ .idle ∧ 0 < c.m.timeLastRecv ∧
    protocolTimeoutDefault < hrtElapsedTime env.now c.m.timeLastRecv)

/-- The check for timed-out operations at the end of `send`. -/
def checkTimeouts : Ctx :=
  if c.retryDue env then
    c.requestPartner cfg env
  -- only when no request was due: during an upload the retries come first
  else if c.timedOut env then
    (c.sendStatustext .critical "Operation timeout").giveUp
  else if c.m.state = .idle then
    { c with m := { c.m with timeLastSent := 0, timeLastRecv := 0 } }
  else
    c

/-- The reports of `send`: with the mission result topic updated, and without. -/
def sendReports : Ctx :=
  match env.missionResult with
  | some r => c.sendMissionResult cfg env r
  | none => c.sendSlowly env

/-- `send`. -/
def send : Ctx :=
  if env.iridium then
    c
  else
    (c.sendReports cfg env).checkTimeouts cfg env

/-- `check_active_mission`. -/
def checkActiveMission : Ctx :=
  if env.iridium then
    c
  else if c.m.myDatamanId ≠ c.sh.datamanId then
    sendMissionCount env { c with m := { c.m with myDatamanId := c.sh.datamanId } }
      c.m.transferPartnerSysid c.m.transferPartnerCompid c.sh.countMission .mission
  else
    c

end Ctx

/-! ## Steps -/

/-- The calls the receiver thread of a link makes on its manager. -/
inductive Call
  | handleMessage (msg : Message)
  | checkActiveMission
  | send

/-- One call, and what the system answers during it. -/
structure Event where
  env : Env
  call : Call

/-- One call on one manager, with what it sends and writes. -/
def run (cfg : Config) (sh : Shared) (m : Manager) (e : Event) : Ctx :=
  match e.call with
  | .handleMessage msg => Ctx.handleMessage cfg e.env msg ⟨sh, m, [], []⟩
  | .checkActiveMission => Ctx.checkActiveMission e.env ⟨sh, m, [], []⟩
  | .send => Ctx.send cfg e.env ⟨sh, m, [], []⟩

/-- One manager alone: a vehicle with one link. -/
def stepOne (cfg : Config) (p : Shared × Manager) (e : Event) : Shared × Manager :=
  let c := run cfg p.1 p.2 e
  (c.sh, c.m)

/-- The manager after its constructor, over what dataman has stored. -/
def initOne (env : Env) (dm : Store) : Shared × Manager :=
  let sh := initOffboardMission env dm
  (sh, initManager sh)

/-- The managers of all links, and the statics they share. -/
structure Sys (ι : Type) where
  shared : Shared
  inst : ι → Manager

namespace Sys

variable {ι : Type}

/-- All managers after their constructors, over what dataman has stored. -/
def init (env : Env) (dm : Store) : Sys ι :=
  let sh := initOffboardMission env dm
  ⟨sh, fun _ => initManager sh⟩

/-- A call on the manager of one link. -/
def runAt (cfg : Config) (s : Sys ι) (e : ι × Event) : Ctx :=
  run cfg s.shared (s.inst e.1) e.2

def step [DecidableEq ι] (cfg : Config) (s : Sys ι) (e : ι × Event) : Sys ι :=
  let c := s.runAt cfg e
  ⟨c.sh, Function.update s.inst e.1 c.m⟩

end Sys

/-! ## A vehicle, and a ground station -/

/-- The autopilot of vehicle 1. -/
def vehicle : Config where
  sysid := 1
  compid := 1
  platform := .nuttx
  conv := .saturating

/-- A message a ground station sends to the vehicle. -/
def toVehicle (sysid : ℕ) (payload : Payload) : Message where
  sysid := sysid
  compid := mavCompIdMissionplanner
  targetSystem := 1
  targetComponent := 1
  payload := payload

/-- A waypoint of a mission, as a MISSION_ITEM carries it. -/
def waypointAt (seq : ℕ) (z : ℚ) : MavlinkMissionItem where
  command := .navWaypoint
  frame := .global
  x := .float 47
  y := .float 8
  z := z
  seq := seq

/-- The message arrives at time `now`, and all requests to dataman succeed. -/
def arrives (now : ℕ) (msg : Message) : Event := ⟨{ now := now }, .handleMessage msg⟩

end Mission
end DtPhm
