import DtPhm.Dataman.Layout
import DtPhm.Mission.Item

/-!
# State — the data of a mission manager, and what it calls

The state of one `MavlinkMissionManager`, the static members all managers share, the messages it
receives and sends, and the small functions of `mavlink_mission.cpp` its handlers are made of.

A handler is a function on `Ctx`: the shared statics, the manager it runs on, and what it has sent
and written so far.  What it asks the system for during one call (the time, whether a dataman
request succeeds, the mission result topic) is the `Env` of that call.
-/

namespace DtPhm
namespace Mission

open Dataman

/-! ## What dataman stores -/

/-- `mission_fence_point_s`; `vertexCount` and `circleRadius` are a union, and `navCmd` says which
of them was written. -/
structure FencePoint where
  lat : ℚ
  lon : ℚ
  alt : ℚ
  vertexCount : ℤ
  circleRadius : ℚ
  navCmd : MavCmd
  frame : MavFrame
  deriving DecidableEq

/-- `mission_safe_point_s`. -/
structure SafePoint where
  lat : ℚ
  lon : ℚ
  alt : ℚ
  frame : MavFrame
  deriving DecidableEq

/-- `mission_stats_entry_s`, the first entry of the fence and of the safe points. -/
structure StatsEntry where
  numItems : ℕ
  updateCounter : ℕ
  deriving DecidableEq

/-- The two keys a mission is stored under, one of them at a time. -/
inductive Storage
  | offboard0
  | offboard1
  deriving DecidableEq, Repr

def Storage.key : Storage → DmItem
  | .offboard0 => .waypointsOffboard0
  | .offboard1 => .waypointsOffboard1

/-- `mission_s`. -/
structure MissionState where
  timestamp : ℕ
  datamanId : Storage
  count : ℕ
  currentSeq : ℤ
  deriving DecidableEq

inductive DmData
  | waypoint (item : MissionItem)
  | fencePoint (p : FencePoint)
  | safePoint (p : SafePoint)
  | stats (s : StatsEntry)
  | missionState (s : MissionState)
  deriving DecidableEq

/-- The entries of dataman, as far as they were written. -/
abbrev Store := DmItem → ℕ → Option DmData

def Store.set (dm : Store) (item : DmItem) (index : ℕ) (data : DmData) : Store :=
  fun i k => if i = item ∧ k = index then some data else dm i k

@[simp] theorem Store.set_same (dm : Store) (item : DmItem) (index : ℕ) (data : DmData) :
    dm.set item index data item index = some data := by
  simp [Store.set]

theorem Store.set_of_item_ne {dm : Store} {item i : DmItem} {index k : ℕ} {data : DmData}
    (h : i ≠ item) : dm.set item index data i k = dm i k := by
  simp [Store.set, h]

theorem Store.set_of_index_ne {dm : Store} {item i : DmItem} {index k : ℕ} {data : DmData}
    (h : k ≠ index) : dm.set item index data i k = dm i k := by
  simp [Store.set, h]

/-- The first `n` of a sequence of entries. -/
def entries (f : ℕ → Option DmData) (n : ℕ) : List (Option DmData) :=
  (List.range n).map f

@[simp] theorem entries_zero (f : ℕ → Option DmData) : entries f 0 = [] := rfl

theorem entries_succ (f : ℕ → Option DmData) (n : ℕ) :
    entries f (n + 1) = entries f n ++ [f n] := by
  simp [entries, List.range_succ]

theorem entries_congr {f g : ℕ → Option DmData} {n : ℕ} (h : ∀ k, k < n → f k = g k) :
    entries f n = entries g n := by
  apply List.map_congr_left
  intro k hk
  exact h k (List.mem_range.mp hk)

theorem entries_set_end (dm : Store) (key : DmItem) (n : ℕ) (data : DmData) :
    entries (dm.set key n data key) (n + 1) = entries (dm key) n ++ [some data] := by
  rw [entries_succ, Store.set_same,
    entries_congr fun k hk => Store.set_of_index_ne (Nat.ne_of_lt hk)]

/-! ## Messages -/

inductive Payload
  | missionAck (type : MavMissionResult) (missionType : MavMissionType)
  | missionSetCurrent (seq : ℕ)
  | missionRequestList (missionType : MavMissionType)
  | missionRequest (seq : ℕ) (missionType : MavMissionType)
  | missionRequestInt (seq : ℕ) (missionType : MavMissionType)
  | missionCount (count : ℕ) (missionType : MavMissionType)
  | missionItem (wp : MavlinkMissionItem)
  | missionItemInt (wp : MavlinkMissionItemInt)
  | missionClearAll (missionType : MavMissionType)
  deriving DecidableEq

structure Message where
  sysid : ℕ
  compid : ℕ
  targetSystem : ℕ
  targetComponent : ℕ
  payload : Payload
  deriving DecidableEq

inductive Severity
  | critical
  | info
  deriving DecidableEq, Repr

/-- What a manager sends over its link, and what it publishes. -/
inductive Out
  | missionAck (sysid compid : ℕ) (type : MavMissionResult) (missionType : MavMissionType)
  | missionCurrent (seq : ℤ)
  | missionCount (sysid compid count : ℕ) (missionType : MavMissionType)
  | missionItem (int : Bool) (sysid compid : ℕ) (wp : MavlinkMissionItem)
  | missionRequest (int : Bool) (sysid compid seq : ℕ) (missionType : MavMissionType)
  | missionItemReached (seq : ℕ)
  | statustext (severity : Severity) (text : String)
  | offboardMission (mission : MissionState)
  deriving DecidableEq

/-! ## The manager -/

/-- `MAVLINK_WPM_STATES`. -/
inductive WpmState
  | idle
  | sendlist
  | getlist
  deriving DecidableEq, Repr

/-- The members of one `MavlinkMissionManager`. -/
structure Manager where
  state : WpmState := .idle
  missionType : MavMissionType := .mission
  timeLastRecv : ℕ := 0
  timeLastSent : ℕ := 0
  reachedSentCount : ℕ := 0
  intMode : Bool := false
  filesystemErrcount : ℕ := 0
  myDatamanId : Storage := .offboard0
  lastReached : ℤ := -1
  transferDatamanId : Storage := .offboard1
  transferCount : ℕ := 0
  transferSeq : ℕ := 0
  transferCurrentSeq : ℤ := -1
  transferPartnerSysid : ℕ := 0
  transferPartnerCompid : ℕ := 0
  geofenceLocked : Bool := false
  slowRateLimiterLastSent : ℕ := 0

/-- The static members of `MavlinkMissionManager`, and the dataman all managers write to. -/
structure Shared where
  datamanId : Storage := .offboard0
  countMission : ℕ := 0
  countFence : ℕ := 0
  countRally : ℕ := 0
  currentSeq : ℤ := 0
  transferInProgress : Bool := false
  geofenceUpdateCounter : ℕ := 0
  safepointUpdateCounter : ℕ := 0
  dm : Store := fun _ _ => none
  /-- The `dm_lock` of `DM_KEY_FENCE_POINTS` is held. -/
  fenceLock : Bool := false

structure MissionResult where
  seqReached : ℤ
  seqCurrent : ℕ
  itemDoJumpChanged : Bool
  itemChangedIndex : ℕ

/-- What the system answers during one call.  A request to dataman that fails changes nothing:
single items are always updated atomically. -/
structure Env where
  now : ℕ := 0
  iridium : Bool := false
  missionResult : Option MissionResult := none
  writeOk : DmItem → ℕ → Bool := fun _ _ => true
  readOk : DmItem → ℕ → Bool := fun _ _ => true
  lockOk : Bool := true

/-- What does not change while the vehicle runs. -/
structure Config where
  sysid : ℕ
  compid : ℕ
  platform : Platform
  conv : FloatConv

/-- A `dm_write` as it was called, and whether it succeeded. -/
structure DmWrite where
  item : DmItem
  index : ℕ
  data : DmData
  ok : Bool
  deriving DecidableEq

structure Ctx where
  sh : Shared
  m : Manager
  out : List Out := []
  writes : List DmWrite := []

/-- `MAV_COMP_ID_MISSIONPLANNER`. -/
def mavCompIdMissionplanner : ℕ := 190

/-- `MAV_COMP_ID_ALL`. -/
def mavCompIdAll : ℕ := 0

/-- `CHECK_SYSID_COMPID_MISSION`. -/
def checkSysidCompidMission (cfg : Config) (msg : Message) : Bool :=
  decide (msg.targetSystem = cfg.sysid) &&
    (decide (msg.targetComponent = cfg.compid) ||
      decide (msg.targetComponent = mavCompIdMissionplanner) ||
      decide (msg.targetComponent = mavCompIdAll))

/-- `FILESYSTEM_ERRCOUNT_NOTIFY_LIMIT`. -/
def filesystemErrcountNotifyLimit : ℕ := 2

/-- `MAVLINK_MISSION_PROTOCOL_TIMEOUT_DEFAULT`. -/
def protocolTimeoutDefault : ℕ := 5000000

/-- `MAVLINK_MISSION_RETRY_TIMEOUT_DEFAULT`. -/
def retryTimeoutDefault : ℕ := 250000

/-- `hrt_elapsed_time`, on 64-bit times. -/
def hrtElapsedTime (now t : ℕ) : ℕ := (now + (2 ^ 64 - t % 2 ^ 64)) % 2 ^ 64

/-- `MAX_COUNT`, which has no entry for the other mission types. -/
def maxCount (p : Platform) : MavMissionType → ℕ
  | .mission => DmItem.perItemMaxIndex p .waypointsOffboard0
  | .fence => DmItem.perItemMaxIndex p .fencePoints - 1
  | .rally => DmItem.perItemMaxIndex p .safePoints - 1
  | _ => 0

/-- `_count`, which has no entry for the other mission types. -/
def Shared.count (sh : Shared) : MavMissionType → ℕ
  | .mission => sh.countMission
  | .fence => sh.countFence
  | .rally => sh.countRally
  | _ => 0

/-- The storage that is not the active one. -/
def otherStorage (id : Storage) : Storage :=
  if id = .offboard0 then .offboard1 else .offboard0

@[simp] theorem otherStorage_ne (id : Storage) : otherStorage id ≠ id := by
  cases id <;> decide

theorem Storage.key_injective : Function.Injective Storage.key := by
  intro a b h
  cases a <;> cases b <;> first | rfl | cases h

theorem maxCount_lt (p : Platform) (t : MavMissionType) : maxCount p t < 65535 := by
  cases t <;> cases p <;>
    simp [maxCount, DmItem.perItemMaxIndex, numMissionsSupported]

/-! ## Calls of the handlers -/

namespace Ctx

variable (cfg : Config) (env : Env) (c : Ctx)

/-- `current_max_item_count`. -/
def currentMaxItemCount : ℕ := maxCount cfg.platform c.m.missionType

/-- `current_item_count`. -/
def currentItemCount : ℕ := c.sh.count c.m.missionType

def emit (o : Out) : Ctx := { c with out := c.out ++ [o] }

def sendStatustext (severity : Severity) (text : String) : Ctx :=
  c.emit (.statustext severity text)

/-- `dm_write`. -/
def dmWrite (item : DmItem) (index : ℕ) (data : DmData) : Ctx × Bool :=
  -- the write is recorded also when it fails
  let ok := env.writeOk item index
  ({ c with
      sh := if ok then { c.sh with dm := c.sh.dm.set item index data } else c.sh
      writes := c.writes ++ [⟨item, index, data, ok⟩] }, ok)

/-- `dm_read`: nothing when it fails, and when the entry was never written. -/
def dmRead (item : DmItem) (index : ℕ) : Option DmData :=
  if env.readOk item index then c.sh.dm item index else none

/-- A file system error is counted, and reported the first times only. -/
def filesystemError (text : String) : Ctx :=
  let c' : Ctx := { c with
    m := { c.m with filesystemErrcount := (c.m.filesystemErrcount + 1) % 2 ^ 32 } }
  if c.m.filesystemErrcount < filesystemErrcountNotifyLimit then
    c'.sendStatustext .critical text
  else
    c'

/-- `update_active_mission`; true stands for `PX4_OK`. -/
def updateActiveMission (datamanId : Storage) (count : ℕ) (seq : ℤ) : Ctx × Bool :=
  let mission : MissionState := ⟨env.now, datamanId, count, seq⟩
  -- the mission state goes first, the statics follow only if it was written
  let (c, ok) := c.dmWrite env .missionState 0 (.missionState mission)
  if ok then
    (emit { c with
      sh := { c.sh with datamanId := datamanId, countMission := count, currentSeq := seq }
      m := { c.m with myDatamanId := datamanId } } (.offboardMission mission), true)
  else
    (c.filesystemError "Mission storage: Unable to write to microSD", false)

/-- `update_geofence_count`. -/
def updateGeofenceCount (count : ℕ) : Ctx × Bool :=
  let counter := (c.sh.geofenceUpdateCounter + 1) % 65536
  let c : Ctx := { c with sh := { c.sh with geofenceUpdateCounter := counter } }
  -- the counter is a static and stays increased when the write fails
  let (c, ok) := c.dmWrite env .fencePoints 0 (.stats ⟨count, counter⟩)
  if ok then
    ({ c with sh := { c.sh with countFence := count } }, true)
  else
    (c.filesystemError "Mission storage: Unable to write to microSD", false)

/-- `update_safepoint_count`. -/
def updateSafepointCount (count : ℕ) : Ctx × Bool :=
  let counter := (c.sh.safepointUpdateCounter + 1) % 65536
  let c : Ctx := { c with sh := { c.sh with safepointUpdateCounter := counter } }
  let (c, ok) := c.dmWrite env .safePoints 0 (.stats ⟨count, counter⟩)
  if ok then
    ({ c with sh := { c.sh with countRally := count } }, true)
  else
    (c.filesystemError "Mission storage: Unable to write to microSD", false)

/-- `load_geofence_stats`. -/
def loadGeofenceStats : Ctx :=
  match c.dmRead env .fencePoints 0 with
  | some (.stats s) =>
      { c with sh := { c.sh with
          countFence := s.numItems
          geofenceUpdateCounter := s.updateCounter } }
  | _ => c

/-- `load_safepoint_stats`. -/
def loadSafepointStats : Ctx :=
  match c.dmRead env .safePoints 0 with
  -- unlike its sibling, this one leaves the update counter alone
  | some (.stats s) => { c with sh := { c.sh with countRally := s.numItems } }
  | _ => c

/-- `send_mission_ack`. -/
def sendMissionAck (sysid compid : ℕ) (type : MavMissionResult) : Ctx :=
  c.emit (.missionAck sysid compid type c.m.missionType)

/-- An acknowledgement for the partner of the last transfer: every one the handlers send. -/
def ackPartner (type : MavMissionResult) : Ctx :=
  c.sendMissionAck c.m.transferPartnerSysid c.m.transferPartnerCompid type

/-- `send_mission_current`. -/
def sendMissionCurrent (seq : ℤ) : Ctx :=
  if seq < c.sh.countMission then
    c.emit (.missionCurrent seq)
  -- no mission, and nothing to report
  else if seq ≤ 0 ∧ c.sh.countMission = 0 then
    c
  else
    c.sendStatustext .critical "ERROR: wp index out of bounds"

/-- `send_mission_count`. -/
def sendMissionCount (sysid compid count : ℕ) (missionType : MavMissionType) : Ctx :=
  { c with m := { c.m with timeLastSent := env.now } }.emit
    (.missionCount sysid compid count missionType)

/-- A fence point as the item it is sent as. -/
def fencePointItem (p : FencePoint) : MissionItem :=
  let item : MissionItem :=
    { navCmd := p.navCmd, frame := p.frame, lat := p.lat, lon := p.lon, altitude := p.alt }
  match p.navCmd with
  | .navFencePolygonVertexInclusion | .navFencePolygonVertexExclusion =>
      -- `vertex_count` and `circle_radius` lie in the union of the item
      { item with doJumpCurrentCount := p.vertexCount }
  | _ => { item with timeInside := p.circleRadius }

/-- A safe point as the item it is sent as. -/
def safePointItem (p : SafePoint) : MissionItem :=
  { navCmd := .navRallyPoint, frame := p.frame, lat := p.lat, lon := p.lon, altitude := p.alt }

/-- The read of `send_mission_item`, from the storage of the current mission type. -/
def readMissionItem (seq : ℕ) : Option MissionItem :=
  match c.m.missionType with
  | .mission =>
      match c.dmRead env c.sh.datamanId.key seq with
      | some (.waypoint item) => some item
      | _ => none
  | .fence =>
      match c.dmRead env .fencePoints (seq + 1) with
      | some (.fencePoint p) => some (fencePointItem p)
      | _ => none
  | .rally =>
      match c.dmRead env .safePoints (seq + 1) with
      | some (.safePoint p) => some (safePointItem p)
      | _ => none
  | _ => none

/-- The mission types `send_mission_item` and `handle_mission_item_both` have a case for. -/
def knownType : MavMissionType → Bool
  | .mission => true
  | .fence => true
  | .rally => true
  | _ => false

/-- `send_mission_item`, once the storage was chosen. -/
def deliverMissionItem (sysid compid seq : ℕ) : Ctx :=
  match c.readMissionItem env seq with
  | some item =>
      let wp := (formatMavlinkMissionItem cfg.conv c.m.intMode item).1
      { c with m := { c.m with timeLastSent := env.now } }.emit
        (.missionItem c.m.intMode sysid compid
          { wp with seq := seq, current := decide (c.sh.currentSeq = seq) })
  | none =>
      (c.ackPartner .error).filesystemError "Mission storage: Unable to read from microSD"

/-- `send_mission_item`. -/
def sendMissionItem (sysid compid seq : ℕ) : Ctx :=
  if knownType c.m.missionType then
    c.deliverMissionItem cfg env sysid compid seq
  else
    -- the text says abort, but nothing was read: the delivery fails below
    (c.sendStatustext .critical "Received unknown mission type, abort.").deliverMissionItem cfg env
      sysid compid seq

/-- `send_mission_request`. -/
def sendMissionRequest (sysid compid seq : ℕ) : Ctx :=
  if seq < c.currentMaxItemCount cfg then
    { c with m := { c.m with timeLastSent := env.now } }.emit
      (.missionRequest c.m.intMode sysid compid seq c.m.missionType)
  else
    c.sendStatustext .critical "ERROR: Waypoint index exceeds list capacity"

/-- The request for the next item of the transfer: every one the handlers send. -/
def requestPartner : Ctx :=
  c.sendMissionRequest cfg env c.m.transferPartnerSysid c.m.transferPartnerCompid c.m.transferSeq

/-- `send_mission_item_reached`. -/
def sendMissionItemReached (seq : ℕ) : Ctx := c.emit (.missionItemReached seq)

/-- `switch_to_idle_state`. -/
def switchToIdleState : Ctx :=
  { c with
    -- only the manager that holds the lock gives it back
    sh := { c.sh with fenceLock := if c.m.geofenceLocked then false else c.sh.fenceLock }
    m := { c.m with geofenceLocked := false, state := .idle } }

/-- `switch_to_idle_state`, and the flag of all managers is dropped. -/
def giveUp : Ctx :=
  let c := c.switchToIdleState
  { c with sh := { c.sh with transferInProgress := false } }

def touchRecv : Ctx := { c with m := { c.m with timeLastRecv := env.now } }

end Ctx

/-! ## Start -/

/-- `init_offboard_mission` of the first manager, over what dataman has stored. -/
def initOffboardMission (env : Env) (dm : Store) : Shared :=
  let sh : Shared := { dm := dm }
  let sh : Shared :=
    match (Ctx.dmRead env ⟨sh, {}, [], []⟩ .missionState 0) with
    | some (.missionState s) =>
        { sh with datamanId := s.datamanId, countMission := s.count, currentSeq := s.currentSeq }
    | _ => sh
  (Ctx.loadSafepointStats env (Ctx.loadGeofenceStats env ⟨sh, {}, [], []⟩)).sh

/-- A manager after its constructor. -/
def initManager (sh : Shared) : Manager := { myDatamanId := sh.datamanId }

end Mission
end DtPhm
