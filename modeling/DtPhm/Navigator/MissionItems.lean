import DtPhm.Mission.State

/-!
# MissionItems — how the navigator goes through a mission

The `Mission` mode of the navigator keeps an index into the stored mission.  Items are read with
`read_mission_item`, at the index itself or, for what comes next, at an offset from it; a DO_JUMP is
never returned but followed, up to ten times in one read.  How often a jump was followed is counted
in the stored item, so reading changes what is stored.

* `readMissionItem` — one read, with the loop that follows jumps;
* `prepareMissionItems` — the current item and the two position items after it;
* `advanceMission`, `setCurrentMissionIndex`, `setExecutionMode` — the changes of the index;
* `resetMission` — the jump counters start again.
-/

namespace DtPhm
namespace Navigator

open Dataman (DmItem)
open Mission

/-! ## The state of the mode -/

/-- `MISSION_EXECUTION_MODE`: a byte, of which three values have a name. -/
inductive ExecutionMode
  | normal
  | reverse
  | fastForward
  | other (code : Fin 253)
  deriving DecidableEq, Repr

/-- The members of `Mission` that the functions below use, and the dataman they read and write. -/
structure Nav where
  dm : Store
  mission : MissionState
  currentMissionIndex : ℤ := -1
  missionExecutionMode : ExecutionMode := .normal
  /-- `_mission_type` is `MISSION_TYPE_MISSION`. -/
  missionTypeMission : Bool := false
  /-- `_work_item_type` is `WORK_ITEM_TYPE_DEFAULT`. -/
  workItemDefault : Bool := true

/-- The key the items of the mission are stored under. -/
def Nav.key (s : Nav) : DmItem := s.mission.datamanId.key

/-- What dataman answers during one call: whether the read and the write of the `n`-th round of its
loop succeed.  A write that fails changes nothing. -/
structure Answers where
  readOk : ℕ → Bool := fun _ => true
  writeOk : ℕ → Bool := fun _ => true

/-- What a read reports. -/
inductive Report
  | outOfBound (index : ℤ) (max : ℕ)
  | couldNotBeRead
  | couldNotBeWritten
  | repetitionsCompleted
  | cycling
  /-- `report_do_jump_mission_changed` -/
  | doJumpMissionChanged (index doJumpsRemaining : ℤ)
  deriving DecidableEq, Repr

/-! ## Reading items -/

/-- `item_contains_position`. -/
def itemContainsPosition (item : MissionItem) : Bool :=
  match item.navCmd with
  | .navWaypoint => true
  | .navLoiterUnlim => true
  | .navLoiterTime => true
  | .navLand => true
  | .navTakeoff => true
  | .navLoiterToAlt => true
  | .navVtolTakeoff => true
  | .navVtolLand => true
  -- DO_FOLLOW_REPOSITION
  | .other 33 => true
  | _ => false

/-- The item is a jump. -/
def isJump (item : MissionItem) : Bool := decide (item.navCmd = .doJump)

/-- The jump was not done as often as it is to be done. -/
def hasRepetitions (item : MissionItem) : Bool :=
  decide (item.doJumpCurrentCount < item.doJumpRepeatCount)

/-- The item with another `do_jump_current_count`. -/
def setJumpCount (item : MissionItem) (count : ℤ) : MissionItem :=
  { item with doJumpCurrentCount := count }

@[simp] theorem isJump_setJumpCount (item : MissionItem) (count : ℤ) :
    isJump (setJumpCount item count) = isJump item := rfl

@[simp] theorem setJumpCount_setJumpCount (item : MissionItem) (count count' : ℤ) :
    setJumpCount (setJumpCount item count) count' = setJumpCount item count' := rfl

@[simp] theorem hasRepetitions_setJumpCount (item : MissionItem) (count : ℤ) :
    hasRepetitions (setJumpCount item count) = decide (count < item.doJumpRepeatCount) := rfl

/-- The outcome of the loop: what is stored, the index it has come to, and the item, if any. -/
structure Followed where
  dm : Store
  index : ℤ
  item : Option MissionItem
  reports : List Report := []

def Followed.report (r : Followed) (rs : List Report) : Followed :=
  { r with reports := rs ++ r.reports }

@[simp] theorem Followed.report_dm (r : Followed) (rs : List Report) : (r.report rs).dm = r.dm :=
  rfl

@[simp] theorem Followed.report_index (r : Followed) (rs : List Report) :
    (r.report rs).index = r.index := rfl

@[simp] theorem Followed.report_item (r : Followed) (rs : List Report) :
    (r.report rs).item = r.item := rfl

@[simp] theorem Followed.report_reports (r : Followed) (rs : List Report) :
    (r.report rs).reports = rs ++ r.reports := rfl

/-- The index is one of the mission. -/
def Nav.inBounds (s : Nav) (index : ℤ) : Bool := decide (0 ≤ index ∧ index < s.mission.count)

/-- `dm_read` of an item. -/
def readItem (key : DmItem) (dm : Store) (ok : Bool) (index : ℕ) : Option MissionItem :=
  if ok then
    match dm key index with
    | some (.waypoint item) => some item
    | _ => none
  else
    none

/-- The loop of `read_mission_item`, with `n` rounds to go; `current` says that the offset is
zero. -/
def followJumps (s : Nav) (env : Answers) (current : Bool) : ℕ → Store → ℤ → Followed
  -- we have given up, we don't want to cycle forever
  | 0, dm, index => ⟨dm, index, none, [.cycling]⟩
  | n + 1, dm, index =>
      if s.inBounds index then
        match readItem s.key dm (env.readOk n) index.toNat with
        | none => ⟨dm, index, none, [.couldNotBeRead]⟩
        | some item =>
            if isJump item then
              if hasRepetitions item ∧ s.missionExecutionMode = .normal then
                -- the count is raised for the current item only, not when reading ahead
                if current then
                  if env.writeOk n then
                    (followJumps s env current n
                      (dm.set s.key index.toNat
                        (.waypoint (setJumpCount item (item.doJumpCurrentCount + 1))))
                      item.doJumpMissionIndex).report
                        [.doJumpMissionChanged index item.doJumpRepeatCount]
                  else
                    ⟨dm, index, none, [.couldNotBeWritten]⟩
                else
                  followJumps s env current n dm item.doJumpMissionIndex
              else
                (followJumps s env current n dm
                  (if s.missionExecutionMode = .reverse then index - 1 else index + 1)).report
                    (if current ∧ s.missionExecutionMode = .normal then [.repetitionsCompleted]
                    else [])
            else
              ⟨dm, index, some item, []⟩
      else
        -- if they are equal, we just reached the end
        ⟨dm, index, none,
          if index ≠ s.mission.count ∧ index ≠ -1 then [.outOfBound index s.mission.count] else []⟩

section Rounds

variable {s : Nav} {env : Answers} {current : Bool} {n : ℕ} {dm : Store} {index : ℤ}
  {item : MissionItem}

theorem followJumps_outside (env : Answers) (current : Bool) (n : ℕ) (dm : Store)
    (h : s.inBounds index = false) : (followJumps s env current n dm index).item = none := by
  cases n with
  | zero => rfl
  | succ n =>
      rw [followJumps, h]
      rfl

theorem followJumps_unread (hb : s.inBounds index = true)
    (hr : readItem s.key dm (env.readOk n) index.toNat = none) :
    followJumps s env current (n + 1) dm index = ⟨dm, index, none, [.couldNotBeRead]⟩ := by
  rw [followJumps, if_pos hb, hr]

theorem followJumps_item (hb : s.inBounds index = true)
    (hr : readItem s.key dm (env.readOk n) index.toNat = some item) (hj : isJump item = false) :
    followJumps s env current (n + 1) dm index = ⟨dm, index, some item, []⟩ := by
  rw [followJumps, if_pos hb, hr]
  simp [hj]

theorem followJumps_skip (hb : s.inBounds index = true)
    (hr : readItem s.key dm (env.readOk n) index.toNat = some item) (hj : isJump item = true)
    (hno : ¬(hasRepetitions item = true ∧ s.missionExecutionMode = .normal)) :
    followJumps s env current (n + 1) dm index =
      (followJumps s env current n dm
        (if s.missionExecutionMode = .reverse then index - 1 else index + 1)).report
          (if current ∧ s.missionExecutionMode = .normal then [.repetitionsCompleted] else []) := by
  rw [followJumps, if_pos hb, hr]
  simp only [hj, if_true, if_neg hno]

theorem followJumps_ahead (hb : s.inBounds index = true)
    (hr : readItem s.key dm (env.readOk n) index.toNat = some item) (hj : isJump item = true)
    (hrep : hasRepetitions item = true ∧ s.missionExecutionMode = .normal) :
    followJumps s env false (n + 1) dm index =
      followJumps s env false n dm item.doJumpMissionIndex := by
  rw [followJumps, if_pos hb, hr]
  simp only [hj, if_true, if_pos hrep, Bool.false_eq_true, if_false]

theorem followJumps_current (hb : s.inBounds index = true)
    (hr : readItem s.key dm (env.readOk n) index.toNat = some item) (hj : isJump item = true)
    (hrep : hasRepetitions item = true ∧ s.missionExecutionMode = .normal)
    (hw : env.writeOk n = true) :
    followJumps s env true (n + 1) dm index =
      (followJumps s env true n
        (dm.set s.key index.toNat (.waypoint (setJumpCount item (item.doJumpCurrentCount + 1))))
        item.doJumpMissionIndex).report [.doJumpMissionChanged index item.doJumpRepeatCount] := by
  rw [followJumps, if_pos hb, hr]
  simp only [hj, if_true, if_pos hrep, hw]

theorem followJumps_unwritten (hb : s.inBounds index = true)
    (hr : readItem s.key dm (env.readOk n) index.toNat = some item) (hj : isJump item = true)
    (hrep : hasRepetitions item = true ∧ s.missionExecutionMode = .normal)
    (hw : env.writeOk n = false) :
    followJumps s env true (n + 1) dm index = ⟨dm, index, none, [.couldNotBeWritten]⟩ := by
  rw [followJumps, if_pos hb, hr]
  simp [hj, hrep, hw]

end Rounds

/-- The outcome of `read_mission_item`. -/
structure ReadResult where
  nav : Nav
  item : Option MissionItem
  reports : List Report

/-- `read_mission_item`.  At offset 0 the loop works on `_current_mission_index` itself, so that the
index moves with the jumps also when the read fails. -/
def readMissionItem (env : Answers) (s : Nav) (offset : ℤ) : ReadResult :=
  -- do not work on empty missions
  if s.mission.count = 0 then
    ⟨s, none, []⟩
  else
    let r := followJumps s env (offset = 0) 10 s.dm (s.currentMissionIndex + offset)
    if offset = 0 then
      ⟨{ s with dm := r.dm, currentMissionIndex := r.index }, r.item, r.reports⟩
    else
      ⟨s, r.item, r.reports⟩

theorem readMissionItem_mission (env : Answers) (s : Nav) (offset : ℤ) :
    (readMissionItem env s offset).nav.mission = s.mission := by
  unfold readMissionItem
  dsimp only
  repeat' split
  all_goals rfl

theorem readMissionItem_mode (env : Answers) (s : Nav) (offset : ℤ) :
    (readMissionItem env s offset).nav.missionExecutionMode = s.missionExecutionMode := by
  unfold readMissionItem
  dsimp only
  repeat' split
  all_goals rfl

theorem readMissionItem_item {env : Answers} {s : Nav} {offset : ℤ} (h : s.mission.count ≠ 0) :
    (readMissionItem env s offset).item =
      (followJumps s env (offset = 0) 10 s.dm (s.currentMissionIndex + offset)).item := by
  rw [readMissionItem, if_neg h]
  dsimp only
  split <;> rfl

theorem readMissionItem_item_empty {env : Answers} {s : Nav} {offset : ℤ}
    (h : s.mission.count = 0) : (readMissionItem env s offset).item = none := by
  rw [readMissionItem, if_pos h]

theorem inBounds_of_readMissionItem {env : Answers} {s : Nav} {offset : ℤ} {item : MissionItem}
    (h : (readMissionItem env s offset).item = some item) :
    0 ≤ s.currentMissionIndex + offset ∧ s.currentMissionIndex + offset < s.mission.count := by
  by_contra hout
  have hno : s.inBounds (s.currentMissionIndex + offset) = false := by
    simpa [Nav.inBounds] using hout
  by_cases hcount : s.mission.count = 0
  · rw [readMissionItem_item_empty hcount] at h
    cases h
  · rw [readMissionItem_item hcount, followJumps_outside _ _ _ _ hno] at h
    cases h

/-! ## Reading ahead -/

/-- The offset after `offset`. -/
def Nav.nextOffset (s : Nav) (offset : ℤ) : ℤ :=
  if s.missionExecutionMode = .reverse then offset - 1 else offset + 1

/-- How many items there are from an offset on. -/
def Nav.itemsAhead (s : Nav) (offset : ℤ) : ℕ :=
  if s.missionExecutionMode = .reverse then (s.currentMissionIndex + offset + 1).toNat
  else (s.mission.count - (s.currentMissionIndex + offset)).toNat

theorem Nav.itemsAhead_nextOffset {s : Nav} {offset : ℤ}
    (h : 0 ≤ s.currentMissionIndex + offset ∧ s.currentMissionIndex + offset < s.mission.count) :
    s.itemsAhead (s.nextOffset offset) < s.itemsAhead offset := by
  unfold itemsAhead nextOffset
  split <;> omega

/-- The two loops of `prepare_mission_items`: the first position item from `offset` on, if any, and
the offset to go on with.  Call `n` of `read_mission_item` gets the answers `env n`. -/
def findPosition (env : ℕ → Answers) (s : Nav) (n : ℕ) (offset : ℤ) :
    Option MissionItem × ℕ × ℤ :=
  match _h : (readMissionItem (env n) s offset).item with
  | none => (none, n + 1, offset)
  | some item =>
      if itemContainsPosition item then (some item, n + 1, s.nextOffset offset)
      else findPosition env s (n + 1) (s.nextOffset offset)
termination_by s.itemsAhead offset
decreasing_by exact Nav.itemsAhead_nextOffset (inBounds_of_readMissionItem ‹_›)

/-- What `prepare_mission_items` finds: the current item, and the position items that follow. -/
structure Prepared where
  nav : Nav
  item : Option MissionItem
  nextPosition : Option MissionItem
  afterNextPosition : Option MissionItem

/-- `prepare_mission_items`; `after` says that the item after the next one is asked for. -/
def prepareMissionItems (env : ℕ → Answers) (s : Nav) (after : Bool) : Prepared :=
  let r := readMissionItem (env 0) s 0
  match r.item with
  | none => ⟨r.nav, none, none, none⟩
  | some item =>
      let next := findPosition env r.nav 1
        (if s.missionExecutionMode = .reverse then -1 else 1)
      ⟨r.nav, some item, next.1,
        if s.missionExecutionMode ≠ .reverse ∧ after then
          (findPosition env r.nav next.2.1 next.2.2).1
        else
          none⟩

/-! ## Changes of the index -/

/-- The search of `advance_mission` in reverse order, over the items before `index`; `none` when an
item cannot be read. -/
def positionBefore (key : DmItem) (dm : Store) (env : Answers) : ℕ → Option ℕ
  | 0 => none
  | index + 1 =>
      match readItem key dm (env.readOk index) index with
      | none => none
      | some item =>
          if itemContainsPosition item then some index else positionBefore key dm env index

/-- `advance_mission`. -/
def advanceMission (env : Answers) (s : Nav) : Nav :=
  -- do not advance while a sub mission work item is processed
  if s.workItemDefault = true ∧ s.missionTypeMission = true then
    if s.missionExecutionMode = .reverse then
      match positionBefore s.key s.dm env s.currentMissionIndex.toNat with
      | some index => { s with currentMissionIndex := index }
      -- finished flying back the mission
      | none => { s with currentMissionIndex := -1 }
    else
      { s with currentMissionIndex := s.currentMissionIndex + 1 }
  else
    s

/-- `set_current_mission_index`, without the call of `set_mission_items`; `valid` is the flag of the
mission result. -/
def setCurrentMissionIndex (valid : Bool) (s : Nav) (index : ℕ) : Nav :=
  if valid = true ∧ (index : ℤ) ≠ s.currentMissionIndex ∧ index < s.mission.count then
    { s with currentMissionIndex := index }
  else
    s

/-- `set_execution_mode`, as far as it works on the mission. -/
def setExecutionMode (s : Nav) (mode : ExecutionMode) : Nav :=
  if s.missionExecutionMode = mode then
    s
  else
    let count : ℤ := s.mission.count
    let index := s.currentMissionIndex
    let s' : Nav :=
      match s.missionExecutionMode with
      | .reverse =>
          if mode = .normal ∨ mode = .fastForward then
            -- from reverse to forward
            { s with
              currentMissionIndex :=
                if index < 0 then 0 else if index < count - 1 then index + 1 else index
              workItemDefault := true }
          else
            s
      | .other _ => s
      | _ =>
          if mode = .reverse then
            { s with
              missionTypeMission := s.missionTypeMission || decide (0 < s.mission.count)
              currentMissionIndex :=
                if count - 1 < index then count - 1 else if 0 < index then index - 1 else index
              workItemDefault := true }
          else
            s
    { s' with missionExecutionMode := mode }

/-! ## Reset -/

/-- What dataman answers during `reset_mission`. -/
structure ResetAnswers extends Answers where
  stateReadOk : Bool := true
  stateWriteOk : Bool := true

/-- The loop of `reset_mission` over `n` items, from `index` on. -/
def resetCounters (key : DmItem) (env : Answers) : ℕ → ℕ → Store → Store
  | 0, _, dm => dm
  | n + 1, index, dm =>
      match readItem key dm (env.readOk index) index with
      -- could not read mission item during reset
      | none => dm
      | some item =>
          if isJump item then
            if env.writeOk index then
              resetCounters key env n (index + 1)
                (dm.set key index (.waypoint (setJumpCount item 0)))
            else
              -- could not save mission item during reset
              dm
          else
            resetCounters key env n (index + 1) dm

/-- The mission state as `reset_mission` reads it.  Its key is always one of the two of a
mission. -/
def readState (dm : Store) (ok : Bool) : Option MissionState :=
  if ok then
    match dm .missionState 0 with
    | some (.missionState m) => some m
    | _ => none
  else
    none

/-- `reset_mission`, as it is called on `_mission`. -/
def resetMission (env : ResetAnswers) (s : Nav) : Nav :=
  match readState s.dm env.stateReadOk with
  | none => s
  | some m =>
      -- set current item to 0
      let m' : MissionState := { m with currentSeq := 0 }
      let dm := resetCounters m.datamanId.key env.toAnswers m.count 0 s.dm
      { s with
        mission := m'
        dm := if env.stateWriteOk then dm.set .missionState 0 (.missionState m') else dm }

/-! ## Missions in storage -/

/-- A mission of these items, with the first one as the current item. -/
def navOf (items : List MissionItem) : Nav where
  dm := fun key k =>
    match key with
    | .waypointsOffboard0 => items[k]?.map .waypoint
    | .missionState => if k = 0 then some (.missionState ⟨0, .offboard0, items.length, 0⟩) else none
    | _ => none
  mission := ⟨0, .offboard0, items.length, 0⟩
  currentMissionIndex := 0

def waypointAt (lat : ℚ) : MissionItem := { navCmd := .navWaypoint, lat := lat }

def changeSpeed : MissionItem := { navCmd := .doChangeSpeed }

def jumpTo (index repeatCount : ℤ) : MissionItem :=
  { navCmd := .doJump, doJumpMissionIndex := index, doJumpRepeatCount := repeatCount }

end Navigator
end DtPhm
