import DtPhm.Mission.Manager

/-!
# Moves — what one call can do to a transfer

The handlers read and write much that no transfer depends on: times, error counters, what was sent.
`Transfer` and `Statics` are the members a transfer consists of, and `Move` lists everything that
one call can do to them, with the condition under which it does so.  `run_move` says that every call
is one of these moves; the invariants of the protocol are proved over `Move` and never look at a
handler again.
-/

namespace DtPhm
namespace Mission

open Dataman

/-! ## Views of the state -/

/-- The members of a manager that describe its transfer. -/
structure Transfer where
  state : WpmState
  missionType : MavMissionType
  datamanId : Storage
  count : ℕ
  seq : ℕ
  sysid : ℕ
  compid : ℕ
  locked : Bool

def Manager.transfer (m : Manager) : Transfer where
  state := m.state
  missionType := m.missionType
  datamanId := m.transferDatamanId
  count := m.transferCount
  seq := m.transferSeq
  sysid := m.transferPartnerSysid
  compid := m.transferPartnerCompid
  locked := m.geofenceLocked

/-- The shared members the transfers read and write. -/
structure Statics where
  datamanId : Storage
  countMission : ℕ
  countFence : ℕ
  countRally : ℕ
  inProgress : Bool
  dm : Store
  fenceLock : Bool

def Shared.statics (sh : Shared) : Statics where
  datamanId := sh.datamanId
  countMission := sh.countMission
  countFence := sh.countFence
  countRally := sh.countRally
  inProgress := sh.transferInProgress
  dm := sh.dm
  fenceLock := sh.fenceLock

/-- The transfer after `switch_to_idle_state`. -/
def Transfer.toIdle (x : Transfer) : Transfer := { x with state := .idle, locked := false }

/-- The statics after a manager that held the fence lock or not (`locked`) has switched to idle. -/
def Statics.unlock (st : Statics) (locked : Bool) : Statics :=
  { st with fenceLock := if locked then false else st.fenceLock }

/-- The statics after a manager has given up or completed its upload. -/
def Statics.release (st : Statics) (locked : Bool) : Statics :=
  { st.unlock locked with inProgress := false }

/-! ## Calls that only send -/

def Out.ackType? : Out → Option MavMissionResult
  | .missionAck _ _ type _ => some type
  | _ => none

def Out.requestSeq? : Out → Option ℕ
  | .missionRequest _ _ _ seq _ => some seq
  | _ => none

namespace Ctx

/-- The results of the MISSION_ACKs sent so far. -/
def acks (c : Ctx) : List MavMissionResult := c.out.filterMap Out.ackType?

/-- The sequence numbers of the MISSION_REQUESTs sent so far. -/
def requests (c : Ctx) : List ℕ := c.out.filterMap Out.requestSeq?

/-- The call has changed nothing of the transfers and written nothing. -/
structure Sends (c c' : Ctx) : Prop where
  statics : c'.sh.statics = c.sh.statics
  transfer : c'.m.transfer = c.m.transfer
  writes : c'.writes = c.writes

theorem Sends.refl (c : Ctx) : Sends c c := ⟨rfl, rfl, rfl⟩

theorem Sends.trans {a b c : Ctx} (h : Sends a b) (h' : Sends b c) : Sends a c :=
  ⟨h'.statics.trans h.statics, h'.transfer.trans h.transfer, h'.writes.trans h.writes⟩

variable (cfg : Config) (env : Env) (c : Ctx)

theorem sendStatustext_sends (severity : Severity) (text : String) :
    Sends c (c.sendStatustext severity text) := ⟨rfl, rfl, rfl⟩

theorem ackPartner_sends (type : MavMissionResult) : Sends c (c.ackPartner type) :=
  ⟨rfl, rfl, rfl⟩

theorem touchRecv_sends : Sends c (c.touchRecv env) := ⟨rfl, rfl, rfl⟩

theorem setIntMode_sends (int : Bool) : Sends c (c.setIntMode int) := ⟨rfl, rfl, rfl⟩

theorem filesystemError_sends (text : String) : Sends c (c.filesystemError text) := by
  unfold filesystemError
  dsimp only
  split <;> exact ⟨rfl, rfl, rfl⟩

theorem sendMissionCurrent_sends (seq : ℤ) : Sends c (c.sendMissionCurrent seq) := by
  unfold sendMissionCurrent
  split
  · exact ⟨rfl, rfl, rfl⟩
  · split <;> exact ⟨rfl, rfl, rfl⟩

theorem sendMissionRequest_sends (sysid compid seq : ℕ) :
    Sends c (c.sendMissionRequest cfg env sysid compid seq) := by
  unfold sendMissionRequest
  split <;> exact ⟨rfl, rfl, rfl⟩

theorem requestPartner_sends : Sends c (c.requestPartner cfg env) :=
  sendMissionRequest_sends cfg env c _ _ _

theorem deliverMissionItem_sends (sysid compid seq : ℕ) :
    Sends c (c.deliverMissionItem cfg env sysid compid seq) := by
  unfold deliverMissionItem
  split
  · exact ⟨rfl, rfl, rfl⟩
  · exact (ackPartner_sends c _).trans (filesystemError_sends _ _)

theorem sendMissionItem_sends (sysid compid seq : ℕ) :
    Sends c (c.sendMissionItem cfg env sysid compid seq) := by
  unfold sendMissionItem
  split
  · exact deliverMissionItem_sends cfg env c sysid compid seq
  · exact (sendStatustext_sends c _ _).trans (deliverMissionItem_sends cfg env _ sysid compid seq)

@[simp] theorem acks_mk (sh : Shared) (m : Manager) (ws : List DmWrite) :
    Ctx.acks ⟨sh, m, c.out, ws⟩ = c.acks := rfl

@[simp] theorem acks_emit (o : Out) : (c.emit o).acks = c.acks ++ o.ackType?.toList := by
  cases h : o.ackType? <;> simp [acks, emit, h]

@[simp] theorem acks_sendStatustext (severity : Severity) (text : String) :
    (c.sendStatustext severity text).acks = c.acks := by
  simp [sendStatustext, Out.ackType?]

@[simp] theorem acks_ackPartner (type : MavMissionResult) :
    (c.ackPartner type).acks = c.acks ++ [type] := by
  simp [ackPartner, sendMissionAck, Out.ackType?]

@[simp] theorem acks_filesystemError (text : String) :
    (c.filesystemError text).acks = c.acks := by
  unfold filesystemError
  dsimp only
  split
  · exact acks_sendStatustext _ _ _
  · rfl

@[simp] theorem acks_requestPartner : (c.requestPartner cfg env).acks = c.acks := by
  unfold requestPartner sendMissionRequest
  split
  · simp [emit, acks, Out.ackType?]
  · exact acks_sendStatustext _ _ _

theorem giveUp_statics : c.giveUp.sh.statics = c.sh.statics.release c.m.geofenceLocked :=
  rfl

theorem giveUp_transfer : c.giveUp.m.transfer = c.m.transfer.toIdle := rfl

end Ctx

/-! ## Calls that write the counts -/

/-- The statics after a `dm_write`. -/
def Statics.write (st : Statics) (w : DmWrite) : Statics :=
  if w.ok then { st with dm := st.dm.set w.item w.index w.data } else st

@[simp] theorem write_inProgress (st : Statics) (w : DmWrite) :
    (st.write w).inProgress = st.inProgress := by
  unfold Statics.write
  split <;> rfl

@[simp] theorem write_datamanId (st : Statics) (w : DmWrite) :
    (st.write w).datamanId = st.datamanId := by
  unfold Statics.write
  split <;> rfl

@[simp] theorem write_countMission (st : Statics) (w : DmWrite) :
    (st.write w).countMission = st.countMission := by
  unfold Statics.write
  split <;> rfl

@[simp] theorem write_fenceLock (st : Statics) (w : DmWrite) :
    (st.write w).fenceLock = st.fenceLock := by
  unfold Statics.write
  split <;> rfl

/-- The write of the count of one mission type, with the storage `id` for a mission. -/
def CountWrite (env : Env) (t : MavMissionType) (id : Storage) (n : ℕ) (w : DmWrite) : Prop :=
  w.index = 0 ∧ w.ok = env.writeOk w.item 0 ∧
    match t with
    | .mission => w.item = .missionState ∧
        ∃ s : MissionState, w.data = .missionState s ∧ s.datamanId = id ∧ s.count = n
    | .fence => w.item = .fencePoints ∧ ∃ counter, w.data = .stats ⟨n, counter⟩
    | .rally => w.item = .safePoints ∧ ∃ counter, w.data = .stats ⟨n, counter⟩
    | _ => False

/-- The statics after the count of one mission type was written. -/
def Statics.setCount (st : Statics) (t : MavMissionType) (id : Storage) (n : ℕ) (w : DmWrite) :
    Statics :=
  if w.ok then
    match t with
    | .mission => { st.write w with datamanId := id, countMission := n }
    | .fence => { st.write w with countFence := n }
    | .rally => { st.write w with countRally := n }
    | _ => st
  else
    st

@[simp] theorem setCount_fenceLock (st : Statics) (t : MavMissionType) (id : Storage) (n : ℕ)
    (w : DmWrite) : (st.setCount t id n w).fenceLock = st.fenceLock := by
  unfold Statics.setCount
  split
  · split <;> simp
  · rfl

/-- The outcome of `update_active_mission`, `update_geofence_count` or `update_safepoint_count`. -/
structure Updates (env : Env) (t : MavMissionType) (id : Storage) (n : ℕ) (c : Ctx)
    (r : Ctx × Bool) :
    Prop where
  transfer : r.1.m.transfer = c.m.transfer
  acks : r.1.acks = c.acks
  written : ∃ w, CountWrite env t id n w ∧ w.ok = r.2 ∧ r.1.writes = c.writes ++ [w] ∧
    r.1.sh.statics = c.sh.statics.setCount t id n w

section Updates

variable (env : Env) (c : Ctx)

theorem dmWrite_statics (item : DmItem) (index : ℕ) (data : DmData) :
    (c.dmWrite env item index data).1.sh.statics =
      c.sh.statics.write ⟨item, index, data, env.writeOk item index⟩ := by
  cases h : env.writeOk item index <;> simp [Ctx.dmWrite, Statics.write, Shared.statics, h]

/-- The shape of the three updates: the count is written, and then either the statics follow or an
error is reported. -/
theorem updates_of_dmWrite {t : MavMissionType} {id : Storage} {n : ℕ} {w : DmWrite} {c d : Ctx}
    (f : Ctx → Ctx) (g : Statics → Statics) (text : String) (hw : CountWrite env t id n w)
    (hd : Ctx.Sends c d) (hacks : d.acks = c.acks)
    (hf : ∀ c', (f c').m.transfer = c'.m.transfer ∧ (f c').acks = c'.acks ∧
      (f c').writes = c'.writes ∧ (f c').sh.statics = g c'.sh.statics)
    (hg : ∀ st : Statics, w.ok = true → st.setCount t id n w = g (st.write w)) :
    Updates env t id n c
      (let r := d.dmWrite env w.item w.index w.data
       if r.2 then (f r.1, true) else (r.1.filesystemError text, false)) := by
  have hok : w.ok = env.writeOk w.item w.index := by rw [hw.2.1, hw.1]
  have hwrites : (d.dmWrite env w.item w.index w.data).1.writes = c.writes ++ [w] := by
    show d.writes ++ [_] = _
    rw [hd.writes, ← hok]
  have hbool : (d.dmWrite env w.item w.index w.data).2 = w.ok := hok.symm
  dsimp only
  rw [hbool]
  cases hb : w.ok with
  | true =>
      rcases hf (d.dmWrite env w.item w.index w.data).1 with ⟨hx, ha, hws, hst⟩
      refine ⟨hx.trans hd.transfer, ha.trans hacks, w, hw, hb, hws.trans hwrites, ?_⟩
      rw [if_pos rfl, hst, dmWrite_statics, ← hok, hd.statics, hg _ hb]
  | false =>
      -- a write that fails leaves the statics as they are
      have hfail := Ctx.filesystemError_sends (d.dmWrite env w.item w.index w.data).1 text
      have hkeep : (d.dmWrite env w.item w.index w.data).1.sh.statics = d.sh.statics := by
        rw [dmWrite_statics, ← hok, hb]
        rfl
      refine ⟨hfail.transfer.trans hd.transfer, ?_, w, hw, hb, hfail.writes.trans hwrites, ?_⟩
      · exact (Ctx.acks_filesystemError _ _).trans hacks
      · rw [if_neg (by simp), hfail.statics, hkeep, hd.statics]
        simp [Statics.setCount, hb]

theorem updateActiveMission_updates (id : Storage) (n : ℕ) (seq : ℤ) :
    Updates env .mission id n c (c.updateActiveMission env id n seq) := by
  have hw : CountWrite env .mission id n ⟨.missionState, 0, .missionState ⟨env.now, id, n, seq⟩,
      env.writeOk .missionState 0⟩ := ⟨rfl, rfl, rfl, _, rfl, rfl, rfl⟩
  refine updates_of_dmWrite env (fun c => Ctx.emit { c with
    sh := { c.sh with datamanId := id, countMission := n, currentSeq := seq }
    m := { c.m with myDatamanId := id } } (.offboardMission ⟨env.now, id, n, seq⟩))
    (fun st => { st with datamanId := id, countMission := n })
    "Mission storage: Unable to write to microSD" hw (Ctx.Sends.refl c) rfl ?_ ?_
  · intro c'
    exact ⟨rfl, by simp [Out.ackType?], rfl, rfl⟩
  · intro st hok
    rw [Statics.setCount, if_pos hok]

theorem updateGeofenceCount_updates (id : Storage) (n : ℕ) :
    Updates env .fence id n c (c.updateGeofenceCount env n) := by
  have hw : CountWrite env .fence id n ⟨.fencePoints, 0,
      .stats ⟨n, (c.sh.geofenceUpdateCounter + 1) % 65536⟩, env.writeOk .fencePoints 0⟩ :=
    ⟨rfl, rfl, rfl, _, rfl⟩
  refine updates_of_dmWrite env (fun c => { c with sh := { c.sh with countFence := n } })
    (fun st => { st with countFence := n }) "Mission storage: Unable to write to microSD" hw
    ⟨rfl, rfl, rfl⟩ rfl (fun _ => ⟨rfl, rfl, rfl, rfl⟩) ?_
  intro st hok
  rw [Statics.setCount, if_pos hok]

theorem updateSafepointCount_updates (id : Storage) (n : ℕ) :
    Updates env .rally id n c (c.updateSafepointCount env n) := by
  have hw : CountWrite env .rally id n ⟨.safePoints, 0,
      .stats ⟨n, (c.sh.safepointUpdateCounter + 1) % 65536⟩, env.writeOk .safePoints 0⟩ :=
    ⟨rfl, rfl, rfl, _, rfl⟩
  refine updates_of_dmWrite env (fun c => { c with sh := { c.sh with countRally := n } })
    (fun st => { st with countRally := n }) "Mission storage: Unable to write to microSD" hw
    ⟨rfl, rfl, rfl⟩ rfl (fun _ => ⟨rfl, rfl, rfl, rfl⟩) ?_
  intro st hok
  rw [Statics.setCount, if_pos hok]

end Updates

/-! ## Moves -/

/-- The item message of a call, with the mode its kind selects. -/
def Message.item? (msg : Message) : Option (Bool × MavlinkMissionItem) :=
  match msg.payload with
  | .missionItem wp => some (false, wp)
  | .missionItemInt wp => some (true, wp.cast)
  | _ => none

/-- The call delivers the item the manager waits for. -/
structure Expects (cfg : Config) (m : Manager) (e : Event) (msg : Message) (int : Bool)
    (wp : MavlinkMissionItem) : Prop where
  call : e.call = .handleMessage msg
  item : msg.item? = some (int, wp)
  addressed : checkSysidCompidMission cfg msg = true
  type : wp.missionType = m.missionType
  state : m.state = .getlist
  seq : wp.seq = m.transferSeq

/-- Where an item of a mission type is stored: key, and index. -/
def itemKey (t : MavMissionType) (id : Storage) : DmItem :=
  match t with
  | .fence => .fencePoints
  | .rally => .safePoints
  | _ => id.key

def itemIndex (t : MavMissionType) (seq : ℕ) : ℕ :=
  match t with
  | .fence => seq + 1
  | .rally => seq + 1
  | _ => seq

/-- What an item of a mission type is stored as. -/
def itemData (t : MavMissionType) (item : MissionItem) : DmData :=
  match t with
  | .fence => .fencePoint (Ctx.fencePointOf item)
  | .rally => .safePoint (Ctx.safePointOf item)
  | _ => .waypoint item

/-- The write of the item that was expected. -/
def itemWrite (env : Env) (m : Manager) (item : MissionItem) : DmWrite where
  item := itemKey m.missionType m.transferDatamanId
  index := itemIndex m.missionType m.transferSeq
  data := itemData m.missionType item
  ok := env.writeOk (itemKey m.missionType m.transferDatamanId)
    (itemIndex m.missionType m.transferSeq)

theorem parse_error_ne_accepted {conv : FloatConv} {int : Bool} {wp : MavlinkMissionItem}
    {ret : MavMissionResult} (h : parseMavlinkMissionItem conv int wp = .error ret) :
    ret ≠ .accepted := by
  have hglobal : ∀ item ret', parseGlobalCommand conv wp item = .error ret' → ret' ≠ .accepted := by
    intro item ret' h
    rintro rfl
    unfold parseGlobalCommand at h
    split at h <;> first | (split at h <;> first | (split at h <;> cases h) | cases h) | cases h
  have hmission : ∀ item ret', parseMissionCommand conv wp item = .error ret' →
      ret' ≠ .accepted := by
    intro item ret' h
    rintro rfl
    unfold parseMissionCommand at h
    split at h <;> first | (split at h <;> cases h) | cases h
  unfold parseMavlinkMissionItem at h
  split at h
  · cases hp : parseGlobalCommand conv wp (globalItem int wp) with
    | ok item => simp [hp, Except.map] at h
    | error ret' =>
        have heq : ret' = ret := by simpa [hp, Except.map] using h
        exact heq ▸ hglobal _ _ hp
  split at h
  · cases hp : parseMissionCommand conv wp (missionFrameItem int wp) with
    | ok item => simp [hp, Except.map] at h
    | error ret' =>
        have heq : ret' = ret := by simpa [hp, Except.map] using h
        exact heq ▸ hmission _ _ hp
  · cases h
    decide

/-- The item passes the checks made before it is stored. -/
def itemChecked (t : MavMissionType) (item : MissionItem) : Bool :=
  match t with
  | .mission => !Ctx.isFenceOrRally item.navCmd
  | .fence => !(Ctx.isPolygonVertex item.navCmd && decide (item.vertexCount < 3))
  | _ => true

theorem knownType_of_maxCount_pos {p : Platform} {t : MavMissionType} (h : 0 < maxCount p t) :
    Ctx.knownType t = true := by
  cases t with
  | mission => rfl
  | fence => rfl
  | rally => rfl
  | all => exact absurd h (Nat.lt_irrefl 0)
  | other => exact absurd h (Nat.lt_irrefl 0)

/-- The ways in which the item that was expected is refused: the statics then, and what was
written. -/
inductive ItemFails (cfg : Config) (sh : Shared) (m : Manager) (env : Env) (int : Bool)
    (wp : MavlinkMissionItem) : Statics → List DmWrite → Prop
  | parse {ret : MavMissionResult}
      (hp : parseMavlinkMissionItem cfg.conv int wp = .error ret) :
      ItemFails cfg sh m env int wp sh.statics []
  | missionCheck {item : MissionItem}
      (hp : parseMavlinkMissionItem cfg.conv int wp = .ok item)
      (ht : m.missionType = .mission) (hc : itemChecked m.missionType item = false) :
      ItemFails cfg sh m env int wp sh.statics []
  | fenceCheck {item : MissionItem} {w : DmWrite}
      (hp : parseMavlinkMissionItem cfg.conv int wp = .ok item)
      (ht : m.missionType = .fence) (hc : itemChecked m.missionType item = false)
      (hw : CountWrite env .fence m.transferDatamanId 0 w) :
      ItemFails cfg sh m env int wp (sh.statics.setCount .fence m.transferDatamanId 0 w) [w]
  | write {item : MissionItem}
      (hp : parseMavlinkMissionItem cfg.conv int wp = .ok item)
      (hc : itemChecked m.missionType item = true) (hw : (itemWrite env m item).ok = false) :
      ItemFails cfg sh m env int wp sh.statics [itemWrite env m item]

/-- The item that was expected has been stored. -/
structure Stores (cfg : Config) (m : Manager) (env : Env) (int : Bool) (wp : MavlinkMissionItem)
    (item : MissionItem) : Prop where
  parse : parseMavlinkMissionItem cfg.conv int wp = .ok item
  known : Ctx.knownType m.missionType = true
  checked : itemChecked m.missionType item = true
  ok : (itemWrite env m item).ok = true

/-- What is left when counts have been cleared: no entry but the counts has changed. -/
structure Clears (st st' : Statics) : Prop where
  inProgress : st'.inProgress = st.inProgress
  fenceLock : st'.fenceLock = st.fenceLock
  active : (st'.datamanId = st.datamanId ∧ st'.countMission = st.countMission) ∨
    st'.countMission = 0
  entries : ∀ i k, st'.dm i k = st.dm i k ∨
    (k = 0 ∧ (i = .missionState ∨ i = .fencePoints ∨ i = .safePoints))
  fence : st'.dm .fencePoints 0 = st.dm .fencePoints 0 ∨
    ∃ counter, st'.dm .fencePoints 0 = some (.stats ⟨0, counter⟩)

/-- A write that is not one of a waypoint. -/
def DmWrite.ofCount (w : DmWrite) : Prop :=
  w.item = .missionState ∨ w.item = .fencePoints ∨ w.item = .safePoints

/-- `send` gives up the transfer. -/
def Manager.timesOut (m : Manager) (env : Env) : Bool :=
  !env.iridium && !Ctx.retryDue env ⟨{}, m, [], []⟩ && Ctx.timedOut env ⟨{}, m, [], []⟩

/-- `maybe_completed` of `handle_mission_request_list`. -/
def maybeCompleted (sh : Shared) (m : Manager) : Bool :=
  decide (m.transferSeq = sh.count m.missionType)

/-- What becomes of an item message while the manager receives a list: the last component are the
results of the MISSION_ACKs it is answered with. -/
inductive ItemMove (cfg : Config) (sh : Shared) (m : Manager) (e : Event) (msg : Message)
    (int : Bool) (wp : MavlinkMissionItem) :
    Statics → Transfer → List DmWrite → List MavMissionResult → Prop
  | ignore {as : List MavMissionResult} (has : .accepted ∉ as) :
      ItemMove cfg sh m e msg int wp sh.statics m.transfer [] as
  | refuse {st : Statics} {ws : List DmWrite} {as : List MavMissionResult}
      (hi : Expects cfg m e msg int wp) (hf : ItemFails cfg sh m e.env int wp st ws)
      (has : .accepted ∉ as) :
      ItemMove cfg sh m e msg int wp (st.release m.geofenceLocked) m.transfer.toIdle ws as
  | accept {item : MissionItem}
      (hi : Expects cfg m e msg int wp) (hst : Stores cfg m e.env int wp item)
      (hn : (m.transferSeq + 1) % 65536 ≠ m.transferCount) :
      ItemMove cfg sh m e msg int wp (sh.statics.write (itemWrite e.env m item))
        { m.transfer with seq := (m.transferSeq + 1) % 65536 } [itemWrite e.env m item] []
  | complete {item : MissionItem} {w : DmWrite}
      (hi : Expects cfg m e msg int wp) (hst : Stores cfg m e.env int wp item)
      (hn : (m.transferSeq + 1) % 65536 = m.transferCount)
      (hw : CountWrite e.env m.missionType m.transferDatamanId m.transferCount w) :
      ItemMove cfg sh m e msg int wp
        (((sh.statics.write (itemWrite e.env m item)).setCount m.missionType m.transferDatamanId
          m.transferCount w).release m.geofenceLocked)
        { m.transfer.toIdle with seq := (m.transferSeq + 1) % 65536 }
        [itemWrite e.env m item, w] [if w.ok then .accepted else .error]

/-- Everything one call can do to the statics and to the transfer of its manager, with the dataman
writes it makes. -/
inductive Move (cfg : Config) (sh : Shared) (m : Manager) (e : Event) :
    Statics → Transfer → List DmWrite → Prop
  | quiet : Move cfg sh m e sh.statics m.transfer []
  | retype (t : MavMissionType) (hs : m.state = .idle) :
      Move cfg sh m e sh.statics { m.transfer with missionType := t } []
  | setCurrent {w : DmWrite} (hs : m.state = .idle) (hw : w.item = .missionState) :
      Move cfg sh m e (sh.statics.write w) m.transfer [w]
  | clear {st : Statics} {ws : List DmWrite} (t : MavMissionType) (hs : m.state = .idle)
      (hc : Clears sh.statics st) (hw : ∀ w ∈ ws, w.ofCount) :
      Move cfg sh m e st { m.transfer with missionType := t } ws
  | begin {msg : Message} {n : ℕ} {t : MavMissionType} {x : Transfer}
      (he : e.call = .handleMessage msg) (hp : msg.payload = .missionCount n t)
      (ha : checkSysidCompidMission cfg msg = true) (hs : m.state = .idle)
      (hf : sh.transferInProgress = false) (h0 : 0 < n) (hn : n ≤ maxCount cfg.platform t)
      (hx : x = ⟨.getlist, t, otherStorage sh.datamanId, n, 0, msg.sysid, msg.compid,
        decide (t = .fence ∧ e.env.lockOk = true) || m.geofenceLocked⟩) :
      Move cfg sh m e
        { sh.statics with
          inProgress := true
          fenceLock := decide (t = .fence ∧ e.env.lockOk = true) || sh.fenceLock } x []
  | timeout (he : e.call = .send) (ht : m.timesOut e.env = true) :
      Move cfg sh m e (sh.statics.release m.geofenceLocked) m.transfer.toIdle []
  | cancel {msg : Message} {t : MavMissionType}
      (he : e.call = .handleMessage msg) (hp : msg.payload = .missionAck .operationCancelled t)
      (ha : checkSysidCompidMission cfg msg = true)
      (hq : msg.sysid = m.transferPartnerSysid ∧ msg.compid = m.transferPartnerCompid)
      (hs : m.state = .getlist) :
      Move cfg sh m e (sh.statics.release m.geofenceLocked) m.transfer.toIdle []
  | downloadNext (seq : ℕ) (hs : m.state = .sendlist) :
      Move cfg sh m e sh.statics { m.transfer with seq := seq } []
  | downloadEnd (seq : ℕ) (hs : m.state = .sendlist) :
      Move cfg sh m e (sh.statics.unlock m.geofenceLocked)
        { m.transfer.toIdle with seq := seq } []
  | download {msg : Message} {t : MavMissionType} {x : Transfer} (n nf nr : ℕ)
      (he : e.call = .handleMessage msg) (hp : msg.payload = .missionRequestList t)
      (ha : checkSysidCompidMission cfg msg = true)
      (hs : maybeCompleted sh m = true ∨ m.state ≠ .getlist)
      (hx : x = ⟨.sendlist, t, m.transferDatamanId, n, 0, msg.sysid, msg.compid,
        !maybeCompleted sh m && m.geofenceLocked⟩) :
      Move cfg sh m e
        { sh.statics.unlock (maybeCompleted sh m && m.geofenceLocked) with
          countFence := nf
          countRally := nr } x []
  | item {msg : Message} {int : Bool} {wp : MavlinkMissionItem} {st : Statics} {x : Transfer}
      {ws : List DmWrite} {as : List MavMissionResult} (he : e.call = .handleMessage msg)
      (hp : msg.item? = some (int, wp)) (hs : m.state = .getlist)
      (hk : Ctx.knownType m.missionType = true) (h : ItemMove cfg sh m e msg int wp st x ws as) :
      Move cfg sh m e st x ws
  /-- An item of a type without storage: no upload of such a type is ever begun. -/
  | stray {st : Statics} {x : Transfer} {ws : List DmWrite} (hs : m.state = .getlist)
      (ht : Ctx.knownType m.missionType = false)
      (hx : (st.inProgress = sh.transferInProgress ∧ x.state = .getlist) ∨ st.inProgress = false) :
      Move cfg sh m e st x ws

end Mission
end DtPhm
