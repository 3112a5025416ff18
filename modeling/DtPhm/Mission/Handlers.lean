import DtPhm.Mission.Moves

/-!
# Handlers — every call on a manager is a move

One lemma for each handler, assembled in `run_move`.
-/

namespace DtPhm
namespace Mission

open Dataman Ctx

variable {cfg : Config} {sh : Shared} {m : Manager} {e : Event}

/-- What the call has come to is a move from `sh` and `m`. -/
def Moves (cfg : Config) (sh : Shared) (m : Manager) (e : Event) (c : Ctx) : Prop :=
  Move cfg sh m e c.sh.statics c.m.transfer c.writes

theorem Moves.of_sends {c c' : Ctx} (h : Moves cfg sh m e c) (hs : Sends c c') :
    Moves cfg sh m e c' := by
  unfold Moves
  rw [hs.statics, hs.transfer, hs.writes]
  exact h

theorem Moves.of_eq {c : Ctx} {st : Statics} {x : Transfer} {ws : List DmWrite}
    (h : Move cfg sh m e st x ws) (hst : c.sh.statics = st) (hx : c.m.transfer = x)
    (hw : c.writes = ws) : Moves cfg sh m e c := by
  subst hst hx hw
  exact h

theorem moves_of_sends {c : Ctx} (hs : Sends ⟨sh, m, [], []⟩ c) : Moves cfg sh m e c :=
  Moves.of_sends (c := ⟨sh, m, [], []⟩) Move.quiet hs

/-! ## Acknowledgements and downloads -/

theorem handleMissionAck_moves {msg : Message} (he : e.call = .handleMessage msg)
    (type : MavMissionResult) (t : MavMissionType) (hp : msg.payload = .missionAck type t) :
    Moves cfg sh m e (handleMissionAck cfg e.env msg ⟨sh, m, [], []⟩ type t) := by
  unfold handleMissionAck
  split
  case isFalse => exact moves_of_sends (Sends.refl _)
  rename_i ha
  split
  case isFalse => exact moves_of_sends (sendStatustext_sends _ _ _)
  rename_i hq
  split
  · rename_i hs
    exact Moves.of_eq (Move.downloadEnd m.transferSeq hs.1) rfl rfl rfl
  · split
    case isFalse => exact moves_of_sends (Sends.refl _)
    rename_i hs
    split
    · exact moves_of_sends ((setIntMode_sends _ _).trans (requestPartner_sends _ _ _))
    · split
      · rename_i hcancel
        subst hcancel
        exact Moves.of_eq (Move.cancel he hp ha hq hs) rfl rfl rfl
      · exact moves_of_sends (Sends.refl _)

theorem handleMissionSetCurrent_moves (msg : Message) (seq : ℕ) :
    Moves cfg sh m e (handleMissionSetCurrent cfg e.env msg ⟨sh, m, [], []⟩ seq) := by
  unfold handleMissionSetCurrent
  split
  case isFalse => exact moves_of_sends (Sends.refl _)
  split
  case isFalse => exact moves_of_sends (sendStatustext_sends _ _ _)
  rename_i hs
  dsimp only
  split
  case isFalse =>
    exact moves_of_sends (Sends.trans (touchRecv_sends _ _) (sendStatustext_sends _ _ _))
  -- the count and the storage are written as they are
  rcases updateActiveMission_updates e.env (touchRecv e.env ⟨sh, m, [], []⟩)
    (touchRecv e.env ⟨sh, m, [], []⟩).sh.datamanId (touchRecv e.env ⟨sh, m, [], []⟩).sh.countMission
    seq with ⟨hx, -, w, hw, -, hws, hst⟩
  have hmove : Moves cfg sh m e (updateActiveMission e.env (touchRecv e.env ⟨sh, m, [], []⟩)
      (touchRecv e.env ⟨sh, m, [], []⟩).sh.datamanId
      (touchRecv e.env ⟨sh, m, [], []⟩).sh.countMission seq).1 := by
    refine Moves.of_eq (Move.setCurrent (w := w) hs hw.2.2.1) ?_ hx hws
    rw [hst]
    cases hb : w.ok <;> simp [Statics.setCount, Statics.write, hb, touchRecv, Shared.statics]
  split
  · exact hmove
  · exact hmove.of_sends (sendStatustext_sends _ _ _)

theorem loadStats_statics (env : Env) (c : Ctx) :
    ∃ nf nr, (c.loadStats env).sh.statics =
      { c.sh.statics with countFence := nf, countRally := nr } ∧
      (c.loadStats env).m = c.m ∧ (c.loadStats env).writes = c.writes := by
  unfold loadStats loadGeofenceStats loadSafepointStats
  split
  · split
    · exact ⟨_, c.sh.countRally, rfl, rfl, rfl⟩
    · exact ⟨c.sh.countFence, c.sh.countRally, rfl, rfl, rfl⟩
  · split
    · exact ⟨c.sh.countFence, _, rfl, rfl, rfl⟩
    · exact ⟨c.sh.countFence, c.sh.countRally, rfl, rfl, rfl⟩
  · exact ⟨c.sh.countFence, c.sh.countRally, rfl, rfl, rfl⟩

theorem startDownload_spec (env : Env) (msg : Message) (c : Ctx) (t : MavMissionType) :
    ∃ n nf nr, (c.startDownload env msg t).sh.statics =
      { c.sh.statics with countFence := nf, countRally := nr } ∧
      (c.startDownload env msg t).m.transfer =
        ⟨.sendlist, t, c.m.transferDatamanId, n, 0, msg.sysid, msg.compid, c.m.geofenceLocked⟩ ∧
      (c.startDownload env msg t).writes = c.writes := by
  rcases loadStats_statics env (c.enterSendlist env t) with ⟨nf, nr, hst, hm, hw⟩
  refine ⟨((c.enterSendlist env t).loadStats env).currentItemCount, nf, nr, hst, ?_, hw⟩
  simp only [startDownload, announceCount, sendMissionCount, emit, Manager.transfer, hm]
  rfl

theorem handleMissionRequestList_moves {msg : Message} (he : e.call = .handleMessage msg)
    (t : MavMissionType) (hp : msg.payload = .missionRequestList t) :
    Moves cfg sh m e (handleMissionRequestList cfg e.env msg ⟨sh, m, [], []⟩ t) := by
  unfold handleMissionRequestList
  split
  case isFalse => exact moves_of_sends (Sends.refl _)
  rename_i ha
  by_cases hmc : m.transferSeq = sh.count m.missionType
  · -- the shortcut: whatever the manager was doing, it is idle now
    have hmb : maybeCompleted sh m = true := by simpa [maybeCompleted] using hmc
    rcases startDownload_spec e.env msg (switchToIdleState ⟨sh, m, [], []⟩) t with
      ⟨n, nf, nr, hst, hx, hw⟩
    have hidle : (switchToIdleState ⟨sh, m, [], []⟩).m.state = .idle := rfl
    simp only [currentItemCount, hmc, if_true, hidle, true_or]
    refine Moves.of_eq (Move.download n nf nr he hp ha (Or.inl hmb) rfl) ?_ ?_ hw
    · rw [hst]
      cases hl : m.geofenceLocked <;>
        simp [switchToIdleState, Shared.statics, Statics.unlock, hmb, hl]
    · rw [hx]
      simp [switchToIdleState, hmb]
  · have hmb : maybeCompleted sh m = false := by simpa [maybeCompleted] using hmc
    simp only [currentItemCount, hmc, if_false]
    split
    case isFalse => exact moves_of_sends (sendStatustext_sends _ _ _)
    rename_i hs
    have hng : m.state ≠ .getlist := by
      rcases hs with hs | ⟨hs, -⟩
      · rw [hs]
        decide
      · rw [hs]
        decide
    rcases startDownload_spec e.env msg ⟨sh, m, [], []⟩ t with ⟨n, nf, nr, hst, hx, hw⟩
    refine Moves.of_eq (Move.download n nf nr he hp ha (Or.inr hng) rfl) ?_ ?_ hw
    · rw [hst]
      simp [Shared.statics, Statics.unlock, hmb]
    · rw [hx]
      simp [hmb]

theorem rejectRequest_moves {c : Ctx} (hs : m.state = .sendlist)
    (hst : c.sh.statics = sh.statics) (hx : ∃ seq, c.m.transfer = { m.transfer with seq := seq })
    (hw : c.writes = []) : Moves cfg sh m e c.rejectRequest := by
  rcases hx with ⟨seq, hx⟩
  have hl : c.m.geofenceLocked = m.geofenceLocked := congrArg Transfer.locked hx
  refine Moves.of_eq (Move.downloadEnd seq hs) ?_ ?_ hw
  · show (c.sh.statics).unlock c.m.geofenceLocked = _
    rw [hst, hl]
  · show c.m.transfer.toIdle = _
    rw [hx]
    rfl

theorem answerRequest_moves {c : Ctx} (seq : ℕ) (hs : m.state = .sendlist)
    (hst : c.sh.statics = sh.statics) (hx : ∃ seq, c.m.transfer = { m.transfer with seq := seq })
    (hw : c.writes = []) : Moves cfg sh m e (c.answerRequest cfg e.env seq) := by
  unfold answerRequest
  split
  · refine Moves.of_sends ?_ (sendMissionItem_sends _ _ _ _ _ _)
    rcases hx with ⟨seq', hx⟩
    exact Moves.of_eq (Move.downloadNext seq' hs) hst hx hw
  · exact rejectRequest_moves hs hst hx hw

theorem handleMissionRequest_moves (msg : Message) (int : Bool) (seq : ℕ) (t : MavMissionType) :
    Moves cfg sh m e (handleMissionRequest cfg e.env msg ⟨sh, m, [], []⟩ int seq t) := by
  have hq : Sends ⟨sh, m, [], []⟩ (setIntMode ⟨sh, m, [], []⟩ int) := setIntMode_sends _ _
  unfold handleMissionRequest handleMissionRequestBoth
  split
  case isFalse => exact moves_of_sends hq
  split
  case isFalse => exact moves_of_sends (hq.trans (sendStatustext_sends _ _ _))
  split
  case h_2 => exact moves_of_sends hq
  case h_3 => exact moves_of_sends (hq.trans (sendStatustext_sends _ _ _))
  rename_i hs
  replace hs : m.state = .sendlist := hs
  split
  case isTrue => exact moves_of_sends hq
  dsimp only
  split
  · exact answerRequest_moves seq hs rfl ⟨_, rfl⟩ rfl
  · split
    · exact answerRequest_moves seq hs rfl ⟨_, rfl⟩ rfl
    · exact rejectRequest_moves hs rfl ⟨_, rfl⟩ rfl

/-! ## Clears -/

theorem Clears.refl (st : Statics) : Clears st st :=
  ⟨rfl, rfl, Or.inl ⟨rfl, rfl⟩, fun _ _ => Or.inl rfl, Or.inl rfl⟩

theorem Clears.trans {a b c : Statics} (h : Clears a b) (h' : Clears b c) : Clears a c where
  inProgress := h'.inProgress.trans h.inProgress
  fenceLock := h'.fenceLock.trans h.fenceLock
  active := by
    rcases h'.active with ⟨hid, hcount⟩ | hzero
    · rcases h.active with ⟨hid', hcount'⟩ | hzero
      · exact Or.inl ⟨hid.trans hid', hcount.trans hcount'⟩
      · exact Or.inr (hcount.trans hzero)
    · exact Or.inr hzero
  entries i k := by
    rcases h'.entries i k with heq | hcount
    · rw [heq]
      exact h.entries i k
    · exact Or.inr hcount
  fence := by
    rcases h'.fence with heq | hzero
    · rw [heq]
      exact h.fence
    · exact Or.inr hzero

theorem CountWrite.ofCount {env : Env} {t : MavMissionType} {id : Storage} {n : ℕ} {w : DmWrite}
    (hw : CountWrite env t id n w) : w.ofCount := by
  rcases hw with ⟨-, -, hw⟩
  cases t with
  | mission => exact Or.inl hw.1
  | fence => exact Or.inr (Or.inl hw.1)
  | rally => exact Or.inr (Or.inr hw.1)
  | all => exact hw.elim
  | other => exact hw.elim

theorem CountWrite.entries {env : Env} {t : MavMissionType} {id : Storage} {n : ℕ} {w : DmWrite}
    (hw : CountWrite env t id n w) (dm : Store) (i : DmItem) (k : ℕ) :
    dm.set w.item w.index w.data i k = dm i k ∨
      (k = 0 ∧ (i = .missionState ∨ i = .fencePoints ∨ i = .safePoints)) := by
  by_cases h : i = w.item ∧ k = w.index
  · right
    rw [h.1]
    exact ⟨h.2.trans hw.1, hw.ofCount⟩
  · exact Or.inl (if_neg h)

theorem clears_setCount {env : Env} {t : MavMissionType} {id : Storage} {w : DmWrite} (st : Statics)
    (hw : CountWrite env t id 0 w) : Clears st (st.setCount t id 0 w) := by
  cases hb : w.ok
  case false =>
    simp only [Statics.setCount, hb]
    exact Clears.refl st
  have hentries := hw.entries st.dm
  rcases hw with ⟨hindex, -, hw⟩
  -- only the count of a mission is one of the statics that matter here, and only the entry of the
  -- fence is looked at
  cases t with
  | mission =>
      rcases hw with ⟨hitem, -⟩
      refine ⟨?_, ?_, Or.inr ?_, ?_, Or.inl ?_⟩ <;>
        simp only [Statics.setCount, Statics.write, hb, if_true]
      · exact hentries
      · exact Store.set_of_item_ne (by simp [hitem])
  | fence =>
      rcases hw with ⟨hitem, counter, hdata⟩
      refine ⟨?_, ?_, Or.inl ⟨?_, ?_⟩, ?_, Or.inr ⟨counter, ?_⟩⟩ <;>
        simp only [Statics.setCount, Statics.write, hb, if_true]
      · exact hentries
      · rw [← hdata, ← hitem, ← hindex]
        exact Store.set_same _ _ _ _
  | rally =>
      rcases hw with ⟨hitem, -⟩
      refine ⟨?_, ?_, Or.inl ⟨?_, ?_⟩, ?_, Or.inl ?_⟩ <;>
        simp only [Statics.setCount, Statics.write, hb, if_true]
      · exact hentries
      · exact Store.set_of_item_ne (by simp [hitem])
  | all => exact hw.elim
  | other => exact hw.elim

/-- Counts have been cleared, and nothing else has happened to the transfers. -/
structure ClearsCtx (c c' : Ctx) : Prop where
  statics : Clears c.sh.statics c'.sh.statics
  transfer : c'.m.transfer = c.m.transfer
  writes : ∃ ws, c'.writes = c.writes ++ ws ∧ ∀ w ∈ ws, w.ofCount

theorem ClearsCtx.refl (c : Ctx) : ClearsCtx c c :=
  ⟨Clears.refl _, rfl, [], by simp, by simp⟩

theorem ClearsCtx.trans {a b c : Ctx} (h : ClearsCtx a b) (h' : ClearsCtx b c) : ClearsCtx a c := by
  rcases h.writes with ⟨ws, hws, hcount⟩
  rcases h'.writes with ⟨ws', hws', hcount'⟩
  refine ⟨h.statics.trans h'.statics, h'.transfer.trans h.transfer, ws ++ ws', ?_, ?_⟩
  · rw [hws', hws, List.append_assoc]
  · intro w hw
    rcases List.mem_append.mp hw with hw | hw
    · exact hcount w hw
    · exact hcount' w hw

theorem Updates.clearsCtx {env : Env} {t : MavMissionType} {id : Storage} {c : Ctx} {r : Ctx × Bool}
    (h : Updates env t id 0 c r) : ClearsCtx c r.1 := by
  rcases h with ⟨hx, -, w, hw, -, hws, hst⟩
  refine ⟨?_, hx, [w], hws, ?_⟩
  · rw [hst]
    exact clears_setCount _ hw
  · intro w' hw'
    rw [List.mem_singleton.mp hw']
    exact hw.ofCount

theorem clearList_clearsCtx (env : Env) (c : Ctx) : ClearsCtx c (c.clearList env) := by
  unfold clearList
  split
  · exact (updateActiveMission_updates env c _ 0 0).clearsCtx
  · exact (updateGeofenceCount_updates env c c.sh.datamanId 0).clearsCtx
  · exact (updateSafepointCount_updates env c c.sh.datamanId 0).clearsCtx
  · exact ClearsCtx.refl c

theorem clearType_clearsCtx (env : Env) (c : Ctx) (t : MavMissionType) :
    ClearsCtx c (c.clearType env t).1 := by
  unfold clearType
  split
  · exact (updateActiveMission_updates env c _ 0 0).clearsCtx
  · exact (updateGeofenceCount_updates env c c.sh.datamanId 0).clearsCtx
  · exact (updateSafepointCount_updates env c c.sh.datamanId 0).clearsCtx
  · exact ((updateActiveMission_updates env c _ 0 0).clearsCtx.trans
      (updateGeofenceCount_updates env _ c.sh.datamanId 0).clearsCtx).trans
      (updateSafepointCount_updates env _ c.sh.datamanId 0).clearsCtx
  · exact ClearsCtx.refl c

/-- A manager that is idle takes another mission type, and then counts are cleared. -/
theorem ClearsCtx.moves {c c' : Ctx} {t : MavMissionType} (h : ClearsCtx c c')
    (hs : m.state = .idle)
    (hst : Clears sh.statics c.sh.statics)
    (hx : c.m.transfer = { m.transfer with missionType := t })
    (hw : c.writes = []) : Moves cfg sh m e c' := by
  rcases h.writes with ⟨ws, hws, hcount⟩
  refine Moves.of_eq (Move.clear t hs (hst.trans h.statics) hcount) rfl (h.transfer.trans hx) ?_
  rw [hws, hw, List.nil_append]

theorem handleMissionClearAll_moves (msg : Message) (t : MavMissionType) :
    Moves cfg sh m e (handleMissionClearAll cfg e.env msg ⟨sh, m, [], []⟩ t) := by
  unfold handleMissionClearAll
  split
  case isFalse => exact moves_of_sends (Sends.refl _)
  split
  case isFalse => exact moves_of_sends (sendStatustext_sends _ _ _)
  rename_i hs
  have hmove : Moves cfg sh m e (clearType e.env ⟨sh, { m with
      timeLastRecv := e.env.now
      missionType := t }, [], []⟩ t).1 :=
    (clearType_clearsCtx e.env _ t).moves hs (Clears.refl sh.statics) rfl rfl
  dsimp only
  split
  · exact hmove.of_sends (ackPartner_sends _ _)
  · exact hmove.of_sends (ackPartner_sends _ _)

/-! ## Uploads -/

theorem startUpload_spec (env : Env) (msg : Message) (c : Ctx) (n : ℕ) :
    (c.startUpload env msg n).sh.statics =
        { c.sh.statics with
          fenceLock := decide (c.m.missionType = .fence ∧ env.lockOk = true) || c.sh.fenceLock } ∧
      (c.startUpload env msg n).m.transfer =
        ⟨.getlist, c.m.missionType, otherStorage c.sh.datamanId, n, 0, msg.sysid, msg.compid,
          decide (c.m.missionType = .fence ∧ env.lockOk = true) || c.m.geofenceLocked⟩ ∧
      (c.startUpload env msg n).writes = c.writes := by
  by_cases h : c.m.missionType = .fence ∧ env.lockOk = true
  · simp [startUpload, h, Shared.statics, Manager.transfer]
  · rw [startUpload]
    simp only [h, if_false, decide_false, Bool.false_or]
    exact ⟨rfl, rfl, trivial⟩

theorem handleMissionCount_moves {msg : Message} (he : e.call = .handleMessage msg) (n : ℕ)
    (t : MavMissionType) (hp : msg.payload = .missionCount n t) :
    Moves cfg sh m e (handleMissionCount cfg e.env msg ⟨sh, m, [], []⟩ n t) := by
  unfold handleMissionCount
  split
  case isFalse => exact moves_of_sends (Sends.refl _)
  rename_i ha
  split
  · rename_i hs
    replace hs : m.state = .idle := hs
    dsimp only
    split
    · exact moves_of_sends ((touchRecv_sends _ _).trans (ackPartner_sends _ _))
    rename_i hf
    replace hf : sh.transferInProgress = false := Bool.eq_false_iff.mpr hf
    -- the flag is raised before the count is looked at, and dropped again with it refused
    have hflag : ∀ c : Ctx, c.m.transfer = { m.transfer with missionType := t } → c.writes = [] →
        c.sh.statics = { sh.statics with inProgress := true } →
        Moves cfg sh m e (c.setInProgress false) := by
      intro c hx hw hst
      refine Moves.of_eq (Move.retype t hs) ?_ hx hw
      show { c.sh.statics with inProgress := false } = _
      rw [hst]
      simp [Shared.statics, hf]
    split
    · exact hflag _ rfl rfl rfl
    split
    · rcases clearList_clearsCtx e.env (setInProgress ⟨sh, { m with
          timeLastRecv := e.env.now
          missionType := t }, [], []⟩ true) with ⟨hst, hx, ws, hws, hcount⟩
      refine Moves.of_eq (Move.clear t hs ?_ hcount) rfl hx hws
      refine ⟨hf.symm, hst.fenceLock, hst.active, hst.entries, hst.fence⟩
    · rename_i hmax h0
      refine Moves.of_sends ?_ (requestPartner_sends _ _ _)
      rcases startUpload_spec e.env msg (setInProgress ⟨sh, { m with
          timeLastRecv := e.env.now
          missionType := t }, [], []⟩ true) n with ⟨hst, hx, hws⟩
      exact Moves.of_eq (Move.begin he hp ha hs hf (Nat.pos_of_ne_zero h0) (Nat.not_lt.mp hmax) rfl)
        hst hx hws
  · dsimp only
    split
    · exact moves_of_sends ((touchRecv_sends _ _).trans (requestPartner_sends _ _ _))
    · exact moves_of_sends (((touchRecv_sends _ _).trans (sendStatustext_sends _ _ _)).trans
        (ackPartner_sends _ _))
  · exact moves_of_sends ((sendStatustext_sends _ _ _).trans (ackPartner_sends _ _))

theorem storedOf_dmWrite (env : Env) (c : Ctx) (w : DmWrite)
    (hw : w.ok = env.writeOk w.item w.index) :
    ∃ c', storedOf (c.dmWrite env w.item w.index w.data) =
        (c', if w.ok then Stored.ok else Stored.writeFailed) ∧
      c'.m = c.m ∧ c'.sh.statics = c.sh.statics.write w ∧ c'.writes = c.writes ++ [w] ∧
      c'.acks = c.acks := by
  refine ⟨(c.dmWrite env w.item w.index w.data).1, ?_, rfl, ?_, ?_, rfl⟩
  · rw [hw]
    rfl
  · rw [dmWrite_statics, ← hw]
  · show c.writes ++ [_] = _
    rw [← hw]

theorem storeItem_of_checked {env : Env} {c : Ctx} {wp : MavlinkMissionItem} {item : MissionItem}
    (hk : knownType c.m.missionType = true) (hseq : wp.seq = c.m.transferSeq)
    (hc : itemChecked c.m.missionType item = true) :
    c.storeItem env wp item = storedOf (c.dmWrite env (itemWrite env c.m item).item
      (itemWrite env c.m item).index (itemWrite env c.m item).data) := by
  cases ht : c.m.missionType with
  | mission =>
      have h : isFenceOrRally item.navCmd = false := by simpa [itemChecked, ht] using hc
      simp [storeItem, ht, h, itemWrite, itemKey, itemIndex, itemData, hseq]
  | fence =>
      have h : ¬(isPolygonVertex item.navCmd = true ∧ item.vertexCount < 3) := by
        rintro ⟨hv, hlt⟩
        simp [itemChecked, ht, hv, hlt] at hc
      simp [storeItem, ht, h, itemWrite, itemKey, itemIndex, itemData, hseq]
  | rally => simp [storeItem, ht, itemWrite, itemKey, itemIndex, itemData, hseq]
  | all => simp [ht, knownType] at hk
  | other => simp [ht, knownType] at hk

theorem storeItem_of_not_checked (env : Env) {c : Ctx} (wp : MavlinkMissionItem)
    {item : MissionItem} (hc : itemChecked c.m.missionType item = false) :
    (c.m.missionType = .mission ∧ c.storeItem env wp item = (c, .checkFailed)) ∨
      (c.m.missionType = .fence ∧
        c.storeItem env wp item = ((c.updateGeofenceCount env 0).1, .checkFailed)) := by
  cases ht : c.m.missionType with
  | mission =>
      have h : isFenceOrRally item.navCmd = true := by simpa [itemChecked, ht] using hc
      exact Or.inl ⟨rfl, by simp [storeItem, ht, h]⟩
  | fence =>
      have h : isPolygonVertex item.navCmd = true ∧ item.vertexCount < 3 := by
        simpa [itemChecked, ht] using hc
      exact Or.inr ⟨rfl, by simp [storeItem, ht, h]⟩
  | rally => simp [itemChecked, ht] at hc
  | all => simp [itemChecked, ht] at hc
  | other => simp [itemChecked, ht] at hc

/-- What the call has come to is a move of an item message. -/
def ItemMoves (cfg : Config) (sh : Shared) (m : Manager) (e : Event) (msg : Message) (int : Bool)
    (wp : MavlinkMissionItem) (c : Ctx) : Prop :=
  ItemMove cfg sh m e msg int wp c.sh.statics c.m.transfer c.writes c.acks

theorem ItemMoves.of_eq {msg : Message} {int : Bool} {wp : MavlinkMissionItem} {c : Ctx}
    {st : Statics} {x : Transfer} {ws : List DmWrite} {as : List MavMissionResult}
    (h : ItemMove cfg sh m e msg int wp st x ws as) (hst : c.sh.statics = st)
    (hx : c.m.transfer = x) (hw : c.writes = ws) (ha : c.acks = as) :
    ItemMoves cfg sh m e msg int wp c := by
  subst hst hx hw ha
  exact h

/-- The count of an upload of a known type is written when all its items are there. -/
theorem completeUpload_moves {c : Ctx} {msg : Message} {int : Bool} {wp : MavlinkMissionItem}
    {item : MissionItem} (hi : Expects cfg m e msg int wp) (hst : Stores cfg m e.env int wp item)
    (hn : (m.transferSeq + 1) % 65536 = m.transferCount)
    (hx : c.m.transfer = { m.transfer with seq := (m.transferSeq + 1) % 65536 })
    (hs : c.sh.statics = sh.statics.write (itemWrite e.env m item))
    (hw : c.writes = [itemWrite e.env m item]) (ha : c.acks = []) :
    ItemMoves cfg sh m e msg int wp (c.completeUpload e.env) := by
  have htype : c.m.missionType = m.missionType := congrArg Transfer.missionType hx
  have hid : c.m.transferDatamanId = m.transferDatamanId := congrArg Transfer.datamanId hx
  have hcount : c.m.transferCount = m.transferCount := congrArg Transfer.count hx
  -- whichever count is written, the rest of the handler is the same
  have key : ∀ r : Ctx × Bool, Updates e.env m.missionType m.transferDatamanId m.transferCount c r →
      ItemMoves cfg sh m e msg int wp ((if r.2 then (r.1.switchToIdleState).ackPartner .accepted
        else (r.1.switchToIdleState).ackPartner .error).setInProgress false) := by
    intro r hr
    rcases hr with ⟨hrx, hra, w, hrw, hrok, hrws, hrst⟩
    have hlock : r.1.m.geofenceLocked = m.geofenceLocked :=
      congrArg Transfer.locked (hrx.trans hx)
    have hst' : (r.1.switchToIdleState.setInProgress false).sh.statics =
        ((sh.statics.write (itemWrite e.env m item)).setCount m.missionType m.transferDatamanId
          m.transferCount w).release m.geofenceLocked := by
      show r.1.sh.statics.release r.1.m.geofenceLocked = _
      rw [hrst, hs, hlock]
    have hx' : (r.1.switchToIdleState.setInProgress false).m.transfer =
        { m.transfer.toIdle with seq := (m.transferSeq + 1) % 65536 } := by
      show r.1.m.transfer.toIdle = _
      rw [hrx, hx]
      rfl
    have hws' : r.1.writes = [itemWrite e.env m item, w] := by
      rw [hrws, hw]
      rfl
    have hacks : ∀ type, ((r.1.switchToIdleState).ackPartner type).acks = [type] := by
      intro type
      show ((r.1.switchToIdleState).ackPartner type).acks = [] ++ [type]
      rw [acks_ackPartner, ← ha, ← hra]
      rfl
    cases hb : r.2 with
    | true =>
        refine ItemMoves.of_eq (ItemMove.complete (w := w) hi hst hn hrw) hst' hx' hws' ?_
        rw [hrok, hb]
        exact hacks .accepted
    | false =>
        refine ItemMoves.of_eq (ItemMove.complete (w := w) hi hst hn hrw) hst' hx' hws' ?_
        rw [hrok, hb]
        exact hacks .error
  unfold completeUpload
  cases ht : m.missionType with
  | mission =>
      simp only [htype, ht]
      refine key _ ?_
      rw [ht, hid, hcount]
      exact updateActiveMission_updates e.env c _ _ _
  | fence =>
      simp only [htype, ht]
      refine key _ ?_
      rw [ht, hcount]
      exact updateGeofenceCount_updates e.env c _ _
  | rally =>
      simp only [htype, ht]
      refine key _ ?_
      rw [ht, hcount]
      exact updateSafepointCount_updates e.env c _ _
  | all => simpa [ht, knownType] using hst.known
  | other => simpa [ht, knownType] using hst.known

theorem acceptItem_moves {c : Ctx} {msg : Message} {int : Bool} {wp : MavlinkMissionItem}
    {item : MissionItem} (hi : Expects cfg m e msg int wp) (hst : Stores cfg m e.env int wp item)
    (hx : c.m.transfer = m.transfer)
    (hs : c.sh.statics = sh.statics.write (itemWrite e.env m item))
    (hw : c.writes = [itemWrite e.env m item]) (ha : c.acks = []) :
    ItemMoves cfg sh m e msg int wp (c.acceptItem cfg e.env wp) := by
  have hx' : Transfer.mk c.m.state c.m.missionType c.m.transferDatamanId c.m.transferCount
      ((wp.seq + 1) % 65536) c.m.transferPartnerSysid c.m.transferPartnerCompid c.m.geofenceLocked =
      { m.transfer with seq := (m.transferSeq + 1) % 65536 } := by
    rw [← hx, ← hi.seq]
    rfl
  have hcount : c.m.transferCount = m.transferCount := congrArg Transfer.count hx
  unfold acceptItem
  dsimp only
  split
  · rename_i hn
    rw [hi.seq, hcount] at hn
    exact completeUpload_moves hi hst hn hx' hs hw ha
  · rename_i hn
    rw [hi.seq, hcount] at hn
    have hr := requestPartner_sends cfg e.env { c with m := { c.m with
      transferCurrentSeq := if wp.current then (wp.seq : ℤ) else c.m.transferCurrentSeq
      transferSeq := (wp.seq + 1) % 65536 } }
    exact ItemMoves.of_eq (ItemMove.accept hi hst hn) (hr.statics.trans hs) (hr.transfer.trans hx')
      (hr.writes.trans hw) ((acks_requestPartner _ _ _).trans ha)

theorem receiveItem_moves {c : Ctx} {msg : Message} {int : Bool} {wp : MavlinkMissionItem}
    (hi : Expects cfg m e msg int wp) (hmode : c.m.intMode = int)
    (hk : knownType m.missionType = true) (hc : Sends ⟨sh, m, [], []⟩ c) (ha : c.acks = []) :
    ItemMoves cfg sh m e msg int wp (c.receiveItem cfg e.env wp) := by
  have htype : c.m.missionType = m.missionType := congrArg Transfer.missionType hc.transfer
  have hitem : ∀ item, itemWrite e.env c.m item = itemWrite e.env m item := by
    intro item
    have hid : c.m.transferDatamanId = m.transferDatamanId :=
      congrArg Transfer.datamanId hc.transfer
    have hseq : c.m.transferSeq = m.transferSeq := congrArg Transfer.seq hc.transfer
    simp only [itemWrite, htype, hid, hseq]
  have hseq : wp.seq = c.m.transferSeq :=
    hi.seq.trans (congrArg Transfer.seq hc.transfer).symm
  -- every refusal ends in `giveUp`
  have hfail : ∀ (c' : Ctx) (st : Statics) (ws : List DmWrite),
      ItemFails cfg sh m e.env int wp st ws → c'.sh.statics = st → c'.m.transfer = m.transfer →
      c'.writes = ws → .accepted ∉ c'.acks → ItemMoves cfg sh m e msg int wp c'.giveUp := by
    intro c' st ws hf hst hx hw has
    refine ItemMoves.of_eq (ItemMove.refuse hi hf has) ?_ ?_ hw rfl
    · rw [giveUp_statics, hst,
        show c'.m.geofenceLocked = m.geofenceLocked from congrArg Transfer.locked hx]
    · rw [giveUp_transfer, hx]
  unfold receiveItem
  rw [hmode]
  split
  · rename_i ret hp
    refine hfail _ _ _ (ItemFails.parse hp) hc.statics hc.transfer hc.writes ?_
    simpa [ha] using (parse_error_ne_accepted hp).symm
  rename_i item hp
  cases hchk : itemChecked c.m.missionType item with
  | false =>
      rcases storeItem_of_not_checked e.env wp hchk with ⟨ht, hstore⟩ | ⟨ht, hstore⟩
      · simp only [hstore]
        exact hfail _ _ _ (ItemFails.missionCheck hp (htype ▸ ht) (htype ▸ hchk))
          hc.statics hc.transfer hc.writes (by simp [ha])
      · simp only [hstore]
        rcases updateGeofenceCount_updates e.env c m.transferDatamanId 0 with
          ⟨hx, hacks, w, hw, -, hws, hst⟩
        refine hfail _ _ _ (ItemFails.fenceCheck hp (htype ▸ ht) (htype ▸ hchk) hw) ?_ ?_ ?_ ?_
        · show Shared.statics _ = _
          exact hst.trans (by rw [hc.statics])
        · exact hx.trans hc.transfer
        · exact hws.trans (by rw [hc.writes]; rfl)
        · simp [hacks, ha]
  | true =>
      rw [storeItem_of_checked (htype ▸ hk) hseq hchk, hitem]
      rcases storedOf_dmWrite e.env c (itemWrite e.env m item) rfl with
        ⟨c', heq, hm, hst, hws, hacks⟩
      rw [hc.statics] at hst
      rw [hc.writes, List.nil_append] at hws
      rw [ha] at hacks
      cases hok : (itemWrite e.env m item).ok with
      | false =>
          simp only [heq, hok]
          refine hfail _ _ _ (ItemFails.write hp (htype ▸ hchk) hok) (hst.trans ?_)
            ((congrArg Manager.transfer hm).trans hc.transfer) hws (by simp [hacks])
          simp [Statics.write, hok]
      | true =>
          simp only [heq, hok]
          exact acceptItem_moves hi ⟨hp, hk, htype ▸ hchk, hok⟩
            ((congrArg Manager.transfer hm).trans hc.transfer) hst hws hacks

theorem receiveItem_stray {c : Ctx} {wp : MavlinkMissionItem} (hc : Sends ⟨sh, m, [], []⟩ c)
    (hs : m.state = .getlist) (hk : knownType m.missionType = false) :
    let c' := c.receiveItem cfg e.env wp
    (c'.sh.statics.inProgress = sh.transferInProgress ∧ c'.m.transfer.state = .getlist) ∨
      c'.sh.statics.inProgress = false := by
  have htype : c.m.missionType = m.missionType := congrArg Transfer.missionType hc.transfer
  have hstore : ∀ item, c.storeItem e.env wp item =
      (c.sendStatustext .critical "Received unknown mission type, abort.", .ok) := by
    intro item
    unfold storeItem
    rw [htype]
    cases ht : m.missionType <;> simp [ht, knownType] at hk ⊢
  unfold receiveItem
  split
  · exact Or.inr rfl
  simp only [hstore]
  unfold acceptItem
  dsimp only
  split
  · exact Or.inr rfl
  · left
    have hr := requestPartner_sends cfg e.env { c with
      m := { c.m with
        transferCurrentSeq := if wp.current then (wp.seq : ℤ) else c.m.transferCurrentSeq
        transferSeq := (wp.seq + 1) % 65536 }
      out := c.out ++ [.statustext .critical "Received unknown mission type, abort."] }
    exact ⟨(congrArg Statics.inProgress hr.statics).trans (congrArg Statics.inProgress hc.statics),
      (congrArg Transfer.state hr.transfer).trans
        ((congrArg Transfer.state hc.transfer).trans hs)⟩

theorem handleMissionItem_itemMoves {msg : Message} (he : e.call = .handleMessage msg) (int : Bool)
    (wp : MavlinkMissionItem) (hp : msg.item? = some (int, wp)) (hs : m.state = .getlist)
    (hk : knownType m.missionType = true) :
    ItemMoves cfg sh m e msg int wp
      (handleMissionItem cfg e.env msg ⟨sh, m, [], []⟩ int wp) := by
  have hq : Sends ⟨sh, m, [], []⟩ (setIntMode ⟨sh, m, [], []⟩ int) := setIntMode_sends _ _
  have hignore : ∀ c : Ctx, Sends ⟨sh, m, [], []⟩ c → .accepted ∉ c.acks →
      ItemMoves cfg sh m e msg int wp c := by
    intro c hc has
    exact ItemMoves.of_eq (ItemMove.ignore has) hc.statics hc.transfer hc.writes rfl
  unfold handleMissionItem handleMissionItemBoth
  split
  case isFalse => exact hignore _ hq (by simp [acks, setIntMode])
  rename_i ha
  split
  · refine hignore _ (hq.trans (ackPartner_sends _ _)) ?_
    rw [acks_ackPartner]
    simp [acks, setIntMode]
  rename_i htype
  have hs' : (setIntMode ⟨sh, m, [], []⟩ int).m.state = .getlist := hs
  simp only [hs']
  split
  · refine hignore _ ((hq.trans (touchRecv_sends _ _)).trans (requestPartner_sends _ _ _)) ?_
    rw [acks_requestPartner]
    simp [acks, setIntMode, touchRecv]
  · rename_i hseq
    exact receiveItem_moves ⟨he, hp, ha, not_not.mp htype, hs, not_not.mp hseq⟩ rfl hk
      (hq.trans (touchRecv_sends _ _)) rfl

theorem handleMissionItem_moves {msg : Message} (he : e.call = .handleMessage msg) (int : Bool)
    (wp : MavlinkMissionItem) (hp : msg.item? = some (int, wp)) :
    Moves cfg sh m e (handleMissionItem cfg e.env msg ⟨sh, m, [], []⟩ int wp) := by
  by_cases hget : m.state = .getlist ∧ knownType m.missionType = true
  · exact Move.item he hp hget.1 hget.2 (handleMissionItem_itemMoves he int wp hp hget.1 hget.2)
  have hq : Sends ⟨sh, m, [], []⟩ (setIntMode ⟨sh, m, [], []⟩ int) := setIntMode_sends _ _
  unfold handleMissionItem handleMissionItemBoth
  split
  case isFalse => exact moves_of_sends hq
  split
  · exact moves_of_sends (hq.trans (ackPartner_sends _ _))
  split
  · rename_i hs
    have hk : knownType m.missionType = false := by
      cases hk : knownType m.missionType
      · rfl
      · exact absurd ⟨hs, hk⟩ hget
    dsimp only
    split
    · exact moves_of_sends ((hq.trans (touchRecv_sends _ _)).trans (requestPartner_sends _ _ _))
    · exact Move.stray hs hk (receiveItem_stray (hq.trans (touchRecv_sends _ _)) hs hk)
  · split
    · exact moves_of_sends (hq.trans (ackPartner_sends _ _))
    · exact moves_of_sends ((hq.trans (sendStatustext_sends _ _ _)).trans (ackPartner_sends _ _))
  · exact moves_of_sends ((hq.trans (sendStatustext_sends _ _ _)).trans (ackPartner_sends _ _))

theorem handleMessage_moves {msg : Message} (he : e.call = .handleMessage msg) :
    Moves cfg sh m e (handleMessage cfg e.env msg ⟨sh, m, [], []⟩) := by
  unfold handleMessage
  split
  · rename_i type t hp
    exact handleMissionAck_moves he type t hp
  · exact handleMissionSetCurrent_moves msg _
  · rename_i t hp
    exact handleMissionRequestList_moves he t hp
  · exact handleMissionRequest_moves msg false _ _
  · exact handleMissionRequest_moves msg true _ _
  · rename_i n t hp
    exact handleMissionCount_moves he n t hp
  · rename_i wp hp
    exact handleMissionItem_moves he false wp (by simp [Message.item?, hp])
  · rename_i wp hp
    exact handleMissionItem_moves he true wp.cast (by simp [Message.item?, hp])
  · exact handleMissionClearAll_moves msg _

/-! ## Periodic calls -/

/-- The reports of `send` change no transfer; an idle manager may take another mission type. -/
structure Reports (c c' : Ctx) : Prop where
  statics : c'.sh.statics = c.sh.statics
  transfer : ∃ t, c'.m.transfer = { c.m.transfer with missionType := t } ∧
    (c.m.state ≠ .idle → t = c.m.missionType)
  writes : c'.writes = c.writes
  timeLastRecv : c'.m.timeLastRecv = c.m.timeLastRecv
  timeLastSent : c.m.state ≠ .idle → c'.m.timeLastSent = c.m.timeLastSent

theorem Reports.of_sends {c c' : Ctx} (h : Sends c c')
    (hrecv : c'.m.timeLastRecv = c.m.timeLastRecv) (hsent : c'.m.timeLastSent = c.m.timeLastSent) :
    Reports c c' :=
  ⟨h.statics, ⟨c.m.missionType, h.transfer, fun _ => rfl⟩, h.writes, hrecv, fun _ => hsent⟩

theorem Reports.trans {a b c : Ctx} (h : Reports a b) (h' : Reports b c) : Reports a c := by
  rcases h.transfer with ⟨t, hx, ht⟩
  rcases h'.transfer with ⟨t', hx', ht'⟩
  have hstate : b.m.state = a.m.state := congrArg Transfer.state hx
  have htype : b.m.missionType = t := congrArg Transfer.missionType hx
  refine ⟨h'.statics.trans h.statics, ⟨t', ?_, ?_⟩, h'.writes.trans h.writes,
    h'.timeLastRecv.trans h.timeLastRecv, ?_⟩
  · rw [hx', hx]
  · intro hn
    rw [ht' (hstate ▸ hn), htype, ht hn]
  · intro hn
    rw [h'.timeLastSent (hstate ▸ hn), h.timeLastSent hn]

theorem sendMissionItem_timeLastRecv (cfg : Config) (env : Env) (c : Ctx) (sysid compid seq : ℕ) :
    (c.sendMissionItem cfg env sysid compid seq).m.timeLastRecv = c.m.timeLastRecv := by
  unfold sendMissionItem deliverMissionItem filesystemError
  dsimp only
  split <;> split <;> first | rfl | (split <;> rfl)

theorem reportReached_reports (c : Ctx) (seq : ℤ) : Reports c (c.reportReached seq) := by
  unfold reportReached
  split
  · dsimp only
    split <;> exact Reports.of_sends ⟨rfl, rfl, rfl⟩ rfl rfl
  · exact Reports.of_sends (Sends.refl c) rfl rfl

theorem sendMissionCurrent_reports (c : Ctx) (seq : ℤ) : Reports c (c.sendMissionCurrent seq) := by
  have hm : (c.sendMissionCurrent seq).m = c.m := by
    unfold sendMissionCurrent
    split
    · rfl
    · split <;> rfl
  exact Reports.of_sends (sendMissionCurrent_sends c seq) (congrArg _ hm) (congrArg _ hm)

theorem repeatReached_reports (c : Ctx) : Reports c c.repeatReached := by
  unfold repeatReached
  split
  · exact Reports.of_sends ⟨rfl, rfl, rfl⟩ rfl rfl
  · exact Reports.of_sends (Sends.refl c) rfl rfl

theorem reportDoJump_reports (cfg : Config) (env : Env) (c : Ctx) (r : MissionResult) :
    Reports c (c.reportDoJump cfg env r) := by
  unfold reportDoJump
  split
  · rename_i h
    have hs := sendMissionItem_sends cfg env { c with m := { c.m with missionType := .mission } }
      c.m.transferPartnerSysid c.m.transferPartnerCompid r.itemChangedIndex
    exact ⟨hs.statics, ⟨.mission, hs.transfer, fun hn => absurd h.2 hn⟩, hs.writes,
      sendMissionItem_timeLastRecv _ _ _ _ _ _, fun hn => absurd h.2 hn⟩
  · exact ⟨rfl, ⟨c.m.missionType, rfl, fun _ => rfl⟩, rfl, rfl, fun _ => rfl⟩

theorem sendReports_reports (cfg : Config) (env : Env) (c : Ctx) :
    Reports c (c.sendReports cfg env) := by
  unfold sendReports
  split
  · rename_i r _
    have hseq : Reports c { c with sh := { c.sh with currentSeq := r.seqCurrent } } :=
      Reports.of_sends ⟨rfl, rfl, rfl⟩ rfl rfl
    exact ((hseq.trans (reportReached_reports _ _)).trans (sendMissionCurrent_reports _ _)).trans
      (reportDoJump_reports _ _ _ _)
  · unfold sendSlowly
    split
    · have htime : Reports c { c with m := { c.m with slowRateLimiterLastSent := env.now } } :=
        Reports.of_sends ⟨rfl, rfl, rfl⟩ rfl rfl
      exact (htime.trans (sendMissionCurrent_reports _ _)).trans (repeatReached_reports _)
    · exact Reports.of_sends (Sends.refl c) rfl rfl

theorem Reports.moves {c : Ctx} (h : Reports ⟨sh, m, [], []⟩ c) : Moves cfg sh m e c := by
  rcases h.transfer with ⟨t, hx, ht⟩
  by_cases hs : m.state = .idle
  · exact Moves.of_eq (Move.retype t hs) h.statics hx h.writes
  · refine Moves.of_eq Move.quiet h.statics (hx.trans ?_) h.writes
    rw [ht hs]
    rfl

theorem send_moves (he : e.call = .send) : Moves cfg sh m e (send cfg e.env ⟨sh, m, [], []⟩) := by
  unfold send
  split
  · exact moves_of_sends (Sends.refl _)
  rename_i hiridium
  have hr := sendReports_reports cfg e.env ⟨sh, m, [], []⟩
  rcases hr.transfer with ⟨t, hx, ht⟩
  have hstate : (sendReports cfg e.env ⟨sh, m, [], []⟩).m.state = m.state :=
    congrArg Transfer.state hx
  unfold checkTimeouts
  split
  · exact hr.moves.of_sends (requestPartner_sends _ _ _)
  rename_i hretry
  split
  · rename_i htime
    -- a manager that times out is not idle, so the reports have not touched its times
    have hbusy : m.state ≠ .idle := by
      have h := (of_decide_eq_true htime).1
      rwa [hstate] at h
    have hsent : (sendReports cfg e.env ⟨sh, m, [], []⟩).m.timeLastSent = m.timeLastSent :=
      hr.timeLastSent hbusy
    have hrecv : (sendReports cfg e.env ⟨sh, m, [], []⟩).m.timeLastRecv = m.timeLastRecv :=
      hr.timeLastRecv
    have hout : m.timesOut e.env = true := by
      simp only [retryDue, timedOut, hstate, hsent, hrecv] at hretry htime
      simp only [Manager.timesOut, retryDue, timedOut, htime, hretry, hiridium, Bool.not_false,
        Bool.and_self]
    rw [ht hbusy] at hx
    have hlock : (sendReports cfg e.env ⟨sh, m, [], []⟩).m.geofenceLocked = m.geofenceLocked :=
      congrArg Transfer.locked hx
    refine Moves.of_eq (Move.timeout he hout) ?_ ?_ hr.writes
    · rw [giveUp_statics, ← hlock]
      exact congrArg (fun st => Statics.release st _) hr.statics
    · exact congrArg Transfer.toIdle hx
  · split
    · exact hr.moves.of_sends ⟨rfl, rfl, rfl⟩
    · exact hr.moves

theorem checkActiveMission_moves :
    Moves cfg sh m e (checkActiveMission e.env ⟨sh, m, [], []⟩) := by
  unfold checkActiveMission
  split
  · exact moves_of_sends (Sends.refl _)
  · split
    · exact moves_of_sends ⟨rfl, rfl, rfl⟩
    · exact moves_of_sends (Sends.refl _)

theorem run_move (cfg : Config) (sh : Shared) (m : Manager) (e : Event) :
    Move cfg sh m e (run cfg sh m e).sh.statics (run cfg sh m e).m.transfer
      (run cfg sh m e).writes := by
  unfold run
  split
  · rename_i msg he
    exact handleMessage_moves he
  · exact checkActiveMission_moves
  · rename_i he
    exact send_moves he

/-- What becomes of an item message while the manager receives a list, with its acknowledgements. -/
theorem run_itemMove (cfg : Config) (sh : Shared) (m : Manager) (e : Event) {msg : Message}
    {int : Bool} {wp : MavlinkMissionItem} (he : e.call = .handleMessage msg)
    (hp : msg.item? = some (int, wp)) (hs : m.state = .getlist)
    (hk : knownType m.missionType = true) :
    ItemMove cfg sh m e msg int wp (run cfg sh m e).sh.statics (run cfg sh m e).m.transfer
      (run cfg sh m e).writes (run cfg sh m e).acks := by
  have hmove : ItemMoves cfg sh m e msg int wp
      (handleMissionItem cfg e.env msg ⟨sh, m, [], []⟩ int wp) :=
    handleMissionItem_itemMoves he int wp hp hs hk
  have hrun : run cfg sh m e = handleMissionItem cfg e.env msg ⟨sh, m, [], []⟩ int wp := by
    unfold Message.item? at hp
    split at hp
    · rename_i hpay
      cases hp
      simp [run, he, handleMessage, hpay]
    · rename_i hpay
      cases hp
      simp [run, he, handleMessage, hpay]
    · cases hp
  rw [hrun]
  exact hmove

end Mission
end DtPhm
