import DtPhm.Lib.Run
import DtPhm.Mission.Handlers

/-!
# Fence — uploads of a geofence

Unlike waypoints, fence points are overwritten in place, under the dataman lock of
`DM_KEY_FENCE_POINTS`, and their number is written last.  While the lock is held the stored fence
may be a mixture of two uploads; this file is about what is stored when it is not.  An upload that
is given up after its first point leaves the points it has overwritten, so it spoils a fence that
was there before.  `SpoilsFence` lists the steps that do so; without them every fence that can be
seen is empty or the one of an upload that ran to completion.
-/

namespace DtPhm
namespace Mission

open Lib Dataman Ctx

/-! ## The stored fence, and the uploads of a run -/

/-- The `num_items` of dataman entry 0. -/
def fenceCount (dm : Store) : ℕ :=
  match dm .fencePoints 0 with
  | some (.stats s) => s.numItems
  | _ => 0

/-- The entries 1 to `n`. -/
def fenceEntries (dm : Store) (n : ℕ) : List (Option DmData) :=
  entries (fun k => dm .fencePoints (k + 1)) n

def storedFence (dm : Store) : List (Option DmData) := fenceEntries dm (fenceCount dm)

/-- The points the upload in progress has written, and the fences of the uploads that ran to
completion. -/
structure FenceHistory where
  points : List (Option DmData)
  fences : List (List (Option DmData))

/-- The fence point a `dm_write` has stored. -/
def DmWrite.fencePoint? (w : DmWrite) : Option (Option DmData) :=
  if w.item = .fencePoints ∧ w.index ≠ 0 ∧ w.ok = true then some (some w.data) else none

def FenceHistory.pointsAfter (h : FenceHistory) (x x' : Transfer) (ws : List DmWrite) :
    List (Option DmData) :=
  if x.state = .idle ∧ x'.state = .getlist then [] else h.points ++ ws.filterMap (·.fencePoint?)

/-- The history after a call that has changed the transfer from `x` to `x'`; an upload has run to
completion when it is acknowledged. -/
def FenceHistory.after (h : FenceHistory) (x x' : Transfer) (ws : List DmWrite)
    (as : List MavMissionResult) : FenceHistory where
  points := h.pointsAfter x x' ws
  fences :=
    if x.state = .getlist ∧ x.missionType = .fence ∧ .accepted ∈ as then
      h.pointsAfter x x' ws :: h.fences
    else
      h.fences

def FenceHistory.record (cfg : Config) (p : Shared × Manager) (e : Event) (h : FenceHistory) :
    FenceHistory :=
  let c := run cfg p.1 p.2 e
  h.after p.2.transfer c.m.transfer c.writes c.acks

/-- At the start the fence is the one of the last run. -/
def FenceHistory.init (p : Shared × Manager) : FenceHistory where
  points := []
  fences := [storedFence p.1.dm]

/-- The stored fence is empty, or the one of an upload that ran to completion. -/
def FenceHistory.Whole (h : FenceHistory) (dm : Store) : Prop :=
  storedFence dm = [] ∨ storedFence dm ∈ h.fences

/-! ## The steps that spoil a fence -/

/-- The manager receives a fence while another one is stored. -/
def RisksFence (sh : Shared) (m : Manager) : Prop :=
  m.state = .getlist ∧ m.missionType = .fence ∧ 0 < fenceCount sh.dm

/-- The item that was expected is not stored, and the fence is not cleared either. -/
def FenceItemFails (cfg : Config) (m : Manager) (env : Env) (int : Bool)
    (wp : MavlinkMissionItem) : Prop :=
  match parseMavlinkMissionItem cfg.conv int wp with
  | .error _ => True
  | .ok item =>
      if itemChecked .fence item then env.writeOk .fencePoints (m.transferSeq + 1) = false
      else env.writeOk .fencePoints 0 = false

/-- The steps after which points of two uploads can be seen together. -/
inductive SpoilsFence (cfg : Config) (sh : Shared) (m : Manager) (e : Event) : Prop
  /-- An upload begins without the lock. -/
  | unlocked {msg : Message} {n : ℕ} (he : e.call = .handleMessage msg)
      (hp : msg.payload = .missionCount n .fence) (ha : checkSysidCompidMission cfg msg = true)
      (hs : m.state = .idle) (hf : sh.transferInProgress = false) (h0 : 0 < n)
      (hn : n ≤ maxCount cfg.platform .fence) (hl : e.env.lockOk = false)
      (hc : 0 < fenceCount sh.dm)
  /-- After its first point, the upload times out. -/
  | timeout (hr : RisksFence sh m) (hq : 0 < m.transferSeq) (he : e.call = .send)
      (ht : m.timesOut e.env = true)
  /-- After its first point, the partner cancels the upload. -/
  | cancel {msg : Message} {t : MavMissionType} (hr : RisksFence sh m) (hq : 0 < m.transferSeq)
      (he : e.call = .handleMessage msg) (hp : msg.payload = .missionAck .operationCancelled t)
      (ha : checkSysidCompidMission cfg msg = true)
      (hpartner : msg.sysid = m.transferPartnerSysid ∧ msg.compid = m.transferPartnerCompid)
  /-- After its first point, the upload ends with a list request. -/
  | requestList {msg : Message} {t : MavMissionType} (hr : RisksFence sh m)
      (hq : 0 < m.transferSeq) (he : e.call = .handleMessage msg)
      (hp : msg.payload = .missionRequestList t) (ha : checkSysidCompidMission cfg msg = true)
      (hmc : maybeCompleted sh m = true)
  /-- After its first point, the upload ends with an item that is refused. -/
  | refuse {msg : Message} {int : Bool} {wp : MavlinkMissionItem} (hr : RisksFence sh m)
      (hq : 0 < m.transferSeq) (hi : Expects cfg m e msg int wp)
      (hf : FenceItemFails cfg m e.env int wp)
  /-- All points are there, and their number cannot be written. -/
  | lastCount {msg : Message} {int : Bool} {wp : MavlinkMissionItem} {item : MissionItem}
      (hr : RisksFence sh m) (hi : Expects cfg m e msg int wp)
      (hst : Stores cfg m e.env int wp item) (hn : m.transferSeq + 1 = m.transferCount)
      (hw : e.env.writeOk .fencePoints 0 = false)

/-! ## The invariant -/

/-- The transfer is an upload of a fence. -/
def Transfer.UploadsFence (x : Transfer) : Prop := x.state = .getlist ∧ x.missionType = .fence

structure FenceInv (st : Statics) (x : Transfer) (h : FenceHistory) : Prop where
  lock : st.fenceLock = x.locked
  free : x.locked = true → x.UploadsFence
  known : x.state = .getlist → knownType x.missionType = true
  seq : x.state = .getlist → x.seq < x.count ∧ x.count < 65536
  points : x.UploadsFence → fenceEntries st.dm x.seq = h.points
  held : x.UploadsFence → 0 < fenceCount st.dm → x.locked = true
  whole : ¬(x.UploadsFence ∧ 0 < x.seq) → h.Whole st.dm

variable {st st' : Statics} {x x' : Transfer} {h : FenceHistory} {ws : List DmWrite}
  {as : List MavMissionResult}

theorem FenceHistory.Whole.after {dm : Store} (hw : h.Whole dm) :
    (h.after x x' ws as).Whole dm := by
  rcases hw with hw | hw
  · exact Or.inl hw
  · refine Or.inr ?_
    unfold FenceHistory.after
    dsimp only
    split
    · exact List.mem_cons_of_mem _ hw
    · exact hw

theorem FenceHistory.after_same : (h.after x x [] as).points = h.points := by
  have hno : ¬(x.state = .idle ∧ x.state = .getlist) := by
    rintro ⟨hidle, hget⟩
    exact absurd (hidle.symm.trans hget) (by decide)
  show h.pointsAfter x x [] = _
  rw [FenceHistory.pointsAfter, if_neg hno]
  exact List.append_nil _

theorem FenceHistory.after_fences (hs : x.state = .getlist) (ht : x.missionType = .fence)
    (ha : .accepted ∈ as) :
    (h.after x x' ws as).fences = h.pointsAfter x x' ws :: h.fences :=
  if_pos ⟨hs, ht, ha⟩

theorem whole_of_fenceCount_eq_zero {dm : Store} (h : FenceHistory) (h0 : fenceCount dm = 0) :
    h.Whole dm := by
  left
  simp [storedFence, fenceEntries, h0]

/-- The fence entries of two stores agree. -/
def SameFence (dm dm' : Store) : Prop := ∀ k, dm' .fencePoints k = dm .fencePoints k

theorem SameFence.fenceCount {dm dm' : Store} (hs : SameFence dm dm') :
    fenceCount dm' = fenceCount dm := by
  unfold Mission.fenceCount
  rw [hs 0]

theorem SameFence.fenceEntries {dm dm' : Store} (hs : SameFence dm dm') (n : ℕ) :
    fenceEntries dm' n = fenceEntries dm n :=
  entries_congr fun k _ => hs (k + 1)

theorem SameFence.whole {dm dm' : Store} (hs : SameFence dm dm') (hw : h.Whole dm) :
    h.Whole dm' := by
  have hst : storedFence dm' = storedFence dm := by
    unfold storedFence
    rw [hs.fenceCount, hs.fenceEntries]
  unfold FenceHistory.Whole
  rw [hst]
  exact hw

theorem FenceInv.unlocked (hi : FenceInv st x h) (hx : ¬ x.UploadsFence) : x.locked = false := by
  cases hl : x.locked with
  | false => rfl
  | true => exact absurd (hi.free hl) hx

theorem FenceInv.whole_of_not_spoiled (hi : FenceInv st x h)
    (hx : ¬(x.UploadsFence ∧ 0 < x.seq ∧ 0 < fenceCount st.dm)) : h.Whole st.dm := by
  by_cases hu : x.UploadsFence ∧ 0 < x.seq
  · refine whole_of_fenceCount_eq_zero h ?_
    by_contra h0
    exact hx ⟨hu.1, hu.2, Nat.pos_of_ne_zero h0⟩
  · exact hi.whole hu

theorem FenceInv.leave (hx : x'.state ≠ .getlist) (hl : x'.locked = false)
    (hf : st'.fenceLock = false) (hw : h.Whole st'.dm) : FenceInv st' x' h where
  lock := hf.trans hl.symm
  free := fun h => absurd (hl.symm.trans h) (by decide)
  known := fun h => absurd h hx
  seq := fun h => absurd h hx
  points := fun h => absurd h.1 hx
  held := fun h => absurd h.1 hx
  whole := fun _ => hw

theorem FenceInv.visible (hi : FenceInv st x h) (hf : st.fenceLock = false) : h.Whole st.dm := by
  apply hi.whole_of_not_spoiled
  rintro ⟨hu, -, hc⟩
  have hl := hi.held hu hc
  rw [← hi.lock, hf] at hl
  exact absurd hl (by decide)

/-! ## One step -/

variable {cfg : Config} {sh : Shared} {m : Manager} {e : Event}

theorem sameFence_write {w : DmWrite} (st : Statics) (hw : w.item ≠ .fencePoints) :
    SameFence st.dm (st.write w).dm := by
  intro k
  unfold Statics.write
  split
  · exact Store.set_of_item_ne hw.symm
  · rfl

theorem sameFence_setCount {env : Env} {t : MavMissionType} {id : Storage} {n : ℕ} {w : DmWrite}
    (st : Statics) (hw : CountWrite env t id n w) (ht : t ≠ .fence) :
    SameFence st.dm (st.setCount t id n w).dm := by
  have hitem : w.item ≠ .fencePoints := by
    rcases hw with ⟨-, -, hw⟩
    cases t with
    | mission => rw [hw.1]; decide
    | fence => exact absurd rfl ht
    | rally => rw [hw.1]; decide
    | all => exact hw.elim
    | other => exact hw.elim
  intro k
  unfold Statics.setCount
  split
  · split <;> first | exact sameFence_write st hitem k | rfl
  · rfl

theorem itemWrite_item_ne_fencePoints (env : Env) (item : MissionItem)
    (ht : m.missionType ≠ .fence) : (itemWrite env m item).item ≠ .fencePoints := by
  show itemKey m.missionType m.transferDatamanId ≠ _
  cases hid : m.transferDatamanId <;> cases hmt : m.missionType <;>
    simp_all [itemKey, Storage.key]

theorem itemWrite_fence (env : Env) (item : MissionItem) (ht : m.missionType = .fence) :
    itemWrite env m item = ⟨.fencePoints, m.transferSeq + 1, .fencePoint (fencePointOf item),
      env.writeOk .fencePoints (m.transferSeq + 1)⟩ := by
  simp [itemWrite, ht, itemKey, itemIndex, itemData]

theorem fenceEntries_set_end (dm : Store) (n : ℕ) (data : DmData) :
    fenceEntries (dm.set .fencePoints (n + 1) data) (n + 1) = fenceEntries dm n ++ [some data] := by
  unfold fenceEntries
  rw [entries_succ, Store.set_same]
  congr 1
  exact entries_congr fun k hk => Store.set_of_index_ne (by omega)

theorem fenceCount_set_point (dm : Store) (n : ℕ) (data : DmData) :
    fenceCount (dm.set .fencePoints (n + 1) data) = fenceCount dm := by
  unfold fenceCount
  rw [Store.set_of_index_ne (Nat.zero_ne_add_one n)]

theorem clears_whole (hc : Clears st st') (hw : h.Whole st.dm) : h.Whole st'.dm := by
  rcases hc.fence with hsame | ⟨counter, hzero⟩
  · refine SameFence.whole ?_ hw
    intro k
    by_cases hk : k = 0
    · rw [hk]
      exact hsame
    · rcases hc.entries .fencePoints k with heq | ⟨h0, -⟩
      · exact heq
      · exact absurd h0 hk
  · exact whole_of_fenceCount_eq_zero h (by simp [fenceCount, hzero])

theorem FenceInv.refuse {msg : Message} {int : Bool} {wp : MavlinkMissionItem}
    (hinv : FenceInv sh.statics m.transfer h) (hok : ¬ SpoilsFence cfg sh m e)
    (hi : Expects cfg m e msg int wp) (hf : ItemFails cfg sh m e.env int wp st ws) :
    h.Whole st.dm := by
  -- a refusal that leaves the points is allowed only before the first of them
  have hkeep : (m.missionType = .fence → FenceItemFails cfg m e.env int wp) →
      h.Whole sh.statics.dm := by
    intro hfail
    apply hinv.whole_of_not_spoiled
    rintro ⟨hu, hq, hc⟩
    exact hok (SpoilsFence.refuse ⟨hu.1, hu.2, hc⟩ hq hi (hfail hu.2))
  cases hf with
  | parse hp =>
      apply hkeep
      intro _
      simp only [FenceItemFails, hp]
  | missionCheck hp ht hc =>
      apply hkeep
      intro hfence
      exact absurd (ht.symm.trans hfence) (by decide)
  | @fenceCheck item w hp ht hc hw =>
      cases hb : w.ok with
      | true =>
          -- too few vertices: the fence is cleared
          refine whole_of_fenceCount_eq_zero h ?_
          rcases hw with ⟨hindex, -, hitem, counter, hdata⟩
          simp [Statics.setCount, hb, Statics.write, hitem, hindex, hdata, fenceCount]
      | false =>
          have hst : sh.statics.setCount .fence m.transferDatamanId 0 w = sh.statics := by
            simp [Statics.setCount, hb]
          rw [hst]
          apply hkeep
          intro hfence
          rw [hfence] at hc
          have hwok : e.env.writeOk .fencePoints 0 = false := by
            rw [← hw.2.2.1, ← hw.2.1]
            exact hb
          simp only [FenceItemFails, hp, hc]
          exact hwok
  | write hp hc hw =>
      apply hkeep
      intro hfence
      rw [itemWrite_fence e.env _ hfence] at hw
      rw [hfence] at hc
      simp only [FenceItemFails, hp, hc, if_true]
      exact hw

theorem FenceHistory.pointsAfter_itemWrite {item : MissionItem} {ws : List DmWrite}
    (hs : x.state = .getlist) (ht : m.missionType = .fence)
    (hok : (itemWrite e.env m item).ok = true) (hws : ws.filterMap (·.fencePoint?) = []) :
    h.pointsAfter x x' (itemWrite e.env m item :: ws) =
      h.points ++ [some (.fencePoint (fencePointOf item))] := by
  have hno : ¬(x.state = .idle ∧ x'.state = .getlist) := by
    rw [hs]
    simp
  rw [itemWrite_fence e.env item ht] at hok ⊢
  have hw : DmWrite.fencePoint? ⟨.fencePoints, m.transferSeq + 1, .fencePoint (fencePointOf item),
      e.env.writeOk .fencePoints (m.transferSeq + 1)⟩ =
        some (some (.fencePoint (fencePointOf item))) := by
    rw [DmWrite.fencePoint?, if_pos ⟨rfl, Nat.succ_ne_zero _, hok⟩]
  rw [FenceHistory.pointsAfter, if_neg hno, List.filterMap_cons, hw, hws]

theorem write_dm_of_ok {w : DmWrite} (st : Statics) (hok : w.ok = true) :
    (st.write w).dm = st.dm.set w.item w.index w.data := by
  simp [Statics.write, hok]

theorem fenceEntries_itemWrite {msg : Message} {int : Bool} {wp : MavlinkMissionItem}
    {item : MissionItem} (hpoints : fenceEntries sh.statics.dm m.transferSeq = h.points)
    (ht : m.missionType = .fence) (hi : Expects cfg m e msg int wp)
    (hst : Stores cfg m e.env int wp item) :
    fenceEntries (sh.statics.write (itemWrite e.env m item)).dm (m.transferSeq + 1) =
      h.pointsAfter m.transfer x' [itemWrite e.env m item] := by
  rw [FenceHistory.pointsAfter_itemWrite hi.state ht hst.ok rfl, write_dm_of_ok _ hst.ok,
    itemWrite_fence _ _ ht]
  exact (fenceEntries_set_end _ _ _).trans (congrArg (· ++ _) hpoints)

theorem FenceInv.accept {msg : Message} {int : Bool} {wp : MavlinkMissionItem} {item : MissionItem}
    (hinv : FenceInv sh.statics m.transfer h) (hi : Expects cfg m e msg int wp)
    (hst : Stores cfg m e.env int wp item) (hn : (m.transferSeq + 1) % 65536 ≠ m.transferCount)
    (hx : x' = { m.transfer with seq := (m.transferSeq + 1) % 65536 }) :
    FenceInv (sh.statics.write (itemWrite e.env m item)) x'
      (h.after m.transfer x' [itemWrite e.env m item] as) := by
  have hseq : m.transferSeq < m.transferCount ∧ m.transferCount < 65536 := hinv.seq hi.state
  have hmod : (m.transferSeq + 1) % 65536 = m.transferSeq + 1 := Nat.mod_eq_of_lt (by omega)
  have hlock : (sh.statics.write (itemWrite e.env m item)).fenceLock = sh.statics.fenceLock := by
    unfold Statics.write
    split <;> rfl
  rw [hmod] at hn hx
  have hdm := write_dm_of_ok sh.statics hst.ok
  refine ⟨?_, ?_, ?_, ?_, ?_, ?_, ?_⟩
  · rw [hlock, hx]
    exact hinv.lock
  · intro hl
    rw [hx] at hl ⊢
    exact hinv.free hl
  · intro _
    rw [hx]
    exact hst.known
  · intro _
    rw [hx]
    exact ⟨show m.transferSeq + 1 < m.transferCount by omega, hseq.2⟩
  · intro hu
    have ht : m.missionType = .fence := by
      rw [hx] at hu
      exact hu.2
    rw [hx]
    exact fenceEntries_itemWrite (hinv.points ⟨hi.state, ht⟩) ht hi hst
  · intro hu hc
    rw [hx] at hu ⊢
    refine hinv.held hu ?_
    have ht : m.missionType = .fence := hu.2
    rwa [hdm, itemWrite_fence _ _ ht, fenceCount_set_point] at hc
  · intro hno
    have ht : m.missionType ≠ .fence := by
      intro ht
      apply hno
      rw [hx]
      exact ⟨⟨hi.state, ht⟩, Nat.succ_pos _⟩
    refine (SameFence.whole (sameFence_write _ (itemWrite_item_ne_fencePoints _ _ ht)) ?_).after
    exact hinv.whole fun hu => ht hu.1.2

/-- The last item of a fence was stored, and the number of items too: the entries are those of this
upload, and so is their number. -/
theorem storedFence_complete {msg : Message} {int : Bool} {wp : MavlinkMissionItem}
    {item : MissionItem} {w : DmWrite} {x : Transfer}
    (hpoints : fenceEntries sh.statics.dm m.transferSeq = h.points)
    (hcount : m.transferCount = m.transferSeq + 1) (ht : m.missionType = .fence)
    (hi : Expects cfg m e msg int wp) (hst : Stores cfg m e.env int wp item)
    (hw : CountWrite e.env .fence m.transferDatamanId m.transferCount w) (hb : w.ok = true) :
    storedFence ((sh.statics.write (itemWrite e.env m item)).setCount .fence m.transferDatamanId
        m.transferCount w).dm =
      h.pointsAfter m.transfer x [itemWrite e.env m item, w] := by
  have hdm := write_dm_of_ok sh.statics hst.ok
  rw [itemWrite_fence _ _ ht] at hdm
  rcases hw with ⟨hindex, -, hitem, counter, hdata⟩
  have hset : ((sh.statics.write (itemWrite e.env m item)).setCount .fence
      m.transferDatamanId m.transferCount w).dm =
      (sh.statics.dm.set .fencePoints (m.transferSeq + 1)
        (.fencePoint (fencePointOf item))).set .fencePoints 0
          (.stats ⟨m.transferCount, counter⟩) := by
    simp only [Statics.setCount, hb, if_true]
    rw [write_dm_of_ok _ hb, itemWrite_fence _ _ ht, hdm, hitem, hindex, hdata]
  have hnum : fenceCount ((sh.statics.dm.set .fencePoints (m.transferSeq + 1)
      (.fencePoint (fencePointOf item))).set .fencePoints 0
        (.stats ⟨m.transferCount, counter⟩)) = m.transferCount := by
    simp [fenceCount]
  have hcountWrite : w.fencePoint? = none := by
    simp [DmWrite.fencePoint?, hindex]
  rw [hset, storedFence, hnum, hcount,
    FenceHistory.pointsAfter_itemWrite hi.state ht hst.ok (by simp [hcountWrite]), ← hpoints]
  refine Eq.trans ?_ (fenceEntries_set_end _ _ _)
  exact entries_congr fun k _ => Store.set_of_index_ne (Nat.succ_ne_zero k)

theorem FenceInv.complete {msg : Message} {int : Bool} {wp : MavlinkMissionItem}
    {item : MissionItem} {w : DmWrite}
    (hinv : FenceInv sh.statics m.transfer h) (hok : ¬ SpoilsFence cfg sh m e)
    (hi : Expects cfg m e msg int wp) (hst : Stores cfg m e.env int wp item)
    (hn : (m.transferSeq + 1) % 65536 = m.transferCount)
    (hw : CountWrite e.env m.missionType m.transferDatamanId m.transferCount w) :
    (h.after m.transfer x' [itemWrite e.env m item, w]
      [if w.ok then .accepted else .error]).Whole
        ((sh.statics.write (itemWrite e.env m item)).setCount m.missionType m.transferDatamanId
          m.transferCount w).dm := by
  have hseq : m.transferSeq < m.transferCount ∧ m.transferCount < 65536 := hinv.seq hi.state
  by_cases ht : m.missionType = .fence
  · rw [ht] at hw ⊢
    cases hb : w.ok with
    | true =>
        right
        rw [storedFence_complete (hinv.points ⟨hi.state, ht⟩) (by omega) ht hi hst hw hb,
          FenceHistory.after_fences hi.state ht (by simp)]
        exact List.mem_cons.mpr (Or.inl rfl)
    | false =>
        -- the old number stands over new points: only an empty fence stays whole
        have hsame : ((sh.statics.write (itemWrite e.env m item)).setCount .fence
            m.transferDatamanId m.transferCount w) =
            sh.statics.write (itemWrite e.env m item) := by
          simp [Statics.setCount, hb]
        have hdm := write_dm_of_ok sh.statics hst.ok
        rw [itemWrite_fence _ _ ht] at hdm
        rw [hsame, itemWrite_fence _ _ ht, hdm]
        apply whole_of_fenceCount_eq_zero
        rw [fenceCount_set_point]
        by_contra h0
        refine hok
          (SpoilsFence.lastCount ⟨hi.state, ht, Nat.pos_of_ne_zero h0⟩ hi hst (by omega) ?_)
        rw [← hw.2.2.1, ← hw.2.1]
        exact hb
  · have hwhole : h.Whole sh.statics.dm := hinv.whole fun hu => ht hu.1.2
    exact (SameFence.whole (sameFence_setCount _ hw ht)
      (SameFence.whole (sameFence_write _ (itemWrite_item_ne_fencePoints _ _ ht)) hwhole)).after

theorem itemFails_fenceLock {int : Bool} {wp : MavlinkMissionItem}
    (hf : ItemFails cfg sh m e.env int wp st ws) : st.fenceLock = sh.fenceLock := by
  cases hf with
  | parse => rfl
  | missionCheck => rfl
  | fenceCheck => exact setCount_fenceLock _ _ _ _ _
  | write => rfl

theorem FenceInv.move (hinv : FenceInv sh.statics m.transfer h) (hok : ¬ SpoilsFence cfg sh m e)
    (hmv : Move cfg sh m e st' x' ws)
    (hitem : ∀ {msg int wp}, e.call = .handleMessage msg → msg.item? = some (int, wp) →
      m.state = .getlist → knownType m.missionType = true →
      ItemMove cfg sh m e msg int wp st' x' ws as) :
    FenceInv st' x' (h.after m.transfer x' ws as) := by
  have hne : WpmState.idle ≠ .getlist := by decide
  have hsend : WpmState.sendlist ≠ .getlist := by decide
  have hlock : sh.fenceLock = m.geofenceLocked := hinv.lock
  -- a manager that receives no list holds no lock, and the fence is whole
  have hfree : m.state ≠ .getlist → m.geofenceLocked = false :=
    fun hs => hinv.unlocked fun hu => hs hu.1
  have hrest : m.state ≠ .getlist → h.Whole sh.statics.dm :=
    fun hs => hinv.whole fun hu => hs hu.1.1
  have hrelease : (if m.geofenceLocked then false else sh.fenceLock) = false := by
    rw [hlock]
    cases m.geofenceLocked <;> rfl
  -- nothing has changed but the history
  have hquiet : ∀ as, FenceInv sh.statics m.transfer (h.after m.transfer m.transfer [] as) := by
    intro as
    exact ⟨hinv.lock, hinv.free, hinv.known, hinv.seq,
      fun hu => (hinv.points hu).trans FenceHistory.after_same.symm, hinv.held,
      fun hu => (hinv.whole hu).after⟩
  cases hmv with
  | quiet => exact hquiet as
  | retype t hs =>
      have hns : m.state ≠ .getlist := by rw [hs]; exact hne
      exact FenceInv.leave hns (hfree hns) (hlock.trans (hfree hns)) (hrest hns).after
  | @setCurrent w hs hw =>
      have hns : m.state ≠ .getlist := by rw [hs]; exact hne
      refine FenceInv.leave hns (hfree hns) ?_
        (SameFence.whole (sameFence_write _ ?_) (hrest hns)).after
      · rw [write_fenceLock]
        exact hlock.trans (hfree hns)
      · rw [hw]
        decide
  | clear t hs hc hw =>
      have hns : m.state ≠ .getlist := by rw [hs]; exact hne
      exact FenceInv.leave hns (hfree hns) (hc.fenceLock.trans (hlock.trans (hfree hns)))
        (clears_whole hc (hrest hns)).after
  | @begin msg n t y he hp ha hs hf h0 hn hx =>
      have hns : m.state ≠ .getlist := by rw [hs]; exact hne
      subst hx
      refine ⟨?_, ?_, ?_, ?_, ?_, ?_, ?_⟩
      · show (_ || sh.fenceLock) = (_ || m.geofenceLocked)
        rw [hlock]
      · intro hl
        have hfence : t = .fence ∧ e.env.lockOk = true := by simpa [hfree hns] using hl
        exact ⟨rfl, hfence.1⟩
      · intro _
        exact knownType_of_maxCount_pos (h0.trans_le hn)
      · intro _
        exact ⟨h0, (hn.trans_lt (maxCount_lt _ _)).trans (by decide)⟩
      · intro _
        show [] = FenceHistory.pointsAfter _ _ _ _
        rw [FenceHistory.pointsAfter, if_pos ⟨hs, rfl⟩]
      · rintro ⟨-, ht⟩ hc
        replace ht : t = .fence := ht
        subst ht
        show (decide (_ ∧ e.env.lockOk = true) || _) = true
        cases hl : e.env.lockOk with
        | true => simp
        | false => exact absurd (SpoilsFence.unlocked he hp ha hs hf h0 hn hl hc) hok
      · intro _
        exact (hrest hns).after
  | timeout he ht =>
      refine FenceInv.leave hne rfl hrelease (hinv.whole_of_not_spoiled ?_).after
      rintro ⟨hu, hq, hc⟩
      exact hok (SpoilsFence.timeout ⟨hu.1, hu.2, hc⟩ hq he ht)
  | cancel he hp ha hq hs =>
      refine FenceInv.leave hne rfl hrelease (hinv.whole_of_not_spoiled ?_).after
      rintro ⟨hu, hseq, hc⟩
      exact hok (SpoilsFence.cancel ⟨hu.1, hu.2, hc⟩ hseq he hp ha hq)
  | downloadNext seq hs =>
      have hns : m.state ≠ .getlist := by rw [hs]; exact hsend
      exact FenceInv.leave hns (hfree hns) (hlock.trans (hfree hns)) (hrest hns).after
  | downloadEnd seq hs =>
      have hns : m.state ≠ .getlist := by rw [hs]; exact hsend
      exact FenceInv.leave hne rfl hrelease (hrest hns).after
  | download n nf nr he hp ha hs hx =>
      subst hx
      cases hmc : maybeCompleted sh m with
      | true =>
          refine FenceInv.leave hsend rfl hrelease (hinv.whole_of_not_spoiled ?_).after
          rintro ⟨hu, hq, hc⟩
          exact hok (SpoilsFence.requestList ⟨hu.1, hu.2, hc⟩ hq he hp ha hmc)
      | false =>
          have hns : m.state ≠ .getlist := by
            rcases hs with hs | hs
            · exact absurd (hs.symm.trans hmc) (by decide)
            · exact hs
          exact FenceInv.leave hsend (hfree hns) (hlock.trans (hfree hns)) (hrest hns).after
  | item he hp hs hk _ =>
      cases hitem he hp hs hk with
      | ignore has => exact hquiet _
      | refuse hi hf has =>
          refine FenceInv.leave hne rfl ?_ (hinv.refuse hok hi hf).after
          show (if _ then _ else _) = _
          rw [itemFails_fenceLock hf]
          exact hrelease
      | accept hi hst hn => exact hinv.accept hi hst hn rfl
      | complete hi hst hn hw =>
          refine FenceInv.leave hne rfl ?_ (hinv.complete hok hi hst hn hw)
          show (if _ then _ else Statics.fenceLock _) = _
          rw [setCount_fenceLock, write_fenceLock]
          exact hrelease
  | stray hs ht hx => exact absurd ((hinv.known hs).symm.trans ht) (by decide)

/-! ## Whole runs -/

theorem FenceInv.init (env : Env) (dm : Store) :
    FenceInv (initOne env dm).1.statics (initOne env dm).2.transfer
      (FenceHistory.init (initOne env dm)) := by
  have hlock : (initOne env dm).1.statics.fenceLock = false := by
    unfold initOne initOffboardMission loadSafepointStats loadGeofenceStats
    dsimp only
    repeat' split
    all_goals rfl
  have hidle : WpmState.idle ≠ .getlist := by decide
  refine FenceInv.leave hidle rfl hlock (Or.inr ?_)
  exact List.mem_singleton.mpr rfl

theorem FenceInv.step (cfg : Config) {p : Shared × Manager} {e : Event}
    (hinv : FenceInv p.1.statics p.2.transfer h) (hok : ¬ SpoilsFence cfg p.1 p.2 e) :
    FenceInv (stepOne cfg p e).1.statics (stepOne cfg p e).2.transfer (h.record cfg p e) :=
  hinv.move hok (run_move cfg p.1 p.2 e) fun he hp hs hk => run_itemMove cfg p.1 p.2 e he hp hs hk

/-- In a run without a step that spoils a fence, whatever fence is stored while the lock is not held
is empty or the one of an upload that ran to completion. -/
theorem fence_uploads_atomic (cfg : Config) (env : Env) (dm : Store) (es : List Event)
    (hok : AllSteps (stepOne cfg) (fun p e => ¬ SpoilsFence cfg p.1 p.2 e) (initOne env dm) es) :
    ∀ q ∈ visited (historyStep (stepOne cfg) (FenceHistory.record cfg))
        (initOne env dm, FenceHistory.init (initOne env dm)) es,
      q.1.1.fenceLock = false →
        storedFence q.1.1.dm = [] ∨ storedFence q.1.1.dm ∈ q.2.fences := by
  intro q hq hlock
  have hrun := (allSteps_historyStep (stepOne cfg) (FenceHistory.record cfg)
    (fun p e => ¬ SpoilsFence cfg p.1 p.2 e) es
    (initOne env dm, FenceHistory.init (initOne env dm))).mpr hok
  have hstep : ∀ (q : (Shared × Manager) × FenceHistory) (e : Event),
      FenceInv q.1.1.statics q.1.2.transfer q.2 → ¬ SpoilsFence cfg q.1.1 q.1.2 e →
      FenceInv (historyStep (stepOne cfg) (FenceHistory.record cfg) q e).1.1.statics
        (historyStep (stepOne cfg) (FenceHistory.record cfg) q e).1.2.transfer
        (historyStep (stepOne cfg) (FenceHistory.record cfg) q e).2 :=
    fun q e hinv hok => hinv.step cfg hok
  exact (invariant_of_allSteps hstep (FenceInv.init env dm) hrun q hq).visible hlock

/-- A circle of a fence, as a MISSION_ITEM carries it. -/
def circleAt (seq : ℕ) (radius : ℚ) : MavlinkMissionItem where
  command := .navFenceCircleInclusion
  frame := .global
  param1 := radius
  x := .float 47
  y := .float 8
  seq := seq
  missionType := .fence

/-- The upload of a fence of two circles. -/
def uploadCircles (now : ℕ) (radius : ℚ) : List Event :=
  [arrives now (toVehicle 255 (.missionCount 2 .fence)),
    arrives (now + 1) (toVehicle 255 (.missionItem (circleAt 0 radius))),
    arrives (now + 2) (toVehicle 255 (.missionItem (circleAt 1 radius)))]

theorem uploadCircles_atomic :
    storedFence (exec (stepOne vehicle) (initOne {} fun _ _ => none) (uploadCircles 1 100)).1.dm ≠
        [] ∧
      ∀ q ∈ visited (historyStep (stepOne vehicle) (FenceHistory.record vehicle))
          (initOne {} fun _ _ => none, FenceHistory.init (initOne {} fun _ _ => none))
          (uploadCircles 1 100),
        q.1.1.fenceLock = false →
          storedFence q.1.1.dm = [] ∨ storedFence q.1.1.dm ∈ q.2.fences := by
  refine ⟨by decide, fence_uploads_atomic vehicle {} (fun _ _ => none) _ ⟨?_, ?_, ?_, trivial⟩⟩
  all_goals
    intro hspoils
    cases hspoils with
    | unlocked he hp ha hs hf h0 hn hl hc => exact absurd hc (by decide)
    | timeout hr => exact absurd hr.2.2 (by decide)
    | cancel hr => exact absurd hr.2.2 (by decide)
    | requestList hr => exact absurd hr.2.2 (by decide)
    | refuse hr => exact absurd hr.2.2 (by decide)
    | lastCount hr => exact absurd hr.2.2 (by decide)

/-- A fence of two circles, and an upload over it that is cancelled after its first circle. -/
def cancelledUpload : List Event :=
  uploadCircles 1 100 ++
    [arrives 4 (toVehicle 255 (.missionCount 2 .fence)),
      arrives 5 (toVehicle 255 (.missionItem (circleAt 0 200))),
      arrives 6 (toVehicle 255 (.missionAck .operationCancelled .fence))]

/-- One circle of each upload is left, and the lock is not held. -/
theorem cancelledUpload_mixes_fences :
    ¬ ∀ q ∈ visited (historyStep (stepOne vehicle) (FenceHistory.record vehicle))
        (initOne {} fun _ _ => none, FenceHistory.init (initOne {} fun _ _ => none))
        cancelledUpload,
      q.1.1.fenceLock = false →
        storedFence q.1.1.dm = [] ∨ storedFence q.1.1.dm ∈ q.2.fences := by
  intro h
  have hlast := h _ (exec_mem_visited _ _ _) (by decide)
  exact absurd hlast (by decide)

end Mission
end DtPhm
