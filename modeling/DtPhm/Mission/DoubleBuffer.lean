import DtPhm.Lib.Run
import DtPhm.Mission.InProgress

/-!
# DoubleBuffer — an upload never touches the active mission

A mission is received into the storage that is not the active one, and becomes active when all its
items are there.  Which storage that is, is decided when the upload begins; the flag
`_transfer_in_progress` is to keep every other upload out until it ends.  The invariant of this file
says what that gives for all managers together, and which step breaks it: a manager that times out
while it *sends* a list also drops the flag that another manager's upload relies on.
-/

namespace DtPhm
namespace Mission

open Lib Dataman Ctx

variable {ι : Type}

/-! ## The active mission -/

/-- The items of the active mission. -/
def Statics.activeItems (st : Statics) : List (Option DmData) :=
  entries (st.dm st.datamanId.key) st.countMission

/-! ## The uploads of a run -/

/-- What the run has seen of its uploads: the waypoints the upload of each manager has written, and
those of the upload that activated the current mission. -/
structure Uploads (ι : Type) where
  written : ι → List (Option DmData)
  active : List (Option DmData)

/-- The waypoint a `dm_write` has stored. -/
def DmWrite.waypoint? (w : DmWrite) : Option (Option DmData) :=
  if (w.item = .waypointsOffboard0 ∨ w.item = .waypointsOffboard1) ∧ w.ok = true then
    some (some w.data)
  else
    none

/-- The mission state has been saved. -/
def savesMission (ws : List DmWrite) : Bool :=
  ws.any fun w => decide (w.item = .missionState) && w.ok

variable [DecidableEq ι]

/-- The waypoints a manager's upload has written after a call: none when the call has begun it. -/
def Uploads.writtenAfter (u : Uploads ι) (i : ι) (x x' : Transfer) (ws : List DmWrite) :
    List (Option DmData) :=
  if x.state = .idle ∧ x'.state = .getlist then [] else u.written i ++ ws.filterMap (·.waypoint?)

/-- The uploads after a call of manager `i` has changed its transfer from `x` to `x'`. -/
def Uploads.after (u : Uploads ι) (i : ι) (x x' : Transfer) (st' : Statics) (ws : List DmWrite) :
    Uploads ι where
  written := Function.update u.written i (u.writtenAfter i x x' ws)
  active :=
    if x.state = .getlist ∧ savesMission ws = true then u.writtenAfter i x x' ws
    else if st'.countMission = 0 then []
    else u.active

def Uploads.record (cfg : Config) (s : Sys ι) (e : ι × Event) (u : Uploads ι) : Uploads ι :=
  let c := s.runAt cfg e
  u.after e.1 (s.inst e.1).transfer c.m.transfer c.sh.statics c.writes

/-- At the start no upload is going on, and the active mission is the one of the last run. -/
def Uploads.init (s : Sys ι) : Uploads ι where
  written := fun _ => []
  active := s.shared.statics.activeItems

/-! ## The invariant -/

/-- The uploads of all managers, over the statics they share. -/
structure Buffered (st : Statics) (x : ι → Transfer) (u : Uploads ι) : Prop where
  flag : ∀ i, (x i).state = .getlist → st.inProgress = true
  unique : ∀ i j, (x i).state = .getlist → (x j).state = .getlist → i = j
  known : ∀ i, (x i).state = .getlist → knownType (x i).missionType = true
  seq : ∀ i, (x i).state = .getlist → (x i).seq < (x i).count ∧ (x i).count < 65536
  inactive : ∀ i, (x i).state = .getlist → (x i).missionType = .mission →
    (x i).datamanId ≠ st.datamanId ∨ st.countMission = 0
  items : ∀ i, (x i).state = .getlist → (x i).missionType = .mission →
    entries (st.dm (x i).datamanId.key) (x i).seq = u.written i
  active : st.activeItems = u.active

variable {st st' : Statics} {x : ι → Transfer} {x' : Transfer} {u : Uploads ι} {i : ι}
  {ws : List DmWrite}

theorem activeItems_of_countMission_eq_zero (h : st.countMission = 0) : st.activeItems = [] := by
  simp [Statics.activeItems, h]

theorem activeItems_congr (hdm : ∀ (id : Storage) k, st'.dm id.key k = st.dm id.key k)
    (hid : st'.datamanId = st.datamanId) (hcount : st'.countMission = st.countMission) :
    st'.activeItems = st.activeItems := by
  unfold Statics.activeItems
  rw [hid, hcount]
  exact entries_congr fun k _ => hdm _ k

theorem Buffered.active_after (h : Buffered st x u)
    (hitems : st'.activeItems = st.activeItems ∨ st'.countMission = 0)
    (hsave : (x i).state = .getlist → savesMission ws = false) :
    st'.activeItems = (u.after i (x i) x' st' ws).active := by
  have hno : ¬((x i).state = .getlist ∧ savesMission ws = true) := by
    rintro ⟨hs, hw⟩
    exact absurd ((hsave hs).symm.trans hw) (by decide)
  simp only [Uploads.after, hno, if_false]
  split
  · rename_i h0
    exact activeItems_of_countMission_eq_zero h0
  · rename_i h0
    rcases hitems with heq | hz
    · exact heq.trans h.active
    · exact absurd hz h0

/-- The calls that write no waypoint: the manager goes on as it was, or receives no list after
them. -/
theorem Buffered.frame (h : Buffered st x u)
    (hdm : ∀ (id : Storage) k, st'.dm id.key k = st.dm id.key k)
    (hact : (st'.datamanId = st.datamanId ∧ st'.countMission = st.countMission) ∨
      st'.countMission = 0)
    (hx : x'.state ≠ .getlist ∨ (x' = x i ∧ st'.inProgress = st.inProgress))
    (hflag : st'.inProgress = st.inProgress ∨ ∀ j, j ≠ i → (x j).state ≠ .getlist)
    (hw : ws.filterMap (·.waypoint?) = [])
    (hsave : (x i).state = .getlist → savesMission ws = false) :
    Buffered st' (Function.update x i x') (u.after i (x i) x' st' ws) := by
  -- whoever receives a list afterwards has done so before, with the same transfer
  have hold : ∀ j, (Function.update x i x' j).state = .getlist →
      Function.update x i x' j = x j ∧ st'.inProgress = st.inProgress ∧
        (u.after i (x i) x' st' ws).written j = u.written j := by
    intro j hj
    by_cases hji : j = i
    · subst hji
      simp only [Function.update_self] at hj ⊢
      rcases hx with hx | ⟨hx, hp⟩
      · exact absurd hj hx
      · have hs : ¬((x j).state = .idle ∧ x'.state = .getlist) := by
          rw [← hx, hj]
          decide
        refine ⟨hx, hp, ?_⟩
        simp [Uploads.after, Uploads.writtenAfter, hs, hw]
    · simp only [Function.update_of_ne hji] at hj ⊢
      rcases hflag with hflag | hflag
      · exact ⟨trivial, hflag, by simp [Uploads.after, Function.update_of_ne hji]⟩
      · exact absurd hj (hflag j hji)
  have hinactive : ∀ id : Storage, id ≠ st.datamanId ∨ st.countMission = 0 →
      id ≠ st'.datamanId ∨ st'.countMission = 0 := by
    intro id hid
    rcases hact with ⟨heq, hcount⟩ | hzero
    · rw [heq, hcount]
      exact hid
    · exact Or.inr hzero
  refine ⟨?_, ?_, ?_, ?_, ?_, ?_, h.active_after ?_ hsave⟩
  · intro j hj
    rcases hold j hj with ⟨heq, hp, -⟩
    rw [heq] at hj
    exact hp.trans (h.flag j hj)
  · intro j k hj hk
    rw [(hold j hj).1] at hj
    rw [(hold k hk).1] at hk
    exact h.unique j k hj hk
  · intro j hj
    have heq := (hold j hj).1
    rw [heq] at hj ⊢
    exact h.known j hj
  · intro j hj
    have heq := (hold j hj).1
    rw [heq] at hj ⊢
    exact h.seq j hj
  · intro j hj ht
    have heq := (hold j hj).1
    rw [heq] at hj ht ⊢
    exact hinactive _ (h.inactive j hj ht)
  · intro j hj ht
    rcases hold j hj with ⟨heq, -, hwr⟩
    rw [heq] at hj ht ⊢
    rw [hwr, ← h.items j hj ht]
    exact entries_congr fun k _ => hdm _ k
  · rcases hact with ⟨hid, hcount⟩ | hzero
    · exact Or.inl (activeItems_congr hdm hid hcount)
    · exact Or.inr hzero

/-! ## One step -/

variable {cfg : Config} {sh : Shared} {m : Manager} {e : Event}

theorem Buffered.begin (h : Buffered st x u) (hs : (x i).state = .idle) (hf : st.inProgress = false)
    {t : MavMissionType} {n sysid compid : ℕ} {locked lock : Bool} (h0 : 0 < n)
    (hn : n ≤ maxCount cfg.platform t)
    (hx : x' = ⟨.getlist, t, otherStorage st.datamanId, n, 0, sysid, compid, locked⟩) :
    Buffered { st with inProgress := true, fenceLock := lock } (Function.update x i x')
      (u.after i (x i) x' { st with inProgress := true, fenceLock := lock } []) := by
  have hnone : ∀ j, (x j).state ≠ .getlist := by
    intro j hj
    exact absurd ((h.flag j hj).symm.trans hf) (by decide)
  have honly : ∀ j, (Function.update x i x' j).state = .getlist → j = i := by
    intro j hj
    by_contra hji
    rw [Function.update_of_ne hji] at hj
    exact hnone j hj
  refine ⟨fun _ _ => rfl, ?_, ?_, ?_, ?_, ?_, ?_⟩
  · intro j k hj hk
    rw [honly j hj, honly k hk]
  · intro j hj
    rw [honly j hj, Function.update_self, hx]
    exact knownType_of_maxCount_pos (h0.trans_le hn)
  · intro j hj
    rw [honly j hj, Function.update_self, hx]
    exact ⟨h0, (hn.trans_lt (maxCount_lt _ _)).trans (by decide)⟩
  · intro j hj ht
    rw [honly j hj, Function.update_self, hx]
    exact Or.inl (otherStorage_ne _)
  · intro j hj ht
    rw [honly j hj, Function.update_self, hx]
    simp [Uploads.after, Uploads.writtenAfter, hs]
  · exact h.active_after (Or.inl rfl) (fun _ => rfl)

theorem waypoint?_of_ofCount {w : DmWrite} (h : w.ofCount) : w.waypoint? = none := by
  rcases h with h | h | h <;> simp [DmWrite.waypoint?, h]

theorem Storage.key_waypoints (id : Storage) :
    id.key = .waypointsOffboard0 ∨ id.key = .waypointsOffboard1 := by
  cases id
  · exact Or.inl rfl
  · exact Or.inr rfl

theorem Storage.key_ne_of_ofCount {w : DmWrite} (h : w.ofCount) (id : Storage) :
    id.key ≠ w.item := by
  rcases h with h | h | h <;> cases id <;> simp [h, Storage.key]

theorem write_dm_of_ofCount {w : DmWrite} (h : w.ofCount) (st : Statics) (id : Storage) (k : ℕ) :
    (st.write w).dm id.key k = st.dm id.key k := by
  unfold Statics.write
  split
  · exact Store.set_of_item_ne (Storage.key_ne_of_ofCount h id)
  · rfl

theorem setCount_dm_of_ofCount {w : DmWrite} (h : w.ofCount) (st : Statics) (t : MavMissionType)
    (id' : Storage) (n : ℕ) (id : Storage) (k : ℕ) :
    (st.setCount t id' n w).dm id.key k = st.dm id.key k := by
  unfold Statics.setCount
  split
  · split <;> first | exact write_dm_of_ofCount h st id k | rfl
  · rfl

/-- The write of an item: of a waypoint into the storage of the transfer, or of no waypoint. -/
theorem itemWrite_cases (env : Env) (m : Manager) (item : MissionItem)
    (hk : knownType m.missionType = true) :
    (m.missionType = .mission ∧ itemWrite env m item =
      ⟨m.transferDatamanId.key, m.transferSeq, .waypoint item,
        env.writeOk m.transferDatamanId.key m.transferSeq⟩) ∨
    (m.missionType ≠ .mission ∧ (itemWrite env m item).ofCount) := by
  cases ht : m.missionType with
  | mission => exact Or.inl ⟨rfl, by simp [itemWrite, ht, itemKey, itemIndex, itemData]⟩
  | fence => exact Or.inr ⟨by decide, Or.inr (Or.inl (by simp [itemWrite, ht, itemKey]))⟩
  | rally => exact Or.inr ⟨by decide, Or.inr (Or.inr (by simp [itemWrite, ht, itemKey]))⟩
  | all => simp [ht, knownType] at hk
  | other => simp [ht, knownType] at hk

omit [DecidableEq ι] in
theorem Buffered.activeItems_write (h : Buffered sh.statics x u) (hm : x i = m.transfer)
    (hs : m.state = .getlist) (item : MissionItem) :
    (sh.statics.write (itemWrite e.env m item)).activeItems = sh.statics.activeItems := by
  have hs' : (x i).state = .getlist := by rw [hm]; exact hs
  have hk : knownType m.missionType = true := by
    have := h.known i hs'
    rwa [hm] at this
  rcases itemWrite_cases e.env m item hk with ⟨ht, hw⟩ | ⟨-, hw⟩
  · have hin := h.inactive i hs' (by rw [hm]; exact ht)
    rw [hm] at hin
    unfold Statics.write
    split
    case isFalse => rfl
    rw [hw]
    rcases hin with hne | hzero
    · exact entries_congr fun k _ =>
        Store.set_of_item_ne fun heq => hne (Storage.key_injective heq).symm
    · rw [activeItems_of_countMission_eq_zero hzero]
      exact activeItems_of_countMission_eq_zero hzero
  · exact activeItems_congr (write_dm_of_ofCount hw sh.statics) (write_datamanId _ _)
      (write_countMission _ _)

theorem savesMission_itemWrite (env : Env) (m : Manager) (item : MissionItem)
    (ws : List DmWrite) : savesMission (itemWrite env m item :: ws) = savesMission ws := by
  have hne : (itemWrite env m item).item ≠ .missionState := by
    show itemKey m.missionType m.transferDatamanId ≠ _
    cases hid : m.transferDatamanId <;> cases ht : m.missionType <;> simp [itemKey, Storage.key]
  simp [savesMission, hne]

omit [DecidableEq ι] in
theorem Uploads.writtenAfter_itemWrite (u : Uploads ι) (i : ι) {y : Transfer} {ws : List DmWrite}
    {item : MissionItem} (hs : y.state = .getlist) (ht : m.missionType = .mission)
    (hok : (itemWrite e.env m item).ok = true) (hws : ws.filterMap (·.waypoint?) = []) :
    u.writtenAfter i y x' (itemWrite e.env m item :: ws) =
      u.written i ++ [some (.waypoint item)] := by
  have hno : ¬(y.state = .idle ∧ x'.state = .getlist) := by
    rw [hs]
    simp
  have hitem : (itemWrite e.env m item).item = .waypointsOffboard0 ∨
      (itemWrite e.env m item).item = .waypointsOffboard1 := by
    simpa [itemWrite, ht, itemKey] using m.transferDatamanId.key_waypoints
  have hdata : (itemWrite e.env m item).data = .waypoint item := by
    simp [itemWrite, ht, itemData]
  have hw : (itemWrite e.env m item).waypoint? = some (some (.waypoint item)) := by
    rw [DmWrite.waypoint?, if_pos ⟨hitem, hok⟩, hdata]
  rw [Uploads.writtenAfter, if_neg hno, List.filterMap_cons, hw, hws]

theorem Buffered.accept {msg : Message} {int : Bool} {wp : MavlinkMissionItem} {item : MissionItem}
    (h : Buffered sh.statics x u) (hm : x i = m.transfer) (hi : Expects cfg m e msg int wp)
    (hst : Stores cfg m e.env int wp item) (hn : (m.transferSeq + 1) % 65536 ≠ m.transferCount)
    (hx : x' = { m.transfer with seq := (m.transferSeq + 1) % 65536 }) :
    Buffered (sh.statics.write (itemWrite e.env m item)) (Function.update x i x')
      (u.after i (x i) x' (sh.statics.write (itemWrite e.env m item))
        [itemWrite e.env m item]) := by
  have hs : (x i).state = .getlist := by rw [hm]; exact hi.state
  have honly : ∀ j, (Function.update x i x' j).state = .getlist → j = i := by
    intro j hj
    by_contra hji
    rw [Function.update_of_ne hji] at hj
    exact hji (h.unique j i hj hs)
  have hseq : m.transferSeq < m.transferCount ∧ m.transferCount < 65536 := by
    have := h.seq i hs
    rwa [hm] at this
  have hmod : (m.transferSeq + 1) % 65536 = m.transferSeq + 1 := Nat.mod_eq_of_lt (by omega)
  refine ⟨?_, ?_, ?_, ?_, ?_, ?_, ?_⟩
  · intro j hj
    rw [write_inProgress]
    exact h.flag i hs
  · intro j k hj hk
    rw [honly j hj, honly k hk]
  · intro j hj
    rw [honly j hj, Function.update_self, hx]
    exact hst.known
  · intro j hj
    rw [honly j hj, Function.update_self, hx]
    refine ⟨?_, hseq.2⟩
    show (m.transferSeq + 1) % 65536 < m.transferCount
    omega
  · intro j hj ht
    rw [honly j hj, Function.update_self, hx] at ht ⊢
    rw [write_datamanId, write_countMission]
    have := h.inactive i hs (by rw [hm]; exact ht)
    rwa [hm] at this
  · intro j hj ht
    rw [honly j hj] at ht ⊢
    rw [Function.update_self, hx] at ht ⊢
    have ht' : m.missionType = .mission := ht
    have hitems := h.items i hs (by rw [hm]; exact ht')
    rw [hm] at hitems
    -- the next entry of the storage is the waypoint that was written
    have hw : itemWrite e.env m item =
        ⟨m.transferDatamanId.key, m.transferSeq, .waypoint item, true⟩ := by
      have hok := hst.ok
      rcases itemWrite_cases e.env m item hst.known with ⟨-, hw⟩ | ⟨hne, -⟩
      · rw [hw] at hok ⊢
        exact congrArg _ hok
      · exact absurd ht' hne
    show _ = Function.update u.written i _ i
    rw [Function.update_self, Uploads.writtenAfter_itemWrite u i hs ht' hst.ok rfl, ← hitems, hw]
    show entries (sh.statics.dm.set m.transferDatamanId.key m.transferSeq (.waypoint item)
      m.transferDatamanId.key) ((m.transferSeq + 1) % 65536) = _
    rw [hmod, entries_set_end]
    rfl
  · refine h.active_after (Or.inl (h.activeItems_write hm hi.state item)) ?_
    intro _
    rw [savesMission_itemWrite]
    rfl

theorem setCount_activeItems_mission {env : Env} {id : Storage} {n : ℕ} {w : DmWrite}
    (st : Statics) (hw : CountWrite env .mission id n w) (hb : w.ok = true) :
    (st.setCount .mission id n w).activeItems = entries (st.dm id.key) n := by
  have hdm := setCount_dm_of_ofCount hw.ofCount st .mission id n
  simp only [Statics.setCount, hb, if_true] at hdm ⊢
  exact entries_congr fun k _ => hdm id k

theorem setCount_activeItems_of_ne {env : Env} {t : MavMissionType} {id : Storage} {n : ℕ}
    {w : DmWrite} (st : Statics) (hw : CountWrite env t id n w)
    (h : t ≠ .mission ∨ w.ok = false) :
    (st.setCount t id n w).activeItems = st.activeItems ∧ savesMission [w] = false := by
  cases hb : w.ok with
  | false => simp [Statics.setCount, savesMission, hb]
  | true =>
      have hdm := setCount_dm_of_ofCount hw.ofCount st t id n
      rcases hw with ⟨-, -, hw⟩
      cases t with
      | mission =>
          rcases h with h | h
          · exact absurd rfl h
          · exact absurd (hb.symm.trans h) (by decide)
      | fence =>
          refine ⟨activeItems_congr hdm ?_ ?_, by simp [savesMission, hw.1]⟩
          · simp [Statics.setCount, hb]
          · simp [Statics.setCount, hb]
      | rally =>
          refine ⟨activeItems_congr hdm ?_ ?_, by simp [savesMission, hw.1]⟩
          · simp [Statics.setCount, hb]
          · simp [Statics.setCount, hb]
      | all => exact hw.elim
      | other => exact hw.elim

theorem Buffered.complete {msg : Message} {int : Bool} {wp : MavlinkMissionItem}
    {item : MissionItem} {w : DmWrite}
    (h : Buffered sh.statics x u) (hm : x i = m.transfer) (hi : Expects cfg m e msg int wp)
    (hst : Stores cfg m e.env int wp item) (hn : (m.transferSeq + 1) % 65536 = m.transferCount)
    (hw : CountWrite e.env m.missionType m.transferDatamanId m.transferCount w)
    (hx : x'.state = .idle)
    (hst' : st' = ((sh.statics.write (itemWrite e.env m item)).setCount m.missionType
      m.transferDatamanId m.transferCount w).release m.geofenceLocked) :
    Buffered st' (Function.update x i x') (u.after i (x i) x' st' [itemWrite e.env m item, w]) := by
  have hs : (x i).state = .getlist := by rw [hm]; exact hi.state
  have hnone : ∀ j, (Function.update x i x' j).state ≠ .getlist := by
    intro j hj
    by_cases hji : j = i
    · rw [hji, Function.update_self, hx] at hj
      exact absurd hj (by decide)
    · rw [Function.update_of_ne hji] at hj
      exact hji (h.unique j i hj hs)
  have hactive : st'.activeItems =
      (u.after i (x i) x' st' [itemWrite e.env m item, w]).active := by
    have hitems : st'.activeItems = ((sh.statics.write (itemWrite e.env m item)).setCount
        m.missionType m.transferDatamanId m.transferCount w).activeItems := by
      rw [hst']
      rfl
    by_cases hact : m.missionType = .mission ∧ w.ok = true
    · -- the storage of the transfer becomes the active one, with one entry more than before
      rcases hact with ⟨ht, hb⟩
      have hseq : m.transferSeq < m.transferCount ∧ m.transferCount < 65536 := by
        have := h.seq i hs
        rwa [hm] at this
      have hcount : m.transferCount = m.transferSeq + 1 := by omega
      have hold := h.items i hs (by rw [hm]; exact ht)
      rw [hm] at hold
      have hwait : w.waypoint? = none := waypoint?_of_ofCount hw.ofCount
      have hsave : savesMission [itemWrite e.env m item, w] = true := by
        rw [savesMission_itemWrite]
        rw [ht] at hw
        simp [savesMission, hb, hw.2.2.1]
      rw [ht] at hw
      rw [hitems, ht, setCount_activeItems_mission _ hw hb, Uploads.after]
      simp only [hs, hsave, and_self, if_true]
      rw [Uploads.writtenAfter_itemWrite u i hs ht hst.ok (by simp [hwait]), ← hold, hcount]
      rcases itemWrite_cases e.env m item hst.known with ⟨-, heq⟩ | ⟨hne, -⟩
      · have hok := hst.ok
        rw [heq] at hok ⊢
        simp only at hok
        simp only [Statics.write, hok, if_true]
        exact entries_set_end _ _ _ _
      · exact absurd ht hne
    · have hne : m.missionType ≠ .mission ∨ w.ok = false := by
        by_cases ht : m.missionType = .mission
        · exact Or.inr (Bool.eq_false_iff.mpr fun hb => hact ⟨ht, hb⟩)
        · exact Or.inl ht
      rcases setCount_activeItems_of_ne _ hw hne with ⟨hsame, hsave⟩
      refine h.active_after (Or.inl ?_) ?_
      · rw [hitems, hsame]
        exact h.activeItems_write hm hi.state item
      · intro _
        rw [savesMission_itemWrite]
        exact hsave
  exact ⟨fun j hj => absurd hj (hnone j), fun j _ hj => absurd hj (hnone j),
    fun j hj => absurd hj (hnone j), fun j hj => absurd hj (hnone j),
    fun j hj => absurd hj (hnone j), fun j hj => absurd hj (hnone j), hactive⟩

/-- A manager times out while it sends a list, and another one receives a list. -/
def DropsForeignFlag (x : ι → Transfer) (i : ι) (m : Manager) (e : Event) : Prop :=
  e.call = .send ∧ m.timesOut e.env = true ∧ m.state = .sendlist ∧
    ∃ j, j ≠ i ∧ (x j).state = .getlist

theorem refuse_dm {int : Bool} {wp : MavlinkMissionItem} {st : Statics} {ws : List DmWrite}
    {env : Env} (hf : ItemFails cfg sh m env int wp st ws) :
    (∀ (id : Storage) k, st.dm id.key k = sh.statics.dm id.key k) ∧
      st.datamanId = sh.statics.datamanId ∧ st.countMission = sh.statics.countMission ∧
      ws.filterMap (·.waypoint?) = [] ∧ savesMission ws = false := by
  cases hf with
  | parse hp => exact ⟨fun _ _ => rfl, rfl, rfl, rfl, rfl⟩
  | missionCheck hp ht hc => exact ⟨fun _ _ => rfl, rfl, rfl, rfl, rfl⟩
  | @fenceCheck item w hp ht hc hw =>
      have hsave : savesMission [w] = false := by simp [savesMission, hw.2.2.1]
      refine ⟨setCount_dm_of_ofCount hw.ofCount _ _ _ _, ?_, ?_, ?_, hsave⟩
      · cases hb : w.ok <;> simp [Statics.setCount, hb]
      · cases hb : w.ok <;> simp [Statics.setCount, hb]
      · simp [waypoint?_of_ofCount hw.ofCount]
  | write hp hc hw =>
      refine ⟨fun _ _ => rfl, rfl, rfl, ?_, ?_⟩
      · simp [DmWrite.waypoint?, hw]
      · rw [savesMission_itemWrite]
        rfl

/-- Every call keeps the invariant, unless it drops the flag of another manager's upload. -/
theorem Buffered.move (h : Buffered sh.statics x u) (hm : x i = m.transfer)
    (hok : ¬ DropsForeignFlag x i m e) (hmv : Move cfg sh m e st' x' ws) :
    Buffered st' (Function.update x i x') (u.after i (x i) x' st' ws) := by
  have hstate : (x i).state = m.state := congrArg Transfer.state hm
  -- the upload of this manager is the only one
  have hothers : m.state = .getlist → ∀ j, j ≠ i → (x j).state ≠ .getlist := by
    intro hs j hji hj
    exact hji (h.unique j i hj (hstate.trans hs))
  have hidle : m.state ≠ .getlist → (x i).state = .getlist → savesMission ws = false := by
    intro hs hg
    exact absurd (hstate.symm.trans hg) hs
  have hne : WpmState.idle ≠ .getlist := by decide
  cases hmv with
  | quiet =>
      exact h.frame (fun _ _ => rfl) (Or.inl ⟨rfl, rfl⟩) (Or.inr ⟨hm.symm, rfl⟩) (Or.inl rfl) rfl
        (fun _ => rfl)
  | retype t hs =>
      refine h.frame (fun _ _ => rfl) (Or.inl ⟨rfl, rfl⟩) (Or.inl ?_) (Or.inl rfl) rfl (fun _ =>
        rfl)
      show m.state ≠ .getlist
      rw [hs]
      decide
  | @setCurrent w hs hw =>
      have hns : m.state ≠ .getlist := by
        rw [hs]
        decide
      have hcount : w.ofCount := Or.inl hw
      exact h.frame (write_dm_of_ofCount hcount _)
        (Or.inl ⟨write_datamanId _ _, write_countMission _ _⟩) (Or.inl hns)
        (Or.inl (write_inProgress _ _)) (by simp [waypoint?_of_ofCount hcount]) (hidle hns)
  | clear t hs hc hw =>
      have hns : m.state ≠ .getlist := by
        rw [hs]
        decide
      refine h.frame ?_ hc.active (Or.inl hns) (Or.inl hc.inProgress) ?_ (hidle hns)
      · intro id k
        rcases hc.entries id.key k with heq | ⟨-, hkey⟩
        · exact heq
        · cases id <;> simp [Storage.key] at hkey
      · apply List.filterMap_eq_nil_iff.mpr
        intro w hmem
        exact waypoint?_of_ofCount (hw w hmem)
  | begin he hp ha hs hf h0 hn hx => exact h.begin (hstate.trans hs) hf h0 hn hx
  | timeout he ht =>
      have hbusy : m.state ≠ .idle := by
        intro hs
        simp [Manager.timesOut, timedOut, hs] at ht
      have hnone : ∀ j, j ≠ i → (x j).state ≠ .getlist := by
        cases hs : m.state with
        | idle => exact absurd hs hbusy
        | getlist => exact hothers hs
        | sendlist =>
            intro j hji hj
            exact hok ⟨he, ht, hs, j, hji, hj⟩
      exact h.frame (fun _ _ => rfl) (Or.inl ⟨rfl, rfl⟩) (Or.inl hne) (Or.inr hnone) rfl
        (fun _ => rfl)
  | cancel he hp ha hq hs =>
      exact h.frame (fun _ _ => rfl) (Or.inl ⟨rfl, rfl⟩) (Or.inl hne) (Or.inr (hothers hs))
        rfl (fun _ => rfl)
  | downloadNext seq hs =>
      refine h.frame (fun _ _ => rfl) (Or.inl ⟨rfl, rfl⟩) (Or.inl ?_) (Or.inl rfl) rfl (fun _ =>
        rfl)
      show m.state ≠ .getlist
      rw [hs]
      decide
  | downloadEnd seq hs =>
      exact h.frame (fun _ _ => rfl) (Or.inl ⟨rfl, rfl⟩) (Or.inl hne) (Or.inl rfl) rfl
        (fun _ => rfl)
  | download n nf nr he hp ha hs hx =>
      have hsend : WpmState.sendlist ≠ .getlist := by decide
      subst hx
      exact h.frame (fun _ _ => rfl) (Or.inl ⟨rfl, rfl⟩) (Or.inl hsend) (Or.inl rfl) rfl
        (fun _ => rfl)
  | item he hp hs hk hi =>
      cases hi with
      | ignore has =>
          exact h.frame (fun _ _ => rfl) (Or.inl ⟨rfl, rfl⟩) (Or.inr ⟨hm.symm, rfl⟩) (Or.inl rfl)
            rfl
            (fun _ => rfl)
      | refuse hi hf has =>
          rcases refuse_dm hf with ⟨hdm, hid, hcount, hws, hsave⟩
          exact h.frame hdm (Or.inl ⟨hid, hcount⟩) (Or.inl hne) (Or.inr (hothers hs)) hws
            (fun _ => hsave)
      | accept hi hst hn => exact h.accept hm hi hst hn rfl
      | complete hi hst hn hw => exact h.complete hm hi hst hn hw rfl rfl
  | stray hs ht hx =>
      have hk := h.known i (hstate.trans hs)
      rw [hm] at hk
      exact absurd (hk.symm.trans ht) (by decide)

omit [DecidableEq ι] in
theorem Buffered.writes_inactive (h : Buffered sh.statics x u) (hm : x i = m.transfer)
    (hmv : Move cfg sh m e st' x' ws) :
    ∀ w ∈ ws, w.item ≠ sh.datamanId.key ∨ sh.countMission = 0 := by
  have hcount : ∀ w : DmWrite, w.ofCount → w.item ≠ sh.datamanId.key ∨ sh.countMission = 0 :=
    fun w hw => Or.inl (Storage.key_ne_of_ofCount hw _).symm
  have hitem : m.state = .getlist → ∀ item,
      (itemWrite e.env m item).item ≠ sh.datamanId.key ∨ sh.countMission = 0 := by
    intro hs item
    have hs' : (x i).state = .getlist := by rw [hm]; exact hs
    have hk : knownType m.missionType = true := by
      have := h.known i hs'
      rwa [hm] at this
    rcases itemWrite_cases e.env m item hk with ⟨ht, heq⟩ | ⟨-, hw⟩
    · have hin := h.inactive i hs' (by rw [hm]; exact ht)
      rw [hm] at hin
      rw [heq]
      rcases hin with hne | hzero
      · exact Or.inl fun hkey => hne (Storage.key_injective hkey)
      · exact Or.inr hzero
    · exact hcount _ hw
  intro w hw
  cases hmv with
  | quiet => cases hw
  | retype => cases hw
  | setCurrent hs hmission =>
      rw [List.mem_singleton.mp hw]
      exact hcount _ (Or.inl hmission)
  | clear t hs hc hws => exact hcount w (hws w hw)
  | begin => cases hw
  | timeout => cases hw
  | cancel => cases hw
  | downloadNext => cases hw
  | downloadEnd => cases hw
  | download => cases hw
  | item he hp hs hk hi =>
      cases hi with
      | ignore => cases hw
      | refuse hi hf has =>
          cases hf with
          | parse => cases hw
          | missionCheck => cases hw
          | fenceCheck hp ht hc hcw =>
              rw [List.mem_singleton.mp hw]
              exact hcount _ hcw.ofCount
          | write hp hc hfail =>
              rw [List.mem_singleton.mp hw]
              exact hitem hs _
      | accept hi hst hn =>
          rw [List.mem_singleton.mp hw]
          exact hitem hs _
      | complete hi hst hn hcw =>
          rcases List.mem_pair.mp hw with rfl | rfl
          · exact hitem hs _
          · exact hcount _ hcw.ofCount
  | stray hs ht hx =>
      have hk := h.known i (by rw [hm]; exact hs)
      rw [hm] at hk
      exact absurd (hk.symm.trans ht) (by decide)

/-! ## Whole runs -/

/-- No `dm_write` of the call goes to the storage of the active mission, unless that is empty. -/
def WritesInactive (cfg : Config) (s : Sys ι) (e : ι × Event) : Prop :=
  ∀ w ∈ (s.runAt cfg e).writes,
    w.item ≠ s.shared.datamanId.key ∨ s.shared.countMission = 0

/-- The step is not a time-out of a manager that sends a list while another one receives one. -/
def KeepsForeignFlag (s : Sys ι) (e : ι × Event) : Prop :=
  ¬ DropsForeignFlag (fun j => (s.inst j).transfer) e.1 (s.inst e.1) e.2

theorem Buffered.step (cfg : Config) {s : Sys ι} {e : ι × Event}
    (h : Buffered s.shared.statics (fun j => (s.inst j).transfer) u)
    (hok : KeepsForeignFlag s e) :
    Buffered (s.step cfg e).shared.statics (fun j => ((s.step cfg e).inst j).transfer)
      (u.record cfg s e) := by
  have hmove := h.move rfl hok (run_move cfg s.shared (s.inst e.1) e.2)
  have hinst : (fun j => ((s.step cfg e).inst j).transfer) =
      Function.update (fun j => (s.inst j).transfer) e.1 (s.runAt cfg e).m.transfer := by
    funext j
    by_cases hj : j = e.1
    · rw [hj, Sys.step_inst_same, Function.update_self]
    · rw [Sys.step_inst_of_ne hj, Function.update_of_ne hj]
  rw [hinst]
  exact hmove

omit [DecidableEq ι] in
theorem Buffered.init (env : Env) (dm : Store) :
    Buffered (Sys.init env dm : Sys ι).shared.statics
      (fun j => ((Sys.init env dm : Sys ι).inst j).transfer) (Uploads.init (Sys.init env dm)) := by
  have hidle : ∀ j, ¬ ((Sys.init env dm : Sys ι).inst j).transfer.state = .getlist := by
    intro j hj
    cases hj
  exact ⟨fun j hj => absurd hj (hidle j), fun j _ hj => absurd hj (hidle j),
    fun j hj => absurd hj (hidle j), fun j hj => absurd hj (hidle j),
    fun j hj => absurd hj (hidle j), fun j hj => absurd hj (hidle j), rfl⟩

/-- In a run in which no manager that sends a list times out while another one receives one, every
`dm_write` spares the active mission, and its items are at every moment those of the one upload that
activated it. -/
theorem uploads_spare_active_mission (cfg : Config) (env : Env) (dm : Store)
    (es : List (ι × Event))
    (hok : AllSteps (Sys.step cfg) KeepsForeignFlag (Sys.init env dm) es) :
    AllSteps (Sys.step cfg) (WritesInactive cfg) (Sys.init env dm) es ∧
      ∀ p ∈ visited (historyStep (Sys.step cfg) (Uploads.record cfg))
          (Sys.init env dm, Uploads.init (Sys.init env dm)) es,
        p.1.shared.statics.activeItems = p.2.active := by
  have hstep : ∀ (p : Sys ι × Uploads ι) (e : ι × Event),
      Buffered p.1.shared.statics (fun j => (p.1.inst j).transfer) p.2 → KeepsForeignFlag p.1 e →
      Buffered (historyStep (Sys.step cfg) (Uploads.record cfg) p e).1.shared.statics
        (fun j => ((historyStep (Sys.step cfg) (Uploads.record cfg) p e).1.inst j).transfer)
        (historyStep (Sys.step cfg) (Uploads.record cfg) p e).2 :=
    fun p e h hok => h.step cfg hok
  have hwrites : ∀ (p : Sys ι × Uploads ι) (e : ι × Event),
      Buffered p.1.shared.statics (fun j => (p.1.inst j).transfer) p.2 → KeepsForeignFlag p.1 e →
      WritesInactive cfg p.1 e :=
    fun p e h _ => h.writes_inactive rfl (run_move cfg p.1.shared (p.1.inst e.1) e.2)
  have hrun := (allSteps_historyStep (Sys.step cfg) (Uploads.record cfg) KeepsForeignFlag es
    (Sys.init env dm, Uploads.init (Sys.init env dm))).mpr hok
  have hinit := Buffered.init (ι := ι) env dm
  constructor
  · exact (allSteps_historyStep (Sys.step cfg) (Uploads.record cfg) (WritesInactive cfg) es
      (Sys.init env dm, Uploads.init (Sys.init env dm))).mp
        (allSteps_of_invariant hstep hwrites hinit hrun)
  · intro p hp
    exact (invariant_of_allSteps hstep hinit hrun p hp).active

/-- One link uploads a mission of one waypoint, and the other link sends nothing. -/
def quietUpload : List (Bool × Event) :=
  [(false, arrives 1 (toVehicle 255 (.missionCount 1 .mission))),
    (true, ⟨{ now := 2 }, .send⟩),
    (false, arrives 3 (toVehicle 255 (.missionItem (waypointAt 0 500))))]

theorem quietUpload_spares_active_mission :
    (exec (Sys.step vehicle) (Sys.init {} fun _ _ => none) quietUpload).shared.countMission = 1 ∧
      AllSteps (Sys.step vehicle) (WritesInactive vehicle) (Sys.init {} fun _ _ => none)
        quietUpload ∧
      ∀ p ∈ visited (historyStep (Sys.step vehicle) (Uploads.record vehicle))
          (Sys.init {} fun _ _ => none, Uploads.init (Sys.init {} fun _ _ => none)) quietUpload,
        p.1.shared.statics.activeItems = p.2.active := by
  refine ⟨by decide, uploads_spare_active_mission vehicle {} (fun _ _ => none) quietUpload ?_⟩
  refine ⟨?_, ?_, ?_, trivial⟩
  · rintro ⟨hcall, -⟩
    cases hcall
  · rintro ⟨-, htime, -⟩
    exact absurd htime (by decide)
  · rintro ⟨hcall, -⟩
    cases hcall

/-- The second link requests the list and falls silent, the first link begins an upload, the second
link times out, uploads a mission of its own, and the first link goes on. -/
def crossedUploads : List (Bool × Event) :=
  [(true, arrives 1 (toVehicle 250 (.missionRequestList .mission))),
    (false, arrives 5000000 (toVehicle 255 (.missionCount 2 .mission))),
    (true, ⟨{ now := 5000002 }, .send⟩),
    (true, arrives 5000003 (toVehicle 250 (.missionCount 1 .mission))),
    (true, arrives 5000004 (toVehicle 250 (.missionItem (waypointAt 0 100)))),
    (false, arrives 5000005 (toVehicle 255 (.missionItem (waypointAt 0 500))))]

/-- The last item of `crossedUploads` is written over the active mission. -/
theorem crossedUploads_write_active :
    ¬ AllSteps (Sys.step vehicle) (WritesInactive vehicle) (Sys.init {} fun _ _ => none)
      crossedUploads := by
  rintro ⟨-, -, -, -, -, hlast, -⟩
  rcases hlast _ (List.mem_cons_self ..) with hne | hzero
  · exact absurd rfl hne
  · exact absurd hzero (by decide)

end Mission
end DtPhm
