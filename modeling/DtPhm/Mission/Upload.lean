import DtPhm.Lib.Run
import DtPhm.Mission.Handlers

/-!
# Upload — what a completed upload has stored

When an upload completes, the manager acknowledges it with `MAV_MISSION_ACCEPTED`.  The partner then
takes it that its own count and its own items are stored.  Two handlers do not check who is talking
to them: a repeated MISSION_COUNT is answered with the request for the first item whatever it says
and whoever sent it, and an item is taken from any sender.  As long as neither happens, the
acknowledgement means what the partner takes it for.
-/

namespace DtPhm
namespace Mission

open Lib Dataman Ctx

/-! ## What the run has seen -/

structure CountMsg where
  sysid : ℕ
  compid : ℕ
  count : ℕ
  deriving DecidableEq

structure ItemMsg where
  sysid : ℕ
  compid : ℕ
  int : Bool
  wp : MavlinkMissionItem

/-- The MISSION_COUNT a call delivers. -/
def Event.count? (e : Event) : Option CountMsg :=
  match e.call with
  | .handleMessage msg =>
      match msg.payload with
      | .missionCount n _ => some ⟨msg.sysid, msg.compid, n⟩
      | _ => none
  | _ => none

/-- The MISSION_ITEM or MISSION_ITEM_INT a call delivers. -/
def Event.item? (e : Event) : Option ItemMsg :=
  match e.call with
  | .handleMessage msg => msg.item?.map fun r => ⟨msg.sysid, msg.compid, r.1, r.2⟩
  | _ => none

/-- The last MISSION_COUNT that was answered with a MISSION_REQUEST, and the items received since
the transfer has begun. -/
structure UploadHistory where
  lastCount : Option CountMsg := none
  items : List ItemMsg := []

/-- The history after a call that has changed the transfer from `x` to `x'` and sent the requests
`rs`. -/
def UploadHistory.after (h : UploadHistory) (e : Event) (x x' : Transfer) (rs : List ℕ) :
    UploadHistory where
  lastCount :=
    match e.count? with
    | some k => if rs = [] then h.lastCount else some k
    | none => h.lastCount
  items :=
    if x.state = .idle ∧ x'.state = .getlist then [] else h.items ++ e.item?.toList

def UploadHistory.record (cfg : Config) (p : Shared × Manager) (e : Event) (h : UploadHistory) :
    UploadHistory :=
  let c := run cfg p.1 p.2 e
  h.after e p.2.transfer c.m.transfer c.requests

/-! ## What is stored -/

def Statics.count (st : Statics) : MavMissionType → ℕ
  | .mission => st.countMission
  | .fence => st.countFence
  | .rally => st.countRally
  | _ => 0

/-- Dataman has `n` as the number of items of a mission type. -/
def CountStored (st : Statics) (t : MavMissionType) (n : ℕ) : Prop :=
  match t with
  | .mission => ∃ s : MissionState, st.dm .missionState 0 = some (.missionState s) ∧
      s.datamanId = st.datamanId ∧ s.count = n
  | .fence => ∃ counter, st.dm .fencePoints 0 = some (.stats ⟨n, counter⟩)
  | .rally => ∃ counter, st.dm .safePoints 0 = some (.stats ⟨n, counter⟩)
  | _ => False

/-- The entry `seq` under the key of a mission type is the parse of an item with that sequence
number, sent during the transfer by the given sender. -/
def StoredFrom (cfg : Config) (h : UploadHistory) (dm : Store) (t : MavMissionType) (id : Storage)
    (sysid compid seq : ℕ) : Prop :=
  ∃ r ∈ h.items, r.wp.seq = seq ∧ r.sysid = sysid ∧ r.compid = compid ∧
    ∃ item, parseMavlinkMissionItem cfg.conv r.int r.wp = .ok item ∧
      dm (itemKey t id) (itemIndex t seq) = some (itemData t item)

/-- The last MISSION_COUNT that was answered with a request, its sender's items, and nothing else,
are stored. -/
def StoredUpload (cfg : Config) (h : UploadHistory) (st : Statics) (t : MavMissionType) : Prop :=
  ∃ k, h.lastCount = some k ∧ st.count t = k.count ∧ CountStored st t k.count ∧
    ∀ seq, seq < k.count → StoredFrom cfg h st.dm t st.datamanId k.sysid k.compid seq

/-- If the call acknowledges an item because the transfer is completed, the upload is stored. -/
def AcceptsStored (cfg : Config) (q : (Shared × Manager) × UploadHistory) (e : Event) : Prop :=
  e.item?.isSome → q.1.2.state = .getlist → .accepted ∈ (run cfg q.1.1 q.1.2 e).acks →
    StoredUpload cfg (q.2.record cfg q.1 e) (run cfg q.1.1 q.1.2 e).sh.statics q.1.2.missionType

/-- Nobody but the partner takes part in the transfer: a MISSION_COUNT received before the first
item repeats the one that began it, and the item that is expected comes from the partner. -/
structure PartnerOnly (cfg : Config) (m : Manager) (e : Event) : Prop where
  count : ∀ {msg : Message} {n : ℕ} {t : MavMissionType}, e.call = .handleMessage msg →
    msg.payload = .missionCount n t → checkSysidCompidMission cfg msg = true →
    m.state = .getlist → m.transferSeq = 0 →
      msg.sysid = m.transferPartnerSysid ∧ msg.compid = m.transferPartnerCompid ∧
        n = m.transferCount
  item : ∀ {msg : Message} {int : Bool} {wp : MavlinkMissionItem}, Expects cfg m e msg int wp →
    msg.sysid = m.transferPartnerSysid ∧ msg.compid = m.transferPartnerCompid

/-! ## The invariant -/

structure UploadInv (cfg : Config) (st : Statics) (x : Transfer) (h : UploadHistory) : Prop where
  known : x.state = .getlist → knownType x.missionType = true
  seq : x.state = .getlist → x.seq < x.count ∧ x.count < 65536
  count : x.state = .getlist → h.lastCount = some ⟨x.sysid, x.compid, x.count⟩
  items : x.state = .getlist → ∀ k, k < x.seq →
    StoredFrom cfg h st.dm x.missionType x.datamanId x.sysid x.compid k

variable {cfg : Config} {sh : Shared} {m : Manager} {e : Event} {st st' : Statics}
  {x x' : Transfer} {h h' : UploadHistory} {ws : List DmWrite} {rs : List ℕ}
  {as : List MavMissionResult}

theorem StoredFrom.mono {dm dm' : Store} {t : MavMissionType} {id : Storage}
    {sysid compid seq : ℕ} (hs : StoredFrom cfg h dm t id sysid compid seq)
    (hitems : ∀ r ∈ h.items, r ∈ h'.items)
    (hdm : dm' (itemKey t id) (itemIndex t seq) = dm (itemKey t id) (itemIndex t seq)) :
    StoredFrom cfg h' dm' t id sysid compid seq := by
  rcases hs with ⟨r, hr, hseq, hsys, hcomp, item, hp, hst⟩
  exact ⟨r, hitems r hr, hseq, hsys, hcomp, item, hp, hdm.trans hst⟩

theorem UploadInv.leave (hx : x'.state ≠ .getlist) : UploadInv cfg st' x' h :=
  ⟨fun h => absurd h hx, fun h => absurd h hx, fun h => absurd h hx, fun h => absurd h hx⟩

theorem items_subset_after (hs : x.state = .getlist) :
    ∀ r ∈ h.items, r ∈ (h.after e x x' rs).items := by
  intro r hr
  have hno : ¬(x.state = .idle ∧ x'.state = .getlist) := by
    rw [hs]
    simp
  simp only [UploadHistory.after, if_neg hno]
  exact List.mem_append_left _ hr

theorem itemIndex_injective (t : MavMissionType) : Function.Injective (itemIndex t) := by
  intro a b hab
  cases t <;> simp_all [itemIndex]

theorem Expects.item?_eq {msg : Message} {int : Bool} {wp : MavlinkMissionItem}
    (hi : Expects cfg m e msg int wp) : e.item? = some ⟨msg.sysid, msg.compid, int, wp⟩ := by
  simp [Event.item?, hi.call, hi.item]

/-! ## Answers to a MISSION_COUNT -/

theorem requests_requestPartner {env : Env} {c : Ctx}
    (hmax : c.m.transferSeq < c.currentMaxItemCount cfg) :
    (c.requestPartner cfg env).requests = c.requests ++ [c.m.transferSeq] := by
  simp [requestPartner, sendMissionRequest, hmax, requests, emit, Out.requestSeq?]

theorem run_requests_begin {msg : Message} {n : ℕ} {t : MavMissionType}
    (he : e.call = .handleMessage msg) (hp : msg.payload = .missionCount n t)
    (ha : checkSysidCompidMission cfg msg = true) (hs : m.state = .idle)
    (hf : sh.transferInProgress = false) (h0 : 0 < n) (hn : n ≤ maxCount cfg.platform t) :
    (run cfg sh m e).requests ≠ [] := by
  simp only [run, he, handleMessage, hp, handleMissionCount, ha, if_true, hs, touchRecv, hf]
  split
  · exact absurd ‹_› (by decide)
  split
  · rename_i hmax
    exact absurd hn (Nat.not_le.mpr hmax)
  split
  · rename_i hzero
    exact absurd hzero (Nat.ne_of_gt h0)
  · rw [requests_requestPartner]
    · simp
    · show (Ctx.m _).transfer.seq < maxCount cfg.platform (Ctx.m _).transfer.missionType
      rw [(startUpload_spec _ _ _ _).2.1]
      exact h0.trans_le hn

theorem run_requests_busy {msg : Message} {n : ℕ} {t : MavMissionType}
    (he : e.call = .handleMessage msg) (hp : msg.payload = .missionCount n t)
    (hs : m.state = .getlist)
    (hno : checkSysidCompidMission cfg msg = false ∨ m.transferSeq ≠ 0) :
    (run cfg sh m e).requests = [] := by
  simp only [run, he, handleMessage, hp, handleMissionCount, hs, touchRecv]
  split
  · rename_i ha
    split
    · rename_i hz
      rcases hno with hno | hno
      · exact absurd (hno.symm.trans ha) (by decide)
      · exact absurd hz hno
    · rfl
  · rfl

/-- In an upload of the partner's alone, the last MISSION_COUNT stays the one that began it. -/
theorem UploadInv.lastCount_after (hinv : UploadInv cfg st m.transfer h)
    (hok : PartnerOnly cfg m e) (hs : m.state = .getlist)
    (hbusy : ∀ {msg n t}, e.call = .handleMessage msg → msg.payload = .missionCount n t →
      checkSysidCompidMission cfg msg = false ∨ m.transferSeq ≠ 0 → rs = []) :
    (h.after e m.transfer x' rs).lastCount = h.lastCount := by
  unfold UploadHistory.after
  dsimp only
  split
  case h_2 => rfl
  rename_i k hk
  split
  · rfl
  -- a MISSION_COUNT that was answered: it arrived in time, for this vehicle
  rename_i hrs
  unfold Event.count? at hk
  split at hk
  case h_2 => cases hk
  rename_i msg he
  split at hk
  case h_2 => cases hk
  rename_i n t hp
  cases hk
  have ha : checkSysidCompidMission cfg msg = true := by
    by_contra ha
    exact hrs (hbusy he hp (Or.inl (Bool.eq_false_iff.mpr ha)))
  have hseq : m.transferSeq = 0 := by
    by_contra hseq
    exact hrs (hbusy he hp (Or.inr hseq))
  rcases hok.count he hp ha hs hseq with ⟨hsys, hcomp, hn⟩
  rw [hinv.count hs, hsys, hcomp, hn]
  rfl

/-! ## One step -/

/-- With the item that was expected, every item up to it is stored from the partner. -/
theorem UploadInv.stored_item {msg : Message} {int : Bool} {wp : MavlinkMissionItem}
    {item : MissionItem} (hinv : UploadInv cfg sh.statics m.transfer h) (hok : PartnerOnly cfg m e)
    (hi : Expects cfg m e msg int wp) (hst : Stores cfg m e.env int wp item) :
    ∀ k, k < m.transferSeq + 1 →
      StoredFrom cfg (h.after e m.transfer x' rs) (sh.statics.write (itemWrite e.env m item)).dm
        m.missionType m.transferDatamanId m.transferPartnerSysid m.transferPartnerCompid k := by
  have hdm : (sh.statics.write (itemWrite e.env m item)).dm =
      sh.statics.dm.set (itemKey m.missionType m.transferDatamanId)
        (itemIndex m.missionType m.transferSeq) (itemData m.missionType item) := by
    simp only [Statics.write, hst.ok, if_true]
    rfl
  intro k hk
  rcases Nat.lt_succ_iff_lt_or_eq.mp hk with hlt | rfl
  · refine (hinv.items hi.state k hlt).mono (items_subset_after hi.state) ?_
    rw [hdm]
    -- the items before it are in other places
    exact Store.set_of_index_ne fun heq => Nat.ne_of_lt hlt (itemIndex_injective _ heq)
  · rcases hok.item hi with ⟨hsys, hcomp⟩
    refine ⟨⟨msg.sysid, msg.compid, int, wp⟩, ?_, hi.seq, hsys, hcomp, item, hst.parse, ?_⟩
    · have hno : ¬(m.transfer.state = .idle ∧ x'.state = .getlist) := by
        rintro ⟨hidle, -⟩
        exact absurd (hi.state.symm.trans hidle) (by decide)
      simp only [UploadHistory.after, if_neg hno, hi.item?_eq]
      exact List.mem_append_right _ (List.mem_singleton.mpr rfl)
    · rw [hdm]
      exact Store.set_same _ _ _ _

/-- The count of an upload was written: it is the stored one, and no item has changed. -/
theorem setCount_stored {env : Env} {t : MavMissionType} {id : Storage} {n : ℕ} {w : DmWrite}
    (st : Statics) (hw : CountWrite env t id n w) (hb : w.ok = true) :
    (st.setCount t id n w).count t = n ∧ CountStored (st.setCount t id n w) t n ∧
      ∀ k, (st.setCount t id n w).dm (itemKey t (st.setCount t id n w).datamanId) (itemIndex t k) =
        st.dm (itemKey t id) (itemIndex t k) := by
  rcases hw with ⟨hindex, -, hw⟩
  cases t with
  | mission =>
      rcases hw with ⟨hitem, s, hdata, hid, hcount⟩
      simp only [Statics.setCount, hb, if_true, Statics.write, hitem, hindex, hdata, Statics.count,
        true_and]
      refine ⟨⟨s, Store.set_same st.dm .missionState 0 _, hid, hcount⟩, fun k =>
        Store.set_of_item_ne ?_⟩
      cases id <;> decide
  | fence =>
      rcases hw with ⟨hitem, counter, hdata⟩
      simp only [Statics.setCount, hb, if_true, Statics.write, hitem, hindex, hdata, Statics.count,
        true_and]
      exact ⟨⟨counter, Store.set_same st.dm .fencePoints 0 _⟩,
        fun k => Store.set_of_index_ne (Nat.succ_ne_zero k)⟩
  | rally =>
      rcases hw with ⟨hitem, counter, hdata⟩
      simp only [Statics.setCount, hb, if_true, Statics.write, hitem, hindex, hdata, Statics.count,
        true_and]
      exact ⟨⟨counter, Store.set_same st.dm .safePoints 0 _⟩,
        fun k => Store.set_of_index_ne (Nat.succ_ne_zero k)⟩
  | all => exact hw.elim
  | other => exact hw.elim

/-- What is stored when an upload of the partner's alone is acknowledged as completed. -/
theorem UploadInv.acceptsStored (hinv : UploadInv cfg sh.statics m.transfer h)
    (hok : PartnerOnly cfg m e) (hs : m.state = .getlist)
    (hbusy : ∀ {msg n t}, e.call = .handleMessage msg → msg.payload = .missionCount n t →
      checkSysidCompidMission cfg msg = false ∨ m.transferSeq ≠ 0 → rs = [])
    {msg : Message} {int : Bool} {wp : MavlinkMissionItem}
    (hmv : ItemMove cfg sh m e msg int wp st' x' ws as) (ha : .accepted ∈ as) :
    StoredUpload cfg (h.after e m.transfer x' rs) st' m.missionType := by
  cases hmv with
  | ignore has => exact absurd ha has
  | refuse hi hf has => exact absurd ha has
  | accept => cases ha
  | @complete item w hi hst hn hw =>
      -- a count that could not be written is answered with an error
      have hb : w.ok = true := by
        cases hb : w.ok with
        | true => rfl
        | false =>
            rw [hb] at ha
            exact absurd ha (by decide)
      have hseq : m.transferSeq < m.transferCount ∧ m.transferCount < 65536 := hinv.seq hs
      have hcount : m.transferCount = m.transferSeq + 1 := by omega
      rcases setCount_stored (sh.statics.write (itemWrite e.env m item)) hw hb with
        ⟨hnum, hstored, hsame⟩
      refine ⟨⟨m.transferPartnerSysid, m.transferPartnerCompid, m.transferCount⟩,
        (hinv.lastCount_after hok hs hbusy).trans (hinv.count hs), hnum, hstored, ?_⟩
      intro k hk
      rcases hinv.stored_item hok hi hst k (hcount ▸ hk) with
        ⟨r, hr, hrseq, hsys, hcomp, item', hp, hdm⟩
      exact ⟨r, hr, hrseq, hsys, hcomp, item', hp, (hsame k).trans hdm⟩

/-- Every call keeps the invariant while nobody but the partner takes part in the transfer. -/
theorem UploadInv.move (hinv : UploadInv cfg sh.statics m.transfer h) (hok : PartnerOnly cfg m e)
    (hbusy : ∀ {msg n t}, e.call = .handleMessage msg → msg.payload = .missionCount n t →
      m.state = .getlist → checkSysidCompidMission cfg msg = false ∨ m.transferSeq ≠ 0 → rs = [])
    (hbegin : ∀ {msg n t}, e.call = .handleMessage msg → msg.payload = .missionCount n t →
      checkSysidCompidMission cfg msg = true → m.state = .idle → sh.transferInProgress = false →
      0 < n → n ≤ maxCount cfg.platform t → rs ≠ [])
    (hmv : Move cfg sh m e st' x' ws) :
    UploadInv cfg st' x' (h.after e m.transfer x' rs) := by
  have hne : WpmState.idle ≠ .getlist := by decide
  have hsend : WpmState.sendlist ≠ .getlist := by decide
  -- a call without effect may still have heard a message, so that the history grows
  have hquiet : UploadInv cfg sh.statics m.transfer (h.after e m.transfer m.transfer rs) := by
    by_cases hs : m.state = .getlist
    · refine ⟨hinv.known, hinv.seq, fun _ => ?_, fun _ k hk => ?_⟩
      · exact (hinv.lastCount_after hok hs fun he hp => hbusy he hp hs).trans (hinv.count hs)
      · exact (hinv.items hs k hk).mono (items_subset_after hs) rfl
    · exact UploadInv.leave hs
  cases hmv with
  | quiet => exact hquiet
  | retype t hs => exact UploadInv.leave (by show m.state ≠ _; rw [hs]; exact hne)
  | setCurrent hs hw => exact UploadInv.leave (by show m.state ≠ _; rw [hs]; exact hne)
  | clear t hs hc hw => exact UploadInv.leave (by show m.state ≠ _; rw [hs]; exact hne)
  | @begin msg n t y he hp ha hs hf h0 hn hx =>
      subst hx
      refine ⟨fun _ => knownType_of_maxCount_pos (h0.trans_le hn),
        fun _ => ⟨h0, (hn.trans_lt (maxCount_lt _ _)).trans (by decide)⟩, fun _ => ?_,
        fun _ k hk => absurd hk (Nat.not_lt_zero k)⟩
      have hcount : e.count? = some ⟨msg.sysid, msg.compid, n⟩ := by
        simp [Event.count?, he, hp]
      simp only [UploadHistory.after, hcount, if_neg (hbegin he hp ha hs hf h0 hn)]
  | timeout he ht => exact UploadInv.leave hne
  | cancel he hp ha hq hs => exact UploadInv.leave hne
  | downloadNext seq hs => exact UploadInv.leave (by show m.state ≠ _; rw [hs]; exact hsend)
  | downloadEnd seq hs => exact UploadInv.leave hne
  | download n nf nr he hp ha hs hx =>
      subst hx
      exact UploadInv.leave hsend
  | item he hp hs hk hi =>
      cases hi with
      | ignore has => exact hquiet
      | refuse hi hf has => exact UploadInv.leave hne
      | accept hi hst hn =>
          have hseq : m.transferSeq < m.transferCount ∧ m.transferCount < 65536 := hinv.seq hs
          -- the sequence number has 16 bits, and the count is below its end
          have hmod : (m.transferSeq + 1) % 65536 = m.transferSeq + 1 := Nat.mod_eq_of_lt (by omega)
          rw [hmod] at hn ⊢
          refine ⟨fun _ => hk, fun _ => ⟨?_, hseq.2⟩, fun _ => ?_, fun _ k hlt => ?_⟩
          · show m.transferSeq + 1 < m.transferCount
            omega
          · exact (hinv.lastCount_after hok hs fun he hp => hbusy he hp hs).trans (hinv.count hs)
          · exact hinv.stored_item hok hi hst k hlt
      | complete hi hst hn hw => exact UploadInv.leave hne
  -- an upload of an unknown type has never begun
  | stray hs ht hx => exact absurd ((hinv.known hs).symm.trans ht) (by decide)

/-! ## Whole runs -/

theorem UploadInv.step {q : (Shared × Manager) × UploadHistory}
    (hinv : UploadInv cfg q.1.1.statics q.1.2.transfer q.2) (hok : PartnerOnly cfg q.1.2 e) :
    UploadInv cfg (historyStep (stepOne cfg) (UploadHistory.record cfg) q e).1.1.statics
      (historyStep (stepOne cfg) (UploadHistory.record cfg) q e).1.2.transfer
      (historyStep (stepOne cfg) (UploadHistory.record cfg) q e).2 :=
  hinv.move hok (fun he hp hs hno => run_requests_busy he hp hs hno)
    (fun he hp ha hs hf h0 hn => run_requests_begin he hp ha hs hf h0 hn)
    (run_move cfg q.1.1 q.1.2 e)

theorem UploadInv.acceptsStored_step {q : (Shared × Manager) × UploadHistory}
    (hinv : UploadInv cfg q.1.1.statics q.1.2.transfer q.2) (hok : PartnerOnly cfg q.1.2 e) :
    AcceptsStored cfg q e := by
  intro hitem hs ha
  rcases Option.isSome_iff_exists.mp hitem with ⟨r, hr⟩
  unfold Event.item? at hr
  split at hr
  case h_2 => cases hr
  rename_i msg he
  rcases Option.map_eq_some_iff.mp hr with ⟨⟨int, wp⟩, hp, -⟩
  exact hinv.acceptsStored hok hs (fun he hp hno => run_requests_busy he hp hs hno)
    (run_itemMove cfg q.1.1 q.1.2 e he hp hs (hinv.known hs)) ha

/-- In a run in which nobody but the partner takes part in a transfer, every item that is
acknowledged because the transfer is completed finds the count and the items of the last
MISSION_COUNT's sender stored. -/
theorem completed_uploads_stored (cfg : Config) (env : Env) (dm : Store) (es : List Event)
    (hok : AllSteps (stepOne cfg) (fun p e => PartnerOnly cfg p.2 e) (initOne env dm) es) :
    AllSteps (historyStep (stepOne cfg) (UploadHistory.record cfg)) (AcceptsStored cfg)
      (initOne env dm, {}) es := by
  have hinit : UploadInv cfg (initOne env dm).1.statics (initOne env dm).2.transfer {} :=
    UploadInv.leave (show WpmState.idle ≠ .getlist by decide)
  have hstep : ∀ (q : (Shared × Manager) × UploadHistory) (e : Event),
      UploadInv cfg q.1.1.statics q.1.2.transfer q.2 → PartnerOnly cfg q.1.2 e →
      UploadInv cfg (historyStep (stepOne cfg) (UploadHistory.record cfg) q e).1.1.statics
        (historyStep (stepOne cfg) (UploadHistory.record cfg) q e).1.2.transfer
        (historyStep (stepOne cfg) (UploadHistory.record cfg) q e).2 :=
    fun q e hinv hok => hinv.step hok
  have hstored : ∀ (q : (Shared × Manager) × UploadHistory) (e : Event),
      UploadInv cfg q.1.1.statics q.1.2.transfer q.2 → PartnerOnly cfg q.1.2 e →
      AcceptsStored cfg q e :=
    fun q e hinv hok => hinv.acceptsStored_step hok
  exact allSteps_of_invariant hstep hstored hinit
    ((allSteps_historyStep (stepOne cfg) (UploadHistory.record cfg)
      (fun p e => PartnerOnly cfg p.2 e) es (initOne env dm, {})).mpr hok)

/-- An upload of one waypoint; the item comes from the ground station `itemSysid`. -/
def uploadOne (itemSysid : ℕ) : List Event :=
  [arrives 1 (toVehicle 255 (.missionCount 1 .mission)),
    arrives 2 (toVehicle itemSysid (.missionItem (waypointAt 0 500)))]

theorem uploadOne_stored :
    (exec (stepOne vehicle) (initOne {} fun _ _ => none) (uploadOne 255)).1.countMission = 1 ∧
      AllSteps (historyStep (stepOne vehicle) (UploadHistory.record vehicle))
        (AcceptsStored vehicle) (initOne {} fun _ _ => none, {}) (uploadOne 255) := by
  refine ⟨by decide, completed_uploads_stored vehicle {} (fun _ _ => none) (uploadOne 255)
    ⟨⟨?_, ?_⟩, ⟨?_, ?_⟩, trivial⟩⟩
  · intro msg n t he hp ha hs
    exact absurd hs (by decide)
  · intro msg int wp hi
    exact absurd hi.state (by decide)
  · intro msg n t he hp
    cases he
    cases hp
  · intro msg int wp hi
    cases hi.call
    exact ⟨rfl, rfl⟩

/-- The item of another ground station completes the upload. -/
theorem uploadOne_foreign_item :
    ¬ AllSteps (historyStep (stepOne vehicle) (UploadHistory.record vehicle))
      (AcceptsStored vehicle) (initOne {} fun _ _ => none, {}) (uploadOne 250) := by
  rintro ⟨-, hlast, -⟩
  rcases hlast rfl rfl (by decide) with ⟨k, hk, -, -, hitems⟩
  have hcount : some (CountMsg.mk 255 190 1) = some k := hk
  cases hcount
  rcases hitems 0 (by decide) with ⟨r, hr, -, hsys, -⟩
  rw [List.mem_singleton.mp hr] at hsys
  exact absurd hsys (by decide)

end Mission
end DtPhm
