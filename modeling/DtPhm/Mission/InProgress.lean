import DtPhm.Lib.Run
import DtPhm.Mission.Handlers

/-!
# InProgress — the flag that admits one upload at a time

`_transfer_in_progress` is shared by all managers: `handle_mission_count` refuses an upload while it
is set, and every path that ends an upload has to drop it.  The flag is *backed* when it is set only
while some manager is receiving a list.  The paths out of `MAVLINK_WPM_STATE_GETLIST` keep it
backed, with one exception: the shortcut of `handle_mission_request_list` for a transfer that may be
completed leaves the state and not the flag.
-/

namespace DtPhm
namespace Mission

open Lib Ctx

variable {ι : Type}

/-! ## The property -/

/-- The flag is set only while some manager receives a list. -/
def Sys.Backed (s : Sys ι) : Prop :=
  s.shared.transferInProgress = true → ∃ i, (s.inst i).state = .getlist

/-- While all managers are idle, no MISSION_COUNT is refused with `MAV_MISSION_ERROR`. -/
def Sys.Serves (cfg : Config) (s : Sys ι) : Prop :=
  (∀ i, (s.inst i).state = .idle) →
    ∀ (i : ι) (env : Env) (msg : Message) (n : ℕ) (t : MavMissionType),
      msg.payload = .missionCount n t →
        .error ∉ (s.runAt cfg (i, ⟨env, .handleMessage msg⟩)).acks

/-- A list request takes the only manager that receives a list out of that state, because its
transfer may be completed, while the flag is set. -/
def Strands (cfg : Config) (s : Sys ι) (e : ι × Event) : Prop :=
  (∃ msg t, e.2.call = .handleMessage msg ∧ msg.payload = .missionRequestList t ∧
    checkSysidCompidMission cfg msg = true) ∧
  (s.inst e.1).state = .getlist ∧ maybeCompleted s.shared (s.inst e.1) = true ∧
  s.shared.transferInProgress = true ∧ ∀ j, j ≠ e.1 → (s.inst j).state ≠ .getlist

/-! ## One step -/

variable {cfg : Config} {sh : Shared} {m : Manager} {e : Event}

theorem Move.flag_cases {st : Statics} {x : Transfer} {ws : List DmWrite}
    (h : Move cfg sh m e st x ws) :
    st.inProgress = false ∨ x.state = .getlist ∨
      (st.inProgress = sh.transferInProgress ∧ m.state ≠ .getlist) ∨
      (st.inProgress = sh.transferInProgress ∧ m.state = .getlist ∧ maybeCompleted sh m = true ∧
        ∃ msg t, e.call = .handleMessage msg ∧ msg.payload = .missionRequestList t ∧
          checkSysidCompidMission cfg msg = true) := by
  cases h with
  | quiet =>
      by_cases hs : m.state = .getlist
      · exact Or.inr (Or.inl hs)
      · exact Or.inr (Or.inr (Or.inl ⟨rfl, hs⟩))
  | retype t hs => exact Or.inr (Or.inr (Or.inl ⟨rfl, by rw [hs]; decide⟩))
  | @setCurrent w hs hw =>
      refine Or.inr (Or.inr (Or.inl ⟨?_, by rw [hs]; decide⟩))
      cases hb : w.ok <;> simp [Statics.write, hb, Shared.statics]
  | clear t hs hc hw =>
      exact Or.inr (Or.inr (Or.inl ⟨hc.inProgress, by rw [hs]; decide⟩))
  | begin he hp ha hs hf h0 hn hx =>
      subst hx
      exact Or.inr (Or.inl rfl)
  | timeout he ht => exact Or.inl rfl
  | cancel he hp ha hq hs => exact Or.inl rfl
  | downloadNext seq hs => exact Or.inr (Or.inr (Or.inl ⟨rfl, by rw [hs]; decide⟩))
  | downloadEnd seq hs => exact Or.inr (Or.inr (Or.inl ⟨rfl, by rw [hs]; decide⟩))
  | download n nf nr he hp ha hs hx =>
      by_cases hg : m.state = .getlist
      · rcases hs with hs | hs
        · exact Or.inr (Or.inr (Or.inr ⟨rfl, hg, hs, _, _, he, hp, ha⟩))
        · exact absurd hg hs
      · exact Or.inr (Or.inr (Or.inl ⟨rfl, hg⟩))
  | item he hp hs hk h =>
      cases h with
      | ignore has => exact Or.inr (Or.inl hs)
      | refuse hi hf has => exact Or.inl rfl
      | accept hi hst hn => exact Or.inr (Or.inl hs)
      | complete hi hst hn hw => exact Or.inl rfl
  | stray hs ht hx =>
      rcases hx with ⟨-, hx⟩ | hx
      · exact Or.inr (Or.inl hx)
      · exact Or.inl hx

/-- The shortcut of a list request: the manager sends its list, and the flag is as before. -/
theorem run_requestList_completed {msg : Message} {t : MavMissionType}
    (he : e.call = .handleMessage msg) (hp : msg.payload = .missionRequestList t)
    (ha : checkSysidCompidMission cfg msg = true) (hmc : maybeCompleted sh m = true) :
    (run cfg sh m e).sh.transferInProgress = sh.transferInProgress ∧
      (run cfg sh m e).m.state = .sendlist := by
  have hcount : m.transferSeq = sh.count m.missionType := by simpa [maybeCompleted] using hmc
  have hidle : (switchToIdleState ⟨sh, m, [], []⟩).m.state = .idle := rfl
  rcases startDownload_spec e.env msg (switchToIdleState ⟨sh, m, [], []⟩) t with
    ⟨n, nf, nr, hst, hx, -⟩
  simp only [run, he, handleMessage, hp, handleMissionRequestList, ha, if_true, currentItemCount,
    hcount, hidle, true_or]
  exact ⟨congrArg Statics.inProgress hst, congrArg Transfer.state hx⟩

theorem acks_clearList (env : Env) (c : Ctx) : (c.clearList env).acks = c.acks := by
  unfold clearList
  split
  · exact (updateActiveMission_updates env c _ 0 0).acks
  · exact (updateGeofenceCount_updates env c c.sh.datamanId 0).acks
  · exact (updateSafepointCount_updates env c c.sh.datamanId 0).acks
  · rfl

theorem acks_startUpload (env : Env) (msg : Message) (c : Ctx) (n : ℕ) :
    (c.startUpload env msg n).acks = c.acks := by
  unfold startUpload
  dsimp only
  split <;> rfl

/-- An idle manager refuses no upload with `MAV_MISSION_ERROR` while the flag is not set. -/
theorem handleMissionCount_acks (cfg : Config) (env : Env) (msg : Message) (n : ℕ)
    (t : MavMissionType) (hs : m.state = .idle) (hf : sh.transferInProgress = false) :
    .error ∉ (handleMissionCount cfg env msg ⟨sh, m, [], []⟩ n t).acks := by
  unfold handleMissionCount
  split
  case isFalse => simp [acks]
  simp only [hs, touchRecv, hf]
  split
  · exact absurd ‹_› (by decide)
  split
  · show _ ∉ Ctx.acks (ackPartner _ _)
    rw [acks_ackPartner]
    simp [acks, setInProgress]
  split
  · show _ ∉ Ctx.acks (ackPartner _ _)
    rw [acks_ackPartner, acks_clearList]
    simp [acks, setInProgress]
  · rw [acks_requestPartner, acks_startUpload]
    simp [acks, setInProgress]

theorem Sys.Backed.serves (cfg : Config) {s : Sys ι} (h : s.Backed) : s.Serves cfg := by
  intro hidle i env msg n t hp
  have hf : s.shared.transferInProgress = false := by
    cases hf : s.shared.transferInProgress with
    | false => rfl
    | true =>
        rcases h hf with ⟨j, hj⟩
        exact absurd ((hidle j).symm.trans hj) (by decide)
  simp only [Sys.runAt, run, handleMessage, hp]
  exact handleMissionCount_acks cfg env msg n t (hidle i) hf

variable [DecidableEq ι]

theorem Sys.step_inst_same (cfg : Config) (s : Sys ι) (e : ι × Event) :
    (s.step cfg e).inst e.1 = (s.runAt cfg e).m := by
  simp [Sys.step]

theorem Sys.step_inst_of_ne {cfg : Config} {s : Sys ι} {e : ι × Event} {j : ι} (h : j ≠ e.1) :
    (s.step cfg e).inst j = s.inst j := by
  simp [Sys.step, Function.update_of_ne h]

theorem backed_step_iff (cfg : Config) {s : Sys ι} (e : ι × Event) (hs : s.Backed) :
    (s.step cfg e).Backed ↔ ¬ Strands cfg s e := by
  constructor
  · rintro hback ⟨⟨msg, t, he, hp, ha⟩, -, hmc, hflag, hothers⟩
    rcases run_requestList_completed he hp ha hmc with ⟨hsame, hstate⟩
    rcases hback (hsame.trans hflag) with ⟨j, hj⟩
    by_cases hje : j = e.1
    · subst hje
      rw [Sys.step_inst_same] at hj
      exact absurd (hstate.symm.trans hj) (by decide)
    · rw [Sys.step_inst_of_ne hje] at hj
      exact hothers j hje hj
  · intro hok hflag
    -- the manager that receives a list is another one, or this one still does
    have hother : (∃ j, j ≠ e.1 ∧ (s.inst j).state = .getlist) →
        ∃ j, ((s.step cfg e).inst j).state = .getlist := by
      rintro ⟨j, hje, hj⟩
      exact ⟨j, by rw [Sys.step_inst_of_ne hje]; exact hj⟩
    rcases (run_move cfg s.shared (s.inst e.1) e.2).flag_cases with
      hfalse | hget | ⟨hsame, hnot⟩ | ⟨hsame, hget, hmc, hreq⟩
    · exact absurd (hfalse.symm.trans hflag) (by decide)
    · exact ⟨e.1, by rw [Sys.step_inst_same]; exact hget⟩
    · rcases hs (hsame.symm.trans hflag) with ⟨j, hj⟩
      exact hother ⟨j, fun hje => hnot (hje ▸ hj), hj⟩
    · apply hother
      by_contra hnone
      exact hok ⟨hreq, hget, hmc, hsame.symm.trans hflag,
        fun j hje hj => hnone ⟨j, hje, hj⟩⟩

/-! ## Whole runs -/

theorem init_inProgress (env : Env) (dm : Store) :
    (initOffboardMission env dm).transferInProgress = false := by
  unfold initOffboardMission loadSafepointStats loadGeofenceStats
  dsimp only
  repeat' split
  all_goals rfl

/-- From the start of the managers on, the flag is backed in every state of a run, and uploads are
served while all managers are idle, exactly when no list request of the run strands the flag. -/
theorem inProgress_backed_iff (cfg : Config) (env : Env) (dm : Store) (es : List (ι × Event)) :
    (∀ s ∈ visited (Sys.step cfg) (Sys.init env dm) es, s.Backed ∧ s.Serves cfg) ↔
      AllSteps (Sys.step cfg) (fun s e => ¬ Strands cfg s e) (Sys.init env dm) es := by
  have hinit : (Sys.init env dm : Sys ι).Backed := by
    intro hflag
    exact absurd ((init_inProgress env dm).symm.trans hflag) (by decide)
  rw [← forall_visited_iff_allSteps (fun s e hs => backed_step_iff cfg e hs) hinit]
  constructor
  · intro h s hs
    exact (h s hs).1
  · intro h s hs
    exact ⟨h s hs, (h s hs).serves cfg⟩

/-- An upload of five items to an empty storage, a list request from the same ground station, and
the acknowledgement of the list. -/
def strandingRun : List (Unit × Event) :=
  [((), arrives 1 (toVehicle 255 (.missionCount 5 .mission))),
    ((), arrives 2 (toVehicle 255 (.missionRequestList .mission))),
    ((), arrives 3 (toVehicle 255 (.missionAck .accepted .mission)))]

/-- After `strandingRun` the only manager is idle, and the flag is set. -/
theorem strandingRun_not_backed :
    ¬ ∀ s ∈ visited (Sys.step vehicle) (Sys.init {} fun _ _ => none) strandingRun,
      s.Backed ∧ s.Serves vehicle := by
  intro h
  rcases h _ (exec_mem_visited _ _ _) with ⟨hback, -⟩
  rcases hback (by rfl) with ⟨⟨⟩, hi⟩
  exact absurd hi (by decide)

end Mission
end DtPhm
