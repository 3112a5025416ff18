import DtPhm.Mission.Moves

/-!
# Acks — whom an acknowledgement is sent to

The handlers of MISSION_COUNT, MISSION_ITEM and MISSION_CLEAR_ALL send their acknowledgements to the
stored partner of the last transfer, and only the start of an upload stores the sender of a message.

* `ackTargets` — the addresses of the acknowledgements that a call has sent;
* `AckDue` — the states and messages that an acknowledgement answers;
* `acks_to_sender_iff` — when every acknowledgement goes to the sender of the message.
-/

namespace DtPhm
namespace Mission

open Dataman

/-! ## Addresses -/

/-- The address of the partner of the last transfer. -/
def Manager.partner (m : Manager) : ℕ × ℕ := (m.transferPartnerSysid, m.transferPartnerCompid)

def Out.ackTarget? : Out → Option (ℕ × ℕ)
  | .missionAck sysid compid _ _ => some (sysid, compid)
  | _ => none

namespace Ctx

/-- The addresses of the MISSION_ACKs sent so far. -/
def ackTargets (c : Ctx) : List (ℕ × ℕ) := c.out.filterMap Out.ackTarget?

/-- The call has sent no acknowledgement, and has kept the partner. -/
structure Quiet (c c' : Ctx) : Prop where
  ackTargets : c'.ackTargets = c.ackTargets
  partner : c'.m.partner = c.m.partner

/-- The call has sent one acknowledgement, to the partner, if `due` holds; otherwise none. -/
def Answers (c c' : Ctx) (due : Prop) : Prop :=
  (due → c'.ackTargets = c.ackTargets ++ [c.m.partner]) ∧ (¬due → c'.ackTargets = c.ackTargets)

theorem Quiet.refl (c : Ctx) : Quiet c c := ⟨rfl, rfl⟩

theorem Quiet.trans {a b c : Ctx} (h : Quiet a b) (h' : Quiet b c) : Quiet a c :=
  ⟨h'.ackTargets.trans h.ackTargets, h'.partner.trans h.partner⟩

theorem Quiet.answers {a b c : Ctx} {due : Prop} (h : Quiet a b) (h' : Answers b c due) :
    Answers a c due := by
  rcases h' with ⟨hdue, hnot⟩
  rw [h.ackTargets, h.partner] at hdue
  rw [h.ackTargets] at hnot
  exact ⟨hdue, hnot⟩

theorem Answers.quiet {a b c : Ctx} {due : Prop} (h : Answers a b due) (h' : Quiet b c) :
    Answers a c due :=
  ⟨fun hdue => h'.ackTargets.trans (h.1 hdue), fun hnot => h'.ackTargets.trans (h.2 hnot)⟩

theorem Quiet.silent {a b : Ctx} {due : Prop} (h : Quiet a b) (hdue : ¬due) : Answers a b due :=
  ⟨fun hd => absurd hd hdue, fun _ => h.ackTargets⟩

variable (cfg : Config) (env : Env) (c : Ctx)

theorem answers_ackPartner {due : Prop} (hdue : due) (type : MavMissionResult) :
    Answers c (c.ackPartner type) due := by
  refine ⟨fun _ => ?_, fun hnot => absurd hdue hnot⟩
  simp [ackTargets, ackPartner, sendMissionAck, emit, Out.ackTarget?, Manager.partner]

theorem quiet_sendStatustext (severity : Severity) (text : String) :
    Quiet c (c.sendStatustext severity text) := by
  refine ⟨?_, rfl⟩
  simp [ackTargets, sendStatustext, emit, Out.ackTarget?]

theorem quiet_filesystemError (text : String) : Quiet c (c.filesystemError text) := by
  unfold filesystemError
  dsimp only
  split
  · refine ⟨?_, rfl⟩
    simp [ackTargets, sendStatustext, emit, Out.ackTarget?]
  · exact ⟨rfl, rfl⟩

theorem quiet_requestPartner : Quiet c (c.requestPartner cfg env) := by
  unfold requestPartner sendMissionRequest
  split
  · refine ⟨?_, rfl⟩
    simp [ackTargets, emit, Out.ackTarget?]
  · exact quiet_sendStatustext c _ _

theorem quiet_touchRecv : Quiet c (c.touchRecv env) := ⟨rfl, rfl⟩

theorem quiet_giveUp : Quiet c c.giveUp := ⟨rfl, rfl⟩

theorem quiet_setInProgress (b : Bool) : Quiet c (c.setInProgress b) := ⟨rfl, rfl⟩

theorem quiet_dmWrite (item : DmItem) (index : ℕ) (data : DmData) :
    Quiet c (c.dmWrite env item index data).1 := ⟨rfl, rfl⟩

theorem quiet_updateActiveMission (id : Storage) (n : ℕ) (seq : ℤ) :
    Quiet c (c.updateActiveMission env id n seq).1 := by
  unfold updateActiveMission
  dsimp only
  split
  · refine ⟨?_, rfl⟩
    simp [ackTargets, dmWrite, emit, Out.ackTarget?]
  · exact (quiet_dmWrite env c _ _ _).trans (quiet_filesystemError _ _)

theorem quiet_updateGeofenceCount (n : ℕ) : Quiet c (c.updateGeofenceCount env n).1 := by
  unfold updateGeofenceCount
  dsimp only
  split
  · exact ⟨rfl, rfl⟩
  · exact ⟨(quiet_filesystemError _ _).ackTargets, (quiet_filesystemError _ _).partner⟩

theorem quiet_updateSafepointCount (n : ℕ) : Quiet c (c.updateSafepointCount env n).1 := by
  unfold updateSafepointCount
  dsimp only
  split
  · exact ⟨rfl, rfl⟩
  · exact ⟨(quiet_filesystemError _ _).ackTargets, (quiet_filesystemError _ _).partner⟩

theorem quiet_clearList : Quiet c (c.clearList env) := by
  unfold clearList
  split
  · exact quiet_updateActiveMission env c _ 0 0
  · exact quiet_updateGeofenceCount env c 0
  · exact quiet_updateSafepointCount env c 0
  · exact Quiet.refl c

theorem quiet_clearType (t : MavMissionType) : Quiet c (c.clearType env t).1 := by
  cases t with
  | mission => exact quiet_updateActiveMission env c _ 0 0
  | fence => exact quiet_updateGeofenceCount env c 0
  | rally => exact quiet_updateSafepointCount env c 0
  | all =>
      exact ((quiet_updateActiveMission env c _ 0 0).trans
        (quiet_updateGeofenceCount env _ 0)).trans (quiet_updateSafepointCount env _ 0)
  | other n => exact Quiet.refl c

theorem quiet_storedOf {r : Ctx × Bool} (h : Quiet c r.1) : Quiet c (storedOf r).1 := h

theorem quiet_storeItem (wp : MavlinkMissionItem) (item : MissionItem) :
    Quiet c (c.storeItem env wp item).1 := by
  unfold storeItem
  split
  · split
    · exact Quiet.refl c
    · exact quiet_storedOf c (quiet_dmWrite env c _ _ _)
  · split
    · exact quiet_updateGeofenceCount env c 0
    · exact quiet_storedOf c (quiet_dmWrite env c _ _ _)
  · exact quiet_storedOf c (quiet_dmWrite env c _ _ _)
  · exact quiet_sendStatustext c _ _

end Ctx

/-! ## When an acknowledgement is due -/

/-- The messages an upload consists of, and those that clear a list. -/
def Payload.isUpload : Payload → Bool
  | .missionCount _ _ => true
  | .missionItem _ => true
  | .missionItemInt _ => true
  | .missionClearAll _ => true
  | _ => false

/-- An item of this mission type can be stored; there is nothing to store for an unknown type. -/
def Storable (env : Env) (m : Manager) (wp : MavlinkMissionItem) (item : MissionItem) : Prop :=
  Ctx.knownType m.missionType →
    itemChecked m.missionType item ∧
      env.writeOk (itemKey m.missionType m.transferDatamanId) (itemIndex m.missionType wp.seq)

/-- A MISSION_COUNT is answered with an acknowledgement: it clears a list, it is refused, or it
comes during another transfer. -/
def CountAckDue (cfg : Config) (sh : Shared) (m : Manager) (count : ℕ) (t : MavMissionType) :
    Prop :=
  match m.state with
  | .idle => sh.transferInProgress ∨ count > maxCount cfg.platform t ∨ count = 0
  | .getlist => m.transferSeq ≠ 0
  | .sendlist => True

/-- A MISSION_ITEM is answered with an acknowledgement: it is refused, or it is the last one. -/
def ItemAckDue (cfg : Config) (env : Env) (m : Manager) (int : Bool) (wp : MavlinkMissionItem) :
    Prop :=
  wp.missionType ≠ m.missionType ∨ m.state ≠ .getlist ∨
    (wp.seq = m.transferSeq ∧
      ∀ item, parseMavlinkMissionItem cfg.conv int wp = .ok item → Storable env m wp item →
        (wp.seq + 1) % 65536 = m.transferCount)

/-- The message is for this system, and is answered with an acknowledgement. -/
def AckDue (cfg : Config) (env : Env) (sh : Shared) (m : Manager) (msg : Message) : Prop :=
  checkSysidCompidMission cfg msg ∧
    match msg.payload with
    | .missionCount count t => CountAckDue cfg sh m count t
    | .missionItem wp => ItemAckDue cfg env m false wp
    | .missionItemInt wp => ItemAckDue cfg env m true wp.cast
    | .missionClearAll _ => m.state = .idle
    | _ => False

/-! ## The handlers -/

namespace Ctx

variable (cfg : Config) (env : Env) (msg : Message) (c : Ctx)

theorem handleMissionCount_answers (hcheck : checkSysidCompidMission cfg msg) (count : ℕ)
    (t : MavMissionType) :
    Answers c (c.handleMissionCount cfg env msg count t)
      (CountAckDue cfg c.sh c.m count t) := by
  unfold handleMissionCount CountAckDue
  rw [if_pos hcheck]
  cases hstate : c.m.state with
  | idle =>
      dsimp only
      split
      · rename_i hbusy
        exact (quiet_touchRecv env c).answers (answers_ackPartner _ (Or.inl hbusy) _)
      · rename_i hfree
        have hset : Quiet c
            ({ c.touchRecv env with m := { c.m with timeLastRecv := env.now, missionType := t }
              }.setInProgress
              true) := ⟨rfl, rfl⟩
        split
        · rename_i hmany
          exact hset.answers
            ((answers_ackPartner _ (Or.inr (Or.inl hmany)) _).quiet (quiet_setInProgress _ _))
        · split
          · rename_i hzero
            exact (hset.trans (quiet_clearList env _)).answers
              ((answers_ackPartner _ (Or.inr (Or.inr hzero)) _).quiet (quiet_setInProgress _ _))
          · rename_i hmany hzero
            refine ⟨?_, fun _ => ?_⟩
            · rintro (h | h | h)
              · exact absurd h hfree
              · exact absurd h hmany
              · exact absurd h hzero
            · rw [(quiet_requestPartner cfg env _).ackTargets]
              unfold startUpload
              dsimp only
              split <;> rfl
  | getlist =>
      dsimp only
      split
      · rename_i hseq
        exact ((quiet_touchRecv env c).trans (quiet_requestPartner cfg env _)).silent
          fun hdue => hdue hseq
      · rename_i hseq
        exact ((quiet_touchRecv env c).trans (quiet_sendStatustext _ _ _)).answers
          (answers_ackPartner _ hseq _)
  | sendlist =>
      exact (quiet_sendStatustext c _ _).answers (answers_ackPartner _ trivial _)

theorem handleMissionClearAll_answers (hcheck : checkSysidCompidMission cfg msg)
    (t : MavMissionType) :
    Answers c (c.handleMissionClearAll cfg env msg t) (c.m.state = .idle) := by
  unfold handleMissionClearAll
  rw [if_pos hcheck]
  split
  · rename_i hidle
    have hset : Quiet c { c with m := { c.m with timeLastRecv := env.now, missionType := t } } :=
      ⟨rfl, rfl⟩
    have hclear := hset.trans (quiet_clearType env _ t)
    dsimp only
    split
    · exact hclear.answers (answers_ackPartner _ hidle _)
    · exact hclear.answers (answers_ackPartner _ hidle _)
  · rename_i hbusy
    exact (quiet_sendStatustext c _ _).silent hbusy

/-- `handle_mission_item_both` stores exactly what can be stored. -/
theorem storeItem_ok_iff (wp : MavlinkMissionItem) (item : MissionItem) :
    (c.storeItem env wp item).2 = .ok ↔ Storable env c.m wp item := by
  unfold Storable storeItem
  cases ht : c.m.missionType with
  | mission =>
      cases hchecked : isFenceOrRally item.navCmd <;>
        simp [hchecked, knownType, itemChecked, itemKey, itemIndex, storedOf, dmWrite]
  | fence =>
      by_cases hvertices : isPolygonVertex item.navCmd = true ∧ item.vertexCount < 3
      · simp [hvertices, knownType, itemChecked]
      · have hchecked : itemChecked .fence item = true := by
          rw [itemChecked, Bool.not_eq_true', Bool.and_eq_false_iff]
          rcases not_and_or.1 hvertices with h | h
          · exact Or.inl (by simpa using h)
          · exact Or.inr (by simpa using h)
        simp [hvertices, hchecked, knownType, itemKey, itemIndex, storedOf, dmWrite]
  | rally => simp [knownType, itemChecked, itemKey, itemIndex, storedOf, dmWrite]
  | all => simp [knownType]
  | other n => simp [knownType]

theorem storeItem_m {c : Ctx} {wp : MavlinkMissionItem} {item : MissionItem}
    (h : (c.storeItem env wp item).2 = .ok) : (c.storeItem env wp item).1.m = c.m := by
  unfold storeItem at h ⊢
  split
  · split
    · rfl
    · rfl
  · split
    · rename_i hfence hvertices
      simp [hfence, hvertices] at h
    · rfl
  · rfl
  · rfl

/-- The end of an upload: one acknowledgement, whatever the update of the count has come to. -/
theorem finish_answers {due : Prop} (hdue : due) {r : Ctx × Bool} (h : Quiet c r.1) :
    Answers c ((if r.2 then r.1.switchToIdleState.ackPartner .accepted
      else r.1.switchToIdleState.ackPartner .error).setInProgress false) due := by
  have hidle : Quiet c r.1.switchToIdleState := h.trans ⟨rfl, rfl⟩
  refine Answers.quiet ?_ (quiet_setInProgress _ _)
  split
  · exact hidle.answers (answers_ackPartner _ hdue _)
  · exact hidle.answers (answers_ackPartner _ hdue _)

theorem completeUpload_answers {due : Prop} (hdue : due) :
    Answers c (c.completeUpload env) due := by
  unfold completeUpload
  cases c.m.missionType with
  | mission => exact finish_answers c hdue (quiet_updateActiveMission env c _ _ _)
  | fence => exact finish_answers c hdue (quiet_updateGeofenceCount env c _)
  | rally => exact finish_answers c hdue (quiet_updateSafepointCount env c _)
  | all => exact finish_answers c hdue (r := (c, true)) (Quiet.refl c)
  | other n => exact finish_answers c hdue (r := (c, true)) (Quiet.refl c)

theorem acceptItem_answers (wp : MavlinkMissionItem) :
    Answers c (c.acceptItem cfg env wp) ((wp.seq + 1) % 65536 = c.m.transferCount) := by
  unfold acceptItem
  dsimp only
  split
  · rename_i hlast
    exact Quiet.answers ⟨rfl, rfl⟩ (completeUpload_answers env _ hlast)
  · rename_i hmore
    exact (Quiet.trans ⟨rfl, rfl⟩ (quiet_requestPartner cfg env _)).silent hmore

theorem receiveItem_answers (wp : MavlinkMissionItem) :
    Answers c (c.receiveItem cfg env wp)
      (∀ item, parseMavlinkMissionItem cfg.conv c.m.intMode wp = .ok item →
        Storable env c.m wp item → (wp.seq + 1) % 65536 = c.m.transferCount) := by
  unfold receiveItem
  cases hparse : parseMavlinkMissionItem cfg.conv c.m.intMode wp with
  | error ret =>
      refine (quiet_sendStatustext c _ _).answers
        (Answers.quiet (answers_ackPartner _ ?_ _) (quiet_giveUp _))
      intro item h
      cases h
  | ok item =>
      have hquiet := quiet_storeItem env c wp item
      have hok := storeItem_ok_iff env c wp item
      have hm : (c.storeItem env wp item).2 = .ok → (c.storeItem env wp item).1.m = c.m :=
        storeItem_m env
      dsimp only
      split
      · rename_i c' hstored
        rw [hstored] at hquiet hok
        refine hquiet.answers (Answers.quiet (answers_ackPartner _ ?_ _) (quiet_giveUp _))
        rintro _ ⟨⟩ hstorable
        cases hok.2 hstorable
      · rename_i c' hstored
        rw [hstored] at hquiet hok
        refine hquiet.answers (Answers.quiet (Answers.quiet (answers_ackPartner _ ?_ _)
          (quiet_sendStatustext _ _ _)) (quiet_giveUp _))
        rintro _ ⟨⟩ hstorable
        cases hok.2 hstorable
      · rename_i c' hstored
        rw [hstored] at hquiet hok hm
        have hcount : c'.m.transferCount = c.m.transferCount := by rw [hm rfl]
        rcases hquiet.answers (acceptItem_answers cfg env c' wp) with ⟨hdue, hnot⟩
        rw [hcount] at hdue hnot
        refine ⟨fun h => hdue (h item rfl (hok.1 rfl)), fun h => hnot fun hlast => h ?_⟩
        rintro _ - -
        exact hlast

theorem handleMissionItem_answers (hcheck : checkSysidCompidMission cfg msg) (int : Bool)
    (wp : MavlinkMissionItem) :
    Answers c (c.handleMissionItem cfg env msg int wp) (ItemAckDue cfg env c.m int wp) := by
  unfold handleMissionItem
  have hint : Quiet c (c.setIntMode int) := ⟨rfl, rfl⟩
  refine hint.answers ?_
  unfold handleMissionItemBoth ItemAckDue
  rw [if_pos hcheck]
  split
  · rename_i htype
    exact answers_ackPartner _ (Or.inl htype) _
  · rename_i htype
    have htype' : wp.missionType = c.m.missionType := not_not.1 htype
    split
    · rename_i hstate
      have hstate : c.m.state = .getlist := hstate
      dsimp only
      split
      · rename_i hseq
        refine ((quiet_touchRecv env _).trans (quiet_requestPartner cfg env _)).silent ?_
        rintro (h | h | h)
        · exact htype h
        · exact h hstate
        · exact hseq h.1
      · rename_i hseq
        have hseq' : wp.seq = c.m.transferSeq := not_not.1 hseq
        rcases (quiet_touchRecv env _).answers (receiveItem_answers cfg env _ wp) with ⟨hdue, hnot⟩
        refine ⟨fun h => hdue ?_, fun h => hnot fun hlast => h (Or.inr (Or.inr ⟨hseq', hlast⟩))⟩
        rcases h with h | h | h
        · exact absurd h htype
        · exact absurd hstate h
        · exact h.2
    · rename_i hstate
      have hdue : c.m.state ≠ .getlist := by
        intro h
        cases h.symm.trans hstate
      split
      · exact answers_ackPartner _ (Or.inr (Or.inl hdue)) _
      · exact (quiet_sendStatustext _ _ _).answers (answers_ackPartner _ (Or.inr (Or.inl hdue)) _)
    · rename_i hstate
      have hdue : c.m.state ≠ .getlist := by
        intro h
        cases h.symm.trans hstate
      exact (quiet_sendStatustext _ _ _).answers (answers_ackPartner _ (Or.inr (Or.inl hdue)) _)

theorem mem_ackTargets {c : Ctx} {a : ℕ × ℕ} :
    a ∈ c.ackTargets ↔ ∃ type t, Out.missionAck a.1 a.2 type t ∈ c.out := by
  constructor
  · intro h
    rcases List.mem_filterMap.1 h with ⟨o, ho, htarget⟩
    cases o with
    | missionAck sysid compid type t =>
        obtain rfl : (sysid, compid) = a := Option.some.inj htarget
        exact ⟨type, t, ho⟩
    | _ => cases htarget
  · rintro ⟨type, t, ho⟩
    exact List.mem_filterMap.2 ⟨_, ho, rfl⟩

end Ctx

/-! ## Every message -/

theorem run_answers (cfg : Config) (env : Env) (sh : Shared) (m : Manager) {msg : Message}
    (hupload : msg.payload.isUpload) :
    Ctx.Answers ⟨sh, m, [], []⟩ (run cfg sh m ⟨env, .handleMessage msg⟩)
      (AckDue cfg env sh m msg) := by
  show Ctx.Answers _ (Ctx.handleMessage cfg env msg ⟨sh, m, [], []⟩) _
  unfold Ctx.handleMessage AckDue
  by_cases hcheck : checkSysidCompidMission cfg msg
  · simp only [hcheck, true_and]
    cases hpayload : msg.payload with
    | missionCount count t => exact Ctx.handleMissionCount_answers cfg env msg _ hcheck count t
    | missionItem wp => exact Ctx.handleMissionItem_answers cfg env msg _ hcheck false wp
    | missionItemInt wp => exact Ctx.handleMissionItem_answers cfg env msg _ hcheck true wp.cast
    | missionClearAll t => exact Ctx.handleMissionClearAll_answers cfg env msg _ hcheck t
    | _ =>
        rw [hpayload] at hupload
        cases hupload
  -- a message for another system is dropped
  · refine Ctx.Quiet.silent ?_ fun hdue => hcheck hdue.1
    cases hpayload : msg.payload with
    | missionCount count t =>
        dsimp only
        unfold Ctx.handleMissionCount
        rw [if_neg hcheck]
        exact Ctx.Quiet.refl _
    | missionItem wp =>
        dsimp only
        unfold Ctx.handleMissionItem Ctx.handleMissionItemBoth
        rw [if_neg hcheck]
        exact ⟨rfl, rfl⟩
    | missionItemInt wp =>
        dsimp only
        unfold Ctx.handleMissionItem Ctx.handleMissionItemBoth
        rw [if_neg hcheck]
        exact ⟨rfl, rfl⟩
    | missionClearAll t =>
        dsimp only
        unfold Ctx.handleMissionClearAll
        rw [if_neg hcheck]
        exact Ctx.Quiet.refl _
    | _ =>
        rw [hpayload] at hupload
        cases hupload

/-- Every MISSION_ACK that the message causes is addressed to its sender. -/
def AcksSender (cfg : Config) (env : Env) (sh : Shared) (m : Manager) (msg : Message) : Prop :=
  ∀ sysid compid type t,
    Out.missionAck sysid compid type t ∈ (run cfg sh m ⟨env, .handleMessage msg⟩).out →
      sysid = msg.sysid ∧ compid = msg.compid

/-- The acknowledgements go to the sender exactly when none is due, or the sender is the partner of
the last transfer. -/
theorem acks_to_sender_iff (cfg : Config) (env : Env) (sh : Shared) (m : Manager) {msg : Message}
    (hupload : msg.payload.isUpload) :
    AcksSender cfg env sh m msg ↔
      (AckDue cfg env sh m msg → m.partner = (msg.sysid, msg.compid)) := by
  have hanswers := run_answers cfg env sh m hupload
  constructor
  · intro h hdue
    have hmem : m.partner ∈ (run cfg sh m ⟨env, .handleMessage msg⟩).ackTargets := by
      rw [hanswers.1 hdue]
      exact List.mem_append_right _ (List.mem_singleton_self _)
    rcases Ctx.mem_ackTargets.1 hmem with ⟨type, t, hout⟩
    rcases h _ _ _ _ hout with ⟨hsysid, hcompid⟩
    exact Prod.ext hsysid hcompid
  · intro h sysid compid type t hout
    have hmem : (sysid, compid) ∈ (run cfg sh m ⟨env, .handleMessage msg⟩).ackTargets :=
      Ctx.mem_ackTargets.2 ⟨type, t, hout⟩
    by_cases hdue : AckDue cfg env sh m msg
    · rw [hanswers.1 hdue, h hdue] at hmem
      exact Prod.mk.inj (List.mem_singleton.1 hmem)
    · rw [hanswers.2 hdue] at hmem
      cases hmem

/-- The partner of the last upload sends a MISSION_COUNT with count 0, which is acknowledged to
it. -/
theorem acks_to_sender_upload :
    AcksSender vehicle {} {} { transferPartnerSysid := 255, transferPartnerCompid := 190 }
        (toVehicle 255 (.missionCount 0 .mission)) ∧
      Out.missionAck 255 190 .accepted .mission ∈
        (run vehicle {} { transferPartnerSysid := 255, transferPartnerCompid := 190 }
          ⟨{}, .handleMessage (toVehicle 255 (.missionCount 0 .mission))⟩).out :=
  ⟨(acks_to_sender_iff vehicle {} {} _ rfl).2 fun _ => rfl,
    List.mem_cons_of_mem _ List.mem_cons_self⟩

/-- The first message after the start is a MISSION_COUNT with count 0.  Its acknowledgement goes to
system 0. -/
theorem ack_to_nobody :
    ¬AcksSender vehicle {} {} {} (toVehicle 255 (.missionCount 0 .mission)) := by
  intro h
  have hack : Out.missionAck 0 0 .accepted .mission ∈
      (run vehicle {} {} ⟨{}, .handleMessage (toVehicle 255 (.missionCount 0 .mission))⟩).out :=
    List.mem_cons_of_mem _ List.mem_cons_self
  exact absurd (h _ _ _ _ hack).1 (by decide)

end Mission
end DtPhm
