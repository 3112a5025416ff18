import DtPhm.Navigator.MissionItems

/-!
# ReadAhead — the next position item, and the one that is reached

`prepare_mission_items` looks for the next position item ahead of time.  It reads at the offsets 1,
2, … from the current item, and follows jumps without counting them.  When the mission is executed,
the index moves with every jump, and each jump uses up a repetition.

* `Reaches` — what is reached by executing the mission;
* `destination`, `jumpsTaken` — where the jumps of the stored mission lead;
* `ReadAheadSafe` — before the position item nothing is read behind a jump, and no jump is taken
  more often than it has repetitions left;
* `read_ahead_agrees` — then the item that is found ahead of time is the one that is reached.
-/

namespace DtPhm
namespace Navigator

open Mission

/-! ## Execution -/

/-- `_current_mission_index` goes to the next item. -/
def Nav.increment (s : Nav) : Nav := { s with currentMissionIndex := s.currentMissionIndex + 1 }

/-- The mission is executed until an item with a position is read, or until no item can be read. -/
inductive Reaches : Nav → Option MissionItem → Prop
  | found {s : Nav} {item : MissionItem} (h : (readMissionItem {} s.increment 0).item = some item)
      (hp : itemContainsPosition item = true) : Reaches s (some item)
  | ends {s : Nav} (h : (readMissionItem {} s.increment 0).item = none) : Reaches s none
  | skip {s : Nav} {item : MissionItem} {r : Option MissionItem}
      (h : (readMissionItem {} s.increment 0).item = some item)
      (hp : itemContainsPosition item = false)
      (hr : Reaches (readMissionItem {} s.increment 0).nav r) : Reaches s r

theorem Reaches.of_read_eq {s t : Nav} {r : Option MissionItem} (hr : Reaches t r)
    (hitem : (readMissionItem {} s.increment 0).item = (readMissionItem {} t.increment 0).item)
    (hnav : (readMissionItem {} s.increment 0).nav = (readMissionItem {} t.increment 0).nav) :
    Reaches s r := by
  cases hr with
  | found h hp => exact Reaches.found (hitem.trans h) hp
  | ends h => exact Reaches.ends (hitem.trans h)
  | skip h hp hr => exact Reaches.skip (hitem.trans h) hp (hnav ▸ hr)

theorem Reaches.unique {s : Nav} {r r' : Option MissionItem} (h : Reaches s r)
    (h' : Reaches s r') : r = r' := by
  induction h with
  | found hr hp =>
      cases h' with
      | found hr' _ => exact hr.symm.trans hr'
      | ends hr' => exact absurd (hr.symm.trans hr') (by simp)
      | skip hr' hp' _ =>
          cases hr.symm.trans hr'
          exact absurd (hp.symm.trans hp') (by decide)
  | ends hr =>
      cases h' with
      | found hr' _ => exact absurd (hr.symm.trans hr') (by simp)
      | ends _ => rfl
      | skip hr' _ _ => exact absurd (hr.symm.trans hr') (by simp)
  | skip hr hp _ ih =>
      cases h' with
      | found hr' hp' =>
          cases hr.symm.trans hr'
          exact absurd (hp.symm.trans hp') (by decide)
      | ends hr' => exact absurd (hr.symm.trans hr') (by simp)
      | skip _ _ hrest => exact ih hrest

/-! ## Where the jumps lead -/

/-- The item at an index, if it is one of the mission. -/
def Nav.itemAt (s : Nav) (i : ℤ) : Option MissionItem :=
  if s.inBounds i then readItem s.key s.dm true i.toNat else none

/-- The item that is found from `i` on within `n` rounds. -/
def Nav.destination (s : Nav) : ℕ → ℤ → Option MissionItem
  | 0, _ => none
  | n + 1, i =>
      match s.itemAt i with
      | none => none
      | some item =>
          if isJump item then
            s.destination n (if hasRepetitions item then item.doJumpMissionIndex else i + 1)
          else
            some item

/-- The jumps that are taken on the way. -/
def Nav.jumpsTaken (s : Nav) : ℕ → ℤ → List ℕ
  | 0, _ => []
  | n + 1, i =>
      match s.itemAt i with
      | none => []
      | some item =>
          if isJump item then
            if hasRepetitions item then i.toNat :: s.jumpsTaken n item.doJumpMissionIndex
            else s.jumpsTaken n (i + 1)
          else
            []

/-- How many repetitions the jump at an index has left. -/
def Nav.repetitionsLeft (s : Nav) (j : ℕ) : ℕ :=
  match readItem s.key s.dm true j with
  | none => 0
  | some item =>
      if isJump item then (item.doJumpRepeatCount - item.doJumpCurrentCount).toNat else 0

/-- Reading ahead from index `i` on is safe: the first read that takes a jump is also the last one,
and takes no jump more often than it has repetitions left. -/
inductive Nav.ReadAheadSafe (s : Nav) : ℤ → Prop
  | pass {i : ℤ} (hjumps : s.jumpsTaken 10 i = []) (h : s.ReadAheadSafe (i + 1)) : s.ReadAheadSafe i
  | last {i : ℤ} (hjumps : ∀ j, (s.jumpsTaken 10 i).count j ≤ s.repetitionsLeft j)
      (h : ∀ item, s.destination 10 i = some item → itemContainsPosition item = true) :
      s.ReadAheadSafe i

variable {s : Nav}

/-! ## Reads -/

theorem Nav.itemAt_eq {i : ℤ} (hb : s.inBounds i = true) :
    s.itemAt i = readItem s.key s.dm true i.toNat :=
  if_pos hb

theorem followJumps_ahead_item (hmode : s.missionExecutionMode = .normal) (n : ℕ) (i : ℤ) :
    (followJumps s {} false n s.dm i).item = s.destination n i := by
  induction n generalizing i with
  | zero => rfl
  | succ n ih =>
      rw [Nav.destination]
      cases hb : s.inBounds i with
      | false =>
          rw [followJumps_outside _ _ _ _ hb, Nav.itemAt, hb]
          rfl
      | true =>
          rw [Nav.itemAt_eq hb]
          cases hitem : readItem s.key s.dm true i.toNat with
          | none => rw [followJumps_unread hb hitem]
          | some item =>
              dsimp only
              cases hjump : isJump item with
              | false =>
                  rw [followJumps_item hb hitem hjump]
                  rfl
              | true =>
                  cases hrep : hasRepetitions item with
                  | false =>
                      have hno :
                          ¬(hasRepetitions item = true ∧ s.missionExecutionMode = .normal) := by
                        simp [hrep]
                      rw [followJumps_skip hb hitem hjump hno, Followed.report_item, ih]
                      simp [hmode]
                  | true =>
                      rw [followJumps_ahead hb hitem hjump ⟨hrep, hmode⟩, ih]
                      rfl

/-- The count of a jump is raised by `c`. -/
def raiseItem (c : ℕ) (item : MissionItem) : MissionItem :=
  setJumpCount item (item.doJumpCurrentCount + c)

@[simp] theorem raiseItem_zero (item : MissionItem) : raiseItem 0 item = item := by
  simp [raiseItem, setJumpCount]

theorem raiseItem_succ (c : ℕ) (item : MissionItem) :
    setJumpCount (raiseItem c item) ((raiseItem c item).doJumpCurrentCount + 1) =
      raiseItem (c + 1) item := by
  have hcount : item.doJumpCurrentCount + (c : ℤ) + 1 = item.doJumpCurrentCount +
      ((c + 1 : ℕ) : ℤ) := by
    omega
  calc
    setJumpCount (raiseItem c item) ((raiseItem c item).doJumpCurrentCount + 1)
        = setJumpCount item (item.doJumpCurrentCount + (c : ℤ) + 1) := rfl
    _ = raiseItem (c + 1) item := by rw [hcount, raiseItem]

def raiseData (c : ℕ) : DmData → DmData
  | .waypoint item => .waypoint (raiseItem c item)
  | data => data

/-- What is stored after the jumps of a list were taken. -/
def Nav.raised (s : Nav) (taken : List ℕ) : Store := fun item k =>
  if item = s.key then (s.dm item k).map (raiseData (taken.count k)) else s.dm item k

theorem raised_nil : s.raised [] = s.dm := by
  funext item k
  have hid : (s.dm item k).map (raiseData 0) = s.dm item k := by
    cases hdm : s.dm item k with
    | none => rfl
    | some data => cases data <;> simp [raiseData]
  simp [Nav.raised, hid]

theorem readItem_raised (taken : List ℕ) (ok : Bool) (j : ℕ) :
    readItem s.key (s.raised taken) ok j =
      (readItem s.key s.dm ok j).map (raiseItem (taken.count j)) := by
  unfold readItem Nav.raised
  rw [if_pos rfl]
  cases ok with
  | false => rfl
  | true =>
      cases hdm : s.dm s.key j with
      | none => rfl
      | some data => cases data <;> rfl

theorem raised_set {taken : List ℕ} {j : ℕ} {item : MissionItem}
    (h : readItem s.key s.dm true j = some item) :
    (s.raised taken).set s.key j (.waypoint (raiseItem (taken.count j + 1) item)) =
      s.raised (taken ++ [j]) := by
  have hdm : s.dm s.key j = some (.waypoint item) := by
    unfold readItem at h
    rw [if_pos rfl] at h
    split at h
    · rename_i item' hdm
      cases h
      exact hdm
    · cases h
  funext key k
  by_cases hat : key = s.key ∧ k = j
  · rw [hat.1, hat.2, Store.set_same]
    simp [Nav.raised, hdm, raiseData]
  · rw [Store.set, if_neg hat, Nav.raised, Nav.raised]
    by_cases hkey : key = s.key
    · have hne : ¬k = j := fun hk => hat ⟨hkey, hk⟩
      have hcount : (taken ++ [j]).count k = taken.count k := by
        rw [List.count_append, List.count_singleton]
        simp [Ne.symm hne]
      rw [if_pos hkey, if_pos hkey, hcount]
    · rw [if_neg hkey, if_neg hkey]

/-- While no jump is taken more often than it has repetitions left, counting them makes no
difference. -/
theorem followJumps_current_item (hmode : s.missionExecutionMode = .normal) (n : ℕ) (i : ℤ)
    (taken : List ℕ)
    (hleft : ∀ j, (taken ++ s.jumpsTaken n i).count j ≤ s.repetitionsLeft j) :
    (followJumps s {} true n (s.raised taken) i).item = s.destination n i := by
  induction n generalizing i taken with
  | zero => rfl
  | succ n ih =>
      rw [Nav.jumpsTaken] at hleft
      rw [Nav.destination]
      cases hb : s.inBounds i with
      | false =>
          rw [followJumps_outside _ _ _ _ hb, Nav.itemAt, hb]
          rfl
      | true =>
          rw [Nav.itemAt_eq hb] at hleft ⊢
          have hread := readItem_raised (s := s) taken true i.toNat
          cases hitem : readItem s.key s.dm true i.toNat with
          | none =>
              rw [hitem, Option.map_none] at hread
              rw [followJumps_unread hb hread]
          | some item =>
              rw [hitem, Option.map_some] at hread
              simp only [hitem] at hleft
              have hhere := hleft i.toNat
              rw [Nav.repetitionsLeft, hitem] at hhere
              dsimp only at hhere ⊢
              cases hjump : isJump item with
              | false =>
                  -- an item that is no jump was never counted
                  have hzero : taken.count i.toNat = 0 := by
                    simpa [hjump] using hhere
                  rw [hzero, raiseItem_zero] at hread
                  rw [followJumps_item hb hread hjump]
                  rfl
              | true =>
                  simp only [hjump, if_true] at hleft hhere ⊢
                  have hjump' : isJump (raiseItem (taken.count i.toNat) item) = true := hjump
                  cases hrep : hasRepetitions item with
                  | false =>
                      have hdone : ¬item.doJumpCurrentCount < item.doJumpRepeatCount :=
                        of_decide_eq_false hrep
                      have hno : ¬(hasRepetitions (raiseItem (taken.count i.toNat) item) = true ∧
                          s.missionExecutionMode = .normal) := by
                        rw [raiseItem, hasRepetitions_setJumpCount, decide_eq_true_iff]
                        omega
                      rw [followJumps_skip hb hread hjump' hno, Followed.report_item, hmode]
                      simp only [hrep] at hleft
                      exact ih (i + 1) taken hleft
                  | true =>
                      simp only [hrep, if_true] at hleft hhere
                      rw [List.count_append, List.count_cons_self] at hhere
                      have hrep' : hasRepetitions (raiseItem (taken.count i.toNat) item) =
                          true := by
                        rw [raiseItem, hasRepetitions_setJumpCount, decide_eq_true_iff]
                        omega
                      rw [followJumps_current hb hread hjump' ⟨hrep', hmode⟩ rfl,
                        Followed.report_item,
                        raiseItem_succ, raised_set hitem]
                      refine ih _ (taken ++ [i.toNat]) ?_
                      intro j
                      rw [List.append_assoc]
                      exact hleft j

theorem followJumps_succ {current : Bool} {n : ℕ} {dm : Store} {i : ℤ} {found : MissionItem}
    (h : (followJumps s {} current n dm i).item = some found) :
    followJumps s {} current (n + 1) dm i = followJumps s {} current n dm i := by
  induction n generalizing dm i with
  | zero => cases h
  | succ n ih =>
      cases hb : s.inBounds i with
      | false =>
          rw [followJumps_outside _ _ _ _ hb] at h
          cases h
      | true =>
          cases hitem : readItem s.key dm true i.toNat with
          | none =>
              rw [followJumps_unread hb hitem] at h
              cases h
          | some item =>
              cases hjump : isJump item with
              | false => rw [followJumps_item hb hitem hjump, followJumps_item hb hitem hjump]
              | true =>
                  by_cases hrep : hasRepetitions item = true ∧ s.missionExecutionMode = .normal
                  · cases current with
                    | false =>
                        rw [followJumps_ahead hb hitem hjump hrep] at h ⊢
                        rw [followJumps_ahead hb hitem hjump hrep]
                        exact ih h
                    | true =>
                        rw [followJumps_current hb hitem hjump hrep rfl] at h ⊢
                        rw [followJumps_current hb hitem hjump hrep rfl]
                        exact congrArg (Followed.report · _) (ih h)
                  · rw [followJumps_skip hb hitem hjump hrep] at h ⊢
                    rw [followJumps_skip hb hitem hjump hrep]
                    exact congrArg (Followed.report · _) (ih h)

theorem followJumps_setIndex (env : Answers) (current : Bool) (c : ℤ) (n : ℕ) (dm : Store) (i : ℤ) :
    followJumps { s with currentMissionIndex := c } env current n dm i =
      followJumps s env current n dm i := by
  induction n generalizing dm i with
  | zero => rfl
  | succ n ih =>
      simp only [followJumps, ih]
      rfl

/-! ## Agreement -/

/-- The mission is about to go on with item `i`. -/
def Nav.before (s : Nav) (i : ℤ) : Nav := { s with currentMissionIndex := i - 1 }

theorem read_before (hcount : s.mission.count ≠ 0) (i : ℤ) :
    readMissionItem {} (s.before i).increment 0 =
      ⟨{ s with
          dm := (followJumps s {} true 10 s.dm i).dm
          currentMissionIndex := (followJumps s {} true 10 s.dm i).index },
        (followJumps s {} true 10 s.dm i).item, (followJumps s {} true 10 s.dm i).reports⟩ := by
  have hindex : (s.before i).increment = { s with currentMissionIndex := i } := by
    simp [Nav.before, Nav.increment]
  rw [hindex, readMissionItem, if_neg hcount]
  simp [followJumps_setIndex]

theorem findPosition_eq (hmode : s.missionExecutionMode = .normal) (hcount : s.mission.count ≠ 0)
    (n : ℕ) {i : ℤ} (hi : s.currentMissionIndex < i) :
    (findPosition (fun _ => {}) s n (i - s.currentMissionIndex)).1 =
      match s.destination 10 i with
      | none => none
      | some item =>
          if itemContainsPosition item then some item
          else (findPosition (fun _ => {}) s (n + 1) (i + 1 - s.currentMissionIndex)).1 := by
  have hoffset : i - s.currentMissionIndex ≠ 0 := by omega
  have hnext : s.nextOffset (i - s.currentMissionIndex) = i + 1 - s.currentMissionIndex := by
    simp only [Nav.nextOffset, hmode]
    show i - s.currentMissionIndex + 1 = _
    omega
  have hread : (readMissionItem {} s (i - s.currentMissionIndex)).item = s.destination 10 i := by
    rw [readMissionItem_item hcount, ← followJumps_ahead_item hmode]
    simp [hoffset]
  rw [findPosition, hnext]
  split
  · rename_i h
    rw [hread] at h
    rw [h]
  · rename_i item h
    rw [hread] at h
    rw [h]
    dsimp only
    split <;> rfl

/-- A read that takes no jump, and finds no position: execution goes on with the next item. -/
theorem reaches_pass (hmode : s.missionExecutionMode = .normal) (hcount : s.mission.count ≠ 0)
    {i : ℤ} {item : MissionItem} {r : Option MissionItem} (hjumps : s.jumpsTaken 10 i = [])
    (hread : (readMissionItem {} (s.before i).increment 0).item = some item)
    (hp : itemContainsPosition item = false) (hr : Reaches (s.before (i + 1)) r) :
    Reaches (s.before i) r := by
  have hloop := hread
  rw [read_before hcount] at hloop
  dsimp only at hloop
  have hb : s.inBounds i = true := by
    by_contra hno
    rw [followJumps_outside _ _ _ _ (by simpa using hno)] at hloop
    cases hloop
  cases hitem : readItem s.key s.dm true i.toNat with
  | none =>
      rw [followJumps_unread hb hitem] at hloop
      cases hloop
  | some first =>
      rw [Nav.jumpsTaken, Nav.itemAt_eq hb, hitem] at hjumps
      cases hjump : isJump first with
      | false =>
          -- the item itself was read
          refine Reaches.skip hread hp ?_
          rw [read_before hcount, followJumps_item hb hitem hjump]
          have hnext : s.before (i + 1) = { s with currentMissionIndex := i } := by
            simp [Nav.before]
          exact hnext ▸ hr
      | true =>
          cases hrep : hasRepetitions first with
          | true => simp [hjump, hrep] at hjumps
          | false =>
              -- a jump without repetitions: the same item is read from the next index
              have hno : ¬(hasRepetitions first = true ∧ s.missionExecutionMode = .normal) := by
                simp [hrep]
              have hskip : followJumps s {} true 10 s.dm i =
                  (followJumps s {} true 9 s.dm (i + 1)).report [.repetitionsCompleted] := by
                rw [followJumps_skip hb hitem hjump hno]
                simp [hmode]
              rw [hskip, Followed.report_item] at hloop
              refine hr.of_read_eq ?_ ?_
              · rw [read_before hcount, read_before hcount, hskip, followJumps_succ hloop]
                rfl
              · rw [read_before hcount, read_before hcount, hskip, followJumps_succ hloop]
                rfl

theorem reaches_findPosition (hmode : s.missionExecutionMode = .normal)
    (hcount : s.mission.count ≠ 0) {i : ℤ} (hsafe : s.ReadAheadSafe i) :
    s.currentMissionIndex < i → ∀ n,
      Reaches (s.before i) (findPosition (fun _ => {}) s n (i - s.currentMissionIndex)).1 := by
  -- the read of the execution, when no jump is taken more often than it can be
  have hcurrent : ∀ i, (∀ j, (s.jumpsTaken 10 i).count j ≤ s.repetitionsLeft j) →
      (readMissionItem {} (s.before i).increment 0).item = s.destination 10 i := by
    intro i hleft
    rw [read_before hcount]
    have hitem := followJumps_current_item hmode 10 i [] (by simpa using hleft)
    rwa [raised_nil] at hitem
  induction hsafe with
  | @last i hjumps h =>
      intro hi n
      rw [findPosition_eq hmode hcount n hi]
      cases hdest : s.destination 10 i with
      | none => exact Reaches.ends ((hcurrent i hjumps).trans hdest)
      | some item =>
          have hp := h item hdest
          simp only [hp, if_true]
          exact Reaches.found ((hcurrent i hjumps).trans hdest) hp
  | @pass i hjumps hrest ih =>
      intro hi n
      have hread := hcurrent i (by simp [hjumps])
      rw [findPosition_eq hmode hcount n hi]
      cases hdest : s.destination 10 i with
      | none => exact Reaches.ends (hread.trans hdest)
      | some item =>
          dsimp only
          cases hp : itemContainsPosition item with
          | true =>
              rw [if_pos rfl]
              exact Reaches.found (hread.trans hdest) hp
          | false =>
              rw [if_neg (by decide)]
              exact reaches_pass hmode hcount hjumps (hread.trans hdest) hp
                (ih (by omega) (n + 1))

/-- The next position item that `prepare_mission_items` finds in a mission that is executed normally
is the one that is reached from the state it leaves, if reading ahead from there is safe. -/
theorem read_ahead_agrees (s : Nav) (after : Bool) (hmode : s.missionExecutionMode = .normal)
    (hread : (prepareMissionItems (fun _ => {}) s after).item.isSome = true)
    (hsafe : (prepareMissionItems (fun _ => {}) s after).nav.ReadAheadSafe
      ((prepareMissionItems (fun _ => {}) s after).nav.currentMissionIndex + 1)) :
    Reaches (prepareMissionItems (fun _ => {}) s after).nav
      (prepareMissionItems (fun _ => {}) s after).nextPosition := by
  unfold prepareMissionItems at hread hsafe ⊢
  dsimp only at hread hsafe ⊢
  cases hitem : (readMissionItem {} s 0).item with
  | none =>
      rw [hitem] at hread
      cases hread
  | some item =>
      rw [hitem] at hsafe
      simp only [hmode, reduceCtorEq, if_false] at hsafe ⊢
      generalize ht : (readMissionItem {} s 0).nav = t at hsafe ⊢
      have htmode : t.missionExecutionMode = .normal := by
        rw [← ht, readMissionItem_mode, hmode]
      have htcount : t.mission.count ≠ 0 := by
        rw [← ht, readMissionItem_mission]
        have := inBounds_of_readMissionItem hitem
        omega
      have hbefore : t.before (t.currentMissionIndex + 1) = t := by
        simp [Nav.before]
      have hreach := reaches_findPosition htmode htcount hsafe (by omega) 1
      have hone : t.currentMissionIndex + 1 - t.currentMissionIndex = 1 := by omega
      rwa [hbefore, hone] at hreach

/-! ## Two missions -/

/-- Two waypoints that are flown twice, with a change of speed in between. -/
def lap : List MissionItem := [waypointAt 1, changeSpeed, jumpTo 0 1, waypointAt 2]

theorem read_ahead_agrees_lap :
    Reaches (prepareMissionItems (fun _ => {}) (navOf lap) true).nav
      (prepareMissionItems (fun _ => {}) (navOf lap) true).nextPosition := by
  refine read_ahead_agrees (navOf lap) true rfl (by decide) ?_
  have hsafe : (navOf lap).ReadAheadSafe 1 := by
    refine Nav.ReadAheadSafe.pass (by decide) (Nav.ReadAheadSafe.last ?_ ?_)
    · intro j
      have hjumps : (navOf lap).jumpsTaken 10 (1 + 1) = [2] := by decide
      rw [hjumps]
      by_cases hj : j = 2
      · subst hj
        decide
      · simp [Ne.symm hj]
    · intro item hitem
      have hdest : (navOf lap).destination 10 (1 + 1) = some (waypointAt 1) := by decide
      cases hdest.symm.trans hitem
      rfl
  exact hsafe

/-- The jump leads to a change of speed.  Reading ahead goes on with the waypoint behind the jump,
execution with the waypoint behind the change of speed. -/
def detour : List MissionItem :=
  [waypointAt 1, jumpTo 3 1, waypointAt 2, changeSpeed, waypointAt 3]

theorem detour_misleads :
    (prepareMissionItems (fun _ => {}) (navOf detour) true).item.isSome = true ∧
      ¬ Reaches (prepareMissionItems (fun _ => {}) (navOf detour) true).nav
        (prepareMissionItems (fun _ => {}) (navOf detour) true).nextPosition := by
  refine ⟨by decide, ?_⟩
  have hnext : (prepareMissionItems (fun _ => {}) (navOf detour) true).nextPosition =
      some (waypointAt 2) := by
    have hone := findPosition_eq (s := navOf detour) rfl (by decide) 1 (i := 1) (by decide)
    have htwo := findPosition_eq (s := navOf detour) rfl (by decide) 2 (i := 1 + 1) (by decide)
    exact hone.trans htwo
  have hreach : Reaches (prepareMissionItems (fun _ => {}) (navOf detour) true).nav
      (some (waypointAt 3)) := by
    have hfirst : (readMissionItem {} (navOf detour).increment 0).item = some changeSpeed := rfl
    exact Reaches.skip hfirst rfl (Reaches.found rfl rfl)
  intro hagrees
  rw [hnext] at hagrees
  exact absurd (hagrees.unique hreach) (by decide)

end Navigator
end DtPhm
