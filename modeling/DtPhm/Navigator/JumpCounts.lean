import DtPhm.Lib.Run
import DtPhm.Navigator.MissionItems

/-!
# JumpCounts — what the stored jump counters say

The navigator keeps the number of times a jump was followed in the stored item.  The counters are
raised by reads of the current item, left alone by reads ahead, and set to zero by `reset_mission`,
item by item, until a request to dataman fails.

* `Call`, `step` — the calls that read items, move the index, or reset the mission;
* `Counts.record` — how often each jump was followed since it was last reset;
* `JumpsCounted` — the counters are these numbers, and nothing else of an item has changed;
* `jump_counts_followed` — this holds after every sequence of calls.
-/

namespace DtPhm
namespace Navigator

open Lib Mission
open Dataman (DmItem)

/-! ## Calls -/

/-- The calls on the mission, with what dataman answers to them. -/
inductive Call
  | readMissionItem (env : Answers) (offset : ℤ)
  | advanceMission (env : Answers)
  | setCurrentMissionIndex (valid : Bool) (index : ℕ)
  | setExecutionMode (mode : ExecutionMode)
  | resetMission (env : ResetAnswers)
  /-- Other functions of the mode have set `_mission_type` and `_work_item_type`. -/
  | setWork (missionTypeMission workItemDefault : Bool)

def step (s : Nav) : Call → Nav
  | .readMissionItem env offset => (readMissionItem env s offset).nav
  | .advanceMission env => advanceMission env s
  | .setCurrentMissionIndex valid index => setCurrentMissionIndex valid s index
  | .setExecutionMode mode => setExecutionMode s mode
  | .resetMission env => resetMission env s
  | .setWork missionTypeMission workItemDefault =>
      { s with missionTypeMission := missionTypeMission, workItemDefault := workItemDefault }

/-! ## How often a jump was followed -/

/-- A number for each item of the two storages. -/
abbrev Counts := Storage → ℕ → ℕ

/-- The jump a report is about. -/
def Report.jump? : Report → Option ℕ
  | .doJumpMissionChanged index _ => some index.toNat
  | _ => none

/-- The jumps that are followed by a read of the current item. -/
def jumpsFollowed (rs : List Report) : List ℕ := rs.filterMap Report.jump?

def Counts.add (h : Counts) (id : Storage) (js : List ℕ) : Counts :=
  fun id' j => h id' j + if id' = id then js.count j else 0

/-- The reset gets past an item: it is read, and written if it is a jump. -/
def resetPasses (key : DmItem) (dm : Store) (env : Answers) (i : ℕ) : Bool :=
  match readItem key dm (env.readOk i) i with
  | none => false
  | some item => !isJump item || env.writeOk i

/-- The reset gets to item `j`, and past it. -/
def resetReaches (env : ResetAnswers) (s : Nav) (id : Storage) (j : ℕ) : Bool :=
  match readState s.dm env.stateReadOk with
  | none => false
  | some m =>
      decide (id = m.datamanId ∧ j < m.count ∧
        ∀ i, i ≤ j → resetPasses id.key s.dm env.toAnswers i = true)

/-- The numbers after a call; `zeroed` says which of them start again with a reset. -/
def Counts.record (zeroed : ResetAnswers → Nav → Storage → ℕ → Bool) (s : Nav) (call : Call)
    (h : Counts) : Counts :=
  match call with
  | .readMissionItem env offset =>
      h.add s.mission.datamanId (jumpsFollowed (readMissionItem env s offset).reports)
  | .resetMission env => fun id j => if zeroed env s id j then 0 else h id j
  | _ => h

/-! ## The stored items -/

/-- The counter of a jump is set. -/
def withCount (count : ℕ) : DmData → DmData
  | .waypoint item => .waypoint (if isJump item then setJumpCount item count else item)
  | data => data

/-- The items are those of `dm₀`, with these numbers in the counters of the jumps. -/
structure Counted (dm₀ : Store) (h : Counts) (dm : Store) : Prop where
  stored : ∀ (id : Storage) j, dm id.key j = (dm₀ id.key j).map (withCount (h id j))
  bounded : ∀ (id : Storage) j item, dm₀ id.key j = some (.waypoint item) → isJump item = true →
    (h id j : ℤ) ≤ item.doJumpRepeatCount

/-- At the start the counters are zero; the number of repetitions is unsigned. -/
def CountersZero (dm : Store) : Prop :=
  ∀ (id : Storage) j item, dm id.key j = some (.waypoint item) → isJump item = true →
    item.doJumpCurrentCount = 0 ∧ 0 ≤ item.doJumpRepeatCount

variable {dm₀ dm : Store} {h : Counts}

@[simp] theorem Counts.add_nil (h : Counts) (id : Storage) : h.add id [] = h := by
  funext id' j
  simp [Counts.add]

theorem Counts.add_cons (h : Counts) (id : Storage) (j : ℕ) (js : List ℕ) :
    h.add id (j :: js) = (h.add id [j]).add id js := by
  funext id' k
  by_cases hid : id' = id
  · simp only [Counts.add, hid, if_true, List.count_cons, List.count_nil]
    omega
  · simp [Counts.add, hid]

theorem withCount_cases (data : DmData) :
    (∃ item, data = .waypoint item ∧ isJump item = true ∧
        ∀ c : ℕ, withCount c data = .waypoint (setJumpCount item c)) ∨
      ∀ c, withCount c data = data := by
  cases data with
  | waypoint item =>
      cases hjump : isJump item with
      | false => exact Or.inr fun c => by simp [withCount, hjump]
      | true => exact Or.inl ⟨item, rfl, hjump, fun c => by simp [withCount, hjump]⟩
  | fencePoint p => exact Or.inr fun _ => rfl
  | safePoint p => exact Or.inr fun _ => rfl
  | stats e => exact Or.inr fun _ => rfl
  | missionState m => exact Or.inr fun _ => rfl

theorem Counted.start (hzero : CountersZero dm) : Counted dm (fun _ _ => 0) dm where
  stored := by
    intro id j
    cases hdm : dm id.key j with
    | none => rfl
    | some data =>
        rw [Option.map_some]
        rcases withCount_cases data with ⟨item, rfl, hjump, hcount⟩ | hsame
        -- a counter that is zero is set to zero
        · have hitem := (hzero id j item hdm hjump).1
          rw [hcount, Nat.cast_zero, ← hitem]
          rfl
        · rw [hsame]
  bounded := fun id j item hdm hjump => (hzero id j item hdm hjump).2

theorem Counted.readItem {id : Storage} {ok : Bool} {j : ℕ} {item : MissionItem}
    (hc : Counted dm₀ h dm) (hr : readItem id.key dm ok j = some item) :
    ∃ item₀, dm₀ id.key j = some (.waypoint item₀) ∧ isJump item₀ = isJump item ∧
      (isJump item = true → item = setJumpCount item₀ (h id j)) := by
  unfold Navigator.readItem at hr
  split at hr
  case isFalse => cases hr
  split at hr
  case h_2 => cases hr
  rename_i item' hdm
  cases hr
  rw [hc.stored] at hdm
  rcases Option.map_eq_some_iff.1 hdm with ⟨data, hdata, heq⟩
  cases data with
  | waypoint item₀ =>
      refine ⟨item₀, hdata, ?_, ?_⟩
      · cases heq
        split <;> rfl
      · intro hjump
        cases heq
        split
        · rfl
        · rename_i hno
          -- an item that is no jump has not become one
          rw [if_neg hno] at hjump
          exact absurd hjump hno
  | fencePoint p => cases heq
  | safePoint p => cases heq
  | stats e => cases heq
  | missionState m => cases heq

def Counts.set (h : Counts) (id : Storage) (j count : ℕ) : Counts :=
  fun id' k => if id' = id ∧ k = j then count else h id' k

theorem Counted.set {id : Storage} {j count : ℕ} {item : MissionItem} (hc : Counted dm₀ h dm)
    (hdm : dm₀ id.key j = some (.waypoint item)) (hjump : isJump item = true)
    (hle : (count : ℤ) ≤ item.doJumpRepeatCount) :
    Counted dm₀ (h.set id j count) (dm.set id.key j (.waypoint (setJumpCount item count))) where
  stored := by
    intro id' k
    by_cases hat : id' = id ∧ k = j
    · rw [hat.1, hat.2, Store.set_same, hdm]
      simp [Counts.set, withCount, hjump]
    · have hkey : ¬(id'.key = id.key ∧ k = j) :=
        fun hkey => hat ⟨Storage.key_injective hkey.1, hkey.2⟩
      rw [Store.set, if_neg hkey, hc.stored, Counts.set, if_neg hat]
  bounded := by
    intro id' k item' hdm' hjump'
    by_cases hat : id' = id ∧ k = j
    · rw [hat.1, hat.2, hdm] at hdm'
      cases hdm'
      rw [Counts.set, if_pos hat]
      exact hle
    · rw [Counts.set, if_neg hat]
      exact hc.bounded id' k item' hdm' hjump'

theorem Counts.add_singleton (h : Counts) (id : Storage) (j : ℕ) :
    h.add id [j] = h.set id j (h id j + 1) := by
  funext id' k
  by_cases hat : id' = id ∧ k = j
  · rw [hat.1, hat.2]
    simp [Counts.add, Counts.set]
  · rw [Counts.set, if_neg hat, Counts.add]
    by_cases hid : id' = id
    · have hne : ¬j = k := fun hk => hat ⟨hid, hk.symm⟩
      simp [hne]
    · simp [hid]

/-! ## Reads -/

/-- What one round of a read can do: it ends the read, goes on with another index, or counts the
jump it follows. -/
theorem round_cases (s : Nav) (env : Answers) (current : Bool) (n : ℕ) (dm : Store) (index : ℤ) :
    (∃ item rs, jumpsFollowed rs = [] ∧
        followJumps s env current (n + 1) dm index = ⟨dm, index, item, rs⟩) ∨
      (∃ index' rs, jumpsFollowed rs = [] ∧
        followJumps s env current (n + 1) dm index =
          (followJumps s env current n dm index').report rs) ∨
      (∃ item, current = true ∧ readItem s.key dm (env.readOk n) index.toNat = some item ∧
        isJump item = true ∧ hasRepetitions item = true ∧
        followJumps s env current (n + 1) dm index =
          (followJumps s env current n
            (dm.set s.key index.toNat (.waypoint (setJumpCount item (item.doJumpCurrentCount + 1))))
            item.doJumpMissionIndex).report
              [.doJumpMissionChanged index item.doJumpRepeatCount]) := by
  cases hb : s.inBounds index with
  | false =>
      refine Or.inl ⟨none, _, ?_, by rw [followJumps, hb]; rfl⟩
      split <;> rfl
  | true =>
      cases hr : readItem s.key dm (env.readOk n) index.toNat with
      | none => exact Or.inl ⟨none, _, rfl, followJumps_unread hb hr⟩
      | some item =>
          cases hj : isJump item with
          | false => exact Or.inl ⟨some item, [], rfl, followJumps_item hb hr hj⟩
          | true =>
              by_cases hrep : hasRepetitions item = true ∧ s.missionExecutionMode = .normal
              · cases current with
                | false => exact Or.inr (Or.inl ⟨_, [], rfl, followJumps_ahead hb hr hj hrep⟩)
                | true =>
                    cases hw : env.writeOk n with
                    | false =>
                        exact Or.inl ⟨none, _, rfl, followJumps_unwritten hb hr hj hrep hw⟩
                    | true =>
                        exact Or.inr (Or.inr ⟨item, rfl, rfl, hj, hrep.1,
                          followJumps_current hb hr hj hrep hw⟩)
              · refine Or.inr (Or.inl ⟨_, _, ?_, followJumps_skip hb hr hj hrep⟩)
                split <;> rfl

theorem jumpsFollowed_append (rs rs' : List Report) :
    jumpsFollowed (rs ++ rs') = jumpsFollowed rs ++ jumpsFollowed rs' :=
  List.filterMap_append

theorem followJumps_ahead_reports (s : Nav) (env : Answers) (n : ℕ) (dm : Store) (index : ℤ) :
    jumpsFollowed (followJumps s env false n dm index).reports = [] := by
  induction n generalizing index with
  | zero => rfl
  | succ n ih =>
      rcases round_cases s env false n dm index with
        ⟨item, rs, hrs, heq⟩ | ⟨index', rs, hrs, heq⟩ | ⟨item, hcurrent, -⟩
      · rw [heq]
        exact hrs
      · rw [heq, Followed.report_reports, jumpsFollowed_append, hrs, ih]
        rfl
      · cases hcurrent

theorem followJumps_counted (s : Nav) (env : Answers) (n : ℕ) (index : ℤ)
    (hc : Counted dm₀ h dm) :
    Counted dm₀
      (h.add s.mission.datamanId (jumpsFollowed (followJumps s env true n dm index).reports))
      (followJumps s env true n dm index).dm := by
  induction n generalizing dm h index with
  | zero => exact (Counts.add_nil h _).symm ▸ hc
  | succ n ih =>
      rcases round_cases s env true n dm index with
        ⟨item, rs, hrs, heq⟩ | ⟨index', rs, hrs, heq⟩ | ⟨item, -, hr, hjump, hrep, heq⟩
      · rw [heq]
        dsimp only
        rw [hrs, Counts.add_nil]
        exact hc
      · rw [heq, Followed.report_reports, jumpsFollowed_append, hrs]
        exact ih index' hc
      · rw [heq, Followed.report_reports, Followed.report_dm]
        -- the counter that was read is the number of times the jump was followed before
        rcases hc.readItem hr with ⟨item₀, hdm, hsame, hitem⟩
        have hraise : setJumpCount item (item.doJumpCurrentCount + 1) =
            setJumpCount item₀ ((h s.mission.datamanId index.toNat + 1 : ℕ) : ℤ) := by
          rw [hitem hjump, setJumpCount_setJumpCount]
          push_cast
          rfl
        -- the jump is followed only while it has repetitions left
        have hle : ((h s.mission.datamanId index.toNat + 1 : ℕ) : ℤ) ≤ item₀.doJumpRepeatCount := by
          rw [hitem hjump, hasRepetitions_setJumpCount, decide_eq_true_iff] at hrep
          push_cast
          omega
        have hset := hc.set hdm (hsame.trans hjump) hle
        rw [← Counts.add_singleton, ← hraise] at hset
        have hrest := ih item.doJumpMissionIndex hset
        rw [← Counts.add_cons] at hrest
        exact hrest

theorem readMissionItem_counted (env : Answers) (s : Nav) (offset : ℤ) (hc : Counted dm₀ h s.dm) :
    Counted dm₀
      (h.add s.mission.datamanId (jumpsFollowed (readMissionItem env s offset).reports))
      (readMissionItem env s offset).nav.dm := by
  unfold readMissionItem
  split
  · exact (Counts.add_nil h _).symm ▸ hc
  · dsimp only
    split
    · rename_i hzero
      simp only [hzero, decide_true]
      exact followJumps_counted s env 10 _ hc
    · rename_i hne
      simp only [hne, decide_false]
      -- a read ahead keeps the store
      rw [followJumps_ahead_reports, Counts.add_nil]
      exact hc

/-! ## Reset -/

/-- At the start there is a jump at this place. -/
def JumpAt (dm₀ : Store) (id : Storage) (j : ℕ) : Prop :=
  ∃ item, dm₀ id.key j = some (.waypoint item) ∧ isJump item = true

theorem Counted.congr {h' : Counts} (hc : Counted dm₀ h dm)
    (heq : ∀ id j, JumpAt dm₀ id j → h' id j = h id j) : Counted dm₀ h' dm where
  stored := by
    intro id j
    rw [hc.stored]
    cases hdm : dm₀ id.key j with
    | none => rfl
    | some data =>
        rw [Option.map_some, Option.map_some]
        rcases withCount_cases data with ⟨item, rfl, hjump, -⟩ | hsame
        · rw [heq id j ⟨item, hdm, hjump⟩]
        · rw [hsame, hsame]
  bounded := by
    intro id j item hdm hjump
    rw [heq id j ⟨item, hdm, hjump⟩]
    exact hc.bounded id j item hdm hjump

theorem Counted.setState {m : MissionState} (hc : Counted dm₀ h dm) :
    Counted dm₀ h (dm.set .missionState 0 (.missionState m)) where
  stored := by
    intro id j
    -- the state is stored under a key of its own
    have hkey : id.key ≠ .missionState := by cases id <;> decide
    rw [Store.set_of_item_ne hkey]
    exact hc.stored id j
  bounded := hc.bounded

/-- The items from `index` to `j` are passed. -/
def PassesTo (key : DmItem) (dm : Store) (env : Answers) (index j : ℕ) : Prop :=
  ∀ i, index ≤ i → i ≤ j → resetPasses key dm env i = true

theorem passesTo_succ {key : DmItem} {dm' : Store} {env : Answers} {index : ℕ}
    (hpass : resetPasses key dm env index = true)
    (hsame : ∀ i, i ≠ index → dm' key i = dm key i) (j : ℕ) :
    PassesTo key dm' env (index + 1) j ↔ PassesTo key dm env index j := by
  have hlater : ∀ i, i ≠ index → resetPasses key dm' env i = resetPasses key dm env i := by
    intro i hi
    unfold resetPasses readItem
    rw [hsame i hi]
  constructor
  · intro h i hle hij
    by_cases hi : i = index
    · rw [hi]
      exact hpass
    · rw [← hlater i hi]
      exact h i (by omega) hij
  · intro h i hle hij
    rw [hlater i (by omega)]
    exact h i (by omega) hij

/-- The loop sets the counters of the jumps it gets past to zero, and leaves the others. -/
theorem resetCounters_counted (id : Storage) (env : Answers) (n index : ℕ) {h' : Counts}
    (hc : Counted dm₀ h dm)
    (hzero : ∀ j, JumpAt dm₀ id j → index ≤ j → j < index + n → PassesTo id.key dm env index j →
      h' id j = 0)
    (hkeep : ∀ id' j, JumpAt dm₀ id' j →
      ¬(id' = id ∧ index ≤ j ∧ j < index + n ∧ PassesTo id.key dm env index j) →
      h' id' j = h id' j) :
    Counted dm₀ h' (resetCounters id.key env n index dm) := by
  induction n generalizing index dm h with
  | zero =>
      refine hc.congr fun id' j hj => hkeep id' j hj ?_
      rintro ⟨-, hle, hlt, -⟩
      omega
  | succ n ih =>
      -- where the loop stops, nothing is passed
      have hstop : resetPasses id.key dm env index = false → Counted dm₀ h' dm := by
        intro hno
        refine hc.congr fun id' j hj => hkeep id' j hj ?_
        rintro ⟨-, hle, -, hpass⟩
        exact absurd ((hpass index (Nat.le_refl _) hle).symm.trans hno) (by decide)
      rw [resetCounters]
      cases hr : readItem id.key dm (env.readOk index) index with
      | none =>
          refine hstop ?_
          simp only [resetPasses, hr]
      | some item =>
          rcases hc.readItem hr with ⟨item₀, hdm, hsame, hitem⟩
          dsimp only
          cases hjump : isJump item with
          | false =>
              have hpass : resetPasses id.key dm env index = true := by
                simp [resetPasses, hr, hjump]
              have hnext := passesTo_succ hpass fun i _ => rfl
              refine ih (index + 1) hc ?_ ?_
              · intro j hj hle hlt hp
                exact hzero j hj (by omega) (by omega) ((hnext j).1 hp)
              · intro id' j hj hno
                refine hkeep id' j hj ?_
                rintro ⟨rfl, hle, hlt, hp⟩
                by_cases hij : j = index
                · -- the item itself is no jump
                  rcases hj with ⟨item', hdm', hjump'⟩
                  rw [hij, hdm] at hdm'
                  cases hdm'
                  exact absurd (hsame.symm.trans hjump') (by simp [hjump])
                · exact hno ⟨rfl, by omega, by omega, (hnext j).2 hp⟩
          | true =>
              cases hw : env.writeOk index with
              | false =>
                  refine hstop ?_
                  simp [resetPasses, hr, hjump, hw]
              | true =>
                  have hpass : resetPasses id.key dm env index = true := by
                    simp [resetPasses, hr, hw]
                  have hnext : ∀ j, PassesTo id.key
                      (dm.set id.key index (.waypoint (setJumpCount item 0))) env (index + 1) j ↔
                        PassesTo id.key dm env index j :=
                    passesTo_succ hpass fun i hi => Store.set_of_index_ne hi
                  have hjump₀ : isJump item₀ = true := hsame.trans hjump
                  have hset : Counted dm₀ (h.set id index 0)
                      (dm.set id.key index (.waypoint (setJumpCount item 0))) := by
                    have hle := hc.bounded id index item₀ hdm hjump₀
                    rw [hitem hjump, setJumpCount_setJumpCount]
                    exact hc.set hdm hjump₀ (by omega)
                  refine ih (index + 1) hset ?_ ?_
                  · intro j hj hle hlt hp
                    exact hzero j hj (by omega) (by omega) ((hnext j).1 hp)
                  · intro id' j hj hno
                    -- the loop passes this very jump: its counter is zero from now on
                    by_cases hat : id' = id ∧ j = index
                    · rcases hat with ⟨rfl, rfl⟩
                      rw [Counts.set, if_pos ⟨rfl, rfl⟩]
                      refine hzero j hj (Nat.le_refl _) (by omega) ?_
                      intro i hle hge
                      rw [Nat.le_antisymm hge hle]
                      exact hpass
                    · rw [Counts.set, if_neg hat]
                      refine hkeep id' j hj ?_
                      rintro ⟨rfl, hle, hlt, hp⟩
                      have hij : j ≠ index := fun hij => hat ⟨rfl, hij⟩
                      exact hno ⟨rfl, by omega, by omega, (hnext j).2 hp⟩

theorem resetMission_counted (env : ResetAnswers) (s : Nav) (hc : Counted dm₀ h s.dm) :
    Counted dm₀ (fun id j => if resetReaches env s id j then 0 else h id j)
      (resetMission env s).dm := by
  unfold resetMission resetReaches
  cases hm : readState s.dm env.stateReadOk with
  | none => exact hc
  | some m =>
      dsimp only
      have hcounters : Counted dm₀
          (fun id j => if decide (id = m.datamanId ∧ j < m.count ∧
            ∀ i, i ≤ j → resetPasses id.key s.dm env.toAnswers i = true) = true then 0 else h id j)
          (resetCounters m.datamanId.key env.toAnswers m.count 0 s.dm) := by
        refine resetCounters_counted m.datamanId env.toAnswers m.count 0 hc ?_ ?_
        · intro j _ _ hlt hp
          refine if_pos (decide_eq_true ⟨rfl, by omega, ?_⟩)
          intro i hi
          exact hp i (Nat.zero_le _) hi
        · intro id j _ hno
          refine if_neg fun hreach => hno ?_
          rcases of_decide_eq_true hreach with ⟨rfl, hlt, hp⟩
          exact ⟨rfl, Nat.zero_le _, by omega, fun i _ hi => hp i hi⟩
      split
      · exact hcounters.setState
      · exact hcounters

/-! ## Whole runs -/

/-- The counter of every jump is the number of times it was followed and does not exceed its number
of repetitions, and with the counters set aside the items are those of the start. -/
structure JumpsCounted (dm₀ : Store) (h : Counts) (dm : Store) : Prop where
  count : ∀ (id : Storage) j item, dm id.key j = some (.waypoint item) → isJump item = true →
    item.doJumpCurrentCount = h id j ∧ item.doJumpCurrentCount ≤ item.doJumpRepeatCount
  rest : ∀ (id : Storage) j, (dm id.key j).map (withCount 0) = (dm₀ id.key j).map (withCount 0)

theorem Counted.jumpsCounted (hc : Counted dm₀ h dm) : JumpsCounted dm₀ h dm where
  count := by
    intro id j item hdm hjump
    have hr : Navigator.readItem id.key dm true j = some item := by
      simp [Navigator.readItem, hdm]
    rcases hc.readItem hr with ⟨item₀, hdm₀, hsame, hitem⟩
    have hle := hc.bounded id j item₀ hdm₀ (hsame.trans hjump)
    rw [hitem hjump]
    exact ⟨rfl, hle⟩
  rest := by
    intro id j
    rw [hc.stored, Option.map_map]
    congr 1
    funext data
    -- setting a counter twice is setting it once
    show withCount 0 (withCount (h id j) data) = withCount 0 data
    rcases withCount_cases data with ⟨item, rfl, hjump, hcount⟩ | hsame
    · rw [hcount, hcount]
      simp [withCount, hjump]
    · rw [hsame]

theorem step_counted (s : Nav) (call : Call) (hc : Counted dm₀ h s.dm) :
    Counted dm₀ (h.record resetReaches s call) (step s call).dm := by
  cases call with
  | readMissionItem env offset => exact readMissionItem_counted env s offset hc
  | resetMission env => exact resetMission_counted env s hc
  | advanceMission env =>
      have hdm : (advanceMission env s).dm = s.dm := by
        unfold advanceMission
        repeat' split
        all_goals rfl
      exact hdm.symm ▸ hc
  | setCurrentMissionIndex valid index =>
      have hdm : (setCurrentMissionIndex valid s index).dm = s.dm := by
        unfold setCurrentMissionIndex
        split <;> rfl
      exact hdm.symm ▸ hc
  | setExecutionMode mode =>
      have hdm : (setExecutionMode s mode).dm = s.dm := by
        unfold setExecutionMode
        dsimp only
        repeat' split
        all_goals rfl
      exact hdm.symm ▸ hc
  | setWork missionTypeMission workItemDefault => exact hc

/-- After every sequence of calls, the counter of a jump is the number of times it was followed
since the last reset that got past it, and reading ahead changes nothing. -/
theorem jump_counts_followed (s : Nav) (calls : List Call) (hzero : CountersZero s.dm) :
    ∀ q ∈ visited (historyStep step (Counts.record resetReaches)) (s, fun _ _ => 0) calls,
      JumpsCounted s.dm q.2 q.1.dm ∧
        ∀ env offset, offset ≠ 0 → (readMissionItem env q.1 offset).nav = q.1 := by
  intro q hq
  have hstep : ∀ (q : Nav × Counts) (call : Call), Counted s.dm q.2 q.1.dm →
      Counted s.dm (historyStep step (Counts.record resetReaches) q call).2
        (historyStep step (Counts.record resetReaches) q call).1.dm :=
    fun q call hc => step_counted q.1 call hc
  have hcounted : Counted s.dm q.2 q.1.dm :=
    invariant_visited hstep (Counted.start hzero) calls q hq
  refine ⟨hcounted.jumpsCounted, ?_⟩
  intro env offset hne
  unfold readMissionItem
  simp only [hne, if_false]
  split <;> rfl

/-- A waypoint, and a jump back to it that is done twice. -/
def twoLaps : List MissionItem := [waypointAt 1, jumpTo 0 2]

theorem navOf_countersZero {items : List MissionItem}
    (h : ∀ item ∈ items, isJump item = true →
      item.doJumpCurrentCount = 0 ∧ 0 ≤ item.doJumpRepeatCount) :
    CountersZero (navOf items).dm := by
  intro id j item hdm hjump
  cases id with
  | offboard0 =>
      rcases Option.map_eq_some_iff.1 hdm with ⟨item', hget, heq⟩
      cases heq
      exact h item (List.mem_of_getElem? hget) hjump
  | offboard1 => cases hdm

/-- One lap, and a reset. -/
def lapAndReset (env : ResetAnswers) : List Call :=
  [.setCurrentMissionIndex true 1, .readMissionItem {} 0, .resetMission env]

theorem jump_counts_followed_lap :
    (exec (historyStep step (Counts.record resetReaches)) (navOf twoLaps, fun _ _ => 0)
        [.setCurrentMissionIndex true 1, .readMissionItem {} 0]).2 .offboard0 1 = 1 ∧
      ∀ q ∈ visited (historyStep step (Counts.record resetReaches))
          (navOf twoLaps, fun _ _ => 0) (lapAndReset {}),
        JumpsCounted (navOf twoLaps).dm q.2 q.1.dm ∧
          ∀ env offset, offset ≠ 0 → (readMissionItem env q.1 offset).nav = q.1 :=
  ⟨by decide, jump_counts_followed (navOf twoLaps) (lapAndReset {})
    (navOf_countersZero (by decide))⟩

/-- The write of the reset fails, and the counter stays at one. -/
theorem failed_reset_keeps_counter :
    ¬ ∀ q ∈ visited (historyStep step (Counts.record fun _ _ _ _ => true))
        (navOf twoLaps, fun _ _ => 0)
        (lapAndReset { writeOk := fun _ => false, stateReadOk := true, stateWriteOk := true }),
      JumpsCounted (navOf twoLaps).dm q.2 q.1.dm := by
  intro hall
  have hlast := (hall _ (exec_mem_visited _ _ _)).count .offboard0 1
    (setJumpCount (jumpTo 0 2) 1) (by decide) (by decide)
  exact absurd hlast.1 (by decide)

end Navigator
end DtPhm
