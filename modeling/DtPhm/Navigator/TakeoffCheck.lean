import DtPhm.Lib.Passes
import DtPhm.Navigator.MissionItems

/-!
# TakeoffCheck — a mission starts with a takeoff

Before a mission is flown, `MissionFeasibilityChecker` goes through its stored items.
`checkTakeoff` does so twice: the first pass looks for takeoffs and at their altitude, the second
one looks at the items before a takeoff.

* `checkTakeoff` — the two passes, and the decision;
* `TakeoffRule` — a takeoff, with nothing before the first one that moves the vehicle;
* `checkTakeoff_ok_iff` — what is accepted;
* `takeoff_rule_iff` — the missions on which the check decides by the rule.
-/

namespace DtPhm
namespace Navigator

open Lib
open Mission

/-! ## The checker -/

/-- Why a mission is rejected. -/
inductive Rejection
  /-- not supposed to happen unless the datamanager can't access the SD card, etc. -/
  | unreadable
  | takeoffTooLow
  | takeoffRequired
  | takeoffNotFirst
  | moreThanOneLandStart
  | startsWithLand
  | landStartBeforeRtl
  | needLandingApproach
  | withinFlare
  | landingAboveLast
  /-- by how much to move down, or to move away -/
  | adjustApproach (down away : ℤ)
  | landingRequired
  | invalidLandStart
  deriving DecidableEq, Repr

/-- What `checkTakeoff` asks the navigator for, and the difference of two floats, which rounds. -/
structure Checker where
  /-- `get_takeoff_required` -/
  takeoffRequired : Bool
  /-- `get_land_detected()->landed` -/
  landed : Bool
  /-- `get_default_acceptance_radius` -/
  defaultAcceptanceRadius : ℚ
  subFloat : ℚ → ℚ → ℚ

/-- Whether the reads of a check succeed, by the index that is read.  No check reads an item more
than twice. -/
structure Reads where
  first : ℕ → Bool := fun _ => true
  again : ℕ → Bool := fun _ => true

/-- Every read succeeds. -/
def Reads.Succeed (reads : Reads) : Prop := ∀ i, reads.first i = true ∧ reads.again i = true

/-- `dm_read` of an item of the mission. -/
def readEntry (dm : Store) (m : MissionState) (ok : ℕ → Bool) (i : ℕ) :
    Except Rejection MissionItem :=
  match readItem m.datamanId.key dm (ok i) i with
  | none => .error .unreadable
  | some item => .ok item

/-- The mission has these items. -/
def MissionIs (dm : Store) (m : MissionState) (items : List MissionItem) : Prop :=
  m.count = items.length ∧
    ∀ i (h : i < items.length), readItem m.datamanId.key dm true i = some items[i]

/-- The mission has an item at this index that meets `p`. -/
def itemAt (p : MissionItem → Bool) (items : List MissionItem) (i : ℕ) : Bool := items[i]?.any p

theorem itemAt_of_lt {p : MissionItem → Bool} {items : List MissionItem} {i : ℕ}
    (h : i < items.length) : itemAt p items i = p items[i] := by
  simp [itemAt, h]

theorem lt_length_of_itemAt {p : MissionItem → Bool} {items : List MissionItem} {i : ℕ}
    (h : itemAt p items i = true) : i < items.length := by
  by_contra hout
  simp [itemAt, List.getElem?_eq_none (Nat.le_of_not_lt hout)] at h

theorem missionIs_navOf (items : List MissionItem) :
    MissionIs (navOf items).dm (navOf items).mission items := by
  refine ⟨rfl, fun i hi => ?_⟩
  change readItem .waypointsOffboard0 (navOf items).dm true i = _
  simp [readItem, navOf, hi]

theorem MissionIs.readEntry {dm : Store} {m : MissionState} {items : List MissionItem}
    {ok : ℕ → Bool}
    {i : ℕ} (h : MissionIs dm m items) (hok : ok i = true) (hi : i < items.length) :
    readEntry dm m ok i = .ok items[i] := by
  simp only [Navigator.readEntry, hok, h.2 i hi]

/-! ## Takeoffs -/

/-- `NAV_EPSILON_POSITION`, the float next to 0.001. -/
def navEpsilonPosition : ℚ := 8589935 / 2 ^ 33

def isTakeoff (item : MissionItem) : Bool := decide (item.navCmd = .navTakeoff)

def Checker.takeoffAlt (c : Checker) (homeAlt : ℚ) (item : MissionItem) : ℚ :=
  if item.altitudeIsRelative then item.altitude else c.subFloat item.altitude homeAlt

/-- The radius of the item, if it has one. -/
def Checker.acceptanceRadius (c : Checker) (item : MissionItem) : ℚ :=
  if item.acceptanceRadius > navEpsilonPosition then item.acceptanceRadius
  else c.defaultAcceptanceRadius

/-- The waypoint could be reached before the vehicle is one meter in the air. -/
def Checker.takeoffTooLow (c : Checker) (homeAlt : ℚ) (item : MissionItem) : Bool :=
  decide (c.subFloat (c.takeoffAlt homeAlt item) 1 < c.acceptanceRadius item)

/-- The items that are not waypoints or position-related. -/
def allowedBeforeTakeoff (item : MissionItem) : Bool :=
  match item.navCmd with
  -- IDLE
  | .other 0 => true
  | .navDelay => true
  | .doJump => true
  | .doChangeSpeed => true
  | .doSetHome => true
  | .doSetServo => true
  | .doLandStart => true
  | .doTriggerControl => true
  | .doDigicamControl => true
  | .imageStartCapture => true
  | .imageStopCapture => true
  | .videoStartCapture => true
  | .videoStopCapture => true
  | .doControlVideo => true
  | .doMountConfigure => true
  | .doMountControl => true
  | .doGimbalManagerPitchyaw => true
  | .doGimbalManagerConfigure => true
  | .doSetRoi => true
  | .doSetRoiLocation => true
  | .doSetRoiWpnextOffset => true
  | .doSetRoiNone => true
  | .doSetCamTriggDist => true
  | .obliqueSurvey => true
  | .doSetCamTriggInterval => true
  | .setCameraMode => true
  | .setCameraZoom => true
  | .setCameraFocus => true
  | .doVtolTransition => true
  | _ => false

/-! ## The check -/

/-- The variables of the first pass. -/
structure TakeoffScan where
  hasTakeoff : Bool := false
  takeoffFirst : Bool := false
  takeoffIndex : ℤ := -1
  deriving DecidableEq

/-- A takeoff at index 0 and the first later one are kept apart. -/
def noteTakeoff (i : ℕ) (s : TakeoffScan) : TakeoffScan :=
  if i = 0 then { s with hasTakeoff := true, takeoffFirst := true }
  else if s.takeoffIndex = -1 then { s with hasTakeoff := true, takeoffIndex := i }
  else { s with hasTakeoff := true }

/-- One round of the first pass. -/
def takeoffRound (c : Checker) (homeAlt : ℚ) (i : ℕ) (item : MissionItem) (s : TakeoffScan) :
    Except Rejection TakeoffScan :=
  if isTakeoff item then
    if c.takeoffTooLow homeAlt item then .error .takeoffTooLow else .ok (noteTakeoff i s)
  else
    .ok s

/-- One round of the second pass: each item sets `takeoff_first` anew. -/
def beforeTakeoffRound (_ : ℕ) (item : MissionItem) (_ : Bool) : Except Rejection Bool :=
  .ok (allowedBeforeTakeoff item)

/-- The decision of `checkTakeoff`.  One can load a mission while the vehicle is flying, and it does
not require a takeoff then. -/
def requireTakeoff (c : Checker) (hasTakeoff takeoffFirst : Bool) : Except Rejection Unit :=
  if c.takeoffRequired ∧ c.landed then
    if hasTakeoff = false then .error .takeoffRequired
    else if takeoffFirst = false then .error .takeoffNotFirst
    else .ok ()
  else
    .ok ()

/-- `takeoff_first` after the second pass, which is made if there is a takeoff behind index 0. -/
def itemsBeforeTakeoff (reads : Reads) (dm : Store) (m : MissionState) (s : TakeoffScan) :
    Except Rejection Bool :=
  if s.takeoffIndex ≠ -1 then
    pass (readEntry dm m reads.again) beforeTakeoffRound s.takeoffIndex.toNat 0 s.takeoffFirst
  else
    .ok s.takeoffFirst

def checkTakeoff (c : Checker) (reads : Reads) (dm : Store) (m : MissionState) (homeAlt : ℚ) :
    Except Rejection Unit := do
  let s ← pass (readEntry dm m reads.first) (takeoffRound c homeAlt) m.count 0 {}
  let takeoffFirst ← itemsBeforeTakeoff reads dm m s
  requireTakeoff c s.hasTakeoff takeoffFirst

/-! ## The rule -/

def takeoffAt (items : List MissionItem) (i : ℕ) : Bool := itemAt isTakeoff items i

def allowedAt (items : List MissionItem) (i : ℕ) : Bool := itemAt allowedBeforeTakeoff items i

/-- The first takeoff at index `start` or behind it. -/
structure FirstTakeoff (items : List MissionItem) (start k : ℕ) : Prop where
  takeoff : takeoffAt items k = true
  start_le : start ≤ k
  none_before : ∀ i, start ≤ i → i < k → takeoffAt items i = false

/-- The mission has a takeoff, and every item before the first one is allowed there. -/
def TakeoffRule (items : List MissionItem) : Prop :=
  ∃ k, FirstTakeoff items 0 k ∧ ∀ i < k, allowedAt items i = true

/-- Of the items before the first takeoff behind index 0, the last one decides: it is allowed, if
the mission starts with a takeoff, and else it is not allowed unless all before it are. -/
def LastItemDecides (items : List MissionItem) : Prop :=
  ∀ j, FirstTakeoff items 1 j →
    if takeoffAt items 0 then allowedAt items (j - 1) = true
    else allowedAt items (j - 1) = true → ∀ i < j, allowedAt items i = true

section Rule

variable {items : List MissionItem} {i j k start : ℕ}

theorem FirstTakeoff.unique (hj : FirstTakeoff items start j) (hk : FirstTakeoff items start k) :
    j = k := by
  rcases Nat.lt_trichotomy j k with hlt | rfl | hlt
  · have := hk.none_before j hj.start_le hlt
    simp [hj.takeoff] at this
  · rfl
  · have := hj.none_before k hk.start_le hlt
    simp [hk.takeoff] at this

theorem firstTakeoff_zero (h : takeoffAt items 0 = true) : FirstTakeoff items 0 0 :=
  ⟨h, Nat.le_refl 0, fun _ _ hi => absurd hi (Nat.not_lt_zero _)⟩

theorem firstTakeoff_zero_iff (h : takeoffAt items 0 = false) :
    FirstTakeoff items 0 k ↔ FirstTakeoff items 1 k := by
  constructor
  · intro hk
    refine ⟨hk.takeoff, Nat.one_le_iff_ne_zero.2 ?_, fun i _ hi =>
      hk.none_before i (Nat.zero_le i) hi⟩
    rintro rfl
    simp [hk.takeoff] at h
  · intro hk
    refine ⟨hk.takeoff, Nat.zero_le k, fun i _ hi => ?_⟩
    cases i with
    | zero => exact h
    | succ i => exact hk.none_before (i + 1) (Nat.succ_pos i) hi

theorem takeoffRule_of_first (h : takeoffAt items 0 = true) : TakeoffRule items :=
  ⟨0, firstTakeoff_zero h, fun _ hi => absurd hi (Nat.not_lt_zero _)⟩

theorem takeoffRule_iff_of_later (h : takeoffAt items 0 = false) (hj : FirstTakeoff items 1 j) :
    TakeoffRule items ↔ ∀ i < j, allowedAt items i = true := by
  have hj0 := (firstTakeoff_zero_iff h).2 hj
  constructor
  · rintro ⟨k, hk, hall⟩
    rwa [hk.unique hj0] at hall
  · intro hall
    exact ⟨j, hj0, hall⟩

theorem not_takeoffRule (h : takeoffAt items 0 = false) (hno : ∀ j, ¬FirstTakeoff items 1 j) :
    ¬TakeoffRule items := by
  rintro ⟨k, hk, -⟩
  exact hno k ((firstTakeoff_zero_iff h).1 hk)

end Rule

/-! ## The passes -/

/-- What the first pass knows of the items before index `i`. -/
structure Scanned (items : List MissionItem) (i : ℕ) (s : TakeoffScan) : Prop where
  has : s.hasTakeoff = true ↔ ∃ k < i, takeoffAt items k = true
  first : s.takeoffFirst = true ↔ 0 < i ∧ takeoffAt items 0 = true
  index : (s.takeoffIndex = -1 ∧ ∀ k, 1 ≤ k → k < i → takeoffAt items k = false) ∨
    ∃ j : ℕ, s.takeoffIndex = j ∧ j < i ∧ FirstTakeoff items 1 j

section Passes

variable {c : Checker} {reads : Reads} {dm : Store} {m : MissionState} {homeAlt : ℚ}
  {items : List MissionItem} {i j : ℕ} {s : TakeoffScan}

theorem scanned_start (items : List MissionItem) : Scanned items 0 {} where
  has := by simp
  first := by simp
  index := .inl ⟨rfl, fun k _ hk => absurd hk (Nat.not_lt_zero k)⟩

/-- No takeoff at index `i`. -/
theorem Scanned.skip (h : Scanned items i s) (hi : takeoffAt items i = false) :
    Scanned items (i + 1) s where
  has := by
    rw [h.has]
    constructor
    · rintro ⟨k, hk, ht⟩
      exact ⟨k, by omega, ht⟩
    · rintro ⟨k, hk, ht⟩
      have hne : k ≠ i := by
        rintro rfl
        simp [hi] at ht
      exact ⟨k, by omega, ht⟩
  first := by
    rw [h.first]
    constructor
    · rintro ⟨-, ht⟩
      exact ⟨Nat.succ_pos i, ht⟩
    · rintro ⟨-, ht⟩
      refine ⟨Nat.pos_of_ne_zero ?_, ht⟩
      rintro rfl
      simp [hi] at ht
  index := by
    rcases h.index with ⟨hs, hno⟩ | ⟨j, hs, hj, hfirst⟩
    · refine .inl ⟨hs, fun k hk hki => ?_⟩
      rcases Nat.lt_succ_iff_lt_or_eq.1 hki with hlt | rfl
      · exact hno k hk hlt
      · exact hi
    · exact .inr ⟨j, hs, by omega, hfirst⟩

/-- A takeoff at index `i`. -/
theorem Scanned.note (h : Scanned items i s) (hi : takeoffAt items i = true) :
    Scanned items (i + 1) (noteTakeoff i s) := by
  have hhas : (noteTakeoff i s).hasTakeoff = true := by
    unfold noteTakeoff
    split_ifs <;> rfl
  refine ⟨⟨fun _ => ⟨i, Nat.lt_succ_self i, hi⟩, fun _ => hhas⟩, ?_, ?_⟩
  · unfold noteTakeoff
    split_ifs with h0 hidx
    · subst h0
      simp [hi]
    · simp [h.first, Nat.pos_of_ne_zero h0]
    · simp [h.first, Nat.pos_of_ne_zero h0]
  · rcases h.index with ⟨hs, hno⟩ | ⟨j, hs, hj, hfirst⟩
    · by_cases h0 : i = 0
      · left
        exact ⟨by simpa [noteTakeoff, h0] using hs, fun k hk hki => by omega⟩
      · right
        exact ⟨i, by simp [noteTakeoff, h0, hs], Nat.lt_succ_self i, hi,
          Nat.one_le_iff_ne_zero.2 h0, hno⟩
    · right
      have hidx : (noteTakeoff i s).takeoffIndex = s.takeoffIndex := by
        have : s.takeoffIndex ≠ -1 := by omega
        unfold noteTakeoff
        split_ifs <;> rfl
      exact ⟨j, hidx.trans hs, by omega, hfirst⟩

/-- One round of the first pass, on an item that is not a takeoff with too low an altitude. -/
theorem Scanned.round {item : MissionItem} (h : Scanned items i s) (hi : i < items.length)
    (hitem : item = items[i])
    (halt : isTakeoff item = true → c.takeoffTooLow homeAlt item = false) :
    ∃ s', takeoffRound c homeAlt i item s = .ok s' ∧ Scanned items (i + 1) s' := by
  subst hitem
  cases ht : isTakeoff items[i] with
  | true =>
      refine ⟨noteTakeoff i s, ?_, h.note ((itemAt_of_lt hi).trans ht)⟩
      simp [takeoffRound, ht, halt ht]
  | false =>
      refine ⟨s, ?_, h.skip ((itemAt_of_lt hi).trans ht)⟩
      simp [takeoffRound, ht]

theorem first_pass (hr : reads.Succeed) (hm : MissionIs dm m items)
    (halt : ∀ item ∈ items, isTakeoff item = true → c.takeoffTooLow homeAlt item = false) :
    ∃ s, pass (readEntry dm m reads.first) (takeoffRound c homeAlt) m.count 0 {} = .ok s ∧
      Scanned items items.length s := by
  have hround : ∀ k t, 0 ≤ k → k < 0 + m.count → Scanned items k t →
      ∃ item t', readEntry dm m reads.first k = .ok item ∧
        takeoffRound c homeAlt k item t = .ok t' ∧ Scanned items (k + 1) t' := by
    intro k t _ hk ht
    have hlt : k < items.length := by
      rw [hm.1] at hk
      omega
    obtain ⟨t', hround, ht'⟩ := ht.round hlt rfl (halt _ (List.getElem_mem hlt))
    exact ⟨items[k], t', hm.readEntry (hr k).1 hlt, hround, ht'⟩
  obtain ⟨s, hpass, hs⟩ := pass_succeeds (Scanned items) hround (scanned_start items)
  refine ⟨s, hpass, ?_⟩
  rwa [Nat.zero_add, hm.1] at hs

theorem second_pass (hr : reads.Succeed) (hm : MissionIs dm m items) (hj : j < items.length)
    (hpos : 0 < j) (b : Bool) :
    pass (readEntry dm m reads.again) beforeTakeoffRound j 0 b = .ok (allowedAt items (j - 1)) := by
  -- the invariant says nothing at index 0: what the flag was is overwritten
  have hround : ∀ k t, 0 ≤ k → k < 0 + j → (0 < k → t = allowedAt items (k - 1)) →
      ∃ item t', readEntry dm m reads.again k = .ok item ∧
        beforeTakeoffRound k item t = .ok t' ∧ (0 < k + 1 → t' = allowedAt items (k + 1 - 1)) := by
    intro k t _ hk _
    have hlt : k < items.length := by omega
    exact ⟨items[k], allowedBeforeTakeoff items[k], hm.readEntry (hr k).2 hlt, rfl,
      fun _ => (itemAt_of_lt hlt).symm⟩
  obtain ⟨b', hpass, hb'⟩ := pass_succeeds (fun k b => 0 < k → b = allowedAt items (k - 1)) hround
    (s := b) fun h => absurd h (Nat.lt_irrefl 0)
  rw [hpass, hb' (by omega), Nat.zero_add]

end Passes

/-! ## What is accepted -/

section Accepted

variable {c : Checker} {reads : Reads} {dm : Store} {m : MissionState} {homeAlt : ℚ}
  {items : List MissionItem}

theorem requireTakeoff_ok_iff {hasTakeoff takeoffFirst : Bool} (hreq : c.takeoffRequired = true)
    (hl : c.landed = true) :
    requireTakeoff c hasTakeoff takeoffFirst = .ok () ↔ hasTakeoff = true ∧
      takeoffFirst = true := by
  cases hasTakeoff <;> cases takeoffFirst <;> simp [requireTakeoff, hreq, hl]

/-- With a takeoff behind index 0, the item before it decides; without, a takeoff at index 0. -/
theorem checkTakeoff_ok_iff (hr : reads.Succeed) (hm : MissionIs dm m items)
    (halt : ∀ item ∈ items, isTakeoff item = true → c.takeoffTooLow homeAlt item = false)
    (hreq : c.takeoffRequired = true) (hl : c.landed = true) :
    (∀ j, FirstTakeoff items 1 j →
      (checkTakeoff c reads dm m homeAlt = .ok () ↔ allowedAt items (j - 1) = true)) ∧
    ((∀ j, ¬FirstTakeoff items 1 j) →
      (checkTakeoff c reads dm m homeAlt = .ok () ↔ takeoffAt items 0 = true)) := by
  obtain ⟨s, hpass, hs⟩ := first_pass (c := c) hr hm halt
  have hcheck : ∀ b, itemsBeforeTakeoff reads dm m s = .ok b →
      (checkTakeoff c reads dm m homeAlt = .ok () ↔ s.hasTakeoff = true ∧ b = true) := by
    intro b hb
    rw [← requireTakeoff_ok_iff hreq hl, checkTakeoff, hpass]
    change (itemsBeforeTakeoff reads dm m s >>= requireTakeoff c s.hasTakeoff) = _ ↔ _
    rw [hb]
    rfl
  -- the index that the first pass keeps is the one of the specification
  have hlater : ∀ j, FirstTakeoff items 1 j → s.takeoffIndex = j := by
    intro j hj
    have hlt := lt_length_of_itemAt hj.takeoff
    rcases hs.index with ⟨-, hno⟩ | ⟨k, hk, -, hfirst⟩
    · have := hno j hj.start_le hlt
      simp [hj.takeoff] at this
    · rw [hk, hfirst.unique hj]
  constructor
  · intro j hj
    have hidx := hlater j hj
    have hlt := lt_length_of_itemAt hj.takeoff
    have hhas : s.hasTakeoff = true := hs.has.2 ⟨j, hlt, hj.takeoff⟩
    rw [hcheck (allowedAt items (j - 1)) ?_, hhas]
    · simp
    · rw [itemsBeforeTakeoff, if_pos (by omega), hidx, Int.toNat_natCast]
      exact second_pass hr hm hlt hj.start_le _
  · intro hno
    have hidx : s.takeoffIndex = -1 := by
      rcases hs.index with ⟨hidx, -⟩ | ⟨k, -, -, hfirst⟩
      · exact hidx
      · exact absurd hfirst (hno k)
    rw [hcheck s.takeoffFirst (if_neg (not_not_intro hidx)), hs.has, hs.first]
    constructor
    · rintro ⟨-, -, h0⟩
      exact h0
    · intro h0
      have hpos := lt_length_of_itemAt h0
      exact ⟨⟨0, hpos, h0⟩, hpos, h0⟩

/-- Required on the ground, the check decides by the rule exactly when the last item before the
takeoff does. -/
theorem takeoff_rule_iff (hr : reads.Succeed) (hm : MissionIs dm m items)
    (halt : ∀ item ∈ items, isTakeoff item = true → c.takeoffTooLow homeAlt item = false)
    (hreq : c.takeoffRequired = true) (hl : c.landed = true) :
    (checkTakeoff c reads dm m homeAlt = .ok () ↔ TakeoffRule items) ↔ LastItemDecides items := by
  obtain ⟨hlater, honly⟩ := checkTakeoff_ok_iff hr hm halt hreq hl
  -- without a later takeoff there is no second pass, and the check is right
  by_cases hex : ∃ j, FirstTakeoff items 1 j
  · obtain ⟨j, hj⟩ := hex
    have hdecides : LastItemDecides items ↔
        if takeoffAt items 0 then allowedAt items (j - 1) = true
        else allowedAt items (j - 1) = true → ∀ i < j, allowedAt items i = true := by
      constructor
      · intro h
        exact h j hj
      · intro h k hk
        rwa [hk.unique hj]
    rw [hlater j hj, hdecides]
    cases h0 : takeoffAt items 0 with
    | true => simp [takeoffRule_of_first h0]
    | false =>
        rw [takeoffRule_iff_of_later h0 hj, if_neg Bool.false_ne_true]
        constructor
        · intro h
          exact h.1
        · intro h
          exact ⟨h, fun hall => hall (j - 1) (by have := hj.start_le; omega)⟩
  · have hno : ∀ j, ¬FirstTakeoff items 1 j := fun j hj => hex ⟨j, hj⟩
    have hdecides : LastItemDecides items := fun j hj => absurd hj (hno j)
    rw [honly hno]
    refine iff_of_true ?_ hdecides
    cases h0 : takeoffAt items 0 with
    | true => simp [takeoffRule_of_first h0]
    | false => simp [not_takeoffRule h0 hno]

end Accepted

/-! ## Examples -/

/-- On the ground, with a takeoff required. -/
def onGround : Checker where
  takeoffRequired := true
  landed := true
  defaultAcceptanceRadius := 10
  subFloat := fun a b => a - b

def takeoffTo (altitude : ℚ) : MissionItem :=
  { navCmd := .navTakeoff, altitude := altitude, altitudeIsRelative := true }

def delay : MissionItem := { navCmd := .navDelay }

theorem takeoffTooLow_takeoffTo {altitude : ℚ} (h : 11 ≤ altitude) (homeAlt : ℚ) :
    onGround.takeoffTooLow homeAlt (takeoffTo altitude) = false := by
  have hradius : onGround.acceptanceRadius (takeoffTo altitude) = 10 := by
    rw [Checker.acceptanceRadius, if_neg]
    · rfl
    · norm_num [takeoffTo, navEpsilonPosition]
  have hle : ¬altitude - 1 < 10 := by linarith
  rw [Checker.takeoffTooLow, hradius]
  exact decide_eq_false hle

theorem takeoff_rule_iff_delayed :
    (checkTakeoff onGround {} (navOf [delay, takeoffTo 50]).dm (navOf [delay, takeoffTo 50]).mission
      0 =
        .ok () ↔ TakeoffRule [delay, takeoffTo 50]) ↔ LastItemDecides [delay, takeoffTo 50] :=
  takeoff_rule_iff (fun _ => ⟨rfl, rfl⟩) (missionIs_navOf _)
    (by simp [takeoffTooLow_takeoffTo (show (11 : ℚ) ≤ 50 by norm_num), delay, isTakeoff]) rfl rfl

/-- A waypoint, and behind it a delay that makes the check forget it. -/
def hiddenWaypoint : List MissionItem := [waypointAt 0, delay, takeoffTo 50]

theorem firstTakeoff_hiddenWaypoint : FirstTakeoff hiddenWaypoint 1 2 where
  takeoff := rfl
  start_le := by decide
  none_before i hi hlt := by
    obtain rfl : i = 1 := by omega
    rfl

theorem hidden_waypoint_accepted :
    MissionIs (navOf hiddenWaypoint).dm (navOf hiddenWaypoint).mission hiddenWaypoint ∧
      (∀ item ∈ hiddenWaypoint, isTakeoff item = true → onGround.takeoffTooLow 0 item = false) ∧
      checkTakeoff onGround {} (navOf hiddenWaypoint).dm (navOf hiddenWaypoint).mission 0 = .ok () ∧
      ¬TakeoffRule hiddenWaypoint := by
  have hm := missionIs_navOf hiddenWaypoint
  have halt : ∀ item ∈ hiddenWaypoint, isTakeoff item = true →
      onGround.takeoffTooLow 0 item = false := by
    simp [hiddenWaypoint, takeoffTooLow_takeoffTo (show (11 : ℚ) ≤ 50 by norm_num), waypointAt,
      delay,
      isTakeoff]
  have hreads : (Reads.Succeed {}) := fun _ => ⟨rfl, rfl⟩
  refine ⟨hm, halt, ?_, ?_⟩
  · exact ((checkTakeoff_ok_iff hreads hm halt rfl rfl).1 2 firstTakeoff_hiddenWaypoint).2 rfl
  · rw [takeoffRule_iff_of_later rfl firstTakeoff_hiddenWaypoint]
    intro hall
    have := hall 0 (by decide)
    cases this

end Navigator
end DtPhm
