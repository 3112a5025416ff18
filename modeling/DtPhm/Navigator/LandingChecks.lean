import DtPhm.Navigator.LandStart
import DtPhm.Navigator.TakeoffCheck

/-!
# LandingChecks — a landing pattern ends with a landing

A DO_LAND_START marks where the landing of a mission begins.  `checkFixedWingLanding` and
`checkVTOLLanding` go once through the stored items and keep the index of the marker and that of the
approach, which is the item before the last landing.  Both are 0 as long as nothing was found.

* `checkFixedWingLanding`, `checkVTOLLanding` — the two checks;
* `LandingStep` — what a round that goes on does;
* `LandStartRule` — one marker, a landing after it, and no return after it;
* `land_start_rule_iff` — the fixed wing check sees to the rule, the VTOL check with one exception.
-/

namespace DtPhm
namespace Navigator

open Lib
open Mission

/-! ## The approach -/

/-- `position_controller_landing_status`. -/
structure LandingStatus where
  timestamp : ℕ
  flareLength : ℚ
  horizontalSlopeDisplacement : ℚ
  slopeAngleRad : ℚ

/-- What the fixed wing check computes with: the functions of the geo library and of `Landingslope`,
sums and differences of floats, and the landing status at the time the item at an index is
checked. -/
structure Slope where
  status : ℕ → LandingStatus
  /-- `get_distance_to_next_waypoint`, of two latitudes and longitudes -/
  distance : ℚ → ℚ → ℚ → ℚ → ℚ
  absoluteAltitude : ℚ → ℚ → ℚ → ℚ → ℚ
  wpDistance : ℚ → ℚ → ℚ → ℚ → ℚ
  addFloat : ℚ → ℚ → ℚ
  subFloat : ℚ → ℚ → ℚ

/-- The item before a landing at index `i` is at a feasible distance and altitude. -/
def checkApproach (g : Slope) (i : ℕ) (previous item : MissionItem) : Except Rejection Unit :=
  let status := g.status i
  let wpDistance := g.distance previous.lat previous.lon item.lat item.lon
  if 0 < status.timestamp ∧ wpDistance > status.flareLength then
    -- last wp is before flare region
    if g.subFloat item.altitude previous.altitude < 0 then
      let slopeAltReq := g.absoluteAltitude wpDistance item.altitude
        status.horizontalSlopeDisplacement status.slopeAngleRad
      if previous.altitude > g.addFloat slopeAltReq 1 then
        let wpDistanceReq := g.wpDistance previous.altitude item.altitude
          status.horizontalSlopeDisplacement status.slopeAngleRad
        .error (.adjustApproach ⌈g.subFloat slopeAltReq previous.altitude⌉
          ⌈g.subFloat wpDistanceReq wpDistance⌉)
      else
        .ok ()
    else
      .error .landingAboveLast
  else
    .error .withinFlare

/-! ## The checks -/

/-- The variables of both checks; only the fixed wing check has the last one. -/
structure LandingScan where
  landStartFound : Bool := false
  doLandStartIndex : ℕ := 0
  landingApproachIndex : ℕ := 0
  landingValid : Bool := false
  deriving DecidableEq

def isLand (item : MissionItem) : Bool := decide (item.navCmd = .navLand)

def isVtolLanding (item : MissionItem) : Bool :=
  decide (item.navCmd = .navLand ∨ item.navCmd = .navVtolLand)

def isReturn (item : MissionItem) : Bool := decide (item.navCmd = .navReturnToLaunch)

/-- If DO_LAND_START is found, a valid landing is required after it. -/
def noteLandStart (i : ℕ) (item : MissionItem) (s : LandingScan) : Except Rejection LandingScan :=
  if isLandStartMarker item then
    if s.landStartFound then .error .moreThanOneLandStart
    else .ok { s with landStartFound := true, doLandStartIndex := i }
  else
    .ok s

def noteReturn (i : ℕ) (item : MissionItem) (s : LandingScan) : Except Rejection LandingScan :=
  if isReturn item = true ∧ s.landStartFound = true ∧ s.doLandStartIndex < i then
    .error .landStartBeforeRtl
  else
    .ok s

/-- A landing at index `i`, for a fixed wing. -/
def fixedWingLanding (g : Slope) (entry : ℕ → Except Rejection MissionItem) (i : ℕ)
    (item : MissionItem) (s : LandingScan) : Except Rejection LandingScan :=
  if 0 < i then
    match entry (i - 1) with
    | .error e => .error e
    | .ok previous =>
        if itemContainsPosition previous then
          match checkApproach g i previous item with
          | .error e => .error e
          | .ok () => .ok { s with landingApproachIndex := i - 1, landingValid := true }
        else
          -- mission item before land doesn't have a position
          .error .needLandingApproach
  else
    .error .startsWithLand

/-- A landing at index `i`, for a VTOL: the item before it is read, and not looked at. -/
def vtolLanding (entry : ℕ → Except Rejection MissionItem) (i : ℕ) (s : LandingScan) :
    Except Rejection LandingScan :=
  if 0 < i then
    match entry (i - 1) with
    | .error e => .error e
    | .ok _ => .ok { s with landingApproachIndex := i - 1 }
  else
    .error .startsWithLand

/-- A round of both checks, which differ in what is a landing and in what is done at one. -/
def landingRound (landing : MissionItem → Bool)
    (land : ℕ → MissionItem → LandingScan → Except Rejection LandingScan) (i : ℕ)
    (item : MissionItem)
    (s : LandingScan) : Except Rejection LandingScan :=
  match noteLandStart i item s with
  | .error e => .error e
  | .ok s => if landing item then land i item s else noteReturn i item s

def fixedWingRound (g : Slope) (entry : ℕ → Except Rejection MissionItem) :
    ℕ → MissionItem → LandingScan → Except Rejection LandingScan :=
  landingRound isLand (fixedWingLanding g entry)

def vtolRound (entry : ℕ → Except Rejection MissionItem) :
    ℕ → MissionItem → LandingScan → Except Rejection LandingScan :=
  landingRound isVtolLanding fun i _ s => vtolLanding entry i s

/-- The decision of both checks.  The indices are those the variables start with, if nothing was
found. -/
def landingDecision (landStartReq landingValid : Bool) (s : LandingScan) : Except Rejection Unit :=
  if landStartReq = true ∧ s.landStartFound = false then
    .error .landingRequired
  else if s.landStartFound = true ∧
      (landingValid = false ∨ s.doLandStartIndex > s.landingApproachIndex) then
    .error .invalidLandStart
  else
    .ok ()

def checkFixedWingLanding (g : Slope) (reads : Reads) (dm : Store) (m : MissionState)
    (landStartReq : Bool) : Except Rejection Unit :=
  match pass (readEntry dm m reads.first) (fixedWingRound g (readEntry dm m reads.again)) m.count 0
    {} with
  | .error e => .error e
  | .ok s => landingDecision landStartReq s.landingValid s

/-- A VTOL needs no valid approach. -/
def checkVTOLLanding (reads : Reads) (dm : Store) (m : MissionState) (landStartReq : Bool) :
    Except Rejection Unit :=
  match pass (readEntry dm m reads.first) (vtolRound (readEntry dm m reads.again)) m.count 0 {} with
  | .error e => .error e
  | .ok s => landingDecision landStartReq true s

/-! ## Rounds that go on -/

/-- What a round on an item does to the variables, if it does not reject the mission. -/
inductive LandingStep (landing : MissionItem → Bool) (i : ℕ) (item : MissionItem)
    (s : LandingScan) :
    LandingScan → Prop
  | marker (hm : isLandStartMarker item = true) (hs : s.landStartFound = false) :
      LandingStep landing i item s { s with landStartFound := true, doLandStartIndex := i }
  | landing (hm : isLandStartMarker item = false) (hl : landing item = true) (hi : 0 < i)
      (valid : Bool) :
      LandingStep landing i item s { s with landingApproachIndex := i - 1, landingValid := valid }
  | passed (hm : isLandStartMarker item = false) (hl : landing item = false)
      (hr : isReturn item = true → s.landStartFound = true → i ≤ s.doLandStartIndex) :
      LandingStep landing i item s s

section Rounds

variable {g : Slope} {entry : ℕ → Except Rejection MissionItem} {i : ℕ} {item : MissionItem}
  {s s' : LandingScan} {landing : MissionItem → Bool}

theorem isLand_of_marker (h : isLandStartMarker item = true) : isLand item = false := by
  have hcmd : item.navCmd = .doLandStart := by simpa [isLandStartMarker] using h
  simp [isLand, hcmd]

theorem isVtolLanding_of_marker (h : isLandStartMarker item = true) :
    isVtolLanding item = false := by
  have hcmd : item.navCmd = .doLandStart := by simpa [isLandStartMarker] using h
  simp [isVtolLanding, hcmd]

theorem isReturn_of_marker (h : isLandStartMarker item = true) : isReturn item = false := by
  have hcmd : item.navCmd = .doLandStart := by simpa [isLandStartMarker] using h
  simp [isReturn, hcmd]

theorem noteReturn_of_not (h : isReturn item = false) : noteReturn i item s = .ok s := by
  simp [noteReturn, h]

theorem landingRound_step {land : ℕ → MissionItem → LandingScan → Except Rejection LandingScan}
    (hmarker : isLandStartMarker item = true → landing item = false)
    (hland : ∀ t t', land i item t = .ok t' →
      0 < i ∧ ∃ valid, t' = { t with landingApproachIndex := i - 1, landingValid := valid })
    (h : landingRound landing land i item s = .ok s') : LandingStep landing i item s s' := by
  rw [landingRound] at h
  cases hm : isLandStartMarker item with
  | true =>
      cases hs : s.landStartFound with
      | true =>
          simp only [noteLandStart, hm, hs, if_true] at h
          cases h
      | false =>
          simp only [noteLandStart, hm, hs, if_true, Bool.false_eq_true, if_false, hmarker hm,
            noteReturn_of_not (isReturn_of_marker hm), Except.ok.injEq] at h
          exact h ▸ .marker hm hs
  | false =>
      simp only [noteLandStart, hm, Bool.false_eq_true, if_false] at h
      cases hl : landing item with
      | true =>
          rw [hl, if_pos rfl] at h
          obtain ⟨hi, valid, rfl⟩ := hland s s' h
          exact .landing hm hl hi valid
      | false =>
          rw [hl, if_neg Bool.false_ne_true, noteReturn] at h
          split_ifs at h with hr
          cases h
          refine .passed hm hl fun hret hfound => ?_
          by_contra hlt
          exact hr ⟨hret, hfound, Nat.lt_of_not_le hlt⟩

theorem fixedWingLanding_ok (h : fixedWingLanding g entry i item s = .ok s') :
    0 < i ∧ s' = { s with landingApproachIndex := i - 1, landingValid := true } := by
  unfold fixedWingLanding at h
  split_ifs at h with hi
  refine ⟨hi, ?_⟩
  split at h
  · cases h
  · split_ifs at h
    split at h
    · cases h
    · cases h
      rfl

theorem vtolLanding_ok (h : vtolLanding entry i s = .ok s') :
    0 < i ∧ s' = { s with landingApproachIndex := i - 1 } := by
  unfold vtolLanding at h
  split_ifs at h with hi
  refine ⟨hi, ?_⟩
  split at h
  · cases h
  · cases h
    rfl

theorem fixedWingRound_step (h : fixedWingRound g entry i item s = .ok s') :
    LandingStep isLand i item s s' := by
  refine landingRound_step isLand_of_marker (fun t t' ht => ?_) h
  obtain ⟨hi, rfl⟩ := fixedWingLanding_ok ht
  exact ⟨hi, true, rfl⟩

theorem vtolRound_step (h : vtolRound entry i item s = .ok s') :
    LandingStep isVtolLanding i item s s' := by
  refine landingRound_step isVtolLanding_of_marker (fun t t' ht => ?_) h
  obtain ⟨hi, rfl⟩ := vtolLanding_ok ht
  exact ⟨hi, t.landingValid, rfl⟩

end Rounds

/-! ## The rule -/

def markerAt (items : List MissionItem) (i : ℕ) : Bool := itemAt isLandStartMarker items i

/-- There is one marker, a landing comes after it, and no return does. -/
def LandStartRule (landing : MissionItem → Bool) (items : List MissionItem) : Prop :=
  ∃ k, markerAt items k = true ∧ (∀ i, markerAt items i = true → i = k) ∧
    (∃ i, k < i ∧ itemAt landing items i = true) ∧ ∀ i, k < i → itemAt isReturn items i = false

/-- The mission starts with its only marker, and has neither a landing nor a return. -/
def BareLandStart (items : List MissionItem) : Prop :=
  markerAt items 0 = true ∧ ∀ i, 0 < i →
    markerAt items i = false ∧ itemAt isVtolLanding items i = false ∧
      itemAt isReturn items i = false

/-- What is known of the items before index `i`. -/
structure LandingScanned (landing : MissionItem → Bool) (items : List MissionItem) (i : ℕ)
    (s : LandingScan) : Prop where
  marker : s.landStartFound = true → s.doLandStartIndex < i ∧
    markerAt items s.doLandStartIndex = true
  only : ∀ k < i, markerAt items k = true → s.landStartFound = true ∧ k = s.doLandStartIndex
  approach : (s.landingApproachIndex = 0 ∧ s.landingValid = false ∧
      ∀ k < i, itemAt landing items k = false) ∨
    (s.landingApproachIndex + 1 < i ∧ itemAt landing items (s.landingApproachIndex + 1) = true)
  return_le : ∀ k < i, itemAt isReturn items k = true → s.landStartFound = true →
    k ≤ s.doLandStartIndex

section Scanned

variable {landing : MissionItem → Bool} {items : List MissionItem} {i : ℕ} {s s' : LandingScan}

theorem landingScanned_start (landing : MissionItem → Bool) (items : List MissionItem) :
    LandingScanned landing items 0 {} where
  marker h := by cases h
  only k hk := absurd hk (Nat.not_lt_zero k)
  approach := .inl ⟨rfl, rfl, fun k hk => absurd hk (Nat.not_lt_zero k)⟩
  return_le k hk := absurd hk (Nat.not_lt_zero k)

theorem LandingScanned.step (hmarker : ∀ item, isLandStartMarker item = true → landing item = false)
    (hreturn : ∀ item, landing item = true → isReturn item = false)
    (h : LandingScanned landing items i s) (hi : i < items.length)
    (hstep : LandingStep landing i items[i] s s') : LandingScanned landing items (i + 1) s' := by
  have hat : ∀ p, itemAt p items i = p items[i] := fun p => itemAt_of_lt hi
  -- an item that is no landing leaves the approach as it is
  have happroach : itemAt landing items i = false →
      (s.landingApproachIndex = 0 ∧ s.landingValid = false ∧
        ∀ k < i + 1, itemAt landing items k = false) ∨
      (s.landingApproachIndex + 1 < i + 1 ∧
        itemAt landing items (s.landingApproachIndex + 1) = true) := by
    intro hli
    rcases h.approach with ⟨ha, hv, hno⟩ | ⟨ha, hland⟩
    · exact .inl ⟨ha, hv, Nat.forall_lt_succ_right.2 ⟨hno, hli⟩⟩
    · exact .inr ⟨Nat.lt_succ_of_lt ha, hland⟩
  have hmarked : s.landStartFound = true →
      s.doLandStartIndex < i + 1 ∧ markerAt items s.doLandStartIndex = true :=
    fun hf => ⟨Nat.lt_succ_of_lt (h.marker hf).1, (h.marker hf).2⟩
  cases hstep with
  | marker hm hs =>
      exact {
        marker := fun _ => ⟨Nat.lt_succ_self i, (hat _).trans hm⟩
        only := fun k hk hmk => by
          rcases Nat.lt_succ_iff_lt_or_eq.1 hk with hlt | rfl
          · exact absurd (h.only k hlt hmk).1 (by simp [hs])
          · exact ⟨rfl, rfl⟩
        approach := happroach ((hat _).trans (hmarker _ hm))
        return_le := fun k hk _ _ => Nat.le_of_lt_succ hk }
  | landing hm hl hpos valid =>
      have hsucc : i - 1 + 1 = i := Nat.sub_add_cancel hpos
      exact {
        marker := hmarked
        only := Nat.forall_lt_succ_right.2
          ⟨h.only, fun hmi => absurd ((hat _).symm.trans hmi) (by simp [hm])⟩
        approach := .inr ⟨by rw [hsucc]; exact Nat.lt_succ_self i, by rw [hsucc, hat, hl]⟩
        return_le := Nat.forall_lt_succ_right.2
          ⟨h.return_le, fun hret => absurd ((hat _).symm.trans hret) (by simp [hreturn _ hl])⟩ }
  | passed hm hl hr =>
      exact {
        marker := hmarked
        only := Nat.forall_lt_succ_right.2
          ⟨h.only, fun hmi => absurd ((hat _).symm.trans hmi) (by simp [hm])⟩
        approach := happroach ((hat _).trans hl)
        return_le := Nat.forall_lt_succ_right.2
          ⟨h.return_le, fun hret hf => hr ((hat _).symm.trans hret) hf⟩ }

theorem landingScanned_of_pass {reads : Reads} {dm : Store} {m : MissionState}
    {land : ℕ → MissionItem → LandingScan → Except Rejection LandingScan}
    (hmarker : ∀ item, isLandStartMarker item = true → landing item = false)
    (hreturn : ∀ item, landing item = true → isReturn item = false)
    (hround : ∀ i item s s', landingRound landing land i item s = .ok s' →
      LandingStep landing i item s s')
    (hr : reads.Succeed) (hm : MissionIs dm m items)
    (h : pass (readEntry dm m reads.first) (landingRound landing land) m.count 0 {} = .ok s) :
    LandingScanned landing items items.length s := by
  have hstep : ∀ k item t t', 0 ≤ k → k < 0 + m.count → readEntry dm m reads.first k = .ok item →
      LandingScanned landing items k t → landingRound landing land k item t = .ok t' →
      LandingScanned landing items (k + 1) t' := by
    intro k item t t' _ hk hread ht hround'
    have hlt : k < items.length := by
      rw [hm.1] at hk
      omega
    rw [hm.readEntry (hr k).1 hlt] at hread
    cases hread
    exact ht.step hmarker hreturn hlt (hround k _ t t' hround')
  have hs := pass_keeps (LandingScanned landing items) hstep (landingScanned_start landing items) h
  rwa [Nat.zero_add, hm.1] at hs

theorem LandingScanned.rule (h : LandingScanned landing items items.length s)
    (hfound : s.landStartFound = true) (hle : s.doLandStartIndex ≤ s.landingApproachIndex)
    (hland : itemAt landing items (s.landingApproachIndex + 1) = true) :
    LandStartRule landing items := by
  refine ⟨s.doLandStartIndex, (h.marker hfound).2, fun i hi => ?_,
    ⟨s.landingApproachIndex + 1, Nat.lt_succ_of_le hle, hland⟩, fun i hlt => ?_⟩
  · exact (h.only i (lt_length_of_itemAt hi) hi).2
  · by_contra hret
    rw [Bool.not_eq_false] at hret
    have := h.return_le i (lt_length_of_itemAt hret) hret hfound
    omega

theorem LandingScanned.found (h : LandingScanned landing items items.length s) {k : ℕ}
    (hk : markerAt items k = true) : s.landStartFound = true :=
  (h.only k (lt_length_of_itemAt hk) hk).1

end Scanned

theorem landingDecision_ok {req valid : Bool} {s : LandingScan}
    (h : landingDecision req valid s = .ok ()) (hfound : s.landStartFound = true) :
    valid = true ∧ s.doLandStartIndex ≤ s.landingApproachIndex := by
  unfold landingDecision at h
  split_ifs at h with hreq hinvalid
  constructor
  · by_contra hv
    exact hinvalid ⟨hfound, .inl (Bool.not_eq_true _ ▸ hv)⟩
  · by_contra hlt
    exact hinvalid ⟨hfound, .inr (Nat.lt_of_not_le hlt)⟩

theorem isReturn_of_isLand {item : MissionItem} (h : isLand item = true) :
    isReturn item = false := by
  have hcmd : item.navCmd = .navLand := by simpa [isLand] using h
  simp [isReturn, hcmd]

theorem isReturn_of_isVtolLanding {item : MissionItem} (h : isVtolLanding item = true) :
    isReturn item = false := by
  have hcmd : item.navCmd = .navLand ∨ item.navCmd = .navVtolLand := by
    simpa [isVtolLanding] using h
  rcases hcmd with hcmd | hcmd <;> simp [isReturn, hcmd]

section Accepted

variable {g : Slope} {reads : Reads} {dm : Store} {m : MissionState} {items : List MissionItem}
  {req : Bool}

theorem fixedWing_rule (hr : reads.Succeed) (hm : MissionIs dm m items)
    (h : checkFixedWingLanding g reads dm m req = .ok ()) (hmark : ∃ k, markerAt items k = true) :
    LandStartRule isLand items := by
  obtain ⟨k, hk⟩ := hmark
  unfold checkFixedWingLanding at h
  split at h
  · cases h
  · rename_i s hpass
    have hs := landingScanned_of_pass (fun _ => isLand_of_marker) (fun _ => isReturn_of_isLand)
      (fun _ _ _ _ => fixedWingRound_step) hr hm hpass
    have hfound := hs.found hk
    obtain ⟨hvalid, hle⟩ := landingDecision_ok h hfound
    rcases hs.approach with ⟨-, hno, -⟩ | ⟨-, hland⟩
    -- without a landing there is no valid one
    · simp [hvalid] at hno
    · exact hs.rule hfound hle hland

/-- An accepted mission of a VTOL meets the rule, or has a marker and nothing to land on. -/
theorem vtol_rule_or_bare (hr : reads.Succeed) (hm : MissionIs dm m items)
    (h : checkVTOLLanding reads dm m req = .ok ()) (hmark : ∃ k, markerAt items k = true) :
    LandStartRule isVtolLanding items ∨ BareLandStart items := by
  obtain ⟨k, hk⟩ := hmark
  unfold checkVTOLLanding at h
  split at h
  · cases h
  · rename_i s hpass
    have hs := landingScanned_of_pass (fun _ => isVtolLanding_of_marker)
      (fun _ => isReturn_of_isVtolLanding) (fun _ _ _ _ => vtolRound_step) hr hm hpass
    have hfound := hs.found hk
    have hle := (landingDecision_ok h hfound).2
    rcases hs.approach with ⟨ha, -, hno⟩ | ⟨-, hland⟩
    -- no landing was found, and the marker is not behind index 0
    · right
      have hidx : s.doLandStartIndex = 0 := by omega
      refine ⟨hidx ▸ (hs.marker hfound).2, fun i hi => ⟨?_, ?_, ?_⟩⟩
      · by_contra hmi
        rw [Bool.not_eq_false] at hmi
        have := (hs.only i (lt_length_of_itemAt hmi) hmi).2
        omega
      · by_contra hli
        rw [Bool.not_eq_false] at hli
        have := hno i (lt_length_of_itemAt hli)
        simp [hli] at this
      · by_contra hri
        rw [Bool.not_eq_false] at hri
        have := hs.return_le i (lt_length_of_itemAt hri) hri hfound
        omega
    · exact .inl (hs.rule hfound hle hland)

theorem not_landStartRule_of_bare (h : BareLandStart items) :
    ¬LandStartRule isVtolLanding items := by
  rintro ⟨k, hk, -, ⟨i, hki, hland⟩, -⟩
  have := (h.2 i (by omega)).2.1
  simp [hland] at this

/-- The variables before index `k` of a mission with a bare marker. -/
def bareScan (k : ℕ) : LandingScan := if k = 0 then {} else { landStartFound := true }

theorem vtolRound_bare (h : BareLandStart items) {k : ℕ} (hk : k < items.length)
    (entry : ℕ → Except Rejection MissionItem) :
    vtolRound entry k items[k] (bareScan k) = .ok (bareScan (k + 1)) := by
  have hat : ∀ p, itemAt p items k = p items[k] := fun p => itemAt_of_lt hk
  rcases Nat.eq_zero_or_pos k with rfl | hpos
  · have hmark : isLandStartMarker items[0] = true := (hat _).symm.trans h.1
    simp [vtolRound, landingRound, noteLandStart, hmark, isVtolLanding_of_marker hmark,
      noteReturn_of_not (isReturn_of_marker hmark), bareScan]
  · obtain ⟨hmark, hland, hret⟩ := h.2 k hpos
    rw [markerAt, hat] at hmark
    rw [hat] at hland hret
    simp [vtolRound, landingRound, noteLandStart, hmark, hland, noteReturn_of_not hret, hpos.ne',
      bareScan]

theorem vtol_accepts_bare (hr : reads.Succeed) (hm : MissionIs dm m items)
    (h : BareLandStart items) :
    checkVTOLLanding reads dm m req = .ok () := by
  have hround : ∀ k t, 0 ≤ k → k < 0 + m.count → t = bareScan k →
      ∃ item t', readEntry dm m reads.first k = .ok item ∧
        vtolRound (readEntry dm m reads.again) k item t = .ok t' ∧ t' = bareScan (k + 1) := by
    rintro k t - hk rfl
    have hlt : k < items.length := by
      rw [hm.1] at hk
      omega
    exact ⟨items[k], _, hm.readEntry (hr k).1 hlt, vtolRound_bare h hlt _, rfl⟩
  obtain ⟨s, hpass, hs⟩ := pass_succeeds (fun k t => t = bareScan k) hround
    (show ({} : LandingScan) = bareScan 0 from rfl)
  have hpos : 0 + m.count ≠ 0 := by
    have := lt_length_of_itemAt h.1
    rw [hm.1]
    omega
  rw [bareScan, if_neg hpos] at hs
  subst hs
  rw [checkVTOLLanding, hpass]
  simp [landingDecision]

/-- What is accepted with a land start meets the rule: for a fixed wing always, for a VTOL unless
the marker stands bare. -/
theorem land_start_rule_iff (g : Slope) (req : Bool) (hr : reads.Succeed)
    (hm : MissionIs dm m items) :
    (checkFixedWingLanding g reads dm m req = .ok () → (∃ k, markerAt items k = true) →
      LandStartRule isLand items) ∧
    ((checkVTOLLanding reads dm m req = .ok () → (∃ k, markerAt items k = true) →
      LandStartRule isVtolLanding items) ↔ ¬BareLandStart items) := by
  refine ⟨fixedWing_rule hr hm, ?_, ?_⟩
  · intro hrule hbare
    exact not_landStartRule_of_bare hbare (hrule (vtol_accepts_bare hr hm hbare) ⟨0, hbare.1⟩)
  · intro hbare hok hmark
    rcases vtol_rule_or_bare hr hm hok hmark with hrule | hb
    · exact hrule
    · exact absurd hb hbare

end Accepted

/-! ## Examples -/

def landStart : MissionItem := { navCmd := .doLandStart }

/-- A marker, a waypoint and a landing. -/
def landingPattern : List MissionItem := [landStart, waypointAt 0, { navCmd := .navVtolLand }]

/-- The functions for items of one place, and a slope without inclination. -/
def onePlace : Slope where
  status := fun _ => ⟨1, 15, 0, 0⟩
  distance := fun _ _ _ _ => 0
  absoluteAltitude := fun _ altitude _ _ => altitude
  wpDistance := fun _ _ displacement _ => displacement
  addFloat := fun a b => a + b
  subFloat := fun a b => a - b

theorem land_start_rule_iff_pattern :
    (checkFixedWingLanding onePlace {} (navOf landingPattern).dm (navOf landingPattern).mission
      false =
        .ok () → (∃ k, markerAt landingPattern k = true) → LandStartRule isLand landingPattern) ∧
    ((checkVTOLLanding {} (navOf landingPattern).dm (navOf landingPattern).mission false = .ok () →
      (∃ k, markerAt landingPattern k = true) → LandStartRule isVtolLanding landingPattern) ↔
        ¬BareLandStart landingPattern) :=
  land_start_rule_iff onePlace false (fun _ => ⟨rfl, rfl⟩) (missionIs_navOf landingPattern)

/-- A marker, and a waypoint on which no landing follows. -/
def bareMission : List MissionItem := [landStart, waypointAt 0]

theorem bare_land_start_accepted :
    MissionIs (navOf bareMission).dm (navOf bareMission).mission bareMission ∧
      checkVTOLLanding {} (navOf bareMission).dm (navOf bareMission).mission false = .ok () ∧
      markerAt bareMission 0 = true ∧ ¬LandStartRule isVtolLanding bareMission := by
  refine ⟨missionIs_navOf bareMission, by decide, by decide, ?_⟩
  rintro ⟨k, hk, -, ⟨i, hki, hland⟩, -⟩
  have hi := lt_length_of_itemAt hland
  have hi1 : i = 1 := by
    change i < 2 at hi
    omega
  subst hi1
  cases hland

end Navigator
end DtPhm
