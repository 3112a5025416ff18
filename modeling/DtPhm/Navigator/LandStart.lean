import DtPhm.Navigator.MissionItems

/-!
# LandStart — where the landing of a mission begins

`find_mission_land_start` goes once through the stored mission.  It keeps the index of the landing
start and its position apart: the index follows every DO_LAND_START, the position is taken once.

* `findMissionLandStart` — the loop, with the members it writes;
* `readItems`, `takenFrom`, `lastMarker` — what is read, and the items that set position and index;
* `landStartLoop_eq_foldl` — the members after the loop, from these;
* `land_start_describes_iff` — when index and position describe the same landing.
-/

namespace DtPhm
namespace Navigator

open Dataman (DmItem)
open Mission

/-! ## The loop -/

/-- Coordinates as the members keep them. -/
structure Position where
  lat : ℚ
  lon : ℚ
  alt : ℚ
  deriving DecidableEq

/-- What the loop asks the navigator for, and the sum of two floats, which rounds. -/
structure Site where
  isVtol : Bool
  homeAlt : ℚ
  addFloat : ℚ → ℚ → ℚ

/-- The coordinates of an item; an altitude may be relative to home. -/
def Site.position (site : Site) (item : MissionItem) : Position where
  lat := item.lat
  lon := item.lon
  alt := if item.altitudeIsRelative then site.addFloat item.altitude site.homeAlt else item.altitude

/-- A landing item of this vehicle. -/
def Site.isLanding (site : Site) (item : MissionItem) : Bool :=
  (decide (item.navCmd = .navVtolLand) && site.isVtol) || decide (item.navCmd = .navLand)

def isLandStartMarker (item : MissionItem) : Bool := decide (item.navCmd = .doLandStart)

/-- The members `find_mission_land_start` writes. -/
structure LandStart where
  available : Bool
  index : ℕ
  start : Position
  landing : Position
  deriving DecidableEq

/-- The members, and `found_land_start_marker`. -/
structure Search extends LandStart where
  foundMarker : Bool

/-- A marker moves the index. -/
def noteMarker (i : ℕ) (item : MissionItem) (s : Search) : Search :=
  if isLandStartMarker item then { s with foundMarker := true, index := i } else s

/-- The position of any waypoint after the marker is taken, if none was taken before. -/
def takeWaypoint (site : Site) (i : ℕ) (item : MissionItem) (s : Search) : Search :=
  if s.foundMarker = true ∧ s.available = false ∧ s.index < i ∧
    itemContainsPosition item = true then
    { s with start := site.position item, available := true }
  else
    s

/-- Without a valid land start, the landing item itself is used. -/
def takeLanding (site : Site) (i : ℕ) (item : MissionItem) (s : Search) : Search :=
  if site.isLanding item then
    if s.available then
      { s with landing := site.position item }
    -- mission item is a landing waypoint, and no valid land start was found
    else
      { s with
        landing := site.position item
        index := i
        start := site.position item
        available := true }
  else
    s

/-- One round, on the item at index `i`. -/
def landStartRound (site : Site) (i : ℕ) (item : MissionItem) (s : Search) : Search :=
  takeLanding site i item (takeWaypoint site i item (noteMarker i item s))

/-- The loop, with `n` rounds to go from index `i` on. -/
def landStartLoop (key : DmItem) (dm : Store) (env : Answers) (site : Site) :
    ℕ → ℕ → Search → Search
  | 0, _, s => s
  | n + 1, i, s =>
      match readItem key dm (env.readOk i) i with
      -- dataman read failure
      | none => s
      | some item => landStartLoop key dm env site n (i + 1) (landStartRound site i item s)

/-- `find_mission_land_start`; it returns the first member.  The item at index 0 is not looked
at. -/
def findMissionLandStart (env : Answers) (site : Site) (s : Nav) (l : LandStart) : LandStart :=
  (landStartLoop s.key s.dm env site (s.mission.count - 1) 1
    { l with available := false, foundMarker := false }).toLandStart

/-! ## What is read -/

/-- The items that are read, with their indices. -/
def readFrom (key : DmItem) (dm : Store) (env : Answers) : ℕ → ℕ → List (ℕ × MissionItem)
  | 0, _ => []
  | n + 1, i =>
      match readItem key dm (env.readOk i) i with
      | none => []
      | some item => (i, item) :: readFrom key dm env n (i + 1)

def readItems (env : Answers) (s : Nav) : List (ℕ × MissionItem) :=
  readFrom s.key s.dm env (s.mission.count - 1) 1

/-- The stored item at an index of the mission. -/
def storedItem (s : Nav) (i : ℕ) : Option MissionItem :=
  if i < s.mission.count then readItem s.key s.dm true i else none

section Reads

variable {key : DmItem} {dm : Store} {env : Answers} {n i : ℕ} {x : ℕ × MissionItem}

theorem readItem_of_ok {ok : Bool} {item : MissionItem}
    (h : readItem key dm ok i = some item) : readItem key dm true i = some item := by
  cases ok with
  | true => exact h
  | false => simp [readItem] at h

theorem mem_readFrom (h : x ∈ readFrom key dm env n i) :
    i ≤ x.1 ∧ x.1 < i + n ∧ readItem key dm true x.1 = some x.2 := by
  induction n generalizing i with
  | zero => cases h
  | succ n ih =>
      rw [readFrom] at h
      split at h
      · cases h
      · rename_i item hread
        rcases List.mem_cons.1 h with rfl | htail
        · exact ⟨Nat.le_refl _, by simp, readItem_of_ok hread⟩
        · have hx := ih htail
          exact ⟨by omega, by omega, hx.2.2⟩

theorem pairwise_readFrom (key : DmItem) (dm : Store) (env : Answers) (n i : ℕ) :
    (readFrom key dm env n i).Pairwise fun x y => x.1 < y.1 := by
  induction n generalizing i with
  | zero => exact .nil
  | succ n ih =>
      rw [readFrom]
      split
      · exact .nil
      · refine .cons (fun y hy => ?_) (ih (i + 1))
        have := (mem_readFrom hy).1
        exact this

theorem exists_mem_readFrom (h : x ∈ readFrom key dm env n i) {j : ℕ} (hi : i ≤ j) (hj : j ≤ x.1) :
    ∃ item, (j, item) ∈ readFrom key dm env n i := by
  induction n generalizing i with
  | zero => cases h
  | succ n ih =>
      rw [readFrom] at h ⊢
      split at h
      · cases h
      · rename_i item hread
        rcases Nat.eq_or_lt_of_le hi with rfl | hlt
        · exact ⟨item, List.mem_cons_self⟩
        · rcases List.mem_cons.1 h with rfl | htail
          · simp at hj
            omega
          · obtain ⟨item', hmem⟩ := ih htail hlt
            exact ⟨item', List.mem_cons_of_mem _ hmem⟩

theorem landStartLoop_eq_foldl (site : Site) (n i : ℕ) (s : Search) :
    landStartLoop key dm env site n i s =
      (readFrom key dm env n i).foldl (fun s x => landStartRound site x.1 x.2 s) s := by
  induction n generalizing i s with
  | zero => rfl
  | succ n ih =>
      rw [landStartLoop, readFrom]
      split
      · rfl
      · exact ih _ _

end Reads

/-! ## What sets position and index -/

/-- The item whose position is taken: a landing item, or a position item behind a marker.  `marked`
says that a marker was read before. -/
def takenFrom (site : Site) : (marked : Bool) → List (ℕ × MissionItem) → Option (ℕ × MissionItem)
  | _, [] => none
  | marked, x :: items =>
      if site.isLanding x.2 || (marked && itemContainsPosition x.2) then some x
      else takenFrom site (marked || isLandStartMarker x.2) items

def lastMarker (items : List (ℕ × MissionItem)) : Option (ℕ × MissionItem) :=
  (items.filter fun x => isLandStartMarker x.2).getLast?

/-- The index after a pass: of the last marker, else of the item whose position was taken. -/
def indexAfter (site : Site) (items : List (ℕ × MissionItem)) (s : Search) : ℕ :=
  match lastMarker items with
  | some m => m.1
  | none =>
      if s.available || s.foundMarker then s.index
      else
        match takenFrom site false items with
        | some x => x.1
        | none => s.index

section Pass

variable {site : Site} {i : ℕ} {item : MissionItem} {s : Search} {items : List (ℕ × MissionItem)}
  {x m : ℕ × MissionItem} {marked : Bool}

theorem itemContainsPosition_of_isLanding (h : site.isLanding item = true) :
    itemContainsPosition item = true := by
  unfold Site.isLanding at h
  simp only [Bool.or_eq_true, Bool.and_eq_true, decide_eq_true_eq] at h
  rcases h with ⟨hv, -⟩ | hl
  · rw [itemContainsPosition, hv]
  · rw [itemContainsPosition, hl]

theorem itemContainsPosition_of_marker (h : isLandStartMarker item = true) :
    itemContainsPosition item = false := by
  have hcmd : item.navCmd = .doLandStart := by simpa [isLandStartMarker] using h
  rw [itemContainsPosition, hcmd]

theorem isLanding_of_marker (h : isLandStartMarker item = true) : site.isLanding item = false := by
  by_contra hne
  have hpos := itemContainsPosition_of_isLanding (Bool.not_eq_false _ ▸ hne)
  rw [itemContainsPosition_of_marker h] at hpos
  cases hpos

theorem landStartRound_of_marker (h : isLandStartMarker item = true) :
    landStartRound site i item s = { s with foundMarker := true, index := i } := by
  simp [landStartRound, noteMarker, takeWaypoint, takeLanding, h, itemContainsPosition_of_marker h,
    isLanding_of_marker h]

theorem landStartRound_of_available (h : isLandStartMarker item = false) (ha : s.available = true) :
    (landStartRound site i item s).available = true ∧
      (landStartRound site i item s).start = s.start ∧
      (landStartRound site i item s).index = s.index ∧
      (landStartRound site i item s).foundMarker = s.foundMarker := by
  by_cases hl : site.isLanding item = true <;>
    simp [landStartRound, noteMarker, takeWaypoint, takeLanding, h, ha, hl]

theorem landStartRound_of_taken (h : isLandStartMarker item = false) (ha : s.available = false)
    (hidx : s.foundMarker = true → s.index < i)
    (ht : (site.isLanding item || (s.foundMarker && itemContainsPosition item)) = true) :
    (landStartRound site i item s).available = true ∧
      (landStartRound site i item s).start = site.position item ∧
      (landStartRound site i item s).index = (if s.foundMarker then s.index else i) ∧
      (landStartRound site i item s).foundMarker = s.foundMarker := by
  cases hf : s.foundMarker with
  | true =>
      have hp : itemContainsPosition item = true := by
        rcases Bool.or_eq_true _ _ ▸ ht with hl | hp
        · exact itemContainsPosition_of_isLanding hl
        · simpa [hf] using hp
      by_cases hl : site.isLanding item = true <;>
        simp [landStartRound, noteMarker, takeWaypoint, takeLanding, h, ha, hf, hp, hl, hidx hf]
  | false =>
      have hl : site.isLanding item = true := by simpa [hf] using ht
      simp [landStartRound, noteMarker, takeWaypoint, takeLanding, h, ha, hf, hl]

theorem landStartRound_of_passed (h : isLandStartMarker item = false)
    (ht : (site.isLanding item || (s.foundMarker && itemContainsPosition item)) = false) :
    landStartRound site i item s = s := by
  obtain ⟨hl, hp⟩ : site.isLanding item = false ∧
      (s.foundMarker && itemContainsPosition item) = false := by simpa using ht
  have hno : ¬(s.foundMarker = true ∧ s.available = false ∧ s.index < i ∧
      itemContainsPosition item = true) := by
    rintro ⟨hf, -, -, hpos⟩
    simp [hf, hpos] at hp
  simp [landStartRound, noteMarker, takeWaypoint, takeLanding, h, hl, hno]

theorem lastMarker_cons_of_marker (h : isLandStartMarker x.2 = true) :
    lastMarker (x :: items) = some ((lastMarker items).getD x) := by
  rw [lastMarker, List.filter_cons_of_pos (by simpa using h), List.getLast?_cons]
  rfl

theorem lastMarker_cons_of_not (h : isLandStartMarker x.2 = false) :
    lastMarker (x :: items) = lastMarker items := by
  rw [lastMarker, List.filter_cons_of_neg (by simpa using h)]
  rfl

theorem takenFrom_cons_of_taken
    (h : (site.isLanding x.2 || (marked && itemContainsPosition x.2)) = true) :
    takenFrom site marked (x :: items) = some x := by
  rw [takenFrom, if_pos h]

theorem takenFrom_cons_of_passed
    (h : (site.isLanding x.2 || (marked && itemContainsPosition x.2)) = false) :
    takenFrom site marked (x :: items) =
      takenFrom site (marked || isLandStartMarker x.2) items := by
  rw [takenFrom, if_neg (by simp [h])]

theorem foldl_landStartRound (items : List (ℕ × MissionItem)) (s : Search)
    (hasc : items.Pairwise fun x y => x.1 < y.1)
    (hidx : s.foundMarker = true → ∀ x ∈ items, s.index < x.1) :
    let r := items.foldl (fun s x => landStartRound site x.1 x.2 s) s
    r.available = (s.available || (takenFrom site s.foundMarker items).isSome) ∧
      r.index = indexAfter site items s ∧
      r.start = if s.available then s.start
        else ((takenFrom site s.foundMarker items).map fun x => site.position x.2).getD
          s.start := by
  induction items generalizing s with
  | nil => simp [takenFrom, indexAfter, lastMarker]
  | cons x items ih =>
      rw [List.pairwise_cons] at hasc
      have hx : s.foundMarker = true → s.index < x.1 := fun hf => hidx hf x List.mem_cons_self
      have htail : s.foundMarker = true → ∀ y ∈ items, s.index < y.1 :=
        fun hf y hy => hidx hf y (List.mem_cons_of_mem _ hy)
      rw [List.foldl_cons]
      cases hm : isLandStartMarker x.2 with
      | true =>
          have hpass : ∀ marked, (site.isLanding x.2 || (marked && itemContainsPosition x.2)) =
              false :=
            fun marked => by simp [isLanding_of_marker hm, itemContainsPosition_of_marker hm]
          have := ih (landStartRound site x.1 x.2 s) hasc.2
            (by
              rw [landStartRound_of_marker hm]
              exact fun _ y hy => hasc.1 y hy)
          rw [landStartRound_of_marker hm] at this ⊢
          rw [takenFrom_cons_of_passed (hpass _), hm, Bool.or_true]
          refine ⟨this.1, this.2.1.trans ?_, this.2.2⟩
          -- the last marker of the rest, or this one
          simp only [indexAfter, lastMarker_cons_of_marker hm, Bool.or_true, if_true]
          cases lastMarker items <;> rfl
      | false =>
          -- an item that is no marker: is a position taken already, now, or later?
          cases ha : s.available with
          | true =>
              obtain ⟨hav, hstart, hindex, hfound⟩ :=
                @landStartRound_of_available site x.1 x.2 s hm ha
              have := ih (landStartRound site x.1 x.2 s) hasc.2
                (by rw [hfound, hindex]; exact htail)
              simp only [hav, Bool.true_or, if_true, hstart] at this
              refine ⟨by simpa using this.1, this.2.1.trans ?_, by simpa using this.2.2⟩
              simp only [indexAfter, lastMarker_cons_of_not hm, hav, ha, hindex, Bool.true_or,
                if_true]
          | false =>
              cases ht : (site.isLanding x.2 || (s.foundMarker && itemContainsPosition x.2)) with
              | true =>
                  obtain ⟨hav, hstart, hindex, hfound⟩ := landStartRound_of_taken hm ha hx ht
                  have := ih (landStartRound site x.1 x.2 s) hasc.2
                    (by
                      rw [hfound, hindex]
                      intro hf
                      simpa [hf] using htail hf)
                  simp only [hav, Bool.true_or, if_true, hstart] at this
                  rw [takenFrom_cons_of_taken ht]
                  refine ⟨by simpa using this.1, this.2.1.trans ?_, by simpa using this.2.2⟩
                  simp only [indexAfter, lastMarker_cons_of_not hm, hav, ha, hindex, Bool.true_or,
                    if_true, Bool.false_or]
                  cases hf : s.foundMarker with
                  | true => rfl
                  | false =>
                      rw [hf] at ht
                      rw [takenFrom_cons_of_taken ht]
              | false =>
                  rw [landStartRound_of_passed hm ht, takenFrom_cons_of_passed ht, hm,
                    Bool.or_false]
                  have := ih s hasc.2 htail
                  rw [ha] at this
                  refine ⟨this.1, this.2.1.trans ?_, this.2.2⟩
                  simp only [indexAfter, lastMarker_cons_of_not hm]
                  cases hf : s.foundMarker with
                  | true => simp
                  | false =>
                      rw [hf] at ht
                      rw [takenFrom_cons_of_passed ht, hm]
                      rfl

theorem taken_cases (h : takenFrom site marked items = some x)
    (hasc : items.Pairwise fun x y => x.1 < y.1) :
    x ∈ items ∧ (site.isLanding x.2 = true ∨ itemContainsPosition x.2 = true ∧
      (marked = true ∨ ∃ m ∈ items, isLandStartMarker m.2 = true ∧ m.1 < x.1)) := by
  induction items generalizing marked with
  | nil => cases h
  | cons y items ih =>
      rw [List.pairwise_cons] at hasc
      rw [takenFrom] at h
      split at h
      · rename_i ht
        cases h
        refine ⟨List.mem_cons_self, ?_⟩
        rcases Bool.or_eq_true _ _ ▸ ht with hl | hp
        · exact .inl hl
        · rw [Bool.and_eq_true] at hp
          exact .inr ⟨hp.2, .inl hp.1⟩
      · obtain ⟨hmem, hwhy⟩ := ih h hasc.2
        refine ⟨List.mem_cons_of_mem _ hmem, hwhy.imp_right ?_⟩
        rintro ⟨hp, hmark | ⟨m, hm, hmarker, hlt⟩⟩
        · refine ⟨hp, ?_⟩
          rcases Bool.or_eq_true _ _ ▸ hmark with hmarked | hy
          · exact .inl hmarked
          · exact .inr ⟨y, List.mem_cons_self, hy, hasc.1 x hmem⟩
        · exact ⟨hp, .inr ⟨m, List.mem_cons_of_mem _ hm, hmarker, hlt⟩⟩

theorem no_position_before_taken (h : takenFrom site marked items = some x)
    (hasc : items.Pairwise fun x y => x.1 < y.1) {y : ℕ × MissionItem} (hy : y ∈ items)
    (hyx : y.1 < x.1)
    (hmark : marked = true ∨ ∃ m ∈ items, isLandStartMarker m.2 = true ∧ m.1 < y.1) :
    itemContainsPosition y.2 = false := by
  induction items generalizing marked with
  | nil => cases hy
  | cons z items ih =>
      rw [List.pairwise_cons] at hasc
      rw [takenFrom] at h
      split at h
      · -- nothing lies before the first item
        cases h
        rcases List.mem_cons.1 hy with rfl | hy
        · exact absurd hyx (Nat.lt_irrefl _)
        · exact absurd hyx (Nat.lt_asymm (hasc.1 y hy))
      · rename_i hpass
        rcases List.mem_cons.1 hy with rfl | hmem
        · rcases hmark with rfl | ⟨m, hm, -, hlt⟩
          · have hno : site.isLanding y.2 = false ∧ itemContainsPosition y.2 = false := by
              simpa using hpass
            exact hno.2
          · rcases List.mem_cons.1 hm with rfl | hm
            · exact absurd hlt (Nat.lt_irrefl _)
            · exact absurd hlt (Nat.lt_asymm (hasc.1 m hm))
        · refine ih h hasc.2 hmem ?_
          rcases hmark with hmarked | ⟨m, hm, hmarker, hlt⟩
          · exact .inl (by simp [hmarked])
          · rcases List.mem_cons.1 hm with rfl | hm
            · exact .inl (by simp [hmarker])
            · exact .inr ⟨m, hm, hmarker, hlt⟩

theorem mem_of_lastMarker (h : lastMarker items = some m) :
    m ∈ items ∧ isLandStartMarker m.2 = true := by
  simpa using List.mem_of_getLast? h

theorem lastMarker_ne_none (h : m ∈ items) (hm : isLandStartMarker m.2 = true) :
    lastMarker items ≠ none := by
  intro hnone
  have hmem : m ∈ items.filter fun x => isLandStartMarker x.2 := List.mem_filter.2 ⟨h, hm⟩
  rw [lastMarker, List.getLast?_eq_none_iff] at hnone
  rw [hnone] at hmem
  cases hmem

end Pass

/-! ## One landing -/

/-- The item is the first position item behind an index. -/
def Nav.FirstPosition (s : Nav) (index : ℕ) (item : MissionItem) : Prop :=
  ∃ p, index < p ∧ storedItem s p = some item ∧ itemContainsPosition item = true ∧
    ∀ q, index < q → q < p → ∀ between, storedItem s q = some between →
      itemContainsPosition between = false

/-- Index and position are of one landing: of a marker and the first position behind it, or of a
landing item. -/
def LandStart.Describes (site : Site) (s : Nav) (l : LandStart) : Prop :=
  ∃ item, storedItem s l.index = some item ∧
    ((isLandStartMarker item = true ∧
        ∃ w, s.FirstPosition l.index w ∧ l.start = site.position w) ∨
      (site.isLanding item = true ∧ l.start = site.position item))

/-- If a marker is read behind the item whose position is taken, then the first position item behind
the last marker has the same position. -/
def MarkersAgree (env : Answers) (site : Site) (s : Nav) : Prop :=
  ∀ x m, takenFrom site false (readItems env s) = some x → lastMarker (readItems env s) = some m →
    x.1 < m.1 → ∃ w, s.FirstPosition m.1 w ∧ site.position x.2 = site.position w

section Landing

variable {env : Answers} {site : Site} {s : Nav} {x m : ℕ × MissionItem}

theorem pairwise_readItems (env : Answers) (s : Nav) :
    (readItems env s).Pairwise fun x y => x.1 < y.1 :=
  pairwise_readFrom _ _ _ _ _

theorem storedItem_of_mem (h : x ∈ readItems env s) : storedItem s x.1 = some x.2 := by
  obtain ⟨hge, hlt, hstored⟩ := mem_readFrom h
  rw [storedItem, if_pos (by omega), hstored]

theorem firstPosition_taken (hx : takenFrom site false (readItems env s) = some x)
    (hm : m ∈ readItems env s) (hmarker : isLandStartMarker m.2 = true) (hlt : m.1 < x.1) :
    s.FirstPosition m.1 x.2 := by
  obtain ⟨hmem, hwhy⟩ := taken_cases hx (pairwise_readItems env s)
  have hpos : itemContainsPosition x.2 = true :=
    hwhy.elim itemContainsPosition_of_isLanding fun h => h.1
  refine ⟨x.1, hlt, storedItem_of_mem hmem, hpos, fun q hmq hqx between hbetween => ?_⟩
  have hm1 : 1 ≤ m.1 := (mem_readFrom hm).1
  obtain ⟨item, hitem⟩ := exists_mem_readFrom hmem (by omega : 1 ≤ q) (Nat.le_of_lt hqx)
  have hsame : between = item := by
    have hitem : (q, item) ∈ readItems env s := hitem
    exact Option.some.inj (hbetween.symm.trans (storedItem_of_mem hitem))
  rw [hsame]
  exact no_position_before_taken hx (pairwise_readItems env s) hitem hqx
    (.inr ⟨m, hm, hmarker, hmq⟩)

/-- The members after a call: the flag and, if a landing start was found, its index and position. -/
theorem findMissionLandStart_eq (env : Answers) (site : Site) (s : Nav) (l : LandStart) :
    (findMissionLandStart env site s l).available =
        (takenFrom site false (readItems env s)).isSome ∧
      ∀ x, takenFrom site false (readItems env s) = some x →
        (findMissionLandStart env site s l).start = site.position x.2 ∧
        (findMissionLandStart env site s l).index =
          ((lastMarker (readItems env s)).getD x).1 := by
  obtain ⟨hav, hindex, hstart⟩ := @foldl_landStartRound site (readItems env s)
    { l with available := false, foundMarker := false } (pairwise_readItems env s)
    (fun h => by cases h)
  have hrun : findMissionLandStart env site s l =
      ((readItems env s).foldl (fun s x => landStartRound site x.1 x.2 s)
        { l with available := false, foundMarker := false }).toLandStart := by
    rw [findMissionLandStart, landStartLoop_eq_foldl]
    rfl
  rw [hrun]
  refine ⟨hav, fun x hx => ⟨?_, ?_⟩⟩
  · rw [hstart]
    simp [hx]
  · rw [hindex, indexAfter]
    cases lastMarker (readItems env s) with
    | none => simp [hx]
    | some m => rfl

end Landing

/-- A call that returns true leaves the index and the position of one landing just when no marker
that is read behind the item whose position was taken leads to another position. -/
theorem land_start_describes_iff (env : Answers) (site : Site) (s : Nav) (l : LandStart) :
    ((findMissionLandStart env site s l).available = true →
        (findMissionLandStart env site s l).Describes site s) ↔ MarkersAgree env site s := by
  obtain ⟨hav, hset⟩ := findMissionLandStart_eq env site s l
  rw [hav]
  cases hx : takenFrom site false (readItems env s) with
  | none => simp [MarkersAgree, hx]
  | some x =>
      obtain ⟨hstart, hindex⟩ := hset x hx
      obtain ⟨hmem, hwhy⟩ := taken_cases hx (pairwise_readItems env s)
      simp only [Option.isSome_some, forall_const]
      cases hm : lastMarker (readItems env s) with
      | none =>
          -- without a marker, it is a landing item, at its own index
          rw [hm] at hindex
          have hland : site.isLanding x.2 = true := by
            refine hwhy.resolve_right ?_
            rintro ⟨-, hmark | ⟨m, hmread, hmarker, -⟩⟩
            · cases hmark
            · exact lastMarker_ne_none hmread hmarker hm
          refine iff_of_true ?_ fun _ m _ hsome => by cases hm.symm.trans hsome
          exact ⟨x.2, by rw [hindex]; exact storedItem_of_mem hmem, .inr ⟨hland, hstart⟩⟩
      | some m =>
          rw [hm] at hindex
          obtain ⟨hmread, hmarker⟩ := mem_of_lastMarker hm
          have hstored : storedItem s (findMissionLandStart env site s l).index = some m.2 := by
            rw [hindex]
            exact storedItem_of_mem hmread
          rcases Nat.lt_or_ge m.1 x.1 with hlt | hge
          · refine iff_of_true ⟨m.2, hstored, .inl ⟨hmarker, x.2, ?_, hstart⟩⟩ ?_
            · rw [hindex]
              exact firstPosition_taken hx hmread hmarker hlt
            · intro x' m' hx' hm' hgt
              cases hx.symm.trans hx'
              cases hm.symm.trans hm'
              exact absurd hlt (Nat.lt_asymm hgt)
          · constructor
            · rintro ⟨item, hitem, ⟨-, w, hw, hpos⟩ | ⟨hland, -⟩⟩ x' m' hx' hm' -
              · cases hx.symm.trans hx'
                cases hm.symm.trans hm'
                exact ⟨w, by rwa [hindex] at hw, hstart ▸ hpos⟩
              · -- the item at the index is a marker
                cases hstored.symm.trans hitem
                rw [isLanding_of_marker hmarker] at hland
                cases hland
            · intro hagree
              have hne : x.1 ≠ m.1 := by
                intro heq
                have hsame := storedItem_of_mem hmem
                rw [heq, storedItem_of_mem hmread] at hsame
                have hpos : itemContainsPosition x.2 = true :=
                  hwhy.elim itemContainsPosition_of_isLanding fun h => h.1
                rw [← Option.some.inj hsame, itemContainsPosition_of_marker hmarker] at hpos
                cases hpos
              obtain ⟨w, hw, hpos⟩ := hagree x m hx hm (by omega)
              exact ⟨m.2, hstored, .inl ⟨hmarker, w, by rwa [hindex], hstart.trans hpos⟩⟩

def landStartMarker : MissionItem := { navCmd := .doLandStart }

/-- Two landings, each with a marker and a waypoint behind it. -/
def twoLandings : Nav :=
  navOf [waypointAt 0, landStartMarker, waypointAt 1, landStartMarker, waypointAt 2]

/-- No VTOL, with home at altitude 0. -/
def planeSite : Site := ⟨false, 0, (· + ·)⟩

/-- The members of a new `Mission`. -/
def noLandStart : LandStart := ⟨false, 65535, ⟨0, 0, 0⟩, ⟨0, 0, 0⟩⟩

/-- The index is that of the second marker, the position is the one behind the first. -/
theorem land_start_two_landings :
    ¬((findMissionLandStart {} planeSite twoLandings noLandStart).available = true →
      (findMissionLandStart {} planeSite twoLandings noLandStart).Describes planeSite
        twoLandings) := by
  have hfound : findMissionLandStart {} planeSite twoLandings noLandStart =
      ⟨true, 3, ⟨1, 0, 0⟩, ⟨0, 0, 0⟩⟩ := by
    decide +kernel
  rw [hfound]
  intro hdescribes
  obtain ⟨item, hitem, ⟨-, w, ⟨p, hp, hstored, -, -⟩, hpos⟩ | ⟨hland, -⟩⟩ := hdescribes rfl
  · have hbound : p < 5 := by
      by_contra hge
      have hout : ¬p < twoLandings.mission.count := hge
      rw [storedItem, if_neg hout] at hstored
      cases hstored
    obtain rfl : p = 4 := by
      change 3 < p at hp
      omega
    cases hstored
    cases hpos
  · cases hitem
    cases hland

end Navigator
end DtPhm
