import DtPhm.Mission.Fence
import DtPhm.Mission.Upload

/-!
# Polygons — the areas of a fence, as the navigator finds them

`Geofence::_updateFence` walks over the stored fence items.  At a circle it notes an area and goes
on with the next item; at a polygon vertex it notes an area with the `vertex_count` of that vertex,
and goes on that many items later.  The uploader has checked every vertex alone: its `vertex_count`
is at least three.

* `walkFence` — the walk, and the areas it finds;
* `AreasFit` — the areas do not overlap, lie inside the fence, and hold items of their own kind;
* `Grouped` — the items of a fence in which every polygon is followed by its other vertices;
* `accepted_fence_fits_iff` — after every upload that is accepted, the one holds exactly for a fence
  of the other kind.
-/

namespace DtPhm
namespace Geofence

open Lib Mission

/-! ## The walk -/

/-- The part of a `PolygonInfo` that depends on the kind of the area. -/
inductive Area where
  | circle (radius : ℚ)
  | polygon (vertexCount : ℕ)

/-- `PolygonInfo` -/
structure PolygonInfo where
  datamanIndex : ℕ
  fenceType : MavCmd
  area : Area

/-- The number of items that belong to the area. -/
def PolygonInfo.size (a : PolygonInfo) : ℕ :=
  match a.area with
  | .circle _ => 1
  | .polygon vertexCount => vertexCount

def isCircle : MavCmd → Bool
  | .navFenceCircleInclusion => true
  | .navFenceCircleExclusion => true
  | _ => false

/-- The loop of `_updateFence`, from item `seq` on; `read` is `dm_read` of the fence points. -/
def walkFence (read : ℕ → Option DmData) (numItems seq : ℕ) : List PolygonInfo :=
  if seq ≤ numItems then
    match read seq with
    | some (.fencePoint p) =>
        if isCircle p.navCmd then
          ⟨seq, p.navCmd, .circle p.circleRadius⟩ :: walkFence read numItems (seq + 1)
        else if Ctx.isPolygonVertex p.navCmd then
          -- a polygon with 0 vertices is skipped, to avoid an endless loop
          if p.vertexCount.toNat = 0 then walkFence read numItems (seq + 1)
          else
            ⟨seq, p.navCmd, .polygon p.vertexCount.toNat⟩ ::
              walkFence read numItems (seq + p.vertexCount.toNat)
        else
          -- a return point, or an unhandled command
          walkFence read numItems (seq + 1)
    | _ => []
  else []
termination_by numItems + 1 - seq
decreasing_by all_goals omega

/-- `_updateFence`: the areas of the stored fence. -/
def updateFence (dm : Store) : List PolygonInfo :=
  walkFence (dm .fencePoints) (fenceCount dm) 1

/-! ## Areas that fit -/

/-- The area lies inside the fence, and all its items are of its kind. -/
structure AreaFits (read : ℕ → Option DmData) (numItems : ℕ) (a : PolygonInfo) : Prop where
  inside : 1 ≤ a.datamanIndex ∧ a.datamanIndex + a.size ≤ numItems + 1
  items : ∀ i, a.datamanIndex ≤ i → i < a.datamanIndex + a.size →
    ∃ p, read i = some (.fencePoint p) ∧ p.navCmd = a.fenceType

/-- No item belongs to two areas. -/
def Disjoint (a b : PolygonInfo) : Prop :=
  ∀ i, ¬((a.datamanIndex ≤ i ∧ i < a.datamanIndex + a.size) ∧
    (b.datamanIndex ≤ i ∧ i < b.datamanIndex + b.size))

/-- The areas are disjoint, and each of them fits. -/
def AreasFit (read : ℕ → Option DmData) (numItems : ℕ) (as : List PolygonInfo) : Prop :=
  as.Pairwise Disjoint ∧ ∀ a ∈ as, AreaFits read numItems a

/-- Every polygon vertex that the walk comes to is followed by the other vertices of its polygon. -/
inductive Grouped : List FencePoint → Prop
  | nil : Grouped []
  | single (p : FencePoint) {ps : List FencePoint} (hp : Ctx.isPolygonVertex p.navCmd = false)
      (h : Grouped ps) : Grouped (p :: ps)
  | polygon (p : FencePoint) (vs : List FencePoint) {ps : List FencePoint}
      (hp : Ctx.isPolygonVertex p.navCmd = true) (hcount : (vs.length + 1 : ℤ) = p.vertexCount)
      (hvs : ∀ v ∈ vs, v.navCmd = p.navCmd) (h : Grouped ps) : Grouped (p :: (vs ++ ps))

theorem grouped_vertex_iff {p : FencePoint} {ps : List FencePoint}
    (hp : Ctx.isPolygonVertex p.navCmd = true) (hpos : 0 < p.vertexCount) :
    Grouped (p :: ps) ↔ p.vertexCount.toNat ≤ ps.length + 1 ∧
      (∀ v ∈ ps.take (p.vertexCount.toNat - 1), v.navCmd = p.navCmd) ∧
      Grouped (ps.drop (p.vertexCount.toNat - 1)) := by
  constructor
  · intro h
    cases h with
    | single _ hno _ =>
        rw [hp] at hno
        cases hno
    | polygon _ vs _ hcount hvs hrest =>
        have hlen : p.vertexCount.toNat - 1 = vs.length := by omega
        rw [hlen, List.take_left, List.drop_left]
        refine ⟨?_, hvs, hrest⟩
        rw [List.length_append]
        omega
  · rintro ⟨hle, hvs, hrest⟩
    rw [← List.take_append_drop (p.vertexCount.toNat - 1) ps]
    refine Grouped.polygon p _ hp ?_ hvs hrest
    rw [List.length_take]
    omega

theorem grouped_single_iff {p : FencePoint} {ps : List FencePoint}
    (hp : Ctx.isPolygonVertex p.navCmd = false) : Grouped (p :: ps) ↔ Grouped ps := by
  constructor
  · intro h
    cases h with
    | single _ _ hrest => exact hrest
    | polygon _ _ hv => exact absurd (hp.symm.trans hv) (by decide)
  · exact Grouped.single p hp

variable {read : ℕ → Option DmData} {numItems : ℕ}

theorem le_of_mem_walkFence {seq : ℕ} {a : PolygonInfo} (h : a ∈ walkFence read numItems seq) :
    seq ≤ a.datamanIndex := by
  fun_induction walkFence read numItems seq with
  | case1 seq _ p _ _ ih =>
      rcases List.mem_cons.1 h with rfl | hrest
      · exact Nat.le_refl _
      · have := ih hrest
        omega
  | case2 seq _ p _ _ _ _ ih =>
      have := ih h
      omega
  | case3 seq _ p _ _ _ _ ih =>
      rcases List.mem_cons.1 h with rfl | hrest
      · exact Nat.le_refl _
      · have := ih hrest
        omega
  | case4 seq _ p _ _ _ ih =>
      have := ih h
      omega
  | case5 =>
      simp at h
  | case6 =>
      simp at h

theorem areasFit_cons {seq : ℕ} {a : PolygonInfo} (hnext : a.datamanIndex + a.size ≤ seq) :
    AreasFit read numItems (a :: walkFence read numItems seq) ↔
      AreaFits read numItems a ∧ AreasFit read numItems (walkFence read numItems seq) := by
  have hdisjoint : ∀ b ∈ walkFence read numItems seq, Disjoint a b := by
    intro b hb i hi
    have := le_of_mem_walkFence hb
    omega
  unfold AreasFit
  rw [List.pairwise_cons, List.forall_mem_cons]
  constructor
  · rintro ⟨⟨_, hpair⟩, ha, hall⟩
    exact ⟨ha, hpair, hall⟩
  · rintro ⟨ha, hpair, hall⟩
    exact ⟨⟨hdisjoint, hpair⟩, ha, hall⟩

/-! ## Grouped fences -/

/-- The stored items are these points. -/
def Holds (read : ℕ → Option DmData) (pts : List FencePoint) : Prop :=
  ∀ i p, pts[i]? = some p → read (i + 1) = some (.fencePoint p)

variable {pts : List FencePoint}

theorem isPolygonVertex_of_isCircle {cmd : MavCmd} (h : isCircle cmd = true) :
    Ctx.isPolygonVertex cmd = false := by
  cases cmd <;> first | rfl | cases h

theorem circle_fits (hread : Holds read pts) {k : ℕ} {p : FencePoint} (hget : pts[k]? = some p) :
    AreaFits read pts.length ⟨k + 1, p.navCmd, .circle p.circleRadius⟩ := by
  have hlt : k < pts.length := (List.getElem?_eq_some_iff.1 hget).1
  refine ⟨⟨by simp, ?_⟩, ?_⟩
  · show k + 1 + 1 ≤ pts.length + 1
    omega
  · show ∀ i, k + 1 ≤ i → i < k + 1 + 1 → _
    intro i hi hi'
    have hik : i = k + 1 := by omega
    exact ⟨p, hik ▸ hread k p hget, rfl⟩

/-- A polygon whose first vertex is item `k` fits exactly when its other vertices follow. -/
theorem polygon_fits_iff (hread : Holds read pts) {k : ℕ} {p : FencePoint} {ps : List FencePoint}
    (hdrop : pts.drop k = p :: ps) :
    AreaFits read pts.length ⟨k + 1, p.navCmd, .polygon p.vertexCount.toNat⟩ ↔
      p.vertexCount.toNat ≤ ps.length + 1 ∧
        ∀ v ∈ ps.take (p.vertexCount.toNat - 1), v.navCmd = p.navCmd := by
  have hlen : pts.length = k + (ps.length + 1) := by
    have := congrArg List.length hdrop
    rw [List.length_drop, List.length_cons] at this
    omega
  -- item `k + j` of the fence
  have hitem : ∀ j, pts[k + j]? = (p :: ps)[j]? := by
    intro j
    rw [← hdrop, List.getElem?_drop]
  constructor
  · rintro ⟨hinside, hitems⟩
    change 1 ≤ k + 1 ∧ k + 1 + p.vertexCount.toNat ≤ pts.length + 1 at hinside
    change ∀ i, k + 1 ≤ i → i < k + 1 + p.vertexCount.toNat → _ at hitems
    refine ⟨by omega, ?_⟩
    intro v hv
    rcases List.getElem_of_mem hv with ⟨j, hj, rfl⟩
    rw [List.length_take] at hj
    have hget : pts[k + (j + 1)]? = some ps[j] := by
      rw [hitem (j + 1), List.getElem?_cons_succ]
      exact List.getElem?_eq_getElem (by omega)
    rcases hitems (k + (j + 1) + 1) (by omega) (by omega) with ⟨q, hq, hcmd⟩
    rw [hread _ _ hget] at hq
    rw [List.getElem_take]
    cases hq
    exact hcmd
  · rintro ⟨hle, hsame⟩
    refine ⟨?_, ?_⟩
    · show 1 ≤ k + 1 ∧ k + 1 + p.vertexCount.toNat ≤ pts.length + 1
      omega
    · show ∀ i, k + 1 ≤ i → i < k + 1 + p.vertexCount.toNat → _
      intro i hi hi'
      have hsplit : i = k + (i - k - 1) + 1 := by omega
      cases hj : i - k - 1 with
      | zero =>
          refine ⟨p, ?_, rfl⟩
          rw [hsplit, hj]
          exact hread k p (hitem 0)
      | succ j =>
          have hjlt : j < ps.length := by omega
          refine ⟨ps[j], ?_, ?_⟩
          · rw [hsplit, hj]
            refine hread _ _ ?_
            rw [hitem (j + 1), List.getElem?_cons_succ]
            exact List.getElem?_eq_getElem hjlt
          · refine hsame _ (List.mem_of_getElem? (i := j) ?_)
            rw [List.getElem?_take, if_pos (by omega)]
            exact List.getElem?_eq_getElem hjlt

/-- From any item on, the areas of the walk fit exactly when the items are grouped. -/
theorem areasFit_walk_iff (hread : Holds read pts)
    (hcount : ∀ p ∈ pts, Ctx.isPolygonVertex p.navCmd = true → 0 < p.vertexCount) :
    ∀ n k, (pts.drop k).length ≤ n →
      (AreasFit read pts.length (walkFence read pts.length (k + 1)) ↔ Grouped (pts.drop k)) := by
  -- behind the last item there are no areas
  have hbehind : ∀ k, pts.drop k = [] →
      (AreasFit read pts.length (walkFence read pts.length (k + 1)) ↔ Grouped []) := by
    intro k hnil
    have hend : ¬k + 1 ≤ pts.length := by
      have := List.drop_eq_nil_iff.1 hnil
      omega
    rw [walkFence, if_neg hend]
    exact iff_of_true ⟨List.Pairwise.nil, by simp⟩ Grouped.nil
  intro n
  induction n with
  | zero =>
      intro k hk
      have hnil : pts.drop k = [] := List.eq_nil_of_length_eq_zero (by omega)
      rw [hnil]
      exact hbehind k hnil
  | succ n ih =>
      intro k hk
      cases hdrop : pts.drop k with
      | nil => exact hbehind k hdrop
      | cons p ps =>
          rw [hdrop, List.length_cons] at hk
          have hrest : ∀ j, ps.drop j = pts.drop (k + (j + 1)) := by
            intro j
            rw [← List.drop_drop, hdrop, List.drop_succ_cons]
          have hget : pts[k]? = some p := by
            calc
              pts[k]? = (pts.drop k)[0]? := by rw [List.getElem?_drop, Nat.add_zero]
              _ = some p := by rw [hdrop]; rfl
          have hlt : k + 1 ≤ pts.length := (List.getElem?_eq_some_iff.1 hget).1
          have hmem : p ∈ pts := List.mem_of_getElem? hget
          have hnext : AreasFit read pts.length (walkFence read pts.length (k + 1 + 1)) ↔
              Grouped ps := by
            have := ih (k + 1) (by rw [← hrest 0, List.drop_zero]; omega)
            rwa [← hrest 0, List.drop_zero] at this
          rw [walkFence, if_pos hlt, hread k p hget]
          dsimp only
          by_cases hcircle : isCircle p.navCmd = true
          · have hvertex := isPolygonVertex_of_isCircle hcircle
            have hfits := circle_fits hread hget
            have hcons : AreasFit read pts.length (⟨k + 1, p.navCmd, .circle p.circleRadius⟩ ::
                walkFence read pts.length (k + 1 + 1)) ↔ _ :=
                  areasFit_cons (Nat.le_refl (k + 1 + 1))
            rw [if_pos hcircle, hcons, grouped_single_iff hvertex, hnext]
            exact and_iff_right hfits
          · rw [if_neg hcircle]
            by_cases hvertex : Ctx.isPolygonVertex p.navCmd = true
            · have hpos := hcount p hmem hvertex
              have hne : ¬p.vertexCount.toNat = 0 := by omega
              have hskip : k + 1 + p.vertexCount.toNat = k + (p.vertexCount.toNat - 1 + 1) + 1 := by
                omega
              have hlater := ih (k + (p.vertexCount.toNat - 1 + 1))
                (by rw [← hrest, List.length_drop]; omega)
              have hcons : AreasFit read pts.length
                  (⟨k + 1, p.navCmd, .polygon p.vertexCount.toNat⟩ ::
                    walkFence read pts.length (k + 1 + p.vertexCount.toNat)) ↔ _ :=
                areasFit_cons (Nat.le_refl (k + 1 + p.vertexCount.toNat))
              rw [if_pos hvertex, if_neg hne, hcons, polygon_fits_iff hread hdrop,
                grouped_vertex_iff hvertex hpos, hskip, hlater, hrest, and_assoc]
            · rw [if_neg hvertex, grouped_single_iff (by simpa using hvertex), hnext]

/-! ## Accepted uploads -/

/-- The entries are fence points, and each vertex passed the check of the uploader. -/
def PointsChecked (ds : List (Option DmData)) (pts : List FencePoint) : Prop :=
  ds = pts.map (fun p => some (.fencePoint p)) ∧
    ∀ p ∈ pts, Ctx.isPolygonVertex p.navCmd = true → 3 ≤ p.vertexCount

theorem pointsChecked_snoc {ds : List (Option DmData)} {item : MissionItem}
    (h : PointsChecked ds pts) (hc : itemChecked .fence item = true) :
    PointsChecked (ds ++ [some (.fencePoint (Ctx.fencePointOf item))])
      (pts ++ [Ctx.fencePointOf item]) := by
  refine ⟨by rw [h.1, List.map_append]; rfl, ?_⟩
  intro p hp hvertex
  rcases List.mem_append.1 hp with hold | hnew
  · exact h.2 p hold hvertex
  · rw [List.mem_singleton.1 hnew] at hvertex ⊢
    have hvertex' : Ctx.isPolygonVertex item.navCmd = true := hvertex
    have hthree : ¬item.vertexCount < 3 := by
      simpa [itemChecked, hvertex'] using hc
    simp only [Ctx.fencePointOf, hvertex', if_true]
    omega

theorem updateFence_fits_iff {dm : Store} (h : PointsChecked (storedFence dm) pts) :
    AreasFit (dm .fencePoints) (fenceCount dm) (updateFence dm) ↔ Grouped pts := by
  have hlen : fenceCount dm = pts.length := by
    have := congrArg List.length h.1
    simpa [storedFence, fenceEntries, entries] using this
  have hread : Holds (dm .fencePoints) pts := by
    intro i p hp
    have hi : i < pts.length := (List.getElem?_eq_some_iff.1 hp).1
    have hentry : (storedFence dm)[i]? = some (some (.fencePoint p)) := by
      rw [h.1, List.getElem?_map, hp, Option.map_some]
    simpa [storedFence, fenceEntries, entries, hlen, hi] using hentry
  have hcount : ∀ p ∈ pts, Ctx.isPolygonVertex p.navCmd = true → 0 < p.vertexCount := by
    intro p hp hvertex
    have := h.2 p hp hvertex
    omega
  have hwalk := areasFit_walk_iff hread hcount pts.length 0 (by simp)
  rw [updateFence, hlen]
  exact hwalk

/-- What the entries of a fence upload in progress are. -/
structure PointsInv (st : Statics) (x : Transfer) (h : FenceHistory) : Prop where
  known : x.state = .getlist → Ctx.knownType x.missionType = true
  seq : x.state = .getlist → x.seq < x.count ∧ x.count < 65536
  points : x.UploadsFence → fenceEntries st.dm x.seq = h.points
  checked : x.UploadsFence → ∃ pts, PointsChecked h.points pts

variable {cfg : Config} {sh : Shared} {m : Manager} {e : Event} {st' : Statics} {x' : Transfer}
  {h : FenceHistory} {ws : List DmWrite} {as : List MavMissionResult}

theorem PointsInv.leave (hx : x'.state ≠ .getlist) : PointsInv st' x' h where
  known := fun h => absurd h hx
  seq := fun h => absurd h hx
  points := fun h => absurd h.1 hx
  checked := fun h => absurd h.1 hx

theorem PointsInv.quiet (hinv : PointsInv sh.statics m.transfer h) :
    PointsInv sh.statics m.transfer (h.after m.transfer m.transfer [] as) := by
  refine ⟨hinv.known, hinv.seq, ?_, ?_⟩
  · intro hu
    rw [FenceHistory.after_same]
    exact hinv.points hu
  · intro hu
    rw [FenceHistory.after_same]
    exact hinv.checked hu

theorem PointsInv.accept {msg : Message} {int : Bool} {wp : MavlinkMissionItem} {item : MissionItem}
    (hinv : PointsInv sh.statics m.transfer h) (hi : Expects cfg m e msg int wp)
    (hst : Stores cfg m e.env int wp item) (hn : (m.transferSeq + 1) % 65536 ≠ m.transferCount) :
    PointsInv (sh.statics.write (itemWrite e.env m item))
      { m.transfer with seq := (m.transferSeq + 1) % 65536 }
      (h.after m.transfer { m.transfer with seq := (m.transferSeq + 1) % 65536 }
        [itemWrite e.env m item] as) := by
  have hseq : m.transferSeq < m.transferCount ∧ m.transferCount < 65536 := hinv.seq hi.state
  have hmod : (m.transferSeq + 1) % 65536 = m.transferSeq + 1 := Nat.mod_eq_of_lt (by omega)
  rw [hmod] at hn ⊢
  refine ⟨fun _ => hst.known, fun _ => ⟨?_, hseq.2⟩, ?_, ?_⟩
  · show m.transferSeq + 1 < m.transferCount
    omega
  · intro hu
    have ht : m.missionType = .fence := hu.2
    exact fenceEntries_itemWrite (hinv.points ⟨hi.state, ht⟩) ht hi hst
  · intro hu
    have ht : m.missionType = .fence := hu.2
    rcases hinv.checked ⟨hi.state, ht⟩ with ⟨pts, hpts⟩
    refine ⟨pts ++ [Ctx.fencePointOf item], ?_⟩
    show PointsChecked (h.pointsAfter _ _ _) _
    rw [FenceHistory.pointsAfter_itemWrite hi.state ht hst.ok rfl]
    exact pointsChecked_snoc hpts (ht ▸ hst.checked)

theorem PointsInv.move (hinv : PointsInv sh.statics m.transfer h)
    (hmv : Move cfg sh m e st' x' ws) :
    PointsInv st' x' (h.after m.transfer x' ws as) := by
  have hne : WpmState.idle ≠ .getlist := by decide
  have hsend : WpmState.sendlist ≠ .getlist := by decide
  cases hmv with
  | quiet => exact hinv.quiet
  | retype t hs => exact PointsInv.leave (by show m.state ≠ _; rw [hs]; exact hne)
  | setCurrent hs hw => exact PointsInv.leave (by show m.state ≠ _; rw [hs]; exact hne)
  | clear t hs hc hw => exact PointsInv.leave (by show m.state ≠ _; rw [hs]; exact hne)
  | @begin msg n t y he hp ha hs hf h0 hn hx =>
      subst hx
      have hempty : h.pointsAfter m.transfer ⟨.getlist, t, otherStorage sh.datamanId, n, 0,
          msg.sysid,
          msg.compid, decide (t = .fence ∧ e.env.lockOk = true) || m.geofenceLocked⟩ [] = [] :=
        if_pos ⟨hs, rfl⟩
      refine ⟨fun _ => knownType_of_maxCount_pos (h0.trans_le hn),
        fun _ => ⟨h0, (hn.trans_lt (maxCount_lt _ _)).trans (by decide)⟩, ?_, ?_⟩
      · intro _
        exact hempty.symm
      · intro _
        exact ⟨[], hempty, by simp⟩
  | timeout he ht => exact PointsInv.leave hne
  | cancel he hp ha hq hs => exact PointsInv.leave hne
  | downloadNext seq hs => exact PointsInv.leave (by show m.state ≠ _; rw [hs]; exact hsend)
  | downloadEnd seq hs => exact PointsInv.leave hne
  | download n nf nr he hp ha hs hx =>
      subst hx
      exact PointsInv.leave hsend
  | item he hp hs hk hi =>
      cases hi with
      | ignore has => exact hinv.quiet
      | refuse hi hf has => exact PointsInv.leave hne
      | accept hi hst hn => exact hinv.accept hi hst hn
      | complete hi hst hn hw => exact PointsInv.leave hne
  | stray hs ht hx => exact absurd ((hinv.known hs).symm.trans ht) (by decide)

/-! ## Whole runs -/

/-- The areas that the navigator finds in the store fit. -/
def FenceFits (dm : Store) : Prop := AreasFit (dm .fencePoints) (fenceCount dm) (updateFence dm)

/-- What the navigator finds after an upload of a fence that was accepted: with items, the areas fit
exactly when the points of the upload are grouped; without, when the number of items was written, or
the areas fitted before. -/
structure AcceptedFenceFits (cfg : Config) (q : (Shared × Manager) × FenceHistory) (e : Event) :
    Prop where
  items : e.item?.isSome → q.1.2.state = .getlist → q.1.2.missionType = .fence →
    .accepted ∈ (run cfg q.1.1 q.1.2 e).acks →
      ∃ pts, PointsChecked (q.2.record cfg q.1 e).points pts ∧
        storedFence (stepOne cfg q.1 e).1.dm = (q.2.record cfg q.1 e).points ∧
          (FenceFits (stepOne cfg q.1 e).1.dm ↔ Grouped pts)
  empty : ∀ {msg : Message}, e.call = .handleMessage msg → msg.payload = .missionCount 0 .fence →
    q.1.2.state = .idle → .accepted ∈ (run cfg q.1.1 q.1.2 e).acks →
      (FenceFits (stepOne cfg q.1 e).1.dm ↔
        e.env.writeOk .fencePoints 0 = true ∨ FenceFits q.1.1.dm)

theorem fenceFits_of_fenceCount_eq_zero {dm : Store} (h0 : fenceCount dm = 0) : FenceFits dm := by
  have hnone : updateFence dm = [] := by
    rw [updateFence, h0, walkFence, if_neg (by decide)]
  rw [FenceFits, hnone]
  exact ⟨List.Pairwise.nil, by simp⟩

/-- The upload is accepted with its last item, and then the points are those it has sent. -/
theorem PointsInv.accepted {msg : Message} {int : Bool} {wp : MavlinkMissionItem}
    (hinv : PointsInv sh.statics m.transfer h) (hs : m.state = .getlist)
    (ht : m.missionType = .fence) (hmv : ItemMove cfg sh m e msg int wp st' x' ws as)
    (ha : .accepted ∈ as) :
    ∃ pts, PointsChecked (h.pointsAfter m.transfer x' ws) pts ∧
      storedFence st'.dm = h.pointsAfter m.transfer x' ws := by
  cases hmv with
  | ignore has => exact absurd ha has
  | refuse hi hf has => exact absurd ha has
  | accept hi hst hn => cases ha
  | @complete item w hi hst hn hw =>
      have hb : w.ok = true := by
        by_contra hno
        rw [if_neg hno] at ha
        exact absurd ha (by decide)
      have hseq : m.transferSeq < m.transferCount ∧ m.transferCount < 65536 := hinv.seq hs
      rw [ht] at hw ⊢
      have hcountWrite : w.fencePoint? = none := by
        simp [DmWrite.fencePoint?, hw.1]
      rcases hinv.checked ⟨hs, ht⟩ with ⟨pts, hpts⟩
      refine ⟨pts ++ [Ctx.fencePointOf item], ?_, ?_⟩
      · rw [FenceHistory.pointsAfter_itemWrite hs ht hst.ok (by simp [hcountWrite])]
        exact pointsChecked_snoc hpts (ht ▸ hst.checked)
      · exact storedFence_complete (hinv.points ⟨hs, ht⟩) (by omega) ht hi hst hw hb

/-- An empty list was accepted: its number of items was written, or nothing has changed. -/
theorem emptied_fits_iff {msg : Message} (he : e.call = .handleMessage msg)
    (hp : msg.payload = .missionCount 0 .fence) (hs : m.state = .idle)
    (ha : .accepted ∈ (run cfg sh m e).acks) :
    FenceFits (run cfg sh m e).sh.dm ↔
      e.env.writeOk .fencePoints 0 = true ∨ FenceFits sh.dm := by
  simp only [run, he, Ctx.handleMessage, hp, Ctx.handleMissionCount, hs, Ctx.touchRecv] at ha ⊢
  split at ha
  case isFalse => cases ha
  rename_i hcheck
  rw [if_pos hcheck]
  split at ha
  case isTrue =>
    rw [Ctx.acks_ackPartner] at ha
    exact absurd ha (by simp [Ctx.acks])
  rename_i hfree
  rw [if_neg hfree, if_neg (Nat.not_lt_zero _), if_pos trivial]
  -- what is left is `update_geofence_count(0)`
  generalize hc : Ctx.setInProgress _ true = c
  have hdm : c.sh.dm = sh.dm := by rw [← hc]; rfl
  have htype : c.m.missionType = .fence := by rw [← hc]; rfl
  show FenceFits (c.clearList e.env).sh.dm ↔ _
  rw [Ctx.clearList, htype]
  show FenceFits (c.updateGeofenceCount e.env 0).1.sh.statics.dm ↔ _
  rcases (updateGeofenceCount_updates e.env c .offboard0 0).written with ⟨w, hw, -, -, hst⟩
  rcases hw with ⟨hindex, hok, hitem, counter, hdata⟩
  rw [hitem] at hok
  rw [hst, ← hok]
  cases hb : w.ok with
  | true =>
      refine iff_of_true (fenceFits_of_fenceCount_eq_zero ?_) (Or.inl rfl)
      simp [Statics.setCount, hb, Statics.write, hitem, hindex, hdata, fenceCount]
  | false =>
      have hsame : c.sh.statics.setCount .fence .offboard0 0 w = c.sh.statics := by
        simp [Statics.setCount, hb]
      rw [hsame]
      show FenceFits c.sh.dm ↔ _
      rw [hdm]
      simp

theorem PointsInv.step {q : (Shared × Manager) × FenceHistory} {e : Event}
    (hinv : PointsInv q.1.1.statics q.1.2.transfer q.2) :
    PointsInv (historyStep (stepOne cfg) (FenceHistory.record cfg) q e).1.1.statics
      (historyStep (stepOne cfg) (FenceHistory.record cfg) q e).1.2.transfer
      (historyStep (stepOne cfg) (FenceHistory.record cfg) q e).2 :=
  hinv.move (run_move cfg q.1.1 q.1.2 e)

theorem PointsInv.acceptedFenceFits {q : (Shared × Manager) × FenceHistory} {e : Event}
    (hinv : PointsInv q.1.1.statics q.1.2.transfer q.2) : AcceptedFenceFits cfg q e where
  items := by
    intro hitem hs ht ha
    rcases Option.isSome_iff_exists.mp hitem with ⟨r, hr⟩
    unfold Event.item? at hr
    split at hr
    case h_2 => cases hr
    rename_i msg he
    rcases Option.map_eq_some_iff.mp hr with ⟨⟨int, wp⟩, hp, -⟩
    rcases hinv.accepted hs ht (run_itemMove cfg q.1.1 q.1.2 e he hp hs (hinv.known hs)) ha with
      ⟨pts, hpts, hstored⟩
    refine ⟨pts, hpts, hstored, ?_⟩
    exact updateFence_fits_iff (hstored ▸ hpts)
  empty := fun he hp hs ha => emptied_fits_iff he hp hs ha

/-- After every upload of a fence that is accepted, the areas that the navigator finds are disjoint,
lie inside the fence and hold vertices of their own kind exactly when the points that were sent are
grouped: no polygon is cut short by the end of the list or by an item of another kind. -/
theorem accepted_fence_fits_iff (cfg : Config) (env : Env) (dm : Store) (es : List Event) :
    AllSteps (historyStep (stepOne cfg) (FenceHistory.record cfg)) (AcceptedFenceFits cfg)
      (initOne env dm, FenceHistory.init (initOne env dm)) es := by
  have hidle : WpmState.idle ≠ .getlist := by decide
  have hinit : PointsInv (initOne env dm).1.statics (initOne env dm).2.transfer
      (FenceHistory.init (initOne env dm)) := PointsInv.leave hidle
  have hstep : ∀ (q : (Shared × Manager) × FenceHistory) (e : Event),
      PointsInv q.1.1.statics q.1.2.transfer q.2 → True →
      PointsInv (historyStep (stepOne cfg) (FenceHistory.record cfg) q e).1.1.statics
        (historyStep (stepOne cfg) (FenceHistory.record cfg) q e).1.2.transfer
        (historyStep (stepOne cfg) (FenceHistory.record cfg) q e).2 :=
    fun q e hinv _ => hinv.step
  have hfits : ∀ (q : (Shared × Manager) × FenceHistory) (e : Event),
      PointsInv q.1.1.statics q.1.2.transfer q.2 → True → AcceptedFenceFits cfg q e :=
    fun q e hinv _ => hinv.acceptedFenceFits
  exact allSteps_of_invariant hstep hfits hinit (allSteps_true es)

/-- A vertex of a polygon with five vertices, as a MISSION_ITEM carries it. -/
def vertexOfFive : MavlinkMissionItem where
  command := .navFencePolygonVertexInclusion
  frame := .global
  param1 := 5
  x := .float 47
  y := .float 8
  seq := 0
  missionType := .fence

/-- The upload of a fence of one item has begun. -/
def oneItemAnnounced : Shared × Manager :=
  exec (stepOne vehicle) (initOne {} fun _ _ => none)
    [arrives 1 (toVehicle 255 (.missionCount 1 .fence))]

/-- The fence is one vertex of a polygon of five.  It is accepted, and the polygon that the
navigator finds in it reaches over its end. -/
theorem cut_polygon_is_accepted :
    .accepted ∈ (run vehicle oneItemAnnounced.1 oneItemAnnounced.2
        (arrives 2 (toVehicle 255 (.missionItem vertexOfFive)))).acks ∧
      ¬ FenceFits (stepOne vehicle oneItemAnnounced
        (arrives 2 (toVehicle 255 (.missionItem vertexOfFive)))).1.dm := by
  refine ⟨by decide +kernel, ?_⟩
  generalize hdm : (stepOne vehicle oneItemAnnounced _).1.dm = dm
  have hcount : fenceCount dm = 1 := by
    rw [← hdm]
    decide +kernel
  have hread : dm .fencePoints 1 = some (.fencePoint
      ⟨47, 8, 0, 5, 0, .navFencePolygonVertexInclusion, .global⟩) := by
    rw [← hdm]
    decide +kernel
  have hwalk : ⟨1, .navFencePolygonVertexInclusion, .polygon 5⟩ ∈ updateFence dm := by
    rw [updateFence, hcount, walkFence, if_pos (Nat.le_refl 1), hread]
    simp [isCircle, Ctx.isPolygonVertex]
  intro hfits
  have hinside := (hfits.2 _ hwalk).inside.2
  rw [hcount] at hinside
  exact absurd hinside (by decide)

end Geofence
end DtPhm
