import Mathlib.Data.Int.Basic
import Mathlib.Data.List.Perm.Subperm
import DtPhm.Lib.Dict

/-!
# Row — the rows of the real-time recorder

`_sample_once` makes one row for each vehicle out of three sources: the columns of the recorder
itself, those of the metadata provider, and the flattened payload of the vehicle.  They are merged
with `update`, so that a later column takes the place of an earlier one of the same name.

* `Value` — a payload value: a scalar, a mapping or a sequence, nested at will;
* `flattenPayload`, `sampleRow` — the columns of a payload, and the row;
* `Row.Keeps` — what a row should keep of its sources;
* `keeps_iff_separate` — the condition on the names and the nesting under which it does.
-/

namespace DtPhm
namespace Recording

open Lib

/-! ## Values -/

/-- A value without parts. -/
inductive Scalar where
  | none
  | bool (b : Bool)
  | int (n : ℤ)
  | float (bits : UInt64)
  | str (s : String)
  deriving DecidableEq, Repr

/-- A key of a nested mapping. -/
inductive Key where
  | str (s : String)
  | int (n : ℤ)
  deriving DecidableEq, Repr

/-- The key inside an f-string. -/
def Key.format : Key → String
  | .str s => s
  | .int n => toString n

inductive Value where
  | leaf (a : Scalar)
  | mapping (entries : List (Key × Value))
  | sequence (items : List Value)

def Value.isLeaf : Value → Bool
  | .leaf _ => true
  | _ => false

mutual

/-- The scalars at the leaves of a value, at any depth. -/
def Value.leaves : Value → List Scalar
  | .leaf a => [a]
  | .mapping entries => leavesOfEntries entries
  | .sequence items => leavesOfItems items

def leavesOfEntries : List (Key × Value) → List Scalar
  | [] => []
  | (_, value) :: entries => value.leaves ++ leavesOfEntries entries

def leavesOfItems : List Value → List Scalar
  | [] => []
  | value :: items => value.leaves ++ leavesOfItems items

end

/-- A column and its value. -/
abbrev Cell := String × Value

/-- The leaves of a payload. -/
def payloadLeaves (payload : List Cell) : List Scalar := payload.flatMap fun cell => cell.2.leaves

/-! ## Rows -/

/-- The columns of one entry of the payload: one level of nesting becomes part of the name. -/
def flattenEntry (entry : Cell) : List Cell :=
  match entry.2 with
  | .mapping entries => entries.map fun sub => (entry.1 ++ "_" ++ sub.1.format, sub.2)
  | .sequence items => items.zipIdx.map fun item => (entry.1 ++ "_" ++ toString item.2, item.1)
  | .leaf a => [(entry.1, .leaf a)]

/-- The assignments of `_flatten_payload`, in order. -/
def flattenCells (payload : List Cell) : List Cell := payload.flatMap flattenEntry

def flattenPayload (payload : List Cell) : List Cell := Dict.update [] (flattenCells payload)

/-- What the recorder knows about a sample. -/
structure Stamp where
  sampleIndex : ℕ
  wallTime : String
  elapsed : UInt64

def ownColumns (stamp : Stamp) (vehicleId : String) : List Cell :=
  [("sample_index", .leaf (.int stamp.sampleIndex)),
   ("wall_time", .leaf (.str stamp.wallTime)),
   ("elapsed_s", .leaf (.float stamp.elapsed)),
   ("vehicle_id", .leaf (.str vehicleId))]

/-- What one vehicle and the metadata provider, if there is one, give for a sample; each may
raise. -/
structure Reading where
  payload : Except String (List Cell)
  metadata : Option (Except String (List Cell))

/-- `record_snapshot`, or the text of its exception. -/
def Reading.payloadCells (reading : Reading) : List Cell :=
  match reading.payload with
  | .ok payload => payload
  | .error exc => [("record_error", .leaf (.str exc))]

def Reading.metadataCells (reading : Reading) : List Cell :=
  match reading.metadata with
  | none => []
  | some (.ok metadata) => metadata
  | some (.error exc) => [("metadata_error", .leaf (.str exc))]

/-- The row that `_sample_once` appends for a vehicle. -/
def sampleRow (stamp : Stamp) (vehicleId : String) (reading : Reading) : List Cell :=
  let row := ownColumns stamp vehicleId
  let row := Dict.update row reading.metadataCells
  Dict.update row (flattenPayload reading.payloadCells)

/-! ## What a row keeps -/

/-- The columns `fixed` are as they were, and every leaf has a column of its own. -/
structure Keeps (row fixed : List Cell) (leaves : List Scalar) : Prop where
  kept : ∀ cell ∈ fixed, row.lookup cell.1 = some cell.2
  columns : ∃ columns : List String, columns.Nodup ∧ (∀ c ∈ columns, c ∉ fixed.map Prod.fst) ∧
    List.Forall₂ (fun c a => row.lookup c = some (.leaf a)) columns leaves

/-- No value has leaves below the first level, no leaf's column is written again or is one of the
fixed ones, and what is written to a fixed column is what stands there. -/
structure Separate (fixed cells : List Cell) : Prop where
  shallow : ∀ cell ∈ cells, cell.2.isLeaf = false → cell.2.leaves = []
  later : cells.Pairwise fun cell cell' => cell.2.isLeaf = true → cell.1 ≠ cell'.1
  reserved : ∀ cell ∈ cells, cell.2.isLeaf = true → cell.1 ∉ fixed.map Prod.fst
  agree : ∀ cell ∈ fixed, ∀ cell' ∈ fixed, cell.1 = cell'.1 → cell.2 = cell'.2
  harmless : ∀ cell ∈ fixed, ∀ value, lastLookup cells cell.1 = some value → value = cell.2

/-! ## The columns of a row -/

theorem lookup_sampleRow (stamp : Stamp) (vehicleId : String) (reading : Reading) (c : String) :
    (sampleRow stamp vehicleId reading).lookup c =
      (lastLookup (flattenCells reading.payloadCells) c).or
        (lastLookup (ownColumns stamp vehicleId ++ reading.metadataCells) c) := by
  have hflat : lastLookup (flattenPayload reading.payloadCells) c =
      lastLookup (flattenCells reading.payloadCells) c := by
    have hnodup : ((flattenPayload reading.payloadCells).map Prod.fst).Nodup := by
      apply Dict.nodup_update
      simp
    rw [lastLookup_eq_lookup hnodup, flattenPayload, Dict.lookup_update]
    simp
  have hown : lastLookup (ownColumns stamp vehicleId) c =
      (ownColumns stamp vehicleId).lookup c := by
    apply lastLookup_eq_lookup
    simp [ownColumns]
  unfold sampleRow
  rw [Dict.lookup_update, Dict.lookup_update, hflat, lastLookup_append, hown]

theorem leavesOfItems_eq (items : List Value) :
    leavesOfItems items = items.flatMap Value.leaves := by
  induction items with
  | nil => rfl
  | cons value items ih => rw [leavesOfItems, ih, List.flatMap_cons]

theorem leavesOfEntries_eq (entries : List (Key × Value)) :
    leavesOfEntries entries = entries.flatMap fun entry => entry.2.leaves := by
  induction entries with
  | nil => rfl
  | cons entry entries ih => rw [leavesOfEntries, ih, List.flatMap_cons]

/-- Flattening keeps the leaves and their order; what is deeper stays inside a cell. -/
theorem leaves_flattenEntry (entry : Cell) :
    ((flattenEntry entry).flatMap fun cell => cell.2.leaves) = entry.2.leaves := by
  rcases entry with ⟨key, value⟩
  cases value with
  | leaf a =>
      simp [flattenEntry]
  | mapping entries =>
      simp [flattenEntry, List.flatMap_map, Value.leaves, leavesOfEntries_eq]
  | sequence items =>
      calc
        ((flattenEntry (key, .sequence items)).flatMap fun cell => cell.2.leaves)
            = items.zipIdx.flatMap fun item => item.1.leaves := by
              simp [flattenEntry, List.flatMap_map]
        _ = (items.zipIdx.map Prod.fst).flatMap Value.leaves := by
              rw [List.flatMap_map]
        _ = (Value.sequence items).leaves := by
              rw [List.zipIdx_map_fst, Value.leaves, leavesOfItems_eq]

theorem leaves_flattenCells (payload : List Cell) :
    ((flattenCells payload).flatMap fun cell => cell.2.leaves) = payloadLeaves payload := by
  unfold flattenCells payloadLeaves
  rw [List.flatMap_assoc]
  congr 1
  funext entry
  exact leaves_flattenEntry entry

/-! ## Counting columns -/

/-- The cells that hold a leaf. -/
def leafCells (cells : List Cell) : List Cell := cells.filter fun cell => cell.2.isLeaf

/-- There are at least as many leaves as cells that hold one, and more of them if a leaf is
deeper. -/
theorem length_leafCells (cells : List Cell) :
    (leafCells cells).length ≤ (cells.flatMap fun cell => cell.2.leaves).length ∧
      ((cells.flatMap fun cell => cell.2.leaves).length ≤ (leafCells cells).length →
        ∀ cell ∈ cells, cell.2.isLeaf = false → cell.2.leaves = []) := by
  induction cells with
  | nil =>
      simp [leafCells]
  | cons cell cells ih =>
      rcases ih with ⟨hle, hshallow⟩
      rcases cell with ⟨key, value⟩
      cases hleaf : value.isLeaf with
      | true =>
          have hone : value.leaves.length = 1 := by
            cases value <;> simp_all [Value.isLeaf, Value.leaves]
          simp only [leafCells, List.filter_cons, hleaf, if_true, List.length_cons,
            List.flatMap_cons, List.length_append, hone] at hle hshallow ⊢
          refine ⟨by omega, ?_⟩
          intro hlen cell' hcell' hnot
          rcases List.mem_cons.1 hcell' with rfl | hrest
          · simp [hleaf] at hnot
          · exact hshallow (by omega) cell' hrest hnot
      | false =>
          simp only [leafCells, List.filter_cons, hleaf, Bool.false_eq_true, if_false,
            List.flatMap_cons, List.length_append] at hle hshallow ⊢
          refine ⟨by omega, ?_⟩
          intro hlen cell' hcell' hnot
          rcases List.mem_cons.1 hcell' with rfl | hrest
          · exact List.eq_nil_of_length_eq_zero (by dsimp only; omega)
          · exact hshallow (by omega) cell' hrest hnot

theorem isLeaf_iff {value : Value} : value.isLeaf = true ↔ ∃ a, value = .leaf a := by
  cases value <;> simp [Value.isLeaf]

/-- A column that is written last by a leaf, and by no other leaf, is written last by that leaf. -/
theorem pairwise_of_nodup {cells : List Cell} (hnodup : ((leafCells cells).map Prod.fst).Nodup)
    (hlast : ∀ cell ∈ cells, cell.2.isLeaf = true → ∃ a, lastLookup cells cell.1 = some (.leaf a)) :
    cells.Pairwise fun cell cell' => cell.2.isLeaf = true → cell.1 ≠ cell'.1 := by
  induction cells with
  | nil =>
      exact List.Pairwise.nil
  | cons e cells ih =>
      -- a column that comes again is decided by the cells that follow
      have htail : ∀ cell ∈ cells, lastLookup (e :: cells) cell.1 = lastLookup cells cell.1 := by
        intro cell hcell
        rcases lastLookup_isSome (show (cell.1, cell.2) ∈ cells from hcell) with ⟨v, hv⟩
        rw [← List.singleton_append, lastLookup_append, hv, Option.some_or]
      refine List.Pairwise.cons ?_ (ih ?_ ?_)
      · intro cell hcell hleaf heq
        rcases hlast e (by simp) hleaf with ⟨a, ha⟩
        rw [heq, htail cell hcell] at ha
        have hmem : e.1 ∈ (leafCells cells).map Prod.fst := by
          rw [heq]
          exact List.mem_map.2 ⟨_, List.mem_filter.2 ⟨mem_of_lastLookup ha, rfl⟩, rfl⟩
        simp only [leafCells, List.filter_cons, hleaf, if_true, List.map_cons,
          List.nodup_cons] at hnodup
        exact hnodup.1 hmem
      · refine List.Nodup.sublist ?_ hnodup
        exact ((List.sublist_cons_self e cells).filter _).map _
      · intro cell hcell hleaf
        rcases hlast cell (List.mem_cons_of_mem _ hcell) hleaf with ⟨a, ha⟩
        exact ⟨a, htail cell hcell ▸ ha⟩

theorem lookup_of_pairwise {cells : List Cell}
    (h : cells.Pairwise fun cell cell' => cell.2.isLeaf = true → cell.1 ≠ cell'.1) {cell : Cell}
    (hmem : cell ∈ cells) (hleaf : cell.2.isLeaf = true) :
    lastLookup cells cell.1 = some cell.2 := by
  rcases List.append_of_mem hmem with ⟨l₁, l₂, rfl⟩
  refine lastLookup_of_not_mem_later ?_
  intro hagain
  rcases List.mem_map.1 hagain with ⟨cell', hcell', heq⟩
  have hpair := (List.pairwise_append.1 h).2.1
  exact (List.pairwise_cons.1 hpair).1 cell' hcell' hleaf heq.symm

/-! ## When a row keeps everything -/

section Row

variable {row fixed cells : List Cell}
  (hrow : ∀ c, row.lookup c = (lastLookup cells c).or (lastLookup fixed c))

include hrow

/-- If every leaf has a column of its own, then the columns of the leaves are these: there are not
enough others. -/
theorem columns_perm {columns : List String} (hnodup : columns.Nodup)
    (hfree : ∀ c ∈ columns, c ∉ fixed.map Prod.fst)
    (hcells : List.Forall₂ (fun c a => row.lookup c = some (.leaf a)) columns
      (cells.flatMap fun cell => cell.2.leaves)) :
    (∀ c ∈ columns, ∃ a, lastLookup cells c = some (.leaf a)) ∧
      columns.Perm ((leafCells cells).map Prod.fst) ∧
      ∀ cell ∈ cells, cell.2.isLeaf = false → cell.2.leaves = [] := by
  have hlast : ∀ c ∈ columns, ∃ a, lastLookup cells c = some (.leaf a) := by
    intro c hc
    rcases List.getElem_of_mem hc with ⟨i, hi, rfl⟩
    have hi' : i < (cells.flatMap fun cell => cell.2.leaves).length := hcells.length_eq ▸ hi
    have hvalue := hcells.get hi hi'
    rw [List.get_eq_getElem, hrow] at hvalue
    have hnone : lastLookup fixed columns[i] = none := by
      by_contra hsome
      rcases Option.ne_none_iff_exists'.1 hsome with ⟨v, hv⟩
      exact hfree _ hc (List.mem_map.2 ⟨_, mem_of_lastLookup hv, rfl⟩)
    rw [hnone, Option.or_none] at hvalue
    exact ⟨_, hvalue⟩
  have hsub : columns ⊆ (leafCells cells).map Prod.fst := by
    intro c hc
    rcases hlast c hc with ⟨a, ha⟩
    exact List.mem_map.2 ⟨_, List.mem_filter.2 ⟨mem_of_lastLookup ha, rfl⟩, rfl⟩
  have hsubperm := hnodup.subperm hsub
  rcases length_leafCells cells with ⟨hle, hshallow⟩
  have hlength : (cells.flatMap fun cell => cell.2.leaves).length ≤ (leafCells cells).length := by
    rw [← hcells.length_eq]
    simpa using hsubperm.length_le
  refine ⟨hlast, hsubperm.perm_of_length_le ?_, hshallow hlength⟩
  rw [List.length_map, hcells.length_eq]
  exact hle

theorem forall₂_columns {l : List Cell}
    (hshallow : ∀ cell ∈ l, cell.2.isLeaf = false → cell.2.leaves = [])
    (hlast : ∀ cell ∈ l, cell.2.isLeaf = true → lastLookup cells cell.1 = some cell.2) :
    List.Forall₂ (fun c a => row.lookup c = some (.leaf a)) ((leafCells l).map Prod.fst)
      (l.flatMap fun cell => cell.2.leaves) := by
  induction l with
  | nil =>
      exact List.Forall₂.nil
  | cons cell l ih =>
      have htail := ih (fun cell' h => hshallow cell' (List.mem_cons_of_mem _ h))
        (fun cell' h => hlast cell' (List.mem_cons_of_mem _ h))
      rw [List.flatMap_cons]
      cases hleaf : cell.2.isLeaf with
      | true =>
          rcases isLeaf_iff.1 hleaf with ⟨a, ha⟩
          have hvalue : row.lookup cell.1 = some (.leaf a) := by
            rw [hrow, hlast cell (by simp) hleaf, ha, Option.some_or]
          have hcons : leafCells (cell :: l) = cell :: leafCells l := List.filter_cons_of_pos hleaf
          rw [hcons, ha, Value.leaves, List.singleton_append]
          exact List.Forall₂.cons hvalue htail
      | false =>
          have hskip : leafCells (cell :: l) = leafCells l :=
            List.filter_cons_of_neg (by simp [hleaf])
          rw [hskip, hshallow cell (by simp) hleaf, List.nil_append]
          exact htail

/-- A row keeps its fixed columns and all leaves exactly when the names are separate. -/
theorem keeps_iff_separate :
    Keeps row fixed (cells.flatMap fun cell => cell.2.leaves) ↔ Separate fixed cells := by
  constructor
  · rintro ⟨hkept, columns, hnodup, hfree, hcells⟩
    rcases columns_perm hrow hnodup hfree hcells with ⟨hlast, hperm, hshallow⟩
    have hmem : ∀ cell ∈ cells, cell.2.isLeaf = true → cell.1 ∈ columns := by
      intro cell hcell hleaf
      exact hperm.mem_iff.2 (List.mem_map_of_mem (List.mem_filter.2 ⟨hcell, hleaf⟩))
    refine ⟨hshallow, ?_, ?_, ?_, ?_⟩
    · refine pairwise_of_nodup (hperm.nodup_iff.1 hnodup) ?_
      intro cell hcell hleaf
      exact hlast _ (hmem cell hcell hleaf)
    · intro cell hcell hleaf
      exact hfree _ (hmem cell hcell hleaf)
    · intro cell hcell cell' hcell' heq
      have h := hkept cell hcell
      rw [heq, hkept cell' hcell'] at h
      exact (Option.some.inj h).symm
    · intro cell hcell value hvalue
      have h := hkept cell hcell
      rw [hrow, hvalue, Option.some_or] at h
      exact Option.some.inj h
  · rintro ⟨hshallow, hlater, hreserved, hagree, hharmless⟩
    have hlast : ∀ cell ∈ cells, cell.2.isLeaf = true → lastLookup cells cell.1 = some cell.2 :=
      fun cell hcell hleaf => lookup_of_pairwise hlater hcell hleaf
    refine ⟨?_, (leafCells cells).map Prod.fst, ?_, ?_, forall₂_columns hrow hshallow hlast⟩
    · intro cell hcell
      rw [hrow]
      cases hcase : lastLookup cells cell.1 with
      | some value =>
          rw [Option.some_or, hharmless cell hcell value hcase]
      | none =>
          -- written by the recorder or by the metadata, and with the same value by each of them
          rcases lastLookup_isSome (show (cell.1, cell.2) ∈ fixed from hcell) with ⟨v, hv⟩
          rw [Option.none_or, hv]
          exact congrArg some (hagree _ (mem_of_lastLookup hv) cell hcell rfl)
    · rw [List.Nodup, List.pairwise_map]
      refine (List.Pairwise.filter _ hlater).imp_of_mem ?_
      intro cell cell' hcell _ hne
      exact hne (List.mem_filter.1 hcell).2
    · intro c hc
      rcases List.mem_map.1 hc with ⟨cell, hcell, rfl⟩
      exact hreserved cell (List.mem_filter.1 hcell).1 (List.mem_filter.1 hcell).2

end Row

end Recording
end DtPhm
