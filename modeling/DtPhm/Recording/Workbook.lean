import Mathlib.Algebra.Group.Nat.Defs
import Mathlib.Data.List.Dedup
import DtPhm.Lib.Run
import DtPhm.Recording.Row

/-!
# Workbook — the sheets of the real-time recorder

The recorder keeps a list of rows for each vehicle and writes them, when it is stopped, into one
workbook with a sheet for each vehicle.  The sheet is named after the vehicle, but not every text is
a name of a sheet: `_safe_sheet_name` replaces characters and cuts the rest off.

The workbook itself is written by pandas and openpyxl, which are not part of this repository: they
are a parameter (`ExcelWriter`), and what is documented about them is a hypothesis (`Documented`).
-/

namespace DtPhm
namespace Recording

open Lib

/-! ## Sampling -/

/-- `RealtimeDataRecorder` -/
structure Recorder where
  sampleIndex : ℕ
  records : List (String × List (List Cell))

/-- One call of `_sample_once`. -/
structure Sample where
  wallTime : String
  elapsed : UInt64
  reading : String → Reading

/-- The vehicles of a recorder: the keys of a mapping. -/
structure Vehicles where
  ids : List String
  nodup : ids.Nodup

def Recorder.create (vehicles : Vehicles) : Recorder where
  sampleIndex := 0
  records := vehicles.ids.map fun vehicleId => (vehicleId, [])

/-- `records.setdefault(vehicle_id, []).append(row)` -/
def appendRow (records : List (String × List (List Cell))) (vehicleId : String) (row : List Cell) :
    List (String × List (List Cell)) :=
  Dict.set records vehicleId ((records.lookup vehicleId).getD [] ++ [row])

def Sample.stamp (sample : Sample) (sampleIndex : ℕ) : Stamp where
  sampleIndex := sampleIndex
  wallTime := sample.wallTime
  elapsed := sample.elapsed

/-- The row of a vehicle in the sample with this index. -/
def Sample.row (sample : Sample) (sampleIndex : ℕ) (vehicleId : String) : List Cell :=
  sampleRow (sample.stamp sampleIndex) vehicleId (sample.reading vehicleId)

def Recorder.sampleOnce (vehicles : Vehicles) (r : Recorder) (sample : Sample) : Recorder :=
  let sampleIndex := r.sampleIndex + 1
  { sampleIndex := sampleIndex
    records := vehicles.ids.foldl
      (fun records vehicleId => appendRow records vehicleId (sample.row sampleIndex vehicleId))
      r.records }

/-! ## The workbook -/

/-- The characters that the name of a sheet must not have. -/
def invalidChars : List Char := "[]:*?/\\".toList

/-- Convert a vehicle id into a valid Excel sheet name. -/
def safeSheetName (name : String) : String :=
  let cleaned := name.toList.map fun c => if c ∈ invalidChars then '_' else c
  String.ofList ((if cleaned = [] then "vehicle".toList else cleaned).take 31)

/-- What is used of the library that writes workbooks: an open workbook, what a `to_excel` makes of
it, and the sheets of the file.  The rest is what it goes by: the title of a new sheet, given the
titles that are there and the name that is asked for; what a table is on a sheet; the names a sheet
can have and the values a cell can store. -/
structure ExcelWriter where
  Book : Type
  Content : Type
  /-- `pd.ExcelWriter(path, engine="openpyxl")` -/
  create : Book
  /-- `pd.DataFrame(rows).to_excel(writer, sheet_name=name, index=False)`; `none` if it raises -/
  toExcel : Book → String → List (List Cell) → Option Book
  sheets : Book → List (String × Content)
  title : List String → String → String
  table : List (List Cell) → Content
  legal : String → Bool
  storable : Value → Bool

namespace ExcelWriter

variable (x : ExcelWriter)

def titles (book : x.Book) : List String := (x.sheets book).map Prod.fst

/-- A cell can be stored below its header. -/
def Stores (cell : Cell) : Prop := x.storable (.leaf (.str cell.1)) = true ∧
    x.storable cell.2 = true

end ExcelWriter

/-- The names of the columns of a table. -/
def columnNames (rows : List (List Cell)) : List String := (rows.flatMap (List.map Prod.fst)).dedup

/-- A sheet has room for 2²⁰ rows and 2¹⁴ columns. -/
def fitsSheet (rows : List (List Cell)) : Prop :=
  rows.length ≤ 2 ^ 20 ∧ (columnNames rows).length ≤ 2 ^ 14

instance (rows : List (List Cell)) : Decidable (fitsSheet rows) :=
  inferInstanceAs (Decidable (_ ∧ _))

/-- A sheet can have the name, the table fits on it, and its cells can be stored. -/
def ExcelWriter.Accepts (x : ExcelWriter) (name : String) (rows : List (List Cell)) : Prop :=
  x.legal name = true ∧ fitsSheet rows ∧ ∀ row ∈ rows, ∀ cell ∈ row, x.Stores cell

/-- What is documented of the library: it starts without a sheet and raises for the names and tables
that it does not accept; a name that is the title of a sheet selects that sheet; any other name adds
a sheet with the table, whose title no other sheet has; and text without control characters can be
stored, and be the name of a sheet if it is short and has no invalid character. -/
structure ExcelWriter.Documented (x : ExcelWriter) : Prop where
  sheets_create : x.sheets x.create = []
  returns_iff : ∀ book name rows, (x.toExcel book name rows).isSome ↔ x.Accepts name rows
  selects : ∀ {book book' name rows}, x.toExcel book name rows = some book' →
    name ∈ x.titles book → x.titles book' = x.titles book
  adds : ∀ {book book' name rows}, x.toExcel book name rows = some book' → name ∉ x.titles book →
    x.sheets book' = x.sheets book ++ [(x.title (x.titles book) name, x.table rows)]
  title_not_mem : ∀ titles name, name ∉ titles → x.title titles name ∉ titles
  storable_text : ∀ text : String, (∀ c ∈ text.toList, ' ' ≤ c) →
    x.storable (.leaf (.str text)) = true
  legal_text : ∀ text : String, text.toList ≠ [] → text.toList.length ≤ 31 →
    (∀ c ∈ text.toList, ' ' ≤ c ∧ c ∉ invalidChars) → x.legal text = true

/-- The loop of `_write_xlsx`: `wrote_any`, and the workbook; `none` if it raises. -/
def writeSheets (x : ExcelWriter) :
    List (String × List (List Cell)) → Bool × x.Book → Option (Bool × x.Book)
  | [], state => some state
  | (vehicleId, rows) :: records, state =>
      if rows = [] then writeSheets x records state
      else
        match x.toExcel state.2 (safeSheetName vehicleId) rows with
        | none => none
        | some book => writeSheets x records (true, book)

/-- The table of a workbook without samples. -/
def noSamples : List (List Cell) := [[("info", .leaf (.str "no samples recorded"))]]

/-- `_write_xlsx`; `none` if it raises. -/
def writeXlsx (x : ExcelWriter) (records : List (String × List (List Cell))) : Option x.Book :=
  match writeSheets x records (false, x.create) with
  | none => none
  | some (wroteAny, book) => if wroteAny then some book else x.toExcel book "empty" noSamples

/-! ## Recording -/

def Recorder.rows (r : Recorder) (vehicleId : String) : List (List Cell) :=
  (r.records.lookup vehicleId).getD []

/-- The vehicles with a row. -/
def Recorder.recorded (vehicles : Vehicles) (r : Recorder) : List String :=
  vehicles.ids.filter fun vehicleId => (r.rows vehicleId).length ≠ 0

/-- The columns that the payload of a vehicle has to leave alone. -/
def Sample.fixedColumns (sample : Sample) (sampleIndex : ℕ) (vehicleId : String) : List Cell :=
  ownColumns (sample.stamp sampleIndex) vehicleId ++ (sample.reading vehicleId).metadataCells

/-- No recorded sample is lost or relabelled. -/
structure Faithful (x : ExcelWriter) (vehicles : Vehicles) (samples : List Sample) (r : Recorder) :
    Prop where
  rows : ∀ vehicleId ∈ vehicles.ids, List.Forall₂
    (fun sample row => Keeps row (sample.1.fixedColumns sample.2 vehicleId)
      (payloadLeaves (sample.1.reading vehicleId).payloadCells))
    (samples.zipIdx 1) (r.rows vehicleId)
  workbook : ∃ book, writeXlsx x r.records = some book ∧ ∃ titles : List String, titles.Nodup ∧
    List.Forall₂ (fun vehicleId t => (x.sheets book).lookup t = some (x.table (r.rows vehicleId)))
      (r.recorded vehicles) titles

/-! ## The rows of a run -/

variable {vehicles : Vehicles} {x : ExcelWriter}

/-- The rows of a vehicle after these samples. -/
def sampledRows (samples : List Sample) (first : ℕ) (vehicleId : String) : List (List Cell) :=
  (samples.zipIdx first).map fun sample => sample.1.row sample.2 vehicleId

theorem appendRow_map {ids : List String} {f : String → List (List Cell)} (hnodup : ids.Nodup)
    {vehicleId : String} (hmem : vehicleId ∈ ids) (row : List Cell) :
    appendRow (ids.map fun v => (v, f v)) vehicleId row =
      ids.map fun v => (v, if v = vehicleId then f v ++ [row] else f v) := by
  have hlookup : (ids.map fun v => (v, f v)).lookup vehicleId = some (f vehicleId) :=
    List.lookup_graph f hmem
  rw [appendRow, hlookup, Option.getD_some]
  clear hlookup
  induction ids with
  | nil =>
      simp at hmem
  | cons v ids ih =>
      rw [List.nodup_cons] at hnodup
      rw [List.map_cons, Dict.set, List.map_cons]
      by_cases hv : v = vehicleId
      · -- the vehicle does not come again
        have hrest : ids.map (fun v' => (v', f v')) =
            ids.map fun v' => (v', if v' = vehicleId then f v' ++ [row] else f v') := by
          apply List.map_congr_left
          intro v' hv'
          have hne : v' ≠ vehicleId := by
            rintro rfl
            exact hnodup.1 (hv ▸ hv')
          rw [if_neg hne]
        rw [if_pos hv, if_pos hv, hrest, hv]
      · have hmem' : vehicleId ∈ ids := by
          rcases List.mem_cons.1 hmem with heq | hrest
          · exact absurd heq.symm hv
          · exact hrest
        rw [if_neg hv, if_neg hv, ih hnodup.2 hmem']

theorem foldl_appendRow {ids : List String} (hnodup : ids.Nodup) (g : String → List Cell) :
    ∀ (todo : List String) (f : String → List (List Cell)), todo.Nodup → todo ⊆ ids →
      todo.foldl (fun records v => appendRow records v (g v)) (ids.map fun v => (v, f v)) =
        ids.map fun v => (v, if v ∈ todo then f v ++ [g v] else f v) := by
  intro todo
  induction todo with
  | nil =>
      intro f _ _
      simp
  | cons v todo ih =>
      intro f htodo hsub
      rw [List.nodup_cons] at htodo
      rw [List.foldl_cons, appendRow_map hnodup (hsub (by simp)),
        ih _ htodo.2 (fun v' hv' => hsub (List.mem_cons_of_mem _ hv'))]
      apply List.map_congr_left
      intro v' _
      by_cases hv : v' = v
      · subst hv
        simp [htodo.1]
      · simp [hv]

theorem sampleOnce_records {r : Recorder} {f : String → List (List Cell)}
    (h : r.records = vehicles.ids.map fun v => (v, f v)) (sample : Sample) :
    (r.sampleOnce vehicles sample).records =
      vehicles.ids.map fun v => (v, f v ++ [sample.row (r.sampleIndex + 1) v]) := by
  unfold Recorder.sampleOnce
  dsimp only
  rw [h, foldl_appendRow vehicles.nodup _ _ _ vehicles.nodup (fun _ hv => hv)]
  apply List.map_congr_left
  intro v hv
  rw [if_pos hv]

theorem run_records (samples : List Sample) : ∀ (r : Recorder) (f : String → List (List Cell)),
    r.records = vehicles.ids.map (fun v => (v, f v)) →
      (exec (Recorder.sampleOnce vehicles) r samples).records =
        vehicles.ids.map fun v => (v, f v ++ sampledRows samples (r.sampleIndex + 1) v) := by
  induction samples with
  | nil =>
      intro r f h
      simpa [sampledRows] using h
  | cons sample samples ih =>
      intro r f h
      -- the index goes up with every sample, so that the rows number themselves
      rw [exec_cons, ih _ _ (sampleOnce_records h sample)]
      apply List.map_congr_left
      intro v _
      simp [sampledRows, Recorder.sampleOnce]

/-- The recorder after these samples. -/
def record (vehicles : Vehicles) (samples : List Sample) : Recorder :=
  exec (Recorder.sampleOnce vehicles) (Recorder.create vehicles) samples

theorem record_records (samples : List Sample) :
    (record vehicles samples).records =
      vehicles.ids.map fun v => (v, sampledRows samples 1 v) := by
  rw [record, run_records samples (Recorder.create vehicles) (fun _ => []) rfl]
  rfl

theorem record_rows (samples : List Sample) {vehicleId : String} (h : vehicleId ∈ vehicles.ids) :
    (record vehicles samples).rows vehicleId = sampledRows samples 1 vehicleId := by
  have hlookup : (vehicles.ids.map fun v => (v, sampledRows samples 1 v)).lookup vehicleId =
      some (sampledRows samples 1 vehicleId) := List.lookup_graph _ h
  rw [Recorder.rows, record_records, hlookup, Option.getD_some]

theorem recorded_record {samples : List Sample} (h : samples ≠ []) :
    (record vehicles samples).recorded vehicles = vehicles.ids := by
  apply List.filter_eq_self.2
  intro v hv
  rw [record_rows samples hv]
  simpa [sampledRows] using h

theorem recorded_nil : (record vehicles []).recorded vehicles = [] := by
  apply List.filter_eq_nil_iff.2
  intro v hv
  rw [record_rows [] hv]
  simp [sampledRows]

/-! ## The sheets -/

/-- Each name in turn is not yet the title of a sheet. -/
def TitlesFree (x : ExcelWriter) : List String → List String → Prop
  | _, [] => True
  | titles, name :: names => name ∉ titles ∧ TitlesFree x (titles ++ [x.title titles name]) names

/-- A workbook that could be written has at most one more sheet for each vehicle, and fewer if a
name was a title already. -/
theorem writeSheets_length (hx : x.Documented) {records : List (String × List (List Cell))}
    (hrows : ∀ e ∈ records, e.2 ≠ []) : ∀ {state state' : Bool × x.Book},
      writeSheets x records state = some state' →
      (∀ e ∈ records, x.Accepts (safeSheetName e.1) e.2) ∧
        (x.titles state'.2).length ≤ (x.titles state.2).length + records.length ∧
        ((x.titles state.2).length + records.length ≤ (x.titles state'.2).length →
          TitlesFree x (x.titles state.2) (records.map fun e => safeSheetName e.1)) := by
  induction records with
  | nil =>
      intro state state' h
      rw [writeSheets, Option.some.injEq] at h
      subst h
      exact ⟨by simp, by simp, fun _ => trivial⟩
  | cons e records ih =>
      intro state state' h
      rcases e with ⟨v, rows⟩
      have hne : rows ≠ [] := hrows (v, rows) (by simp)
      rw [writeSheets, if_neg hne] at h
      cases hwrite : x.toExcel state.2 (safeSheetName v) rows with
      | none =>
          simp [hwrite] at h
      | some book =>
          have haccepts : x.Accepts (safeSheetName v) rows :=
            (hx.returns_iff _ _ _).1 (Option.isSome_of_eq_some hwrite)
          rw [hwrite] at h
          rcases ih (fun e he => hrows e (List.mem_cons_of_mem _ he)) h with ⟨hall, hle, hfree⟩
          dsimp only at hle hfree
          by_cases hmem : safeSheetName v ∈ x.titles state.2
          -- the table goes over a sheet that is there
          · rw [hx.selects hwrite hmem] at hle
            refine ⟨by simpa [haccepts] using hall, by simp only [List.length_cons]; omega, ?_⟩
            intro hlen
            simp only [List.length_cons] at hlen
            omega
          -- a new sheet
          · have htitles : x.titles book =
                x.titles state.2 ++ [x.title (x.titles state.2) (safeSheetName v)] := by
              rw [ExcelWriter.titles, hx.adds hwrite hmem, List.map_append]
              rfl
            rw [htitles] at hle hfree
            simp only [List.length_append, List.length_singleton] at hle hfree
            refine ⟨by simpa [haccepts] using hall, by simp only [List.length_cons]; omega, ?_⟩
            intro hlen
            simp only [List.length_cons] at hlen
            exact ⟨hmem, hfree (by omega)⟩

theorem writeSheets_of_free (hx : x.Documented) {records : List (String × List (List Cell))}
    (hrows : ∀ e ∈ records, e.2 ≠ [])
    (hfits : ∀ e ∈ records, x.Accepts (safeSheetName e.1) e.2) :
    ∀ state : Bool × x.Book, (x.titles state.2).Nodup →
      TitlesFree x (x.titles state.2) (records.map fun e => safeSheetName e.1) →
      ∃ book new, writeSheets x records state = some (state.1 || !records.isEmpty, book) ∧
        x.sheets book = x.sheets state.2 ++ new ∧ (x.titles book).Nodup ∧
        List.Forall₂ (fun e sheet => sheet.2 = x.table e.2) records new := by
  induction records with
  | nil =>
      intro state hnodup _
      exact ⟨state.2, [], by simp [writeSheets], by simp, hnodup, List.Forall₂.nil⟩
  | cons e records ih =>
      intro state hnodup hfree
      rcases e with ⟨v, rows⟩
      have hne : rows ≠ [] := hrows (v, rows) (by simp)
      rcases hfree with ⟨hmem, hfree⟩
      dsimp only at hmem hfree
      rcases Option.isSome_iff_exists.1 ((hx.returns_iff state.2 (safeSheetName v) rows).2
        (hfits (v, rows) (by simp))) with ⟨book, hwrite⟩
      have hsheets := hx.adds hwrite hmem
      have htitles : x.titles book =
          x.titles state.2 ++ [x.title (x.titles state.2) (safeSheetName v)] := by
        rw [ExcelWriter.titles, hsheets, List.map_append]
        rfl
      have hnew : (x.titles book).Nodup := by
        rw [htitles, List.nodup_append]
        refine ⟨hnodup, by simp, ?_⟩
        intro t ht t' ht' heq
        -- the library gives a new sheet a title of its own
        exact hx.title_not_mem _ _ hmem (List.mem_singleton.1 ht' ▸ heq ▸ ht)
      rcases ih (fun e he => hrows e (List.mem_cons_of_mem _ he))
        (fun e he => hfits e (List.mem_cons_of_mem _ he)) (true, book) hnew (htitles ▸ hfree) with
        ⟨book', new, hrest, hsheets', hnodup', hcontent⟩
      refine ⟨book', (x.title (x.titles state.2) (safeSheetName v), x.table rows) :: new, ?_, ?_,
        hnodup', List.Forall₂.cons rfl hcontent⟩
      · rw [writeSheets, if_neg hne, hwrite]
        simpa using hrest
      · rw [hsheets', hsheets, List.append_assoc, List.singleton_append]

/-- `wrote_any` is set by the first table. -/
theorem writeSheets_wrote {records : List (String × List (List Cell))}
    (hrows : ∀ e ∈ records, e.2 ≠ []) : ∀ {state state' : Bool × x.Book},
      writeSheets x records state = some state' → state'.1 = (state.1 || !records.isEmpty) := by
  induction records with
  | nil =>
      intro state state' h
      rw [writeSheets, Option.some.injEq] at h
      simp [← h]
  | cons e records ih =>
      intro state state' h
      rcases e with ⟨v, rows⟩
      rw [writeSheets, if_neg (hrows (v, rows) (by simp))] at h
      cases hwrite : x.toExcel state.2 (safeSheetName v) rows with
      | none =>
          simp [hwrite] at h
      | some book =>
          rw [hwrite] at h
          rw [ih (fun e he => hrows e (List.mem_cons_of_mem _ he)) h]
          simp

theorem writeSheets_nil_rows (ids : List String) (state : Bool × x.Book) :
    writeSheets x (ids.map fun v => (v, [])) state = some state := by
  induction ids with
  | nil => rfl
  | cons v ids ih => simpa [writeSheets] using ih

theorem storable_of_all (hx : x.Documented) {text : String}
    (h : text.toList.all (' ' ≤ ·) = true) : x.storable (.leaf (.str text)) = true :=
  hx.storable_text text fun c hc => of_decide_eq_true (List.all_eq_true.1 h c hc)

theorem toExcel_noSamples (hx : x.Documented) (book : x.Book) :
    ∃ book', x.toExcel book "empty" noSamples = some book' := by
  have hname : ∀ c ∈ "empty".toList, ' ' ≤ c ∧ c ∉ invalidChars := fun c hc =>
    of_decide_eq_true (List.all_eq_true.1 (by decide : "empty".toList.all
      fun c => decide (' ' ≤ c ∧ c ∉ invalidChars)) c hc)
  refine Option.isSome_iff_exists.1 ((hx.returns_iff _ _ _).2
    ⟨hx.legal_text _ (by decide) (by decide) hname, by decide, ?_⟩)
  intro row hrow cell hcell
  rw [noSamples, List.mem_singleton] at hrow
  rw [hrow, List.mem_singleton] at hcell
  rw [hcell]
  exact ⟨storable_of_all hx (by decide), storable_of_all hx (by decide)⟩

/-- The workbook has a sheet with its rows for every vehicle exactly when the tables are accepted
and no name is taken. -/
theorem workbook_iff (hx : x.Documented) (ids : List String) (rows : String → List (List Cell))
    (hrows : ∀ v ∈ ids, rows v ≠ []) :
    (∃ book, writeXlsx x (ids.map fun v => (v, rows v)) = some book ∧ ∃ titles : List String,
        titles.Nodup ∧
          List.Forall₂ (fun v t => (x.sheets book).lookup t = some (x.table (rows v))) ids titles) ↔
      (∀ v ∈ ids, x.Accepts (safeSheetName v) (rows v)) ∧
        TitlesFree x [] (ids.map safeSheetName) := by
  have hrows' : ∀ e ∈ ids.map (fun v => (v, rows v)), e.2 ≠ [] := by
    intro e he
    rcases List.mem_map.1 he with ⟨v, hv, rfl⟩
    exact hrows v hv
  have hnames : (ids.map fun v => (v, rows v)).map (fun e => safeSheetName e.1) =
      ids.map safeSheetName := by
    rw [List.map_map]
    rfl
  have hcreate : x.titles x.create = [] := by
    rw [ExcelWriter.titles, hx.sheets_create, List.map_nil]
  constructor
  · rintro ⟨book, hbook, titles, hnodup, hsheets⟩
    cases hwrite : writeSheets x (ids.map fun v => (v, rows v)) (false, x.create) with
    | none =>
        simp [writeXlsx, hwrite] at hbook
    | some state =>
        rcases writeSheets_length hx hrows' hwrite with ⟨hfits, hle, hfree⟩
        rw [hnames, hcreate] at hfree
        refine ⟨fun v hv => hfits (v, rows v) (List.mem_map.2 ⟨v, hv, rfl⟩), hfree ?_⟩
        by_cases hnil : ids = []
        · simp [hnil]
        · -- a sheet for each vehicle: there are as many sheets as vehicles
          have hwrote := writeSheets_wrote hrows' hwrite
          have hsame : state.2 = book := by
            have hany : state.1 = true := by simp [hwrote, hnil]
            rw [writeXlsx, hwrite] at hbook
            simpa [hany] using hbook
          have hsub : titles ⊆ x.titles book := by
            intro t ht
            rcases List.getElem_of_mem ht with ⟨i, hi, rfl⟩
            have hlookup := hsheets.get (hsheets.length_eq ▸ hi) hi
            rw [List.get_eq_getElem, List.get_eq_getElem] at hlookup
            rcases List.lookup_eq_some_iff.1 hlookup with ⟨l₁, l₂, heq, _⟩
            rw [ExcelWriter.titles, heq]
            simp
          have hlength := (hnodup.subperm hsub).length_le
          rw [← hsheets.length_eq, ← hsame] at hlength
          simpa using hlength
  · rintro ⟨hfits, hfree⟩
    have hfits' : ∀ e ∈ ids.map (fun v => (v, rows v)),
        x.Accepts (safeSheetName e.1) e.2 := by
      intro e he
      rcases List.mem_map.1 he with ⟨v, hv, rfl⟩
      exact hfits v hv
    rcases writeSheets_of_free hx hrows' hfits' (false, x.create) (by simp [hcreate])
      (by rw [hnames]; simpa only [hcreate] using hfree) with ⟨book, new, hwrite, hsheets, hkeys,
        hcontent⟩
    rw [hx.sheets_create, List.nil_append] at hsheets
    by_cases hnil : ids = []
    · -- no vehicle: the sheet `empty` is written, and nothing is asked of it
      rcases toExcel_noSamples hx book with ⟨book', hempty⟩
      refine ⟨book', ?_, [], List.nodup_nil, by simp [hnil]⟩
      rw [writeXlsx, hwrite]
      simpa [hnil] using hempty
    · refine ⟨book, by simp [writeXlsx, hwrite, hnil], x.titles book, hkeys, ?_⟩
      rw [ExcelWriter.titles, hsheets, List.forall₂_map_right_iff, List.forall₂_iff_zip]
      rw [List.forall₂_map_left_iff, List.forall₂_iff_zip] at hcontent
      refine ⟨hcontent.1, ?_⟩
      intro v sheet hzip
      have htable : sheet.2 = x.table (rows v) := hcontent.2 hzip
      rw [ExcelWriter.titles, hsheets] at hkeys
      rw [← htable]
      exact lookup_of_mem hkeys (List.of_mem_zip hzip).2

/-! ## Whole recordings -/

/-- The names under which a row of the vehicle has a column. -/
def sourceNames (samples : List Sample) (vehicleId : String) : List String :=
  (samples.zipIdx 1).flatMap fun sample =>
    (sample.1.fixedColumns sample.2 vehicleId ++
      flattenCells (sample.1.reading vehicleId).payloadCells).map Prod.fst

/-- What stands last under a name, of the cells that are merged into a row, can be stored. -/
def Storable (x : ExcelWriter) (cells : List Cell) : Prop :=
  ∀ c value, lastLookup cells c = some value → x.Stores (c, value)

theorem sampleRow_nodup (stamp : Stamp) (vehicleId : String) (reading : Reading) :
    ((sampleRow stamp vehicleId reading).map Prod.fst).Nodup := by
  refine Dict.nodup_update (Dict.nodup_update ?_ _) _
  simp [ownColumns]

theorem mem_row_iff (sample : Sample) (i : ℕ) (vehicleId : String) (cell : Cell) :
    cell ∈ sample.row i vehicleId ↔
      lastLookup (sample.fixedColumns i vehicleId ++
        flattenCells (sample.reading vehicleId).payloadCells) cell.1 = some cell.2 := by
  rw [lastLookup_append, Sample.fixedColumns, ← lookup_sampleRow]
  constructor
  · exact fun h => lookup_of_mem (sampleRow_nodup _ _ _) h
  · intro h
    rcases List.lookup_eq_some_iff.1 h with ⟨l₁, l₂, heq, _⟩
    rw [Sample.row, heq]
    simp

/-- The library accepts the name and the table of a vehicle. -/
def AcceptedBy (x : ExcelWriter) (samples : List Sample) (vehicleId : String) : Prop :=
  x.legal (safeSheetName vehicleId) = true ∧
    (samples.length ≤ 2 ^ 20 ∧ (sourceNames samples vehicleId).dedup.length ≤ 2 ^ 14) ∧
    ∀ sample ∈ samples.zipIdx 1, Storable x (sample.1.fixedColumns sample.2 vehicleId ++
      flattenCells (sample.1.reading vehicleId).payloadCells)

theorem accepts_sampledRows (samples : List Sample) (vehicleId : String) :
    x.Accepts (safeSheetName vehicleId) (sampledRows samples 1 vehicleId) ↔
      AcceptedBy x samples vehicleId := by
  have hrow : ∀ (sample : Sample) (i : ℕ) (c : String),
      c ∈ (sample.row i vehicleId).map Prod.fst ↔
        c ∈ (sample.fixedColumns i vehicleId ++
          flattenCells (sample.reading vehicleId).payloadCells).map Prod.fst := by
    intro sample i c
    unfold Sample.row sampleRow Sample.fixedColumns flattenPayload
    dsimp only
    rw [Dict.mem_keys_update, Dict.mem_keys_update, Dict.mem_keys_update]
    simp only [List.map_append, List.mem_append, List.map_nil, List.not_mem_nil, false_or]
  -- merging does not keep the order of the columns, only their names
  have hperm :
      (columnNames (sampledRows samples 1 vehicleId)).Perm
        (sourceNames samples vehicleId).dedup := by
    rw [columnNames, List.perm_ext_iff_of_nodup (List.nodup_dedup _) (List.nodup_dedup _)]
    intro c
    rw [List.mem_dedup, List.mem_dedup, sampledRows, List.flatMap_map, sourceNames,
      List.mem_flatMap, List.mem_flatMap]
    simp only [hrow]
  unfold ExcelWriter.Accepts fitsSheet AcceptedBy
  rw [hperm.length_eq, sampledRows, List.length_map, List.length_zipIdx, List.forall_mem_map]
  refine and_congr_right fun _ => and_congr_right fun _ => forall₂_congr fun sample _ => ?_
  simp only [mem_row_iff]
  exact ⟨fun h c value hlast => h (c, value) hlast, fun h cell hlast => h cell.1 cell.2 hlast⟩

theorem workbook_record_iff (hx : x.Documented) (samples : List Sample) :
    (∃ book, writeXlsx x (record vehicles samples).records = some book ∧
      ∃ titles : List String, titles.Nodup ∧ List.Forall₂
        (fun v t => (x.sheets book).lookup t = some (x.table ((record vehicles samples).rows v)))
        ((record vehicles samples).recorded vehicles) titles) ↔
      (samples ≠ [] →
        (∀ v ∈ vehicles.ids, AcceptedBy x samples v) ∧
          TitlesFree x [] (vehicles.ids.map safeSheetName)) := by
  rw [record_records]
  by_cases hnil : samples = []
  · -- nothing was recorded: the workbook says so
    subst hnil
    refine iff_of_true ?_ (fun h => absurd rfl h)
    rw [recorded_nil]
    rcases toExcel_noSamples hx x.create with ⟨book, hempty⟩
    refine ⟨book, ?_, [], List.nodup_nil, List.Forall₂.nil⟩
    simp [writeXlsx, sampledRows, writeSheets_nil_rows, hempty]
  · have hrows : ∀ v ∈ vehicles.ids, sampledRows samples 1 v ≠ [] := by
      intro v _
      simpa [sampledRows] using hnil
    have hiff := workbook_iff hx vehicles.ids (sampledRows samples 1) hrows
    simp only [accepts_sampledRows] at hiff
    rw [recorded_record hnil]
    refine Iff.trans ?_ (hiff.trans ⟨fun h _ => h, fun h => h hnil⟩)
    refine exists_congr fun book => and_congr_right fun _ => exists_congr fun titles =>
      and_congr_right fun _ => ?_
    rw [List.forall₂_iff_zip, List.forall₂_iff_zip]
    refine and_congr_right fun _ => ?_
    constructor
    · intro h v t hzip
      rw [← record_rows samples (List.of_mem_zip hzip).1]
      exact h hzip
    · intro h v t hzip
      rw [record_rows samples (List.of_mem_zip hzip).1]
      exact h hzip

/-- A recording is faithful exactly when in every sample of every vehicle the columns are separate
and the leaves at the first level, the library accepts the tables, and no sheet name is taken. -/
theorem faithful_iff (x : ExcelWriter) (hx : x.Documented) (vehicles : Vehicles)
    (samples : List Sample) :
    Faithful x vehicles samples (record vehicles samples) ↔
      (∀ v ∈ vehicles.ids, ∀ sample ∈ samples.zipIdx 1,
        Separate (sample.1.fixedColumns sample.2 v)
          (flattenCells (sample.1.reading v).payloadCells)) ∧
      (samples ≠ [] →
        (∀ v ∈ vehicles.ids, AcceptedBy x samples v) ∧
          TitlesFree x [] (vehicles.ids.map safeSheetName)) := by
  have hrows : (∀ v ∈ vehicles.ids, List.Forall₂
      (fun sample row => Keeps row (sample.1.fixedColumns sample.2 v)
        (payloadLeaves (sample.1.reading v).payloadCells))
      (samples.zipIdx 1) ((record vehicles samples).rows v)) ↔
      ∀ v ∈ vehicles.ids, ∀ sample ∈ samples.zipIdx 1,
        Separate (sample.1.fixedColumns sample.2 v)
          (flattenCells (sample.1.reading v).payloadCells) := by
    refine forall₂_congr fun v hv => ?_
    rw [record_rows samples hv, sampledRows, List.forall₂_map_right_iff, List.forall₂_same]
    refine forall₂_congr fun sample _ => ?_
    rw [← leaves_flattenCells]
    exact keeps_iff_separate (lookup_sampleRow _ v _)
  constructor
  · rintro ⟨h, h'⟩
    exact ⟨hrows.1 h, (workbook_record_iff hx samples).1 h'⟩
  · rintro ⟨h, h'⟩
    exact ⟨hrows.2 h, (workbook_record_iff hx samples).2 h'⟩

/-! ## Recordings -/

/-- A control character cannot be stored, apart from those that end or space out lines. -/
def plainText (text : String) : Bool := text.toList.all fun c => ' ' ≤ c || c ∈ ['\t', '\n', '\r']

def plainValue : Value → Bool
  | .leaf (.str text) => plainText text
  | _ => true

def plainName (name : String) : Bool :=
  name.toList ≠ [] && name.toList.all fun c => ' ' ≤ c && c ∉ invalidChars

/-- `to_excel` of a library that gives a new sheet the name that is asked for. -/
def plainToExcel (book : List (String × List (List Cell))) (name : String)
    (rows : List (List Cell)) :
    Option (List (String × List (List Cell))) :=
  if plainName name = true ∧ fitsSheet rows ∧ ∀ row ∈ rows, ∀ cell ∈ row,
      plainText cell.1 = true ∧ plainValue cell.2 = true then
    if name ∈ book.map Prod.fst then
      some (book.map fun sheet => if sheet.1 = name then (name, rows) else sheet)
    else some (book ++ [(name, rows)])
  else none

theorem plainToExcel_eq {book book' : List (String × List (List Cell))} {name : String}
    {rows : List (List Cell)} (h : plainToExcel book name rows = some book') :
    book' = if name ∈ book.map Prod.fst then
        book.map fun sheet => if sheet.1 = name then (name, rows) else sheet
      else book ++ [(name, rows)] := by
  unfold plainToExcel at h
  split at h
  · split at h <;> simp_all
  · cases h

def plainWriter : ExcelWriter where
  Book := List (String × List (List Cell))
  Content := List (List Cell)
  create := []
  toExcel := plainToExcel
  sheets book := book
  title _ name := name
  table rows := rows
  legal := plainName
  storable := plainValue

theorem plainWriter_documented : plainWriter.Documented where
  sheets_create := rfl
  returns_iff book name rows := by
    show (plainToExcel book name rows).isSome ↔ _
    unfold plainToExcel
    split
    · rename_i haccepts
      exact iff_of_true (by split <;> rfl) haccepts
    · rename_i hrefused
      exact iff_of_false (by simp) hrefused
  selects := by
    intro book book' name rows h hmem
    rw [(plainToExcel_eq h).trans (if_pos hmem)]
    refine (List.map_map ..).trans (List.map_congr_left fun sheet _ => ?_)
    dsimp only [Function.comp]
    split
    · rename_i heq
      exact heq.symm
    · rfl
  adds := by
    intro book book' name rows h hmem
    exact (plainToExcel_eq h).trans (if_neg hmem)
  title_not_mem _ _ h := h
  storable_text text h := by
    show text.toList.all _ = true
    rw [List.all_eq_true]
    intro c hc
    simp [h c hc]
  legal_text text hne _ h := by
    show (_ && text.toList.all _) = true
    rw [Bool.and_eq_true, List.all_eq_true]
    refine ⟨decide_eq_true hne, fun c hc => ?_⟩
    simp [h c hc]

/-- Two samples of two vehicles: the columns of an attitude have names of their own, and each
vehicle has a sheet. -/
theorem attitude_recorded :
    let vehicles : Vehicles := { ids := ["dt1", "dt2"], nodup := by simp }
    let snapshot : List Cell := [("armed", .leaf (.bool true)),
      ("attitude", .mapping [(.str "roll", .leaf (.int 1)), (.str "pitch", .leaf (.int 2))])]
    let reading : String → Reading := fun _ =>
      { payload := .ok snapshot, metadata := some (.ok [("fault", .leaf (.str "none"))]) }
    let samples : List Sample := [⟨"12:00", 0, reading⟩, ⟨"12:01", 1, reading⟩]
    Faithful plainWriter vehicles samples (record vehicles samples) := by
  intro vehicles snapshot reading samples
  have hflat : flattenCells snapshot = [("armed", .leaf (.bool true)),
      ("attitude_roll", .leaf (.int 1)), ("attitude_pitch", .leaf (.int 2))] := by
    simp [flattenCells, flattenEntry, snapshot, Key.format]
  have hfixed : ∀ v ∈ vehicles.ids, ∀ sample ∈ samples.zipIdx 1, ∃ i time t,
      plainText v = true ∧ plainText time = true ∧
      sample.1.fixedColumns sample.2 v =
        [("sample_index", .leaf (.int i)), ("wall_time", .leaf (.str time)),
        ("elapsed_s", .leaf (.float t)), ("vehicle_id", .leaf (.str v)),
          ("fault", .leaf (.str "none"))] ∧
      flattenCells (sample.1.reading v).payloadCells = flattenCells snapshot := by
    intro v hv sample hsample
    have htext : plainText v = true := by
      simp only [vehicles, List.mem_cons, List.not_mem_nil, or_false] at hv
      rcases hv with rfl | rfl <;> decide
    simp only [samples, List.zipIdx_cons, List.zipIdx_nil, List.mem_cons, List.not_mem_nil,
      or_false] at hsample
    rcases hsample with rfl | rfl
    · exact ⟨1, "12:00", 0, htext, by decide, rfl, rfl⟩
    · exact ⟨2, "12:01", 1, htext, by decide, rfl, rfl⟩
  refine (faithful_iff plainWriter plainWriter_documented vehicles samples).2 ⟨?_, fun _ =>
    ⟨?_, ?_⟩⟩
  · intro v hv sample hsample
    rcases hfixed v hv sample hsample with ⟨i, time, t, -, -, hfix, hcells⟩
    rw [hfix, hcells, hflat]
    refine ⟨by simp [Value.isLeaf], by simp, by simp, by simp, ?_⟩
    intro cell hcell value hlast
    -- no column of the payload has the name of a fixed one
    have hmem := mem_of_lastLookup hlast
    simp only [List.mem_cons, List.not_mem_nil, or_false, Prod.mk.injEq] at hcell hmem
    rcases hcell with rfl | rfl | rfl | rfl | rfl <;> simp at hmem
  · intro v hv
    refine ⟨?_, ⟨by decide, ?_⟩, ?_⟩
    · show plainName (safeSheetName v) = true
      simp only [vehicles, List.mem_cons, List.not_mem_nil, or_false] at hv
      rcases hv with rfl | rfl <;> decide
    · have hlength : (sourceNames samples v).length = 16 := rfl
      have hdedup := (List.dedup_sublist (sourceNames samples v)).length_le
      omega
    · intro sample hsample c value hlast
      rcases hfixed v hv sample hsample with ⟨i, time, t, hv', htime, hfix, hcells⟩
      rw [hfix, hcells, hflat] at hlast
      have hmem := mem_of_lastLookup hlast
      simp only [List.cons_append, List.nil_append, List.mem_cons, List.not_mem_nil, or_false,
        Prod.mk.injEq] at hmem
      have hname : ∀ name ∈ ["sample_index", "wall_time", "elapsed_s", "vehicle_id", "fault",
          "armed",
          "attitude_roll", "attitude_pitch"], plainText name = true := by decide
      rcases hmem with ⟨rfl, rfl⟩ | ⟨rfl, rfl⟩ | ⟨rfl, rfl⟩ | ⟨rfl, rfl⟩ | ⟨rfl, rfl⟩ | ⟨rfl, rfl⟩ |
        ⟨rfl, rfl⟩ | ⟨rfl, rfl⟩
      · exact ⟨hname _ (by simp), rfl⟩
      · exact ⟨hname _ (by simp), htime⟩
      · exact ⟨hname _ (by simp), rfl⟩
      · exact ⟨hname _ (by simp), hv'⟩
      · exact ⟨hname _ (by simp), show plainText "none" = true by decide⟩
      · exact ⟨hname _ (by simp), rfl⟩
      · exact ⟨hname _ (by simp), rfl⟩
      · exact ⟨hname _ (by simp), rfl⟩
  · simp [vehicles, TitlesFree, safeSheetName, invalidChars, plainWriter]

/-- One sample of one vehicle whose snapshot has a `vehicle_id`, as every backend's has: the column
of the recorder is lost. -/
theorem snapshot_relabels_vehicle :
    let vehicles : Vehicles := { ids := ["dt1"], nodup := by simp }
    let snapshot : List Cell := [("id", .leaf (.str "dt1")), ("backend", .leaf (.str "dt")),
      ("vehicle_id", .leaf (.int 1))]
    let samples : List Sample := [{ wallTime := "12:00", elapsed := 0,
                                    reading :=
                                      fun _ => { payload := .ok snapshot, metadata := none } }]
    ¬Faithful plainWriter vehicles samples (record vehicles samples) := by
  intro vehicles snapshot samples hfaithful
  have hrows := hfaithful.rows "dt1" (by simp [vehicles])
  rw [record_rows samples (by simp [vehicles])] at hrows
  have hrow := ((List.forall₂_cons.1 hrows).1).kept ("vehicle_id", .leaf (.str "dt1"))
    (by simp [Sample.fixedColumns, ownColumns])
  -- the payload is merged last
  simp [Sample.row, lookup_sampleRow, Reading.payloadCells, snapshot, flattenCells, flattenEntry,
    lastLookup] at hrow

end Recording
end DtPhm
