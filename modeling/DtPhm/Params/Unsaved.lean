import DtPhm.Params.Persist
import DtPhm.Params.Calls

/-!
# Unsaved — the marks of changed parameters, and exports that fail

`param_export` with all its arguments: only values changed since the last save, only parameters that
a filter accepts.  The mark of an entry is taken away before its value is appended; what fails later
does not bring it back.

* `passesOver`, `exportEntries`, `paramExportTo` — the function, on an open file;
* `Attempted` — the entries an export comes to: all appends before them are accepted;
* `exportEntries_getElem?` — which marks are gone after the loop;
* `flags_kept_iff` — when an export that fails leaves all marks as they were.
-/

namespace DtPhm
namespace Params

open Lib Bson

variable {F : Type} (ops : FloatOps F) (t : Table F)

/-! ## The export -/

/-- The loop goes on to the next entry: this one is saved already, or not accepted by the filter, or
a default. -/
def passesOver (onlyUnsaved : Bool) (filter : Option (ℕ → Bool)) (s : Store F) (w : Wbuf F) :
    Bool :=
  (onlyUnsaved && !w.unsaved) || filter.any (fun accepts => !accepts w.param) ||
    skipsExport ops t s w

/-- The loop of `param_export`, with the entries it passes over. -/
def exportEntries (env : Env) (skip : Wbuf F → Bool) :
    Encoder → List (Wbuf F) → Bool × Encoder × List (Wbuf F)
  | e, [] => (true, e, [])
  | e, w :: ws =>
      if skip w then
        match exportEntries env skip e ws with
        | (ok, e, ws) => (ok, e, w :: ws)
      else
        match exportAppend ops t w with
        | some a =>
            -- the mark is cleared before the append
            match append env e a with
            | (true, e) =>
                match exportEntries env skip e ws with
                | (ok, e, ws) => (ok, e, { w with unsaved := false } :: ws)
            -- BSON append failed
            | (false, e) => (false, e, { w with unsaved := false } :: ws)
        -- unrecognized parameter type, skipping export
        | none =>
            match exportEntries env skip e ws with
            | (ok, e, ws) => (ok, e, { w with unsaved := false } :: ws)

/-- `param_export`, to an open file with this content; true stands for the result 0.  (A negative
descriptor hands the call over to the flash storage, where there is one.) -/
def paramExportTo (env : Env) (onlyUnsaved : Bool) (filter : Option (ℕ → Bool)) (s : Store F)
    (content : List UInt8) : Bool × Store F × Encoder :=
  let e := (bsonEncoderInitBufFile env (Disk.opened content) 256).2
  match s.values with
  -- no modified parameters -> we are done
  | none =>
      match bsonEncoderFini env e with
      | (ok, e) => (ok, s, e)
  | some values =>
      match exportEntries ops t env (passesOver ops t onlyUnsaved filter s) e values with
      | (false, e, values) => (false, { s with values := some values }, e)
      | (true, e, values) =>
          match bsonEncoderFini env e with
          | (ok, e) => (ok, { s with values := some values }, e)

/-- The appends of the entries that are not passed over. -/
def itemsOf (ops : FloatOps F) (t : Table F) (skip : Wbuf F → Bool) (ws : List (Wbuf F)) :
    List Append :=
  (ws.filter fun w => !skip w).filterMap (exportAppend ops t)

/-- The appends of an export. -/
def exportItemsTo (onlyUnsaved : Bool) (filter : Option (ℕ → Bool)) (s : Store F) : List Append :=
  itemsOf ops t (passesOver ops t onlyUnsaved filter s) (s.values.getD [])

/-- The entries with their marks. -/
def Store.unsavedFlags (s : Store F) : List (ℕ × Bool) :=
  (s.values.getD []).map fun w => (w.param, w.unsaved)

section Loop

variable {ops t} {env : Env} {skip : Wbuf F → Bool} {e e' : Encoder} {ws : List (Wbuf F)} {k : ℕ}
  {w : Wbuf F}

theorem itemsOf_cons_of_skip (h : skip w = true) :
    itemsOf ops t skip (w :: ws) = itemsOf ops t skip ws := by
  simp [itemsOf, h]

theorem itemsOf_cons_of_none (h : skip w = false) (ha : exportAppend ops t w = none) :
    itemsOf ops t skip (w :: ws) = itemsOf ops t skip ws := by
  simp [itemsOf, h, ha]

theorem itemsOf_cons_of_some {a : Append} (h : skip w = false)
    (ha : exportAppend ops t w = some a) :
    itemsOf ops t skip (w :: ws) = a :: itemsOf ops t skip ws := by
  simp [itemsOf, h, ha]

/-- The entry without its mark. -/
def saved (w : Wbuf F) : Wbuf F := { w with unsaved := false }

theorem exportEntries_of_skip (h : skip w = true) :
    exportEntries ops t env skip e (w :: ws) =
      ((exportEntries ops t env skip e ws).1, (exportEntries ops t env skip e ws).2.1,
        w :: (exportEntries ops t env skip e ws).2.2) := by
  simp [exportEntries, h]

theorem exportEntries_of_none (h : skip w = false) (ha : exportAppend ops t w = none) :
    exportEntries ops t env skip e (w :: ws) =
      ((exportEntries ops t env skip e ws).1, (exportEntries ops t env skip e ws).2.1,
        saved w :: (exportEntries ops t env skip e ws).2.2) := by
  simp [exportEntries, h, ha, saved]

theorem exportEntries_of_accepted {a : Append} (h : skip w = false)
    (ha : exportAppend ops t w = some a) (happend : append env e a = (true, e')) :
    exportEntries ops t env skip e (w :: ws) =
      ((exportEntries ops t env skip e' ws).1, (exportEntries ops t env skip e' ws).2.1,
        saved w :: (exportEntries ops t env skip e' ws).2.2) := by
  simp [exportEntries, h, ha, happend, saved]

theorem exportEntries_of_failed {a : Append} (h : skip w = false)
    (ha : exportAppend ops t w = some a) (happend : append env e a = (false, e')) :
    exportEntries ops t env skip e (w :: ws) = (false, e', saved w :: ws) := by
  simp [exportEntries, h, ha, happend, saved]

theorem appendAll_itemsOf (e : Encoder) (ws : List (Wbuf F)) :
    appendAll env e (itemsOf ops t skip ws) =
      if (exportEntries ops t env skip e ws).1 then some (exportEntries ops t env skip e ws).2.1
      else none := by
  induction ws generalizing e with
  | nil => rfl
  | cons w ws ih =>
      cases hskip : skip w with
      | true => rw [itemsOf_cons_of_skip hskip, exportEntries_of_skip hskip, ih]
      | false =>
          cases ha : exportAppend ops t w with
          | none => rw [itemsOf_cons_of_none hskip ha, exportEntries_of_none hskip ha, ih]
          | some a =>
              rw [itemsOf_cons_of_some hskip ha, appendAll]
              cases happend : append env e a with
              | mk accepted e' =>
                  cases accepted with
                  | true =>
                      rw [exportEntries_of_accepted hskip ha happend]
                      exact ih e'
                  | false =>
                      rw [exportEntries_of_failed hskip ha happend]
                      rfl

/-- The loop comes to an entry: all appends before it are accepted. -/
def Attempted (ops : FloatOps F) (t : Table F) (env : Env) (skip : Wbuf F → Bool) (e : Encoder)
    (ws : List (Wbuf F)) (k : ℕ) : Prop :=
  (appendAll env e (itemsOf ops t skip (ws.take k))).isSome = true

instance (k : ℕ) : Decidable (Attempted ops t env skip e ws k) :=
  inferInstanceAs (Decidable (_ = true))

theorem attempted_zero : Attempted ops t env skip e ws 0 := rfl

theorem attempted_of_skip (h : skip w = true) :
    Attempted ops t env skip e (w :: ws) (k + 1) ↔ Attempted ops t env skip e ws k := by
  rw [Attempted, List.take_succ_cons, itemsOf_cons_of_skip h, Attempted]

theorem attempted_of_none (h : skip w = false) (ha : exportAppend ops t w = none) :
    Attempted ops t env skip e (w :: ws) (k + 1) ↔ Attempted ops t env skip e ws k := by
  rw [Attempted, List.take_succ_cons, itemsOf_cons_of_none h ha, Attempted]

theorem attempted_of_accepted {a : Append} (h : skip w = false)
    (ha : exportAppend ops t w = some a) (happend : append env e a = (true, e')) :
    Attempted ops t env skip e (w :: ws) (k + 1) ↔ Attempted ops t env skip e' ws k := by
  rw [Attempted, List.take_succ_cons, itemsOf_cons_of_some h ha, appendAll, happend, Attempted]

theorem not_attempted_of_failed {a : Append} (h : skip w = false)
    (ha : exportAppend ops t w = some a) (happend : append env e a = (false, e')) :
    ¬Attempted ops t env skip e (w :: ws) (k + 1) := by
  rw [Attempted, List.take_succ_cons, itemsOf_cons_of_some h ha, appendAll, happend]
  simp

theorem exportEntries_getElem? (e : Encoder) (ws : List (Wbuf F)) (k : ℕ) :
    (exportEntries ops t env skip e ws).2.2[k]? =
      (ws[k]?).map fun w =>
        if skip w = false ∧ Attempted ops t env skip e ws k then saved w else w := by
  induction ws generalizing e k with
  | nil => rfl
  | cons w ws ih =>
      cases hskip : skip w with
      | true =>
          rw [exportEntries_of_skip hskip]
          cases k with
          | zero => simp [hskip]
          | succ k =>
              simp only [List.getElem?_cons_succ, ih, attempted_of_skip hskip]
      | false =>
          cases ha : exportAppend ops t w with
          | none =>
              rw [exportEntries_of_none hskip ha]
              cases k with
              | zero => simp [hskip, attempted_zero]
              | succ k => simp only [List.getElem?_cons_succ, ih, attempted_of_none hskip ha]
          | some a =>
              cases happend : append env e a with
              | mk accepted e' =>
                  cases accepted with
                  | true =>
                      rw [exportEntries_of_accepted hskip ha happend]
                      cases k with
                      | zero => simp [hskip, attempted_zero]
                      | succ k =>
                          simp only [List.getElem?_cons_succ, ih,
                            attempted_of_accepted hskip ha happend]
                  | false =>
                      rw [exportEntries_of_failed hskip ha happend]
                      cases k with
                      | zero => simp [hskip, attempted_zero]
                      | succ k =>
                          -- nothing behind the failed append is touched
                          simp [not_attempted_of_failed hskip ha happend]

end Loop

/-! ## Marks after a failure -/

/-- The encoder an export begins with. -/
def exportStart (env : Env) (content : List UInt8) : Encoder :=
  (bsonEncoderInitBufFile env (Disk.opened content) 256).2

/-- No mark is lost: all marks are as they were, and a later export of what is unsaved has an append
for each marked value that is not a default. -/
structure KeepsUnsaved (s s' : Store F) : Prop where
  flags : s'.unsavedFlags = s.unsavedFlags
  later : ∀ w ∈ s.values.getD [], w.unsaved = true → skipsExport ops t s w = false →
    ∀ a, exportAppend ops t w = some a → a ∈ exportItemsTo ops t true none s'

/-- The names are short enough, and the calls of `write` that take these numbers of bytes take all
of them. -/
def Written (env : Env) (items : List Append) (sizes : List ℕ) : Prop :=
  (∀ a ∈ items, a.name.chars.length ≤ bsonMaxname) ∧ env.takesAll 0 sizes = true

/-- No call of `write` for the document fails; or a call that flushes the buffer for the entries
before the first marked one does. -/
def FailsUnmarked (env : Env) (onlyUnsaved : Bool) (filter : Option (ℕ → Bool)) (s : Store F) :
    Prop :=
  let items := exportItemsTo ops t onlyUnsaved filter s
  Written env items (fileWrites 256 env.lseek items) ∨
    ∀ k w, (s.values.getD [])[k]? = some w → passesOver ops t onlyUnsaved filter s w = false →
      w.unsaved = true →
      let before :=
        itemsOf ops t (passesOver ops t onlyUnsaved filter s) ((s.values.getD []).take k)
      ¬Written env before (flushes 256 4 (pieceLengths before))

section Failures

variable {ops t} {env : Env} {onlyUnsaved : Bool} {filter : Option (ℕ → Bool)} {s : Store F}
  {content : List UInt8}

theorem start_bufFile (env : Env) (content : List UInt8) :
    start env (.bufFile content 256) = (true, exportStart env content) := rfl

theorem itemsOf_pieces {skip : Wbuf F → Bool} {ws : List (Wbuf F)}
    (hnames : ∀ a ∈ itemsOf ops t skip ws, a.name.chars.length ≤ bsonMaxname) :
    ∀ a ∈ itemsOf ops t skip ws, ∀ p ∈ a.pieces, p.length ≤ 256 := by
  intro a ha
  obtain ⟨w, _, hw⟩ := List.mem_filterMap.1 ha
  exact exportAppend_pieces hw (hnames a ha)

theorem tells_256 (env : Env) : env.Tells 256 := .inl (by norm_num)

theorem attempted_iff {skip : Wbuf F → Bool} {ws : List (Wbuf F)} {k : ℕ} :
    Attempted ops t env skip (exportStart env content) ws k ↔
      Written env (itemsOf ops t skip (ws.take k))
        (flushes 256 4 (pieceLengths (itemsOf ops t skip (ws.take k)))) := by
  obtain ⟨e, hstart, h⟩ := start_bufFile_buffers env content (by norm_num : 4 ≤ 256)
  obtain rfl : exportStart env content = e := congrArg Prod.snd hstart
  unfold Attempted Written
  constructor
  · intro hattempt
    obtain ⟨e', he'⟩ := Option.isSome_iff_exists.1 hattempt
    have hnames := Encoder.names_of_appendAll he'
    refine ⟨hnames, ?_⟩
    by_contra hnot
    have hnone := h.not_appendAll hnames (itemsOf_pieces hnames) (tells_256 env)
      (Bool.eq_false_iff.2 hnot)
    rw [hnone] at he'
    cases he'
  · rintro ⟨hnames, htakes⟩
    obtain ⟨e', he', -⟩ := h.appendAll hnames (itemsOf_pieces hnames) htakes
    rw [he']
    rfl

theorem encode_isSome_iff (env : Env) (content : List UInt8) {skip : Wbuf F → Bool}
    {ws : List (Wbuf F)} :
    (encode env (.bufFile content 256) (itemsOf ops t skip ws)).isSome = true ↔
      Written env (itemsOf ops t skip ws) (fileWrites 256 env.lseek (itemsOf ops t skip ws)) :=
  encode_bufFile_isSome_iff content (by norm_num) (tells_256 env) itemsOf_pieces

theorem paramExportTo_of_values {values : List (Wbuf F)} (h : s.values = some values) :
    paramExportTo ops t env onlyUnsaved filter s content =
      let r := exportEntries ops t env (passesOver ops t onlyUnsaved filter s)
        (exportStart env content) values
      if r.1 then
        ((bsonEncoderFini env r.2.1).1, { s with values := some r.2.2 },
          (bsonEncoderFini env r.2.1).2)
      else
        (false, { s with values := some r.2.2 }, r.2.1) := by
  simp only [paramExportTo, h, exportStart]
  split
  · rename_i hr
    simp [hr]
  · rename_i hr
    simp [hr]

theorem encode_isSome_eq (items : List Append) :
    (encode env (.bufFile content 256) items).isSome =
      match appendAll env (exportStart env content) items with
      | none => false
      | some e => (bsonEncoderFini env e).1 := by
  rw [encode, start_bufFile]
  simp only
  cases appendAll env (exportStart env content) items with
  | none => rfl
  | some e =>
      simp only
      rcases bsonEncoderFini env e with ⟨finished, e'⟩
      cases finished <;> rfl

theorem paramExportTo_eq (env : Env) (onlyUnsaved : Bool) (filter : Option (ℕ → Bool))
    (s : Store F) (content : List UInt8) :
    (paramExportTo ops t env onlyUnsaved filter s content).1 =
        (encode env (.bufFile content 256) (exportItemsTo ops t onlyUnsaved filter s)).isSome ∧
      (paramExportTo ops t env onlyUnsaved filter s content).2.1 =
        { s with
          values := s.values.map fun ws => (exportEntries ops t env
            (passesOver ops t onlyUnsaved filter s) (exportStart env content) ws).2.2 } := by
  rw [encode_isSome_eq, exportItemsTo, appendAll_itemsOf]
  cases hvalues : s.values with
  | none =>
      cases s
      cases hvalues
      simp [paramExportTo, exportEntries, exportStart]
  | some values =>
      rw [paramExportTo_of_values hvalues]
      simp only [Option.getD_some, Option.map_some]
      split <;> exact ⟨rfl, rfl⟩

theorem exportEntries_eq_self {skip : Wbuf F → Bool} {e : Encoder} {ws : List (Wbuf F)}
    (h : ∀ k w, ws[k]? = some w → skip w = false → Attempted ops t env skip e ws k →
      w.unsaved = false) :
    (exportEntries ops t env skip e ws).2.2 = ws := by
  apply List.ext_getElem?
  intro k
  rw [exportEntries_getElem?]
  cases hk : ws[k]? with
  | none => rfl
  | some w =>
      rw [Option.map_some, Option.some.injEq]
      split
      · rename_i hattempt
        have hmark := h k w hk hattempt.1 hattempt.2
        cases w
        simp_all [saved]
      · rfl

theorem keepsUnsaved_self (s : Store F) : KeepsUnsaved ops t s s := by
  refine ⟨rfl, fun w hw hmark hskip a ha => ?_⟩
  refine List.mem_filterMap.2 ⟨w, List.mem_filter.2 ⟨hw, ?_⟩, ha⟩
  simp [passesOver, hmark, hskip]

end Failures

/-- An export that fails loses no mark just when no call of `write` fails, or one of those does that
flush the entries before the first marked one. -/
theorem flags_kept_iff (env : Env) (onlyUnsaved : Bool) (filter : Option (ℕ → Bool)) (s : Store F)
    (content : List UInt8) :
    ((paramExportTo ops t env onlyUnsaved filter s content).1 = false →
        KeepsUnsaved ops t s (paramExportTo ops t env onlyUnsaved filter s content).2.1) ↔
      FailsUnmarked ops t env onlyUnsaved filter s := by
  obtain ⟨hresult, hstore⟩ := @paramExportTo_eq F ops t env onlyUnsaved filter s content
  have hencode := @encode_isSome_iff F ops t env content
    (passesOver ops t onlyUnsaved filter s) (s.values.getD [])
  have hattempted := @attempted_iff F ops t env content
    (passesOver ops t onlyUnsaved filter s) (s.values.getD [])
  simp only [FailsUnmarked, exportItemsTo, ← hencode, ← hattempted] at hresult ⊢
  rw [hresult, hstore]
  cases (encode env (.bufFile content 256)
      (itemsOf ops t (passesOver ops t onlyUnsaved filter s) (s.values.getD []))).isSome with
  | true => simp
  | false =>
      simp only [forall_const, Bool.false_eq_true, false_or]
      constructor
      · intro hkeeps k w hk hskip hmark hattempt
        have hflags := congrArg (fun flags => flags[k]?) hkeeps.flags
        cases hvalues : s.values with
        | none => simp [hvalues] at hk
        | some ws =>
            simp only [hvalues, Option.getD_some] at hk hattempt
            simp only [Store.unsavedFlags, hvalues, Option.map_some, Option.getD_some,
              List.getElem?_map, exportEntries_getElem?, hk, hskip, hattempt, and_self, if_true,
              Option.some.injEq, Prod.mk.injEq] at hflags
            exact absurd (hflags.2.trans hmark) Bool.false_ne_true
      · intro hunmarked
        have hsame : ({ s with
            values := s.values.map fun ws => (exportEntries ops t env
              (passesOver ops t onlyUnsaved filter s) (exportStart env content) ws).2.2 } :
              Store F) = s := by
          cases hvalues : s.values with
          | none =>
              rw [Option.map_none, ← hvalues]
          | some ws =>
              rw [hvalues, Option.getD_some] at hunmarked
              have hself : (exportEntries ops t env (passesOver ops t onlyUnsaved filter s)
                  (exportStart env content) ws).2.2 = ws :=
                exportEntries_eq_self fun k w hk hskip hattempt =>
                  Bool.eq_false_iff.2 fun hmark => hunmarked k w hk hskip hmark hattempt
              rw [Option.map_some, hself, ← hvalues]
        rw [hsame]
        exact keepsUnsaved_self s

/-- A store in which `MC` was set to 24, and not saved since. -/
def oneUnsaved : Store Unit :=
  (paramSet oneFloatOps oneIntTable (Store.initial Unit) 0 ⟨24, ()⟩).2

/-- No write to the file succeeds. -/
def fullDisk : Env where
  write := fun _ _ => none
  lseek := true
  realloc := fun _ => true

/-- The last write fails, and the mark is gone. -/
theorem flags_lost :
    ¬((paramExportTo oneFloatOps oneIntTable fullDisk false none oneUnsaved []).1 = false →
      KeepsUnsaved oneFloatOps oneIntTable oneUnsaved
        (paramExportTo oneFloatOps oneIntTable fullDisk false none oneUnsaved []).2.1) := by
  intro hkeeps
  have hfails : (paramExportTo oneFloatOps oneIntTable fullDisk false none oneUnsaved []).1 =
      false := by
    decide +kernel
  have hflags := (hkeeps hfails).flags
  exact absurd hflags (by decide +kernel)

end Params
end DtPhm
