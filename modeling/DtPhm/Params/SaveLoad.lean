import DtPhm.Params.Persist

/-!
# SaveLoad — loading what was saved leaves the effective values as they were

The export writes one append for each value that is not skipped; the import sets exactly these again
in a store without values.  What was skipped falls back to its default, which it was equal to, or
within an epsilon of.
-/

namespace DtPhm
namespace Params

open Lib Bson

variable {F : Type} {ops : FloatOps F} {t : Table F}

/-! ## Finding a parameter by its name -/

theorem paramFindInternal_name {param : ℕ} {info : ParamInfo F} (h : t.infos[param]? = some info) :
    paramFindInternal t info.name.chars = some param := by
  rcases List.getElem?_eq_some_iff.1 h with ⟨hlt, hinfo⟩
  have hsorted := List.pairwise_iff_getElem.1 t.sorted
  refine bisect_eq_some ?_ ?_ ?_ (Nat.zero_le _) hlt
  · simp [h, strcmp]
  · intro i hpi hcount
    have hi : i < t.infos.length := hcount
    have hless : info.name.chars < t.infos[i].name.chars := by
      rw [← hinfo]
      exact hsorted param i hlt hi hpi
    have hne : info.name.chars ≠ t.infos[i].name.chars := by
      intro heq
      rw [heq] at hless
      exact List.lt_irrefl _ hless
    simp [List.getElem?_eq_getElem hi, strcmp, hne, hless]
  · intro i hi
    have hi' : i < t.infos.length := by omega
    have hless : t.infos[i].name.chars < info.name.chars := by
      rw [← hinfo]
      exact hsorted i param hi' hlt hi
    have hne : info.name.chars ≠ t.infos[i].name.chars := by
      intro heq
      rw [heq] at hless
      exact List.lt_irrefl _ hless
    simp [List.getElem?_eq_getElem hi', strcmp, hne, List.lt_asymm hless]

/-! ## The export -/

/-- The entries that are exported. -/
def exported (ops : FloatOps F) (t : Table F) (s : Store F) : List (Wbuf F) :=
  (s.values.getD []).filter fun w => !skipsExport ops t s w

/-- The appends of an export. -/
def exportItems (ops : FloatOps F) (t : Table F) (s : Store F) : List Append :=
  (exported ops t s).filterMap (exportAppend ops t)

theorem exportLoop_of_appendAll {env : Env} {s : Store F} {e e' : Encoder} {ws : List (Wbuf F)}
    (h : appendAll env e ((ws.filter fun w => !skipsExport ops t s w).filterMap
      (exportAppend ops t)) = some e') :
    ∃ ws', exportLoop ops t env s e ws = (true, e', ws') := by
  induction ws generalizing e with
  | nil =>
      simp only [List.filter_nil, List.filterMap_nil, appendAll, Option.some.injEq] at h
      exact ⟨[], by simp [exportLoop, h]⟩
  | cons w ws ih =>
      by_cases hskip : skipsExport ops t s w
      · rw [List.filter_cons_of_neg (by simp [hskip])] at h
        rcases ih h with ⟨ws', hws'⟩
        exact ⟨w :: ws', by simp [exportLoop, hskip, hws']⟩
      · rw [List.filter_cons_of_pos (by simp [hskip])] at h
        cases happend : exportAppend ops t w with
        | none =>
            rw [List.filterMap_cons_none happend] at h
            rcases ih h with ⟨ws', hws'⟩
            exact ⟨{ w with unsaved := false } :: ws', by simp [exportLoop, hskip, happend, hws']⟩
        | some a =>
            rw [List.filterMap_cons_some happend] at h
            unfold appendAll at h
            split at h
            · rename_i e₁ ha
              rcases ih h with ⟨ws', hws'⟩
              exact ⟨{ w with unsaved := false } :: ws',
                by simp [exportLoop, hskip, happend, ha, hws']⟩
            · simp at h

/-- A successful encoding of the appends is a successful export; it changes the marks of entries and
nothing else. -/
theorem paramExport_of_encode {env : Env} {s : Store F} {content : List UInt8} {e : Encoder}
    (h : encode env (.bufFile content 256) (exportItems ops t s) = some e) :
    ∃ values, values.isSome = s.values.isSome ∧
      paramExport ops t env s content = (true, { s with values := values }, e) := by
  rcases encode_eq_some.1 h with ⟨e₁, e₂, hstart, happend, hfini⟩
  have hinit : (bsonEncoderInitBufFile env (Disk.opened content) 256).2 = e₁ := by
    have : bsonEncoderInitBufFile env (Disk.opened content) 256 = (true, e₁) := hstart
    rw [this]
  cases hvalues : s.values with
  | none =>
      have hitems : exportItems ops t s = [] := by simp [exportItems, exported, hvalues]
      rw [hitems] at happend
      simp only [appendAll, Option.some.injEq] at happend
      subst happend
      refine ⟨none, rfl, ?_⟩
      simp only [paramExport, hvalues, hinit, hfini]
      rw [← hvalues]
  | some values =>
      have happend' : appendAll env e₁ ((values.filter fun w => !skipsExport ops t s w).filterMap
          (exportAppend ops t)) = some e₂ := by
        simpa [exportItems, exported, hvalues] using happend
      rcases exportLoop_of_appendAll happend' with ⟨ws', hws'⟩
      refine ⟨some ws', rfl, ?_⟩
      simp only [paramExport, hvalues, hinit, hws', hfini]

theorem paramSaveDefault_ok (ops : FloatOps F) (s : Store F) {opens : ℕ → Option Env}
    (hopens : ∀ k, ∃ env, opens k = some env ∧ env.Reliable) (content : List UInt8)
    (hshort : ∀ a ∈ exportItems ops t s, a.name.chars.length ≤ bsonMaxname) :
    ∃ values trailing, values.isSome = s.values.isSome ∧ paramSaveDefault ops t opens s content =
      (true, { s with values := values }, documentOf true (exportItems ops t s) ++ trailing) := by
  rcases hopens 4 with ⟨env, hopen, henv⟩
  have hfit : PiecesFit 256 (exportItems ops t s) := by
    refine ⟨by omega, fun a ha => ?_⟩
    rcases List.mem_filterMap.1 ha with ⟨w, _, hw⟩
    exact exportAppend_pieces hw (hshort a ha)
  rcases Option.isSome_iff_exists.1 (encode_bufFile_isSome henv content hfit hshort) with ⟨e, he⟩
  have hstages : (Target.bufFile content 256).Stages (documentSize (exportItems ops t s)) :=
    Or.inl (by norm_num)
  rcases encode_bufFile_file hstages he with ⟨disk, trailing, hfd, hbytes⟩
  rcases paramExport_of_encode he with ⟨values, hvalues, hexport⟩
  refine ⟨values, trailing, hvalues, ?_⟩
  have hdocument : e.document = documentOf true (exportItems ops t s) := by
    rw [(encode_document hstages he).1]
    simp [Target.records, henv.lseek]
  simp [paramSaveDefault, saveAttempts, hopen, hexport, fileOf, hfd, hbytes, hdocument]

/-! ## The import -/

/-- The value that the import reads off an append. -/
def importedValue (ops : FloatOps F) : Append → ParamValue F
  | .int _ value => { i := value.setWidth 32, f := ops.zero }
  | .double _ value => { i := 0, f := ops.narrow value }
  | _ => { i := 0, f := ops.zero }

/-- What the import does with an append of the export. -/
def importStep (ops : FloatOps F) (t : Table F) (s : Store F) (a : Append) : Store F :=
  match paramFindInternal t a.name.chars with
  | some param => (paramSetInternal ops t s param (importedValue ops a) true).2
  | none => s

theorem setWidth_signExtend (x : BitVec 32) : (x.signExtend 64).setWidth 32 = x := by
  ext i hi
  simp [hi, BitVec.getLsbD_signExtend]
  omega

theorem importSet_ok (s : Store F) {param : ℕ} {type : ParamType}
    (htype : paramType t param = some type) (val : ParamValue F) (markSaved : Bool) :
    importSet ops t markSaved s param val =
      (1, (paramSetInternal ops t s param val markSaved).2) := by
  simp [importSet, paramSetInternal, htype]

/-- The callback sets the parameter of an exported append, and lets the import go on. -/
theorem paramImportCallback_append {translate : Translate F} {s s' : Store F} {a : Append}
    {d : Decoder} {rest : List UInt8} (ha : a ∈ exportItems ops t s')
    (hrewritten : a.name.chars ∉ rewrittenNames) (h : d.At a rest) :
    ∃ d', paramImportCallback ops t translate true s d = (1, importStep ops t s a, d') ∧
      d'.Between rest := by
  rcases List.mem_filterMap.1 ha with ⟨w, _, hw⟩
  rcases h.node with ⟨node, hnode⟩
  unfold exportAppend at hw
  split at hw
  · rename_i info hinfo
    have hfind := paramFindInternal_name hinfo
    have hne : d.node.type ≠ .eoo := by
      rw [hnode, a.fill_type]
      exact a.type_ne_eoo
    -- neither value leaves bytes pending
    have hbetween : a.tail = [] → d.Between rest := by
      intro htail
      have hfed := h.fed
      rw [htail] at hfed
      exact ⟨⟨[], by simp [h.pending, htail], hfed⟩, h.nesting, hne⟩
    cases htype : info.type with
    | int32 =>
        simp only [htype, Option.some.injEq] at hw
        subst hw
        change info.name.chars ∉ rewrittenNames at hrewritten
        have hname : d.node.name = info.name.chars := by rw [hnode, Append.fill_name]; rfl
        have hint : d.node.type = .int32 := by
          rw [hnode, Append.fill_type]
          simp [Append.type, fitsInt32, setWidth_signExtend]
        have hvalue : nodeI d.node = w.val.i.signExtend 64 := by rw [hnode]; rfl
        have hparam : paramType t w.param = some .int32 := by simp [paramType, hinfo, htype]
        refine ⟨d, ?_, hbetween rfl⟩
        simp [paramImportCallback, paramModifyOnImport, hname, hrewritten, hfind, hint, hparam,
          importSet_ok s hparam, hvalue, importStep, Append.name, importedValue]
    | float =>
        simp only [htype, Option.some.injEq] at hw
        subst hw
        change info.name.chars ∉ rewrittenNames at hrewritten
        have hname : d.node.name = info.name.chars := by rw [hnode, Append.fill_name]; rfl
        have hdouble : d.node.type = .double := by rw [hnode, Append.fill_type]; rfl
        have hvalue : nodeD d.node = ops.widen w.val.f := by rw [hnode]; rfl
        have hparam : paramType t w.param = some .float := by simp [paramType, hinfo, htype]
        refine ⟨d, ?_, hbetween rfl⟩
        simp [paramImportCallback, paramModifyOnImport, hname, hrewritten, hfind, hdouble, hparam,
          importSet_ok s hparam, hvalue, importStep, Append.name, importedValue]
  · simp at hw

theorem length_le_body (as : List Append) : as.length ≤ (body as).length := by
  induction as with
  | nil => simp
  | cons a as ih =>
      rw [body_cons, List.length_append, List.length_cons]
      have : 0 < a.bytes.length := by simp [Append.bytes, Append.pieces]
      omega

theorem paramImportInternal_document {translate : Translate F} {s s' : Store F}
    (hnames : ∀ a ∈ exportItems ops t s', a.name.chars.length < bsonMaxname ∧
      a.name.chars ∉ rewrittenNames) (trailing : List UInt8) :
    paramImportInternal ops t translate true (documentOf true (exportItems ops t s') ++ trailing)
      s =
      (true, (exportItems ops t s').foldl (importStep ops t) s) := by
  set items := exportItems ops t s' with hitems
  have hcontent : documentOf true items ++ trailing =
      int32Bytes (BitVec.ofNat 32 (documentSize items)) ++
        (body items ++ (BsonType.eoo.toByte :: trailing)) := by
    simp [documentOf]
  rcases initFile_of_bytes (BitVec.ofNat 32 (documentSize items))
    (body items ++ (BsonType.eoo.toByte :: trailing)) with ⟨d₀, hinit, _, hbetween⟩
  -- the bound on the number of calls leaves room for the nodes and for the end
  have hcalls : ∃ n, (documentOf true items ++ trailing).length + 1 = items.length + (n + 1) := by
    have := length_le_body items
    have hlen : (documentOf true items ++ trailing).length = documentSize items +
        trailing.length := by
      simp
    refine ⟨documentSize items + trailing.length - items.length, ?_⟩
    rw [hlen]
    unfold documentSize
    omega
  rcases hcalls with ⟨n, hn⟩
  have hshort : ∀ a ∈ items, a.name.chars.length < bsonMaxname := fun a ha => (hnames a ha).1
  rcases nextLoop_body (paramImportCallback ops t translate true) s (importStep ops t) (n + 1)
    hshort
    (fun a ha s d rest hat => paramImportCallback_append ha (hnames a ha).2 hat)
    hbetween with ⟨d₁, h₁, hloop⟩
  rcases next_eoo (paramImportCallback ops t translate true)
    (items.foldl (importStep ops t) s) h₁ with ⟨d₂, _, _, htype, _, _, _, hnext⟩
  have hend : paramImportCallback ops t translate true (items.foldl (importStep ops t) s) d₂ =
      (0, items.foldl (importStep ops t) s, d₂) := by
    simp [paramImportCallback, htype]
  have hrun : nextLoop (paramImportCallback ops t translate true)
      ((documentOf true items ++ trailing).length + 1) s d₀ =
        (0, items.foldl (importStep ops t) s, d₂) := by
    rw [hn, hloop, nextLoop, hnext, hend]
    simp
  rw [← hcontent] at hinit
  simp only [paramImportInternal, importAttempts, hinit, hrun, if_true]

/-! ## The store after the import -/

/-- The two values agree in the member that belongs to the type. -/
def ParamValue.Agrees (type : ParamType) (v v' : ParamValue F) : Prop :=
  match type with
  | .int32 => v'.i = v.i
  | .float => v'.f = v.f

theorem importStep_exportAppend (hfloat : ∀ f, ops.narrow (ops.widen f) = f) {s : Store F}
    (h : s.Inv t) {w : Wbuf F} {type : ParamType} (htype : paramType t w.param = some type) :
    ∃ a s', exportAppend ops t w = some a ∧ importStep ops t s a = s' ∧ s'.Inv t ∧
      s'.customDefaultValues = s.customDefaultValues ∧ s'.customDefault = s.customDefault ∧
      (∃ w', findParam w.param (s'.values.getD []) = some w' ∧ w'.unsaved = false ∧
        ParamValue.Agrees type w.val w'.val) ∧
      ∀ q, q ≠ w.param → findParam q (s'.values.getD []) = findParam q (s.values.getD []) := by
  unfold paramType at htype
  rcases Option.map_eq_some_iff.1 htype with ⟨info, hinfo, rfl⟩
  have hfind := paramFindInternal_name hinfo
  cases hcase : info.type with
  | int32 =>
      refine ⟨.int info.name (w.val.i.signExtend 64), _, by simp [exportAppend, hinfo, hcase], rfl,
        ?_⟩
      have hset := h.set ops { i := w.val.i, f := ops.zero } true
        (htype.trans (congrArg some hcase)) rfl
      rcases hset with ⟨hinv, hvalues, hdefault, ⟨old, hold⟩, hother⟩
      simp only [importStep, Append.name, hfind, importedValue, setWidth_signExtend]
      exact ⟨hinv, hvalues, hdefault, ⟨_, hold, rfl, rfl⟩, hother⟩
  | float =>
      refine ⟨.double info.name (ops.widen w.val.f), _, by simp [exportAppend, hinfo, hcase], rfl,
        ?_⟩
      have hset := h.set ops { i := 0, f := w.val.f } true
        (htype.trans (congrArg some hcase)) rfl
      rcases hset with ⟨hinv, hvalues, hdefault, ⟨old, hold⟩, hother⟩
      simp only [importStep, Append.name, hfind, importedValue, hfloat]
      exact ⟨hinv, hvalues, hdefault, ⟨_, hold, rfl, rfl⟩, hother⟩

theorem foldl_importStep (hfloat : ∀ f, ops.narrow (ops.widen f) = f) {s : Store F} (h : s.Inv t)
    {ws : List (Wbuf F)} (hsorted : KeySorted Wbuf.param ws)
    (hrange : ∀ w ∈ ws, ∃ type, paramType t w.param = some type) {s' : Store F}
    (hs' : (ws.filterMap (exportAppend ops t)).foldl (importStep ops t) s = s') :
    s'.Inv t ∧ s'.customDefaultValues = s.customDefaultValues ∧
      s'.customDefault = s.customDefault ∧
      (∀ w ∈ ws, ∀ type, paramType t w.param = some type →
        ∃ w', findParam w.param (s'.values.getD []) = some w' ∧ w'.unsaved = false ∧
          ParamValue.Agrees type w.val w'.val) ∧
      ∀ q, (∀ w ∈ ws, w.param ≠ q) →
        findParam q (s'.values.getD []) = findParam q (s.values.getD []) := by
  induction ws generalizing s with
  | nil =>
      subst hs'
      exact ⟨h, rfl, rfl, by simp, fun _ _ => rfl⟩
  | cons w ws ih =>
      rcases List.pairwise_cons.1 hsorted with ⟨hw, hws⟩
      rcases hrange w (by simp) with ⟨type, htype⟩
      rcases importStep_exportAppend hfloat h htype with
        ⟨a, s₁, ha, hstep, h₁, hvalues₁, hdefault₁, ⟨w', hfind, hsaved, hval⟩, hother⟩
      rw [List.filterMap_cons_some ha, List.foldl_cons, hstep] at hs'
      rcases ih h₁ hws (fun v hv => hrange v (by simp [hv])) hs' with
        ⟨h₂, hvalues₂, hdefault₂, hset, hrest⟩
      refine ⟨h₂, hvalues₂.trans hvalues₁, hdefault₂.trans hdefault₁, ?_, ?_⟩
      · intro v hv type' htype'
        rcases List.mem_cons.1 hv with rfl | hv
        · -- the later entries belong to other parameters
          have hkeep := hrest v.param fun u hu => (hw u hu).ne'
          rw [htype] at htype'
          cases htype'
          exact ⟨w', hkeep.trans hfind, hsaved, hval⟩
        · exact hset v hv type' htype'
      · intro q hq
        rw [hrest q fun v hv => hq v (by simp [hv])]
        exact hother q (hq w (by simp)).symm

/-! ## Effective values -/

theorem Store.Inv.paramGet {s : Store F} (h : s.Inv t) {param : ℕ} (hparam : param < t.count) :
    paramGet t s param =
      match findParam param (s.values.getD []) with
      | some w => some w.val
      | none => defaultValue t s param := by
  cases hfind : findParam param (s.values.getD []) <;>
    simp [Params.paramGet, handleInRange, hparam, h.findChanged, hfind]

theorem defaultValue_isSome (s : Store F) {param : ℕ} (hparam : param < t.count) :
    ∃ v, defaultValue t s param = some v := by
  have hstatic : ∃ v, (t.infos[param]?).map ParamInfo.val = some v := by
    have hlt : param < t.infos.length := hparam
    exact ⟨_, by rw [List.getElem?_eq_getElem hlt]; rfl⟩
  unfold defaultValue
  split
  · split
    · split
      · exact ⟨_, rfl⟩
      · exact hstatic
    · exact hstatic
  · exact hstatic

/-- What a parameter is worth after saving and loading: the same, or for a float its default when it
was within an epsilon of that. -/
def Survives (ops : FloatOps F) (type : ParamType) (dflt v v' : ParamValue F) : Prop :=
  match type with
  | .int32 => v'.i = v.i
  | .float => v'.f = v.f ∨ (ops.within v.f dflt.f ∧ v'.f = dflt.f)

theorem Survives.of_agrees {type : ParamType} {dflt v v' : ParamValue F}
    (h : ParamValue.Agrees type v v') : Survives ops type dflt v v' := by
  cases type with
  | int32 => exact h
  | float => exact Or.inl h

theorem Survives.of_skipsExport {s : Store F} {w : Wbuf F} {type : ParamType} {dflt : ParamValue F}
    (htype : paramType t w.param = some type) (hdflt : defaultValue t s w.param = some dflt)
    (hskip : skipsExport ops t s w) : Survives ops type dflt w.val dflt := by
  have hrange : handleInRange t w.param := by simpa [handleInRange] using paramType_eq_some htype
  cases type with
  | int32 =>
      simp only [skipsExport, htype, paramGetDefaultValueInternal, hrange, if_true, hdflt,
        Option.getD_some, beq_iff_eq] at hskip
      exact hskip.symm
  | float =>
      simp only [skipsExport, htype, paramGetDefaultValueInternal, hrange, if_true, hdflt,
        Option.getD_some] at hskip
      exact Or.inr ⟨hskip, rfl⟩

theorem paramType_of_lt {param : ℕ} (hparam : param < t.count) :
    ∃ type, paramType t param = some type := by
  have hlt : param < t.infos.length := hparam
  exact ⟨_, by rw [paramType, List.getElem?_eq_getElem hlt]; rfl⟩

theorem defaultValue_congr {s s' : Store F}
    (hvalues : s'.customDefaultValues = s.customDefaultValues)
    (hdefault : s'.customDefault = s.customDefault) (param : ℕ) :
    defaultValue t s' param = defaultValue t s param := by
  unfold defaultValue
  rw [hvalues, hdefault]

/-- What a store is worth after its values were forgotten and the exported ones were imported. -/
theorem survives_import (hfloat : ∀ f, ops.narrow (ops.widen f) = f) {s s₀ s₂ : Store F}
    (h : s.Inv t) (h₀ : s₀.Inv t) (hempty : s₀.values = none)
    (hvalues : s₀.customDefaultValues = s.customDefaultValues)
    (hdefault : s₀.customDefault = s.customDefault)
    (hs₂ : (exportItems ops t s).foldl (importStep ops t) s₀ = s₂) {param : ℕ} {type : ParamType}
    (htype : paramType t param = some type) :
    (∃ dflt v v', paramGetDefaultValueInternal t s param = some dflt ∧ paramGet t s param = some v ∧
      paramGet t s₂ param = some v' ∧ Survives ops type dflt v v') ∧
    paramValueUnsaved s₂ param = false := by
  have hsub : (exported ops t s).Sublist (s.values.getD []) := List.filter_sublist
  have hrange : ∀ w ∈ exported ops t s, ∃ type, paramType t w.param = some type := by
    intro w hw
    refine paramType_of_lt (h.values.range w.param ?_)
    rw [findParam, h.values.sorted.findKey_eq_some.2 ⟨hsub.subset hw, rfl⟩]
    rfl
  rcases foldl_importStep hfloat h₀ (h.values.sorted.sublist hsub) hrange hs₂ with
    ⟨h₂, hvalues₂, hdefault₂, hset, hrest⟩
  have hparam := paramType_eq_some htype
  rcases defaultValue_isSome s hparam with ⟨dflt, hdflt⟩
  have hdflt₂ : defaultValue t s₂ param = some dflt := by
    rw [← hdflt]
    exact defaultValue_congr (hvalues₂.trans hvalues) (hdefault₂.trans hdefault) param
  have hinternal : paramGetDefaultValueInternal t s param = some dflt := by
    simpa [paramGetDefaultValueInternal, handleInRange, hparam] using hdflt
  -- an entry of the parameter that was not exported is not there afterwards
  have habsent : (∀ w ∈ exported ops t s, w.param ≠ param) →
      findParam param (s₂.values.getD []) = none := by
    intro hnone
    rw [hrest param hnone, hempty]
    rfl
  have hget := h.paramGet hparam
  have hget₂ := h₂.paramGet hparam
  unfold paramValueUnsaved
  rw [h₂.findChanged]
  cases hfind : findParam param (s.values.getD []) with
  | none =>
      have hnone : ∀ w ∈ exported ops t s, w.param ≠ param := by
        intro w hw
        exact findKey_eq_none.1 hfind w (hsub.subset hw)
      rw [hfind, hdflt] at hget
      rw [habsent hnone, hdflt₂] at hget₂
      rw [habsent hnone]
      refine ⟨⟨dflt, dflt, dflt, hinternal, hget, hget₂, Survives.of_agrees ?_⟩, rfl⟩
      cases type <;> rfl
  | some w =>
      have hmem := h.values.sorted.findKey_eq_some.1 hfind
      rcases hmem with ⟨hmem, rfl⟩
      rw [hfind] at hget
      by_cases hskip : skipsExport ops t s w
      · have hnone : ∀ v ∈ exported ops t s, v.param ≠ w.param := by
          intro v hv hvw
          have hvmem := List.mem_filter.1 hv
          have : v = w := h.values.sorted.key_inj hvmem.1 hmem hvw
          rw [this] at hvmem
          simp [hskip] at hvmem
        rw [habsent hnone, hdflt₂] at hget₂
        rw [habsent hnone]
        exact ⟨⟨dflt, w.val, dflt, hinternal, hget, hget₂,
          Survives.of_skipsExport htype hdflt hskip⟩,
          rfl⟩
      · have hexp : w ∈ exported ops t s := List.mem_filter.2 ⟨hmem, by simp [hskip]⟩
        rcases hset w hexp type htype with ⟨w', hfind', hsaved, hagrees⟩
        rw [hfind'] at hget₂
        rw [hfind']
        exact ⟨⟨dflt, w.val, w'.val, hinternal, hget, hget₂, Survives.of_agrees hagrees⟩, hsaved⟩

/-- Saving and loading is the identity on effective values: from every reachable store, over
whatever the parameter file held before, both succeed; every integer is unchanged, every float is
unchanged or its default when it was within an epsilon of it, and nothing is marked unsaved.  Of the
names only those that are exported matter. -/
theorem save_load_identity (hfloat : ∀ f, ops.narrow (ops.widen f) = f) (translate : Translate F)
    (calls : List (Op F)) (content : List UInt8) {opens : ℕ → Option Env}
    (hopens : ∀ k, ∃ env, opens k = some env ∧ env.Reliable) {s : Store F}
    (hs : calls.foldl (Op.run ops t) (Store.initial F) = s)
    (hnames : ∀ a ∈ exportItems ops t s, a.name.chars.length < bsonMaxname ∧
      a.name.chars ∉ rewrittenNames) :
    ∃ s₁ file s₂, paramSaveDefault ops t opens s content = (true, s₁, file) ∧
      paramLoadDefault ops t translate (some file) s₁ = (0, s₂) ∧
      ∀ param type, paramType t param = some type →
        (∃ dflt v v', paramGetDefaultValueInternal t s param = some dflt ∧
          paramGet t s param = some v ∧ paramGet t s₂ param = some v' ∧
          Survives ops type dflt v v') ∧
        paramValueUnsaved s₂ param = false := by
  have h : s.Inv t := hs ▸ (Store.inv_initial t).run calls
  rcases paramSaveDefault_ok ops s hopens content (fun a ha => (hnames a ha).1.le)
    with ⟨values, trailing, hvalues, hsave⟩
  rcases h.resetAll hvalues rfl with ⟨h₀, hempty, hcustom, hdefault⟩
  refine ⟨{ s with values := values }, _, (exportItems ops t s).foldl (importStep ops t)
    (paramResetAllInternal { s with values := values }), hsave, ?_, ?_⟩
  · simp only [paramLoadDefault, paramLoad, paramImportInternal_document hnames trailing]
  · intro param type htype
    exact survives_import hfloat h h₀ hempty hcustom hdefault rfl htype

/-- Three floats, for a table of two parameters. -/
inductive SmallFloat where
  | zero | half | one
  deriving DecidableEq

/-- Their doubles, by their bits; they are further apart than an epsilon. -/
def smallOps : FloatOps SmallFloat where
  zero := .zero
  widen
    | .zero => 0
    | .half => 0x3fe0000000000000
    | .one => 0x3ff0000000000000
  narrow x :=
    if x = 0x3fe0000000000000 then .half
    else if x = 0x3ff0000000000000 then .one
    else .zero
  within x y := x = y
  below x y := x = y

def smallTable : Table SmallFloat where
  infos :=
    [{ name := ⟨ascii "EKF2_AID_MASK", by decide⟩, type := .int32, val := { i := 1, f := .zero } },
      { name := ⟨ascii "MC_ROLL_P", by decide⟩, type := .float, val := { i := 0, f := .one } }]
  sorted := by decide
  count_lt := by decide

theorem save_load_identity_small :
    ∃ s₁ file s₂,
      paramSaveDefault smallOps smallTable (fun _ => some grantingEnv)
        ((paramSet smallOps smallTable (paramSet smallOps smallTable (Store.initial SmallFloat) 0
          { i := 24, f := .zero }).2 1 { i := 0, f := .half }).2) (List.replicate 100 7) =
            (true, s₁, file) ∧
      paramLoadDefault smallOps smallTable (fun node s => (node, s)) (some file) s₁ = (0, s₂) ∧
      (∃ v, paramGet smallTable s₂ 0 = some v ∧ v.i = 24) ∧
      ∀ param type, paramType smallTable param = some type →
        paramValueUnsaved s₂ param = false := by
  have hfloat : ∀ f, smallOps.narrow (smallOps.widen f) = f := by
    intro f
    cases f <;> decide
  rcases save_load_identity (t := smallTable) hfloat (fun node s => (node, s))
    [.set 0 { i := 24, f := .zero }, .set 1 { i := 0, f := .half }] (List.replicate 100 7)
    (fun _ => ⟨grantingEnv, rfl, grantingEnv_reliable⟩) rfl (by decide) with
    ⟨s₁, file, s₂, hsave, hload, hall⟩
  refine ⟨s₁, file, s₂, hsave, hload, ?_, fun param type htype => (hall param type htype).2⟩
  rcases (hall 0 .int32 rfl).1 with ⟨dflt, v, v', _, hv, hv', hsurvives⟩
  refine ⟨v', hv', ?_⟩
  have hold : v.i = 24 := by
    have : (paramGet smallTable ([Op.set 0 { i := 24, f := SmallFloat.zero },
        .set 1 { i := 0, f := .half }].foldl (Op.run smallOps smallTable)
          (Store.initial SmallFloat)) 0).map ParamValue.i = some 24 := by decide
    rw [hv] at this
    simpa using this
  exact hsurvives.trans hold

end Params
end DtPhm
