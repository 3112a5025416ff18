import DtPhm.Bson.Encoder
import DtPhm.Lib.Keyed

/-!
# Store — the parameter store of `parameters.cpp`

The known parameters are a generated table, sorted by name.  What was set is kept in an array sorted
by parameter, next to one bit for each parameter; runtime defaults are kept the same way.  Locks,
performance counters, notifications and the scheduling of autosaves are left out.
-/

namespace DtPhm
namespace Params

open Lib Bson

/-! ## The data -/

/-- `union param_value_u`, both members; only the one of the parameter's type is ever read. -/
structure ParamValue (F : Type) where
  i : BitVec 32
  f : F

/-- `param_type_t`. -/
inductive ParamType where
  | int32 | float
  deriving DecidableEq, Repr

/-- The operations on floats that the code uses; doubles are given by their bits. -/
structure FloatOps (F : Type) where
  zero : F
  /-- `(double)x` -/
  widen : F → BitVec 64
  /-- `(float)x` -/
  narrow : BitVec 64 → F
  /-- `fabsf(x - y) <= FLT_EPSILON` -/
  within : F → F → Bool
  /-- `fabsf(x - y) < FLT_EPSILON` -/
  below : F → F → Bool

/-- A row of the generated table: name, type and static default. -/
structure ParamInfo (F : Type) where
  name : CString
  type : ParamType
  val : ParamValue F

/-- The generated table; its generator sorts the parameters by name, and a `param_t` has 16 bits. -/
structure Table (F : Type) where
  infos : List (ParamInfo F)
  sorted : infos.Pairwise fun a b => a.name.chars < b.name.chars
  count_lt : infos.length < 2 ^ 16

/-- `param_wbuf_s`. -/
structure Wbuf (F : Type) where
  val : ParamValue F
  param : ℕ
  unsaved : Bool

/-- The two arrays (`none` for a null pointer) and their bit sets. -/
structure Store (F : Type) where
  values : Option (List (Wbuf F))
  changed : ℕ → Bool
  customDefaultValues : Option (List (Wbuf F))
  customDefault : ℕ → Bool

/-- The store at startup. -/
def Store.initial (F : Type) : Store F where
  values := none
  changed := fun _ => false
  customDefaultValues := none
  customDefault := fun _ => false

variable {F : Type} (ops : FloatOps F) (t : Table F)

/-! ## Lookup -/

/-- `param_info_count`. -/
def Table.count : ℕ := t.infos.length

def handleInRange (param : ℕ) : Bool := param < t.count

/-- `strcmp`: the bytes compare as unsigned numbers. -/
def strcmp (s₁ s₂ : List UInt8) : Ordering :=
  if s₁ = s₂ then .eq else if s₁ < s₂ then .lt else .gt

/-- `param_find_internal`; the search stays below `param_info_count`. -/
def paramFindInternal (name : List UInt8) : Option ℕ :=
  bisect (fun middle => strcmp name ((t.infos[middle]?).elim [] fun info => info.name.chars)) 0
    t.count

def paramType (param : ℕ) : Option ParamType := (t.infos[param]?).map ParamInfo.type

/-- `utarray_find` with `param_compare_values`. -/
def findParam (param : ℕ) (values : List (Wbuf F)) : Option (Wbuf F) :=
  findKey Wbuf.param param values

def paramFindChanged (s : Store F) (param : ℕ) : Option (Wbuf F) :=
  match s.values with
  | some values => if s.changed param then findParam param values else none
  | none => none

/-- The default in force: a runtime default, otherwise the static one. -/
def defaultValue (s : Store F) (param : ℕ) : Option (ParamValue F) :=
  let static := (t.infos[param]?).map ParamInfo.val
  match s.customDefaultValues with
  | some values =>
      if s.customDefault param then
        match findParam param values with
        | some w => some w.val
        | none => static
      else static
  | none => static

/-- `param_get_value_ptr`, and so `param_get`. -/
def paramGet (s : Store F) (param : ℕ) : Option (ParamValue F) :=
  if handleInRange t param then
    match paramFindChanged s param with
    | some w => some w.val
    | none => defaultValue t s param
  else none

def paramGetDefaultValueInternal (s : Store F) (param : ℕ) : Option (ParamValue F) :=
  if handleInRange t param then defaultValue t s param else none

def paramValueUnsaved (s : Store F) (param : ℕ) : Bool :=
  match paramFindChanged s param with
  | some w => w.unsaved
  | none => false

/-! ## Changes -/

/-- The member of the parameter's type is assigned. -/
def ParamValue.assign (type : ParamType) (old new : ParamValue F) : ParamValue F :=
  match type with
  | .int32 => { old with i := new.i }
  | .float => { old with f := new.f }

/-- `param_wbuf_s buf{}` for this parameter. -/
def freshWbuf (param : ℕ) : Wbuf F where
  val := { i := 0, f := ops.zero }
  param := param
  unsaved := false

/-- The array with an entry for this parameter, a new one if there is none. -/
def withEntry (param : ℕ) (present : Bool) (values : List (Wbuf F)) : List (Wbuf F) :=
  if present then values else pushSort Wbuf.param (freshWbuf ops param) values

/-- Create the array of values if it doesn't exist. -/
def Store.createValues (s : Store F) : Store F :=
  match s.values with
  | none => { s with values := some [], changed := fun _ => false }
  | some _ => s

/-- Create the array of runtime defaults if it doesn't exist. -/
def Store.createCustomDefaults (s : Store F) : Store F :=
  match s.customDefaultValues with
  | none => { s with customDefaultValues := some [], customDefault := fun _ => false }
  | some _ => s

def paramSetInternal (s : Store F) (param : ℕ) (val : ParamValue F) (markSaved : Bool) :
    Bool × Store F :=
  match paramType t param with
  | none => (false, s)
  | some type =>
      let s := s.createValues
      let present := (paramFindChanged s param).isSome
      let values := withEntry ops param present (s.values.getD [])
      (true, { s with
        values := some (modifyKey Wbuf.param param
          (fun w => { w with val := w.val.assign type val, unsaved := !markSaved }) values)
        changed := Function.update s.changed param true })

def paramSet (s : Store F) (param : ℕ) (val : ParamValue F) : Bool × Store F :=
  paramSetInternal ops t s param val false

/-- Whether a runtime default would be the static one. -/
def isStaticDefault (info : ParamInfo F) (val : ParamValue F) : Bool :=
  match info.type with
  | .int32 => info.val.i == val.i
  | .float => ops.below info.val.f val.f

def paramSetDefaultValue (s : Store F) (param : ℕ) (val : ParamValue F) : Bool × Store F :=
  match t.infos[param]? with
  | none => (false, s)
  | some info =>
      let s := s.createCustomDefaults
      let values := s.customDefaultValues.getD []
      let present := (findParam param values).isSome
      if isStaticDefault ops info val then
        (true, { s with
          customDefaultValues := some (if present then eraseKey Wbuf.param param values else values)
          customDefault := Function.update s.customDefault param false })
      else
        (true, { s with
          customDefaultValues := some (modifyKey Wbuf.param param
            (fun w => { w with val := w.val.assign info.type val })
            (withEntry ops param present values))
          customDefault := Function.update s.customDefault param true })

def paramReset (s : Store F) (param : ℕ) : Bool × Store F :=
  if handleInRange t param then
    let values := match paramFindChanged s param with
      | some _ => s.values.map (eraseKey Wbuf.param param)
      | none => s.values
    (true, { s with values := values, changed := Function.update s.changed param false })
  else (false, s)

def paramResetAllInternal (s : Store F) : Store F :=
  match s.values with
  | some _ => { s with values := none, changed := fun _ => false }
  | none => s

/-- The calls that change the store. -/
inductive Op (F : Type) where
  | set (param : ℕ) (val : ParamValue F)
  | reset (param : ℕ)
  | setDefaultValue (param : ℕ) (val : ParamValue F)

def Op.run (s : Store F) : Op F → Store F
  | set param val => (paramSet ops t s param val).2
  | reset param => (paramReset t s param).2
  | setDefaultValue param val => (paramSetDefaultValue ops t s param val).2

/-! ## The invariant of the arrays -/

variable {ops t}

/-- An array and its bits: sorted, with an entry for exactly the parameters whose bit is set, all of
them known parameters. -/
structure Kept (t : Table F) (values : Option (List (Wbuf F))) (bits : ℕ → Bool) : Prop where
  sorted : KeySorted Wbuf.param (values.getD [])
  bits : ∀ param, bits param = (findParam param (values.getD [])).isSome
  range : ∀ param, (findParam param (values.getD [])).isSome → param < t.count

theorem kept_empty {values : Option (List (Wbuf F))} {bits : ℕ → Bool} (h : values.getD [] = [])
    (hbits : ∀ param, bits param = false) : Kept t values bits := by
  refine ⟨by simp [h, KeySorted], ?_, by simp [h, findParam, findKey]⟩
  intro param
  simp [h, hbits param, findParam, findKey]

theorem Kept.find_of_bit {values : Option (List (Wbuf F))} {bits : ℕ → Bool}
    (h : Kept t values bits) (param : ℕ) :
    (if bits param then findParam param (values.getD []) else none) =
      findParam param (values.getD []) := by
  split
  · rfl
  · rename_i hbit
    rw [h.bits param] at hbit
    symm
    simpa using hbit

theorem findParam_withEntry (ops : FloatOps F) {values : List (Wbuf F)}
    (h : KeySorted Wbuf.param values) (param q : ℕ) :
    KeySorted Wbuf.param (withEntry ops param (findParam param values).isSome values) ∧
      findParam q (withEntry ops param (findParam param values).isSome values) =
        if q = param then some ((findParam param values).getD (freshWbuf ops param))
        else findParam q values := by
  unfold withEntry
  cases hfind : findParam param values with
  | some w =>
      refine ⟨h, ?_⟩
      simp only [Option.isSome_some, if_true, Option.getD_some]
      split
      · rename_i hq
        rw [hq, hfind]
      · rfl
  | none =>
      -- pushed at the end, and sorted into its place
      have hnew : ∀ w ∈ values, w.param ≠ (freshWbuf ops param).param := findKey_eq_none.1 hfind
      exact ⟨keySorted_pushSort h hnew, findKey_pushSort h hnew q⟩

theorem Kept.assign {values : Option (List (Wbuf F))} {bits : ℕ → Bool} (h : Kept t values bits)
    (ops : FloatOps F) {param : ℕ} (hparam : param < t.count) {f : Wbuf F → Wbuf F}
    (hf : ∀ w, (f w).param = w.param)
    {values' : List (Wbuf F)}
    (hvalues' : values' = modifyKey Wbuf.param param f (withEntry ops param
      (findParam param (values.getD [])).isSome (values.getD []))) :
    Kept t (some values') (Function.update bits param true) ∧
      ∀ q, findParam q values' =
        if q = param then
          some (f ((findParam param (values.getD [])).getD (freshWbuf ops param)))
        else findParam q (values.getD []) := by
  -- first the entry is there, then its value is written
  have hentry := fun q => findParam_withEntry ops h.sorted param q
  have hfind : ∀ q, findParam q values' =
      if q = param then some (f ((findParam param (values.getD [])).getD (freshWbuf ops param)))
      else findParam q (values.getD []) := by
    intro q
    rw [hvalues', findParam, findKey_modifyKey hf]
    have := (hentry q).2
    unfold findParam at this ⊢
    rw [this]
    split <;> simp
  refine ⟨⟨?_, ?_, ?_⟩, hfind⟩
  · rw [hvalues']
    exact keySorted_modifyKey (hentry param).1 param hf
  · intro q
    rw [Option.getD_some, hfind q]
    by_cases hq : q = param
    · simp [hq]
    · simp [hq, h.bits q]
  · intro q
    rw [Option.getD_some, hfind q]
    split
    · rename_i hq
      intro _
      omega
    · exact h.range q

theorem Kept.erase {values : Option (List (Wbuf F))} {bits : ℕ → Bool} (h : Kept t values bits)
    (param : ℕ) {values' : Option (List (Wbuf F))}
    (hvalues' : ∀ q, findParam q (values'.getD []) =
      if q = param then none else findParam q (values.getD []))
    (hsorted : KeySorted Wbuf.param (values'.getD [])) :
    Kept t values' (Function.update bits param false) := by
  refine ⟨hsorted, ?_, ?_⟩
  · intro q
    rw [hvalues' q]
    by_cases hq : q = param
    · simp [hq]
    · simp [hq, h.bits q]
  · intro q
    rw [hvalues' q]
    split
    · simp
    · exact h.range q

/-- The invariant of the store: both arrays are kept. -/
structure Store.Inv (t : Table F) (s : Store F) : Prop where
  values : Kept t s.values s.changed
  custom : Kept t s.customDefaultValues s.customDefault

theorem Store.inv_initial (t : Table F) : (Store.initial F).Inv t :=
  ⟨kept_empty rfl fun _ => rfl, kept_empty rfl fun _ => rfl⟩

theorem Store.Inv.findChanged {s : Store F} (h : s.Inv t) (param : ℕ) :
    paramFindChanged s param = findParam param (s.values.getD []) := by
  have hbit := h.values.find_of_bit param
  unfold paramFindChanged
  cases hvalues : s.values with
  | none => rfl
  | some values => simpa [hvalues] using hbit

theorem paramType_eq_some {param : ℕ} {type : ParamType} (h : paramType t param = some type) :
    param < t.count := by
  unfold paramType at h
  rcases Option.map_eq_some_iff.1 h with ⟨info, hinfo, _⟩
  exact (List.getElem?_eq_some_iff.1 hinfo).1

theorem Store.Inv.createValues {s : Store F} (h : s.Inv t) :
    s.createValues.Inv t ∧ s.createValues.values.getD [] = s.values.getD [] := by
  unfold Store.createValues
  cases hvalues : s.values with
  -- a new array comes with cleared bits
  | none => exact ⟨⟨kept_empty rfl fun _ => rfl, h.custom⟩, rfl⟩
  | some values => exact ⟨h, by simp [hvalues]⟩

theorem Store.Inv.createCustomDefaults {s : Store F} (h : s.Inv t) :
    s.createCustomDefaults.Inv t ∧
      s.createCustomDefaults.customDefaultValues.getD [] = s.customDefaultValues.getD [] := by
  unfold Store.createCustomDefaults
  cases hvalues : s.customDefaultValues with
  | none => exact ⟨⟨h.values, kept_empty rfl fun _ => rfl⟩, rfl⟩
  | some values => exact ⟨h, by simp [hvalues]⟩

theorem Store.createValues_custom (s : Store F) :
    s.createValues.customDefaultValues = s.customDefaultValues ∧
      s.createValues.customDefault = s.customDefault := by
  unfold Store.createValues
  split <;> exact ⟨rfl, rfl⟩

theorem param_of_findParam {values : List (Wbuf F)} {param : ℕ} {w : Wbuf F}
    (h : findParam param values = some w) : w.param = param := by
  simpa using List.find?_some h

/-- What setting a parameter does: it has an entry with the value and the mark, and nothing else
changes. -/
theorem Store.Inv.set {s s' : Store F} (h : s.Inv t) (ops : FloatOps F) {param : ℕ}
    {type : ParamType} (val : ParamValue F) (markSaved : Bool)
    (htype : paramType t param = some type)
    (hset : (paramSetInternal ops t s param val markSaved).2 = s') :
    s'.Inv t ∧ s'.customDefaultValues = s.customDefaultValues ∧
      s'.customDefault = s.customDefault ∧
      (∃ old, findParam param (s'.values.getD []) =
        some { val := ParamValue.assign type old val, param := param, unsaved := !markSaved }) ∧
      ∀ q, q ≠ param → findParam q (s'.values.getD []) = findParam q (s.values.getD []) := by
  rcases h.createValues with ⟨h₁, hsame⟩
  rcases s.createValues_custom with ⟨hcustom, hdefault⟩
  rcases h₁.values.assign ops (paramType_eq_some htype)
    (f := fun w => { w with val := w.val.assign type val, unsaved := !markSaved })
    (fun _ => rfl) rfl
    with ⟨hkept, hfind⟩
  simp only [paramSetInternal, htype, h₁.findChanged] at hset
  subst hset
  refine ⟨⟨hkept, h₁.custom⟩, hcustom, hdefault, ?_, ?_⟩
  -- the entry carries the parameter, whether it is new or was there
  · have hparam : ((findParam param (s.createValues.values.getD [])).getD
        (freshWbuf ops param)).param = param := by
      cases hold : findParam param (s.createValues.values.getD []) with
      | none => rfl
      | some w => exact param_of_findParam hold
    have hentry := hfind param
    rw [if_pos rfl, hparam] at hentry
    exact ⟨_, hentry⟩
  · intro q hq
    rw [← hsame]
    exact (hfind q).trans (if_neg hq)

theorem Store.Inv.findParam_reset {s : Store F} (h : s.Inv t) {param : ℕ}
    (hparam : param < t.count) :
    KeySorted Wbuf.param ((paramReset t s param).2.values.getD []) ∧
      ∀ q, findParam q ((paramReset t s param).2.values.getD []) =
        if q = param then none else findParam q (s.values.getD []) := by
  have hrange : handleInRange t param = true := decide_eq_true hparam
  have hchanged := h.findChanged param
  unfold paramReset
  rw [if_pos hrange]
  cases hfind : paramFindChanged s param with
  | none =>
      -- there is no entry: only the bit is cleared
      refine ⟨h.values.sorted, ?_⟩
      intro q
      dsimp only
      split
      · rename_i hq
        rw [hq, ← hchanged, hfind]
      · rfl
  | some w =>
      cases hvalues : s.values with
      | none => simp [paramFindChanged, hvalues] at hfind
      | some values =>
          have hsorted : KeySorted Wbuf.param values := by
            simpa [hvalues] using h.values.sorted
          exact ⟨keySorted_eraseKey hsorted param, findKey_eraseKey hsorted param⟩

theorem Store.Inv.reset {s : Store F} (h : s.Inv t) (param : ℕ) :
    (paramReset t s param).2.Inv t := by
  by_cases hparam : param < t.count
  · obtain ⟨hsorted, hfind⟩ := h.findParam_reset hparam
    have hrange : handleInRange t param = true := decide_eq_true hparam
    have hbits : (paramReset t s param).2.changed = Function.update s.changed param false := by
      rw [paramReset, if_pos hrange]
    have hcustom : Kept t (paramReset t s param).2.customDefaultValues
        (paramReset t s param).2.customDefault := by
      rw [paramReset, if_pos hrange]
      exact h.custom
    refine ⟨?_, hcustom⟩
    rw [hbits]
    exact h.values.erase param hfind hsorted
  · have hsame : (paramReset t s param).2 = s := by
      simp [paramReset, handleInRange, hparam]
    rw [hsame]
    exact h

theorem Store.Inv.setDefaultValue {s : Store F} (h : s.Inv t) (param : ℕ) (val : ParamValue F) :
    (paramSetDefaultValue ops t s param val).2.Inv t := by
  unfold paramSetDefaultValue
  split
  · exact h
  · rename_i info hinfo
    rcases h.createCustomDefaults with ⟨h₁, _⟩
    have hparam : param < t.count := (List.getElem?_eq_some_iff.1 hinfo).1
    dsimp only
    split
    -- the firmware default needs no entry of its own
    · refine ⟨h₁.values, h₁.custom.erase param ?_ ?_⟩
      · intro q
        have herase := findKey_eraseKey h₁.custom.sorted param q
        cases hfind : findParam param (s.createCustomDefaults.customDefaultValues.getD []) with
        | none =>
            simp only [Option.isSome_none, Bool.false_eq_true, if_false, Option.getD_some]
            split
            · rename_i hq
              rw [hq]
              exact hfind
            · rfl
        | some w => simpa [findParam] using herase
      · split
        · exact keySorted_eraseKey h₁.custom.sorted param
        · exact h₁.custom.sorted
    · refine ⟨h₁.values, (h₁.custom.assign ops hparam
        (f := fun w => { w with val := w.val.assign info.type val }) (fun _ => rfl) rfl).1⟩

/-- Forgetting all values leaves a store without entries and with the same defaults. -/
theorem Store.Inv.resetAll {s : Store F} (h : s.Inv t) {values : Option (List (Wbuf F))}
    (hvalues : values.isSome = s.values.isSome) {s' : Store F}
    (hs' : paramResetAllInternal { s with values := values } = s') :
    s'.Inv t ∧ s'.values = none ∧ s'.customDefaultValues = s.customDefaultValues ∧
      s'.customDefault = s.customDefault := by
  subst hs'
  cases hcase : values with
  | some ws => exact ⟨⟨kept_empty rfl fun _ => rfl, h.custom⟩, rfl, rfl, rfl⟩
  | none =>
      have hnone : s.values = none := by
        rw [hcase] at hvalues
        exact Option.not_isSome_iff_eq_none.1 (by rw [← hvalues]; simp)
      have hkept := h.values
      rw [hnone] at hkept
      exact ⟨⟨hkept, h.custom⟩, rfl, rfl, rfl⟩

theorem Store.Inv.run {s : Store F} (h : s.Inv t) (calls : List (Op F)) :
    (calls.foldl (Op.run ops t) s).Inv t := by
  induction calls generalizing s with
  | nil => exact h
  | cons op calls ih =>
      refine ih ?_
      cases op with
      | set param val =>
          cases htype : paramType t param with
          | none =>
              have : (Op.set param val).run ops t s = s := by
                simp [Op.run, paramSet, paramSetInternal, htype]
              rw [this]
              exact h
          | some type => exact (h.set ops _ _ htype rfl).1
      | reset param => exact h.reset param
      | setDefaultValue param val => exact h.setDefaultValue param val

end Params
end DtPhm
