import DtPhm.Params.Store
import Mathlib.Data.List.Induction

/-!
# Calls — what any sequence of calls leaves in the parameter store

The calls that change the store are those of `Store`, the resets of all parameters and the resets
by name pattern.  For a parameter a sequence of calls has a meaning of its own, without any arrays:

* `Call.setting` — what a call does to the set value of a parameter;
* `Call.customDefaulting` — what it does to its runtime default;
* `lastSet`, `lastCustomDefault` — what the last call that concerns the parameter left.

`Call.run_refines` ties the store to that meaning for one call, `store_after_calls` for every
sequence.
-/

namespace DtPhm
namespace Params

open Lib Bson

variable {F : Type} (ops : FloatOps F) (t : Table F)

/-! ## Resets by name -/

/-- Whether a name meets a pattern: a final `*` stands for any ending. -/
def matchesPattern (name pattern : List UInt8) : Bool :=
  (pattern.getLast? == some 0x2a &&
      name.take (pattern.length - 1) == pattern.take (pattern.length - 1)) ||
    name == pattern

/-- Whether the name of a parameter meets one of the patterns. -/
def named (param : ℕ) (patterns : List CString) : Bool :=
  match t.infos[param]? with
  | none => false
  | some info => patterns.any fun pattern => matchesPattern info.name.chars pattern.chars

/-- The loop over all parameters that resets those that meet the condition. -/
def resetWhere (cond : ℕ → Bool) (s : Store F) : Store F :=
  (List.range t.count).foldl (fun s param => if cond param then (paramReset t s param).2 else s) s

def paramResetExcludes (s : Store F) (excludes : List CString) : Store F :=
  resetWhere t (fun param => !named t param excludes) s

def paramResetSpecific (s : Store F) (resets : List CString) : Store F :=
  resetWhere t (fun param => named t param resets) s

def paramResetAll (s : Store F) : Store F := paramResetAllInternal s

/-! ## The calls -/

/-- The calls that change the store; a null pointer is no value. -/
inductive Call (F : Type) where
  | set (param : ℕ) (val : Option (ParamValue F))
  | setNoNotification (param : ℕ) (val : Option (ParamValue F))
  | reset (param : ℕ)
  | resetAll
  | resetExcludes (excludes : List CString)
  | resetSpecific (resets : List CString)
  | setDefaultValue (param : ℕ) (val : Option (ParamValue F))

/-- `param_set_no_notification` differs from `param_set` in the notification only. -/
def Call.run (s : Store F) : Call F → Store F
  | set _ none => s
  | set param (some val) => (paramSet ops t s param val).2
  | setNoNotification _ none => s
  | setNoNotification param (some val) => (paramSetInternal ops t s param val false).2
  | reset param => (paramReset t s param).2
  | resetAll => paramResetAll s
  | resetExcludes excludes => paramResetExcludes t s excludes
  | resetSpecific resets => paramResetSpecific t s resets
  | setDefaultValue _ none => s
  | setDefaultValue param (some val) => (paramSetDefaultValue ops t s param val).2

/-! ## The meaning of a sequence of calls -/

/-- The member of a value that a parameter of this type has. -/
def ParamValue.member (type : ParamType) (v : ParamValue F) : BitVec 32 ⊕ F :=
  match type with
  | .int32 => .inl v.i
  | .float => .inr v.f

/-- What a call does to the set value of a parameter: nothing (`none`), take it away
(`some none`) or set it. -/
def Call.setting (p : ℕ) : Call F → Option (Option (ParamValue F))
  | set param (some val) => if param = p then some (some val) else none
  | setNoNotification param (some val) => if param = p then some (some val) else none
  | reset param => if param = p then some none else none
  | resetAll => some none
  | resetExcludes excludes => if named t p excludes then none else some none
  | resetSpecific resets => if named t p resets then some none else none
  | _ => none

/-- What a call does to the runtime default of a parameter. -/
def Call.customDefaulting (p : ℕ) : Call F → Option (Option (ParamValue F))
  | setDefaultValue param (some val) =>
      if param = p then
        some (if (t.infos[p]?).any fun info => isStaticDefault ops info val then none else some val)
      else none
  | _ => none

/-- What the last call with an effect left. -/
def lastEffect (effect : Call F → Option (Option (ParamValue F))) (calls : List (Call F)) :
    Option (ParamValue F) :=
  (calls.reverse.findSome? effect).join

/-- The value last set for the parameter since its last reset. -/
def lastSet (calls : List (Call F)) (p : ℕ) : Option (ParamValue F) :=
  lastEffect (Call.setting t p) calls

/-- The last runtime default, unless it was the static one. -/
def lastCustomDefault (calls : List (Call F)) (p : ℕ) : Option (ParamValue F) :=
  lastEffect (Call.customDefaulting ops t p) calls

theorem lastEffect_append (effect : Call F → Option (Option (ParamValue F)))
    (calls : List (Call F)) (c : Call F) :
    lastEffect effect (calls ++ [c]) = (effect c).getD (lastEffect effect calls) := by
  unfold lastEffect
  rw [List.reverse_append, List.reverse_singleton, List.singleton_append, List.findSome?_cons]
  cases effect c with
  | none => rfl
  | some e => rfl

variable {ops t}

/-! ## What each call does to the entries -/

/-- The set value of a parameter, as the store keeps it. -/
def Store.setValue (s : Store F) (p : ℕ) : Option (ParamValue F) :=
  (findParam p (s.values.getD [])).map Wbuf.val

/-- The runtime default of a parameter, as the store keeps it. -/
def Store.customValue (s : Store F) (p : ℕ) : Option (ParamValue F) :=
  (findParam p (s.customDefaultValues.getD [])).map Wbuf.val

theorem ParamValue.member_assign (type : ParamType) (old new : ParamValue F) :
    (ParamValue.assign type old new).member type = new.member type := by
  cases type <;> rfl

theorem Store.Inv.setValue_reset {s : Store F} (h : s.Inv t) {param : ℕ} (hparam : param < t.count)
    (p : ℕ) :
    (paramReset t s param).2.setValue p = if p = param then none else s.setValue p := by
  rw [Store.setValue, (h.findParam_reset hparam).2 p]
  split <;> rfl

theorem paramReset_custom (s : Store F) (param : ℕ) :
    (paramReset t s param).2.customDefaultValues = s.customDefaultValues := by
  unfold paramReset
  split <;> rfl

/-- The loop over a list of parameters takes the entries away that meet the condition. -/
theorem Store.Inv.foldl_reset (cond : ℕ → Bool) {params : List ℕ}
    (hparams : ∀ param ∈ params, param < t.count) {s : Store F} (h : s.Inv t) :
    let s' := params.foldl (fun s param => if cond param then (paramReset t s param).2 else s) s
    s'.Inv t ∧ s'.customDefaultValues = s.customDefaultValues ∧
      ∀ p, s'.setValue p = if p ∈ params ∧ cond p = true then none else s.setValue p := by
  induction params generalizing s with
  | nil => exact ⟨h, rfl, fun p => by simp⟩
  | cons param params ih =>
      have hhead : param < t.count := hparams param (by simp)
      have htail : ∀ q ∈ params, q < t.count := fun q hq => hparams q (by simp [hq])
      by_cases hcond : cond param = true
      · obtain ⟨hinv, hcustom, hvalue⟩ := ih htail (h.reset param)
        simp only [List.foldl_cons, hcond, if_true]
        refine ⟨hinv, hcustom.trans (paramReset_custom s param), ?_⟩
        intro p
        rw [hvalue p, h.setValue_reset hhead p]
        by_cases hp : p = param
        · simp [hp, hcond]
        · simp [hp]
      · obtain ⟨hinv, hcustom, hvalue⟩ := ih htail h
        simp only [List.foldl_cons, if_neg hcond]
        refine ⟨hinv, hcustom, ?_⟩
        intro p
        rw [hvalue p]
        by_cases hp : p = param
        · simp [hp, hcond]
        · simp [hp]

theorem Store.Inv.resetWhere {s : Store F} (h : s.Inv t) (cond : ℕ → Bool) :
    (resetWhere t cond s).Inv t ∧
      (Params.resetWhere t cond s).customDefaultValues = s.customDefaultValues ∧
      ∀ p < t.count, (Params.resetWhere t cond s).setValue p =
        if cond p = true then none else s.setValue p := by
  obtain ⟨hinv, hcustom, hvalue⟩ :=
    Store.Inv.foldl_reset cond (fun q hq => List.mem_range.1 hq) h
  refine ⟨hinv, hcustom, ?_⟩
  intro p hp
  rw [Params.resetWhere, hvalue p]
  simp [List.mem_range.2 hp]

/-- A runtime default makes or changes the entry of one parameter, or takes it away where it is
the static default. -/
theorem Store.Inv.customValue_setDefaultValue {s : Store F} (h : s.Inv t) {param : ℕ}
    {info : ParamInfo F} (hinfo : t.infos[param]? = some info) (val : ParamValue F) :
    let s' := (paramSetDefaultValue ops t s param val).2
    s'.setValue = s.setValue ∧ (∀ p, p ≠ param → s'.customValue p = s.customValue p) ∧
      (s'.customValue param).map (ParamValue.member info.type) =
        (if isStaticDefault ops info val then none else some val).map
          (ParamValue.member info.type) := by
  obtain ⟨h₁, hsame⟩ := h.createCustomDefaults
  have hvalues : s.createCustomDefaults.values = s.values := by
    unfold Store.createCustomDefaults
    split <;> rfl
  have hparam : param < t.count := (List.getElem?_eq_some_iff.1 hinfo).1
  simp only [paramSetDefaultValue, hinfo]
  by_cases hstatic : isStaticDefault ops info val = true
  · have hfind : ∀ p, findParam p
        (if (findParam param (s.createCustomDefaults.customDefaultValues.getD [])).isSome then
          eraseKey Wbuf.param param (s.createCustomDefaults.customDefaultValues.getD [])
        else s.createCustomDefaults.customDefaultValues.getD []) =
        if p = param then none else findParam p (s.customDefaultValues.getD []) := by
      intro p
      rw [← hsame]
      cases hold : findParam param (s.createCustomDefaults.customDefaultValues.getD []) with
      | none =>
          simp only [Option.isSome_none, Bool.false_eq_true, if_false]
          split
          · rename_i hp
            rw [hp, hold]
          · rfl
      | some w =>
          simp only [Option.isSome_some, if_true]
          exact findKey_eraseKey h₁.custom.sorted param p
    simp only [hstatic, if_true]
    refine ⟨?_, ?_, ?_⟩
    · unfold Store.setValue
      simp only [hvalues]
    · intro p hp
      rw [Store.customValue, Option.getD_some, hfind p, if_neg hp]
      rfl
    · rw [Store.customValue, Option.getD_some, hfind param, if_pos rfl]
      rfl
  · obtain ⟨-, hentry⟩ := h₁.custom.assign ops hparam
      (f := fun w => { w with val := w.val.assign info.type val }) (fun _ => rfl) rfl
    simp only [hstatic, Bool.false_eq_true, if_false]
    refine ⟨?_, ?_, ?_⟩
    · unfold Store.setValue
      simp only [hvalues]
    · intro p hp
      rw [Store.customValue, Option.getD_some, hentry p, if_neg hp, hsame]
      rfl
    · rw [Store.customValue, Option.getD_some, hentry param, if_pos rfl]
      simp [ParamValue.member_assign]

/-! ## Refinement -/

/-- The store agrees with the meaning `setting`, `custom` of what was called so far. -/
structure Agrees (t : Table F) (s : Store F) (setting custom : ℕ → Option (ParamValue F)) :
    Prop where
  inv : s.Inv t
  setValue : ∀ p info, t.infos[p]? = some info →
    (s.setValue p).map (ParamValue.member info.type) =
      (setting p).map (ParamValue.member info.type)
  customValue : ∀ p info, t.infos[p]? = some info →
    (s.customValue p).map (ParamValue.member info.type) =
      (custom p).map (ParamValue.member info.type)

theorem Agrees.congr {s : Store F} {setting custom setting' custom' : ℕ → Option (ParamValue F)}
    (h : Agrees t s setting custom) (hset : ∀ p, setting' p = setting p)
    (hcustom : ∀ p, custom' p = custom p) : Agrees t s setting' custom' := by
  have hset' : setting' = setting := funext hset
  have hcustom' : custom' = custom := funext hcustom
  rwa [hset', hcustom']

/-- The set values change as `effect` says, the runtime defaults stay. -/
theorem Agrees.of_set {s s' : Store F} {setting custom : ℕ → Option (ParamValue F)}
    (h : Agrees t s setting custom) (effect : ℕ → Option (Option (ParamValue F))) (hinv : s'.Inv t)
    (hcustom : s'.customDefaultValues = s.customDefaultValues)
    (hvalue : ∀ p info, t.infos[p]? = some info →
      (s'.setValue p).map (ParamValue.member info.type) =
        ((effect p).getD (s.setValue p)).map (ParamValue.member info.type)) :
    Agrees t s' (fun p => (effect p).getD (setting p)) custom := by
  refine ⟨hinv, ?_, ?_⟩
  · intro p info hinfo
    rw [hvalue p info hinfo]
    cases effect p with
    | none => exact h.setValue p info hinfo
    | some e => rfl
  · intro p info hinfo
    rw [Store.customValue, hcustom]
    exact h.customValue p info hinfo

theorem Agrees.set {s : Store F} {setting custom : ℕ → Option (ParamValue F)}
    (h : Agrees t s setting custom) (ops : FloatOps F) (param : ℕ) (val : ParamValue F) :
    Agrees t (paramSetInternal ops t s param val false).2
      (fun p => (if param = p then some (some val) else none).getD (setting p)) custom := by
  cases htype : paramType t param with
  | none =>
      -- not a parameter: nothing happens, and no row of the table is concerned
      have hsame : (paramSetInternal ops t s param val false).2 = s := by
        simp [paramSetInternal, htype]
      rw [hsame]
      refine h.of_set _ h.inv rfl ?_
      intro p info hinfo
      have hne : param ≠ p := by
        rintro rfl
        simp [paramType, hinfo] at htype
      simp [hne]
  | some type =>
      obtain ⟨hinv, hcustom, -, ⟨old, hentry⟩, hother⟩ := h.inv.set ops val false htype rfl
      refine h.of_set _ hinv hcustom ?_
      intro p info hinfo
      by_cases hp : param = p
      · subst hp
        have htype' : info.type = type := by
          simpa [paramType, hinfo] using htype
        rw [Store.setValue, hentry]
        simp [htype', ParamValue.member_assign]
      · rw [Store.setValue, hother p (Ne.symm hp)]
        simp [hp, Store.setValue]

theorem Agrees.reset {s : Store F} {setting custom : ℕ → Option (ParamValue F)}
    (h : Agrees t s setting custom) (param : ℕ) :
    Agrees t (paramReset t s param).2
      (fun p => (if param = p then some none else none).getD (setting p)) custom := by
  refine h.of_set _ (h.inv.reset param) (paramReset_custom s param) ?_
  intro p info hinfo
  have hp : p < t.count := (List.getElem?_eq_some_iff.1 hinfo).1
  by_cases hparam : param < t.count
  · rw [h.inv.setValue_reset hparam p]
    by_cases heq : param = p
    · simp [heq]
    · simp [heq, Ne.symm heq]
  · have hsame : (paramReset t s param).2 = s := by
      simp [paramReset, handleInRange, hparam]
    have hne : param ≠ p := by
      rintro rfl
      exact hparam hp
    simp [hsame, hne]

theorem Agrees.resetWhere {s : Store F} {setting custom : ℕ → Option (ParamValue F)}
    (h : Agrees t s setting custom) (cond : ℕ → Bool) :
    Agrees t (resetWhere t cond s)
      (fun p => (if cond p then some none else none).getD (setting p)) custom := by
  obtain ⟨hinv, hcustom, hvalue⟩ := h.inv.resetWhere cond
  refine h.of_set _ hinv hcustom ?_
  intro p info hinfo
  rw [hvalue p (List.getElem?_eq_some_iff.1 hinfo).1]
  by_cases hp : cond p = true
  · simp [hp]
  · simp [hp]

theorem Agrees.setDefaultValue {s : Store F} {setting custom : ℕ → Option (ParamValue F)}
    (h : Agrees t s setting custom) (ops : FloatOps F) (param : ℕ) (val : ParamValue F) :
    Agrees t (paramSetDefaultValue ops t s param val).2 setting
      (fun p => ((Call.setDefaultValue param (some val)).customDefaulting ops t p).getD
        (custom p)) := by
  cases hparam : t.infos[param]? with
  | none =>
      have hsame : (paramSetDefaultValue ops t s param val).2 = s := by
        simp [paramSetDefaultValue, hparam]
      rw [hsame]
      refine ⟨h.inv, h.setValue, ?_⟩
      intro p info hinfo
      have hne : param ≠ p := by
        rintro rfl
        rw [hparam] at hinfo
        cases hinfo
      simpa [Call.customDefaulting, hne] using h.customValue p info hinfo
  | some row =>
      obtain ⟨hset, hother, hentry⟩ := h.inv.customValue_setDefaultValue hparam val
      refine ⟨h.inv.setDefaultValue param val, ?_, ?_⟩
      · intro p info hinfo
        rw [hset]
        exact h.setValue p info hinfo
      · intro p info hinfo
        by_cases hp : param = p
        · subst hp
          cases hparam.symm.trans hinfo
          rw [hentry]
          simp [Call.customDefaulting, hparam]
        · rw [hother p (Ne.symm hp)]
          simpa [Call.customDefaulting, hp] using h.customValue p info hinfo

theorem Agrees.run {s : Store F} {setting custom : ℕ → Option (ParamValue F)}
    (h : Agrees t s setting custom) (ops : FloatOps F) (c : Call F) :
    Agrees t (c.run ops t s) (fun p => (c.setting t p).getD (setting p))
      (fun p => (c.customDefaulting ops t p).getD (custom p)) := by
  cases c with
  | set param val =>
      cases val with
      | none => exact h
      | some val => exact h.set ops param val
  | setNoNotification param val =>
      cases val with
      | none => exact h
      | some val => exact h.set ops param val
  | reset param => exact h.reset param
  | resetAll =>
      obtain ⟨hinv, hnone, hcustom, -⟩ := h.inv.resetAll rfl rfl
      refine h.of_set (fun _ => some none) hinv hcustom ?_
      intro p info _
      show ((findParam p ((paramResetAllInternal s).values.getD [])).map Wbuf.val).map _ = none
      rw [hnone]
      rfl
  | resetExcludes excludes =>
      refine (h.resetWhere fun param => !named t param excludes).congr ?_ fun _ => rfl
      intro p
      cases hnamed : named t p excludes <;> simp [Call.setting, hnamed]
  | resetSpecific resets => exact h.resetWhere fun param => named t param resets
  | setDefaultValue param val =>
      cases val with
      | none => exact h
      | some val => exact h.setDefaultValue ops param val

theorem agrees_calls (ops : FloatOps F) (t : Table F) (calls : List (Call F)) :
    Agrees t (calls.foldl (Call.run ops t) (Store.initial F)) (lastSet t calls)
      (lastCustomDefault ops t calls) := by
  induction calls using List.reverseRecOn with
  | nil => exact ⟨Store.inv_initial t, fun _ _ _ => rfl, fun _ _ _ => rfl⟩
  | append_singleton calls c ih =>
      rw [List.foldl_append, List.foldl_cons, List.foldl_nil]
      refine (ih.run ops c).congr ?_ ?_
      · exact fun p => lastEffect_append _ calls c
      · exact fun p => lastEffect_append _ calls c

/-- Where the invariant holds `param_get` reads the set value, the runtime default or the static
one. -/
theorem Store.Inv.paramGet_eq {s : Store F} (h : s.Inv t) {p : ℕ} {info : ParamInfo F}
    (hinfo : t.infos[p]? = some info) :
    paramGet t s p = some ((s.setValue p).getD ((s.customValue p).getD info.val)) := by
  have hp : handleInRange t p = true := by
    exact decide_eq_true (List.getElem?_eq_some_iff.1 hinfo).1
  have hdefault : defaultValue t s p = some ((s.customValue p).getD info.val) := by
    have hbit := h.custom.find_of_bit p
    unfold defaultValue Store.customValue
    cases hvalues : s.customDefaultValues with
    | none => simp [hinfo, findParam, findKey]
    | some values =>
        rw [hvalues, Option.getD_some] at hbit
        dsimp only
        rw [Option.getD_some, ← hbit]
        split
        · cases hfind : findParam p values <;> simp [hinfo]
        · simp [hinfo]
  rw [paramGet, if_pos hp, h.findChanged p, hdefault, Store.setValue]
  cases findParam p (s.values.getD []) <;> rfl

theorem Kept.bit_iff {values : Option (List (Wbuf F))} {bits : ℕ → Bool} (h : Kept t values bits)
    (p : ℕ) : bits p = true ↔ ∃ w ∈ values.getD [], w.param = p := by
  rw [h.bits p, Option.isSome_iff_exists]
  constructor
  · rintro ⟨w, hw⟩
    exact ⟨w, h.sorted.findKey_eq_some.1 hw⟩
  · rintro ⟨w, hw⟩
    exact ⟨w, h.sorted.findKey_eq_some.2 hw⟩

/-- The parameter store after every sequence of calls: both arrays are sorted with every parameter
at most once, so that the library's binary search finds the entries; the bits stand for exactly the
parameters that have an entry; and a parameter reads as the value last set since its last reset,
else as the last runtime default that was not the static one, else as the static default. -/
theorem store_after_calls (ops : FloatOps F) (t : Table F) (calls : List (Call F)) :
    let s := calls.foldl (Call.run ops t) (Store.initial F)
    KeySorted Wbuf.param (s.values.getD []) ∧
      KeySorted Wbuf.param (s.customDefaultValues.getD []) ∧
      (∀ p, bsearch Wbuf.param p (s.values.getD []) = findParam p (s.values.getD [])) ∧
      (∀ p, bsearch Wbuf.param p (s.customDefaultValues.getD []) =
        findParam p (s.customDefaultValues.getD [])) ∧
      (∀ p, s.changed p = true ↔ ∃ w ∈ s.values.getD [], w.param = p) ∧
      (∀ p, s.customDefault p = true ↔ ∃ w ∈ s.customDefaultValues.getD [], w.param = p) ∧
      ∀ p info, t.infos[p]? = some info →
        (paramGet t s p).map (ParamValue.member info.type) =
          some (((lastSet t calls p).getD
            ((lastCustomDefault ops t calls p).getD info.val)).member info.type) := by
  intro s
  have h : Agrees t s (lastSet t calls) (lastCustomDefault ops t calls) := agrees_calls ops t calls
  refine ⟨h.inv.values.sorted, h.inv.custom.sorted, ?_, ?_, ?_, ?_, ?_⟩
  · exact h.inv.values.sorted.bsearch_eq
  · exact h.inv.custom.sorted.bsearch_eq
  · exact h.inv.values.bit_iff
  · exact h.inv.custom.bit_iff
  · intro p info hinfo
    rw [h.inv.paramGet_eq hinfo, Option.map_some]
    have hset := h.setValue p info hinfo
    have hcustom := h.customValue p info hinfo
    rw [← Option.getD_map (ParamValue.member info.type),
      ← Option.getD_map (ParamValue.member info.type),
      hset, hcustom, Option.getD_map, Option.getD_map]

/-- A table with one integer parameter, called `MC`. -/
def oneIntTable : Table Unit where
  infos := [{ name := ⟨[0x4d, 0x43], by decide⟩, type := .int32, val := { i := 5, f := () } }]
  sorted := by simp
  count_lt := by decide

/-- The operations on a type of floats that has one value. -/
def oneFloatOps : FloatOps Unit where
  zero := ()
  widen := fun _ => 0
  narrow := fun _ => ()
  within := fun _ _ => true
  below := fun _ _ => true

/-- A value, a runtime default, and a reset of all names that start with `M`. -/
theorem store_after_calls_reset :
    (paramGet oneIntTable ([Call.set 0 (some ⟨24, ()⟩), .setDefaultValue 0 (some ⟨7, ()⟩),
        .resetSpecific [⟨[0x4d, 0x2a], by decide⟩]].foldl (Call.run oneFloatOps oneIntTable)
        (Store.initial Unit)) 0).map (ParamValue.member .int32) = some (.inl 7) :=
  (store_after_calls oneFloatOps oneIntTable [Call.set 0 (some ⟨24, ()⟩),
    .setDefaultValue 0 (some ⟨7, ()⟩), .resetSpecific [⟨[0x4d, 0x2a], by decide⟩]]).2.2.2.2.2.2
    0 _ rfl

end Params
end DtPhm
