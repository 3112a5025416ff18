import DtPhm.Mavlink.ParameterUpdates
import Mathlib.Data.Nat.Count

/-!
# ParameterDownload — what a PARAM_REQUEST_LIST makes the manager send

The list starts with the hash and goes through all parameters, of which it sends the used ones.  A
call of `send` takes some turns of it, between other messages, and the ground asks for a parameter
that it misses by its index among the used ones.

* `paramForUsedIndex`, `requestRead` — an index, read back;
* `Turn`, `loopTurns`, `turns` — the turns of the list in a call of `send`;
* `expected` — the messages that the ground waits for, without their values;
* `Position`, `Stretch` — how far the list has come, and what a stretch of a run adds;
* `Downloaded` — what a run should send;
* `download_iff` — the runs that do.

A `PARAM_SET` of the hash, by which the ground stops a list, is left out.
-/

namespace DtPhm
namespace Mavlink
namespace Parameters

open Lib Bson Params

variable {F : Type} {ops : FloatOps F} {exceeds : F → F → Bool} {t : Table F}

/-! ## Indices of used parameters -/

/-- The loop of `param_for_used_index`, with `n` parameters left from `i` on. -/
def paramForUsedIndexFrom (used : ℕ → Bool) (index : ℕ) : ℕ → ℕ → ℕ → Option ℕ
  | 0, _, _ => none
  | n + 1, i, usedCount =>
      if used i then
        if index = usedCount then some i
        else paramForUsedIndexFrom used index n (i + 1) (usedCount + 1)
      else paramForUsedIndexFrom used index n (i + 1) usedCount

/-- `param_for_used_index`. -/
def paramForUsedIndex (t : Table F) (used : ℕ → Bool) (index : ℕ) : Option ℕ :=
  if index < t.count then paramForUsedIndexFrom used index t.count 0 0 else none

/-- A `PARAM_REQUEST_READ` with an index that is not negative: the answer, or none where a text goes
out instead. -/
def requestRead (t : Table F) (s : Link F) (index free : ℕ) : Option (Message F) :=
  match paramForUsedIndex t s.used index with
  | none => none
  | some param => (sendParam t s param free).2.head?

/-- The inner loop of `send_one` stops at a used parameter. -/
theorem nextUsedFrom_used (used : ℕ → Bool) (n index : ℕ) :
    (∃ p, nextUsedFrom used n index = (some p, p + 1) ∧ used p = true) ∨
      (nextUsedFrom used n index).1 = none := by
  induction n generalizing index with
  | zero => exact .inr rfl
  | succ n ih =>
      unfold nextUsedFrom
      cases hused : used index with
      | true => exact .inl ⟨index, rfl, hused⟩
      | false => exact ih (index + 1)

/-- How many used parameters there are before `i`. -/
def usedBefore (used : ℕ → Bool) (i : ℕ) : ℕ := Nat.count (fun j => used j = true) i

theorem usedBefore_succ (used : ℕ → Bool) (i : ℕ) :
    usedBefore used (i + 1) = usedBefore used i + if used i = true then 1 else 0 :=
  Nat.count_succ _ i

theorem length_filter_range (used : ℕ → Bool) (i : ℕ) :
    ((List.range i).filter used).length = usedBefore used i := by
  induction i with
  | zero => rfl
  | succ i ih =>
      rw [List.range_succ, List.filter_append, List.length_append, ih, usedBefore_succ]
      cases hused : used i with
      | true => simp [hused]
      | false => simp [hused]

theorem paramCountUsed_eq (used : ℕ → Bool) : paramCountUsed t used = usedBefore used t.count :=
  length_filter_range used t.count

theorem paramGetUsedIndex_eq (used : ℕ → Bool) (param : ℕ) :
    paramGetUsedIndex used param = usedBefore used param := length_filter_range used param

theorem usedBefore_of_unused {used : ℕ → Bool} {i j : ℕ} (hij : i ≤ j)
    (h : ∀ q, i ≤ q → q < j → used q = false) : usedBefore used j = usedBefore used i := by
  induction j with
  | zero =>
      obtain rfl := Nat.le_zero.1 hij
      rfl
  | succ j ih =>
      rcases Nat.eq_or_lt_of_le hij with rfl | hlt
      · rfl
      · rw [usedBefore_succ, h j (by omega) (by omega), ih (by omega) fun q hq hqj =>
          h q hq (by omega)]
        rfl

theorem paramForUsedIndexFrom_cases (used : ℕ → Bool) (index n : ℕ) : ∀ i,
    usedBefore used i ≤ index →
    (∃ p, paramForUsedIndexFrom used index n i (usedBefore used i) = some p ∧ p < i + n ∧
      used p = true ∧ usedBefore used p = index) ∨
    (paramForUsedIndexFrom used index n i (usedBefore used i) = none ∧
      usedBefore used (i + n) ≤ index) := by
  induction n with
  | zero => exact fun i hi => .inr ⟨rfl, hi⟩
  | succ n ih =>
      intro i hi
      unfold paramForUsedIndexFrom
      cases hused : used i with
      | true =>
          have hsucc : usedBefore used (i + 1) = usedBefore used i + 1 := by
            rw [usedBefore_succ, hused]
            rfl
          rw [if_pos rfl]
          by_cases hindex : index = usedBefore used i
          · rw [if_pos hindex]
            exact .inl ⟨i, rfl, by omega, hused, hindex.symm⟩
          · rw [if_neg hindex, ← hsucc]
            rcases ih (i + 1) (by omega) with ⟨p, hp, hlt, hpused, hrank⟩ | ⟨hnone, hle⟩
            · exact .inl ⟨p, hp, by omega, hpused, hrank⟩
            · exact .inr ⟨hnone, by rw [← Nat.add_assoc, Nat.add_right_comm]; exact hle⟩
      | false =>
          have hsucc : usedBefore used (i + 1) = usedBefore used i := by
            rw [usedBefore_succ, hused]
            rfl
          rw [if_neg (by decide), ← hsucc]
          rcases ih (i + 1) (by omega) with ⟨p, hp, hlt, hpused, hrank⟩ | ⟨hnone, hle⟩
          · exact .inl ⟨p, hp, by omega, hpused, hrank⟩
          · exact .inr ⟨hnone, by rw [← Nat.add_assoc, Nat.add_right_comm]; exact hle⟩

theorem paramForUsedIndex_spec (used : ℕ → Bool) {index : ℕ}
    (hindex : index < paramCountUsed t used) :
    ∃ p, paramForUsedIndex t used index = some p ∧ p < t.count ∧ used p = true ∧
      paramGetUsedIndex used p = index := by
  rw [paramCountUsed_eq] at hindex
  have hle : usedBefore used t.count ≤ t.count := Nat.count_le _
  rw [paramForUsedIndex, if_pos (by omega)]
  rcases paramForUsedIndexFrom_cases used index t.count 0 (Nat.zero_le _) with
    ⟨p, hp, hlt, hused, hrank⟩ | ⟨_, hall⟩
  · exact ⟨p, hp, by omega, hused, (paramGetUsedIndex_eq used p).trans hrank⟩
  · rw [Nat.zero_add] at hall
    omega

theorem usedIndex_lt {used : ℕ → Bool} {p : ℕ} (hp : p < t.count) (hused : used p = true) :
    usedBefore used p < paramCountUsed t used := by
  rw [paramCountUsed_eq]
  exact Nat.count_strict_mono hused hp

theorem paramForUsedIndex_paramGetUsedIndex {used : ℕ → Bool} {p : ℕ} (hp : p < t.count)
    (hused : used p = true) : paramForUsedIndex t used (paramGetUsedIndex used p) = some p := by
  have hlt := usedIndex_lt (t := t) hp hused
  rw [← paramGetUsedIndex_eq] at hlt
  obtain ⟨q, hq, _, hqused, hrank⟩ := paramForUsedIndex_spec used hlt
  rw [hq]
  rw [paramGetUsedIndex_eq, paramGetUsedIndex_eq] at hrank
  exact congrArg some (Nat.count_injective hqused hused hrank)

/-! ## The messages of a list -/

/-- A message without its value. -/
inductive Heading where
  | hashCheck (paramCount : ℕ)
  | paramValue (paramId : CString) (type : ParamType) (paramCount paramIndex : ℕ)
deriving DecidableEq

def Message.heading : Message F → Heading
  | .hashCheck paramCount => .hashCheck paramCount
  | .paramValue paramId _ type paramCount paramIndex =>
      .paramValue paramId type paramCount paramIndex

/-- The used parameters, in the order of the table. -/
def usedParams (t : Table F) (used : ℕ → Bool) : List ℕ := (List.range t.count).filter used

/-- The message about a parameter with an index. -/
def headingOf (t : Table F) (used : ℕ → Bool) (param index : ℕ) : Option Heading :=
  (t.infos[param]?).map fun info => .paramValue info.name info.type (paramCountUsed t used) index

/-- The hash, and the used parameters with the indices 0, 1, .. -/
def expected (t : Table F) (used : ℕ → Bool) : List (Option Heading) :=
  some (.hashCheck (paramCountUsed t used)) ::
    (usedParams t used).mapIdx fun index param => headingOf t used param index

theorem length_expected (t : Table F) (used : ℕ → Bool) :
    (expected t used).length = paramCountUsed t used + 1 := by
  simp [expected, usedParams, paramCountUsed]

theorem usedParams_get {used : ℕ → Bool} {p : ℕ} (hp : p < t.count) (hused : used p = true) :
    (usedParams t used)[usedBefore used p]? = some p := by
  have hsplit : List.range t.count = List.range p ++ p ::
      List.range' (p + 1) (t.count - p - 1) := by
    have happend := @List.range'_append_1 0 p (t.count - p)
    rw [Nat.zero_add, Nat.add_sub_of_le (by omega)] at happend
    rw [List.range_eq_range', ← happend, List.range_eq_range']
    congr 1
    obtain ⟨n, hn⟩ : ∃ n, t.count - p = n + 1 := ⟨t.count - p - 1, by omega⟩
    rw [hn, List.range'_succ]
    rfl
  rw [usedParams, hsplit, List.filter_append, List.filter_cons_of_pos hused,
    List.getElem?_append_right (by rw [length_filter_range]), length_filter_range, Nat.sub_self]
  rfl

theorem expected_get {used : ℕ → Bool} {p : ℕ} (hp : p < t.count) (hused : used p = true) :
    (expected t used)[usedBefore used p + 1]? = some (headingOf t used p (usedBefore used p)) := by
  rw [expected, List.getElem?_cons_succ, List.getElem?_mapIdx, usedParams_get hp hused]
  rfl

/-- What `send_param` sends is the message about the parameter. -/
theorem sendParam_heading (s : Link F) {param : ℕ} (hparam : param < t.count) (free : ℕ) :
    (free < paramValueLen ∧ (sendParam t s param free).2 = []) ∨
    (paramValueLen ≤ free ∧ ∃ message, (sendParam t s param free).2 = [message] ∧
      some message.heading = headingOf t s.used param (usedBefore s.used param)) := by
  rcases sendParam_cases s hparam free with ⟨hfull, hnone⟩ | ⟨hroom, message, hsend, _⟩
  · exact .inl ⟨hfull, by rw [hnone]⟩
  · refine .inr ⟨hroom, message, by rw [hsend], ?_⟩
    unfold sendParam at hsend
    have hlt : param < t.infos.length := hparam
    have hinfo : t.infos[param]? = some t.infos[param] := List.getElem?_eq_getElem hlt
    rw [hinfo] at hsend
    rw [headingOf, hinfo]
    cases hget : paramGet t s.store param with
    | none =>
        rw [hget] at hsend
        cases hsend
    | some v =>
        rw [hget] at hsend
        dsimp only at hsend
        rw [if_neg (by omega)] at hsend
        obtain rfl := (List.cons.inj (Prod.mk.inj hsend).2).1
        rw [paramGetUsedIndex_eq]
        rfl

/-! ## Turns -/

/-- A turn of the list: the parameter that `send_one` comes to, the free bytes it finds there, and
what it sends. -/
structure Turn (F : Type) where
  param : Option ℕ
  free : ℕ
  out : List (Message F)

/-- The turn of a list that is under way. -/
def turnOf (t : Table F) (s : Link F) (r : Round) : Turn F where
  param :=
    if s.manager.sendAllIndex = paramHash then none
    else (nextUsed t s.used s.manager.sendAllIndex.toNat).1
  free := r.freeForOne
  out := (sendOne t s r.freeForOne).2.2

/-- A round takes a turn unless it is used for a UAVCAN node. -/
def roundTurns (t : Table F) (s : Link F) (r : Round) : List (Turn F) :=
  if r.uavcan || s.manager.sendAllIndex < 0 then [] else [turnOf t s r]

/-- The turns of the loop of `send`. -/
def loopTurns (t : Table F) : ℕ → Link F → (ℕ → Round) → List (Turn F)
  | 0, _, _ => []
  | n + 1, s, rounds =>
      if (rounds 0).fits then
        let (m, more, _) := sendParams t s (rounds 0)
        roundTurns t s (rounds 0) ++
          if more then loopTurns t n { s with manager := m } fun k => rounds (k + 1) else []
      else []

/-- The turns that an event takes. -/
def turns (t : Table F) (s : Link F) : Event F → List (Turn F)
  | .send serial rounds => loopTurns t (if serial then 3 else 20) (markRequired t s) rounds
  | _ => []

/-- What the turns send. -/
def turnsOut (ts : List (Turn F)) : List (Message F) := ts.flatMap Turn.out

/-- The turn comes to a parameter, and has no room for it. -/
def Turn.lost (turn : Turn F) : ℕ := if turn.param.isSome ∧ turn.free < paramValueLen then 1 else 0

/-- How many turns are lost. -/
def turnsLost (ts : List (Turn F)) : ℕ := (ts.map Turn.lost).sum

theorem turnsLost_append (ts ts' : List (Turn F)) :
    turnsLost (ts ++ ts') = turnsLost ts + turnsLost ts' := by
  simp [turnsLost]

theorem turnsLost_eq_zero {ts : List (Turn F)} :
    turnsLost ts = 0 ↔ ∀ turn ∈ ts, turn.param.isSome = true → paramValueLen ≤ turn.free := by
  induction ts with
  | nil => exact iff_of_true rfl nofun
  | cons turn ts ih =>
      have hcons : turnsLost (turn :: ts) = turn.lost + turnsLost ts := rfl
      have hturn : turn.lost = 0 ↔ (turn.param.isSome = true → paramValueLen ≤ turn.free) := by
        unfold Turn.lost
        split
        · rename_i h
          exact iff_of_false (by decide) fun hroom => absurd (hroom h.1) (by omega)
        · rename_i h
          refine iff_of_true rfl fun hsome => ?_
          by_contra hfree
          exact h ⟨hsome, by omega⟩
      rw [hcons, Nat.add_eq_zero_iff, hturn, ih, List.forall_mem_cons]

/-! ## How far the list has come -/

/-- The list stands at `index` after `n` messages and `lost` turns without room. -/
inductive Position (t : Table F) (used : ℕ → Bool) : ℤ → ℕ → ℕ → Prop
  | start : Position t used paramHash 0 0
  | inside {i n lost : ℕ} (hi : i = 0 ∨ i < t.count) (hhash : (i : ℤ) ≠ paramHash)
      (hn : n + lost = usedBefore used i + 1) : Position t used i n lost
  | finished {index : ℤ} {n lost : ℕ} (hindex : index < 0) (hn : n + lost = paramCountUsed t used +
    1) :
      Position t used index n lost

theorem Position.total {used : ℕ → Bool} {index : ℤ} {n lost : ℕ} (h : Position t used index n lost)
    (hindex : index < 0) : n + lost = paramCountUsed t used + 1 := by
  cases h with
  | start => exact absurd hindex (by decide)
  | inside _ _ _ => exact absurd hindex (by omega)
  | finished _ hn => exact hn

/-- The index that stands for the hash is that of a parameter behind a used one. -/
def HashCollides (t : Table F) (used : ℕ → Bool) : Prop := used 32766 = true ∧ 32767 < t.count

/-- What a stretch of a run, whose turns are `ts`, adds to a list that has come to `index`. -/
structure Stretch (t : Table F) (used : ℕ → Bool) (index index' : ℤ) (ts : List (Turn F)) :
    Prop where
  stays : index < 0 → index' < 0
  counts : ∀ n lost, Position t used index n lost →
    Position t used index' (n + (turnsOut ts).length) (lost + turnsLost ts) ∧
    (0 ≤ index' → (turnsOut ts).length + turnsLost ts = ts.length) ∧
    (lost + turnsLost ts = 0 →
      (expected t used).take n ++ (turnsOut ts).map (fun m => some m.heading) =
        (expected t used).take (n + (turnsOut ts).length))

theorem Stretch.refl (t : Table F) (used : ℕ → Bool) (index : ℤ) : Stretch t used index index [] :=
  ⟨id, fun n lost h => ⟨h, fun _ => rfl, fun _ => by simp [turnsOut]⟩⟩

theorem Stretch.append {used : ℕ → Bool} {index index' index'' : ℤ} {ts ts' : List (Turn F)}
    (h : Stretch t used index index' ts) (h' : Stretch t used index' index'' ts') :
    Stretch t used index index'' (ts ++ ts') := by
  have hout : turnsOut (ts ++ ts') = turnsOut ts ++ turnsOut ts' := List.flatMap_append
  refine ⟨fun hidle => h'.stays (h.stays hidle), ?_⟩
  intro n lost hp
  obtain ⟨hp', hall, hhead⟩ := h.counts n lost hp
  obtain ⟨hp'', hall', hhead'⟩ := h'.counts _ _ hp'
  rw [hout, turnsLost_append, List.length_append, List.length_append, ← Nat.add_assoc,
    ← Nat.add_assoc]
  refine ⟨hp'', ?_, ?_⟩
  · intro hactive
    have hactive' : 0 ≤ index' := by
      by_contra hidle
      have := h'.stays (by omega)
      omega
    have := hall hactive'
    have := hall' hactive
    omega
  · intro hlost
    rw [List.map_append, ← List.append_assoc, hhead (by omega), hhead' (by omega)]

theorem sendOne_hash {s : Link F} (h : s.manager.sendAllIndex = paramHash) (free : ℕ) :
    sendOne t s free =
      ({ s.manager with sendAllIndex := 0 }, true, [.hashCheck (paramCountUsed t s.used)]) := by
  unfold sendOne
  dsimp only
  rw [if_neg (by rw [h]; decide), if_pos h]

theorem sendOne_idle {s : Link F} (h : s.manager.sendAllIndex < 0) (free : ℕ) :
    sendOne t s free = (s.manager, false, []) := if_pos h

/-- Where the index is not that of the hash, `send_one` comes to the next used parameter. -/
theorem sendOne_cases {s : Link F} {i : ℕ} (hi : s.manager.sendAllIndex = i)
    (hhash : (i : ℤ) ≠ paramHash) (free : ℕ) :
    (∃ p, nextUsed t s.used i = (some p, p + 1) ∧ i ≤ p ∧ p < t.count ∧ s.used p = true ∧
      usedBefore s.used p = usedBefore s.used i ∧
      (sendOne t s free).1.sendAllIndex = (if p + 1 ≥ t.count then (-1 : ℤ) else (p + 1 : ℕ)) ∧
      (sendOne t s free).2.2 = (sendParam t s p free).2) ∨
    (∃ index', nextUsed t s.used i = (none, index') ∧
      (i ≤ t.count → usedBefore s.used t.count = usedBefore s.used i) ∧
      (sendOne t s free).1.sendAllIndex = -1 ∧ (sendOne t s free).2.2 = []) := by
  have hnot : ¬ s.manager.sendAllIndex < 0 := by omega
  have hne : s.manager.sendAllIndex ≠ paramHash := by
    rw [hi]
    exact hhash
  have htoNat : s.manager.sendAllIndex.toNat = i := by
    rw [hi]
    rfl
  unfold sendOne
  dsimp only
  rw [if_neg hnot, if_neg hne, htoNat]
  rcases nextUsed_cases t s.used i with ⟨p, hp, hip, hpc, hfirst⟩ | ⟨index', hnone, _, hrest⟩
  · left
    have hused : s.used p = true := by
      -- the inner loop stops at a used parameter
      rcases nextUsedFrom_used s.used (t.count - i) i with ⟨q, hq, hqused⟩ | hnone
      · have hpq : (some p, p + 1) = (some q, q + 1) := hp.symm.trans hq
        obtain rfl := Option.some.inj (Prod.mk.inj hpq).1
        exact hqused
      · have hsome : (some p, p + 1).1 = none := by
          rw [← hp]
          exact hnone
        cases hsome
    have hbefore : usedBefore s.used p = usedBefore s.used i := by
      refine usedBefore_of_unused hip fun q hq hqp => ?_
      by_contra hqused
      have := hfirst q hq (by simpa using hqused)
      omega
    rw [hp]
    dsimp only
    refine ⟨p, rfl, hip, hpc, hused, hbefore, ?_, ?_⟩
    · split <;> rfl
    · split <;> rfl
  · right
    rw [hnone]
    exact ⟨index', rfl, fun hle => usedBefore_of_unused hle hrest, rfl, rfl⟩

/-- Behind a used parameter the list stands at the next index, which is not that of the hash, or it
is over. -/
theorem Position.next {used : ℕ → Bool} (hhash : ¬ HashCollides t used) {i p k l : ℕ}
    (hpc : p < t.count) (hused : used p = true) (hbefore : usedBefore used p = usedBefore used i)
    (hkl : k + l = usedBefore used i + 2) :
    Position t used (if p + 1 ≥ t.count then (-1 : ℤ) else (p + 1 : ℕ)) k l := by
  have hsucc : usedBefore used (p + 1) = usedBefore used i + 1 := by
    rw [usedBefore_succ, hused, hbefore]
    rfl
  by_cases hlast : p + 1 ≥ t.count
  · rw [if_pos hlast]
    refine .finished (by decide) ?_
    rw [paramCountUsed_eq, show t.count = p + 1 by omega]
    omega
  · rw [if_neg hlast]
    refine .inside (.inr (by omega)) ?_ (by omega)
    intro hcollides
    have hp : p = 32766 := by
      unfold paramHash at hcollides
      omega
    subst hp
    exact hhash ⟨hused, by omega⟩

theorem turnOf_lost_hash {s : Link F} (hindex : s.manager.sendAllIndex = paramHash) (r : Round) :
    (turnOf t s r).lost = 0 := by
  rw [Turn.lost, turnOf, if_pos hindex]
  exact if_neg (by simp)

theorem turnOf_lost {s : Link F} {i : ℕ} (hindex : s.manager.sendAllIndex = i)
    (hne : (i : ℤ) ≠ paramHash) (r : Round) :
    (turnOf t s r).lost =
      if (nextUsed t s.used i).1.isSome ∧ r.freeForOne < paramValueLen then 1 else 0 := by
  have hparam : (turnOf t s r).param = (nextUsed t s.used i).1 := by
    rw [turnOf, if_neg (by rw [hindex]; exact hne), hindex]
    rfl
  rw [Turn.lost, hparam]
  rfl

theorem stretch_sendOne {s : Link F} (hhash : ¬ HashCollides t s.used)
    (hactive : 0 ≤ s.manager.sendAllIndex) (r : Round) :
    Stretch t s.used s.manager.sendAllIndex (sendOne t s r.freeForOne).1.sendAllIndex
      [turnOf t s r] := by
  refine ⟨fun hidle => absurd hactive (by omega), ?_⟩
  intro n lost hp
  have hout : turnsOut [turnOf t s r] = (sendOne t s r.freeForOne).2.2 := by
    simp [turnsOut, turnOf]
  have hlost : turnsLost [turnOf t s r] = (turnOf t s r).lost := by simp [turnsLost]
  rw [hout, hlost]
  generalize hindex : s.manager.sendAllIndex = index at *
  cases hp with
  | start =>
      rw [sendOne_hash hindex, turnOf_lost_hash hindex]
      exact ⟨.inside (.inl rfl) (by decide) rfl, fun _ => rfl, fun _ => rfl⟩
  | @inside i n lost hi hne hn =>
      have hlosses := turnOf_lost (t := t) hindex hne r
      rcases sendOne_cases (t := t) hindex hne r.freeForOne with
        ⟨p, hp, hip, hpc, hused, hbefore, hnext, hsend⟩ | ⟨index', hp, hrest, hnext, hsend⟩
      · -- the turn of a parameter
        have hposition : ∀ k l, k + l = usedBefore s.used i + 2 → Position t s.used _ k l :=
          fun k l hkl => .next hhash hpc hused hbefore hkl
        rw [hp] at hlosses
        rw [hnext, hsend]
        rcases sendParam_heading s hpc r.freeForOne with ⟨hfull, hnil⟩ | ⟨hroom, message, hone,
          hhead⟩
        · -- without room it is lost
          rw [if_pos ⟨rfl, hfull⟩] at hlosses
          rw [hnil, hlosses]
          refine ⟨hposition _ _ ?_, fun _ => rfl, fun hzero => absurd hzero (by omega)⟩
          rw [List.length_nil]
          omega
        · rw [if_neg fun h => absurd h.2 (by omega)] at hlosses
          rw [hone, hlosses]
          refine ⟨hposition _ _ ?_, fun _ => rfl, ?_⟩
          · rw [List.length_singleton]
            omega
          · intro hzero
            have hget := expected_get (t := t) hpc hused
            rw [← hhead, hbefore, show usedBefore s.used i + 1 = n by omega] at hget
            rw [List.length_singleton, List.take_add_one, hget]
            rfl
      · -- there is no used parameter left
        rw [hp, if_neg (by simp)] at hlosses
        rw [hnext, hsend, hlosses]
        refine ⟨.finished (by decide) ?_, fun h => absurd h (by decide), fun _ => by simp⟩
        have hall := hrest (by omega)
        rw [paramCountUsed_eq, hall, List.length_nil]
        omega
  | finished hidle hn => exact absurd hactive (by omega)

/-! ## Runs -/

theorem sendUntransmitted_manager (t : Table F) (s : Link F) (r : Round) :
    (sendUntransmitted t s r).1.sendAllIndex = s.manager.sendAllIndex ∧
      (sendUntransmitted t s r).1.firstSend = s.manager.firstSend := by
  have htake : (s.manager.takeUpdate r).sendAllIndex = s.manager.sendAllIndex := by
    unfold Manager.takeUpdate
    split <;> rfl
  have hfirst := s.manager.takeUpdate_firstSend r
  unfold sendUntransmitted
  dsimp only
  split
  · exact ⟨htake, hfirst⟩
  · exact ⟨htake, hfirst⟩

/-- What follows `send_one` in a round does not touch the list. -/
theorem sendParams_manager {s : Link F} {r : Round} (huavcan : r.uavcan = false) :
    (sendParams t s r).1.sendAllIndex = (sendOne t s r.freeForOne).1.sendAllIndex ∧
      (sendParams t s r).1.firstSend = (sendOne t s r.freeForOne).1.firstSend := by
  unfold sendParams
  rw [huavcan, if_neg (by decide)]
  generalize sendOne t s r.freeForOne = one
  obtain ⟨m, more, out⟩ := one
  cases more with
  | true => exact ⟨rfl, rfl⟩
  | false => exact sendUntransmitted_manager t { s with manager := m } r

theorem sendParams_firstSend (t : Table F) (s : Link F) (r : Round) :
    (sendParams t s r).1.firstSend = s.manager.firstSend := by
  cases huavcan : r.uavcan with
  | true => rw [sendParams, if_pos huavcan]
  | false =>
      obtain ⟨index, hone⟩ := sendOne_manager t s r.freeForOne
      rw [(sendParams_manager huavcan).2, hone]

/-- `send` changes the manager alone. -/
theorem sendLoop_used (t : Table F) (n : ℕ) : ∀ (s : Link F) (rounds : ℕ → Round),
    (sendLoop t n s rounds).1.used = s.used ∧
      (sendLoop t n s rounds).1.manager.firstSend = s.manager.firstSend := by
  induction n with
  | zero => exact fun s rounds => ⟨rfl, rfl⟩
  | succ n ih =>
      intro s rounds
      have hfirst := sendParams_firstSend t s (rounds 0)
      unfold sendLoop
      split
      · generalize sendParams t s (rounds 0) = round at *
        obtain ⟨m, more, out⟩ := round
        cases more with
        | false => exact ⟨rfl, hfirst⟩
        | true =>
            obtain ⟨hused, hfirst'⟩ := ih { s with manager := m } fun k => rounds (k + 1)
            exact ⟨hused, hfirst'.trans hfirst⟩
      · exact ⟨rfl, rfl⟩

/-- The used parameters of a link that has sent something. -/
def Link.usedWhenSending (t : Table F) (s : Link F) : ℕ → Bool := (markRequired t s).used

theorem markRequired_manager (t : Table F) (s : Link F) :
    (markRequired t s).manager.sendAllIndex = s.manager.sendAllIndex ∧
      (markRequired t s).manager.firstSend = true := by
  unfold markRequired
  split
  · exact ⟨rfl, by assumption⟩
  · exact ⟨rfl, rfl⟩

theorem usedWhenSending_step (ops : FloatOps F) (exceeds : F → F → Bool) (t : Table F) (s : Link F)
    (e : Event F) :
    (step ops exceeds t s e).usedWhenSending t = s.usedWhenSending t := by
  have hcongr : ∀ g : Link F, g.used = s.used → g.manager.firstSend = s.manager.firstSend →
      g.usedWhenSending t = s.usedWhenSending t := by
    intro g hused hfirst
    unfold Link.usedWhenSending markRequired
    rw [hfirst]
    split
    · exact hused
    · dsimp only
      rw [hused]
  cases e with
  | requestList => exact hcongr _ rfl rfl
  | paramSet param val timestamp =>
      refine hcongr _ rfl ?_
      unfold step paramSet
      dsimp only
      split <;> rfl
  | send serial rounds =>
      obtain ⟨hused, hfirst⟩ := sendLoop_used t (if serial then 3 else 20) (markRequired t s) rounds
      have hsent : (send t s serial rounds).1.manager.firstSend = true :=
        hfirst.trans (markRequired_manager t s).2
      show (markRequired t (send t s serial rounds).1).used = _
      rw [markRequired, if_pos hsent]
      exact hused

/-- An event is a request for the list. -/
def Event.isRequestList : Event F → Bool
  | .requestList => true
  | _ => false

theorem paramSet_manager (s : Link F) (param : ℕ) (val : ParamValue F) (timestamp : UInt64) :
    (paramSet ops exceeds t s param val timestamp).manager.sendAllIndex =
      s.manager.sendAllIndex := by
  unfold paramSet
  dsimp only
  split <;> rfl

theorem stretch_sendParams {s : Link F} (hhash : ¬ HashCollides t s.used) (r : Round) :
    Stretch t s.used s.manager.sendAllIndex (sendParams t s r).1.sendAllIndex
      (roundTurns t s r) := by
  cases huavcan : r.uavcan with
  | true =>
      have hsame : (sendParams t s r).1 = s.manager := by
        rw [sendParams, if_pos huavcan]
      rw [hsame, roundTurns, huavcan]
      exact .refl t s.used _
  | false =>
      rw [(sendParams_manager huavcan).1, roundTurns, huavcan, Bool.false_or]
      by_cases hidle : s.manager.sendAllIndex < 0
      · rw [if_pos (decide_eq_true hidle), sendOne_idle hidle]
        exact .refl t s.used _
      · rw [if_neg (by simpa using hidle)]
        exact stretch_sendOne hhash (by omega) r

/-- The loop of `send` leaves the list where its turns do. -/
theorem stretch_sendLoop (n : ℕ) : ∀ (s : Link F) (rounds : ℕ → Round),
    ¬ HashCollides t s.used →
    Stretch t s.used s.manager.sendAllIndex (sendLoop t n s rounds).1.manager.sendAllIndex
      (loopTurns t n s rounds) := by
  induction n with
  | zero => exact fun s rounds _ => .refl t s.used _
  | succ n ih =>
      intro s rounds hhash
      have hstretch := stretch_sendParams hhash (rounds 0)
      unfold sendLoop loopTurns
      split
      · generalize sendParams t s (rounds 0) = round at *
        obtain ⟨m, more, out⟩ := round
        cases more with
        | false =>
            simp only [Bool.false_eq_true, if_false, List.append_nil]
            exact hstretch
        | true => exact hstretch.append (ih { s with manager := m } (fun k => rounds (k + 1)) hhash)
      · exact .refl t s.used _

theorem stretch_step {s : Link F} (hhash : ¬ HashCollides t (s.usedWhenSending t)) {e : Event F}
    (he : e.isRequestList = false) :
    Stretch t (s.usedWhenSending t) s.manager.sendAllIndex
      (step ops exceeds t s e).manager.sendAllIndex (turns t s e) := by
  cases e with
  | requestList => cases he
  | paramSet param val timestamp =>
      rw [step, paramSet_manager]
      exact .refl t _ _
  | send serial rounds =>
      have hstretch := stretch_sendLoop (if serial then 3 else 20) (markRequired t s) rounds hhash
      rw [(markRequired_manager t s).1] at hstretch
      exact hstretch

theorem stretch_run (ops : FloatOps F) (exceeds : F → F → Bool) (es : List (Event F)) :
    ∀ s : Link F, ¬ HashCollides t (s.usedWhenSending t) →
    (∀ e ∈ es, e.isRequestList = false) →
    Stretch t (s.usedWhenSending t) s.manager.sendAllIndex
      (exec (step ops exceeds t) s es).manager.sendAllIndex
      (outputs (step ops exceeds t) (turns t) s es) := by
  induction es with
  | nil => exact fun s _ _ => .refl t _ _
  | cons e es ih =>
      intro s hhash hes
      have hused := usedWhenSending_step ops exceeds t s e
      have hrest := ih (step ops exceeds t s e) (by rw [hused]; exact hhash) fun e' he' =>
        hes e' (List.mem_cons_of_mem _ he')
      rw [hused] at hrest
      exact (stretch_step hhash (hes e (List.mem_cons_self ..))).append hrest

/-! ## Downloads -/

/-- A call of `send` whose first round has room, and is not used for a UAVCAN node. -/
def Event.hasRoom : Event F → Bool
  | .send _ rounds => (rounds 0).fits && !(rounds 0).uavcan
  | _ => false

/-- What the calls after a request send: the expected messages in their order, all of them before
the list ends, and one in every turn while it goes on.  A call with room takes a turn. -/
structure Downloaded (ops : FloatOps F) (exceeds : F → F → Bool) (t : Table F) (s : Link F)
    (es : List (Event F)) : Prop where
  inOrder : (turnsOut (outputs (step ops exceeds t) (turns t) s es)).map (fun m =>
    some m.heading) <+:
    expected t (s.usedWhenSending t)
  complete : (exec (step ops exceeds t) s es).manager.sendAllIndex < 0 →
    (turnsOut (outputs (step ops exceeds t) (turns t) s es)).map (fun m => some m.heading) =
      expected t (s.usedWhenSending t)
  ongoing : 0 ≤ (exec (step ops exceeds t) s es).manager.sendAllIndex →
    es.countP (fun e => e.hasRoom) ≤ (outputs (step ops exceeds t) (turns t) s es).length ∧
    (outputs (step ops exceeds t) (turns t) s es).length ≤
      (turnsOut (outputs (step ops exceeds t) (turns t) s es)).length

theorem turns_of_hasRoom {s : Link F} (hactive : 0 ≤ s.manager.sendAllIndex) {e : Event F}
    (he : e.hasRoom = true) : 1 ≤ (turns t s e).length := by
  cases e with
  | paramSet _ _ _ => cases he
  | requestList => cases he
  | send serial rounds =>
      obtain ⟨hfits, huavcan⟩ := Bool.and_eq_true_iff.1 he
      have huavcan' : (rounds 0).uavcan = false := by simpa using huavcan
      have hindex : (markRequired t s).manager.sendAllIndex = s.manager.sendAllIndex := by
        unfold markRequired
        split <;> rfl
      have hturn : roundTurns t (markRequired t s) (rounds 0) =
          [turnOf t (markRequired t s) (rounds 0)] := by
        rw [roundTurns, huavcan', Bool.false_or, if_neg (by rw [hindex]; simpa using hactive)]
      obtain ⟨n, hn⟩ : ∃ n, (if serial then 3 else 20) = n + 1 := by
        cases serial with
        | true => exact ⟨2, rfl⟩
        | false => exact ⟨19, rfl⟩
      rw [turns, hn, loopTurns, if_pos hfits, hturn]
      simp

theorem countP_hasRoom_le (ops : FloatOps F) (exceeds : F → F → Bool) (es : List (Event F)) :
    ∀ s : Link F,
    ¬ HashCollides t (s.usedWhenSending t) → (∀ e ∈ es, e.isRequestList = false) →
    0 ≤ (exec (step ops exceeds t) s es).manager.sendAllIndex →
    es.countP (fun e => e.hasRoom) ≤ (outputs (step ops exceeds t) (turns t) s es).length := by
  induction es with
  | nil => exact fun s _ _ _ => Nat.le_refl 0
  | cons e es ih =>
      intro s hhash hes hactive
      have hbefore : 0 ≤ s.manager.sendAllIndex := by
        by_contra hidle
        have := (stretch_run ops exceeds (e :: es) s hhash hes).stays (by omega)
        omega
      have hused := usedWhenSending_step ops exceeds t s e
      have hrest := ih (step ops exceeds t s e) (by rw [hused]; exact hhash)
        (fun e' he' => hes e' (List.mem_cons_of_mem _ he')) hactive
      have hfirst : (if e.hasRoom = true then 1 else 0) ≤ (turns t s e).length := by
        split
        · rename_i he
          exact turns_of_hasRoom hbefore he
        · exact Nat.zero_le _
      rw [List.countP_cons, outputs, List.length_append]
      omega

theorem downloaded_iff {s : Link F} (hindex : s.manager.sendAllIndex = paramHash)
    (hhash : ¬ HashCollides t (s.usedWhenSending t)) {es : List (Event F)}
    (hes : ∀ e ∈ es, e.isRequestList = false) :
    Downloaded ops exceeds t s es ↔ turnsLost (outputs (step ops exceeds t) (turns t) s es) =
      0 := by
  have hstretch := stretch_run ops exceeds es s hhash hes
  rw [hindex] at hstretch
  obtain ⟨hposition, hall, hhead⟩ := hstretch.counts 0 0 .start
  have hroom := countP_hasRoom_le ops exceeds es s hhash hes
  have hlength := length_expected (t := t) (s.usedWhenSending t)
  simp only [Nat.zero_add, List.take_zero, List.nil_append] at hposition hall hhead
  constructor
  · intro hd
    by_cases hidle : (exec (step ops exceeds t) s es).manager.sendAllIndex < 0
    · have hcomplete := congrArg List.length (hd.complete hidle)
      rw [List.length_map] at hcomplete
      have := hposition.total hidle
      omega
    · have hongoing := (hd.ongoing (by omega)).2
      have := hall (by omega)
      omega
  · intro hlost
    have hfirst := hhead hlost
    refine ⟨?_, ?_, ?_⟩
    · rw [hfirst]
      exact List.take_prefix _ _
    · intro hidle
      have := hposition.total hidle
      rw [hfirst, List.take_of_length_le (by omega)]
    · intro hactive
      have := hall hactive
      exact ⟨hroom hactive, by omega⟩

/-! ## A list that does not end -/

/-- The list is under way, and has not gone beyond the index of the hash. -/
def BelowHash (s : Link F) : Prop := 0 ≤ s.manager.sendAllIndex ∧ s.manager.sendAllIndex ≤ paramHash

theorem belowHash_sendParams {s : Link F} (hhash : HashCollides t s.used) (hb : BelowHash s)
    (r : Round) : BelowHash { s with manager := (sendParams t s r).1 } := by
  obtain ⟨hactive, hle⟩ := hb
  unfold BelowHash
  cases huavcan : r.uavcan with
  | true =>
      have hsame : (sendParams t s r).1 = s.manager := by
        rw [sendParams, if_pos huavcan]
      rw [hsame]
      exact ⟨hactive, hle⟩
  | false =>
      dsimp only
      rw [(sendParams_manager (t := t) (s := s) huavcan).1]
      by_cases hh : s.manager.sendAllIndex = paramHash
      · rw [sendOne_hash hh]
        exact ⟨Int.le_refl 0, show (0 : ℤ) ≤ paramHash by decide⟩
      obtain ⟨i, hi⟩ : ∃ i : ℕ, s.manager.sendAllIndex = i :=
          ⟨_, (Int.toNat_of_nonneg hactive).symm⟩
      rw [hi] at hh hle
      obtain ⟨hused, hcount⟩ := hhash
      have hi' : i ≤ 32766 := by
        unfold paramHash at hh hle
        omega
      rcases nextUsed_cases t s.used i with ⟨p, hp, _, _, hfirst⟩ | ⟨_, _, _, hrest⟩
      · have hp' := hfirst 32766 hi' hused
        rcases sendOne_cases (t := t) hi hh r.freeForOne with
          ⟨q, hq, _, _, _, _, hnext, _⟩ | ⟨_, hnone, _⟩
        · have hpq : (some p, p + 1) = (some q, q + 1) := hp.symm.trans hq
          obtain rfl := Option.some.inj (Prod.mk.inj hpq).1
          rw [hnext, if_neg (by omega)]
          unfold paramHash
          exact ⟨by omega, by omega⟩
        · rw [hp] at hnone
          cases hnone
      · rw [hrest 32766 hi' (by omega)] at hused
        cases hused

theorem belowHash_sendLoop (n : ℕ) : ∀ (s : Link F) (rounds : ℕ → Round), HashCollides t s.used →
    BelowHash s → BelowHash (sendLoop t n s rounds).1 := by
  induction n with
  | zero => exact fun s rounds _ hb => hb
  | succ n ih =>
      intro s rounds hhash hb
      have hb' := belowHash_sendParams hhash hb (rounds 0)
      unfold sendLoop
      split
      · generalize sendParams t s (rounds 0) = round at *
        obtain ⟨m, more, out⟩ := round
        cases more with
        | false => exact hb'
        | true => exact ih { s with manager := m } (fun k => rounds (k + 1)) hhash hb'
      · exact hb

/-- A round on a link that has always room. -/
def roomyRound : Round where
  free := 1000
  critical := false
  uavcan := false
  freeForOne := 1000
  checkedAt := 0
  copiedAt := 0
  now := 0
  turns := fun _ => ⟨1000, 1000, false⟩

/-- Calls of `send` on such a link. -/
def roomySends (n : ℕ) : List (Event F) := List.replicate n (.send true fun _ => roomyRound)

theorem belowHash_roomySends (ops : FloatOps F) (exceeds : F → F → Bool) (n : ℕ) :
    ∀ s : Link F, HashCollides t (s.usedWhenSending t) →
    BelowHash s → BelowHash (exec (step ops exceeds t) s (roomySends n)) := by
  induction n with
  | zero => exact fun s _ hb => hb
  | succ n ih =>
      intro s hhash hb
      refine ih _ ?_ ?_
      · rw [usedWhenSending_step]
        exact hhash
      · refine belowHash_sendLoop 3 (markRequired t s) _ hhash ?_
        unfold BelowHash
        rw [(markRequired_manager t s).1]
        exact hb

theorem free_loopTurns (n : ℕ) :
    ∀ (s : Link F) (rounds : ℕ → Round), ∀ turn ∈ loopTurns t n s rounds,
    ∃ k, turn.free = (rounds k).freeForOne := by
  induction n with
  | zero => exact fun _ _ _ hturn => nomatch hturn
  | succ n ih =>
      intro s rounds turn hturn
      unfold loopTurns at hturn
      split at hturn
      · generalize sendParams t s (rounds 0) = round at hturn
        obtain ⟨m, more, out⟩ := round
        rcases List.mem_append.1 hturn with hturn | hturn
        · unfold roundTurns at hturn
          split at hturn
          · cases hturn
          · rw [List.mem_singleton.1 hturn]
            exact ⟨0, rfl⟩
        · cases more with
          | false => cases hturn
          | true =>
              obtain ⟨k, hk⟩ := ih _ _ turn hturn
              exact ⟨k + 1, hk⟩
      · cases hturn

theorem free_roomySends (n : ℕ) : ∀ s : Link F,
    ∀ turn ∈ outputs (step ops exceeds t) (turns t) s (roomySends n), turn.free = 1000 := by
  induction n with
  | zero => exact fun _ _ hturn => nomatch hturn
  | succ n ih =>
      intro s turn hturn
      rcases List.mem_append.1 hturn with hturn | hturn
      · obtain ⟨k, hk⟩ := free_loopTurns 3 (markRequired t s) (fun _ => roomyRound) turn hturn
        exact hk
      · exact ih _ turn hturn

theorem isRequestList_roomySends (n : ℕ) : ∀ e ∈ (roomySends n : List (Event F)),
    e.isRequestList = false := by
  intro e he
  rw [List.eq_of_mem_replicate he]
  rfl

theorem not_downloaded {s : Link F} (hb : BelowHash s)
    (hhash : HashCollides t (s.usedWhenSending t)) :
    ¬ Downloaded ops exceeds t s (roomySends ((expected t (s.usedWhenSending t)).length + 1)) := by
  intro hd
  have hactive := (belowHash_roomySends ops exceeds
    ((expected t (s.usedWhenSending t)).length + 1) s hhash hb).1
  obtain ⟨hroom, hsent⟩ := hd.ongoing hactive
  have hle := hd.inOrder.length_le
  rw [List.length_map] at hle
  have hcount : (roomySends ((expected t (s.usedWhenSending t)).length + 1)).countP
      (fun e : Event F => e.hasRoom) = (expected t (s.usedWhenSending t)).length + 1 := by
    rw [roomySends, List.countP_replicate]
    rfl
  omega

/-! ## Reading by index, and the whole -/

/-- A request for an index is answered with the parameter that has it in the list. -/
theorem requestRead_spec (s : Link F) {index : ℕ} (hindex : index < paramCountUsed t s.used)
    (free : ℕ) :
    (free < paramValueLen ∧ requestRead t s index free = none) ∨
    (paramValueLen ≤ free ∧ ∃ message, requestRead t s index free = some message ∧
      (expected t s.used)[index + 1]? = some (some message.heading)) := by
  obtain ⟨p, hp, hlt, hused, hrank⟩ := paramForUsedIndex_spec s.used hindex
  rw [paramGetUsedIndex_eq] at hrank
  have hread : requestRead t s index free = (sendParam t s p free).2.head? := by
    rw [requestRead, hp]
  rw [hread]
  rcases sendParam_heading s hlt free with ⟨hfull, hnil⟩ | ⟨hroom, message, hone, hhead⟩
  · exact .inl ⟨hfull, by rw [hnil]; rfl⟩
  · refine .inr ⟨hroom, message, by rw [hone]; rfl, ?_⟩
    rw [← hrank, expected_get hlt hused, hhead]

theorem turnsOut_sublist (n : ℕ) : ∀ (s : Link F) (rounds : ℕ → Round),
    (turnsOut (loopTurns t n s rounds)).Sublist (sendLoop t n s rounds).2 := by
  induction n with
  | zero => exact fun _ _ => List.Sublist.refl _
  | succ n ih =>
      intro s rounds
      have hround :
          (turnsOut (roundTurns t s (rounds 0))).Sublist (sendParams t s (rounds 0)).2.2 := by
        cases huavcan : (rounds 0).uavcan with
        | true =>
            rw [roundTurns, huavcan, Bool.true_or, if_pos rfl]
            exact List.nil_sublist _
        | false =>
            have hone : (sendOne t s (rounds 0).freeForOne).2.2.Sublist
                (sendParams t s (rounds 0)).2.2 := by
              rw [sendParams, huavcan, if_neg (by decide)]
              generalize sendOne t s (rounds 0).freeForOne = one
              obtain ⟨m, more, out⟩ := one
              cases more with
              | true => exact List.Sublist.refl _
              | false => exact List.sublist_append_left _ _
            rw [roundTurns, huavcan, Bool.false_or]
            split
            · exact List.nil_sublist _
            · simpa [turnsOut, turnOf] using hone
      unfold loopTurns sendLoop
      split
      · generalize sendParams t s (rounds 0) = round at *
        obtain ⟨m, more, out⟩ := round
        cases more with
        | false =>
            simp only [Bool.false_eq_true, if_false, List.append_nil]
            exact hround
        | true =>
            have happend : ∀ ts ts' : List (Turn F), turnsOut (ts ++ ts') = turnsOut ts ++
                turnsOut ts' :=
              fun _ _ => List.flatMap_append
            simp only [if_true, happend]
            exact hround.append (ih { s with manager := m } fun k => rounds (k + 1))
      · exact List.nil_sublist _

/-- A list is requested while none is under way.  Unless the index of the hash is that of a
parameter behind a used one, the calls that follow download the list exactly when `send_param` finds
room in every turn of a parameter; otherwise the list never ends.  The two functions on the indices
of used parameters are inverse, and with room a request to read is answered with the parameter that
the list has under its index. -/
theorem download_iff (ops : FloatOps F) (exceeds : F → F → Bool) (t : Table F) (s : Link F)
    (hidle : s.manager.sendAllIndex < 0) :
    (¬ HashCollides t (s.usedWhenSending t) → ∀ es : List (Event F),
      (∀ e ∈ es, e.isRequestList = false) →
      (Downloaded ops exceeds t (requestList s) es ↔
        ∀ turn ∈ outputs (step ops exceeds t) (turns t) (requestList s) es,
          turn.param.isSome = true → paramValueLen ≤ turn.free)) ∧
    (HashCollides t (s.usedWhenSending t) → ∃ es : List (Event F),
      (∀ e ∈ es, e.isRequestList = false) ∧
      (∀ turn ∈ outputs (step ops exceeds t) (turns t) (requestList s) es,
        turn.param.isSome = true → paramValueLen ≤ turn.free) ∧
      ¬ Downloaded ops exceeds t (requestList s) es) ∧
    (∀ used : ℕ → Bool,
      (∀ p < t.count, used p = true → paramForUsedIndex t used (paramGetUsedIndex used p) =
        some p) ∧
      ∀ index < paramCountUsed t used, ∃ p, paramForUsedIndex t used index = some p ∧
        used p = true ∧ paramGetUsedIndex used p = index) ∧
    (∀ (r : Link F) (index free : ℕ), index < paramCountUsed t r.used →
      (free < paramValueLen ∧ requestRead t r index free = none) ∨
      (paramValueLen ≤ free ∧ ∃ message, requestRead t r index free = some message ∧
        (expected t r.used)[index + 1]? = some (some message.heading))) ∧
    ∀ (r : Link F) (serial : Bool) (rounds : ℕ → Round),
      (turnsOut (turns t r (.send serial rounds))).Sublist (send t r serial rounds).2 := by
  have hused : (requestList s).usedWhenSending t = s.usedWhenSending t :=
    usedWhenSending_step ops exceeds t s .requestList
  have hindex : (requestList s).manager.sendAllIndex = paramHash := if_pos hidle
  refine ⟨?_, ?_, ?_, fun r index free hlt => requestRead_spec r hlt free,
    fun r serial rounds => turnsOut_sublist _ (markRequired t r) rounds⟩
  · intro hhash es hes
    rw [← turnsLost_eq_zero]
    exact downloaded_iff hindex (by rw [hused]; exact hhash) hes
  · intro hhash
    refine ⟨_, isRequestList_roomySends _, ?_, not_downloaded ?_ (by rw [hused]; exact hhash)⟩
    · intro turn hturn _
      rw [free_roomySends _ _ turn hturn]
      decide
    · unfold BelowHash
      rw [hindex]
      decide
  · intro used
    refine ⟨fun p hp hpused => paramForUsedIndex_paramGetUsedIndex hp hpused, ?_⟩
    intro index hlt
    obtain ⟨p, hp, _, hpused, hrank⟩ := paramForUsedIndex_spec used hlt
    exact ⟨p, hp, hpused, hrank⟩

/-- Two used parameters are downloaded in one call. -/
theorem download_two :
    Downloaded smallOps (fun x y => decide (x ≠ y)) smallTable (requestList smallLink.1)
      (roomySends 1) := by
  obtain ⟨hdownload, _⟩ := download_iff smallOps (fun x y => decide (x ≠ y)) smallTable smallLink.1
    (by decide)
  have hcount : ¬ HashCollides smallTable (smallLink.1.usedWhenSending smallTable) :=
    fun h => absurd h.2 (by decide)
  refine (hdownload hcount (roomySends 1) (isRequestList_roomySends 1)).2 ?_
  intro turn hturn _
  rw [free_roomySends 1 _ turn hturn]
  decide

/-- The rounds of a call whose second one loses its room while the message is put together. -/
def tightRounds (k : ℕ) : Round := { roomyRound with freeForOne := if k = 1 then 20 else 1000 }

/-- The first parameter is not sent, and the list ends without it. -/
theorem download_misses_parameter :
    ¬ Downloaded smallOps (fun x y => decide (x ≠ y)) smallTable (requestList smallLink.1)
      [.send true tightRounds] := by
  intro hd
  have hover :
      (exec (step smallOps (fun x y => decide (x ≠ y)) smallTable) (requestList smallLink.1)
      [.send true tightRounds]).manager.sendAllIndex < 0 := by decide +kernel
  have hlength := congrArg List.length (hd.complete hover)
  rw [length_expected, List.length_map] at hlength
  revert hlength
  decide +kernel

end Parameters
end Mavlink
end DtPhm
