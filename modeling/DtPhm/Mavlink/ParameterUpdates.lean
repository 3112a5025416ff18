import DtPhm.Mavlink.Parameters
import DtPhm.Params.SaveLoad

/-!
# ParameterUpdates — when every changed parameter reaches the ground

A parameter is owed to the ground while it is used, unsaved and not sent with its value since it was
set.  What keeps it from being forgotten is that a publication is unread, or that a pass over the
parameters is under way and has not come to it:

* `Tracked` — this invariant, `Tracked.round` and `Tracked.step` — that the calls keep it;
* `Careful` — the condition on a step: no update is cleared while the pass is beyond an owed
  parameter, and no owed parameter is tried without room for it;
* `changes_reach_ground` — in careful runs nothing is owed when the manager has nothing to do;
* `change_behind_pass_lost` — a run that is not careful.
-/

namespace DtPhm
namespace Mavlink
namespace Parameters

open Lib Bson Params

variable {F : Type} {ops : FloatOps F} {exceeds : F → F → Bool} {t : Table F}

/-! ## What is owed -/

/-- The message carries the value that the parameter has. -/
def Carries (t : Table F) (s : Store F) (param : ℕ) (message : Message F) : Prop :=
  ∃ info v paramCount paramIndex, t.infos[param]? = some info ∧ paramGet t s param = some v ∧
    message = .paramValue info.name (v.member info.type) info.type paramCount paramIndex

/-- The parameter was sent with the value that it has since it was last set. -/
def Sent (t : Table F) (s : Store F) (log : List (Entry F)) (param : ℕ) : Prop :=
  ∃ message ∈ sinceSet param log, Carries t s param message

/-- The parameter is used, or will be with the first call of `send`. -/
def Link.counts (t : Table F) (s : Link F) (param : ℕ) : Bool :=
  s.used param || (!s.manager.firstSend && isRequired t param)

/-- The parameter has to be sent. -/
structure Owed (t : Table F) (s : Link F) (log : List (Entry F)) (param : ℕ) : Prop where
  counts : s.counts t param = true
  unsaved : paramValueUnsaved s.store param = true
  notSent : ¬ Sent t s.store log param

theorem addSent_append (a b : List (Message F)) (log : List (Entry F)) :
    addSent (a ++ b) log = addSent b (addSent a log) := by
  simp [addSent]

theorem sinceSet_addSent (param : ℕ) (out : List (Message F)) (log : List (Entry F)) :
    sinceSet param (addSent out log) = out.reverse ++ sinceSet param log := by
  unfold addSent
  generalize out.reverse = ms
  induction ms with
  | nil => rfl
  | cons m ms ih => simp only [List.map_cons, List.cons_append, sinceSet, ih]

theorem Sent.addSent {s : Store F} {log : List (Entry F)} {param : ℕ} (h : Sent t s log param)
    (out : List (Message F)) : Sent t s (addSent out log) param := by
  obtain ⟨message, hmem, hcarries⟩ := h
  refine ⟨message, ?_, hcarries⟩
  rw [sinceSet_addSent]
  exact List.mem_append_right _ hmem

theorem sent_of_mem {s : Store F} {log : List (Entry F)} {param : ℕ} {out : List (Message F)}
    {message : Message F} (hmem : message ∈ out) (h : Carries t s param message) :
    Sent t s (addSent out log) param := by
  refine ⟨message, ?_, h⟩
  rw [sinceSet_addSent]
  exact List.mem_append_left _ (List.mem_reverse.2 hmem)

theorem Owed.of_addSent {s : Link F} {log : List (Entry F)} {out : List (Message F)} {param : ℕ}
    (h : Owed t s (addSent out log) param) : Owed t s log param :=
  ⟨h.counts, h.unsaved, fun hsent => h.notSent (hsent.addSent out)⟩

theorem lt_count_of_unsaved {s : Store F} (hinv : s.Inv t) {param : ℕ}
    (h : paramValueUnsaved s param = true) : param < t.count := by
  unfold paramValueUnsaved at h
  rw [hinv.findChanged] at h
  cases hfind : findParam param (s.values.getD []) with
  | none => simp [hfind] at h
  | some w => exact hinv.values.range param (by simp [hfind])

/-! ## The loop over the parameters -/

/-- The inner loop finds a used parameter and no used one is before it, or there is none left. -/
theorem nextUsedFrom_cases (used : ℕ → Bool) (n index : ℕ) :
    (∃ p, nextUsedFrom used n index = (some p, p + 1) ∧ index ≤ p ∧ p < index + n ∧
      ∀ q, index ≤ q → used q = true → p ≤ q) ∨
    (nextUsedFrom used n index = (none, index + n + 1) ∧
      ∀ q, index ≤ q → q < index + n → used q = false) := by
  induction n generalizing index with
  | zero =>
      refine .inr ⟨rfl, ?_⟩
      intro q hle hlt
      omega
  | succ n ih =>
      unfold nextUsedFrom
      cases hused : used index with
      | true => exact .inl ⟨index, rfl, by omega, by omega, fun q hle _ => hle⟩
      | false =>
          have hnot : ∀ q, index ≤ q → used q = true → index + 1 ≤ q := by
            intro q hle hq
            rcases Nat.eq_or_lt_of_le hle with rfl | hlt
            · rw [hused] at hq
              cases hq
            · exact hlt
          rcases ih (index + 1) with ⟨p, hp, hle, hlt, hfirst⟩ | ⟨hnone, hrest⟩
          · refine .inl ⟨p, by simpa using hp, by omega, by omega, ?_⟩
            intro q hq hqused
            exact hfirst q (hnot q hq hqused) hqused
          · refine .inr ⟨by simp [hnone]; omega, ?_⟩
            intro q hle hlt
            by_contra hq
            have hq : used q = true := by simpa using hq
            rw [hrest q (hnot q hle hq) (by omega)] at hq
            cases hq

theorem nextUsed_cases (t : Table F) (used : ℕ → Bool) (index : ℕ) :
    (∃ p, nextUsed t used index = (some p, p + 1) ∧ index ≤ p ∧ p < t.count ∧
      ∀ q, index ≤ q → used q = true → p ≤ q) ∨
    (∃ index', nextUsed t used index = (none, index') ∧ t.count < index' ∧
      ∀ q, index ≤ q → q < t.count → used q = false) := by
  rcases nextUsedFrom_cases used (t.count - index) index with
    ⟨p, hp, hle, hlt, hfirst⟩ | ⟨hnone, hrest⟩
  · exact .inl ⟨p, hp, hle, by omega, hfirst⟩
  · exact .inr ⟨_, hnone, by omega, fun q hle hlt => hrest q hle (by omega)⟩

theorem sendParam_cases (s : Link F) {param : ℕ} (hparam : param < t.count) (free : ℕ) :
    (free < paramValueLen ∧ sendParam t s param free = (false, [])) ∨
    (paramValueLen ≤ free ∧ ∃ message, sendParam t s param free = (true, [message]) ∧
      Carries t s.store param message) := by
  have hlt : param < t.infos.length := hparam
  have hinfo : t.infos[param]? = some t.infos[param] := List.getElem?_eq_getElem hlt
  obtain ⟨v, hv⟩ : ∃ v, paramGet t s.store param = some v := by
    obtain ⟨v, hv⟩ := defaultValue_isSome s.store hparam
    have hrange : handleInRange t param = true := decide_eq_true hparam
    rw [paramGet, if_pos hrange]
    cases paramFindChanged s.store param with
    | none => exact ⟨v, hv⟩
    | some w => exact ⟨w.val, rfl⟩
  unfold sendParam
  rw [hinfo, hv]
  by_cases hfree : free < paramValueLen
  · exact .inl ⟨hfree, if_pos hfree⟩
  · exact .inr ⟨by omega, _, if_neg hfree, _, v, _, _, hinfo, hv, rfl⟩

/-- Every owed parameter that the loop tries finds room. -/
def TurnsFit (t : Table F) (s : Link F) (owed : ℕ → Prop) : (ℕ → Reading) → ℕ → ℕ → Prop
  | _, 0, _ => True
  | turns, n + 1, index =>
      match nextUsed t s.used index with
      | (none, _) => True
      | (some param, index') =>
          (owed param → paramValueLen ≤ (turns 0).freeForParam) ∧
            ((turns 0).goesOn t index' = true →
              TurnsFit t s owed (fun k => turns (k + 1)) n index')

/-- What is sent in the turn of a parameter. -/
def turnOut (t : Table F) (s : Link F) (param free : ℕ) : List (Message F) :=
  if paramValueUnsaved s.store param then (sendParam t s param free).2 else []

theorem sendChanged_turn (s : Link F) (turns : ℕ → Reading) (n : ℕ) {index param index' : ℕ}
    (hnext : nextUsed t s.used index = (some param, index')) :
    ((sendChanged t s turns (n + 1) index).1 = index' ∧
      (sendChanged t s turns (n + 1) index).2.2 = turnOut t s param (turns 0).freeForParam) ∨
    ((turns 0).goesOn t index' = true ∧
      (sendChanged t s turns (n + 1) index).1 =
        (sendChanged t s (fun k => turns (k + 1)) n index').1 ∧
      (sendChanged t s turns (n + 1) index).2.2 = turnOut t s param (turns 0).freeForParam ++
        (sendChanged t s (fun k => turns (k + 1)) n index').2.2) := by
  unfold turnOut
  rw [sendChanged]
  simp only [hnext]
  split
  · split
    · rename_i hgo
      exact .inr ⟨(Bool.and_eq_true_iff.1 hgo).2, rfl, rfl⟩
    · exact .inl ⟨rfl, rfl⟩
  · split
    · rename_i hgo
      exact .inr ⟨hgo, rfl, rfl⟩
    · exact .inl ⟨rfl, rfl⟩

theorem sendChanged_index_le (s : Link F) {owed : ℕ → Prop} {q : ℕ} (hq : q < t.count)
    (hused : s.used q = true) (hunsaved : paramValueUnsaved s.store q = true) (howed : owed q)
    (n : ℕ) : ∀ (turns : ℕ → Reading) (index : ℕ), TurnsFit t s owed turns n index → index ≤ q →
      (∀ message ∈ (sendChanged t s turns n index).2.2, ¬ Carries t s.store q message) →
      (sendChanged t s turns n index).1 ≤ q := by
  induction n with
  | zero =>
      intro turns index _ hle _
      exact hle
  | succ n ih =>
      intro turns index hfit hle hnot
      unfold TurnsFit at hfit
      rcases nextUsed_cases t s.used index with ⟨p, hp, _, hpc, hfirst⟩ | ⟨i, _, _, hrest⟩
      · have hpq : p ≤ q := hfirst q hle hused
        simp only [hp] at hfit
        -- the turn is not that of `q`, which would have been sent
        have hne : (∀ message ∈ turnOut t s p (turns 0).freeForParam,
            ¬ Carries t s.store q message) → p ≠ q := by
          rintro hout rfl
          have hroom := hfit.1 howed
          rcases sendParam_cases (t := t) s hpc (turns 0).freeForParam with
            ⟨hfull, _⟩ | ⟨_, message, hsend, hcarries⟩
          · omega
          · refine hout message ?_ hcarries
            simp [turnOut, hunsaved, hsend]
        rcases sendChanged_turn (t := t) s turns n hp with ⟨hindex, hout⟩ | ⟨hgo, hindex, hout⟩
        · rw [hout] at hnot
          have := hne hnot
          omega
        · rw [hout] at hnot
          have := hne fun m hm => hnot m (List.mem_append_left _ hm)
          rw [hindex]
          exact ih _ _ (hfit.2 hgo) (by omega) fun m hm => hnot m (List.mem_append_right _ hm)
      · rw [hrest q hle hq] at hused
        cases hused

theorem sendChanged_enough (s : Link F) (n : ℕ) : ∀ (turns : ℕ → Reading) (index : ℕ),
    t.count < n + index → n ≠ 0 → sendChanged t s turns (n + 1) index =
      sendChanged t s turns n index := by
  induction n with
  | zero =>
      intro _ _ _ h
      exact absurd rfl h
  | succ n ih =>
      intro turns index hlt _
      -- a turn that goes on leaves a parameter, and has gone past one
      have hnext : ∀ index', index < index' → (turns 0).goesOn t index' = true →
          sendChanged t s (fun k => turns (k + 1)) (n + 1) index' =
            sendChanged t s (fun k => turns (k + 1)) n index' := by
        intro index' hpast hgo
        have hleft : index' < t.count := by
          simp only [Reading.goesOn, Bool.and_eq_true, decide_eq_true_eq] at hgo
          exact hgo.2
        exact ih _ _ (by omega) (by omega)
      rw [sendChanged]
      conv_rhs => rw [sendChanged]
      rcases nextUsed_cases t s.used index with ⟨p, hp, hip, _, _⟩ | ⟨i, hi, hic, _⟩
      · simp only [hp]
        by_cases hgo : (turns 0).goesOn t (p + 1) = true
        · rw [hnext (p + 1) (by omega) hgo]
        · simp [hgo]
      · have hgo : (turns 0).goesOn t i = false := by
          simp [Reading.goesOn]
          omega
        simp [hi, hgo]

/-! ## The invariant -/

/-- Nothing that is owed is forgotten. -/
structure Tracked (t : Table F) (s : Link F) (log : List (Entry F)) : Prop where
  inv : s.store.Inv t
  stamped : s.manager.unread ≠ some 0
  owed : ∀ p, Owed t s log p → s.manager.unread.isSome = true ∨
    (s.manager.paramUpdateTime ≠ 0 ∧ s.manager.paramUpdateIndex ≤ p)

/-- No update is cleared while the pass is beyond an owed parameter, and no owed parameter is tried
without room for it. -/
def UntransmittedCareful (t : Table F) (s : Link F) (log : List (Entry F)) (r : Round) : Prop :=
  (s.manager.updated r = true → s.manager.paramUpdateTime ≠ 0 →
    ∀ p, Owed t s log p → s.manager.paramUpdateIndex ≤ p) ∧
  ((s.manager.takeUpdate r).due r = true →
    TurnsFit t s (Owed t s log) r.turns (t.count + 1) (s.manager.takeUpdate r).paramUpdateIndex)

/-- `send_untransmitted` is careful where `send_params` comes to it. -/
def ParamsCareful (t : Table F) (s : Link F) (log : List (Entry F)) (r : Round) : Prop :=
  r.uavcan = false → (sendOne t s r.freeForOne).2.1 = false →
    UntransmittedCareful t { s with manager := (sendOne t s r.freeForOne).1 }
      (addSent (sendOne t s r.freeForOne).2.2 log) r

/-- Every round of `send` is careful. -/
def LoopCareful (t : Table F) : ℕ → Link F → List (Entry F) → (ℕ → Round) → Prop
  | 0, _, _, _ => True
  | n + 1, s, log, rounds =>
      (rounds 0).fits = true →
        ParamsCareful t s log (rounds 0) ∧
          ((sendParams t s (rounds 0)).2.1 = true →
            LoopCareful t n { s with manager := (sendParams t s (rounds 0)).1 }
              (addSent (sendParams t s (rounds 0)).2.2 log) fun k => rounds (k + 1))

theorem Owed.congr {s : Link F} {m : Manager} {log : List (Entry F)} {p : ℕ}
    (hm : m.firstSend = s.manager.firstSend) (h : Owed t { s with manager := m } log p) :
    Owed t s log p := by
  refine ⟨?_, h.unsaved, h.notSent⟩
  have := h.counts
  simp only [Link.counts, hm] at this
  exact this

theorem Tracked.congr {s : Link F} {log : List (Entry F)} (h : Tracked t s log) {m : Manager}
    (out : List (Message F)) (hfirst : m.firstSend = s.manager.firstSend)
    (hunread : m.unread = s.manager.unread)
    (htime : m.paramUpdateTime = s.manager.paramUpdateTime)
    (hindex : m.paramUpdateIndex = s.manager.paramUpdateIndex) :
    Tracked t { s with manager := m } (addSent out log) := by
  refine ⟨h.inv, ?_, ?_⟩
  · rw [hunread]
    exact h.stamped
  · intro p hp
    simp only [hunread, htime, hindex]
    exact h.owed p (hp.of_addSent.congr hfirst)

/-- `send_one` only changes how far it has come itself. -/
theorem sendOne_manager (t : Table F) (s : Link F) (free : ℕ) :
    ∃ index, (sendOne t s free).1 = { s.manager with sendAllIndex := index } := by
  unfold sendOne
  dsimp only
  split
  · exact ⟨_, rfl⟩
  · split
    · exact ⟨_, rfl⟩
    · split
      · exact ⟨_, rfl⟩
      · split <;> exact ⟨_, rfl⟩

theorem Manager.takeUpdate_firstSend (m : Manager) (r : Round) :
    (m.takeUpdate r).firstSend = m.firstSend := by
  unfold takeUpdate
  split <;> rfl

theorem Tracked.takeUpdate {s : Link F} {log : List (Entry F)} (h : Tracked t s log) {r : Round}
    (hcareful : s.manager.updated r = true → s.manager.paramUpdateTime ≠ 0 →
      ∀ p, Owed t s log p → s.manager.paramUpdateIndex ≤ p) :
    Tracked t { s with manager := s.manager.takeUpdate r } log := by
  have hfirst := s.manager.takeUpdate_firstSend r
  by_cases hupdated : s.manager.updated r = true
  · have hunread : s.manager.unread.isSome = true := (Bool.and_eq_true_iff.1 hupdated).1
    refine ⟨h.inv, ?_, ?_⟩
    · simp [Manager.takeUpdate, hupdated]
    · intro p hp
      right
      simp only [Manager.takeUpdate, hupdated, if_true]
      by_cases htime : s.manager.paramUpdateTime = 0
      · obtain ⟨timestamp, hts⟩ := Option.isSome_iff_exists.1 hunread
        have hne : timestamp ≠ 0 := fun h0 => h.stamped (by rw [hts, h0])
        simpa [htime, hts] using hne
      · simpa [htime] using hcareful hupdated htime p (hp.congr hfirst)
  · have hsame : s.manager.takeUpdate r = s.manager := if_neg hupdated
    rw [hsame]
    exact h

theorem Tracked.pass {s : Link F} {m : Manager} {log : List (Entry F)}
    (h : Tracked t { s with manager := m } log) (hfirst : s.manager.firstSend = true)
    (hm : m.firstSend = s.manager.firstSend) {turns : ℕ → Reading} {n : ℕ}
    (hfit : TurnsFit t s (Owed t s log) turns n m.paramUpdateIndex) :
    Tracked t
      { s with manager := m.advance t (sendChanged t s turns n m.paramUpdateIndex).1 }
      (addSent (sendChanged t s turns n m.paramUpdateIndex).2.2 log) := by
  refine ⟨h.inv, h.stamped, ?_⟩
  intro p hp
  have hs : Owed t s log p := Owed.congr (m := m.advance t _) hm hp.of_addSent
  have hbefore : Owed t { s with manager := m } log p := hs.congr hm.symm
  rcases h.owed p hbefore with hunread | ⟨htime, hindex⟩
  · exact .inl hunread
  · right
    have hlt : p < t.count := lt_count_of_unsaved h.inv hs.unsaved
    have hused : s.used p = true := by
      have := hs.counts
      simpa [Link.counts, hfirst] using this
    have hle := sendChanged_index_le s hlt hused hs.unsaved hs n turns _ hfit hindex
      fun message hmem hcarries => hp.notSent (sent_of_mem hmem hcarries)
    have hshort : ¬ (sendChanged t s turns n m.paramUpdateIndex).1 ≥ t.count := by omega
    simp only [Manager.advance, hshort, if_false]
    exact ⟨htime, hle⟩

theorem Tracked.untransmitted {s : Link F} {log : List (Entry F)} (h : Tracked t s log)
    (hfirst : s.manager.firstSend = true) {r : Round} (hcareful : UntransmittedCareful t s log r) :
    Tracked t { s with manager := (sendUntransmitted t s r).1 }
        (addSent (sendUntransmitted t s r).2.2 log) ∧
      (sendUntransmitted t s r).1.firstSend = true := by
  have htake := h.takeUpdate hcareful.1
  have hsame := s.manager.takeUpdate_firstSend r
  unfold sendUntransmitted
  by_cases hdue : (s.manager.takeUpdate r).due r = true
  · simp only [hdue, if_true]
    exact ⟨htake.pass hfirst hsame (hcareful.2 hdue), hsame.trans hfirst⟩
  · simp only [hdue]
    exact ⟨htake.congr [] rfl rfl rfl rfl, hsame.trans hfirst⟩

/-- A careful call of `send_params` keeps the invariant. -/
theorem Tracked.params {s : Link F} {log : List (Entry F)} (h : Tracked t s log)
    (hfirst : s.manager.firstSend = true) {r : Round} (hcareful : ParamsCareful t s log r) :
    Tracked t { s with manager := (sendParams t s r).1 }
        (addSent (sendParams t s r).2.2 log) ∧ (sendParams t s r).1.firstSend = true := by
  obtain ⟨index, hone⟩ := sendOne_manager t s r.freeForOne
  have htracked : Tracked t { s with manager := (sendOne t s r.freeForOne).1 }
      (addSent (sendOne t s r.freeForOne).2.2 log) := by
    refine h.congr _ ?_ ?_ ?_ ?_ <;> rw [hone]
  have hfirst' : (sendOne t s r.freeForOne).1.firstSend = true := by
    rw [hone]
    exact hfirst
  unfold ParamsCareful at hcareful
  unfold sendParams
  cases huavcan : r.uavcan with
  | true => exact ⟨h.congr [] rfl rfl rfl rfl, hfirst⟩
  | false =>
      simp only [Bool.false_eq_true, if_false]
      generalize sendOne t s r.freeForOne = one at *
      obtain ⟨m, more, out⟩ := one
      cases more with
      | true => exact ⟨htracked, hfirst'⟩
      | false =>
          have hdone := htracked.untransmitted hfirst' (hcareful huavcan rfl)
          rw [← addSent_append] at hdone
          exact hdone

theorem Tracked.loop (n : ℕ) : ∀ {s : Link F} {log : List (Entry F)} {rounds : ℕ → Round},
    Tracked t s log → s.manager.firstSend = true → LoopCareful t n s log rounds →
    Tracked t (sendLoop t n s rounds).1 (addSent (sendLoop t n s rounds).2 log) := by
  induction n with
  | zero =>
      intro s log rounds h _ _
      exact h
  | succ n ih =>
      intro s log rounds h hfirst hcareful
      unfold LoopCareful at hcareful
      unfold sendLoop
      cases hfits : (rounds 0).fits with
      | false => exact h
      | true =>
          obtain ⟨hparams, hnext⟩ := hcareful hfits
          obtain ⟨htracked, hfirst'⟩ := h.params hfirst hparams
          simp only [if_true]
          generalize sendParams t s (rounds 0) = round at *
          obtain ⟨m, more, out⟩ := round
          cases more with
          | false => exact htracked
          | true =>
              have hdone := ih htracked hfirst' (hnext rfl)
              rw [← addSent_append] at hdone
              exact hdone

/-! ## Runs -/

/-- The condition on a step.  A parameter that is set with a publication needs nothing but a clock
that has started; one that is set without must be one that nobody waits for, or the manager must
come to it anyway. -/
def Careful (exceeds : F → F → Bool) (t : Table F) (p : Link F × List (Entry F)) :
    Event F → Prop
  | .paramSet param val timestamp =>
      if publishes exceeds t p.1.store param val then timestamp ≠ 0
      else p.1.counts t param = true → param < t.count → p.1.manager.unread.isSome = true ∨
        (p.1.manager.paramUpdateTime ≠ 0 ∧ p.1.manager.paramUpdateIndex ≤ param)
  | .requestList => True
  | .send serial rounds =>
      LoopCareful t (if serial then 3 else 20) (markRequired t p.1) p.2 rounds

theorem Tracked.markRequired {s : Link F} {log : List (Entry F)} (h : Tracked t s log) :
    Tracked t (markRequired t s) log ∧ (Parameters.markRequired t s).manager.firstSend = true := by
  unfold Parameters.markRequired
  cases hfirst : s.manager.firstSend with
  | true => exact ⟨h, hfirst⟩
  | false =>
      refine ⟨⟨h.inv, h.stamped, ?_⟩, rfl⟩
      intro p hp
      refine h.owed p ⟨?_, hp.unsaved, hp.notSent⟩
      have := hp.counts
      simpa [Link.counts, hfirst] using this

theorem paramSet_other {s : Store F} (h : s.Inv t) (ops : FloatOps F) (param : ℕ)
    (val : ParamValue F) :
    (Params.paramSet ops t s param val).2.Inv t ∧ ∀ q, q ≠ param →
      paramValueUnsaved (Params.paramSet ops t s param val).2 q = paramValueUnsaved s q ∧
      paramGet t (Params.paramSet ops t s param val).2 q = paramGet t s q := by
  cases htype : paramType t param with
  | none =>
      have hsame : (Params.paramSet ops t s param val).2 = s := by
        simp [Params.paramSet, paramSetInternal, htype]
      rw [hsame]
      exact ⟨h, fun q _ => ⟨rfl, rfl⟩⟩
  | some type =>
      obtain ⟨hinv, hvalues, hdefault, _, hother⟩ := h.set ops val false htype rfl
      refine ⟨hinv, ?_⟩
      intro q hq
      have hfind : paramFindChanged (Params.paramSet ops t s param val).2 q =
          paramFindChanged s q := by
        rw [h.findChanged]
        exact (hinv.findChanged q).trans (hother q hq)
      have hdflt := defaultValue_congr (t := t) hvalues hdefault q
      unfold paramValueUnsaved paramGet
      rw [hfind]
      exact ⟨rfl, by rw [show defaultValue t (Params.paramSet ops t s param val).2 q =
        _ from hdflt]⟩

theorem Tracked.paramSet {s : Link F} {log : List (Entry F)} (h : Tracked t s log) {param : ℕ}
    {val : ParamValue F} {timestamp : UInt64}
    (hcareful : Careful exceeds t (s, log) (.paramSet param val timestamp)) :
    Tracked t (paramSet ops exceeds t s param val timestamp) (.set param :: log) := by
  obtain ⟨hinv, hother⟩ := paramSet_other h.inv ops param val
  unfold Careful at hcareful
  unfold Parameters.paramSet
  cases hpub : publishes exceeds t s.store param val with
  | true =>
      simp only [hpub, if_true] at hcareful ⊢
      exact ⟨hinv, by simpa using hcareful, fun p _ => .inl rfl⟩
  | false =>
      simp only [hpub, Bool.false_eq_true, if_false] at hcareful ⊢
      refine ⟨hinv, h.stamped, ?_⟩
      intro p hp
      by_cases hparam : p = param
      · subst hparam
        exact hcareful hp.counts (lt_count_of_unsaved hinv hp.unsaved)
      · obtain ⟨hunsaved, hget⟩ := hother p hparam
        refine h.owed p ⟨hp.counts, ?_, ?_⟩
        · rw [← hunsaved]
          exact hp.unsaved
        · intro hsent
          obtain ⟨message, hmem, info, v, c, i, hinfo, hv, rfl⟩ := hsent
          refine hp.notSent ⟨_, ?_, info, v, c, i, hinfo, hget.trans hv, rfl⟩
          simpa [sinceSet, Ne.symm hparam] using hmem

theorem Tracked.step (p : Link F × List (Entry F)) (e : Event F) (h : Tracked t p.1 p.2)
    (hcareful : Careful exceeds t p e) :
    Tracked t (historyStep (step ops exceeds t) (record t) p e).1
      (historyStep (Parameters.step ops exceeds t) (record t) p e).2 := by
  obtain ⟨s, log⟩ := p
  cases e with
  | paramSet param val timestamp => exact h.paramSet hcareful
  | requestList => exact h.congr [] rfl rfl rfl rfl
  | send serial rounds =>
      obtain ⟨hmark, hfirst⟩ := h.markRequired
      exact hmark.loop _ hfirst hcareful

theorem tracked_initial {store : Store F} (hinv : store.Inv t)
    (hsaved : ∀ p, paramValueUnsaved store p = false) (used : ℕ → Bool) :
    Tracked t ⟨store, used, .initial⟩ [] := by
  refine ⟨hinv, by simp [Manager.initial], ?_⟩
  intro p hp
  have := hp.unsaved
  rw [hsaved p] at this
  cases this

/-- In a run whose steps are all careful, whenever the manager has no pass under way and no update
to read, every used parameter that is unsaved was sent with its value since it was last set. -/
theorem changes_reach_ground (ops : FloatOps F) (exceeds : F → F → Bool) (t : Table F)
    (store : Store F) (hinv : store.Inv t) (hsaved : ∀ p, paramValueUnsaved store p = false)
    (used : ℕ → Bool) (es : List (Event F))
    (hcareful : AllSteps (historyStep (step ops exceeds t) (record t)) (Careful exceeds t)
      (⟨store, used, .initial⟩, []) es) :
    ∀ p ∈ visited (historyStep (step ops exceeds t) (record t)) (⟨store, used, .initial⟩, []) es,
      p.1.manager.paramUpdateTime = 0 → p.1.manager.unread = none →
        ∀ param, p.1.used param = true → paramValueUnsaved p.1.store param = true →
          Sent t p.1.store p.2 param := by
  intro p hp htime hunread param hused hunsaved
  have htracked : Tracked t p.1 p.2 :=
    invariant_of_allSteps (fun p e h hc => Tracked.step p e h hc) (tracked_initial hinv hsaved used)
      hcareful p hp
  by_contra hsent
  have hcounts : p.1.counts t param = true := by simp [Link.counts, hused]
  rcases htracked.owed param ⟨hcounts, hunsaved, hsent⟩ with h | ⟨h, _⟩
  · simp [hunread] at h
  · exact h htime

/-- A call of `send` that has one round, on a link with so many free bytes after each parameter. -/
def roundAt (now : UInt64) (free : ℕ) (k : ℕ) : Round where
  free := if k = 0 then 100 else 0
  critical := false
  uavcan := false
  freeForOne := 100
  checkedAt := now
  copiedAt := now
  now := now
  turns := fun _ => ⟨100, free, false⟩

/-- A link with two used parameters, of which none was set. -/
def smallLink : Link SmallFloat × List (Entry SmallFloat) :=
  (⟨Store.initial SmallFloat, fun _ => true, .initial⟩, [])

/-- The steps of that link. -/
def smallStep : Link SmallFloat × List (Entry SmallFloat) → Event SmallFloat →
    Link SmallFloat × List (Entry SmallFloat) :=
  historyStep (step smallOps (fun x y => decide (x ≠ y)) smallTable) (record smallTable)

/-- The second parameter is set and sent. -/
def sentRun : List (Event SmallFloat) :=
  [.paramSet 1 ⟨0, .half⟩ 10, .send true (roundAt 2000000 100)]

theorem turnsFit_of_room (t : Table F) (s : Link F) (owed : ℕ → Prop) (n : ℕ) :
    ∀ (turns : ℕ → Reading) (index : ℕ), (∀ k, paramValueLen ≤ (turns k).freeForParam) →
      TurnsFit t s owed turns n index := by
  induction n with
  | zero =>
      intro _ _ _
      trivial
  | succ n ih =>
      intro turns index hroom
      unfold TurnsFit
      split
      · trivial
      · exact ⟨fun _ => hroom 0, fun _ => ih _ _ fun k => hroom (k + 1)⟩

theorem changes_reach_ground_two :
    (exec smallStep smallLink sentRun).1.manager.paramUpdateTime = 0 ∧
      (exec smallStep smallLink sentRun).1.manager.unread = none ∧
      paramValueUnsaved (exec smallStep smallLink sentRun).1.store 1 = true ∧
      Sent smallTable (exec smallStep smallLink sentRun).1.store
        (exec smallStep smallLink sentRun).2 1 := by
  have htime : (exec smallStep smallLink sentRun).1.manager.paramUpdateTime = 0 := by decide +kernel
  have hunread : (exec smallStep smallLink sentRun).1.manager.unread = none := by decide +kernel
  have hunsaved : paramValueUnsaved (exec smallStep smallLink sentRun).1.store 1 = true := by
    decide +kernel
  refine ⟨htime, hunread, hunsaved, ?_⟩
  refine changes_reach_ground smallOps (fun x y => decide (x ≠ y)) smallTable
    (Store.initial SmallFloat)
    (Store.inv_initial smallTable) (fun _ => rfl) (fun _ => true) sentRun ⟨?_, ?_, trivial⟩ _
    (exec_mem_visited smallStep smallLink sentRun) htime hunread 1 rfl hunsaved
  · show (10 : UInt64) ≠ 0
    decide
  · -- one round, which takes the update and goes through the parameters
    intro _
    refine ⟨fun _ _ => ⟨fun _ htime => absurd rfl htime, fun _ => ?_⟩, fun _ hfits => ?_⟩
    · exact turnsFit_of_room _ _ _ _ _ _ fun _ => show 25 ≤ 100 by decide
    · exact absurd hfits (by decide)

/-- The pass for the second parameter stops behind the first one, which is then set. -/
def lostRun : List (Event SmallFloat) :=
  [.paramSet 1 ⟨0, .half⟩ 10, .send true (roundAt 2000000 0), .paramSet 0 ⟨7, .zero⟩ 2000100,
    .send true (roundAt 4000000 100)]

/-- The update of the first parameter is cleared, the pass goes on behind it, and it is never
sent. -/
theorem change_behind_pass_lost :
    ¬ ∀ p ∈ visited smallStep smallLink lostRun,
      p.1.manager.paramUpdateTime = 0 → p.1.manager.unread = none →
        ∀ param, p.1.used param = true → paramValueUnsaved p.1.store param = true →
          Sent smallTable p.1.store p.2 param := by
  intro hall
  obtain ⟨message, hmem, hcarries⟩ := hall (exec smallStep smallLink lostRun)
    (exec_mem_visited smallStep smallLink lostRun) (by decide +kernel) (by decide +kernel) 0 rfl
    (by decide +kernel)
  -- all that went out since is the second parameter
  have hout : sinceSet 0 (exec smallStep smallLink lostRun).2 =
      [.paramValue ⟨ascii "MC_ROLL_P", by decide⟩ (.inr .half) .float 2 1] := by decide +kernel
  obtain ⟨info, v, c, i, hinfo, _, rfl⟩ := hcarries
  have hint : info.type = .int32 := by
    have hsome : some info = smallTable.infos[0]? := hinfo.symm
    cases hsome
    rfl
  rw [hout, hint] at hmem
  simp at hmem

end Parameters
end Mavlink
end DtPhm
