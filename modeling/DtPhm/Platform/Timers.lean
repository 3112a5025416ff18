import DtPhm.Platform.Hrt
import DtPhm.Lib.Run
import Mathlib.Data.List.Sort

/-!
# Timers — what the callouts are for

The same machine over a list in the order of the deadlines, with no links to follow and no fuel.

* `Timers` and its `step`;
* `Sound`, `isSound_step` — the list holds the entries with a deadline, each once, in their order;
* `step_of_other` — what becomes of an entry in a step that is no call about it;
* `OnSchedule`, `firings_outputs` — a periodic entry is due at its first time plus a number of
  periods;
* `Off`, `firings_once` — an entry without a period is due once;
* `Wakes` — the handler comes in time for all of the list.
-/

namespace DtPhm
namespace Platform

open Lib Hrt

universe u

variable {α : Type u}

/-- The entries in the order in which they will be called. -/
structure Timers (α : Type u) where
  queued : List α
  calls : α → HrtCall
  work : Option ℕ
  isr : Isr α

namespace Timers

def init : Timers α := ⟨[], fun _ => ⟨0, 0, false⟩, none, .idle⟩

/-- One entry is due before another. -/
def Before (calls : α → HrtCall) (a b : α) : Prop := (calls a).deadline < (calls b).deadline

instance (calls : α → HrtCall) : DecidableRel (Before calls) :=
  fun a b => inferInstanceAs (Decidable ((calls a).deadline < (calls b).deadline))

/-- The time at which the handler is to run. -/
def wakeTime (calls : α → HrtCall) (r : Reads) : List α → ℕ
  | [] => r.qtime + hrtIntervalMax
  | e :: _ => r.qtime + max hrtIntervalMin (min ((calls e).deadline - r.now) hrtIntervalMax)

variable [DecidableEq α] (t : Timers α)

def reschedule (now : Reads) : Timers α := { t with work := some (wakeTime t.calls now t.queued) }

/-- The list with the entry at its place, behind those that are due at the same time. -/
def insert (e : α) : List α := t.queued.orderedInsert (Before t.calls) e

/-- The entry takes its place. -/
def enter (e : α) (now : Reads) : Timers α :=
  { t with
    queued := t.insert e
    work := if (t.insert e).head? = some e then some (wakeTime t.calls now (t.insert e)) else
      t.work }

/-- The entry leaves the list, and is written. -/
def take (e : α) (c : HrtCall) : Timers α :=
  { t with queued := t.queued.erase e, calls := Function.update t.calls e c }

/-- A callout is over. -/
def reenter (e : α) (deadline now : ℕ) (now' : Reads) : Timers α :=
  if (t.calls e).period = 0 then { t with isr := .looping }
  else
    let next :=
      if (t.calls e).deadline ≤ now then deadline + (t.calls e).period else (t.calls e).deadline
    let calls := Function.update t.calls e { t.calls e with deadline := next }
    { enter { t with calls := calls } e now' with isr := .looping }

def due (now : ℕ) : Option α := t.queued.head?.filter fun e => decide ((t.calls e).deadline ≤ now)

/-- The head of the list is called if it is due. -/
def next (now : ℕ) (now' : Reads) : Timers α :=
  match t.due now with
  | none => { t with isr := .leaving }
  | some e =>
      let called := t.take e { t.calls e with deadline := 0 }
      if (t.calls e).callout then { called with isr := .calling e (t.calls e).deadline now }
      else called.reenter e (t.calls e).deadline now now'

def step : Event α → Timers α
  | .call e c now => (t.take e c).enter e now
  | .cancel e => t.take e { t.calls e with deadline := 0, period := 0 }
  | .delay e delay now =>
      { t with calls := Function.update t.calls e { t.calls e with deadline := now + delay } }
  | .expire now =>
      match t.isr, t.work with
      | .idle, some time => if time ≤ now then { t with work := none, isr := .looping } else t
      | _, _ => t
  | .invoke now now' =>
      match t.isr with
      | .looping => t.next now now'
      | _ => t
  | .returned now' =>
      match t.isr with
      | .calling e deadline now => t.reenter e deadline now now'
      | _ => t
  | .reschedule now =>
      match t.isr with
      | .leaving => { t.reschedule now with isr := .idle }
      | _ => t

/-- What an event takes off the list as due. -/
def fired : Event α → List (α × ℕ)
  | .invoke now _ =>
      match t.isr with
      | .looping => ((t.due now).map fun e => (e, (t.calls e).deadline)).toList
      | _ => []
  | _ => []

/-! ## The list -/

/-- The list holds the entries that have a deadline, each once, and in the order of the deadlines.
An entry whose callout is running may have been given a deadline by it, if it is periodic. -/
structure Sound (l : List α) (calls : α → HrtCall) (isr : Isr α) : Prop where
  nodup : l.Nodup
  sorted : l.Pairwise fun a b => (calls a).deadline ≤ (calls b).deadline
  queued : ∀ e ∈ l, (calls e).deadline ≠ 0
  called : ∀ e ∉ l, (calls e).deadline = 0 ∨ isr.Running e ∧ (calls e).period ≠ 0
  once : ∀ e ∈ l, isr.Running e → (calls e).period = 0

variable {l : List α} {calls : α → HrtCall} {isr isr' : Isr α} {e : α} {c : HrtCall}

omit [DecidableEq α] in
theorem sorted_orderedInsert (hsorted : l.Pairwise fun a b =>
  (calls a).deadline ≤ (calls b).deadline) :
    (l.orderedInsert (Before calls) e).Pairwise fun a b =>
      (calls a).deadline ≤ (calls b).deadline := by
  induction l with
  | nil => exact List.pairwise_singleton _ e
  | cons a l ih =>
      obtain ⟨ha, hl⟩ := List.pairwise_cons.1 hsorted
      by_cases hea : Before calls e a
      · rw [List.orderedInsert_cons_of_le _ _ hea]
        refine List.pairwise_cons.2 ⟨?_, hsorted⟩
        intro b hb
        rcases List.mem_cons.1 hb with rfl | hb
        · exact le_of_lt hea
        · exact (le_of_lt hea).trans (ha b hb)
      · rw [List.orderedInsert_of_not_le _ _ hea]
        refine List.pairwise_cons.2 ⟨?_, ih hl⟩
        intro b hb
        rcases (List.mem_orderedInsert _).1 hb with rfl | hb
        · exact not_lt.1 hea
        · exact ha b hb

theorem update_of_mem (he : e ∉ l) (c : HrtCall) : ∀ a ∈ l, Function.update calls e c a = calls a :=
  fun _ ha => Function.update_of_ne (ne_of_mem_of_not_mem ha he) c calls

theorem sorted_update (hsorted : l.Pairwise fun a b => (calls a).deadline ≤ (calls b).deadline)
    (he : e ∉ l) (c : HrtCall) :
    l.Pairwise fun a b =>
      (Function.update calls e c a).deadline ≤ (Function.update calls e c b).deadline := by
  refine hsorted.imp_of_mem ?_
  intro a b ha hb hab
  rwa [update_of_mem he c a ha, update_of_mem he c b hb]

namespace Sound

theorem write (h : Sound l calls isr) (he : e ∉ l)
    (hc : c.deadline = 0 ∨ isr.Running e ∧ c.period ≠ 0) :
    Sound l (Function.update calls e c) isr := by
  refine ⟨h.nodup, sorted_update h.sorted he c, ?_, ?_, ?_⟩
  · intro a ha
    rw [update_of_mem he c a ha]
    exact h.queued a ha
  · intro a ha
    by_cases hae : a = e
    · subst hae
      rwa [Function.update_self]
    · rw [Function.update_of_ne hae]
      exact h.called a ha
  · intro a ha
    rw [update_of_mem he c a ha]
    exact h.once a ha

theorem take (h : Sound l calls isr) (hc : c.deadline = 0) :
    Sound (l.erase e) (Function.update calls e c) isr := by
  have he : e ∉ l.erase e := h.nodup.not_mem_erase
  refine ⟨h.nodup.erase e, ?_, ?_, ?_, ?_⟩
  · exact sorted_update (h.sorted.sublist List.erase_sublist) he c
  · intro a ha
    rw [update_of_mem he c a ha]
    exact h.queued a (List.mem_of_mem_erase ha)
  · intro a ha
    by_cases hae : a = e
    · subst hae
      rw [Function.update_self]
      exact Or.inl hc
    · rw [Function.update_of_ne hae]
      exact h.called a fun hmem => ha ((List.mem_erase_of_ne hae).2 hmem)
  · intro a ha
    rw [update_of_mem he c a ha]
    exact h.once a (List.mem_of_mem_erase ha)

theorem put (h : Sound l calls isr) (he : e ∉ l) (hdeadline : c.deadline ≠ 0)
    (honce : isr.Running e → c.period = 0) :
    Sound (l.orderedInsert (Before (Function.update calls e c)) e) (Function.update calls e c)
      isr := by
  have hself : Function.update calls e c e = c := Function.update_self e c calls
  refine ⟨?_, sorted_orderedInsert (sorted_update h.sorted he c), ?_, ?_, ?_⟩
  · exact (List.perm_orderedInsert _ e l).nodup_iff.2 (List.nodup_cons.2 ⟨he, h.nodup⟩)
  · intro a ha
    rcases (List.mem_orderedInsert _).1 ha with rfl | ha
    · rwa [hself]
    · rw [update_of_mem he c a ha]
      exact h.queued a ha
  · intro a ha
    rw [List.mem_orderedInsert, not_or] at ha
    rw [Function.update_of_ne ha.1]
    exact h.called a ha.2
  · intro a ha
    rcases (List.mem_orderedInsert _).1 ha with rfl | ha
    · rwa [hself]
    · rw [update_of_mem he c a ha]
      exact h.once a ha

omit [DecidableEq α] in
theorem quiet (h : Sound l calls isr) (hcalled : ∀ e ∉ l, (calls e).deadline = 0)
    (hisr' : ∀ e, ¬isr'.Running e) : Sound l calls isr' := by
  refine ⟨h.nodup, h.sorted, h.queued, ?_, ?_⟩
  · intro a ha
    exact Or.inl (hcalled a ha)
  · intro a _ hrunning
    exact absurd hrunning (hisr' a)

omit [DecidableEq α] in
theorem called_of_idle (h : Sound l calls isr) (hisr : ∀ e, ¬isr.Running e) :
    ∀ e ∉ l, (calls e).deadline = 0 := fun e he =>
  (h.called e he).resolve_right fun hrunning => hisr e hrunning.1

omit [DecidableEq α] in
theorem calling (h : Sound l calls isr) (hisr : ∀ e, ¬isr.Running e) (he : e ∉ l)
    (deadline now : ℕ) :
    Sound l calls (.calling e deadline now) := by
  refine ⟨h.nodup, h.sorted, h.queued, ?_, ?_⟩
  · intro a ha
    exact Or.inl (h.called_of_idle hisr a ha)
  · rintro a ha rfl
    exact absurd ha he

end Sound

omit [DecidableEq α] in
theorem head_le {a : α} (h : Sound (a :: l) calls isr) (he : e ∈ a :: l) :
    (calls a).deadline ≤ (calls e).deadline := by
  rcases List.mem_cons.1 he with rfl | he
  · exact le_rfl
  · exact (List.pairwise_cons.1 h.sorted).1 e he

/-- The list and the entries are sound. -/
def IsSound : Prop := Sound t.queued t.calls t.isr

variable {t}

omit [DecidableEq α] in
theorem isSound_init : (init : Timers α).IsSound :=
  ⟨List.nodup_nil, List.Pairwise.nil, fun _ he => absurd he List.not_mem_nil, fun _ _ => Or.inl rfl,
    fun _ he => absurd he List.not_mem_nil⟩

/-- The entry goes back into the list if it has a period.  Only its own callout can have been
running. -/
theorem IsSound.reenter (h : t.IsSound) (hisr : ∀ a, t.isr.Running a → a = e)
    (he : (t.calls e).period ≠ 0 → e ∉ t.queued) (deadline now : ℕ) (now' : Reads) :
    (t.reenter e deadline now now').IsSound := by
  unfold Timers.reenter
  by_cases hperiod : (t.calls e).period = 0
  · rw [if_pos hperiod]
    refine h.quiet ?_ fun _ => id
    intro a ha
    refine (h.called a ha).resolve_right ?_
    rintro ⟨hrunning, hne⟩
    obtain rfl := hisr a hrunning
    exact hne hperiod
  · rw [if_neg hperiod]
    have hmem : e ∉ t.queued := he hperiod
    set next :=
      if (t.calls e).deadline ≤ now then deadline + (t.calls e).period else
        (t.calls e).deadline with hnext
    have hpos : next ≠ 0 := by
      rw [hnext]
      split
      · omega
      · omega
    -- without a deadline the list is sound with the callout over
    have hquiet : Sound t.queued (Function.update t.calls e ⟨0, 0, false⟩) .looping := by
      refine (h.write hmem (Or.inl rfl)).quiet ?_ fun _ => id
      intro a ha
      by_cases hae : a = e
      · subst hae
        rw [Function.update_self]
      · rw [Function.update_of_ne hae]
        exact (h.called a ha).resolve_right fun hrunning => hae (hisr a hrunning.1)
    have hput :=
      hquiet.put (c := { t.calls e with deadline := next }) hmem hpos fun hrunning => hrunning.elim
    rwa [Function.update_idem] at hput

omit [DecidableEq α] in
theorem eq_cons_of_due {now : ℕ} (hdue : t.due now = some e) :
    ∃ rest, t.queued = e :: rest ∧ (t.calls e).deadline ≤ now := by
  obtain ⟨hhead, hle⟩ := Option.filter_eq_some_iff.1 hdue
  obtain ⟨rest, hrest⟩ := List.head?_eq_some_iff.1 hhead
  exact ⟨rest, hrest, of_decide_eq_true hle⟩

omit [DecidableEq α] in
theorem lt_of_due_eq_none {now : ℕ} (h : t.IsSound) (hdue : t.due now = none) (he : e ∈ t.queued) :
    now < (t.calls e).deadline := by
  cases hqueued : t.queued with
  | nil =>
      rw [hqueued] at he
      exact absurd he List.not_mem_nil
  | cons a l =>
      have hsound : Sound (a :: l) t.calls t.isr := hqueued ▸ h
      have hhead := Option.filter_eq_none_iff.1 hdue a (by rw [hqueued, List.head?_cons])
      rw [hqueued] at he
      calc
        now < (t.calls a).deadline := not_le.1 fun hle => hhead (decide_eq_true hle)
        _ ≤ (t.calls e).deadline := head_le hsound he

theorem IsSound.next (h : t.IsSound) (hisr : ∀ a, ¬t.isr.Running a) (now : ℕ) (now' : Reads) :
    (t.next now now').IsSound := by
  unfold Timers.next
  split
  · exact h.quiet (h.called_of_idle hisr) fun _ => id
  · rename_i e hdue
    have hmem : e ∉ t.queued.erase e := h.nodup.not_mem_erase
    have htake : (t.take e { t.calls e with deadline := 0 }).IsSound := h.take rfl
    dsimp only
    split
    · exact Sound.calling htake hisr hmem _ _
    · refine htake.reenter ?_ (fun _ => hmem) _ now now'
      intro a hrunning
      exact absurd hrunning (hisr a)

/-- Every call that is meant, and every step of the handler, keeps the list sound. -/
theorem isSound_step (h : t.IsSound) {ev : Event α} (hmeant : ev.Meant t.calls t.isr) :
    (t.step ev).IsSound := by
  cases ev with
  | call e c now =>
      have hmem : e ∉ t.queued.erase e := h.nodup.not_mem_erase
      have hput := (h.take (e := e) (c := ⟨0, 0, false⟩) rfl).put hmem hmeant.1 hmeant.2
      rwa [Function.update_idem] at hput
  | cancel e => exact h.take rfl
  | delay e delay now =>
      have hmem : e ∉ t.queued := fun hmem => hmeant.2 (h.once e hmem hmeant.1)
      exact h.write hmem (Or.inr hmeant)
  | expire now =>
      dsimp only [step]
      split
      · rename_i hisr _
        split
        · refine h.quiet (h.called_of_idle ?_) fun _ => id
          rw [hisr]
          exact fun _ => id
        · exact h
      · exact h
  | invoke now now' =>
      dsimp only [step]
      split
      · rename_i hisr
        exact h.next (by rw [hisr]; exact fun _ => id) now now'
      · exact h
  | returned now' =>
      dsimp only [step]
      split
      · rename_i e deadline now hisr
        refine h.reenter ?_ ?_ deadline now now'
        · rw [hisr]
          exact fun a heq => heq.symm
        · intro hperiod hmem
          refine hperiod (h.once e hmem ?_)
          rw [hisr]
          rfl
      · exact h
  | reschedule now =>
      dsimp only [step]
      split
      · rename_i hisr
        refine h.quiet (h.called_of_idle ?_) fun _ => id
        rw [hisr]
        exact fun _ => id
      · exact h

/-! ## What becomes of one entry -/

theorem reenter_of_ne {e' : α} (hne : e ≠ e') (deadline now : ℕ) (now' : Reads) :
    (t.reenter e' deadline now now').calls e = t.calls e ∧
      (e ∈ (t.reenter e' deadline now now').queued ↔ e ∈ t.queued) := by
  unfold reenter
  split
  · exact ⟨rfl, Iff.rfl⟩
  · refine ⟨Function.update_of_ne hne _ _, ?_⟩
    exact (List.mem_orderedInsert _).trans (or_iff_right hne)

theorem next_of_ne {e' : α} {now : ℕ} (hdue : t.due now = some e') (hne : e ≠ e') (now' : Reads) :
    (t.next now now').calls e = t.calls e ∧ (e ∈ (t.next now now').queued ↔ e ∈ t.queued) := by
  unfold next
  rw [hdue]
  dsimp only
  set c : HrtCall := { t.calls e' with deadline := 0 }
  have hcalls : (t.take e' c).calls e = t.calls e := Function.update_of_ne hne _ _
  have hmem : e ∈ (t.take e' c).queued ↔ e ∈ t.queued := List.mem_erase_of_ne hne
  split
  · exact ⟨hcalls, hmem⟩
  · obtain ⟨hcalls', hmem'⟩ := (t.take e' c).reenter_of_ne hne (t.calls e').deadline now now'
    exact ⟨hcalls'.trans hcalls, hmem'.trans hmem⟩

/-- Nothing that is no call about it changes an entry, but the handler when it is due, and its own
callout when it returns. -/
theorem step_of_other {ev : Event α} (hev : ¬Concerns e ev) :
    (firings e (t.fired ev) = [] ∧ (t.step ev).calls e = t.calls e ∧
        (e ∈ (t.step ev).queued ↔ e ∈ t.queued) ∧
        ∀ deadline now, t.isr = .calling e deadline now →
          (t.step ev).isr = .calling e deadline now) ∨
      (∃ now now', t.due now = some e ∧ t.isr = .looping ∧
        firings e (t.fired ev) = [(t.calls e).deadline] ∧ t.step ev = t.next now now') ∨
      ∃ deadline now now', t.isr = .calling e deadline now ∧
        firings e (t.fired ev) = [] ∧ t.step ev = t.reenter e deadline now now' := by
  cases ev with
  | call e' c now =>
      have hne : e ≠ e' := fun heq => hev heq.symm
      refine Or.inl ⟨rfl, ?_, ?_, fun _ _ => id⟩
      · exact (Function.update_of_ne hne c t.calls : Function.update t.calls e' c e = t.calls e)
      · exact (List.mem_orderedInsert _).trans ((or_iff_right hne).trans (List.mem_erase_of_ne hne))
  | cancel e' =>
      have hne : e ≠ e' := fun heq => hev heq.symm
      exact Or.inl ⟨rfl, Function.update_of_ne hne _ t.calls, List.mem_erase_of_ne hne, fun _ _ =>
        id⟩
  | delay e' delay now =>
      have hne : e ≠ e' := fun heq => hev heq.symm
      exact Or.inl ⟨rfl, Function.update_of_ne hne _ t.calls, Iff.rfl, fun _ _ => id⟩
  | expire now =>
      obtain ⟨l, calls, work, isr⟩ := t
      cases isr with
      | idle =>
          refine Or.inl ⟨rfl, ?_, ?_, nofun⟩
          · dsimp only [step]
            split
            · split <;> rfl
            · rfl
          · dsimp only [step]
            split
            · split <;> rfl
            · rfl
      | looping | calling | leaving => exact Or.inl ⟨rfl, rfl, Iff.rfl, fun _ _ => id⟩
  | invoke now now' =>
      obtain ⟨l, calls, work, isr⟩ := t
      cases isr with
      | looping =>
          set t : Timers α := ⟨l, calls, work, .looping⟩ with ht
          have hfired : t.fired (.invoke now now') =
            ((t.due now).map fun e => (e, (t.calls e).deadline)).toList := rfl
          cases hdue : t.due now with
          | none =>
              have hstep : t.step (.invoke now now') = { t with isr := .leaving } := by
                show t.next now now' = _
                rw [next, hdue]
              rw [hfired, hdue, hstep]
              exact Or.inl ⟨rfl, rfl, Iff.rfl, nofun⟩
          | some e' =>
              by_cases heq : e' = e
              · subst heq
                refine Or.inr (Or.inl ⟨now, now', hdue, rfl, ?_, rfl⟩)
                rw [hfired, hdue]
                simp [firings]
              · obtain ⟨hcalls, hmem⟩ := next_of_ne hdue (Ne.symm heq) now'
                refine Or.inl ⟨?_, hcalls, hmem, nofun⟩
                rw [hfired, hdue]
                simp [firings, heq]
      | idle | calling | leaving => exact Or.inl ⟨rfl, rfl, Iff.rfl, fun _ _ => id⟩
  | returned now' =>
      obtain ⟨l, calls, work, isr⟩ := t
      cases isr with
      | calling e' deadline now =>
          by_cases heq : e' = e
          · subst heq
            exact Or.inr (Or.inr ⟨deadline, now, now', rfl, rfl, rfl⟩)
          · obtain ⟨hcalls, hmem⟩ := reenter_of_ne (t := ⟨l, calls, work, .calling e' deadline now⟩)
              (Ne.symm heq) deadline now now'
            refine Or.inl ⟨rfl, hcalls, hmem, fun _ _ hcalling => ?_⟩
            exact absurd (Isr.calling.inj hcalling).1 heq
      | idle | looping | leaving => exact Or.inl ⟨rfl, rfl, Iff.rfl, fun _ _ => id⟩
  | reschedule now =>
      obtain ⟨l, calls, work, isr⟩ := t
      cases isr with
      | leaving => exact Or.inl ⟨rfl, rfl, Iff.rfl, nofun⟩
      | idle | looping | calling => exact Or.inl ⟨rfl, rfl, Iff.rfl, fun _ _ => id⟩

theorem take_calls_self (t : Timers α) (e : α) (c : HrtCall) : (t.take e c).calls e = c := by
  rw [take]
  exact Function.update_self e c t.calls

theorem call_self (t : Timers α) (e : α) (c : HrtCall) (now : Reads) :
    (t.step (.call e c now)).calls e = c ∧ e ∈ (t.step (.call e c now)).queued := by
  refine ⟨take_calls_self t e c, (List.mem_orderedInsert _).2 (Or.inl rfl)⟩

/-- The head of the list is called: its callout runs, or it is at once entered again. -/
theorem next_self {now : ℕ} (hdue : t.due now = some e) (now' : Reads) :
    let called := t.take e { t.calls e with deadline := 0 }
    t.next now now' = { called with isr := .calling e (t.calls e).deadline now } ∨
      t.next now now' = called.reenter e (t.calls e).deadline now now' := by
  unfold next
  rw [hdue]
  dsimp only
  split
  · exact Or.inl rfl
  · exact Or.inr rfl

/-! ## Periodic entries -/

variable {first interval k : ℕ}

omit [DecidableEq α] in
/-- After `k` periods: the entry is in the list for the next one, or its callout is running. -/
def OnSchedule (t : Timers α) (e : α) (first interval k : ℕ) : Prop :=
  (t.calls e).period = interval ∧
    (e ∈ t.queued ∧ (t.calls e).deadline = first + k * interval ∨
      ∃ j now, k = j + 1 ∧ t.isr = .calling e (first + j * interval) now ∧ (t.calls e).deadline = 0)

/-- A periodic entry is entered for one period after its deadline, if its callout has not given it
one. -/
theorem reenter_self (hperiod : (t.calls e).period ≠ 0) (hdeadline : (t.calls e).deadline = 0)
    (deadline now : ℕ) (now' : Reads) :
    (t.reenter e deadline now now').calls e =
        { t.calls e with deadline := deadline + (t.calls e).period } ∧
      e ∈ (t.reenter e deadline now now').queued := by
  have hle : (t.calls e).deadline ≤ now := hdeadline ▸ Nat.zero_le now
  unfold reenter
  rw [if_neg hperiod]
  dsimp only [enter]
  rw [if_pos hle]
  exact ⟨Function.update_self e _ _, (List.mem_orderedInsert _).2 (Or.inl rfl)⟩

theorem onSchedule_reenter (hperiod : (t.calls e).period = interval) (hinterval : interval ≠ 0)
    (hdeadline : (t.calls e).deadline = 0) (now : ℕ) (now' : Reads) :
    (t.reenter e (first + k * interval) now now').OnSchedule e first interval (k + 1) := by
  subst hperiod
  obtain ⟨hcalls, hmem⟩ :=
      reenter_self hinterval hdeadline (first + k * (t.calls e).period) now now'
  refine ⟨by rw [hcalls], Or.inl ⟨hmem, ?_⟩⟩
  calc
    _ = first + k * (t.calls e).period + (t.calls e).period := congrArg HrtCall.deadline hcalls
    _ = first + (k + 1) * (t.calls e).period := by rw [Nat.succ_mul, Nat.add_assoc]

/-- What is no call about the entry takes it off at most once, and then at the next time of its
schedule. -/
theorem onSchedule_step (h : t.IsSound) (hschedule : t.OnSchedule e first interval k)
    (hinterval : interval ≠ 0) {ev : Event α} (hev : ¬Concerns e ev) :
    firings e (t.fired ev) = [] ∧ (t.step ev).OnSchedule e first interval k ∨
      firings e (t.fired ev) = [first + k * interval] ∧
        (t.step ev).OnSchedule e first interval (k + 1) := by
  obtain ⟨hperiod, hcase⟩ := hschedule
  rcases step_of_other (t := t) hev with ⟨hnone, hcalls, hmem, hisr⟩ | hdue | hreturned
  · refine Or.inl ⟨hnone, hcalls ▸ hperiod, ?_⟩
    rw [hcalls, hmem]
    refine hcase.imp id ?_
    rintro ⟨j, now, rfl, hcalling, hdeadline⟩
    exact ⟨j, now, rfl, hisr _ _ hcalling, hdeadline⟩
  · obtain ⟨now, now', hdue, hisr, hfired, hstep⟩ := hdue
    have hdeadline : (t.calls e).deadline = first + k * interval := by
      refine (hcase.resolve_right ?_).2
      rintro ⟨j, now, _, hcalling, _⟩
      cases hisr.symm.trans hcalling
    rw [hfired, hstep, hdeadline]
    refine Or.inr ⟨rfl, ?_⟩
    rcases next_self hdue now' with hnext | hnext
    · rw [hnext, hdeadline]
      refine ⟨?_, Or.inr ⟨k, now, rfl, rfl, ?_⟩⟩
      · exact (congrArg HrtCall.period (take_calls_self t e _)).trans hperiod
      · exact congrArg HrtCall.deadline (take_calls_self t e _)
    · rw [hnext, hdeadline]
      refine onSchedule_reenter ?_ hinterval ?_ now now'
      · exact (congrArg HrtCall.period (take_calls_self t e _)).trans hperiod
      · exact congrArg HrtCall.deadline (take_calls_self t e _)
  · obtain ⟨deadline, now, now', hisr, hnone, hstep⟩ := hreturned
    -- an entry whose callout is running is in the list only without a period
    obtain ⟨j, now₀, rfl, hcalling, hdeadline⟩ := hcase.resolve_left fun hqueued =>
      hinterval (hperiod ▸ h.once e hqueued.1 (hisr ▸ rfl))
    obtain ⟨_, rfl, rfl⟩ := Isr.calling.inj (hisr.symm.trans hcalling)
    rw [hstep]
    exact Or.inl ⟨hnone, onSchedule_reenter hperiod hinterval hdeadline _ now'⟩

/-- Calls that are meant, in a run. -/
def AllMeant : Timers α → List (Event α) → Prop :=
  AllSteps step fun t ev => ev.Meant t.calls t.isr

theorem firings_cons (e : α) (ev : Event α) (es : List (Event α)) :
    firings e (outputs step fired t (ev :: es)) =
      firings e (t.fired ev) ++ firings e (outputs step fired (t.step ev) es) := by
  simp only [firings, outputs, List.filter_append, List.map_append]

/-- A run takes a periodic entry off at the next times of its schedule, and leaves none out. -/
theorem firings_outputs {es : List (Event α)} (h : t.IsSound) (hmeant : t.AllMeant es)
    (hschedule : t.OnSchedule e first interval k) (hinterval : interval ≠ 0)
    (hes : ∀ ev ∈ es, ¬Concerns e ev) :
    ∃ n, firings e (outputs step fired t es) = (List.range' k n).map fun i =>
      first + i * interval := by
  induction es generalizing t k with
  | nil => exact ⟨0, rfl⟩
  | cons ev es ih =>
      have hstep := isSound_step h hmeant.1
      have hes' : ∀ ev' ∈ es, ¬Concerns e ev' :=
        fun ev' hev' => hes ev' (List.mem_cons_of_mem ev hev')
      rcases onSchedule_step h hschedule hinterval (hes ev List.mem_cons_self) with hcase | hcase
      · obtain ⟨n, hn⟩ := ih hstep hmeant.2 hcase.2 hes'
        refine ⟨n, ?_⟩
        rw [firings_cons, hcase.1, List.nil_append, hn]
      · obtain ⟨n, hn⟩ := ih hstep hmeant.2 hcase.2 hes'
        refine ⟨n + 1, ?_⟩
        rw [firings_cons, hcase.1, List.singleton_append, hn]
        rfl

/-! ## Entries without a period -/

omit [DecidableEq α] in
/-- An entry that is not in the list and has no period: a callout of it that is running is the last
one. -/
def Off (t : Timers α) (e : α) : Prop := e ∉ t.queued ∧ (t.calls e).period = 0

theorem off_step (h : t.Off e) {ev : Event α} (hev : ¬Concerns e ev) :
    firings e (t.fired ev) = [] ∧ (t.step ev).Off e := by
  rcases step_of_other (t := t) hev with ⟨hnone, hcalls, hmem, _⟩ | hdue | hreturned
  · exact ⟨hnone, fun hmem' => h.1 (hmem.1 hmem'), hcalls ▸ h.2⟩
  · obtain ⟨now, now', hdue, _⟩ := hdue
    obtain ⟨rest, hqueued, _⟩ := eq_cons_of_due hdue
    exact absurd (hqueued ▸ List.mem_cons_self) h.1
  · obtain ⟨deadline, now, now', _, hnone, hstep⟩ := hreturned
    rw [hstep, reenter, if_pos h.2]
    exact ⟨hnone, h⟩

theorem once_step (hmem : e ∈ t.queued) (hnodup : t.queued.Nodup) (hperiod : (t.calls e).period = 0)
    {ev : Event α} (hev : ¬Concerns e ev) :
    firings e (t.fired ev) = [] ∧ e ∈ (t.step ev).queued ∧ (t.step ev).calls e = t.calls e ∨
      firings e (t.fired ev) = [(t.calls e).deadline] ∧ (t.step ev).Off e := by
  rcases step_of_other (t := t) hev with ⟨hnone, hcalls, hmem', _⟩ | hdue | hreturned
  · exact Or.inl ⟨hnone, hmem'.2 hmem, hcalls⟩
  · obtain ⟨now, now', hdue, _, hfired, hstep⟩ := hdue
    have hoff : (t.take e { t.calls e with deadline := 0 }).Off e :=
      ⟨hnodup.not_mem_erase, (congrArg HrtCall.period (take_calls_self t e _)).trans hperiod⟩
    refine Or.inr ⟨hfired, ?_⟩
    rw [hstep]
    rcases next_self hdue now' with hnext | hnext
    · rw [hnext]
      exact hoff
    · rw [hnext, reenter, if_pos hoff.2]
      exact hoff
  · obtain ⟨deadline, now, now', _, hnone, hstep⟩ := hreturned
    rw [hstep, reenter, if_pos hperiod]
    exact Or.inl ⟨hnone, hmem, rfl⟩

theorem firings_off {es : List (Event α)} (h : t.Off e) (hes : ∀ ev ∈ es, ¬Concerns e ev) :
    firings e (outputs step fired t es) = [] := by
  induction es generalizing t with
  | nil => rfl
  | cons ev es ih =>
      obtain ⟨hnone, hoff⟩ := off_step h (hes ev List.mem_cons_self)
      rw [firings_cons, hnone, List.nil_append]
      exact ih hoff fun ev' hev' => hes ev' (List.mem_cons_of_mem ev hev')

theorem firings_once {es : List (Event α)} (h : t.IsSound) (hmeant : t.AllMeant es)
    (hmem : e ∈ t.queued) (hperiod : (t.calls e).period = 0) (hes : ∀ ev ∈ es, ¬Concerns e ev) :
    firings e (outputs step fired t es) = [] ∨
      firings e (outputs step fired t es) = [(t.calls e).deadline] := by
  induction es generalizing t with
  | nil => exact Or.inl rfl
  | cons ev es ih =>
      have hes' : ∀ ev' ∈ es, ¬Concerns e ev' :=
        fun ev' hev' => hes ev' (List.mem_cons_of_mem ev hev')
      rw [firings_cons]
      rcases once_step hmem h.nodup hperiod (hes ev List.mem_cons_self) with hcase | hcase
      · obtain ⟨hnone, hmem', hcalls⟩ := hcase
        rw [hnone, List.nil_append, ← hcalls]
        exact ih (isSound_step h hmeant.1) hmeant.2 hmem' (hcalls ▸ hperiod) hes'
      · rw [hcase.1, firings_off hcase.2 hes']
        exact Or.inr rfl

/-! ## The handler comes in time -/

omit [DecidableEq α] in
/-- While the handler is not running, it will be `lag` after the deadline of every entry of the list
at the latest, or soon after the time `now` if that is past. -/
def Wakes (t : Timers α) (now lag : ℕ) : Prop :=
  t.isr = .idle → ∀ e ∈ t.queued, ∃ time ∈ t.work,
    time ≤ max ((t.calls e).deadline + lag) (now + hrtIntervalMin)

omit [DecidableEq α] in
theorem wakeTime_le (h : Sound l calls isr) (he : e ∈ l) (r : Reads) :
    wakeTime calls r l ≤ max ((calls e).deadline + r.lag) (r.qtime + hrtIntervalMin) := by
  cases l with
  | nil => exact absurd he List.not_mem_nil
  | cons a l =>
      have hle : (calls a).deadline ≤ (calls e).deadline := head_le h he
      dsimp only [wakeTime, Reads.lag]
      omega

namespace Wakes

variable {now now' lag lag' : ℕ} {r : Reads}

omit [DecidableEq α] in
theorem of_not_idle (hisr : t.isr ≠ .idle) : t.Wakes now lag := fun hidle => absurd hidle hisr

omit [DecidableEq α] in
theorem mono (h : t.Wakes now lag) (hle : now ≤ now') (hlag : lag ≤ lag') : t.Wakes now' lag' := by
  intro hidle a ha
  obtain ⟨time, htime, hbound⟩ := h hidle a ha
  refine ⟨time, htime, hbound.trans ?_⟩
  exact max_le_max (Nat.add_le_add_left hlag _) (Nat.add_le_add_right hle _)

omit [DecidableEq α] in
theorem reschedule_le (h : Sound l calls isr) (he : e ∈ l) (now lag : ℕ) (r : Reads) :
    wakeTime calls r l ≤
      max ((calls e).deadline + max lag r.lag) (max now r.qtime + hrtIntervalMin) :=
  (wakeTime_le h he r).trans (max_le_max (Nat.add_le_add_left (le_max_right lag r.lag) _)
    (Nat.add_le_add_right (le_max_right now r.qtime) _))

/-- An entry that does not come to the head of the list is behind one for which the handler will
run. -/
theorem call (h : t.IsSound) (hwakes : t.Wakes now lag)
    (hmeant : (Event.call e c r).Meant t.calls t.isr) :
    (t.step (.call e c r)).Wakes (max now r.qtime) (max lag r.lag) := by
  intro hidle a ha
  have hsound : Sound _ _ _ := isSound_step h hmeant
  have hcalls : (t.step (.call e c r)).calls = Function.update t.calls e c := rfl
  have hmem : (t.step (.call e c r)).queued = (t.take e c).insert e := rfl
  have hwork : (t.step (.call e c r)).work =
      if ((t.take e c).insert e).head? = some e then
        some (wakeTime (Function.update t.calls e c) r ((t.take e c).insert e))
      else t.work := rfl
  rw [hmem] at ha hsound
  rw [hwork]
  rw [hcalls] at hsound ⊢
  cases hl : (t.take e c).insert e with
  | nil =>
      rw [hl] at ha
      exact absurd ha List.not_mem_nil
  | cons b l =>
      rw [hl] at ha hsound
      by_cases hhead : b = e
      · subst hhead
        rw [if_pos (List.head?_cons)]
        exact ⟨_, rfl, reschedule_le hsound ha now lag r⟩
      · have hqueued : b ∈ t.queued := by
          have hb : b ∈ (t.take e c).insert e := hl ▸ List.mem_cons_self
          exact List.mem_of_mem_erase (((List.mem_orderedInsert _).1 hb).resolve_left hhead)
        obtain ⟨time, htime, hle⟩ := hwakes hidle b hqueued
        have hfirst := head_le hsound ha
        rw [Function.update_of_ne hhead] at hfirst
        rw [if_neg (by simpa using hhead)]
        refine ⟨time, htime, hle.trans ?_⟩
        exact max_le_max (Nat.add_le_add hfirst (le_max_left lag r.lag))
          (Nat.add_le_add_right (le_max_left now r.qtime) _)

theorem reenter (deadline : ℕ) : (t.reenter e deadline now r).isr ≠ .idle := by
  unfold Timers.reenter
  split <;> simp

theorem step (hwakes : t.Wakes now lag) (h : t.IsSound) {ev : Event α}
    (hmeant : ev.Meant t.calls t.isr) :
    (t.step ev).Wakes (max now (reads ev).qtime) (max lag (reads ev).lag) := by
  have hwakes' : t.Wakes (max now (reads ev).qtime) (max lag (reads ev).lag) :=
    hwakes.mono (le_max_left _ _) (le_max_left _ _)
  cases ev with
  | call e c now' => exact call h hwakes hmeant
  | cancel e =>
      intro hidle a ha
      have hne : a ≠ e := ne_of_mem_of_not_mem ha h.nodup.not_mem_erase
      have hcalls : (t.step (.cancel e)).calls a = t.calls a := Function.update_of_ne hne _ _
      rw [hcalls]
      exact hwakes' hidle a (List.mem_of_mem_erase ha)
  | delay e delay now' =>
      refine of_not_idle fun hidle => ?_
      have hrunning := hmeant.1
      rw [show t.isr = .idle from hidle] at hrunning
      exact hrunning
  | expire now' =>
      dsimp only [Timers.step]
      split
      · split
        · exact of_not_idle (by simp)
        · exact hwakes'
      · exact hwakes'
  | invoke now' now'' =>
      dsimp only [Timers.step]
      split
      · refine of_not_idle ?_
        unfold next
        split
        · simp
        · dsimp only
          split
          · simp
          · exact reenter _
      · exact hwakes'
  | returned now' =>
      dsimp only [Timers.step]
      split
      · exact of_not_idle (reenter _)
      · exact hwakes'
  | reschedule now' =>
      dsimp only [Timers.step]
      split
      · intro _ a ha
        exact ⟨_, rfl, reschedule_le h ha now lag now'⟩
      · exact hwakes'

theorem exec {es : List (Event α)} (h : t.IsSound) (hwakes : t.Wakes now lag)
    (hmeant : t.AllMeant es) :
    (exec Timers.step t es).Wakes ((es.map fun ev => (reads ev).qtime).foldl max now)
      ((es.map fun ev => (reads ev).lag).foldl max lag) := by
  induction es generalizing t now lag with
  | nil => exact hwakes
  | cons ev es ih => exact ih (isSound_step h hmeant.1) (hwakes.step h hmeant.1) hmeant.2

end Wakes

omit [DecidableEq α] in
theorem wakes_init (now lag : ℕ) : (init : Timers α).Wakes now lag :=
  fun _ _ he => absurd he List.not_mem_nil

end Timers

end Platform
end DtPhm
