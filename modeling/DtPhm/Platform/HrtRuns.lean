import DtPhm.Platform.Timers

/-!
# HrtRuns — all runs of the callout queue

The functions over the linked queue do what the same functions do over a list, and so all runs of
calls and of the handler keep the queue in order, leave no entry out, and call periodic entries
without drift.

* `linkedBy` — the faithful state with a given list; `enterLoop_spec`, `hrtCallEnter_spec`,
  `step_spec`;
* `run_spec` — a whole run is one over the list, and does not run out of fuel;
* `hrt_queue_in_order` — what the queue holds after any run;
* `hrt_invokes_first` — what the handler takes off, and when it stops;
* `hrt_no_drift` — the times of a periodic entry;
* `hrt_called_once` — an entry that is cancelled or has no period;
* `hrt_wakes` — the handler is never left without a time that is early enough.
-/

namespace DtPhm
namespace Platform

open Lib

universe u

variable {α : Type u}

namespace Timers

/-- The state with a linked queue in place of the list. -/
def linkedBy (t : Timers α) (q : SqQueue α) : Hrt α := ⟨q, t.calls, t.work, t.isr⟩

variable {t : Timers α} {q : SqQueue α} {e : α} {fuel : ℕ}

theorem reschedule_linkedBy (hq : q.Represents t.queued) (now : Reads) :
    (t.linkedBy q).hrtCallReschedule now = (t.reschedule now).linkedBy q := by
  have hpeek : q.peek = t.queued.head? := hq.peek
  cases hqueued : t.queued with
  | nil =>
      rw [hqueued] at hpeek
      simp only [Hrt.hrtCallReschedule, linkedBy, reschedule, hpeek, hqueued, wakeTime,
        List.head?_nil]
  | cons a l =>
      rw [hqueued] at hpeek
      have hwake : now.qtime +
            (if (t.calls a).deadline ≤ now.now + hrtIntervalMin then hrtIntervalMin
            else if (t.calls a).deadline < now.now + hrtIntervalMax then (t.calls a).deadline -
              now.now
            else hrtIntervalMax) =
          now.qtime + max hrtIntervalMin (min ((t.calls a).deadline - now.now) hrtIntervalMax) := by
        have hle : hrtIntervalMin ≤ hrtIntervalMax := by decide
        split
        · omega
        · split <;> omega
      simp only [Hrt.hrtCallReschedule, linkedBy, reschedule, hpeek, hqueued, wakeTime,
        List.head?_cons,
        Hrt.deadline]
      exact congrArg (fun time => (⟨q, t.calls, some time, t.isr⟩ : Hrt α)) hwake

variable [DecidableEq α]

theorem enterLoop_some {s : Hrt α} {call next : α} (hnext : s.queue.flink call = some next) :
    s.enterLoop e (fuel + 1) call =
      if s.deadline e < s.deadline next then some { s with queue := s.queue.addafter call e }
      else s.enterLoop e fuel next := by
  simp only [Hrt.enterLoop, hnext]

/-- From an entry on that is not due later, the loop puts the new one at its place. -/
theorem enterLoop_spec {pre post : List α} {call : α} (hq : q.Represents (pre ++ call :: post))
    (he : e ∉ pre ++ call :: post) (hfuel : post.length < fuel) :
    ∃ q', (t.linkedBy q).enterLoop e fuel call = some (t.linkedBy q') ∧
      q'.Represents (pre ++ call :: post.orderedInsert (Before t.calls) e) := by
  induction post generalizing pre call fuel with
  | nil =>
      obtain ⟨fuel, rfl⟩ := Nat.exists_eq_add_one.2 hfuel
      have hnext : q.flink call = none := hq.linked.next_of_append
      refine ⟨q.addafter call e, ?_, hq.addafter he⟩
      simp only [Hrt.enterLoop, linkedBy, hnext]
  | cons next post ih =>
      obtain ⟨fuel, rfl⟩ := Nat.exists_eq_add_one.2 (Nat.zero_lt_of_lt hfuel)
      have hnext : (t.linkedBy q).queue.flink call = some next := hq.linked.next_of_append.1
      by_cases hbefore : Before t.calls e next
      · rw [List.orderedInsert_cons_of_le _ _ hbefore]
        refine ⟨q.addafter call e, ?_, hq.addafter he⟩
        exact (enterLoop_some hnext).trans (if_pos hbefore)
      · rw [List.orderedInsert_of_not_le _ _ hbefore]
        have hsplit : pre ++ call :: next :: post = (pre ++ [call]) ++ next :: post := by simp
        rw [hsplit] at hq he
        obtain ⟨q', hloop, hq'⟩ := ih hq he (Nat.lt_of_succ_lt_succ hfuel)
        refine ⟨q', ?_, by simpa using hq'⟩
        exact ((enterLoop_some hnext).trans (if_neg hbefore)).trans hloop

theorem enter_head (hinsert : t.insert e = e :: t.queued) (now : Reads) :
    t.enter e now = ({ t with queued := e :: t.queued } : Timers α).reschedule now := by
  unfold enter reschedule
  rw [hinsert, if_pos List.head?_cons]

theorem addfirst_linkedBy (hq : q.Represents t.queued) (he : e ∉ t.queued)
    (hinsert : t.insert e = e :: t.queued) (now : Reads) :
    ((t.linkedBy (q.addfirst e)).hrtCallReschedule now) = (t.enter e now).linkedBy (q.addfirst e) ∧
      (q.addfirst e).Represents (t.enter e now).queued := by
  have hfirst : (q.addfirst e).Represents (e :: t.queued) := hq.addfirst he
  rw [enter_head hinsert]
  exact ⟨reschedule_linkedBy (t := { t with queued := e :: t.queued }) hfirst now, hfirst⟩

theorem hrtCallEnter_spec (hq : q.Represents t.queued) (he : e ∉ t.queued)
    (hfuel : t.queued.length < fuel) (now : Reads) :
    ∃ q', (t.linkedBy q).hrtCallEnter fuel e now = some ((t.enter e now).linkedBy q') ∧
      q'.Represents (t.enter e now).queued := by
  have hpeek : (t.linkedBy q).queue.peek = t.queued.head? := hq.peek
  unfold Hrt.hrtCallEnter
  cases hqueued : t.queued with
  | nil =>
      have hinsert : t.insert e = e :: t.queued := by rw [insert, hqueued, List.orderedInsert_nil]
      obtain ⟨heq, hq'⟩ := addfirst_linkedBy hq he hinsert now
      rw [hpeek, hqueued]
      exact ⟨q.addfirst e, congrArg some heq, hq'⟩
  | cons call post =>
      rw [hpeek, hqueued]
      by_cases hbefore : Before t.calls e call
      · have hinsert : t.insert e = e :: t.queued := by
          rw [insert, hqueued, List.orderedInsert_cons_of_le _ _ hbefore]
        obtain ⟨heq, hq'⟩ := addfirst_linkedBy hq he hinsert now
        exact ⟨q.addfirst e, (if_pos hbefore).trans (congrArg some heq), hq'⟩
      · rw [hqueued] at hq he hfuel
        have hinsert : t.insert e = call :: post.orderedInsert (Before t.calls) e := by
          rw [insert, hqueued, List.orderedInsert_of_not_le _ _ hbefore]
        have hhead : ¬(t.insert e).head? = some e := by
          rw [hinsert, List.head?_cons, Option.some.injEq]
          rintro rfl
          exact he List.mem_cons_self
        -- the head stays, and so does the time of the handler
        have henter : t.enter e now = { t with queued := t.insert e } := by
          rw [enter, if_neg hhead]
        obtain ⟨q', hloop, hq'⟩ := enterLoop_spec (t := t) (List.nil_append (call :: post) ▸ hq)
          (List.nil_append (call :: post) ▸ he) (Nat.lt_of_succ_lt hfuel)
        rw [henter]
        exact ⟨q', (if_neg hbefore).trans hloop, hinsert ▸ hq'⟩

theorem rem_spec (hq : q.Represents t.queued) (hfuel : t.queued.length < fuel) (e : α)
    (c : HrtCall) :
    ∃ q', q.rem fuel e = some q' ∧
      Hrt.setCall { t.linkedBy q with queue := q' } e c = (t.take e c).linkedBy q' ∧
      q'.Represents (t.take e c).queued := by
  obtain ⟨q', hrem, hq'⟩ := hq.rem e hfuel
  exact ⟨q', hrem, rfl, hq'⟩

theorem reenter_spec (hq : q.Represents t.queued) (he : (t.calls e).period ≠ 0 → e ∉ t.queued)
    (hfuel : t.queued.length < fuel) (deadline now : ℕ) (now' : Reads) :
    ∃ q', (t.linkedBy q).reenter fuel e deadline now now' =
        some ((t.reenter e deadline now now').linkedBy q') ∧
      q'.Represents (t.reenter e deadline now now').queued := by
  by_cases hperiod : (t.calls e).period = 0
  · have hnot : ¬(t.linkedBy q).period e ≠ 0 := not_not_intro hperiod
    refine ⟨q, ?_, ?_⟩
    · rw [Hrt.reenter, if_neg hnot, reenter, if_pos hperiod]
      rfl
    · rw [reenter, if_pos hperiod]
      exact hq
  · have hne : (t.linkedBy q).period e ≠ 0 := hperiod
    set next :=
      if (t.calls e).deadline ≤ now then deadline + (t.calls e).period else
        (t.calls e).deadline with hnext
    set t' : Timers α :=
      { t with calls := Function.update t.calls e { t.calls e with deadline := next } }
      with ht'
    have hset : (if (t.linkedBy q).deadline e ≤ now then
          (t.linkedBy q).setCall e
            { (t.linkedBy q).calls e with deadline := deadline + (t.linkedBy q).period e }
        else t.linkedBy q) = t'.linkedBy q := by
      by_cases hle : (t.calls e).deadline ≤ now
      · have hnew : next = deadline + (t.calls e).period := if_pos hle
        rw [ht', hnew]
        exact if_pos hle
      · have hsame : t' = t := by
          have hnew : next = (t.calls e).deadline := if_neg hle
          rw [ht', hnew]
          exact congrArg (fun calls => (⟨t.queued, calls, t.work, t.isr⟩ : Timers α))
            (Function.update_eq_self e t.calls)
        rw [hsame]
        exact if_neg hle
    obtain ⟨q', henter, hq'⟩ := hrtCallEnter_spec (t := t') hq (he hperiod) hfuel now'
    have habs : t.reenter e deadline now now' = { t'.enter e now' with isr := .looping } := by
      rw [reenter, if_neg hperiod]
    rw [habs]
    refine ⟨q', ?_, hq'⟩
    rw [Hrt.reenter, if_pos hne]
    dsimp only
    rw [hset, henter]
    rfl

theorem invokeNext_spec (h : t.IsSound) (hq : q.Represents t.queued)
    (hfuel : t.queued.length < fuel)
    (now : ℕ) (now' : Reads) :
    ∃ q', (t.linkedBy q).invokeNext fuel now now' = some ((t.next now now').linkedBy q') ∧
      q'.Represents (t.next now now').queued := by
  have hdue : (t.linkedBy q).due now = t.due now := by
    unfold Hrt.due due
    rw [show (t.linkedBy q).queue.peek = t.queued.head? from hq.peek]
    rfl
  unfold Hrt.invokeNext next
  rw [hdue]
  cases t.due now with
  | none => exact ⟨q, rfl, hq⟩
  | some e =>
      dsimp only
      set c : HrtCall := { t.calls e with deadline := 0 } with hc
      obtain ⟨q', hrem, hset, hq'⟩ := rem_spec hq hfuel e c
      rw [show (t.linkedBy q).queue.rem fuel e = some q' from hrem, Option.bind_some]
      by_cases hcallout : (t.calls e).callout = true
      · rw [if_pos hcallout]
        exact ⟨q', if_pos hcallout, hq'⟩
      · rw [if_neg hcallout]
        have hmem : e ∉ (t.take e c).queued := h.nodup.not_mem_erase
        have hlength : (t.take e c).queued.length < fuel :=
          (List.length_erase_le).trans_lt hfuel
        obtain ⟨q'', hreenter, hq''⟩ := reenter_spec hq' (fun _ => hmem) hlength
          (t.calls e).deadline now now'
        exact ⟨q'', (if_neg hcallout).trans hreenter, hq''⟩

theorem step_spec (h : t.IsSound) (hq : q.Represents t.queued) (hfuel : t.queued.length < fuel)
    {ev : Hrt.Event α} (hmeant : ev.Meant t.calls t.isr) :
    ∃ q', (t.linkedBy q).step fuel ev = some ((t.step ev).linkedBy q') ∧
      q'.Represents (t.step ev).queued := by
  cases ev with
  | call e c now =>
      obtain ⟨q', hrem, hset, hq'⟩ : ∃ q',
          (if (t.linkedBy q).deadline e ≠ 0 then (t.linkedBy q).queue.rem fuel e
            else some (t.linkedBy q).queue) = some q' ∧
          Hrt.setCall { t.linkedBy q with queue := q' } e c = (t.take e c).linkedBy q' ∧
          q'.Represents (t.take e c).queued := by
        by_cases hdeadline : (t.linkedBy q).deadline e ≠ 0
        · rw [if_pos hdeadline]
          exact rem_spec hq hfuel e c
        -- an entry without a deadline is not in the queue
        · have hmem : e ∉ t.queued := fun hmem => h.queued e hmem (not_not.1 hdeadline)
          rw [if_neg hdeadline]
          refine ⟨q, rfl, ?_, ?_⟩
          · rw [take, List.erase_of_not_mem hmem]
            rfl
          · rw [take, List.erase_of_not_mem hmem]
            exact hq
      have hlength : (t.take e c).queued.length < fuel := (List.length_erase_le).trans_lt hfuel
      obtain ⟨q'', henter, hq''⟩ := hrtCallEnter_spec hq' h.nodup.not_mem_erase hlength now
      refine ⟨q'', ?_, hq''⟩
      calc
        (t.linkedBy q).step fuel (.call e c now)
          = (some q').bind fun queue =>
              Hrt.hrtCallEnter (Hrt.setCall { t.linkedBy q with queue := queue } e c) fuel e
                now := by
              rw [← hrem]
              rfl
        _ = some (((t.take e c).enter e now).linkedBy q'') := by rw [Option.bind_some, hset, henter]
  | cancel e =>
      obtain ⟨q', hrem, hset, hq'⟩ :=
          rem_spec hq hfuel e { t.calls e with deadline := 0, period := 0 }
      refine ⟨q', ?_, hq'⟩
      calc
        (t.linkedBy q).step fuel (.cancel e)
          = (some q').map fun queue => Hrt.setCall { t.linkedBy q with queue := queue } e
              { t.calls e with deadline := 0, period := 0 } := by
              rw [← hrem]
              rfl
        _ = _ := congrArg some hset
  | delay e delay now => exact ⟨q, rfl, hq⟩
  -- the handler does nothing where it is not
  | expire now =>
      obtain ⟨l, calls, work, isr⟩ := t
      cases isr with
      | idle =>
          cases work with
          | none => exact ⟨q, rfl, hq⟩
          | some time =>
              by_cases hle : time ≤ now
              · have habs : step (⟨l, calls, some time, .idle⟩ : Timers α) (.expire now) =
                  ⟨l, calls, none, .looping⟩ := if_pos hle
                rw [habs]
                exact ⟨q, congrArg some (if_pos hle), hq⟩
              · have habs : step (⟨l, calls, some time, .idle⟩ : Timers α) (.expire now) =
                  ⟨l, calls, some time, .idle⟩ := if_neg hle
                rw [habs]
                exact ⟨q, congrArg some (if_neg hle), hq⟩
      | looping | calling | leaving => exact ⟨q, rfl, hq⟩
  | invoke now now' =>
      obtain ⟨l, calls, work, isr⟩ := t
      cases isr with
      | looping => exact invokeNext_spec h hq hfuel now now'
      | idle | calling | leaving => exact ⟨q, rfl, hq⟩
  | returned now' =>
      obtain ⟨l, calls, work, isr⟩ := t
      cases isr with
      | calling e deadline now =>
          refine reenter_spec hq ?_ hfuel deadline now now'
          intro hperiod hmem
          exact hperiod (h.once e hmem rfl)
      | idle | looping | leaving => exact ⟨q, rfl, hq⟩
  | reschedule now =>
      obtain ⟨l, calls, work, isr⟩ := t
      cases isr with
      | leaving =>
          have hover := reschedule_linkedBy hq now
          have hstep : (linkedBy ⟨l, calls, work, .leaving⟩ q).step fuel (.reschedule now) =
              some { (linkedBy ⟨l, calls, work, .leaving⟩ q).hrtCallReschedule now with
                isr := Isr.idle } := rfl
          rw [hstep, hover]
          exact ⟨q, rfl, hq⟩
      | idle | looping | calling => exact ⟨q, rfl, hq⟩

omit [DecidableEq α] in
theorem fired_linkedBy (hq : q.Represents t.queued) (ev : Hrt.Event α) :
    (t.linkedBy q).fired ev = t.fired ev := by
  cases ev with
  | invoke now now' =>
      have hpeek : (t.linkedBy q).queue.peek = t.queued.head? := hq.peek
      dsimp only [Hrt.fired, fired, Hrt.due, due]
      rw [hpeek]
      rfl
  | _ => rfl

/-! ## Whole runs -/

omit [DecidableEq α] in
theorem length_lt [Fintype α] (h : t.IsSound) (hfuel : Fintype.card α < fuel) :
    t.queued.length < fuel := h.nodup.length_le_card.trans_lt hfuel

/-- A run over the linked queue is the run over the list, from where the list is sound. -/
theorem run_spec [Fintype α] (hfuel : Fintype.card α < fuel) {es : List (Hrt.Event α)}
    (h : t.IsSound)
    (hq : q.Represents t.queued) (hmeant : Hrt.AllMeant fuel (t.linkedBy q) es) :
    t.AllMeant es ∧ (exec step t es).IsSound ∧
      (∃ q', Hrt.run fuel (t.linkedBy q) es = some ((exec step t es).linkedBy q') ∧
        q'.Represents (exec step t es).queued) ∧
      Hrt.allFired fuel (t.linkedBy q) es = outputs step fired t es := by
  induction es generalizing t q with
  | nil => exact ⟨trivial, h, ⟨q, rfl, hq⟩, rfl⟩
  | cons ev es ih =>
      obtain ⟨q', hstep, hq'⟩ := step_spec h hq (length_lt h hfuel) hmeant.1
      have hsound := isSound_step h hmeant.1
      obtain ⟨hall, hend, ⟨q'', hrun, hq''⟩, hfired⟩ := ih hsound hq' (hmeant.2 _ hstep)
      refine ⟨⟨hmeant.1, hall⟩, hend, ⟨q'', ?_, hq''⟩, ?_⟩
      · rw [Hrt.run, hstep, Option.bind_some]
        exact hrun
      · rw [Hrt.allFired, hstep, Option.map_some, Option.getD_some, hfired, fired_linkedBy hq]
        rfl

theorem allMeant_append {es es' : List (Hrt.Event α)} {s : Hrt α}
    (h : Hrt.AllMeant fuel s (es ++ es')) :
    Hrt.AllMeant fuel s es ∧ ∀ s' ∈ Hrt.run fuel s es, Hrt.AllMeant fuel s' es' := by
  induction es generalizing s with
  | nil =>
      refine ⟨trivial, fun s' hs' => ?_⟩
      obtain rfl : s = s' := Option.some.inj hs'
      exact h
  | cons ev es ih =>
      refine ⟨⟨h.1, fun s' hs' => (ih (h.2 s' hs')).1⟩, fun s'' hs'' => ?_⟩
      obtain ⟨s', hs', hrun⟩ := Option.bind_eq_some_iff.1 hs''
      exact (ih (h.2 s' hs')).2 s'' hrun

variable [Fintype α] (flink : α → Option α)

theorem run_init (hfuel : Fintype.card α < fuel) {es es' : List (Hrt.Event α)}
    (hmeant : Hrt.AllMeant fuel (Hrt.init flink) (es ++ es')) :
    ∃ q, Hrt.run fuel (Hrt.init flink) es = some ((exec step init es).linkedBy q) ∧
      q.Represents (exec step init es).queued ∧ (exec step init es).IsSound ∧
      (init : Timers α).AllMeant es ∧
      Hrt.AllMeant fuel ((exec step init es).linkedBy q) es' := by
  obtain ⟨hbefore, hafter⟩ := allMeant_append hmeant
  obtain ⟨hall, hsound, ⟨q, hrun, hq⟩, _⟩ := run_spec (t := init) hfuel isSound_init
    (SqQueue.represents_init flink) hbefore
  exact ⟨q, hrun, hq, hsound, hall, hafter _ hrun⟩

theorem run_meant (hfuel : Fintype.card α < fuel) {es : List (Hrt.Event α)}
    (hmeant : Hrt.AllMeant fuel (Hrt.init flink) es) :
    ∃ q, Hrt.run fuel (Hrt.init flink) es = some ((exec step init es).linkedBy q) ∧
      q.Represents (exec step init es).queued ∧ (exec step init es).IsSound ∧
      (init : Timers α).AllMeant es := by
  have happend : Hrt.AllMeant fuel (Hrt.init flink) (es ++ []) := by rwa [List.append_nil]
  obtain ⟨q, hrun, hq, hsound, hall, -⟩ := run_init flink hfuel happend
  exact ⟨q, hrun, hq, hsound, hall⟩

end Timers

/-! ## Results -/

section Results

open Timers

/-- Two entries, the second one with a period; the handler comes late. -/
def lateHandler : List (Hrt.Event (Fin 2)) :=
  [.call 0 ⟨500, 0, true⟩ ⟨100, 101⟩, .call 1 ⟨300, 100, true⟩ ⟨110, 112⟩, .expire 450,
    .invoke 450 ⟨450, 450⟩, .returned ⟨460, 461⟩, .invoke 460 ⟨460, 460⟩, .returned ⟨470, 471⟩,
    .invoke 470 ⟨470, 470⟩, .reschedule ⟨480, 483⟩]

variable [DecidableEq α] [Fintype α] (fuel : ℕ) (flink : α → Option α)

/-- After any run of calls that are meant and of steps of the handler, the queue is a list without
repetition in the order of the deadlines.  It holds just the entries for which `hrt_called` is
false, but for an entry whose callout is running and has asked for a delay; and no loop has run on
for ever. -/
theorem hrt_queue_in_order (hfuel : Fintype.card α < fuel) (es : List (Hrt.Event α))
    (hmeant : Hrt.AllMeant fuel (Hrt.init flink) es) :
    ∃ s l, Hrt.run fuel (Hrt.init flink) es = some s ∧ s.queue.Represents l ∧
      (l.Pairwise fun a b => a ≠ b ∧ s.deadline a ≤ s.deadline b) ∧
      ∀ e, (e ∈ l → s.hrtCalled e = false) ∧
        (e ∉ l → s.hrtCalled e = true ∨ s.isr.Running e ∧ s.period e ≠ 0) := by
  obtain ⟨q, hrun, hq, hsound, -⟩ := run_meant flink hfuel hmeant
  refine ⟨_, _, hrun, hq, hsound.nodup.and hsound.sorted, fun e => ⟨fun he => ?_, fun he => ?_⟩⟩
  · exact beq_false_of_ne (hsound.queued e he)
  · exact (hsound.called e he).imp_left beq_iff_eq.2

theorem hrt_queue_in_order_late :
    ∃ s l, Hrt.run 3 (Hrt.init fun _ => none) lateHandler = some s ∧ s.queue.Represents l ∧
      (l.Pairwise fun a b => a ≠ b ∧ s.deadline a ≤ s.deadline b) ∧
      ∀ e, (e ∈ l → s.hrtCalled e = false) ∧
        (e ∉ l → s.hrtCalled e = true ∨ s.isr.Running e ∧ s.period e ≠ 0) :=
  hrt_queue_in_order 3 (fun _ => none) (by decide) lateHandler (by decide)

/-- Whenever the handler looks at the queue, either it leaves, and then nothing that waits is due at
the time that it has read; or it takes off an entry that is due, and no entry that waits is due
before it. -/
theorem hrt_invokes_first (hfuel : Fintype.card α < fuel) (es : List (Hrt.Event α))
    (hmeant : Hrt.AllMeant fuel (Hrt.init flink) es) :
    ∃ s, Hrt.run fuel (Hrt.init flink) es = some s ∧ (s.isr = .looping → ∀ now now', ∃ s',
      s.step fuel (.invoke now now') = some s' ∧
      (s'.isr = .leaving ∧ s.fired (.invoke now now') = [] ∧
          (∀ e, s.hrtCalled e = false → now < s.deadline e) ∨
        ∃ e, s.fired (.invoke now now') = [(e, s.deadline e)] ∧ s.hrtCalled e = false ∧
          s.deadline e ≤ now ∧ (∀ a, s.hrtCalled a = false → s.deadline e ≤ s.deadline a) ∧
          ((s.calls e).callout = true →
            s'.isr = .calling e (s.deadline e) now ∧ s'.hrtCalled e = true))) := by
  obtain ⟨q, hrun, hq, hsound, -⟩ := run_meant flink hfuel hmeant
  set t := exec step (init : Timers α) es
  refine ⟨_, hrun, fun hisr now now' => ?_⟩
  have hevent : (Hrt.Event.invoke now now').Meant t.calls t.isr := trivial
  obtain ⟨q', hstep, _⟩ := step_spec hsound hq (length_lt hsound hfuel) hevent
  have hnext : t.step (.invoke now now') = t.next now now' := by
    rw [step, show t.isr = .looping from hisr]
  have hfired : (t.linkedBy q).fired (.invoke now now') =
      ((t.due now).map fun e => (e, (t.calls e).deadline)).toList := by
    rw [fired_linkedBy hq, fired, show t.isr = .looping from hisr]
  -- no callout is running, so the queue holds all entries with a deadline
  have hmem : ∀ a, (t.linkedBy q).hrtCalled a = false → a ∈ t.queued := by
    intro a ha
    by_contra hnot
    refine beq_eq_false_iff_ne.1 ha (hsound.called_of_idle ?_ a hnot)
    rw [show t.isr = .looping from hisr]
    exact fun _ => id
  refine ⟨_, hstep, ?_⟩
  rw [hnext, hfired]
  cases hdue : t.due now with
  | none =>
      have hleaving : t.next now now' = { t with isr := .leaving } := by rw [next, hdue]
      rw [hleaving]
      exact Or.inl ⟨rfl, rfl, fun e he => lt_of_due_eq_none hsound hdue (hmem e he)⟩
  | some e =>
      obtain ⟨rest, hqueued, hle⟩ := eq_cons_of_due hdue
      have hsound' : Sound (e :: rest) t.calls t.isr := hqueued ▸ hsound
      refine Or.inr ⟨e, rfl, ?_, hle, fun a ha => ?_, fun hcallout => ?_⟩
      · exact beq_false_of_ne (hsound'.queued e List.mem_cons_self)
      · exact head_le hsound' (hqueued ▸ hmem a ha)
      · have hcalling : t.next now now' =
            { t.take e { t.calls e with deadline := 0 } with
              isr := .calling e (t.calls e).deadline now } := by
          rw [next, hdue]
          exact if_pos hcallout
        rw [hcalling]
        refine ⟨rfl, beq_iff_eq.2 ?_⟩
        exact congrArg HrtCall.deadline (take_calls_self t e _)

theorem hrt_invokes_first_late :
    ∃ s, Hrt.run 3 (Hrt.init fun _ => none) (lateHandler.take 3) = some s ∧
      (s.isr = .looping → ∀ now now', ∃ s',
      s.step 3 (.invoke now now') = some s' ∧
      (s'.isr = .leaving ∧ s.fired (.invoke now now') = [] ∧
          (∀ e, s.hrtCalled e = false → now < s.deadline e) ∨
        ∃ e, s.fired (.invoke now now') = [(e, s.deadline e)] ∧ s.hrtCalled e = false ∧
          s.deadline e ≤ now ∧ (∀ a, s.hrtCalled a = false → s.deadline e ≤ s.deadline a) ∧
          ((s.calls e).callout = true →
            s'.isr = .calling e (s.deadline e) now ∧ s'.hrtCalled e = true))) :=
  hrt_invokes_first 3 (fun _ => none) (by decide) (lateHandler.take 3) (by decide)

/-- An entry with a period is called at the times that its call has asked for, one period after
another, without a gap and however late the handler has been; until there is a call about it
again. -/
theorem hrt_no_drift (hfuel : Fintype.card α < fuel) (before after : List (Hrt.Event α)) (e : α)
    (c : HrtCall) (now : Reads)
    (hmeant : Hrt.AllMeant fuel (Hrt.init flink) (before ++ [.call e c now] ++ after))
    (hperiod : c.period ≠ 0) (hafter : ∀ ev ∈ after, ¬Hrt.Concerns e ev) :
    ∃ s n, Hrt.run fuel (Hrt.init flink) (before ++ [.call e c now]) = some s ∧
      Hrt.firings e (s.allFired fuel after) =
        (List.range n).map fun i => c.deadline + i * c.period := by
  obtain ⟨q, hrun, hq, hsound, _, hmeant'⟩ := run_init flink hfuel hmeant
  set t := exec step (init : Timers α) (before ++ [.call e c now]) with ht
  have hschedule : t.OnSchedule e c.deadline c.period 0 := by
    obtain ⟨hcalls, hmem⟩ := call_self (exec step init before) e c now
    rw [ht, exec_append, exec_cons, exec_nil, OnSchedule, hcalls]
    exact ⟨rfl, Or.inl ⟨hmem, (Nat.add_eq_left.2 (Nat.zero_mul _)).symm⟩⟩
  obtain ⟨hall, _, _, hfired⟩ := run_spec hfuel hsound hq hmeant'
  obtain ⟨n, hn⟩ := firings_outputs hsound hall hschedule hperiod hafter
  refine ⟨_, n, hrun, ?_⟩
  rw [hfired, hn, List.range_eq_range']

theorem hrt_no_drift_late :
    ∃ s n, Hrt.run 3 (Hrt.init fun _ => none)
        (lateHandler.take 1 ++ [.call 1 ⟨300, 100, true⟩ ⟨110, 112⟩]) = some s ∧
      Hrt.firings 1 (s.allFired 3 (lateHandler.drop 2)) = (List.range n).map fun i =>
        300 + i * 100 :=
  hrt_no_drift 3 (fun _ => none) (by decide) (lateHandler.take 1) (lateHandler.drop 2) 1
    ⟨300, 100, true⟩ ⟨110, 112⟩ (by decide) (by decide) (by decide)

/-- An entry that has been cancelled, even by its own callout, is not called until there is a call
about it again; and one without a period is called at most once then, at its deadline. -/
theorem hrt_called_once (hfuel : Fintype.card α < fuel) (before after : List (Hrt.Event α)) (e : α)
    (ev : Hrt.Event α) (hev : ev = .cancel e ∨ ∃ c now, ev = .call e c now ∧ c.period = 0)
    (hmeant : Hrt.AllMeant fuel (Hrt.init flink) (before ++ [ev] ++ after))
    (hafter : ∀ ev ∈ after, ¬Hrt.Concerns e ev) :
    ∃ s, Hrt.run fuel (Hrt.init flink) (before ++ [ev]) = some s ∧
      (Hrt.firings e (s.allFired fuel after) = [] ∨
        ev ≠ .cancel e ∧ Hrt.firings e (s.allFired fuel after) = [s.deadline e]) := by
  obtain ⟨q, hrun, hq, hsound, _, hmeant'⟩ := run_init flink hfuel hmeant
  set t := exec step (init : Timers α) (before ++ [ev]) with ht
  rw [exec_append, exec_cons, exec_nil] at ht
  obtain ⟨hall, _, _, hfired⟩ := run_spec hfuel hsound hq hmeant'
  refine ⟨_, hrun, ?_⟩
  rw [hfired]
  rcases hev with rfl | ⟨c, now, rfl, hperiod⟩
  · refine Or.inl (firings_off ?_ hafter)
    have hcalls := take_calls_self (exec step init before) e
      { (exec step init before).calls e with deadline := 0, period := 0 }
    rw [show (exec step init before).take e _ = t from ht.symm] at hcalls
    refine ⟨fun hmem => hsound.queued e hmem ?_, congrArg HrtCall.period hcalls⟩
    exact congrArg HrtCall.deadline hcalls
  · obtain ⟨hcalls, hmem⟩ := call_self (exec step init before) e c now
    rw [← ht] at hcalls hmem
    refine (firings_once hsound hall hmem (hcalls ▸ hperiod) hafter).imp_right fun honce => ?_
    exact ⟨by simp, honce⟩

theorem hrt_called_once_late :
    ∃ s, Hrt.run 3 (Hrt.init fun _ => none) ([] ++ [.call 0 ⟨500, 0, true⟩ ⟨100, 101⟩]) = some s ∧
      (Hrt.firings 0 (s.allFired 3 (lateHandler.drop 1)) = [] ∨
        (.call 0 ⟨500, 0, true⟩ ⟨100, 101⟩ : Hrt.Event (Fin 2)) ≠ .cancel 0 ∧
          Hrt.firings 0 (s.allFired 3 (lateHandler.drop 1)) = [s.deadline 0]) :=
  hrt_called_once 3 (fun _ => none) (by decide) [] (lateHandler.drop 1) 0
    (.call 0 ⟨500, 0, true⟩ ⟨100, 101⟩)
    (Or.inr ⟨⟨500, 0, true⟩, ⟨100, 101⟩, rfl, rfl⟩) (by decide) (by decide)

/-- While the handler is not running, it will be, and in time for all that waits: later than the
deadline by no more than the two readings of the clock have ever been apart, or `HRT_INTERVAL_MIN`
after the last of them if the deadline is past. -/
theorem hrt_wakes (hfuel : Fintype.card α < fuel) (es : List (Hrt.Event α))
    (hmeant : Hrt.AllMeant fuel (Hrt.init flink) es) :
    ∃ s, Hrt.run fuel (Hrt.init flink) es = some s ∧ (s.isr = .idle → ∀ e, s.hrtCalled e = false →
      ∃ time ∈ s.work,
        time ≤ max (s.deadline e + (es.map fun ev => (Hrt.reads ev).lag).foldl max 0)
          ((es.map fun ev => (Hrt.reads ev).qtime).foldl max 0 + hrtIntervalMin)) := by
  obtain ⟨q, hrun, hq, hsound, hall⟩ := run_meant flink hfuel hmeant
  have hwakes := (wakes_init 0 0).exec isSound_init hall
  refine ⟨_, hrun, fun hidle e he => hwakes hidle e ?_⟩
  by_contra hnot
  refine beq_eq_false_iff_ne.1 he (hsound.called_of_idle ?_ e hnot)
  rw [show (exec step init es).isr = .idle from hidle]
  exact fun _ => id

theorem hrt_wakes_late :
    ∃ s, Hrt.run 3 (Hrt.init fun _ => none) lateHandler = some s ∧
      (s.isr = .idle → ∀ e, s.hrtCalled e = false → ∃ time ∈ s.work,
        time ≤ max (s.deadline e + (lateHandler.map fun ev => (Hrt.reads ev).lag).foldl max 0)
          ((lateHandler.map fun ev => (Hrt.reads ev).qtime).foldl max 0 + hrtIntervalMin)) :=
  hrt_wakes 3 (fun _ => none) (by decide) lateHandler (by decide)

end Results

end Platform
end DtPhm
