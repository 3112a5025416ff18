import DtPhm.Dataman.Serving

/-!
# ServingRuns — all interleavings of the callers and the worker

The two linked queues do what two lists do, and so the data manager is as if its requests came one
after another.

* `Represents`, `step_spec` — the queues stand for the lists, after any event;
* `run_spec` — a whole run;
* `dataman_linearizable` — what is stored and what is returned is as in one order of the requests;
* `dataman_no_lost_wakeup` — the worker does not wait while there is work;
* `dataman_items_apart` — the two queues and the callers do not share an item.
-/

namespace DtPhm
namespace Dataman

open Lib DtPhm.Platform

universe u

variable {ι α Req Res σ : Type u}

/-- The links of the items stand for the two lists, and the sizes are right. -/
structure Queues.Represents (q : Queues α) (l : Lists α) : Prop where
  free : (q.free.queue q.link).Represents l.free
  work : (q.work.queue q.link).Represents l.work
  freeSize : q.free.size = l.free.length
  workSize : q.work.size = l.work.length

theorem represents_init (link : α → Option α) : (Queues.init link).Represents ⟨[], []⟩ :=
  ⟨⟨rfl, rfl⟩, ⟨rfl, rfl⟩, rfl, rfl⟩

namespace Queues.Represents

variable {q : Queues α} {l : Lists α}

theorem other {q₂ : WorkQ α} {link link' : α → Option α} {l₁ l₂ : List α}
    (h₂ : (q₂.queue link).Represents l₂) (hdisjoint : ∀ x ∈ l₂, x ∉ l₁)
    (hlink : ∀ x ∉ l₁, link' x = link x) : (q₂.queue link').Represents l₂ :=
  h₂.congr fun x hx => hlink x (hdisjoint x hx)

variable [DecidableEq α]

theorem takeFree (h : q.Represents l) (hdisjoint : ∀ x ∈ l.work, x ∉ l.free) :
    ((linked α).takeFree q).1 = ((listed α).takeFree l).1 ∧
      Queues.Represents ((linked α).takeFree q).2 ((listed α).takeFree l).2 := by
  obtain ⟨hhead, hrest⟩ := h.free.remfirst
  have hlink : ∀ x ∉ l.free, (q.free.queue q.link).remfirst.2.flink x = q.link x := fun x hx =>
    SqQueue.remfirst_flink h.free hx
  dsimp only [linked, Queues.takeFree, listed]
  generalize (q.free.queue q.link).remfirst = r at hhead hrest hlink ⊢
  obtain ⟨first, sq⟩ := r
  obtain rfl : first = l.free.head? := hhead
  have hwork : (q.work.queue sq.flink).Represents l.work := other h.work hdisjoint hlink
  cases hfree : l.free with
  | nil =>
      rw [hfree] at hrest
      exact ⟨rfl, hrest, hwork, h.freeSize.trans (congrArg List.length hfree), h.workSize⟩
  | cons item free =>
      rw [hfree] at hrest
      refine ⟨rfl, hrest, hwork, ?_, h.workSize⟩
      have hsize := h.freeSize
      rw [hfree, List.length_cons] at hsize
      exact Nat.sub_eq_of_eq_add hsize

theorem takeWork (h : q.Represents l) (hdisjoint : ∀ x ∈ l.free, x ∉ l.work) :
    ((linked α).takeWork q).1 = ((listed α).takeWork l).1 ∧
      Queues.Represents ((linked α).takeWork q).2 ((listed α).takeWork l).2 := by
  obtain ⟨hhead, hrest⟩ := h.work.remfirst
  have hlink : ∀ x ∉ l.work, (q.work.queue q.link).remfirst.2.flink x = q.link x := fun x hx =>
    SqQueue.remfirst_flink h.work hx
  dsimp only [linked, Queues.takeWork, listed]
  generalize (q.work.queue q.link).remfirst = r at hhead hrest hlink ⊢
  obtain ⟨first, sq⟩ := r
  obtain rfl : first = l.work.head? := hhead
  have hfree : (q.free.queue sq.flink).Represents l.free := other h.free hdisjoint hlink
  cases hwork : l.work with
  | nil =>
      rw [hwork] at hrest
      exact ⟨rfl, hfree, hrest, h.freeSize, h.workSize.trans (congrArg List.length hwork)⟩
  | cons item work =>
      rw [hwork] at hrest
      refine ⟨rfl, hfree, hrest, h.freeSize, ?_⟩
      have hsize := h.workSize
      rw [hwork, List.length_cons] at hsize
      exact Nat.sub_eq_of_eq_add hsize

theorem addfirsts {sq : SqQueue α} {l₀ items : List α} (h : sq.Represents l₀)
    (hnodup : (items ++ l₀).Nodup) :
    (items.foldl SqQueue.addfirst sq).Represents (items.reverse ++ l₀) ∧
      ∀ x ∉ items, (items.foldl SqQueue.addfirst sq).flink x = sq.flink x := by
  induction items generalizing sq l₀ with
  | nil => exact ⟨h, fun _ _ => rfl⟩
  | cons item items ih =>
      obtain ⟨hitem, hrest⟩ := List.nodup_cons.1 hnodup
      have hfirst := h.addfirst fun hmem => hitem (List.mem_append_right items hmem)
      have hnodup' : (items ++ item :: l₀).Nodup := List.nodup_middle.2 hnodup
      obtain ⟨hall, hlink⟩ := ih hfirst hnodup'
      refine ⟨?_, fun x hx => ?_⟩
      · rw [List.reverse_cons, List.append_assoc]
        exact hall
      · rw [List.mem_cons, not_or] at hx
        exact (hlink x hx.2).trans (SqQueue.addfirst_flink hx.1)

theorem giveFree (h : q.Represents l) {items : List α} (hnodup : (items ++ l.free).Nodup)
    (hwork : ∀ x ∈ l.work, x ∉ items) :
    Queues.Represents ((linked α).giveFree items q) ((listed α).giveFree items l) := by
  obtain ⟨hall, hlink⟩ := addfirsts h.free hnodup
  refine ⟨hall, other h.work hwork hlink, ?_, h.workSize⟩
  show q.free.size + items.length = (items.reverse ++ l.free).length
  rw [List.length_append, List.length_reverse, h.freeSize, Nat.add_comm]

theorem putWork (h : q.Represents l) {item : α} (hwork : item ∉ l.work) (hfree : item ∉ l.free)
    (hdisjoint : ∀ x ∈ l.free, x ∉ l.work) :
    Queues.Represents ((linked α).putWork item q) ((listed α).putWork item l) := by
  refine ⟨?_, h.work.addlast hwork, h.freeSize, ?_⟩
  · refine h.free.congr fun x hx => ?_
    exact SqQueue.addlast_flink h.work (ne_of_mem_of_not_mem hx hfree) (hdisjoint x hx)
  · show q.work.size + 1 = (l.work ++ [item]).length
    rw [List.length_append, List.length_singleton, h.workSize]

end Queues.Represents

/-! ## One event -/

/-- The data manager with linked queues in place of the lists. -/
def Dm.linkedBy (s : Dm (Lists α) ι α Req Res σ) (q : Queues α) : Dm (Queues α) ι α Req Res σ :=
  ⟨q, s.items, s.memory, s.workQueued, s.callers, s.worker, s.store⟩

variable [DecidableEq ι] [DecidableEq α] {serve : σ → Req → Res × σ}
    {s : Dm (Lists α) ι α Req Res σ}
  {h : History ι α Req Res} {q : Queues α}

theorem Inv.disjoint (hi : Inv s h) : ∀ x ∈ s.queues.work, x ∉ s.queues.free := by
  intro x hx
  obtain ⟨op, hop⟩ := hi.serviced.owner x (List.mem_append_left _ hx)
  exact hi.owned.not_free _ x (Caller.mem_holds_of_pending hop)

theorem step_spec (hi : Inv s h) (hq : q.Represents s.queues) (ev : Event ι α Req) :
    ∃ q', (s.linkedBy q).step (linked α) serve ev = (s.step (listed α) serve ev).linkedBy q' ∧
      q'.Represents (s.step (listed α) serve ev).queues := by
  have hdisjoint := hi.disjoint
  have hdisjoint' : ∀ x ∈ s.queues.free, x ∉ s.queues.work := fun x hx hx' => hdisjoint x hx' hx
  have hcallers : (s.linkedBy q).callers = s.callers := rfl
  have hworker : (s.linkedBy q).worker = s.worker := rfl
  cases ev with
  | create c =>
      dsimp only [Dm.step]
      rw [hcallers]
      cases hc : s.callers c with
      | creating op =>
          obtain ⟨hfirst, hq'⟩ := hq.takeFree hdisjoint
          dsimp only
          rw [show (s.linkedBy q).queues = q from rfl]
          generalize (linked α).takeFree q = r at hfirst hq' ⊢
          generalize (listed α).takeFree s.queues = r' at hfirst hq' ⊢
          obtain ⟨first, q'⟩ := r
          obtain ⟨first', l'⟩ := r'
          obtain rfl : first = first' := hfirst
          cases first with
          | none => exact ⟨q', rfl, hq'⟩
          | some item => exact ⟨q', rfl, hq'⟩
      | _ => exact ⟨q, rfl, hq⟩
  | add c =>
      dsimp only [Dm.step]
      rw [hcallers]
      cases hc : s.callers c with
      | adding op item rest =>
          have hholds : ∀ x ∈ rest, x ∈ (s.callers c).holds := by
            intro x hx
            rw [hc]
            exact List.mem_cons_of_mem item hx
          have hnodup : (item :: rest).Nodup := by
            have := hi.owned.holds_nodup c
            rwa [hc] at this
          refine ⟨_, rfl, hq.giveFree ?_ fun x hx hx' => ?_⟩
          · refine List.nodup_append'.2 ⟨hnodup.of_cons, hi.owned.free_nodup, fun x hx => ?_⟩
            exact hi.owned.not_free c x (hholds x hx)
          · refine hi.not_inService (hholds x hx') ?_ (List.mem_append_left _ hx)
            rw [hc]
            rfl
      | _ => exact ⟨q, rfl, hq⟩
  | enqueue c =>
      dsimp only [Dm.step]
      rw [hcallers]
      cases hc : s.callers c with
      | enqueueing op item =>
          have hholds : item ∈ (s.callers c).holds := by rw [hc]; exact List.mem_singleton_self item
          have hpending : (s.callers c).pending = none := by rw [hc]; rfl
          have hwork : item ∉ s.queues.work := fun hmem =>
            hi.not_inService hholds hpending (List.mem_append_left _ hmem)
          exact ⟨_, rfl, hq.putWork hwork (hi.owned.not_free c item hholds) hdisjoint'⟩
      | _ => exact ⟨q, rfl, hq⟩
  | destroy c =>
      dsimp only [Dm.step]
      rw [hcallers]
      cases hc : s.callers c with
      | destroying op item res =>
          have hholds : item ∈ (s.callers c).holds := by rw [hc]; exact List.mem_singleton_self item
          have hpending : (s.callers c).pending = none := by rw [hc]; rfl
          refine ⟨_, rfl, hq.giveFree ?_ fun x hx hx' => ?_⟩
          · exact List.nodup_cons.2 ⟨hi.owned.not_free c item hholds, hi.owned.free_nodup⟩
          · obtain rfl := List.mem_singleton.1 hx'
            exact hi.not_inService hholds hpending (List.mem_append_left _ hx)
      | _ => exact ⟨q, rfl, hq⟩
  | dequeue =>
      dsimp only [Dm.step]
      rw [hworker]
      cases hw : s.worker with
      | dequeueing =>
          obtain ⟨hfirst, hq'⟩ := hq.takeWork hdisjoint'
          dsimp only
          rw [show (s.linkedBy q).queues = q from rfl]
          generalize (linked α).takeWork q = r at hfirst hq' ⊢
          generalize (listed α).takeWork s.queues = r' at hfirst hq' ⊢
          obtain ⟨first, q'⟩ := r
          obtain ⟨first', l'⟩ := r'
          obtain rfl : first = first' := hfirst
          cases first with
          | none => exact ⟨q', rfl, hq'⟩
          | some item => exact ⟨q', rfl, hq'⟩
      | _ => exact ⟨q, rfl, hq⟩
  -- the queues do not take part
  | call c op =>
      dsimp only [Dm.step]
      rw [hcallers]
      cases hc : s.callers c with
      | _ => exact ⟨q, rfl, hq⟩
  | malloc c chunk =>
      dsimp only [Dm.step]
      rw [hcallers]
      cases hc : s.callers c with
      | allocating op =>
          cases chunk with
          | none => exact ⟨q, rfl, hq⟩
          | some chunk => exact ⟨q, rfl, hq⟩
      | _ => exact ⟨q, rfl, hq⟩
  | post c =>
      dsimp only [Dm.step]
      rw [hcallers]
      cases hc : s.callers c with
      | _ => exact ⟨q, rfl, hq⟩
  | wake c =>
      dsimp only [Dm.step]
      rw [hcallers]
      cases hc : s.callers c with
      | waiting op item =>
          by_cases hsem : (s.items item).waitSem = 0
          · have hsem' : ((s.linkedBy q).items item).waitSem = 0 := hsem
            simp only [if_pos hsem, if_pos hsem']
            exact ⟨q, rfl, hq⟩
          · have hsem' : ¬((s.linkedBy q).items item).waitSem = 0 := hsem
            simp only [if_neg hsem, if_neg hsem']
            exact ⟨q, rfl, hq⟩
      | _ => exact ⟨q, rfl, hq⟩
  | work =>
      dsimp only [Dm.step]
      rw [hworker, show (s.linkedBy q).workQueued = s.workQueued from rfl]
      cases hw : s.worker with
      | waiting =>
          by_cases hzero : s.workQueued = 0
          · simp only [if_pos hzero]
            exact ⟨q, rfl, hq⟩
          · simp only [if_neg hzero]
            exact ⟨q, rfl, hq⟩
      | _ => exact ⟨q, rfl, hq⟩
  | serve =>
      dsimp only [Dm.step]
      rw [hworker]
      cases hw : s.worker with
      | _ => exact ⟨q, rfl, hq⟩
  | answer =>
      dsimp only [Dm.step]
      rw [hworker]
      cases hw : s.worker with
      | _ => exact ⟨q, rfl, hq⟩

/-! ## Whole runs -/

/-- A run of the data manager as the code has it, with its history. -/
def serving (serve : σ → Req → Res × σ) (items : α → WorkItem Req Res) (link : α → Option α)
    (owner : α → ι) (store : σ) (es : List (Event ι α Req)) :
    Dm (Queues α) ι α Req Res σ × History ι α Req Res :=
  exec (historyStep (Dm.step (linked α) serve) (record serve))
    (Dm.init (Queues.init link) items store, History.init owner) es

/-- In a run `malloc` gives memory that is not in use. -/
def AllFresh (serve : σ → Req → Res × σ) (items : α → WorkItem Req Res) (link : α → Option α)
    (store : σ) (es : List (Event ι α Req)) : Prop :=
  AllSteps (Dm.step (linked α) serve) FreshMemory (Dm.init (Queues.init link) items store) es

theorem record_linkedBy (q : Queues α) (ev : Event ι α Req) (h : History ι α Req Res) :
    record serve (s.linkedBy q) ev h = record serve s ev h := by
  cases ev with
  | malloc c chunk => cases chunk <;> rfl
  | _ => rfl

theorem run_spec {store₀ : σ} (hi : Inv s h) (ho : InOrder serve store₀ s h)
    (hq : q.Represents s.queues) {es : List (Event ι α Req)}
    (hes : AllSteps (Dm.step (linked α) serve) FreshMemory (s.linkedBy q) es) :
    ∃ s' q' h', exec (historyStep (Dm.step (linked α) serve) (record serve)) (s.linkedBy q, h) es =
        (Dm.linkedBy s' q', h') ∧
      Inv s' h' ∧ InOrder serve store₀ s' h' ∧ q'.Represents s'.queues := by
  induction es generalizing s q h with
  | nil => exact ⟨s, q, h, rfl, hi, ho, hq⟩
  | cons ev es ih =>
      obtain ⟨hfresh, hrest⟩ := (allSteps_cons ..).1 hes
      have hstep : ∃ q',
          (s.linkedBy q).step (linked α) serve ev = (s.step (listed α) serve ev).linkedBy q' ∧
            q'.Represents (s.step (listed α) serve ev).queues := step_spec hi hq ev
      obtain ⟨q', hstep, hq'⟩ := hstep
      rw [hstep] at hrest
      rw [exec_cons, historyStep, hstep, record_linkedBy]
      exact ih (hi.step hfresh) (ho.step ev) hq' hrest

theorem inv_init (items : α → WorkItem Req Res) (owner : α → ι) (store : σ) :
    Inv (Dm.init ⟨[], []⟩ items store : Dm (Lists α) ι α Req Res σ) (History.init owner) := by
  refine ⟨⟨List.nodup_nil, fun _ => List.nodup_nil, nofun, nofun, nofun, nofun⟩, ?_⟩
  exact ⟨List.nodup_nil, nofun, nofun, fun _ => rfl, nofun⟩

theorem serving_spec (serve : σ → Req → Res × σ) (items : α → WorkItem Req Res)
    (link : α → Option α)
    (owner : α → ι) (store : σ) (es : List (Event ι α Req))
    (hes : AllFresh serve items link store es) :
    ∃ s q h, serving serve items link owner store es = (Dm.linkedBy s q, h) ∧ Inv s h ∧
      InOrder serve store s h ∧ q.Represents s.queues :=
  run_spec (s := Dm.init ⟨[], []⟩ items store) (inv_init items owner store) ⟨rfl, rfl⟩
    (represents_init link) hes

/-! ## Results -/

/-- Work items before their first use. -/
def blankItems (_ : Fin 8) : WorkItem Op Reply := ⟨false, .clear 0, .code 0, 0⟩

/-- A write and a read of two callers, of which the read is on the work queue first. -/
def twoCalls : List (Event Bool (Fin 8) Op) :=
  [.call true (.write 0 0 .powerOnReset [7]), .call false (.read 0 0 1), .create true,
    .malloc true (some (0, [1, 2, 3, 4, 5, 6, 7])), .add true, .create false, .enqueue false,
    .enqueue true, .post true, .work, .dequeue, .serve, .post false, .answer, .wake false, .dequeue,
    .serve, .answer, .dequeue, .work, .dequeue, .wake true, .destroy true, .destroy false]

theorem twoCalls_fresh :
    AllFresh (ramStep .posix) blankItems (fun _ => none) (ramInitialize .posix) twoCalls := by
  refine ⟨trivial, trivial, trivial, ⟨rfl, by decide, nofun⟩, ?_⟩
  simp only [allSteps_cons, allSteps_nil, FreshMemory, and_self]

section Results

variable (serve : σ → Req → Res × σ) (items : α → WorkItem Req Res) (link : α → Option α)
    (owner : α → ι)
  (store : σ) (es : List (Event ι α Req))

/-- However the calls interleave, the store and the results are as if the requests had been served
one after another.  Each caller is returned the results of its own requests in the order of its
calls, each request is served once, and what has been served and not returned belongs to a call that
is under way. -/
theorem dataman_linearizable (hes : AllFresh serve items link store es) :
    ∃ dm h, serving serve items link owner store es = (dm, h) ∧
      exec (fun store req => (serve store req).2) store (h.served.map (·.2.1)) = dm.store ∧
      outputs (fun store req => (serve store req).2) (fun store req => [(serve store req).1]) store
        (h.served.map (·.2.1)) = h.served.map (·.2.2) ∧
      ∀ c, ∃ rest, h.servedOf c = h.results c ++ rest ∧ rest.length ≤ 1 ∧
        (dm.callers c = .idle → rest = []) := by
  obtain ⟨s, q, h, hrun, hi, ho, _⟩ := serving_spec serve items link owner store es hes
  refine ⟨_, h, hrun, ho.1, ho.2, fun c =>
    ⟨s.answered c, hi.serviced.answers c, ?_, fun hidle => ?_⟩⟩
  · unfold Dm.answered
    split
    · split <;> simp
    · split <;> simp
    · simp
    · simp
  · rw [Dm.answered, show s.callers c = .idle from hidle]

theorem dataman_linearizable_two :
    ∃ dm h,
      serving (ramStep .posix) blankItems (fun _ => none) (fun _ => true) (ramInitialize .posix)
        twoCalls = (dm, h) ∧
      exec (fun store req => (ramStep .posix store req).2) (ramInitialize .posix)
        (h.served.map (·.2.1)) = dm.store ∧
      outputs (fun store req => (ramStep .posix store req).2)
        (fun store req => [(ramStep .posix store req).1]) (ramInitialize .posix)
        (h.served.map (·.2.1)) = h.served.map (·.2.2) ∧
      ∀ c, ∃ rest, h.servedOf c = h.results c ++ rest ∧ rest.length ≤ 1 ∧
        (dm.callers c = .idle → rest = []) :=
  dataman_linearizable (ramStep .posix) blankItems (fun _ => none) (fun _ => true)
    (ramInitialize .posix) twoCalls twoCalls_fresh

/-- When the worker waits without having been told of work, and no caller is about to tell it, then
there is no work, and every caller that waits for an answer has it. -/
theorem dataman_no_lost_wakeup (hes : AllFresh serve items link store es) :
    ∃ dm h, serving serve items link owner store es = (dm, h) ∧
      (dm.worker = .waiting → dm.workQueued = 0 → (∀ c op x, dm.callers c ≠ .posting op x) →
        dm.queues.work.head = none ∧
          ∀ c op x, dm.callers c = .waiting op x → (dm.items x).waitSem = 1) := by
  obtain ⟨s, q, h, hrun, hi, _, hq⟩ := serving_spec serve items link owner store es hes
  refine ⟨_, h, hrun, fun hwaiting hzero hposting => ?_⟩
  have hempty : s.queues.work = [] := by
    refine List.eq_nil_iff_forall_not_mem.2 fun x hx => ?_
    obtain ⟨op, hop⟩ := hi.serviced.awake hwaiting hzero x hx
    exact hposting _ op x hop
  refine ⟨?_, fun c op x hc => ?_⟩
  · have hhead := hq.work.peek
    rwa [hempty] at hhead
  · have hnone : s.inService = [] := by
      rw [Dm.inService, hempty, show s.worker = .waiting from hwaiting]
      rfl
    have hpending : (s.callers c).pending = some (op, x) := by
      rw [show s.callers c = .waiting op x from hc]
      rfl
    have hsem := (hi.serviced.item c op x hpending).2.2
    rwa [hnone, if_neg List.not_mem_nil] at hsem

theorem dataman_no_lost_wakeup_two :
    ∃ dm h,
      serving (ramStep .posix) blankItems (fun _ => none) (fun _ => true) (ramInitialize .posix)
        twoCalls = (dm, h) ∧
      (dm.worker = .waiting → dm.workQueued = 0 → (∀ c op x, dm.callers c ≠ .posting op x) →
        dm.queues.work.head = none ∧
          ∀ c op x, dm.callers c = .waiting op x → (dm.items x).waitSem = 1) :=
  dataman_no_lost_wakeup (ramStep .posix) blankItems (fun _ => none) (fun _ => true)
    (ramInitialize .posix) twoCalls twoCalls_fresh

/-- A work item is in one place at a time: in one of the two queues, which are never mixed up
although they share their links, or with one caller. -/
theorem dataman_items_apart (hes : AllFresh serve items link store es) :
    ∃ dm h l, serving serve items link owner store es = (dm, h) ∧ dm.queues.Represents l ∧
      (l.work ++ l.free).Nodup ∧
      (∀ c, ∀ x ∈ (dm.callers c).holds, x ∉ l.free ∧
        (x ∈ l.work → ∃ op, dm.callers c = .posting op x ∨ dm.callers c = .waiting op x)) ∧
      ∀ c c', ∀ x ∈ (dm.callers c).holds, x ∈ (dm.callers c').holds → c = c' := by
  obtain ⟨s, q, h, hrun, hi, _, hq⟩ := serving_spec serve items link owner store es hes
  refine ⟨_, h, s.queues, hrun, hq, ?_, fun c x hx => ⟨hi.owned.not_free c x hx, fun hwork => ?_⟩,
    hi.owned.once⟩
  · refine List.nodup_append'.2 ⟨?_, hi.owned.free_nodup, hi.disjoint⟩
    exact (List.nodup_append'.1 hi.serviced.nodup).1
  · obtain ⟨op, hop⟩ := hi.serviced.owner x (List.mem_append_left _ hwork)
    obtain rfl := hi.owned.once _ _ x hx (Caller.mem_holds_of_pending hop)
    refine ⟨op, ?_⟩
    show s.callers (h.owner x) = _ ∨ s.callers (h.owner x) = _
    revert hop
    cases s.callers (h.owner x) with
    | posting op' item | waiting op' item =>
        intro hop
        cases hop
        simp
    | _ => exact nofun

theorem dataman_items_apart_two :
    ∃ dm h l, serving (ramStep .posix) blankItems (fun _ => none) (fun _ => true)
        (ramInitialize .posix) twoCalls = (dm, h) ∧ dm.queues.Represents l ∧
      (l.work ++ l.free).Nodup ∧
      (∀ c, ∀ x ∈ (dm.callers c).holds, x ∉ l.free ∧
        (x ∈ l.work → ∃ op, dm.callers c = .posting op x ∨ dm.callers c = .waiting op x)) ∧
      ∀ c c', ∀ x ∈ (dm.callers c).holds, x ∈ (dm.callers c').holds → c = c' :=
  dataman_items_apart (ramStep .posix) blankItems (fun _ => none) (fun _ => true)
    (ramInitialize .posix) twoCalls twoCalls_fresh

end Results

end Dataman
end DtPhm
