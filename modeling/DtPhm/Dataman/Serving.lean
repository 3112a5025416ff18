import DtPhm.Dataman.WorkQueue
import Mathlib.Data.List.Nodup

/-!
# Serving — every call is served once

The invariant of the data manager over its two lists, and what it is worth.

* `Owned` — no item has two places: it is free, or a caller has it;
* `Serviced` — what the worker has is what the callers have put there, and what has been served and
  not yet returned is the answer of the calls that are under way;
* `Inv.step` — every event keeps it;
* `InOrder` — the store and the results are those of one order of the requests.
-/

namespace DtPhm
namespace Dataman

open Lib

universe u

variable {ι α Req Res σ : Type u}

/-! ## Who has which item -/

/-- The items that a caller has. -/
def Caller.holds : Caller α Req Res → List α
  | .adding _ item rest => item :: rest
  | .enqueueing _ item => [item]
  | .posting _ item => [item]
  | .waiting _ item => [item]
  | .destroying _ item _ => [item]
  | _ => []

/-- The request that a caller has put on the work queue, until it sees the answer. -/
def Caller.pending : Caller α Req Res → Option (Req × α)
  | .posting op item => some (op, item)
  | .waiting op item => some (op, item)
  | _ => none

theorem Caller.mem_holds_of_pending {k : Caller α Req Res} {op : Req} {x : α}
    (h : k.pending = some (op, x)) : x ∈ k.holds := by
  cases k <;> cases h <;> exact List.mem_singleton_self x

/-- Every item of the memory that is in use has one place. -/
structure Owned (free : List α) (callers : ι → Caller α Req Res) (memory : List α) : Prop where
  free_nodup : free.Nodup
  holds_nodup : ∀ c, (callers c).holds.Nodup
  not_free : ∀ c, ∀ x ∈ (callers c).holds, x ∉ free
  once : ∀ c c', ∀ x ∈ (callers c).holds, x ∈ (callers c').holds → c = c'
  free_memory : ∀ x ∈ free, x ∈ memory
  holds_memory : ∀ c, ∀ x ∈ (callers c).holds, x ∈ memory

variable {free free' memory memory' : List α} {callers : ι → Caller α Req Res} [DecidableEq ι]

theorem Owned.set (h : Owned free callers memory) {c : ι} {k : Caller α Req Res}
    (hnodup : (k.holds ++ free').Nodup)
    (hfree : ∀ x ∈ free', x ∈ free ∨ x ∈ (callers c).holds)
    (hholds : ∀ x ∈ k.holds, x ∈ free ∨ x ∈ (callers c).holds ∨ x ∉ memory ∧ x ∈ memory')
    (hmemory : ∀ x ∈ memory, x ∈ memory') :
    Owned free' (Function.update callers c k) memory' := by
  obtain ⟨hholds', hfree', hdisjoint⟩ := List.nodup_append'.1 hnodup
  -- what the caller has now, no other caller has
  have hother : ∀ c', c' ≠ c → ∀ x ∈ (callers c').holds, x ∉ k.holds ∧ x ∉ free' := by
    intro c' hc' x hx
    constructor
    · intro hx'
      rcases hholds x hx' with hx' | hx' | hx'
      · exact h.not_free c' x hx hx'
      · exact hc' (h.once c' c x hx hx')
      · exact hx'.1 (h.holds_memory c' x hx)
    · intro hx'
      rcases hfree x hx' with hx' | hx'
      · exact h.not_free c' x hx hx'
      · exact hc' (h.once c' c x hx hx')
  refine ⟨hfree', ?_, ?_, ?_, ?_, ?_⟩
  · intro c'
    by_cases hc' : c' = c
    · subst hc'
      rwa [Function.update_self]
    · rw [Function.update_of_ne hc']
      exact h.holds_nodup c'
  · intro c' x hx
    by_cases hc' : c' = c
    · subst hc'
      rw [Function.update_self] at hx
      exact hdisjoint hx
    · rw [Function.update_of_ne hc'] at hx
      exact (hother c' hc' x hx).2
  · intro c₁ c₂ x hx₁ hx₂
    by_cases hc₁ : c₁ = c
    · by_cases hc₂ : c₂ = c
      · exact hc₁.trans hc₂.symm
      · subst hc₁
        rw [Function.update_self] at hx₁
        rw [Function.update_of_ne hc₂] at hx₂
        exact absurd hx₁ (hother c₂ hc₂ x hx₂).1
    · rw [Function.update_of_ne hc₁] at hx₁
      by_cases hc₂ : c₂ = c
      · subst hc₂
        rw [Function.update_self] at hx₂
        exact absurd hx₂ (hother c₁ hc₁ x hx₁).1
      · rw [Function.update_of_ne hc₂] at hx₂
        exact h.once c₁ c₂ x hx₁ hx₂
  · intro x hx
    rcases hfree x hx with hx | hx
    · exact hmemory x (h.free_memory x hx)
    · exact hmemory x (h.holds_memory c x hx)
  · intro c' x hx
    by_cases hc' : c' = c
    · subst hc'
      rw [Function.update_self] at hx
      rcases hholds x hx with hx | hx | hx
      · exact hmemory x (h.free_memory x hx)
      · exact hmemory x (h.holds_memory c' x hx)
      · exact hx.2
    · rw [Function.update_of_ne hc'] at hx
      exact hmemory x (h.holds_memory c' x hx)

theorem Owned.keep (h : Owned free callers memory) {c : ι} {k : Caller α Req Res}
    (hholds : k.holds = (callers c).holds) : Owned free (Function.update callers c k) memory := by
  refine h.set ?_ (fun x => Or.inl) (fun x hx => Or.inr (Or.inl (hholds ▸ hx))) fun x => id
  rw [hholds]
  exact List.nodup_append'.2 ⟨h.holds_nodup c, h.free_nodup, fun x => h.not_free c x⟩

/-! ## What is being served -/

variable [DecidableEq α]

def Worker.item : Worker α → List α
  | .serving x => [x]
  | .answering x => [x]
  | _ => []

/-- A request that has not been served. -/
def Worker.Unserved (w : Worker α) (work : List α) (x : α) : Prop := x ∈ work ∨ w = .serving x

instance (w : Worker α) (work : List α) (x : α) : Decidable (w.Unserved work x) :=
  have : Decidable (w = .serving x) :=
    match w with
    | .serving y => decidable_of_iff (y = x) ⟨congrArg _, Worker.serving.inj⟩
    | .waiting => .isFalse nofun
    | .dequeueing => .isFalse nofun
    | .answering _ => .isFalse nofun
  inferInstanceAs (Decidable (_ ∨ _))

namespace Dm

variable (s : Dm (Lists α) ι α Req Res σ)

/-- The requests that wait, and the one that the worker has. -/
def inService : List α := s.queues.work ++ s.worker.item

/-- The answer of the call that is under way, if it has been served. -/
def answered (c : ι) : List (Req × Res) :=
  match s.callers c with
  | .posting op x | .waiting op x =>
      if s.worker.Unserved s.queues.work x then [] else [(op, (s.items x).result)]
  | .destroying op _ res => [(op, res)]
  | _ => []

end Dm

/-- What the worker has, who waits for it, and what has been served. -/
structure Serviced (s : Dm (Lists α) ι α Req Res σ) (h : History ι α Req Res) : Prop where
  nodup : s.inService.Nodup
  owner : ∀ x ∈ s.inService, ∃ op, (s.callers (h.owner x)).pending = some (op, x)
  item : ∀ c op x, (s.callers c).pending = some (op, x) → (s.items x).op = op ∧ h.owner x = c ∧
    (s.items x).waitSem = if x ∈ s.inService then 0 else 1
  answers : ∀ c, h.servedOf c = h.results c ++ s.answered c
  awake : s.worker = .waiting → s.workQueued = 0 →
    ∀ x ∈ s.queues.work, ∃ op, s.callers (h.owner x) = .posting op x

variable {s s' : Dm (Lists α) ι α Req Res σ} {h h' : History ι α Req Res}

omit [DecidableEq ι] in
theorem Dm.answered_congr {c : ι} (hcaller : s'.callers c = s.callers c)
    (hitem : ∀ op x, (s.callers c).pending = some (op, x) →
      (s'.worker.Unserved s'.queues.work x ↔ s.worker.Unserved s.queues.work x) ∧
        (s'.items x).result = (s.items x).result) : s'.answered c = s.answered c := by
  unfold answered
  rw [hcaller]
  cases hc : s.callers c with
  | posting op x | waiting op x =>
      obtain ⟨hunserved, hresult⟩ := hitem op x (by rw [hc]; rfl)
      simp only [hunserved, hresult]
  | _ => rfl

omit [DecidableEq ι] in
theorem Dm.answered_of_not_destroying {c : ι} (hpending : (s.callers c).pending = none)
    (hdestroying : ∀ op x res, s.callers c ≠ .destroying op x res) : s.answered c = [] := by
  unfold answered
  cases hc : s.callers c with
  | posting op x | waiting op x =>
      rw [hc] at hpending
      cases hpending
  | destroying op x res => exact absurd hc (hdestroying op x res)
  | _ => rfl

theorem Serviced.quiet (hs : Serviced s h) {c : ι} {k : Caller α Req Res}
    (hbefore : (s.callers c).pending = none) (hafter : k.pending = none)
    (hcallers : s'.callers = Function.update s.callers c k) (hwork : s'.queues.work = s.queues.work)
    (hworker : s'.worker = s.worker) (hqueued : s'.workQueued = s.workQueued)
    (hitems : ∀ x, (s'.items x).op = (s.items x).op ∧ (s'.items x).result = (s.items x).result ∧
      (s'.items x).waitSem = (s.items x).waitSem)
    (howner : h'.owner = h.owner) (hserved : h'.served = h.served)
    (hreturned : ∀ c' ≠ c, h'.returned c' = h.returned c')
    (hanswers : h'.results c ++ s'.answered c = h.results c ++ s.answered c) : Serviced s' h' := by
  have hinService : s'.inService = s.inService := by rw [Dm.inService, Dm.inService, hwork, hworker]
  have hother : ∀ c' ≠ c, s'.callers c' = s.callers c' := fun c' hc' => by
    rw [hcallers, Function.update_of_ne hc']
  have hself : s'.callers c = k := by rw [hcallers, Function.update_self]
  -- a call that has something on the queue is of another caller
  have hne : ∀ c' op x, (s'.callers c').pending = some (op, x) → c' ≠ c := by
    rintro c' op x hpending rfl
    rw [hself, hafter] at hpending
    cases hpending
  have howned : ∀ c' op x, (s.callers c').pending = some (op, x) → c' ≠ c := by
    rintro c' op x hpending rfl
    rw [hbefore] at hpending
    cases hpending
  refine ⟨hinService ▸ hs.nodup, ?_, ?_, ?_, ?_⟩
  · intro x hx
    rw [hinService] at hx
    obtain ⟨op, hop⟩ := hs.owner x hx
    rw [howner, hother _ (howned _ op x hop)]
    exact ⟨op, hop⟩
  · intro c' op x hpending
    have hc' := hne c' op x hpending
    rw [hother c' hc'] at hpending
    obtain ⟨hop, hc, hsem⟩ := hs.item c' op x hpending
    rw [howner, hinService, (hitems x).1, (hitems x).2.2]
    exact ⟨hop, hc, hsem⟩
  · intro c'
    by_cases hc' : c' = c
    · subst hc'
      rw [hanswers, History.servedOf, hserved]
      exact hs.answers c'
    · have hanswered : s'.answered c' = s.answered c' := by
        refine Dm.answered_congr (hother c' hc') fun op x _ => ?_
        rw [hworker, hwork]
        exact ⟨Iff.rfl, (hitems x).2.1⟩
      rw [History.servedOf, hserved, History.results, hreturned c' hc', hanswered]
      exact hs.answers c'
  · intro hwaiting hzero x hx
    rw [hworker] at hwaiting
    rw [hqueued] at hzero
    rw [hwork] at hx
    obtain ⟨op, hop⟩ := hs.awake hwaiting hzero x hx
    have hc' : h.owner x ≠ c := howned _ op x (by rw [hop]; rfl)
    rw [howner, hother _ hc']
    exact ⟨op, hop⟩

/-- The invariant. -/
structure Inv (s : Dm (Lists α) ι α Req Res σ) (h : History ι α Req Res) : Prop where
  owned : Owned s.queues.free s.callers s.memory
  serviced : Serviced s h

theorem Inv.not_inService (hi : Inv s h) {c : ι} {x : α} (hx : x ∈ (s.callers c).holds)
    (hpending : (s.callers c).pending = none) : x ∉ s.inService := by
  intro hmem
  obtain ⟨op, hop⟩ := hi.serviced.owner x hmem
  obtain rfl := hi.owned.once _ _ x hx (Caller.mem_holds_of_pending hop)
  rw [hpending] at hop
  cases hop

/-! ## One event -/

variable {serve : σ → Req → Res × σ} {c : ι} {k : Caller α Req Res}

omit [DecidableEq α] in
theorem Dm.setCaller_self (s : Dm (Lists α) ι α Req Res σ) (c : ι) (k : Caller α Req Res) :
    (s.setCaller c k).callers c = k := by
  rw [setCaller]
  exact Function.update_self c k s.callers

/-- A caller is neither on the queue nor has an answer, before and after it moves. -/
structure Caller.Apart (k : Caller α Req Res) : Prop where
  pending : k.pending = none
  not_destroying : ∀ op x res, k ≠ .destroying op x res

/-- A caller that is apart moves on, and the items only say otherwise which of them come first. -/
theorem Inv.move (hi : Inv s h) (hbefore : (s.callers c).Apart) (hafter : k.Apart)
    (hcallers : s'.callers = Function.update s.callers c k) (hwork : s'.queues.work = s.queues.work)
    (hworker : s'.worker = s.worker) (hqueued : s'.workQueued = s.workQueued)
    (hitems : ∀ x, (s'.items x).op = (s.items x).op ∧ (s'.items x).result = (s.items x).result ∧
      (s'.items x).waitSem = (s.items x).waitSem)
    (howned : Owned s'.queues.free (Function.update s.callers c k) s'.memory) : Inv s' h := by
  have hself : s'.callers c = k := by rw [hcallers, Function.update_self]
  refine ⟨hcallers ▸ howned, ?_⟩
  refine hi.serviced.quiet hbefore.pending hafter.pending hcallers hwork hworker hqueued hitems rfl
    rfl
    (fun _ _ => rfl) (congrArg (h.results c ++ ·) ?_)
  rw [Dm.answered_of_not_destroying hbefore.pending hbefore.not_destroying,
    Dm.answered_of_not_destroying (hself ▸ hafter.pending) (hself ▸ hafter.not_destroying)]

theorem inv_call (hi : Inv s h) (c : ι) (op : Req) :
    Inv (s.step (listed α) serve (.call c op)) h := by
  dsimp only [Dm.step]
  cases hc : s.callers c with
  | idle =>
      refine hi.move (c := c) (k := .creating op) (by rw [hc]; exact ⟨rfl, nofun⟩) ⟨rfl, nofun⟩
        rfl rfl rfl rfl (fun _ => ⟨rfl, rfl, rfl⟩) (hi.owned.keep ?_)
      rw [hc]
      rfl
  | _ => exact hi

theorem inv_create (hi : Inv s h) (c : ι) : Inv (s.step (listed α) serve (.create c)) h := by
  dsimp only [Dm.step]
  cases hc : s.callers c with
  | creating op =>
      dsimp only [listed]
      cases hfree : s.queues.free with
      | nil =>
          refine hi.move (c := c) (k := .allocating op) (by rw [hc]; exact ⟨rfl, nofun⟩) ⟨rfl,
            nofun⟩
            rfl rfl rfl rfl (fun _ => ⟨rfl, rfl, rfl⟩) ?_
          have hkeep := hi.owned.keep (c := c) (k := .allocating op) (by rw [hc]; rfl)
          rwa [hfree] at hkeep
      | cons item free =>
          refine hi.move (c := c) (k := .enqueueing op item) (by rw [hc]; exact ⟨rfl, nofun⟩)
            ⟨rfl, nofun⟩ rfl rfl rfl rfl (fun _ => ⟨rfl, rfl, rfl⟩) ?_
          have hnodup : (item :: free).Nodup := hfree ▸ hi.owned.free_nodup
          refine hi.owned.set hnodup (fun x hx => Or.inl ?_) (fun x hx => Or.inl ?_) fun _ => id
          · rw [hfree]
            exact List.mem_cons_of_mem item hx
          · rw [hfree, List.mem_singleton.1 hx]
            exact List.mem_cons_self
  | _ => exact hi

omit [DecidableEq α] in
theorem History.results_return (h : History ι α Req Res) (c : ι) (op : Req) (res : Option Res) :
    (h.return' c op res).results c = h.results c ++ (res.map (op, ·)).toList := by
  have hreturned : (h.return' c op res).returned c = h.returned c ++ [(op, res)] := by
    rw [return']
    exact Function.update_self c _ _
  rw [results, hreturned, List.filterMap_append, results]
  cases res <;> rfl

omit [DecidableEq α] in
theorem History.returned_return (h : History ι α Req Res) {c c' : ι} (hc' : c' ≠ c) (op : Req)
    (res : Option Res) : (h.return' c op res).returned c' = h.returned c' := by
  rw [return']
  exact Function.update_of_ne hc' _ _

theorem inv_malloc (hi : Inv s h) (c : ι) (chunk : Option (α × List α))
    (hfresh : FreshMemory s (.malloc c chunk)) :
    Inv (s.step (listed α) serve (.malloc c chunk)) (record serve s (.malloc c chunk) h) := by
  dsimp only [Dm.step]
  cases hc : s.callers c with
  | allocating op =>
      have hapart : (s.callers c).Apart := by rw [hc]; exact ⟨rfl, nofun⟩
      cases chunk with
      | none =>
          dsimp only [record]
          rw [hc]
          refine ⟨hi.owned.keep (by rw [hc]; rfl), ?_⟩
          refine hi.serviced.quiet (c := c) (k := .idle) hapart.pending rfl rfl rfl rfl rfl
            (fun _ => ⟨rfl, rfl, rfl⟩) rfl rfl (fun c' hc' => h.returned_return hc' op none) ?_
          rw [h.results_return, Dm.answered_of_not_destroying hapart.pending hapart.not_destroying,
            Dm.answered_of_not_destroying (by rw [s.setCaller_self]; rfl)
              (by rw [s.setCaller_self]; nofun)]
          exact List.append_nil _
      | some chunk =>
          obtain ⟨item, rest⟩ := chunk
          obtain ⟨_, hnodup, hnew⟩ := hfresh
          refine hi.move (c := c) (k := .adding op item rest) hapart ⟨rfl, nofun⟩ rfl rfl rfl rfl
            (fun _ => ⟨rfl, rfl, rfl⟩) ?_
          refine hi.owned.set ?_ (fun x => Or.inl) (fun x hx => ?_) fun x hx => ?_
          · refine List.nodup_append'.2 ⟨hnodup, hi.owned.free_nodup, fun x hx hx' => ?_⟩
            exact hnew x hx (hi.owned.free_memory x hx')
          · exact Or.inr (Or.inr ⟨hnew x hx, List.mem_append_left s.memory hx⟩)
          · exact List.mem_append_right (item :: rest) hx
  | _ =>
      dsimp only [record]
      cases chunk <;> simpa only [hc] using hi

theorem inv_add (hi : Inv s h) (c : ι) : Inv (s.step (listed α) serve (.add c)) h := by
  dsimp only [Dm.step]
  cases hc : s.callers c with
  | adding op item rest =>
      refine hi.move (c := c) (k := .enqueueing op item) (by rw [hc]; exact ⟨rfl, nofun⟩) ⟨rfl,
        nofun⟩
        rfl rfl rfl rfl ?_ ?_
      · intro x
        dsimp only [Dm.setCaller]
        split
        · exact ⟨rfl, rfl, rfl⟩
        · split <;> exact ⟨rfl, rfl, rfl⟩
      · have hholds : (s.callers c).holds = item :: rest := by rw [hc]; rfl
        have hnodup : (item :: rest).Nodup := hholds ▸ hi.owned.holds_nodup c
        have hdisjoint : ∀ x ∈ item :: rest, x ∉ s.queues.free := hholds ▸ hi.owned.not_free c
        refine hi.owned.set ?_ (fun x hx => ?_) (fun x hx => Or.inr (Or.inl ?_)) fun _ => id
        · refine List.nodup_append'.2 ⟨List.nodup_singleton item, ?_, ?_⟩
          · refine List.nodup_append'.2 ⟨List.nodup_reverse.2 hnodup.of_cons, hi.owned.free_nodup,
              ?_⟩
            exact fun x hx => hdisjoint x (List.mem_cons_of_mem item (List.mem_reverse.1 hx))
          · intro x hx hx'
            obtain rfl := List.mem_singleton.1 hx
            rcases List.mem_append.1 hx' with hx' | hx'
            · exact (List.nodup_cons.1 hnodup).1 (List.mem_reverse.1 hx')
            · exact hdisjoint x List.mem_cons_self hx'
        · rw [hholds]
          refine (List.mem_append.1 hx).symm.imp id fun hx => ?_
          exact List.mem_cons_of_mem item (List.mem_reverse.1 hx)
        · rw [hholds, List.mem_singleton.1 hx]
          exact List.mem_cons_self
  | _ => exact hi

theorem inv_destroy (hi : Inv s h) (c : ι) :
    Inv (s.step (listed α) serve (.destroy c)) (record serve s (.destroy c) h) := by
  dsimp only [Dm.step, record]
  cases hc : s.callers c with
  | destroying op item res =>
      have hholds : (s.callers c).holds = [item] := by rw [hc]; rfl
      refine ⟨?_, ?_⟩
      · refine hi.owned.set (k := .idle) ?_ (fun x hx => ?_) nofun fun _ => id
        · refine List.nodup_cons.2 ⟨hi.owned.not_free c item ?_, hi.owned.free_nodup⟩
          rw [hholds]
          exact List.mem_cons_self
        · rw [hholds]
          refine (List.mem_cons.1 hx).symm.imp id fun hx => ?_
          rw [hx]
          exact List.mem_cons_self
      · refine hi.serviced.quiet (c := c) (k := .idle) (by rw [hc]; rfl) rfl rfl rfl rfl rfl
          (fun _ => ⟨rfl, rfl, rfl⟩) rfl rfl (fun c' hc' => h.returned_return hc' op (some res)) ?_
        rw [h.results_return,
          Dm.answered_of_not_destroying (by rw [Dm.setCaller_self]; rfl)
            (by rw [Dm.setCaller_self]; nofun),
          Dm.answered, hc]
        exact List.append_nil _
  | _ => exact hi

theorem Inv.ne_of_holds (hi : Inv s h) {c' : ι} (hc' : c' ≠ c) {x y : α}
    (hx : x ∈ (s.callers c).holds)
    (hy : y ∈ (s.callers c').holds) : y ≠ x := by
  rintro rfl
  exact hc' (hi.owned.once _ _ y hy hx)

theorem inv_enqueue (hi : Inv s h) (c : ι) :
    Inv (s.step (listed α) serve (.enqueue c)) (record serve s (.enqueue c) h) := by
  dsimp only [Dm.step, record]
  cases hc : s.callers c with
  | enqueueing op item =>
      have hholds : item ∈ (s.callers c).holds := by rw [hc]; exact List.mem_singleton_self item
      have hpending : (s.callers c).pending = none := by rw [hc]; rfl
      have hnew : item ∉ s.inService := hi.not_inService hholds hpending
      refine ⟨hi.owned.keep (by rw [hc]; rfl), ?_⟩
      dsimp only [listed, Dm.setItem]
      set s' : Dm (Lists α) ι α Req Res σ := Dm.setCaller
        { s with
          queues := ⟨s.queues.free, s.queues.work ++ [item]⟩
          items := Function.update s.items item { s.items item with op := op, waitSem := 0 } }
        c (.posting op item) with hs'
      have hself : s'.callers c = .posting op item := Dm.setCaller_self _ _ _
      have hother : ∀ c' ≠ c, s'.callers c' = s.callers c' :=
        fun c' hc' => Function.update_of_ne hc' _ _
      have hitem : s'.items item = { s.items item with op := op, waitSem := 0 } :=
        Function.update_self item _ _
      have hitems : ∀ x ≠ item, s'.items x = s.items x := fun x hx => Function.update_of_ne hx _ _
      have hmem : ∀ x, x ∈ s'.inService ↔ x = item ∨ x ∈ s.inService := by
        intro x
        simp only [hs', Dm.inService, Dm.setCaller, List.mem_append, List.mem_singleton]
        tauto
      -- whose request is in service, is another caller
      have howner : ∀ x ∈ s.inService, x ≠ item ∧ h.owner x ≠ c := by
        intro x hx
        refine ⟨ne_of_mem_of_not_mem hx hnew, ?_⟩
        intro heq
        obtain ⟨op', hop'⟩ := hi.serviced.owner x hx
        rw [heq, hpending] at hop'
        cases hop'
      refine ⟨?_, ?_, ?_, ?_, ?_⟩
      · have hperm : s'.inService.Perm (item :: s.inService) := by
          show (s.queues.work ++ [item] ++ s.worker.item).Perm
              (item :: (s.queues.work ++ s.worker.item))
          rw [List.append_assoc]
          exact List.perm_middle
        exact hperm.nodup_iff.2 (List.nodup_cons.2 ⟨hnew, hi.serviced.nodup⟩)
      · intro x hx
        rcases (hmem x).1 hx with rfl | hx
        · dsimp only
          rw [Function.update_self, hself]
          exact ⟨op, rfl⟩
        · obtain ⟨hne, hc'⟩ := howner x hx
          dsimp only
          rw [Function.update_of_ne hne, hother _ hc']
          exact hi.serviced.owner x hx
      · intro c' op' x hpending'
        dsimp only
        by_cases hc' : c' = c
        · subst hc'
          rw [hself] at hpending'
          cases hpending'
          rw [Function.update_self, hitem, if_pos ((hmem item).2 (Or.inl rfl))]
          exact ⟨rfl, rfl, rfl⟩
        · rw [hother c' hc'] at hpending'
          have hne : x ≠ item := hi.ne_of_holds hc' hholds (Caller.mem_holds_of_pending hpending')
          obtain ⟨hop, howner', hsem⟩ := hi.serviced.item c' op' x hpending'
          rw [Function.update_of_ne hne, hitems x hne]
          refine ⟨hop, howner', hsem.trans ?_⟩
          simp only [hmem, hne, false_or]
      · intro c'
        have hanswered : s'.answered c' = s.answered c' := by
          by_cases hc' : c' = c
          · subst hc'
            rw [Dm.answered_of_not_destroying hpending (by rw [hc]; nofun), Dm.answered, hself]
            exact if_pos (Or.inl (List.mem_append_right _ (List.mem_singleton_self item)))
          · refine Dm.answered_congr (hother c' hc') fun op' x hpending' => ?_
            have hne : x ≠ item := hi.ne_of_holds hc' hholds (Caller.mem_holds_of_pending hpending')
            rw [hitems x hne]
            refine ⟨?_, rfl⟩
            simp only [hs', Dm.setCaller, Worker.Unserved, List.mem_append, List.mem_singleton, hne,
              or_false]
        rw [hanswered]
        exact hi.serviced.answers c'
      · intro hwaiting hzero x hx
        dsimp only
        rcases List.mem_append.1 hx with hx | hx
        · obtain ⟨hne, hc'⟩ := howner x (List.mem_append_left _ hx)
          rw [Function.update_of_ne hne, hother _ hc']
          exact hi.serviced.awake hwaiting hzero x hx
        · obtain rfl := List.mem_singleton.1 hx
          rw [Function.update_self, hself]
          exact ⟨op, rfl⟩
  | _ => exact hi

theorem inv_post (hi : Inv s h) (c : ι) : Inv (s.step (listed α) serve (.post c)) h := by
  dsimp only [Dm.step]
  cases hc : s.callers c with
  | posting op item =>
      set s' : Dm (Lists α) ι α Req Res σ :=
        Dm.setCaller { s with workQueued := s.workQueued + 1 } c (.waiting op item) with hs'
      have hself : s'.callers c = .waiting op item := Dm.setCaller_self _ _ _
      have hother : ∀ c' ≠ c, s'.callers c' = s.callers c' :=
        fun c' hc' => Function.update_of_ne hc' _ _
      have hpending : ∀ c', (s'.callers c').pending = (s.callers c').pending := by
        intro c'
        by_cases hc' : c' = c
        · subst hc'
          rw [hself, hc]
          rfl
        · rw [hother c' hc']
      refine ⟨hi.owned.keep (by rw [hc]; rfl), hi.serviced.nodup, ?_, ?_, ?_, ?_⟩
      · intro x hx
        rw [hpending]
        exact hi.serviced.owner x hx
      · intro c' op' x hpending'
        rw [hpending] at hpending'
        exact hi.serviced.item c' op' x hpending'
      · intro c'
        have hanswered : s'.answered c' = s.answered c' := by
          by_cases hc' : c' = c
          · subst hc'
            rw [Dm.answered, Dm.answered, hself, hc]
            rfl
          · exact Dm.answered_congr (hother c' hc') fun _ _ _ => ⟨Iff.rfl, rfl⟩
        rw [hanswered]
        exact hi.serviced.answers c'
      · exact fun _ hzero => absurd hzero (Nat.succ_ne_zero s.workQueued)
  | _ => exact hi

theorem inv_wake (hi : Inv s h) (c : ι) : Inv (s.step (listed α) serve (.wake c)) h := by
  dsimp only [Dm.step]
  cases hc : s.callers c with
  | waiting op item =>
      by_cases hsem : (s.items item).waitSem = 0
      · simp only [if_pos hsem]
        exact hi
      · simp only [if_neg hsem]
        have hholds : item ∈ (s.callers c).holds := by rw [hc]; exact List.mem_singleton_self item
        have hpending : (s.callers c).pending = some (op, item) := by rw [hc]; rfl
        have hserved : item ∉ s.inService := by
          intro hmem
          exact hsem ((hi.serviced.item c op item hpending).2.2.trans (if_pos hmem))
        set s' : Dm (Lists α) ι α Req Res σ := Dm.setCaller
          (s.setItem item { s.items item with waitSem := (s.items item).waitSem - 1 }) c
          (.destroying op item (s.items item).result) with hs'
        have hself : s'.callers c = .destroying op item (s.items item).result :=
          Dm.setCaller_self _ _ _
        have hother : ∀ c' ≠ c, s'.callers c' = s.callers c' := fun c' hc' =>
          Function.update_of_ne hc' _ _
        have hitems : ∀ x ≠ item, s'.items x = s.items x := fun x hx => Function.update_of_ne hx _ _
        have howner : ∀ x ∈ s.inService, h.owner x ≠ c := by
          intro x hx heq
          obtain ⟨op', hop'⟩ := hi.serviced.owner x hx
          rw [heq, hpending] at hop'
          cases hop'
          exact hserved hx
        refine ⟨hi.owned.keep (by rw [hc]; rfl), hi.serviced.nodup, ?_, ?_, ?_, ?_⟩
        · intro x hx
          rw [hother _ (howner x hx)]
          exact hi.serviced.owner x hx
        · intro c' op' x hpending'
          have hc' : c' ≠ c := by
            rintro rfl
            rw [hself] at hpending'
            cases hpending'
          rw [hother c' hc'] at hpending'
          have hne : x ≠ item := hi.ne_of_holds hc' hholds (Caller.mem_holds_of_pending hpending')
          rw [hitems x hne]
          exact hi.serviced.item c' op' x hpending'
        · intro c'
          have hanswered : s'.answered c' = s.answered c' := by
            by_cases hc' : c' = c
            · subst hc'
              have hunserved : ¬s.worker.Unserved s.queues.work item := by
                rintro (hmem | heq)
                · exact hserved (List.mem_append_left _ hmem)
                · exact hserved
                    (List.mem_append_right _ (by rw [heq]; exact List.mem_singleton_self item))
              rw [Dm.answered, Dm.answered, hself, hc]
              exact (if_neg hunserved).symm
            · refine Dm.answered_congr (hother c' hc') fun op' x hpending' => ?_
              rw [hitems x (hi.ne_of_holds hc' hholds (Caller.mem_holds_of_pending hpending'))]
              exact ⟨Iff.rfl, rfl⟩
          rw [hanswered]
          exact hi.serviced.answers c'
        · intro hwaiting hzero x hx
          rw [hother _ (howner x (List.mem_append_left _ hx))]
          exact hi.serviced.awake hwaiting hzero x hx
  | _ => exact hi

/-- The worker takes up other work, and leaves the callers and the items as they are. -/
theorem Inv.worker (hi : Inv s h) (hcallers : s'.callers = s.callers) (hitems : s'.items = s.items)
    (hmemory : s'.memory = s.memory) (hfree : s'.queues.free = s.queues.free)
    (hperm : s'.inService.Perm s.inService)
    (hunserved : ∀ x, s'.worker.Unserved s'.queues.work x ↔ s.worker.Unserved s.queues.work x)
    (hawake : s'.worker = .waiting → s'.workQueued = 0 → s'.queues.work = []) : Inv s' h := by
  refine ⟨?_, hperm.nodup_iff.2 hi.serviced.nodup, ?_, ?_, ?_, ?_⟩
  · rw [hcallers, hmemory, hfree]
    exact hi.owned
  · intro x hx
    rw [hcallers]
    exact hi.serviced.owner x (hperm.mem_iff.1 hx)
  · intro c op x hpending
    rw [hcallers] at hpending
    rw [hitems]
    simp only [hperm.mem_iff]
    exact hi.serviced.item c op x hpending
  · intro c
    have hanswered : s'.answered c = s.answered c :=
      Dm.answered_congr (by rw [hcallers]) fun _ x _ => ⟨hunserved x, by rw [hitems]⟩
    rw [hanswered]
    exact hi.serviced.answers c
  · intro hwaiting hzero x hx
    rw [hawake hwaiting hzero] at hx
    exact absurd hx List.not_mem_nil

theorem inv_work (hi : Inv s h) : Inv (s.step (listed α) serve .work) h := by
  dsimp only [Dm.step]
  cases hw : s.worker with
  | waiting =>
      dsimp only
      split
      · exact hi
      · refine hi.worker rfl rfl rfl rfl ?_ ?_ nofun
        · rw [Dm.inService, Dm.inService, hw]
          rfl
        · intro x
          simp [Worker.Unserved, hw]
  | _ => exact hi

theorem inv_dequeue (hi : Inv s h) : Inv (s.step (listed α) serve .dequeue) h := by
  dsimp only [Dm.step]
  cases hw : s.worker with
  | dequeueing =>
      dsimp only [listed]
      cases hwork : s.queues.work with
      | nil =>
          refine hi.worker rfl rfl rfl rfl ?_ ?_ fun _ _ => rfl
          · simp [Dm.inService, Worker.item, hw, hwork]
          · intro x
            simp [Worker.Unserved, hw, hwork]
      | cons item work =>
          refine hi.worker rfl rfl rfl rfl ?_ ?_ nofun
          · simp only [Dm.inService, Worker.item, hw, hwork, List.head?_cons, List.tail_cons,
              List.append_nil]
            exact List.perm_append_comm
          · intro x
            simp [Worker.Unserved, hw, hwork, or_comm, eq_comm]
  | _ => exact hi

omit [DecidableEq ι] in
theorem Dm.answered_of_pending {op : Req} {x : α}
    (hpending : (s.callers c).pending = some (op, x)) :
    s.answered c = if s.worker.Unserved s.queues.work x then [] else
      [(op, (s.items x).result)] := by
  unfold answered
  cases hc : s.callers c with
  | posting op x | waiting op x =>
      rw [hc] at hpending
      cases hpending
      rfl
  | _ =>
      rw [hc] at hpending
      cases hpending

theorem inv_serve (hi : Inv s h) :
    Inv (s.step (listed α) serve .serve) (record serve s .serve h) := by
  dsimp only [Dm.step, record]
  cases hw : s.worker with
  | serving item =>
      set res := (serve s.store (s.items item).op).1 with hres
      set s' : Dm (Lists α) ι α Req Res σ :=
        { s.setItem item { s.items item with result := res } with
          store := (serve s.store (s.items item).op).2, worker := .answering item } with hs'
      have hinService : s'.inService = s.inService := by
        show s.queues.work ++ [item] = s.queues.work ++ s.worker.item
        rw [hw]
        rfl
      have hmem : item ∈ s.inService := by
        rw [← hinService]
        exact List.mem_append_right _ (List.mem_singleton_self item)
      have hwork : item ∉ s.queues.work := by
        have hnodup := hinService ▸ hi.serviced.nodup
        exact fun h' => (List.nodup_append'.1 hnodup).2.2 h' (List.mem_singleton_self item)
      obtain ⟨op, hop⟩ := hi.serviced.owner item hmem
      have hitemOp : (s.items item).op = op := (hi.serviced.item _ _ _ hop).1
      have hself : s'.items item = { s.items item with result := res } :=
        Function.update_self item _ _
      have hitems : ∀ x ≠ item, s'.items x = s.items x := fun x hx => Function.update_of_ne hx _ _
      refine ⟨hi.owned, hinService ▸ hi.serviced.nodup, ?_, ?_, ?_, nofun⟩
      · intro x hx
        exact hi.serviced.owner x (hinService ▸ hx)
      · intro c op' x hpending
        obtain ⟨hop', howner, hsem⟩ := hi.serviced.item c op' x hpending
        rw [hinService]
        by_cases hx : x = item
        · subst hx
          rw [hself]
          exact ⟨hop', howner, hsem⟩
        · rw [hitems x hx]
          exact ⟨hop', howner, hsem⟩
      · intro c
        have hold := hi.serviced.answers c
        show History.servedOf { h with served := h.served ++
            [(h.owner item, (s.items item).op, res)] } c =
          h.results c ++ s'.answered c
        by_cases hc : h.owner item = c
        · subst hc
          have hbefore : s.answered (h.owner item) = [] :=
            (Dm.answered_of_pending hop).trans (if_pos (Or.inr hw))
          have hunserved : ¬s'.worker.Unserved s'.queues.work item := by
            rintro (h' | h')
            · exact hwork h'
            · cases h'
          have hafter : s'.answered (h.owner item) = [(op, res)] := by
            rw [Dm.answered_of_pending (s := s') hop, if_neg hunserved, hself]
          rw [hbefore, List.append_nil] at hold
          rw [hafter, ← hold]
          simp [History.servedOf, hitemOp]
        · have hsame : s'.answered c = s.answered c := by
            refine Dm.answered_congr rfl fun op' x hpending => ?_
            have hx : x ≠ item := by
              rintro rfl
              exact hc (hi.serviced.item c op' x hpending).2.1
            rw [hitems x hx]
            refine ⟨?_, rfl⟩
            simp only [Worker.Unserved, hw, hs', Dm.setItem, Worker.serving.injEq, Ne.symm hx,
              or_false,
              reduceCtorEq]
          rw [hsame, ← hold]
          simp [History.servedOf, hc]
  | _ => exact hi

theorem inv_answer (hi : Inv s h) : Inv (s.step (listed α) serve .answer) h := by
  dsimp only [Dm.step]
  cases hw : s.worker with
  | answering item =>
      set s' : Dm (Lists α) ι α Req Res σ :=
        { s.setItem item { s.items item with waitSem := (s.items item).waitSem + 1 } with
          worker := .dequeueing } with hs'
      have hinService : s.inService = s.queues.work ++ [item] := by
        rw [Dm.inService, hw]
        rfl
      have hafter : s'.inService = s.queues.work := List.append_nil _
      have hnodup : (s.queues.work ++ [item]).Nodup := hinService ▸ hi.serviced.nodup
      have hwork : item ∉ s.queues.work := fun h' =>
        (List.nodup_append'.1 hnodup).2.2 h' (List.mem_singleton_self item)
      have hself : s'.items item = { s.items item with waitSem := (s.items item).waitSem + 1 } :=
        Function.update_self item _ _
      have hitems : ∀ x ≠ item, s'.items x = s.items x := fun x hx => Function.update_of_ne hx _ _
      have hmem : item ∈ s.inService := by
        rw [hinService]
        exact List.mem_append_right _ (List.mem_singleton_self item)
      refine ⟨hi.owned, ?_, ?_, ?_, ?_, nofun⟩
      · rw [hafter]
        exact (List.nodup_append'.1 hnodup).1
      · intro x hx
        rw [hafter] at hx
        exact hi.serviced.owner x (List.mem_append_left _ hx)
      · intro c op x hpending
        obtain ⟨hop, howner, hsem⟩ := hi.serviced.item c op x hpending
        rw [hafter]
        by_cases hx : x = item
        -- the semaphore of the item is posted
        · subst hx
          rw [hself, if_neg hwork]
          rw [if_pos hmem] at hsem
          exact ⟨hop, howner, congrArg (· + 1) hsem⟩
        · rw [hitems x hx]
          refine ⟨hop, howner, hsem.trans ?_⟩
          simp only [hinService, List.mem_append, List.mem_singleton, hx, or_false]
      · intro c
        have hsame : s'.answered c = s.answered c := by
          refine Dm.answered_congr rfl fun op x _ => ⟨?_, ?_⟩
          · simp only [Worker.Unserved, hw, hs', Dm.setItem, reduceCtorEq]
          · by_cases hx : x = item
            · subst hx
              rw [hself]
            · rw [hitems x hx]
        rw [hsame]
        exact hi.serviced.answers c
  | _ => exact hi

/-- Every event keeps the invariant, if `malloc` gives memory that is not in use. -/
theorem Inv.step (hi : Inv s h) {ev : Event ι α Req} (hfresh : FreshMemory s ev) :
    Inv (s.step (listed α) serve ev) (record serve s ev h) := by
  cases ev with
  | call c op => exact inv_call hi c op
  | create c => exact inv_create hi c
  | malloc c chunk => exact inv_malloc hi c chunk hfresh
  | add c => exact inv_add hi c
  | enqueue c => exact inv_enqueue hi c
  | post c => exact inv_post hi c
  | wake c => exact inv_wake hi c
  | destroy c => exact inv_destroy hi c
  | work => exact inv_work hi
  | dequeue => exact inv_dequeue hi
  | serve => exact inv_serve hi
  | answer => exact inv_answer hi

/-! ## The order of the requests -/

/-- The store is as if the requests had been served one after another, with these results. -/
def InOrder (serve : σ → Req → Res × σ) (store₀ : σ) (s : Dm (Lists α) ι α Req Res σ)
    (h : History ι α Req Res) : Prop :=
  exec (fun store req => (serve store req).2) store₀ (h.served.map (·.2.1)) = s.store ∧
    outputs (fun store req => (serve store req).2) (fun store req => [(serve store req).1]) store₀
      (h.served.map (·.2.1)) = h.served.map (·.2.2)

theorem InOrder.step {store₀ : σ} (ho : InOrder serve store₀ s h) (ev : Event ι α Req) :
    InOrder serve store₀ (s.step (listed α) serve ev) (record serve s ev h) := by
  have hkeep : ∀ {s' : Dm (Lists α) ι α Req Res σ} {h' : History ι α Req Res}, s'.store = s.store →
      h'.served = h.served → InOrder serve store₀ s' h' := by
    intro s' h' hstore hserved
    rw [InOrder, hstore, hserved]
    exact ho
  cases ev with
  | serve =>
      dsimp only [Dm.step, record]
      cases hw : s.worker with
      | serving item =>
          obtain ⟨hstore, hresults⟩ := ho
          dsimp only [InOrder]
          simp only [List.map_append, List.map_cons, List.map_nil, exec_append, exec_cons, exec_nil,
            outputs_append, hstore, hresults, outputs, List.append_nil, and_self]
      | _ => exact ho
  | malloc c chunk =>
      refine hkeep ?_ ?_
      · dsimp only [Dm.step]
        split <;> rfl
      · cases chunk with
        | none =>
            dsimp only [record]
            split <;> rfl
        | some chunk => rfl
  -- nobody else touches the store
  | _ =>
      refine hkeep ?_ ?_
      · dsimp only [Dm.step]
        repeat' split
        all_goals rfl
      · dsimp only [record]
        repeat' split
        all_goals rfl

end Dataman
end DtPhm
