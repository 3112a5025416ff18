import DtPhm.Lib.Run
import DtPhm.Platform.Components

/-!
# ComponentsRuns — the bits are apart, and the wait is for all components

* `Owned` — a bit that is used belongs to one component, in every run;
* `Barrier` — the invariant of a run in which every component makes progress once in a cycle;
* `components_distinct` — no two components have one bit;
* `lockstep_barrier` — the wait does not return before every component has made progress;
* `lockstep_barrier_opens` — and it does return when all have.

A component that makes progress twice in a cycle can open the semaphore twice (`twiceInCycle`): the
bit that it sets again is cleared by the last one, and by itself.
-/

namespace DtPhm
namespace Platform
namespace Components

open Lib

variable {τ : Type*}

/-! ## Bits -/

theorem getLsbD_bit {i j : ℕ} (hi : i < 32) : (bit i).getLsbD j = decide (i = j) := by
  rw [bit, BitVec.getLsbD_twoPow, decide_eq_true hi, Bool.true_and]

theorem and_bit_ne_zero {x : BitVec 32} {i : ℕ} (hi : i < 32) :
    x &&& bit i ≠ 0 ↔ x.getLsbD i = true := by
  have hbit : bit i ≠ 0 := by
    intro h
    have := getLsbD_bit (j := i) hi
    rw [h] at this
    simp at this
  rw [bit, BitVec.and_twoPow]
  split
  · rename_i hx
    exact iff_of_true hbit hx
  · rename_i hx
    exact iff_of_false (not_not_intro rfl) hx

theorem exists_getLsbD_of_ne_zero {x : BitVec 32} (hx : x ≠ 0) : ∃ k < 32, x.getLsbD k = true := by
  by_contra hnone
  refine hx (BitVec.eq_of_getLsbD_eq fun k hk => ?_)
  change x.getLsbD k = (0#32).getLsbD k
  rw [BitVec.getLsbD_zero]
  by_contra hbit
  exact hnone ⟨k, hk, by simpa using hbit⟩

/-! ## Every bit belongs to one component -/

structure Owned (s : Components τ) : Prop where
  bound : ∀ n k, s.own n = some k → k < 31
  used : ∀ k < 32, s.used.getLsbD k = true ↔ ∃ n, s.own n = some k
  distinct : ∀ n m k, s.own n = some k → s.own m = some k → n = m
  knows : ∀ n, (s.stages n).Knows (s.own n)

theorem owned_init : Owned (init : Components τ) where
  bound _ _ := nofun
  used k _ := by simp [init]
  distinct _ _ _ := nofun
  knows _ := trivial

variable {s s' : Components τ} {n : τ}

theorem Owned.of_same (h : Owned s) (hused : s'.used = s.used) (hown : s'.own = s.own)
    (hstages : s'.stages = s.stages) : Owned s' := by
  refine ⟨?_, ?_, ?_, ?_⟩
  · rw [hown]
    exact h.bound
  · rw [hused, hown]
    exact h.used
  · rw [hown]
    exact h.distinct
  · rw [hstages, hown]
    exact h.knows

variable [DecidableEq τ]

@[simp] theorem stages_goTo_self (s : Components τ) (n : τ) (stage : Stage) :
    (s.goTo n stage).stages n = stage :=
  Function.update_self ..

theorem stages_goTo_of_ne {m : τ} (hne : m ≠ n) (stage : Stage) :
    (s.goTo n stage).stages m = s.stages m :=
  Function.update_of_ne hne ..

namespace Owned

theorem goTo (h : Owned s) {stage : Stage} (hknows : stage.Knows (s.own n)) :
    Owned (s.goTo n stage) := by
  refine ⟨h.bound, h.used, h.distinct, fun m => ?_⟩
  rcases eq_or_ne m n with rfl | hne
  · rw [stages_goTo_self]
    exact hknows
  · rw [stages_goTo_of_ne hne]
    exact h.knows m

theorem give (h : Owned s) {component : ℕ} (hn : s.own n = none) (hbound : component < 31)
    (hfree : s.used.getLsbD component = false) :
    Owned { s.goTo n .outside with
      used := s.used ||| bit component, own := Function.update s.own n (some component) } := by
  have hnew : ∀ m, s.own m ≠ some component := by
    intro m hm
    rw [(h.used component (by omega)).2 ⟨m, hm⟩] at hfree
    cases hfree
  have hcases : ∀ m k, Function.update s.own n (some component) m = some k →
      m = n ∧ component = k ∨ m ≠ n ∧ s.own m = some k := by
    intro m k hm
    rcases eq_or_ne m n with rfl | hne
    · rw [Function.update_self] at hm
      exact Or.inl ⟨rfl, Option.some.inj hm⟩
    · rw [Function.update_of_ne hne] at hm
      exact Or.inr ⟨hne, hm⟩
  refine ⟨fun m k hm => ?_, fun k hk => ?_, fun m m' k hm hm' => ?_, fun m => ?_⟩
  · rcases hcases m k hm with ⟨-, rfl⟩ | ⟨-, hm⟩
    · exact hbound
    · exact h.bound m k hm
  · change (s.used ||| bit component).getLsbD k = true ↔ _
    rw [BitVec.getLsbD_or, getLsbD_bit (by omega), Bool.or_eq_true, decide_eq_true_iff, h.used k hk]
    constructor
    · rintro (⟨m, hm⟩ | rfl)
      · have hne : m ≠ n := by
          rintro rfl
          rw [hn] at hm
          cases hm
        exact ⟨m, (Function.update_of_ne hne ..).trans hm⟩
      · exact ⟨n, Function.update_self ..⟩
    · rintro ⟨m, hm⟩
      exact (hcases m k hm).symm.imp (fun hm => ⟨m, hm.2⟩) And.right
  · rcases hcases m k hm with ⟨rfl, rfl⟩ | ⟨-, hold⟩
    · rcases hcases m' _ hm' with ⟨rfl, -⟩ | ⟨-, hold'⟩
      · rfl
      · exact absurd hold' (hnew m')
    · rcases hcases m' k hm' with ⟨rfl, rfl⟩ | ⟨-, hold'⟩
      · exact absurd hold (hnew m)
      · exact h.distinct m m' k hold hold'
  · change (Function.update s.stages n .outside m).Knows (Function.update s.own n _ m)
    rcases eq_or_ne m n with rfl | hne
    · rw [Function.update_self, Function.update_self]
      trivial
    · rw [Function.update_of_ne hne, Function.update_of_ne hne]
      exact h.knows m

theorem giveBack (h : Owned s) {component : ℕ} (hn : s.own n = some component) :
    Owned { s.goTo n .left with
      used := s.used &&& ~~~bit component, own := Function.update s.own n none } := by
  have hbound := h.bound n component hn
  have hcases : ∀ m k, Function.update s.own n none m = some k → m ≠ n ∧ s.own m = some k := by
    intro m k hm
    rcases eq_or_ne m n with rfl | hne
    · rw [Function.update_self] at hm
      cases hm
    · rw [Function.update_of_ne hne] at hm
      exact ⟨hne, hm⟩
  refine ⟨fun m k hm => h.bound m k (hcases m k hm).2, fun k hk => ?_,
    fun m m' k hm hm' => h.distinct m m' k (hcases m k hm).2 (hcases m' k hm').2, fun m => ?_⟩
  · change (s.used &&& ~~~bit component).getLsbD k = true ↔ _
    rw [BitVec.getLsbD_and, BitVec.getLsbD_not, getLsbD_bit (by omega), decide_eq_true hk,
      Bool.true_and, Bool.and_eq_true, Bool.not_eq_true', decide_eq_false_iff_not, h.used k hk]
    constructor
    · rintro ⟨⟨m, hm⟩, hother⟩
      have hne : m ≠ n := by
        rintro rfl
        rw [hn] at hm
        exact hother (Option.some.inj hm)
      exact ⟨m, (Function.update_of_ne hne ..).trans hm⟩
    · rintro ⟨m, hm⟩
      obtain ⟨hne, hm⟩ := hcases m k hm
      refine ⟨⟨m, hm⟩, ?_⟩
      rintro rfl
      exact hne (h.distinct m n component hm hn)
  · change (Function.update s.stages n .left m).Knows (Function.update s.own n none m)
    rcases eq_or_ne m n with rfl | hne
    · rw [Function.update_self, Function.update_self]
      trivial
    · rw [Function.update_of_ne hne, Function.update_of_ne hne]
      exact h.knows m

theorem run (h : Owned s) (n : τ) (fails : Bool) : Owned (s.run n fails) := by
  have hknows := h.knows n
  unfold Components.run
  cases hs : s.stages n with
  | outside => exact h
  | loading component =>
      rw [hs] at hknows
      dsimp only
      split
      · exact h.goTo trivial
      · rename_i hcomponent
        split
        · exact h.goTo hknows
        · rename_i hbit
          rw [and_bit_ne_zero (by omega)] at hbit
          exact h.goTo ⟨hknows, by omega, by simpa using hbit⟩
  | exchanging component expected =>
      rw [hs] at hknows
      obtain ⟨hn, hbound, hfree⟩ := hknows
      dsimp only
      split
      · rename_i hsame
        obtain ⟨rfl, -⟩ := hsame
        exact h.give hn hbound hfree
      · exact h.goTo hn
  | leaving component =>
      rw [hs] at hknows
      exact h.giveBack hknows
  | left => exact h.goTo trivial
  | leftOf used | progressed component used =>
      dsimp only
      split
      · exact h.goTo trivial
      · exact h.goTo trivial
  | cleared =>
      dsimp only
      split
      · exact h.goTo trivial
      · exact h.goTo trivial
  | opening => exact (h.goTo (n := n) (show Stage.posting.Knows _ from trivial)).of_same rfl rfl rfl
  | last => exact (h.goTo (n := n) (show Stage.cleared.Knows _ from trivial)).of_same rfl rfl rfl
  | posting => exact (h.goTo (n := n) (show Stage.outside.Knows _ from trivial)).of_same rfl rfl rfl

theorem step (h : Owned s) (e : Event τ) : Owned (s.step e) := by
  cases e with
  | register n =>
      dsimp only [Components.step]
      split
      · rename_i hnone
        exact h.goTo hnone.2
      · exact h
  | unregister n =>
      dsimp only [Components.step]
      split
      · rename_i component _ hown
        exact (h.goTo (show (Stage.leaving component).Knows _ from hown)).of_same rfl rfl rfl
      · exact h
  | lockstepProgress n =>
      dsimp only [Components.step]
      split
      · rename_i component _ hown
        exact (h.goTo (show (Stage.progressed component s.progress).Knows _ from hown)).of_same
          rfl rfl rfl
      · exact h
  | run n fails => exact h.run n fails
  | waitForComponents =>
      dsimp only [Components.step]
      split
      · exact h
      · split
        · exact h.of_same rfl rfl rfl
        · exact h.of_same rfl rfl rfl
  | wake =>
      dsimp only [Components.step]
      split
      · exact h.of_same rfl rfl rfl
      · exact h

end Owned

theorem owned_exec (es : List (Event τ)) : Owned (exec step init es) :=
  invariant_exec (fun (s : Components τ) (e : Event τ) (h : Owned s) => h.step e) owned_init es

/-- No two components have the same bit, however they came and went, and the bits that are used are
theirs. -/
theorem components_distinct (es : List (Event τ)) :
    (∀ n k, (exec step init es).own n = some k → k < 31) ∧
      (∀ n m k, (exec step init es).own n = some k → (exec step init es).own m = some k → n = m) ∧
      ∀ k < 32, (exec step init es).used.getLsbD k = true ↔
        ∃ n, (exec step init es).own n = some k :=
  ⟨(owned_exec es).bound, (owned_exec es).distinct, (owned_exec es).used⟩

/-! ## The barrier -/

/-- Every component has made progress in this cycle. -/
def AllCalled (s : Components τ) : Prop :=
  ∀ n k, s.own n = some k → s.calls n = s.returned + 1

/-- The progress of this cycle has been cleared. -/
def Cleared (s : Components τ) : Prop :=
  s.sem ≠ 0 ∨ ∃ n, (s.stages n).hasCleared = true

/-- The invariant of a run in which every component makes progress once in a cycle: the semaphore is
open, or one thread is going to open it, if and only if all have made progress. -/
structure Barrier (s : Components τ) : Prop where
  owned : Owned s
  steady : ∀ n, (s.stages n).steady = true
  range : ∀ n k, s.own n = some k → s.returned ≤ s.calls n ∧ s.calls n ≤ s.returned + 1
  progress : ∀ k < 32, s.progress.getLsbD k = true ↔
    ¬s.Cleared ∧ ∃ n, s.own n = some k ∧ s.calls n = s.returned + 1
  sem : s.sem ≤ 1
  opened : s.sem ≠ 0 → s.AllCalled
  opens : ∀ n, (s.stages n).Opens s.used → s.sem = 0 ∧ s.AllCalled
  unique : ∀ n m, (s.stages n).Opens s.used → (s.stages m).Opens s.used → n = m
  opener : s.used ≠ 0 → s.AllCalled → s.sem ≠ 0 ∨ ∃ n, (s.stages n).Opens s.used

omit [DecidableEq τ] in
/-- The bits of those that have made progress are all bits if and only if all have. -/
theorem Owned.eq_used_iff (h : Owned s) {x : BitVec 32}
    (hx : ∀ k < 32, x.getLsbD k = true ↔ ∃ m, s.own m = some k ∧ s.calls m = s.returned + 1) :
    x = s.used ↔ s.AllCalled := by
  constructor
  · rintro rfl m k hm
    have hk : k < 32 := Nat.lt_succ_of_lt (h.bound m k hm)
    obtain ⟨m', hm', hcalled⟩ := (hx k hk).1 ((h.used k hk).2 ⟨m, hm⟩)
    rwa [h.distinct m m' k hm hm']
  · intro hall
    refine BitVec.eq_of_getLsbD_eq fun k hk => Bool.eq_iff_iff.2 ?_
    rw [hx k hk, h.used k hk]
    exact exists_congr fun m => and_iff_left_of_imp fun hm => hall m k hm

theorem opens_goTo {stage : Stage} {used : BitVec 32}
    (hopens : stage.Opens used ↔ (s.stages n).Opens used) (m : τ) :
    ((s.goTo n stage).stages m).Opens used ↔ (s.stages m).Opens used := by
  rcases eq_or_ne m n with rfl | hne
  · rw [stages_goTo_self]
    exact hopens
  · rw [stages_goTo_of_ne hne]

theorem steady_goTo (h : ∀ m, (s.stages m).steady = true) {stage : Stage}
    (hsteady : stage.steady = true) (m : τ) : ((s.goTo n stage).stages m).steady = true := by
  rcases eq_or_ne m n with rfl | hne
  · rw [stages_goTo_self]
    exact hsteady
  · rw [stages_goTo_of_ne hne]
    exact h m

namespace Barrier

theorem goTo (h : Barrier s) {stage : Stage} (hsteady : stage.steady = true)
    (hknows : stage.Knows (s.own n)) (hopens : stage.Opens s.used ↔ (s.stages n).Opens s.used)
    (hcleared : stage.hasCleared = (s.stages n).hasCleared) : Barrier (s.goTo n stage) := by
  have hsame := opens_goTo hopens
  have hclear : (s.goTo n stage).Cleared ↔ s.Cleared := by
    refine or_congr Iff.rfl (exists_congr fun m => ?_)
    rcases eq_or_ne m n with rfl | hne
    · rw [stages_goTo_self, hcleared]
    · rw [stages_goTo_of_ne hne]
  refine ⟨h.owned.goTo hknows, steady_goTo h.steady hsteady, h.range, fun k hk => ?_, h.sem,
    h.opened,
    fun m hm => h.opens m ((hsame m).1 hm),
    fun m m' hm hm' => h.unique m m' ((hsame m).1 hm) ((hsame m').1 hm'), fun hused hall => ?_⟩
  · rw [hclear]
    exact h.progress k hk
  · exact (h.opener hused hall).imp_right fun ⟨m, hm⟩ => ⟨m, (hsame m).2 hm⟩

theorem clear (h : Barrier s) (hn : s.stages n = .last) :
    Barrier { s.goTo n .cleared with progress := 0 } := by
  have hsame : ∀ m, ((s.goTo n .cleared).stages m).Opens s.used ↔ (s.stages m).Opens s.used :=
    opens_goTo (by rw [hn]; exact Iff.rfl)
  have howned : Owned { s.goTo n .cleared with progress := 0 } :=
    (h.owned.goTo (n := n) (show Stage.cleared.Knows _ from trivial)).of_same rfl rfl rfl
  refine ⟨howned, steady_goTo h.steady rfl, h.range, fun k _ => iff_of_false ?_ ?_, h.sem, h.opened,
    fun m hm => h.opens m ((hsame m).1 hm),
    fun m m' hm hm' => h.unique m m' ((hsame m).1 hm) ((hsame m').1 hm'), fun hused hall => ?_⟩
  · simp
  · rintro ⟨hnot, -⟩
    exact hnot (Or.inr ⟨n, by rw [stages_goTo_self]; rfl⟩)
  · exact (h.opener hused hall).imp_right fun ⟨m, hm⟩ => ⟨m, (hsame m).2 hm⟩

theorem post (h : Barrier s) (hn : s.stages n = .posting) :
    Barrier { s.goTo n .outside with sem := s.sem + 1 } := by
  have hopens : (s.stages n).Opens s.used := by
    rw [hn]
    trivial
  obtain ⟨hsem, hall⟩ := h.opens n hopens
  -- there is no other who opens it
  have hnone : ∀ m, ¬((s.goTo n .outside).stages m).Opens s.used := by
    intro m hm
    rcases eq_or_ne m n with rfl | hne
    · rw [stages_goTo_self] at hm
      exact hm
    · rw [stages_goTo_of_ne hne] at hm
      exact hne (h.unique m n hm hopens)
  have howned : Owned { s.goTo n .outside with sem := s.sem + 1 } :=
    (h.owned.goTo (n := n) (show Stage.outside.Knows _ from trivial)).of_same rfl rfl rfl
  refine ⟨howned, steady_goTo h.steady rfl, h.range, fun k hk => iff_of_false ?_ ?_, ?_, fun _ =>
    hall,
    fun m hm => absurd hm (hnone m), fun m _ hm => absurd hm (hnone m),
    fun _ _ => Or.inl (Nat.succ_ne_zero _)⟩
  · intro hbit
    refine ((h.progress k hk).1 hbit).1 (Or.inr ⟨n, ?_⟩)
    rw [hn]
    rfl
  · rintro ⟨hnot, -⟩
    exact hnot (Or.inl (Nat.succ_ne_zero _))
  · show s.sem + 1 ≤ 1
    rw [hsem]

theorem run (h : Barrier s) (n : τ) (fails : Bool) : Barrier (s.run n fails) := by
  have hsteady := h.steady n
  unfold Components.run
  cases hs : s.stages n with
  | outside => exact h
  | progressed component prevValue =>
      dsimp only
      split
      · rename_i hfull
        exact h.goTo rfl trivial (by rw [hs]; exact iff_of_true trivial hfull) (by rw [hs]; rfl)
      · rename_i hpart
        exact h.goTo rfl trivial (by rw [hs]; exact iff_of_false id hpart) (by rw [hs]; rfl)
  | last => exact h.clear hs
  | cleared =>
      have hsem : s.sem < 1 := by
        rw [(h.opens n (by rw [hs]; trivial)).1]
        exact Nat.zero_lt_one
      dsimp only
      rw [if_pos hsem]
      exact h.goTo rfl trivial (by rw [hs]; exact Iff.rfl) (by rw [hs]; rfl)
  | posting => exact h.post hs
  | _ =>
      rw [hs] at hsteady
      cases hsteady

theorem lockstepProgress (h : Barrier s) {component : ℕ} (hown : s.own n = some component)
    (hcalls : s.calls n ≤ s.returned) :
    Barrier { s.goTo n (.progressed component s.progress) with
      progress := s.progress ||| bit component
      calls := Function.update s.calls n (s.calls n + 1) } := by
  have hbound := h.owned.bound n component hown
  have hn : s.calls n = s.returned := Nat.le_antisymm hcalls (h.range n component hown).1
  -- so the cycle is not over, and no one opens the semaphore
  have hnot : ¬s.AllCalled := by
    intro hall
    have := hall n component hown
    omega
  have hclosed : ∀ m, ¬(s.stages m).Opens s.used := fun m hm => hnot (h.opens m hm).2
  have hsem : s.sem = 0 := by
    by_contra hne
    exact hnot (h.opened hne)
  have huncleared : ¬s.Cleared := by
    rintro (hne | ⟨m, hm⟩)
    · exact hne hsem
    · exact hclosed m (Stage.opens_of_hasCleared hm s.used)
  set s' : Components τ := { s.goTo n (.progressed component s.progress) with
    progress := s.progress ||| bit component
    calls := Function.update s.calls n (s.calls n + 1) } with hs'
  have hself : s'.calls n = s'.returned + 1 := by
    show Function.update s.calls n (s.calls n + 1) n = s.returned + 1
    rw [Function.update_self, hn]
  have hother : ∀ m, m ≠ n → s'.calls m = s.calls m := fun m hne => Function.update_of_ne hne ..
  have howned : Owned s' :=
    (h.owned.goTo (show (Stage.progressed component s.progress).Knows _ from hown)).of_same rfl rfl
      rfl
  have hcleared : ¬s'.Cleared := by
    rintro (hne | ⟨m, hm⟩)
    · exact hne hsem
    · change ((s.goTo n _).stages m).hasCleared = true at hm
      rcases eq_or_ne m n with rfl | hne
      · rw [stages_goTo_self] at hm
        cases hm
      · rw [stages_goTo_of_ne hne] at hm
        exact hclosed m (Stage.opens_of_hasCleared hm s.used)
  have hbits : ∀ k < 32, s'.progress.getLsbD k = true ↔
      ∃ m, s'.own m = some k ∧ s'.calls m = s'.returned + 1 := by
    intro k hk
    change (s.progress ||| bit component).getLsbD k = true ↔ _
    rw [BitVec.getLsbD_or, getLsbD_bit (by omega), Bool.or_eq_true, decide_eq_true_iff,
      h.progress k hk]
    constructor
    · rintro (⟨-, m, hm, hcalled⟩ | rfl)
      · have hne : m ≠ n := by
          rintro rfl
          omega
        exact ⟨m, hm, (hother m hne).trans hcalled⟩
      · exact ⟨n, hown, hself⟩
    · rintro ⟨m, hm, hcalled⟩
      rcases eq_or_ne m n with rfl | hne
      · exact Or.inr (Option.some.inj (hown.symm.trans hm))
      · exact Or.inl ⟨huncleared, m, hm, (hother m hne).symm.trans hcalled⟩
  have hfull : s'.progress = s'.used ↔ s'.AllCalled := howned.eq_used_iff hbits
  have hopens : ∀ m, (s'.stages m).Opens s'.used → m = n ∧ s'.AllCalled := by
    intro m hm
    change ((s.goTo n _).stages m).Opens s.used at hm
    rcases eq_or_ne m n with rfl | hne
    · rw [stages_goTo_self] at hm
      exact ⟨rfl, hfull.1 hm⟩
    · rw [stages_goTo_of_ne hne] at hm
      exact absurd hm (hclosed m)
  refine ⟨howned, steady_goTo h.steady rfl, fun m k hm => ?_, fun k hk => ?_, h.sem,
    fun hne => absurd hsem hne, fun m hm => ⟨hsem, (hopens m hm).2⟩,
    fun m m' hm hm' => (hopens m hm).1.trans (hopens m' hm').1.symm,
    fun _ hall => Or.inr ⟨n, ?_⟩⟩
  · rcases eq_or_ne m n with rfl | hne
    · rw [hself]
      exact ⟨Nat.le_succ _, Nat.le_refl _⟩
    · rw [hother m hne]
      exact h.range m k hm
  · rw [hbits k hk]
    exact ⟨fun hm => ⟨hcleared, hm⟩, And.right⟩
  · change ((s.goTo n _).stages n).Opens s.used
    rw [stages_goTo_self]
    exact hfull.2 hall

theorem waitForComponents (h : Barrier s) : Barrier (s.step .waitForComponents) := by
  dsimp only [Components.step]
  split
  · exact h
  · split
    · rename_i hused
      have hnone : ∀ n k, s.own n ≠ some k := by
        intro n k hn
        have hbit := (h.owned.used k (Nat.lt_succ_of_lt (h.owned.bound n k hn))).2 ⟨n, hn⟩
        rw [hused] at hbit
        simp at hbit
      refine ⟨h.owned.of_same rfl rfl rfl, h.steady, fun n k hn => absurd hn (hnone n k),
        fun k hk => iff_of_false ?_ ?_, h.sem, fun _ n k hn => absurd hn (hnone n k),
        fun n hn => ⟨(h.opens n hn).1, fun n k hn => absurd hn (hnone n k)⟩, h.unique,
        fun hne => absurd hused hne⟩
      · intro hbit
        obtain ⟨-, n, hn, -⟩ := (h.progress k hk).1 hbit
        exact hnone n k hn
      · rintro ⟨-, n, hn, -⟩
        exact hnone n k hn
    · exact ⟨h.owned.of_same rfl rfl rfl, h.steady, h.range, h.progress, h.sem, h.opened, h.opens,
        h.unique, h.opener⟩

theorem wake (h : Barrier s) : Barrier (s.step .wake) := by
  dsimp only [Components.step]
  split
  · rename_i hwake
    have hall := h.opened hwake.2
    have hone : s.sem - 1 = 0 := Nat.sub_eq_zero_of_le h.sem
    have hclosed : ∀ n, ¬(s.stages n).Opens s.used := fun n hn => hwake.2 (h.opens n hn).1
    refine ⟨h.owned.of_same rfl rfl rfl, h.steady, fun n k hn => ?_,
      fun k hk => iff_of_false ?_ ?_, ?_, fun hne => absurd hone hne,
      fun n hn => absurd hn (hclosed n), fun n _ hn => absurd hn (hclosed n), fun hused hall' => ?_⟩
    · show s.returned + 1 ≤ s.calls n ∧ s.calls n ≤ s.returned + 1 + 1
      rw [hall n k hn]
      exact ⟨Nat.le_refl _, Nat.le_succ _⟩
    · exact fun hbit => ((h.progress k hk).1 hbit).1 (Or.inl hwake.2)
    · rintro ⟨-, n, hn, hcalled⟩
      change s.calls n = s.returned + 1 + 1 at hcalled
      rw [hall n k hn] at hcalled
      omega
    · show s.sem - 1 ≤ 1
      rw [hone]
      exact Nat.zero_le 1
    · -- some component is used, and has not called again
      obtain ⟨k, hk, hbit⟩ := exists_getLsbD_of_ne_zero hused
      obtain ⟨n, hn⟩ := (h.owned.used k hk).1 hbit
      have hcalled : s.calls n = s.returned + 1 + 1 := hall' n k hn
      rw [hall n k hn] at hcalled
      omega
  · exact h

end Barrier

/-! ## Runs -/

/-- No component comes or goes, and none makes progress twice before the wait returns. -/
def OncePerCycle (s : Components τ) : Event τ → Prop
  | .register _ | .unregister _ => False
  | .lockstepProgress n => s.calls n ≤ s.returned
  | _ => True

theorem Barrier.step (h : Barrier s) {e : Event τ} (he : OncePerCycle s e) :
    Barrier (s.step e) := by
  cases e with
  | register n => exact he.elim
  | unregister n => exact he.elim
  | lockstepProgress n =>
      dsimp only [Components.step]
      split
      · rename_i component _ hown
        exact h.lockstepProgress hown he
      · exact h
  | run n fails => exact h.run n fails
  | waitForComponents => exact h.waitForComponents
  | wake => exact h.wake

/-- The events before the first cycle. -/
def Event.Registers : Event τ → Prop
  | .register _ | .run _ _ => True
  | _ => False

/-- Before the first cycle: components have only registered. -/
structure Fresh (s : Components τ) : Prop where
  registers : ∀ n, (s.stages n).registers = true
  progress : s.progress = 0
  sem : s.sem = 0
  calls : ∀ n, s.calls n = 0
  returned : s.returned = 0

namespace Fresh

theorem goTo (h : Fresh s) {stage : Stage} (hregisters : stage.registers = true) :
    Fresh (s.goTo n stage) := by
  refine ⟨fun m => ?_, h.progress, h.sem, h.calls, h.returned⟩
  rcases eq_or_ne m n with rfl | hne
  · rw [stages_goTo_self]
    exact hregisters
  · rw [stages_goTo_of_ne hne]
    exact h.registers m

theorem step (h : Fresh s) {e : Event τ} (he : e.Registers) : Fresh (s.step e) := by
  cases e with
  | register n =>
      dsimp only [Components.step]
      split
      · exact h.goTo rfl
      · exact h
  | run n fails =>
      have hregisters := h.registers n
      dsimp only [Components.step]
      unfold Components.run
      cases hs : s.stages n with
      | outside => exact h
      | loading component =>
          dsimp only
          split
          · exact h.goTo rfl
          · split
            · exact h.goTo rfl
            · exact h.goTo rfl
      | exchanging component expected =>
          dsimp only
          split
          · have hgo : Fresh (s.goTo n .outside) := h.goTo rfl
            exact ⟨hgo.registers, hgo.progress, hgo.sem, hgo.calls, hgo.returned⟩
          · exact h.goTo rfl
      | _ =>
          rw [hs] at hregisters
          cases hregisters
  | _ => exact he.elim

omit [DecidableEq τ] in
theorem barrier (h : Fresh s) (howned : Owned s) (hout : ∀ n, s.stages n = .outside) :
    Barrier s := by
  have hnot : ∀ n, s.calls n ≠ s.returned + 1 := by
    intro n
    rw [h.calls n, h.returned]
    decide
  have hclosed : ∀ n, ¬(s.stages n).Opens s.used := by
    intro n
    rw [hout n]
    exact id
  refine ⟨howned, fun n => ?_, fun n _ _ => ?_, fun k _ => iff_of_false ?_ ?_, ?_,
    fun hne => absurd h.sem hne, fun n hn => absurd hn (hclosed n), fun n _ hn =>
      absurd hn (hclosed n),
    fun hused hall => ?_⟩
  · rw [hout n]
    rfl
  · rw [h.calls n, h.returned]
    exact ⟨Nat.le_refl 0, Nat.zero_le 1⟩
  · rw [h.progress]
    simp
  · rintro ⟨-, n, -, hn⟩
    exact hnot n hn
  · rw [h.sem]
    exact Nat.zero_le 1
  · obtain ⟨k, hk, hbit⟩ := exists_getLsbD_of_ne_zero hused
    obtain ⟨n, hn⟩ := (howned.used k hk).1 hbit
    exact absurd (hall n k hn) (hnot n)

end Fresh

theorem barrier_exec {es es' : List (Event τ)} (hes : ∀ e ∈ es, e.Registers)
    (hout : ∀ n, (exec step init es).stages n = .outside)
    (hes' : AllSteps step OncePerCycle (exec step init es) es') :
    Barrier (exec step init (es ++ es')) := by
  have hfresh : ∀ (es : List (Event τ)) {s : Components τ}, (∀ e ∈ es, e.Registers) →
      Fresh s → Fresh (exec step s es) := by
    intro es
    induction es with
    | nil => exact fun _ h => h
    | cons e es ih =>
        exact fun hes h => ih (fun e he => hes e (List.mem_cons_of_mem _ he))
          (h.step (hes _ List.mem_cons_self))
  have hinit : Fresh (init : Components τ) := ⟨fun _ => rfl, rfl, rfl, fun _ => rfl, rfl⟩
  have hbarrier := (hfresh es hes hinit).barrier (owned_exec es) hout
  rw [exec_append]
  have hstep : ∀ (s : Components τ) (e : Event τ), Barrier s → OncePerCycle s e →
      Barrier (s.step e) := fun _ _ h he => h.step he
  exact invariant_of_allSteps hstep hbarrier hes' _ (exec_mem_visited ..)

/-- The wait never returns more often than any of the components has made progress: it waits for
all. -/
theorem lockstep_barrier {es es' : List (Event τ)} (hes : ∀ e ∈ es, e.Registers)
    (hout : ∀ n, (exec step init es).stages n = .outside)
    (hes' : AllSteps step OncePerCycle (exec step init es) es') :
    ∀ n k, (exec step init (es ++ es')).own n = some k →
      (exec step init (es ++ es')).returned ≤ (exec step init (es ++ es')).calls n :=
  fun n k hn => ((barrier_exec hes hout hes').range n k hn).1

/-- Two components register at the same time: the second finds its exchange in vain. -/
def bothRegister : List (Event Bool) :=
  [.register false, .register true, .run false false, .run true false, .run false false,
    .run true false, .run true false, .run true false, .run true false]

/-- Both make progress, and the wait returns. -/
def oneCycle : List (Event Bool) :=
  [.lockstepProgress false, .lockstepProgress true, .run false false, .run true false,
    .run true false,
    .run true false, .run true false, .waitForComponents, .wake]

theorem lockstep_barrier_one :
    (exec step init (bothRegister ++ oneCycle)).returned = 1 ∧
      (exec step init (bothRegister ++ oneCycle)).own true = some 1 ∧
      (exec step init (bothRegister ++ oneCycle)).returned ≤
        (exec step init (bothRegister ++ oneCycle)).calls true := by
  have hes : ∀ e ∈ bothRegister, e.Registers := by
    simp [bothRegister, Event.Registers]
  have hes' : AllSteps step OncePerCycle (exec step init bothRegister) oneCycle := by
    refine ⟨?_, ?_, ?_, ?_, ?_, ?_, ?_, ?_, ?_, trivial⟩
    all_goals first | trivial | exact Nat.zero_le _
  have hown : (exec step init (bothRegister ++ oneCycle)).own true = some 1 := by decide
  exact ⟨by decide, hown, lockstep_barrier hes (by decide) hes' true 1 hown⟩

/-- No wake is lost: when every component has made progress, and is out of the functions, the wait
returns. -/
theorem lockstep_barrier_opens {es es' : List (Event τ)} (hes : ∀ e ∈ es, e.Registers)
    (hout : ∀ n, (exec step init es).stages n = .outside)
    (hes' : AllSteps step OncePerCycle (exec step init es) es')
    (hused : (exec step init (es ++ es')).used ≠ 0)
    (hdone : ∀ n, (exec step init (es ++ es')).stages n = .outside)
    (hall : (exec step init (es ++ es')).AllCalled) :
    (((exec step init (es ++ es')).step .waitForComponents).step .wake).returned =
      (exec step init (es ++ es')).returned + 1 := by
  have h := barrier_exec hes hout hes'
  generalize exec step init (es ++ es') = s at h hused hdone hall
  have hsem : s.sem ≠ 0 := by
    refine (h.opener hused hall).resolve_right ?_
    rintro ⟨n, hn⟩
    rw [hdone n] at hn
    exact hn
  have hcalled : s.step .waitForComponents = { s with waiting := true } := by
    dsimp only [step]
    split
    · rename_i hwaiting
      rw [← hwaiting]
    · rfl
  rw [hcalled, step, if_pos ⟨rfl, hsem⟩]

theorem lockstep_barrier_opens_one :
    (((exec step init (bothRegister ++ oneCycle.take 7)).step .waitForComponents).step
      .wake).returned =
      (exec step init (bothRegister ++ oneCycle.take 7)).returned + 1 := by
  have hes : ∀ e ∈ bothRegister, e.Registers := by
    simp [bothRegister, Event.Registers]
  have hes' : AllSteps step OncePerCycle (exec step init bothRegister) (oneCycle.take 7) := by
    refine ⟨?_, ?_, ?_, ?_, ?_, ?_, ?_, trivial⟩
    all_goals first | trivial | exact Nat.zero_le _
  have hcalls : ∀ n, (exec step init (bothRegister ++ oneCycle.take 7)).calls n =
      (exec step init (bothRegister ++ oneCycle.take 7)).returned + 1 := by
    decide
  exact lockstep_barrier_opens hes (by decide) hes' (by decide) (by decide) fun n _ _ => hcalls n

/-- A component makes progress twice, the second time before the last one has cleared the bits. -/
def twiceInCycle : List (Event Bool) :=
  [.lockstepProgress false, .run false false, .lockstepProgress true, .lockstepProgress false,
    .run true false, .run true false, .run true false, .run true false, .waitForComponents, .wake,
    .run false false, .run false false, .run false false, .run false false, .waitForComponents,
      .wake]

/-- Then the wait returns twice, and the other component has made progress once. -/
example : (exec step init (bothRegister ++ twiceInCycle)).returned = 2 ∧
    (exec step init (bothRegister ++ twiceInCycle)).calls true = 1 := by
  decide

end Components
end Platform
end DtPhm
