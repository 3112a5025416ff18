import DtPhm.Lib.Run
import DtPhm.Uorb.DeviceNode
import Mathlib.Algebra.Group.Nat.Defs

/-!
# SubscriptionInterval — a subscription with a limited rate

`update()` copies a message if one interval has passed since `_last_update`; every copy shifts
`_last_update` forward by one interval, and keeps it within one interval of the present.

* `Subscription` — the subscription underneath, which subscribes as soon as there is a node;
* `updated`, `copy`, `update` — the functions of the wrapper, each with the clock readings it takes;
* `Event`, `step`, `accepted` — runs, in which the rest of the system does with the node what it
  likes;
* `rate_limited` — no window has more updates than its length allows.

The times are unsigned numbers of 64 bits, and so are their sums and differences.
-/

namespace DtPhm
namespace Uorb

open Lib

/-! ## The subscription underneath -/

/-- `Subscription`: the node of its topic, if there is one by now, and `_last_generation` once it
has subscribed. -/
structure Subscription (M : Type) where
  node : Option (DeviceNode M)
  lastGeneration : Option (BitVec 32) := none

namespace Subscription

variable {M : Type}

def subscribe (s : Subscription M) : Subscription M :=
  if s.lastGeneration.isSome then s
  else { s with lastGeneration := s.node.map DeviceNode.getInitialGeneration }

/-- `advertised`, which tries to subscribe. -/
def advertised (s : Subscription M) : Bool × Subscription M :=
  let s := s.subscribe
  (s.lastGeneration.isSome && s.node.any DeviceNode.advertised, s)

def updated (s : Subscription M) : Bool × Subscription M :=
  match s.advertised with
  | (false, s) => (false, s)
  | (true, s) =>
      match s.node, s.lastGeneration with
      | some node, some generation => (node.updatesAvailable generation != 0, s)
      | _, _ => (false, s)

/-- `copy`; what is copied is left out. -/
def copy (s : Subscription M) : Bool × Subscription M :=
  match s.advertised with
  | (false, s) => (false, s)
  | (true, s) =>
      match s.node, s.lastGeneration with
      | some node, some generation =>
          match node.copy generation with
          | some (_, generation) => (true, { s with lastGeneration := some generation })
          | none => (false, s)
      | _, _ => (false, s)

end Subscription

/-! ## The wrapper -/

/-- `SubscriptionInterval`. -/
structure SubscriptionInterval (M : Type) where
  subscription : Subscription M
  lastUpdate : UInt64 := 0
  intervalUs : UInt32

/-- `math::constrain`. -/
def constrain (val minVal maxVal : UInt64) : UInt64 :=
  if val < minVal then minVal else if maxVal < val then maxVal else val

namespace SubscriptionInterval

variable {M : Type}

/-- `_interval_us`, as it takes part in sums. -/
def interval (s : SubscriptionInterval M) : UInt64 := s.intervalUs.toUInt64

/-- `updated`, at the time `now`. -/
def updated (now : UInt64) (s : SubscriptionInterval M) : Bool × SubscriptionInterval M :=
  match s.subscription.advertised with
  | (advertised, sub) =>
      -- `hrt_elapsed_time` is a difference of 64 bits
      if advertised && decide (s.interval ≤ now - s.lastUpdate) then
        match sub.updated with
        | (available, sub) => (available, { s with subscription := sub })
      else
        (false, { s with subscription := sub })

/-- `copy`, at the time `now`. -/
def copy (now : UInt64) (s : SubscriptionInterval M) : Bool × SubscriptionInterval M :=
  match s.subscription.copy with
  | (false, sub) => (false, { s with subscription := sub })
  | (true, sub) =>
      -- shift last update time forward, but don't let it get further behind than the interval
      (true, { s with
        subscription := sub
        lastUpdate := constrain (s.lastUpdate + s.interval) (now - s.interval) now })

/-- `update`, with the times at which it checks and copies. -/
def update (checked copied : UInt64) (s : SubscriptionInterval M) : Bool × SubscriptionInterval M :=
  match s.updated checked with
  | (false, s) => (false, s)
  | (true, s) => s.copy copied

end SubscriptionInterval

/-! ## Runs -/

namespace Interval

variable {M : Type}

/-- A call, or something else that changes the node of the topic: a publication, an
advertisement. -/
inductive Event (M : Type)
  | topic (node : Option (DeviceNode M))
  | update (checked copied : UInt64)
  | copy (copied : UInt64)

/-- The clock readings of an event, in their order. -/
def Event.times : Event M → List UInt64
  | .topic _ => []
  | .update checked copied => [checked, copied]
  | .copy copied => [copied]

def step (s : SubscriptionInterval M) : Event M → SubscriptionInterval M
  | .topic node => { s with subscription := { s.subscription with node := node } }
  | .update checked copied => (s.update checked copied).2
  | .copy copied => (s.copy copied).2

/-- An update that returns true, with its times. -/
def accepts (s : SubscriptionInterval M) : Event M → List (UInt64 × UInt64)
  | .update checked copied => if (s.update checked copied).1 then [(checked, copied)] else []
  | _ => []

/-- The updates of a run that return true. -/
def accepted (s : SubscriptionInterval M) (events : List (Event M)) : List (UInt64 × UInt64) :=
  outputs step accepts s events

/-- The clock never goes back. -/
def Monotone (events : List (Event M)) : Prop := (events.flatMap Event.times).Pairwise (· ≤ ·)

/-- A direct call of `copy` that copies does so when one interval has passed since boot, and does
not shift `_last_update` beyond the end of the clock. -/
def Careful (s : SubscriptionInterval M) : Event M → Prop
  | .copy copied => (s.copy copied).1 = true →
      s.interval ≤ copied ∧ s.lastUpdate.toNat + s.interval.toNat < 2 ^ 64
  | _ => True

/-- The updates that overlap with a window of a given length. -/
def inWindow (start length : ℕ) (updates : List (UInt64 × UInt64)) : List (UInt64 × UInt64) :=
  updates.filter fun u => start ≤ u.2.toNat && u.1.toNat ≤ start + length

/-! ## One call -/

section Calls

variable {s : SubscriptionInterval M} {now checked copied : UInt64}

/-- A copy shifts `_last_update` by an interval, within one interval of the present. -/
theorem constrain_spec {last interval now : UInt64} (hlast : last ≤ now)
    (hinterval : interval ≤ now)
    (hsum : last.toNat + interval.toNat < 2 ^ 64) :
    last ≤ constrain (last + interval) (now - interval) now ∧
      constrain (last + interval) (now - interval) now ≤ now ∧
      now.toNat ≤ (constrain (last + interval) (now - interval) now).toNat + interval.toNat ∧
      (last.toNat + interval.toNat ≤ now.toNat → last.toNat + interval.toNat ≤
        (constrain (last + interval) (now - interval) now).toNat) := by
  have hadd : (last + interval).toNat = last.toNat + interval.toNat := by
    rw [UInt64.toNat_add, Nat.mod_eq_of_lt hsum]
  have hsub : (now - interval).toNat = now.toNat - interval.toNat :=
    UInt64.toNat_sub_of_le _ _ hinterval
  simp only [UInt64.le_iff_toNat_le] at hlast hinterval ⊢
  unfold constrain
  simp only [UInt64.lt_iff_toNat_lt, hadd, hsub]
  split
  · omega
  · split <;> omega

theorem copy_intervalUs (now : UInt64) (s : SubscriptionInterval M) :
    (s.copy now).2.intervalUs = s.intervalUs := by
  rw [SubscriptionInterval.copy]
  split <;> rfl

theorem copy_lastUpdate (now : UInt64) (s : SubscriptionInterval M) :
    (s.copy now).2.lastUpdate =
      if (s.copy now).1 then
        constrain (s.lastUpdate + s.interval) (now - s.interval) now
      else s.lastUpdate := by
  rw [SubscriptionInterval.copy]
  split <;> rfl

theorem updated_spec (now : UInt64) (s : SubscriptionInterval M) :
    (s.updated now).2.lastUpdate = s.lastUpdate ∧
      (s.updated now).2.intervalUs = s.intervalUs ∧
      ((s.updated now).1 = true → s.interval ≤ now - s.lastUpdate) := by
  rw [SubscriptionInterval.updated]
  dsimp only
  split
  · rename_i hpassed
    rw [Bool.and_eq_true, decide_eq_true_eq] at hpassed
    exact ⟨rfl, rfl, fun _ => hpassed.2⟩
  · exact ⟨rfl, rfl, fun h => by cases h⟩

/-- What an event does to `_last_update`, and to the updates that return true: the one does not go
back, and stays behind the clock; an update comes an interval after it and shifts it by one. -/
structure StepSpec (s s' : SubscriptionInterval M) (times : List UInt64)
    (updates : List (UInt64 × UInt64)) : Prop where
  intervalUs : s'.intervalUs = s.intervalUs
  le : s.lastUpdate ≤ s'.lastUpdate
  behind : s'.lastUpdate = s.lastUpdate ∨ ∃ t ∈ times, s'.lastUpdate ≤ t
  shifted : ∀ u ∈ updates, s.lastUpdate.toNat + s.interval.toNat ≤ u.1.toNat ∧
    s.lastUpdate.toNat + s.interval.toNat ≤ s'.lastUpdate.toNat ∧
    u.2.toNat ≤ s'.lastUpdate.toNat + s.interval.toNat

theorem StepSpec.of_eq {s s' : SubscriptionInterval M} {times : List UInt64}
    (hinterval : s'.intervalUs = s.intervalUs) (hlast : s'.lastUpdate = s.lastUpdate) :
    StepSpec s s' times [] where
  intervalUs := hinterval
  le := hlast ▸ UInt64.le_refl _
  behind := .inl hlast
  shifted := nofun

theorem length_accepts_le (s : SubscriptionInterval M) (e : Event M) :
    (accepts s e).length ≤ 1 := by
  cases e with
  | update checked copied =>
      rw [accepts]
      split <;> simp
  | topic | copy => exact Nat.zero_le 1

theorem eq_nil_of_filter_accepts {e : Event M} {p : UInt64 × UInt64 → Bool} {u : UInt64 × UInt64}
    {us : List (UInt64 × UInt64)} (h : (accepts s e).filter p = u :: us) : us = [] := by
  have hlength := Nat.le_trans (List.length_filter_le p (accepts s e)) (length_accepts_le s e)
  rw [h, List.length_cons] at hlength
  exact List.length_eq_zero_iff.1 (by omega)

theorem step_copy_spec (hlast : s.lastUpdate ≤ now) (hcareful : Careful s (.copy now)) :
    StepSpec s (step s (.copy now)) [now] (accepts s (.copy now)) := by
  cases hcopied : (s.copy now).1 with
  | false =>
      refine .of_eq (copy_intervalUs now s) ?_
      change (s.copy now).2.lastUpdate = _
      rw [copy_lastUpdate, hcopied]
      rfl
  | true =>
      obtain ⟨hinterval, hsum⟩ := hcareful hcopied
      obtain ⟨hle, hnow, -, -⟩ := constrain_spec hlast hinterval hsum
      have hshift : (step s (.copy now)).lastUpdate =
          constrain (s.lastUpdate + s.interval) (now - s.interval) now := by
        change (s.copy now).2.lastUpdate = _
        rw [copy_lastUpdate, hcopied]
        rfl
      exact ⟨copy_intervalUs now s, hshift ▸ hle, .inr ⟨now, by simp, hshift ▸ hnow⟩, nofun⟩

theorem step_update_spec (hlast : s.lastUpdate ≤ checked) (hle : checked ≤ copied) :
    StepSpec s (step s (.update checked copied)) [checked, copied]
      (accepts s (.update checked copied)) := by
  obtain ⟨hsame, hsameInterval, hpassed⟩ := updated_spec checked s
  have hstep : s.update checked copied =
      if (s.updated checked).1 then (s.updated checked).2.copy copied
      else (false, (s.updated checked).2) := by
    rw [SubscriptionInterval.update]
    split <;> simp_all
  cases hupdated : (s.updated checked).1 with
  | false =>
      rw [hupdated] at hstep
      have haccepts : accepts s (.update checked copied) = [] := by simp [accepts, hstep]
      rw [haccepts]
      exact .of_eq (by simp [step, hstep, hsameInterval]) (by simp [step, hstep, hsame])
  | true =>
      rw [hupdated, if_pos rfl] at hstep
      have hinterval : (s.updated checked).2.interval = s.interval :=
        congrArg UInt32.toUInt64 hsameInterval
      have hafter := copy_lastUpdate copied (s.updated checked).2
      rw [hsame, hinterval, ← hstep] at hafter
      have hsameI : (step s (.update checked copied)).intervalUs = s.intervalUs := by
        change (s.update checked copied).2.intervalUs = _
        rw [hstep, copy_intervalUs, hsameInterval]
      cases haccepted : (s.update checked copied).1 with
      | false =>
          rw [haccepted] at hafter
          have haccepts : accepts s (.update checked copied) = [] := by simp [accepts, haccepted]
          rw [haccepts]
          exact .of_eq hsameI hafter
      | true =>
          rw [haccepted, if_pos rfl] at hafter
          -- an interval is over since `_last_update`, so that nothing wraps around
          have hover : s.lastUpdate.toNat + s.interval.toNat ≤ checked.toNat := by
            have hpassed := UInt64.le_iff_toNat_le.1 (hpassed hupdated)
            rw [UInt64.toNat_sub_of_le _ _ hlast] at hpassed
            have := UInt64.le_iff_toNat_le.1 hlast
            omega
          have hclock := UInt64.le_iff_toNat_le.1 hle
          have hsum : s.lastUpdate.toNat + s.interval.toNat < 2 ^ 64 :=
            Nat.lt_of_le_of_lt hover checked.toNat_lt
          obtain ⟨hforward, hnow, hnear, hshift⟩ := constrain_spec
            (UInt64.le_iff_toNat_le.2 (by omega : s.lastUpdate.toNat ≤ copied.toNat))
            (UInt64.le_iff_toNat_le.2 (by omega : s.interval.toNat ≤ copied.toNat)) hsum
          have hstepLast : (step s (.update checked copied)).lastUpdate =
              constrain (s.lastUpdate + s.interval) (copied - s.interval) copied := hafter
          refine ⟨hsameI, hstepLast ▸ hforward, .inr ⟨copied, by simp, hstepLast ▸ hnow⟩, ?_⟩
          intro u hu
          have hu : u = (checked, copied) := by simpa [accepts, haccepted] using hu
          rw [hu, hstepLast]
          exact ⟨hover, hshift (by omega), hnear⟩

theorem step_spec (s : SubscriptionInterval M) (e : Event M) (hcareful : Careful s e)
    (hlast : ∀ t ∈ e.times, s.lastUpdate ≤ t) (hmono : e.times.Pairwise (· ≤ ·)) :
    StepSpec s (step s e) e.times (accepts s e) := by
  cases e with
  | topic node => exact .of_eq rfl rfl
  | copy copied => exact step_copy_spec (hlast copied (by simp [Event.times])) hcareful
  | update checked copied =>
      have hle : checked ≤ copied := by simpa [Event.times] using hmono
      exact step_update_spec (hlast checked (by simp [Event.times])) hle

end Calls

/-! ## Whole runs -/

section Windows

variable {s : SubscriptionInterval M} {e : Event M} {events : List (Event M)}

theorem StepSpec.interval {s s' : SubscriptionInterval M} {times : List UInt64}
    {updates : List (UInt64 × UInt64)} (h : StepSpec s s' times updates) :
    s'.interval = s.interval :=
  congrArg UInt32.toUInt64 h.intervalUs

/-- The rest of a run starts as the whole run does: `_last_update` is behind its clock. -/
theorem behind_rest (hspec : StepSpec s (step s e) e.times (accepts s e))
    (hmono : Monotone (e :: events))
    (hlast : ∀ t ∈ (e :: events).flatMap Event.times, s.lastUpdate ≤ t) :
    ∀ t ∈ events.flatMap Event.times, (step s e).lastUpdate ≤ t := by
  intro t ht
  rcases hspec.behind with hsame | ⟨t₀, ht₀, hle⟩
  · rw [hsame]
    exact hlast t (List.mem_append_right _ ht)
  · exact UInt64.le_trans hle ((List.pairwise_append.1 hmono).2.2 t₀ ht₀ t ht)

/-- The updates up to some time, by induction on the run: each of them takes one interval. -/
theorem accepted_until (hcareful : AllSteps step Careful s events) (hmono : Monotone events)
    (hlast : ∀ t ∈ events.flatMap Event.times, s.lastUpdate ≤ t) (T : ℕ)
    (hsome : 0 < ((accepted s events).filter fun u => u.1.toNat ≤ T).length) :
    s.lastUpdate.toNat +
      ((accepted s events).filter fun u => u.1.toNat ≤ T).length * s.interval.toNat ≤ T := by
  induction events generalizing s with
  | nil => exact absurd hsome (Nat.lt_irrefl 0)
  | cons e events ih =>
      have hmono' := List.pairwise_append.1 hmono
      have hspec := step_spec s e hcareful.1
        (fun t ht => hlast t (List.mem_append_left _ ht)) hmono'.1
      have hrest := ih hcareful.2 hmono'.2.1 (behind_rest hspec hmono hlast)
      have hle := UInt64.le_iff_toNat_le.1 hspec.le
      rw [hspec.interval] at hrest
      rw [accepted, outputs, ← accepted, List.filter_append, List.length_append] at hsome ⊢
      cases hfirst : (accepts s e).filter fun u => decide (u.1.toNat ≤ T) with
      | nil =>
          rw [hfirst, List.length_nil, Nat.zero_add] at hsome
          rw [List.length_nil, Nat.zero_add]
          have := hrest hsome
          omega
      | cons u us =>
          obtain ⟨hu, hbound⟩ := List.mem_filter.1 (hfirst ▸ List.mem_cons_self : u ∈ _)
          have hone : us = [] := eq_nil_of_filter_accepts hfirst
          obtain ⟨hover, hshift, -⟩ := hspec.shifted u hu
          have hbound : u.1.toNat ≤ T := by simpa using hbound
          rw [hone, List.length_singleton, Nat.add_mul, Nat.one_mul]
          rcases Nat.eq_zero_or_pos ((accepted (step s e) events).filter fun u =>
            decide (u.1.toNat ≤ T)).length with hzero | hpos
          · rw [hzero]
            omega
          · have := hrest hpos
            omega

/-- The updates in a window: after the first one, `_last_update` is an interval behind it at
most. -/
theorem length_inWindow_le (hcareful : AllSteps step Careful s events) (hmono : Monotone events)
    (hlast : ∀ t ∈ events.flatMap Event.times, s.lastUpdate ≤ t) (hpos : 0 < s.interval.toNat)
    (start length : ℕ) :
    (inWindow start length (accepted s events)).length ≤ length / s.interval.toNat + 2 := by
  induction events generalizing s with
  | nil => exact Nat.zero_le _
  | cons e events ih =>
      have hmono' := List.pairwise_append.1 hmono
      have hspec := step_spec s e hcareful.1
        (fun t ht => hlast t (List.mem_append_left _ ht)) hmono'.1
      have hbehind := behind_rest hspec hmono hlast
      rw [accepted, outputs, ← accepted, inWindow, List.filter_append, List.length_append,
        ← inWindow, ← inWindow]
      cases hfirst : inWindow start length (accepts s e) with
      | nil =>
          rw [List.length_nil, Nat.zero_add]
          have hrest := ih hcareful.2 hmono'.2.1 hbehind (hspec.interval ▸ hpos)
          rwa [hspec.interval] at hrest
      | cons u us =>
          obtain ⟨hu, hwindow⟩ := List.mem_filter.1 (hfirst ▸ List.mem_cons_self : u ∈ _)
          have hone : us = [] := eq_nil_of_filter_accepts hfirst
          obtain ⟨-, -, hnear⟩ := hspec.shifted u hu
          have hstart : start ≤ u.2.toNat := by
            rw [Bool.and_eq_true, decide_eq_true_eq] at hwindow
            exact hwindow.1
          -- the rest of the window is a time up to which updates are counted
          have hsub : (inWindow start length (accepted (step s e) events)).length ≤
              ((accepted (step s e) events).filter fun u => u.1.toNat ≤ start + length).length := by
            refine (List.monotone_filter_right _ fun u hu => ?_).length_le
            rw [Bool.and_eq_true] at hu
            exact hu.2
          rw [hone, List.length_singleton]
          rcases Nat.eq_zero_or_pos ((accepted (step s e) events).filter fun u =>
            decide (u.1.toNat ≤ start + length)).length with hzero | hsome
          · have hnone := Nat.le_zero.1 (hzero ▸ hsub)
            rw [hnone]
            exact Nat.le_add_left 1 (length / s.interval.toNat + 1)
          · have huntil := accepted_until hcareful.2 hmono'.2.1 hbehind (start + length) hsome
            rw [hspec.interval] at huntil
            have hquotient : (((accepted (step s e) events).filter fun u =>
                decide (u.1.toNat ≤ start + length)).length - 1) ≤ length / s.interval.toNat := by
              rw [Nat.le_div_iff_mul_le hpos, Nat.sub_mul, Nat.one_mul]
              omega
            omega

end Windows

/-- In a run from the start in which every call of `copy` is careful, at most `length / interval +
2` updates have a part in a window of that length. -/
theorem rate_limited (s : SubscriptionInterval M) (hstart : s.lastUpdate = 0)
    (hinterval : 0 < s.intervalUs.toNat) (events : List (Event M)) (hmono : Monotone events)
    (hcareful : AllSteps step Careful s events) (start length : ℕ) :
    (inWindow start length (accepted s events)).length ≤ length / s.intervalUs.toNat + 2 := by
  have hsame : s.interval.toNat = s.intervalUs.toNat := UInt32.toNat_toUInt64 _
  rw [← hsame] at hinterval ⊢
  refine length_inWindow_le hcareful hmono (fun t _ => ?_) hinterval start length
  rw [hstart]
  exact UInt64.zero_le

/-! ## A topic that is published all the time -/

/-- A node with `n` publications. -/
def published (n : ℕ) : DeviceNode Unit :=
  n.repeat (fun node => node.write (fun _ => ()) ())
    { DeviceNode.create 0 1 with advertised := true }

/-- A subscription with an interval of ten microseconds, and one message. -/
def tenMicros : SubscriptionInterval Unit where
  subscription := { node := some (published 1) }
  intervalUs := 10

/-- A copy after the first interval, and updates. -/
def copyThenUpdates : List (Event Unit) :=
  [.copy 12, .topic (some (published 2)), .update 22 23, .topic (some (published 3)), .update 33 33]

/-- Two updates in a window of one interval, at the most three of which are possible. -/
theorem rate_limited_ten :
    (accepted tenMicros copyThenUpdates).length = 2 ∧
      (inWindow 23 10 (accepted tenMicros copyThenUpdates)).length ≤ 10 / 10 + 2 :=
  ⟨by decide +kernel,
    rate_limited tenMicros rfl (by decide) copyThenUpdates (by unfold Monotone; decide)
    ⟨fun _ => ⟨by decide, by decide⟩, trivial, trivial, trivial, trivial, trivial⟩ 23 10⟩

/-- An update each microsecond, with a publication before it. -/
def updateEach : List (Event Unit) :=
  [.topic (some (published 2)), .update 2 2, .topic (some (published 3)), .update 3 3,
    .topic (some (published 4)), .update 4 4]

/-- After a copy at the first microsecond, there are three updates in two microseconds. -/
theorem rate_not_limited :
    Monotone (.copy 1 :: updateEach) ∧
      ¬(inWindow 2 2 (accepted tenMicros (.copy 1 :: updateEach))).length ≤
        2 / tenMicros.intervalUs.toNat + 2 := by
  refine ⟨?_, ?_⟩
  · unfold Monotone
    decide
  · decide +kernel

end Interval
end Uorb
end DtPhm
