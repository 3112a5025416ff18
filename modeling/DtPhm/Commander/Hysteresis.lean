import DtPhm.Commander.ManualControl
import DtPhm.Lib.Since

/-!
# Hysteresis — when the state follows the requests

The hysteresis object keeps the state, the state that is requested, and one time.  Its calls are
`set_state_and_update` and `update`, at times that do not go back.

* `Hysteresis.Call`, `Hysteresis.call` — the calls;
* `RequestedSince` — the other state has been requested since a time, in all requests;
* `Remembers` — what the three fields tell of the calls before;
* `state_follows_requests` — the state changes exactly when such a request is old enough.
-/

namespace DtPhm
namespace Commander
namespace Manual

open Lib

/-! ## Calls -/

namespace Hysteresis

/-- The calls of a hysteresis object. -/
inductive Call
  | setStateAndUpdate (newState : Bool) (nowUs : UInt64)
  | update (nowUs : UInt64)
  deriving DecidableEq, Repr

/-- The time of a call. -/
def Call.nowUs : Call → UInt64
  | .setStateAndUpdate _ nowUs => nowUs
  | .update nowUs => nowUs

/-- The times do not go back. -/
def Chronological (calls : List Call) : Prop := calls.Pairwise fun c c' => c.nowUs ≤ c'.nowUs

instance (calls : List Call) : Decidable (Chronological calls) :=
  inferInstanceAs (Decidable (List.Pairwise _ calls))

def call (h : Hysteresis) : Call → Hysteresis
  | .setStateAndUpdate newState nowUs => h.setStateAndUpdate newState nowUs
  | .update nowUs => h.update nowUs

/-- An object in its first state, with its two hysteresis times. -/
def configured (initState : Bool) (timeFromTrueUs timeFromFalseUs : UInt64) : Hysteresis :=
  ((init initState).setHysteresisTimeFrom true timeFromTrueUs).setHysteresisTimeFrom false
    timeFromFalseUs

/-- The hysteresis time of a state. -/
def timeFromUs (h : Hysteresis) (state : Bool) : UInt64 :=
  if state then h.timeFromTrueUs else h.timeFromFalseUs

/-- The request of a call, before the update. -/
def request (h : Hysteresis) : Call → Hysteresis
  | .setStateAndUpdate newState nowUs =>
      if newState ≠ h.state then
        if newState ≠ h.requestedState then
          { h with requestedState := newState, lastTimeToChangeState := nowUs }
        else h
      else { h with requestedState := h.state }
  | .update _ => h

variable {h : Hysteresis} {c : Call}

theorem call_eq (h : Hysteresis) (c : Call) : h.call c = (h.request c).update c.nowUs := by
  cases c <;> rfl

@[simp] theorem request_state : (h.request c).state = h.state := by
  cases c with
  | update nowUs => rfl
  | setStateAndUpdate newState nowUs =>
      rw [request]
      split
      · split <;> rfl
      · rfl

@[simp] theorem request_timeFromUs (state : Bool) :
    (h.request c).timeFromUs state = h.timeFromUs state := by
  cases c with
  | update nowUs => rfl
  | setStateAndUpdate newState nowUs =>
      rw [request]
      split
      · split <;> rfl
      · rfl

/-- The other state is requested, and long enough. -/
def Due (h : Hysteresis) (nowUs : UInt64) : Prop :=
  h.requestedState ≠ h.state ∧ h.timeFromUs h.state ≤ nowUs - h.lastTimeToChangeState

theorem not_ne_self (state : Bool) : (!state) ≠ state := by
  cases state <;> decide

theorem update_of_due {nowUs : UInt64} (hdue : h.Due nowUs) :
    h.update nowUs = { h with state := !h.state } := by
  obtain ⟨hne, htime⟩ := hdue
  rw [update, if_pos hne]
  dsimp only
  cases hs : h.state with
  | true =>
      have hrequested : h.requestedState = false := by simpa [hs] using hne
      have htime : h.timeFromTrueUs ≤ nowUs - h.lastTimeToChangeState := by
        simpa [timeFromUs, hs] using htime
      simp [hrequested, htime]
  | false =>
      have hrequested : h.requestedState = true := by simpa [hs] using hne
      have htime : h.timeFromFalseUs ≤ nowUs - h.lastTimeToChangeState := by
        simpa [timeFromUs, hs] using htime
      simp [hrequested, htime]

theorem update_of_not_due {nowUs : UInt64} (hdue : ¬h.Due nowUs) : h.update nowUs = h := by
  rw [update]
  split
  · rename_i hne
    have htime : ¬h.timeFromUs h.state ≤ nowUs - h.lastTimeToChangeState := fun htime =>
      hdue ⟨hne, htime⟩
    dsimp only
    cases hs : h.state with
    | true =>
        have htime : ¬h.timeFromTrueUs ≤ nowUs - h.lastTimeToChangeState := by
          simpa [timeFromUs, hs] using htime
        simp [htime]
    | false =>
        have htime : ¬h.timeFromFalseUs ≤ nowUs - h.lastTimeToChangeState := by
          simpa [timeFromUs, hs] using htime
        simp [htime]
  · rfl

theorem update_state_ne_iff {nowUs : UInt64} : (h.update nowUs).state ≠ h.state ↔ h.Due nowUs := by
  by_cases hdue : h.Due nowUs
  · rw [update_of_due hdue]
    exact iff_of_true (not_ne_self h.state) hdue
  · rw [update_of_not_due hdue]
    exact iff_of_false (not_not.2 rfl) hdue

theorem call_timeFromUs (state : Bool) : (h.call c).timeFromUs state = h.timeFromUs state := by
  rw [call_eq]
  by_cases hdue : (h.request c).Due c.nowUs
  · rw [update_of_due hdue]
    exact request_timeFromUs state
  · rw [update_of_not_due hdue]
    exact request_timeFromUs state

/-! ## Requests -/

/-- In all requests since the time `t₀` it was the other state that was requested, and the state has
not changed since. -/
def RequestedSince (history : List (Hysteresis × Call)) (state : Bool) (t₀ : UInt64) : Prop :=
  Since (fun e => e.1.state = state ∧ ∀ newState t, e.2 = .setStateAndUpdate newState t →
    newState = !state)
    (fun e => e.1.state = state ∧ e.2 = .setStateAndUpdate (!state) t₀) history

variable {history : List (Hysteresis × Call)} {state newState : Bool} {t₀ nowUs : UInt64}

theorem requestedSince_update :
    RequestedSince (history ++ [(h, .update nowUs)]) h.state t₀ ↔
      RequestedSince history h.state t₀ := by
  refine since_append_singleton.trans ?_
  constructor
  · rintro (⟨-, hcall⟩ | ⟨hsince, -⟩)
    · cases hcall
    · exact hsince
  · intro hsince
    exact Or.inr ⟨hsince, rfl, fun _ _ hcall => Call.noConfusion hcall⟩

theorem requestedSince_other :
    RequestedSince (history ++ [(h, .setStateAndUpdate (!h.state) nowUs)]) h.state t₀ ↔
      nowUs = t₀ ∨ RequestedSince history h.state t₀ := by
  refine since_append_singleton.trans (or_congr ?_ ?_)
  · constructor
    · rintro ⟨-, hcall⟩
      cases hcall
      rfl
    · rintro rfl
      exact ⟨rfl, rfl⟩
  · refine and_iff_left ⟨rfl, fun newState t hcall => ?_⟩
    cases hcall
    rfl

theorem not_requestedSince_same :
    ¬RequestedSince (history ++ [(h, .setStateAndUpdate h.state nowUs)]) h.state t₀ := by
  intro hsince
  rcases since_append_singleton.1 hsince with ⟨-, hcall⟩ | ⟨-, -, hall⟩
  · injection hcall with hstate
    cases hs : h.state <;> simp [hs] at hstate
  · have hstate := hall h.state nowUs rfl
    cases hs : h.state <;> simp [hs] at hstate

theorem not_requestedSince_of_ne (hne : h.state ≠ state) :
    ¬RequestedSince (history ++ [(h, c)]) state t₀ := by
  intro hsince
  rcases since_append_singleton.1 hsince with ⟨heq, -⟩ | ⟨-, heq, -⟩
  · exact hne heq
  · exact hne heq

theorem RequestedSince.exists_call (hsince : RequestedSince history state t₀) :
    ∃ e ∈ history, e.2.nowUs = t₀ := by
  obtain ⟨e, hmem, -, hcall⟩ := hsince.exists_start
  exact ⟨e, hmem, by rw [hcall]; rfl⟩

/-! ## The invariant -/

/-- The time that is kept is that of the first request of the other state, while it is requested. -/
structure Remembers (history : List (Hysteresis × Call)) (h : Hysteresis) : Prop where
  pending : h.requestedState ≠ h.state →
    RequestedSince history h.state h.lastTimeToChangeState ∧
      ∀ t₀, RequestedSince history h.state t₀ → h.lastTimeToChangeState ≤ t₀
  settled : h.requestedState = h.state → ∀ t₀, ¬RequestedSince history h.state t₀

theorem remembers_nil (hstate : h.requestedState = h.state) : Remembers [] h where
  pending hne := absurd hstate hne
  settled _ _ := not_since_nil

theorem nowUs_le_of_mem_steps {calls : List Call} (hchron : Chronological (calls ++ [c])) :
    ∀ e ∈ steps call h calls, e.2.nowUs ≤ c.nowUs := by
  intro e he
  refine (List.pairwise_append.1 hchron).2.2 e.2 ?_ c (List.mem_singleton_self c)
  rw [← map_snd_steps call h calls]
  exact List.mem_map_of_mem he

theorem Remembers.request (hr : Remembers history h) (htime : ∀ e ∈ history, e.2.nowUs ≤ c.nowUs) :
    Remembers (history ++ [(h, c)]) (h.request c) := by
  cases c with
  | update nowUs =>
      refine ⟨fun hne => ?_, fun heq t₀ => ?_⟩
      · obtain ⟨hsince, hleast⟩ := hr.pending hne
        exact ⟨requestedSince_update.2 hsince, fun t₀ h' => hleast t₀ (requestedSince_update.1 h')⟩
      · exact fun h' => hr.settled heq t₀ (requestedSince_update.1 h')
  | setStateAndUpdate newState nowUs =>
      by_cases hsame : newState = h.state
      -- withdrawn
      · subst hsame
        rw [Hysteresis.request, if_neg (not_not.2 rfl)]
        exact ⟨fun hne => absurd rfl hne, fun _ _ => not_requestedSince_same⟩
      · obtain rfl : newState = !h.state := Bool.eq_not_of_ne hsame
        rw [Hysteresis.request, if_pos hsame]
        by_cases hpending : (!h.state) = h.requestedState
        -- repeated: the first request is the one that counts
        · rw [if_neg (not_not.2 hpending)]
          have hne : h.requestedState ≠ h.state := fun heq => hsame (hpending.trans heq)
          obtain ⟨hsince, hleast⟩ := hr.pending hne
          refine ⟨fun _ => ⟨requestedSince_other.2 (Or.inr hsince), fun t₀ h' => ?_⟩,
            fun heq => absurd heq hne⟩
          rcases requestedSince_other.1 h' with rfl | h'
          · obtain ⟨e, hmem, he⟩ := hsince.exists_call
            exact he ▸ htime e hmem
          · exact hleast t₀ h'
        -- a new request
        · rw [if_pos hpending]
          have hsettled : h.requestedState = h.state := by
            by_contra hne
            exact hpending (Bool.eq_not_of_ne hne).symm
          refine ⟨fun _ => ⟨requestedSince_other.2 (Or.inl rfl), fun t₀ h' => ?_⟩,
            fun heq => absurd heq hsame⟩
          rcases requestedSince_other.1 h' with rfl | h'
          · exact UInt64.le_refl _
          · exact absurd h' (hr.settled hsettled t₀)

theorem Remembers.update (hr : Remembers (history ++ [(h, c)]) (h.request c)) :
    Remembers (history ++ [(h, c)]) ((h.request c).update nowUs) := by
  by_cases hdue : (h.request c).Due nowUs
  · rw [update_of_due hdue]
    have hrequested : (h.request c).requestedState = !(h.request c).state :=
      Bool.eq_not_of_ne hdue.1
    refine ⟨fun hne => absurd hrequested hne, fun _ _ => not_requestedSince_of_ne ?_⟩
    rw [request_state]
    exact (not_ne_self h.state).symm
  · rw [update_of_not_due hdue]
    exact hr

theorem Remembers.due_iff (hr : Remembers history h) (htime : ∀ e ∈ history, e.2.nowUs ≤ nowUs) :
    h.Due nowUs ↔
      ∃ t₀, RequestedSince history h.state t₀ ∧
        t₀.toNat + (h.timeFromUs h.state).toNat ≤ nowUs.toNat := by
  have helapsed : ∀ {t₀}, RequestedSince history h.state t₀ →
      (nowUs - t₀).toNat = nowUs.toNat - t₀.toNat ∧ t₀.toNat ≤ nowUs.toNat := by
    intro t₀ hsince
    obtain ⟨e, hmem, rfl⟩ := hsince.exists_call
    exact ⟨UInt64.toNat_sub_of_le _ _ (htime e hmem), UInt64.le_iff_toNat_le.1 (htime e hmem)⟩
  constructor
  · rintro ⟨hne, hold⟩
    obtain ⟨hsince, -⟩ := hr.pending hne
    obtain ⟨hsub, hle⟩ := helapsed hsince
    refine ⟨_, hsince, ?_⟩
    rw [UInt64.le_iff_toNat_le, hsub] at hold
    omega
  · rintro ⟨t₀, hsince, hold⟩
    have hne : h.requestedState ≠ h.state := fun heq => hr.settled heq t₀ hsince
    obtain ⟨hfirst, hleast⟩ := hr.pending hne
    obtain ⟨hsub, -⟩ := helapsed hfirst
    have hle : h.lastTimeToChangeState.toNat ≤ t₀.toNat :=
      UInt64.le_iff_toNat_le.1 (hleast t₀ hsince)
    refine ⟨hne, ?_⟩
    rw [UInt64.le_iff_toNat_le, hsub]
    omega

theorem remembers_exec (hstate : h.requestedState = h.state) {calls : List Call}
    (hchron : Chronological calls) : Remembers (steps call h calls) (exec call h calls) := by
  induction calls using List.reverseRecOn with
  | nil => exact remembers_nil hstate
  | append_singleton calls c ih =>
      have hbefore : Chronological calls := (List.pairwise_append.1 hchron).1
      rw [steps_append_singleton, exec_append, exec_cons, exec_nil, call_eq]
      exact ((ih hbefore).request (nowUs_le_of_mem_steps hchron)).update

theorem exec_timeFromUs (calls : List Call) (state : Bool) :
    (exec call h calls).timeFromUs state = h.timeFromUs state := by
  have hstep : ∀ (h' : Hysteresis) (c : Call), h'.timeFromUs state = h.timeFromUs state →
      (h'.call c).timeFromUs state = h.timeFromUs state :=
    fun _ _ heq => (call_timeFromUs state).trans heq
  exact invariant_exec hstep rfl calls

/-! ## All runs -/

/-- At a call the state changes exactly when the other state has been requested, in all requests
since some time after the last change, for at least the hysteresis time of the state that is
left. -/
theorem state_follows_requests (initState : Bool) (timeFromTrueUs timeFromFalseUs : UInt64)
    (calls : List Call) (c : Call) (hchron : Chronological (calls ++ [c])) :
    let h := configured initState timeFromTrueUs timeFromFalseUs
    let before := exec call h calls
    (before.call c).state ≠ before.state ↔
      ∃ t₀, RequestedSince (steps call h (calls ++ [c])) before.state t₀ ∧
        t₀.toNat + (if before.state then timeFromTrueUs else timeFromFalseUs).toNat ≤
          c.nowUs.toNat := by
  intro h before
  have hbefore : Remembers (steps call h calls) before :=
    remembers_exec (by cases initState <;> rfl) (List.pairwise_append.1 hchron).1
  have hrequest := hbefore.request (nowUs_le_of_mem_steps hchron)
  have htime : ∀ e ∈ steps call h calls ++ [(before, c)], e.2.nowUs ≤ c.nowUs := by
    intro e he
    rcases List.mem_append.1 he with he | he
    · exact nowUs_le_of_mem_steps hchron e he
    · obtain rfl := List.mem_singleton.1 he
      exact UInt64.le_refl _
  have hfixed : (before.request c).timeFromUs before.state =
      if before.state then timeFromTrueUs else timeFromFalseUs := by
    rw [request_timeFromUs]
    exact exec_timeFromUs calls before.state
  calc
    (before.call c).state ≠ before.state
        ↔ ((before.request c).update c.nowUs).state ≠ (before.request c).state := by
          rw [call_eq, request_state]
    _ ↔ (before.request c).Due c.nowUs := update_state_ne_iff
    _ ↔ _ := by
          rw [hrequest.due_iff htime, request_state, hfixed, steps_append_singleton]

/-- A second request, when the first one is old enough. -/
theorem state_follows_second_request : ∃ t₀,
    RequestedSince
      (steps call (configured false 5000 5000)
        ([.setStateAndUpdate true 1000] ++ [.setStateAndUpdate true 6000])) false t₀ ∧
      t₀.toNat + 5000 ≤ 6000 :=
  (state_follows_requests false 5000 5000 [.setStateAndUpdate true 1000]
    (.setStateAndUpdate true 6000)
    (by decide)).1 (by decide)

end Hysteresis

end Manual
end Commander
end DtPhm
