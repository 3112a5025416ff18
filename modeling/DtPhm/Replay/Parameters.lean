import DtPhm.Replay.Scanning
import Mathlib.Data.List.Nodup
import Mathlib.Data.List.Pairwise

/-!
# Parameters — the parameters of a log are followed

Messages are published in the order of their timestamps, and the parameters between two of them are
set on the way.  Where the file position goes back in between, parameters are set again.

* `LogFile.isApplied` — the parameters that are set;
* `FollowsParameters` — each one is set once, in the order of the file and before what comes after
  it;
* `State.Forward` — a round that goes back over no such parameter;
* `parameters_followed` — when the parameters are followed.
-/

namespace DtPhm
namespace Replay

open Lib

variable {b : Build} {file : LogFile}

/-! ## Parameters of a log -/

/-- The message is a parameter that is set. -/
def Message.isApplied (b : Build) : Message → Bool
  | .parameter key _ => decide (readAndApplyParameter b key = some true)
  | _ => false

/-- The message at a position is a parameter that is set. -/
def LogFile.isApplied (file : LogFile) (b : Build) (i : ℕ) : Bool :=
  file.messages[i]?.any (Message.isApplied b)

/-- The parameter of the message at a position. -/
def LogFile.paramName (file : LogFile) (i : ℕ) : Option Text :=
  match file.messages[i]? with
  | some (.parameter key _) => (find ' ' key).map fun space => key.drop (space + 1)
  | _ => none

/-- All parameter messages have a type and a name. -/
def LogFile.WellFormed (file : LogFile) : Prop :=
  ∀ key value, .parameter key value ∈ file.messages → (find ' ' key).isSome = true

/-- The parameter messages that have been applied. -/
def applications (events : List Event) : List ℕ :=
  events.filterMap fun
    | .applied i => some i
    | .published _ _ => none

/-- The message that a parameter has its value from. -/
def holder (file : LogFile) (name : Text) (events : List Event) : Option ℕ :=
  ((applications events).filter fun i => file.paramName i = some name).getLast?

/-- The parameters of a log are followed: those before a published message have been applied once,
in the order of the file, and before the message is published; and then no parameter has an older
value than one that has been applied. -/
structure FollowsParameters (b : Build) (file : LogFile) (events : List Event) : Prop where
  once : ∀ p j, .published p j ∈ events → ∀ i < j, file.isApplied b i = true →
    (applications events).count i = 1
  inOrder : (applications events).Pairwise (· < ·)
  before : ∀ (n p j : ℕ), events[n]? = some (.published p j) → ∀ i < j, file.isApplied b i = true →
    .applied i ∈ events.take n
  newest : ∀ (n p j : ℕ), events[n]? = some (.published p j) →
    ∀ i name, .applied i ∈ events.take n →
    file.paramName i = some name → ∃ k, holder file name (events.take n) = some k ∧ i ≤ k

/-- A round that publishes goes back over no parameter that is set. -/
def State.Forward (b : Build) (file : LogFile) (st : State) : Prop :=
  match st.next with
  | none => True
  | some (_, _, sub) =>
      sub.nextTimestamp ≠ 0 → ∀ i < st.lastAdditionalMessagePos, sub.nextReadPos ≤ i →
        file.isApplied b i = false

instance (b : Build) (file : LogFile) (st : State) : Decidable (st.Forward b file) :=
  match hnext : st.next with
  | none => isTrue (by rw [State.Forward, hnext]; trivial)
  | some (_, _, sub) =>
      decidable_of_iff
        (sub.nextTimestamp ≠ 0 → ∀ i < st.lastAdditionalMessagePos, sub.nextReadPos ≤ i →
          file.isApplied b i = false)
        (by rw [State.Forward, hnext])

/-! ## Additional messages -/

@[simp] theorem applications_append (events events' : List Event) :
    applications (events ++ events') = applications events ++ applications events' :=
  List.filterMap_append

theorem mem_applications {i : ℕ} {events : List Event} :
    i ∈ applications events ↔ .applied i ∈ events := by
  rw [applications, List.mem_filterMap]
  constructor
  · rintro ⟨e, he, hi⟩
    cases e with
    | applied j =>
        cases hi
        exact he
    | published p j => cases hi
  · exact fun h => ⟨_, h, rfl⟩

theorem isSome_readAndApplyParameter {key : Text} (h : (find ' ' key).isSome = true) :
    (readAndApplyParameter b key).isSome = true := by
  rw [readAndApplyParameter]
  cases hfind : find ' ' key with
  | none =>
      rw [hfind] at h
      cases h
  | some space =>
      dsimp only
      split
      · rfl
      · split <;> rfl

theorem isApplied_of_none {i : ℕ} (h : file.messages[i]? = none) : file.isApplied b i = false := by
  rw [LogFile.isApplied, h]
  rfl

theorem additional_eq (hfile : file.WellFormed) (first count : ℕ) :
    readAndHandleAdditionalMessages b ((file.messages.drop first).take count) first =
      ((List.range' first count).filter (file.isApplied b)).map .applied := by
  induction count generalizing first with
  | zero => rfl
  | succ count ih =>
      rw [List.range'_succ, List.filter_cons]
      cases hms : file.messages.drop first with
      | nil =>
          have hle : file.messages.length ≤ first := List.drop_eq_nil_iff.1 hms
          have hnext : file.messages.drop (first + 1) = [] :=
            List.drop_eq_nil_iff.2 (hle.trans (Nat.le_succ first))
          rw [isApplied_of_none (List.getElem?_eq_none hle)]
          have ih := ih (first + 1)
          rw [hnext, List.take_nil] at ih
          exact ih
      | cons m ms =>
          obtain ⟨hmessage, hdrop⟩ := drop_eq_cons hms
          have happlied : file.isApplied b first = m.isApplied b := by
            rw [LogFile.isApplied, hmessage]
            rfl
          rw [List.take_succ_cons, ← hdrop, happlied]
          cases m with
          | parameter key value =>
              have hsome : (readAndApplyParameter b key).isSome = true :=
                isSome_readAndApplyParameter (hfile key value (List.mem_of_getElem? hmessage))
              rw [readAndHandleAdditionalMessages, Message.isApplied]
              cases happly : readAndApplyParameter b key with
              | none =>
                  rw [happly] at hsome
                  cases hsome
              | some applied =>
                  cases applied with
                  | false => exact ih (first + 1)
                  | true => exact congrArg (Event.applied first :: ·) (ih (first + 1))
          | addLoggedMsg add => exact ih (first + 1)
          | data msgId payload => exact ih (first + 1)
          | other => exact ih (first + 1)

theorem applications_map (positions : List ℕ) :
    applications (positions.map .applied) = positions := by
  induction positions with
  | nil => rfl
  | cons i positions ih => exact congrArg (i :: ·) ih

/-! ## What a round does -/

/-- Nothing is set or published between two states. -/
def Silent (st st' : State) : Prop :=
  st'.lastAdditionalMessagePos = st.lastAdditionalMessagePos ∧ st'.events = st.events

theorem Silent.trans {st st' st'' : State} (h : Silent st st') (h' : Silent st' st'') :
    Silent st st'' :=
  ⟨h'.1.trans h.1, h'.2.trans h.2⟩

theorem readAndAddSubscription_silent {search : State → Subscription → ℕ → State × Subscription}
    (hsearch : ∀ st sub msgId, Silent st (search st sub msgId).1) (fileFormats : Text → Text)
    (st : State) (position : ℕ) (add : AddLoggedMsg) :
    Silent st (readAndAddSubscription b fileFormats search st position add) := by
  rw [readAndAddSubscription]
  split
  · exact ⟨rfl, rfl⟩
  · cases b.subscribe fileFormats position add with
    | none => exact ⟨rfl, rfl⟩
    | some sub =>
        have hfound := hsearch { st with subscriptionFilePos := position + 1 } sub add.readId.toNat
        dsimp only
        split
        · exact hfound
        · exact hfound

theorem nextDataMessageLoop_silent (b : Build) (fileFormats : Text → Text) (ms : List Message)
    (position : ℕ) (st : State) (sub : Subscription) (msgId : ℕ) :
    Silent st (nextDataMessageLoop b fileFormats ms position st sub msgId).1 := by
  induction ms generalizing position st sub msgId with
  | nil => exact ⟨rfl, rfl⟩
  | cons m ms ih =>
      cases m with
      | addLoggedMsg add =>
          rw [nextDataMessageLoop]
          have hadd :=
            readAndAddSubscription_silent (b := b) (fun st sub msgId => ih (position + 1) st
            sub msgId) fileFormats st position add
          exact hadd.trans (ih _ _ _ _)
      | data fileMsgId payload =>
          cases h : sub.timestamp msgId (.data fileMsgId payload) with
          | none =>
              simp only [nextDataMessageLoop, h]
              exact ih _ _ _ _
          | some timestamp =>
              simp only [nextDataMessageLoop, h]
              exact ⟨rfl, rfl⟩
      | parameter key value =>
          simp only [nextDataMessageLoop, Subscription.timestamp]
          exact ih _ _ _ _
      | other =>
          simp only [nextDataMessageLoop, Subscription.timestamp]
          exact ih _ _ _ _

theorem advance_silent (b : Build) (file : LogFile) (st : State) (msgId pointer : ℕ)
    (sub : Subscription) : Silent st (st.advance b file msgId pointer sub) :=
  nextDataMessageLoop_silent _ _ _ _ _ _ _

/-- A round is silent, or it handles the parameters up to the next message and publishes that. -/
theorem step_silent {st st' : State} (h : step b file st = some st') :
    Silent st st' ∨ ∃ i p sub, st.next = some (i, p, sub) ∧ sub.nextTimestamp ≠ 0 ∧
      Silent (st.publish b file p sub) st' := by
  rw [step] at h
  split at h
  · cases h
  · rename_i i p sub hnext
    split at h
    · cases h
      exact Or.inl (advance_silent _ _ _ _ _ _)
    · rename_i hne
      cases h
      exact Or.inr ⟨i, p, sub, hnext, hne, advance_silent _ _ _ _ _ _⟩

/-! ## The invariant -/

/-- The parameters below a position have been set, and those below every published message before
that. -/
structure Applied (b : Build) (file : LogFile) (st : State) (high : ℕ) : Prop where
  le : st.lastAdditionalMessagePos ≤ high
  applied : applications st.events = (List.range high).filter (file.isApplied b)
  quiet : ∀ i, st.lastAdditionalMessagePos ≤ i → i < high → file.isApplied b i = false
  before : ∀ (n p j : ℕ), st.events[n]? = some (.published p j) → j ≤ high ∧
    ∀ i < j, file.isApplied b i = true → .applied i ∈ st.events.take n

theorem Applied.silent {st st' : State} {high : ℕ} (h : Applied b file st high)
    (hst : Silent st st') :
    Applied b file st' high := by
  obtain ⟨hcursor, hevents⟩ := hst
  refine ⟨hcursor ▸ h.le, ?_, hcursor ▸ h.quiet, ?_⟩
  · rw [hevents]
    exact h.applied
  · rw [hevents]
    exact h.before

theorem filter_range_max {q : ℕ → Bool} {cursor high : ℕ} (hle : cursor ≤ high)
    (hquiet : ∀ i, cursor ≤ i → i < high → q i = false) (n : ℕ) :
    (List.range high).filter q ++ (List.range' cursor (n - cursor)).filter q =
      (List.range (max high n)).filter q := by
  have hnone : ∀ m, cursor + m ≤ high → (List.range' cursor m).filter q = [] := by
    intro m hm
    rw [List.filter_eq_nil_iff]
    intro i hi
    obtain ⟨hi, hi'⟩ := List.mem_range'_1.1 hi
    rw [hquiet i hi (hi'.trans_le hm)]
    exact Bool.false_ne_true
  rcases Nat.le_total n high with hn | hn
  · rw [hnone _ (by omega), List.append_nil, max_eq_left hn]
  · have hsplit : List.range' cursor (n - cursor) =
        List.range' cursor (high - cursor) ++ List.range' high (n - high) := by
      have happend := List.range'_append_1 (s := cursor) (m := high - cursor) (n := n - high)
      rw [Nat.add_sub_cancel' hle] at happend
      rw [happend]
      congr 1
      omega
    have hrange : List.range n = List.range high ++ List.range' high (n - high) := by
      have happend := List.range'_append_1 (s := 0) (m := high) (n := n - high)
      rw [Nat.zero_add, Nat.add_sub_cancel' hn] at happend
      rw [List.range_eq_range', List.range_eq_range', happend]
    rw [hsplit, List.filter_append, hnone _ (by omega), List.nil_append, max_eq_right hn, hrange,
      List.filter_append]

theorem getElem?_append_cases {α : Type*} {l l' : List α} {n : ℕ} {a : α}
    (h : (l ++ l')[n]? = some a) :
    (l[n]? = some a ∧ (l ++ l').take n = l.take n) ∨
      l.length ≤ n ∧ l'[n - l.length]? = some a := by
  rcases Nat.lt_or_ge n l.length with hlt | hle
  · rw [List.getElem?_append_left hlt] at h
    exact Or.inl ⟨h, List.take_append_of_le_length hlt.le⟩
  · rw [List.getElem?_append_right hle] at h
    exact Or.inr ⟨hle, h⟩

/-- A round sets the parameters up to the next message, and publishes that or not. -/
theorem publish_events (hfile : file.WellFormed) (st : State) (p : ℕ) (sub : Subscription) :
    ∃ published, (published = [] ∨ published = [.published p sub.nextReadPos]) ∧
      (st.publish b file p sub).events = st.events ++
        ((List.range' st.lastAdditionalMessagePos
          (sub.nextReadPos - st.lastAdditionalMessagePos)).filter (file.isApplied b)).map
            .applied ++
        published := by
  refine ⟨if st.Publishes sub then [.published p sub.nextReadPos] else [], ?_, ?_⟩
  · split
    · exact Or.inr rfl
    · exact Or.inl rfl
  · rw [← additional_eq hfile]
    rfl

theorem Applied.publish {st : State} {high : ℕ} (hfile : file.WellFormed)
    (h : Applied b file st high)
    {p : ℕ} {sub : Subscription}
    (hforward : ∀ i < st.lastAdditionalMessagePos, sub.nextReadPos ≤ i →
      file.isApplied b i = false) :
    Applied b file (st.publish b file p sub) (max high sub.nextReadPos) := by
  obtain ⟨published, hpublished, hevents⟩ := publish_events (b := b) hfile st p sub
  have hhandled : applications (st.events ++ ((List.range' st.lastAdditionalMessagePos
      (sub.nextReadPos - st.lastAdditionalMessagePos)).filter (file.isApplied b)).map .applied) =
      (List.range (max high sub.nextReadPos)).filter (file.isApplied b) := by
    rw [applications_append, applications_map, h.applied]
    exact filter_range_max h.le h.quiet _
  refine ⟨le_max_right _ _, ?_, ?_, ?_⟩
  · have hnone : applications published = [] := by rcases hpublished with rfl | rfl <;> rfl
    rw [hevents, applications_append, hhandled, hnone, List.append_nil]
  · intro i hi hi'
    rcases Nat.lt_or_ge i st.lastAdditionalMessagePos with hlt | hge
    · exact hforward i hlt hi
    · exact h.quiet i hge ((lt_max_iff.1 hi').resolve_right (Nat.not_lt_of_le hi))
  · intro n q j hevent
    rw [hevents] at hevent ⊢
    rcases getElem?_append_cases hevent with ⟨hevent, htake⟩ | ⟨hle, hevent⟩
    · rcases getElem?_append_cases hevent with ⟨hevent, htake'⟩ | ⟨-, hevent⟩
      · obtain ⟨hj, hbefore⟩ := h.before n q j hevent
        rw [htake, htake']
        exact ⟨hj.trans (le_max_left _ _), hbefore⟩
      · obtain ⟨i, -, hi⟩ := List.mem_map.1 (List.mem_of_getElem? hevent)
        cases hi
    · obtain rfl : j = sub.nextReadPos := by
        rcases hpublished with rfl | rfl
        · cases hevent
        · cases List.mem_singleton.1 (List.mem_of_getElem? hevent)
          rfl
      refine ⟨le_max_right _ _, fun i hi happlied => ?_⟩
      have hmem : .applied i ∈ st.events ++ ((List.range' st.lastAdditionalMessagePos
          (sub.nextReadPos - st.lastAdditionalMessagePos)).filter (file.isApplied b)).map
            .applied := by
        rw [← mem_applications, hhandled, List.mem_filter]
        exact ⟨List.mem_range.2 (lt_max_of_lt_right hi), happlied⟩
      rw [List.take_append, List.take_of_length_le hle]
      exact List.mem_append_left _ hmem

theorem Applied.start (b : Build) (file : LogFile) : Applied b file (start b file) 0 := by
  obtain ⟨hcursor, hevents⟩ : Silent _ (Replay.start b file) :=
    readAndAddSubscription_silent (fun st sub msgId =>
      nextDataMessageLoop_silent _ _ _ _ st sub msgId)
      file.fileFormats _ 0 file.first
  refine ⟨hcursor.le, ?_, fun i _ hi => absurd hi (Nat.not_lt_zero i), ?_⟩
  · rw [hevents]
    rfl
  · intro n p j hevent
    rw [hevents] at hevent
    cases hevent

theorem Applied.step (hfile : file.WellFormed) {st st' : State} (h : ∃ high, Applied b file st high)
    (hforward : st.Forward b file) (hstep : step b file st = some st') :
    ∃ high, Applied b file st' high := by
  obtain ⟨high, h⟩ := h
  rcases step_silent hstep with hsilent | ⟨i, p, sub, hnext, hne, hsilent⟩
  · exact ⟨high, h.silent hsilent⟩
  · rw [State.Forward, hnext] at hforward
    exact ⟨_, (h.publish hfile (hforward hne)).silent hsilent⟩

/-! ## The parameters are followed -/

theorem getLast?_of_mem {l : List ℕ} (h : l.Pairwise (· < ·)) {i : ℕ} (hi : i ∈ l) :
    ∃ k, l.getLast? = some k ∧ i ≤ k :=
  ⟨_, List.getLast?_eq_some_getLast (List.ne_nil_of_mem hi), (h.imp Nat.le_of_lt).rel_getLast hi⟩

theorem Applied.follows {st : State} {high : ℕ} (h : Applied b file st high) :
    FollowsParameters b file st.events := by
  have hascending : (applications st.events).Pairwise (· < ·) := by
    rw [h.applied]
    exact List.pairwise_lt_range.filter _
  refine ⟨fun p j hmem i hi happlied => ?_, hascending, fun n p j hevent =>
    (h.before n p j hevent).2, ?_⟩
  · obtain ⟨n, hn⟩ := List.mem_iff_getElem?.1 hmem
    have hbefore := (h.before n p j hn).2 i hi happlied
    exact List.nodup_iff_count_eq_one.1 (hascending.imp Nat.ne_of_lt) i
      (mem_applications.2 (List.mem_of_mem_take hbefore))
  · intro n p j hevent i name hi hname
    have hsub : (applications (st.events.take n)).Sublist (applications st.events) :=
      (List.take_sublist _ _).filterMap _
    exact getLast?_of_mem ((hascending.sublist hsub).filter _)
      (List.mem_filter.2 ⟨mem_applications.2 hi, decide_eq_true hname⟩)

/-- In a replay whose rounds all go forward, the parameters of the log are followed. -/
theorem parameters_followed (b : Build) (file : LogFile) (hfile : file.WellFormed) (n : ℕ)
    (hforward : ∀ k < n, (reached b file k).Forward b file) :
    FollowsParameters b file (reached b file n).events := by
  obtain ⟨high, h⟩ : ∃ high, Applied b file (reached b file n) high :=
    rounds_invariant (fun _ _ hst hok hstep => Applied.step hfile hst hok hstep)
      ⟨0, Applied.start b file⟩ hforward
  exact h.follows

/-- A log with two messages of the topic `a`, a parameter that is set in front of and behind the
second one, and a last message of the topic `b`. -/
def parameterLog (timestamp : UInt8) : LogFile where
  fileFormats _ := "uint64_t timestamp;".toList
  first := ⟨0, 1, "a".toList⟩
  rest :=
    [.addLoggedMsg ⟨0, 2, "b".toList⟩, .data 1 [30, 0, 0, 0, 0, 0, 0, 0],
      .parameter "int32_t P".toList [1, 0, 0, 0], .data 1 [40, 0, 0, 0, 0, 0, 0, 0],
      .parameter "int32_t P".toList [2, 0, 0, 0], .data 2 [timestamp, 0, 0, 0, 0, 0, 0, 0]]

theorem parameterLog_wellFormed (timestamp : UInt8) : (parameterLog timestamp).WellFormed := by
  intro key value hmem
  have hkey : key = "int32_t P".toList := by
    obtain ⟨i, hi⟩ := List.mem_iff_getElem?.1 hmem
    rcases i with _ | _ | _ | _ | _ | _ | _ | i
    case succ.succ.succ.zero => exact (Message.parameter.inj (Option.some_inj.1 hi)).1.symm
    case succ.succ.succ.succ.succ.zero =>
      exact (Message.parameter.inj (Option.some_inj.1 hi)).1.symm
    all_goals cases hi
  rw [hkey]
  decide

/-- In the order of the file, the parameters are followed. -/
theorem parameters_followed_forward :
    FollowsParameters timeBuild (parameterLog 50) (reached timeBuild (parameterLog 50) 3).events :=
  parameters_followed timeBuild (parameterLog 50) (parameterLog_wellFormed 50) 3 (by decide +kernel)

/-- When the last message is the first one to be published, the first value of the parameter is set
again, and the second message of `a` is published with it. -/
theorem parameters_set_again :
    ¬FollowsParameters timeBuild (parameterLog 20)
      (reached timeBuild (parameterLog 20) 3).events := by
  intro h
  have hevents : (reached timeBuild (parameterLog 20) 3).events =
      [.applied 3, .applied 5, .published 1 6, .published 0 2, .applied 3, .published 0 4] := by
    decide +kernel
  have hcount := h.once 1 6 (by rw [hevents]; decide) 3 (by decide) (by decide +kernel)
  rw [hevents] at hcount
  cases hcount

end Replay
end DtPhm
