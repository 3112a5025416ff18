import DtPhm.Replay.Scanning

/-!
# Tracks — the subscriptions on the heap

What a subscription has published at any time are its messages before the one that it waits at, in
the order of the file.

* `LogFile.valid` — the messages of a subscription before a position;
* `positions` — the messages that a subscription has published;
* `Tracks` — the invariant of the main loop;
* `step_spec`, `Tracks.step` — what a round does, and that it keeps the invariant.
-/

namespace DtPhm
namespace Replay

open Lib

variable {b : Build} {file : LogFile}

/-! ## Messages to be published -/

/-- The message at a position is one of the subscription, with a timestamp. -/
def LogFile.isValid (file : LogFile) (sub : Subscription) (msgId i : ℕ) : Bool :=
  (file.timestampAt sub msgId i).any fun timestamp => decide (timestamp ≠ 0)

/-- The messages of the subscription at `p` that are to be published, up to a position. -/
def LogFile.valid (file : LogFile) (sub : Subscription) (msgId p stop : ℕ) : List ℕ :=
  (List.range stop).filter fun i => p < i && file.isValid sub msgId i

theorem isValid_of_none {sub : Subscription} {msgId i : ℕ}
    (h : file.timestampAt sub msgId i = none) : file.isValid sub msgId i = false := by
  rw [LogFile.isValid, h]
  rfl

theorem isValid_of_some {sub : Subscription} {msgId i timestamp : ℕ}
    (h : file.timestampAt sub msgId i = some timestamp) :
    file.isValid sub msgId i = decide (timestamp ≠ 0) := by
  rw [LogFile.isValid, h]
  rfl

theorem valid_succ (file : LogFile) (sub : Subscription) (msgId : ℕ) {p i : ℕ} (h : p < i) :
    file.valid sub msgId p (i + 1) =
      file.valid sub msgId p i ++ if file.isValid sub msgId i then [i] else [] := by
  rw [LogFile.valid, List.range_succ, List.filter_append, LogFile.valid]
  congr 1
  cases hvalid : file.isValid sub msgId i <;> simp [hvalid, h]

theorem valid_of_le (file : LogFile) (sub : Subscription) (msgId : ℕ) {p i : ℕ} (h : i ≤ p + 1) :
    file.valid sub msgId p i = [] := by
  rw [LogFile.valid, List.filter_eq_nil_iff]
  intro j hj
  have : ¬p < j := by
    have := List.mem_range.1 hj
    omega
  simp [this]

theorem valid_eq {sub : Subscription} {msgId p i j : ℕ} (hp : p < i) (hij : i ≤ j)
    (h : ∀ k, i ≤ k → k < j → file.isValid sub msgId k = false) :
    file.valid sub msgId p j = file.valid sub msgId p i := by
  induction j, hij using Nat.le_induction with
  | base => rfl
  | succ j hij ih =>
      rw [valid_succ _ _ _ (hp.trans_le hij), h j hij (Nat.lt_succ_self j),
        ih fun k hk hk' => h k hk (hk'.trans (Nat.lt_succ_self j))]
      exact List.append_nil _

theorem mem_valid {sub : Subscription} {msgId p stop i : ℕ} :
    i ∈ file.valid sub msgId p stop ↔ i < stop ∧ p < i ∧ file.isValid sub msgId i = true := by
  simp [LogFile.valid, List.mem_filter]

/-! ## Published messages -/

/-- The position of a message that a subscription has published. -/
def Event.position (pointer : ℕ) : Event → Option ℕ
  | .applied _ => none
  | .published subscription position => if subscription = pointer then some position else none

/-- The messages that a subscription has published. -/
def positions (pointer : ℕ) (events : List Event) : List ℕ :=
  events.filterMap (Event.position pointer)

@[simp] theorem positions_append (pointer : ℕ) (events events' : List Event) :
    positions pointer (events ++ events') = positions pointer events ++ positions pointer events' :=
  List.filterMap_append

theorem published_not_mem_additional (b : Build) (ms : List Message) (position : ℕ) :
    ∀ e ∈ readAndHandleAdditionalMessages b ms position, ∃ i, e = .applied i := by
  induction ms generalizing position with
  | nil => simp [readAndHandleAdditionalMessages]
  | cons m ms ih =>
      cases m with
      | parameter key value =>
          rw [readAndHandleAdditionalMessages]
          split
          · simp
          · exact List.forall_mem_cons.2 ⟨⟨_, rfl⟩, ih _⟩
          · exact ih _
      | addLoggedMsg add => exact ih _
      | data msgId payload => exact ih _
      | other => exact ih _

theorem positions_additional (pointer : ℕ) (b : Build) (ms : List Message) (position : ℕ) :
    positions pointer (readAndHandleAdditionalMessages b ms position) = [] := by
  rw [positions, List.filterMap_eq_nil_iff]
  intro e he
  obtain ⟨i, rfl⟩ := published_not_mem_additional b ms position e he
  rfl

/-! ## Subscriptions on the heap -/

theorem mem_active {st : State} {i p : ℕ} {sub : Subscription} :
    (i, p, sub) ∈ st.active ↔
      i < st.size ∧ st.subscriptions i = some p ∧ st.heap p = some sub ∧
        sub.orbMeta.isSome = true := by
  simp only [State.active, List.mem_filterMap, List.mem_range, Option.bind_eq_some_iff]
  constructor
  · rintro ⟨j, hj, q, hq, sub', hsub', hsome⟩
    split at hsome
    · rename_i hmeta
      cases hsome
      exact ⟨hj, hq, hsub', hmeta⟩
    · cases hsome
  · rintro ⟨hi, hp, hsub, hmeta⟩
    exact ⟨i, hi, p, hp, sub, hsub, if_pos hmeta⟩

theorem timestampAt_congr {sub sub' : Subscription} (hmeta : sub.orbMeta = sub'.orbMeta)
    (hoffset : sub.timestampOffset = sub'.timestampOffset) (msgId i : ℕ) :
    file.timestampAt sub msgId i = file.timestampAt sub' msgId i := by
  rw [LogFile.timestampAt, LogFile.timestampAt]
  congr 1
  funext m
  cases m <;> simp only [Subscription.timestamp, hmeta, hoffset]

theorem added_spec {p i : ℕ} {sub : Subscription} (h : file.added b p = some (i, sub)) :
    ∃ sub₀ q timestamp, file.accepted b p = some (i, sub₀) ∧
      seek sub₀ i (file.messages.drop (p + 1)) (p + 1) = sub ∧
      sub = { sub₀ with nextReadPos := q, nextTimestamp := timestamp } ∧ p < q ∧
      file.timestampAt sub₀ i q = some timestamp ∧
      ∀ k, p < k → k < q → file.timestampAt sub₀ i k = none := by
  rw [LogFile.added, Option.bind_eq_some_iff] at h
  obtain ⟨⟨j, sub₀⟩, haccepted, hfound⟩ := h
  dsimp only at hfound
  rcases seek_spec file sub₀ j (p + 1) with ⟨hseek, -⟩ | ⟨q, timestamp, hq, htime, hseek, hall⟩
  · rw [hseek] at hfound
    cases hfound
  · rw [hseek] at hfound
    split at hfound
    · cases hfound
      exact ⟨sub₀, q, timestamp, haccepted, hseek, rfl, hq, htime, hall⟩
    · cases hfound

theorem timestampAt_of_not_added {p i : ℕ} {sub₀ : Subscription}
    (haccepted : file.accepted b p = some (i, sub₀)) (hmeta : sub₀.orbMeta.isSome = true)
    (h : file.added b p = none) : ∀ k, p < k → file.timestampAt sub₀ i k = none := by
  rw [LogFile.added, haccepted] at h
  rcases seek_spec file sub₀ i (p + 1) with ⟨-, hall⟩ | ⟨q, timestamp, -, -, hseek, -⟩
  · exact hall
  · simp only [Option.bind_some, hseek, hmeta] at h
    cases h

/-- The subscription on the heap is the one that was accepted, and what it has published are its
messages before a position. -/
structure Kept (b : Build) (file : LogFile) (st : State) (p : ℕ) (sub : Subscription) (msgId : ℕ)
    (sub₀ : Subscription) (stop : ℕ) : Prop where
  accepted : file.accepted b p = some (msgId, sub₀)
  multiId : sub.multiId = sub₀.multiId
  offset : sub.timestampOffset = sub₀.timestampOffset
  published : sub₀.multiId = 0 → positions p st.events = file.valid sub₀ msgId p stop

/-- It waits at its next message. -/
structure Waits (b : Build) (file : LogFile) (st : State) (p : ℕ) (sub : Subscription) (msgId : ℕ)
    (sub₀ : Subscription) : Prop extends Kept b file st p sub msgId sub₀ sub.nextReadPos where
  orbMeta : sub.orbMeta = sub₀.orbMeta
  lt : p < sub.nextReadPos
  timestamp : file.timestampAt sub₀ msgId sub.nextReadPos = some sub.nextTimestamp
  read : ∀ q ≤ sub.nextReadPos, file.IsAdd q → q < st.subscriptionFilePos

/-- It has no messages left. -/
structure Ends (b : Build) (file : LogFile) (st : State) (p : ℕ) (sub : Subscription) (msgId : ℕ)
    (sub₀ : Subscription) : Prop extends Kept b file st p sub msgId sub₀ file.messages.length where
  orbMeta : sub.orbMeta = none

theorem Kept.mono {st st' : State} {p msgId stop : ℕ} {sub sub₀ : Subscription}
    (h : Kept b file st p sub msgId sub₀ stop)
    (hevents : positions p st'.events = positions p st.events) :
    Kept b file st' p sub msgId sub₀ stop :=
  { h with published := fun hzero => hevents.trans (h.published hzero) }

theorem Waits.mono {st st' : State} {p msgId : ℕ} {sub sub₀ : Subscription}
    (h : Waits b file st p sub msgId sub₀)
    (hevents : positions p st'.events = positions p st.events)
    (hle : st.subscriptionFilePos ≤ st'.subscriptionFilePos) : Waits b file st' p sub msgId sub₀ :=
  { h.toKept.mono hevents, h with read := fun q hq hadd => (h.read q hq hadd).trans_le hle }

theorem Ends.mono {st st' : State} {p msgId : ℕ} {sub sub₀ : Subscription}
    (h : Ends b file st p sub msgId sub₀)
    (hevents : positions p st'.events = positions p st.events) :
    Ends b file st' p sub msgId sub₀ :=
  { h.toKept.mono hevents, h with }

/-- The invariant of the main loop. -/
structure Tracks (b : Build) (file : LogFile) (st : State) : Prop where
  fresh : ∀ p, st.subscriptionFilePos ≤ p → st.heap p = none
  object : ∀ p sub, st.heap p = some sub → ∃ msgId sub₀,
    Waits b file st p sub msgId sub₀ ∨ Ends b file st p sub msgId sub₀
  quiet : ∀ p, st.heap p = none → positions p st.events = []
  onHeap : ∀ p i sub, p < st.subscriptionFilePos → file.added b p = some (i, sub) →
    st.heap p ≠ none
  pointer : ∀ i p, st.subscriptions i = some p → p < st.subscriptionFilePos ∧ i < st.size ∧
    ∃ sub, file.added b p = some (i, sub)
  pointed : ∀ p i sub, p < st.subscriptionFilePos → file.added b p = some (i, sub) →
    ∃ q, st.subscriptions i = some q
  live : (∀ q, file.IsAdd q → q < st.subscriptionFilePos) ∨ st.active ≠ []
  sound : ∀ p k, Event.published p k ∈ st.events → ∃ i sub,
    file.added b p = some (i, sub) ∧ file.timestampAt sub i k ≠ none

theorem not_isAdd_of_timestampAt {sub : Subscription} {msgId i timestamp : ℕ}
    (h : file.timestampAt sub msgId i = some timestamp) : ¬file.IsAdd i := by
  rintro ⟨add, hadd⟩
  rw [LogFile.timestampAt, hadd] at h
  cases h

theorem Reads.waits {st st' : State} (h : Reads b file st st') {p i : ℕ} {sub : Subscription}
    (hp : st.subscriptionFilePos ≤ p) (hp' : p < st'.subscriptionFilePos)
    (hadded : file.added b p = some (i, sub)) (hquiet : positions p st'.events = []) :
    ∃ sub₀, Waits b file st' p sub i sub₀ := by
  obtain ⟨sub₀, q, timestamp, haccepted, hseek, rfl, hlt, htime, hall⟩ := added_spec hadded
  refine ⟨sub₀, ⟨haccepted, rfl, rfl, fun _ => ?_⟩, rfl, hlt, htime, fun k hk hadd => ?_⟩
  · have hnone : file.valid sub₀ i p q = file.valid sub₀ i p (p + 1) :=
      valid_eq (Nat.lt_succ_self p) hlt fun k hk hk' => isValid_of_none (hall k hk hk')
    rw [hquiet, hnone, valid_of_le _ _ _ le_rfl]
  · rcases Nat.lt_or_eq_of_le hk with hk | rfl
    · exact h.passed p i sub₀ hp hp' haccepted k hadd (by rw [hseek]; exact Or.inr hk)
    · exact absurd hadd (not_isAdd_of_timestampAt htime)

theorem Reads.heap_eq {st st' : State} (h : Reads b file st st') {p : ℕ} {sub : Subscription}
    (hp : st.subscriptionFilePos ≤ p) (hsub : st'.heap p = some sub) :
    p < st'.subscriptionFilePos ∧ ∃ i, file.added b p = some (i, sub) := by
  have hp' : p < st'.subscriptionFilePos := by
    by_contra hle
    rw [h.fresh p (Nat.le_of_not_lt hle)] at hsub
    cases hsub
  rw [h.heap p hp hp', Option.map_eq_some_iff] at hsub
  obtain ⟨⟨i, sub'⟩, hadded, rfl⟩ := hsub
  exact ⟨hp', i, hadded⟩

theorem added_isSome {p i : ℕ} {sub : Subscription} (h : file.added b p = some (i, sub)) :
    sub.orbMeta.isSome = true := by
  rw [LogFile.added, Option.bind_eq_some_iff] at h
  obtain ⟨⟨j, sub₀⟩, -, hfound⟩ := h
  dsimp only at hfound
  split at hfound
  · rename_i hsome
    cases hfound
    exact hsome
  · cases hfound

theorem Reads.active {st st' : State} (h : Reads b file st st') {i q : ℕ} {sub : Subscription}
    (hq : st.subscriptionFilePos ≤ q) (hq' : q < st'.subscriptionFilePos)
    (hadded : file.added b q = some (i, sub)) (hpointer : st'.subscriptions i = some q) :
    (i, q, sub) ∈ st'.active := by
  refine mem_active.2 ⟨(h.pointed q i sub hq hq' hadded).1, hpointer, ?_, added_isSome hadded⟩
  rw [h.heap q hq hq', hadded]
  rfl

/-- After a subscription has been accepted, all subscriptions have been read, or one is active. -/
theorem Reads.live {st st' : State} (h : Reads b file st st') {p i : ℕ} {sub₀ : Subscription}
    (hp : st.subscriptionFilePos ≤ p) (hp' : p < st'.subscriptionFilePos)
    (haccepted : file.accepted b p = some (i, sub₀)) :
    (∀ q, file.IsAdd q → q < st'.subscriptionFilePos) ∨ st'.active ≠ [] := by
  by_cases hmeta : (seek sub₀ i (file.messages.drop (p + 1)) (p + 1)).orbMeta = none
  · exact Or.inl fun q hq => h.passed p i sub₀ hp hp' haccepted q hq (Or.inl hmeta)
  · have hadded : file.added b p =
        some (i, seek sub₀ i (file.messages.drop (p + 1)) (p + 1)) := by
      rw [LogFile.added, haccepted]
      exact if_pos (Option.isSome_iff_ne_none.2 hmeta)
    obtain ⟨-, q, sub, hq, hq', hadded', hpointer⟩ := h.pointed p i _ hp hp' hadded
    exact Or.inr (List.ne_nil_of_mem (h.active hq hq' hadded' hpointer))

theorem Tracks.start (haccepted : (file.accepted b 0).isSome = true) :
    Tracks b file (start b file) := by
  have hdrop : file.messages.drop (0 + 1) = file.rest := rfl
  have hsearch : ReadsOn b file (0 + 1) (nextDataMessageLoop b file.fileFormats file.rest 1) := by
    intro st sub msgId hs
    obtain ⟨hreads, hall⟩ := nextDataMessageLoop_reads hdrop hs
    exact ⟨hreads, nextDataMessageLoop_snd _ _ _ _ _ _ _, hall⟩
  have hscanned : Scanned file ⟨fun _ => none, fun _ => none, 0, 0, 0, []⟩ 0 :=
    ⟨fun p hp => absurd hp (Nat.not_lt_zero p), fun _ _ => rfl⟩
  obtain ⟨hreads, hzero⟩ : Reads b file _ (Replay.start b file) ∧ _ :=
    readAndAddSubscription_reads hscanned rfl hsearch
  have hquiet : ∀ p, positions p (Replay.start b file).events = [] := by
    intro p
    rw [hreads.events]
    rfl
  refine
    { fresh := hreads.fresh
      object := fun p sub hsub => ?_
      quiet := fun p _ => hquiet p
      onHeap := fun p i sub hp hadded => ?_
      pointer := fun i p hp => ?_
      pointed := fun p i sub hp hadded => ?_
      live := ?_
      sound := fun p i hmem => ?_ }
  · obtain ⟨hp, i, hadded⟩ := hreads.heap_eq (Nat.zero_le p) hsub
    obtain ⟨sub₀, hwaits⟩ := hreads.waits (Nat.zero_le p) hp hadded (hquiet p)
    exact ⟨i, sub₀, Or.inl hwaits⟩
  · rw [hreads.heap p (Nat.zero_le p) hp, hadded]
    simp
  · rcases hreads.pointer i with hsame | ⟨q, sub, -, hq, hadded, hpointer⟩
    · rw [hp] at hsame
      cases hsame
    · rw [hp] at hpointer
      cases hpointer
      exact ⟨hq, (hreads.pointed p i sub (Nat.zero_le p) hq hadded).1, sub, hadded⟩
  · obtain ⟨-, q, -, -, -, -, hpointer⟩ := hreads.pointed p i sub (Nat.zero_le p) hp hadded
    exact ⟨q, hpointer⟩
  · obtain ⟨⟨i, sub₀⟩, hsub₀⟩ := Option.isSome_iff_exists.1 haccepted
    exact hreads.live le_rfl hzero hsub₀
  · rw [hreads.events] at hmem
    cases hmem

/-! ## A round -/

/-- Between two states, the subscription at `p` has published its messages up to the present one,
and nothing else has changed. -/
structure Handled (b : Build) (file : LogFile) (st st' : State) (i p : ℕ) (sub : Subscription) :
    Prop where
  heap : st'.heap = st.heap
  subscriptions : st'.subscriptions = st.subscriptions
  size : st'.size = st.size
  mark : st'.subscriptionFilePos = st.subscriptionFilePos
  others : ∀ q, q ≠ p → positions q st'.events = positions q st.events
  published : ∀ sub₀, Waits b file st p sub i sub₀ → sub₀.multiId = 0 →
    positions p st'.events = file.valid sub₀ i p (sub.nextReadPos + 1)
  sound : ∀ q j, Event.published q j ∈ st'.events →
    Event.published q j ∈ st.events ∨ (q = p ∧ j = sub.nextReadPos)

/-- A subscription that is active waits at its next message, with the ID that it is found under. -/
theorem Tracks.waits {st : State} (h : Tracks b file st) {i p : ℕ} {sub : Subscription}
    (hentry : (i, p, sub) ∈ st.active) : ∃ sub₀, Waits b file st p sub i sub₀ := by
  obtain ⟨-, hpointer, hsub, hsome⟩ := mem_active.1 hentry
  obtain ⟨-, -, sub', hadded⟩ := h.pointer i p hpointer
  obtain ⟨sub₁, -, -, haccepted, -⟩ := added_spec hadded
  obtain ⟨msgId, sub₀, hwaits | hends⟩ := h.object p sub hsub
  · have hsame := hwaits.accepted
    rw [haccepted] at hsame
    cases hsame
    exact ⟨sub₁, hwaits⟩
  · rw [hends.orbMeta] at hsome
    cases hsome

theorem Waits.search {st st' : State} {i p : ℕ} {sub sub' sub₀ : Subscription}
    (h : Waits b file st p sub i sub₀) (hmeta : sub'.orbMeta = sub.orbMeta)
    (hmultiId : sub'.multiId = sub.multiId) (hoffset : sub'.timestampOffset = sub.timestampOffset)
    (hpublished : sub₀.multiId = 0 →
      positions p st'.events = file.valid sub₀ i p (sub.nextReadPos + 1))
    (hread : ∀ q, file.IsAdd q →
      ComesBy (seek sub' i (file.messages.drop (sub.nextReadPos + 1)) (sub.nextReadPos + 1)) q →
      q < st'.subscriptionFilePos) :
    Waits b file st' p
        (seek sub' i (file.messages.drop (sub.nextReadPos + 1)) (sub.nextReadPos + 1)) i sub₀ ∨
      Ends b file st' p
        (seek sub' i (file.messages.drop (sub.nextReadPos + 1)) (sub.nextReadPos + 1)) i sub₀ := by
  have hsame : ∀ k, file.timestampAt sub' i k = file.timestampAt sub₀ i k :=
    timestampAt_congr (hmeta.trans h.orbMeta) (hoffset.trans h.offset) i
  have hafter : p < sub.nextReadPos + 1 := h.lt.trans (Nat.lt_succ_self _)
  rcases seek_spec file sub' i (sub.nextReadPos + 1) with
    ⟨hseek, hall⟩ | ⟨q, timestamp, hq, htime, hseek, hall⟩
  · right
    have hle : sub.nextReadPos + 1 ≤ file.messages.length := by
      by_contra hlt
      have hnone : file.timestampAt sub₀ i sub.nextReadPos = none := by
        rw [LogFile.timestampAt, List.getElem?_eq_none (Nat.le_of_lt_succ (Nat.lt_of_not_le hlt))]
        rfl
      rw [h.timestamp] at hnone
      cases hnone
    rw [hseek]
    refine ⟨⟨h.accepted, hmultiId.trans h.multiId, hoffset.trans h.offset, fun hzero => ?_⟩, rfl⟩
    rw [hpublished hzero, valid_eq hafter hle]
    intro k hk _
    exact isValid_of_none ((hsame k).symm.trans (hall k hk))
  · left
    rw [hseek] at hread ⊢
    refine ⟨⟨h.accepted, hmultiId.trans h.multiId, hoffset.trans h.offset, fun hzero => ?_⟩,
      hmeta.trans h.orbMeta, hafter.trans_le hq, (hsame q).symm.trans htime, fun k hk hadd => ?_⟩
    · show positions p st'.events = file.valid sub₀ i p q
      rw [hpublished hzero, valid_eq hafter hq]
      intro k hk hk'
      exact isValid_of_none ((hsame k).symm.trans (hall k hk hk'))
    · rcases Nat.lt_or_eq_of_le hk with hlt | rfl
      · exact hread k hadd (Or.inr hlt)
      · exact absurd hadd (not_isAdd_of_timestampAt htime)

/-- A subscription goes on to its next message: all subscriptions that its search comes by are
read. -/
theorem Tracks.reads {st st₁ : State} (h : Tracks b file st) {i p : ℕ} {sub sub' : Subscription}
    (hentry : (i, p, sub) ∈ st.active) (hst : Handled b file st st₁ i p sub)
    (hnext : sub'.nextReadPos = sub.nextReadPos) :
    ∃ st₂ sub₂, st₁.advance b file i p sub' =
        { st₂ with heap := Function.update st₂.heap p (some sub₂) } ∧
      sub₂ = seek sub' i (file.messages.drop (sub.nextReadPos + 1)) (sub.nextReadPos + 1) ∧
      Reads b file st₁ st₂ ∧ ∀ q, file.IsAdd q → ComesBy sub₂ q → q < st₂.subscriptionFilePos := by
  obtain ⟨sub₀, hwaits⟩ := h.waits hentry
  have hscanned : Scanned file st₁ (sub.nextReadPos + 1) := by
    refine ⟨fun q hq hadd => ?_, fun q hq => ?_⟩
    · rw [hst.mark]
      exact hwaits.read q (Nat.le_of_lt_succ hq) hadd
    · rw [hst.heap]
      exact h.fresh q (hst.mark ▸ hq)
  have hseek := nextDataMessageLoop_snd b file.fileFormats
    (file.messages.drop (sub.nextReadPos + 1)) (sub.nextReadPos + 1) st₁ sub' i
  obtain ⟨hreads, hread⟩ : Reads b file st₁ (nextDataMessageLoop b file.fileFormats
      (file.messages.drop (sub.nextReadPos + 1)) (sub.nextReadPos + 1) st₁ sub' i).1 ∧ _ :=
    nextDataMessageLoop_reads rfl hscanned
  refine ⟨_, _, ?_, hseek, hreads, ?_⟩
  · rw [State.advance, nextDataMessage, hnext]
  · rw [hseek]
    exact hread

section Reading

variable {st st₁ st₂ : State} {i p : ℕ} {sub : Subscription} (h : Tracks b file st)
  (hst : Handled b file st st₁ i p sub) (hreads : Reads b file st₁ st₂)
include h hst hreads

omit h in
theorem Handled.heap_reads {q : ℕ} (hq : q < st.subscriptionFilePos) : st₂.heap q = st.heap q := by
  rw [hreads.kept q (hst.mark ▸ hq), hst.heap]

theorem Tracks.quiet_reads {q : ℕ} (hne : q ≠ p) (hq : st.heap q = none) :
    positions q st₂.events = [] := by
  rw [hreads.events, hst.others q hne, h.quiet q hq]

theorem Tracks.object_reads {q : ℕ} {sub' : Subscription} (hne : q ≠ p)
    (hq : st₂.heap q = some sub') : ∃ msgId sub₀,
      Waits b file st₂ q sub' msgId sub₀ ∨ Ends b file st₂ q sub' msgId sub₀ := by
  rcases Nat.lt_or_ge q st.subscriptionFilePos with hlt | hge
  · have hle : st.subscriptionFilePos ≤ st₂.subscriptionFilePos := hst.mark ▸ hreads.le
    have hpos : positions q st₂.events = positions q st.events := by
      rw [hreads.events, hst.others q hne]
    rw [hst.heap_reads hreads hlt] at hq
    obtain ⟨msgId, sub₀, hobject | hobject⟩ := h.object q sub' hq
    · exact ⟨msgId, sub₀, Or.inl (hobject.mono hpos hle)⟩
    · exact ⟨msgId, sub₀, Or.inr (hobject.mono hpos)⟩
  · obtain ⟨hq', j, hadded⟩ := hreads.heap_eq (hst.mark ▸ hge) hq
    obtain ⟨sub₀, hobject⟩ := hreads.waits (hst.mark ▸ hge) hq' hadded
      (h.quiet_reads hst hreads hne (h.fresh q hge))
    exact ⟨j, sub₀, Or.inl hobject⟩

theorem Tracks.onHeap_reads {q j : ℕ} {sub' : Subscription} (hq : q < st₂.subscriptionFilePos)
    (hadded : file.added b q = some (j, sub')) : st₂.heap q ≠ none := by
  intro hnone
  rcases Nat.lt_or_ge q st.subscriptionFilePos with hlt | hge
  · exact h.onHeap q j sub' hlt hadded (by rw [← hst.heap_reads hreads hlt, hnone])
  · rw [hreads.heap q (hst.mark ▸ hge) hq, hadded] at hnone
    cases hnone

theorem Tracks.pointer_reads {j q : ℕ} (hq : st₂.subscriptions j = some q) :
    q < st₂.subscriptionFilePos ∧ j < st₂.size ∧ ∃ sub', file.added b q = some (j, sub') := by
  rcases hreads.pointer j with hsame | ⟨r, sub', hr, hr', hadded, hnew⟩
  · have hold : st.subscriptions j = some q := by
      rw [← hst.subscriptions, ← hsame]
      exact hq
    obtain ⟨hlt, hsize, hadded⟩ := h.pointer j q hold
    exact ⟨hlt.trans_le (hst.mark ▸ hreads.le), hsize.trans_le (hst.size ▸ hreads.size), hadded⟩
  · obtain rfl : r = q := Option.some_inj.1 (hnew.symm.trans hq)
    exact ⟨hr', (hreads.pointed r j sub' hr hr' hadded).1, sub', hadded⟩

theorem Tracks.pointed_reads {q j : ℕ} {sub' : Subscription} (hq : q < st₂.subscriptionFilePos)
    (hadded : file.added b q = some (j, sub')) : ∃ r, st₂.subscriptions j = some r := by
  rcases Nat.lt_or_ge q st.subscriptionFilePos with hlt | hge
  · obtain ⟨r, hr⟩ := h.pointed q j sub' hlt hadded
    rcases hreads.pointer j with hsame | ⟨r', -, -, -, -, hnew⟩
    · exact ⟨r, hsame.trans (hst.subscriptions ▸ hr)⟩
    · exact ⟨r', hnew⟩
  · obtain ⟨-, r, -, -, -, -, hnew⟩ := hreads.pointed q j sub' (hst.mark ▸ hge) hq hadded
    exact ⟨r, hnew⟩

end Reading

theorem Tracks.advance {st st₁ : State} (h : Tracks b file st) {i p : ℕ} {sub sub' : Subscription}
    (hentry : (i, p, sub) ∈ st.active) (hst : Handled b file st st₁ i p sub)
    (hmeta : sub'.orbMeta = sub.orbMeta) (hmultiId : sub'.multiId = sub.multiId)
    (hoffset : sub'.timestampOffset = sub.timestampOffset)
    (hnext : sub'.nextReadPos = sub.nextReadPos) : Tracks b file (st₁.advance b file i p sub') := by
  obtain ⟨hi, hpointer, hsub, hsome⟩ := mem_active.1 hentry
  obtain ⟨hp, -, sub₁, hadded₁⟩ := h.pointer i p hpointer
  obtain ⟨sub₀, hwaits⟩ := h.waits hentry
  obtain ⟨st₂, sub₂, hadvance, hseek, hreads, hread⟩ := h.reads hentry hst hnext
  rw [hadvance]
  have hevents : st₂.events = st₁.events := hreads.events
  have hp₂ : p < st₂.subscriptionFilePos := hp.trans_le (hst.mark ▸ hreads.le)
  have hupdate : Function.update st₂.heap p (some sub₂) p = some sub₂ := Function.update_self _ _ _
  have hself : Waits b file { st₂ with heap := Function.update st₂.heap p (some sub₂) } p sub₂ i
      sub₀ ∨
      Ends b file { st₂ with heap := Function.update st₂.heap p (some sub₂) } p sub₂ i sub₀ := by
    rw [hseek] at hread ⊢
    refine hwaits.search hmeta hmultiId hoffset (fun hzero => ?_) hread
    exact (congrArg (positions p) hevents).trans (hst.published sub₀ hwaits hzero)
  refine
    { fresh := fun q hq => ?_
      object := fun q sub'' hq => ?_
      quiet := fun q hq => ?_
      onHeap := fun q j sub'' hq hadded => ?_
      pointer := fun j q hq => h.pointer_reads hst hreads hq
      pointed := fun q j sub'' hq hadded => h.pointed_reads hst hreads hq hadded
      live := ?_
      sound := fun q j hmem => ?_ }
  · have hne : q ≠ p := fun heq => absurd hp₂ (Nat.not_lt_of_le (heq ▸ hq))
    exact (Function.update_of_ne hne _ _).trans (hreads.fresh q hq)
  · by_cases hne : q = p
    · subst hne
      obtain rfl : sub₂ = sub'' := Option.some_inj.1 (hupdate.symm.trans hq)
      exact ⟨i, sub₀, hself⟩
    · obtain ⟨msgId, sub₁, hobject | hobject⟩ := h.object_reads hst hreads hne
        ((Function.update_of_ne hne _ _).symm.trans hq)
      · exact ⟨msgId, sub₁, Or.inl (hobject.mono rfl le_rfl)⟩
      · exact ⟨msgId, sub₁, Or.inr (hobject.mono rfl)⟩
  · have hne : q ≠ p := by
      rintro rfl
      exact Option.some_ne_none sub₂ (hupdate.symm.trans hq)
    refine h.quiet_reads hst hreads hne ?_
    rcases Nat.lt_or_ge q st.subscriptionFilePos with hlt | hge
    · rw [← hst.heap_reads hreads hlt]
      exact (Function.update_of_ne hne _ _).symm.trans hq
    · exact h.fresh q hge
  · by_cases hne : q = p
    · subst hne
      exact fun hnone => Option.some_ne_none sub₂ (hupdate.symm.trans hnone)
    · exact fun hnone => h.onHeap_reads hst hreads hq hadded
        ((Function.update_of_ne hne _ _).symm.trans hnone)
  · rcases hself with hwaits₂ | hends₂
    · refine Or.inr ?_
      rcases hreads.pointer i with hsame | ⟨r, sub'', hr, hr', hadded, hnew⟩
      -- the index still points to the subscription, or to one that was found on the way
      · refine List.ne_nil_of_mem (mem_active.2 ⟨hi.trans_le (hst.size ▸ hreads.size), ?_,
          Function.update_self _ _ _, ?_⟩)
        · exact hsame.trans (hst.subscriptions ▸ hpointer)
        · rw [hwaits₂.orbMeta, ← hwaits.orbMeta]
          exact hsome
      · have hne : r ≠ p := fun heq => absurd (hst.mark ▸ hp) (Nat.not_lt_of_le (heq ▸ hr))
        obtain ⟨hsize, hpointer', hheap, hmeta'⟩ := mem_active.1 (hreads.active hr hr' hadded hnew)
        exact List.ne_nil_of_mem (mem_active.2 ⟨hsize, hpointer',
          (Function.update_of_ne hne _ _).trans hheap, hmeta'⟩)
    · exact Or.inl fun q hq => hread q hq (Or.inl hends₂.orbMeta)
  · rw [hevents] at hmem
    rcases hst.sound q j hmem with hold | ⟨rfl, rfl⟩
    · exact h.sound q j hold
    · obtain ⟨sub₀', r, timestamp, haccepted, -, rfl, -⟩ := added_spec hadded₁
      rw [hwaits.accepted] at haccepted
      cases haccepted
      refine ⟨i, _, hadded₁, ?_⟩
      have hsame : file.timestampAt { sub₀ with nextReadPos := r, nextTimestamp := timestamp } i
          sub.nextReadPos = file.timestampAt sub₀ i sub.nextReadPos := timestampAt_congr rfl rfl _ _
      rw [hsame, hwaits.timestamp]
      exact Option.some_ne_none _

/-! ## The main loop -/

theorem foldl_choice {α : Type*} {choose : Option α → α → Option α}
    (h : ∀ best a, choose best a = some a ∨ best ≠ none ∧ choose best a = best) (l : List α)
    (best : Option α) :
    l.foldl choose best = best ∧ (best ≠ none ∨ l = []) ∨
      ∃ a ∈ l, l.foldl choose best = some a := by
  induction l generalizing best with
  | nil => exact Or.inl ⟨rfl, Or.inr rfl⟩
  | cons a l ih =>
      rw [List.foldl_cons]
      rcases ih (choose best a) with ⟨hsame, -⟩ | ⟨c, hc, hlast⟩
      · rcases h best a with hnew | ⟨hbest, hkept⟩
        · exact Or.inr ⟨a, List.mem_cons_self, hsame.trans hnew⟩
        · exact Or.inl ⟨hsame.trans hkept, Or.inl hbest⟩
      · exact Or.inr ⟨c, List.mem_cons_of_mem a hc, hlast⟩

/-- The next message is one of an active subscription; there is none only if there are no more
active ones. -/
theorem next_spec (st : State) :
    (st.next = none ∧ st.active = []) ∨ ∃ entry ∈ st.active, st.next = some entry := by
  rw [State.next]
  generalize hchoose : (fun best candidate => _ : Option (ℕ × ℕ × Subscription) →
    ℕ × ℕ × Subscription → Option (ℕ × ℕ × Subscription)) = choose
  have hspec : ∀ best candidate, choose best candidate = some candidate ∨
      best ≠ none ∧ choose best candidate = best := by
    intro best candidate
    subst hchoose
    cases best with
    | none => exact Or.inl rfl
    | some best =>
        dsimp only
        split
        · exact Or.inl rfl
        · exact Or.inr ⟨Option.some_ne_none best, rfl⟩
  rcases foldl_choice hspec st.active none with ⟨hnone, hne | hnil⟩ | ⟨entry, hmem, hnext⟩
  · exact absurd rfl hne
  · exact Or.inl ⟨hnone, hnil⟩
  · exact Or.inr ⟨entry, hmem, hnext⟩

theorem handled_of_zero {st : State} {i p : ℕ} {sub : Subscription}
    (hzero : sub.nextTimestamp = 0) :
    Handled b file st st i p sub where
  heap := rfl
  subscriptions := rfl
  size := rfl
  mark := rfl
  others _ _ := rfl
  published sub₀ hwaits hinstance := by
    have hinvalid : file.isValid sub₀ i sub.nextReadPos = false := by
      rw [isValid_of_some hwaits.timestamp, hzero]
      rfl
    rw [hwaits.published hinstance, valid_succ _ _ _ hwaits.lt, hinvalid]
    exact (List.append_nil _).symm
  sound _ _ hmem := Or.inl hmem

theorem mem_publish_events {st : State} {p q k : ℕ} {sub : Subscription}
    (h : Event.published q k ∈ (st.publish b file p sub).events) :
    Event.published q k ∈ st.events ∨ (q = p ∧ k = sub.nextReadPos) := by
  rcases List.mem_append.1 h with h | h
  · rcases List.mem_append.1 h with h | h
    · exact Or.inl h
    · obtain ⟨i, hi⟩ := published_not_mem_additional _ _ _ _ h
      cases hi
  · right
    split at h
    · cases List.mem_singleton.1 h
      exact ⟨rfl, rfl⟩
    · cases h

theorem handled_publish {st : State} {i p : ℕ} {sub : Subscription} (hne : sub.nextTimestamp ≠ 0) :
    Handled b file st (st.publish b file p sub) i p sub where
  heap := rfl
  subscriptions := rfl
  size := rfl
  mark := rfl
  others q hq := by
    rw [State.publish]
    dsimp only
    rw [positions_append, positions_append, positions_additional, List.append_nil]
    have hnone :
        positions q (if st.Publishes sub then [Event.published p sub.nextReadPos] else []) =
        [] := by
      split
      · exact List.filterMap_eq_nil_iff.2 fun e he => by
          rw [List.mem_singleton.1 he]
          exact if_neg hq.symm
      · rfl
    rw [hnone, List.append_nil]
  published sub₀ hwaits hinstance := by
    have hvalid : file.isValid sub₀ i sub.nextReadPos = true := by
      rw [isValid_of_some hwaits.timestamp]
      exact decide_eq_true hne
    have hpublishes : st.Publishes sub := Or.inr (Or.inl (hwaits.multiId.trans hinstance))
    have hsingle : positions p [Event.published p sub.nextReadPos] = [sub.nextReadPos] := by
      simp [positions, Event.position]
    rw [State.publish]
    dsimp only
    rw [if_pos hpublishes, positions_append, positions_append, positions_additional,
      List.append_nil,
      hsingle, hwaits.published hinstance, valid_succ _ _ _ hwaits.lt, hvalid, if_pos rfl]
  sound _ _ hmem := mem_publish_events hmem

theorem step_spec {st st' : State} (h : step b file st = some st') :
    ∃ i p sub st₁ sub', (i, p, sub) ∈ st.active ∧ Handled b file st st₁ i p sub ∧
      sub'.orbMeta = sub.orbMeta ∧ sub'.multiId = sub.multiId ∧
      sub'.timestampOffset = sub.timestampOffset ∧ sub'.nextReadPos = sub.nextReadPos ∧
      st' = st₁.advance b file i p sub' := by
  rw [step] at h
  rcases next_spec st with ⟨hnext, -⟩ | ⟨⟨i, p, sub⟩, hentry, hnext⟩
  · rw [hnext] at h
    cases h
  · rw [hnext] at h
    dsimp only at h
    split at h
    · rename_i hzero
      exact ⟨i, p, sub, st, sub, hentry, handled_of_zero hzero, rfl, rfl, rfl, rfl,
        (Option.some_inj.1 h).symm⟩
    · rename_i hne
      exact ⟨i, p, sub, _, { sub with advertised := sub.advertised || decide (st.Publishes sub) },
        hentry, handled_publish hne, rfl, rfl, rfl, rfl, (Option.some_inj.1 h).symm⟩

theorem Tracks.step {st st' : State} (h : Tracks b file st) (hstep : step b file st = some st') :
    Tracks b file st' := by
  obtain ⟨i, p, sub, st₁, sub', hentry, hst, hmeta, hmultiId, hoffset, hnext, rfl⟩ :=
      step_spec hstep
  exact h.advance hentry hst hmeta hmultiId hoffset hnext

end Replay
end DtPhm
