import DtPhm.Replay.Tracks
import Mathlib.Algebra.Order.BigOperators.Group.Finset

/-!
# Complete — every message is published

A replay goes on until no subscription has messages left; all subscriptions have been read by then,
and those that are still pointed to have published their messages.

* `reached_finished` — the loop comes to its end;
* `Replayed`, `LogFile.expected` — what is to be published;
* `replay_complete` — when all of it is published.
-/

namespace DtPhm
namespace Replay

open Lib

variable {b : Build} {file : LogFile}

/-! ## The end of the loop -/

/-- How far a subscription is from the end of the file. -/
def remaining (file : LogFile) : Option Subscription → ℕ
  | none => file.messages.length + 1
  | some sub => if sub.orbMeta.isSome then file.messages.length - sub.nextReadPos else 0

/-- How far the subscriptions are from the end of the file. -/
def measure (file : LogFile) (st : State) : ℕ :=
  ∑ p ∈ Finset.range file.messages.length, remaining file (st.heap p)

theorem remaining_le (file : LogFile) (sub : Option Subscription) :
    remaining file sub ≤ file.messages.length + 1 := by
  rw [remaining.eq_def]
  split
  · exact le_rfl
  · split
    · exact (Nat.sub_le _ _).trans (Nat.le_succ _)
    · exact Nat.zero_le _

theorem lt_length_of_timestampAt {sub : Subscription} {msgId k timestamp : ℕ}
    (h : file.timestampAt sub msgId k = some timestamp) : k < file.messages.length := by
  rw [LogFile.timestampAt, Option.bind_eq_some_iff] at h
  obtain ⟨m, hm, -⟩ := h
  exact (List.getElem?_eq_some_iff.1 hm).1

theorem measure_lt {st st' : State} (h : Tracks b file st) (hstep : step b file st = some st') :
    measure file st' < measure file st := by
  obtain ⟨i, p, sub, st₁, sub', hentry, hst, hmeta, -, -, hnext, rfl⟩ := step_spec hstep
  obtain ⟨-, hpointer, hsub, hsome⟩ := mem_active.1 hentry
  obtain ⟨sub₀, hwaits⟩ := h.waits hentry
  obtain ⟨st₂, sub₂, hadvance, hseek, hreads, -⟩ := h.reads hentry hst hnext
  have hlt : sub.nextReadPos < file.messages.length := lt_length_of_timestampAt hwaits.timestamp
  have hnearer : remaining file (some sub₂) < remaining file (st.heap p) := by
    rw [hsub, remaining, remaining, if_pos hsome, hseek]
    rcases seek_spec file sub' i (sub.nextReadPos + 1) with
      ⟨hend, -⟩ | ⟨q, timestamp, hq, htime, hfound, -⟩
    · rw [hend]
      exact Nat.sub_pos_of_lt hlt
    · rw [hfound, if_pos (hmeta ▸ hsome)]
      exact Nat.sub_lt_sub_left hlt hq
  rw [hadvance, measure, measure]
  dsimp only
  refine Finset.sum_lt_sum (fun q _ => ?_) ⟨p, Finset.mem_range.2 (hwaits.lt.trans hlt), ?_⟩
  · by_cases hq : q = p
    · subst hq
      rw [Function.update_self]
      exact hnearer.le
    · rw [Function.update_of_ne hq]
      rcases Nat.lt_or_ge q st.subscriptionFilePos with hold | hnew
      · rw [hreads.kept q (hst.mark ▸ hold), hst.heap]
      · rw [h.fresh q hnew]
        exact remaining_le _ _
  · rw [Function.update_self]
    exact hnearer

theorem reached_tracks (haccepted : (file.accepted b 0).isSome = true) (n : ℕ) :
    Tracks b file (reached b file n) :=
  rounds_invariant (fun _ _ hst (_ : True) hstep => Tracks.step hst hstep) (Tracks.start haccepted)
    fun _ _ => trivial

theorem reached_finished (haccepted : (file.accepted b 0).isSome = true) :
    ∃ n, step b file (reached b file n) = none :=
  exists_finished (measure file)
    (fun _ _ hst hstep => ⟨Tracks.step hst hstep, measure_lt hst hstep⟩) (Tracks.start haccepted)

theorem reached_of_not_accepted (h : file.accepted b 0 = none) (n : ℕ) :
    step b file (reached b file n) = none ∧ (reached b file n).events = [] := by
  have hsubscribe : b.subscribe file.fileFormats 0 file.first = none := Option.map_eq_none_iff.1 h
  have hstart : start b file = ⟨fun _ => none, fun _ => none, 0, 1, 0, []⟩ := by
    rw [start, readAndAddSubscription, hsubscribe]
    rfl
  have hend : step b file (start b file) = none := by
    rw [hstart]
    rfl
  have hreached : reached b file n = start b file := by
    induction n with
    | zero => rfl
    | succ n ih => rw [reached, rounds_succ, ← reached, ih, hend, Option.getD_none]
  rw [hreached]
  exact ⟨hend, by rw [hstart]⟩

theorem active_of_finished {st : State} (h : step b file st = none) : st.active = [] := by
  rcases next_spec st with ⟨-, hnil⟩ | ⟨entry, -, hnext⟩
  · exact hnil
  · rw [step, hnext] at h
    dsimp only at h
    split at h <;> cases h

/-- At the end, a subscription that no other one has taken the place of has published its
messages. -/
theorem Tracks.finished {st : State} (h : Tracks b file st) (hactive : st.active = []) {p i : ℕ}
    {sub₀ : Subscription} (haccepted : file.accepted b p = some (i, sub₀))
    (hmeta : sub₀.orbMeta.isSome = true) (hinstance : sub₀.multiId = 0)
    (hvalid : file.valid sub₀ i p file.messages.length ≠ [])
    (halone : ∀ q sub, file.added b q = some (i, sub) → q = p) :
    positions p st.events = file.valid sub₀ i p file.messages.length := by
  obtain ⟨k, hk⟩ := List.exists_mem_of_ne_nil _ hvalid
  obtain ⟨-, hpk, hvalid⟩ := mem_valid.1 hk
  have hread : p < st.subscriptionFilePos := by
    rcases h.live with hall | hlive
    · refine hall p (by_contra fun hadd => ?_)
      rw [LogFile.accepted_of_not_isAdd hadd] at haccepted
      cases haccepted
    · exact absurd hactive hlive
  cases hadded : file.added b p with
  | none =>
      rw [isValid_of_none (timestampAt_of_not_added haccepted hmeta hadded k hpk)] at hvalid
      cases hvalid
  | some found =>
      obtain ⟨j, sub⟩ := found
      obtain ⟨sub₁, -, -, haccepted', -⟩ := added_spec hadded
      rw [haccepted] at haccepted'
      cases haccepted'
      obtain ⟨sub', hsub'⟩ := Option.ne_none_iff_exists'.1 (h.onHeap p i sub hread hadded)
      obtain ⟨msgId, sub₁, hwaits | hends⟩ := h.object p sub' hsub'
      · -- a subscription that waits would be active
        have hsame := hwaits.accepted
        rw [haccepted] at hsame
        cases hsame
        obtain ⟨q, hq⟩ := h.pointed p i sub hread hadded
        obtain ⟨-, hsize, sub'', hadded'⟩ := h.pointer i q hq
        obtain rfl : q = p := halone q sub'' hadded'
        have hmem : (i, q, sub') ∈ st.active :=
          mem_active.2 ⟨hsize, hq, hsub', hwaits.orbMeta ▸ hmeta⟩
        rw [hactive] at hmem
        cases hmem
      · have hsame := hends.accepted
        rw [haccepted] at hsame
        cases hsame
        exact hends.published hinstance

/-! ## What is to be published -/

/-- A subscription of the first instance whose topic is known, with the same format and a
timestamp. -/
structure Replayed (b : Build) (file : LogFile) (a : ℕ) (add : AddLoggedMsg) (topic : OrbMetadata)
    (offset : ℕ) : Prop where
  message : file.messages[a]? = some (.addLoggedMsg add)
  multiId : add.multiId = 0
  known : b.findTopic add.messageName = some topic
  format : file.fileFormats add.messageName = topic.oFields
  timestamp : b.findFieldOffset topic.oFields "timestamp".toList = some (offset, 8)

/-- The message at a position is one of the subscription, with the expected size and a timestamp
that is not 0. -/
def LogFile.isExpected (file : LogFile) (add : AddLoggedMsg) (topic : OrbMetadata) (offset i : ℕ) :
    Bool :=
  match file.messages[i]? with
  | some (.data msgId payload) =>
      decide (msgId = add.msgId ∧ payload.length = topic.oSizeNoPadding ∧
        leValue ((payload.drop offset).take 8) ≠ 0)
  | _ => false

/-- The messages of the subscription at `a` that are to be published. -/
def LogFile.expected (file : LogFile) (a : ℕ) (add : AddLoggedMsg) (topic : OrbMetadata)
    (offset : ℕ) :
    List ℕ :=
  (List.range file.messages.length).filter fun i => a < i && file.isExpected add topic offset i

/-- The message that is published. -/
def Event.message : Event → Option ℕ
  | .applied _ => none
  | .published _ position => some position

/-- All that is published of some messages. -/
def publications (messages : List ℕ) (events : List Event) : List Event :=
  events.filter fun e => e.message.any (· ∈ messages)

/-- The replay comes to its end, and each message that is to be published has been published once,
by its own subscription and in the order of the file. -/
def Complete (b : Build) (file : LogFile) : Prop :=
  ∃ n, step b file (reached b file n) = none ∧
    ∀ a add topic offset, Replayed b file a add topic offset →
      publications (file.expected a add topic offset) (reached b file n).events =
        (file.expected a add topic offset).map (Event.published a)

variable {a offset : ℕ} {add : AddLoggedMsg} {topic : OrbMetadata}

theorem Replayed.accepted (h : Replayed b file a add topic offset) :
    ∃ sub, file.accepted b a = some (add.readId.toNat, sub) ∧ sub.multiId = 0 ∧
      sub.orbMeta = some topic ∧ sub.timestampOffset = offset := by
  have hsubscribe : b.subscribe file.fileFormats a add = some
      { orbMeta := some topic
        advertised := false
        multiId := add.multiId
        timestampOffset := offset
        nextReadPos := a
        nextTimestamp := 0
        compat := decide (file.fileFormats add.messageName ≠ topic.oFields) } := by
    simp only [Build.subscribe, h.known, h.format, h.timestamp]
    simp
  have haccepted : file.accepted b a = (b.subscribe file.fileFormats a add).map fun sub =>
      (add.readId.toNat, sub) := by rw [LogFile.accepted, h.message]
  rw [haccepted, hsubscribe]
  exact ⟨_, rfl, h.multiId, rfl, rfl⟩

theorem isExpected_eq {sub : Subscription} (hmeta : sub.orbMeta = some topic)
    (hoffset : sub.timestampOffset = offset) (i : ℕ) :
    file.isExpected add topic offset i = file.isValid sub add.msgId.toNat i := by
  rw [LogFile.isExpected, LogFile.isValid, LogFile.timestampAt]
  cases file.messages[i]? with
  | none => rfl
  | some m =>
      cases m with
      | data msgId payload =>
          simp only [Option.bind_some, Subscription.timestamp, hmeta, hoffset, Option.map_some,
            Option.some_inj, UInt16.toNat_inj]
          by_cases hsame : add.msgId = msgId ∧ payload.length = topic.oSizeNoPadding
          · obtain ⟨rfl, hsize⟩ := hsame
            simp [hsize]
          · rw [if_neg hsame]
            exact decide_eq_false fun h => hsame ⟨h.1.symm, h.2.1⟩
      | addLoggedMsg add => rfl
      | parameter key value => rfl
      | other => rfl

theorem expected_eq {sub : Subscription} (hmeta : sub.orbMeta = some topic)
    (hoffset : sub.timestampOffset = offset) :
    file.expected a add topic offset = file.valid sub add.msgId.toNat a file.messages.length := by
  rw [LogFile.expected, LogFile.valid]
  simp only [isExpected_eq hmeta hoffset]

theorem msgId_of_timestampAt {sub : Subscription} {i k : ℕ} (h : file.timestampAt sub i k ≠ none)
    (hk : k ∈ file.expected a add topic offset) : i = add.msgId.toNat := by
  obtain ⟨-, hexpected⟩ := List.mem_filter.1 hk
  obtain ⟨-, hexpected⟩ := Bool.and_eq_true_iff.1 hexpected
  rw [LogFile.isExpected] at hexpected
  split at hexpected
  · rename_i msgId payload hmessage
    obtain ⟨rfl, -⟩ := of_decide_eq_true hexpected
    rw [LogFile.timestampAt, hmessage, Option.bind_some, Subscription.timestamp] at h
    split at h
    · rename_i hsame
      exact hsame.1
    · exact absurd rfl h
  · cases hexpected

theorem publications_published (messages : List ℕ) (p k : ℕ) (events : List Event) :
    publications messages (.published p k :: events) =
      if k ∈ messages then .published p k :: publications messages events
      else publications messages events := by
  simp [publications, List.filter_cons, Event.message]

theorem positions_published (a p k : ℕ) (events : List Event) :
    positions a (.published p k :: events) =
      if p = a then k :: positions a events else positions a events := by
  rw [positions, List.filterMap_cons, Event.position]
  by_cases hp : p = a
  · simp only [hp, if_true]
    rfl
  · simp only [hp, if_false]
    rfl

theorem publications_eq {messages : List ℕ} {events : List Event}
    (h : ∀ p k, Event.published p k ∈ events → k ∈ messages → p = a) :
    publications messages events =
      ((positions a events).filter (· ∈ messages)).map (Event.published a) := by
  induction events with
  | nil => rfl
  | cons e events ih =>
      have ih := ih fun p k hmem => h p k (List.mem_cons_of_mem e hmem)
      cases e with
      | applied i => exact ih
      | published p k =>
          rw [publications_published, positions_published]
          by_cases hk : k ∈ messages
          · obtain rfl : p = a := h p k List.mem_cons_self hk
            simp only [hk, if_true, List.filter_cons, decide_true, List.map_cons, ih]
          · rw [if_neg hk, ih]
            split
            · rw [List.filter_cons_of_neg (by simp [hk])]
            · rfl

/-! ## When all messages are published -/

/-- A subscription that has messages to be published. -/
structure Wanted (b : Build) (file : LogFile) (a : ℕ) (add : AddLoggedMsg) (topic : OrbMetadata)
    (offset : ℕ) : Prop extends Replayed b file a add topic offset where
  nonempty : file.expected a add topic offset ≠ []

/-- What a log must be like for a complete replay, as soon as there are messages to be published:
the first subscription is not ignored, the IDs are read as they are, and no subscription that has
messages is read with the ID of another one. -/
structure Readable (b : Build) (file : LogFile) : Prop where
  first : ∀ {a add topic offset}, Wanted b file a add topic offset →
    (b.subscribe file.fileFormats 0 file.first).isSome = true
  readId : ∀ {a add topic offset}, Wanted b file a add topic offset → add.readId = add.msgId
  alone : ∀ {a add topic offset}, Wanted b file a add topic offset → ∀ p sub k,
    file.accepted b p = some (add.msgId.toNat, sub) → p < k →
    file.timestampAt sub add.msgId.toNat k ≠ none → p = a

theorem accepted_zero (b : Build) (file : LogFile) :
    (file.accepted b 0).isSome = (b.subscribe file.fileFormats 0 file.first).isSome :=
  Option.isSome_map

theorem Readable.complete (h : Readable b file) : Complete b file := by
  have hnone : ∀ {a add topic offset} (events : List Event), file.expected a add topic offset = [] →
      publications (file.expected a add topic offset) events =
        (file.expected a add topic offset).map (Event.published a) := by
    intro a add topic offset events hnil
    rw [hnil, publications, List.map_nil, List.filter_eq_nil_iff]
    intro e _
    cases e <;> simp [Event.message]
  cases haccepted : file.accepted b 0 with
  | none =>
      -- nothing is to be published
      obtain ⟨hend, -⟩ := reached_of_not_accepted haccepted 0
      refine ⟨0, hend, fun a add topic offset hreplayed => hnone _ (by_contra fun hne => ?_)⟩
      have hfirst := h.first ⟨hreplayed, hne⟩
      rw [← accepted_zero, haccepted] at hfirst
      cases hfirst
  | some found =>
      have hsome : (file.accepted b 0).isSome = true := Option.isSome_of_eq_some haccepted
      obtain ⟨n, hend⟩ := reached_finished hsome
      have htracks := reached_tracks hsome n
      refine ⟨n, hend, fun a add topic offset hreplayed => ?_⟩
      by_cases hnil : file.expected a add topic offset = []
      · exact hnone _ hnil
      have hwanted : Wanted b file a add topic offset := ⟨hreplayed, hnil⟩
      obtain ⟨sub, hsub, hinstance, hmeta, hoffset⟩ := hreplayed.accepted
      rw [h.readId hwanted] at hsub
      have halone : ∀ p sub', file.added b p = some (add.msgId.toNat, sub') → p = a := by
        intro p sub' hadded
        obtain ⟨sub₀, k, timestamp, haccepted', -, -, hlt, htime, -⟩ := added_spec hadded
        exact h.alone hwanted p sub₀ k haccepted' hlt (by simp [htime])
      have heq : file.expected a add topic offset = _ := expected_eq hmeta hoffset
      have hpublished : positions a (reached b file n).events =
          file.expected a add topic offset := by
        rw [heq]
        exact htracks.finished (active_of_finished hend) hsub (by rw [hmeta]; rfl) hinstance
          (heq ▸ hnil) halone
      have hown : ∀ p k, Event.published p k ∈ (reached b file n).events →
          k ∈ file.expected a add topic offset → p = a := by
        intro p k hmem hk
        obtain ⟨i, sub', hadded, htime⟩ := htracks.sound p k hmem
        obtain rfl : i = add.msgId.toNat := msgId_of_timestampAt htime hk
        exact halone p sub' hadded
      rw [publications_eq hown, hpublished, List.filter_eq_self.2 fun k hk => decide_eq_true hk]

theorem Complete.readable (h : Complete b file) (hwanted : Wanted b file a add topic offset) :
    (b.subscribe file.fileFormats 0 file.first).isSome = true ∧ add.readId = add.msgId := by
  obtain ⟨n, -, hall⟩ := h
  have hpublished := hall a add topic offset hwanted.toReplayed
  obtain ⟨k, hk⟩ := List.exists_mem_of_ne_nil _ hwanted.nonempty
  have hmem : Event.published a k ∈ (reached b file n).events := by
    have hmem : Event.published a k ∈
        publications (file.expected a add topic offset) (reached b file n).events := by
      rw [hpublished]
      exact List.mem_map_of_mem hk
    exact (List.mem_filter.1 hmem).1
  cases haccepted : file.accepted b 0 with
  | none =>
      rw [(reached_of_not_accepted haccepted n).2] at hmem
      cases hmem
  | some found =>
      have hsome : (file.accepted b 0).isSome = true := Option.isSome_of_eq_some haccepted
      obtain ⟨i, sub, hadded, htime⟩ := (reached_tracks hsome n).sound a k hmem
      obtain ⟨sub₀, -, -, haccepted', -⟩ := added_spec hadded
      obtain ⟨sub₁, hsub₁, -⟩ := hwanted.toReplayed.accepted
      rw [haccepted'] at hsub₁
      cases hsub₁
      exact ⟨accepted_zero b file ▸ hsome, UInt16.toNat_inj.1 (msgId_of_timestampAt htime hk)⟩

/-- A log is readable if its first subscription is not ignored and its IDs are distinct and read as
they are. -/
theorem readable_of_distinct (hfirst : (b.subscribe file.fileFormats 0 file.first).isSome = true)
    (hids : ∀ (p : ℕ) (add : AddLoggedMsg), file.messages[p]? = some (.addLoggedMsg add) →
      add.readId = add.msgId)
    (hdistinct : ∀ (p q : ℕ) (add add' : AddLoggedMsg),
      file.messages[p]? = some (.addLoggedMsg add) →
      file.messages[q]? = some (.addLoggedMsg add') → add.msgId = add'.msgId → p = q) :
    Readable b file where
  first _ := hfirst
  readId hwanted := hids _ _ hwanted.message
  alone {a add _ _} hwanted p sub _ haccepted _ _ := by
    rw [LogFile.accepted] at haccepted
    split at haccepted
    · rename_i add' hmessage
      obtain ⟨sub', -, hfound⟩ := Option.map_eq_some_iff.1 haccepted
      have hid : add'.readId.toNat = add.msgId.toNat := congrArg Prod.fst hfound
      rw [hids p add' hmessage, UInt16.toNat_inj] at hid
      exact hdistinct p a add' add hmessage hwanted.message hid
    · cases haccepted

/-- A replay is complete for a log that is readable, and only where the first subscription is not
ignored and the IDs are read as they are. -/
theorem replay_complete (b : Build) (file : LogFile) :
    (Readable b file → Complete b file) ∧
      (Complete b file → ∀ a add topic offset, Wanted b file a add topic offset →
        (b.subscribe file.fileFormats 0 file.first).isSome = true ∧ add.readId = add.msgId) :=
  ⟨Readable.complete, fun h _ _ _ _ hwanted => h.readable hwanted⟩

/-! ### Logs with one message -/

/-- A log that starts with a subscription of some topic, and has a message of the topic `b`. -/
def timeLog (name : Text) (msgId : UInt16) : LogFile where
  fileFormats _ := "uint64_t timestamp;".toList
  first := ⟨0, 1, name⟩
  rest := [.addLoggedMsg ⟨0, msgId, "b".toList⟩, .data msgId [30, 0, 0, 0, 0, 0, 0, 0]]

theorem timeLog_wanted (name : Text) (msgId : UInt16) :
    Wanted timeBuild (timeLog name msgId) 1 ⟨0, msgId, "b".toList⟩ (timeTopic "b".toList) 0 where
  message := rfl
  multiId := rfl
  known := by
    have hknown : timeBuild.findTopic "b".toList = some (timeTopic "b".toList) := by decide
    exact hknown
  format := rfl
  timestamp := by decide +kernel
  nonempty := by
    have hexpected : (timeLog name msgId).isExpected ⟨0, msgId, "b".toList⟩ (timeTopic "b".toList) 0
        2 =
        true := decide_eq_true ⟨rfl, rfl, by decide⟩
    have hmem : 2 ∈ (timeLog name msgId).expected 1 ⟨0, msgId, "b".toList⟩ (timeTopic "b".toList)
        0 :=
      List.mem_filter.2 ⟨List.mem_range.2 (Nat.lt_succ_self 2), hexpected⟩
    exact List.ne_nil_of_mem hmem

theorem timeLog_complete : Complete timeBuild (timeLog "a".toList 2) := by
  have hadd : ∀ (p : ℕ) (add : AddLoggedMsg),
      (timeLog "a".toList 2).messages[p]? = some (.addLoggedMsg add) →
        p = 0 ∧ add = ⟨0, 1, "a".toList⟩ ∨ p = 1 ∧ add = ⟨0, 2, "b".toList⟩ := by
    intro p add hmessage
    rcases p with _ | _ | _ | p
    · exact Or.inl ⟨rfl, (Message.addLoggedMsg.inj (Option.some_inj.1 hmessage)).symm⟩
    · exact Or.inr ⟨rfl, (Message.addLoggedMsg.inj (Option.some_inj.1 hmessage)).symm⟩
    · cases hmessage
    · cases hmessage
  refine (replay_complete _ _).1 (readable_of_distinct (by decide +kernel) ?_ ?_)
  · intro p add hmessage
    rcases hadd p add hmessage with ⟨-, rfl⟩ | ⟨-, rfl⟩ <;> decide +kernel
  · intro p q add add' hp hq hid
    rcases hadd p add hp with ⟨rfl, rfl⟩ | ⟨rfl, rfl⟩ <;>
      rcases hadd q add' hq with ⟨rfl, rfl⟩ | ⟨rfl, rfl⟩ <;> first | rfl | cases hid

/-- A first topic that is not known ends the replay, and so does an ID that is read as another
one. -/
theorem replay_incomplete :
    ¬Complete timeBuild (timeLog "z".toList 2) ∧ ¬Complete timeBuild (timeLog "a".toList 0x80) := by
  constructor
  · intro h
    have hfirst := (h.readable (timeLog_wanted _ _)).1
    revert hfirst
    decide +kernel
  · intro h
    have hid := (h.readable (timeLog_wanted _ _)).2
    revert hid
    decide +kernel

end Replay
end DtPhm
