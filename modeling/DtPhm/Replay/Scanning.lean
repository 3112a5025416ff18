import DtPhm.Replay.Replay

/-!
# Scanning — what the readers find

The two readers of `Replay` call each other, but what they find does not depend on that: a search
ends at the next message of its subscription, and all subscriptions that it comes by have been read
then, each with a search of its own.

* `seek` — the search on its own;
* `Reads` — two states between which the subscriptions up to a position have been read;
* `nextDataMessageLoop_reads` — the search, with the subscriptions that it comes by.
-/

namespace DtPhm
namespace Replay

open Lib

/-! ## One search -/

/-- The next message of a subscription. -/
def seek (sub : Subscription) (msgId : ℕ) : List Message → (position : ℕ) → Subscription
  | [], _ => { sub with orbMeta := none }
  | m :: ms, position =>
      match sub.timestamp msgId m with
      | some timestamp => { sub with nextReadPos := position, nextTimestamp := timestamp }
      | none => seek sub msgId ms (position + 1)

theorem seek_of_some {sub : Subscription} {msgId : ℕ} {m : Message} {timestamp : ℕ}
    (h : sub.timestamp msgId m = some timestamp) (ms : List Message) (position : ℕ) :
    seek sub msgId (m :: ms) position =
      { sub with nextReadPos := position, nextTimestamp := timestamp } := by
  simp only [seek, h]

theorem seek_of_none {sub : Subscription} {msgId : ℕ} {m : Message}
    (h : sub.timestamp msgId m = none) (ms : List Message) (position : ℕ) :
    seek sub msgId (m :: ms) position = seek sub msgId ms (position + 1) := by
  simp only [seek, h]

theorem isSome_of_timestamp {sub : Subscription} {msgId : ℕ} {m : Message} {timestamp : ℕ}
    (h : sub.timestamp msgId m = some timestamp) : sub.orbMeta.isSome = true := by
  cases m with
  | data fileMsgId payload =>
      rw [Subscription.timestamp] at h
      split at h
      · rename_i hsize
        cases hmeta : sub.orbMeta with
        | none =>
            rw [hmeta] at hsize
            cases hsize.2
        | some topic => rfl
      · cases h
  | addLoggedMsg add => cases h
  | parameter key value => cases h
  | other => cases h

variable {b : Build} {file : LogFile}

theorem nextDataMessageLoop_snd (b : Build) (fileFormats : Text → Text) (ms : List Message)
    (position : ℕ) (st : State) (sub : Subscription) (msgId : ℕ) :
    (nextDataMessageLoop b fileFormats ms position st sub msgId).2 =
      seek sub msgId ms position := by
  induction ms generalizing position st with
  | nil => rfl
  | cons m ms ih =>
      cases m with
      | addLoggedMsg add =>
          rw [nextDataMessageLoop, seek_of_none rfl]
          exact ih _ _
      | data fileMsgId payload =>
          cases h : sub.timestamp msgId (.data fileMsgId payload) with
          | none =>
              simp only [nextDataMessageLoop, h, seek_of_none h]
              exact ih _ _
          | some timestamp => simp only [nextDataMessageLoop, h, seek_of_some h]
      | parameter key value =>
          simp only [nextDataMessageLoop, Subscription.timestamp, seek]
          exact ih _ _
      | other =>
          simp only [nextDataMessageLoop, Subscription.timestamp, seek]
          exact ih _ _

/-- The timestamp of the message at a position, if it is one of the subscription. -/
def LogFile.timestampAt (file : LogFile) (sub : Subscription) (msgId position : ℕ) : Option ℕ :=
  file.messages[position]?.bind (sub.timestamp msgId)

theorem drop_eq_cons {m : Message} {ms : List Message} {position : ℕ}
    (h : file.messages.drop position = m :: ms) :
    file.messages[position]? = some m ∧ file.messages.drop (position + 1) = ms := by
  constructor
  · rw [← List.head?_drop, h]
    rfl
  · rw [← List.tail_drop, h]
    rfl

/-- A search ends at the end of the file, or at the first message of the subscription. -/
theorem seek_spec (file : LogFile) (sub : Subscription) (msgId position : ℕ) :
    (seek sub msgId (file.messages.drop position) position = { sub with orbMeta := none } ∧
        ∀ i, position ≤ i → file.timestampAt sub msgId i = none) ∨
      ∃ q timestamp, position ≤ q ∧ file.timestampAt sub msgId q = some timestamp ∧
        seek sub msgId (file.messages.drop position) position =
          { sub with nextReadPos := q, nextTimestamp := timestamp } ∧
        ∀ i, position ≤ i → i < q → file.timestampAt sub msgId i = none := by
  generalize hms : file.messages.drop position = ms
  induction ms generalizing position with
  | nil =>
      refine Or.inl ⟨rfl, fun i hi => ?_⟩
      have hle : file.messages.length ≤ i := (List.drop_eq_nil_iff.1 hms).trans hi
      rw [LogFile.timestampAt, List.getElem?_eq_none hle]
      rfl
  | cons m ms ih =>
      obtain ⟨hmessage, hdrop⟩ := drop_eq_cons hms
      have hat : file.timestampAt sub msgId position = sub.timestamp msgId m := by
        rw [LogFile.timestampAt, hmessage]
        rfl
      cases h : sub.timestamp msgId m with
      | some timestamp =>
          refine Or.inr ⟨position, timestamp, le_rfl, hat.trans h, seek_of_some h ms position, ?_⟩
          intro i hi hi'
          exact absurd hi (Nat.not_le_of_lt hi')
      | none =>
          rw [seek_of_none h]
          have hgo : ∀ {i}, position ≤ i → i ≠ position → position + 1 ≤ i :=
            fun hi hne => Nat.lt_of_le_of_ne hi hne.symm
          rcases ih (position + 1) hdrop with ⟨hseek, hall⟩ | ⟨q, timestamp, hq, htime, hseek, hall⟩
          · refine Or.inl ⟨hseek, fun i hi => ?_⟩
            by_cases hi' : i = position
            · rw [hi', hat, h]
            · exact hall i (hgo hi hi')
          · refine Or.inr ⟨q, timestamp, (Nat.le_succ _).trans hq, htime, hseek, fun i hi hlt => ?_⟩
            by_cases hi' : i = position
            · rw [hi', hat, h]
            · exact hall i (hgo hi hi') hlt

/-! ## The subscriptions of a file -/

/-- There is a subscription at this position. -/
def LogFile.IsAdd (file : LogFile) (p : ℕ) : Prop :=
  ∃ add, file.messages[p]? = some (.addLoggedMsg add)

/-- A subscription that is accepted, with the ID that is read for it. -/
def LogFile.accepted (file : LogFile) (b : Build) (p : ℕ) : Option (ℕ × Subscription) :=
  match file.messages[p]? with
  | some (.addLoggedMsg add) =>
      (b.subscribe file.fileFormats p add).map fun sub => (add.readId.toNat, sub)
  | _ => none

/-- A subscription that is added: it is accepted and has a message. -/
def LogFile.added (file : LogFile) (b : Build) (p : ℕ) : Option (ℕ × Subscription) :=
  (file.accepted b p).bind fun (msgId, sub) =>
    let sub := seek sub msgId (file.messages.drop (p + 1)) (p + 1)
    if sub.orbMeta.isSome then some (msgId, sub) else none

theorem LogFile.accepted_of_not_isAdd {p : ℕ} (h : ¬file.IsAdd p) : file.accepted b p = none := by
  rw [LogFile.accepted]
  split
  · rename_i add hadd
    exact absurd ⟨add, hadd⟩ h
  · rfl

theorem LogFile.added_of_not_accepted {p : ℕ} (h : file.accepted b p = none) :
    file.added b p = none := by
  rw [LogFile.added, h]
  rfl

/-- A position that a search comes by: before the message that it ends at, or any at all. -/
def ComesBy (sub : Subscription) (q : ℕ) : Prop := sub.orbMeta = none ∨ q < sub.nextReadPos

/-- All subscriptions before a position have been read, and nothing is on the heap behind the last
one that has. -/
structure Scanned (file : LogFile) (st : State) (position : ℕ) : Prop where
  read : ∀ p < position, file.IsAdd p → p < st.subscriptionFilePos
  fresh : ∀ p, st.subscriptionFilePos ≤ p → st.heap p = none

/-- Between two states, the subscriptions up to a position have been read, and nothing else has
changed. -/
structure Reads (b : Build) (file : LogFile) (st st' : State) : Prop where
  le : st.subscriptionFilePos ≤ st'.subscriptionFilePos
  kept : ∀ p < st.subscriptionFilePos, st'.heap p = st.heap p
  heap : ∀ p, st.subscriptionFilePos ≤ p → p < st'.subscriptionFilePos →
    st'.heap p = (file.added b p).map Prod.snd
  fresh : ∀ p, st'.subscriptionFilePos ≤ p → st'.heap p = none
  pointer : ∀ i, st'.subscriptions i = st.subscriptions i ∨
    ∃ p sub, st.subscriptionFilePos ≤ p ∧ p < st'.subscriptionFilePos ∧
      file.added b p = some (i, sub) ∧ st'.subscriptions i = some p
  pointed : ∀ p i sub, st.subscriptionFilePos ≤ p → p < st'.subscriptionFilePos →
    file.added b p = some (i, sub) → i < st'.size ∧
      ∃ q sub', st.subscriptionFilePos ≤ q ∧ q < st'.subscriptionFilePos ∧
        file.added b q = some (i, sub') ∧ st'.subscriptions i = some q
  passed : ∀ p i sub, st.subscriptionFilePos ≤ p → p < st'.subscriptionFilePos →
    file.accepted b p = some (i, sub) → ∀ q, file.IsAdd q →
    ComesBy (seek sub i (file.messages.drop (p + 1)) (p + 1)) q → q < st'.subscriptionFilePos
  size : st.size ≤ st'.size
  cursor : st'.lastAdditionalMessagePos = st.lastAdditionalMessagePos
  events : st'.events = st.events

namespace Reads

variable {st st' st'' : State}

theorem refl (h : ∀ p, st.subscriptionFilePos ≤ p → st.heap p = none) : Reads b file st st where
  le := le_rfl
  kept _ _ := rfl
  heap _ hp hp' := absurd hp (Nat.not_le_of_lt hp')
  fresh := h
  pointer _ := Or.inl rfl
  pointed _ _ _ hp hp' := absurd hp (Nat.not_le_of_lt hp')
  passed _ _ _ hp hp' := absurd hp (Nat.not_le_of_lt hp')
  size := le_rfl
  cursor := rfl
  events := rfl

theorem trans (h : Reads b file st st') (h' : Reads b file st' st'') : Reads b file st st'' where
  le := h.le.trans h'.le
  kept p hp := (h'.kept p (hp.trans_le h.le)).trans (h.kept p hp)
  heap p hp hp'' := by
    rcases Nat.lt_or_ge p st'.subscriptionFilePos with hp' | hp'
    · rw [h'.kept p hp', h.heap p hp hp']
    · exact h'.heap p hp' hp''
  fresh := h'.fresh
  pointer i := by
    rcases h'.pointer i with hsame | ⟨p, sub, hp, hp', hadded, hnew⟩
    · rcases h.pointer i with hsame' | ⟨p, sub, hp, hp', hadded, hnew⟩
      · exact Or.inl (hsame.trans hsame')
      · exact Or.inr ⟨p, sub, hp, hp'.trans_le h'.le, hadded, hsame.trans hnew⟩
    · exact Or.inr ⟨p, sub, h.le.trans hp, hp', hadded, hnew⟩
  pointed p i sub hp hp'' hadded := by
    rcases Nat.lt_or_ge p st'.subscriptionFilePos with hp' | hp'
    · obtain ⟨hsize, q, sub', hq, hq', hadded', hpointer⟩ := h.pointed p i sub hp hp' hadded
      refine ⟨hsize.trans_le h'.size, ?_⟩
      rcases h'.pointer i with hsame | ⟨r, sub'', hr, hr', hadded'', hnew⟩
      · exact ⟨q, sub', hq, hq'.trans_le h'.le, hadded', hsame.trans hpointer⟩
      · exact ⟨r, sub'', h.le.trans hr, hr', hadded'', hnew⟩
    · obtain ⟨hsize, q, sub', hq, hq', hadded', hpointer⟩ := h'.pointed p i sub hp' hp'' hadded
      exact ⟨hsize, q, sub', h.le.trans hq, hq', hadded', hpointer⟩
  passed p i sub hp hp'' haccepted q hadd hq := by
    rcases Nat.lt_or_ge p st'.subscriptionFilePos with hp' | hp'
    · exact (h.passed p i sub hp hp' haccepted q hadd hq).trans_le h'.le
    · exact h'.passed p i sub hp' hp'' haccepted q hadd hq
  size := h.size.trans h'.size
  cursor := h'.cursor.trans h.cursor
  events := h'.events.trans h.events

end Reads

/-! ## Both readers -/

/-- A search from this position on reads the subscriptions that it comes by. -/
def ReadsOn (b : Build) (file : LogFile) (position : ℕ)
    (search : State → Subscription → ℕ → State × Subscription) : Prop :=
  ∀ st sub msgId, Scanned file st position →
    Reads b file st (search st sub msgId).1 ∧
      (search st sub msgId).2 = seek sub msgId (file.messages.drop position) position ∧
      ∀ q, file.IsAdd q → ComesBy (seek sub msgId (file.messages.drop position) position) q →
        q < (search st sub msgId).1.subscriptionFilePos

/-- Nothing is accepted between the last subscription that was read and one that comes next. -/
theorem accepted_of_lt {st : State} {position : ℕ} (hs : Scanned file st position) {p : ℕ}
    (hp : st.subscriptionFilePos ≤ p) (hlt : p < position) : file.accepted b p = none :=
  LogFile.accepted_of_not_isAdd fun hadd => absurd (hs.read p hlt hadd) (Nat.not_lt_of_le hp)

theorem reads_skip {st st' : State} {position : ℕ} (hs : Scanned file st position)
    (hnew : st.subscriptionFilePos ≤ position)
    (h : Reads b file { st with subscriptionFilePos := position + 1 } st')
    (hadded : file.added b position = none)
    (hpassed : ∀ i sub, file.accepted b position = some (i, sub) → ∀ q, file.IsAdd q →
      ComesBy (seek sub i (file.messages.drop (position + 1)) (position + 1)) q →
      q < st'.subscriptionFilePos) :
    Reads b file st st' := by
  have hpos : position < st'.subscriptionFilePos := h.le
  have hbefore : ∀ p, st.subscriptionFilePos ≤ p → p < position → file.accepted b p = none :=
    fun p hp hlt => accepted_of_lt hs hp hlt
  have hnone : ∀ p, st.subscriptionFilePos ≤ p → p ≤ position → file.added b p = none := by
    intro p hp hle
    rcases Nat.lt_or_eq_of_le hle with hlt | rfl
    · exact LogFile.added_of_not_accepted (hbefore p hp hlt)
    · exact hadded
  refine
    { le := hnew.trans hpos.le
      kept := fun p hp => h.kept p ((hp.trans_le hnew).trans (Nat.lt_succ_self _))
      heap := fun p hp hp' => ?_
      fresh := h.fresh
      pointer := fun i => ?_
      pointed := fun p i sub hp hp' hadded' => ?_
      passed := fun p i sub hp hp' haccepted => ?_
      size := h.size
      cursor := h.cursor
      events := h.events }
  · rcases Nat.lt_or_ge position p with hlt | hle
    · exact h.heap p hlt hp'
    · rw [hnone p hp hle]
      exact (h.kept p (Nat.lt_succ_of_le hle)).trans (hs.fresh p hp)
  · rcases h.pointer i with hsame | ⟨p, sub, hp, hp', hadded', hpointer⟩
    · exact Or.inl hsame
    · exact Or.inr ⟨p, sub, hnew.trans (Nat.le_of_lt hp), hp', hadded', hpointer⟩
  · rcases Nat.lt_or_ge position p with hlt | hle
    · obtain ⟨hsize, q, sub', hq, hq', hadded'', hpointer⟩ := h.pointed p i sub hlt hp' hadded'
      exact ⟨hsize, q, sub', hnew.trans (Nat.le_of_lt hq), hq', hadded'', hpointer⟩
    · rw [hnone p hp hle] at hadded'
      cases hadded'
  · rcases Nat.lt_trichotomy p position with hlt | rfl | hgt
    · rw [hbefore p hp hlt] at haccepted
      cases haccepted
    · exact hpassed i sub haccepted
    · exact h.passed p i sub hgt hp' haccepted

theorem reads_add {st st' : State} {position msgId : ℕ} {sub : Subscription}
    (hs : Scanned file st position) (hnew : st.subscriptionFilePos ≤ position)
    (h : Reads b file { st with subscriptionFilePos := position + 1 } st')
    (hadded : file.added b position = some (msgId, sub))
    (hpassed : ∀ i sub, file.accepted b position = some (i, sub) → ∀ q, file.IsAdd q →
      ComesBy (seek sub i (file.messages.drop (position + 1)) (position + 1)) q →
      q < st'.subscriptionFilePos) :
    Reads b file st
      { st' with
        heap := Function.update st'.heap position (some sub)
        subscriptions := Function.update st'.subscriptions msgId (some position)
        size := max st'.size (msgId + 1) } := by
  have hpos : position < st'.subscriptionFilePos := h.le
  have haccepted : ∀ p, st.subscriptionFilePos ≤ p → p < position → file.accepted b p = none :=
    fun p hp hlt => accepted_of_lt hs hp hlt
  have hbefore : ∀ p, st.subscriptionFilePos ≤ p → p < position → file.added b p = none :=
    fun p hp hlt => LogFile.added_of_not_accepted (haccepted p hp hlt)
  refine
    { le := hnew.trans hpos.le
      kept := fun p hp => ?_
      heap := fun p hp hp' => ?_
      fresh := fun p hp => ?_
      pointer := fun i => ?_
      pointed := fun p i sub' hp hp' hadded' => ?_
      passed := fun p i sub' hp hp' haccepted' => ?_
      size := h.size.trans (le_max_left _ _)
      cursor := h.cursor
      events := h.events }
  · have hlt : p < position := hp.trans_le hnew
    exact (Function.update_of_ne hlt.ne _ _).trans (h.kept p (hlt.trans (Nat.lt_succ_self _)))
  · rcases Nat.lt_trichotomy p position with hlt | rfl | hgt
    · have hheap : Function.update st'.heap position (some sub) p = st.heap p :=
        (Function.update_of_ne hlt.ne _ _).trans (h.kept p (hlt.trans (Nat.lt_succ_self _)))
      rw [hbefore p hp hlt]
      exact hheap.trans (hs.fresh p hp)
    · rw [hadded]
      exact Function.update_self _ _ _
    · exact (Function.update_of_ne hgt.ne' _ _).trans (h.heap p hgt hp')
  · have hgt : position < p := hpos.trans_le hp
    exact (Function.update_of_ne hgt.ne' _ _).trans (h.fresh p hp)
  · by_cases hi : i = msgId
    · subst hi
      exact Or.inr ⟨position, sub, hnew, hpos, hadded, Function.update_self _ _ _⟩
    · have hsame : Function.update st'.subscriptions msgId (some position) i =
          st'.subscriptions i :=
        Function.update_of_ne hi _ _
      rcases h.pointer i with hold | ⟨p, sub', hp, hp', hadded', hpointer⟩
      · exact Or.inl (hsame.trans hold)
      · exact Or.inr ⟨p, sub', hnew.trans (Nat.le_of_lt hp), hp', hadded', hsame.trans hpointer⟩
  · by_cases hi : i = msgId
    · subst hi
      exact ⟨lt_max_of_lt_right (Nat.lt_succ_self _), position, sub, hnew, hpos, hadded,
        Function.update_self _ _ _⟩
    · rcases Nat.lt_trichotomy p position with hlt | rfl | hgt
      · rw [hbefore p hp hlt] at hadded'
        cases hadded'
      · rw [hadded] at hadded'
        cases hadded'
        exact absurd rfl hi
      · obtain ⟨hsize, q, sub'', hq, hq', hadded'', hpointer⟩ := h.pointed p i sub' hgt hp' hadded'
        exact ⟨lt_max_of_lt_left hsize, q, sub'', hnew.trans (Nat.le_of_lt hq), hq', hadded'',
          (Function.update_of_ne hi _ _).trans hpointer⟩
  · rcases Nat.lt_trichotomy p position with hlt | rfl | hgt
    · rw [haccepted p hp hlt] at haccepted'
      cases haccepted'
    · exact hpassed i sub' haccepted'
    · exact h.passed p i sub' hgt hp' haccepted'

theorem readAndAddSubscription_reads {st : State} {position : ℕ} {add : AddLoggedMsg}
    {search : State → Subscription → ℕ → State × Subscription} (hs : Scanned file st position)
    (hmessage : file.messages[position]? = some (.addLoggedMsg add))
    (hsearch : ReadsOn b file (position + 1) search) :
    Reads b file st (readAndAddSubscription b file.fileFormats search st position add) ∧
      position <
        (readAndAddSubscription b file.fileFormats search st position add).subscriptionFilePos
    := by
  have haccepted : file.accepted b position =
      (b.subscribe file.fileFormats position add).map fun sub => (add.readId.toNat, sub) := by
    rw [LogFile.accepted, hmessage]
  rw [readAndAddSubscription]
  by_cases hread : position + 1 ≤ st.subscriptionFilePos
  · rw [if_pos hread]
    exact ⟨Reads.refl hs.fresh, hread⟩
  rw [if_neg hread]
  have hnew : st.subscriptionFilePos ≤ position := Nat.le_of_lt_succ (Nat.lt_of_not_le hread)
  have hscanned : Scanned file { st with subscriptionFilePos := position + 1 } (position + 1) :=
    ⟨fun p hp _ => hp, fun p hp => hs.fresh p (hnew.trans ((Nat.le_succ _).trans hp))⟩
  cases hsub : b.subscribe file.fileFormats position add with
  | none =>
      rw [hsub] at haccepted
      refine ⟨reads_skip hs hnew (Reads.refl hscanned.fresh)
        (LogFile.added_of_not_accepted haccepted) ?_, Nat.lt_succ_self _⟩
      intro i sub h
      rw [haccepted] at h
      cases h
  | some sub =>
      rw [hsub] at haccepted
      obtain ⟨hreads, hseek, hcomes⟩ := hsearch _ sub add.readId.toNat hscanned
      have hpassed : ∀ i sub', file.accepted b position = some (i, sub') → ∀ q, file.IsAdd q →
          ComesBy (seek sub' i (file.messages.drop (position + 1)) (position + 1)) q →
          q < (search { st with subscriptionFilePos := position + 1 } sub
            add.readId.toNat).1.subscriptionFilePos := by
        intro i sub' h
        rw [haccepted] at h
        cases h
        exact hcomes
      have hadded : file.added b position =
          if (seek sub add.readId.toNat (file.messages.drop (position + 1))
            (position + 1)).orbMeta.isSome
          then some (add.readId.toNat,
            seek sub add.readId.toNat (file.messages.drop (position + 1)) (position + 1))
          else none := by
        rw [LogFile.added, haccepted]
        rfl
      rw [← hseek] at hadded
      dsimp only
      split
      · rename_i hnone
        rw [if_neg (by rw [Option.isNone_iff_eq_none.1 hnone]; exact Bool.false_ne_true)] at hadded
        exact ⟨reads_skip hs hnew hreads hadded hpassed, hreads.le⟩
      · rename_i hsome
        rw [if_pos (Option.isSome_iff_ne_none.2 fun h => hsome (by rw [h]; rfl))] at hadded
        exact ⟨reads_add hs hnew hreads hadded hpassed, hreads.le⟩

theorem nextDataMessageLoop_reads {ms : List Message} {position : ℕ} {st : State}
    {sub : Subscription}
    {msgId : ℕ} (hms : file.messages.drop position = ms) (hs : Scanned file st position) :
    Reads b file st (nextDataMessageLoop b file.fileFormats ms position st sub msgId).1 ∧
      ∀ p, file.IsAdd p → ComesBy (seek sub msgId ms position) p →
        p <
          (nextDataMessageLoop b file.fileFormats ms position st sub
            msgId).1.subscriptionFilePos := by
  induction ms generalizing position st sub msgId with
  | nil =>
      refine ⟨Reads.refl hs.fresh, fun p hadd _ => hs.read p ?_ hadd⟩
      obtain ⟨add, hadd⟩ := hadd
      exact (List.getElem?_eq_some_iff.1 hadd).1.trans_le (List.drop_eq_nil_iff.1 hms)
  | cons m ms ih =>
      obtain ⟨hmessage, hdrop⟩ := drop_eq_cons hms
      have hpass : ∀ {st' : State}, Reads b file st st' →
          (file.IsAdd position → position < st'.subscriptionFilePos) →
          Scanned file st' (position + 1) := by
        intro st' hreads hadd
        refine ⟨fun p hp hp' => ?_, hreads.fresh⟩
        rcases Nat.lt_succ_iff_lt_or_eq.1 hp with hlt | rfl
        · exact (hs.read p hlt hp').trans_le hreads.le
        · exact hadd hp'
      have hnot : (∀ add, m ≠ .addLoggedMsg add) → ¬file.IsAdd position := by
        rintro hne ⟨add, hadd⟩
        rw [hmessage] at hadd
        exact hne add (Option.some_inj.1 hadd)
      have hgo : (∀ add, m ≠ .addLoggedMsg add) → Scanned file st (position + 1) :=
        fun hne => hpass (Reads.refl hs.fresh) fun hadd => absurd hadd (hnot hne)
      cases m with
      | addLoggedMsg add =>
          have hsearch : ReadsOn b file (position + 1) fun st sub msgId =>
              nextDataMessageLoop b file.fileFormats ms (position + 1) st sub msgId := by
            intro st' sub' msgId' hs'
            refine ⟨(ih hdrop hs').1, ?_, ?_⟩
            · rw [nextDataMessageLoop_snd, hdrop]
            · rw [hdrop]
              exact (ih hdrop hs').2
          obtain ⟨hreads, hlt⟩ := readAndAddSubscription_reads hs hmessage hsearch
          obtain ⟨hreads', hall⟩ : Reads b file _
              (nextDataMessageLoop b file.fileFormats ms (position + 1) _ sub msgId).1 ∧ _ :=
            ih hdrop (hpass hreads fun _ => hlt)
          rw [nextDataMessageLoop, seek_of_none rfl]
          exact ⟨hreads.trans hreads', hall⟩
      | data fileMsgId payload =>
          cases h : sub.timestamp msgId (.data fileMsgId payload) with
          | none =>
              simp only [nextDataMessageLoop, h, seek_of_none h]
              exact ih hdrop (hgo fun _ => by simp)
          | some timestamp =>
              simp only [nextDataMessageLoop, h, seek_of_some h]
              refine ⟨Reads.refl hs.fresh, fun p hadd hp => ?_⟩
              rcases hp with hnone | hlt
              · have hsome := isSome_of_timestamp h
                rw [hnone] at hsome
                cases hsome
              · exact hs.read p hlt hadd
      | parameter key value =>
          simp only [nextDataMessageLoop, Subscription.timestamp, seek]
          exact ih hdrop (hgo fun _ => by simp)
      | other =>
          simp only [nextDataMessageLoop, Subscription.timestamp, seek]
          exact ih hdrop (hgo fun _ => by simp)

end Replay
end DtPhm
