import DtPhm.Logger.ULogBridge

/-!
# ULogProtocol — the reliable transfer loses no packet

The writer goes past a packet that needs an ack only after the ground station has it.  Nothing about
the time-outs, the retries or the order of the messages is needed for that: an ack on the topic
stands for a received packet (`NetInv`), and as long as the sequence numbers of a session do not
repeat it stands for the packet that the writer waits for (`WriterInv`).

* `Core` — the invariant of the system, one part for each party;
* `Core.step` — every step of every party keeps it;
* `reliable_transfer` — what holds in every state of a session.
-/

namespace DtPhm
namespace Logger
namespace Stream

open Lib

/-- A packet that was published with `FLAGS_NEED_ACK`. -/
def Packet.NeedsAck (p : Packet) : Prop := p.flags &&& flagsNeedAck ≠ 0

/-! ## The invariant -/

/-- The logger's thread is in a call that has already published. -/
def Task.InCall : Task → Prop
  | .writing _ => True
  | .setting _ => True
  | _ => False

/-- The logger's thread is in a call that may still publish. -/
def Task.Publishing : Task → Prop
  | .writing _ => True
  | .flushing _ => True
  | _ => False

/-- The writer: its packets are numbered, and it is at most one packet behind what it published. -/
structure WriterInv (w : Writer) (task : Task) (waiting : Bool) (passed : ℕ) : Prop where
  sequence : ∀ i p, w.published[i]? = some p → p.msgSequence = UInt16.ofNat i
  current : w.data.msgSequence = UInt16.ofNat passed
  blocked : waiting = true → w.published.length = passed + 1 ∧ task.InCall
  free : waiting = false → w.isStarted = true → w.published.length = passed
  bound : w.published.length ≤ passed + 1
  busy : task.Publishing → w.isStarted = true
  empty : w.isStarted = false → w.data.length = 0

/-- Messages and acks: whatever arrives was sent, whatever is acked was received. -/
structure NetInv (published : List Packet) (sent : List Message) (received : List Packet)
    (acks : List UInt16) (topic : Option UInt16) : Prop where
  ofSent : ∀ m ∈ sent, m.packet ∈ published
  ofReceived : ∀ p ∈ received, p ∈ published
  ofAck : ∀ a ∈ acks, ∃ p ∈ received, p.msgSequence = a
  ofTopic : ∀ a, topic = some a → ∃ p ∈ received, p.msgSequence = a

/-- Inside of `handle_update`, with a packet to send. -/
def Pc.Holding : Pc → Prop
  | .resend => True
  | .taken => True
  | .sendAcked => True
  | .sendPlain => True
  | _ => False

/-- The bridge may send what it holds: it took a packet, or it awaits an ack for one. -/
def Bridge.MaySend (b : Bridge) : Prop :=
  b.pc.Holding ∨ (b.waitingForInitialAck = false ∧ b.lastSentTime ≠ 0)

def Held (published : List Packet) (b : Bridge) : Prop :=
  b.MaySend → b.streamData ∈ published

/-- Every packet among the first `passed` ones that needs an ack was received. -/
def Past (passed : ℕ) (published received : List Packet) : Prop :=
  ∀ i p, i < passed → published[i]? = some p → p.NeedsAck → p ∈ received

structure Core (s : System) : Prop where
  writer : WriterInv s.writer s.task s.waiting s.passed
  net : NetInv s.writer.published s.sent s.received s.acks s.ackTopic
  held : Held s.writer.published s.bridge
  past : Past s.passed s.writer.published s.received

theorem core_of_begins {s : System} (h : Begins s) : Core s := by
  obtain ⟨w, hw⟩ := h.writer
  have hnil : s.writer.published = [] := by rw [hw]; rfl
  refine ⟨⟨?_, ?_, ?_, ?_, ?_, ?_, ?_⟩, ⟨?_, ?_, ?_, ?_⟩, ?_, ?_⟩
  · simp [hnil]
  · rw [hw, h.passed]
    rfl
  · simp [h.waiting]
  · simp [hnil, h.passed]
  · simp [hnil]
  · simp [h.task, Task.Publishing]
  · rw [hw]
    exact fun _ => rfl
  · simp [h.sent]
  · simp [h.received]
  · simp [h.acks]
  · simp [h.ackTopic]
  · rintro (hpc | ⟨hwait, -⟩)
    · rw [h.bridge.2.2.2.2.2] at hpc
      exact hpc.elim
    · exact absurd (h.bridge.1.symm.trans hwait) (by decide)
  · intro i p hi
    rw [h.passed] at hi
    omega

/-! ## The writer -/

/-- The parts of the invariant that do not look at the writer survive another publication. -/
theorem NetInv.mono {published published' received : List Packet} {sent : List Message}
    {acks : List UInt16} {topic : Option UInt16} (h : NetInv published sent received acks topic)
    (hsub : ∀ p ∈ published, p ∈ published') : NetInv published' sent received acks topic :=
  ⟨fun m hm => hsub _ (h.ofSent m hm), fun p hp => hsub _ (h.ofReceived p hp), h.ofAck, h.ofTopic⟩

theorem Held.mono {published published' : List Packet} {b : Bridge} (h : Held published b)
    (hsub : ∀ p ∈ published, p ∈ published') : Held published' b :=
  fun hsend => hsub _ (h hsend)

theorem Core.publish {s : System} (h : Core s) (hwait : s.waiting = false)
    (hstart : s.writer.isStarted = true) (hcall : s.task.InCall) (now : UInt64) :
    Core (s.publish now) := by
  have hlen := h.writer.free hwait hstart
  have hsub : ∀ p ∈ s.writer.published, p ∈ s.writer.published ++ [s.writer.stamped now] :=
    fun p hp => List.mem_append_left _ hp
  have hseq : ∀ i p, (s.writer.published ++ [s.writer.stamped now])[i]? = some p →
      p.msgSequence = UInt16.ofNat i := by
    intro i p hp
    rcases Nat.lt_or_ge i s.writer.published.length with hi | hi
    · rw [List.getElem?_append_left hi] at hp
      exact h.writer.sequence i p hp
    · have hilt := (List.getElem?_eq_some_iff.1 hp).1
      rw [List.length_append, List.length_singleton] at hilt
      have hi' : i = s.writer.published.length := by omega
      subst hi'
      rw [List.getElem?_concat_length] at hp
      cases hp
      rw [hlen]
      exact h.writer.current
  have hlen' : (s.writer.published ++ [s.writer.stamped now]).length = s.passed + 1 := by
    rw [List.length_append, List.length_singleton, hlen]
  have hpast : Past s.passed (s.writer.published ++ [s.writer.stamped now]) s.received := by
    intro i p hi hp
    rw [List.getElem?_append_left (by omega)] at hp
    exact h.past i p hi hp
  unfold System.publish
  dsimp only
  split
  · -- a reliable packet: the writer is blocked behind it
    refine ⟨⟨hseq, h.writer.current, fun _ => ⟨hlen', hcall⟩, fun hf => absurd hf (by simp),
      hlen'.le, fun _ => hstart, fun hf => ?_⟩, h.net.mono hsub, h.held.mono hsub, hpast⟩
    exact h.writer.empty hf
  · rename_i hrel
    refine ⟨⟨hseq, ?_, ?_, fun _ _ => hlen', ?_, fun _ => hstart, fun _ => rfl⟩,
      h.net.mono hsub, h.held.mono hsub, ?_⟩
    · show s.writer.data.msgSequence + 1 = _
      rw [h.writer.current, UInt16.ofNat_add]
      rfl
    · intro hw
      rw [hwait] at hw
      cases hw
    · exact hlen'.le.trans (Nat.le_succ _)
    · -- the new packet itself needs no ack
      intro i p hi hp hack
      rcases Nat.lt_or_ge i s.passed with hlt | hge
      · exact hpast i p hlt hp hack
      · have hi' : i = s.writer.published.length := by
          have : i < s.passed + 1 := hi
          omega
        subst hi'
        rw [Writer.next, List.getElem?_concat_length] at hp
        cases hp
        simp [Packet.NeedsAck, Writer.stamped, hrel] at hack

/-- In a session of fewer than 65536 packets a sequence number stands for one packet. -/
theorem WriterInv.eq_of_msgSequence {w : Writer} {task : Task} {waiting : Bool} {passed : ℕ}
    (h : WriterInv w task waiting passed) (hshort : w.published.length < 65536) {i : ℕ}
    {p q : Packet}
    (hp : w.published[i]? = some p) (hq : q ∈ w.published)
    (hseq : q.msgSequence = p.msgSequence) : q = p := by
  obtain ⟨j, hj⟩ := List.getElem?_of_mem hq
  have hi := (List.getElem?_eq_some_iff.1 hp).1
  have hjlt := (List.getElem?_eq_some_iff.1 hj).1
  rw [h.sequence i p hp, h.sequence j q hj] at hseq
  have hnat := congrArg UInt16.toNat hseq
  rw [UInt16.toNat_ofNat', UInt16.toNat_ofNat'] at hnat
  have hij : j = i := by omega
  rw [hij, hp] at hj
  exact (Option.some.inj hj).symm

theorem Core.goPast {s : System} (h : Core s) (hwait : s.waiting = true)
    (hshort : s.writer.published.length < 65536) {p : Packet} (hp : p ∈ s.received)
    (hseq : p.msgSequence = s.writer.data.msgSequence) : Core s.goPast := by
  obtain ⟨hlen, -⟩ := h.writer.blocked hwait
  have hcur : s.passed < s.writer.published.length := by omega
  have hget : s.writer.published[s.passed]? = some s.writer.published[s.passed] :=
    List.getElem?_eq_getElem hcur
  have heq : p = s.writer.published[s.passed] := by
    refine h.writer.eq_of_msgSequence hshort hget (h.net.ofReceived p hp) ?_
    rw [hseq, h.writer.current, h.writer.sequence _ _ hget]
  refine ⟨⟨h.writer.sequence, ?_, fun hf => absurd hf (by simp [System.goPast]), fun _ _ => hlen,
    ?_, h.writer.busy, fun _ => rfl⟩, h.net, h.held, ?_⟩
  · show s.writer.data.msgSequence + 1 = UInt16.ofNat (s.passed + 1)
    rw [h.writer.current, UInt16.ofNat_add]
    rfl
  · exact hlen.le.trans (Nat.le_succ _)
  · intro i q hi hq hack
    rcases Nat.lt_or_ge i s.passed with hlt | hge
    · exact h.past i q hlt hq hack
    · have hi' : i = s.passed := Nat.le_antisymm (Nat.le_of_lt_succ hi) hge
      subst hi'
      have hq' : s.writer.published[s.passed]? = some q := hq
      rw [hget] at hq'
      rw [← Option.some.inj hq', ← heq]
      exact hp

theorem Core.giveUp {s : System} (h : Core s) (hwait : s.waiting = true) : Core s.giveUp := by
  obtain ⟨-, hcall⟩ := h.writer.blocked hwait
  have hidle : ¬ s.giveUp.task.Publishing := by
    unfold System.giveUp
    cases htask : s.task with
    | idle => simp [Task.Publishing]
    | writing rest => simp [Task.Publishing]
    | flushing b =>
      rw [htask] at hcall
      exact hcall.elim
    | setting b => simp [Task.Publishing]
  exact ⟨⟨h.writer.sequence, h.writer.current, fun hf => absurd hf (by simp [System.giveUp]),
    fun _ hf => absurd hf (by simp [System.giveUp, Writer.stopLog]), h.writer.bound,
    fun hf => absurd hf hidle, fun _ => rfl⟩, h.net, h.held, h.past⟩

theorem Core.pollAck {s : System} (h : Core s) (hwait : s.waiting = true)
    (hshort : s.writer.published.length < 65536) (late : Bool) : Core (s.pollAck late) := by
  unfold System.pollAck
  split
  · rename_i sequence htopic
    obtain ⟨p, hp, hseq⟩ := h.net.ofTopic sequence htopic
    have h₁ : Core { s with ackTopic := none } :=
      ⟨h.writer, ⟨h.net.ofSent, h.net.ofReceived, h.net.ofAck, fun a ha => absurd ha (by simp)⟩,
        h.held, h.past⟩
    dsimp only
    split
    · rename_i heq
      exact h₁.goPast hwait hshort hp (hseq.trans heq)
    · split
      · exact h₁.giveUp hwait
      · exact h₁
  · exact h

theorem Core.congr_writer {s : System} (h : Core s) {w : Writer} {task : Task}
    (hpub : w.published = s.writer.published)
    (hseq : w.data.msgSequence = s.writer.data.msgSequence)
    (hstart : w.isStarted = s.writer.isStarted)
    (hcall : s.waiting = true → task.InCall)
    (hbusy : task.Publishing → s.writer.isStarted = true)
    (hempty : s.writer.isStarted = false → w.data.length = 0) :
    Core { s with writer := w, task := task } := by
  obtain ⟨⟨hsequence, hcurrent, hblocked, hfree, hbound, -, -⟩, hnet, hheld, hpast⟩ := h
  rw [← hpub] at hsequence hblocked hfree hbound hnet hheld hpast
  rw [← hstart] at hfree hbusy hempty
  exact ⟨⟨hsequence, hseq.trans hcurrent, fun hw => ⟨(hblocked hw).1, hcall hw⟩, hfree, hbound,
    hbusy,
    hempty⟩, hnet, hheld, hpast⟩

theorem Core.advance {s : System} (h : Core s) (hwait : s.waiting = false) (now : UInt64) :
    Core (s.advance now) := by
  have hnot : ∀ P : Prop, s.waiting = true → P := by
    intro P hw
    rw [hwait] at hw
    cases hw
  unfold System.advance
  split
  · exact h
  · exact h.congr_writer rfl rfl rfl (hnot _) (fun hf => hf.elim) h.writer.empty
  · rename_i b rest htask
    have hstart : s.writer.isStarted = true := h.writer.busy (by rw [htask]; trivial)
    have hempty : ∀ P : Prop, s.writer.isStarted = false → P := by
      intro P hf
      rw [hstart] at hf
      cases hf
    dsimp only
    generalize hpiece : (b :: rest).take (min (dataLen - s.writer.data.length) (b :: rest).length)
      = piece
    generalize hrest : (b :: rest).drop (min (dataLen - s.writer.data.length) (b :: rest).length)
      = rest'
    have h₁ : Core { s with writer := s.writer.append piece, task := .writing rest' } :=
      h.congr_writer rfl rfl rfl (hnot _) (fun _ => hstart) (hempty _)
    split
    · exact h₁.publish hwait hstart trivial now
    · exact h₁
  · rename_i b htask
    have hstart : s.writer.isStarted = true := h.writer.busy (by rw [htask]; trivial)
    have h₁ : Core { s with task := .setting b } :=
      h.congr_writer rfl rfl rfl (hnot _) (fun hf => hf.elim) h.writer.empty
    exact h₁.publish hwait hstart trivial now
  · exact h.congr_writer rfl rfl rfl (hnot _) (fun hf => hf.elim) h.writer.empty

theorem Core.not_waiting {s : System} (h : Core s) (hidle : s.task = .idle) (P : Prop)
    (hw : s.waiting = true) : P := by
  have hcall := (h.writer.blocked hw).2
  rw [hidle] at hcall
  exact hcall.elim

theorem Core.write {s : System} (h : Core s) (hidle : s.task = .idle) (message : List UInt8) :
    Core (s.write message) := by
  unfold System.write
  split
  · rename_i hstart
    have hempty : ∀ P : Prop, s.writer.isStarted = false → P := by
      intro P hf
      rw [hstart] at hf
      cases hf
    dsimp only
    split
    · exact h.congr_writer rfl rfl rfl (h.not_waiting hidle _) (fun _ => hstart) (hempty _)
    · exact h.congr_writer rfl rfl rfl (h.not_waiting hidle _) (fun _ => hstart) (hempty _)
  · exact h

theorem Core.setNeedReliable {s : System} (h : Core s) (hidle : s.task = .idle) (b : Bool) :
    Core (s.setNeedReliable b) := by
  unfold System.setNeedReliable
  split
  · rename_i hflush
    refine h.congr_writer rfl rfl rfl (h.not_waiting hidle _) (fun _ => ?_) h.writer.empty
    -- a log that is not started has no bytes to flush
    simp only [Bool.and_eq_true, decide_eq_true_eq] at hflush
    cases hstart : s.writer.isStarted with
    | true => rfl
    | false =>
      have := h.writer.empty hstart
      omega
  · exact h.congr_writer rfl rfl rfl (h.not_waiting hidle _) (fun hf => hf.elim) h.writer.empty

theorem Core.stopLog {s : System} (h : Core s) (hidle : s.task = .idle) :
    Core { s with writer := s.writer.stopLog } := by
  refine ⟨⟨h.writer.sequence, h.writer.current, h.not_waiting hidle _,
    fun _ hf => absurd hf (by simp [Writer.stopLog]), h.writer.bound, ?_, fun _ => rfl⟩,
    h.net, h.held, h.past⟩
  intro hf
  rw [hidle] at hf
  exact hf.elim

/-! ## The bridge and the ground station -/

theorem Held.startAckReceived {published : List Packet} {b : Bridge} (h : Held published b) :
    Held published b.startAckReceived := by
  unfold Bridge.startAckReceived
  split
  · rintro (hpc | ⟨-, hne⟩)
    · exact h (Or.inl hpc)
    · exact absurd rfl hne
  · exact h

theorem Held.handleUpdate {published : List Packet} {b : Bridge} (h : Held published b)
    (hpc : b.pc = .out) (now now' : UInt64) : Held published (b.handleUpdate now now') := by
  have hout : ¬ b.pc.Holding := by
    rw [hpc]
    exact id
  unfold Bridge.handleUpdate
  split
  · split
    · exact h
    · exact h
  · rename_i hinit
    have hinit' : b.waitingForInitialAck = false := by simpa using hinit
    split
    · rename_i hne
      have hheld : b.streamData ∈ published := h (Or.inr ⟨hinit', hne⟩)
      split
      · exact fun _ => hheld
      · split
        · split
          · exact fun _ => hheld
          · exact fun _ => hheld
        · exact h
    · rename_i hzero
      rintro (hf | ⟨-, hne⟩)
      · exact hf.elim
      · exact absurd hne hzero

theorem Held.take {published : List Packet} {b : Bridge} (h : Held published b) :
    Held published (b.take published) := by
  have hexit : Held published { b with pc := .rate } := by
    rintro (hf | hf)
    · exact hf.elim
    · exact h (Or.inr hf)
  unfold Bridge.take
  split
  · split
    · rename_i p hp
      exact fun _ => List.mem_of_getElem? hp
    · exact hexit
  · exact hexit

theorem Held.prepare {published : List Packet} {b : Bridge} (h : Held published b)
    (hpc : b.pc = .taken) (now : UInt64) : Held published (b.prepare now) := by
  have hheld : b.streamData ∈ published := h (Or.inl (by rw [hpc]; trivial))
  unfold Bridge.prepare
  split
  · split
    · exact fun _ => hheld
    · exact fun _ => hheld
  · exact fun _ => hheld

theorem Held.updateRate {published : List Packet} {b : Bridge} (h : Held published b)
    (now : UInt64) : Held published (b.updateRate now) := by
  unfold Bridge.updateRate
  split
  · rintro (hf | hf)
    · exact hf.elim
    · exact h (Or.inr hf)
  · rintro (hf | hf)
    · exact hf.elim
    · exact h (Or.inr hf)

theorem Core.sendMessage {s : System} (h : Core s) (hpc : s.bridge.pc.Holding) (acked : Bool)
    {b : Bridge} (hb : b.streamData = s.bridge.streamData) :
    Core { s with sent := s.sent ++ [⟨acked, s.bridge.streamData⟩], bridge := b } := by
  have hheld : s.bridge.streamData ∈ s.writer.published := h.held (Or.inl hpc)
  refine ⟨h.writer, ⟨?_, h.net.ofReceived, h.net.ofAck, h.net.ofTopic⟩, fun _ => ?_, h.past⟩
  · intro m hm
    rcases List.mem_append.1 hm with hold | hnew
    · exact h.net.ofSent m hold
    · rw [List.mem_singleton.1 hnew]
      exact hheld
  · rw [hb]
    exact hheld

theorem Core.send {s : System} (h : Core s) : Core s.send := by
  unfold System.send
  split
  · rename_i hpc
    exact h.sendMessage (by rw [hpc]; trivial) true rfl
  · rename_i hpc
    exact h.sendMessage (by rw [hpc]; trivial) true rfl
  · rename_i hpc
    exact h.sendMessage (by rw [hpc]; trivial) false rfl
  · exact h

theorem Core.deliver {s : System} (h : Core s) (i : ℕ) : Core (s.deliver i) := by
  unfold System.deliver
  split
  · rename_i p hp
    have hpub : p ∈ s.writer.published := h.net.ofSent _ (List.mem_of_getElem? hp)
    refine ⟨h.writer, ⟨h.net.ofSent, ?_, ?_, ?_⟩, h.held, ?_⟩
    · intro q hq
      rcases List.mem_append.1 hq with hold | hnew
      · exact h.net.ofReceived q hold
      · rw [List.mem_singleton.1 hnew]
        exact hpub
    · intro a ha
      rcases List.mem_append.1 ha with hold | hnew
      · obtain ⟨q, hq, hseq⟩ := h.net.ofAck a hold
        exact ⟨q, List.mem_append_left _ hq, hseq⟩
      · exact ⟨p, List.mem_append_right _ (List.mem_singleton_self p),
          (List.mem_singleton.1 hnew).symm⟩
    · intro a ha
      obtain ⟨q, hq, hseq⟩ := h.net.ofTopic a ha
      exact ⟨q, List.mem_append_left _ hq, hseq⟩
    · intro j q hj hq hack
      exact List.mem_append_left _ (h.past j q hj hq hack)
  · exact h

theorem Core.handleAck {s : System} (h : Core s) (i : ℕ) : Core (s.handleAck i) := by
  unfold System.handleAck
  split
  · rename_i sequence hack
    split
    · refine ⟨h.writer, ⟨h.net.ofSent, h.net.ofReceived, h.net.ofAck, ?_⟩, h.held, h.past⟩
      intro a ha
      rw [← Option.some.inj ha]
      exact h.net.ofAck sequence (List.mem_of_getElem? hack)
    · exact h
  · exact h

theorem Core.bridge {s : System} (h : Core s) {b : Bridge} (hb : Held s.writer.published b) :
    Core { s with bridge := b } :=
  ⟨h.writer, h.net, hb, h.past⟩

/-! ## Runs -/

theorem Core.step {s : System} (h : Core s) (hshort : s.writer.published.length < 65536)
    (e : Event) : Core (step s e) := by
  cases e with
  | write message =>
    simp only [Stream.step]
    split
    · rename_i hidle
      exact h.write hidle message
    · exact h
  | setNeedReliable needReliable =>
    simp only [Stream.step]
    split
    · rename_i hidle
      exact h.setNeedReliable hidle needReliable
    · exact h
  | stopLog =>
    simp only [Stream.step]
    split
    · rename_i hidle
      exact h.stopLog hidle
    · exact h
  | advance now =>
    simp only [Stream.step]
    split
    · exact h
    · rename_i hwait
      exact h.advance (by simpa using hwait) now
  | pollFailed =>
    simp only [Stream.step]
    split
    · rename_i hwait
      exact h.giveUp hwait
    · exact h
  | pollAck late =>
    simp only [Stream.step]
    split
    · rename_i hwait
      exact h.pollAck hwait hshort late
    · exact h
  | startAckReceived =>
    simp only [Stream.step]
    split
    · exact h.bridge h.held.startAckReceived
    · exact h
  | handleUpdate now now' =>
    simp only [Stream.step]
    split
    · rename_i hpc
      exact h.bridge (h.held.handleUpdate hpc.2 now now')
    · exact h
  | take =>
    simp only [Stream.step]
    split
    · exact h.bridge h.held.take
    · exact h
  | prepare now =>
    simp only [Stream.step]
    split
    · rename_i hpc
      exact h.bridge (h.held.prepare hpc now)
    · exact h
  | send => exact h.send
  | updateRate now =>
    simp only [Stream.step]
    split
    · exact h.bridge (h.held.updateRate now)
    · exact h
  | stop =>
    simp only [Stream.step]
    split
    · exact h.bridge h.held
    · exact h
  | deliver i => exact h.deliver i
  | handleAck i => exact h.handleAck i

theorem length_publish (s : System) (now : UInt64) :
    (s.publish now).writer.published.length = s.writer.published.length + 1 := by
  unfold System.publish
  dsimp only
  split <;> simp [Writer.next]

theorem length_step (s : System) (e : Event) :
    s.writer.published.length ≤ (step s e).writer.published.length := by
  cases e with
  | write message =>
    simp only [Stream.step, System.write]
    split
    · split
      · split <;> exact le_refl _
      · exact le_refl _
    · exact le_refl _
  | advance now =>
    simp only [Stream.step, System.advance]
    split
    · exact le_refl _
    · split
      · exact le_refl _
      · exact le_refl _
      · split
        · rw [length_publish]
          exact Nat.le_succ _
        · exact le_refl _
      · rw [length_publish]
        exact Nat.le_succ _
      · exact le_refl _
  | setNeedReliable needReliable =>
    simp only [Stream.step, System.setNeedReliable]
    split
    · split <;> exact le_refl _
    · exact le_refl _
  | stopLog =>
    simp only [Stream.step]
    split <;> exact le_refl _
  | pollFailed =>
    simp only [Stream.step]
    split <;> exact le_refl _
  | pollAck late =>
    simp only [Stream.step, System.pollAck]
    split
    · split
      · split
        · exact le_refl _
        · split <;> exact le_refl _
      · exact le_refl _
    · exact le_refl _
  | send =>
    simp only [Stream.step, System.send]
    split <;> exact le_refl _
  | deliver i =>
    simp only [Stream.step, System.deliver]
    split <;> exact le_refl _
  | handleAck i =>
    simp only [Stream.step, System.handleAck]
    split
    · split <;> exact le_refl _
    · exact le_refl _
  | _ =>
    simp only [Stream.step]
    split <;> exact le_refl _

theorem core_exec {s : System} (h : Core s) {es : List Event}
    (hshort : (exec step s es).writer.published.length < 65536) : Core (exec step s es) := by
  have hstep : ∀ s e, (s.writer.published.length < 65536 → Core s) →
      (step s e).writer.published.length < 65536 → Core (step s e) := by
    intro s e hs hlt
    have hle := length_step s e
    exact (hs (by omega)).step (by omega) e
  exact invariant_exec hstep (fun _ => h) es hshort

/-- The reliable transfer, in every state of a session of fewer than 65536 packets, whatever is
lost, repeated, late or out of order: the ground station has every packet with `FLAGS_NEED_ACK` that
the writer went past, and before `MavlinkULog` sends a later packet it has the earlier ones. -/
theorem reliable_transfer (s₀ : System) (h₀ : Begins s₀) (es : List Event)
    (hshort : (exec step s₀ es).writer.published.length < 65536) :
    let s := exec step s₀ es
    (∀ (i : ℕ) p, i < s.passed → s.writer.published[i]? = some p → p.NeedsAck → p ∈ s.received) ∧
      ∀ (i j : ℕ) p q, s.writer.published[i]? = some p → p.NeedsAck →
        s.writer.published[j]? = some q → i < j → (∃ m ∈ s.sent, m.packet = q) →
          p ∈ s.received := by
  intro s
  have h : Core s := core_exec (core_of_begins h₀) hshort
  refine ⟨h.past, ?_⟩
  intro i j p q hp hack hq hij _
  -- a later packet exists only after the writer went past the earlier one
  have hj := (List.getElem?_eq_some_iff.1 hq).1
  have hbound := h.writer.bound
  exact h.past i p (by omega) hp hack

/-- A session at its beginning. -/
def begun : System where
  writer := (⟨⟨0, 0, 0, 0, 0, fun _ => 0⟩, false, false, []⟩ : Writer).startLog
  task := .idle
  waiting := false
  passed := 0
  bridge := ⟨true, true, 7, 0, false, 0xbeef, ⟨0, 0, 0, 0, 0, fun _ => 0⟩, 0, 0, 4, 0, .out⟩
  ackTopic := none
  sent := []
  received := []
  acks := []

/-- One packet is written reliably, sent twice because the first ack is slow, and acked. -/
def oneAckedPacket : List Event :=
  [.setNeedReliable true, .advance 1, .write [1], .advance 2, .advance 3, .setNeedReliable false,
    .advance 4, .startAckReceived, .handleUpdate 5 5, .take, .prepare 6, .send, .take,
      .updateRate 7,
    .deliver 0, .handleUpdate 100000 100001, .send, .deliver 1, .handleAck 1, .handleAck 0,
    .pollAck false]

theorem reliable_transfer_one :
    (exec step begun oneAckedPacket).passed = 1 ∧
      (exec step begun oneAckedPacket).sent.length = 2 ∧
      ∀ p, (exec step begun oneAckedPacket).writer.published[0]? = some p → p.NeedsAck →
        p ∈ (exec step begun oneAckedPacket).received := by
  refine ⟨by rfl, by rfl, ?_⟩
  intro p
  exact (reliable_transfer begun
    ⟨⟨_, rfl⟩, rfl, rfl, rfl, ⟨rfl, rfl, rfl, rfl, rfl, rfl⟩, rfl, rfl, rfl, rfl⟩ oneAckedPacket
    (by decide)).1 0 p (by decide)

end Stream
end Logger
end DtPhm
