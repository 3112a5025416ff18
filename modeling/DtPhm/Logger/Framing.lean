import DtPhm.Logger.LogWriterMavlink

/-!
# Framing — the packets of a streamed log

A receiver sees the packets only.  It finds lost ones by their sequence numbers, and starts over at
the first message that begins in a packet:

* `StartsAt` — the offsets at which the messages of a log begin;
* `FirstStart` — what the offset in a packet has to say about a window of the log;
* `Framed` — the invariant of the writer, kept by each copy and each publication;
* `published_framing` — the packets after any sequence of calls.
-/

namespace DtPhm
namespace Logger
namespace Stream

open Lib

/-! ## Where messages start -/

/-- A message starts at offset `x` of the log. -/
def StartsAt (messages : List (List UInt8)) (x : ℕ) : Prop :=
  ∃ i < messages.length, (messages.take i).flatten.length = x

/-- `f` is the offset of the first start in the window of `n` bytes at `o`, or 255 if there is
none. -/
def FirstStart (S : ℕ → Prop) (o n f : ℕ) : Prop :=
  (f = 255 ∧ ∀ j < n, ¬ S (o + j)) ∨ (f < n ∧ S (o + f) ∧ ∀ j < f, ¬ S (o + j))

theorem FirstStart.congr {S S' : ℕ → Prop} {o n f : ℕ} (h : FirstStart S o n f)
    (hS : ∀ x < o + n, S' x ↔ S x) : FirstStart S' o n f := by
  rcases h with ⟨hf, hnone⟩ | ⟨hf, hstart, hmin⟩
  · refine Or.inl ⟨hf, ?_⟩
    intro j hj hs
    exact hnone j hj ((hS _ (by omega)).1 hs)
  · refine Or.inr ⟨hf, (hS _ (by omega)).2 hstart, ?_⟩
    intro j hj hs
    exact hmin j hj ((hS _ (by omega)).1 hs)

theorem startsAt_append (messages : List (List UInt8)) (m : List UInt8) (x : ℕ) :
    StartsAt (messages ++ [m]) x ↔ StartsAt messages x ∨ x = messages.flatten.length := by
  constructor
  · rintro ⟨i, hi, hx⟩
    rw [List.length_append, List.length_singleton] at hi
    rw [List.take_append_of_le_length (by omega)] at hx
    rcases Nat.lt_or_ge i messages.length with hlt | hge
    · exact Or.inl ⟨i, hlt, hx⟩
    · rw [List.take_of_length_le hge] at hx
      exact Or.inr hx.symm
  · rintro (⟨i, hi, hx⟩ | rfl)
    · refine ⟨i, by simp; omega, ?_⟩
      rw [List.take_append_of_le_length hi.le, hx]
    · refine ⟨messages.length, by simp, ?_⟩
      rw [List.take_left]

/-! ## The invariant -/

/-- The bytes of a list of packets. -/
def payloads (packets : List Packet) : List UInt8 := packets.flatMap Packet.payload

@[simp] theorem payloads_append (l l' : List Packet) :
    payloads (l ++ l') = payloads l ++ payloads l' := by
  simp [payloads]

@[simp] theorem payloads_cons (p : Packet) (l : List Packet) :
    payloads (p :: l) = p.payload ++ payloads l := by
  simp [payloads]

@[simp] theorem length_payload (p : Packet) : p.payload.length = p.length := by
  simp [Packet.payload]

theorem length_payloads_take {l : List Packet} {i : ℕ} {p : Packet} (h : l[i]? = some p) :
    (payloads (l.take i)).length + p.length ≤ (payloads l).length := by
  obtain ⟨hi, rfl⟩ := List.getElem?_eq_some_iff.1 h
  have hsplit : payloads l = payloads (l.take i) ++
      (l[i].payload ++ payloads (l.drop (i + 1))) := by
    rw [← payloads_cons, ← payloads_append, ← List.drop_eq_getElem_cons hi, List.take_append_drop]
  rw [hsplit, List.length_append, List.length_append, length_payload]
  omega

/-- What the offset in the unpublished packet says, if the packet starts at offset `k` of the log.
A log starts with offset 0, before there is any message. -/
def Pending (S : ℕ → Prop) (k : ℕ) (p : Packet) : Prop :=
  (p.firstMessageOffset = 255 ∧ ∀ x, S x → x < k) ∨
    (p.firstMessageOffset ≤ p.length ∧ S (k + p.firstMessageOffset) ∧
      ∀ x, S x → k ≤ x → k + p.firstMessageOffset ≤ x) ∨
    (p.firstMessageOffset = 0 ∧ p.length = 0 ∧ ∀ x, ¬ S x)

/-- The writer has taken the bytes `bytes`, and messages started at the offsets in `S`. -/
structure Framed (bytes : List UInt8) (S : ℕ → Prop) (w : Writer) : Prop where
  started : w.isStarted = true
  sequence : w.data.msgSequence = UInt16.ofNat w.published.length
  room : w.data.length ≤ dataLen
  content : payloads w.published ++ w.data.payload = bytes
  packets : ∀ i p, w.published[i]? = some p →
    p.msgSequence = UInt16.ofNat i ∧
      FirstStart S (payloads (w.published.take i)).length p.length p.firstMessageOffset
  pending : Pending S (payloads w.published).length w.data
  starts : ∀ x, S x → x ≤ bytes.length

theorem Framed.length_eq {bytes : List UInt8} {S : ℕ → Prop} {w : Writer} (h : Framed bytes S w) :
    bytes.length = (payloads w.published).length + w.data.length := by
  rw [← h.content, List.length_append, length_payload]

theorem framed_startLog (w : Writer) : Framed [] (fun _ => False) w.startLog := by
  refine ⟨rfl, rfl, Nat.zero_le _, rfl, ?_, Or.inr (Or.inr ⟨rfl, rfl, fun _ h => h⟩), ?_⟩
  · intro i p h
    exact absurd h (by simp [Writer.startLog])
  · intro x h
    exact h.elim

theorem Framed.start {bytes : List UInt8} {S : ℕ → Prop} {w : Writer} (h : Framed bytes S w)
    (hroom : w.data.length < dataLen) :
    Framed bytes (fun x => S x ∨ x = bytes.length)
      (if w.data.firstMessageOffset = 255 then
        { w with data := { w.data with firstMessageOffset := w.data.length } }
      else w) := by
  have hlen := h.length_eq
  have hpackets : ∀ i p, w.published[i]? = some p →
      p.msgSequence = UInt16.ofNat i ∧
        FirstStart (fun x => S x ∨ x = bytes.length) (payloads (w.published.take i)).length p.length
          p.firstMessageOffset := by
    intro i p hp
    obtain ⟨hseq, hfirst⟩ := h.packets i p hp
    refine ⟨hseq, hfirst.congr ?_⟩
    intro x hx
    -- the new start lies behind all published packets
    have hle := length_payloads_take hp
    have hne : x ≠ bytes.length := by omega
    simp [hne]
  have hstarts : ∀ x, (S x ∨ x = bytes.length) → x ≤ bytes.length := by
    rintro x (hx | rfl)
    · exact h.starts x hx
    · exact le_refl _
  rcases h.pending with ⟨hoff, hnone⟩ | ⟨hoff, hstart, hmin⟩ | ⟨hoff, hzero, hnone⟩
  · rw [if_pos hoff]
    refine ⟨h.started, h.sequence, h.room, h.content, hpackets, Or.inr (Or.inl ⟨le_refl _, ?_, ?_⟩),
      hstarts⟩
    · exact Or.inr hlen.symm
    · rintro x (hx | rfl) hle
      · exact absurd (hnone x hx) (Nat.not_lt.2 hle)
      · exact hlen.ge
  · have hne : w.data.firstMessageOffset ≠ 255 := by
      unfold dataLen at hroom
      omega
    rw [if_neg hne]
    refine ⟨h.started, h.sequence, h.room, h.content, hpackets,
      Or.inr (Or.inl ⟨hoff, Or.inl hstart, ?_⟩), hstarts⟩
    rintro x (hx | rfl) hle
    · exact hmin x hx hle
    · omega
  · have hne : w.data.firstMessageOffset ≠ 255 := by omega
    rw [if_neg hne]
    refine ⟨h.started, h.sequence, h.room, h.content, hpackets,
      Or.inr (Or.inl ⟨by omega, Or.inr (by omega), ?_⟩), hstarts⟩
    rintro x (hx | rfl) hle
    · exact (hnone x hx).elim
    · omega

theorem Writer.payload_append (w : Writer) (piece : List UInt8) :
    (w.append piece).data.payload = w.data.payload ++ piece := by
  have hold : load (store w.data.data w.data.length piece) 0 w.data.length = w.data.payload := by
    apply load_congr
    intro i hi
    exact store_of_lt _ _ (by omega)
  have hnew : load (store w.data.data w.data.length piece) (0 + w.data.length) piece.length =
      piece := by
    rw [Nat.zero_add]
    exact load_store_append w.data.data w.data.length [] piece
  show load (store w.data.data w.data.length piece) 0 (w.data.length + piece.length) = _
  rw [load_add, hold, hnew]

theorem Framed.append {bytes : List UInt8} {S : ℕ → Prop} {w : Writer} (h : Framed bytes S w)
    {piece : List UInt8} (hroom : w.data.length + piece.length ≤ dataLen)
    (hstart : ∃ x, S x) :
    Framed (bytes ++ piece) S (w.append piece) := by
  have hpayload := w.payload_append piece
  refine ⟨h.started, h.sequence, hroom, ?_, h.packets, ?_, ?_⟩
  · rw [hpayload, ← List.append_assoc]
    exact congrArg (· ++ piece) h.content
  · rcases h.pending with hnone | ⟨hoff, hat, hmin⟩ | ⟨hoff, hzero, hnone⟩
    · exact Or.inl hnone
    · exact Or.inr (Or.inl ⟨le_trans hoff (Nat.le_add_right _ _), hat, hmin⟩)
    · obtain ⟨x, hx⟩ := hstart
      exact (hnone x hx).elim
  · intro x hx
    have := h.starts x hx
    rw [List.length_append]
    omega

theorem Framed.publish {bytes : List UInt8} {S : ℕ → Prop} {w : Writer} (h : Framed bytes S w)
    (hpos : 0 < w.data.length) (hstarts : ∀ x, S x → x < bytes.length) {o : Outside}
    (hacks : ∀ n p, awaitAck p.msgSequence (o.polls n p) = true) :
    (w.publishMessage o).1 = true ∧ Framed bytes S (w.publishMessage o).2 := by
  have hlen := h.length_eq
  have heq : w.publishMessage o = (true, ({ w with
      data := w.stamped (o.now w.published.length)
      published := w.published ++ [w.stamped (o.now w.published.length)] } : Writer).next) := by
    have hack := hacks w.published.length (w.stamped (o.now w.published.length))
    simp [Writer.publishMessage, hack]
  generalize hp : w.stamped (o.now w.published.length) = p at heq
  have hpay : payloads (w.published ++ [p]) = bytes := by
    rw [← h.content, payloads_append, payloads_cons, ← hp]
    exact congrArg _ (List.append_nil _)
  have hfirst : FirstStart S (payloads w.published).length p.length p.firstMessageOffset := by
    rw [← hp]
    rcases h.pending with ⟨hoff, hnone⟩ | ⟨hoff, hat, hmin⟩ | ⟨-, hzero, -⟩
    · refine Or.inl ⟨hoff, ?_⟩
      intro j _ hj
      have := hnone _ hj
      omega
    · have hlt := hstarts _ hat
      refine Or.inr ⟨?_, hat, ?_⟩
      · show w.data.firstMessageOffset < w.data.length
        omega
      · intro j hj hs
        have := hmin _ hs (Nat.le_add_right _ _)
        have hj' : j < w.data.firstMessageOffset := hj
        omega
    · omega
  rw [heq]
  refine ⟨rfl, h.started, ?_, Nat.zero_le _, ?_, ?_, Or.inl ⟨rfl, ?_⟩, h.starts⟩
  · show p.msgSequence + 1 = UInt16.ofNat (w.published ++ [p]).length
    have hseq : p.msgSequence = w.data.msgSequence := by rw [← hp]; rfl
    rw [hseq, h.sequence, List.length_append, List.length_singleton, UInt16.ofNat_add]
    rfl
  · show payloads (w.published ++ [p]) ++ [] = bytes
    rw [List.append_nil, hpay]
  · intro i q hq
    have hq' : (w.published ++ [p])[i]? = some q := hq
    show q.msgSequence = _ ∧ FirstStart S (payloads ((w.published ++ [p]).take i)).length _ _
    rcases Nat.lt_or_ge i w.published.length with hi | hi
    · rw [List.getElem?_append_left hi] at hq'
      rw [List.take_append_of_le_length hi.le]
      exact h.packets i q hq'
    · have hilt := (List.getElem?_eq_some_iff.1 hq').1
      rw [List.length_append, List.length_singleton] at hilt
      have hi' : i = w.published.length := by omega
      subst hi'
      rw [List.getElem?_concat_length] at hq'
      cases hq'
      rw [List.take_left]
      exact ⟨by rw [← hp]; exact h.sequence, hfirst⟩
  · intro x hx
    show x < (payloads (w.published ++ [p])).length
    rw [hpay]
    exact hstarts x hx

theorem Framed.fill {bytes : List UInt8} {S : ℕ → Prop} {w : Writer} (h : Framed bytes S w)
    (hroom : w.data.length < dataLen) (hsome : ∃ x, S x) {rest : List UInt8} (hne : rest ≠ []) :
    let sendLen := min (dataLen - w.data.length) rest.length
    Framed (bytes ++ rest.take sendLen) S (w.append (rest.take sendLen)) ∧
      ∀ x, S x → x < (bytes ++ rest.take sendLen).length := by
  intro sendLen
  have hpos : 0 < rest.length := List.length_pos_iff.2 hne
  have hlen : (rest.take sendLen).length = sendLen := by
    rw [List.length_take]
    omega
  refine ⟨h.append (by omega) hsome, ?_⟩
  intro x hx
  have := h.starts x hx
  rw [List.length_append]
  omega

theorem Framed.writeLoop {bytes : List UInt8} {S : ℕ → Prop} {w : Writer} (h : Framed bytes S w)
    (hroom : w.data.length < dataLen) (hsome : ∃ x, S x) {o : Outside}
    (hacks : ∀ n p, awaitAck p.msgSequence (o.polls n p) = true) {rest : List UInt8}
    (hstarts : rest = [] → ∀ x, S x → x < bytes.length) :
    (w.writeLoop o rest).1 = true ∧ Framed (bytes ++ rest) S (w.writeLoop o rest).2 ∧
      (w.writeLoop o rest).2.data.length < dataLen ∧
      ∀ x, S x → x < (bytes ++ rest).length := by
  fun_induction Writer.writeLoop o w rest generalizing bytes with
  | case1 w =>
    rw [List.append_nil]
    exact ⟨rfl, h, hroom, hstarts rfl⟩
  | case2 w rest hne sendLen w₁ hfull hack =>
    rename_i ih
    obtain ⟨hfill, hless⟩ := h.fill hroom hsome hne
    have hpos : 0 < w₁.data.length := by
      unfold dataLen at hfull
      omega
    obtain ⟨-, hpub⟩ := hfill.publish hpos hless hacks
    have hzero := Writer.publishMessage_length hack
    have hnext := ih hpub (by rw [hzero]; decide) (fun _ => hless)
    rwa [List.append_assoc, List.take_append_drop] at hnext
  | case3 w rest hne sendLen w₁ hfull =>
    rename_i hack
    obtain ⟨hfill, hless⟩ := h.fill hroom hsome hne
    have hpos : 0 < w₁.data.length := by
      unfold dataLen at hfull
      omega
    exact absurd (hfill.publish hpos hless hacks).1 hack
  | case4 w rest hne sendLen w₁ hfull =>
    rename_i ih
    obtain ⟨hfill, hless⟩ := h.fill hroom hsome hne
    have hnext := ih hfill (by omega) (fun _ => hless)
    rwa [List.append_assoc, List.take_append_drop] at hnext

/-! ## Calls -/

/-- The calls of the logger while a log is streamed. -/
inductive Call where
  | write (message : List UInt8)
  | setNeedReliable (needReliable : Bool)

def Call.run (o : Outside) (w : Writer) : Call → Writer
  | write message => (w.writeMessage o message).2
  | setNeedReliable needReliable => w.setNeedReliableTransfer o needReliable

/-- The messages of a sequence of calls. -/
def messages (calls : List Call) : List (List UInt8) :=
  calls.filterMap fun
    | .write message => some message
    | .setNeedReliable _ => none

/-- The invariant between two calls: every message that has started has a byte in the stream. -/
structure Streaming (ms : List (List UInt8)) (w : Writer) : Prop where
  framed : Framed ms.flatten (StartsAt ms) w
  room : w.data.length < dataLen
  inside : ∀ x, StartsAt ms x → x < ms.flatten.length

theorem Framed.congr {bytes : List UInt8} {S S' : ℕ → Prop} {w : Writer} (h : Framed bytes S w)
    (hS : ∀ x, S' x ↔ S x) : Framed bytes S' w := by
  have hS' : S' = S := funext fun x => propext (hS x)
  rwa [hS']

theorem streaming_startLog (w : Writer) : Streaming [] w.startLog := by
  refine ⟨(framed_startLog w).congr ?_, (by decide : 0 < dataLen), ?_⟩
  · simp [StartsAt]
  · simp [StartsAt]

theorem Streaming.write {ms : List (List UInt8)} {w : Writer} (h : Streaming ms w) {o : Outside}
    (hacks : ∀ n p, awaitAck p.msgSequence (o.polls n p) = true) {m : List UInt8} (hm : m ≠ []) :
    Streaming (ms ++ [m]) (w.writeMessage o m).2 := by
  have hstart := h.framed.start h.room
  have hroom := h.room
  rw [Writer.writeMessage, if_pos h.framed.started]
  dsimp only
  generalize hw₁ : (if w.data.firstMessageOffset = 255 then
    ({ w with data := { w.data with firstMessageOffset := w.data.length } } : Writer) else w) = w₁
    at hstart
  have hroom₁ : w₁.data.length < dataLen := by
    rw [← hw₁]
    split <;> exact hroom
  obtain ⟨-, hframed, hroom₂, hless⟩ :=
      hstart.writeLoop hroom₁ ⟨ms.flatten.length, Or.inr rfl⟩ hacks
    (fun hnil => absurd hnil hm)
  have hflat : (ms ++ [m]).flatten = ms.flatten ++ m := by simp
  refine ⟨?_, hroom₂, ?_⟩
  · rw [hflat]
    exact hframed.congr fun x => startsAt_append ms m x
  · intro x hx
    rw [hflat]
    exact hless x ((startsAt_append ms m x).1 hx)

theorem Streaming.setNeedReliable {ms : List (List UInt8)} {w : Writer} (h : Streaming ms w)
    {o : Outside} (hacks : ∀ n p, awaitAck p.msgSequence (o.polls n p) = true) (b : Bool) :
    Streaming ms (w.setNeedReliableTransfer o b) := by
  have hset : ∀ w' : Writer, Streaming ms w' →
      Streaming ms { w' with needReliableTransfer := b } := by
    intro w' h'
    exact ⟨⟨h'.framed.started, h'.framed.sequence, h'.framed.room, h'.framed.content,
      h'.framed.packets, h'.framed.pending, h'.framed.starts⟩, h'.room, h'.inside⟩
  unfold Writer.setNeedReliableTransfer
  split
  · rename_i hflush
    have hpos : 0 < w.data.length := by
      simp only [Bool.and_eq_true, decide_eq_true_eq] at hflush
      exact hflush.2
    obtain ⟨hok, hframed⟩ := h.framed.publish hpos h.inside hacks
    refine hset _ ⟨hframed, ?_, h.inside⟩
    rw [Writer.publishMessage_length hok]
    decide
  · exact hset w h

theorem Streaming.run {ms : List (List UInt8)} {w : Writer} (h : Streaming ms w) {o : Outside}
    (hacks : ∀ n p, awaitAck p.msgSequence (o.polls n p) = true) {calls : List Call}
    (hne : ∀ m, Call.write m ∈ calls → m ≠ []) :
    Streaming (ms ++ messages calls) (calls.foldl (Call.run o) w) := by
  induction calls generalizing ms w with
  | nil => simpa [messages] using h
  | cons c calls ih =>
    have hrest : ∀ m, Call.write m ∈ calls → m ≠ [] := fun m hm => hne m (by simp [hm])
    cases c with
    | write m =>
      have hnext := ih (h.write hacks (hne m (by simp))) hrest
      rwa [List.append_assoc] at hnext
    | setNeedReliable b => exact ih (h.setNeedReliable hacks b) hrest

/-- The packets of a log: they are numbered modulo 2^16, their bytes are the messages up to less
than a packet, and each one says where in it the first message starts. -/
theorem published_framing (o : Outside)
    (hacks : ∀ n p, awaitAck p.msgSequence (o.polls n p) = true) (w : Writer) (calls : List Call)
    (hne : ∀ m, Call.write m ∈ calls → m ≠ []) :
    let published := (calls.foldl (Call.run o) w.startLog).published
    (∀ i p, published[i]? = some p → p.msgSequence = UInt16.ofNat i) ∧
      (∃ missing, missing.length < dataLen ∧
        payloads published ++ missing = (messages calls).flatten) ∧
      ∀ i p, published[i]? = some p →
        FirstStart (StartsAt (messages calls)) (payloads (published.take i)).length p.length
          p.firstMessageOffset := by
  intro published
  have h := (streaming_startLog w).run hacks hne
  rw [List.nil_append] at h
  refine ⟨fun i p hp => (h.framed.packets i p hp).1, ⟨_, ?_, h.framed.content⟩,
    fun i p hp => (h.framed.packets i p hp).2⟩
  rw [length_payload]
  exact h.room

/-- A message of 300 bytes and a short one, flushed when the reliable transfer ends. -/
theorem published_framing_flush :
    let o : Outside :=
      ⟨fun _ => 0, fun _ p => [.ack (p.msgSequence - 1) false, .ack p.msgSequence false]⟩
    let calls := [Call.setNeedReliable true, .write (List.replicate 300 1), .write [2],
      .setNeedReliable false]
    let w : Writer := ⟨⟨0, 0, 0, 0, 0, fun _ => 0⟩, false, false, []⟩
    let published := (calls.foldl (Call.run o) w.startLog).published
    (∀ i p, published[i]? = some p → p.msgSequence = UInt16.ofNat i) ∧
      (∃ missing, missing.length < dataLen ∧
        payloads published ++ missing = (messages calls).flatten) ∧
      ∀ i p, published[i]? = some p →
        FirstStart (StartsAt (messages calls)) (payloads (published.take i)).length p.length
          p.firstMessageOffset := by
  refine published_framing _ ?_ _ _ ?_
  · intro n p
    simp [awaitAck]
  · intro m hm
    simp only [List.mem_cons, Call.write.injEq, List.not_mem_nil, or_false, reduceCtorEq,
      false_or] at hm
    rcases hm with rfl | rfl
    · exact List.ne_nil_of_length_pos (by rw [List.length_replicate]; decide)
    · simp

end Stream
end Logger
end DtPhm
