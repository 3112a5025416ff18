import DtPhm.Lib.Bytes
import DtPhm.Rtps.Transport

/-!
# ReceiveBuffer — where the reader touches its buffer

`rx_buffer` is an array of 1024 bytes, of which the first `rx_buff_pos` are in use.  Every exit of
`read` moves a tail of them to the beginning.  Here the array is part of a memory that goes on
behind it, and each call tells which ranges of addresses it touches.

* `TransportNode.read` — a call of the reader, with the ranges it touches;
* `read_refines` — on the bytes in use, the reader of `Transport`;
* `OverlongMove` — a message with a wrong checksum, too far behind in the buffer;
* `reads_inside_iff` — which runs touch only the array.
-/

namespace DtPhm
namespace Rtps

open Lib

/-! ## The memory of a node -/

/-- A difference of two `uint32_t`, which wraps. -/
def subU32 (a b : ℕ) : ℕ := (a + 2 ^ 32 - b) % 2 ^ 32

theorem subU32_of_le {a b : ℕ} (h : b ≤ a) (ha : a < 2 ^ 32) : subU32 a b = a - b := by
  unfold subU32
  omega

/-- Bytes that are touched, as indices into `rx_buffer`. -/
structure Range where
  start : ℕ
  len : ℕ
  deriving DecidableEq, Repr

/-- Only indices below `BUFFER_SIZE` are touched. -/
def Range.Inside (r : Range) : Prop := ∀ i, r.start ≤ i → i < r.start + r.len → i < bufferSize

/-- The members of `Transport_node` that `read` uses, and the bytes `node_read` has not given yet.
The memory begins with `rx_buffer`. -/
structure TransportNode where
  rxBuffer : Mem
  rxBuffPos : ℕ
  stream : List UInt8

/-- What a call leaves and returns, and what it touches. -/
structure Outcome where
  node : TransportNode
  ret : ℤ
  message : Option Message
  touched : List Range

/-! ## The reader -/

/-- `memcmp` is called where the first character is right. -/
def startsAt (m : Mem) (i : ℕ) : Bool := decide (m i = markerByte ∧ load m i 3 = marker)

/-- The loop that looks for a start, with `n` rounds to go. -/
def searchStart (m : Mem) : ℕ → ℕ → ℕ
  | 0, i => i
  | n + 1, i => if startsAt m i then i else searchStart m n (i + 1)

/-- What the loop looks at. -/
def searched (m : Mem) : ℕ → ℕ → List Range
  | 0, _ => []
  | n + 1, i =>
      ⟨i, if m i = markerByte then 3 else 1⟩ :: if startsAt m i then [] else searched m n (i + 1)

/-- The header at an index. -/
def headerAt (m : Mem) (i : ℕ) : Header where
  topicId := m (i + 3)
  seq := m (i + 4)
  payloadLenH := m (i + 5)
  payloadLenL := m (i + 6)
  crcH := m (i + 7)
  crcL := m (i + 8)

/-- The first `n` bytes are dropped; `len` bytes behind them are moved. -/
def TransportNode.discard (s : TransportNode) (n len : ℕ) : TransportNode :=
  { s with rxBuffer := memmove s.rxBuffer 0 n len, rxBuffPos := subU32 s.rxBuffPos n }

/-- Source and destination of a move to the beginning. -/
def movedFrom (n len : ℕ) : List Range := [⟨n, len⟩, ⟨0, len⟩]

/-- A start was found at index `start`. -/
def TransportNode.readMessage (bufferLen : ℕ) (s : TransportNode) (start : ℕ) : Outcome :=
  let header := headerAt s.rxBuffer start
  let payloadLen := header.payloadLen
  let seen : List Range := [⟨start, headerSize⟩]
  if bufferLen < headerSize + payloadLen then
    -- drop the message and continue with the read buffer
    let len := subU32 s.rxBuffPos (start + 1)
    ⟨s.discard (start + 1) len, -emsgsize, none, seen ++ movedFrom (start + 1) len⟩
  else if start + headerSize + payloadLen > s.rxBuffPos then
    -- if there's garbage at the beginning, drop it
    if start > 0 then
      let len := subU32 s.rxBuffPos start
      ⟨s.discard start len, 0, none, seen ++ movedFrom start len⟩
    else
      ⟨s, 0, none, seen⟩
  else
    let payload := load s.rxBuffer (start + headerSize) payloadLen
    let checked := seen ++ [⟨start + headerSize, payloadLen⟩]
    if header.crc ≠ crc16 payload then
      -- the position is reduced after the move, which is of all bytes in use
      ⟨s.discard (start + 1) s.rxBuffPos, -1, none, checked ++ movedFrom (start + 1) s.rxBuffPos⟩
    else
      let size := start + headerSize + payloadLen
      let len := subU32 s.rxBuffPos size
      ⟨s.discard size len, (headerSize + payloadLen : ℕ), some ⟨header.topicId, payload⟩,
        checked ++ ⟨start + headerSize, payloadLen⟩ :: movedFrom size len⟩

/-- `read`, behind `node_read`. -/
def TransportNode.readBuffer (bufferLen : ℕ) (s : TransportNode) : Outcome :=
  if s.rxBuffPos < headerSize then ⟨s, 0, none, []⟩
  else
    let n := s.rxBuffPos - headerSize + 1
    let start := searchStart s.rxBuffer n 0
    let looked := searched s.rxBuffer n 0
    if start > s.rxBuffPos - headerSize then
      -- all we've checked so far is garbage, drop it - but save unchecked bytes
      let len := subU32 s.rxBuffPos start
      ⟨s.discard start len, -1, none, looked ++ movedFrom start len⟩
    else
      let r := s.readMessage bufferLen start
      { r with touched := looked ++ r.touched }

/-- How many bytes `node_read` may give. -/
def TransportNode.space (s : TransportNode) : ℕ := subU32 bufferSize s.rxBuffPos

/-- `node_read` with up to `len` bytes ready. -/
def TransportNode.receive (s : TransportNode) (len : ℕ) : TransportNode :=
  let bytes := s.stream.take (min len s.space)
  { rxBuffer := store s.rxBuffer s.rxBuffPos bytes
    rxBuffPos := (s.rxBuffPos + bytes.length) % 2 ^ 32
    stream := s.stream.drop (min len s.space) }

/-- A call of `read`, for a caller with room for `bufferLen` bytes. -/
def TransportNode.read (bufferLen : ℕ) (s : TransportNode) : ReadEvent → Outcome
  | .notOpen => ⟨s, -1, none, []⟩
  | .failed ret => ⟨s, ret, none, [⟨s.rxBuffPos, s.space⟩]⟩
  | .ready len =>
      let r := (s.receive len).readBuffer bufferLen
      { r with touched := ⟨s.rxBuffPos, s.space⟩ :: r.touched }

/-- The call of a run; every caller may have another room. -/
def nodeStep (s : TransportNode) (e : ℕ × ReadEvent) : TransportNode := (s.read e.1 e.2).node

/-! ## On the bytes in use -/

/-- The bytes in use, as the reader of `Transport` has them. -/
def TransportNode.link (s : TransportNode) : Link := ⟨load s.rxBuffer 0 s.rxBuffPos, s.stream⟩

section Search

variable {m : Mem} {n i : ℕ} {r : Range}

/-- By induction on the bytes: the loop of `Transport` finds the same start. -/
theorem searchStart_eq (m : Mem) (n i : ℕ) :
    searchStart m (n + 1 - headerSize) i = i + findStart (load m i n) := by
  induction n generalizing i with
  | zero => simp [searchStart, headerSize, load, findStart]
  | succ n ih =>
      have hload : load m i (n + 1) = m i :: load m (i + 1) n := by
        rw [Nat.add_comm n 1, load_add]
        simp [load]
      have hlen : (m i :: load m (i + 1) n).length = n + 1 := by simp
      -- both loops end where no header fits any more
      by_cases hn : n + 1 < headerSize
      · have hzero : n + 1 + 1 - headerSize = 0 := by omega
        rw [hzero, searchStart, hload, findStart, hlen, if_pos hn, Nat.add_zero]
      · have hsucc : n + 1 + 1 - headerSize = (n + 1 - headerSize) + 1 := by omega
        have hthree : (m i :: load m (i + 1) n).take 3 = load m i 3 := by
          rw [← hload]
          exact load_take m i (Nat.le_trans (by decide) (Nat.le_of_not_lt hn))
        rw [hsucc, searchStart, hload, findStart, hlen, if_neg hn, hthree]
        by_cases hs : m i = markerByte ∧ load m i 3 = marker
        · simp [startsAt, hs]
        · rw [startsAt, if_neg (by simpa using hs), if_neg hs, ih]
          omega

theorem searchStart_le (m : Mem) (n i : ℕ) : searchStart m n i ≤ i + n := by
  induction n generalizing i with
  | zero => exact Nat.le_refl _
  | succ n ih =>
      rw [searchStart]
      split
      · omega
      · have := ih (i + 1)
        omega

theorem le_of_mem_searched (h : r ∈ searched m n i) : r.start + r.len ≤ i + n + 2 := by
  induction n generalizing i with
  | zero => cases h
  | succ n ih =>
      rw [searched] at h
      rcases List.mem_cons.1 h with rfl | htail
      · change i + (if m i = markerByte then 3 else 1) ≤ _
        split <;> omega
      · split at htail
        · cases htail
        · have := ih htail
          omega

end Search

section Refines

variable {bufferLen n len start : ℕ} {s : TransportNode} {e : ReadEvent}

theorem discard_pos (hn : n ≤ s.rxBuffPos) (hpos : s.rxBuffPos ≤ bufferSize) :
    (s.discard n len).rxBuffPos = s.rxBuffPos - n :=
  subU32_of_le hn (Nat.lt_of_le_of_lt hpos (by decide))

/-- Whatever is moved beyond the bytes in use, these lose their first `n`. -/
theorem discard_link (hn : n ≤ s.rxBuffPos) (hpos : s.rxBuffPos ≤ bufferSize)
    (hlen : s.rxBuffPos - n ≤ len) :
    (s.discard n len).link = ⟨s.link.rxBuffer.drop n, s.stream⟩ := by
  have hload : load (memmove s.rxBuffer 0 n len) 0 (s.rxBuffPos - n) =
      (load s.rxBuffer 0 s.rxBuffPos).drop n := by
    rw [load_memmove _ _ hlen, load_drop _ _ hn, Nat.zero_add]
  rw [TransportNode.link, discard_pos hn hpos]
  exact congrArg (fun bytes => Link.mk bytes s.stream) hload

theorem ofBytes_link (h : start + headerSize ≤ s.rxBuffPos) :
    Header.ofBytes (s.link.rxBuffer.drop start) = headerAt s.rxBuffer start := by
  have hget : ∀ i < headerSize, (s.link.rxBuffer.drop start).getD i 0 = s.rxBuffer (start + i) := by
    intro i hi
    rw [TransportNode.link, load_drop _ _ (by omega), getD_load _ _ (by omega), Nat.zero_add]
  rw [Header.ofBytes, hget 3 (by decide), hget 4 (by decide), hget 5 (by decide),
    hget 6 (by decide),
    hget 7 (by decide), hget 8 (by decide), headerAt]

theorem payload_link (h : start + headerSize + len ≤ s.rxBuffPos) :
    ((s.link.rxBuffer.drop start).drop headerSize).take len =
      load s.rxBuffer (start + headerSize) len := by
  rw [List.drop_drop, TransportNode.link, load_drop _ _ (by omega), load_take _ _ (by omega),
    Nat.zero_add]

theorem subU32_pos (hn : n ≤ s.rxBuffPos) (hpos : s.rxBuffPos ≤ bufferSize) :
    subU32 s.rxBuffPos n = s.rxBuffPos - n :=
  subU32_of_le hn (Nat.lt_of_le_of_lt hpos (by decide))

/-- What a call leaves and returns is what the reader of `Transport` leaves and returns. -/
structure Refines (r : Outcome) (stream : List UInt8) (r' : ReadResult) : Prop where
  link : r.node.link = ⟨r'.rxBuffer, stream⟩
  ret : r.ret = r'.ret
  message : r.message = r'.message

theorem readMessage_refines (hpos : s.rxBuffPos ≤ bufferSize)
    (hstart : start + headerSize ≤ s.rxBuffPos) :
    Refines (s.readMessage bufferLen start) s.stream
      (readMessage bufferLen s.link.rxBuffer start) := by
  have hlength : s.link.rxBuffer.length = s.rxBuffPos := length_load _ _ _
  unfold TransportNode.readMessage readMessage
  simp only [ofBytes_link hstart, hlength, ← Nat.add_assoc]
  have hone : start + 1 ≤ s.rxBuffPos := Nat.le_trans (Nat.add_le_add_left (by decide) _) hstart
  have hle : start ≤ s.rxBuffPos := Nat.le_of_succ_le hone
  by_cases hroom : bufferLen < headerSize + (headerAt s.rxBuffer start).payloadLen
  -- the message does not fit the caller's room
  · rw [if_pos hroom, if_pos hroom, subU32_pos hone hpos]
    exact ⟨discard_link hone hpos (Nat.le_refl _), rfl, rfl⟩
  rw [if_neg hroom, if_neg hroom]
  by_cases hshort : start + headerSize + (headerAt s.rxBuffer start).payloadLen > s.rxBuffPos
  -- the message is not complete
  · rw [if_pos hshort, if_pos hshort]
    by_cases hgarbage : start > 0
    · rw [if_pos hgarbage, subU32_pos hle hpos]
      exact ⟨discard_link hle hpos (Nat.le_refl _), rfl, rfl⟩
    · obtain rfl : start = 0 := Nat.eq_zero_of_not_pos hgarbage
      rw [if_neg hgarbage]
      exact ⟨rfl, rfl, rfl⟩
  rw [if_neg hshort, if_neg hshort, payload_link (Nat.le_of_not_lt hshort)]
  by_cases hcrc : (headerAt s.rxBuffer start).crc ≠ crc16 (load s.rxBuffer (start + headerSize)
      (headerAt s.rxBuffer start).payloadLen)
  -- more is moved than is left, which does no harm to the bytes that are
  · rw [if_pos hcrc, if_pos hcrc]
    exact ⟨discard_link hone hpos (Nat.sub_le _ _), rfl, rfl⟩
  · rw [if_neg hcrc, if_neg hcrc, subU32_pos (Nat.le_of_not_lt hshort) hpos]
    exact ⟨discard_link (Nat.le_of_not_lt hshort) hpos (Nat.le_refl _), rfl, rfl⟩

theorem searchStart_link (h : headerSize ≤ s.rxBuffPos) :
    searchStart s.rxBuffer (s.rxBuffPos - headerSize + 1) 0 = findStart s.link.rxBuffer := by
  have hrounds : s.rxBuffPos - headerSize + 1 = s.rxBuffPos + 1 - headerSize := by omega
  rw [hrounds, searchStart_eq, Nat.zero_add]
  rfl

theorem findStart_link_le (h : headerSize ≤ s.rxBuffPos) :
    findStart s.link.rxBuffer ≤ s.rxBuffPos := by
  have hle := searchStart_le s.rxBuffer (s.rxBuffPos - headerSize + 1) 0
  have hheader : 0 < headerSize := by decide
  rw [searchStart_link h] at hle
  omega

theorem readBuffer_refines (bufferLen : ℕ) (hpos : s.rxBuffPos ≤ bufferSize) :
    Refines (s.readBuffer bufferLen) s.stream (readBuffer bufferLen s.link.rxBuffer) := by
  have hlength : s.link.rxBuffer.length = s.rxBuffPos := length_load _ _ _
  unfold TransportNode.readBuffer readBuffer
  rw [hlength]
  by_cases hshort : s.rxBuffPos < headerSize
  · rw [if_pos hshort, if_pos hshort]
    exact ⟨rfl, rfl, rfl⟩
  rw [if_neg hshort, if_neg hshort]
  have hheader : headerSize ≤ s.rxBuffPos := Nat.le_of_not_lt hshort
  have hfound := findStart_link_le hheader
  simp only [searchStart_link hheader]
  by_cases hend : findStart s.link.rxBuffer > s.rxBuffPos - headerSize
  · rw [if_pos hend, if_pos hend, subU32_pos hfound hpos]
    exact ⟨discard_link hfound hpos (Nat.le_refl _), rfl, rfl⟩
  · rw [if_neg hend, if_neg hend]
    have hr : Refines (s.readMessage bufferLen (findStart s.link.rxBuffer)) s.stream
        (readMessage bufferLen s.link.rxBuffer (findStart s.link.rxBuffer)) :=
      readMessage_refines hpos (by omega)
    exact ⟨hr.link, hr.ret, hr.message⟩

theorem space_eq (hpos : s.rxBuffPos ≤ bufferSize) : s.space = bufferSize - s.rxBuffPos :=
  subU32_of_le hpos (by decide)

theorem nodeRead_link (hpos : s.rxBuffPos ≤ bufferSize) (len : ℕ) :
    nodeRead s.link len = min len s.space := by
  rw [nodeRead, space_eq hpos, TransportNode.link, length_load]

theorem receive_pos (hpos : s.rxBuffPos ≤ bufferSize) (len : ℕ) :
    (s.receive len).rxBuffPos = s.rxBuffPos + (s.stream.take (min len s.space)).length ∧
      (s.receive len).rxBuffPos ≤ bufferSize := by
  -- `node_read` gives no more than there is room for, so that nothing wraps
  have htake : (s.stream.take (min len s.space)).length ≤ bufferSize - s.rxBuffPos := by
    rw [List.length_take, space_eq hpos]
    omega
  have hmod : (s.receive len).rxBuffPos = s.rxBuffPos +
      (s.stream.take (min len s.space)).length := by
    have hlt : bufferSize < 2 ^ 32 := by decide
    exact Nat.mod_eq_of_lt (by omega)
  exact ⟨hmod, by omega⟩

theorem receive_link (hpos : s.rxBuffPos ≤ bufferSize) (len : ℕ) :
    (s.receive len).link =
      ⟨s.link.rxBuffer ++ s.stream.take (nodeRead s.link len),
        s.stream.drop (nodeRead s.link len)⟩ := by
  rw [nodeRead_link hpos, TransportNode.link, (receive_pos hpos len).1]
  exact congrArg (fun bytes => Link.mk bytes _) (load_store_end _ _ _)

theorem receive_stream (hpos : s.rxBuffPos ≤ bufferSize) (len : ℕ) :
    (s.receive len).stream = s.stream.drop (nodeRead s.link len) :=
  congrArg Link.stream (receive_link hpos len)

/-- A call of the reader is one of the reader of `Transport`, on the bytes in use. -/
theorem read_refines (hpos : s.rxBuffPos ≤ bufferSize) (e : ReadEvent) :
    Refines (s.read bufferLen e) (linkStep bufferLen s.link e).stream
      (read bufferLen s.link e) := by
  cases e with
  | notOpen => exact ⟨rfl, rfl, rfl⟩
  | failed ret => exact ⟨rfl, rfl, rfl⟩
  | ready len =>
      have hr := readBuffer_refines bufferLen (receive_pos hpos len).2
      rw [receive_link hpos, receive_stream hpos] at hr
      exact ⟨hr.link, hr.ret, hr.message⟩

theorem nodeStep_link (hpos : s.rxBuffPos ≤ bufferSize) (e : ℕ × ReadEvent) :
    (nodeStep s e).link = linkStep e.1 s.link e.2 :=
  (read_refines hpos e.2).link

end Refines

/-! ## The position -/

/-- The reader of `Transport` adds nothing to its buffer. -/
theorem length_readBuffer_le (bufferLen : ℕ) (text : List UInt8) :
    (readBuffer bufferLen text).rxBuffer.length ≤ text.length := by
  unfold readBuffer readMessage
  dsimp only
  split_ifs <;> simp

section Position

variable {s : TransportNode}

theorem read_pos (hpos : s.rxBuffPos ≤ bufferSize) (bufferLen : ℕ) (e : ReadEvent) :
    (s.read bufferLen e).node.rxBuffPos ≤ bufferSize := by
  cases e with
  | notOpen => exact hpos
  | failed ret => exact hpos
  | ready len =>
      have hreceived := (receive_pos hpos len).2
      have hlink := (readBuffer_refines bufferLen hreceived).link
      have hlength : ((s.receive len).readBuffer bufferLen).node.rxBuffPos =
          (readBuffer bufferLen (s.receive len).link.rxBuffer).rxBuffer.length := by
        rw [← congrArg (fun l => l.rxBuffer.length) hlink]
        exact (length_load _ _ _).symm
      have hle := length_readBuffer_le bufferLen (s.receive len).link.rxBuffer
      have htext : (s.receive len).link.rxBuffer.length = (s.receive len).rxBuffPos :=
        length_load _ _ _
      change ((s.receive len).readBuffer bufferLen).node.rxBuffPos ≤ bufferSize
      omega

theorem nodeStep_pos (hpos : s.rxBuffPos ≤ bufferSize) (e : ℕ × ReadEvent) :
    (nodeStep s e).rxBuffPos ≤ bufferSize := read_pos hpos e.1 e.2

theorem visited_pos (hpos : s.rxBuffPos ≤ bufferSize) (es : List (ℕ × ReadEvent)) :
    ∀ t ∈ visited nodeStep s es, t.rxBuffPos ≤ bufferSize := by
  have hstep : ∀ t e, t.rxBuffPos ≤ bufferSize → (nodeStep t e).rxBuffPos ≤ bufferSize :=
    fun t e ht => nodeStep_pos ht e
  exact invariant_visited hstep hpos es

/-- A run of the reader is one of the reader of `Transport`, on the bytes in use. -/
theorem exec_link (hpos : s.rxBuffPos ≤ bufferSize) (es : List (ℕ × ReadEvent)) :
    (exec nodeStep s es).link = exec (fun l e => linkStep e.1 l e.2) s.link es := by
  induction es generalizing s with
  | nil => rfl
  | cons e es ih => rw [exec_cons, exec_cons, ih (nodeStep_pos hpos e), nodeStep_link hpos]

end Position

/-! ## What is touched -/

/-- In this text the first message is complete and fits, and its checksum is wrong. -/
def BadChecksum (bufferLen : ℕ) (text : List UInt8) : Prop :=
  let message := text.drop (findStart text)
  let header := Header.ofBytes message
  findStart text + headerSize ≤ text.length ∧
    headerSize + header.payloadLen ≤ bufferLen ∧
    findStart text + headerSize + header.payloadLen ≤ text.length ∧
    header.crc ≠ crc16 ((message.drop headerSize).take header.payloadLen)

/-- The bytes in the buffer once `node_read` has given up to `len` bytes. -/
def TransportNode.received (s : TransportNode) (len : ℕ) : List UInt8 :=
  s.link.rxBuffer ++ s.stream.take (nodeRead s.link len)

/-- The bytes received make a message with a wrong checksum, and as many bytes as there are in the
buffer do not fit behind the first one of it. -/
def OverlongMove (s : TransportNode) (e : ℕ × ReadEvent) : Prop :=
  ∃ len, e.2 = .ready len ∧ BadChecksum e.1 (s.received len) ∧
    bufferSize < findStart (s.received len) + 1 + (s.received len).length

section Touched

variable {bufferLen n len start : ℕ} {s : TransportNode} {r : Range}

theorem inside_of_le (h : r.start + r.len ≤ bufferSize) : r.Inside :=
  fun _ _ hi => Nat.lt_of_lt_of_le hi h

theorem movedFrom_inside_iff (hlen : 0 < len) :
    (∀ r ∈ movedFrom n len, r.Inside) ↔ n + len ≤ bufferSize := by
  constructor
  · intro h
    have hsource : Range.Inside ⟨n, len⟩ := h _ List.mem_cons_self
    have := hsource (n + len - 1) (by change n ≤ _; omega) (by change _ < n + len; omega)
    omega
  · intro h r hr
    rcases List.mem_cons.1 hr with rfl | hr
    · exact inside_of_le h
    · obtain rfl := List.mem_singleton.1 hr
      exact inside_of_le (by change 0 + len ≤ _; omega)

/-- A move of the bytes in use behind the first `n`. -/
theorem movedFrom_inside (hn : n ≤ s.rxBuffPos) (hpos : s.rxBuffPos ≤ bufferSize) :
    ∀ r ∈ movedFrom n (s.rxBuffPos - n), r.Inside := by
  intro r hr
  rcases List.mem_cons.1 hr with rfl | hr
  · exact inside_of_le (by change n + (s.rxBuffPos - n) ≤ _; omega)
  · obtain rfl := List.mem_singleton.1 hr
    exact inside_of_le (by change 0 + (s.rxBuffPos - n) ≤ _; omega)

theorem inside_append_iff {rs rs' : List Range} (h : ∀ r ∈ rs, r.Inside) :
    (∀ r ∈ rs ++ rs', r.Inside) ↔ ∀ r ∈ rs', r.Inside := by
  rw [List.forall_mem_append]
  exact and_iff_right h

/-- The message that starts at an index is complete and fits, and its checksum is wrong. -/
def TransportNode.BadAt (bufferLen : ℕ) (s : TransportNode) (start : ℕ) : Prop :=
  let header := headerAt s.rxBuffer start
  headerSize + header.payloadLen ≤ bufferLen ∧
    start + headerSize + header.payloadLen ≤ s.rxBuffPos ∧
    header.crc ≠ crc16 (load s.rxBuffer (start + headerSize) header.payloadLen)

/-- In a message that starts at index `start`, only the exit for a wrong checksum moves bytes that
are not in use. -/
theorem readMessage_inside_iff (hpos : s.rxBuffPos ≤ bufferSize)
    (hstart : start + headerSize ≤ s.rxBuffPos) :
    (∀ r ∈ (s.readMessage bufferLen start).touched, r.Inside) ↔
      ¬(s.BadAt bufferLen start ∧ bufferSize < start + 1 + s.rxBuffPos) := by
  let header := headerAt s.rxBuffer start
  have hone : start + 1 ≤ s.rxBuffPos := Nat.le_trans (Nat.add_le_add_left (by decide) _) hstart
  have hle : start ≤ s.rxBuffPos := Nat.le_of_succ_le hone
  have hseen : ∀ r ∈ ([⟨start, headerSize⟩] : List Range), r.Inside := by
    intro r hr
    obtain rfl := List.mem_singleton.1 hr
    exact inside_of_le (Nat.le_trans hstart hpos)
  unfold TransportNode.readMessage
  dsimp only
  by_cases hroom : bufferLen < headerSize + header.payloadLen
  -- here, and in all exits but one, what is moved is in use
  · rw [if_pos hroom, subU32_pos hone hpos]
    refine iff_of_true ((inside_append_iff hseen).2 (movedFrom_inside hone hpos)) ?_
    rintro ⟨⟨hfits, -⟩, -⟩
    exact Nat.not_lt.2 hfits hroom
  rw [if_neg hroom]
  by_cases hshort : start + headerSize + header.payloadLen > s.rxBuffPos
  · rw [if_pos hshort]
    have hno : ¬(s.BadAt bufferLen start ∧ bufferSize < start + 1 + s.rxBuffPos) := by
      rintro ⟨⟨-, hcomplete, -⟩, -⟩
      exact Nat.not_lt.2 hcomplete hshort
    by_cases hgarbage : start > 0
    · rw [if_pos hgarbage, subU32_pos hle hpos]
      exact iff_of_true ((inside_append_iff hseen).2 (movedFrom_inside hle hpos)) hno
    · rw [if_neg hgarbage]
      exact iff_of_true hseen hno
  rw [if_neg hshort]
  have hcomplete : start + headerSize + header.payloadLen ≤ s.rxBuffPos := Nat.le_of_not_lt hshort
  have hpayload : Range.Inside ⟨start + headerSize, header.payloadLen⟩ :=
    inside_of_le (Nat.le_trans hcomplete hpos)
  have hchecked : ∀ r ∈ ([⟨start, headerSize⟩] : List Range) ++
      [⟨start + headerSize, header.payloadLen⟩], r.Inside := by
    rw [inside_append_iff hseen]
    intro r hr
    obtain rfl := List.mem_singleton.1 hr
    exact hpayload
  by_cases hcrc : header.crc ≠ crc16 (load s.rxBuffer (start + headerSize) header.payloadLen)
  -- as many bytes are moved as are in use, from behind the first character of the start
  · rw [if_pos hcrc, inside_append_iff hchecked,
      movedFrom_inside_iff (Nat.lt_of_lt_of_le (Nat.succ_pos start) hone)]
    constructor
    · rintro hfits ⟨-, hover⟩
      omega
    · intro hno
      by_contra hover
      exact hno ⟨⟨Nat.le_of_not_lt hroom, hcomplete, hcrc⟩, Nat.lt_of_not_le hover⟩
  · rw [if_neg hcrc, subU32_pos hcomplete hpos, inside_append_iff hchecked, List.forall_mem_cons]
    refine iff_of_true ⟨hpayload, movedFrom_inside hcomplete hpos⟩ ?_
    rintro ⟨⟨-, -, hbad⟩, -⟩
    exact hcrc hbad

theorem searched_inside (h : headerSize ≤ s.rxBuffPos) (hpos : s.rxBuffPos ≤ bufferSize) :
    ∀ r ∈ searched s.rxBuffer (s.rxBuffPos - headerSize + 1) 0, r.Inside := by
  intro r hr
  have hle := le_of_mem_searched hr
  have hheader : headerSize = 9 := rfl
  exact inside_of_le (by omega)

theorem readBuffer_inside_iff (bufferLen : ℕ) (hpos : s.rxBuffPos ≤ bufferSize) :
    (∀ r ∈ (s.readBuffer bufferLen).touched, r.Inside) ↔
      ¬(BadChecksum bufferLen s.link.rxBuffer ∧
        bufferSize < findStart s.link.rxBuffer + 1 + s.link.rxBuffer.length) := by
  have hlength : s.link.rxBuffer.length = s.rxBuffPos := length_load _ _ _
  unfold TransportNode.readBuffer BadChecksum
  rw [hlength]
  by_cases hshort : s.rxBuffPos < headerSize
  · rw [if_pos hshort]
    refine iff_of_true (fun r hr => by cases hr) ?_
    rintro ⟨⟨hstart, -⟩, -⟩
    omega
  rw [if_neg hshort]
  have hheader : headerSize ≤ s.rxBuffPos := Nat.le_of_not_lt hshort
  have hfound := findStart_link_le hheader
  have hlooked := searched_inside hheader hpos
  simp only [searchStart_link hheader]
  by_cases hend : findStart s.link.rxBuffer > s.rxBuffPos - headerSize
  · rw [if_pos hend, subU32_pos hfound hpos]
    refine iff_of_true ((inside_append_iff hlooked).2 (movedFrom_inside hfound hpos)) ?_
    rintro ⟨⟨hstart, -⟩, -⟩
    omega
  · have hstart : findStart s.link.rxBuffer + headerSize ≤ s.rxBuffPos := by omega
    rw [if_neg hend, ofBytes_link hstart, inside_append_iff hlooked,
      readMessage_inside_iff hpos hstart]
    refine not_congr (and_congr_left fun _ => ?_)
    constructor
    · rintro ⟨hfits, hcomplete, hcrc⟩
      exact ⟨hstart, hfits, hcomplete, by rwa [payload_link hcomplete]⟩
    · rintro ⟨-, hfits, hcomplete, hcrc⟩
      exact ⟨hfits, hcomplete, by rwa [payload_link hcomplete] at hcrc⟩

/-- The step lemma: one call touches only the buffer, unless it makes the overlong move. -/
theorem read_inside_iff (hpos : s.rxBuffPos ≤ bufferSize) (e : ℕ × ReadEvent) :
    (∀ r ∈ (s.read e.1 e.2).touched, r.Inside) ↔ ¬OverlongMove s e := by
  have hspace : Range.Inside ⟨s.rxBuffPos, s.space⟩ := by
    refine inside_of_le ?_
    change s.rxBuffPos + s.space ≤ bufferSize
    rw [space_eq hpos]
    omega
  obtain ⟨bufferLen, event⟩ := e
  cases event with
  | notOpen =>
      refine iff_of_true (fun r hr => by cases hr) ?_
      rintro ⟨len, hlen, -⟩
      cases hlen
  | failed ret =>
      refine iff_of_true (fun r hr => ?_) ?_
      · obtain rfl := List.mem_singleton.1 hr
        exact hspace
      · rintro ⟨len, hlen, -⟩
        cases hlen
  | ready len =>
      have hreceived : (s.receive len).link.rxBuffer = s.received len :=
        congrArg Link.rxBuffer (receive_link hpos len)
      have hread := readBuffer_inside_iff bufferLen (receive_pos hpos len).2
      rw [hreceived] at hread
      change (∀ r ∈ (⟨s.rxBuffPos, s.space⟩ : Range) :: _, r.Inside) ↔ _
      rw [List.forall_mem_cons, and_iff_right hspace, hread]
      refine not_congr ?_
      constructor
      · rintro ⟨hbad, hover⟩
        exact ⟨len, rfl, hbad, hover⟩
      · rintro ⟨len', hlen, hbad, hover⟩
        cases hlen
        exact ⟨hbad, hover⟩

end Touched

/-! ## Runs -/

/-- A node that has just been made; what stands in the memory behind `rx_buffer` is arbitrary. -/
def startNode (behind : Mem) (stream : List UInt8) : TransportNode where
  rxBuffer := fun i => if i < bufferSize then 0 else behind i
  rxBuffPos := 0
  stream := stream

/-- For every stream, however it is cut, and every room: the position never leaves the buffer, and a
run touches only the buffer exactly when none of its calls makes the overlong move. -/
theorem reads_inside_iff (behind : Mem) (stream : List UInt8) (es : List (ℕ × ReadEvent)) :
    (∀ s ∈ visited nodeStep (startNode behind stream) es, s.rxBuffPos ≤ bufferSize) ∧
      (AllSteps nodeStep (fun s e => ∀ r ∈ (s.read e.1 e.2).touched, r.Inside)
          (startNode behind stream) es ↔
        AllSteps nodeStep (fun s e => ¬OverlongMove s e) (startNode behind stream) es) := by
  have hpos : (startNode behind stream).rxBuffPos ≤ bufferSize := Nat.zero_le _
  refine ⟨visited_pos hpos es, ?_⟩
  have hiff : ∀ s e, s.rxBuffPos ≤ bufferSize →
      ((∀ r ∈ (s.read e.1 e.2).touched, r.Inside) ↔ ¬OverlongMove s e) :=
    fun s e hs => read_inside_iff hs e
  exact allSteps_iff_of_invariant hiff (fun s e hs _ => nodeStep_pos hs e) hpos

/-! ## Example -/

/-- A header of an empty message, with a wrong checksum. -/
def wrongHeader : Header := ⟨0, 0, 0, 0, 0, 1⟩

/-- As many bytes as the buffer takes, with that header in front. -/
def fullStream : List UInt8 := wrongHeader.bytes ++ List.replicate 1015 0

theorem length_fullStream : fullStream.length = 1024 := by
  rw [fullStream, List.length_append, List.length_replicate]
  rfl

theorem findStart_fullStream : findStart fullStream = 0 := by
  have hlong : ¬fullStream.length < headerSize := by
    rw [length_fullStream]
    decide
  rw [fullStream, Header.bytes, marker] at hlong ⊢
  simp only [List.cons_append, List.nil_append] at hlong ⊢
  rw [findStart, if_neg hlong, if_pos ⟨rfl, rfl⟩]

theorem badChecksum_fullStream : BadChecksum 1024 fullStream := by
  have hheader : Header.ofBytes fullStream = wrongHeader := rfl
  have hlen : wrongHeader.payloadLen = 0 := rfl
  simp only [BadChecksum, findStart_fullStream, List.drop_zero, hheader, hlen, length_fullStream,
    List.take_zero]
  exact ⟨by decide, by decide, by decide, by decide⟩

/-- 1024 bytes are moved from index 1 on. -/
theorem full_buffer_overlong :
    ¬AllSteps nodeStep (fun s e => ∀ r ∈ (s.read e.1 e.2).touched, r.Inside)
      (startNode (fun _ => 0) fullStream) [(1024, .ready 1024)] := by
  have hpos : (startNode (fun _ => 0) fullStream).rxBuffPos ≤ bufferSize := Nat.zero_le _
  have hreceived : (startNode (fun _ => 0) fullStream).received 1024 = fullStream := by
    have htake : fullStream.take 1024 = fullStream :=
      List.take_of_length_le (Nat.le_of_eq length_fullStream)
    exact htake
  rintro ⟨hinside, -⟩
  refine (read_inside_iff hpos _).1 hinside ⟨1024, rfl, ?_, ?_⟩
  · rw [hreceived]
    exact badChecksum_fullStream
  · rw [hreceived, findStart_fullStream, length_fullStream]
    decide

end Rtps
end DtPhm
