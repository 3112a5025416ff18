import DtPhm.Rtps.Transport
import DtPhm.Lib.Bytes

/-!
# Framing — what the reader finds in a stream of bytes

The reader drops bytes and takes messages before it has seen what follows.  It agrees with a scan
over the whole stream, and what is written comes back.

* `messageAt`, `referenceScan` — the messages of a stream as a whole;
* `readBuffer_settled` — a call of the reader drops and takes only what is settled;
* `write_sent` — a message that is written is found;
* `reads_follow_scan` — all runs of the reader.
-/

namespace DtPhm
namespace Rtps

open Lib

/-! ## Reference -/

/-- The message that starts at the beginning of a text, and its size: there is a marker, the
announced size fits the buffer of the caller, and the checksum is right. -/
def messageAt (bufferLen : ℕ) (text : List UInt8) : Option (Message × ℕ) :=
  let header := Header.ofBytes text
  let size := headerSize + header.payloadLen
  let payload := (text.drop headerSize).take header.payloadLen
  if text.take 3 = marker ∧ size ≤ bufferLen ∧ size ≤ text.length ∧ header.crc = crc16 payload then
    some (⟨header.topicId, payload⟩, size)
  else none

/-- The messages of a stream. -/
def referenceScan (bufferLen : ℕ) (stream : List UInt8) : List Message :=
  scan (messageAt bufferLen) stream

variable {bufferLen : ℕ} {text rest : List UInt8} {m : Message} {n : ℕ}

/-! ## What is settled -/

theorem ofBytes_append (h : headerSize ≤ text.length) (rest : List UInt8) :
    Header.ofBytes (text ++ rest) = Header.ofBytes text := by
  have hget : ∀ i < headerSize, (text ++ rest).getD i 0 = text.getD i 0 := by
    intro i hi
    rw [List.getD_eq_getElem?_getD, List.getD_eq_getElem?_getD,
      List.getElem?_append_left (Nat.lt_of_lt_of_le hi h)]
  unfold Header.ofBytes
  rw [hget 3 (by decide), hget 4 (by decide), hget 5 (by decide), hget 6 (by decide),
    hget 7 (by decide), hget 8 (by decide)]

theorem take_three_append (h : headerSize ≤ text.length) (rest : List UInt8) :
    (text ++ rest).take 3 = text.take 3 :=
  List.take_append_of_le_length (Nat.le_trans (by decide) h)

theorem payload_append {len : ℕ} (h : headerSize + len ≤ text.length) (rest : List UInt8) :
    ((text ++ rest).drop headerSize).take len = (text.drop headerSize).take len := by
  rw [List.drop_append_of_le_length (by omega), List.take_append_of_le_length]
  rw [List.length_drop]
  omega

theorem messageAt_eq_some (h : messageAt bufferLen text = some (m, n)) :
    text.take 3 = marker ∧ n = headerSize + (Header.ofBytes text).payloadLen ∧ n ≤ bufferLen ∧
      n ≤ text.length ∧
      (Header.ofBytes text).crc =
        crc16 ((text.drop headerSize).take (Header.ofBytes text).payloadLen) ∧
      m = ⟨(Header.ofBytes text).topicId,
        (text.drop headerSize).take (Header.ofBytes text).payloadLen⟩ := by
  unfold messageAt at h
  dsimp only at h
  split at h
  case isTrue hall =>
    rcases hall with ⟨hmarker, hfits, hlen, hcrc⟩
    cases h
    exact ⟨hmarker, rfl, hfits, hlen, hcrc, rfl⟩
  case isFalse => cases h

theorem messageAt_of_header (hmarker : text.take 3 = marker)
    (hfits : headerSize + (Header.ofBytes text).payloadLen ≤ bufferLen)
    (hlen : headerSize + (Header.ofBytes text).payloadLen ≤ text.length)
    (hcrc : (Header.ofBytes text).crc =
      crc16 ((text.drop headerSize).take (Header.ofBytes text).payloadLen)) :
    messageAt bufferLen text =
      some (⟨(Header.ofBytes text).topicId,
        (text.drop headerSize).take (Header.ofBytes text).payloadLen⟩,
          headerSize + (Header.ofBytes text).payloadLen) :=
  if_pos ⟨hmarker, hfits, hlen, hcrc⟩

theorem found_of_messageAt (h : messageAt bufferLen text = some (m, n)) :
    Found (messageAt bufferLen) text m n := by
  rcases messageAt_eq_some h with ⟨hmarker, rfl, hfits, hlen, hcrc, rfl⟩
  have hheader : headerSize ≤ text.length := Nat.le_trans (Nat.le_add_right ..) hlen
  refine ⟨Nat.add_pos_left (by decide) _, hlen, fun rest => ?_⟩
  unfold messageAt
  simp only [ofBytes_append hheader, take_three_append hheader, payload_append hlen]
  have hlen' : headerSize + (Header.ofBytes text).payloadLen ≤ (text ++ rest).length := by
    rw [List.length_append]
    exact Nat.le_trans hlen (Nat.le_add_right ..)
  exact if_pos ⟨hmarker, hfits, hlen', hcrc⟩

theorem rejected_of_header (hheader : headerSize ≤ text.length)
    (h : text.take 3 ≠ marker ∨ bufferLen < headerSize + (Header.ofBytes text).payloadLen ∨
      (headerSize + (Header.ofBytes text).payloadLen ≤ text.length ∧
        (Header.ofBytes text).crc ≠
          crc16 ((text.drop headerSize).take (Header.ofBytes text).payloadLen))) :
    Rejected (messageAt bufferLen) text := by
  refine ⟨fun hnil => ?_, fun rest => ?_⟩
  · rw [hnil] at hheader
    exact absurd hheader (by decide)
  · unfold messageAt
    simp only [ofBytes_append hheader, take_three_append hheader]
    refine if_neg ?_
    rintro ⟨hmarker, hfits, -, hcrc⟩
    rcases h with hno | hlong | ⟨hlen, hno⟩
    · exact hno hmarker
    · exact Nat.not_le.2 hlong hfits
    · rw [payload_append hlen] at hcrc
      exact hno hcrc

/-! ## One call -/

theorem findStart_spec (bufferLen : ℕ) (buffer : List UInt8) :
    findStart buffer ≤ buffer.length ∧
      (∀ i < findStart buffer, Rejected (messageAt bufferLen) (buffer.drop i)) ∧
      (headerSize ≤ (buffer.drop (findStart buffer)).length →
        (buffer.drop (findStart buffer)).take 3 = marker) := by
  induction buffer with
  | nil =>
      exact ⟨Nat.le_refl _, fun i hi => absurd hi (Nat.not_lt_zero i), fun h =>
        absurd h (by decide)⟩
  | cons b buffer ih =>
    unfold findStart
    split
    case isTrue hshort =>
      refine ⟨Nat.zero_le _, fun i hi => absurd hi (Nat.not_lt_zero i), fun h => ?_⟩
      exact absurd h (Nat.not_le.2 hshort)
    case isFalse hlong =>
      split
      case isTrue hmarker =>
        exact ⟨Nat.zero_le _, fun i hi => absurd hi (Nat.not_lt_zero i), fun _ => hmarker.2⟩
      case isFalse hno =>
        rcases ih with ⟨hle, hrejected, hstart⟩
        refine ⟨Nat.succ_le_succ hle, fun i hi => ?_, hstart⟩
        cases i with
        | zero =>
          refine rejected_of_header (Nat.not_lt.1 hlong) (.inl fun hmarker => hno ⟨?_, hmarker⟩)
          exact (List.cons.inj hmarker).1
        | succ i => exact hrejected i (Nat.lt_of_succ_lt_succ hi)

/-- What a call does with its buffer: it drops what is rejected, and then may take a message. -/
structure Settled (bufferLen : ℕ) (buffer : List UInt8) (r : ReadResult) : Prop where
  exists_drop : ∃ k ≤ buffer.length,
    (∀ i < k, Rejected (messageAt bufferLen) (buffer.drop i)) ∧
      ((r.message = none ∧ r.rxBuffer = buffer.drop k) ∨
        ∃ m n, r.message = some m ∧ Found (messageAt bufferLen) (buffer.drop k) m n ∧
          r.rxBuffer = (buffer.drop k).drop n)

variable {buffer : List UInt8} {start : ℕ} {ret : ℤ}

theorem Settled.of_dropped (hle : start ≤ buffer.length)
    (h : ∀ i < start, Rejected (messageAt bufferLen) (buffer.drop i)) :
    Settled bufferLen buffer ⟨buffer.drop start, ret, none⟩ :=
  ⟨start, hle, h, .inl ⟨rfl, rfl⟩⟩

theorem Settled.of_rejected (hlt : start < buffer.length)
    (h : ∀ i < start, Rejected (messageAt bufferLen) (buffer.drop i))
    (hstart : Rejected (messageAt bufferLen) (buffer.drop start)) :
    Settled bufferLen buffer ⟨buffer.drop (start + 1), ret, none⟩ := by
  refine .of_dropped hlt fun i hi => ?_
  rcases Nat.lt_succ_iff_lt_or_eq.1 hi with hlt | rfl
  · exact h i hlt
  · exact hstart

theorem readMessage_settled (hheader : headerSize ≤ (buffer.drop start).length)
    (h : ∀ i < start, Rejected (messageAt bufferLen) (buffer.drop i))
    (hmarker : (buffer.drop start).take 3 = marker) :
    Settled bufferLen buffer (readMessage bufferLen buffer start) := by
  have hlt : start < buffer.length := by
    rw [List.length_drop] at hheader
    simp only [headerSize] at hheader
    omega
  unfold readMessage
  dsimp only
  split
  case isTrue hsize => exact .of_rejected hlt h (rejected_of_header hheader (.inr (.inl hsize)))
  case isFalse hsize =>
  split
  case isTrue => exact .of_dropped (Nat.le_of_lt hlt) h
  case isFalse hcomplete =>
  have hlen : headerSize + (Header.ofBytes (buffer.drop start)).payloadLen ≤
      (buffer.drop start).length := by
    rw [List.length_drop]
    omega
  split
  case isTrue hcrc =>
    exact .of_rejected hlt h (rejected_of_header hheader (.inr (.inr ⟨hlen, hcrc⟩)))
  case isFalse hcrc =>
    have hsome := messageAt_of_header hmarker (Nat.not_lt.1 hsize) hlen (Decidable.not_not.1 hcrc)
    refine ⟨start, Nat.le_of_lt hlt, h, .inr ⟨_, _, rfl, found_of_messageAt hsome, ?_⟩⟩
    exact List.drop_drop.symm

theorem readBuffer_settled (bufferLen : ℕ) (buffer : List UInt8) :
    Settled bufferLen buffer (readBuffer bufferLen buffer) := by
  rcases findStart_spec bufferLen buffer with ⟨hle, hrejected, hstart⟩
  unfold readBuffer
  split
  case isTrue =>
    exact ⟨0, Nat.zero_le _, fun i hi => absurd hi (Nat.not_lt_zero i), .inl ⟨rfl, rfl⟩⟩
  case isFalse hlong =>
  dsimp only
  split
  case isTrue => exact .of_dropped hle hrejected
  case isFalse hfound =>
    have hheader : headerSize ≤ (buffer.drop (findStart buffer)).length := by
      rw [List.length_drop]
      omega
    exact readMessage_settled hheader hrejected (hstart hheader)

theorem readBuffer_of_messageAt (h : messageAt bufferLen text = some (m, n)) :
    (readBuffer bufferLen text).message = some m := by
  rcases messageAt_eq_some h with ⟨hmarker, rfl, hfits, hlen, hcrc, rfl⟩
  have hheader : headerSize ≤ text.length := Nat.le_trans (Nat.le_add_right ..) hlen
  have hstart : findStart text = 0 := by
    cases text with
    | nil => rfl
    | cons b text =>
      unfold findStart
      rw [if_neg (Nat.not_lt.2 hheader), if_pos ⟨(List.cons.inj hmarker).1, hmarker⟩]
  unfold readBuffer
  rw [if_neg (Nat.not_lt.2 hheader), hstart]
  dsimp only
  rw [if_neg (Nat.not_lt.2 (Nat.zero_le _))]
  unfold readMessage
  simp only [List.drop_zero, Nat.zero_add]
  rw [if_neg (Nat.not_lt.2 hfits), if_neg (Nat.not_lt.2 hlen), if_neg fun hne => hne hcrc]

theorem readBuffer_length (hbuffer : bufferLen ≤ bufferSize) (htext : text.length ≤ bufferSize) :
    (readBuffer bufferLen text).rxBuffer.length < bufferSize := by
  have hsize : headerSize < bufferSize := by decide
  unfold readBuffer
  split
  case isTrue hshort => exact Nat.lt_trans hshort hsize
  case isFalse hlong =>
  dsimp only
  split
  case isTrue hstart =>
    rw [List.length_drop]
    omega
  case isFalse hstart =>
    unfold readMessage
    dsimp only
    have hheader : 0 < headerSize := by decide
    split
    · rw [List.length_drop]
      omega
    · split
      · rw [List.length_drop]
        omega
      · split
        · rw [List.length_drop]
          omega
        · rw [List.length_drop]
          omega

theorem Settled.scan {r : ReadResult} (h : Settled bufferLen text r) (rest : List UInt8) :
    referenceScan bufferLen (text ++ rest) =
      r.message.toList ++ referenceScan bufferLen (r.rxBuffer ++ rest) := by
  rcases h.exists_drop with ⟨k, hk, hrejected,
    ⟨hmessage, hbuffer⟩ | ⟨m, n, hmessage, hfound, hbuffer⟩⟩
  · rw [hmessage, hbuffer]
    exact scan_append_of_rejected hk hrejected rest
  · rw [hmessage, hbuffer]
    exact (scan_append_of_rejected hk hrejected rest).trans (scan_append_of_found hfound rest)

/-! ## Runs -/

variable {l : Link} {es : List ReadEvent}

theorem linkStep_scan (bufferLen : ℕ) (l : Link) (e : ReadEvent) :
    referenceScan bufferLen (l.rxBuffer ++ l.stream) =
      (read bufferLen l e).message.toList ++
        referenceScan bufferLen ((linkStep bufferLen l e).rxBuffer ++
          (linkStep bufferLen l e).stream) := by
  cases e with
  | notOpen => rfl
  | failed ret => rfl
  | ready len =>
    have h := readBuffer_settled bufferLen (l.rxBuffer ++ l.stream.take (nodeRead l len))
    have hscan := h.scan (l.stream.drop (nodeRead l len))
    rwa [List.append_assoc, List.take_append_drop] at hscan

theorem returned_cons (bufferLen : ℕ) (l : Link) (e : ReadEvent) (es : List ReadEvent) :
    returned bufferLen l (e :: es) =
      (read bufferLen l e).message.toList ++ returned bufferLen (linkStep bufferLen l e) es := rfl

theorem returned_append_scan (bufferLen : ℕ) (l : Link) (es : List ReadEvent) :
    returned bufferLen l es ++
        referenceScan bufferLen ((exec (linkStep bufferLen) l es).rxBuffer ++
          (exec (linkStep bufferLen) l es).stream) =
      referenceScan bufferLen (l.rxBuffer ++ l.stream) := by
  induction es generalizing l with
  | nil => rfl
  | cons e es ih =>
    rw [linkStep_scan bufferLen l e, ← ih (linkStep bufferLen l e), returned_cons,
      List.append_assoc]
    rfl

theorem linkStep_length (hbuffer : bufferLen ≤ bufferSize) (h : l.rxBuffer.length < bufferSize)
    (e : ReadEvent) : (linkStep bufferLen l e).rxBuffer.length < bufferSize := by
  cases e with
  | notOpen => exact h
  | failed ret => exact h
  | ready len =>
    refine readBuffer_length hbuffer ?_
    rw [List.length_append, List.length_take]
    unfold nodeRead
    omega

/-! ## Written messages -/

theorem length_bytes {len : ℕ} (h : len < 65536) :
    (UInt8.ofNat (len >>> 8)).toNat <<< 8 ||| (UInt8.ofNat len).toNat = len := by
  have hhigh : len / 256 % 256 = len / 256 := Nat.mod_eq_of_lt (by omega)
  rw [UInt8.toNat_ofNat', UInt8.toNat_ofNat', Nat.shiftRight_eq_div_pow]
  exact hhigh.symm ▸ high_or_low len

theorem write_sent (seq : UInt8) (hm : headerSize + m.payload.length ≤ bufferLen)
    (hbuffer : bufferLen ≤ bufferSize) : Sent (messageAt bufferLen) (m, write seq m) := by
  have hlen : (write seq m).length = headerSize + m.payload.length := by
    simp [write, Header.bytes, marker, headerSize]
    omega
  have hpayload : m.payload.length < 65536 := by
    have hsize : headerSize + m.payload.length ≤ bufferSize := Nat.le_trans hm hbuffer
    simp only [headerSize, bufferSize] at hsize
    omega
  refine ⟨by rw [hlen]; exact Nat.add_pos_left (by decide) _, fun rest => ?_⟩
  have hpayloadLen : (Header.ofBytes (write seq m ++ rest)).payloadLen = m.payload.length :=
    length_bytes hpayload
  have hcrc : (Header.ofBytes (write seq m ++ rest)).crc = crc16 m.payload := high_or_low_bytes _
  have hdrop : (write seq m ++ rest).drop headerSize = m.payload ++ rest := rfl
  have htake : ((write seq m ++ rest).drop headerSize).take m.payload.length = m.payload := by
    rw [hdrop, List.take_left]
  have hfits : headerSize + m.payload.length ≤ (write seq m ++ rest).length := by
    rw [List.length_append, hlen]
    exact Nat.le_add_right ..
  have hsome : messageAt bufferLen (write seq m ++ rest) = _ := messageAt_of_header rfl
    (by rwa [hpayloadLen]) (by rwa [hpayloadLen]) (by rw [hpayloadLen, htake, hcrc])
  rw [hpayloadLen, htake] at hsome
  rw [hlen]
  exact hsome

theorem writeAll_fst (seq : UInt8) (ms : List Message) : (writeAll seq ms).map Prod.fst = ms := by
  induction ms generalizing seq with
  | nil => rfl
  | cons m ms ih => rw [writeAll, List.map_cons, ih]

theorem writeAll_sent (hbuffer : bufferLen ≤ bufferSize) {ms : List Message} {seq : UInt8}
    (h : ∀ m ∈ ms, headerSize + m.payload.length ≤ bufferLen) :
    ∀ f ∈ writeAll seq ms, Sent (messageAt bufferLen) f := by
  induction ms generalizing seq with
  | nil => exact fun f hf => nomatch hf
  | cons m ms ih =>
    intro f hf
    rcases List.mem_cons.1 hf with rfl | hf
    · exact write_sent seq (h m (by simp)) hbuffer
    · exact ih (fun m' hm' => h m' (List.mem_cons_of_mem m hm')) f hf

/-! ## Nothing is lost -/

/-- The bytes that are not used yet are those of the frames. -/
structure Remaining (bufferLen : ℕ) (frames : List (Message × List UInt8)) (l : Link) : Prop where
  bytes : l.rxBuffer ++ l.stream = (frames.map Prod.snd).flatten
  sent : ∀ f ∈ frames, Sent (messageAt bufferLen) f

variable {frames : List (Message × List UInt8)}

theorem Settled.of_sent {text rest : List UInt8} {r : ReadResult}
    (h : Settled bufferLen text r) (hsome : messageAt bufferLen (text ++ rest) = some (m, n)) :
    (r.message = none ∧ r.rxBuffer = text) ∨
      (r.message = some m ∧ n ≤ text.length ∧ r.rxBuffer = text.drop n) := by
  rcases h.exists_drop with ⟨k, -, hrejected, hcase⟩
  obtain rfl : k = 0 := by
    refine Nat.eq_zero_of_not_pos fun hpos => ?_
    have hnone := (hrejected 0 hpos).2 rest
    rw [List.drop_zero, hsome] at hnone
    cases hnone
  rw [List.drop_zero] at hcase
  rcases hcase with hnone | ⟨m', n', hmessage, hfound, hbuffer⟩
  · exact .inl hnone
  · have heq := (hfound.2.2 rest).symm.trans hsome
    obtain ⟨rfl, rfl⟩ := Prod.mk.inj (Option.some.inj heq)
    exact .inr ⟨hmessage, hfound.2.1, hbuffer⟩

theorem Remaining.step_nil (h : Remaining bufferLen [] l) (len : ℕ) :
    (read bufferLen l (.ready len)).message = none ∧
      Remaining bufferLen [] (linkStep bufferLen l (.ready len)) := by
  rcases List.append_eq_nil_iff.1 h.bytes with ⟨hbuffer, hstream⟩
  have hread : read bufferLen l (.ready len) = ⟨[], 0, none⟩ := by
    unfold read
    dsimp only
    rw [hbuffer, hstream, List.take_nil]
    rfl
  refine ⟨congrArg ReadResult.message hread, ?_, h.sent⟩
  unfold linkStep
  rw [hread, hstream]
  exact List.drop_nil

/-- A call leaves the frames, or takes the first one; if all bytes have come, it takes it. -/
theorem Remaining.step (h : Remaining bufferLen frames l) (len : ℕ) :
    ((read bufferLen l (.ready len)).message = none ∧
        Remaining bufferLen frames (linkStep bufferLen l (.ready len)) ∧
        (l.stream = [] → frames = [])) ∨
      ∃ f frames', frames = f :: frames' ∧ (read bufferLen l (.ready len)).message = some f.1 ∧
        Remaining bufferLen frames' (linkStep bufferLen l (.ready len)) := by
  cases frames with
  | nil => exact .inl ⟨(h.step_nil len).1, (h.step_nil len).2, fun _ => rfl⟩
  | cons f frames =>
    let buffer := l.rxBuffer ++ l.stream.take (nodeRead l len)
    let rest := l.stream.drop (nodeRead l len)
    have hbytes : buffer ++ rest = f.2 ++ (frames.map Prod.snd).flatten := by
      rw [List.append_assoc, List.take_append_drop]
      exact h.bytes
    have hsome : messageAt bufferLen (buffer ++ rest) = some (f.1, f.2.length) := by
      rw [hbytes]
      exact (h.sent f List.mem_cons_self).2 _
    rcases (readBuffer_settled bufferLen buffer).of_sent hsome with
      ⟨hmessage, hbuffer⟩ | ⟨hmessage, hle, hbuffer⟩
    · refine .inl ⟨hmessage, ⟨(congrArg (· ++ rest) hbuffer).trans hbytes, h.sent⟩,
        fun hstream => ?_⟩
      -- with all bytes in the buffer the frame is complete
      have hrest : rest = [] := by
        unfold rest
        rw [hstream, List.drop_nil]
      rw [hrest, List.append_nil] at hsome
      have hreturned : (readBuffer bufferLen buffer).message = some f.1 :=
        readBuffer_of_messageAt hsome
      rw [hmessage] at hreturned
      cases hreturned
    · refine .inr ⟨f, frames, rfl, hmessage, ?_, fun g hg => h.sent g (List.mem_cons_of_mem f hg)⟩
      have hdrop := congrArg (List.drop f.2.length) hbytes
      rw [List.drop_append_of_le_length hle, List.drop_left] at hdrop
      exact (congrArg (· ++ rest) hbuffer).trans hdrop

/-- The event is a call that reaches the buffer. -/
def ReadEvent.isReady : ReadEvent → Bool
  | .ready _ => true
  | _ => false

theorem Remaining.exec (h : Remaining bufferLen frames l) (es : List ReadEvent) :
    ∃ frames', Remaining bufferLen frames' (Lib.exec (linkStep bufferLen) l es) ∧
      frames.map Prod.fst = returned bufferLen l es ++ frames'.map Prod.fst := by
  induction es generalizing l frames with
  | nil => exact ⟨frames, h, rfl⟩
  | cons e es ih =>
    cases e with
    | notOpen => exact ih h
    | failed ret => exact ih h
    | ready len =>
      rcases h.step len with ⟨hmessage, hnext, -⟩ | ⟨f, frames', rfl, hmessage, hnext⟩
      · rcases ih hnext with ⟨frames', hlast, heq⟩
        refine ⟨frames', hlast, ?_⟩
        rw [returned_cons, hmessage]
        exact heq
      · rcases ih hnext with ⟨frames'', hlast, heq⟩
        refine ⟨frames'', hlast, ?_⟩
        rw [List.map_cons, heq, returned_cons, hmessage]
        rfl

theorem Remaining.returned_all (h : Remaining bufferLen frames l) (hstream : l.stream = [])
    {es : List ReadEvent} (hes : frames.length ≤ es.countP ReadEvent.isReady) :
    returned bufferLen l es = frames.map Prod.fst := by
  induction es generalizing l frames with
  | nil =>
    have hnil : frames = [] := List.length_eq_zero_iff.1 (Nat.le_zero.1 hes)
    rw [hnil]
    rfl
  | cons e es ih =>
    cases e with
    | notOpen => exact ih h hstream hes
    | failed ret => exact ih h hstream hes
    | ready len =>
      have hcount : (ReadEvent.ready len :: es).countP ReadEvent.isReady =
          es.countP ReadEvent.isReady + 1 := List.countP_cons_of_pos rfl
      have hnextStream : (linkStep bufferLen l (.ready len)).stream = [] := by
        unfold linkStep
        rw [hstream]
        exact List.drop_nil
      rcases h.step len with ⟨hmessage, hnext, hnil⟩ | ⟨f, frames', rfl, hmessage, hnext⟩
      · have hframes := hnil hstream
        have htail := ih hnext hnextStream (by rw [hframes]; exact Nat.zero_le _)
        rw [returned_cons, hmessage]
        exact htail
      · have hle : frames'.length ≤ es.countP ReadEvent.isReady := by
          rw [hcount, List.length_cons] at hes
          exact Nat.le_of_succ_le_succ hes
        have htail := ih hnext hnextStream hle
        rw [returned_cons, hmessage, List.map_cons, ← htail]
        rfl

/-! ## All runs -/

/-- The messages that are returned are the first ones of the reference scan, every call leaves space
in the buffer, and messages that were written are returned in order, all of them when their bytes
have come and as many calls were made. -/
theorem reads_follow_scan {bufferLen : ℕ} (hbuffer : bufferLen ≤ bufferSize) :
    (∀ stream es, returned bufferLen ⟨[], stream⟩ es <+: referenceScan bufferLen stream) ∧
      (∀ stream es, ∀ l ∈ visited (linkStep bufferLen) ⟨[], stream⟩ es,
        l.rxBuffer.length < bufferSize) ∧
      ∀ seq ms, (∀ m ∈ ms, headerSize + m.payload.length ≤ bufferLen) →
        ∀ es, returned bufferLen ⟨[], ((writeAll seq ms).map Prod.snd).flatten⟩ es <+: ms ∧
          ((exec (linkStep bufferLen) ⟨[], ((writeAll seq ms).map Prod.snd).flatten⟩ es).stream =
            [] →
            ∀ es', ms.length ≤ es'.countP ReadEvent.isReady →
              returned bufferLen ⟨[], ((writeAll seq ms).map Prod.snd).flatten⟩ (es ++ es') =
                ms) := by
  refine ⟨fun stream es => ⟨_, returned_append_scan bufferLen ⟨[], stream⟩ es⟩, ?_, ?_⟩
  · intro stream es
    have hstart : ([] : List UInt8).length < bufferSize := by decide
    exact invariant_visited (fun l e hl => linkStep_length hbuffer hl e) hstart es
  · intro seq ms hms es
    have hstart : Remaining bufferLen (writeAll seq ms)
        ⟨[], ((writeAll seq ms).map Prod.snd).flatten⟩ := ⟨rfl, writeAll_sent hbuffer hms⟩
    rcases hstart.exec es with ⟨frames, hframes, heq⟩
    rw [writeAll_fst] at heq
    refine ⟨⟨_, heq.symm⟩, fun hstream es' hes' => ?_⟩
    have hlen : frames.length ≤ ms.length := by
      rw [heq, List.length_append, List.length_map]
      exact Nat.le_add_left ..
    have hrest := hframes.returned_all hstream (Nat.le_trans hlen hes')
    exact (outputs_append ..).trans ((congrArg (_ ++ ·) hrest).trans heq.symm)

/-- A payload of three markers, in two pieces. -/
theorem marker_payload_read :
    64 ≤ bufferSize ∧
      (∀ m ∈ [(⟨7, [62, 62, 62]⟩ : Message)], headerSize + m.payload.length ≤ 64) ∧
      returned 64 ⟨[], ((writeAll 0 [⟨7, [62, 62, 62]⟩]).map Prod.snd).flatten⟩
        ([.ready 2, .ready 10] ++ [.ready 1]) = [⟨7, [62, 62, 62]⟩] :=
  ⟨by decide, by decide, ((reads_follow_scan (by decide)).2.2 0 [⟨7, [62, 62, 62]⟩] (by decide)
    [.ready 2, .ready 10]).2 (by decide) [.ready 1] (by decide)⟩

end Rtps
end DtPhm
