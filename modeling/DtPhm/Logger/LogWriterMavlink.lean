import DtPhm.Lib.Bytes

/-!
# LogWriterMavlink — the logger's writer that streams a ULog over MAVLink

Messages are copied into a packet of 249 bytes, which is published on the topic `ulog_stream` when
it is full.  While a reliable transfer is needed, each publication waits for the packet's sequence
number on the topic `ulog_stream_ack`; without it the writer stops.

* `Packet` — `ulog_stream_s`, both the buffer of the writer and what is published;
* `publishMessage`, `writeMessage`, `setNeedReliableTransfer`, `startLog`, `stopLog` — the writer;
* `Outside` — the clock and what the polls of the ack topic return.
-/

namespace DtPhm
namespace Logger
namespace Stream

open Lib

/-! ## Data -/

/-- `sizeof(ulog_stream_s::data)`. -/
def dataLen : ℕ := 249

/-- `ulog_stream_s::FLAGS_NEED_ACK`. -/
def flagsNeedAck : UInt8 := 1

/-- `ulog_stream_s`; the bytes of `data` behind `length` are whatever was there before. -/
structure Packet where
  timestamp : UInt64
  length : ℕ
  firstMessageOffset : ℕ
  msgSequence : UInt16
  flags : UInt8
  data : Mem

/-- The bytes that a packet carries. -/
def Packet.payload (p : Packet) : List UInt8 := load p.data 0 p.length

/-- What one round of the wait for an ack sees: `px4_poll` fails, times out or reports no data, or
an ack is copied, after which the time may be up. -/
inductive Poll where
  | failed
  | ack (msgSequence : UInt16) (late : Bool)
deriving Repr, DecidableEq

/-- The loop that waits for the ack of a sequence number. -/
def awaitAck (msgSequence : UInt16) : List Poll → Bool
  | [] => false
  | .failed :: _ => false
  | .ack s late :: polls =>
    if s = msgSequence then true else if late then false else awaitAck msgSequence polls

/-- The world outside of the writer: for the `n`-th publication the time and the polls of the ack
topic behind it. -/
structure Outside where
  now : ℕ → UInt64
  polls : ℕ → Packet → List Poll

/-- The writer; `published` is what it has published since the log was started. -/
structure Writer where
  data : Packet
  needReliableTransfer : Bool
  isStarted : Bool
  published : List Packet

namespace Writer

/-! ## Operations -/

def startLog (w : Writer) : Writer :=
  { w with
    data := { w.data with msgSequence := 0, length := 0, firstMessageOffset := 0 }
    isStarted := true
    published := [] }

def stopLog (w : Writer) : Writer :=
  { w with data := { w.data with length := 0 }, isStarted := false }

/-- The packet as it is published. -/
def stamped (w : Writer) (now : UInt64) : Packet :=
  { w.data with timestamp := now, flags := if w.needReliableTransfer then flagsNeedAck else 0 }

/-- The packet is out: on to the next one. -/
def next (w : Writer) : Writer :=
  { w with
    data := { w.data with
      msgSequence := w.data.msgSequence + 1, length := 0, firstMessageOffset := 255 } }

/-- `publish_message`; the result is whether it succeeded. -/
def publishMessage (o : Outside) (w : Writer) : Bool × Writer :=
  let p := w.stamped (o.now w.published.length)
  let w' := { w with data := p, published := w.published ++ [p] }
  if w.needReliableTransfer && !awaitAck p.msgSequence (o.polls w.published.length p) then
    (false, w'.stopLog)
  else
    (true, w'.next)

/-- `memcpy` behind the bytes that are already in the packet. -/
def append (w : Writer) (piece : List UInt8) : Writer :=
  { w with
    data := { w.data with
      data := store w.data.data w.data.length piece
      length := w.data.length + piece.length } }

theorem publishMessage_length {o : Outside} {w : Writer} (h : (w.publishMessage o).1 = true) :
    (w.publishMessage o).2.data.length = 0 := by
  unfold publishMessage at h ⊢
  dsimp only at h ⊢
  split at h
  · exact absurd h (by simp)
  · rename_i hack
    rw [if_neg hack]
    rfl

/-- The loop of `write_message`: fill the packet, publish it when it is full. -/
def writeLoop (o : Outside) (w : Writer) (bytes : List UInt8) : Bool × Writer :=
  if _hne : bytes = [] then (true, w)
  else
    let sendLen := min (dataLen - w.data.length) bytes.length
    let w₁ := w.append (bytes.take sendLen)
    if _hfull : dataLen ≤ w₁.data.length then
      if _hack : (w₁.publishMessage o).1 then
        writeLoop o (w₁.publishMessage o).2 (bytes.drop sendLen)
      else (false, (w₁.publishMessage o).2)
    else writeLoop o w₁ (bytes.drop sendLen)
termination_by (bytes.length, w.data.length)
decreasing_by
  -- a full packet, which no call leaves behind, would be published without taking a byte
  · have hpos : 0 < bytes.length := List.length_pos_iff.2 _hne
    rw [Prod.lex_def, publishMessage_length _hack, List.length_drop]
    unfold dataLen at *
    omega
  · have hpos : 0 < bytes.length := List.length_pos_iff.2 _hne
    have hlen : w₁.data.length = w.data.length + (bytes.take sendLen).length := rfl
    rw [List.length_take] at hlen
    rw [Prod.lex_def, List.length_drop]
    omega

/-- `write_message`: a message that is the first one to start in the packet is noted. -/
def writeMessage (o : Outside) (w : Writer) (message : List UInt8) : Bool × Writer :=
  if w.isStarted then
    let w :=
      if w.data.firstMessageOffset = 255 then
        { w with data := { w.data with firstMessageOffset := w.data.length } }
      else w
    w.writeLoop o message
  else (true, w)

/-- `set_need_reliable_transfer`: what was written before is still sent reliably. -/
def setNeedReliableTransfer (o : Outside) (w : Writer) (needReliable : Bool) : Writer :=
  let w :=
    if !needReliable && w.needReliableTransfer && decide (0 < w.data.length) then
      (w.publishMessage o).2
    else w
  { w with needReliableTransfer := needReliable }

end Writer

end Stream
end Logger
end DtPhm
