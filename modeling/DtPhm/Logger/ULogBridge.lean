import DtPhm.Logger.LogWriterMavlink
import DtPhm.Lib.Run

/-!
# ULogBridge — MavlinkULog between the writer and the ground station

`MavlinkULog` takes the packets from the topic `ulog_stream` and sends them over MAVLink, those with
`FLAGS_NEED_ACK` as `LOGGING_DATA_ACKED` until the ground station acks them.  The ack goes back to
the writer on the topic `ulog_stream_ack`.

The parties run in their own threads, so that everything between two accesses to shared data is a
step of its own:

* the logger's thread, which blocks in `publish_message` while it waits for an ack (`Task`);
* the thread that calls `handle_update` (`Pc`), and the one that calls `handle_ack`;
* the ground station, which acks every `LOGGING_DATA_ACKED` that it receives.

A message that was sent once can arrive at any time, any number of times and in any order, or never.
-/

namespace DtPhm
namespace Logger
namespace Stream

open Lib

/-! ## MavlinkULog -/

/-- `ulog_stream_ack_s::ACK_TIMEOUT`, in milliseconds. -/
def ackTimeout : ℕ := 50

/-- `ulog_stream_ack_s::ACK_MAX_TRIES`. -/
def ackMaxTries : ℕ := 50

/-- `ulog_stream_s::ORB_QUEUE_LENGTH`. -/
def orbQueueLength : ℕ := 16

/-- Where the thread is in `handle_update`. -/
inductive Pc where
  /-- outside of the call -/
  | out
  /-- about to send the packet again -/
  | resend
  /-- at the head of the loop -/
  | loop
  /-- with a new packet from the topic -/
  | taken
  /-- about to send it as `LOGGING_DATA_ACKED` -/
  | sendAcked
  /-- about to send it as `LOGGING_DATA` -/
  | sendPlain
  /-- behind the loop -/
  | rate
deriving Repr, DecidableEq

/-- The streaming instance.  `seen` is the number of packets that its subscription has passed;
`running` is whether the instance has not been deleted. -/
structure Bridge where
  running : Bool
  waitingForInitialAck : Bool
  lastSentTime : UInt64
  sentTries : ℕ
  ackReceived : Bool
  waitForAckSequence : UInt16
  streamData : Packet
  seen : ℕ
  currentNumMsgs : ℕ
  maxNumMessages : ℕ
  nextRateCheck : UInt64
  pc : Pc

/-- `hrt_elapsed_time`. -/
def elapsed (now since : UInt64) : ℕ := (now - since).toNat

namespace Bridge

/-- `start_ack_received`. -/
def startAckReceived (b : Bridge) : Bridge :=
  if b.waitingForInitialAck then
    { b with lastSentTime := 0, waitingForInitialAck := false }
  else b

/-- `handle_update` up to the loop; an error makes the caller delete the instance. -/
def handleUpdate (b : Bridge) (now now' : UInt64) : Bridge :=
  if b.waitingForInitialAck then
    if 300000 < elapsed now b.lastSentTime then { b with running := false } else b
  else if b.lastSentTime ≠ 0 then
    if b.ackReceived then { b with lastSentTime := 0, pc := .loop }
    else if ackTimeout * 1000 < elapsed now b.lastSentTime then
      if ackMaxTries < b.sentTries + 1 then
        { b with sentTries := b.sentTries + 1, running := false }
      else { b with sentTries := b.sentTries + 1, lastSentTime := now', pc := .resend }
    else b
  else { b with pc := .loop }

/-- The head of the loop: the oldest packet that was not seen and that the queue still holds. -/
def take (b : Bridge) (published : List Packet) : Bridge :=
  if b.currentNumMsgs < b.maxNumMessages then
    match published[max b.seen (published.length - orbQueueLength)]? with
    | some p =>
      { b with
        streamData := p
        seen := max b.seen (published.length - orbQueueLength) + 1
        pc := .taken }
    | none => { b with pc := .rate }
  else { b with pc := .rate }

/-- The packet is looked at; what is awaited is set up under the lock before it is sent. -/
def prepare (b : Bridge) (now : UInt64) : Bridge :=
  if 0 < b.streamData.timestamp then
    if b.streamData.flags &&& flagsNeedAck ≠ 0 then
      { b with
        sentTries := 1
        lastSentTime := now
        waitForAckSequence := b.streamData.msgSequence
        ackReceived := false
        pc := .sendAcked }
    else { b with pc := .sendPlain }
  else { b with currentNumMsgs := b.currentNumMsgs + 1, pc := .loop }

/-- The end of `handle_update`; the rate itself is only displayed. -/
def updateRate (b : Bridge) (now : UInt64) : Bridge :=
  if b.nextRateCheck < now then
    { b with currentNumMsgs := 0, nextRateCheck := now + 100000, pc := .out }
  else { b with pc := .out }

end Bridge

/-! ## The system -/

/-- What the logger's thread is doing. -/
inductive Task where
  | idle
  /-- in the loop of `write_message`, with the bytes that are left -/
  | writing (rest : List UInt8)
  /-- in `set_need_reliable_transfer`, before the packet is published -/
  | flushing (needReliable : Bool)
  /-- in `set_need_reliable_transfer`, before the flag is set -/
  | setting (needReliable : Bool)

/-- A message to the ground station: `LOGGING_DATA_ACKED` or `LOGGING_DATA`. -/
structure Message where
  acked : Bool
  packet : Packet

/-- All parties and what is between them.  `passed` counts the packets that the writer went past. -/
structure System where
  writer : Writer
  task : Task
  waiting : Bool
  passed : ℕ
  bridge : Bridge
  /-- an ack on the topic that the writer has not copied yet -/
  ackTopic : Option UInt16
  /-- every message sent to the ground station -/
  sent : List Message
  /-- every `LOGGING_DATA_ACKED` that the ground station received -/
  received : List Packet
  /-- every `LOGGING_ACK` that the ground station sent -/
  acks : List UInt16

/-- The steps of all parties. -/
inductive Event where
  /-- `write_message` is called -/
  | write (message : List UInt8)
  /-- `set_need_reliable_transfer` is called -/
  | setNeedReliable (needReliable : Bool)
  /-- `stop_log` is called -/
  | stopLog
  /-- the logger's thread goes on -/
  | advance (now : UInt64)
  /-- `px4_poll` fails or times out -/
  | pollFailed
  /-- an ack is copied; `late` is whether the time is up then -/
  | pollAck (late : Bool)
  | startAckReceived
  | handleUpdate (now now' : UInt64)
  | take
  | prepare (now : UInt64)
  | send
  | updateRate (now : UInt64)
  /-- the instance is stopped from outside -/
  | stop
  /-- the `i`-th message to the ground station arrives -/
  | deliver (i : ℕ)
  /-- the `i`-th `LOGGING_ACK` arrives: `handle_ack` -/
  | handleAck (i : ℕ)

namespace System

/-- `publish_message` up to the wait. -/
def publish (s : System) (now : UInt64) : System :=
  let p := s.writer.stamped now
  let w := { s.writer with data := p, published := s.writer.published ++ [p] }
  if s.writer.needReliableTransfer then { s with writer := w, waiting := true }
  else { s with writer := w.next, passed := s.passed + 1 }

/-- The ack has come: the writer goes on to the next packet. -/
def goPast (s : System) : System :=
  { s with writer := s.writer.next, waiting := false, passed := s.passed + 1 }

/-- No ack: the log is stopped, and `write_message` returns. -/
def giveUp (s : System) : System :=
  { s with
    writer := s.writer.stopLog
    waiting := false
    task :=
      match s.task with
      | .writing _ => .idle
      | task => task }

/-- The logger's thread goes on with its call, up to the next publication. -/
def advance (s : System) (now : UInt64) : System :=
  match s.task with
  | .idle => s
  | .writing [] => { s with task := .idle }
  | .writing (b :: rest) =>
    let sendLen := min (dataLen - s.writer.data.length) (b :: rest).length
    let s := { s with
      writer := s.writer.append ((b :: rest).take sendLen)
      task := .writing ((b :: rest).drop sendLen) }
    if dataLen ≤ s.writer.data.length then s.publish now else s
  | .flushing needReliable => ({ s with task := .setting needReliable } : System).publish now
  | .setting needReliable =>
    { s with writer := { s.writer with needReliableTransfer := needReliable }, task := .idle }

def send (s : System) : System :=
  match s.bridge.pc with
  | .resend =>
    { s with
      sent := s.sent ++ [⟨true, s.bridge.streamData⟩]
      bridge := { s.bridge with pc := .out } }
  | .sendAcked =>
    { s with
      sent := s.sent ++ [⟨true, s.bridge.streamData⟩]
      bridge := { s.bridge with currentNumMsgs := s.bridge.currentNumMsgs + 1, pc := .loop } }
  | .sendPlain =>
    { s with
      sent := s.sent ++ [⟨false, s.bridge.streamData⟩]
      bridge := { s.bridge with currentNumMsgs := s.bridge.currentNumMsgs + 1, pc := .loop } }
  | _ => s

/-- A message arrives at the ground station, which acks those that ask for it. -/
def deliver (s : System) (i : ℕ) : System :=
  match s.sent[i]? with
  | some ⟨true, p⟩ => { s with received := s.received ++ [p], acks := s.acks ++ [p.msgSequence] }
  | _ => s

/-- `handle_ack`. -/
def handleAck (s : System) (i : ℕ) : System :=
  match s.acks[i]? with
  | some sequence =>
    if s.bridge.running ∧ s.bridge.waitForAckSequence = sequence then
      { s with bridge := { s.bridge with ackReceived := true }, ackTopic := some sequence }
    else s
  | none => s

/-- `write_message` up to its loop. -/
def write (s : System) (message : List UInt8) : System :=
  if s.writer.isStarted then
    let w :=
      if s.writer.data.firstMessageOffset = 255 then
        { s.writer with data := { s.writer.data with firstMessageOffset := s.writer.data.length } }
      else s.writer
    { s with writer := w, task := .writing message }
  else s

/-- `set_need_reliable_transfer` up to a publication. -/
def setNeedReliable (s : System) (needReliable : Bool) : System :=
  if !needReliable && s.writer.needReliableTransfer && decide (0 < s.writer.data.length) then
    { s with task := .flushing needReliable }
  else { s with task := .setting needReliable }

/-- The wait for an ack copies it from the topic. -/
def pollAck (s : System) (late : Bool) : System :=
  match s.ackTopic with
  | some sequence =>
    let s := { s with ackTopic := none }
    if sequence = s.writer.data.msgSequence then s.goPast
    else if late then s.giveUp
    else s
  | none => s

end System

/-- One step; an event that is not possible changes nothing. -/
def step (s : System) : Event → System
  | .write message => match s.task with
    | .idle => s.write message
    | _ => s
  | .setNeedReliable needReliable => match s.task with
    | .idle => s.setNeedReliable needReliable
    | _ => s
  | .stopLog => match s.task with
    | .idle => { s with writer := s.writer.stopLog }
    | _ => s
  | .advance now => if s.waiting then s else s.advance now
  | .pollFailed => if s.waiting then s.giveUp else s
  | .pollAck late => if s.waiting then s.pollAck late else s
  | .startAckReceived =>
    if s.bridge.pc = .out then { s with bridge := s.bridge.startAckReceived } else s
  | .handleUpdate now now' =>
    if s.bridge.running ∧ s.bridge.pc = .out then
      { s with bridge := s.bridge.handleUpdate now now' }
    else s
  | .take =>
    if s.bridge.pc = .loop then { s with bridge := s.bridge.take s.writer.published } else s
  | .prepare now =>
    if s.bridge.pc = .taken then { s with bridge := s.bridge.prepare now } else s
  | .send => s.send
  | .updateRate now =>
    if s.bridge.pc = .rate then { s with bridge := s.bridge.updateRate now } else s
  | .stop =>
    if s.bridge.pc = .out then { s with bridge := { s.bridge with running := false } } else s
  | .deliver i => s.deliver i
  | .handleAck i => s.handleAck i

/-- A session begins: the log is started, the instance has been made and has drained the topic, and
nothing was sent yet.  What a member holds that the constructor does not set is arbitrary. -/
structure Begins (s : System) : Prop where
  writer : ∃ w : Writer, s.writer = w.startLog
  task : s.task = .idle
  waiting : s.waiting = false
  passed : s.passed = 0
  bridge : s.bridge.waitingForInitialAck = true ∧ s.bridge.ackReceived = false ∧
    s.bridge.sentTries = 0 ∧ s.bridge.seen = 0 ∧ s.bridge.currentNumMsgs = 0 ∧ s.bridge.pc = .out
  ackTopic : s.ackTopic = none
  sent : s.sent = []
  received : s.received = []
  acks : s.acks = []

end Stream
end Logger
end DtPhm
