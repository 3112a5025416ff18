import Mathlib.Data.Int.Basic
import DtPhm.Lib.Bytes

/-!
# LogWriterFile — the log files and the thread that writes them

The logger appends its messages to a ring buffer, one for each kind of log; a thread of low priority
moves the bytes from there to the files.  The buffers are protected by one mutex, which the thread
releases while it writes, so that the logger is not held up by the file system.

A state of the thread (`Pc`) is a place in its loop where it locks or unlocks the mutex; the logger
takes its turns where the mutex is free.
-/

namespace DtPhm
namespace Logger

open Lib

/-- What a number becomes when it is stored in an `int`. -/
def toInt (x : ℤ) : ℤ := Int.bmod x (2 ^ 32)

/-- `LogType` -/
inductive LogType where
  | full
  | mission
deriving DecidableEq, Repr

/-! ## The buffer of a log -/

/-- `LogFileBuffer`; `isOpen` says whether `_fd` is a file. -/
structure LogFileBuffer where
  bufferSize : ℕ
  isOpen : Bool
  buffer : Mem
  head : ℕ
  count : ℕ
  totalWritten : ℕ
  shouldRun : Bool

namespace LogFileBuffer

def available (b : LogFileBuffer) : ℕ := b.bufferSize - b.count

/-- Write to the buffer but assuming there is enough space. -/
def writeNoCheck (b : LogFileBuffer) (bytes : List UInt8) : LogFileBuffer :=
  -- bytes to the end of the buffer
  let n := b.bufferSize - b.head
  -- whether the message goes over the end of the buffer
  let wraps := bytes.length > n
  let buffer := if wraps then store b.buffer b.head (bytes.take n) else b.buffer
  let head := if wraps then 0 else b.head
  -- now: n = bytes already written
  let n := if wraps then n else 0
  { b with
    buffer := store buffer head (bytes.drop n)
    head := (head + (bytes.length - n)) % b.bufferSize
    count := b.count + bytes.length }

/-- Where the bytes to write start, how many of them there are up to the end of the buffer, and
whether there are more at its beginning. -/
def getReadPtr (b : LogFileBuffer) : ℤ × ℕ × Bool :=
  let readPtr := toInt (b.head - b.count)
  if readPtr < 0 then
    let readPtr := toInt (readPtr + b.bufferSize)
    (readPtr, (b.bufferSize - readPtr).toNat, true)
  else
    (readPtr, b.count, false)

def markRead (b : LogFileBuffer) (n : ℕ) : LogFileBuffer :=
  { b with count := b.count - n, totalWritten := b.totalWritten + n }

def closeFile (b : LogFileBuffer) : LogFileBuffer :=
  { b with head := 0, count := 0, isOpen := false }

/-- `start_log` of the buffer, when the file could be opened. -/
def startLog (b : LogFileBuffer) : LogFileBuffer :=
  { b with isOpen := true, head := 0, count := 0, totalWritten := 0, shouldRun := true }

end LogFileBuffer

/-- A log: its buffer, what has been written to its file and, for the statements about it, the bytes
that were accepted since it was started. -/
structure Log where
  buffer : LogFileBuffer
  file : List UInt8
  accepted : List UInt8

/-- `ulog_message_dropout_s`: the size of the rest, the type `O` and the duration in
milliseconds. -/
def dropoutMsg (duration : UInt16) : List UInt8 :=
  leBytes 2 2 ++ [79] ++ leBytes 2 duration.toNat

/-- `write`: it returns -1 when the buffer has no room for the message and for the note about the
messages dropped before it. -/
def Log.write (l : Log) (message : List UInt8) (dropout : Option UInt16) : ℤ × Log :=
  if !l.buffer.shouldRun then
    (0, l)
  else
    let dropoutBytes := (dropout.map dropoutMsg).getD []
    if message.length + dropoutBytes.length > l.buffer.available then
      (-1, l)
    else
      let buffer :=
        match dropout with
        | some duration => l.buffer.writeNoCheck (dropoutMsg duration)
        | none => l.buffer
      (0, { l with
            buffer := buffer.writeNoCheck message
            accepted := l.accepted ++ (dropoutBytes ++ message) })

/-! ## The writer thread -/

/-- Where the writer thread stands. -/
inductive Pc where
  /-- it waits for a log to be started -/
  | idle
  /-- a log was started; the mutex is not locked yet -/
  | entering
  /-- it looks at the buffer `i`, with the mutex locked -/
  | visit (i : LogType) (callFsync : Bool)
  /-- it has unlocked the mutex to write `available` bytes from `readPtr` on -/
  | writeToFile (i : LogType) (readPtr : ℤ) (available : ℕ) (isPart callFsync : Bool)
  /-- it is about to lock the mutex after a write -/
  | wrote (i : LogType) (available : ℕ) (isPart callFsync : Bool) (written : ℤ)
  /-- it has unlocked the mutex to call `fsync` -/
  | fsync (i : LogType) (isPart callFsync : Bool)
  /-- both buffers have been looked at; the mutex is locked -/
  | visited
  /-- it waits for new data -/
  | waiting

def Pc.holdsMutex : Pc → Bool
  | .visit _ _ => true
  | .visited => true
  | _ => false

/-- `LogWriterFile` -/
structure LogWriterFile where
  logs : LogType → Log
  pc : Pc

/-- `_min_write_chunk` -/
def minWriteChunk : ℕ := 4096

/-- For the mission log, write as soon as there is data available. -/
def minAvailable : LogType → ℕ
  | .full => minWriteChunk
  | .mission => 1

namespace LogWriterFile

def setLog (w : LogWriterFile) (i : LogType) (l : Log) : LogWriterFile :=
  { w with logs := Function.update w.logs i l }

def setPc (w : LogWriterFile) (pc : Pc) : LogWriterFile := { w with pc := pc }

/-- The next buffer: if the data was split into two parts, the second part is written as well. -/
def nextVisit (i : LogType) (isPart callFsync : Bool) : Pc :=
  if isPart then .visit i callFsync
  else
    match i with
    | .mission => .visit .full callFsync
    | .full => .visited

/-- One look at a buffer, under the mutex. -/
def visitStep (w : LogWriterFile) (i : LogType) (callFsync : Bool) : LogWriterFile :=
  let l := w.logs i
  let (readPtr, available, isPart) := l.buffer.getReadPtr
  -- sufficient data available or partial read or terminating
  if available ≥ minAvailable i ∨ isPart ∨ (!l.buffer.shouldRun ∧ available > 0) then
    w.setPc (.writeToFile i readPtr available isPart callFsync)
  else if callFsync ∧ l.buffer.shouldRun then
    w.setPc (.fsync i isPart callFsync)
  else if available = 0 ∧ !l.buffer.shouldRun then
    (w.setLog i { l with buffer := l.buffer.closeFile }).setPc (nextVisit i isPart callFsync)
  else
    w.setPc (nextVisit i isPart callFsync)

/-- `write_to_file`: the file system takes at most the bytes that it is given, or fails. -/
def writeStep (w : LogWriterFile) (i : LogType) (readPtr : ℤ) (available : ℕ)
    (isPart callFsync : Bool) (result : ℤ) : LogWriterFile :=
  let l := w.logs i
  if result < 0 then
    w.setPc (.wrote i available isPart callFsync (-1))
  else
    let n := min result.toNat available
    (w.setLog i { l with file := l.file ++ load l.buffer.buffer readPtr.toNat n }).setPc
      (.wrote i available isPart callFsync (toInt n))

/-- What follows a write, when the mutex is locked again. -/
def wroteStep (w : LogWriterFile) (i : LogType) (available : ℕ) (isPart callFsync : Bool)
    (written : ℤ) : LogWriterFile :=
  let l := w.logs i
  let buffer :=
    if written ≥ 0 then
      -- subtract bytes written from number in buffer
      let b := l.buffer.markRead written.toNat
      -- stop only when all data written
      if !b.shouldRun ∧ written = toInt available ∧ !isPart then b.closeFile else b
    else
      ({ l.buffer with shouldRun := false } : LogFileBuffer).closeFile
  (w.setLog i { l with buffer := buffer }).setPc (nextVisit i isPart callFsync)

/-- One step of `run`.  The clock decides on `callFsync`, the file system on `result`. -/
def runStep (w : LogWriterFile) (callFsync : Bool) (result : ℤ) : LogWriterFile :=
  match w.pc with
  | .idle =>
      if (w.logs .full).buffer.shouldRun ∨ (w.logs .mission).buffer.shouldRun then
        w.setPc .entering
      else w
  -- the mission log is first to avoid drops
  | .entering => w.setPc (.visit .mission callFsync)
  | .visit i callFsync => w.visitStep i callFsync
  | .writeToFile i readPtr available isPart callFsync =>
      w.writeStep i readPtr available isPart callFsync result
  | .wrote i available isPart callFsync written => w.wroteStep i available isPart callFsync written
  | .fsync i isPart callFsync => w.setPc (nextVisit i isPart callFsync)
  | .visited =>
      if !(w.logs .full).buffer.isOpen ∧ !(w.logs .mission).buffer.isOpen then
        w.setPc .idle
      else if (w.logs .full).buffer.shouldRun then
        w.setPc .waiting
      else
        -- switched off in the meantime: do not wait, run the loop once more
        w.setPc (.visit .mission callFsync)
  | .waiting => w.setPc (.visit .mission callFsync)

/-! ## Interleavings -/

/-- `start_log` waits for the thread to close the old file. -/
def startLog (w : LogWriterFile) (i : LogType) (opened : Bool) : LogWriterFile :=
  let l := w.logs i
  if w.pc.holdsMutex ∨ l.buffer.isOpen ∨ !opened then w
  else w.setLog i { buffer := l.buffer.startLog, file := [], accepted := [] }

/-- `stop_log` does not lock the mutex. -/
def stopLog (w : LogWriterFile) (i : LogType) : LogWriterFile :=
  let l := w.logs i
  w.setLog i { l with buffer := { l.buffer with shouldRun := false } }

/-- `write_message` is called with the mutex locked. -/
def writeMessage (w : LogWriterFile) (i : LogType) (message : List UInt8)
    (dropout : Option UInt16) : LogWriterFile :=
  if w.pc.holdsMutex then w else w.setLog i ((w.logs i).write message dropout).2

end LogWriterFile

/-- `writeMessage` is one call of `write`; with a reliable transfer, a long message is several of
them, each one repeated until it is accepted. -/
inductive Event where
  | startLog (i : LogType) (opened : Bool)
  | stopLog (i : LogType)
  | writeMessage (i : LogType) (message : List UInt8) (dropout : Option UInt16)
  | run (callFsync : Bool) (result : ℤ)

def LogWriterFile.step (w : LogWriterFile) : Event → LogWriterFile
  | .startLog i opened => w.startLog i opened
  | .stopLog i => w.stopLog i
  | .writeMessage i message dropout => w.writeMessage i message dropout
  | .run callFsync result => w.runStep callFsync result

/-- A log that was never started. -/
def Log.create (memory : Mem) (bufferSize : ℕ) : Log where
  buffer :=
    { bufferSize := bufferSize
      isOpen := false
      buffer := memory
      head := 0
      count := 0
      totalWritten := 0
      shouldRun := false }
  file := []
  accepted := []

/-- The buffer of the full log needs to be larger than the minimum write chunk; the one of the
mission log can be kept fairly small. -/
def LogWriterFile.create (memory : LogType → Mem) (bufferSize : ℕ) : LogWriterFile where
  logs i :=
    match i with
    | .full => Log.create (memory .full) (max bufferSize (minWriteChunk + 300))
    | .mission => Log.create (memory .mission) 300
  pc := .idle

end Logger
end DtPhm
