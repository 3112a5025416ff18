import DtPhm.Lib.Run
import DtPhm.Lib.Text
import Mathlib.Algebra.Group.Nat.Defs

/-!
# LogHandler — MavlinkLogHandler, which lists and sends the logs on the storage

A `LOG_REQUEST_LIST` makes the handler write a list of all logs to a file; later requests name a log
by its line in that file.  All handlers use the same file.

* `Storage`, `logList` — the log directory, and the logs that are found in it;
* `getEntry` — a line of the list file, as it is read back;
* `requestList`, `requestData`, `requestEnd`, `send` — the calls of a handler;
* `Event`, `step`, `outputs` — runs.

The directory does not change, and file operations fail only for the reasons given in the code.  An
erase request, which deletes the logs, is left out.
-/

namespace DtPhm
namespace Mavlink
namespace LogHandler

open Lib

/-! ## The log directory -/

/-- `d_type` of a directory entry. -/
inductive Kind where
  | regularFile | directory | other
deriving DecidableEq, Repr

/-- A log. -/
structure LogFile where
  mtime : ℤ
  bytes : List UInt8

/-- What `opendir`, `stat` and `fopen` find by path; `logRoot` is `kLogRoot`. -/
structure Storage where
  logRoot : Text
  entries : Text → Option (List (Text × Kind))
  directoryTime : Text → Option ℤ
  files : Text → Option LogFile

/-- A line of the list. -/
structure Entry where
  date : UInt32
  size : UInt32
  path : Text
deriving DecidableEq

/-- Times up to here are taken for those of a clock that was not set. -/
def oneDay : ℤ := 60 * 60 * 24

/-- `snprintf` of a path into 128 characters. -/
def pathOf (dir name : Text) : Option Text :=
  let path := dir ++ '/' :: name
  if path.length < 128 then some path else none

/-- `strstr`. -/
def contains (s part : Text) : Bool := s.tails.any fun rest => part.isPrefixOf rest

/-- `_get_session_date`. -/
def getSessionDate (S : Storage) (path dir : Text) : Option ℤ :=
  let byName : Option ℤ :=
    if dir.take 4 = "sess".toList then
      (scanUnsigned (dir.drop 4)).map fun u => ((u.1 * 60 * 60 * 24).toNat : ℤ)
    else none
  if dir.length > 4 then
    match S.directoryTime path with
    | some date => if date > oneDay then some date else byName
    | none => byName
  else none

/-- `_get_log_time_size`.  The date of the session, which it is also given, is overwritten by
`stat`. -/
def getLogTimeSize (S : Storage) (path file : Text) : Option (ℤ × UInt32) :=
  if contains file ".px4log".toList || contains file ".ulg".toList then
    match S.files path with
    | none => none
    | some f =>
        let size := UInt32.ofNat f.bytes.length
        if f.mtime > oneDay then some (f.mtime, size)
        else if file.take 3 = "log".toList then
          (scanUnsigned (file.drop 3)).map fun u => (f.mtime + ((u.1 * 60).toNat : ℤ), size)
        else none
  else none

/-- `_scan_logs`. -/
def scanLogs (S : Storage) (dir : Text) : List Entry :=
  ((S.entries dir).getD []).filterMap fun (name, kind) =>
    if kind = .regularFile then do
      let path ← pathOf dir name
      let (date, size) ← getLogTimeSize S path name
      some ⟨UInt32.ofInt date, size, path⟩
    else none

/-- The logs that `_init_list_helper` finds. -/
def logList (S : Storage) : List Entry :=
  ((S.entries S.logRoot).getD []).flatMap fun (name, kind) =>
    if kind = .directory then
      match pathOf S.logRoot name with
      | none => []
      | some path => if (getSessionDate S path name).isSome then scanLogs S path else []
    else []

/-! ## The list file -/

/-- A line, without its end. -/
def Entry.line (e : Entry) : Text :=
  decimal e.date.toNat ++ ' ' :: (decimal e.size.toNat ++ ' ' :: e.path)

/-- The list file that `_init_list_helper` makes; there is none without a log directory. -/
def listFile (S : Storage) : Option Text :=
  match S.entries S.logRoot with
  | none => none
  | some _ => some ((logList S).map Entry.line |>.flatMap fun w => w ++ ['\n'])

/-- What `_get_entry` finds: a date and a size, and a file name if the line has all three. -/
structure Found where
  date : UInt32
  size : UInt32
  file : Option Text
deriving DecidableEq

/-- `sscanf(line, "%u %u %s")`. -/
def scanLine (line : Text) : Found :=
  match scanUnsigned line with
  | none => ⟨0, 0, none⟩
  | some (date, rest) =>
      match scanUnsigned rest with
      | none => ⟨date, 0, none⟩
      | some (size, rest) => ⟨date, size, (scanWord rest).map Prod.fst⟩

/-- `_get_entry`, with a buffer of 160 characters for a line. -/
def getEntry (list : Option Text) (idx : ℕ) : Found :=
  match list.bind fun content => (lines 160 content)[idx]? with
  | none => ⟨0, 0, none⟩
  | some line => scanLine line

/-! ## The handler -/

/-- `LogHandlerState`. -/
inductive LogHandlerState where
  | inactive | idle | listing | sendingData
deriving DecidableEq, Repr

/-- An open log. -/
structure OpenFile where
  bytes : List UInt8
  position : ℕ

/-- `MavlinkLogHandler`. -/
structure Handler where
  currentStatus : LogHandlerState
  nextEntry : ℕ
  lastEntry : ℕ
  logCount : ℕ
  currentLogIndex : UInt16
  currentLogSize : UInt32
  currentLogDataOffset : UInt32
  currentLogDataRemaining : UInt32
  currentLogFilep : Option OpenFile
  currentLogFilename : Text

/-- The messages of a handler. -/
inductive Message where
  | logEntry (timeUtc size : UInt32) (id numLogs lastLogNum : UInt16)
  | logData (id : UInt16) (ofs : UInt32) (count : UInt8) (data : List UInt8)
deriving DecidableEq

/-- The widths of a `long`. -/
inductive Long where
  | bits32 | bits64
deriving DecidableEq, Repr

def Handler.initial : Handler where
  currentStatus := .inactive
  nextEntry := 0
  lastEntry := 0
  logCount := 0
  currentLogIndex := 65535
  currentLogSize := 0
  currentLogDataOffset := 0
  currentLogDataRemaining := 0
  currentLogFilep := none
  currentLogFilename := []

/-- `_reset_list_helper`. -/
def resetListHelper (h : Handler) : Handler :=
  { h with
    nextEntry := 0, lastEntry := 0, logCount := 0
    currentLogIndex := 65535, currentLogSize := 0
    currentLogDataOffset := 0, currentLogDataRemaining := 0
    currentLogFilep := none }

/-- `_close_and_unlink_files`; the list file is gone afterwards. -/
def closeAndUnlinkFiles (h : Handler) : Handler × Option Text :=
  (if h.currentLogFilep.isSome then resetListHelper h else h, none)

/-- `_init_list_helper`. -/
def initListHelper (S : Storage) (h : Handler) : Handler × Option Text :=
  ({ h with currentLogFilename := [], logCount := h.logCount + (logList S).length }, listFile S)

/-- `_log_request_list`; `start` and `stop` are the range of the request. -/
def requestList (S : Storage) (h : Handler) (list : Option Text) (start stop : UInt16) :
    Handler × Option Text :=
  let (h, list) :=
    if h.currentStatus ≠ .inactive then
      if (stop.toNat : ℤ) - start.toNat > h.logCount then
        closeAndUnlinkFiles { h with currentStatus := .inactive }
      else ({ h with currentStatus := .idle }, list)
    else (h, list)
  let (h, list) :=
    if h.currentStatus = .inactive then initListHelper S (resetListHelper h) else (h, list)
  let clamp := fun (i : UInt16) => if i.toNat < h.logCount then i.toNat else h.logCount - 1
  let h := if h.logCount ≠ 0 then { h with nextEntry := clamp start, lastEntry := clamp stop } else
      h
  ({ h with currentStatus := .listing }, list)

/-- `_open_for_transmit`. -/
def openForTransmit (S : Storage) (h : Handler) : Handler :=
  { h with currentLogFilep := (S.files h.currentLogFilename).map fun f => ⟨f.bytes, 0⟩ }

/-- The log of a request is taken up; whether that succeeds. -/
def initDataset (S : Storage) (h : Handler) (list : Option Text) (id : UInt16) : Handler × Bool :=
  let found := getEntry list id.toNat
  let h := { h with
    currentLogFilename := []
    currentLogIndex := id
    currentLogSize := found.size }
  match found.file with
  | none => (h, false)
  | some file => (openForTransmit S { h with currentLogFilename := file.take 127 }, true)

/-- The range of a request is taken up. -/
def setRange (h : Handler) (ofs count : UInt32) : Handler :=
  let remaining := if ofs ≥ h.currentLogSize then 0 else h.currentLogSize - ofs
  { h with
    currentLogDataOffset := ofs
    currentLogDataRemaining := if remaining > count then count else remaining
    currentStatus := .sendingData }

/-- `_log_request_data`. -/
def requestData (S : Storage) (h : Handler) (list : Option Text) (id : UInt16)
    (ofs count : UInt32) :
    Handler :=
  if h.currentStatus = .inactive then h
  else if id.toNat ≥ h.logCount then h
  else
    let h := { h with currentStatus := .idle }
    if h.currentLogIndex ≠ id then
      match initDataset S h list id with
      | (h, false) => h
      | (h, true) => setRange h ofs count
    else setRange h ofs count

/-- `_log_request_end`. -/
def requestEnd (h : Handler) : Handler × Option Text :=
  closeAndUnlinkFiles { h with currentStatus := .inactive }

/-! ## Sending -/

/-- `_log_send_listing`. -/
def logSendListing (list : Option Text) (h : Handler) : Handler × Message :=
  let found := getEntry list h.nextEntry
  (if h.nextEntry = h.lastEntry then { h with currentStatus := .idle }
    else { h with nextEntry := h.nextEntry + 1 },
    .logEntry found.date found.size (UInt16.ofNat h.nextEntry) (UInt16.ofNat h.logCount)
      (UInt16.ofNat h.lastEntry))

/-- `_current_log_data_offset - ftell(..)`, which is unsigned and then turned into a `long` where a
`long` has 32 bits. -/
def seekOffset (long : Long) (ofs : UInt32) (position : ℕ) : ℤ :=
  match long with
  | .bits32 => Int.bmod ((ofs.toNat : ℤ) - position) (2 ^ 32)
  | .bits64 => (ofs.toNat : ℤ) - position

/-- Positions in a file are below this. -/
def Long.limit : Long → ℕ
  | .bits32 => 2 ^ 31
  | .bits64 => 2 ^ 63

/-- `fseek` from the position; it is an error to seek before the start of the file, or to a position
that is no `long`. -/
def fseek (long : Long) (f : OpenFile) (offset : ℤ) : Option OpenFile :=
  let position := (f.position : ℤ) + offset
  if 0 ≤ position ∧ position < long.limit then some { f with position := position.toNat } else none

/-- `_get_log_data`: at most `len` bytes are read. -/
def getLogData (long : Long) (h : Handler) (len : ℕ) : Handler × List UInt8 :=
  if h.currentLogFilename = [] then (h, [])
  else
    match h.currentLogFilep with
    | none => (h, [])
    | some f =>
        match fseek long f (seekOffset long h.currentLogDataOffset f.position) with
        | none => ({ h with currentLogFilep := none }, [])
        | some f =>
            let data := (f.bytes.drop f.position).take len
            ({ h with currentLogFilep := some { f with position := f.position + data.length } },
              data)

/-- The size of `data` in a `LOG_DATA`. -/
def dataSize : ℕ := 90

/-- `_log_send_data`. -/
def logSendData (long : Long) (h : Handler) : Handler × Message :=
  let (h, data) := getLogData long h (min h.currentLogDataRemaining.toNat dataSize)
  let message := .logData h.currentLogIndex h.currentLogDataOffset (UInt8.ofNat data.length)
    (data ++ List.replicate (dataSize - data.length) 0)
  let h := { h with
    currentLogDataOffset := h.currentLogDataOffset + UInt32.ofNat data.length
    currentLogDataRemaining := h.currentLogDataRemaining - UInt32.ofNat data.length }
  (if data.length < dataSize ∨ h.currentLogDataRemaining = 0 then
      { h with currentStatus := .idle }
    else h, message)

/-- `MAX_BYTES_SEND`; irreducible, so that nobody unfolds a loop of so many turns. -/
@[irreducible] def maxBytesSend : ℕ := 256 * 1024

/-- A loop of `send`: messages of `size` bytes go out in a status, while more bytes are free than
their length on the link.  Each turn adds to `count`, so that `n` turns are enough. -/
def sendLoop (status : LogHandlerState) (size : ℕ) (one : Handler → Handler × Message) :
    ℕ → (ℕ → ℕ) → Handler → ℕ → Handler × ℕ × List Message
  | 0, _, h, count => (h, count, [])
  | n + 1, free, h, count =>
      if h.currentStatus = status ∧ free 0 > size + 12 ∧ count < maxBytesSend then
        let (h, message) := one h
        let (h, count, out) := sendLoop status size one n (fun k => free (k + 1)) h (count + size)
        (h, count, message :: out)
      else (h, count, [])

/-- `send`; `free` and `free'` are the free bytes in the two loops. -/
def send (long : Long) (h : Handler) (list : Option Text) (free free' : ℕ → ℕ) :
    Handler × List Message :=
  let (h, count, out) := sendLoop .listing 14 (logSendListing list) maxBytesSend free h 0
  let (h, _, out') := sendLoop .sendingData 97 (logSendData long) maxBytesSend free' h count
  (h, out ++ out')

/-! ## Runs -/

inductive Event where
  | requestList (start stop : UInt16)
  | requestData (id : UInt16) (ofs count : UInt32)
  | requestEnd
  | send (free free' : ℕ → ℕ)

/-- A handler and the list file, after a call. -/
def call (long : Long) (S : Storage) (h : Handler) (list : Option Text) :
    Event → Handler × Option Text
  | .requestList start stop => requestList S h list start stop
  | .requestData id ofs count => (requestData S h list id ofs count, list)
  | .requestEnd => requestEnd h
  | .send free free' => ((send long h list free free').1, list)

/-- The messages of a call. -/
def sent (long : Long) (h : Handler) (list : Option Text) : Event → List Message
  | .send free free' => (send long h list free free').2
  | _ => []

/-- One handler with the list file. -/
def step (long : Long) (S : Storage) (s : Handler × Option Text) (e : Event) :
    Handler × Option Text :=
  call long S s.1 s.2 e

/-- What one handler sends. -/
def output (long : Long) (s : Handler × Option Text) (e : Event) : List Message :=
  sent long s.1 s.2 e

end LogHandler
end Mavlink
end DtPhm
