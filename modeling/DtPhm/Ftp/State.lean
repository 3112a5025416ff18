import DtPhm.Lib.Bytes

/-!
# State — the data of the FTP server

The payload of `FILE_TRANSFER_PROTOCOL` messages, the session, the members of `MavlinkFTP`, and the
calls to the operating system.  These calls are a parameter of the server (`Posix`): each is a
function of the world, which is the file system together with `errno`.
-/

namespace DtPhm
namespace Ftp

open Lib

/-! ## The operating system -/

/-- The file system and the `errno` of the thread. -/
structure World (F : Type) where
  fs : F
  errno : ℕ

/-- What the server looks at in `struct stat`. -/
structure Stat where
  size : ℕ
  regular : Bool
  writable : Bool
  deriving DecidableEq, Repr

/-- The flags the server opens files with; without `wronly` it is `O_RDONLY`. -/
structure OFlags where
  wronly : Bool := false
  creat : Bool := false
  trunc : Bool := false
  deriving DecidableEq, Repr

/-- `d_type`. -/
inductive DType
  | file
  | directory
  | other
  deriving DecidableEq, Repr

/-- `struct dirent`. -/
structure Dirent where
  type : DType
  name : List UInt8
  deriving DecidableEq, Repr

/-- The calls of the server to the operating system.  A failed call has no value or a negative one;
it may set `errno`. -/
structure Posix (F : Type) where
  stat : List UInt8 → World F → Option Stat × World F
  openFile : List UInt8 → OFlags → World F → ℤ × World F
  close : ℤ → World F → World F
  /-- True unless `lseek` returns a negative number. -/
  lseek : ℤ → ℕ → World F → Bool × World F
  read : ℤ → ℕ → World F → Option (List UInt8) × World F
  write : ℤ → List UInt8 → World F → ℤ × World F
  unlink : List UInt8 → World F → Bool × World F
  rename : List UInt8 → List UInt8 → World F → Bool × World F
  truncate : List UInt8 → ℕ → World F → Bool × World F
  mkdir : List UInt8 → World F → Bool × World F
  rmdir : List UInt8 → World F → Bool × World F
  opendir : List UInt8 → World F → Option ℕ × World F
  readdir : ℕ → World F → Option Dirent × World F
  closedir : ℕ → World F → World F
  crc32part : List UInt8 → UInt32 → UInt32
  /-- A read gives no more than was asked for. -/
  read_length_le : ∀ {fd n w bs}, (read fd n w).1 = some bs → bs.length ≤ n
  /-- How much there is left to read. -/
  remaining : ℤ → World F → ℕ
  /-- Files are finite: a read that was not cut short leaves less to read. -/
  remaining_read_lt : ∀ {fd n w bs}, 0 < n → (read fd n w).1 = some bs → bs.length = n →
    remaining fd (read fd n w).2 < remaining fd w

def eexist : ℕ := 17
def enoent : ℕ := 2
def enomem : ℕ := 12
def einval : ℕ := 22
def eisdir : ℕ := 21
def erofs : ℕ := 30

/-! ## Codes -/

/-- `Opcode`, the requests among them. -/
inductive Command
  | none
  | terminateSession
  | resetSessions
  | listDirectory
  | openFileRO
  | readFile
  | createFile
  | writeFile
  | removeFile
  | createDirectory
  | removeDirectory
  | openFileWO
  | truncateFile
  | rename
  | calcFileCRC32
  | burstReadFile
  deriving DecidableEq, Repr

/-- The requests in the order of their numbers. -/
def Command.all : List Command :=
  [.none, .terminateSession, .resetSessions, .listDirectory, .openFileRO, .readFile, .createFile,
    .writeFile, .removeFile, .createDirectory, .removeDirectory, .openFileWO, .truncateFile,
    .rename, .calcFileCRC32, .burstReadFile]

/-- The request with this opcode. -/
def Command.ofCode? (opcode : UInt8) : Option Command := Command.all[opcode.toNat]?

/-- `kCmdBurstReadFile`. -/
def kCmdBurstReadFile : UInt8 := 15

/-- `kRspAck`. -/
def kRspAck : UInt8 := 128

/-- `kRspNak`. -/
def kRspNak : UInt8 := 129

/-- `ErrorCode`, of which the server does not use `kErrFail` and `kErrFailFileProtected`. -/
inductive ErrorCode
  | none
  | fail
  | failErrno
  | invalidDataSize
  | invalidSession
  | noSessionsAvailable
  | eof
  | unknownCommand
  | failFileExists
  | failFileProtected
  | fileNotFound
  deriving DecidableEq, Repr

def ErrorCode.code : ErrorCode → UInt8
  | .none => 0
  | .fail => 1
  | .failErrno => 2
  | .invalidDataSize => 3
  | .invalidSession => 4
  | .noSessionsAvailable => 5
  | .eof => 6
  | .unknownCommand => 7
  | .failFileExists => 8
  | .failFileProtected => 9
  | .fileNotFound => 10

/-! ## Messages -/

/-- `kMaxDataLength`, the 251 bytes of the payload field less the header. -/
def kMaxDataLength : ℕ := 239

/-- `PayloadHeader`.  What is past the `kMaxDataLength` bytes of data is what follows in memory. -/
structure Payload where
  seqNumber : UInt16
  session : UInt8
  opcode : UInt8
  size : UInt8
  reqOpcode : UInt8
  burstComplete : UInt8
  padding : UInt8
  offset : UInt32
  data : Mem

/-- A message as it is sent: the header, and the data that `size` counts. -/
structure Reply where
  targetSystem : UInt8
  targetComponent : UInt8
  seqNumber : UInt16
  session : UInt8
  opcode : UInt8
  size : UInt8
  reqOpcode : UInt8
  burstComplete : UInt8
  padding : UInt8
  offset : UInt32
  data : List UInt8
  deriving DecidableEq, Repr

namespace Payload

variable (payload : Payload)

def toReply (targetSystem targetComponent : UInt8) : Reply where
  targetSystem := targetSystem
  targetComponent := targetComponent
  seqNumber := payload.seqNumber
  session := payload.session
  opcode := payload.opcode
  size := payload.size
  reqOpcode := payload.reqOpcode
  burstComplete := payload.burstComplete
  padding := payload.padding
  offset := payload.offset
  data := load payload.data 0 payload.size.toNat

/-- `memcpy` to the data. -/
def setData (bs : List UInt8) : Payload := { payload with data := store payload.data 0 bs }

/-- The effect of `_data_as_cstring`: the data is null terminated. -/
def terminated : Payload :=
  let last := if payload.size.toNat < kMaxDataLength then payload.size.toNat else kMaxDataLength - 1
  { payload with data := store payload.data last [0] }

end Payload

/-- The C string at address `a`, or its first `n` bytes. -/
def cstring (m : Mem) (a n : ℕ) : List UInt8 := (load m a n).takeWhile fun b => decide (b ≠ 0)

/-- A 32 bit integer in memory. -/
def bytesLE (n : ℕ) : List UInt8 := (List.range 4).map fun i => UInt8.ofNat (n / 2 ^ (8 * i))

/-- `_work_buffer1_len`. -/
def workBuffer1Len : ℕ := kMaxDataLength

/-- `_work_buffer2_len`. -/
def workBuffer2Len : ℕ := 256

/-! ## The server -/

/-- `SessionInfo`. -/
structure SessionInfo where
  fd : ℤ := -1
  fileSize : UInt32 := 0
  streamDownload : Bool := false
  streamOffset : UInt32 := 0
  streamSeqNumber : UInt16 := 0
  streamTargetSystemId : UInt8 := 0
  streamTargetComponentId : UInt8 := 0
  streamChunkTransmitted : UInt32 := 0
  deriving DecidableEq, Repr

/-- The build and the place of the server. -/
structure Config where
  systemId : UInt8
  componentId : UInt8
  /-- `__PX4_NUTTX`. -/
  nuttx : Bool
  /-- `_root_dir`. -/
  rootDir : List UInt8
  /-- The temporary file of `_workTruncateFile`. -/
  tempFile : List UInt8

/-- What a call of the server finds outside of it. -/
structure Env where
  /-- `hrt_absolute_time`, in microseconds. -/
  now : ℕ
  /-- Whether the allocation of each work buffer succeeds. -/
  alloc1 : Bool
  alloc2 : Bool
  /-- `errno`, as other code of the thread has left it. -/
  errno : ℕ
  /-- `get_free_tx_buf`. -/
  freeTxBuf : ℕ
  /-- The message on the stack of `send`, not initialised, in each round of its loop. -/
  stack : ℕ → Payload
  /-- The string that follows the first work buffer in memory. -/
  afterWorkBuffer1 : List UInt8

/-- The members of `MavlinkFTP`, and the file system. -/
structure Server (F : Type) where
  session : SessionInfo
  workBuffer1 : Bool
  workBuffer2 : Bool
  lastWorkBufferAccess : ℕ
  lastReplyValid : Bool
  lastReply : Reply
  fs : F

/-- An empty message. -/
def Reply.zero : Reply := ⟨0, 0, 0, 0, 0, 0, 0, 0, 0, 0, []⟩

/-- The server after its constructor. -/
def Server.init {F : Type} (fs : F) : Server F where
  session := {}
  workBuffer1 := false
  workBuffer2 := false
  lastWorkBufferAccess := 0
  lastReplyValid := false
  lastReply := Reply.zero
  fs := fs

/-- The length of a message, `MAVLINK_MSG_ID_FILE_TRANSFER_PROTOCOL_LEN`, and of the bytes around
it. -/
def messageSize : ℕ := 254 + 12

/-- `get_size`. -/
def getSize (session : SessionInfo) : ℕ := if session.streamDownload then messageSize else 0

/-- What a work function reads and changes. -/
structure Ctx (F : Type) where
  session : SessionInfo
  world : World F
  payload : Payload

namespace Ctx

variable {F : Type} (c : Ctx F)

/-- A call to the operating system. -/
def call {α : Type} (f : World F → α × World F) : α × Ctx F :=
  ((f c.world).1, { c with world := (f c.world).2 })

/-- A call of which the server does not look at the result. -/
def perform (f : World F → World F) : Ctx F := { c with world := f c.world }

def setErrno (errno : ℕ) : Ctx F := { c with world := { c.world with errno := errno } }

def setSize (size : ℕ) : Ctx F := { c with payload := { c.payload with size := UInt8.ofNat size } }

/-- The effect of `_data_as_cstring`. -/
def terminated : Ctx F := { c with payload := c.payload.terminated }

/-- Four bytes of data for the reply. -/
def answer32 (n : ℕ) : Ctx F := { c with payload := c.payload.setData (bytesLE n) }.setSize 4

end Ctx

end Ftp
end DtPhm
