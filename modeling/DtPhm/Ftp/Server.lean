import DtPhm.Ftp.State

/-!
# Server — the requests of the FTP server and its stream

The functions of `mavlink_ftp.cpp`, under their names and in their order: the work functions, the
dispatch in `_process_request` with what it does before and after, and the stream in `send`.  A work
function returns an error code and changes what it can reach; the payload it changes is the one that
is sent back.
-/

namespace DtPhm
namespace Ftp

open Lib

variable {F : Type} (posix : Posix F) (cfg : Config) (env : Env)

/-- The session set up for streaming sends. -/
def SessionInfo.startStream (session : SessionInfo) (payload : Payload)
    (targetSystemId targetComponentId : UInt8) : SessionInfo :=
  { session with
    streamDownload := true
    streamOffset := payload.offset
    streamChunkTransmitted := 0
    streamSeqNumber := payload.seqNumber + 1
    streamTargetSystemId := targetSystemId
    streamTargetComponentId := targetComponentId }

namespace Ctx

variable (c : Ctx F)

/-! ## Paths -/

/-- The path made of the root directory and `s` in a work buffer of `len` bytes, terminated. -/
def workPath (len : ℕ) (s : List UInt8) : List UInt8 :=
  (cfg.rootDir ++ s.take (len - cfg.rootDir.length)).take (len - 1)

/-- The string in the data of the request. -/
def dataString : List UInt8 := cstring c.payload.data 0 kMaxDataLength

/-- The path of a request, in the first work buffer. -/
def dataPath : List UInt8 := workPath cfg workBuffer1Len c.dataString

/-- The path of `_workOpen`: the buffer is not terminated, so a string that fills it goes on with
what follows in memory. -/
def openPath : List UInt8 :=
  let path := cfg.rootDir ++ c.dataString.take (workBuffer1Len - cfg.rootDir.length)
  if path.length < workBuffer1Len then path else path ++ env.afterWorkBuffer1

/-! ## `_workList` -/

/-- The text of a directory entry; for a file also its length. -/
def direntText (dir : List UInt8) (entry : Dirent) (c : Ctx F) : List UInt8 × Ctx F :=
  let path := dir ++ [47] ++ entry.name
  let (fileSize, c) :=
    if path.length < workBuffer2Len then
      match c.call (posix.stat path) with
      | (some st, c) => (st.size % 2 ^ 32, c)
      | (none, c) => (0, c)
    else (0, c)
  let digits := (Nat.toDigits 10 fileSize).map fun d => UInt8.ofNat d.toNat
  ((entry.name ++ [9] ++ digits).take (workBuffer2Len - 1), c)

/-- `kDirentFile`. -/
def kDirentFile : UInt8 := 70

/-- `kDirentDir`. -/
def kDirentDir : UInt8 := 68

/-- `kDirentSkip`. -/
def kDirentSkip : UInt8 := 83

/-- The type and the text that are sent for a directory entry. -/
def direntItem (dir : List UInt8) (entry : Dirent) (c : Ctx F) : UInt8 × List UInt8 × Ctx F :=
  match entry.type with
  | .file =>
      let (text, c) := direntText posix dir entry c
      (kDirentFile, text, c)
  | .directory =>
      -- "." and ".."
      if entry.name = [46] ∨ entry.name = [46, 46] then (kDirentSkip, [], c)
      else (kDirentDir, entry.name.take (workBuffer2Len - 1), c)
  | .other => (kDirentSkip, [], c)

/-- `while (requested_offset-- > 0 && readdir(dp))`. -/
def skipEntries (dp : ℕ) : ℕ → Ctx F → Ctx F
  | 0, c => c
  | n + 1, c =>
      match c.call (posix.readdir dp) with
      | (some _, c) => skipEntries dp n c
      | (none, c) => c

/-- The loop of `_workList`; `offset` counts the bytes of data so far. -/
def listLoop (dir : List UInt8) (dp : ℕ) (offset : ℕ) (c : Ctx F) : ErrorCode × Ctx F :=
  match (c.setErrno 0).call (posix.readdir dp) with
  | (none, c) =>
      if c.world.errno ≠ 0 then
        -- the read failed: a skipped entry ends the reply
        let payload := { c.payload with data := store c.payload.data offset [kDirentSkip, 0] }
        (.none, ({ c with payload := payload }.setSize (offset + 2)).perform (posix.closedir dp))
      else
        let errorCode := if c.payload.offset ≠ 0 ∧ offset = 0 then .eof else .none
        (errorCode, (c.perform (posix.closedir dp)).setSize offset)
  | (some entry, c) =>
      match direntItem posix dir entry c with
      | (type, text, c) =>
          if kMaxDataLength < offset + text.length + 2 then
            (.none, (c.perform (posix.closedir dp)).setSize offset)
          else
            let payload :=
              { c.payload with data := store c.payload.data offset (type :: text ++ [0]) }
            listLoop dir dp (offset + text.length + 2) { c with payload := payload }
termination_by kMaxDataLength - offset

/-- `_workList`. -/
def workList : ErrorCode × Ctx F :=
  let c := c.terminated
  let dir := c.dataPath cfg
  match c.call (posix.opendir dir) with
  | (none, c) => (.fileNotFound, c)
  | (some dp, c) =>
      -- `requested_offset` is an `int`
      let requested := if c.payload.offset.toNat < 2 ^ 31 then c.payload.offset.toNat else 0
      listLoop posix dir dp 0 (skipEntries posix dp requested c)

/-! ## The session -/

/-- `_workOpen`. -/
def workOpen (oflag : OFlags) : ErrorCode × Ctx F :=
  if 0 ≤ c.session.fd then (.noSessionsAvailable, c)
  else
    let c := c.terminated
    let path := c.openPath cfg env
    let (st, c) := c.call (posix.stat path)
    -- `O_RDONLY` is a bit of its own on NuttX only
    if st = none ∧ cfg.nuttx ∧ ¬oflag.wronly then (.failErrno, c)
    else
      let fileSize := (st.map Stat.size).getD 0 % 2 ^ 32
      let (fd, c) := c.call (posix.openFile path oflag)
      if fd < 0 then (.failErrno, c)
      else
        let c := { c with
          session := { c.session with
            fd := fd, fileSize := UInt32.ofNat fileSize, streamDownload := false }
          payload := { c.payload with session := 0 } }
        (.none, c.answer32 fileSize)

/-- `_workRead`. -/
def workRead : ErrorCode × Ctx F :=
  if c.payload.session ≠ 0 ∨ c.session.fd < 0 then (.invalidSession, c)
  else if c.session.fileSize ≤ c.payload.offset then (.eof, c)
  else
    match c.call (posix.lseek c.session.fd c.payload.offset.toNat) with
    | (false, c) => (.failErrno, c)
    | (true, c) =>
        match c.call (posix.read c.session.fd kMaxDataLength) with
        | (none, c) => (.failErrno, c)
        | (some bs, c) => (.none, { c with payload := c.payload.setData bs }.setSize bs.length)

/-- `_workBurst`. -/
def workBurst (targetSystemId targetComponentId : UInt8) : ErrorCode × Ctx F :=
  if c.payload.session ≠ 0 ∧ c.session.fd < 0 then (.invalidSession, c)
  else
    (.none, { c with
      session := c.session.startStream c.payload targetSystemId targetComponentId })

/-- `_workWrite`. -/
def workWrite : ErrorCode × Ctx F :=
  if c.payload.session ≠ 0 ∧ c.session.fd < 0 then (.invalidSession, c)
  else
    match c.call (posix.lseek c.session.fd c.payload.offset.toNat) with
    | (false, c) => (.failErrno, c)
    | (true, c) =>
        let bytes := load c.payload.data 0 c.payload.size.toNat
        let (written, c) := c.call (posix.write c.session.fd bytes)
        if written < 0 then (.failErrno, c)
        else (.none, c.answer32 written.toNat)

/-- `_workTerminate`. -/
def workTerminate : ErrorCode × Ctx F :=
  if c.payload.session ≠ 0 ∨ c.session.fd < 0 then (.invalidSession, c)
  else
    let c := c.perform (posix.close c.session.fd)
    (.none, { c with session := { c.session with fd := -1, streamDownload := false } }.setSize 0)

/-- `_workReset`. -/
def workReset : ErrorCode × Ctx F :=
  if c.session.fd ≠ -1 then
    let c := c.perform (posix.close c.session.fd)
    (.none, { c with session := { c.session with fd := -1, streamDownload := false } }.setSize 0)
  else (.none, c.setSize 0)

/-! ## Files and directories -/

/-- A work function that makes one call on the path of the request. -/
def workOnPath (f : List UInt8 → World F → Bool × World F) : ErrorCode × Ctx F :=
  let c := c.terminated
  match c.call (f (c.dataPath cfg)) with
  | (true, c) => (.none, c.setSize 0)
  | (false, c) => (.failErrno, c)

/-- `_workRemoveFile`. -/
def workRemoveFile : ErrorCode × Ctx F := c.workOnPath cfg posix.unlink

/-- `_workRemoveDirectory`. -/
def workRemoveDirectory : ErrorCode × Ctx F := c.workOnPath cfg posix.rmdir

/-- `_workCreateDirectory`. -/
def workCreateDirectory : ErrorCode × Ctx F := c.workOnPath cfg posix.mkdir

/-- The loop of `_copy_file`, with `length` bytes to go: what is left of them, and `op_errno`. -/
def copyLoop (src dst : ℤ) (length opErrno : ℕ) (w : World F) : ℕ × ℕ × World F :=
  if length = 0 then (0, opErrno, w)
  else
    match posix.read src (min length workBuffer2Len) w with
    | (none, w) => (length, w.errno, w)
    | (some [], w) => (length, opErrno, w)
    | (some (b :: bs), w) =>
        match posix.write dst (b :: bs) w with
        | (written, w) =>
            if written ≠ (b :: bs).length then (length, w.errno, w)
            else copyLoop src dst (length - (b :: bs).length) opErrno w
termination_by length

/-- `_copy_file`, true where it returns 0. -/
def copyFile (srcPath dstPath : List UInt8) (length : ℕ) (w : World F) : Bool × World F :=
  match posix.openFile srcPath {} w with
  | (src, w) =>
      if src < 0 then (false, w)
      else
        match posix.openFile dstPath { wronly := true, creat := true, trunc := true } w with
        | (dst, w) =>
            if dst < 0 then (false, { posix.close src w with errno := w.errno })
            else
              match copyLoop posix src dst length 0 w with
              | (left, opErrno, w) =>
                  (decide (left = 0), { posix.close dst (posix.close src w) with errno := opErrno })

/-- The truncation of `_workTruncateFile` on NuttX, which has no `truncate`. -/
def truncateNuttx (path : List UInt8) : ErrorCode × Ctx F :=
  match c.call (posix.stat path) with
  | (none, c) => (.failErrno, c)
  | (some st, c) =>
      let length := c.payload.offset.toNat
      if ¬st.regular then (.failErrno, c.setErrno eisdir)
      else if ¬st.writable then (.failErrno, c.setErrno erofs)
      else if length = st.size % 2 ^ 32 then (.none, c)
      else if length = 0 then
        -- truncate all data
        match c.call (posix.openFile path { wronly := true, trunc := true }) with
        | (fd, c) => if fd < 0 then (.failErrno, c) else (.none, c.perform (posix.close fd))
      else if st.size % 2 ^ 32 < length then
        -- extend the file
        match c.call (posix.openFile path { wronly := true }) with
        | (fd, c) =>
            if fd < 0 then (.failErrno, c)
            else
              match c.call (posix.lseek fd (length - 1)) with
              | (false, c) => (.failErrno, c.perform (posix.close fd))
              | (true, c) =>
                  match c.call (posix.write fd [0]) with
                  | (written, c) =>
                      (if written = 1 then .none else .failErrno, c.perform (posix.close fd))
      else
        -- truncate through a copy
        match c.call (copyFile posix path cfg.tempFile length) with
        | (false, c) => (.failErrno, c)
        | (true, c) =>
            match c.call (copyFile posix cfg.tempFile path length) with
            | (false, c) => (.failErrno, c)
            | (true, c) =>
                match c.call (posix.unlink cfg.tempFile) with
                | (ok, c) => (if ok then .none else .failErrno, c)

/-- `_workTruncateFile`. -/
def workTruncateFile : ErrorCode × Ctx F :=
  let c := c.terminated
  let path := c.dataPath cfg
  let c := c.setSize 0
  if cfg.nuttx then c.truncateNuttx posix cfg path
  else
    match c.call (posix.truncate path c.payload.offset.toNat) with
    | (ok, c) => (if ok then .none else .failErrno, c)

/-- `_workRename`. -/
def workRename : ErrorCode × Ctx F :=
  let c := c.terminated
  let oldName := c.dataString
  if oldName.length = c.payload.size.toNat then
    -- no new path
    (.failErrno, c.setErrno einval)
  else
    let newName := cstring c.payload.data (oldName.length + 1) workBuffer2Len
    let oldPath := workPath cfg workBuffer1Len oldName
    let newPath := workPath cfg workBuffer2Len newName
    match c.call (posix.rename oldPath newPath) with
    | (true, c) => (.none, c.setSize 0)
    | (false, c) => (.failErrno, c)

/-- The loop of `_workCalcFileCRC32`: the checksum, if no read fails. -/
def crcLoop (fd : ℤ) (checksum : UInt32) (w : World F) : Option UInt32 × World F :=
  match h : posix.read fd workBuffer2Len w with
  | (none, w') => (none, w')
  | (some bs, w') =>
      if hfull : bs.length = workBuffer2Len then
        have : posix.remaining fd w' < posix.remaining fd w := by
          have := posix.remaining_read_lt (w := w) (show 0 < workBuffer2Len by decide)
            (by rw [h]) hfull
          rwa [h] at this
        crcLoop fd (posix.crc32part bs checksum) w'
      else (some (posix.crc32part bs checksum), w')
termination_by posix.remaining fd w

/-- `_workCalcFileCRC32`. -/
def workCalcFileCRC32 : ErrorCode × Ctx F :=
  let c := c.terminated
  let path := workPath cfg workBuffer2Len c.dataString
  match c.call (posix.openFile path {}) with
  | (fd, c) =>
      if fd < 0 then (.failErrno, c)
      else
        match c.call (crcLoop posix fd 0) with
        | (none, c) => (.failErrno, (c.perform (posix.close fd)).setErrno c.world.errno)
        | (some checksum, c) => (.none, (c.perform (posix.close fd)).answer32 checksum.toNat)

/-! ## `_process_request` -/

/-- The `switch` of `_process_request`. -/
def dispatch (targetSystemId targetComponentId : UInt8) : ErrorCode × Ctx F :=
  match Command.ofCode? c.payload.opcode with
  | some .none => (.none, c)
  | some .terminateSession => c.workTerminate posix
  | some .resetSessions => c.workReset posix
  | some .listDirectory => c.workList posix cfg
  | some .openFileRO => c.workOpen posix cfg env {}
  | some .createFile => c.workOpen posix cfg env { wronly := true, creat := true, trunc := true }
  | some .openFileWO => c.workOpen posix cfg env { wronly := true, creat := true }
  | some .readFile => c.workRead posix
  | some .burstReadFile => c.workBurst targetSystemId targetComponentId
  | some .writeFile => c.workWrite posix
  | some .removeFile => c.workRemoveFile posix cfg
  | some .rename => c.workRename posix cfg
  | some .truncateFile => c.workTruncateFile posix cfg
  | some .createDirectory => c.workCreateDirectory posix cfg
  | some .removeDirectory => c.workRemoveDirectory posix cfg
  | some .calcFileCRC32 => c.workCalcFileCRC32 posix cfg
  | none => (.unknownCommand, c)

/-- The error code of a NAK, after a look at `errno`. -/
def finalCode (errorCode : ErrorCode) : ErrorCode :=
  if c.world.errno = eexist then .failFileExists
  else if c.world.errno = enoent ∧ errorCode = .failErrno then .fileNotFound
  else errorCode

/-- The data of a NAK. -/
def nakData (errorCode : ErrorCode) : List UInt8 :=
  if errorCode = .failErrno then [errorCode.code, UInt8.ofNat c.world.errno] else [errorCode.code]

/-- The end of `_process_request`: the payload of the request becomes the one of the answer. -/
def answer (errorCode : ErrorCode) : Payload :=
  let payload := { c.payload with
    seqNumber := c.payload.seqNumber + 1
    reqOpcode := c.payload.opcode }
  if errorCode = .none then { payload with opcode := kRspAck }
  else
    let data := c.nakData (c.finalCode errorCode)
    { payload.setData data with opcode := kRspNak, size := UInt8.ofNat data.length }

end Ctx

namespace Server

variable (s : Server F)

/-- `_reply`: small replies are kept, to be sent again. -/
def reply (r : Reply) : Server F × List Reply :=
  if r.size.toNat ≤ 4 then ({ s with lastReplyValid := true, lastReply := r }, [r]) else (s, [r])

/-- `_ensure_buffers_exist`. -/
def ensureBuffersExist : Server F :=
  { s with
    lastWorkBufferAccess := env.now
    workBuffer1 := s.workBuffer1 || env.alloc1
    workBuffer2 := s.workBuffer2 || env.alloc2 }

def buffersExist : Bool := s.workBuffer1 && s.workBuffer2

/-- The request is the one that was replied to last.  The sum is one of `int`s. -/
def resent (payload : Payload) : Bool :=
  s.lastReplyValid && decide (payload.seqNumber.toNat + 1 = s.lastReply.seqNumber.toNat)

/-- The label `out` of `_process_request`, with the error code and what the work function left. -/
def out (streamSend : Bool) (targetSystemId targetComponentId : UInt8)
    (done : ErrorCode × Ctx F) : Server F × List Reply :=
  let s := { s with session := done.2.session, fs := done.2.world.fs, lastReplyValid := false }
  if streamSend ∧ done.1 = .none then (s, [])
  else s.reply ((done.2.answer done.1).toReply targetSystemId targetComponentId)

/-- What the work function of a request starts from. -/
def ctx (payload : Payload) : Ctx F := ⟨s.session, ⟨s.fs, env.errno⟩, payload⟩

/-- `_process_request`. -/
def processRequest (payload : Payload) (targetSystemId targetComponentId : UInt8) :
    Server F × List Reply :=
  let s := s.ensureBuffersExist env
  let c := s.ctx env payload
  if ¬s.buffersExist then
    s.out false targetSystemId targetComponentId (.failErrno, c.setErrno enomem)
  else if kMaxDataLength < payload.size.toNat then
    s.out false targetSystemId targetComponentId (.invalidDataSize, c)
  else if s.resent payload then (s, [s.lastReply])
  else
    s.out (decide (Command.ofCode? payload.opcode = some .burstReadFile)) targetSystemId
      targetComponentId (c.dispatch posix cfg env targetSystemId targetComponentId)

/-! ## `send` -/

/-- The buffers, and then the session, are given up when they are not used for a while. -/
def housekeeping : Server F :=
  if s.workBuffer1 ∨ s.workBuffer2 then
    if 2000000 < env.now - s.lastWorkBufferAccess then
      { s with workBuffer1 := false, workBuffer2 := false }
    else s
  else if s.session.fd ≠ -1 ∧ 10000000 < env.now - s.lastWorkBufferAccess then
    { s with
      session := { s.session with fd := -1, streamDownload := false }
      fs := (posix.close s.session.fd ⟨s.fs, env.errno⟩).fs
      lastReplyValid := false }
  else s

end Server

/-- The header of a stream packet, over what the stack holds. -/
def streamHeader (session : SessionInfo) (stack : Payload) : Payload :=
  { stack with
    seqNumber := session.streamSeqNumber
    session := 0
    opcode := kRspAck
    reqOpcode := kCmdBurstReadFile
    offset := session.streamOffset }

namespace Ctx

variable (c : Ctx F)

/-- The bytes `bs` were read for a stream packet. -/
def gotData (bs : List UInt8) : Ctx F :=
  let session := { c.session with
    streamOffset := c.session.streamOffset + UInt32.ofNat bs.length
    streamChunkTransmitted := c.session.streamChunkTransmitted + UInt32.ofNat bs.length }
  { c with session := session, payload := c.payload.setData bs }.setSize bs.length

/-- The data of a stream packet is read. -/
def streamRead : ErrorCode × Ctx F :=
  if c.session.fileSize ≤ c.session.streamOffset then (.eof, c)
  else
    match c.call (posix.lseek c.session.fd c.payload.offset.toNat) with
    | (false, c) => (.failErrno, c)
    | (true, c) =>
        match c.call (posix.read c.session.fd kMaxDataLength) with
        | (none, c) => (.failErrno, c)
        | (some bs, c) => (.none, c.gotData bs)

/-- A packet that could not be read becomes a NAK and ends the stream. -/
def streamNak (errorCode : ErrorCode) : Ctx F :=
  let data := c.nakData errorCode
  let payload :=
    { c.payload.setData data with opcode := kRspNak, size := UInt8.ofNat data.length }
  { c with session := { c.session with streamDownload := false }, payload := payload }

/-- The end of a packet with data, given the room in the buffer, and whether another one follows.
Where the room ends before the chunk does, `burst_complete` stays what it was on the stack. -/
def streamAck (room : ℕ) : Bool × Ctx F :=
  if room < getSize c.session * 2 then
    if 35000 < c.session.streamChunkTransmitted.toNat then
      (false, { c with
        session := { c.session with streamDownload := false, streamChunkTransmitted := 0 }
        payload := { c.payload with burstComplete := 1 } })
    else (false, c)
  else (true, { c with payload := { c.payload with burstComplete := 0 } })

/-- One round of the loop of `send`, from the message on its stack. -/
def streamPacket (room : ℕ) : Bool × Ctx F :=
  let session := { c.session with streamSeqNumber := c.session.streamSeqNumber + 1 }
  let c := { c with session := session, payload := streamHeader c.session c.payload }
  match c.streamRead posix with
  | (.none, c) => c.streamAck room
  | (errorCode, c) => (false, c.streamNak errorCode)

end Ctx

namespace Server

/-- A stream packet is sent. -/
def sendPacket (s : Server F) (c : Ctx F) : Server F × List Reply :=
  { s with session := c.session, fs := c.world.fs }.reply
    (c.payload.toReply c.session.streamTargetSystemId c.session.streamTargetComponentId)

/-- The loop of `send`, in round `i` and with `room` bytes free in the transmit buffer.  Another
round is only made where this packet and the next one have room, as `streamAck` sees to. -/
def sendLoop (room i : ℕ) (s : Server F) (errno : ℕ) : Server F × List Reply :=
  let next := Ctx.streamPacket posix ⟨s.session, ⟨s.fs, errno⟩, env.stack i⟩ room
  let sent := s.sendPacket next.2
  if h : next.1 ∧ messageSize ≤ room then
    have : room - messageSize < room := Nat.sub_lt_of_pos_le (by decide) h.2
    let rest := sendLoop (room - messageSize) (i + 1) sent.1 next.2.world.errno
    (rest.1, sent.2 ++ rest.2)
  else sent
termination_by room

/-- `send`. -/
def send (s : Server F) : Server F × List Reply :=
  let s := s.housekeeping posix env
  if ¬s.session.streamDownload then (s, [])
  else if env.freeTxBuf < getSize s.session then (s, [])
  else sendLoop posix env env.freeTxBuf 0 s env.errno

end Server

/-! ## Runs -/

/-- A message for `handle_message`. -/
structure Message where
  sysid : UInt8
  compid : UInt8
  targetSystem : UInt8
  targetComponent : UInt8
  payload : Payload

/-- The message is for this server. -/
def Message.Addressed (msg : Message) : Prop :=
  (msg.targetSystem = cfg.systemId ∨ msg.targetSystem = 0) ∧
    (msg.targetComponent = cfg.componentId ∨ msg.targetComponent = 0)

instance (msg : Message) : Decidable (msg.Addressed cfg) := inferInstanceAs (Decidable (_ ∧ _))

/-- `handle_message`. -/
def Server.handleMessage (s : Server F) (msg : Message) : Server F × List Reply :=
  if msg.Addressed cfg then
    s.processRequest posix cfg env msg.payload msg.sysid msg.compid
  else (s, [])

/-- What happens to the server: a message, or its turn to send. -/
inductive Input
  | message (msg : Message)
  | send

/-- One call of the server. -/
def Server.step (s : Server F) (e : Env × Input) : Server F × List Reply :=
  match e.2 with
  | .message msg => s.handleMessage posix cfg e.1 msg
  | .send => s.send posix e.1

/-- The server after one call. -/
def Server.next (s : Server F) (e : Env × Input) : Server F := (s.step posix cfg e).1

end Ftp
end DtPhm
