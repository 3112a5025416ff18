import DtPhm.Ftp.Server

/-!
# Retransmit — a request that is delivered twice

The server keeps its last small reply and sends it again when the same request comes again.  The
test for that is on the sequence number, and it is made with `int`s: the reply to request 65535 has
the sequence number 0, which is not 65536.  Every other request is recognised when it comes again
(`deliver_twice_iff`).
-/

namespace DtPhm
namespace Ftp

open Lib

variable {F : Type} (posix : Posix F) (cfg : Config) (env : Env)

/-! ## Work functions keep the sequence number -/

@[simp, grind =] theorem Payload.setData_seqNumber (payload : Payload) (bs : List UInt8) :
    (payload.setData bs).seqNumber = payload.seqNumber := rfl

namespace Ctx

variable (c : Ctx F)

@[simp, grind =] theorem perform_seqNumber (f : World F → World F) :
    (c.perform f).payload.seqNumber = c.payload.seqNumber := rfl

@[simp, grind =] theorem setErrno_seqNumber (errno : ℕ) :
    (c.setErrno errno).payload.seqNumber = c.payload.seqNumber := rfl

@[simp, grind =] theorem setSize_seqNumber (size : ℕ) :
    (c.setSize size).payload.seqNumber = c.payload.seqNumber := rfl

@[simp, grind =] theorem terminated_seqNumber :
    c.terminated.payload.seqNumber = c.payload.seqNumber := rfl

@[simp, grind =] theorem answer32_seqNumber (n : ℕ) :
    (c.answer32 n).payload.seqNumber = c.payload.seqNumber := rfl

@[grind =] theorem call_payload {α : Type} (f : World F → α × World F) :
    (c.call f).2.payload = c.payload := rfl

@[grind →] theorem payload_of_call {α : Type} {f : World F → α × World F} {a : α} {c c' : Ctx F}
    (h : c.call f = (a, c')) : c'.payload = c.payload := by
  cases h
  rfl

theorem direntItem_payload (dir : List UInt8) (entry : Dirent) :
    (direntItem posix dir entry c).2.2.payload = c.payload := by
  unfold direntItem direntText
  grind

theorem skipEntries_payload (dp n : ℕ) : (skipEntries posix dp n c).payload = c.payload := by
  fun_induction skipEntries posix dp n c <;> grind

theorem listLoop_seqNumber (dir : List UInt8) (dp offset : ℕ) :
    (listLoop posix dir dp offset c).2.payload.seqNumber = c.payload.seqNumber := by
  fun_induction listLoop posix dir dp offset c <;> grind [direntItem_payload]

theorem workList_seqNumber :
    (c.workList posix cfg).2.payload.seqNumber = c.payload.seqNumber := by
  unfold workList
  grind [listLoop_seqNumber, skipEntries_payload]

theorem workOpen_seqNumber (oflag : OFlags) :
    (c.workOpen posix cfg env oflag).2.payload.seqNumber = c.payload.seqNumber := by
  unfold workOpen
  grind

theorem workRead_seqNumber : (c.workRead posix).2.payload.seqNumber = c.payload.seqNumber := by
  unfold workRead
  grind

theorem workBurst_seqNumber (sys comp : UInt8) :
    (c.workBurst sys comp).2.payload.seqNumber = c.payload.seqNumber := by
  unfold workBurst
  grind

theorem workWrite_seqNumber : (c.workWrite posix).2.payload.seqNumber = c.payload.seqNumber := by
  unfold workWrite
  grind

theorem workTerminate_seqNumber :
    (c.workTerminate posix).2.payload.seqNumber = c.payload.seqNumber := by
  unfold workTerminate
  grind

theorem workReset_seqNumber : (c.workReset posix).2.payload.seqNumber = c.payload.seqNumber := by
  unfold workReset
  grind

theorem workOnPath_seqNumber (f : List UInt8 → World F → Bool × World F) :
    (c.workOnPath cfg f).2.payload.seqNumber = c.payload.seqNumber := by
  unfold workOnPath
  grind

theorem truncateNuttx_seqNumber (path : List UInt8) :
    (c.truncateNuttx posix cfg path).2.payload.seqNumber = c.payload.seqNumber := by
  unfold truncateNuttx
  grind

theorem workTruncateFile_seqNumber :
    (c.workTruncateFile posix cfg).2.payload.seqNumber = c.payload.seqNumber := by
  unfold workTruncateFile
  grind [truncateNuttx_seqNumber]

theorem workRename_seqNumber :
    (c.workRename posix cfg).2.payload.seqNumber = c.payload.seqNumber := by
  unfold workRename
  grind

theorem workCalcFileCRC32_seqNumber :
    (c.workCalcFileCRC32 posix cfg).2.payload.seqNumber = c.payload.seqNumber := by
  unfold workCalcFileCRC32
  grind

theorem dispatch_seqNumber (sys comp : UInt8) :
    (c.dispatch posix cfg env sys comp).2.payload.seqNumber = c.payload.seqNumber := by
  unfold dispatch
  split
  · rfl
  · exact c.workTerminate_seqNumber posix
  · exact c.workReset_seqNumber posix
  · exact c.workList_seqNumber posix cfg
  · exact c.workOpen_seqNumber posix cfg env _
  · exact c.workOpen_seqNumber posix cfg env _
  · exact c.workOpen_seqNumber posix cfg env _
  · exact c.workRead_seqNumber posix
  · exact c.workBurst_seqNumber sys comp
  · exact c.workWrite_seqNumber posix
  · exact c.workOnPath_seqNumber cfg posix.unlink
  · exact c.workRename_seqNumber posix cfg
  · exact c.workTruncateFile_seqNumber posix cfg
  · exact c.workOnPath_seqNumber cfg posix.mkdir
  · exact c.workOnPath_seqNumber cfg posix.rmdir
  · exact c.workCalcFileCRC32_seqNumber posix cfg
  · rfl

theorem answer_seqNumber (errorCode : ErrorCode) :
    (c.answer errorCode).seqNumber = c.payload.seqNumber + 1 := by
  unfold answer
  grind

variable {c} in
theorem size_answer_nak {errorCode : ErrorCode} (h : errorCode ≠ .none) :
    (c.answer errorCode).size.toNat ≤ 4 := by
  simp only [answer, if_neg h, nakData]
  split <;> simp

end Ctx

/-! ## The last reply -/

theorem toNat_seqNumber_succ {q : UInt16} (hq : q ≠ 65535) : (q + 1).toNat = q.toNat + 1 := by
  have hlt : q.toNat < 65536 := q.toNat_lt
  have hne : q.toNat ≠ 65535 := by
    intro h
    exact hq (UInt16.toNat_inj.1 h)
  rw [UInt16.toNat_add]
  have hone : (1 : UInt16).toNat = 1 := rfl
  omega

namespace Server

variable {posix cfg env} {s : Server F} {payload : Payload} {sys comp : UInt8}

/-- The server that keeps `r` as its last reply. -/
def remember (s : Server F) (r : Reply) : Server F :=
  { s with lastReplyValid := true, lastReply := r }

/-- The server after an accepted burst. -/
def streaming (s : Server F) (payload : Payload) (sys comp : UInt8) : Server F :=
  { s with session := s.session.startStream payload sys comp, lastReplyValid := false }

theorem reply_small {r : Reply} (h : r.size.toNat ≤ 4) : s.reply r = (s.remember r, [r]) := by
  simp [reply, h, remember]

/-- The reply that the end of `_process_request` sends. -/
def outReply (sys comp : UInt8) (done : ErrorCode × Ctx F) : Reply :=
  (done.2.answer done.1).toReply sys comp

/-- What the end of `_process_request` does where it sends its reply, and that is small. -/
theorem out_small {stream : Bool} {done : ErrorCode × Ctx F} (hsend : ¬(stream ∧ done.1 = .none))
    (hsmall : ∀ r ∈ (s.out stream sys comp done).2, r.size.toNat ≤ 4) :
    s.out stream sys comp done =
      ({ s with session := done.2.session, fs := done.2.world.fs }.remember
        (outReply sys comp done),
        [outReply sys comp done]) := by
  have hr : (outReply sys comp done).size.toNat ≤ 4 := by
    apply hsmall
    rw [out, if_neg hsend, reply, outReply]
    split <;> simp
  rw [out, if_neg hsend, ← outReply, reply_small hr]
  rfl

theorem out_nak {stream : Bool} {done : ErrorCode × Ctx F} (h : done.1 ≠ .none) :
    s.out stream sys comp done =
      ({ s with session := done.2.session, fs := done.2.world.fs }.remember
        (outReply sys comp done),
        [outReply sys comp done]) := by
  have hsend : ¬(stream = true ∧ done.1 = .none) := fun hc => h hc.2
  have hr : (outReply sys comp done).size.toNat ≤ 4 := Ctx.size_answer_nak h
  rw [out, if_neg hsend, ← outReply, reply_small hr]
  rfl

theorem outReply_nak {done : ErrorCode × Ctx F} (h : done.1 ≠ .none) :
    (outReply sys comp done).opcode = kRspNak := by
  simp [outReply, Ctx.answer, h, Payload.toReply]

theorem outReply_seqNumber (sys comp : UInt8) (done : ErrorCode × Ctx F) :
    (outReply sys comp done).seqNumber = done.2.payload.seqNumber + 1 :=
  done.2.answer_seqNumber done.1

theorem processRequest_resent (hbuffers : (s.ensureBuffersExist env).buffersExist)
    (hsize : payload.size.toNat ≤ kMaxDataLength) (hresent : s.resent payload) :
    s.processRequest posix cfg env payload sys comp =
      (s.ensureBuffersExist env, [s.lastReply]) := by
  have hresent' : (s.ensureBuffersExist env).resent payload = true := hresent
  simp [processRequest, hbuffers, Nat.not_lt_of_le hsize, hresent']
  rfl

theorem buffersExist_ensure {s : Server F} (h : s.buffersExist) (env : Env) :
    (s.ensureBuffersExist env).buffersExist := by
  simp only [buffersExist, ensureBuffersExist, Bool.and_eq_true, Bool.or_eq_true] at h ⊢
  exact ⟨Or.inl h.1, Or.inl h.2⟩

theorem resent_of_reply (hq : payload.seqNumber ≠ 65535) {r : Reply}
    (hr : r.seqNumber = payload.seqNumber + 1) (hvalid : s.lastReplyValid = true)
    (hlast : s.lastReply = r) : s.resent payload := by
  simp [resent, hvalid, hlast, hr, toNat_seqNumber_succ hq]

/-- A request with the last sequence number is never recognised: the sum is 65536, and no reply has
that sequence number. -/
theorem not_resent_of_last (h : payload.seqNumber = 65535) : ¬s.resent payload := by
  have hlt : s.lastReply.seqNumber.toNat < 65536 := s.lastReply.seqNumber.toNat_lt
  have hq : payload.seqNumber.toNat = 65535 := by
    rw [h]
    rfl
  simp only [resent, hq, Bool.and_eq_true, decide_eq_true_eq, not_and]
  omega

/-! ## The same request again -/

/-- The effects of a request, and of the same request again: nothing is done a second time, and the
reply is the same. -/
def SameAgain (first second : Server F × List Reply) : Prop :=
  second.1.fs = first.1.fs ∧ second.1.session = first.1.session ∧ second.2 = first.2

/-- A small reply to a request is sent again, from the buffers that were there for the first. -/
theorem sameAgain_of_resent {first : Server F × List Reply} {r : Reply}
    (hfirst : first.2 = [r]) (hlast : first.1.lastReply = r)
    (hbuffers : (first.1.ensureBuffersExist env).buffersExist)
    (hsize : payload.size.toNat ≤ kMaxDataLength) (hresent : first.1.resent payload) :
    SameAgain first (first.1.processRequest posix cfg env payload sys comp) := by
  rw [processRequest_resent hbuffers hsize hresent]
  exact ⟨rfl, rfl, by rw [hfirst, hlast]⟩

/-- Without memory for its buffers, the server answers with `ENOMEM`. -/
theorem processRequest_noBuffers (hbuffers : ¬(s.ensureBuffersExist env).buffersExist) :
    let r := outReply sys comp (.failErrno, (s.ctx env payload).setErrno enomem)
    s.processRequest posix cfg env payload sys comp =
      ((s.ensureBuffersExist env).remember r, [r]) := by
  intro r
  have hsend : ¬((false : Bool) = true ∧ ErrorCode.failErrno = .none) := by
    simp
  have hr : r.size.toNat ≤ 4 := Ctx.size_answer_nak (by simp)
  simp only [processRequest, hbuffers, out, if_neg hsend]
  exact reply_small hr

theorem twice_of_reply (hq : payload.seqNumber ≠ 65535)
    (hsize : payload.size.toNat ≤ kMaxDataLength) {first : Server F × List Reply} {r : Reply}
    (hreplies : first.2 = [r]) (hvalid : first.1.lastReplyValid = true)
    (hlast : first.1.lastReply = r) (hr : r.seqNumber = payload.seqNumber + 1)
    (hbuffers : first.1.buffersExist) :
    SameAgain first (first.1.processRequest posix cfg env payload sys comp) :=
  sameAgain_of_resent hreplies hlast (buffersExist_ensure hbuffers env) hsize
    (resent_of_reply hq hr hvalid hlast)

theorem processRequest_new (hbuffers : (s.ensureBuffersExist env).buffersExist)
    (hsize : payload.size.toNat ≤ kMaxDataLength) (hresent : ¬s.resent payload) :
    s.processRequest posix cfg env payload sys comp =
      (s.ensureBuffersExist env).out
        (decide (Command.ofCode? payload.opcode = some .burstReadFile)) sys comp
        ((s.ctx env payload).dispatch posix cfg env sys comp) := by
  have hresent' : ¬(s.ensureBuffersExist env).resent payload = true := hresent
  simp only [processRequest, hbuffers, Nat.not_lt_of_le hsize, hresent']
  rfl

theorem processRequest_burst (hbuffers : (s.ensureBuffersExist env).buffersExist)
    (hsize : payload.size.toNat ≤ kMaxDataLength) (hresent : ¬s.resent payload)
    (hburst : Command.ofCode? payload.opcode = some .burstReadFile)
    (haccepted : ¬(payload.session ≠ 0 ∧ s.session.fd < 0)) :
    s.processRequest posix cfg env payload sys comp =
      ((s.ensureBuffersExist env).streaming payload sys comp, []) := by
  have hdone : (s.ctx env payload).dispatch posix cfg env sys comp =
      (.none, { s.ctx env payload with session := s.session.startStream payload sys comp }) := by
    have hopcode : Command.ofCode? (s.ctx env payload).payload.opcode = some .burstReadFile :=
      hburst
    simp only [Ctx.dispatch, hopcode]
    exact if_neg haccepted
  rw [processRequest_new hbuffers hsize hresent, hdone, hburst]
  simp [out]
  rfl

theorem not_streamed (hstream : ¬(Command.ofCode? payload.opcode = some .burstReadFile ∧
      ¬(payload.session ≠ 0 ∧ s.session.fd < 0))) :
    ¬(decide (Command.ofCode? payload.opcode = some .burstReadFile) ∧
      ((s.ctx env payload).dispatch posix cfg env sys comp).1 = .none) := by
  rintro ⟨hburst, hnone⟩
  have hburst : Command.ofCode? payload.opcode = some .burstReadFile := of_decide_eq_true hburst
  have hopcode : Command.ofCode? (s.ctx env payload).payload.opcode = some .burstReadFile := hburst
  have hrefused : payload.session ≠ 0 ∧ s.session.fd < 0 := by
    by_contra haccepted
    exact hstream ⟨hburst, haccepted⟩
  have hcode : ((s.ctx env payload).dispatch posix cfg env sys comp).1 = .invalidSession := by
    simp only [Ctx.dispatch, hopcode]
    exact congrArg Prod.fst (if_pos hrefused)
  rw [hcode] at hnone
  cases hnone

/-- Whatever the server and the request, the second delivery is without effect below the last
sequence number. -/
theorem processRequest_twice (hq : payload.seqNumber ≠ 65535)
    (hsize : payload.size.toNat ≤ kMaxDataLength) (env' : Env)
    (hsmall : ∀ r ∈ (s.processRequest posix cfg env payload sys comp).2, r.size.toNat ≤ 4) :
    SameAgain (s.processRequest posix cfg env payload sys comp)
      ((s.processRequest posix cfg env payload sys comp).1.processRequest posix cfg env' payload sys
        comp) := by
  by_cases hbuffers : (s.ensureBuffersExist env).buffersExist
  · by_cases hresent : s.resent payload
    · -- already the first delivery was one too many
      rw [processRequest_resent hbuffers hsize hresent]
      exact sameAgain_of_resent rfl rfl (buffersExist_ensure hbuffers env') hsize hresent
    · have hnew : s.processRequest posix cfg env payload sys comp = _ :=
        processRequest_new hbuffers hsize hresent
      by_cases hstream : Command.ofCode? payload.opcode = some .burstReadFile ∧
          ¬(payload.session ≠ 0 ∧ s.session.fd < 0)
      · rcases hstream with ⟨hburst, haccepted⟩
        rw [processRequest_burst hbuffers hsize hresent hburst haccepted]
        dsimp only
        have hbuffers' : (((s.ensureBuffersExist env).streaming payload sys comp).ensureBuffersExist
            env').buffersExist := buffersExist_ensure hbuffers env'
        have hnotResent :
            ¬((s.ensureBuffersExist env).streaming payload sys comp).resent payload := by
          simp [resent, streaming]
        rw [processRequest_burst hbuffers' hsize hnotResent hburst haccepted]
        exact ⟨rfl, rfl, rfl⟩
      · rw [hnew] at hsmall ⊢
        rw [out_small (not_streamed hstream) hsmall]
        refine twice_of_reply hq hsize rfl rfl rfl ?_ hbuffers
        rw [outReply_seqNumber, Ctx.dispatch_seqNumber]
        rfl
  · rw [processRequest_noBuffers hbuffers]
    dsimp only
    -- the answer is the same whether the second delivery has memory or not
    by_cases hbuffers' : (((s.ensureBuffersExist env).remember
        (outReply sys comp (.failErrno, (s.ctx env payload).setErrno enomem))).ensureBuffersExist
          env').buffersExist
    · exact sameAgain_of_resent rfl rfl hbuffers' hsize
        (resent_of_reply hq (outReply_seqNumber ..) rfl rfl)
    · rw [processRequest_noBuffers hbuffers']
      exact ⟨rfl, rfl, rfl⟩

end Server

/-! ## Runs of two deliveries -/

/-- A second delivery of the message in `s` has no effect, and gets the reply of the first. -/
def DeliveredOnce (s : Server F) (msg : Message) (env env' : Env) : Prop :=
  Server.SameAgain (s.handleMessage posix cfg env msg)
    ((s.handleMessage posix cfg env msg).1.handleMessage posix cfg env' msg)

/-- A request to end the session, with the sequence number `q`. -/
def terminateRequest (q : UInt16) : Payload where
  seqNumber := q
  session := 0
  opcode := 1
  size := 0
  reqOpcode := 0
  burstComplete := 0
  padding := 0
  offset := 0
  data := fun _ => 0

def terminateMessage (q : UInt16) : Message := ⟨255, 190, 0, 0, terminateRequest q⟩

/-- A server with an open file, and its buffers in place. -/
def openServer (fs : F) : Server F :=
  { Server.init fs with session := { fd := 3 }, workBuffer1 := true, workBuffer2 := true }

def quietEnv : Env where
  now := 0
  alloc1 := true
  alloc2 := true
  errno := 0
  freeTxBuf := 0
  stack := fun _ => terminateRequest 0
  afterWorkBuffer1 := []

theorem handleMessage_terminate (s : Server F) (q : UInt16) :
    s.handleMessage posix cfg env (terminateMessage q) =
      s.processRequest posix cfg env (terminateRequest q) 255 190 := by
  simp [Server.handleMessage, Message.Addressed, terminateMessage]

theorem terminate_opcodes (fs : F) :
    let first := (openServer fs).handleMessage posix cfg quietEnv (terminateMessage 65535)
    let second := first.1.handleMessage posix cfg quietEnv (terminateMessage 65535)
    first.2.map Reply.size = [0] ∧ first.2.map Reply.opcode = [kRspAck] ∧
      second.2.map Reply.opcode = [kRspNak] := by
  simp only [handleMessage_terminate]
  refine ⟨rfl, rfl, ?_⟩
  have hcode : ((((openServer fs).processRequest posix cfg quietEnv (terminateRequest 65535) 255
      190).1.ctx quietEnv (terminateRequest 65535)).dispatch posix cfg quietEnv 255 190).1 =
      .invalidSession := rfl
  have herror := hcode.trans_ne (show ErrorCode.invalidSession ≠ .none by decide)
  rw [Server.processRequest_new rfl (by decide) (Server.not_resent_of_last rfl),
    Server.out_nak herror]
  simp [Server.outReply_nak herror]

theorem terminate_twice (fs : F) :
    (∀ r ∈ ((openServer fs).handleMessage posix cfg quietEnv (terminateMessage 65535)).2,
      r.size.toNat ≤ 4) ∧
      ¬DeliveredOnce posix cfg (openServer fs) (terminateMessage 65535) quietEnv quietEnv := by
  rcases terminate_opcodes posix cfg fs with ⟨hsize, hack, hnak⟩
  constructor
  · intro r hr
    have : r.size ∈ [0] := hsize ▸ List.mem_map_of_mem hr
    rw [List.mem_singleton.1 this]
    decide
  · intro honce
    have hsame := congrArg (List.map Reply.opcode) honce.2.2
    rw [hnak, hack] at hsame
    exact absurd hsame (by decide)

/-- For a sequence number, every request with it that gets a small reply can be delivered twice
exactly when it is not the last one. -/
theorem deliver_twice_iff [Inhabited F] (q : UInt16) :
    (∀ (s : Server F) (msg : Message) (env env' : Env), msg.payload.seqNumber = q →
      msg.payload.size.toNat ≤ kMaxDataLength →
      (∀ r ∈ (s.handleMessage posix cfg env msg).2, r.size.toNat ≤ 4) →
      DeliveredOnce posix cfg s msg env env') ↔ q ≠ 65535 := by
  constructor
  · rintro h rfl
    rcases terminate_twice posix cfg (default : F) with ⟨hsmall, honce⟩
    exact honce (h _ _ _ _ rfl (by decide) hsmall)
  · rintro hq s msg env env' rfl hsize hsmall
    unfold DeliveredOnce
    unfold Server.handleMessage at hsmall ⊢
    split
    · rename_i htarget
      rw [if_pos htarget] at hsmall
      exact Server.processRequest_twice hq hsize env' hsmall
    · exact ⟨rfl, rfl, rfl⟩

/-- An operating system without files. -/
def noFiles : Posix Unit where
  stat _ w := (none, { w with errno := enoent })
  openFile _ _ w := (-1, { w with errno := enoent })
  close _ w := w
  lseek _ _ w := (false, w)
  read _ _ w := (none, w)
  write _ _ w := (-1, w)
  unlink _ w := (false, { w with errno := enoent })
  rename _ _ w := (false, { w with errno := enoent })
  truncate _ _ w := (false, { w with errno := enoent })
  mkdir _ w := (false, { w with errno := erofs })
  rmdir _ w := (false, { w with errno := enoent })
  opendir _ w := (none, { w with errno := enoent })
  readdir _ w := (none, w)
  closedir _ w := w
  crc32part _ checksum := checksum
  read_length_le h := by cases h
  remaining _ _ := 0
  remaining_read_lt _ h := by cases h

def posixConfig : Config where
  systemId := 1
  componentId := 1
  nuttx := false
  rootDir := [46]
  tempFile := [46]

/-- The request to end a session, with the last sequence number, is carried out twice. -/
theorem terminate_last_twice :
    (∀ r ∈ ((openServer ()).handleMessage noFiles posixConfig quietEnv (terminateMessage 65535)).2,
      r.size.toNat ≤ 4) ∧
      ¬DeliveredOnce noFiles posixConfig (openServer ()) (terminateMessage 65535) quietEnv
        quietEnv :=
  terminate_twice noFiles posixConfig ()

end Ftp
end DtPhm
