import DtPhm.Lib.Run
import DtPhm.Ftp.Retransmit

/-!
# Session — requests that name no open session

A request to read, write, stream or end a session is to be refused when it names a session other
than 0, and when there is no open file.  `_workRead` and `_workTerminate` test for either;
`_workBurst` and `_workWrite` ask for both at once, so one of the two is enough to get past them.
The code of the refusal goes through `errno` before it is sent, and a left over `EEXIST` replaces
it. `refused_iff` says when exactly the request is refused.
-/

namespace DtPhm
namespace Ftp

open Lib

variable {F : Type}

/-! ## Refusals -/

/-- The requests about a session. -/
def Command.aboutSession : Command → Bool
  | .readFile => true
  | .burstReadFile => true
  | .writeFile => true
  | .terminateSession => true
  | _ => false

/-- The request is about a session, and names none that is open. -/
def NamesNoSession (s : Server F) (payload : Payload) : Prop :=
  (∃ cmd, Command.ofCode? payload.opcode = some cmd ∧ cmd.aboutSession) ∧
    (payload.session ≠ 0 ∨ s.session.fd < 0)

/-- A NAK with `kErrInvalidSession`. -/
def Reply.InvalidSession (r : Reply) : Prop :=
  r.opcode = kRspNak ∧ r.data.head? = some ErrorCode.invalidSession.code

/-- The one reply is a NAK with `kErrInvalidSession`, and nothing has changed. -/
def Refused (s : Server F) (after : Server F × List Reply) : Prop :=
  (∃ r : Reply, after.2 = [r] ∧ r.InvalidSession) ∧ after.1.fs = s.fs ∧ after.1.session = s.session

/-- When a request that names no open session is refused.  The request must reach the guard of its
work function (or be answered by an earlier refusal), the guard must be one that works, and `errno`
must not be `EEXIST`. -/
def GuardWorks (env : Env) (s : Server F) (payload : Payload) : Prop :=
  (s.ensureBuffersExist env).buffersExist ∧ payload.size.toNat ≤ kMaxDataLength ∧
    (s.resent payload → s.lastReply.InvalidSession) ∧
    (¬s.resent payload → env.errno ≠ eexist ∧
      (Command.ofCode? payload.opcode = some .readFile ∨
        Command.ofCode? payload.opcode = some .terminateSession ∨
        (payload.session ≠ 0 ∧ s.session.fd < 0)))

/-! ## The code of a NAK -/

theorem ErrorCode.code_inj {e e' : ErrorCode} (h : e.code = e'.code) : e = e' := by
  cases e <;> cases e' <;> first | rfl | exact absurd h (by decide)

namespace Ctx

variable (c : Ctx F)

theorem finalCode_eq_invalidSession (errorCode : ErrorCode) :
    c.finalCode errorCode = .invalidSession ↔
      c.world.errno ≠ eexist ∧ errorCode = .invalidSession := by
  unfold finalCode
  split
  · rename_i h
    simp [h]
  · rename_i hexist
    split
    · rename_i h
      simp [h.2]
    · simp [hexist]

/-- A work function with a guard: it turns down what meets `P`, and then it has done nothing. -/
def Guarded (done : ErrorCode × Ctx F) (P : Prop) : Prop :=
  (done.1 = .invalidSession ↔ P) ∧ (done.1 = .invalidSession → done.2 = c)

variable (posix : Posix F)

theorem workRead_guarded :
    c.Guarded (c.workRead posix) (c.payload.session ≠ 0 ∨ c.session.fd < 0) := by
  unfold Guarded workRead
  grind

theorem workTerminate_guarded :
    c.Guarded (c.workTerminate posix) (c.payload.session ≠ 0 ∨ c.session.fd < 0) := by
  unfold Guarded workTerminate
  grind

/-- The guard of `_workBurst` is the weaker one. -/
theorem workBurst_guarded (sys comp : UInt8) :
    c.Guarded (c.workBurst sys comp) (c.payload.session ≠ 0 ∧ c.session.fd < 0) := by
  unfold Guarded workBurst
  grind

/-- So is the guard of `_workWrite`. -/
theorem workWrite_guarded :
    c.Guarded (c.workWrite posix) (c.payload.session ≠ 0 ∧ c.session.fd < 0) := by
  unfold Guarded workWrite
  grind

end Ctx

namespace Server

variable {posix : Posix F} {cfg : Config} {env : Env} {s : Server F} {payload : Payload}
variable {sys comp : UInt8}

theorem outReply_data {done : ErrorCode × Ctx F} (h : done.1 ≠ .none) :
    (outReply sys comp done).data = done.2.nakData (done.2.finalCode done.1) := by
  -- one byte, or two with `errno`
  have hlen : ∀ e : ErrorCode, (UInt8.ofNat (done.2.nakData e).length).toNat =
      (done.2.nakData e).length := by
    intro e
    unfold Ctx.nakData
    split <;> rfl
  simp only [outReply, Ctx.answer, if_neg h, Payload.toReply, Payload.setData, hlen]
  exact load_store_append _ 0 [] _

theorem head_nakData (c : Ctx F) (e : ErrorCode) : (c.nakData e).head? = some e.code := by
  unfold Ctx.nakData
  split <;> rfl

/-- A reply is a NAK with `kErrInvalidSession` when that is what the work function has returned, and
`errno` does not replace it. -/
theorem outReply_invalidSession (done : ErrorCode × Ctx F) :
    (outReply sys comp done).InvalidSession ↔
      done.2.world.errno ≠ eexist ∧ done.1 = .invalidSession := by
  by_cases h : done.1 = .none
  -- no error: an acknowledgement
  · have hack : (outReply sys comp done).opcode = kRspAck := by
      simp [outReply, Ctx.answer, h, Payload.toReply]
    refine iff_of_false ?_ ?_
    · intro hinvalid
      rw [Reply.InvalidSession, hack] at hinvalid
      exact absurd hinvalid.1 (by decide)
    · rintro ⟨-, hcode⟩
      rw [h] at hcode
      cases hcode
  · rw [← Ctx.finalCode_eq_invalidSession, Reply.InvalidSession, outReply_data h, head_nakData]
    constructor
    · rintro ⟨-, hcode⟩
      exact ErrorCode.code_inj (Option.some.inj hcode)
    · intro hcode
      exact ⟨outReply_nak h, by rw [hcode]⟩

/-- The replies of the end of `_process_request`, where the request is no accepted burst. -/
theorem out_replies {stream : Bool} {done : ErrorCode × Ctx F}
    (hsend : ¬(stream ∧ done.1 = .none)) :
    (s.out stream sys comp done).2 = [outReply sys comp done] ∧
      (s.out stream sys comp done).1.fs = done.2.world.fs ∧
      (s.out stream sys comp done).1.session = done.2.session := by
  rw [out, if_neg hsend, ← outReply, reply]
  split <;> exact ⟨rfl, rfl, rfl⟩

/-- What the end of `_process_request` refuses. -/
theorem refused_out_iff {t : Server F} {stream : Bool} {done : ErrorCode × Ctx F}
    (hfs : done.1 = .invalidSession → done.2.world.fs = t.fs ∧ done.2.session = t.session) :
    Refused t (s.out stream sys comp done) ↔
      done.2.world.errno ≠ eexist ∧ done.1 = .invalidSession := by
  by_cases hsend : stream = true ∧ done.1 = .none
  · refine iff_of_false ?_ ?_
    · rintro ⟨⟨r, hr, -⟩, -⟩
      -- an accepted burst sends no reply at once
      simp [out, hsend] at hr
    · rintro ⟨-, hcode⟩
      rw [hsend.2] at hcode
      cases hcode
  · have hout : (s.out stream sys comp done).2 = [outReply sys comp done] ∧ _ := out_replies hsend
    rcases hout with ⟨hreplies, houtFs, houtSession⟩
    have hcode : (outReply sys comp done).InvalidSession ↔ _ := outReply_invalidSession done
    rw [← hcode]
    constructor
    · rintro ⟨⟨r, hr, hinvalid⟩, -⟩
      rw [hreplies] at hr
      rw [List.head_eq_of_cons_eq hr]
      exact hinvalid
    · intro hinvalid
      rcases hfs (hcode.1 hinvalid).2 with ⟨hfs, hsession⟩
      exact ⟨⟨_, hreplies, hinvalid⟩, houtFs.trans hfs, houtSession.trans hsession⟩

theorem processRequest_oversize (hbuffers : (s.ensureBuffersExist env).buffersExist)
    (hsize : ¬payload.size.toNat ≤ kMaxDataLength) :
    s.processRequest posix cfg env payload sys comp =
      (s.ensureBuffersExist env).out false sys comp (.invalidDataSize, s.ctx env payload) := by
  simp only [processRequest, hbuffers, Nat.lt_of_not_le hsize]
  rfl

/-- Which of the requests that name no open session the guards of the work functions turn down. -/
theorem dispatch_guarded (posix : Posix F) (cfg : Config) (env : Env) (sys comp : UInt8)
    (hbad : NamesNoSession s payload) :
    (s.ctx env payload).Guarded ((s.ctx env payload).dispatch posix cfg env sys comp)
      (Command.ofCode? payload.opcode = some .readFile ∨
        Command.ofCode? payload.opcode = some .terminateSession ∨
        (payload.session ≠ 0 ∧ s.session.fd < 0)) := by
  rcases hbad with ⟨⟨cmd, hcmd, habout⟩, hbad⟩
  have hopcode : Command.ofCode? (s.ctx env payload).payload.opcode = some cmd := hcmd
  simp only [Ctx.dispatch, hopcode, hcmd]
  cases cmd with
  | readFile =>
      simpa [ctx, hbad] using (s.ctx env payload).workRead_guarded posix
  | terminateSession =>
      simpa [ctx, hbad] using (s.ctx env payload).workTerminate_guarded posix
  | burstReadFile =>
      simpa [ctx] using (s.ctx env payload).workBurst_guarded sys comp
  | writeFile =>
      simpa [ctx] using (s.ctx env payload).workWrite_guarded posix
  | _ =>
      cases habout

theorem refused_iff (hbad : NamesNoSession s payload) :
    Refused s (s.processRequest posix cfg env payload sys comp) ↔ GuardWorks env s payload := by
  by_cases hbuffers : (s.ensureBuffersExist env).buffersExist
  · by_cases hsize : payload.size.toNat ≤ kMaxDataLength
    · by_cases hresent : s.resent payload
      -- the stored reply goes out again, whatever the request says
      · rw [processRequest_resent hbuffers hsize hresent]
        simp only [GuardWorks, hbuffers, hsize, hresent, true_and, forall_true_left,
          not_true_eq_false, IsEmpty.forall_iff, and_true]
        constructor
        · rintro ⟨⟨r, hr, hinvalid⟩, -⟩
          rw [List.head_eq_of_cons_eq hr]
          exact hinvalid
        · intro hinvalid
          exact ⟨⟨_, rfl, hinvalid⟩, rfl, rfl⟩
      · rcases dispatch_guarded posix cfg env sys comp hbad with ⟨hcode, hkeep⟩
        -- a guard that turns the request down has made no call, so that `errno` is the old one
        have hsame : ((s.ctx env payload).dispatch posix cfg env sys comp).1 = .invalidSession →
            ((s.ctx env payload).dispatch posix cfg env sys comp).2.world.errno = env.errno := by
          intro h
          rw [hkeep h]
          rfl
        rw [processRequest_new hbuffers hsize hresent, refused_out_iff]
        · simp only [GuardWorks, hbuffers, hsize, hresent, ← hcode]
          grind
        · intro h
          rw [hkeep h]
          exact ⟨rfl, rfl⟩
    · -- the length is checked before the session
      refine iff_of_false ?_ fun hworks => hsize hworks.2.1
      have hcode : ErrorCode.invalidDataSize ≠ .invalidSession := by decide
      rw [processRequest_oversize hbuffers hsize, refused_out_iff fun h => absurd h hcode]
      exact fun h => hcode h.2
  · refine iff_of_false ?_ fun hworks => hbuffers hworks.1
    rw [processRequest_noBuffers hbuffers]
    rintro ⟨⟨r, hr, hinvalid⟩, -⟩
    -- without buffers the answer is `ENOMEM`
    have hr : outReply sys comp (.failErrno, (s.ctx env payload).setErrno enomem) = r :=
      List.head_eq_of_cons_eq hr
    rw [← hr, outReply_invalidSession] at hinvalid
    cases hinvalid.2

end Server

/-! ## Runs -/

/-- In this step, what names no open session meets `P`. -/
def OnNoSession (cfg : Config) (P : Env → Server F → Message → Prop) (s : Server F)
    (e : Env × Input) : Prop :=
  ∀ msg, e.2 = .message msg → msg.Addressed cfg → NamesNoSession s msg.payload → P e.1 s msg

/-- In every run, all requests that name no open session are refused exactly when the guard works
for each of them. -/
theorem sessions_refused_iff (posix : Posix F) (cfg : Config) (fs : F)
    (es : List (Env × Input)) :
    AllSteps (Server.next posix cfg)
      (OnNoSession cfg fun env s msg => Refused s (s.handleMessage posix cfg env msg))
      (Server.init fs) es ↔
    AllSteps (Server.next posix cfg)
      (OnNoSession cfg fun env s msg => GuardWorks env s msg.payload) (Server.init fs) es := by
  apply allSteps_congr
  intro s e
  have hstep : ∀ msg, msg.Addressed cfg → NamesNoSession s msg.payload →
      (Refused s (s.handleMessage posix cfg e.1 msg) ↔ GuardWorks e.1 s msg.payload) := by
    intro msg haddressed hbad
    rw [Server.handleMessage, if_pos haddressed]
    exact Server.refused_iff hbad
  constructor
  · intro h msg he haddressed hbad
    exact (hstep msg haddressed hbad).1 (h msg he haddressed hbad)
  · intro h msg he haddressed hbad
    exact (hstep msg haddressed hbad).2 (h msg he haddressed hbad)

/-- A burst download, requested while no file is open. -/
def burstMessage : Message :=
  ⟨255, 190, 1, 1, { terminateRequest 7 with opcode := kCmdBurstReadFile }⟩

/-- It is accepted: no reply is sent, and the stream starts. -/
theorem burst_without_file :
    (Server.handleMessage noFiles posixConfig quietEnv (Server.init ()) burstMessage).2 = [] ∧
      ¬AllSteps (Server.next noFiles posixConfig)
        (OnNoSession posixConfig fun env s msg =>
          Refused s (s.handleMessage noFiles posixConfig env msg))
        (Server.init ()) [(quietEnv, .message burstMessage)] := by
  have hnone :
      (Server.handleMessage noFiles posixConfig quietEnv (Server.init ()) burstMessage).2 = [] :=
        rfl
  refine ⟨hnone, ?_⟩
  rintro ⟨hfirst, -⟩
  have hbad : NamesNoSession (Server.init ()) burstMessage.payload :=
    ⟨⟨.burstReadFile, rfl, rfl⟩, Or.inr (by decide)⟩
  rcases hfirst burstMessage rfl ⟨Or.inl rfl, Or.inl rfl⟩ hbad with ⟨⟨r, hr, -⟩, -⟩
  rw [hnone] at hr
  cases hr

end Ftp
end DtPhm
