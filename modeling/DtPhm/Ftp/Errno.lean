import DtPhm.Ftp.Session

/-!
# Errno — what a NAK says about an error

The work functions return an error code, and `_process_request` looks at `errno` before it sends it.
`errno` is not cleared between requests: where no call of a request sets it, it is what other calls
have left.

* `Leftover`, `Oblivious` — calls to the operating system set `errno` or keep it, and do not look at
  it;
* `Uniform` — a request takes the same course whatever is left in `errno`; one lemma for each work
  function;
* `ownErrno` — what the calls of a request set `errno` to, if they do;
* `nak_determined_iff` — when the code of a NAK is that of the request's own failure.
-/

namespace DtPhm
namespace Ftp

open Lib

variable {F : Type}

/-! ## Calls -/

/-- What becomes of the `errno` that was there before: it is kept, or another one is set. -/
inductive Leftover : (ℕ → ℕ) → Prop
  | kept : Leftover fun errno => errno
  | set (n : ℕ) : Leftover fun _ => n

theorem Leftover.comp {r r' : ℕ → ℕ} (h' : Leftover r') (h : Leftover r) :
    Leftover fun errno => r' (r errno) := by
  cases h' with
  | kept => exact h
  | set n => exact Leftover.set n

/-- A call that does not look at `errno`. -/
def Oblivious {α : Type} (f : World F → α × World F) : Prop :=
  ∀ fs, ∃ a fs' r, Leftover r ∧ ∀ errno, f ⟨fs, errno⟩ = (a, ⟨fs', r errno⟩)

/-- A call without a result. -/
def ObliviousTo (f : World F → World F) : Prop := Oblivious fun w => ((), f w)

/-- The operating system does not look at `errno`. -/
structure Posix.Oblivious (posix : Posix F) : Prop where
  stat : ∀ path, Ftp.Oblivious (posix.stat path)
  openFile : ∀ path flags, Ftp.Oblivious (posix.openFile path flags)
  close : ∀ fd, ObliviousTo (posix.close fd)
  lseek : ∀ fd n, Ftp.Oblivious (posix.lseek fd n)
  read : ∀ fd n, Ftp.Oblivious (posix.read fd n)
  write : ∀ fd bs, Ftp.Oblivious (posix.write fd bs)
  unlink : ∀ path, Ftp.Oblivious (posix.unlink path)
  rename : ∀ path path', Ftp.Oblivious (posix.rename path path')
  truncate : ∀ path n, Ftp.Oblivious (posix.truncate path n)
  mkdir : ∀ path, Ftp.Oblivious (posix.mkdir path)
  rmdir : ∀ path, Ftp.Oblivious (posix.rmdir path)
  opendir : ∀ path, Ftp.Oblivious (posix.opendir path)
  readdir : ∀ dp, Ftp.Oblivious (posix.readdir dp)
  closedir : ∀ dp, ObliviousTo (posix.closedir dp)

namespace Ctx

variable {c : Ctx F} {r : ℕ → ℕ}

@[simp] theorem setErrno_session (c : Ctx F) (errno : ℕ) : (c.setErrno errno).session = c.session :=
  rfl

@[simp] theorem setErrno_payload (c : Ctx F) (errno : ℕ) : (c.setErrno errno).payload = c.payload :=
  rfl

@[simp] theorem setErrno_errno (c : Ctx F) (errno : ℕ) : (c.setErrno errno).world.errno = errno :=
  rfl

@[simp] theorem terminated_setErrno (c : Ctx F) (errno : ℕ) :
    (c.setErrno errno).terminated = c.terminated.setErrno errno := rfl

@[simp] theorem setSize_setErrno (c : Ctx F) (errno size : ℕ) :
    (c.setErrno errno).setSize size = (c.setSize size).setErrno errno := rfl

@[simp] theorem dataString_setErrno (c : Ctx F) (errno : ℕ) :
    (c.setErrno errno).dataString = c.dataString := rfl

@[simp] theorem dataPath_setErrno (cfg : Config) (c : Ctx F) (errno : ℕ) :
    (c.setErrno errno).dataPath cfg = c.dataPath cfg := rfl

@[simp] theorem openPath_setErrno (cfg : Config) (env : Env) (c : Ctx F) (errno : ℕ) :
    (c.setErrno errno).openPath cfg env = c.openPath cfg env := rfl

/-- A call gives one result, whatever is left in `errno`. -/
theorem call_oblivious {α : Type} {f : World F → α × World F} (hf : Oblivious f) (hr : Leftover r)
    (c : Ctx F) :
    ∃ (a : α) (c' : Ctx F) (r' : ℕ → ℕ), Leftover r' ∧ c'.session = c.session ∧
      c'.payload = c.payload ∧
      ∀ errno, (c.setErrno (r errno)).call f = (a, c'.setErrno (r' errno)) := by
  obtain ⟨a, fs', r', hr', heq⟩ := hf c.world.fs
  refine ⟨a, { c with world := ⟨fs', 0⟩ }, _, hr'.comp hr, rfl, rfl, fun errno => ?_⟩
  simp only [call, setErrno, heq]

theorem perform_oblivious {f : World F → World F} (hf : ObliviousTo f) (hr : Leftover r)
    (c : Ctx F) :
    ∃ (c' : Ctx F) (r' : ℕ → ℕ), Leftover r' ∧ c'.session = c.session ∧ c'.payload = c.payload ∧
      ∀ errno, (c.setErrno (r errno)).perform f = c'.setErrno (r' errno) := by
  obtain ⟨a, c', r', hr', hs, hp, heq⟩ := call_oblivious hf hr c
  exact ⟨c', r', hr', hs, hp, fun errno => congrArg Prod.snd (heq errno)⟩

end Ctx

/-! ## Work functions -/

/-- The code does not depend on what is left in `errno`, and is none that only `errno` can tell;
`errno` is left or set. -/
def Uniform (g : ℕ → ErrorCode × Ctx F) : Prop :=
  ∃ code r, code ≠ .failFileExists ∧ Leftover r ∧
    ∀ errno, (g errno).1 = code ∧ (g errno).2.world.errno = r errno

namespace Uniform

variable {g g' : ℕ → ErrorCode × Ctx F} {r : ℕ → ℕ}

theorem done {code : ErrorCode} (hcode : code ≠ .failFileExists) (hr : Leftover r)
    {c : ℕ → Ctx F} (hc : ∀ errno, (c errno).world.errno = r errno) :
    Uniform fun errno => (code, c errno) :=
  ⟨code, r, hcode, hr, fun errno => ⟨rfl, hc errno⟩⟩

theorem branch {P : Prop} {hdec : ℕ → Decidable P} (h : Uniform g) (h' : Uniform g') :
    Uniform fun errno => @ite (ErrorCode × Ctx F) P (hdec errno) (g errno) (g' errno) := by
  by_cases hP : P
  · simpa only [if_pos hP] using h
  · simpa only [if_neg hP] using h'

end Uniform

namespace Ctx

variable {posix : Posix F} (hposix : posix.Oblivious) (cfg : Config) (env : Env) {r : ℕ → ℕ}
  (hr : Leftover r) (c : Ctx F)

include hposix hr

theorem workRead_uniform : Uniform fun errno => (c.setErrno (r errno)).workRead posix := by
  simp only [workRead, setErrno_payload, setErrno_session]
  apply Uniform.branch
  · exact Uniform.done (by decide) hr fun _ => rfl
  apply Uniform.branch
  · exact Uniform.done (by decide) hr fun _ => rfl
  obtain ⟨ok, c₁, r₁, hr₁, -, -, h₁⟩ :=
    call_oblivious (hposix.lseek c.session.fd c.payload.offset.toNat) hr c
  simp only [h₁]
  cases ok with
  | false => exact Uniform.done (by decide) hr₁ fun _ => rfl
  | true =>
      obtain ⟨bs, c₂, r₂, hr₂, -, -, h₂⟩ :=
        call_oblivious (hposix.read c₁.session.fd kMaxDataLength) hr₁ c₁
      simp only [setErrno_session, h₂]
      cases bs with
      | none => exact Uniform.done (by decide) hr₂ fun _ => rfl
      | some bs => exact Uniform.done (by decide) hr₂ fun _ => rfl

theorem workWrite_uniform : Uniform fun errno => (c.setErrno (r errno)).workWrite posix := by
  simp only [workWrite, setErrno_payload, setErrno_session]
  apply Uniform.branch
  · exact Uniform.done (by decide) hr fun _ => rfl
  · obtain ⟨ok, c₁, r₁, hr₁, hs₁, hp₁, h₁⟩ :=
      call_oblivious (hposix.lseek c.session.fd c.payload.offset.toNat) hr c
    simp only [h₁]
    cases ok with
    | false => exact Uniform.done (by decide) hr₁ fun _ => rfl
    | true =>
        obtain ⟨written, c₂, r₂, hr₂, -, -, h₂⟩ := call_oblivious
          (hposix.write c₁.session.fd (load c₁.payload.data 0 c₁.payload.size.toNat)) hr₁ c₁
        simp only [setErrno_session, setErrno_payload, h₂]
        apply Uniform.branch
        · exact Uniform.done (by decide) hr₂ fun _ => rfl
        · exact Uniform.done (by decide) hr₂ fun _ => rfl

omit hposix in
theorem workBurst_uniform (sys comp : UInt8) :
    Uniform fun errno => (c.setErrno (r errno)).workBurst sys comp := by
  simp only [workBurst, setErrno_payload, setErrno_session]
  apply Uniform.branch
  · exact Uniform.done (by decide) hr fun _ => rfl
  · exact Uniform.done (by decide) hr fun _ => rfl

theorem workTerminate_uniform :
    Uniform fun errno => (c.setErrno (r errno)).workTerminate posix := by
  obtain ⟨c₁, r₁, hr₁, -, -, h₁⟩ := perform_oblivious (hposix.close c.session.fd) hr c
  simp only [workTerminate, setErrno_payload, setErrno_session, h₁]
  apply Uniform.branch
  · exact Uniform.done (by decide) hr fun _ => rfl
  · exact Uniform.done (by decide) hr₁ fun _ => rfl

theorem workReset_uniform : Uniform fun errno => (c.setErrno (r errno)).workReset posix := by
  obtain ⟨c₁, r₁, hr₁, -, -, h₁⟩ := perform_oblivious (hposix.close c.session.fd) hr c
  simp only [workReset, setErrno_session, h₁]
  apply Uniform.branch
  · exact Uniform.done (by decide) hr₁ fun _ => rfl
  · exact Uniform.done (by decide) hr fun _ => rfl

omit hposix in
theorem workOnPath_uniform {f : List UInt8 → World F → Bool × World F}
    (hf : ∀ path, Oblivious (f path)) :
    Uniform fun errno => (c.setErrno (r errno)).workOnPath cfg f := by
  obtain ⟨ok, c₁, r₁, hr₁, -, -, h₁⟩ :=
    call_oblivious (hf (c.terminated.dataPath cfg)) hr c.terminated
  simp only [workOnPath, terminated_setErrno, dataPath_setErrno, h₁]
  cases ok with
  | false => exact Uniform.done (by decide) hr₁ fun _ => rfl
  | true => exact Uniform.done (by decide) hr₁ fun _ => rfl

theorem workOpen_uniform (oflag : OFlags) :
    Uniform fun errno => (c.setErrno (r errno)).workOpen posix cfg env oflag := by
  obtain ⟨st, c₁, r₁, hr₁, -, -, h₁⟩ :=
    call_oblivious (hposix.stat (c.terminated.openPath cfg env)) hr c.terminated
  obtain ⟨fd, c₂, r₂, hr₂, -, -, h₂⟩ :=
    call_oblivious (hposix.openFile (c.terminated.openPath cfg env) oflag) hr₁ c₁
  simp only [workOpen, setErrno_session, terminated_setErrno, openPath_setErrno, h₁, h₂]
  apply Uniform.branch
  · exact Uniform.done (by decide) hr fun _ => rfl
  apply Uniform.branch
  · exact Uniform.done (by decide) hr₁ fun _ => rfl
  apply Uniform.branch
  · exact Uniform.done (by decide) hr₂ fun _ => rfl
  · exact Uniform.done (by decide) hr₂ fun _ => rfl

theorem workRename_uniform : Uniform fun errno => (c.setErrno (r errno)).workRename posix cfg := by
  obtain ⟨ok, c₁, r₁, hr₁, -, -, h₁⟩ := call_oblivious (hposix.rename
    (workPath cfg workBuffer1Len c.terminated.dataString)
    (workPath cfg workBuffer2Len
      (cstring c.terminated.payload.data (c.terminated.dataString.length + 1) workBuffer2Len)))
    hr c.terminated
  simp only [workRename, terminated_setErrno, dataString_setErrno, setErrno_payload, h₁]
  apply Uniform.branch
  · exact Uniform.done (by decide) (Leftover.set einval) fun _ => rfl
  · cases ok with
    | false => exact Uniform.done (by decide) hr₁ fun _ => rfl
    | true => exact Uniform.done (by decide) hr₁ fun _ => rfl

/-! ### Directories -/

omit hposix hr in
/-- `errno` is cleared before each entry. -/
theorem listLoop_setErrno (dir : List UInt8) (dp offset errno : ℕ) :
    listLoop posix dir dp offset (c.setErrno errno) =
      listLoop posix dir dp offset (c.setErrno 0) := by
  rw [listLoop, listLoop.eq_1 posix dir dp offset (c.setErrno 0)]
  rfl

omit hposix hr in
theorem listLoop_code (dir : List UInt8) (dp offset : ℕ) :
    (listLoop posix dir dp offset c).1 = .none ∨ (listLoop posix dir dp offset c).1 = .eof := by
  fun_induction listLoop posix dir dp offset c with
  | case1 offset c c₁ hread herrno => exact Or.inl rfl
  | case2 offset c c₁ hread herrno =>
      by_cases hend : c₁.payload.offset ≠ 0 ∧ offset = 0
      · exact Or.inr (dif_pos hend)
      · exact Or.inl (dif_neg hend)
  | case3 => exact Or.inl rfl
  | case4 offset c entry c₁ hread type text c₂ hitem hfits payload ih => exact ih

theorem skipEntries_oblivious (dp n : ℕ) :
    ∃ (c' : Ctx F) (r' : ℕ → ℕ), Leftover r' ∧
      ∀ errno, skipEntries posix dp n (c.setErrno (r errno)) = c'.setErrno (r' errno) := by
  induction n generalizing c r with
  | zero => exact ⟨c, r, hr, fun _ => rfl⟩
  | succ n ih =>
      obtain ⟨entry, c₁, r₁, hr₁, -, -, h₁⟩ := call_oblivious (hposix.readdir dp) hr c
      cases entry with
      | none => exact ⟨c₁, r₁, hr₁, fun errno => by rw [skipEntries, h₁]⟩
      | some entry =>
          obtain ⟨c₂, r₂, hr₂, h₂⟩ := ih hr₁ c₁
          exact ⟨c₂, r₂, hr₂, fun errno => by rw [skipEntries, h₁, ← h₂]⟩

theorem workList_uniform : Uniform fun errno => (c.setErrno (r errno)).workList posix cfg := by
  obtain ⟨dp, c₁, r₁, hr₁, -, -, h₁⟩ :=
    call_oblivious (hposix.opendir (c.terminated.dataPath cfg)) hr c.terminated
  simp only [workList, terminated_setErrno, dataPath_setErrno, h₁]
  cases dp with
  | none => exact Uniform.done (by decide) hr₁ fun _ => rfl
  | some dp =>
      set n := if c₁.payload.offset.toNat < 2 ^ 31 then c₁.payload.offset.toNat else 0 with hn
      obtain ⟨c₂, r₂, hr₂, h₂⟩ := skipEntries_oblivious hposix hr₁ c₁ dp n
      have hskip : ∀ errno, skipEntries posix dp (if (c₁.setErrno (r₁ errno)).payload.offset.toNat <
          2 ^ 31 then (c₁.setErrno (r₁ errno)).payload.offset.toNat else 0)
          (c₁.setErrno (r₁ errno)) = c₂.setErrno (r₂ errno) := h₂
      simp only [hskip, listLoop_setErrno c₂]
      refine ⟨_, _, ?_, Leftover.set _, fun errno => ⟨rfl, rfl⟩⟩
      have hcode : (listLoop posix (c.terminated.dataPath cfg) dp 0 (c₂.setErrno 0)).1 = .none ∨
          _ :=
        listLoop_code _ _ _ _
      rcases hcode with h | h
      · rw [h]
        decide
      · rw [h]
        decide

/-! ### Files -/

omit hposix hr in
theorem crcLoop_of_read {fd : ℤ} {checksum : UInt32} {w w' : World F} {bs : Option (List UInt8)}
    (h : posix.read fd workBuffer2Len w = (bs, w')) :
    crcLoop posix fd checksum w =
      match bs with
      | none => (none, w')
      | some bs =>
          if bs.length = workBuffer2Len then crcLoop posix fd (posix.crc32part bs checksum) w'
          else (some (posix.crc32part bs checksum), w') := by
  rw [crcLoop]
  split
  · rename_i hread
    rw [h] at hread
    cases hread
    rfl
  · rename_i hread
    rw [h] at hread
    cases hread
    rfl

omit hr in
theorem crcLoop_oblivious (fd : ℤ) (checksum : UInt32) : Oblivious (crcLoop posix fd checksum) := by
  have h : ∀ w : World F, ∃ a fs' r, Leftover r ∧
      ∀ errno, crcLoop posix fd checksum ⟨w.fs, errno⟩ = (a, ⟨fs', r errno⟩) := by
    intro w
    fun_induction crcLoop posix fd checksum w with
    | case1 checksum w w' hread =>
        obtain ⟨bs, fs', r, hr, heq⟩ := hposix.read fd workBuffer2Len w.fs
        obtain rfl : bs = none := congrArg Prod.fst ((heq w.errno).symm.trans hread)
        exact ⟨none, fs', r, hr, fun errno => crcLoop_of_read (heq errno)⟩
    | case2 checksum w bs w' hread hfull hlt ih =>
        obtain ⟨bs', fs', r, hr, heq⟩ := hposix.read fd workBuffer2Len w.fs
        obtain ⟨rfl, rfl⟩ : bs' = some bs ∧ fs' = w'.fs :=
          ⟨congrArg Prod.fst ((heq w.errno).symm.trans hread),
            congrArg (fun p => p.2.fs) ((heq w.errno).symm.trans hread)⟩
        obtain ⟨a, fs'', r', hr', hrest⟩ := ih
        refine ⟨a, fs'', _, hr'.comp hr, fun errno => ?_⟩
        rw [crcLoop_of_read (heq errno)]
        exact (if_pos hfull).trans (hrest (r errno))
    | case3 checksum w bs w' hread hfull =>
        obtain ⟨bs', fs', r, hr, heq⟩ := hposix.read fd workBuffer2Len w.fs
        obtain rfl : bs' = some bs := congrArg Prod.fst ((heq w.errno).symm.trans hread)
        refine ⟨some (posix.crc32part bs checksum), fs', r, hr, fun errno => ?_⟩
        rw [crcLoop_of_read (heq errno)]
        exact if_neg hfull
  exact fun fs => h ⟨fs, 0⟩

theorem workCalcFileCRC32_uniform :
    Uniform fun errno => (c.setErrno (r errno)).workCalcFileCRC32 posix cfg := by
  obtain ⟨fd, c₁, r₁, hr₁, -, -, h₁⟩ := call_oblivious
    (hposix.openFile (workPath cfg workBuffer2Len c.terminated.dataString) {}) hr c.terminated
  simp only [workCalcFileCRC32, terminated_setErrno, dataString_setErrno, h₁]
  apply Uniform.branch
  · exact Uniform.done (by decide) hr₁ fun _ => rfl
  obtain ⟨sum, c₂, r₂, hr₂, -, -, h₂⟩ := call_oblivious (crcLoop_oblivious hposix fd 0) hr₁ c₁
  obtain ⟨c₃, r₃, hr₃, -, -, h₃⟩ := perform_oblivious (hposix.close fd) hr₂ c₂
  simp only [h₂]
  cases sum with
  | none => exact Uniform.done (by decide) hr₂ fun _ => rfl
  | some sum =>
      simp only [h₃]
      exact Uniform.done (by decide) hr₃ fun _ => rfl

/-- The calls of a copy; `op_errno` is 0, or what `errno` was after the last of them. -/
theorem copyLoop_oblivious (src dst : ℤ) (length : ℕ) (fs : F) {op : ℕ → ℕ} (hop : Leftover op) :
    ∃ left fs' r' op', Leftover r' ∧ Leftover op' ∧ ∀ errno,
      copyLoop posix src dst length (op errno) ⟨fs, r errno⟩ =
        (left, op' errno, ⟨fs', r' errno⟩) := by
  induction length using Nat.strong_induction_on generalizing fs r with
  | _ length ih =>
      by_cases h0 : length = 0
      · exact ⟨0, fs, r, op, hr, hop, fun errno => by rw [copyLoop, if_pos h0]⟩
      obtain ⟨bs, fs₁, r₁, hr₁, h₁⟩ := hposix.read src (min length workBuffer2Len) fs
      have hread := fun errno => h₁ (r errno)
      have hr₁' := hr₁.comp hr
      rcases bs with _ | ⟨_ | ⟨b, bs⟩⟩
      · exact ⟨length, fs₁, _, _, hr₁', hr₁', fun errno => by rw [copyLoop, if_neg h0, hread]⟩
      · exact ⟨length, fs₁, _, op, hr₁', hop, fun errno => by rw [copyLoop, if_neg h0, hread]⟩
      · obtain ⟨written, fs₂, r₂, hr₂, h₂⟩ := hposix.write dst (b :: bs) fs₁
        have hwrite := fun errno => h₂ (r₁ (r errno))
        have hr₂' := hr₂.comp hr₁'
        by_cases hshort : written ≠ (b :: bs).length
        · exact ⟨length, fs₂, _, _, hr₂', hr₂', fun errno => by
            rw [copyLoop, if_neg h0, hread]
            simp only [hwrite, if_pos hshort]⟩
        · have hlt : length - (b :: bs).length < length := by
            rw [List.length_cons]
            omega
          obtain ⟨left, fs', r', op', hr', hop', hrest⟩ := ih _ hlt hr₂' fs₂
          exact ⟨left, fs', r', op', hr', hop', fun errno => by
            rw [copyLoop, if_neg h0, hread]
            simp only [hwrite, if_neg hshort]
            exact hrest errno⟩

omit hr in
theorem close_oblivious (fd : ℤ) (fs : F) :
    ∃ fs' r', Leftover r' ∧ ∀ errno, posix.close fd ⟨fs, errno⟩ = ⟨fs', r' errno⟩ := by
  obtain ⟨_, fs', r', hr', h⟩ := hposix.close fd fs
  exact ⟨fs', r', hr', fun errno => congrArg Prod.snd (h errno)⟩

omit hr in
theorem copyFile_oblivious (srcPath dstPath : List UInt8) (length : ℕ) :
    Oblivious (copyFile posix srcPath dstPath length) := by
  intro fs
  obtain ⟨src, fs₁, r₁, hr₁, h₁⟩ := hposix.openFile srcPath {} fs
  by_cases hsrc : src < 0
  · exact ⟨false, fs₁, r₁, hr₁, fun errno => by simp only [copyFile, h₁, if_pos hsrc]⟩
  obtain ⟨dst, fs₂, r₂, hr₂, h₂⟩ :=
    hposix.openFile dstPath { wronly := true, creat := true, trunc := true } fs₁
  by_cases hdst : dst < 0
  · obtain ⟨fs₃, r₃, -, h₃⟩ := close_oblivious hposix src fs₂
    refine ⟨false, fs₃, _, hr₂.comp hr₁, fun errno => ?_⟩
    simp only [copyFile, h₁, h₂, if_neg hsrc, if_pos hdst, h₃]
  · obtain ⟨left, fs₃, r₃, op, hr₃, hop, h₃⟩ :=
      copyLoop_oblivious hposix (hr₂.comp hr₁) src dst length fs₂ (Leftover.set 0)
    obtain ⟨fs₄, r₄, -, h₄⟩ := close_oblivious hposix src fs₃
    obtain ⟨fs₅, r₅, -, h₅⟩ := close_oblivious hposix dst fs₄
    refine ⟨decide (left = 0), fs₅, op, hop, fun errno => ?_⟩
    simp only [copyFile, h₁, h₂, if_neg hsrc, if_neg hdst, h₃, h₄, h₅]

theorem truncateNuttx_uniform (path : List UInt8) :
    Uniform fun errno => (c.setErrno (r errno)).truncateNuttx posix cfg path := by
  obtain ⟨st, c₁, r₁, hr₁, -, -, h₁⟩ := call_oblivious (hposix.stat path) hr c
  simp only [truncateNuttx, h₁]
  cases st with
  | none => exact Uniform.done (by decide) hr₁ fun _ => rfl
  | some st =>
      simp only [setErrno_payload]
      apply Uniform.branch
      · exact Uniform.done (by decide) (Leftover.set eisdir) fun _ => rfl
      apply Uniform.branch
      · exact Uniform.done (by decide) (Leftover.set erofs) fun _ => rfl
      apply Uniform.branch
      · exact Uniform.done (by decide) hr₁ fun _ => rfl
      apply Uniform.branch
      · -- truncate all data
        obtain ⟨fd, c₂, r₂, hr₂, -, -, h₂⟩ :=
          call_oblivious (hposix.openFile path { wronly := true, trunc := true }) hr₁ c₁
        obtain ⟨c₃, r₃, hr₃, -, -, h₃⟩ := perform_oblivious (hposix.close fd) hr₂ c₂
        simp only [h₂, h₃]
        apply Uniform.branch
        · exact Uniform.done (by decide) hr₂ fun _ => rfl
        · exact Uniform.done (by decide) hr₃ fun _ => rfl
      apply Uniform.branch
      · -- extend the file
        obtain ⟨fd, c₂, r₂, hr₂, -, -, h₂⟩ :=
          call_oblivious (hposix.openFile path { wronly := true }) hr₁ c₁
        simp only [h₂]
        apply Uniform.branch
        · exact Uniform.done (by decide) hr₂ fun _ => rfl
        obtain ⟨ok, c₃, r₃, hr₃, -, -, h₃⟩ :=
          call_oblivious (hposix.lseek fd (c₁.payload.offset.toNat - 1)) hr₂ c₂
        obtain ⟨c₄, r₄, hr₄, -, -, h₄⟩ := perform_oblivious (hposix.close fd) hr₃ c₃
        obtain ⟨written, c₅, r₅, hr₅, -, -, h₅⟩ := call_oblivious (hposix.write fd [0]) hr₃ c₃
        obtain ⟨c₆, r₆, hr₆, -, -, h₆⟩ := perform_oblivious (hposix.close fd) hr₅ c₅
        simp only [h₃]
        cases ok with
        | false =>
            simp only [h₄]
            exact Uniform.done (by decide) hr₄ fun _ => rfl
        | true =>
            simp only [h₅, h₆]
            exact Uniform.done (by split <;> decide) hr₆ fun _ => rfl
      · -- truncate through a copy
        obtain ⟨ok, c₂, r₂, hr₂, -, -, h₂⟩ := call_oblivious
          (copyFile_oblivious hposix path cfg.tempFile c₁.payload.offset.toNat) hr₁ c₁
        simp only [h₂]
        cases ok with
        | false => exact Uniform.done (by decide) hr₂ fun _ => rfl
        | true =>
            obtain ⟨ok, c₃, r₃, hr₃, -, -, h₃⟩ := call_oblivious
              (copyFile_oblivious hposix cfg.tempFile path c₁.payload.offset.toNat) hr₂ c₂
            simp only [h₃]
            cases ok with
            | false => exact Uniform.done (by decide) hr₃ fun _ => rfl
            | true =>
                obtain ⟨ok, c₄, r₄, hr₄, -, -, h₄⟩ :=
                  call_oblivious (hposix.unlink cfg.tempFile) hr₃ c₃
                simp only [h₄]
                exact Uniform.done (by split <;> decide) hr₄ fun _ => rfl

theorem workTruncateFile_uniform :
    Uniform fun errno => (c.setErrno (r errno)).workTruncateFile posix cfg := by
  simp only [workTruncateFile, terminated_setErrno, dataPath_setErrno, setSize_setErrno]
  apply Uniform.branch
  · exact truncateNuttx_uniform hposix cfg hr _ _
  obtain ⟨ok, c₁, r₁, hr₁, -, -, h₁⟩ := call_oblivious
    (hposix.truncate (c.terminated.dataPath cfg) (c.terminated.setSize 0).payload.offset.toNat) hr
    (c.terminated.setSize 0)
  simp only [setErrno_payload, h₁]
  exact Uniform.done (by split <;> decide) hr₁ fun _ => rfl

/-! ### All requests -/

theorem dispatch_uniform (sys comp : UInt8) :
    Uniform fun errno => (c.setErrno (r errno)).dispatch posix cfg env sys comp := by
  simp only [dispatch, setErrno_payload]
  rcases Command.ofCode? c.payload.opcode with _ | cmd
  · exact Uniform.done (by decide) hr fun _ => rfl
  · cases cmd with
    | none => exact Uniform.done (by decide) hr fun _ => rfl
    | terminateSession => exact workTerminate_uniform hposix hr c
    | resetSessions => exact workReset_uniform hposix hr c
    | listDirectory => exact workList_uniform hposix cfg hr c
    | openFileRO => exact workOpen_uniform hposix cfg env hr c _
    | readFile => exact workRead_uniform hposix hr c
    | createFile => exact workOpen_uniform hposix cfg env hr c _
    | writeFile => exact workWrite_uniform hposix hr c
    | removeFile => exact workOnPath_uniform cfg hr c hposix.unlink
    | createDirectory => exact workOnPath_uniform cfg hr c hposix.mkdir
    | removeDirectory => exact workOnPath_uniform cfg hr c hposix.rmdir
    | openFileWO => exact workOpen_uniform hposix cfg env hr c _
    | truncateFile => exact workTruncateFile_uniform hposix cfg hr c
    | rename => exact workRename_uniform hposix cfg hr c
    | calcFileCRC32 => exact workCalcFileCRC32_uniform hposix cfg hr c
    | burstReadFile => exact workBurst_uniform hr c sys comp

end Ctx

/-! ## The code of a NAK -/

/-- The error code and the rest of what `_process_request` has at its label `out`, if `errno` was
`errno` when it began; for a request that is not a resent one. -/
def Server.work (posix : Posix F) (cfg : Config) (env : Env) (s : Server F) (payload : Payload)
    (sys comp : UInt8) (errno : ℕ) : ErrorCode × Ctx F :=
  let s := s.ensureBuffersExist env
  let c := (s.ctx env payload).setErrno errno
  if ¬s.buffersExist then (.failErrno, c.setErrno enomem)
  else if kMaxDataLength < payload.size.toNat then (.invalidDataSize, c)
  else c.dispatch posix cfg env sys comp

/-- What the calls of a request set `errno` to, if they set it: two runs of it tell. -/
def ownErrno (g : ℕ → ErrorCode × Ctx F) : Option ℕ :=
  if (g 0).2.world.errno = (g 1).2.world.errno then some (g 0).2.world.errno else none

/-- `out` is the code that was returned; or that was `kErrFailErrno`, and `out` says what the
failing call set `errno` to. -/
def Refines (code : ErrorCode) (errno : Option ℕ) (out : ErrorCode) : Prop :=
  out = code ∨ code = .failErrno ∧
    (errno = some eexist ∧ out = .failFileExists ∨ errno = some enoent ∧ out = .fileNotFound)

/-- What is left in `errno` does no harm: the calls of the request set it, and not to `EEXIST`
unless `kErrFailErrno` is returned; or they do not, and what was there is not `EEXIST`, nor `ENOENT`
if `kErrFailErrno` is returned. -/
def ErrnoHarmless (g : ℕ → ErrorCode × Ctx F) (errno : ℕ) : Prop :=
  match ownErrno g with
  | some own => own = eexist → (g errno).1 = .failErrno
  | none => errno ≠ eexist ∧ (errno = enoent → (g errno).1 ≠ .failErrno)

theorem Uniform.ownErrno_eq {g : ℕ → ErrorCode × Ctx F} (h : Uniform g) :
    (∀ errno, ownErrno g = none ∧ (g errno).2.world.errno = errno) ∨
      ∃ n, ∀ errno, ownErrno g = some n ∧ (g errno).2.world.errno = n := by
  obtain ⟨code, r, -, hr, hg⟩ := h
  cases hr with
  | kept =>
      left
      intro errno
      refine ⟨?_, (hg errno).2⟩
      rw [ownErrno, (hg 0).2, (hg 1).2]
      rfl
  | set n =>
      right
      refine ⟨n, fun errno => ⟨?_, (hg errno).2⟩⟩
      rw [ownErrno, (hg 0).2, (hg 1).2, if_pos rfl]

section Refines

variable {code : ErrorCode} (hcode : code ≠ .failFileExists) (c : Ctx F)

include hcode

theorem refines_none_iff :
    Refines code none (c.finalCode code) ↔
      c.world.errno ≠ eexist ∧ (c.world.errno = enoent → code ≠ .failErrno) := by
  have hne : enoent ≠ eexist := by decide
  unfold Refines Ctx.finalCode
  by_cases hexist : c.world.errno = eexist
  · simp [hexist, hcode.symm]
  · by_cases hent : c.world.errno = enoent ∧ code = .failErrno
    · simp [hent.1, hent.2, hne]
    · rw [if_neg hexist, if_neg hent]
      exact iff_of_true (Or.inl rfl) ⟨hexist, fun h h' => hent ⟨h, h'⟩⟩

theorem refines_some_iff :
    Refines code (some c.world.errno) (c.finalCode code) ↔
      (c.world.errno = eexist → code = .failErrno) := by
  have hne : enoent ≠ eexist := by decide
  unfold Refines Ctx.finalCode
  by_cases hexist : c.world.errno = eexist
  · simp [hexist, hcode.symm]
  · by_cases hent : c.world.errno = enoent ∧ code = .failErrno
    · simp [hent.1, hent.2, hne]
    · rw [if_neg hexist, if_neg hent]
      exact iff_of_true (Or.inl rfl) fun h => absurd h hexist

end Refines

/-- The code that is sent is one that the work function and its calls determine, exactly when what
was left in `errno` does no harm. -/
theorem refines_finalCode_iff {g : ℕ → ErrorCode × Ctx F} (h : Uniform g) (errno : ℕ) :
    Refines (g errno).1 (ownErrno g) ((g errno).2.finalCode (g errno).1) ↔
      ErrnoHarmless g errno := by
  have hcode : (g errno).1 ≠ .failFileExists := by
    obtain ⟨code, r, hcode, -, hg⟩ := h
    rw [(hg errno).1]
    exact hcode
  rcases h.ownErrno_eq with hkept | ⟨n, hset⟩
  · obtain ⟨hown, herrno⟩ := hkept errno
    have hiff := refines_none_iff hcode (g errno).2
    rw [herrno] at hiff
    simpa only [hown, ErrnoHarmless] using hiff
  · obtain ⟨hown, herrno⟩ := hset errno
    have hiff := refines_some_iff hcode (g errno).2
    rw [herrno] at hiff
    simpa only [hown, ErrnoHarmless] using hiff

namespace Server

variable {posix : Posix F} {cfg : Config} {env : Env} {s : Server F} {payload : Payload}
variable {sys comp : UInt8}

theorem work_uniform (hposix : posix.Oblivious) :
    Uniform (s.work posix cfg env payload sys comp) := by
  unfold Server.work
  apply Uniform.branch
  · exact Uniform.done (by decide) (Leftover.set enomem) fun _ => rfl
  apply Uniform.branch
  · exact Uniform.done (by decide) Leftover.kept fun _ => rfl
  · exact Ctx.dispatch_uniform hposix cfg env Leftover.kept _ sys comp

/-- The request is answered with the reply that was sent last. -/
def Repeats (env : Env) (s : Server F) (payload : Payload) : Prop :=
  (s.ensureBuffersExist env).buffersExist ∧ payload.size.toNat ≤ kMaxDataLength ∧ s.resent payload

/-- The code of a NAK is determined by the failure of its own request; or the NAK is one that has
been sent before. -/
def NakDetermined (posix : Posix F) (cfg : Config) (env : Env) (s : Server F) (payload : Payload)
    (sys comp : UInt8) : Prop :=
  s.Repeats env payload ∨ ∀ r ∈ (s.processRequest posix cfg env payload sys comp).2,
    r.opcode = kRspNak → ∃ out, r.data.head? = some out.code ∧
      Refines (s.work posix cfg env payload sys comp env.errno).1
        (ownErrno (s.work posix cfg env payload sys comp)) out

theorem out_ack_opcode {stream : Bool} {done : ErrorCode × Ctx F} (h : done.1 = .none) {r : Reply}
    (hr : r ∈ (s.out stream sys comp done).2) : r.opcode ≠ kRspNak := by
  by_cases hsend : stream = true ∧ done.1 = .none
  · simp [out, hsend] at hr
  · have hreplies : (s.out stream sys comp done).2 = [outReply sys comp done] :=
      (out_replies hsend).1
    rw [hreplies] at hr
    obtain rfl := List.mem_singleton.1 hr
    simp [outReply, Ctx.answer, h, Payload.toReply, kRspAck, kRspNak]

/-- A request that is not answered with the last reply comes to `out` with what `work` says. -/
theorem processRequest_work (hnew : ¬s.Repeats env payload) :
    ∃ stream, s.processRequest posix cfg env payload sys comp =
      (s.ensureBuffersExist env).out stream sys comp
        (s.work posix cfg env payload sys comp env.errno) := by
  by_cases hbuffers : (s.ensureBuffersExist env).buffersExist
  · by_cases hsize : payload.size.toNat ≤ kMaxDataLength
    · have hresent : ¬s.resent payload := fun h => hnew ⟨hbuffers, hsize, h⟩
      refine ⟨decide (Command.ofCode? payload.opcode = some .burstReadFile), ?_⟩
      rw [processRequest_new hbuffers hsize hresent]
      simp only [work, hbuffers, Nat.not_lt_of_le hsize]
      rfl
    · refine ⟨false, ?_⟩
      rw [processRequest_oversize hbuffers hsize]
      simp only [work, hbuffers, Nat.lt_of_not_le hsize]
      rfl
  · refine ⟨false, ?_⟩
    have hwork : s.work posix cfg env payload sys comp env.errno =
        (.failErrno, (s.ctx env payload).setErrno enomem) := by
      simp only [work, hbuffers]
      rfl
    rw [processRequest_noBuffers hbuffers, hwork, out_nak (by simp)]
    rfl

/-- The code of a NAK is determined by its own request exactly when `errno` was left harmless. -/
theorem nak_determined_iff (hposix : posix.Oblivious) :
    NakDetermined posix cfg env s payload sys comp ↔
      s.Repeats env payload ∨ ((s.work posix cfg env payload sys comp env.errno).1 ≠ .none →
        ErrnoHarmless (s.work posix cfg env payload sys comp) env.errno) := by
  refine or_congr_right' fun hnew => ?_
  have huniform : Uniform (s.work posix cfg env payload sys comp) := work_uniform hposix
  have hiff := refines_finalCode_iff huniform env.errno
  have hout : ∃ stream, s.processRequest posix cfg env payload sys comp = _ :=
    processRequest_work hnew
  obtain ⟨stream, heq⟩ := hout
  rw [heq]
  set done := s.work posix cfg env payload sys comp env.errno with hdone
  constructor
  · intro h hcode
    have hmem : outReply sys comp done ∈
        ((s.ensureBuffersExist env).out stream sys comp done).2 := by
      rw [out_nak hcode]
      exact List.mem_singleton.2 rfl
    obtain ⟨code, hhead, href⟩ := h _ hmem (outReply_nak hcode)
    rw [outReply_data hcode, head_nakData] at hhead
    have hsame := ErrorCode.code_inj (Option.some.inj hhead)
    exact hiff.1 (hsame ▸ href)
  · intro h r hr hnak
    by_cases hcode : done.1 = .none
    · exact absurd hnak (out_ack_opcode hcode hr)
    · rw [out_nak hcode] at hr
      obtain rfl := List.mem_singleton.1 hr
      exact ⟨done.2.finalCode done.1, by rw [outReply_data hcode, head_nakData],
        hiff.2 (h hcode)⟩

end Server

theorem noFiles_oblivious : noFiles.Oblivious where
  stat := fun _ fs => ⟨none, fs, _, Leftover.set enoent, fun _ => rfl⟩
  openFile := fun _ _ fs => ⟨-1, fs, _, Leftover.set enoent, fun _ => rfl⟩
  close := fun _ fs => ⟨(), fs, _, Leftover.kept, fun _ => rfl⟩
  lseek := fun _ _ fs => ⟨false, fs, _, Leftover.kept, fun _ => rfl⟩
  read := fun _ _ fs => ⟨none, fs, _, Leftover.kept, fun _ => rfl⟩
  write := fun _ _ fs => ⟨-1, fs, _, Leftover.kept, fun _ => rfl⟩
  unlink := fun _ fs => ⟨false, fs, _, Leftover.set enoent, fun _ => rfl⟩
  rename := fun _ _ fs => ⟨false, fs, _, Leftover.set enoent, fun _ => rfl⟩
  truncate := fun _ _ fs => ⟨false, fs, _, Leftover.set enoent, fun _ => rfl⟩
  mkdir := fun _ fs => ⟨false, fs, _, Leftover.set erofs, fun _ => rfl⟩
  rmdir := fun _ fs => ⟨false, fs, _, Leftover.set enoent, fun _ => rfl⟩
  opendir := fun _ fs => ⟨none, fs, _, Leftover.set enoent, fun _ => rfl⟩
  readdir := fun _ fs => ⟨none, fs, _, Leftover.kept, fun _ => rfl⟩
  closedir := fun _ fs => ⟨(), fs, _, Leftover.kept, fun _ => rfl⟩

/-- A request to read, while no file is open. -/
def readRequest : Payload := { terminateRequest 7 with opcode := 5 }

theorem nak_determined_no_leftover :
    noFiles.Oblivious ∧
      (Server.NakDetermined noFiles posixConfig quietEnv (Server.init ()) readRequest 255 190 ↔
        (Server.init ()).Repeats quietEnv readRequest ∨
          (((Server.init ()).work noFiles posixConfig quietEnv readRequest 255 190
              quietEnv.errno).1 ≠ .none →
            ErrnoHarmless ((Server.init ()).work noFiles posixConfig quietEnv readRequest 255 190)
              quietEnv.errno)) :=
  ⟨noFiles_oblivious, Server.nak_determined_iff noFiles_oblivious⟩

/-- An earlier request has left `EEXIST`: the read is said to fail since the file exists. -/
theorem read_without_session_exists :
    (∃ r, ((Server.init ()).processRequest noFiles posixConfig { quietEnv with errno := eexist }
        readRequest 255 190).2 = [r] ∧ r.opcode = kRspNak ∧
          r.data = [ErrorCode.failFileExists.code]) ∧
      ¬Server.NakDetermined noFiles posixConfig { quietEnv with errno := eexist } (Server.init ())
        readRequest 255 190 := by
  have hreply : ∃ r, ((Server.init ()).processRequest noFiles posixConfig
      { quietEnv with errno := eexist } readRequest 255 190).2 = [r] ∧ r.opcode = kRspNak ∧
        r.data = [ErrorCode.failFileExists.code] := ⟨_, rfl, rfl, rfl⟩
  refine ⟨hreply, ?_⟩
  obtain ⟨r, hr, hnak, hdata⟩ := hreply
  rintro (hrepeats | hall)
  · exact absurd hrepeats.2.2 (by decide)
  · obtain ⟨out, hhead, href⟩ := hall r (hr ▸ List.mem_singleton.2 rfl) hnak
    rw [hdata] at hhead
    have hout : out = .failFileExists := (ErrorCode.code_inj (Option.some.inj hhead)).symm
    -- the work function has returned `kErrInvalidSession`
    rcases href with hsame | ⟨hfail, -⟩
    · rw [hout] at hsame
      cases hsame
    · cases hfail

end Ftp
end DtPhm
