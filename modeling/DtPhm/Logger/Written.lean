import DtPhm.Lib.Run
import DtPhm.Lib.Ring
import DtPhm.Logger.LogWriterFile

/-!
# Written — what reaches a log file

The bytes in the buffer are the accepted ones that are not in the file yet.  This holds through
every interleaving, also while the thread writes with the mutex unlocked: the logger appends behind
the bytes that are being written, and never over them.

A file is closed after a write that took all the bytes the thread had seen.  Bytes that the logger
has appended in the meantime are lost, unless there are none.
-/

namespace DtPhm
namespace Logger

open Lib

/-! ## The ring buffer -/

theorem toInt_eq {x : ℤ} (hlow : -2 ^ 31 ≤ x) (hhigh : x < 2 ^ 31) : toInt x = x := by
  unfold toInt
  apply Int.bmod_eq_of_le
  · simpa using hlow
  · simpa using hhigh

/-- The place of the oldest byte in the buffer. -/
def LogFileBuffer.start (b : LogFileBuffer) : ℕ := (b.head + b.bufferSize - b.count) % b.bufferSize

/-- The bytes in the buffer, the oldest one first. -/
def LogFileBuffer.contents (b : LogFileBuffer) : List UInt8 :=
  window b.buffer b.bufferSize b.start b.count

/-- The counters of a buffer, small enough for an `int`. -/
structure BufferInv (b : LogFileBuffer) : Prop where
  positive : 0 < b.bufferSize
  small : b.bufferSize < 2 ^ 31
  head : b.head < b.bufferSize
  count : b.count ≤ b.bufferSize
  running : b.shouldRun = true → b.isOpen = true
  closed : b.isOpen = false → b.count = 0

variable {b : LogFileBuffer} {bytes : List UInt8}

theorem length_contents : b.contents.length = b.count := length_window

/-- What the thread is going to write: the oldest bytes, all of them or those up to the end of the
buffer. -/
theorem BufferInv.getReadPtr (h : BufferInv b) :
    ∃ available isPart, b.getReadPtr = ((b.start : ℤ), available, isPart) ∧
      available ≤ b.count ∧ b.start + available ≤ b.bufferSize ∧
      (isPart = true → 0 < available) ∧ (isPart = false → available = b.count) := by
  rcases h with ⟨hpos, hsmall, hhead, hcount, _, _⟩
  have hdiff : toInt (b.head - b.count) = (b.head : ℤ) - b.count :=
    toInt_eq (by omega) (by omega)
  unfold LogFileBuffer.getReadPtr
  rw [hdiff]
  by_cases hwrap : (b.head : ℤ) - b.count < 0
  -- the oldest byte is behind the head: the part up to the end of the buffer comes first
  · have hstart : b.start = b.head + b.bufferSize - b.count :=
      Nat.mod_eq_of_lt (by omega)
    have hptr : toInt ((b.head : ℤ) - b.count + b.bufferSize) = (b.start : ℤ) := by
      rw [toInt_eq (by omega) (by omega)]
      omega
    refine ⟨b.count - b.head, true, ?_, by omega, by omega, fun _ => by omega,
      fun hpart => by simp at hpart⟩
    simp only [hwrap, if_true, hptr]
    congr 2
    omega
  -- everything lies before the head
  · have hstart : b.start = b.head - b.count := by
      unfold LogFileBuffer.start
      have hsum : b.head + b.bufferSize - b.count = b.head - b.count + b.bufferSize := by omega
      rw [hsum, Nat.add_mod_right]
      exact Nat.mod_eq_of_lt (by omega)
    refine ⟨b.count, false, ?_, Nat.le_refl _, by omega, fun hpart => by simp at hpart, fun _ =>
      rfl⟩
    simp only [hwrap, if_false]
    congr 1
    omega

/-- The two copies of `write_no_check`, cell by cell. -/
theorem writeNoCheck_cell (h : BufferInv b) (hfits : bytes.length ≤ b.bufferSize) {j : ℕ}
    (hj : j < b.bufferSize) :
    (b.writeNoCheck bytes).buffer ((b.head + j) % b.bufferSize) =
      if j < bytes.length then bytes.getD j 0 else b.buffer ((b.head + j) % b.bufferSize) := by
  have hhead := h.head
  by_cases hend : b.head + j < b.bufferSize
  · -- before the end of the buffer
    rw [Nat.mod_eq_of_lt hend]
    by_cases hover : bytes.length > b.bufferSize - b.head
    · have htake : (bytes.take (b.bufferSize - b.head)).length = b.bufferSize - b.head := by
        rw [List.length_take]
        omega
      simp only [LogFileBuffer.writeNoCheck, hover, if_true]
      rw [store_of_le _ _ (by rw [List.length_drop]; omega), store_add _ _ (by omega),
        if_pos (by omega)]
      simp only [List.getD_eq_getElem?_getD, List.getElem?_take]
      rw [if_pos (by omega)]
    · simp only [LogFileBuffer.writeNoCheck, hover, if_false, List.drop_zero]
      by_cases hin : j < bytes.length
      · rw [store_add _ _ hin, if_pos hin]
      · rw [store_of_le _ _ (by omega), if_neg hin]
  · -- around the end
    have hmod : (b.head + j) % b.bufferSize = b.head + j - b.bufferSize := by
      rw [Nat.mod_eq_sub_mod (by omega)]
      exact Nat.mod_eq_of_lt (by omega)
    rw [hmod]
    by_cases hover : bytes.length > b.bufferSize - b.head
    · simp only [LogFileBuffer.writeNoCheck, hover, if_true]
      by_cases hin : j < bytes.length
      · have hlt : b.head + j - b.bufferSize < (bytes.drop (b.bufferSize - b.head)).length := by
          rw [List.length_drop]
          omega
        have hadd := store_add (store b.buffer b.head (bytes.take (b.bufferSize - b.head))) 0 hlt
        rw [Nat.zero_add] at hadd
        rw [hadd, if_pos hin]
        simp only [List.getD_eq_getElem?_getD, List.getElem?_drop]
        congr 2
        omega
      · rw [store_of_le _ _ (by rw [List.length_drop]; omega), store_of_lt _ _ (by omega),
          if_neg hin]
    · simp only [LogFileBuffer.writeNoCheck, hover, if_false, List.drop_zero]
      rw [store_of_lt _ _ (by omega), if_neg (by omega)]

theorem head_writeNoCheck (h : BufferInv b) :
    (b.writeNoCheck bytes).head = (b.head + bytes.length) % b.bufferSize := by
  have hhead := h.head
  by_cases hover : bytes.length > b.bufferSize - b.head
  · have hsum : b.head + bytes.length = bytes.length - (b.bufferSize - b.head) + b.bufferSize := by
      omega
    simp only [LogFileBuffer.writeNoCheck, hover, if_true, Nat.zero_add]
    rw [hsum, Nat.add_mod_right]
  · simp only [LogFileBuffer.writeNoCheck, hover, if_false, Nat.sub_zero]

@[simp] theorem writeNoCheck_count : (b.writeNoCheck bytes).count = b.count + bytes.length := rfl

@[simp] theorem writeNoCheck_bufferSize : (b.writeNoCheck bytes).bufferSize = b.bufferSize := rfl

@[simp] theorem writeNoCheck_isOpen : (b.writeNoCheck bytes).isOpen = b.isOpen := rfl

@[simp] theorem writeNoCheck_shouldRun : (b.writeNoCheck bytes).shouldRun = b.shouldRun := rfl

theorem start_writeNoCheck (h : BufferInv b) (hfits : b.count + bytes.length ≤ b.bufferSize) :
    (b.writeNoCheck bytes).start = b.start := by
  have hhead := h.head
  unfold LogFileBuffer.start
  rw [head_writeNoCheck h, writeNoCheck_count, writeNoCheck_bufferSize]
  by_cases hend : b.head + bytes.length < b.bufferSize
  · rw [Nat.mod_eq_of_lt hend]
    congr 1
    omega
  · have hmod : (b.head + bytes.length) % b.bufferSize = b.head + bytes.length - b.bufferSize := by
      rw [Nat.mod_eq_sub_mod (by omega)]
      exact Nat.mod_eq_of_lt (by omega)
    have hsum : b.head + b.bufferSize - b.count = b.head - b.count + b.bufferSize := by omega
    rw [hmod, hsum, Nat.add_mod_right]
    congr 1
    omega

theorem contents_writeNoCheck (h : BufferInv b) (hfits : b.count + bytes.length ≤ b.bufferSize) :
    (b.writeNoCheck bytes).contents = b.contents ++ bytes := by
  have hcount := h.count
  -- the cells from the head on hold the new bytes, all the others are as before
  have hnew : window (b.writeNoCheck bytes).buffer b.bufferSize b.head bytes.length = bytes := by
    apply List.ext_getElem
    · simp
    · intro i hi hi'
      have hcell := writeNoCheck_cell h (show bytes.length ≤ b.bufferSize by omega)
        (show i < b.bufferSize by omega)
      rw [if_pos hi'] at hcell
      simp [window, hcell, hi']
  have hold : ∀ j, bytes.length ≤ j → j < b.bufferSize →
      (b.writeNoCheck bytes).buffer ((b.head + j) % b.bufferSize) =
        b.buffer ((b.head + j) % b.bufferSize) := by
    intro j hj hj'
    rw [writeNoCheck_cell h (by omega) hj', if_neg (by omega)]
  unfold LogFileBuffer.contents
  rw [start_writeNoCheck h hfits, writeNoCheck_count, writeNoCheck_bufferSize]
  unfold LogFileBuffer.start
  rw [window_mod, window_mod]
  exact window_extend hfits hnew hold

theorem BufferInv.writeNoCheck (h : BufferInv b) (hopen : b.isOpen = true)
    (hfits : b.count + bytes.length ≤ b.bufferSize) : BufferInv (b.writeNoCheck bytes) := by
  refine ⟨by simpa using h.positive, by simpa using h.small, ?_, by simpa using hfits,
    by simpa using h.running, ?_⟩
  · rw [head_writeNoCheck h, writeNoCheck_bufferSize]
    exact Nat.mod_lt _ h.positive
  · intro hclosed
    simp [hopen] at hclosed

theorem contents_markRead (h : BufferInv b) {n : ℕ} (hn : n ≤ b.count) :
    (b.markRead n).contents = b.contents.drop n := by
  have hcount := h.count
  unfold LogFileBuffer.contents
  rw [drop_window hn]
  unfold LogFileBuffer.start LogFileBuffer.markRead
  dsimp only
  have hsum : b.head + b.bufferSize - (b.count - n) = b.head + b.bufferSize - b.count + n := by
    omega
  calc
    window b.buffer b.bufferSize ((b.head + b.bufferSize - (b.count - n)) % b.bufferSize)
      (b.count - n)
        = window b.buffer b.bufferSize
            ((b.head + b.bufferSize - b.count + n) % b.bufferSize) (b.count - n) := by rw [hsum]
    _ = window b.buffer b.bufferSize
          (((b.head + b.bufferSize - b.count) % b.bufferSize + n) % b.bufferSize)
          (b.count - n) := by
          rw [Nat.mod_add_mod]
    _ = window b.buffer b.bufferSize
          ((b.head + b.bufferSize - b.count) % b.bufferSize + n) (b.count - n) := window_mod ..

theorem load_start {n : ℕ} (hn : n ≤ b.count) (hend : b.start + n ≤ b.bufferSize) :
    load b.buffer b.start n = b.contents.take n := by
  rw [LogFileBuffer.contents, take_window hn, window_of_le hend]
  rfl

/-! ## One log -/

/-- The accepted bytes of a log are those in its file and then those in its buffer, less the
`unmarked` ones that are already in the file. -/
structure LogInv (unmarked : ℕ) (l : Log) : Prop where
  buffer : BufferInv l.buffer
  bound : unmarked ≤ l.buffer.count
  written : l.file <+: l.accepted
  pending : l.buffer.isOpen = true → l.accepted = l.file ++ l.buffer.contents.drop unmarked

/-- What the claim of the file is: a prefix of the accepted bytes, and all of them when it is
closed. -/
def Log.NothingLost (l : Log) : Prop :=
  l.file <+: l.accepted ∧ (l.buffer.isOpen = false → l.file = l.accepted)

variable {l : Log} {k : ℕ}

theorem LogInv.nothingLost (h : LogInv k l) (hopen : l.buffer.isOpen = true) :
    l.NothingLost := by
  refine ⟨h.written, ?_⟩
  intro hclosed
  simp [hopen] at hclosed

theorem LogInv.stop (h : LogInv k l) :
    LogInv k { l with buffer := { l.buffer with shouldRun := false } } := by
  rcases h with ⟨⟨hpos, hsmall, hhead, hcount, _, hclosed⟩, hbound, hwritten, hpending⟩
  exact ⟨⟨hpos, hsmall, hhead, hcount, by simp, hclosed⟩, hbound, hwritten, hpending⟩

theorem LogInv.close (h : LogInv k l) (hstop : l.buffer.shouldRun = false) :
    LogInv 0 { l with buffer := l.buffer.closeFile } := by
  refine ⟨⟨h.buffer.positive, h.buffer.small, h.buffer.positive, Nat.zero_le _, ?_, fun _ => rfl⟩,
    Nat.zero_le _, h.written, ?_⟩
  · intro hrun
    simp [LogFileBuffer.closeFile, hstop] at hrun
  · intro hopen
    simp [LogFileBuffer.closeFile] at hopen

theorem LogInv.file_eq_accepted (h : LogInv k l) (hopen : l.buffer.isOpen = true) :
    l.file = l.accepted ↔ l.buffer.count = k := by
  have hbound := h.bound
  rw [h.pending hopen, List.self_eq_append_right, List.drop_eq_nil_iff, length_contents]
  omega

/-- A write to the file: the bytes are in the file before they are marked as read. -/
theorem LogInv.fileWrite (h : LogInv 0 l) (hopen : l.buffer.isOpen = true) {n : ℕ}
    (hn : n ≤ l.buffer.count) (hend : l.buffer.start + n ≤ l.buffer.bufferSize) :
    LogInv n { l with file := l.file ++ load l.buffer.buffer l.buffer.start n } := by
  have hsplit : l.accepted = l.file ++ l.buffer.contents.take n ++ l.buffer.contents.drop n := by
    rw [List.append_assoc, List.take_append_drop]
    simpa using h.pending hopen
  refine ⟨h.buffer, hn, ?_, ?_⟩
  · dsimp only
    rw [load_start hn hend, hsplit]
    exact List.prefix_append _ _
  · intro _
    dsimp only
    rw [load_start hn hend]
    exact hsplit

theorem LogInv.markRead {n : ℕ} (h : LogInv n l) :
    LogInv 0 { l with buffer := l.buffer.markRead n } := by
  rcases h with ⟨hbuffer, hbound, hwritten, hpending⟩
  rcases hbuffer with ⟨hpos, hsmall, hhead, hcount, hrunning, hclosed⟩
  refine ⟨⟨hpos, hsmall, hhead, ?_, hrunning, ?_⟩, Nat.zero_le _, hwritten, ?_⟩
  · show l.buffer.count - n ≤ l.buffer.bufferSize
    omega
  · intro hopen
    have := hclosed hopen
    show l.buffer.count - n = 0
    omega
  · intro hopen
    -- what was unmarked is no longer in the buffer
    rw [contents_markRead ⟨hpos, hsmall, hhead, hcount, hrunning, hclosed⟩ hbound, List.drop_zero]
    exact hpending hopen

/-- What the thread relies on while the mutex is unlocked: the logger leaves the oldest bytes
alone. -/
structure Grows (b b' : LogFileBuffer) : Prop where
  isOpen : b'.isOpen = b.isOpen
  start : b'.start = b.start
  bufferSize : b'.bufferSize = b.bufferSize
  count : b.count ≤ b'.count

theorem Grows.refl (b : LogFileBuffer) : Grows b b := ⟨rfl, rfl, rfl, Nat.le_refl _⟩

theorem Grows.trans {b b' b'' : LogFileBuffer} (h : Grows b b') (h' : Grows b' b'') : Grows b b'' :=
  ⟨h'.isOpen.trans h.isOpen, h'.start.trans h.start, h'.bufferSize.trans h.bufferSize,
    h.count.trans h'.count⟩

/-- The log with more bytes in its buffer. -/
def Log.append (l : Log) (bytes : List UInt8) : Log :=
  { l with buffer := l.buffer.writeNoCheck bytes, accepted := l.accepted ++ bytes }

theorem LogInv.append (h : LogInv k l) (hopen : l.buffer.isOpen = true)
    (hfits : l.buffer.count + bytes.length ≤ l.buffer.bufferSize) :
    LogInv k (l.append bytes) ∧ Grows l.buffer (l.append bytes).buffer := by
  refine ⟨⟨h.buffer.writeNoCheck hopen hfits, ?_, ?_, ?_⟩,
    ⟨rfl, start_writeNoCheck h.buffer hfits, rfl, Nat.le_add_right _ _⟩⟩
  · exact h.bound.trans (Nat.le_add_right _ _)
  · exact h.written.trans (List.prefix_append _ _)
  · intro _
    have hlen : k ≤ l.buffer.contents.length := by
      rw [length_contents]
      exact h.bound
    calc
      l.accepted ++ bytes = l.file ++ l.buffer.contents.drop k ++ bytes := by
            rw [h.pending hopen]
      _ = l.file ++ (l.buffer.contents ++ bytes).drop k := by
            rw [List.drop_append_of_le_length hlen, List.append_assoc]
      _ = l.file ++ (l.buffer.writeNoCheck bytes).contents.drop k := by
            rw [contents_writeNoCheck h.buffer hfits]

/-- A call of `write` accepts all of its bytes or none. -/
theorem LogInv.write (h : LogInv k l) (message : List UInt8) (dropout : Option UInt16) :
    LogInv k (l.write message dropout).2 ∧
      Grows l.buffer (l.write message dropout).2.buffer ∧
      (l.buffer.isOpen = false → (l.write message dropout).2 = l) := by
  unfold Log.write
  split
  · exact ⟨h, Grows.refl _, fun _ => rfl⟩
  · rename_i hrun
    have hopen : l.buffer.isOpen = true := h.buffer.running (by simpa using hrun)
    -- the last part asks only about closed files, and this one is open
    have hnever : ∀ l' : Log, l.buffer.isOpen = false → l' = l := by
      intro l' hclosed
      simp [hopen] at hclosed
    dsimp only
    split
    · exact ⟨h, Grows.refl _, fun _ => rfl⟩
    · rename_i hroom
      have hcount := h.buffer.count
      unfold LogFileBuffer.available at hroom
      cases dropout with
      | none =>
          simp only [Option.map_none, Option.getD_none, List.length_nil] at hroom
          rcases h.append hopen (show l.buffer.count + message.length ≤
            l.buffer.bufferSize by omega) with ⟨hinv, hgrows⟩
          exact ⟨by simpa [Log.append] using hinv, hgrows, hnever _⟩
      | some duration =>
          -- first the note about the dropped messages, then the message
          simp only [Option.map_some, Option.getD_some] at hroom
          have hfits : l.buffer.count + (dropoutMsg duration).length ≤ l.buffer.bufferSize := by
            omega
          rcases h.append hopen hfits with ⟨hnote, hgrows⟩
          have hfits' : (l.append (dropoutMsg duration)).buffer.count + message.length ≤
              (l.append (dropoutMsg duration)).buffer.bufferSize := by
            simp only [Log.append, writeNoCheck_count, writeNoCheck_bufferSize]
            omega
          rcases hnote.append hopen hfits' with ⟨hinv, hgrows'⟩
          exact ⟨by simpa [Log.append] using hinv, hgrows.trans hgrows', hnever _⟩

/-! ## Both logs and the thread -/

/-- The bytes of log `i` that are in the file but not yet marked as read. -/
def Pc.unmarked (pc : Pc) (i : LogType) : ℕ :=
  match pc with
  | .wrote j _ _ _ written => if j = i then written.toNat else 0
  | _ => 0

/-- What the thread has seen under the mutex still holds when it locks the mutex again. -/
def PcInv (logs : LogType → Log) : Pc → Prop
  | .writeToFile i readPtr available _ _ =>
      (logs i).buffer.isOpen = true ∧ readPtr = (logs i).buffer.start ∧ 0 < available ∧
        available ≤ (logs i).buffer.count ∧
        (logs i).buffer.start + available ≤ (logs i).buffer.bufferSize
  | .wrote i available _ _ written =>
      (logs i).buffer.isOpen = true ∧ 0 < available ∧ available ≤ (logs i).buffer.count ∧
        written ≤ available
  | _ => True

structure WriterInv (w : LogWriterFile) : Prop where
  logs : ∀ i, LogInv (w.pc.unmarked i) (w.logs i)
  pc : PcInv w.logs w.pc

def LogWriterFile.NothingLost (w : LogWriterFile) : Prop := ∀ i, (w.logs i).NothingLost

/-- The thread is neither in a write nor right after one. -/
def Pc.Quiet (pc : Pc) : Prop := (∀ i, pc.unmarked i = 0) ∧ ∀ logs, PcInv logs pc

theorem quiet_nextVisit (i : LogType) (isPart callFsync : Bool) :
    (LogWriterFile.nextVisit i isPart callFsync).Quiet := by
  unfold LogWriterFile.nextVisit
  split
  · exact ⟨fun _ => rfl, fun _ => trivial⟩
  · cases i <;> exact ⟨fun _ => rfl, fun _ => trivial⟩

variable {w : LogWriterFile} {i : LogType} {pc : Pc}

theorem WriterInv.setLog_setPc (h : WriterInv w) (hl : LogInv (pc.unmarked i) l)
    (hother : ∀ j ≠ i, pc.unmarked j = w.pc.unmarked j)
    (hpc : PcInv (Function.update w.logs i l) pc) : WriterInv ((w.setLog i l).setPc pc) := by
  refine ⟨?_, hpc⟩
  intro j
  show LogInv (pc.unmarked j) (Function.update w.logs i l j)
  by_cases hj : j = i
  · rw [hj, Function.update_self]
    exact hl
  · rw [Function.update_of_ne hj, hother j hj]
    exact h.logs j

theorem WriterInv.setPc (h : WriterInv w) (hquiet : ∀ i, pc.unmarked i = w.pc.unmarked i)
    (hpc : PcInv w.logs pc) : WriterInv (w.setPc pc) := by
  refine ⟨?_, hpc⟩
  intro j
  show LogInv (pc.unmarked j) (w.logs j)
  rw [hquiet j]
  exact h.logs j

/-- Only one log changes in a step, so that it alone decides whether something is lost. -/
theorem nothingLost_setLog (h : w.NothingLost) :
    (w.setLog i l).NothingLost ↔ l.NothingLost := by
  constructor
  · intro hall
    have hi := hall i
    simpa [LogWriterFile.setLog] using hi
  · intro hl j
    show (Function.update w.logs i l j).NothingLost
    by_cases hj : j = i
    · rw [hj, Function.update_self]
      exact hl
    · rw [Function.update_of_ne hj]
      exact h j

theorem PcInv.of_grows {logs : LogType → Log} (h : PcInv logs pc)
    (hgrows : (logs i).buffer.isOpen = true → Grows (logs i).buffer l.buffer) :
    PcInv (Function.update logs i l) pc := by
  cases pc with
  | writeToFile j readPtr available isPart callFsync =>
      rcases h with ⟨hopen, hptr, hpos, hle, hend⟩
      by_cases hj : j = i
      · subst hj
        have hg := hgrows hopen
        simp only [PcInv, Function.update_self, hg.isOpen, hg.start, hg.bufferSize]
        exact ⟨hopen, hptr, hpos, hle.trans hg.count, hend⟩
      · simp only [PcInv, Function.update_of_ne hj]
        exact ⟨hopen, hptr, hpos, hle, hend⟩
  | wrote j available isPart callFsync written =>
      rcases h with ⟨hopen, hpos, hle, hwritten⟩
      by_cases hj : j = i
      · subst hj
        have hg := hgrows hopen
        simp only [PcInv, Function.update_self, hg.isOpen]
        exact ⟨hopen, hpos, hle.trans hg.count, hwritten⟩
      · simp only [PcInv, Function.update_of_ne hj]
        exact ⟨hopen, hpos, hle, hwritten⟩
  -- at these points the thread remembers nothing about a buffer
  | idle | entering | visit | fsync | visited | waiting =>
      trivial

/-! ## The steps of the logger -/

theorem WriterInv.setLog (h : WriterInv w) (hl : LogInv (w.pc.unmarked i) l)
    (hgrows : (w.logs i).buffer.isOpen = true → Grows (w.logs i).buffer l.buffer) :
    WriterInv (w.setLog i l) :=
  h.setLog_setPc hl (fun _ _ => rfl) (h.pc.of_grows hgrows)

theorem WriterInv.stopLog (h : WriterInv w) (hlost : w.NothingLost) :
    WriterInv (w.stopLog i) ∧ (w.stopLog i).NothingLost := by
  refine ⟨h.setLog (h.logs i).stop fun _ => ⟨rfl, rfl, rfl, Nat.le_refl _⟩, ?_⟩
  exact (nothingLost_setLog hlost).2 (hlost i)

theorem WriterInv.writeMessage (h : WriterInv w) (hlost : w.NothingLost) (message : List UInt8)
    (dropout : Option UInt16) :
    WriterInv (w.writeMessage i message dropout) ∧
      (w.writeMessage i message dropout).NothingLost := by
  unfold LogWriterFile.writeMessage
  split
  · exact ⟨h, hlost⟩
  · rcases (h.logs i).write message dropout with ⟨hinv, hgrows, hsame⟩
    refine ⟨h.setLog hinv fun _ => hgrows, (nothingLost_setLog hlost).2 ?_⟩
    cases hopen : (w.logs i).buffer.isOpen with
    | true =>
        -- an open file is a prefix, and more is not asked of it
        exact hinv.nothingLost (hgrows.isOpen.trans hopen)
    | false =>
        rw [hsame hopen]
        exact hlost i

theorem WriterInv.startLog (h : WriterInv w) (hlost : w.NothingLost) (opened : Bool) :
    WriterInv (w.startLog i opened) ∧ (w.startLog i opened).NothingLost := by
  unfold LogWriterFile.startLog
  dsimp only
  split
  · exact ⟨h, hlost⟩
  · rename_i hstart
    push Not at hstart
    have hclosed : (w.logs i).buffer.isOpen = false := by simpa using hstart.2.1
    have hinv := h.logs i
    -- a log whose file is closed is not being written
    have hunmarked : w.pc.unmarked i = 0 := by
      have := hinv.bound
      have := hinv.buffer.closed hclosed
      omega
    refine ⟨h.setLog ?_ ?_, (nothingLost_setLog hlost).2 ⟨List.prefix_rfl, fun _ => rfl⟩⟩
    · rw [hunmarked]
      refine ⟨⟨hinv.buffer.positive, hinv.buffer.small, hinv.buffer.positive, Nat.zero_le _,
        fun _ => rfl, fun _ => rfl⟩, Nat.zero_le _, List.prefix_rfl, fun _ => rfl⟩
    · intro hopen
      simp [hclosed] at hopen

/-! ## The steps of the thread -/

theorem WriterInv.quiet (h : WriterInv w) (hw : ∀ j, w.pc.unmarked j = 0) (hquiet : pc.Quiet) :
    WriterInv (w.setPc pc) :=
  h.setPc (fun j => (hquiet.1 j).trans (hw j).symm) (hquiet.2 w.logs)

theorem LogInv.nothingLost_close (h : LogInv k l) (hlost : l.NothingLost)
    (hcount : l.buffer.count = k) :
    ({ l with buffer := l.buffer.closeFile } : Log).NothingLost := by
  refine ⟨h.written, ?_⟩
  intro _
  cases hopen : l.buffer.isOpen with
  | true =>
      exact (h.file_eq_accepted hopen).2 hcount
  | false =>
      exact hlost.2 hopen

theorem WriterInv.visitStep (h : WriterInv w) (hlost : w.NothingLost)
    (hw : ∀ j, w.pc.unmarked j = 0) (i : LogType) (callFsync : Bool) :
    WriterInv (w.visitStep i callFsync) ∧ (w.visitStep i callFsync).NothingLost := by
  have hlog : LogInv 0 (w.logs i) := hw i ▸ h.logs i
  rcases hlog.buffer.getReadPtr with ⟨available, isPart, hptr, hle, hend, hpart, hwhole⟩
  simp only [LogWriterFile.visitStep, hptr]
  split
  · -- there is something to write, so that the file is open
    rename_i hwrite
    have hpos : 0 < available := by
      rcases hwrite with hmin | hpart' | hstopped
      · cases i <;> simp only [minAvailable, minWriteChunk] at hmin <;> omega
      · exact hpart hpart'
      · exact hstopped.2
    have hopen : (w.logs i).buffer.isOpen = true := by
      by_contra hclosed
      have := hlog.buffer.closed (by simpa using hclosed)
      omega
    exact ⟨h.setPc (fun j => (hw j).symm) ⟨hopen, rfl, hpos, hle, hend⟩, hlost⟩
  · split
    · exact ⟨h.setPc (fun j => (hw j).symm) trivial, hlost⟩
    · split
      -- the file is closed with nothing in the buffer: the oldest part was not cut at its end,
      -- so that `available` counts everything
      · rename_i hnothing _ hclose
        have hnpart : isPart = false := by
          cases isPart with
          | true => exact absurd (.inr (.inl rfl)) hnothing
          | false => rfl
        have hcount : (w.logs i).buffer.count = 0 := by
          have := hwhole hnpart
          omega
        have hstop : (w.logs i).buffer.shouldRun = false := by simpa using hclose.2
        have hquiet := quiet_nextVisit i isPart callFsync
        refine ⟨h.setLog_setPc ?_ (fun j _ => (hquiet.1 j).trans (hw j).symm) (hquiet.2 _), ?_⟩
        · rw [hquiet.1 i]
          exact hlog.close hstop
        · exact (nothingLost_setLog hlost).2 (hlog.nothingLost_close (hlost i) hcount)
      · exact ⟨h.quiet hw (quiet_nextVisit i isPart callFsync), hlost⟩

theorem WriterInv.writeStep {readPtr : ℤ} {available : ℕ} {isPart callFsync : Bool}
    (h : WriterInv w)
    (hlost : w.NothingLost) (hw : w.pc = .writeToFile i readPtr available isPart callFsync)
    (result : ℤ) :
    WriterInv (w.writeStep i readPtr available isPart callFsync result) ∧
      (w.writeStep i readPtr available isPart callFsync result).NothingLost := by
  have hunmarked : ∀ j, w.pc.unmarked j = 0 := by
    intro j
    rw [hw]
    rfl
  have hpc := h.pc
  rw [hw] at hpc
  rcases hpc with ⟨hopen, rfl, hpos, hle, hend⟩
  have hlog : LogInv 0 (w.logs i) := hunmarked i ▸ h.logs i
  unfold LogWriterFile.writeStep
  dsimp only
  split
  -- the write failed: the file is as it was
  · refine ⟨h.setPc ?_ ⟨hopen, hpos, hle, by omega⟩, hlost⟩
    intro j
    rw [hunmarked j]
    simp [Pc.unmarked]
  · have hn : min result.toNat available ≤ (w.logs i).buffer.count :=
      (Nat.min_le_right _ _).trans hle
    have hsmall := hlog.buffer.small
    have hcount := hlog.buffer.count
    -- the count is kept in an `int`, which has room for it as the buffer is small
    have hint : toInt (min result.toNat available : ℕ) = (min result.toNat available : ℕ) :=
      toInt_eq (by omega) (by omega)
    have hwritten := hlog.fileWrite hopen hn (by omega)
    rw [hint, Int.toNat_natCast]
    refine ⟨h.setLog_setPc ?_ ?_ ?_, (nothingLost_setLog hlost).2 (hwritten.nothingLost hopen)⟩
    · simp only [Pc.unmarked, if_true, Int.toNat_natCast]
      exact hwritten
    · intro j hj
      rw [hunmarked j]
      simp [Pc.unmarked, Ne.symm hj]
    · simp only [PcInv, Function.update_self]
      exact ⟨hopen, hpos, hle, by omega⟩

/-- After a write, the thread closes the file if the log was stopped and all the bytes that it had
seen are written. -/
def ClosesAfterWrite (l : Log) (available : ℕ) (isPart : Bool) (written : ℤ) : Prop :=
  l.buffer.shouldRun = false ∧ written = available ∧ isPart = false

theorem WriterInv.wroteStep {available : ℕ} {isPart callFsync : Bool} {written : ℤ}
    (h : WriterInv w) (hlost : w.NothingLost)
    (hw : w.pc = .wrote i available isPart callFsync written) :
    WriterInv (w.wroteStep i available isPart callFsync written) ∧
      ((w.wroteStep i available isPart callFsync written).NothingLost ↔
        0 ≤ written ∧ (ClosesAfterWrite (w.logs i) available isPart written →
          (w.logs i).buffer.count = available)) := by
  have hpc := h.pc
  rw [hw] at hpc
  rcases hpc with ⟨hopen, hpos, hle, hwritten⟩
  have hlog : LogInv written.toNat (w.logs i) := by
    have := h.logs i
    rw [hw] at this
    simpa [Pc.unmarked] using this
  have hother : ∀ j ≠ i, 0 = w.pc.unmarked j := by
    intro j hj
    rw [hw]
    simp [Pc.unmarked, Ne.symm hj]
  have hquiet := quiet_nextVisit i isPart callFsync
  -- whichever way the buffer changes, the thread goes on to the other log
  have hset : ∀ {b : LogFileBuffer}, LogInv 0 { w.logs i with buffer := b } →
      WriterInv ((w.setLog i { w.logs i with buffer := b }).setPc
        (LogWriterFile.nextVisit i isPart callFsync)) := by
    intro b hb
    refine h.setLog_setPc ?_ (fun j hj => (hquiet.1 j).trans (hother j hj)) (hquiet.2 _)
    rw [hquiet.1 i]
    exact hb
  have hint : toInt available = available := by
    have := hlog.buffer.small
    have := hlog.buffer.count
    exact toInt_eq (by omega) (by omega)
  unfold LogWriterFile.wroteStep
  dsimp only
  split
  · rename_i hnonneg
    have hmark := hlog.markRead
    split
    · -- the file is closed with what has been appended since the bytes were counted
      rename_i hclose
      have hstop : (w.logs i).buffer.shouldRun = false := by
        simpa [LogFileBuffer.markRead] using hclose.1
      have hall : written = available := hint ▸ hclose.2.1
      have hnpart : isPart = false := by simpa using hclose.2.2
      refine ⟨hset (hmark.close hstop), (nothingLost_setLog hlost).trans ?_⟩
      have hfile := hlog.file_eq_accepted hopen
      constructor
      · intro hnone
        refine ⟨hnonneg, fun _ => ?_⟩
        have := hfile.1 (hnone.2 rfl)
        omega
      · intro hcond
        have hcount := hcond.2 ⟨hstop, hall, hnpart⟩
        exact ⟨hlog.written, fun _ => hfile.2 (by omega)⟩
    · rename_i hkeep
      refine ⟨hset hmark, iff_of_true ((nothingLost_setLog hlost).2 (hmark.nothingLost hopen)) ?_⟩
      refine ⟨hnonneg, ?_⟩
      intro hclose
      -- the condition speaks of the counts before they are cut to an `int`
      refine absurd ?_ hkeep
      rw [hint]
      simpa [LogFileBuffer.markRead, ClosesAfterWrite] using hclose
  · -- the write failed, and nothing of what it was given is in the file
    rename_i hneg
    refine ⟨hset (hlog.stop.close rfl), iff_of_false ?_ (fun hcond => hneg hcond.1)⟩
    intro hnone
    have heq := ((nothingLost_setLog hlost).1 hnone).2 rfl
    have := (hlog.file_eq_accepted hopen).1 heq
    omega

/-! ## Every interleaving -/

/-- No write to the file fails, and when the thread closes a file after a write, the logger has not
appended anything since the thread counted the bytes to write. -/
def NothingAppended (w : LogWriterFile) : Event → Prop
  | .run _ _ =>
      match w.pc with
      | .wrote i available isPart _ written =>
          0 ≤ written ∧ (ClosesAfterWrite (w.logs i) available isPart written →
            (w.logs i).buffer.count = available)
      | _ => True
  | _ => True

theorem WriterInv.runStep (h : WriterInv w) (hlost : w.NothingLost) (callFsync : Bool)
    (result : ℤ) :
    WriterInv (w.runStep callFsync result) ∧
      ((w.runStep callFsync result).NothingLost ↔ NothingAppended w (.run callFsync result)) := by
  have hquiet : ∀ {pc : Pc}, pc.Quiet → (∀ j, w.pc.unmarked j = 0) →
      WriterInv (w.setPc pc) ∧ ((w.setPc pc).NothingLost ↔ True) :=
    fun hpc hw => ⟨h.quiet hw hpc, iff_of_true hlost trivial⟩
  have hvisit : ∀ f, (Pc.visit .mission f).Quiet := fun _ => ⟨fun _ => rfl, fun _ => trivial⟩
  unfold LogWriterFile.runStep NothingAppended
  cases hpc : w.pc with
  | idle =>
      have hw : ∀ j, w.pc.unmarked j = 0 := by
        rw [hpc]
        exact fun _ => rfl
      dsimp only
      split
      · exact hquiet ⟨fun _ => rfl, fun _ => trivial⟩ hw
      · exact ⟨h, iff_of_true hlost trivial⟩
  | entering =>
      exact hquiet (hvisit callFsync) (by rw [hpc]; exact fun _ => rfl)
  | visit i callFsync =>
      rcases h.visitStep hlost (by rw [hpc]; exact fun _ => rfl) i callFsync with ⟨hinv, hnone⟩
      exact ⟨hinv, iff_of_true hnone trivial⟩
  | writeToFile i readPtr available isPart callFsync =>
      rcases h.writeStep hlost hpc result with ⟨hinv, hnone⟩
      exact ⟨hinv, iff_of_true hnone trivial⟩
  | wrote i available isPart callFsync written =>
      exact h.wroteStep hlost hpc
  | fsync i isPart callFsync =>
      exact hquiet (quiet_nextVisit i isPart callFsync) (by rw [hpc]; exact fun _ => rfl)
  | visited =>
      have hw : ∀ j, w.pc.unmarked j = 0 := by
        rw [hpc]
        exact fun _ => rfl
      dsimp only
      split
      · exact hquiet ⟨fun _ => rfl, fun _ => trivial⟩ hw
      · split
        · exact hquiet ⟨fun _ => rfl, fun _ => trivial⟩ hw
        · exact hquiet (hvisit callFsync) hw
  | waiting =>
      exact hquiet (hvisit callFsync) (by rw [hpc]; exact fun _ => rfl)

theorem WriterInv.step (h : WriterInv w) (hlost : w.NothingLost) (e : Event) :
    WriterInv (w.step e) ∧ ((w.step e).NothingLost ↔ NothingAppended w e) := by
  cases e with
  | startLog i opened =>
      rcases h.startLog hlost opened with ⟨hinv, hnone⟩
      exact ⟨hinv, iff_of_true hnone trivial⟩
  | stopLog i =>
      rcases h.stopLog hlost with ⟨hinv, hnone⟩
      exact ⟨hinv, iff_of_true hnone trivial⟩
  | writeMessage i message dropout =>
      rcases h.writeMessage hlost message dropout with ⟨hinv, hnone⟩
      exact ⟨hinv, iff_of_true hnone trivial⟩
  | run callFsync result =>
      exact h.runStep hlost callFsync result

theorem logInv_create (memory : Mem) {bufferSize : ℕ} (hpos : 0 < bufferSize)
    (hsmall : bufferSize < 2 ^ 31) : LogInv 0 (Log.create memory bufferSize) := by
  refine ⟨⟨hpos, hsmall, hpos, Nat.zero_le _, ?_, fun _ => rfl⟩, Nat.zero_le _, List.prefix_rfl, ?_⟩
  · intro hrun
    simp [Log.create] at hrun
  · intro hopen
    simp [Log.create] at hopen

theorem writerInv_create (memory : LogType → Mem) {bufferSize : ℕ} (hsmall : bufferSize < 2 ^ 31) :
    WriterInv (LogWriterFile.create memory bufferSize) := by
  refine ⟨?_, trivial⟩
  intro i
  cases i with
  | full =>
      refine logInv_create _ ?_ ?_ <;> simp only [minWriteChunk] <;> omega
  | mission =>
      exact logInv_create _ (by decide) (by decide)

/-- In every interleaving, a log file is a prefix of the accepted bytes, and all of them once it is
closed, exactly when no write fails and no file is closed over bytes that came in during a write. -/
theorem nothing_lost_iff (memory : LogType → Mem) (bufferSize : ℕ) (hsmall : bufferSize < 2 ^ 31)
    (es : List Event) :
    (∀ w ∈ Lib.visited LogWriterFile.step (LogWriterFile.create memory bufferSize) es,
        w.NothingLost) ↔
      AllSteps LogWriterFile.step NothingAppended (LogWriterFile.create memory bufferSize) es := by
  refine forall_visited_iff_allSteps_of_invariant (J := WriterInv)
    (fun w e hinv hlost => (hinv.step hlost e).2) (fun w e hinv hlost _ => (hinv.step hlost e).1)
    (writerInv_create memory hsmall) ?_
  intro i
  cases i <;> exact ⟨List.prefix_rfl, fun _ => rfl⟩

/-- The log is stopped before the thread counts the bytes: the file is closed with all of them. -/
theorem nothing_lost_short_run :
    let es := [.startLog .mission true, .writeMessage .mission [1, 2] none, .stopLog .mission,
      .startLog .full true, .run false 0, .run false 0, .run false 0, .run false 2, .run false 0]
    let w := LogWriterFile.create (fun _ _ => 0) 12288
    (((exec LogWriterFile.step w es).logs .mission).buffer.isOpen = false ∧
      ((exec LogWriterFile.step w es).logs .mission).file = [1, 2]) ∧
      ∀ w' ∈ Lib.visited LogWriterFile.step w es, w'.NothingLost :=
  ⟨by decide, (nothing_lost_iff _ 12288 (by decide) _).2
    ⟨trivial, trivial, trivial, trivial, trivial, trivial, trivial, trivial,
      ⟨by decide, fun _ => by decide⟩, trivial⟩⟩

/-- A message accepted while the thread writes, and a stop right after it: the message is lost. -/
theorem message_lost_at_stop :
    ∃ w ∈ Lib.visited LogWriterFile.step (LogWriterFile.create (fun _ _ => 0) 12288)
      [.startLog .mission true, .writeMessage .mission [1] none, .run false 0, .run false 0,
        .run false 0, .writeMessage .mission [2] none, .stopLog .mission, .run false 1,
        .run false 0],
      ¬w.NothingLost := by
  refine ⟨_, exec_mem_visited _ _ _, ?_⟩
  intro hnone
  -- the file is closed with `[1]`, and `[1, 2]` was accepted
  have hwhole := (hnone .mission).2 (by decide)
  revert hwhole
  decide

end Logger
end DtPhm
