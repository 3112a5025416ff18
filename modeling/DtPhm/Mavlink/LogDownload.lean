import DtPhm.Mavlink.LogHandler
import Mathlib.Tactic.Linarith

/-!
# LogDownload — what a download of a log sends

Between requests a handler keeps the index, the size, the name and the open file of one log, and
where it is in it.  `Valid` says what holds of these while there is a list.

* `getEntry_listFile` — the lines of the list are read back as they were written;
* `Inv`, `inv_step` — the invariant of a handler in every run;
* `Opened`, `Careful` — what may go wrong: the file of the log may not be open;
* `log_download` — every message carries the bytes it names, and in careful runs a request is served
  to its end;
* `download_after_failed_seek` — a run that is not careful.
-/

namespace DtPhm
namespace Mavlink
namespace LogHandler

open Lib

variable {long : Long} {S : Storage}

/-! ## The list -/

theorem mem_logList {e : Entry} (he : e ∈ logList S) :
    ∃ f, S.files e.path = some f ∧ e.size = UInt32.ofNat f.bytes.length ∧ e.path ≠ [] ∧
      e.path.length < 128 := by
  obtain ⟨⟨name, kind⟩, _, hdir⟩ := List.mem_flatMap.1 he
  dsimp only at hdir
  split at hdir
  case isFalse => cases hdir
  split at hdir
  case h_1 => cases hdir
  rename_i dir _
  split at hdir
  case isFalse => cases hdir
  -- an entry of a session
  obtain ⟨⟨name, kind⟩, _, hfile⟩ := List.mem_filterMap.1 hdir
  dsimp only at hfile
  split at hfile
  case isFalse => cases hfile
  simp only [Option.bind_eq_bind, Option.bind_eq_some_iff] at hfile
  obtain ⟨path, hpath, ⟨date, size⟩, hstat, hentry⟩ := hfile
  cases hentry
  have hpath' : dir ++ '/' :: name = path ∧ path.length < 128 := by
    unfold pathOf at hpath
    dsimp only at hpath
    split at hpath
    · cases hpath
      exact ⟨rfl, by assumption⟩
    · cases hpath
  have hne : path ≠ [] := by
    rw [← hpath'.1]
    simp
  unfold getLogTimeSize at hstat
  split at hstat
  case isFalse => cases hstat
  split at hstat
  case h_1 => cases hstat
  rename_i f hf
  refine ⟨f, hf, ?_, hne, hpath'.2⟩
  dsimp only at hstat
  split at hstat
  · cases hstat
    rfl
  · split at hstat
    · obtain ⟨u, _, hu⟩ := Option.map_eq_some_iff.1 hstat
      cases hu
      rfl
    · cases hstat

/-- The paths of the logs have no white space. -/
def NoWhiteSpace (S : Storage) : Prop := ∀ e ∈ logList S, ∀ c ∈ e.path, isSpace c = false

theorem length_decimal_le (n : UInt32) : (decimal n.toNat).length ≤ 10 := by
  have hlt := n.toNat_lt
  exact (Nat.length_toDigits_le_iff (by decide) (by decide)).2 (by omega)

theorem line_fits (hS : NoWhiteSpace S) {e : Entry} (he : e ∈ logList S) :
    '\n' ∉ e.line ∧ e.line.length + 1 < 160 := by
  obtain ⟨f, _, _, _, hlen⟩ := mem_logList he
  have hnew : isSpace '\n' = true := by decide
  refine ⟨?_, ?_⟩
  · have hdec : ∀ n, '\n' ∉ decimal n := by
      intro n hmem
      have := (not_special_of_isDigit (isDigit_of_mem_decimal hmem)).1
      rw [hnew] at this
      cases this
    have hpath : '\n' ∉ e.path := by
      intro hmem
      have := hS e he _ hmem
      rw [hnew] at this
      cases this
    simp [Entry.line, hdec, hpath]
  · have := length_decimal_le e.date
    have := length_decimal_le e.size
    simp only [Entry.line, List.length_append, List.length_cons]
    omega

theorem scanLine_line (hS : NoWhiteSpace S) {e : Entry} (he : e ∈ logList S) :
    scanLine (e.line ++ ['\n']) = ⟨e.date, e.size, some e.path⟩ := by
  obtain ⟨f, _, _, hne, _⟩ := mem_logList he
  have hblank : ∀ s : Text, ∀ c ∈ (' ' :: s).head?, c.isDigit = false := by
    intro s c hc
    cases hc
    decide
  have hdate : scanUnsigned (e.line ++ ['\n']) =
      some (e.date, ' ' :: (decimal e.size.toNat ++ ' ' :: (e.path ++ ['\n']))) := by
    have := scanUnsigned_decimal (n := e.date.toNat)
      (hblank (decimal e.size.toNat ++ ' ' :: (e.path ++ ['\n'])))
    simpa [Entry.line] using this
  have hsize : scanUnsigned (' ' :: (decimal e.size.toNat ++ ' ' :: (e.path ++ ['\n']))) =
      some (e.size, ' ' :: (e.path ++ ['\n'])) := by
    rw [(scan_blank _).1]
    have := scanUnsigned_decimal (n := e.size.toNat) (hblank (e.path ++ ['\n']))
    simpa using this
  have hpath : scanWord (' ' :: (e.path ++ ['\n'])) = some (e.path, ['\n']) := by
    rw [(scan_blank _).2]
    refine scanWord_word hne (hS e he) ?_
    intro c hc
    cases hc
    decide
  simp [scanLine, hdate, hsize, hpath]

theorem getEntry_listFile (hS : NoWhiteSpace S) {i : ℕ} {e : Entry}
    (he : (logList S)[i]? = some e) :
    getEntry (listFile S) i = ⟨e.date, e.size, some e.path⟩ := by
  have hmem : e ∈ logList S := List.mem_of_getElem? he
  have hlist : listFile S = some ((logList S).map Entry.line |>.flatMap fun w => w ++ ['\n']) := by
    unfold listFile
    cases hroot : S.entries S.logRoot with
    | none => simp [logList, hroot] at hmem
    | some _ => rfl
  have hlines : lines 160 ((logList S).map Entry.line |>.flatMap fun w => w ++ ['\n']) =
      ((logList S).map Entry.line).map fun w => w ++ ['\n'] := by
    apply lines_flatten
    intro w hw
    obtain ⟨e', he', rfl⟩ := List.mem_map.1 hw
    exact line_fits hS he'
  have hline : (lines 160 ((logList S).map Entry.line |>.flatMap fun w => w ++ ['\n']))[i]? =
      some (e.line ++ ['\n']) := by
    rw [hlines]
    simp [he]
  unfold getEntry
  simp only [hlist, Option.bind_some, hline]
  exact scanLine_line hS hmem

/-! ## The invariant -/

/-- No log was taken up since the list was made. -/
structure NoDataset (h : Handler) : Prop where
  filename : h.currentLogFilename = []
  index : h.currentLogIndex = 65535
  size : h.currentLogSize = 0

/-- The handler has taken up a listed log.  Its file may have been closed again. -/
structure Dataset (long : Long) (S : Storage) (h : Handler) (e : Entry) (f : LogFile) : Prop where
  entry : (logList S)[h.currentLogIndex.toNat]? = some e
  file : S.files e.path = some f
  size : h.currentLogSize = e.size
  filename : h.currentLogFilename = e.path
  filep : ∀ g, h.currentLogFilep = some g → g.bytes = f.bytes ∧ g.position < long.limit

theorem dataset_congr {g h : Handler} (hd : NoDataset h ∨ ∃ e f, Dataset long S h e f)
    (hname : g.currentLogFilename = h.currentLogFilename)
    (hindex : g.currentLogIndex = h.currentLogIndex) (hsize : g.currentLogSize = h.currentLogSize)
    (hfilep : g.currentLogFilep = h.currentLogFilep) :
    NoDataset g ∨ ∃ e f, Dataset long S g e f := by
  rcases hd with hn | ⟨e, f, hd⟩
  · exact .inl ⟨hname.trans hn.filename, hindex.trans hn.index, hsize.trans hn.size⟩
  · refine .inr ⟨e, f, ?_, hd.file, hsize.trans hd.size, hname.trans hd.filename, ?_⟩
    · rw [hindex]
      exact hd.entry
    · rw [hfilep]
      exact hd.filep

/-- What holds of a handler while there is a list. -/
structure Valid (long : Long) (S : Storage) (h : Handler) : Prop where
  count : h.logCount = (logList S).length
  dataset : NoDataset h ∨ ∃ e f, Dataset long S h e f
  index : h.currentStatus = .sendingData → h.currentLogIndex.toNat < h.logCount

/-- The invariant of a handler and its list file. -/
def Inv (long : Long) (S : Storage) (s : Handler × Option Text) : Prop :=
  s.1.currentStatus ≠ .inactive → s.2 = listFile S ∧ Valid long S s.1

/-- Every log can be read: its positions are numbers of a `long`. -/
def Readable (long : Long) (S : Storage) : Prop :=
  ∀ path f, S.files path = some f → f.bytes.length < long.limit

theorem fseek_seekOffset (long : Long) {f : OpenFile} (hf : f.position < long.limit)
    (ofs : UInt32) :
    fseek long f (seekOffset long ofs f.position) =
      if ofs.toNat < long.limit then some { f with position := ofs.toNat } else none := by
  have hofs := ofs.toNat_lt
  unfold fseek seekOffset
  cases long with
  | bits64 =>
      have hlimit : Long.bits64.limit = 2 ^ 63 := rfl
      rw [hlimit]
      have hpos : (f.position : ℤ) + ((ofs.toNat : ℤ) - f.position) = ofs.toNat := by omega
      simp only [hpos, Int.toNat_natCast]
      split <;> split <;> first | rfl | omega
  | bits32 =>
      have hlimit : Long.bits32.limit = 2 ^ 31 := rfl
      rw [hlimit] at hf ⊢
      simp only
      by_cases hlt : ofs.toNat < 2 ^ 31
      · -- the difference is a `long`
        have hmod : Int.bmod ((ofs.toNat : ℤ) - f.position) (2 ^ 32) =
            (ofs.toNat : ℤ) - f.position := Int.bmod_eq_of_le (by omega) (by omega)
        have hpos : (f.position : ℤ) + ((ofs.toNat : ℤ) - f.position) = ofs.toNat := by omega
        rw [hmod, hpos]
        simp
      · -- the offset, or what is left of it after it was cut off, is no position
        have hnot : ¬ (0 ≤ (f.position : ℤ) + Int.bmod ((ofs.toNat : ℤ) - f.position) (2 ^ 32) ∧
            (f.position : ℤ) + Int.bmod ((ofs.toNat : ℤ) - f.position)
            (2 ^ 32) < (2 ^ 31 : ℕ)) := by
          rw [Int.bmod_def]
          split <;> omega
        rw [if_neg hnot, if_neg hlt]

/-- What is read of a log that was taken up: bytes at the offset, and all there are if the file is
open and the offset is a position. -/
theorem Dataset.getLogData {h : Handler} {e : Entry} {f : LogFile} (hd : Dataset long S h e f)
    (hS : Readable long S) (hne : e.path ≠ []) (len : ℕ) :
    ∃ fp data, getLogData long h len = ({ h with currentLogFilep := fp }, data) ∧
      Dataset long S { h with currentLogFilep := fp } e f ∧ data.length ≤ len ∧
      data = (f.bytes.drop h.currentLogDataOffset.toNat).take data.length ∧
      (h.currentLogFilep.isSome = true → h.currentLogDataOffset.toNat < long.limit →
        fp.isSome = true ∧ data = (f.bytes.drop h.currentLogDataOffset.toNat).take len) := by
  have hname : h.currentLogFilename ≠ [] := by
    rw [hd.filename]
    exact hne
  unfold LogHandler.getLogData
  rw [if_neg hname]
  cases hfp : h.currentLogFilep with
  | none =>
      have hsame : h = { h with currentLogFilep := none } := by rw [← hfp]
      exact ⟨none, [], congrArg (·, []) hsame, hsame ▸ hd, by simp, by simp, by simp⟩
  | some g =>
      obtain ⟨hbytes, hpos⟩ := hd.filep g hfp
      simp only [fseek_seekOffset long hpos]
      by_cases hofs : h.currentLogDataOffset.toNat < long.limit
      · simp only [hofs, if_true]
        refine ⟨_, _, rfl, ⟨hd.entry, hd.file, hd.size, hd.filename, ?_⟩, ?_, ?_, ?_⟩
        · intro g' hg'
          cases hg'
          refine ⟨hbytes, ?_⟩
          have hlen := hS _ _ hd.file
          simp only [List.length_take, List.length_drop, hbytes]
          omega
        · simp
        · simp [hbytes]
        · intro _ _
          simp [hbytes]
      · simp only [hofs, if_false]
        refine ⟨none, [], rfl, ⟨hd.entry, hd.file, hd.size, hd.filename, fun g hg => by cases hg⟩,
          by simp, by simp, ?_⟩
        intro _ h
        exact absurd h id

/-- The message carries the bytes of the log that its fields name. -/
def Message.Right (S : Storage) : Message → Prop
  | .logEntry _ _ _ _ _ => True
  | .logData id ofs count data =>
      data.length = dataSize ∧ count.toNat ≤ dataSize ∧
        ∃ e f, (logList S)[id.toNat]? = some e ∧ S.files e.path = some f ∧
          data.take count.toNat = (f.bytes.drop ofs.toNat).take count.toNat

/-- What `_log_send_data` does with what it has read. -/
theorem logSendData_eq {h : Handler} {fp : Option OpenFile} {data : List UInt8}
    (hget : getLogData long h (min h.currentLogDataRemaining.toNat dataSize) =
      ({ h with currentLogFilep := fp }, data)) :
    logSendData long h =
      ({ h with
          currentLogFilep := fp
          currentLogDataOffset := h.currentLogDataOffset + UInt32.ofNat data.length
          currentLogDataRemaining := h.currentLogDataRemaining - UInt32.ofNat data.length
          currentStatus :=
            if data.length < dataSize ∨
              h.currentLogDataRemaining - UInt32.ofNat data.length = 0 then .idle
            else h.currentStatus },
        .logData h.currentLogIndex h.currentLogDataOffset (UInt8.ofNat data.length)
          (data ++ List.replicate (dataSize - data.length) 0)) := by
  unfold logSendData
  rw [hget]
  dsimp only
  split <;> rfl

theorem right_logData {id : UInt16} {ofs : UInt32} {data : List UInt8} {e : Entry} {f : LogFile}
    (he : (logList S)[id.toNat]? = some e) (hf : S.files e.path = some f)
    (hlen : data.length ≤ dataSize) (hdata : data = (f.bytes.drop ofs.toNat).take data.length) :
    (Message.logData id ofs (UInt8.ofNat data.length)
      (data ++ List.replicate (dataSize - data.length) 0)).Right S := by
  have hcount : (UInt8.ofNat data.length).toNat = data.length := by
    have : dataSize = 90 := rfl
    simp only [UInt8.toNat_ofNat']
    omega
  refine ⟨by simp [hlen], by rw [hcount]; exact hlen, e, f, he, hf, ?_⟩
  rw [hcount, List.take_left]
  exact hdata

theorem Valid.logSendData {h : Handler} (hv : Valid long S h) (hS : Readable long S)
    (hsending : h.currentStatus = .sendingData) :
    Valid long S (logSendData long h).1 ∧ (logSendData long h).1.currentStatus ≠ .inactive ∧
      (LogHandler.logSendData long h).2.Right S := by
  have hindex := hv.index hsending
  rcases hv.dataset with hnone | ⟨e, f, hd⟩
  · -- nothing is read, so that the message names no bytes
    have hget : getLogData long h (min h.currentLogDataRemaining.toNat dataSize) =
        ({ h with currentLogFilep := h.currentLogFilep }, []) := by
      rw [getLogData, if_pos hnone.filename]
    rw [logSendData_eq hget]
    refine ⟨⟨hv.count, .inl ⟨hnone.filename, hnone.index, hnone.size⟩, fun _ => hindex⟩, ?_, ?_⟩
    · simp [dataSize]
    obtain ⟨e, he⟩ : ∃ e, (logList S)[h.currentLogIndex.toNat]? = some e := by
      rw [hv.count] at hindex
      exact ⟨_, List.getElem?_eq_getElem hindex⟩
    obtain ⟨f, hf, _⟩ := mem_logList (List.mem_of_getElem? he)
    exact right_logData he hf (by simp) (by simp)
  · obtain ⟨_, _, _, hne, _⟩ := mem_logList (List.mem_of_getElem? hd.entry)
    obtain ⟨fp, data, hget, hd', hlen, hdata, _⟩ := hd.getLogData hS hne
      (min h.currentLogDataRemaining.toNat dataSize)
    rw [logSendData_eq hget]
    refine ⟨⟨hv.count, .inr ⟨e, f, hd'.entry, hd'.file, hd'.size, hd'.filename, hd'.filep⟩,
      fun _ => hindex⟩, ?_, ?_⟩
    · dsimp only
      split <;> simp [hsending]
    · exact right_logData hd.entry hd.file (by omega) hdata

theorem Valid.logSendListing {h : Handler} (hv : Valid long S h)
    (hlisting : h.currentStatus = .listing) (list : Option Text) :
    Valid long S (logSendListing list h).1 ∧ (logSendListing list h).1.currentStatus ≠ .inactive ∧
      (LogHandler.logSendListing list h).2.Right S := by
  unfold LogHandler.logSendListing
  dsimp only
  split
  · exact ⟨⟨hv.count, dataset_congr hv.dataset rfl rfl rfl rfl, fun h => by cases h⟩, by simp,
      trivial⟩
  · exact ⟨⟨hv.count, dataset_congr hv.dataset rfl rfl rfl rfl, fun h => by simp [hlisting] at h⟩,
      by simp [hlisting], trivial⟩

/-- What one message keeps, a loop of `send` keeps. -/
theorem sendLoop_rule (status : LogHandlerState) (size : ℕ) (one : Handler → Handler × Message)
    {P : Handler → Prop} {Q : Message → Prop}
    (hone : ∀ h, P h → h.currentStatus = status → P (one h).1 ∧ Q (one h).2) (n : ℕ) :
    ∀ (free : ℕ → ℕ) (h : Handler) (count : ℕ), P h →
      P (sendLoop status size one n free h count).1 ∧
        ∀ m ∈ (sendLoop status size one n free h count).2.2, Q m := by
  induction n with
  | zero =>
      intro free h count hp
      exact ⟨hp, fun m hm => by cases hm⟩
  | succ n ih =>
      intro free h count hp
      unfold sendLoop
      split
      · rename_i hcond
        obtain ⟨hp', hq⟩ := hone h hp hcond.1
        obtain ⟨hp'', hqs⟩ := ih (fun k => free (k + 1)) (one h).1 (count + size) hp'
        refine ⟨hp'', ?_⟩
        intro m hm
        rcases List.mem_cons.1 hm with rfl | hm
        · exact hq
        · exact hqs m hm
      · exact ⟨hp, fun m hm => by cases hm⟩

theorem sendLoop_enough {status : LogHandlerState} {size : ℕ} {one : Handler → Handler × Message}
    (hsize : 0 < size) (n : ℕ) : ∀ (free : ℕ → ℕ) (h : Handler) (count : ℕ),
      maxBytesSend ≤ n + count →
      sendLoop status size one (n + 1) free h count = sendLoop status size one n free h count := by
  induction n with
  | zero =>
      intro free h count hle
      have hnot : ¬ (h.currentStatus = status ∧ free 0 > size + 12 ∧ count < maxBytesSend) := by
        intro hc
        omega
      unfold sendLoop
      exact if_neg hnot
  | succ n ih =>
      intro free h count hle
      have hnext := fun g => ih (fun k => free (k + 1)) g (count + size) (by omega)
      rw [sendLoop]
      conv_rhs => rw [sendLoop]
      simp only [hnext]

/-- A loop of `send` does nothing in another status. -/
theorem sendLoop_of_ne {status : LogHandlerState} {size : ℕ} {one : Handler → Handler × Message}
    {h : Handler} (hne : h.currentStatus ≠ status) (n : ℕ) (free : ℕ → ℕ) (count : ℕ) :
    sendLoop status size one n free h count = (h, count, []) := by
  cases n with
  | zero => rfl
  | succ n => simp [sendLoop, hne]

theorem send_nothing {h : Handler} (hlisting : h.currentStatus ≠ .listing)
    (hsending : h.currentStatus ≠ .sendingData) (list : Option Text) (free free' : ℕ → ℕ) :
    send long h list free free' = (h, []) := by
  unfold send
  rw [sendLoop_of_ne hlisting]
  dsimp only
  rw [sendLoop_of_ne hsending]
  rfl

/-- `send` keeps what holds of a handler, and what it sends is right. -/
theorem Valid.send {h : Handler} (hv : Valid long S h) (hS : Readable long S)
    (hactive : h.currentStatus ≠ .inactive) (list : Option Text) (free free' : ℕ → ℕ) :
    Valid long S (send long h list free free').1 ∧
      ∀ m ∈ (LogHandler.send long h list free free').2, m.Right S := by
  have hlisting := sendLoop_rule .listing 14 (LogHandler.logSendListing list)
    (P := fun g => Valid long S g ∧ g.currentStatus ≠ .inactive)
    (Q := Message.Right S)
    (fun g hg hs => ⟨⟨(hg.1.logSendListing hs list).1, (hg.1.logSendListing hs list).2.1⟩,
      (hg.1.logSendListing hs list).2.2⟩) maxBytesSend free h 0 ⟨hv, hactive⟩
  unfold LogHandler.send
  generalize sendLoop .listing 14 (LogHandler.logSendListing list) maxBytesSend free h 0 =
    first at *
  obtain ⟨g, count, out⟩ := first
  have hdata := sendLoop_rule .sendingData 97 (LogHandler.logSendData long)
    (P := fun g => Valid long S g ∧ g.currentStatus ≠ .inactive)
    (Q := Message.Right S)
    (fun g hg hs => ⟨⟨(hg.1.logSendData hS hs).1, (hg.1.logSendData hS hs).2.1⟩,
      (hg.1.logSendData hS hs).2.2⟩) maxBytesSend free' g count hlisting.1
  dsimp only
  generalize sendLoop .sendingData 97 (LogHandler.logSendData long) maxBytesSend free' g count =
    second at *
  obtain ⟨g', count', out'⟩ := second
  refine ⟨hdata.1.1, ?_⟩
  intro m hm
  rcases List.mem_append.1 hm with hm | hm
  · exact hlisting.2 m hm
  · exact hdata.2 m hm

/-! ## Requests -/

/-- A handler that has just made its list. -/
def fresh (S : Storage) (next last : ℕ) : Handler :=
  { Handler.initial with
    currentStatus := .listing
    nextEntry := next
    lastEntry := last
    logCount := (logList S).length }

theorem requestList_cases (S : Storage) (h : Handler) (list : Option Text) (start stop : UInt16) :
    (∃ next last, requestList S h list start stop = (fresh S next last, listFile S)) ∨
    (h.currentStatus ≠ .inactive ∧ ∃ next last, requestList S h list start stop =
      ({ h with nextEntry := next, lastEntry := last, currentStatus := .listing }, list)) := by
  -- what is left of the old state after a reset does not matter
  have hfresh : ∀ g : Handler, initListHelper S (resetListHelper g) =
      ({ Handler.initial with
          currentStatus := g.currentStatus, logCount := (logList S).length }, listFile S) := by
    intro g
    simp [initListHelper, resetListHelper, Handler.initial]
  have hclose : (closeAndUnlinkFiles { h with currentStatus := .inactive }).1.currentStatus =
      .inactive := by
    unfold closeAndUnlinkFiles
    dsimp only
    split <;> rfl
  unfold requestList
  by_cases hin : h.currentStatus = .inactive
  · left
    simp only [hin, ne_eq, not_true_eq_false, if_false, if_true, hfresh]
    split <;> exact ⟨_, _, rfl⟩
  · by_cases hnew : (stop.toNat : ℤ) - start.toNat > h.logCount
    · left
      simp only [ne_eq, hin, not_false_eq_true, if_true, hnew, hclose, hfresh]
      split <;> exact ⟨_, _, rfl⟩
    · right
      refine ⟨hin, ?_⟩
      simp only [ne_eq, hin, not_false_eq_true, if_true, hnew, if_false, reduceCtorEq]
      split <;> exact ⟨_, _, rfl⟩

theorem initDataset_listFile (hS : NoWhiteSpace S) {id : UInt16} {e : Entry} {f : LogFile}
    (he : (logList S)[id.toNat]? = some e) (hf : S.files e.path = some f) (h : Handler) :
    initDataset S h (listFile S) id =
      ({ h with
          currentLogFilename := e.path
          currentLogIndex := id
          currentLogSize := e.size
          currentLogFilep := some ⟨f.bytes, 0⟩ }, true) := by
  obtain ⟨_, _, _, _, hlen⟩ := mem_logList (List.mem_of_getElem? he)
  have htake : e.path.take 127 = e.path := List.take_of_length_le (by omega)
  unfold initDataset
  simp only [getEntry_listFile hS he, htake, openForTransmit, hf, Option.map_some]

/-- The file of the log that was taken up is open. -/
def Opened (h : Handler) : Prop := h.currentLogFilename ≠ [] → h.currentLogFilep.isSome = true

theorem requestData_cases (hS : NoWhiteSpace S) {h : Handler} (hv : Valid long S h)
    (hactive : h.currentStatus ≠ .inactive) (id : UInt16) (ofs count : UInt32) :
    (h.logCount ≤ id.toNat ∧ requestData S h (listFile S) id ofs count = h) ∨
    (id.toNat < h.logCount ∧ ∃ g, requestData S h (listFile S) id ofs count = setRange g ofs count ∧
      g.logCount = h.logCount ∧ g.currentLogIndex = id ∧
      (NoDataset g ∨ ∃ e f, Dataset long S g e f) ∧ (Opened h → Opened g) ∧
      (g.currentLogFilename = [] → id = 65535 ∧ h.currentLogFilename = [])) := by
  unfold requestData
  rw [if_neg hactive]
  by_cases hid : id.toNat ≥ h.logCount
  · exact .inl ⟨hid, if_pos hid⟩
  · right
    rw [if_neg hid]
    refine ⟨by omega, ?_⟩
    by_cases hsame : h.currentLogIndex = id
    · -- the log of the last request
      refine ⟨{ h with currentStatus := .idle }, by simp [hsame], rfl, hsame,
        dataset_congr hv.dataset rfl rfl rfl rfl, fun ho => ho, ?_⟩
      intro hname
      rcases hv.dataset with hn | ⟨e, f, hd⟩
      · exact ⟨hsame.symm.trans hn.index, hname⟩
      · obtain ⟨_, _, _, hne, _⟩ := mem_logList (List.mem_of_getElem? hd.entry)
        exact absurd (hd.filename.symm.trans hname) hne
    · -- another log, which is in the list
      obtain ⟨e, he⟩ : ∃ e, (logList S)[id.toNat]? = some e := by
        have hlt : id.toNat < (logList S).length := by
          rw [← hv.count]
          omega
        exact ⟨_, List.getElem?_eq_getElem hlt⟩
      obtain ⟨f, hf, _, hne, _⟩ := mem_logList (List.mem_of_getElem? he)
      refine ⟨{ h with
          currentStatus := .idle
          currentLogFilename := e.path
          currentLogIndex := id
          currentLogSize := e.size
          currentLogFilep := some ⟨f.bytes, 0⟩ }, ?_, rfl, rfl, .inr ⟨e, f, he, hf, rfl, rfl, ?_⟩,
        fun _ _ => rfl, fun hname => absurd hname hne⟩
      · simp only [ne_eq, hsame, not_false_eq_true, if_true, initDataset_listFile hS he hf]
      · intro g hg
        cases hg
        exact ⟨rfl, show 0 < long.limit by cases long <;> decide⟩

theorem inv_step (hS : NoWhiteSpace S) (hread : Readable long S) (s : Handler × Option Text)
    (e : Event) (hinv : Inv long S s) : Inv long S (step long S s e) := by
  obtain ⟨h, list⟩ := s
  cases e with
  | requestList start stop =>
      intro _
      rcases requestList_cases S h list start stop with ⟨next, last, heq⟩ | ⟨hactive, next, last,
        heq⟩
      · rw [step, call, heq]
        exact ⟨rfl, rfl, .inl ⟨rfl, rfl, rfl⟩, fun h => by cases h⟩
      · obtain ⟨hlist, hv⟩ := hinv hactive
        rw [step, call, heq]
        exact ⟨hlist, hv.count, dataset_congr hv.dataset rfl rfl rfl rfl, fun h => by cases h⟩
  | requestData id ofs count =>
      intro hactive'
      by_cases hactive : h.currentStatus = .inactive
      · have hsame : step long S (h, list) (.requestData id ofs count) = (h, list) := by
          simp [step, call, requestData, hactive]
        rw [hsame] at hactive'
        exact absurd hactive hactive'
      · obtain ⟨hlist, hv⟩ := hinv hactive
        have hlist : list = listFile S := hlist
        subst hlist
        rw [step, call]
        rcases requestData_cases hS hv hactive id ofs count with
          ⟨_, heq⟩ | ⟨hid, g, heq, hcount, hindex, hdata, _⟩
        · rw [heq]
          exact ⟨rfl, hv⟩
        · rw [heq]
          refine ⟨rfl, hcount.trans hv.count, dataset_congr hdata rfl rfl rfl rfl, ?_⟩
          intro _
          have hlt : g.currentLogIndex.toNat < g.logCount := by
            rw [hindex, hcount]
            exact hid
          exact hlt
  | requestEnd =>
      intro hactive'
      refine absurd ?_ hactive'
      simp only [step, call, requestEnd, closeAndUnlinkFiles]
      split <;> rfl
  | send free free' =>
      intro hactive'
      by_cases hactive : h.currentStatus = .inactive
      · refine absurd ?_ hactive'
        rw [step, call, send_nothing (by simp [hactive]) (by simp [hactive])]
        exact hactive
      · obtain ⟨hlist, hv⟩ := hinv hactive
        exact ⟨hlist, (Valid.send hv hread hactive list free free').1⟩

/-! ## One request -/

/-- The messages of a log follow each other without a gap. -/
inductive Contiguous (id : UInt16) : ℕ → List Message → ℕ → Prop
  | nil (start : ℕ) : Contiguous id start [] start
  | cons {start : ℕ} {ofs : UInt32} {count : UInt8} {data : List UInt8} {ms : List Message}
      {stop : ℕ} (hofs : ofs.toNat = start) (h : Contiguous id (start + count.toNat) ms stop) :
      Contiguous id start (.logData id ofs count data :: ms) stop

theorem Contiguous.append {id : UInt16} {a b c : ℕ} {ms ms' : List Message}
    (h : Contiguous id a ms b) (h' : Contiguous id b ms' c) : Contiguous id a (ms ++ ms') c := by
  induction h with
  | nil start => exact h'
  | cons hofs _ ih => exact .cons hofs (ih h')

theorem Contiguous.stop_unique {id : UInt16} {a b b' : ℕ} {ms : List Message}
    (h : Contiguous id a ms b) (h' : Contiguous id a ms b') : b = b' := by
  induction h with
  | nil start =>
      cases h' with
      | nil => rfl
  | cons _ _ ih =>
      cases h' with
      | cons _ h' => exact ih h'

/-- The handler sends a log up to `stop`, and can read it. -/
structure Sending (long : Long) (S : Storage) (h : Handler) (e : Entry) (f : LogFile) (stop : ℕ) :
    Prop where
  dataset : Dataset long S h e f
  opened : h.currentLogFilep.isSome = true
  status : h.currentStatus = .sendingData
  remaining : h.currentLogDataOffset.toNat + h.currentLogDataRemaining.toNat = stop
  within : h.currentLogDataRemaining.toNat = 0 ∨ stop ≤ e.size.toNat

theorem Dataset.size_le {h : Handler} {e : Entry} {f : LogFile} (hd : Dataset long S h e f) :
    e.size.toNat ≤ f.bytes.length := by
  obtain ⟨f', hf', hsize, _⟩ := mem_logList (List.mem_of_getElem? hd.entry)
  rw [hd.file] at hf'
  cases hf'
  rw [hsize, UInt32.toNat_ofNat']
  exact Nat.mod_le _ _

theorem Sending.logSendData {h : Handler} {e : Entry} {f : LogFile} {stop : ℕ}
    (hs : Sending long S h e f stop) (hS : Readable long S) :
    ∃ count data, (logSendData long h).2 =
        .logData h.currentLogIndex h.currentLogDataOffset count data ∧
      ((h.currentLogDataOffset.toNat + count.toNat = stop ∧
          (LogHandler.logSendData long h).1.currentStatus = .idle) ∨
        (count.toNat = dataSize ∧ Sending long S (LogHandler.logSendData long h).1 e f stop ∧
          (LogHandler.logSendData long h).1.currentLogIndex = h.currentLogIndex ∧
          (LogHandler.logSendData long h).1.currentLogDataOffset.toNat =
            h.currentLogDataOffset.toNat + dataSize)) := by
  have hdata90 : dataSize = 90 := rfl
  obtain ⟨_, _, _, hne, _⟩ := mem_logList (List.mem_of_getElem? hs.dataset.entry)
  have hsize := hs.dataset.size_le
  have hfile := hS _ _ hs.dataset.file
  have hsize32 := e.size.toNat_lt
  have hremaining := hs.remaining
  have hwithin := hs.within
  obtain ⟨fp, data, hget, hd', hlen, _, hread⟩ := hs.dataset.getLogData hS hne
    (min h.currentLogDataRemaining.toNat dataSize)
  -- all that is asked for is read, because an offset beyond the limit has nothing left
  have hlength : data.length = min h.currentLogDataRemaining.toNat dataSize := by
    by_cases hofs : h.currentLogDataOffset.toNat < long.limit
    · rw [(hread hs.opened hofs).2, List.length_take, List.length_drop]
      omega
    · omega
  have hcount : (UInt8.ofNat data.length).toNat = data.length := by
    rw [UInt8.toNat_ofNat']
    omega
  have hcount32 : (UInt32.ofNat data.length).toNat = data.length := by
    rw [UInt32.toNat_ofNat']
    omega
  have hleft : (h.currentLogDataRemaining - UInt32.ofNat data.length).toNat =
      h.currentLogDataRemaining.toNat - data.length := by
    have hle : UInt32.ofNat data.length ≤ h.currentLogDataRemaining := by
      rw [UInt32.le_iff_toNat_le, hcount32]
      omega
    rw [UInt32.toNat_sub_of_le _ _ hle, hcount32]
  rw [logSendData_eq hget]
  refine ⟨_, _, rfl, ?_⟩
  rw [hcount]
  by_cases hlast : h.currentLogDataRemaining.toNat ≤ dataSize
  · left
    have hzero : h.currentLogDataRemaining - UInt32.ofNat data.length = 0 := by
      rw [← UInt32.toNat_inj, hleft]
      show _ = 0
      omega
    refine ⟨by omega, ?_⟩
    simp [hzero]
  · right
    have hoffset : (h.currentLogDataOffset + UInt32.ofNat data.length).toNat =
        h.currentLogDataOffset.toNat + dataSize := by
      rw [UInt32.toNat_add, hcount32]
      omega
    have hnonzero : h.currentLogDataRemaining - UInt32.ofNat data.length ≠ 0 := by
      intro h0
      have h0 := congrArg UInt32.toNat h0
      rw [hleft] at h0
      have : h.currentLogDataRemaining.toNat - data.length = 0 := h0
      omega
    have hopen := (hread hs.opened (by omega)).1
    refine ⟨by omega, ⟨⟨hd'.entry, hd'.file, hd'.size, hd'.filename, hd'.filep⟩, hopen, ?_, ?_, ?_⟩,
      rfl, hoffset⟩
    · have hfull : ¬ data.length < dataSize := by omega
      simp [hfull, hnonzero, hs.status]
    · dsimp only
      rw [hoffset, hleft]
      omega
    · right
      omega

/-- What a part of the transfer, which began at `start`, leaves: it is over, or goes on behind
messages that were all full. -/
def Progress (long : Long) (S : Storage) (h : Handler) (id : UInt16) (e : Entry) (f : LogFile)
    (start : ℕ) (ms : List Message) (stop : ℕ) : Prop :=
  (h.currentStatus = .idle ∧ Contiguous id start ms stop) ∨
    (Sending long S h e f stop ∧ h.currentLogIndex = id ∧
      Contiguous id start ms h.currentLogDataOffset.toNat ∧
      h.currentLogDataOffset.toNat = start + dataSize * ms.length)

/-- The loop of `send` makes progress, and some if there is room. -/
theorem Sending.loop {e : Entry} {f : LogFile} {stop : ℕ} (hS : Readable long S) (n : ℕ) :
    ∀ (free : ℕ → ℕ) (h : Handler) (count : ℕ), Sending long S h e f stop →
      Progress long S (sendLoop .sendingData 97 (LogHandler.logSendData long) n free h count).1
        h.currentLogIndex e f h.currentLogDataOffset.toNat
        (sendLoop .sendingData 97 (LogHandler.logSendData long) n free h count).2.2 stop ∧
      (0 < n → free 0 > 97 + 12 → count < maxBytesSend →
        (sendLoop .sendingData 97 (LogHandler.logSendData long) n free h count).2.2 ≠ []) := by
  induction n with
  | zero =>
      intro free h count hs
      exact ⟨.inr ⟨hs, rfl, .nil _, by simp [sendLoop]⟩, fun h0 => absurd h0 (by omega)⟩
  | succ n ih =>
      intro free h count hs
      unfold sendLoop
      split
      · refine ⟨?_, fun _ _ _ => by simp⟩
        obtain ⟨c, data, hmessage, hnext⟩ := hs.logSendData hS
        dsimp only
        rw [hmessage]
        rcases hnext with ⟨hstop, hidle⟩ | ⟨hfull, hs', hindex, hoffset⟩
        · -- the last message: the loop ends with the status
          left
          generalize (LogHandler.logSendData long h).1 = g at hidle
          have hdone : sendLoop .sendingData 97 (LogHandler.logSendData long) n
              (fun k => free (k + 1)) g (count + 97) = (g, count + 97, []) := by
            cases n with
            | zero => rfl
            | succ n => simp [sendLoop, hidle]
          rw [hdone]
          refine ⟨hidle, .cons rfl ?_⟩
          rw [hstop]
          exact .nil _
        · obtain ⟨hprogress, _⟩ := ih (fun k => free (k + 1)) _ (count + 97) hs'
          rw [hindex, hoffset] at hprogress
          rcases hprogress with ⟨hidle, hcont⟩ | ⟨hsend, hid, hcont, hlength⟩
          · refine .inl ⟨hidle, .cons rfl ?_⟩
            rw [hfull]
            exact hcont
          · refine .inr ⟨hsend, hid, .cons rfl ?_, ?_⟩
            · rw [hfull]
              exact hcont
            · rw [hlength, List.length_cons, Nat.mul_succ, Nat.add_assoc, Nat.add_comm dataSize]
      · rename_i hcond
        refine ⟨.inr ⟨hs, rfl, .nil _, by simp⟩, ?_⟩
        intro _ hroom hcount
        exact absurd ⟨hs.status, hroom, hcount⟩ hcond

theorem maxBytesSend_pos : 0 < maxBytesSend := by
  unfold maxBytesSend
  decide

/-- `send` goes on with the transfer. -/
theorem Sending.send {h : Handler} {e : Entry} {f : LogFile} {stop : ℕ}
    (hs : Sending long S h e f stop) (hS : Readable long S) (list : Option Text)
    (free free' : ℕ → ℕ) :
    Progress long S (send long h list free free').1 h.currentLogIndex e f
        h.currentLogDataOffset.toNat (LogHandler.send long h list free free').2 stop ∧
      (free' 0 > 97 + 12 → (LogHandler.send long h list free free').2 ≠ []) := by
  have hne : h.currentStatus ≠ .listing := by simp [hs.status]
  obtain ⟨hprogress, hsome⟩ := Sending.loop hS maxBytesSend free' h 0 hs
  unfold LogHandler.send
  rw [sendLoop_of_ne hne]
  exact ⟨hprogress, fun hroom => hsome maxBytesSend_pos hroom maxBytesSend_pos⟩

/-- Calls of `send`, one after the other. -/
def sends (frees : List ((ℕ → ℕ) × (ℕ → ℕ))) : List Event :=
  frees.map fun p => .send p.1 p.2

/-- How many of the calls have room for a message. -/
def roomy (frees : List ((ℕ → ℕ) × (ℕ → ℕ))) : ℕ :=
  frees.countP fun p => decide (p.2 0 > 97 + 12)

theorem outputs_sends_idle (long : Long) (S : Storage) {h : Handler}
    (hidle : h.currentStatus = .idle) (list : Option Text)
    (frees : List ((ℕ → ℕ) × (ℕ → ℕ))) :
    outputs (step long S) (output long) (h, list) (sends frees) = [] ∧
      exec (step long S) (h, list) (sends frees) = (h, list) := by
  induction frees with
  | nil => exact ⟨rfl, rfl⟩
  | cons p frees ih =>
      have hstep : step long S (h, list) (.send p.1 p.2) = (h, list) := by
        rw [step, call, send_nothing (by simp [hidle]) (by simp [hidle])]
      have hout : output long (h, list) (.send p.1 p.2) = [] := by
        rw [output, sent, send_nothing (by simp [hidle]) (by simp [hidle])]
      simp only [sends, List.map_cons, outputs, exec_cons, hstep, hout, List.nil_append]
      exact ih

/-- The messages of a transfer, over any number of calls: each call with room sends at least one. -/
theorem Sending.outputs {e : Entry} {f : LogFile} {stop : ℕ} (hS : Readable long S)
    (list : Option Text) (frees : List ((ℕ → ℕ) × (ℕ → ℕ))) :
    ∀ h : Handler, Sending long S h e f stop →
      Progress long S (exec (step long S) (h, list) (sends frees)).1 h.currentLogIndex e f
        h.currentLogDataOffset.toNat
        (Lib.outputs (step long S) (output long) (h, list) (sends frees)) stop ∧
      ((exec (step long S) (h, list) (sends frees)).1.currentStatus = .sendingData →
        roomy frees ≤
          (Lib.outputs (step long S) (output long) (h, list) (sends frees)).length) := by
  induction frees with
  | nil =>
      intro h hs
      exact ⟨.inr ⟨hs, rfl, .nil _, by simp [sends, Lib.outputs]⟩, fun _ => by simp [roomy]⟩
  | cons p frees ih =>
      intro h hs
      obtain ⟨hprogress, hroom⟩ := hs.send hS list p.1 p.2
      have hstep : step long S (h, list) (.send p.1 p.2) =
          ((LogHandler.send long h list p.1 p.2).1, list) := rfl
      have hout : output long (h, list) (.send p.1 p.2) =
          (LogHandler.send long h list p.1 p.2).2 := rfl
      have hsends : sends (p :: frees) = .send p.1 p.2 :: sends frees := rfl
      rw [hsends, Lib.outputs, exec_cons, hstep, hout]
      generalize LogHandler.send long h list p.1 p.2 = r at *
      obtain ⟨g, ms⟩ := r
      rcases hprogress with ⟨hidle, hcont⟩ | ⟨hsend, hid, hcont, hlength⟩
      · -- the transfer is over
        obtain ⟨hnil, hsame⟩ := outputs_sends_idle long S hidle list frees
        rw [hnil, hsame, List.append_nil]
        refine ⟨.inl ⟨hidle, hcont⟩, ?_⟩
        intro hsending
        rw [hidle] at hsending
        cases hsending
      · obtain ⟨hprogress', hroomy⟩ := ih g hsend
        rw [hid] at hprogress'
        dsimp only at hcont hlength
        refine ⟨?_, ?_⟩
        · rcases hprogress' with ⟨hidle', hcont'⟩ | ⟨hsend', hid', hcont', hlength'⟩
          · exact .inl ⟨hidle', hcont.append hcont'⟩
          · refine .inr ⟨hsend', hid', hcont.append hcont', ?_⟩
            rw [hlength', hlength, List.length_append, Nat.mul_add, Nat.add_assoc]
        · intro hsending
          have hrest := hroomy hsending
          have hfirst : (if decide (p.2 0 > 97 + 12) = true then 1 else 0) ≤ ms.length := by
            split
            · rename_i hdec
              exact List.length_pos_iff.2 (hroom (of_decide_eq_true hdec))
            · exact Nat.zero_le _
          simp only [roomy, List.countP_cons, List.length_append] at hrest ⊢
          omega

/-- Where the range of a request ends: at the end of the log at the latest, and an offset beyond it
asks for nothing. -/
def rangeEnd (ofs count size : ℕ) : ℕ := max ofs (min (ofs + count) size)

theorem sending_setRange {g : Handler} {e : Entry} {f : LogFile} (hd : Dataset long S g e f)
    (hopen : g.currentLogFilep.isSome = true) (ofs count : UInt32) :
    Sending long S (setRange g ofs count) e f
      (rangeEnd ofs.toNat count.toNat e.size.toNat) := by
  have hremaining : (setRange g ofs count).currentLogDataRemaining.toNat =
      min count.toNat (e.size.toNat - ofs.toNat) := by
    have hrest : (if ofs ≥ g.currentLogSize then 0 else g.currentLogSize - ofs).toNat =
        e.size.toNat - ofs.toNat := by
      rw [hd.size]
      split
      · rename_i hge
        have := UInt32.le_iff_toNat_le.1 hge
        show 0 = _
        omega
      · rename_i hlt
        have hle : ofs ≤ e.size := by
          rw [UInt32.le_iff_toNat_le]
          have : ¬ e.size.toNat ≤ ofs.toNat := fun h => hlt (UInt32.le_iff_toNat_le.2 h)
          omega
        exact UInt32.toNat_sub_of_le _ _ hle
    unfold setRange
    dsimp only
    generalize (if ofs ≥ g.currentLogSize then 0 else g.currentLogSize - ofs) = rest at hrest ⊢
    split
    · rename_i hgt
      have := UInt32.lt_iff_toNat_lt.1 hgt
      omega
    · rename_i hgt
      have : ¬ count.toNat < rest.toNat := fun h => hgt (UInt32.lt_iff_toNat_lt.2 h)
      omega
  have hoffset : (setRange g ofs count).currentLogDataOffset = ofs := rfl
  refine ⟨⟨hd.entry, hd.file, hd.size, hd.filename, hd.filep⟩, hopen, rfl, ?_, ?_⟩
  · rw [hremaining, hoffset, rangeEnd]
    omega
  · rw [hremaining, rangeEnd]
    omega

/-! ## Runs -/

/-- The condition on a step.  A request for log 65535 must not be the first after the list was made,
because the index then says already that this log was taken up; and nothing is read at an offset
that is no position of a file. -/
def Careful (long : Long) (s : Handler × Option Text) : Event → Prop
  | .requestData id _ _ =>
      s.1.currentStatus ≠ .inactive → id.toNat < s.1.logCount → id = 65535 →
        s.1.currentLogFilename ≠ []
  | .send _ free' =>
      s.1.currentStatus = .sendingData → free' 0 > 97 + 12 →
        s.1.currentLogDataOffset.toNat < long.limit
  | _ => True

/-- Reading at a position leaves the file open, and the next offset is a position. -/
theorem Opened.logSendData {h : Handler} (ho : Opened h) (hv : Valid long S h)
    (hS : Readable long S) (hofs : h.currentLogDataOffset.toNat < long.limit) :
    Opened (logSendData long h).1 ∧
      ((logSendData long h).1.currentStatus = .sendingData →
        (LogHandler.logSendData long h).1.currentLogDataOffset.toNat < long.limit) := by
  rcases hv.dataset with hn | ⟨e, f, hd⟩
  · have hget : getLogData long h (min h.currentLogDataRemaining.toNat dataSize) =
        ({ h with currentLogFilep := h.currentLogFilep }, []) := by
      rw [getLogData, if_pos hn.filename]
    rw [logSendData_eq hget]
    refine ⟨fun hname => absurd hn.filename hname, ?_⟩
    simp [dataSize]
  · obtain ⟨_, _, _, hne, _⟩ := mem_logList (List.mem_of_getElem? hd.entry)
    have hopen : h.currentLogFilep.isSome = true := ho (by rw [hd.filename]; exact hne)
    obtain ⟨fp, data, hget, _, hlen, _, hread⟩ := hd.getLogData hS hne
      (min h.currentLogDataRemaining.toNat dataSize)
    obtain ⟨hfp, hdata⟩ := hread hopen hofs
    rw [logSendData_eq hget]
    refine ⟨fun _ => hfp, ?_⟩
    intro hsending
    dsimp only at hsending ⊢
    split at hsending
    · cases hsending
    · rename_i hmore
      have hfull : dataSize ≤ data.length := by
        by_contra hshort
        exact hmore (.inl (by omega))
      have hfile := hS _ _ hd.file
      have hwithin : h.currentLogDataOffset.toNat + data.length ≤ f.bytes.length := by
        have hlength := congrArg List.length hdata
        rw [List.length_take, List.length_drop] at hlength
        have : dataSize = 90 := rfl
        omega
      rw [UInt32.toNat_add, UInt32.toNat_ofNat']
      have hle := Nat.mod_le (h.currentLogDataOffset.toNat + data.length % 2 ^ 32) (2 ^ 32)
      have hle' := Nat.mod_le data.length (2 ^ 32)
      omega

/-- A careful call of `send` leaves the file open. -/
theorem Opened.send {h : Handler} (ho : Opened h) (hv : Valid long S h) (hS : Readable long S)
    {free' : ℕ → ℕ} (hcareful : h.currentStatus = .sendingData → free' 0 > 97 + 12 →
      h.currentLogDataOffset.toNat < long.limit) (list : Option Text) (free : ℕ → ℕ) :
    Opened (send long h list free free').1 := by
  unfold LogHandler.send
  by_cases hsending : h.currentStatus = .sendingData
  · rw [sendLoop_of_ne (by simp [hsending])]
    dsimp only
    by_cases hroom : free' 0 > 97 + 12
    · exact (sendLoop_rule .sendingData 97 (LogHandler.logSendData long)
        (P := fun g => Opened g ∧ Valid long S g ∧
          (g.currentStatus = .sendingData → g.currentLogDataOffset.toNat < long.limit))
        (Q := fun _ => True)
        (fun g hg hs => ⟨⟨(hg.1.logSendData hg.2.1 hS (hg.2.2 hs)).1, (hg.2.1.logSendData hS hs).1,
          (hg.1.logSendData hg.2.1 hS (hg.2.2 hs)).2⟩, trivial⟩)
        maxBytesSend free' h 0 ⟨ho, hv, fun hs => hcareful hs hroom⟩).1.1
    · have hstop : ∀ n, sendLoop .sendingData 97 (LogHandler.logSendData long) n free' h 0 =
          (h, 0, []) := by
        intro n
        cases n with
        | zero => rfl
        | succ n => simp [sendLoop, hroom]
      rw [hstop]
      exact ho
  · -- a list is sent, or nothing
    have hlisting := sendLoop_rule .listing 14 (LogHandler.logSendListing list)
      (P := fun g => Opened g ∧ g.currentStatus ≠ .sendingData) (Q := fun _ => True) (by
        intro g hg hs
        refine ⟨⟨?_, ?_⟩, trivial⟩ <;> unfold LogHandler.logSendListing <;> dsimp only <;> split
        · exact hg.1
        · exact hg.1
        · simp
        · exact hg.2) maxBytesSend free h 0 ⟨ho, hsending⟩
    generalize sendLoop .listing 14 (LogHandler.logSendListing list) maxBytesSend free h 0 = first
      at *
    obtain ⟨g, count, out⟩ := first
    dsimp only at hlisting ⊢
    rw [sendLoop_of_ne hlisting.1.2]
    exact hlisting.1.1

theorem opened_step (hS : NoWhiteSpace S) (hread : Readable long S) {s : Handler × Option Text}
    {e : Event} (hinv : Inv long S s) (ho : s.1.currentStatus ≠ .inactive → Opened s.1)
    (hcareful : Careful long s e) :
    (step long S s e).1.currentStatus ≠ .inactive → Opened (step long S s e).1 := by
  obtain ⟨h, list⟩ := s
  cases e with
  | requestList start stop =>
      intro _
      rcases requestList_cases S h list start stop with ⟨next, last, heq⟩ | ⟨hactive, next, last,
        heq⟩
      · rw [step, call, heq]
        exact fun hname => absurd rfl hname
      · rw [step, call, heq]
        exact ho hactive
  | requestData id ofs count =>
      intro hactive'
      by_cases hactive : h.currentStatus = .inactive
      · refine absurd ?_ hactive'
        simp [step, call, requestData, hactive]
      · obtain ⟨hlist, hv⟩ := hinv hactive
        have hlist : list = listFile S := hlist
        subst hlist
        rw [step, call]
        rcases requestData_cases hS hv hactive id ofs count with ⟨_, heq⟩ | ⟨_, g, heq, _, _, _,
          ho', _⟩
        · rw [heq]
          exact ho hactive
        · rw [heq]
          exact ho' (ho hactive)
  | requestEnd =>
      intro hactive'
      refine absurd ?_ hactive'
      simp only [step, call, requestEnd, closeAndUnlinkFiles]
      split <;> rfl
  | send free free' =>
      intro hactive'
      by_cases hactive : h.currentStatus = .inactive
      · refine absurd ?_ hactive'
        rw [step, call, send_nothing (by simp [hactive]) (by simp [hactive])]
        exact hactive
      · exact Opened.send (ho hactive) (hinv hactive).2 hread hcareful list free

/-- Every `LOG_DATA` of a run carries the bytes of the listed log that it names.  In a run whose
steps are careful, the messages for a request follow each other from its offset; when the handler
has nothing more to send they end at the end of the range, and until then every call of `send` that
finds room sends at least one full message. -/
theorem log_download (long : Long) (S : Storage) (hS : NoWhiteSpace S) (hread : Readable long S)
    (list₀ : Option Text) (es : List Event) :
    (∀ m ∈ outputs (step long S) (output long) (.initial, list₀) es, m.Right S) ∧
    ∀ id ofs count,
      AllSteps (step long S) (Careful long) (.initial, list₀) (es ++ [.requestData id ofs count]) →
      (exec (step long S) (.initial, list₀) es).1.currentStatus ≠ .inactive →
      id.toNat < (exec (step long S) (.initial, list₀) es).1.logCount →
      ∃ e, (logList S)[id.toNat]? = some e ∧ ∀ frees final ms,
        final = (exec (step long S) (.initial, list₀)
          (es ++ .requestData id ofs count :: sends frees)).1 →
        ms = outputs (step long S) (output long)
          (exec (step long S) (.initial, list₀) (es ++ [.requestData id ofs count])) (sends frees) →
        ∃ stop, Contiguous id ofs.toNat ms stop ∧
          ((final.currentStatus = .idle ∧ stop = rangeEnd ofs.toNat count.toNat e.size.toNat) ∨
            (final.currentStatus = .sendingData ∧ stop = ofs.toNat + dataSize * ms.length ∧
              stop ≤ rangeEnd ofs.toNat count.toNat e.size.toNat ∧ roomy frees ≤ ms.length)) := by
  have hinitial : Inv long S (.initial, list₀) := fun h => absurd rfl h
  refine ⟨?_, ?_⟩
  · refine forall_mem_outputs_of_invariant (inv_step hS hread) ?_ hinitial
    intro s e hinv m hm
    cases e with
    | send free free' =>
        by_cases hactive : s.1.currentStatus = .inactive
        · rw [output, sent, send_nothing (by simp [hactive]) (by simp [hactive])] at hm
          cases hm
        · exact ((hinv hactive).2.send hread hactive s.2 free free').2 m hm
    | _ => cases hm
  · intro id ofs count hcareful hactive hid
    obtain ⟨hbefore, hrequest, _⟩ := allSteps_append.1 hcareful
    have hkept : Inv long S (exec (step long S) (.initial, list₀) es) ∧
        ((exec (step long S) (.initial, list₀) es).1.currentStatus ≠ .inactive →
          Opened (exec (step long S) (.initial, list₀) es).1) := by
      have hstep : ∀ s e, (Inv long S s ∧ (s.1.currentStatus ≠ .inactive → Opened s.1)) →
          Careful long s e → Inv long S (step long S s e) ∧
            ((step long S s e).1.currentStatus ≠ .inactive → Opened (step long S s e).1) :=
        fun s e hs hc => ⟨inv_step hS hread s e hs.1, opened_step hS hread hs.1 hs.2 hc⟩
      exact invariant_of_allSteps hstep ⟨hinitial, fun h => absurd rfl h⟩ hbefore _
        (exec_mem_visited _ _ es)
    generalize hs : exec (step long S) (.initial, list₀) es = s at *
    obtain ⟨h, list⟩ := s
    obtain ⟨hlist, hv⟩ := hkept.1 hactive
    have hlist : list = listFile S := hlist
    subst hlist
    rcases requestData_cases hS hv hactive id ofs count with
      ⟨hout, _⟩ | ⟨_, g, heq, _, hindex, hdata, hopen, hname⟩
    · exact absurd hid (by simpa using hout)
    -- the log of the request is taken up, and its file is open
    have hne : g.currentLogFilename ≠ [] := fun hnil =>
      hrequest hactive hid (hname hnil).1 (hname hnil).2
    rcases hdata with hn | ⟨e, f, hd⟩
    · exact absurd hn.filename hne
    have hsending := sending_setRange hd (hopen (hkept.2 hactive) hne) ofs count
    refine ⟨e, by rw [← hindex]; exact hd.entry, ?_⟩
    intro frees final ms hfinal hms
    have hafter : exec (step long S) (.initial, list₀) (es ++ [.requestData id ofs count]) =
        (setRange g ofs count, listFile S) := by
      rw [exec_append, hs, exec_cons, exec_nil, step, call, heq]
    have hfinal' : final =
        (exec (step long S) (setRange g ofs count, listFile S) (sends frees)).1 := by
      rw [hfinal, ← hafter, ← exec_append, List.append_assoc]
      rfl
    rw [hafter] at hms
    obtain ⟨hprogress, hroomy⟩ := Sending.outputs hread (listFile S) frees _ hsending
    rw [← hfinal', ← hms] at hprogress hroomy
    have hid' : (setRange g ofs count).currentLogIndex = id := hindex
    rw [hid'] at hprogress
    rcases hprogress with ⟨hidle, hcont⟩ | ⟨hsend, _, hcont, hlength⟩
    · exact ⟨_, hcont, .inl ⟨hidle, rfl⟩⟩
    · refine ⟨_, hcont, .inr ⟨hsend.status, hlength, ?_, hroomy hsend.status⟩⟩
      have := hsend.remaining
      omega

/-- One session with one log of three bytes. -/
def smallStorage : Storage where
  logRoot := "/log".toList
  entries := fun dir =>
    if dir = "/log".toList then some [("sess001".toList, .directory)]
    else if dir = "/log/sess001".toList then some [("log001.ulg".toList, .regularFile)]
    else none
  directoryTime := fun _ => none
  files := fun path => if path = "/log/sess001/log001.ulg".toList then some ⟨0, [1, 2, 3]⟩ else none

theorem smallStorage_logList :
    logList smallStorage = [⟨60, 3, "/log/sess001/log001.ulg".toList⟩] := by decide +kernel

theorem smallStorage_noWhiteSpace : NoWhiteSpace smallStorage := by
  intro e he c hc
  rw [smallStorage_logList, List.mem_singleton] at he
  subst he
  have hall : ("/log/sess001/log001.ulg".toList.all fun c => !isSpace c) = true := by decide +kernel
  simpa using List.all_eq_true.1 hall c hc

theorem smallStorage_readable (long : Long) : Readable long smallStorage := by
  intro path f hf
  simp only [smallStorage] at hf
  split at hf
  · obtain rfl := Option.some.inj hf
    cases long with
    | bits32 => simp [Long.limit]
    | bits64 => simp [Long.limit]
  · cases hf

/-- Calls of `send` on a free link. -/
def freeSends : List ((ℕ → ℕ) × (ℕ → ℕ)) := [(fun _ => 1000, fun _ => 1000)]

/-- The last two bytes are asked for, and sent. -/
theorem log_download_small :
    Contiguous 0 1 (outputs (step .bits32 smallStorage) (output .bits32)
      (exec (step .bits32 smallStorage) (.initial, none)
        ([.requestList 0 65535] ++ [.requestData 0 1 10])) (sends freeSends)) 3 := by
  obtain ⟨e, he, hall⟩ := (log_download .bits32 smallStorage smallStorage_noWhiteSpace
    (smallStorage_readable _) none [.requestList 0 65535]).2 0 1 10
    ⟨trivial, fun _ _ h => absurd h (by decide), trivial⟩ (by decide +kernel) (by decide +kernel)
  obtain ⟨stop, hcont, ⟨_, hstop⟩ | ⟨hsending, _⟩⟩ := hall freeSends _ _ rfl rfl
  · have hsize : e.size = 3 := by
      rw [smallStorage_logList] at he
      cases he
      rfl
    rw [hsize] at hstop
    rw [show stop = 3 from hstop] at hcont
    exact hcont
  · exact absurd hsending (by decide +kernel)

/-- Where a `long` has 32 bits, an offset that turns negative makes the seek fail.  The file is
closed and not opened again for a later request for the same log, which gets no bytes. -/
theorem download_after_failed_seek :
    NoWhiteSpace smallStorage ∧ Readable .bits32 smallStorage ∧
      ((logList smallStorage)[0]?).map Entry.size = some 3 ∧
      ∀ s final ms,
        s = exec (step .bits32 smallStorage) (.initial, none)
          [.requestList 0 65535, .requestData 0 0x80000000 1,
            .send (fun _ => 1000) (fun _ => 1000), .requestData 0 0 3] →
        final = (exec (step .bits32 smallStorage) s (sends freeSends)).1 →
        ms = outputs (step .bits32 smallStorage) (output .bits32) s (sends freeSends) →
        final.currentStatus = .idle ∧ ms = [.logData 0 0 0 (List.replicate 90 0)] ∧
          ¬ Contiguous 0 0 ms (rangeEnd 0 3 3) := by
  refine ⟨smallStorage_noWhiteSpace, smallStorage_readable _, by rw [smallStorage_logList]; rfl, ?_⟩
  intro s final ms hs hfinal hms
  have hmessages : ms = [.logData 0 0 0 (List.replicate 90 0)] := by
    rw [hms, hs]
    decide +kernel
  refine ⟨by rw [hfinal, hs]; decide +kernel, hmessages, ?_⟩
  rw [hmessages]
  intro hcont
  have hend : Contiguous 0 0 [.logData 0 0 0 (List.replicate 90 0)] 0 :=
    .cons rfl (.nil 0)
  exact absurd (hcont.stop_unique hend) (by decide)

end LogHandler
end Mavlink
end DtPhm
