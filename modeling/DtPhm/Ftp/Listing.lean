import DtPhm.Ftp.Session
import DtPhm.Lib.Paging

/-!
# Listing — a directory that is listed page by page

A client asks for the entries of a directory from an offset on, and gets those that fit into a
reply. It goes on with the number of entries that it has received.

* `Item`, `encode`, `decode` — entries in the data of a reply;
* `Directory` — a directory that does not change while it is listed;
* `ListClient` — the requests of the client, and what it has received;
* `listed_completely_iff` — when the client gets every entry, and then `kErrEOF`.
-/

namespace DtPhm
namespace Ftp

open Lib

variable {F : Type}

/-! ## Entries in a reply -/

/-- An entry as it is sent: its type and its text. -/
abbrev Item := UInt8 × List UInt8

/-- The bytes of an entry: the type, the text and its end. -/
def itemBytes (x : Item) : List UInt8 := x.1 :: x.2 ++ [0]

def itemCost (x : Item) : ℕ := x.2.length + 2

@[simp] theorem length_itemBytes (x : Item) : (itemBytes x).length = itemCost x := by
  simp [itemBytes, itemCost]

def encode (xs : List Item) : List UInt8 := xs.flatMap itemBytes

@[simp] theorem encode_nil : encode [] = [] := rfl

theorem encode_eq_nil_iff {xs : List Item} : encode xs = [] ↔ xs = [] := by
  cases xs with
  | nil => simp
  | cons x xs => simp [encode, itemBytes]

@[simp] theorem encode_append (xs ys : List Item) : encode (xs ++ ys) = encode xs ++ encode ys := by
  simp [encode]

@[simp] theorem encode_singleton (x : Item) : encode [x] = itemBytes x := by simp [encode]

/-- The entries that a client finds in the data of a reply. -/
def decode : List UInt8 → List Item
  | [] => []
  | type :: bs =>
      (type, bs.takeWhile (· ≠ 0)) :: decode ((bs.dropWhile (· ≠ 0)).drop 1)
termination_by bs => bs.length
decreasing_by
  have := (List.dropWhile_suffix (l := bs) (· ≠ 0)).length_le
  simp only [List.length_drop, List.length_cons]
  omega

theorem decode_encode {xs : List Item} (h : ∀ x ∈ xs, (0 : UInt8) ∉ x.2) :
    decode (encode xs) = xs := by
  induction xs with
  | nil => simp [encode, decode]
  | cons x xs ih =>
      have htext : ∀ b ∈ x.2, decide (b ≠ 0) = true := by
        intro b hb
        exact decide_eq_true fun h0 => h x List.mem_cons_self (h0 ▸ hb)
      have hsplit : encode (x :: xs) = x.1 :: (x.2 ++ 0 :: encode xs) := by
        simp [encode, itemBytes]
      rw [hsplit, decode, List.takeWhile_append_of_pos htext, List.dropWhile_append_of_pos htext]
      simp [ih fun y hy => h y (List.mem_cons_of_mem _ hy)]

/-! ## A directory -/

/-- The digits that are sent for the length of a file.  If the path does not fit into the work
buffer, the length is said to be 0. -/
def sizeDigits (dir : List UInt8) (size : Dirent → ℕ) (entry : Dirent) : List UInt8 :=
  let fileSize :=
    if (dir ++ [47] ++ entry.name).length < workBuffer2Len then size entry % 2 ^ 32 else 0
  (Nat.toDigits 10 fileSize).map fun d => UInt8.ofNat d.toNat

/-- The text of a file: its name and its length. -/
def fileText (dir : List UInt8) (size : Dirent → ℕ) (entry : Dirent) : List UInt8 :=
  (entry.name ++ [9] ++ sizeDigits dir size entry).take (workBuffer2Len - 1)

/-- What is sent for an entry. -/
def itemOf (dir : List UInt8) (size : Dirent → ℕ) (entry : Dirent) : Item :=
  match entry.type with
  | .file => (Ctx.kDirentFile, fileText dir size entry)
  | .directory =>
      if entry.name = [46] ∨ entry.name = [46, 46] then (Ctx.kDirentSkip, [])
      else (Ctx.kDirentDir, entry.name.take (workBuffer2Len - 1))
  | .other => (Ctx.kDirentSkip, [])

/-- A directory that does not change while it is listed. -/
structure Directory (posix : Posix F) (dir : List UInt8) where
  entries : List Dirent
  /-- The length of a file, as `stat` tells it; 0 if `stat` fails. -/
  size : Dirent → ℕ
  /-- The file systems that hold the directory. -/
  inv : F → Prop
  /-- What is still to be read from an open directory. -/
  rest : F → ℕ → List Dirent
  /-- Names are C strings. -/
  name_ne_zero : ∀ e ∈ entries, (0 : UInt8) ∉ e.name
  opendir : ∀ fs errno, inv fs → ∃ dp fs', posix.opendir dir ⟨fs, errno⟩ = (some dp, ⟨fs', errno⟩) ∧
    inv fs' ∧ rest fs' dp = entries
  readdir_cons : ∀ fs errno dp e es, inv fs → rest fs dp = e :: es →
    ∃ fs', posix.readdir dp ⟨fs, errno⟩ = (some e, ⟨fs', errno⟩) ∧ inv fs' ∧ rest fs' dp = es
  readdir_nil : ∀ fs errno dp, inv fs → rest fs dp = [] →
    ∃ fs', posix.readdir dp ⟨fs, errno⟩ = (none, ⟨fs', errno⟩) ∧ inv fs' ∧ rest fs' dp = []
  stat : ∀ fs errno e, inv fs → e ∈ entries →
    ∃ st fs' errno', posix.stat (dir ++ [47] ++ e.name) ⟨fs, errno⟩ = (st, ⟨fs', errno'⟩) ∧
      (st.map Stat.size).getD 0 = size e ∧ inv fs' ∧ ∀ dp, rest fs' dp = rest fs dp
  closedir : ∀ fs errno dp, inv fs → ∃ fs', posix.closedir dp ⟨fs, errno⟩ = ⟨fs', errno⟩ ∧ inv fs'

namespace Directory

variable {posix : Posix F} {dir : List UInt8} (D : Directory posix dir)

/-- The entries as they are sent. -/
def items : List Item := D.entries.map (itemOf dir D.size)

/-- The name of an entry leaves room in a reply for its type and its end; and that of a file, for a
tab and its length. -/
def Short (entry : Dirent) : Prop :=
  (entry.type = .file →
      entry.name.length + (sizeDigits dir D.size entry).length + 3 ≤ kMaxDataLength) ∧
    (entry.type = .directory → entry.name.length + 2 ≤ kMaxDataLength)

instance (entry : Dirent) : Decidable (D.Short entry) := inferInstanceAs (Decidable (_ ∧ _))

theorem itemCost_le_iff (e : Dirent) :
    itemCost (itemOf dir D.size e) ≤ kMaxDataLength ↔ D.Short e := by
  unfold Short itemOf itemCost kMaxDataLength
  cases e.type with
  | file =>
      simp [fileText, workBuffer2Len]
      omega
  | directory =>
      by_cases hdots : e.name = [46] ∨ e.name = [46, 46]
      -- these two are sent without their names
      · have hlen : e.name.length ≤ 2 := by
          rcases hdots with h | h <;> simp [h]
        simp [hdots]
        omega
      · simp [hdots, workBuffer2Len]
  | other => simp

theorem digit_ne_zero {n : ℕ} {b : UInt8}
    (h : b ∈ (Nat.toDigits 10 n).map fun d => UInt8.ofNat d.toNat) : b ≠ 0 := by
  obtain ⟨d, hd, rfl⟩ := List.mem_map.1 h
  have hdigit := Nat.isDigit_of_mem_toDigits (by decide) (by decide) hd
  obtain ⟨hlow, hhigh⟩ : 48 ≤ d.toNat ∧ d.toNat ≤ 57 := by
    simpa [Char.isDigit, UInt32.le_iff_toNat_le] using hdigit
  intro h0
  have hval := congrArg UInt8.toNat h0
  rw [UInt8.toNat_ofNat', Nat.mod_eq_of_lt (by omega)] at hval
  have hzero : (0 : UInt8).toNat = 0 := rfl
  omega

theorem text_ne_zero : ∀ x ∈ D.items, (0 : UInt8) ∉ x.2 := by
  intro x hx h0
  obtain ⟨e, he, rfl⟩ := List.mem_map.1 hx
  have hname := D.name_ne_zero e he
  unfold itemOf at h0
  split at h0
  · rcases List.mem_append.1 (List.mem_of_mem_take h0) with hmem | hmem
    · rcases List.mem_append.1 hmem with hmem | hmem
      · exact hname hmem
      · exact absurd hmem (by decide)
    · exact digit_ne_zero hmem rfl
  · split at h0
    · cases h0
    · exact hname (List.mem_of_mem_take h0)
  · cases h0

/-! ## One page -/

section Page

variable {D}

/-- What is left of the context besides the payload, while a directory is open. -/
structure Reading (D : Directory posix dir) (c : Ctx F) (dp : ℕ) (es : List Dirent) : Prop where
  inv : D.inv c.world.fs
  rest : D.rest c.world.fs dp = es

theorem direntItem_eq {c : Ctx F} {dp : ℕ} {es : List Dirent} (h : Reading D c dp es) {e : Dirent}
    (he : e ∈ D.entries) :
    ∃ c' : Ctx F, Ctx.direntItem posix dir e c =
        ((itemOf dir D.size e).1, (itemOf dir D.size e).2, c') ∧
      c'.payload = c.payload ∧ Reading D c' dp es := by
  unfold Ctx.direntItem itemOf
  cases htype : e.type with
  | file =>
      by_cases hpath : (dir ++ [47] ++ e.name).length < workBuffer2Len
      · obtain ⟨st, fs', errno', hst, hsize, hinv, hrest⟩ :=
          D.stat c.world.fs c.world.errno e h.inv he
        have hcall : c.call (posix.stat (dir ++ [47] ++ e.name)) =
            (st, { c with world := ⟨fs', errno'⟩ }) := by
          rw [Ctx.call]
          exact congrArg (fun p => (p.1, { c with world := p.2 })) hst
        refine ⟨{ c with world := ⟨fs', errno'⟩ }, ?_, rfl, ⟨hinv, (hrest dp).trans h.rest⟩⟩
        simp only [Ctx.direntText, fileText, sizeDigits, if_pos hpath, hcall, ← hsize]
        cases st with
        | none => rfl
        | some st => rfl
      · refine ⟨c, ?_, rfl, h⟩
        simp only [Ctx.direntText, fileText, sizeDigits, if_neg hpath]
  | directory =>
      by_cases hdots : e.name = [46] ∨ e.name = [46, 46]
      · exact ⟨c, by simp only [if_pos hdots], rfl, h⟩
      · exact ⟨c, by simp only [if_neg hdots], rfl, h⟩
  | other => exact ⟨c, rfl, rfl, h⟩

/-- The payload of a reply holds the entries `xs`. -/
structure Listed (D : Directory posix dir) (seqNumber : UInt16) (c' : Ctx F) (xs : List Item) :
    Prop where
  data : load c'.payload.data 0 (encode xs).length = encode xs
  size : c'.payload.size = UInt8.ofNat (encode xs).length
  fits : (encode xs).length ≤ kMaxDataLength
  seqNumber : c'.payload.seqNumber = seqNumber
  inv : D.inv c'.world.fs

/-- The directory is closed after the entries `xs`. -/
theorem listed_close {c : Ctx F} {dp : ℕ} {es : List Dirent} (h : Reading D c dp es)
    {xs : List Item} (hdata : load c.payload.data 0 (encode xs).length = encode xs)
    (hfits : (encode xs).length ≤ kMaxDataLength) :
    Listed D c.payload.seqNumber ((c.perform (posix.closedir dp)).setSize (encode xs).length) xs ∧
      ((c.perform (posix.closedir dp)).setSize (encode xs).length).world.errno = c.world.errno := by
  obtain ⟨fs', hclose, hinv⟩ := D.closedir c.world.fs c.world.errno dp h.inv
  have hworld : posix.closedir dp c.world = ⟨fs', c.world.errno⟩ := hclose
  refine ⟨⟨hdata, rfl, hfits, rfl, ?_⟩, ?_⟩
  · show D.inv (posix.closedir dp c.world).fs
    rw [hworld]
    exact hinv
  · show (posix.closedir dp c.world).errno = _
    rw [hworld]

/-- The loop of `_workList` adds a page to the entries that are in the reply. -/
theorem listLoop_listed {es : List Dirent} (hes : ∀ e ∈ es, e ∈ D.entries) {c : Ctx F} {dp : ℕ}
    (h : Reading D c dp es) (xs : List Item)
    (hdata : load c.payload.data 0 (encode xs).length = encode xs)
    (hfits : (encode xs).length ≤ kMaxDataLength) :
    ∃ c' : Ctx F, Ctx.listLoop posix dir dp (encode xs).length c =
        (if es = [] ∧ c.payload.offset ≠ 0 ∧ xs = [] then .eof else .none, c') ∧
      Listed D c.payload.seqNumber c'
        (xs ++ page itemCost kMaxDataLength (encode xs).length (es.map (itemOf dir D.size))) ∧
      (es = [] → c'.world.errno = 0) := by
  induction es generalizing c xs with
  | nil =>
      obtain ⟨fs', hread, hinv, hrest⟩ := D.readdir_nil c.world.fs 0 dp h.inv h.rest
      set c₁ : Ctx F := { c with world := ⟨fs', 0⟩ } with hc₁
      have hcall : (c.setErrno 0).call (posix.readdir dp) = (none, c₁) := by
        rw [Ctx.call]
        exact congrArg (fun p => (p.1, { c with world := p.2 })) hread
      obtain ⟨hlisted, herrno⟩ := listed_close (c := c₁) ⟨hinv, hrest⟩ hdata hfits
      refine ⟨_, ?_, by rw [List.map_nil, page, List.append_nil]; exact hlisted, fun _ => herrno⟩
      rw [Ctx.listLoop, hcall]
      simp [hc₁, encode_eq_nil_iff]
  | cons e es ih =>
      obtain ⟨fs', hread, hinv, hrest⟩ := D.readdir_cons c.world.fs 0 dp e es h.inv h.rest
      set c₁ : Ctx F := { c with world := ⟨fs', 0⟩ } with hc₁
      have hcall : (c.setErrno 0).call (posix.readdir dp) = (some e, c₁) := by
        rw [Ctx.call]
        exact congrArg (fun p => (p.1, { c with world := p.2 })) hread
      obtain ⟨c₂, hitem, hpayload, hreading⟩ := direntItem_eq (c := c₁) ⟨hinv, hrest⟩
        (hes e List.mem_cons_self)
      set x := itemOf dir D.size e with hx
      rw [Ctx.listLoop, hcall]
      simp only [hitem]
      rw [List.map_cons, page]
      by_cases hroom : kMaxDataLength < (encode xs).length + itemCost x
      · obtain ⟨hlisted, -⟩ := listed_close (c := c₂) hreading
          (by rw [hpayload]; exact hdata) hfits
        have hpage : kMaxDataLength < (encode xs).length + x.2.length + 2 := by
          simpa [itemCost, Nat.add_assoc] using hroom
        rw [if_pos hpage, if_pos hroom, List.append_nil]
        rw [hpayload] at hlisted
        exact ⟨_, by simp, hlisted, by simp⟩
      · have hpage : ¬kMaxDataLength < (encode xs).length + x.2.length + 2 := by
          simpa [itemCost, Nat.add_assoc] using hroom
        set c₃ : Ctx F := { c₂ with payload := { c₂.payload with
          data := store c₂.payload.data (encode xs).length (itemBytes x) } } with hc₃
        have hlen : (encode (xs ++ [x])).length = (encode xs).length + x.2.length + 2 := by
          simp [itemCost, Nat.add_assoc]
        have hdata' : load c₃.payload.data 0 (encode (xs ++ [x])).length = encode (xs ++ [x]) := by
          have hload := load_store_end c₂.payload.data (encode xs).length (itemBytes x)
          rw [hpayload, hdata] at hload
          simpa [hc₃, hpayload, Nat.add_assoc] using hload
        obtain ⟨c', hloop, hlisted, -⟩ := ih (fun e he => hes e (List.mem_cons_of_mem _ he))
          (c := c₃) ⟨hreading.inv, hreading.rest⟩ _ hdata' (by rw [hlen]; omega)
        rw [hlen] at hloop hlisted
        rw [if_neg hpage, if_neg hroom]
        refine ⟨c', hloop.trans (by simp), ?_, by simp⟩
        have hseq : c₃.payload.seqNumber = c.payload.seqNumber := by
          rw [hc₃, hpayload]
        rw [hseq, Nat.add_assoc, List.append_assoc] at hlisted
        exact hlisted

theorem skipEntries_eq (n : ℕ) {c : Ctx F} {dp : ℕ} {es : List Dirent} (h : Reading D c dp es) :
    ∃ c' : Ctx F, Ctx.skipEntries posix dp n c = c' ∧ c'.payload = c.payload ∧
      Reading D c' dp (es.drop n) := by
  induction n generalizing c es with
  | zero => exact ⟨c, rfl, rfl, h⟩
  | succ n ih =>
      cases es with
      | nil =>
          obtain ⟨fs', hread, hinv, hrest⟩ := D.readdir_nil c.world.fs c.world.errno dp h.inv h.rest
          refine ⟨{ c with world := ⟨fs', c.world.errno⟩ }, ?_, rfl, ⟨hinv, hrest⟩⟩
          have hcall : c.call (posix.readdir dp) =
              (none, { c with world := ⟨fs', c.world.errno⟩ }) := by
            rw [Ctx.call]
            exact congrArg (fun p => (p.1, { c with world := p.2 })) hread
          rw [Ctx.skipEntries, hcall]
      | cons e es =>
          obtain ⟨fs', hread, hinv, hrest⟩ :=
            D.readdir_cons c.world.fs c.world.errno dp e es h.inv h.rest
          obtain ⟨c', hskip, hpayload, hreading⟩ :=
            ih (c := { c with world := ⟨fs', c.world.errno⟩ }) ⟨hinv, hrest⟩
          have hcall : c.call (posix.readdir dp) =
              (some e, { c with world := ⟨fs', c.world.errno⟩ }) := by
            rw [Ctx.call]
            exact congrArg (fun p => (p.1, { c with world := p.2 })) hread
          refine ⟨c', ?_, hpayload, hreading⟩
          rw [Ctx.skipEntries, hcall]
          exact hskip

/-- The entries that a request with this offset skips; the offset is taken as an `int`. -/
def skipped (offset : UInt32) : ℕ := if offset.toNat < 2 ^ 31 then offset.toNat else 0

/-- The entries that are sent for this offset. -/
def pageAt (D : Directory posix dir) (offset : UInt32) : List Item :=
  page itemCost kMaxDataLength 0 (D.items.drop (skipped offset))

/-- The request asks for more than there is. -/
def AtEnd (D : Directory posix dir) (offset : UInt32) : Prop :=
  D.entries.length ≤ skipped offset ∧ offset ≠ 0

instance (offset : UInt32) : Decidable (D.AtEnd offset) := inferInstanceAs (Decidable (_ ∧ _))

/-- `_workList` puts a page into the reply. -/
theorem workList_listed {cfg : Config} {c : Ctx F} (hinv : D.inv c.world.fs)
    (hpath : c.terminated.dataPath cfg = dir) :
    ∃ c' : Ctx F, c.workList posix cfg =
        (if D.AtEnd c.payload.offset then .eof else .none, c') ∧
      Listed D c.payload.seqNumber c' (D.pageAt c.payload.offset) ∧
      (D.entries.length ≤ skipped c.payload.offset → c'.world.errno = 0) := by
  obtain ⟨dp, fs', hopen, hinv', hrest⟩ := D.opendir c.world.fs c.world.errno hinv
  set c₁ : Ctx F := { c.terminated with world := ⟨fs', c.world.errno⟩ } with hc₁
  have hcall : c.terminated.call (posix.opendir dir) = (some dp, c₁) := by
    rw [Ctx.call]
    exact congrArg (fun p => (p.1, { c.terminated with world := p.2 })) hopen
  obtain ⟨c₂, hskip, hpayload, hreading⟩ :=
    skipEntries_eq (skipped c.payload.offset) (c := c₁) ⟨hinv', hrest⟩
  obtain ⟨c', hloop, hlisted, herrno⟩ :=
    listLoop_listed (fun e he => List.mem_of_mem_drop he) hreading [] rfl (Nat.zero_le _)
  have hoffset : c₂.payload.offset = c.payload.offset := by
    rw [hpayload]
    rfl
  have hseq : c₂.payload.seqNumber = c.payload.seqNumber := by
    rw [hpayload]
    rfl
  rw [hseq, List.nil_append, List.map_drop] at hlisted
  simp only [List.drop_eq_nil_iff, hoffset, and_true] at hloop herrno
  refine ⟨c', ?_, hlisted, herrno⟩
  simp only [Ctx.workList, hpath, hcall]
  exact (congrArg (Ctx.listLoop posix dir dp 0) hskip).trans hloop

end Page

end Directory

/-! ## One request -/

/-- A request to list `dir`, from whatever offset. -/
structure IsList (cfg : Config) (dir : List UInt8) (payload : Payload) : Prop where
  opcode : Command.ofCode? payload.opcode = some .listDirectory
  size : payload.size.toNat ≤ kMaxDataLength
  path : Ctx.workPath cfg workBuffer1Len (cstring payload.terminated.data 0 kMaxDataLength) = dir

/-- A NAK with `kErrEOF`. -/
def Reply.IsEof (r : Reply) : Prop := r.opcode = kRspNak ∧ r.data.head? = some ErrorCode.eof.code

/-- The entries that a client receives with a reply. -/
def Reply.items (r : Reply) : List Item := if r.opcode = kRspAck then decode r.data else []

/-- The answer to a request from this offset: `kErrEOF` past the end, and a page before it. -/
structure Directory.Answers {posix : Posix F} {dir : List UInt8} (D : Directory posix dir)
    (offset : UInt32) (r : Reply) : Prop where
  eof : D.AtEnd offset → r.IsEof
  page : ¬D.AtEnd offset → r.opcode = kRspAck ∧ r.data = encode (D.pageAt offset)

namespace Directory.Answers

variable {posix : Posix F} {dir : List UInt8} {D : Directory posix dir} {offset : UInt32}
    {r : Reply}

theorem items_eof (h : D.Answers offset r) (hend : D.AtEnd offset) : r.items = [] := by
  rw [Reply.items, (h.eof hend).1]
  rfl

theorem items_page (h : D.Answers offset r) (hend : ¬D.AtEnd offset) :
    r.items = D.pageAt offset := by
  have hmem : ∀ x ∈ D.pageAt offset, x ∈ D.items := fun x hx =>
    List.mem_of_mem_drop ((page_isPrefix 0 _).subset hx)
  rw [Reply.items, if_pos (h.page hend).1, (h.page hend).2]
  exact decode_encode fun x hx => D.text_ne_zero x (hmem x hx)

theorem items_fit (h : D.Answers offset r) : ∀ x ∈ r.items, itemCost x ≤ kMaxDataLength := by
  intro x hx
  by_cases hend : D.AtEnd offset
  · rw [h.items_eof hend] at hx
    cases hx
  · rw [h.items_page hend] at hx
    exact cost_le_of_mem_page hx

end Directory.Answers

namespace Server

variable {posix : Posix F} {cfg : Config} {env : Env} {s : Server F} {sys comp : UInt8}

theorem not_resent_out {stream : Bool} {done : ErrorCode × Ctx F}
    (hsend : ¬(stream ∧ done.1 = .none))
    {q : Payload} (hq : q.seqNumber ≠ done.2.payload.seqNumber) :
    ¬(s.out stream sys comp done).1.resent q := by
  intro hresent
  have hlast : (outReply sys comp done).seqNumber.toNat = q.seqNumber.toNat + 1 := by
    rw [out, if_neg hsend, ← outReply, reply] at hresent
    split at hresent
    · simp only [resent, Bool.true_and, decide_eq_true_eq] at hresent
      exact hresent.symm
    · simp [resent] at hresent
  rw [outReply_seqNumber, UInt16.toNat_add] at hlast
  have hlt := done.2.payload.seqNumber.toNat_lt
  have hone : (1 : UInt16).toNat = 1 := rfl
  exact hq (UInt16.toNat_inj.1 (by omega))

theorem outReply_ack {done : ErrorCode × Ctx F} (h : done.1 = .none) :
    (outReply sys comp done).opcode = kRspAck ∧
      (outReply sys comp done).data = load done.2.payload.data 0 done.2.payload.size.toNat := by
  simp [outReply, Ctx.answer, h, Payload.toReply]

variable {dir : List UInt8} {D : Directory posix dir} {payload : Payload}

/-- A request to list the directory is answered with a page, or at its end with `kErrEOF`. -/
theorem processRequest_list (hbuffers : (s.ensureBuffersExist env).buffersExist)
    (hinv : D.inv s.fs) (hlist : IsList cfg dir payload) (hnew : ¬s.resent payload) :
    ∃ s' r, s.processRequest posix cfg env payload sys comp = (s', [r]) ∧ D.inv s'.fs ∧
      (∀ q : Payload, q.seqNumber ≠ payload.seqNumber → ¬s'.resent q) ∧
      D.Answers payload.offset r := by
  obtain ⟨c', hwork, hlisted, herrno⟩ :=
    Directory.workList_listed (D := D) (c := s.ctx env payload) hinv hlist.path
  have hpayload : (s.ctx env payload).payload = payload := rfl
  rw [hpayload] at hwork hlisted herrno
  have hdispatch : (s.ctx env payload).dispatch posix cfg env sys comp =
      (s.ctx env payload).workList posix cfg := by
    have hopcode : Command.ofCode? (s.ctx env payload).payload.opcode = some .listDirectory :=
      hlist.opcode
    simp only [Ctx.dispatch, hopcode]
  have hstream : decide (Command.ofCode? payload.opcode = some .burstReadFile) = false := by
    rw [hlist.opcode]
    rfl
  rw [processRequest_new hbuffers hlist.size hnew, hdispatch, hstream, hwork]
  have hsend : ∀ e : ErrorCode, ¬((false : Bool) = true ∧ e = .none) := by simp
  set done : ErrorCode × Ctx F :=
    (if D.AtEnd payload.offset then .eof else .none, c') with hdone
  have hout : ((s.ensureBuffersExist env).out false sys comp done).2 =
      [outReply sys comp done] ∧ _ := out_replies (hsend done.1)
  rcases hout with ⟨hreplies, hfs, -⟩
  refine ⟨_, _, Prod.ext rfl hreplies, ?_, ?_, ⟨fun hend => ?_, fun hend => ?_⟩⟩
  · rw [hfs]
    exact hlisted.inv
  · intro q hq
    exact not_resent_out (hsend _) (hlisted.seqNumber.symm ▸ hq)
  · have hcode : done.1 = .eof := if_pos hend
    have hne : done.1 ≠ .none := by rw [hcode]; decide
    have hfinal : done.2.finalCode done.1 = .eof := by
      have herrno : done.2.world.errno = 0 := herrno hend.1
      rw [hcode, Ctx.finalCode, herrno]
      rfl
    refine ⟨outReply_nak hne, ?_⟩
    rw [outReply_data hne, head_nakData, hfinal]
  · have hcode : done.1 = .none := if_neg hend
    have hack : (outReply sys comp done).opcode = kRspAck ∧ _ := outReply_ack hcode
    rcases hack with ⟨hopcode, hdata⟩
    have hsize : done.2.payload.size.toNat = (encode (D.pageAt payload.offset)).length := by
      have hsize : done.2.payload.size = _ := hlisted.size
      rw [hsize, UInt8.toNat_ofNat']
      exact Nat.mod_eq_of_lt (lt_of_le_of_lt hlisted.fits (by decide))
    refine ⟨hopcode, ?_⟩
    rw [hdata, hsize]
    exact hlisted.data

end Server

/-! ## The client -/

/-- A client that lists `dir`: its requests, each with a new number, and what the server finds
outside of it when they arrive. -/
structure ListClient (cfg : Config) (dir : List UInt8) where
  request : ℕ → Payload
  env : ℕ → Env
  sysid : UInt8
  compid : UInt8
  isList : ∀ i, IsList cfg dir (request i)
  buffers : ∀ i, (env i).alloc1 ∧ (env i).alloc2
  fresh : ∀ i, (request (i + 1)).seqNumber ≠ (request i).seqNumber

namespace ListClient

variable {cfg : Config} {dir : List UInt8} (C : ListClient cfg dir) (posix : Posix F)

/-- Request `i`, from the number of entries that the client has received. -/
def ask (i : ℕ) (st : Server F × List Item) : Server F × List Reply :=
  st.1.processRequest posix cfg (C.env i) { C.request i with offset := UInt32.ofNat st.2.length }
    C.sysid C.compid

/-- The server, and what the client has received, after `n` requests. -/
def after (s : Server F) : ℕ → Server F × List Item
  | 0 => (s, [])
  | n + 1 =>
      let st := after s n
      ((C.ask posix n st).1, st.2 ++ (C.ask posix n st).2.flatMap Reply.items)

/-- The replies to request `i`. -/
def replies (s : Server F) (i : ℕ) : List Reply := (C.ask posix i (C.after posix s i)).2

variable {posix} (D : Directory posix dir)

/-- The client gets every entry once and in order, each reply on the way brings some, and then it
gets `kErrEOF`. -/
def ListedCompletely (s : Server F) : Prop :=
  ∃ n, (C.after posix s n).2 = D.items ∧
    (∀ i < n, ∃ r, C.replies posix s i = [r] ∧ r.opcode = kRspAck ∧ r.items ≠ []) ∧
    ∃ r, C.replies posix s n = [r] ∧ r.IsEof

/-- The server is ready for request `i`, and the client has only entries that fit into a reply. -/
structure Ready (i : ℕ) (st : Server F × List Item) : Prop where
  inv : D.inv st.1.fs
  new : ¬st.1.resent (C.request i)
  fits : ∀ x ∈ st.2, itemCost x ≤ kMaxDataLength

variable {C D} {s : Server F}

theorem ask_ready {i : ℕ} {st : Server F × List Item} (h : C.Ready D i st) :
    ∃ s' r, C.ask posix i st = (s', [r]) ∧ C.Ready D (i + 1) (s', st.2 ++ r.items) ∧
      D.Answers (UInt32.ofNat st.2.length) r := by
  have hbuffers : (st.1.ensureBuffersExist (C.env i)).buffersExist := by
    simp [Server.buffersExist, Server.ensureBuffersExist, C.buffers i]
  have hlist : IsList cfg dir { C.request i with offset := UInt32.ofNat st.2.length } :=
    ⟨(C.isList i).opcode, (C.isList i).size, (C.isList i).path⟩
  obtain ⟨s', r, hask, hinv, hnew, hanswer⟩ :=
    Server.processRequest_list (D := D) hbuffers h.inv hlist h.new
  refine ⟨s', r, hask, ⟨hinv, hnew _ (C.fresh i), ?_⟩, hanswer⟩
  intro x hx
  rcases List.mem_append.1 hx with hx | hx
  · exact h.fits x hx
  · exact hanswer.items_fit x hx

theorem ready_after (h : C.Ready D 0 (s, [])) (n : ℕ) : C.Ready D n (C.after posix s n) := by
  induction n with
  | zero => exact h
  | succ n ih =>
      obtain ⟨s', r, hask, hready, -⟩ := ask_ready ih
      simpa [after, hask] using hready

/-- The answer to request `n`. -/
theorem replies_after (h : C.Ready D 0 (s, [])) (n : ℕ) :
    ∃ r, C.replies posix s n = [r] ∧
      (C.after posix s (n + 1)).2 = (C.after posix s n).2 ++ r.items ∧
      D.Answers (UInt32.ofNat (C.after posix s n).2.length) r := by
  obtain ⟨s', r, hask, -, hanswer⟩ := ask_ready (ready_after h n)
  exact ⟨r, by rw [replies, hask], by simp [after, hask], hanswer⟩

theorem length_items : D.items.length = D.entries.length := by simp [Directory.items]

theorem of_listedCompletely (h : C.Ready D 0 (s, [])) (hlisted : C.ListedCompletely D s) :
    D.entries ≠ [] ∧ D.entries.length < 2 ^ 31 ∧ ∀ x ∈ D.items, itemCost x ≤ kMaxDataLength := by
  obtain ⟨n, hall, -, r, hr, heof⟩ := hlisted
  obtain ⟨r', hr', -, hanswer⟩ := replies_after h n
  obtain rfl : r' = r := List.head_eq_of_cons_eq (hr'.symm.trans hr)
  have hend : D.AtEnd (UInt32.ofNat (C.after posix s n).2.length) := by
    by_contra hend
    have hcode : kRspAck = kRspNak := (hanswer.page hend).1.symm.trans heof.1
    exact absurd hcode (by decide)
  refine ⟨?_, ?_, ?_⟩
  · intro hnil
    rw [hall, length_items, hnil] at hend
    exact hend.2 rfl
  · refine lt_of_le_of_lt hend.1 ?_
    rw [Directory.skipped]
    split
    · assumption
    · exact Nat.two_pow_pos 31
  · rw [← hall]
    exact (ready_after h n).fits

/-- From the first `m` entries on, the client comes to the end. -/
theorem exists_listed (h : C.Ready D 0 (s, [])) (hlen : D.entries.length < 2 ^ 31)
    (hfits : ∀ x ∈ D.items, itemCost x ≤ kMaxDataLength) {m i : ℕ} (hm : m ≤ D.entries.length)
    (hst : (C.after posix s i).2 = D.items.take m) :
    ∃ n, (C.after posix s n).2 = D.items ∧ ∀ j, i ≤ j → j < n →
      ∃ r, C.replies posix s j = [r] ∧ r.opcode = kRspAck ∧ r.items ≠ [] := by
  induction hk : D.entries.length - m using Nat.strong_induction_on generalizing m i with
  | h k ih =>
      rcases hm.eq_or_lt with rfl | hlt
      · refine ⟨i, ?_, fun j hij hji => absurd hij (Nat.not_le_of_lt hji)⟩
        rw [hst, ← length_items, List.take_length]
      · obtain ⟨r, hr, hafter, hanswer⟩ := replies_after h i
        have hoffset : (C.after posix s i).2.length = m := by
          rw [hst, List.length_take, length_items, min_eq_left hm]
        have hskipped : Directory.skipped (UInt32.ofNat m) = m := by
          have htoNat : (UInt32.ofNat m).toNat = m := by
            rw [UInt32.toNat_ofNat', Nat.mod_eq_of_lt (by omega)]
          rw [Directory.skipped, htoNat, if_pos (by omega)]
        have hend : ¬D.AtEnd (UInt32.ofNat m) := by
          rintro ⟨hle, -⟩
          rw [hskipped] at hle
          omega
        rw [hoffset] at hanswer
        have hitems : r.items = page itemCost kMaxDataLength 0 (D.items.drop m) := by
          rw [hanswer.items_page hend, Directory.pageAt, hskipped]
        -- the next entry fits into a page of its own
        have hnext : r.items ≠ [] := by
          rw [hitems, Ne, page_eq_nil_iff]
          intro hbudget
          have hlt' : m < D.items.length := by rwa [length_items]
          have hcost := hbudget D.items[m] (by simp [List.head?_drop, hlt'])
          exact absurd (hfits _ (List.getElem_mem hlt')) (Nat.not_le_of_lt hcost)
        have hst' : (C.after posix s (i + 1)).2 = D.items.take (m + r.items.length) := by
          rw [hafter, hst, hitems, take_append_page]
        have hle : r.items.length ≤ D.entries.length - m := by
          rw [hitems, ← length_items, ← List.length_drop]
          exact (page_isPrefix 0 _).length_le
        have hpos := List.length_pos_iff.2 hnext
        obtain ⟨n, hall, hbefore⟩ := ih _ (by omega) (by omega) hst' rfl
        refine ⟨n, hall, fun j hij hjn => ?_⟩
        rcases hij.eq_or_lt with rfl | hij
        · exact ⟨r, hr, (hanswer.page hend).1, hnext⟩
        · exact hbefore j hij hjn

/-- A directory is listed completely exactly when it has entries, but not as many as an `int` cannot
count, and none of them has a name that is too long for a reply. -/
theorem listed_completely_iff (hinv : D.inv s.fs) (hnew : ¬s.resent (C.request 0)) :
    C.ListedCompletely D s ↔
      D.entries ≠ [] ∧ D.entries.length < 2 ^ 31 ∧ ∀ e ∈ D.entries, D.Short e := by
  have hready : C.Ready D 0 (s, []) := ⟨hinv, hnew, by simp⟩
  have hshort : (∀ x ∈ D.items, itemCost x ≤ kMaxDataLength) ↔ ∀ e ∈ D.entries, D.Short e := by
    simp [Directory.items, Directory.itemCost_le_iff]
  rw [← hshort]
  constructor
  · exact of_listedCompletely hready
  · rintro ⟨hne, hlen, hfits⟩
    obtain ⟨n, hall, hbefore⟩ := exists_listed hready hlen hfits (Nat.zero_le _) (i := 0) rfl
    obtain ⟨r, hr, -, hanswer⟩ := replies_after hready n
    refine ⟨n, hall, fun j hj => hbefore j (Nat.zero_le _) hj, r, hr, hanswer.eof ?_⟩
    have htoNat : (UInt32.ofNat D.entries.length).toNat = D.entries.length := by
      rw [UInt32.toNat_ofNat', Nat.mod_eq_of_lt (by omega)]
    rw [hall, length_items]
    refine ⟨?_, fun hzero => hne ?_⟩
    · rw [Directory.skipped, htoNat, if_pos hlen]
    · rw [hzero] at htoNat
      exact List.length_eq_zero_iff.1 htoNat.symm

end ListClient

/-! ## A system with one directory -/

/-- A system with one directory, which any path leads to; the files in it cannot be read. -/
def oneDirectory (entries : List Dirent) : Posix (List Dirent) where
  stat _ w := (none, { w with errno := enoent })
  openFile _ _ w := (-1, { w with errno := enoent })
  close _ w := w
  lseek _ _ w := (false, w)
  read _ _ w := (none, w)
  write _ _ w := (-1, w)
  unlink _ w := (false, { w with errno := erofs })
  rename _ _ w := (false, { w with errno := erofs })
  truncate _ _ w := (false, { w with errno := erofs })
  mkdir _ w := (false, { w with errno := erofs })
  rmdir _ w := (false, { w with errno := erofs })
  opendir _ w := (some 0, { w with fs := entries })
  readdir _ w := (w.fs.head?, { w with fs := w.fs.tail })
  closedir _ w := w
  crc32part _ checksum := checksum
  read_length_le h := by cases h
  remaining _ _ := 0
  remaining_read_lt _ h := by cases h

def oneDirectory.listed (dir : List UInt8) (entries : List Dirent)
    (h : ∀ e ∈ entries, (0 : UInt8) ∉ e.name) : Directory (oneDirectory entries) dir where
  entries := entries
  size _ := 0
  inv _ := True
  rest fs _ := fs
  name_ne_zero := h
  opendir _ _ _ := ⟨0, entries, rfl, trivial, rfl⟩
  readdir_cons fs errno dp e es _ hrest := by
    obtain rfl : fs = e :: es := hrest
    exact ⟨es, rfl, trivial, rfl⟩
  readdir_nil fs errno dp _ hrest := by
    obtain rfl : fs = [] := hrest
    exact ⟨[], rfl, trivial, rfl⟩
  stat fs _ _ _ _ := ⟨none, fs, enoent, rfl, rfl, trivial, fun _ => rfl⟩
  closedir fs _ _ _ := ⟨fs, rfl, trivial⟩

/-- A client that lists the root directory, with numbers that count up. -/
def rootClient : ListClient posixConfig [46] where
  request i := { terminateRequest (UInt16.ofNat i) with opcode := 3 }
  env _ := quietEnv
  sysid := 255
  compid := 190
  isList _ := ⟨rfl, Nat.zero_le _, rfl⟩
  buffers _ := ⟨rfl, rfl⟩
  fresh i h := by
    have hval := congrArg UInt16.toNat h
    simp only [terminateRequest, UInt16.toNat_ofNat'] at hval
    omega

/-- A directory, and something that is neither a file nor a directory. -/
theorem listed_completely_two :
    rootClient.ListedCompletely
      (oneDirectory.listed [46] [⟨.directory, [97]⟩, ⟨.other, [98]⟩] (by decide))
      (Server.init []) :=
  (ListClient.listed_completely_iff trivial (by decide)).2 ⟨by decide, by decide, by decide⟩

/-- A directory whose name is 238 bytes long, and then one with a short name. -/
def longName : List Dirent := [⟨.directory, List.replicate 238 97⟩, ⟨.directory, [98]⟩]

theorem longName_ne_zero : ∀ e ∈ longName, (0 : UInt8) ∉ e.name := by
  intro e he
  rcases List.mem_pair.1 he with rfl | rfl
  · exact fun h => absurd (List.eq_of_mem_replicate h) (by decide)
  · decide

/-- The client does not get past the long name. -/
theorem listing_stalls :
    ¬rootClient.ListedCompletely (oneDirectory.listed [46] longName longName_ne_zero)
      (Server.init []) := by
  intro h
  have hready : rootClient.Ready (oneDirectory.listed [46] longName longName_ne_zero) 0
      (Server.init [], []) := ⟨trivial, by decide, by simp⟩
  have hfits := (ListClient.of_listedCompletely hready h).2.2
  have hshort := (Directory.itemCost_le_iff _ _).1
    (hfits _ (List.mem_map_of_mem List.mem_cons_self))
  have hlen : (List.replicate 238 (97 : UInt8)).length + 2 ≤ kMaxDataLength := hshort.2 rfl
  rw [List.length_replicate] at hlen
  exact absurd hlen (by decide)

end Ftp
end DtPhm
