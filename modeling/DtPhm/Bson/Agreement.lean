import DtPhm.Bson.Format

/-!
# Agreement — four encoders, one format

* `flushes`, `fileWrites` — the numbers of bytes of the calls of `write` for a document, from the
  lengths of its pieces alone;
* `encode_bufFile_isSome_iff` — the buffered file encoder reports success exactly if each of these
  calls takes all bytes;
* `encoders_one_format` — two encoders that report success have written the same document, when the
  file ones could record the document size.
-/

namespace DtPhm
namespace Bson

open Lib Encoder

/-! ## The writes of the buffered file encoder -/

/-- The `k`-th `write` takes all of `n` bytes. -/
def Env.takes (env : Env) (k n : ℕ) : Bool := (env.write k n).any fun m => n ≤ m

/-- The calls of `write` from the `k`-th on take all of so many bytes each. -/
def Env.takesAll (env : Env) : ℕ → List ℕ → Bool
  | _, [] => true
  | k, n :: ns => env.takes k n && env.takesAll (k + 1) ns

/-- The bytes in the buffer after pieces of these lengths; one that does not fit behind the others
flushes the buffer. -/
def stagedAfter (bufsize : ℕ) : ℕ → List ℕ → ℕ
  | pos, [] => pos
  | pos, s :: ss =>
      if pos + s ≤ bufsize then stagedAfter bufsize (pos + s) ss else stagedAfter bufsize s ss

/-- The numbers of bytes that are flushed meanwhile. -/
def flushes (bufsize : ℕ) : ℕ → List ℕ → List ℕ
  | _, [] => []
  | pos, s :: ss =>
      if pos + s ≤ bufsize then flushes bufsize (pos + s) ss else pos :: flushes bufsize s ss

/-- The lengths of the pieces of a document, behind the place of its length. -/
def pieceLengths (as : List Append) : List ℕ := as.flatMap fun a => a.pieces.map List.length

/-- The numbers of bytes of all calls of `write` for a document: those that flush the buffer, the
rest, and the document size if the descriptor can be set back. -/
def fileWrites (bufsize : ℕ) (lseek : Bool) (as : List Append) : List ℕ :=
  flushes bufsize 4 (pieceLengths as ++ [1]) ++ [stagedAfter bufsize 4 (pieceLengths as ++ [1])] ++
    if lseek then [4] else []

/-- A buffer of this size is never flushed by a call that answers -1 and passes for a full write. -/
def Env.Tells (env : Env) (bufsize : ℕ) : Prop :=
  bufsize + 1 < 2 ^ 32 ∨ ∀ k n, env.takes k n = true

/-- Every file operation succeeds. -/
structure Env.Reliable (env : Env) : Prop where
  write : ∀ k n, env.write k n = some n
  lseek : env.lseek = true

/-- A live buffered file encoder with `pos` bytes in its buffer, after so many calls of `write`. -/
structure Encoder.Buffers (e : Encoder) (bufsize calls pos : ℕ) : Prop where
  alive : e.dead = false
  fd : ∃ disk, e.fd = some disk ∧ disk.calls = calls
  buf : ∃ buf, e.buf = some buf ∧ buf.length = pos
  size : e.bufsize = bufsize
  le : pos ≤ bufsize

/-- Every piece of the document fits a buffer of this size, the place of its length included. -/
def PiecesFit (bufsize : ℕ) (as : List Append) : Prop :=
  4 ≤ bufsize ∧ ∀ a ∈ as, ∀ p ∈ a.pieces, p.length ≤ bufsize

variable {env : Env} {bufsize calls pos : ℕ}

theorem takesAll_append (env : Env) (k : ℕ) (ns ns' : List ℕ) :
    env.takesAll k (ns ++ ns') = (env.takesAll k ns && env.takesAll (k + ns.length) ns') := by
  induction ns generalizing k with
  | nil => simp [Env.takesAll]
  | cons n ns ih => simp [Env.takesAll, ih, Bool.and_assoc, Nat.add_assoc, Nat.add_comm 1]

theorem flushes_append (bufsize pos : ℕ) (ss ss' : List ℕ) :
    flushes bufsize pos (ss ++ ss') =
      flushes bufsize pos ss ++ flushes bufsize (stagedAfter bufsize pos ss) ss' := by
  induction ss generalizing pos with
  | nil => rfl
  | cons s ss ih =>
      rw [List.cons_append, flushes, flushes, stagedAfter]
      split
      · exact ih _
      · rw [ih, List.cons_append]

theorem stagedAfter_append (bufsize pos : ℕ) (ss ss' : List ℕ) :
    stagedAfter bufsize pos (ss ++ ss') =
      stagedAfter bufsize (stagedAfter bufsize pos ss) ss' := by
  induction ss generalizing pos with
  | nil => rfl
  | cons s ss ih =>
      rw [List.cons_append, stagedAfter, stagedAfter]
      split <;> exact ih _

theorem Env.Tells.size_lt (h : env.Tells bufsize) {k n : ℕ} (htakes : env.takes k n = false) :
    bufsize + 1 < 2 ^ 32 := by
  rcases h with h | h
  · exact h
  · rw [h k n] at htakes
    cases htakes

theorem takesAll_of_takes (h : ∀ k n, env.takes k n = true) (k : ℕ) (ns : List ℕ) :
    env.takesAll k ns = true := by
  induction ns generalizing k with
  | nil => rfl
  | cons n ns ih => simp [Env.takesAll, h, ih]

theorem Env.Reliable.takes (h : env.Reliable) (k n : ℕ) : env.takes k n = true := by
  simp [Env.takes, h.write]

theorem writeTo_of_takes {d : Disk} {bs : List UInt8} (h : env.takes d.calls bs.length = true) :
    ∃ d', env.writeTo d bs = (asInt bs.length, d') ∧ d'.calls = d.calls + 1 := by
  obtain ⟨n, hn, hle⟩ := (Option.any_eq_true _ _).1 h
  have hmin : min n bs.length = bs.length := Nat.min_eq_right (of_decide_eq_true hle)
  refine ⟨d.put (bs.take n), ?_, rfl⟩
  rw [Env.writeTo, hn]
  simp only [hmin]

theorem writeTo_ne {d : Disk} {bs : List UInt8} (h : env.takes d.calls bs.length = false)
    (hlen : bs.length + 1 < 2 ^ 32) : (env.writeTo d bs).1 ≠ asInt bs.length := by
  unfold Env.writeTo
  cases hwrite : env.write d.calls bs.length with
  | none => exact fun heq => asInt_ne_neg_one hlen heq.symm
  | some n =>
      have hlt : n < bs.length := by simpa [Env.takes, hwrite] using h
      intro heq
      have := asInt_inj (by omega) (by omega) heq
      omega

namespace Encoder

theorem Buffers.stage (env : Env) {e : Encoder} (h : e.Buffers bufsize calls pos) {p : List UInt8}
    (hp : pos + p.length ≤ bufsize) :
    ∃ e', writeX env e p = (true, e') ∧ e'.Buffers bufsize calls (pos + p.length) := by
  obtain ⟨disk, hdisk, hcalls⟩ := h.fd
  obtain ⟨buf, hbuf, hpos⟩ := h.buf
  have hroom : e.bufpos + p.length ≤ e.bufsize := by
    rw [Encoder.bufpos, Encoder.staged, hbuf, Option.getD_some, hpos, h.size]
    exact hp
  unfold writeX makeRoom
  simp only [h.alive, hdisk, hbuf, hroom, if_true]
  refine ⟨_, rfl, rfl, ⟨disk, rfl, hcalls⟩, ⟨_, rfl, ?_⟩, h.size, hp⟩
  simp [Encoder.staged, hbuf, hpos]

theorem Buffers.flush {e : Encoder} (h : e.Buffers bufsize calls pos) {p : List UInt8}
    (hp : p.length ≤ bufsize) (hfull : bufsize < pos + p.length)
    (htakes : env.takes calls pos = true) :
    ∃ e', writeX env e p = (true, e') ∧ e'.Buffers bufsize (calls + 1) p.length := by
  obtain ⟨disk, hdisk, rfl⟩ := h.fd
  obtain ⟨buf, hbuf, rfl⟩ := h.buf
  have hsize := h.size
  have hstaged : e.staged = buf := by rw [Encoder.staged, hbuf, Option.getD_some]
  obtain ⟨disk', hwrite, hcalls⟩ := writeTo_of_takes htakes
  have hroom : ¬buf.length + p.length ≤ e.bufsize := by omega
  have hlarge : ¬p.length > e.bufsize := by omega
  unfold writeX makeRoom
  simp only [h.alive, hdisk, hbuf, Encoder.bufpos, hstaged, hroom, hwrite, hlarge, if_true,
    if_false]
  exact ⟨_, rfl, rfl, ⟨disk', rfl, hcalls⟩, ⟨_, rfl, by simp [Encoder.staged]⟩, h.size, hp⟩

theorem Buffers.not_flush {e : Encoder} (h : e.Buffers bufsize calls pos) {p : List UInt8}
    (hfull : bufsize < pos + p.length) (htells : env.Tells bufsize)
    (htakes : env.takes calls pos = false) : (writeX env e p).1 = false := by
  have hsize := htells.size_lt htakes
  obtain ⟨disk, hdisk, rfl⟩ := h.fd
  obtain ⟨buf, hbuf, rfl⟩ := h.buf
  have hle := h.le
  have hbufsize := h.size
  have hstaged : e.staged = buf := by rw [Encoder.staged, hbuf, Option.getD_some]
  have hne := writeTo_ne htakes (by omega)
  have hroom : ¬buf.length + p.length ≤ e.bufsize := by omega
  unfold writeX makeRoom
  simp only [h.alive, hdisk, hbuf, Encoder.bufpos, hstaged, hroom, hne, if_false]
  rfl

/-- The pieces are accepted if `write` takes what they flush, … -/
theorem Buffers.writePieces {e : Encoder} (h : e.Buffers bufsize calls pos)
    {ps : List (List UInt8)} (hps : ∀ p ∈ ps, p.length ≤ bufsize)
    (htakes : env.takesAll calls (flushes bufsize pos (ps.map List.length)) = true) :
    ∃ e', Bson.writePieces env e ps = (true, e') ∧
      e'.Buffers bufsize (calls + (flushes bufsize pos (ps.map List.length)).length)
        (stagedAfter bufsize pos (ps.map List.length)) := by
  induction ps generalizing e calls pos with
  | nil => exact ⟨e, rfl, h⟩
  | cons p ps ih =>
      have hps' : ∀ q ∈ ps, q.length ≤ bufsize := fun q hq => hps q (by simp [hq])
      rw [List.map_cons, flushes] at htakes ⊢
      rw [stagedAfter]
      by_cases hroom : pos + p.length ≤ bufsize
      · rw [if_pos hroom] at htakes ⊢
        rw [if_pos hroom]
        obtain ⟨e₁, hp, h₁⟩ := h.stage env hroom
        obtain ⟨e₂, hrest, h₂⟩ := ih h₁ hps' htakes
        exact ⟨e₂, by simp [Bson.writePieces, hp, hrest], h₂⟩
      · rw [if_neg hroom] at htakes ⊢
        rw [if_neg hroom]
        rw [Env.takesAll, Bool.and_eq_true] at htakes
        obtain ⟨e₁, hp, h₁⟩ := h.flush (hps p (by simp)) (by omega) htakes.1
        obtain ⟨e₂, hrest, h₂⟩ := ih h₁ hps' htakes.2
        refine ⟨e₂, by simp [Bson.writePieces, hp, hrest], ?_⟩
        rwa [List.length_cons, Nat.add_comm _ 1, ← Nat.add_assoc]

/-- … and only then. -/
theorem Buffers.not_writePieces {e : Encoder} (h : e.Buffers bufsize calls pos)
    {ps : List (List UInt8)} (hps : ∀ p ∈ ps, p.length ≤ bufsize) (htells : env.Tells bufsize)
    (htakes : env.takesAll calls (flushes bufsize pos (ps.map List.length)) = false) :
    (Bson.writePieces env e ps).1 = false := by
  induction ps generalizing e calls pos with
  | nil => cases htakes
  | cons p ps ih =>
      have hps' : ∀ q ∈ ps, q.length ≤ bufsize := fun q hq => hps q (by simp [hq])
      rw [List.map_cons, flushes] at htakes
      by_cases hroom : pos + p.length ≤ bufsize
      · rw [if_pos hroom] at htakes
        obtain ⟨e₁, hp, h₁⟩ := h.stage env hroom
        simpa [Bson.writePieces, hp] using ih h₁ hps' htakes
      · rw [if_neg hroom, Env.takesAll] at htakes
        cases hfirst : env.takes calls pos with
        | true =>
            rw [hfirst, Bool.true_and] at htakes
            obtain ⟨e₁, hp, h₁⟩ := h.flush (hps p (by simp)) (by omega) hfirst
            simpa [Bson.writePieces, hp] using ih h₁ hps' htakes
        | false =>
            have hfails := h.not_flush (p := p) (by omega) htells hfirst
            rcases hwrite : writeX env e p with ⟨ok, e'⟩
            obtain rfl : ok = false := by simpa [hwrite] using hfails
            simp [Bson.writePieces, hwrite]

theorem Buffers.append {e e' : Encoder} (h : e.Buffers bufsize calls pos) {a : Append}
    (hname : a.name.chars.length ≤ bsonMaxname)
    (hpieces : Bson.writePieces env e a.pieces = (true, e')) :
    Bson.append env e a = (true, e') := by
  have hlong : ¬a.name.chars.length > bsonMaxname := by omega
  rw [append_eq_appendNode, appendNode, h.alive]
  rw [Append.pieces, Bson.writePieces] at hpieces
  split at hpieces
  · rename_i e₁ htype
    rw [Bson.writePieces] at hpieces
    split at hpieces
    · rename_i e₂ hbytes
      simp [htype, writeName, hlong, hbytes, hpieces]
    · cases hpieces
  · cases hpieces

/-- All appends are accepted if `write` takes what they flush, … -/
theorem Buffers.appendAll {e : Encoder} (h : e.Buffers bufsize calls pos) {as : List Append}
    (hnames : ∀ a ∈ as, a.name.chars.length ≤ bsonMaxname)
    (hfit : ∀ a ∈ as, ∀ p ∈ a.pieces, p.length ≤ bufsize)
    (htakes : env.takesAll calls (flushes bufsize pos (pieceLengths as)) = true) :
    ∃ e', Bson.appendAll env e as = some e' ∧
      e'.Buffers bufsize (calls + (flushes bufsize pos (pieceLengths as)).length)
        (stagedAfter bufsize pos (pieceLengths as)) := by
  induction as generalizing e calls pos with
  | nil => exact ⟨e, rfl, h⟩
  | cons a as ih =>
      rw [pieceLengths, List.flatMap_cons, flushes_append, takesAll_append,
        Bool.and_eq_true] at htakes
      obtain ⟨e₁, hpieces, h₁⟩ := h.writePieces (hfit a (by simp)) htakes.1
      obtain ⟨e₂, hrest, h₂⟩ := ih h₁ (fun b hb => hnames b (by simp [hb]))
        (fun b hb => hfit b (by simp [hb])) htakes.2
      refine ⟨e₂, by simp [Bson.appendAll, h.append (hnames a (by simp)) hpieces, hrest], ?_⟩
      rw [pieceLengths, List.flatMap_cons, flushes_append, stagedAfter_append, List.length_append,
        ← Nat.add_assoc]
      exact h₂

/-- … and only then. -/
theorem Buffers.not_appendAll {e : Encoder} (h : e.Buffers bufsize calls pos) {as : List Append}
    (hnames : ∀ a ∈ as, a.name.chars.length ≤ bsonMaxname)
    (hfit : ∀ a ∈ as, ∀ p ∈ a.pieces, p.length ≤ bufsize) (htells : env.Tells bufsize)
    (htakes : env.takesAll calls (flushes bufsize pos (pieceLengths as)) = false) :
    Bson.appendAll env e as = none := by
  induction as generalizing e calls pos with
  | nil => cases htakes
  | cons a as ih =>
      rw [pieceLengths, List.flatMap_cons, flushes_append, takesAll_append] at htakes
      rw [Bson.appendAll]
      cases hfirst : env.takesAll calls (flushes bufsize pos (a.pieces.map List.length)) with
      | true =>
          rw [hfirst, Bool.true_and] at htakes
          obtain ⟨e₁, hpieces, h₁⟩ := h.writePieces (hfit a (by simp)) hfirst
          rw [h.append (hnames a (by simp)) hpieces]
          exact ih h₁ (fun b hb => hnames b (by simp [hb])) (fun b hb => hfit b (by simp [hb]))
            htakes
      | false =>
          have hfails := h.not_writePieces (hfit a (by simp)) htells hfirst
          split
          · rename_i e' happend
            rw [(writePieces_of_append happend).2] at hfails
            cases hfails
          · rfl

theorem names_of_appendAll {e e' : Encoder} {as : List Append}
    (h : Bson.appendAll env e as = some e') : ∀ a ∈ as, a.name.chars.length ≤ bsonMaxname := by
  induction as generalizing e with
  | nil => simp
  | cons a as ih =>
      rw [Bson.appendAll] at h
      split at h
      · rename_i e₁ happend
        exact List.forall_mem_cons.2 ⟨(writePieces_of_append happend).1, ih h⟩
      · cases h

theorem Buffers.flushLast (env : Env) {e : Encoder} (h : e.Buffers bufsize calls pos)
    (hpos : 0 < pos) :
    (env.takes calls pos = true → ∃ e' disk, Bson.flushLast env e = (true, e') ∧
      e'.fd = some disk ∧ disk.calls = calls + 1) ∧
    (env.takes calls pos = false → env.Tells bufsize → (Bson.flushLast env e).1 = false) := by
  obtain ⟨disk, hdisk, rfl⟩ := h.fd
  obtain ⟨buf, hbuf, rfl⟩ := h.buf
  have hle := h.le
  have hbufpos : e.bufpos = buf.length := by
    rw [Encoder.bufpos, Encoder.staged, hbuf, Option.getD_some]
  cases buf with
  | nil => exact absurd hpos (Nat.lt_irrefl 0)
  | cons b bs =>
      unfold Bson.flushLast
      simp only [hdisk, hbuf, hbufpos]
      constructor
      · intro htakes
        obtain ⟨disk', hwrite, hcalls⟩ := writeTo_of_takes htakes
        simp only [hwrite, if_true]
        exact ⟨_, disk', rfl, rfl, hcalls⟩
      · intro htakes htells
        have hsize := htells.size_lt htakes
        rw [if_neg (writeTo_ne htakes (by omega))]
        rfl

theorem recordSize_fst {e : Encoder} {disk : Disk} (hdisk : e.fd = some disk)
    (hcalls : disk.calls = calls) :
    (recordSize env e).1 = env.takesAll calls (if env.lseek then [4] else []) := by
  subst hcalls
  have hfour : asInt 4 = 4 := by decide
  unfold recordSize
  rw [hdisk]
  cases env.lseek with
  | false => rfl
  | true =>
      simp only [if_true, Env.takesAll, Bool.and_true]
      have hlen : (int32Bytes e.totalDocumentSize).length = 4 := length_int32Bytes _
      cases htakes : env.takes disk.calls 4 with
      | true =>
          have hrecords : env.takes ({ disk with pos := 0 } : Disk).calls
              (int32Bytes e.totalDocumentSize).length = true := by rw [hlen]; exact htakes
          obtain ⟨d', hwrite, -⟩ := writeTo_of_takes hrecords
          rw [hwrite, hlen, hfour, if_pos rfl]
      | false =>
          have hfails : env.takes ({ disk with pos := 0 } : Disk).calls
              (int32Bytes e.totalDocumentSize).length = false := by rw [hlen]; exact htakes
          have hne := writeTo_ne hfails (by rw [hlen]; omega)
          rw [hlen, hfour] at hne
          rw [if_neg hne]
          rfl

theorem le_stagedAfter (bufsize pos s : ℕ) : s ≤ stagedAfter bufsize pos [s] := by
  simp only [stagedAfter]
  split <;> omega

/-- The end of a document succeeds if `write` takes the rest of the buffer and the document size. -/
theorem Buffers.fini {e : Encoder} (h : e.Buffers bufsize calls pos) (hone : 1 ≤ bufsize)
    (htells : env.Tells bufsize) :
    (bsonEncoderFini env e).1 = env.takesAll calls (flushes bufsize pos [1] ++
      [stagedAfter bufsize pos [1]] ++ if env.lseek then [4] else []) := by
  have hps : ∀ p ∈ [[BsonType.eoo.toByte]], p.length ≤ bufsize := by simpa using hone
  have hsingle : ∀ p, Bson.writePieces env e [p] = writeX env e p := by
    intro p
    rw [Bson.writePieces]
    rcases writeX env e p with ⟨ok, e'⟩
    cases ok <;> rfl
  rw [takesAll_append, takesAll_append]
  unfold bsonEncoderFini
  rw [h.alive]
  cases heoo : env.takesAll calls (flushes bufsize pos [1]) with
  | false =>
      have hfails := h.not_writePieces hps htells heoo
      rw [hsingle] at hfails
      rcases hwrite : writeX env e [BsonType.eoo.toByte] with ⟨ok, e'⟩
      obtain rfl : ok = false := by simpa [hwrite] using hfails
      rfl
  | true =>
      obtain ⟨e₁, hwrite, h₁⟩ := h.writePieces hps heoo
      rw [hsingle] at hwrite
      rw [hwrite]
      have hlast := h₁.flushLast env (Nat.lt_of_lt_of_le Nat.one_pos (le_stagedAfter ..))
      cases hrest :
        env.takes (calls + (flushes bufsize pos [1]).length) (stagedAfter bufsize pos [1]) with
      | true =>
          obtain ⟨e₂, disk, hflush, hdisk, hcalls⟩ := hlast.1 hrest
          simp only [Bool.false_eq_true, if_false, hflush]
          rw [recordSize_fst hdisk hcalls]
          simp [Env.takesAll, hrest, Nat.add_assoc]
      | false =>
          have hfails := hlast.2 hrest htells
          rcases hflush : Bson.flushLast env e₁ with ⟨ok, e₂⟩
          obtain rfl : ok = false := by simpa [hflush] using hfails
          simp [Env.takesAll, hrest, hflush, Encoder.kill]

theorem buffers_fresh (content : List UInt8) (bufsize : ℕ) :
    (Target.bufFile content bufsize).fresh.Buffers bufsize 0 0 :=
  ⟨rfl, ⟨_, rfl, rfl⟩, ⟨_, rfl, rfl⟩, rfl, Nat.zero_le _⟩

end Encoder

theorem start_bufFile_buffers (env : Env) (content : List UInt8) (hfour : 4 ≤ bufsize) :
    ∃ e, start env (.bufFile content bufsize) = (true, e) ∧ e.Buffers bufsize 0 4 := by
  have hroom : 0 + (int32Bytes 0).length ≤ bufsize := by simpa using hfour
  obtain ⟨e, hwrite, h⟩ := (buffers_fresh content bufsize).stage env hroom
  refine ⟨e, ?_, by simpa using h⟩
  rw [start_eq_initLength, initLength, hwrite]

/-- A document is encoded exactly if its names are short enough, and each `write` takes all
bytes. -/
theorem encode_bufFile_isSome_iff (content : List UInt8) {as : List Append}
    (hfour : 4 ≤ bufsize) (htells : env.Tells bufsize)
    (hfit : (∀ a ∈ as, a.name.chars.length ≤ bsonMaxname) →
      ∀ a ∈ as, ∀ p ∈ a.pieces, p.length ≤ bufsize) :
    (encode env (.bufFile content bufsize) as).isSome = true ↔
      (∀ a ∈ as, a.name.chars.length ≤ bsonMaxname) ∧
        env.takesAll 0 (fileWrites bufsize env.lseek as) = true := by
  obtain ⟨e, hstart, h⟩ := start_bufFile_buffers env content hfour
  rw [encode, hstart, fileWrites, flushes_append, stagedAfter_append, List.append_assoc,
    List.append_assoc, takesAll_append, ← List.append_assoc, Nat.zero_add, Bool.and_eq_true]
  simp only
  by_cases hnames : ∀ a ∈ as, a.name.chars.length ≤ bsonMaxname
  · cases htakes : env.takesAll 0 (flushes bufsize 4 (pieceLengths as)) with
    | true =>
        obtain ⟨e₁, happend, h₁⟩ := h.appendAll hnames (hfit hnames) htakes
        have hfini := h₁.fini (Nat.le_trans (by decide) hfour) htells
        rw [Nat.zero_add] at hfini
        rw [happend, ← hfini]
        rcases hend : bsonEncoderFini env e₁ with ⟨ok, e₂⟩
        cases ok
        · simp [hend]
        · simpa [hend] using hnames
    | false =>
        rw [h.not_appendAll hnames (hfit hnames) htells htakes]
        simp
  · refine iff_of_false ?_ fun hboth => hnames hboth.1
    cases happend : appendAll env e as with
    | none => simp
    | some e₁ => exact absurd (names_of_appendAll happend) hnames

/-- The buffer is flushed whenever a piece would not fit, so only single pieces have to. -/
theorem encode_bufFile_isSome (henv : env.Reliable) (content : List UInt8) {as : List Append}
    (hfit : PiecesFit bufsize as) (hnames : ∀ a ∈ as, a.name.chars.length ≤ bsonMaxname) :
    (encode env (.bufFile content bufsize) as).isSome :=
  (encode_bufFile_isSome_iff content hfit.1 (.inr henv.takes) fun _ => hfit.2).2
    ⟨hnames, takesAll_of_takes henv.takes 0 _⟩

/-! ## The encoders agree -/

/-- A buffered target whose buffer is not the one of 2³² - 1 bytes. -/
def Target.Regular : Target → Prop
  | .bufFile _ bufsize => bufsize + 1 < 2 ^ 32
  | _ => True

theorem Target.Regular.stages {t : Target} (h : t.Regular) (n : ℕ) : t.Stages n := by
  cases t with
  | bufFile content bufsize => exact Or.inl h
  | file content => trivial
  | buf bufsize => trivial
  | growing => trivial

/-- The encoders are one format: where they report success and the size could be recorded they have
written the same bytes, and the buffered file encoder reports success as soon as its buffer has room
for every single piece. -/
theorem encoders_one_format :
    (∀ (env₁ env₂ : Env) (t₁ t₂ : Target) (as : List Append) (e₁ e₂ : Encoder),
      t₁.Regular → t₂.Regular → t₁.records env₁ → t₂.records env₂ →
      encode env₁ t₁ as = some e₁ → encode env₂ t₂ as = some e₂ → e₁.document = e₂.document) ∧
    (∀ (env : Env) (content : List UInt8) (bufsize : ℕ) (as : List Append),
      env.Reliable → PiecesFit bufsize as → (∀ a ∈ as, a.name.chars.length ≤ bsonMaxname) →
      (encode env (.bufFile content bufsize) as).isSome) := by
  refine ⟨?_, ?_⟩
  · intro env₁ env₂ t₁ t₂ as e₁ e₂ hreg₁ hreg₂ hrec₁ hrec₂ hok₁ hok₂
    calc
      e₁.document = documentOf (t₁.records env₁) as := (encode_document (hreg₁.stages _) hok₁).1
      _ = documentOf (t₂.records env₂) as := by rw [hrec₁, hrec₂]
      _ = e₂.document := (encode_document (hreg₂.stages _) hok₂).1.symm
  · intro env content bufsize as henv hfit hnames
    exact encode_bufFile_isSome henv content hfit hnames

/-- An operating system that grants everything. -/
def grantingEnv : Env where
  write := fun _ n => some n
  lseek := true
  realloc := fun _ => true

/-- The same with a descriptor that cannot seek, such as a pipe. -/
def pipeEnv : Env := { grantingEnv with lseek := false }

theorem grantingEnv_reliable : grantingEnv.Reliable := ⟨fun _ _ => rfl, rfl⟩

/-- The name of `n` letters "a". -/
def longName (n : ℕ) : CString where
  chars := List.replicate n 97
  noNul := by simp

theorem encoders_one_format_flag :
    (encode grantingEnv (.bufFile [7, 7] 8) [.bool (longName 1) true]).isSome ∧
    (∀ e₁ e₂, encode grantingEnv (.bufFile [7, 7] 8) [.bool (longName 1) true] = some e₁ →
      encode grantingEnv (.buf 20) [.bool (longName 1) true] = some e₂ →
      e₁.document = e₂.document) := by
  have hfit : PiecesFit 8 [.bool (longName 1) true] := by
    refine ⟨by decide, ?_⟩
    decide
  refine ⟨encoders_one_format.2 grantingEnv [7, 7] 8 [.bool (longName 1) true] grantingEnv_reliable
    hfit (by decide), ?_⟩
  intro e₁ e₂ hok₁ hok₂
  exact encoders_one_format.1 grantingEnv grantingEnv (.bufFile [7, 7] 8) (.buf 20)
    [.bool (longName 1) true] e₁ e₂ (by norm_num [Target.Regular]) trivial rfl rfl hok₁ hok₂

/-- A name of 33 letters is refused though all its pieces fit the buffer; and a file that cannot be
set back to its start keeps a length of zero, with success reported. -/
theorem encoders_not_one_format :
    (grantingEnv.Reliable ∧ PiecesFit 64 [.bool (longName 33) true] ∧
      encode grantingEnv (.bufFile [] 64) [.bool (longName 33) true] = none) ∧
    ((encode pipeEnv (.file []) []).map Encoder.document = some [0, 0, 0, 0, 0] ∧
      (encode pipeEnv (.bufFile [] 64) []).map Encoder.document = some [0, 0, 0, 0, 0] ∧
      (encode pipeEnv (.buf 64) []).map Encoder.document = some [5, 0, 0, 0, 0]) := by
  refine ⟨⟨grantingEnv_reliable,
    ⟨by decide, by decide⟩, by decide⟩, by decide, by decide, by decide⟩

end Bson
end DtPhm
