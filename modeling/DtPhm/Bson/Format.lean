import DtPhm.Bson.Encoder

/-!
# Format — the document that the encoders write

`documentOf` is the document of a list of appends, as bytes.  Whatever target an encoder writes to
and wherever its buffer happens to be flushed, the pieces it has accepted are, in order, what has
reached the file followed by what waits in the buffer (`Encoder.Holds`).
-/

namespace DtPhm
namespace Bson

open Lib

/-! ## The format -/

namespace Append

def name : Append → CString
  | bool name _ => name
  | int name _ => name
  | double name _ => name
  | string name _ => name
  | binary name _ _ => name

def type : Append → BsonType
  | bool _ _ => .bool
  | int _ value => if fitsInt32 value then .int32 else .int64
  | double _ _ => .double
  | string _ _ => .string
  | binary _ _ _ => .bindata

/-- The pieces that follow the name. -/
def payload : Append → List (List UInt8)
  | bool _ value => [[boolByte value]]
  | int _ value =>
      if fitsInt32 value then [int32Bytes (value.setWidth 32)] else [int64Bytes value]
  | double _ value => [int64Bytes value]
  | string _ text => [int32Bytes (BitVec.ofNat 32 text.bytes.length), text.bytes]
  | binary _ subtype data =>
      [int32Bytes (BitVec.ofNat 32 data.length), [subtype.toByte], data]

/-- All pieces of the node. -/
def pieces (a : Append) : List (List UInt8) := [a.type.toByte] :: a.name.bytes :: a.payload

def bytes (a : Append) : List UInt8 := a.pieces.flatten

end Append

/-- The nodes of a document. -/
def body (as : List Append) : List UInt8 := as.flatMap Append.bytes

/-- The number of bytes of a document: length, nodes, terminator. -/
def documentSize (as : List Append) : ℕ := 4 + (body as).length + 1

/-- The document of these appends, with its size recorded or not. -/
def documentOf (sized : Bool) (as : List Append) : List UInt8 :=
  int32Bytes (if sized then BitVec.ofNat 32 (documentSize as) else 0) ++ body as ++
    [BsonType.eoo.toByte]

@[simp] theorem length_documentOf (sized : Bool) (as : List Append) :
    (documentOf sized as).length = documentSize as := by
  simp [documentOf, documentSize, Nat.add_assoc]

@[simp] theorem body_cons (a : Append) (as : List Append) :
    body (a :: as) = a.bytes ++ body as := by
  simp [body]

theorem append_eq_appendNode (env : Env) (e : Encoder) (a : Append) :
    append env e a = appendNode env e a.type a.name a.payload := by
  cases a with
  | int name value =>
      by_cases hfits : fitsInt32 value <;>
        simp [append, bsonEncoderAppendInt, Append.type, Append.name, Append.payload, hfits]
  | bool name value => rfl
  | double name value => rfl
  | string name text => rfl
  | binary name subtype data => rfl

/-! ## Writing to a file -/

/-- The bytes `w`, and no others, have been written through the descriptor, from the start on. -/
structure Disk.Wrote (d : Disk) (w : List UInt8) : Prop where
  pos : d.pos = w.length
  upto : d.upto = w.length
  bytes : w <+: d.bytes

theorem Disk.wrote_opened (content : List UInt8) : (Disk.opened content).Wrote [] :=
  ⟨rfl, rfl, List.nil_prefix⟩

theorem Disk.Wrote.put {d : Disk} {w : List UInt8} (h : d.Wrote w) (bs : List UInt8) :
    (d.put bs).Wrote (w ++ bs) := by
  rcases h.bytes with ⟨rest, hrest⟩
  have htake : d.bytes.take d.pos = w := by
    rw [h.pos, ← hrest]
    exact List.take_left
  refine ⟨?_, ?_, ?_⟩
  · simp [Disk.put, h.pos]
  · simp [Disk.put, h.pos, h.upto]
  · exact ⟨d.bytes.drop (d.pos + bs.length), by simp [Disk.put, htake]⟩

theorem asInt_inj {m n : ℕ} (hm : m < 2 ^ 32) (hn : n < 2 ^ 32) (h : asInt m = asInt n) :
    m = n := by
  have hbits : BitVec.ofNat 32 m = BitVec.ofNat 32 n := BitVec.toInt_inj.1 h
  have hnat : m % 2 ^ 32 = n % 2 ^ 32 := by
    simpa using congrArg BitVec.toNat hbits
  omega

/-- The one full buffer that a failed write passes for: 2³² - 1 is the `int` -1. -/
theorem asInt_ne_neg_one {n : ℕ} (h : n + 1 < 2 ^ 32) : asInt n ≠ -1 := by
  intro heq
  have hsame : asInt n = asInt (2 ^ 32 - 1) := by
    rw [heq]
    decide
  have := asInt_inj (by omega) (by omega) hsame
  omega

theorem asInt_lt (n : ℕ) : asInt n < 2 ^ 31 := by
  have := BitVec.toInt_lt (x := BitVec.ofNat 32 n)
  simpa [asInt] using this

theorem asInt_of_lt {n : ℕ} (h : n < 2 ^ 31) : asInt n = n := by
  unfold asInt
  rw [BitVec.toInt_eq_toNat_of_lt]
  · simp only [BitVec.toNat_ofNat]
    omega
  · simp only [BitVec.toNat_ofNat]
    omega

@[simp] theorem ofInt_asInt (n : ℕ) : BitVec.ofInt 32 (asInt n) = BitVec.ofNat 32 n :=
  BitVec.ofInt_toInt

theorem Disk.Wrote.writeTo {env : Env} {d d' : Disk} {w bs : List UInt8} {ret : Int}
    (h : d.Wrote w) (hlen : bs.length + 1 < 2 ^ 32) (hret : env.writeTo d bs = (ret, d'))
    (hfull : ret = asInt bs.length) : d'.Wrote (w ++ bs) := by
  unfold Env.writeTo at hret
  split at hret
  · have := asInt_ne_neg_one hlen
    simp only [Prod.mk.injEq] at hret
    exact absurd (hfull.symm.trans hret.1.symm) this
  · rename_i n _
    simp only [Prod.mk.injEq] at hret
    have hn : min n bs.length = bs.length :=
      asInt_inj (by omega) (by omega) (hret.1.trans hfull)
    have htake : bs.take n = bs := List.take_of_length_le (by omega)
    rw [← hret.2, htake]
    exact h.put bs

/-- An answer that is compared with the number of bytes as a `size_t`. -/
theorem eq_asInt_of_eq_length {env : Env} {d d' : Disk} {bs : List UInt8} {ret : Int}
    (hret : env.writeTo d bs = (ret, d')) (hfull : ret = bs.length) :
    ret = asInt bs.length ∧ bs.length + 1 < 2 ^ 32 := by
  have hbound : ret < 2 ^ 31 := by
    unfold Env.writeTo at hret
    split at hret
    · simp only [Prod.mk.injEq] at hret
      omega
    · simp only [Prod.mk.injEq] at hret
      rw [← hret.1]
      exact asInt_lt _
  -- an `int` that equals the length is not negative
  have hsmall : bs.length < 2 ^ 31 := by omega
  exact ⟨hfull.trans (asInt_of_lt hsmall).symm, by omega⟩

/-! ## What an encoder has accepted -/

namespace Encoder

/-- A live encoder that has accepted the bytes `bs`. -/
structure Holds (e : Encoder) (bs : List UInt8) : Prop where
  alive : e.dead = false
  fits : e.bufpos ≤ e.bufsize
  disk : ∀ d, e.fd = some d → ∃ w, bs = w ++ e.staged ∧ d.Wrote w ∧
    e.totalDocumentSize = BitVec.ofNat 32 w.length
  memory : e.fd = none → e.staged = bs

/-- The kind of target and, for a file, the buffer size and whether there is a buffer. -/
structure SameTarget (e e' : Encoder) : Prop where
  isSome : e'.fd.isSome = e.fd.isSome
  bufsize : e.fd.isSome → e'.bufsize = e.bufsize
  buf : e.fd.isSome → e'.buf.isSome = e.buf.isSome

theorem SameTarget.rfl (e : Encoder) : SameTarget e e :=
  ⟨by simp, fun _ => by simp, fun _ => by simp⟩

theorem SameTarget.trans {e e' e'' : Encoder} (h : SameTarget e e') (h' : SameTarget e' e'') :
    SameTarget e e'' := by
  refine ⟨h'.isSome.trans h.isSome, ?_, ?_⟩
  · intro hfd
    exact (h'.bufsize (h.isSome ▸ hfd)).trans (h.bufsize hfd)
  · intro hfd
    exact (h'.buf (h.isSome ▸ hfd)).trans (h.buf hfd)

/-- A staging buffer that a failed write of all of it cannot pass for a full one. -/
def Stages (e : Encoder) (n : ℕ) : Prop := e.fd.isSome → e.bufsize + 1 < 2 ^ 32 ∨ n + 1 < 2 ^ 32

theorem Stages.mono {e : Encoder} {m n : ℕ} (h : e.Stages n) (hmn : m ≤ n) : e.Stages m := by
  intro hfd
  rcases h hfd with hsize | hn
  · exact Or.inl hsize
  · exact Or.inr (by omega)

theorem Stages.same {e e' : Encoder} {n : ℕ} (h : e.Stages n) (hsame : SameTarget e e') :
    e'.Stages n := by
  intro hfd
  have hfd' : e.fd.isSome := hsame.isSome ▸ hfd
  rw [hsame.bufsize hfd']
  exact h hfd'

theorem Holds.bufpos_le {e : Encoder} {bs : List UInt8} (h : e.Holds bs) :
    e.bufpos ≤ bs.length := by
  cases hfd : e.fd with
  | none => simp [Encoder.bufpos, h.memory hfd]
  | some d =>
      rcases h.disk d hfd with ⟨w, rfl, _, _⟩
      simp [Encoder.bufpos]

theorem Holds.staged_lt {e : Encoder} {bs : List UInt8} (h : e.Holds bs)
    (hstages : e.Stages bs.length) (hfd : e.fd.isSome) : e.staged.length + 1 < 2 ^ 32 := by
  have h₁ := h.fits
  have h₂ := h.bufpos_le
  unfold Encoder.bufpos at h₁ h₂
  rcases hstages hfd with hsize | hlen <;> omega

end Encoder

open Encoder

variable {env : Env}

theorem le_of_grow {need bufsize size : ℕ} (h : grow env need bufsize = (true, size)) :
    need ≤ size := by
  fun_induction grow env need bufsize with
  | case1 bufsize hle =>
      simp only [Prod.mk.injEq, true_and] at h
      omega
  | case2 bufsize hlt hrealloc ih => exact ih h
  | case3 bufsize hlt hrealloc => simp at h

theorem Encoder.Holds.makeRoom {e e' : Encoder} {bs : List UInt8} {s : ℕ} (h : e.Holds bs)
    (hbuf : e.fd.isSome → e.buf.isSome) (hstages : e.Stages bs.length)
    (hok : makeRoom env e s = (true, e')) :
    e'.Holds bs ∧ SameTarget e e' ∧ e'.bufpos + s ≤ e'.bufsize := by
  unfold Bson.makeRoom at hok
  split at hok
  · rename_i hroom
    simp only [Prod.mk.injEq, true_and] at hok
    subst hok
    exact ⟨h, SameTarget.rfl e, hroom⟩
  · split at hok
    · rename_i disk hfd
      -- a full staging buffer is written out
      have hsome : e.fd.isSome := by simp [hfd]
      rcases hw : env.writeTo disk e.staged with ⟨ret, disk'⟩
      rw [hw] at hok
      dsimp only at hok
      split at hok
      · rename_i hret
        split at hok
        · simp [Encoder.kill] at hok
        · rename_i hs
          simp only [Prod.mk.injEq, true_and] at hok
          subst hok
          rcases h.disk disk hfd with ⟨w, hbs, hwrote, htotal⟩
          have hwrote' := hwrote.writeTo (h.staged_lt hstages hsome) hw hret
          refine ⟨⟨h.alive, by simp [bufpos, staged], ?_, by simp⟩,
            ⟨by simp [hfd], fun _ => rfl, ?_⟩, ?_⟩
          · rintro d ⟨⟩
            -- everything accepted so far is now in the file
            refine ⟨w ++ e.staged, by simpa [staged] using hbs, hwrote', ?_⟩
            simp [htotal, hret, BitVec.ofNat_add, bufpos]
          · intro hfd'
            simp [hbuf hfd']
          · simpa [bufpos, staged] using hs
      · simp [Encoder.kill] at hok
    · rename_i hfd
      split at hok
      -- a buffer in memory grows
      · rcases hg : grow env (e.bufpos + s) e.bufsize with ⟨ok, size⟩
        rw [hg] at hok
        dsimp only at hok
        split at hok
        · rename_i hgrown
          simp only [Prod.mk.injEq, true_and] at hok
          subst hok hgrown
          have hneed := le_of_grow hg
          have hstaged : ({ e with buf := some e.staged, bufsize := size } : Encoder).staged =
            e.staged := rfl
          have hpos : e.bufpos = e.staged.length := rfl
          refine ⟨⟨h.alive, ?_, ?_, ?_⟩, ⟨rfl, by simp [hfd], by simp [hfd]⟩, ?_⟩
          · rw [bufpos, hstaged]
            show _ ≤ size
            omega
          · simp [hfd]
          · intro _
            exact h.memory hfd
          · rw [bufpos, hstaged]
            exact hneed
        · simp [Encoder.kill] at hok
      · simp [Encoder.kill] at hok

theorem Encoder.Holds.writeX {e e' : Encoder} {bs p : List UInt8} (h : e.Holds bs)
    (hstages : e.Stages bs.length) (hok : writeX env e p = (true, e')) :
    e'.Holds (bs ++ p) ∧ SameTarget e e' := by
  unfold Bson.writeX at hok
  rw [if_neg (by simp [h.alive])] at hok
  split at hok
  · rename_i disk hfd hbuf
    rcases hw : env.writeTo disk p with ⟨ret, disk'⟩
    rw [hw] at hok
    dsimp only at hok
    split at hok
    · rename_i hret
      simp only [Prod.mk.injEq, true_and] at hok
      subst hok
      -- a file without a buffer: every piece is written at once
      have hstaged : e.staged = [] := by simp [staged, hbuf]
      rcases h.disk disk hfd with ⟨w, hbs, hwrote, htotal⟩
      rw [hstaged, List.append_nil] at hbs
      subst hbs
      rcases eq_asInt_of_eq_length hw hret with ⟨hint, hlen⟩
      refine ⟨⟨h.alive, h.fits, ?_, by simp⟩, ⟨by simp [hfd], fun _ => rfl, fun _ => rfl⟩⟩
      rintro d ⟨⟩
      refine ⟨bs ++ p, ?_, hwrote.writeTo hlen hw hint, ?_⟩
      · simp [staged, hbuf]
      · simp [htotal, hint, BitVec.ofNat_add]
    · simp at hok
  · rename_i hnot
    split at hok
    · rename_i e₁ hroom
      simp only [Prod.mk.injEq, true_and] at hok
      subst hok
      -- otherwise the piece goes into a buffer
      have hbuf : e.fd.isSome → e.buf.isSome := by
        intro hfd
        rcases Option.isSome_iff_exists.1 hfd with ⟨disk, hdisk⟩
        cases hb : e.buf with
        | none => exact (hnot disk hdisk hb).elim
        | some b => rfl
      rcases h.makeRoom hbuf hstages hroom with ⟨h₁, hsame, hfits⟩
      refine ⟨⟨h₁.alive, ?_, ?_, ?_⟩, ⟨hsame.isSome, hsame.bufsize, ?_⟩⟩
      · simpa [bufpos, staged] using hfits
      · intro d hd
        rcases h₁.disk d hd with ⟨w, hbs, hwrote, htotal⟩
        exact ⟨w, by simp [hbs, staged], hwrote, htotal⟩
      · intro hfd
        simp [staged, ← h₁.memory hfd]
      · intro hfd
        simp [hbuf hfd]
    · simp at hok

theorem Encoder.Holds.writePieces {e e' : Encoder} {bs : List UInt8} {ps : List (List UInt8)}
    (h : e.Holds bs) (hstages : e.Stages (bs ++ ps.flatten).length)
    (hok : writePieces env e ps = (true, e')) :
    e'.Holds (bs ++ ps.flatten) ∧ SameTarget e e' := by
  induction ps generalizing e bs with
  | nil =>
      simp only [Bson.writePieces, Prod.mk.injEq, true_and] at hok
      subst hok
      simpa using And.intro h (SameTarget.rfl e)
  | cons p ps ih =>
      unfold Bson.writePieces at hok
      split at hok
      · rename_i e₁ hp
        rcases h.writeX (hstages.mono (by simp)) hp with ⟨h₁, hsame⟩
        have hstages₁ : e₁.Stages (bs ++ p ++ ps.flatten).length := by
          simpa using hstages.same hsame
        rcases ih h₁ hstages₁ hok with ⟨h₂, hsame₂⟩
        exact ⟨by simpa using h₂, hsame.trans hsame₂⟩
      · simp at hok

/-- An accepted node has a name of at most 32 bytes, and has been written piece by piece. -/
theorem writePieces_of_append {e e' : Encoder} {a : Append} (hok : append env e a = (true, e')) :
    a.name.chars.length ≤ bsonMaxname ∧ writePieces env e a.pieces = (true, e') := by
  rw [append_eq_appendNode] at hok
  unfold appendNode at hok
  split at hok
  · simp at hok
  · split at hok
    · simp [Encoder.kill] at hok
    · rename_i e₁ htype
      split at hok
      · simp [Encoder.kill] at hok
      · rename_i e₂ hname
        split at hok
        · simp [Encoder.kill] at hok
        · rename_i e₃ hpayload
          unfold writeName at hname
          split at hname
          · simp [Encoder.kill] at hname
          · rename_i hlen
            refine ⟨by omega, ?_⟩
            simp only [Append.pieces, writePieces, htype, hname, hpayload]
            exact hok

theorem Encoder.Holds.appendAll {e e' : Encoder} {bs : List UInt8} {as : List Append}
    (h : e.Holds bs) (hstages : e.Stages (bs ++ body as).length)
    (hok : appendAll env e as = some e') :
    e'.Holds (bs ++ body as) ∧ SameTarget e e' ∧
      ∀ a ∈ as, a.name.chars.length ≤ bsonMaxname := by
  induction as generalizing e bs with
  | nil =>
      simp only [Bson.appendAll, Option.some.injEq] at hok
      subst hok
      simpa [body] using And.intro h (SameTarget.rfl e)
  | cons a as ih =>
      unfold Bson.appendAll at hok
      split at hok
      · rename_i e₁ ha
        rcases writePieces_of_append ha with ⟨hname, hpieces⟩
        rw [body_cons] at hstages
        rcases h.writePieces (hstages.mono (by simp [Append.bytes])) hpieces with ⟨h₁, hsame⟩
        have hstages₁ : e₁.Stages (bs ++ a.pieces.flatten ++ body as).length := by
          simpa [Append.bytes] using hstages.same hsame
        rcases ih h₁ hstages₁ hok with ⟨h₂, hsame₂, hnames⟩
        refine ⟨by simpa [Append.bytes] using h₂, hsame.trans hsame₂, ?_⟩
        simpa using And.intro hname hnames
      · simp at hok

/-! ## Finishing -/

/-- All accepted bytes have reached their target. -/
structure Encoder.Flushed (e : Encoder) (bs : List UInt8) : Prop where
  disk : ∀ d, e.fd = some d → d.Wrote bs ∧ e.totalDocumentSize = BitVec.ofNat 32 bs.length
  memory : e.fd = none → e.staged = bs

theorem Encoder.Holds.flushLast {e e' : Encoder} {bs : List UInt8} (h : e.Holds bs)
    (hstages : e.Stages bs.length) (hok : flushLast env e = (true, e')) :
    e'.Flushed bs ∧ e'.fd.isSome = e.fd.isSome := by
  unfold Bson.flushLast at hok
  split at hok
  · rename_i disk b rest hfd hbuf
    rcases hw : env.writeTo disk (b :: rest) with ⟨ret, disk'⟩
    rw [hw] at hok
    dsimp only at hok
    split at hok
    · rename_i hret
      simp only [Prod.mk.injEq, true_and] at hok
      subst hok
      have hstaged : e.staged = b :: rest := by simp [staged, hbuf]
      have hlen := h.staged_lt hstages (by simp [hfd])
      rw [hstaged] at hlen
      rw [bufpos, hstaged] at hret
      rcases h.disk disk hfd with ⟨w, hbs, hwrote, htotal⟩
      rw [hstaged] at hbs
      subst hbs
      refine ⟨⟨?_, by simp⟩, by simp [hfd]⟩
      rintro d ⟨⟩
      refine ⟨hwrote.writeTo hlen hw hret, ?_⟩
      rw [hret, ofInt_asInt, htotal, List.length_append, BitVec.ofNat_add]
    · simp [Encoder.kill] at hok
  · rename_i hnot
    simp only [Prod.mk.injEq, true_and] at hok
    subst hok
    refine ⟨⟨?_, h.memory⟩, rfl⟩
    intro d hfd
    -- there was nothing left in the buffer
    have hstaged : e.staged = [] := by
      cases hb : e.buf with
      | none => simp [staged, hb]
      | some b =>
          cases b with
          | nil => simp [staged, hb]
          | cons b rest => exact (hnot d b rest hfd hb).elim
    rcases h.disk d hfd with ⟨w, hbs, hwrote, htotal⟩
    rw [hstaged, List.append_nil] at hbs
    subst hbs
    exact ⟨hwrote, htotal⟩

theorem Disk.Wrote.patch {d d' : Disk} {bs : List UInt8} {len : BitVec 32} {ret : Int}
    (h : d.Wrote bs) (hlen : 4 ≤ bs.length)
    (hw : env.writeTo { d with pos := 0 } (int32Bytes len) = (ret, d')) (hret : ret = 4) :
    d'.bytes.take d'.upto = int32Bytes len ++ bs.drop 4 := by
  unfold Env.writeTo at hw
  split at hw
  · simp only [Prod.mk.injEq] at hw
    omega
  · rename_i n _
    simp only [Prod.mk.injEq, length_int32Bytes] at hw
    -- the write reports four bytes, so that it has written four
    have hn : min n 4 = 4 := by
      have hint : asInt (min n 4) = asInt 4 := by
        rw [hw.1, hret]
        decide
      exact asInt_inj (by omega) (by omega) hint
    have htake : (int32Bytes len).take n = int32Bytes len :=
      List.take_of_length_le (by simp; omega)
    rw [htake] at hw
    rcases h.bytes with ⟨rest, hrest⟩
    have hbytes : d'.bytes = int32Bytes len ++ (bs.drop 4 ++ rest) := by
      rw [← hw.2, ← List.drop_append_of_le_length hlen, hrest]
      simp [Disk.put]
    -- the write at the start does not shorten the document
    have hupto : d'.upto = (int32Bytes len ++ bs.drop 4).length := by
      rw [← hw.2]
      simp [Disk.put, h.upto]
      omega
    rw [hbytes, hupto, ← List.append_assoc]
    exact List.take_left

/-- The document is what was accepted, its first four bytes replaced by the size where the target
allows it. -/
theorem Encoder.Flushed.recordSize {e e' : Encoder} {bs : List UInt8} (h : e.Flushed bs)
    (hlen : 4 ≤ bs.length) (hok : recordSize env e = (true, e')) :
    e'.document =
      (if env.lseek || e.fd.isNone then int32Bytes (BitVec.ofNat 32 bs.length) else bs.take 4) ++
        bs.drop 4 ∧ e'.fd.isSome = e.fd.isSome := by
  unfold Bson.recordSize at hok
  split at hok
  · rename_i disk hfd
    rcases h.disk disk hfd with ⟨hwrote, htotal⟩
    split at hok
    · rename_i hseek
      rcases hw : env.writeTo { disk with pos := 0 } (int32Bytes e.totalDocumentSize) with ⟨ret, d'⟩
      rw [hw] at hok
      dsimp only at hok
      split at hok
      · rename_i hret
        simp only [Prod.mk.injEq, true_and] at hok
        subst hok
        rw [htotal] at hw
        exact ⟨by simpa [Encoder.document, hseek] using hwrote.patch hlen hw hret, by simp [hfd]⟩
      · simp [Encoder.kill] at hok
    · rename_i hseek
      simp only [Prod.mk.injEq, true_and] at hok
      subst hok
      rcases hwrote.bytes with ⟨rest, hrest⟩
      -- a descriptor that cannot seek keeps the zero length
      exact ⟨by simp [Encoder.document, hfd, hseek, hwrote.upto, ← hrest], rfl⟩
  · rename_i hfd
    have hstaged := h.memory hfd
    split at hok
    · rename_i buf hbuf
      simp only [Prod.mk.injEq, true_and] at hok
      subst hok
      have : buf = bs := by simpa [staged, hbuf] using hstaged
      subst this
      exact ⟨by simp [Encoder.document, hfd, staged, bsonEncoderBufSize, bufpos, hbuf], rfl⟩
    · rename_i hbuf
      have : bs = [] := by simpa [staged, hbuf] using hstaged.symm
      simp [this] at hlen

theorem Encoder.Holds.fini {e e' : Encoder} {bs : List UInt8} (h : e.Holds bs)
    (hlen : 4 ≤ bs.length) (hstages : e.Stages (bs.length + 1))
    (hok : bsonEncoderFini env e = (true, e')) :
    e'.document =
      (if env.lseek || e.fd.isNone then int32Bytes (BitVec.ofNat 32 (bs.length + 1))
        else bs.take 4) ++ (bs.drop 4 ++ [BsonType.eoo.toByte]) ∧ e'.fd.isSome = e.fd.isSome := by
  unfold bsonEncoderFini at hok
  rw [if_neg (by simp [h.alive])] at hok
  split at hok
  · simp [Encoder.kill] at hok
  · rename_i e₁ heoo
    rcases h.writeX (hstages.mono (by omega)) heoo with ⟨h₁, hsame⟩
    split at hok
    · simp [Encoder.kill] at hok
    · rename_i e₂ hflush
      have hstages₁ : e₁.Stages (bs ++ [BsonType.eoo.toByte]).length := by
        simpa using hstages.same hsame
      rcases h₁.flushLast hstages₁ hflush with ⟨h₂, hsome⟩
      have hsome' : e₂.fd.isSome = e.fd.isSome := hsome.trans hsame.isSome
      have hnone : e₂.fd.isNone = e.fd.isNone := by
        rw [← Option.not_isSome, ← Option.not_isSome, hsome']
      rcases h₂.recordSize (by simp; omega) hok with ⟨hdocument, hfd⟩
      rw [hnone, List.take_append_of_le_length hlen,
        List.drop_append_of_le_length hlen] at hdocument
      exact ⟨by simpa using hdocument, hfd.trans hsome'⟩

/-! ## Whole runs -/

/-- A file target has a staging buffer that a failed write of all of it cannot pass for a full one,
or the document is too short to fill it. -/
def Target.Stages (t : Target) (n : ℕ) : Prop :=
  match t with
  | .bufFile _ bufsize => bufsize + 1 < 2 ^ 32 ∨ n + 1 < 2 ^ 32
  | _ => True

/-- The document size is recorded: in memory always, in a file when its descriptor can seek. -/
def Target.records (env : Env) : Target → Bool
  | .file _ => env.lseek
  | .bufFile _ _ => env.lseek
  | .buf _ => true
  | .growing => true

theorem Encoder.Holds.initLength {e e' : Encoder} (h : e.Holds []) (hstages : e.Stages 0)
    (hok : initLength env e = (true, e')) : e'.Holds (int32Bytes 0) ∧ SameTarget e e' := by
  unfold Bson.initLength at hok
  split at hok
  · rename_i e₁ hw
    simp only [Prod.mk.injEq, true_and] at hok
    subst hok
    simpa using h.writeX hstages hw
  · simp [Encoder.kill] at hok

/-- The encoder before the place of the length is written. -/
def Target.fresh (t : Target) : Encoder where
  fd := match t with
    | .file content => some (Disk.opened content)
    | .bufFile content _ => some (Disk.opened content)
    | .buf _ => none
    | .growing => none
  buf := match t with
    | .file _ => none
    | .bufFile _ _ => some []
    | .buf _ => some []
    | .growing => none
  bufsize := match t with
    | .bufFile _ bufsize => bufsize
    | .buf bufsize => bufsize
    | _ => 0
  reallocOk := t = .growing
  dead := false
  totalDocumentSize := 0

theorem start_eq_initLength (env : Env) (t : Target) : start env t = initLength env t.fresh := by
  cases t with
  | file content => rfl
  | bufFile content bufsize => rfl
  | buf bufsize => rfl
  | growing => rfl

theorem Target.holds_fresh (t : Target) : t.fresh.Holds [] := by
  have hstaged : t.fresh.staged = [] := by
    cases t <;> rfl
  refine ⟨rfl, by simp [bufpos, hstaged], ?_, fun _ => hstaged⟩
  intro d hd
  rw [hstaged]
  refine ⟨[], rfl, ?_, rfl⟩
  cases t with
  | file content =>
      cases hd
      exact Disk.wrote_opened content
  | bufFile content bufsize =>
      cases hd
      exact Disk.wrote_opened content
  | buf bufsize => cases hd
  | growing => cases hd

theorem Target.Stages.fresh {t : Target} {n : ℕ} (h : t.Stages n) : t.fresh.Stages n := by
  intro hfd
  cases t with
  | file content => exact Or.inl (by norm_num [Target.fresh])
  | bufFile content bufsize => exact h
  | buf bufsize => cases hfd
  | growing => cases hfd

theorem Target.records_eq (env : Env) (t : Target) :
    t.records env = (env.lseek || t.fresh.fd.isNone) := by
  cases t <;> simp [Target.records, Target.fresh]

/-- A successful run is a successful start, accepted appends and a successful finish. -/
theorem encode_eq_some {t : Target} {as : List Append} {e : Encoder} :
    encode env t as = some e ↔ ∃ e₁ e₂, start env t = (true, e₁) ∧ appendAll env e₁ as = some e₂ ∧
      bsonEncoderFini env e₂ = (true, e) := by
  unfold encode
  constructor
  · intro h
    split at h
    · simp at h
    · rename_i e₁ hstart
      split at h
      · simp at h
      · rename_i e₂ happend
        split at h
        · simp at h
        · rename_i e₃ hfini
          simp only [Option.some.injEq] at h
          subst h
          exact ⟨e₁, e₂, hstart, happend, hfini⟩
  · rintro ⟨e₁, e₂, hstart, happend, hfini⟩
    simp only [hstart, happend, hfini]

theorem holds_of_appendAll {t : Target} {as : List Append} {e₁ e₂ : Encoder}
    (hstages : t.Stages (documentSize as)) (hstart : start env t = (true, e₁))
    (happend : appendAll env e₁ as = some e₂) :
    e₂.Holds (int32Bytes 0 ++ body as) ∧ e₂.Stages (documentSize as) ∧
      e₂.fd.isSome = t.fresh.fd.isSome ∧ ∀ a ∈ as, a.name.chars.length ≤ bsonMaxname := by
  rw [start_eq_initLength] at hstart
  have hst : t.fresh.Stages (documentSize as) := hstages.fresh
  rcases t.holds_fresh.initLength (hst.mono (by omega)) hstart with ⟨h₁, hsame₁⟩
  rcases h₁.appendAll ((hst.same hsame₁).mono (by simp [documentSize])) happend with
    ⟨h₂, hsame₂, hnames⟩
  exact ⟨h₂, (hst.same hsame₁).same hsame₂, hsame₂.isSome.trans hsame₁.isSome, hnames⟩

/-- What a successful run of an encoder has produced, and what the names it took are. -/
theorem encode_document {t : Target} {as : List Append} {e : Encoder}
    (hstages : t.Stages (documentSize as)) (hok : encode env t as = some e) :
    e.document = documentOf (t.records env) as ∧
      ∀ a ∈ as, a.name.chars.length ≤ bsonMaxname := by
  rcases encode_eq_some.1 hok with ⟨e₁, e₂, hstart, happend, hfini⟩
  rcases holds_of_appendAll hstages hstart happend with ⟨h₂, hst₂, hsome, hnames⟩
  have hnone : e₂.fd.isNone = t.fresh.fd.isNone := by
    rw [← Option.not_isSome, ← Option.not_isSome, hsome]
  refine ⟨?_, hnames⟩
  rw [(h₂.fini (by simp) (by simpa [documentSize] using hst₂) hfini).1, hnone, ← Target.records_eq]
  cases t.records env <;> simp [documentOf, documentSize]

/-- The file of a buffered run begins with the document; what follows is what was there before. -/
theorem encode_bufFile_file {content : List UInt8} {bufsize : ℕ} {as : List Append} {e : Encoder}
    (hstages : (Target.bufFile content bufsize).Stages (documentSize as))
    (hok : encode env (.bufFile content bufsize) as = some e) :
    ∃ disk trailing, e.fd = some disk ∧ disk.bytes = e.document ++ trailing := by
  rcases encode_eq_some.1 hok with ⟨e₁, e₂, hstart, happend, hfini⟩
  rcases holds_of_appendAll hstages hstart happend with ⟨h₂, hst₂, hsome, _⟩
  have hfd : e.fd.isSome := by
    rw [(h₂.fini (by simp) (by simpa [documentSize] using hst₂) hfini).2, hsome]
    rfl
  rcases Option.isSome_iff_exists.1 hfd with ⟨disk, hdisk⟩
  refine ⟨disk, disk.bytes.drop disk.upto, hdisk, ?_⟩
  simp [Encoder.document, hdisk]

end Bson
end DtPhm
