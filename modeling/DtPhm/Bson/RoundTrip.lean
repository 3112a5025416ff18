import DtPhm.Bson.Decoder
import DtPhm.Bson.Agreement

/-!
# RoundTrip — the decoder reads back what the encoders wrote

One call of `bson_decoder_next` on a stream that goes on with the bytes of an append fills the node
with that append and leaves its payload pending (`next_append`).  A reader that keeps calling sees
the appends in order and then the end of the document, if every name leaves room for its terminating
zero in the node.
-/

namespace DtPhm
namespace Bson

open Lib

/-! ## Sources that have bytes to give -/

namespace Source

/-- The source goes on with exactly these bytes.  A buffer has been read from before: a read of all
of it at once would be refused. -/
def Offers : Source → List UInt8 → Prop
  | file unread, rest => unread = rest
  | buf bytes bufsize bufpos, rest =>
      bytes.length = bufsize ∧ 0 < bufpos ∧ bufpos ≤ bufsize ∧ bytes.drop bufpos = rest
  | none, _ => False

/-- The source after `n` bytes were read. -/
def advance (n : ℕ) : Source → Source
  | file unread => file (unread.drop n)
  | buf bytes bufsize bufpos => buf bytes bufsize (bufpos + n)
  | none => none

theorem advance_advance (m n : ℕ) (s : Source) : (s.advance m).advance n = s.advance (m + n) := by
  cases s with
  | file unread => simp [advance]
  | buf bytes bufsize bufpos => simp [advance, Nat.add_assoc]
  | none => rfl

theorem Offers.advance {s : Source} {bs rest : List UInt8} (h : s.Offers (bs ++ rest)) :
    (s.advance bs.length).Offers rest := by
  cases s with
  | file unread =>
      have : unread = bs ++ rest := h
      simp [Source.advance, Offers, this]
  | buf bytes bufsize bufpos =>
      rcases h with ⟨hsize, hpos, hle, hdrop⟩
      have hlen := congrArg List.length hdrop
      simp only [List.length_drop, List.length_append] at hlen
      refine ⟨hsize, by omega, by omega, ?_⟩
      rw [← List.drop_drop, hdrop]
      exact List.drop_left
  | none => exact h

end Source

namespace Decoder

/-- A live decoder whose source goes on with these bytes. -/
structure Fed (d : Decoder) (rest : List UInt8) : Prop where
  alive : d.dead = false
  offers : d.source.Offers rest

/-- The decoder after `n` bytes were read. -/
def advance (d : Decoder) (n : ℕ) : Decoder :=
  { d with
    source := d.source.advance n
    totalDecodedSize := d.totalDecodedSize + BitVec.ofNat 32 n }

theorem Fed.advance {d : Decoder} {bs rest : List UInt8} (h : d.Fed (bs ++ rest)) :
    (d.advance bs.length).Fed rest :=
  ⟨h.alive, h.offers.advance⟩

theorem Fed.advance_one {d : Decoder} {b : UInt8} {rest : List UInt8} (h : d.Fed (b :: rest)) :
    (d.advance 1).Fed rest := by
  have hone : d.Fed ([b] ++ rest) := h
  exact hone.advance

end Decoder

open Decoder

variable {d : Decoder} {rest : List UInt8}

theorem readX_of_fed {bs : List UInt8} (h : d.Fed (bs ++ rest)) (hlen : bs.length < 2 ^ 31) :
    readX d bs.length = (some bs, d.advance bs.length) := by
  have hoffers := h.offers
  unfold readX
  rw [if_neg (by simp [h.alive])]
  split
  · rename_i unread hsource
    rw [hsource] at hoffers
    have hunread : unread = bs ++ rest := hoffers
    -- `read` reports its count as an `int`, and the count is compared with the size as it is
    have hint : asInt (unread.take bs.length).length = bs.length := by
      rw [hunread, List.take_left]
      exact asInt_of_lt hlen
    simp only [hint, if_true]
    simp [hunread, Decoder.advance, Source.advance, hsource]
  · rename_i bytes bufsize bufpos hsource
    rw [hsource] at hoffers
    rcases hoffers with ⟨hsize, hpos, hle, hdrop⟩
    have htotal := congrArg List.length hdrop
    simp only [List.length_drop, List.length_append] at htotal
    -- the size is refused only as the whole of the buffer, and some of it has been read
    rw [if_neg (by omega), if_neg (by omega), hdrop, List.take_left]
    simp [Decoder.advance, Source.advance, hsource]
  · rename_i hsource
    rw [hsource] at hoffers
    exact hoffers.elim

theorem readInt8_of_fed {b : UInt8} (h : d.Fed (b :: rest)) :
    readInt8 d = (some b, d.advance 1) := by
  have hone : d.Fed ([b] ++ rest) := h
  have hread := readX_of_fed hone (by simp)
  rw [List.length_singleton] at hread
  simp [readInt8, hread, leValue]

theorem readInt32_of_fed {x : BitVec 32} (h : d.Fed (int32Bytes x ++ rest)) :
    readInt32 d = (some x, d.advance 4) := by
  have hread : readX d 4 = (some (int32Bytes x), d.advance 4) := by
    simpa using readX_of_fed h (by simp)
  have hvalue : leValue (int32Bytes x) = x.toNat := by
    rw [int32Bytes, leValue_leBytes]
    exact Nat.mod_eq_of_lt x.isLt
  simp [readInt32, hread, hvalue]

theorem readInt64_of_fed {x : BitVec 64} (h : d.Fed (int64Bytes x ++ rest)) :
    readInt64 d = (some x, d.advance 8) := by
  have hread : readX d 8 = (some (int64Bytes x), d.advance 8) := by
    simpa using readX_of_fed h (by simp)
  have hvalue : leValue (int64Bytes x) = x.toNat := by
    rw [int64Bytes, leValue_leBytes]
    exact Nat.mod_eq_of_lt x.isLt
  simp [readInt64, hread, hvalue]

/-! ## One node -/

namespace Append

/-- The part of the payload that the decoder reads by itself. -/
def fixed : Append → List UInt8
  | bool _ value => [boolByte value]
  | int _ value => if fitsInt32 value then int32Bytes (value.setWidth 32) else int64Bytes value
  | double _ value => int64Bytes value
  | string _ text => int32Bytes (BitVec.ofNat 32 text.bytes.length)
  | binary _ subtype data => int32Bytes (BitVec.ofNat 32 data.length) ++ [subtype.toByte]

/-- The part of the payload that stays pending. -/
def tail : Append → List UInt8
  | string _ text => text.bytes
  | binary _ _ data => data
  | _ => []

/-- The node's bytes up to the pending part. -/
def head (a : Append) : List UInt8 := a.type.toByte :: (a.name.bytes ++ a.fixed)

theorem bytes_eq (a : Append) : a.bytes = a.head ++ a.tail := by
  have hpayload : a.payload.flatten = a.fixed ++ a.tail := by
    cases a with
    | int name value => by_cases hfits : fitsInt32 value <;> simp [payload, fixed, tail, hfits]
    | bool name value => rfl
    | double name value => simp [payload, fixed, tail]
    | string name text => simp [payload, fixed, tail]
    | binary name subtype data => simp [payload, fixed, tail]
  simp [bytes, pieces, head, hpayload]

/-- The value, or the subtype, as the decoder stores it in the node. -/
def setValue (node : Node) : Append → Node
  | bool _ value => { node with value := .b value }
  | int _ value => { node with value := .i value }
  | double _ value => { node with value := .d value }
  | string _ _ => node
  | binary _ subtype _ => { node with subtype := subtype.toByte.toBitVec.signExtend 32 }

theorem ofByte_type (a : Append) : BsonType.ofByte a.type.toByte = a.type := by
  cases a with
  | int name value => by_cases hfits : fitsInt32 value <;> simp [type, hfits] <;> rfl
  | bool name value => rfl
  | double name value => rfl
  | string name text => rfl
  | binary name subtype data => rfl

theorem type_ne_eoo (a : Append) : a.type ≠ .eoo := by
  cases a with
  | int name value => by_cases hfits : fitsInt32 value <;> simp [type, hfits]
  | _ => simp [type]

end Append

theorem advance_zero (d : Decoder) : d.advance 0 = d := by
  rcases d with ⟨source, _, _, _, _, _, _⟩
  cases source <;> simp [Decoder.advance, Source.advance]

theorem discardPending_of_fed {p : List UInt8} (h : d.Fed (p ++ rest)) :
    discardPending p.length d =
      (true, { d.advance p.length with pending := d.pending - BitVec.ofNat 32 p.length }) := by
  induction p generalizing d with
  | nil => simp [discardPending, advance_zero]
  | cons b p ih =>
      have hnext : (d.advance 1).Fed (p ++ rest) := h.advance_one
      have hstep : ({ d.advance 1 with pending := d.pending - 1 } : Decoder).Fed (p ++ rest) :=
        ⟨hnext.alive, hnext.offers⟩
      have hread : readInt8 d = (some b, d.advance 1) := readInt8_of_fed h
      simp only [List.length_cons, discardPending, hread]
      refine (ih hstep).trans ?_
      have hsource : (d.source.advance 1).advance p.length = d.source.advance (p.length + 1) := by
        rw [Source.advance_advance, Nat.add_comm]
      -- the counters wrap, but they wrap alike in one step of `p.length + 1` and in its two parts
      have hpending : d.pending - 1 - BitVec.ofNat 32 p.length =
          d.pending - BitVec.ofNat 32 (p.length + 1) := by
        bv_omega
      have htotal : d.totalDecodedSize + BitVec.ofNat 32 1 + BitVec.ofNat 32 p.length =
          d.totalDecodedSize + BitVec.ofNat 32 (p.length + 1) := by
        bv_omega
      simp only [Decoder.advance, hsource, hpending, htotal]

theorem readNodeName_of_fed {name : List UInt8} (acc : List UInt8) {n : ℕ} (hnul : 0 ∉ name)
    (hn : name.length < n) (h : d.Fed (name ++ 0 :: rest)) :
    readNodeName n acc d =
      (true, { d.advance (name.length + 1) with node := { d.node with name := acc ++ name } }) := by
  induction name generalizing d acc n with
  | nil =>
      cases n with
      | zero => simp at hn
      | succ n => simp [readNodeName, readInt8_of_fed h, Decoder.advance]
  | cons b name ih =>
      cases n with
      | zero => simp at hn
      | succ n =>
          -- a zero would end the name here
          have hb : b ≠ 0 := by
            intro hzero
            exact hnul (by simp [hzero])
          have hnext : (d.advance 1).Fed (name ++ 0 :: rest) := h.advance_one
          have hread : readInt8 d = (some b, d.advance 1) := readInt8_of_fed h
          simp only [readNodeName, hread, hb, if_false]
          refine (ih _ (fun hmem => hnul (by simp [hmem])) (by simpa using hn) hnext).trans ?_
          simp [Decoder.advance, Source.advance_advance, Nat.add_comm, BitVec.ofNat_add,
            BitVec.add_assoc]

theorem readNodeValue_of_fed {a : Append} (htype : d.node.type = a.type) (hpending : d.pending = 0)
    (h : d.Fed (a.fixed ++ rest)) :
    readNodeValue d =
      (true, { d.advance a.fixed.length with
        node := a.setValue d.node, pending := BitVec.ofNat 32 a.tail.length }) := by
  unfold readNodeValue
  rw [htype]
  cases a with
  | bool name value =>
      have hread : readInt8 d = (some (boolByte value), d.advance 1) := readInt8_of_fed h
      have hflag : (boolByte value != 0) = value := by cases value <;> rfl
      simp [Append.type, hread, hflag, Append.setValue, Append.fixed, Append.tail, Decoder.advance,
        hpending]
  | int name value =>
      by_cases hfits : fitsInt32 value
      · have hread : readInt32 d = (some (value.setWidth 32), d.advance 4) := by
          have hbytes : d.Fed (int32Bytes (value.setWidth 32) ++ rest) := by
            simpa [Append.fixed, hfits] using h
          exact readInt32_of_fed hbytes
        -- the short form is chosen exactly for the values that it gives back
        have hvalue : (value.setWidth 32).signExtend 64 = value := by
          simpa [fitsInt32] using hfits
        simp [Append.type, hfits, hread, hvalue, Append.setValue, Append.fixed, Append.tail,
          Decoder.advance, hpending]
      · have hread : readInt64 d = (some value, d.advance 8) := by
          have hbytes : d.Fed (int64Bytes value ++ rest) := by
            simpa [Append.fixed, hfits] using h
          exact readInt64_of_fed hbytes
        simp [Append.type, hfits, hread, Append.setValue, Append.fixed, Append.tail,
          Decoder.advance, hpending]
  | double name value =>
      have hread : readInt64 d = (some value, d.advance 8) := readInt64_of_fed h
      simp [Append.type, hread, Append.setValue, Append.fixed, Append.tail, Decoder.advance,
        hpending]
  | string name text =>
      have hread : readInt32 d = (some (BitVec.ofNat 32 text.bytes.length), d.advance 4) :=
        readInt32_of_fed h
      simp [Append.type, hread, Append.setValue, Append.fixed, Append.tail, Decoder.advance]
  | binary name subtype data =>
      -- the subtype is read after the size is pending
      rw [Append.fixed, List.append_assoc] at h
      have hread : readInt32 d = (some (BitVec.ofNat 32 data.length), d.advance 4) :=
        readInt32_of_fed h
      have hnext : (d.advance 4).Fed (subtype.toByte :: rest) := by simpa using h.advance
      have hsub : ({ d.advance 4 with pending := BitVec.ofNat 32 data.length } : Decoder).Fed
          (subtype.toByte :: rest) := ⟨hnext.alive, hnext.offers⟩
      simp only [Append.type, hread]
      rw [readInt8_of_fed hsub]
      simp [Append.setValue, Append.fixed, Append.tail, Decoder.advance, Source.advance_advance,
        BitVec.add_assoc]

/-- The node as it stands after the append was read. -/
def Append.fill (a : Append) (node : Node) : Node :=
  a.setValue { node with name := a.name.chars, type := a.type }

theorem Append.fill_name (a : Append) (node : Node) : (a.fill node).name = a.name.chars := by
  cases a <;> rfl

theorem Append.fill_type (a : Append) (node : Node) : (a.fill node).type = a.type := by
  cases a <;> rfl

/-- A decoder between two nodes: what the reader left pending comes first. -/
structure Decoder.Between (d : Decoder) (rest : List UInt8) : Prop where
  fed : ∃ p : List UInt8, d.pending.toInt.toNat = p.length ∧ d.Fed (p ++ rest)
  nesting : d.nesting = 1
  type : d.node.type ≠ .eoo

/-- A decoder with the node of an append in it. -/
structure Decoder.At (d : Decoder) (a : Append) (rest : List UInt8) : Prop where
  fed : d.Fed (a.tail ++ rest)
  nesting : d.nesting = 1
  node : ∃ node, d.node = a.fill node
  pending : d.pending = BitVec.ofNat 32 a.tail.length

variable {σ : Type} {callback : σ → Decoder → Int × σ × Decoder} {priv : σ}

theorem next_of_between (h : d.Between rest) :
    bsonDecoderNext callback priv d =
      match readNode d with
      | (false, d) => (-1, priv, d)
      | (true, d) => callback priv d := by
  rcases h.fed with ⟨p, _, hfed⟩
  rcases hread : readNode d with ⟨ok, d'⟩
  cases ok <;> simp [bsonDecoderNext, hfed.alive, h.type, hread]

theorem readNode_append {a : Append} (h : d.Between (a.bytes ++ rest))
    (hname : a.name.chars.length < bsonMaxname) :
    ∃ d', readNode d = (true, d') ∧ d'.At a rest := by
  rcases h.fed with ⟨p, hp, hfed⟩
  -- the decoder after the discarding, after the type byte, after the name, after the value
  let d₁ : Decoder := { d.advance p.length with pending := d.pending - BitVec.ofNat 32 p.length }
  let d₂ : Decoder := { d₁.advance 1 with node := { d₁.node with type := a.type }, pending := 0 }
  let d₃ : Decoder :=
    { d₂.advance (a.name.chars.length + 1) with node := { d₂.node with name := a.name.chars } }
  let d₄ : Decoder := { d₃.advance a.fixed.length with
    node := a.setValue d₃.node, pending := BitVec.ofNat 32 a.tail.length }
  have hfed₁ : d₁.Fed (a.type.toByte :: (a.name.bytes ++ (a.fixed ++ (a.tail ++ rest)))) := by
    have := hfed.advance
    exact ⟨this.alive, by simpa [a.bytes_eq, Append.head] using this.offers⟩
  have hfed₂ : d₂.Fed (a.name.bytes ++ (a.fixed ++ (a.tail ++ rest))) := by
    have := hfed₁.advance_one
    exact ⟨this.alive, this.offers⟩
  have hfed₃ : d₃.Fed (a.fixed ++ (a.tail ++ rest)) := by
    have := hfed₂.advance
    exact ⟨this.alive, by simpa using this.offers⟩
  have hfed₄ : d₄.Fed (a.tail ++ rest) := by
    have := hfed₃.advance
    exact ⟨this.alive, this.offers⟩
  have hdiscard : discardPending d.pending.toInt.toNat d = (true, d₁) := by
    rw [hp]
    exact discardPending_of_fed hfed
  have htype : readInt8 d₁ = (some a.type.toByte, d₁.advance 1) := readInt8_of_fed hfed₁
  have hreadName : readNodeName bsonMaxname [] d₂ = (true, d₃) := by
    have hbytes : d₂.Fed (a.name.chars ++ 0 :: (a.fixed ++ (a.tail ++ rest))) := by
      simpa [CString.bytes] using hfed₂
    simpa using readNodeName_of_fed [] a.name.noNul hname hbytes
  have hvalue : readNodeValue d₃ = (true, d₄) := readNodeValue_of_fed rfl rfl hfed₃
  refine ⟨d₄, ?_, ⟨hfed₄, h.nesting, ⟨d.node, rfl⟩, rfl⟩⟩
  simp only [readNode, hdiscard, htype, Append.ofByte_type, a.type_ne_eoo, if_false]
  show (match readNodeName bsonMaxname [] d₂ with
    | (false, d) => d.kill
    | (true, d) => readNodeValue d) = _
  rw [hreadName]
  exact hvalue

theorem next_append (callback : σ → Decoder → Int × σ × Decoder) (priv : σ) {a : Append}
    (h : d.Between (a.bytes ++ rest)) (hname : a.name.chars.length < bsonMaxname) :
    ∃ d', d'.At a rest ∧ bsonDecoderNext callback priv d = callback priv d' := by
  rcases readNode_append h hname with ⟨d', hread, hat⟩
  exact ⟨d', hat, by rw [next_of_between h, hread]⟩

/-- The end of the document is a node too: the callback sees it, and the call after it reports the
end of the document. -/
theorem next_eoo (callback : σ → Decoder → Int × σ × Decoder) (priv : σ)
    (h : d.Between (BsonType.eoo.toByte :: rest)) :
    ∃ d', d'.dead = false ∧ d'.nesting = 1 ∧ d'.node.type = .eoo ∧ d'.node.name = [] ∧
      d'.pending = 0 ∧ d'.Fed rest ∧ bsonDecoderNext callback priv d = callback priv d' := by
  rcases h.fed with ⟨p, hp, hfed⟩
  let d₁ : Decoder := { d.advance p.length with pending := d.pending - BitVec.ofNat 32 p.length }
  let d₂ : Decoder :=
    { d₁.advance 1 with node := { d₁.node with type := .eoo, name := [] }, pending := 0 }
  have hfed₁ : d₁.Fed (BsonType.eoo.toByte :: rest) := by
    have := hfed.advance
    exact ⟨this.alive, this.offers⟩
  have hfed₂ : d₂.Fed rest := by
    have := hfed₁.advance_one
    exact ⟨this.alive, this.offers⟩
  have hdiscard : discardPending d.pending.toInt.toNat d = (true, d₁) := by
    rw [hp]
    exact discardPending_of_fed hfed
  have hread : readNode d = (true, d₂) := by
    simp only [readNode, hdiscard, readInt8_of_fed hfed₁]
    rfl
  exact ⟨d₂, hfed₂.alive, h.nesting, rfl, rfl, rfl, hfed₂, by rw [next_of_between h, hread]⟩

theorem next_after_eoo (callback : σ → Decoder → Int × σ × Decoder) (priv : σ)
    (halive : d.dead = false) (hnesting : d.nesting = 1) (htype : d.node.type = .eoo) :
    ∃ d', bsonDecoderNext callback priv d = (0, priv, d') := by
  cases hsource : d.source <;> simp [bsonDecoderNext, halive, htype, hnesting, hsource]

/-! ## Calling on -/

/-- The loop around `bson_decoder_next`: call while the result is positive.  The first argument
bounds the number of calls. -/
def nextLoop (callback : σ → Decoder → Int × σ × Decoder) : ℕ → σ → Decoder → Int × σ × Decoder
  | 0, priv, d => (1, priv, d)
  | n + 1, priv, d =>
      match bsonDecoderNext callback priv d with
      | (result, priv, d) => if result > 0 then nextLoop callback n priv d else (result, priv, d)

/-- A callback that lets the loop go on after each of the appends takes them one by one. -/
theorem nextLoop_body (callback : σ → Decoder → Int × σ × Decoder) (priv : σ)
    (step : σ → Append → σ) {as : List Append} (n : ℕ)
    (hnames : ∀ a ∈ as, a.name.chars.length < bsonMaxname)
    (hcallback : ∀ a ∈ as, ∀ priv d rest, d.At a rest →
      ∃ d', callback priv d = (1, step priv a, d') ∧ d'.Between rest)
    (h : d.Between (body as ++ rest)) :
    ∃ d', d'.Between rest ∧
      nextLoop callback (as.length + n) priv d = nextLoop callback n (as.foldl step priv) d' := by
  induction as generalizing d priv with
  | nil => exact ⟨d, by simpa [body] using h, by simp⟩
  | cons a as ih =>
      rw [body_cons, List.append_assoc] at h
      rcases next_append callback priv h (hnames a (by simp)) with
        ⟨d₁, hat, hnext⟩
      -- the callback sees the append, and leaves the decoder where the next node starts
      rcases hcallback a (by simp) priv d₁ _ hat with ⟨d₂, hcall, hbetween⟩
      rcases ih (step priv a) (fun b hb => hnames b (by simp [hb]))
        (fun b hb => hcallback b (by simp [hb])) hbetween with ⟨d', hd', hloop⟩
      refine ⟨d', hd', ?_⟩
      have hlen : (a :: as).length + n = as.length + n + 1 := by simp; omega
      rw [hlen, nextLoop, hnext, hcall]
      simpa using hloop

/-! ## A reader -/

/-- What a reader sees of a node: name, type, the value where the type has one, the number of
pending bytes, and these bytes where it copies them. -/
structure Seen where
  name : List UInt8
  type : BsonType
  value : Option NodeValue
  pending : BitVec 32
  data : Option (List UInt8)
  deriving DecidableEq, Repr

/-- The member of the union that belongs to the type. -/
def Node.typedValue (node : Node) : Option NodeValue :=
  match node.type with
  | .bool => some node.value
  | .int32 => some node.value
  | .int64 => some node.value
  | .double => some node.value
  | _ => none

def Decoder.see (d : Decoder) (data : Option (List UInt8)) : Seen where
  name := d.node.name
  type := d.node.type
  value := d.node.typedValue
  pending := d.pending
  data := data

/-- A callback that notes every node, and copies the payload of the `k`-th one if `copies k`.  The
callback is the last thing that `bson_decoder_next` does, so a copy made after the call is the
same. -/
def note (copies : ℕ → Bool) (log : List Seen) (d : Decoder) : Int × List Seen × Decoder :=
  if copies log.length then
    match bsonDecoderCopyData d with
    | (data, d') => (1, log ++ [d.see data], d')
  else
    (1, log ++ [d.see none], d)

/-- What the reader is to see of an append. -/
def Append.seen (a : Append) (copied : Bool) : Seen where
  name := a.name.chars
  type := a.type
  value := match a with
    | .bool _ value => some (.b value)
    | .int _ value => some (.i value)
    | .double _ value => some (.d value)
    | .string _ _ => none
    | .binary _ _ _ => none
  pending := BitVec.ofNat 32 a.tail.length
  data := if copied then some a.tail else none

/-- What the reader is to see of the end of the document. -/
def seenEoo (copied : Bool) : Seen where
  name := []
  type := .eoo
  value := none
  pending := 0
  data := if copied then some [] else none

/-- What the reader is to see of a document. -/
def seenOf (copies : ℕ → Bool) (as : List Append) : List Seen :=
  let log := as.foldl (fun log a => log ++ [a.seen (copies log.length)]) []
  log ++ [seenEoo (copies log.length)]

theorem Append.typedValue_fill (a : Append) (node : Node) (copied : Bool) :
    (a.fill node).typedValue = (a.seen copied).value := by
  cases a with
  | int name value => by_cases hfits : fitsInt32 value <;>
      simp [Append.fill, Append.setValue, Append.type, Append.seen, Node.typedValue, hfits]
  | _ => rfl

theorem toNat_toInt_ofNat {n : ℕ} (h : n < 2 ^ 31) : (BitVec.ofNat 32 n).toInt.toNat = n := by
  have : (BitVec.ofNat 32 n).toInt = n := asInt_of_lt h
  simp [this]

theorem toNat_signExtend_ofNat {n : ℕ} (h : n < 2 ^ 31) :
    ((BitVec.ofNat 32 n).signExtend 64).toNat = n := by
  have hint : ((BitVec.ofNat 32 n).signExtend 64).toInt = n := by
    rw [BitVec.toInt_signExtend_of_le (by decide)]
    exact asInt_of_lt h
  have hcond := BitVec.toInt_eq_toNat_cond ((BitVec.ofNat 32 n).signExtend 64)
  split at hcond <;> omega

theorem copyData_of_fed {p : List UInt8} (h : d.Fed (p ++ rest))
    (hpending : d.pending = BitVec.ofNat 32 p.length) (hp : p.length < 2 ^ 31) :
    bsonDecoderCopyData d = (some p, { d.advance p.length with pending := 0 }) := by
  unfold bsonDecoderCopyData
  rw [if_neg (by simp [h.alive]), hpending, toNat_signExtend_ofNat hp, readX_of_fed h hp]

theorem note_append (copies : ℕ → Bool) {a : Append} {log : List Seen} (h : d.At a rest)
    (hp : a.tail.length < 2 ^ 31) :
    ∃ d', note copies log d = (1, log ++ [a.seen (copies log.length)], d') ∧ d'.Between rest := by
  rcases h.node with ⟨node, hnode⟩
  have hsee : ∀ data, d.see data = { a.seen true with data := data } := by
    intro data
    simp [Decoder.see, Append.seen, hnode, a.fill_name, a.fill_type, a.typedValue_fill node true,
      h.pending]
  have htype : d.node.type ≠ .eoo := by
    rw [hnode, a.fill_type]
    exact a.type_ne_eoo
  unfold note
  split
  · rename_i hcopy
    -- the payload is taken: nothing is pending
    rw [copyData_of_fed h.fed h.pending hp]
    refine ⟨{ d.advance a.tail.length with pending := 0 }, ?_, ⟨⟨[], rfl, ?_⟩, h.nesting, htype⟩⟩
    · simp [hsee, Append.seen, hcopy]
    · have := h.fed.advance
      exact ⟨this.alive, this.offers⟩
  · rename_i hcopy
    -- the payload is left to the next call, which skips it
    refine ⟨d, ?_, ⟨⟨a.tail, ?_, h.fed⟩, h.nesting, htype⟩⟩
    · simp [hsee, Append.seen, hcopy]
    · rw [h.pending]
      exact toNat_toInt_ofNat hp

/-! ## Whole documents -/

/-- A document is read from a file, where other bytes may follow it, or from a buffer of its
size. -/
inductive Origin where
  | file (trailing : List UInt8)
  | buf
  deriving DecidableEq, Repr

def Origin.trailing : Origin → List UInt8
  | file trailing => trailing
  | buf => []

def startDecoder (doc : List UInt8) : Origin → Bool × Decoder
  | .file trailing => bsonDecoderInitFile (doc ++ trailing)
  | .buf => bsonDecoderInitBuf doc doc.length

/-- Reading the document gives back the appends: the recorded size is the number of bytes, and the
reader sees the nodes in order and then the end of the document. -/
def ReadsBack (origin : Origin) (copies : ℕ → Bool) (as : List Append) (doc : List UInt8) : Prop :=
  ∃ d₀, startDecoder doc origin = (true, d₀) ∧ d₀.totalDocumentSize.toInt = doc.length ∧
    ∃ d, nextLoop (note copies) (as.length + 2) [] d₀ = (0, seenOf copies as, d)

theorem readInt32_buf {x : BitVec 32} {tl : List UInt8} (htl : tl ≠ []) :
    readInt32 (freshDecoder (.buf (int32Bytes x ++ tl) (int32Bytes x ++ tl).length 0)) =
      (some x,
        (freshDecoder (.buf (int32Bytes x ++ tl) (int32Bytes x ++ tl).length 0)).advance 4) := by
  have hlen : 0 < tl.length := List.length_pos_iff.2 htl
  have hvalue : leValue (int32Bytes x) = x.toNat := by
    rw [int32Bytes, leValue_leBytes]
    exact Nat.mod_eq_of_lt x.isLt
  have htake : (int32Bytes x ++ tl).take 4 = int32Bytes x := by
    rw [← length_int32Bytes x]
    exact List.take_left
  have hroom : ¬4 + tl.length ≤ 4 := by omega
  simp [readInt32, readX, freshDecoder, hroom, htake, hvalue, Decoder.advance, Source.advance]

theorem initFile_of_bytes (x : BitVec 32) (rest : List UInt8) :
    ∃ d₀, bsonDecoderInitFile (int32Bytes x ++ rest) = (true, d₀) ∧ d₀.totalDocumentSize = x ∧
      d₀.Between rest := by
  have hfed : (freshDecoder (.file (int32Bytes x ++ rest))).Fed (int32Bytes x ++ rest) := ⟨rfl, rfl⟩
  have hnext := hfed.advance
  rw [length_int32Bytes] at hnext
  let d₀ : Decoder :=
    { (freshDecoder (.file (int32Bytes x ++ rest))).advance 4 with totalDocumentSize := x }
  have hbetween : d₀.Between rest :=
    ⟨⟨[], rfl, hnext.alive, hnext.offers⟩, rfl, by simp [d₀, freshDecoder, Decoder.advance]⟩
  refine ⟨d₀, ?_, rfl, hbetween⟩
  simp only [bsonDecoderInitFile, readInt32_of_fed hfed]
  rfl

/-- What a decoder is started to: the recorded size in hand, and the nodes to come.  A buffer is
refused when the recorded size is larger. -/
theorem startDecoder_cases (x : BitVec 32) (tl : List UInt8) (htl : tl ≠ []) (origin : Origin) :
    ∃ d₀, d₀.totalDocumentSize = x ∧ d₀.Between (tl ++ origin.trailing) ∧
      (startDecoder (int32Bytes x ++ tl) origin = (true, d₀) ∨
        x.toInt > asInt (int32Bytes x ++ tl).length ∧
          startDecoder (int32Bytes x ++ tl) origin = d₀.kill) := by
  cases origin with
  | file trailing =>
      rcases initFile_of_bytes x (tl ++ trailing) with ⟨d₀, hinit, htotal, hbetween⟩
      refine ⟨d₀, htotal, hbetween, Or.inl ?_⟩
      simpa [startDecoder] using hinit
  | buf =>
      have hread := readInt32_buf (x := x) htl
      have hne : (int32Bytes x ++ tl).length ≠ 0 := by simp
      let d₀ : Decoder :=
        { (freshDecoder (.buf (int32Bytes x ++ tl) (int32Bytes x ++ tl).length 0)).advance 4 with
          totalDocumentSize := x }
      have hbetween : d₀.Between (tl ++ Origin.buf.trailing) := by
        refine ⟨⟨[], rfl, rfl, ?_⟩, rfl, by simp [d₀, freshDecoder, Decoder.advance]⟩
        refine ⟨rfl, by simp, by simp, ?_⟩
        simp [Origin.trailing]
      refine ⟨d₀, rfl, hbetween, ?_⟩
      -- only a buffer knows its size before the document is read
      simp only [startDecoder, bsonDecoderInitBuf, hne, if_false, hread]
      split
      · rename_i hlarge
        exact Or.inr ⟨hlarge.2, rfl⟩
      · exact Or.inl rfl

theorem nextLoop_document (copies : ℕ → Bool) {as : List Append} {trailing : List UInt8}
    (hnames : ∀ a ∈ as, a.name.chars.length < bsonMaxname)
    (htails : ∀ a ∈ as, a.tail.length < 2 ^ 31)
    (h : d.Between (body as ++ [BsonType.eoo.toByte] ++ trailing)) :
    ∃ d', nextLoop (note copies) (as.length + 2) [] d = (0, seenOf copies as, d') := by
  rw [List.append_assoc] at h
  rcases nextLoop_body (note copies) [] (fun log a => log ++ [a.seen (copies log.length)]) 2 hnames
      (fun a ha log d rest hat => note_append copies hat (htails a ha)) h with ⟨d₁, h₁, hloop⟩
  rw [hloop]
  set log := as.foldl (fun log a => log ++ [a.seen (copies log.length)]) [] with hlog
  rcases next_eoo (note copies) log h₁ with
    ⟨d₂, halive, hnesting, htype, hname, hpending, hfed, hnext⟩
  have hsee : ∀ data, d₂.see data = { seenEoo true with data := data } := by
    intro data
    simp [Decoder.see, seenEoo, htype, hname, hpending, Node.typedValue]
  -- whether or not the reader asks for the payload of the end, it gets no bytes
  have hnote : ∃ d₃, note copies log d₂ = (1, log ++ [seenEoo (copies log.length)], d₃) ∧
      d₃.dead = false ∧ d₃.nesting = 1 ∧ d₃.node.type = .eoo := by
    unfold note
    split
    · rename_i hcopy
      have hcopied := copyData_of_fed (p := []) (by simpa using hfed) hpending (by simp)
      refine ⟨{ d₂.advance 0 with pending := 0 }, ?_, halive, hnesting, htype⟩
      rw [hcopied]
      simp [hsee, seenEoo, hcopy]
    · rename_i hcopy
      exact ⟨d₂, by simp [hsee, seenEoo, hcopy], halive, hnesting, htype⟩
  rcases hnote with ⟨d₃, hnote, halive₃, hnesting₃, htype₃⟩
  rcases next_after_eoo (note copies)
    (log ++ [seenEoo (copies log.length)]) halive₃ hnesting₃ htype₃ with ⟨d₄, hend⟩
  refine ⟨d₄, ?_⟩
  simp [nextLoop, hnext, hnote, hend, seenOf, ← hlog]

/-! ## Names that do not fit -/

theorem name_lt_of_readNodeName {n : ℕ} {acc : List UInt8} {d d' : Decoder}
    (h : readNodeName n acc d = (true, d')) : d'.node.name.length < acc.length + n := by
  induction n generalizing acc d with
  -- all the room was used up before a zero came
  | zero => simp [readNodeName, Decoder.kill] at h
  | succ n ih =>
      unfold readNodeName at h
      split at h
      · simp [Decoder.kill] at h
      · split at h
        · simp only [Prod.mk.injEq, true_and] at h
          rw [← h]
          simp
        · have := ih h
          simp only [List.length_append, List.length_singleton] at this
          omega

@[simp] theorem readX_node (d : Decoder) (s : ℕ) : (readX d s).2.node = d.node := by
  unfold readX
  split
  · rfl
  · split
    · dsimp only
      split <;> rfl
    · split
      · rfl
      · split <;> rfl
    · rfl

theorem readInt8_node {d d' : Decoder} {b : Option UInt8} (h : readInt8 d = (b, d')) :
    d'.node = d.node := by
  have hnode := readX_node d 1
  unfold readInt8 at h
  split at h <;> simp_all

theorem readInt32_node {d d' : Decoder} {x : Option (BitVec 32)} (h : readInt32 d = (x, d')) :
    d'.node = d.node := by
  have hnode := readX_node d 4
  unfold readInt32 at h
  split at h <;> simp_all

theorem readInt64_node {d d' : Decoder} {x : Option (BitVec 64)} (h : readInt64 d = (x, d')) :
    d'.node = d.node := by
  have hnode := readX_node d 8
  unfold readInt64 at h
  split at h <;> simp_all

theorem readNodeValue_name {d d' : Decoder} (h : readNodeValue d = (true, d')) :
    d'.node.name = d.node.name := by
  unfold readNodeValue at h
  split at h
  -- binary data takes two reads, an unknown type none, the others one
  case h_7 => simp [Decoder.kill] at h
  case h_6 =>
    split at h
    · rename_i hsize
      split at h
      · rename_i hsub
        simp only [Prod.mk.injEq, true_and] at h
        rw [← h]
        have hsame := readInt32_node hsize
        have hsame' := readInt8_node hsub
        simp_all
      · simp [Decoder.kill] at h
    · simp [Decoder.kill] at h
  all_goals
    split at h
    all_goals grind [readInt8_node, readInt32_node, readInt64_node, Decoder.kill]

theorem name_lt_of_readNode {d d' : Decoder} (h : readNode d = (true, d')) :
    d'.node.name.length < bsonMaxname := by
  unfold readNode at h
  split at h
  · simp [Decoder.kill] at h
  · split at h
    · simp [Decoder.kill] at h
    · dsimp only at h
      split at h
      · simp only [Prod.mk.injEq, true_and] at h
        rw [← h]
        simp [bsonMaxname]
      · split at h
        · simp [Decoder.kill] at h
        · rename_i hname
          rw [readNodeValue_name h]
          simpa using name_lt_of_readNodeName hname

/-- A call hands a node that was read to the callback, or leaves the private data alone. -/
theorem next_cases {priv' : σ} {d' : Decoder} {result : Int}
    (h : bsonDecoderNext callback priv d = (result, priv', d')) :
    priv' = priv ∨ ∃ d₁ d₂, readNode d₁ = (true, d₂) ∧ callback priv d₂ = (result, priv', d') := by
  unfold bsonDecoderNext at h
  split at h
  · exact Or.inl (by simp_all)
  -- leaving a level changes the nesting only
  · generalize (if d.node.type = .eoo then { d with nesting := d.nesting - 1 } else d) = d₁ at h
    dsimp only at h
    split at h
    · split at h <;> exact Or.inl (by simp_all)
    · rcases hread : readNode d₁ with ⟨ok, d₂⟩
      rw [hread] at h
      cases ok with
      | false => exact Or.inl (by simp_all)
      | true => exact Or.inr ⟨d₁, d₂, hread, h⟩

theorem note_log (copies : ℕ → Bool) (log : List Seen) (d : Decoder) :
    ∃ data, (note copies log d).2.1 = log ++ [d.see data] := by
  unfold note
  split
  · exact ⟨_, rfl⟩
  · exact ⟨_, rfl⟩

theorem names_lt_of_nextLoop (copies : ℕ → Bool) {n : ℕ} {log log' : List Seen} {d d' : Decoder}
    {result : Int} (h : nextLoop (note copies) n log d = (result, log', d'))
    (hlog : ∀ s ∈ log, s.name.length < bsonMaxname) :
    ∀ s ∈ log', s.name.length < bsonMaxname := by
  induction n generalizing log d with
  | zero =>
      simp only [nextLoop, Prod.mk.injEq] at h
      rw [← h.2.1]
      exact hlog
  | succ n ih =>
      rcases hnext : bsonDecoderNext (note copies) log d with ⟨r, log₁, d₁⟩
      have hlog₁ : ∀ s ∈ log₁, s.name.length < bsonMaxname := by
        rcases next_cases hnext with rfl | ⟨d₂, d₃, hread, hnote⟩
        · exact hlog
        · rcases note_log copies log d₃ with ⟨data, hdata⟩
          rw [hnote] at hdata
          dsimp only at hdata
          rw [hdata]
          intro s hs
          rcases List.mem_append.1 hs with hold | hnew
          · exact hlog s hold
          · rw [List.mem_singleton.1 hnew]
            exact name_lt_of_readNode hread
      simp only [nextLoop, hnext] at h
      split at h
      · exact ih h hlog₁
      · simp only [Prod.mk.injEq] at h
        rw [← h.2.1]
        exact hlog₁

/-- The fold of `seenOf` keeps what it has noted, and notes every append. -/
theorem mem_foldl_seen (copies : ℕ → Bool) (as : List Append) : ∀ log : List Seen,
    (∀ s ∈ log, s ∈ as.foldl (fun log a => log ++ [a.seen (copies log.length)]) log) ∧
      ∀ a ∈ as, ∃ copied,
        a.seen copied ∈ as.foldl (fun log a => log ++ [a.seen (copies log.length)]) log := by
  induction as with
  | nil => simp
  | cons b as ih =>
      intro log
      rcases ih (log ++ [b.seen (copies log.length)]) with ⟨hkeep, hall⟩
      refine ⟨fun s hs => hkeep s (by simp [hs]), ?_⟩
      intro a ha
      rcases List.mem_cons.1 ha with rfl | ha
      · exact ⟨copies log.length, hkeep _ (by simp)⟩
      · exact hall a ha

theorem seen_mem_seenOf (copies : ℕ → Bool) {as : List Append} {a : Append} (ha : a ∈ as) :
    ∃ copied, a.seen copied ∈ seenOf copies as := by
  rcases (mem_foldl_seen copies as []).2 a ha with ⟨copied, hmem⟩
  exact ⟨copied, by simp [seenOf, hmem]⟩

theorem ReadsBack.names_lt {origin : Origin} {copies : ℕ → Bool} {as : List Append}
    {doc : List UInt8} (h : ReadsBack origin copies as doc) :
    ∀ a ∈ as, a.name.chars.length < bsonMaxname := by
  rcases h with ⟨d₀, _, _, d, hloop⟩
  intro a ha
  rcases seen_mem_seenOf copies ha with ⟨copied, hmem⟩
  exact names_lt_of_nextLoop copies hloop (by simp) _ hmem

/-! ## The round trip -/

theorem Append.tail_lt {as : List Append} {a : Append} (ha : a ∈ as)
    (hsize : documentSize as < 2 ^ 31) : a.tail.length < 2 ^ 31 := by
  have hbytes : a.bytes.length ≤ (body as).length := by
    induction as with
    | nil => simp at ha
    | cons b as ih =>
        rw [body_cons, List.length_append]
        rcases List.mem_cons.1 ha with rfl | ha
        · omega
        · have :=
            ih ha (by simp only [documentSize, body_cons, List.length_append] at hsize ⊢; omega)
          omega
  rw [a.bytes_eq, List.length_append] at hbytes
  unfold documentSize at hsize
  omega

/-- The document reads back exactly when its size was recorded, the size fits an `int32_t`, and
every name leaves room for its terminating zero in a node. -/
theorem readsBack_documentOf_iff (sized : Bool) (as : List Append) (origin : Origin)
    (copies : ℕ → Bool) :
    ReadsBack origin copies as (documentOf sized as) ↔
      sized ∧ documentSize as < 2 ^ 31 ∧ ∀ a ∈ as, a.name.chars.length < bsonMaxname := by
  have hdoc : documentOf sized as =
      int32Bytes (if sized then BitVec.ofNat 32 (documentSize as) else 0) ++
        (body as ++ [BsonType.eoo.toByte]) := List.append_assoc ..
  set x : BitVec 32 := if sized then BitVec.ofNat 32 (documentSize as) else 0 with hx
  rcases startDecoder_cases x (body as ++ [BsonType.eoo.toByte]) (by simp) origin with
    ⟨d₀, htotal, hbetween, hstart⟩
  rw [← hdoc] at hstart
  have hlength := length_documentOf sized as
  have hfive : 5 ≤ documentSize as := by
    unfold documentSize
    omega
  constructor
  · intro h
    -- the size read back is the one recorded, so that it was recorded and is an `int32_t`
    refine ⟨?_, ?_, h.names_lt⟩ <;> rcases h with ⟨d, hd, hsize, _⟩
    all_goals
      have hd₀ : d = d₀ := by
        rcases hstart with hok | ⟨_, hkill⟩
        · exact (Prod.mk.inj (hd.symm.trans hok)).2
        · simp [hkill, Decoder.kill] at hd
      rw [hd₀, htotal, hlength] at hsize
    · by_contra hsized
      have hzero : x = 0 := by simp [hx, hsized]
      rw [hzero] at hsize
      simp at hsize
      omega
    · have := BitVec.toInt_lt (x := x)
      omega
  · rintro ⟨hsized, hsize, hnames⟩
    -- then the buffer is not refused, and the loop goes through
    have hxint : x.toInt = documentSize as := by
      rw [hx, if_pos hsized]
      exact asInt_of_lt hsize
    refine ⟨d₀, ?_, by rw [htotal, hxint, hlength], ?_⟩
    · rcases hstart with hok | ⟨hlarge, _⟩
      · exact hok
      · rw [hlength, asInt_of_lt hsize] at hlarge
        omega
    · exact nextLoop_document copies hnames (fun a ha => Append.tail_lt ha hsize) hbetween

/-- BSON decoding undoes encoding, whatever the target and the reader, as long as every name has
fewer than 32 bytes, the document is shorter than 2³¹ bytes and its size could be recorded.  No
other document reads back (the one buffer size set apart is the one whose failed flush goes
unnoticed). -/
theorem decode_undoes_encode {env : Env} {t : Target} {as : List Append} {e : Encoder}
    (hok : encode env t as = some e) (origin : Origin) (copies : ℕ → Bool) :
    ((∀ a ∈ as, a.name.chars.length < bsonMaxname) ∧ documentSize as < 2 ^ 31 ∧ t.records env →
      ReadsBack origin copies as e.document) ∧
    (t.Stages (documentSize as) → ReadsBack origin copies as e.document →
      (∀ a ∈ as, a.name.chars.length < bsonMaxname) ∧ documentSize as < 2 ^ 31 ∧
        t.records env) := by
  refine ⟨?_, ?_⟩
  · rintro ⟨hnames, hsize, hrecords⟩
    have hstages : t.Stages (documentSize as) := by
      cases t with
      -- too short a document to fill the one buffer whose failed flush goes unnoticed
      | bufFile content bufsize => exact Or.inr (by omega)
      | _ => trivial
    rw [(encode_document hstages hok).1]
    exact (readsBack_documentOf_iff _ as origin copies).2 ⟨hrecords, hsize, hnames⟩
  · intro hstages hback
    rw [(encode_document hstages hok).1] at hback
    rcases (readsBack_documentOf_iff _ as origin copies).1 hback with ⟨hrecords, hsize, hnames⟩
    exact ⟨hnames, hsize, hrecords⟩

/-- A flag, a string and an empty blob, written through a staging buffer of eight bytes. -/
theorem decode_undoes_encode_three :
    ∃ e, encode grantingEnv (.bufFile [9, 9, 9] 8)
        [.bool (longName 1) true, .string (longName 2) (longName 3),
          .binary (longName 4) .user []] =
          some e ∧
      ReadsBack (.file [9]) (fun k => k = 1)
        [.bool (longName 1) true, .string (longName 2) (longName 3), .binary (longName 4) .user []]
        e.document := by
  have hsome : (encode grantingEnv (.bufFile [9, 9, 9] 8)
      [.bool (longName 1) true, .string (longName 2) (longName 3),
        .binary (longName 4) .user []]).isSome := by decide
  rcases Option.isSome_iff_exists.1 hsome with ⟨e, he⟩
  exact ⟨e, he, (decode_undoes_encode he (.file [9]) (fun k => k = 1)).1 (by decide)⟩

/-- A name of 32 letters is accepted by the encoder, and the decoder has no room for it. -/
theorem decode_does_not_undo_encode :
    ∃ e, encode grantingEnv (.buf 64) [.bool (longName 32) true] = some e ∧
      ¬ReadsBack .buf (fun _ => false) [.bool (longName 32) true] e.document := by
  have hsome : (encode grantingEnv (.buf 64) [.bool (longName 32) true]).isSome := by decide
  rcases Option.isSome_iff_exists.1 hsome with ⟨e, he⟩
  refine ⟨e, he, ?_⟩
  intro hback
  have := hback.names_lt (.bool (longName 32) true) (by simp)
  simp [longName, Append.name, bsonMaxname] at this

end Bson
end DtPhm
