import DtPhm.Bson.Encoder

/-!
# Decoder — the BSON parser of `tinybson.cpp`

The decoder reads from a file or from a buffer, one node for each call of `bson_decoder_next`, and
hands the node to a callback.  The payload of a string or a blob stays in the stream: `pending`
counts its bytes, which the reader copies with `bson_decoder_copy_data` or which the next call
discards.
-/

namespace DtPhm
namespace Bson

open Lib

/-! ## The data -/

/-- The union of a node: an integer, a double (its bits) or a flag. -/
inductive NodeValue where
  | i (value : BitVec 64)
  | d (value : BitVec 64)
  | b (value : Bool)
  deriving DecidableEq, Repr

/-- `bson_node_s`; the name without its terminating zero. -/
structure Node where
  name : List UInt8
  type : BsonType
  subtype : BitVec 32
  value : NodeValue
  deriving DecidableEq, Repr

/-- Where the bytes come from: the unread part of a file (`fd > -1`), a buffer, or nowhere.
`bufpos` never passes `bufsize`, so its additions are exact. -/
inductive Source where
  | file (rest : List UInt8)
  | buf (bytes : List UInt8) (bufsize bufpos : ℕ)
  | none
  deriving DecidableEq, Repr

/-- `bson_decoder_s`, its callback apart. -/
structure Decoder where
  source : Source
  dead : Bool
  nesting : ℕ
  node : Node
  pending : BitVec 32
  totalDocumentSize : BitVec 32
  totalDecodedSize : BitVec 32
  deriving DecidableEq, Repr

namespace Decoder

/-- `CODER_KILL`. -/
def kill (d : Decoder) : Bool × Decoder := (false, { d with dead := true })

end Decoder

/-! ## Reading -/

/-- The bytes read, or `none` for the answer `-1`. -/
def readX (d : Decoder) (s : ℕ) : Option (List UInt8) × Decoder :=
  if d.dead then
    (none, d)
  else
    match d.source with
    | .file rest =>
        let got := rest.take s
        let d := { d with source := .file (rest.drop s) }
        if asInt got.length = s then
          (some got, { d with totalDecodedSize := d.totalDecodedSize + BitVec.ofNat 32 s })
        else
          (none, d)
    | .buf bytes bufsize bufpos =>
        if s ≥ bufsize then
          (none, { d with dead := true })
        else if bufsize - s < bufpos then
          (none, { d with dead := true })
        else
          (some ((bytes.drop bufpos).take s),
            { d with
              source := .buf bytes bufsize (bufpos + s)
              totalDecodedSize := d.totalDecodedSize + BitVec.ofNat 32 s })
    | .none => (none, d)

def readInt8 (d : Decoder) : Option UInt8 × Decoder :=
  match readX d 1 with
  | (some bs, d) => (some (UInt8.ofNat (leValue bs)), d)
  | (none, d) => (none, d)

def readInt32 (d : Decoder) : Option (BitVec 32) × Decoder :=
  match readX d 4 with
  | (some bs, d) => (some (BitVec.ofNat 32 (leValue bs)), d)
  | (none, d) => (none, d)

/-- `read_int64`, and `read_double` for the bits of a double. -/
def readInt64 (d : Decoder) : Option (BitVec 64) × Decoder :=
  match readX d 8 with
  | (some bs, d) => (some (BitVec.ofNat 64 (leValue bs)), d)
  | (none, d) => (none, d)

/-! ## Starting -/

/-- The state that both `bson_decoder_init_*` set up. -/
def freshDecoder (source : Source) : Decoder where
  source := source
  dead := false
  nesting := 1
  node := { name := [], type := .undefined, subtype := 0, value := .i 0 }
  pending := 0
  totalDocumentSize := 0
  totalDecodedSize := 0

def bsonDecoderInitFile (content : List UInt8) : Bool × Decoder :=
  match readInt32 (freshDecoder (.file content)) with
  | (some size, d) => (true, { d with totalDocumentSize := size })
  | (none, d) => d.kill

/-- With a size of zero the buffer's own first four bytes are taken for its size. -/
def bsonDecoderInitBuf (buf : List UInt8) (bufsize : ℕ) : Bool × Decoder :=
  let bufsize := if bufsize = 0 then leValue (buf.take 4) else bufsize
  match readInt32 (freshDecoder (.buf buf bufsize 0)) with
  | (some size, d) =>
      let d := { d with totalDocumentSize := size }
      if size.toInt > 0 ∧ size.toInt > asInt bufsize then d.kill else (true, d)
  | (none, d) => d.kill

/-! ## The next node -/

/-- The loop that discards what is pending. -/
def discardPending : ℕ → Decoder → Bool × Decoder
  | 0, d => (true, d)
  | n + 1, d =>
      match readInt8 d with
      | (none, d) => d.kill
      | (some _, d) => discardPending n { d with pending := d.pending - 1 }

/-- The loop that reads the name; the first argument counts the bytes that still fit the node. -/
def readNodeName : ℕ → List UInt8 → Decoder → Bool × Decoder
  | 0, _, d => d.kill
  | n + 1, name, d =>
      match readInt8 d with
      | (none, d) => d.kill
      | (some b, d) =>
          if b = 0 then (true, { d with node := { d.node with name := name } })
          else readNodeName n (name ++ [b]) d

/-- The value, or the number of bytes of a payload. -/
def readNodeValue (d : Decoder) : Bool × Decoder :=
  match d.node.type with
  | .bool =>
      match readInt8 d with
      | (some b, d) => (true, { d with node := { d.node with value := .b (b != 0) } })
      | (none, d) => d.kill
  | .int32 =>
      match readInt32 d with
      | (some i, d) => (true, { d with node := { d.node with value := .i (i.signExtend 64) } })
      | (none, d) => d.kill
  | .int64 =>
      match readInt64 d with
      | (some i, d) => (true, { d with node := { d.node with value := .i i } })
      | (none, d) => d.kill
  | .double =>
      match readInt64 d with
      | (some x, d) => (true, { d with node := { d.node with value := .d x } })
      | (none, d) => d.kill
  | .string =>
      match readInt32 d with
      | (some n, d) => (true, { d with pending := n })
      | (none, d) => d.kill
  | .bindata =>
      match readInt32 d with
      | (some n, d) =>
          match readInt8 { d with pending := n } with
          | (some b, d) =>
              (true, { d with node := { d.node with subtype := b.toBitVec.signExtend 32 } })
          | (none, d) => d.kill
      | (none, d) => d.kill
  -- other types are not supported
  | _ => d.kill

/-- From the discarding of pending bytes to the complete node. -/
def readNode (d : Decoder) : Bool × Decoder :=
  match discardPending d.pending.toInt.toNat d with
  | (false, d) => d.kill
  | (true, d) =>
      match readInt8 d with
      | (none, d) => d.kill
      | (some tbyte, d) =>
          let d := { d with node := { d.node with type := BsonType.ofByte tbyte }, pending := 0 }
          if d.node.type = .eoo then
            (true, { d with node := { d.node with name := [] } })
          else
            match readNodeName bsonMaxname [] d with
            | (false, d) => d.kill
            | (true, d) => readNodeValue d

variable {σ : Type}

/-- `bson_decoder_next`: the callback gets its private data and the decoder with the node in it. -/
def bsonDecoderNext (callback : σ → Decoder → Int × σ × Decoder) (priv : σ) (d : Decoder) :
    Int × σ × Decoder :=
  if d.dead then
    (-1, priv, d)
  else
    -- the previous node was the end of an object: pop a nesting level
    let d := if d.node.type = .eoo then { d with nesting := d.nesting - 1 } else d
    if d.node.type = .eoo ∧ d.nesting = 0 then
      match d.source with
      | .file _ => (0, priv, { d with source := .none })
      | _ => (0, priv, d)
    else
      match readNode d with
      | (false, d) => (-1, priv, d)
      | (true, d) => callback priv d

def bsonDecoderCopyData (d : Decoder) : Option (List UInt8) × Decoder :=
  if d.dead then
    (none, d)
  else
    match readX d (d.pending.signExtend 64).toNat with
    | (some bs, d) => (some bs, { d with pending := 0 })
    | (none, d) => (none, { d with dead := true })

end Bson
end DtPhm
