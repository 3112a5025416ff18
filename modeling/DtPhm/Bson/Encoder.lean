import Mathlib.Data.List.Basic
import DtPhm.Lib.Bytes

/-!
# Encoder — the BSON generator of `tinybson.cpp`

One encoder structure serves four targets: a file written piece by piece, a file written through a
staging buffer, a buffer of a fixed size, and a buffer that the encoder grows.  What the operating
system answers is a parameter (`Env`).
-/

namespace DtPhm
namespace Bson

open Lib

/-! ## The data -/

/-- `bson_type_t`; `other` is a type byte that is not in the enumeration. -/
inductive BsonType where
  | eoo | double | string | object | array | bindata | undefined | bool | date | nullptr
  | int32 | int64
  | other (b : UInt8)
  deriving DecidableEq, Repr

namespace BsonType

def toByte : BsonType → UInt8
  | eoo => 0
  | double => 1
  | string => 2
  | object => 3
  | array => 4
  | bindata => 5
  | undefined => 6
  | bool => 8
  | date => 9
  | nullptr => 10
  | int32 => 16
  | int64 => 18
  | other b => b

def ofByte (b : UInt8) : BsonType :=
  match b.toNat with
  | 0 => eoo
  | 1 => double
  | 2 => string
  | 3 => object
  | 4 => array
  | 5 => bindata
  | 6 => undefined
  | 8 => bool
  | 9 => date
  | 10 => nullptr
  | 16 => int32
  | 18 => int64
  | _ => other b

end BsonType

/-- `bson_binary_subtype_t`. -/
inductive BinarySubtype where
  | binary | user
  deriving DecidableEq, Repr

def BinarySubtype.toByte : BinarySubtype → UInt8
  | binary => 0
  | user => 128

/-- A C string: the bytes before its terminating zero. -/
structure CString where
  chars : List UInt8
  noNul : 0 ∉ chars

instance : DecidableEq CString := fun s t =>
  decidable_of_iff (s.chars = t.chars) (by cases s; cases t; simp)

/-- The bytes of the string in memory, the terminating zero included. -/
def CString.bytes (s : CString) : List UInt8 := s.chars ++ [0]

@[simp] theorem CString.length_bytes (s : CString) : s.bytes.length = s.chars.length + 1 := by
  simp [CString.bytes]

/-- `BSON_MAXNAME`. -/
def bsonMaxname : ℕ := 32

/-- `BSON_BUF_INCREMENT`. -/
def bsonBufIncrement : ℕ := 128

/-- The bytes of an `int32_t`. -/
def int32Bytes (x : BitVec 32) : List UInt8 := leBytes 4 x.toNat

/-- The bytes of an `int64_t` or of a `double`. -/
def int64Bytes (x : BitVec 64) : List UInt8 := leBytes 8 x.toNat

@[simp] theorem length_int32Bytes (x : BitVec 32) : (int32Bytes x).length = 4 :=
  length_leBytes 4 _

@[simp] theorem length_int64Bytes (x : BitVec 64) : (int64Bytes x).length = 8 :=
  length_leBytes 8 _

/-! ## The operating system -/

/-- What the calls to the operating system answer. -/
structure Env where
  /-- how many of `n` bytes the `k`-th `write` takes; `none` is the answer `-1` -/
  write : ℕ → ℕ → Option ℕ
  /-- whether the descriptor can be set back to the start of the file -/
  lseek : Bool
  /-- whether a buffer can be grown to that many bytes -/
  realloc : ℕ → Bool

/-- A file open for writing; `upto` is how far it has been written through this descriptor, and
`calls` numbers the calls of `write`. -/
structure Disk where
  bytes : List UInt8
  pos : ℕ
  upto : ℕ
  calls : ℕ
  deriving DecidableEq, Repr

/-- A file with this content, just opened. -/
def Disk.opened (content : List UInt8) : Disk where
  bytes := content
  pos := 0
  upto := 0
  calls := 0

/-- The bytes `bs` at the current position. -/
def Disk.put (d : Disk) (bs : List UInt8) : Disk where
  bytes := d.bytes.take d.pos ++ bs ++ d.bytes.drop (d.pos + bs.length)
  pos := d.pos + bs.length
  upto := max d.upto (d.pos + bs.length)
  calls := d.calls + 1

/-- The value of an `int` that is assigned the number `n`. -/
def asInt (n : ℕ) : Int := (BitVec.ofNat 32 n).toInt

/-- `int ret = ::write(fd, bs, bs.length)`: the answer, and the file after the call. -/
def Env.writeTo (env : Env) (d : Disk) (bs : List UInt8) : Int × Disk :=
  match env.write d.calls bs.length with
  | none => (-1, { d with calls := d.calls + 1 })
  | some n => (asInt (min n bs.length), d.put (bs.take n))

/-! ## The encoder -/

/-- `bson_encoder_s`.  The list `buf` holds the bytes of the buffer before `bufpos`; the rest of it
is never read. -/
structure Encoder where
  fd : Option Disk
  buf : Option (List UInt8)
  bufsize : ℕ
  reallocOk : Bool
  dead : Bool
  totalDocumentSize : BitVec 32
  deriving DecidableEq, Repr

namespace Encoder

/-- The bytes in the buffer. -/
def staged (e : Encoder) : List UInt8 := e.buf.getD []

def bufpos (e : Encoder) : ℕ := e.staged.length

/-- `CODER_KILL`. -/
def kill (e : Encoder) : Bool × Encoder := (false, { e with dead := true })

end Encoder

variable (env : Env)

/-- The growing of the buffer until `need` bytes fit: whether it worked, and the size reached.  The
size is a multiple of the increment, so the one sum that does not fit an `unsigned` wraps to 0, and
a `realloc` to no bytes gives no buffer. -/
def grow (need bufsize : ℕ) : Bool × ℕ :=
  if need ≤ bufsize then
    (true, bufsize)
  else if bufsize + bsonBufIncrement < 2 ^ 32 ∧ env.realloc (bufsize + bsonBufIncrement) then
    grow need (bufsize + bsonBufIncrement)
  else
    (false, bufsize)
termination_by need - bufsize
decreasing_by
  simp only [bsonBufIncrement]
  omega

/-- The loop of `write_x` that makes room for `s` bytes. -/
def makeRoom (e : Encoder) (s : ℕ) : Bool × Encoder :=
  if e.bufpos + s ≤ e.bufsize then
    (true, e)
  else
    match e.fd with
    | some disk =>
        -- buffered file encoder: write the buffer to disk and start over
        let (ret, disk) := env.writeTo disk e.staged
        if ret = asInt e.bufpos then
          let e := { e with
            fd := some disk, buf := some [],
            totalDocumentSize := e.totalDocumentSize + BitVec.ofInt 32 ret }
          if s > e.bufsize then e.kill else (true, e)
        else
          { e with fd := some disk }.kill
    | none =>
        if e.reallocOk then
          let (ok, size) := grow env (e.bufpos + s) e.bufsize
          if ok then (true, { e with buf := some e.staged, bufsize := size })
          else { e with buf := some e.staged, bufsize := size }.kill
        else
          e.kill

def writeX (e : Encoder) (p : List UInt8) : Bool × Encoder :=
  if e.dead then
    (false, e)
  else
    match e.fd, e.buf with
    | some disk, none =>
        -- file encoder without a buffer; a failed write leaves the killing to the caller
        let (ret, disk) := env.writeTo disk p
        if ret = p.length then
          (true, { e with
            fd := some disk, totalDocumentSize := e.totalDocumentSize + BitVec.ofInt 32 ret })
        else
          (false, { e with fd := some disk })
    | _, _ =>
        match makeRoom env e p.length with
        | (true, e) => (true, { e with buf := some (e.staged ++ p) })
        | (false, e) => (false, e)

def writeName (e : Encoder) (name : CString) : Bool × Encoder :=
  if name.chars.length > bsonMaxname then e.kill else writeX env e name.bytes

/-- Writes joined by `||`: the first one that fails ends them. -/
def writePieces (e : Encoder) : List (List UInt8) → Bool × Encoder
  | [] => (true, e)
  | p :: ps =>
      match writeX env e p with
      | (true, e) => writePieces e ps
      | (false, e) => (false, e)

/-! ### Starting -/

/-- The common end of the `bson_encoder_init_*`: the place of the document length. -/
def initLength (e : Encoder) : Bool × Encoder :=
  match writeX env e (int32Bytes 0) with
  | (true, e) => (true, e)
  | (false, e) => e.kill

def bsonEncoderInitFile (fd : Disk) : Bool × Encoder :=
  initLength env
    { fd := some fd, buf := none, bufsize := 0, reallocOk := false, dead := false
      totalDocumentSize := 0 }

def bsonEncoderInitBufFile (fd : Disk) (bufsize : ℕ) : Bool × Encoder :=
  initLength env
    { fd := some fd, buf := some [], bufsize := bufsize, reallocOk := false, dead := false
      totalDocumentSize := 0 }

/-- The buffer is `none` for a null pointer, else the size that comes with it. -/
def bsonEncoderInitBuf (buf : Option ℕ) : Bool × Encoder :=
  match buf with
  | none =>
      initLength env
        { fd := none, buf := none, bufsize := 0, reallocOk := true, dead := false
          totalDocumentSize := 0 }
  | some bufsize =>
      initLength env
        { fd := none, buf := some [], bufsize := bufsize, reallocOk := false, dead := false
          totalDocumentSize := 0 }

/-! ### Appending -/

/-- A node: its type, its name, and the pieces of its value.  Whatever fails kills the encoder. -/
def appendNode (e : Encoder) (type : BsonType) (name : CString) (payload : List (List UInt8)) :
    Bool × Encoder :=
  if e.dead then
    (false, e)
  else
    match writeX env e [type.toByte] with
    | (false, e) => e.kill
    | (true, e) =>
        match writeName env e name with
        | (false, e) => e.kill
        | (true, e) =>
            match writePieces env e payload with
            | (false, e) => e.kill
            | (true, e) => (true, e)

/-- `value == (int32_t)value`. -/
def fitsInt32 (value : BitVec 64) : Bool := (value.setWidth 32).signExtend 64 == value

def boolByte (value : Bool) : UInt8 := if value then 1 else 0

def bsonEncoderAppendBool (e : Encoder) (name : CString) (value : Bool) : Bool × Encoder :=
  appendNode env e .bool name [[boolByte value]]

/-- The smallest encoding that holds the value. -/
def bsonEncoderAppendInt (e : Encoder) (name : CString) (value : BitVec 64) : Bool × Encoder :=
  if fitsInt32 value then
    appendNode env e .int32 name [int32Bytes (value.setWidth 32)]
  else
    appendNode env e .int64 name [int64Bytes value]

/-- The double is given by its bits. -/
def bsonEncoderAppendDouble (e : Encoder) (name : CString) (value : BitVec 64) : Bool × Encoder :=
  appendNode env e .double name [int64Bytes value]

def bsonEncoderAppendString (e : Encoder) (name string : CString) : Bool × Encoder :=
  appendNode env e .string name [int32Bytes (BitVec.ofNat 32 string.bytes.length), string.bytes]

def bsonEncoderAppendBinary (e : Encoder) (name : CString) (subtype : BinarySubtype)
    (data : List UInt8) : Bool × Encoder :=
  appendNode env e .bindata name
    [int32Bytes (BitVec.ofNat 32 data.length), [subtype.toByte], data]

/-! ### Finishing -/

/-- `bson_encoder_buf_size`, on an encoder that is not dead and has no file. -/
def bsonEncoderBufSize (e : Encoder) : BitVec 32 := BitVec.ofNat 32 e.bufpos

/-- The last part of the buffer goes to the file. -/
def flushLast (e : Encoder) : Bool × Encoder :=
  match e.fd, e.buf with
  | some disk, some (b :: bs) =>
      let (ret, disk) := env.writeTo disk (b :: bs)
      if ret = asInt e.bufpos then
        (true, { e with
          fd := some disk, totalDocumentSize := e.totalDocumentSize + BitVec.ofInt 32 ret })
      else
        { e with fd := some disk }.kill
  | _, _ => (true, e)

/-- The document size is recorded at the start of the document. -/
def recordSize (e : Encoder) : Bool × Encoder :=
  match e.fd with
  | some disk =>
      if env.lseek then
        let (ret, disk) := env.writeTo { disk with pos := 0 } (int32Bytes e.totalDocumentSize)
        if ret = 4 then (true, { e with fd := some disk }) else { e with fd := some disk }.kill
      else
        -- a descriptor that cannot seek: the place of the length keeps its zeros
        (true, e)
  | none =>
      match e.buf with
      | some buf => (true, { e with buf := some (int32Bytes (bsonEncoderBufSize e) ++ buf.drop 4) })
      | none => (true, e)

def bsonEncoderFini (e : Encoder) : Bool × Encoder :=
  if e.dead then
    (false, e)
  else
    match writeX env e [BsonType.eoo.toByte] with
    | (false, e) => e.kill
    | (true, e) =>
        match flushLast env e with
        | (false, e) => e.kill
        | (true, e) => recordSize env e

/-! ## Whole runs -/

/-- One call of a `bson_encoder_append_*`. -/
inductive Append where
  | bool (name : CString) (value : Bool)
  | int (name : CString) (value : BitVec 64)
  | double (name : CString) (value : BitVec 64)
  | string (name text : CString)
  | binary (name : CString) (subtype : BinarySubtype) (data : List UInt8)
  deriving DecidableEq

def append (e : Encoder) : Append → Bool × Encoder
  | .bool name value => bsonEncoderAppendBool env e name value
  | .int name value => bsonEncoderAppendInt env e name value
  | .double name value => bsonEncoderAppendDouble env e name value
  | .string name text => bsonEncoderAppendString env e name text
  | .binary name subtype data => bsonEncoderAppendBinary env e name subtype data

/-- The calls in order; `none` when one of them is not accepted. -/
def appendAll (e : Encoder) : List Append → Option Encoder
  | [] => some e
  | a :: as =>
      match append env e a with
      | (true, e) => appendAll e as
      | (false, _) => none

/-- The four ways to start an encoder; a file has some content, and has just been opened. -/
inductive Target where
  | file (content : List UInt8)
  | bufFile (content : List UInt8) (bufsize : ℕ)
  | buf (bufsize : ℕ)
  | growing
  deriving DecidableEq, Repr

def start : Target → Bool × Encoder
  | .file content => bsonEncoderInitFile env (Disk.opened content)
  | .bufFile content bufsize => bsonEncoderInitBufFile env (Disk.opened content) bufsize
  | .buf bufsize => bsonEncoderInitBuf env (some bufsize)
  | .growing => bsonEncoderInitBuf env none

/-- Start, append, finish; `none` when one of the calls does not report success. -/
def encode (target : Target) (as : List Append) : Option Encoder :=
  match start env target with
  | (false, _) => none
  | (true, e) =>
      match appendAll env e as with
      | none => none
      | some e =>
          match bsonEncoderFini env e with
          | (false, _) => none
          | (true, e) => some e

/-- The bytes that an encoder has produced. -/
def Encoder.document (e : Encoder) : List UInt8 :=
  match e.fd with
  | some disk => disk.bytes.take disk.upto
  | none => e.staged

end Bson
end DtPhm
