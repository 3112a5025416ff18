import Mathlib.Data.Int.Notation
import DtPhm.Lib.Run
import DtPhm.Lib.Scan

/-!
# Transport — messages over the serial line of microRTPS

A message goes out behind a header with a marker, its length and its checksum.  The reader collects
bytes as they come and takes one message out of its buffer at a time.

* `crc16` — the checksum;
* `write` — a message with its header;
* `read` — one call of the reader, with its five exits;
* `Link`, `linkStep`, `returned` — a reader and the bytes that are still on the way to it.
-/

namespace DtPhm
namespace Rtps

open Lib

/-! ## Constants -/

/-- `BUFFER_SIZE`. -/
def bufferSize : ℕ := 1024

/-- `sizeof(struct Header)`. -/
def headerSize : ℕ := 9

def emsgsize : ℤ := 90

/-- The character that a header starts with, three times. -/
def markerByte : UInt8 := 0x3e

/-- The marker of a header. -/
def marker : List UInt8 := [markerByte, markerByte, markerByte]

/-! ## Checksum -/

/-- CRC table for the CRC-16.  The poly is 0x8005 (x^16 + x^15 + x^2 + 1). -/
def crc16Table : List UInt16 :=
  [
    0x0000, 0xC0C1, 0xC181, 0x0140, 0xC301, 0x03C0, 0x0280, 0xC241,
    0xC601, 0x06C0, 0x0780, 0xC741, 0x0500, 0xC5C1, 0xC481, 0x0440,
    0xCC01, 0x0CC0, 0x0D80, 0xCD41, 0x0F00, 0xCFC1, 0xCE81, 0x0E40,
    0x0A00, 0xCAC1, 0xCB81, 0x0B40, 0xC901, 0x09C0, 0x0880, 0xC841,
    0xD801, 0x18C0, 0x1980, 0xD941, 0x1B00, 0xDBC1, 0xDA81, 0x1A40,
    0x1E00, 0xDEC1, 0xDF81, 0x1F40, 0xDD01, 0x1DC0, 0x1C80, 0xDC41,
    0x1400, 0xD4C1, 0xD581, 0x1540, 0xD701, 0x17C0, 0x1680, 0xD641,
    0xD201, 0x12C0, 0x1380, 0xD341, 0x1100, 0xD1C1, 0xD081, 0x1040,
    0xF001, 0x30C0, 0x3180, 0xF141, 0x3300, 0xF3C1, 0xF281, 0x3240,
    0x3600, 0xF6C1, 0xF781, 0x3740, 0xF501, 0x35C0, 0x3480, 0xF441,
    0x3C00, 0xFCC1, 0xFD81, 0x3D40, 0xFF01, 0x3FC0, 0x3E80, 0xFE41,
    0xFA01, 0x3AC0, 0x3B80, 0xFB41, 0x3900, 0xF9C1, 0xF881, 0x3840,
    0x2800, 0xE8C1, 0xE981, 0x2940, 0xEB01, 0x2BC0, 0x2A80, 0xEA41,
    0xEE01, 0x2EC0, 0x2F80, 0xEF41, 0x2D00, 0xEDC1, 0xEC81, 0x2C40,
    0xE401, 0x24C0, 0x2580, 0xE541, 0x2700, 0xE7C1, 0xE681, 0x2640,
    0x2200, 0xE2C1, 0xE381, 0x2340, 0xE101, 0x21C0, 0x2080, 0xE041,
    0xA001, 0x60C0, 0x6180, 0xA141, 0x6300, 0xA3C1, 0xA281, 0x6240,
    0x6600, 0xA6C1, 0xA781, 0x6740, 0xA501, 0x65C0, 0x6480, 0xA441,
    0x6C00, 0xACC1, 0xAD81, 0x6D40, 0xAF01, 0x6FC0, 0x6E80, 0xAE41,
    0xAA01, 0x6AC0, 0x6B80, 0xAB41, 0x6900, 0xA9C1, 0xA881, 0x6840,
    0x7800, 0xB8C1, 0xB981, 0x7940, 0xBB01, 0x7BC0, 0x7A80, 0xBA41,
    0xBE01, 0x7EC0, 0x7F80, 0xBF41, 0x7D00, 0xBDC1, 0xBC81, 0x7C40,
    0xB401, 0x74C0, 0x7580, 0xB541, 0x7700, 0xB7C1, 0xB681, 0x7640,
    0x7200, 0xB2C1, 0xB381, 0x7340, 0xB101, 0x71C0, 0x7080, 0xB041,
    0x5000, 0x90C1, 0x9181, 0x5140, 0x9301, 0x53C0, 0x5280, 0x9241,
    0x9601, 0x56C0, 0x5780, 0x9741, 0x5500, 0x95C1, 0x9481, 0x5440,
    0x9C01, 0x5CC0, 0x5D80, 0x9D41, 0x5F00, 0x9FC1, 0x9E81, 0x5E40,
    0x5A00, 0x9AC1, 0x9B81, 0x5B40, 0x9901, 0x59C0, 0x5880, 0x9841,
    0x8801, 0x48C0, 0x4980, 0x8941, 0x4B00, 0x8BC1, 0x8A81, 0x4A40,
    0x4E00, 0x8EC1, 0x8F81, 0x4F40, 0x8D01, 0x4DC0, 0x4C80, 0x8C41,
    0x4400, 0x84C1, 0x8581, 0x4540, 0x8701, 0x47C0, 0x4680, 0x8641,
    0x8201, 0x42C0, 0x4380, 0x8341, 0x4100, 0x81C1, 0x8081, 0x4040]

def crc16Byte (crc : UInt16) (data : UInt8) : UInt16 :=
  (crc >>> 8) ^^^ crc16Table.getD ((crc ^^^ data.toUInt16) &&& 0xff).toNat 0

def crc16 (buffer : List UInt8) : UInt16 := buffer.foldl crc16Byte 0

/-! ## Header -/

/-- `struct Header`, without its marker. -/
structure Header where
  topicId : UInt8
  seq : UInt8
  payloadLenH : UInt8
  payloadLenL : UInt8
  crcH : UInt8
  crcL : UInt8
deriving DecidableEq, Repr

def Header.bytes (h : Header) : List UInt8 :=
  marker ++ [h.topicId, h.seq, h.payloadLenH, h.payloadLenL, h.crcH, h.crcL]

/-- The header at the beginning of a buffer. -/
def Header.ofBytes (buffer : List UInt8) : Header where
  topicId := buffer.getD 3 0
  seq := buffer.getD 4 0
  payloadLenH := buffer.getD 5 0
  payloadLenL := buffer.getD 6 0
  crcH := buffer.getD 7 0
  crcL := buffer.getD 8 0

def Header.payloadLen (h : Header) : ℕ := h.payloadLenH.toNat <<< 8 ||| h.payloadLenL.toNat

def Header.crc (h : Header) : UInt16 := h.crcH.toUInt16 <<< 8 ||| h.crcL.toUInt16

/-- A message, as it is handed over to the caller. -/
structure Message where
  topicId : UInt8
  payload : List UInt8
deriving DecidableEq, Repr

/-! ## Writing -/

/-- `write`: the bytes that are given to `node_write`, with the sequence number of the message. -/
def write (seq : UInt8) (m : Message) : List UInt8 :=
  let crc := crc16 m.payload
  let header : Header :=
    { topicId := m.topicId
      seq := seq
      payloadLenH := UInt8.ofNat (m.payload.length >>> 8)
      payloadLenL := UInt8.ofNat m.payload.length
      crcH := (crc >>> 8).toUInt8
      crcL := crc.toUInt8 }
  header.bytes ++ m.payload

/-- Messages one after the other, with the bytes of each. -/
def writeAll : UInt8 → List Message → List (Message × List UInt8)
  | _, [] => []
  | seq, m :: ms => (m, write seq m) :: writeAll (seq + 1) ms

/-! ## Reading -/

/-- What a call of the reader leaves in the buffer, and what it returns. -/
structure ReadResult where
  rxBuffer : List UInt8
  ret : ℤ
  message : Option Message
deriving DecidableEq, Repr

/-- The loop that looks for a start: it ends at a marker, or where no header fits any more. -/
def findStart : List UInt8 → ℕ
  | [] => 0
  | b :: buffer =>
    if (b :: buffer).length < headerSize then 0
    else if b = markerByte ∧ (b :: buffer).take 3 = marker then 0
    else findStart buffer + 1

/-- A start was found, and `buffer` begins there; `start` bytes come before it. -/
def readMessage (bufferLen : ℕ) (rxBuffer : List UInt8) (start : ℕ) : ReadResult :=
  let buffer := rxBuffer.drop start
  let header := Header.ofBytes buffer
  let size := headerSize + header.payloadLen
  if bufferLen < size then ⟨rxBuffer.drop (start + 1), -emsgsize, none⟩
  else if start + size > rxBuffer.length then ⟨buffer, 0, none⟩
  else
    let payload := (buffer.drop headerSize).take header.payloadLen
    if header.crc ≠ crc16 payload then ⟨rxBuffer.drop (start + 1), -1, none⟩
    else ⟨rxBuffer.drop (start + size), size, some ⟨header.topicId, payload⟩⟩

/-- `read`, after `node_read` has appended what it got to the buffer. -/
def readBuffer (bufferLen : ℕ) (rxBuffer : List UInt8) : ReadResult :=
  if rxBuffer.length < headerSize then ⟨rxBuffer, 0, none⟩
  else
    let start := findStart rxBuffer
    if start > rxBuffer.length - headerSize then ⟨rxBuffer.drop start, -1, none⟩
    else readMessage bufferLen rxBuffer start

/-! ## A line -/

/-- The buffer of a reader, and the bytes that it has not been given yet. -/
structure Link where
  rxBuffer : List UInt8
  stream : List UInt8
deriving DecidableEq, Repr

/-- A call of `read`. -/
inductive ReadEvent
  /-- `fds_OK` fails. -/
  | notOpen
  /-- `node_read` fails. -/
  | failed (ret : ℤ)
  /-- `node_read` has up to so many bytes ready. -/
  | ready (len : ℕ)
deriving DecidableEq, Repr

/-- What `node_read` returns is limited by the space that is left. -/
def nodeRead (l : Link) (len : ℕ) : ℕ := min len (bufferSize - l.rxBuffer.length)

/-- What a call returns. -/
def read (bufferLen : ℕ) (l : Link) : ReadEvent → ReadResult
  | .notOpen => ⟨l.rxBuffer, -1, none⟩
  | .failed ret => ⟨l.rxBuffer, ret, none⟩
  | .ready len => readBuffer bufferLen (l.rxBuffer ++ l.stream.take (nodeRead l len))

def linkStep (bufferLen : ℕ) (l : Link) (e : ReadEvent) : Link where
  rxBuffer := (read bufferLen l e).rxBuffer
  stream :=
    match e with
    | .ready len => l.stream.drop (nodeRead l len)
    | _ => l.stream

/-- The messages that the calls of a run return. -/
def returned (bufferLen : ℕ) (l : Link) (es : List ReadEvent) : List Message :=
  outputs (linkStep bufferLen) (fun l e => (read bufferLen l e).message.toList) l es

end Rtps
end DtPhm
