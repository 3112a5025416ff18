import DtPhm.Lib.BitFields
import DtPhm.Lib.Rounding

/-!
# Sbus — the S.BUS output and input of the RC library

The output packs sixteen channels of eleven bits into a frame of 25 bytes; the input is a state
machine that takes bytes as they come, collects a frame and decodes it with a table of bit picks.
S.BUS 2 receivers send telemetry slots between the frames, which the machine skips.

* `sbus1Output` — the frame of a list of channel values, at most one in `sbus1FrameDelay`;
* `sbusDecode` — the channels and the flags of a complete frame;
* `sbusParse` — the state machine over the bytes of one read.

The scaling between pulse widths and raw values is taken over exact rationals; a conversion to
`uint16_t` that is out of range yields the nearest `uint16_t`.
-/

namespace DtPhm
namespace Rc

open Lib

/-! ## Constants and scaling -/

def sbusStartSymbol : UInt8 := 0x0f

def sbusFrameSize : ℕ := 25

def sbusInputChannels : ℕ := 16

def sbusFlagsByte : ℕ := 23

def sbusFailsafeBit : ℕ := 3

def sbusFramelostBit : ℕ := 2

/-- Length of the buffer that holds the partial frame. -/
def sbusBufferSize : ℕ := sbusFrameSize + sbusFrameSize / 2

/-- `SBUS_SCALE_FACTOR`: the range 200..1800 is mapped to 1000..2000. -/
def sbusScaleFactor : ℚ :=
  (2000 - 1000) / (1800 - 200)

/-- `SBUS_SCALE_OFFSET`: the conversion to `int` drops the fraction. -/
def sbusScaleOffset : ℤ :=
  truncZero (1000 - (sbusScaleFactor * 200 + 1 / 2))

/-- A conversion to `uint16_t`, to the nearest value where the argument is out of range. -/
def toUint16 (q : ℚ) : ℕ :=
  ((IntConv.saturate (Int.zero_le_ofNat 65535) : IntConv 0 65535) q).toNat

/-! ## Output -/

/-- What the output keeps between two calls. -/
structure Output where
  lastTxframeTime : UInt64
  sbus1FrameDelay : UInt32
deriving Repr, DecidableEq

/-- The raw value of a channel, limited to eleven bits. -/
def outputValue (v : UInt16) : ℕ :=
  let value := toUint16 (((v.toNat : ℚ) - sbusScaleOffset) / sbusScaleFactor + 1 / 2)
  if value > 0x07ff then 0x07ff else value

/-- The local variables of the packing loop. -/
structure Packing where
  byteindex : ℕ
  offset : ℕ
  oframe : Mem

/-- `while (offset >= 8)`: on to the byte that holds the next bit. -/
def Packing.seek (byteindex offset : ℕ) : ℕ × ℕ :=
  if 8 ≤ offset then Packing.seek (byteindex + 1) (offset - 8) else (byteindex, offset)
termination_by offset

/-- One round of the packing loop. -/
def Packing.pack (s : Packing) (v : UInt16) : Packing :=
  let value := outputValue v
  let at' := Packing.seek s.byteindex s.offset
  { byteindex := at'.1
    offset := at'.2 + 11
    oframe := orField s.oframe at'.1 at'.2 value }

/-- `oframe[SBUS_FRAME_SIZE] = { 0x0f }`; the data starts one byte into the frame. -/
def Packing.init : Packing where
  byteindex := 1
  offset := 0
  oframe := fun b => if b = 0 then 0x0f else 0

/-- The packing loop: it stops after sixteen values. -/
def packFrame (values : List UInt16) : Packing :=
  (values.take 16).foldl Packing.pack Packing.init

/-- `sbus1_output`: what is written to the port, if the last frame is old enough. -/
def sbus1Output (s : Output) (now : UInt64) (values : List UInt16) : Output × Option (List UInt8) :=
  if now - s.lastTxframeTime > s.sbus1FrameDelay.toUInt64 then
    ({ s with lastTxframeTime := now }, some (load (packFrame values).oframe 0 sbusFrameSize))
  else
    (s, none)

/-! ## Decoding a frame -/

inductive DecodeState where
  | desync
  | sbusStart
  | sbus1Sync
  | sbus2Sync
  | sbus2RxVoltage
  | sbus2Gps
  | sbus2Data1
  | sbus2Data2
deriving Repr, DecidableEq

/-- The static variables of the input. -/
structure Input where
  decodeState : DecodeState
  sbusFrame : Mem
  partialFrameCount : ℕ
  frameDrops : UInt32
  lastRxTime : UInt64

/-- The variables of the caller that a decoded frame is written to. -/
structure Channels where
  values : ℕ → UInt16
  numValues : ℕ
  failsafe : Bool
  frameDrop : Bool

/-- `sbus_decoder`, with the bytes counted from the data portion of the frame. -/
def sbusDecoder : List (List BitPick) :=
  [[⟨ 0, 0, 0xff, 0⟩, ⟨ 1, 0, 0x07, 8⟩, ⟨ 0, 0, 0x00,  0⟩],
   [⟨ 1, 3, 0x1f, 0⟩, ⟨ 2, 0, 0x3f, 5⟩, ⟨ 0, 0, 0x00,  0⟩],
   [⟨ 2, 6, 0x03, 0⟩, ⟨ 3, 0, 0xff, 2⟩, ⟨ 4, 0, 0x01, 10⟩],
   [⟨ 4, 1, 0x7f, 0⟩, ⟨ 5, 0, 0x0f, 7⟩, ⟨ 0, 0, 0x00,  0⟩],
   [⟨ 5, 4, 0x0f, 0⟩, ⟨ 6, 0, 0x7f, 4⟩, ⟨ 0, 0, 0x00,  0⟩],
   [⟨ 6, 7, 0x01, 0⟩, ⟨ 7, 0, 0xff, 1⟩, ⟨ 8, 0, 0x03,  9⟩],
   [⟨ 8, 2, 0x3f, 0⟩, ⟨ 9, 0, 0x1f, 6⟩, ⟨ 0, 0, 0x00,  0⟩],
   [⟨ 9, 5, 0x07, 0⟩, ⟨10, 0, 0xff, 3⟩, ⟨ 0, 0, 0x00,  0⟩],
   [⟨11, 0, 0xff, 0⟩, ⟨12, 0, 0x07, 8⟩, ⟨ 0, 0, 0x00,  0⟩],
   [⟨12, 3, 0x1f, 0⟩, ⟨13, 0, 0x3f, 5⟩, ⟨ 0, 0, 0x00,  0⟩],
   [⟨13, 6, 0x03, 0⟩, ⟨14, 0, 0xff, 2⟩, ⟨15, 0, 0x01, 10⟩],
   [⟨15, 1, 0x7f, 0⟩, ⟨16, 0, 0x0f, 7⟩, ⟨ 0, 0, 0x00,  0⟩],
   [⟨16, 4, 0x0f, 0⟩, ⟨17, 0, 0x7f, 4⟩, ⟨ 0, 0, 0x00,  0⟩],
   [⟨17, 7, 0x01, 0⟩, ⟨18, 0, 0xff, 1⟩, ⟨19, 0, 0x03,  9⟩],
   [⟨19, 2, 0x3f, 0⟩, ⟨20, 0, 0x1f, 6⟩, ⟨ 0, 0, 0x00,  0⟩],
   [⟨20, 5, 0x07, 0⟩, ⟨21, 0, 0xff, 3⟩, ⟨ 0, 0, 0x00,  0⟩]]

/-- The data portion of a frame. -/
def frameData (frame : Mem) : Mem := fun b => frame (1 + b)

/-- The eleven bits of a channel, picked from the frame. -/
def rawChannel (frame : Mem) (channel : ℕ) : ℕ :=
  gather (frameData frame) (sbusDecoder.getD channel [])

/-- The pulse width that a raw value stands for. -/
def pulseWidth (value : ℕ) : UInt16 :=
  UInt16.ofInt (toUint16 ((value : ℚ) * sbusScaleFactor + 1 / 2) + sbusScaleOffset)

/-- The pulse width of a channel. -/
def channelValue (frame : Mem) (channel : ℕ) : UInt16 :=
  pulseWidth (rawChannel frame channel)

/-- The pulse width of the switch in bit `bit` of the flags. -/
def switchValue (frame : Mem) (bit : ℕ) : UInt16 :=
  (if (frame sbusFlagsByte).toNat.testBit bit then 1000 else 0) + 998

/-- The state that the last byte of a frame announces. -/
def endMarker (b : UInt8) : Option DecodeState :=
  if b = 0x00 then some .sbus1Sync
  else if b = 0x04 then some .sbus2RxVoltage
  else if b = 0x14 then some .sbus2Gps
  else if b = 0x24 then some .sbus2Sync
  else if b = 0x34 then some .sbus2Sync
  else none

/-- The channels and the flags that a frame carries, written over those of the caller. -/
def readChannels (frame : Mem) (out : Channels) (maxValues : ℕ) : Channels :=
  let chancount := if maxValues > sbusInputChannels then sbusInputChannels else maxValues
  let values := fun c => if c < chancount then channelValue frame c else out.values c
  let wide := decide (maxValues > 17 ∧ chancount > 15)
  { values :=
      if wide then
        Function.update (Function.update values 16 (switchValue frame 0)) 17 (switchValue frame 1)
      else values
    numValues := if wide then 18 else chancount
    failsafe := (frame sbusFlagsByte).toNat.testBit sbusFailsafeBit
    frameDrop :=
      (frame sbusFlagsByte).toNat.testBit sbusFailsafeBit ||
        (frame sbusFlagsByte).toNat.testBit sbusFramelostBit }

/-- `sbus_decode`: the frame boundary markers first, then the content. -/
def sbusDecode (s : Input) (out : Channels) (maxValues : ℕ) : Input × Channels × Bool :=
  if s.sbusFrame 0 ≠ sbusStartSymbol then
    ({ s with frameDrops := s.frameDrops + 1, decodeState := .desync }, out, false)
  else
    match endMarker (s.sbusFrame 24) with
    | none => ({ s with decodeState := .desync }, out, false)
    | some state => ({ s with decodeState := state }, readChannels s.sbusFrame out maxValues, true)

/-! ## The state machine -/

/-- `sbus_frame[partial_frame_count++] = frame[d]`. -/
def Input.push (s : Input) (b : UInt8) : Input :=
  { s with
    sbusFrame := Function.update s.sbusFrame s.partialFrameCount b
    partialFrameCount := s.partialFrameCount + 1 }

/-- A full buffer or a full frame that was not consumed starts over. -/
def Input.checkLimits (s : Input) : Input :=
  if s.partialFrameCount = sbusBufferSize ∨ s.partialFrameCount = sbusFrameSize then
    { s with partialFrameCount := 0, decodeState := .desync }
  else s

/-- The first start symbol behind the first byte of the partial frame; 0 when there is none. -/
def Input.secondStart (s : Input) : ℕ :=
  ((List.range' 1 (s.partialFrameCount - 1)).find? fun i => s.sbusFrame i == sbusStartSymbol).getD 0

/-- Offset recovery: go on with the frame that starts inside of the one that failed to decode. -/
def Input.recover (s : Input) (start : ℕ) : Input :=
  { s with
    sbusFrame := fun i =>
      if i < s.partialFrameCount - start then s.sbusFrame (i + start) else s.sbusFrame i
    partialFrameCount := s.partialFrameCount - start
    decodeState := .sbusStart }

/-- The frame states: collect 25 bytes and decode them. -/
def Input.collect (s : Input) (out : Channels) (ret : Bool) (b : UInt8) (maxChannels : ℕ) :
    Input × Channels × Bool :=
  let s := s.push b
  if s.partialFrameCount < sbusFrameSize then (s, out, ret)
  else
    let r := sbusDecode s out maxChannels
    let start := if r.2.2 = false ∧ r.1.decodeState = .desync then r.1.secondStart else 0
    if start ≠ 0 then (r.1.recover start, r.2)
    else ({ r.1 with partialFrameCount := 0 }, r.2)

/-- The telemetry states: skip a slot of `size` bytes that starts with `header`. -/
def Input.skipSlot (s : Input) (b : UInt8) (size : ℕ) (header : UInt8) : Input :=
  let s := s.push b
  let s :=
    if s.partialFrameCount = 1 ∧ s.sbusFrame 0 = sbusStartSymbol then
      { s with decodeState := .sbus2Sync }
    else s
  if s.partialFrameCount < size then s
  else if s.sbusFrame 0 = header then { s with partialFrameCount := 0 }
  else { s with decodeState := .desync, frameDrops := s.frameDrops + 1 }

/-- One round of the loop of `sbus_parse`; the last component is `decode_ret`. -/
def parseByte (maxChannels : ℕ) (r : Input × Channels × Bool) (b : UInt8) :
    Input × Channels × Bool :=
  let s := r.1.checkLimits
  match s.decodeState with
  | .desync =>
    if b = sbusStartSymbol then
      (({ s with decodeState := .sbusStart, partialFrameCount := 0 } : Input).push b, r.2)
    else (s, r.2)
  | .sbusStart => s.collect r.2.1 r.2.2 b maxChannels
  | .sbus1Sync => s.collect r.2.1 r.2.2 b maxChannels
  | .sbus2Sync => s.collect r.2.1 r.2.2 b maxChannels
  | .sbus2RxVoltage => (s.skipSlot b 3 0x03, r.2)
  | .sbus2Gps => (s.skipSlot b 24 0x13, r.2)
  | .sbus2Data1 => (s, r.2.1, false)
  | .sbus2Data2 => (s, r.2.1, false)

/-- `sbus_parse` on the bytes of one read. -/
def sbusParse (s : Input) (out : Channels) (now : UInt64) (bytes : List UInt8) (maxChannels : ℕ) :
    Input × Channels × Bool :=
  bytes.foldl (parseByte maxChannels) ({ s with lastRxTime := now }, out, false)

/-- Bytes that come one by one, each with the time of its read: the calls of `sbus_parse` and what
they return. -/
def feed (maxChannels : ℕ) : Input × Channels → List (UInt64 × UInt8) →
    (Input × Channels) × List Bool
  | s, [] => (s, [])
  | s, (now, b) :: rest =>
    let r := sbusParse s.1 s.2 now [b] maxChannels
    let next := feed maxChannels (r.1, r.2.1) rest
    (next.1, r.2.2 :: next.2)

end Rc
end DtPhm
