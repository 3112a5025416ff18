import DtPhm.Lib.FrameReader
import DtPhm.Rc.CrsfStream
import DtPhm.Rc.SpektrumRssi

/-!
# Ghst — the IRC Ghost input of the RC library

The bytes of a read go through a buffer of 18 bytes, as in `crsf_parse`.  A frame carries the
channels 1 to 4 and, by its type, four others, so what the caller gets is put together from several
frames.

* `accepts`, `channelData` — the test of a full frame, and the channels in it;
* `Parser`, `parseBuffer`, `iterations` — what `ghst_parse_buffer` does to the buffer, and the loop
  over a read;
* `Receiver`, `Output`, `ghstParse` — the values of earlier frames, and what a read leaves for the
  caller;
* `reader`, `iterations_refills` — the parser as a reader of frames.

The buffer is the list of its first `current_frame_position` bytes.  The scaling of a channel, which
is done in floating point, is a parameter.
-/

namespace DtPhm
namespace Rc
namespace Ghst

open Lib
open Crsf (crc8DvbS2 crc8DvbS2Buf headerLength frameType payload)

/-! ## Frames -/

/-- `sizeof(ghst_frame_t)`. -/
def frameSize : ℕ := 18

/-- `GHST_TYPE_DATA_CRC_SIZE`. -/
def typeDataCrcSize : UInt8 := 12

/-- `GHST_MAX_NUM_CHANNELS`. -/
def maxNumChannels : ℕ := 16

/-- `ghstFrameType::frameTypeFirst`. -/
def frameTypeFirst : UInt8 := 0x10

/-- `ghstFrameType::frameTypeRssi`. -/
def frameTypeRssi : UInt8 := 0x13

/-- `ghstFrameType::frameTypeLast`. -/
def frameTypeLast : UInt8 := 0x1f

/-- The type is that of an RC frame. -/
def isRcType (type : UInt8) : Bool :=
  decide (frameTypeFirst ≤ type) && decide (type ≤ frameTypeLast)

/-- `ghst_frame_CRC`. -/
def ghstFrameCRC (frame : List UInt8) : UInt8 :=
  ((payload frame).take ((headerLength frame).toNat - 2)).foldl crc8DvbS2
    (crc8DvbS2 0 (frameType frame))

/-- The test that a full frame must pass. -/
def accepts (frame : List UInt8) : Bool :=
  isRcType (frameType frame) && headerLength frame == typeDataCrcSize &&
    (payload frame).getD ((headerLength frame).toNat - 2) 0 == ghstFrameCRC frame

/-- The first of the four channels that come by the type of the frame: `frameType5to8`,
`frameType9to12` and `frameType13to16`. -/
def firstOfGroup (type : UInt8) : Option ℕ :=
  if type = 0x10 then some 4
  else if type = 0x11 then some 8
  else if type = 0x12 then some 12
  else none

/-- What a frame says about a channel: twelve bits, of which the last is dropped, for the channels 1
to 4, and eight bits for the others. -/
def channelData (frame : List UInt8) (channel : ℕ) : Option ℕ :=
  if channel < 4 then
    some (((leValue ((payload frame).take 6) >>> (12 * channel)) % 2 ^ 12) >>> 1)
  else
    match firstOfGroup (frameType frame) with
    | none => none
    | some first =>
        if first ≤ channel ∧ channel < first + 4 then
          some (((payload frame).getD (6 + (channel - first)) 0).toNat <<< 3)
        else none

/-! ## The buffer -/

/-- `ghst_parser_state_t`. -/
inductive ParserState where
  | unsynced | synced
deriving DecidableEq, Repr

/-- The first `current_frame_position` bytes of `ghst_frame`, and `parser_state`. -/
structure Parser where
  frame : List UInt8
  state : ParserState
deriving DecidableEq, Repr

/-- `current_frame_position`. -/
def Parser.position (p : Parser) : ℕ := p.frame.length

/-- The length and the type of an RC frame stand at `i`. -/
def rcHeaderAt (frame : List UInt8) (i : ℕ) : Bool :=
  isRcType (frame.getD (i + 1) 0) && frame.getD i 0 == typeDataCrcSize

/-- The search for an RC frame; it is moved to the front of the buffer. -/
def Parser.search (p : Parser) : Parser :=
  match (List.range' 1 (p.position - 2)).find? (rcHeaderAt p.frame) with
  | none => p
  | some i => ⟨p.frame.drop (i - 1), .synced⟩

/-- `ghst_parse_buffer`: the buffer afterwards, and the frame that was accepted. -/
def parseBuffer (p : Parser) : Parser × Option (List UInt8) :=
  -- there is no sync yet
  let p := if p.state = .unsynced then p.search else p
  if p.state ≠ .synced then
    -- of a full buffer the last three bytes are kept
    (if p.position ≥ frameSize then { p with frame := p.frame.drop (frameSize - 3) } else p, none)
  -- wait for the address, the length and the type
  else if p.position < 3 then (p, none)
  else
    let currentFrameLength := (headerLength p.frame).toNat + 2
    -- too long or bogus: everything is discarded
    if currentFrameLength > frameSize ∨ currentFrameLength < 4 then (⟨[], .unsynced⟩, none)
    -- wait for the full frame
    else if p.position < currentFrameLength then (p, none)
    else
      ({ p with frame := p.frame.drop currentFrameLength },
        if accepts p.frame then some (p.frame.take currentFrameLength) else none)

/-! ## The loop -/

/-- What an iteration of the loop of `ghst_parse` does. -/
inductive Iteration where
  | parsed (p : Parser) (accepted : Option (List UInt8))
  | noProgress
deriving DecidableEq, Repr

/-- `current_len`. -/
def Parser.currentLen (p : Parser) (len : ℕ) : ℕ := min len (frameSize - p.position)

/-- The iterations over the bytes of a read. -/
def iterations (p : Parser) (bytes : List UInt8) : List Iteration :=
  if bytes = [] then []
  -- protection to guarantee parsing progress: the parser is reset
  else if p.currentLen bytes.length = 0 then .noProgress :: iterations ⟨[], .unsynced⟩ bytes
  else
    let r := parseBuffer { p with frame := p.frame ++ bytes.take (p.currentLen bytes.length) }
    .parsed r.1 r.2 :: iterations r.1 (bytes.drop (p.currentLen bytes.length))
termination_by (bytes.length, p.frame.length)
decreasing_by
  · rename_i hbytes hlen
    have := List.length_pos_iff.2 hbytes
    have hfull : 0 < p.frame.length := by
      unfold Parser.currentLen Parser.position frameSize at hlen
      omega
    exact Prod.Lex.right _ hfull
  · rename_i hbytes hlen
    have := List.length_pos_iff.2 hbytes
    refine Prod.Lex.left _ _ ?_
    rw [List.length_drop]
    omega

/-! ## Reads -/

/-- The static variables: the parser, `prev_rc_vals`, and `ghst_rssi`. -/
structure Receiver where
  parser : Parser
  prevRcVals : ℕ → UInt16
  ghstRssi : Int8

/-- The variables of the caller. -/
structure Output where
  values : ℕ → UInt16
  rssi : Int8
  numValues : ℕ

/-- The values after a frame: the channels that it carries are converted, the others stay. -/
def merge (convertChannelValue : ℕ → UInt16) (maxChannels : ℕ) (values : ℕ → UInt16)
    (frame : List UInt8) : ℕ → UInt16 := fun channel =>
  if channel < maxChannels then
    ((channelData frame channel).map convertChannelValue).getD (values channel)
  else values channel

/-- What is known of the signal strength after a frame. -/
def rssiAfter (ghstRssi : Int8) (frame : List UInt8) : Int8 :=
  if frameType frame = frameTypeRssi then spekDbmToPercent ((payload frame).getD 7 0).toInt8
  else ghstRssi

/-- `memcpy` of the channels. -/
def copyChannels (values prev : ℕ → UInt16) : ℕ → UInt16 := fun channel =>
  if channel < maxNumChannels then values channel else prev channel

/-- The static variables, the caller's variables and `success` after an iteration. -/
def Iteration.effect (convertChannelValue : ℕ → UInt16) (maxChannels : ℕ)
    (r : Receiver × Output × Bool) : Iteration → Receiver × Output × Bool
  | .parsed p none => ({ r.1 with parser := p }, r.2)
  | .parsed p (some frame) =>
      let values := merge convertChannelValue maxChannels r.2.1.values frame
      let rssi := rssiAfter r.1.ghstRssi frame
      (⟨p, copyChannels values r.1.prevRcVals, rssi⟩,
        ⟨values, rssi, min maxChannels maxNumChannels⟩, true)
  | .noProgress => ({ r.1 with parser := ⟨[], .unsynced⟩ }, r.2.1, false)

/-- `ghst_parse`, which starts with the values of the last frame. -/
def ghstParse (convertChannelValue : ℕ → UInt16) (r : Receiver) (out : Output) (bytes : List UInt8)
    (maxChannels : ℕ) : Receiver × Output × Bool :=
  (iterations r.parser bytes).foldl (Iteration.effect convertChannelValue maxChannels)
    (r, { out with values := copyChannels r.prevRcVals out.values }, false)

/-! ## Progress -/

theorem length_search_le (p : Parser) : p.search.position ≤ p.position := by
  unfold Parser.search Parser.position
  split
  · exact Nat.le_refl _
  · rw [List.length_drop]
    exact Nat.sub_le _ _

theorem position_parseBuffer_lt (p : Parser) (hp : p.position ≤ frameSize) :
    (parseBuffer p).1.position < frameSize := by
  have hsize : frameSize = 18 := rfl
  have hq : (if p.state = .unsynced then p.search else p).position ≤ frameSize := by
    split
    · exact (length_search_le p).trans hp
    · exact hp
  unfold parseBuffer
  dsimp only
  generalize (if p.state = .unsynced then p.search else p) = q at hq
  unfold Parser.position at *
  split
  · -- out of sync, three bytes are kept of a full buffer
    dsimp only
    split
    · rw [List.length_drop]
      omega
    · omega
  split
  · dsimp only
    omega
  split
  · exact Nat.zero_lt_succ _
  split
  · -- the frame is not complete, and not longer than the buffer
    dsimp only
    omega
  · rw [List.length_drop]
    omega

theorem Parser.currentLen_ne_zero {p : Parser} {bytes : List UInt8} (hp : p.position < frameSize)
    (hbytes : bytes ≠ []) : p.currentLen bytes.length ≠ 0 := by
  have hpos := List.length_pos_iff.2 hbytes
  unfold Parser.currentLen
  omega

theorem position_filled_lt {p : Parser} (bytes : List UInt8) (hp : p.position < frameSize) :
    (parseBuffer { p with
      frame := p.frame ++ bytes.take (p.currentLen bytes.length) }).1.position < frameSize := by
  apply position_parseBuffer_lt
  unfold Parser.currentLen Parser.position at *
  rw [List.length_append, List.length_take]
  omega

/-- The parser as a reader of frames. -/
def reader : FrameReader Parser UInt8 where
  size := frameSize
  buffer := Parser.frame
  put := fun p frame => { p with frame := frame }
  buffer_put := fun _ _ => rfl
  parse := parseBuffer

/-- What the iterations over a read do. -/
def refillsOf (p : Parser) (bytes : List UInt8) : List (Parser × Option (List UInt8)) :=
  (iterations p bytes).filterMap fun
    | .parsed q accepted => some (q, accepted)
    | .noProgress => none

/-- Where there is room in the buffer, every iteration is a refill, and leaves room for the next
one. -/
theorem iterations_refills (n : ℕ) : ∀ (p : Parser) (bytes : List UInt8), bytes.length ≤ n →
    p.position < frameSize →
    iterations p bytes = (refillsOf p bytes).map (fun it => .parsed it.1 it.2) ∧
      FrameReader.Refills reader p bytes (refillsOf p bytes) ∧
      (FrameReader.after p (refillsOf p bytes)).position < frameSize := by
  have hnil : ∀ p : Parser, iterations p [] = [] := fun p => by rw [iterations, if_pos rfl]
  induction n with
  | zero =>
      intro p bytes hn hp
      obtain rfl := List.length_eq_zero_iff.1 (Nat.le_zero.1 hn)
      rw [refillsOf, hnil]
      exact ⟨rfl, .done p, hp⟩
  | succ n ih =>
      intro p bytes hn hp
      by_cases hbytes : bytes = []
      · subst hbytes
        rw [refillsOf, hnil]
        exact ⟨rfl, .done p, hp⟩
      have hpos := List.length_pos_iff.2 hbytes
      have hlen : p.currentLen bytes.length ≠ 0 := Parser.currentLen_ne_zero hp hbytes
      have hroom : (reader.refill p bytes).1.position < frameSize := position_filled_lt bytes hp
      have hiterations : iterations p bytes =
          .parsed (reader.refill p bytes).1 (reader.refill p bytes).2 ::
            iterations (reader.refill p bytes).1 (bytes.drop (p.currentLen bytes.length)) := by
        rw [iterations, if_neg hbytes, if_neg hlen]
        rfl
      have hrefills : refillsOf p bytes = reader.refill p bytes ::
          refillsOf (reader.refill p bytes).1 (bytes.drop (p.currentLen bytes.length)) := by
        rw [refillsOf, hiterations]
        rfl
      obtain ⟨hmap, hrest, hafter⟩ := ih (reader.refill p bytes).1
        (bytes.drop (p.currentLen bytes.length)) (by rw [List.length_drop]; omega) hroom
      refine ⟨?_, ?_, ?_⟩
      · rw [hiterations, hmap, hrefills]
        rfl
      · rw [hrefills]
        exact .refill hbytes hp hrest
      · rw [hrefills]
        exact hafter

end Ghst
end Rc
end DtPhm
