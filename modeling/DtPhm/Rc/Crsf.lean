import DtPhm.Lib.Bytes

/-!
# Crsf — the CRSF input of the RC library

The bytes of a read are copied into a buffer of 30 bytes, as many as fit, and after each copy at
most one frame is taken off its front.  Without synchronisation the buffer is searched for the
header of an RC frame.

* `crc8DvbS2`, `crsfFrameCRC` — the checksum;
* `Parser`, `parseBuffer` — `crsf_parse_buffer`: what it does to the buffer, and the frame that it
  accepts;
* `iterations` — the iterations of the loop over a read;
* `crsfParse` — what a read leaves for the caller;
* `iterations_parsed` — between two iterations there is always room in the buffer.

The buffer is the list of its first `current_frame_position` bytes, which are the only ones that are
read.  The scaling of a channel, which is done in floating point, is a parameter.
-/

namespace DtPhm
namespace Rc
namespace Crsf

open Lib

/-! ## Frames -/

/-- `CRSF_FRAME_SIZE_MAX`, the size of a `crsf_frame_t`. -/
def frameSizeMax : ℕ := 30

/-- `crsf_frame_type_t::rc_channels_packed`. -/
def rcChannelsPacked : UInt8 := 0x16

/-- `crsf_payload_size_t::rc_channels`. -/
def rcChannelsSize : UInt8 := 22

/-- `crc8_dvb_s2`. -/
def crc8DvbS2 (crc a : UInt8) : UInt8 :=
  (List.range 8).foldl
    (fun crc _ => if crc &&& 0x80 ≠ 0 then (crc <<< 1) ^^^ 0xD5 else crc <<< 1) (crc ^^^ a)

/-- `crc8_dvb_s2_buf`. -/
def crc8DvbS2Buf (buf : List UInt8) : UInt8 := buf.foldl crc8DvbS2 0

/-- `frame.header.length`. -/
def headerLength (frame : List UInt8) : UInt8 := frame.getD 1 0

/-- `frame.type`. -/
def frameType (frame : List UInt8) : UInt8 := frame.getD 2 0

/-- `frame.payload`. -/
def payload (frame : List UInt8) : List UInt8 := frame.drop 3

/-- `crsf_frame_CRC`. -/
def crsfFrameCRC (frame : List UInt8) : UInt8 :=
  ((payload frame).take ((headerLength frame).toNat - 2)).foldl crc8DvbS2
    (crc8DvbS2 0 (frameType frame))

/-- The test that a full frame must pass: it is an RC frame, and its checksum is right. -/
def accepts (frame : List UInt8) : Bool :=
  frameType frame == rcChannelsPacked && headerLength frame == rcChannelsSize + 2 &&
    (payload frame).getD ((headerLength frame).toNat - 2) 0 == crsfFrameCRC frame

/-! ## The buffer -/

/-- `crsf_parser_state_t`. -/
inductive ParserState where
  | unsynced | synced
deriving DecidableEq, Repr

/-- The static variables of the parser: the first `current_frame_position` bytes of `crsf_frame`,
and `parser_state`. -/
structure Parser where
  frame : List UInt8
  state : ParserState
deriving DecidableEq, Repr

/-- `current_frame_position`. -/
def Parser.position (p : Parser) : ℕ := p.frame.length

/-- The header of an RC frame stands at `i`. -/
def rcHeaderAt (frame : List UInt8) (i : ℕ) : Bool :=
  frame.getD i 0 == rcChannelsSize + 2 && frame.getD (i + 1) 0 == rcChannelsPacked

/-- The search for an RC frame; it is moved to the front of the buffer. -/
def Parser.search (p : Parser) : Parser :=
  match (List.range' 1 (p.position - 2)).find? (rcHeaderAt p.frame) with
  | none => p
  | some i => ⟨p.frame.drop (i - 1), .synced⟩

/-- `crsf_parse_buffer`: the buffer afterwards, and the frame that was accepted. -/
def parseBuffer (p : Parser) : Parser × Option (List UInt8) :=
  -- there is no sync byte, so the header of an RC frame is searched for
  let p := if p.state = .unsynced then p.search else p
  if p.state ≠ .synced then
    -- of a full buffer three bytes are kept: the frame may start there
    (if p.position ≥ frameSizeMax then { p with frame := p.frame.drop (frameSizeMax - 3) } else p,
      none)
  -- wait until the header and the type are there
  else if p.position < 3 then (p, none)
  else
    let currentFrameLength := (headerLength p.frame).toNat + 2
    -- too long or bogus: everything is discarded
    if currentFrameLength > frameSizeMax ∨ currentFrameLength < 4 then (⟨[], .unsynced⟩, none)
    -- wait for the full frame
    else if p.position < currentFrameLength then (p, none)
    else
      ({ p with frame := p.frame.drop currentFrameLength },
        if accepts p.frame then some (p.frame.take currentFrameLength) else none)

/-! ## The loop -/

/-- What an iteration of the loop of `crsf_parse` does. -/
inductive Iteration where
  | parsed (p : Parser) (accepted : Option (List UInt8))
  | noProgress
deriving DecidableEq, Repr

/-- `current_len`. -/
def Parser.currentLen (p : Parser) (len : ℕ) : ℕ := min len (frameSizeMax - p.position)

/-- The iterations over the bytes of a read. -/
def iterations (p : Parser) (bytes : List UInt8) : List Iteration :=
  if bytes = [] then []
  -- protection to guarantee parsing progress
  else if p.currentLen bytes.length = 0 then [.noProgress]
  else
    let r := parseBuffer { p with frame := p.frame ++ bytes.take (p.currentLen bytes.length) }
    .parsed r.1 r.2 :: iterations r.1 (bytes.drop (p.currentLen bytes.length))
termination_by bytes.length
decreasing_by
  rename_i hbytes hlen
  have := List.length_pos_iff.2 hbytes
  rw [List.length_drop]
  omega

/-- The variables of the caller that an RC frame is written to. -/
structure Output where
  values : ℕ → UInt16
  numValues : ℕ

/-- A channel of the payload, eleven bits. -/
def rcChannel (frame : List UInt8) (channel : ℕ) : ℕ :=
  leValue ((payload frame).take rcChannelsSize.toNat) >>> (11 * channel) % 2 ^ 11

/-- An RC frame is written to the caller's variables. -/
def Output.write (convertChannelValue : ℕ → UInt16) (maxChannels : ℕ) (out : Output)
    (frame : List UInt8) : Output where
  values := fun c =>
    if c < min maxChannels 16 then convertChannelValue (rcChannel frame c) else out.values c
  numValues := min maxChannels 16

/-- The parser, the caller's variables and `ret` after an iteration. -/
def Iteration.effect (convertChannelValue : ℕ → UInt16) (maxChannels : ℕ)
    (r : Parser × Output × Bool) : Iteration → Parser × Output × Bool
  | .parsed p none => (p, r.2)
  | .parsed p (some frame) => (p, r.2.1.write convertChannelValue maxChannels frame, true)
  | .noProgress => (⟨[], .unsynced⟩, r.2.1, false)

/-- `crsf_parse`. -/
def crsfParse (convertChannelValue : ℕ → UInt16) (p : Parser) (out : Output) (bytes : List UInt8)
    (maxChannels : ℕ) : Parser × Output × Bool :=
  (iterations p bytes).foldl (Iteration.effect convertChannelValue maxChannels) (p, out, false)

/-! ## Progress -/

theorem length_search_le (p : Parser) : p.search.position ≤ p.position := by
  unfold Parser.search Parser.position
  split
  · exact Nat.le_refl _
  · rw [List.length_drop]
    exact Nat.sub_le _ _

theorem position_parseBuffer_lt (p : Parser) (hp : p.position ≤ frameSizeMax) :
    (parseBuffer p).1.position < frameSizeMax := by
  have hsize : frameSizeMax = 30 := rfl
  have hq : (if p.state = .unsynced then p.search else p).position ≤ frameSizeMax := by
    split
    · exact (length_search_le p).trans hp
    · exact hp
  unfold parseBuffer
  dsimp only
  generalize (if p.state = .unsynced then p.search else p) = q at hq
  unfold Parser.position at *
  split
  · -- out of sync, three bytes are kept of a full buffer
    dsimp only
    split
    · rw [List.length_drop]
      omega
    · omega
  split
  · dsimp only
    omega
  split
  · exact Nat.zero_lt_succ _
  split
  · -- the frame is not complete, and not longer than the buffer
    dsimp only
    omega
  · rw [List.length_drop]
    omega

theorem Parser.currentLen_ne_zero {p : Parser} {bytes : List UInt8} (hp : p.position < frameSizeMax)
    (hbytes : bytes ≠ []) : p.currentLen bytes.length ≠ 0 := by
  have hpos := List.length_pos_iff.2 hbytes
  unfold Parser.currentLen
  omega

theorem position_filled_lt {p : Parser} (bytes : List UInt8) (hp : p.position < frameSizeMax) :
    (parseBuffer { p with
      frame := p.frame ++ bytes.take (p.currentLen bytes.length) }).1.position < frameSizeMax := by
  apply position_parseBuffer_lt
  unfold Parser.currentLen Parser.position at *
  rw [List.length_append, List.length_take]
  omega

/-- An iteration that finds room in the buffer makes progress, and leaves room for the next one. -/
theorem iterations_parsed (n : ℕ) : ∀ (p : Parser) (bytes : List UInt8), bytes.length ≤ n →
    p.position < frameSizeMax →
    ∀ it ∈ iterations p bytes, ∃ q accepted, it = .parsed q accepted ∧
      q.position < frameSizeMax := by
  induction n with
  | zero =>
      intro p bytes hn hp it hit
      rw [iterations, if_pos (List.length_eq_zero_iff.1 (by omega))] at hit
      cases hit
  | succ n ih =>
      intro p bytes hn hp it hit
      rw [iterations] at hit
      split at hit
      · cases hit
      rename_i hbytes
      have hpos := List.length_pos_iff.2 hbytes
      have hlen : p.currentLen bytes.length ≠ 0 := Parser.currentLen_ne_zero hp hbytes
      rw [if_neg hlen] at hit
      have hroom := position_filled_lt bytes hp
      rcases List.mem_cons.1 hit with rfl | hit
      · exact ⟨_, _, rfl, hroom⟩
      · refine ih _ _ ?_ hroom it hit
        rw [List.length_drop]
        omega

end Crsf
end Rc
end DtPhm
