import DtPhm.Lib.Bytes
import DtPhm.Lib.Family
import DtPhm.Rc.SpektrumRssi
import Mathlib.Data.List.Nodup

/-!
# Dsm — the Spektrum input of the RC library

A frame has seven words, each with the address of a channel and the position of its servo.  Nothing
tells how the two share a word, so the format is guessed from what frames come in.

* `dsmDecodeChannel` — the channel and the value of a word;
* `dsmGuessFormat`, `decodeWords`, `dsmDecode` — the guess, the words of a frame, and a frame;
* `documentedChannel` — the channel of a word as it is documented;
* `Decodes` — what a frame should do;
* `decodeWords_of_nodup`, `decodeWords_of_not_nodup` — what a frame does;
* `dsm_decodes_iff` — the frames for which these agree.

The position is scaled in floating point and rounded; `scaled` is the same number for the positions
that fit in their fields.
-/

namespace DtPhm
namespace Rc
namespace Dsm

open Lib

/-! ## Channels -/

/-- `DSM_MAX_CHANNEL_COUNT`. -/
def maxChannelCount : ℕ := 18

/-- `DSM_FRAME_CHANNELS`. -/
def frameChannels : ℕ := 7

/-- The offset of the pulses in microseconds. -/
def offset : ℕ := 903

/-- `roundf` of a position times so many thousandths. -/
def scaled (thousandths servoPosition : ℕ) : ℕ := (thousandths * servoPosition + 500) / 1000

/-- A realistic value. -/
def InRange (value : UInt16) : Prop := 903 ≤ value ∧ value ≤ 2097

instance (value : UInt16) : Decidable (InRange value) := inferInstanceAs (Decidable (_ ∧ _))

/-- The value, if it is realistic. -/
def checkRange (channel : ℕ) (value : UInt16) : Option (ℕ × UInt16) :=
  if InRange value then some (channel, value) else none

/-- The value of a position in the format of 11 bits. -/
def pwm (servoPosition : UInt16) : UInt16 := UInt16.ofNat (scaled 583 servoPosition.toNat + offset)

/-- Bits 14 to 11. -/
def address (raw : UInt16) : ℕ := ((raw >>> 11) &&& 0x0F).toNat

/-- Bits 10 and 9. -/
def subAddress (raw : UInt16) : ℕ := ((raw >>> 9) &&& 0x03).toNat

/-- `dsm_decode_channel`. -/
def dsmDecodeChannel (raw : UInt16) (shift : ℕ) : Option (ℕ × UInt16) :=
  if raw = 0 ∨ raw = 0xffff then none
  else if shift = 10 then
    let channel := ((raw &&& 0xFC00) >>> 10).toNat
    let servoPosition := raw &&& 0x03FF
    if maxChannelCount < channel then none
    else checkRange channel (UInt16.ofNat (scaled 1166 servoPosition.toNat + offset))
  else if shift = 11 then
    let phase : Bool := raw &&& ((2 : UInt16) >>> 15) ≠ 0
    let chan := address raw
    if chan < 12 then
      checkRange chan (pwm (raw &&& 0x07FF))
    else if chan = 12 then
      let chan := chan + subAddress raw
      let chan := if phase then chan + 4 else chan
      if maxChannelCount < chan then none
      else checkRange chan (pwm ((raw &&& 0x01FF) <<< 2))
    else none
  else none

/-! ## The format -/

/-- The static variables. -/
structure Receiver where
  channelShift : ℕ
  lastFrameTime : UInt64
  cs10 : UInt32
  cs11 : UInt32
  samples : ℕ

/-- `dsm_guess_format(true)`. -/
def Receiver.reset (r : Receiver) : Receiver :=
  { r with cs10 := 0, cs11 := 0, samples := 0, channelShift := 0 }

/-- The channels of a frame in a format, and whether none of them came twice. -/
def sniff (shift : ℕ) (words : List UInt16) : List ℕ × Bool :=
  words.foldl
    (fun s raw =>
      match dsmDecodeChannel raw shift with
      | some (channel, _) => if channel ∈ s.1 then (s.1, false) else (channel :: s.1, s.2)
      | none => s)
    ([], true)

/-- The channels of a valid frame are added to the mask. -/
def addChannels (cs : UInt32) (sniffed : List ℕ × Bool) : UInt32 :=
  if sniffed.2 then
    (List.range frameChannels).foldl
      (fun cs channel => if channel ∈ sniffed.1 then cs ||| (1 <<< UInt32.ofNat channel) else cs) cs
  else cs

/-- `masks`. -/
def masks : List UInt32 := [0x3f, 0x7f, 0xff, 0x1ff, 0x3ff, 0x1fff, 0xffff, 0x3ffff]

/-- `dsm_guess_format(false)`. -/
def dsmGuessFormat (r : Receiver) (words : List UInt16) : Receiver × Bool :=
  let r := { r with
    cs10 := addChannels r.cs10 (sniff 10 words)
    cs11 := addChannels r.cs11 (sniff 11 words)
    samples := r.samples + 1 }
  if r.samples < 10 then (r, false)
  else if masks.count r.cs11 = 1 ∧ masks.count r.cs10 = 0 then ({ r with channelShift := 11 }, true)
  else if masks.count r.cs10 = 1 ∧ masks.count r.cs11 = 0 then ({ r with channelShift := 10 }, true)
  else (r.reset, false)

/-! ## Signal strength -/

/-- The signal strength in the first byte of a frame. -/
def rssiPercent (first : Int8) : Int8 :=
  if first < 0 then
    if first = -128 then 0 else spekDbmToPercent first
  else 127

/-! ## Frames -/

/-- The variables of the caller; the signal strength may not be asked for. -/
structure Output where
  values : ℕ → UInt16
  numValues : ℕ
  dsm11Bit : Bool
  rssi : Option Int8

/-- How the loop over the words ends: the frame is discarded, or the format is guessed anew. -/
inductive Outcome
  | decoded
  | discarded
  | reset
  deriving DecidableEq, Repr

/-- Throttle, aileron and elevator come in another order. -/
def reorder : ℕ → ℕ
  | 0 => 2
  | 1 => 0
  | 2 => 1
  | channel => channel

/-- The loop over the words, with the channels found and the number of failures so far. -/
def decodeWords (shift maxValues : ℕ) :
    List UInt16 → List ℕ → ℕ → Output → Outcome × Output
  | [], _, _, out => (.decoded, out)
  | raw :: words, found, failures, out =>
      if raw = 0 ∨ raw = 0xffff then decodeWords shift maxValues words found failures out
      else
        match dsmDecodeChannel raw shift with
        | none => decodeWords shift maxValues words found (failures + 1) out
        | some (channel, value) =>
            if 4 ≤ failures then (.discarded, out)
            else if channel ∈ found then (.reset, out)
            else if maxChannelCount < channel then (.reset, out)
            else if maxValues ≤ channel then
              decodeWords shift maxValues words (channel :: found) failures out
            else
              decodeWords shift maxValues words (channel :: found) failures
                { out with
                  numValues := if out.numValues ≤ channel then channel + 1 else out.numValues
                  values := Function.update out.values (reorder channel) value }

/-- Word `i` of a frame. -/
def rawWord (frame : Mem) (i : ℕ) : UInt16 :=
  ((frame (2 + 2 * i)).toUInt16 <<< 8) ||| (frame (2 + 2 * i + 1)).toUInt16

def rawWords (frame : Mem) : List UInt16 := (List.range frameChannels).map (rawWord frame)

/-- A frame in a known format. -/
def decodeFrame (r : Receiver) (frame : Mem) (frameTime : UInt64) (maxValues : ℕ) (out : Output) :
    Receiver × Output × Bool :=
  let out : Output := { out with rssi := out.rssi.map fun _ => rssiPercent (frame 0).toInt8 }
  match decodeWords r.channelShift maxValues (rawWords frame) [] 0 out with
  | (.discarded, out) => (r, out, false)
  | (.reset, out) => (r.reset, out, false)
  | (.decoded, out) =>
      let out : Output := { out with dsm11Bit := r.channelShift == 11 }
      let r := { r with lastFrameTime := frameTime }
      if ∀ i ∈ List.range out.numValues, InRange (out.values i) then (r, out, true)
      else (r, { out with numValues := 0 }, false)

/-- The signal was lost for at least a second. -/
def Receiver.Lost (r : Receiver) (frameTime : UInt64) : Prop :=
  1000000 < frameTime - r.lastFrameTime

instance (r : Receiver) (frameTime : UInt64) : Decidable (r.Lost frameTime) :=
  inferInstanceAs (Decidable (_ < _))

/-- `dsm_decode`. -/
def dsmDecode (r : Receiver) (frame : Mem) (frameTime : UInt64) (maxValues : ℕ) (out : Output) :
    Receiver × Output × Bool :=
  let r := if r.Lost frameTime ∧ r.channelShift ≠ 0 then r.reset else r
  if r.channelShift = 0 then
    match dsmGuessFormat r (rawWords frame) with
    | (r, true) => decodeFrame r frame frameTime maxValues out
    | (r, false) => (r, out, false)
  else decodeFrame r frame frameTime maxValues out

/-! ## Documentation -/

/-- Bit 15, which is part of the address of an extended channel. -/
def phase (raw : UInt16) : Bool := raw &&& (0x8000 : UInt16) ≠ 0

def documentedChannel (raw : UInt16) : ℕ :=
  if address raw < 12 then address raw else 12 + subAddress raw + if phase raw then 4 else 0

def servoPosition (raw : UInt16) : UInt16 :=
  if address raw < 12 then raw &&& 0x07FF else (raw &&& 0x01FF) <<< 2

/-- A word with a channel. -/
structure Decodable (raw : UInt16) : Prop where
  ne_zero : raw ≠ 0
  ne_ones : raw ≠ 0xffff
  address : address raw ≤ 12
  channel : documentedChannel raw ≤ maxChannelCount

instance (raw : UInt16) : Decidable (Decodable raw) :=
  decidable_of_iff
    (raw ≠ 0 ∧ raw ≠ 0xffff ∧ address raw ≤ 12 ∧ documentedChannel raw ≤ maxChannelCount)
    ⟨fun h => ⟨h.1, h.2.1, h.2.2.1, h.2.2.2⟩,
      fun h => ⟨h.ne_zero, h.ne_ones, h.address, h.channel⟩⟩

/-- The values of the words under the numbers of their channels. -/
def stores (channel : UInt16 → ℕ) (maxValues : ℕ) (words : List UInt16) : List (ℕ × UInt16) :=
  (words.filter fun raw => channel raw < maxValues).map fun raw =>
    (reorder (channel raw), pwm (servoPosition raw))

/-- There is a realistic value for each channel. -/
structure Complete (maxValues : ℕ) (out : Output) : Prop where
  all : maxValues ≤ out.numValues
  range : ∀ i < out.numValues, InRange (out.values i)

/-- The frame is decoded as documented, whatever the values of earlier frames are. -/
def Decodes (r : Receiver) (frame : Mem) (frameTime : UInt64) (maxValues : ℕ) : Prop :=
  ∀ out, Complete maxValues out →
    (dsmDecode r frame frameTime maxValues out).2.2 = true ∧
      (dsmDecode r frame frameTime maxValues out).2.1.values =
        callEach write (stores documentedChannel maxValues (rawWords frame)) out.values

/-! ## Words -/

/-- The channel of a word as it is decoded: the phase is masked with nothing. -/
def codedChannel (raw : UInt16) : ℕ :=
  if address raw < 12 then address raw else 12 + subAddress raw

theorem subAddress_lt (raw : UInt16) : subAddress raw < 4 := by
  have hle : subAddress raw ≤ 3 := by
    rw [subAddress, UInt16.toNat_and]
    exact Nat.and_le_right
  omega

theorem servoPosition_lt (raw : UInt16) : (servoPosition raw).toNat < 2048 := by
  unfold servoPosition
  split
  · rw [UInt16.toNat_and]
    exact Nat.lt_of_le_of_lt Nat.and_le_right (by decide)
  · have hlow : (raw &&& 0x01FF).toNat ≤ 511 := by
      rw [UInt16.toNat_and]
      exact Nat.and_le_right
    rw [UInt16.toNat_shiftLeft, show (2 : UInt16).toNat % 16 = 2 by decide, Nat.shiftLeft_eq]
    omega

theorem inRange_pwm {position : UInt16} (h : position.toNat < 2048) : InRange (pwm position) := by
  have hvalue : (pwm position).toNat = scaled 583 position.toNat + 903 := by
    rw [pwm, UInt16.toNat_ofNat', Nat.mod_eq_of_lt]
    · rfl
    · unfold scaled offset
      omega
  unfold InRange
  rw [UInt16.le_iff_toNat_le, UInt16.le_iff_toNat_le, hvalue]
  constructor
  · exact Nat.le_add_left _ _
  · unfold scaled
    have hmost : (2097 : UInt16).toNat = 2097 := rfl
    omega

theorem dsmDecodeChannel_eq {raw : UInt16} (h : Decodable raw) :
    dsmDecodeChannel raw 11 = some (codedChannel raw, pwm (servoPosition raw)) := by
  have hsub := subAddress_lt raw
  have hrange : ∀ channel, checkRange channel (pwm (servoPosition raw)) =
      some (channel, pwm (servoPosition raw)) :=
    fun channel => if_pos (inRange_pwm (servoPosition_lt raw))
  have hignored : ¬ (raw = 0 ∨ raw = 0xffff) := not_or.2 ⟨h.ne_zero, h.ne_ones⟩
  have hphase : raw &&& ((2 : UInt16) >>> 15) = 0 := UInt16.and_zero
  rw [dsmDecodeChannel, if_neg hignored, if_neg (by decide), if_pos rfl]
  by_cases haddress : address raw < 12
  · have hposition : servoPosition raw = raw &&& 0x07FF := if_pos haddress
    have hchannel : codedChannel raw = address raw := if_pos haddress
    rw [hchannel]
    simp only [haddress, if_true, ← hposition, hrange]
  · have htwelve : address raw = 12 := Nat.le_antisymm h.address (Nat.le_of_not_lt haddress)
    have hposition : servoPosition raw = (raw &&& 0x01FF) <<< 2 := if_neg haddress
    have hchannel : codedChannel raw = 12 + subAddress raw := if_neg haddress
    have hmost : 12 + subAddress raw ≤ maxChannelCount := by
      unfold maxChannelCount
      omega
    rw [hchannel]
    simp only [htwelve, hphase, ← hposition, hrange]
    simpa using hmost

theorem codedChannel_le (raw : UInt16) : codedChannel raw ≤ 15 := by
  have hsub := subAddress_lt raw
  unfold codedChannel
  split
  · omega
  · omega

theorem reorder_injective : Function.Injective reorder := by
  intro a b h
  match a, b with
  | 0, 0 => rfl
  | 1, 1 => rfl
  | 2, 2 => rfl
  | a + 3, b + 3 => exact h
  | 0, 1 => cases h
  | 0, 2 => cases h
  | 0, b + 3 => cases h
  | 1, 0 => cases h
  | 1, 2 => cases h
  | 1, b + 3 => cases h
  | 2, 0 => cases h
  | 2, 1 => cases h
  | 2, b + 3 => cases h
  | a + 3, 0 => cases h
  | a + 3, 1 => cases h
  | a + 3, 2 => cases h

/-! ## What a frame does -/

section Words

variable {maxValues : ℕ}

theorem stores_cons (channel : UInt16 → ℕ) (raw : UInt16) (words : List UInt16) :
    stores channel maxValues (raw :: words) =
      if channel raw < maxValues then
        (reorder (channel raw), pwm (servoPosition raw)) :: stores channel maxValues words
      else stores channel maxValues words := by
  unfold stores
  by_cases h : channel raw < maxValues
  · simp [h]
  · simp [h]

theorem decodeWords_cons {raw : UInt16} (h : Decodable raw) (words : List UInt16) (found : List ℕ)
    {out : Output} (hcount : maxValues ≤ out.numValues) :
    decodeWords 11 maxValues (raw :: words) found 0 out =
      if codedChannel raw ∈ found then (.reset, out)
      else decodeWords 11 maxValues words (codedChannel raw :: found) 0
        (if codedChannel raw < maxValues then
          { out with
            values :=
              Function.update out.values (reorder (codedChannel raw)) (pwm (servoPosition raw)) }
        else out) := by
  have hignored : ¬ (raw = 0 ∨ raw = 0xffff) := not_or.2 ⟨h.ne_zero, h.ne_ones⟩
  have hmost : ¬ maxChannelCount < codedChannel raw := by
    have := codedChannel_le raw
    unfold maxChannelCount
    omega
  have hfailures : ¬ 4 ≤ 0 := by decide
  rw [decodeWords, if_neg hignored, dsmDecodeChannel_eq h]
  dsimp only
  rw [if_neg hfailures, if_neg hmost]
  by_cases hmax : codedChannel raw < maxValues
  · have hkeep : ¬ out.numValues ≤ codedChannel raw := by omega
    rw [if_neg (Nat.not_le.2 hmax), if_pos hmax, if_neg hkeep]
  · rw [if_pos (Nat.le_of_not_lt hmax), if_neg hmax]

theorem nodup_append_cons {found : List ℕ} {raw : UInt16} {words : List UInt16} :
    (found ++ (raw :: words).map codedChannel).Nodup ↔
      codedChannel raw ∉ found ∧ ((codedChannel raw :: found) ++ words.map codedChannel).Nodup := by
  rw [List.map_cons, List.perm_middle.nodup_iff, List.cons_append, List.nodup_cons]
  constructor
  · exact fun h => ⟨fun hmem => h.1 (List.mem_append_left _ hmem), h⟩
  · exact fun h => h.2

theorem decodeWords_of_nodup : ∀ {words : List UInt16} {found : List ℕ} {out : Output},
    (∀ raw ∈ words, Decodable raw) → maxValues ≤ out.numValues →
    (found ++ words.map codedChannel).Nodup →
    decodeWords 11 maxValues words found 0 out =
      (.decoded,
        { out with values := callEach write (stores codedChannel maxValues words) out.values
          }) := by
  intro words
  induction words with
  | nil => exact fun _ _ _ => rfl
  | cons raw words ih =>
      intro found out hwords hcount hnodup
      obtain ⟨hmem, hnext⟩ := nodup_append_cons.1 hnodup
      have hrest : ∀ r ∈ words, Decodable r := fun r hr => hwords r (List.mem_cons_of_mem _ hr)
      rw [decodeWords_cons (hwords raw List.mem_cons_self) words found hcount, if_neg hmem,
        stores_cons]
      by_cases hmax : codedChannel raw < maxValues
      · rw [if_pos hmax, if_pos hmax]
        exact ih hrest hcount hnext
      · rw [if_neg hmax, if_neg hmax]
        exact ih hrest hcount hnext

theorem decodeWords_of_not_nodup : ∀ {words : List UInt16} {found : List ℕ} {out : Output},
    (∀ raw ∈ words, Decodable raw) → maxValues ≤ out.numValues → found.Nodup →
    ¬ (found ++ words.map codedChannel).Nodup →
    (decodeWords 11 maxValues words found 0 out).1 = .reset := by
  intro words
  induction words with
  | nil =>
      intro found _ _ _ hfound hnot
      rw [List.map_nil, List.append_nil] at hnot
      exact absurd hfound hnot
  | cons raw words ih =>
      intro found out hwords hcount hfound hnot
      have hrest : ∀ r ∈ words, Decodable r := fun r hr => hwords r (List.mem_cons_of_mem _ hr)
      rw [decodeWords_cons (hwords raw List.mem_cons_self) words found hcount]
      by_cases hmem : codedChannel raw ∈ found
      · rw [if_pos hmem]
      · have hnext : ¬ ((codedChannel raw :: found) ++ words.map codedChannel).Nodup :=
          fun h => hnot (nodup_append_cons.2 ⟨hmem, h⟩)
        rw [if_neg hmem]
        refine ih hrest ?_ (List.nodup_cons.2 ⟨hmem, hfound⟩) hnext
        split
        · exact hcount
        · exact hcount

end Words

/-- The format has 11 bits, and the signal was not lost. -/
structure InElevenBit (r : Receiver) (frameTime : UInt64) : Prop where
  shift : r.channelShift = 11
  present : ¬ r.Lost frameTime

variable {r : Receiver} {frame : Mem} {frameTime : UInt64} {maxValues : ℕ}

theorem dsmDecode_eq (h : InElevenBit r frameTime) (out : Output) :
    dsmDecode r frame frameTime maxValues out = decodeFrame r frame frameTime maxValues out := by
  have hkeep : ¬ (r.Lost frameTime ∧ r.channelShift ≠ 0) := fun hlost => h.present hlost.1
  have hknown : r.channelShift ≠ 0 := by
    rw [h.shift]
    decide
  rw [dsmDecode, if_neg hkeep]
  exact if_neg hknown

theorem dsmDecode_of_nodup (h : InElevenBit r frameTime)
    (hwords : ∀ raw ∈ rawWords frame, Decodable raw)
    (hnodup : ((rawWords frame).map codedChannel).Nodup) {out : Output}
    (hout : Complete maxValues out) :
    (dsmDecode r frame frameTime maxValues out).2.2 = true ∧
      (dsmDecode r frame frameTime maxValues out).2.1.values =
        callEach write (stores codedChannel maxValues (rawWords frame)) out.values := by
  have hstored : ∀ c ∈ stores codedChannel maxValues (rawWords frame), InRange c.2 := by
    intro c hc
    obtain ⟨raw, -, rfl⟩ := List.mem_map.1 hc
    exact inRange_pwm (servoPosition_lt raw)
  have hrange : ∀ i ∈ List.range out.numValues,
      InRange (callEach write (stores codedChannel maxValues (rawWords frame)) out.values i) :=
    fun i hi => callEach_write_of_forall hstored (hout.range i (List.mem_range.1 hi))
  have hdecoded := @decodeWords_of_nodup maxValues (rawWords frame) []
    { out with rssi := out.rssi.map fun _ => rssiPercent (frame 0).toInt8 } hwords hout.all
    (by rwa [List.nil_append])
  rw [dsmDecode_eq h, decodeFrame, h.shift]
  dsimp only at hdecoded ⊢
  rw [hdecoded]
  dsimp only
  rw [if_pos hrange]
  exact ⟨rfl, rfl⟩

theorem dsmDecode_of_not_nodup (h : InElevenBit r frameTime)
    (hwords : ∀ raw ∈ rawWords frame, Decodable raw)
    (hnot : ¬ ((rawWords frame).map codedChannel).Nodup) {out : Output}
    (hout : Complete maxValues out) :
    (dsmDecode r frame frameTime maxValues out).2.2 = false := by
  have hreset := @decodeWords_of_not_nodup maxValues (rawWords frame) []
    { out with rssi := out.rssi.map fun _ => rssiPercent (frame 0).toInt8 } hwords hout.all
    List.nodup_nil (by rwa [List.nil_append])
  rw [dsmDecode_eq h, decodeFrame, h.shift]
  dsimp only
  split
  · rfl
  · rfl
  · rename_i heq
    rw [heq] at hreset
    cases hreset

/-! ## The phase -/

theorem documentedChannel_of_twelve {raw : UInt16} (h : address raw = 12) :
    documentedChannel raw = codedChannel raw + if phase raw then 4 else 0 := by
  have hlt : ¬ address raw < 12 := by omega
  unfold documentedChannel codedChannel
  rw [if_neg hlt, if_neg hlt]

theorem documentedChannel_of_lt {raw : UInt16} (h : address raw < 12) :
    documentedChannel raw = codedChannel raw := by
  unfold documentedChannel codedChannel
  rw [if_pos h, if_pos h]

theorem address_of_codedChannel {raw : UInt16} (h : Decodable raw) {n : ℕ}
    (hn : codedChannel raw = 12 + n) : address raw = 12 ∧ subAddress raw = n := by
  have haddress := h.address
  unfold codedChannel at hn
  by_cases hlt : address raw < 12
  · rw [if_pos hlt] at hn
    omega
  · rw [if_neg hlt] at hn
    omega

/-- A word with a phase is decoded under a number that is not its own.  It does no harm if the
number is not asked for and if no other word has it. -/
def Harmless (words : List UInt16) (maxValues : ℕ) (raw : UInt16) : Prop :=
  maxValues ≤ 12 + subAddress raw ∧
    ∀ other ∈ words, address other = 12 → subAddress other = subAddress raw → other = raw

instance (words : List UInt16) (maxValues : ℕ) (raw : UInt16) :
    Decidable (Harmless words maxValues raw) :=
  inferInstanceAs (Decidable (_ ∧ _))

/-- The condition on the words of a frame. -/
def PhaseUnused (words : List UInt16) (maxValues : ℕ) : Prop :=
  ∀ raw ∈ words, address raw = 12 → phase raw = true → Harmless words maxValues raw

instance (words : List UInt16) (maxValues : ℕ) : Decidable (PhaseUnused words maxValues) :=
  List.decidableBAll _ words

variable {words : List UInt16}

theorem PhaseUnused.nodup (h : PhaseUnused words maxValues) (hwords : ∀ raw ∈ words, Decodable raw)
    (hnodup : (words.map documentedChannel).Nodup) : (words.map codedChannel).Nodup := by
  refine List.Nodup.map_on ?_ hnodup.of_map
  intro raw hraw other hother heq
  have hinj : documentedChannel raw = documentedChannel other → raw = other :=
    fun hsame => List.inj_on_of_nodup_map hnodup hraw hother hsame
  by_cases hlt : address raw < 12
  · have hcoded : codedChannel raw = address raw := if_pos hlt
    have hlt' : address other < 12 := by
      by_contra hnot
      have hother' : codedChannel other = 12 + subAddress other := if_neg hnot
      omega
    exact hinj (by rw [documentedChannel_of_lt hlt, documentedChannel_of_lt hlt', heq])
  · have hcoded : codedChannel raw = 12 + subAddress raw := if_neg hlt
    obtain ⟨haddress, -⟩ := address_of_codedChannel (hwords raw hraw) hcoded
    obtain ⟨haddress', hsub⟩ :=
        address_of_codedChannel (hwords other hother) (heq.symm.trans hcoded)
    by_cases hphase : phase raw = true
    · exact ((h raw hraw haddress hphase).2 other hother haddress' hsub).symm
    by_cases hphase' : phase other = true
    · exact (h other hother haddress' hphase').2 raw hraw haddress hsub.symm
    refine hinj ?_
    rw [documentedChannel_of_twelve haddress, documentedChannel_of_twelve haddress', if_neg hphase,
      if_neg hphase', heq]

theorem PhaseUnused.stores_eq (h : PhaseUnused words maxValues)
    (hwords : ∀ raw ∈ words, Decodable raw) :
    stores codedChannel maxValues words = stores documentedChannel maxValues words := by
  have hsame : ∀ raw ∈ words, (codedChannel raw < maxValues ↔ documentedChannel raw < maxValues) ∧
      (codedChannel raw < maxValues → codedChannel raw = documentedChannel raw) := by
    intro raw hraw
    by_cases hlt : address raw < 12
    · rw [documentedChannel_of_lt hlt]
      exact ⟨Iff.rfl, fun _ => rfl⟩
    · have haddress := Nat.le_antisymm (hwords raw hraw).address (Nat.le_of_not_lt hlt)
      rw [documentedChannel_of_twelve haddress]
      by_cases hphase : phase raw = true
      · have hmax := (h raw hraw haddress hphase).1
        have hcoded : codedChannel raw = 12 + subAddress raw := if_neg hlt
        rw [if_pos hphase]
        omega
      · rw [if_neg hphase]
        exact ⟨Iff.rfl, fun _ => rfl⟩
  unfold stores
  have hfilter : (words.filter fun raw => codedChannel raw < maxValues) =
      words.filter fun raw => documentedChannel raw < maxValues := by
    apply List.filter_congr
    intro raw hraw
    exact decide_eq_decide.2 (hsame raw hraw).1
  rw [← hfilter]
  apply List.map_congr_left
  intro raw hraw
  obtain ⟨hraw, hlt⟩ := List.mem_filter.1 hraw
  rw [(hsame raw hraw).2 (of_decide_eq_true hlt)]

theorem nodup_map_fst_stores {channel : UInt16 → ℕ} (h : (words.map channel).Nodup) :
    ((stores channel maxValues words).map Prod.fst).Nodup := by
  have hkeys : (stores channel maxValues words).map Prod.fst =
      ((words.filter fun raw => channel raw < maxValues).map channel).map reorder := by
    rw [stores, List.map_map, List.map_map]
    rfl
  rw [hkeys]
  refine List.Nodup.map reorder_injective (h.sublist ?_)
  exact List.filter_sublist.map channel

theorem phaseUnused_of_stores (hwords : ∀ raw ∈ words, Decodable raw)
    (hnodup : (words.map codedChannel).Nodup)
    (hall : ∀ value, InRange value →
      callEach write (stores codedChannel maxValues words) (fun _ => value) =
        callEach write (stores documentedChannel maxValues words) fun _ => value) :
    PhaseUnused words maxValues := by
  intro raw hraw haddress hphase
  have hcoded : codedChannel raw = 12 + subAddress raw := if_neg (by omega)
  -- the other phase would be stored in the same place, which `hnodup` excludes
  have halone : ∀ other ∈ words, address other = 12 → subAddress other = subAddress raw →
      other = raw := by
    intro other hother haddress' hsub
    refine List.inj_on_of_nodup_map hnodup hother hraw ?_
    have hcoded' : codedChannel other = 12 + subAddress other := if_neg (by omega)
    rw [hcoded, hcoded', hsub]
  refine ⟨?_, halone⟩
  by_contra hmax
  -- a value that the word does not have
  obtain ⟨value, hvalue, hne⟩ : ∃ value, InRange value ∧ value ≠ pwm (servoPosition raw) := by
    by_cases h : pwm (servoPosition raw) = 903
    · exact ⟨904, by decide, by rw [h]; decide⟩
    · exact ⟨903, by decide, Ne.symm h⟩
  have hsub := subAddress_lt raw
  have hreorder : reorder (12 + subAddress raw) = 12 + subAddress raw := by
    rw [show 12 + subAddress raw = 9 + subAddress raw + 3 by omega]
    rfl
  have hstored : (12 + subAddress raw, pwm (servoPosition raw)) ∈
      stores codedChannel maxValues words := by
    refine List.mem_map.2 ⟨raw, List.mem_filter.2 ⟨hraw, ?_⟩, ?_⟩
    · rw [hcoded]
      exact decide_eq_true (Nat.lt_of_not_le hmax)
    · rw [hcoded, hreorder]
  -- as documented, no word goes there
  have hdocumented : ∀ c ∈ stores documentedChannel maxValues words, c.1 ≠ 12 + subAddress raw := by
    intro c hc heq
    obtain ⟨other, hother, rfl⟩ := List.mem_map.1 hc
    have hother := (List.mem_filter.1 hother).1
    have hchannel : documentedChannel other = 12 + subAddress raw :=
      reorder_injective (heq.trans hreorder.symm)
    have hlt : ¬ address other < 12 := by
      intro hlt
      have hlow : documentedChannel other = address other := if_pos hlt
      omega
    have haddress' := Nat.le_antisymm (hwords other hother).address (Nat.le_of_not_lt hlt)
    have hcoded' : codedChannel other = 12 + subAddress other := if_neg hlt
    rw [documentedChannel_of_twelve haddress', hcoded'] at hchannel
    by_cases hphase' : phase other = true
    · rw [if_pos hphase'] at hchannel
      omega
    · rw [if_neg hphase'] at hchannel
      obtain rfl := halone other hother haddress' (by omega)
      exact hphase' hphase
  have hactual := callEach_write_of_mem (nodup_map_fst_stores hnodup) hstored fun _ => value
  have hexpected := callEach_write_of_forall_ne hdocumented fun _ => value
  rw [hall value hvalue, hexpected] at hactual
  exact hne hactual

/-- A frame of channels that differ is decoded as documented exactly when its words with a phase do
no harm. -/
theorem dsm_decodes_iff (r : Receiver) (frame : Mem) (frameTime : UInt64) (maxValues : ℕ)
    (hformat : InElevenBit r frameTime) (hwords : ∀ raw ∈ rawWords frame, Decodable raw)
    (hnodup : ((rawWords frame).map documentedChannel).Nodup) :
    Decodes r frame frameTime maxValues ↔ PhaseUnused (rawWords frame) maxValues := by
  constructor
  · intro h
    have hout : ∀ value, InRange value →
        Complete maxValues ⟨fun _ => value, maxValues, false, none⟩ :=
      fun value hvalue => ⟨Nat.le_refl _, fun _ _ => hvalue⟩
    have hcoded : ((rawWords frame).map codedChannel).Nodup := by
      by_contra hnot
      have hreset := dsmDecode_of_not_nodup hformat hwords hnot (hout 1500 (by decide))
      have hret := (h _ (hout 1500 (by decide))).1
      rw [hreset] at hret
      cases hret
    refine phaseUnused_of_stores hwords hcoded fun value hvalue => ?_
    have hactual := (dsmDecode_of_nodup hformat hwords hcoded (hout value hvalue)).2
    exact hactual.symm.trans (h _ (hout value hvalue)).2
  · intro h out hout
    obtain ⟨hret, hvalues⟩ := dsmDecode_of_nodup hformat hwords (h.nodup hwords hnodup) hout
    refine ⟨hret, ?_⟩
    rw [hvalues, h.stores_eq hwords]

theorem decodable_of_all {frame : Mem}
    (h : ((rawWords frame).all fun raw => decide (Decodable raw)) = true) :
    ∀ raw ∈ rawWords frame, Decodable raw :=
  fun raw hraw => of_decide_eq_true (List.all_eq_true.1 h raw hraw)

/-- A frame of the first seven channels. -/
theorem dsm_decodes_seven :
    Decodes ⟨11, 0, 0, 0, 0⟩
      (fun i => [0, 0, 0x04, 0, 0x0c, 0, 0x14, 0, 0x1c, 0, 0x24, 0, 0x2c, 0, 0x34, 0].getD i 0)
        11000 18 :=
  (dsm_decodes_iff _ _ _ _ ⟨rfl, by decide⟩ (decodable_of_all (by decide)) (by decide)).2
    (by decide)

/-- A frame with the channels 12 and 16. -/
theorem dsm_two_phases :
    ¬ ∀ (r : Receiver) (frame : Mem) (frameTime : UInt64) (maxValues : ℕ), InElevenBit r frameTime →
      (∀ raw ∈ rawWords frame, Decodable raw) → ((rawWords frame).map documentedChannel).Nodup →
      Decodes r frame frameTime maxValues := by
  intro hall
  let frame : Mem := fun i =>
    [0, 0, 0x61, 0, 0xe1, 0, 0x04, 0, 0x0c, 0, 0x14, 0, 0x1c, 0, 0x24, 0].getD i 0
  have hformat : InElevenBit ⟨11, 0, 0, 0, 0⟩ 11000 := ⟨rfl, by decide⟩
  have hwords : ∀ raw ∈ rawWords frame, Decodable raw := decodable_of_all (by decide)
  have hvalue : InRange 1500 := by decide
  have hout : Complete 18 ⟨fun _ => 1500, 18, true, none⟩ := ⟨by decide, fun _ _ => hvalue⟩
  have hret := (hall _ frame 11000 18 hformat hwords (by decide) _ hout).1
  rw [dsmDecode_of_not_nodup hformat hwords (by decide) hout] at hret
  cases hret

end Dsm
end Rc
end DtPhm
