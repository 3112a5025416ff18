import DtPhm.Lib.FrameReader
import DtPhm.Rc.Crsf
import Mathlib.Data.List.GetD

/-!
# CrsfStream — the frames that crsf_parse accepts from a stream

A stream of frames arrives in reads of any lengths.  The buffer always holds the next bytes of the
stream, from the start of a frame on, and less than it has room for.

* `WellFormed`, `IsRcFrame`, `HasCrc` — the frames;
* `acceptedIn`, `Parser.afterRead`, `crsfParse_eq` — what a read accepts;
* `parseBuffer_frame`, `parseBuffer_part` — one iteration, with and without a complete frame;
* `reader`, `takesFrames`, `iterations_refills` — the parser as a reader of frames;
* `Holds`, `holds_reads` — what the buffer holds after some reads;
* `crsf_stream` — the frames of a stream.
-/

namespace DtPhm
namespace Rc
namespace Crsf

open Lib

/-! ## Frames -/

/-- The length in the header is that of the frame, which fits into the buffer. -/
structure WellFormed (f : List UInt8) : Prop where
  least : 4 ≤ f.length
  most : f.length ≤ frameSizeMax
  length : (headerLength f).toNat + 2 = f.length

/-- A frame with RC channels. -/
def IsRcFrame (f : List UInt8) : Prop :=
  frameType f = rcChannelsPacked ∧ headerLength f = rcChannelsSize + 2

/-- The last byte is the checksum of the type and the payload. -/
def HasCrc (f : List UInt8) : Prop := f.getLast? = some (crc8DvbS2Buf (f.drop 2).dropLast)

instance (f : List UInt8) : Decidable (IsRcFrame f) :=
  inferInstanceAs (Decidable (frameType f = rcChannelsPacked ∧ headerLength f = rcChannelsSize + 2))

instance (f : List UInt8) : Decidable (HasCrc f) :=
  inferInstanceAs (Decidable (f.getLast? = some (crc8DvbS2Buf (f.drop 2).dropLast)))

/-- The RC frames with a correct checksum. -/
def rcFrames (frames : List (List UInt8)) : List (List UInt8) :=
  frames.filter fun f => decide (IsRcFrame f ∧ HasCrc f)

/-! ## Reads -/

/-- The frame that an iteration accepts. -/
def Iteration.accepted : Iteration → Option (List UInt8)
  | .parsed _ accepted => accepted
  | .noProgress => none

/-- The parser after an iteration. -/
def Iteration.parser : Iteration → Parser
  | .parsed p _ => p
  | .noProgress => ⟨[], .unsynced⟩

/-- The frames that are accepted during a read. -/
def acceptedIn (p : Parser) (bytes : List UInt8) : List (List UInt8) :=
  (iterations p bytes).filterMap Iteration.accepted

/-- The parser after a read. -/
def Parser.afterRead (p : Parser) (bytes : List UInt8) : Parser :=
  (iterations p bytes).foldl (fun _ it => it.parser) p

theorem position_afterRead_lt (p : Parser) (bytes : List UInt8) (hp : p.position < frameSizeMax) :
    (p.afterRead bytes).position < frameSizeMax := by
  have hfold : ∀ (its : List Iteration) (q : Parser), q.position < frameSizeMax →
      (∀ it ∈ its, ∃ q accepted, it = .parsed q accepted ∧ q.position < frameSizeMax) →
      (its.foldl (fun _ it => it.parser) q).position < frameSizeMax := by
    intro its
    induction its with
    | nil => exact fun q hq _ => hq
    | cons it its ih =>
        intro q _ hits
        obtain ⟨q', accepted, rfl, hq'⟩ := hits _ (List.mem_cons_self ..)
        exact ih q' hq' fun it' hit' => hits it' (List.mem_cons_of_mem _ hit')
  exact hfold _ p hp (iterations_parsed _ p bytes (Nat.le_refl _) hp)

theorem crsfParse_eq (convertChannelValue : ℕ → UInt16) (p : Parser) (out : Output)
    (bytes : List UInt8) (maxChannels : ℕ) (hp : p.position < frameSizeMax) :
    crsfParse convertChannelValue p out bytes maxChannels =
      (p.afterRead bytes,
        (acceptedIn p bytes).foldl (Output.write convertChannelValue maxChannels) out,
        decide (acceptedIn p bytes ≠ [])) := by
  have hfold : ∀ (its : List Iteration) (q : Parser) (o : Output) (ret : Bool),
      (∀ it ∈ its, ∃ q' accepted, it = .parsed q' accepted ∧ q'.position < frameSizeMax) →
      its.foldl (Iteration.effect convertChannelValue maxChannels) (q, o, ret) =
        (its.foldl (fun _ it => it.parser) q,
          (its.filterMap Iteration.accepted).foldl (Output.write convertChannelValue maxChannels) o,
          ret || decide (its.filterMap Iteration.accepted ≠ [])) := by
    intro its
    induction its with
    | nil =>
        intro q o ret _
        simp
    | cons it its ih =>
        intro q o ret hits
        obtain ⟨q', accepted, rfl, _⟩ := hits _ (List.mem_cons_self ..)
        have hrest := fun it' hit' => hits it' (List.mem_cons_of_mem _ hit')
        cases accepted with
        | none =>
            rw [List.foldl_cons, Iteration.effect, ih _ _ _ hrest]
            rfl
        | some frame =>
            rw [List.foldl_cons, Iteration.effect, ih _ _ _ hrest]
            simp [Iteration.accepted, Iteration.parser]
  have hits := iterations_parsed _ p bytes (Nat.le_refl _) hp
  rw [crsfParse, hfold _ p out false hits, Bool.false_or]
  rfl

/-! ## One iteration -/

theorem headerLength_append {b : List UInt8} (hb : 3 ≤ b.length) (t : List UInt8) :
    headerLength (b ++ t) = headerLength b := by
  unfold headerLength
  rw [List.getD_append _ _ _ _ (by omega)]

theorem frameType_append {b : List UInt8} (hb : 3 ≤ b.length) (t : List UInt8) :
    frameType (b ++ t) = frameType b := by
  unfold frameType
  rw [List.getD_append _ _ _ _ (by omega)]

theorem crc_append {f : List UInt8} (hleast : 4 ≤ f.length)
    (hlength : (headerLength f).toNat + 2 = f.length) (t : List UInt8) :
    ((payload (f ++ t)).getD ((headerLength f).toNat - 2) 0 =
      ((payload (f ++ t)).take ((headerLength f).toNat - 2)).foldl crc8DvbS2
        (crc8DvbS2 0 (frameType f))) ↔ HasCrc f := by
  obtain ⟨n, hn⟩ : ∃ n, f.length = n + 4 := ⟨f.length - 4, by omega⟩
  have hn' : (headerLength f).toNat - 2 = n := by omega
  have hlast : (payload (f ++ t)).getD n 0 = f.getD (n + 3) 0 := by
    rw [payload, List.getD_eq_getElem?_getD, List.getElem?_drop, List.getD_eq_getElem?_getD,
      List.getElem?_append_left (by omega), Nat.add_comm]
  have hgetLast : f.getLast? = some (f.getD (n + 3) 0) := by
    have hindex : f.length - 1 = n + 3 := by omega
    rw [List.getLast?_eq_getElem?, hindex, List.getD_eq_getElem?_getD,
      List.getElem?_eq_getElem (by omega)]
    rfl
  have hpayload : (payload (f ++ t)).take n = (f.drop 3).dropLast := by
    rw [payload, List.drop_append_of_le_length (by omega), List.take_append_of_le_length,
      List.dropLast_eq_take, List.length_drop, hn]
    · rfl
    · rw [List.length_drop]
      omega
  have htail : (f.drop 2).dropLast = frameType f :: (f.drop 3).dropLast := by
    have hcons : f.drop 2 = frameType f :: f.drop 3 := by
      rw [frameType, List.getD_eq_getElem?_getD, List.getElem?_eq_getElem (by omega)]
      exact List.drop_eq_getElem_cons (by omega)
    have hne : f.drop 3 ≠ [] := by
      intro hnil
      have := congrArg List.length hnil
      rw [List.length_drop, List.length_nil] at this
      omega
    rw [hcons, List.dropLast_cons_of_ne_nil hne]
  unfold HasCrc
  rw [hn', hlast, hgetLast, Option.some.injEq, hpayload, htail]
  rfl

theorem accepts_append {f : List UInt8} (hf : WellFormed f) (t : List UInt8) :
    accepts (f ++ t) = decide (IsRcFrame f ∧ HasCrc f) := by
  have hleast := hf.least
  have hiff : accepts (f ++ t) = true ↔ IsRcFrame f ∧ HasCrc f := by
    rw [accepts, crsfFrameCRC, headerLength_append (by omega), frameType_append (by omega)]
    simp only [Bool.and_eq_true, beq_iff_eq, IsRcFrame, crc_append hleast hf.length t]
  rw [Bool.eq_iff_iff, hiff, decide_eq_true_eq]

theorem parseBuffer_frame {f : List UInt8} (hf : WellFormed f) (t : List UInt8) :
    parseBuffer ⟨f ++ t, .synced⟩ =
      (⟨t, .synced⟩, if IsRcFrame f ∧ HasCrc f then some f else none) := by
  have hleast := hf.least
  have hmost := hf.most
  have hlength := hf.length
  unfold parseBuffer
  simp only [reduceCtorEq, if_false, ne_eq, not_true_eq_false, Parser.position, List.length_append,
    headerLength_append (b := f) (by omega) t, hlength]
  rw [if_neg (by omega), if_neg (by omega), if_neg (by omega), accepts_append hf,
    List.drop_left, List.take_left]
  simp only [decide_eq_true_eq]

theorem parseBuffer_part {b u : List UInt8} (hf : WellFormed (b ++ u)) (hu : u ≠ []) :
    parseBuffer ⟨b, .synced⟩ = (⟨b, .synced⟩, none) := by
  have hleast := hf.least
  have hmost := hf.most
  have hlength := hf.length
  have hpos := List.length_pos_iff.2 hu
  rw [List.length_append] at hleast hmost hlength
  unfold parseBuffer
  simp only [reduceCtorEq, if_false, ne_eq, not_true_eq_false, Parser.position]
  by_cases hshort : b.length < 3
  · rw [if_pos hshort]
  · rw [headerLength_append (by omega)] at hlength
    rw [if_neg hshort, if_neg (by omega), if_pos (by omega)]

/-! ## Streams -/

/-- The parser as a reader of frames. -/
def reader : FrameReader Parser UInt8 where
  size := frameSizeMax
  buffer := Parser.frame
  put := fun p frame => { p with frame := frame }
  buffer_put := fun _ _ => rfl
  parse := parseBuffer

theorem takesFrames : TakesFrames reader (fun p => p.state = .synced) WellFormed
    (fun f => if IsRcFrame f ∧ HasCrc f then some f else none) where
  put := fun _ _ h => h
  nonempty := by
    rintro _ hf rfl
    exact absurd hf.least (by decide)
  fits := fun _ hf => hf.most
  frame := by
    rintro ⟨b, state⟩ f t hsynced hf hb
    obtain rfl : state = .synced := hsynced
    obtain rfl : b = f ++ t := hb
    have hparse := parseBuffer_frame hf t
    exact ⟨congrArg Prod.snd hparse, congrArg (fun r => r.1.state) hparse,
      congrArg (fun r => r.1.frame) hparse⟩
  part := by
    rintro ⟨b, state⟩ u hsynced hu hf
    obtain rfl : state = .synced := hsynced
    exact parseBuffer_part hf hu

/-- What the iterations over a read do. -/
def refillsOf (p : Parser) (bytes : List UInt8) : List (Parser × Option (List UInt8)) :=
  (iterations p bytes).map fun it => (it.parser, it.accepted)

theorem after_refillsOf (p : Parser) (bytes : List UInt8) :
    FrameReader.after p (refillsOf p bytes) = p.afterRead bytes := List.foldl_map

theorem accepted_refillsOf (p : Parser) (bytes : List UInt8) :
    FrameReader.accepted (refillsOf p bytes) = acceptedIn p bytes := List.filterMap_map

theorem iterations_refills (n : ℕ) : ∀ (p : Parser) (bytes : List UInt8), bytes.length ≤ n →
    p.position < frameSizeMax → FrameReader.Refills reader p bytes (refillsOf p bytes) := by
  have hnil : ∀ p : Parser, FrameReader.Refills reader p [] (refillsOf p []) := by
    intro p
    rw [refillsOf, iterations, if_pos rfl]
    exact .done p
  induction n with
  | zero =>
      intro p bytes hn _
      obtain rfl := List.length_eq_zero_iff.1 (Nat.le_zero.1 hn)
      exact hnil p
  | succ n ih =>
      intro p bytes hn hp
      by_cases hbytes : bytes = []
      · subst hbytes
        exact hnil p
      have hpos := List.length_pos_iff.2 hbytes
      have hlen : p.currentLen bytes.length ≠ 0 := Parser.currentLen_ne_zero hp hbytes
      have hrefills : refillsOf p bytes = reader.refill p bytes ::
          refillsOf (reader.refill p bytes).1 (bytes.drop (p.currentLen bytes.length)) := by
        rw [refillsOf, iterations, if_neg hbytes, if_neg hlen]
        rfl
      have hroom : (reader.refill p bytes).1.position < frameSizeMax := position_filled_lt bytes hp
      have hshort : (bytes.drop (p.currentLen bytes.length)).length ≤ n := by
        rw [List.length_drop]
        omega
      rw [hrefills]
      exact .refill hbytes hp (ih _ _ hshort hroom)

/-- The buffer holds the next bytes of a stream, whose other bytes are `rest`. -/
structure Holds (p : Parser) (rest : List UInt8) (frames : List (List UInt8)) : Prop where
  state : p.state = .synced
  stream : p.frame ++ rest = frames.flatten
  room : p.position < frameSizeMax
  wellFormed : ∀ f ∈ frames, WellFormed f

theorem holds_reads (reads : List (List UInt8)) (p : Parser) (frames : List (List UInt8))
    (h : Holds p reads.flatten frames) :
    ∃ k, outputs Parser.afterRead acceptedIn p reads = rcFrames (frames.take k) ∧
      Holds (exec Parser.afterRead p reads) [] (frames.drop k) := by
  obtain ⟨k, hk, hholds⟩ := Lib.holds_reads takesFrames
    (fun p bytes hp => iterations_refills _ p bytes (Nat.le_refl _) hp) reads
    ⟨h.state, h.stream, h.room, h.wellFormed⟩
  simp only [after_refillsOf, accepted_refillsOf] at hk hholds
  refine ⟨k, ?_, hholds.synced, hholds.stream, hholds.room, hholds.wellFormed⟩
  rw [rcFrames, ← FrameReader.filterMap_ite fun f => IsRcFrame f ∧ HasCrc f]
  exact hk

/-- From a stream of frames, read in any way, the RC frames with a correct checksum are accepted in
their order, but for some that lie in its last bytes, which are in the buffer.  Whatever was read
before, no iteration fails to make progress, and a read reports and writes what it accepts. -/
theorem crsf_stream (frames : List (List UInt8)) (hframes : ∀ f ∈ frames, WellFormed f)
    (reads : List (List UInt8)) (hreads : reads.flatten = frames.flatten) :
    (∃ k, outputs Parser.afterRead acceptedIn ⟨[], .synced⟩ reads = rcFrames (frames.take k) ∧
      (frames.drop k).flatten.length < frameSizeMax) ∧
    ∀ (start p : Parser) (before : List (List UInt8)), start.position < frameSizeMax →
      p = exec Parser.afterRead start before → ∀ bytes : List UInt8,
      (∀ it ∈ iterations p bytes, ∃ q accepted, it = .parsed q accepted ∧
        q.position < frameSizeMax) ∧
      ∀ (convertChannelValue : ℕ → UInt16) (out : Output) (maxChannels : ℕ),
        crsfParse convertChannelValue p out bytes maxChannels =
          (p.afterRead bytes,
            (acceptedIn p bytes).foldl (Output.write convertChannelValue maxChannels) out,
            decide (acceptedIn p bytes ≠ [])) := by
  refine ⟨?_, ?_⟩
  · have hstart : Holds ⟨[], .synced⟩ reads.flatten frames :=
      ⟨rfl, hreads, by decide, hframes⟩
    obtain ⟨k, hk, hholds⟩ := holds_reads reads _ frames hstart
    refine ⟨k, hk, ?_⟩
    rw [← hholds.stream, List.append_nil]
    exact hholds.room
  · intro start p before hstart hp bytes
    have hroom : p.position < frameSizeMax := by
      rw [hp]
      exact invariant_exec (fun q bytes hq => position_afterRead_lt q bytes hq) hstart before
    exact ⟨iterations_parsed _ p bytes (Nat.le_refl _) hroom,
      fun convert out maxChannels => crsfParse_eq convert p out bytes maxChannels hroom⟩

/-- A frame with RC channels. -/
def channelsFrame : List UInt8 := [0xC8, 24, 0x16] ++ List.replicate 22 0 ++ [0xEF]

/-- A frame without them. -/
def batteryFrame : List UInt8 := [0xC8, 2, 0x08, 0]

/-- One RC frame with others behind it, read in two parts. -/
theorem crsf_stream_channels :
    outputs Parser.afterRead acceptedIn ⟨[], .synced⟩
      [channelsFrame.take 20, channelsFrame.drop 20 ++ (List.replicate 8 batteryFrame).flatten] =
      [channelsFrame] := by
  have hchannels : WellFormed channelsFrame := ⟨by decide, by decide, by decide⟩
  have hbattery : WellFormed batteryFrame := ⟨by decide, by decide, by decide⟩
  have hframes : ∀ f ∈ channelsFrame :: List.replicate 8 batteryFrame, WellFormed f := by
    intro f hf
    rcases List.mem_cons.1 hf with rfl | hf
    · exact hchannels
    · rw [List.eq_of_mem_replicate hf]
      exact hbattery
  obtain ⟨⟨k, hk, hlength⟩, _⟩ :=
      crsf_stream (channelsFrame :: List.replicate 8 batteryFrame) hframes
    [channelsFrame.take 20, channelsFrame.drop 20 ++ (List.replicate 8 batteryFrame).flatten]
    (by decide)
  rw [hk]
  cases k with
  | zero => exact absurd hlength (by decide)
  | succ k =>
      have hgood : IsRcFrame channelsFrame ∧ HasCrc channelsFrame := by decide +kernel
      have hrest : rcFrames ((List.replicate 8 batteryFrame).take k) = [] := by
        refine List.filter_eq_nil_iff.2 fun f hf => ?_
        rw [List.eq_of_mem_replicate (List.mem_of_mem_take hf)]
        decide
      rw [List.take_succ_cons, rcFrames, List.filter_cons_of_pos (by simpa using hgood)]
      exact congrArg (channelsFrame :: ·) hrest

end Crsf
end Rc
end DtPhm
