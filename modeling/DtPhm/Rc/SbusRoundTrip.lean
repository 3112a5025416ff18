import DtPhm.Rc.Sbus
import Mathlib.Data.Nat.Cast.Order.Field

/-!
# SbusRoundTrip — what the S.BUS output writes is what the input reads

* `Packed` — the invariant of the packing loop: the data bits of the frame are the raw values so
  far, eleven bits each;
* `rawChannel_eq` — the decoder table reads these fields back;
* `Collecting` — the invariant of the state machine inside of a frame;
* `feed_sbus1Output` — a written frame that comes in byte by byte.
-/

namespace DtPhm
namespace Rc

open Lib

/-! ## Scaling -/

theorem sbusScaleFactor_eq : sbusScaleFactor = 5 / 8 := by
  norm_num [sbusScaleFactor]

theorem sbusScaleOffset_eq : sbusScaleOffset = 874 := by
  have harg : (1000 : ℚ) - (sbusScaleFactor * 200 + 1 / 2) = ((874 : ℕ) : ℚ) + 1 / 2 := by
    norm_num [sbusScaleFactor_eq]
  rw [sbusScaleOffset, harg, truncZero_natCast_add_half]
  rfl

theorem toUint16_eq {q : ℚ} {n : ℕ} (hn : n ≤ 65535) (hlo : (n : ℚ) ≤ q) (hhi : q < n + 1) :
    toUint16 q = n := by
  have hpos : (0 : ℚ) ≤ q := le_trans (Nat.cast_nonneg n) hlo
  have hfloor : truncZero q = (n : ℤ) := by
    rw [truncZero, if_pos hpos, Int.floor_eq_iff]
    exact ⟨by exact_mod_cast hlo, by exact_mod_cast hhi⟩
  have hconv := (IntConv.saturate (by decide) : IntConv 0 65535).exact q
  rw [hfloor] at hconv
  rw [toUint16, hconv (by omega) (by omega), Int.toNat_natCast]

theorem toUint16_div {a d : ℕ} (hd : 0 < d) (h : a / d ≤ 65535) :
    toUint16 ((a : ℚ) / (d : ℚ)) = a / d := by
  refine toUint16_eq h Nat.cast_div_le ?_
  have hlt : a < (a / d + 1) * d := by
    rw [Nat.mul_comm]
    exact Nat.lt_mul_div_succ a hd
  rw [div_lt_iff₀ (by exact_mod_cast hd)]
  exact_mod_cast hlt

theorem toUint16_of_nonpos {q : ℚ} (h : q ≤ 0) : toUint16 q = 0 := by
  have htrunc : truncZero q ≤ 0 := by
    rw [truncZero]
    split
    · exact Int.floor_nonpos h
    · exact Int.ceil_le.2 (by simpa using h)
  have hsat : (IntConv.saturate (by decide) : IntConv 0 65535) q = 0 := by
    show max 0 (min 65535 (truncZero q)) = 0
    omega
  rw [toUint16, hsat]
  rfl

theorem toUint16_ge {q : ℚ} {n : ℕ} (hn : n ≤ 65535) (h : (n : ℚ) ≤ q) : n ≤ toUint16 q := by
  have hpos : (0 : ℚ) ≤ q := le_trans (Nat.cast_nonneg n) h
  have htrunc : (n : ℤ) ≤ truncZero q := by
    rw [truncZero, if_pos hpos]
    exact Int.le_floor.2 (by exact_mod_cast h)
  have hsat : (n : ℤ) ≤ (IntConv.saturate (by decide) : IntConv 0 65535) q := by
    show (n : ℤ) ≤ max 0 (min 65535 (truncZero q))
    omega
  rw [toUint16]
  omega

theorem outputValue_lt (v : UInt16) : outputValue v < 2 ^ 11 := by
  unfold outputValue
  dsimp only
  split <;> omega

theorem outputValue_of_mem {v : UInt16} {d : ℕ} (hv : v.toNat = 874 + d) (hd : d ≤ 1279) :
    outputValue v = (16 * d + 5) / 10 := by
  have harg : ((v.toNat : ℚ) - sbusScaleOffset) / sbusScaleFactor + 1 / 2
      = ((16 * d + 5 : ℕ) : ℚ) / (10 : ℕ) := by
    rw [hv, sbusScaleOffset_eq, sbusScaleFactor_eq]
    push_cast
    ring
  have hval : toUint16 (((16 * d + 5 : ℕ) : ℚ) / (10 : ℕ)) = (16 * d + 5) / 10 :=
    toUint16_div (by decide) (by omega)
  have hcap : ¬ (16 * d + 5) / 10 > 0x07ff := by omega
  rw [outputValue, harg, hval]
  exact if_neg hcap

theorem outputValue_of_lt {v : UInt16} (hv : v.toNat < 874) : outputValue v = 0 := by
  have harg : ((v.toNat : ℚ) - sbusScaleOffset) / sbusScaleFactor + 1 / 2 ≤ 0 := by
    have hle : (v.toNat : ℚ) ≤ 873 := by exact_mod_cast Nat.le_of_lt_succ hv
    rw [sbusScaleOffset_eq, sbusScaleFactor_eq]
    push_cast
    linarith
  rw [outputValue, toUint16_of_nonpos harg]
  rfl

theorem outputValue_of_gt {v : UInt16} (hv : 2153 < v.toNat) : outputValue v = 0x07ff := by
  have harg : ((2048 : ℕ) : ℚ)
      ≤ ((v.toNat : ℚ) - sbusScaleOffset) / sbusScaleFactor + 1 / 2 := by
    have hle : (2154 : ℚ) ≤ v.toNat := by exact_mod_cast hv
    rw [sbusScaleOffset_eq, sbusScaleFactor_eq]
    push_cast
    linarith
  have hge : 2048 ≤ toUint16 (((v.toNat : ℚ) - sbusScaleOffset) / sbusScaleFactor + 1 / 2) :=
    toUint16_ge (by decide) harg
  exact if_pos (by omega)

theorem pulseWidth_toNat {raw : ℕ} (h : raw < 2 ^ 11) :
    (pulseWidth raw).toNat = (5 * raw + 4) / 8 + 874 := by
  have harg : (raw : ℚ) * sbusScaleFactor + 1 / 2 = ((5 * raw + 4 : ℕ) : ℚ) / (8 : ℕ) := by
    rw [sbusScaleFactor_eq]
    push_cast
    ring
  have hval : toUint16 (((5 * raw + 4 : ℕ) : ℚ) / (8 : ℕ)) = (5 * raw + 4) / 8 :=
    toUint16_div (by decide) (by omega)
  rw [pulseWidth, harg, hval, sbusScaleOffset_eq, UInt16.ofInt, UInt16.toNat_ofNat']
  omega

/-- The two roundings cancel inside the range, and the range is where eleven bits end. -/
theorem pulseWidth_outputValue (v : UInt16) :
    (pulseWidth (outputValue v)).toNat = max 874 (min 2153 v.toNat) := by
  rw [pulseWidth_toNat (outputValue_lt v)]
  rcases Nat.lt_or_ge v.toNat 874 with hlow | hge
  · rw [outputValue_of_lt hlow]
    omega
  · rcases Nat.lt_or_ge 2153 v.toNat with hhigh | hle
    · rw [outputValue_of_gt hhigh]
      omega
    · obtain ⟨d, hd⟩ := Nat.exists_eq_add_of_le hge
      rw [outputValue_of_mem hd (by omega)]
      omega

/-! ## The packing loop -/

theorem Packing.seek_spec (byteindex offset : ℕ) :
    (Packing.seek byteindex offset).2 < 8 ∧ byteindex ≤ (Packing.seek byteindex offset).1 ∧
      8 * (Packing.seek byteindex offset).1 + (Packing.seek byteindex offset).2
        = 8 * byteindex + offset := by
  fun_induction Packing.seek byteindex offset with
  | case1 byteindex offset h ih => omega
  | case2 byteindex offset h => exact ⟨by omega, le_refl _, rfl⟩

theorem frameData_orByte (m : Mem) (b x : ℕ) :
    frameData (orByte m (1 + b) x) = orByte (frameData m) b x := by
  funext c
  by_cases h : c = b
  · subst h
    simp [frameData, orByte]
  · have h' : 1 + c ≠ 1 + b := by omega
    rw [frameData, orByte_of_ne m x h', orByte_of_ne _ x h, frameData]

theorem frameData_orField (m : Mem) (b off x : ℕ) :
    frameData (orField m (1 + b) off x) = orField (frameData m) b off x := by
  rw [orField, Nat.add_assoc, Nat.add_assoc, frameData_orByte, frameData_orByte, frameData_orByte,
    orField]

/-- The invariant of the packing loop: behind the start symbol stand the raw values so far. -/
structure Packed (raw : List ℕ) (s : Packing) : Prop where
  index : 1 ≤ s.byteindex
  position : 8 * (s.byteindex - 1) + s.offset = 11 * raw.length
  bits : ∀ k, bitAt (frameData s.oframe) k = fieldBit 11 raw k
  start : s.oframe 0 = sbusStartSymbol

theorem packed_init : Packed [] Packing.init := by
  refine ⟨le_refl _, rfl, ?_, rfl⟩
  intro k
  have hzero : Packing.init.oframe (1 + k / 8) = 0 := if_neg (by omega)
  simp [bitAt, frameData, hzero, fieldBit]

theorem Packed.pack {raw : List ℕ} {s : Packing} (h : Packed raw s) (v : UInt16) :
    Packed (raw ++ [outputValue v]) (s.pack v) := by
  obtain ⟨hoff, hidx, hpos⟩ := Packing.seek_spec s.byteindex s.offset
  have hindex := h.index
  have hposition := h.position
  unfold Packing.pack
  dsimp only
  generalize Packing.seek s.byteindex s.offset = pos at *
  obtain ⟨b, hb⟩ : ∃ b, pos.1 = 1 + b := ⟨pos.1 - 1, by omega⟩
  refine ⟨hindex.trans hidx, ?_, ?_, ?_⟩
  · simp only [List.length_append, List.length_singleton]
    omega
  · intro k
    have hstart : 8 * b + pos.2 = 11 * raw.length := by omega
    show bitAt (frameData (orField s.oframe pos.1 pos.2 (outputValue v))) k = _
    rw [hb, frameData_orField, bitAt_orField _ hoff (outputValue_lt v), h.bits k,
      fieldBit_append raw (outputValue_lt v) (by decide), hstart]
  · show orField s.oframe pos.1 pos.2 (outputValue v) 0 = sbusStartSymbol
    rw [orField, orByte_of_ne _ _ (by omega), orByte_of_ne _ _ (by omega),
      orByte_of_ne _ _ (by omega), h.start]

theorem packed_foldl {raw : List ℕ} {s : Packing} (h : Packed raw s) (values : List UInt16) :
    Packed (raw ++ values.map outputValue) (values.foldl Packing.pack s) := by
  induction values generalizing raw s with
  | nil => simpa using h
  | cons v values ih =>
    have hnext := ih (h.pack v)
    rwa [List.append_assoc, List.singleton_append] at hnext

theorem packed_packFrame {values : List UInt16} (hlen : values.length ≤ 16) :
    Packed (values.map outputValue) (packFrame values) := by
  have h := packed_foldl packed_init values
  rw [packFrame, List.take_of_length_le hlen]
  rwa [List.nil_append] at h

theorem Packed.eq_zero {raw : List ℕ} {s : Packing} (h : Packed raw s) {b : ℕ}
    (hb : 11 * raw.length ≤ 8 * b) : s.oframe (1 + b) = 0 := by
  apply UInt8.toNat_inj.1
  apply Nat.eq_of_testBit_eq
  intro j
  rw [UInt8.toNat_zero, Nat.zero_testBit]
  rcases Nat.lt_or_ge j 8 with hj | hj
  · have hbit := h.bits (8 * b + j)
    have hout : raw.length ≤ (8 * b + j) / 11 := by omega
    rw [bitAt_mul_add _ _ hj, fieldBit, List.getD_eq_getElem?_getD,
      List.getElem?_eq_none hout, Option.getD_none, Nat.zero_testBit] at hbit
    exact hbit
  · apply Nat.testBit_lt_two_pow
    exact Nat.lt_of_lt_of_le (UInt8.toNat_lt _) (Nat.pow_le_pow_right (by decide) hj)

/-! ## The decoder table -/

/-- Every pick of row `c` is aligned with the field of channel `c`, and together they cover it. -/
theorem sbusDecoder_row {c : ℕ} (hc : c < 16) :
    (∀ d ∈ sbusDecoder.getD c [], d.Aligned 11 (11 * c)) ∧
      ∀ k < 11, ∃ d ∈ sbusDecoder.getD c [], d.Covers k := by
  have h : ∀ c < 16, (∀ d ∈ sbusDecoder.getD c [], d.Aligned 11 (11 * c)) ∧
      ∀ k < 11, ∃ d ∈ sbusDecoder.getD c [], d.Covers k := by decide
  exact h c hc

theorem rawChannel_eq {raw : List ℕ} {s : Packing} (h : Packed raw s)
    (hraw : ∀ x ∈ raw, x < 2 ^ 11) {frame : Mem}
    (hframe : ∀ i < sbusFrameSize, frame i = s.oframe i)
    {c : ℕ} (hc : c < 16) : rawChannel frame c = raw.getD c 0 := by
  obtain ⟨halign, hcover⟩ := sbusDecoder_row hc
  apply Nat.eq_of_testBit_eq
  intro k
  rw [rawChannel, testBit_gather halign hcover]
  rcases Nat.lt_or_ge k 11 with hk | hk
  · have hbyte : frameData frame ((11 * c + k) / 8) = frameData s.oframe ((11 * c + k) / 8) :=
      hframe _ (by unfold sbusFrameSize; omega)
    have hbit : bitAt (frameData frame) (11 * c + k) = bitAt (frameData s.oframe) (11 * c + k) := by
      rw [bitAt, hbyte, bitAt]
    rw [hbit, h.bits, fieldBit_mul_add 11 raw c hk, decide_eq_true hk, Bool.true_and]
  · have hlt : raw.getD c 0 < 2 ^ 11 := by
      rw [List.getD_eq_getElem?_getD]
      cases hget : raw[c]? with
      | none => decide
      | some x => exact hraw x (List.mem_of_getElem? hget)
    have hbig : raw.getD c 0 < 2 ^ k :=
      Nat.lt_of_lt_of_le hlt (Nat.pow_le_pow_right (by decide) hk)
    have hnot : ¬ k < 11 := by omega
    rw [Nat.testBit_lt_two_pow hbig, decide_eq_false hnot, Bool.false_and]

/-! ## The state machine inside of a frame -/

/-- The bytes `done` of a frame have come in since its start symbol. -/
structure Collecting (done : List UInt8) (s : Input) : Prop where
  state : s.decodeState = .sbusStart
  count : s.partialFrameCount = done.length
  frame : ∀ i < done.length, s.sbusFrame i = done.getD i 0

theorem Collecting.push {done : List UInt8} {s : Input} (h : Collecting done s) (b : UInt8) :
    Collecting (done ++ [b]) (s.push b) := by
  refine ⟨h.state, by simp [Input.push, h.count], ?_⟩
  intro i hi
  rw [List.length_append, List.length_singleton] at hi
  rcases Nat.lt_or_ge i done.length with hlt | hge
  · have hne : i ≠ s.partialFrameCount := by
      rw [h.count]
      omega
    have hold : (s.push b).sbusFrame i = s.sbusFrame i := by
      simp [Input.push, hne]
    rw [hold, h.frame i hlt, List.getD_eq_getElem?_getD, List.getD_eq_getElem?_getD,
      List.getElem?_append_left hlt]
  · have hi' : i = done.length := by omega
    subst hi'
    simp [Input.push, h.count]

theorem Collecting.checkLimits {done : List UInt8} {s : Input} (h : Collecting done s)
    (hlen : done.length < sbusFrameSize) : s.checkLimits = s := by
  refine if_neg ?_
  rw [h.count]
  unfold sbusBufferSize
  omega

/-- A start symbol that comes in out of sync opens a frame, whatever was collected before. -/
theorem sbusParse_start {s : Input} (hs : s.decodeState = .desync) (out : Channels) (now : UInt64)
    (maxChannels : ℕ) :
    ∃ s', sbusParse s out now [sbusStartSymbol] maxChannels = (s', out, false) ∧
      Collecting [sbusStartSymbol] s' := by
  have hlimits : ({ s with lastRxTime := now } : Input).checkLimits.decodeState = .desync := by
    unfold Input.checkLimits
    split
    · rfl
    · exact hs
  generalize hs₁ : ({ s with lastRxTime := now } : Input).checkLimits = s₁ at hlimits
  refine ⟨({ s₁ with decodeState := .sbusStart, partialFrameCount := 0 } : Input).push
    sbusStartSymbol, ?_, ?_⟩
  · simp [sbusParse, parseByte, hs₁, hlimits]
  · have hempty : Collecting []
        { s₁ with decodeState := .sbusStart, partialFrameCount := 0 } := ⟨rfl, rfl, by simp⟩
    exact hempty.push sbusStartSymbol

theorem Collecting.sbusParse_eq {done : List UInt8} {s : Input} (h : Collecting done s)
    (hlen : done.length < sbusFrameSize) (out : Channels) (now : UInt64) (b : UInt8)
    (maxChannels : ℕ) :
    ∃ s₁, Collecting done s₁ ∧
      sbusParse s out now [b] maxChannels = s₁.collect out false b maxChannels := by
  refine ⟨{ s with lastRxTime := now }, ⟨h.state, h.count, h.frame⟩, ?_⟩
  have h₁ : Collecting done { s with lastRxTime := now } := ⟨h.state, h.count, h.frame⟩
  rw [sbusParse, List.foldl_cons, List.foldl_nil, parseByte]
  dsimp only
  rw [h₁.checkLimits hlen]
  simp [h.state]

theorem Collecting.parse_inside {done : List UInt8} {s : Input} (h : Collecting done s)
    (hlen : done.length + 1 < sbusFrameSize) (out : Channels) (now : UInt64) (b : UInt8)
    (maxChannels : ℕ) :
    ∃ s', sbusParse s out now [b] maxChannels = (s', out, false) ∧
      Collecting (done ++ [b]) s' := by
  obtain ⟨s₁, h₁, heq⟩ := h.sbusParse_eq (by omega) out now b maxChannels
  refine ⟨s₁.push b, ?_, h₁.push b⟩
  have hcount : (s₁.push b).partialFrameCount < sbusFrameSize := by
    simpa [Input.push, h₁.count] using hlen
  rw [heq, Input.collect]
  exact if_pos hcount

theorem Collecting.parse_last {done : List UInt8} {s : Input} (h : Collecting done s)
    (hlen : done.length + 1 = sbusFrameSize) (hstart : done.getD 0 0 = sbusStartSymbol)
    (out : Channels) (now : UInt64) (maxChannels : ℕ) :
    ∃ s' frame, sbusParse s out now [0] maxChannels
        = (s', readChannels frame out maxChannels, true) ∧
      ∀ i < sbusFrameSize, frame i = (done ++ [0]).getD i 0 := by
  obtain ⟨s₁, h₁, heq⟩ := h.sbusParse_eq (by omega) out now 0 maxChannels
  have h₂ := h₁.push 0
  have hlen₂ : (done ++ [0]).length = sbusFrameSize := by
    rw [List.length_append]
    exact hlen
  have hframe : ∀ i < sbusFrameSize, (s₁.push 0).sbusFrame i = (done ++ [0]).getD i 0 := by
    intro i hi
    exact h₂.frame i (by omega)
  have hpos : 0 < done.length := by
    unfold sbusFrameSize at hlen
    omega
  have hfirst : (s₁.push 0).sbusFrame 0 = sbusStartSymbol := by
    rw [hframe 0 (by decide), List.getD_eq_getElem?_getD, List.getElem?_append_left hpos,
      ← List.getD_eq_getElem?_getD, hstart]
  have hend : (s₁.push 0).sbusFrame 24 = 0 := by
    have h24 : done.length = 24 := by
      unfold sbusFrameSize at hlen
      omega
    rw [hframe 24 (by decide), List.getD_eq_getElem?_getD, ← h24]
    simp
  have hdecode : sbusDecode (s₁.push 0) out maxChannels =
      ({ s₁.push 0 with decodeState := .sbus1Sync },
        readChannels (s₁.push 0).sbusFrame out maxChannels, true) := by
    rw [sbusDecode, if_neg (by simpa using hfirst), hend]
    rfl
  have hfull : ¬ (s₁.push 0).partialFrameCount < sbusFrameSize := by
    rw [h₂.count]
    omega
  refine ⟨{ s₁.push 0 with decodeState := .sbus1Sync, partialFrameCount := 0 },
    (s₁.push 0).sbusFrame, ?_, hframe⟩
  rw [heq, Input.collect]
  dsimp only
  rw [if_neg hfull, hdecode]
  simp

/-- The rest of a frame that ends with the marker of S.BUS 1: only the last call decodes. -/
theorem Collecting.feed {done : List UInt8} {s : Input} (h : Collecting done s)
    (hstart : done.getD 0 0 = sbusStartSymbol) (out : Channels) (maxChannels : ℕ)
    (rest : List (UInt64 × UInt8)) (t : UInt64)
    (hlen : done.length + rest.length + 1 = sbusFrameSize) :
    ∃ s' frame, feed maxChannels (s, out) (rest ++ [(t, 0)])
        = ((s', readChannels frame out maxChannels), List.replicate rest.length false ++ [true]) ∧
      ∀ i < sbusFrameSize, frame i = (done ++ rest.map Prod.snd ++ [0]).getD i 0 := by
  induction rest generalizing done s with
  | nil =>
    obtain ⟨s', frame, heq, hframe⟩ := h.parse_last hlen hstart out t maxChannels
    refine ⟨s', frame, ?_, by simpa using hframe⟩
    simp [Rc.feed, heq]
  | cons x rest ih =>
    obtain ⟨now, b⟩ := x
    rw [List.length_cons] at hlen
    obtain ⟨s₁, heq, h₁⟩ := h.parse_inside (by omega) out now b maxChannels
    have hpos : 0 < done.length := by
      apply Nat.pos_of_ne_zero
      intro h0
      rw [List.length_eq_zero_iff.1 h0] at hstart
      exact absurd hstart (by decide)
    have hstart₁ : (done ++ [b]).getD 0 0 = sbusStartSymbol := by
      rw [List.getD_eq_getElem?_getD, List.getElem?_append_left hpos,
        ← List.getD_eq_getElem?_getD, hstart]
    obtain ⟨s', frame, hfeed, hframe⟩ := ih h₁ hstart₁
      (by rw [List.length_append, List.length_singleton]; omega)
    refine ⟨s', frame, ?_, by simpa using hframe⟩
    rw [List.cons_append, Rc.feed]
    dsimp only
    rw [heq]
    dsimp only
    rw [hfeed]
    simp [List.replicate_succ]

/-! ## Round trip -/

/-- The frame of at most sixteen channels: start symbol, data, clear flags and end marker. -/
theorem load_packFrame {values : List UInt16} (hlen : values.length ≤ 16) :
    ∃ mid : List UInt8, mid.length = 23 ∧
      load (packFrame values).oframe 0 sbusFrameSize = sbusStartSymbol :: (mid ++ [0]) := by
  have h := packed_packFrame hlen
  refine ⟨load (packFrame values).oframe 1 23, by simp, ?_⟩
  have hend : (packFrame values).oframe 24 = 0 := h.eq_zero (b := 23) (by
    rw [List.length_map]
    omega)
  have hstart := h.start
  have hrange : List.range 25 = 0 :: ((List.range 23).map (1 + ·) ++ [24]) := by decide
  simp [load, sbusFrameSize, hrange, hstart, hend, Function.comp_def]

theorem exists_cons_append_of_length {α : Type*} {l : List α} {n : ℕ} (h : l.length = n + 2) :
    ∃ first mid last, l = first :: (mid ++ [last]) ∧ mid.length = n := by
  cases l with
  | nil => exact absurd h (by simp)
  | cons first rest =>
    have hrest : rest.length = n + 1 := Nat.succ.inj h
    have hne : rest ≠ [] := List.ne_nil_of_length_pos (by omega)
    refine ⟨first, rest.dropLast, rest.getLast hne, ?_, ?_⟩
    · rw [List.dropLast_append_getLast hne]
    · rw [List.length_dropLast, hrest, Nat.add_sub_cancel]

theorem readChannels_values (frame : Mem) (out : Channels) {maxValues : ℕ} (hmax : 16 ≤ maxValues)
    {c : ℕ} (hc : c < 16) :
    (readChannels frame out maxValues).values c = pulseWidth (rawChannel frame c) := by
  have hcount : c < if maxValues > sbusInputChannels then sbusInputChannels else maxValues := by
    unfold sbusInputChannels
    split <;> omega
  have h16 : c ≠ 16 := by omega
  have h17 : c ≠ 17 := by omega
  rw [readChannels]
  dsimp only
  generalize (if maxValues > sbusInputChannels then sbusInputChannels else maxValues) = n at *
  split
  · rw [Function.update_of_ne h17, Function.update_of_ne h16, if_pos hcount, channelValue]
  · exact if_pos hcount

theorem readChannels_flags {frame : Mem} (hflags : frame sbusFlagsByte = 0) (out : Channels)
    (maxValues : ℕ) :
    (readChannels frame out maxValues).failsafe = false ∧
      (readChannels frame out maxValues).frameDrop = false := by
  simp [readChannels, hflags]

/-- S.BUS output and input agree: a frame written by the output that comes in byte by byte, out of
sync and with room for sixteen channels, is decoded by its last byte with clear flags, and every
channel is the one that was sent, limited to the range of eleven bits. -/
theorem feed_sbus1Output (tx : Output) (now : UInt64) (values : List UInt16)
    (hlen : values.length ≤ 16) (bytes : List UInt8)
    (hout : (sbus1Output tx now values).2 = some bytes) (rx : Input)
    (hrx : rx.decodeState = .desync) (out : Channels) (maxChannels : ℕ) (hmax : 16 ≤ maxChannels)
    (times : List UInt64) (htimes : times.length = bytes.length) :
    let r := feed maxChannels (rx, out) (times.zip bytes)
    r.2 = List.replicate 24 false ++ [true] ∧
      r.1.2.failsafe = false ∧ r.1.2.frameDrop = false ∧
      ∀ i (hi : i < values.length),
        (r.1.2.values i).toNat = max 874 (min 2153 values[i].toNat) := by
  have hpacked := packed_packFrame hlen
  obtain ⟨mid, hmid, hload⟩ := load_packFrame hlen
  have hbytes : bytes = load (packFrame values).oframe 0 sbusFrameSize := by
    unfold sbus1Output at hout
    split at hout
    · exact (Option.some.inj hout).symm
    · exact absurd hout (by simp)
  -- the times of the first byte, of those in the middle and of the last one
  obtain ⟨t₀, ts, t₁, rfl, hts⟩ : ∃ t₀ ts t₁, times = t₀ :: (ts ++ [t₁]) ∧ ts.length = 23 := by
    rw [hbytes, length_load] at htimes
    exact exists_cons_append_of_length htimes
  have hzip : (t₀ :: (ts ++ [t₁])).zip bytes
      = (t₀, sbusStartSymbol) :: (ts.zip mid ++ [(t₁, 0)]) := by
    rw [hbytes, hload, List.zip_cons_cons, List.zip_append (by omega)]
    rfl
  have hziplen : (ts.zip mid).length = 23 := by
    rw [List.length_zip, hts, hmid]
    rfl
  have hsnd : (ts.zip mid).map Prod.snd = mid := List.map_snd_zip (by omega)
  obtain ⟨s₁, hfirst, hcollect⟩ := sbusParse_start hrx out t₀ maxChannels
  obtain ⟨s', frame, hfeed, hframe⟩ := hcollect.feed rfl out maxChannels (ts.zip mid)
    t₁ (by rw [hziplen]; rfl)
  have hoframe : ∀ i < sbusFrameSize, frame i = (packFrame values).oframe i := by
    intro i hi
    rw [hframe i hi, hsnd, List.append_assoc, List.singleton_append, ← hload]
    simp [load, hi]
  have hflags : frame sbusFlagsByte = 0 := by
    have hzero := hpacked.eq_zero (b := 22) (by
      rw [List.length_map]
      omega)
    rw [hoframe _ (by decide)]
    exact hzero
  have hrun : feed maxChannels (rx, out) ((t₀ :: (ts ++ [t₁])).zip bytes)
      = ((s', readChannels frame out maxChannels), List.replicate 24 false ++ [true]) := by
    rw [hzip, feed]
    dsimp only
    rw [hfirst]
    dsimp only
    rw [hfeed, hziplen]
    rfl
  intro r
  rw [show r = _ from hrun]
  refine ⟨rfl, (readChannels_flags hflags out maxChannels).1,
    (readChannels_flags hflags out maxChannels).2, ?_⟩
  intro i hi
  have hraw : rawChannel frame i = outputValue values[i] := by
    rw [rawChannel_eq hpacked ?_ hoframe (by omega), List.getD_eq_getElem?_getD,
      List.getElem?_map, List.getElem?_eq_getElem hi]
    · rfl
    · intro x hx
      obtain ⟨v, -, rfl⟩ := List.mem_map.1 hx
      exact outputValue_lt v
  show ((readChannels frame out maxChannels).values i).toNat = _
  rw [readChannels_values frame out hmax (by omega), hraw, pulseWidth_outputValue]

/-- Two channels, one of them below the range, into a decoder that had lost sync in a frame. -/
theorem feed_sbus1Output_two :
    ∃ bytes, (sbus1Output ⟨0, 13888⟩ 20000 [1500, 100]).2 = some bytes ∧
      let r := feed 18 (⟨.desync, fun _ => 0xff, 25, 0, 0⟩, ⟨fun _ => 0, 0, true, true⟩)
        ((List.replicate 25 7).zip bytes)
      r.2 = List.replicate 24 false ++ [true] ∧
        r.1.2.failsafe = false ∧ r.1.2.frameDrop = false ∧
        ∀ i (hi : i < [(1500 : UInt16), 100].length),
          (r.1.2.values i).toNat = max 874 (min 2153 [(1500 : UInt16), 100][i].toNat) := by
  refine ⟨load (packFrame [1500, 100]).oframe 0 sbusFrameSize, rfl, ?_⟩
  exact feed_sbus1Output ⟨0, 13888⟩ 20000 [1500, 100] (by decide) _ rfl _ rfl _ 18 (by decide)
    (List.replicate 25 7) (by rw [length_load]; rfl)

end Rc
end DtPhm
