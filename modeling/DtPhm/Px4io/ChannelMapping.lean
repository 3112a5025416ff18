import DtPhm.Lib.Rounding
import DtPhm.Px4io.Controls
import Mathlib.Data.Finset.Card
import Mathlib.Data.Nat.Bitwise

/-!
# ChannelMapping — the channels of a frame as controls

The mapping loop of `controls_tick` over exact numbers.  A conversion to `int16_t` truncates, and
may give anything where the number does not fit.

* `divisor`, `controlValue` — what one channel is divided by, and what it makes of its control;
* `assignedControls`, `lastAssigned` — the controls with a channel, and the channel that counts;
* `MappingRight` — what a tick with a frame has to do;
* `MappingSound` — when it does: no range that is the wrong way round lets its channel divide by
  zero or leave the range of the controls, the PPM input does not keep received channels from being
  mapped, and the number of controls is not told by their mask alone;
* `channel_mapping` — the ticks of a run.
-/

namespace DtPhm
namespace Px4io

open Lib

variable {G : Type}

/-! ## One channel -/

/-- The tick with exact numbers. -/
def RcMath.exact (math : RcMath) (conv : IntConv (-32768) 32767) : RcMath :=
  { math with scaled := fun a b => Int16.ofInt (conv (10000 * ((a : ℚ) / b))) }

/-- What a limited value is divided by, outside of the dead zone. -/
def divisor (conf : ℕ → UInt16) (raw : UInt16) : Option ℤ :=
  let raw : ℤ := raw.toNat
  let center : ℤ := (conf RcConfig.center).toNat
  let deadzone : ℤ := (conf RcConfig.deadzone).toNat
  if raw > center + deadzone then some ((conf RcConfig.max).toNat - center - deadzone)
  else if raw < center - deadzone then some (center - deadzone - (conf RcConfig.min).toNat)
  else none

/-- The lower end of the dead zone. -/
def zoneStart (conf : ℕ → UInt16) : ℤ :=
  (conf RcConfig.center).toNat - (conf RcConfig.deadzone).toNat

/-- The range is the wrong way round, and below the dead zone: every value becomes the greatest
one. -/
def Reversed (conf : ℕ → UInt16) : Prop :=
  conf RcConfig.max < conf RcConfig.min ∧ ((conf RcConfig.max).toNat : ℤ) < zoneStart conf

/-- The least value is where the dead zone starts. -/
def DividesByZero (conf : ℕ → UInt16) : Prop :=
  Reversed conf ∧ zoneStart conf = (conf RcConfig.min).toNat

/-- The greatest value is so far from the dead zone, compared with the least one, that it is scaled
to more than 10000. -/
def Overdriven (conf : ℕ → UInt16) : Prop :=
  Reversed conf ∧
    10001 * |zoneStart conf - (conf RcConfig.min).toNat| ≤
      10000 * (zoneStart conf - (conf RcConfig.max).toNat)

/-- A value in the range of the controls. -/
def InControlRange (v : Int16) : Prop := |v.toInt| ≤ 10000

section Channel

variable {math : RcMath} {conv : IntConv (-32768) 32767} {conf : ℕ → UInt16} {raw : UInt16}

theorem divisor_clampRaw : divisor conf (clampRaw conf raw) = some 0 ↔ DividesByZero conf := by
  unfold DividesByZero Reversed zoneStart divisor
  simp only [UInt16.lt_iff_toNat_lt]
  have hclamp := clampRaw_cases conf raw
  simp only [UInt16.lt_iff_toNat_lt, ← UInt16.toNat_inj] at hclamp
  generalize clampRaw conf raw = v at hclamp ⊢
  split
  · rw [Option.some.injEq]
    omega
  · split
    · rw [Option.some.injEq]
      omega
    · refine iff_of_false nofun ?_
      omega

/-- A limited value is in the dead zone, or no further from it than the end of its range, or the
range is reversed. -/
theorem scaleRaw_clampRaw_cases (math : RcMath) (conf : ℕ → UInt16) (raw : UInt16) :
    (scaleRaw math conf (clampRaw conf raw) = 0 ∧ ¬Reversed conf) ∨
      (∃ a b : ℤ, |a| ≤ |b| ∧ scaleRaw math conf (clampRaw conf raw) = math.scaled a b ∧
        ¬Reversed conf) ∨
      (Reversed conf ∧ scaleRaw math conf (clampRaw conf raw) =
        math.scaled ((conf RcConfig.max).toNat - zoneStart conf)
          (zoneStart conf - (conf RcConfig.min).toNat)) := by
  unfold Reversed zoneStart scaleRaw
  simp only [UInt16.lt_iff_toNat_lt]
  have hclamp := clampRaw_cases conf raw
  simp only [UInt16.lt_iff_toNat_lt, ← UInt16.toNat_inj] at hclamp
  generalize clampRaw conf raw = v at hclamp ⊢
  split
  · refine Or.inr (Or.inl ⟨_, _, ?_, rfl, by omega⟩)
    rw [abs_of_pos (by omega), abs_of_pos (by omega)]
    omega
  · split
    · rcases hclamp with ⟨hrange, heq⟩ | ⟨hrange, hlow, -⟩
      · refine Or.inr (Or.inr ⟨⟨hrange, by omega⟩, ?_⟩)
        rw [heq]
        congr 1
        omega
      · refine Or.inr (Or.inl ⟨_, _, ?_, rfl, fun h => hrange h.1⟩)
        rw [abs_of_neg (by omega), abs_of_pos (by omega)]
        omega
    · exact Or.inl ⟨rfl, by omega⟩

theorem conv_toInt (conv : IntConv (-32768) 32767) (q : ℚ) :
    (Int16.ofInt (conv q)).toInt = conv q :=
  Int16.toInt_ofInt_of_le (conv.lower q) (Int.lt_add_one_of_le (conv.upper q))

theorem inControlRange_conv {q : ℚ} (h : |q| < 10001) : InControlRange (Int16.ofInt (conv q)) := by
  have htrunc : |truncZero q| ≤ (10000 : ℕ) := abs_truncZero_le_iff.2 (by norm_num; exact h)
  have hbounds := abs_le.1 htrunc
  unfold InControlRange
  rw [conv_toInt, conv.exact q (by omega) (by omega)]
  exact htrunc

theorem abs_scaled_lt_iff {a b : ℤ} (hb : b ≠ 0) :
    |10000 * ((a : ℚ) / b)| < 10001 ↔ 10000 * |a| < 10001 * |b| := by
  have hpos : (0 : ℚ) < |(b : ℚ)| := abs_pos.2 (by exact_mod_cast hb)
  rw [abs_mul, abs_div, abs_of_pos (show (0 : ℚ) < 10000 by norm_num), ← mul_div_assoc,
    div_lt_iff₀ hpos]
  exact_mod_cast Iff.rfl

/-- A conversion that saturates leaves the range of the controls where the number does. -/
theorem not_inControlRange_saturate {q : ℚ} (h : 10001 ≤ |q|) :
    ¬InControlRange (Int16.ofInt (IntConv.saturate (show (-32768 : ℤ) ≤ 32767 by decide) q)) := by
  have htrunc : ¬|truncZero q| ≤ (10000 : ℕ) := by
    rw [abs_truncZero_le_iff]
    norm_num
    exact h
  intro hrange
  -- a number beyond the range of the controls is cut off beyond it, too
  refine htrunc ?_
  have hvalue : IntConv.saturate (show (-32768 : ℤ) ≤ 32767 by decide) q =
      max (-32768) (min 32767 (truncZero q)) := rfl
  unfold InControlRange at hrange
  rw [conv_toInt, hvalue, abs_le] at hrange
  rw [abs_le]
  omega

theorem inControlRange_neg {v : Int16} : InControlRange (-v) ↔ InControlRange v := by
  have hlow := v.le_toInt
  have hhigh := v.toInt_lt
  unfold InControlRange
  rw [Int16.toInt_neg, abs_le, abs_le, Int.bmod_def]
  omega

/-- The scaled value, with the directions that are inverted. -/
def controlValue (math : RcMath) (conf : ℕ → UInt16) (control : ℕ) (raw : UInt16) : Int16 :=
  let scaled := scaleRaw math conf (clampRaw conf raw)
  let scaled := if hasFlag (conf RcConfig.options) RcConfig.optionsReverse then -scaled else scaled
  if control = 1 then -scaled else scaled

theorem inControlRange_controlValue {control : ℕ} :
    InControlRange (controlValue math conf control raw) ↔
      InControlRange (scaleRaw math conf (clampRaw conf raw)) := by
  unfold controlValue
  dsimp only
  split <;> split <;> simp only [inControlRange_neg]

/-- A channel that does not divide by zero stays in the range of the controls exactly if it is not
overdriven. -/
theorem controlValue_range_iff (math : RcMath) (control : ℕ) (raw : UInt16)
    (hzero : ¬DividesByZero conf) :
    (∀ conv, InControlRange (controlValue (math.exact conv) conf control raw)) ↔
      ¬Overdriven conf := by
  simp only [inControlRange_controlValue]
  constructor
  · rintro hall ⟨hreversed, hfar⟩
    have hne : zoneStart conf - (conf RcConfig.min).toNat ≠ 0 :=
      fun h => hzero ⟨hreversed, sub_eq_zero.1 h⟩
    have hpos : 0 < zoneStart conf - (conf RcConfig.max).toNat := sub_pos.2 hreversed.2
    -- the conversion that saturates does not hide that the quotient is too great
    rcases scaleRaw_clampRaw_cases (math.exact (IntConv.saturate (by decide))) conf raw with
      ⟨-, hno⟩ | ⟨_, _, -, -, hno⟩ | ⟨-, hscaled⟩
    · exact hno hreversed
    · exact hno hreversed
    · have hrange := hall (IntConv.saturate (by decide))
      rw [hscaled] at hrange
      refine not_inControlRange_saturate (not_lt.1 ?_) hrange
      rw [abs_scaled_lt_iff hne, abs_sub_comm, abs_of_pos hpos]
      exact not_lt.2 hfar
  · intro hnot conv
    rcases scaleRaw_clampRaw_cases (math.exact conv) conf raw with
      ⟨hscaled, -⟩ | ⟨a, b, hle, hscaled, -⟩ | ⟨hreversed, hscaled⟩
    -- in the dead zone
    · rw [hscaled]
      show |(0 : Int16).toInt| ≤ 10000
      decide
    -- on one side of it, at most as far away as the end of the range
    · rw [hscaled]
      refine inControlRange_conv ?_
      by_cases hb : b = 0
      · subst hb
        norm_num
      · have hpos : 0 < |b| := abs_pos.2 hb
        rw [abs_scaled_lt_iff hb]
        omega
    · rw [hscaled]
      have hne : zoneStart conf - (conf RcConfig.min).toNat ≠ 0 :=
        fun h => hzero ⟨hreversed, sub_eq_zero.1 h⟩
      have hpos : 0 < zoneStart conf - (conf RcConfig.max).toNat := sub_pos.2 hreversed.2
      refine inControlRange_conv ?_
      rw [abs_scaled_lt_iff hne, abs_sub_comm, abs_of_pos hpos]
      exact not_le.1 fun hfar => hnot ⟨hreversed, hfar⟩

end Channel

/-! ## The loop -/

/-- The channel is enabled and assigned to the control. -/
def Io.assigns (io : Io G) (control i : ℕ) : Bool :=
  io.channelEnabled i && (io.conf i RcConfig.assignment).toNat == control

/-- The controls that the first `n` channels are assigned to. -/
def Io.assignedControls (io : Io G) (n : ℕ) : Finset ℕ :=
  (Finset.range controlChannels).filter fun control => ∃ i < n, io.assigns control i = true

/-- The last channel before `n` that is assigned to the control: it overwrites those before it. -/
def Io.lastAssigned (io : Io G) (control : ℕ) : ℕ → Option ℕ
  | 0 => none
  | n + 1 => if io.assigns control n then some n else io.lastAssigned control n

variable {math : RcMath} {s : RcIo G} {io : Io G} {rc : RcInput} {control n : ℕ}

theorem Io.mem_assignedControls : control ∈ io.assignedControls n ↔
    control < controlChannels ∧ ∃ i < n, io.assigns control i = true := by
  rw [Io.assignedControls, Finset.mem_filter, Finset.mem_range]

theorem Io.lastAssigned_eq_none : io.lastAssigned control n = none ↔
    ¬∃ i < n, io.assigns control i = true := by
  induction n with
  | zero => exact iff_of_true rfl fun ⟨i, hi, _⟩ => absurd hi (Nat.not_lt_zero i)
  | succ n ih =>
      rw [Io.lastAssigned]
      cases hn : io.assigns control n
      · rw [if_neg Bool.false_ne_true, ih, not_iff_not]
        constructor
        · rintro ⟨i, hi, hassigns⟩
          exact ⟨i, Nat.lt_succ_of_lt hi, hassigns⟩
        · rintro ⟨i, hi, hassigns⟩
          have hne : i ≠ n := fun h => by simp [h, hn] at hassigns
          exact ⟨i, by omega, hassigns⟩
      · exact iff_of_false nofun fun hno => hno ⟨n, Nat.lt_succ_self n, hn⟩

theorem Io.lastAssigned_eq_some {i : ℕ} (h : io.lastAssigned control n = some i) :
    i < n ∧ io.assigns control i = true := by
  induction n with
  | zero => cases h
  | succ n ih =>
      rw [Io.lastAssigned] at h
      split at h
      · rename_i hassigns
        obtain rfl : n = i := Option.some.inj h
        exact ⟨Nat.lt_succ_self n, hassigns⟩
      · obtain ⟨hi, hassigns⟩ := ih h
        exact ⟨Nat.lt_succ_of_lt hi, hassigns⟩

theorem mapChannel_spec (math : RcMath) (io : Io G) (m : RcInput × UInt32) (i : ℕ)
    (hcontrol : control < controlChannels) :
    (mapChannel math io m i).1.values = m.1.values ∧
      (mapChannel math io m i).1.rcValues control =
        (if io.assigns control i then
          (controlValue math (io.conf i) control (m.1.values i)).toUInt16
        else m.1.rcValues control) := by
  unfold mapChannel Io.assigns
  cases henabled : io.channelEnabled i with
  | false => exact ⟨rfl, rfl⟩
  | true =>
      simp only [Bool.not_true, Bool.false_eq_true, if_false, Bool.true_and, beq_iff_eq]
      by_cases hmapped : (io.conf i RcConfig.assignment).toNat < controlChannels
      · rw [if_pos hmapped]
        refine ⟨?_, ?_⟩
        · dsimp only
          split
          · exact RcInput.put_values _ _ _
          · rfl
        · by_cases hsame : (io.conf i RcConfig.assignment).toNat = control
          · subst hsame
            rw [if_pos rfl]
            exact Function.update_self ..
          · rw [if_neg hsame]
            dsimp only
            rw [Function.update_of_ne (Ne.symm hsame)]
            split
            · rw [RcInput.put_rcValues]
            · rfl
      -- the channel of the mode, or one without a control
      · have hne : (io.conf i RcConfig.assignment).toNat ≠ control :=
          fun h => hmapped (h ▸ hcontrol)
        rw [if_neg hmapped, if_neg hne]
        split <;> exact ⟨rfl, rfl⟩

theorem testBit_shiftLeft {k : ℕ} (hk : k < controlChannels) (j : ℕ) :
    ((1 : UInt32) <<< UInt32.ofNat k).toNat.testBit j = decide (k = j) := by
  have hpow : ((1 : UInt32) <<< UInt32.ofNat k).toNat = 2 ^ k := by
    have hall : ∀ i : Fin controlChannels, ((1 : UInt32) <<< UInt32.ofNat i).toNat =
        2 ^ (i : ℕ) := by
      decide
    exact hall ⟨k, hk⟩
  rw [hpow, Nat.testBit_two_pow]

theorem mapChannel_mask (m : RcInput × UInt32) (i j : ℕ) :
    (mapChannel math io m i).2.toNat.testBit j =
      (m.2.toNat.testBit j || decide (j < controlChannels ∧ io.assigns j i = true)) := by
  unfold mapChannel Io.assigns
  cases henabled : io.channelEnabled i with
  | false => simp
  | true =>
      simp only [Bool.not_true, Bool.false_eq_true, if_false, Bool.true_and, beq_iff_eq]
      by_cases hmapped : (io.conf i RcConfig.assignment).toNat < controlChannels
      · rw [if_pos hmapped]
        dsimp only
        rw [UInt32.toNat_or, Nat.testBit_or, testBit_shiftLeft hmapped]
        congr 1
        rw [decide_eq_decide]
        exact ⟨fun h => ⟨h ▸ hmapped, h⟩, And.right⟩
      · have hno : ¬(j < controlChannels ∧ (io.conf i RcConfig.assignment).toNat = j) :=
          fun h => hmapped (h.2 ▸ h.1)
        rw [if_neg hmapped, decide_eq_false hno, Bool.or_false]
        split <;> rfl

theorem mapChannels_spec (math : RcMath) (io : Io G) (rc : RcInput) (n : ℕ)
    (hcontrol : control < controlChannels) :
    (mapChannels math io rc n).1.values = rc.values ∧
      (mapChannels math io rc n).1.rcValues control =
        (io.lastAssigned control n).elim (rc.rcValues control) fun i =>
          (controlValue math (io.conf i) control (rc.values i)).toUInt16 := by
  induction n with
  | zero => exact ⟨rfl, rfl⟩
  | succ n ih =>
      obtain ⟨hvalues, hlast⟩ := ih
      obtain ⟨hvalues', hstep⟩ := mapChannel_spec math io (mapChannels math io rc n) n hcontrol
      rw [mapChannels_succ, hvalues', hstep, hvalues, hlast, Io.lastAssigned]
      refine ⟨rfl, ?_⟩
      split <;> rfl

theorem mapChannels_mask (math : RcMath) (io : Io G) (rc : RcInput) (n j : ℕ) :
    (mapChannels math io rc n).2.toNat.testBit j = decide (j ∈ io.assignedControls n) := by
  induction n with
  | zero =>
      have hempty : j ∉ io.assignedControls 0 := fun h => by
        obtain ⟨-, i, hi, -⟩ := Io.mem_assignedControls.1 h
        exact absurd hi (Nat.not_lt_zero i)
      rw [decide_eq_false hempty]
      exact Nat.zero_testBit j
  | succ n ih =>
      rw [mapChannels_succ, mapChannel_mask, ih, ← Bool.decide_or, decide_eq_decide,
        Io.mem_assignedControls, Io.mem_assignedControls]
      constructor
      · rintro (⟨hj, i, hi, hassigns⟩ | ⟨hj, hassigns⟩)
        · exact ⟨hj, i, Nat.lt_succ_of_lt hi, hassigns⟩
        · exact ⟨hj, n, Nat.lt_succ_self n, hassigns⟩
      · rintro ⟨hj, i, hi, hassigns⟩
        rcases Nat.lt_succ_iff_lt_or_eq.1 hi with hi | rfl
        · exact Or.inl ⟨hj, i, hi, hassigns⟩
        · exact Or.inr ⟨hj, hassigns⟩

/-! ## The mask -/

section Mask

variable {mask : UInt32} {A : Finset ℕ} (h : ∀ j, mask.toNat.testBit j = decide (j ∈ A))

include h

theorem mask_and_eq_zero_iff {i : ℕ} (hi : i < controlChannels) :
    mask &&& (1 : UInt32) <<< UInt32.ofNat i = 0 ↔ i ∉ A := by
  rw [← UInt32.toNat_inj, UInt32.toNat_and]
  constructor
  · intro hzero hmem
    have hbit := congrArg (fun x => Nat.testBit x i) hzero
    rw [Nat.testBit_and, h, testBit_shiftLeft hi, decide_eq_true hmem, decide_eq_true rfl,
      UInt32.toNat_zero, Nat.zero_testBit] at hbit
    exact absurd hbit (by decide)
  · intro hmem
    refine Nat.eq_of_testBit_eq fun j => ?_
    rw [Nat.testBit_and, h, testBit_shiftLeft hi]
    by_cases hj : i = j
    · subst hj
      simp [hmem]
    · simp [hj]

theorem mask_toUInt16 (hA : ∀ j ∈ A, j < controlChannels) (j : ℕ) :
    mask.toUInt16.toNat.testBit j = decide (j ∈ A) := by
  rw [UInt32.toNat_toUInt16, Nat.testBit_mod_two_pow, h]
  by_cases hj : j ∈ A
  · have hlt : j < 16 := lt_trans (hA j hj) (by decide)
    simp [hj, hlt]
  · simp [hj]

theorem mask_gt_four_iff : mask > 4 ↔ ¬(A ⊆ {0, 1} ∨ A = {2}) := by
  rw [gt_iff_lt, UInt32.lt_iff_toNat_lt, show (4 : UInt32).toNat = 4 from rfl, ← not_le,
    not_iff_not]
  constructor
  · intro hle
    rcases Nat.lt_or_eq_of_le hle with hlt | heq
    · refine Or.inl fun j hj => ?_
      by_contra hno
      have hj2 : 2 ≤ j := by
        simp only [Finset.mem_insert, Finset.mem_singleton] at hno
        omega
      -- below four there are two bits
      have hbit : mask.toNat.testBit j = false :=
        Nat.testBit_lt_two_pow (lt_of_lt_of_le hlt (Nat.pow_le_pow_right (n := 2) (by decide) hj2))
      rw [h, decide_eq_false_iff_not] at hbit
      exact hbit hj
    · refine Or.inr (Finset.ext fun j => ?_)
      have hbit := h j
      rw [heq, show 4 = 2 ^ 2 from rfl, Nat.testBit_two_pow, decide_eq_decide] at hbit
      rw [Finset.mem_singleton, ← hbit, eq_comm]
  · rintro (hsub | hsingle)
    · refine Nat.le_of_lt (Nat.lt_pow_two_of_testBit (n := 2) _ fun j hj => ?_)
      rw [h, decide_eq_false_iff_not]
      intro hmem
      have hpair := hsub hmem
      simp only [Finset.mem_insert, Finset.mem_singleton] at hpair
      omega
    · refine le_of_eq (Nat.eq_of_testBit_eq fun j => ?_)
      rw [h, show 4 = 2 ^ 2 from rfl, Nat.testBit_two_pow, decide_eq_decide, hsingle,
        Finset.mem_singleton, eq_comm]

end Mask

/-! ## A tick with a frame -/

/-- What has to become of a frame: no division by zero, controls in their range, and in the
registers the controls that some received channel is assigned to.  Where the tick declares the input
lost at once, no control is valid. -/
structure MappingRight (math : RcMath) (s : RcIo G) (t : ControlsTick) (frame : RcFrame) :
    Prop where
  divides : ∀ i < (sensedInput math s t).rc.count, s.io.channelEnabled i = true →
    divisor (s.io.conf i) (clampRaw (s.io.conf i) ((sensedInput math s t).rc.values i)) ≠ some 0
  range : ∀ control < controlChannels,
    InControlRange ((controlsTick math s t).rc.rcValues control).toInt16
  valid : inputLost (controlsTick math s t).rc t.now = false →
    ∀ j, (controlsTick math s t).rc.rcValid.toNat.testBit j =
      decide (j ∈ s.io.assignedControls (s.receivedCount frame))
  zero : ∀ control < controlChannels, control ∉ s.io.assignedControls (s.receivedCount frame) →
    (controlsTick math s t).rc.rcValues control = 0
  mapping : hasFlag (controlsTick math s t).rc.flags RawRcFlag.mappingOk = true ↔
    5 ≤ (s.io.assignedControls (s.receivedCount frame)).card

/-- No mapped channel divides by zero, and no control gets its value from a channel that is
overdriven. The channels that are received but not mapped are assigned to no further control, unless
the tick declares the input lost.  Five controls or more are received exactly if those that are
mapped are not among the first two, nor the third one alone. -/
structure MappingSound (s : RcIo G) (t : ControlsTick) (frame : RcFrame) : Prop where
  divides : ∀ i < s.mappedCount t.ppmTime frame, s.io.channelEnabled i = true →
    ¬DividesByZero (s.io.conf i)
  range : ∀ control < controlChannels, ∀ i,
    s.io.lastAssigned control (s.mappedCount t.ppmTime frame) = some i → ¬Overdriven (s.io.conf i)
  valid : t.now - t.frameTime ≤ 200000 →
    s.io.assignedControls (s.mappedCount t.ppmTime frame) =
      s.io.assignedControls (s.receivedCount frame)
  mapping : ¬(s.io.assignedControls (s.mappedCount t.ppmTime frame) ⊆ {0, 1} ∨
      s.io.assignedControls (s.mappedCount t.ppmTime frame) = {2}) ↔
    5 ≤ (s.io.assignedControls (s.receivedCount frame)).card

theorem lossStage_keeps (u : RcIo G) (now : UInt64) :
    (lossStage u now).rc.rcValues = u.rc.rcValues ∧
      hasFlag (lossStage u now).rc.flags RawRcFlag.mappingOk =
        hasFlag u.rc.flags RawRcFlag.mappingOk ∧
      inputLost (lossStage u now).rc now = inputLost u.rc now ∧
      (inputLost u.rc now = false → (lossStage u now).rc.rcValid = u.rc.rcValid) := by
  unfold lossStage
  cases hlost : inputLost u.rc now with
  | false => exact ⟨rfl, rfl, hlost, fun _ => rfl⟩
  | true => exact ⟨rfl, hasFlag_and_not _ (by decide), hlost, fun h => nomatch h⟩

theorem processFrame_spec (math : RcMath) (u : RcIo G) (now : UInt64) :
    (∀ control < controlChannels, (processFrame math u now).rc.rcValues control =
        ((u.io.lastAssigned control u.rc.count).elim 0 fun i =>
          controlValue math (u.io.conf i) control (u.rc.values i)).toUInt16) ∧
      (∀ j, (processFrame math u now).rc.rcValid.toNat.testBit j =
        decide (j ∈ u.io.assignedControls u.rc.count)) ∧
      (hasFlag (processFrame math u now).rc.flags RawRcFlag.mappingOk = true ↔
        ¬(u.io.assignedControls u.rc.count ⊆ {0, 1} ∨ u.io.assignedControls u.rc.count = {2})) := by
  have hmask := mapChannels_mask math u.io
    { u.rc with timestampReceived := now, timestampValid := now } u.rc.count
  unfold processFrame
  dsimp only
  refine ⟨fun control hcontrol => ?_, fun j => ?_, ?_⟩
  · obtain ⟨-, hvalue⟩ := mapChannels_spec math u.io
      { u.rc with timestampReceived := now, timestampValid := now } u.rc.count hcontrol
    have hzero := mask_and_eq_zero_iff hmask hcontrol
    rw [RcInput.put_rcValues]
    cases hlast : u.io.lastAssigned control u.rc.count with
    -- set to zero behind the loop
    | none =>
        have hno : control ∉ u.io.assignedControls u.rc.count := fun hmem =>
          Io.lastAssigned_eq_none.1 hlast (Io.mem_assignedControls.1 hmem).2
        exact if_pos ⟨hcontrol, hzero.2 hno⟩
    | some i =>
        have hmem : control ∈ u.io.assignedControls u.rc.count := by
          by_contra hno
          have hnone : u.io.lastAssigned control u.rc.count = none :=
            Io.lastAssigned_eq_none.2 fun h => hno (Io.mem_assignedControls.2 ⟨hcontrol, h⟩)
          rw [hnone] at hlast
          cases hlast
        rw [hlast] at hvalue
        exact (if_neg fun h => hzero.1 h.2 hmem).trans hvalue
  · rw [RcInput.put_rcValid]
    exact mask_toUInt16 hmask (fun _ hj => (Io.mem_assignedControls.1 hj).1) j
  · rw [RcInput.hasFlag_put _ _ _ (by decide), decide_eq_true_iff]
    exact mask_gt_four_iff hmask

section Tick

variable {t : ControlsTick} {frame : RcFrame}

theorem SameConfig.assigns {io io' : Io G} (h : SameConfig io io') (control i : ℕ) :
    io'.assigns control i = io.assigns control i := by
  unfold Io.assigns Io.channelEnabled Io.conf
  rw [h.1]

theorem SameConfig.lastAssigned {io io' : Io G} (h : SameConfig io io') (control n : ℕ) :
    io'.lastAssigned control n = io.lastAssigned control n := by
  induction n with
  | zero => rfl
  | succ n ih => rw [Io.lastAssigned, Io.lastAssigned, h.assigns, ih]

theorem SameConfig.assignedControls {io io' : Io G} (h : SameConfig io io') (n : ℕ) :
    io'.assignedControls n = io.assignedControls n := by
  ext control
  simp only [Io.mem_assignedControls, h.assigns]

theorem mapChannels_timestamp (math : RcMath) (io : Io G) (rc : RcInput) (n : ℕ) :
    (mapChannels math io rc n).1.timestampReceived = rc.timestampReceived := by
  induction n with
  | zero => rfl
  | succ n ih =>
      rw [mapChannels_succ, ← ih]
      unfold mapChannel
      dsimp only
      repeat' split
      all_goals first | rfl | (unfold RcInput.put; split <;> rfl)

theorem controlsTick_spec (math : RcMath) (hframe : s.processed t = some frame) :
    (sensedInput math s t).rc.count = s.mappedCount t.ppmTime frame ∧
      (∀ control < controlChannels, (controlsTick math s t).rc.rcValues control =
        ((s.io.lastAssigned control (s.mappedCount t.ppmTime frame)).elim 0 fun i =>
          controlValue math (s.io.conf i) control
            ((sensedInput math s t).rc.values i)).toUInt16) ∧
      (inputLost (controlsTick math s t).rc t.now = false ↔ t.now - t.frameTime ≤ 200000) ∧
      (inputLost (controlsTick math s t).rc t.now = false →
        ∀ j, (controlsTick math s t).rc.rcValid.toNat.testBit j =
          decide (j ∈ s.io.assignedControls (s.mappedCount t.ppmTime frame))) ∧
      (hasFlag (controlsTick math s t).rc.flags RawRcFlag.mappingOk = true ↔
        ¬(s.io.assignedControls (s.mappedCount t.ppmTime frame) ⊆ {0, 1} ∨
          s.io.assignedControls (s.mappedCount t.ppmTime frame) = {2})) := by
  have hsensed : Sensed s (sensedInput math s t) (s.mappedCount t.ppmTime frame)
      (s.reported frame) := sensedInput_sensed hframe
  have hcount : (sensedInput math s t).rc.count = s.mappedCount t.ppmTime frame := by
    rw [← hsensed.count]
    exact (Nat.min_eq_left (Nat.min_le_right ..)).symm
  have hconf : (sensedInput math s t).io.conf = s.io.conf := by
    unfold Io.conf
    rw [hsensed.config.1]
  have htime : (processFrame math (sensedInput math s t) t.frameTime).rc.timestampReceived =
      t.frameTime := by
    unfold processFrame RcInput.put
    dsimp only
    split <;> exact mapChannels_timestamp ..
  obtain ⟨hvalues, hvalid, hmapping⟩ := processFrame_spec math (sensedInput math s t) t.frameTime
  obtain ⟨hkeeps, hflag, hlost, hkeepsValid⟩ :=
    lossStage_keeps (processFrame math (sensedInput math s t) t.frameTime) t.now
  rw [hcount, hsensed.config.assignedControls] at hvalid hmapping
  simp only [hcount, hsensed.config.lastAssigned, hconf] at hvalues
  refine ⟨hcount, ?_⟩
  unfold controlsTick
  rw [overrideStage_rc, hframe, Option.isSome_some, if_pos rfl, hkeeps, hflag, hlost]
  refine ⟨hvalues, ?_, fun h => ?_, hmapping⟩
  · rw [inputLost, htime, decide_eq_false_iff_not, gt_iff_lt, UInt64.not_lt]
  · rw [hkeepsValid h]
    exact hvalid

theorem mappedCount_le (s : RcIo G) (time : UInt64) (frame : RcFrame) :
    s.mappedCount time frame ≤ s.receivedCount frame := by
  unfold RcIo.mappedCount
  split
  · exact Nat.zero_le _
  · exact Nat.le_refl _

theorem inControlRange_zero : InControlRange (0 : Int16) := by
  show |(0 : Int16).toInt| ≤ 10000
  decide

theorem mappingRight_iff (math : RcMath) (hframe : s.processed t = some frame) :
    (∀ conv, MappingRight (math.exact conv) s t frame) ↔ MappingSound s t frame := by
  have hspec := fun conv => controlsTick_spec (s := s) (math.exact conv) hframe
  -- the frame is read without the scaling
  have hvalues : ∀ conv, (sensedInput (math.exact conv) s t).rc.values =
      (sensedInput math s t).rc.values := fun _ => rfl
  have hlastChannel : ∀ control i,
      s.io.lastAssigned control (s.mappedCount t.ppmTime frame) = some i →
      i < s.mappedCount t.ppmTime frame ∧ s.io.channelEnabled i = true := by
    intro control i h
    have hassigns := Io.lastAssigned_eq_some h
    exact ⟨hassigns.1, (Bool.and_eq_true_iff.1 hassigns.2).1⟩
  constructor
  · intro hright
    have hone := hright (IntConv.saturate (by decide))
    obtain ⟨hcount, -, hlost, hvalid, hmapping⟩ := hspec (IntConv.saturate (by decide))
    have hdivides : ∀ i < s.mappedCount t.ppmTime frame, s.io.channelEnabled i = true →
        ¬DividesByZero (s.io.conf i) := fun i hi henabled hzero =>
      hone.divides i (hcount ▸ hi) henabled (divisor_clampRaw.2 hzero)
    refine ⟨hdivides, fun control hcontrol i hlast => ?_, fun hage => ?_,
      hmapping.symm.trans hone.mapping⟩
    · obtain ⟨hi, henabled⟩ := hlastChannel control i hlast
      refine (controlValue_range_iff math control ((sensedInput math s t).rc.values i)
        (hdivides i hi henabled)).1 fun conv => ?_
      have hrange := (hright conv).range control hcontrol
      rw [(hspec conv).2.1 control hcontrol, hlast] at hrange
      exact hrange
    · ext j
      have hbit := (hvalid (hlost.2 hage) j).symm.trans (hone.valid (hlost.2 hage) j)
      rwa [decide_eq_decide] at hbit
  · intro hsound conv
    obtain ⟨hcount, hcontrols, hlost, hvalid, hmapping⟩ := hspec conv
    refine ⟨?_, ?_, fun h j => ?_, ?_, hmapping.trans hsound.mapping⟩
    · intro i hi henabled hzero
      exact hsound.divides i (hcount ▸ hi) henabled (divisor_clampRaw.1 hzero)
    · intro control hcontrol
      rw [hcontrols control hcontrol]
      cases hlast : s.io.lastAssigned control (s.mappedCount t.ppmTime frame) with
      | none => exact inControlRange_zero
      | some i =>
          obtain ⟨hi, henabled⟩ := hlastChannel control i hlast
          exact (controlValue_range_iff math control _ (hsound.divides i hi henabled)).2
            (hsound.range control hcontrol i hlast) conv
    · rw [hvalid h, hsound.valid (hlost.1 h)]
    · intro control hcontrol hno
      have hnone : s.io.lastAssigned control (s.mappedCount t.ppmTime frame) = none := by
        refine Io.lastAssigned_eq_none.2 fun ⟨i, hi, hassigns⟩ => hno ?_
        have hle := mappedCount_le s t.ppmTime frame
        exact Io.mem_assignedControls.2 ⟨hcontrol, i, by omega, hassigns⟩
      rw [hcontrols control hcontrol, hnone]
      rfl

end Tick

/-! ## All runs -/

/-- A tick with a frame is right, whatever a conversion makes of numbers that do not fit. -/
def MappingHonoured (math : RcMath) (s : RcIo G) : RcEvent → Prop
  | .controlsTick t =>
    ∀ frame, s.processed t = some frame → ∀ conv, MappingRight (math.exact conv) s t frame
  | _ => True

/-- The mapping of a tick with a frame is sound. -/
def MappingKept (s : RcIo G) : RcEvent → Prop
  | .controlsTick t => ∀ frame, s.processed t = some frame → MappingSound s t frame
  | _ => True

theorem mappingHonoured_iff (math : RcMath) (s : RcIo G) (e : RcEvent) :
    MappingHonoured math s e ↔ MappingKept s e := by
  cases e with
  | controlsTick t => exact forall₂_congr fun _ hframe => mappingRight_iff math hframe
  | _ => exact Iff.rfl

/-- All ticks of a run map their frames rightly exactly if all these mappings are sound. -/
theorem channel_mapping (ops : MixerMath G) (math : RcMath) (es : List RcEvent) :
    AllSteps (rcStep ops math) (MappingHonoured math)
        ⟨Io.initial ops.toMixerLoader, RcInput.initial⟩ es ↔
      AllSteps (rcStep ops math) MappingKept ⟨Io.initial ops.toMixerLoader, RcInput.initial⟩ es :=
  allSteps_congr (mappingHonoured_iff math) _ es

/-- The range of the first channel is written the wrong way round, with its least value where the
dead zone starts; the channel stays enabled, and a frame, long after the start, divides by zero. -/
theorem channel_divides_by_zero : ¬∀ (ops : MixerMath Unit) (math : RcMath) (es : List RcEvent),
    AllSteps (rcStep ops math) (MappingHonoured math)
      ⟨Io.initial ops.toMixerLoader, RcInput.initial⟩ es := by
  intro hall
  let ops : MixerMath Unit :=
    { reset := ()
      loadFromBuf := fun g _ => (g, 0)
      setTrims := fun g _ => g
      setAirmode := fun g _ => g
      mix := fun s _ _ _ => ⟨(), s.servos, false⟩
      mixZero := fun s => ((), s.servos) }
  let math : RcMath := ⟨fun _ _ => 0, fun a _ => a⟩
  let frame : RcFrame := .sbus (List.replicate 16 1500) false false
  let setRange : RcEvent := .registersSet idleBoard 53 0 [1470, 1500, 1000]
  let tick : ControlsTick := ⟨none, some frame, 1000000, 1000010, 1000100⟩
  let s := rcStep ops math ⟨Io.initial ops.toMixerLoader, RcInput.initial⟩ setRange
  have hprocessed : s.processed tick = some frame := processed_port rfl rfl (by decide)
  have hrun := hall ops math [setRange, .controlsTick tick]
  have hkept := (mappingHonoured_iff math s (.controlsTick tick)).1 hrun.2.1 frame hprocessed
  exact hkept.divides 0 (by decide) (by decide) ⟨⟨by decide, by decide⟩, by decide⟩

end Px4io
end DtPhm
