import DtPhm.Px4io.MixerTick
import DtPhm.Px4io.RcConfig

/-!
# Controls — the tick that reads the remote control

`controls_tick` takes a frame of a receiver, at one of two ports or from the PPM input, maps its
channels, notices a loss of the remote control and decides about manual override.

* `RcFrame` — a frame as the decoder of its protocol hands it over;
* `inputStage`, `mapChannel`, `controlsTick` — one tick, stage by stage;
* `Demanded` — what has to raise the failsafe flag;
* `mapChannels_failsafe` — what the mapping makes of the flag;
* `failsafe_honoured` — in which runs the flag is raised whenever it has to be.
-/

namespace DtPhm
namespace Px4io

open Lib

/-! ## State -/

/-- The RC pages and variables of the IO. -/
structure RcInput where
  /-- `r_raw_rc_count`. -/
  count : ℕ
  flags : UInt16
  nrssi : UInt16
  data : UInt16
  /-- `r_raw_rc_values`. -/
  values : RegPage
  rcValid : UInt16
  rcValues : RegPage
  timestampReceived : UInt64
  timestampValid : UInt64
  rcValueOverride : UInt16
  rssi : UInt16
  frameDrops : UInt32
  rssiAdcCounts : UInt32
  ppmLastValidDecode : UInt64
  /-- `ppm_buffer`, as far as `ppm_decoded_channels` says. -/
  ppmChannels : List UInt16
  ppmFrameLength : UInt16

def RcInput.setFlags (rc : RcInput) (v : UInt16) : RcInput := { rc with flags := v }

def RcInput.raise (rc : RcInput) (m : UInt16) : RcInput := rc.setFlags (rc.flags ||| m)

def RcInput.clear (rc : RcInput) (m : UInt16) : RcInput := rc.setFlags (rc.flags &&& ~~~m)

def RcInput.put (rc : RcInput) (m : UInt16) (b : Bool) : RcInput :=
  if b then rc.raise m else rc.clear m

section Put

variable (rc : RcInput) (m : UInt16) (b : Bool)

@[simp] theorem RcInput.put_values : (rc.put m b).values = rc.values := by
  cases b <;> rfl

@[simp] theorem RcInput.put_rcValues : (rc.put m b).rcValues = rc.rcValues := by
  cases b <;> rfl

@[simp] theorem RcInput.put_rcValid : (rc.put m b).rcValid = rc.rcValid := by
  cases b <;> rfl

theorem RcInput.hasFlag_put (h : m ≠ 0) : hasFlag (rc.put m b).flags m = b := by
  cases b with
  | false => exact hasFlag_and_not_self ..
  | true => exact hasFlag_or_self _ h

end Put

/-- `PX4IO_P_RAW_RC_FLAGS_FAILSAFE`. -/
def RcInput.failsafe (rc : RcInput) : Bool := hasFlag rc.flags RawRcFlag.failsafe

/-- The registers of the IO, with those of the RC input. -/
structure RcIo (G : Type) where
  io : Io G
  rc : RcInput

variable {G : Type}

/-! ## Frames -/

/-- A frame as the decoder of its protocol hands it over. -/
inductive RcFrame
  | sbus (values : List UInt16) (failsafe frameDrop : Bool)
  | ppm (channels : List UInt16) (frameLength : UInt16)
  | dsm (values : List UInt16) (elevenBit : Bool) (frameDrops : UInt32) (rssi : ℤ)
  | st24 (values : List UInt16) (lostCount : UInt8) (rssi : UInt16)
  /-- The decoder writes four channels of short frames too, but does not count them. -/
  | sumd (values : List UInt16) (count : ℕ) (failsafe : Bool)

/-- `PPM_MAX_CHANNELS`, as this module sees it. -/
def ppmMaxChannels : ℕ := 12

/-- `RC_INPUT_RSSI_MAX`. -/
def rcInputRssiMax : UInt16 := 100

/-- The channels of a frame, as far as the IO takes them. -/
def RcFrame.received : RcFrame → List UInt16
  | .sbus values _ _ => values.take rcInputChannels
  | .ppm channels _ => channels.take rcInputChannels
  | .dsm values _ _ _ => values.take rcInputChannels
  | .st24 values _ _ => values.take rcInputChannels
  | .sumd values count _ => (values.take count).take rcInputChannels

/-- The receiver reports a failsafe. -/
def RcFrame.failsafe : RcFrame → Bool
  | .sbus _ failsafe _ => failsafe
  | .sumd _ _ failsafe => failsafe
  | _ => false

/-- The receivers share ports; the flags of one input keep the decoders of others away.  A PPM frame
does not come from a port. -/
def Io.accepts (io : Io G) : RcFrame → Bool
  | .sbus _ _ _ =>
    !io.hasStatus (StatusFlag.rcDsm ||| StatusFlag.rcSt24 ||| StatusFlag.rcSumd)
  | .ppm _ _ => false
  | .dsm _ _ _ _ => !io.hasStatus (StatusFlag.rcSbus ||| StatusFlag.rcPpm)
  | .st24 _ _ _ =>
    !io.hasStatus (StatusFlag.rcSbus ||| StatusFlag.rcPpm) &&
      !io.hasStatus (StatusFlag.rcDsm ||| StatusFlag.rcSumd)
  | .sumd _ _ _ =>
    !io.hasStatus (StatusFlag.rcSbus ||| StatusFlag.rcPpm) &&
      !io.hasStatus (StatusFlag.rcDsm ||| StatusFlag.rcSt24)

/-- Values are written from the first register on. -/
def storeValues (page : RegPage) (values : List UInt16) : RegPage :=
  fun i => (values.take rcInputChannels)[i]?.getD (page i)

/-- `r_setup_features &= ~ADC_RSSI`. -/
def Io.disableAdcRssi (io : Io G) : Io G :=
  io.setSetup SetupReg.features (io.setup SetupReg.features &&& ~~~FeatureFlag.adcRssi)

/-! ## Receivers -/

def sbusInput (s : RcIo G) (values : List UInt16) (failsafe frameDrop : Bool) : RcIo G :=
  let rc :=
    { s.rc with
      values := storeValues s.rc.values values
      count := values.length }
  let rc := (rc.put RawRcFlag.frameDrop frameDrop).put RawRcFlag.failsafe failsafe
  let rssi := if frameDrop then rcInputRssiMax / 2 else rcInputRssiMax
  ⟨s.io.raise StatusFlag.rcSbus,
    if hasFlag (s.io.setup SetupReg.features) FeatureFlag.adcRssi then rc
    else { rc with rssi := rssi }⟩

/-- The PPM input is read for 200 ms after its last valid frame, and for 200 ms after the start. -/
def RcInput.ppmOpen (rc : RcInput) (now : UInt64) : Bool := now - rc.ppmLastValidDecode < 200000

/-- `ppm_input`: more channels are counted than are copied.  Where an error has reset the decoder,
or no frame was decoded yet, no channels are counted. -/
def ppmInput (s : RcIo G) (now : UInt64) : RcIo G :=
  if s.rc.ppmOpen now then
    let rc :=
      { s.rc with
        values := storeValues s.rc.values (s.rc.ppmChannels.take ppmMaxChannels)
        count := min s.rc.ppmChannels.length rcInputChannels
        data := s.rc.ppmFrameLength
        ppmLastValidDecode := 0 }
    if rc.count > 0 then
      ⟨s.io.raise StatusFlag.rcPpm, (rc.clear RawRcFlag.frameDrop).clear RawRcFlag.failsafe⟩
    else ⟨s.io, rc⟩
  else s

def dsmInput (s : RcIo G) (values : List UInt16) (elevenBit : Bool) (frameDrops : UInt32)
    (rssi : ℤ) : RcIo G :=
  let rc :=
    { s.rc with
      values := storeValues s.rc.values values
      count := values.length }
  let rc := rc.put RawRcFlag.rcDsm11 elevenBit
  let rc := rc.put RawRcFlag.frameDrop (frameDrops != rc.frameDrops)
  let rc := { rc with frameDrops := frameDrops }.clear RawRcFlag.failsafe
  if 0 ≤ rssi ∧ rssi ≤ 100 then
    ⟨s.io.disableAdcRssi.raise StatusFlag.rcDsm, { rc with rssi := UInt16.ofNat rssi.toNat }⟩
  else ⟨s.io.raise StatusFlag.rcDsm, rc⟩

/-- A frame that was not just received by radio leaves the count and the flags. -/
def st24Input (s : RcIo G) (values : List UInt16) (lostCount : UInt8) (rssi : UInt16) : RcIo G :=
  let rc := { s.rc with values := storeValues s.rc.values values }
  if lostCount = 0 then
    ⟨s.io.disableAdcRssi.raise StatusFlag.rcSt24,
      ({ rc with rssi := rssi, count := values.length }.clear RawRcFlag.frameDrop).clear
        RawRcFlag.failsafe⟩
  else ⟨s.io.raise StatusFlag.rcSt24, rc⟩

def sumdInput (s : RcIo G) (values : List UInt16) (count : ℕ) (failsafe : Bool) : RcIo G :=
  let rc :=
    { s.rc with
      values := storeValues s.rc.values values
      count := count }
  ⟨s.io.raise StatusFlag.rcSumd,
    (rc.clear RawRcFlag.frameDrop).put RawRcFlag.failsafe failsafe⟩

/-- The S.BUS port. -/
def sbusStage (s : RcIo G) : Option RcFrame → RcIo G
  | some (.sbus values failsafe frameDrop) =>
    if s.io.accepts (.sbus values failsafe frameDrop) then
      sbusInput s values failsafe frameDrop else s
  | _ => s

/-- `dsm_port_input`: the other port. -/
def dsmPortInput (s : RcIo G) : Option RcFrame → RcIo G
  | some frame =>
    if s.io.accepts frame then
      match frame with
      | .dsm values elevenBit frameDrops rssi => dsmInput s values elevenBit frameDrops rssi
      | .st24 values lostCount rssi => st24Input s values lostCount rssi
      | .sumd values count failsafe => sumdInput s values count failsafe
      | _ => s
    else s
  | none => s

/-! ## Mapping -/

/-- The floating point arithmetic of the tick. -/
structure RcMath where
  /-- `10000.0f * (a / (float)b)` as an `int16_t`. -/
  scaled : ℤ → ℤ → Int16
  /-- The low pass of the RSSI voltage. -/
  lowPass : UInt32 → UInt32 → UInt32

/-- A raw value is limited to the range of its channel. -/
def clampRaw (conf : ℕ → UInt16) (raw : UInt16) : UInt16 :=
  let raw := if raw < conf RcConfig.min then conf RcConfig.min else raw
  if raw > conf RcConfig.max then conf RcConfig.max else raw

/-- A limited value is scaled around the mid point, outside of the dead zone. -/
def scaleRaw (math : RcMath) (conf : ℕ → UInt16) (raw : UInt16) : Int16 :=
  let raw : ℤ := raw.toNat
  let center : ℤ := (conf RcConfig.center).toNat
  let deadzone : ℤ := (conf RcConfig.deadzone).toNat
  if raw > center + deadzone then
    math.scaled (raw - center - deadzone) ((conf RcConfig.max).toNat - center - deadzone)
  else if raw < center - deadzone then
    math.scaled (raw - center + deadzone) (center - deadzone - (conf RcConfig.min).toNat)
  else 0

/-- Throttle failsafe detection. -/
def throttleLost (conf : ℕ → UInt16) (threshold raw : UInt16) : Bool :=
  (raw < conf RcConfig.min && raw < threshold) || (raw > conf RcConfig.max && raw > threshold)

/-- `r_setup_rc_thr_failsafe`. -/
def Io.thrFailsafe (io : Io G) : UInt16 := io.setup SetupReg.rcThrFailsafeUs

/-- One round of the mapping loop, with the channels assigned so far. -/
def mapChannel (math : RcMath) (io : Io G) (m : RcInput × UInt32) (i : ℕ) : RcInput × UInt32 :=
  if !io.channelEnabled i then m
  else
    let conf := io.conf i
    let raw := clampRaw conf (m.1.values i)
    let scaled := scaleRaw math conf raw
    let scaled := if hasFlag (conf RcConfig.options) RcConfig.optionsReverse then -scaled else
        scaled
    let mapped := (conf RcConfig.assignment).toNat
    if mapped < controlChannels then
      let scaled := if mapped = 1 then -scaled else scaled
      let rc :=
        if mapped = 3 ∧ io.thrFailsafe ≠ 0 then
          m.1.put RawRcFlag.failsafe (throttleLost conf io.thrFailsafe raw)
        else m.1
      ({ rc with rcValues := Function.update rc.rcValues mapped scaled.toUInt16 },
        m.2 ||| 1 <<< UInt32.ofNat mapped)
    else if conf RcConfig.assignment = RcConfig.assignmentModeswitch then
      ({ m.1 with rcValueOverride := scaled.toUInt16 }, m.2)
    else m

/-- The mapping loop over the first channels. -/
def mapChannels (math : RcMath) (io : Io G) (rc : RcInput) (n : ℕ) : RcInput × UInt32 :=
  (List.range n).foldl (mapChannel math io) (rc, 0)

/-- A new frame is mapped. -/
def processFrame (math : RcMath) (s : RcIo G) (now : UInt64) : RcIo G :=
  let mapped := mapChannels math s.io
    { s.rc with timestampReceived := now, timestampValid := now } s.rc.count
  let rc :=
    { mapped.1 with
      rcValues := fun i =>
        if i < controlChannels ∧ mapped.2 &&& 1 <<< UInt32.ofNat i = 0 then 0
        else mapped.1.rcValues i
      rcValid := mapped.2.toUInt16 }
  ⟨s.io.raise StatusFlag.rcOk,
    (rc.raise RawRcFlag.rcOk).put RawRcFlag.mappingOk (mapped.2 > 4)⟩

/-! ## The tick -/

/-- What a tick of the remote control works on. -/
structure ControlsTick where
  /-- The answer of `adc_measure`, on boards with this input. -/
  adc : Option UInt32
  /-- The frame at one of the ports. -/
  frame : Option RcFrame
  /-- The time when the PPM input is read. -/
  ppmTime : UInt64
  /-- The time when a frame is processed. -/
  frameTime : UInt64
  /-- The time when the age of the last frame is checked. -/
  now : UInt64

/-- The signal strength, before a frame is read. -/
def rssiStage (math : RcMath) (s : RcIo G) (adc : Option UInt32) : RcIo G :=
  let rc :=
    match adc with
    | none => s.rc
    | some counts =>
      if hasFlag (s.io.setup SetupReg.features) FeatureFlag.adcRssi && counts != 0xffff then
        let filtered := math.lowPass s.rc.rssiAdcCounts counts
        let rssi := (filtered * 3300 / 4095 * 100 / 3300).toUInt16
        { s.rc with
          rssiAdcCounts := filtered
          rssi := if rssi > rcInputRssiMax then rcInputRssiMax else rssi }
      else s.rc
  ⟨s.io, if hasFlag rc.flags RawRcFlag.rcOk then rc else { rc with rssi := 0 }⟩

/-- The inputs, one after another. -/
def inputStage (s : RcIo G) (t : ControlsTick) : RcIo G :=
  dsmPortInput (ppmInput (sbusStage s t.frame) t.ppmTime) t.frame

/-- The count is limited, and the signal strength stored. -/
def limitStage (s : RcIo G) : RcIo G :=
  { s with rc := { s.rc with count := min s.rc.count rcInputChannels, nrssi := s.rc.rssi } }

/-- Without a frame for 200 ms the input is lost. -/
def inputLost (rc : RcInput) (now : UInt64) : Bool := now - rc.timestampReceived > 200000

/-- The loss of the input, and a failsafe. -/
def lossStage (s : RcIo G) (now : UInt64) : RcIo G :=
  let lost := inputLost s.rc now
  let io :=
    if lost then
      s.io.clear (StatusFlag.rcPpm ||| StatusFlag.rcDsm ||| StatusFlag.rcSbus |||
        StatusFlag.rcSt24 ||| StatusFlag.rcSumd)
    else s.io
  let io := if s.rc.failsafe then io.clear StatusFlag.override else io
  if lost then
    let io := io.clear (StatusFlag.override ||| StatusFlag.rcOk)
    ⟨{ io with statusAlarms := io.statusAlarms ||| alarmRcLost },
      { s.rc.clear RawRcFlag.rcOk with rcValid := 0, count := 0 }⟩
  else ⟨io, s.rc⟩

/-- Manual override is possible. -/
def overridePossible (s : RcIo G) : Bool :=
  s.io.hasArming ArmingFlag.manualOverrideOk && s.io.hasStatus StatusFlag.rcOk &&
    !s.rc.failsafe && !s.io.hasArming ArmingFlag.rcHandlingDisabled &&
    s.io.hasStatus StatusFlag.mixerOk

/-- `RC_CHANNEL_LOW_THRESH`. -/
def rcChannelLowThresh : Int16 := -8000

/-- Manual override is wanted: by its channel, or because the FMU is dead. -/
def overrideWanted (s : RcIo G) : Bool :=
  (s.io.hasStatus StatusFlag.rcOk && s.rc.rcValueOverride.toInt16 < rcChannelLowThresh) ||
    (!s.io.hasStatus StatusFlag.fmuOk && s.io.hasArming ArmingFlag.overrideImmediate &&
      !s.io.hasArming ArmingFlag.terminationFailsafe)

def overrideStage (s : RcIo G) : RcIo G :=
  if overridePossible s && overrideWanted s then
    { s with io := s.io.raise StatusFlag.override }
  else { s with io := s.io.clear StatusFlag.override }

/-- The input as it is processed. -/
def sensedInput (math : RcMath) (s : RcIo G) (t : ControlsTick) : RcIo G :=
  limitStage (inputStage (rssiStage math s t.adc) t)

/-- The PPM frame of a tick. -/
def RcInput.ppmFrame (rc : RcInput) (now : UInt64) : Option RcFrame :=
  if rc.ppmOpen now && rc.ppmChannels.length > 0 then some (.ppm rc.ppmChannels rc.ppmFrameLength)
  else none

/-- The frame that a tick processes. -/
def RcIo.processed (s : RcIo G) (t : ControlsTick) : Option RcFrame :=
  (s.rc.ppmFrame t.ppmTime).or (t.frame.filter s.io.accepts)

/-- `controls_tick`. -/
def controlsTick (math : RcMath) (s : RcIo G) (t : ControlsTick) : RcIo G :=
  let sensed := sensedInput math s t
  let mapped := if (s.processed t).isSome then processFrame math sensed t.frameTime else sensed
  overrideStage (lossStage mapped t.now)

/-! ## The failsafe flag -/

/-- An enabled channel that is assigned to throttle. -/
def Io.mapsThrottle (io : Io G) (i : ℕ) : Bool :=
  io.channelEnabled i && io.conf i RcConfig.assignment == 3

/-- What has to raise the flag: the receiver reports a failsafe, or the value received on a throttle
channel is out of its range and beyond the threshold. -/
def Demanded (io : Io G) (frame : RcFrame) : Prop :=
  frame.failsafe = true ∨
    (io.thrFailsafe ≠ 0 ∧ ∃ i raw, frame.received[i]? = some raw ∧ io.mapsThrottle i = true ∧
      throttleLost (io.conf i) io.thrFailsafe raw = true)

/-- The last throttle channel before `n`. -/
def lastThrottle (io : Io G) : ℕ → Option ℕ
  | 0 => none
  | n + 1 => if io.mapsThrottle n then some n else lastThrottle io n

/-- The channels that are received: a frame that was not just received by radio leaves their
number. -/
def RcIo.receivedCount (s : RcIo G) : RcFrame → ℕ
  | .sbus values _ _ => min values.length rcInputChannels
  | .ppm channels _ => min channels.length rcInputChannels
  | .dsm values _ _ _ => min values.length rcInputChannels
  | .st24 values lostCount _ =>
    min (if lostCount = 0 then values.length else s.rc.count) rcInputChannels
  | .sumd _ count _ => min count rcInputChannels

/-- The number of channels comes from a decoder that is asked before the PPM input. -/
def RcFrame.countedBeforePpm : RcFrame → Bool
  | .sbus _ _ _ => true
  | .st24 _ lostCount _ => lostCount != 0
  | _ => false

/-- The channels that are mapped: the PPM input resets their number, even if it has no channels. -/
def RcIo.mappedCount (s : RcIo G) (ppmTime : UInt64) (frame : RcFrame) : ℕ :=
  if s.rc.ppmOpen ppmTime ∧ frame.countedBeforePpm = true then 0 else s.receivedCount frame

/-- The flag as the receiver reports it. -/
def RcIo.reported (s : RcIo G) : RcFrame → Bool
  | .st24 _ lostCount _ => lostCount != 0 && s.rc.failsafe
  | frame => frame.failsafe

/-- The throttle range is the wrong way round, and ends below the threshold. -/
def Io.reversedThrottle (io : Io G) (i : ℕ) : Bool :=
  io.conf i RcConfig.max < io.conf i RcConfig.min && io.conf i RcConfig.max < io.thrFailsafe

/-- What decides about the flag: the last throttle channel, if there is a threshold, or else the
receiver. -/
def RcIo.shown (s : RcIo G) (ppmTime : UInt64) (frame : RcFrame) : Bool :=
  match lastThrottle s.io (s.mappedCount ppmTime frame) with
  | none => s.reported frame
  | some i => if s.io.thrFailsafe = 0 then s.reported frame else s.io.reversedThrottle i

variable {math : RcMath} {s : RcIo G} {rc : RcInput} {io : Io G} {m : UInt16} {b : Bool}
  {frame : RcFrame} {t : ControlsTick}

@[simp] theorem put_failsafe : (rc.put RawRcFlag.failsafe b).failsafe = b :=
  rc.hasFlag_put _ b (by decide)

theorem raise_failsafe (h : hasFlag m RawRcFlag.failsafe = false) :
    (rc.raise m).failsafe = rc.failsafe := by
  refine (hasFlag_or ..).trans ?_
  rw [h, Bool.or_false]
  rfl

theorem clear_failsafe (h : m &&& RawRcFlag.failsafe = 0) :
    (rc.clear m).failsafe = rc.failsafe := hasFlag_and_not _ h

theorem put_failsafe_of_ne (h : m &&& RawRcFlag.failsafe = 0) :
    (rc.put m b).failsafe = rc.failsafe := by
  cases b with
  | false => exact clear_failsafe h
  | true => exact raise_failsafe (by rw [hasFlag, h]; rfl)

theorem clampRaw_cases (conf : ℕ → UInt16) (raw : UInt16) :
    (conf RcConfig.max < conf RcConfig.min ∧ clampRaw conf raw = conf RcConfig.max) ∨
      (¬conf RcConfig.max < conf RcConfig.min ∧ ¬clampRaw conf raw < conf RcConfig.min ∧
        ¬conf RcConfig.max < clampRaw conf raw) := by
  simp only [clampRaw, gt_iff_lt, UInt16.lt_iff_toNat_lt]
  by_cases hraw : raw.toNat < (conf RcConfig.min).toNat
  · simp only [if_pos hraw]
    by_cases hrange : (conf RcConfig.max).toNat < (conf RcConfig.min).toNat
    · exact .inl ⟨hrange, if_pos hrange⟩
    · rw [if_neg hrange]
      exact .inr ⟨hrange, lt_irrefl _, hrange⟩
  · simp only [if_neg hraw]
    by_cases hmax : (conf RcConfig.max).toNat < raw.toNat
    · rw [if_pos hmax]
      by_cases hrange : (conf RcConfig.max).toNat < (conf RcConfig.min).toNat
      · exact .inl ⟨hrange, rfl⟩
      · exact .inr ⟨hrange, hrange, lt_irrefl _⟩
    · rw [if_neg hmax]
      exact .inr ⟨by omega, hraw, hmax⟩

theorem throttleLost_clampRaw (conf : ℕ → UInt16) (threshold raw : UInt16) :
    throttleLost conf threshold (clampRaw conf raw) =
      (conf RcConfig.max < conf RcConfig.min && conf RcConfig.max < threshold : Bool) := by
  unfold throttleLost
  rcases clampRaw_cases conf raw with ⟨hrange, heq⟩ | ⟨hrange, hlow, hhigh⟩
  · simp [heq, hrange]
  · simp [hrange, hlow, hhigh]

/-! ## What the mapping makes of the flag -/

theorem mapChannel_failsafe (m : RcInput × UInt32) (i : ℕ) :
    (mapChannel math io m i).1.failsafe =
      if io.mapsThrottle i ∧ io.thrFailsafe ≠ 0 then io.reversedThrottle i else m.1.failsafe := by
  unfold mapChannel Io.mapsThrottle
  cases henabled : io.channelEnabled i with
  | false => simp
  | true =>
    have hthrottle : (io.conf i RcConfig.assignment).toNat = 3 ↔
        io.conf i RcConfig.assignment = 3 := by
      rw [← UInt16.toNat_inj]
      rfl
    simp only [Bool.not_true, Bool.false_eq_true, if_false, Bool.true_and, beq_iff_eq]
    by_cases hmapped : (io.conf i RcConfig.assignment).toNat < controlChannels
    · rw [if_pos hmapped]
      simp only [hthrottle]
      by_cases hthr : io.conf i RcConfig.assignment = 3 ∧ io.thrFailsafe ≠ 0
      · rw [if_pos hthr, if_pos hthr]
        refine put_failsafe.trans ?_
        rw [throttleLost_clampRaw]
        rfl
      · rw [if_neg hthr, if_neg hthr]
        rfl
    · have hne : io.conf i RcConfig.assignment ≠ 3 := fun h => hmapped (by rw [h]; decide)
      rw [if_neg hmapped, if_neg (fun h => hne h.1 :
        ¬(io.conf i RcConfig.assignment = 3 ∧ io.thrFailsafe ≠ 0))]
      split <;> rfl

theorem mapChannels_succ (n : ℕ) : mapChannels math io rc (n + 1) =
    mapChannel math io (mapChannels math io rc n) n := by
  unfold mapChannels
  rw [List.range_succ, List.foldl_append, List.foldl_cons, List.foldl_nil]

theorem mapChannels_failsafe (n : ℕ) :
    (mapChannels math io rc n).1.failsafe =
      match lastThrottle io n with
      | none => rc.failsafe
      | some i => if io.thrFailsafe = 0 then rc.failsafe else io.reversedThrottle i := by
  induction n with
  | zero => rfl
  | succ n ih =>
    rw [mapChannels_succ, mapChannel_failsafe, ih, lastThrottle]
    by_cases hthr : io.thrFailsafe = 0
    · cases hlast : lastThrottle io n <;> cases hn : io.mapsThrottle n <;> simp [hthr]
    · cases hn : io.mapsThrottle n <;> simp [hthr]

/-! ## What the input makes of the flag -/

/-- The registers that the mapping reads. -/
def SameConfig (io io' : Io G) : Prop :=
  io'.rcInputConfig = io.rcInputConfig ∧ io'.thrFailsafe = io.thrFailsafe

theorem SameConfig.trans {io io' io'' : Io G} (h : SameConfig io io') (h' : SameConfig io' io'') :
    SameConfig io io'' := ⟨h'.1.trans h.1, h'.2.trans h.2⟩

theorem SameConfig.mapsThrottle {io io' : Io G} (h : SameConfig io io') (i : ℕ) :
    io'.mapsThrottle i = io.mapsThrottle i := by
  unfold Io.mapsThrottle Io.channelEnabled Io.conf
  rw [h.1]

theorem SameConfig.lastThrottle {io io' : Io G} (h : SameConfig io io') (n : ℕ) :
    Px4io.lastThrottle io' n = Px4io.lastThrottle io n := by
  induction n with
  | zero => rfl
  | succ n ih => rw [Px4io.lastThrottle, Px4io.lastThrottle, h.mapsThrottle, ih]

theorem SameConfig.reversedThrottle {io io' : Io G} (h : SameConfig io io') (i : ℕ) :
    io'.reversedThrottle i = io.reversedThrottle i := by
  unfold Io.reversedThrottle Io.conf
  rw [h.1, h.2]

theorem disableAdcRssi_sameConfig : SameConfig io io.disableAdcRssi := by
  refine ⟨rfl, ?_⟩
  have hne : SetupReg.rcThrFailsafeUs ≠ SetupReg.features := by decide
  unfold Io.thrFailsafe Io.disableAdcRssi Io.setSetup
  dsimp only
  exact Function.update_of_ne hne _ _

/-- What the inputs leave for the mapping: `n` channels, and the flag. -/
structure Sensed (s u : RcIo G) (n : ℕ) (failsafe : Bool) : Prop where
  config : SameConfig s.io u.io
  count : min u.rc.count rcInputChannels = n
  failsafe : u.rc.failsafe = failsafe

theorem sbusInput_sensed (s : RcIo G) (values : List UInt16) (failsafe frameDrop : Bool) :
    Sensed s (sbusInput s values failsafe frameDrop) (min values.length rcInputChannels)
      failsafe := by
  unfold sbusInput
  dsimp only
  refine ⟨⟨rfl, rfl⟩, ?_, ?_⟩
  · split <;> cases failsafe <;> cases frameDrop <;> rfl
  · split <;> exact put_failsafe

theorem ppmInput_of_no_frame {now : UInt64} (h : s.rc.ppmFrame now = none) :
    (ppmInput s now).io = s.io ∧ (ppmInput s now).rc.flags = s.rc.flags ∧
      (ppmInput s now).rc.count = if s.rc.ppmOpen now then 0 else s.rc.count := by
  unfold RcInput.ppmFrame at h
  unfold ppmInput
  cases hopen : s.rc.ppmOpen now with
  | false => exact ⟨rfl, rfl, rfl⟩
  | true =>
    have hempty : s.rc.ppmChannels = [] := by simpa [hopen] using h
    simp [hempty]

theorem ppmInput_sensed {now : UInt64} (h : s.rc.ppmFrame now = some frame) :
    ∃ channels frameLength, frame = .ppm channels frameLength ∧
      Sensed s (ppmInput s now) (min channels.length rcInputChannels) false ∧
      (ppmInput s now).io.hasStatus StatusFlag.rcPpm = true := by
  unfold RcInput.ppmFrame at h
  split at h
  · rename_i hsome
    rw [Bool.and_eq_true, decide_eq_true_iff] at hsome
    obtain ⟨hopen, hlen⟩ := hsome
    have hcount : min s.rc.ppmChannels.length rcInputChannels > 0 := lt_min hlen (by decide)
    refine ⟨_, _, (Option.some.inj h).symm, ?_⟩
    unfold ppmInput
    dsimp only
    rw [if_pos hopen, if_pos hcount]
    refine ⟨⟨⟨rfl, rfl⟩, ?_, put_failsafe (b := false)⟩, hasFlag_or_self _ (by decide)⟩
    simp [RcInput.clear, RcInput.setFlags]
  · cases h

theorem dsmInput_sensed (s : RcIo G) (values : List UInt16) (elevenBit : Bool)
    (frameDrops : UInt32) (rssi : ℤ) :
    Sensed s (dsmInput s values elevenBit frameDrops rssi) (min values.length rcInputChannels)
      false := by
  unfold dsmInput
  dsimp only
  split
  · refine ⟨disableAdcRssi_sameConfig, ?_, put_failsafe (b := false)⟩
    unfold RcInput.put
    split <;> split <;> rfl
  · refine ⟨⟨rfl, rfl⟩, ?_, put_failsafe (b := false)⟩
    unfold RcInput.put
    split <;> split <;> rfl

theorem st24Input_sensed (s : RcIo G) (values : List UInt16) (lostCount : UInt8) (rssi : UInt16) :
    Sensed s (st24Input s values lostCount rssi)
      (min (if lostCount = 0 then values.length else s.rc.count) rcInputChannels)
      (lostCount != 0 && s.rc.failsafe) := by
  unfold st24Input
  dsimp only
  by_cases hlost : lostCount = 0
  · rw [if_pos hlost, if_pos hlost]
    refine ⟨disableAdcRssi_sameConfig, rfl, (put_failsafe (b := false)).trans ?_⟩
    simp [hlost]
  · have hne : (lostCount != 0) = true := by simp [hlost]
    rw [if_neg hlost, if_neg hlost, hne, Bool.true_and]
    exact ⟨⟨rfl, rfl⟩, rfl, rfl⟩

theorem sumdInput_sensed (s : RcIo G) (values : List UInt16) (count : ℕ) (failsafe : Bool) :
    Sensed s (sumdInput s values count failsafe) (min count rcInputChannels) failsafe := by
  unfold sumdInput
  dsimp only
  refine ⟨⟨rfl, rfl⟩, ?_, put_failsafe⟩
  cases failsafe <;> rfl

theorem sbusStage_keeps (s : RcIo G) (frame : Option RcFrame) :
    SameConfig s.io (sbusStage s frame).io ∧
      (sbusStage s frame).rc.ppmOpen = s.rc.ppmOpen ∧
      (sbusStage s frame).rc.ppmFrame = s.rc.ppmFrame := by
  unfold sbusStage
  split
  · split
    · rename_i failsafe frameDrop _
      unfold sbusInput
      dsimp only
      refine ⟨⟨rfl, rfl⟩, ?_⟩
      split <;> cases failsafe <;> cases frameDrop <;> exact ⟨rfl, rfl⟩
    · exact ⟨⟨rfl, rfl⟩, rfl, rfl⟩
  · exact ⟨⟨rfl, rfl⟩, rfl, rfl⟩

theorem dsmPortInput_of_ppm (h : s.io.hasStatus StatusFlag.rcPpm = true) (frame : Option RcFrame) :
    dsmPortInput s frame = s := by
  have hshared : s.io.hasStatus (StatusFlag.rcSbus ||| StatusFlag.rcPpm) = true :=
    hasFlag_or_right _ h
  unfold dsmPortInput Io.accepts
  cases frame with
  | none => rfl
  | some frame => cases frame <;> simp [hshared]

theorem inputStage_port (hppm : s.rc.ppmFrame t.ppmTime = none) (hframe : t.frame = some frame)
    (h : s.io.accepts frame = true) :
    Sensed s (inputStage s t) (s.mappedCount t.ppmTime frame) (s.reported frame) := by
  obtain ⟨hio, hflags, hcount⟩ := ppmInput_of_no_frame hppm
  have hconfig : SameConfig s.io (ppmInput s t.ppmTime).io := by
    rw [hio]
    exact ⟨rfl, rfl⟩
  have haccepts : (ppmInput s t.ppmTime).io.accepts frame = true := by rwa [hio]
  unfold inputStage RcIo.mappedCount
  rw [hframe]
  cases frame with
  | sbus values failsafe frameDrop =>
    have hsbus : sbusStage s (some (.sbus values failsafe frameDrop)) =
        sbusInput s values failsafe frameDrop := if_pos h
    obtain ⟨-, hopen, hsame⟩ := sbusStage_keeps s (some (.sbus values failsafe frameDrop))
    rw [hsbus] at hopen hsame ⊢
    obtain ⟨hio', hflags', hcount'⟩ :=
      ppmInput_of_no_frame (s := sbusInput s values failsafe frameDrop) (hsame ▸ hppm)
    have hsensed := sbusInput_sensed s values failsafe frameDrop
    have hport : ∀ u : RcIo G, dsmPortInput u (some (.sbus values failsafe frameDrop)) = u := by
      intro u
      exact ite_self u
    rw [hport]
    refine ⟨hio' ▸ hsensed.config, ?_, ?_⟩
    · rw [hcount', hopen]
      cases s.rc.ppmOpen t.ppmTime with
      | false => exact hsensed.count
      | true => rfl
    · rw [RcInput.failsafe, hflags']
      exact hsensed.failsafe
  | ppm channels frameLength => cases h
  | dsm values elevenBit frameDrops rssi =>
    have hsensed := dsmInput_sensed (ppmInput s t.ppmTime) values elevenBit frameDrops rssi
    have hport :
        dsmPortInput (ppmInput s t.ppmTime) (some (.dsm values elevenBit frameDrops rssi)) =
        dsmInput (ppmInput s t.ppmTime) values elevenBit frameDrops rssi := if_pos haccepts
    refine hport ▸ ⟨hconfig.trans hsensed.config, hsensed.count.trans ?_, hsensed.failsafe⟩
    exact (if_neg fun hcase => Bool.false_ne_true hcase.2).symm
  | st24 values lostCount rssi =>
    have hsensed := st24Input_sensed (ppmInput s t.ppmTime) values lostCount rssi
    have hport : dsmPortInput (ppmInput s t.ppmTime) (some (.st24 values lostCount rssi)) =
        st24Input (ppmInput s t.ppmTime) values lostCount rssi := if_pos haccepts
    refine hport ▸ ⟨hconfig.trans hsensed.config, hsensed.count.trans ?_, hsensed.failsafe.trans ?_⟩
    · rw [hcount]
      by_cases hlost : lostCount = 0
      · simp [hlost, RcFrame.countedBeforePpm, RcIo.receivedCount]
      · cases s.rc.ppmOpen t.ppmTime <;>
          simp [hlost, RcFrame.countedBeforePpm, RcIo.receivedCount]
    · rw [RcIo.reported, RcInput.failsafe, hflags]
      rfl
  | sumd values count failsafe =>
    have hsensed := sumdInput_sensed (ppmInput s t.ppmTime) values count failsafe
    have hport : dsmPortInput (ppmInput s t.ppmTime) (some (.sumd values count failsafe)) =
        sumdInput (ppmInput s t.ppmTime) values count failsafe := if_pos haccepts
    refine hport ▸ ⟨hconfig.trans hsensed.config, hsensed.count.trans ?_, hsensed.failsafe⟩
    exact (if_neg fun hcase => Bool.false_ne_true hcase.2).symm

theorem processed_port (hppm : s.rc.ppmChannels = []) (hframe : t.frame = some frame)
    (h : s.io.accepts frame = true) : s.processed t = some frame := by
  have hnone : s.rc.ppmFrame t.ppmTime = none := by simp [RcInput.ppmFrame, hppm]
  rw [RcIo.processed, hnone, Option.none_or, hframe]
  exact if_pos h

theorem inputStage_sensed (h : s.processed t = some frame) :
    Sensed s (inputStage s t) (s.mappedCount t.ppmTime frame) (s.reported frame) := by
  unfold RcIo.processed at h
  cases hppm : s.rc.ppmFrame t.ppmTime with
  | some ppm =>
    obtain rfl : ppm = frame := by simpa [hppm] using h
    obtain ⟨hconfig, -, hsame⟩ := sbusStage_keeps s t.frame
    obtain ⟨channels, frameLength, rfl, hsensed, hstatus⟩ :=
      ppmInput_sensed (s := sbusStage s t.frame) (hsame ▸ hppm)
    unfold inputStage
    rw [dsmPortInput_of_ppm hstatus]
    refine ⟨hconfig.trans hsensed.config, hsensed.count.trans ?_, hsensed.failsafe⟩
    exact (if_neg fun hcase => Bool.false_ne_true hcase.2).symm
  | none =>
    rw [hppm, Option.none_or, Option.filter_eq_some_iff] at h
    exact inputStage_port hppm h.1 h.2

theorem rssiStage_eq (math : RcMath) (s : RcIo G) (adc : Option UInt32) : ∃ counts rssi,
    rssiStage math s adc = ⟨s.io, { s.rc with rssiAdcCounts := counts, rssi := rssi }⟩ := by
  unfold rssiStage
  dsimp only
  repeat' split
  all_goals exact ⟨_, _, rfl⟩

theorem sensedInput_sensed (h : s.processed t = some frame) :
    Sensed s (sensedInput math s t) (s.mappedCount t.ppmTime frame) (s.reported frame) := by
  obtain ⟨counts, rssi, hrssi⟩ := rssiStage_eq math s t.adc
  have hinput := inputStage_sensed
    (s := ⟨s.io, { s.rc with rssiAdcCounts := counts, rssi := rssi }⟩) (t := t) h
  have hmapped : RcIo.mappedCount ⟨s.io, { s.rc with rssiAdcCounts := counts, rssi := rssi }⟩
      t.ppmTime frame = s.mappedCount t.ppmTime frame := by
    cases frame <;> rfl
  have hreported : RcIo.reported ⟨s.io, { s.rc with rssiAdcCounts := counts, rssi := rssi }⟩ frame =
      s.reported frame := by
    cases frame <;> rfl
  unfold sensedInput limitStage
  rw [hrssi]
  refine ⟨hinput.config, ?_, hinput.failsafe.trans hreported⟩
  rw [min_assoc, min_self]
  exact hinput.count.trans hmapped

/-! ## One tick -/

@[simp] theorem overrideStage_rc (s : RcIo G) : (overrideStage s).rc = s.rc := by
  unfold overrideStage
  split <;> rfl

/-- A tick with the failsafe flag, or long after the last frame, ends without override. -/
theorem controlsTick_override :
    (controlsTick math s t).rc.failsafe = true ∨
        inputLost (controlsTick math s t).rc t.now = true →
      (controlsTick math s t).io.hasStatus StatusFlag.override = false := by
  unfold controlsTick
  dsimp only
  generalize (if (s.processed t).isSome then
    processFrame math (sensedInput math s t) t.frameTime else sensedInput math s t) = mapped
  intro hcase
  rw [overrideStage_rc] at hcase
  have hpossible : overridePossible (lossStage mapped t.now) = false := by
    rcases hcase with hfailsafe | hlost
    · simp [overridePossible, hfailsafe]
    · have hlost' : inputLost mapped.rc t.now = true := by
        refine Eq.trans ?_ hlost
        unfold lossStage
        dsimp only
        split <;> rfl
      have hrcOk : (lossStage mapped t.now).io.hasStatus StatusFlag.rcOk = false := by
        unfold lossStage
        simp only [hlost', if_true]
        exact hasFlag_and_not_of_and _ (by decide)
      simp [overridePossible, hrcOk]
  unfold overrideStage
  rw [hpossible, Bool.false_and, if_neg Bool.false_ne_true]
  exact hasFlag_and_not_self ..

theorem controlsTick_failsafe (h : s.processed t = some frame) :
    (controlsTick math s t).rc.failsafe = s.shown t.ppmTime frame := by
  have hsensed : Sensed s (sensedInput math s t) (s.mappedCount t.ppmTime frame)
      (s.reported frame) := sensedInput_sensed h
  have hcount : (sensedInput math s t).rc.count = s.mappedCount t.ppmTime frame := by
    rw [← hsensed.count]
    exact (Nat.min_eq_left (Nat.min_le_right ..)).symm
  have hloss : ∀ u : RcIo G, (lossStage u t.now).rc.failsafe = u.rc.failsafe := by
    intro u
    unfold lossStage
    dsimp only
    split
    · exact clear_failsafe (by decide)
    · rfl
  have hprocess : ∀ u : RcIo G, (processFrame math u t.frameTime).rc.failsafe =
      (mapChannels math u.io
        { u.rc with timestampReceived := t.frameTime, timestampValid := t.frameTime }
        u.rc.count).1.failsafe :=
    fun u => (put_failsafe_of_ne (by decide)).trans (raise_failsafe (by decide))
  have hthr : (sensedInput math s t).io.thrFailsafe = s.io.thrFailsafe := hsensed.config.2
  unfold controlsTick RcIo.shown
  rw [overrideStage_rc, hloss, h, Option.isSome_some, if_pos rfl, hprocess, mapChannels_failsafe,
    hcount, hthr, hsensed.config.lastThrottle, ← hsensed.failsafe]
  cases lastThrottle s.io (s.mappedCount t.ppmTime frame) with
  | none => rfl
  | some i =>
    dsimp only
    rw [hsensed.config.reversedThrottle]
    rfl

/-! ## All runs -/

/-- What happens to the registers and to the PPM input between the ticks of the remote control, and
these ticks. -/
inductive RcEvent
  | registersSet (board : Board) (page offset : UInt8) (values : List UInt16)
  | statusFlags (v : UInt16)
  | mixerTick (now : UInt64)
  /-- The PPM input has decoded a frame. -/
  | ppmDecode (now : UInt64) (channels : List UInt16) (frameLength : UInt16)
  /-- An edge was missed or out of bounds: `ppm_decoded_channels = 0`. -/
  | ppmError
  | controlsTick (t : ControlsTick)

def rcStep (ops : MixerMath G) (math : RcMath) (s : RcIo G) : RcEvent → RcIo G
  | .registersSet board page offset values =>
    { s with io := (registersSet s.io board page offset values).1 }
  | .statusFlags v => { s with io := s.io.setStatusFlags v }
  | .mixerTick now => { s with io := (mixerTick ops s.io now).1 }
  | .ppmDecode now channels frameLength =>
    { s with
      rc :=
        { s.rc with
          ppmLastValidDecode := now
          ppmChannels := channels
          ppmFrameLength := frameLength } }
  | .ppmError => { s with rc := { s.rc with ppmChannels := [] } }
  | .controlsTick t => Px4io.controlsTick math s t

/-- A tick raises the failsafe flag where it has to, and ends without override where the flag is set
or the last frame is too old. -/
def FailsafeHonoured (math : RcMath) (s : RcIo G) : RcEvent → Prop
  | .controlsTick t =>
    (∀ frame, s.processed t = some frame → Demanded s.io frame →
        (Px4io.controlsTick math s t).rc.failsafe = true) ∧
      ((Px4io.controlsTick math s t).rc.failsafe = true ∨
          inputLost (Px4io.controlsTick math s t).rc t.now = true →
        (Px4io.controlsTick math s t).io.hasStatus StatusFlag.override = false)
  | _ => True

/-- Where the flag has to be raised, the mapping does not take it back. -/
def FailsafeKept (s : RcIo G) : RcEvent → Prop
  | .controlsTick t =>
    ∀ frame, s.processed t = some frame → Demanded s.io frame → s.shown t.ppmTime frame = true
  | _ => True

theorem failsafeHonoured_iff (s : RcIo G) (e : RcEvent) :
    FailsafeHonoured math s e ↔ FailsafeKept s e := by
  cases e with
  | controlsTick t =>
    refine ⟨fun h frame hframe hdemanded => ?_, fun h => ⟨?_, controlsTick_override⟩⟩
    · exact (controlsTick_failsafe hframe).symm.trans (h.1 frame hframe hdemanded)
    · intro frame hframe hdemanded
      exact (controlsTick_failsafe hframe).trans (h frame hframe hdemanded)
  | _ => exact Iff.rfl

/-- The RC input at startup, after `controls_init`. -/
def RcInput.initial : RcInput where
  count := 0
  flags := 0
  nrssi := 0
  data := 0
  values := fun _ => 0
  rcValid := 0
  rcValues := fun _ => 0
  timestampReceived := 0
  timestampValid := 0
  rcValueOverride := 0
  rssi := 0
  frameDrops := 0
  rssiAdcCounts := 0
  ppmLastValidDecode := 0
  ppmChannels := []
  ppmFrameLength := 0

/-- All ticks of a run honour the failsafe exactly if none takes a flag back that has to be
raised. -/
theorem failsafe_honoured (ops : MixerMath G) (math : RcMath) (s : RcIo G) (es : List RcEvent) :
    AllSteps (rcStep ops math) (FailsafeHonoured math) s es ↔
      AllSteps (rcStep ops math) FailsafeKept s es :=
  allSteps_congr failsafeHonoured_iff s es

/-- A threshold is set, and an S.BUS receiver reports a failsafe with its sticks in the middle, long
after the start. -/
theorem reported_failsafe_cleared : ¬∀ (ops : MixerMath Unit) (math : RcMath) (es : List RcEvent),
    AllSteps (rcStep ops math) (FailsafeHonoured math)
      ⟨Io.initial ops.toMixerLoader, RcInput.initial⟩ es := by
  intro hall
  let ops : MixerMath Unit :=
    { reset := ()
      loadFromBuf := fun g _ => (g, 0)
      setTrims := fun g _ => g
      setAirmode := fun g _ => g
      mix := fun s _ _ _ => ⟨(), s.servos, false⟩
      mixZero := fun s => ((), s.servos) }
  let math : RcMath := ⟨fun _ _ => 0, fun a _ => a⟩
  let frame : RcFrame := .sbus (List.replicate 16 1500) true false
  let setThreshold : RcEvent := .registersSet idleBoard 50 13 [900]
  let tick : ControlsTick := ⟨none, some frame, 1000000, 1000010, 1000100⟩
  let s := rcStep ops math ⟨Io.initial ops.toMixerLoader, RcInput.initial⟩ setThreshold
  have hprocessed : s.processed tick = some frame := processed_port rfl rfl (by decide)
  have hrun := hall ops math [setThreshold, .controlsTick tick]
  have hset := hrun.2.1.1 frame hprocessed (.inl rfl)
  rw [controlsTick_failsafe hprocessed] at hset
  revert hset
  decide

end Px4io
end DtPhm
