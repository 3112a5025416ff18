import DtPhm.Px4io.MixerText

/-!
# Registers — the registers of the IO, and how the FMU writes them

* `Io` — the registers and variables of the IO;
* `copyPage` — the loop with which a page of outputs is written;
* `registersSetOne` — a single register, for the pages with a meaning of their own;
* `registersSet` — a message of the FMU.

What the board does (pins, timers, S.BUS, reboots) is not modelled; where a result of it is used it
is an answer of `Board`.
-/

namespace DtPhm
namespace Px4io

open Lib

/-! ## State -/

/-- `mixer_source`. -/
inductive MixerSource
  | none
  | disarmed
  | fmu
  | override
  | failsafe
  | overrideFmuOk
deriving DecidableEq, Repr

/-- The registers and variables of the IO. -/
structure Io (G : Type) where
  statusFlags : UInt16
  statusAlarms : UInt16
  setup : RegPage
  controls : RegPage
  directPwm : RegPage
  servos : RegPage
  servoFailsafe : RegPage
  servoControlMin : RegPage
  servoControlMax : RegPage
  servoControlTrim : RegPage
  servoDisarmed : RegPage
  rcInputConfig : RegPage
  fmuDataReceivedTime : UInt64
  updateTrims : Bool
  updateMcThrustParam : Bool
  mixFailsafe : Bool
  mixerServosArmed : Bool
  newFmuData : Bool
  lastFmuUpdate : UInt64
  source : MixerSource
  mixer : MixerText G

/-- What the board and its clock answer during a call. -/
structure Board where
  now : UInt64
  /-- `up_pwm_servo_get_rate_group`. -/
  rateGroup : ℕ → UInt32
  /-- `up_pwm_servo_set_rate_group_update` succeeds. -/
  setRateOk : ℕ → Bool
  /-- `adc_measure` of a channel. -/
  adc : ℕ → UInt16

/-- A board at time zero. -/
def idleBoard : Board := ⟨0, fun _ => 0, fun _ => true, fun _ => 0⟩

variable {G : Type}

/-- `r_setup_arming`. -/
def Io.setupArming (s : Io G) : UInt16 := s.setup SetupReg.arming

def Io.setSetup (s : Io G) (i : ℕ) (v : UInt16) : Io G :=
  { s with setup := Function.update s.setup i v }

def Io.setStatusFlags (s : Io G) (v : UInt16) : Io G := { s with statusFlags := v }

/-- `atomic_modify_or` on `r_status_flags`. -/
def Io.raise (s : Io G) (m : UInt16) : Io G := s.setStatusFlags (s.statusFlags ||| m)

/-- `atomic_modify_clear` on `r_status_flags`. -/
def Io.clear (s : Io G) (m : UInt16) : Io G := s.setStatusFlags (s.statusFlags &&& ~~~m)

def Io.hasStatus (s : Io G) (m : UInt16) : Bool := hasFlag s.statusFlags m

def Io.hasArming (s : Io G) (m : UInt16) : Bool := hasFlag s.setupArming m

/-! ## Bulk pages -/

/-- Copy values into the first `n` registers of a page, from an offset on; `f` makes the new value
of the old one and the one that is written. -/
def copyPage (n : ℕ) (f : UInt16 → UInt16 → UInt16) (page : RegPage) : ℕ → List UInt16 → RegPage
  | _, [] => page
  | offset, v :: vs =>
    if offset < n then
      copyPage n f (Function.update page offset (f (page offset) v)) (offset + 1) vs
    else page

/-- The values that are copied. -/
def copied (n offset : ℕ) (values : List UInt16) : List UInt16 := values.take (n - offset)

/-- A pulse is limited, and zero is not written. -/
def limitPulse (low high old v : UInt16) : UInt16 :=
  if v = 0 then old else if v < low then low else if v > high then high else v

/-- A disarmed pulse is limited, and zero switches it off. -/
def limitDisarmed (_ v : UInt16) : UInt16 :=
  if v = 0 then 0
  else if v < pwmLowestMin then pwmLowestMin
  else if v > pwmHighestMax then pwmHighestMax
  else v

/-- `PX4IO_PAGE_CONTROLS`. -/
def setControls (s : Io G) (board : Board) (offset : ℕ) (values : List UInt16) : Io G :=
  { s.clear StatusFlag.rawPwm with
    controls := copyPage (controlGroups * controlChannels) (fun _ v => v) s.controls offset values
    fmuDataReceivedTime := board.now }

/-- `PX4IO_PAGE_DIRECT_PWM`. -/
def setDirectPwm (s : Io G) (board : Board) (offset : ℕ) (values : List UInt16) : Io G :=
  { s.raise StatusFlag.rawPwm with
    directPwm :=
      copyPage controlChannels (fun old v => if v ≠ pwmIgnoreThisChannel then v else old)
        s.directPwm offset values
    fmuDataReceivedTime := board.now }

/-- `PX4IO_PAGE_FAILSAFE_PWM`. -/
def setFailsafePwm (s : Io G) (offset : ℕ) (values : List UInt16) : Io G :=
  let s' :=
    { s with
      servoFailsafe :=
        copyPage servoCount (limitPulse pwmLowestMin pwmHighestMax) s.servoFailsafe offset values }
  if copied servoCount offset values = [] then s'
  else s'.setSetup SetupReg.arming (s.setupArming ||| ArmingFlag.failsafeCustom)

/-- `PX4IO_PAGE_DISARMED_PWM`. -/
def setDisarmedPwm (s : Io G) (offset : ℕ) (values : List UInt16) : Io G :=
  let s' :=
    { s with servoDisarmed := copyPage servoCount limitDisarmed s.servoDisarmed offset values }
  if (copied servoCount offset values).all (· == 0) then
    s'.setSetup SetupReg.arming (s.setupArming &&& ~~~ArmingFlag.alwaysPwmEnable)
  else s'.setSetup SetupReg.arming (s.setupArming ||| ArmingFlag.alwaysPwmEnable)

/-! ## Single registers -/

/-- `PX4IO_P_STATUS_FLAGS`: the FMU may restore the flags, unless the arming is in sync. -/
def setStatusRegister (s : Io G) (value : UInt16) : Io G :=
  let s' :=
    if hasFlag value StatusFlag.mixerOk then s.raise StatusFlag.mixerOk
    else if !s.hasStatus StatusFlag.armSync then s.setStatusFlags value
    else s
  if s'.hasStatus StatusFlag.mixerOk then { s' with mixFailsafe := true } else s'

/-- `PX4IO_P_SETUP_FEATURES`: of options in conflict the first one is kept. -/
def selectFeatures (value : UInt16) : UInt16 :=
  let value := value &&& FeatureFlag.valid
  let value :=
    if hasFlag value FeatureFlag.sbus1Out then
      value &&& ~~~(FeatureFlag.pwmRssi ||| FeatureFlag.adcRssi ||| FeatureFlag.sbus2Out)
    else value
  let value :=
    if hasFlag value FeatureFlag.sbus2Out then
      value &&& ~~~(FeatureFlag.pwmRssi ||| FeatureFlag.adcRssi ||| FeatureFlag.sbus1Out)
    else value
  let value :=
    if hasFlag value FeatureFlag.adcRssi then
      value &&& ~~~(FeatureFlag.pwmRssi ||| FeatureFlag.sbus1Out ||| FeatureFlag.sbus2Out)
    else value
  if hasFlag value FeatureFlag.pwmRssi then
    value &&& ~~~(FeatureFlag.adcRssi ||| FeatureFlag.sbus1Out ||| FeatureFlag.sbus2Out)
  else value

/-- The new value of `PX4IO_P_SETUP_ARMING`: a termination failsafe cannot be unset, and with it a
failsafe that is forced. -/
def latchArming (old value : UInt16) : UInt16 :=
  let value := value &&& ArmingFlag.valid
  let value := value ||| (old &&& ArmingFlag.terminationFailsafe)
  if hasFlag old ArmingFlag.terminationFailsafe then value ||| (old &&& ArmingFlag.forceFailsafe)
  else value

/-- `PX4IO_P_SETUP_ARMING`. -/
def setArming (s : Io G) (value : UInt16) : Io G :=
  let s' :=
    if hasFlag (value &&& ArmingFlag.valid) ArmingFlag.rcHandlingDisabled then
      s.raise StatusFlag.initOk
    else s
  s'.setSetup SetupReg.arming (latchArming s.setupArming value)

/-- The channels of every rate group have one rate. -/
def ratesLegal (board : Board) (map : UInt16) : Bool :=
  (List.range servoCount).all fun group =>
    let mask := board.rateGroup group
    mask == 0 || map.toUInt32 &&& mask == 0 || map.toUInt32 &&& mask == mask

/-- `pwm_configure_rates`. -/
def pwmConfigureRates (s : Io G) (board : Board) (map defaultrate altrate : UInt16) : Io G :=
  if !ratesLegal board map then { s with statusAlarms := s.statusAlarms ||| alarmPwmError }
  else
    let failed := (List.range servoCount).any fun group =>
      board.rateGroup group != 0 && !board.setRateOk group
    let s' := if failed then { s with statusAlarms := s.statusAlarms ||| alarmPwmError } else s
    ((s'.setSetup SetupReg.pwmRates map).setSetup SetupReg.pwmDefaultrate defaultrate).setSetup
      SetupReg.pwmAltrate altrate

/-- A rate between 25 and 400 Hz. -/
def limitRate (value : UInt16) : UInt16 :=
  let value := if value < 25 then 25 else value
  if value > 400 then 400 else value

/-- The setup registers that are only stored. -/
def plainSetup : List ℕ :=
  [SetupReg.pwmReverse, SetupReg.trimRoll, SetupReg.trimPitch, SetupReg.trimYaw,
    SetupReg.scaleRoll, SetupReg.scalePitch, SetupReg.scaleYaw, SetupReg.motorSlewMax,
    SetupReg.airmode, SetupReg.thermal, SetupReg.enableFlighttermination]

/-- `PX4IO_PAGE_SETUP`; nothing is returned for a register that cannot be written so. -/
def setSetupRegister (s : Io G) (board : Board) (offset : ℕ) (value : UInt16) : Option (Io G) :=
  match offset with
  | SetupReg.features => some (s.setSetup SetupReg.features (selectFeatures value))
  | SetupReg.arming => some (setArming s value)
  | SetupReg.pwmRates =>
    some (pwmConfigureRates s board (value &&& 0xff) (s.setup SetupReg.pwmDefaultrate)
      (s.setup SetupReg.pwmAltrate))
  | SetupReg.pwmDefaultrate =>
    some (pwmConfigureRates s board (s.setup SetupReg.pwmRates) (limitRate value)
      (s.setup SetupReg.pwmAltrate))
  | SetupReg.pwmAltrate =>
    some (pwmConfigureRates s board (s.setup SetupReg.pwmRates)
      (s.setup SetupReg.pwmDefaultrate) (if value ≠ 0 then limitRate value else value))
  | SetupReg.setDebug => some (s.setSetup SetupReg.setDebug value)
  | SetupReg.rebootBl => some s
  | SetupReg.dsm => some s
  | SetupReg.forceSafetyOn =>
    if value = forceSafetyMagic then some (s.clear StatusFlag.safetyOff) else none
  | SetupReg.forceSafetyOff =>
    if value = forceSafetyMagic then some (s.raise StatusFlag.safetyOff) else none
  | SetupReg.rcThrFailsafeUs =>
    some (if value > 650 ∧ value < 2350 then s.setSetup SetupReg.rcThrFailsafeUs value else s)
  | SetupReg.sbusRate => some (s.setSetup SetupReg.sbusRate value)
  | SetupReg.thrMdlFac =>
    some ({ s with updateMcThrustParam := true }.setSetup SetupReg.thrMdlFac value)
  | offset => if offset ∈ plainSetup then some (s.setSetup offset value) else none

/-! ## Configuration of the RC channels -/

/-- A register of a channel. -/
def Io.conf (s : Io G) (channel index : ℕ) : UInt16 :=
  s.rcInputConfig (channel * RcConfig.stride + index)

def Io.setConf (s : Io G) (channel index : ℕ) (v : UInt16) : Io G :=
  { s with
    rcInputConfig := Function.update s.rcInputConfig (channel * RcConfig.stride + index) v }

/-- The errors that are counted before a channel is enabled. -/
def configErrors (s : Io G) (channel : ℕ) : ℕ :=
  let conf := s.conf channel
  (if conf RcConfig.min < 500 then 1 else 0) +
    (if conf RcConfig.max > 2500 then 1 else 0) +
    (if conf RcConfig.center < conf RcConfig.min then 1 else 0) +
    (if conf RcConfig.center > conf RcConfig.max then 1 else 0) +
    (if conf RcConfig.deadzone > 500 then 1 else 0) +
    if conf RcConfig.assignment = 255 then 0
    else if conf RcConfig.assignment ≥ 8 ∧
        conf RcConfig.assignment ≠ RcConfig.assignmentModeswitch then 1
    else 0

/-- `PX4IO_P_RC_CONFIG_OPTIONS`: a channel is enabled if nothing speaks against it. -/
def setOptions (s : Io G) (channel : ℕ) (value : UInt16) : Io G :=
  let value := value &&& RcConfig.optionsValid
  let s := s.raise StatusFlag.initOk
  let s := s.setSetup SetupReg.arming (s.setupArming &&& ~~~ArmingFlag.rcHandlingDisabled)
  let s := s.setConf channel RcConfig.options (value &&& ~~~RcConfig.optionsEnabled)
  if hasFlag value RcConfig.optionsEnabled then
    if configErrors s channel ≠ 0 then s.clear StatusFlag.initOk
    else if s.conf channel RcConfig.assignment = 255 then s
    else
      s.setConf channel RcConfig.options
        (s.conf channel RcConfig.options ||| RcConfig.optionsEnabled)
  else s

/-- `PX4IO_PAGE_RC_CONFIG`, while the safety is on. -/
def setRcConfig (s : Io G) (offset : ℕ) (value : UInt16) : Option (Io G) :=
  let channel := offset / RcConfig.stride
  let index := offset - channel * RcConfig.stride
  if channel ≥ rcInputChannels then none
  else
    -- the source keeps just the flag that it means to clear
    let s := s.setConf channel RcConfig.options
      (s.conf channel RcConfig.options &&& RcConfig.optionsEnabled)
    if index = RcConfig.options then some (setOptions s channel value)
    else some (s.setConf channel index value)

/-- `registers_set_one`; nothing is returned where the source returns -1. -/
def registersSetOne (s : Io G) (board : Board) (page : Option Page) (offset : ℕ)
    (value : UInt16) : Option (Io G) :=
  match page with
  | some .status =>
    some
      (if offset = 3 then { s with statusAlarms := s.statusAlarms &&& ~~~value }
      else if offset = 2 then setStatusRegister s value
      else s)
  | some .setup => setSetupRegister s board offset value
  | some .rcConfig =>
    if s.hasStatus StatusFlag.safetyOff then some s else setRcConfig s offset value
  | some .test => some s
  | _ => none

/-- Registers one after the other, up to the first that cannot be written. -/
def setEach (board : Board) (page : Option Page) : Io G → ℕ → List UInt16 → Io G × ℤ
  | s, _, [] => (s, 0)
  | s, offset, v :: vs =>
    match registersSetOne s board page offset v with
    | none => (s, -1)
    | some s' => setEach board page s' (offset + 1) vs

/-! ## Messages -/

/-- The bytes of a list of registers. -/
def registerBytes (values : List UInt16) : List UInt8 :=
  values.flatMap fun v : UInt16 => [v.toUInt8, (v >>> 8).toUInt8]

/-- `PX4IO_PAGE_MIXERLOAD`: while a change is allowed the mixer is not ok until it is loaded. -/
def setMixerload (s : Io G) (values : List UInt16) : Io G × ℤ :=
  let forbidden := changeForbidden s.statusFlags s.setupArming
  let handled := interruptMixerHandleText s.mixer forbidden (registerBytes values)
  let s' := if forbidden then s else s.clear StatusFlag.mixerOk
  ({ s' with mixer := handled.mixer }, handled.ret)

/-- `registers_set`. -/
def registersSet (s : Io G) (board : Board) (page : UInt8) (offset : UInt8)
    (values : List UInt16) : Io G × ℤ :=
  let offset := offset.toNat
  match Page.ofNumber page with
  | some .controls => (setControls s board offset values, 0)
  | some .directPwm => (setDirectPwm s board offset values, 0)
  | some .failsafePwm => (setFailsafePwm s offset values, 0)
  | some .controlMinPwm =>
    ({ s with
      servoControlMin :=
        copyPage servoCount (limitPulse pwmLowestMin pwmHighestMin) s.servoControlMin offset
          values }, 0)
  | some .controlMaxPwm =>
    ({ s with
      servoControlMax :=
        copyPage servoCount (limitPulse pwmLowestMax pwmHighestMax) s.servoControlMax offset
          values }, 0)
  | some .controlTrimPwm =>
    ({ s with
      servoControlTrim := copyPage servoCount (fun _ v => v) s.servoControlTrim offset values
      updateTrims := true }, 0)
  | some .disarmedPwm => (setDisarmedPwm s offset values, 0)
  | some .mixerload => setMixerload s values
  | other => setEach board other s offset (values.take (255 - offset))

/-! ## Start -/

/-- `r_page_setup` as it is initialised. -/
def setupDefault : RegPage := fun i =>
  if i = SetupReg.features then FeatureFlag.adcRssi
  else if i = SetupReg.arming then ArmingFlag.overrideImmediate
  else if i = SetupReg.pwmDefaultrate then 50
  else if i = SetupReg.pwmAltrate then 200
  else if i = SetupReg.sbusRate then 72
  else if i = SetupReg.scaleRoll ∨ i = SetupReg.scalePitch ∨ i = SetupReg.scaleYaw then 10000
  else if i = SetupReg.thermal then 0xffff
  else if i = 6 then 10000
  else 0

/-- The channels as `controls_init` sets them: mapped one to one, and all of them enabled. -/
def rcConfigDefault : RegPage := fun i =>
  let index := i % RcConfig.stride
  if index = RcConfig.min then 1000
  else if index = RcConfig.center then 1500
  else if index = RcConfig.max then 2000
  else if index = RcConfig.deadzone then 30
  else if index = RcConfig.assignment then UInt16.ofNat (i / RcConfig.stride)
  else RcConfig.optionsEnabled

/-- The IO after `controls_init`. -/
def Io.initial (ops : MixerLoader G) : Io G where
  statusFlags := 0
  statusAlarms := 0
  setup := setupDefault
  controls := fun _ => 0
  directPwm := fun _ => 0
  servos := fun _ => 0
  servoFailsafe := fun _ => 0
  servoControlMin := fun _ => 1000
  servoControlMax := fun _ => 2000
  servoControlTrim := fun _ => 0
  servoDisarmed := fun _ => 0
  rcInputConfig := rcConfigDefault
  fmuDataReceivedTime := 0
  updateTrims := false
  updateMcThrustParam := false
  mixFailsafe := false
  mixerServosArmed := false
  newFmuData := false
  lastFmuUpdate := 0
  source := .none
  mixer := .initial ops

end Px4io
end DtPhm
