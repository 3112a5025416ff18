import DtPhm.Lib.Flags

/-!
# Protocol — the register protocol between FMU and IO

Numbers of pages, offsets and flags that both sides have agreed on, as far as the IO uses them.

* `Page` — the pages that can be written;
* `StatusFlag`, `ArmingFlag`, `RawRcFlag` — flags of the status, arming and RC registers;
* `SetupReg`, `RcConfig` — offsets in the setup page and in the configuration of a channel.
-/

namespace DtPhm
namespace Px4io

/-- A page of registers. -/
abbrev RegPage := ℕ → UInt16

/-- `PX4IO_SERVO_COUNT`. -/
def servoCount : ℕ := 8

/-- `PX4IO_CONTROL_CHANNELS`. -/
def controlChannels : ℕ := 8

/-- `PX4IO_CONTROL_GROUPS`. -/
def controlGroups : ℕ := 4

/-- `PX4IO_RC_INPUT_CHANNELS`. -/
def rcInputChannels : ℕ := 18

/-- The pages that `registers_set` knows. -/
inductive Page
  | status
  | setup
  | controls
  | mixerload
  | rcConfig
  | directPwm
  | failsafePwm
  | test
  | controlMinPwm
  | controlMaxPwm
  | controlTrimPwm
  | disarmedPwm
deriving DecidableEq, Repr

/-- The page of a page number. -/
def Page.ofNumber (n : UInt8) : Option Page :=
  if n = 1 then some .status
  else if n = 50 then some .setup
  else if n = 51 then some .controls
  else if n = 52 then some .mixerload
  else if n = 53 then some .rcConfig
  else if n = 54 then some .directPwm
  else if n = 55 then some .failsafePwm
  else if n = 127 then some .test
  else if n = 106 then some .controlMinPwm
  else if n = 107 then some .controlMaxPwm
  else if n = 108 then some .controlTrimPwm
  else if n = 109 then some .disarmedPwm
  else none

/-! ## Flags -/

namespace StatusFlag

def outputsArmed : UInt16 := 0x0001
def override : UInt16 := 0x0002
def rcOk : UInt16 := 0x0004
def rcPpm : UInt16 := 0x0008
def rcDsm : UInt16 := 0x0010
def rcSbus : UInt16 := 0x0020
def fmuOk : UInt16 := 0x0040
def rawPwm : UInt16 := 0x0080
def mixerOk : UInt16 := 0x0100
def armSync : UInt16 := 0x0200
def initOk : UInt16 := 0x0400
def failsafe : UInt16 := 0x0800
def safetyOff : UInt16 := 0x1000
def fmuInitialized : UInt16 := 0x2000
def rcSt24 : UInt16 := 0x4000
def rcSumd : UInt16 := 0x8000

end StatusFlag

/-- `PX4IO_P_STATUS_ALARMS_*`, as far as they are raised here. -/
def alarmFmuLost : UInt16 := 0x0010

def alarmRcLost : UInt16 := 0x0020

def alarmPwmError : UInt16 := 0x0040

namespace ArmingFlag

def ioArmOk : UInt16 := 0x0001
def fmuArmed : UInt16 := 0x0002
def fmuPrearmed : UInt16 := 0x0004
def manualOverrideOk : UInt16 := 0x0008
def failsafeCustom : UInt16 := 0x0010
def inairRestartOk : UInt16 := 0x0020
def alwaysPwmEnable : UInt16 := 0x0040
def rcHandlingDisabled : UInt16 := 0x0080
def lockdown : UInt16 := 0x0100
def forceFailsafe : UInt16 := 0x0200
def terminationFailsafe : UInt16 := 0x0400
def overrideImmediate : UInt16 := 0x0800

/-- `PX4IO_P_SETUP_ARMING_VALID`. -/
def valid : UInt16 :=
  fmuArmed ||| fmuPrearmed ||| manualOverrideOk ||| inairRestartOk ||| ioArmOk |||
    failsafeCustom ||| alwaysPwmEnable ||| rcHandlingDisabled ||| lockdown ||| forceFailsafe |||
    terminationFailsafe ||| overrideImmediate

end ArmingFlag

namespace FeatureFlag

def sbus1Out : UInt16 := 0x0001
def sbus2Out : UInt16 := 0x0002
def pwmRssi : UInt16 := 0x0004
def adcRssi : UInt16 := 0x0008

/-- `PX4IO_P_SETUP_FEATURES_VALID`. -/
def valid : UInt16 := sbus1Out ||| sbus2Out ||| adcRssi ||| pwmRssi

end FeatureFlag

namespace RawRcFlag

def frameDrop : UInt16 := 0x0001
def failsafe : UInt16 := 0x0002
def rcDsm11 : UInt16 := 0x0004
def mappingOk : UInt16 := 0x0008
def rcOk : UInt16 := 0x0010

end RawRcFlag

/-! ## Offsets -/

namespace SetupReg

@[match_pattern] def features : ℕ := 0
@[match_pattern] def arming : ℕ := 1
@[match_pattern] def pwmRates : ℕ := 2
@[match_pattern] def pwmDefaultrate : ℕ := 3
@[match_pattern] def pwmAltrate : ℕ := 4
@[match_pattern] def dsm : ℕ := 7
@[match_pattern] def setDebug : ℕ := 9
@[match_pattern] def rebootBl : ℕ := 10
@[match_pattern] def forceSafetyOff : ℕ := 12
@[match_pattern] def rcThrFailsafeUs : ℕ := 13
@[match_pattern] def forceSafetyOn : ℕ := 14
@[match_pattern] def pwmReverse : ℕ := 15
@[match_pattern] def trimRoll : ℕ := 16
@[match_pattern] def trimPitch : ℕ := 17
@[match_pattern] def trimYaw : ℕ := 18
@[match_pattern] def scaleRoll : ℕ := 19
@[match_pattern] def scalePitch : ℕ := 20
@[match_pattern] def scaleYaw : ℕ := 21
@[match_pattern] def sbusRate : ℕ := 22
@[match_pattern] def motorSlewMax : ℕ := 24
@[match_pattern] def thrMdlFac : ℕ := 25
@[match_pattern] def thermal : ℕ := 26
@[match_pattern] def airmode : ℕ := 27
@[match_pattern] def enableFlighttermination : ℕ := 28

end SetupReg

/-- `PX4IO_FORCE_SAFETY_MAGIC`. -/
def forceSafetyMagic : UInt16 := 22027

namespace RcConfig

def min : ℕ := 0
def center : ℕ := 1
def max : ℕ := 2
def deadzone : ℕ := 3
def assignment : ℕ := 4
def options : ℕ := 5
def stride : ℕ := 6

/-- `PX4IO_P_RC_CONFIG_ASSIGNMENT_MODESWITCH`. -/
def assignmentModeswitch : UInt16 := 100

def optionsEnabled : UInt16 := 0x0001
def optionsReverse : UInt16 := 0x0002

/-- `PX4IO_P_RC_CONFIG_OPTIONS_VALID`. -/
def optionsValid : UInt16 := optionsReverse ||| optionsEnabled

end RcConfig

/-! ## Limits of pulses -/

/-- `PWM_LOWEST_MIN` and its siblings. -/
def pwmLowestMin : UInt16 := 90

def pwmHighestMin : UInt16 := 1600

def pwmLowestMax : UInt16 := 200

def pwmHighestMax : UInt16 := 2500

/-- `PWM_IGNORE_THIS_CHANNEL`. -/
def pwmIgnoreThisChannel : UInt16 := 0xffff

end Px4io
end DtPhm
