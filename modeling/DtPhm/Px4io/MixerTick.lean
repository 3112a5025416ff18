import DtPhm.Px4io.Registers

/-!
# MixerTick — the tick that drives the outputs of the IO

`mixer_tick` parses mixer text, decides which source drives the servos, runs the mixers and sets the
outputs.  The mixers themselves compute in floating point and are a parameter.

* `MixerMath` — what the tick uses of the mixers;
* `chooseSource`, `mixerTick` — one tick, stage by stage;
* `Latched` — the flight is terminated for good;
* `termination_latched` — then only failsafe or disarmed values reach the outputs.
-/

namespace DtPhm
namespace Px4io

open Lib

/-! ## Sources and outputs -/

/-- What a run of the mixers leaves: the group, the servo values, and whether anything was mixed. -/
structure Mixed (G : Type) where
  group : G
  servos : RegPage
  any : Bool

/-- What a tick uses of the mixers. -/
structure MixerMath (G : Type) extends MixerLoader G where
  setTrims : G → RegPage → G
  setAirmode : G → UInt16 → G
  /-- The mixers and `output_limit_calc`, with `should_arm` and `should_arm_nothrottle`. -/
  mix : Io G → MixerSource → Bool → Bool → Mixed G
  /-- The mixers as `mixer_mix_failsafe` runs them, with the source of the tick before, and the
  pulses of their outputs. -/
  mixZero : Io G → G × RegPage

/-- What a tick sends. -/
structure TickOutput where
  pwm : Option RegPage
  sbus1 : Option RegPage
  sbus2 : Option RegPage
  /-- `up_pwm_update`. -/
  oneshot : Bool

/-- `FMU_INPUT_DROP_LIMIT_US`. -/
def fmuInputDropLimitUs : UInt64 := 500000

variable {G : Type} (ops : MixerMath G) (s : Io G)

/-! ## Stages -/

/-- The mixer text is parsed. -/
def textStage : Io G :=
  let forbidden := changeForbidden s.statusFlags s.setupArming
  let parsed := !forbidden && s.mixer.mixerUpdatePending && s.mixer.text.length != 0
  { s with
    mixer := mixerHandleTextCreateMixer ops.toMixerLoader s.mixer forbidden
    updateTrims := s.updateTrims || parsed
    updateMcThrustParam := s.updateMcThrustParam || parsed }

/-- `mixer_mix_failsafe`: failsafe values are made of the mixer, unless custom ones were written. -/
def mixerMixFailsafe : Io G :=
  if s.hasArming ArmingFlag.failsafeCustom || !s.hasStatus StatusFlag.mixerOk then s
  else
    let mixed := ops.mixZero s
    { s with
      mixer := { s.mixer with mixerGroup := mixed.1 }
      servoFailsafe := mixed.2
      updateMcThrustParam := false }

/-- The failsafe values are set when the interrupt side has asked for it. -/
def failsafeStage : Io G :=
  if s.mixFailsafe then { mixerMixFailsafe ops s with mixFailsafe := false } else s

/-- Whether the FMU still sends. -/
def fmuStage (now : UInt64) : Io G :=
  if s.fmuDataReceivedTime = 0 ∨ now - s.fmuDataReceivedTime > fmuInputDropLimitUs then
    { s.clear StatusFlag.fmuOk with statusAlarms := s.statusAlarms ||| alarmFmuLost }
  else
    let s' := (s.raise StatusFlag.fmuOk).raise StatusFlag.fmuInitialized
    if s.fmuDataReceivedTime > s.lastFmuUpdate then
      { s' with newFmuData := true, lastFmuUpdate := s.fmuDataReceivedTime }
    else s'

/-- Which set of controls is used, before a failsafe is forced. -/
def chooseSource : MixerSource :=
  if s.hasStatus StatusFlag.rawPwm && s.hasStatus StatusFlag.fmuOk then
    if s.hasStatus StatusFlag.override then .overrideFmuOk else .none
  else if !s.hasStatus StatusFlag.override && s.hasStatus StatusFlag.fmuOk &&
      s.hasStatus StatusFlag.mixerOk then .fmu
  else if s.hasStatus StatusFlag.override then
    if s.hasStatus StatusFlag.fmuOk then .overrideFmuOk else .override
  else .disarmed

/-- Direct values are copied. -/
def directStage (source : MixerSource) : Io G :=
  if source = .none then { s with servos := s.directPwm } else s

/-- `should_arm`. -/
def shouldArm : Bool :=
  s.hasStatus StatusFlag.initOk && s.hasStatus StatusFlag.safetyOff &&
    ((s.hasArming ArmingFlag.fmuArmed && s.hasStatus StatusFlag.mixerOk) ||
      s.hasStatus StatusFlag.rawPwm)

/-- `should_arm_nothrottle`. -/
def shouldArmNothrottle : Bool :=
  s.hasStatus StatusFlag.initOk && s.hasStatus StatusFlag.safetyOff &&
    ((s.hasArming ArmingFlag.fmuPrearmed && s.hasStatus StatusFlag.mixerOk) ||
      s.hasStatus StatusFlag.rawPwm)

/-- `should_always_enable_pwm`. -/
def shouldAlwaysEnablePwm : Bool :=
  s.hasArming ArmingFlag.alwaysPwmEnable && s.hasStatus StatusFlag.initOk &&
    s.hasStatus StatusFlag.fmuOk

/-- The flight is terminated if the FMU is dead. -/
def terminateStage (source : MixerSource) : Io G :=
  if s.setup SetupReg.enableFlighttermination != 0 && source == .disarmed && shouldArm s &&
      s.hasStatus StatusFlag.fmuInitialized then
    s.setSetup SetupReg.arming (s.setupArming ||| ArmingFlag.forceFailsafe)
  else s

/-- The source after a forced failsafe. -/
def forcedSource (source : MixerSource) : MixerSource :=
  if s.hasArming ArmingFlag.forceFailsafe then .failsafe else source

/-- The source is kept, and the failsafe flag follows it; trims and air-mode are handed to the
mixers. -/
def flagStage (source : MixerSource) : Io G :=
  let s := { s with source := source }
  let s :=
    if source = .failsafe then s.raise StatusFlag.failsafe else s.clear StatusFlag.failsafe
  let s :=
    if s.updateTrims && s.hasStatus StatusFlag.mixerOk then
      { s with
        updateTrims := false
        mixer := { s.mixer with
          mixerGroup := ops.setTrims s.mixer.mixerGroup s.servoControlTrim } }
    else s
  { s with
    mixer := { s.mixer with
      mixerGroup := ops.setAirmode s.mixer.mixerGroup (s.setup SetupReg.airmode) } }

/-- The mixers are run, or fixed values taken; also whether oneshot outputs are triggered. -/
def mixStage (source : MixerSource) (arm armNothrottle : Bool) : Io G × Bool :=
  if source = .failsafe then ({ s with servos := s.servoFailsafe }, false)
  else if source = .disarmed then ({ s with servos := s.servoDisarmed }, false)
  else if source ≠ .none ∧ s.hasStatus StatusFlag.mixerOk ∧ !s.hasArming ArmingFlag.lockdown then
    let mixed := ops.mix s source arm armNothrottle
    ({ s with
      mixer := { s.mixer with mixerGroup := mixed.group }
      servos := mixed.servos
      updateMcThrustParam := false
      newFmuData := s.newFmuData && !mixed.any }, mixed.any && s.newFmuData)
  else (s, false)

/-- The outputs are armed or disarmed. -/
def armStage (needsToArm : Bool) : Io G :=
  if needsToArm && !s.mixerServosArmed then
    { s.raise StatusFlag.outputsArmed with mixerServosArmed := true }
  else if !needsToArm && s.mixerServosArmed then
    { s.clear StatusFlag.outputsArmed with mixerServosArmed := false }
  else s

/-- The outputs of a page of values. -/
def sendPage (page : RegPage) (sbus1 sbus2 oneshot : Bool) : TickOutput :=
  ⟨some page, if sbus1 then some page else none, if sbus2 then some page else none, oneshot⟩

/-- The servo outputs are set. -/
def outputStage (source : MixerSource) (arm always oneshot : Bool) : Io G × TickOutput :=
  let lockdown := s.hasArming ArmingFlag.lockdown
  let sbus1 := hasFlag (s.setup SetupReg.features) FeatureFlag.sbus1Out
  let sbus2 := hasFlag (s.setup SetupReg.features) FeatureFlag.sbus2Out
  if s.mixerServosArmed && (arm || source == .failsafe) && !lockdown then
    (s, sendPage s.servos (sbus1 && !sbus2) sbus2 oneshot)
  else if s.mixerServosArmed && (always || lockdown) then
    ({ s with servos := s.servoDisarmed }, sendPage s.servoDisarmed sbus1 sbus2 oneshot)
  else (s, ⟨none, none, none, oneshot⟩)

/-- The context in which the source is chosen. -/
def sensedStage (now : UInt64) : Io G := fmuStage (failsafeStage ops (textStage ops s)) now

/-- `mixer_tick`. -/
def mixerTick (now : UInt64) : Io G × TickOutput :=
  let s := sensedStage ops s now
  let source := chooseSource s
  let s := directStage s source
  let arm := shouldArm s
  let armNothrottle := shouldArmNothrottle s
  let always := shouldAlwaysEnablePwm s
  let s := terminateStage s source
  let source := forcedSource s source
  let s := flagStage ops s source
  let mixed := mixStage ops s source arm armNothrottle
  let s := armStage mixed.1
    (arm || armNothrottle || always || mixed.1.hasArming ArmingFlag.lockdown)
  outputStage s source (arm || armNothrottle) always mixed.2

/-! ## What the stages leave alone -/

variable {ops s} {source : MixerSource} {now : UInt64} {board : Board}

@[simp] theorem sensedStage_setup : (sensedStage ops s now).setup = s.setup := by
  have htext : (textStage ops s).setup = s.setup := rfl
  have hfailsafe : ∀ t : Io G, (failsafeStage ops t).setup = t.setup := by
    intro t
    unfold failsafeStage mixerMixFailsafe
    split
    · split <;> rfl
    · rfl
  unfold sensedStage fmuStage
  split
  · exact (hfailsafe _).trans htext
  · split <;> exact (hfailsafe _).trans htext

@[simp] theorem directStage_setup : (directStage s source).setup = s.setup := by
  unfold directStage
  split <;> rfl

@[simp] theorem flagStage_setup : (flagStage ops s source).setup = s.setup := by
  unfold flagStage
  dsimp only
  split <;> split <;> rfl

@[simp] theorem mixStage_setup {arm armNothrottle : Bool} :
    (mixStage ops s source arm armNothrottle).1.setup = s.setup := by
  unfold mixStage
  split
  · rfl
  · split
    · rfl
    · split <;> rfl

@[simp] theorem armStage_setup {needsToArm : Bool} : (armStage s needsToArm).setup = s.setup := by
  unfold armStage
  split
  · rfl
  · split <;> rfl

@[simp] theorem armStage_servos {needsToArm : Bool} :
    (armStage s needsToArm).servos = s.servos ∧
      (armStage s needsToArm).servoFailsafe = s.servoFailsafe := by
  unfold armStage
  split
  · exact ⟨rfl, rfl⟩
  · split <;> exact ⟨rfl, rfl⟩

@[simp] theorem outputStage_setup {arm always oneshot : Bool} :
    (outputStage s source arm always oneshot).1.setup = s.setup := by
  unfold outputStage
  dsimp only
  split
  · rfl
  · split <;> rfl

/-! ## The latch -/

/-- The flight is terminated for good: both flags are set. -/
structure Latched (s : Io G) : Prop where
  termination : s.hasArming ArmingFlag.terminationFailsafe = true
  force : s.hasArming ArmingFlag.forceFailsafe = true

theorem Latched.congr {t : Io G} (h : Latched s) (ht : t.setupArming = s.setupArming) :
    Latched t := by
  constructor
  · rw [Io.hasArming, ht]
    exact h.termination
  · rw [Io.hasArming, ht]
    exact h.force

@[simp] theorem setSetup_setupArming {i : ℕ} {v : UInt16} :
    (s.setSetup i v).setupArming = if i = SetupReg.arming then v else s.setupArming := by
  unfold Io.setupArming Io.setSetup
  by_cases h : i = SetupReg.arming
  · simp [h]
  · simp [h, Function.update_of_ne (Ne.symm h)]

theorem Latched.or (h : Latched s) (m : UInt16) :
    Latched (s.setSetup SetupReg.arming (s.setupArming ||| m)) := by
  constructor
  · simpa [Io.hasArming, hasFlag_or] using Or.inl h.termination
  · simpa [Io.hasArming, hasFlag_or] using Or.inl h.force

theorem Latched.and_not (h : Latched s) {m : UInt16}
    (hm : m &&& ArmingFlag.terminationFailsafe = 0 ∧ m &&& ArmingFlag.forceFailsafe = 0) :
    Latched (s.setSetup SetupReg.arming (s.setupArming &&& ~~~m)) := by
  constructor
  · simpa [Io.hasArming, hasFlag_and_not _ hm.1] using h.termination
  · simpa [Io.hasArming, hasFlag_and_not _ hm.2] using h.force

theorem Latched.setArming (h : Latched s) (value : UInt16) : Latched (setArming s value) := by
  have hterm : hasFlag s.setupArming ArmingFlag.terminationFailsafe = true := h.termination
  have hforce : hasFlag s.setupArming ArmingFlag.forceFailsafe = true := h.force
  have hsetup : (Px4io.setArming s value).setupArming = latchArming s.setupArming value := by
    unfold Px4io.setArming
    simp
  have hlatch : latchArming s.setupArming value =
      value &&& ArmingFlag.valid ||| s.setupArming &&& ArmingFlag.terminationFailsafe |||
        s.setupArming &&& ArmingFlag.forceFailsafe := by
    unfold latchArming
    rw [if_pos hterm]
  constructor
  · rw [Io.hasArming, hsetup, hlatch, hasFlag_or, hasFlag_or,
      hasFlag_and _ (by decide : ArmingFlag.terminationFailsafe &&& ArmingFlag.terminationFailsafe =
        _),
      hterm, Bool.or_true, Bool.true_or]
  · rw [Io.hasArming, hsetup, hlatch, hasFlag_or,
      hasFlag_and _ (by decide : ArmingFlag.forceFailsafe &&& ArmingFlag.forceFailsafe = _), hforce,
      Bool.or_true]

/-! ## The latch and the FMU -/

theorem pwmConfigureRates_setupArming {map defaultrate altrate : UInt16} :
    (pwmConfigureRates s board map defaultrate altrate).setupArming = s.setupArming := by
  unfold pwmConfigureRates
  split
  · rfl
  · dsimp only
    rw [setSetup_setupArming, if_neg (by decide), setSetup_setupArming, if_neg (by decide),
      setSetup_setupArming, if_neg (by decide)]
    split <;> rfl

theorem setStatusRegister_setupArming {value : UInt16} :
    (setStatusRegister s value).setupArming = s.setupArming := by
  unfold setStatusRegister
  dsimp only
  split <;> split <;> try split
  all_goals rfl

theorem setSetupRegister_cases {offset : ℕ} {value : UInt16} {t : Io G}
    (h : setSetupRegister s board offset value = some t) :
    t = setArming s value ∨ t.setupArming = s.setupArming := by
  have hother : ∀ (u : Io G) (i : ℕ) (v : UInt16), i ≠ SetupReg.arming →
      (u.setSetup i v).setupArming = u.setupArming := by
    intro u i v hne
    rw [setSetup_setupArming, if_neg hne]
  unfold setSetupRegister at h
  split at h
  all_goals try cases h
  · exact .inr (hother _ _ _ (by decide))
  · exact .inl rfl
  · exact .inr pwmConfigureRates_setupArming
  · exact .inr pwmConfigureRates_setupArming
  · exact .inr pwmConfigureRates_setupArming
  · exact .inr (hother _ _ _ (by decide))
  · exact .inr rfl
  · exact .inr rfl
  · split at h
    · cases h
      exact .inr rfl
    · cases h
  · split at h
    · cases h
      exact .inr rfl
    · cases h
  · split
    · exact .inr (hother _ _ _ (by decide))
    · exact .inr rfl
  · exact .inr (hother _ _ _ (by decide))
  · exact .inr (hother _ _ _ (by decide))
  · split at h
    case isTrue hplain =>
      cases h
      refine .inr (hother _ _ _ ?_)
      rintro rfl
      exact absurd hplain (by decide)
    case isFalse => cases h

theorem setRcConfig_setupArming {offset : ℕ} {value : UInt16} {t : Io G}
    (h : setRcConfig s offset value = some t) (hs : Latched s) : Latched t := by
  have hclear : ∀ u : Io G, Latched u →
      Latched (u.setSetup SetupReg.arming (u.setupArming &&& ~~~ArmingFlag.rcHandlingDisabled)) :=
    fun u hu => hu.and_not (by decide)
  unfold setRcConfig at h
  dsimp only at h
  split at h
  · cases h
  split at h
  · cases h
    have hu : Latched ((s.setConf (offset / RcConfig.stride) RcConfig.options
        (s.conf (offset / RcConfig.stride) RcConfig.options &&&
          RcConfig.optionsEnabled)).raise StatusFlag.initOk) := hs.congr rfl
    unfold setOptions
    dsimp only
    split
    · split
      · exact (hclear _ hu).congr rfl
      · split <;> exact (hclear _ hu).congr rfl
    · exact (hclear _ hu).congr rfl
  · cases h
    exact hs.congr rfl

theorem Latched.registersSetOne {page : Option Page} {offset : ℕ} {value : UInt16} {t : Io G}
    (hs : Latched s) (h : registersSetOne s board page offset value = some t) : Latched t := by
  unfold Px4io.registersSetOne at h
  split at h
  · cases h
    split
    · exact hs.congr rfl
    · split
      · exact hs.congr setStatusRegister_setupArming
      · exact hs
  · rcases setSetupRegister_cases h with rfl | hsame
    · exact hs.setArming value
    · exact hs.congr hsame
  · split at h
    · cases h
      exact hs
    · exact setRcConfig_setupArming h hs
  · cases h
    exact hs
  · cases h

theorem Latched.setEach {page : Option Page} {values : List UInt16} :
    ∀ {s : Io G} {offset : ℕ}, Latched s → Latched (setEach board page s offset values).1 := by
  induction values with
  | nil => exact fun hs => hs
  | cons v vs ih =>
      intro s offset hs
      unfold Px4io.setEach
      cases hone : Px4io.registersSetOne s board page offset v with
      | none => exact hs
      | some t => exact ih (hs.registersSetOne hone)

theorem Latched.registersSet (hs : Latched s) (page offset : UInt8) (values : List UInt16) :
    Latched (registersSet s board page offset values).1 := by
  unfold Px4io.registersSet
  cases Page.ofNumber page with
  | none => exact hs.setEach
  | some p =>
      cases p with
      | status => exact hs.setEach
      | setup => exact hs.setEach
      | rcConfig => exact hs.setEach
      | test => exact hs.setEach
      | controls => exact hs.congr rfl
      | directPwm => exact hs.congr rfl
      | controlMinPwm => exact hs.congr rfl
      | controlMaxPwm => exact hs.congr rfl
      | controlTrimPwm => exact hs.congr rfl
      | failsafePwm =>
          simp only [setFailsafePwm]
          split
          · exact hs.congr rfl
          · exact (hs.or ArmingFlag.failsafeCustom).congr rfl
      | disarmedPwm =>
          simp only [setDisarmedPwm]
          split
          · exact (hs.and_not (by decide : ArmingFlag.alwaysPwmEnable &&& _ = 0 ∧
              ArmingFlag.alwaysPwmEnable &&& _ = 0)).congr rfl
          · exact (hs.or ArmingFlag.alwaysPwmEnable).congr rfl
      | mixerload =>
          simp only [setMixerload]
          split <;> exact hs.congr rfl

/-! ## The latch and the tick -/

theorem Latched.of_setup {t : Io G} (hs : Latched s) (ht : t.setup = s.setup) : Latched t :=
  hs.congr (congrFun ht _)

theorem Latched.terminateStage (hs : Latched s) : Latched (terminateStage s source) := by
  unfold Px4io.terminateStage
  split
  · exact hs.or _
  · exact hs

/-- What reaches the outputs: the failsafe values, the disarmed values in a lockdown, or nothing
while the outputs are disarmed. -/
structure OnlySafe (t : Io G) (out : TickOutput) : Prop where
  pwm : out.pwm = some t.servoFailsafe ∨
    (t.hasArming ArmingFlag.lockdown = true ∧ out.pwm = some t.servoDisarmed) ∨
    (t.mixerServosArmed = false ∧ out.pwm = none)
  sbus : (out.sbus1 = none ∨ out.sbus1 = out.pwm) ∧ (out.sbus2 = none ∨ out.sbus2 = out.pwm)
  no_oneshot : out.oneshot = false

theorem outputStage_onlySafe {arm always : Bool} (hservos : s.servos = s.servoFailsafe) :
    OnlySafe (outputStage s .failsafe arm always false).1
      (outputStage s .failsafe arm always false).2 := by
  unfold outputStage
  dsimp only
  split
  case isTrue h =>
    refine ⟨.inl (congrArg some hservos), ⟨?_, ?_⟩, rfl⟩
    · simp only [sendPage]
      split <;> simp
    · simp only [sendPage]
      split <;> simp
  case isFalse hfirst =>
    split
    case isTrue hsecond =>
      have hlock : s.hasArming ArmingFlag.lockdown = true := by
        rcases Bool.and_eq_true_iff.1 hsecond with ⟨harmed, -⟩
        by_contra hno
        simp [harmed, hno] at hfirst
      refine ⟨.inr (.inl ⟨hlock, rfl⟩), ⟨?_, ?_⟩, rfl⟩
      · simp only [sendPage]
        split <;> simp
      · simp only [sendPage]
        split <;> simp
    case isFalse hsecond =>
      refine ⟨.inr (.inr ⟨?_, rfl⟩), ⟨.inl rfl, .inl rfl⟩, rfl⟩
      -- armed outputs are driven with or without a lockdown
      rw [Bool.eq_false_iff]
      intro harmed
      cases hlock : s.hasArming ArmingFlag.lockdown <;> simp_all

theorem Latched.mixerTick (hs : Latched s) :
    Latched (mixerTick ops s now).1 ∧ OnlySafe (mixerTick ops s now).1 (mixerTick ops s now).2 := by
  have hsensed : Latched (sensedStage ops s now) := hs.of_setup sensedStage_setup
  have hdirect : ∀ source, Latched (directStage (sensedStage ops s now) source) :=
    fun source => hsensed.of_setup directStage_setup
  have hterm : ∀ source, Latched
      (Px4io.terminateStage (directStage (sensedStage ops s now) source) source) :=
    fun source => (hdirect source).terminateStage
  have hsource : ∀ t : Io G, ∀ source, Latched t → forcedSource t source = .failsafe :=
    fun t source ht => if_pos ht.force
  unfold Px4io.mixerTick
  simp only [hsource _ _ (hterm _)]
  refine ⟨?_, ?_⟩
  · exact (hterm (chooseSource (sensedStage ops s now))).of_setup (by simp)
  · refine outputStage_onlySafe ?_
    rw [armStage_servos.1, armStage_servos.2]
    rfl

/-! ## Runs -/

/-- Messages of the FMU and ticks. -/
inductive IoEvent
  | registersSet (board : Board) (page offset : UInt8) (values : List UInt16)
  | mixerTick (now : UInt64)

def ioStep (ops : MixerMath G) (s : Io G) : IoEvent → Io G
  | .registersSet board page offset values => (registersSet s board page offset values).1
  | .mixerTick now => (mixerTick ops s now).1

/-- After an event the latch holds, and a tick has sent only safe values. -/
structure StaysTerminated (ops : MixerMath G) (s : Io G) (e : IoEvent) : Prop where
  latched : Latched (ioStep ops s e)
  only_safe : ∀ now, e = .mixerTick now →
    OnlySafe (mixerTick ops s now).1 (mixerTick ops s now).2

theorem Latched.staysTerminated (hs : Latched s) (e : IoEvent) : StaysTerminated ops s e := by
  cases e with
  | registersSet board page offset values =>
      exact ⟨hs.registersSet page offset values, fun now h => nomatch h⟩
  | mixerTick now =>
      refine ⟨hs.mixerTick.1, fun now' h => ?_⟩
      cases h
      exact hs.mixerTick.2

/-- Once both flags are set they stay set, and every tick sends failsafe values, disarmed values in
a lockdown, or nothing. -/
theorem termination_latched (ops : MixerMath G) (s : Io G)
    (htermination : s.hasArming ArmingFlag.terminationFailsafe = true)
    (hforce : s.hasArming ArmingFlag.forceFailsafe = true) (es : List IoEvent) :
    AllSteps (ioStep ops) (StaysTerminated ops) s es :=
  allSteps_of_invariant (fun _ e hs _ => (Latched.staysTerminated hs e).latched)
    (fun _ e hs _ => Latched.staysTerminated hs e) ⟨htermination, hforce⟩ (allSteps_true es)

/-- Mixers that mix nothing. -/
def idleMixers : MixerMath Unit where
  reset := ()
  loadFromBuf := fun _ _ => ((), 0)
  setTrims := fun _ _ => ()
  setAirmode := fun _ _ => ()
  mix := fun s _ _ _ => ⟨(), s.servos, false⟩
  mixZero := fun _ => ((), fun _ => 0)

/-- An IO in flight, with armed outputs. -/
def flyingIo : Io Unit :=
  { ((Io.initial idleMixers.toMixerLoader).setSetup SetupReg.arming 0x0600).setStatusFlags
      (StatusFlag.initOk ||| StatusFlag.safetyOff ||| StatusFlag.outputsArmed) with
    mixerServosArmed := true }

/-- The FMU tries to clear both flags, and sends direct values. -/
def clearingRun : List IoEvent :=
  [.registersSet idleBoard 50 1 [0], .registersSet { idleBoard with now := 900 } 54 0 [1900, 1900],
    .mixerTick 1000]

/-- The outputs stay armed, and the servos are at their failsafe values. -/
theorem termination_latched_run :
    AllSteps (ioStep idleMixers) (StaysTerminated idleMixers) flyingIo clearingRun ∧
      (exec (ioStep idleMixers) flyingIo clearingRun).mixerServosArmed = true ∧
      (exec (ioStep idleMixers) flyingIo clearingRun).source = .failsafe :=
  ⟨termination_latched _ _ (by decide) (by decide) _, by decide, by decide⟩

end Px4io
end DtPhm
