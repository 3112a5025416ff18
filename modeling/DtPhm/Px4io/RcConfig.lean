import DtPhm.Px4io.Registers

/-!
# RcConfig — the calibration of the RC channels

A channel may be used only with limits in order.  The IO checks that when its options are written;
the other registers of a channel can be written at any time while the safety is on.

* `InOrder`, `Checked` — limits in order, and for all enabled channels;
* `written` — what a message writes into a register;
* `Rewritten`, `Overlaid` — what a register, and a message as a whole, leaves of a channel;
* `channels_checked` — the channels stay checked exactly when no message puts the limits of an
  enabled channel out of order without writing its options.
-/

namespace DtPhm
namespace Px4io

open Lib

variable {G : Type}

/-! ## Limits -/

/-- The limits of a channel are in order, and its dead zone is small. -/
def InOrder (conf : ℕ → UInt16) : Prop :=
  500 ≤ conf RcConfig.min ∧ conf RcConfig.min ≤ conf RcConfig.center ∧
    conf RcConfig.center ≤ conf RcConfig.max ∧ conf RcConfig.max ≤ 2500 ∧
    conf RcConfig.deadzone ≤ 500

instance (conf : ℕ → UInt16) : Decidable (InOrder conf) := by
  unfold InOrder
  infer_instance

def Io.channelEnabled (s : Io G) (channel : ℕ) : Bool :=
  hasFlag (s.conf channel RcConfig.options) RcConfig.optionsEnabled

/-- Every enabled channel has its limits in order. -/
def Checked (s : Io G) : Prop :=
  ∀ channel < rcInputChannels, s.channelEnabled channel = true → InOrder (s.conf channel)

/-! ## Messages -/

/-- What a message that starts at an offset writes into a register. -/
def written (offset : ℕ) (values : List UInt16) (register : ℕ) : Option UInt16 :=
  if offset ≤ register then values[register - offset]? else none

/-- The register of a channel. -/
def register (channel index : ℕ) : ℕ := channel * RcConfig.stride + index

/-- The configuration of a channel with the values of a message in it. -/
def overlay (s : Io G) (offset : ℕ) (values : List UInt16) (channel index : ℕ) : UInt16 :=
  (written offset values (register channel index)).getD (s.conf channel index)

/-- A message puts the limits of an enabled channel out of order, and does not write its options. -/
def Disorders (s : Io G) (offset : ℕ) (values : List UInt16) : Prop :=
  ∃ channel < rcInputChannels, s.channelEnabled channel = true ∧
    written offset values (register channel RcConfig.options) = none ∧
    (∃ index < RcConfig.assignment, written offset values (register channel index) ≠ none) ∧
    ¬InOrder (overlay s offset values channel)

/-- Messages of the FMU; in between the flags of the IO may change, and with them the safety
switch. -/
inductive ConfigEvent
  | registersSet (board : Board) (page offset : UInt8) (values : List UInt16)
  | statusFlags (v : UInt16)

def configStep (s : Io G) : ConfigEvent → Io G
  | .registersSet board page offset values => (registersSet s board page offset values).1
  | .statusFlags v => s.setStatusFlags v

/-- A message to the page of the RC configuration, with the safety on, that puts limits out of
order. -/
def DisordersChannel (s : Io G) : ConfigEvent → Prop
  | .registersSet _ page offset values =>
    Page.ofNumber page = some .rcConfig ∧ s.hasStatus StatusFlag.safetyOff = false ∧
      Disorders s offset.toNat (values.take (255 - offset.toNat))
  | .statusFlags _ => False

/-! ## Registers of a channel -/

variable {s t : Io G} {board : Board} {channel index offset : ℕ} {value : UInt16}
  {values : List UInt16}

theorem InOrder.congr {f g : ℕ → UInt16} (h : ∀ i < RcConfig.assignment, f i = g i)
    (hf : InOrder f) : InOrder g := by
  have hmin := h RcConfig.min (by decide)
  have hcenter := h RcConfig.center (by decide)
  have hmax := h RcConfig.max (by decide)
  have hdeadzone := h RcConfig.deadzone (by decide)
  unfold InOrder at hf ⊢
  rwa [← hmin, ← hcenter, ← hmax, ← hdeadzone]

theorem register_inj {c c' i i' : ℕ} (hi : i < RcConfig.stride) (hi' : i' < RcConfig.stride)
    (h : register c i = register c' i') : c = c' ∧ i = i' := by
  simp only [register, RcConfig.stride] at h hi hi'
  omega

theorem setConf_conf {c i : ℕ} (hi : i < RcConfig.stride) (hindex : index < RcConfig.stride) :
    (s.setConf c i value).conf channel index =
      if channel = c ∧ index = i then value else s.conf channel index := by
  unfold Io.setConf Io.conf
  dsimp only
  split
  case isTrue h =>
    rw [h.1, h.2, Function.update_self]
  case isFalse h =>
    exact Function.update_of_ne (fun heq => h (register_inj hindex hi heq)) _ _

/-- What a value written into a register of a channel leaves. -/
structure Rewritten (s t : Io G) (channel index : ℕ) (value : UInt16) : Prop where
  safety : t.hasStatus StatusFlag.safetyOff = s.hasStatus StatusFlag.safetyOff
  other : ∀ c ≠ channel, ∀ i < RcConfig.stride, t.conf c i = s.conf c i
  same : ∀ i < RcConfig.options, t.conf channel i = if i = index then value else s.conf channel i
  /-- The flag is not cleared by the other registers. -/
  enabled : index ≠ RcConfig.options → t.channelEnabled channel = s.channelEnabled channel
  /-- The options enable a channel with limits in order only. -/
  checked : index = RcConfig.options → t.channelEnabled channel = true → InOrder (s.conf channel)

theorem inOrder_of_configErrors (h : configErrors s channel = 0) : InOrder (s.conf channel) := by
  simp only [configErrors, Nat.add_eq_zero_iff] at h
  rcases h with ⟨⟨⟨⟨⟨hmin, hmax⟩, hlow⟩, hhigh⟩, hzone⟩, -⟩
  refine ⟨?_, ?_, ?_, ?_, ?_⟩
  · simpa using hmin
  · simpa using hlow
  · simpa using hhigh
  · simpa using hmax
  · simpa using hzone

theorem raise_initOk_safety :
    (s.raise StatusFlag.initOk).hasStatus StatusFlag.safetyOff =
      s.hasStatus StatusFlag.safetyOff := by
  unfold Io.hasStatus Io.raise Io.setStatusFlags
  rw [hasFlag_or, show hasFlag StatusFlag.initOk StatusFlag.safetyOff = false by decide,
    Bool.or_false]

theorem clear_initOk_safety :
    (s.clear StatusFlag.initOk).hasStatus StatusFlag.safetyOff = s.hasStatus StatusFlag.safetyOff :=
  hasFlag_and_not _ (by decide)

/-- The options are stored, with the flag only if there is no error; the safety switch stays. -/
theorem setOptions_cases (s : Io G) (channel : ℕ) (value : UInt16) :
    (setOptions s channel value).hasStatus StatusFlag.safetyOff = s.hasStatus StatusFlag.safetyOff ∧
      ∃ options, (setOptions s channel value).rcInputConfig =
          (s.setConf channel RcConfig.options options).rcInputConfig ∧
        (hasFlag options RcConfig.optionsEnabled = true → InOrder (s.conf channel)) := by
  have hcleared : ∀ v, hasFlag (v &&& ~~~RcConfig.optionsEnabled) RcConfig.optionsEnabled = true →
      InOrder (s.conf channel) := by
    intro v hv
    rw [hasFlag_and_not_self] at hv
    cases hv
  unfold setOptions
  dsimp only
  split
  · split
    case isTrue =>
      exact ⟨clear_initOk_safety.trans raise_initOk_safety, _, rfl, hcleared _⟩
    case isFalse herrors =>
      split
      · exact ⟨raise_initOk_safety, _, rfl, hcleared _⟩
      · refine ⟨raise_initOk_safety, _, Function.update_idem .., fun _ => ?_⟩
        refine (inOrder_of_configErrors (not_not.1 herrors)).congr fun i hi => ?_
        have hlt : i < RcConfig.options := Nat.lt_succ_of_lt hi
        refine (setConf_conf (by decide) (Nat.lt_succ_of_lt hlt)).trans (if_neg ?_)
        exact fun h => absurd h.2 hlt.ne
  · exact ⟨raise_initOk_safety, _, rfl, hcleared _⟩

theorem setRcConfig_none (h : rcInputChannels ≤ channel) :
    setRcConfig s (register channel index) value = none := by
  have hdiv : rcInputChannels ≤ register channel index / RcConfig.stride := by
    simp only [register, RcConfig.stride]
    omega
  unfold setRcConfig
  dsimp only
  rw [if_pos hdiv]

theorem setConf_options_of_ne {c i : ℕ} {kept : UInt16} (hi : i < RcConfig.stride)
    (hne : ¬(c = channel ∧ i = RcConfig.options)) :
    (s.setConf channel RcConfig.options kept).conf c i = s.conf c i :=
  (setConf_conf (by decide) hi).trans (if_neg hne)

theorem setOptions_rewritten (s : Io G) (channel : ℕ) (kept value : UInt16) :
    Rewritten s (setOptions (s.setConf channel RcConfig.options kept) channel value) channel
      RcConfig.options value := by
  rcases setOptions_cases (s.setConf channel RcConfig.options kept) channel value with
    ⟨hsafety, options, hconfig, horder⟩
  have hconf : ∀ c, ∀ i < RcConfig.stride,
      (setOptions (s.setConf channel RcConfig.options kept) channel value).conf c i =
        if c = channel ∧ i = RcConfig.options then options else s.conf c i := by
    intro c i hi
    have hset : ((s.setConf channel RcConfig.options kept).setConf channel RcConfig.options
          options).conf c i =
        if c = channel ∧ i = RcConfig.options then options
        else (s.setConf channel RcConfig.options kept).conf c i := setConf_conf (by decide) hi
    refine (congrFun hconfig _).trans (hset.trans ?_)
    split
    · rfl
    · exact setConf_options_of_ne hi ‹_›
  refine ⟨hsafety, ?_, ?_, fun hne => absurd rfl hne, fun _ henabled => ?_⟩
  · intro c hc i hi
    rw [hconf c i hi, if_neg fun heq => hc heq.1]
  · intro i hi
    rw [hconf channel i (Nat.lt_succ_of_lt hi), if_neg fun heq => hi.ne heq.2, if_neg hi.ne]
  · have hflag : hasFlag options RcConfig.optionsEnabled = true := by
      rw [Io.channelEnabled, hconf channel _ (by decide), if_pos ⟨rfl, rfl⟩] at henabled
      exact henabled
    refine (horder hflag).congr fun i hi => ?_
    have hlt : i < RcConfig.options := Nat.lt_succ_of_lt hi
    exact setConf_options_of_ne (Nat.lt_succ_of_lt hlt) fun heq => hlt.ne heq.2

theorem setConf_rewritten {kept : UInt16} (hindex : index < RcConfig.stride)
    (hother : index ≠ RcConfig.options)
    (hkept : hasFlag kept RcConfig.optionsEnabled = s.channelEnabled channel) :
    Rewritten s ((s.setConf channel RcConfig.options kept).setConf channel index value) channel
      index value := by
  have hconf : ∀ c, ∀ i < RcConfig.stride,
      ((s.setConf channel RcConfig.options kept).setConf channel index value).conf c i =
        if c = channel ∧ i = index then value
        else (s.setConf channel RcConfig.options kept).conf c i :=
    fun c i hi => setConf_conf hindex hi
  refine ⟨rfl, ?_, ?_, ?_, fun heq => absurd heq hother⟩
  · intro c hc i hi
    rw [hconf c i hi, if_neg fun heq => hc heq.1]
    exact setConf_options_of_ne hi fun heq => hc heq.1
  · intro i hi
    rw [hconf channel i (Nat.lt_succ_of_lt hi),
      setConf_options_of_ne (Nat.lt_succ_of_lt hi) fun heq => hi.ne heq.2]
    simp
  · intro _
    rw [Io.channelEnabled, hconf channel _ (by decide), if_neg fun heq => hother heq.2.symm,
      setConf_conf (by decide) (by decide), if_pos ⟨rfl, rfl⟩, hkept]

theorem setRcConfig_rewritten (s : Io G) (value : UInt16) (h : channel < rcInputChannels)
    (hindex : index < RcConfig.stride) :
    ∃ t, setRcConfig s (register channel index) value = some t ∧
      Rewritten s t channel index value := by
  have hdiv : register channel index / RcConfig.stride = channel := by
    simp only [register, RcConfig.stride] at hindex ⊢
    omega
  have hsub : register channel index - channel * RcConfig.stride = index :=
    Nat.add_sub_cancel_left ..
  unfold setRcConfig
  dsimp only
  rw [hdiv, hsub, if_neg (not_le.2 h)]
  split
  case isTrue hoptions =>
    subst hoptions
    exact ⟨_, rfl, setOptions_rewritten s channel _ value⟩
  case isFalse hother =>
    -- the flag as it is kept by the source
    exact ⟨_, rfl, setConf_rewritten hindex hother (hasFlag_and _ (by decide))⟩

/-! ## Messages to the page -/

@[simp] theorem written_nil (offset r : ℕ) : written offset [] r = none := by
  simp [written]

theorem written_cons (offset r : ℕ) (value : UInt16) (values : List UInt16) :
    written offset (value :: values) r =
      if r = offset then some value else written (offset + 1) values r := by
  unfold written
  by_cases heq : r = offset
  · simp [heq]
  by_cases hlt : offset + 1 ≤ r
  · have hsub : r - offset = r - (offset + 1) + 1 := by omega
    rw [if_pos (by omega), if_neg heq, if_pos hlt, hsub, List.getElem?_cons_succ]
  · rw [if_neg (by omega), if_neg heq, if_neg hlt]

theorem written_of_lt {r : ℕ} (h : r < offset) : written offset values r = none :=
  if_neg (not_le.2 h)

theorem eq_register (offset : ℕ) :
    ∃ c i, i < RcConfig.stride ∧ offset = register c i := by
  refine ⟨offset / RcConfig.stride, offset % RcConfig.stride, Nat.mod_lt _ (by decide), ?_⟩
  simp only [register]
  exact (Nat.div_add_mod' ..).symm

theorem setEach_safetyOff (h : s.hasStatus StatusFlag.safetyOff = true) (offset : ℕ)
    (values : List UInt16) : (setEach board (some .rcConfig) s offset values).1 = s := by
  induction values generalizing offset with
  | nil => rfl
  | cons value values ih =>
    have hone : registersSetOne s board (some .rcConfig) offset value = some s := if_pos h
    rw [setEach, hone]
    exact ih (offset + 1)

/-- What a message leaves of a channel: the values are stored, and the channel is checked again just
when its options are written. -/
structure Overlaid (s t : Io G) (offset : ℕ) (values : List UInt16) (channel : ℕ) : Prop where
  conf : ∀ i < RcConfig.options, t.conf channel i = overlay s offset values channel i
  enabled : written offset values (register channel RcConfig.options) = none →
    t.channelEnabled channel = s.channelEnabled channel
  checked : written offset values (register channel RcConfig.options) ≠ none →
    t.channelEnabled channel = true → InOrder (t.conf channel)

theorem Overlaid.cons_other {u : Io G} {c : ℕ} (hc : c ≠ channel) (hindex : index < RcConfig.stride)
    (h : Rewritten s t channel index value)
    (hrest : Overlaid t u (register channel index + 1) values c) :
    Overlaid s u (register channel index) (value :: values) c := by
  have hwritten : ∀ i < RcConfig.stride,
      written (register channel index) (value :: values) (register c i) =
        written (register channel index + 1) values (register c i) := by
    intro i hi
    rw [written_cons, if_neg fun heq => hc (register_inj hi hindex heq).1]
  have hflag : t.channelEnabled c = s.channelEnabled c :=
    congrArg (hasFlag · _) (h.other c hc _ (by decide))
  have hoptions := hwritten RcConfig.options (by decide)
  refine ⟨fun i hi => ?_, fun hnone => ?_, fun hsome henabled => ?_⟩
  · rw [hrest.conf i hi, overlay, overlay, hwritten i (Nat.lt_succ_of_lt hi),
      h.other c hc i (Nat.lt_succ_of_lt hi)]
  · exact (hrest.enabled (hoptions ▸ hnone)).trans hflag
  · exact hrest.checked (hoptions ▸ hsome) henabled

theorem Overlaid.cons_same {u : Io G} (hindex : index < RcConfig.stride)
    (h : Rewritten s t channel index value)
    (hrest : Overlaid t u (register channel index + 1) values channel) :
    Overlaid s u (register channel index) (value :: values) channel := by
  have hwritten : ∀ i < RcConfig.stride, i ≠ index →
      written (register channel index) (value :: values) (register channel i) =
        written (register channel index + 1) values (register channel i) := by
    intro i hi hne
    rw [written_cons, if_neg fun heq => hne (register_inj hi hindex heq).2]
  have hlater : ∀ i ≤ index,
      written (register channel index + 1) values (register channel i) = none :=
    fun i hi => written_of_lt (Nat.lt_succ_of_le (Nat.add_le_add_left hi _))
  refine ⟨fun i hi => ?_, fun hnone => ?_, fun hsome henabled => ?_⟩
  · rw [hrest.conf i hi, overlay, overlay, h.same i hi]
    by_cases heq : i = index
    · subst heq
      rw [hlater i le_rfl, written_cons, if_pos rfl, if_pos rfl]
      rfl
    · rw [hwritten i (Nat.lt_succ_of_lt hi) heq, if_neg heq]
  · have hne : RcConfig.options ≠ index := by
      rintro rfl
      rw [written_cons, if_pos rfl] at hnone
      cases hnone
    rw [hwritten _ (by decide) hne] at hnone
    exact (hrest.enabled hnone).trans (h.enabled hne.symm)
  · by_cases heq : index = RcConfig.options
    · -- the options come last: the limits are those that were checked
      have hnone : ∀ i < RcConfig.stride,
          written (register channel index + 1) values (register channel i) = none :=
        fun i hi => hlater i (heq ▸ Nat.le_of_lt_succ hi)
      have ht : t.channelEnabled channel = true :=
        (hrest.enabled (hnone _ (by decide))).symm.trans henabled
      refine (h.checked heq ht).congr fun i hi => ?_
      have hlt : i < RcConfig.options := Nat.lt_succ_of_lt hi
      rw [hrest.conf i hlt, overlay, hnone i (Nat.lt_succ_of_lt hlt), h.same i hlt,
        if_neg (heq ▸ hlt.ne)]
      rfl
    · rw [hwritten _ (by decide) (Ne.symm heq)] at hsome
      exact hrest.checked hsome henabled

theorem Overlaid.cons {u : Io G} {c : ℕ} (hindex : index < RcConfig.stride)
    (h : Rewritten s t channel index value)
    (hrest : Overlaid t u (register channel index + 1) values c) :
    Overlaid s u (register channel index) (value :: values) c := by
  by_cases hc : c = channel
  · subst hc
    exact .cons_same hindex h hrest
  · exact .cons_other hc hindex h hrest

theorem overlaid_refl (h : register channel RcConfig.options < offset) :
    Overlaid s s offset values channel := by
  have hnone : ∀ i ≤ RcConfig.options, written offset values (register channel i) = none :=
    fun i hi => written_of_lt (lt_of_le_of_lt (Nat.add_le_add_left hi _) h)
  refine ⟨fun i hi => ?_, fun _ => rfl, fun hsome => absurd (hnone _ le_rfl) hsome⟩
  rw [overlay, hnone i hi.le]
  rfl

theorem setEach_overlaid {c : ℕ} (hc : c < rcInputChannels) :
    ∀ {s : Io G} {offset : ℕ}, s.hasStatus StatusFlag.safetyOff = false →
      Overlaid s (setEach board (some .rcConfig) s offset values).1 offset values c := by
  induction values with
  | nil =>
    intro s offset _
    exact ⟨fun i _ => by simp [overlay, setEach], fun _ => rfl, fun hsome => absurd (by simp) hsome⟩
  | cons value values ih =>
    intro s offset hsafety
    rcases eq_register offset with ⟨channel, index, hindex, rfl⟩
    have hone : registersSetOne s board (some .rcConfig) (register channel index) value =
        setRcConfig s (register channel index) value := if_neg (by simp [hsafety])
    rw [setEach, hone]
    by_cases hchannel : channel < rcInputChannels
    · rcases setRcConfig_rewritten s value hchannel hindex with ⟨t, ht, hrewritten⟩
      rw [ht]
      exact Overlaid.cons hindex hrewritten (ih (hrewritten.safety.trans hsafety))
    · rw [setRcConfig_none (not_lt.1 hchannel)]
      refine overlaid_refl ?_
      simp only [register, RcConfig.stride, RcConfig.options]
      omega

theorem setEach_checked (hs : Checked s) (hsafety : s.hasStatus StatusFlag.safetyOff = false)
    (offset : ℕ) (values : List UInt16) :
    Checked (setEach board (some .rcConfig) s offset values).1 ↔ ¬Disorders s offset values := by
  have hall : ∀ c < rcInputChannels,
      Overlaid s (setEach board (some .rcConfig) s offset values).1 offset values c :=
    fun c hc => setEach_overlaid hc hsafety
  constructor
  · rintro hchecked ⟨c, hc, henabled, hnone, -, horder⟩
    have h := hall c hc
    have ht := hchecked c hc ((h.enabled hnone).trans henabled)
    exact horder (ht.congr fun i hi => h.conf i (Nat.lt_succ_of_lt hi))
  · intro hno c hc henabled
    have h := hall c hc
    by_cases hnone : written offset values (register c RcConfig.options) = none
    case neg => exact h.checked hnone henabled
    have hbefore : s.channelEnabled c = true := (h.enabled hnone).symm.trans henabled
    by_cases hsome : ∃ i < RcConfig.assignment, written offset values (register c i) ≠ none
    · have horder := not_not.1 fun hbad => hno ⟨c, hc, hbefore, hnone, hsome, hbad⟩
      exact horder.congr fun i hi => (h.conf i (Nat.lt_succ_of_lt hi)).symm
    · refine (hs c hc hbefore).congr fun i hi => ?_
      have hi' : written offset values (register c i) = none :=
        not_not.1 fun hne => hsome ⟨i, hi, hne⟩
      rw [h.conf i (Nat.lt_succ_of_lt hi), overlay, hi']
      rfl

/-! ## Other pages -/

theorem setSetupRegister_rcInputConfig (h : setSetupRegister s board offset value = some t) :
    t.rcInputConfig = s.rcInputConfig := by
  have hrates : ∀ map defaultrate altrate,
      (pwmConfigureRates s board map defaultrate altrate).rcInputConfig = s.rcInputConfig := by
    intro map defaultrate altrate
    unfold pwmConfigureRates
    split
    · rfl
    · dsimp only [Io.setSetup]
      split <;> rfl
  unfold setSetupRegister at h
  split at h
  all_goals try cases h
  all_goals try rfl
  · unfold setArming
    dsimp only
    split <;> rfl
  · exact hrates ..
  · exact hrates ..
  · exact hrates ..
  · split at h
    · cases h
      rfl
    · cases h
  · split at h
    · cases h
      rfl
    · cases h
  · split <;> rfl
  · split at h
    · cases h
      rfl
    · cases h

theorem registersSetOne_rcInputConfig {page : Option Page} (hpage : page ≠ some .rcConfig)
    (h : registersSetOne s board page offset value = some t) :
    t.rcInputConfig = s.rcInputConfig := by
  unfold registersSetOne at h
  split at h
  · cases h
    split
    · rfl
    split
    · unfold setStatusRegister
      dsimp only
      split <;> split <;> try split
      all_goals rfl
    · rfl
  · exact setSetupRegister_rcInputConfig h
  · exact absurd rfl hpage
  · cases h
    rfl
  · cases h

theorem setEach_rcInputConfig {page : Option Page} (hpage : page ≠ some .rcConfig) :
    ∀ {s : Io G} {offset : ℕ},
      (setEach board page s offset values).1.rcInputConfig = s.rcInputConfig := by
  induction values with
  | nil => exact rfl
  | cons value values ih =>
    intro s offset
    rw [setEach]
    cases h : registersSetOne s board page offset value with
    | none => rfl
    | some t => exact ih.trans (registersSetOne_rcInputConfig hpage h)

theorem registersSet_rcInputConfig {page offset : UInt8} (h : Page.ofNumber page ≠ some .rcConfig) :
    (registersSet s board page offset values).1.rcInputConfig = s.rcInputConfig := by
  unfold registersSet
  dsimp only
  split
  all_goals try rfl
  · unfold setFailsafePwm
    dsimp only
    split <;> rfl
  · unfold setDisarmedPwm
    dsimp only
    split <;> rfl
  · unfold setMixerload
    dsimp only
    split <;> rfl
  · exact setEach_rcInputConfig h

/-! ## All runs -/

theorem Checked.congr (hs : Checked s) (h : t.rcInputConfig = s.rcInputConfig) : Checked t := by
  unfold Checked Io.channelEnabled Io.conf at hs ⊢
  rwa [h]

theorem configStep_checked (hs : Checked s) (e : ConfigEvent) :
    Checked (configStep s e) ↔ ¬DisordersChannel s e := by
  cases e with
  | statusFlags v => exact iff_of_true (hs.congr rfl) id
  | registersSet board page offset values =>
    by_cases hpage : Page.ofNumber page = some .rcConfig
    case neg => exact iff_of_true (hs.congr (registersSet_rcInputConfig hpage)) fun h => hpage h.1
    have hset : configStep s (.registersSet board page offset values) =
        (setEach board (some .rcConfig) s offset.toNat (values.take (255 - offset.toNat))).1 := by
      unfold configStep registersSet
      simp only [hpage]
    rw [hset]
    cases hsafety : s.hasStatus StatusFlag.safetyOff with
    | true =>
      rw [setEach_safetyOff hsafety]
      exact iff_of_true hs fun h => absurd (hsafety.symm.trans h.2.1) (by decide)
    | false =>
      rw [setEach_checked hs hsafety, not_iff_not]
      exact ⟨fun h => ⟨hpage, hsafety, h⟩, fun h => h.2.2⟩

theorem initial_checked (ops : MixerLoader G) : Checked (Io.initial ops) := by
  have hdefault : ∀ c < rcInputChannels, InOrder fun i => rcConfigDefault (register c i) := by
    decide
  exact fun c hc _ => hdefault c hc

/-- Every enabled channel has its limits in order after every message, exactly as long as no message
puts the limits of an enabled channel out of order without writing its options. -/
theorem channels_checked (ops : MixerLoader G) (es : List ConfigEvent) :
    (∀ t ∈ visited configStep (Io.initial ops) es, Checked t) ↔
      AllSteps configStep (fun s e => ¬DisordersChannel s e) (Io.initial ops) es := by
  have hstep : ∀ (s : Io G) (e : ConfigEvent),
      Checked s → (Checked (configStep s e) ↔ ¬DisordersChannel s e) :=
    fun s e hs => configStep_checked hs e
  exact forall_visited_iff_allSteps hstep (initial_checked ops)

/-- The least value of a channel above its greatest: the channel is still enabled. -/
theorem unchecked_channel_enabled : ¬∀ (ops : MixerLoader Unit) (es : List ConfigEvent),
    ∀ t ∈ visited configStep (Io.initial ops) es, Checked t := by
  intro hall
  have hlast := hall ⟨(), fun g _ => (g, 0)⟩
    [.registersSet idleBoard 53 0 [3000]] _ (exec_mem_visited ..)
  have horder := hlast 0 (by decide) (by decide)
  exact absurd horder.2.1 (by decide)

end Px4io
end DtPhm
