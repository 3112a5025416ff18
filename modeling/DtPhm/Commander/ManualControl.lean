import DtPhm.Lib.Run
import Mathlib.Data.List.Chain

/-!
# ManualControl — arming and disarming by stick, switch or button

In every cycle with new data from the remote control, the commander asks `wantsDisarm` and then
`wantsArm`.  A gesture with the stick or a press of the button must last for some time, which two
hysteresis objects measure.

* `Hysteresis`, `setStateAndUpdate` — a state that follows a request with a delay;
* `wantsDisarm`, `wantsArm`, `cycle` — the two questions;
* `Held`, `held_raise` — a request in terms of the press that it belongs to;
* `PressTracks` — what holds of both objects during a press;
* `one_press_one_action` — what a press of the button asks for.

The comparisons of stick positions, which are done in floating point, are inputs.
-/

namespace DtPhm
namespace Commander
namespace Manual

open Lib

/-! ## Hysteresis -/

/-- `systemlib::Hysteresis`. -/
structure Hysteresis where
  lastTimeToChangeState : UInt64
  timeFromTrueUs : UInt64
  timeFromFalseUs : UInt64
  state : Bool
  requestedState : Bool

/-- The constructor. -/
def Hysteresis.init (initState : Bool) : Hysteresis := ⟨0, 0, 0, initState, initState⟩

/-- `set_hysteresis_time_from`. -/
def Hysteresis.setHysteresisTimeFrom (h : Hysteresis) (fromState : Bool)
    (newHysteresisTimeUs : UInt64) :
    Hysteresis :=
  if fromState then { h with timeFromTrueUs := newHysteresisTimeUs }
  else { h with timeFromFalseUs := newHysteresisTimeUs }

/-- `update`. -/
def Hysteresis.update (h : Hysteresis) (nowUs : UInt64) : Hysteresis :=
  if h.requestedState ≠ h.state then
    let elapsed := nowUs - h.lastTimeToChangeState
    if h.state && !h.requestedState then
      if h.timeFromTrueUs ≤ elapsed then { h with state := false } else h
    else if !h.state && h.requestedState then
      if h.timeFromFalseUs ≤ elapsed then { h with state := true } else h
    else h
  else h

/-- `set_state_and_update`. -/
def Hysteresis.setStateAndUpdate (h : Hysteresis) (newState : Bool) (nowUs : UInt64) : Hysteresis :=
  let h : Hysteresis :=
    if newState ≠ h.state then
      if newState ≠ h.requestedState then
        { h with requestedState := newState, lastTimeToChangeState := nowUs }
      else h
    else { h with requestedState := h.state }
  h.update nowUs

/-! ## Calls -/

/-- `manual_control_switches_s::SWITCH_POS`. -/
inductive SwitchPos
  | none
  | on
  | middle
  | off
  deriving DecidableEq, Repr

/-- What a call reads: the arm switch and whether it is a button, the comparisons of the stick, the
vehicle and its modes, and the time. -/
structure Call where
  armSwitch : SwitchPos
  armSwisbtn : Bool
  throttleLow : Bool
  yawLeft : Bool
  yawRight : Bool
  armed : Bool
  landed : Bool
  rotaryWing : Bool
  flagControlManualEnabled : Bool
  flagControlClimbRateEnabled : Bool
  now : UInt64

def Call.useStick (c : Call) : Bool := c.armSwitch == .none

def Call.useButton (c : Call) : Bool := !c.useStick && c.armSwisbtn

def Call.useSwitch (c : Call) : Bool := !c.useStick && !c.useButton

def Call.armButtonPressed (c : Call) : Bool := c.armSwitch == .on && c.useButton

def Call.mcManualThrustMode (c : Call) : Bool :=
  c.rotaryWing && c.flagControlManualEnabled && !c.flagControlClimbRateEnabled

/-- The state of `ManualControl` that the two questions share. -/
structure ManualControl where
  stickDisarmHysteresis : Hysteresis
  stickArmHysteresis : Hysteresis
  lastArmSwitch : SwitchPos

/-- `wantsDisarm`. -/
def wantsDisarm (m : ManualControl) (c : Call) : ManualControl × Bool :=
  let stickInLowerLeft := c.useStick && c.throttleLow && c.yawLeft
  let armSwitchToDisarmTransition :=
    c.useSwitch && m.lastArmSwitch == .on && c.armSwitch == .off
  if c.armed && (c.landed || c.mcManualThrustMode) &&
      (stickInLowerLeft || c.armButtonPressed || armSwitchToDisarmTransition) then
    let disarm := m.stickDisarmHysteresis.setStateAndUpdate true c.now
    let disarmTrigger :=
      !m.stickDisarmHysteresis.state && disarm.state && !m.stickArmHysteresis.state
    ({ m with stickDisarmHysteresis := disarm }, disarmTrigger || armSwitchToDisarmTransition)
  else if !c.armButtonPressed then
    ({ m with stickDisarmHysteresis := m.stickDisarmHysteresis.setStateAndUpdate false c.now },
      false)
  else (m, false)

/-- `wantsArm`, which also keeps the switch for the next cycle. -/
def wantsArm (m : ManualControl) (c : Call) : ManualControl × Bool :=
  let stickInLowerRight := c.useStick && c.throttleLow && c.yawRight
  let armSwitchToArmTransition :=
    c.useSwitch && m.lastArmSwitch == .off && c.armSwitch == .on
  let (m, ret) : ManualControl × Bool :=
    if !c.armed && (stickInLowerRight || c.armButtonPressed || armSwitchToArmTransition) then
      let arm := m.stickArmHysteresis.setStateAndUpdate true c.now
      let armTrigger := !m.stickArmHysteresis.state && arm.state && !m.stickDisarmHysteresis.state
      ({ m with stickArmHysteresis := arm }, armTrigger || armSwitchToArmTransition)
    else if !c.armButtonPressed then
      ({ m with stickArmHysteresis := m.stickArmHysteresis.setStateAndUpdate false c.now }, false)
    else (m, false)
  ({ m with lastArmSwitch := c.armSwitch }, ret)

/-- The start, with the time that a gesture must last. -/
def ManualControl.init (hysteresisTime : UInt64) : ManualControl where
  stickDisarmHysteresis := (Hysteresis.init false).setHysteresisTimeFrom false hysteresisTime
  stickArmHysteresis := (Hysteresis.init false).setHysteresisTimeFrom false hysteresisTime
  lastArmSwitch := .none

/-! ## Cycles -/

/-- A cycle: both calls see the same switches, but the vehicle may change in between. -/
structure Cycle where
  disarm : Call
  arm : Call
  same : disarm.armSwitch = arm.armSwitch ∧ disarm.armSwisbtn = arm.armSwisbtn

def cycle (m : ManualControl) (c : Cycle) : ManualControl :=
  (wantsArm (wantsDisarm m c.disarm).1 c.arm).1

/-- The calls of a cycle, each with its time and what it returns. -/
def returns (m : ManualControl) (c : Cycle) : List (UInt64 × Bool) :=
  [(c.disarm.now, (wantsDisarm m c.disarm).2),
    (c.arm.now, (wantsArm (wantsDisarm m c.disarm).1 c.arm).2)]

/-- Button mode, with the button up or down. -/
def Cycle.Released (c : Cycle) : Prop := c.disarm.useButton = true ∧ c.disarm.armSwitch ≠ .on

def Cycle.Pressed (c : Cycle) : Prop := c.disarm.useButton = true ∧ c.disarm.armSwitch = .on

def Cycle.times (c : Cycle) : List UInt64 := [c.disarm.now, c.arm.now]

/-- A press: both states start as false, at most one call returns true, and not before the button
has been held for so long. -/
structure ActsOnce (hysteresisTime : UInt64) (m : ManualControl) (press : List Cycle) : Prop where
  disarm : m.stickDisarmHysteresis.state = false
  arm : m.stickArmHysteresis.state = false
  once : (outputs cycle returns m press).countP (fun r => r.2) ≤ 1
  held : ∀ r ∈ outputs cycle returns m press, r.2 = true → ∀ first ∈ press.head?,
    first.disarm.now.toNat + hysteresisTime.toNat ≤ r.1.toNat

/-! ## What a hysteresis does -/

variable {h : Hysteresis} {T start now now' : UInt64}

/-- States become false at once, and true after a time. -/
structure Timed (T : UInt64) (h : Hysteresis) : Prop where
  fromTrue : h.timeFromTrueUs = 0
  fromFalse : h.timeFromFalseUs = T

/-- A state that is requested was requested since `start`. -/
structure Held (T start now : UInt64) (h : Hysteresis) : Prop extends Timed T h where
  request : h.state = false → h.requestedState = true →
    start ≤ h.lastTimeToChangeState ∧ h.lastTimeToChangeState ≤ now

theorem Hysteresis.update_timed (ht : Timed T h) (now : UInt64) : Timed T (h.update now) := by
  unfold Hysteresis.update
  split
  · dsimp only
    split
    · split
      · exact ⟨ht.fromTrue, ht.fromFalse⟩
      · exact ht
    · split
      · split
        · exact ⟨ht.fromTrue, ht.fromFalse⟩
        · exact ht
      · exact ht
  · exact ht

theorem Hysteresis.setStateAndUpdate_timed (ht : Timed T h) (newState : Bool) (now : UInt64) :
    Timed T (h.setStateAndUpdate newState now) := by
  unfold Hysteresis.setStateAndUpdate
  apply Hysteresis.update_timed
  split
  · split
    · exact ⟨ht.fromTrue, ht.fromFalse⟩
    · exact ht
  · exact ⟨ht.fromTrue, ht.fromFalse⟩

theorem Hysteresis.setStateAndUpdate_false (ht : Timed T h) (now : UInt64) :
    (h.setStateAndUpdate false now).state = false ∧
      (h.setStateAndUpdate false now).requestedState = false := by
  obtain ⟨last, fromTrue, fromFalse, state, requested⟩ := h
  obtain rfl : fromTrue = 0 := ht.fromTrue
  have hzero : ∀ x : UInt64, 0 ≤ x := fun x => UInt64.le_iff_toNat_le.2 (Nat.zero_le _)
  cases state with
  | false => exact ⟨rfl, rfl⟩
  | true =>
      cases requested with
      | false => simp [setStateAndUpdate, Hysteresis.update, hzero]
      | true => simp [setStateAndUpdate, Hysteresis.update]

theorem Hysteresis.setStateAndUpdate_of_state (hstate : h.state = true) (now : UInt64) :
    (h.setStateAndUpdate true now).state = true := by
  obtain ⟨last, fromTrue, fromFalse, state, requested⟩ := h
  obtain rfl : state = true := hstate
  rfl

theorem held_raise (hheld : Held T start now h) (hstart : start ≤ now') (hnow : now ≤ now') :
    Held T start now' (h.setStateAndUpdate true now') ∧
      (h.state = false → (h.setStateAndUpdate true now').state = true →
        start.toNat + T.toNat ≤ now'.toNat) := by
  have htimed := Hysteresis.setStateAndUpdate_timed hheld.toTimed true now'
  cases hstate : h.state with
  | true =>
      have hkeep := Hysteresis.setStateAndUpdate_of_state hstate now'
      exact ⟨⟨htimed, fun hnot => by rw [hkeep] at hnot; cases hnot⟩, fun hnot => by cases hnot⟩
  | false =>
      -- the request is at least as old as the press
      obtain ⟨last, hlast, hrequest⟩ : ∃ last : UInt64, (start ≤ last ∧ last ≤ now') ∧
          h.setStateAndUpdate true now' =
            if T ≤ now' - last then ⟨last, 0, T, true, true⟩ else ⟨last, 0, T, false, true⟩ := by
        obtain ⟨last, fromTrue, fromFalse, state, requested⟩ := h
        obtain rfl : state = false := hstate
        obtain rfl : fromTrue = 0 := hheld.fromTrue
        obtain rfl : fromFalse = T := hheld.fromFalse
        cases requested with
        | true =>
            obtain ⟨hsince, hbefore⟩ := hheld.request rfl rfl
            exact ⟨last, ⟨hsince, UInt64.le_trans hbefore hnow⟩, rfl⟩
        | false => exact ⟨now', ⟨hstart, UInt64.le_refl _⟩, rfl⟩
      rw [hrequest]
      split
      · rename_i helapsed
        refine ⟨⟨⟨rfl, rfl⟩, fun hnot => by cases hnot⟩, fun _ _ => ?_⟩
        have hsub := UInt64.toNat_sub_of_le _ _ hlast.2
        rw [UInt64.le_iff_toNat_le] at helapsed
        have h1 := UInt64.le_iff_toNat_le.1 hlast.1
        have h2 := UInt64.le_iff_toNat_le.1 hlast.2
        omega
      · exact ⟨⟨⟨rfl, rfl⟩, fun _ _ => hlast⟩, fun _ hnot => by cases hnot⟩

/-! ## What a press does -/

variable {m : ManualControl} {c : Call}

/-- Both objects during a press that began at `start`. -/
structure PressTracks (T start now : UInt64) (m : ManualControl) : Prop where
  disarm : Held T start now m.stickDisarmHysteresis
  arm : Held T start now m.stickArmHysteresis

/-- One of the states has become true. -/
def Fired (m : ManualControl) : Prop :=
  m.stickDisarmHysteresis.state = true ∨ m.stickArmHysteresis.state = true

/-- What a call does during a press. -/
structure CallKeeps (T start now : UInt64) (m : ManualControl) (r : ManualControl × Bool) :
    Prop where
  tracks : PressTracks T start now r.1
  fired : Fired m → Fired r.1
  acts : r.2 = true → ¬ Fired m ∧ Fired r.1 ∧ start.toNat + T.toNat ≤ now.toNat

theorem useSwitch_of_pressed (hpressed : c.armButtonPressed = true) : c.useSwitch = false := by
  have hbutton : c.useButton = true := (Bool.and_eq_true_iff.1 hpressed).2
  simp [Call.useSwitch, hbutton]

theorem useStick_of_pressed (hpressed : c.armButtonPressed = true) : c.useStick = false := by
  have hbutton : c.useButton = true := (Bool.and_eq_true_iff.1 hpressed).2
  simpa [Call.useButton] using (Bool.and_eq_true_iff.1 hbutton).1

theorem Held.later (hheld : Held T start now h) (hnow : now ≤ now') : Held T start now' h :=
  ⟨hheld.toTimed, fun hstate hrequest =>
    ⟨(hheld.request hstate hrequest).1, UInt64.le_trans (hheld.request hstate hrequest).2 hnow⟩⟩

theorem PressTracks.later (ht : PressTracks T start now m) (hnow : now ≤ now') :
    PressTracks T start now' m := ⟨ht.disarm.later hnow, ht.arm.later hnow⟩

theorem callKeeps_refl (ht : PressTracks T start now m) : CallKeeps T start now m (m, false) :=
  ⟨ht, id, nofun⟩

theorem wantsDisarm_keeps (ht : PressTracks T start now m) (hpressed : c.armButtonPressed = true)
    (hstart : start ≤ c.now) (hnow : now ≤ c.now) :
    CallKeeps T start c.now m (wantsDisarm m c) := by
  obtain ⟨hraised, hacts⟩ := held_raise ht.disarm hstart hnow
  have hlater := ht.later hnow
  unfold wantsDisarm
  rw [useStick_of_pressed hpressed, useSwitch_of_pressed hpressed, hpressed]
  simp only [Bool.false_and, Bool.or_false, Bool.false_or, Bool.and_true, Bool.not_true]
  split
  · refine ⟨⟨hraised, hlater.arm⟩, ?_, ?_⟩
    · rintro (hfired | hfired)
      · exact .inl (Hysteresis.setStateAndUpdate_of_state hfired c.now)
      · exact .inr hfired
    · intro htrigger
      simp only [Bool.and_eq_true, Bool.not_eq_true'] at htrigger
      obtain ⟨⟨hlast, hstate⟩, hother⟩ := htrigger
      refine ⟨?_, .inl hstate, hacts hlast hstate⟩
      rintro (hfired | hfired)
      · rw [hlast] at hfired
        cases hfired
      · rw [hother] at hfired
        cases hfired
  · exact callKeeps_refl hlater

theorem wantsArm_keeps (ht : PressTracks T start now m) (hpressed : c.armButtonPressed = true)
    (hstart : start ≤ c.now) (hnow : now ≤ c.now) : CallKeeps T start c.now m (wantsArm m c) := by
  obtain ⟨hraised, hacts⟩ := held_raise ht.arm hstart hnow
  have hlater := ht.later hnow
  unfold wantsArm
  rw [useStick_of_pressed hpressed, useSwitch_of_pressed hpressed, hpressed]
  simp only [Bool.false_and, Bool.or_false, Bool.false_or, Bool.and_true, Bool.not_true]
  cases c.armed with
  | true => exact ⟨⟨hlater.disarm, hlater.arm⟩, id, nofun⟩
  | false =>
      refine ⟨⟨hlater.disarm, hraised⟩, ?_, ?_⟩
      · rintro (hfired | hfired)
        · exact .inl hfired
        · exact .inr (Hysteresis.setStateAndUpdate_of_state hfired c.now)
      · intro htrigger
        simp only [Bool.not_false, if_true, Bool.and_eq_true, Bool.not_eq_true'] at htrigger
        obtain ⟨⟨hlast, hstate⟩, hother⟩ := htrigger
        refine ⟨?_, .inr hstate, hacts hlast hstate⟩
        rintro (hfired | hfired)
        · rw [hother] at hfired
          cases hfired
        · rw [hlast] at hfired
          cases hfired

theorem Cycle.useButton_arm (c : Cycle) : c.arm.useButton = c.disarm.useButton := by
  obtain ⟨hswitch, hswisbtn⟩ := c.same
  simp [Call.useButton, Call.useStick, hswitch, hswisbtn]

/-- The two questions. -/
inductive Ask
  | disarm (c : Call)
  | arm (c : Call)

def Ask.call : Ask → Call
  | .disarm c => c
  | .arm c => c

def ask (m : ManualControl) : Ask → ManualControl × Bool
  | .disarm c => wantsDisarm m c
  | .arm c => wantsArm m c

def Cycle.asks (c : Cycle) : List Ask := [.disarm c.disarm, .arm c.arm]

/-- The answers to a list of questions. -/
def answers : ManualControl → List Ask → List (UInt64 × Bool) :=
  outputs (fun m a => (ask m a).1) fun m a => [(a.call.now, (ask m a).2)]

theorem outputs_cycle (m : ManualControl) (press : List Cycle) :
    outputs cycle returns m press = answers m (press.flatMap Cycle.asks) := by
  induction press generalizing m with
  | nil => rfl
  | cons c press ih =>
      rw [outputs, ih]
      rfl

theorem ask_keeps {a : Ask} (ht : PressTracks T start now m)
    (hpressed : a.call.armButtonPressed = true)
    (hstart : start ≤ a.call.now) (hnow : now ≤ a.call.now) :
    CallKeeps T start a.call.now m (ask m a) := by
  cases a with
  | disarm c => exact wantsDisarm_keeps ht hpressed hstart hnow
  | arm c => exact wantsArm_keeps ht hpressed hstart hnow

theorem asks_pressed {press : List Cycle} (hpress : ∀ c ∈ press, c.Pressed) :
    ∀ a ∈ press.flatMap Cycle.asks, a.call.armButtonPressed = true := by
  intro a ha
  obtain ⟨c, hc, ha⟩ := List.mem_flatMap.1 ha
  obtain ⟨hbutton, hon⟩ := hpress c hc
  rcases List.mem_pair.1 ha with rfl | rfl
  · simp [Ask.call, Call.armButtonPressed, hbutton, hon]
  · have hbutton' : c.arm.useButton = true := c.useButton_arm.trans hbutton
    simp [Ask.call, Call.armButtonPressed, hbutton', ← c.same.1, hon]

theorem answers_press : ∀ {asks : List Ask} {m : ManualControl} {now : UInt64},
    PressTracks T start now m → start ≤ now → (∀ a ∈ asks, a.call.armButtonPressed = true) →
    (now :: asks.map fun a => a.call.now).IsChain (· ≤ ·) →
    (Fired m → (answers m asks).countP (fun r => r.2) = 0) ∧
      (answers m asks).countP (fun r => r.2) ≤ 1 ∧
      ∀ r ∈ answers m asks, r.2 = true → start.toNat + T.toNat ≤ r.1.toNat := by
  intro asks
  induction asks with
  | nil =>
      intro m now _ _ _ _
      exact ⟨fun _ => rfl, Nat.zero_le _, fun r hr => absurd hr List.not_mem_nil⟩
  | cons a asks ih =>
      intro m now ht hstart hpressed hchain
      rw [List.map_cons, List.isChain_cons_cons] at hchain
      have hsince := UInt64.le_trans hstart hchain.1
      obtain ⟨htracks, hfired, hacts⟩ :=
        ask_keeps ht (hpressed a List.mem_cons_self) hsince hchain.1
      obtain ⟨hnone, honce, hheld⟩ := ih htracks hsince
        (fun b hb => hpressed b (List.mem_cons_of_mem _ hb)) hchain.2
      have hsplit : answers m (a :: asks) = (a.call.now, (ask m a).2) :: answers (ask m a).1 asks :=
        rfl
      rw [hsplit, List.countP_cons]
      dsimp only
      refine ⟨fun hm => ?_, ?_, ?_⟩
      · -- a state is true already
        have hret : (ask m a).2 = false := by
          cases hret : (ask m a).2 with
          | false => rfl
          | true => exact absurd hm (hacts hret).1
        rw [hnone (hfired hm), hret]
        rfl
      · cases hret : (ask m a).2 with
        | true =>
            rw [hnone (hacts hret).2.1]
            exact Nat.le_refl 1
        | false => exact honce
      · intro r hr htrue
        rcases List.mem_cons.1 hr with rfl | hr
        · exact (hacts htrue).2.2
        · exact hheld r hr htrue

/-! ## Between presses -/

/-- Neither object has a state or a request. -/
structure Quiet (m : ManualControl) : Prop where
  disarm : m.stickDisarmHysteresis.state = false ∧ m.stickDisarmHysteresis.requestedState = false
  arm : m.stickArmHysteresis.state = false ∧ m.stickArmHysteresis.requestedState = false

/-- The times of both objects are kept. -/
structure BothTimed (T : UInt64) (m : ManualControl) : Prop where
  disarm : Timed T m.stickDisarmHysteresis
  arm : Timed T m.stickArmHysteresis

theorem wantsDisarm_timed (ht : BothTimed T m) (c : Call) : BothTimed T (wantsDisarm m c).1 := by
  unfold wantsDisarm
  dsimp only
  split
  · exact ⟨Hysteresis.setStateAndUpdate_timed ht.disarm _ _, ht.arm⟩
  · split
    · exact ⟨Hysteresis.setStateAndUpdate_timed ht.disarm _ _, ht.arm⟩
    · exact ht

theorem wantsArm_timed (ht : BothTimed T m) (c : Call) : BothTimed T (wantsArm m c).1 := by
  unfold wantsArm
  dsimp only
  split
  · exact ⟨ht.disarm, Hysteresis.setStateAndUpdate_timed ht.arm _ _⟩
  · split
    · exact ⟨ht.disarm, Hysteresis.setStateAndUpdate_timed ht.arm _ _⟩
    · exact ⟨ht.disarm, ht.arm⟩

theorem cycle_timed (ht : BothTimed T m) (c : Cycle) : BothTimed T (cycle m c) :=
  wantsArm_timed (wantsDisarm_timed ht c.disarm) c.arm

theorem cycle_released (ht : BothTimed T m) {c : Cycle} (hc : c.Released) : Quiet (cycle m c) := by
  obtain ⟨hbutton, hup⟩ := hc
  have hswitch := c.same.1
  have hbutton' : c.arm.useButton = true := c.useButton_arm.trans hbutton
  have hreleased : ∀ call : Call, call.useButton = true → call.armSwitch ≠ .on →
      call.useStick = false ∧ call.useSwitch = false ∧ call.armButtonPressed = false := by
    intro call hb hs
    have hstick : call.useStick = false := by
      simpa [Call.useButton] using (Bool.and_eq_true_iff.1 hb).1
    exact ⟨hstick, by simp [Call.useSwitch, hb], by simp [Call.armButtonPressed, hs]⟩
  obtain ⟨hstick, huse, hpressed⟩ := hreleased c.disarm hbutton hup
  obtain ⟨hstick', huse', hpressed'⟩ := hreleased c.arm hbutton' (by rwa [← hswitch])
  have hdisarm : (wantsDisarm m c.disarm).1 = { m with
      stickDisarmHysteresis := m.stickDisarmHysteresis.setStateAndUpdate false c.disarm.now } := by
    simp [wantsDisarm, hstick, huse, hpressed]
  unfold cycle
  rw [hdisarm]
  constructor
  · have hfalse := Hysteresis.setStateAndUpdate_false ht.disarm c.disarm.now
    simpa [wantsArm, hstick', huse', hpressed'] using hfalse
  · have hfalse := Hysteresis.setStateAndUpdate_false ht.arm c.arm.now
    simpa [wantsArm, hstick', huse', hpressed'] using hfalse

theorem held_of_unrequested {h : Hysteresis} (ht : Timed T h)
    (hrequested : h.requestedState = false) :
    Held T start now h := by
  refine ⟨ht, fun _ hrequest => ?_⟩
  rw [hrequested] at hrequest
  cases hrequest

/-- After any cycles, the last of which has the button up, a press of the button in nondecreasing
times acts at most once, and not before it has lasted for the time of the hysteresis; and both
states are false when it begins. -/
theorem one_press_one_action (T : UInt64) (before press : List Cycle)
    (hbefore : ∀ c ∈ before.getLast?, c.Released) (hpress : ∀ c ∈ press, c.Pressed)
    (htimes : (press.flatMap Cycle.times).IsChain (· ≤ ·)) :
    ActsOnce T (exec cycle (ManualControl.init T) before) press := by
  have hinit : BothTimed T (ManualControl.init T) := ⟨⟨rfl, rfl⟩, ⟨rfl, rfl⟩⟩
  have hruns : ∀ cs, BothTimed T (exec cycle (ManualControl.init T) cs) :=
    @invariant_exec _ _ cycle (BothTimed T) (fun m c ht => cycle_timed ht c) _ hinit
  have htimed := hruns before
  have hquiet : Quiet (exec cycle (ManualControl.init T) before) := by
    rcases List.eq_nil_or_concat before with rfl | ⟨front, last, rfl⟩
    · exact ⟨⟨rfl, rfl⟩, ⟨rfl, rfl⟩⟩
    · rw [List.concat_eq_append, exec_append, exec_cons, exec_nil]
      exact cycle_released (hruns front) (hbefore last (by simp))
  generalize exec cycle (ManualControl.init T) before = m at htimed hquiet
  have hmap : (press.flatMap Cycle.asks).map (fun a => a.call.now) = press.flatMap Cycle.times := by
    rw [List.map_flatMap]
    rfl
  have hasks := asks_pressed hpress
  cases press with
  | nil =>
      exact ⟨hquiet.disarm.1, hquiet.arm.1, Nat.zero_le _, fun r hr => absurd hr List.not_mem_nil⟩
  | cons c press =>
      -- the press begins with the first call of its first cycle
      have htracks : PressTracks T c.disarm.now c.disarm.now m :=
        ⟨held_of_unrequested htimed.disarm hquiet.disarm.2,
          held_of_unrequested htimed.arm hquiet.arm.2⟩
      have hchain : (c.disarm.now :: ((c :: press).flatMap Cycle.asks).map
          fun a => a.call.now).IsChain (· ≤ ·) := by
        rw [hmap]
        exact List.isChain_cons_cons.2 ⟨UInt64.le_refl _, htimes⟩
      obtain ⟨-, honce, hheld⟩ := answers_press htracks (UInt64.le_refl _) hasks hchain
      rw [← outputs_cycle] at honce hheld
      refine ⟨hquiet.disarm.1, hquiet.arm.1, honce, fun r hr htrue first hfirst => ?_⟩
      obtain rfl : c = first := by simpa using hfirst
      exact hheld r hr htrue

/-- A call in button mode of a vehicle on the ground. -/
def groundCall (armSwitch : SwitchPos) (armed : Bool) (now : UInt64) : Call where
  armSwitch := armSwitch
  armSwisbtn := true
  throttleLow := true
  yawLeft := false
  yawRight := false
  armed := armed
  landed := true
  rotaryWing := true
  flagControlManualEnabled := true
  flagControlClimbRateEnabled := false
  now := now

/-- A cycle of such calls. -/
def groundCycle (armSwitch : SwitchPos) (armed : Bool) (now : UInt64) : Cycle :=
  ⟨groundCall armSwitch armed now, groundCall armSwitch armed (now + 10), rfl, rfl⟩

/-- The vehicle is armed by a press, and stays so. -/
theorem one_press_arms :
    ActsOnce 1000000 (exec cycle (ManualControl.init 1000000) [groundCycle .off false 0])
      [groundCycle .on false 20000, groundCycle .on false 1020000, groundCycle .on true 2020000] :=
  one_press_one_action 1000000 [groundCycle .off false 0]
    [groundCycle .on false 20000, groundCycle .on false 1020000, groundCycle .on true 2020000]
    (by
      intro c hc
      obtain rfl : groundCycle .off false 0 = c := by simpa using hc
      exact ⟨rfl, nofun⟩)
    (by
      intro c hc
      simp only [List.mem_cons, List.not_mem_nil, or_false] at hc
      rcases hc with rfl | rfl | rfl
      · exact ⟨rfl, rfl⟩
      · exact ⟨rfl, rfl⟩
      · exact ⟨rfl, rfl⟩)
    (by decide)

end Manual
end Commander
end DtPhm
