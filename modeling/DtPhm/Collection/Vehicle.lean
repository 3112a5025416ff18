import Mathlib.Data.List.Basic
import Mathlib.Data.List.GetD
import DtPhm.Lib.Family

/-!
# Vehicle — fault messages from the backend to the firmware

A fault is injected into a vehicle by one `HIL_ACTUATOR_CONTROLS` message.  The firmware's
`MavlinkReceiver` publishes it on one of three topics, chosen by the range its mode is in, or on
`rfly_ext` when the mode is 255.  A topic keeps its last message: a fault lasts until a message with
flags 0 and zero controls is published on the same topic.

The backend (`RflySimRealBackend`) remembers the mode of one fault, the last one; `clear_fault`
without a mode clears that one.

* `Px4`, `handleMessage`, `topicOf` — the firmware side;
* `FaultCall`, `injectFault`, `clearFault` — the backend side, with the point at which a call
  raises;
* `sentMessages`, `storedMode` — what a sequence of calls sends, and the mode it leaves stored;
* `LeavesFault` — the topics that a sequence of calls leaves with a fault on them.

Controls are float32 values; `R` stands for them.
-/

namespace DtPhm
namespace Collection

open Lib

universe u

variable {R : Type u}

/-! ## The firmware -/

/-- The fields of `HIL_ACTUATOR_CONTROLS` that the receiver reads. -/
structure HilActuatorControls (R : Type u) where
  mode : UInt8
  flags : UInt64
  controls : Fin 16 → R

/-- `rfly_ctrl_s`, the message of the topics `rfly_ctrl`, `rfly_ctrl1` and `rfly_ctrl2`. -/
structure RflyCtrl (R : Type u) where
  flags : UInt32
  modes : UInt8
  controls : Fin 16 → R

/-- `rfly_ext_s`. -/
structure RflyExt (R : Type u) where
  modes : UInt8
  controls : Fin 16 → R

/-- The topics that carry an `rfly_ctrl_s`. -/
inductive Topic
  | rflyCtrl
  | rflyCtrl1
  | rflyCtrl2
  deriving DecidableEq, Repr

/-- The last message of every topic that the receiver publishes these messages on. -/
structure Px4 (R : Type u) where
  ctrl : Topic → Option (RflyCtrl R) := fun _ => none
  ext : Option (RflyExt R) := none

def Px4.publish (p : Px4 R) (t : Topic) (rc : RflyCtrl R) : Px4 R :=
  { p with ctrl := Function.update p.ctrl t (some rc) }

/-- The `HIL_ACTUATOR_CONTROLS` branch of `MavlinkReceiver::handle_message`. -/
def handleMessage (p : Px4 R) (msg : HilActuatorControls R) : Px4 R :=
  if msg.mode = 255 then
    { p with ext := some { modes := 1, controls := msg.controls } }
  else
    -- `flags` is a uint64 in the message and a uint32 in the topic
    let rc : RflyCtrl R :=
      { flags := msg.flags.toUInt32, modes := msg.mode, controls := msg.controls }
    if 200 ≤ rc.modes then
      p.publish .rflyCtrl2 rc
    else if 100 ≤ rc.modes then
      p.publish .rflyCtrl1 rc
    else
      p.publish .rflyCtrl rc

/-- The topic of a fault mode. -/
def topicOf (mode : UInt8) : Option Topic :=
  if mode = 255 then none
  else if 200 ≤ mode then some .rflyCtrl2
  else if 100 ≤ mode then some .rflyCtrl1
  else some .rflyCtrl

def HilActuatorControls.rflyCtrl (msg : HilActuatorControls R) : RflyCtrl R :=
  { flags := msg.flags.toUInt32, modes := msg.mode, controls := msg.controls }

theorem handleMessage_ctrl (p : Px4 R) (msg : HilActuatorControls R) :
    (handleMessage p msg).ctrl =
      match topicOf msg.mode with
      | none => p.ctrl
      | some t => Function.update p.ctrl t (some msg.rflyCtrl) := by
  unfold handleMessage topicOf
  by_cases hext : msg.mode = 255
  · simp [hext]
  · by_cases h200 : 200 ≤ msg.mode
    · simp [hext, h200, Px4.publish, HilActuatorControls.rflyCtrl]
    · by_cases h100 : 100 ≤ msg.mode
      · simp [hext, h200, h100, Px4.publish, HilActuatorControls.rflyCtrl]
      · simp [hext, h200, h100, Px4.publish, HilActuatorControls.rflyCtrl]

/-- The messages that go to the three topics, each with its topic. -/
def onTopics (msgs : List (HilActuatorControls R)) : List (Topic × RflyCtrl R) :=
  msgs.filterMap fun m => (topicOf m.mode).map fun t => (t, m.rflyCtrl)

theorem foldl_handleMessage_ctrl (msgs : List (HilActuatorControls R)) (p : Px4 R) :
    (msgs.foldl handleMessage p).ctrl = callEach (fun _ rc _ => some rc)
    (onTopics msgs) p.ctrl := by
  induction msgs generalizing p with
  | nil =>
      rfl
  | cons m msgs ih =>
      rw [List.foldl_cons, ih, handleMessage_ctrl]
      cases h : topicOf m.mode with
      | none =>
          simp [onTopics, h]
      | some t =>
          simp [onTopics, h, callEach]

/-! ## Copying the parameters -/

/-- The loop of `inject_fault` that copies the parameters, from index `i` on. -/
def fillCtrls : ℕ → List R → (Fin 16 → R) → Fin 16 → R
  | _, [], ctrls => ctrls
  | i, value :: rest, ctrls =>
      if h : i < 16 then
        fillCtrls (i + 1) rest (Function.update ctrls ⟨i, h⟩ value)
      else
        ctrls

/-! ## Messages that carry no fault -/

variable [Zero R]

/-- Flags 0 and all-zero controls. -/
def RflyCtrl.Clean (rc : RflyCtrl R) : Prop :=
  rc.flags = 0 ∧ ∀ i, rc.controls i = 0

/-! ## The backends -/

/-- `spec.backend`. -/
inductive Backend
  | dt
  | real
  deriving DecidableEq, Repr

/-- A vehicle: the backend's `last_fault_mode`, which only the real backend has, and the topics of
its firmware. -/
structure Vehicle (R : Type u) where
  lastFaultMode : UInt8 := 0
  px4 : Px4 R := {}

/-- How far a call of `inject_fault` gets. -/
inductive Outcome
  /-- It raises before `last_fault_mode` is assigned: there is no connection, or the mode is no
  integer. -/
  | early
  /-- It raises after that and before the message is out: a parameter is no number, or
  `SendHILCtrlMsg` fails. -/
  | unsent
  /-- The message is out, and the phase marker sent after it fails. -/
  | unmarked
  | returned
  deriving DecidableEq, Repr

def Outcome.stores : Outcome → Bool
  | .early => false
  | _ => true

def Outcome.sends : Outcome → Bool
  | .early | .unsent => false
  | _ => true

def Outcome.raises : Outcome → Bool
  | .returned => false
  | _ => true

/-- The controls of a fault: the parameters, filled up with zeros. -/
def faultCtrls (params : List R) : Fin 16 → R :=
  fillCtrls 0 params fun _ => 0

/-- `inject_fault` of the two backends. -/
def injectFault (b : Backend) (mode : UInt8) (flag : UInt64) (params : List R) (o : Outcome)
    (v : Vehicle R) : Vehicle R :=
  let stored := match b with
    | .real => if o.stores then { v with lastFaultMode := mode } else v
    | .dt => v
  if o.sends then
    { stored with
      px4 := handleMessage stored.px4
        { mode := mode, flags := flag, controls := faultCtrls params } }
  else
    stored

/-- `clear_fault` of the two backends; the default mode of the other one is 0. -/
def clearFault (b : Backend) (mode : Option UInt8) (v : Vehicle R) : Vehicle R :=
  let faultMode := match b with
    | .real => mode.getD v.lastFaultMode
    | .dt => mode.getD 0
  { v with px4 := handleMessage v.px4 { mode := faultMode, flags := 0, controls := fun _ => 0 } }

/-- A call of one of the two methods. -/
inductive FaultCall (R : Type u)
  | inject (mode : UInt8) (flag : UInt64) (params : List R) (outcome : Outcome)
  | clear (mode : Option UInt8)

def FaultCall.run (b : Backend) : FaultCall R → Vehicle R → Vehicle R
  | .inject mode flag params o, v => injectFault b mode flag params o v
  | .clear mode, v => clearFault b mode v

def FaultCall.raises : FaultCall R → Bool
  | .inject _ _ _ o => o.raises
  | .clear _ => false

/-- The call sends the vehicle a fault. -/
def FaultCall.sendsFault : FaultCall R → Bool
  | .inject _ _ _ o => o.sends
  | .clear _ => false

/-! ## What a sequence of calls sends -/

/-- The message that a call sends, when `last` is the stored mode. -/
def FaultCall.message (b : Backend) (last : UInt8) : FaultCall R → Option (HilActuatorControls R)
  | .inject mode flag params o =>
      if o.sends then some { mode := mode, flags := flag, controls := faultCtrls params } else none
  | .clear mode =>
      some { mode := mode.getD (if b = .real then last else 0), flags := 0, controls := fun _ => 0 }

/-- The stored mode after a call. -/
def FaultCall.stored (b : Backend) (last : UInt8) : FaultCall R → UInt8
  | .inject mode _ _ o => if b = .real ∧ o.stores then mode else last
  | .clear _ => last

/-- The messages of a sequence of calls, in order. -/
def sentMessages (b : Backend) : UInt8 → List (FaultCall R) → List (HilActuatorControls R)
  | _, [] => []
  | last, c :: cs => (c.message b last).toList ++ sentMessages b (c.stored b last) cs

/-- The stored mode after a sequence of calls: the mode of the last `inject_fault` that stored
one. -/
def storedMode (b : Backend) (last : UInt8) (cs : List (FaultCall R)) : UInt8 :=
  cs.foldl (FaultCall.stored b) last

theorem FaultCall.run_eq (b : Backend) (c : FaultCall R) (v : Vehicle R) :
    c.run b v =
      { lastFaultMode := c.stored b v.lastFaultMode
        px4 := (c.message b v.lastFaultMode).toList.foldl handleMessage v.px4 } := by
  cases c with
  | inject mode flag params o =>
      cases b <;> cases o <;> rfl
  | clear mode =>
      cases b <;> rfl

theorem foldl_run_eq (b : Backend) (cs : List (FaultCall R)) (v : Vehicle R) :
    cs.foldl (fun v c => c.run b v) v =
      { lastFaultMode := storedMode b v.lastFaultMode cs
        px4 := (sentMessages b v.lastFaultMode cs).foldl handleMessage v.px4 } := by
  induction cs generalizing v with
  | nil =>
      rfl
  | cons c cs ih =>
      rw [List.foldl_cons, ih, FaultCall.run_eq]
      simp [storedMode, sentMessages, List.foldl_append]

/-! ## Faults that stay -/

/-- What a sequence of calls publishes on the three topics. -/
def published (b : Backend) (last : UInt8) (cs : List (FaultCall R)) : List (Topic × RflyCtrl R) :=
  onTopics (sentMessages b last cs)

/-- The calls leave a fault on topic `t`: the last message that they publish on it is not clean, or
they publish none on it and the message that was there before is not clean. -/
def LeavesFault (b : Backend) (v : Vehicle R) (cs : List (FaultCall R)) (t : Topic) : Prop :=
  (∃ before rc after, published b v.lastFaultMode cs = before ++ (t, rc) :: after ∧
      (∀ n ∈ after, n.1 ≠ t) ∧ ¬ rc.Clean) ∨
    ((∀ n ∈ published b v.lastFaultMode cs, n.1 ≠ t) ∧ ∃ rc, v.px4.ctrl t = some rc ∧ ¬ rc.Clean)

theorem leavesFault_iff (b : Backend) (v : Vehicle R) (cs : List (FaultCall R)) (t : Topic) :
    LeavesFault b v cs t ↔
      ∃ rc, (cs.foldl (fun v c => c.run b v) v).px4.ctrl t = some rc ∧ ¬ rc.Clean := by
  rw [foldl_run_eq, foldl_handleMessage_ctrl]
  have hlast := callEach_latch_iff (published b v.lastFaultMode cs) v.px4.ctrl t
  simp only [published] at hlast
  simp only [LeavesFault, published, hlast]
  constructor
  · rintro (⟨before, rc, after, hsplit, hafter, hrc⟩ | ⟨hnone, rc, hval, hrc⟩)
    · exact ⟨rc, Or.inl ⟨before, after, hsplit, hafter⟩, hrc⟩
    · exact ⟨rc, Or.inr ⟨hnone, hval⟩, hrc⟩
  · rintro ⟨rc, ⟨before, after, hsplit, hafter⟩ | ⟨hnone, hval⟩, hrc⟩
    · exact Or.inl ⟨before, rc, after, hsplit, hafter, hrc⟩
    · exact Or.inr ⟨hnone, rc, hval, hrc⟩

/-- `clear_fault` without a mode leaves a fault on the topics it finds one on, but for the topic of
the stored mode. -/
theorem clearFault_fault_iff (v : Vehicle R) (t : Topic) :
    (∃ rc, (clearFault .real none v).px4.ctrl t = some rc ∧ ¬ rc.Clean) ↔
      topicOf v.lastFaultMode ≠ some t ∧ ∃ rc, v.px4.ctrl t = some rc ∧ ¬ rc.Clean := by
  have hctrl := handleMessage_ctrl v.px4
    { mode := v.lastFaultMode, flags := 0, controls := fun _ => (0 : R) }
  have hclear : (clearFault .real none v).px4 = handleMessage v.px4
      { mode := v.lastFaultMode, flags := 0, controls := fun _ => 0 } := rfl
  rw [hclear, hctrl]
  cases htopic : topicOf v.lastFaultMode with
  | none =>
      simp
  | some t' =>
      by_cases h : t' = t
      · -- the topic of the stored mode holds the message of `clear_fault`
        subst h
        simp [RflyCtrl.Clean, HilActuatorControls.rflyCtrl]
      · simp [h, Function.update_of_ne (Ne.symm h)]

end Collection
end DtPhm
