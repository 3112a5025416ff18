import DtPhm.Lib.Slots
import DtPhm.Lib.Run
import Mathlib.Data.Fin.Basic
import Mathlib.Data.List.FinRange

/-!
# CommandSender — MavlinkCommandSender, which repeats commands until they are acked

A vehicle command is sent on every MAVLink channel that hands it in, and kept in a list of three.
Each channel checks from time to time whether commands without an ack have to be sent again.  All
calls run under one lock, so that they are the steps of the sender; `n` is the number of channels.

* `handleVehicleCommand`, `handleMavlinkCommandAck`, `checkTimeout` — the calls;
* `Item.checkTimeout` — what `check_timeout` does with one command;
* `History` — what happened in a run: what was handed in, transmitted and acknowledged.
-/

namespace DtPhm
namespace Mavlink
namespace CommandSender

open Lib

/-! ## Data -/

/-- `RETRIES`. -/
def retries : ℤ := 3

/-- `TIMEOUT_US`. -/
def timeoutUs : UInt64 := 500000

/-- `VEHICLE_CMD_PX4_INTERNAL_START`. -/
def internalStart : UInt32 := 65537

/-- `mavlink_command_long_t`; the seven parameters are only copied. -/
structure CommandLong where
  targetSystem : UInt8
  targetComponent : UInt8
  command : UInt16
  confirmation : UInt8
  params : List UInt32
deriving DecidableEq, Repr

/-- `vehicle_command_s`, as far as it is sent. -/
structure VehicleCommand where
  timestamp : UInt64
  command : UInt32
  targetSystem : UInt8
  targetComponent : UInt8
  confirmation : UInt8
  params : List UInt32
deriving DecidableEq, Repr

/-- `command_item_s`.  In `numSent` the value -1 stands for a channel that did not hand the command
in, and -2 for one that got an ack for it. -/
structure Item (n : ℕ) where
  command : CommandLong
  timestampUs : UInt64
  lastTimeSentUs : UInt64
  numSent : Fin n → ℤ

/-- An incoming `COMMAND_ACK` with its sender. -/
structure Ack where
  command : UInt16
  fromSysid : UInt8
  fromCompid : UInt8
deriving DecidableEq, Repr

variable {n : ℕ}

/-- The commands that are kept. -/
abbrev Commands (n : ℕ) := List (Slot (Item n))

/-! ## Calls -/

/-- The message of a vehicle command; the command id is cut to sixteen bits. -/
def VehicleCommand.message (c : VehicleCommand) : CommandLong where
  targetSystem := c.targetSystem
  targetComponent := c.targetComponent
  command := c.command.toUInt16
  confirmation := c.confirmation
  params := c.params

/-- The item of a command that no channel has handed in before. -/
def newItem (c : VehicleCommand) (channel : Fin n) (now : UInt64) : Item n where
  command := c.message
  timestampUs := c.timestamp
  lastTimeSentUs := now
  numSent := Function.update (fun _ => -1) channel 0

/-- Mark a channel of an item. -/
def Item.mark (item : Item n) (channel : Fin n) (value : ℤ) : Item n :=
  { item with numSent := Function.update item.numSent channel value }

/-- `handle_vehicle_command`; `now` and `now'` are the two times that it reads. -/
def handleVehicleCommand (s : Commands n) (c : VehicleCommand) (channel : Fin n)
    (now now' : UInt64) : Commands n :=
  if c.command ≥ internalStart then s
  else
    match modifyFirst (fun item => item.timestampUs == c.timestamp) (fun item =>
      item.mark channel 0)
      s with
    | some s' => s'
    | none => put s now' (newItem c channel now)

/-- Whether an ack that came in on a channel is for this item. -/
def Ack.isFor (ack : Ack) (channel : Fin n) (item : Item n) : Bool :=
  item.command.command == ack.command &&
    (item.command.targetSystem == 0 || ack.fromSysid == item.command.targetSystem) &&
    (item.command.targetComponent == 0 || ack.fromCompid == item.command.targetComponent) &&
    item.numSent channel != -1

/-- `handle_mavlink_command_ack`. -/
def handleMavlinkCommandAck (s : Commands n) (ack : Ack) (channel : Fin n) : Commands n :=
  match modifyFirst (ack.isFor channel) (fun item => item.mark channel (-2)) s with
  | some s' => s'
  | none => s

/-- Whether some channel got an ack for the item. -/
def Item.acked (item : Item n) : Bool :=
  (List.finRange n).any fun c => item.numSent c == -2

/-- The highest retry level. -/
def Item.maxSent (item : Item n) : ℤ :=
  (List.finRange n).foldl (fun m c => if item.numSent c > m then item.numSent c else m) 0

/-- The lowest retry level of an active channel. -/
def Item.minSent (item : Item n) : ℤ :=
  (List.finRange n).foldl
    (fun m c => if item.numSent c ≠ -1 ∧ item.numSent c < m then item.numSent c else m) 127

/-- What becomes of an item in `check_timeout`. -/
inductive Outcome (n : ℕ) where
  | keep
  | drop
  | send (item : Item n)

/-- The item on the next retry level of a channel. -/
def Item.raise (item : Item n) (channel : Fin n) : Item n :=
  { item.mark channel (item.numSent channel + 1) with
    command := { item.command with confirmation := UInt8.ofInt (item.numSent channel + 1) } }

/-- `check_timeout` for one item; `now` and `now'` are the times that it reads. -/
def Item.checkTimeout (item : Item n) (channel : Fin n) (now now' : UInt64) : Outcome n :=
  if now - item.lastTimeSentUs ≤ timeoutUs then .keep
  else if item.acked then .drop
  else if item.numSent channel < item.maxSent ∧ item.numSent channel ≠ -1 then
    .send (item.raise channel)
  else if item.numSent channel = item.maxSent ∧ item.minSent = item.maxSent then
    if item.numSent channel + 1 > retries then .drop
    else .send { item.raise channel with lastTimeSentUs := now' }
  else .keep

/-- The slot of an item after `check_timeout`. -/
def checkSlot (channel : Fin n) (slot : Slot (Item n)) (now now' : UInt64) : Slot (Item n) :=
  if slot.timestampUs = 0 then slot
  else
    match slot.value.checkTimeout channel now now' with
    | .keep => slot
    | .drop => { slot with timestampUs := 0 }
    | .send item => { slot with value := item }

/-- What `check_timeout` sends of a slot: the timestamp of the command stands for it. -/
def sentBySlot (channel : Fin n) (slot : Slot (Item n)) (now now' : UInt64) :
    List (UInt64 × Fin n) :=
  if slot.timestampUs = 0 then []
  else
    match slot.value.checkTimeout channel now now' with
    | .send item => [(item.timestampUs, channel)]
    | _ => []

/-- `check_timeout`: the clock is read anew for every slot. -/
def checkTimeout (s : Commands n) (channel : Fin n) (clock : ℕ → UInt64 × UInt64) : Commands n :=
  s.mapIdx fun i slot => checkSlot channel slot (clock i).1 (clock i).2

/-! ## Runs -/

/-- The calls. -/
inductive Event (n : ℕ) where
  | handleVehicleCommand (c : VehicleCommand) (channel : Fin n) (now now' : UInt64)
  | handleMavlinkCommandAck (ack : Ack) (channel : Fin n)
  | checkTimeout (channel : Fin n) (clock : ℕ → UInt64 × UInt64)

def step (s : Commands n) : Event n → Commands n
  | .handleVehicleCommand c channel now now' => handleVehicleCommand s c channel now now'
  | .handleMavlinkCommandAck ack channel => handleMavlinkCommandAck s ack channel
  | .checkTimeout channel clock => checkTimeout s channel clock

/-- The transmissions of a call, as timestamp of the command and channel. -/
def transmissions (s : Commands n) : Event n → List (UInt64 × Fin n)
  | .handleVehicleCommand c channel _ _ =>
    if c.command ≥ internalStart then [] else [(c.timestamp, channel)]
  | .handleMavlinkCommandAck _ _ => []
  | .checkTimeout channel clock =>
    (s.mapIdx fun i slot => sentBySlot channel slot (clock i).1 (clock i).2).flatten

/-- The command that an ack is taken for. -/
def acknowledges (s : Commands n) (ack : Ack) (channel : Fin n) : Option UInt64 :=
  (s.find? fun slot => decide slot.Live && ack.isFor channel slot.value).map fun slot =>
    slot.value.timestampUs

/-- What happened so far. -/
structure History (n : ℕ) where
  handedIn : List (UInt64 × Fin n)
  transmitted : List (UInt64 × Fin n)
  acknowledged : List UInt64

/-- What a call adds to the history. -/
def record (s : Commands n) (e : Event n) (h : History n) : History n where
  handedIn :=
    match e with
    | .handleVehicleCommand c channel _ _ => (c.timestamp, channel) :: h.handedIn
    | _ => h.handedIn
  transmitted := transmissions s e ++ h.transmitted
  acknowledged :=
    match e with
    | .handleMavlinkCommandAck ack channel => (acknowledges s ack channel).toList ++ h.acknowledged
    | _ => h.acknowledged

/-- The list at startup: three free slots. -/
def initial (n : ℕ) : Commands n × History n :=
  (List.replicate 3 ⟨0, ⟨⟨0, 0, 0, 0, []⟩, 0, 0, fun _ => -1⟩⟩, ⟨[], [], []⟩)

end CommandSender
end Mavlink
end DtPhm
