import DtPhm.Lib.Run
import DtPhm.Params.Calls
import DtPhm.Params.Persist

/-!
# Parameters — MavlinkParametersManager, which sends parameters to the ground

The manager of a link looks for `parameter_update` publications and then goes through the parameters
to send those that are used and unsaved.  One pass may take many calls of `send`: it stops when the
link has no room, and goes on from `_param_update_index`.

* `paramSet` — a change and its publication;
* `sendUntransmitted`, `sendOne`, `sendParams`, `send` — the calls of the manager;
* `Event`, `step`, `record` — runs, and what was set and sent in them.

What the code reads from outside during a call (free bytes of the link, the radio status, the clock)
comes with the event.
-/

namespace DtPhm
namespace Mavlink
namespace Parameters

open Lib Bson Params

/-! ## Data -/

/-- `MAVLINK_MSG_ID_PARAM_VALUE_LEN`. -/
def paramValueLen : ℕ := 25

/-- `get_size`: the message with its twelve other bytes. -/
def getSize : ℕ := paramValueLen + 12

/-- `PARAM_HASH`. -/
def paramHash : ℤ := 32767

/-- The interval of the subscription, one second. -/
def intervalUs : UInt64 := 1000000

/-- What the manager sends: the hash of all values, whose value is left out, or a parameter. -/
inductive Message (F : Type) where
  | hashCheck (paramCount : ℕ)
  | paramValue (paramId : CString) (value : BitVec 32 ⊕ F) (type : ParamType) (paramCount : ℕ)
      (paramIndex : ℕ)
deriving DecidableEq

/-- `MavlinkParametersManager` with its subscription: `unread` is the timestamp of the latest
publication while it was not copied. -/
structure Manager where
  firstSend : Bool
  sendAllIndex : ℤ
  paramUpdateTime : UInt64
  paramUpdateIndex : ℕ
  lastUpdate : UInt64
  unread : Option UInt64

/-- The parameters, which of them are used, and the manager of one link. -/
structure Link (F : Type) where
  store : Store F
  used : ℕ → Bool
  manager : Manager

/-- What one turn of the loop over the parameters reads: the free bytes when it sends, and the free
bytes and the radio status when it goes on. -/
structure Reading where
  freeForParam : ℕ
  free : ℕ
  critical : Bool

/-- What one call of `send_params` and the tests before it read: whether a UAVCAN parameter was
sent, the free bytes in `send_one`, the three times of `send_untransmitted`, and the turns of its
loop. -/
structure Round where
  free : ℕ
  critical : Bool
  uavcan : Bool
  freeForOne : ℕ
  checkedAt : UInt64
  copiedAt : UInt64
  now : UInt64
  turns : ℕ → Reading

variable {F : Type} (ops : FloatOps F) (exceeds : F → F → Bool) (t : Table F)

/-! ## Setting a parameter -/

/-- Whether `param_set` publishes an update; `exceeds` is `fabsf(x - y) > FLT_EPSILON`. -/
def publishes (s : Store F) (param : ℕ) (val : ParamValue F) : Bool :=
  match paramType t param with
  | none => false
  | some type =>
      match paramFindChanged s.createValues param with
      | none => true
      | some w =>
          match type with
          | .int32 => w.val.i != val.i
          | .float => exceeds w.val.f val.f

/-- `param_set` with its publication, stamped `timestamp`. -/
def paramSet (s : Link F) (param : ℕ) (val : ParamValue F) (timestamp : UInt64) : Link F :=
  { s with
    store := (Params.paramSet ops t s.store param val).2
    manager :=
      if publishes exceeds t s.store param val then { s.manager with unread := some timestamp }
      else s.manager }

/-! ## Sending one parameter -/

/-- `param_count_used`. -/
def paramCountUsed (used : ℕ → Bool) : ℕ := ((List.range t.count).filter used).length

/-- `param_get_used_index` of a used parameter. -/
def paramGetUsedIndex (used : ℕ → Bool) (param : ℕ) : ℕ := ((List.range param).filter used).length

/-- `send_param`: whether it succeeds, and what it sends. -/
def sendParam (s : Link F) (param : ℕ) (free : ℕ) : Bool × List (Message F) :=
  match t.infos[param]?, paramGet t s.store param with
  | some info, some v =>
      if free < paramValueLen then (false, [])
      else (true, [.paramValue info.name (v.member info.type) info.type (paramCountUsed t s.used)
        (paramGetUsedIndex s.used param)])
  | _, _ => (false, [])

/-- The inner loop, with `n` parameters left from `index` on: the next used parameter, and the index
behind it. -/
def nextUsedFrom (used : ℕ → Bool) : ℕ → ℕ → Option ℕ × ℕ
  | 0, index => (none, index + 1)
  | n + 1, index => if used index then (some index, index + 1) else nextUsedFrom used n (index + 1)

def nextUsed (used : ℕ → Bool) (index : ℕ) : Option ℕ × ℕ :=
  nextUsedFrom used (t.count - index) index

/-! ## The loop over the parameters -/

/-- Whether the loop goes on. -/
def Reading.goesOn (r : Reading) (index : ℕ) : Bool :=
  getSize ≤ r.free && !r.critical && index < t.count

/-- The loop of `send_untransmitted`, for at most `n` turns: the index behind the last parameter,
whether a parameter was tried, and what was sent. -/
def sendChanged (s : Link F) (turns : ℕ → Reading) : ℕ → ℕ → ℕ × Bool × List (Message F)
  | 0, index => (index, false, [])
  | n + 1, index =>
      let next := fun index' => sendChanged s (fun k => turns (k + 1)) n index'
      match nextUsed t s.used index with
      | (none, index') => if (turns 0).goesOn t index' then next index' else (index', false, [])
      | (some param, index') =>
          if paramValueUnsaved s.store param then
            let (ok, out) := sendParam t s param (turns 0).freeForParam
            if ok && (turns 0).goesOn t index' then
              ((next index').1, true, out ++ (next index').2.2)
            else (index', true, out)
          else if (turns 0).goesOn t index' then next index'
          else (index', false, [])

/-- `math::constrain`. -/
def constrain (val low high : UInt64) : UInt64 :=
  if val < low then low else if high < val then high else val

/-- Whether `updated` tells of a publication. -/
def Manager.updated (m : Manager) (r : Round) : Bool :=
  m.unread.isSome && intervalUs ≤ r.checkedAt - m.lastUpdate

/-- Clear the update, and schedule a pass over the parameters if there is none. -/
def Manager.takeUpdate (m : Manager) (r : Round) : Manager :=
  if m.updated r then
    { m with
      unread := none
      lastUpdate := constrain (m.lastUpdate + intervalUs) (r.copiedAt - intervalUs) r.copiedAt
      paramUpdateTime := if m.paramUpdateTime = 0 then m.unread.getD 0 else m.paramUpdateTime
      paramUpdateIndex := if m.paramUpdateTime = 0 then 0 else m.paramUpdateIndex }
  else m

/-- Whether the pass is due. -/
def Manager.due (m : Manager) (r : Round) : Bool :=
  m.paramUpdateTime != 0 && m.paramUpdateTime + 5000 < r.now

/-- The manager where its pass has come to `index`. -/
def Manager.advance (m : Manager) (index : ℕ) : Manager :=
  { m with
    paramUpdateTime := if index ≥ t.count then 0 else m.paramUpdateTime
    paramUpdateIndex := index }

/-- `send_untransmitted`: the manager, whether it tried to send, and what it sent.  The loop ends
after as many turns as there are parameters. -/
def sendUntransmitted (s : Link F) (r : Round) : Manager × Bool × List (Message F) :=
  let m := s.manager.takeUpdate r
  if m.due r then
    let (index, sentOne, out) := sendChanged t s r.turns (t.count + 1) m.paramUpdateIndex
    (m.advance t index, sentOne, out)
  else (m, false, [])

/-! ## The calls of the manager -/

/-- `send_one`. -/
def sendOne (s : Link F) (free : ℕ) : Manager × Bool × List (Message F) :=
  let m := s.manager
  if m.sendAllIndex < 0 then (m, false, [])
  else if m.sendAllIndex = paramHash then
    ({ m with sendAllIndex := 0 }, true, [.hashCheck (paramCountUsed t s.used)])
  else
    match nextUsed t s.used m.sendAllIndex.toNat with
    | (none, _) => ({ m with sendAllIndex := -1 }, false, [])
    | (some param, index) =>
        let out := (sendParam t s param free).2
        if index ≥ t.count then ({ m with sendAllIndex := -1 }, false, out)
        else ({ m with sendAllIndex := index }, true, out)

/-- `send_params`; the messages of UAVCAN nodes are left out. -/
def sendParams (s : Link F) (r : Round) : Manager × Bool × List (Message F) :=
  if r.uavcan then (s.manager, true, [])
  else
    match sendOne t s r.freeForOne with
    | (m, true, out) => (m, true, out)
    | (m, false, out) =>
        let (m', sentOne, out') := sendUntransmitted t { s with manager := m } r
        (m', sentOne, out ++ out')

/-- Whether there is room for a round. -/
def Round.fits (r : Round) : Bool := getSize ≤ r.free && !r.critical

/-- The loop of `send`, for at most `n` rounds. -/
def sendLoop : ℕ → Link F → (ℕ → Round) → Link F × List (Message F)
  | 0, s, _ => (s, [])
  | n + 1, s, rounds =>
      if (rounds 0).fits then
        let (m, more, out) := sendParams t s (rounds 0)
        if more then
          let (s', out') := sendLoop n { s with manager := m } fun k => rounds (k + 1)
          (s', out ++ out')
        else ({ s with manager := m }, out)
      else (s, [])

/-- The parameters that the ground can't tolerate not finding. -/
def required : List String :=
  ["BAT_A_PER_V", "BAT_CRIT_THR", "BAT_EMERGEN_THR", "BAT_LOW_THR", "BAT_N_CELLS", "BAT_V_CHARGED",
    "BAT_V_DIV", "BAT_V_EMPTY", "CAL_ACC0_ID", "CAL_GYRO0_ID", "CAL_MAG0_ID", "CAL_MAG0_ROT",
    "CAL_MAG1_ID", "CAL_MAG1_ROT", "CAL_MAG2_ID", "CAL_MAG2_ROT", "CAL_MAG3_ID", "CAL_MAG3_ROT",
    "SENS_BOARD_ROT", "SENS_BOARD_X_OFF", "SENS_BOARD_Y_OFF", "SENS_BOARD_Z_OFF", "SENS_DPRES_OFF",
    "TRIG_MODE", "UAVCAN_ENABLE"]

/-- Whether a parameter is one of them. -/
def isRequired (param : ℕ) : Bool :=
  required.any fun name => paramFindInternal t (ascii name) == some param

/-- The first call of `send` finds them, and so marks them as used. -/
def markRequired (s : Link F) : Link F :=
  if s.manager.firstSend then s
  else { s with
    used := fun param => s.used param || isRequired t param
    manager := { s.manager with firstSend := true } }

/-- `send`; on a serial port that is not USB it takes three rounds, otherwise twenty. -/
def send (s : Link F) (serial : Bool) (rounds : ℕ → Round) : Link F × List (Message F) :=
  sendLoop t (if serial then 3 else 20) (markRequired t s) rounds

/-- `PARAM_REQUEST_LIST`: a restart skips the hash. -/
def requestList (s : Link F) : Link F :=
  { s with manager := { s.manager with
      sendAllIndex := if s.manager.sendAllIndex < 0 then paramHash else 0 } }

/-! ## Runs -/

inductive Event (F : Type) where
  | paramSet (param : ℕ) (val : ParamValue F) (timestamp : UInt64)
  | requestList
  | send (serial : Bool) (rounds : ℕ → Round)

def step (s : Link F) : Event F → Link F
  | .paramSet param val timestamp => paramSet ops exceeds t s param val timestamp
  | .requestList => requestList s
  | .send serial rounds => (send t s serial rounds).1

/-- What happens on a link: a parameter is set, or a message goes out. -/
inductive Entry (F : Type) where
  | set (param : ℕ)
  | sent (message : Message F)

/-- The log, latest entry first, with the messages of a call. -/
def addSent (out : List (Message F)) (log : List (Entry F)) : List (Entry F) :=
  out.reverse.map .sent ++ log

/-- What an event adds to the log. -/
def record (s : Link F) (e : Event F) (log : List (Entry F)) : List (Entry F) :=
  match e with
  | .paramSet param _ _ => .set param :: log
  | .requestList => log
  | .send serial rounds => addSent (send t s serial rounds).2 log

/-- The messages since a parameter was last set. -/
def sinceSet (param : ℕ) : List (Entry F) → List (Message F)
  | [] => []
  | .set p :: log => if p = param then [] else sinceSet param log
  | .sent message :: log => message :: sinceSet param log

/-- The manager at startup. -/
def Manager.initial : Manager where
  firstSend := false
  sendAllIndex := -1
  paramUpdateTime := 0
  paramUpdateIndex := 0
  lastUpdate := 0
  unread := none

end Parameters
end Mavlink
end DtPhm
