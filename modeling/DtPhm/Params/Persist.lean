import DtPhm.Bson.RoundTrip
import DtPhm.Params.Store

/-!
# Persist — saving and loading the parameter store

`param_export` writes the values that differ from their defaults as a BSON document, through a
staging buffer of 256 bytes and into a file that is not truncated; `param_load` forgets all values
and sets those of the document again.
-/

namespace DtPhm
namespace Params

open Lib Bson

variable {F : Type} (ops : FloatOps F) (t : Table F)

/-! ## Saving -/

/-- "Don't export default values": an integer equal to its default, a float within an epsilon of
it. -/
def skipsExport (s : Store F) (w : Wbuf F) : Bool :=
  let default := (paramGetDefaultValueInternal t s w.param).getD { i := 0, f := ops.zero }
  match paramType t w.param with
  | some .int32 => w.val.i == default.i
  | some .float => ops.within w.val.f default.f
  | none => false

/-- The BSON object of a value. -/
def exportAppend (w : Wbuf F) : Option Append :=
  match t.infos[w.param]? with
  | some info =>
      match info.type with
      | .int32 => some (.int info.name (w.val.i.signExtend 64))
      | .float => some (.double info.name (ops.widen w.val.f))
  | none => none

theorem exportAppend_name {ops : FloatOps F} {t : Table F} {w : Wbuf F} {a : Append}
    (h : exportAppend ops t w = some a) :
    ∃ info ∈ t.infos, a.name = info.name ∧ a.tail = [] ∧ ∀ p ∈ a.payload, p.length ≤ 8 := by
  unfold exportAppend at h
  split at h
  · rename_i info hinfo
    refine ⟨info, List.mem_of_getElem? hinfo, ?_⟩
    split at h <;> cases h
    · refine ⟨rfl, rfl, ?_⟩
      intro p hp
      simp only [Append.payload] at hp
      split at hp <;> simp_all
    · exact ⟨rfl, rfl, by simp [Append.payload]⟩
  · simp at h

theorem exportAppend_pieces {ops : FloatOps F} {t : Table F} {w : Wbuf F} {a : Append}
    (h : exportAppend ops t w = some a) (hname : a.name.chars.length ≤ bsonMaxname) :
    ∀ p ∈ a.pieces, p.length ≤ 256 := by
  rcases exportAppend_name h with ⟨_, _, _, _, hpayload⟩
  simp only [bsonMaxname] at hname
  intro p hp
  simp only [Append.pieces, List.mem_cons] at hp
  rcases hp with rfl | rfl | hp
  · simp
  · rw [CString.length_bytes]
    omega
  · have := hpayload p hp
    omega

/-- The loop of `param_export`: whether every append was accepted, the encoder, and the array with
the exported entries marked as saved. -/
def exportLoop (env : Env) (s : Store F) : Encoder → List (Wbuf F) → Bool × Encoder × List (Wbuf F)
  | e, [] => (true, e, [])
  | e, w :: ws =>
      if skipsExport ops t s w then
        match exportLoop env s e ws with
        | (ok, e, ws) => (ok, e, w :: ws)
      else
        match exportAppend ops t w with
        | some a =>
            match append env e a with
            | (true, e) =>
                match exportLoop env s e ws with
                | (ok, e, ws) => (ok, e, { w with unsaved := false } :: ws)
            | (false, e) => (false, e, { w with unsaved := false } :: ws)
        | none =>
            match exportLoop env s e ws with
            | (ok, e, ws) => (ok, e, { w with unsaved := false } :: ws)

/-- `param_export` of everything to an open file with this content; the result of the encoder's
start is not looked at. -/
def paramExport (env : Env) (s : Store F) (content : List UInt8) : Bool × Store F × Encoder :=
  let e := (bsonEncoderInitBufFile env (Disk.opened content) 256).2
  match s.values with
  | none =>
      match bsonEncoderFini env e with
      | (ok, e) => (ok, s, e)
  | some values =>
      match exportLoop ops t env s e values with
      | (false, e, values) => (false, { s with values := some values }, e)
      | (true, e, values) =>
          match bsonEncoderFini env e with
          | (ok, e) => (ok, { s with values := some values }, e)

/-- What the file holds after an encoder has written to it. -/
def fileOf (e : Encoder) (content : List UInt8) : List UInt8 :=
  (e.fd.map Disk.bytes).getD content

/-- The attempts of `param_save_default`: each one opens the file (`opens k` is `none` where that
fails) and exports.  A file that did not exist has no content. -/
def saveAttempts (opens : ℕ → Option Env) : ℕ → Store F → List UInt8 → Bool × Store F × List UInt8
  | 0, s, content => (false, s, content)
  | n + 1, s, content =>
      match opens n with
      | none => saveAttempts opens n s content
      | some env =>
          match paramExport ops t env s content with
          | (true, s, e) => (true, s, fileOf e content)
          | (false, s, e) => saveAttempts opens n s (fileOf e content)

def paramSaveDefault (opens : ℕ → Option Env) (s : Store F) (content : List UInt8) :
    Bool × Store F × List UInt8 :=
  saveAttempts ops t opens 5 s content

/-! ## Loading -/

/-- The bytes of a name. -/
def ascii (s : String) : List UInt8 := s.toList.map fun c => UInt8.ofNat c.toNat

/-- The names that `param_modify_on_import` looks for. -/
def rewrittenNames : List (List UInt8) :=
  ["COM_ARM_AUTH",
    "MPC_XY_VEL_P", "MPC_XY_VEL_I", "MPC_XY_VEL_D", "MPC_Z_VEL_P", "MPC_Z_VEL_I", "MPC_Z_VEL_D",
    "MC_DTERM_CUTOFF",
    "CAL_ACC0_EN", "CAL_ACC1_EN", "CAL_ACC2_EN", "CAL_GYRO0_EN", "CAL_GYRO1_EN", "CAL_GYRO2_EN",
    "CAL_MAG0_EN", "CAL_MAG1_EN", "CAL_MAG2_EN", "CAL_MAG3_EN",
    "EKF2_GPS_MASK", "EKF2_GPS_TAU",
    "PWM_MIN", "PWM_MAX", "PWM_RATE", "PWM_DISARMED",
    "ASPD_STALL",
    "CAL_ACC0_ID", "CAL_GYRO0_ID", "CAL_MAG0_ID", "TC_A0_ID", "TC_B0_ID", "TC_G0_ID",
    "CAL_ACC1_ID", "CAL_GYRO1_ID", "CAL_MAG1_ID", "TC_A1_ID", "TC_B1_ID", "TC_G1_ID",
    "CAL_ACC2_ID", "CAL_GYRO2_ID", "CAL_MAG2_ID", "TC_A2_ID", "TC_B2_ID", "TC_G2_ID"].map ascii

/-- What `param_modify_on_import` does to a node with one of these names (it may set other
parameters as well). -/
abbrev Translate (F : Type) := Node → Store F → Node × Store F

/-- `param_modify_on_import`: nodes with another name pass unchanged. -/
def paramModifyOnImport (translate : Translate F) (node : Node) (s : Store F) : Node × Store F :=
  if node.name ∈ rewrittenNames then translate node s else (node, s)

/-- `node->i`. -/
def nodeI (node : Node) : BitVec 64 :=
  match node.value with
  | .i value => value
  | _ => 0

/-- `node->d`. -/
def nodeD (node : Node) : BitVec 64 :=
  match node.value with
  | .d value => value
  | _ => 0

/-- The end of `param_import_callback`: 1 lets the import go on. -/
def importSet (markSaved : Bool) (s : Store F) (param : ℕ) (val : ParamValue F) : Int × Store F :=
  match paramSetInternal ops t s param val markSaved with
  | (true, s) => (1, s)
  | (false, s) => (-1, s)

def paramImportCallback (translate : Translate F) (markSaved : Bool) (s : Store F) (d : Decoder) :
    Int × Store F × Decoder :=
  if d.node.type = .eoo then
    (0, s, d)
  else
    match paramModifyOnImport translate d.node s with
    | (node, s) =>
        let d := { d with node := node }
        match paramFindInternal t node.name with
        | none => (1, s, d)
        | some param =>
            match node.type with
            | .int32 =>
                if paramType t param = some .int32 then
                  match importSet ops t markSaved s param
                    { i := (nodeI node).setWidth 32, f := ops.zero } with
                  | (result, s) => (result, s, d)
                else (1, s, d)
            | .double =>
                if paramType t param = some .float then
                  match importSet ops t markSaved s param
                    { i := 0, f := ops.narrow (nodeD node) } with
                  | (result, s) => (result, s, d)
                else (1, s, d)
            | _ => (-1, s, d)

/-- The attempts of `param_import_internal`; every call of `bson_decoder_next` that lets the loop go
on has read a byte, which bounds their number. -/
def importAttempts (translate : Translate F) (markSaved : Bool) (content : List UInt8) :
    ℕ → Store F → Bool × Store F
  | 0, s => (false, s)
  | n + 1, s =>
      match bsonDecoderInitFile content with
      | (true, d) =>
          match nextLoop (paramImportCallback ops t translate markSaved) (content.length + 1) s d
            with
          | (result, s, _) =>
              if result = 0 then (true, s) else importAttempts translate markSaved content n s
      | (false, _) => importAttempts translate markSaved content n s

def paramImportInternal (translate : Translate F) (markSaved : Bool) (content : List UInt8)
    (s : Store F) : Bool × Store F :=
  importAttempts ops t translate markSaved content 4 s

def paramLoad (translate : Translate F) (content : List UInt8) (s : Store F) : Bool × Store F :=
  paramImportInternal ops t translate true content (paramResetAllInternal s)

/-- `param_load_default`: 0 for success, 1 if there is no file, -2 if reading failed. -/
def paramLoadDefault (translate : Translate F) (file : Option (List UInt8)) (s : Store F) :
    Int × Store F :=
  match file with
  | none => (1, s)
  | some content =>
      match paramLoad ops t translate content s with
      | (true, s) => (0, s)
      | (false, s) => (-2, s)

end Params
end DtPhm
