import DtPhm.Lib.Bytes
import DtPhm.Dataman.Layout

/-!
# Backends — the RAM backend and the file backend of the data manager

`dataman.cpp` keeps its entries in packed slots of one byte array: a header of four bytes (length,
persistence, two unused bytes), then the user data.  The array is a `malloc`ed buffer in one backend
and a file in the other.  The two sets of operations are modelled here as the source has them.

An item argument is a number, since the operations are called with numbers that are no item type.
The file is error free: `lseek` goes where it is sent, and `read` and `write` only stop short at the
end of the file.
-/

namespace DtPhm
namespace Dataman

open Lib

/-! ## Requests and results -/

/-- `dm_persitence_t`. -/
inductive Persistence
  | powerOnReset
  | inFlightReset
  | volatile
  deriving DecidableEq, Repr

def Persistence.code : Persistence → UInt8
  | .powerOnReset => 0
  | .inFlightReset => 1
  | .volatile => 2

/-- `dm_reset_reason`. -/
inductive ResetReason
  | powerOn
  | inFlight
  | volatile
  deriving DecidableEq, Repr

/-- The requests the worker task takes from its queue. -/
inductive Op
  | write (item index : ℕ) (persistence : Persistence) (buf : List UInt8)
  | read (item index count : ℕ)
  | clear (item : ℕ)
  | restart (reason : ResetReason)
  deriving DecidableEq, Repr

/-- What a request returns, and the bytes it has copied to the caller's buffer. -/
structure Reply where
  result : ℤ
  data : List UInt8
  deriving DecidableEq, Repr

/-- A request that copies nothing to its caller. -/
def Reply.code (result : ℤ) : Reply := ⟨result, []⟩

/-- `E2BIG`. -/
def e2big : ℤ := 7

/-! ## Offsets -/

/-- `g_key_offsets`, the running sum of `task_main`. -/
def gKeyOffsets (p : Platform) : ℕ → ℕ
  | 0 => 0
  | i + 1 =>
      match DmItem.ofCode? i with
      | some k => gKeyOffsets p i + k.perItemMaxIndex p * k.perItemSize
      | none => gKeyOffsets p i

/-- `max_offset` of `task_main`. -/
def maxOffset (p : Platform) : ℕ :=
  gKeyOffsets p DmItem.compat.code + DmItem.compat.perItemMaxIndex p * DmItem.compat.perItemSize

/-- `calculate_offset`, without a value where the source returns -1. -/
def calculateOffset (p : Platform) (item index : ℕ) : Option ℕ :=
  match DmItem.ofCode? item with
  | none => none
  | some k =>
      if k.perItemMaxIndex p ≤ index then none
      else some (gKeyOffsets p item + index * k.perItemSize)

/-- The largest offset fits the `int` that `calculate_offset` returns, so none of its sums wraps. -/
theorem maxOffset_lt (p : Platform) : maxOffset p < 2 ^ 31 := by
  cases p <;> decide

/-! ## The header -/

/-- The header written before `count` bytes of user data. -/
def header (count : ℕ) (persistence : Persistence) : List UInt8 :=
  [UInt8.ofNat count, persistence.code, 0, 0]

@[simp] theorem length_header (count : ℕ) (persistence : Persistence) :
    (header count persistence).length = dmSectorHdrSize := rfl

/-- What both reads do with the slot in `buffer`: check its length against the caller's `count`,
then copy the user data out. -/
def copyOut (buffer : Mem) (count : ℕ) : Reply :=
  if 0 < (buffer 0).toNat then
    -- we got more than requested
    if count < (buffer 0).toNat then .code (-1)
    else ⟨(buffer 0).toNat, load buffer dmSectorHdrSize (buffer 0).toNat⟩
  else .code (buffer 0).toNat

/-- `clear_entry` of both restarts, for a slot with these two leading bytes. -/
def clearEntry (reason : ResetReason) (length persistence : UInt8) : Bool :=
  decide (length ≠ 0) &&
    (if reason = .powerOn then decide (Persistence.powerOnReset.code < persistence)
    else decide (Persistence.inFlightReset.code < persistence))

/-! ## The RAM backend -/

/-- `dm_operations_data.ram`: `data_end` is the last of the `size` bytes. -/
structure Ram where
  data : Mem
  size : ℕ

/-- `_ram_initialize`, with the memory it asks for. -/
def ramInitialize (p : Platform) : Ram := ⟨fun _ => 0, maxOffset p⟩

/-- `buffer > dm_operations_data.ram.data_end`. -/
def Ram.pastEnd (ram : Ram) (offset : ℕ) : Bool := decide (ram.size - 1 < offset)

/-- `_ram_write`. -/
def ramWrite (p : Platform) (ram : Ram) (item index : ℕ) (persistence : Persistence)
    (buf : List UInt8) : Reply × Ram :=
  match DmItem.ofCode? item, calculateOffset p item index with
  | some k, some offset =>
      if k.perItemSize - dmSectorHdrSize < buf.length then (.code (-e2big), ram)
      else if ram.pastEnd offset then (.code (-1), ram)
      else (.code buf.length,
        { ram with data := store ram.data offset (header buf.length persistence ++ buf) })
  | _, _ => (.code (-1), ram)

/-- `_ram_read`. -/
def ramRead (p : Platform) (ram : Ram) (item index count : ℕ) : Reply :=
  match DmItem.ofCode? item, calculateOffset p item index with
  | some k, some offset =>
      if k.perItemSize - dmSectorHdrSize < count then .code (-e2big)
      else if ram.pastEnd offset then .code (-1)
      else copyOut (fun i => ram.data (offset + i)) count
  | _, _ => .code (-1)

/-- The loop of `_ram_clear`, with `n` entries to go. -/
def ramClearLoop (size : ℕ) : ℕ → ℕ → Ram → Reply × Ram
  | 0, _, ram => (.code 0, ram)
  | n + 1, offset, ram =>
      if ram.pastEnd offset then (.code (-1), ram)
      else ramClearLoop size n (offset + size)
        { ram with data := clearHead (fun _ _ => true) ram.data offset }

/-- `_ram_clear`. -/
def ramClear (p : Platform) (ram : Ram) (item : ℕ) : Reply × Ram :=
  match DmItem.ofCode? item, calculateOffset p item 0 with
  | some k, some offset => ramClearLoop k.perItemSize (k.perItemMaxIndex p) offset ram
  | _, _ => (.code (-1), ram)

/-- The inner loop of `_ram_restart`, with `n` entries to go; it moves the pointer on. -/
def ramRestartLoop (reason : ResetReason) (size : ℕ) : ℕ → ℕ → Ram → ℕ × Ram
  | 0, buffer, ram => (buffer, ram)
  | n + 1, buffer, ram =>
      ramRestartLoop reason size n (buffer + size)
        { ram with data := clearHead (clearEntry reason) ram.data buffer }

/-- The outer loop of `_ram_restart`. -/
def ramRestartKeys (p : Platform) (reason : ResetReason) : List DmItem → ℕ × Ram → ℕ × Ram
  | [], s => s
  | k :: ks, s =>
      ramRestartKeys p reason ks
        (ramRestartLoop reason k.perItemSize (k.perItemMaxIndex p) s.1 s.2)

/-- `_ram_restart`. -/
def ramRestart (p : Platform) (ram : Ram) (reason : ResetReason) : Reply × Ram :=
  (.code 0, (ramRestartKeys p reason DmItem.keys (0, ram)).2)

/-- One request to the RAM backend. -/
def ramStep (p : Platform) (ram : Ram) : Op → Reply × Ram
  | .write item index persistence buf => ramWrite p ram item index persistence buf
  | .read item index count => (ramRead p ram item index count, ram)
  | .clear item => ramClear p ram item
  | .restart reason => ramRestart p ram reason

/-! ## The file backend -/

/-- A stack array of which `got` has overwritten the first bytes. -/
def overlay (got : List UInt8) (stack : Mem) : Mem := store stack 0 got

/-- `_file_write`.  The array on its stack takes its size from `g_per_item_size[item]` before the
item is checked: for an item that is no key this reads past the table, and the call has no defined
result. -/
def fileWrite (p : Platform) (file : File) (item index : ℕ) (persistence : Persistence)
    (buf : List UInt8) : Option (Reply × File) :=
  match DmItem.ofCode? item with
  | none => none
  | some k =>
      match calculateOffset p item index with
      | none => some (.code (-1), file)
      | some offset =>
          if k.perItemSize - dmSectorHdrSize < buf.length then some (.code (-e2big), file)
          else some (.code buf.length, file.write offset (header buf.length persistence ++ buf))

/-- `_file_read`; `stack` is what the array on its stack holds at first. -/
def fileRead (p : Platform) (stack : Mem) (file : File) (item index count : ℕ) : Reply :=
  match DmItem.ofCode? item with
  | none => .code (-1)
  | some k =>
      match calculateOffset p item index with
      | none => .code (-1)
      | some offset =>
          if k.perItemSize - dmSectorHdrSize < count then .code (-e2big)
          else
            let got := file.read offset (count + dmSectorHdrSize)
            let buffer := overlay got stack
            -- a zero length entry is an empty entry
            copyOut (if got.length = 0 then store buffer 0 [0] else buffer) count

/-- The loop of `_file_clear`, with `n` entries to go. -/
def fileClearLoop (size : ℕ) : ℕ → ℕ → File → Reply × File
  | 0, _, file => (.code 0, file)
  | n + 1, offset, file =>
      match file.read offset 1 with
      -- end of file
      | [] => (.code 0, file)
      | b :: _ =>
          -- only what has a length is overwritten, to spare the flash
          fileClearLoop size n (offset + size) (if b ≠ 0 then file.write offset [0] else file)

/-- `_file_clear`. -/
def fileClear (p : Platform) (file : File) (item : ℕ) : Reply × File :=
  match DmItem.ofCode? item, calculateOffset p item 0 with
  | some k, some offset => fileClearLoop k.perItemSize (k.perItemMaxIndex p) offset file
  | _, _ => (.code (-1), file)

/-- The inner loop of `_file_restart`, with `n` entries to go.  A short read ends both loops: the
error carries the file as it is then. -/
def fileRestartLoop (reason : ResetReason) (size : ℕ) : ℕ → ℕ → File → Except File (ℕ × File)
  | 0, offset, file => .ok (offset, file)
  | n + 1, offset, file =>
      match file.read offset 2 with
      | [length, persistence] =>
          fileRestartLoop reason size n (offset + size)
            (if clearEntry reason length persistence then file.write offset [0] else file)
      | _ => .error file

/-- The outer loop of `_file_restart`. -/
def fileRestartKeys (p : Platform) (reason : ResetReason) :
    List DmItem → ℕ × File → Except File (ℕ × File)
  | [], s => .ok s
  | k :: ks, s =>
      match fileRestartLoop reason k.perItemSize (k.perItemMaxIndex p) s.1 s.2 with
      | .ok s' => fileRestartKeys p reason ks s'
      | .error file => .error file

/-- `_file_restart`. -/
def fileRestart (p : Platform) (file : File) (reason : ResetReason) : Reply × File :=
  match fileRestartKeys p reason DmItem.keys (0, file) with
  | .ok s => (.code 0, s.2)
  | .error file => (.code (-1), file)

/-- One request to the file backend. -/
def fileStep (p : Platform) (stack : Mem) (file : File) : Op → Option (Reply × File)
  | .write item index persistence buf => fileWrite p file item index persistence buf
  | .read item index count => some (fileRead p stack file item index count, file)
  | .clear item => some (fileClear p file item)
  | .restart reason => some (fileRestart p file reason)

/-- `DM_COMPAT_KEY`, as the eight bytes of `compat_state`. -/
def dmCompatKey : List UInt8 :=
  let key := 2 * 2 ^ 32 + DmItem.waypointsOffboard0.dataSize * 2 ^ 24 +
    DmItem.missionState.dataSize * 2 ^ 16 + 4 * 2 ^ 12 + DmItem.fencePoints.dataSize * 2 ^ 8 +
    DmItem.safePoints.dataSize * 2 ^ 4 + DmItem.compat.dataSize
  (List.range 8).map fun i => UInt8.ofNat (key / 2 ^ (8 * i))

/-- `_file_initialize` where there was no file: the seek to `max_offset` does not change the length
of the new file, writing the compat entry does. -/
def fileInitialize (p : Platform) : Option File :=
  (fileWrite p ⟨fun _ => 0, 0⟩ DmItem.compat.code 0 .powerOnReset dmCompatKey).map Prod.snd

end Dataman
end DtPhm
