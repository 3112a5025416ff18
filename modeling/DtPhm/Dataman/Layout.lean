import Mathlib.Data.List.Basic

/-!
# Layout — the keys of the data manager and the tables of their sizes

The item types of `dataman.h`, and the tables of `dataman.cpp` that say how many entries each type
has and how many bytes an entry takes.  The mission manager takes its limits from them, the two
backends their offsets.
-/

namespace DtPhm
namespace Dataman

/-- The build variants `navigation.h` and `dataman.h` distinguish. -/
inductive Platform
  | memoryConstrained
  | posix
  | nuttx
  deriving DecidableEq, Repr

/-- `NUM_MISSIONS_SUPPORTED`. -/
def numMissionsSupported : Platform → ℕ
  | .memoryConstrained => 50
  | .posix => 65534
  | .nuttx => 2000

/-- `dm_item_t`, without `DM_KEY_NUM_KEYS`. -/
inductive DmItem
  | safePoints
  | fencePoints
  | waypointsOffboard0
  | waypointsOffboard1
  | waypointsOnboard
  | missionState
  | compat
  deriving DecidableEq, Repr

/-- `DM_KEY_NUM_KEYS`. -/
def dmKeyNumKeys : ℕ := 7

namespace DmItem

/-- The item types in the order of their numbers. -/
def keys : List DmItem :=
  [.safePoints, .fencePoints, .waypointsOffboard0, .waypointsOffboard1, .waypointsOnboard,
    .missionState, .compat]

def code : DmItem → ℕ
  | .safePoints => 0
  | .fencePoints => 1
  | .waypointsOffboard0 => 2
  | .waypointsOffboard1 => 3
  | .waypointsOnboard => 4
  | .missionState => 5
  | .compat => 6

/-- `g_per_item_max_index`. -/
def perItemMaxIndex (p : Platform) : DmItem → ℕ
  | .safePoints => 8
  | .fencePoints => if p = .memoryConstrained then 16 else 64
  | .waypointsOffboard0 => numMissionsSupported p
  | .waypointsOffboard1 => numMissionsSupported p
  | .waypointsOnboard =>
      if p = .memoryConstrained then numMissionsSupported p / 10 else numMissionsSupported p
  | .missionState => 1
  | .compat => 1

end DmItem

/-- `DM_SECTOR_HDR_SIZE`. -/
def dmSectorHdrSize : ℕ := 4

/-- The `sizeof` of the struct stored under a key. -/
def DmItem.dataSize : DmItem → ℕ
  | .safePoints => 24
  | .fencePoints => 32
  | .waypointsOffboard0 => 56
  | .waypointsOffboard1 => 56
  | .waypointsOnboard => 56
  | .missionState => 16
  | .compat => 8

/-- `g_per_item_size`. -/
def DmItem.perItemSize (item : DmItem) : ℕ := item.dataSize + dmSectorHdrSize

/-- The item type of a number, if it is one. -/
def DmItem.ofCode? (n : ℕ) : Option DmItem := DmItem.keys[n]?

@[simp] theorem DmItem.ofCode?_code (item : DmItem) : DmItem.ofCode? item.code = some item := by
  cases item <;> rfl

theorem DmItem.ofCode?_eq_none {n : ℕ} : DmItem.ofCode? n = none ↔ dmKeyNumKeys ≤ n := by
  simp [DmItem.ofCode?, DmItem.keys, dmKeyNumKeys]

end Dataman
end DtPhm
