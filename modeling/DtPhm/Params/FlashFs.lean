import DtPhm.Lib.Flash
import DtPhm.Lib.Run

/-!
# FlashFs — parameters in flash sectors, as `flashfs.c` stores them

The parameters are one file, kept as entries in a few flash sectors.  An entry has a header of 16
bytes with a CRC.  A write marks the stored entry as erased and programs a new one behind it, or at
the start of the next sector where there is no room left.

* `Board` — the sector map and what the code uses of the board;
* `findEntry`, `findFree` — the two searches through the sectors;
* `place`, `parameterFlashfsWrite`, `parameterFlashfsRead`, `parameterFlashfsInit` — the calls;
* `Event`, `step` — runs, in which a write may be cut off by a loss of power.

The searches compare pointers for equality with the last word of a sector, and go on to the end of
the address space if they miss it: then they are `lost`.
-/

namespace DtPhm
namespace Params
namespace FlashFs

open Lib

/-! ## The board -/

/-- `sector_descriptor_t`. -/
structure Sector where
  page : ℕ
  size : ℕ
  address : ℕ
deriving DecidableEq

/-- One past the last byte. -/
def Sector.stop (s : Sector) : ℕ := s.address + s.size

/-- `pe`: the last word of the sector. -/
def Sector.lastWord (s : Sector) : ℕ := s.address + s.size / 4 * 4 - 4

/-- The sector map, up to its terminator, and what the code uses of the board: the page of an
address, and the CRC.  `eraseblock` of a page erases its sector. -/
structure Board where
  sectors : List Sector
  nonempty : sectors ≠ []
  address_ne : ∀ s ∈ sectors, s.address ≠ 0
  page_ne : ∀ s ∈ sectors, s.page ≠ 0
  aligned : ∀ s ∈ sectors, 4 ∣ s.size
  inMemory : ∀ s ∈ sectors, s.stop ≤ 2 ^ 32
  disjoint : sectors.Pairwise fun s t => s.stop ≤ t.address ∨ t.stop ≤ s.address
  getpage : ℕ → ℤ
  getpage_address : ∀ s ∈ sectors, getpage s.address = s.page
  crc32 : List UInt8 → UInt32

/-- The words of the address space; irreducible, so that nobody unfolds a search through it. -/
@[irreducible] def addressWords : ℕ := 2 ^ 30

/-! ## Entries -/

def word (m : Mem) (a : ℕ) : ℕ := leValue (load m a 4)

def half (m : Mem) (a : ℕ) : ℕ := leValue (load m a 2)

def magicSig : ℕ := 0xaa553cc3

def blankSig : ℕ := 0xffffffff

/-- `ValidEntry`. -/
def validFlag : ℕ := 0xa5ac

/-- `parameters_token`. -/
def parametersToken : List UInt8 := [0x70, 0x61, 0x72, 0x6d]

/-- `sizeof(flash_entry_header_t)`. -/
def headerSize : ℕ := 16

def validMagic (m : Mem) (a : ℕ) : Bool := word m a == magicSig

def blankMagic (m : Mem) (a : ℕ) : Bool := word m a == blankSig

/-- The fields of the packed header at `a`. -/
def entryFlag (m : Mem) (a : ℕ) : ℕ := half m (a + 4)

def entryCrc (m : Mem) (a : ℕ) : ℕ := word m (a + 6)

def entrySize (m : Mem) (a : ℕ) : ℕ := half m (a + 10)

def entryToken (m : Mem) (a : ℕ) : List UInt8 := load m (a + 12) 4

def blankEntry (m : Mem) (a : ℕ) : Bool := word m a == blankSig && entryFlag m a == 0xffff

def validEntry (m : Mem) (a : ℕ) : Bool := entryFlag m a &&& 0xfffc == validFlag

/-- `entry_data_length`, a number of 16 bits. -/
def entryDataLength (m : Mem) (a : ℕ) : ℕ :=
  (entrySize m a + 65536 - (headerSize + (entryFlag m a &&& 3))) % 65536

/-- `entry_crc_length`, a number of 16 bits. -/
def entryCrcLength (m : Mem) (a : ℕ) : ℕ := (entrySize m a + 65536 - 10) % 65536

/-- The CRC covers the entry from its size on. -/
def crcMatches (B : Board) (m : Mem) (a : ℕ) : Bool :=
  entryCrc m a == (B.crc32 (load m (a + 10) (entryCrcLength m a))).toNat

/-- `blank_check`. -/
def blankCheck (m : Mem) (a n : ℕ) : Bool :=
  (List.range (n / 4)).all fun i => word m (a + 4 * i) == blankSig

/-! ## The searches -/

/-- What a search comes to. -/
inductive Search where
  | found (a : ℕ)
  | absent
  | lost
deriving DecidableEq

/-- The loop that hunts for a magic word from `a` on. -/
def hunt (m : Mem) (last : ℕ) : ℕ → ℕ → Option ℕ
  | 0, _ => none
  | n + 1, a => if a = last || validMagic m a then some a else hunt m last n (a + 4)

/-- The search for the parameters in a sector, from `a` on.  Behind a bad CRC it goes on with the
next sector. -/
def searchSector (B : Board) (m : Mem) (last : ℕ) : ℕ → ℕ → Search
  | 0, _ => .lost
  | n + 1, a =>
      match hunt m last addressWords a with
      | none => .lost
      | some a =>
          if a = last then .absent
          else if crcMatches B m a then
            if validEntry m a && entryToken m a == parametersToken then .found a
            else if blankEntry m (a + entrySize m a) then .absent
            else searchSector B m last n (a + entrySize m a)
          else .absent

/-- A search sector by sector. -/
def searchSectors (search : Sector → Search) : List Sector → Search
  | [] => .absent
  | s :: rest =>
      match search s with
      | .absent => searchSectors search rest
      | result => result

/-- `find_entry(parameters_token)`. -/
def findEntry (B : Board) (m : Mem) : Search :=
  searchSectors (fun s => searchSector B m s.lastWord addressWords s.address) B.sectors

/-- Where the loop of `find_free` looks: behind an entry, or behind a magic word with a bad CRC. -/
def skipEntry (B : Board) (m : Mem) (a : ℕ) : ℕ :=
  if validMagic m a then
    if crcMatches B m a then a + entrySize m a else a + 4
  else a

/-- Whether there is room for so many bytes. -/
def isFree (m : Mem) (required a : ℕ) : Bool :=
  blankMagic m a && blankEntry m a && blankCheck m a required

/-- The search for room in a sector. -/
def freeInSector (B : Board) (m : Mem) (required last : ℕ) : ℕ → ℕ → Search
  | 0, _ => .lost
  | n + 1, a =>
      let a := skipEntry B m a
      if isFree m required a then .found a
      else if a + 4 = last then .absent
      else freeInSector B m required last n (a + 4)

/-- `find_free`. -/
def findFree (B : Board) (m : Mem) (required : ℕ) : Search :=
  searchSectors (fun s => freeInSector B m required s.lastWord addressWords s.address) B.sectors

/-! ## Writing and reading -/

/-- The size of an entry for so many bytes of data, a multiple of four. -/
def totalSize (n : ℕ) : ℕ := (n + headerSize + 3) / 4 * 4

def sizeAdjust (n : ℕ) : ℕ := totalSize n - (n + headerSize)

/-- The data of a call: the size of its entry is a number of 16 bits. -/
abbrev Data := { bytes : List UInt8 // totalSize bytes.length < 65536 }

/-- The size of its entry. -/
def Data.total (d : Data) : ℕ := totalSize d.1.length

/-- An entry from its size on. -/
def entryBody (d : Data) : List UInt8 :=
  leBytes 2 d.total ++ parametersToken ++ d.1 ++ List.replicate (sizeAdjust d.1.length) 0xff

/-- An entry. -/
def entryBytes (B : Board) (d : Data) : List UInt8 :=
  leBytes 4 magicSig ++ leBytes 2 (validFlag + sizeAdjust d.1.length) ++
    leBytes 4 (B.crc32 (entryBody d)).toNat ++ entryBody d

/-- `get_sector_info`: the index of the sector of an address. -/
def getSectorInfo (B : Board) (a : ℕ) : Option ℕ :=
  B.sectors.findIdx? fun s => s.address ≤ a && a < s.stop

/-- Whether an entry of so many bytes fits behind `a` in its sector. -/
def fitsBehind (m : Mem) (s : Sector) (a total : ℕ) : Bool :=
  let next := (if validMagic m a then a + entrySize m a else a) + total
  s.address ≤ next && next < s.stop

/-- `get_next_sector_descriptor`. -/
def nextSector (B : Board) (k : ℕ) : ℕ := if k + 1 < B.sectors.length then k + 1 else 0

/-- `erase_entry`. -/
def eraseEntry (a : ℕ) : FlashOp := .program (a + 4) [0, 0]

/-- `erase_sector`. -/
def eraseSector (B : Board) (s : Sector) (a : ℕ) : List FlashOp :=
  if 0 < B.getpage a ∧ B.getpage a = s.page then [.erase s.address s.size] else []

/-- Where a new entry goes, and what is done before it is programmed. -/
inductive Place where
  | lost
  | noSpace
  | at (before : List FlashOp) (a : ℕ)
deriving DecidableEq

/-- The first part of `parameter_flashfs_write`. -/
def place (B : Board) (m : Mem) (total : ℕ) : Place :=
  match findEntry B m with
  | .lost => .lost
  | .absent =>
      match findFree B m total with
      | .lost => .lost
      | .absent => .noSpace
      | .found a => .at [] a
  | .found a =>
      match getSectorInfo B a with
      | none => .lost
      | some k =>
          match B.sectors[k]?, B.sectors[nextSector B k]? with
          | some s, some next =>
              if fitsBehind m s a total then .at [eraseEntry a] (a + entrySize m a)
              else if next.size < total then .noSpace
              else if blankCheck ((eraseEntry a).apply m) next.address total then
                .at [eraseEntry a] next.address
              else .at (eraseEntry a :: eraseSector B next next.address) next.address
          | _, _ => .lost

/-- The operations of a write, in their order. -/
def writeOps (B : Board) (m : Mem) (d : Data) : List FlashOp :=
  match place B m d.total with
  | .at before a => before ++ wordOps a (entryBytes B d)
  | _ => []

/-- What a call comes to: it returns a number, or a search was lost. -/
inductive Result where
  | returned (rv : ℤ)
  | lost
deriving DecidableEq

/-- `parameter_flashfs_write`. -/
def parameterFlashfsWrite (B : Board) (m : Mem) (d : Data) : Result × Mem :=
  (match place B m d.total with
    | .lost => .lost
    | .noSpace => .returned (-28)
    | .at _ _ => .returned d.1.length, applyOps m (writeOps B m d))

/-- `parameter_flashfs_read`: the data, or an error. -/
def parameterFlashfsRead (B : Board) (m : Mem) : Except Result (List UInt8) :=
  match findEntry B m with
  | .lost => .error .lost
  | .absent => .error (.returned (-2))
  | .found a => .ok (load m (a + headerSize) (entryDataLength m a))

/-- `parameter_flashfs_erase`. -/
def parameterFlashfsErase (B : Board) (m : Mem) : Mem :=
  applyOps m (B.sectors.flatMap fun s => eraseSector B s s.address)

/-- `parameter_flashfs_init`, with a buffer of `size` bytes; `none` if a search is lost. -/
def parameterFlashfsInit (B : Board) (m : Mem) (size : ℕ) : Option Mem :=
  match findEntry B m with
  | .lost => none
  | .found _ => some m
  | .absent =>
      match findFree B m (totalSize size % 65536) with
      | .lost => none
      | .found _ => some m
      | .absent => some (parameterFlashfsErase B m)

/-! ## Runs -/

/-- A write, or a write that is cut off after some of its operations, with the call of `init` when
the power is back. -/
inductive Event where
  | write (d : Data)
  | cutWrite (d : Data) (n : ℕ) (size : ℕ)

/-- The memory after an event; there is none after a search was lost. -/
def step (B : Board) (s : Option Mem) (e : Event) : Option Mem :=
  match s, e with
  | none, _ => none
  | some m, .write d =>
      match parameterFlashfsWrite B m d with
      | (.lost, _) => none
      | (.returned _, m) => some m
  | some m, .cutWrite d n size =>
      match place B m d.total with
      | .lost => none
      | _ => parameterFlashfsInit B (applyOps m ((writeOps B m d).take n)) size

/-- The data of the last write, if it was the last event and returned its length. -/
def record (B : Board) (s : Option Mem) (e : Event) (_ : Option Data) : Option Data :=
  match s, e with
  | some m, .write d =>
      if (parameterFlashfsWrite B m d).1 = .returned d.1.length then some d else none
  | _, _ => none

end FlashFs
end Params
end DtPhm
