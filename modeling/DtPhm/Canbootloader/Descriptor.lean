import DtPhm.Canbootloader.Download
import DtPhm.Platform.Checksums

/-!
# Descriptor — firmware images and what the bootloader checks of them

`make_can_boot_descriptor.py` writes the length of an image and two checksums into a descriptor that
the linker has left in it, and `is_app_valid` looks for the descriptor in the flash and compares.
The words that are flashed later are not in the flash when an update is checked.

* `AppDescriptor`, `descriptorOffset`, `writeDescriptor` — the tool;
* `Area`, `findDescriptor`, `isAppValid` — the bootloader, with the sizes of the board as
  parameters;
* `Made`, `writeDescriptor_spec` — how an image is laid out that the tool has made.
-/

namespace DtPhm
namespace Canbootloader

open Lib DtPhm.Platform

/-- `AppDescriptor.SIGNATURE`, and `APP_DESCRIPTOR_SIGNATURE`. -/
def signature : List UInt8 := [0x40, 0xa2, 0xe4, 0xf1, 0x64, 0x68, 0x91, 0x06]

/-! ## `make_can_boot_descriptor.py` -/

/-- The fields of an `AppDescriptor`. -/
structure AppDescriptor where
  signature : List UInt8
  crc32Block1 : ℕ
  crc32Block2 : ℕ
  imageSize : ℕ
  vcsCommit : ℕ
  versionMajor : ℕ
  versionMinor : ℕ
  boardId : ℕ
  reserved : List UInt8
  deriving DecidableEq, Repr

namespace AppDescriptor

/-- `LENGTH`. -/
def length : ℕ := 36

/-- `DESLENGTH`. -/
def deslength : ℕ := 16

/-- `RESERVED`. -/
def reservedBytes : List UInt8 := List.replicate 8 0xFF

variable (d : AppDescriptor)

def pack : List UInt8 :=
  d.signature ++ leBytes 4 d.crc32Block1 ++ leBytes 4 d.crc32Block2 ++ leBytes 4 d.imageSize ++
    leBytes 4 d.vcsCommit ++ leBytes 1 d.versionMajor ++ leBytes 1 d.versionMinor ++
    leBytes 2 d.boardId ++ d.reserved

def empty : Bool :=
  d.signature == Canbootloader.signature && d.crc32Block1 == 0 && d.crc32Block2 == 0 &&
    d.imageSize == 0 && d.reserved == reservedBytes

def valid : Bool :=
  d.signature == Canbootloader.signature && d.crc32Block1 != 0 && d.crc32Block2 != 0 &&
    decide (0 < d.imageSize) && d.boardId != 0 && d.reserved == reservedBytes

/-- `unpack`, which raises an error if the bytes are no descriptor. -/
def unpack (bytes : List UInt8) : Option AppDescriptor :=
  if bytes.length ≠ length then none
  else
    let field (a n : ℕ) := (bytes.drop a).take n
    let d : AppDescriptor :=
      { signature := field 0 8
        crc32Block1 := leValue (field 8 4)
        crc32Block2 := leValue (field 12 4)
        imageSize := leValue (field 16 4)
        vcsCommit := leValue (field 20 4)
        versionMajor := leValue (field 24 1)
        versionMinor := leValue (field 25 1)
        boardId := leValue (field 26 2)
        reserved := field 28 8 }
    if ¬d.empty ∧ ¬d.valid then none else some d

end AppDescriptor

/-- The bytes that are filled up with. -/
def fill (padding : ℕ) (contents : List UInt8) : ℕ :=
  if padding = 0 then 0 else padding - contents.length % padding

/-- `app_descriptor_offset`: the first place at which a descriptor can be read; the place 0 counts
as none. -/
def descriptorOffset (padding : ℕ) (contents : List UInt8) : Option ℕ :=
  ((List.range (contents.length + fill padding contents - AppDescriptor.length)).find? fun offset =>
    (AppDescriptor.unpack ((contents.drop offset).take AppDescriptor.length)).isSome).filter
      (· != 0)

/-- Bytes are written into a file. -/
def overwrite (contents : List UInt8) (offset : ℕ) (bytes : List UInt8) : List UInt8 :=
  contents.take offset ++ bytes ++ contents.drop (offset + bytes.length)

/-- `write_descriptor`, and what is written to the file in the end. -/
def writeDescriptor (padding : ℕ) (vcsCommit : Option ℕ) (contents : List UInt8) :
    Option (List UInt8) :=
  let length := contents.length + fill padding contents
  let padded := List.replicate (fill padding contents) 0xff
  (descriptorOffset padding contents).bind fun offset =>
    (AppDescriptor.unpack ((contents.drop offset).take AppDescriptor.length)).bind fun d =>
      let d := { d with
        vcsCommit := vcsCommit.getD d.vcsCommit, imageSize := length, crc32Block1 :=
          0, crc32Block2 := 0 }
      -- a number of four bytes
      if 2 ^ 32 ≤ length ∨ 2 ^ 32 ≤ d.vcsCommit then none
      else
        let content := overwrite contents offset d.pack ++ padded
        let b2 := offset + signature.length + AppDescriptor.deslength
        let d := { d with
          crc32Block1 := (crc32 (content.take (offset + signature.length))).toNat
          crc32Block2 := (crc32 (content.drop b2)).toNat }
        some (overwrite contents offset d.pack ++ padded)

/-! ## `is_app_valid` -/

/-- Sizes of the board: `APPLICATION_SIZE`, and `APPLICATION_LAST_64BIT_ADDRRESS` from the load
address on. -/
structure Area where
  applicationSize : ℕ
  last64 : ℕ

/-- The loop of `find_descriptor`, from a place of the image on. -/
def findLoop (flash : Mem) (loadAddress last64 : ℕ) : (fuel : ℕ) → (p : ℕ) → Option ℕ
  | 0, _ => none
  | fuel + 1, p =>
      if load flash (loadAddress + p) 8 = signature then some p
      else if p + 8 < last64 then findLoop flash loadAddress last64 fuel (p + 8)
      else none

/-- `find_descriptor`: the place of the descriptor in the image. -/
def findDescriptor (image : Image) (area : Area) (flash : Mem) : Option ℕ :=
  findLoop flash image.loadAddress area.last64 (area.last64 + 1) 0

/-- The length of the second block; sizes are 32 bit integers. -/
def block2Length (imageSize descriptor : ℕ) : ℕ :=
  (imageSize + (2 ^ 32 - (descriptor + 24) % 2 ^ 32)) % 2 ^ 32

/-- `is_app_valid`, with the first words of the image. -/
def isAppValid (image : Image) (area : Area) (flash firstWords : Mem) : Bool :=
  match findDescriptor image area flash with
  | none => false
  | some descriptor =>
      let field (a : ℕ) := leValue (load flash (image.loadAddress + descriptor + a) 4)
      let length := field 16
      let block2Len := block2Length length descriptor
      if leValue (load firstWords 0 4) = 0xFFFFFFFF then false
      else if length > area.applicationSize ∨ length = 0 then false
      else if block2Len > area.applicationSize ∨ block2Len = 0 then false
      else
        let blockCrc1 := crc32Signature 0 (load firstWords 0 image.laterBytes)
        let blockCrc1 := crc32Signature blockCrc1
          (load flash (image.loadAddress + image.laterBytes) (descriptor + 8 - image.laterBytes))
        let blockCrc2 :=
          crc32Signature 0 (load flash (image.loadAddress + descriptor + 24) block2Len)
        blockCrc1.toNat == field 8 && blockCrc2.toNat == field 12

/-! ## The layout of an image -/

theorem AppDescriptor.of_unpack {bytes : List UInt8} {d : AppDescriptor}
    (h : unpack bytes = some d) :
    bytes.length = length ∧ d.signature = Canbootloader.signature ∧ d.reserved.length = 8 := by
  unfold unpack at h
  split at h
  · cases h
  · rename_i hlength
    dsimp only at h
    split at h
    · cases h
    · rename_i hgood
      obtain rfl := Option.some.inj h
      have hlength : bytes.length = length := not_not.1 hlength
      have hsignature : bytes.take 8 = Canbootloader.signature := by
        rw [not_and_or, not_not, not_not] at hgood
        rcases hgood with hempty | hvalid
        · simp [empty] at hempty
          tauto
        · simp [valid] at hvalid
          tauto
      refine ⟨hlength, hsignature, ?_⟩
      simp [hlength, length]

/-- An image that the tool has made: the code, the signature, the checksums of the two blocks, the
size, the version, and the second block. -/
structure Made (file front back : List UInt8) : Prop where
  layout : ∃ vcsCommit, file = front ++ signature ++ leBytes 4 (crc32 (front ++ signature)).toNat ++
    leBytes 4 (crc32 back).toNat ++ leBytes 4 file.length ++ leBytes 4 vcsCommit ++ back
  size : file.length < 2 ^ 32
  back_length : 12 ≤ back.length

/-- What the tool leaves of the descriptor: the version, the board and the reserved bytes. -/
def AppDescriptor.tail (d : AppDescriptor) : List UInt8 :=
  leBytes 1 d.versionMajor ++ leBytes 1 d.versionMinor ++ leBytes 2 d.boardId ++ d.reserved

theorem AppDescriptor.pack_eq (d : AppDescriptor)
    (hsignature : d.signature = Canbootloader.signature) :
    d.pack = Canbootloader.signature ++ (leBytes 4 d.crc32Block1 ++ leBytes 4 d.crc32Block2 ++
      leBytes 4 d.imageSize ++ leBytes 4 d.vcsCommit) ++ d.tail := by
  simp only [pack, tail, hsignature, List.append_assoc]

/-- The content of a file with a descriptor, cut before and behind the numbers that the tool
writes. -/
theorem overwrite_pack {contents padded : List UInt8} {offset : ℕ} {d : AppDescriptor}
    (hsignature : d.signature = signature) (hreserved : d.reserved.length = 8)
    (c₁ c₂ size vcs : ℕ) :
    overwrite contents offset
        ({ d with crc32Block1 := c₁, crc32Block2 := c₂, imageSize := size, vcsCommit := vcs } :
          AppDescriptor).pack ++ padded =
      contents.take offset ++ signature ++
        (leBytes 4 c₁ ++ leBytes 4 c₂ ++ leBytes 4 size ++ leBytes 4 vcs) ++
          (d.tail ++ contents.drop (offset + AppDescriptor.length) ++ padded) := by
  set d' : AppDescriptor :=
    { d with crc32Block1 := c₁, crc32Block2 := c₂, imageSize := size, vcsCommit := vcs }
  have htail : d'.tail = d.tail := rfl
  have hpack : d'.pack.length = AppDescriptor.length := by
    rw [d'.pack_eq hsignature, htail]
    simp [AppDescriptor.tail, hreserved, signature, AppDescriptor.length]
  rw [overwrite, hpack, d'.pack_eq hsignature, htail]
  simp only [List.append_assoc, d']

theorem writeDescriptor_spec {padding : ℕ} {vcsCommit : Option ℕ} {contents file : List UInt8}
    (h : writeDescriptor padding vcsCommit contents = some file) :
    ∃ offset back, descriptorOffset padding contents = some offset ∧ offset ≠ 0 ∧
      offset ≤ contents.length ∧ Made file (contents.take offset) back := by
  obtain ⟨offset, hoffset, h⟩ := Option.bind_eq_some_iff.1 h
  obtain ⟨d, hd, h⟩ := Option.bind_eq_some_iff.1 h
  obtain ⟨hlength, hsignature, hreserved⟩ := AppDescriptor.of_unpack hd
  have hzero : offset ≠ 0 := by
    have := (Option.filter_eq_some_iff.1 hoffset).2
    simpa using this
  have hinside : offset + AppDescriptor.length ≤ contents.length := by
    rw [List.length_take, List.length_drop] at hlength
    have : 0 < AppDescriptor.length := by decide
    omega
  have hfront : (contents.take offset).length = offset := List.length_take_of_le (by omega)
  dsimp only at h
  split at h
  · cases h
  · rename_i hrange
    set padded : List UInt8 := List.replicate (fill padding contents) 0xff with hpadded
    rw [overwrite_pack hsignature hreserved, overwrite_pack hsignature hreserved] at h
    set back := d.tail ++ contents.drop (offset + AppDescriptor.length) ++ padded with hback
    -- the first block ends behind the signature, and the second one begins behind the numbers
    have htake : ∀ numbers : List UInt8,
        (contents.take offset ++ signature ++ numbers ++ back).take (offset + signature.length) =
          contents.take offset ++ signature := by
      intro numbers
      rw [List.append_assoc]
      exact List.take_left' (by rw [List.length_append, hfront])
    have hdrop : ∀ numbers : List UInt8, numbers.length = AppDescriptor.deslength →
        (contents.take offset ++ signature ++ numbers ++ back).drop
          (offset + signature.length + AppDescriptor.deslength) = back := by
      intro numbers hnumbers
      exact List.drop_left' (by rw [List.length_append, List.length_append, hfront, hnumbers])
    rw [htake, hdrop _ (by simp [AppDescriptor.deslength])] at h
    have hfile := Option.some.inj h
    have hsize : file.length = contents.length + fill padding contents := by
      rw [← hfile]
      simp only [List.length_append, hfront, hback, hpadded, List.length_replicate, length_leBytes,
        List.length_drop, AppDescriptor.tail, hreserved]
      have : AppDescriptor.length = 36 := rfl
      have : signature.length = 8 := rfl
      omega
    refine ⟨offset, back, hoffset, hzero, by omega, ⟨vcsCommit.getD d.vcsCommit, ?_⟩, ?_, ?_⟩
    · rw [hsize, ← hfile]
      simp only [List.append_assoc]
    · omega
    · rw [hback]
      simp [AppDescriptor.tail, hreserved]
      omega

end Canbootloader
end DtPhm
