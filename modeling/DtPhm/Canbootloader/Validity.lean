import DtPhm.Canbootloader.Descriptor

/-!
# Validity — which firmware the bootloader starts

* `Held` — the flash and the saved words hold a file;
* `Held.isAppValid_iff` — what `is_app_valid` makes of an image with the layout of the tool;
* `not_valid_while_downloading` — an application is not started before its first words are written;
* `made_image_updates` — an update with an image of the tool ends with the file in the flash, and
  valid;
* `damaged_image_refused` — a burst of up to 32 bits in one of the two blocks is noticed.

The flash takes a piece as a whole: what a write leaves behind that is cut off or fails is not
modelled.
-/

namespace DtPhm
namespace Canbootloader

open Lib Lib.Crc DtPhm.Platform

/-- The file is in the saved words and in the flash behind them. -/
structure Held (image : Image) (file : List UInt8) (flash firstWords : Mem) : Prop where
  later : image.laterBytes ≤ file.length
  bytes : load firstWords 0 image.laterBytes ++
    load flash (image.loadAddress + image.laterBytes) (file.length - image.laterBytes) = file

theorem laterBytes_le (image : Image) : 4 ≤ image.laterBytes ∧ image.laterBytes ≤ 8 := by
  unfold Image.laterBytes
  split <;> decide

variable {image : Image} {area : Area} {file : List UInt8} {flash firstWords : Mem}

theorem load_of_load (m : Mem) (a : ℕ) {n i k : ℕ} (h : i + k ≤ n) :
    load m (a + i) k = ((load m a n).drop i).take k := by
  rw [load_drop m a (by omega), load_take m (a + i) (by omega)]

namespace Held

theorem words (h : Held image file flash firstWords) :
    load firstWords 0 image.laterBytes = file.take image.laterBytes := by
  have htake := congrArg (List.take image.laterBytes) h.bytes
  rwa [List.take_left' (length_load _ _ _)] at htake

theorem rest (h : Held image file flash firstWords) {a k : ℕ} (ha : image.laterBytes ≤ a)
    (hk : a + k ≤ file.length) : load flash (image.loadAddress + a) k = (file.drop a).take k := by
  obtain ⟨i, rfl⟩ := Nat.exists_eq_add_of_le ha
  have hdrop := congrArg (List.drop image.laterBytes) h.bytes
  rw [List.drop_left' (length_load _ _ _)] at hdrop
  have hin : i + k ≤ file.length - image.laterBytes := by omega
  rw [← Nat.add_assoc, load_of_load flash _ hin, hdrop, List.drop_drop]

theorem block1 (h : Held image file flash firstWords) {n : ℕ} (hn : image.laterBytes ≤ n)
    (hle : n ≤ file.length) :
    load firstWords 0 image.laterBytes ++
      load flash (image.loadAddress + image.laterBytes) (n - image.laterBytes) = file.take n := by
  have hfront : load flash (image.loadAddress + image.laterBytes) (n - image.laterBytes) =
      (file.drop image.laterBytes).take (n - image.laterBytes) := h.rest (Nat.le_refl _) (by omega)
  rw [h.words, hfront]
  conv_rhs => rw [← Nat.add_sub_cancel' hn, List.take_add]

end Held

theorem crc32Signature_append (c : UInt32) (as bs : List UInt8) :
    crc32Signature (crc32Signature c as) bs = crc32Signature c (as ++ bs) := List.foldl_append.symm

theorem leValue_leBytes_of_lt {n : ℕ} (h : n < 2 ^ 32) : leValue (leBytes 4 n) = n := by
  rw [leValue_leBytes]
  exact Nat.mod_eq_of_lt (h.trans_eq (by decide))

/-- An image with the layout of the tool is valid if it has a first word, fits, and has the two
checksums, where its descriptor is found. -/
theorem Held.isAppValid_iff {front back : List UInt8} {c₁ c₂ : UInt32} {vcs : ℕ}
    (h : Held image file flash firstWords)
    (hlayout : file = front ++ signature ++ leBytes 4 c₁.toNat ++ leBytes 4 c₂.toNat ++
      leBytes 4 file.length ++ leBytes 4 vcs ++ back)
    (hrange : file.length < 2 ^ 32) (hne : back ≠ []) (hfront : image.laterBytes ≤ front.length)
    (hfind : findDescriptor image area flash = some front.length) :
    isAppValid image area flash firstWords = true ↔
      leValue (file.take 4) ≠ 0xFFFFFFFF ∧ file.length ≤ area.applicationSize ∧
        crc32 (front ++ signature) = c₁ ∧ crc32 back = c₂ := by
  obtain ⟨hfour, height⟩ := laterBytes_le image
  have hback : 0 < back.length := List.length_pos_iff.2 hne
  have hlength : file.length = front.length + 24 + back.length := by
    rw [hlayout]
    simp only [List.length_append, length_leBytes]
    have : signature.length = 8 := rfl
    omega
  -- a part of the file behind the front is read from the flash
  have hread : ∀ (pre mid post : List UInt8), file = pre ++ mid ++ post →
      image.laterBytes ≤ pre.length → load flash (image.loadAddress + pre.length) mid.length =
        mid := by
    intro pre mid post hfile hpre
    rw [h.rest hpre (by rw [hfile]; simp), hfile, List.append_assoc, List.drop_left, List.take_left]
  have hfield : ∀ (a x : ℕ) (pre post : List UInt8), file = pre ++ leBytes 4 x ++ post →
      pre.length = front.length + a → x < 2 ^ 32 →
      leValue (load flash (image.loadAddress + front.length + a) 4) = x := by
    intro a x pre post hfile hpre hx
    have hload := hread _ _ _ hfile (by omega)
    rw [hpre, length_leBytes, ← Nat.add_assoc] at hload
    rw [hload, leValue_leBytes_of_lt hx]
  have hcrc₁ : leValue (load flash (image.loadAddress + front.length + 8) 4) = c₁.toNat := by
    refine hfield 8 c₁.toNat (front ++ signature)
      (leBytes 4 c₂.toNat ++ leBytes 4 file.length ++ leBytes 4 vcs ++ back) ?_ ?_ c₁.toNat_lt
    · simpa only [List.append_assoc] using hlayout
    · simp [signature]
  have hcrc₂ : leValue (load flash (image.loadAddress + front.length + 12) 4) = c₂.toNat := by
    refine hfield 12 c₂.toNat (front ++ signature ++ leBytes 4 c₁.toNat)
      (leBytes 4 file.length ++ leBytes 4 vcs ++ back) ?_ ?_ c₂.toNat_lt
    · simpa only [List.append_assoc] using hlayout
    · simp [signature]
  have hsize : leValue (load flash (image.loadAddress + front.length + 16) 4) = file.length := by
    refine hfield 16 file.length (front ++ signature ++ leBytes 4 c₁.toNat ++ leBytes 4 c₂.toNat)
      (leBytes 4 vcs ++ back) ?_ ?_ hrange
    · simpa only [List.append_assoc] using hlayout
    · simp [signature]
  have hblock : load flash (image.loadAddress + front.length + 24) back.length = back := by
    set pre := front ++ signature ++ leBytes 4 c₁.toNat ++ leBytes 4 c₂.toNat ++
      leBytes 4 file.length ++ leBytes 4 vcs with hpre
    have hlen : pre.length = front.length + 24 := by simp [hpre, signature]
    have hload := hread pre back [] (by rwa [List.append_nil]) (by omega)
    rwa [hlen, ← Nat.add_assoc] at hload
  have hblockLength : block2Length file.length front.length = back.length := by
    unfold block2Length
    omega
  have hfirst : leValue (load firstWords 0 4) = leValue (file.take 4) := by
    have hload := load_take firstWords 0 hfour
    rw [← hload, h.words, List.take_take, Nat.min_eq_left hfour]
  have hblock₁ : crc32Signature (crc32Signature 0 (load firstWords 0 image.laterBytes))
      (load flash (image.loadAddress + image.laterBytes) (front.length + 8 - image.laterBytes)) =
        crc32 (front ++ signature) := by
    rw [crc32Signature_append, h.block1 (by omega) (by omega), crc32, crc32Part_eq_signature]
    congr 1
    rw [hlayout]
    simp only [List.append_assoc]
    rw [← List.append_assoc]
    exact List.take_left' (by simp [signature])
  have hblock₂ : crc32Signature 0 back = crc32 back := (crc32Part_eq_signature 0 back).symm
  unfold isAppValid
  rw [hfind]
  simp only [hcrc₁, hcrc₂, hsize, hblockLength, hblock, hblock₁, hblock₂, hfirst]
  by_cases hword : leValue (file.take 4) = 0xFFFFFFFF
  · simp [hword]
  · rw [if_neg hword]
    by_cases hfits : file.length ≤ area.applicationSize
    · rw [if_neg (by omega), if_neg (by omega), Bool.and_eq_true, beq_iff_eq, beq_iff_eq,
        UInt32.toNat_inj, UInt32.toNat_inj]
      tauto
    · rw [if_pos (by omega)]
      exact ⟨fun hfalse => absurd hfalse Bool.false_ne_true, fun hall => absurd hall.2.1 hfits⟩

/-- A block of the image arrives with another content of the same length, or another checksum. -/
def DamagedBlock (block block' : List UInt8) (c c' : UInt32) : Prop :=
  (block.length = block'.length ∧ IsBurst 32 (lowDifference block block') ∧ c' = c) ∨
    (block' = block ∧ c' ≠ c)

theorem DamagedBlock.crc32_ne {block block' : List UInt8} {c' : UInt32}
    (h : DamagedBlock block block' (crc32 block) c') : crc32 block' ≠ c' := by
  rcases h with ⟨hlength, hburst, rfl⟩ | ⟨rfl, hne⟩
  · exact (crc32_ne_of_isBurst hlength hburst).symm
  · exact hne.symm

/-! ## The search -/

theorem findLoop_spec {loadAddress last64 fuel p d : ℕ} (hp : p ≤ d) (halign : 8 ∣ d - p)
    (hfuel : d - p < fuel) (hlast : d < last64)
    (hbefore : ∀ k, p ≤ k → k < d → 8 ∣ d - k → load flash (loadAddress + k) 8 ≠ signature)
    (hat : load flash (loadAddress + d) 8 = signature) :
    findLoop flash loadAddress last64 fuel p = some d := by
  induction fuel generalizing p with
  | zero => omega
  | succ fuel ih =>
      rcases Nat.eq_or_lt_of_le hp with rfl | hlt
      · rw [findLoop, if_pos hat]
      · have hnot := hbefore p (Nat.le_refl p) hlt halign
        have hnext : p + 8 ≤ d := by omega
        rw [findLoop, if_neg hnot, if_pos (by omega)]
        exact ih hnext (by omega) (by omega) fun k hk => hbefore k (by omega)

/-- The descriptor is found where the file has the signature for the first time, if the first word
has not been flashed yet or has no signature. -/
theorem Held.findDescriptor {front back : List UInt8} (h : Held image file flash firstWords)
    (hmade : Made file front back) (hlast : front.length < area.last64) (halign : 8 ∣ front.length)
    (hne : front ≠ []) (hstart : load flash image.loadAddress 8 ≠ signature)
    (hbefore : ∀ k < front.length, 8 ∣ k → (file.drop k).take 8 ≠ signature) :
    findDescriptor image area flash = some front.length := by
  obtain ⟨vcs, hlayout⟩ := hmade.layout
  obtain ⟨_, height⟩ := laterBytes_le image
  have hpos : 0 < front.length := List.length_pos_iff.2 hne
  have hlength : front.length + 8 ≤ file.length := by
    rw [hlayout]
    simp only [List.length_append, show signature.length = 8 from rfl]
    omega
  refine findLoop_spec (Nat.zero_le _) halign (by omega) hlast (fun k _ hk hdvd => ?_) ?_
  · rcases Nat.eq_zero_or_pos k with rfl | hk'
    · exact hstart
    · rw [h.rest (by omega) (by omega)]
      exact hbefore k hk (by omega)
  · rw [h.rest (by omega) hlength, hlayout]
    simp only [List.append_assoc, List.drop_left]
    exact List.take_left' rfl

/-! ## The first word stays blank -/

/-- The first word of the application is erased. -/
def WordBlank (image : Image) (flash : Mem) : Prop := ∀ i < 4, flash (image.loadAddress + i) = 0xff

/-- It is between the pieces of a download. -/
structure Blank (image : Image) (p : Program) : Prop where
  word : WordBlank image p.flash
  whole : readDataSize ∣ p.offset
  inside : p.offset < 2 ^ 32

variable {p : Program}

theorem readAttempt_flash {sv : Server} {t : Attempt} {p' : Program} {length : Option ℕ}
    (h : readAttempt sv p t = some (p', length)) : p'.flash = p.flash ∧ p'.offset = p.offset := by
  unfold readAttempt at h
  split at h
  · cases h
    exact ⟨rfl, rfl⟩
  · split at h
    · cases h
    · dsimp only at h
      split at h
      · cases h
        exact ⟨rfl, rfl⟩
      · split at h
        · cases h
          exact ⟨rfl, rfl⟩
        · split at h
          · cases h
            exact ⟨rfl, rfl⟩
          · cases h
            exact ⟨rfl, rfl⟩

theorem readChunk_flash {sv : Server} {retries : ℕ} {ts : List Attempt} {p' : Program}
    {length : Option ℕ} (h : readChunk sv retries p ts = some (p', length)) :
    p'.flash = p.flash ∧ p'.offset = p.offset := by
  induction retries generalizing p ts with
  | zero =>
      cases h
      exact ⟨rfl, rfl⟩
  | succ retries ih =>
      cases ts with
      | nil => cases h
      | cons t ts =>
          unfold readChunk at h
          split at h
          · cases h
          · rename_i q hq
            obtain ⟨hflash, hoffset⟩ := ih h
            obtain ⟨hflash', hoffset'⟩ := readAttempt_flash hq
            exact ⟨hflash.trans hflash', hoffset.trans hoffset'⟩
          · rename_i q n hq
            cases h
            exact readAttempt_flash hq

namespace Blank

theorem stored (h : Blank image p) {length : ℕ} (hrange : p.InRange image (length + length % 2)) :
    WordBlank image (p.stored image length).flash := by
  have hload := image.load_le_last
  have hlast := image.last_lt
  have hwords := (laterBytes_le image).1
  have hinside := h.inside
  obtain ⟨hle, -⟩ := hrange
  intro i hi
  simp only [Program.stored, Program.saveWords_offset, Program.pad_offset, Program.saveWords_flash,
    Program.pad_flash]
  by_cases hzero : p.offset = 0
  · have hblank : ((p.pad length).saveWords image).response (2 + i) = 0xff := by
      rw [Program.saveWords, if_pos (by rw [Program.pad_offset, hzero])]
      dsimp only
      rw [store_add _ _ (by rw [List.length_replicate]; omega)]
      exact getD_replicate (by omega) 0xff
    have haddress : (image.loadAddress + p.offset) % 2 ^ 32 = image.loadAddress := by omega
    rw [haddress]
    by_cases hin : i < length + length % 2
    · rw [store_add _ _ (by rwa [length_load]), getD_load _ _ hin, hblank]
    · rw [store_of_le _ _ (by rw [length_load]; omega)]
      exact h.word i hi
  · -- the sum does not wrap around to the first word
    have hpiece : readDataSize ≤ p.offset := Nat.le_of_dvd (Nat.pos_of_ne_zero hzero) h.whole
    have hsize : readDataSize = 256 := rfl
    rw [store_of_lt _ _ (by omega)]
    exact h.word i hi

theorem round (h : Blank image p) (sv : Server) (fwImageSize : ℕ) (c : Chunk) (p' : Program) :
    (Program.round image sv fwImageSize p c = .goesOn p' → Blank image p') ∧
      ∀ ok, Program.round image sv fwImageSize p c = .returns (ok, p') →
        WordBlank image p'.flash := by
  rw [Program.round]
  cases hchunk : readChunk sv uavcanServiceRetries p c.attempts with
  | none =>
      refine ⟨fun hround => ?_, fun ok hround => ?_⟩
      · cases hround
      · cases hround
  | some r =>
      obtain ⟨q, _ | length⟩ := r
      · refine ⟨fun hround => ?_, fun ok hround => ?_⟩
        · cases hround
        · cases hround
          rw [(readChunk_flash hchunk).1]
          exact h.word
      · obtain ⟨hflash, hoffset⟩ := readChunk_flash hchunk
        have hq : Blank image q := ⟨by rw [hflash]; exact h.word, by rw [hoffset]; exact h.whole,
          by rw [hoffset]; exact h.inside⟩
        dsimp only
        rw [Program.program_eq]
        split
        · rename_i hwritten
          split
          · rename_i hmore
            refine ⟨fun hround => ?_, fun ok hround => ?_⟩
            · cases hround
              refine ⟨hq.stored hwritten.1, ?_, ?_⟩
              · rw [Program.stored]
                simp only [Program.saveWords_offset, Program.pad_offset, hmore.2]
                exact (Nat.dvd_mod_iff (by decide)).2 (Nat.dvd_add hq.whole (dvd_refl _))
              · exact Nat.mod_lt _ (by decide)
            · cases hround
          · refine ⟨fun hround => ?_, fun ok hround => ?_⟩
            · cases hround
            · cases hround
              exact hq.stored hwritten.1
        · refine ⟨fun hround => ?_, fun ok hround => ?_⟩
          · cases hround
          · cases hround
            simpa using hq.word

end Blank

/-- What the bootloader makes of the flash at the next start. -/
def isFlashValid (image : Image) (area : Area) (flash : Mem) : Bool :=
  isAppValid image area flash fun i => flash (image.loadAddress + i)

theorem isAppValid_of_blank {flash firstWords : Mem} (h : ∀ i < 4, firstWords i = 0xff) :
    isAppValid image area flash firstWords = false := by
  have hload : load firstWords 0 4 = [0xff, 0xff, 0xff, 0xff] := by
    have hsame : load firstWords 0 4 = load (fun _ => 0xff) 0 4 :=
      load_congr fun i hi => by rw [Nat.zero_add, h i hi]
    rw [hsame]
    rfl
  unfold isAppValid
  split
  · rfl
  · rw [hload, if_pos (by decide)]

/-- The flash in which a download goes on or ends. -/
def flashOf : Progress Program (Bool × Program) → Option Mem
  | .goesOn p => some p.flash
  | .returns (_, p) => some p.flash
  | .isHeld => none

/-- The invariant of a download, whatever arrives. -/
def StaysBlank (image : Image) : Progress Program (Bool × Program) → Prop
  | .goesOn p => Blank image p
  | .returns (_, p) => WordBlank image p.flash
  | .isHeld => True

theorem StaysBlank.step {s : Progress Program (Bool × Program)} (h : StaysBlank image s)
    (sv : Server)
    (fwImageSize : ℕ) (c : Chunk) :
    StaysBlank image (Progress.step (Program.round image sv fwImageSize) s c) := by
  cases s with
  | goesOn p =>
      rw [Progress.step_goesOn]
      cases hround : Program.round image sv fwImageSize p c with
      | goesOn p' => exact (Blank.round h sv fwImageSize c p').1 hround
      | isHeld => trivial
      | returns r => exact (Blank.round h sv fwImageSize c r.2).2 r.1 hround
  | isHeld => trivial
  | returns r => exact h

/-- An application that is being downloaded is not started: from erased flash, whatever arrives, the
bootloader takes none for valid until the first words are written. -/
theorem not_valid_while_downloading {image : Image} (area : Area) (sv : Server) (fwImageSize : ℕ)
    (protocol : Protocol) {flash : Mem} (herased : WordBlank image flash) (fwWord0 : Mem)
    (cs : List Chunk) :
    ∀ flash' ∈ flashOf (exec (Progress.step (Program.round image sv fwImageSize))
      (.goesOn (Program.init protocol flash fwWord0)) cs), isFlashValid image area flash' =
        false := by
  have hinit : StaysBlank image (.goesOn (Program.init protocol flash fwWord0)) :=
    ⟨herased, Nat.dvd_zero _, Nat.two_pow_pos 32⟩
  have hstep : ∀ s c, StaysBlank image s →
      StaysBlank image (Progress.step (Program.round image sv fwImageSize) s c) :=
    fun s c hs => hs.step sv fwImageSize c
  have hblank := invariant_exec hstep hinit cs
  intro flash' hflash
  generalize exec _ _ cs = s at hblank hflash
  cases s with
  | goesOn p =>
      cases hflash
      exact isAppValid_of_blank hblank.word
  | isHeld => cases hflash
  | returns r =>
      cases hflash
      exact isAppValid_of_blank hblank

theorem not_valid_while_downloading_hundred :
    ∃ flash', flashOf (exec (Progress.step (Program.round smallImage server 100))
      (.goesOn (Program.init ⟨CanId.zero, ⟨0, false, false, false⟩⟩ (fun _ => 0xff) fun _ => 0))
      [⟨[answeredAt (List.replicate 100 7) 0], true⟩]) = some flash' ∧
        isFlashValid smallImage ⟨1024, 1016⟩ flash' = false := by
  obtain ⟨q, -, -, -, hround⟩ := stored_answered (Or.inl rfl)
    (p := Program.init ⟨CanId.zero, ⟨0, false, false, false⟩⟩ (fun _ => 0xff) fun _ => 0)
    (show 100 = if piece (List.replicate 100 7) 0 = [] then 2 else _ by decide) (by decide) 100
  have hexec : exec (Progress.step (Program.round smallImage server 100))
      (.goesOn (Program.init ⟨CanId.zero, ⟨0, false, false, false⟩⟩ (fun _ => 0xff) fun _ => 0))
      [⟨[answeredAt (List.replicate 100 7) 0], true⟩] =
        .returns (true, q.stored smallImage 100) := by
    rw [exec_cons, Progress.step_goesOn, exec_nil]
    exact hround
  have hflash : flashOf (.returns (true, q.stored smallImage 100)) =
      some (q.stored smallImage 100).flash := rfl
  rw [← hexec] at hflash
  exact ⟨(q.stored smallImage 100).flash, hflash,
    not_valid_while_downloading ⟨1024, 1016⟩ server 100 _ (fun _ _ => rfl) _ _ _ hflash⟩

/-! ## An update -/

variable {sv : Server} {fwImageSize : ℕ} {c : Chunk} {p' : Program}

/-- The invariant of an update: what is downloaded is in place, but for the first word. -/
structure Updates (image : Image) (file : List UInt8) (p : Program) : Prop where
  downloads : Downloads image file p
  blank : Blank image p

/-- A piece that the function has taken. -/
structure Taken (image : Image) (file : List UInt8) (p p' : Program) (length : ℕ) : Prop where
  reads : Reads file p.offset p.response length
  range : p.InRange image (length + length % 2)
  eq : p' = p.stored image length

theorem Updates.taken (h : Updates image file p) (hc : OnTime sv file p c)
    (hround : Program.round image sv fwImageSize p c = .goesOn p' ∨
      Program.round image sv fwImageSize p c = .returns (true, p')) :
    ∃ q length, Updates image file q ∧ Taken image file q p' length ∧
      (Program.round image sv fwImageSize p c = .returns (true, p') → p'.offset = fwImageSize) := by
  rw [Program.round] at hround ⊢
  have hchunk : readChunk sv uavcanServiceRetries p c.attempts = none ∨ _ := readChunk_spec hc
  rcases hchunk with hnone | ⟨protocol, response, l, hsome, hreads⟩
  · rw [hnone] at hround
    rcases hround with hround | hround
    · cases hround
    · cases hround
  · cases l with
    | none =>
        rw [hsome] at hround
        rcases hround with hround | hround
        · cases hround
        · cases hround
    | some length =>
        set q : Program := { p with protocol := protocol, response := response } with hq
        have hdownloads := h.downloads
        have hupdates : Updates image file q :=
          ⟨⟨⟨hdownloads.placed.words, hdownloads.placed.flash⟩, hdownloads.whole, hdownloads.inside,
            hdownloads.address⟩, ⟨h.blank.word, h.blank.whole, h.blank.inside⟩⟩
        rw [hsome] at hround ⊢
        dsimp only at hround ⊢
        rw [Program.program_eq] at hround ⊢
        split at hround
        · rename_i hwritten
          refine ⟨q, length, hupdates, ?_⟩
          rw [if_pos hwritten]
          split at hround
          · rename_i hmore
            rw [if_pos hmore]
            rcases hround with hround | hround
            · cases hround
              exact ⟨⟨hreads length rfl, hwritten.1, rfl⟩, fun hreturns => by cases hreturns⟩
            · cases hround
          · rename_i hmore
            rw [if_neg hmore]
            rcases hround with hround | hround
            · cases hround
            · obtain ⟨hok, rfl⟩ := Prod.mk.inj (Progress.returns.inj hround)
              exact ⟨⟨hreads length rfl, hwritten.1, rfl⟩, fun _ => (of_decide_eq_true hok).1⟩
        · rcases hround with hround | hround
          · cases hround
          · cases hround

theorem Updates.goesOn (h : Updates image file p) (hc : OnTime sv file p c)
    (hround : Program.round image sv fwImageSize p c = .goesOn p') : Updates image file p' := by
  refine ⟨?_, (h.blank.round sv fwImageSize c p').1 hround⟩
  rcases h.downloads.round hc fwImageSize with ⟨q, hq, hdownloads⟩ | hheld | ⟨ok, q, hreturns, -⟩
  · rw [hround] at hq
    cases hq
    exact hdownloads
  · rw [hround] at hheld
    cases hheld
  · rw [hround] at hreturns
    cases hreturns

/-- The state of `bootloader` and the flash when the whole file has been taken. -/
structure Updated (image : Image) (file : List UInt8) (p : Program) : Prop where
  held : Held image file p.flash p.fwWord0
  blank : WordBlank image p.flash
  fits : image.loadAddress + file.length ≤ image.lastAddress

theorem Updates.returned (h : Updates image file p) (hc : OnTime sv file p c)
    (hlater : image.laterBytes ≤ file.length)
    (hround : Program.round image sv file.length p c = .returns (true, p')) :
    Updated image file p' := by
  obtain ⟨q, length, hq, htaken, hend⟩ := h.taken hc (Or.inr hround)
  obtain ⟨hoffset, hfits, hpiece⟩ := hq.downloads.piece htaken.reads htaken.range
  have hend : q.offset + length = file.length := by
    rw [← hoffset, ← htaken.eq, hend hround]
  have hplaced : Placed image file file.length p' := by
    rcases hpiece with ⟨hall, htwo⟩ | ⟨-, hplaced⟩
    · omega
    · rwa [hend, ← htaken.eq] at hplaced
  refine ⟨⟨hlater, ?_⟩, ?_, by omega⟩
  · have hcode := hplaced.code (Nat.le_refl _)
    rw [List.take_length, Program.code, List.take_of_length_le] at hcode
    · exact hcode
    · rw [List.length_append, length_load, length_load]
      omega
  · rw [htaken.eq]
    exact hq.blank.stored htaken.range

theorem updated_of_run {flash : Mem} (herased : WordBlank image flash)
    (hlater : image.laterBytes ≤ file.length) {protocol : Protocol} {fwWord0 : Mem}
    {cs : List Chunk}
    (hsteps : AllSteps (Progress.step (Program.round image sv file.length))
      (Progress.Meets (OnTime sv file)) (.goesOn (Program.init protocol flash fwWord0)) cs)
    (hexec : exec (Progress.step (Program.round image sv file.length))
      (.goesOn (Program.init protocol flash fwWord0)) cs = .returns (true, p)) :
    Updated image file p := by
  have hinit : Updates image file (Program.init protocol flash fwWord0) :=
    ⟨Downloads.init protocol flash fwWord0, herased, Nat.dvd_zero _, Nat.two_pow_pos 32⟩
  have hgo : ∀ q c q', Updates image file q → OnTime sv file q c →
      Program.round image sv file.length q c = .goesOn q' → Updates image file q' :=
    fun q c q' hq hc => hq.goesOn hc
  have hreturn : ∀ q c (r : Bool × Program), Updates image file q → OnTime sv file q c →
      Program.round image sv file.length q c = .returns r → r.1 = true →
        Updated image file r.2 := by
    rintro q c ⟨ok, q'⟩ hq hc hround hok
    obtain rfl : ok = true := hok
    exact hq.returned hc hlater hround
  exact Progress.post_of_allSteps hgo hreturn hinit hsteps hexec rfl

/-- The end of `main`: where the file has been programmed and is valid, the first words are written
to the flash. -/
def finish (image : Image) (area : Area) (programmed : Bool) (p : Program) (written : Bool) :
    Option Mem :=
  if ¬programmed then none
  else if ¬isAppValid image area p.flash p.fwWord0 then none
  else if (image.loadAddress + image.laterBytes) % 2 ^ 32 ≤ image.lastAddress ∧ written then
    some (store p.flash image.loadAddress (load p.fwWord0 0 image.laterBytes))
  else none

/-- A file that the tool has made, for the area of the board: the descriptor stands at a double
word, and nothing before it looks like one. -/
structure Fits (area : Area) (padding : ℕ) (vcsCommit : Option ℕ) (contents file : List UInt8)
    (offset : ℕ) : Prop where
  made : writeDescriptor padding vcsCommit contents = some file
  place : descriptorOffset padding contents = some offset
  aligned : 8 ∣ offset
  first : ∀ k < offset, 8 ∣ k → (contents.drop k).take 8 ≠ signature
  last : offset < area.last64
  size : file.length ≤ area.applicationSize
  word : leValue (contents.take 4) ≠ 0xFFFFFFFF

variable {padding offset : ℕ} {vcsCommit : Option ℕ} {contents : List UInt8}

theorem Fits.parts (h : Fits area padding vcsCommit contents file offset) :
    ∃ front back, Made file front back ∧ front.length = offset ∧ 8 ≤ offset ∧ 8 ≤ file.length ∧
      (∀ k < offset, 8 ∣ k → (file.drop k).take 8 ≠ signature) ∧
        leValue (file.take 4) ≠ 0xFFFFFFFF := by
  obtain ⟨offset', back, hplace, hne, hle, hmade⟩ := writeDescriptor_spec h.made
  obtain rfl : offset = offset' := Option.some.inj (h.place.symm.trans hplace)
  have hlength : (contents.take offset).length = offset := List.length_take_of_le hle
  have height : 8 ≤ offset := Nat.le_of_dvd (Nat.pos_of_ne_zero hne) h.aligned
  -- what the file has before the descriptor is what the contents had
  have hsame : ∀ k n, k + n ≤ offset → (file.drop k).take n = (contents.drop k).take n := by
    intro k n hkn
    obtain ⟨vcs, hlayout⟩ := hmade.layout
    have hfront : file.take offset = contents.take offset := by
      rw [hlayout]
      simp only [List.append_assoc]
      exact List.take_left' hlength
    have hdrop := congrArg (fun l => (l.drop k).take n) hfront
    simpa [List.drop_take, List.take_take, Nat.min_eq_left (show n ≤ offset - k by omega)]
      using hdrop
  have hfile : 8 ≤ file.length := by
    obtain ⟨vcs, hlayout⟩ := hmade.layout
    rw [hlayout]
    simp only [List.length_append, show signature.length = 8 from rfl]
    omega
  refine ⟨contents.take offset, back, hmade, hlength, height, hfile, fun k hk hdvd => ?_, ?_⟩
  · have haligned := h.aligned
    rw [hsame k 8 (by omega)]
    exact h.first k hk hdvd
  · have hword := hsame 0 4 (by omega)
    rw [List.drop_zero, List.drop_zero] at hword
    rw [hword]
    exact h.word

/-- Where the file is held, it is valid, if its first word is not flashed or flashed as it is. -/
theorem Fits.isAppValid (h : Fits area padding vcsCommit contents file offset)
    (hheld : Held image file flash firstWords)
    (hstart : load flash image.loadAddress 8 = file.take 8 ∨ flash image.loadAddress = 0xff) :
    isAppValid image area flash firstWords = true := by
  obtain ⟨front, back, hmade, rfl, height, -, hbefore, hword⟩ := h.parts
  obtain ⟨vcs, hlayout⟩ := hmade.layout
  have hlater := (laterBytes_le image).2
  have hfront : front ≠ [] := List.length_pos_iff.1 (by omega)
  have hback : back ≠ [] := List.length_pos_iff.1 (by have := hmade.back_length; omega)
  have hnot : load flash image.loadAddress 8 ≠ signature := by
    rcases hstart with hfile | hblank
    · rw [hfile]
      exact hbefore 0 (by omega) (dvd_zero 8)
    · intro hsignature
      have hfirst := congrArg (fun l => l.getD 0 0) hsignature
      rw [getD_load _ _ (by decide), Nat.add_zero, hblank] at hfirst
      exact absurd hfirst (by decide)
  have hfind := hheld.findDescriptor hmade h.last h.aligned hfront hnot hbefore
  exact (hheld.isAppValid_iff hlayout hmade.size hback (by omega) hfind).2 ⟨hword, h.size, rfl, rfl⟩

/-- An update with an image that the tool has made succeeds: where all answers are on time and the
download ends well, the first words are written, the flash holds the file, and it is valid at the
next start. -/
theorem made_image_updates (h : Fits area padding vcsCommit contents file offset) {flash : Mem}
    (herased : WordBlank image flash) {protocol : Protocol} {fwWord0 : Mem} {cs : List Chunk}
    (hsteps : AllSteps (Progress.step (Program.round image sv file.length))
      (Progress.Meets (OnTime sv file)) (.goesOn (Program.init protocol flash fwWord0)) cs)
    (hexec : exec (Progress.step (Program.round image sv file.length))
      (.goesOn (Program.init protocol flash fwWord0)) cs = .returns (true, p)) :
    ∃ flash', finish image area true p true = some flash' ∧
      load flash' image.loadAddress file.length = file ∧ isFlashValid image area flash' = true := by
  obtain ⟨hfour, height⟩ := laterBytes_le image
  obtain ⟨-, -, -, -, -, hlength, -⟩ := h.parts
  have hlater : image.laterBytes ≤ file.length := by omega
  obtain ⟨hheld, hblank, hfits⟩ := updated_of_run herased hlater hsteps hexec
  have hlast := image.last_lt
  have hvalid := h.isAppValid hheld (Or.inr (hblank 0 (by decide)))
  set flash' := store p.flash image.loadAddress (load p.fwWord0 0 image.laterBytes) with hflash'
  have hwords : load flash' image.loadAddress image.laterBytes =
      load p.fwWord0 0 image.laterBytes := by
    have hstored :=
      load_store_append p.flash image.loadAddress [] (load p.fwWord0 0 image.laterBytes)
    rwa [List.nil_append, List.length_nil, Nat.add_zero, length_load] at hstored
  have hrest : load flash' (image.loadAddress + image.laterBytes) (file.length - image.laterBytes) =
      load p.flash (image.loadAddress + image.laterBytes) (file.length - image.laterBytes) :=
    load_congr fun i _ => store_of_le _ _ (by rw [length_load]; omega)
  have hfile : load flash' image.loadAddress file.length = file := by
    calc
      load flash' image.loadAddress file.length
          = load flash' image.loadAddress (image.laterBytes +
            (file.length - image.laterBytes)) := by
            rw [Nat.add_sub_cancel' hlater]
      _ = load flash' image.loadAddress image.laterBytes ++
            load flash' (image.loadAddress + image.laterBytes) (file.length - image.laterBytes) :=
          load_add ..
      _ = file := by rw [hwords, hrest, hheld.bytes]
  refine ⟨flash', ?_, hfile, ?_⟩
  · have hrange : (image.loadAddress + image.laterBytes) % 2 ^ 32 ≤ image.lastAddress ∧
        true = true := by
      rw [Nat.mod_eq_of_lt (by omega)]
      exact ⟨by omega, rfl⟩
    rw [finish, if_neg (by decide), if_neg (by simp [hvalid]), if_pos hrange]
  · -- at the start, the first words are read from the flash
    have hstarted : load (fun i => flash' (image.loadAddress + i)) 0 image.laterBytes =
        load flash' image.loadAddress image.laterBytes := by simp [load]
    have hheld' : Held image file flash' fun i => flash' (image.loadAddress + i) := by
      refine ⟨hlater, ?_⟩
      rw [hstarted, hwords, hrest, hheld.bytes]
    refine h.isAppValid hheld' (Or.inl ?_)
    rw [← load_take flash' image.loadAddress hlength, hfile]

/-- Contents with a descriptor behind eight bytes. -/
def smallContents : List UInt8 :=
  [1, 2, 3, 4, 5, 6, 7, 8] ++ signature ++ List.replicate 16 0 ++ [1, 0, 9, 0] ++
    List.replicate 8 0xff ++ List.replicate 56 7

/-- What the tool makes of them. -/
def smallFile : List UInt8 := (writeDescriptor 0 none smallContents).getD []

/-- The area of the small image. -/
def smallArea : Area := ⟨1024, 1016⟩

theorem smallFile_fits : Fits smallArea 0 none smallContents smallFile 8 where
  made := by decide +kernel
  place := by decide +kernel
  aligned := dvd_refl 8
  first := by decide +kernel
  last := by decide
  size := by decide +kernel
  word := by decide

/-- The variables at the start of a download into erased flash. -/
def atErased : Program :=
  Program.init ⟨CanId.zero, ⟨0, false, false, false⟩⟩ (fun _ => 0xff) fun _ => 0

theorem made_image_updates_small :
    ∃ p flash', finish smallImage smallArea true p true = some flash' ∧
    load flash' 0 100 = smallFile ∧ isFlashValid smallImage smallArea flash' = true := by
  have hlength : smallFile.length = 100 := by decide +kernel
  have hpiece : piece smallFile 0 = smallFile := by
    apply List.take_of_length_le
    rw [List.drop_zero, hlength]
    decide
  have hne : smallFile ≠ [] := List.length_pos_iff.1 (by omega)
  obtain ⟨q, -, -, -, hround⟩ := stored_answered (Or.inl rfl) (p := atErased)
    (show 100 = if piece smallFile 0 = [] then 2 else _ by rw [hpiece, if_neg hne, hlength])
    (by decide) smallFile.length
  rw [hlength, if_neg (by decide), decide_eq_true (by decide)] at hround
  have hexec : exec (Progress.step (Program.round smallImage server smallFile.length))
      (.goesOn atErased) [⟨[answeredAt smallFile 0], true⟩] =
        .returns (true, q.stored smallImage 100) := by
    rw [exec_cons, Progress.step_goesOn, exec_nil, hlength]
    exact hround
  have herased : WordBlank smallImage fun _ => 0xff := fun _ _ => rfl
  have hupdate := made_image_updates smallFile_fits herased
    (show AllSteps _ (Progress.Meets (OnTime server smallFile)) (.goesOn atErased)
      [⟨[answeredAt smallFile 0], true⟩] from ⟨onTime_answeredAt smallFile atErased, trivial⟩) hexec
  rw [hlength] at hupdate
  exact ⟨q.stored smallImage 100, hupdate⟩

/-- Damage of an image is noticed: where the bits of a block that have changed lie within 32
neighbours, or the checksum of a block has changed, the image is not valid. -/
theorem damaged_image_refused {file' front back front' back' : List UInt8} {c₁ c₂ : UInt32}
    {vcs : ℕ}
    (hmade : Made file front back)
    (hlayout : file' = front' ++ signature ++ leBytes 4 c₁.toNat ++ leBytes 4 c₂.toNat ++
      leBytes 4 file'.length ++ leBytes 4 vcs ++ back')
    (hfront : front'.length = front.length) (hback : back'.length = back.length)
    (hdamage : DamagedBlock (front ++ signature) (front' ++ signature) (crc32 (front ++ signature))
      c₁ ∨
      DamagedBlock back back' (crc32 back) c₂)
    (hlater : image.laterBytes ≤ front.length) (h : Held image file' flash firstWords)
    (hfind : findDescriptor image area flash = some front.length) :
    isAppValid image area flash firstWords = false := by
  obtain ⟨vcs', hlayout'⟩ := hmade.layout
  have hlength : file'.length = file.length := by
    rw [hlayout, hlayout']
    simp only [List.length_append, length_leBytes, hfront, hback]
  have hsize := hmade.size
  have hne : back' ≠ [] := List.length_pos_iff.1 (by have := hmade.back_length; omega)
  have hvalid := h.isAppValid_iff hlayout (by omega) hne (by omega) (by rw [hfind, hfront])
  rw [Bool.eq_false_iff, Ne, hvalid]
  rintro ⟨-, -, hfirst, hsecond⟩
  rcases hdamage with hdamage | hdamage
  · exact hdamage.crc32_ne hfirst
  · exact hdamage.crc32_ne hsecond

theorem smallFile_made : Made smallFile [1, 2, 3, 4, 5, 6, 7, 8] (smallFile.drop 32) where
  layout := ⟨0, by decide +kernel⟩
  size := by decide +kernel
  back_length := by decide +kernel

/-- The small file with one bit changed. -/
def flippedFile : List UInt8 := smallFile.set 3 5

/-- It is in the flash. -/
def flippedFlash : Mem := store (fun _ => 0xff) 0 flippedFile

theorem damaged_image_refused_flipped :
    isAppValid smallImage smallArea flippedFlash flippedFlash = false := by
  have hlayout : flippedFile = [1, 2, 3, 5, 5, 6, 7, 8] ++ signature ++
      leBytes 4 (crc32 ([1, 2, 3, 4, 5, 6, 7, 8] ++ signature)).toNat ++
      leBytes 4 (crc32 (smallFile.drop 32)).toNat ++ leBytes 4 flippedFile.length ++ leBytes 4 0 ++
      smallFile.drop 32 := by decide +kernel
  have hburst : IsBurst 32 (lowDifference ([1, 2, 3, 4, 5, 6, 7, 8] ++ signature)
      ([1, 2, 3, 5, 5, 6, 7, 8] ++ signature)) := ⟨24, [true], 103, by decide +kernel⟩
  have hheld : Held smallImage flippedFile flippedFlash flippedFlash :=
    ⟨by decide +kernel, by decide +kernel⟩
  have hfind : findDescriptor smallImage smallArea flippedFlash = some 8 := by decide +kernel
  exact damaged_image_refused smallFile_made hlayout rfl rfl (Or.inl (Or.inl ⟨rfl, hburst, rfl⟩))
    (by decide) hheld hfind

end Canbootloader
end DtPhm
