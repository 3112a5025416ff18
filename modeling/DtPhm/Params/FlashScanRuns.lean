import DtPhm.Params.FlashScans

/-!
# FlashScanRuns — the searches over whole runs

* `Spares` — the condition on a write of which some operations are done: what it programs ends two
  words before the end of the sector, and no other magic word gets a good CRC by accident;
* `Confined.cutOff` — such a write leaves the sectors as the searches need them;
* `searches_inside` — in runs of such writes both searches stay inside;
* `full_sector_not_inside` — an entry that fills its sector, after which a search does not.
-/

namespace DtPhm
namespace Params
namespace FlashFs

open Lib

variable {B : Board} {m m' : Mem}

/-! ## The condition -/

/-- The entry was programmed to its end at `a`, onto blank cells. -/
def Fresh (B : Board) (m : Mem) (d : Data) (n a : ℕ) : Prop :=
  match place B m d.total with
  | .at before c => a = c ∧ before.length + d.total / 4 ≤ n ∧ Blank (applyOps m before) c d.total
  | _ => False

instance (B : Board) (m : Mem) (d : Data) (n a : ℕ) : Decidable (Fresh B m d n a) := by
  unfold Fresh
  split
  · infer_instance
  · infer_instance

/-- The condition on a write of which `n` operations are done.  What it programs of its entry ends
at least two words before the end of the sector.  And a magic word that has a good CRC then had it
before, with the same size, or it is the one of the new entry; any other one does not lead out of
the sector. -/
structure Spares (B : Board) (m : Mem) (d : Data) (n : ℕ) : Prop where
  room : ∀ before c, place B m d.total = .at before c → before.length < n →
    ∀ s ∈ B.sectors, s.address ≤ c → c < s.stop →
      c + 4 * min (n - before.length) (d.total / 4) + 8 ≤ s.stop
  told : ∀ s ∈ B.sectors, ∀ i < s.size / 4 - 1,
    validMagic (cutOff B m d n) (s.address + 4 * i) = true →
    crcMatches B (cutOff B m d n) (s.address + 4 * i) = true →
    (validMagic m (s.address + 4 * i) = true ∧ crcMatches B m (s.address + 4 * i) = true ∧
      entrySize (cutOff B m d n) (s.address + 4 * i) = entrySize m (s.address + 4 * i)) ∨
    Fresh B m d n (s.address + 4 * i) ∨ Leads (cutOff B m d n) s (s.address + 4 * i)

/-- The condition on an event. -/
def Sparing (B : Board) (s : Option Mem) (e : Event) : Prop :=
  match s, e with
  | none, _ => True
  | some m, .write d => Spares B m d (writeOps B m d).length
  | some m, .cutWrite d n _ => Spares B m d n

/-! ## What is done before an entry is programmed -/

theorem eq_or_disjoint {s t : Sector} (hs : s ∈ B.sectors) (ht : t ∈ B.sectors) :
    s = t ∨ s.stop ≤ t.address ∨ t.stop ≤ s.address := by
  obtain ⟨k, hk⟩ := List.mem_iff_getElem?.1 hs
  obtain ⟨j, hj⟩ := List.mem_iff_getElem?.1 ht
  by_cases hjk : j = k
  · subst hjk
    exact .inl (Option.some.inj (hk.symm.trans hj))
  · exact .inr (sectors_disjoint hk hj hjk)

/-- An operation that erases an entry or a sector. -/
def Clearing (B : Board) (op : FlashOp) : Prop :=
  (∃ s ∈ B.sectors, ∃ i < s.size / 4 - 1, op = eraseEntry (s.address + 4 * i)) ∨
    ∃ s ∈ B.sectors, op = .erase s.address s.size

theorem validMagic_of_zero {a : ℕ} (h : m a = 0) : validMagic m a = false := by
  have hload : load m a 4 = m (a + 0) :: [m (a + 1), m (a + 2), m (a + 3)] := rfl
  rw [validMagic, word, hload, Nat.add_zero, h, beq_eq_false_iff_ne]
  simp only [leValue, magicSig]
  have hzero : (0 : UInt8).toNat = 0 := rfl
  omega

theorem Clearing.magic {op : FlashOp} (h : Clearing B op) {t : Sector} (ht : t ∈ B.sectors) {j : ℕ}
    (hj : j < t.size / 4) (hmagic : validMagic (op.apply m) (t.address + 4 * j) = true) :
    validMagic m (t.address + 4 * j) = true := by
  have htstop : t.stop = t.address + t.size := rfl
  rcases h with ⟨s, hs, i, hi, rfl⟩ | ⟨s, hs, rfl⟩
  · have hstop : s.stop = s.address + s.size := rfl
    have hsame : ∀ x, x < s.address + 4 * i + 4 ∨ s.address + 4 * i + 6 ≤ x →
        (eraseEntry (s.address + 4 * i)).apply m x = m x := fun x hx =>
      program_of_outside m [0, 0] (by simpa using hx)
    by_cases heq : t.address + 4 * j = s.address + 4 * i + 4
    · -- the word with the flag
      have hzero : (eraseEntry (s.address + 4 * i)).apply m (t.address + 4 * j) = 0 := by
        rw [heq]
        simp [eraseEntry, FlashOp.apply, program]
      rw [validMagic_of_zero hzero] at hmagic
      cases hmagic
    · refine (validMagic_congr fun k hk => ?_).symm.trans hmagic
      apply hsame
      rcases eq_or_disjoint hs ht with rfl | hdisjoint
      · omega
      · omega
  · -- a sector is erased: all its words are blank
    have hstop : s.stop = s.address + s.size := rfl
    rcases eq_or_disjoint hs ht with rfl | hdisjoint
    · have hblank : Blank ((FlashOp.erase s.address s.size).apply m) (s.address + 4 * j) 4 :=
        (blank_eraseBlock m s.address s.size).sub (by omega) (by omega)
      rw [validMagic_blank hblank] at hmagic
      cases hmagic
    · refine (validMagic_congr fun k hk => ?_).symm.trans hmagic
      exact eraseBlock_of_outside m (by omega)

theorem magic_of_clearing {ops : List FlashOp} (h : ∀ op ∈ ops, Clearing B op) {t : Sector}
    (ht : t ∈ B.sectors) {j : ℕ} (hj : j < t.size / 4) : ∀ {m : Mem},
    validMagic (applyOps m ops) (t.address + 4 * j) = true →
      validMagic m (t.address + 4 * j) = true := by
  induction ops with
  | nil => exact fun hmagic => hmagic
  | cons op ops ih =>
      intro m hmagic
      have hrest := ih (fun op hop => h op (List.mem_cons_of_mem _ hop)) hmagic
      exact (h op List.mem_cons_self).magic ht hj hrest

/-! ## Steps -/

section Sectors

variable (h : ∀ s ∈ B.sectors, Confined B m s)
include h

theorem place_confined (total : ℕ) :
    place B m total ≠ .lost ∧ ∀ before c, place B m total = .at before c →
      (∀ op ∈ before, Clearing B op) ∧ ∃ s ∈ B.sectors, ∃ i < s.size / 4,
        c = s.address + 4 * i := by
  have hinside := inside_of_confined h
  cases hfind : findEntry B m with
  | lost => exact absurd hfind hinside.entry_ends
  | absent =>
      cases hfree : findFree B m total with
      | lost => exact absurd hfree (hinside.free_ends total)
      | absent => simp [place, hfind, hfree]
      | found a =>
          obtain ⟨s, hs, i, hi, rfl⟩ := findFree_confined h hfree
          simp only [place, hfind, hfree]
          refine ⟨Place.noConfusion, ?_⟩
          rintro _ _ ⟨⟩
          exact ⟨fun _ hop => absurd hop List.not_mem_nil, s, hs, i, by omega, rfl⟩
  | found a =>
      obtain ⟨s, hs, i, hi, rfl, hmagic, hleads⟩ := findEntry_confined h hfind
      have hsize := (h s hs).size
      have hstop : s.stop = s.address + s.size := rfl
      obtain ⟨k, hk⟩ := List.mem_iff_getElem?.1 hs
      have hinfo := getSectorInfo_eq hk (a := s.address + 4 * i) (by omega) (by omega)
      obtain ⟨next, hnext⟩ := exists_nextSector hk
      have hmem := List.mem_of_getElem? hnext
      have herase : Clearing B (eraseEntry (s.address + 4 * i)) := .inl ⟨s, hs, i, hi, rfl⟩
      have hstart : ∃ t ∈ B.sectors, ∃ j < t.size / 4, next.address = t.address + 4 * j := by
        have hpos := (h next hmem).size
        exact ⟨next, hmem, 0, by omega, rfl⟩
      simp only [place, hfind, hinfo, hk, hnext]
      split
      · -- behind the stored entry
        obtain ⟨j, _, hj, heq⟩ := hleads.next
        refine ⟨Place.noConfusion, ?_⟩
        rintro _ _ ⟨⟩
        refine ⟨?_, s, hs, j, by omega, heq⟩
        intro op hop
        rwa [List.mem_singleton.1 hop]
      · -- in the next sector
        split
        · exact ⟨Place.noConfusion, fun _ _ hat => Place.noConfusion hat⟩
        · split
          · refine ⟨Place.noConfusion, ?_⟩
            rintro _ _ ⟨⟩
            refine ⟨?_, hstart⟩
            intro op hop
            rwa [List.mem_singleton.1 hop]
          · rw [eraseSector_eq hmem]
            refine ⟨Place.noConfusion, ?_⟩
            rintro _ _ ⟨⟩
            refine ⟨?_, hstart⟩
            intro op hop
            rcases List.mem_cons.1 hop with rfl | hop
            · exact herase
            · rw [List.mem_singleton.1 hop]
              exact .inr ⟨next, hmem, rfl⟩

omit h in
/-- The memory when a write is cut off, and the first words of its entry are programmed. -/
theorem cutOff_eq {d : Data} {n c : ℕ} {before : List FlashOp}
    (hplace : place B m d.total = .at before c) :
    cutOff B m d n = programWords B (applyOps m (before.take n)) c d (n - before.length) := by
  have htake : (writeOps B m d).take n =
      before.take n ++ (wordOps c (entryBytes B d)).take (n - before.length) := by
    simp [writeOps, hplace, List.take_append]
  rw [cutOff, htake, applyOps_append, applyOps_take_wordOps _ c (by simpa using total_dvd d)]
  rfl

/-- No word but those of the entry becomes a magic word, and those end two words before the end of
their sector. -/
theorem skips_cutOff {d : Data} {n : ℕ} (hspares : Spares B m d n) {t : Sector}
    (ht : t ∈ B.sectors) {i : ℕ} (hi : i < t.size / 4 - 1)
    (hmagic : validMagic (cutOff B m d n) (t.address + 4 * i) = true) :
    t.address + 4 * i + 12 ≤ t.stop := by
  have htstop : t.stop = t.address + t.size := rfl
  cases hplace : place B m d.total with
  | lost => exact absurd hplace (place_confined h d.total).1
  | noSpace =>
      have hsame : cutOff B m d n = m := by simp [cutOff, writeOps, hplace, applyOps]
      rw [hsame] at hmagic
      exact (h t ht).skips i hi hmagic
  | «at» before c =>
      obtain ⟨hclears, s, hs, j, hj, rfl⟩ := (place_confined h d.total).2 before c hplace
      have hstop : s.stop = s.address + s.size := rfl
      have htotal := total_dvd d
      have hlength : ((entryBytes B d).take (4 * (n - before.length))).length =
          4 * min (n - before.length) (d.total / 4) := by
        rw [List.length_take, length_entryBytes]
        omega
      rw [cutOff_eq hplace] at hmagic
      by_cases hin : s.address + 4 * j ≤ t.address + 4 * i ∧ t.address + 4 * i <
          s.address + 4 * j + 4 * min (n - before.length) (d.total / 4)
      · -- a word of the entry
        have hroom := hspares.room before _ hplace (by omega) s hs (by omega) (by omega)
        rcases eq_or_disjoint hs ht with rfl | hdisjoint
        · omega
        · omega
      · -- the words of the entry are aligned, so another word has no byte in common with them
        have hword : validMagic (applyOps m (before.take n)) (t.address + 4 * i) = true := by
          refine (validMagic_congr fun k hk => ?_).symm.trans hmagic
          apply program_of_outside
          rw [hlength]
          rcases eq_or_disjoint hs ht with rfl | hdisjoint
          · omega
          · omega
        have hbefore : ∀ op ∈ before.take n, Clearing B op := fun op hop =>
          hclears op (List.mem_of_mem_take hop)
        exact (h t ht).skips i hi (magic_of_clearing hbefore ht (by omega) hword)

omit h in
theorem Fresh.leads {d : Data} {n : ℕ} (hspares : Spares B m d n) {t : Sector}
    (ht : t ∈ B.sectors) {i : ℕ} (hi : i < t.size / 4 - 1)
    (hfresh : Fresh B m d n (t.address + 4 * i)) :
    Leads (cutOff B m d n) t (t.address + 4 * i) := by
  have h16 : headerSize = 16 := rfl
  have htstop : t.stop = t.address + t.size := rfl
  have hheader := headerSize_le_total d
  have htotal := total_dvd d
  unfold Fresh at hfresh
  split at hfresh
  · rename_i before c hplace
    obtain ⟨rfl, hn, hblank⟩ := hfresh
    have hroom := hspares.room before _ hplace (by omega) t ht (by omega) (by omega)
    have hall : cutOff B m d n =
        program (applyOps m before) (t.address + 4 * i) (entryBytes B d) := by
      rw [cutOff_eq hplace, programWords, List.take_of_length_le (i := n) (by omega),
        List.take_of_length_le (by rw [length_entryBytes]; omega)]
    have hbytes : load (cutOff B m d n) (t.address + 4 * i) d.total = entryBytes B d := by
      have hcells : Blank (applyOps m before) (t.address + 4 * i) (entryBytes B d).length := by
        simpa using hblank
      rw [hall]
      simpa using load_program_of_blank hcells
    have hsize := (entry_of_bytes hbytes).1.size
    refine ⟨?_, ?_, ?_⟩
    · rwa [hsize]
    · rwa [hsize]
    · rw [hsize]
      omega
  · exact absurd hfresh not_false

/-- A write that meets the condition leaves the sectors as the searches need them, wherever it is
cut off. -/
theorem confined_cutOff {d : Data} {n : ℕ} (hspares : Spares B m d n) :
    ∀ s ∈ B.sectors, Confined B (cutOff B m d n) s := by
  intro s hs
  refine ⟨(h s hs).size, fun i hi => skips_cutOff h hspares hs hi, ?_⟩
  intro i hi hmagic hcrc
  rcases hspares.told s hs i hi hmagic hcrc with ⟨hold, holdCrc, hsize⟩ | hfresh | hleads
  · -- the entry was there before the write
    obtain ⟨hle, hdvd, hend⟩ := (h s hs).leads i hi hold holdCrc
    refine ⟨?_, ?_, ?_⟩
    · rwa [hsize]
    · rwa [hsize]
    · rwa [hsize]
  · exact hfresh.leads hspares hs hi
  · exact hleads

end Sectors

theorem confined_of_blank {s : Sector} (hsize : 8 ≤ s.size) (hblank : Blank m s.address s.size) :
    Confined B m s := by
  have hnone : ∀ i < s.size / 4 - 1, validMagic m (s.address + 4 * i) ≠ true := by
    intro i hi
    rw [validMagic_blank (hblank.sub (by omega) (by omega))]
    exact Bool.false_ne_true
  exact ⟨hsize, fun i hi hmagic => absurd hmagic (hnone i hi),
    fun i hi hmagic => absurd hmagic (hnone i hi)⟩

/-! ## Runs -/

/-- There is a memory, and no magic word leads out of its sector. -/
def Keeps (B : Board) (s : Option Mem) : Prop :=
  ∃ m, s = some m ∧ ∀ t ∈ B.sectors, Confined B m t

theorem init_keeps (h : ∀ s ∈ B.sectors, Confined B m s) (size : ℕ) :
    Keeps B (parameterFlashfsInit B m size) := by
  have hinside := inside_of_confined h
  unfold parameterFlashfsInit
  cases hfind : findEntry B m with
  | lost => exact absurd hfind hinside.entry_ends
  | found a => exact ⟨m, rfl, h⟩
  | absent =>
      cases hfree : findFree B m (totalSize size % 65536) with
      | lost => exact absurd hfree (hinside.free_ends _)
      | found a => exact ⟨m, rfl, h⟩
      | absent =>
          -- `init` erases all sectors
          exact ⟨_, rfl, fun s hs => confined_of_blank (h s hs).size (blank_erased B m hs)⟩

theorem Keeps.step {s : Option Mem} {e : Event} (h : Keeps B s) (hsparing : Sparing B s e) :
    Keeps B (step B s e) := by
  obtain ⟨m, rfl, h⟩ := h
  have hplace := fun d : Data => (place_confined h d.total).1
  cases e with
  | write d =>
      have hleft := confined_cutOff h hsparing
      rw [cutOff, List.take_length] at hleft
      have hreturned : ∃ rv, parameterFlashfsWrite B m d =
          (.returned rv, applyOps m (writeOps B m d)) := by
        cases hp : place B m d.total with
        | lost => exact absurd hp (hplace d)
        | noSpace => exact ⟨-28, by rw [parameterFlashfsWrite, hp]⟩
        | «at» before a => exact ⟨d.1.length, by rw [parameterFlashfsWrite, hp]⟩
      obtain ⟨rv, hwrite⟩ := hreturned
      exact ⟨_, by rw [FlashFs.step, hwrite], hleft⟩
  | cutWrite d n size =>
      have hinit := init_keeps (confined_cutOff h hsparing) size
      cases hp : place B m d.total with
      | lost => exact absurd hp (hplace d)
      | noSpace => simpa only [FlashFs.step, hp, cutOff] using hinit
      | «at» before a => simpa only [FlashFs.step, hp, cutOff] using hinit

/-- From blank sectors of at least two words, whatever was cut off: both searches come to an end in
every state that is reached, and look at words of the sectors only. -/
theorem searches_inside (hsize : ∀ s ∈ B.sectors, 8 ≤ s.size)
    (hblank : ∀ s ∈ B.sectors, Blank m s.address s.size) {es : List Event}
    (hsparing : AllSteps (step B) (Sparing B) (some m) es) :
    ∀ s ∈ visited (step B) (some m) es, ∃ m', s = some m' ∧ Inside B m' := by
  have hstart : Keeps B (some m) :=
    ⟨m, rfl, fun s hs => confined_of_blank (hsize s hs) (hblank s hs)⟩
  have hkeeps := invariant_of_allSteps (fun s e => Keeps.step (s := s) (e := e)) hstart hsparing
  intro s hs
  obtain ⟨m', rfl, h⟩ := hkeeps s hs
  exact ⟨m', rfl, inside_of_confined h⟩

/-- The first write is cut off behind the header of its entry, and the next one goes to the other
sector. -/
theorem searches_inside_torn : ∃ m', exec (step sectorsDown) (some blankSectors)
    [.cutWrite (four 1) 3 0, .write (four 2)] = some m' ∧ Inside sectorsDown m' := by
  have hplace₁ : place sectorsDown blankSectors (four 1).total = .at [] 108 := by decide +kernel
  have hcut : step sectorsDown (some blankSectors) (.cutWrite (four 1) 3 0) =
      some (cutOff sectorsDown blankSectors (four 1) 3) :=
    step_cutWrite (a := 120) (by rw [hplace₁]; exact Place.noConfusion) (by decide +kernel)
      (by decide +kernel)
  have hplace₂ : place sectorsDown (cutOff sectorsDown blankSectors (four 1) 3) (four 2).total =
      .at [] 64 := by
    decide +kernel
  have hlength : (writeOps sectorsDown (cutOff sectorsDown blankSectors (four 1) 3)
      (four 2)).length = 5 := by
    simp [writeOps, hplace₂, length_wordOps]
    rfl
  suffices hall : ∀ s ∈ visited (step sectorsDown) (some blankSectors)
      [.cutWrite (four 1) 3 0, .write (four 2)], ∃ m', s = some m' ∧ Inside sectorsDown m' from
    hall _ (exec_mem_visited _ _ _)
  refine searches_inside (by decide) (by decide +kernel) ⟨⟨?_, by decide +kernel⟩, ?_⟩
  · rintro _ _ hp
    cases hplace₁.symm.trans hp
    decide
  · rw [hcut]
    refine ⟨?_, trivial⟩
    unfold Sparing
    simp only [hlength]
    refine ⟨?_, by decide +kernel⟩
    rintro _ _ hp
    cases hplace₂.symm.trans hp
    decide

/-- Behind the last word of a sector the search for room does not end, where nothing but zeros
follows. -/
theorem freeInSector_beyond {required last : ℕ} (n : ℕ) : ∀ {a : ℕ}, last < a →
    (∀ x, a ≤ x → m x = 0) → freeInSector B m required last n a = .lost := by
  induction n with
  | zero => exact fun _ _ => rfl
  | succ n ih =>
      intro a hlt hzero
      have hmagic : validMagic m a = false := validMagic_of_zero (hzero a (Nat.le_refl a))
      have hfree : isFree m required a = false := by
        rw [isFree, blankMagic, word_of_zero hzero]
        rfl
      have hstop : a + 4 ≠ last := by omega
      have hnext := ih (a := a + 4) (by omega) fun x hx => hzero x (by omega)
      simp [freeInSector, skipEntry_of_not_magic hmagic, hfree, hstop, hnext]

theorem freeInSector_last_word {required last a n : ℕ} (h : Entry B m a n) (hend : a + n = last)
    (hblank : blankEntry m last = false) (hzero : ∀ x, last + 4 ≤ x → m x = 0) :
    freeInSector B m required last addressWords a = .lost := by
  obtain ⟨k, hk⟩ : ∃ k, addressWords = k + 1 := ⟨addressWords - 1, by rw [addressWords_eq]; rfl⟩
  have hlost : freeInSector B m required last k (last + 4) = .lost :=
    freeInSector_beyond k (by omega) hzero
  have hne : last + 4 ≠ last := by omega
  simp [hk, freeInSector, h.skip, hend, isFree, hblank, hlost]

/-- The entry of this data leaves one word of the first of `sectorsDown`. -/
def eight : Data := ⟨List.replicate 8 7, by decide⟩

theorem findFree_last_word (required : ℕ) :
    findFree sectorsDown (written sectorsDown blankSectors [eight]) required = .lost := by
  have hwrite : writeOps sectorsDown blankSectors eight =
      wordOps 108 (entryBytes sectorsDown eight) := by
    have hplace : place sectorsDown blankSectors eight.total = .at [] 108 := by decide +kernel
    simp [writeOps, hplace]
  have hzero : ∀ x, 136 ≤ x → written sectorsDown blankSectors [eight] x = 0 := by
    intro x hx
    have hout : ¬(64 ≤ x ∧ x < 136) := by omega
    have height : eight.total = 24 := rfl
    calc
      written sectorsDown blankSectors [eight] x
          = applyOps blankSectors (wordOps 108 (entryBytes sectorsDown eight)) x := by
            rw [← hwrite]
            rfl
      _ = program blankSectors 108 (entryBytes sectorsDown eight) x := by
            rw [applyOps_wordOps _ 108 (by simp [height])]
      _ = blankSectors x := program_of_outside _ _ (by simp [height]; omega)
      _ = 0 := by simp [blankSectors, hout]
  have hentry : Entry sectorsDown (written sectorsDown blankSectors [eight]) 108 24 :=
    ⟨by decide +kernel, by decide +kernel, by decide +kernel, by decide, by decide⟩
  have hlost : freeInSector sectorsDown (written sectorsDown blankSectors [eight]) required 132
      addressWords 108 = .lost :=
    freeInSector_last_word hentry (by decide) (by decide +kernel) hzero
  have hne : Search.lost ≠ .absent := by decide
  have hsector : sectorsDown.sectors[0]? = some ⟨1, 28, 108⟩ := rfl
  exact (searchSectors_eq hsector (fun j t hj => by omega) (hlost ▸ hne)).trans hlost

/-- An entry that leaves one word of its sector: after that, the search for room does not come to an
end. An entry that fills its sector, and a write that puts the next one into a sector below: then
the search for the parameters does not, either. -/
theorem full_sector_not_inside :
    (∀ s ∈ sectorsDown.sectors, 8 ≤ s.size ∧ Blank blankSectors s.address s.size) ∧
      (∃ m', exec (step sectorsDown) (some blankSectors) ([eight].map .write) = some m' ∧
        (∀ required, findFree sectorsDown m' required = .lost) ∧ ¬Inside sectorsDown m') ∧
      ∃ m', exec (step sectorsDown) (some blankSectors) ([whole, four 1].map .write) = some m' ∧
        findEntry sectorsDown m' = .lost ∧ ¬Inside sectorsDown m' := by
  have h₀ : (parameterFlashfsWrite sectorsDown blankSectors eight).1 = .returned 8 := by
    decide +kernel
  have h₁ : (parameterFlashfsWrite sectorsDown blankSectors whole).1 = .returned 12 := by
    decide +kernel
  have h₂ : (parameterFlashfsWrite sectorsDown
      (written sectorsDown blankSectors [whole]) (four 1)).1 = .returned 4 := by
    decide +kernel
  refine ⟨by decide +kernel, ⟨written sectorsDown blankSectors [eight], exec_write h₀,
    findFree_last_word, fun h => h.free_ends 16 (findFree_last_word 16)⟩,
    written sectorsDown blankSectors [whole, four 1], ?_, find_beyond_full_sector,
    fun h => h.entry_ends find_beyond_full_sector⟩
  calc
    exec (step sectorsDown) (some blankSectors) ([whole, four 1].map .write)
        = exec (step sectorsDown) (some (written sectorsDown blankSectors [whole]))
            ([four 1].map .write) := exec_write h₁
    _ = some (written sectorsDown blankSectors [whole, four 1]) := exec_write h₂

end FlashFs
end Params
end DtPhm
