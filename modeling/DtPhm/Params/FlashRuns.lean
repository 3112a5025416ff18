import DtPhm.Params.FlashPlaces

/-!
# FlashRuns — the stored parameters over whole runs

* `last_write_read` — without a loss of power, the data of the last write is read;
* `Careful` — the condition on the steps of a run in which writes are cut off, after any number of
  words, `Safe` — the invariant of such a run;
* `completed_write_read` — the data of a completed write is read, whatever was cut off before it.
-/

namespace DtPhm
namespace Params
namespace FlashFs

open Lib

variable {B : Board} {m m' : Mem} {cuts : Prop}

/-! ## Runs without a loss of power -/

/-- The condition on the first write, of so many bytes: the first sector in which the code finds
room is as large as the entry, and no sector is empty. -/
def FirstRoom (B : Board) (m : Mem) (total : ℕ) : Prop :=
  (∀ s ∈ B.sectors, 0 < s.size) ∧
    ∃ k s, B.sectors[k]? = some s ∧ total ≤ s.size ∧
      ∀ (j : ℕ) (t : Sector), j < k → B.sectors[j]? = some t →
        freeInSector B m total t.lastWord addressWords t.address = .absent

/-- `EndsLast`, before a step. -/
def Ends (B : Board) (s : Option Mem) (_ : Event) : Prop := ∀ m, s = some m → EndsLast B m

/-- The write returns its length. -/
def Returns (B : Board) (s : Option Mem) (e : Event) : Prop :=
  match s, e with
  | some m, .write d => (parameterFlashfsWrite B m d).1 = .returned d.1.length
  | _, _ => False

theorem hasRoom_of_blank {total : ℕ} (hblank : ∀ s ∈ B.sectors, Blank m s.address s.size)
    (h : FirstRoom B m total) : HasRoom B m total := by
  obtain ⟨hpos, k, s, hk, hsize, hbefore⟩ := h
  have hclosed : ∀ t ∈ B.sectors, Closed B m t t.address := by
    intro t ht
    refine ⟨.nil _, Nat.le_add_right _ _, ?_⟩
    rw [Sector.stop, Nat.add_sub_cancel_left]
    exact hblank t ht
  refine ⟨?_, k, s, s.address, hk, hclosed s (List.mem_of_getElem? hk), .nil _, ?_, hbefore⟩
  · intro t ht
    have := hpos t ht
    exact (hclosed t ht).not_full (by rw [Sector.stop]; omega)
  · rw [Sector.stop]
    omega

/-- A write that has a place for its entry returns its length, and its data is stored. -/
theorem Lands.write {d : Data} (h : Lands cuts B m d.total) :
    (parameterFlashfsWrite B m d).1 = .returned d.1.length ∧
      ∃ k s c, Stored cuts B (applyOps m (writeOps B m d)) k s c d := by
  obtain ⟨before, k, s, c, hplace, hplaced, _⟩ := h
  refine ⟨by rw [parameterFlashfsWrite, hplace], k, s, c, ?_⟩
  rw [writeOps, hplace, applyOps_append, applyOps_wordOps _ c (by simpa using total_dvd d)]
  exact hplaced.written

theorem step_write {d : Data} (h : (parameterFlashfsWrite B m d).1 = .returned d.1.length) :
    step B (some m) (.write d) = some (applyOps m (writeOps B m d)) := by
  have hwrite : parameterFlashfsWrite B m d = (.returned d.1.length, applyOps m (writeOps B m d)) :=
    Prod.ext h rfl
  rw [step, hwrite]

theorem writes_stored {ds : List Data} : ∀ {m : Mem} {k c : ℕ} {s : Sector} {d : Data},
    Stored False B m k s c d → AllSteps (step B) (Ends B) (some m) (ds.map .write) →
    AllSteps (step B) (Returns B) (some m) (ds.map .write) →
    ∃ m' k' s' c', exec (step B) (some m) (ds.map .write) = some m' ∧
      Stored False B m' k' s' c' ((d :: ds).getLast (List.cons_ne_nil d ds)) := by
  induction ds with
  | nil =>
      intro m k c s d h _ _
      exact ⟨m, k, s, c, rfl, h⟩
  | cons e ds ih =>
      intro m k c s d h hends hreturns
      obtain ⟨hend, hends⟩ := hends
      obtain ⟨hreturn, hreturns⟩ := hreturns
      rcases place_stored h False.elim (headerSize_le_total e) (hend m rfl) with hplace | hlands
      · -- this write did not return its length
        have hnot : (parameterFlashfsWrite B m e).1 = .returned (-28) := by
          simp [parameterFlashfsWrite, hplace]
        have hlength : (-28 : ℤ) = e.1.length := Result.returned.inj (hnot.symm.trans hreturn)
        omega
      · obtain ⟨hwrite, k', s', c', hstored⟩ := hlands.write
        have hstep := step_write hwrite
        rw [hstep] at hends hreturns
        obtain ⟨m'', hrest⟩ := ih hstored hends hreturns
        refine ⟨m'', ?_⟩
        rw [List.map_cons, exec_cons, hstep, List.getLast_cons (List.cons_ne_nil e ds)]
        exact hrest

/-- From blank sectors, and without a loss of power: when all writes return their length, the data
of the last one is read, through any number of rotations. -/
theorem last_write_read (hblank : ∀ s ∈ B.sectors, Blank m s.address s.size) {ds : List Data}
    (hne : ds ≠ []) (hroom : FirstRoom B m (ds.head hne).total)
    (hends : AllSteps (step B) (Ends B) (some m) (ds.map .write))
    (hreturns : AllSteps (step B) (Returns B) (some m) (ds.map .write)) :
    ∃ m', exec (step B) (some m) (ds.map .write) = some m' ∧
      parameterFlashfsRead B m' = .ok (ds.getLast hne).1 := by
  cases ds with
  | nil => exact absurd rfl hne
  | cons d ds =>
      have hvacant : ∀ s ∈ B.sectors, Vacant False B m s :=
        fun s hs => vacant_of_blank (hblank s hs)
      have hlands := place_vacant hvacant False.elim (headerSize_le_total d)
        (hasRoom_of_blank hblank hroom)
      obtain ⟨hwrite, k, s, c, hstored⟩ := hlands.write
      have hstep := step_write hwrite
      obtain ⟨_, hends⟩ := hends
      obtain ⟨_, hreturns⟩ := hreturns
      rw [hstep] at hends hreturns
      obtain ⟨m'', k', s', c', hexec, hlast⟩ := writes_stored hstored hends hreturns
      refine ⟨m'', ?_, read_stored hlast False.elim⟩
      rw [List.map_cons, exec_cons, hstep]
      exact hexec

/-! ## Two sectors -/

/-- CRC-32, reflected, from 0 and without a final inversion. -/
def crc32 (bs : List UInt8) : UInt32 :=
  bs.foldl (fun crc b => (List.range 8).foldl
    (fun crc _ => if crc &&& 1 = 1 then crc >>> 1 ^^^ 0xedb88320 else crc >>> 1)
    (crc ^^^ b.toUInt32)) 0

/-- Two sectors, the second one behind the first one. -/
def twoSectors : Board where
  sectors := [⟨1, 24, 64⟩, ⟨2, 48, 88⟩]
  nonempty := by decide
  address_ne := by decide
  page_ne := by decide
  aligned := by decide
  inMemory := by decide
  disjoint := by decide
  getpage a := if a < 88 then 1 else 2
  getpage_address := by decide
  crc32 := crc32

/-- Two sectors, the second one below the first one. -/
def sectorsDown : Board where
  sectors := [⟨1, 28, 108⟩, ⟨2, 44, 64⟩]
  nonempty := by decide
  address_ne := by decide
  page_ne := by decide
  aligned := by decide
  inMemory := by decide
  disjoint := by decide
  getpage a := if a < 108 then 2 else 1
  getpage_address := by decide
  crc32 := crc32

/-- A memory where both sectors are blank, and everything else is zero. -/
def blankSectors : Mem := fun x => if 64 ≤ x ∧ x < 136 then 0xff else 0

/-- Data of four bytes. -/
def four (b : UInt8) : Data := ⟨[b, 0, 0, 0], by simp [totalSize, headerSize]⟩

/-- The entry of this data takes the first of `twoSectors` and most of the second one. -/
def spill : Data := ⟨List.replicate 28 0xff ++ List.replicate 20 0, by decide⟩

/-- The entry of this data is as large as the first of `sectorsDown`. -/
def whole : Data := ⟨List.replicate 12 7, by decide⟩

theorem endsLast_of_found {a : ℕ} (hfind : findEntry B m = .found a)
    (hne : ∀ s ∈ B.sectors, a + entrySize m a ≠ s.stop) : EndsLast B m := by
  intro k s b hb hk _ hend
  obtain rfl : a = b := Search.found.inj (hfind.symm.trans hb)
  exact absurd hend (hne s (List.mem_of_getElem? hk))

theorem endsLast_of_absent (hfind : findEntry B m = .absent) : EndsLast B m := by
  intro k s a ha
  cases hfind.symm.trans ha

/-- The memory after these writes. -/
def written (B : Board) (m : Mem) (ds : List Data) : Mem :=
  ds.foldl (fun m d => applyOps m (writeOps B m d)) m

theorem exec_write {d : Data} {es : List Event}
    (h : (parameterFlashfsWrite B m d).1 = .returned d.1.length) :
    exec (step B) (some m) (.write d :: es) = exec (step B) (some (written B m [d])) es := by
  rw [exec_cons, step_write h]
  rfl

theorem allSteps_write {ok : Option Mem → Event → Prop} {d : Data} {es : List Event}
    (h : (parameterFlashfsWrite B m d).1 = .returned d.1.length) (hok : ok (some m) (.write d))
    (hrest : AllSteps (step B) ok (some (written B m [d])) es) :
    AllSteps (step B) ok (some m) (.write d :: es) := by
  refine ⟨hok, ?_⟩
  rw [step_write h]
  exact hrest

/-- The second entry goes to the other sector, the third one behind it, and for the last one the
first sector is erased. -/
theorem last_write_read_four : ∃ m', exec (step twoSectors) (some blankSectors)
      ([four 1, four 2, four 3, four 4].map .write) = some m' ∧
    parameterFlashfsRead twoSectors m' = .ok [4, 0, 0, 0] := by
  have h₁ : (parameterFlashfsWrite twoSectors blankSectors (four 1)).1 = .returned 4 := by
    decide +kernel
  have h₂ : (parameterFlashfsWrite twoSectors
      (written twoSectors blankSectors [four 1]) (four 2)).1 = .returned 4 := by
    decide +kernel
  have h₃ : (parameterFlashfsWrite twoSectors
      (written twoSectors blankSectors [four 1, four 2]) (four 3)).1 = .returned 4 := by
    decide +kernel
  have h₄ : (parameterFlashfsWrite twoSectors
      (written twoSectors blankSectors [four 1, four 2, four 3]) (four 4)).1 = .returned 4 := by
    decide +kernel
  have hends₂ : EndsLast twoSectors (written twoSectors blankSectors [four 1]) :=
    endsLast_of_found (a := 64) (by decide +kernel) (by decide +kernel)
  have hends₃ : EndsLast twoSectors (written twoSectors blankSectors [four 1, four 2]) :=
    endsLast_of_found (a := 88) (by decide +kernel) (by decide +kernel)
  have hends₄ : EndsLast twoSectors (written twoSectors blankSectors [four 1, four 2, four 3]) :=
    endsLast_of_found (a := 108) (by decide +kernel) (by decide +kernel)
  refine last_write_read (by decide +kernel)
    (List.cons_ne_nil (four 1) [four 2, four 3, four 4]) ?_ ?_ ?_
  · refine ⟨by decide, 0, ⟨1, 24, 64⟩, rfl, by decide, ?_⟩
    intro j t hj
    omega
  · refine allSteps_write h₁ ?_ (allSteps_write h₂ ?_ (allSteps_write h₃ ?_ ⟨?_, trivial⟩))
    · rintro _ ⟨⟩
      exact endsLast_of_absent (by decide +kernel)
    · rintro _ ⟨⟩
      exact hends₂
    · rintro _ ⟨⟩
      exact hends₃
    · rintro _ ⟨⟩
      exact hends₄
  · exact allSteps_write h₁ h₁ (allSteps_write h₂ h₂ (allSteps_write h₃ h₃ ⟨h₄, trivial⟩))

theorem word_of_zero {a : ℕ} (h : ∀ x, a ≤ x → m x = 0) : word m a = 0 := by
  have hload : load m a 4 = [0, 0, 0, 0] := by
    simp only [load, List.range, List.range.loop, List.map_cons, List.map_nil]
    rw [h (a + 0) (by omega), h (a + 1) (by omega), h (a + 2) (by omega), h (a + 3) (by omega)]
  rw [word, hload]
  rfl

theorem hunt_beyond {last : ℕ} (n : ℕ) : ∀ {a : ℕ}, last < a → (∀ x, a ≤ x → m x = 0) →
    hunt m last n a = none := by
  induction n with
  | zero => exact fun _ _ => rfl
  | succ n ih =>
      intro a hlt hzero
      have hmagic : validMagic m a = false := by
        rw [validMagic, word_of_zero hzero]
        rfl
      have hnext := ih (a := a + 4) (by omega) fun x hx => hzero x (by omega)
      simp [hunt, Nat.ne_of_gt hlt, hmagic, hnext]

/-- The search is lost when it steps over an erased entry that ends behind the last word, and
nothing but zeros follows. -/
theorem searchSector_beyond {last a n : ℕ} (h : Entry B m a n) (herased : validEntry m a = false)
    (hne : a ≠ last) (hlt : last < a + n) (hzero : ∀ x, a + n ≤ x → m x = 0) :
    searchSector B m last addressWords a = .lost := by
  have hblank : blankEntry m (a + n) = false := by
    rw [blankEntry, word_of_zero hzero]
    rfl
  obtain ⟨k, hk⟩ : ∃ k, addressWords = k + 2 := ⟨addressWords - 2, by rw [addressWords_eq]; omega⟩
  have hlost := hunt_beyond addressWords hlt hzero
  rw [hk, searchSector, hunt_magic h.magic]
  simp only [hne, if_false, h.crc, if_true, herased, Bool.false_and, Bool.false_eq_true, h.size,
    hblank]
  rw [searchSector, hlost]

/-- An entry that fills its sector is replaced by one in a sector below: the search steps over the
old one and goes on behind the sector. -/
theorem find_beyond_full_sector :
    findEntry sectorsDown (written sectorsDown blankSectors [whole, four 1]) = .lost := by
  have hfirst : writeOps sectorsDown blankSectors whole =
      wordOps 108 (entryBytes sectorsDown whole) := by
    have hplace : place sectorsDown blankSectors whole.total = .at [] 108 := by decide +kernel
    simp [writeOps, hplace]
  have hsecond : writeOps sectorsDown (written sectorsDown blankSectors [whole]) (four 1) =
      eraseEntry 108 :: wordOps 64 (entryBytes sectorsDown (four 1)) := by
    have hplace : place sectorsDown (written sectorsDown blankSectors [whole]) (four 1).total =
        .at [eraseEntry 108] 64 := by
      decide +kernel
    simp [writeOps, hplace]
  have hzero : ∀ x, 136 ≤ x → written sectorsDown blankSectors [whole, four 1] x = 0 := by
    intro x hx
    have hout : ¬(64 ≤ x ∧ x < 136) := by omega
    have hwhole : whole.total = 28 := rfl
    have hfour : (four 1).total = 20 := rfl
    calc
      written sectorsDown blankSectors [whole, four 1] x
          = applyOps (written sectorsDown blankSectors [whole])
              (eraseEntry 108 :: wordOps 64 (entryBytes sectorsDown (four 1))) x := by
            rw [← hsecond]
            rfl
      _ = program (program (written sectorsDown blankSectors [whole]) 112 [0, 0]) 64
            (entryBytes sectorsDown (four 1)) x := by
            rw [← applyOps_wordOps _ 64 (by simp [hfour])]
            rfl
      _ = written sectorsDown blankSectors [whole] x := by
            rw [program_of_outside _ _ (by simp [hfour]; omega),
              program_of_outside _ _ (by simp; omega)]
      _ = program blankSectors 108 (entryBytes sectorsDown whole) x := by
            rw [← applyOps_wordOps _ 108 (by simp [hwhole]), ← hfirst]
            rfl
      _ = 0 := by
            rw [program_of_outside _ _ (by simp [hwhole]; omega)]
            simp [blankSectors, hout]
  have hentry : Entry sectorsDown (written sectorsDown blankSectors [whole, four 1]) 108 28 :=
    ⟨by decide +kernel, by decide +kernel, by decide +kernel, by decide, by decide⟩
  have herased : validEntry (written sectorsDown blankSectors [whole, four 1]) 108 = false := by
    decide +kernel
  have hlost : searchSector sectorsDown (written sectorsDown blankSectors [whole, four 1]) 132
      addressWords 108 = .lost :=
    searchSector_beyond hentry herased (by decide) (by decide) hzero
  have hne : Search.lost ≠ .absent := by decide
  have hsector : sectorsDown.sectors[0]? = some ⟨1, 28, 108⟩ := rfl
  exact (searchSectors_eq hsector (fun j t hj => by omega) (hlost ▸ hne)).trans hlost

/-- A first entry that does not end in its sector: what it leaves in the second sector is not blank
where the third entry goes, and the data of the third write is not read.  And an entry that fills
its sector: after the next write, the search is lost. -/
theorem writes_beyond_sector :
    ((∀ s ∈ twoSectors.sectors, Blank blankSectors s.address s.size) ∧
      AllSteps (step twoSectors) (Returns twoSectors) (some blankSectors)
        ([spill, four 1, four 2].map .write) ∧
      ∃ m', exec (step twoSectors) (some blankSectors) ([spill, four 1, four 2].map .write) =
        some m' ∧
        parameterFlashfsRead twoSectors m' = .error (.returned (-2))) ∧
    (∀ s ∈ sectorsDown.sectors, Blank blankSectors s.address s.size) ∧
      AllSteps (step sectorsDown) (Returns sectorsDown) (some blankSectors)
        ([whole, four 1].map .write) ∧
      ∃ m', exec (step sectorsDown) (some blankSectors) ([whole, four 1].map .write) = some m' ∧
        parameterFlashfsRead sectorsDown m' = .error .lost := by
  constructor
  · have h₁ : (parameterFlashfsWrite twoSectors blankSectors spill).1 = .returned 48 := by
      decide +kernel
    have h₂ : (parameterFlashfsWrite twoSectors
        (written twoSectors blankSectors [spill]) (four 1)).1 = .returned 4 := by
      decide +kernel
    have h₃ : (parameterFlashfsWrite twoSectors
        (written twoSectors blankSectors [spill, four 1]) (four 2)).1 = .returned 4 := by
      decide +kernel
    have hfind : findEntry twoSectors (written twoSectors blankSectors [spill, four 1, four 2]) =
        .absent := by
      decide +kernel
    refine ⟨by decide +kernel, ?_, written twoSectors blankSectors [spill, four 1, four 2], ?_, ?_⟩
    · exact allSteps_write h₁ h₁ (allSteps_write h₂ h₂ ⟨h₃, trivial⟩)
    · calc
        exec (step twoSectors) (some blankSectors) ([spill, four 1, four 2].map .write)
            = exec (step twoSectors) (some (written twoSectors blankSectors [spill]))
                ([four 1, four 2].map .write) := exec_write h₁
        _ = exec (step twoSectors) (some (written twoSectors blankSectors [spill, four 1]))
                ([four 2].map .write) := exec_write h₂
        _ = some (written twoSectors blankSectors [spill, four 1, four 2]) := exec_write h₃
    · rw [parameterFlashfsRead, hfind]
  · have h₁ : (parameterFlashfsWrite sectorsDown blankSectors whole).1 = .returned 12 := by
      decide +kernel
    have h₂ : (parameterFlashfsWrite sectorsDown
        (written sectorsDown blankSectors [whole]) (four 1)).1 = .returned 4 := by
      decide +kernel
    refine ⟨by decide +kernel, ?_, written sectorsDown blankSectors [whole, four 1], ?_, ?_⟩
    · exact allSteps_write h₁ h₁ ⟨h₂, trivial⟩
    · calc
        exec (step sectorsDown) (some blankSectors) ([whole, four 1].map .write)
            = exec (step sectorsDown) (some (written sectorsDown blankSectors [whole]))
                ([four 1].map .write) := exec_write h₁
        _ = some (written sectorsDown blankSectors [whole, four 1]) := exec_write h₂
    · rw [parameterFlashfsRead, find_beyond_full_sector]

/-! ## Runs with losses of power -/

/-- The condition on a write of so many bytes.  Where no sector has a valid entry, there is either
room behind complete entries, or no room at all. -/
structure CarefulWrite (B : Board) (m : Mem) (total : ℕ) : Prop where
  ends : EndsLast B m
  room : (∀ s ∈ B.sectors, Vacant True B m s) → HasRoom B m total ∨
    (∀ s ∈ B.sectors, ¬Full B m s) ∧ findFree B m total = .absent

/-- The condition on a write of which `w` words of the entry are programmed: if its size is one of
them, the CRC tells the rest from the whole. -/
def CarefulCut (B : Board) (d : Data) (w : ℕ) : Prop :=
  3 ≤ w → tornBody d w = entryBody d ∨ B.crc32 (tornBody d w) ≠ B.crc32 (entryBody d)

/-- How many words of its entry a write has programmed after `n` operations. -/
def programmedWords (B : Board) (m : Mem) (d : Data) (n : ℕ) : ℕ :=
  match place B m d.total with
  | .at before _ => n - before.length
  | _ => 0

/-- The memory when a write is cut off. -/
def cutOff (B : Board) (m : Mem) (d : Data) (n : ℕ) : Mem :=
  applyOps m ((writeOps B m d).take n)

/-- The condition on an event.  No header that was cut off before its size has a good CRC by
accident, after the cut or after a later write. -/
def Careful (B : Board) (s : Option Mem) (e : Event) : Prop :=
  match s, e with
  | none, _ => True
  | some m, .write d => CarefulWrite B m d.total ∧ Told B (applyOps m (writeOps B m d))
  | some m, .cutWrite d n _ =>
      CarefulWrite B m d.total ∧ CarefulCut B d (programmedWords B m d n) ∧ Told B (cutOff B m d n)

theorem Sound.place {total : ℕ} (h : Sound True B m) (htold : Told B m)
    (htotal : headerSize ≤ total) (hcareful : CarefulWrite B m total) :
    place B m total = .noSpace ∨ Lands True B m total := by
  have hsearch : True → Told B m := fun _ => htold
  rcases h with ⟨k, s, c, d, h⟩ | h
  · exact place_stored h hsearch htotal hcareful.ends
  · rcases hcareful.room h with hroom | ⟨hfull, hfree⟩
    · exact .inr (place_vacant h hsearch htotal hroom)
    · have hfind := findEntry_absent (fun s hs => ⟨h s hs, hfull s hs⟩) hsearch
      exact .inl (by simp [FlashFs.place, hfind, hfree])

/-- In the sector of an entry that was cut off, no entry is valid, and nothing else has changed. -/
theorem Placed.vacant_of_cut {k c total : ℕ} {s : Sector} (h : Placed True B m k s c total)
    (hkeep : ∀ x, x < c ∨ c + total ≤ x → m' x = m x)
    (hcut : (∃ c, Torn B m' s c) ∨ ∃ c, ShortHeader B m' s c) : Sound True B m' := by
  right
  intro t ht
  obtain ⟨j, hj⟩ := List.mem_iff_getElem?.1 ht
  by_cases hjk : j = k
  · subst hjk
    obtain rfl : s = t := Option.some.inj (h.sector.symm.trans hj)
    exact .inr ⟨trivial, hcut⟩
  · exact (h.vacant t ht).congr (h.others hkeep hjk hj)

theorem Placed.shortHeader {k c w : ℕ} {s : Sector} {d : Data} (h : Placed cuts B m k s c d.total)
    (hpos : 0 < w) (hw : w < 3) : ShortHeader B (programWords B m c d w) s c := by
  have h16 : headerSize = 16 := rfl
  have hle := headerSize_le_total d
  have hfits := h.fits
  have hlen : ((entryBytes B d).take (4 * w)).length = 4 * w := by
    rw [List.length_take, length_entryBytes]
    omega
  have hkeep : ∀ x, x < c ∨ c + 4 * w ≤ x → programWords B m c d w x = m x := fun x hx =>
    program_of_outside m _ (by rwa [hlen])
  refine ⟨h.closed.erased.congr fun x _ hx => hkeep x (.inl hx), ?_, ?_, by omega⟩
  · -- the magic word is the first one
    have htake : (entryBytes B d).take (4 * w) =
        leBytes 4 magicSig ++ ((entryBytes B d).drop 4).take (4 * w - 4) := by
      have hfirst : (entryBytes B d).take 4 = leBytes 4 magicSig := by
        simp [entryBytes, List.take_append, List.take_of_length_le]
      rw [← hfirst, ← List.take_add, show 4 + (4 * w - 4) = 4 * w by omega]
    have hload := load_programWords (B := B) (w := w) h.blank
    rw [htake, List.append_assoc, show d.total = 4 + (d.total - 4) by omega] at hload
    rw [validMagic, word, (load_eq_append hload (length_leBytes 4 _)).1, leValue_leBytes]
    rfl
  · have hblank : Blank (programWords B m c d w) (c + 10) 2 :=
      (h.blank.sub (by omega) (by omega)).congr fun x hx _ => hkeep x (.inr (by omega))
    rw [entrySize, half, load_of_blank hblank]
    rfl

theorem Placed.cut {k c w : ℕ} {s : Sector} {d : Data} (h : Placed True B m k s c d.total)
    (hw : CarefulCut B d w) : Sound True B (programWords B m c d w) := by
  have hkeep : ∀ x, x < c ∨ c + d.total ≤ x → programWords B m c d w x = m x := fun x hx =>
    programWords_of_outside hx
  rcases Nat.eq_zero_or_pos w with rfl | hpos
  · have hnone : programWords B m c d 0 = m := program_nil m c
    rw [hnone]
    exact .inr h.vacant
  rcases Nat.lt_or_ge w 3 with hlt | hge
  · exact h.vacant_of_cut hkeep (.inr ⟨c, h.shortHeader hpos hlt⟩)
  · have hbody := hw hge
    have hle := headerSize_le_total d
    obtain ⟨hheader, htorn⟩ := h.torn_bytes hge
    by_cases hsame : tornBody d w = entryBody d
    · -- only blank bytes are missing
      rw [hsame] at htorn
      exact .inl ⟨k, s, c, d, h.stored hkeep (bytes_of_body hheader htorn)⟩
    · have hcrc : crcMatches B (programWords B m c d w) c = false := by
        rw [Bool.eq_false_iff]
        intro hmatch
        exact (hbody.resolve_left hsame) ((crcMatches_of_bytes hheader htorn).1 hmatch)
      obtain ⟨hmagic, _, _, hsize⟩ := header_of_bytes hheader
      have herased : Erased B (programWords B m c d w) s.address c :=
        h.closed.erased.congr fun x _ hx => hkeep x (.inl hx)
      refine h.vacant_of_cut hkeep (.inl ⟨c, herased, hmagic, ?_, ?_, hcrc⟩)
      · rwa [hsize]
      · rw [hsize]
        exact h.fits

theorem Sound.cut {d : Data} {n : ℕ} (h : Sound True B m) (htold : Told B m)
    (hcareful : CarefulWrite B m d.total) (hcut : CarefulCut B d (programmedWords B m d n)) :
    Sound True B (cutOff B m d n) := by
  unfold cutOff
  rcases h.place htold (headerSize_le_total d) hcareful with
    hplace | ⟨before, k, s, c, hplace, hplaced, hbefore⟩
  · simpa [writeOps, hplace, applyOps] using h
  · have hwords : programmedWords B m d n = n - before.length := by simp [programmedWords, hplace]
    rw [hwords] at hcut
    have htake : (writeOps B m d).take n =
        before.take n ++ (wordOps c (entryBytes B d)).take (n - before.length) := by
      simp [writeOps, hplace, List.take_append]
    rw [htake, applyOps_append]
    rcases Nat.lt_or_ge n before.length with hlt | hge
    · -- before the entry
      rw [Nat.sub_eq_zero_of_le (Nat.le_of_lt hlt)]
      simpa [applyOps] using hbefore n
    · rw [List.take_of_length_le hge, applyOps_take_wordOps _ c (by simpa using total_dvd d)]
      exact hplaced.cut hcut

theorem blank_erased (B : Board) (m : Mem) {s : Sector} (hs : s ∈ B.sectors) :
    Blank (parameterFlashfsErase B m) s.address s.size := by
  intro i hi
  refine applyOps_erases ?_ (.inr ⟨s.address, s.size, ?_, by omega, by omega⟩)
  · intro op hop
    obtain ⟨t, ht, hop⟩ := List.mem_flatMap.1 hop
    rw [eraseSector_eq ht, List.mem_singleton] at hop
    exact ⟨t.address, t.size, hop⟩
  · rw [List.mem_flatMap]
    exact ⟨s, hs, by rw [eraseSector_eq hs]; exact List.mem_singleton_self _⟩

/-- There is no header without a size if no magic word has a blank size behind it. -/
theorem told_of_sizes (h : ∀ s ∈ B.sectors, ∀ i < s.size - 15,
    validMagic m (s.address + i) = true → entrySize m (s.address + i) ≠ 65535) : Told B m := by
  intro s hs c hc
  have h16 : headerSize = 16 := rfl
  have hstop : s.stop = s.address + s.size := rfl
  have hfits := hc.fits
  obtain ⟨i, rfl⟩ := Nat.exists_eq_add_of_le hc.erased.le
  exact absurd hc.size (h s hs i (by omega) hc.magic)

theorem told_of_blank (hblank : ∀ s ∈ B.sectors, Blank m s.address s.size) : Told B m := by
  refine told_of_sizes fun s hs i hi hmagic => ?_
  have hword : Blank m (s.address + i) 4 := (hblank s hs).sub (by omega) (by omega)
  exact absurd (hmagic.symm.trans (validMagic_blank hword)) (by decide)

/-- `init` leaves the memory as it is, or it erases all sectors. -/
theorem init_cases {size : ℕ} (hinit : parameterFlashfsInit B m size = some m') :
    m' = m ∨ m' = parameterFlashfsErase B m := by
  unfold parameterFlashfsInit at hinit
  split at hinit
  · cases hinit
  · exact .inl (Option.some.inj hinit).symm
  · split at hinit
    · cases hinit
    · exact .inl (Option.some.inj hinit).symm
    · exact .inr (Option.some.inj hinit).symm

theorem Sound.init {size : ℕ} (h : Sound True B m) (htold : Told B m)
    (hinit : parameterFlashfsInit B m size = some m') : Sound True B m' ∧ Told B m' := by
  rcases init_cases hinit with rfl | rfl
  · exact ⟨h, htold⟩
  · have hblank : ∀ s ∈ B.sectors, Blank (parameterFlashfsErase B m) s.address s.size :=
      fun s hs => blank_erased B m hs
    exact ⟨.inr fun s hs => vacant_of_blank (hblank s hs), told_of_blank hblank⟩

/-- The parameters are stored if a completed write is recorded, and the memory is sound. -/
def Safe (B : Board) (p : Option Mem × Option Data) : Prop :=
  match p.1 with
  | none => p.2 = none
  | some m => Sound True B m ∧ Told B m ∧ ∀ d, p.2 = some d → ∃ k s c, Stored True B m k s c d

theorem Sound.write {d : Data} (h : Sound True B m) (htold : Told B m)
    (hcareful : CarefulWrite B m d.total) :
    parameterFlashfsWrite B m d = (.returned (-28), m) ∨
      parameterFlashfsWrite B m d = (.returned d.1.length, applyOps m (writeOps B m d)) ∧
        ∃ k s c, Stored True B (applyOps m (writeOps B m d)) k s c d := by
  rcases h.place htold (headerSize_le_total d) hcareful with hplace | hlands
  · left
    simp [parameterFlashfsWrite, writeOps, hplace, applyOps]
  · obtain ⟨hwrite, hstored⟩ := hlands.write
    exact .inr ⟨Prod.ext hwrite rfl, hstored⟩

theorem Safe.step {p : Option Mem × Option Data} {e : Event} (h : Safe B p)
    (hcareful : Careful B p.1 e) : Safe B (historyStep (step B) (record B) p e) := by
  rcases p with ⟨_ | m, last⟩
  · cases e with
    | write d => rfl
    | cutWrite d n size => rfl
  · obtain ⟨hsound, htold, _⟩ := h
    cases e with
    | write d =>
        obtain ⟨hcareful, htold'⟩ := hcareful
        rcases hsound.write htold hcareful with hwrite | ⟨hwrite, hstored⟩
        · have hlength : (-28 : ℤ) ≠ d.1.length := by omega
          simp only [historyStep, FlashFs.step, record, hwrite]
          refine ⟨hsound, htold, ?_⟩
          intro d' hd'
          simp [hlength] at hd'
        · simp only [historyStep, FlashFs.step, record, hwrite, if_true]
          refine ⟨.inl ?_, htold', ?_⟩
          · obtain ⟨k, s, c, hstored⟩ := hstored
            exact ⟨k, s, c, d, hstored⟩
          · rintro _ ⟨⟩
            exact hstored
    | cutWrite d n size =>
        obtain ⟨hwrite, hcut, htold'⟩ := hcareful
        have hleft := hsound.cut htold hwrite hcut
        unfold cutOff at hleft htold'
        simp only [historyStep, FlashFs.step, record]
        split
        · rfl
        · cases hinit : parameterFlashfsInit B (applyOps m ((writeOps B m d).take n)) size with
          | none => rfl
          | some m' =>
              obtain ⟨hsound', htold''⟩ := hleft.init htold' hinit
              refine ⟨hsound', htold'', ?_⟩
              intro d' hd'
              cases hd'

/-- `init` leaves the memory as it is when there is room. -/
theorem step_cutWrite {d : Data} {n size a : ℕ} (hplace : place B m d.total ≠ .lost)
    (hfind : findEntry B (cutOff B m d n) = .absent)
    (hfree : findFree B (cutOff B m d n) (totalSize size % 65536) = .found a) :
    step B (some m) (.cutWrite d n size) = some (cutOff B m d n) := by
  have hinit : parameterFlashfsInit B (cutOff B m d n) size = some (cutOff B m d n) := by
    simp [parameterFlashfsInit, hfind, hfree]
  simp only [step]
  exact hinit

end FlashFs
end Params
end DtPhm
