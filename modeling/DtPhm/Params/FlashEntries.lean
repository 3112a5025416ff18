import DtPhm.Params.FlashFs

/-!
# FlashEntries — entries in a sector, and what the searches make of them

A sector in order holds entries without a gap from its start, and is blank behind them.

* `Entry`, `Erased` — an entry with a good CRC, and entries that are all marked as erased;
* `Closed`, `Torn`, `ShortHeader` — a sector in order, and one whose last entry was not programmed
  to its end, or not even to its size;
* `Vacant`, `Told` — a sector without a valid entry, and what a search relies on there;
* `Holds` — the sector with the stored parameters;
* `findEntry_stored`, `findEntry_absent`, `findFree_found` — what the searches find.
-/

namespace DtPhm
namespace Params
namespace FlashFs

open Lib

variable {B : Board} {m m' : Mem} {cuts : Prop}

/-! ## Entries -/

/-- An entry of `n` bytes, with a good CRC. -/
structure Entry (B : Board) (m : Mem) (a n : ℕ) : Prop where
  magic : validMagic m a = true
  size : entrySize m a = n
  crc : crcMatches B m a = true
  le : headerSize ≤ n
  dvd : 4 ∣ n

/-- Entries from `a` to `b`, all of them marked as erased. -/
inductive Erased (B : Board) (m : Mem) : ℕ → ℕ → Prop
  | nil (a : ℕ) : Erased B m a a
  | cons {a n b : ℕ} (entry : Entry B m a n) (erased : validEntry m a = false)
      (rest : Erased B m (a + n) b) : Erased B m a b

theorem word_congr {a : ℕ} (h : ∀ i < 4, m' (a + i) = m (a + i)) : word m' a = word m a := by
  rw [word, word, load_congr h]

theorem validMagic_congr {a : ℕ} (h : ∀ i < 4, m' (a + i) = m (a + i)) :
    validMagic m' a = validMagic m a := by
  rw [validMagic, validMagic, word_congr h]

theorem half_congr {a : ℕ} (h : ∀ i < 2, m' (a + i) = m (a + i)) : half m' a = half m a := by
  rw [half, half, load_congr h]

theorem header_congr {a : ℕ} (h : ∀ i < headerSize, m' (a + i) = m (a + i)) :
    validMagic m' a = validMagic m a ∧ entryFlag m' a = entryFlag m a ∧
      entryCrc m' a = entryCrc m a ∧ entrySize m' a = entrySize m a := by
  have h16 : headerSize = 16 := rfl
  have hat : ∀ k i, k + i < headerSize → m' (a + k + i) = m (a + k + i) := by
    intro k i hi
    rw [Nat.add_assoc]
    exact h (k + i) hi
  refine ⟨?_, ?_, ?_, ?_⟩
  · exact validMagic_congr fun i hi => h i (by omega)
  · exact half_congr fun i hi => hat 4 i (by omega)
  · exact word_congr fun i hi => hat 6 i (by omega)
  · exact half_congr fun i hi => hat 10 i (by omega)

theorem validEntry_congr {a : ℕ} (h : ∀ i < headerSize, m' (a + i) = m (a + i)) :
    validEntry m' a = validEntry m a := by
  rw [validEntry, validEntry, (header_congr h).2.1]

theorem crcMatches_congr {a n : ℕ} (hsize : entrySize m a = n) (hle : headerSize ≤ n)
    (h : ∀ i < n, m' (a + i) = m (a + i)) (hn : n < 65536) :
    crcMatches B m' a = crcMatches B m a := by
  have h16 : headerSize = 16 := rfl
  obtain ⟨_, _, hcrc, hsize'⟩ := header_congr fun i hi => h i (by omega)
  have hlength : (n + 65536 - 10) % 65536 = n - 10 := by omega
  have hbody : load m' (a + 10) (n - 10) = load m (a + 10) (n - 10) := by
    apply load_congr
    intro i hi
    rw [Nat.add_assoc]
    exact h (10 + i) (by omega)
  unfold crcMatches entryCrcLength
  rw [hcrc, hsize', hsize, hlength, hbody]

theorem entrySize_lt (m : Mem) (a : ℕ) : entrySize m a < 65536 := by
  have := leValue_lt (load m (a + 10) 2)
  rw [length_load] at this
  exact this

theorem Entry.lt {a n : ℕ} (h : Entry B m a n) : n < 65536 := h.size ▸ entrySize_lt m a

theorem Entry.congr {a n : ℕ} (h : Entry B m a n) (heq : ∀ i < n, m' (a + i) = m (a + i)) :
    Entry B m' a n ∧ validEntry m' a = validEntry m a := by
  have hle := h.le
  have hheader : ∀ i < headerSize, m' (a + i) = m (a + i) := fun i hi => heq i (by omega)
  obtain ⟨hmagic, _, _, hsize⟩ := header_congr hheader
  refine ⟨⟨hmagic.trans h.magic, hsize.trans h.size, ?_, hle, h.dvd⟩, validEntry_congr hheader⟩
  exact (crcMatches_congr h.size hle heq h.lt).trans h.crc

theorem Erased.le {a b : ℕ} (h : Erased B m a b) : a ≤ b := by
  induction h with
  | nil a => exact Nat.le_refl a
  | cons _ _ _ ih => omega

theorem Erased.dvd {a b : ℕ} (h : Erased B m a b) : 4 ∣ b - a := by
  induction h with
  | nil a => simp
  | @cons a n b entry _ rest ih =>
      have hle := rest.le
      have hn := entry.dvd
      omega

theorem Erased.congr {a b : ℕ} (h : Erased B m a b) (heq : ∀ x, a ≤ x → x < b → m' x = m x) :
    Erased B m' a b := by
  induction h with
  | nil a => exact .nil a
  | @cons a n b entry erased rest ih =>
      have hle := rest.le
      obtain ⟨entry', hvalid⟩ : Entry B m' a n ∧ validEntry m' a = validEntry m a :=
        entry.congr fun i hi => heq (a + i) (by omega) (by omega)
      refine .cons entry' (hvalid.trans erased) (ih ?_)
      intro x hx hxb
      exact heq x (by omega) hxb

theorem Erased.append {a b c : ℕ} (h : Erased B m a b) (h' : Erased B m b c) : Erased B m a c := by
  induction h with
  | nil a => exact h'
  | cons entry erased _ ih => exact .cons entry erased (ih h')

/-! ## The bytes of an entry -/

theorem total_eq (d : Data) : d.total = d.1.length + headerSize + sizeAdjust d.1.length := by
  unfold Data.total sizeAdjust totalSize
  omega

theorem sizeAdjust_lt (n : ℕ) : sizeAdjust n < 4 := by
  unfold sizeAdjust totalSize
  omega

theorem total_dvd (d : Data) : 4 ∣ d.total := Nat.dvd_mul_left 4 _

theorem headerSize_le_total (d : Data) : headerSize ≤ d.total := by
  rw [total_eq]
  omega

theorem length_entryBody (d : Data) : (entryBody d).length = d.total - 10 := by
  have h16 : headerSize = 16 := rfl
  have := total_eq d
  simp only [entryBody, List.length_append, length_leBytes, parametersToken, List.length_cons,
    List.length_nil, List.length_replicate]
  omega

@[simp] theorem length_entryBytes (B : Board) (d : Data) : (entryBytes B d).length = d.total := by
  have h16 : headerSize = 16 := rfl
  have := headerSize_le_total d
  simp only [entryBytes, List.length_append, length_leBytes, length_entryBody]
  omega

theorem flag_masks : ∀ n < 4,
    (validFlag + n) &&& 0xfffc = validFlag ∧ (validFlag + n) &&& 3 = n := by
  decide

theorem header_of_bytes {c : ℕ} {d : Data} (h : load m c 12 = (entryBytes B d).take 12) :
    validMagic m c = true ∧ entryFlag m c = validFlag + sizeAdjust d.1.length ∧
      entryCrc m c = (B.crc32 (entryBody d)).toNat ∧ entrySize m c = d.total := by
  have hd := d.2
  have hadjust := sizeAdjust_lt d.1.length
  have htake : (entryBytes B d).take 12 = leBytes 4 magicSig ++
      (leBytes 2 (validFlag + sizeAdjust d.1.length) ++ (leBytes 4 (B.crc32 (entryBody d)).toNat ++
        leBytes 2 d.total)) := by
    simp [entryBytes, entryBody, List.take_append, List.take_of_length_le]
  rw [htake] at h
  obtain ⟨hmagic, hrest⟩ := load_eq_append (n := 4) (k := 8) h (length_leBytes 4 _)
  obtain ⟨hflag, hrest⟩ := load_eq_append (n := 2) (k := 6) hrest (length_leBytes 2 _)
  obtain ⟨hcrc, hsize⟩ := load_eq_append (n := 4) (k := 2) hrest (length_leBytes 4 _)
  refine ⟨?_, ?_, ?_, ?_⟩
  · rw [validMagic, word, hmagic, leValue_leBytes]
    rfl
  · rw [entryFlag, half, hflag, leValue_leBytes, Nat.mod_eq_of_lt]
    unfold validFlag
    omega
  · rw [entryCrc, word, show c + 6 = c + 4 + 2 by rfl, hcrc, leValue_leBytes, Nat.mod_eq_of_lt]
    exact (B.crc32 (entryBody d)).toNat_lt
  · rw [entrySize, half, show c + 10 = c + 4 + 2 + 4 by rfl, hsize, leValue_leBytes,
      Nat.mod_eq_of_lt]
    exact hd

theorem crcMatches_of_bytes {c : ℕ} {d : Data} {body : List UInt8}
    (h : load m c 12 = (entryBytes B d).take 12) (hbody : load m (c + 10) (d.total - 10) = body) :
    crcMatches B m c = true ↔ B.crc32 body = B.crc32 (entryBody d) := by
  have h16 : headerSize = 16 := rfl
  have hd : d.total < 65536 := d.2
  have hle := headerSize_le_total d
  obtain ⟨_, _, hcrc, hsize⟩ := header_of_bytes h
  have hlength : (d.total + 65536 - 10) % 65536 = d.total - 10 := by omega
  rw [crcMatches, entryCrcLength, hsize, hlength, hcrc, hbody, beq_iff_eq, UInt32.toNat_inj]
  exact eq_comm

theorem bytes_of_body {c : ℕ} {d : Data} (h : load m c 12 = (entryBytes B d).take 12)
    (hbody : load m (c + 10) (d.total - 10) = entryBody d) : load m c d.total = entryBytes B d := by
  have h16 : headerSize = 16 := rfl
  have hle := headerSize_le_total d
  have htake : (entryBytes B d).take 12 =
      (leBytes 4 magicSig ++ leBytes 2 (validFlag + sizeAdjust d.1.length) ++
        leBytes 4 (B.crc32 (entryBody d)).toNat) ++ (entryBody d).take 2 := by
    rw [entryBytes, List.take_append, List.take_of_length_le (by simp)]
    simp
  rw [htake] at h
  have hhead := (load_eq_append (n := 10) (k := 2) h (by simp)).1
  rw [show d.total = 10 + (d.total - 10) by omega, load_add, hhead, hbody, entryBytes]

theorem entry_of_bytes {c : ℕ} {d : Data} (h : load m c d.total = entryBytes B d) :
    Entry B m c d.total ∧ validEntry m c = true ∧ entryToken m c = parametersToken ∧
      entryDataLength m c = d.1.length ∧ load m (c + headerSize) d.1.length = d.1 := by
  have h16 : headerSize = 16 := rfl
  have hd : d.total < 65536 := d.2
  have htotal := total_eq d
  have hadjust := sizeAdjust_lt d.1.length
  have hfirst : load m c 12 = (entryBytes B d).take 12 := by
    have hall := h
    rw [← List.take_append_drop 12 (entryBytes B d),
      show d.total = 12 + (d.total - 12) by omega] at hall
    exact (load_eq_append hall (by simp; omega)).1
  have hbody : load m (c + 10) (d.total - 10) = entryBody d := by
    rw [show d.total = 10 + (d.total - 10) by omega, entryBytes] at h
    exact (load_eq_append h (by simp)).2
  obtain ⟨hmagic, hflag, _, hsize⟩ := header_of_bytes hfirst
  -- the fields of the body
  have hdata : load m (c + 10) (2 + (4 + (d.1.length + sizeAdjust d.1.length))) =
      leBytes 2 d.total ++ (parametersToken ++
        (d.1 ++ List.replicate (sizeAdjust d.1.length) 0xff)) := by
    rw [show 2 + (4 + (d.1.length + sizeAdjust d.1.length)) = d.total - 10 by omega, hbody,
      entryBody]
    simp
  obtain ⟨_, hdata⟩ := load_eq_append hdata (length_leBytes 2 _)
  obtain ⟨htoken, hdata⟩ := load_eq_append hdata rfl
  obtain ⟨hdata, _⟩ := load_eq_append hdata rfl
  refine ⟨⟨hmagic, hsize, (crcMatches_of_bytes hfirst hbody).2 rfl, by omega, total_dvd d⟩, ?_,
    htoken, ?_, hdata⟩
  · simp [validEntry, hflag, flag_masks _ hadjust]
  · rw [entryDataLength, hsize, hflag, (flag_masks _ hadjust).2]
    omega

/-! ## Blank words -/

theorem word_blank {a : ℕ} (h : Blank m a 4) : word m a = blankSig := by
  have hload : load m a 4 = [0xff, 0xff, 0xff, 0xff] := by
    simp only [load, List.range, List.range.loop, List.map_cons, List.map_nil]
    rw [h 0 (by omega), h 1 (by omega), h 2 (by omega), h 3 (by omega)]
  rw [word, hload]
  rfl

theorem validMagic_blank {a : ℕ} (h : Blank m a 4) : validMagic m a = false := by
  rw [validMagic, word_blank h]
  rfl

theorem blankEntry_of_magic {a : ℕ} (h : validMagic m a = true) : blankEntry m a = false := by
  have hword : word m a = magicSig := by simpa [validMagic] using h
  rw [blankEntry, hword]
  rfl

/-- `blank_check` finds blank words. -/
theorem blankCheck_iff {a n : ℕ} : blankCheck m a n = true ↔
    ∀ i < n / 4, word m (a + 4 * i) = blankSig := by
  simp [blankCheck]

theorem blankCheck_of_blank {a n : ℕ} (h : Blank m a n) : blankCheck m a n = true := by
  rw [blankCheck_iff]
  intro i hi
  exact word_blank (h.sub (by omega) (by omega))

theorem isFree_of_blank {a n : ℕ} (h : Blank m a n) (hn : headerSize ≤ n) :
    isFree m n a = true := by
  have h16 : headerSize = 16 := rfl
  have hword : word m a = blankSig := word_blank (h.sub (Nat.le_refl a) (by omega))
  have hflag : entryFlag m a = 0xffff := by
    have hload : load m (a + 4) 2 = [0xff, 0xff] := by
      simp only [load, List.range, List.range.loop, List.map_cons, List.map_nil, Nat.add_assoc]
      rw [h (4 + 0) (by omega), h (4 + 1) (by omega)]
    rw [entryFlag, half, hload]
    rfl
  simp [isFree, blankMagic, blankEntry, hword, hflag, blankCheck_of_blank h]

/-! ## The search for the parameters -/

theorem addressWords_eq : addressWords = 2 ^ 30 := by
  unfold addressWords
  rfl

theorem hunt_magic {a last : ℕ} (h : validMagic m a = true) :
    hunt m last addressWords a = some a := by
  obtain ⟨n, hn⟩ : ∃ n, addressWords = n + 1 := ⟨addressWords - 1, by rw [addressWords_eq]; rfl⟩
  rw [hn]
  simp [hunt, h]

theorem hunt_blank (last : ℕ) (n : ℕ) : ∀ {a : ℕ}, a + 4 * n = last → Blank m a (last - a) →
    ∀ k, n < k → hunt m last k a = some last := by
  induction n with
  | zero =>
      intro a ha _ k hk
      obtain ⟨k, rfl⟩ : ∃ j, k = j + 1 := ⟨k - 1, by omega⟩
      have : a = last := by omega
      simp [hunt, this]
  | succ n ih =>
      intro a ha hblank k hk
      obtain ⟨k, rfl⟩ : ∃ j, k = j + 1 := ⟨k - 1, by omega⟩
      have hne : a ≠ last := by omega
      have hnot : validMagic m a = false :=
        validMagic_blank (hblank.sub (Nat.le_refl a) (by omega))
      have hnext := ih (a := a + 4) (by omega) (hblank.sub (by omega) (by omega)) k (by omega)
      simp [hunt, hne, hnot, hnext]

/-- The search steps over erased entries.  What it comes to is decided where they end. -/
theorem searchSector_erased {last a c : ℕ} (h : Erased B m a c) (hlast : c ≤ last + 4) {r : Search}
    (hend : ∀ n, 0 < n → searchSector B m last n c = r)
    (hblank : blankEntry m c = true → r = .absent) :
    ∀ n, c - a < 16 * n → searchSector B m last n a = r := by
  have h16 : headerSize = 16 := rfl
  induction h with
  | nil c =>
      intro n hn
      exact hend n (by omega)
  | @cons a n c entry erased rest ih =>
      intro k hk
      obtain ⟨k, rfl⟩ : ∃ j, k = j + 1 := ⟨k - 1, by omega⟩
      have hle := entry.le
      have hrest := rest.le
      have hne : a ≠ last := by omega
      have hnext := ih hlast hend hblank k (by omega)
      unfold searchSector
      rw [hunt_magic entry.magic]
      simp only [hne, if_false, entry.crc, if_true, erased, Bool.false_and, Bool.false_eq_true,
        entry.size]
      split
      · -- only the place behind the last entry is blank
        rename_i hb
        cases rest with
        | nil => exact (hblank hb).symm
        | cons entry' _ _ =>
            rw [blankEntry_of_magic entry'.magic] at hb
            cases hb
      · exact hnext

/-! ## Sectors -/

/-- A sector in order: erased entries up to `c`, and blank from there on. -/
structure Closed (B : Board) (m : Mem) (s : Sector) (c : ℕ) : Prop where
  erased : Erased B m s.address c
  le : c ≤ s.stop
  blank : Blank m c (s.stop - c)

/-- A sector whose last entry, at `c`, was not programmed to its end. -/
structure Torn (B : Board) (m : Mem) (s : Sector) (c : ℕ) : Prop where
  erased : Erased B m s.address c
  magic : validMagic m c = true
  le : headerSize ≤ entrySize m c
  fits : c + entrySize m c ≤ s.stop
  crc : crcMatches B m c = false

/-- A sector whose last entry, at `c`, was cut off before its size. -/
structure ShortHeader (B : Board) (m : Mem) (s : Sector) (c : ℕ) : Prop where
  erased : Erased B m s.address c
  magic : validMagic m c = true
  size : entrySize m c = 65535
  fits : c + headerSize ≤ s.stop

/-- The stored parameters are in the sector, behind erased entries, and it is blank behind them. -/
structure Holds (B : Board) (m : Mem) (s : Sector) (c : ℕ) (d : Data) : Prop where
  erased : Erased B m s.address c
  fits : c + d.total ≤ s.stop
  bytes : load m c d.total = entryBytes B d
  blank : Blank m (c + d.total) (s.stop - (c + d.total))

/-- No valid entry is in the sector.  `cuts` says whether writes may have been cut off. -/
def Vacant (cuts : Prop) (B : Board) (m : Mem) (s : Sector) : Prop :=
  (∃ c, Closed B m s c) ∨ cuts ∧ ((∃ c, Torn B m s c) ∨ ∃ c, ShortHeader B m s c)

/-- No header without a size has a good CRC.  It is taken over 65525 bytes, also behind the
sector. -/
def Told (B : Board) (m : Mem) : Prop :=
  ∀ s ∈ B.sectors, ∀ c, ShortHeader B m s c → crcMatches B m c = false

/-- The entries end exactly where the sector ends. -/
def Full (B : Board) (m : Mem) (s : Sector) : Prop := Erased B m s.address s.stop

theorem lastWord_eq {s : Sector} (hs : 4 ∣ s.size) (hpos : 0 < s.size) :
    s.lastWord + 4 = s.stop := by
  unfold Sector.lastWord Sector.stop
  omega

theorem Closed.congr {s : Sector} {c : ℕ} (h : Closed B m s c)
    (heq : ∀ x, s.address ≤ x → x < s.stop → m' x = m x) : Closed B m' s c := by
  have hle := h.erased.le
  have hc := h.le
  refine ⟨h.erased.congr fun x hx hxc => heq x hx (by omega), hc, h.blank.congr ?_⟩
  intro x hx hxs
  exact heq x (by omega) (by omega)

theorem Torn.congr {s : Sector} {c : ℕ} (h : Torn B m s c)
    (heq : ∀ x, s.address ≤ x → x < s.stop → m' x = m x) : Torn B m' s c := by
  have hac := h.erased.le
  have hle := h.le
  have hfits := h.fits
  have hentry : ∀ i < entrySize m c, m' (c + i) = m (c + i) := fun i hi =>
    heq (c + i) (by omega) (by omega)
  obtain ⟨hmagic, _, _, hsize⟩ := header_congr fun i hi => hentry i (by omega)
  refine ⟨h.erased.congr fun x hx hxc => heq x hx (by omega), hmagic.trans h.magic, ?_, ?_, ?_⟩
  · rwa [hsize]
  · rwa [hsize]
  · exact (crcMatches_congr rfl hle hentry (entrySize_lt m c)).trans h.crc

theorem ShortHeader.congr {s : Sector} {c : ℕ} (h : ShortHeader B m s c)
    (heq : ∀ x, s.address ≤ x → x < s.stop → m' x = m x) : ShortHeader B m' s c := by
  have hac := h.erased.le
  have hfits := h.fits
  have hheader : ∀ i < headerSize, m' (c + i) = m (c + i) := fun i hi =>
    heq (c + i) (by omega) (by omega)
  obtain ⟨hmagic, _, _, hsize⟩ := header_congr hheader
  refine ⟨h.erased.congr fun x hx hxc => heq x hx (by omega), hmagic.trans h.magic, ?_, hfits⟩
  exact hsize.trans h.size

theorem Vacant.congr {s : Sector} (h : Vacant cuts B m s)
    (heq : ∀ x, s.address ≤ x → x < s.stop → m' x = m x) : Vacant cuts B m' s := by
  rcases h with ⟨c, h⟩ | ⟨hcuts, ⟨c, h⟩ | ⟨c, h⟩⟩
  · exact .inl ⟨c, h.congr heq⟩
  · exact .inr ⟨hcuts, .inl ⟨c, h.congr heq⟩⟩
  · exact .inr ⟨hcuts, .inr ⟨c, h.congr heq⟩⟩

theorem vacant_of_blank {s : Sector} (h : Blank m s.address s.size) : Vacant cuts B m s := by
  refine .inl ⟨s.address, .nil _, Nat.le_add_right _ _, ?_⟩
  rwa [Sector.stop, Nat.add_sub_cancel_left]

theorem searchSector_bad {s : Sector} {c : ℕ} (hs : s ∈ B.sectors) (h : Erased B m s.address c)
    (hmagic : validMagic m c = true) (hfits : c + headerSize ≤ s.stop)
    (hcrc : crcMatches B m c = false) :
    searchSector B m s.lastWord addressWords s.address = .absent := by
  have h16 : headerSize = 16 := rfl
  have hmem := B.inMemory s hs
  have hstop : s.stop = s.address + s.size := rfl
  have hle := h.le
  have hlast := lastWord_eq (B.aligned s hs) (by omega)
  have hwords : c - s.address < 16 * addressWords := by
    rw [addressWords_eq]
    omega
  refine searchSector_erased h (by omega) ?_ (fun _ => rfl) addressWords hwords
  intro n hn
  obtain ⟨n, rfl⟩ : ∃ j, n = j + 1 := ⟨n - 1, by omega⟩
  have hne : c ≠ s.lastWord := by omega
  unfold searchSector
  rw [hunt_magic hmagic]
  simp [hne, hcrc]

/-- The search for the parameters steps over a sector without a valid entry, unless its entries end
exactly where it ends. -/
theorem Vacant.search {s : Sector} (h : Vacant cuts B m s) (htold : cuts → Told B m)
    (hs : s ∈ B.sectors) (hfull : ¬Full B m s) :
    searchSector B m s.lastWord addressWords s.address = .absent := by
  have h16 : headerSize = 16 := rfl
  have halign := B.aligned s hs
  have hmem := B.inMemory s hs
  have hstop : s.stop = s.address + s.size := rfl
  rcases h with ⟨c, hc⟩ | ⟨hcuts, ⟨c, hc⟩ | ⟨c, hc⟩⟩
  · have hle := hc.erased.le
    have hne : c ≠ s.stop := by
      rintro rfl
      exact hfull hc.erased
    have hlt : c < s.stop := Nat.lt_of_le_of_ne hc.le hne
    have hlast := lastWord_eq halign (by omega)
    have hwords : c - s.address < 16 * addressWords := by
      rw [addressWords_eq]
      omega
    refine searchSector_erased hc.erased (by omega) ?_ (fun _ => rfl) addressWords hwords
    intro n hn
    obtain ⟨n, rfl⟩ : ∃ j, n = j + 1 := ⟨n - 1, by omega⟩
    have hdvd := hc.erased.dvd
    have hhunt : hunt m s.lastWord addressWords c = some s.lastWord := by
      refine hunt_blank s.lastWord ((s.lastWord - c) / 4) ?_ ?_ addressWords ?_
      · omega
      · exact hc.blank.sub (Nat.le_refl c) (by omega)
      · rw [addressWords_eq]
        omega
    unfold searchSector
    simp [hhunt]
  · have hsize := hc.le
    have hfits := hc.fits
    exact searchSector_bad hs hc.erased hc.magic (by omega) hc.crc
  · exact searchSector_bad hs hc.erased hc.magic hc.fits (htold hcuts s hs c hc)

theorem Holds.search {s : Sector} {c : ℕ} {d : Data} (h : Holds B m s c d) (hs : s ∈ B.sectors) :
    searchSector B m s.lastWord addressWords s.address = .found c := by
  have h16 : headerSize = 16 := rfl
  have hmem := B.inMemory s hs
  have hle := h.erased.le
  have hfits := h.fits
  have hheader := headerSize_le_total d
  have hstop : s.stop = s.address + s.size := rfl
  have hlast := lastWord_eq (B.aligned s hs) (by omega)
  obtain ⟨hentry, hvalid, htoken, _⟩ := entry_of_bytes h.bytes
  have hwords : c - s.address < 16 * addressWords := by
    rw [addressWords_eq]
    omega
  refine searchSector_erased h.erased (by omega) ?_ ?_ addressWords hwords
  · intro n hn
    obtain ⟨n, rfl⟩ : ∃ j, n = j + 1 := ⟨n - 1, by omega⟩
    have hne : c ≠ s.lastWord := by omega
    unfold searchSector
    rw [hunt_magic hentry.magic]
    simp [hne, hentry.crc, hvalid, htoken]
  · intro hblank
    rw [blankEntry_of_magic hentry.magic] at hblank
    cases hblank

/-! ## The search through the sectors -/

theorem searchSectors_eq {search : Sector → Search} {l : List Sector} {k : ℕ} {s : Sector}
    (hk : l[k]? = some s) (hbefore : ∀ j t, j < k → l[j]? = some t → search t = .absent)
    (hs : search s ≠ .absent) : searchSectors search l = search s := by
  induction l generalizing k with
  | nil => simp at hk
  | cons t l ih =>
      cases k with
      | zero =>
          obtain rfl : t = s := by simpa using hk
          unfold searchSectors
          cases h : search t with
          | found a => rfl
          | absent => exact absurd h hs
          | lost => rfl
      | succ k =>
          have ht : search t = .absent := hbefore 0 t (Nat.succ_pos k) rfl
          have hrest := ih (k := k) (by simpa using hk) fun j u hj hu =>
            hbefore (j + 1) u (by omega) (by simpa using hu)
          simp [searchSectors, ht, hrest]

theorem searchSectors_absent {search : Sector → Search} {l : List Sector}
    (h : ∀ s ∈ l, search s = .absent) : searchSectors search l = .absent := by
  induction l with
  | nil => rfl
  | cons t l ih =>
      have hl := ih fun s hs => h s (List.mem_cons_of_mem _ hs)
      simp [searchSectors, h t (List.mem_cons_self), hl]

/-- The parameters are stored in sector `k`: the sectors before it are stepped over, and no sector
behind it has a valid entry. -/
structure Stored (cuts : Prop) (B : Board) (m : Mem) (k : ℕ) (s : Sector) (c : ℕ) (d : Data) :
    Prop where
  sector : B.sectors[k]? = some s
  holds : Holds B m s c d
  before : ∀ j t, j < k → B.sectors[j]? = some t → Vacant cuts B m t ∧ ¬Full B m t
  behind : ∀ j t, k < j → B.sectors[j]? = some t → Vacant cuts B m t

theorem findEntry_stored {k c : ℕ} {s : Sector} {d : Data} (h : Stored cuts B m k s c d)
    (htold : cuts → Told B m) : findEntry B m = .found c := by
  have hsearch := h.holds.search (List.mem_of_getElem? h.sector)
  unfold findEntry
  rw [searchSectors_eq h.sector ?_ ?_, hsearch]
  · intro j t hj ht
    obtain ⟨hvacant, hfull⟩ := h.before j t hj ht
    exact hvacant.search htold (List.mem_of_getElem? ht) hfull
  · rw [hsearch]
    exact Search.noConfusion

theorem findEntry_absent (h : ∀ s ∈ B.sectors, Vacant cuts B m s ∧ ¬Full B m s)
    (htold : cuts → Told B m) : findEntry B m = .absent :=
  searchSectors_absent fun s hs => (h s hs).1.search htold hs (h s hs).2

theorem read_stored {k c : ℕ} {s : Sector} {d : Data} (h : Stored cuts B m k s c d)
    (htold : cuts → Told B m) : parameterFlashfsRead B m = .ok d.1 := by
  obtain ⟨_, _, _, hlength, hdata⟩ := entry_of_bytes h.holds.bytes
  unfold parameterFlashfsRead
  rw [findEntry_stored h htold]
  simp [hlength, hdata]

/-! ## The search for room -/

/-- The words inside the entries between `a` and `c` are neither a magic word nor the start of so
much room.  The search for room looks at these words, too: behind an entry that it has skipped it
goes on with the second word. -/
inductive Plain (B : Board) (m : Mem) (required : ℕ) : ℕ → ℕ → Prop
  | nil (a : ℕ) : Plain B m required a a
  | cons {a n b : ℕ} (entry : Entry B m a n)
      (words : ∀ i, 0 < i → 4 * i < n →
        validMagic m (a + 4 * i) = false ∧ isFree m required (a + 4 * i) = false)
      (rest : Plain B m required (a + n) b) : Plain B m required a b

theorem Plain.le {required a b : ℕ} (h : Plain B m required a b) : a ≤ b := by
  induction h with
  | nil a => exact Nat.le_refl a
  | cons _ _ _ ih => omega

theorem skipEntry_of_not_magic {a : ℕ} (h : validMagic m a = false) : skipEntry B m a = a := by
  simp [skipEntry, h]

theorem Entry.skip {a n : ℕ} (h : Entry B m a n) : skipEntry B m a = a + n := by
  simp [skipEntry, h.magic, h.crc, h.size]

theorem isFree_of_magic {a : ℕ} (required : ℕ) (h : validMagic m a = true) :
    isFree m required a = false := by
  simp [isFree, blankEntry_of_magic h]

/-- The search for room walks over words that are neither a magic word nor the start of room. -/
theorem freeInSector_walk {required last b N : ℕ} {r : Search} (hlast : b < last)
    (hend : ∀ n, N ≤ n → freeInSector B m required last n b = r) (j : ℕ) : ∀ a, a + 4 * j = b →
    (∀ i < j, validMagic m (a + 4 * i) = false ∧ isFree m required (a + 4 * i) = false) →
    ∀ n, N + j ≤ n → freeInSector B m required last n a = r := by
  induction j with
  | zero =>
      intro a ha _ n hn
      obtain rfl : a = b := by omega
      exact hend n (by omega)
  | succ j ih =>
      intro a ha hwords n hn
      obtain ⟨n, rfl⟩ : ∃ k, n = k + 1 := ⟨n - 1, by omega⟩
      obtain ⟨hmagic, hfree⟩ : validMagic m a = false ∧ isFree m required a = false := by
        simpa using hwords 0 (by omega)
      have hstop : a + 4 ≠ last := by omega
      have hrest : ∀ i < j, validMagic m (a + 4 + 4 * i) = false ∧
          isFree m required (a + 4 + 4 * i) = false := by
        intro i hi
        have := hwords (i + 1) (by omega)
        rwa [show a + 4 * (i + 1) = a + 4 + 4 * i by ring] at this
      have hnext := ih (a + 4) (by omega) hrest n (by omega)
      simp [freeInSector, skipEntry_of_not_magic hmagic, hfree, hstop, hnext]

/-- The search for room finds the blank cells behind the entries, whether it comes to an entry in
its loop, or by a jump over the entry before it. -/
theorem freeInSector_plain {required last a c : ℕ} (h : Plain B m required a c)
    (hblank : Blank m c required) (hrequired : headerSize ≤ required)
    (hlast : c + required ≤ last + 4) :
    (∀ n, (c - a) / 4 < n → freeInSector B m required last n a = .found c) ∧
      ∀ n, (c - a) / 4 < n →
        (if isFree m required a then Search.found a
          else if a + 4 = last then .absent
          else freeInSector B m required last n (a + 4)) = .found c := by
  have h16 : headerSize = 16 := rfl
  induction h with
  | nil c =>
      have hfree := isFree_of_blank hblank hrequired
      have hmagic : validMagic m c = false :=
        validMagic_blank (hblank.sub (Nat.le_refl c) (by omega))
      refine ⟨fun n hn => ?_, fun n _ => by simp [hfree]⟩
      obtain ⟨n, rfl⟩ : ∃ k, n = k + 1 := ⟨n - 1, by omega⟩
      simp [freeInSector, skipEntry_of_not_magic hmagic, hfree]
  | @cons a n c entry words rest ih =>
      have hle := rest.le
      have hsize := entry.le
      obtain ⟨q, rfl⟩ := entry.dvd
      obtain ⟨hloop, hjump⟩ := ih hblank hlast
      refine ⟨fun k hk => ?_, fun k hk => ?_⟩
      · obtain ⟨k, rfl⟩ : ∃ j, k = j + 1 := ⟨k - 1, by omega⟩
        rw [freeInSector, entry.skip]
        exact hjump k (by omega)
      · have hne : a + 4 ≠ last := by omega
        have hwalk := freeInSector_walk (b := a + 4 * q) (N := (c - (a + 4 * q)) / 4 + 1) (by omega)
          (fun n hn => hloop n (by omega)) (q - 1) (a + 4) (by omega) ?_ k (by omega)
        · simp [isFree_of_magic required entry.magic, hne, hwalk]
        · intro i hi
          have := words (i + 1) (by omega) (by omega)
          rwa [show a + 4 * (i + 1) = a + 4 + 4 * i by ring] at this

/-- `find_free` finds the room behind the entries of the first sector that has room. -/
theorem findFree_found {required k c : ℕ} {s : Sector} (hk : B.sectors[k]? = some s)
    (hbefore : ∀ j t, j < k → B.sectors[j]? = some t →
      freeInSector B m required t.lastWord addressWords t.address = .absent)
    (hplain : Plain B m required s.address c) (hblank : Blank m c required)
    (hrequired : headerSize ≤ required) (hfits : c + required ≤ s.stop) :
    findFree B m required = .found c := by
  have h16 : headerSize = 16 := rfl
  have hs := List.mem_of_getElem? hk
  have hmem := B.inMemory s hs
  have hle := hplain.le
  have hstop : s.stop = s.address + s.size := rfl
  have hlast := lastWord_eq (B.aligned s hs) (by omega)
  have hfound : freeInSector B m required s.lastWord addressWords s.address = .found c := by
    refine (freeInSector_plain hplain hblank hrequired (by omega)).1 addressWords ?_
    rw [addressWords_eq]
    omega
  unfold findFree
  rw [searchSectors_eq hk hbefore ?_, hfound]
  rw [hfound]
  exact Search.noConfusion

end FlashFs
end Params
end DtPhm
