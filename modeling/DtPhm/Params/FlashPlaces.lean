import DtPhm.Params.FlashEntries

/-!
# FlashPlaces — where a write puts its entry

A write replaces the stored entry by one behind it, or by one in the next sector.

* `Placed` — a blank place for an entry, with the sectors around it in order;
* `Placed.written`, `Placed.torn_bytes` — an entry is programmed there, to its end or not;
* `Sound` — the parameters are stored in one sector, or no sector has a valid entry;
* `place_stored`, `place_vacant` — a write comes to such a place, and the memory is sound before its
  entry is programmed.
-/

namespace DtPhm
namespace Params
namespace FlashFs

open Lib

variable {B : Board} {m m' : Mem} {cuts : Prop}

/-! ## Sectors of a board -/

theorem sectors_disjoint {j k : ℕ} {s t : Sector} (hk : B.sectors[k]? = some s)
    (hj : B.sectors[j]? = some t) (hne : j ≠ k) : s.stop ≤ t.address ∨ t.stop ≤ s.address := by
  obtain ⟨hkl, rfl⟩ := List.getElem?_eq_some_iff.1 hk
  obtain ⟨hjl, rfl⟩ := List.getElem?_eq_some_iff.1 hj
  rcases Nat.lt_or_gt_of_ne hne with hlt | hlt
  · exact (List.pairwise_iff_getElem.1 B.disjoint j k hjl hkl hlt).symm
  · exact List.pairwise_iff_getElem.1 B.disjoint k j hkl hjl hlt

theorem unchanged_of_ne {j k : ℕ} {s t : Sector} (hk : B.sectors[k]? = some s)
    (hj : B.sectors[j]? = some t) (hne : j ≠ k)
    (heq : ∀ x, x < s.address ∨ s.stop ≤ x → m' x = m x) :
    ∀ x, t.address ≤ x → x < t.stop → m' x = m x := by
  intro x hx hxt
  apply heq
  rcases sectors_disjoint hk hj hne with h | h
  · omega
  · omega

theorem getSectorInfo_eq {k a : ℕ} {s : Sector} (hk : B.sectors[k]? = some s)
    (ha : s.address ≤ a) (hlt : a < s.stop) : getSectorInfo B a = some k := by
  obtain ⟨hlen, hs⟩ := List.getElem?_eq_some_iff.1 hk
  rw [getSectorInfo, List.findIdx?_eq_some_iff_getElem]
  refine ⟨hlen, by simp [hs, ha, hlt], ?_⟩
  intro j hj
  have ht : B.sectors[j]? = some B.sectors[j] := List.getElem?_eq_getElem (by omega)
  rcases sectors_disjoint hk ht (by omega) with h | h
  · simp only [Bool.not_eq_true, Bool.and_eq_false_iff, decide_eq_false_iff_not]
    omega
  · simp only [Bool.not_eq_true, Bool.and_eq_false_iff, decide_eq_false_iff_not]
    omega

theorem Closed.not_full {s : Sector} {c : ℕ} (h : Closed B m s c) (hlt : c < s.stop) :
    ¬Full B m s := by
  have h16 : headerSize = 16 := rfl
  obtain ⟨herased, hc, hblank⟩ := h
  unfold Full
  generalize s.address = a at herased
  induction herased with
  | nil c =>
      intro hfull
      cases hfull with
      | nil => omega
      | @cons _ n _ entry _ rest =>
          have hle := rest.le
          have hn := entry.le
          have hmagic := validMagic_blank (hblank.sub (Nat.le_refl c) (by omega))
          rw [entry.magic] at hmagic
          cases hmagic
  | @cons a n c entry _ rest ih =>
      intro hfull
      have hle := rest.le
      cases hfull with
      | nil => omega
      | @cons _ n' _ entry' _ rest' =>
          obtain rfl : n = n' := entry.size.symm.trans entry'.size
          exact ih hlt hc hblank rest'

theorem Full.congr {s : Sector} (h : Full B m s)
    (heq : ∀ x, s.address ≤ x → x < s.stop → m' x = m x) : Full B m' s :=
  Erased.congr h heq

/-! ## Erasing an entry, and programming one -/

theorem Entry.eraseEntry {a n : ℕ} (h : Entry B m a n) :
    Entry B ((eraseEntry a).apply m) a n ∧ validEntry ((eraseEntry a).apply m) a = false := by
  have h16 : headerSize = 16 := rfl
  have hn := h.lt
  have hle := h.le
  have hkeep : ∀ x, x < a + 4 ∨ a + 6 ≤ x → (FlashFs.eraseEntry a).apply m x = m x := fun x hx =>
    program_of_outside m [0, 0] (by simpa using hx)
  have hmagic : validMagic ((FlashFs.eraseEntry a).apply m) a = validMagic m a :=
    validMagic_congr fun i hi => hkeep (a + i) (by omega)
  have hcrc : entryCrc ((FlashFs.eraseEntry a).apply m) a = entryCrc m a :=
    word_congr fun i hi => hkeep (a + 6 + i) (by omega)
  have hsize : entrySize ((FlashFs.eraseEntry a).apply m) a = entrySize m a :=
    half_congr fun i hi => hkeep (a + 10 + i) (by omega)
  have hbody : ∀ k, load ((FlashFs.eraseEntry a).apply m) (a + 10) k = load m (a + 10) k := fun k =>
    load_congr fun i _ => hkeep (a + 10 + i) (by omega)
  have hflag : entryFlag ((FlashFs.eraseEntry a).apply m) a = 0 := by
    have hload : load ((FlashFs.eraseEntry a).apply m) (a + 4) 2 = [0, 0] := by
      simp [load, List.range, List.range.loop, FlashFs.eraseEntry, FlashOp.apply, program]
    rw [entryFlag, half, hload]
    rfl
  refine ⟨⟨hmagic.trans h.magic, hsize.trans h.size, ?_, hle, h.dvd⟩, ?_⟩
  · rw [← h.crc, crcMatches, crcMatches, entryCrcLength, entryCrcLength, hsize, hcrc, hbody]
  · rw [validEntry, hflag]
    rfl

/-- Nothing outside of the sector changes when its entry is erased, and then the sector is in
order. -/
theorem Holds.eraseEntry {s : Sector} {c : ℕ} {d : Data} (h : Holds B m s c d) :
    Closed B ((eraseEntry c).apply m) s (c + d.total) ∧
      ∀ x, x < s.address ∨ s.stop ≤ x → (eraseEntry c).apply m x = m x := by
  have h16 : headerSize = 16 := rfl
  have hle := h.erased.le
  have hfits := h.fits
  have hheader := headerSize_le_total d
  have hkeep : ∀ x, x < c + 4 ∨ c + 6 ≤ x → (FlashFs.eraseEntry c).apply m x = m x := fun x hx =>
    program_of_outside m [0, 0] (by simpa using hx)
  obtain ⟨hentry, herased⟩ := (entry_of_bytes h.bytes).1.eraseEntry
  have hbefore : Erased B ((FlashFs.eraseEntry c).apply m) s.address c :=
    h.erased.congr fun x _ hx => hkeep x (by omega)
  refine ⟨⟨hbefore.append (.cons hentry herased (.nil _)), hfits, ?_⟩, ?_⟩
  · exact h.blank.congr fun x hx _ => hkeep x (by omega)
  · intro x hx
    exact hkeep x (by omega)

/-- A blank place for so many bytes, behind the erased entries of sector `k`.  The sectors before it
are stepped over, and no sector behind it has a valid entry. -/
structure Placed (cuts : Prop) (B : Board) (m : Mem) (k : ℕ) (s : Sector) (c total : ℕ) : Prop where
  sector : B.sectors[k]? = some s
  closed : Closed B m s c
  fits : c + total ≤ s.stop
  before : ∀ j t, j < k → B.sectors[j]? = some t → Vacant cuts B m t ∧ ¬Full B m t
  behind : ∀ j t, k < j → B.sectors[j]? = some t → Vacant cuts B m t

/-- The memory when the first `w` words of an entry are programmed at `c`. -/
def programWords (B : Board) (m : Mem) (c : ℕ) (d : Data) (w : ℕ) : Mem :=
  program m c ((entryBytes B d).take (4 * w))

/-- An entry of which the first `w` words are programmed, from its size on. -/
def tornBody (d : Data) (w : ℕ) : List UInt8 :=
  (entryBody d).take (4 * w - 10) ++ List.replicate (d.total - 4 * w) 0xff

theorem load_programWords {c w : ℕ} {d : Data} (h : Blank m c d.total) :
    load (programWords B m c d w) c d.total =
      (entryBytes B d).take (4 * w) ++ List.replicate (d.total - 4 * w) 0xff := by
  have hlen : ((entryBytes B d).take (4 * w)).length = min (4 * w) d.total := by simp
  rw [programWords, load_program_append_blank h (by omega), hlen]
  congr 2
  omega

theorem programWords_of_outside {c w x : ℕ} {d : Data} (h : x < c ∨ c + d.total ≤ x) :
    programWords B m c d w x = m x := by
  apply program_of_outside
  rw [List.length_take, length_entryBytes]
  omega

/-- No valid entry is stored, or one of them in order. -/
def Sound (cuts : Prop) (B : Board) (m : Mem) : Prop :=
  (∃ k s c d, Stored cuts B m k s c d) ∨ ∀ s ∈ B.sectors, Vacant cuts B m s

theorem Placed.vacant {k c total : ℕ} {s : Sector} (h : Placed cuts B m k s c total) :
    ∀ t ∈ B.sectors, Vacant cuts B m t := by
  intro t ht
  obtain ⟨j, hj⟩ := List.mem_iff_getElem?.1 ht
  rcases Nat.lt_trichotomy j k with hlt | rfl | hgt
  · exact (h.before j t hlt hj).1
  · obtain rfl : s = t := Option.some.inj (h.sector.symm.trans hj)
    exact .inl ⟨c, h.closed⟩
  · exact h.behind j t hgt hj

theorem Placed.others {k c total : ℕ} {s : Sector} (h : Placed cuts B m k s c total)
    (hkeep : ∀ x, x < c ∨ c + total ≤ x → m' x = m x) {j : ℕ} {t : Sector} (hne : j ≠ k)
    (hj : B.sectors[j]? = some t) : ∀ x, t.address ≤ x → x < t.stop → m' x = m x := by
  have hle := h.closed.erased.le
  have hfits := h.fits
  exact unchanged_of_ne h.sector hj hne fun x hx => hkeep x (by omega)

theorem Placed.stored {k c : ℕ} {s : Sector} {d : Data} (h : Placed cuts B m k s c d.total)
    (hkeep : ∀ x, x < c ∨ c + d.total ≤ x → m' x = m x)
    (hbytes : load m' c d.total = entryBytes B d) : Stored cuts B m' k s c d := by
  have hfits := h.fits
  refine ⟨h.sector, ⟨?_, hfits, hbytes, ?_⟩, ?_, ?_⟩
  · exact h.closed.erased.congr fun x _ hx => hkeep x (.inl hx)
  · have hrest := h.closed.blank.sub (b := c + d.total) (k := s.stop - (c + d.total)) (by omega)
      (by omega)
    exact hrest.congr fun x hx _ => hkeep x (.inr hx)
  · intro j t hj ht
    have hsame := h.others hkeep (by omega) ht
    obtain ⟨hvacant, hfull⟩ := h.before j t hj ht
    exact ⟨hvacant.congr hsame, fun hf => hfull (hf.congr fun x hx hxt => (hsame x hx hxt).symm)⟩
  · intro j t hj ht
    exact (h.behind j t hj ht).congr (h.others hkeep (by omega) ht)

theorem Placed.blank {k c : ℕ} {s : Sector} {d : Data} (h : Placed cuts B m k s c d.total) :
    Blank m c d.total := by
  have hfits := h.fits
  exact h.closed.blank.sub (Nat.le_refl c) (by omega)

theorem Placed.written {k c : ℕ} {s : Sector} {d : Data} (h : Placed cuts B m k s c d.total) :
    Stored cuts B (program m c (entryBytes B d)) k s c d := by
  refine h.stored (fun x hx => program_of_outside m _ (by simpa using hx)) ?_
  have hblank : Blank m c (entryBytes B d).length := by simpa using h.blank
  simpa using load_program_of_blank hblank

/-- The bytes of an entry of which the first words are programmed, its CRC among them. -/
theorem Placed.torn_bytes {k c w : ℕ} {s : Sector} {d : Data} (h : Placed cuts B m k s c d.total)
    (hw : 3 ≤ w) : load (programWords B m c d w) c 12 = (entryBytes B d).take 12 ∧
      load (programWords B m c d w) (c + 10) (d.total - 10) = tornBody d w := by
  have h16 : headerSize = 16 := rfl
  have hle := headerSize_le_total d
  have hload := load_programWords (B := B) (w := w) h.blank
  constructor
  · have htake : (entryBytes B d).take (4 * w) =
        (entryBytes B d).take 12 ++ ((entryBytes B d).drop 12).take (4 * w - 12) := by
      rw [← List.take_add, show 12 + (4 * w - 12) = 4 * w by omega]
    rw [htake, List.append_assoc, show d.total = 12 + (d.total - 12) by omega] at hload
    exact (load_eq_append hload (by simp; omega)).1
  · have htake : (entryBytes B d).take (4 * w) =
        (leBytes 4 magicSig ++ leBytes 2 (validFlag + sizeAdjust d.1.length) ++
          leBytes 4 (B.crc32 (entryBody d)).toNat) ++ (entryBody d).take (4 * w - 10) := by
      rw [entryBytes, List.take_append, List.take_of_length_le (by simp; omega)]
      simp
    rw [htake, List.append_assoc] at hload
    rw [show d.total = 10 + (d.total - 10) by omega] at hload
    have hrest := (load_eq_append hload (by simp)).2
    rw [hrest, tornBody, show 10 + (d.total - 10) = d.total by omega]

/-! ## Where a write puts its entry -/

/-- A write comes to a place for its entry, and if the power goes before the entry is programmed,
the memory is sound. -/
def Lands (cuts : Prop) (B : Board) (m : Mem) (total : ℕ) : Prop :=
  ∃ before k s c, place B m total = .at before c ∧
    Placed cuts B (applyOps m before) k s c total ∧ ∀ n, Sound cuts B (applyOps m (before.take n))

/-- An entry that ends exactly where its sector ends is replaced in the last sector of the map
only. -/
def EndsLast (B : Board) (m : Mem) : Prop :=
  ∀ k s a, findEntry B m = .found a → B.sectors[k]? = some s → s.address ≤ a →
    a + entrySize m a = s.stop → k + 1 = B.sectors.length

/-- No sector is full, and in the first sector with room, the room is behind the entries. -/
def HasRoom (B : Board) (m : Mem) (total : ℕ) : Prop :=
  (∀ s ∈ B.sectors, ¬Full B m s) ∧
    ∃ k s c, B.sectors[k]? = some s ∧ Closed B m s c ∧ Plain B m total s.address c ∧
      c + total ≤ s.stop ∧ ∀ (j : ℕ) (t : Sector), j < k → B.sectors[j]? = some t →
        freeInSector B m total t.lastWord addressWords t.address = .absent

theorem Stored.eraseEntry {k c : ℕ} {s : Sector} {d : Data} (h : Stored cuts B m k s c d) :
    Placed cuts B ((eraseEntry c).apply m) k s (c + d.total) 0 := by
  obtain ⟨hclosed, hkeep⟩ := h.holds.eraseEntry
  have hothers : ∀ j t, j ≠ k → B.sectors[j]? = some t → ∀ x, t.address ≤ x → x < t.stop →
      (FlashFs.eraseEntry c).apply m x = m x := fun j t hne hj =>
    unchanged_of_ne h.sector hj hne hkeep
  refine ⟨h.sector, hclosed, hclosed.le, ?_, ?_⟩
  · intro j t hj ht
    have hsame := hothers j t (by omega) ht
    obtain ⟨hvacant, hfull⟩ := h.before j t hj ht
    exact ⟨hvacant.congr hsame, fun hf => hfull (hf.congr fun x hx hxt => (hsame x hx hxt).symm)⟩
  · intro j t hj ht
    exact (h.behind j t hj ht).congr (hothers j t (by omega) ht)

theorem Placed.before_next {k c total : ℕ} {s : Sector} (h : Placed cuts B m k s c total)
    (hlast : c = s.stop → k + 1 = B.sectors.length) {j : ℕ} {t : Sector}
    (hj : j < nextSector B k) (ht : B.sectors[j]? = some t) : Vacant cuts B m t ∧ ¬Full B m t := by
  unfold nextSector at hj
  split at hj
  · rename_i hk
    rcases Nat.lt_succ_iff_lt_or_eq.1 hj with hlt | rfl
    · exact h.before j t hlt ht
    · obtain rfl : s = t := Option.some.inj (h.sector.symm.trans ht)
      have hne : c ≠ s.stop := fun hc => by
        have := hlast hc
        omega
      exact ⟨.inl ⟨c, h.closed⟩, h.closed.not_full (Nat.lt_of_le_of_ne h.closed.le hne)⟩
  · omega

theorem Erased.eq_of_blank {a c : ℕ} (h : Erased B m a c) (hblank : word m a = blankSig) :
    c = a := by
  cases h with
  | nil => rfl
  | cons entry _ _ =>
      have hmagic : word m a = magicSig := by simpa [validMagic] using entry.magic
      rw [hblank] at hmagic
      cases hmagic

theorem Vacant.closed {s : Sector} (h : Vacant cuts B m s) (hblank : word m s.address = blankSig) :
    Closed B m s s.address := by
  have hmagic : validMagic m s.address = false := by
    rw [validMagic, hblank]
    rfl
  rcases h with ⟨c, hc⟩ | ⟨_, ⟨c, hc⟩ | ⟨c, hc⟩⟩
  · obtain rfl := hc.erased.eq_of_blank hblank
    exact hc
  · obtain rfl := hc.erased.eq_of_blank hblank
    exact absurd (hc.magic.symm.trans hmagic) (by decide)
  · obtain rfl := hc.erased.eq_of_blank hblank
    exact absurd (hc.magic.symm.trans hmagic) (by decide)

theorem placed_blank {n total : ℕ} {t : Sector} (hn : B.sectors[n]? = some t)
    (hblank : Closed B m' t t.address) (hsize : total ≤ t.size)
    (hkeep : ∀ x, x < t.address ∨ t.stop ≤ x → m' x = m x)
    (hbefore : ∀ j u, j < n → B.sectors[j]? = some u → Vacant cuts B m u ∧ ¬Full B m u)
    (hvacant : ∀ u ∈ B.sectors, Vacant cuts B m u) : Placed cuts B m' n t t.address total := by
  have hstop : t.stop = t.address + t.size := rfl
  refine ⟨hn, hblank, by omega, ?_, ?_⟩
  · intro j u hj hu
    have hsame := unchanged_of_ne hn hu (by omega) hkeep
    obtain ⟨hv, hfull⟩ := hbefore j u hj hu
    exact ⟨hv.congr hsame, fun hf => hfull (hf.congr fun x hx hxu => (hsame x hx hxu).symm)⟩
  · intro j u hj hu
    exact (hvacant u (List.mem_of_getElem? hu)).congr (unchanged_of_ne hn hu (by omega) hkeep)

/-- `erase_sector` erases the sectors of the map. -/
theorem eraseSector_eq {s : Sector} (hs : s ∈ B.sectors) :
    eraseSector B s s.address = [.erase s.address s.size] := by
  have hpage := B.page_ne s hs
  rw [eraseSector, if_pos]
  rw [B.getpage_address s hs]
  omega

/-- What is done to the next sector before an entry is programmed there. -/
def prepareNext (B : Board) (m : Mem) (t : Sector) (total : ℕ) : List FlashOp :=
  if blankCheck m t.address total then [] else eraseSector B t t.address

theorem Placed.next {k c total : ℕ} {s t : Sector} (h : Placed cuts B m k s c 0)
    (hlast : c = s.stop → k + 1 = B.sectors.length) (ht : B.sectors[nextSector B k]? = some t)
    (hsize : total ≤ t.size) (htotal : headerSize ≤ total) :
    Placed cuts B (applyOps m (prepareNext B m t total)) (nextSector B k) t t.address total := by
  have h16 : headerSize = 16 := rfl
  have hmem := List.mem_of_getElem? ht
  have hbefore := fun j u => h.before_next (j := j) (t := u) hlast
  unfold prepareNext
  split
  · -- it is blank, not only as far as the check looks
    rename_i hcheck
    have hword : word m t.address = blankSig := by
      simpa using blankCheck_iff.1 hcheck 0 (by omega)
    exact placed_blank ht ((h.vacant t hmem).closed hword) hsize (fun _ _ => rfl) hbefore h.vacant
  · have hblank : Blank (eraseBlock m t.address t.size) t.address (t.stop - t.address) := by
      rw [Sector.stop, Nat.add_sub_cancel_left]
      exact blank_eraseBlock m t.address t.size
    rw [eraseSector_eq hmem]
    exact placed_blank ht ⟨.nil _, Nat.le_add_right _ _, hblank⟩ hsize
      (fun x hx => eraseBlock_of_outside m hx) hbefore h.vacant

theorem length_prepareNext (t : Sector) (total : ℕ) : (prepareNext B m t total).length ≤ 1 := by
  unfold prepareNext eraseSector
  split
  · simp
  · split
    · simp
    · simp

theorem exists_nextSector {k : ℕ} {s : Sector} (hk : B.sectors[k]? = some s) :
    ∃ next, B.sectors[nextSector B k]? = some next := by
  have hlt := (List.getElem?_eq_some_iff.1 hk).1
  refine ⟨_, List.getElem?_eq_getElem (?_ : nextSector B k < B.sectors.length)⟩
  unfold nextSector
  split
  · omega
  · omega

theorem place_stored {k c total : ℕ} {s : Sector} {d : Data} (h : Stored cuts B m k s c d)
    (htold : cuts → Told B m) (htotal : headerSize ≤ total) (hends : EndsLast B m) :
    place B m total = .noSpace ∨ Lands cuts B m total := by
  have h16 : headerSize = 16 := rfl
  have hfind := findEntry_stored h htold
  have hentry := (entry_of_bytes h.holds.bytes).1
  have hle := h.holds.erased.le
  have hfits := h.holds.fits
  have hheader := headerSize_le_total d
  have hinfo := getSectorInfo_eq h.sector hle (by omega)
  have hsound : Sound cuts B m := .inl ⟨k, s, c, d, h⟩
  have herased := h.eraseEntry
  obtain ⟨next, hnext⟩ := exists_nextSector h.sector
  by_cases hbehind : fitsBehind m s c total = true
  · -- behind the stored entry
    right
    have hroom : c + d.total + total ≤ s.stop := by
      simp only [fitsBehind, hentry.magic, if_true, hentry.size, Bool.and_eq_true,
        decide_eq_true_eq] at hbehind
      omega
    refine ⟨[FlashFs.eraseEntry c], k, s, c + d.total, ?_, { herased with fits := hroom }, ?_⟩
    · simp [place, hfind, hinfo, h.sector, hnext, hbehind, hentry.size]
    · intro n
      cases n with
      | zero => exact hsound
      | succ n => simpa using .inr herased.vacant
  · by_cases hlarge : next.size < total
    · left
      simp [place, hfind, hinfo, h.sector, hnext, hbehind, hlarge]
    · right
      have hlast : c + d.total = s.stop → k + 1 = B.sectors.length := fun hc =>
        hends k s c hfind h.sector hle (by rw [hentry.size, hc])
      have hplaced := herased.next hlast hnext (Nat.le_of_not_lt hlarge) htotal
      have hlength := length_prepareNext (B := B) (m := (FlashFs.eraseEntry c).apply m) next total
      refine ⟨FlashFs.eraseEntry c :: prepareNext B ((FlashFs.eraseEntry c).apply m) next total,
        nextSector B k, next, next.address, ?_, hplaced, ?_⟩
      · by_cases hcheck : blankCheck ((FlashFs.eraseEntry c).apply m) next.address total = true
        · simp [place, hfind, hinfo, h.sector, hnext, hbehind, hlarge, prepareNext, hcheck]
        · simp [place, hfind, hinfo, h.sector, hnext, hbehind, hlarge, prepareNext, hcheck]
      · intro n
        match n with
        | 0 => exact hsound
        | 1 => exact .inr herased.vacant
        | n + 2 =>
            rw [List.take_of_length_le (by simp; omega)]
            exact .inr hplaced.vacant

/-- Without a valid entry, a write puts its entry into the first sector with room. -/
theorem place_vacant {total : ℕ} (hvacant : ∀ s ∈ B.sectors, Vacant cuts B m s)
    (htold : cuts → Told B m) (htotal : headerSize ≤ total) (hroom : HasRoom B m total) :
    Lands cuts B m total := by
  obtain ⟨hfull, k, s, c, hk, hclosed, hplain, hfits, hbefore⟩ := hroom
  have hfind := findEntry_absent (fun s hs => ⟨hvacant s hs, hfull s hs⟩) htold
  have hblank : Blank m c total := hclosed.blank.sub (Nat.le_refl c) (by omega)
  have hfree := findFree_found hk hbefore hplain hblank htotal hfits
  refine ⟨[], k, s, c, by simp [place, hfind, hfree], ⟨hk, hclosed, hfits, ?_, ?_⟩, ?_⟩
  · intro j t _ ht
    have hmem := List.mem_of_getElem? ht
    exact ⟨hvacant t hmem, hfull t hmem⟩
  · intro j t _ ht
    exact hvacant t (List.mem_of_getElem? ht)
  · intro n
    simpa using .inr hvacant

end FlashFs
end Params
end DtPhm
