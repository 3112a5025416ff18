import DtPhm.Params.FlashRuns

/-!
# FlashScans — the words at which the two searches look

Both searches go from word to word, and jump by the sizes that they find in the flash.

* `searchWords`, `turnWords`, `aheadWords` — the words at which `find_entry` looks, and those at
  which `find_free` and its `blank_check` look;
* `Inside` — the searches come to an end, and look at words of the sectors only;
* `Confined` — no magic word of a sector leads out of it;
* `inside_of_confined` — then the searches stay inside.
-/

namespace DtPhm
namespace Params
namespace FlashFs

open Lib

variable {B : Board} {m m' : Mem} {s : Sector}

/-! ## The words of the searches -/

/-- The words at which the hunt for a magic word looks. -/
def huntWords (m : Mem) (last : ℕ) : ℕ → ℕ → List ℕ
  | 0, _ => []
  | n + 1, a =>
      if a = last then [] else a :: if validMagic m a then [] else huntWords m last n (a + 4)

/-- `blank_entry` looks at the flag behind a blank word. -/
def blankEntryWords (m : Mem) (a : ℕ) : List ℕ := a :: if blankMagic m a then [a + 4] else []

/-- The words at which `searchSector` looks.  Behind a magic word these are the words with the CRC
and the size, and the token of a valid entry; what `crc32` reads is not among them. -/
def searchWords (B : Board) (m : Mem) (last : ℕ) : ℕ → ℕ → List ℕ
  | 0, _ => []
  | n + 1, a =>
      huntWords m last addressWords a ++
        match hunt m last addressWords a with
        | none => []
        | some a =>
            if a = last then []
            else [a + 4, a + 8] ++
              if crcMatches B m a then
                -- the token is compared only where the flag is that of a valid entry
                (if validEntry m a then [a + 12] else []) ++
                  if validEntry m a && entryToken m a == parametersToken then []
                  -- not the wanted one, but its size is trusted
                  else blankEntryWords m (a + entrySize m a) ++
                    if blankEntry m (a + entrySize m a) then []
                    else searchWords B m last n (a + entrySize m a)
              -- behind a bad CRC the sector is left
              else []

/-- Where the turns of the loop of `freeInSector` begin. -/
def freeTurns (B : Board) (m : Mem) (required last : ℕ) : ℕ → ℕ → List ℕ
  | 0, _ => []
  | n + 1, a =>
      a :: if isFree m required (skipEntry B m a) then []
        else if skipEntry B m a + 4 = last then []
        else freeTurns B m required last n (skipEntry B m a + 4)

/-- The words at which a turn looks. -/
def turnWords (B : Board) (m : Mem) (a : ℕ) : List ℕ :=
  a :: ((if validMagic m a then [a + 4, a + 8] else []) ++ blankEntryWords m (skipEntry B m a))

/-- The words at which `blank_check` looks, of `n` words. -/
def checkWords (m : Mem) : ℕ → ℕ → List ℕ
  | 0, _ => []
  | n + 1, a => a :: if blankMagic m a then checkWords m n (a + 4) else []

/-- The words at which `blank_check` looks in a turn. -/
def aheadWords (B : Board) (m : Mem) (required a : ℕ) : List ℕ :=
  if blankEntry m (skipEntry B m a) then checkWords m (required / 4) (skipEntry B m a) else []

/-- What a search sector by sector looks at. -/
def sectorsWords (search : Sector → Search) (words : Sector → List ℕ) : List Sector → List ℕ
  | [] => []
  | s :: rest =>
      words s ++ match search s with
        | .absent => sectorsWords search words rest
        | _ => []

/-- The words at which `find_entry` looks. -/
def findEntryWords (B : Board) (m : Mem) : List ℕ :=
  sectorsWords (fun s => searchSector B m s.lastWord addressWords s.address)
    (fun s => searchWords B m s.lastWord addressWords s.address) B.sectors

/-- Where the turns of `find_free` begin. -/
def findFreeTurns (B : Board) (m : Mem) (required : ℕ) : List ℕ :=
  sectorsWords (fun s => freeInSector B m required s.lastWord addressWords s.address)
    (fun s => freeTurns B m required s.lastWord addressWords s.address) B.sectors

/-- A word of the sector. -/
def Sector.Has (s : Sector) (a : ℕ) : Prop := s.address ≤ a ∧ a + 4 ≤ s.stop

/-- A word of a sector of the map. -/
def InSectors (B : Board) (a : ℕ) : Prop := ∃ s ∈ B.sectors, s.Has a

/-- A sector is blank from one of its words to its end, and that is less than required. -/
def ShortRest (B : Board) (m : Mem) (required : ℕ) : Prop :=
  ∃ s ∈ B.sectors, ∃ a, s.Has a ∧ s.stop < a + required ∧ blankCheck m a (s.stop - a) = true

/-- The searches come to an end, and look at words of the sectors only.  `blank_check` looks further
only where there is less room than required. -/
structure Inside (B : Board) (m : Mem) : Prop where
  entry_ends : findEntry B m ≠ .lost
  entry_words : ∀ a ∈ findEntryWords B m, InSectors B a
  free_ends : ∀ required, findFree B m required ≠ .lost
  free_words : ∀ required, ∀ a ∈ findFreeTurns B m required, ∀ x ∈ turnWords B m a, InSectors B x
  ahead : ∀ required, ∀ a ∈ findFreeTurns B m required, ∀ x ∈ aheadWords B m required a,
    InSectors B x ∨ ShortRest B m required

/-! ## Sectors that keep a search -/

/-- The size of the entry leads behind its header, and at least two words before the end of the
sector. -/
def Leads (m : Mem) (s : Sector) (a : ℕ) : Prop :=
  headerSize ≤ entrySize m a ∧ 4 ∣ entrySize m a ∧ a + entrySize m a + 8 ≤ s.stop

instance (m : Mem) (s : Sector) (a : ℕ) : Decidable (Leads m s a) :=
  inferInstanceAs (Decidable (_ ∧ _ ∧ _))

/-- No magic word leads out of the sector: neither by one word where its CRC is bad, nor by its size
where it is good.  The last word is none of those that are looked at. -/
structure Confined (B : Board) (m : Mem) (s : Sector) : Prop where
  size : 8 ≤ s.size
  skips : ∀ i < s.size / 4 - 1, validMagic m (s.address + 4 * i) = true →
    s.address + 4 * i + 12 ≤ s.stop
  leads : ∀ i < s.size / 4 - 1, validMagic m (s.address + 4 * i) = true →
    crcMatches B m (s.address + 4 * i) = true → Leads m s (s.address + 4 * i)

theorem lastWord_index (hs : 4 ∣ s.size) (hsize : 8 ≤ s.size) :
    s.lastWord = s.address + 4 * (s.size / 4 - 1) := by
  unfold Sector.lastWord
  omega

theorem stop_index (hs : 4 ∣ s.size) (hsize : 8 ≤ s.size) :
    s.stop = s.address + 4 * (s.size / 4 - 1) + 4 := by
  unfold Sector.stop
  omega

theorem Sector.has_index (s : Sector) {i : ℕ} (hi : i < s.size / 4) :
    s.Has (s.address + 4 * i) := by
  unfold Sector.Has Sector.stop
  omega

theorem Leads.next {i : ℕ} (h : Leads m s (s.address + 4 * i)) :
    ∃ j, i + 4 ≤ j ∧ j < s.size / 4 - 1 ∧
      s.address + 4 * i + entrySize m (s.address + 4 * i) = s.address + 4 * j := by
  have h16 : headerSize = 16 := rfl
  obtain ⟨hle, ⟨q, hq⟩, hend⟩ := h
  have hstop : s.stop = s.address + s.size := rfl
  refine ⟨i + q, ?_, ?_, ?_⟩
  · omega
  · omega
  · rw [hq]
    ring

/-! ## The search for the parameters -/

/-- The hunt comes to a magic word or to the last word, and looks at the words before. -/
theorem hunt_inside (last : ℕ) (k : ℕ) : ∀ {a : ℕ}, a + 4 * k = last → ∀ n, k < n →
    (∃ j ≤ k, hunt m last n a = some (a + 4 * j) ∧ (j < k → validMagic m (a + 4 * j) = true)) ∧
      ∀ x ∈ huntWords m last n a, ∃ j < k, x = a + 4 * j := by
  -- `k` is the number of words before the last one
  induction k with
  | zero =>
      intro a ha n hn
      obtain ⟨n, rfl⟩ : ∃ k, n = k + 1 := ⟨n - 1, by omega⟩
      have hlast : a = last := by omega
      refine ⟨⟨0, Nat.le_refl 0, by simp [hunt, hlast], nofun⟩, ?_⟩
      intro x hx
      simp [huntWords, hlast] at hx
  | succ k ih =>
      intro a ha n hn
      obtain ⟨n, rfl⟩ : ∃ k, n = k + 1 := ⟨n - 1, by omega⟩
      have hne : a ≠ last := by omega
      by_cases hmagic : validMagic m a = true
      · refine ⟨⟨0, Nat.zero_le _, by simp [hunt, hmagic], fun _ => hmagic⟩, ?_⟩
        intro x hx
        simp only [huntWords, hne, hmagic, if_false, if_true, List.mem_singleton] at hx
        exact ⟨0, Nat.succ_pos k, hx⟩
      · obtain ⟨⟨j, hj, hhunt, hfound⟩, hwords⟩ := ih (a := a + 4) (by omega) n (by omega)
        have hshift : ∀ i, a + 4 + 4 * i = a + 4 * (i + 1) := fun i => by ring
        refine ⟨⟨j + 1, by omega, ?_, ?_⟩, ?_⟩
        · simp only [hunt, hne, hmagic, decide_false, Bool.or_self, Bool.false_eq_true, if_false]
          rw [hhunt, hshift]
        · intro hlt
          rw [← hshift]
          exact hfound (by omega)
        · intro x hx
          simp only [huntWords, hne, hmagic, if_false, List.mem_cons, Bool.false_eq_true] at hx
          rcases hx with rfl | hx
          · exact ⟨0, Nat.succ_pos k, rfl⟩
          · obtain ⟨i, hi, rfl⟩ := hwords x hx
            exact ⟨i + 1, by omega, hshift i⟩

theorem blankEntryWords_has {i : ℕ} (hi : i < s.size / 4 - 1) :
    ∀ x ∈ blankEntryWords m (s.address + 4 * i), s.Has x := by
  intro x hx
  unfold blankEntryWords at hx
  rcases List.mem_cons.1 hx with rfl | hx
  · exact s.has_index (by omega)
  · split at hx
    · rw [List.mem_singleton.1 hx]
      exact s.has_index (i := i + 1) (by omega)
    · cases hx

theorem Sector.hunt {s : Sector} (hs : s ∈ B.sectors) (hsize : 8 ≤ s.size) {i : ℕ}
    (hi : i ≤ s.size / 4 - 1) :
    ∃ j, i ≤ j ∧ j ≤ s.size / 4 - 1 ∧
      FlashFs.hunt m s.lastWord addressWords (s.address + 4 * i) = some (s.address + 4 * j) ∧
      (j < s.size / 4 - 1 → validMagic m (s.address + 4 * j) = true) ∧
      ∀ x ∈ huntWords m s.lastWord addressWords (s.address + 4 * i), s.Has x := by
  have hmem := B.inMemory s hs
  have hlast := lastWord_index (B.aligned s hs) hsize
  have hstop := stop_index (B.aligned s hs) hsize
  have hwords : s.size / 4 - 1 - i < addressWords := by
    rw [addressWords_eq]
    omega
  have hindex : ∀ j, s.address + 4 * i + 4 * j = s.address + 4 * (i + j) := fun j => by ring
  obtain ⟨⟨j, hj, hhunt, hfound⟩, hhunted⟩ :=
    hunt_inside (m := m) s.lastWord (s.size / 4 - 1 - i) (a := s.address + 4 * i) (by omega)
      addressWords hwords
  rw [hindex] at hhunt hfound
  refine ⟨i + j, by omega, by omega, hhunt, fun hlt => hfound (by omega), ?_⟩
  intro x hx
  obtain ⟨k, hk, rfl⟩ := hhunted x hx
  rw [hindex]
  exact s.has_index (by omega)

theorem Confined.header_has (h : Confined B m s) {i : ℕ} (hi : i < s.size / 4 - 1)
    (hmagic : validMagic m (s.address + 4 * i) = true) :
    ∀ x ∈ [s.address + 4 * i + 4, s.address + 4 * i + 8], s.Has x := by
  have hskips := h.skips i hi hmagic
  intro x hx
  unfold Sector.Has
  simp only [List.mem_cons, List.not_mem_nil, or_false] at hx
  omega

theorem Leads.token_has {i : ℕ} (h : Leads m s (s.address + 4 * i)) (valid : Bool) :
    ∀ x ∈ (if valid then [s.address + 4 * i + 12] else []), s.Has x := by
  have h16 : headerSize = 16 := rfl
  obtain ⟨hle, _, hend⟩ := h
  intro x hx
  unfold Sector.Has
  split at hx
  · rw [List.mem_singleton.1 hx]
    omega
  · cases hx

/-- What `searchSector` comes to in a sector that keeps it. -/
structure SearchInside (B : Board) (m : Mem) (s : Sector) (r : Search) (words : List ℕ) : Prop where
  ends : r ≠ .lost
  found : ∀ a, r = .found a → ∃ i < s.size / 4 - 1, a = s.address + 4 * i ∧
    validMagic m a = true ∧ crcMatches B m a = true
  words : ∀ x ∈ words, s.Has x

theorem SearchInside.absent {words : List ℕ} (h : ∀ x ∈ words, s.Has x) :
    SearchInside B m s .absent words :=
  ⟨Search.noConfusion, nofun, h⟩

theorem Confined.searchSector (h : Confined B m s) (hs : s ∈ B.sectors) (n : ℕ) :
    ∀ i, i ≤ s.size / 4 - 1 → s.size / 4 - 1 - i < n →
      SearchInside B m s (searchSector B m s.lastWord n (s.address + 4 * i))
        (searchWords B m s.lastWord n (s.address + 4 * i)) := by
  have hlast := lastWord_index (B.aligned s hs) h.size
  induction n with
  | zero =>
      intro i _ hn
      omega
  | succ n ih =>
      intro i hi hn
      obtain ⟨j, hij, hj, hhunt, hfound, hhunted⟩ := Sector.hunt (m := m) hs h.size hi
      unfold FlashFs.searchSector searchWords
      simp only [hhunt]
      by_cases hend : s.address + 4 * j = s.lastWord
      · -- the sector holds no magic word from here on
        simp only [hend, if_true, List.append_nil]
        exact .absent hhunted
      · have hlt : j < s.size / 4 - 1 := by omega
        have hmagic := hfound hlt
        have hheader := h.header_has hlt hmagic
        simp only [hend, if_false]
        by_cases hcrc : crcMatches B m (s.address + 4 * j) = true
        · have hleads := h.leads j hlt hmagic hcrc
          have htoken := hleads.token_has (validEntry m (s.address + 4 * j))
          obtain ⟨k, hk, hklt, hnext⟩ := hleads.next
          have hblank := blankEntryWords_has (m := m) hklt
          simp only [hcrc, if_true, hnext]
          split
          · -- the entry is the wanted one
            refine ⟨Search.noConfusion, ?_, ?_⟩
            · rintro _ ⟨⟩
              exact ⟨j, hlt, rfl, hmagic, hcrc⟩
            · simp only [List.forall_mem_append, List.append_nil]
              exact ⟨hhunted, hheader, htoken⟩
          · split
            · -- nothing follows the entry
              refine .absent ?_
              simp only [List.forall_mem_append, List.append_nil]
              exact ⟨hhunted, hheader, htoken, hblank⟩
            · -- behind the entry, the search goes on
              obtain ⟨hends, hwanted, hrest⟩ := ih k (by omega) (by omega)
              refine ⟨hends, hwanted, ?_⟩
              simp only [List.forall_mem_append]
              exact ⟨hhunted, hheader, htoken, hblank, hrest⟩
        · simp only [hcrc, if_false, Bool.false_eq_true, List.append_nil]
          exact .absent (List.forall_mem_append.2 ⟨hhunted, hheader⟩)

/-! ## The search for room -/

/-- A turn looks behind an entry, or one word further at most, and before the last word. -/
theorem Confined.skipEntry (h : Confined B m s) (hs : s ∈ B.sectors) {i : ℕ}
    (hi : i < s.size / 4 - 1) :
    ∃ j, i ≤ j ∧ j < s.size / 4 - 1 ∧ skipEntry B m (s.address + 4 * i) = s.address + 4 * j := by
  have hstop := stop_index (B.aligned s hs) h.size
  unfold FlashFs.skipEntry
  by_cases hmagic : validMagic m (s.address + 4 * i) = true
  · simp only [hmagic, if_true]
    by_cases hcrc : crcMatches B m (s.address + 4 * i) = true
    · -- over the entry
      obtain ⟨j, hj, hlt, hnext⟩ := (h.leads i hi hmagic hcrc).next
      exact ⟨j, by omega, hlt, by rw [if_pos hcrc, hnext]⟩
    · -- over the magic word only
      have hskips := h.skips i hi hmagic
      exact ⟨i + 1, by omega, by omega, by rw [if_neg hcrc]; ring⟩
  · exact ⟨i, Nat.le_refl i, hi, by rw [if_neg hmagic]⟩

/-- What `freeInSector` comes to in a sector that keeps it. -/
structure FreeInside (s : Sector) (r : Search) (turns : List ℕ) : Prop where
  ends : r ≠ .lost
  found : ∀ a, r = .found a → ∃ i < s.size / 4 - 1, a = s.address + 4 * i
  turns : ∀ a ∈ turns, ∃ i < s.size / 4 - 1, a = s.address + 4 * i

/-- The search for room goes on word by word, or by a jump, to the last word at most. -/
theorem Confined.freeInSector (h : Confined B m s) (hs : s ∈ B.sectors) (required n : ℕ) :
    ∀ i, i < s.size / 4 - 1 → s.size / 4 - 1 - i ≤ n →
      FreeInside s (freeInSector B m required s.lastWord n (s.address + 4 * i))
        (freeTurns B m required s.lastWord n (s.address + 4 * i)) := by
  have hlast := lastWord_index (B.aligned s hs) h.size
  induction n with
  | zero =>
      intro i hi hn
      omega
  | succ n ih =>
      intro i hi hn
      obtain ⟨j, hij, hj, hskip⟩ := h.skipEntry hs hi
      unfold FlashFs.freeInSector freeTurns
      simp only [hskip]
      by_cases hfree : isFree m required (s.address + 4 * j) = true
      · simp only [hfree, if_true]
        refine ⟨Search.noConfusion, ?_, ?_⟩
        · rintro _ ⟨⟩
          exact ⟨j, hj, rfl⟩
        · intro a ha
          exact ⟨i, hi, List.mem_singleton.1 ha⟩
      · by_cases hend : s.address + 4 * j + 4 = s.lastWord
        · simp only [hfree, hend, if_true, if_false, Bool.false_eq_true]
          refine ⟨Search.noConfusion, fun _ hfound => Search.noConfusion hfound, ?_⟩
          intro a ha
          exact ⟨i, hi, List.mem_singleton.1 ha⟩
        · -- `j + 1` is not the last word, or the loop would have ended
          have hnext : s.address + 4 * j + 4 = s.address + 4 * (j + 1) := by ring
          obtain ⟨hends, hfound, hturns⟩ := ih (j + 1) (by omega) (by omega)
          rw [hnext] at hend
          simp only [hfree, hnext, hend, if_false, Bool.false_eq_true]
          refine ⟨hends, hfound, ?_⟩
          intro a ha
          rcases List.mem_cons.1 ha with rfl | ha
          · exact ⟨i, hi, rfl⟩
          · exact hturns a ha

theorem Confined.turnWords (h : Confined B m s) (hs : s ∈ B.sectors) {i : ℕ}
    (hi : i < s.size / 4 - 1) : ∀ x ∈ turnWords B m (s.address + 4 * i), s.Has x := by
  obtain ⟨j, _, hj, hskip⟩ := h.skipEntry hs hi
  unfold FlashFs.turnWords
  rw [List.forall_mem_cons, List.forall_mem_append, hskip]
  refine ⟨s.has_index (by omega), ?_, blankEntryWords_has hj⟩
  split
  · exact h.header_has hi (by assumption)
  · exact fun x hx => absurd hx List.not_mem_nil

/-- `blank_check` looks at words that follow one another, and all of them but the last are blank. -/
theorem checkWords_index (n : ℕ) : ∀ {a x : ℕ}, x ∈ checkWords m n a →
    ∃ j < n, x = a + 4 * j ∧ ∀ i < j, word m (a + 4 * i) = blankSig := by
  induction n with
  | zero =>
      intro a x hx
      cases hx
  | succ n ih =>
      intro a x hx
      rcases List.mem_cons.1 hx with rfl | hx
      · exact ⟨0, Nat.succ_pos n, rfl, nofun⟩
      · split at hx
        · rename_i hblank
          obtain ⟨j, hj, rfl, hbefore⟩ := ih hx
          refine ⟨j + 1, by omega, by ring, ?_⟩
          intro i hi
          cases i with
          | zero => simpa [blankMagic] using hblank
          | succ i =>
              have := hbefore i (by omega)
              rwa [show a + 4 + 4 * i = a + 4 * (i + 1) by ring] at this
        · cases hx

/-- `blank_check` leaves a sector only over a blank rest with less room than required. -/
theorem Confined.aheadWords (h : Confined B m s) (hs : s ∈ B.sectors) {required i : ℕ}
    (hi : i < s.size / 4 - 1) : ∀ x ∈ aheadWords B m required (s.address + 4 * i),
      s.Has x ∨ ShortRest B m required := by
  intro x hx
  have hstop := stop_index (B.aligned s hs) h.size
  obtain ⟨j, _, hj, hskip⟩ := h.skipEntry hs hi
  unfold FlashFs.aheadWords at hx
  rw [hskip] at hx
  split at hx
  · obtain ⟨k, hk, rfl, hblank⟩ := checkWords_index (required / 4) hx
    by_cases hin : j + k < s.size / 4
    · -- still a word of the sector
      left
      rw [Nat.add_assoc, ← Nat.mul_add]
      exact s.has_index hin
    · -- all words from `j` to the end of the sector were blank
      right
      refine ⟨s, hs, s.address + 4 * j, s.has_index (by omega), by omega, ?_⟩
      rw [blankCheck_iff]
      intro l hl
      exact hblank l (by omega)
  · cases hx

/-! ## The search through the sectors -/

theorem mem_sectorsWords {search : Sector → Search} {words : Sector → List ℕ} {l : List Sector}
    {x : ℕ} (h : x ∈ sectorsWords search words l) : ∃ s ∈ l, x ∈ words s := by
  induction l with
  | nil => cases h
  | cons t l ih =>
      unfold sectorsWords at h
      rcases List.mem_append.1 h with h | h
      · exact ⟨t, List.mem_cons_self, h⟩
      · split at h
        · obtain ⟨s, hs, hx⟩ := ih h
          exact ⟨s, List.mem_cons_of_mem _ hs, hx⟩
        · cases h

theorem searchSectors_mem {search : Sector → Search} {l : List Sector}
    (h : searchSectors search l ≠ .absent) : ∃ s ∈ l, search s = searchSectors search l := by
  induction l with
  | nil => exact absurd rfl h
  | cons t l ih =>
      unfold searchSectors at h ⊢
      cases ht : search t with
      | absent =>
          simp only [ht] at h ⊢
          obtain ⟨s, hs, heq⟩ := ih h
          exact ⟨s, List.mem_cons_of_mem _ hs, heq⟩
      | found a => exact ⟨t, List.mem_cons_self, ht⟩
      | lost => exact ⟨t, List.mem_cons_self, ht⟩

theorem searchSectors_ne_lost {search : Sector → Search} {l : List Sector}
    (h : ∀ s ∈ l, search s ≠ .lost) : searchSectors search l ≠ .lost := by
  intro hlost
  have hne : searchSectors search l ≠ .absent := by
    rw [hlost]
    exact Search.noConfusion
  obtain ⟨s, hs, heq⟩ := searchSectors_mem hne
  exact h s hs (heq.trans hlost)

section Sectors

variable (h : ∀ s ∈ B.sectors, Confined B m s)
include h

theorem entrySearch_inside (hs : s ∈ B.sectors) :
    SearchInside B m s (searchSector B m s.lastWord addressWords s.address)
      (searchWords B m s.lastWord addressWords s.address) := by
  have hmem := B.inMemory s hs
  have hstop : s.stop = s.address + s.size := rfl
  refine (h s hs).searchSector hs addressWords 0 (Nat.zero_le _) ?_
  rw [addressWords_eq]
  omega

theorem freeSearch_inside (required : ℕ) (hs : s ∈ B.sectors) :
    FreeInside s (freeInSector B m required s.lastWord addressWords s.address)
      (freeTurns B m required s.lastWord addressWords s.address) := by
  have hmem := B.inMemory s hs
  have hsize := (h s hs).size
  have hstop : s.stop = s.address + s.size := rfl
  refine (h s hs).freeInSector hs required addressWords 0 (by omega) ?_
  rw [addressWords_eq]
  omega

theorem inside_of_confined : Inside B m := by
  refine ⟨?_, ?_, ?_, ?_, ?_⟩
  · exact searchSectors_ne_lost fun s hs => (entrySearch_inside h hs).ends
  · intro a ha
    obtain ⟨s, hs, ha⟩ := mem_sectorsWords ha
    exact ⟨s, hs, (entrySearch_inside h hs).words a ha⟩
  · intro required
    exact searchSectors_ne_lost fun s hs => (freeSearch_inside h required hs).ends
  · intro required a ha x hx
    obtain ⟨s, hs, ha⟩ := mem_sectorsWords ha
    obtain ⟨i, hi, rfl⟩ := (freeSearch_inside h required hs).turns a ha
    exact ⟨s, hs, (h s hs).turnWords hs hi x hx⟩
  · intro required a ha x hx
    obtain ⟨s, hs, ha⟩ := mem_sectorsWords ha
    obtain ⟨i, hi, rfl⟩ := (freeSearch_inside h required hs).turns a ha
    rcases (h s hs).aheadWords hs hi x hx with hx | hx
    · exact .inl ⟨s, hs, hx⟩
    · exact .inr hx

/-- What `find_entry` finds is a good entry of a sector. -/
theorem findEntry_confined {a : ℕ} (hfind : findEntry B m = .found a) :
    ∃ s ∈ B.sectors, ∃ i < s.size / 4 - 1, a = s.address + 4 * i ∧ validMagic m a = true ∧
      Leads m s a := by
  have hne : findEntry B m ≠ .absent := by
    rw [hfind]
    exact Search.noConfusion
  obtain ⟨s, hs, heq⟩ := searchSectors_mem hne
  obtain ⟨i, hi, rfl, hmagic, hcrc⟩ := (entrySearch_inside h hs).found a (heq.trans hfind)
  exact ⟨s, hs, i, hi, rfl, hmagic, (h s hs).leads i hi hmagic hcrc⟩

theorem findFree_confined {required a : ℕ} (hfind : findFree B m required = .found a) :
    ∃ s ∈ B.sectors, ∃ i < s.size / 4 - 1, a = s.address + 4 * i := by
  have hne : findFree B m required ≠ .absent := by
    rw [hfind]
    exact Search.noConfusion
  obtain ⟨s, hs, heq⟩ := searchSectors_mem hne
  obtain ⟨i, hi, rfl⟩ := (freeSearch_inside h required hs).found a (heq.trans hfind)
  exact ⟨s, hs, i, hi, rfl⟩

end Sectors

end FlashFs
end Params
end DtPhm
