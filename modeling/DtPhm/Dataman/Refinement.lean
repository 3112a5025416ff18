import DtPhm.Lib.Run
import DtPhm.Dataman.Slots

/-!
# Refinement — both backends implement one store

The abstract store maps a key and an index to an entry, if there is one.  What its requests do is
said in its own terms: nothing of it mentions offsets, headers or the end of a file.  `survives` is
the table of persistence levels in `dataman.h`.

The two backends and the store are then run side by side on the same requests
(`jointStep`), and `Refines` says that so far they agree: the last replies are the same, and the
slots of both backends hold the entries of the store.
-/

namespace DtPhm
namespace Dataman

open Lib

/-! ## The abstract store -/

/-- An entry under the key `k`. -/
structure Entry (k : DmItem) where
  persistence : Persistence
  data : List UInt8
  nonempty : data ≠ []
  fits : data.length ≤ k.dataSize

/-- Writing no bytes leaves no entry. -/
def Entry.ofData {k : DmItem} (persistence : Persistence) (data : List UInt8)
    (fits : data.length ≤ k.dataSize) : Option (Entry k) :=
  if h : data = [] then none else some ⟨persistence, data, h, fits⟩

/-- The entries of the store. -/
abbrev Store := (k : DmItem) → ℕ → Option (Entry k)

/-- Whether data of this persistence level survives a reset, as `dataman.h` has it: all resets,
in-flight resets only, none. -/
def survives (reason : ResetReason) : Persistence → Bool
  | .powerOnReset => true
  | .inFlightReset => reason = .inFlight
  | .volatile => false

namespace Store

variable (p : Platform) (st : Store)

/-- The store with the entry of one key and index replaced. -/
def set (k : DmItem) (i : ℕ) (o : Option (Entry k)) : Store :=
  Function.update st k (Function.update (st k) i o)

def write (item index : ℕ) (persistence : Persistence) (buf : List UInt8) : Reply × Store :=
  match DmItem.ofCode? item with
  | none => (.code (-1), st)
  | some k =>
      if k.perItemMaxIndex p ≤ index then (.code (-1), st)
      else if h : buf.length ≤ k.dataSize then
        (.code buf.length, st.set k index (Entry.ofData persistence buf h))
      else (.code (-e2big), st)

/-- What a read of an entry returns to a caller with room for `count` bytes. -/
def readEntry {k : DmItem} (count : ℕ) : Option (Entry k) → Reply
  | none => .code 0
  | some e => if count < e.data.length then .code (-1) else ⟨e.data.length, e.data⟩

def read (item index count : ℕ) : Reply :=
  match DmItem.ofCode? item with
  | none => .code (-1)
  | some k =>
      if k.perItemMaxIndex p ≤ index then .code (-1)
      else if k.dataSize < count then .code (-e2big)
      else readEntry count (st k index)

def clear (item : ℕ) : Reply × Store :=
  match DmItem.ofCode? item with
  | none => (.code (-1), st)
  | some k => (.code 0, Function.update st k fun _ => none)

def restart (reason : ResetReason) : Reply × Store :=
  (.code 0, fun k i => (st k i).filter fun e => survives reason e.persistence)

/-- One request to the store. -/
def step : Op → Reply × Store
  | .write item index persistence buf => st.write p item index persistence buf
  | .read item index count => (st.read p item index count, st)
  | .clear item => st.clear item
  | .restart reason => st.restart reason

end Store

/-! ## The entries of a byte array -/

/-- The slot at `a` holds the entry `o`. -/
def Holds {k : DmItem} (m : Mem) (a : ℕ) : Option (Entry k) → Prop
  | none => m a = 0
  | some e =>
      m a = UInt8.ofNat e.data.length ∧ m (a + 1) = e.persistence.code ∧
        load m (a + dmSectorHdrSize) e.data.length = e.data

/-- The slots hold the entries of the store.  The slot of the compat entry is no part of it. -/
def Represents (p : Platform) (m : Mem) (st : Store) : Prop :=
  ∀ k, k ≠ DmItem.compat → ∀ i < k.perItemMaxIndex p, Holds m (slot p k i) (st k i)

variable {p : Platform} {k : DmItem} {m m' : Mem} {st : Store}

/-- `Holds` is about the bytes of one slot. -/
theorem Holds.congr {a : ℕ} {o : Option (Entry k)} (h : Holds m a o)
    (hm : ∀ j < k.perItemSize, m' (a + j) = m (a + j)) : Holds m' a o := by
  have hsize := k.two_le_perItemSize
  have h₀ : m' a = m a := hm 0 (by omega)
  have h₁ : m' (a + 1) = m (a + 1) := hm 1 (by omega)
  cases o with
  | none =>
      exact h₀.trans h
  | some e =>
      rcases h with ⟨hlen, hper, hdata⟩
      refine ⟨h₀.trans hlen, h₁.trans hper, ?_⟩
      have hfits := e.fits
      calc
        load m' (a + dmSectorHdrSize) e.data.length
            = load m (a + dmSectorHdrSize) e.data.length := by
              apply load_congr
              intro j hj
              rw [Nat.add_assoc]
              exact hm (dmSectorHdrSize + j) (by unfold DmItem.perItemSize; omega)
        _ = e.data := hdata

theorem Represents.congr (h : Represents p m st) (hm : ∀ x < maxOffset p, m' x = m x) :
    Represents p m' st := by
  intro k hk i hi
  refine (h k hk i hi).congr ?_
  intro j hj
  have := slot_add_size_le_maxOffset (p := p) hi
  exact hm _ (by omega)

theorem Entry.length_ne_zero (e : Entry k) : UInt8.ofNat e.data.length ≠ 0 := by
  intro h
  have hlen : e.data.length % 256 = 0 := by
    have := congrArg UInt8.toNat h
    simpa using this
  have hpos : 0 < e.data.length := List.length_pos_iff.2 e.nonempty
  have hfits := e.fits
  have hsize := k.dataSize_lt
  omega

theorem Entry.toNat_length (e : Entry k) : (UInt8.ofNat e.data.length).toNat = e.data.length := by
  have hfits := e.fits
  have hsize := k.dataSize_lt
  simp
  omega

/-! ## Writes -/

theorem holds_store (a : ℕ) (persistence : Persistence) (buf : List UInt8)
    (fits : buf.length ≤ k.dataSize) :
    Holds (store m a (header buf.length persistence ++ buf)) a
      (Entry.ofData (k := k) persistence buf fits) := by
  have hlen : store m a (header buf.length persistence ++ buf) a = UInt8.ofNat buf.length := by
    -- the first two bytes of the header
    have hat :=
      store_add m a (show 0 < (header buf.length persistence ++ buf).length by simp [header])
    simpa [header] using hat
  have hper : store m a (header buf.length persistence ++ buf) (a + 1) = persistence.code := by
    have hat :=
      store_add m a (show 1 < (header buf.length persistence ++ buf).length by simp [header])
    simpa [header] using hat
  unfold Entry.ofData
  split
  · rename_i hnil
    -- a write of no data leaves an empty slot
    simpa [hnil, Holds] using hlen
  · exact ⟨hlen, hper, load_store_append m a (header buf.length persistence) buf⟩

theorem Represents.write (h : Represents p m st) {i : ℕ} (hi : i < k.perItemMaxIndex p)
    (persistence : Persistence) {buf : List UInt8} (fits : buf.length ≤ k.dataSize) :
    Represents p (store m (slot p k i) (header buf.length persistence ++ buf))
      (st.set k i (Entry.ofData persistence buf fits)) := by
  intro k' hk' i' hi'
  by_cases hsame : k' = k ∧ i' = i
  · rcases hsame with ⟨rfl, rfl⟩
    simpa [Store.set] using holds_store (slot p k' i') persistence buf fits
  · have hentry : st.set k i (Entry.ofData persistence buf fits) k' i' = st k' i' := by
      unfold Store.set
      by_cases hk : k' = k
      · subst hk
        have hne : i' ≠ i := fun hi => hsame ⟨rfl, hi⟩
        simp [hne]
      · simp [hk]
    rw [hentry]
    refine (h k' hk' i' hi').congr ?_
    intro j hj
    -- a byte of the slot that is written is not a byte of this one
    by_contra hne
    have hin : slot p k i ≤ slot p k' i' + j ∧
        slot p k' i' + j < slot p k i + (header buf.length persistence ++ buf).length := by
      constructor
      · by_contra hlt
        exact hne (store_of_lt m _ (by omega))
      · by_contra hge
        exact hne (store_of_le m _ (by omega))
    have hlength : (header buf.length persistence ++ buf).length ≤ k.perItemSize := by
      simp only [List.length_append, length_header, DmItem.perItemSize]
      omega
    obtain ⟨j', hj'⟩ := Nat.exists_eq_add_of_le hin.1
    have hjlt : j' < k.perItemSize := by omega
    rcases slot_inj hi' hi hj hjlt hj' with ⟨hk, hi, -⟩
    exact hsame ⟨hk, hi⟩

/-! ## Reads -/

/-- `copyOut` looks at the header and at as many bytes as the caller asked for. -/
theorem copyOut_congr {b b' : Mem} {count : ℕ} (h : ∀ j < count + dmSectorHdrSize, b j = b' j) :
    copyOut b count = copyOut b' count := by
  have h₀ : b 0 = b' 0 := h 0 (by simp [dmSectorHdrSize])
  unfold copyOut
  rw [h₀]
  split
  · split
    · rfl
    · rename_i hle
      congr 1
      apply load_congr
      intro j hj
      exact h _ (by omega)
  · rfl

theorem copyOut_eq {a : ℕ} {o : Option (Entry k)} (h : Holds m a o) (count : ℕ) :
    copyOut (fun j => m (a + j)) count = Store.readEntry count o := by
  cases o with
  | none =>
      have h₀ : m a = 0 := h
      simp [copyOut, h₀, Store.readEntry]
  | some e =>
      rcases h with ⟨hlen, -, hdata⟩
      have hpos : 0 < e.data.length := List.length_pos_iff.2 e.nonempty
      have hload : load (fun j => m (a + j)) dmSectorHdrSize e.data.length = e.data := by
        calc
          load (fun j => m (a + j)) dmSectorHdrSize e.data.length
              = load m (a + dmSectorHdrSize) e.data.length := by
                simp only [load, Nat.add_assoc]
          _ = e.data := hdata
      simp only [copyOut, Nat.add_zero, hlen, e.toNat_length, hpos, if_true, Store.readEntry, hload]

/-! ## Sweeps -/

/-- The entries left when every entry that meets `drop` is taken out of the keys in `ks`. -/
theorem Represents.sweep (h : Represents p m st) {drop : UInt8 → UInt8 → Bool} {ks : List DmItem}
    (hs : Swept p drop ks m m') {st' : Store}
    (hst : ∀ k, k ≠ DmItem.compat → ∀ i < k.perItemMaxIndex p, st' k i = if k ∈ ks then
      (st k i).filter (fun e => !drop (UInt8.ofNat e.data.length) e.persistence.code)
      else st k i) : Represents p m' st' := by
  intro k hk i hi
  have hold := h k hk i hi
  have hsize := k.two_le_perItemSize
  have hswept := hs k i hi
  rw [hst k hk i hi]
  by_cases hdrop : k ∈ ks ∧ drop (m (slot p k i)) (m (slot p k i + 1))
  · -- the slot is zeroed, and an entry in it meets `drop`
    have hzero : m' (slot p k i) = 0 := by
      have := hswept 0 (by omega)
      simpa [hdrop] using this
    rw [if_pos hdrop.1]
    cases hentry : st k i with
    | none =>
        exact hzero
    | some e =>
        rw [hentry] at hold
        rcases hold with ⟨hlen, hper, -⟩
        have : drop (UInt8.ofNat e.data.length) e.persistence.code = true := by
          rw [← hlen, ← hper]
          exact hdrop.2
        simpa [Option.filter, this, Holds] using hzero
  -- the slot is left alone, and an entry in it does not meet `drop`
  · have hsame : ∀ j < k.perItemSize, m' (slot p k i + j) = m (slot p k i + j) := by
      intro j hj
      rw [hswept j hj, if_neg]
      intro hc
      exact hdrop ⟨hc.1, hc.2.2⟩
    have hkeep := hold.congr hsame
    split
    · rename_i hmem
      cases hentry : st k i with
      | none =>
          rwa [hentry] at hkeep
      | some e =>
          rw [hentry] at hold hkeep
          rcases hold with ⟨hlen, hper, -⟩
          have : drop (UInt8.ofNat e.data.length) e.persistence.code = false := by
            rw [← hlen, ← hper]
            exact Bool.eq_false_iff.2 fun hd => hdrop ⟨hmem, hd⟩
          simpa [Option.filter, this] using hkeep
    · exact hkeep

/-! ## Clears and restarts -/

theorem Represents.clear (h : Represents p m st) {drop : UInt8 → UInt8 → Bool}
    (hdrop : ∀ b c, b ≠ 0 → drop b c = true) :
    Represents p (sweepKey p drop m k) (Function.update st k fun _ => none) := by
  refine h.sweep (swept_sweepKey k m) ?_
  intro k' _ i _
  by_cases hk : k' = k
  · subst hk
    cases hentry : st k' i with
    | none =>
        simp
    | some e =>
        simp [Option.filter, hdrop _ _ e.length_ne_zero]
  · simp [hk]

/-- No entry of the store is of the one kind that the header file and the code treat differently: an
in-flight entry, when the reason of the reset is `DM_INIT_REASON_VOLATILE`. -/
def NoInFlightEntry (p : Platform) (st : Store) : Prop :=
  ∀ k, k ≠ DmItem.compat → ∀ i < k.perItemMaxIndex p, ∀ e, st k i = some e →
    e.persistence ≠ .inFlightReset

theorem clearEntry_eq (reason : ResetReason) (e : Entry k)
    (h : reason = .volatile → e.persistence ≠ .inFlightReset) :
    (!clearEntry reason (UInt8.ofNat e.data.length) e.persistence.code) =
      survives reason e.persistence := by
  have hlen := e.length_ne_zero
  revert h
  cases reason <;> cases e.persistence <;>
    simp [clearEntry, survives, hlen, Persistence.code]

theorem nodup_keys : DmItem.keys.Nodup := by
  decide

/-- The loops of a restart leave what the store keeps, unless they keep an in-flight entry. -/
theorem represents_restart_iff (h : Represents p m st) (reason : ResetReason) :
    Represents p (DmItem.keys.foldl (sweepKey p (clearEntry reason)) m) (st.restart reason).2 ↔
      (reason = .volatile → NoInFlightEntry p st) := by
  have hswept : Swept p (clearEntry reason) DmItem.keys m
      (DmItem.keys.foldl (sweepKey p (clearEntry reason)) m) := swept_foldl nodup_keys m
  constructor
  · rintro hrep rfl k hk i hi e he hper
    have hheld := h k hk i hi
    rw [he] at hheld
    rcases hheld with ⟨hlen, hcode, -⟩
    -- the code keeps the length byte of this entry ...
    have hkept := hswept k i hi 0 (by have := k.two_le_perItemSize; omega)
    have hnot : clearEntry .volatile (m (slot p k i)) (m (slot p k i + 1)) = false := by
      rw [hcode, hper]
      simp [clearEntry, Persistence.code]
    rw [hnot] at hkept
    simp only [Nat.add_zero, Bool.false_eq_true, and_false, if_false] at hkept
    -- ... the store does not have it any more
    have hgone := hrep k hk i hi
    have hnone : (st.restart .volatile).2 k i = none := by
      simp [Store.restart, he, Option.filter, survives, hper]
    rw [hnone] at hgone
    exact e.length_ne_zero (hlen ▸ hkept ▸ hgone)
  · intro hok
    refine h.sweep hswept ?_
    intro k hk i hi
    have hmem : k ∈ DmItem.keys := by
      cases k <;> decide
    rw [if_pos hmem]
    cases hentry : st k i with
    | none =>
        simp [Store.restart, hentry]
    | some e =>
        have := clearEntry_eq reason e fun hr => hok hr k hk i hi e hentry
        simp [Store.restart, hentry, Option.filter, this]

/-! ## One request -/

/-- The request does not name the compat entry. -/
def Op.NotCompat : Op → Prop
  | .write item _ _ _ => item ≠ DmItem.compat.code
  | .read item _ _ => item ≠ DmItem.compat.code
  | .clear item => item ≠ DmItem.compat.code
  | .restart _ => True

/-- The restarts that the code carries out as the header file has them. -/
def Op.RestartAsDocumented (p : Platform) (st : Store) : Op → Prop
  | .restart reason => reason = .volatile → NoInFlightEntry p st
  | _ => True

section

variable {op : Op}

theorem ramStep_refines {ram : Ram} (hsize : ram.size = maxOffset p)
    (h : Represents p ram.data st) (hop : op.NotCompat) :
    (ramStep p ram op).1 = (st.step p op).1 ∧ (ramStep p ram op).2.size = maxOffset p ∧
      (Represents p (ramStep p ram op).2.data (st.step p op).2 ↔ op.RestartAsDocumented p st) := by
  -- the check of the RAM backend against its end never strikes
  have hinside : ∀ k i, i < k.perItemMaxIndex p → ram.pastEnd (slot p k i) = false := by
    intro k i hi
    have hend := slot_add_size_le_maxOffset hi
    have htwo := k.two_le_perItemSize
    simp only [Ram.pastEnd, decide_eq_false_iff_not, hsize]
    omega
  cases op with
  | write item index persistence buf =>
      simp only [ramStep, ramWrite, Store.step, Store.write, Op.RestartAsDocumented, iff_true]
      cases hk : DmItem.ofCode? item with
      | none =>
          simpa using ⟨hsize, h⟩
      | some k =>
          obtain rfl := DmItem.ofCode?_eq_some hk
          rw [calculateOffset_code]
          by_cases hi : k.perItemMaxIndex p ≤ index
          · simpa [hi] using ⟨hsize, h⟩
          · have hlt := Nat.lt_of_not_le hi
            by_cases hfits : buf.length ≤ k.dataSize
            · have hrep := h.write hlt persistence hfits
              have hroom := Nat.not_lt_of_le hfits
              simpa [hi, k.perItemSize_sub, hinside k index hlt, hfits, hroom] using ⟨hsize, hrep⟩
            · simpa [hi, k.perItemSize_sub, hfits, Nat.lt_of_not_le hfits] using ⟨hsize, h⟩
  | read item index count =>
      simp only [ramStep, ramRead, Store.step, Store.read, Op.RestartAsDocumented, iff_true]
      refine ⟨?_, hsize, h⟩
      cases hk : DmItem.ofCode? item with
      | none =>
          rfl
      | some k =>
          obtain rfl := DmItem.ofCode?_eq_some hk
          have hcompat : k ≠ .compat := fun hc => hop (congrArg DmItem.code hc)
          rw [calculateOffset_code]
          by_cases hi : k.perItemMaxIndex p ≤ index
          · simp [hi]
          · have hlt := Nat.lt_of_not_le hi
            simp [hi, k.perItemSize_sub, hinside k index hlt, copyOut_eq (h k hcompat index hlt)]
  | clear item =>
      simp only [ramStep, ramClear, Store.step, Store.clear, Op.RestartAsDocumented, iff_true]
      cases hk : DmItem.ofCode? item with
      | none =>
          simpa using ⟨hsize, h⟩
      | some k =>
          obtain rfl := DmItem.ofCode?_eq_some hk
          have hpos := Nat.not_le_of_lt (k.perItemMaxIndex_pos p)
          have hend : gKeyOffsets p k.code + k.perItemMaxIndex p * k.perItemSize ≤ ram.size :=
            hsize ▸ key_end_le p k
          have hloop := ramClearLoop_eq (Nat.pos_of_ne_zero k.perItemSize_ne_zero) hend
          have hrep : Represents p (sweepKey p (fun _ _ => true) ram.data k) _ :=
            h.clear fun _ _ _ => rfl
          simpa [calculateOffset_code, hpos, slot_zero, hloop] using ⟨hsize, hrep⟩
  | restart reason =>
      simp only [ramStep, ramRestart_eq, Store.step, Op.RestartAsDocumented]
      exact ⟨rfl, hsize, represents_restart_iff h reason⟩

/-- A file read inside the file fills the part of the array on the stack that is looked at. -/
theorem fileRead_buffer {file : File} (hf : file.HasContent (maxOffset p) m) (stack : Mem)
    {offset count : ℕ} (hin : offset + (count + dmSectorHdrSize) ≤ maxOffset p) :
    let got := file.read offset (count + dmSectorHdrSize)
    let buffer := overlay got stack
    copyOut (if got.length = 0 then store buffer 0 [0] else buffer) count =
      copyOut (fun j => m (offset + j)) count := by
  intro got buffer
  have hgot : got = load m offset (count + dmSectorHdrSize) := hf.read hin
  have hlength : got.length ≠ 0 := by
    simp [hgot, dmSectorHdrSize]
  rw [if_neg hlength]
  apply copyOut_congr
  intro j hj
  have hlt : j < got.length := by
    simpa [hgot] using hj
  calc
    buffer j
        = got.getD j 0 := by simpa [buffer, overlay] using store_add stack 0 hlt
    _ = m (offset + j) := by simp [hgot, load, hj]

theorem fileStep_refines {file : File} (hf : file.HasContent (maxOffset p) m)
    (h : Represents p m st) (stack : Mem) (hop : op.NotCompat)
    (hkey : ∀ item index persistence buf, op = .write item index persistence buf →
      item < dmKeyNumKeys) :
    ∃ file' m', fileStep p stack file op = some ((st.step p op).1, file') ∧
      file'.HasContent (maxOffset p) m' ∧
      (Represents p m' (st.step p op).2 ↔ op.RestartAsDocumented p st) := by
  cases op with
  | write item index persistence buf =>
      simp only [fileStep, fileWrite, Store.step, Store.write, Op.RestartAsDocumented, iff_true]
      cases hk : DmItem.ofCode? item with
      | none =>
          have := hkey _ _ _ _ rfl
          -- the sizes are looked up before the item is checked
          exact absurd this (Nat.not_lt_of_le (DmItem.ofCode?_eq_none.1 hk))
      | some k =>
          obtain rfl := DmItem.ofCode?_eq_some hk
          rw [calculateOffset_code]
          by_cases hi : k.perItemMaxIndex p ≤ index
          · exact ⟨file, m, by simp [hi], hf, by simpa [hi] using h⟩
          · have hlt := Nat.lt_of_not_le hi
            by_cases hfits : buf.length ≤ k.dataSize
            · have hin : slot p k index + (header buf.length persistence ++ buf).length ≤
                  maxOffset p := by
                have := slot_add_size_le_maxOffset hlt
                simp only [List.length_append, length_header]
                unfold DmItem.perItemSize at this
                omega
              have hroom := Nat.not_lt_of_le hfits
              refine ⟨_, _, ?_, hf.write hin, ?_⟩
              · simp [hi, k.perItemSize_sub, hfits, hroom]
              · simpa [hi, hfits] using h.write hlt persistence hfits
            · refine ⟨file, m, ?_, hf, by simpa [hi, hfits] using h⟩
              simp [hi, k.perItemSize_sub, hfits, Nat.lt_of_not_le hfits]
  | read item index count =>
      simp only [fileStep, fileRead, Store.step, Store.read, Op.RestartAsDocumented, iff_true]
      refine ⟨file, m, ?_, hf, h⟩
      cases hk : DmItem.ofCode? item with
      | none =>
          rfl
      | some k =>
          obtain rfl := DmItem.ofCode?_eq_some hk
          have hcompat : k ≠ .compat := fun hc => hop (congrArg DmItem.code hc)
          rw [calculateOffset_code]
          by_cases hi : k.perItemMaxIndex p ≤ index
          · simp [hi]
          · have hlt := Nat.lt_of_not_le hi
            by_cases hcount : k.dataSize < count
            · simp [hi, k.perItemSize_sub, hcount]
            · have hin : slot p k index + (count + dmSectorHdrSize) ≤ maxOffset p := by
                have := slot_add_size_le_maxOffset hlt
                unfold DmItem.perItemSize at this
                omega
              -- what is read covers what is looked at, so that the stack does not show
              have hbuffer := fileRead_buffer hf stack hin
              rw [copyOut_eq (h k hcompat index hlt)] at hbuffer
              simpa [hi, k.perItemSize_sub, hcount] using hbuffer
  | clear item =>
      simp only [fileStep, fileClear, Store.step, Store.clear, Op.RestartAsDocumented, iff_true]
      cases hk : DmItem.ofCode? item with
      | none =>
          exact ⟨file, m, rfl, hf, h⟩
      | some k =>
          obtain rfl := DmItem.ofCode?_eq_some hk
          have hpos := Nat.not_le_of_lt (k.perItemMaxIndex_pos p)
          rcases fileClearLoop_eq k.two_le_perItemSize hf (key_end_le p k) with
            ⟨file', hloop, hcontent⟩
          refine ⟨file', _, ?_, hcontent, h.clear ?_⟩
          · simp [calculateOffset_code, hpos, slot_zero, hloop]
          -- the file backend clears only slots that are not empty
          · intro b _ hb
            simpa using hb
  | restart reason =>
      rcases fileRestart_eq reason hf with ⟨file', hrun, hcontent⟩
      refine ⟨file', _, ?_, hcontent, represents_restart_iff h reason⟩
      simp [fileStep, hrun, Store.step, Store.restart]

end

/-! ## The three side by side -/

/-- A request other than to the compat entry, with what is on the stack when it is served. -/
structure Request where
  op : Op
  stack : Mem
  notCompat : op.NotCompat

/-- The two backends, the store they are to implement, and the last reply of each. -/
structure Joint where
  ram : Ram
  /-- Nothing is known of the file after a call without a defined result. -/
  file : Option File
  store : Store
  ramReply : Reply
  fileReply : Reply
  storeReply : Reply

/-- The backends as `task_main` initialises them, and the empty store. -/
def jointInit (p : Platform) : Joint where
  ram := ramInitialize p
  file := fileInitialize p
  store := fun _ _ => none
  ramReply := .code 0
  fileReply := .code 0
  storeReply := .code 0

/-- All three serve one request. -/
def jointStep (p : Platform) (s : Joint) (req : Request) : Joint :=
  let served := s.file.bind fun file => fileStep p req.stack file req.op
  { ram := (ramStep p s.ram req.op).2
    file := served.map Prod.snd
    store := (s.store.step p req.op).2
    ramReply := (ramStep p s.ram req.op).1
    fileReply := (served.map Prod.fst).getD s.fileReply
    storeReply := (s.store.step p req.op).1 }

/-- The backends have done what the store did. -/
structure Refines (p : Platform) (s : Joint) : Prop where
  ramReply : s.ramReply = s.storeReply
  fileReply : s.fileReply = s.storeReply
  ram : Represents p s.ram.data s.store
  file : ∃ file, s.file = some file ∧ Represents p file.content s.store

/-- What the backends have to be called with: a write must name a key, and a restart with the reason
`DM_INIT_REASON_VOLATILE` must not find an in-flight entry. -/
def AsDocumented (p : Platform) (s : Joint) (req : Request) : Prop :=
  (∀ item index persistence buf, req.op = .write item index persistence buf →
    item < dmKeyNumKeys) ∧
  (req.op = .restart .volatile → NoInFlightEntry p s.store)

/-- Neither backend changes its size. -/
structure Sized (p : Platform) (s : Joint) : Prop where
  ram : s.ram.size = maxOffset p
  file : ∀ file, s.file = some file → file.length = maxOffset p

theorem restartAsDocumented_iff {op : Op} :
    op.RestartAsDocumented p st ↔ (op = .restart .volatile → NoInFlightEntry p st) := by
  cases op <;> simp [Op.RestartAsDocumented]

theorem represents_content {file : File} (hf : file.HasContent (maxOffset p) m) :
    Represents p file.content st ↔ Represents p m st := by
  rcases hf with ⟨-, hbytes⟩
  constructor
  · intro h
    exact h.congr fun x hx => (hbytes x hx).symm
  · intro h
    exact h.congr hbytes

theorem jointStep_file_none {s : Joint} {req : Request} {item index : ℕ}
    {persistence : Persistence} {buf : List UInt8}
    (hop : req.op = .write item index persistence buf) (hitem : dmKeyNumKeys ≤ item) :
    (jointStep p s req).file = none := by
  have hnone : DmItem.ofCode? item = none := DmItem.ofCode?_eq_none.2 hitem
  cases hfile : s.file with
  | none =>
      simp [jointStep, hfile]
  | some file =>
      simp [jointStep, hfile, hop, fileStep, fileWrite, hnone]

theorem jointStep_refines_iff {s : Joint} (req : Request) (hsize : Sized p s) (hs : Refines p s) :
    (Refines p (jointStep p s req) ↔ AsDocumented p s req) ∧
      (AsDocumented p s req → Sized p (jointStep p s req)) := by
  rcases hs with ⟨-, -, hram, file, hfile, hrep⟩
  have hf : file.HasContent (maxOffset p) file.content := ⟨hsize.file file hfile, fun _ _ => rfl⟩
  rcases ramStep_refines hsize.ram hram req.notCompat with ⟨hramReply, hramSize, hramRep⟩
  by_cases hkey : ∀ item index persistence buf, req.op = .write item index persistence buf →
      item < dmKeyNumKeys
  · rcases fileStep_refines hf hrep req.stack req.notCompat hkey with
      ⟨file', m', hserved, hcontent, hfileRep⟩
    rw [← represents_content hcontent] at hfileRep
    have hstep : s.file.bind (fun file => fileStep p req.stack file req.op) =
        some ((s.store.step p req.op).1, file') := by
      simp [hfile, hserved]
    have hnext : (jointStep p s req).file = some file' := by
      simp [jointStep, hstep]
    rw [AsDocumented, ← restartAsDocumented_iff]
    refine ⟨⟨?_, ?_⟩, ?_⟩
    · intro hrefines
      exact ⟨hkey, hramRep.1 hrefines.ram⟩
    · rintro ⟨-, hrestart⟩
      refine ⟨hramReply, ?_, hramRep.2 hrestart, file', hnext, hfileRep.2 hrestart⟩
      simp [jointStep, hstep]
    · intro _
      refine ⟨hramSize, ?_⟩
      intro file'' h
      rw [hnext] at h
      cases h
      exact hcontent.1
  · have hbad : ¬AsDocumented p s req := fun hdoc => hkey hdoc.1
    refine ⟨iff_of_false ?_ hbad, fun hdoc => absurd hdoc hbad⟩
    intro hrefines
    push Not at hkey
    rcases hkey with ⟨item, index, persistence, buf, hop, hitem⟩
    rcases hrefines.file with ⟨file', hfile', -⟩
    rw [jointStep_file_none hop hitem] at hfile'
    cases hfile'

/-! ## The first state -/

/-- The file that `_file_initialize` leaves: zeros, and the compat entry at the end. -/
theorem fileInitialize_eq (p : Platform) :
    ∃ file, fileInitialize p = some file ∧ file.HasContent (maxOffset p)
      (store (fun _ => 0) (slot p .compat 0)
        (header dmCompatKey.length .powerOnReset ++ dmCompatKey)) := by
  refine ⟨_, rfl, ?_⟩
  refine ⟨?_, fun _ _ => rfl⟩
  show max 0 (slot p .compat 0 + (header dmCompatKey.length .powerOnReset ++ dmCompatKey).length) =
    maxOffset p
  rw [slot_zero, Nat.zero_max]
  rfl

theorem represents_zero (p : Platform) : Represents p (fun _ => 0) fun _ _ => none := by
  intro k _ i _
  rfl

theorem jointInit_refines (p : Platform) : Refines p (jointInit p) ∧ Sized p (jointInit p) := by
  rcases fileInitialize_eq p with ⟨file, hfile, hcontent⟩
  have hrep : Represents p file.content fun _ _ => none := by
    rw [represents_content hcontent]
    have hfits : dmCompatKey.length ≤ DmItem.compat.dataSize := by decide
    have hcompat :=
      (represents_zero p).write (DmItem.compat.perItemMaxIndex_pos p) .powerOnReset hfits
    intro k hk i hi
    -- the compat entry is not among those that are compared
    simpa [Store.set, hk] using hcompat k hk i hi
  refine ⟨⟨rfl, rfl, represents_zero p, file, hfile, hrep⟩, rfl, ?_⟩
  intro file' h
  have : file' = file := by
    simpa [jointInit, hfile] using h.symm
  rw [this]
  exact hcontent.1

/-! ## Runs -/

/-- Along every run, both backends do what the store does exactly as long as each request is one the
code serves as documented: no write names an item that is no key, no restart finds an in-flight
entry with the reason `DM_INIT_REASON_VOLATILE`. -/
theorem backends_refine_store_iff (p : Platform) (reqs : List Request) :
    (∀ s ∈ visited (jointStep p) (jointInit p) reqs, Refines p s) ↔
      AllSteps (jointStep p) (AsDocumented p) (jointInit p) reqs := by
  rcases jointInit_refines p with ⟨hrefines, hsize⟩
  exact forall_visited_iff_allSteps_of_invariant
    (fun s req hj hp => (jointStep_refines_iff req hj hp).1)
    (fun s req hj hp => (jointStep_refines_iff req hj hp).2) hsize hrefines

/-- A write to an item that is no key. -/
def strayWrite : Request where
  op := .write dmKeyNumKeys 0 .powerOnReset [1]
  stack := fun _ => 0
  notCompat := by
    show dmKeyNumKeys ≠ DmItem.compat.code
    decide

/-- The RAM backend turns it down as the store does, the file backend has no defined result. -/
theorem strayWrite_not_refined :
    (jointStep .nuttx (jointInit .nuttx) strayWrite).ramReply = .code (-1) ∧
      ¬∀ s ∈ visited (jointStep .nuttx) (jointInit .nuttx) [strayWrite], Refines .nuttx s := by
  refine ⟨rfl, ?_⟩
  intro h
  have hlast : Refines .nuttx (jointStep .nuttx (jointInit .nuttx) strayWrite) := by
    apply h
    simp
  rcases hlast.file with ⟨file, hfile, -⟩
  have hlost : (jointStep .nuttx (jointInit .nuttx) strayWrite).file = none :=
    jointStep_file_none (show strayWrite.op = .write dmKeyNumKeys 0 .powerOnReset [1] from rfl)
      (le_refl _)
  rw [hlost] at hfile
  cases hfile

end Dataman
end DtPhm
