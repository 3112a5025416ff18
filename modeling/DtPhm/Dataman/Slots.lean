import Mathlib.Tactic.IntervalCases
import DtPhm.Dataman.Backends

/-!
# Slots — where the entries lie, and what the loops of the backends do to them

Every entry has a slot of its own in the byte array.  The slots do not overlap (`slot_inj`), so an
operation on one of them leaves the bytes of the others alone.  The loops of `_ram_clear`,
`_ram_restart`, `_file_clear` and `_file_restart` are sweeps over the slots of one key; `Swept` says
what such sweeps do to the bytes of every slot.
-/

namespace DtPhm
namespace Dataman

open Lib

/-! ## Keys and numbers -/

theorem DmItem.ofCode?_eq_some {n : ℕ} {k : DmItem} (h : DmItem.ofCode? n = some k) :
    n = k.code := by
  have hn : n < dmKeyNumKeys := by
    by_contra hge
    rw [DmItem.ofCode?_eq_none.2 (Nat.le_of_not_lt hge)] at h
    cases h
  unfold dmKeyNumKeys at hn
  interval_cases n <;> cases h <;> rfl

theorem DmItem.code_inj {k k' : DmItem} (h : k.code = k'.code) : k = k' := by
  have := congrArg DmItem.ofCode? h
  simpa using this

theorem DmItem.code_le_compat (k : DmItem) : k.code ≤ DmItem.compat.code := by
  cases k <;> decide

theorem DmItem.perItemMaxIndex_pos (p : Platform) (k : DmItem) : 0 < k.perItemMaxIndex p := by
  cases k <;> cases p <;> decide

theorem DmItem.dataSize_lt (k : DmItem) : k.dataSize < 256 := by
  cases k <;> decide

theorem DmItem.perItemSize_sub (k : DmItem) : k.perItemSize - dmSectorHdrSize = k.dataSize :=
  Nat.add_sub_cancel ..

theorem DmItem.hdr_le_perItemSize (k : DmItem) : dmSectorHdrSize ≤ k.perItemSize :=
  Nat.le_add_left ..

theorem DmItem.two_le_perItemSize (k : DmItem) : 2 ≤ k.perItemSize :=
  le_trans (by decide) k.hdr_le_perItemSize

theorem DmItem.perItemSize_ne_zero (k : DmItem) : k.perItemSize ≠ 0 := by
  have := k.two_le_perItemSize
  omega

/-! ## Slots -/

/-- The offset of an entry. -/
def slot (p : Platform) (k : DmItem) (i : ℕ) : ℕ := gKeyOffsets p k.code + i * k.perItemSize

theorem slot_zero (p : Platform) (k : DmItem) : slot p k 0 = gKeyOffsets p k.code := by
  simp [slot]

theorem calculateOffset_code (p : Platform) (k : DmItem) (i : ℕ) :
    calculateOffset p k.code i = if k.perItemMaxIndex p ≤ i then none else some (slot p k i) := by
  simp [calculateOffset, slot]

theorem gKeyOffsets_succ (p : Platform) (k : DmItem) :
    gKeyOffsets p (k.code + 1) = gKeyOffsets p k.code + k.perItemMaxIndex p * k.perItemSize := by
  simp [gKeyOffsets]

theorem gKeyOffsets_mono (p : Platform) : Monotone (gKeyOffsets p) := by
  apply monotone_nat_of_le_succ
  intro i
  rw [gKeyOffsets]
  split
  · exact Nat.le_add_right ..
  · exact le_refl _

theorem slot_add_size_le {p : Platform} {k : DmItem} {i : ℕ} (hi : i < k.perItemMaxIndex p) :
    slot p k i + k.perItemSize ≤ gKeyOffsets p (k.code + 1) := by
  have hmul : (i + 1) * k.perItemSize ≤ k.perItemMaxIndex p * k.perItemSize :=
    Nat.mul_le_mul_right _ hi
  rw [gKeyOffsets_succ, slot]
  rw [Nat.succ_mul] at hmul
  omega

theorem key_end_le (p : Platform) (k : DmItem) :
    gKeyOffsets p k.code + k.perItemMaxIndex p * k.perItemSize ≤ maxOffset p := by
  calc
    gKeyOffsets p k.code + k.perItemMaxIndex p * k.perItemSize
        = gKeyOffsets p (k.code + 1) := (gKeyOffsets_succ p k).symm
    _ ≤ gKeyOffsets p (DmItem.compat.code + 1) :=
          gKeyOffsets_mono p (Nat.succ_le_succ k.code_le_compat)
    _ = maxOffset p := gKeyOffsets_succ p .compat

theorem slot_add_size_le_maxOffset {p : Platform} {k : DmItem} {i : ℕ}
    (hi : i < k.perItemMaxIndex p) : slot p k i + k.perItemSize ≤ maxOffset p := by
  calc
    slot p k i + k.perItemSize
        ≤ gKeyOffsets p (k.code + 1) := slot_add_size_le hi
    _ = gKeyOffsets p k.code + k.perItemMaxIndex p * k.perItemSize := gKeyOffsets_succ p k
    _ ≤ maxOffset p := key_end_le p k

theorem slot_lt_slot {p : Platform} {k k' : DmItem} {i i' j : ℕ} (hi : i < k.perItemMaxIndex p)
    (hj : j < k.perItemSize) (h : k.code < k'.code) : slot p k i + j < slot p k' i' := by
  calc
    slot p k i + j
        < slot p k i + k.perItemSize := Nat.add_lt_add_left hj _
    _ ≤ gKeyOffsets p (k.code + 1) := slot_add_size_le hi
    _ ≤ gKeyOffsets p k'.code := gKeyOffsets_mono p h
    _ ≤ slot p k' i' := Nat.le_add_right ..

theorem slot_inj {p : Platform} {k k' : DmItem} {i i' j j' : ℕ} (hi : i < k.perItemMaxIndex p)
    (hi' : i' < k'.perItemMaxIndex p) (hj : j < k.perItemSize) (hj' : j' < k'.perItemSize)
    (h : slot p k i + j = slot p k' i' + j') : k = k' ∧ i = i' ∧ j = j' := by
  rcases Nat.lt_trichotomy k.code k'.code with hlt | heq | hgt
  · have : slot p k i + j < slot p k' i' := slot_lt_slot hi hj hlt
    omega
  · obtain rfl := DmItem.code_inj heq
    have hsum : i * k.perItemSize + j = i' * k.perItemSize + j' := by
      unfold slot at h
      omega
    -- quotient and remainder by the size of a slot
    have hdiv : ∀ n r : ℕ, r < k.perItemSize → (n * k.perItemSize + r) / k.perItemSize = n := by
      intro n r hr
      rw [Nat.mul_comm, Nat.mul_add_div (by omega), Nat.div_eq_of_lt hr, Nat.add_zero]
    have hquot : i = i' := by
      rw [← hdiv i j hj, hsum, hdiv i' j' hj']
    subst hquot
    exact ⟨rfl, rfl, by omega⟩
  · have : slot p k' i' + j' < slot p k i := slot_lt_slot hi' hj' hgt
    omega

/-! ## Sweeps over keys -/

/-- A sweep over the slots of one key. -/
def sweepKey (p : Platform) (drop : UInt8 → UInt8 → Bool) (m : Mem) (k : DmItem) : Mem :=
  sweep drop k.perItemSize (k.perItemMaxIndex p) (gKeyOffsets p k.code) m

/-- The bytes of the slots after sweeping the keys in `ks`: the length byte of an entry that meets
`drop` is zero, all other bytes are as before. -/
def Swept (p : Platform) (drop : UInt8 → UInt8 → Bool) (ks : List DmItem) (m m' : Mem) : Prop :=
  ∀ k i, i < k.perItemMaxIndex p → ∀ j < k.perItemSize,
    m' (slot p k i + j) =
      if k ∈ ks ∧ j = 0 ∧ drop (m (slot p k i)) (m (slot p k i + 1)) then 0
      else m (slot p k i + j)

variable {p : Platform} {drop : UInt8 → UInt8 → Bool}

theorem swept_sweepKey (k : DmItem) (m : Mem) : Swept p drop [k] m (sweepKey p drop m k) := by
  intro k' i hi j hj
  by_cases hhead : k' = k ∧ j = 0
  · rcases hhead with ⟨rfl, rfl⟩
    have hslot : sweepKey p drop m k' (slot p k' i) =
        if drop (m (slot p k' i)) (m (slot p k' i + 1)) then 0 else m (slot p k' i) :=
      sweep_slot k'.two_le_perItemSize hi
    simpa using hslot
  · have hother : ∀ i' < k.perItemMaxIndex p,
        slot p k' i + j ≠ gKeyOffsets p k.code + i' * k.perItemSize := by
      intro i' hi' heq
      have hpos : 0 < k.perItemSize := by
        have := k.two_le_perItemSize
        omega
      rcases slot_inj hi hi' hj hpos heq with ⟨hk, -, hj0⟩
      exact hhead ⟨hk, hj0⟩
    have hkeep : sweepKey p drop m k (slot p k' i + j) = m (slot p k' i + j) :=
      sweep_of_ne hother
    have hcond : ¬(k' ∈ [k] ∧ j = 0 ∧ drop (m (slot p k' i)) (m (slot p k' i + 1)) = true) := by
      intro hc
      exact hhead ⟨by simpa using hc.1, hc.2.1⟩
    rw [hkeep, if_neg hcond]

theorem swept_foldl {ks : List DmItem} (hnd : ks.Nodup) :
    ∀ m : Mem, Swept p drop ks m (ks.foldl (sweepKey p drop) m) := by
  induction ks with
  | nil =>
      intro m k i _ j _
      simp
  | cons k₀ ks ih =>
      intro m k i hi j hj
      rcases List.nodup_cons.1 hnd with ⟨hfresh, hnd'⟩
      have h₁ : 0 < k.perItemSize := by
        have := k.two_le_perItemSize
        omega
      have h₂ : 1 < k.perItemSize := k.two_le_perItemSize
      have hkey : Swept p drop [k₀] m (sweepKey p drop m k₀) := swept_sweepKey k₀ m
      have hfirst := hkey k i hi
      have hrest := ih hnd' (sweepKey p drop m k₀) k i hi j hj
      have hlen := hfirst 0 h₁
      have hper := hfirst 1 h₂
      have hj' := hfirst j hj
      simp only [Nat.add_zero, List.mem_singleton, Nat.one_ne_zero, false_and, and_false,
        if_false] at hlen hper hj'
      rw [List.foldl_cons, hrest, hper, hj', hlen]
      by_cases hk : k = k₀
      · subst hk
        simp [hfresh]
      · simp [hk]

/-! ## The loops of the RAM backend -/

theorem ramClearLoop_eq {size : ℕ} (hsize : 0 < size) : ∀ {n offset : ℕ} {ram : Ram},
    offset + n * size ≤ ram.size →
      ramClearLoop size n offset ram =
        (.code 0, { ram with data := sweep (fun _ _ => true) size n offset ram.data }) := by
  intro n
  induction n with
  | zero =>
      intro offset ram _
      rfl
  | succ n ih =>
      intro offset ram hin
      rw [Nat.succ_mul] at hin
      have hend : ram.pastEnd offset = false := by
        simp only [Ram.pastEnd, decide_eq_false_iff_not]
        omega
      rw [ramClearLoop, hend, if_neg (by simp)]
      apply ih
      show offset + size + n * size ≤ ram.size
      omega

theorem ramRestartLoop_eq (reason : ResetReason) (size : ℕ) : ∀ {n buffer : ℕ} {ram : Ram},
    ramRestartLoop reason size n buffer ram =
      (buffer + n * size,
        { ram with data := sweep (clearEntry reason) size n buffer ram.data }) := by
  intro n
  induction n with
  | zero =>
      intro buffer ram
      simp [ramRestartLoop, sweep]
  | succ n ih =>
      intro buffer ram
      have hpos : buffer + size + n * size = buffer + (n + 1) * size := by ring
      rw [ramRestartLoop, ih, hpos]
      rfl

/-- The pointer of `_ram_restart` reaches each key at its offset. -/
theorem ramRestart_eq (ram : Ram) (reason : ResetReason) :
    ramRestart p ram reason =
      (.code 0,
        { ram with data := DmItem.keys.foldl (sweepKey p (clearEntry reason)) ram.data }) := by
  simp only [ramRestart, DmItem.keys, ramRestartKeys, ramRestartLoop_eq, List.foldl_cons,
    List.foldl_nil]
  rfl

/-! ## The loops of the file backend -/

theorem fileClearLoop_eq {size len : ℕ} (hsize : 2 ≤ size) :
    ∀ {n offset : ℕ} {file : File} {m : Mem},
    file.HasContent len m → offset + n * size ≤ len →
      ∃ file', fileClearLoop size n offset file = (.code 0, file') ∧
        file'.HasContent len (sweep (fun b _ => decide (b ≠ 0)) size n offset m) := by
  intro n
  induction n with
  | zero =>
      intro offset file m hf _
      exact ⟨file, rfl, hf⟩
  | succ n ih =>
      intro offset file m hf hin
      rw [Nat.succ_mul] at hin
      have hread : file.read offset 1 = [m offset] := by
        rw [hf.read (by omega)]
        rfl
      have hnext : File.HasContent _ len (clearHead (fun b _ => decide (b ≠ 0)) m offset) :=
        hf.clearHead (by omega)
      rcases ih hnext (show offset + size + n * size ≤ len by omega) with ⟨file', hrun, hcontent⟩
      refine ⟨file', ?_, hcontent⟩
      rw [← hrun, fileClearLoop, hread]
      simp

theorem fileRestartLoop_eq (reason : ResetReason) {size len : ℕ} (hsize : 2 ≤ size) :
    ∀ {n offset : ℕ} {file : File} {m : Mem},
    file.HasContent len m → offset + n * size ≤ len →
      ∃ file', fileRestartLoop reason size n offset file = .ok (offset + n * size, file') ∧
        file'.HasContent len (sweep (clearEntry reason) size n offset m) := by
  intro n
  induction n with
  | zero =>
      intro offset file m hf _
      exact ⟨file, by simp [fileRestartLoop], hf⟩
  | succ n ih =>
      intro offset file m hf hin
      rw [Nat.succ_mul] at hin
      have hread : file.read offset 2 = [m offset, m (offset + 1)] := by
        rw [hf.read (by omega)]
        rfl
      have hnext : File.HasContent _ len (clearHead (clearEntry reason) m offset) :=
        hf.clearHead (by omega)
      rcases ih hnext (show offset + size + n * size ≤ len by omega) with ⟨file', hrun, hcontent⟩
      have hpos : offset + (n + 1) * size = offset + size + n * size := by ring
      refine ⟨file', ?_, hcontent⟩
      rw [fileRestartLoop, hread, hpos]
      exact hrun

/-- The outer loop of `_file_restart`, from the first slot of the key it starts with. -/
theorem fileRestartKeys_eq (reason : ResetReason) {c : ℕ} :
    ∀ {ks : List DmItem} {file : File} {m : Mem}, ks = DmItem.keys.drop c →
      file.HasContent (maxOffset p) m →
      ∃ s, fileRestartKeys p reason ks (gKeyOffsets p c, file) = .ok s ∧
        s.2.HasContent (maxOffset p) (ks.foldl (sweepKey p (clearEntry reason)) m) := by
  intro ks
  induction ks generalizing c with
  | nil =>
      intro file m _ hf
      exact ⟨_, rfl, hf⟩
  | cons k ks ih =>
      intro file m hks hf
      have hc : DmItem.ofCode? c = some k := by
        have := congrArg List.head? hks
        simpa [DmItem.ofCode?] using this.symm
      obtain rfl := DmItem.ofCode?_eq_some hc
      have htail : ks = DmItem.keys.drop (k.code + 1) := by
        have := congrArg List.tail hks
        simpa using this
      rcases fileRestartLoop_eq reason k.two_le_perItemSize hf (key_end_le p k) with ⟨file', hrun,
        hf'⟩
      rcases ih htail hf' with ⟨s, hkeys, hs⟩
      refine ⟨s, ?_, hs⟩
      simp only [fileRestartKeys, hrun, ← gKeyOffsets_succ]
      exact hkeys

theorem fileRestart_eq (reason : ResetReason) {file : File} {m : Mem}
    (hf : file.HasContent (maxOffset p) m) :
    ∃ file', fileRestart p file reason = (.code 0, file') ∧
      file'.HasContent (maxOffset p) (DmItem.keys.foldl (sweepKey p (clearEntry reason)) m) := by
  have hall : DmItem.keys = DmItem.keys.drop 0 := rfl
  rcases fileRestartKeys_eq reason hall hf with ⟨s, hrun, hs⟩
  have hrun' : fileRestartKeys p reason DmItem.keys (0, file) = .ok s := hrun
  exact ⟨s.2, by rw [fileRestart, hrun'], hs⟩

end Dataman
end DtPhm
