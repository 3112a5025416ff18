import DtPhm.Platform.Checksums
import DtPhm.Rc.CrsfStream

/-!
# CrsfDamage — CRSF frames that arrive with other bits than were sent

The checksum of a frame covers its type and its payload, and a generator with an even number of
terms notices every burst of up to eight bits and every odd number of bits.

* `DamagedTo` — the header is as it was sent, and the bits behind it are not;
* `not_hasCrc_of_damagedTo` — the checksum of such a frame does not fit;
* `crsf_damaged_stream` — from a stream with damaged frames the others are accepted.
-/

namespace DtPhm
namespace Rc
namespace Crsf

open Lib Lib.Crc

/-- A frame arrives with the address and the length that were sent, and with a difference behind
them. -/
structure DamagedTo (f f' : List UInt8) : Prop where
  header : f'.take 2 = f.take 2
  length : f'.length = f.length
  noticed : Noticed 8 (difference (f.drop 2) (f'.drop 2))

theorem exists_of_four_le {f : List UInt8} (h : 4 ≤ f.length) :
    ∃ m c, f.drop 2 = m ++ [c] ∧ (HasCrc f ↔ c = crc8DvbS2Buf m) := by
  have hne : f.drop 2 ≠ [] := by
    intro hnil
    have hlen := congrArg List.length hnil
    rw [List.length_drop, List.length_nil] at hlen
    omega
  have hlast : f.getLast? = some ((f.drop 2).getLast hne) := by
    rw [← List.getLast?_eq_getLast_of_ne_nil hne, List.getLast?_drop, if_neg (by omega)]
  refine ⟨(f.drop 2).dropLast, (f.drop 2).getLast hne, (List.dropLast_append_getLast hne).symm, ?_⟩
  rw [HasCrc, hlast, Option.some.injEq]

theorem crc8DvbS2Buf_eq_iff {c : UInt8} {m : List UInt8} :
    c = crc8DvbS2Buf m ↔ c.toBitVec = remainder 0xD5#8 0#8 (highFirst m) := by
  have hbuf : (crc8DvbS2Buf m).toBitVec = remainder 0xD5#8 0#8 (highFirst m) :=
    foldl_eq_remainder UInt8.toBitVec Platform.crsf_byte 0 m
  rw [← hbuf, UInt8.toBitVec_inj]

theorem not_hasCrc_of_damagedTo {f f' : List UInt8} (hleast : 4 ≤ f.length) (hf : HasCrc f)
    (h : DamagedTo f f') : ¬HasCrc f' := by
  obtain ⟨m, c, hdrop, hcrc⟩ := exists_of_four_le hleast
  obtain ⟨m', c', hdrop', hcrc'⟩ := exists_of_four_le (hleast.trans_eq h.length.symm)
  have hlen : m.length = m'.length := by
    have hlens := congrArg List.length hdrop
    have hlens' := congrArg List.length hdrop'
    rw [List.length_drop, List.length_append, List.length_singleton] at hlens hlens'
    have := h.length
    omega
  have hbits : (highFirst m).length = (highFirst m').length := by
    rw [length_highFirst, length_highFirst, hlen]
  have hsent := crc8DvbS2Buf_eq_iff.1 (hcrc.1 hf)
  rw [hcrc', crc8DvbS2Buf_eq_iff, fits_iff_dvd 0xD5#8 0#8 hbits hsent]
  apply not_dvd_of_noticed (by decide) (by decide)
  rw [← highFirst_singleton, ← highFirst_singleton, ← highFirst_append, ← highFirst_append, ← hdrop,
    ← hdrop']
  exact h.noticed

theorem DamagedTo.wellFormed {f f' : List UInt8} (h : DamagedTo f f') (hf : WellFormed f) :
    WellFormed f' := by
  have hheader : headerLength f' = headerLength f := by
    have htake := congrArg (fun l => l.getD 1 0) h.header
    simpa [headerLength, List.getD_eq_getElem?_getD, List.getElem?_take] using htake
  refine ⟨hf.least.trans_eq h.length.symm, h.length.trans_le hf.most, ?_⟩
  rw [hheader, hf.length, h.length]

/-- From a stream of frames, of which some are damaged on the way, and read in any way, the RC
frames that are not damaged are accepted in their order, but for some that lie in its last bytes. -/
theorem crsf_damaged_stream (frames : List (List UInt8 × List UInt8))
    (hsent : ∀ f ∈ frames, WellFormed f.1 ∧ HasCrc f.1)
    (hreceived : ∀ f ∈ frames, f.2 = f.1 ∨ DamagedTo f.1 f.2)
    (reads : List (List UInt8)) (hreads : reads.flatten = (frames.map Prod.snd).flatten) :
    ∃ k, outputs Parser.afterRead acceptedIn ⟨[], .synced⟩ reads =
        ((frames.take k).filter fun f => decide (f.2 = f.1 ∧ IsRcFrame f.1)).map Prod.fst ∧
      ((frames.drop k).map Prod.snd).flatten.length < frameSizeMax := by
  have hwell : ∀ f ∈ frames.map Prod.snd, WellFormed f := by
    intro f hf
    obtain ⟨⟨sent, received⟩, hmem, rfl⟩ := List.mem_map.1 hf
    rcases hreceived _ hmem with heq | hdamaged
    · exact heq ▸ (hsent _ hmem).1
    · exact hdamaged.wellFormed (hsent _ hmem).1
  obtain ⟨k, hk, hholds⟩ := holds_reads reads ⟨[], .synced⟩ (frames.map Prod.snd)
    ⟨rfl, hreads, by decide, hwell⟩
  refine ⟨k, ?_, ?_⟩
  · rw [hk, rcFrames, ← List.map_take, List.filter_map]
    -- the frames that fit are those that arrived as they were sent
    have hfilter : ∀ f ∈ frames.take k,
        decide (IsRcFrame f.2 ∧ HasCrc f.2) = decide (f.2 = f.1 ∧ IsRcFrame f.1) := by
      intro f hf
      have hmem := List.mem_of_mem_take hf
      obtain ⟨hf₁, hcrc⟩ := hsent f hmem
      rcases hreceived f hmem with heq | hdamaged
      · simp [heq, hcrc]
      · have hno := not_hasCrc_of_damagedTo hf₁.least hcrc hdamaged
        have hne : f.2 ≠ f.1 := fun heq => hno (heq ▸ hcrc)
        simp [hno, hne]
    have hsame : (frames.take k).filter ((fun f => decide (IsRcFrame f ∧ HasCrc f)) ∘ Prod.snd) =
        (frames.take k).filter fun f => decide (f.2 = f.1 ∧ IsRcFrame f.1) :=
      List.filter_congr hfilter
    rw [hsame]
    apply List.map_congr_left
    intro f hf
    have hin := (List.mem_filter.1 hf).2
    rw [decide_eq_true_eq] at hin
    exact hin.1
  · rw [← List.map_drop] at hholds
    rw [← hholds.stream, List.append_nil]
    exact hholds.room

/-- `channelsFrame` with one bit of its payload the other way. -/
def flippedFrame : List UInt8 := channelsFrame.set 7 0x04

/-- One RC frame among damaged ones, read in two parts. -/
theorem crsf_damaged_stream_channels :
    outputs Parser.afterRead acceptedIn ⟨[], .synced⟩
      [flippedFrame ++ channelsFrame.take 20, channelsFrame.drop 20 ++ flippedFrame ++
        flippedFrame] =
      [channelsFrame] := by
  have hwell : WellFormed channelsFrame := ⟨by decide, by decide, by decide⟩
  have hcrc : HasCrc channelsFrame := by decide +kernel
  have hdamaged : DamagedTo channelsFrame flippedFrame :=
    ⟨by decide, by decide, Or.inr (by decide +kernel)⟩
  obtain ⟨frames, hframes⟩ : ∃ frames, frames = [(channelsFrame, flippedFrame),
      (channelsFrame, channelsFrame), (channelsFrame, flippedFrame),
        (channelsFrame, flippedFrame)] :=
    ⟨_, rfl⟩
  obtain ⟨k, hk, hlength⟩ := crsf_damaged_stream frames
    (by subst hframes; simp [hwell, hcrc]) (by subst hframes; simp [hdamaged])
    [flippedFrame ++ channelsFrame.take 20, channelsFrame.drop 20 ++ flippedFrame ++ flippedFrame]
    (by subst hframes; decide +kernel)
  rw [hk]
  subst hframes
  match k with
  | 0 => exact absurd hlength (by decide +kernel)
  | 1 => exact absurd hlength (by decide +kernel)
  | 2 => exact absurd hlength (by decide +kernel)
  | 3 => decide +kernel
  | j + 4 =>
      rw [List.take_of_length_le (Nat.le_add_left 4 j)]
      decide +kernel

end Crsf
end Rc
end DtPhm
