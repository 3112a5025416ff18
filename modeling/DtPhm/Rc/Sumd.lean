import DtPhm.Lib.Run
import DtPhm.Lib.Bytes
import Mathlib.Data.List.GetD

/-!
# Sumd — the Graupner HoTT input of the RC library

The decoder takes one byte at a time.  A frame is a header, a status, the number of channels, two
bytes for each channel and a trailer; the status tells the two variants apart, of which one is
checked by a CRC of 16 bits and the other by a sum of 8 bits behind three more bytes.

* `sumdCrc16`, `sumdCrc8` — the two checksums;
* `Decoder`, `sumdDecode` — one byte, with the elements of the data array that are read;
* `content`, `trailer` — the frame of a list of channel words;
* `Decodes` — what a frame should do;
* `frame_run` — what a frame does;
* `sumd_decodes_iff` — the frames for which these agree.

The packet is the packed structure as a memory: the data array is at 3, and its first element is not
used, so that the last byte of a frame with all the channels is stored in the field behind the
array.
-/

namespace DtPhm
namespace Rc
namespace Sumd

open Lib

/-! ## Checksums -/

/-- `SUMD_MAX_CHANNELS`. -/
def maxChannels : ℕ := 32

/-- `SUMD_HEADER_ID`. -/
def headerId : UInt8 := 0xA8

/-- `SUMD_ID_SUMH`. -/
def idSumh : UInt8 := 0x00

/-- `SUMD_ID_SUMD`. -/
def idSumd : UInt8 := 0x01

/-- `SUMD_ID_FAILSAFE`. -/
def idFailsafe : UInt8 := 0x81

/-- One turn of the loop of `sumd_crc16`. -/
def crc16Turn (crc : UInt16) : UInt16 :=
  if crc &&& 0x8000 ≠ 0 then (crc <<< 1) ^^^ 0x1021 else crc <<< 1

/-- `sumd_crc16`. -/
def sumdCrc16 (crc : UInt16) (value : UInt8) : UInt16 :=
  crc16Turn^[8] (crc ^^^ (value.toUInt16 <<< 8))

/-- `sumd_crc8`. -/
def sumdCrc8 (crc value : UInt8) : UInt8 := crc + value

/-! ## The decoder -/

/-- `SUMD_DECODE_STATE`. -/
inductive DecodeState
  | unsynced
  | gotHeader
  | gotState
  | gotLen
  | gotData
  | gotCrc
  | gotCrc16Byte1
  | gotCrc16Byte2
  deriving DecidableEq, Repr

/-- The static variables. -/
structure Decoder where
  decodeState : DecodeState
  rxlen : UInt8
  packet : Mem
  crc8 : UInt8
  crc16 : UInt16
  sumd : Bool
  crcOk : Bool

/-- `_rxpacket.length`. -/
def Decoder.length (d : Decoder) : UInt8 := d.packet 2

/-- Where `sumd_data` and the fields behind it are. -/
def sumdDataAt : ℕ := 3

def crc16HighAt : ℕ := sumdDataAt + maxChannels * 2

def crc16LowAt : ℕ := crc16HighAt + 1

def telemetryAt : ℕ := crc16LowAt + 1

def crc8At : ℕ := telemetryAt + 1

/-- The variables of the caller. -/
structure Output where
  rssi : UInt8
  rxCount : UInt8
  channelCount : UInt16
  channels : ℕ → UInt16
  failsafe : Bool

/-- The decoder and the variables of the caller after a byte, the return value, and the elements of
`sumd_data` that were read. -/
structure Decoded where
  decoder : Decoder
  out : Output
  ret : ℕ
  reads : List ℕ := []

/-- A byte goes into the checksum of the variant. -/
def Decoder.accumulate (d : Decoder) (byte : UInt8) : Decoder :=
  if d.sumd then { d with crc16 := sumdCrc16 d.crc16 byte }
  else { d with crc8 := sumdCrc8 d.crc8 byte }

/-- The two bytes of word `i`, as they are read. -/
def wordReads (i : ℕ) : List ℕ := [i * 2 + 1, i * 2 + 2]

def word (packet : Mem) (i : ℕ) : UInt16 :=
  ((packet (sumdDataAt + (i * 2 + 1))).toUInt16 <<< 8) ||| (packet
    (sumdDataAt + (i * 2 + 2))).toUInt16

/-- The words from which the channels are taken: the first four come in another order, and all
of them come in every frame. -/
def sources (length : ℕ) : List (ℕ × ℕ) :=
  [(0, 1), (1, 2), (2, 0), (3, 3)] ++ (List.range' 4 (length - 4)).map fun i => (i, i)

/-- Channel `s.1` is taken from word `s.2`. -/
def unpack (packet : Mem) (channels : ℕ → UInt16) (s : ℕ × ℕ) : ℕ → UInt16 :=
  Function.update channels s.1 (word packet s.2 >>> 3)

/-- A frame with a correct checksum. -/
def decodeFrame (d : Decoder) (out : Output) (maxChanCount : UInt16) : Decoded :=
  let length := if maxChanCount < d.length.toUInt16 then maxChanCount.toUInt8 else d.length
  { decoder := { d with
      decodeState := .unsynced
      packet := Function.update d.packet 2 length }
    out :=
      { rssi := 100
        rxCount := out.rxCount + 1
        failsafe := d.packet 1 == idFailsafe
        channelCount := length.toUInt16
        channels := (sources length.toNat).foldl (unpack d.packet) out.channels }
    ret := 0
    reads := (sources length.toNat).flatMap fun s => wordReads s.2 }

/-- The last byte of a frame. -/
def checkFrame (d : Decoder) (out : Output) (maxChanCount : UInt16) (byte : UInt8) : Decoded :=
  let d :=
    if d.sumd then
      let d := { d with packet := Function.update d.packet crc16LowAt byte }
      if d.crc16.toNat =
          ((d.packet crc16HighAt).toUInt16 <<< 8 : UInt16).toNat + (d.packet crc16LowAt).toNat then
        { d with crcOk := true }
      else d
    else
      let d := { d with packet := Function.update d.packet crc8At byte }
      if d.crc8 = d.packet crc8At then { d with crcOk := true } else d
  if d.crcOk then decodeFrame d out maxChanCount
  else { decoder := { d with decodeState := .unsynced }, out := out, ret := 4 }

/-- A byte of the data; the first one goes to `sumd_data[1]`. -/
def takeData (d : Decoder) (byte : UInt8) : Decoder :=
  let d : Decoder :=
    { d with packet := Function.update d.packet (sumdDataAt + d.rxlen.toNat) byte }
  let d : Decoder := { d.accumulate byte with rxlen := d.rxlen + 1 }
  if d.rxlen.toNat ≤ d.length.toNat * 2 then d else { d with decodeState := .gotData }

/-- `sumd_decode`. -/
def sumdDecode (d : Decoder) (out : Output) (maxChanCount : UInt16) (byte : UInt8) : Decoded :=
  match d.decodeState with
  | .unsynced =>
      if byte = headerId then
        { decoder :=
            { decodeState := .gotHeader
              rxlen := 0
              packet := Function.update d.packet 0 byte
              crc8 := sumdCrc8 0 byte
              crc16 := sumdCrc16 0 byte
              sumd := true
              crcOk := false }
          out := out
          ret := 1 }
      else { decoder := d, out := out, ret := 3 }
  | .gotHeader =>
      if byte = idSumd ∨ byte = idFailsafe ∨ byte = idSumh then
        let d :=
          { d with
            packet := Function.update d.packet 1 byte
            sumd := d.sumd && byte != idSumh }
        { decoder := { d.accumulate byte with decodeState := .gotState }, out := out, ret := 1 }
      else { decoder := { d with decodeState := .unsynced }, out := out, ret := 1 }
  | .gotState =>
      if 2 ≤ byte.toNat ∧ byte.toNat ≤ maxChannels then
        let d := { d with packet := Function.update d.packet 2 byte }
        { decoder := { d.accumulate byte with rxlen := d.rxlen + 1, decodeState := .gotLen }
          out := out
          ret := 1 }
      else { decoder := { d with decodeState := .unsynced }, out := out, ret := 1 }
  | .gotLen => { decoder := takeData d byte, out := out, ret := 1 }
  | .gotData =>
      { decoder := { d with
          packet := Function.update d.packet crc16HighAt byte
          decodeState := if d.sumd then .gotCrc else .gotCrc16Byte1 }
        out := out
        ret := 1 }
  | .gotCrc16Byte1 =>
      { decoder := { d with
          packet := Function.update d.packet crc16LowAt byte
          decodeState := .gotCrc16Byte2 }
        out := out
        ret := 1 }
  | .gotCrc16Byte2 =>
      { decoder := { d with
          packet := Function.update d.packet telemetryAt byte
          decodeState := .gotCrc }
        out := out
        ret := 1 }
  | .gotCrc => checkFrame d out maxChanCount byte

section Runs

variable (maxChanCount : UInt16)

/-- A byte. -/
def step (s : Decoder × Output) (byte : UInt8) : Decoder × Output :=
  ((sumdDecode s.1 s.2 maxChanCount byte).decoder, (sumdDecode s.1 s.2 maxChanCount byte).out)

/-- The return values of a run. -/
def rets : Decoder × Output → List UInt8 → List ℕ :=
  outputs (step maxChanCount) fun s byte => [(sumdDecode s.1 s.2 maxChanCount byte).ret]

/-- The elements of `sumd_data` that are read in a run. -/
def reads : Decoder × Output → List UInt8 → List ℕ :=
  outputs (step maxChanCount) fun s byte => (sumdDecode s.1 s.2 maxChanCount byte).reads

end Runs

/-! ## Frames -/

def wordBytes (w : UInt16) : List UInt8 := [(w >>> 8).toUInt8, w.toUInt8]

/-- The bytes that the checksum is computed of. -/
def content (status : UInt8) (words : List UInt16) : List UInt8 :=
  headerId :: status :: UInt8.ofNat words.length :: words.flatMap wordBytes

/-- The bytes that stand behind the data and before the sum, in the variant with a sum. -/
structure Extra where
  crc16High : UInt8
  crc16Low : UInt8
  telemetry : UInt8

/-- What stands behind the data. -/
def trailer (status : UInt8) (words : List UInt16) (extra : Extra) : List UInt8 :=
  if status = idSumh then
    [extra.crc16High, extra.crc16Low, extra.telemetry, (content status words).foldl sumdCrc8 0]
  else wordBytes ((content status words).foldl sumdCrc16 0)

def frame (status : UInt8) (words : List UInt16) (extra : Extra) : List UInt8 :=
  content status words ++ trailer status words extra

/-- The word that a channel is taken from. -/
def sourceOf (i : ℕ) : ℕ := [1, 2, 0].getD i i

/-- The frame is decoded with its last byte, and to its words; and no other data is read. -/
structure Decodes (maxChanCount : UInt16) (s : Decoder × Output) (bytes : List UInt8)
    (words : List UInt16) : Prop where
  rets : rets maxChanCount s bytes = List.replicate (bytes.length - 1) 1 ++ [0]
  channelCount : (exec (step maxChanCount) s bytes).2.channelCount.toNat = words.length
  channels : ∀ i < words.length,
    (exec (step maxChanCount) s bytes).2.channels i = words.getD (sourceOf i) 0 >>> 3
  reads : ∀ i ∈ reads maxChanCount s bytes, 1 ≤ i ∧ i ≤ 2 * words.length

/-! ## Quiet bytes -/

variable {maxChanCount : UInt16}

/-- These bytes are taken in without a result. -/
structure Quiet (maxChanCount : UInt16) (s : Decoder × Output) (bytes : List UInt8)
    (s' : Decoder × Output) : Prop where
  exec : exec (step maxChanCount) s bytes = s'
  rets : rets maxChanCount s bytes = List.replicate bytes.length 1
  reads : reads maxChanCount s bytes = []

theorem Quiet.nil (s : Decoder × Output) : Quiet maxChanCount s [] s := ⟨rfl, rfl, rfl⟩

theorem Quiet.single {d e : Decoder} {out : Output} {byte : UInt8}
    (h : sumdDecode d out maxChanCount byte = { decoder := e, out := out, ret := 1 }) :
    Quiet maxChanCount (d, out) [byte] (e, out) := by
  refine ⟨?_, ?_, ?_⟩
  · rw [exec_cons, exec_nil, step, h]
  · simp [Sumd.rets, outputs, h]
  · simp [Sumd.reads, outputs, h]

theorem Quiet.append {s s' s'' : Decoder × Output} {bs bs' : List UInt8}
    (h : Quiet maxChanCount s bs s') (h' : Quiet maxChanCount s' bs' s'') :
    Quiet maxChanCount s (bs ++ bs') s'' := by
  have hrets := h'.rets
  have hreads := h'.reads
  unfold Sumd.rets at hrets
  unfold Sumd.reads at hreads
  refine ⟨?_, ?_, ?_⟩
  · rw [exec_append, h.exec, h'.exec]
  · rw [List.length_append, ← List.replicate_append_replicate, ← h.rets, ← hrets, ← h.exec]
    exact outputs_append _ _ _ _ _
  · rw [Sumd.reads, outputs_append, h.exec, hreads, List.append_nil]
    exact h.reads

/-! ## Collecting a frame -/

/-- The decoder has taken in the front of a frame: header, status, count and the data `done`. -/
structure Collects (d : Decoder) (status count : UInt8) (done : List UInt8) : Prop where
  sumd : d.sumd = (status != idSumh)
  crcOk : d.crcOk = false
  crc16 : d.sumd = true → d.crc16 = (headerId :: status :: count :: done).foldl sumdCrc16 0
  crc8 : d.sumd = false → d.crc8 = (headerId :: status :: count :: done).foldl sumdCrc8 0
  status : d.packet 1 = status
  length : d.length = count
  data : load d.packet 4 done.length = done
  rxlen : d.rxlen.toNat = done.length + 1

theorem accumulate_spec (d : Decoder) (byte : UInt8) :
    d.accumulate byte = { d with
      crc16 := if d.sumd then sumdCrc16 d.crc16 byte else d.crc16
      crc8 := if d.sumd then d.crc8 else sumdCrc8 d.crc8 byte } := by
  unfold Decoder.accumulate
  split <;> rfl

theorem collects_front (d : Decoder) (out : Output) {status count : UInt8}
    (hstate : d.decodeState = .unsynced)
    (hstatus : status = idSumd ∨ status = idFailsafe ∨ status = idSumh)
    (hcount : 2 ≤ count.toNat ∧ count.toNat ≤ maxChannels) :
    ∃ e, Quiet maxChanCount (d, out) [headerId, status, count] (e, out) ∧
      e.decodeState = .gotLen ∧ Collects e status count [] := by
  let d₁ : Decoder :=
    ⟨.gotHeader, 0, Function.update d.packet 0 headerId, sumdCrc8 0 headerId, sumdCrc16 0 headerId,
      true, false⟩
  have h₁ : sumdDecode d out maxChanCount headerId = { decoder := d₁, out := out, ret := 1 } := by
    rw [sumdDecode, hstate]
    rfl
  let d₂ : Decoder :=
    { ({ d₁ with
          packet := Function.update d₁.packet 1 status
          sumd := d₁.sumd && status != idSumh } : Decoder).accumulate status with
      decodeState := .gotState }
  have h₂ : sumdDecode d₁ out maxChanCount status = { decoder := d₂, out := out, ret := 1 } :=
    if_pos hstatus
  let d₃ : Decoder :=
    { ({ d₂ with packet := Function.update d₂.packet 2 count } : Decoder).accumulate count with
      rxlen := d₂.rxlen + 1
      decodeState := .gotLen }
  have h₃ : sumdDecode d₂ out maxChanCount count = { decoder := d₃, out := out, ret := 1 } :=
    if_pos hcount
  refine ⟨d₃, (Quiet.single h₁).append ((Quiet.single h₂).append (Quiet.single h₃)), rfl, ?_⟩
  have hsumd : d₃.sumd = (status != idSumh) := by
    simp only [d₃, d₂, d₁, accumulate_spec, Bool.true_and]
  refine ⟨hsumd, ?_, ?_, ?_, ?_, ?_, rfl, ?_⟩
  · simp only [d₃, d₂, d₁, accumulate_spec]
  · rw [hsumd]
    intro h
    simp only [d₃, d₂, d₁, accumulate_spec, Bool.true_and, h, if_true]
    rfl
  · rw [hsumd]
    intro h
    simp only [d₃, d₂, d₁, accumulate_spec, Bool.true_and, h, Bool.false_eq_true, if_false]
    rfl
  · simp [d₃, d₂, d₁, accumulate_spec]
  · simp [d₃, d₂, d₁, accumulate_spec, Decoder.length]
  · simp [d₃, d₂, d₁, accumulate_spec]

theorem collects_step {d : Decoder} (out : Output) {status count byte : UInt8} {done : List UInt8}
    (h : Collects d status count done) (hstate : d.decodeState = .gotLen)
    (hcount : count.toNat ≤ maxChannels) (hroom : done.length < count.toNat * 2) :
    ∃ e, Quiet maxChanCount (d, out) [byte] (e, out) ∧ Collects e status count (done ++ [byte]) ∧
      e.decodeState = if done.length + 1 < count.toNat * 2 then .gotLen else .gotData := by
  have hrxlen := h.rxlen
  unfold maxChannels at hcount
  let d₁ : Decoder :=
    { ({ d with packet := Function.update d.packet (sumdDataAt + d.rxlen.toNat) byte } :
        Decoder).accumulate byte with
      rxlen := d.rxlen + 1 }
  have hdecode : sumdDecode d out maxChanCount byte =
      { decoder := takeData d byte, out := out, ret := 1 } := by
    rw [sumdDecode, hstate]
  have htake : takeData d byte =
      if d₁.rxlen.toNat ≤ d₁.length.toNat * 2 then d₁ else { d₁ with decodeState := .gotData } :=
    rfl
  have hfields : d₁.packet = Function.update d.packet (4 + done.length) byte := by
    have hat : sumdDataAt + d.rxlen.toNat = 4 + done.length := by
      unfold sumdDataAt
      omega
    simp only [d₁, accumulate_spec, hat]
  have hkeep : ∀ x < 4, d₁.packet x = d.packet x := by
    intro x hx
    rw [hfields]
    exact Function.update_of_ne (by omega) _ _
  have hcollects : Collects d₁ status count (done ++ [byte]) := by
    refine ⟨?_, ?_, ?_, ?_, ?_, ?_, ?_, ?_⟩
    · simp only [d₁, accumulate_spec, h.sumd]
    · simp only [d₁, accumulate_spec, h.crcOk]
    · intro hsumd
      have hbefore : d.sumd = true := by simpa only [d₁, accumulate_spec] using hsumd
      simp only [d₁, accumulate_spec, hbefore, if_true, h.crc16 hbefore]
      simp only [List.foldl_cons, List.foldl_append, List.foldl_nil]
    · intro hsumd
      have hbefore : d.sumd = false := by simpa only [d₁, accumulate_spec] using hsumd
      simp only [d₁, accumulate_spec, hbefore, Bool.false_eq_true, if_false, h.crc8 hbefore]
      simp only [List.foldl_cons, List.foldl_append, List.foldl_nil]
    · rw [hkeep 1 (by decide), h.status]
    · exact (hkeep 2 (by decide)).trans h.length
    · rw [hfields, List.length_append, List.length_singleton, load_update_add, h.data]
    · rw [List.length_append, List.length_singleton]
      simp only [d₁, UInt8.toNat_add, hrxlen]
      simp
      omega
  have hmore : d₁.rxlen.toNat ≤ d₁.length.toNat * 2 ↔ done.length + 1 < count.toNat * 2 := by
    have hlen := hcollects.rxlen
    rw [List.length_append, List.length_singleton] at hlen
    rw [hlen, hcollects.length]
    omega
  refine ⟨takeData d byte, Quiet.single hdecode, ?_, ?_⟩
  · rw [htake]
    split
    · exact hcollects
    · exact ⟨hcollects.1, hcollects.2, hcollects.3, hcollects.4, hcollects.5, hcollects.6,
        hcollects.7, hcollects.8⟩
  · rw [htake]
    simp only [hmore]
    split
    · simp only [d₁, accumulate_spec, hstate]
    · rfl

theorem collects_run (out : Output) {status count : UInt8} (hcount : count.toNat ≤ maxChannels) :
    ∀ {rest done : List UInt8} {d : Decoder}, Collects d status count done →
      d.decodeState = .gotLen → rest ≠ [] → done.length + rest.length = count.toNat * 2 →
      ∃ e, Quiet maxChanCount (d, out) rest (e, out) ∧ Collects e status count (done ++ rest) ∧
        e.decodeState = .gotData := by
  intro rest
  induction rest with
  | nil =>
      intro _ _ _ _ hne
      exact absurd rfl hne
  | cons byte rest ih =>
      intro done d h hstate _ hlen
      rw [List.length_cons] at hlen
      obtain ⟨e, hquiet, hcollects, hnext⟩ := collects_step out h hstate hcount (by omega)
      have hrun := hquiet
      by_cases hrest : rest = []
      · subst hrest
        rw [List.length_nil] at hlen
        rw [if_neg (by omega)] at hnext
        exact ⟨e, hquiet, hcollects, hnext⟩
      · have hpos := List.length_pos_iff.2 hrest
        rw [if_pos (by omega)] at hnext
        obtain ⟨e', hquiet', hcollects', hlast⟩ := ih hcollects hnext hrest (by
          rw [List.length_append, List.length_singleton]
          omega)
        refine ⟨e', hquiet.append hquiet', ?_, hlast⟩
        rwa [List.append_assoc] at hcollects'

/-! ## The words of a frame -/

theorem length_flatMap_wordBytes (words : List UInt16) :
    (words.flatMap wordBytes).length = words.length * 2 := by
  induction words with
  | nil => rfl
  | cons w words ih =>
      rw [List.flatMap_cons, List.length_append, ih, List.length_cons]
      simp only [wordBytes, List.length_cons, List.length_nil]
      omega

theorem getD_flatMap_wordBytes (words : List UInt16) (i : ℕ) :
    (words.flatMap wordBytes).getD (i * 2) 0 = (words.getD i 0 >>> 8).toUInt8 ∧
      (words.flatMap wordBytes).getD (i * 2 + 1) 0 = (words.getD i 0).toUInt8 := by
  induction words generalizing i with
  | nil => simp
  | cons w words ih =>
      cases i with
      | zero => exact ⟨rfl, rfl⟩
      | succ i =>
          have hat : (i + 1) * 2 = i * 2 + 1 + 1 := by omega
          rw [hat, List.flatMap_cons]
          exact ih i

theorem foldl_unpack_range' (packet : Mem) (i : ℕ) : ∀ (k s : ℕ) (channels : ℕ → UInt16),
    ((List.range' s k).map fun i => (i, i)).foldl (unpack packet) channels i =
      if s ≤ i ∧ i < s + k then word packet i >>> 3 else channels i := by
  intro k
  induction k with
  | zero =>
      intro s channels
      rw [if_neg (by omega)]
      rfl
  | succ k ih =>
      intro s channels
      rw [List.range'_succ, List.map_cons, List.foldl_cons, ih]
      by_cases hi : i = s
      · subst hi
        rw [if_neg (by omega), if_pos (by omega), unpack, Function.update_self]
      · rw [unpack, Function.update_of_ne hi]
        exact if_congr (by omega) rfl rfl

theorem foldl_unpack (packet : Mem) (channels : ℕ → UInt16) {length i : ℕ} (hi : i < length) :
    (sources length).foldl (unpack packet) channels i = word packet (sourceOf i) >>> 3 := by
  rw [sources, List.foldl_append, foldl_unpack_range']
  by_cases hfour : 4 ≤ i
  · have hthree : [1, 2, 0].length ≤ i := Nat.le_of_lt hfour
    have hsource : sourceOf i = i := List.getD_eq_default _ _ hthree
    rw [if_pos (by omega), hsource]
  · rw [if_neg (by omega)]
    obtain rfl | rfl | rfl | rfl : i = 0 ∨ i = 1 ∨ i = 2 ∨ i = 3 := by omega
    · rfl
    · rfl
    · rfl
    · rfl

theorem sourceOf_lt {i n : ℕ} (hi : i < n) (hn : 4 ≤ n) : sourceOf i < n := by
  by_cases hthree : 3 ≤ i
  · have hsource : sourceOf i = i := List.getD_eq_default _ _ hthree
    rw [hsource]
    exact hi
  · obtain rfl | rfl | rfl : i = 0 ∨ i = 1 ∨ i = 2 := by omega
    · exact Nat.lt_of_lt_of_le (by decide) hn
    · exact Nat.lt_of_lt_of_le (by decide) hn
    · exact Nat.lt_of_lt_of_le (by decide) hn

theorem reads_within_iff (n : ℕ) :
    (∀ i ∈ (sources n).flatMap fun s => wordReads s.2, 1 ≤ i ∧ i ≤ 2 * n) ↔ 4 ≤ n := by
  constructor
  · intro hall
    -- the second byte of the fourth word
    have hlast := hall 8 (List.mem_flatMap.2 ⟨(3, 3), by simp [sources], by simp [wordReads]⟩)
    omega
  · intro hfour i hi
    obtain ⟨s, hs, hi⟩ := List.mem_flatMap.1 hi
    have hs' : s.2 < n := by
      rcases List.mem_append.1 hs with hs | hs
      · simp only [List.mem_cons, List.not_mem_nil, or_false] at hs
        rcases hs with rfl | rfl | rfl | rfl
        · exact Nat.lt_of_lt_of_le (by decide) hfour
        · exact Nat.lt_of_lt_of_le (by decide) hfour
        · exact Nat.lt_of_lt_of_le (by decide) hfour
        · exact Nat.lt_of_lt_of_le (by decide) hfour
      · obtain ⟨j, hj, rfl⟩ := List.mem_map.1 hs
        have := List.mem_range'_1.1 hj
        dsimp only
        omega
    rcases List.mem_pair.1 hi with rfl | rfl
    · omega
    · omega

/-! ## What a frame does -/

theorem checkFrame_sumd {d : Decoder} (out : Output) {byte : UInt8} (hsumd : d.sumd = true)
    (hcrc : d.crc16 = (d.packet crc16HighAt).toUInt16 <<< 8 ||| byte.toUInt16) :
    checkFrame d out maxChanCount byte =
      decodeFrame { d with packet := Function.update d.packet crc16LowAt byte, crcOk := true } out
        maxChanCount := by
  have hlow := byte.toNat_lt
  have hhigh := (d.packet crc16HighAt).toNat_lt
  have hnat : d.crc16.toNat = ((d.packet crc16HighAt).toUInt16 <<< 8 : UInt16).toNat +
      byte.toNat := by
    rw [hcrc, toNat_high_or_low, UInt16.toNat_shiftLeft, UInt8.toNat_toUInt16,
      show (8 : UInt16).toNat % 16 = 8 by decide, Nat.shiftLeft_eq]
    omega
  have hne : crc16HighAt ≠ crc16LowAt := by decide
  simp only [checkFrame, hsumd, if_true, Function.update_self, Function.update_of_ne hne, hnat]

theorem checkFrame_sumh {d : Decoder} (out : Output) {byte : UInt8} (hsumd : d.sumd = false)
    (hcrc : d.crc8 = byte) :
    checkFrame d out maxChanCount byte =
      decodeFrame { d with packet := Function.update d.packet crc8At byte, crcOk := true } out
        maxChanCount := by
  simp only [checkFrame, hsumd, Bool.false_eq_true, if_false, Function.update_self, hcrc, if_true]

/-- The packet when a frame is decoded: the data is there, but for what stands in the place of the
first byte of the trailer. -/
structure Complete (d : Decoder) (status count behind : UInt8) (data : List UInt8) : Prop where
  status : d.packet 1 = status
  length : d.length = count
  data : ∀ i < data.length, d.packet (4 + i) = if i = 63 then behind else data.getD i 0

theorem update_trailer {m : Mem} {a x : ℕ} (b : UInt8) (ha : 67 ≤ a) (hx : x < 67) :
    Function.update m a b x = m x :=
  Function.update_of_ne (by omega) _ _

section Trailer

variable {d : Decoder} {status : UInt8} {words : List UInt16}

theorem Collects.complete {e : Decoder}
    (h : Collects d status (UInt8.ofNat words.length) (words.flatMap wordBytes))
    (hmost : words.length ≤ maxChannels) (hkeep : ∀ x < 67, e.packet x = d.packet x) :
    Complete e status (UInt8.ofNat words.length) (e.packet 67) (words.flatMap wordBytes) := by
  refine ⟨(hkeep 1 (by decide)).trans h.status, (hkeep 2 (by decide)).trans h.length, ?_⟩
  intro i hi
  rw [length_flatMap_wordBytes] at hi
  unfold maxChannels at hmost
  -- the last byte of 32 channels has the place of the first field behind the data
  by_cases hlast : i = 63
  · rw [if_pos hlast, hlast]
  · have hload := getD_load d.packet 4 (by rwa [length_flatMap_wordBytes] :
      i < (words.flatMap wordBytes).length)
    rw [if_neg hlast, hkeep (4 + i) (by omega), ← hload, h.data]

/-- The trailer runs up to its last byte, with which a complete packet is decoded. -/
def TrailerRuns (maxChanCount : UInt16) (d : Decoder) (out : Output) (status : UInt8)
    (words : List UInt16)
    (extra : Extra) : Prop :=
  ∃ front last e e', trailer status words extra = front ++ [last] ∧
    Quiet maxChanCount (d, out) front (e, out) ∧
    sumdDecode e out maxChanCount last = decodeFrame e' out maxChanCount ∧
    Complete e' status (UInt8.ofNat words.length) ((trailer status words extra).getD 0 0)
      (words.flatMap wordBytes)

theorem trailer_run_sumh (out : Output) (extra : Extra)
    (h : Collects d status (UInt8.ofNat words.length) (words.flatMap wordBytes))
    (hstate : d.decodeState = .gotData) (hmost : words.length ≤ maxChannels)
    (hsumh : status = idSumh) : TrailerRuns maxChanCount d out status words extra := by
  have hsumd : d.sumd = false := by simp [h.sumd, hsumh]
  have htrailer : trailer status words extra = [extra.crc16High, extra.crc16Low, extra.telemetry,
      (content status words).foldl sumdCrc8 0] := if_pos hsumh
  let d₁ : Decoder := { d with
    packet := Function.update d.packet crc16HighAt extra.crc16High
    decodeState := .gotCrc16Byte1 }
  let d₂ : Decoder := { d₁ with
    packet := Function.update d₁.packet crc16LowAt extra.crc16Low
    decodeState := .gotCrc16Byte2 }
  let d₃ : Decoder := { d₂ with
    packet := Function.update d₂.packet telemetryAt extra.telemetry
    decodeState := .gotCrc }
  have h₁ : sumdDecode d out maxChanCount extra.crc16High = ⟨d₁, out, 1, []⟩ := by
    simp only [sumdDecode, hstate, hsumd, d₁]
    rfl
  have h₂ : sumdDecode d₁ out maxChanCount extra.crc16Low = ⟨d₂, out, 1, []⟩ := rfl
  have h₃ : sumdDecode d₂ out maxChanCount extra.telemetry = ⟨d₃, out, 1, []⟩ := rfl
  refine ⟨[_, _, _], _, d₃, _, htrailer,
    (Quiet.single h₁).append ((Quiet.single h₂).append (Quiet.single h₃)),
    checkFrame_sumh out hsumd (h.crc8 hsumd), ?_⟩
  have hfirst : (trailer status words extra).getD 0 0 =
      Function.update d₃.packet crc8At ((content status words).foldl sumdCrc8 0) 67 := by
    rw [htrailer]
    rfl
  rw [hfirst]
  refine h.complete hmost fun x hx => ?_
  calc
    Function.update d₃.packet crc8At _ x = d₃.packet x := update_trailer _ (by decide) hx
    _ = d₂.packet x := update_trailer _ (by decide) hx
    _ = d₁.packet x := update_trailer _ (by decide) hx
    _ = d.packet x := update_trailer _ (by decide) hx

theorem trailer_run_sumd (out : Output) (extra : Extra)
    (h : Collects d status (UInt8.ofNat words.length) (words.flatMap wordBytes))
    (hstate : d.decodeState = .gotData) (hmost : words.length ≤ maxChannels)
    (hsumh : status ≠ idSumh) : TrailerRuns maxChanCount d out status words extra := by
  have hsumd : d.sumd = true := by simp [h.sumd, hsumh]
  have htrailer : trailer status words extra =
      wordBytes ((content status words).foldl sumdCrc16 0) := if_neg hsumh
  let d₁ : Decoder := { d with
    packet := Function.update d.packet crc16HighAt
      ((content status words).foldl sumdCrc16 0 >>> 8).toUInt8
    decodeState := .gotCrc }
  have h₁ : sumdDecode d out maxChanCount
      ((content status words).foldl sumdCrc16 0 >>> 8).toUInt8 = ⟨d₁, out, 1, []⟩ := by
    simp only [sumdDecode, hstate, hsumd, d₁]
    rfl
  have hcrc : d₁.crc16 = (d₁.packet crc16HighAt).toUInt16 <<< 8 |||
      ((content status words).foldl sumdCrc16 0).toUInt8.toUInt16 := by
    simp only [d₁, Function.update_self, high_or_low_bytes]
    exact h.crc16 hsumd
  refine ⟨[_], _, d₁, _, htrailer, Quiet.single h₁, checkFrame_sumd out hsumd hcrc, ?_⟩
  have hfirst : (trailer status words extra).getD 0 0 =
      Function.update d₁.packet crc16LowAt ((content status words).foldl sumdCrc16 0).toUInt8
        67 := by
    rw [htrailer]
    rfl
  rw [hfirst]
  refine h.complete hmost fun x hx => ?_
  calc
    Function.update d₁.packet crc16LowAt _ x = d₁.packet x := update_trailer _ (by decide) hx
    _ = d.packet x := update_trailer _ (by decide) hx

theorem trailer_run (out : Output) (extra : Extra)
    (h : Collects d status (UInt8.ofNat words.length) (words.flatMap wordBytes))
    (hstate : d.decodeState = .gotData) (hmost : words.length ≤ maxChannels) :
    TrailerRuns maxChanCount d out status words extra := by
  by_cases hsumh : status = idSumh
  · exact trailer_run_sumh out extra h hstate hmost hsumh
  · exact trailer_run_sumd out extra h hstate hmost hsumh

end Trailer

theorem frame_run (d : Decoder) (out : Output) {status : UInt8} {words : List UInt16}
    (extra : Extra) (hstate : d.decodeState = .unsynced)
    (hstatus : status = idSumd ∨ status = idFailsafe ∨ status = idSumh)
    (hleast : 2 ≤ words.length) (hmost : words.length ≤ maxChannels) :
    ∃ front last e e', frame status words extra = front ++ [last] ∧
      Quiet maxChanCount (d, out) front (e, out) ∧
      sumdDecode e out maxChanCount last = decodeFrame e' out maxChanCount ∧
      Complete e' status (UInt8.ofNat words.length) ((trailer status words extra).getD 0 0)
        (words.flatMap wordBytes) := by
  have hcount : (UInt8.ofNat words.length).toNat = words.length := by
    unfold maxChannels at hmost
    rw [UInt8.toNat_ofNat', Nat.mod_eq_of_lt (by omega)]
  obtain ⟨d₁, hquiet₁, hstate₁, hcollects₁⟩ :=
    @collects_front maxChanCount d out status (UInt8.ofNat words.length) hstate hstatus
      (by rw [hcount]; exact ⟨hleast, hmost⟩)
  have hlength := length_flatMap_wordBytes words
  obtain ⟨d₂, hquiet₂, hcollects₂, hstate₂⟩ :=
    @collects_run maxChanCount out status (UInt8.ofNat words.length) (by rwa [hcount])
      (words.flatMap wordBytes) [] d₁ hcollects₁ hstate₁
      (List.ne_nil_of_length_pos (by omega)) (by rw [hcount, hlength]; simp)
  have hruns : TrailerRuns maxChanCount d₂ out status words extra :=
    trailer_run out extra hcollects₂ hstate₂ hmost
  obtain ⟨front, last, e, e', htrailer, hquiet, hdecode, hcomplete⟩ := hruns
  refine ⟨content status words ++ front, last, e, e', ?_, (hquiet₁.append hquiet₂).append hquiet,
    hdecode, hcomplete⟩
  rw [frame, htrailer, List.append_assoc]

theorem Complete.word_eq {d : Decoder} {status count behind : UInt8} {words : List UInt16} {i : ℕ}
    (h : Complete d status count behind (words.flatMap wordBytes)) (hi : i < words.length) :
    word d.packet i = (words.getD i 0 >>> 8).toUInt8.toUInt16 <<< 8 |||
      (if i = 31 then behind else (words.getD i 0).toUInt8).toUInt16 := by
  have hlength := length_flatMap_wordBytes words
  obtain ⟨hhigh, hlow⟩ := getD_flatMap_wordBytes words i
  have hfirst := h.data (i * 2) (by omega)
  have hsecond := h.data (i * 2 + 1) (by omega)
  rw [if_neg (by omega), hhigh] at hfirst
  rw [hlow] at hsecond
  have hif : i * 2 + 1 = 63 ↔ i = 31 := by omega
  simp only [hif] at hsecond
  have hat : sumdDataAt + (i * 2 + 1) = 4 + i * 2 := by
    unfold sumdDataAt
    omega
  have hat' : sumdDataAt + (i * 2 + 2) = 4 + (i * 2 + 1) := by
    unfold sumdDataAt
    omega
  rw [word, hat, hat', hfirst, hsecond]

theorem shiftRight_high_or_low_iff (high low low' : UInt8) :
    (high.toUInt16 <<< 8 ||| low.toUInt16) >>> 3 = (high.toUInt16 <<< 8 ||| low'.toUInt16) >>> 3 ↔
      low >>> 3 = low' >>> 3 := by
  rw [← UInt16.toNat_inj, ← UInt8.toNat_inj, UInt16.toNat_shiftRight, UInt16.toNat_shiftRight,
    UInt8.toNat_shiftRight, UInt8.toNat_shiftRight, toNat_high_or_low, toNat_high_or_low,
    show (3 : UInt16).toNat % 16 = 3 by decide, show (3 : UInt8).toNat % 8 = 3 by decide]
  simp only [Nat.shiftRight_eq_div_pow]
  omega

theorem Complete.decodeFrame_spec {d : Decoder} {status behind : UInt8} {words : List UInt16}
    (h : Complete d status (UInt8.ofNat words.length) behind (words.flatMap wordBytes))
    (out : Output)
    (hmost : words.length ≤ maxChannels) (hmax : words.length ≤ maxChanCount.toNat) :
    (decodeFrame d out maxChanCount).out.channelCount.toNat = words.length ∧
      (∀ i < words.length, (decodeFrame d out maxChanCount).out.channels i =
        word d.packet (sourceOf i) >>> 3) ∧
      (decodeFrame d out maxChanCount).reads =
        (sources words.length).flatMap fun s => wordReads s.2 := by
  unfold maxChannels at hmost
  have hcount : (UInt8.ofNat words.length).toNat = words.length := by
    rw [UInt8.toNat_ofNat', Nat.mod_eq_of_lt (by omega)]
  have hnot : ¬ maxChanCount < (UInt8.ofNat words.length).toUInt16 := by
    rw [UInt16.lt_iff_toNat_lt, UInt8.toNat_toUInt16, hcount]
    omega
  simp only [decodeFrame, h.length, hnot, if_false, UInt8.toNat_toUInt16, hcount]
  exact ⟨trivial, fun i hi => foldl_unpack d.packet out.channels hi, trivial⟩

theorem frame_decoded (d : Decoder) (out : Output) {status : UInt8} {words : List UInt16}
    (extra : Extra) (hstate : d.decodeState = .unsynced)
    (hstatus : status = idSumd ∨ status = idFailsafe ∨ status = idSumh)
    (hleast : 2 ≤ words.length) (hmost : words.length ≤ maxChannels) :
    ∃ e, Complete e status (UInt8.ofNat words.length) ((trailer status words extra).getD 0 0)
        (words.flatMap wordBytes) ∧
      (exec (step maxChanCount) (d, out) (frame status words extra)).2 =
        (decodeFrame e out maxChanCount).out ∧
      rets maxChanCount (d, out) (frame status words extra) =
        List.replicate ((frame status words extra).length - 1) 1 ++ [0] ∧
      reads maxChanCount (d, out) (frame status words extra) =
        (decodeFrame e out maxChanCount).reads := by
  obtain ⟨front, last, e, e', hframe, hquiet, hdecode, hcomplete⟩ :=
    @frame_run maxChanCount d out status words extra hstate hstatus hleast hmost
  have hrets := hquiet.rets
  have hreads := hquiet.reads
  unfold rets at hrets ⊢
  unfold reads at hreads ⊢
  refine ⟨e', hcomplete, ?_, ?_, ?_⟩
  · rw [hframe, exec_append, hquiet.exec, exec_cons, exec_nil, step, hdecode]
  · rw [hframe, outputs_append, hrets, hquiet.exec, List.length_append, List.length_singleton,
      Nat.add_sub_cancel]
    simp [outputs, hdecode, decodeFrame]
  · rw [hframe, outputs_append, hreads, hquiet.exec]
    simp [outputs, hdecode]

/-- A frame is decoded exactly when it has at least four channels and, where it has all 32, the byte
behind the data agrees with the last byte of the data in the bits that a channel keeps. -/
theorem sumd_decodes_iff (d : Decoder) (out : Output) (maxChanCount : UInt16) (status : UInt8)
    (words : List UInt16) (extra : Extra) (hstate : d.decodeState = .unsynced)
    (hstatus : status = idSumd ∨ status = idFailsafe ∨ status = idSumh)
    (hleast : 2 ≤ words.length) (hmost : words.length ≤ maxChannels)
    (hmax : words.length ≤ maxChanCount.toNat) :
    Decodes maxChanCount (d, out) (frame status words extra) words ↔
      4 ≤ words.length ∧ (words.length = maxChannels →
        (words.getD 31 0).toUInt8 >>> 3 = (trailer status words extra).getD 0 0 >>> 3) := by
  obtain ⟨e, hcomplete, hexec, hrets, hreads⟩ :=
    @frame_decoded maxChanCount d out status words extra hstate hstatus hleast hmost
  obtain ⟨hcount, hchannels, hdecodeReads⟩ := hcomplete.decodeFrame_spec out hmost hmax
  rw [hdecodeReads] at hreads
  unfold maxChannels at hmost ⊢
  have hword : ∀ i, words.getD i 0 >>> 3 =
      ((words.getD i 0 >>> 8).toUInt8.toUInt16 <<< 8 ||| (words.getD i 0).toUInt8.toUInt16) >>>
        3 := by
    intro i
    rw [high_or_low_bytes]
  constructor
  · intro h
    have hfour : 4 ≤ words.length := by
      rw [← reads_within_iff]
      intro i hi
      exact h.reads i (by rw [hreads]; exact hi)
    refine ⟨hfour, fun hall => ?_⟩
    have hlast := h.channels 31 (by omega)
    have hsource : sourceOf 31 = 31 := rfl
    rw [hexec, hchannels 31 (by omega), hsource, hcomplete.word_eq (by omega), if_pos rfl, hword,
      shiftRight_high_or_low_iff] at hlast
    exact hlast.symm
  · rintro ⟨hfour, hlast⟩
    refine ⟨hrets, ?_, ?_, ?_⟩
    · rw [hexec, hcount]
    · intro i hi
      have hsource := sourceOf_lt hi hfour
      rw [hexec, hchannels i hi, hcomplete.word_eq hsource, hword, shiftRight_high_or_low_iff]
      split
      · -- the last of 32 words
        rename_i h31
        rw [h31] at hsource ⊢
        exact (hlast (by omega)).symm
      · rfl
    · rw [hreads]
      exact (reads_within_iff _).2 hfour

/-- A frame of four channels. -/
theorem sumd_decodes_four :
    Decodes 18 (⟨.unsynced, 0, fun _ => 0, 0, 0, true, false⟩, ⟨0, 0, 0, fun _ => 0, false⟩)
      (frame idSumd [12000, 12008, 8800, 15200] ⟨0, 0, 0⟩) [12000, 12008, 8800, 15200] :=
  (sumd_decodes_iff _ _ 18 idSumd [12000, 12008, 8800, 15200] _ rfl (.inl rfl) (by decide)
    (by decide)
    (by decide)).2 ⟨by decide, by decide⟩

/-- A frame of two channels: the bytes of two others are read. -/
theorem sumd_two_channels :
    ¬ ∀ (d : Decoder) (out : Output) (maxChanCount : UInt16) (status : UInt8) (words : List UInt16)
      (extra : Extra), d.decodeState = .unsynced →
      (status = idSumd ∨ status = idFailsafe ∨ status = idSumh) → 2 ≤ words.length →
      words.length ≤ maxChannels → words.length ≤ maxChanCount.toNat →
      Decodes maxChanCount (d, out) (frame status words extra) words := by
  intro hall
  let d : Decoder := ⟨.unsynced, 0, fun _ => 0, 0, 0, true, false⟩
  let out : Output := ⟨0, 0, 0, fun _ => 0, false⟩
  have hdecodes :=
    hall d out 18 idSumd [12000, 12008] ⟨0, 0, 0⟩ rfl (.inl rfl) (by decide) (by decide)
    (by decide)
  obtain ⟨e, hcomplete, -, -, hreads⟩ :=
    @frame_decoded 18 d out idSumd [12000, 12008] ⟨0, 0, 0⟩ rfl (.inl rfl) (by decide) (by decide)
  obtain ⟨-, -, hread⟩ :=
      @Complete.decodeFrame_spec 18 _ _ _ _ hcomplete out (by decide) (by decide)
  have hwithin := hdecodes.reads 8 (by rw [hreads, hread]; decide)
  exact absurd hwithin.2 (by decide)

end Sumd
end Rc
end DtPhm
