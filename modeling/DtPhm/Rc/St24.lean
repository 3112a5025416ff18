import DtPhm.Lib.Run
import DtPhm.Lib.Bytes

/-!
# St24 — the ST24 input of the RC library, and the memory it writes to

The decoder takes one byte at a time.  Behind two start bytes it stores the length, the type and the
data of a packet, with a counter of eight bits, and checks the packet against its checksum.

* `st24CommonCrc8`, `channelWrites` — the checksum, and the channels of a packet;
* `Decoder`, `st24Decode` — one byte, with all that is written and what the checksum is computed of;
* `Within` — the writes stay in their arrays;
* `Proper` — the packet lengths and channel counts for which they do;
* `Follows`, `follows_step` — what the decoder holds, in terms of the bytes it was fed;
* `st24_in_bounds` — runs that stay in bounds.

The packet is the memory from its length byte on, in which the data starts at 2.  The scalings,
which are done in floating point, are parameters.
-/

namespace DtPhm
namespace Rc
namespace St24

open Lib

/-! ## Packets -/

/-- `ST24_DATA_LEN_MAX`. -/
def dataLenMax : ℕ := 64

/-- `ST24_STX1` and `ST24_STX2`. -/
def stx : UInt8 := 0x55

/-- One bit of a byte goes into the checksum. -/
def crcBit (byte crc i : UInt8) : UInt8 :=
  let crc := if crc &&& 0x80 ≠ 0 then (crc <<< 1) ^^^ 0x07 else crc <<< 1
  if byte &&& i ≠ 0 then crc ^^^ 0x07 else crc

/-- `st24_common_crc8`. -/
def st24CommonCrc8 (bytes : List UInt8) : UInt8 :=
  bytes.foldl
    (fun crc byte => [0x80, 0x40, 0x20, 0x10, 0x08, 0x04, 0x02, 0x01].foldl (crcBit byte) crc) 0

/-- `ST24_PACKET_TYPE`. -/
inductive PacketType
  | channeldata12
  | channeldata24
  | transmittergpsdata
  deriving DecidableEq, Repr

def PacketType.ofByte? (type : UInt8) : Option PacketType :=
  if type = 0 then some .channeldata12
  else if type = 1 then some .channeldata24
  else if type = 2 then some .transmittergpsdata
  else none

/-- How many channels a packet holds. -/
def PacketType.channels : PacketType → ℕ
  | .channeldata12 => 12
  | .channeldata24 => 24
  | .transmittergpsdata => 0

/-- `st24_data[i]`. -/
def st24Data (packet : Mem) (i : ℕ) : UInt8 := packet (2 + i)

/-- `d->channel[i]`, behind the counter, the signal strength and the lost packets. -/
def channelByte (packet : Mem) (i : ℕ) : UInt8 := st24Data packet (4 + i)

/-- The conversions in floating point. -/
structure Scaling where
  /-- From 0..255 to 100%. -/
  rssi : UInt8 → UInt8
  /-- To 1000..2000. -/
  channel : UInt16 → UInt16

/-- The two channels of three bytes, from `i` on. -/
def firstOf (packet : Mem) (i : ℕ) : UInt16 :=
  ((channelByte packet i).toUInt16 <<< 4) ||| ((0xF0 &&& channelByte packet (i + 1)).toUInt16 >>> 4)

def secondOf (packet : Mem) (i : ℕ) : UInt16 :=
  (channelByte packet (i + 2)).toUInt16 ||| ((0x0F &&& channelByte packet (i + 1)).toUInt16 <<< 8)

/-- `stride_count`; the loop goes up to it in steps of three. -/
def strideCount (channelCount : ℕ) : ℕ := channelCount * 3 / 2

/-- What the loop over the strides writes to `channels`. -/
def channelWrites (sc : Scaling) (packet : Mem) (channelCount : ℕ) : List (ℕ × UInt16) :=
  (List.range ((strideCount channelCount + 2) / 3)).flatMap fun j =>
    [(2 * j, sc.channel (firstOf packet (3 * j))),
      (2 * j + 1, sc.channel (secondOf packet (3 * j)))]

/-! ## The decoder -/

/-- `ST24_DECODE_STATE`. -/
inductive DecodeState
  | unsynced
  | gotStx1
  | gotStx2
  | gotLen
  | gotType
  | gotData
  deriving DecidableEq, Repr

/-- The static variables. -/
structure Decoder where
  decodeState : DecodeState
  rxlen : UInt8
  packet : Mem

/-- `_rxpacket.length`. -/
def Decoder.length (d : Decoder) : UInt8 := d.packet 0

/-- `_rxpacket.type`. -/
def Decoder.type (d : Decoder) : UInt8 := d.packet 1

/-- A byte, and `max_chan_count`. -/
structure Feed where
  byte : UInt8
  maxChanCount : UInt16

/-- The decoder after a byte, the return value, and what was done on the way: the index in
`st24_data` that was written, the writes to `channels`, and the bytes that the checksum was computed
of. -/
structure Decoded where
  decoder : Decoder
  ret : ℕ
  dataWrite : Option ℤ := none
  channelWrites : List (ℕ × UInt16) := []
  crcInput : Option (List UInt8) := none
  rssi : Option UInt8 := none
  lostCount : Option UInt8 := none
  channelCount : Option UInt16 := none

/-- The bytes that the checksum `f.byte` is compared with; it is stored behind the data before. -/
def Decoder.crcBytes (d : Decoder) (f : Feed) : List UInt8 :=
  load (Function.update d.packet (2 + dataLenMax) f.byte) 0 (d.rxlen + 1).toNat

/-- What is written of a packet with channels. -/
def decodeChannels (sc : Scaling) (d : Decoder) (type : PacketType) (maxChanCount : UInt16)
    (r : Decoded) : Decoded :=
  let channelCount := min maxChanCount.toNat type.channels
  { r with
    ret := 0
    rssi := some (sc.rssi (st24Data d.packet 2))
    lostCount := some (st24Data d.packet 3)
    channelCount := some (UInt16.ofNat channelCount)
    channelWrites := channelWrites sc d.packet channelCount }

/-- The packet is complete, and `byte` is its checksum. -/
def checkPacket (sc : Scaling) (d : Decoder) (f : Feed) : Decoded :=
  let input := d.crcBytes f
  let d : Decoder :=
    { decodeState := .unsynced
      rxlen := d.rxlen + 1
      packet := Function.update d.packet (2 + dataLenMax) f.byte }
  let r : Decoded := { decoder := d, ret := 4, crcInput := some input }
  if st24CommonCrc8 input = f.byte then
    match PacketType.ofByte? d.type with
    | some .channeldata12 => decodeChannels sc d .channeldata12 f.maxChanCount r
    | some .channeldata24 => decodeChannels sc d .channeldata24 f.maxChanCount r
    -- silently ignored, as it is unused
    | some .transmittergpsdata => { r with ret := 5 }
    | none => { r with ret := 2 }
  else r

/-- `st24_decode`. -/
def st24Decode (sc : Scaling) (d : Decoder) (f : Feed) : Decoded :=
  match d.decodeState with
  | .unsynced =>
      if f.byte = stx then { decoder := { d with decodeState := .gotStx1 }, ret := 1 }
      else { decoder := d, ret := 3 }
  | .gotStx1 =>
      { decoder := { d with decodeState := if f.byte = stx then .gotStx2 else .unsynced },
        ret := 1 }
  | .gotStx2 =>
      -- ensure no data overflow failure or hack is possible
      if f.byte.toNat ≤ 1 + 1 + dataLenMax then
        { decoder := ⟨.gotLen, 0, Function.update d.packet 0 f.byte⟩, ret := 1 }
      else { decoder := { d with decodeState := .unsynced }, ret := 1 }
  | .gotLen =>
      { decoder := ⟨.gotType, d.rxlen + 1, Function.update d.packet 1 f.byte⟩, ret := 1 }
  | .gotType =>
      -- `st24_data[_rxlen - 1]`
      let packet := Function.update d.packet (d.rxlen.toNat + 1) f.byte
      let rxlen := d.rxlen + 1
      { decoder :=
          ⟨if (rxlen.toNat : ℤ) = (packet 0).toNat - 1 then .gotData else .gotType, rxlen, packet⟩
        ret := 1
        dataWrite := some ((d.rxlen.toNat : ℤ) - 1) }
  | .gotData => checkPacket sc d f

def step (sc : Scaling) (d : Decoder) (f : Feed) : Decoder := (st24Decode sc d f).decoder

/-! ## Bounds -/

/-- The writes stay in `st24_data` and in `channels`. -/
structure Within (r : Decoded) (maxChanCount : UInt16) : Prop where
  data : ∀ i ∈ r.dataWrite, 0 ≤ i ∧ i < dataLenMax
  channels : ∀ w ∈ r.channelWrites, w.1 < maxChanCount.toNat

/-- The checksum is computed of the bytes of the packet that it ends: of all that were fed behind
its two start bytes. -/
def OfPacket (r : Decoded) (fed : List UInt8) : Prop :=
  ∀ input ∈ r.crcInput, ∃ front, fed = front ++ [stx, stx] ++ input

/-- A length byte counts the type, the checksum and some data; and the channels of a packet come in
pairs, all of which fit. -/
structure Proper (d : Decoder) (f : Feed) : Prop where
  length : d.decodeState = .gotStx2 → 3 ≤ f.byte.toNat ∨ 1 + 1 + dataLenMax < f.byte.toNat
  channels : d.decodeState = .gotData → st24CommonCrc8 (d.crcBytes f) = f.byte → ∀ type,
    PacketType.ofByte? d.type = some type →
      f.maxChanCount.toNat % 2 = 0 ∨ type.channels ≤ f.maxChanCount.toNat

/-! ## What a byte does -/

/-- What the decoder holds of the bytes that it was fed, in each of its states. -/
inductive Follows : Decoder → List UInt8 → Prop
  | unsynced (rxlen packet fed) : Follows ⟨.unsynced, rxlen, packet⟩ fed
  | gotStx1 (rxlen packet front) : Follows ⟨.gotStx1, rxlen, packet⟩ (front ++ [stx])
  | gotStx2 (rxlen packet front) : Follows ⟨.gotStx2, rxlen, packet⟩ (front ++ [stx, stx])
  | gotLen (packet front) (hleast : 3 ≤ (packet 0).toNat) (hmost : (packet 0).toNat ≤ 66) :
      Follows ⟨.gotLen, 0, packet⟩ (front ++ [stx, stx] ++ load packet 0 1)
  | gotType (rxlen packet front) (hpos : 1 ≤ rxlen.toNat)
      (hlt : rxlen.toNat + 1 < (packet 0).toNat) (hmost : (packet 0).toNat ≤ 66) :
      Follows ⟨.gotType, rxlen, packet⟩ (front ++ [stx, stx] ++ load packet 0 (rxlen.toNat + 1))
  | gotData (rxlen packet front) (hlen : rxlen.toNat + 1 = (packet 0).toNat)
      (hmost : (packet 0).toNat ≤ 66) :
      Follows ⟨.gotData, rxlen, packet⟩ (front ++ [stx, stx] ++ load packet 0 (rxlen.toNat + 1))

theorem channelWrites_within_iff (sc : Scaling) (packet : Mem) {channels maxChanCount : ℕ}
    (heven : channels % 2 = 0) :
    (∀ w ∈ channelWrites sc packet (min maxChanCount channels), w.1 < maxChanCount) ↔
      maxChanCount % 2 = 0 ∨ channels ≤ maxChanCount := by
  unfold channelWrites strideCount
  constructor
  · intro hall
    by_contra hodd
    rw [not_or] at hodd
    -- the last pair ends behind an odd count
    have hlast := hall (2 * (maxChanCount / 2) + 1,
      sc.channel (secondOf packet (3 * (maxChanCount / 2)))) (by
        refine List.mem_flatMap.2 ⟨maxChanCount / 2, List.mem_range.2 ?_, by simp⟩
        omega)
    dsimp only at hlast
    omega
  · rintro hcount w hw
    obtain ⟨j, hj, hw⟩ := List.mem_flatMap.1 hw
    rw [List.mem_range] at hj
    rcases List.mem_pair.1 hw with rfl | rfl
    · dsimp only
      omega
    · dsimp only
      omega

theorem checkPacket_spec (sc : Scaling) (d : Decoder) (f : Feed) :
    (checkPacket sc d f).decoder = ⟨.unsynced, d.rxlen + 1,
        Function.update d.packet (2 + dataLenMax) f.byte⟩ ∧
      (checkPacket sc d f).dataWrite = none ∧
      (checkPacket sc d f).crcInput = some (d.crcBytes f) ∧
      ((∀ w ∈ (checkPacket sc d f).channelWrites, w.1 < f.maxChanCount.toNat) ↔
        (st24CommonCrc8 (d.crcBytes f) = f.byte → ∀ type, PacketType.ofByte? d.type = some type →
          f.maxChanCount.toNat % 2 = 0 ∨ type.channels ≤ f.maxChanCount.toNat)) := by
  unfold checkPacket
  dsimp only
  split
  case isFalse hcrc =>
    refine ⟨rfl, rfl, rfl, iff_of_true ?_ fun h => absurd h hcrc⟩
    exact fun w hw => absurd hw List.not_mem_nil
  rename_i hcrc
  have htype : Decoder.type ⟨.unsynced, d.rxlen + 1,
      Function.update d.packet (2 + dataLenMax) f.byte⟩ = d.type := rfl
  rw [htype]
  have hiff : ∀ {type : PacketType} {P : Prop}, PacketType.ofByte? d.type = some type →
      (P ↔ f.maxChanCount.toNat % 2 = 0 ∨ type.channels ≤ f.maxChanCount.toNat) →
      (P ↔
        (st24CommonCrc8 (d.crcBytes f) = f.byte → ∀ type', PacketType.ofByte? d.type = some type' →
        f.maxChanCount.toNat % 2 = 0 ∨ type'.channels ≤ f.maxChanCount.toNat)) := by
    intro type P htype hP
    rw [hP, forall_prop_of_true hcrc]
    constructor
    · intro hcount type' htype'
      obtain rfl := Option.some.inj (htype.symm.trans htype')
      exact hcount
    · exact fun hall => hall type htype
  split
  · rename_i h
    exact ⟨rfl, rfl, rfl, hiff h (channelWrites_within_iff sc _ rfl)⟩
  · rename_i h
    exact ⟨rfl, rfl, rfl, hiff h (channelWrites_within_iff sc _ rfl)⟩
  · rename_i h
    refine ⟨rfl, rfl, rfl, hiff h (iff_of_true ?_ (.inr (Nat.zero_le _)))⟩
    exact fun w hw => absurd hw List.not_mem_nil
  · rename_i h
    refine ⟨rfl, rfl, rfl, iff_of_true ?_ ?_⟩
    · exact fun w hw => absurd hw List.not_mem_nil
    · intro _ type htype
      rw [h] at htype
      cases htype

theorem toNat_add_one {n : UInt8} (h : n.toNat < 255) : (n + 1).toNat = n.toNat + 1 := by
  rw [UInt8.toNat_add, UInt8.toNat_one]
  exact Nat.mod_eq_of_lt (Nat.add_lt_of_lt_sub h)

/-- What a call does right: the decoder follows the bytes, and its accesses are in bounds. -/
structure StepsRight (r : Decoded) (f : Feed) (fed : List UInt8) : Prop where
  follows : Follows r.decoder (fed ++ [f.byte])
  within : Within r f.maxChanCount
  ofPacket : OfPacket r fed

theorem stepsRight_of_follows {e : Decoder} {ret : ℕ} {f : Feed} {fed : List UInt8}
    (h : Follows e (fed ++ [f.byte])) : StepsRight { decoder := e, ret := ret } f fed where
  follows := h
  within := ⟨fun _ hi => absurd hi (Option.not_mem_none _), fun _ hw => absurd hw List.not_mem_nil⟩
  ofPacket := fun _ hi => absurd hi (Option.not_mem_none _)

section Steps

variable (sc : Scaling) {f : Feed} {rxlen : UInt8} {packet : Mem} {front : List UInt8}

theorem gotStx2_right (hlength : 3 ≤ f.byte.toNat ∨ 1 + 1 + dataLenMax < f.byte.toNat) :
    StepsRight (st24Decode sc ⟨.gotStx2, rxlen, packet⟩ f) f (front ++ [stx, stx]) := by
  unfold st24Decode
  dsimp only
  split
  · rename_i hmost
    have hload : load (Function.update packet 0 f.byte) 0 1 = [f.byte] := by
      simp [load]
    apply stepsRight_of_follows
    rw [← hload]
    apply Follows.gotLen
    · rw [Function.update_self]
      omega
    · rw [Function.update_self]
      exact hmost
  · exact stepsRight_of_follows (.unsynced _ _ _)

theorem gotLen_right (hleast : 3 ≤ (packet 0).toNat) (hmost : (packet 0).toNat ≤ 66) :
    StepsRight (st24Decode sc ⟨.gotLen, 0, packet⟩ f) f
      (front ++ [stx, stx] ++ load packet 0 1) := by
  have hload : load packet 0 1 ++ [f.byte] = load (Function.update packet 1 f.byte) 0 2 :=
    (load_update_succ packet 1 f.byte).symm
  have hzero : (Function.update packet 1 f.byte) 0 = packet 0 :=
    Function.update_of_ne (by decide) _ _
  apply stepsRight_of_follows
  rw [List.append_assoc, hload]
  apply Follows.gotType 1 _ _ (by decide)
  · rw [hzero]
    exact hleast
  · rw [hzero]
    exact hmost

theorem gotType_right (hpos : 1 ≤ rxlen.toNat) (hlt : rxlen.toNat + 1 < (packet 0).toNat)
    (hmost : (packet 0).toNat ≤ 66) :
    StepsRight (st24Decode sc ⟨.gotType, rxlen, packet⟩ f) f
      (front ++ [stx, stx] ++ load packet 0 (rxlen.toNat + 1)) := by
  have hload : load packet 0 (rxlen.toNat + 1) ++ [f.byte] =
      load (Function.update packet (rxlen.toNat + 1) f.byte) 0 (rxlen.toNat + 1 + 1) :=
    (load_update_succ packet (rxlen.toNat + 1) f.byte).symm
  have hzero : (Function.update packet (rxlen.toNat + 1) f.byte) 0 = packet 0 :=
    Function.update_of_ne (by omega) _ _
  have hsucc : (rxlen + 1).toNat = rxlen.toNat + 1 := toNat_add_one (by omega)
  refine ⟨?_, ⟨?_, fun _ hw => absurd hw List.not_mem_nil⟩,
    fun _ hi => absurd hi (Option.not_mem_none _)⟩
  · unfold st24Decode
    dsimp only
    rw [List.append_assoc, hload]
    generalize Function.update packet (rxlen.toNat + 1) f.byte = packet' at *
    -- the length byte says whether the checksum is next
    rw [← hsucc]
    rw [← hzero] at hlt hmost
    split
    · exact .gotData _ _ _ (by omega) hmost
    · exact .gotType _ _ _ (by omega) (by omega) hmost
  · intro i hi
    have hindex : (rxlen.toNat : ℤ) - 1 = i := Option.some.inj hi
    unfold dataLenMax
    omega

theorem gotData_right (hlen : rxlen.toNat + 1 = (packet 0).toNat) (hmost : (packet 0).toNat ≤ 66)
    (hproper : Proper ⟨.gotData, rxlen, packet⟩ f) :
    StepsRight (st24Decode sc ⟨.gotData, rxlen, packet⟩ f) f
      (front ++ [stx, stx] ++ load packet 0 (rxlen.toNat + 1)) := by
  obtain ⟨hdecoder, hdata, hinput, hchannels⟩ := checkPacket_spec sc ⟨.gotData, rxlen, packet⟩ f
  have hsucc : (rxlen + 1).toNat = rxlen.toNat + 1 := toNat_add_one (by omega)
  have hcrc : Decoder.crcBytes ⟨.gotData, rxlen, packet⟩ f = load packet 0 (rxlen.toNat + 1) := by
    unfold Decoder.crcBytes
    rw [hsucc]
    exact load_update_of_le packet f.byte (by unfold dataLenMax; omega)
  have hdecode : st24Decode sc ⟨.gotData, rxlen, packet⟩ f =
      checkPacket sc ⟨.gotData, rxlen, packet⟩ f := rfl
  rw [hdecode]
  refine ⟨?_, ⟨?_, hchannels.2 (hproper.channels rfl)⟩, ?_⟩
  · rw [hdecoder]
    exact .unsynced _ _ _
  · rw [hdata]
    exact fun _ hi => absurd hi (Option.not_mem_none _)
  · intro input hi
    rw [hinput, hcrc, Option.mem_some_iff] at hi
    exact ⟨front, by rw [hi]⟩

end Steps

/-- A byte that meets the condition is written in bounds, and the decoder follows the bytes. -/
theorem follows_step (sc : Scaling) {d : Decoder} {fed : List UInt8} {f : Feed} (h : Follows d fed)
    (hproper : Proper d f) : StepsRight (st24Decode sc d f) f fed := by
  cases h with
  | unsynced rxlen packet fed =>
      unfold st24Decode
      dsimp only
      split
      · rename_i hbyte
        apply stepsRight_of_follows
        rw [hbyte]
        exact .gotStx1 _ _ _
      · exact stepsRight_of_follows (.unsynced _ _ _)
  | gotStx1 rxlen packet front =>
      unfold st24Decode
      dsimp only
      apply stepsRight_of_follows
      split
      · rename_i hbyte
        rw [hbyte, List.append_assoc]
        exact .gotStx2 _ _ _
      · exact .unsynced _ _ _
  | gotStx2 rxlen packet front => exact gotStx2_right sc (hproper.length rfl)
  | gotLen packet front hleast hmost => exact gotLen_right sc hleast hmost
  | gotType rxlen packet front hpos hlt hmost => exact gotType_right sc hpos hlt hmost
  | gotData rxlen packet front hlen hmost => exact gotData_right sc hlen hmost hproper

/-! ## Runs -/

theorem follows_run (sc : Scaling) (fs : List Feed) : ∀ {d : Decoder} {fed : List UInt8},
    Follows d fed → AllSteps (step sc) Proper d fs →
    Follows (exec (step sc) d fs) (fed ++ fs.map Feed.byte) := by
  induction fs with
  | nil =>
      intro d fed h _
      rw [List.map_nil, List.append_nil]
      exact h
  | cons f fs ih =>
      intro d fed h hall
      rw [List.map_cons, List.append_cons]
      exact ih (follows_step sc h hall.1).follows hall.2

/-- Behind a length byte that does not count the type and the checksum, the data does not end. -/
theorem exists_outside_of_short (sc : Scaling) (n : ℕ) : ∀ {d : Decoder} (rest : List Feed),
    d.decodeState = .gotType → d.length.toNat < 3 → 1 ≤ d.rxlen.toNat → d.rxlen.toNat + n = 65 →
    n < rest.length →
    ∃ before f after, rest = before ++ f :: after ∧
      (st24Decode sc (exec (step sc) d before) f).dataWrite = some 64 := by
  induction n with
  | zero =>
      intro d rest hstate _ _ hrxlen hrest
      obtain ⟨f, rest, rfl⟩ := List.exists_cons_of_length_pos hrest
      refine ⟨[], f, rest, rfl, ?_⟩
      rw [exec_nil, st24Decode, hstate]
      dsimp only
      rw [show d.rxlen.toNat = 65 by omega]
      rfl
  | succ n ih =>
      intro d rest hstate hlength hpos hrxlen hrest
      obtain ⟨f, rest, rfl⟩ :=
          List.exists_cons_of_length_pos (Nat.lt_of_le_of_lt (Nat.zero_le _) hrest)
      rw [List.length_cons] at hrest
      have hsucc : (d.rxlen + 1).toNat = d.rxlen.toNat + 1 := by
        rw [UInt8.toNat_add]
        exact Nat.mod_eq_of_lt (by simp only [UInt8.toNat_one]; omega)
      have hzero : (Function.update d.packet (d.rxlen.toNat + 1) f.byte) 0 = d.packet 0 :=
        Function.update_of_ne (by omega) _ _
      have hstep : step sc d f =
          ⟨.gotType, d.rxlen + 1, Function.update d.packet (d.rxlen.toNat + 1) f.byte⟩ := by
        unfold Decoder.length at hlength
        rw [step, st24Decode, hstate]
        dsimp only
        rw [hzero, hsucc, if_neg (by omega)]
      obtain ⟨before, g, after, rfl, hwrite⟩ := @ih (step sc d f) rest (by rw [hstep])
        (by rw [hstep]; exact (congrArg UInt8.toNat hzero).trans_lt hlength)
        (by rw [hstep, hsucc]; omega) (by rw [hstep, hsucc]; omega) (by omega)
      exact ⟨f :: before, g, after, rfl, hwrite⟩

/-- With a length byte that does not meet the condition, the data is written behind its array. -/
theorem exists_outside (sc : Scaling) {d : Decoder} {f : Feed} (type : Feed) {rest : List Feed}
    (hstate : d.decodeState = .gotStx2) (hnot : ¬ Proper d f) (hrest : 64 < rest.length) :
    ∃ before g after, rest = before ++ g :: after ∧
      (st24Decode sc (exec (step sc) d (f :: type :: before)) g).dataWrite = some 64 := by
  have hbyte : f.byte.toNat < 3 := by
    by_contra hbyte
    refine hnot ⟨fun _ => .inl (by omega), fun h => ?_⟩
    rw [hstate] at h
    cases h
  have hstep : exec (step sc) d [f, type] =
      ⟨.gotType, 1, Function.update (Function.update d.packet 0 f.byte) 1 type.byte⟩ := by
    have hfirst : step sc d f = ⟨.gotLen, 0, Function.update d.packet 0 f.byte⟩ := by
      rw [step, st24Decode, hstate]
      dsimp only
      rw [if_pos (by unfold dataLenMax; omega)]
    rw [exec_cons, exec_cons, exec_nil, hfirst]
    rfl
  have hlength : (Function.update (Function.update d.packet 0 f.byte) 1 type.byte) 0 = f.byte := by
    rw [Function.update_of_ne (by decide), Function.update_self]
  have hone : (1 : UInt8).toNat = 1 := rfl
  obtain ⟨before, g, after, hsplit, hwrite⟩ := @exists_outside_of_short sc 64
    (exec (step sc) d [f, type]) rest (by rw [hstep])
    (by rw [hstep]; exact (congrArg UInt8.toNat hlength).trans_lt hbyte)
    (by rw [hstep, hone]) (by rw [hstep, hone]) hrest
  exact ⟨before, g, after, hsplit, hwrite⟩

/-- In every run whose bytes all meet the condition, all writes are in bounds, and checksums are
computed of the packets they end.  On the channels the condition is exact; and behind a length byte
that does not meet it, the data is written behind its array if only enough bytes follow. -/
theorem st24_in_bounds (sc : Scaling) :
    (∀ (d : Decoder) (fs : List Feed) (f : Feed), d.decodeState = .unsynced →
      AllSteps (step sc) Proper d (fs ++ [f]) →
      Within (st24Decode sc (exec (step sc) d fs) f) f.maxChanCount ∧
        OfPacket (st24Decode sc (exec (step sc) d fs) f) (fs.map Feed.byte)) ∧
    (∀ (d : Decoder) (f : Feed), d.decodeState = .gotData →
      (Within (st24Decode sc d f) f.maxChanCount ↔ Proper d f)) ∧
    ∀ (d : Decoder) (f type : Feed) (rest : List Feed), d.decodeState = .gotStx2 → ¬ Proper d f →
      64 < rest.length →
      ∃ before g after, rest = before ++ g :: after ∧
        (st24Decode sc (exec (step sc) d (f :: type :: before)) g).dataWrite = some 64 := by
  refine ⟨?_, ?_, ?_⟩
  · intro d fs f hstate hall
    obtain ⟨state, rxlen, packet⟩ := d
    obtain rfl : state = .unsynced := hstate
    rw [allSteps_append] at hall
    have hfollows := follows_run sc fs (.unsynced rxlen packet []) hall.1
    have hright := follows_step sc hfollows hall.2.1
    exact ⟨hright.within, hright.ofPacket⟩
  · intro d f hstate
    obtain ⟨_, hdata, _, hchannels⟩ := checkPacket_spec sc d f
    have hdecode : st24Decode sc d f = checkPacket sc d f := by
      rw [st24Decode, hstate]
    rw [hdecode]
    constructor
    · intro hwithin
      refine ⟨fun h => ?_, fun _ => hchannels.1 hwithin.channels⟩
      rw [hstate] at h
      cases h
    · intro hproper
      refine ⟨?_, hchannels.2 (hproper.channels hstate)⟩
      rw [hdata]
      exact fun _ hi => absurd hi (Option.not_mem_none _)
  · exact fun d f type rest => exists_outside sc type

/-- A packet with a length byte of 2: its data goes on behind the array. -/
theorem st24_short_packet :
    ¬ ∀ (fs : List Feed) (f : Feed),
      Within (st24Decode ⟨id, id⟩ (exec (step ⟨id, id⟩) ⟨.unsynced, 0, fun _ => 0⟩ fs) f)
        f.maxChanCount := by
  intro hall
  have hnot : ¬ Proper (exec (step ⟨id, id⟩) ⟨.unsynced, 0, fun _ => 0⟩ [⟨stx, 18⟩, ⟨stx, 18⟩])
      ⟨2, 18⟩ := by
    intro hproper
    have hlength := hproper.length rfl
    revert hlength
    decide
  have hrest : 64 < (List.replicate 65 (⟨0, 18⟩ : Feed)).length := by decide
  obtain ⟨before, g, after, -, hwrite⟩ := exists_outside ⟨id, id⟩ ⟨0, 18⟩ rfl hnot hrest
  have hwithin := (hall (⟨stx, 18⟩ :: ⟨stx, 18⟩ :: ⟨2, 18⟩ :: ⟨0, 18⟩ :: before) g).data 64 hwrite
  exact absurd hwithin.2 (by decide)

end St24
end Rc
end DtPhm
