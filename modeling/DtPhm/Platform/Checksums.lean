import DtPhm.Canbootloader.Uavcan
import DtPhm.Lib.Crc
import DtPhm.Px4io.Serial
import DtPhm.Rc.Crsf
import DtPhm.Rc.St24
import DtPhm.Rc.Sumd
import DtPhm.Rtps.Transport

/-!
# Checksums — what the checksums of the firmware compute

`crc.c` of the system library and the table-driven `lib_crc32.c`, beside the checksums of the links,
which stand with their protocols.  Some are loops over bits and some look bytes up in tables; some
take the highest bit of a byte first and some the lowest.

* `crc32Part`, `crc32Signature`, `crc64AddWord` — the functions that no protocol has of its own;
* `checksums_are_remainders` — what they compute, and which of them are the same.
-/

namespace DtPhm
namespace Platform

open Lib Lib.Crc

/-! ## `lib_crc32.c` -/

def crc32Tab : Array UInt32 :=
  #[
    0x00000000, 0x77073096, 0xee0e612c, 0x990951ba, 0x076dc419, 0x706af48f, 0xe963a535, 0x9e6495a3,
    0x0edb8832, 0x79dcb8a4, 0xe0d5e91e, 0x97d2d988, 0x09b64c2b, 0x7eb17cbd, 0xe7b82d07, 0x90bf1d91,
    0x1db71064, 0x6ab020f2, 0xf3b97148, 0x84be41de, 0x1adad47d, 0x6ddde4eb, 0xf4d4b551, 0x83d385c7,
    0x136c9856, 0x646ba8c0, 0xfd62f97a, 0x8a65c9ec, 0x14015c4f, 0x63066cd9, 0xfa0f3d63, 0x8d080df5,
    0x3b6e20c8, 0x4c69105e, 0xd56041e4, 0xa2677172, 0x3c03e4d1, 0x4b04d447, 0xd20d85fd, 0xa50ab56b,
    0x35b5a8fa, 0x42b2986c, 0xdbbbc9d6, 0xacbcf940, 0x32d86ce3, 0x45df5c75, 0xdcd60dcf, 0xabd13d59,
    0x26d930ac, 0x51de003a, 0xc8d75180, 0xbfd06116, 0x21b4f4b5, 0x56b3c423, 0xcfba9599, 0xb8bda50f,
    0x2802b89e, 0x5f058808, 0xc60cd9b2, 0xb10be924, 0x2f6f7c87, 0x58684c11, 0xc1611dab, 0xb6662d3d,
    0x76dc4190, 0x01db7106, 0x98d220bc, 0xefd5102a, 0x71b18589, 0x06b6b51f, 0x9fbfe4a5, 0xe8b8d433,
    0x7807c9a2, 0x0f00f934, 0x9609a88e, 0xe10e9818, 0x7f6a0dbb, 0x086d3d2d, 0x91646c97, 0xe6635c01,
    0x6b6b51f4, 0x1c6c6162, 0x856530d8, 0xf262004e, 0x6c0695ed, 0x1b01a57b, 0x8208f4c1, 0xf50fc457,
    0x65b0d9c6, 0x12b7e950, 0x8bbeb8ea, 0xfcb9887c, 0x62dd1ddf, 0x15da2d49, 0x8cd37cf3, 0xfbd44c65,
    0x4db26158, 0x3ab551ce, 0xa3bc0074, 0xd4bb30e2, 0x4adfa541, 0x3dd895d7, 0xa4d1c46d, 0xd3d6f4fb,
    0x4369e96a, 0x346ed9fc, 0xad678846, 0xda60b8d0, 0x44042d73, 0x33031de5, 0xaa0a4c5f, 0xdd0d7cc9,
    0x5005713c, 0x270241aa, 0xbe0b1010, 0xc90c2086, 0x5768b525, 0x206f85b3, 0xb966d409, 0xce61e49f,
    0x5edef90e, 0x29d9c998, 0xb0d09822, 0xc7d7a8b4, 0x59b33d17, 0x2eb40d81, 0xb7bd5c3b, 0xc0ba6cad,
    0xedb88320, 0x9abfb3b6, 0x03b6e20c, 0x74b1d29a, 0xead54739, 0x9dd277af, 0x04db2615, 0x73dc1683,
    0xe3630b12, 0x94643b84, 0x0d6d6a3e, 0x7a6a5aa8, 0xe40ecf0b, 0x9309ff9d, 0x0a00ae27, 0x7d079eb1,
    0xf00f9344, 0x8708a3d2, 0x1e01f268, 0x6906c2fe, 0xf762575d, 0x806567cb, 0x196c3671, 0x6e6b06e7,
    0xfed41b76, 0x89d32be0, 0x10da7a5a, 0x67dd4acc, 0xf9b9df6f, 0x8ebeeff9, 0x17b7be43, 0x60b08ed5,
    0xd6d6a3e8, 0xa1d1937e, 0x38d8c2c4, 0x4fdff252, 0xd1bb67f1, 0xa6bc5767, 0x3fb506dd, 0x48b2364b,
    0xd80d2bda, 0xaf0a1b4c, 0x36034af6, 0x41047a60, 0xdf60efc3, 0xa867df55, 0x316e8eef, 0x4669be79,
    0xcb61b38c, 0xbc66831a, 0x256fd2a0, 0x5268e236, 0xcc0c7795, 0xbb0b4703, 0x220216b9, 0x5505262f,
    0xc5ba3bbe, 0xb2bd0b28, 0x2bb45a92, 0x5cb36a04, 0xc2d7ffa7, 0xb5d0cf31, 0x2cd99e8b, 0x5bdeae1d,
    0x9b64c2b0, 0xec63f226, 0x756aa39c, 0x026d930a, 0x9c0906a9, 0xeb0e363f, 0x72076785, 0x05005713,
    0x95bf4a82, 0xe2b87a14, 0x7bb12bae, 0x0cb61b38, 0x92d28e9b, 0xe5d5be0d, 0x7cdcefb7, 0x0bdbdf21,
    0x86d3d2d4, 0xf1d4e242, 0x68ddb3f8, 0x1fda836e, 0x81be16cd, 0xf6b9265b, 0x6fb077e1, 0x18b74777,
    0x88085ae6, 0xff0f6a70, 0x66063bca, 0x11010b5c, 0x8f659eff, 0xf862ae69, 0x616bffd3, 0x166ccf45,
    0xa00ae278, 0xd70dd2ee, 0x4e048354, 0x3903b3c2, 0xa7672661, 0xd06016f7, 0x4969474d, 0x3e6e77db,
    0xaed16a4a, 0xd9d65adc, 0x40df0b66, 0x37d83bf0, 0xa9bcae53, 0xdebb9ec5, 0x47b2cf7f, 0x30b5ffe9,
    0xbdbdf21c, 0xcabac28a, 0x53b39330, 0x24b4a3a6, 0xbad03605, 0xcdd70693, 0x54de5729, 0x23d967bf,
    0xb3667a2e, 0xc4614ab8, 0x5d681b02, 0x2a6f2b94, 0xb40bbe37, 0xc30c8ea1, 0x5a05df1b, 0x2d02ef8d]

/-- `crc32part`. -/
def crc32Part (src : List UInt8) (crc32val : UInt32) : UInt32 :=
  src.foldl
    (fun crc32val b =>
      crc32Tab.getD ((crc32val &&& 0xff) ^^^ b.toUInt32).toNat 0 ^^^ (crc32val >>> 8)) crc32val

/-- `crc32`. -/
def crc32 (src : List UInt8) : UInt32 := crc32Part src 0

/-! ## `crc.c` -/

/-- One turn of the inner loop of `crc32_signature`. -/
def crc32Turn (acc : UInt32) : UInt32 :=
  let mask := -(acc &&& 1)
  (acc >>> 1) ^^^ (0xedb88320 &&& mask)

/-- `crc32_signature`. -/
def crc32Signature (acc : UInt32) (bytes : List UInt8) : UInt32 :=
  bytes.foldl (fun acc b => crc32Turn^[8] (acc ^^^ b.toUInt32)) acc

/-- One turn of the inner loop of `crc64_add_word`. -/
def crc64Turn (crc : UInt64) : UInt64 :=
  if crc &&& 0x8000000000000000 ≠ 0 then (crc <<< 1) ^^^ 0x42F0E1EBA9EA3693 else crc <<< 1

/-- A byte of a word goes into the checksum. -/
def crc64Byte (crc : UInt64) (byte : UInt8) : UInt64 := crc64Turn^[8] (crc ^^^ byte.toUInt64 <<< 56)

/-- `crc64_add_word`. -/
def crc64AddWord (crc : UInt64) (value : UInt32) : UInt64 :=
  (leBytes 4 value.toNat).foldl crc64Byte crc

/-! ## Loops over bits -/

theorem iterate_toBitVec {ρ : Type*} {w : ℕ} {g : BitVec w} {turn : ρ → ρ} (reg : ρ → BitVec w)
    {shifted : BitVec w → BitVec w → BitVec w} (hturn : ∀ r, reg (turn r) = shifted g (reg r))
    (n : ℕ) (r : ρ) : reg (turn^[n] r) = (shifted g)^[n] (reg r) :=
  Function.Semiconj.iterate_right hturn n r

theorem crsf_turn (c : UInt8) :
    (if c &&& 0x80 ≠ 0 then (c <<< 1) ^^^ 0xD5 else c <<< 1).toBitVec =
      shiftLeft 0xD5#8 c.toBitVec := by
  have hmask : c &&& 0x80 ≠ 0 ↔ c.toBitVec.msb = true := by
    rw [← and_top_ne_zero_iff c.toBitVec (by decide), Ne, Ne, ← UInt8.toBitVec_inj,
      UInt8.toBitVec_and]
    rfl
  unfold shiftLeft
  simp only [hmask]
  split <;> rfl

theorem crsf_byte (c a : UInt8) :
    (Rc.Crsf.crc8DvbS2 c a).toBitVec = remainder 0xD5#8 c.toBitVec (regBits a.toBitVec) := by
  calc (Rc.Crsf.crc8DvbS2 c a).toBitVec
      = ((fun c : UInt8 => if c &&& 0x80 ≠ 0 then (c <<< 1) ^^^ 0xD5 else c <<< 1)^[8]
          (c ^^^ a)).toBitVec := rfl
    _ = (shiftLeft 0xD5#8)^[8] (c ^^^ a).toBitVec := iterate_toBitVec UInt8.toBitVec crsf_turn 8 _
    _ = (shiftLeft 0xD5#8)^[8] (c.toBitVec ^^^ atTop 8 a.toBitVec) := by
        rw [UInt8.toBitVec_xor, atTop_eight]
    _ = remainder 0xD5#8 c.toBitVec (regBits a.toBitVec) :=
        (remainder_byte (Nat.le_refl 8) _ _ _).symm

theorem sumd_turn (c : UInt16) :
    (Rc.Sumd.crc16Turn c).toBitVec = shiftLeft 0x1021#16 c.toBitVec := by
  have hmask : c &&& 0x8000 ≠ 0 ↔ c.toBitVec.msb = true := by
    rw [← and_top_ne_zero_iff c.toBitVec (by decide), Ne, Ne, ← UInt16.toBitVec_inj,
      UInt16.toBitVec_and]
    rfl
  unfold Rc.Sumd.crc16Turn shiftLeft
  simp only [hmask]
  split <;> rfl

theorem sumd_byte (c : UInt16) (b : UInt8) :
    (Rc.Sumd.sumdCrc16 c b).toBitVec = remainder 0x1021#16 c.toBitVec (regBits b.toBitVec) := by
  calc (Rc.Sumd.sumdCrc16 c b).toBitVec
      = (shiftLeft 0x1021#16)^[8] (c ^^^ b.toUInt16 <<< 8).toBitVec :=
        iterate_toBitVec UInt16.toBitVec sumd_turn 8 _
    _ = (shiftLeft 0x1021#16)^[8] (c.toBitVec ^^^ atTop 16 b.toBitVec) := by
        rw [UInt16.toBitVec_xor]
        rfl
    _ = remainder 0x1021#16 c.toBitVec (regBits b.toBitVec) :=
        (remainder_byte (by decide) _ _ _).symm

theorem crc64_turn (c : UInt64) :
    (crc64Turn c).toBitVec = shiftLeft 0x42F0E1EBA9EA3693#64 c.toBitVec := by
  have hmask : c &&& 0x8000000000000000 ≠ 0 ↔ c.toBitVec.msb = true := by
    rw [← and_top_ne_zero_iff c.toBitVec (by decide), Ne, Ne, ← UInt64.toBitVec_inj,
      UInt64.toBitVec_and]
    rfl
  unfold crc64Turn shiftLeft
  simp only [hmask]
  split <;> rfl

theorem crc64_byte (c : UInt64) (b : UInt8) :
    (crc64Byte c b).toBitVec = remainder 0x42F0E1EBA9EA3693#64 c.toBitVec (regBits b.toBitVec) := by
  calc (crc64Byte c b).toBitVec
      = (shiftLeft 0x42F0E1EBA9EA3693#64)^[8] (c ^^^ b.toUInt64 <<< 56).toBitVec :=
        iterate_toBitVec UInt64.toBitVec crc64_turn 8 _
    _ = (shiftLeft 0x42F0E1EBA9EA3693#64)^[8] (c.toBitVec ^^^ atTop 64 b.toBitVec) := by
        rw [UInt64.toBitVec_xor]
        rfl
    _ = remainder 0x42F0E1EBA9EA3693#64 c.toBitVec (regBits b.toBitVec) :=
        (remainder_byte (by decide) _ _ _).symm

theorem crc32_turn (c : UInt32) : (crc32Turn c).toBitVec = shiftRight 0xedb88320#32 c.toBitVec := by
  have hone : c.toBitVec &&& 1#32 = (BitVec.ofBool (c.toBitVec.getLsbD 0)).setWidth 32 :=
    BitVec.and_one_eq_setWidth_ofBool_getLsbD
  have hmask : (-(c &&& 1)).toBitVec = -(c.toBitVec &&& 1#32) := rfl
  show (c.toBitVec >>> 1) ^^^ (0xedb88320#32 &&& (-(c &&& 1)).toBitVec) = _
  rw [hmask, hone, shiftRight]
  cases c.toBitVec.getLsbD 0 with
  | false =>
      rw [if_neg (by decide)]
      exact BitVec.xor_zero
  | true =>
      rw [if_pos rfl]
      congr 1

/-! ## A bit of a message at a time -/

/-- The mask of a bit, the highest first. -/
def st24Mask (j : ℕ) : UInt8 := ⟨BitVec.twoPow 8 (7 - j)⟩

theorem st24_bit (byte c : UInt8) {j : ℕ} (hj : j < 8) :
    (Rc.St24.crcBit byte c (st24Mask j)).toBitVec =
      shiftIn 0x07#8 c.toBitVec (byte.toBitVec.getMsbD j) := by
  have hmask : c &&& 0x80 ≠ 0 ↔ c.toBitVec.msb = true := by
    rw [← and_top_ne_zero_iff c.toBitVec (by decide), Ne, Ne, ← UInt8.toBitVec_inj,
      UInt8.toBitVec_and]
    rfl
  have hbit : byte &&& st24Mask j ≠ 0 ↔ byte.toBitVec.getMsbD j = true := by
    have hi : 7 - j < 8 := by omega
    rw [BitVec.getMsbD_eq_getLsbD, decide_eq_true hj, Bool.true_and,
      ← and_twoPow_ne_zero_iff byte.toBitVec hi, Ne, Ne, ← UInt8.toBitVec_inj, UInt8.toBitVec_and]
    rfl
  unfold Rc.St24.crcBit shiftIn
  simp only [hmask, hbit]
  cases c.toBitVec.msb <;> cases byte.toBitVec.getMsbD j <;> simp [BitVec.xor_assoc]

theorem st24_byte (c byte : UInt8) :
    ([0x80, 0x40, 0x20, 0x10, 0x08, 0x04, 0x02, 0x01].foldl (Rc.St24.crcBit byte) c).toBitVec =
      remainder 0x07#8 c.toBitVec (regBits byte.toBitVec) := by
  have hmasks : ([0x80, 0x40, 0x20, 0x10, 0x08, 0x04, 0x02, 0x01] : List UInt8) =
      (List.range 8).map st24Mask := by decide
  -- on the bits that are left
  have hbits : ∀ (js : List ℕ) (c : UInt8), (∀ j ∈ js, j < 8) →
      ((js.map st24Mask).foldl (Rc.St24.crcBit byte) c).toBitVec =
        remainder 0x07#8 c.toBitVec (js.map byte.toBitVec.getMsbD) := by
    intro js
    induction js with
    | nil => exact fun _ _ => rfl
    | cons j js ih =>
        intro c hjs
        have hj := hjs j (List.mem_cons_self ..)
        rw [List.map_cons, List.foldl_cons, ih _ fun i hi => hjs i (List.mem_cons_of_mem _ hi),
          st24_bit byte c hj]
        rfl
  rw [hmasks]
  exact hbits _ c fun j hj => List.mem_range.1 hj

/-! ## Tables -/

theorem px4io_table (x : BitVec 8) :
    (Px4io.crc8Tab.getD x.toNat 0).toBitVec = (shiftLeft 0x07#8)^[8] x := by
  have htable : (List.range 256).map (shiftNat 8 0x07)^[8] =
      Px4io.crc8Tab.toList.map fun r => r.toBitVec.toNat := by
    decide +kernel
  rw [← getD_table (toNat_shift 0x07#8) htable 0 x.isLt, Array.getD_eq_getD_getElem?,
    List.getD_eq_getElem?_getD, Array.getElem?_toList]

theorem px4io_byte (c b : UInt8) :
    (Px4io.crc8Tab.getD (c ^^^ b).toNat 0).toBitVec =
      remainder 0x07#8 c.toBitVec (regBits b.toBitVec) := by
  rw [remainder_byte (Nat.le_refl 8), atTop_eight, ← UInt8.toBitVec_xor]
  exact px4io_table _

theorem toNat_setWidth_byte {w : ℕ} (hw : 8 ≤ w) (x : BitVec 8) :
    (x.setWidth w).toNat = x.toNat := by
  rw [BitVec.toNat_setWidth, Nat.mod_eq_of_lt]
  exact x.isLt.trans_le (Nat.pow_le_pow_right (by decide) hw)

theorem rtps_table (x : BitVec 8) :
    (Rtps.crc16Table.getD x.toNat 0).toBitVec = (shiftRight 0xA001#16)^[8] (x.setWidth 16) := by
  have hx := toNat_setWidth_byte (w := 16) (by decide) x
  have htable : (List.range 256).map (shiftRightNat 0xA001)^[8] =
      Rtps.crc16Table.map fun r => r.toBitVec.toNat := by
    decide +kernel
  rw [← getD_table (toNat_shiftRight 0xA001#16) htable 0 (hx.trans_lt x.isLt), hx]

theorem rtps_byte (c : UInt16) (b : UInt8) :
    (Rtps.crc16Byte c b).toBitVec.reverse =
      remainder 0x8005#16 c.toBitVec.reverse (regBits b.toBitVec.reverse) := by
  have hindex : ((c ^^^ b.toUInt16) &&& 0xff).toNat =
      (c.toBitVec.setWidth 8 ^^^ b.toBitVec).toNat := by
    calc ((c ^^^ b.toUInt16) &&& 0xff).toNat
        = (c.toNat ^^^ b.toNat) &&& (2 ^ 8 - 1) := by simp
      _ = (c.toNat ^^^ b.toNat) % 2 ^ 8 := Nat.and_two_pow_sub_one_eq_mod _ 8
      _ = c.toNat % 2 ^ 8 ^^^ b.toNat % 2 ^ 8 := Nat.xor_mod_two_pow
      _ = (c.toBitVec.setWidth 8 ^^^ b.toBitVec).toNat := by
          rw [Nat.mod_eq_of_lt b.toNat_lt]
          simp
  have hturn : (Rtps.crc16Byte c b).toBitVec =
      (shiftRight 0xA001#16)^[8] (c.toBitVec ^^^ b.toBitVec.setWidth 16) := by
    rw [← table_turn (by decide) rtps_table, ← hindex]
    rfl
  rw [hturn, reverse_byte (by decide)]
  rfl

theorem crc32_table (x : BitVec 8) :
    (crc32Tab.getD x.toNat 0).toBitVec = (shiftRight 0xedb88320#32)^[8] (x.setWidth 32) := by
  have hx := toNat_setWidth_byte (w := 32) (by decide) x
  have htable : (List.range 256).map (shiftRightNat 0xedb88320)^[8] =
      crc32Tab.toList.map fun r => r.toBitVec.toNat := by
    decide +kernel
  rw [← getD_table (toNat_shiftRight 0xedb88320#32) htable 0 (hx.trans_lt x.isLt), hx,
    Array.getD_eq_getD_getElem?, List.getD_eq_getElem?_getD, Array.getElem?_toList]

theorem crc32Part_byte (c : UInt32) (b : UInt8) :
    (crc32Tab.getD ((c &&& 0xff) ^^^ b.toUInt32).toNat 0 ^^^ (c >>> 8)).toBitVec =
      (shiftRight 0xedb88320#32)^[8] (c.toBitVec ^^^ b.toBitVec.setWidth 32) := by
  have hindex : ((c &&& 0xff) ^^^ b.toUInt32).toNat =
      (c.toBitVec.setWidth 8 ^^^ b.toBitVec).toNat := by
    calc ((c &&& 0xff) ^^^ b.toUInt32).toNat
        = (c.toNat &&& (2 ^ 8 - 1)) ^^^ b.toNat := by simp
      _ = c.toNat % 2 ^ 8 ^^^ b.toNat := by rw [Nat.and_two_pow_sub_one_eq_mod]
      _ = (c.toBitVec.setWidth 8 ^^^ b.toBitVec).toNat := by simp
  have hmoved : (c >>> 8).toBitVec = c.toBitVec >>> 8 := rfl
  have hturn := table_turn (by decide) crc32_table c.toBitVec b.toBitVec
  rw [← hindex] at hturn
  rw [← hturn, UInt32.toBitVec_xor, hmoved]
  exact BitVec.xor_comm _ _

theorem crc32Signature_byte (c : UInt32) (b : UInt8) :
    (crc32Turn^[8] (c ^^^ b.toUInt32)).toBitVec =
      (shiftRight 0xedb88320#32)^[8] (c.toBitVec ^^^ b.toBitVec.setWidth 32) := by
  rw [iterate_toBitVec UInt32.toBitVec crc32_turn, UInt32.toBitVec_xor]
  rfl

/-- The table of `lib_crc32.c` and the loop of `crc.c` do the same to every byte. -/
theorem crc32Part_eq_signature (c : UInt32) (bs : List UInt8) :
    crc32Part bs c = crc32Signature c bs := by
  have hturn : (fun (c : UInt32) (b : UInt8) =>
      crc32Tab.getD ((c &&& 0xff) ^^^ b.toUInt32).toNat 0 ^^^ (c >>> 8)) =
      fun c b => crc32Turn^[8] (c ^^^ b.toUInt32) := by
    funext c b
    apply UInt32.toBitVec_inj.1
    rw [crc32Part_byte, crc32Signature_byte]
  rw [crc32Part, crc32Signature, hturn]

/-! ## Messages -/

theorem crc32Part_eq_remainder (c : UInt32) (bs : List UInt8) :
    (crc32Part bs c).toBitVec.reverse =
      remainder 0x04C11DB7#32 c.toBitVec.reverse (lowFirst bs) := by
  apply foldl_eq_remainder fun c : UInt32 => c.toBitVec.reverse
  intro c b
  have hreverse : (0xedb88320#32).reverse = 0x04C11DB7#32 := by decide +kernel
  rw [crc32Part_byte, reverse_byte (by decide), hreverse]

theorem crc32_ne_of_isBurst {bs cs : List UInt8} (hlen : bs.length = cs.length)
    (h : IsBurst 32 (lowDifference bs cs)) : crc32 bs ≠ crc32 cs := by
  intro heq
  have hbits : (lowFirst bs).length = (lowFirst cs).length := by
    rw [length_lowFirst, length_lowFirst, hlen]
  have hremainder : remainder 0x04C11DB7#32 _ (lowFirst bs) =
      remainder 0x04C11DB7#32 _ (lowFirst cs) :=
    (crc32Part_eq_remainder 0 bs).symm.trans
      ((congrArg (fun c : UInt32 => c.toBitVec.reverse) heq).trans (crc32Part_eq_remainder 0 cs))
  exact not_dvd_of_isBurst (by decide) h ((remainder_eq_iff (by decide) _ hbits).1 hremainder)

theorem crcPacket_eq_fold (p : Px4io.Packet) :
    Px4io.crcPacket p =
      (load p 0 p.size).foldl (fun c b => Px4io.crc8Tab.getD (c ^^^ b).toNat 0) 0 := by
  simp [Px4io.crcPacket, load, List.foldl_map]

theorem crcPacket_eq_remainder (p : Px4io.Packet) :
    (Px4io.crcPacket p).toBitVec = remainder 0x07#8 0#8 (highFirst (load p 0 p.size)) := by
  rw [crcPacket_eq_fold]
  exact foldl_eq_remainder UInt8.toBitVec px4io_byte 0 _

/-- Every checksum of the firmware is the remainder by its generator, and so those with the same
generator are the same function: the two of polynomial 0x07, the two of 0x1021 and the two of
0x04C11DB7. -/
theorem checksums_are_remainders (bs : List UInt8) :
    (∀ c : UInt8, (bs.foldl Rc.Crsf.crc8DvbS2 c).toBitVec =
      remainder 0xD5#8 c.toBitVec (highFirst bs)) ∧
    (Rc.St24.st24CommonCrc8 bs).toBitVec = remainder 0x07#8 0#8 (highFirst bs) ∧
    (∀ p : Px4io.Packet, load p 0 p.size = bs → Px4io.crcPacket p = Rc.St24.st24CommonCrc8 bs) ∧
    (∀ c : UInt16, (bs.foldl Rc.Sumd.sumdCrc16 c).toBitVec =
      remainder 0x1021#16 c.toBitVec (highFirst bs)) ∧
    (∀ c : UInt16, Canbootloader.crc16Signature c bs = bs.foldl Rc.Sumd.sumdCrc16 c) ∧
    (∀ (c : UInt64) (ws : List UInt32), ws.flatMap (fun w => leBytes 4 w.toNat) = bs →
      (ws.foldl crc64AddWord c).toBitVec =
        remainder 0x42F0E1EBA9EA3693#64 c.toBitVec (highFirst bs)) ∧
    (Rtps.crc16 bs).toBitVec.reverse = remainder 0x8005#16 0#16 (lowFirst bs) ∧
    (∀ c : UInt32, (crc32Part bs c).toBitVec.reverse =
      remainder 0x04C11DB7#32 c.toBitVec.reverse (lowFirst bs)) ∧
    ∀ c : UInt32, crc32Part bs c = crc32Signature c bs := by
  have hst24 : (Rc.St24.st24CommonCrc8 bs).toBitVec = remainder 0x07#8 0#8 (highFirst bs) :=
    foldl_eq_remainder UInt8.toBitVec st24_byte 0 bs
  refine ⟨fun c => foldl_eq_remainder UInt8.toBitVec crsf_byte c bs, hst24, ?_,
    fun c => foldl_eq_remainder UInt16.toBitVec sumd_byte c bs, fun _ => rfl,
    ?_, ?_,
    fun c => crc32Part_eq_remainder c bs, fun c => crc32Part_eq_signature c bs⟩
  · rintro p rfl
    apply UInt8.toBitVec_inj.1
    rw [hst24, crcPacket_eq_remainder]
  · rintro c ws rfl
    have hwords : ws.foldl crc64AddWord c =
        (ws.flatMap fun w => leBytes 4 w.toNat).foldl crc64Byte c := List.foldl_flatMap.symm
    rw [hwords]
    exact foldl_eq_remainder UInt64.toBitVec crc64_byte c _
  · exact foldl_eq_remainder (fun c : UInt16 => c.toBitVec.reverse) rtps_byte 0 bs

end Platform
end DtPhm
