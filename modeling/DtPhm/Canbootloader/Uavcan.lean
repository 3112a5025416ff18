import DtPhm.Lib.Bytes

/-!
# Uavcan — the transfers of the CAN bootloader

The functions of `protocol/uavcan.c`, under their names.  A transfer is cut into CAN frames, each
with a tail byte behind its data; what comes in is filtered and put together again.

* `Frame`, `Tail`, `CanId` — a received frame, and the fields of its tail byte and its ID;
* `uavcanTxDsdl` — the frames of a transfer;
* `rxFrame`, `rxLoop`, `uavcanRxDsdl` — the receiver, frame by frame.
-/

namespace DtPhm
namespace Canbootloader

open Lib

/-! ## Frames -/

/-- The data type and, of a service, also the direction and the destination: bits 7 to 23 of an
ID. -/
inductive Kind
  | message (typeId : Fin 65536)
  | service (typeId : Fin 256) (requestNotResponse : Bool) (destNodeId : Fin 128)
  deriving DecidableEq, Repr

/-- `service_not_message`. -/
def Kind.isService : Kind → Bool
  | .message _ => false
  | .service _ _ _ => true

/-- The kind of a transfer to this node; a message has no destination. -/
def Kind.withDest : Kind → Fin 128 → Kind
  | .message typeId, _ => .message typeId
  | .service typeId request _, node => .service typeId request node

/-- A CAN ID. -/
structure CanId where
  priority : Fin 32
  kind : Kind
  sourceNodeId : Fin 128
  deriving DecidableEq, Repr

/-! What the literals of the fields look up. -/

scoped instance neZero32 : NeZero (32 : ℕ) := ⟨Nat.succ_ne_zero 31⟩
scoped instance neZero128 : NeZero (128 : ℕ) := ⟨Nat.succ_ne_zero 127⟩
scoped instance neZero256 : NeZero (256 : ℕ) := ⟨Nat.succ_ne_zero 255⟩
scoped instance neZero65536 : NeZero (65536 : ℕ) := ⟨Nat.succ_ne_zero 65535⟩

/-- `ANY_NODE_ID` as the 32 bits of an ID. -/
def CanId.zero : CanId := ⟨0, .message 0, 0⟩

/-- `uavcan_tail_t`. -/
structure Tail where
  transferId : Fin 32
  toggle : Bool
  eot : Bool
  sot : Bool
  deriving DecidableEq, Repr

def Tail.ofByte (b : UInt8) : Tail where
  transferId := Fin.ofNat 32 b.toNat
  toggle := decide (b.toNat / 32 % 2 = 1)
  eot := decide (b.toNat / 64 % 2 = 1)
  sot := decide (b.toNat / 128 % 2 = 1)

def Tail.toByte (t : Tail) : UInt8 :=
  UInt8.ofNat (t.transferId + 32 * t.toggle.toNat + 64 * t.eot.toNat + 128 * t.sot.toNat)

@[simp] theorem Tail.ofByte_toByte (t : Tail) : Tail.ofByte t.toByte = t := by
  rcases t with ⟨⟨n, hn⟩, toggle, eot, sot⟩
  have hlt : n + 32 * toggle.toNat + 64 * eot.toNat + 128 * sot.toNat < 256 := by
    have := toggle.toNat_le
    have := eot.toNat_le
    have := sot.toNat_le
    omega
  have hval : (Tail.toByte ⟨⟨n, hn⟩, toggle, eot, sot⟩).toNat =
      n + 32 * toggle.toNat + 64 * eot.toNat + 128 * sot.toNat := by
    rw [Tail.toByte, UInt8.toNat_ofNat', Nat.mod_eq_of_lt hlt]
  simp only [Tail.ofByte, hval, Tail.mk.injEq, Fin.ext_iff, Fin.val_ofNat]
  cases toggle <;> cases eot <;> cases sot <;> simp <;> omega

/-- `uavcan_protocol_t`. -/
structure Protocol where
  id : CanId
  tail : Tail
  deriving DecidableEq, Repr

/-- A received frame: its ID, its data length, and the eight bytes of its data.  Further on in
`data` stands what follows the buffer in memory. -/
structure Frame where
  id : CanId
  dlc : ℕ
  data : Mem
  dlc_le : dlc ≤ 8

/-- A frame as it is sent: its ID and its data. -/
structure TxFrame where
  id : CanId
  bytes : List UInt8
  deriving DecidableEq, Repr

/-! ## Data types -/

/-- The values of tail bytes in `dsdl_table`; `na` is 0. -/
inductive TailInit
  | singleFrame
  | multiFrame
  | na
  deriving DecidableEq, Repr

/-- The start of a transfer is set in the tail byte. -/
def TailInit.sot : TailInit → Bool
  | .na => false
  | _ => true

/-- The end of a transfer is set in the tail byte. -/
def TailInit.eot : TailInit → Bool
  | .singleFrame => true
  | _ => false

/-- `dsdl_t`; the destination in the kind of a service is 0. -/
structure DsdlEntry where
  kind : Kind
  signatureCrc16 : UInt16
  intail : TailInit
  outtail : TailInit

/-- `uavcan_dsdl_t`. -/
inductive Dsdl
  | msgAllocation
  | msgNodeStatus
  | reqGetNodeInfo
  | rspGetNodeInfo
  | reqBeginFirmwareUpdate
  | rspBeginFirmwareUpdate
  | reqGetInfo
  | rspGetInfo
  | reqRead
  | rspRead
  | msgLogMessage
  deriving DecidableEq, Repr

/-- `dsdl_table`. -/
def Dsdl.entry : Dsdl → DsdlEntry
  | .msgAllocation => ⟨.message 1, 0xf258, .multiFrame, .singleFrame⟩
  | .msgNodeStatus => ⟨.message 341, 0xbe5f, .singleFrame, .singleFrame⟩
  | .reqGetNodeInfo => ⟨.service 1 true 0, 0xd9a7, .singleFrame, .multiFrame⟩
  | .rspGetNodeInfo => ⟨.service 1 false 0, 0xd9a7, .singleFrame, .multiFrame⟩
  | .reqBeginFirmwareUpdate => ⟨.service 40 true 0, 0x729e, .multiFrame, .singleFrame⟩
  | .rspBeginFirmwareUpdate => ⟨.service 40 false 0, 0x729e, .multiFrame, .singleFrame⟩
  | .reqGetInfo => ⟨.service 45 true 0, 0x14b9, .singleFrame, .multiFrame⟩
  | .rspGetInfo => ⟨.service 45 false 0, 0x14b9, .singleFrame, .multiFrame⟩
  | .reqRead => ⟨.service 48 true 0, 0x2f12, .singleFrame, .multiFrame⟩
  | .rspRead => ⟨.service 48 false 0, 0x2f12, .singleFrame, .multiFrame⟩
  | .msgLogMessage => ⟨.message 16383, 0x4570, .na, .singleFrame⟩

/-- The globals `g_this_node_id` and `g_uavcan_priority`, as far as the fields of an ID hold
them. -/
structure Node where
  thisNodeId : Fin 128
  priority : Fin 32

/-- `load_dsdl_protocol` with `InBound`. -/
def Protocol.loadInBound (node : Node) (d : Dsdl) (protocol : Protocol) (thatNodeId : Fin 128) :
    Protocol where
  id :=
    { priority := node.priority
      kind := d.entry.kind.withDest node.thisNodeId
      sourceNodeId := if d.entry.kind.isService then thatNodeId else 0 }
  tail :=
    { transferId := protocol.tail.transferId
      toggle := false
      eot := d.entry.intail.eot
      sot := d.entry.intail.sot }

/-- `load_dsdl_protocol` with `OutBound`. -/
def Protocol.loadOutBound (node : Node) (d : Dsdl) (protocol : Protocol) (thatNodeId : Fin 128) :
    Protocol where
  id :=
    { priority := node.priority
      kind := d.entry.kind.withDest thatNodeId
      sourceNodeId := node.thisNodeId }
  tail :=
    { transferId := protocol.tail.transferId
      toggle := false
      eot := d.entry.outtail.eot
      sot := d.entry.outtail.sot }

/-! ## Checksums -/

/-- One bit of `crc16_add`. -/
def crc16Bit (crc : UInt16) : UInt16 :=
  if crc &&& 0x8000 ≠ 0 then (crc <<< 1) ^^^ 0x1021 else crc <<< 1

/-- `crc16_add`. -/
def crc16Add (crc : UInt16) (value : UInt8) : UInt16 :=
  crc16Bit^[8] (crc ^^^ (value.toUInt16 <<< 8))

/-- `crc16_signature`; `CRC16_OUTPUT_XOR` is 0. -/
def crc16Signature (initial : UInt16) (bytes : List UInt8) : UInt16 := bytes.foldl crc16Add initial

/-- The two bytes of a checksum as they are sent. -/
def crcBytes (crc : UInt16) : List UInt8 := [UInt8.ofNat crc.toNat, UInt8.ofNat (crc.toNat / 256)]

/-- `uavcan_make_uint16`. -/
def makeUint16 (d₀ d₁ : UInt8) : UInt16 := UInt16.ofNat (d₁.toNat * 256 + d₀.toNat)

@[simp] theorem makeUint16_crcBytes (crc : UInt16) :
    makeUint16 (UInt8.ofNat crc.toNat) (UInt8.ofNat (crc.toNat / 256)) = crc := by
  have hlt : crc.toNat < 2 ^ 16 := crc.toNat_lt
  apply UInt16.toNat_inj.1
  simp only [makeUint16, UInt16.toNat_ofNat', UInt8.toNat_ofNat']
  omega

/-! ## Sending -/

/-- `MaxUserPayloadLength`. -/
def maxUserPayloadLength : ℕ := 7

/-- The loop of `uavcan_tx_dsdl`, with the bytes that are in the payload already. -/
def txLoop (id : CanId) : (tail : Tail) → (payload transfer : List UInt8) → List TxFrame
  | _, _, [] => []
  | tail, payload, b :: bs =>
      let payload := payload ++ [b]
      let tail := { tail with eot := bs.isEmpty }
      if payload.length = maxUserPayloadLength ∨ tail.eot then
        ⟨id, payload ++ [tail.toByte]⟩ ::
          txLoop id { tail with toggle := !tail.toggle, sot := false } [] bs
      else txLoop id tail payload bs

/-- The frames that `uavcan_tx_dsdl` sends, each of them with success. -/
def uavcanTxDsdl (node : Node) (d : Dsdl) (protocol : Protocol) (transfer : List UInt8) :
    List TxFrame :=
  let protocol := protocol.loadOutBound node d protocol.id.sourceNodeId
  -- only a transfer of more than one frame has a checksum
  let payload :=
    if maxUserPayloadLength < transfer.length then
      crcBytes (crc16Signature d.entry.signatureCrc16 transfer)
    else []
  txLoop protocol.id protocol.tail payload transfer

/-! ## Receiving -/

namespace Frame

variable (f : Frame)

/-- The length without the tail byte, a `size_t`. -/
def rxLength : ℕ := (f.dlc + (2 ^ 32 - 1)) % 2 ^ 32

/-- The tail byte: the last byte of the frame. -/
def tail : Tail := Tail.ofByte (f.data f.rxLength)

/-- The first frame of a transfer of several. -/
def isFirst : Bool := f.tail.sot && !f.tail.eot

/-- The checksum in the first frame. -/
def crc : UInt16 := makeUint16 (f.data 0) (f.data 1)

/-- `payload_index`: where the data starts. -/
def index : ℕ := if f.isFirst then 2 else 0

/-- `rx_length`, the length of the data, a `size_t`. -/
def length : ℕ := if f.isFirst then (f.rxLength + (2 ^ 32 - 2)) % 2 ^ 32 else f.rxLength

end Frame

/-- What `uavcan_init_comapare_masks` makes of the masks.  The masks of the ID always hold the bits
of the data type and the destination, those of the tail always toggle and start of transfer. -/
structure Masks where
  source : Bool
  transferId : Bool
  deriving DecidableEq, Repr

/-- The stage `Initialization`. -/
def Masks.initialization (protocol : Protocol) : Masks :=
  ⟨decide (protocol.id.sourceNodeId ≠ 0), false⟩

/-- The stage `OnStartOfTransfer`. -/
def Masks.onStartOfTransfer : Masks := ⟨true, true⟩

/-- The variables of `uavcan_rx_dsdl`. -/
structure Rx where
  protocol : Protocol
  masks : Masks
  transferCrc : UInt16
  totalRx : ℕ
  transfer : Mem

namespace Rx

variable (capacity : ℕ) (s : Rx) (f : Frame)

/-- The frame passes the masks. -/
def Matches : Prop :=
  ¬(f.tail.sot ∧ f.tail.toggle) ∧ f.id.kind = s.protocol.id.kind ∧
    (s.masks.source → f.id.sourceNodeId = s.protocol.id.sourceNodeId) ∧
    f.tail.sot = s.protocol.tail.sot ∧ f.tail.toggle = s.protocol.tail.toggle ∧
    (s.masks.transferId → f.tail.transferId = s.protocol.tail.transferId)

instance : Decidable (s.Matches f) := inferInstanceAs (Decidable (_ ∧ _))

/-- A frame that starts a transfer is noted down. -/
def start : Rx :=
  if f.tail.sot then
    { s with
      protocol :=
        { id := { s.protocol.id with sourceNodeId := f.id.sourceNodeId }
          tail := { s.protocol.tail with sot := false, transferId := f.tail.transferId } }
      masks := Masks.onStartOfTransfer
      transferCrc := if f.isFirst then f.crc else s.transferCrc
      totalRx := 0 }
  else s

/-- The data does not belong to the transfer, or there is no room left. -/
def Overflows : Prop :=
  s.protocol.tail.transferId < f.tail.transferId ∨ capacity ≤ s.totalRx

instance : Decidable (s.Overflows capacity f) := inferInstanceAs (Decidable (_ ∨ _))

def restart : Rx :=
  { s with
    masks := Masks.initialization s.protocol
    protocol :=
      { s.protocol with tail := { s.protocol.tail with sot := true, toggle := false } } }

/-- The data of the frame fits into the buffer; the sum is a `size_t`. -/
def Fits : Prop := (s.totalRx + f.length) % 2 ^ 32 ≤ capacity

instance : Decidable (s.Fits capacity f) := inferInstanceAs (Decidable (_ ≤ _))

/-- The data goes to the buffer, if it fits. -/
def copy : Rx :=
  if s.Fits capacity f then
    { s with
      transfer := store s.transfer s.totalRx (load f.data f.index f.length)
      totalRx := (s.totalRx + f.length) % 2 ^ 32 }
  else s

def flip : Rx :=
  { s with
    protocol :=
      { s.protocol with tail := { s.protocol.tail with toggle := !s.protocol.tail.toggle } } }

end Rx

/-- One frame in the loop of `uavcan_rx_dsdl`, and whether it ends the transfer. -/
def rxFrame (capacity : ℕ) (s : Rx) (f : Frame) : Rx × Bool :=
  if s.Matches f then
    let s := s.start f
    if s.Overflows capacity f then ((s.restart.copy capacity f).flip, f.tail.eot)
    else if f.tail.transferId < s.protocol.tail.transferId then (s, false)
    else ((s.copy capacity f).flip, f.tail.eot)
  else (s, false)

/-- One round of the loop: what is in the fifo, and whether the timer has expired after it. -/
structure Poll where
  frame : Option Frame
  expired : Bool

/-- The loop of `uavcan_rx_dsdl`, with the frame that has ended the transfer, or none after a
timeout. It goes on where there are no more polls. -/
def rxLoop (capacity : ℕ) : Rx → List Poll → Option (Rx × Option Frame)
  | _, [] => none
  | s, p :: ps =>
      match p.frame with
      | none => if p.expired then some (s, none) else rxLoop capacity s ps
      | some f =>
          match rxFrame capacity s f with
          | (s, true) => some (s, some f)
          | (s, false) => if p.expired then some (s, none) else rxLoop capacity s ps

/-- The variables of `uavcan_rx_dsdl` before its loop. -/
def Rx.init (node : Node) (d : Dsdl) (protocol : Protocol) (transfer : Mem) : Rx :=
  let protocol := protocol.loadInBound node d protocol.id.sourceNodeId
  { protocol := protocol
    masks := Masks.initialization protocol
    transferCrc := 0
    totalRx := 0
    transfer := transfer }

/-- What `uavcan_rx_dsdl` returns and what it has written through its arguments. -/
structure Received where
  ok : Bool
  protocol : Protocol
  transfer : Mem
  length : ℕ

/-- The checks behind the loop. -/
def Rx.finish (d : Dsdl) (capacity : ℕ) (s : Rx) : Option Frame → Received
  | none => ⟨false, s.protocol, s.transfer, capacity⟩
  | some f =>
      let crcOk :=
        s.transferCrc = crc16Signature d.entry.signatureCrc16 (load s.transfer 0 s.totalRx)
      ⟨f.tail.sot || decide crcOk, s.protocol, s.transfer, s.totalRx⟩

/-- `uavcan_rx_dsdl`, with the polls of its fifo. -/
def uavcanRxDsdl (node : Node) (d : Dsdl) (protocol : Protocol) (transfer : Mem) (capacity : ℕ)
    (polls : List Poll) : Option Received :=
  match rxLoop capacity (Rx.init node d protocol transfer) polls with
  | none => none
  | some (s, last) => some (s.finish d capacity last)

end Canbootloader
end DtPhm
