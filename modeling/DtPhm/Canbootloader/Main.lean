import DtPhm.Lib.Progress
import DtPhm.Canbootloader.Uavcan

/-!
# Main — what the CAN bootloader receives

The functions of `uavcan/main.c` that wait for transfers, under their names: the allocation of a
node ID, the request to update the firmware, the length of the file, and the file itself.  Each goes
round a loop; a round is given what the fifo and the timers show in it.  What the functions only
send is left out.
-/

namespace DtPhm
namespace Canbootloader

open Lib

/-! ## `get_dynamic_node_id` -/

/-- `sizeof(uavcan_Allocation_t)`. -/
def allocationSize : ℕ := 17

/-- The bytes of a unique ID. -/
def uniqueIdSize : ℕ := 16

/-- A round of `get_dynamic_node_id`: whether the request timer and the boot timer have expired, the
polls of its two receives, and what the second buffer holds at first. -/
structure AllocRound where
  trequestExpired : Bool
  polls : List Poll
  rxPayload : Mem
  followup : List Poll
  tbootExpired : Bool

/-- The variables of `get_dynamic_node_id`; `restart` says that it jumps to the label of that
name. -/
structure Alloc where
  protocol : Protocol
  serverNodeId : Fin 128
  allocationMessage : Mem
  allocatedNodeId : ℕ
  restart : Bool

/-- What is to be done after the first receive of a round. -/
inductive AllocCase
  | skip
  | restart
  | allocated (nodeId : ℕ)
  | followup (rxLen : ℕ)
  deriving DecidableEq, Repr

namespace Alloc

variable (node : Node) (uniqueId : ℕ → UInt8) (a : Alloc) (r : AllocRound)

/-- The round up to its first receive. -/
def start : Alloc :=
  if a.restart ∨ r.trequestExpired then { a with serverNodeId := 0, restart := false } else a

/-- The first receive. -/
def receive : Option Received :=
  let a := a.start r
  uavcanRxDsdl node .msgAllocation
    { a.protocol with id := { a.protocol.id with sourceNodeId := a.serverNodeId } }
    a.allocationMessage allocationSize r.polls

/-- The bytes of the unique ID that match the message. -/
def matched (message : Mem) (maxCompare : ℕ) : ℕ :=
  ((List.range maxCompare).takeWhile fun i => uniqueId i == message (1 + i)).length

theorem matched_le (message : Mem) (n : ℕ) : matched uniqueId message n ≤ n := by
  calc
    matched uniqueId message n ≤ (List.range n).length := (List.takeWhile_sublist _).length_le
    _ = n := List.length_range

/-- The rules C to E, with the length that was received less the node ID, a `size_t`. -/
def rules (received : Received) : AllocCase :=
  let rxLen := (received.length + (2 ^ 32 - 1)) % 2 ^ 32
  let matched := matched uniqueId received.transfer (min uniqueIdSize rxLen)
  if ¬received.ok then .skip
  -- from another client
  else if received.protocol.id.sourceNodeId = 0 then .skip
  else if matched < rxLen then .restart
  else if matched = uniqueIdSize then .allocated ((received.transfer 0).toNat / 2)
  else .followup rxLen

/-- The variables after the first receive. -/
def store (received : Received) : Alloc :=
  let a := a.start r
  { a with
    protocol := received.protocol
    allocationMessage := received.transfer
    serverNodeId :=
      if received.ok ∧ a.serverNodeId = 0 then received.protocol.id.sourceNodeId
      else a.serverNodeId }

/-- The second receive, in rule D.1: what is left of the first length is taken for the length of the
second buffer. -/
def receiveFollowup (received : Received) (rxLen : ℕ) : Option Received :=
  uavcanRxDsdl node .msgAllocation { received.protocol with id := CanId.zero } r.rxPayload rxLen
    r.followup

/-- The end of the loop. -/
def next : Progress Alloc ℕ :=
  if r.tbootExpired then .returns a.allocatedNodeId else .goesOn a

/-- One round of `get_dynamic_node_id`; it returns the node ID. -/
def round : Progress Alloc ℕ :=
  match a.receive node r with
  | none => .isHeld
  | some received =>
      match rules uniqueId received with
      | .skip => (a.store r received).next r
      | .restart => .goesOn { a.store r received with restart := true }
      | .allocated nodeId => .returns nodeId
      | .followup rxLen =>
          match receiveFollowup node r received rxLen with
          | none => .isHeld
          | some followup =>
              let a := { a.store r received with protocol := followup.protocol }
              if followup.ok then .goesOn { a with restart := true } else a.next r

end Alloc

/-! ## `wait_for_beginfirmwareupdate` -/

/-- `sizeof(uavcan_Path_t)`. -/
def pathSize : ℕ := 200

/-- A round of `wait_for_beginfirmwareupdate`. -/
structure WaitRound where
  tbootExpired : Bool
  polls : List Poll

/-- Its variables. -/
structure Wait where
  protocol : Protocol
  request : Mem

/-- A request to update the firmware: the server, and the path of the file.  The length, a `size_t`,
is the one of the request less one byte. -/
structure BeginFirmwareUpdate where
  serverNodeId : UInt8
  path : List UInt8
  pathLength : ℕ
  priority : Fin 32

/-- One round of `wait_for_beginfirmwareupdate`; it returns nothing when the boot timer has
expired. -/
def Wait.round (node : Node) (w : Wait) (r : WaitRound) :
    Progress Wait (Option BeginFirmwareUpdate) :=
  if r.tbootExpired then .returns none
  else
    match uavcanRxDsdl node .reqBeginFirmwareUpdate { w.protocol with id := CanId.zero } w.request
        (1 + pathSize) r.polls with
    | none => .isHeld
    | some received =>
        if received.ok then
          .returns <| some
            { serverNodeId := received.transfer 0
              path := load received.transfer 1 pathSize
              pathLength := (received.length + (2 ^ 32 - 1)) % 2 ^ 32
              priority := received.protocol.id.priority }
        else .goesOn ⟨received.protocol, received.transfer⟩

/-! ## `file_getinfo` -/

/-- `UavcanServiceRetries`. -/
def uavcanServiceRetries : ℕ := 3

/-- A request that is sent, with success or not, and what is polled after it. -/
structure Attempt where
  sent : Bool
  polls : List Poll

/-- `protocol.ser.source_node_id = g_server_node_id`. -/
def Protocol.fromServer (protocol : Protocol) (server : Fin 128) : Protocol :=
  { protocol with id := { protocol.id with sourceNodeId := server } }

/-- `protocol.tail.transfer_id++`. -/
def Protocol.nextTransfer (protocol : Protocol) : Protocol :=
  { protocol with tail := { protocol.tail with transferId := protocol.tail.transferId + 1 } }

/-- A server that is asked. -/
structure Server where
  node : Node
  serverNodeId : Fin 128

/-- The receive that follows a request to the server.  Of what sending leaves in `protocol`, only
the transfer ID is used. -/
def Server.answer (sv : Server) (d : Dsdl) (protocol : Protocol) (response : Mem) (size : ℕ)
    (polls : List Poll) : Option Received :=
  uavcanRxDsdl sv.node d (protocol.fromServer sv.serverNodeId) response size polls

/-- `sizeof(uavcan_GetInfo_response_t)`. -/
def getInfoSize : ℕ := 8

/-- The variables of `file_getinfo`. -/
structure GetInfo where
  protocol : Protocol
  response : Mem
  retries : ℕ

/-- The checks of a response: no error, a file or readable, and a size in range. -/
def InfoValid (imageLength : ℕ) (response : Mem) : Prop :=
  leValue (load response 5 2) = 0 ∧ response 7 &&& 9 ≠ 0 ∧ 0 < leValue (load response 0 4) ∧
    leValue (load response 0 4) < imageLength

instance (imageLength : ℕ) (response : Mem) : Decidable (InfoValid imageLength response) :=
  inferInstanceAs (Decidable (_ ∧ _))

/-- One round of `file_getinfo`, with `OPT_APPLICATION_IMAGE_LENGTH`; it returns the size of the
image, or 0. -/
def GetInfo.round (sv : Server) (imageLength : ℕ) (g : GetInfo) (t : Attempt) :
    Progress GetInfo ℕ :=
  if g.retries = 0 then .returns 0
  else
    let g := { g with retries := g.retries - 1 }
    if ¬t.sent then .goesOn g
    else
      match sv.answer .rspGetInfo g.protocol g.response getInfoSize t.polls with
      | none => .isHeld
      | some received =>
          if received.ok ∧ InfoValid imageLength received.transfer then
            .returns (leValue (load received.transfer 0 4))
          else
            .goesOn
              { g with
                protocol := received.protocol.nextTransfer
                response := received.transfer }

/-! ## `file_read_and_program` -/

/-- `sizeof(uavcan_Read_response_t)`: the error, and the data. -/
def readSize : ℕ := 258

/-- `sizeof(response.data)`. -/
def readDataSize : ℕ := 256

/-- The build: the addresses of the application, and whether `LATER_FLAHSED_WORDS` is above 1.  A
piece from the last address on ends inside of the 32 bit address space. -/
structure Image where
  loadAddress : ℕ
  lastAddress : ℕ
  twoWords : Bool
  load_le_last : loadAddress ≤ lastAddress
  last_lt : lastAddress + readDataSize < 2 ^ 32

/-- The bytes of the words that are flashed later. -/
def Image.laterBytes (image : Image) : ℕ := if image.twoWords then 8 else 4

/-- The variables of `file_read_and_program`, with the flash and the words to be flashed later. -/
structure Program where
  protocol : Protocol
  response : Mem
  offset : ℕ
  flash : Mem
  fwWord0 : Mem

/-- A round of `file_read_and_program`: the requests for one piece of the file, and whether the
flash takes it. -/
structure Chunk where
  attempts : List Attempt
  written : Bool

/-- One request in the inner loop: the length of the data that was read, or nothing where a retry is
used up. -/
def readAttempt (sv : Server) (p : Program) (t : Attempt) : Option (Program × Option ℕ) :=
  if ¬t.sent then some (p, none)
  else
    match sv.answer .rspRead p.protocol p.response readSize t.polls with
    | none => none
    | some received =>
        let p :=
          { p with
            protocol := received.protocol.nextTransfer
            response := received.transfer }
        if ¬received.ok then some (p, none)
        else if 2 < received.length then some (p, some (received.length - 2))
        else if leValue (load p.response 0 2) ≠ 0 then some (p, none)
        -- the length is still the one of the error
        else some (p, some received.length)

/-- The inner loop: the length of the data, or nothing when no retry is left. -/
def readChunk (sv : Server) : (retries : ℕ) → Program → List Attempt →
    Option (Program × Option ℕ)
  | 0, p, _ => some (p, none)
  | _ + 1, _, [] => none
  | retries + 1, p, t :: ts =>
      match readAttempt sv p t with
      | none => none
      | some (p, none) => readChunk sv retries p ts
      | some (p, some length) => some (p, some length)

namespace Program

variable (image : Image) (p : Program)

/-- A byte is added to data of odd length. -/
def pad (length : ℕ) : Program :=
  if length % 2 = 1 then { p with response := store p.response (2 + length) [0xff] } else p

/-- The first words are saved, and not written yet. -/
def saveWords : Program :=
  if p.offset = 0 then
    { p with
      fwWord0 := store p.fwWord0 0 (load p.response 2 image.laterBytes)
      response := store p.response 2 (List.replicate image.laterBytes 0xff) }
  else p

/-- The check of `bl_flash_write`; sums are 32 bit integers. -/
def InRange (count : ℕ) : Prop :=
  let address := (image.loadAddress + p.offset) % 2 ^ 32
  image.loadAddress ≤ address ∧ (address + count) % 2 ^ 32 ≤ image.lastAddress

instance (count : ℕ) : Decidable (p.InRange image count) := inferInstanceAs (Decidable (_ ∧ _))

/-- `bl_flash_write`: the data is stored, or an error is reported. -/
def blFlashWrite (count : ℕ) (written : Bool) : Program × Bool :=
  if p.InRange image count ∧ written then
    let address := (image.loadAddress + p.offset) % 2 ^ 32
    ({ p with flash := store p.flash address (load p.response 2 count) }, true)
  else (p, false)

/-- The rest of a round, with the length of the data: whether the function goes on, and else whether
it returns `FLASH_OK`. -/
def program (fwImageSize length : ℕ) (written : Bool) : Progress Program (Bool × Program) :=
  let (p, flashOk) :=
    ((p.pad length).saveWords image).blFlashWrite image (length + length % 2) written
  let p := { p with offset := (p.offset + length) % 2 ^ 32 }
  if p.offset < fwImageSize ∧ length = readDataSize ∧ flashOk then .goesOn p
  else .returns (decide (flashOk ∧ p.offset = fwImageSize ∧ length ≠ 0), p)

/-- The variables at the start. -/
def init (protocol : Protocol) (flash fwWord0 : Mem) : Program where
  protocol := { protocol with tail := ⟨0, false, false, false⟩ }
  response := fun _ => 0
  offset := 0
  flash := flash
  fwWord0 := fwWord0

end Program

/-- One round of `file_read_and_program`; it returns whether that is `FLASH_OK`. -/
def Program.round (image : Image) (sv : Server) (fwImageSize : ℕ) (p : Program) (c : Chunk) :
    Progress Program (Bool × Program) :=
  match readChunk sv uavcanServiceRetries p c.attempts with
  | none => .isHeld
  | some (p, none) => .returns (false, p)
  | some (p, some length) => p.program image fwImageSize length c.written

end Canbootloader
end DtPhm
