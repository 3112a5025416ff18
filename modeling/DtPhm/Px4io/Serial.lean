import DtPhm.Px4io.Registers

/-!
# Serial — packets on the serial link of the IO, and the registers they touch

`serial.c` with what it calls in `protocol.h` and `registers.c`.  The memory from `dma_packet` on is
a function of the address, of which the packet is the first 68 bytes: the count in a packet may
reach beyond them.

* `Packet` — the fields of `dma_packet`, and `crcPacket`;
* `Touch` — an access to a register, of the packet or of a page;
* `setTouches`, `registersGet`, `updateOnRead`, `getTouches` — what the functions of `registers.c`
  access, and which registers a read updates;
* `rxHandlePacket`, `rxDmaCallback` — a packet and its reply;
* `Entry`, `received` — the two ways to the callback;
* `callback_in_bounds` — every access is valid exactly if the packet counts 32 registers at most,
  which only one of the two ways checks.
-/

namespace DtPhm
namespace Px4io

open Lib

/-! ## The packet -/

/-- `PKT_MAX_REGS`. -/
def pktMaxRegs : ℕ := 32

/-- The memory from `dma_packet` on. -/
abbrev Packet := ℕ → UInt8

namespace Packet

variable (p : Packet)

def countCode : UInt8 := p 0

def crc : UInt8 := p 1

def page : UInt8 := p 2

def offset : UInt8 := p 3

/-- A register of the packet. -/
def reg (i : ℕ) : UInt16 := (p (4 + 2 * i)).toUInt16 ||| (p (5 + 2 * i)).toUInt16 <<< 8

/-- `PKT_COUNT`. -/
def count : ℕ := (p.countCode &&& 0x3f).toNat

/-- `PKT_CODE`. -/
def code : UInt8 := p.countCode &&& 0xc0

/-- `PKT_SIZE`. -/
def size : ℕ := 4 + 2 * p.count

/-- The registers that the packet counts. -/
def values : List UInt16 := (List.range p.count).map p.reg

def setCountCode (v : UInt8) : Packet := Function.update p 0 v

def setCrc (v : UInt8) : Packet := Function.update p 1 v

def setPage (v : UInt8) : Packet := Function.update p 2 v

def setOffset (v : UInt8) : Packet := Function.update p 3 v

/-- Registers are copied into the packet. -/
def setRegs (vs : List UInt16) : Packet := fun i =>
  if i < 4 then p i else (registerBytes vs).getD (i - 4) (p i)

end Packet

/-- `sizeof(dma_packet)`. -/
def packetBytes : ℕ := 4 + 2 * pktMaxRegs

def pktCodeRead : UInt8 := 0x00

def pktCodeWrite : UInt8 := 0x40

def pktCodeSuccess : UInt8 := 0x00

def pktCodeCorrupt : UInt8 := 0x40

def pktCodeError : UInt8 := 0x80

def crc8Tab : Array UInt8 :=
  #[
    0x00, 0x07, 0x0e, 0x09, 0x1c, 0x1b, 0x12, 0x15, 0x38, 0x3f, 0x36, 0x31, 0x24, 0x23, 0x2a, 0x2d,
    0x70, 0x77, 0x7e, 0x79, 0x6c, 0x6b, 0x62, 0x65, 0x48, 0x4f, 0x46, 0x41, 0x54, 0x53, 0x5a, 0x5d,
    0xe0, 0xe7, 0xee, 0xe9, 0xfc, 0xfb, 0xf2, 0xf5, 0xd8, 0xdf, 0xd6, 0xd1, 0xc4, 0xc3, 0xca, 0xcd,
    0x90, 0x97, 0x9e, 0x99, 0x8c, 0x8b, 0x82, 0x85, 0xa8, 0xaf, 0xa6, 0xa1, 0xb4, 0xb3, 0xba, 0xbd,
    0xc7, 0xc0, 0xc9, 0xce, 0xdb, 0xdc, 0xd5, 0xd2, 0xff, 0xf8, 0xf1, 0xf6, 0xe3, 0xe4, 0xed, 0xea,
    0xb7, 0xb0, 0xb9, 0xbe, 0xab, 0xac, 0xa5, 0xa2, 0x8f, 0x88, 0x81, 0x86, 0x93, 0x94, 0x9d, 0x9a,
    0x27, 0x20, 0x29, 0x2e, 0x3b, 0x3c, 0x35, 0x32, 0x1f, 0x18, 0x11, 0x16, 0x03, 0x04, 0x0d, 0x0a,
    0x57, 0x50, 0x59, 0x5e, 0x4b, 0x4c, 0x45, 0x42, 0x6f, 0x68, 0x61, 0x66, 0x73, 0x74, 0x7d, 0x7a,
    0x89, 0x8e, 0x87, 0x80, 0x95, 0x92, 0x9b, 0x9c, 0xb1, 0xb6, 0xbf, 0xb8, 0xad, 0xaa, 0xa3, 0xa4,
    0xf9, 0xfe, 0xf7, 0xf0, 0xe5, 0xe2, 0xeb, 0xec, 0xc1, 0xc6, 0xcf, 0xc8, 0xdd, 0xda, 0xd3, 0xd4,
    0x69, 0x6e, 0x67, 0x60, 0x75, 0x72, 0x7b, 0x7c, 0x51, 0x56, 0x5f, 0x58, 0x4d, 0x4a, 0x43, 0x44,
    0x19, 0x1e, 0x17, 0x10, 0x05, 0x02, 0x0b, 0x0c, 0x21, 0x26, 0x2f, 0x28, 0x3d, 0x3a, 0x33, 0x34,
    0x4e, 0x49, 0x40, 0x47, 0x52, 0x55, 0x5c, 0x5b, 0x76, 0x71, 0x78, 0x7f, 0x6a, 0x6d, 0x64, 0x63,
    0x3e, 0x39, 0x30, 0x37, 0x22, 0x25, 0x2c, 0x2b, 0x06, 0x01, 0x08, 0x0f, 0x1a, 0x1d, 0x14, 0x13,
    0xae, 0xa9, 0xa0, 0xa7, 0xb2, 0xb5, 0xbc, 0xbb, 0x96, 0x91, 0x98, 0x9f, 0x8a, 0x8d, 0x84, 0x83,
    0xde, 0xd9, 0xd0, 0xd7, 0xc2, 0xc5, 0xcc, 0xcb, 0xe6, 0xe1, 0xe8, 0xef, 0xfa, 0xfd, 0xf4, 0xf3]

/-- `crc_packet`. -/
def crcPacket (p : Packet) : UInt8 :=
  (List.range p.size).foldl (fun c i => crc8Tab.getD (c ^^^ p i).toNat 0) 0

/-! ## Accesses -/

/-- The pages of registers that are arrays. -/
inductive Buffer
  | config
  | status
  | actuators
  | servos
  | rawRcInput
  | rcInput
  | scratch
  | setup
  | controls
  | rcConfig
  | directPwm
  | failsafePwm
  | controlMinPwm
  | controlMaxPwm
  | controlTrimPwm
  | disarmedPwm
deriving DecidableEq, Repr

/-- The registers of a page. -/
def Buffer.size : Buffer → ℕ
  | .config => 9
  | .status => 10
  | .rawRcInput => 6 + rcInputChannels + 1
  | .rcInput => 1 + 8 + 1
  | .scratch => 32
  | .setup => SetupReg.enableFlighttermination + 1
  | .controls => controlGroups * controlChannels
  | .rcConfig => rcInputChannels * RcConfig.stride
  | _ => servoCount

/-- An access to a register of the packet, or of a page. -/
inductive Touch
  | reg (i : ℕ)
  | page (buffer : Buffer) (i : ℕ)
deriving DecidableEq, Repr

/-- The register exists. -/
def Touch.Valid : Touch → Prop
  | .reg i => i < pktMaxRegs
  | .page buffer i => i < buffer.size

instance : DecidablePred Touch.Valid := fun t => by
  cases t <;> exact Nat.decLt _ _

variable {G : Type}

/-- The registers of the pages; `others` are those that are not modelled. -/
def Io.pages (s : Io G) (others : Buffer → RegPage) : Buffer → RegPage
  | .status => fun i =>
      if i = 2 then s.statusFlags else if i = 3 then s.statusAlarms else others .status i
  | .servos => s.servos
  | .setup => s.setup
  | .controls => s.controls
  | .rcConfig => s.rcInputConfig
  | .directPwm => s.directPwm
  | .failsafePwm => s.servoFailsafe
  | .controlMinPwm => s.servoControlMin
  | .controlMaxPwm => s.servoControlMax
  | .controlTrimPwm => s.servoControlTrim
  | .disarmedPwm => s.servoDisarmed
  | buffer => others buffer

/-! ## Writing registers -/

/-- The accesses of the loop with which a page of outputs is written, from the register `k` of the
packet on; only some values are stored. -/
def copyTouches (n : ℕ) (buffer : Buffer) (stored : UInt16 → Bool) :
    (offset k : ℕ) → List UInt16 → List Touch
  | _, _, [] => []
  | offset, k, v :: vs =>
      if offset < n then
        .reg k ::
          ((if stored v then [.page buffer offset] else []) ++
            copyTouches n buffer stored (offset + 1) (k + 1) vs)
      else []

/-- `r_status_flags`. -/
def Touch.statusFlags : Touch := .page .status 2

/-- `r_status_alarms`. -/
def Touch.statusAlarms : Touch := .page .status 3

/-- A register of the setup page. -/
def Touch.setup (i : ℕ) : Touch := .page .setup i

/-- What `registers_set_one` accesses in `PX4IO_PAGE_SETUP`. -/
def setupTouches (offset : ℕ) : List Touch :=
  if offset = SetupReg.arming then [.statusFlags, .setup SetupReg.arming]
  else if offset = SetupReg.pwmRates ∨ offset = SetupReg.pwmDefaultrate ∨
      offset = SetupReg.pwmAltrate then
    [.setup SetupReg.pwmRates, .setup SetupReg.pwmDefaultrate, .setup SetupReg.pwmAltrate,
      .statusAlarms]
  else if offset = SetupReg.rebootBl ∨ offset = SetupReg.forceSafetyOn ∨
      offset = SetupReg.forceSafetyOff then
    [.statusFlags]
  else if offset = SetupReg.features ∨ offset = SetupReg.setDebug ∨
      offset = SetupReg.rcThrFailsafeUs ∨ offset = SetupReg.sbusRate ∨
      offset = SetupReg.thrMdlFac ∨ offset ∈ plainSetup then
    [.setup offset]
  else []

/-- What it accesses in `PX4IO_PAGE_RC_CONFIG`: all of the channel is read before it is enabled. -/
def rcConfigTouches (offset : ℕ) : List Touch :=
  let channel := offset / RcConfig.stride
  if channel ≥ rcInputChannels then []
  else
    (List.range RcConfig.stride).map (fun index =>
      .page .rcConfig (channel * RcConfig.stride + index)) ++
      [.statusFlags, .setup SetupReg.arming]

/-- What `registers_set_one` accesses. -/
def oneTouches (s : Io G) (page : Option Page) (offset : ℕ) : List Touch :=
  match page with
  | some .status =>
      if offset = 3 then [.statusAlarms] else if offset = 2 then [.statusFlags] else []
  | some .setup => setupTouches offset
  | some .rcConfig =>
      .statusFlags :: if s.hasStatus StatusFlag.safetyOff then [] else rcConfigTouches offset
  | _ => []

/-- Registers one after the other, up to the first that cannot be written. -/
def eachTouches (board : Board) (page : Option Page) : Io G → (offset k : ℕ) → List UInt16 →
    List Touch
  | _, _, _, [] => []
  | s, offset, k, v :: vs =>
      .reg k ::
        (oneTouches s page offset ++
          match registersSetOne s board page offset v with
          | none => []
          | some s' => eachTouches board page s' (offset + 1) (k + 1) vs)

instance (b : MixerText G) (msg : MixData) : Decidable (Fits b msg) :=
  inferInstanceAs (Decidable (_ ∧ _))

/-- What `interrupt_mixer_handle_text` accesses: the action of a message that is long enough for
one, and its text if it is appended. -/
def mixerTouches (s : Io G) (values : List UInt16) : List Touch :=
  [.statusFlags, .setup SetupReg.arming] ++
    if changeForbidden s.statusFlags s.setupArming then []
    else
      match MixData.ofBytes (registerBytes values) with
      | none => []
      | some msg =>
          .reg 1 ::
            if Fits s.mixer msg ∧ s.mixer.mixerUpdatePending = false then
              (List.range values.length).map .reg
            else []

/-- What `registers_set` accesses. -/
def setTouches (s : Io G) (board : Board) (page offset : UInt8) (values : List UInt16) :
    List Touch :=
  let offset := offset.toNat
  match Page.ofNumber page with
  | some .controls =>
      .statusFlags ::
        copyTouches (controlGroups * controlChannels) .controls (fun _ => true) offset 0 values
  | some .directPwm =>
      .statusFlags ::
        copyTouches controlChannels .directPwm (· != pwmIgnoreThisChannel) offset 0 values
  | some .failsafePwm =>
      .setup SetupReg.arming :: copyTouches servoCount .failsafePwm (· != 0) offset 0 values
  | some .controlMinPwm => copyTouches servoCount .controlMinPwm (· != 0) offset 0 values
  | some .controlMaxPwm => copyTouches servoCount .controlMaxPwm (· != 0) offset 0 values
  | some .controlTrimPwm => copyTouches servoCount .controlTrimPwm (fun _ => true) offset 0 values
  | some .disarmedPwm =>
      .setup SetupReg.arming :: copyTouches servoCount .disarmedPwm (fun _ => true) offset 0 values
  | some .mixerload => mixerTouches s values
  | other => eachTouches board other s offset 0 (values.take (255 - offset))

/-! ## Reading registers -/

/-- The page that `registers_get` selects. -/
def selectPage (page : UInt8) : Option Buffer :=
  if page = 0 then some .config
  else if page = 1 then some .status
  else if page = 2 then some .actuators
  else if page = 3 then some .servos
  else if page = 4 then some .rawRcInput
  else if page = 5 then some .rcInput
  else if page = 6 then some .scratch
  else if page = 7 then some .scratch
  else if page = 50 then some .setup
  else if page = 51 then some .controls
  else if page = 53 then some .rcConfig
  else if page = 54 then some .directPwm
  else if page = 55 then some .failsafePwm
  else if page = 106 then some .controlMinPwm
  else if page = 107 then some .controlMaxPwm
  else if page = 108 then some .controlTrimPwm
  else if page = 109 then some .disarmedPwm
  else none

/-- `registers_get`: the page, and how many registers it has from the offset on. -/
def registersGet (page offset : UInt8) : Option (Buffer × ℕ) :=
  match selectPage page with
  | none => none
  | some buffer =>
      if offset.toNat ≥ buffer.size then none else some (buffer, buffer.size - offset.toNat)

/-- The voltage in mV of a count of the ADC, whose range is `mV`; 0xffff is no count. -/
def adcVoltage (mV : ℕ) (counts old : UInt16) : UInt16 :=
  if counts = 0xffff then old else UInt16.ofNat (counts.toNat * mV / 4096)

/-- The pages that `registers_get` updates at read time: `PX4IO_PAGE_STATUS`,
`PX4IO_PAGE_RAW_ADC_INPUT`, `PX4IO_PAGE_PWM_INFO`. -/
def updateOnRead (board : Board) (page : UInt8) (others : Buffer → RegPage) : Buffer → RegPage
  | .status => fun i =>
      if page = 1 ∧ i = 6 then adcVoltage 9900 (board.adc 4) (others .status i)
      else if page = 1 ∧ i = 7 then adcVoltage 3300 (board.adc 5) (others .status i)
      else others .status i
  | .scratch => fun i =>
      if ¬i < Buffer.scratch.size then others .scratch i
      else if page = 6 then if i = 0 then board.adc 4 else if i = 1 then board.adc 5 else 0
      else if page = 7 then if i < servoCount then (board.rateGroup i).toUInt16 else 0
      else others .scratch i
  | buffer => others buffer

/-- What it accesses for that. -/
def getTouches (page : UInt8) : List Touch :=
  if page = 1 then [.page .status 6, .page .status 7]
  else if page = 6 ∨ page = 7 then (List.range Buffer.scratch.size).map (.page .scratch)
  else []

/-! ## Handling a packet -/

/-- A packet in its memory, the registers, and the accesses so far. -/
structure Handled (G : Type) where
  io : Io G
  others : Buffer → RegPage
  packet : Packet
  touches : List Touch

/-- The registers afterwards. -/
def Handled.pages (h : Handled G) : Buffer → RegPage := h.io.pages h.others

/-- What `crc_packet` accesses, byte by byte after the header. -/
def crcTouches (p : Packet) : List Touch :=
  (List.range (2 * p.count)).map fun i => .reg (i / 2)

/-- The reply to a packet that is not understood. -/
def corruptReply (p : Packet) (offset : UInt8) : Packet :=
  ((p.setCountCode pktCodeCorrupt).setPage 0xff).setOffset offset

/-- A write. -/
def handleWrite (s : Io G) (board : Board) (others : Buffer → RegPage) (p : Packet) : Handled G :=
  let result := registersSet s board p.page p.offset p.values
  { io := result.1
    others := others
    packet := p.setCountCode (if result.2 ≠ 0 then pktCodeError else pktCodeSuccess)
    touches := setTouches s board p.page p.offset p.values }

/-- A read. -/
def handleRead (s : Io G) (board : Board) (others : Buffer → RegPage) (p : Packet) : Handled G :=
  let others := updateOnRead board p.page others
  match registersGet p.page p.offset with
  | none =>
      { io := s
        others := others
        packet := p.setCountCode pktCodeError
        touches := getTouches p.page }
  | some (buffer, count) =>
      let count := if count > pktMaxRegs then pktMaxRegs else count
      let count := if count > p.count then p.count else count
      let registers := (List.range count).map fun k => s.pages others buffer (p.offset.toNat + k)
      { io := s
        others := others
        packet := (p.setRegs registers).setCountCode (UInt8.ofNat count ||| pktCodeSuccess)
        touches :=
          getTouches p.page ++
            (List.range count).flatMap fun k => [.page buffer (p.offset.toNat + k), .reg k] }

/-- `rx_handle_packet`. -/
def rxHandlePacket (s : Io G) (board : Board) (others : Buffer → RegPage) (p : Packet) :
    Handled G :=
  let crc := p.crc
  let p := p.setCrc 0
  let handled : Handled G :=
    if crc ≠ crcPacket p then ⟨s, others, corruptReply p 0xff, []⟩
    else if p.code = pktCodeWrite then handleWrite s board others p
    else if p.code = pktCodeRead then handleRead s board others p
    else ⟨s, others, corruptReply p 0xfe, []⟩
  { handled with touches := crcTouches p ++ handled.touches }

/-- `rx_dma_callback`: the packet is handled, and the reply is given its CRC and sent. -/
def rxDmaCallback (s : Io G) (board : Board) (others : Buffer → RegPage) (p : Packet) : Handled G :=
  let handled := rxHandlePacket s board others p
  let reply := handled.packet.setCrc 0
  { io := handled.io
    others := handled.others
    packet := reply.setCrc (crcPacket reply)
    touches := handled.touches ++ crcTouches reply ++ (List.range reply.count).map .reg }

/-! ## The two ways to the callback -/

/-- What `serial_interrupt` finds in the registers of the serial port and of the DMA. -/
structure Interrupt where
  error : Bool
  idle : Bool
  residual : Fin (packetBytes + 1)

/-- `serial_interrupt`, with `abort_on_idle`: whether it calls the callback.  The length of what was
received is compared with the header. -/
def serialInterrupt (abortOnIdle : Bool) (i : Interrupt) (p : Packet) : Bool × Bool :=
  let abortOnIdle := abortOnIdle || i.error
  if !i.idle then (abortOnIdle, false)
  else if abortOnIdle then (false, false)
  else
    let length := packetBytes - i.residual
    if length < 1 ∨ length < p.size then (false, false) else (false, true)

/-- The DMA has received a whole packet, or there is an interrupt. -/
inductive Entry
  | complete
  | interrupt (abortOnIdle : Bool) (i : Interrupt)

/-- The callback is called. -/
def Entry.Calls (p : Packet) : Entry → Prop
  | .complete => True
  | .interrupt abortOnIdle i => (serialInterrupt abortOnIdle i p).2 = true

/-! ## What is accessed exists -/

/-- All of the accesses are valid. -/
def InBounds (ts : List Touch) : Prop := ∀ t ∈ ts, t.Valid

instance : DecidablePred InBounds := fun ts =>
  decidable_of_iff (ts.all (fun t => decide t.Valid) = true) (by simp [InBounds])

@[simp] theorem inBounds_nil : InBounds [] := fun _ ht => absurd ht List.not_mem_nil

@[simp] theorem inBounds_cons {t : Touch} {ts : List Touch} :
    InBounds (t :: ts) ↔ t.Valid ∧ InBounds ts := List.forall_mem_cons

@[simp] theorem inBounds_append {ts us : List Touch} :
    InBounds (ts ++ us) ↔ InBounds ts ∧ InBounds us := List.forall_mem_append

theorem inBounds_map {α : Type} {f : α → Touch} {l : List α} :
    InBounds (l.map f) ↔ ∀ a ∈ l, (f a).Valid := List.forall_mem_map

theorem inBounds_regs {n : ℕ} (h : n ≤ pktMaxRegs) : InBounds ((List.range n).map Touch.reg) :=
  inBounds_map.2 fun _ hi => lt_of_lt_of_le (List.mem_range.1 hi) h

variable {s : Io G} {board : Board} {p : Packet}

theorem copyTouches_inBounds {n : ℕ} {buffer : Buffer} {stored : UInt16 → Bool} {offset k : ℕ}
    {vs : List UInt16} (hn : n ≤ buffer.size) (hk : k + vs.length ≤ pktMaxRegs) :
    InBounds (copyTouches n buffer stored offset k vs) := by
  -- on the values that are left: `k` are done, and so their sum stays
  induction vs generalizing offset k with
  | nil => exact inBounds_nil
  | cons v vs ih =>
      rw [List.length_cons] at hk
      rw [copyTouches]
      split
      · rename_i hoffset
        have hreg : (Touch.reg k).Valid := show k < pktMaxRegs by omega
        have hpage : (Touch.page buffer offset).Valid := lt_of_lt_of_le hoffset hn
        refine inBounds_cons.2 ⟨hreg, inBounds_append.2 ⟨?_, ih (by omega)⟩⟩
        split
        · exact inBounds_cons.2 ⟨hpage, inBounds_nil⟩
        · exact inBounds_nil
      · exact inBounds_nil

theorem setupTouches_inBounds (offset : ℕ) : InBounds (setupTouches offset) := by
  unfold setupTouches
  split
  · decide
  · split
    · decide
    · split
      · decide
      · split
        · rename_i hoffset
          have hvalid : offset < Buffer.setup.size := by
            have hplain : plainSetup.all (fun i => decide (i < Buffer.setup.size)) = true := by
              decide
            rcases hoffset with rfl | rfl | rfl | rfl | rfl | hmem
            · decide
            · decide
            · decide
            · decide
            · decide
            · exact of_decide_eq_true (List.all_eq_true.1 hplain offset hmem)
          exact inBounds_cons.2 ⟨hvalid, inBounds_nil⟩
        · exact inBounds_nil

theorem rcConfigTouches_inBounds (offset : ℕ) : InBounds (rcConfigTouches offset) := by
  unfold rcConfigTouches
  dsimp only
  split
  · exact inBounds_nil
  · rename_i hchannel
    refine inBounds_append.2 ⟨inBounds_map.2 fun index hindex => ?_, by decide⟩
    have hlt : index < RcConfig.stride := List.mem_range.1 hindex
    show offset / RcConfig.stride * RcConfig.stride + index < rcInputChannels * RcConfig.stride
    unfold RcConfig.stride rcInputChannels at *
    omega

theorem oneTouches_inBounds (s : Io G) (page : Option Page) (offset : ℕ) :
    InBounds (oneTouches s page offset) := by
  unfold oneTouches
  split
  · split
    · decide
    · split <;> decide
  · exact setupTouches_inBounds offset
  · refine inBounds_cons.2 ⟨by decide, ?_⟩
    split
    · exact inBounds_nil
    · exact rcConfigTouches_inBounds offset
  · exact inBounds_nil

theorem eachTouches_inBounds {page : Option Page} {offset k : ℕ} {vs : List UInt16}
    (hk : k + vs.length ≤ pktMaxRegs) : InBounds (eachTouches board page s offset k vs) := by
  induction vs generalizing s offset k with
  | nil => exact inBounds_nil
  | cons v vs ih =>
      rw [List.length_cons] at hk
      have hreg : (Touch.reg k).Valid := show k < pktMaxRegs by omega
      rw [eachTouches]
      refine inBounds_cons.2 ⟨hreg, inBounds_append.2 ⟨oneTouches_inBounds s page offset, ?_⟩⟩
      cases registersSetOne s board page offset v with
      | none => exact inBounds_nil
      | some s' => exact ih (by omega)

theorem mixerTouches_inBounds {vs : List UInt16} (h : vs.length ≤ pktMaxRegs) :
    InBounds (mixerTouches s vs) := by
  unfold mixerTouches
  refine inBounds_append.2 ⟨by decide, ?_⟩
  split
  · exact inBounds_nil
  · cases MixData.ofBytes (registerBytes vs) with
    | none => exact inBounds_nil
    | some msg =>
        refine inBounds_cons.2 ⟨by decide, ?_⟩
        split
        · exact inBounds_regs h
        · exact inBounds_nil

theorem setTouches_inBounds (s : Io G) (board : Board) (page offset : UInt8) {vs : List UInt16}
    (h : vs.length ≤ pktMaxRegs) : InBounds (setTouches s board page offset vs) := by
  have hcopy : ∀ {n : ℕ} {buffer : Buffer} {stored : UInt16 → Bool}, n ≤ buffer.size →
      InBounds (copyTouches n buffer stored offset.toNat 0 vs) :=
    fun hn => copyTouches_inBounds hn (by rwa [Nat.zero_add])
  unfold setTouches
  dsimp only
  split
  · exact inBounds_cons.2 ⟨by decide, hcopy (by decide)⟩
  · exact inBounds_cons.2 ⟨by decide, hcopy (by decide)⟩
  · exact inBounds_cons.2 ⟨by decide, hcopy (by decide)⟩
  · exact hcopy (by decide)
  · exact hcopy (by decide)
  · exact hcopy (by decide)
  · exact inBounds_cons.2 ⟨by decide, hcopy (by decide)⟩
  · exact mixerTouches_inBounds h
  · refine eachTouches_inBounds ?_
    rw [Nat.zero_add, List.length_take]
    exact (min_le_right _ _).trans h

theorem getTouches_inBounds (page : UInt8) : InBounds (getTouches page) := by
  unfold getTouches
  split
  · decide
  · split
    · exact inBounds_map.2 fun _ hi => List.mem_range.1 hi
    · exact inBounds_nil

/-! ## What a read changes -/

/-- Registers that are not touched are as before. -/
def SameOutside (ts : List Touch) (before after : Buffer → RegPage) : Prop :=
  ∀ buffer i, .page buffer i ∉ ts → after buffer i = before buffer i

theorem SameOutside.refl (ts : List Touch) (pages : Buffer → RegPage) :
    SameOutside ts pages pages := fun _ _ _ => rfl

theorem updateOnRead_sameOutside (s : Io G) (board : Board) (page : UInt8)
    (others : Buffer → RegPage) :
    SameOutside (getTouches page) (s.pages others) (s.pages (updateOnRead board page others)) := by
  intro buffer i hi
  cases buffer with
  | status =>
      have hsix : ¬(page = 1 ∧ i = 6) := by
        rintro ⟨rfl, rfl⟩
        exact hi (by decide)
      have hseven : ¬(page = 1 ∧ i = 7) := by
        rintro ⟨rfl, rfl⟩
        exact hi (by decide)
      simp only [Io.pages, updateOnRead, if_neg hsix, if_neg hseven]
  | scratch =>
      have hmade : page = 6 ∨ page = 7 → ¬i < Buffer.scratch.size := by
        intro hpage hlt
        have hmem : Touch.page .scratch i ∈ (List.range Buffer.scratch.size).map (.page .scratch) :=
          List.mem_map_of_mem (List.mem_range.2 hlt)
        rcases hpage with rfl | rfl <;> exact hi hmem
      simp only [Io.pages, updateOnRead]
      by_cases hlt : i < Buffer.scratch.size
      · have hsix : page ≠ 6 := fun h => hmade (Or.inl h) hlt
        have hseven : page ≠ 7 := fun h => hmade (Or.inr h) hlt
        rw [if_neg (not_not_intro hlt), if_neg hsix, if_neg hseven]
      · rw [if_pos hlt]
  | _ => rfl

/-! ## The callback -/

theorem crcTouches_inBounds_iff : InBounds (crcTouches p) ↔ p.count ≤ pktMaxRegs := by
  unfold crcTouches
  rw [inBounds_map]
  constructor
  · intro hall
    by_contra hlong
    -- the first byte behind the packet
    have hlast := hall (2 * pktMaxRegs) (List.mem_range.2 (by omega))
    exact absurd hlast (by decide)
  · intro hcount i hi
    have hlt : i < 2 * p.count := List.mem_range.1 hi
    show i / 2 < pktMaxRegs
    omega

theorem count_setCountCode (p : Packet) (v : UInt8) :
    (p.setCountCode v).count = (v &&& 0x3f).toNat := by
  unfold Packet.count Packet.countCode Packet.setCountCode
  rw [Function.update_self]

theorem count_setCrc (p : Packet) (v : UInt8) : (p.setCrc v).count = p.count := by
  have hne : (0 : ℕ) ≠ 1 := by decide
  unfold Packet.count Packet.countCode Packet.setCrc
  rw [Function.update_of_ne hne]

theorem code_setCrc (p : Packet) (v : UInt8) : (p.setCrc v).code = p.code := by
  have hne : (0 : ℕ) ≠ 1 := by decide
  rw [Packet.code, Packet.countCode, Packet.setCrc, Function.update_of_ne hne, Packet.code,
    Packet.countCode]

theorem count_corruptReply (p : Packet) (offset : UInt8) : (corruptReply p offset).count = 0 := by
  have hcount : (corruptReply p offset).count = (p.setCountCode pktCodeCorrupt).count := by
    unfold corruptReply Packet.count Packet.countCode Packet.setOffset Packet.setPage
    rw [Function.update_of_ne (by decide), Function.update_of_ne (by decide)]
  rw [hcount, count_setCountCode]
  decide

theorem values_length (p : Packet) : p.values.length = p.count := by
  rw [Packet.values, List.length_map, List.length_range]

/-- After a write the packet is as valid as its count, and the reply has no registers. -/
theorem handleWrite_spec (s : Io G) (board : Board) (others : Buffer → RegPage)
    (h : p.count ≤ pktMaxRegs) :
    InBounds (handleWrite s board others p).touches ∧
      (handleWrite s board others p).packet.count ≤ pktMaxRegs := by
  refine ⟨setTouches_inBounds s board p.page p.offset (by rwa [values_length]), ?_⟩
  unfold handleWrite
  rw [count_setCountCode]
  split <;> decide

theorem toNat_count_code {n : ℕ} (h : n ≤ pktMaxRegs) :
    ((UInt8.ofNat n ||| pktCodeSuccess) &&& 0x3f).toNat ≤ pktMaxRegs := by
  have hall : ∀ m : Fin (pktMaxRegs + 1),
      ((UInt8.ofNat m ||| pktCodeSuccess) &&& 0x3f).toNat ≤ pktMaxRegs := by decide
  exact hall ⟨n, Nat.lt_succ_of_le h⟩

theorem handleRead_spec (s : Io G) (board : Board) (others : Buffer → RegPage) (p : Packet) :
    InBounds (handleRead s board others p).touches ∧
      (handleRead s board others p).packet.count ≤ pktMaxRegs := by
  unfold handleRead
  cases hget : registersGet p.page p.offset with
  | none =>
      refine ⟨getTouches_inBounds p.page, ?_⟩
      show (p.setCountCode pktCodeError).count ≤ pktMaxRegs
      rw [count_setCountCode]
      decide
  | some selected =>
      obtain ⟨buffer, n⟩ := selected
      obtain ⟨hoffset, rfl⟩ : p.offset.toNat < buffer.size ∧ n = buffer.size - p.offset.toNat := by
        unfold registersGet at hget
        cases hselect : selectPage p.page with
        | none => simp [hselect] at hget
        | some buffer' =>
            simp only [hselect] at hget
            split at hget
            · cases hget
            · cases hget
              exact ⟨by omega, rfl⟩
      dsimp only
      -- the number of registers that are sent: at most a packet, and at most the rest of the page
      have hcount : ∃ m, m ≤ pktMaxRegs ∧ m ≤ buffer.size - p.offset.toNat ∧
          (if (if buffer.size - p.offset.toNat > pktMaxRegs then pktMaxRegs
              else buffer.size - p.offset.toNat) > p.count then p.count
            else if buffer.size - p.offset.toNat > pktMaxRegs then pktMaxRegs
              else buffer.size - p.offset.toNat) = m := by
        refine ⟨_, ?_, ?_, rfl⟩ <;> split <;> split at * <;> omega
      obtain ⟨m, hregs, hpage, hm⟩ := hcount
      rw [hm]
      refine ⟨inBounds_append.2 ⟨getTouches_inBounds p.page, ?_⟩, ?_⟩
      · intro t ht
        obtain ⟨k, hk, ht⟩ := List.mem_flatMap.1 ht
        have hlt : k < m := List.mem_range.1 hk
        have hreg : (Touch.reg k).Valid := lt_of_lt_of_le hlt hregs
        have hentry : (Touch.page buffer (p.offset.toNat + k)).Valid :=
          show p.offset.toNat + k < buffer.size by omega
        exact inBounds_cons.2 ⟨hentry, inBounds_cons.2 ⟨hreg, inBounds_nil⟩⟩ t ht
      · rw [count_setCountCode]
        exact toNat_count_code hregs

/-- The packet that is received decides alone whether its handling stays in bounds. -/
theorem rxHandlePacket_spec (s : Io G) (board : Board) (others : Buffer → RegPage) (p : Packet) :
    (InBounds (rxHandlePacket s board others p).touches ↔ p.count ≤ pktMaxRegs) ∧
      (p.count ≤ pktMaxRegs → (rxHandlePacket s board others p).packet.count ≤ pktMaxRegs) := by
  have hcount : (p.setCrc 0).count = p.count := count_setCrc p 0
  have hcrc : InBounds (crcTouches (p.setCrc 0)) ↔ p.count ≤ pktMaxRegs := by
    rw [crcTouches_inBounds_iff, hcount]
  have hcorrupt : ∀ offset, (corruptReply (p.setCrc 0) offset).count ≤ pktMaxRegs := by
    intro offset
    rw [count_corruptReply]
    exact Nat.zero_le _
  unfold rxHandlePacket
  dsimp only
  rw [inBounds_append, hcrc]
  split
  -- a wrong checksum
  · exact ⟨and_iff_left inBounds_nil, fun _ => hcorrupt 0xff⟩
  · split
    · have hwrite := fun h : p.count ≤ pktMaxRegs =>
        handleWrite_spec (p := p.setCrc 0) s board others (hcount.trans_le h)
      exact ⟨⟨And.left, fun h => ⟨h, (hwrite h).1⟩⟩, fun h => (hwrite h).2⟩
    · split
      · obtain ⟨htouches, hreply⟩ := handleRead_spec s board others (p.setCrc 0)
        exact ⟨and_iff_left htouches, fun _ => hreply⟩
      · exact ⟨and_iff_left inBounds_nil, fun _ => hcorrupt 0xfe⟩

/-- A packet that is no write changes only the registers that a read of its page updates. -/
theorem rxDmaCallback_sameOutside (s : Io G) (board : Board) (others : Buffer → RegPage)
    (h : p.code ≠ pktCodeWrite) :
    SameOutside (getTouches p.page) (s.pages others) (rxDmaCallback s board others p).pages := by
  unfold rxDmaCallback rxHandlePacket Handled.pages
  dsimp only
  rw [code_setCrc, if_neg h]
  split
  · exact .refl _ _
  · split
    · unfold handleRead
      cases registersGet (p.setCrc 0).page (p.setCrc 0).offset with
      | none => exact updateOnRead_sameOutside s board p.page others
      | some selected => exact updateOnRead_sameOutside s board p.page others
    · exact .refl _ _

theorem rxDmaCallback_inBounds (s : Io G) (board : Board) (others : Buffer → RegPage) (p : Packet) :
    InBounds (rxDmaCallback s board others p).touches ↔ p.count ≤ pktMaxRegs := by
  obtain ⟨hhandle, hreply⟩ := rxHandlePacket_spec s board others p
  unfold rxDmaCallback
  dsimp only
  rw [inBounds_append, inBounds_append, hhandle, crcTouches_inBounds_iff, count_setCrc]
  constructor
  · rintro ⟨⟨h, -⟩, -⟩
    exact h
  · exact fun h => ⟨⟨h, hreply h⟩, inBounds_regs (hreply h)⟩

/-- An idle line leads to the callback only if the packet counts no more than was received. -/
theorem count_of_interrupt {abortOnIdle : Bool} {i : Interrupt}
    (h : (serialInterrupt abortOnIdle i p).2 = true) : p.count ≤ pktMaxRegs := by
  unfold serialInterrupt at h
  dsimp only at h
  split at h
  · cases h
  · split at h
    · cases h
    · split at h
      · cases h
      · rename_i hlength
        -- the transfer is no longer than the packet, which has room for 32 registers
        unfold Packet.size packetBytes at hlength
        omega

/-- Every access after a packet is received is valid, exactly unless the DMA has received a whole
packet that counts more registers than there are. -/
theorem callback_in_bounds (entry : Entry) (s : Io G) (board : Board) (others : Buffer → RegPage)
    (p : Packet) :
    (entry.Calls p → ∀ t ∈ (rxDmaCallback s board others p).touches, t.Valid) ↔
      ¬(entry = .complete ∧ pktMaxRegs < p.count) := by
  have hbounds := rxDmaCallback_inBounds s board others p
  cases entry with
  | complete =>
      constructor
      · rintro hall ⟨-, hlong⟩
        exact absurd (hbounds.1 (hall trivial)) (not_le.2 hlong)
      · exact fun hshort _ => hbounds.2 (not_lt.1 fun hlong => hshort ⟨rfl, hlong⟩)
  | interrupt abortOnIdle i =>
      exact iff_of_true (fun h => hbounds.2 (count_of_interrupt h)) fun h => nomatch h.1

/-- A packet of 68 bytes that counts 63 registers. -/
theorem callback_out_of_bounds : ¬∀ (entry : Entry) (s : Io Unit) (board : Board)
    (others : Buffer → RegPage) (p : Packet),
    entry.Calls p → ∀ t ∈ (rxDmaCallback s board others p).touches, t.Valid := by
  intro hall
  have hcount := (rxDmaCallback_inBounds _ _ _ _).1
    (hall .complete (Io.initial ⟨(), fun g _ => (g, 0)⟩) idleBoard
      (fun _ _ => 0) (fun _ => 0x3f) trivial)
  exact absurd hcount (by decide)

end Px4io
end DtPhm
