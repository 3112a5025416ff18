import DtPhm.Platform.Checksums
import DtPhm.Px4io.Serial

/-!
# Link — register accesses of the FMU over the serial link

`PX4IO_serial::write` and `read` of the driver, the exchange of two packets that they try up to
three times, and the IO at the other end.  Either packet may be lost, cut short or damaged on the
way.

* `CrcFits`, `Arrives`, `not_crcFits_of_damagedTo` — the checksum of a packet, and what may become
  of it;
* `writePacket`, `readPacket`, `withCrc` — the packets of the driver;
* `busExchange` — `_bus_exchange`: what the driver finds in its buffer afterwards;
* `ioExchange`, `exchange` — the IO, and both ends together;
* `px4ioWrite`, `px4ioRead` — the two functions;
* `write_applied`, `read_registers` — what they report is what the IO did.
-/

namespace DtPhm
namespace Px4io

open Lib Lib.Crc

/-! ## Checksums of packets -/

/-- The checksum of some bytes. -/
def crc8 (bs : List UInt8) : UInt8 := bs.foldl (fun c b => crc8Tab.getD (c ^^^ b).toNat 0) 0

/-- The second byte is the checksum of all of them, made while it is zero. -/
def CrcFits (bs : List UInt8) : Prop := bs.getD 1 0 = crc8 (bs.set 1 0)

/-- The number of registers that a packet announces. -/
def announced (bs : List UInt8) : ℕ := (bs.getD 0 0 &&& 0x3f).toNat

/-- A packet arrives with the count that was sent, but one of its bytes is another, or an odd number
of its bits are. -/
structure DamagedTo (sent received : List UInt8) : Prop where
  length : received.length = sent.length
  count : announced received = announced sent
  differs : OneByte sent received ∨ Odd ((difference sent received).count true)

/-- What becomes of a packet on the way, if anything arrives. -/
inductive Arrives (sent received : List UInt8) : Prop
  | intact : received = sent → Arrives sent received
  | damaged : DamagedTo sent received → Arrives sent received
  | cut : (∃ lost, lost ≠ [] ∧ sent = received ++ lost) → Arrives sent received

theorem toBitVec_crc8 (bs : List UInt8) :
    (crc8 bs).toBitVec = remainder 0x07#8 0#8 (highFirst bs) :=
  foldl_eq_remainder UInt8.toBitVec Platform.px4io_byte 0 bs

/-- A difference in one byte, or in an odd number of bits, is one of the packets with their
checksums moved to the end. -/
theorem noticed_moved {a c a' c' : UInt8} {bs bs' : List UInt8} (hlen : bs'.length = bs.length)
    (h : OneByte (a :: c :: bs) (a' :: c' :: bs') ∨
      Odd ((difference (a :: c :: bs) (a' :: c' :: bs')).count true)) :
    Noticed 8 (difference (a :: 0 :: bs ++ [c]) (a' :: 0 :: bs' ++ [c'])) := by
  rcases h with hbyte | hodd
  · apply Or.inl
    apply OneByte.isBurst
    obtain ⟨front, b, b', back, hne, hsent, hreceived⟩ := hbyte
    match front with
    | [] =>
        obtain ⟨rfl, rfl⟩ := List.cons_eq_cons.1 hsent
        obtain ⟨rfl, hrest⟩ := List.cons_eq_cons.1 hreceived
        obtain ⟨rfl, rfl⟩ := List.cons_eq_cons.1 hrest
        exact ⟨[], a, a', 0 :: bs' ++ [c'], hne, rfl, rfl⟩
    | [x] =>
        obtain ⟨rfl, hrest⟩ := List.cons_eq_cons.1 hsent
        obtain ⟨rfl, hrest'⟩ := List.cons_eq_cons.1 hreceived
        obtain ⟨rfl, rfl⟩ := List.cons_eq_cons.1 hrest
        obtain ⟨rfl, rfl⟩ := List.cons_eq_cons.1 hrest'
        exact ⟨a' :: 0 :: bs', c, c', [], hne, rfl, rfl⟩
    | x :: y :: front =>
        obtain ⟨rfl, hrest⟩ := List.cons_eq_cons.1 hsent
        obtain ⟨rfl, hrest'⟩ := List.cons_eq_cons.1 hreceived
        obtain ⟨rfl, rfl⟩ := List.cons_eq_cons.1 hrest
        obtain ⟨rfl, rfl⟩ := List.cons_eq_cons.1 hrest'
        exact ⟨a' :: 0 :: front, b, b', back ++ [c'], hne, by simp, by simp⟩
  · apply Or.inr
    -- the same bits differ, but for the place of those of the checksum
    have hsent : difference (a :: c :: bs) (a' :: c' :: bs') =
        difference [a] [a'] ++ (difference [c] [c'] ++ difference bs bs') := by
      rw [difference_cons, difference_cons c]
    have hmoved : difference (a :: 0 :: bs ++ [c]) (a' :: 0 :: bs' ++ [c']) =
        difference [a] [a'] ++
          (difference [0] [0] ++ (difference bs bs' ++ difference [c] [c'])) := by
      rw [List.cons_append, List.cons_append, List.cons_append, List.cons_append, difference_cons,
        difference_cons 0, difference_append hlen.symm]
    have hcount : (difference [(0 : UInt8)] [0]).count true = 0 := by decide
    rw [hsent, List.count_append, List.count_append] at hodd
    rw [hmoved, List.count_append, List.count_append, List.count_append, hcount, Nat.zero_add,
      Nat.add_comm ((difference bs bs').count true)]
    exact hodd

theorem exists_of_two_le {α : Type} {l : List α} (h : 2 ≤ l.length) :
    ∃ a b bs, l = a :: b :: bs := by
  match l, h with
  | a :: b :: bs, _ => exact ⟨a, b, bs, rfl⟩

theorem not_crcFits_of_damagedTo {sent received : List UInt8} (hleast : 2 ≤ sent.length)
    (hfits : CrcFits sent) (h : DamagedTo sent received) : ¬CrcFits received := by
  obtain ⟨a, c, bs, rfl⟩ := exists_of_two_le hleast
  obtain ⟨a', c', bs', rfl⟩ := exists_of_two_le (h.length.symm ▸ hleast)
  have hlen : bs'.length = bs.length := by simpa using h.length
  have hsent : c.toBitVec = remainder 0x07#8 0#8 (highFirst (a :: 0 :: bs)) := by
    rw [← toBitVec_crc8]
    exact congrArg UInt8.toBitVec hfits
  intro hreceived
  have hfits' : c'.toBitVec = remainder 0x07#8 0#8 (highFirst (a' :: 0 :: bs')) := by
    rw [← toBitVec_crc8]
    exact congrArg UInt8.toBitVec hreceived
  have hbits : (highFirst (a :: 0 :: bs)).length = (highFirst (a' :: 0 :: bs')).length := by
    simp [length_highFirst, hlen]
  have hdvd := (fits_iff_dvd 0x07#8 0#8 hbits hsent).1 hfits'
  refine not_dvd_of_noticed (by decide) (by decide) ?_ hdvd
  rw [← highFirst_singleton, ← highFirst_singleton, ← highFirst_append, ← highFirst_append]
  exact noticed_moved hlen h.differs

/-! ## Packets in memory -/

/-- A packet with its checksum, as both ends send it. -/
def withCrc (p : Packet) : Packet := (p.setCrc 0).setCrc (crcPacket (p.setCrc 0))

/-- The bytes of a packet that are sent. -/
def sent (p : Packet) : List UInt8 := load p 0 p.size

theorem load_update (m : Mem) (n i : ℕ) (b : UInt8) :
    load (Function.update m i b) 0 n = (load m 0 n).set i b := by
  apply List.ext_getElem
  · simp [load]
  · intro k hk hk'
    simp only [load, List.getElem_map, List.getElem_range, List.getElem_set, Nat.zero_add,
      Function.update_apply, eq_comm]

theorem size_setCrc (p : Packet) (v : UInt8) : (p.setCrc v).size = p.size := by
  rw [Packet.size, Packet.size, count_setCrc]

theorem length_sent (p : Packet) : (sent p).length = p.size := by simp [sent, load]

theorem announced_sent (p : Packet) : announced (sent p) = p.count := by
  have hpos : 0 < p.size := Nat.lt_of_lt_of_le (by decide) (Nat.le_add_right 4 _)
  rw [announced, sent, getD_load p 0 hpos]
  rfl

theorem crcFits_sent_iff (p : Packet) : CrcFits (sent p) ↔ p.crc = crcPacket (p.setCrc 0) := by
  have hpos : 1 < p.size := Nat.lt_of_lt_of_le (by decide) (Nat.le_add_right 4 _)
  have hcrc : crcPacket (p.setCrc 0) = crc8 ((sent p).set 1 0) := by
    rw [Platform.crcPacket_eq_fold, size_setCrc, Packet.setCrc, load_update]
    rfl
  rw [CrcFits, sent, getD_load p 0 hpos, hcrc]
  rfl

theorem crcFits_withCrc (p : Packet) : CrcFits (sent (withCrc p)) := by
  have hzero : (withCrc p).setCrc 0 = p.setCrc 0 := by
    simp [withCrc, Packet.setCrc]
  rw [crcFits_sent_iff, hzero]
  simp [withCrc, Packet.setCrc, Packet.crc]

/-- The two packets are the same as far as they are sent. -/
def Agree (p q : Packet) : Prop := ∀ i < p.size, q i = p i

theorem Agree.count {p q : Packet} (h : Agree p q) : q.count = p.count := by
  have hpos : 0 < p.size := Nat.lt_of_lt_of_le (by decide) (Nat.le_add_right 4 _)
  rw [Packet.count, Packet.count, Packet.countCode, Packet.countCode, h 0 hpos]

theorem Agree.code {p q : Packet} (h : Agree p q) : q.code = p.code := by
  have hpos : 0 < p.size := Nat.lt_of_lt_of_le (by decide) (Nat.le_add_right 4 _)
  rw [Packet.code, Packet.code, Packet.countCode, Packet.countCode, h 0 hpos]

theorem Agree.page {p q : Packet} (h : Agree p q) : q.page = p.page :=
  h 2 (Nat.lt_of_lt_of_le (by decide) (Nat.le_add_right 4 _))

theorem Agree.offset {p q : Packet} (h : Agree p q) : q.offset = p.offset :=
  h 3 (Nat.lt_of_lt_of_le (by decide) (Nat.le_add_right 4 _))

theorem Agree.values {p q : Packet} (h : Agree p q) : q.values = p.values := by
  rw [Packet.values, Packet.values, h.count]
  apply List.map_congr_left
  intro i hi
  have hlt := List.mem_range.1 hi
  have hlow : 4 + 2 * i < p.size := by
    rw [Packet.size]
    omega
  have hhigh : 5 + 2 * i < p.size := by
    rw [Packet.size]
    omega
  rw [Packet.reg, Packet.reg, h _ hlow, h _ hhigh]

theorem agree_store (p old : Packet) : Agree p (store old 0 (sent p)) := by
  intro i hi
  have hlt : i < (sent p).length := by rwa [length_sent]
  calc store old 0 (sent p) i = store old 0 (sent p) (0 + i) := by rw [Nat.zero_add]
    _ = (sent p).getD i 0 := store_add old 0 hlt
    _ = p (0 + i) := getD_load p 0 hi
    _ = p i := by rw [Nat.zero_add]

theorem count_store {old : Packet} {bs : List UInt8} (h : bs ≠ []) :
    Packet.count (store old 0 bs) = announced bs := by
  have hpos : 0 < bs.length := List.length_pos_iff.2 h
  have hfirst : store old 0 bs 0 = bs.getD 0 0 := store_add old 0 hpos
  rw [Packet.count, Packet.countCode, hfirst, announced]

theorem sent_store {old : Packet} {bs : List UInt8} (h : bs.length = 4 + 2 * announced bs) :
    sent (store old 0 bs) = bs := by
  have hne : bs ≠ [] := by
    rintro rfl
    rw [List.length_nil] at h
    omega
  have hload := load_store_end old 0 bs
  rw [Nat.zero_add] at hload
  rw [sent, Packet.size, count_store hne, ← h, hload]
  rfl

/-! ## The driver -/

/-- The packet of a write, before its checksum: the registers that are not written are filled. -/
def writePacket (page offset : UInt8) (values : List UInt16) (buf : Packet) : Packet :=
  (((buf.setCountCode (UInt8.ofNat values.length ||| pktCodeWrite)).setPage page).setOffset
    offset).setRegs (values ++ List.replicate (pktMaxRegs - values.length) 0x55aa)

/-- The packet of a read, before its checksum. -/
def readPacket (page offset : UInt8) (count : ℕ) (buf : Packet) : Packet :=
  ((buf.setCountCode (UInt8.ofNat count ||| pktCodeRead)).setPage page).setOffset offset

/-- How a reception ends: nothing more comes, there is an error of the serial port or the DMA, the
line is idle, or the DMA has filled the buffer. -/
inductive Ending
  | timeout
  | error
  | idle
  | complete
deriving DecidableEq, Repr

/-- What the driver receives after it has sent a packet. -/
structure Reception where
  bytes : List UInt8
  ending : Ending

def eio : ℤ := 5

def einval : ℤ := 22

/-- The checks of `_bus_exchange` on a complete reply. -/
def checkReply (buf : Packet) : ℤ × Packet :=
  let crc := buf.crc
  let buf := buf.setCrc 0
  if crc ≠ crcPacket buf ∨ buf.code = pktCodeCorrupt then (-eio, buf) else (0, buf)

/-- `_bus_exchange` and the handlers that end it: its result, and the buffer, into which the reply
is received over the request. -/
def busExchange (buf : Packet) (r : Reception) : ℤ × Packet :=
  let buf : Packet := store buf 0 r.bytes
  match r.ending with
  | .timeout => (-1, buf)
  | .error => (-eio, buf)
  | .idle =>
      -- verify that the received packet is complete
      if r.bytes.length < 1 ∨ r.bytes.length < buf.size then (-eio, buf) else checkReply buf
  | .complete => checkReply buf

/-! ## The IO, and the wire -/

/-- What happens in one exchange beside what the two ends do: what the IO does by itself before it,
what the IO receives of a packet, if it takes it for one, and what the driver receives of the reply,
if there is one. -/
structure Wire (G : Type) where
  before : Io G → Io G
  board : Board
  others : Buffer → RegPage
  request : List UInt8 → Option (List UInt8)
  reply : Option (List UInt8) → Reception

/-- A wire on which packets may be lost, cut short or damaged, and none is made up.  The DMA of the
driver ends when the whole buffer is filled. -/
structure Wire.Lossy {G : Type} (w : Wire G) : Prop where
  request : ∀ {bs received}, w.request bs = some received → Arrives bs received
  reply : ∀ bs, (w.reply (some bs)).ending = .idle ∨ (w.reply (some bs)).ending = .complete →
    Arrives bs (w.reply (some bs)).bytes
  silence : (w.reply none).ending = .timeout ∨ (w.reply none).ending = .error
  complete : ∀ bs, (w.reply bs).ending = .complete → (w.reply bs).bytes.length = packetBytes

/-- The IO calls its handler: the DMA is complete, or the line is idle after a complete packet. -/
def ioCalls (dma : Packet) (bs : List UInt8) : Bool :=
  bs.length == packetBytes ||
    (serialInterrupt false
      ⟨false, true, ⟨packetBytes - bs.length, Nat.lt_succ_of_le (Nat.sub_le ..)⟩⟩ dma).2

/-- The IO receives a packet, and may send a reply. -/
def ioExchange {G : Type} (w : Wire G) (io : Io G) (dma : Packet) :
    Option (List UInt8) → Handled G × Option (List UInt8)
  | none => (⟨io, w.others, dma, []⟩, none)
  | some bs =>
      let dma : Packet := store dma 0 bs
      if ioCalls dma bs then
        let handled := rxDmaCallback io w.board w.others dma
        (handled, some (sent handled.packet))
      else (⟨io, w.others, dma, []⟩, none)

/-- Both ends: the buffer of the driver, the registers of the IO and its `dma_packet`. -/
structure Link (G : Type) where
  buf : Packet
  io : Io G
  dma : Packet

/-- One exchange. -/
def exchange {G : Type} (w : Wire G) (s : Link G) : ℤ × Link G :=
  let handled := ioExchange w (w.before s.io) s.dma (w.request (sent s.buf))
  let result := busExchange s.buf (w.reply handled.2)
  (result.1, ⟨result.2, handled.1.io, handled.1.packet⟩)

/-- The loop of `PX4IO_serial::write`. -/
def writeTries {G : Type} (page offset : UInt8) (values : List UInt16) :
    List (Wire G) → ℤ → Link G → ℤ × Link G
  | [], result, s => (result, s)
  | w :: ws, _, s =>
      let r := exchange w { s with buf := withCrc (writePacket page offset values s.buf) }
      if r.1 = 0 then
        -- IO didn't like it - no point retrying
        (if r.2.buf.code = pktCodeError then -einval else 0, r.2)
      else writeTries page offset values ws r.1 r.2

/-- `PX4IO_serial::write`: at most three exchanges. -/
def px4ioWrite {G : Type} (address : UInt32) (values : List UInt16) (w₀ w₁ w₂ : Wire G)
    (s : Link G) :
    ℤ × Link G :=
  if values.length > pktMaxRegs then (-einval, s)
  else
    let r := writeTries (address >>> 8).toUInt8 (address &&& 0xff).toUInt8 values [w₀, w₁, w₂] 0 s
    (if r.1 = 0 then values.length else r.1, r.2)

/-- The loop of `PX4IO_serial::read`, with the registers that are copied back. -/
def readTries {G : Type} (page offset : UInt8) (count : ℕ) :
    List (Wire G) → ℤ → Link G → ℤ × List UInt16 × Link G
  | [], result, s => (result, [], s)
  | w :: ws, _, s =>
      let r := exchange w { s with buf := withCrc (readPacket page offset count s.buf) }
      if r.1 = 0 then
        if r.2.buf.code = pktCodeError then (-einval, [], r.2)
        -- IO returned the wrong number of registers - no point retrying
        else if r.2.buf.count ≠ count then (-eio, [], r.2)
        else (0, r.2.buf.values, r.2)
      else readTries page offset count ws r.1 r.2

/-- `PX4IO_serial::read`. -/
def px4ioRead {G : Type} (address : UInt32) (count : ℕ) (w₀ w₁ w₂ : Wire G) (s : Link G) :
    ℤ × List UInt16 × Link G :=
  if count > pktMaxRegs then (-einval, [], s)
  else
    let r := readTries (address >>> 8).toUInt8 (address &&& 0xff).toUInt8 count [w₀, w₁, w₂] 0 s
    (if r.1 = 0 then count else r.1, r.2)

/-! ## One exchange -/

/-- A packet as both ends send it. -/
structure Sendable (bs : List UInt8) : Prop where
  fits : CrcFits bs
  length : bs.length = 4 + 2 * announced bs
  room : announced bs ≤ pktMaxRegs

theorem sendable_withCrc {p : Packet} (h : p.count ≤ pktMaxRegs) : Sendable (sent (withCrc p)) := by
  have hcount : (withCrc p).count = p.count := (count_setCrc _ _).trans (count_setCrc _ _)
  refine ⟨crcFits_withCrc p, ?_, ?_⟩
  · rw [length_sent, announced_sent, Packet.size]
  · rw [announced_sent, hcount]
    exact h

theorem Sendable.length_le {bs : List UInt8} (h : Sendable bs) : bs.length ≤ packetBytes := by
  have hlength := h.length
  have hroom := h.room
  unfold packetBytes
  omega

theorem length_lt_of_cut {bs received : List UInt8} (hbs : Sendable bs)
    (h : ∃ lost, lost ≠ [] ∧ bs = received ++ lost) (hne : received ≠ []) (old : Packet) :
    received.length < Packet.size (store old 0 received) ∧ received.length < packetBytes := by
  obtain ⟨lost, hlost, rfl⟩ := h
  have hpos := List.length_pos_iff.2 hlost
  have hlength := hbs.length
  have hle := hbs.length_le
  have hfirst : announced (received ++ lost) = announced received := by
    unfold announced
    rw [List.getD_append _ _ _ _ (List.length_pos_iff.2 hne)]
  rw [hfirst] at hlength
  rw [List.length_append] at hlength hle
  rw [Packet.size, count_store hne]
  omega

theorem DamagedTo.length_eq {bs received : List UInt8} (hbs : Sendable bs)
    (h : DamagedTo bs received) :
    received.length = 4 + 2 * announced received := by
  rw [h.length, h.count]
  exact hbs.length

theorem checkReply_eq_zero_iff (buf : Packet) :
    (checkReply buf).1 = 0 ↔ CrcFits (sent buf) ∧ buf.code ≠ pktCodeCorrupt := by
  simp only [crcFits_sent_iff, checkReply, code_setCrc]
  by_cases hcrc : buf.crc = crcPacket (buf.setCrc 0) <;> by_cases hcode : buf.code =
    pktCodeCorrupt <;>
    simp [hcrc, hcode, eio]

theorem checkReply_snd (buf : Packet) : (checkReply buf).2 = buf.setCrc 0 := by
  simp only [checkReply]
  split <;> rfl

/-- What `_bus_exchange` reports as a success is a complete reply with a good checksum. -/
theorem busExchange_eq_zero_iff (buf : Packet) (r : Reception) :
    (busExchange buf r).1 = 0 ↔
      (r.ending = .complete ∨ r.ending = .idle ∧ 1 ≤ r.bytes.length ∧
        Packet.size (store buf 0 r.bytes) ≤ r.bytes.length) ∧
      (checkReply (store buf 0 r.bytes)).1 = 0 := by
  unfold busExchange
  cases hending : r.ending with
  | timeout => simp
  | error => simp [eio]
  | complete => simp
  | idle =>
      simp only [reduceCtorEq, false_or, true_and]
      split
      · rename_i hshort
        refine iff_of_false (show -eio ≠ 0 by decide) ?_
        rintro ⟨⟨hpos, hsize⟩, -⟩
        omega
      · rename_i hlong
        have hlengths : 1 ≤ r.bytes.length ∧
            Packet.size (store buf 0 r.bytes) ≤ r.bytes.length := by
          omega
        simp [hlengths]

theorem busExchange_eq_zero {bs : List UInt8} {buf : Packet} {r : Reception} (hbs : Sendable bs)
    (harrives : r.ending = .idle ∨ r.ending = .complete → Arrives bs r.bytes)
    (hcomplete : r.ending = .complete → r.bytes.length = packetBytes)
    (h : (busExchange buf r).1 = 0) :
    r.bytes = bs ∧ (busExchange buf r).2 = Packet.setCrc (store buf 0 bs) 0 ∧
      Packet.code (store buf 0 bs) ≠ pktCodeCorrupt := by
  obtain ⟨hending, hcheck⟩ := (busExchange_eq_zero_iff buf r).1 h
  obtain ⟨hfits, hcode⟩ := (checkReply_eq_zero_iff _).1 hcheck
  have hsnd : (busExchange buf r).2 = Packet.setCrc (store buf 0 r.bytes) 0 := by
    rw [← checkReply_snd]
    unfold busExchange
    rcases hending with hcompl | ⟨hidle, hlen⟩
    · rw [hcompl]
    · rw [hidle]
      dsimp only
      rw [if_neg (by omega)]
  have heq : r.bytes = bs := by
    cases harrives (hending.elim Or.inr fun hidle => Or.inl hidle.1) with
    | intact heq => exact heq
    | damaged hdamaged =>
        rw [sent_store (hdamaged.length_eq hbs)] at hfits
        exact absurd hfits (not_crcFits_of_damagedTo (hbs.length ▸ by omega) hbs.fits hdamaged)
    | cut hcut =>
        have hne : r.bytes ≠ [] := by
          rintro hnil
          rcases hending with hcompl | ⟨-, hpos, -⟩
          · have hlen := hcomplete hcompl
            rw [hnil] at hlen
            exact absurd hlen (by decide)
          · rw [hnil] at hpos
            exact absurd hpos (by decide)
        obtain ⟨hsize, hbytes⟩ := length_lt_of_cut hbs hcut hne buf
        rcases hending with hcompl | ⟨-, -, hsize'⟩
        · have hlen := hcomplete hcompl
          omega
        · omega
  rw [heq] at hsnd hcode
  exact ⟨heq, hsnd, hcode⟩

/-- What the handler of the IO is called with is the packet that was sent, or one whose checksum
does not fit. -/
theorem ioCalls_arrives {bs received : List UInt8} {dma : Packet} (hbs : Sendable bs)
    (harrives : Arrives bs received) (h : ioCalls (store dma 0 received) received = true) :
    received = bs ∨ DamagedTo bs received := by
  cases harrives with
  | intact heq => exact Or.inl heq
  | damaged hdamaged => exact Or.inr hdamaged
  | cut hcut =>
      have hcalls : received.length = packetBytes ∨
          1 ≤ packetBytes - (packetBytes - received.length) ∧
          Packet.size (store dma 0 received) ≤ packetBytes - (packetBytes - received.length) := by
        simp only [ioCalls, Bool.or_eq_true, beq_iff_eq] at h
        refine h.imp_right fun hint => ?_
        unfold serialInterrupt at hint
        simp only [Bool.or_self, Bool.not_true, Bool.false_eq_true, if_false] at hint
        split at hint
        · cases hint
        · rename_i hlong
          omega
      have hne : received ≠ [] := by
        rintro rfl
        rcases hcalls with hlen | ⟨hpos, -⟩
        · exact absurd hlen (by decide)
        · exact absurd hpos (by decide)
      obtain ⟨hsize, hbytes⟩ := length_lt_of_cut hbs hcut hne dma
      exfalso
      rcases hcalls with hlen | ⟨-, hsize'⟩
      · omega
      · omega

theorem rxDmaCallback_unfit {G : Type} {io : Io G} {board : Board} {others : Buffer → RegPage}
    {m : Packet} (h : ¬CrcFits (sent m)) :
    (rxDmaCallback io board others m).io = io ∧ (rxDmaCallback io board others m).others = others ∧
      (rxDmaCallback io board others m).packet = withCrc (corruptReply (m.setCrc 0) 0xff) := by
  have hne : m.crc ≠ crcPacket (m.setCrc 0) := fun heq => h ((crcFits_sent_iff m).2 heq)
  simp only [rxDmaCallback, rxHandlePacket]
  rw [if_pos hne]
  exact ⟨rfl, rfl, rfl⟩

theorem values_setCrc (p : Packet) (v : UInt8) : (p.setCrc v).values = p.values := by
  rw [Packet.values, Packet.values, count_setCrc]
  apply List.map_congr_left
  intro i _
  unfold Packet.reg Packet.setCrc
  rw [Function.update_of_ne (by omega), Function.update_of_ne (by omega)]

theorem page_setCrc (p : Packet) (v : UInt8) : (p.setCrc v).page = p.page := by
  have hne : (2 : ℕ) ≠ 1 := by decide
  unfold Packet.page Packet.setCrc
  rw [Function.update_of_ne hne]

theorem offset_setCrc (p : Packet) (v : UInt8) : (p.setCrc v).offset = p.offset := by
  have hne : (3 : ℕ) ≠ 1 := by decide
  unfold Packet.offset Packet.setCrc
  rw [Function.update_of_ne hne]

/-- A write whose checksum fits is passed on, and its result is the code of the reply. -/
theorem rxDmaCallback_write {G : Type} (io : Io G) (board : Board) (others : Buffer → RegPage)
    {m : Packet} (h : CrcFits (sent m)) (hcode : m.code = pktCodeWrite) :
    (rxDmaCallback io board others m).io = (registersSet io board m.page m.offset m.values).1 ∧
      (rxDmaCallback io board others m).packet = withCrc ((m.setCrc 0).setCountCode
        (if (registersSet io board m.page m.offset m.values).2 ≠ 0 then pktCodeError
          else pktCodeSuccess)) := by
  have heq := not_not_intro ((crcFits_sent_iff m).1 h)
  simp only [rxDmaCallback, rxHandlePacket]
  rw [if_neg heq, code_setCrc, if_pos hcode]
  simp only [handleWrite, values_setCrc, page_setCrc, offset_setCrc]
  exact ⟨trivial, rfl⟩

theorem rxDmaCallback_read {G : Type} (io : Io G) (board : Board) (others : Buffer → RegPage)
    {m : Packet} (h : CrcFits (sent m)) (hcode : m.code = pktCodeRead) :
    (rxDmaCallback io board others m).io = io ∧
      (rxDmaCallback io board others m).packet =
        withCrc (handleRead io board others (m.setCrc 0)).packet := by
  have hne : pktCodeRead ≠ pktCodeWrite := by decide
  have heq := not_not_intro ((crcFits_sent_iff m).1 h)
  simp only [rxDmaCallback, rxHandlePacket]
  rw [if_neg heq, code_setCrc, hcode, if_neg hne, if_pos rfl]
  refine ⟨?_, rfl⟩
  unfold handleRead
  cases registersGet (m.setCrc 0).page (m.setCrc 0).offset <;> rfl

/-- What the IO does in an exchange: it has nothing to answer, or it handles a packet whose checksum
does not fit, or it handles the packet that was sent. -/
theorem ioExchange_cases {G : Type} {w : Wire G} (hw : w.Lossy) (io : Io G) (dma : Packet)
    {p : Packet}
    (hp : Sendable (sent p)) :
    ((∃ dma', (ioExchange w io dma (w.request (sent p))).1 = ⟨io, w.others, dma', []⟩) ∧
      (ioExchange w io dma (w.request (sent p))).2 = none) ∨
    ∃ m, (Agree p m ∨ ¬CrcFits (sent m)) ∧
      (ioExchange w io dma (w.request (sent p))).1 = rxDmaCallback io w.board w.others m ∧
      (ioExchange w io dma (w.request (sent p))).2 =
        some (sent (rxDmaCallback io w.board w.others m).packet) := by
  cases hrequest : w.request (sent p) with
  | none => exact Or.inl ⟨⟨dma, rfl⟩, rfl⟩
  | some received =>
      by_cases hcalls : ioCalls (store dma 0 received) received = true
      · refine Or.inr ⟨store dma 0 received, ?_, ?_, ?_⟩
        · rcases ioCalls_arrives hp (hw.request hrequest) hcalls with heq | hdamaged
          · exact Or.inl (heq ▸ agree_store p dma)
          · apply Or.inr
            rw [sent_store (hdamaged.length_eq hp)]
            exact not_crcFits_of_damagedTo (hp.length ▸ by omega) hp.fits hdamaged
        · simp [ioExchange, hcalls]
        · simp [ioExchange, hcalls]
      · exact Or.inl ⟨⟨store dma 0 received, by simp [ioExchange, hcalls]⟩, by simp [ioExchange,
          hcalls]⟩

/-- A success of the exchange rests on a reply of the IO, which is in the buffer of the driver. -/
theorem exchange_eq_zero {G : Type} {w : Wire G} (hw : w.Lossy) {s : Link G}
    (hreply : ∀ bs, (ioExchange w (w.before s.io) s.dma (w.request (sent s.buf))).2 = some bs →
      Sendable bs) (h : (exchange w s).1 = 0) :
    ∃ bs, (ioExchange w (w.before s.io) s.dma (w.request (sent s.buf))).2 = some bs ∧
      (exchange w s).2.buf = Packet.setCrc (store s.buf 0 bs) 0 ∧
      Packet.code (store s.buf 0 bs) ≠ pktCodeCorrupt := by
  simp only [exchange] at h ⊢
  cases hsome : (ioExchange w (w.before s.io) s.dma (w.request (sent s.buf))).2 with
  | none =>
      rw [hsome] at h
      obtain ⟨hending, -⟩ := (busExchange_eq_zero_iff _ _).1 h
      rcases hw.silence with hnone | hnone
      · simp [hnone] at hending
      · simp [hnone] at hending
  | some bs =>
      rw [hsome] at h
      obtain ⟨-, hbuf, hcode⟩ :=
          busExchange_eq_zero (hreply bs hsome) (hw.reply bs) (hw.complete _) h
      exact ⟨bs, rfl, hbuf, hcode⟩

/-! ## The packets of the driver -/

theorem getD_registerBytes {vs : List UInt16} {i : ℕ} (h : i < vs.length) (d d' : UInt8) :
    (registerBytes vs).getD (2 * i) d = (vs.getD i 0).toUInt8 ∧
      (registerBytes vs).getD (2 * i + 1) d' = (vs.getD i 0 >>> 8).toUInt8 := by
  induction vs generalizing i with
  | nil => exact absurd h (Nat.not_lt_zero i)
  | cons v vs ih =>
      have hcons : registerBytes (v :: vs) = v.toUInt8 :: (v >>> 8).toUInt8 :: registerBytes vs :=
        rfl
      rw [hcons]
      cases i with
      | zero => exact ⟨rfl, rfl⟩
      | succ i => exact ih (Nat.lt_of_succ_lt_succ h)

theorem reg_setRegs (p : Packet) {vs : List UInt16} {i : ℕ} (h : i < vs.length) :
    (p.setRegs vs).reg i = vs.getD i 0 := by
  obtain ⟨hlow, hhigh⟩ := getD_registerBytes h (p (4 + 2 * i)) (p (5 + 2 * i))
  have hat : (p.setRegs vs) (4 + 2 * i) = (vs.getD i 0).toUInt8 := by
    rw [Packet.setRegs, if_neg (by omega), Nat.add_sub_cancel_left]
    exact hlow
  have hat' : (p.setRegs vs) (5 + 2 * i) = (vs.getD i 0 >>> 8).toUInt8 := by
    have hsub : 5 + 2 * i - 4 = 2 * i + 1 := by omega
    rw [Packet.setRegs, if_neg (by omega), hsub]
    exact hhigh
  rw [Packet.reg, hat, hat', UInt16.or_comm]
  exact high_or_low_bytes _

theorem count_code_or {n : ℕ} (h : n ≤ pktMaxRegs) {code : UInt8}
    (hcode : code = pktCodeWrite ∨ code = pktCodeRead) :
    ((UInt8.ofNat n ||| code) &&& 0x3f).toNat = n ∧ (UInt8.ofNat n ||| code) &&& 0xc0 = code := by
  have hall : ∀ m : Fin (pktMaxRegs + 1), ∀ code ∈ [pktCodeWrite, pktCodeRead],
      ((UInt8.ofNat m ||| code) &&& 0x3f).toNat = m ∧ (UInt8.ofNat m ||| code) &&& 0xc0 = code := by
    decide +kernel
  exact hall ⟨n, Nat.lt_succ_of_le h⟩ code (by simpa using hcode)

theorem writePacket_spec (page offset : UInt8) {values : List UInt16} (buf : Packet)
    (h : values.length ≤ pktMaxRegs) :
    (withCrc (writePacket page offset values buf)).code = pktCodeWrite ∧
      (withCrc (writePacket page offset values buf)).page = page ∧
      (withCrc (writePacket page offset values buf)).offset = offset ∧
      (writePacket page offset values buf).count = values.length ∧
      (withCrc (writePacket page offset values buf)).values = values := by
  obtain ⟨hcount, hcode⟩ := count_code_or h (Or.inl rfl : pktCodeWrite = _ ∨ _)
  have hzero : writePacket page offset values buf 0 =
      UInt8.ofNat values.length ||| pktCodeWrite := by
    simp [writePacket, Packet.setRegs, Packet.setOffset, Packet.setPage, Packet.setCountCode]
  have hpacket : (writePacket page offset values buf).count = values.length := by
    rw [Packet.count, Packet.countCode, hzero, hcount]
  refine ⟨?_, ?_, ?_, hpacket, ?_⟩
  · rw [withCrc, code_setCrc, code_setCrc, Packet.code, Packet.countCode, hzero, hcode]
  · rw [withCrc, page_setCrc, page_setCrc]
    simp [writePacket, Packet.setRegs, Packet.setOffset, Packet.setPage, Packet.page]
  · rw [withCrc, offset_setCrc, offset_setCrc]
    simp [writePacket, Packet.setRegs, Packet.setOffset, Packet.offset]
  · rw [withCrc, values_setCrc, values_setCrc, Packet.values, hpacket]
    apply List.ext_getElem
    · simp
    · intro i hi hi'
      have hlt :
          i < (values ++ List.replicate (pktMaxRegs - values.length) (0x55aa : UInt16)).length := by
        rw [List.length_append]
        omega
      rw [List.getElem_map, List.getElem_range, writePacket, reg_setRegs _ hlt,
        List.getD_append _ _ _ _ hi', List.getD_eq_getElem?_getD, List.getElem?_eq_getElem hi']
      rfl

theorem readPacket_spec (page offset : UInt8) {count : ℕ} (buf : Packet) (h : count ≤ pktMaxRegs) :
    (withCrc (readPacket page offset count buf)).code = pktCodeRead ∧
      (withCrc (readPacket page offset count buf)).page = page ∧
      (withCrc (readPacket page offset count buf)).offset = offset ∧
      (readPacket page offset count buf).count = count := by
  obtain ⟨hcount, hcode⟩ := count_code_or h (Or.inr rfl : pktCodeRead = _ ∨ _)
  have hzero : readPacket page offset count buf 0 = UInt8.ofNat count ||| pktCodeRead := by
    simp [readPacket, Packet.setOffset, Packet.setPage, Packet.setCountCode]
  refine ⟨?_, ?_, ?_, ?_⟩
  · rw [withCrc, code_setCrc, code_setCrc, Packet.code, Packet.countCode, hzero, hcode]
  · rw [withCrc, page_setCrc, page_setCrc]
    simp [readPacket, Packet.setOffset, Packet.setPage, Packet.page]
  · rw [withCrc, offset_setCrc, offset_setCrc]
    simp [readPacket, Packet.setOffset, Packet.offset]
  · rw [Packet.count, Packet.countCode, hzero, hcount]

theorem count_withCrc (p : Packet) : (withCrc p).count = p.count := by
  rw [withCrc, count_setCrc, count_setCrc]

theorem code_withCrc (p : Packet) : (withCrc p).code = p.code := by
  rw [withCrc, code_setCrc, code_setCrc]

theorem code_setCountCode (p : Packet) (v : UInt8) : (p.setCountCode v).code = v &&& 0xc0 := by
  unfold Packet.code Packet.countCode Packet.setCountCode
  rw [Function.update_self]

theorem code_corruptReply (p : Packet) (offset : UInt8) :
    (corruptReply p offset).code = pktCodeCorrupt := by
  have hzero : corruptReply p offset 0 = pktCodeCorrupt := by
    simp [corruptReply, Packet.setCountCode, Packet.setPage, Packet.setOffset]
  rw [Packet.code, Packet.countCode, hzero]
  decide

/-! ## Writes -/

section Runs

variable {G : Type} {w : Wire G} {s : Link G} {page offset : UInt8} {values : List UInt16}
    {count : ℕ}

theorem exchange_reply (hw : w.Lossy) {q : Packet} (hq : q.count ≤ pktMaxRegs)
    (hsome : (ioExchange w (w.before s.io) s.dma (w.request (sent s.buf))).2 =
      some (sent (withCrc q))) (h : (exchange w s).1 = 0) :
    q.code ≠ pktCodeCorrupt ∧ (exchange w s).2.buf.code = q.code ∧
      (exchange w s).2.buf.count = q.count ∧ (exchange w s).2.buf.values = q.values := by
  obtain ⟨bs, hbs, hbuf, hcode⟩ := exchange_eq_zero hw
    (fun bs hbs => by
      rw [hsome, Option.some.injEq] at hbs
      exact hbs ▸ sendable_withCrc hq) h
  rw [hsome, Option.some.injEq] at hbs
  subst hbs
  have hagree : Agree (withCrc q) (store s.buf 0 (sent (withCrc q))) := agree_store _ _
  rw [hagree.code, code_withCrc] at hcode
  rw [hbuf, code_setCrc, count_setCrc, values_setCrc, hagree.code, hagree.count, hagree.values,
    code_withCrc, count_withCrc, withCrc, values_setCrc, values_setCrc]
  exact ⟨hcode, rfl, rfl, rfl⟩

theorem exchange_ne_zero_of_unfit (hw : w.Lossy) {m : Packet} (hm : ¬CrcFits (sent m))
    (hsome : (ioExchange w (w.before s.io) s.dma (w.request (sent s.buf))).2 =
      some (sent (rxDmaCallback (w.before s.io) w.board w.others m).packet)) :
    (exchange w s).1 ≠ 0 := by
  intro h
  rw [(rxDmaCallback_unfit hm).2.2] at hsome
  have hcount : (corruptReply (m.setCrc 0) 0xff).count ≤ pktMaxRegs := by
    rw [count_corruptReply]
    exact Nat.zero_le _
  exact (exchange_reply hw hcount hsome h).1 (code_corruptReply _ _)

theorem exchange_ne_zero_of_silent (hw : w.Lossy)
    (hnone : (ioExchange w (w.before s.io) s.dma (w.request (sent s.buf))).2 = none) :
    (exchange w s).1 ≠ 0 := by
  intro h
  obtain ⟨bs, hbs, -⟩ := exchange_eq_zero hw (fun bs hbs => by rw [hnone] at hbs; cases hbs) h
  rw [hnone] at hbs
  cases hbs

/-- The registers and the result when the IO handles a write in this exchange. -/
def Wire.write (w : Wire G) (page offset : UInt8) (values : List UInt16) (io : Io G) : Io G × ℤ :=
  registersSet (w.before io) w.board page offset values

/-- A try of a write is made by the IO or not.  If it succeeds it is made, and the code of the reply
tells its result. -/
theorem write_exchange (hw : w.Lossy) (hn : values.length ≤ pktMaxRegs)
    (hbuf : s.buf = withCrc (writePacket page offset values buf)) :
    ∃ made : Bool, (exchange w s).2.io = (if made then (w.write page offset values s.io).1
        else w.before s.io) ∧
      ((exchange w s).1 = 0 → made = true ∧ ((exchange w s).2.buf.code = pktCodeError ↔
        (w.write page offset values s.io).2 ≠ 0)) := by
  obtain ⟨hcode, hpage, hoffset, hcount, hvalues⟩ := writePacket_spec page offset buf hn
  rw [← hbuf] at hcode hpage hoffset hvalues
  have hsend : Sendable (sent s.buf) := by
    rw [hbuf]
    exact sendable_withCrc (hcount.trans_le hn)
  rcases ioExchange_cases hw (w.before s.io) s.dma hsend with
    ⟨⟨_, hio⟩, hnone⟩ | ⟨m, hm, hio, hsome⟩
  · exact ⟨false, congrArg Handled.io hio, fun h => absurd h (exchange_ne_zero_of_silent hw hnone)⟩
  · by_cases hfits : CrcFits (sent m)
    · have hagree := hm.resolve_right (not_not_intro hfits)
      obtain ⟨hio', hpacket⟩ := rxDmaCallback_write (w.before s.io) w.board w.others hfits
        (hagree.code.trans hcode)
      rw [hagree.page, hagree.offset, hagree.values, hpage, hoffset, hvalues] at hio' hpacket
      refine ⟨true, (congrArg Handled.io hio).trans hio', fun h => ⟨rfl, ?_⟩⟩
      rw [hpacket] at hsome
      obtain ⟨-, hreply, -⟩ :=
          exchange_reply hw (by rw [count_setCountCode]; split <;> decide) hsome h
      rw [hreply, code_setCountCode, Wire.write]
      split
      · rename_i hne
        exact iff_of_true (by decide) hne
      · rename_i hzero
        exact iff_of_false (by decide) hzero
    · exact ⟨false, (congrArg Handled.io hio).trans (rxDmaCallback_unfit hfits).1,
        fun h => absurd h (exchange_ne_zero_of_unfit hw hfits hsome)⟩

/-- The registers after tries of a write, of which some are made. -/
def madeWrites (page offset : UInt8) (values : List UInt16) : List (Wire G) → List Bool → Io G →
    Io G
  | w :: ws, made :: rest, io =>
      madeWrites page offset values ws rest
        (if made then (w.write page offset values io).1 else w.before io)
  | _, _, io => io

/-- The last try is made, and this is its result. -/
def LastWrite (page offset : UInt8) (values : List UInt16) (ws : List (Wire G)) (made : List Bool)
    (io : Io G) (ok : Bool) : Prop :=
  ∃ earlier w, made = earlier ++ [true] ∧ ws[earlier.length]? = some w ∧
    (decide ((w.write page offset values (madeWrites page offset values ws earlier io)).2 = 0)) = ok

theorem LastWrite.cons {w : Wire G} {ws : List (Wire G)} {made : List Bool} {m ok : Bool}
    {io : Io G}
    (h : LastWrite page offset values ws made
      (if m then (w.write page offset values io).1 else w.before io) ok) :
    LastWrite page offset values (w :: ws) (m :: made) io ok := by
  obtain ⟨earlier, w', rfl, hw', hok⟩ := h
  exact ⟨m :: earlier, w', rfl, hw', hok⟩

@[simp] theorem madeWrites_nil (ws : List (Wire G)) (io : Io G) :
    madeWrites page offset values ws [] io = io := by
  cases ws <;> rfl

theorem exchange_result (w : Wire G) (s : Link G) :
    (exchange w s).1 = 0 ∨ (exchange w s).1 = -1 ∨ (exchange w s).1 = -eio := by
  have hcheck : ∀ buf, (checkReply buf).1 = 0 ∨ (checkReply buf).1 = -eio := by
    intro buf
    simp only [checkReply]
    split
    · exact Or.inr rfl
    · exact Or.inl rfl
  simp only [exchange, busExchange]
  split
  · exact Or.inr (Or.inl rfl)
  · exact Or.inr (Or.inr rfl)
  · split
    · exact Or.inr (Or.inr rfl)
    · exact (hcheck _).imp_right Or.inr
  · exact (hcheck _).imp_right Or.inr

theorem exchange_failed {w : Wire G} {s : Link G} (h : (exchange w s).1 ≠ 0) :
    (exchange w s).1 < 0 ∧ (exchange w s).1 ≠ -einval := by
  rcases exchange_result w s with hzero | hone | heio
  · exact absurd hzero h
  · rw [hone]
    decide
  · rw [heio]
    decide

theorem writeTries_spec (page offset : UInt8) (hn : values.length ≤ pktMaxRegs) :
    ∀ (ws : List (Wire G)) (result : ℤ) (s : Link G), (∀ w ∈ ws, w.Lossy) →
      (ws = [] → result < 0 ∧ result ≠ -einval) →
      (writeTries page offset values ws result s).1 ≤ 0 ∧
      ∃ made : List Bool, made.length ≤ ws.length ∧
        (writeTries page offset values ws result s).2.io =
          madeWrites page offset values ws made s.io ∧
        ((writeTries page offset values ws result s).1 = 0 →
          LastWrite page offset values ws made s.io true) ∧
        ((writeTries page offset values ws result s).1 = -einval →
          LastWrite page offset values ws made s.io false) := by
  intro ws
  induction ws with
  | nil =>
      intro result s _ hresult
      obtain ⟨hneg, hne⟩ := hresult rfl
      exact ⟨hneg.le, [], Nat.le_refl 0, rfl, fun h => absurd h hneg.ne, fun h => absurd h hne⟩
  | cons w ws ih =>
      intro result s hws _
      obtain ⟨r, hr⟩ : ∃ r,
          r = exchange w { s with buf := withCrc (writePacket page offset values s.buf) } :=
            ⟨_, rfl⟩
      obtain ⟨m, hio, hok⟩ := write_exchange
        (s := { s with buf := withCrc (writePacket page offset values s.buf) })
        (hws w (List.mem_cons_self ..)) hn rfl
      rw [← hr] at hio hok
      rw [writeTries, ← hr]
      by_cases hzero : r.1 = 0
      · -- the exchange succeeds, and no other is tried
        obtain ⟨rfl, hcode⟩ := hok hzero
        simp only [if_pos hzero]
        refine ⟨by split <;> decide, [true], Nat.le_add_left 1 _, ?_, fun h =>
          ⟨[], w, rfl, rfl, ?_⟩,
          fun h => ⟨[], w, rfl, rfl, ?_⟩⟩
        · rw [madeWrites, madeWrites_nil]
          exact hio
        · rw [decide_eq_true_eq, madeWrites_nil]
          by_contra hne
          rw [if_pos (hcode.2 hne)] at h
          exact absurd h (by decide)
        · rw [decide_eq_false_iff_not, madeWrites_nil]
          by_contra hz
          rw [if_neg fun herror => hcode.1 herror hz] at h
          exact absurd h (by decide)
      · simp only [if_neg hzero]
        have hfailed : r.1 < 0 ∧ r.1 ≠ -einval := by
          rw [hr] at hzero ⊢
          exact exchange_failed hzero
        obtain ⟨hneg, made, hlen, hio', htrue, hfalse⟩ := ih r.1 r.2
          (fun w' hw' => hws w' (List.mem_cons_of_mem _ hw')) fun _ => hfailed
        rw [hio] at hio' htrue hfalse
        exact ⟨hneg, m :: made, Nat.succ_le_succ hlen, hio', fun h => (htrue h).cons,
          fun h => (hfalse h).cons⟩

/-- Over a lossy wire a write is made by the IO as it was asked for, up to three times and nothing
else with it; what is reported as written is what the IO has accepted in the last try, and what is
reported as an error is what it has refused there. -/
theorem write_applied (address : UInt32) (values : List UInt16) (hn : values.length ≤ pktMaxRegs)
    (w₀ w₁ w₂ : Wire G) (hw : ∀ w ∈ [w₀, w₁, w₂], w.Lossy) (s : Link G) :
    ∃ made : List Bool, made.length ≤ 3 ∧
      (px4ioWrite address values w₀ w₁ w₂ s).2.io =
        madeWrites (address >>> 8).toUInt8 (address &&& 0xff).toUInt8 values [w₀, w₁, w₂] made
          s.io ∧
      ((px4ioWrite address values w₀ w₁ w₂ s).1 = values.length →
        LastWrite (address >>> 8).toUInt8 (address &&& 0xff).toUInt8 values [w₀, w₁, w₂] made s.io
          true) ∧
      ((px4ioWrite address values w₀ w₁ w₂ s).1 = -einval →
        LastWrite (address >>> 8).toUInt8 (address &&& 0xff).toUInt8 values [w₀, w₁, w₂] made s.io
          false) := by
  obtain ⟨hneg, made, hlen, hio, htrue, hfalse⟩ := writeTries_spec (address >>> 8).toUInt8
    (address &&& 0xff).toUInt8 hn [w₀, w₁, w₂] 0 s hw (fun h => by cases h)
  have hcount : (0 : ℤ) ≤ values.length := Int.natCast_nonneg _
  rw [px4ioWrite, if_neg (Nat.not_lt.2 hn)]
  refine ⟨made, hlen, hio, fun h => htrue ?_, fun h => hfalse ?_⟩
  · by_contra hne
    simp only [if_neg hne] at h
    omega
  · by_cases hzero : (writeTries (address >>> 8).toUInt8 (address &&& 0xff).toUInt8 values
      [w₀, w₁, w₂] 0 s).1 = 0
    · simp only [if_pos hzero] at h
      exact absurd (h ▸ hcount) (by decide)
    · simpa only [if_neg hzero] using h

/-! ## Reads -/

/-- The registers after tries that change nothing. -/
def idle (ws : List (Wire G)) (io : Io G) : Io G := ws.foldl (fun io w => w.before io) io

/-- The reply of the IO to a read: all of the registers that were asked for, if it counts so
many. -/
theorem handleRead_values (io : Io G) (board : Board) (others : Buffer → RegPage) (p : Packet)
    (hp : p.count ≤ pktMaxRegs) :
    (handleRead io board others p).packet.count ≤ pktMaxRegs ∧
      ((handleRead io board others p).packet.code ≠ pktCodeError →
        (handleRead io board others p).packet.count = p.count →
        ∃ buffer n, registersGet p.page p.offset = some (buffer, n) ∧ p.count ≤ n ∧
          (handleRead io board others p).packet.values = (List.range p.count).map fun i =>
            io.pages (updateOnRead board p.page others) buffer (p.offset.toNat + i)) := by
  refine ⟨(handleRead_spec io board others p).2, ?_⟩
  unfold handleRead
  generalize updateOnRead board p.page others = others
  cases hget : registersGet p.page p.offset with
  | none =>
      intro hcode _
      refine absurd ?_ hcode
      rw [code_setCountCode]
      decide
  | some selected =>
      obtain ⟨buffer, n⟩ := selected
      dsimp only
      obtain ⟨k, hk⟩ : ∃ k, k = if (if n > pktMaxRegs then pktMaxRegs else n) > p.count then p.count
          else if n > pktMaxRegs then pktMaxRegs else n := ⟨_, rfl⟩
      rw [← hk]
      have hle : k ≤ p.count ∧ k ≤ n := by
        rw [hk]
        split_ifs <;> omega
      intro _ hcount
      have hroom : k ≤ pktMaxRegs := hle.1.trans hp
      have hcode : pktCodeSuccess = pktCodeRead := rfl
      rw [count_setCountCode, hcode, (count_code_or hroom (Or.inr rfl)).1] at hcount
      refine ⟨buffer, n, rfl, hcount ▸ hle.2, ?_⟩
      rw [← hcount]
      apply List.ext_getElem
      · rw [values_length, count_setCountCode, hcode, (count_code_or hroom (Or.inr rfl)).1]
        simp
      · intro i hi hi'
        have hlt : i < k := by simpa using hi'
        have hreg : ∀ v : UInt8, ((p.setRegs ((List.range k).map fun i =>
            io.pages others buffer (p.offset.toNat + i))).setCountCode v).reg i =
              (p.setRegs ((List.range k).map fun i =>
                io.pages others buffer (p.offset.toNat + i))).reg
                i := by
          intro v
          unfold Packet.reg Packet.setCountCode
          rw [Function.update_of_ne (by omega), Function.update_of_ne (by omega)]
        simp only [Packet.values, List.getElem_map, List.getElem_range]
        rw [hreg, reg_setRegs _ (by simpa using hlt)]
        simp [List.getD_eq_getElem?_getD, hlt]

/-- What a read gives: the registers of the IO at the time of the last try, updated for the read. -/
def ReadsRegisters (page offset : UInt8) (count : ℕ) (w : Wire G) (io : Io G)
    (values : List UInt16) : Prop :=
  ∃ buffer n, registersGet page offset = some (buffer, n) ∧ count ≤ n ∧
    values = (List.range count).map fun i =>
      io.pages (updateOnRead w.board page w.others) buffer (offset.toNat + i)

/-- A try of a read changes nothing, and if it succeeds the registers are in the buffer. -/
theorem read_exchange (hw : w.Lossy) (hn : count ≤ pktMaxRegs)
    (hbuf : s.buf = withCrc (readPacket page offset count buf)) :
    (exchange w s).2.io = w.before s.io ∧
      ((exchange w s).1 = 0 → (exchange w s).2.buf.code ≠ pktCodeError →
        (exchange w s).2.buf.count = count →
        ReadsRegisters page offset count w (w.before s.io) (exchange w s).2.buf.values) := by
  obtain ⟨hcode, hpage, hoffset, hcount⟩ := readPacket_spec page offset buf hn
  have hcount' : s.buf.count = count := by
    rw [hbuf, count_withCrc, hcount]
  rw [← hbuf] at hcode hpage hoffset
  have hsend : Sendable (sent s.buf) := by
    rw [hbuf]
    exact sendable_withCrc (hcount.trans_le hn)
  rcases ioExchange_cases hw (w.before s.io) s.dma hsend with
    ⟨⟨_, hio⟩, hnone⟩ | ⟨m, hm, hio, hsome⟩
  · exact ⟨congrArg Handled.io hio, fun h => absurd h (exchange_ne_zero_of_silent hw hnone)⟩
  · by_cases hfits : CrcFits (sent m)
    · have hagree := hm.resolve_right (not_not_intro hfits)
      obtain ⟨hio', hpacket⟩ := rxDmaCallback_read (w.before s.io) w.board w.others hfits
        (hagree.code.trans hcode)
      refine ⟨(congrArg Handled.io hio).trans hio', fun h => ?_⟩
      rw [hpacket] at hsome
      have hask : (m.setCrc 0).count = count := by
        rw [count_setCrc, hagree.count, hcount']
      obtain ⟨hroom, hvalues⟩ := handleRead_values (w.before s.io) w.board w.others (m.setCrc 0)
        (hask.trans_le hn)
      obtain ⟨-, hcode', hcount'', hvalues'⟩ := exchange_reply hw hroom hsome h
      rw [hcode', hcount'', hvalues']
      intro hne hsame
      obtain ⟨buffer, n, hget, hle, heq⟩ := hvalues hne (hsame.trans hask.symm)
      rw [page_setCrc, offset_setCrc, hagree.page, hagree.offset, hpage, hoffset] at hget
      rw [hask] at hle heq
      rw [page_setCrc, offset_setCrc, hagree.page, hagree.offset, hpage, hoffset] at heq
      exact ⟨buffer, n, hget, hle, heq⟩
    · exact ⟨(congrArg Handled.io hio).trans (rxDmaCallback_unfit hfits).1,
        fun h => absurd h (exchange_ne_zero_of_unfit hw hfits hsome)⟩

/-- Whatever the IO receives in a try of a read, only registers that `registers_get` updates for
this page are changed. -/
theorem read_sameOutside (hw : w.Lossy) (hn : count ≤ pktMaxRegs) (io : Io G) (dma : Packet) :
    SameOutside (getTouches page) (io.pages w.others)
      (ioExchange w io dma
        (w.request (sent (withCrc (readPacket page offset count buf))))).1.pages := by
  obtain ⟨hcode, hpage, -, hcount⟩ := readPacket_spec page offset buf hn
  rcases ioExchange_cases hw io dma (sendable_withCrc (hcount.trans_le hn)) with
    ⟨⟨_, hio⟩, -⟩ | ⟨m, hm, hio, -⟩
  · rw [hio]
    exact .refl _ _
  · rw [hio]
    by_cases hfits : CrcFits (sent m)
    · have hagree := hm.resolve_right (not_not_intro hfits)
      have hread : m.code ≠ pktCodeWrite := by
        rw [hagree.code, hcode]
        decide
      have houtside := rxDmaCallback_sameOutside io w.board w.others hread
      rwa [hagree.page, hpage] at houtside
    · obtain ⟨hsame, hothers, -⟩ := @rxDmaCallback_unfit _ io w.board w.others m hfits
      rw [Handled.pages, hsame, hothers]
      exact .refl _ _

theorem readTries_spec (page offset : UInt8) (hn : count ≤ pktMaxRegs) :
    ∀ (ws : List (Wire G)) (result : ℤ) (s : Link G), (∀ w ∈ ws, w.Lossy) → (ws = [] → result < 0) →
      (readTries page offset count ws result s).1 ≤ 0 ∧
      ∃ k ≤ ws.length,
        (readTries page offset count ws result s).2.2.io = idle (ws.take k) s.io ∧
        ((readTries page offset count ws result s).1 = 0 → ∃ j w, k = j + 1 ∧ ws[j]? = some w ∧
          ReadsRegisters page offset count w (idle (ws.take k) s.io)
            (readTries page offset count ws result s).2.1) := by
  intro ws
  induction ws with
  | nil =>
      intro result s _ hresult
      have hneg := hresult rfl
      exact ⟨hneg.le, 0, Nat.le_refl 0, rfl, fun h => absurd h hneg.ne⟩
  | cons w ws ih =>
      intro result s hws _
      obtain ⟨r, hr⟩ : ∃ r,
          r = exchange w { s with buf := withCrc (readPacket page offset count s.buf) } := ⟨_, rfl⟩
      obtain ⟨hio, hok⟩ := read_exchange
        (s := { s with buf := withCrc (readPacket page offset count s.buf) })
        (hws w (List.mem_cons_self ..)) hn rfl
      rw [← hr] at hio hok
      rw [readTries, ← hr]
      by_cases hzero : r.1 = 0
      · -- the exchange succeeds, and no other is tried
        simp only [if_pos hzero]
        split
        · have hneg : -einval < 0 := by decide
          exact ⟨hneg.le, 1, Nat.le_add_left 1 _, hio, fun h => absurd h hneg.ne⟩
        · rename_i hcode
          split
          · have hneg : -eio < 0 := by decide
            exact ⟨hneg.le, 1, Nat.le_add_left 1 _, hio, fun h => absurd h hneg.ne⟩
          · rename_i hcount
            exact ⟨Int.le_refl 0, 1, Nat.le_add_left 1 _, hio,
              fun _ => ⟨0, w, rfl, rfl, hok hzero hcode (not_not.1 hcount)⟩⟩
      · simp only [if_neg hzero]
        have hfailed : r.1 < 0 := by
          rw [hr] at hzero ⊢
          exact (exchange_failed hzero).1
        obtain ⟨hneg, k, hk, hio', hread⟩ := ih r.1 r.2
          (fun w' hw' => hws w' (List.mem_cons_of_mem _ hw')) fun _ => hfailed
        rw [hio] at hio' hread
        refine ⟨hneg, k + 1, Nat.succ_le_succ hk, hio', fun h => ?_⟩
        obtain ⟨j, w', rfl, hw', hvalues⟩ := hread h
        exact ⟨j + 1, w', rfl, hw', hvalues⟩

/-- Over a lossy wire a read changes no register of the IO but those that `registers_get` updates
for the page, and what it reports as read are the registers as they are in the last of at most three
tries. -/
theorem read_registers (address : UInt32) (count : ℕ) (hn : count ≤ pktMaxRegs) (w₀ w₁ w₂ : Wire G)
    (hw : ∀ w ∈ [w₀, w₁, w₂], w.Lossy) (s : Link G) :
    (∀ w ∈ [w₀, w₁, w₂], ∀ (io : Io G) (dma buf : Packet),
      SameOutside (getTouches (address >>> 8).toUInt8) (io.pages w.others)
        (ioExchange w io dma (w.request (sent (withCrc
          (readPacket (address >>> 8).toUInt8 (address &&& 0xff).toUInt8 count buf))))).1.pages) ∧
    ∃ k ≤ 3, (px4ioRead address count w₀ w₁ w₂ s).2.2.io = idle ([w₀, w₁, w₂].take k) s.io ∧
      ((px4ioRead address count w₀ w₁ w₂ s).1 = count →
        ∃ j w, k = j + 1 ∧ [w₀, w₁, w₂][j]? = some w ∧
          ReadsRegisters (address >>> 8).toUInt8 (address &&& 0xff).toUInt8 count w
            (idle ([w₀, w₁, w₂].take k) s.io) (px4ioRead address count w₀ w₁ w₂ s).2.1) := by
  obtain ⟨hneg, k, hk, hio, hread⟩ :=
      readTries_spec (address >>> 8).toUInt8 (address &&& 0xff).toUInt8
    hn [w₀, w₁, w₂] 0 s hw (fun h => by cases h)
  have hcount : (0 : ℤ) ≤ count := Int.natCast_nonneg _
  rw [px4ioRead, if_neg (Nat.not_lt.2 hn)]
  refine ⟨fun w hmem io dma buf => read_sameOutside (hw w hmem) hn io dma, k, hk, hio,
    fun h => hread ?_⟩
  by_contra hne
  simp only [if_neg hne] at h
  omega

end Runs

/-! ## A packet that is lost, and one that is not -/

/-- A wire on which nothing arrives. -/
def brokenWire : Wire Unit where
  before := id
  board := idleBoard
  others := fun _ _ => 0
  request := fun _ => none
  reply := fun _ => ⟨[], .timeout⟩

/-- A wire on which everything arrives. -/
def wholeWire : Wire Unit where
  before := id
  board := idleBoard
  others := fun _ _ => 0
  request := some
  reply := fun r => ⟨r.getD [], if r.isSome then .idle else .timeout⟩

theorem lossy_wires : ∀ w ∈ [brokenWire, wholeWire, wholeWire], w.Lossy := by
  have hbroken : brokenWire.Lossy := by
    refine ⟨?_, ?_, Or.inl rfl, ?_⟩
    · intro bs received h
      cases h
    · intro bs h
      rcases h with h | h <;> cases h
    · intro bs h
      cases h
  have hwhole : wholeWire.Lossy := by
    refine ⟨?_, fun bs _ => .intact rfl, Or.inl rfl, ?_⟩
    · intro bs received h
      exact .intact (Option.some.inj h).symm
    · intro bs h
      cases bs <;> cases h
  simp [hbroken, hwhole]

/-- Both ends at the start. -/
def startLink : Link Unit :=
  ⟨fun _ => 0, Io.initial ⟨(), fun g _ => (g, 0)⟩, fun _ => 0⟩

/-- A failsafe value of 1500 is written in the second try. -/
theorem write_applied_second_try :
    ∃ made : List Bool, made.length ≤ 3 ∧
      (px4ioWrite 0x3700 [1500] brokenWire wholeWire wholeWire startLink).2.io =
        madeWrites 55 0 [1500] [brokenWire, wholeWire, wholeWire] made startLink.io ∧
      LastWrite 55 0 [1500] [brokenWire, wholeWire, wholeWire] made startLink.io true := by
  obtain ⟨made, hlen, hio, htrue, -⟩ := write_applied 0x3700 [1500] (by decide) brokenWire wholeWire
    wholeWire lossy_wires startLink
  exact ⟨made, hlen, hio, htrue (by decide +kernel)⟩

/-- The failsafe value of the first channel is read in the second try. -/
theorem read_registers_second_try :
    ∃ k ≤ 3, ∃ j w, k = j + 1 ∧ [brokenWire, wholeWire, wholeWire][j]? = some w ∧
      ReadsRegisters 55 0 1 w (idle ([brokenWire, wholeWire, wholeWire].take k) startLink.io)
        (px4ioRead 0x3700 1 brokenWire wholeWire wholeWire startLink).2.1 := by
  obtain ⟨-, k, hk, -, hread⟩ := read_registers 0x3700 1 (by decide) brokenWire wholeWire wholeWire
    lossy_wires startLink
  exact ⟨k, hk, hread (by decide +kernel)⟩

end Px4io
end DtPhm
