import DtPhm.Canbootloader.Main
import DtPhm.Canbootloader.Transfers

/-!
# Bounds — what the receiver reads and stores

The bytes of received frames that are read, the bytes of buffers that are stored, and the divisions,
of the functions of `Main`, round by round.

* `Access`, `Access.Safe` — one of them, and where it stays in bounds;
* `rxAccesses` — those of one receive;
* `accesses_safe` — all of them are safe, whatever frames arrive, as long as no frame is without
  data, the second buffer of the allocation is not run over, and the image is not shorter than 100
  bytes.
-/

namespace DtPhm
namespace Canbootloader

open Lib

/-! ## Accesses -/

/-- Bytes of a received frame are read, bytes of a buffer of `size` bytes are stored, or a number is
divided. -/
inductive Access
  | read (first count : ℕ)
  | store (size first count : ℕ)
  | divide (divisor : ℕ)
  deriving DecidableEq, Repr

/-- An access stays in bounds; nothing is said of accesses to no bytes. -/
def Access.Safe : Access → Prop
  | .read first count => ∀ i < count, first + i < 8
  | .store size first count => ∀ i < count, first + i < size
  | .divide divisor => divisor ≠ 0

namespace Rx

variable (size capacity : ℕ) (s : Rx) (f : Frame)

/-- The accesses of `memcpy`. -/
def copyAccesses : List Access :=
  if s.Fits capacity f then [.read f.index f.length, .store size s.totalRx f.length] else []

/-- The accesses of one frame, to the buffer of `size` bytes. -/
def accesses : List Access :=
  -- the tail byte, in `uavcan_rx`
  .read f.rxLength 1 ::
    if s.Matches f then
      let crc : List Access := if f.isFirst then [.read 0 2] else []
      let s := s.start f
      if s.Overflows capacity f then crc ++ s.restart.copyAccesses size capacity f
      else if f.tail.transferId < s.protocol.tail.transferId then crc
      else crc ++ s.copyAccesses size capacity f
    else []

end Rx

/-- The accesses of the loop of `uavcan_rx_dsdl`. -/
def rxAccesses (size capacity : ℕ) : Rx → List Poll → List Access
  | _, [] => []
  | s, p :: ps =>
      match p.frame with
      | none => if p.expired then [] else rxAccesses size capacity s ps
      | some f =>
          s.accesses size capacity f ++
            match rxFrame capacity s f with
            | (_, true) => []
            | (s, false) => if p.expired then [] else rxAccesses size capacity s ps

/-- The accesses of `get_dynamic_node_id` in one round.  The second buffer, `rx_payload`, has the
size of a frame. -/
def Alloc.accesses (node : Node) (uniqueId : ℕ → UInt8) (a : Alloc) (r : AllocRound) :
    List Access :=
  let start := a.start r
  rxAccesses allocationSize allocationSize
      (Rx.init node .msgAllocation
        { start.protocol with id := { start.protocol.id with sourceNodeId := start.serverNodeId } }
        start.allocationMessage) r.polls ++
    match a.receive node r with
    | none => []
    | some received =>
        match Alloc.rules uniqueId received with
        | .followup rxLen =>
            rxAccesses 8 rxLen
              (Rx.init node .msgAllocation { received.protocol with id := CanId.zero } r.rxPayload)
              r.followup
        | _ => []

/-- The accesses of `wait_for_beginfirmwareupdate` in one round. -/
def Wait.accesses (node : Node) (w : Wait) (r : WaitRound) : List Access :=
  if r.tbootExpired then []
  else
    rxAccesses (1 + pathSize) (1 + pathSize)
      (Rx.init node .reqBeginFirmwareUpdate { w.protocol with id := CanId.zero } w.request) r.polls

/-- The accesses of a receive that follows a request. -/
def Server.accesses (sv : Server) (d : Dsdl) (protocol : Protocol) (response : Mem) (size : ℕ)
    (polls : List Poll) : List Access :=
  rxAccesses size size (Rx.init sv.node d (protocol.fromServer sv.serverNodeId) response) polls

/-- The accesses of `file_getinfo` in one round. -/
def GetInfo.accesses (sv : Server) (g : GetInfo) (t : Attempt) : List Access :=
  if g.retries = 0 ∨ ¬t.sent then []
  else sv.accesses .rspGetInfo g.protocol g.response getInfoSize t.polls

/-- The accesses of the inner loop of `file_read_and_program`. -/
def chunkAccesses (sv : Server) : (retries : ℕ) → Program → List Attempt → List Access
  | 0, _, _ => []
  | _ + 1, _, [] => []
  | retries + 1, p, t :: ts =>
      (if t.sent then sv.accesses .rspRead p.protocol p.response readSize t.polls else []) ++
        match readAttempt sv p t with
        | some (p, none) => chunkAccesses sv retries p ts
        | _ => []

/-- The accesses of `file_read_and_program` in one round: `a_percent` is the divisor. -/
def Program.accesses (sv : Server) (fwImageSize : ℕ) (p : Program) (c : Chunk) : List Access :=
  chunkAccesses sv uavcanServiceRetries p c.attempts ++
    match readChunk sv uavcanServiceRetries p c.attempts with
    | some (_, some _) => [.divide (fwImageSize / 100)]
    | _ => []

/-! ## One receive -/

/-- The data that the frames carry, with their tail bytes left out. -/
def dataBytes (kind : Kind) (fs : List Frame) : ℕ :=
  ((fs.filter fun f => f.id.kind = kind).map fun f => f.dlc - 1).sum

theorem dataBytes_cons_of_eq {kind : Kind} {f : Frame} (h : f.id.kind = kind) (fs : List Frame) :
    dataBytes kind (f :: fs) = f.dlc - 1 + dataBytes kind fs := by
  simp [dataBytes, h]

theorem dataBytes_le_cons (kind : Kind) (f : Frame) (fs : List Frame) :
    dataBytes kind fs ≤ dataBytes kind (f :: fs) := by
  by_cases h : f.id.kind = kind
  · rw [dataBytes_cons_of_eq h]
    exact Nat.le_add_left _ _
  · simp [dataBytes, h]

namespace Rx

variable {size capacity : ℕ} {s : Rx} {f : Frame}

theorem data_of_fits (hdlc : f.dlc ≠ 0) (hcapacity : capacity < 2 ^ 32 - 7)
    (htotal : s.totalRx ≤ capacity) (hfirst : f.isFirst = true → s.totalRx = 0)
    (hfits : s.Fits capacity f) :
    f.index + f.length ≤ 7 ∧ s.totalRx + f.length ≤ capacity ∧ f.length ≤ f.dlc - 1 := by
  have hle := f.dlc_le
  have hrx : f.rxLength = f.dlc - 1 := Frame.rxLength_of_pos (Nat.pos_of_ne_zero hdlc)
  rw [Fits] at hfits
  cases h : f.isFirst with
  | false =>
      rw [Frame.length_of_not_first h, hrx] at hfits ⊢
      rw [Frame.index_of_not_first h]
      omega
  | true =>
      -- the length has wrapped around where the checksum is not whole, and then it does not fit
      have hlen : f.length = (f.dlc - 1 + (2 ^ 32 - 2)) % 2 ^ 32 := by
        rw [Frame.length, if_pos h, hrx]
      have hindex : f.index = 2 := if_pos h
      rw [hfirst h, Nat.zero_add] at hfits ⊢
      rw [hindex]
      omega

/-- With the frames to come, the transfer stays inside of the buffer. -/
structure Bounded (size capacity : ℕ) (s : Rx) (fs : List Frame) : Prop where
  total : s.totalRx ≤ capacity
  fits : min capacity (s.totalRx + dataBytes s.protocol.id.kind fs) ≤ size

theorem Bounded.mono {s' : Rx} {fs fs' : List Frame} (h : s.Bounded size capacity fs)
    (hkind : s'.protocol.id.kind = s.protocol.id.kind) (hcapacity : s'.totalRx ≤ capacity)
    (htotal : s'.totalRx + dataBytes s.protocol.id.kind fs' ≤
      s.totalRx + dataBytes s.protocol.id.kind fs) : s'.Bounded size capacity fs' := by
  refine ⟨hcapacity, ?_⟩
  calc
    min capacity (s'.totalRx + dataBytes s'.protocol.id.kind fs')
        ≤ min capacity (s.totalRx + dataBytes s.protocol.id.kind fs) := by
          rw [hkind]
          exact min_le_min_left _ htotal
    _ ≤ size := h.fits

theorem Bounded.start {fs : List Frame} (h : s.Bounded size capacity fs) (f : Frame) :
    (s.start f).Bounded size capacity fs := by
  rw [Rx.start]
  split
  · exact h.mono rfl (Nat.zero_le _) (Nat.add_le_add_right (Nat.zero_le _) _)
  · exact h

theorem start_kind : (s.start f).protocol.id.kind = s.protocol.id.kind := by
  rw [Rx.start]
  split <;> rfl

theorem start_totalRx (hfirst : f.isFirst = true) : (s.start f).totalRx = 0 := by
  have hsot : f.tail.sot = true := (Bool.and_eq_true _ _ ▸ hfirst).1
  rw [Rx.start, if_pos hsot]

theorem Bounded.copy {fs : List Frame} (h : s.Bounded size capacity (f :: fs))
    (hkind : f.id.kind = s.protocol.id.kind) (hdlc : f.dlc ≠ 0)
    (hfirst : f.isFirst = true → s.totalRx = 0) (hcapacity : capacity < 2 ^ 32 - 7) :
    (∀ x ∈ s.copyAccesses size capacity f, x.Safe) ∧
      (s.copy capacity f).flip.Bounded size capacity fs := by
  have hdata := dataBytes_cons_of_eq hkind fs
  rw [copyAccesses, Rx.copy]
  by_cases hfits : s.Fits capacity f
  · obtain ⟨hread, hstore, hlength⟩ := data_of_fits hdlc hcapacity h.total hfirst hfits
    have hmod : (s.totalRx + f.length) % 2 ^ 32 = s.totalRx + f.length :=
      Nat.mod_eq_of_lt (by omega)
    rw [if_pos hfits, if_pos hfits]
    constructor
    · have hsize : s.totalRx + f.length ≤ size := by
        refine le_trans (le_min hstore ?_) h.fits
        omega
      intro x hx
      rcases List.mem_pair.1 hx with rfl | rfl
      · intro i hi
        omega
      · intro i hi
        omega
    · refine h.mono rfl (hmod.trans_le hstore) ?_
      simp only [flip, hmod]
      omega
  · rw [if_neg hfits, if_neg hfits]
    refine ⟨by simp, h.mono rfl h.total ?_⟩
    exact Nat.add_le_add_left (dataBytes_le_cons _ _ _) _

theorem Bounded.frame {fs : List Frame} (h : s.Bounded size capacity (f :: fs)) (hdlc : f.dlc ≠ 0)
    (hcapacity : capacity < 2 ^ 32 - 7) :
    (∀ x ∈ s.accesses size capacity f, x.Safe) ∧
      (rxFrame capacity s f).1.Bounded size capacity fs := by
  have hskip : ∀ {t : Rx}, t.Bounded size capacity (f :: fs) → t.Bounded size capacity fs :=
    fun ht => ht.mono rfl ht.total (Nat.add_le_add_left (dataBytes_le_cons _ _ _) _)
  have htail : Access.Safe (.read f.rxLength 1) := by
    have := f.dlc_le
    have := Frame.rxLength_of_pos (Nat.pos_of_ne_zero hdlc)
    intro i hi
    omega
  rw [accesses, rxFrame]
  by_cases hm : s.Matches f
  · have hkind : f.id.kind = (s.start f).protocol.id.kind := hm.2.1.trans start_kind.symm
    have hcrc : ∀ x ∈ (if f.isFirst then [.read 0 2] else [] : List Access), x.Safe := by
      intro x hx
      split at hx
      · obtain rfl := List.mem_singleton.1 hx
        intro i hi
        omega
      · cases hx
    have hs := h.start f
    simp only [if_pos hm, List.forall_mem_cons]
    by_cases hoverflow : (s.start f).Overflows capacity f
    · obtain ⟨hcopy, hnext⟩ := Bounded.copy (s := (s.start f).restart) (hs.mono rfl hs.total le_rfl)
        hkind hdlc (fun hfirst => start_totalRx hfirst) hcapacity
      simp only [if_pos hoverflow]
      exact ⟨⟨htail, List.forall_mem_append.2 ⟨hcrc, hcopy⟩⟩, hnext⟩
    · simp only [if_neg hoverflow]
      split
      · exact ⟨⟨htail, hcrc⟩, hskip hs⟩
      · obtain ⟨hcopy, hnext⟩ := hs.copy hkind hdlc (fun hfirst => start_totalRx hfirst) hcapacity
        exact ⟨⟨htail, List.forall_mem_append.2 ⟨hcrc, hcopy⟩⟩, hnext⟩
  · simp only [if_neg hm, List.forall_mem_cons]
    exact ⟨⟨htail, by simp⟩, hskip h⟩

theorem Bounded.loop {ps : List Poll} (h : s.Bounded size capacity (frames ps))
    (hdlc : ∀ f ∈ frames ps, f.dlc ≠ 0) (hcapacity : capacity < 2 ^ 32 - 7) :
    ∀ x ∈ rxAccesses size capacity s ps, x.Safe := by
  induction ps generalizing s with
  | nil => simp [rxAccesses]
  | cons p ps ih =>
      rcases p with ⟨_ | f, expired⟩
      · rw [rxAccesses]
        dsimp only
        split
        · simp
        · exact ih h hdlc
      · have hcons : s.Bounded size capacity (f :: frames ps) := h
        obtain ⟨hf, hnext⟩ := hcons.frame (hdlc f List.mem_cons_self) hcapacity
        rw [rxAccesses]
        refine List.forall_mem_append.2 ⟨hf, ?_⟩
        dsimp only
        split
        · simp
        · rename_i hstep
          rw [hstep] at hnext
          split
          · simp
          · exact ih hnext fun g hg => hdlc g (List.mem_cons_of_mem f hg)

end Rx

/-- A receive stays in bounds where the buffer has the size that is given for it, or the frames do
not carry more than it has room for. -/
theorem rxAccesses_safe {size capacity : ℕ} {node : Node} {d : Dsdl} {protocol : Protocol}
    {transfer : Mem} {ps : List Poll} (hdlc : ∀ f ∈ frames ps, f.dlc ≠ 0)
    (hcapacity : capacity < 2 ^ 32 - 7)
    (hfits : min capacity (dataBytes (d.entry.kind.withDest node.thisNodeId) (frames ps)) ≤ size) :
    ∀ x ∈ rxAccesses size capacity (Rx.init node d protocol transfer) ps, x.Safe := by
  have hbounded : (Rx.init node d protocol transfer).Bounded size capacity (frames ps) :=
    ⟨Nat.zero_le _, (congrArg (min capacity) (Nat.zero_add _)).trans_le hfits⟩
  exact hbounded.loop hdlc hcapacity

/-! ## The four functions -/

/-- No frame in the fifo is without data: each has its tail byte. -/
def HaveTails (ps : List Poll) : Prop := ∀ f ∈ frames ps, f.dlc ≠ 0

instance (ps : List Poll) : Decidable (HaveTails ps) :=
  inferInstanceAs (Decidable (∀ f ∈ frames ps, _))

theorem Alloc.followup_lt {uniqueId : ℕ → UInt8} {received : Received} {rxLen : ℕ}
    (h : Alloc.rules uniqueId received = .followup rxLen) : rxLen < uniqueIdSize := by
  rw [Alloc.rules] at h
  generalize (received.length + (2 ^ 32 - 1)) % 2 ^ 32 = n at h
  have hmatched := Alloc.matched_le uniqueId received.transfer (min uniqueIdSize n)
  split at h
  · cases h
  split at h
  · cases h
  split at h
  · cases h
  split at h
  · cases h
  rename_i hall hne
  cases h
  omega

/-- A round of `get_dynamic_node_id`: frames have tails, and where the second buffer is given as
more than the eight bytes that it has, not more of them arrive. -/
structure AllocRound.Fits (node : Node) (uniqueId : ℕ → UInt8) (a : Alloc) (r : AllocRound) :
    Prop where
  polls : HaveTails r.polls
  followup : HaveTails r.followup
  second : ∀ received rxLen, a.receive node r = some received →
    Alloc.rules uniqueId received = .followup rxLen →
    min rxLen (dataBytes Dsdl.msgAllocation.entry.kind (frames r.followup)) ≤ 8

theorem Alloc.accesses_safe {node : Node} {uniqueId : ℕ → UInt8} {a : Alloc} {r : AllocRound}
    (h : r.Fits node uniqueId a) : ∀ x ∈ a.accesses node uniqueId r, x.Safe := by
  rw [Alloc.accesses]
  refine List.forall_mem_append.2 ⟨?_, ?_⟩
  · exact rxAccesses_safe h.polls (by decide) (min_le_left _ _)
  · cases hreceive : a.receive node r with
    | none => simp
    | some received =>
        cases hrules : Alloc.rules uniqueId received with
        | skip => simp [hrules]
        | restart => simp [hrules]
        | allocated nodeId => simp [hrules]
        | followup rxLen =>
            have hlt : rxLen < 16 := Alloc.followup_lt hrules
            have hfits := h.second received rxLen hreceive hrules
            simp only [hrules]
            exact rxAccesses_safe h.followup (by omega) hfits

theorem Wait.accesses_safe {node : Node} {w : Wait} {r : WaitRound} (h : HaveTails r.polls) :
    ∀ x ∈ w.accesses node r, x.Safe := by
  rw [Wait.accesses]
  split
  · simp
  · exact rxAccesses_safe h (by decide) (min_le_left _ _)

theorem Server.accesses_safe {sv : Server} {d : Dsdl} {protocol : Protocol} {response : Mem}
    {size : ℕ} {ps : List Poll} (h : HaveTails ps) (hsize : size < 2 ^ 32 - 7) :
    ∀ x ∈ sv.accesses d protocol response size ps, x.Safe :=
  rxAccesses_safe h hsize (min_le_left _ _)

theorem GetInfo.accesses_safe {sv : Server} {g : GetInfo} {t : Attempt} (h : HaveTails t.polls) :
    ∀ x ∈ g.accesses sv t, x.Safe := by
  rw [GetInfo.accesses]
  split
  · simp
  · exact Server.accesses_safe h (by decide)

theorem chunkAccesses_safe {sv : Server} {retries : ℕ} {p : Program} {ts : List Attempt}
    (h : ∀ t ∈ ts, HaveTails t.polls) : ∀ x ∈ chunkAccesses sv retries p ts, x.Safe := by
  induction retries generalizing p ts with
  | zero => simp [chunkAccesses]
  | succ retries ih =>
      cases ts with
      | nil => simp [chunkAccesses]
      | cons t ts =>
          obtain ⟨ht, hts⟩ := List.forall_mem_cons.1 h
          rw [chunkAccesses]
          refine List.forall_mem_append.2 ⟨?_, ?_⟩
          · split
            · exact Server.accesses_safe ht (by decide)
            · simp
          · split
            · exact ih hts
            · simp

theorem Program.accesses_safe {sv : Server} {fwImageSize : ℕ} {p : Program} {c : Chunk}
    (h : ∀ t ∈ c.attempts, HaveTails t.polls) (hsize : 100 ≤ fwImageSize) :
    ∀ x ∈ p.accesses sv fwImageSize c, x.Safe := by
  rw [Program.accesses]
  refine List.forall_mem_append.2 ⟨chunkAccesses_safe h, ?_⟩
  split
  · intro x hx
    obtain rfl := List.mem_singleton.1 hx
    exact (Nat.div_pos hsize (by decide)).ne'
  · simp

/-- Every access of a run is safe whose rounds meet `ok`. -/
def StaysInBounds {σ ρ ε : Type*} (round : σ → ε → Progress σ ρ) (accesses : σ → ε → List Access)
    (ok : σ → ε → Prop) : Prop :=
  ∀ s es, AllSteps (Progress.step round) (Progress.Meets ok) (.goesOn s) es →
    ∀ x ∈ outputs (Progress.step round) (Progress.out accesses) (.goesOn s) es, x.Safe

theorem StaysInBounds.round {σ ρ ε : Type*} {round : σ → ε → Progress σ ρ}
    {accesses : σ → ε → List Access} {ok : σ → ε → Prop} (h : StaysInBounds round accesses ok)
    {s : σ}
    {e : ε} (he : ok s e) {x : Access} (hx : x ∈ accesses s e) : x.Safe :=
  h s [e] ⟨he, trivial⟩ x (List.mem_append_left _ hx)

/-- The four functions stay in bounds where frames have tails, the second buffer of the allocation
is not run over, and one percent of the image is not nothing. -/
theorem stays_in_bounds (node : Node) (uniqueId : ℕ → UInt8) (sv : Server) (image : Image)
    (imageLength : ℕ) :
    StaysInBounds (Alloc.round node uniqueId) (Alloc.accesses node uniqueId)
        (AllocRound.Fits node uniqueId) ∧
      StaysInBounds (Wait.round node) (Wait.accesses node) (fun _ r => HaveTails r.polls) ∧
      StaysInBounds (GetInfo.round sv imageLength) (GetInfo.accesses sv)
        (fun _ t => HaveTails t.polls) ∧
      ∀ fwImageSize, 100 ≤ fwImageSize →
        StaysInBounds (Program.round image sv fwImageSize) (Program.accesses sv fwImageSize)
          (fun _ c => ∀ t ∈ c.attempts, HaveTails t.polls) := by
  refine ⟨?_, ?_, ?_, ?_⟩
  · intro a rs hok
    exact Progress.forall_mem_outputs (fun _ _ h => Alloc.accesses_safe h) hok
  · intro w rs hok
    exact Progress.forall_mem_outputs (fun _ _ h => Wait.accesses_safe h) hok
  · intro g ts hok
    exact Progress.forall_mem_outputs (fun _ _ h => GetInfo.accesses_safe h) hok
  · intro fwImageSize hsize p cs hok
    exact Progress.forall_mem_outputs (fun _ _ h => Program.accesses_safe h hsize) hok

/-- A build with room for an image of 1024 bytes. -/
def smallImage : Image where
  loadAddress := 0
  lastAddress := 1024
  twoWords := false
  load_le_last := Nat.zero_le _
  last_lt := by decide

/-- A request for an update that arrives in one frame. -/
def updateRequested : WaitRound where
  tbootExpired := false
  polls :=
    arriving
      (uavcanTxDsdl ⟨1, 0⟩ .reqBeginFirmwareUpdate ⟨CanId.zero, ⟨0, false, false, false⟩⟩ [1, 47,
        97])

theorem update_requested_in_bounds :
    ∀ x ∈ outputs (Progress.step (Wait.round ⟨0, 0⟩)) (Progress.out (Wait.accesses ⟨0, 0⟩))
      (.goesOn ⟨⟨CanId.zero, ⟨0, false, false, false⟩⟩, fun _ => 0⟩) [updateRequested], x.Safe :=
  (stays_in_bounds ⟨0, 0⟩ (fun _ => 0) ⟨⟨0, 0⟩, 1⟩ smallImage 0).2.1 _ _
    ⟨show HaveTails updateRequested.polls by decide, trivial⟩

/-- A frame without data. -/
def noData : Frame where
  id := CanId.zero
  dlc := 0
  data _ := 0
  dlc_le := Nat.zero_le _

/-- An `Allocation` message with twelve bytes of the unique ID, and behind it one with eight. -/
def secondStage : AllocRound where
  trequestExpired := false
  polls :=
    arriving (uavcanTxDsdl ⟨1, 0⟩ .msgAllocation ⟨CanId.zero, ⟨0, false, false, false⟩⟩
      [0, 1, 2, 3, 4, 5, 6, 7, 8, 9, 10, 11, 12])
  rxPayload _ := 0
  followup :=
    arriving (uavcanTxDsdl ⟨1, 0⟩ .msgAllocation ⟨CanId.zero, ⟨0, false, false, false⟩⟩
      [0, 1, 2, 3, 4, 5, 6, 7, 8])
  tbootExpired := false

/-- A piece of one byte, at the first request. -/
def oneByte : Chunk where
  attempts :=
    [⟨true,
      arriving (uavcanTxDsdl ⟨1, 0⟩ .rspRead ⟨CanId.zero, ⟨0, false, false, false⟩⟩ [0, 0, 7])⟩]
  written := true

/-- In general, they do not: the tail of a frame without data stands before the frame, the second
buffer of the allocation is shorter than it is said to be, and one percent of 99 bytes is 0. -/
theorem bounds_exceeded :
    (¬StaysInBounds (Wait.round ⟨0, 0⟩) (Wait.accesses ⟨0, 0⟩) fun _ _ => True) ∧
      (¬StaysInBounds (Alloc.round ⟨0, 0⟩ fun i => UInt8.ofNat (i + 1))
        (Alloc.accesses ⟨0, 0⟩ fun i => UInt8.ofNat (i + 1))
        fun _ r => HaveTails r.polls ∧ HaveTails r.followup) ∧
      ¬StaysInBounds (Program.round smallImage ⟨⟨0, 0⟩, 1⟩ 99) (Program.accesses ⟨⟨0, 0⟩, 1⟩ 99)
        fun _ c => ∀ t ∈ c.attempts, HaveTails t.polls := by
  refine ⟨?_, ?_, ?_⟩
  · intro h
    have hmem : Access.read (2 ^ 32 - 1) 1 ∈ Wait.accesses ⟨0, 0⟩
        ⟨⟨CanId.zero, ⟨0, false, false, false⟩⟩, fun _ => 0⟩ ⟨false, [⟨some noData, false⟩]⟩ := by
      decide +kernel
    exact absurd (h.round trivial hmem 0 Nat.one_pos) (by decide)
  · intro h
    have hmem : Access.store 8 5 4 ∈ Alloc.accesses ⟨0, 0⟩ (fun i => UInt8.ofNat (i + 1))
        ⟨⟨CanId.zero, ⟨0, false, false, false⟩⟩, 0, fun _ => 0, 0, false⟩ secondStage := by
      decide +kernel
    have htails : HaveTails secondStage.polls ∧ HaveTails secondStage.followup := by decide +kernel
    exact absurd (h.round htails hmem 3 (by decide)) (by decide)
  · intro h
    have hmem : Access.divide 0 ∈ Program.accesses ⟨⟨0, 0⟩, 1⟩ 99
        (Program.init ⟨CanId.zero, ⟨0, false, false, false⟩⟩ (fun _ => 0) fun _ => 0) oneByte := by
      decide +kernel
    have htails : ∀ t ∈ oneByte.attempts, HaveTails t.polls := by decide +kernel
    exact h.round htails hmem rfl

end Canbootloader
end DtPhm
