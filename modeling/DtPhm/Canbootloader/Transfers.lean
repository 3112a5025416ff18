import DtPhm.Canbootloader.Uavcan

/-!
# Transfers — what comes in is what was sent

The receiver puts together what the sender has cut into frames, whatever other frames arrive between
them; and what it hands out is a whole transfer.

* `Arrives` — the frames of a transfer among others, some of them twice;
* `received_of_arrives` — the transfer is received;
* `whole_of_ok` — what is received is a transfer of one frame, or has the checksum of its first;
* `transfers_correct_iff` — both hold exactly where a frame fits into the buffer.
-/

namespace DtPhm
namespace Canbootloader

open Lib

/-! ## Sent and received frames -/

/-- The received frame is the one that was sent. -/
structure Frame.Carries (f : Frame) (t : TxFrame) : Prop where
  id : f.id = t.id
  dlc : f.dlc = t.bytes.length
  data : load f.data 0 t.bytes.length = t.bytes

/-- The frame with the data `bs` and this tail byte. -/
def TxFrame.of (id : CanId) (bs : List UInt8) (tail : Tail) : TxFrame := ⟨id, bs ++ [tail.toByte]⟩

namespace Frame

variable {f : Frame} {id : CanId} {bs : List UInt8} {tail : Tail}

theorem rxLength_of_pos (h : 0 < f.dlc) : f.rxLength = f.dlc - 1 := by
  have := f.dlc_le
  unfold rxLength
  omega

theorem length_of_not_first (h : f.isFirst = false) : f.length = f.rxLength := by
  simp [Frame.length, h]

theorem index_of_not_first (h : f.isFirst = false) : f.index = 0 := by simp [index, h]

theorem Carries.rxLength_eq (h : f.Carries (TxFrame.of id bs tail)) : f.rxLength = bs.length := by
  have hdlc : f.dlc = bs.length + 1 := by simpa [TxFrame.of] using h.dlc
  rw [rxLength_of_pos (by omega), hdlc, Nat.add_sub_cancel]

theorem Carries.split (h : f.Carries (TxFrame.of id bs tail)) :
    load f.data 0 bs.length = bs ∧ load f.data bs.length 1 = [tail.toByte] := by
  have hdata := h.data
  rw [TxFrame.of, List.length_append, List.length_singleton] at hdata
  simpa using load_eq_append hdata rfl

theorem Carries.tail_eq (h : f.Carries (TxFrame.of id bs tail)) : f.tail = tail := by
  have hbyte : f.data bs.length = tail.toByte := by simpa [load] using h.split.2
  rw [Frame.tail, h.rxLength_eq, hbyte, Tail.ofByte_toByte]

end Frame

theorem txLoop_eq (id : CanId) (tail : Tail) {payload bs : List UInt8}
    (hlen : payload.length < maxUserPayloadLength) (hbs : bs ≠ []) :
    let n := maxUserPayloadLength - payload.length
    let last := { tail with eot := (bs.drop n).isEmpty }
    txLoop id tail payload bs =
      TxFrame.of id (payload ++ bs.take n) last ::
        txLoop id { last with toggle := !last.toggle, sot := false } [] (bs.drop n) := by
  dsimp only
  induction bs generalizing payload tail with
  | nil => exact absurd rfl hbs
  | cons b bs ih =>
      have hstep : maxUserPayloadLength - payload.length =
          maxUserPayloadLength - (payload ++ [b]).length + 1 := by
        rw [List.length_append, List.length_singleton]
        omega
      rw [hstep, List.take_succ_cons, List.drop_succ_cons, txLoop]
      by_cases hfull : (payload ++ [b]).length = maxUserPayloadLength
      -- the frame is full
      · simp [hfull, TxFrame.of]
      · have hmore : (payload ++ [b]).length < maxUserPayloadLength := by
          rw [List.length_append, List.length_singleton] at hfull ⊢
          omega
        cases bs with
        -- the last byte
        | nil => simp [TxFrame.of, txLoop]
        | cons b' bs =>
            have hgo := ih { tail with eot := false } hmore (List.cons_ne_nil b' bs)
            rw [List.append_assoc, List.singleton_append] at hgo
            rw [List.length_append, List.length_singleton] at hfull
            simpa [hfull] using hgo

/-! ## The receiver -/

namespace Rx

variable {capacity : ℕ} {s : Rx} {f : Frame}

theorem rxFrame_ignored (h : ¬s.Matches f) : rxFrame capacity s f = (s, false) := by
  rw [rxFrame, if_neg h]

theorem rxFrame_copy (h : s.Matches f)
    (htid : (s.start f).protocol.tail.transferId = f.tail.transferId)
    (hroom : (s.start f).totalRx < capacity) :
    rxFrame capacity s f = (((s.start f).copy capacity f).flip, f.tail.eot) := by
  have hlt : ¬f.tail.transferId < f.tail.transferId := Nat.lt_irrefl _
  have hoverflow : ¬(s.start f).Overflows capacity f := by
    rw [Overflows, htid]
    exact not_or.2 ⟨hlt, Nat.not_le_of_lt hroom⟩
  rw [rxFrame, if_pos h, if_neg hoverflow, htid, if_neg hlt]

/-- No transfer has started: a frame with another toggle bit or inside of a transfer is dropped. -/
structure Waits (s : Rx) (kind : Kind) (source : Fin 128) : Prop where
  kind : s.protocol.id.kind = kind
  source : s.masks.source → s.protocol.id.sourceNodeId = source
  sot : s.protocol.tail.sot = true
  toggle : s.protocol.tail.toggle = false
  transferId : s.masks.transferId = false

/-- The bytes `done` of a transfer are in the buffer. -/
structure Holds (s : Rx) (id : CanId) (tid : Fin 32) (toggle : Bool) (crc : UInt16)
    (done : List UInt8) : Prop where
  kind : s.protocol.id.kind = id.kind
  source : s.protocol.id.sourceNodeId = id.sourceNodeId
  sot : s.protocol.tail.sot = false
  toggle : s.protocol.tail.toggle = toggle
  transferId : s.protocol.tail.transferId = tid
  masks : s.masks = ⟨true, true⟩
  crc : s.transferCrc = crc
  totalRx : s.totalRx = done.length
  transfer : load s.transfer 0 done.length = done

theorem copy_eq {done bs : List UInt8} (htotal : s.totalRx = done.length)
    (hdone : load s.transfer 0 done.length = done) (hlength : f.length = bs.length)
    (hdata : load f.data f.index bs.length = bs) (hfits : done.length + bs.length ≤ capacity)
    (hcapacity : capacity < 2 ^ 32) :
    s.copy capacity f =
        { s with
          transfer := store s.transfer done.length bs
          totalRx := (done ++ bs).length } ∧
      load (store s.transfer done.length bs) 0 (done ++ bs).length = done ++ bs := by
  have hmod : (done.length + bs.length) % 2 ^ 32 = done.length + bs.length :=
    Nat.mod_eq_of_lt (by omega)
  constructor
  · have h : s.Fits capacity f := by
      rw [Fits, htotal, hlength, hmod]
      exact hfits
    rw [copy, if_pos h, htotal, hlength, hdata, hmod, List.length_append]
  · have hold : load (store s.transfer done.length bs) 0 done.length = done := by
      rw [load_congr fun i hi => store_of_lt s.transfer bs (by omega), hdone]
    have hnew : load (store s.transfer done.length bs) (0 + done.length) bs.length = bs := by
      simpa using load_store_append s.transfer done.length [] bs
    rw [List.length_append, load_add, hold, hnew]

theorem Waits.start {kind : Kind} {source : Fin 128} (h : s.Waits kind source)
    (hkind : f.id.kind = kind) (hsource : f.id.sourceNodeId = source) (hsot : f.tail.sot = true)
    (htoggle : f.tail.toggle = false) {bs : List UInt8} (hlength : f.length = bs.length)
    (hdata : load f.data f.index bs.length = bs) (hpos : 0 < capacity)
    (hfits : bs.length ≤ capacity) (hcapacity : capacity < 2 ^ 32) :
    ∃ s', rxFrame capacity s f = (s', f.tail.eot) ∧
      Holds s' f.id f.tail.transferId true (if f.isFirst then f.crc else s.transferCrc) bs := by
  have hmatches : s.Matches f := by
    refine ⟨by simp [htoggle], hkind.trans h.kind.symm, fun hs => ?_, hsot.trans h.sot.symm,
      htoggle.trans h.toggle.symm, fun ht => ?_⟩
    · exact hsource.trans (h.source hs).symm
    · rw [h.transferId] at ht
      cases ht
  have htotal : (s.start f).totalRx = ([] : List UInt8).length := by rw [Rx.start, if_pos hsot]; rfl
  have htid : (s.start f).protocol.tail.transferId = f.tail.transferId := by
    rw [Rx.start, if_pos hsot]
  obtain ⟨hcopy, hload⟩ :=
    copy_eq (show _ = ([] : List UInt8).length from htotal) rfl hlength hdata (by simpa using hfits)
      hcapacity
  refine ⟨_, rxFrame_copy hmatches htid (by rw [htotal]; exact hpos), ?_⟩
  rw [hcopy, Rx.start, if_pos hsot]
  exact
    { kind := h.kind.trans hkind.symm
      source := rfl
      sot := rfl
      toggle := by simp [flip, h.toggle]
      transferId := rfl
      masks := rfl
      crc := rfl
      totalRx := rfl
      transfer := by simpa [flip, Rx.start, hsot] using hload }

theorem Holds.next {id : CanId} {tid : Fin 32} {toggle : Bool} {crc : UInt16} {done : List UInt8}
    (h : s.Holds id tid toggle crc done) (hid : f.id = id) {eot : Bool}
    (htail : f.tail = ⟨tid, toggle, eot, false⟩) {bs : List UInt8}
    (hlength : f.rxLength = bs.length) (hdata : load f.data 0 bs.length = bs)
    (hmore : done.length < capacity) (hfits : done.length + bs.length ≤ capacity)
    (hcapacity : capacity < 2 ^ 32) :
    ∃ s', rxFrame capacity s f = (s', eot) ∧
      Holds s' id tid (!toggle) crc (done ++ bs) := by
  have hmatches : s.Matches f := by
    refine ⟨by simp [htail], ?_, fun _ => ?_, ?_, ?_, fun _ => ?_⟩
    · rw [hid, h.kind]
    · rw [hid, h.source]
    · rw [htail, h.sot]
    · rw [htail, h.toggle]
    · rw [htail, h.transferId]
  have hstart : s.start f = s := by
    rw [Rx.start, htail]
    simp
  have hfirst : f.isFirst = false := by simp [Frame.isFirst, htail]
  have htid : s.protocol.tail.transferId = f.tail.transferId := by rw [htail, h.transferId]
  have hlength' : f.length = bs.length := by rw [Frame.length_of_not_first hfirst, hlength]
  have hdata' : load f.data f.index bs.length = bs := by
    rw [Frame.index_of_not_first hfirst, hdata]
  obtain ⟨hcopy, hload⟩ := copy_eq h.totalRx h.transfer hlength' hdata' hfits hcapacity
  have heot : f.tail.eot = eot := by rw [htail]
  have hstep : rxFrame capacity s f = ((s.copy capacity f).flip, eot) := by
    rw [rxFrame_copy hmatches (by rw [hstart, htid]) (by rw [hstart, h.totalRx]; exact hmore),
      hstart,
      heot]
  refine ⟨_, hstep, ?_⟩
  rw [hcopy]
  exact
    { kind := h.kind
      source := h.source
      sot := h.sot
      toggle := by simp [flip, h.toggle]
      transferId := h.transferId
      masks := h.masks
      crc := h.crc
      totalRx := rfl
      transfer := hload }

end Rx

/-! ## A transfer that arrives -/

/-- The frames of a transfer arrive before a timeout, after the frame `last`, and with others among
them: frames of other data types or destinations; before the first frame, frames from inside of
other transfers; after it, frames of other nodes; and each frame may be repeated. -/
inductive Arrives (kind : Kind) (source : Fin 128) :
    Option TxFrame → List TxFrame → List Poll → Prop
  | delivered (last : Option TxFrame) (ps : List Poll) : Arrives kind source last [] ps
  | idle {last : Option TxFrame} {ts : List TxFrame} {ps : List Poll}
      (h : Arrives kind source last ts ps) : Arrives kind source last ts (⟨none, false⟩ :: ps)
  | foreign {last : Option TxFrame} {ts : List TxFrame} {ps : List Poll} {f : Frame}
      (hkind : f.id.kind ≠ kind) (h : Arrives kind source last ts ps) :
      Arrives kind source last ts (⟨some f, false⟩ :: ps)
  | inside {ts : List TxFrame} {ps : List Poll} {f : Frame} (hsot : f.tail.sot = false)
      (h : Arrives kind source none ts ps) : Arrives kind source none ts (⟨some f, false⟩ :: ps)
  | other {t : TxFrame} {ts : List TxFrame} {ps : List Poll} {f : Frame}
      (hsource : f.id.sourceNodeId ≠ source) (h : Arrives kind source (some t) ts ps) :
      Arrives kind source (some t) ts (⟨some f, false⟩ :: ps)
  | again {t : TxFrame} {ts : List TxFrame} {ps : List Poll} {f : Frame} (hf : f.Carries t)
      (h : Arrives kind source (some t) ts ps) :
      Arrives kind source (some t) ts (⟨some f, false⟩ :: ps)
  | next {last : Option TxFrame} {t : TxFrame} {ts : List TxFrame} {ps : List Poll} {f : Frame}
      (hf : f.Carries t) (h : Arrives kind source (some t) ts ps) :
      Arrives kind source last (t :: ts) (⟨some f, false⟩ :: ps)

/-- A sent frame as it is received. -/
def TxFrame.frame (t : TxFrame) : Frame where
  id := t.id
  dlc := min t.bytes.length 8
  data i := t.bytes.getD i 0
  dlc_le := Nat.min_le_right _ _

/-- Sent frames that come in one after the other. -/
def arriving (ts : List TxFrame) : List Poll := ts.map fun t => ⟨some t.frame, false⟩

theorem TxFrame.frame_carries {t : TxFrame} (h : t.bytes.length ≤ 8) : t.frame.Carries t where
  id := rfl
  dlc := Nat.min_eq_left h
  data := by
    apply List.ext_getElem
    · exact length_load _ _ _
    · intro i hi hi'
      simp [load, TxFrame.frame, List.getD_eq_getElem?_getD, List.getElem?_eq_getElem hi']

theorem arrives_arriving {kind : Kind} {source : Fin 128} {ts : List TxFrame}
    (h : ∀ t ∈ ts, t.bytes.length ≤ 8) (last : Option TxFrame) :
    Arrives kind source last ts (arriving ts) := by
  induction ts generalizing last with
  | nil => exact .delivered last _
  | cons t ts ih =>
      obtain ⟨ht, hts⟩ := List.forall_mem_cons.1 h
      exact .next (TxFrame.frame_carries ht) (ih hts (some t))

theorem length_le_of_mem_txLoop {id : CanId} {tail : Tail} {payload transfer : List UInt8}
    (h : payload.length < maxUserPayloadLength) :
    ∀ t ∈ txLoop id tail payload transfer, t.bytes.length ≤ 8 := by
  induction transfer generalizing tail payload with
  | nil => simp [txLoop]
  | cons b bs ih =>
      have hdef : maxUserPayloadLength = 7 := rfl
      have hlength : (payload ++ [b]).length = payload.length + 1 := by simp
      rw [txLoop]
      dsimp only
      split
      · refine List.forall_mem_cons.2 ⟨?_, ih (by decide)⟩
        simp only [List.length_append, List.length_singleton]
        omega
      · rename_i hmore
        refine ih ?_
        have hne : (payload ++ [b]).length ≠ maxUserPayloadLength := fun heq => hmore (Or.inl heq)
        omega

theorem length_le_of_mem_uavcanTxDsdl {node : Node} {d : Dsdl} {protocol : Protocol}
    {transfer : List UInt8} : ∀ t ∈ uavcanTxDsdl node d protocol transfer, t.bytes.length ≤ 8 := by
  refine length_le_of_mem_txLoop ?_
  split
  · simp [crcBytes, maxUserPayloadLength]
  · exact Nat.zero_lt_succ 6

namespace Rx

variable {capacity : ℕ} {s : Rx} {f : Frame} {ps : List Poll}

theorem rxLoop_idle : rxLoop capacity s (⟨none, false⟩ :: ps) = rxLoop capacity s ps := by
  simp [rxLoop]

theorem rxLoop_ignored (h : ¬s.Matches f) :
    rxLoop capacity s (⟨some f, false⟩ :: ps) = rxLoop capacity s ps := by
  simp [rxLoop, rxFrame_ignored h]

theorem rxLoop_goes_on {s' : Rx} (h : rxFrame capacity s f = (s', false)) :
    rxLoop capacity s (⟨some f, false⟩ :: ps) = rxLoop capacity s' ps := by
  simp [rxLoop, h]

theorem rxLoop_ends {s' : Rx} (h : rxFrame capacity s f = (s', true)) :
    rxLoop capacity s (⟨some f, false⟩ :: ps) = some (s', some f) := by
  simp [rxLoop, h]

theorem Waits.arrives {kind : Kind} {source : Fin 128} (hs : s.Waits kind source) {t : TxFrame}
    {ts : List TxFrame} (h : Arrives kind source none (t :: ts) ps) :
    ∃ f ps', f.Carries t ∧ Arrives kind source (some t) ts ps' ∧
      rxLoop capacity s ps = rxLoop capacity s (⟨some f, false⟩ :: ps') := by
  generalize hlast : none = last at h
  generalize hall : t :: ts = all at h
  induction h with
  | delivered last ps => cases hall
  | idle h ih =>
      obtain ⟨f, ps', hf, hps', hloop⟩ := ih hlast hall
      exact ⟨f, ps', hf, hps', rxLoop_idle.trans hloop⟩
  | foreign hkind h ih =>
      obtain ⟨f, ps', hf, hps', hloop⟩ := ih hlast hall
      refine ⟨f, ps', hf, hps', (rxLoop_ignored ?_).trans hloop⟩
      exact fun hmatches => hkind (hmatches.2.1.trans hs.kind)
  | inside hsot h ih =>
      obtain ⟨f, ps', hf, hps', hloop⟩ := ih hlast hall
      refine ⟨f, ps', hf, hps', (rxLoop_ignored ?_).trans hloop⟩
      intro hmatches
      rw [hmatches.2.2.2.1, hs.sot] at hsot
      cases hsot
  | other _ _ _ => cases hlast
  | again _ _ _ => cases hlast
  | next hf h _ =>
      cases hall
      exact ⟨_, _, hf, h, rfl⟩

/-- A frame that the transfer has passed: its first, or one with the toggle bit that is not due. -/
def Passed (toggle : Bool) (t : TxFrame) : Prop :=
  ∃ id bs last, t = TxFrame.of id bs last ∧ (last.sot = true ∨ last.toggle = !toggle)

theorem Holds.arrives {id : CanId} {t : TxFrame} {ts : List TxFrame}
    (h : Arrives id.kind id.sourceNodeId (some t) ts ps) {tid : Fin 32} {toggle eot : Bool}
    {crc : UInt16} {done bs : List UInt8} (hs : s.Holds id tid toggle crc done)
    (ht : Passed toggle t) (hbs : bs ≠ []) (hts : ts = txLoop id ⟨tid, toggle, eot, false⟩ [] bs)
    (hfits : done.length + bs.length ≤ capacity) (hcapacity : capacity < 2 ^ 32) :
    ∃ s' f toggle', rxLoop capacity s ps = some (s', some f) ∧ f.tail.sot = false ∧
      s'.Holds id tid toggle' crc (done ++ bs) := by
  generalize hlast : some t = last at h
  induction h generalizing s t toggle eot done bs with
  | delivered last ps =>
      rw [txLoop_eq id _ (by decide) hbs] at hts
      cases hts
  | idle h ih =>
      rw [rxLoop_idle]
      exact ih hs ht hbs hts hfits hlast
  | foreign hkind h ih =>
      rw [rxLoop_ignored fun hmatches => hkind (hmatches.2.1.trans hs.kind)]
      exact ih hs ht hbs hts hfits hlast
  | inside _ _ _ => cases hlast
  | other hsource h ih =>
      have hmasks : s.masks.source = true := by rw [hs.masks]
      rw [rxLoop_ignored fun hmatches => hsource ((hmatches.2.2.1 hmasks).trans hs.source)]
      exact ih hs ht hbs hts hfits hlast
  | @again t ts ps f hf h ih =>
      cases hlast
      have hignored : ¬s.Matches f := by
        rintro ⟨-, -, -, hfsot, hftoggle, -⟩
        obtain ⟨id', bs', last, rfl, hpassed⟩ := ht
        rw [hf.tail_eq] at hfsot hftoggle
        rcases hpassed with h | h
        · rw [h, hs.sot] at hfsot
          cases hfsot
        · rw [h, hs.toggle] at hftoggle
          cases toggle <;> cases hftoggle
      rw [rxLoop_ignored hignored]
      exact ih hs ht hbs hts hfits rfl
  | @next last t ts ps f hf h ih =>
      rw [txLoop_eq id _ (by decide) hbs] at hts
      simp only [List.length_nil, Nat.sub_zero, List.nil_append] at hts
      obtain ⟨rfl, hrest⟩ := List.cons.inj hts
      have hpos := List.length_pos_iff.2 hbs
      have htake : (bs.take maxUserPayloadLength).length ≤ bs.length := by simp
      obtain ⟨s', hstep, hholds⟩ := hs.next hf.id hf.tail_eq hf.rxLength_eq hf.split.1
        (by omega) (by omega) hcapacity
      by_cases hend : bs.drop maxUserPayloadLength = []
      -- the last frame
      · have hall : bs.take maxUserPayloadLength = bs := by
          have := List.take_append_drop maxUserPayloadLength bs
          rwa [hend, List.append_nil] at this
        rw [hend] at hstep
        rw [hall] at hholds
        exact ⟨s', f, _, rxLoop_ends hstep, by rw [hf.tail_eq], hholds⟩
      · have hmore : (bs.drop maxUserPayloadLength).isEmpty = false := by simpa using hend
        rw [hmore] at hstep hrest
        rw [rxLoop_goes_on hstep]
        have hpassed : Passed (!toggle) (TxFrame.of id (bs.take maxUserPayloadLength)
            ⟨tid, toggle, (bs.drop maxUserPayloadLength).isEmpty, false⟩) :=
          ⟨_, _, _, rfl, Or.inr (by simp)⟩
        have hsum : (bs.take maxUserPayloadLength).length +
            (bs.drop maxUserPayloadLength).length = bs.length := by
          rw [← List.length_append, List.take_append_drop]
        have hgo := ih hholds hpassed hend hrest (by rw [List.length_append]; omega) rfl
        rwa [List.append_assoc, List.take_append_drop] at hgo

end Rx

theorem Frame.Carries.first {f : Frame} {id : CanId} {crc : UInt16} {bs : List UInt8} {tail : Tail}
    (h : f.Carries (TxFrame.of id (crcBytes crc ++ bs) tail)) (hsot : tail.sot = true)
    (heot : tail.eot = false) :
    f.isFirst = true ∧ f.crc = crc ∧ f.length = bs.length ∧ load f.data f.index bs.length = bs := by
  have hfirst : f.isFirst = true := by rw [Frame.isFirst, h.tail_eq, hsot, heot]; rfl
  have hdlc : f.dlc = bs.length + 3 := by
    simpa [TxFrame.of, crcBytes, Nat.add_comm, Nat.add_left_comm] using h.dlc
  have hle := f.dlc_le
  obtain ⟨hcrc, hdata⟩ := load_eq_append (by simpa [Nat.add_comm] using h.split.1) rfl
  refine ⟨hfirst, ?_, ?_, ?_⟩
  · have h₀ : f.data 0 = UInt8.ofNat crc.toNat ∧ f.data 1 = UInt8.ofNat (crc.toNat / 256) := by
      simpa [load, crcBytes, List.range_succ] using hcrc
    rw [Frame.crc, h₀.1, h₀.2, makeUint16_crcBytes]
  · rw [Frame.length, if_pos hfirst, Frame.rxLength_of_pos (by omega), hdlc]
    omega
  · rw [Frame.index, if_pos hfirst]
    simpa [crcBytes] using hdata

theorem outtail_sot (d : Dsdl) : d.entry.outtail.sot = true := by cases d <;> rfl

section Received

variable {sender receiver : Node} {d : Dsdl} {sent expected : Protocol} {capacity : ℕ}
variable {ps : List Poll}

theorem waits_init (hd : d.entry.intail.sot = true)
    (hsource : d.entry.kind.isService →
      expected.id.sourceNodeId = 0 ∨ expected.id.sourceNodeId = sender.thisNodeId)
    (transfer : Mem) :
    (Rx.init receiver d expected transfer).Waits (d.entry.kind.withDest receiver.thisNodeId)
      sender.thisNodeId where
  kind := rfl
  source := by
    intro hmask
    have hne : (if d.entry.kind.isService then expected.id.sourceNodeId else 0) ≠ 0 := by
      simpa [Rx.init, Masks.initialization, Protocol.loadInBound] using hmask
    by_cases hservice : d.entry.kind.isService
    · rw [if_pos hservice] at hne
      exact (if_pos hservice).trans ((hsource hservice).resolve_left hne)
    · rw [if_neg hservice] at hne
      exact absurd rfl hne
  sot := hd
  toggle := rfl
  transferId := rfl

theorem received_single {transfer : Mem} {kind : Kind} {source : Fin 128} {id : CanId}
    (hwaits : (Rx.init receiver d expected transfer).Waits kind source) (hkind : id.kind = kind)
    (hid : id.sourceNodeId = source) {tail : Tail} (hsot : tail.sot = true)
    (htoggle : tail.toggle = false) (heot : tail.eot = true) {payload : List UInt8}
    (hne : payload ≠ []) (hfits : payload.length ≤ capacity) (hcapacity : capacity < 2 ^ 32)
    {ts : List TxFrame} (h : Arrives kind source none (TxFrame.of id payload tail :: ts) ps) :
    ∃ r, uavcanRxDsdl receiver d expected transfer capacity ps = some r ∧ r.ok = true ∧
      r.length = payload.length ∧ load r.transfer 0 payload.length = payload := by
  have hpos := List.length_pos_iff.2 hne
  obtain ⟨f, ps', hf, -, hloop⟩ := hwaits.arrives h
  have hfirst : f.isFirst = false := by rw [Frame.isFirst, hf.tail_eq, heot, Bool.not_true,
    Bool.and_false]
  obtain ⟨s', hstep, hholds⟩ := hwaits.start (f := f) (by rw [hf.id]; exact hkind)
    (by rw [hf.id]; exact hid) (by rw [hf.tail_eq, hsot]) (by rw [hf.tail_eq, htoggle])
    (by rw [Frame.length_of_not_first hfirst, hf.rxLength_eq])
    (by rw [Frame.index_of_not_first hfirst, hf.split.1]) (by omega) hfits hcapacity
  rw [hf.tail_eq, heot] at hstep
  refine ⟨s'.finish d capacity (some f), ?_, ?_, hholds.totalRx, hholds.transfer⟩
  · rw [uavcanRxDsdl, hloop, Rx.rxLoop_ends hstep]
  · simp [Rx.finish, hf.tail_eq, hsot]

theorem received_multi {transfer : Mem} {kind : Kind} {source : Fin 128} {id : CanId}
    (hwaits : (Rx.init receiver d expected transfer).Waits kind source) (hkind : id.kind = kind)
    (hid : id.sourceNodeId = source) {tail last : Tail} (hsot : tail.sot = true)
    (htoggle : tail.toggle = false) (heot : tail.eot = false)
    (hlast : last = { tail with toggle := true, sot := false }) {bs bs' : List UInt8}
    (hbs : bs ≠ []) (hbs' : bs' ≠ []) (hfits : (bs ++ bs').length ≤ capacity)
    (hcapacity : capacity < 2 ^ 32)
    (h : Arrives kind source none
      (TxFrame.of id (crcBytes (crc16Signature d.entry.signatureCrc16 (bs ++ bs')) ++ bs) tail ::
        txLoop id last [] bs') ps) :
    ∃ r, uavcanRxDsdl receiver d expected transfer capacity ps = some r ∧ r.ok = true ∧
      r.length = (bs ++ bs').length ∧ load r.transfer 0 (bs ++ bs').length = bs ++ bs' := by
  have hpos := List.length_pos_iff.2 hbs
  have hlen : (bs ++ bs').length = bs.length + bs'.length := List.length_append
  obtain ⟨f, ps', hf, hps', hloop⟩ := hwaits.arrives h
  obtain ⟨hfirst, hcrc, hlength, hdata⟩ := hf.first hsot heot
  have hfid : f.id = id := hf.id
  obtain ⟨s', hstep, hholds⟩ := hwaits.start (by rw [hfid]; exact hkind)
    (by rw [hfid]; exact hid) (by rw [hf.tail_eq, hsot]) (by rw [hf.tail_eq, htoggle])
    hlength hdata (by omega) (by omega) hcapacity
  rw [hf.tail_eq, heot] at hstep
  rw [if_pos hfirst, hcrc, hfid, hf.tail_eq] at hholds
  subst hkind hid
  obtain ⟨s'', f', toggle, hend, hsot', hall⟩ :=
    hholds.arrives hps' ⟨_, _, _, rfl, Or.inl hsot⟩ hbs'
      (by rw [hlast, heot]) (by omega) hcapacity
  refine ⟨s''.finish d capacity (some f'), ?_, ?_, hall.totalRx, hall.transfer⟩
  · rw [uavcanRxDsdl, hloop, Rx.rxLoop_goes_on hstep, hend]
  · show (f'.tail.sot || decide (s''.transferCrc = _)) = true
    rw [hsot', hall.crc, hall.totalRx, hall.transfer, Bool.false_or]
    exact decide_eq_true rfl

theorem received_of_arrives (hd : d.entry.intail.sot = true)
    (hdest : d.entry.kind.withDest sent.id.sourceNodeId =
      d.entry.kind.withDest receiver.thisNodeId)
    (hsource : d.entry.kind.isService →
      expected.id.sourceNodeId = 0 ∨ expected.id.sourceNodeId = sender.thisNodeId)
    {payload : List UInt8} (hne : payload ≠ []) (hfits : payload.length ≤ capacity)
    (hcapacity : capacity < 2 ^ 32)
    (h : Arrives (d.entry.kind.withDest receiver.thisNodeId) sender.thisNodeId none
      (uavcanTxDsdl sender d sent payload) ps) (transfer : Mem) :
    ∃ r, uavcanRxDsdl receiver d expected transfer capacity ps = some r ∧ r.ok = true ∧
      r.length = payload.length ∧ load r.transfer 0 payload.length = payload := by
  have hwaits : (Rx.init receiver d expected transfer).Waits _ sender.thisNodeId :=
    waits_init hd hsource transfer
  by_cases hlong : maxUserPayloadLength < payload.length
  · have hne' : payload.drop 5 ≠ [] := by
      rw [Ne, List.drop_eq_nil_iff]
      exact Nat.not_le_of_lt (lt_trans (by decide) hlong)
    have htake : payload.take 5 ≠ [] := by simpa using hne
    have hmore : (payload.drop 5).isEmpty = false := by simpa using hne'
    have hall : payload.take 5 ++ payload.drop 5 = payload := List.take_append_drop 5 payload
    rw [uavcanTxDsdl, if_pos hlong,
      txLoop_eq _ _ (by simp [crcBytes, maxUserPayloadLength]) hne] at h
    have hn : maxUserPayloadLength -
        (crcBytes (crc16Signature d.entry.signatureCrc16 payload)).length = 5 := rfl
    rw [hn, hmore] at h
    have hreceived := received_multi hwaits hdest rfl
      (outtail_sot d) rfl rfl rfl htake hne' (by rw [hall]; exact hfits) hcapacity
      (by rw [hall]; exact h)
    rwa [hall] at hreceived
  · have hshort : payload.length ≤ maxUserPayloadLength := Nat.le_of_not_lt hlong
    rw [uavcanTxDsdl, if_neg hlong, txLoop_eq _ _ (by decide) hne, List.length_nil, Nat.sub_zero,
      List.take_of_length_le hshort, List.drop_of_length_le hshort] at h
    exact received_single hwaits hdest rfl (outtail_sot d) rfl rfl hne hfits hcapacity h

end Received

/-! ## What is handed out -/

/-- The frames that were polled. -/
def frames (ps : List Poll) : List Frame := ps.filterMap Poll.frame

/-- A frame to this node, of the data type. -/
def Frame.For (f : Frame) (node : Node) (d : Dsdl) : Prop :=
  f.id.kind = d.entry.kind.withDest node.thisNodeId

/-- The payload of a transfer of one frame. -/
def Frame.single (f : Frame) : List UInt8 := load f.data 0 (f.dlc - 1)

/-- What is handed out is the payload of a transfer of one frame; or it has the checksum that was
sent in the first frame of the transfer. -/
def Received.Whole (r : Received) (node : Node) (d : Dsdl) (ps : List Poll) : Prop :=
  (∃ f ∈ frames ps, f.For node d ∧ f.tail.sot = true ∧ f.tail.eot = true ∧
    r.length = f.single.length ∧ load r.transfer 0 r.length = f.single) ∨
  ∃ f ∈ frames ps, f.For node d ∧ f.isFirst = true ∧
    f.id.sourceNodeId = r.protocol.id.sourceNodeId ∧
    f.tail.transferId = r.protocol.tail.transferId ∧
    crc16Signature d.entry.signatureCrc16 (load r.transfer 0 r.length) = f.crc

namespace Rx

variable {capacity : ℕ} {s : Rx} {f : Frame} {ps : List Poll}

@[simp] theorem copy_protocol : (s.copy capacity f).protocol = s.protocol := by
  unfold copy
  split <;> rfl

@[simp] theorem copy_transferCrc : (s.copy capacity f).transferCrc = s.transferCrc := by
  unfold copy
  split <;> rfl

/-- The first frame of the transfer is among the frames `fs`. -/
def Started (s : Rx) (kind : Kind) (fs : List Frame) : Prop :=
  ∃ f ∈ fs, f.id.kind = kind ∧ f.isFirst = true ∧
    f.id.sourceNodeId = s.protocol.id.sourceNodeId ∧
    f.tail.transferId = s.protocol.tail.transferId ∧ s.transferCrc = f.crc

theorem Started.mono {s' : Rx} {kind : Kind} {fs fs' : List Frame} (h : s.Started kind fs)
    (hfs : fs ⊆ fs') (hsource : s'.protocol.id.sourceNodeId = s.protocol.id.sourceNodeId)
    (htid : s'.protocol.tail.transferId = s.protocol.tail.transferId)
    (hcrc : s'.transferCrc = s.transferCrc) : s'.Started kind fs' := by
  obtain ⟨f, hf, hkind, hfirst, hfsource, hftid, hfcrc⟩ := h
  exact ⟨f, hfs hf, hkind, hfirst, hfsource.trans hsource.symm, hftid.trans htid.symm,
    hcrc.trans hfcrc⟩

/-- Where the receiver is inside of a transfer, it has seen the start. -/
structure Tracks (s : Rx) (kind : Kind) (fs : List Frame) : Prop where
  same : s.protocol.id.kind = kind
  started : s.protocol.tail.sot = false → s.Started kind fs

/-- At the end of a transfer. -/
structure Ends (s : Rx) (kind : Kind) (fs : List Frame) (f : Frame) : Prop where
  same : f.id.kind = kind
  eot : f.tail.eot = true
  single : f.tail.sot = true → s.totalRx = f.single.length ∧
    load s.transfer 0 f.single.length = f.single
  started : f.tail.sot = false → s.Started kind fs

theorem Tracks.start {kind : Kind} {fs : List Frame} (h : s.Tracks kind fs) (hm : s.Matches f)
    (hsot : f.tail.sot = true) (hroom : 7 ≤ capacity) (hcapacity : capacity < 2 ^ 32 - 1) :
    ∃ s', rxFrame capacity s f = (s', f.tail.eot) ∧
      (f.tail.eot = false → s'.Tracks kind (f :: fs)) ∧
        (f.tail.eot = true → s'.Ends kind fs f) := by
  have hkind : f.id.kind = kind := hm.2.1.trans h.same
  have hstart : s.start f = { s with
      protocol :=
        { id := { s.protocol.id with sourceNodeId := f.id.sourceNodeId }
          tail := { s.protocol.tail with sot := false, transferId := f.tail.transferId } }
      masks := Masks.onStartOfTransfer
      transferCrc := if f.isFirst then f.crc else s.transferCrc
      totalRx := 0 } := if_pos hsot
  have htotal : (s.start f).totalRx = 0 := by rw [hstart]
  refine ⟨_, rxFrame_copy hm (by rw [hstart]) (by omega), fun heot => ?_, fun heot => ?_⟩
  · have hfirst : f.isFirst = true := by rw [Frame.isFirst, hsot, heot]; rfl
    refine ⟨?_, fun _ => ⟨f, List.mem_cons_self, hkind, hfirst, ?_, ?_, ?_⟩⟩
    · simp [flip, hstart, h.same]
    · simp [flip, hstart]
    · simp [flip, hstart]
    · simp [flip, hstart, hfirst]
  · have hfirst : f.isFirst = false := by rw [Frame.isFirst, heot, Bool.not_true, Bool.and_false]
    refine ⟨hkind, heot, fun _ => ?_, fun h => absurd (h.symm.trans hsot) (by decide)⟩
    rcases Nat.eq_zero_or_pos f.dlc with hzero | hpos
    -- a frame without data: what stands before the buffer is taken for its tail, and nothing is
    -- copied
    · have hlen : f.rxLength = 2 ^ 32 - 1 := by rw [Frame.rxLength, hzero]; rfl
      have hfits : ¬(s.start f).Fits capacity f := by
        rw [Fits, hstart, Frame.length_of_not_first hfirst, hlen, Nat.zero_add]
        omega
      have hsingle : f.single = [] := by rw [Frame.single, hzero]; rfl
      rw [copy, if_neg hfits, hsingle, hstart]
      exact ⟨rfl, rfl⟩
    · have hlen : f.rxLength = f.single.length := by
        rw [Frame.rxLength_of_pos hpos, Frame.single, length_load]
      have hle := f.dlc_le
      have hsize : f.single.length = f.dlc - 1 := by rw [Frame.single, length_load]
      obtain ⟨hcopy, hload⟩ := copy_eq (show _ = ([] : List UInt8).length from htotal) rfl
        (by rw [Frame.length_of_not_first hfirst, hlen])
        (by rw [Frame.index_of_not_first hfirst, hsize]; rfl)
        (by rw [List.length_nil]; omega) (show capacity < 2 ^ 32 by omega)
      rw [hcopy]
      exact ⟨rfl, hload⟩

theorem rxFrame_inside (hm : s.Matches f) (hsot : f.tail.sot = false) :
    rxFrame capacity s f = ((s.restart.copy capacity f).flip, f.tail.eot) ∨
      rxFrame capacity s f = (s, false) ∨
      rxFrame capacity s f = ((s.copy capacity f).flip, f.tail.eot) := by
  have hstart : s.start f = s := if_neg (by rw [hsot]; decide)
  rw [rxFrame, if_pos hm, hstart]
  dsimp only
  split
  · exact Or.inl rfl
  · split
    · exact Or.inr (Or.inl rfl)
    · exact Or.inr (Or.inr rfl)

theorem Tracks.inside {kind : Kind} {fs : List Frame} (h : s.Tracks kind fs) (hm : s.Matches f)
    (hsot : f.tail.sot = false) :
    ∃ s' eot, rxFrame capacity s f = (s', eot) ∧ (eot = false → s'.Tracks kind (f :: fs)) ∧
      (eot = true → s'.Ends kind fs f) := by
  have hstarted : s.Started kind fs := h.started (hm.2.2.2.1.symm.trans hsot)
  have hkind : f.id.kind = kind := hm.2.1.trans h.same
  have hsub : fs ⊆ f :: fs := List.subset_cons_self f fs
  have hends : ∀ s' : Rx, s'.Started kind fs → f.tail.eot = true → s'.Ends kind fs f :=
    fun s' hs' heot => ⟨hkind, heot, fun h => absurd (h.symm.trans hsot) (by decide), fun _ => hs'⟩
  rcases rxFrame_inside hm hsot with hstep | hstep | hstep
  -- there was no room left
  · refine ⟨_, _, hstep, fun _ => ⟨h.same ▸ by simp [flip, restart], fun hwait => ?_⟩, hends _ ?_⟩
    · simp [flip, restart] at hwait
    · exact hstarted.mono (List.Subset.refl fs) (by simp [flip, restart]) (by simp [flip, restart])
        (by simp [flip, restart])
  · exact ⟨s, false, hstep, fun _ => ⟨h.same, fun _ => hstarted.mono hsub rfl rfl rfl⟩,
      fun heot => absurd heot (by decide)⟩
  · have hgo : ∀ {fs' : List Frame}, fs ⊆ fs' → (s.copy capacity f).flip.Started kind fs' :=
      fun hfs => hstarted.mono hfs (by simp [flip]) (by simp [flip]) (by simp [flip])
    exact ⟨_, _, hstep, fun _ => ⟨h.same ▸ by simp [flip], fun _ => hgo hsub⟩,
      hends _ (hgo (List.Subset.refl fs))⟩

theorem Tracks.frame {kind : Kind} {fs : List Frame} (h : s.Tracks kind fs) (hroom : 7 ≤ capacity)
    (hcapacity : capacity < 2 ^ 32 - 1) (f : Frame) :
    ∃ s' eot, rxFrame capacity s f = (s', eot) ∧ (eot = false → s'.Tracks kind (f :: fs)) ∧
      (eot = true → s'.Ends kind fs f) := by
  by_cases hm : s.Matches f
  · cases hsot : f.tail.sot with
    | true =>
        obtain ⟨s', hstep, hgo, hend⟩ := h.start hm hsot hroom hcapacity
        exact ⟨s', _, hstep, hgo, hend⟩
    | false => exact h.inside hm hsot
  · exact ⟨s, false, rxFrame_ignored hm, fun _ => ⟨h.same, fun hsot =>
      (h.started hsot).mono (List.subset_cons_self f fs) rfl rfl rfl⟩,
      fun heot => absurd heot (by decide)⟩

theorem Tracks.loop {kind : Kind} {fs : List Frame} (h : s.Tracks kind fs) (hroom : 7 ≤ capacity)
    (hcapacity : capacity < 2 ^ 32 - 1) {s' : Rx} {last : Option Frame}
    (hloop : rxLoop capacity s ps = some (s', last)) :
    ∀ f ∈ last, f ∈ frames ps ∧ ∃ fs', fs' ⊆ fs ++ frames ps ∧ s'.Ends kind fs' f := by
  induction ps generalizing s fs with
  | nil => cases hloop
  | cons p ps ih =>
      rcases p with ⟨_ | f, expired⟩
      · rw [rxLoop] at hloop
        dsimp only at hloop
        split at hloop
        · cases hloop
          simp
        · exact ih h hloop
      · obtain ⟨t, eot, hstep, hgo, hend⟩ := h.frame hroom hcapacity f
        rw [rxLoop] at hloop
        simp only [hstep] at hloop
        cases eot with
        | true =>
            cases hloop
            rintro _ ⟨⟩
            exact ⟨List.mem_cons_self, fs, List.subset_append_left _ _, hend rfl⟩
        | false =>
            dsimp only at hloop
            split at hloop
            · cases hloop
              simp
            · intro f' hf'
              obtain ⟨hmem, fs', hfs', hends⟩ := ih (hgo rfl) hloop f' hf'
              refine ⟨List.mem_cons_of_mem _ hmem, fs', fun g hg => ?_, hends⟩
              have := hfs' hg
              simp only [frames, List.filterMap_cons, List.mem_append, List.mem_cons] at this ⊢
              tauto

/-- A transfer of one frame with more data than there is room for ends with an empty buffer. -/
theorem Waits.dropped {kind : Kind} {source : Fin 128} (h : s.Waits kind source)
    (hkind : f.id.kind = kind) (hsource : f.id.sourceNodeId = source) (hsot : f.tail.sot = true)
    (heot : f.tail.eot = true) (htoggle : f.tail.toggle = false) (hroom : capacity < f.rxLength) :
    ∃ s', rxFrame capacity s f = (s', true) ∧ s'.totalRx = 0 := by
  have hm : s.Matches f := by
    refine ⟨by simp [htoggle], hkind.trans h.kind.symm, fun hs => ?_, hsot.trans h.sot.symm,
      htoggle.trans h.toggle.symm, fun ht => ?_⟩
    · exact hsource.trans (h.source hs).symm
    · rw [h.transferId] at ht
      cases ht
  have hfirst : f.isFirst = false := by rw [Frame.isFirst, heot, Bool.not_true, Bool.and_false]
  have hkeep : ∀ t : Rx, t.totalRx = 0 → (t.copy capacity f).totalRx = 0 := by
    intro t ht
    have hfits : ¬t.Fits capacity f := by
      have hmod : f.rxLength % 2 ^ 32 = f.rxLength := Nat.mod_mod _ _
      rw [Fits, ht, Frame.length_of_not_first hfirst, Nat.zero_add, hmod]
      exact Nat.not_le_of_lt hroom
    rw [copy, if_neg hfits, ht]
  have htotal : (s.start f).totalRx = 0 := by rw [Rx.start, if_pos hsot]
  have htid : (s.start f).protocol.tail.transferId = f.tail.transferId := by
    rw [Rx.start, if_pos hsot]
  have hlt : ¬f.tail.transferId < (s.start f).protocol.tail.transferId := by
    rw [htid]
    exact Nat.lt_irrefl _
  rw [rxFrame, if_pos hm]
  dsimp only
  by_cases hoverflow : (s.start f).Overflows capacity f
  · rw [if_pos hoverflow, heot]
    exact ⟨_, rfl, hkeep _ htotal⟩
  · rw [if_neg hoverflow, if_neg hlt, heot]
    exact ⟨_, rfl, hkeep _ htotal⟩

end Rx

/-- What `uavcan_rx_dsdl` hands out is a whole transfer. -/
theorem whole_of_ok {node : Node} {d : Dsdl} {protocol : Protocol} {transfer : Mem} {capacity : ℕ}
    {ps : List Poll} {r : Received} (hd : d.entry.intail.sot = true) (hroom : 7 ≤ capacity)
    (hcapacity : capacity < 2 ^ 32 - 1)
    (h : uavcanRxDsdl node d protocol transfer capacity ps = some r) (hok : r.ok = true) :
    r.Whole node d ps := by
  rw [uavcanRxDsdl] at h
  split at h
  · cases h
  rename_i s last hloop
  cases h
  have htracks : (Rx.init node d protocol transfer).Tracks (d.entry.kind.withDest node.thisNodeId)
      [] := ⟨rfl, fun hsot => absurd (hsot.symm.trans hd) (by decide)⟩
  cases last with
  | none => cases hok
  | some f =>
      obtain ⟨hmem, fs, hfs, hends⟩ := htracks.loop hroom hcapacity hloop f rfl
      cases hsot : f.tail.sot with
      | true =>
          obtain ⟨htotal, hload⟩ := hends.single hsot
          exact Or.inl ⟨f, hmem, hends.same, hsot, hends.eot, htotal, by
            show load s.transfer 0 s.totalRx = _
            rw [htotal, hload]⟩
      | false =>
          obtain ⟨g, hg, hkind, hfirst, hsource, htid, hcrc⟩ := hends.started hsot
          have hcheck : (f.tail.sot || decide (s.transferCrc =
              crc16Signature d.entry.signatureCrc16 (load s.transfer 0 s.totalRx))) = true := hok
          rw [hsot, Bool.false_or, decide_eq_true_eq, hcrc] at hcheck
          exact Or.inr ⟨g, by simpa using hfs hg, hkind, hfirst, hsource, htid, hcheck.symm⟩

/-- Receiving undoes sending, and hands out whole transfers only. -/
structure TransfersCorrect (d : Dsdl) (capacity : ℕ) : Prop where
  received : ∀ (sender receiver : Node) (sent expected : Protocol) (payload : List UInt8)
    (transfer : Mem) (ps : List Poll),
    d.entry.kind.withDest sent.id.sourceNodeId = d.entry.kind.withDest receiver.thisNodeId →
    (d.entry.kind.isService →
      expected.id.sourceNodeId = 0 ∨ expected.id.sourceNodeId = sender.thisNodeId) →
    payload ≠ [] → payload.length ≤ capacity →
    Arrives (d.entry.kind.withDest receiver.thisNodeId) sender.thisNodeId none
      (uavcanTxDsdl sender d sent payload) ps →
    ∃ r, uavcanRxDsdl receiver d expected transfer capacity ps = some r ∧ r.ok = true ∧
      r.length = payload.length ∧ load r.transfer 0 payload.length = payload
  whole : ∀ (node : Node) (protocol : Protocol) (transfer : Mem) (ps : List Poll) (r : Received),
    uavcanRxDsdl node d protocol transfer capacity ps = some r → r.ok = true → r.Whole node d ps

/-- A full frame to node 0, which is a transfer of its own. -/
def fullFrame (d : Dsdl) : Frame where
  id := ⟨0, d.entry.kind.withDest 0, 0⟩
  dlc := 8
  data i := if i = 7 then Tail.toByte ⟨0, false, true, true⟩ else 0
  dlc_le := le_rfl

theorem fullFrame_rxLength (d : Dsdl) : (fullFrame d).rxLength = 7 := by
  rw [Frame.rxLength_of_pos (show 0 < 8 by decide)]
  rfl

theorem fullFrame_tail (d : Dsdl) : (fullFrame d).tail = ⟨0, false, true, true⟩ := by
  rw [Frame.tail, fullFrame_rxLength]
  exact Tail.ofByte_toByte _

theorem fullFrame_received {d : Dsdl} {capacity : ℕ} (hd : d.entry.intail.sot = true)
    (hroom : capacity < 7) (transfer : Mem) :
    ∃ r, uavcanRxDsdl ⟨0, 0⟩ d ⟨CanId.zero, ⟨0, false, false, false⟩⟩ transfer capacity
      [⟨some (fullFrame d), false⟩] = some r ∧ r.ok = true ∧ r.length = 0 := by
  have hwaits : (Rx.init ⟨0, 0⟩ d ⟨CanId.zero, ⟨0, false, false, false⟩⟩ transfer).Waits
      (d.entry.kind.withDest 0) (Node.thisNodeId ⟨0, 0⟩) :=
    waits_init hd (fun _ => Or.inl rfl) transfer
  have htail := fullFrame_tail d
  obtain ⟨s', hstep, htotal⟩ := hwaits.dropped (f := fullFrame d) rfl rfl (by rw [htail])
    (by rw [htail]) (by rw [htail]) (by rwa [fullFrame_rxLength])
  refine ⟨s'.finish d capacity (some (fullFrame d)), ?_, ?_, htotal⟩
  · rw [uavcanRxDsdl, Rx.rxLoop_ends hstep]
  · simp [Rx.finish, htail]

theorem not_correct_of_lt {d : Dsdl} {capacity : ℕ} (hd : d.entry.intail.sot = true)
    (hroom : capacity < 7) : ¬TransfersCorrect d capacity := by
  intro h
  obtain ⟨r, hr, hok, hlength⟩ := fullFrame_received hd hroom fun _ => 0
  rcases h.whole _ _ _ _ r hr hok with ⟨f, hf, -, -, -, hlen, -⟩ | ⟨f, hf, -, hfirst, -⟩
  · obtain rfl : f = fullFrame d := by simpa [frames] using hf
    rw [hlength] at hlen
    exact absurd hlen (by simp [Frame.single, fullFrame])
  · obtain rfl : f = fullFrame d := by simpa [frames] using hf
    simp [Frame.isFirst, fullFrame_tail] at hfirst

/-- Transfers are received correctly exactly where the data of a frame fits into the buffer. -/
theorem transfers_correct_iff {d : Dsdl} {capacity : ℕ} (hd : d.entry.intail.sot = true)
    (hcapacity : capacity < 2 ^ 32 - 1) : TransfersCorrect d capacity ↔ 7 ≤ capacity := by
  constructor
  · intro h
    by_contra hroom
    exact not_correct_of_lt hd (Nat.lt_of_not_le hroom) h
  · intro hroom
    constructor
    · intro sender receiver sent expected payload transfer ps hdest hsource hne hfits harrives
      exact received_of_arrives hd hdest hsource hne hfits (by omega) harrives transfer
    · intro node protocol transfer ps r hr hok
      exact whole_of_ok hd hroom hcapacity hr hok

/-- The answers to `Read` are received correctly. -/
theorem rspRead_correct : TransfersCorrect .rspRead 258 :=
  (transfers_correct_iff rfl (by decide)).2 (by decide)

/-- An `Allocation` message is not, where six bytes of the unique ID have matched: the second buffer
is taken to be that long. -/
theorem allocation_dropped : ¬TransfersCorrect .msgAllocation 6 := not_correct_of_lt rfl (by decide)

end Canbootloader
end DtPhm
