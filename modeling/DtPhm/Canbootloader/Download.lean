import DtPhm.Canbootloader.Bounds

/-!
# Download — the firmware is the file

`file_read_and_program` asks for the file piece by piece.  An answer may be lost, or come so late
that the function has asked again, or asked for another piece.

* `Lost`, `Answered` — what can come in after a request;
* `Placed` — the invariant: the file up to the offset is in the flash, or in the saved words;
* `download_faithful` — a download ends with the file in place if no answer belongs to another
  piece.
-/

namespace DtPhm
namespace Canbootloader

open Lib

/-! ## Answers -/

/-- The data of an answer: at most 256 bytes of the file, from the offset on. -/
def piece (file : List UInt8) (offset : ℕ) : List UInt8 := (file.drop offset).take readDataSize

/-- The answer to a request: no error, and the data. -/
def answer (file : List UInt8) (offset : ℕ) : List UInt8 := [0, 0] ++ piece file offset

/-- The answer to the request for an offset arrives; it may be that of an earlier request, and
frames of other answers may come before it. -/
structure Answered (sv : Server) (file : List UInt8) (offset : ℕ) (ps : List Poll) : Prop where
  arrives : ∃ (server : Node) (sent : Protocol), server.thisNodeId = sv.serverNodeId ∧
    sent.id.sourceNodeId = sv.node.thisNodeId ∧
    Arrives (Dsdl.rspRead.entry.kind.withDest sv.node.thisNodeId) sv.serverNodeId none
      (uavcanTxDsdl server .rspRead sent (answer file offset)) ps

/-- No answer arrives as a whole: there is the end of one, and then the start of another one. -/
def Lost (sv : Server) (ps : List Poll) : Prop :=
  ∃ ps₁ ps₂, ps = ps₁ ++ ps₂ ∧
    (∀ f ∈ frames ps₁, f.For sv.node .rspRead → f.tail.sot = false) ∧
    ∀ f ∈ frames ps₂, f.For sv.node .rspRead → f.tail.eot = false

namespace Rx

variable {capacity : ℕ} {s : Rx} {f : Frame}

/-- A frame leaves the kind of the transfer as it is, and it ends the transfer only with `eot`. -/
theorem rxFrame_spec (capacity : ℕ) (s : Rx) (f : Frame) :
    (rxFrame capacity s f).1.protocol.id.kind = s.protocol.id.kind ∧
      ((rxFrame capacity s f).2 = true → s.Matches f ∧ f.tail.eot = true) := by
  have hstart : (s.start f).protocol.id.kind = s.protocol.id.kind := by
    rw [Rx.start]
    split <;> rfl
  rw [rxFrame]
  by_cases hm : s.Matches f
  · rw [if_pos hm]
    dsimp only
    split
    · exact ⟨by simpa [flip, restart] using hstart, fun heot => ⟨hm, heot⟩⟩
    · split
      · exact ⟨hstart, fun h => absurd h Bool.false_ne_true⟩
      · exact ⟨by simpa [flip] using hstart, fun heot => ⟨hm, heot⟩⟩
  · rw [if_neg hm]
    exact ⟨rfl, fun h => absurd h Bool.false_ne_true⟩

theorem rxLoop_of_no_end {ps : List Poll}
    (h : ∀ f ∈ frames ps, f.id.kind = s.protocol.id.kind → f.tail.eot = false) {s' : Rx}
    {last : Option Frame} (hloop : rxLoop capacity s ps = some (s', last)) : last = none := by
  induction ps generalizing s with
  | nil => cases hloop
  | cons p ps ih =>
      rcases p with ⟨_ | f, expired⟩
      · rw [rxLoop] at hloop
        dsimp only at hloop
        split at hloop
        · cases hloop
          rfl
        · exact ih h hloop
      · obtain ⟨hkind, hend⟩ := rxFrame_spec capacity s f
        rcases hstep : rxFrame capacity s f with ⟨t, _ | _⟩
        · rw [hstep] at hkind
          rw [rxLoop] at hloop
          simp only [hstep] at hloop
          split at hloop
          · cases hloop
            rfl
          · exact ih (fun g hg hk => h g (List.mem_cons_of_mem f hg) (hk.trans hkind)) hloop
        · obtain ⟨hm, heot⟩ := hend (by rw [hstep])
          rw [h f List.mem_cons_self hm.2.1] at heot
          cases heot

/-- While it waits for a start, the receiver passes over frames from inside of transfers. -/
theorem rxLoop_append_of_no_start {ps₁ ps₂ : List Poll} (hsot : s.protocol.tail.sot = true)
    (h : ∀ f ∈ frames ps₁, f.id.kind = s.protocol.id.kind → f.tail.sot = false) :
    (∃ s', rxLoop capacity s (ps₁ ++ ps₂) = some (s', none)) ∨
      rxLoop capacity s (ps₁ ++ ps₂) = rxLoop capacity s ps₂ := by
  induction ps₁ with
  | nil => exact Or.inr rfl
  | cons p ps₁ ih =>
      rcases p with ⟨_ | f, _ | _⟩
      · have hgo := ih h
        simpa [rxLoop] using hgo
      · exact Or.inl ⟨s, by simp [rxLoop]⟩
      all_goals
        have hm : ¬s.Matches f := by
          intro hm
          have hframe := h f List.mem_cons_self hm.2.1
          rw [hm.2.2.2.1, hsot] at hframe
          cases hframe
      · have hgo := ih fun g hg => h g (List.mem_cons_of_mem f hg)
        simpa [rxLoop, rxFrame_ignored hm] using hgo
      · exact Or.inl ⟨s, by simp [rxLoop, rxFrame_ignored hm]⟩

end Rx

theorem Lost.not_ok {sv : Server} {ps : List Poll} (h : Lost sv ps) {protocol : Protocol}
    {response : Mem} {r : Received}
    (hr : sv.answer .rspRead protocol response readSize ps = some r) :
    r.ok = false := by
  obtain ⟨ps₁, ps₂, rfl, hfirst, hsecond⟩ := h
  rw [Server.answer, uavcanRxDsdl] at hr
  split at hr
  · cases hr
  rename_i s last hloop
  cases hr
  have hlast : last = none := by
    have hpass : (∃ s', rxLoop readSize _ (ps₁ ++ ps₂) = some (s', none)) ∨
        rxLoop readSize _ (ps₁ ++ ps₂) = rxLoop readSize _ ps₂ :=
      Rx.rxLoop_append_of_no_start (s := Rx.init sv.node .rspRead
        (protocol.fromServer sv.serverNodeId) response) rfl hfirst
    rcases hpass with ⟨s', hs'⟩ | hgo
    · rw [hs'] at hloop
      cases hloop
      rfl
    · rw [hgo] at hloop
      exact Rx.rxLoop_of_no_end hsecond hloop
  rw [hlast]
  rfl

/-! ## One piece -/

/-- The length that is reported, and the data in `response`; of nothing, two bytes are reported. -/
structure Reads (file : List UInt8) (offset : ℕ) (response : Mem) (length : ℕ) : Prop where
  length_eq : length = if piece file offset = [] then 2 else (piece file offset).length
  data : load response 2 (piece file offset).length = piece file offset

theorem length_piece_le (file : List UInt8) (offset : ℕ) :
    (piece file offset).length ≤ readDataSize := List.length_take_le _ _

theorem Answered.received {sv : Server} {file : List UInt8} {offset : ℕ} {ps : List Poll}
    (h : Answered sv file offset ps) (protocol : Protocol) (response : Mem) :
    ∃ r, sv.answer .rspRead protocol response readSize ps = some r ∧ r.ok = true ∧
      r.length = 2 + (piece file offset).length ∧ load r.transfer 0 2 = [0, 0] ∧
      load r.transfer 2 (piece file offset).length = piece file offset := by
  obtain ⟨server, sent, hserver, hdest, harrives⟩ := h.arrives
  have hsize : (answer file offset).length = 2 + (piece file offset).length :=
    List.length_append
  have hle : (answer file offset).length ≤ readSize := by
    rw [hsize]
    exact Nat.add_le_add_left (length_piece_le file offset) 2
  have hne : answer file offset ≠ [] := List.cons_ne_nil _ _
  rw [← hserver] at harrives
  have hreceived : ∃ r, sv.answer .rspRead protocol response readSize ps = some r ∧ r.ok = true ∧
      r.length = (answer file offset).length ∧
      load r.transfer 0 (answer file offset).length = answer file offset :=
    received_of_arrives rfl (by rw [hdest]) (fun _ => Or.inr hserver.symm) hne hle (by decide)
      harrives response
  obtain ⟨r, hr, hok, hlength, hload⟩ := hreceived
  rw [hsize] at hlength hload
  obtain ⟨herror, hdata⟩ := load_eq_append hload rfl
  exact ⟨r, hr, hok, hlength, herror, by rwa [Nat.zero_add] at hdata⟩

theorem readAttempt_answered {sv : Server} {file : List UInt8} {offset : ℕ} {t : Attempt}
    (hsent : t.sent = true) (h : Answered sv file offset t.polls) (p : Program) :
    ∃ protocol response length, Reads file offset response length ∧
      readAttempt sv p t =
        some ({ p with protocol := protocol, response := response }, some length) := by
  obtain ⟨r, hr, hok, hlength, herror, hdata⟩ := h.received p.protocol p.response
  rw [readAttempt, if_neg (by simp [hsent]), hr]
  dsimp only
  rw [if_neg (by simp [hok])]
  by_cases hnil : piece file offset = []
  · have hzero : leValue (load r.transfer 0 2) = 0 := by
      rw [herror]
      rfl
    rw [hnil, List.length_nil] at hlength
    rw [if_neg (by omega), if_neg (by simp [hzero])]
    exact ⟨_, _, _, ⟨by rw [if_pos hnil, hlength], hdata⟩, rfl⟩
  · have hpos : 0 < (piece file offset).length := List.length_pos_of_ne_nil hnil
    rw [if_pos (by omega)]
    exact ⟨_, _, _, ⟨by rw [if_neg hnil]; omega, hdata⟩, rfl⟩

theorem readAttempt_lost {sv : Server} {t : Attempt} (h : t.sent = true → Lost sv t.polls)
    (p : Program) :
    readAttempt sv p t = none ∨ ∃ protocol response,
      readAttempt sv p t = some ({ p with protocol := protocol, response := response }, none) := by
  rw [readAttempt]
  by_cases hsent : t.sent = true
  · rw [if_neg (by simp [hsent])]
    cases hr : sv.answer .rspRead p.protocol p.response readSize t.polls with
    | none => exact Or.inl rfl
    | some r =>
        have hok : r.ok = false := (h hsent).not_ok hr
        dsimp only
        rw [if_pos (by simp [hok])]
        exact Or.inr ⟨_, _, rfl⟩
  · rw [if_pos hsent]
    exact Or.inr ⟨p.protocol, p.response, rfl⟩

theorem readChunk_spec {sv : Server} {file : List UInt8} {retries : ℕ} {p : Program}
    {ts : List Attempt}
    (h : ∀ t ∈ ts, t.sent = true → Lost sv t.polls ∨ Answered sv file p.offset t.polls) :
    readChunk sv retries p ts = none ∨ ∃ protocol response l,
      readChunk sv retries p ts = some ({ p with protocol := protocol, response := response }, l) ∧
        ∀ length ∈ l, Reads file p.offset response length := by
  induction retries generalizing p ts with
  | zero => exact Or.inr ⟨p.protocol, p.response, none, rfl, by simp⟩
  | succ retries ih =>
      cases ts with
      | nil => exact Or.inl rfl
      | cons t ts =>
          obtain ⟨ht, hts⟩ := List.forall_mem_cons.1 h
          rw [readChunk]
          by_cases hlost : t.sent = true → Lost sv t.polls
          · rcases readAttempt_lost hlost p with hstep | ⟨protocol, response, hstep⟩
            · rw [hstep]
              exact Or.inl rfl
            · rw [hstep]
              exact ih hts
          · obtain ⟨hsent, hlost⟩ := Classical.not_imp.1 hlost
            obtain ⟨protocol, response, length, hreads, hstep⟩ :=
              readAttempt_answered hsent ((ht hsent).resolve_left hlost) p
            rw [hstep]
            refine Or.inr ⟨protocol, response, some length, rfl, ?_⟩
            rintro _ ⟨⟩
            exact hreads

/-! ## The flash -/

theorem getD_piece {file : List UInt8} {offset i : ℕ} (h : i < (piece file offset).length) :
    (piece file offset).getD i 0 = file.getD (offset + i) 0 := by
  have hlt : i < readDataSize := h.trans_le (length_piece_le file offset)
  rw [piece, List.getD_eq_getElem?_getD, List.getElem?_take_of_lt hlt, List.getElem?_drop,
    List.getD_eq_getElem?_getD]

namespace Program

variable {image : Image} {p : Program} {file : List UInt8}

/-- The variables after a piece of this length has been written to the flash. -/
def stored (image : Image) (p : Program) (length : ℕ) : Program :=
  let p := (p.pad length).saveWords image
  { p with
    flash := store p.flash ((image.loadAddress + p.offset) % 2 ^ 32)
      (load p.response 2 (length + length % 2))
    offset := (p.offset + length) % 2 ^ 32 }

@[simp] theorem pad_offset (length : ℕ) : (p.pad length).offset = p.offset := by
  rw [pad]
  split <;> rfl

@[simp] theorem pad_flash (length : ℕ) : (p.pad length).flash = p.flash := by
  rw [pad]
  split <;> rfl

@[simp] theorem pad_fwWord0 (length : ℕ) : (p.pad length).fwWord0 = p.fwWord0 := by
  rw [pad]
  split <;> rfl

theorem pad_response {length i : ℕ} (h : i < length) :
    (p.pad length).response (2 + i) = p.response (2 + i) := by
  rw [pad]
  split
  · exact store_of_lt _ _ (Nat.add_lt_add_left h 2)
  · rfl

@[simp] theorem saveWords_offset : (p.saveWords image).offset = p.offset := by
  rw [saveWords]
  split <;> rfl

@[simp] theorem saveWords_flash : (p.saveWords image).flash = p.flash := by
  rw [saveWords]
  split <;> rfl

theorem saveWords_response {i : ℕ} (h : p.offset = 0 → image.laterBytes ≤ i) :
    (p.saveWords image).response (2 + i) = p.response (2 + i) := by
  rw [saveWords]
  split
  · rename_i hzero
    refine store_of_le _ _ ?_
    rw [List.length_replicate]
    exact Nat.add_le_add_left (h hzero) 2
  · rfl

theorem program_eq (image : Image) (p : Program) (fwImageSize length : ℕ) (written : Bool) :
    p.program image fwImageSize length written =
      if p.InRange image (length + length % 2) ∧ written then
        if (p.stored image length).offset < fwImageSize ∧ length = readDataSize then
          .goesOn (p.stored image length)
        else
          .returns (decide ((p.stored image length).offset = fwImageSize ∧ length ≠ 0),
            p.stored image length)
      else
        .returns (false, { (p.pad length).saveWords image with
          offset := (p.offset + length) % 2 ^ 32 }) := by
  have hrange : ((p.pad length).saveWords image).InRange image (length + length % 2) ↔
      p.InRange image (length + length % 2) := by
    simp only [InRange, saveWords_offset, pad_offset]
  rw [program, blFlashWrite]
  by_cases h : p.InRange image (length + length % 2) ∧ written
  · rw [if_pos h, if_pos ⟨hrange.2 h.1, h.2⟩]
    simp [stored]
  · rw [if_neg h, if_neg fun h' => h ⟨hrange.1 h'.1, h'.2⟩]
    simp

end Program

/-- The first `n` bytes of the file are in place: the first words are saved, the others are in the
flash. -/
structure Placed (image : Image) (file : List UInt8) (n : ℕ) (p : Program) : Prop where
  words : ∀ i < n, i < image.laterBytes → p.fwWord0 i = file.getD i 0
  flash : ∀ i < n, image.laterBytes ≤ i → p.flash (image.loadAddress + i) = file.getD i 0

/-- The flash image, its first words taken from the saved ones. -/
def Program.code (image : Image) (size : ℕ) (p : Program) : List UInt8 :=
  (load p.fwWord0 0 image.laterBytes ++
    load p.flash (image.loadAddress + image.laterBytes) (size - image.laterBytes)).take size

namespace Placed

variable {image : Image} {file : List UInt8} {p : Program}

theorem code {size : ℕ} (h : Placed image file size p) (hsize : size ≤ file.length) :
    p.code image size = file.take size := by
  have hlength : (p.code image size).length = size := by
    simp only [Program.code, List.length_take, List.length_append, length_load]
    omega
  apply List.ext_getElem
  · rw [hlength, List.length_take, Nat.min_eq_left hsize]
  · intro i hi₁ hi₂
    have hi : i < size := hlength ▸ hi₁
    have hfile : file.getD i 0 = file[i] := by
      rw [List.getD_eq_getElem?_getD, List.getElem?_eq_getElem (hi.trans_le hsize),
        Option.getD_some]
    simp only [Program.code, List.getElem_take]
    by_cases hword : i < image.laterBytes
    · rw [List.getElem_append_left (by simpa using hword), ← hfile, ← h.words i hi hword]
      simp [load]
    · have hle : image.laterBytes ≤ i := Nat.le_of_not_lt hword
      rw [List.getElem_append_right (by simpa using hle), ← hfile, ← h.flash i hi hle]
      simp [load, Nat.add_assoc, Nat.add_sub_cancel' hle]

theorem stored {length : ℕ} (h : Placed image file p.offset p)
    (hread : ∀ i < length, p.response (2 + i) = file.getD (p.offset + i) 0)
    (hoffset : p.offset = 0 ∨ image.laterBytes ≤ p.offset)
    (hfits : image.loadAddress + p.offset + length < 2 ^ 32) :
    Placed image file (p.offset + length) (p.stored image length) := by
  have haddress : (image.loadAddress + p.offset) % 2 ^ 32 = image.loadAddress + p.offset :=
    Nat.mod_eq_of_lt (by omega)
  have hpad : ∀ i < length, (p.pad length).response (2 + i) = file.getD (p.offset + i) 0 :=
    fun i hi => (Program.pad_response hi).trans (hread i hi)
  constructor
  · intro i hi hword
    rcases hoffset with hzero | hlater
    -- the first piece holds the words that are saved
    · have hsaved : (p.stored image length).fwWord0 i = (p.pad length).response (2 + i) := by
        simp only [Program.stored, Program.saveWords, Program.pad_offset, if_pos hzero]
        have hat : store (p.pad length).fwWord0 0
            (load (p.pad length).response 2 image.laterBytes) (0 + i) = _ :=
          store_add _ _ (by simpa using hword)
        rw [Nat.zero_add] at hat
        rw [hat, getD_load _ _ hword]
      rw [hsaved, hpad i (by omega), hzero, Nat.zero_add]
    · have hkept : (p.stored image length).fwWord0 = p.fwWord0 := by
        have hne : p.offset ≠ 0 := by
          have : 0 < image.laterBytes := by
            rw [Image.laterBytes]
            split <;> decide
          omega
        simp [Program.stored, Program.saveWords, hne]
      rw [hkept]
      exact h.words i (hword.trans_le hlater) hword
  · intro i hi hlater
    simp only [Program.stored, Program.saveWords_offset, Program.pad_offset,
      Program.saveWords_flash,
      Program.pad_flash, haddress]
    by_cases hold : i < p.offset
    · rw [store_of_lt _ _ (Nat.add_lt_add_left hold _)]
      exact h.flash i hold hlater
    · obtain ⟨j, rfl⟩ := Nat.exists_eq_add_of_le (Nat.le_of_not_lt hold)
      have hj : j < length := by omega
      rw [← Nat.add_assoc, store_add _ _ (by simp; omega), getD_load _ _ (by omega),
        Program.saveWords_response, hpad j hj]
      intro hzero
      rw [Program.pad_offset] at hzero
      omega

end Placed

/-! ## The download -/

/-- The answers of a round are lost or belong to the piece that is asked for. -/
def OnTime (sv : Server) (file : List UInt8) (p : Program) (c : Chunk) : Prop :=
  ∀ t ∈ c.attempts, t.sent = true → Lost sv t.polls ∨ Answered sv file p.offset t.polls

/-- The invariant of the loop: whole pieces are in place. -/
structure Downloads (image : Image) (file : List UInt8) (p : Program) : Prop where
  placed : Placed image file p.offset p
  whole : readDataSize ∣ p.offset
  inside : p.offset ≤ file.length
  address : image.loadAddress + p.offset ≤ image.lastAddress

namespace Downloads

variable {image : Image} {sv : Server} {file : List UInt8} {p : Program}

theorem init (protocol : Protocol) (flash fwWord0 : Mem) :
    Downloads image file (Program.init protocol flash fwWord0) where
  placed := ⟨fun _ hi => absurd hi (Nat.not_lt_zero _), fun _ hi => absurd hi (Nat.not_lt_zero _)⟩
  whole := Nat.dvd_zero _
  inside := Nat.zero_le _
  address := image.load_le_last

theorem later_le (h : Downloads image file p) : p.offset = 0 ∨ image.laterBytes ≤ p.offset := by
  rcases Nat.eq_zero_or_pos p.offset with hzero | hpos
  · exact Or.inl hzero
  · refine Or.inr ?_
    calc
      image.laterBytes ≤ readDataSize := by
        rw [Image.laterBytes]
        split <;> decide
      _ ≤ p.offset := Nat.le_of_dvd hpos h.whole

theorem fits (h : Downloads image file p) {length : ℕ} (hlength : length ≤ readDataSize)
    (hrange : p.InRange image (length + length % 2)) :
    image.loadAddress + p.offset + length ≤ image.lastAddress := by
  have hlast := image.last_lt
  have haddress := h.address
  have heven : length + length % 2 ≤ readDataSize := by
    have : readDataSize = 256 := rfl
    omega
  obtain ⟨-, hle⟩ := hrange
  rw [Nat.mod_eq_of_lt (show image.loadAddress + p.offset < 2 ^ 32 by omega),
    Nat.mod_eq_of_lt (by omega)] at hle
  omega

/-- A piece that has been read is put in place, or nothing was read at the end of the file. -/
theorem piece (h : Downloads image file p) {length : ℕ}
    (hreads : Reads file p.offset p.response length)
    (hrange : p.InRange image (length + length % 2)) :
    (p.stored image length).offset = p.offset + length ∧
      image.loadAddress + (p.offset + length) ≤ image.lastAddress ∧
      ((p.offset = file.length ∧ length = 2) ∨
        (p.offset + length ≤ file.length ∧
          Placed image file (p.offset + length) (p.stored image length))) := by
  have hlast := image.last_lt
  have hinside := h.inside
  have hsize : (Canbootloader.piece file p.offset).length =
      min readDataSize (file.length - p.offset) := by
    rw [Canbootloader.piece, List.length_take, List.length_drop]
  have hdef : readDataSize = 256 := rfl
  have hlength := hreads.length_eq
  have hle : length ≤ readDataSize := by
    rw [hlength]
    split <;> omega
  have hfits := h.fits hle hrange
  refine ⟨?_, by omega, ?_⟩
  · rw [Program.stored]
    simp only [Program.saveWords_offset, Program.pad_offset]
    exact Nat.mod_eq_of_lt (by omega)
  · by_cases hnil : Canbootloader.piece file p.offset = []
    · rw [if_pos hnil] at hlength
      rw [hnil, List.length_nil] at hsize
      exact Or.inl ⟨by omega, hlength⟩
    · rw [if_neg hnil] at hlength
      refine Or.inr ⟨by omega, h.placed.stored ?_ h.later_le (by omega)⟩
      intro i hi
      have hi' : i < (Canbootloader.piece file p.offset).length := hlength ▸ hi
      rw [← getD_piece hi', ← getD_load p.response 2 hi', hreads.data]

theorem round (h : Downloads image file p) {c : Chunk} (hc : OnTime sv file p c) (fwImageSize : ℕ) :
    (∃ p', Program.round image sv fwImageSize p c = .goesOn p' ∧ Downloads image file p') ∨
      Program.round image sv fwImageSize p c = .isHeld ∨
      ∃ ok p', Program.round image sv fwImageSize p c = .returns (ok, p') ∧
        (ok = true → (p'.offset = file.length + 2 ∧ p'.offset = fwImageSize ∧
            readDataSize ∣ file.length) ∨
          p'.code image fwImageSize = file.take fwImageSize) := by
  rw [Program.round]
  have hchunk : readChunk sv uavcanServiceRetries p c.attempts = none ∨ _ := readChunk_spec hc
  rcases hchunk with hnone | ⟨protocol, response, l, hsome, hreads⟩
  · rw [hnone]
    exact Or.inr (Or.inl rfl)
  · rw [hsome]
    cases l with
    | none => exact Or.inr (Or.inr ⟨false, _, rfl, fun hok => absurd hok Bool.false_ne_true⟩)
    | some length =>
        -- what a receive changes is not part of the invariant
        have hp : Downloads image file { p with protocol := protocol, response := response } :=
          ⟨⟨h.placed.words, h.placed.flash⟩, h.whole, h.inside, h.address⟩
        dsimp only
        rw [Program.program_eq]
        split
        · rename_i hwritten
          obtain ⟨hoffset, haddress, hpiece⟩ := hp.piece (hreads length rfl) hwritten.1
          split
          · rename_i hmore
            refine Or.inl ⟨_, rfl, ?_⟩
            rcases hpiece with ⟨-, htwo⟩ | ⟨hinside, hplaced⟩
            · rw [htwo] at hmore
              exact absurd hmore.2 (by decide)
            · rw [← hoffset] at hinside hplaced haddress
              refine ⟨hplaced, ?_, hinside, haddress⟩
              rw [hoffset, hmore.2]
              exact Nat.dvd_add h.whole (dvd_refl _)
          · refine Or.inr (Or.inr ⟨_, _, rfl, fun hok => ?_⟩)
            obtain ⟨hend, -⟩ := of_decide_eq_true hok
            rcases hpiece with ⟨hall, htwo⟩ | ⟨hinside, hplaced⟩
            · refine Or.inl ⟨by rw [hoffset, htwo, hall], hend, ?_⟩
              rw [← hall]
              exact h.whole
            · rw [← hoffset, hend] at hinside hplaced
              exact Or.inr (hplaced.code hinside)
        · exact Or.inr (Or.inr ⟨false, _, rfl, fun hok => absurd hok Bool.false_ne_true⟩)

end Downloads

/-! ## Runs -/

/-- The offsets that have been asked for. -/
def asked (s : Progress Program (Bool × Program)) (c : Chunk) (offsets : List ℕ) : List ℕ :=
  match s with
  | .goesOn p => if c.attempts.any Attempt.sent then p.offset :: offsets else offsets
  | _ => offsets

/-- The answers of a round are lost, or belong to any request so far. -/
def Honest (sv : Server) (file : List UInt8) (offsets : List ℕ) (p : Program) (c : Chunk) : Prop :=
  ∀ t ∈ c.attempts, t.sent = true →
    Lost sv t.polls ∨ ∃ offset ∈ p.offset :: offsets, Answered sv file offset t.polls

/-- In runs whose rounds meet `ok`, `FLASH_OK` is returned only with the file in place. -/
def Faithful (image : Image) (sv : Server) (file : List UInt8) (fwImageSize : ℕ)
    (ok : List ℕ → Program → Chunk → Prop) : Prop :=
  ∀ protocol flash fwWord0 cs p,
    AllSteps (historyStep (Progress.step (Program.round image sv fwImageSize)) asked)
      (fun s c => Progress.Meets (ok s.2) s.1 c) (.goesOn (Program.init protocol flash fwWord0), [])
      cs →
    exec (Progress.step (Program.round image sv fwImageSize))
      (.goesOn (Program.init protocol flash fwWord0)) cs = .returns (true, p) →
    p.code image fwImageSize = file.take fwImageSize

/-- A download is faithful where every answer belongs to the piece that is asked for, and the two
bytes of an empty answer are not what is missing from the file. -/
theorem download_faithful {image : Image} {sv : Server} {file : List UInt8} {fwImageSize : ℕ}
    (hsize : ¬(readDataSize ∣ file.length ∧ fwImageSize = file.length + 2)) :
    Faithful image sv file fwImageSize fun _ p c => OnTime sv file p c := by
  intro protocol flash fwWord0 cs p hok hexec
  have hsteps := (allSteps_historyStep (Progress.step (Program.round image sv fwImageSize)) asked
    (Progress.Meets (OnTime sv file)) cs _).1 hok
  have hgo : ∀ q c q', Downloads image file q → OnTime sv file q c →
      Program.round image sv fwImageSize q c = .goesOn q' → Downloads image file q' := by
    intro q c q' hq hc hgo
    rcases hq.round hc fwImageSize with ⟨q'', hround, hq''⟩ | hround | ⟨ok, q'', hround, -⟩
    · rw [hround] at hgo
      cases hgo
      exact hq''
    · rw [hround] at hgo
      cases hgo
    · rw [hround] at hgo
      cases hgo
  have hreturns : ∀ q c (r : Bool × Program), Downloads image file q → OnTime sv file q c →
      Program.round image sv fwImageSize q c = .returns r →
      r.1 = true → r.2.code image fwImageSize = file.take fwImageSize := by
    intro q c r hq hc hreturns hok
    rcases hq.round hc fwImageSize with ⟨q'', hround, -⟩ | hround | ⟨ok, q'', hround, hdone⟩
    · rw [hround] at hreturns
      cases hreturns
    · rw [hround] at hreturns
      cases hreturns
    · rw [hround] at hreturns
      cases hreturns
      rcases hdone hok with ⟨hend, hall, hdvd⟩ | hcode
      · exact absurd ⟨hdvd, hall.symm.trans hend⟩ hsize
      · exact hcode
  exact Progress.post_of_allSteps hgo hreturns (Downloads.init protocol flash fwWord0) hsteps hexec
    rfl

/-- The server 1, asked by node 0. -/
def server : Server := ⟨⟨0, 0⟩, 1⟩

/-- A request, and what the server sends for an offset. -/
def answeredAt (file : List UInt8) (offset : ℕ) : Attempt where
  sent := true
  polls :=
    arriving
      (uavcanTxDsdl ⟨1, 0⟩ .rspRead ⟨CanId.zero, ⟨0, false, false, false⟩⟩ (answer file offset))

theorem answered_answeredAt (file : List UInt8) (offset : ℕ) :
    Answered server file offset (answeredAt file offset).polls :=
  ⟨⟨1, 0⟩, ⟨CanId.zero, ⟨0, false, false, false⟩⟩, rfl, rfl,
    arrives_arriving length_le_of_mem_uavcanTxDsdl none⟩

/-- The variables at the start of a download. -/
def atStart : Program :=
  Program.init ⟨CanId.zero, ⟨0, false, false, false⟩⟩ (fun _ => 0) fun _ => 0

/-- A request whose answer does not come before the timeout. -/
def unanswered : Attempt where
  sent := true
  polls := [⟨none, true⟩]

theorem lost_unanswered (sv : Server) : Lost sv unanswered.polls :=
  ⟨[], _, rfl, by simp [frames], by simp [frames]⟩

theorem round_answered {sv : Server} {file : List UInt8} {offset : ℕ} {t : Attempt}
    (hsent : t.sent = true) (h : Answered sv file offset t.polls) {ts : List Attempt}
    (hts : ts = [] ∨ ts = [unanswered]) (image : Image) (fwImageSize : ℕ) (p : Program) :
    ∃ protocol response length, Reads file offset response length ∧
      Program.round image sv fwImageSize p ⟨ts ++ [t], true⟩ =
        Program.program image { p with protocol := protocol, response := response } fwImageSize
          length
          true := by
  rcases hts with rfl | rfl
  · obtain ⟨protocol, response, length, hreads, hstep⟩ := readAttempt_answered hsent h p
    refine ⟨protocol, response, length, hreads, ?_⟩
    simp [Program.round, uavcanServiceRetries, readChunk, hstep]
  · obtain ⟨q, hq, hlost⟩ : ∃ q : Program, (∃ protocol response,
        q = { p with protocol := protocol, response := response }) ∧
        readAttempt sv p unanswered = some (q, none) := ⟨_, ⟨_, _, rfl⟩, rfl⟩
    obtain ⟨protocol, response, length, hreads, hstep⟩ := readAttempt_answered hsent h q
    obtain ⟨protocol', response', rfl⟩ := hq
    refine ⟨protocol, response, length, hreads, ?_⟩
    simp [Program.round, uavcanServiceRetries, readChunk, hlost, hstep]

/-- A round on the small image: what arrives is stored, for whatever offset it was sent. -/
theorem stored_answered {file : List UInt8} {offset : ℕ} {ts : List Attempt}
    (hts : ts = [] ∨ ts = [unanswered]) {p : Program} {length : ℕ}
    (hlength : length = if piece file offset = [] then 2 else (piece file offset).length)
    (hroom : p.offset + length ≤ 1000) (fwImageSize : ℕ) :
    ∃ q : Program, (q.offset = p.offset ∧ q.flash = p.flash ∧ q.fwWord0 = p.fwWord0) ∧
      load q.response 2 (piece file offset).length = piece file offset ∧
      (q.stored smallImage length).offset = p.offset + length ∧
      Program.round smallImage server fwImageSize p ⟨ts ++ [answeredAt file offset], true⟩ =
        if p.offset + length < fwImageSize ∧ length = readDataSize then
          .goesOn (q.stored smallImage length)
        else
          .returns (decide (p.offset + length = fwImageSize ∧ length ≠ 0),
            q.stored smallImage length) := by
  obtain ⟨protocol, response, length', hreads, hround⟩ :=
    round_answered rfl (answered_answeredAt file offset) hts smallImage fwImageSize p
  obtain rfl : length' = length := hreads.length_eq.trans hlength.symm
  have hoffset : (Program.stored smallImage
      { p with protocol := protocol, response := response } length').offset = p.offset +
        length' := by
    simp only [Program.stored, Program.saveWords_offset, Program.pad_offset]
    exact Nat.mod_eq_of_lt (by omega)
  have hrange : Program.InRange smallImage
      { p with protocol := protocol, response := response } (length' + length' % 2) := by
    have hload : smallImage.loadAddress = 0 := rfl
    have hlast : smallImage.lastAddress = 1024 := rfl
    simp only [Program.InRange, hload, hlast]
    omega
  refine ⟨{ p with protocol := protocol, response := response }, ⟨rfl, rfl, rfl⟩, hreads.data,
    hoffset,
    ?_⟩
  rw [hround, Program.program_eq, if_pos ⟨hrange, rfl⟩, hoffset]

theorem onTime_answeredAt (file : List UInt8) (p : Program) :
    OnTime server file p ⟨[answeredAt file p.offset], true⟩ := by
  intro t ht _
  obtain rfl := List.mem_singleton.1 ht
  exact Or.inr (answered_answeredAt file p.offset)

/-- A file of 100 bytes is downloaded in one piece. -/
theorem download_of_hundred : ∃ p, exec (Progress.step (Program.round smallImage server 100))
    (.goesOn atStart) [⟨[answeredAt (List.replicate 100 7) 0], true⟩] = .returns (true, p) ∧
      p.code smallImage 100 = (List.replicate 100 7).take 100 := by
  have hpiece : piece (List.replicate 100 7) 0 = List.replicate 100 7 :=
    List.take_of_length_le (List.length_replicate.trans_le (by decide))
  have hne : List.replicate 100 (7 : UInt8) ≠ [] := List.cons_ne_nil _ _
  obtain ⟨q, -, -, -, hround⟩ := stored_answered (Or.inl rfl) (p := atStart)
    (show 100 = if piece (List.replicate 100 7) 0 = [] then 2 else _ by
      rw [hpiece, if_neg hne, List.length_replicate]) (by decide) 100
  rw [if_neg (by decide), decide_eq_true (by decide)] at hround
  have hexec : exec (Progress.step (Program.round smallImage server 100)) (.goesOn atStart)
      [⟨[answeredAt (List.replicate 100 7) 0], true⟩] =
        .returns (true, q.stored smallImage 100) := by
    rw [exec_cons, Progress.step_goesOn, exec_nil]
    exact hround
  have hfaithful : Faithful smallImage server (List.replicate 100 7) 100
      fun _ p c => OnTime server (List.replicate 100 7) p c :=
    download_faithful (by rw [List.length_replicate]; decide)
  exact ⟨_, hexec, hfaithful _ _ _ [⟨[answeredAt (List.replicate 100 7) 0], true⟩] _
    ⟨onTime_answeredAt _ atStart, trivial⟩ hexec⟩

theorem getD_replicate {n i : ℕ} (h : i < n) (x : UInt8) : (List.replicate n x).getD i 0 = x := by
  simp [List.getD_eq_getElem?_getD, h]

/-- A file of two pieces. -/
def twoPieces : List UInt8 := List.replicate readDataSize 1 ++ List.replicate readDataSize 2

/-- The first answer comes after a second request, and the second answer where the next piece is
asked for. -/
def lateRun : List Chunk :=
  [⟨[unanswered] ++ [answeredAt twoPieces 0], true⟩, ⟨[] ++ [answeredAt twoPieces 0], true⟩]

theorem lateRun_returns : ∃ p, exec (Progress.step (Program.round smallImage server 512))
    (.goesOn atStart) lateRun = .returns (true, p) ∧
      p.code smallImage 512 = List.replicate 512 1 := by
  have hpiece : piece twoPieces 0 = List.replicate 256 1 := List.take_left' List.length_replicate
  have hne : List.replicate 256 (1 : UInt8) ≠ [] := List.cons_ne_nil _ _
  have hlength : 256 = if piece twoPieces 0 = [] then 2 else (piece twoPieces 0).length := by
    rw [hpiece, if_neg hne, List.length_replicate]
  have hones : ∀ q : Program, q.offset + 256 ≤ 512 →
      load q.response 2 (piece twoPieces 0).length = piece twoPieces 0 →
      ∀ i < 256, q.response (2 + i) = (List.replicate 512 (1 : UInt8)).getD (q.offset + i) 0 := by
    intro q hq hload i hi
    rw [hpiece, List.length_replicate] at hload
    rw [← getD_load q.response 2 hi, hload, getD_replicate hi, getD_replicate (by omega)]
  have hzero : atStart.offset = 0 := rfl
  obtain ⟨q₁, ⟨hoffset₁, -, -⟩, hload₁, hstored₁, hround₁⟩ :=
    stored_answered (Or.inr rfl) hlength (show atStart.offset + 256 ≤ 1000 by decide) 512
  rw [if_pos (show atStart.offset + 256 < 512 ∧ 256 = readDataSize by decide)] at hround₁
  rw [hzero] at hoffset₁
  rw [hzero, Nat.zero_add] at hstored₁
  have hplaced₁ : Placed smallImage (List.replicate 512 1) (q₁.offset + 256)
      (q₁.stored smallImage 256) := by
    refine Placed.stored ⟨?_, ?_⟩ (hones q₁ (by omega) hload₁) (Or.inl hoffset₁)
      (by rw [hoffset₁]; decide)
    · intro i hi
      omega
    · intro i hi
      omega
  obtain ⟨q₂, ⟨hoffset₂, hflash₂, hwords₂⟩, hload₂, -, hround₂⟩ :=
    stored_answered (Or.inl rfl) hlength
      (show (q₁.stored smallImage 256).offset + 256 ≤ 1000 by omega) 512
  rw [hstored₁] at hoffset₂ hround₂
  rw [if_neg (by decide), decide_eq_true (by decide)] at hround₂
  rw [hoffset₁] at hplaced₁
  have hplaced₂ : Placed smallImage (List.replicate 512 1) (q₂.offset + 256)
      (q₂.stored smallImage 256) := by
    refine Placed.stored ⟨?_, ?_⟩ (hones q₂ (by omega) hload₂) (Or.inr (by rw [hoffset₂]; decide))
      (by rw [hoffset₂]; decide)
    · intro i hi
      rw [hwords₂]
      exact hplaced₁.words i (by omega)
    · intro i hi
      rw [hflash₂]
      exact hplaced₁.flash i (by omega)
  rw [hoffset₂] at hplaced₂
  refine ⟨q₂.stored smallImage 256, ?_, ?_⟩
  · rw [lateRun, exec_cons, Progress.step_goesOn, hround₁, exec_cons, Progress.step_goesOn, hround₂,
      exec_nil]
  · rw [hplaced₂.code List.length_replicate.ge, List.take_of_length_le List.length_replicate.le]

theorem lateRun_honest : AllSteps
    (historyStep (Progress.step (Program.round smallImage server 512)) asked)
    (fun s c => Progress.Meets (Honest server twoPieces s.2) s.1 c)
    (.goesOn atStart, []) lateRun := by
  rw [lateRun, allSteps_cons, allSteps_cons, historyStep]
  refine ⟨?_, ?_, trivial⟩
  · intro t ht _
    rcases List.mem_pair.1 ht with rfl | rfl
    · exact Or.inl (lost_unanswered server)
    · exact Or.inr ⟨0, List.mem_cons_self, answered_answeredAt _ _⟩
  · have hasked : 0 ∈ asked (.goesOn atStart)
        ⟨[unanswered] ++ [answeredAt twoPieces 0], true⟩ [] := by
      simp [asked, unanswered, atStart, Program.init]
    generalize asked (.goesOn atStart) _ [] = offsets at hasked
    generalize Progress.step _ _ _ = s
    cases s with
    | goesOn p =>
        intro t ht _
        obtain rfl := List.mem_singleton.1 ht
        exact Or.inr ⟨0, List.mem_cons_of_mem _ hasked, answered_answeredAt _ _⟩
    | isHeld => trivial
    | returns r => trivial

/-- A file of one whole piece, and the answer behind its end. -/
def endRun : List Chunk :=
  [⟨[answeredAt (List.replicate 256 7) 0], true⟩, ⟨[answeredAt (List.replicate 256 7) 256], true⟩]

theorem endRun_returns :
    AllSteps (historyStep (Progress.step (Program.round smallImage server 258)) asked)
      (fun s c => Progress.Meets (OnTime server (List.replicate 256 7)) s.1 c) (.goesOn atStart, [])
      endRun ∧
    ∃ p, exec (Progress.step (Program.round smallImage server 258)) (.goesOn atStart) endRun =
      .returns (true, p) := by
  have hfile : (List.replicate 256 (7 : UInt8)).length = 256 := List.length_replicate
  have hpiece₁ : piece (List.replicate 256 7) 0 = List.replicate 256 7 :=
    List.take_of_length_le hfile.le
  have hpiece₂ : piece (List.replicate 256 7) 256 = [] := by
    rw [piece, List.drop_of_length_le hfile.le, List.take_nil]
  have hne : List.replicate 256 (7 : UInt8) ≠ [] := List.cons_ne_nil _ _
  have hzero : atStart.offset = 0 := rfl
  obtain ⟨q₁, -, -, hstored₁, hround₁⟩ := stored_answered (Or.inl rfl)
    (show 256 = if piece (List.replicate 256 7) 0 = [] then 2 else _ by
      rw [hpiece₁, if_neg hne, hfile]) (show atStart.offset + 256 ≤ 1000 by decide) 258
  rw [if_pos (show atStart.offset + 256 < 258 ∧ 256 = readDataSize by decide)] at hround₁
  rw [hzero, Nat.zero_add] at hstored₁
  obtain ⟨q₂, -, -, -, hround₂⟩ := stored_answered (Or.inl rfl)
    (show 2 = if piece (List.replicate 256 7) 256 = [] then 2 else _ by rw [if_pos hpiece₂])
    (show (q₁.stored smallImage 256).offset + 2 ≤ 1000 by omega) 258
  rw [hstored₁, if_neg (by decide), decide_eq_true (by decide)] at hround₂
  rw [List.nil_append] at hround₁ hround₂
  constructor
  · rw [endRun, allSteps_cons, allSteps_cons, historyStep, Progress.step_goesOn, hround₁]
    refine ⟨onTime_answeredAt _ atStart, ?_, trivial⟩
    have hontime := onTime_answeredAt (List.replicate 256 7) (q₁.stored smallImage 256)
    rwa [hstored₁] at hontime
  · refine ⟨q₂.stored smallImage 2, ?_⟩
    rw [endRun, exec_cons, Progress.step_goesOn, hround₁, exec_cons, Progress.step_goesOn, hround₂,
      exec_nil]

/-- In general, it is not: where the first answer comes after a second request, and the second
answer where the next piece is asked for, the first piece is stored twice.  And two bytes that the
file does not have are stored after its whole pieces. -/
theorem first_piece_twice :
    ¬Faithful smallImage server twoPieces 512 (Honest server twoPieces) ∧
      ¬Faithful smallImage server (List.replicate 256 7) 258
        fun _ p c => OnTime server (List.replicate 256 7) p c := by
  constructor
  · intro h
    obtain ⟨p, hexec, hcode⟩ := lateRun_returns
    have hfile : p.code smallImage 512 = twoPieces.take 512 :=
      h _ _ _ lateRun p lateRun_honest hexec
    have hlength : twoPieces.length ≤ 512 := by
      rw [twoPieces, List.length_append, List.length_replicate, List.length_replicate]
      exact le_of_eq rfl
    have hsecond : twoPieces.getD 256 0 = 2 := by
      have hfirst : (List.replicate readDataSize (1 : UInt8)).length ≤ 256 :=
        List.length_replicate.le
      rw [twoPieces, List.getD_eq_getElem?_getD, List.getElem?_append_right hfirst,
        List.length_replicate, ← List.getD_eq_getElem?_getD]
      exact getD_replicate (by decide) 2
    rw [hcode, List.take_of_length_le hlength] at hfile
    rw [← hfile, getD_replicate (by decide)] at hsecond
    exact absurd hsecond (by decide)
  · intro h
    obtain ⟨hontime, p, hexec⟩ := endRun_returns
    have hfile : p.code smallImage 258 = (List.replicate 256 7).take 258 :=
      h _ _ _ endRun p hontime hexec
    have hlength := congrArg List.length hfile
    rw [List.length_take, List.length_replicate, Program.code, List.length_take, List.length_append,
      length_load, length_load] at hlength
    exact absurd hlength (by decide)

end Canbootloader
end DtPhm
