import DtPhm.Lib.Run
import DtPhm.Ftp.Session

/-!
# Burst — the packets of a burst download

A burst request only sets up the stream; the packets are sent by later calls of `send`, as the room
in the transmit buffer allows.  `BurstLaw` says what the packets sent so far are: the
acknowledgements are numbered consecutively, they carry the file from the requested offset on
without gap or overlap, and `burst_complete` marks the last of them where the stream stops without a
NAK.

Three things can break this.  `send` sets `burst_complete` in some of its branches only, so a packet
may show what was on the stack; a stream that lasts counts as no activity, so its session may be
closed under it; and the offset has 32 bits.  `burst_law` is about all runs without them.
-/

namespace DtPhm
namespace Ftp

open Lib

variable {F : Type}

/-! ## Chunks of a file -/

/-- The reply is the packet number `q`, and carries the bytes of the file from `o` on. -/
structure IsChunk (content : List UInt8) (o : ℕ) (q : UInt16) (r : Reply) : Prop where
  ack : r.opcode = kRspAck
  seqNumber : r.seqNumber = q
  offset : r.offset.toNat = o
  data : r.data = (content.drop o).take r.data.length

/-- The packets from number `q` on, which carry the file from `o` on. -/
def Chunks (content : List UInt8) : ℕ → UInt16 → List Reply → Prop
  | _, _, [] => True
  | o, q, r :: rs => IsChunk content o q r ∧ Chunks content (o + r.data.length) (q + 1) rs

/-- The data of the packets, in their order. -/
def sentBytes (rs : List Reply) : List UInt8 := rs.flatMap Reply.data

variable {content : List UInt8} {o : ℕ} {q : UInt16} {rs : List Reply}

theorem ofNat_succ (q : UInt16) (n : ℕ) : q + 1 + UInt16.ofNat n = q + UInt16.ofNat (n + 1) := by
  rw [UInt16.ofNat_add, UInt16.add_assoc, UInt16.add_comm 1]
  rfl

theorem Chunks.snoc {r : Reply} : ∀ {rs : List Reply} {o : ℕ} {q : UInt16},
    Chunks content o q rs →
      IsChunk content (o + (sentBytes rs).length) (q + UInt16.ofNat rs.length) r →
        Chunks content o q (rs ++ [r]) := by
  intro rs
  induction rs with
  | nil =>
      intro o q _ hr
      exact ⟨by simpa [sentBytes] using hr, trivial⟩
  | cons r₀ rs ih =>
      intro o q hrs hr
      rcases hrs with ⟨hr₀, hrs⟩
      refine ⟨hr₀, ih hrs ?_⟩
      have hpos : o + (sentBytes (r₀ :: rs)).length =
          o + r₀.data.length + (sentBytes rs).length := by
        simp [sentBytes, Nat.add_assoc]
      rw [hpos] at hr
      rw [ofNat_succ]
      exact hr

theorem Chunks.acks : ∀ {rs : List Reply} {o : ℕ} {q : UInt16}, Chunks content o q rs →
    ∀ r ∈ rs, r.opcode = kRspAck := by
  intro rs
  induction rs with
  | nil =>
      intro o q _ r hr
      cases hr
  | cons r₀ rs ih =>
      intro o q hrs r hr
      rcases List.mem_cons.1 hr with rfl | hr
      · exact hrs.1.ack
      · exact ih hrs.2 r hr

theorem Chunks.seqNumber : ∀ {rs : List Reply} {o : ℕ} {q : UInt16}, Chunks content o q rs →
    ∀ (i : ℕ) (r : Reply), rs[i]? = some r → r.seqNumber = q + UInt16.ofNat i := by
  intro rs
  induction rs with
  | nil =>
      intro o q _ i r hr
      simp at hr
  | cons r₀ rs ih =>
      intro o q hrs i r hr
      cases i with
      | zero =>
          have : r₀ = r := by simpa using hr
          subst this
          simpa using hrs.1.seqNumber
      | succ i =>
          rw [← ofNat_succ]
          exact ih hrs.2 i r (by simpa using hr)

theorem Chunks.offset : ∀ {before after : List Reply} {r : Reply} {o : ℕ} {q : UInt16},
    Chunks content o q (before ++ r :: after) →
      r.offset.toNat = o + (sentBytes before).length := by
  intro before
  induction before with
  | nil =>
      intro after r o q h
      simpa [sentBytes] using h.1.offset
  | cons r₀ before ih =>
      intro after r o q h
      rw [ih h.2]
      simp [sentBytes, Nat.add_assoc]

theorem Chunks.sentBytes_eq : ∀ {rs : List Reply} {o : ℕ} {q : UInt16}, Chunks content o q rs →
    sentBytes rs = (content.drop o).take (sentBytes rs).length := by
  intro rs
  induction rs with
  | nil =>
      intro o q _
      simp [sentBytes]
  | cons r rs ih =>
      intro o q h
      have hrest := ih h.2
      have hdrop : content.drop (o + r.data.length) = (content.drop o).drop r.data.length := by
        rw [List.drop_drop]
      calc
        sentBytes (r :: rs)
            = r.data ++ sentBytes rs := rfl
        _ = (content.drop o).take r.data.length ++
              ((content.drop o).drop r.data.length).take (sentBytes rs).length := by
              rw [← h.1.data, ← hdrop, ← hrest]
        _ = (content.drop o).take (r.data.length + (sentBytes rs).length) := List.take_add.symm
        _ = (content.drop o).take (sentBytes (r :: rs)).length := by
              simp [sentBytes]

/-! ## The law -/

/-- The acknowledgements among the packets. -/
def acks (sent : List Reply) : List Reply := sent.filter fun r => decide (r.opcode = kRspAck)

/-- What has been sent of the burst from offset `o` with the first number `q`. -/
structure BurstLaw (content : List UInt8) (o : ℕ) (q : UInt16) (stopped : Prop)
    (sent : List Reply) : Prop where
  consecutive : ∀ i r, (acks sent)[i]? = some r → r.seqNumber = q + UInt16.ofNat i
  contiguous : ∀ before r after, acks sent = before ++ r :: after →
    r.offset.toNat = o + (sentBytes before).length
  fromFile : sentBytes (acks sent) <+: content.drop o
  complete : ∀ before r after, sent = before ++ r :: after →
    (r.burstComplete = 1 ↔ r.opcode = kRspAck ∧ (∀ r' ∈ after, r'.opcode ≠ kRspAck) ∧ stopped ∧
      ∀ r' ∈ sent, r'.opcode ≠ kRspNak)

theorem acks_of_forall {rs : List Reply} (h : ∀ r ∈ rs, r.opcode = kRspAck) : acks rs = rs := by
  apply List.filter_eq_self.2
  intro r hr
  simpa using h r hr

/-- The law for the chunks sent so far, with what is left to say about `burst_complete`. -/
theorem burstLaw_of_chunks {stopped : Prop} {sent : List Reply} (hrs : Chunks content o q rs)
    (hacks : acks sent = rs)
    (hcomplete : ∀ before r after, sent = before ++ r :: after →
      (r.burstComplete = 1 ↔ r.opcode = kRspAck ∧ (∀ r' ∈ after, r'.opcode ≠ kRspAck) ∧ stopped ∧
        ∀ r' ∈ sent, r'.opcode ≠ kRspNak)) : BurstLaw content o q stopped sent where
  consecutive := by
    rw [hacks]
    exact hrs.seqNumber
  contiguous := by
    rw [hacks]
    intro before r after h
    subst h
    exact hrs.offset
  fromFile := by
    rw [hacks, hrs.sentBytes_eq]
    exact List.take_prefix _ _
  complete := hcomplete

/-! ## Conditions -/

/-- `fd` is open on a file with this content, wherever `ok` holds of the file system: a seek to a
place inside the file succeeds, and a read after it gives the bytes from there on. -/
structure ReadsFile (posix : Posix F) (fd : ℤ) (content : List UInt8) (ok : F → Prop) : Prop where
  seek : ∀ (w : World F) (o : ℕ), ok w.fs → o < content.length → (posix.lseek fd o w).1 = true
  read : ∀ (w : World F) (o n : ℕ), ok w.fs → o < content.length →
    (posix.read fd n (posix.lseek fd o w).2).1 = some ((content.drop o).take n)
  keeps : ∀ (w : World F) (o n : ℕ), ok w.fs → o < content.length →
    ok (posix.read fd n (posix.lseek fd o w).2).2.fs

/-- One packet of a stream from a file of `len` bytes: the offset does not wrap, and where the
source leaves `burst_complete` as it is, it is not 1. -/
def PacketOk (len : ℕ) (session : SessionInfo) (room : ℕ) (stack : Payload) : Prop :=
  if session.fileSize ≤ session.streamOffset then stack.burstComplete ≠ 1
  else
    let n := min kMaxDataLength (len - session.streamOffset.toNat)
    session.streamOffset.toNat + n < 2 ^ 32 ∧
      (room < messageSize * 2 →
        (session.streamChunkTransmitted + UInt32.ofNat n).toNat ≤ 35000 → stack.burstComplete ≠ 1)

instance (len : ℕ) (session : SessionInfo) (room : ℕ) (stack : Payload) :
    Decidable (PacketOk len session room stack) :=
  inferInstanceAs (Decidable (if session.fileSize ≤ session.streamOffset then _ else _))

/-- All packets of the loop of `send`. -/
def RoundsOk (posix : Posix F) (env : Env) (len room i : ℕ) (s : Server F) (errno : ℕ) : Prop :=
  let next := Ctx.streamPacket posix ⟨s.session, ⟨s.fs, errno⟩, env.stack i⟩ room
  PacketOk len s.session room (env.stack i) ∧
    if h : next.1 ∧ messageSize ≤ room then
      have : room - messageSize < room := Nat.sub_lt_of_pos_le (by decide) h.2
      RoundsOk posix env len (room - messageSize) (i + 1) (s.sendPacket next.2).1
        next.2.world.errno
    else True
termination_by room

/-- `send` closes the session, since the server was not used for a while. -/
def ClosesSession (env : Env) (s : Server F) : Prop :=
  ¬(s.workBuffer1 ∨ s.workBuffer2) ∧ s.session.fd ≠ -1 ∧
    10000000 < env.now - s.lastWorkBufferAccess

/-- A call of `send` that keeps the session of a stream, and all of whose packets are as they should
be. -/
def SendOk (posix : Posix F) (len : ℕ) (s : Server F) (env : Env) : Prop :=
  s.session.streamDownload →
    ¬ClosesSession env s ∧
      (messageSize ≤ env.freeTxBuf →
        RoundsOk posix env len env.freeTxBuf 0 (s.housekeeping posix env) env.errno)

/-! ## The invariant -/

section

variable (posix : Posix F) (fd : ℤ) (content : List UInt8) (ok : F → Prop) (o : ℕ) (q : UInt16)

/-- The stream is under way, and has sent the packets `rs`. -/
structure Active (s : Server F) (rs : List Reply) : Prop where
  chunks : Chunks content o q rs
  incomplete : ∀ r ∈ rs, r.burstComplete ≠ 1
  streamDownload : s.session.streamDownload = true
  fd : s.session.fd = fd
  fileSize : s.session.fileSize = UInt32.ofNat content.length
  streamOffset : s.session.streamOffset.toNat = o + (sentBytes rs).length
  streamSeqNumber : s.session.streamSeqNumber = q + UInt16.ofNat rs.length
  fs : ok s.fs

/-- The stream has stopped, with a NAK or with a complete chunk. -/
inductive Stopped (sent : List Reply) : Prop
  | nak (rs : List Reply) (r : Reply) (hsent : sent = rs ++ [r]) (chunks : Chunks content o q rs)
      (incomplete : ∀ r ∈ sent, r.burstComplete ≠ 1) (nak : r.opcode = kRspNak)
  | complete (rs : List Reply) (r : Reply) (hsent : sent = rs ++ [r])
      (chunks : Chunks content o q sent) (incomplete : ∀ r ∈ rs, r.burstComplete ≠ 1)
      (complete : r.burstComplete = 1)

/-- The stream after the packets `sent`. -/
def Progress (s : Server F) (sent : List Reply) : Prop :=
  Active fd content ok o q s sent ∨
    (s.session.streamDownload = false ∧ Stopped content o q sent)

variable {fd content ok o q}

theorem Progress.burstLaw {s : Server F} {sent : List Reply}
    (h : Progress fd content ok o q s sent) :
    BurstLaw content o q (s.session.streamDownload = false) sent := by
  rcases h with hactive | ⟨hstop, hstopped⟩
  · refine burstLaw_of_chunks hactive.chunks (acks_of_forall hactive.chunks.acks) ?_
    intro before r after hsent
    have hr : r ∈ sent := by simp [hsent]
    refine iff_of_false (hactive.incomplete r hr) ?_
    -- a stream under way has marked nothing, and has not stopped
    rintro ⟨-, -, hstop, -⟩
    rw [hactive.streamDownload] at hstop
    cases hstop
  · cases hstopped with
    | nak rs r hsent chunks incomplete nak =>
        have hacks : acks sent = rs := by
          have hrs : acks rs = rs := acks_of_forall chunks.acks
          unfold acks at hrs ⊢
          rw [hsent, List.filter_append, hrs]
          simp [nak, kRspNak, kRspAck]
        refine burstLaw_of_chunks chunks hacks ?_
        intro before r₀ after hdecomp
        have hr₀ : r₀ ∈ sent := by simp [hdecomp]
        refine iff_of_false (incomplete r₀ hr₀) ?_
        -- nothing is marked, and the NAK says so
        rintro ⟨-, -, -, hnone⟩
        exact hnone r (by simp [hsent]) nak
    | complete rs r hsent chunks incomplete complete =>
        refine burstLaw_of_chunks chunks (acks_of_forall chunks.acks) ?_
        intro before r₀ after hdecomp
        have hack := chunks.acks
        rcases List.eq_nil_or_concat after with rfl | ⟨after', last, rfl⟩
        · -- the last packet
          have hlast : r = r₀ := by
            have := hsent.symm.trans hdecomp
            exact (List.append_inj' this rfl).2 |> List.head_eq_of_cons_eq
          subst hlast
          refine iff_of_true complete ⟨hack r (by simp [hsent]), by simp, hstop, ?_⟩
          intro r' hr'
          rw [hack r' hr']
          decide
        · -- an earlier one
          have hinit : rs = before ++ r₀ :: after' := by
            have hsplit : rs ++ [r] = (before ++ r₀ :: after') ++ [last] := by
              rw [← hsent, hdecomp]
              simp
            exact (List.append_inj' hsplit rfl).1
          refine iff_of_false (incomplete r₀ (by simp [hinit])) ?_
          rintro ⟨-, hlater, -⟩
          have hmem : last ∈ sent := by simp [hdecomp]
          exact hlater last (by simp) (hack last hmem)

/-! ## One packet -/

theorem streamRead_data {posix : Posix F} (hfile : ReadsFile posix fd content ok) {c : Ctx F}
    (hok : ok c.world.fs) (hfd : c.session.fd = fd)
    (hoffset : c.payload.offset = c.session.streamOffset)
    (hmore : ¬c.session.fileSize ≤ c.session.streamOffset)
    (hlt : c.session.streamOffset.toNat < content.length) :
    ∃ w : World F, ok w.fs ∧ c.streamRead posix = (.none, Ctx.gotData { c with world := w }
      ((content.drop c.session.streamOffset.toNat).take kMaxDataLength)) := by
  have hseek := hfile.seek c.world c.session.streamOffset.toNat hok hlt
  have hread := hfile.read c.world c.session.streamOffset.toNat kMaxDataLength hok hlt
  have hkeeps := hfile.keeps c.world c.session.streamOffset.toNat kMaxDataLength hok hlt
  refine ⟨_, hkeeps, ?_⟩
  unfold Ctx.streamRead
  rw [if_neg hmore]
  simp only [Ctx.call, hoffset, hfd, hseek, hread]

theorem sendPacket_eq (s : Server F) (c : Ctx F) :
    (s.sendPacket c).1.session = c.session ∧ (s.sendPacket c).1.fs = c.world.fs ∧
      (s.sendPacket c).2 = [c.payload.toReply c.session.streamTargetSystemId
        c.session.streamTargetComponentId] := by
  unfold Server.sendPacket Server.reply
  split <;> exact ⟨rfl, rfl, rfl⟩

theorem Active.offset_lt {s : Server F} {rs : List Reply} (h : Active fd content ok o q s rs)
    (hmore : ¬s.session.fileSize ≤ s.session.streamOffset) :
    s.session.streamOffset.toNat < content.length := by
  have hlt : s.session.streamOffset.toNat < s.session.fileSize.toNat :=
    UInt32.lt_iff_toNat_lt.1 (UInt32.not_le.1 hmore)
  rw [h.fileSize, UInt32.toNat_ofNat'] at hlt
  exact lt_of_lt_of_le hlt (Nat.mod_le _ _)

/-- The bytes of the file that the next packet carries. -/
def nextBytes (content : List UInt8) (session : SessionInfo) : List UInt8 :=
  (content.drop session.streamOffset.toNat).take kMaxDataLength

theorem length_nextBytes (content : List UInt8) (session : SessionInfo) :
    (nextBytes content session).length =
      min kMaxDataLength (content.length - session.streamOffset.toNat) := by
  simp [nextBytes]

/-- The context `c` holds the packet after those that `session` counts. -/
structure DataPacket (content : List UInt8) (session : SessionInfo) (c : Ctx F) : Prop where
  ack : c.payload.opcode = kRspAck
  seqNumber : c.payload.seqNumber = session.streamSeqNumber
  offset : c.payload.offset = session.streamOffset
  data : load c.payload.data 0 c.payload.size.toNat = nextBytes content session
  nextSeqNumber : c.session.streamSeqNumber = session.streamSeqNumber + 1
  nextOffset : c.session.streamOffset =
    session.streamOffset + UInt32.ofNat (nextBytes content session).length
  fd : c.session.fd = session.fd
  fileSize : c.session.fileSize = session.fileSize

theorem DataPacket.isChunk {session : SessionInfo} {c : Ctx F}
    (h : DataPacket content session c) (sys comp : UInt8) :
    IsChunk content session.streamOffset.toNat session.streamSeqNumber
      (c.payload.toReply sys comp) := by
  refine ⟨h.ack, h.seqNumber, congrArg UInt32.toNat h.offset, ?_⟩
  have hdata : (c.payload.toReply sys comp).data = nextBytes content session := h.data
  rw [hdata, length_nextBytes, nextBytes, ← List.length_drop, ← List.take_eq_take_min]

/-- What a round leaves inside the file.  Only a round without room for another packet may end the
stream, and then it marks its packet. -/
theorem streamPacket_data {posix : Posix F} (hfile : ReadsFile posix fd content ok) {s : Server F}
    {rs : List Reply} {errno room : ℕ} {stack : Payload} (h : Active fd content ok o q s rs)
    (hmore : ¬s.session.fileSize ≤ s.session.streamOffset)
    (hbyte : room < messageSize * 2 →
      (s.session.streamChunkTransmitted +
        UInt32.ofNat (nextBytes content s.session).length).toNat ≤ 35000 →
      stack.burstComplete ≠ 1) :
    let next := Ctx.streamPacket posix ⟨s.session, ⟨s.fs, errno⟩, stack⟩ room
    DataPacket content s.session next.2 ∧ ok next.2.world.fs ∧
      ((next.2.session.streamDownload = true ∧ next.2.payload.burstComplete ≠ 1 ∧
          (next.1 → messageSize ≤ room)) ∨
        (next.1 = false ∧ next.2.session.streamDownload = false ∧
          next.2.payload.burstComplete = 1)) := by
  intro next
  let c : Ctx F :=
    ⟨{ s.session with streamSeqNumber := s.session.streamSeqNumber + 1 }, ⟨s.fs, errno⟩,
      streamHeader s.session stack⟩
  rcases streamRead_data (c := c) hfile h.fs h.fd rfl hmore (h.offset_lt hmore) with ⟨w, hw, hread⟩
  let c' : Ctx F := Ctx.gotData { c with world := w } (nextBytes content s.session)
  have hnext : next = c'.streamAck room := by
    simp only [next, Ctx.streamPacket]
    rw [hread]
    rfl
  -- the size is one byte, and the data of a packet is shorter than that
  have hsize : c'.payload.size.toNat = (nextBytes content s.session).length := by
    have hle : (nextBytes content s.session).length ≤ kMaxDataLength := List.length_take_le _ _
    show (UInt8.ofNat (nextBytes content s.session).length).toNat = _
    rw [UInt8.toNat_ofNat']
    unfold kMaxDataLength at hle
    omega
  have hpacket : DataPacket content s.session c' := by
    refine ⟨rfl, rfl, rfl, ?_, rfl, rfl, rfl, rfl⟩
    rw [hsize]
    exact load_store_append (streamHeader s.session stack).data 0 [] _
  have hstream : c'.session.streamDownload = true := h.streamDownload
  have hmessage : getSize c'.session = messageSize := by
    rw [getSize, if_pos hstream]
  rw [hnext, Ctx.streamAck, hmessage]
  by_cases hroom : room < messageSize * 2
  · rw [if_pos hroom]
    by_cases hchunk : 35000 < c'.session.streamChunkTransmitted.toNat
    · -- the chunk is complete
      rw [if_pos hchunk]
      exact ⟨⟨hpacket.ack, hpacket.seqNumber, hpacket.offset, hpacket.data, hpacket.nextSeqNumber,
        hpacket.nextOffset, hpacket.fd, hpacket.fileSize⟩, hw, Or.inr ⟨rfl, rfl, rfl⟩⟩
    · -- no room for another packet: `burst_complete` is what it was on the stack
      rw [if_neg hchunk]
      exact ⟨hpacket, hw, Or.inl ⟨hstream, hbyte hroom (Nat.le_of_not_lt hchunk), by simp⟩⟩
  · rw [if_neg hroom]
    refine ⟨⟨hpacket.ack, hpacket.seqNumber, hpacket.offset, hpacket.data, hpacket.nextSeqNumber,
      hpacket.nextOffset, hpacket.fd, hpacket.fileSize⟩, hw,
      -- there is room for another packet, and `burst_complete` is set to 0
      Or.inl ⟨hstream, show (0 : UInt8) ≠ 1 by decide, ?_⟩⟩
    intro _
    omega

theorem Active.chunks_snoc {s : Server F} {rs : List Reply} (h : Active fd content ok o q s rs)
    {r : Reply}
    (hr : IsChunk content s.session.streamOffset.toNat s.session.streamSeqNumber r) :
    Chunks content o q (rs ++ [r]) := by
  rw [h.streamOffset, h.streamSeqNumber] at hr
  exact h.chunks.snoc hr

theorem Active.snoc {s s' : Server F} {rs : List Reply} (h : Active fd content ok o q s rs)
    {c : Ctx F} (hpacket : DataPacket content s.session c) (hbyte : c.payload.burstComplete ≠ 1)
    (hwrap : s.session.streamOffset.toNat + (nextBytes content s.session).length < 2 ^ 32)
    (hstream : c.session.streamDownload = true) (hok : ok c.world.fs)
    (hsession : s'.session = c.session) (hfs : s'.fs = c.world.fs) (sys comp : UInt8) :
    Active fd content ok o q s' (rs ++ [c.payload.toReply sys comp]) := by
  have hdata : (c.payload.toReply sys comp).data = nextBytes content s.session := hpacket.data
  refine ⟨h.chunks_snoc (hpacket.isChunk sys comp), ?_, ?_, ?_, ?_, ?_, ?_, ?_⟩
  · intro r hr
    rcases List.mem_append.1 hr with hr | hr
    · exact h.incomplete r hr
    · rw [List.mem_singleton.1 hr]
      exact hbyte
  · rw [hsession, hstream]
  · rw [hsession, hpacket.fd, h.fd]
  · rw [hsession, hpacket.fileSize, h.fileSize]
  -- the one place where the offset could wrap
  · have hlen : (UInt32.ofNat (nextBytes content s.session).length).toNat =
        (nextBytes content s.session).length := by
      rw [UInt32.toNat_ofNat']
      omega
    calc
      s'.session.streamOffset.toNat
          = s.session.streamOffset.toNat + (nextBytes content s.session).length := by
            rw [hsession, hpacket.nextOffset, UInt32.toNat_add, hlen, Nat.mod_eq_of_lt hwrap]
      _ = o + (sentBytes (rs ++ [c.payload.toReply sys comp])).length := by
            simp [h.streamOffset, sentBytes, hdata, Nat.add_assoc]
  · calc
      s'.session.streamSeqNumber
          = q + UInt16.ofNat rs.length + 1 := by
            rw [hsession, hpacket.nextSeqNumber, h.streamSeqNumber]
      _ = q + UInt16.ofNat (rs ++ [c.payload.toReply sys comp]).length := by
            rw [List.length_append, List.length_singleton, UInt16.ofNat_add, UInt16.add_assoc]
            rfl
  · rw [hfs]
    exact hok

theorem packet_eof (posix : Posix F) {s : Server F} {rs : List Reply} {errno room : ℕ}
    {stack : Payload} (h : Active fd content ok o q s rs)
    (heof : s.session.fileSize ≤ s.session.streamOffset) (hbyte : stack.burstComplete ≠ 1) :
    let next := Ctx.streamPacket posix ⟨s.session, ⟨s.fs, errno⟩, stack⟩ room
    let sent := s.sendPacket next.2
    next.1 = false ∧ sent.1.session.streamDownload = false ∧
      Stopped content o q (rs ++ sent.2) := by
  intro next sent
  -- neither the file nor the room plays a part: the offset alone ends the stream
  have hnext : next = (false, next.2) := by
    simp only [next, Ctx.streamPacket, Ctx.streamRead, if_pos heof]
  have hpayload : next.2.payload.opcode = kRspNak ∧
      next.2.payload.burstComplete = stack.burstComplete ∧
      next.2.session.streamDownload = false := by
    simp only [next, Ctx.streamPacket, Ctx.streamRead, if_pos heof]
    simp [Ctx.streamNak, streamHeader, Payload.setData]
  rcases hpayload with ⟨hnak, hkept, hstop⟩
  rcases sendPacket_eq s next.2 with ⟨hsession, -, hreply⟩
  have hsent : sent.2 = _ := hreply
  refine ⟨by rw [hnext], by rw [← hstop, ← hsession], ?_⟩
  rw [hsent]
  refine .nak rs _ rfl h.chunks ?_ hnak
  intro r hr
  rcases List.mem_append.1 hr with hr | hr
  · exact h.incomplete r hr
  · rw [List.mem_singleton.1 hr]
    rw [← hkept] at hbyte
    exact hbyte

/-- One round keeps the invariant, and if another one follows, the stream is still under way. -/
theorem packet_progress {posix : Posix F} (hfile : ReadsFile posix fd content ok) {s : Server F}
    {rs : List Reply} {errno room : ℕ} {stack : Payload} (h : Active fd content ok o q s rs)
    (hpacket : PacketOk content.length s.session room stack) :
    let next := Ctx.streamPacket posix ⟨s.session, ⟨s.fs, errno⟩, stack⟩ room
    let sent := s.sendPacket next.2
    Progress fd content ok o q sent.1 (rs ++ sent.2) ∧
      (next.1 → Active fd content ok o q sent.1 (rs ++ sent.2) ∧ messageSize ≤ room) := by
  intro next sent
  by_cases hmore : s.session.fileSize ≤ s.session.streamOffset
  · rw [PacketOk, if_pos hmore] at hpacket
    have heof : next.1 = false ∧ sent.1.session.streamDownload = false ∧
        Stopped content o q (rs ++ sent.2) := packet_eof posix h hmore hpacket
    rcases heof with ⟨hlast, hstop, hstopped⟩
    refine ⟨Or.inr ⟨hstop, hstopped⟩, ?_⟩
    intro hnext
    rw [hlast] at hnext
    cases hnext
  · rw [PacketOk, if_neg hmore, ← length_nextBytes] at hpacket
    -- inside the file: a packet with data, the last one or not
    have hround : DataPacket content s.session next.2 ∧ ok next.2.world.fs ∧ _ :=
      streamPacket_data hfile h hmore hpacket.2
    rcases hround with ⟨hdata, hok, hgoes⟩
    rcases sendPacket_eq s next.2 with ⟨hsession, hfs, hreply⟩
    have hsent : sent.2 = _ := hreply
    rw [hsent]
    rcases hgoes with ⟨hstream, hbyte, hroom⟩ | ⟨hlast, hstop, hbyte⟩
    · have hactive : Active fd content ok o q sent.1 _ :=
        h.snoc hdata hbyte hpacket.1 hstream hok hsession hfs
          next.2.session.streamTargetSystemId next.2.session.streamTargetComponentId
      exact ⟨Or.inl hactive, fun hnext => ⟨hactive, hroom hnext⟩⟩
    · refine ⟨Or.inr ⟨by rw [hsession, hstop], ?_⟩, ?_⟩
      · exact .complete rs _ rfl (h.chunks_snoc (hdata.isChunk _ _)) h.incomplete hbyte
      · intro hnext
        rw [hlast] at hnext
        cases hnext

/-! ## One call of `send` -/

/-- The loop of `send`, by induction on the room that is left. -/
theorem sendLoop_progress {posix : Posix F} (hfile : ReadsFile posix fd content ok) {env : Env} :
    ∀ (room i : ℕ) (s : Server F) (errno : ℕ) (rs : List Reply),
      Active fd content ok o q s rs → RoundsOk posix env content.length room i s errno →
        Progress fd content ok o q (Server.sendLoop posix env room i s errno).1
          (rs ++ (Server.sendLoop posix env room i s errno).2) := by
  intro room
  induction room using Nat.strong_induction_on with
  | _ room ih =>
      intro i s errno rs hactive hok
      rw [RoundsOk] at hok
      rcases hok with ⟨hpacket, hrest⟩
      rcases packet_progress hfile hactive hpacket with ⟨hprogress, hmore⟩
      rw [Server.sendLoop]
      by_cases hnext : (Ctx.streamPacket posix ⟨s.session, ⟨s.fs, errno⟩, env.stack i⟩ room).1 ∧
          messageSize ≤ room
      · rw [dif_pos hnext] at hrest ⊢
        -- each further round has one message less of room
        rcases hmore hnext.1 with ⟨hactive', hroom⟩
        have hlt : room - messageSize < room := Nat.sub_lt_of_pos_le (by decide) hroom
        have hloop := ih _ hlt (i + 1) _ _ _ hactive' hrest
        simpa [List.append_assoc] using hloop
      · rw [dif_neg hnext]
        exact hprogress

/-- A call that does not close the session only gives up its buffers before it sends. -/
theorem housekeeping_keeps {posix : Posix F} {env : Env} {s : Server F}
    (h : ¬ClosesSession env s) :
    (s.housekeeping posix env).session = s.session ∧ (s.housekeeping posix env).fs = s.fs := by
  unfold Server.housekeeping
  split
  · split <;> exact ⟨rfl, rfl⟩
  · rename_i hbuffers
    split
    · rename_i hidle
      -- the branch that closes the session
      exact absurd ⟨hbuffers, hidle.1, hidle.2⟩ h
    · exact ⟨rfl, rfl⟩

/-- Where nothing is streamed, nothing is after it either, also when the session is closed. -/
theorem housekeeping_stopped {posix : Posix F} {env : Env} {s : Server F}
    (h : s.session.streamDownload = false) :
    (s.housekeeping posix env).session.streamDownload = false := by
  unfold Server.housekeeping
  split
  · split <;> exact h
  · split
    · rfl
    · exact h

theorem Active.congr {s s' : Server F} {rs : List Reply} (h : Active fd content ok o q s rs)
    (hsession : s'.session = s.session) (hfs : s'.fs = s.fs) :
    Active fd content ok o q s' rs where
  chunks := h.chunks
  incomplete := h.incomplete
  streamDownload := by rw [hsession, h.streamDownload]
  fd := by rw [hsession, h.fd]
  fileSize := by rw [hsession, h.fileSize]
  streamOffset := by rw [hsession, h.streamOffset]
  streamSeqNumber := by rw [hsession, h.streamSeqNumber]
  fs := by
    rw [hfs]
    exact h.fs

/-- One call of `send` keeps the invariant. -/
theorem send_progress {posix : Posix F} (hfile : ReadsFile posix fd content ok) {env : Env}
    {s : Server F} {sent : List Reply} (h : Progress fd content ok o q s sent)
    (hok : SendOk posix content.length s env) :
    Progress fd content ok o q (s.send posix env).1 (sent ++ (s.send posix env).2) := by
  unfold Server.send
  rcases h with hactive | ⟨hstop, hstopped⟩
  · rcases hok hactive.streamDownload with ⟨hopen, hrounds⟩
    have hkeeps : (s.housekeeping posix env).session = s.session ∧ _ := housekeeping_keeps hopen
    rcases hkeeps with ⟨hsession, hfs⟩
    have hactive' := hactive.congr hsession hfs
    have hstream := hactive'.streamDownload
    -- `get_size` is that of one message as long as there is a stream
    have hmessage : getSize (s.housekeeping posix env).session = messageSize := by
      rw [getSize, if_pos hstream]
    simp only [hstream, hmessage, not_true_eq_false, if_false]
    by_cases hroom : env.freeTxBuf < messageSize
    · rw [if_pos hroom]
      rw [List.append_nil]
      exact Or.inl hactive'
    · rw [if_neg hroom]
      exact sendLoop_progress hfile _ _ _ _ _ hactive'
        (hrounds (Nat.le_of_not_lt hroom))
  · have hstop' : (s.housekeeping posix env).session.streamDownload = false :=
      housekeeping_stopped hstop
    simp only [hstop', Bool.false_eq_true, not_false_eq_true, if_true, List.append_nil]
    exact Or.inr ⟨hstop', hstopped⟩

end

/-! ## Runs of `send` -/

/-- The server after one call of `send`. -/
def sendStep (posix : Posix F) (s : Server F) (env : Env) : Server F := (s.send posix env).1

/-- A call of `send`, with the packets that were sent so far. -/
def burstStep (posix : Posix F) : Server F × List Reply → Env → Server F × List Reply :=
  historyStep (sendStep posix) fun s env sent => sent ++ (s.send posix env).2

/-- The request starts a burst: it reaches `_workBurst`, and a file is open. -/
structure AcceptedBurst (cfg : Config) (env : Env) (s : Server F) (msg : Message) : Prop where
  addressed : msg.Addressed cfg
  buffers : (s.ensureBuffersExist env).buffersExist
  size : msg.payload.size.toNat ≤ kMaxDataLength
  new : ¬s.resent msg.payload
  opcode : Command.ofCode? msg.payload.opcode = some .burstReadFile
  opened : 0 ≤ s.session.fd

theorem AcceptedBurst.active {posix : Posix F} {cfg : Config} {env : Env} {s : Server F}
    {msg : Message} (h : AcceptedBurst cfg env s msg) {content : List UInt8} {ok : F → Prop}
    (hfs : ok s.fs) (hsize : s.session.fileSize = UInt32.ofNat content.length) :
    Active s.session.fd content ok msg.payload.offset.toNat (msg.payload.seqNumber + 1)
      (s.handleMessage posix cfg env msg).1 [] := by
  -- with a file open the guard of `_workBurst` lets every session number through
  have haccepted : ¬(msg.payload.session ≠ 0 ∧ s.session.fd < 0) := by
    rintro ⟨-, hclosed⟩
    exact absurd h.opened (Int.not_le.2 hclosed)
  rw [Server.handleMessage, if_pos h.addressed,
    Server.processRequest_burst h.buffers h.size h.new h.opcode haccepted]
  refine ⟨trivial, by simp, rfl, rfl, hsize, rfl, ?_, hfs⟩
  simp [Server.streaming, SessionInfo.startStream]

/-- The packets of a burst, in every run of `send` all of whose calls are as they should be. -/
theorem burst_law (posix : Posix F) (cfg : Config) {env : Env} {s : Server F} {msg : Message}
    (hburst : AcceptedBurst cfg env s msg) {content : List UInt8} {ok : F → Prop}
    (hfile : ReadsFile posix s.session.fd content ok) (hfs : ok s.fs)
    (hsize : s.session.fileSize = UInt32.ofNat content.length) (envs : List Env)
    (hok : AllSteps (sendStep posix) (SendOk posix content.length)
      (s.handleMessage posix cfg env msg).1 envs) :
    ∀ p ∈ visited (burstStep posix) ((s.handleMessage posix cfg env msg).1, []) envs,
      BurstLaw content msg.payload.offset.toNat (msg.payload.seqNumber + 1)
        (p.1.session.streamDownload = false) p.2 := by
  intro p hp
  have hsteps : AllSteps (burstStep posix) (fun p env => SendOk posix content.length p.1 env)
      ((s.handleMessage posix cfg env msg).1, []) envs :=
    (allSteps_historyStep _ _ _ _ _).2 hok
  have hstart : Progress s.session.fd content ok msg.payload.offset.toNat
      (msg.payload.seqNumber + 1) (s.handleMessage posix cfg env msg).1 [] :=
    Or.inl (hburst.active hfs hsize)
  have hstep : ∀ (p : Server F × List Reply) (env : Env),
      Progress s.session.fd content ok msg.payload.offset.toNat (msg.payload.seqNumber + 1) p.1
        p.2 → SendOk posix content.length p.1 env →
      Progress s.session.fd content ok msg.payload.offset.toNat (msg.payload.seqNumber + 1)
        (burstStep posix p env).1 (burstStep posix p env).2 := by
    intro p env hp hok
    exact send_progress hfile hp hok
  exact (invariant_of_allSteps hstep hstart hsteps p hp).burstLaw

/-! ## Runs on files -/

/-- An operating system with one file, which is open for reading; its state is the place in it. -/
def oneFile (content : List UInt8) : Posix ℕ where
  stat _ w := (some ⟨content.length, true, false⟩, w)
  openFile _ _ w := (3, { w with fs := 0 })
  close _ w := w
  lseek _ o w := (true, { w with fs := o })
  read _ n w :=
    (some ((content.drop w.fs).take n),
      { w with fs := w.fs + ((content.drop w.fs).take n).length })
  write _ _ w := (-1, w)
  unlink _ w := (false, { w with errno := erofs })
  rename _ _ w := (false, { w with errno := erofs })
  truncate _ _ w := (false, { w with errno := erofs })
  mkdir _ w := (false, { w with errno := erofs })
  rmdir _ w := (false, { w with errno := erofs })
  opendir _ w := (none, { w with errno := enoent })
  readdir _ w := (none, w)
  closedir _ w := w
  crc32part _ checksum := checksum
  read_length_le h := by
    cases h
    exact List.length_take_le _ _
  remaining _ w := content.length - w.fs
  remaining_read_lt hn h hlen := by
    cases h
    simp only [List.length_take, List.length_drop] at hlen ⊢
    omega

theorem oneFile_readsFile (fd : ℤ) (content : List UInt8) :
    ReadsFile (oneFile content) fd content fun _ => True where
  seek _ _ _ _ := rfl
  read _ _ _ _ _ := rfl
  keeps _ _ _ _ _ := trivial

def threeBytes : List UInt8 := [10, 20, 30]

/-- The server with the file open. -/
def readingServer : Server ℕ :=
  { openServer 0 with session := { fd := 3, fileSize := 3 } }

/-- A call of `send` with room for one packet, and `b` under `burst_complete` on its stack. -/
def sendEnv (b : UInt8) : Env :=
  { quietEnv with
    freeTxBuf := 300
    stack := fun _ => { terminateRequest 0 with burstComplete := b } }

theorem round_last {posix : Posix F} {env : Env} {len room i errno : ℕ} {s : Server F} {c : Ctx F}
    (h : Ctx.streamPacket posix ⟨s.session, ⟨s.fs, errno⟩, env.stack i⟩ room = (false, c))
    (hpacket : PacketOk len s.session room (env.stack i)) :
    RoundsOk posix env len room i s errno ∧
      Server.sendLoop posix env room i s errno = s.sendPacket c := by
  have hnone : ¬((Ctx.streamPacket posix ⟨s.session, ⟨s.fs, errno⟩, env.stack i⟩ room).1 ∧
      messageSize ≤ room) := by
    rw [h]
    simp
  rw [RoundsOk, Server.sendLoop, dif_neg hnone, dif_neg hnone, h]
  exact ⟨⟨hpacket, trivial⟩, rfl⟩

theorem round_more {posix : Posix F} {env : Env} {len room i errno : ℕ} {s : Server F} {c : Ctx F}
    (h : Ctx.streamPacket posix ⟨s.session, ⟨s.fs, errno⟩, env.stack i⟩ room = (true, c))
    (hpacket : PacketOk len s.session room (env.stack i)) (hroom : messageSize ≤ room) :
    (RoundsOk posix env len (room - messageSize) (i + 1) (s.sendPacket c).1 c.world.errno →
        RoundsOk posix env len room i s errno) ∧
      (Server.sendLoop posix env room i s errno).1 =
        (Server.sendLoop posix env (room - messageSize) (i + 1) (s.sendPacket c).1
          c.world.errno).1 := by
  have hnext : (Ctx.streamPacket posix ⟨s.session, ⟨s.fs, errno⟩, env.stack i⟩ room).1 ∧
      messageSize ≤ room := ⟨by rw [h], hroom⟩
  constructor
  · intro hrest
    rw [RoundsOk, dif_pos hnext, h]
    exact ⟨hpacket, hrest⟩
  · rw [Server.sendLoop, dif_pos hnext, h]

/-- The server was used a short while ago. -/
def RecentlyUsed (env : Env) (s : Server F) : Prop :=
  s.workBuffer1 = true ∧ ¬2000000 < env.now - s.lastWorkBufferAccess

instance (env : Env) (s : Server F) : Decidable (RecentlyUsed env s) :=
  inferInstanceAs (Decidable (_ ∧ _))

theorem RecentlyUsed.housekeeping {posix : Posix F} {env : Env} {s : Server F}
    (h : RecentlyUsed env s) : s.housekeeping posix env = s := by
  rw [Server.housekeeping, if_pos (Or.inl h.1), if_neg h.2]

theorem sendStep_stream {posix : Posix F} {env : Env} {s : Server F} (h : RecentlyUsed env s)
    (hstream : s.session.streamDownload = true) (hroom : messageSize ≤ env.freeTxBuf) :
    sendStep posix s env = (Server.sendLoop posix env env.freeTxBuf 0 s env.errno).1 := by
  have hsize : getSize s.session = messageSize := if_pos hstream
  rw [sendStep, Server.send, h.housekeeping, if_neg (not_not_intro hstream), hsize,
    if_neg (Nat.not_lt.2 hroom)]

theorem sendStep_full {posix : Posix F} {env : Env} {s : Server F} (h : RecentlyUsed env s)
    (hstream : s.session.streamDownload = true) (hroom : env.freeTxBuf < messageSize) :
    sendStep posix s env = s := by
  have hsize : getSize s.session = messageSize := if_pos hstream
  rw [sendStep, Server.send, h.housekeeping, if_neg (not_not_intro hstream), hsize, if_pos hroom]

theorem sendStep_stopped {posix : Posix F} {env : Env} {s : Server F}
    (h : s.session.streamDownload = false) :
    (sendStep posix s env).session.streamDownload = false := by
  have hstop : (s.housekeeping posix env).session.streamDownload = false := housekeeping_stopped h
  rw [sendStep, Server.send, if_pos (by simp [hstop])]
  exact hstop

theorem call_one {posix : Posix F} {env : Env} {len : ℕ} {s : Server F} {c : Ctx F}
    (hused : RecentlyUsed env s) (hstream : s.session.streamDownload = true)
    (hroom : messageSize ≤ env.freeTxBuf)
    (h : Ctx.streamPacket posix ⟨s.session, ⟨s.fs, env.errno⟩, env.stack 0⟩ env.freeTxBuf =
      (false, c))
    (hpacket : PacketOk len s.session env.freeTxBuf (env.stack 0)) :
    SendOk posix len s env ∧ sendStep posix s env = (s.sendPacket c).1 := by
  rcases round_last h hpacket with ⟨hrounds, hloop⟩
  rw [sendStep_stream hused hstream hroom, hloop]
  refine ⟨fun _ => ⟨fun hcloses => hcloses.1 (Or.inl hused.1), fun _ => ?_⟩, rfl⟩
  rw [hused.housekeeping]
  exact hrounds

theorem call_two {posix : Posix F} {env : Env} {len errno : ℕ} {s s' : Server F} {c c' : Ctx F}
    (hused : RecentlyUsed env s) (hstream : s.session.streamDownload = true)
    (hroom : messageSize ≤ env.freeTxBuf) (hs' : (s.sendPacket c).1 = s')
    (herrno : c.world.errno = errno)
    (h : Ctx.streamPacket posix ⟨s.session, ⟨s.fs, env.errno⟩, env.stack 0⟩ env.freeTxBuf =
      (true, c))
    (hpacket : PacketOk len s.session env.freeTxBuf (env.stack 0))
    (h' : Ctx.streamPacket posix ⟨s'.session, ⟨s'.fs, errno⟩, env.stack 1⟩
      (env.freeTxBuf - messageSize) = (false, c'))
    (hpacket' : PacketOk len s'.session (env.freeTxBuf - messageSize) (env.stack 1)) :
    SendOk posix len s env ∧ sendStep posix s env = (s'.sendPacket c').1 := by
  subst hs' herrno
  rcases round_last h' hpacket' with ⟨hrounds', hloop'⟩
  rcases round_more h hpacket hroom with ⟨hrounds, hloop⟩
  rw [sendStep_stream hused hstream hroom, hloop, hloop']
  refine ⟨fun _ => ⟨fun hcloses => hcloses.1 (Or.inl hused.1), fun _ => ?_⟩, rfl⟩
  rw [hused.housekeeping]
  exact hrounds hrounds'

/-- A file of 600 bytes, for three packets. -/
def sixHundred : List UInt8 := (List.range 600).map UInt8.ofNat

def burstServer : Server ℕ :=
  { openServer 0 with session := { fd := 3, fileSize := 600 } }

theorem burstServer_accepted : AcceptedBurst posixConfig quietEnv burstServer burstMessage where
  addressed := ⟨Or.inl rfl, Or.inl rfl⟩
  buffers := rfl
  size := by decide
  new := by decide
  opcode := rfl
  opened := by decide

/-- A call of `send` at this time, with this room. -/
def callEnv (now room : ℕ) : Env := { sendEnv 0 with now := now, freeTxBuf := room }

/-- Two packets and then a third have room, a fourth is the NAK at the end of the file; later the
buffers are given up, and then the session. -/
def sixHundredRun : List Env :=
  [callEnv 0 600, callEnv 0 100, callEnv 0 300, callEnv 0 300, callEnv 3000000 300,
    callEnv 11000000 300]

/-- A round with this room. -/
def sixHundredRound (s : Server ℕ) (room : ℕ) : Bool × Ctx ℕ :=
  Ctx.streamPacket (oneFile sixHundred) ⟨s.session, ⟨s.fs, 0⟩, (sendEnv 0).stack 0⟩ room

/-- The server after rounds with this room. -/
def sixHundredAfter (rooms : List ℕ) : Server ℕ :=
  rooms.foldl (fun s room => (s.sendPacket (sixHundredRound s room).2).1)
    (burstServer.handleMessage (oneFile sixHundred) posixConfig quietEnv burstMessage).1

theorem sixHundredAfter_snoc (rooms : List ℕ) (room : ℕ) :
    sixHundredAfter (rooms ++ [room]) =
      ((sixHundredAfter rooms).sendPacket (sixHundredRound (sixHundredAfter rooms) room).2).1 := by
  simp only [sixHundredAfter, List.foldl_append, List.foldl_cons, List.foldl_nil]

set_option maxRecDepth 10000 in
/-- The file comes in three packets, none of which is marked, and the session is closed after
them. -/
theorem sixHundred_burst_law :
    AllSteps (sendStep (oneFile sixHundred)) (SendOk (oneFile sixHundred) sixHundred.length)
        (burstServer.handleMessage (oneFile sixHundred) posixConfig quietEnv burstMessage).1
        sixHundredRun ∧
      ∀ p ∈ visited (burstStep (oneFile sixHundred))
        ((burstServer.handleMessage (oneFile sixHundred) posixConfig quietEnv burstMessage).1, [])
        sixHundredRun,
        BurstLaw sixHundred 0 8 (p.1.session.streamDownload = false) p.2 := by
  have hused : ∀ rooms ∈ [[], [600, 334], [600, 334, 300]], ∀ room,
      RecentlyUsed (callEnv 0 room) (sixHundredAfter rooms) ∧
        (sixHundredAfter rooms).session.streamDownload = true := by
    intro rooms hrooms room
    have hall : ∀ rooms ∈ [[], [600, 334], [600, 334, 300]],
        (sixHundredAfter rooms).workBuffer1 = true ∧
          (sixHundredAfter rooms).session.streamDownload = true := by
      decide +kernel
    rcases hall rooms hrooms with ⟨hbuffer, hstream⟩
    refine ⟨⟨hbuffer, ?_⟩, hstream⟩
    have hnow : (callEnv 0 room).now - (sixHundredAfter rooms).lastWorkBufferAccess = 0 :=
      Nat.zero_sub _
    omega
  have hround : ∀ e ∈ [([], 600, true), ([600], 334, false), ([600, 334], 300, false),
      ([600, 334, 300], 300, false)],
      (sixHundredRound (sixHundredAfter e.1) e.2.1).1 = e.2.2 ∧
        (sixHundredRound (sixHundredAfter e.1) e.2.1).2.world.errno = 0 ∧
        PacketOk sixHundred.length (sixHundredAfter e.1).session e.2.1 ((sendEnv 0).stack 0) := by
    decide +kernel
  have hfirst : SendOk (oneFile sixHundred) sixHundred.length (sixHundredAfter []) (callEnv 0 600) ∧
      sendStep (oneFile sixHundred) (sixHundredAfter []) (callEnv 0 600) =
        sixHundredAfter ([600] ++ [334]) := by
    rcases hround ([], 600, true) (by simp) with ⟨hmore, herrno, hpacket⟩
    rcases hround ([600], 334, false) (by simp) with ⟨hlast, -, hpacket'⟩
    rcases hused [] (by simp) 600 with ⟨hrecent, hstream⟩
    rw [sixHundredAfter_snoc [600] 334]
    exact call_two hrecent hstream (by decide) (sixHundredAfter_snoc [] 600).symm herrno
      (Prod.ext hmore rfl) hpacket (Prod.ext hlast rfl) hpacket'
  have hlater : ∀ rooms ∈ [[600, 334], [600, 334, 300]],
      SendOk (oneFile sixHundred) sixHundred.length (sixHundredAfter rooms) (callEnv 0 300) ∧
      sendStep (oneFile sixHundred) (sixHundredAfter rooms) (callEnv 0 300) =
        sixHundredAfter (rooms ++ [300]) := by
    intro rooms hrooms
    rcases hround (rooms, 300, false) (by simpa using hrooms) with ⟨hlast, -, hpacket⟩
    rcases hused rooms (List.mem_cons_of_mem _ hrooms) 300 with ⟨hrecent, hstream⟩
    rw [sixHundredAfter_snoc]
    exact call_one hrecent hstream (by decide) (Prod.ext hlast rfl) hpacket
  have hstopped : (sixHundredAfter [600, 334, 300, 300]).session.streamDownload = false := by
    decide +kernel
  have hok :
      AllSteps (sendStep (oneFile sixHundred)) (SendOk (oneFile sixHundred) sixHundred.length)
      (sixHundredAfter []) sixHundredRun := by
    refine ⟨hfirst.1, ?_⟩
    rw [hfirst.2, List.cons_append, List.nil_append]
    -- no room
    refine ⟨fun _ => ⟨fun hcloses => hcloses.1 (Or.inl (hused [600, 334] (by simp) 100).1.1),
      fun hroom => absurd hroom (by decide)⟩, ?_⟩
    rw [sendStep_full (hused [600, 334] (by simp) 100).1 (hused [600, 334] (by simp) 100).2
      (by decide)]
    refine ⟨(hlater [600, 334] (by simp)).1, ?_⟩
    rw [(hlater [600, 334] (by simp)).2, List.cons_append, List.cons_append, List.nil_append]
    refine ⟨(hlater [600, 334, 300] (by simp)).1, ?_⟩
    rw [(hlater [600, 334, 300] (by simp)).2, List.cons_append, List.cons_append, List.cons_append,
      List.nil_append]
    -- nothing is streamed any more
    refine ⟨fun hstream => ?_, fun hstream => ?_, trivial⟩
    · exact absurd hstream (by simp [hstopped])
    · exact absurd hstream (by simp [sendStep_stopped hstopped])
  exact ⟨hok, burst_law (oneFile sixHundred) posixConfig burstServer_accepted
    (oneFile_readsFile 3 sixHundred) trivial (by decide +kernel) sixHundredRun hok⟩

/-- With a one on the stack, the packet is marked, and the stream goes on. -/
theorem threeBytes_marked :
    ¬∀ p ∈ visited (burstStep (oneFile threeBytes))
      ((readingServer.handleMessage (oneFile threeBytes) posixConfig quietEnv burstMessage).1, [])
      [sendEnv 1],
      BurstLaw threeBytes 0 8 (p.1.session.streamDownload = false) p.2 := by
  intro h
  let s : Server ℕ :=
    (readingServer.handleMessage (oneFile threeBytes) posixConfig quietEnv burstMessage).1
  let round : Bool × Ctx ℕ :=
    Ctx.streamPacket (oneFile threeBytes) ⟨s.session, ⟨s.fs, 0⟩, (sendEnv 1).stack 0⟩ 300
  -- the loop ends after one round, since 300 bytes are no room for a second message
  have hsend : s.send (oneFile threeBytes) (sendEnv 1) = s.sendPacket round.2 := by
    show Server.sendLoop (oneFile threeBytes) (sendEnv 1) 300 0 s 0 = _
    rw [Server.sendLoop, dif_neg]
    rintro ⟨hmore, -⟩
    cases hmore
  have hlaw := h (burstStep (oneFile threeBytes) (s, []) (sendEnv 1)) (by simp [s])
  have hstopped := ((hlaw.complete [] _ [] (by
    show [] ++ (s.send (oneFile threeBytes) (sendEnv 1)).2 = _
    rw [hsend]
    rfl)).1 rfl).2.2.1
  have hstream : (s.send (oneFile threeBytes) (sendEnv 1)).1.session.streamDownload = true := by
    rw [hsend]
    rfl
  have : (s.send (oneFile threeBytes) (sendEnv 1)).1.session.streamDownload = false := hstopped
  rw [hstream] at this
  cases this

end Ftp
end DtPhm
