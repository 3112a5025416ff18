import DtPhm.Replay.FileReader

/-!
# FilePositions — a reader stays in its message

What the readers of a log use of `_read_buffer`, and where they leave the file, whatever is in it.

* `HandledMessage.Ends` — where the file is behind a message that has been handled;
* `MessageAt.Short` — a message that does not hold what its reader uses;
* `Reader.Sound`, `Reader.Handles` — the invariant, and what the readers of one message do;
* `reads_messages` — all three loops read message by message.
-/

namespace DtPhm
namespace Replay

open Lib

/-! ## Messages -/

/-- The header of the message is in the file. -/
def MessageAt.In (m : MessageAt) (content : List UInt8) : Prop :=
  Header.ofBytes ((content.drop m.position).take ulogMsgHeaderLen) = some m.header

/-- The body is cut off, or shorter than what is read of it: the flags, the IDs in front of a name,
or a key with the four bytes of its value. -/
inductive MessageAt.Short (m : MessageAt) (content : List UInt8) : Prop
  | flagBits (htype : m.header.msgType = .flagBits) (h : content.length < m.body + 40)
  | addLoggedMsg (htype : m.header.msgType = .addLoggedMsg) (h : m.header.msgSize < 3)
  | parameter (htype : m.header.msgType = .parameter)
      (h : ∀ keyLen, content[m.body]? = some keyLen → m.header.msgSize < 1 + keyLen.toNat + 4)

/-- Where the file is when a message has been handled: the read has failed, or it is at the next
message. Flags of another size are refused.  The search for the messages of a subscription ends
behind the timestamp of the one that it has found, whose position is noted down.  Nothing is said of
dropouts of another size. -/
inductive HandledMessage.Ends (h : HandledMessage) : Prop
  | failed (hfail : h.file.fail = true)
  | next (hpos : h.file.pos = h.message.next)
  | refused (htype : h.message.header.msgType = .flagBits) (hsize : h.message.header.msgSize ≠ 40)
      (hok : h.ok = false)
  | dropout (htype : h.message.header.msgType = .dropout) (hsize : h.message.header.msgSize ≠ 2)
  | found {sub : Subscription} (hfound : h.found = some sub)
      (hposition : sub.nextReadPos = h.message.position)
      (hpos : h.file.pos = h.message.body + 2 + sub.timestampOffset + 8)

/-- Of the messages of a file, each one is left where it ends, and no more bytes are used than were
read unless it is short; and the reader comes to an end. -/
structure ReadsMessages (content : List UInt8) (r : Reader) (outcome : Outcome) : Prop where
  handled : ∀ h ∈ r.handled, h.message.In content ∧ h.Ends
  stale : ∀ m ∈ r.stale, m.In content ∧ m.Short content
  ends : outcome ≠ .outOfFuel

/-- Definitions that are read end behind the header of the first subscription, whose position is
noted down. -/
def FindsDataSection (content : List UInt8) (p : Reader × Outcome) : Prop :=
  p.2 = .returns true → ∃ m : MessageAt, m.In content ∧ m.header.msgType = .addLoggedMsg ∧
    p.1.dataSectionStart = m.position ∧ p.1.file.pos = m.body

/-! ## Headers -/

theorem length_of_ofBytes {bytes : List UInt8} {header : Header}
    (h : Header.ofBytes bytes = some header) : bytes.length = ulogMsgHeaderLen := by
  unfold Header.ofBytes at h
  split at h
  · rfl
  · cases h

theorem readHeader_some {file file' : Stream} {header : Header}
    (h : readHeader file = (some header, file')) :
    file.good = true ∧ file' = { file with pos := file.pos + ulogMsgHeaderLen } ∧
      file.pos + ulogMsgHeaderLen ≤ file.content.length ∧
      MessageAt.In ⟨file.pos, header⟩ file.content := by
  have hheader : Header.ofBytes (file.read ulogMsgHeaderLen).1 = some header := congrArg Prod.fst h
  have hfile : (file.read ulogMsgHeaderLen).2 = file' := congrArg Prod.snd h
  have hlength := length_of_ofBytes hheader
  have hgood : file.good = true := by
    by_contra hgood
    rw [Stream.read, if_neg hgood] at hlength
    cases hlength
  -- a read that fails has fewer bytes than a header
  have hfail : (file.read ulogMsgHeaderLen).2.fail = false := by
    by_contra hfail
    rcases Stream.read_fail_iff.1 (Bool.eq_true_of_not_eq_false hfail) with hshort | hbad
    · exact absurd hlength hshort.ne
    · exact absurd (hbad.symm.trans hgood) (by decide)
  obtain ⟨-, hbytes, -, hread⟩ := Stream.read_of_not_fail hfail
  rw [hbytes] at hheader hlength
  have hle : file.pos + ulogMsgHeaderLen ≤ file.content.length := by
    have hlen : (3 : ℕ) ≤ (file.content.drop file.pos).length := by
      have hmin := hlength
      rw [List.length_take] at hmin
      exact min_eq_left_iff.1 hmin
    rw [List.length_drop] at hlen
    have hthree : ulogMsgHeaderLen = 3 := rfl
    omega
  exact ⟨hgood, hfile ▸ hread, hle, hheader⟩

theorem readHeader_none {file file' : Stream} (h : readHeader file = (none, file')) :
    file'.fail = true ∧ file'.content = file.content := by
  have hheader : Header.ofBytes (file.read ulogMsgHeaderLen).1 = none := congrArg Prod.fst h
  have hfile : (file.read ulogMsgHeaderLen).2 = file' := congrArg Prod.snd h
  rw [← hfile]
  refine ⟨?_, Stream.read_content _⟩
  by_contra hfail
  obtain ⟨-, -, hlength, -⟩ := Stream.read_of_not_fail (Bool.eq_false_iff.2 hfail)
  obtain ⟨low, high, type, hbytes⟩ := List.length_eq_three.1 hlength
  rw [hbytes] at hheader
  cases hheader

/-! ## The invariant -/

namespace Reader

/-- The file stays as it is, and what has been noted down is in order. -/
structure Sound (r : Reader) (content : List UInt8) : Prop where
  content_eq : r.file.content = content
  handled : ∀ h ∈ r.handled, h.message.In content ∧ h.Ends
  stale : ∀ m ∈ r.stale, m.In content ∧ m.Short content

/-- A reader behind the header of a message. -/
structure At (r : Reader) (m : MessageAt) (content : List UInt8) : Prop where
  sound : r.Sound content
  good : r.file.good = true
  pos : r.file.pos = m.body
  header : m.In content
  body_le : m.body ≤ content.length

/-- What the reader of a message does. -/
structure Handles (content : List UInt8) (m : MessageAt) (p : Reader × Outcome) : Prop where
  sound : p.1.Sound content
  fuel : p.2 ≠ .outOfFuel
  ends : ∀ ok, p.2 = .returns ok → (HandledMessage.mk m ok p.1.file none).Ends
  ahead : ∀ ok, p.2 = .returns ok → p.1.file.fail = true ∨ m.body ≤ p.1.file.pos

variable {b : Build} {content : List UInt8} {r : Reader} {m : MessageAt}

theorem Sound.of_eq {r' : Reader} (h : r.Sound content) (hfile : r'.file.content = content)
    (hhandled : r'.handled = r.handled) (hstale : r'.stale = r.stale) : r'.Sound content :=
  ⟨hfile, hhandled ▸ h.handled, hstale ▸ h.stale⟩

theorem Sound.note {ok : Bool} {found : Option Subscription} (h : r.Sound content)
    (hm : m.In content) (hends : (HandledMessage.mk m ok r.file found).Ends) :
    (r.note m ok found).Sound content := by
  refine ⟨h.content_eq, fun e he => ?_, h.stale⟩
  rcases List.mem_append.1 he with he | he
  · exact h.handled e he
  · obtain rfl := List.mem_singleton.1 he
    exact ⟨hm, hends⟩

theorem Sound.uses {valid n : ℕ} (h : r.Sound content) (hm : m.In content)
    (hshort : valid < n → m.Short content) : (r.uses m valid n).Sound content := by
  rw [Reader.uses]
  split
  · rename_i hlt
    refine ⟨h.content_eq, h.handled, fun e he => ?_⟩
    rcases List.mem_append.1 he with he | he
    · exact h.stale e he
    · obtain rfl := List.mem_singleton.1 he
      exact ⟨hm, hshort hlt⟩
  · exact h

@[simp] theorem uses_file (valid n : ℕ) : (r.uses m valid n).file = r.file := by
  rw [Reader.uses]
  split <;> rfl

theorem Sound.readHeader {header : Header} {file : Stream} (h : r.Sound content)
    (hread : readHeader r.file = (some header, file)) :
    ({ r with file := file } : Reader).At ⟨r.file.pos, header⟩ content := by
  obtain ⟨hgood, rfl, hle, hin⟩ := readHeader_some hread
  rw [h.content_eq] at hle hin
  exact ⟨h.of_eq h.content_eq rfl rfl, hgood, rfl, hin, hle⟩

theorem Sound.noHeader {file : Stream} (h : r.Sound content)
    (hread : Replay.readHeader r.file = (none, file)) :
    ({ r with file := file } : Reader).Sound content :=
  h.of_eq ((readHeader_none hread).2.trans h.content_eq) rfl rfl

theorem At.read (h : r.At m content) :
    (r.file.read m.header.msgSize).2.content = content ∧
      ((r.file.read m.header.msgSize).2.fail = true ∨
        (r.file.read m.header.msgSize).2.good = true ∧
          (r.file.read m.header.msgSize).2.pos = m.next ∧
          (r.file.read m.header.msgSize).1 = (content.drop m.body).take m.header.msgSize ∧
          (r.file.read m.header.msgSize).1.length = m.header.msgSize) := by
  refine ⟨(Stream.read_content _).trans h.sound.content_eq, ?_⟩
  cases hfail : (r.file.read m.header.msgSize).2.fail with
  | true => exact Or.inl rfl
  | false =>
      obtain ⟨hgood, hbytes, hlength, hread⟩ := Stream.read_of_not_fail hfail
      refine Or.inr ⟨?_, ?_, ?_, hlength⟩
      · rw [hread]
        exact hgood
      · rw [hread, MessageAt.next, ← h.pos]
      · rw [hbytes, h.sound.content_eq, h.pos]

theorem At.afterRead (h : r.At m content) :
    (r.afterRead (r.file.read m.header.msgSize).2).Sound content :=
  h.sound.of_eq h.read.1 rfl rfl

theorem Handles.of_read {r' : Reader} {ok : Bool} (h : r.At m content) (hsound : r'.Sound content)
    (hfile : r'.file = (r.file.read m.header.msgSize).2) : Handles content m (r', .returns ok) := by
  have hread := h.read.2
  rw [← hfile] at hread
  refine ⟨hsound, Outcome.noConfusion, fun ok _ => ?_, fun _ _ => ?_⟩
  · rcases hread with hfail | ⟨-, hpos, -⟩
    · exact .failed hfail
    · exact .next hpos
  · rcases hread with hfail | ⟨-, hpos, -⟩
    · exact Or.inl hfail
    · exact Or.inr (hpos ▸ Nat.le_add_right _ _)

theorem Handles.skip (h : r.At m content) : Handles content m (r.skip m, .returns true) := by
  obtain ⟨-, hfail⟩ := Stream.good_eq_true_iff.1 h.good
  have hfile : (r.skip m).file = { r.file with pos := m.next, eof := false } := by
    refine Stream.skip_of_le hfail ?_
    rw [h.pos, MessageAt.next, Nat.cast_add]
  refine ⟨h.sound.of_eq ?_ rfl rfl, Outcome.noConfusion, fun ok _ => ?_, fun _ _ => ?_⟩
  · rw [hfile]
    exact h.sound.content_eq
  · exact .next (by rw [hfile])
  · rw [hfile]
    exact Or.inr (Nat.le_add_right _ _)

/-! ## The readers of one message -/

theorem At.short_flagBits (h : r.At m content) (htype : m.header.msgType = .flagBits)
    (hsize : m.header.msgSize = 40) (hshort : (r.file.read m.header.msgSize).1.length < 40) :
    m.Short content := by
  refine .flagBits htype ?_
  have hread : (r.file.read m.header.msgSize).1 = (content.drop m.body).take m.header.msgSize := by
    rw [Stream.read, if_pos h.good, h.sound.content_eq, h.pos]
  rw [hread, List.length_take, List.length_drop, hsize] at hshort
  omega

theorem Handles.readFlagBits (h : r.At m content) (htype : m.header.msgType = .flagBits) :
    Handles content m (r.readFlagBits m) := by
  rw [Reader.readFlagBits]
  split
  · rename_i hsize
    refine ⟨h.sound, Outcome.noConfusion, ?_, fun _ _ => Or.inr h.pos.ge⟩
    rintro ok ⟨⟩
    exact .refused htype hsize rfl
  · rename_i hsize
    have hshort : ∀ {n : ℕ}, n ≤ 40 → (r.file.read m.header.msgSize).1.length < n →
        m.Short content :=
      fun hn hlt => h.short_flagBits htype (not_not.1 hsize) (hlt.trans_le hn)
    have hflags := h.afterRead.uses h.header (hshort (n := 16) (by decide))
    dsimp only
    split
    · exact .of_read h hflags (uses_file _ _)
    · split
      -- data is appended, and its offset is behind the flags
      · have hoffsets := hflags.uses h.header (hshort (n := 40) le_rfl)
        refine .of_read h ?_ ?_
        · split
          · exact hoffsets.of_eq hoffsets.content_eq rfl rfl
          · exact hoffsets
        · split
          · simp only [uses_file]
            rfl
          · exact (uses_file _ _).trans (uses_file _ _)
      · exact .of_read h hflags (uses_file _ _)

theorem Handles.readFormat (h : r.At m content) : Handles content m (r.readFormat m) := by
  rw [Reader.readFormat]
  dsimp only
  split
  · exact .of_read h h.afterRead rfl
  · split
    · exact .of_read h h.afterRead rfl
    · exact .of_read h (h.afterRead.of_eq h.afterRead.content_eq rfl rfl) rfl

theorem At.short_parameter (h : r.At m content) (htype : m.header.msgType = .parameter)
    (hfail : (r.file.read m.header.msgSize).2.fail = false)
    (hshort : m.header.msgSize < 1 + (r.buffer (r.file.read m.header.msgSize).1 0).toNat + 4) :
    m.Short content := by
  obtain ⟨-, -, hbytes, hlength⟩ := h.read.2.resolve_left (by rw [hfail]; decide)
  refine .parameter htype fun keyLen hkeyLen => ?_
  rcases Nat.eq_zero_or_pos m.header.msgSize with hzero | hpos
  -- an empty message has no room for a value
  · rw [hzero]
    omega
  · have hfirst : r.buffer (r.file.read m.header.msgSize).1 0 = keyLen := by
      calc
        r.buffer (r.file.read m.header.msgSize).1 0 = (r.file.read m.header.msgSize).1.getD 0 0 :=
              store_add (r.junk r.reads).bytes 0 (hpos.trans_eq hlength.symm)
        _ = ((content.drop m.body).take m.header.msgSize).getD 0 0 := by rw [hbytes]
        _ = keyLen := by
              rw [List.getD_eq_getElem?_getD, List.getElem?_take_of_lt hpos, List.getElem?_drop,
                Nat.add_zero, hkeyLen, Option.getD_some]
    rwa [hfirst] at hshort

theorem Handles.readAndApplyParameter (h : r.At m content) (htype : m.header.msgType = .parameter) :
    Handles content m (r.readAndApplyParameter b m) := by
  rw [Reader.readAndApplyParameter]
  dsimp only
  split
  · exact .of_read h h.afterRead rfl
  · rename_i hfail
    have hshort : m.header.msgSize < 1 + (r.buffer (r.file.read m.header.msgSize).1 0).toNat + 4 →
        m.Short content := h.short_parameter htype (Bool.eq_false_iff.2 hfail)
    have hkey := h.afterRead.uses h.header fun hlt => hshort (Nat.lt_add_right 4 hlt)
    split
    · exact .of_read h hkey (uses_file _ _)
    · exact .of_read h (hkey.uses h.header hshort) ((uses_file _ _).trans (uses_file _ _))
    · exact .of_read h hkey (uses_file _ _)

theorem Handles.readDropout (h : r.At m content) (htype : m.header.msgType = .dropout) :
    Handles content m (r.readDropout, .returns true) := by
  have hcontent : (r.file.read 2).2.content = content :=
    (Stream.read_content 2).trans h.sound.content_eq
  have hread : (r.file.read 2).2.fail = true ∨ (r.file.read 2).2.pos = m.body + 2 := by
    cases hfail : (r.file.read 2).2.fail with
    | true => exact Or.inl rfl
    | false =>
        obtain ⟨-, -, -, hread⟩ := Stream.read_of_not_fail hfail
        exact Or.inr (by rw [hread, h.pos])
  refine ⟨h.sound.of_eq hcontent rfl rfl, Outcome.noConfusion, ?_, fun _ _ => ?_⟩
  · intro ok _
    by_cases hsize : m.header.msgSize = 2
    · rcases hread with hfail | hpos
      · exact .failed hfail
      · exact .next (by rw [MessageAt.next, hsize]; exact hpos)
    · exact .dropout htype hsize
  · rcases hread with hfail | hpos
    · exact Or.inl hfail
    · exact Or.inr (hpos ▸ Nat.le_add_right m.body 2)

theorem Handles.handleDefinition (h : r.At m content) :
    Handles content m (r.handleDefinition b m) := by
  rw [Reader.handleDefinition]
  cases htype : m.header.msgType with
  | flagBits => exact .readFlagBits h htype
  | format => exact .readFormat h
  | parameter => exact .readAndApplyParameter h htype
  | addLoggedMsg => exact .skip h
  | data => exact .skip h
  | dropout => exact .skip h
  | other => exact .skip h

theorem Handles.handleAdditional (h : r.At m content) :
    Handles content m (r.handleAdditional b m) := by
  rw [Reader.handleAdditional]
  cases htype : m.header.msgType with
  | parameter => exact .readAndApplyParameter h htype
  | dropout => exact .readDropout h htype
  | flagBits => exact .skip h
  | format => exact .skip h
  | addLoggedMsg => exact .skip h
  | data => exact .skip h
  | other => exact .skip h

/-! ## The loops -/

/-- There is fuel for the rest of the file: every round reads a header. -/
def Fueled (r : Reader) (content : List UInt8) (fuel : ℕ) : Prop :=
  0 < fuel ∧ (r.file.fail = true ∨ content.length < fuel + r.file.pos)

theorem Fueled.next {r' : Reader} {fuel : ℕ} {header : Header} {file : Stream}
    (h : r.Fueled content (fuel + 1)) (hsound : r.Sound content)
    (hread : readHeader r.file = (some header, file))
    (hahead : r'.file.fail = true ∨ r.file.pos + ulogMsgHeaderLen ≤ r'.file.pos) :
    r'.Fueled content fuel := by
  have hthree : ulogMsgHeaderLen = 3 := rfl
  obtain ⟨hgood, -, hle, -⟩ := readHeader_some hread
  obtain ⟨-, hfail⟩ := Stream.good_eq_true_iff.1 hgood
  have hlt := h.2.resolve_left (by rw [hfail]; decide)
  rw [hsound.content_eq] at hle
  refine ⟨by omega, ?_⟩
  rcases hahead with hfail | hpos
  · exact Or.inl hfail
  · exact Or.inr (by omega)

theorem Sound.returns (h : r.Sound content) (ok : Bool) : ReadsMessages content r (.returns ok) :=
  ⟨h.handled, h.stale, Outcome.noConfusion⟩

theorem Handles.note {p : Reader × Outcome} {ok : Bool} (h : Handles content m p)
    (hm : m.In content)
    (hok : p.2 = .returns ok) : (p.1.note m ok none).Sound content :=
  h.sound.note hm (h.ends ok hok)

theorem readFileDefinitionsLoop_reads (b : Build) {fuel : ℕ} (h : r.Sound content)
    (hfuel : r.Fueled content fuel) :
    ReadsMessages content (readFileDefinitionsLoop b fuel r).1
      (readFileDefinitionsLoop b fuel r).2 := by
  induction fuel generalizing r with
  | zero => exact absurd hfuel.1 (Nat.lt_irrefl 0)
  | succ fuel ih =>
      rw [readFileDefinitionsLoop]
      dsimp only
      split
      · rename_i file hread
        exact Sound.returns (h.noHeader hread) false
      · rename_i header file hread
        have hat := h.readHeader hread
        split
        · refine Sound.returns ?_ true
          exact hat.sound.of_eq hat.sound.content_eq rfl rfl
        · have hhandles := Handles.handleDefinition (b := b) hat
          split
          · rename_i hok
            exact ih (hhandles.note hat.header hok) (hfuel.next h hread (hhandles.ahead true hok))
          · rename_i hok
            exact Sound.returns (hhandles.note hat.header hok) false
          · rename_i hout
            exact absurd hout hhandles.fuel

theorem readFileDefinitionsLoop_dataSection (b : Build) {fuel : ℕ} (h : r.Sound content) :
    FindsDataSection content (readFileDefinitionsLoop b fuel r) := by
  induction fuel generalizing r with
  | zero => exact Outcome.noConfusion
  | succ fuel ih =>
      intro hok
      rw [readFileDefinitionsLoop] at hok ⊢
      dsimp only at hok ⊢
      split at hok
      · cases hok
      · rename_i header file hread
        have hat := h.readHeader hread
        split at hok
        · rename_i htype
          refine ⟨⟨r.file.pos, header⟩, hat.header, htype, ?_, ?_⟩
          · rw [if_pos htype]
            have hpos : file.pos = r.file.pos + ulogMsgHeaderLen := hat.pos
            exact hpos ▸ Nat.add_sub_cancel _ _
          · rw [if_pos htype]
            exact hat.pos
        · rename_i htype
          have hhandles := Handles.handleDefinition (b := b) hat
          rw [if_neg htype]
          split at hok
          · rename_i hhandled
            exact ih (hhandles.note hat.header hhandled) hok
          · cases hok
          · cases hok

theorem readAndHandleAdditionalMessagesLoop_reads (b : Build) (endPosition : ℕ) {fuel : ℕ}
    (h : r.Sound content) (hfuel : r.Fueled content fuel) :
    ReadsMessages content (readAndHandleAdditionalMessagesLoop b endPosition fuel r).1
      (readAndHandleAdditionalMessagesLoop b endPosition fuel r).2 := by
  induction fuel generalizing r with
  | zero => exact absurd hfuel.1 (Nat.lt_irrefl 0)
  | succ fuel ih =>
      rw [readAndHandleAdditionalMessagesLoop]
      dsimp only
      split
      · exact Sound.returns h true
      · split
        · rename_i file hread
          exact Sound.returns (h.noHeader hread) false
        · rename_i header file hread
          have hat := h.readHeader hread
          have hhandles := Handles.handleAdditional (b := b) hat
          split
          · rename_i hok
            exact ih (hhandles.note hat.header hok) (hfuel.next h hread (hhandles.ahead true hok))
          · rename_i hok
            exact Sound.returns (hhandles.note hat.header hok) false
          · rename_i hout
            exact absurd hout hhandles.fuel

/-! ## The search for the next message -/

/-- What a search does: it returns whether the file is good, and it is not at its end. -/
structure Searches (content : List UInt8) (p : Reader × Subscription × Outcome) : Prop where
  sound : p.1.Sound content
  fuel : p.2.2 ≠ .outOfFuel
  flags : ∀ ok, p.2.2 = .returns ok → p.1.file.eof = false ∧ p.1.file.fail = !ok

theorem Searches.finish (h : r.Sound content) (sub : Subscription) :
    Searches content (r.finish sub) := by
  rw [Reader.finish]
  split
  · refine ⟨h.of_eq h.content_eq rfl rfl, Outcome.noConfusion, ?_⟩
    rintro ok ⟨⟩
    exact ⟨rfl, rfl⟩
  · rename_i heof
    have heof : r.file.eof = false := Bool.eq_false_iff.2 heof
    refine ⟨h, Outcome.noConfusion, ?_⟩
    rintro ok ⟨⟩
    exact ⟨heof, by simp [Stream.good, heof]⟩

theorem skipFirst_spec (h : r.Sound content) (sub : Subscription) :
    (r.skipFirst sub).Sound content ∧
      ((r.skipFirst sub).file.fail = true ∨
        sub.nextReadPos + ulogMsgHeaderLen ≤ (r.skipFirst sub).file.pos) := by
  have hseek : ({ r with file := r.file.seek sub.nextReadPos } : Reader).Sound content :=
    h.of_eq h.content_eq rfl rfl
  rw [skipFirst]
  split
  · rename_i file hread
    exact ⟨hseek.noHeader hread, Or.inl (readHeader_none hread).1⟩
  · rename_i header file hread
    have hat := hseek.readHeader hread
    have hskip := Handles.skip hat
    refine ⟨hskip.sound, ?_⟩
    obtain ⟨hgood, -, -, -⟩ := readHeader_some hread
    have hfail : r.file.fail = false := (Stream.good_eq_true_iff.1 hgood).2
    have hpos : (r.file.seek sub.nextReadPos).pos = sub.nextReadPos := Stream.seek_pos hfail _
    have hahead := hskip.ahead true rfl
    rw [MessageAt.body] at hahead
    dsimp only at hahead
    rwa [hpos] at hahead

theorem nextReadPos_of_subscribe {fileFormats : Text → Text} {position : ℕ} {add : AddLoggedMsg}
    {sub : Subscription} (h : b.subscribe fileFormats position add = some sub) :
    sub.nextReadPos = position := by
  rw [Build.subscribe] at h
  split at h
  · cases h
  dsimp only at h
  split at h
  · cases h
  split at h
  · cases h
  split at h
  · cases h
  · cases h
    rfl

theorem Handles.addSubscription (hpos : r.file.pos = m.next)
    {search : Reader → Subscription → ℕ → Reader × Subscription × Outcome} {sub : Subscription}
    {msgId : ℕ} (hs : Searches content (search r sub msgId)) :
    Handles content m (r.addSubscription search sub msgId) := by
  rw [Reader.addSubscription]
  dsimp only
  split
  · rename_i hne
    -- a search that was not successful leaves the file failed, as the end of the file is cleared
    have hfailed : ∀ ok, (search r sub msgId).2.2 = .returns ok →
        (search r sub msgId).1.file.fail = true := by
      intro ok hok
      cases ok with
      | true => exact absurd hok hne
      | false => exact (hs.flags false hok).2
    exact ⟨hs.sound, hs.fuel, fun ok hok => .failed (hfailed ok hok),
      fun ok hok => Or.inl (hfailed ok hok)⟩
  · rename_i hok
    have hfail : (search r sub msgId).1.file.fail = false := (hs.flags true (not_not.1 hok)).2
    have hseek : ((search r sub msgId).1.file.seek r.file.pos).pos = m.next :=
      (Stream.seek_pos hfail _).trans hpos
    have hnext : m.body ≤ m.next := Nat.le_add_right _ _
    split
    · refine ⟨hs.sound.of_eq hs.sound.content_eq rfl rfl, Outcome.noConfusion,
        fun _ _ => .next hseek, fun _ _ => Or.inr ?_⟩
      exact hnext.trans hseek.ge
    · refine ⟨hs.sound.of_eq hs.sound.content_eq rfl rfl, Outcome.noConfusion,
        fun _ _ => .next hseek, fun _ _ => Or.inr ?_⟩
      exact hnext.trans hseek.ge

theorem Handles.readAndAddSubscription (h : r.At m content)
    (htype : m.header.msgType = .addLoggedMsg)
    {search : Reader → Subscription → ℕ → Reader × Subscription × Outcome}
    (hsearch : ∀ r' sub msgId, r'.Sound content → sub.nextReadPos = m.position →
      Searches content (search r' sub msgId)) :
    Handles content m (r.readAndAddSubscription b m search) := by
  rw [Reader.readAndAddSubscription]
  dsimp only
  split
  · exact .of_read h h.afterRead rfl
  · rename_i hfail
    obtain ⟨-, hpos, -, -⟩ := h.read.2.resolve_left hfail
    split
    · exact .of_read h h.afterRead rfl
    · have hshort : m.header.msgSize + 1 < 4 → m.Short content :=
        fun hlt => .addLoggedMsg htype (Nat.lt_of_succ_lt_succ hlt)
      have hsound : ({ r.afterRead (r.file.read m.header.msgSize).2 with
          subscriptionFilePos := (r.file.read m.header.msgSize).2.pos } : Reader).Sound content :=
        h.afterRead.of_eq h.read.1 rfl rfl
      have huses := hsound.uses h.header hshort
      split
      · exact .of_read h huses (uses_file _ _)
      · rename_i sub hsub
        have hposition : sub.nextReadPos = m.position := by
          rw [nextReadPos_of_subscribe hsub, h.pos]
          exact Nat.add_sub_cancel _ _
        refine .addSubscription ?_ (hsearch _ sub _ huses hposition)
        rw [uses_file]
        exact hpos

theorem readData_spec (h : r.At m content) (sub : Subscription) (msgId : ℕ) :
    (r.readData m sub msgId).1.Sound content ∧
      (HandledMessage.mk m true (r.readData m sub msgId).1.file (r.readData m sub msgId).2).Ends ∧
      ((r.readData m sub msgId).2 = none → (r.readData m sub msgId).1.file.fail = true ∨
        m.body ≤ (r.readData m sub msgId).1.file.pos) := by
  have hcontent : (r.file.read 2).2.content = content :=
    (Stream.read_content 2).trans h.sound.content_eq
  rw [readData]
  dsimp only
  split
  · rename_i hfail
    exact ⟨h.sound.of_eq hcontent rfl rfl, .failed hfail, fun _ => Or.inl hfail⟩
  · rename_i hfail
    have hfail : (r.file.read 2).2.fail = false := Bool.eq_false_iff.2 hfail
    obtain ⟨-, -, -, hread⟩ := Stream.read_of_not_fail hfail
    have hpos : (r.file.read 2).2.pos = m.body + 2 := by rw [hread, h.pos]
    split
    -- the message that was searched for
    · have hskip : (r.file.read 2).2.skip sub.timestampOffset =
          { (r.file.read 2).2 with pos := m.body + 2 + sub.timestampOffset, eof := false } := by
        refine Stream.skip_of_le hfail ?_
        rw [hpos, Nat.cast_add (m.body + 2)]
      refine ⟨h.sound.of_eq ?_ rfl rfl, ?_, fun hnone => nomatch hnone⟩
      · rw [Stream.read_content, Stream.skip_content]
        exact hcontent
      · cases hlast : (((r.file.read 2).2.skip sub.timestampOffset).read 8).2.fail with
        | true => exact .failed hlast
        | false =>
            obtain ⟨-, -, -, hlast⟩ := Stream.read_of_not_fail hlast
            refine .found rfl rfl ?_
            rw [hlast, hskip]
    -- also where the body is shorter than the ID
    · have hskip : (r.file.read 2).2.skip (m.header.msgSize - 2) =
          { (r.file.read 2).2 with pos := m.next, eof := false } := by
        refine Stream.skip_of_le hfail ?_
        rw [hpos, MessageAt.next]
        push_cast
        ring
      refine ⟨h.sound.of_eq ?_ rfl rfl, .next ?_, fun _ => Or.inr ?_⟩
      · rw [Stream.skip_content]
        exact hcontent
      · rw [hskip]
      · rw [hskip]
        exact Nat.le_add_right _ _

theorem nextDataMessageLoop_searches (b : Build) {fuel : ℕ} (h : r.Sound content)
    (hfuel : r.Fueled content fuel) (sub : Subscription) (msgId : ℕ) :
    Searches content (nextDataMessageLoop b fuel r sub msgId) := by
  induction fuel generalizing r sub msgId with
  | zero => exact absurd hfuel.1 (Nat.lt_irrefl 0)
  | succ fuel ih =>
      rw [nextDataMessageLoop]
      dsimp only
      split
      · exact .finish h sub
      · split
        · rename_i file hread
          exact .finish (h.noHeader hread) sub
        · rename_i header file hread
          have hat := h.readHeader hread
          split
          -- behind the data that is to be read
          · refine .finish ?_ sub
            exact h.of_eq hat.sound.content_eq rfl rfl
          · split
            · rename_i htype
              -- the nested search starts behind this header, and so has fuel
              have hsearch : ∀ (r' : Reader) (sub' : Subscription) (msgId' : ℕ), r'.Sound content →
                  sub'.nextReadPos = r.file.pos →
                  Searches content
                    (nextDataMessageLoop b fuel (r'.skipFirst sub') sub' msgId') := by
                intro r' sub' msgId' hr' hposition
                obtain ⟨hsound, hahead⟩ := skipFirst_spec hr' sub'
                rw [hposition] at hahead
                exact ih hsound (hfuel.next h hread hahead) sub' msgId'
              have hadd := Handles.readAndAddSubscription (b := b) hat htype hsearch
              split
              · rename_i ok hok
                exact ih (hadd.note hat.header hok) (hfuel.next h hread (hadd.ahead ok hok)) sub
                  msgId
              · rename_i hfuel
                exact absurd hfuel hadd.fuel
            · obtain ⟨hsound, hends, hahead⟩ := readData_spec hat sub msgId
              split
              · rename_i r' sub' hdata
                rw [hdata] at hsound hends
                exact .finish (hsound.note hat.header hends) sub'
              · rename_i r' hdata
                rw [hdata] at hsound hends hahead
                exact ih (hsound.note hat.header hends) (hfuel.next h hread (hahead rfl)) sub msgId
            · have hskip := Handles.skip hat
              exact ih (hskip.note hat.header rfl) (hfuel.next h hread (hskip.ahead true rfl)) sub
                msgId

/-- The reader before it has noted anything down. -/
def fresh (r : Reader) : Reader := { r with handled := [], stale := [] }

theorem fresh_sound (r : Reader) : r.fresh.Sound r.file.content :=
  ⟨rfl, fun _ hmem => absurd hmem List.not_mem_nil, fun _ hmem => absurd hmem List.not_mem_nil⟩

theorem fueled_length (r : Reader) (content : List UInt8) : r.Fueled content (content.length + 1) :=
  ⟨Nat.zero_lt_succ _, Or.inr (by omega)⟩

end Reader

/-! ## All three loops -/

/-- Whatever is in the file, and from wherever they start: the definitions, the additional messages
and the search for the next message of a subscription read message by message.  The definitions end
at the first subscription. -/
theorem reads_messages (b : Build) (r : Reader) :
    ReadsMessages r.file.content (r.fresh.readFileDefinitions b).1
      (r.fresh.readFileDefinitions b).2 ∧
      FindsDataSection r.file.content (r.fresh.readFileDefinitions b) ∧
      (∀ endPosition, ReadsMessages r.file.content
        (r.fresh.readAndHandleAdditionalMessages b endPosition).1
        (r.fresh.readAndHandleAdditionalMessages b endPosition).2) ∧
      ∀ sub msgId, ReadsMessages r.file.content (r.fresh.nextDataMessage b sub msgId).1
        (r.fresh.nextDataMessage b sub msgId).2.2 := by
  have hfuel : ∀ r' : Reader, r'.Fueled r.file.content (r.file.content.length + 1) :=
    fun r' => r'.fueled_length r.file.content
  have hstart : ({ r.fresh with file := r.file.seek 16 } : Reader).Sound r.file.content :=
    r.fresh_sound.of_eq rfl rfl rfl
  refine ⟨?_, ?_, fun endPosition => ?_, fun sub msgId => ?_⟩
  · exact Reader.readFileDefinitionsLoop_reads b hstart (hfuel _)
  · exact Reader.readFileDefinitionsLoop_dataSection b hstart
  · exact Reader.readAndHandleAdditionalMessagesLoop_reads b endPosition r.fresh_sound (hfuel _)
  · obtain ⟨hsound, -⟩ := Reader.skipFirst_spec r.fresh_sound sub
    have hsearches := Reader.nextDataMessageLoop_searches b hsound (hfuel _) sub msgId
    exact ⟨hsearches.sound.handled, hsearches.sound.stale, hsearches.fuel⟩

/-- Every message is left at the next one, unless the read has failed, and of none more bytes are
used than were read. -/
structure LeavesAtNext (r : Reader) : Prop where
  handled : ∀ h ∈ r.handled, h.file.fail = true ∨ h.file.pos = h.message.next
  stale : r.stale = []

/-- A topic with a number behind its timestamp. -/
def floatTopic : OrbMetadata where
  oName := "f".toList
  oFields := "uint64_t timestamp;float x;".toList
  oSize := 16
  oSizeNoPadding := 12

/-- A reader at the start of a file. -/
def Reader.ofContent (content : List UInt8) : Reader where
  file := ⟨content, 0, false, false⟩
  junk _ := ⟨fun _ => 0, []⟩
  reads := 0
  fileFormats _ := []
  subscriptionFilePos := 0
  readUntilFilePosition := 2 ^ 60
  dataSectionStart := 0
  subscriptions _ := none
  handled := []
  stale := []

/-- A message that is passed over, and a message of the topic with the ID 1. -/
def floatLog : List UInt8 :=
  [0, 0, 'I'.toUInt8, 14, 0, 'D'.toUInt8, 1, 0, 5, 0, 0, 0, 0, 0, 0, 0, 1, 2, 3, 4]

/-- In general that is not so: a search ends behind the timestamp of the message that it has found,
and the length of the key of an empty parameter is not in the message. -/
theorem not_leavesAtNext :
    ¬LeavesAtNext
        ((Reader.ofContent floatLog).nextDataMessage ⟨[floatTopic], [], []⟩
          ⟨some floatTopic, false, 0, 0, 0, 0, false⟩ 1).1 ∧
      ¬LeavesAtNext
        ((Reader.ofContent [0, 0, 'P'.toUInt8]).readAndHandleAdditionalMessages ⟨[], [],
          []⟩ 3).1 := by
  constructor
  · intro h
    have hhandled : (((Reader.ofContent floatLog).nextDataMessage ⟨[floatTopic], [], []⟩
        ⟨some floatTopic, false, 0, 0, 0, 0, false⟩ 1).1.handled.all fun e =>
          e.file.fail || decide (e.file.pos = e.message.next)) = false := by decide +kernel
    have hall := List.all_eq_true.2 fun e he =>
      Bool.or_eq_true_iff.2 ((h.handled e he).imp id decide_eq_true)
    rw [hhandled] at hall
    cases hall
  · intro h
    exact absurd h.stale (by decide +kernel)

end Replay
end DtPhm
