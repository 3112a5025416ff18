import DtPhm.Lib.Run
import DtPhm.Rc.Sbus

/-!
# SbusBatches — what a call of sbus_parse reports of the frames in its bytes

A read can hold the ends of several frames.  Which frames are completed, and by which byte, depends
on the stream only; what the call reports of them is kept in one flag, which every attempt
overwrites.

* `decodes` — the frames that `sbus_decode` accepts;
* `Input.advance`, `Input.completes`, `completed` — the frames of a stream;
* `parse_spec` — what a call leaves, in terms of its frames;
* `Delivers` — what it should leave;
* `sbus_delivers_iff` — the calls that do.
-/

namespace DtPhm
namespace Rc

open Lib

/-! ## The frames of a stream -/

/-- The frame has a start symbol and a known end marker. -/
def decodes (frame : Mem) : Bool :=
  frame 0 == sbusStartSymbol && (endMarker (frame 24)).isSome

/-- `sbus_decode` accepts these frames, and writes nothing for the others. -/
theorem sbusDecode_spec (s : Input) (out : Channels) (maxValues : ℕ) :
    (sbusDecode s out maxValues).2 =
      if decodes s.sbusFrame then (readChannels s.sbusFrame out maxValues, true) else
        (out, false) := by
  unfold sbusDecode decodes
  by_cases hstart : s.sbusFrame 0 = sbusStartSymbol
  · cases hend : endMarker (s.sbusFrame 24) with
    | none => simp [hstart]
    | some state => simp [hstart]
  · simp [hstart]

/-- The input after a byte; what the caller gets does not take part. -/
def Input.advance (s : Input) (b : UInt8) : Input :=
  (parseByte 0 (s, ⟨fun _ => 0, 0, false, false⟩, false) b).1

/-- The frame that a byte completes. -/
def Input.completes (s : Input) (b : UInt8) : Option Mem :=
  match s.checkLimits.decodeState with
  | .sbusStart | .sbus1Sync | .sbus2Sync =>
    if (s.checkLimits.push b).partialFrameCount < sbusFrameSize then none
    else some (s.checkLimits.push b).sbusFrame
  | _ => none

/-- The frames that are completed by a stream, in their order. -/
def completed : Input → List UInt8 → List Mem
  | _, [] => []
  | s, b :: rest => (s.completes b).toList ++ completed (s.advance b) rest

theorem completed_append (s : Input) (bytes bytes' : List UInt8) :
    completed s (bytes ++ bytes') =
      completed s bytes ++ completed (bytes.foldl Input.advance s) bytes' := by
  induction bytes generalizing s with
  | nil => rfl
  | cons b rest ih =>
      rw [List.cons_append, completed, completed, ih, List.append_assoc]
      rfl

/-! ## One byte -/

/-- The states without a case of their own. -/
def Input.unknown (s : Input) : Prop := s.decodeState = .sbus2Data1 ∨ s.decodeState = .sbus2Data2

/-- The frame states leave the frame to `sbus_decode`. -/
theorem collect_spec (s : Input) (out : Channels) (ret : Bool) (b : UInt8) (maxChannels : ℕ) :
    (s.collect out ret b maxChannels).2 =
      (if (s.push b).partialFrameCount < sbusFrameSize then (out, ret)
      else if decodes (s.push b).sbusFrame then
        (readChannels (s.push b).sbusFrame out maxChannels, true)
      else (out, false)) := by
  unfold Input.collect
  dsimp only
  split
  · rfl
  · rw [← sbusDecode_spec]
    split_ifs <;> rfl

theorem collect_input (s : Input) (out out' : Channels) (ret ret' : Bool) (b : UInt8)
    (maxChannels max' : ℕ) :
    (s.collect out ret b maxChannels).1 = (s.collect out' ret' b max').1 := by
  have hdecode : ∀ t : Input, (sbusDecode t out maxChannels).1 = (sbusDecode t out' max').1 ∧
      (sbusDecode t out maxChannels).2.2 = (sbusDecode t out' max').2.2 := by
    intro t
    unfold sbusDecode
    split
    · exact ⟨rfl, rfl⟩
    · split
      · exact ⟨rfl, rfl⟩
      · exact ⟨rfl, rfl⟩
  obtain ⟨hinput, hret⟩ := hdecode (s.push b)
  unfold Input.collect
  dsimp only
  rw [hinput, hret]
  split
  · rfl
  · split_ifs <;> rfl

theorem parseByte_input (maxChannels : ℕ) (r : Input × Channels × Bool) (b : UInt8) :
    (parseByte maxChannels r b).1 = r.1.advance b := by
  unfold Input.advance parseByte
  dsimp only
  cases r.1.checkLimits.decodeState with
  | desync =>
      dsimp only
      split <;> rfl
  | sbusStart => exact collect_input _ _ _ _ _ _ _ _
  | sbus1Sync => exact collect_input _ _ _ _ _ _ _ _
  | sbus2Sync => exact collect_input _ _ _ _ _ _ _ _
  | sbus2RxVoltage => rfl
  | sbus2Gps => rfl
  | sbus2Data1 => rfl
  | sbus2Data2 => rfl

/-- What a byte changes for the caller: only a completed frame does, as long as no result is kept in
the states without a case of their own. -/
theorem parseByte_spec (maxChannels : ℕ) (r : Input × Channels × Bool) (b : UInt8)
    (hr : r.1.unknown → r.2.2 = false) :
    (parseByte maxChannels r b).2 =
      match r.1.completes b with
      | none => r.2
      | some frame =>
          if decodes frame then (readChannels frame r.2.1 maxChannels, true) else
            (r.2.1, false) := by
  have hquiet : r.1.checkLimits.unknown → r.2 = (r.2.1, false) := by
    intro hunknown
    have hkept : r.1.checkLimits = r.1 := by
      unfold Input.checkLimits at hunknown ⊢
      split at hunknown
      · rcases hunknown with h | h <;> cases h
      · rename_i hlimits
        exact if_neg hlimits
    rw [hkept] at hunknown
    rw [← hr hunknown]
  have hcollect : ∀ s : Input, (s.collect r.2.1 r.2.2 b maxChannels).2 =
      match (if (s.push b).partialFrameCount < sbusFrameSize then none
        else some (s.push b).sbusFrame) with
      | none => r.2
      | some frame =>
          if decodes frame then (readChannels frame r.2.1 maxChannels, true) else
            (r.2.1, false) := by
    intro s
    rw [collect_spec]
    split <;> rfl
  unfold parseByte Input.completes
  dsimp only
  unfold Input.unknown at hquiet
  cases hstate : r.1.checkLimits.decodeState with
  | desync =>
      dsimp only
      split <;> rfl
  | sbusStart => exact hcollect _
  | sbus1Sync => exact hcollect _
  | sbus2Sync => exact hcollect _
  | sbus2RxVoltage => rfl
  | sbus2Gps => rfl
  | sbus2Data1 => exact (hquiet (.inl hstate)).symm
  | sbus2Data2 => exact (hquiet (.inr hstate)).symm

theorem unknown_advance {s : Input} {b : UInt8} (h : (s.advance b).unknown) : s.unknown := by
  have hdecode : ∀ (t : Input) (out : Channels), ¬ (sbusDecode t out 0).1.unknown := by
    intro t out
    unfold sbusDecode endMarker Input.unknown
    split_ifs <;> simp
  have hcollect : ∀ (t : Input) (out : Channels), (t.collect out false b 0).1.unknown →
      t.unknown := by
    intro t out
    unfold Input.collect
    dsimp only
    by_cases hfull : (t.push b).partialFrameCount < sbusFrameSize
    · rw [if_pos hfull]
      exact id
    rw [if_neg hfull]
    split
    · -- recovery
      split
      · rintro (hunknown | hunknown) <;> cases hunknown
      · exact fun hunknown => absurd hunknown (hdecode _ out)
    · exact fun hunknown => absurd hunknown (hdecode _ out)
  have hskip : ∀ (t : Input) (size : ℕ) (header : UInt8), (t.skipSlot b size header).unknown →
      t.unknown := by
    intro t size header
    unfold Input.skipSlot Input.unknown
    dsimp only [Input.push]
    split_ifs <;> simp
  have hlimits : s.checkLimits.unknown → s.unknown := by
    unfold Input.checkLimits
    split
    · rintro (hunknown | hunknown) <;> cases hunknown
    · exact id
  refine hlimits ?_
  unfold Input.advance parseByte at h
  dsimp only at h
  cases hstate : s.checkLimits.decodeState with
  | desync =>
      rw [hstate] at h
      dsimp only at h
      split at h
      · rcases h with hunknown | hunknown <;> cases hunknown
      · exact h
  | sbusStart => exact hcollect _ _ (by rw [hstate] at h; exact h)
  | sbus1Sync => exact hcollect _ _ (by rw [hstate] at h; exact h)
  | sbus2Sync => exact hcollect _ _ (by rw [hstate] at h; exact h)
  | sbus2RxVoltage => exact hskip _ 3 0x03 (by rw [hstate] at h; exact h)
  | sbus2Gps => exact hskip _ 24 0x13 (by rw [hstate] at h; exact h)
  | sbus2Data1 => exact .inl hstate
  | sbus2Data2 => exact .inr hstate

theorem completes_unknown {s : Input} (h : s.unknown) (b : UInt8) : s.completes b = none := by
  have hstate : s.checkLimits.decodeState = .desync ∨ s.checkLimits.unknown := by
    unfold Input.checkLimits
    split
    · exact .inl rfl
    · exact .inr h
  unfold Input.completes
  rcases hstate with hstate | hstate | hstate
  · rw [hstate]
  · rw [hstate]
  · rw [hstate]

/-! ## One call -/

theorem readChannels_readChannels (frame frame' : Mem) (out : Channels) (maxValues : ℕ) :
    readChannels frame' (readChannels frame out maxValues) maxValues =
      readChannels frame' out maxValues := by
  unfold readChannels
  dsimp only
  generalize (if maxValues > sbusInputChannels then sbusInputChannels else maxValues) = chancount
  generalize decide (maxValues > 17 ∧ chancount > 15) = wide
  cases wide with
  | false =>
      congr 1
      funext c
      simp only [Bool.false_eq_true, if_false]
      split <;> rfl
  | true =>
      congr 1
      funext c
      simp only [if_true]
      by_cases h17 : c = 17
      · simp [h17]
      by_cases h16 : c = 16
      · simp [h16]
      simp only [ne_eq, h17, not_false_eq_true, Function.update_of_ne, h16]
      split <;> rfl

theorem foldl_readChannels (frames : List Mem) (frame : Mem) (out : Channels) (maxChannels : ℕ) :
    (frames ++ [frame]).foldl (fun o f => readChannels f o maxChannels) out =
      readChannels frame out maxChannels := by
  induction frames generalizing out with
  | nil => rfl
  | cons f frames ih =>
      rw [List.cons_append, List.foldl_cons, ih, readChannels_readChannels]

/-- What the bytes of a call leave: the channels of the frames that were decoded, and the flag of
the last frame. -/
theorem parse_spec (maxChannels : ℕ) (bytes : List UInt8) : ∀ r : Input × Channels × Bool,
    (r.1.unknown → r.2.2 = false) →
    (bytes.foldl (parseByte maxChannels) r).1 = bytes.foldl Input.advance r.1 ∧
    (bytes.foldl (parseByte maxChannels) r).2.1 =
      ((completed r.1 bytes).filter decodes).foldl (fun o f => readChannels f o maxChannels) r.2.1 ∧
    (bytes.foldl (parseByte maxChannels) r).2.2 =
      (((completed r.1 bytes).getLast?.map decodes).getD r.2.2) := by
  induction bytes with
  | nil => exact fun r _ => ⟨rfl, rfl, rfl⟩
  | cons b bytes ih =>
      intro r hr
      have hinput := parseByte_input maxChannels r b
      have hspec := parseByte_spec maxChannels r b hr
      have hr' : (parseByte maxChannels r b).1.unknown →
          (parseByte maxChannels r b).2.2 = false := by
        intro hunknown
        have hbefore : r.1.unknown := unknown_advance (hinput ▸ hunknown)
        rw [hspec, completes_unknown hbefore]
        exact hr hbefore
      obtain ⟨hfirst, hout, hret⟩ := ih _ hr'
      rw [hinput] at hfirst hout hret
      rw [List.foldl_cons, List.foldl_cons, completed]
      refine ⟨hfirst, ?_, ?_⟩
      · rw [hout, hspec]
        cases r.1.completes b with
        | none => rfl
        | some frame =>
            cases hd : decodes frame with
            | true => simp [hd]
            | false => simp [hd]
      · rw [hret, hspec]
        cases hc : r.1.completes b with
        | none => rfl
        | some frame =>
            have hflag : (if decodes frame then (readChannels frame r.2.1 maxChannels, true)
                else (r.2.1, false)).2 = decodes frame := by
              cases decodes frame <;> rfl
            dsimp only
            rw [hflag, Option.toList_some, List.singleton_append, List.getLast?_cons,
              Option.map_some,
              Option.getD_some, Option.getD_map]

/-! ## Calls -/

/-- A call of `sbus_parse`. -/
structure Call where
  now : UInt64
  bytes : List UInt8
  maxChannels : ℕ

/-- The input and the channels after a call, and its result. -/
def Call.parse (s : Input × Channels) (c : Call) : Input × Channels × Bool :=
  sbusParse s.1 s.2 c.now c.bytes c.maxChannels

/-- The caller goes on with what the call has left. -/
def parseStep (s : Input × Channels) (c : Call) : Input × Channels :=
  ((c.parse s).1, (c.parse s).2.1)

/-- `last_rx_time = now`. -/
def Input.received (s : Input) (now : UInt64) : Input := { s with lastRxTime := now }

theorem checkLimits_received (s : Input) (now : UInt64) :
    (s.received now).checkLimits = s.checkLimits.received now := by
  unfold Input.checkLimits Input.received
  dsimp only
  split <;> rfl

theorem sbusDecode_received (s : Input) (now : UInt64) (out : Channels) :
    (sbusDecode (s.received now) out 0).1 = (sbusDecode s out 0).1.received now ∧
      (sbusDecode (s.received now) out 0).2 = (sbusDecode s out 0).2 := by
  unfold sbusDecode Input.received
  dsimp only
  split
  · exact ⟨rfl, rfl⟩
  · split <;> exact ⟨rfl, rfl⟩

theorem collect_received (s : Input) (now : UInt64) (out : Channels) (b : UInt8) :
    ((s.received now).collect out false b 0).1 = (s.collect out false b 0).1.received now := by
  obtain ⟨hinput, hout⟩ := sbusDecode_received (s.push b) now out
  have hpush : (s.received now).push b = (s.push b).received now := rfl
  unfold Input.collect
  rw [hpush]
  dsimp only
  rw [hinput, hout]
  generalize sbusDecode (s.push b) out 0 = r
  have hstart : (r.1.received now).secondStart = r.1.secondStart := rfl
  have hstate : (r.1.received now).decodeState = r.1.decodeState := rfl
  have hcount : ((s.push b).received now).partialFrameCount = (s.push b).partialFrameCount := rfl
  rw [hstart, hstate, hcount]
  split_ifs <;> rfl

theorem skipSlot_received (s : Input) (now : UInt64) (b : UInt8) (size : ℕ) (header : UInt8) :
    (s.received now).skipSlot b size header = (s.skipSlot b size header).received now := by
  unfold Input.skipSlot Input.received
  dsimp only [Input.push]
  split_ifs <;> rfl

theorem advance_received (s : Input) (now : UInt64) (b : UInt8) :
    (s.received now).completes b = s.completes b ∧
      (s.received now).advance b = (s.advance b).received now := by
  have hlimits := checkLimits_received s now
  refine ⟨?_, ?_⟩
  · unfold Input.completes
    rw [hlimits]
    rfl
  · unfold Input.advance parseByte
    dsimp only
    rw [hlimits]
    generalize s.checkLimits = u
    have hstate : (u.received now).decodeState = u.decodeState := rfl
    rw [hstate]
    cases u.decodeState with
    | desync =>
        dsimp only
        split <;> rfl
    | sbusStart => exact collect_received u now _ b
    | sbus1Sync => exact collect_received u now _ b
    | sbus2Sync => exact collect_received u now _ b
    | sbus2RxVoltage => exact skipSlot_received u now b 3 0x03
    | sbus2Gps => exact skipSlot_received u now b 24 0x13
    | sbus2Data1 => rfl
    | sbus2Data2 => rfl

theorem completed_received (s : Input) (now : UInt64) (bytes : List UInt8) :
    completed (s.received now) bytes = completed s bytes ∧
      bytes.foldl Input.advance (s.received now) = (bytes.foldl Input.advance s).received now := by
  induction bytes generalizing s with
  | nil => exact ⟨rfl, rfl⟩
  | cons b bytes ih =>
      obtain ⟨hcompletes, hadvance⟩ := advance_received s now b
      obtain ⟨hframes, hinput⟩ := ih (s.advance b)
      refine ⟨?_, ?_⟩
      · rw [completed, hcompletes, hadvance, hframes, completed]
      · rw [List.foldl_cons, hadvance, hinput, List.foldl_cons]

theorem parse_frames (s : Input × Channels) (c : Call) :
    (c.parse s).1 = (c.bytes.foldl Input.advance s.1).received c.now ∧
    (c.parse s).2.1 = ((completed s.1 c.bytes).filter decodes).foldl
      (fun o f => readChannels f o c.maxChannels) s.2 ∧
    (c.parse s).2.2 = (((completed s.1 c.bytes).getLast?.map decodes).getD false) := by
  have hparse := parse_spec c.maxChannels c.bytes (s.1.received c.now, s.2, false) fun _ => rfl
  obtain ⟨hframes, hinput⟩ := completed_received s.1 c.now c.bytes
  dsimp only at hparse
  rw [hframes, hinput] at hparse
  exact hparse

/-- The frames of a stream, cut into calls. -/
def streamFrames : Input × Channels → List Call → List (List Mem)
  | _, [] => []
  | s, c :: cs => completed s.1 c.bytes :: streamFrames (parseStep s c) cs

theorem streamFrames_flatten (s : Input × Channels) (cs : List Call) :
    (streamFrames s cs).flatten = completed s.1 (cs.flatMap Call.bytes) := by
  induction cs generalizing s with
  | nil => rfl
  | cons c cs ih =>
      have hnext : (parseStep s c).1 = (c.bytes.foldl Input.advance s.1).received c.now :=
        (parse_frames s c).1
      rw [streamFrames, List.flatten_cons, ih, hnext, (completed_received _ _ _).1,
        List.flatMap_cons, completed_append]

/-- What a call should leave: it reports that a frame was decoded, with the channels and flags of
the last such frame, and leaves them alone when it reports none. -/
structure Delivers (s : Input × Channels) (c : Call) : Prop where
  reports : (c.parse s).2.2 = true ↔ ∃ f ∈ completed s.1 c.bytes, decodes f = true
  last : (c.parse s).2.2 = true → ∀ f, ((completed s.1 c.bytes).filter decodes).getLast? = some f →
    (c.parse s).2.1 = readChannels f s.2 c.maxChannels
  unchanged : (c.parse s).2.2 = false → (c.parse s).2.1 = s.2

/-- Behind a frame that was decoded, none fails in the same call. -/
def LastDecodes (s : Input × Channels) (c : Call) : Prop :=
  ∀ f, (completed s.1 c.bytes).getLast? = some f → decodes f = false →
    ∀ g ∈ completed s.1 c.bytes, decodes g = false

theorem delivers_iff (s : Input × Channels) (c : Call) : Delivers s c ↔ LastDecodes s c := by
  obtain ⟨_, hout, hret⟩ := parse_frames s c
  constructor
  · intro hd f hf hfail g hg
    rw [hf, Option.map_some, Option.getD_some, hfail] at hret
    by_contra hgood
    have hreported := hd.reports.2 ⟨g, hg, by simpa using hgood⟩
    rw [hret] at hreported
    cases hreported
  · intro hlast
    -- without a frame that decodes nothing is written
    have hnone : (∀ g ∈ completed s.1 c.bytes, decodes g = false) → (c.parse s).2.1 = s.2 := by
      intro hall
      have hnil : (completed s.1 c.bytes).filter decodes = [] :=
        List.filter_eq_nil_iff.2 fun g hg => by simp [hall g hg]
      rw [hout, hnil]
      rfl
    cases hf : (completed s.1 c.bytes).getLast? with
    | none =>
        have hnil : completed s.1 c.bytes = [] := List.getLast?_eq_none_iff.1 hf
        rw [hf] at hret
        refine ⟨?_, fun htrue => absurd (hret.symm.trans htrue) (by decide), fun _ => hnone ?_⟩
        · rw [hret, hnil]
          simp
        · rw [hnil]
          exact nofun
    | some f =>
        have hmem : f ∈ completed s.1 c.bytes := List.mem_of_getLast? hf
        rw [hf, Option.map_some, Option.getD_some] at hret
        cases hgood : decodes f with
        | false =>
            have hall := hlast f hf hgood
            rw [hgood] at hret
            refine ⟨?_, fun htrue => absurd (hret.symm.trans htrue) (by decide),
              fun _ => hnone hall⟩
            refine iff_of_false (by rw [hret]; decide) ?_
            rintro ⟨g, hg, hdecodes⟩
            rw [hall g hg] at hdecodes
            cases hdecodes
        | true =>
            rw [hgood] at hret
            refine ⟨iff_of_true hret ⟨f, hmem, hgood⟩, ?_,
              fun hfalse => absurd (hret.symm.trans hfalse) (by decide)⟩
            intro _ g hg
            obtain ⟨frames, hframes⟩ := List.getLast?_eq_some_iff.1 hg
            rw [hout, hframes, foldl_readChannels]

/-- However a stream is cut into calls, all of them deliver the frames they complete exactly when in
none of them a frame fails behind one that was decoded.  The frames are those of the stream. -/
theorem sbus_delivers_iff (s : Input × Channels) (calls : List Call) :
    (AllSteps parseStep Delivers s calls ↔ AllSteps parseStep LastDecodes s calls) ∧
      (streamFrames s calls).flatten = completed s.1 (calls.flatMap Call.bytes) :=
  ⟨allSteps_congr delivers_iff s calls, streamFrames_flatten s calls⟩

/-- A parser before its first byte. -/
def Input.initial : Input where
  decodeState := .desync
  sbusFrame := fun _ => 0
  partialFrameCount := 0
  frameDrops := 0
  lastRxTime := 0

/-- The channels of a caller that has received nothing. -/
def noChannels : Channels := ⟨fun _ => 0, 0, false, false⟩

/-- A frame, and the 25 bytes behind it, that do not start with the start symbol. -/
def frameAndNoise : Call := ⟨0, sbusStartSymbol :: List.replicate 49 0, 16⟩

/-- The channels are written, but the call reports no frame. -/
theorem sbus_frame_not_reported :
    ¬ Delivers (.initial, noChannels) frameAndNoise ∧
      (frameAndNoise.parse (.initial, noChannels)).2.2 = false ∧
      (frameAndNoise.parse (.initial, noChannels)).2.1.numValues = 16 := by
  have hret : (frameAndNoise.parse (.initial, noChannels)).2.2 = false := by decide +kernel
  have hnum : (frameAndNoise.parse (.initial, noChannels)).2.1.numValues = 16 := by decide +kernel
  refine ⟨fun hd => ?_, hret, hnum⟩
  rw [hd.unchanged hret] at hnum
  cases hnum

end Rc
end DtPhm
