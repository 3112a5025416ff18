import DtPhm.Mavlink.LogDownload

/-!
# LogLinks — log handlers on several links

Each link has a handler of its own, but all of them use one list file.  A handler is not disturbed
by the others as long as the file is there whenever it reads it:

* `Links`, `linksStep`, `linkOutput` — handlers that share the list file; `ι` names the links;
* `Reads` — the calls that read the file, `call_congr` — other calls do not depend on it;
* `Alike` — the simulation between a link among others and the link alone;
* `links_do_not_disturb` — the result, and `list_removed_by_other_link` — a run in which one link
  removes the list of another.
-/

namespace DtPhm
namespace Mavlink
namespace LogHandler

open Lib

variable {long : Long} {S : Storage}

/-! ## The links -/

/-- The handlers of the links, and the list file. -/
structure Links (ι : Type) where
  handlers : ι → Handler
  list : Option Text

variable {ι : Type} [DecidableEq ι]

/-- A call on one of the links. -/
def linksStep (long : Long) (S : Storage) (s : Links ι) (e : ι × Event) : Links ι where
  handlers := Function.update s.handlers e.1 (call long S (s.handlers e.1) s.list e.2).1
  list := (call long S (s.handlers e.1) s.list e.2).2

/-- What a call sends on a link. -/
def linkOutput (long : Long) (i : ι) (s : Links ι) (e : ι × Event) : List Message :=
  if e.1 = i then sent long (s.handlers i) s.list e.2 else []

/-- The calls on one link. -/
def ownEvents (i : ι) (es : List (ι × Event)) : List Event :=
  es.filterMap fun e => if e.1 = i then some e.2 else none

/-! ## Who reads the list file -/

/-- The calls that read the list file: sending a list, and taking up another log. -/
def Reads (h : Handler) : Event → Prop
  | .requestData id _ _ =>
      h.currentStatus ≠ .inactive ∧ id.toNat < h.logCount ∧ h.currentLogIndex ≠ id
  | .send free _ => h.currentStatus = .listing ∧ free 0 > 14 + 12
  | _ => False

theorem call_congr {h : Handler} {e : Event} (hreads : ¬ Reads h e) (list list' : Option Text) :
    (call long S h list e).1 = (call long S h list' e).1 ∧
      sent long h list e = sent long h list' e := by
  cases e with
  | requestList start stop =>
      refine ⟨?_, rfl⟩
      simp only [call, requestList]
      by_cases hactive : h.currentStatus = .inactive
      · simp [hactive]
      · by_cases hnew : (stop.toNat : ℤ) - start.toNat > h.logCount <;> simp [hactive, hnew]
  | requestData id ofs count =>
      refine ⟨?_, rfl⟩
      simp only [call, requestData]
      by_cases hactive : h.currentStatus = .inactive
      · simp [hactive]
      · by_cases hid : id.toNat ≥ h.logCount
        · simp [hid]
        · have hsame : h.currentLogIndex = id := by
            by_contra hne
            exact hreads ⟨hactive, by omega, hne⟩
          simp [hsame]
  | requestEnd => exact ⟨rfl, rfl⟩
  | send free free' =>
      -- the loop that sends the list takes no turn
      have hnone : ∀ l, sendLoop .listing 14 (logSendListing l) maxBytesSend free h 0 =
          (h, 0, []) := by
        intro l
        generalize maxBytesSend = n
        cases n with
        | zero => rfl
        | succ n =>
            have hnot : ¬ (h.currentStatus = .listing ∧ free 0 > 14 + 12 ∧ 0 < maxBytesSend) :=
              fun hc => hreads ⟨hc.1, hc.2.1⟩
            rw [sendLoop, if_neg hnot]
      have hsame : send long h list free free' = send long h list' free free' := by
        unfold send
        rw [hnone, hnone]
      simp only [call, sent, hsame, and_self]

/-- A call leaves the list file, removes it or makes it anew; and a handler that has a list
afterwards has made it, or had one. -/
theorem call_list (long : Long) (S : Storage) (h : Handler) (list : Option Text) (e : Event) :
    ((call long S h list e).2 = list ∨ (call long S h list e).2 = none ∨
      (call long S h list e).2 = listFile S) ∧
    ((call long S h list e).1.currentStatus ≠ .inactive →
      (call long S h list e).2 = listFile S ∨
        (h.currentStatus ≠ .inactive ∧ (call long S h list e).2 = list)) := by
  cases e with
  | requestList start stop =>
      simp only [call]
      rcases requestList_cases S h list start stop with ⟨next, last, heq⟩ | ⟨hactive, next, last,
        heq⟩
      · rw [heq]
        exact ⟨.inr (.inr rfl), fun _ => .inl rfl⟩
      · rw [heq]
        exact ⟨.inl rfl, fun _ => .inr ⟨hactive, rfl⟩⟩
  | requestData id ofs count =>
      refine ⟨.inl rfl, fun hactive' => .inr ⟨?_, rfl⟩⟩
      intro hactive
      refine hactive' ?_
      simp [call, requestData, hactive]
  | requestEnd =>
      refine ⟨.inr (.inl rfl), fun hactive' => absurd ?_ hactive'⟩
      simp only [call, requestEnd, closeAndUnlinkFiles]
      split <;> rfl
  | send free free' =>
      refine ⟨.inl rfl, fun hactive' => .inr ⟨?_, rfl⟩⟩
      intro hactive
      refine hactive' ?_
      rw [call, send_nothing (by simp [hactive]) (by simp [hactive])]
      exact hactive

/-! ## One link among others -/

/-- A link among others is like the link alone: the handlers are the same, and where the handler has
a list, its file is there or was removed. -/
structure Alike (S : Storage) (i : ι) (s : Links ι) (t : Handler × Option Text) : Prop where
  handler : s.handlers i = t.1
  shared : t.1.currentStatus ≠ .inactive → s.list = none ∨ s.list = listFile S
  alone : t.1.currentStatus ≠ .inactive → t.2 = listFile S

/-- The list file is there when the link reads it, if there is one at all. -/
def ListThere (S : Storage) (i : ι) (s : Links ι) (e : ι × Event) : Prop :=
  e.1 = i → Reads (s.handlers i) e.2 → (listFile S).isSome = true → s.list.isSome = true

theorem Alike.other {i : ι} {s : Links ι} {t : Handler × Option Text} (h : Alike S i s t)
    {e : ι × Event} (he : e.1 ≠ i) : Alike S i (linksStep long S s e) t := by
  refine ⟨?_, ?_, h.alone⟩
  · rw [← h.handler]
    exact Function.update_of_ne (Ne.symm he) _ _
  · intro hactive
    have hlist : (linksStep long S s e).list = (call long S (s.handlers e.1) s.list e.2).2 := rfl
    rw [hlist]
    rcases (call_list long S (s.handlers e.1) s.list e.2).1 with hsame | hnone | hnew
    · rw [hsame]
      exact h.shared hactive
    · exact .inl hnone
    · exact .inr hnew

theorem Alike.own {i : ι} {s : Links ι} {t : Handler × Option Text} (h : Alike S i s t)
    (long : Long)
    {e : Event} (hthere : ListThere S i s (i, e)) :
    Alike S i (linksStep long S s (i, e)) (step long S t e) ∧
      sent long (s.handlers i) s.list e = sent long t.1 t.2 e := by
  obtain ⟨g, list'⟩ := t
  have hg : s.handlers i = g := h.handler
  -- the handlers see the same list, or do not look
  have hsame : (call long S g s.list e).1 = (call long S g list' e).1 ∧
      sent long g s.list e = sent long g list' e := by
    by_cases hreads : Reads g e
    · have hactive : g.currentStatus ≠ .inactive := by
        cases e with
        | requestData id ofs count => exact hreads.1
        | send free free' =>
            have := hreads.1
            simp [this]
        | _ => exact absurd hreads id
      have hlists : s.list = list' := by
        rw [show list' = listFile S from h.alone hactive]
        rcases h.shared hactive with hnone | hlist
        · cases hfile : listFile S with
          | none => exact hnone
          | some content =>
              have := hthere rfl (by rw [hg]; exact hreads) (by rw [hfile]; rfl)
              rw [hnone] at this
              cases this
        · exact hlist
      rw [hlists]
      exact ⟨rfl, rfl⟩
    · exact call_congr hreads s.list list'
  have hstep : (step long S (g, list') e).1 = (call long S g s.list e).1 := hsame.1.symm
  refine ⟨⟨?_, ?_, ?_⟩, by rw [hg]; exact hsame.2⟩
  · rw [hstep]
    show Function.update s.handlers i (call long S (s.handlers i) s.list e).1 i = _
    rw [Function.update_self, hg]
  · intro hactive
    rw [hstep] at hactive
    have hlist : (linksStep long S s (i, e)).list = (call long S g s.list e).2 := by
      rw [linksStep, hg]
    rw [hlist]
    rcases (call_list long S g s.list e).2 hactive with hnew | ⟨hbefore, hkept⟩
    · exact .inr hnew
    · rw [hkept]
      exact h.shared hbefore
  · intro hactive
    rcases (call_list long S g list' e).2 hactive with hnew | ⟨hbefore, hkept⟩
    · exact hnew
    · exact hkept.trans (h.alone hbefore)

theorem Alike.outputs {i : ι} (es : List (ι × Event)) : ∀ {s : Links ι} {t : Handler × Option Text},
    Alike S i s t → AllSteps (linksStep long S) (ListThere S i) s es →
    outputs (linksStep long S) (linkOutput long i) s es =
      Lib.outputs (step long S) (output long) t (ownEvents i es) := by
  induction es with
  | nil =>
      intro s t _ _
      rfl
  | cons e es ih =>
      intro s t h hthere
      obtain ⟨j, e⟩ := e
      by_cases hj : j = i
      · subst hj
        obtain ⟨hnext, hout⟩ := h.own long hthere.1
        have hown : ownEvents j ((j, e) :: es) = e :: ownEvents j es := by simp [ownEvents]
        rw [hown, Lib.outputs, Lib.outputs, ih hnext hthere.2]
        simp only [linkOutput, if_true, output, hout]
      · have hown : ownEvents i ((j, e) :: es) = ownEvents i es := by simp [ownEvents, hj]
        rw [hown, Lib.outputs, ih (h.other hj) hthere.2]
        simp [linkOutput, hj]

/-- If the list file is there whenever a link reads it, the link sends the same as without the other
links. -/
theorem links_do_not_disturb (long : Long) (S : Storage) (list₀ : Option Text) (i : ι)
    (es : List (ι × Event))
    (hthere : AllSteps (linksStep long S) (ListThere S i) ⟨fun _ => .initial, list₀⟩ es) :
    outputs (linksStep long S) (linkOutput long i) ⟨fun _ => .initial, list₀⟩ es =
      outputs (step long S) (output long) (.initial, list₀) (ownEvents i es) :=
  Alike.outputs es ⟨rfl, fun h => absurd rfl h, fun h => absurd rfl h⟩ hthere

/-- Both links ask for a list, and one of them gets it. -/
theorem links_do_not_disturb_two :
    outputs (linksStep .bits32 smallStorage) (linkOutput .bits32 true) ⟨fun _ => .initial, none⟩
      [(true, .requestList 0 65535), (false, .requestList 0 65535),
        (true, .send (fun _ => 1000) (fun _ => 1000))] =
      outputs (step .bits32 smallStorage) (output .bits32) (.initial, none)
        [.requestList 0 65535, .send (fun _ => 1000) (fun _ => 1000)] := by
  refine links_do_not_disturb .bits32 smallStorage none true
    [(true, .requestList 0 65535), (false, .requestList 0 65535),
        (true, .send (fun _ => 1000) (fun _ => 1000))] ⟨?_, ?_, ?_, trivial⟩
  · exact fun _ h => absurd h id
  · exact fun h => absurd h (by decide)
  · exact fun _ _ _ => by decide +kernel

/-- A link that ends removes the list file, and the other link then shows its log without date and
size. -/
theorem list_removed_by_other_link :
    outputs (linksStep .bits32 smallStorage) (linkOutput .bits32 true) ⟨fun _ => .initial, none⟩
        [(true, .requestList 0 65535), (false, .requestEnd),
          (true, .send (fun _ => 1000) (fun _ => 1000))] ≠
      outputs (step .bits32 smallStorage) (output .bits32) (.initial, none)
        [.requestList 0 65535, .send (fun _ => 1000) (fun _ => 1000)] := by
  decide +kernel

end LogHandler
end Mavlink
end DtPhm
