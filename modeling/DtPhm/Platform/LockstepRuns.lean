import DtPhm.Platform.Lockstep

/-!
# LockstepRuns — no wait is missed, and none is touched when it is gone

* `Inside`, `Inv` — the invariant of the scheduler;
* `Inv.step` — every event keeps it, whatever time was set before;
* `lockstep_no_lost_timeout` — whose time has come is not left waiting, and no one times out before;
* `lockstep_no_stale_access` — the condition and the lock of a wait are only used while it lasts;
* `lockstep_no_deadlock` — no one waits forever for the mutex if no thread calls with the lock of
  another wait in its hand.
-/

namespace DtPhm
namespace Platform
namespace Lockstep

open Lib

variable {τ κ μ : Type*}

/-! ## The invariant -/

/-- What holds of a thread in its wait. -/
structure Inside (s : Lockstep τ κ μ) (n : τ) (cond : κ) (lock : μ) (place : Place) : Prop where
  cond : (s.waits n).passedCond = some cond
  lock : (s.waits n).passedLock = some lock
  done : (s.waits n).done = !place.early
  listed : place.early = true → n ∈ s.timedWaits
  quiet : place.asleep = true →
    (s.waits n).timeout = false ∧ (s.timeUs < (s.waits n).timeUs ∨ s.setter.Ahead n)
  timedOut : place.timedOut = true → (s.waits n).timeout = true

/-- What holds of any thread: what it has left on the list is done. -/
def Fits (s : Lockstep τ κ μ) (n : τ) : Waiter κ μ → Prop
  | .inside cond lock place => s.Inside n cond lock place
  | _ => n ∈ s.timedWaits → (s.waits n).done = true

/-- A thread that does not return before `set_absolute_time` is done. -/
def Attended (s : Lockstep τ κ μ) (n : τ) : Prop :=
  ∃ cond lock place, s.threads n = .inside cond lock place ∧ place.attended = true

/-- The invariant; no time later than `latest` has been set. -/
structure Inv (s : Lockstep τ κ μ) (latest : ℕ) : Prop where
  nodup : s.timedWaits.Nodup
  listed : ∀ n, n ∈ s.timedWaits ↔ (s.waits n).removed = false
  fits : ∀ n, s.Fits n (s.threads n)
  owned : ∀ n lock, (s.threads n).owned = some lock → s.holder lock = some (.thread n)
  timeout : ∀ n, (s.waits n).timeout = true → (s.waits n).timeUs ≤ latest
  returned : ∀ n timeUs, s.threads n = .returned timeUs true → timeUs ≤ latest
  now : s.timeUs ≤ latest
  time : ∀ timeUs, s.setter.time = some timeUs → s.timeUs = timeUs
  remaining : s.setter.remaining <:+ s.timedWaits
  attended : ∀ n, s.setter.target = some n → s.Attended n
  due : ∀ n, s.setter.due = some n → (s.waits n).timeUs ≤ s.timeUs
  unset : ∀ timeUs n rest, s.setter = .locking timeUs n rest → (s.waits n).timeout = false
  held : ∀ n, s.setter.held = some n →
    ∃ lock, (s.waits n).passedLock = some lock ∧ s.holder lock = some .setter

variable {s s' : Lockstep τ κ μ} {latest : ℕ} {n : τ}

/-- What holds of a thread depends on its own wait only, and on the time and the list. -/
theorem Fits.congr {w : Waiter κ μ} (h : s.Fits n w) (hwaits : s'.waits n = s.waits n)
    (hmem : n ∈ s'.timedWaits ↔ n ∈ s.timedWaits)
    (hquiet : s.timeUs < (s.waits n).timeUs ∨ s.setter.Ahead n →
      s'.timeUs < (s.waits n).timeUs ∨ s'.setter.Ahead n) : s'.Fits n w := by
  cases w with
  | inside cond lock place =>
      have h : s.Inside n cond lock place := h
      refine ⟨?_, ?_, ?_, fun hearly => hmem.2 (h.listed hearly), fun hasleep => ?_, ?_⟩
      · rw [hwaits]
        exact h.cond
      · rw [hwaits]
        exact h.lock
      · rw [hwaits]
        exact h.done
      · rw [hwaits]
        exact ⟨(h.quiet hasleep).1, hquiet (h.quiet hasleep).2⟩
      · rw [hwaits]
        exact h.timedOut
  | outside | returned | called =>
      intro hin
      rw [hwaits]
      exact h (hmem.1 hin)

theorem Fits.hear [DecidableEq κ] {w : Waiter κ μ} (h : s.Fits n w) (cond : Option κ) :
    s.Fits n (w.hear cond) := by
  cases w with
  | inside c lock place =>
      have hin : s.Inside n c lock place := h
      cases place with
      | waiting =>
          dsimp only [Waiter.hear]
          split
          · exact ⟨hin.cond, hin.lock, hin.done, hin.listed, nofun, nofun⟩
          · exact hin
      | _ => exact hin
  | outside | returned | called => exact h

theorem inv_init (latest : ℕ) : Inv (init : Lockstep τ κ μ) latest where
  nodup := List.nodup_nil
  listed _ := by simp [init]
  fits _ := fun h => nomatch h
  owned _ _ := nofun
  timeout _ := nofun
  returned _ _ := nofun
  now := Nat.zero_le _
  time _ := nofun
  remaining := List.suffix_refl _
  attended _ := nofun
  due _ := nofun
  unset _ _ _ := nofun
  held _ := nofun

namespace Inv

theorem mono (h : Inv s latest) {latest' : ℕ} (hle : latest ≤ latest') : Inv s latest' :=
  { h with
    timeout := fun n hn => Nat.le_trans (h.timeout n hn) hle
    returned := fun n t hn => Nat.le_trans (h.returned n t hn) hle
    now := Nat.le_trans h.now hle }

theorem passedLock_ne (h : Inv s latest) {lock : μ} (hholder : s.holder lock ≠ some .setter) (n : τ)
    (hn : s.setter.held = some n) : (s.waits n).passedLock ≠ some lock := by
  intro hlock
  obtain ⟨l, hl, hsetter⟩ := h.held n hn
  rw [hlock] at hl
  cases hl
  exact hholder hsetter

theorem owned_ne (h : Inv s latest) {lock : μ} (hfree : s.holder lock = none) (n : τ) :
    (s.threads n).owned ≠ some lock := by
  intro howned
  rw [h.owned n lock howned] at hfree
  cases hfree

theorem setHolder [DecidableEq μ] (h : Inv s latest) {lock : μ} {owner : Option (Owner τ)}
    (hfree : ∀ n, (s.threads n).owned ≠ some lock)
    (hsetter : ∀ n, s.setter.held = some n → (s.waits n).passedLock ≠ some lock) :
    Inv (s.setHolder lock owner) latest := by
  refine { h with fits := fun n => (h.fits n).congr rfl Iff.rfl id, owned := ?_, held := ?_ }
  · intro n l hl
    have hne : l ≠ lock := by
      rintro rfl
      exact hfree n hl
    exact (Function.update_of_ne hne ..).trans (h.owned n l hl)
  · intro n hn
    obtain ⟨l, hl, hholder⟩ := h.held n hn
    have hne : l ≠ lock := by
      rintro rfl
      exact hsetter n hn hl
    exact ⟨l, hl, (Function.update_of_ne hne ..).trans hholder⟩

theorem inside (h : Inv s latest) {cond : κ} {lock : μ} {place : Place}
    (hn : s.threads n = .inside cond lock place) : s.Inside n cond lock place := by
  have hfits := h.fits n
  rwa [hn] at hfits

theorem holder (h : Inv s latest) {cond : κ} {lock : μ} {place : Place}
    (hn : s.threads n = .inside cond lock place) (howns : place.owns = true) :
    s.holder lock = some (.thread n) := by
  apply h.owned n lock
  rw [hn, Waiter.owned, if_pos howns]

theorem attended_of_target (h : Inv s latest) {cond : κ} {lock : μ} {place : Place}
    (hn : s.threads n = .inside cond lock place) (htarget : s.setter.target = some n) :
    place.attended = true := by
  obtain ⟨c, l, p, hp, hattended⟩ := h.attended n htarget
  rw [hn] at hp
  cases hp
  exact hattended

theorem not_held (h : Inv s latest) {cond : κ} {lock : μ} {place : Place}
    (hn : s.threads n = .inside cond lock place) (howns : place.owns = true) :
    s.setter.held ≠ some n := by
  intro hheld
  obtain ⟨l, hl, hholder⟩ := h.held n hheld
  rw [(h.inside hn).lock] at hl
  cases hl
  rw [h.holder hn howns] at hholder
  cases hholder

variable [DecidableEq τ]

theorem move (h : Inv s latest) {v : TimedWait κ μ} {ws : List τ} {w : Waiter κ μ}
    (hs' : s' = { s with
      threads := Function.update s.threads n w, waits := Function.update s.waits n v, timedWaits :=
        ws })
    (hws : s.timedWaits <:+ ws) (hnodup : ws.Nodup) (hmem : ∀ m, m ≠ n → m ∈ ws → m ∈ s.timedWaits)
    (hlisted : n ∈ ws ↔ v.removed = false) (hfits : s'.Fits n w)
    (howned : ∀ lock, w.owned = some lock → s.holder lock = some (.thread n))
    (htimeout : v.timeout = true → v.timeUs ≤ latest)
    (hreturned : ∀ timeUs, w = .returned timeUs true → timeUs ≤ latest)
    (htarget : s.setter.target = some n → v.passedLock = (s.waits n).passedLock ∧
      v.timeUs = (s.waits n).timeUs ∧ v.timeout = (s.waits n).timeout ∧
        ∃ cond lock place, w = .inside cond lock place ∧ place.attended = true) :
          Inv s' latest := by
  subst hs'
  constructor
  · exact hnodup
  · intro m
    rcases eq_or_ne m n with rfl | hne
    · simpa using hlisted
    · simp only [Function.update_of_ne hne]
      rw [← h.listed m]
      exact ⟨hmem m hne, fun hin => hws.subset hin⟩
  · intro m
    rcases eq_or_ne m n with rfl | hne
    · simpa using hfits
    · simp only [Function.update_of_ne hne]
      exact (h.fits m).congr (by simp [hne]) ⟨hmem m hne, fun hin => hws.subset hin⟩ id
  · intro m lock hlock
    dsimp only at hlock
    rcases eq_or_ne m n with rfl | hne
    · rw [Function.update_self] at hlock
      exact howned lock hlock
    · rw [Function.update_of_ne hne] at hlock
      exact h.owned m lock hlock
  · intro m
    rcases eq_or_ne m n with rfl | hne
    · simpa using htimeout
    · simpa [hne] using h.timeout m
  · intro m timeUs hm
    dsimp only at hm
    rcases eq_or_ne m n with rfl | hne
    · rw [Function.update_self] at hm
      exact hreturned timeUs hm
    · rw [Function.update_of_ne hne] at hm
      exact h.returned m timeUs hm
  · exact h.now
  · exact h.time
  · exact h.remaining.trans hws
  · intro m hm
    rcases eq_or_ne m n with rfl | hne
    · obtain ⟨-, -, -, cond, lock, place, rfl, hplace⟩ := htarget hm
      exact ⟨cond, lock, place, Function.update_self .., hplace⟩
    · obtain ⟨cond, lock, place, hm, hplace⟩ := h.attended m hm
      exact ⟨cond, lock, place, (Function.update_of_ne hne ..).trans hm, hplace⟩
  · intro m hm
    rcases eq_or_ne m n with rfl | hne
    · simpa [(htarget (Setter.target_of_due hm)).2.1] using h.due m hm
    · simpa [hne] using h.due m hm
  · intro timeUs m rest hm
    rcases eq_or_ne m n with rfl | hne
    · have hm' : s.setter.target = some m := by
        rw [show s.setter = _ from hm]
        rfl
      simpa [(htarget hm').2.2.1] using h.unset timeUs m rest hm
    · simpa [hne] using h.unset timeUs m rest hm
  · intro m hm
    obtain ⟨lock, hlock, hholder⟩ := h.held m hm
    refine ⟨lock, ?_, hholder⟩
    rcases eq_or_ne m n with rfl | hne
    · simpa [(htarget (Setter.target_of_held hm)).1] using hlock
    · simpa [hne] using hlock

theorem setThread (h : Inv s latest) {w : Waiter κ μ} (hfits : s.Fits n w)
    (howned : ∀ lock, w.owned = some lock → s.holder lock = some (.thread n))
    (hreturned : ∀ timeUs, w = .returned timeUs true → timeUs ≤ latest)
    (htarget : s.setter.target = some n →
      ∃ cond lock place, w = .inside cond lock place ∧ place.attended = true) :
    Inv (s.setThread n w) latest := by
  refine h.move (n := n) (v := s.waits n) (w := w) ?_ (List.suffix_refl _) h.nodup
    (fun _ _ => id) (h.listed n) (hfits.congr rfl Iff.rfl id) howned (h.timeout n) hreturned
    fun hn => ⟨rfl, rfl, rfl, htarget hn⟩
  rw [Function.update_eq_self]
  rfl

/-! ## Steps of a thread -/

variable {cond : κ} {lock : μ} {place : Place}

theorem giveBack [DecidableEq μ] (h : Inv s latest) (hn : s.threads n = .inside cond lock place)
    (howns : place.owns = true) {place' : Place} (hfits : s.Inside n cond lock place')
    (howns' : place'.owns = false) (hattended : place'.attended = true) :
    Inv ((s.setHolder lock none).setThread n (.inside cond lock place')) latest := by
  have hthread : Inv (s.setThread n (.inside cond lock place')) latest := by
    refine h.setThread hfits (fun l hl => ?_) nofun fun _ => ⟨cond, lock, place', rfl, hattended⟩
    simp [Waiter.owned, howns'] at hl
  have hholder := h.holder hn howns
  have hsetter : s.holder lock ≠ some .setter := by
    rw [hholder]
    nofun
  refine hthread.setHolder (fun m hm => ?_) (hthread.passedLock_ne hsetter)
  · have hown := hthread.owned m lock hm
    rw [show (s.setThread n _).holder lock = s.holder lock from rfl, hholder] at hown
    cases hown
    simp [Lockstep.setThread, Waiter.owned, howns'] at hm

theorem takeAgain [DecidableEq μ] (h : Inv s latest) (hfree : s.holder lock = none) {w : Waiter κ μ}
    (hfits : s.Fits n w) (howned : ∀ l, w.owned = some l → l = lock)
    (hreturned : ∀ timeUs, w ≠ .returned timeUs true)
    (htarget : s.setter.target = some n →
      ∃ cond lock place, w = .inside cond lock place ∧ place.attended = true) :
    Inv ((s.setHolder lock (some (.thread n))).setThread n w) latest := by
  have htaken : Inv (s.setHolder lock (some (.thread n))) latest :=
    h.setHolder (h.owned_ne hfree) (h.passedLock_ne (by rw [hfree]; nofun))
  refine htaken.setThread (hfits.congr rfl Iff.rfl id) (fun l hl => ?_)
    (fun timeUs hw => absurd hw (hreturned timeUs)) htarget
  rw [howned l hl]
  exact Function.update_self ..

theorem enter (h : Inv s latest) {timeUs : ℕ} (hn : s.threads n = .called cond lock timeUs)
    (hmutex : s.setter.holdsMutex = false) : Inv (s.enter n cond lock timeUs) latest := by
  have hfits : n ∈ s.timedWaits → (s.waits n).done = true := by
    have hfits := h.fits n
    rwa [hn] at hfits
  have htarget : s.setter.target ≠ some n := by
    intro htarget
    rw [(Setter.holdsMutex_of_target htarget).1] at hmutex
    cases hmutex
  have hholder : s.holder lock = some (.thread n) := h.owned n lock (by rw [hn, Waiter.owned])
  unfold Lockstep.enter
  split
  · rename_i hpassed
    refine h.setThread (w := .returned timeUs true) hfits nofun ?_ fun ht => absurd ht htarget
    rintro t ⟨⟩
    exact Nat.le_trans hpassed h.now
  · rename_i hlater
    refine h.move (n := n) (w := .inside cond lock .ready) rfl ?_ ?_ ?_ ?_ ?_ ?_ nofun nofun
      fun ht => absurd ht htarget
    · split
      · exact List.suffix_cons n _
      · exact List.suffix_refl _
    · split
      · rename_i hremoved
        refine List.nodup_cons.2 ⟨fun hin => ?_, h.nodup⟩
        rw [(h.listed n).1 hin] at hremoved
        cases hremoved
      · exact h.nodup
    · intro m hne hm
      split at hm
      · exact (List.mem_cons.1 hm).resolve_left hne
      · exact hm
    · refine iff_of_true ?_ rfl
      split
      · exact List.mem_cons_self
      · rename_i hremoved
        exact (h.listed n).2 (by simpa using hremoved)
    · have hin : n ∈ if (s.waits n).removed = true then n :: s.timedWaits else s.timedWaits := by
        split
        · exact List.mem_cons_self
        · rename_i hremoved
          exact (h.listed n).2 (by simpa using hremoved)
      refine ⟨?_, ?_, ?_, fun _ => hin, fun _ => ⟨?_, Or.inl ?_⟩, nofun⟩
      all_goals simp only [Lockstep.setThread, Lockstep.setWait, Function.update_self]
      · rfl
      · exact Nat.lt_of_not_le hlater
    · intro l hl
      cases hl
      exact hholder

theorem resume [DecidableEq μ] (h : Inv s latest) (hn : s.threads n = .inside cond lock place) :
    Inv (s.resume n cond lock place) latest := by
  have hin := h.inside hn
  cases place with
  | ready =>
      exact h.giveBack hn rfl ⟨hin.cond, hin.lock, hin.done, hin.listed, hin.quiet, nofun⟩ rfl rfl
  | waiting => exact h
  | woken =>
      dsimp only [Lockstep.resume]
      split
      · rename_i hfree
        refine h.takeAgain hfree ⟨hin.cond, hin.lock, hin.done, hin.listed, nofun, nofun⟩ ?_ nofun
          fun _ => ⟨cond, lock, .resumed, rfl, rfl⟩
        rintro l ⟨⟩
        rfl
      · exact h
  | resumed =>
      have hholder := h.holder hn rfl
      refine h.setThread ⟨hin.cond, hin.lock, hin.done, hin.listed, nofun, id⟩ ?_ nofun fun ht => ?_
      · rintro l ⟨⟩
        exact hholder
      · -- the setter is before the lock, and has not marked the wait
        have hnot := h.not_held hn rfl
        refine ⟨cond, lock, _, rfl, ?_⟩
        cases hs : s.setter with
        | locking timeUs m rest =>
            rw [hs] at ht
            cases ht
            simp [Place.attended, h.unset timeUs n rest hs]
        | holding timeUs m rest | signalled timeUs m rest =>
            rw [hs] at ht hnot
            exact absurd ht hnot
        | _ =>
            rw [hs] at ht
            cases ht
  | read timeout =>
      have hholder := h.holder hn rfl
      dsimp only [Lockstep.resume]
      refine h.move (n := n) (v := { s.waits n with done := true }) rfl
        (List.suffix_refl _) h.nodup (fun _ _ => id)
        (h.listed n) ?_ ?_ (h.timeout n) nofun fun ht =>
          ⟨rfl, rfl, rfl, cond, lock, .done timeout, rfl,
            show (Place.read timeout).attended = true from h.attended_of_target hn ht⟩
      · refine ⟨?_, ?_, ?_, nofun, nofun, ?_⟩
        all_goals simp only [Lockstep.setThread, Lockstep.setWait, Function.update_self]
        · exact hin.cond
        · exact hin.lock
        · rfl
        · exact hin.timedOut
      · rintro l ⟨⟩
        exact hholder
  | done timeout =>
      have hholder := h.holder hn rfl
      dsimp only [Lockstep.resume]
      split
      · refine h.setThread ⟨hin.cond, hin.lock, hin.done, nofun, nofun, nofun⟩ ?_ nofun
          fun _ => ⟨cond, lock, .aside, rfl, rfl⟩
        rintro l ⟨⟩
        exact hholder
      · rename_i hleaves
        refine h.setThread (fun _ => hin.done) nofun ?_ fun ht => absurd ?_ hleaves
        · rintro t ⟨⟩
          exact h.timeout n (hin.timedOut rfl)
        · have hattended := h.attended_of_target hn ht
          simp only [Place.attended, Bool.not_eq_true'] at hattended
          exact ⟨by simp [hattended], (Setter.holdsMutex_of_target ht).2⟩
  | aside => exact h.giveBack hn rfl ⟨hin.cond, hin.lock, hin.done, nofun, nofun, nofun⟩ rfl rfl
  | unlocked =>
      dsimp only [Lockstep.resume]
      split
      · exact h
      · rename_i hmutex
        exact h.setThread ⟨hin.cond, hin.lock, hin.done, nofun, nofun, nofun⟩ nofun nofun
          fun ht => absurd (Setter.holdsMutex_of_target ht).1 hmutex
  | passed =>
      dsimp only [Lockstep.resume]
      split
      · rename_i hfree
        exact h.takeAgain hfree (fun _ => hin.done) nofun nofun
          fun ht => absurd (h.attended_of_target hn ht) Bool.false_ne_true
      · exact h

/-! ## Steps of the setter -/

omit [DecidableEq τ] in
theorem fits_setter (h : Inv s latest) {setter : Setter τ}
    (hahead : ∀ n ∈ s.timedWaits, (s.waits n).done = false → (s.waits n).timeout = false →
      s.timeUs < (s.waits n).timeUs ∨ s.setter.Ahead n →
        s.timeUs < (s.waits n).timeUs ∨ setter.Ahead n) (n : τ) :
    Fits { s with setter := setter } n (s.threads n) := by
  have hn := h.fits n
  cases hw : s.threads n with
  | inside cond lock place =>
      have hin := h.inside hw
      refine ⟨hin.cond, hin.lock, hin.done, hin.listed, fun hasleep => ?_, hin.timedOut⟩
      have hearly : place.early = true := by
        cases place with
        | ready | waiting => rfl
        | _ => cases hasleep
      obtain ⟨htimeout, hquiet⟩ := hin.quiet hasleep
      have hdone : (s.waits n).done = false := by rw [hin.done, hearly, Bool.not_true]
      exact ⟨htimeout, hahead n (hin.listed hearly) hdone htimeout hquiet⟩
  | outside | returned | called =>
      rw [hw] at hn
      exact hn

omit [DecidableEq τ] in
theorem setSetter (h : Inv s latest) {setter : Setter τ}
    (hahead : ∀ n ∈ s.timedWaits, (s.waits n).done = false → (s.waits n).timeout = false →
      s.timeUs < (s.waits n).timeUs ∨ s.setter.Ahead n →
        s.timeUs < (s.waits n).timeUs ∨ setter.Ahead n)
    (htime : ∀ timeUs, setter.time = some timeUs → s.timeUs = timeUs)
    (hremaining : setter.remaining <:+ s.timedWaits)
    (hattended : ∀ n, setter.target = some n → s.Attended n)
    (hdue : ∀ n, setter.due = some n → (s.waits n).timeUs ≤ s.timeUs)
    (hunset : ∀ timeUs n rest, setter = .locking timeUs n rest → (s.waits n).timeout = false)
    (hheld : ∀ n, setter.held = some n →
      ∃ lock, (s.waits n).passedLock = some lock ∧ s.holder lock = some .setter) :
    Inv { s with setter := setter } latest :=
  { h with
    fits := h.fits_setter hahead, time := htime, remaining := hremaining, attended := hattended,
    due := hdue, unset := hunset, held := hheld }

omit [DecidableEq τ] in
theorem attended_of_early (h : Inv s latest) (hn : n ∈ s.timedWaits)
    (hdone : (s.waits n).done = false)
    (htimeout : (s.waits n).timeout = false) : s.Attended n := by
  have hfits := h.fits n
  cases hw : s.threads n with
  | inside cond lock place =>
      have hin := h.inside hw
      refine ⟨cond, lock, place, hw, ?_⟩
      have hearly : place.early = true := by simpa [hdone] using hin.done
      cases place with
      | read timeout =>
          cases timeout with
          | false => rfl
          | true =>
              rw [hin.timedOut rfl] at htimeout
              cases htimeout
      | ready | waiting | woken | resumed => rfl
      | _ => cases hearly
  | outside | returned | called =>
      rw [hw] at hfits
      have hdone' : (s.waits n).done = true := hfits hn
      rw [hdone] at hdone'
      cases hdone'

theorem remove (h : Inv s latest) {timeUs : ℕ} {rest : List τ}
    (hs : s.setter = .walking timeUs (n :: rest)) (hdone : (s.waits n).done = true) :
    Inv { s.setWait n { s.waits n with removed := true } with
      timedWaits := s.timedWaits.erase n, setter := .walking timeUs rest } latest := by
  obtain ⟨front, hfront⟩ : n :: rest <:+ s.timedWaits := by
    have hremaining := h.remaining
    rwa [hs] at hremaining
  have hnodup := h.nodup
  have herase : s.timedWaits.erase n = front ++ rest := by
    rw [← hfront] at hnodup ⊢
    have hnot : n ∉ front :=
      fun hn => (List.nodup_append.1 hnodup).2.2 n hn n List.mem_cons_self rfl
    rw [List.erase_append_right _ hnot, List.erase_cons_head]
  have hmem : ∀ m, m ∈ s.timedWaits.erase n ↔ m ≠ n ∧ m ∈ s.timedWaits := fun m =>
    h.nodup.mem_erase_iff
  constructor
  · exact h.nodup.erase n
  · intro m
    rw [hmem, h.listed]
    rcases eq_or_ne m n with rfl | hne
    · simp [Lockstep.setWait]
    · simp [Lockstep.setWait, hne]
  · intro m
    rcases eq_or_ne m n with rfl | hne
    · have hfits := h.fits m
      have hnot : m ∉ s.timedWaits.erase m := fun hm => ((hmem m).1 hm).1 rfl
      change Fits _ m (s.threads m)
      cases hw : s.threads m with
      | inside cond lock place =>
          have hin := h.inside hw
          have hlate : place.early = false := by simpa [hdone] using hin.done
          refine ⟨?_, ?_, ?_, fun hearly => ?_, fun hasleep => ?_, ?_⟩
          all_goals simp only [Lockstep.setWait, Function.update_self]
          · exact hin.cond
          · exact hin.lock
          · exact hin.done
          · rw [hlate] at hearly
            cases hearly
          · cases place with
            | ready | waiting => cases hlate
            | _ => cases hasleep
          · exact hin.timedOut
      | outside | returned | called => exact fun hm => absurd hm hnot
    · refine (h.fits m).congr (Function.update_of_ne hne ..) ((hmem m).trans ?_) ?_
      · simp [hne]
      · rw [hs]
        exact Or.imp_right fun hm => (List.mem_cons.1 hm).resolve_left hne
  · exact h.owned
  · intro m
    rcases eq_or_ne m n with rfl | hne
    · simpa [Lockstep.setWait] using h.timeout m
    · simpa [Lockstep.setWait, hne] using h.timeout m
  · exact h.returned
  · exact h.now
  · intro t ht
    apply h.time
    rw [hs]
    exact ht
  · exact ⟨front, herase.symm⟩
  · nofun
  · nofun
  · nofun
  · nofun

theorem signal [DecidableEq κ] (h : Inv s latest) {timeUs : ℕ} {rest : List τ}
    (hs : s.setter = .holding timeUs n rest) :
    Inv { s.setWait n { s.waits n with timeout := true } with
      threads := fun m => (s.threads m).hear (s.waits n).passedCond
      setter := .signalled timeUs n rest } latest := by
  have hheld : s.setter.held = some n := by rw [hs]; rfl
  have hlocks := h.held n hheld
  obtain ⟨cond, lock, place, hn, hattended⟩ := h.attended n (Setter.target_of_held hheld)
  have hin := h.inside hn
  -- the setter has the lock, so the thread waits, or will take the lock again
  have hwoken : ∃ place', (s.threads n).hear (s.waits n).passedCond = .inside cond lock place' ∧
      (place' = .woken ∧ place.early = true ∨ place' = .unlocked ∧ place = .unlocked) := by
    rw [hn, hin.cond]
    cases place with
    | waiting => exact ⟨.woken, by simp [Waiter.hear], Or.inl ⟨rfl, rfl⟩⟩
    | woken => exact ⟨.woken, rfl, Or.inl ⟨rfl, rfl⟩⟩
    | unlocked => exact ⟨.unlocked, rfl, Or.inr ⟨rfl, rfl⟩⟩
    | passed => cases hattended
    | _ => exact absurd hheld (h.not_held hn rfl)
  obtain ⟨place', hplace, hcases⟩ := hwoken
  have hremaining := h.remaining
  rw [hs] at hremaining
  constructor
  · exact h.nodup
  · intro m
    rcases eq_or_ne m n with rfl | hne
    · simpa [Lockstep.setWait] using h.listed m
    · simpa [Lockstep.setWait, hne] using h.listed m
  · intro m
    rcases eq_or_ne m n with rfl | hne
    · dsimp only
      rw [hplace]
      refine ⟨?_, ?_, ?_, fun hearly => ?_, fun hasleep => ?_, fun _ => ?_⟩
      all_goals simp only [Lockstep.setWait, Function.update_self]
      · exact hin.cond
      · exact hin.lock
      · rcases hcases with ⟨rfl, hearly⟩ | ⟨rfl, rfl⟩
        · rw [hin.done, hearly]
          rfl
        · exact hin.done
      · rcases hcases with ⟨-, hearly⟩ | ⟨rfl, -⟩
        · exact hin.listed hearly
        · cases hearly
      · rcases hcases with ⟨rfl, -⟩ | ⟨rfl, -⟩
        · cases hasleep
        · cases hasleep
    · refine ((h.fits m).hear _).congr (Function.update_of_ne hne ..) Iff.rfl ?_
      rw [hs]
      exact Or.imp_right fun hm => hm.resolve_left hne
  · intro m l hl
    rw [Waiter.owned_hear] at hl
    exact h.owned m l hl
  · intro m
    rcases eq_or_ne m n with rfl | hne
    · intro _
      have hdue := h.due m (by rw [hs]; rfl)
      simpa [Lockstep.setWait] using Nat.le_trans hdue h.now
    · simpa [Lockstep.setWait, hne] using h.timeout m
  · intro m t hm
    exact h.returned m t (Waiter.hear_eq_returned hm)
  · exact h.now
  · intro t ht
    apply h.time
    rw [hs]
    exact ht
  · exact hremaining
  · rintro m ⟨⟩
    refine ⟨cond, lock, place', hplace, ?_⟩
    rcases hcases with ⟨rfl, -⟩ | ⟨rfl, -⟩
    · rfl
    · rfl
  · nofun
  · nofun
  · rintro m ⟨⟩
    obtain ⟨l, hl, hholder⟩ := hlocks
    exact ⟨l, by simpa [Lockstep.setWait] using hl, hholder⟩

theorem goOn [DecidableEq κ] [DecidableEq μ] (h : Inv s latest) : Inv s.goOn latest := by
  have hremaining := h.remaining
  have htime := h.time
  unfold Lockstep.goOn
  cases hs : s.setter with
  | idle => exact h
  | stored timeUs =>
      rw [hs] at htime
      exact h.setSetter (fun _ _ _ _ _ => Or.inr trivial) htime (List.nil_suffix)
        nofun nofun nofun nofun
  | locked timeUs =>
      rw [hs] at htime
      exact h.setSetter (fun m hm _ _ _ => Or.inr hm) htime (List.suffix_refl _)
        nofun nofun nofun nofun
  | walking timeUs rest =>
      rw [hs] at hremaining htime
      cases rest with
      | nil =>
          refine h.setSetter (fun m hm _ _ hquiet => ?_) nofun List.nil_suffix
            nofun nofun nofun nofun
          rw [hs] at hquiet
          exact Or.inl (hquiet.resolve_right (List.not_mem_nil))
      | cons n rest =>
          have hnow : s.timeUs = timeUs := htime timeUs rfl
          have hn : n ∈ s.timedWaits := hremaining.subset List.mem_cons_self
          dsimp only
          split
          · rename_i hdone
            exact h.remove hs hdone
          · rename_i hdone
            have hdone : (s.waits n).done = false := by simpa using hdone
            split
            · rename_i hdue
              have htimeout : (s.waits n).timeout = false := by simpa using hdue.2
              refine h.setSetter (fun m _ _ _ hquiet => ?_) htime hremaining ?_ ?_ ?_ nofun
              · rw [hs] at hquiet
                exact hquiet.imp_right List.mem_cons.1
              · rintro m ⟨⟩
                exact h.attended_of_early hn hdone htimeout
              · rintro m ⟨⟩
                exact Nat.le_trans hdue.1 (Nat.le_of_eq hnow.symm)
              · rintro t m r ⟨⟩
                exact htimeout
            · rename_i hdue
              refine h.setSetter (fun m _ _ htimeout hquiet => ?_) htime
                ((List.suffix_cons n rest).trans hremaining) nofun nofun nofun nofun
              rw [hs] at hquiet
              rcases hquiet with hlater | hm
              · exact Or.inl hlater
              · rcases List.mem_cons.1 hm with rfl | hm
                · -- it is not due yet
                  refine Or.inl ?_
                  rw [hnow]
                  by_contra hle
                  exact hdue ⟨Nat.le_of_not_lt hle, by simp [htimeout]⟩
                · exact Or.inr hm
  | locking timeUs n rest =>
      dsimp only
      split
      · exact h
      · rename_i lock hlock
        split
        · rename_i hfree
          have htaken : Inv (s.setHolder lock (some .setter)) latest :=
            h.setHolder (h.owned_ne hfree) (h.passedLock_ne (by rw [hfree]; nofun))
          rw [hs] at hremaining htime
          refine htaken.setSetter (fun m _ _ _ hquiet => ?_) htime hremaining ?_ ?_ nofun ?_
          · rw [show (s.setHolder lock _).setter = s.setter from rfl, hs] at hquiet
            exact hquiet
          · rintro m ⟨⟩
            exact h.attended n (by rw [hs]; rfl)
          · rintro m ⟨⟩
            exact h.due n (by rw [hs]; rfl)
          · rintro m ⟨⟩
            exact ⟨lock, hlock, Function.update_self ..⟩
        · exact h
  | holding timeUs n rest => exact h.signal hs
  | signalled timeUs n rest =>
      dsimp only
      split
      · exact h
      · rename_i lock hlock
        have hheld : s.setter.held = some n := by rw [hs]; rfl
        obtain ⟨l, hl, hholder⟩ := h.held n hheld
        rw [hlock] at hl
        cases hl
        rw [hs] at hremaining htime
        have hwalking : Inv { s with setter := .walking timeUs rest } latest := by
          refine h.setSetter (fun m _ _ _ hquiet => ?_) htime
            ((List.suffix_cons n rest).trans hremaining) nofun nofun nofun nofun
          rw [hs] at hquiet
          exact hquiet
        refine hwalking.setHolder (fun m hm => ?_) nofun
        rw [hwalking.owned m lock hm] at hholder
        cases hholder
  | cleared =>
      refine h.setSetter (fun m _ _ _ hquiet => ?_) nofun List.nil_suffix nofun nofun nofun nofun
      rw [hs] at hquiet
      exact Or.inl (hquiet.resolve_right id)

/-! ## Runs -/

variable [DecidableEq κ] [DecidableEq μ]

theorem step (h : Inv s latest) (e : Event τ κ μ) : Inv (s.step e) (max latest e.time) := by
  cases e with
  | lock n lock =>
      refine mono ?_ (Nat.le_max_left ..)
      dsimp only [Lockstep.step]
      split
      · rename_i hfree
        exact h.setHolder (h.owned_ne hfree.2) (h.passedLock_ne (by rw [hfree.2]; nofun))
      · exact h
  | unlock n lock =>
      refine mono ?_ (Nat.le_max_left ..)
      dsimp only [Lockstep.step]
      split
      · rename_i hholds
        refine h.setHolder (fun m hm => ?_) (h.passedLock_ne (by rw [hholds.2]; nofun))
        have hholder := h.owned m lock hm
        rw [hholds.2] at hholder
        cases hholder
        -- who is outside has no lock for a wait
        obtain ⟨hout, -⟩ := hholds
        cases hw : s.threads n with
        | outside | returned =>
            rw [hw] at hm
            cases hm
        | called | inside =>
            rw [hw] at hout
            cases hout
      · exact h
  | call n cond lock timeUs =>
      refine mono ?_ (Nat.le_max_left ..)
      dsimp only [Lockstep.step]
      split
      · rename_i hholds
        obtain ⟨hout, hholder⟩ := hholds
        have hfits := h.fits n
        refine h.setThread ?_ ?_ nofun fun ht => ?_
        · cases hw : s.threads n with
          | outside | returned =>
              rw [hw] at hfits
              exact hfits
          | called | inside =>
              rw [hw] at hout
              cases hout
        · rintro l ⟨⟩
          exact hholder
        · obtain ⟨c, l, p, hn, -⟩ := h.attended n ht
          rw [hn] at hout
          cases hout
      · exact h
  | run n =>
      refine mono ?_ (Nat.le_max_left ..)
      dsimp only [Lockstep.step]
      cases hw : s.threads n with
      | called cond lock timeUs =>
          dsimp only
          split
          · exact h
          · rename_i hmutex
            exact h.enter hw (by simpa using hmutex)
      | inside cond lock place => exact h.resume hw
      | outside | returned => exact h
  | wake n =>
      refine mono ?_ (Nat.le_max_left ..)
      dsimp only [Lockstep.step]
      split
      · rename_i cond lock hw
        have hin := h.inside hw
        exact h.setThread ⟨hin.cond, hin.lock, hin.done, hin.listed, nofun, nofun⟩ nofun nofun
          fun _ => ⟨cond, lock, .woken, rfl, rfl⟩
      · exact h
  | setAbsoluteTime timeUs =>
      have hmono := h.mono (Nat.le_max_left latest timeUs)
      dsimp only [Lockstep.step]
      split
      · rename_i hs
        exact { hmono with
          fits := fun n => (h.fits n).congr rfl Iff.rfl fun _ => Or.inr trivial
          now := Nat.le_max_right ..
          time := fun t ht => Option.some.inj ht
          remaining := List.nil_suffix
          attended := nofun
          due := nofun
          unset := nofun
          held := nofun }
      · exact hmono
  | set => exact h.goOn.mono (Nat.le_max_left ..)

end Inv

/-- The latest time that is set in a run. -/
def latestTime (es : List (Event τ κ μ)) : ℕ := (es.map Event.time).foldl max 0

theorem inv_exec [DecidableEq τ] [DecidableEq κ] [DecidableEq μ] (es : List (Event τ κ μ)) :
    Inv (exec step init es) (latestTime es) := by
  have hrun : ∀ (es : List (Event τ κ μ)) {s : Lockstep τ κ μ} {latest : ℕ}, Inv s latest →
      Inv (exec step s es) ((es.map Event.time).foldl max latest) := by
    intro es
    induction es with
    | nil => exact fun h => h
    | cons e es ih => exact fun h => ih (h.step e)
  exact hrun es (inv_init 0)

variable [DecidableEq τ] [DecidableEq κ] [DecidableEq μ]

/-- No timeout is lost: while the time is not being set, no thread is left waiting, or about to
wait, whose time has come.  And none comes early: who has returned with a timeout waited for a time
that was reached. -/
theorem lockstep_no_lost_timeout (es : List (Event τ κ μ)) :
    ((exec step init es).setter = .idle → ∀ n cond lock place,
      (exec step init es).threads n = .inside cond lock place → place.asleep = true →
        (exec step init es).timeUs < ((exec step init es).waits n).timeUs) ∧
      ∀ n timeUs, (exec step init es).threads n = .returned timeUs true →
        timeUs ≤ latestTime es := by
  have h := inv_exec es
  refine ⟨fun hidle n cond lock place hn hasleep => ?_, fun n timeUs hn => h.returned n timeUs hn⟩
  obtain ⟨-, hlater | hahead⟩ := (h.inside hn).quiet hasleep
  · exact hlater
  · rw [hidle] at hahead
    exact hahead.elim

/-- The lock and the condition of a wait are only used by the setter while the thread is in that
wait. -/
theorem lockstep_no_stale_access (es : List (Event τ κ μ)) (n : τ)
    (hn : (exec step init es).setter.target = some n) :
    ∃ cond lock place, (exec step init es).threads n = .inside cond lock place ∧
      ((exec step init es).waits n).passedCond = some cond ∧
      ((exec step init es).waits n).passedLock = some lock := by
  have h := inv_exec es
  obtain ⟨cond, lock, place, hin, -⟩ := h.attended n hn
  exact ⟨cond, lock, place, hin, (h.inside hin).cond, (h.inside hin).lock⟩

/-- A thread has waited until 5 and waits again, with the same object, when another one is about to
wait until 15; then the time is set to 20. -/
def reusedWait : List (Event Bool Unit Bool) :=
  [.lock false false, .call false () false 5, .run false, .run false, .setAbsoluteTime 10, .set,
    .set,
    .set, .set, .set, .set, .set, .set, .run false, .run false, .run false, .run false,
    .call false () false 50, .run false, .run false, .lock true true, .call true () true 15,
      .run true,
    .setAbsoluteTime 20, .set, .set, .set]

theorem lockstep_no_stale_access_reused :
    ∃ cond lock place, (exec step init reusedWait).threads true = .inside cond lock place ∧
      ((exec step init reusedWait).waits true).passedCond = some cond ∧
      ((exec step init reusedWait).waits true).passedLock = some lock :=
  lockstep_no_stale_access reusedWait true (by decide)

/-! ## Locks -/

/-- Who calls does not hold the lock of another wait. -/
def CallsAlone (s : Lockstep τ κ μ) : Event τ κ μ → Prop
  | .call n _ _ _ => ∀ m cond lock place, m ≠ n → s.threads m = .inside cond lock place →
      s.holder lock ≠ some (.thread n)
  | _ => True

/-- The lock of a wait is held by its thread, by the setter, or by someone who is not in a wait. -/
structure Apart (s : Lockstep τ κ μ) : Prop where
  setter : ∀ lock, s.holder lock = some .setter → s.setter.held ≠ none
  unique : ∀ lock lock', s.holder lock = some .setter → s.holder lock' = some .setter → lock = lock'
  holder : ∀ n cond lock place, s.threads n = .inside cond lock place → ∀ m, m ≠ n →
    s.holder lock = some (.thread m) → (s.threads m).isOutside = true
  locks : ∀ n m cond cond' lock place place', s.threads n = .inside cond lock place →
    s.threads m = .inside cond' lock place' → n = m
  own : ∀ n cond lock place, s.threads n = .inside cond lock place →
    s.holder lock = some (.thread n) → place.owns = true

/-- A thread that cannot go on: it waits for the mutex, for its condition, or for its lock. -/
def Blocked (s : Lockstep τ κ μ) (n : τ) : Prop :=
  match s.threads n with
  | .called .. | .inside _ _ .unlocked => s.setter.holdsMutex = true
  | .inside _ _ .waiting => True
  | .inside _ lock .woken | .inside _ lock .passed => s.holder lock ≠ none
  | _ => False

/-- What a thread changes in a step of its own: it may take its lock, or give a lock back. -/
structure Moves (s s' : Lockstep τ κ μ) (n : τ) : Prop where
  others : ∀ m, m ≠ n → s'.threads m = s.threads m
  setter : s'.setter = s.setter
  holder : ∀ lock, s'.holder lock = s.holder lock ∨ s'.holder lock = none ∨
    (s.holder lock = none ∧ s'.holder lock = some (.thread n) ∧
      ((s'.threads n).isOutside = true ∨ ∃ cond place, s'.threads n = .inside cond lock place))
  inside : ∀ cond lock place, s'.threads n = .inside cond lock place →
    (∃ place', s.threads n = .inside cond lock place') ∨
      ∃ timeUs, s.threads n = .called cond lock timeUs
  own : ∀ cond lock place, s'.threads n = .inside cond lock place →
    s'.holder lock = some (.thread n) → place.owns = true ∨
      ∃ place', s.threads n = .inside cond lock place' ∧ s.holder lock = some (.thread n) ∧
        place'.owns = place.owns
  outside : (s.threads n).isOutside = true → (s'.threads n).isOutside = true

namespace Moves

variable {s s' : Lockstep τ κ μ} {n : τ}

omit [DecidableEq τ] [DecidableEq κ] [DecidableEq μ] in
theorem refl (s : Lockstep τ κ μ) (n : τ) : Moves s s n :=
  ⟨fun _ _ => rfl, rfl, fun _ => Or.inl rfl, fun _ _ place hn => Or.inl ⟨place, hn⟩,
    fun _ _ place hn hholder => Or.inr ⟨place, hn, hholder, rfl⟩, id⟩

omit [DecidableEq κ] [DecidableEq μ] in
theorem of_update {w : Waiter κ μ} (hthreads : s'.threads = Function.update s.threads n w)
    (hsetter : s'.setter = s.setter) (hout : (s.threads n).isOutside = false)
    (hholder : ∀ lock, s'.holder lock = s.holder lock ∨ s'.holder lock = none ∨
      (s.holder lock = none ∧ s'.holder lock = some (.thread n) ∧
        (w.isOutside = true ∨ ∃ cond place, w = .inside cond lock place)))
    (hinside : ∀ cond lock place, w = .inside cond lock place →
      (∃ place', s.threads n = .inside cond lock place') ∨
        ∃ timeUs, s.threads n = .called cond lock timeUs)
    (hown : ∀ cond lock place, w = .inside cond lock place → s'.holder lock = some (.thread n) →
      place.owns = true ∨ ∃ place', s.threads n = .inside cond lock place' ∧
        s.holder lock = some (.thread n) ∧ place'.owns = place.owns) : Moves s s' n := by
  have hn : s'.threads n = w := by rw [hthreads, Function.update_self]
  refine ⟨fun m hm => ?_, hsetter, fun lock => ?_, fun cond lock place hin => ?_,
    fun cond lock place hin => ?_, fun h => ?_⟩
  · rw [hthreads, Function.update_of_ne hm]
  · rw [hn]
    exact hholder lock
  · rw [hn] at hin
    exact hinside cond lock place hin
  · rw [hn] at hin
    exact hown cond lock place hin
  · rw [hout] at h
    cases h

omit [DecidableEq κ] in
theorem resume {cond : κ} {lock : μ} {place : Place} (hn : s.threads n = .inside cond lock place) :
    Moves s (s.resume n cond lock place) n := by
  have hout : (s.threads n).isOutside = false := by rw [hn]; rfl
  have hsame : ∀ {p : Place} (c : κ) (l : μ) (p' : Place),
      (.inside cond lock p : Waiter κ μ) = .inside c l p' →
        (∃ place', s.threads n = .inside c l place') ∨
          ∃ timeUs, s.threads n = .called c l timeUs := by
    rintro p c l p' ⟨⟩
    exact Or.inl ⟨place, hn⟩
  have hfree : ∀ l, Function.update s.holder lock none l = s.holder l ∨
      Function.update s.holder lock none l = none := by
    intro l
    rcases eq_or_ne l lock with rfl | hne
    · exact Or.inr (Function.update_self ..)
    · exact Or.inl (Function.update_of_ne hne ..)
  have hkept : ∀ {P : μ → Prop} l, s.holder l = s.holder l ∨ s.holder l = none ∨ P l :=
    fun _ => Or.inl rfl
  have hgiven : ∀ {p : Place} (c : κ) (l : μ) (p' : Place),
      (.inside cond lock p : Waiter κ μ) = .inside c l p' →
        Function.update s.holder lock none l ≠ some (.thread n) := by
    rintro p c l p' ⟨⟩ hl
    rw [Function.update_self] at hl
    cases hl
  have howns : ∀ {p : Place} {P : κ → μ → Place → Prop} {Q : μ → Prop}, p.owns = true →
      ∀ (c : κ) (l : μ) (p' : Place), (.inside cond lock p : Waiter κ μ) = .inside c l p' → Q l →
        p'.owns = true ∨ P c l p' := by
    rintro p P Q hp c l p' ⟨⟩ -
    exact Or.inl hp
  cases place with
  | ready | aside =>
      exact of_update rfl rfl hout (fun l => (hfree l).imp_right Or.inl) hsame
        fun c l p hp hl => absurd hl (hgiven c l p hp)
  | waiting => exact refl s n
  | woken =>
      dsimp only [Lockstep.resume]
      split
      · rename_i hnone
        refine of_update rfl rfl hout (fun l => ?_) hsame (howns rfl)
        rcases eq_or_ne l lock with rfl | hne
        · exact Or.inr (Or.inr ⟨hnone, Function.update_self .., Or.inr ⟨cond, .resumed, rfl⟩⟩)
        · exact Or.inl (Function.update_of_ne hne ..)
      · exact refl s n
  | passed =>
      dsimp only [Lockstep.resume]
      split
      · rename_i hnone
        refine of_update rfl rfl hout (fun l => ?_) nofun nofun
        rcases eq_or_ne l lock with rfl | hne
        · exact Or.inr (Or.inr ⟨hnone, Function.update_self .., Or.inl rfl⟩)
        · exact Or.inl (Function.update_of_ne hne ..)
      · exact refl s n
  | resumed | read => exact of_update rfl rfl hout hkept hsame (howns rfl)
  | done =>
      dsimp only [Lockstep.resume]
      split
      · exact of_update rfl rfl hout hkept hsame (howns rfl)
      · exact of_update rfl rfl hout hkept nofun nofun
  | unlocked =>
      dsimp only [Lockstep.resume]
      split
      · exact refl s n
      · refine of_update rfl rfl hout hkept hsame ?_
        rintro c l p ⟨⟩ hl
        exact Or.inr ⟨.unlocked, hn, hl, rfl⟩

end Moves

theorem moves_step (s : Lockstep τ κ μ) {e : Event τ κ μ} {n : τ}
    (he : (∃ lock, e = .lock n lock) ∨ (∃ lock, e = .unlock n lock) ∨ e = .run n ∨ e = .wake n) :
    Moves s (s.step e) n := by
  rcases he with ⟨lock, rfl⟩ | ⟨lock, rfl⟩ | rfl | rfl
  · dsimp only [step]
    split
    · rename_i hfree
      refine ⟨fun _ _ => rfl, rfl, fun l => ?_, fun _ _ place hn => Or.inl ⟨place, hn⟩, ?_, id⟩
      · rcases eq_or_ne l lock with rfl | hne
        · exact Or.inr (Or.inr ⟨hfree.2, Function.update_self .., Or.inl hfree.1⟩)
        · exact Or.inl (Function.update_of_ne hne ..)
      · intro c l p hn _
        -- who is outside is in no wait
        have hout := hfree.1
        rw [show s.threads n = _ from hn] at hout
        cases hout
    · exact Moves.refl s n
  · dsimp only [step]
    split
    · rename_i hholds
      refine ⟨fun _ _ => rfl, rfl, fun l => ?_, fun _ _ place hn => Or.inl ⟨place, hn⟩, ?_, id⟩
      · rcases eq_or_ne l lock with rfl | hne
        · exact Or.inr (Or.inl (Function.update_self ..))
        · exact Or.inl (Function.update_of_ne hne ..)
      · intro c l p hn _
        have hout := hholds.1
        rw [show s.threads n = _ from hn] at hout
        cases hout
    · exact Moves.refl s n
  · dsimp only [step]
    cases hw : s.threads n with
    | called cond lock timeUs =>
        have hout : (s.threads n).isOutside = false := by rw [hw]; rfl
        dsimp only
        split
        · exact Moves.refl s n
        · unfold enter
          split
          · exact Moves.of_update rfl rfl hout (fun _ => Or.inl rfl) nofun nofun
          · refine Moves.of_update rfl rfl hout (fun _ => Or.inl rfl) ?_ ?_
            · rintro c l p ⟨⟩
              exact Or.inr ⟨timeUs, hw⟩
            · rintro c l p ⟨⟩ -
              exact Or.inl rfl
    | inside cond lock place => exact Moves.resume hw
    | outside | returned => exact Moves.refl s n
  · dsimp only [step]
    split
    · rename_i cond lock hw
      refine Moves.of_update rfl rfl (by rw [hw]; rfl) (fun _ => Or.inl rfl) ?_ ?_
      · rintro c l p ⟨⟩
        exact Or.inl ⟨.waiting, hw⟩
      · rintro c l p ⟨⟩ hl
        exact Or.inr ⟨.waiting, hw, hl, rfl⟩
    · exact Moves.refl s n

namespace Apart

variable {s s' : Lockstep τ κ μ} {latest : ℕ} {n : τ}

omit [DecidableEq κ] [DecidableEq μ] in
theorem moves (ha : Apart s) (h : Inv s latest) (hmoves : Moves s s' n) : Apart s' := by
  have hsetter : ∀ lock, s'.holder lock = some .setter → s.holder lock = some .setter := by
    intro lock hlock
    rcases hmoves.holder lock with hsame | hnone | ⟨-, htaken, -⟩
    · rwa [hsame] at hlock
    · rw [hnone] at hlock
      cases hlock
    · rw [htaken] at hlock
      cases hlock
  -- before its step, the thread was in the same wait, or held the lock for it
  have hbefore : ∀ cond lock place, s'.threads n = .inside cond lock place →
      (∃ place', s.threads n = .inside cond lock place') ∨
        (s.holder lock = some (.thread n) ∧ (s.threads n).isOutside = false) := by
    intro cond lock place hn
    rcases hmoves.inside cond lock place hn with hin | ⟨timeUs, hcalled⟩
    · exact Or.inl hin
    · exact Or.inr ⟨h.owned n lock (by rw [hcalled]; rfl), by rw [hcalled]; rfl⟩
  have hother : ∀ a, a ≠ n → ∀ cond lock place, s'.threads a = .inside cond lock place →
      ∀ cond' place', s'.threads n = .inside cond' lock place' → False := by
    intro a hne cond lock place hina cond' place' hinn
    rw [hmoves.others a hne] at hina
    rcases hbefore cond' lock place' hinn with ⟨place'', hin⟩ | ⟨hholder, hout⟩
    · exact hne (ha.locks a n cond cond' lock place place'' hina hin)
    · rw [ha.holder a cond lock place hina n hne.symm hholder] at hout
      cases hout
  constructor
  · intro lock hlock
    rw [hmoves.setter]
    exact ha.setter lock (hsetter lock hlock)
  · intro lock lock' hlock hlock'
    exact ha.unique lock lock' (hsetter lock hlock) (hsetter lock' hlock')
  · intro a cond lock place hina b hne hlock
    rcases hmoves.holder lock with hsame | hnone | ⟨hfree, htaken, hplace⟩
    · rw [hsame] at hlock
      have hout : (s.threads b).isOutside = true := by
        rcases eq_or_ne a n with rfl | han
        · rcases hbefore cond lock place hina with ⟨place', hin⟩ | ⟨hholder, -⟩
          · exact ha.holder a cond lock place' hin b hne hlock
          · rw [hholder] at hlock
            cases hlock
            exact absurd rfl hne
        · rw [hmoves.others a han] at hina
          exact ha.holder a cond lock place hina b hne hlock
      rcases eq_or_ne b n with rfl | hbn
      · exact hmoves.outside hout
      · rwa [hmoves.others b hbn]
    · rw [hnone] at hlock
      cases hlock
    · rw [htaken] at hlock
      cases hlock
      rcases hplace with hout | ⟨cond', place', hin⟩
      · exact hout
      · exact (hother a hne.symm cond lock place hina cond' place' hin).elim
  · intro a b cond cond' lock place place' hina hinb
    rcases eq_or_ne a n with rfl | han
    · by_contra hne
      exact hother b (Ne.symm hne) cond' lock place' hinb cond place hina
    · rcases eq_or_ne b n with rfl | hbn
      · exact (hother a han cond lock place hina cond' place' hinb).elim
      · rw [hmoves.others a han] at hina
        rw [hmoves.others b hbn] at hinb
        exact ha.locks a b cond cond' lock place place' hina hinb
  · intro a cond lock place hina hlock
    rcases eq_or_ne a n with rfl | han
    · rcases hmoves.own cond lock place hina hlock with howns | ⟨place', hin, hholder, heq⟩
      · exact howns
      · rw [← heq]
        exact ha.own a cond lock place' hin hholder
    · rw [hmoves.others a han] at hina
      rcases hmoves.holder lock with hsame | hnone | ⟨-, htaken, -⟩
      · rw [hsame] at hlock
        exact ha.own a cond lock place hina hlock
      · rw [hnone] at hlock
        cases hlock
      · rw [htaken] at hlock
        cases hlock
        exact absurd rfl han

omit [DecidableEq τ] [DecidableEq κ] [DecidableEq μ] in
theorem of_setter (ha : Apart s) (hout : ∀ m, (s'.threads m).isOutside = (s.threads m).isOutside)
    (hin : ∀ m cond lock place, s'.threads m = .inside cond lock place →
      ∃ place', s.threads m = .inside cond lock place' ∧ place'.owns = place.owns)
    (hholder : ∀ m lock, s'.holder lock = some (.thread m) → s.holder lock = some (.thread m))
    (hsetter : ∀ lock, s'.holder lock = some .setter → s'.setter.held ≠ none)
    (hunique : ∀ lock lock', s'.holder lock = some .setter → s'.holder lock' = some .setter →
      lock = lock') : Apart s' := by
  refine ⟨hsetter, hunique, fun a cond lock place ha' b hne hlock => ?_, ?_, ?_⟩
  · obtain ⟨place', ha', -⟩ := hin a cond lock place ha'
    rw [hout]
    exact ha.holder a cond lock place' ha' b hne (hholder b lock hlock)
  · intro a b cond cond' lock place place' ha' hb'
    obtain ⟨p, hp, -⟩ := hin a cond lock place ha'
    obtain ⟨p', hp', -⟩ := hin b cond' lock place' hb'
    exact ha.locks a b cond cond' lock p p' hp hp'
  · intro a cond lock place ha' hlock
    obtain ⟨p, hp, heq⟩ := hin a cond lock place ha'
    rw [← heq]
    exact ha.own a cond lock p hp (hholder a lock hlock)

theorem goOn (ha : Apart s) (h : Inv s latest) : Apart s.goOn := by
  have hsame : ∀ m cond lock place, s.threads m = .inside cond lock place →
      ∃ place', s.threads m = .inside cond lock place' ∧ place'.owns = place.owns :=
    fun _ _ _ place hm => ⟨place, hm, rfl⟩
  -- where the setter holds no lock, it goes on holding none
  have hnone : s.setter.held = none → ∀ lock, s.holder lock ≠ some .setter :=
    fun hheld lock hlock => ha.setter lock hlock hheld
  unfold Lockstep.goOn
  cases hs : s.setter with
  | idle => exact ha
  | stored timeUs | locked timeUs | cleared =>
      rw [hs] at hnone
      exact ha.of_setter (fun _ => rfl) hsame (fun _ _ => id)
        (fun lock hlock => absurd hlock (hnone rfl lock)) ha.unique
  | walking timeUs rest =>
      rw [hs] at hnone
      cases rest with
      | nil =>
          exact ha.of_setter (fun _ => rfl) hsame (fun _ _ => id)
            (fun lock hlock => absurd hlock (hnone rfl lock)) ha.unique
      | cons n rest =>
          dsimp only
          split
          · exact ha.of_setter (fun _ => rfl) hsame (fun _ _ => id)
              (fun lock hlock => absurd hlock (hnone rfl lock)) ha.unique
          · split
            · exact ha.of_setter (fun _ => rfl) hsame (fun _ _ => id)
                (fun lock hlock => absurd hlock (hnone rfl lock)) ha.unique
            · exact ha.of_setter (fun _ => rfl) hsame (fun _ _ => id)
                (fun lock hlock => absurd hlock (hnone rfl lock)) ha.unique
  | locking timeUs n rest =>
      rw [hs] at hnone
      dsimp only
      split
      · exact ha
      · rename_i lock hlock
        split
        · have hotherwise : ∀ l, l ≠ lock →
              Function.update s.holder lock (some .setter) l = s.holder l :=
            fun l hne => Function.update_of_ne hne ..
          have htaken : ∀ l, Function.update s.holder lock (some .setter) l = some .setter →
              l = lock := by
            intro l hl
            by_contra hne
            rw [hotherwise l hne] at hl
            exact hnone rfl l hl
          refine ha.of_setter (fun _ => rfl) hsame (fun m l hl => ?_) (fun _ _ => nofun)
            fun l l' hl hl' => (htaken l hl).trans (htaken l' hl').symm
          rcases eq_or_ne l lock with rfl | hne
          · have hl : Function.update s.holder l (some .setter) l = some (.thread m) := hl
            rw [Function.update_self] at hl
            cases hl
          · exact (hotherwise l hne).symm.trans hl
        · exact ha
  | holding timeUs n rest =>
      exact ha.of_setter (fun m => Waiter.isOutside_hear _ _)
        (fun m cond lock place hm => Waiter.hear_eq_inside hm) (fun _ _ => id) (fun _ _ => nofun)
        ha.unique
  | signalled timeUs n rest =>
      dsimp only
      split
      · exact ha
      · rename_i lock hlock
        have hheld : s.setter.held = some n := by rw [hs]; rfl
        obtain ⟨l, hl, hholder⟩ := h.held n hheld
        rw [hlock] at hl
        cases hl
        have hleft : ∀ l, Function.update s.holder lock none l ≠ some .setter := by
          intro l hl
          rcases eq_or_ne l lock with rfl | hne
          · rw [Function.update_self] at hl
            cases hl
          · rw [Function.update_of_ne hne] at hl
            exact hne (ha.unique l lock hl hholder)
        refine ha.of_setter (fun _ => rfl) hsame (fun m l hl => ?_)
          (fun l hl => absurd hl (hleft l)) fun l _ hl => absurd hl (hleft l)
        rcases eq_or_ne l lock with rfl | hne
        · have hl : Function.update s.holder l none l = some (.thread m) := hl
          rw [Function.update_self] at hl
          cases hl
        · exact (Function.update_of_ne hne ..).symm.trans hl

theorem step (ha : Apart s) (h : Inv s latest) {e : Event τ κ μ} (he : CallsAlone s e) :
    Apart (s.step e) := by
  cases e with
  | lock n lock => exact ha.moves h (moves_step s (Or.inl ⟨lock, rfl⟩))
  | unlock n lock => exact ha.moves h (moves_step s (Or.inr (Or.inl ⟨lock, rfl⟩)))
  | run n => exact ha.moves h (moves_step s (Or.inr (Or.inr (Or.inl rfl))))
  | wake n => exact ha.moves h (moves_step s (Or.inr (Or.inr (Or.inr rfl))))
  | call n cond lock timeUs =>
      dsimp only [Lockstep.step]
      split
      · have hthreads : ∀ m c l p, Function.update s.threads n (.called cond lock timeUs) m =
            .inside c l p → m ≠ n ∧ s.threads m = .inside c l p := by
          intro m c l p hm
          rcases eq_or_ne m n with rfl | hne
          · rw [Function.update_self] at hm
            cases hm
          · rw [Function.update_of_ne hne] at hm
            exact ⟨hne, hm⟩
        refine ⟨ha.setter, ha.unique, fun a c l p hina b hne hlock => ?_, ?_, ?_⟩
        · obtain ⟨han, hwaits⟩ := hthreads a c l p hina
          have hbn : b ≠ n := by
            rintro rfl
            exact he a c l p han hwaits hlock
          change (Function.update s.threads n _ b).isOutside = true
          rw [Function.update_of_ne hbn]
          exact ha.holder a c l p hwaits b hne hlock
        · intro a b c c' l p p' hina hinb
          exact ha.locks a b c c' l p p' (hthreads a c l p hina).2 (hthreads b c' l p' hinb).2
        · intro a c l p hina hlock
          exact ha.own a c l p (hthreads a c l p hina).2 hlock
      · exact ha
  | setAbsoluteTime timeUs =>
      dsimp only [Lockstep.step]
      split
      · rename_i hs
        refine ha.of_setter (fun _ => rfl) (fun _ _ _ place hm => ⟨place, hm, rfl⟩) (fun _ _ => id)
          (fun lock hlock => absurd ?_ (ha.setter lock hlock)) ha.unique
        rw [hs]
        rfl
      · exact ha
  | set => exact ha.goOn h

end Apart

omit [DecidableEq τ] [DecidableEq κ] [DecidableEq μ] in
theorem apart_init : Apart (init : Lockstep τ κ μ) :=
  ⟨fun _ => nofun, fun _ _ => nofun, fun _ _ _ _ => nofun, fun _ _ _ _ _ _ _ => nofun,
    fun _ _ _ _ => nofun⟩

/-- The setter is never kept from a lock by someone who cannot go on himself, if no thread calls
`cond_timedwait` with the lock of another wait in its hand. -/
theorem lockstep_no_deadlock (es : List (Event τ κ μ)) (halone : AllSteps step CallsAlone init es)
    {timeUs : ℕ} {n : τ} {rest : List τ} (hs : (exec step init es).setter = .locking timeUs n rest)
    {lock : μ} (hlock : ((exec step init es).waits n).passedLock = some lock) {owner : Owner τ}
    (howner : (exec step init es).holder lock = some owner) :
    ∃ m, owner = .thread m ∧ ¬Blocked (exec step init es) m := by
  have hstep : ∀ (s : Lockstep τ κ μ) e, Apart s ∧ (∃ latest, Inv s latest) → CallsAlone s e →
      Apart (s.step e) ∧ ∃ latest, Inv (s.step e) latest := by
    rintro s e ⟨ha, latest, h⟩ he
    exact ⟨ha.step h he, _, h.step e⟩
  obtain ⟨ha, latest, h⟩ := invariant_of_allSteps hstep ⟨apart_init, 0, inv_init 0⟩ halone _
    (exec_mem_visited step init es)
  generalize exec step init es = s at hs hlock howner ha h
  have htarget : s.setter.target = some n := by rw [hs]; rfl
  obtain ⟨cond, l, place, hn, -⟩ := h.attended n htarget
  obtain rfl : l = lock := Option.some.inj ((h.inside hn).lock.symm.trans hlock)
  cases owner with
  | setter =>
      refine absurd ?_ (ha.setter l howner)
      rw [hs]
      rfl
  | thread m =>
      refine ⟨m, rfl, ?_⟩
      rcases eq_or_ne m n with rfl | hne
      · have howns := ha.own m cond l place hn howner
        rw [Blocked, hn]
        cases place with
        | waiting | woken | unlocked | passed => cases howns
        | _ => exact id
      · have hout := ha.holder n cond l place hn m hne howner
        rw [Blocked]
        cases hw : s.threads m with
        | outside | returned => exact id
        | called | inside =>
            rw [hw] at hout
            cases hout

theorem lockstep_no_deadlock_reused :
    ∃ m, Owner.thread true = .thread m ∧ ¬Blocked (exec step init reusedWait) m := by
  have halone : AllSteps step CallsAlone init reusedWait := by
    refine ⟨trivial, ?_, trivial, trivial, trivial, trivial, trivial, trivial, trivial, trivial,
      trivial, trivial, trivial, trivial, trivial, trivial, trivial, ?_, trivial, trivial, trivial,
      ?_, trivial, trivial, trivial, trivial, trivial, trivial⟩
    · intro m cond lock place hne hin
      cases m with
      | false => exact absurd rfl hne
      | true => cases hin
    · intro m cond lock place hne hin
      cases m with
      | false => exact absurd rfl hne
      | true => cases hin
    -- the first thread waits, and has given its lock back
    · intro m cond lock place hne hin
      cases m with
      | true => exact absurd rfl hne
      | false =>
          cases hin
          decide
  have hs : (exec step init reusedWait).setter = .locking 20 true [false] := rfl
  have hlock : ((exec step init reusedWait).waits true).passedLock = some true := rfl
  exact lockstep_no_deadlock reusedWait halone hs hlock rfl

/-- Two threads wait with the same lock. -/
def sharedLock : List (Event Bool Unit Unit) :=
  [.lock false (), .call false () () 5, .run false, .run false, .lock true (), .call true () () 5,
    .setAbsoluteTime 10, .set, .set, .set]

/-- In general it is: the second thread waits for the mutex while the setter waits for the lock. -/
example : (exec step init sharedLock).setter = .locking 10 false [] ∧
    (exec step init sharedLock).holder () = some (.thread true) ∧
      Blocked (exec step init sharedLock) true :=
  ⟨by decide, by decide, rfl⟩

end Lockstep
end Platform
end DtPhm
