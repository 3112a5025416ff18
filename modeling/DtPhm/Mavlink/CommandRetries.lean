import DtPhm.Mavlink.CommandSender
import Mathlib.Tactic.Linarith

/-!
# CommandRetries — how often commands are sent, and what acks do

* `Counted` — the retry level of a channel is the number of its transmissions, less one; from this
  follows the bound on the transmissions in every run;
* `AckTaken`, `Honours` — what an ack has to do to the commands that wait for it;
* `Careful` — the calls for which the sender does that: it takes an ack for the first command that
  it fits, acknowledged or not, and it forgets an acknowledged command with its slot.
-/

namespace DtPhm
namespace Mavlink
namespace CommandSender

open Lib

variable {n : ℕ}

/-! ## One item -/

theorem Item.acked_eq_false {item : Item n} : item.acked = false ↔ ∀ c, item.numSent c ≠ -2 := by
  simp [Item.acked, List.any_eq_false]

theorem Item.acked_eq_true {item : Item n} : item.acked = true ↔ ∃ c, item.numSent c = -2 := by
  simp [Item.acked, List.any_eq_true]

theorem foldl_max_mem {l : List (Fin n)} {f : Fin n → ℤ} {b m : ℤ} (hm : 0 ≤ m ∧ m ≤ b)
    (hf : ∀ c, f c ≤ b) :
    0 ≤ l.foldl (fun m c => if f c > m then f c else m) m ∧
      l.foldl (fun m c => if f c > m then f c else m) m ≤ b := by
  induction l generalizing m with
  | nil => exact hm
  | cons c l ih =>
    refine ih ?_
    have hfc := hf c
    dsimp only
    split <;> omega

theorem Item.maxSent_mem {item : Item n} (h : ∀ c, item.numSent c ≤ 3) :
    0 ≤ item.maxSent ∧ item.maxSent ≤ 3 :=
  foldl_max_mem (by omega) h

theorem Item.checkTimeout_send {item item' : Item n} {channel : Fin n} {now now' : UInt64}
    (hlevel : ∀ c, -2 ≤ item.numSent c ∧ item.numSent c ≤ 3)
    (h : item.checkTimeout channel now now' = .send item') :
    item.acked = false ∧ 0 ≤ item.numSent channel ∧ item.numSent channel + 1 ≤ 3 ∧
      item'.timestampUs = item.timestampUs ∧
      item'.numSent = Function.update item.numSent channel (item.numSent channel + 1) := by
  have hmax := Item.maxSent_mem fun c => (hlevel c).2
  have hch := hlevel channel
  unfold Item.checkTimeout at h
  split at h
  · cases h
  · split at h
    · cases h
    · rename_i hack
      have hack' : item.acked = false := by simpa using hack
      have hne := Item.acked_eq_false.1 hack' channel
      split at h
      · rename_i hbehind
        cases h
        exact ⟨hack', by omega, by omega, rfl, rfl⟩
      · split at h
        · rename_i hfirst
          split at h
          · cases h
          · rename_i hle
            cases h
            unfold retries at hle
            exact ⟨hack', by omega, by omega, rfl, rfl⟩
        · cases h

/-! ## The invariant of the counters -/

/-- The slot keeps the command with this timestamp. -/
def Keeps (slot : Slot (Item n)) (t : UInt64) : Prop :=
  slot.Live ∧ slot.value.timestampUs = t

structure Counted (s : Commands n) (h : History n) : Prop where
  distinct : s.Pairwise fun a b => ∀ t, Keeps a t → ¬ Keeps b t
  level : ∀ slot ∈ s, slot.Live → ∀ c, -2 ≤ slot.value.numSent c ∧ slot.value.numSent c ≤ 3
  sent : ∀ slot ∈ s, ∀ t, Keeps slot t → ∀ c, 0 ≤ slot.value.numSent c →
    (h.transmitted.count (t, c) : ℤ) = slot.value.numSent c + 1
  inactive : ∀ slot ∈ s, ∀ t, Keeps slot t → ∀ c, (t, c) ∉ h.handedIn → slot.value.numSent c = -1
  fresh : ∀ x, x ∉ h.handedIn → h.transmitted.count x = 0
  bound : ∀ x, h.transmitted.count x ≤ 4

theorem counted_initial : Counted (initial n).1 (initial n).2 := by
  have hfree : ∀ slot ∈ (initial n).1, ¬ slot.Live := by
    intro slot hslot
    rw [List.eq_of_mem_replicate hslot]
    exact fun h => h rfl
  refine ⟨?_, ?_, ?_, ?_, fun x _ => rfl, fun x => Nat.zero_le _⟩
  · refine List.pairwise_of_forall_mem_list ?_
    intro a ha b _ t hkeep
    exact absurd hkeep.1 (hfree a ha)
  · intro slot hslot hlive
    exact absurd hlive (hfree slot hslot)
  · intro slot hslot t hkeep
    exact absurd hkeep.1 (hfree slot hslot)
  · intro slot hslot t hkeep
    exact absurd hkeep.1 (hfree slot hslot)

theorem Counted.not_keeps {pre post : Commands n} {slot : Slot (Item n)} {h : History n}
    (hc : Counted (pre ++ slot :: post) h) {t : UInt64} (hkeep : Keeps slot t) :
    (∀ a ∈ pre, ¬ Keeps a t) ∧ ∀ a ∈ post, ¬ Keeps a t := by
  obtain ⟨-, hcons, hpre⟩ := List.pairwise_append.1 hc.distinct
  obtain ⟨hpost, -⟩ := List.pairwise_cons.1 hcons
  constructor
  · intro a ha hkeep'
    exact hpre a ha slot (by simp) t hkeep' hkeep
  · intro a ha
    exact hpost a ha t hkeep

theorem Counted.replace {pre post : Commands n} {slot slot' : Slot (Item n)} {h h' : History n}
    (hc : Counted (pre ++ slot :: post) h)
    (hkeep : ∀ t, Keeps slot' t → Keeps slot t)
    (hlevel : slot'.Live → ∀ c, -2 ≤ slot'.value.numSent c ∧ slot'.value.numSent c ≤ 3)
    (hsent : ∀ t, Keeps slot' t → ∀ c, 0 ≤ slot'.value.numSent c →
      (h'.transmitted.count (t, c) : ℤ) = slot'.value.numSent c + 1)
    (hinactive : ∀ t, Keeps slot' t → ∀ c, (t, c) ∉ h'.handedIn → slot'.value.numSent c = -1)
    (hcount : ∀ t, ¬ Keeps slot t → ∀ c, h'.transmitted.count (t, c) = h.transmitted.count (t, c))
    (hhanded : ∀ x, x ∉ h'.handedIn → x ∉ h.handedIn)
    (hfresh : ∀ x, x ∉ h'.handedIn → h'.transmitted.count x = 0)
    (hbound : ∀ x, h'.transmitted.count x ≤ 4) : Counted (pre ++ slot' :: post) h' := by
  have hother : ∀ a ∈ pre ++ slot' :: post, a = slot' ∨ (a ∈ pre ++ slot :: post ∧
      ∀ t, Keeps a t → ¬ Keeps slot t) := by
    intro a ha
    rcases List.mem_append.1 ha with hpre | hcons
    · exact Or.inr ⟨by simp [hpre], fun t hk hk' => (hc.not_keeps hk').1 a hpre hk⟩
    · rcases List.mem_cons.1 hcons with rfl | hpost
      · exact Or.inl rfl
      · exact Or.inr ⟨by simp [hpost], fun t hk hk' => (hc.not_keeps hk').2 a hpost hk⟩
  refine ⟨?_, ?_, ?_, ?_, hfresh, hbound⟩
  · obtain ⟨hpre, hcons, hcross⟩ := List.pairwise_append.1 hc.distinct
    obtain ⟨hpost, hrest⟩ := List.pairwise_cons.1 hcons
    refine List.pairwise_append.2 ⟨hpre, List.pairwise_cons.2 ⟨?_, hrest⟩, ?_⟩
    · intro b hb t hk
      exact hpost b hb t (hkeep t hk)
    · intro a ha b hb t hk hk'
      rcases List.mem_cons.1 hb with rfl | hb
      · exact hcross a ha slot (by simp) t hk (hkeep t hk')
      · exact hcross a ha b (by simp [hb]) t hk hk'
  · intro a ha hlive
    rcases hother a ha with rfl | ⟨hold, -⟩
    · exact hlevel hlive
    · exact hc.level a hold hlive
  · intro a ha t hk c hnum
    rcases hother a ha with rfl | ⟨hold, hne⟩
    · exact hsent t hk c hnum
    · rw [hcount t (hne t hk) c]
      exact hc.sent a hold t hk c hnum
  · intro a ha t hk c hnot
    rcases hother a ha with rfl | ⟨hold, -⟩
    · exact hinactive t hk c hnot
    · exact hc.inactive a hold t hk c (hhanded _ hnot)

theorem Counted.congr {s : Commands n} {h h' : History n} (hc : Counted s h)
    (hhanded : h'.handedIn = h.handedIn)
    (hcount : ∀ x, h'.transmitted.count x = h.transmitted.count x) : Counted s h' := by
  refine ⟨hc.distinct, hc.level, ?_, ?_, ?_, ?_⟩
  · intro slot hslot t hk c hnum
    rw [hcount]
    exact hc.sent slot hslot t hk c hnum
  · rw [hhanded]
    exact hc.inactive
  · intro x
    rw [hhanded, hcount]
    exact hc.fresh x
  · intro x
    rw [hcount]
    exact hc.bound x

@[simp] theorem Item.mark_numSent_self (item : Item n) (channel : Fin n) (value : ℤ) :
    (item.mark channel value).numSent channel = value :=
  Function.update_self _ _ _

theorem Item.mark_numSent_of_ne (item : Item n) {channel c : Fin n} (value : ℤ) (h : c ≠ channel) :
    (item.mark channel value).numSent c = item.numSent c :=
  Function.update_of_ne h _ _

/-- The counter of one channel changes, and nothing is counted for other commands or channels. -/
theorem Counted.setCounter {pre post : Commands n} {slot : Slot (Item n)} {item : Item n}
    {h h' : History n} {channel : Fin n} {value : ℤ} (hc : Counted (pre ++ slot :: post) h)
    (hlive : slot.Live) (hts : item.timestampUs = slot.value.timestampUs)
    (hnum : item.numSent = Function.update slot.value.numSent channel value)
    (hvalue : -2 ≤ value ∧ value ≤ 3)
    (hsent : 0 ≤ value →
      (h'.transmitted.count (slot.value.timestampUs, channel) : ℤ) = value + 1)
    (hcount : ∀ x, x ≠ (slot.value.timestampUs, channel) →
      h'.transmitted.count x = h.transmitted.count x)
    (hbound : h'.transmitted.count (slot.value.timestampUs, channel) ≤ 4)
    (hhanded : ∀ x, x ∉ h'.handedIn → x ∉ h.handedIn)
    (hin : (slot.value.timestampUs, channel) ∈ h'.handedIn) :
    Counted (pre ++ { slot with value := item } :: post) h' := by
  have hmem : slot ∈ pre ++ slot :: post := by simp
  have hself : Keeps slot slot.value.timestampUs := ⟨hlive, rfl⟩
  have hkeep : ∀ t, Keeps ({ slot with value := item } : Slot (Item n)) t →
      slot.value.timestampUs = t := fun t hk => hts.symm.trans hk.2
  have hother : ∀ c, c ≠ channel → item.numSent c = slot.value.numSent c := by
    intro c hne
    rw [hnum, Function.update_of_ne hne]
  have hchannel : item.numSent channel = value := by
    rw [hnum, Function.update_self]
  refine hc.replace ?_ ?_ ?_ ?_ ?_ hhanded ?_ ?_
  · intro t hk
    rw [← hkeep t hk]
    exact hself
  · intro _ c
    change -2 ≤ item.numSent c ∧ item.numSent c ≤ 3
    by_cases hcc : c = channel
    · rw [hcc, hchannel]
      exact hvalue
    · rw [hother c hcc]
      exact hc.level slot hmem hlive c
  · intro t hk c hnn
    obtain rfl := hkeep t hk
    change 0 ≤ item.numSent c at hnn
    change _ = item.numSent c + 1
    by_cases hcc : c = channel
    · rw [hcc, hchannel] at hnn ⊢
      exact hsent hnn
    · rw [hother c hcc] at hnn ⊢
      rw [hcount _ fun heq => hcc (Prod.ext_iff.1 heq).2]
      exact hc.sent slot hmem _ hself c hnn
  · intro t hk c hnot
    obtain rfl := hkeep t hk
    have hcc : c ≠ channel := by
      rintro rfl
      exact hnot hin
    change item.numSent c = -1
    rw [hother c hcc]
    exact hc.inactive slot hmem _ hself c (hhanded _ hnot)
  · intro t hk c
    refine hcount _ fun heq => hk ⟨hlive, ?_⟩
    exact (Prod.ext_iff.1 heq).1.symm
  · intro x hx
    rw [hcount x fun heq => hx (heq ▸ hin)]
    exact hc.fresh x (hhanded x hx)
  · intro x
    by_cases hx : x = (slot.value.timestampUs, channel)
    · rw [hx]
      exact hbound
    · rw [hcount x hx]
      exact hc.bound x

theorem Counted.handedIn {s : Commands n} {h : History n} (hc : Counted s h) {slot : Slot (Item n)}
    (hslot : slot ∈ s) (hlive : slot.Live) {channel : Fin n}
    (hactive : slot.value.numSent channel ≠ -1) :
    (slot.value.timestampUs, channel) ∈ h.handedIn := by
  by_contra hnot
  exact hactive (hc.inactive slot hslot _ ⟨hlive, rfl⟩ channel hnot)

/-! ## Each call keeps the invariant -/

/-- `check_timeout` on one slot. -/
theorem Counted.checkSlot {pre post : Commands n} {slot : Slot (Item n)} {h : History n}
    (hc : Counted (pre ++ slot :: post) h) (channel : Fin n) (now now' : UInt64) :
    Counted (pre ++ checkSlot channel slot now now' :: post)
      { h with transmitted := sentBySlot channel slot now now' ++ h.transmitted } := by
  have hmem : slot ∈ pre ++ slot :: post := by simp
  unfold CommandSender.checkSlot sentBySlot
  split
  · exact hc
  · rename_i hfree
    have hlive : slot.Live := hfree
    have hlevel := hc.level slot hmem hlive
    cases hout : slot.value.checkTimeout channel now now' with
    | keep => exact hc
    | drop =>
      have hdead : ∀ t, ¬ Keeps ({ slot with timestampUs := 0 } : Slot (Item n)) t :=
        fun t hk => hk.1 rfl
      exact hc.replace (fun t hk => absurd hk (hdead t)) (fun hk => absurd rfl hk)
        (fun t hk => absurd hk (hdead t)) (fun t hk => absurd hk (hdead t)) (fun _ _ _ => rfl)
        (fun _ hx => hx) hc.fresh hc.bound
    | send item =>
      obtain ⟨-, hpos, hle, hts, hnum⟩ := Item.checkTimeout_send hlevel hout
      have hself : Keeps slot slot.value.timestampUs := ⟨hlive, rfl⟩
      have hsent := hc.sent slot hmem _ hself channel hpos
      dsimp only [List.singleton_append]
      rw [hts]
      refine hc.setCounter hlive hts hnum (by omega) ?_ ?_ ?_ (fun _ hx => hx)
        (hc.handedIn hmem hlive (by omega))
      · intro _
        rw [List.count_cons_self]
        push_cast
        omega
      · intro x hx
        exact List.count_cons_of_ne (Ne.symm hx)
      · rw [List.count_cons_self]
        omega

/-- The loop of `check_timeout` behind the slots that it has been through. -/
theorem Counted.checkTimeout_from {pre todo : Commands n} {h : History n}
    (hc : Counted (pre ++ todo) h) (channel : Fin n) (clock : ℕ → UInt64 × UInt64) :
    Counted (pre ++ checkTimeout todo channel clock)
      { h with transmitted := transmissions todo (.checkTimeout channel clock) ++
        h.transmitted } := by
  induction todo generalizing pre h clock with
  | nil => exact hc
  | cons slot todo ih =>
    have hfirst := hc.checkSlot channel (clock 0).1 (clock 0).2
    rw [← List.singleton_append, ← List.append_assoc] at hfirst
    have hrest := ih hfirst fun i => clock (i + 1)
    rw [List.append_assoc, List.singleton_append] at hrest
    have hslots : checkTimeout (slot :: todo) channel clock =
        CommandSender.checkSlot channel slot (clock 0).1 (clock 0).2 ::
          checkTimeout todo channel fun i => clock (i + 1) := by
      simp [checkTimeout, List.mapIdx_cons]
    rw [hslots]
    refine hrest.congr rfl ?_
    intro x
    have htrans : transmissions (slot :: todo) (.checkTimeout channel clock) =
        sentBySlot channel slot (clock 0).1 (clock 0).2 ++
          transmissions todo (.checkTimeout channel fun i => clock (i + 1)) := by
      simp [transmissions, List.mapIdx_cons]
    rw [htrans]
    simp only [List.count_append]
    omega

theorem Counted.handleMavlinkCommandAck {s : Commands n} {h : History n} (hc : Counted s h)
    (ack : Ack) (channel : Fin n) (acknowledged : List UInt64) :
    Counted (handleMavlinkCommandAck s ack channel) { h with acknowledged := acknowledged } := by
  have hc' : Counted s { h with acknowledged := acknowledged } := hc.congr rfl fun _ => rfl
  unfold CommandSender.handleMavlinkCommandAck
  split
  · rename_i s' hmod
    obtain ⟨pre, slot, post, rfl, rfl, hlive, hfor, -⟩ := modifyFirst_eq_some hmod
    have hmem : slot ∈ pre ++ slot :: post := by simp
    have hactive : slot.value.numSent channel ≠ -1 := by
      simp only [Ack.isFor, Bool.and_eq_true, bne_iff_ne] at hfor
      exact hfor.2
    exact hc'.setCounter hlive rfl rfl (by omega) (fun hnn => absurd hnn (by omega))
      (fun _ _ => rfl) (hc.bound _) (fun _ hx => hx) (hc.handedIn hmem hlive hactive)
  · exact hc'

theorem Counted.handIn_history {s : Commands n} {h : History n} (hc : Counted s h) {t : UInt64}
    {channel : Fin n} (honce : (t, channel) ∉ h.handedIn) :
    (∀ x, x ∉ (t, channel) :: h.handedIn → ((t, channel) :: h.transmitted).count x = 0) ∧
      ∀ x, ((t, channel) :: h.transmitted).count x ≤ 4 := by
  have hzero := hc.fresh _ honce
  constructor
  · intro x hx
    rw [List.mem_cons, not_or] at hx
    rw [List.count_cons_of_ne (Ne.symm hx.1)]
    exact hc.fresh x hx.2
  · intro x
    by_cases hx : (t, channel) = x
    · rw [← hx, List.count_cons_self, hzero]
      decide
    · rw [List.count_cons_of_ne hx]
      exact hc.bound x

theorem Counted.putNew {s : Commands n} {h : History n} (hc : Counted s h) (c : VehicleCommand)
    (channel : Fin n) (now now' : UInt64) (hnone : ∀ slot ∈ s, ¬ Keeps slot c.timestamp)
    (hhandIn : (c.timestamp, channel) ∉ h.handedIn) :
    Counted (put s now' (newItem c channel now))
      { h with
        handedIn := (c.timestamp, channel) :: h.handedIn
        transmitted := (c.timestamp, channel) :: h.transmitted } := by
  obtain ⟨hfresh, hbound⟩ := hc.handIn_history hhandIn
  have hzero := hc.fresh _ hhandIn
  have hnew : ∀ t, Keeps (⟨now', newItem c channel now⟩ : Slot (Item n)) t → t = c.timestamp :=
    fun t hk => hk.2.symm
  have hnum : ∀ d, (newItem c channel now).numSent d = if d = channel then 0 else -1 := by
    intro d
    change Function.update (fun _ => (-1 : ℤ)) channel 0 d = _
    rw [Function.update_apply]
  refine ⟨?_, ?_, ?_, ?_, hfresh, hbound⟩
  · refine pairwise_put hc.distinct ?_
    intro slot hslot
    constructor
    · intro t hk hk'
      rw [hnew t hk'] at hk
      exact hnone slot hslot hk
    · intro t hk hk'
      rw [hnew t hk] at hk'
      exact hnone slot hslot hk'
  · intro slot hslot hlive d
    rcases mem_put hslot with hold | rfl
    · exact hc.level slot hold hlive d
    · dsimp only
      rw [hnum d]
      split <;> omega
  · intro slot hslot t hk d hnn
    rcases mem_put hslot with hold | rfl
    · have hne : (c.timestamp, channel) ≠ (t, d) := by
        rintro ⟨⟩
        exact hnone slot hold hk
      dsimp only
      rw [List.count_cons_of_ne hne]
      exact hc.sent slot hold t hk d hnn
    · dsimp only at hnn ⊢
      rw [hnum d] at hnn ⊢
      split at hnn
      · rename_i hd
        rw [hnew t hk, hd, List.count_cons_self, hzero, if_pos rfl]
        rfl
      · omega
  · intro slot hslot t hk d hnot
    rcases mem_put hslot with hold | rfl
    · exact hc.inactive slot hold t hk d fun hmem => hnot (List.mem_cons_of_mem _ hmem)
    · have hd : d ≠ channel := by
        rintro rfl
        rw [hnew t hk] at hnot
        exact hnot List.mem_cons_self
      change (newItem c channel now).numSent d = -1
      rw [hnum d, if_neg hd]

theorem Counted.handleVehicleCommand {s : Commands n} {h : History n} (hc : Counted s h)
    (c : VehicleCommand) (channel : Fin n) (now now' : UInt64)
    (honce : (c.timestamp, channel) ∉ h.handedIn) :
    Counted (handleVehicleCommand s c channel now now')
      (record s (.handleVehicleCommand c channel now now') h) := by
  obtain ⟨hfresh, hbound⟩ := hc.handIn_history honce
  have hzero := hc.fresh _ honce
  have hhanded : ∀ x, x ∉ (c.timestamp, channel) :: h.handedIn → x ∉ h.handedIn :=
    fun x hx hx' => hx (List.mem_cons_of_mem _ hx')
  unfold CommandSender.handleVehicleCommand record transmissions
  by_cases hint : c.command ≥ internalStart
  · simp only [hint, if_true, List.nil_append]
    refine ⟨hc.distinct, hc.level, hc.sent, ?_, fun x hx => hc.fresh x (hhanded x hx), hc.bound⟩
    exact fun slot hslot t hk d hnot => hc.inactive slot hslot t hk d (hhanded _ hnot)
  · simp only [hint, if_false, List.singleton_append]
    cases hmod : modifyFirst (fun item => item.timestampUs == c.timestamp)
        (fun item => item.mark channel 0) s with
    | some s' =>
      obtain ⟨pre, slot, post, rfl, rfl, hlive, hts, -⟩ := modifyFirst_eq_some hmod
      have hts' : slot.value.timestampUs = c.timestamp := by simpa using hts
      have hmem : slot ∈ pre ++ slot :: post := by simp
      refine hc.setCounter hlive rfl rfl (by omega) ?_ ?_ ?_ hhanded ?_
      · intro _
        rw [hts', List.count_cons_self, hzero]
        rfl
      · intro x hx
        rw [hts'] at hx
        exact List.count_cons_of_ne (Ne.symm hx)
      · exact hbound _
      · rw [hts']
        exact List.mem_cons_self
    | none =>
      have hnone : ∀ slot ∈ s, ¬ Keeps slot c.timestamp := by
        intro slot hslot hk
        exact modifyFirst_eq_none.1 hmod slot hslot ⟨hk.1, by simpa using hk.2⟩
      exact (hc.putNew c channel now now' hnone honce).congr rfl fun _ => rfl

/-- Each channel hands in each command at most once. -/
def Once (p : Commands n × History n) : Event n → Prop
  | .handleVehicleCommand c channel _ _ => (c.timestamp, channel) ∉ p.2.handedIn
  | _ => True

instance (p : Commands n × History n) (e : Event n) : Decidable (Once p e) :=
  match e with
  | .handleVehicleCommand _ _ _ _ => inferInstanceAs (Decidable (_ ∉ _))
  | .handleMavlinkCommandAck _ _ => isTrue trivial
  | .checkTimeout _ _ => isTrue trivial

theorem Counted.step {p : Commands n × History n} (hc : Counted p.1 p.2) {e : Event n}
    (honce : Once p e) :
    Counted (historyStep step record p e).1 (historyStep step record p e).2 := by
  cases e with
  | handleVehicleCommand c channel now now' =>
    exact hc.handleVehicleCommand c channel now now' honce
  | handleMavlinkCommandAck ack channel => exact hc.handleMavlinkCommandAck ack channel _
  | checkTimeout channel clock =>
    have hnil : ([] : Commands n) ++ p.1 = p.1 := rfl
    rw [← hnil] at hc
    exact hc.checkTimeout_from channel clock

/-! ## Acks -/

/-- A stored command that waits for this ack on the channel: no channel has got one yet. -/
def Awaits (ack : Ack) (channel : Fin n) (slot : Slot (Item n)) : Prop :=
  slot.Live ∧ ack.isFor channel slot.value = true ∧ slot.value.acked = false

instance (ack : Ack) (channel : Fin n) (slot : Slot (Item n)) :
    Decidable (Awaits ack channel slot) :=
  inferInstanceAs (Decidable (_ ∧ _))

/-- An ack that some stored command waits for acknowledges one of these. -/
def AckTaken (s : Commands n) (ack : Ack) (channel : Fin n) : Prop :=
  (∃ slot ∈ s, Awaits ack channel slot) →
    ∃ slot ∈ s, Awaits ack channel slot ∧
      acknowledges s ack channel = some slot.value.timestampUs ∧
      ∃ slot' ∈ handleMavlinkCommandAck s ack channel,
        slot'.value.timestampUs = slot.value.timestampUs ∧ slot'.value.acked = true

instance (s : Commands n) (ack : Ack) (channel : Fin n) : Decidable (AckTaken s ack channel) :=
  inferInstanceAs (Decidable ((∃ slot ∈ s, Awaits ack channel slot) →
    ∃ slot ∈ s, Awaits ack channel slot ∧
      acknowledges s ack channel = some slot.value.timestampUs ∧
      ∃ slot' ∈ handleMavlinkCommandAck s ack channel,
        slot'.value.timestampUs = slot.value.timestampUs ∧ slot'.value.acked = true))

/-- What a call owes to the acks: an ack is taken, and what was acknowledged is not sent again. -/
def Honours (p : Commands n × History n) : Event n → Prop
  | .handleVehicleCommand _ _ _ _ => True
  | .handleMavlinkCommandAck ack channel => AckTaken p.1 ack channel
  | .checkTimeout channel clock =>
    ∀ x ∈ transmissions p.1 (.checkTimeout channel clock), x.1 ∉ p.2.acknowledged

/-- The calls that the sender is made for: the first stored command that an ack fits still waits for
one, or none of those that it fits does; and a command that was acknowledged is handed in by another
channel only while its slot is still there. -/
def Careful (p : Commands n × History n) : Event n → Prop
  | .handleVehicleCommand c _ _ _ =>
    c.timestamp ∈ p.2.acknowledged → ∃ slot ∈ p.1, Keeps slot c.timestamp
  | .handleMavlinkCommandAck ack channel =>
    (∃ slot ∈ p.1, Awaits ack channel slot) →
      ∀ slot, (p.1.find? fun slot => decide slot.Live && ack.isFor channel slot.value) = some slot →
        slot.value.acked = false
  | .checkTimeout _ _ => True

/-- The slots of acknowledged commands are marked. -/
def Marked (s : Commands n) (h : History n) : Prop :=
  ∀ t ∈ h.acknowledged, ∀ slot ∈ s, Keeps slot t → slot.value.acked = true

theorem find_of_modifyFirst {s pre post : Commands n} {slot : Slot (Item n)} {p : Item n → Bool}
    (hs : s = pre ++ slot :: post) (hlive : slot.Live) (hp : p slot.value = true)
    (hpre : ∀ t ∈ pre, ¬ (t.Live ∧ p t.value = true)) :
    (s.find? fun slot => decide slot.Live && p slot.value) = some slot := by
  rw [hs, List.find?_append, List.find?_eq_none.2 ?_, Option.none_or, List.find?_cons]
  · simp [hlive, hp]
  · intro t ht
    simpa using hpre t ht

theorem Item.acked_mark (item : Item n) (channel : Fin n) : (item.mark channel (-2)).acked = true :=
  Item.acked_eq_true.2 ⟨channel, by simp⟩

theorem handleMavlinkCommandAck_cases (s : Commands n) (ack : Ack) (channel : Fin n) :
    (handleMavlinkCommandAck s ack channel = s ∧ acknowledges s ack channel = none ∧
        ∀ slot ∈ s, ¬ (slot.Live ∧ ack.isFor channel slot.value = true)) ∨
      ∃ pre slot post, s = pre ++ slot :: post ∧ slot.Live ∧
        ack.isFor channel slot.value = true ∧
        (s.find? fun slot => decide slot.Live && ack.isFor channel slot.value) = some slot ∧
        acknowledges s ack channel = some slot.value.timestampUs ∧
        handleMavlinkCommandAck s ack channel =
          pre ++ { slot with value := slot.value.mark channel (-2) } :: post := by
  unfold handleMavlinkCommandAck acknowledges
  cases hmod : modifyFirst (ack.isFor channel) (fun item => item.mark channel (-2)) s with
  | none =>
    have hnone := modifyFirst_eq_none.1 hmod
    refine Or.inl ⟨rfl, ?_, hnone⟩
    rw [List.find?_eq_none.2 ?_]
    · rfl
    · intro t ht
      simpa using hnone t ht
  | some s' =>
    obtain ⟨pre, slot, post, hs, rfl, hlive, hfor, hpre⟩ := modifyFirst_eq_some hmod
    have hfind := find_of_modifyFirst hs hlive hfor hpre
    refine Or.inr ⟨pre, slot, post, hs, hlive, hfor, hfind, ?_, rfl⟩
    rw [hfind]
    rfl

theorem ackTaken_of_careful {p : Commands n × History n} {ack : Ack} {channel : Fin n}
    (h : Careful p (.handleMavlinkCommandAck ack channel)) : AckTaken p.1 ack channel := by
  intro hsome
  rcases handleMavlinkCommandAck_cases p.1 ack channel with
    ⟨-, -, hnone⟩ | ⟨pre, slot, post, hs, hlive, hfor, hfind, hack, heq⟩
  · obtain ⟨slot, hslot, hlive, hfor, -⟩ := hsome
    exact absurd ⟨hlive, hfor⟩ (hnone slot hslot)
  · have hmem : slot ∈ p.1 := by
      rw [hs]
      simp
    refine ⟨slot, hmem, ⟨hlive, hfor, h hsome slot hfind⟩, hack,
      { slot with value := slot.value.mark channel (-2) }, ?_, rfl, Item.acked_mark _ _⟩
    rw [heq]
    simp

/-- A slot after `check_timeout`: it is what it was, free, or one level up without an ack. -/
theorem checkSlot_keeps {channel : Fin n} {slot : Slot (Item n)} {now now' : UInt64} {t : UInt64}
    (hlevel : slot.Live → ∀ c, -2 ≤ slot.value.numSent c ∧ slot.value.numSent c ≤ 3)
    (hk : Keeps (checkSlot channel slot now now') t) :
    Keeps slot t ∧
      (slot.value.acked = true → (checkSlot channel slot now now').value.acked = true) := by
  unfold checkSlot at hk ⊢
  split at hk
  · rename_i hfree
    rw [if_pos hfree]
    exact ⟨hk, id⟩
  · rename_i hfree
    rw [if_neg hfree]
    cases hout : slot.value.checkTimeout channel now now' with
    | keep =>
      rw [hout] at hk
      exact ⟨hk, id⟩
    | drop =>
      rw [hout] at hk
      exact absurd rfl hk.1
    | send item =>
      rw [hout] at hk
      obtain ⟨hack, -, -, hts, -⟩ := Item.checkTimeout_send (hlevel hfree) hout
      refine ⟨⟨hfree, hts.symm.trans hk.2⟩, ?_⟩
      intro h
      rw [hack] at h
      cases h

theorem mem_transmissions {s : Commands n} {channel : Fin n} {clock : ℕ → UInt64 × UInt64}
    (hlevel : ∀ slot ∈ s, slot.Live →
      ∀ c, -2 ≤ slot.value.numSent c ∧ slot.value.numSent c ≤ 3)
    {x : UInt64 × Fin n} (hx : x ∈ transmissions s (.checkTimeout channel clock)) :
    ∃ slot ∈ s, Keeps slot x.1 ∧ slot.value.acked = false := by
  obtain ⟨l, hl, hxl⟩ := List.mem_flatten.1 hx
  obtain ⟨i, hi, rfl⟩ := List.mem_mapIdx.1 hl
  have hmem : s[i] ∈ s := List.getElem_mem hi
  unfold sentBySlot at hxl
  split at hxl
  · cases hxl
  · rename_i hfree
    split at hxl
    · rename_i item hout
      obtain ⟨hack, -, -, hts, -⟩ := Item.checkTimeout_send (hlevel _ hmem hfree) hout
      rw [List.mem_singleton.1 hxl]
      exact ⟨s[i], hmem, ⟨hfree, hts.symm⟩, hack⟩
    · cases hxl

theorem Item.acked_mark_of_ne {item : Item n} {channel : Fin n} (h : item.acked = true)
    (hne : item.numSent channel ≠ -2) (value : ℤ) : (item.mark channel value).acked = true := by
  obtain ⟨c, hc⟩ := Item.acked_eq_true.1 h
  refine Item.acked_eq_true.2 ⟨c, ?_⟩
  have hcc : c ≠ channel := by
    rintro rfl
    exact hne hc
  rw [Item.mark_numSent_of_ne _ _ hcc, hc]

theorem Marked.handleVehicleCommand {s : Commands n} {h : History n} (hm : Marked s h)
    (hc : Counted s h) {c : VehicleCommand} {channel : Fin n} (now now' : UInt64)
    (honce : (c.timestamp, channel) ∉ h.handedIn)
    (hcare : c.timestamp ∈ h.acknowledged → ∃ slot ∈ s, Keeps slot c.timestamp) :
    Marked (handleVehicleCommand s c channel now now')
      (record s (.handleVehicleCommand c channel now now') h) := by
  intro t ht slot hslot hk
  have ht' : t ∈ h.acknowledged := ht
  unfold CommandSender.handleVehicleCommand at hslot
  split at hslot
  · exact hm t ht' slot hslot hk
  · split at hslot
    · rename_i s' hmod
      obtain ⟨pre, old, post, rfl, rfl, hlive, hts, -⟩ := modifyFirst_eq_some hmod
      have hts' : old.value.timestampUs = c.timestamp := by simpa using hts
      have hself : Keeps old c.timestamp := ⟨hlive, hts'⟩
      rcases List.mem_append.1 hslot with hpre | hcons
      · exact hm t ht' slot (by simp [hpre]) hk
      · rcases List.mem_cons.1 hcons with rfl | hpost
        · -- the channel that hands the command in now has not got an ack for it
          have hold : Keeps old t := hk
          have hne : old.value.numSent channel ≠ -2 := by
            rw [hc.inactive old (by simp) _ hself channel honce]
            decide
          exact Item.acked_mark_of_ne (hm t ht' old (by simp) hold) hne 0
        · exact hm t ht' slot (by simp [hpost]) hk
    · rename_i hmod
      rcases mem_put hslot with hold | rfl
      · exact hm t ht' slot hold hk
      · have ht'' : c.timestamp ∈ h.acknowledged := by
          rw [show c.timestamp = t from hk.2]
          exact ht'
        obtain ⟨old, hold, hkeep⟩ := hcare ht''
        exact absurd ⟨hkeep.1, by simpa using hkeep.2⟩ (modifyFirst_eq_none.1 hmod old hold)

theorem Marked.handleMavlinkCommandAck {s : Commands n} {h : History n} (hm : Marked s h)
    (hc : Counted s h) (ack : Ack) (channel : Fin n) :
    Marked (handleMavlinkCommandAck s ack channel)
      (record s (.handleMavlinkCommandAck ack channel) h) := by
  intro t ht slot hslot hk
  have ht' : t ∈ (acknowledges s ack channel).toList ++ h.acknowledged := ht
  rcases handleMavlinkCommandAck_cases s ack channel with
    ⟨heq, hnone, -⟩ | ⟨pre, old, post, rfl, hlive, -, -, hack, heq⟩
  · rw [heq] at hslot
    rw [hnone] at ht'
    exact hm t ht' slot hslot hk
  · rw [heq] at hslot
    rw [hack] at ht'
    rcases List.mem_append.1 ht' with hnew | hold
    · -- the command of the slot that the ack went to
      have hts : t = old.value.timestampUs := by simpa using hnew
      have hself : Keeps old t := ⟨hlive, hts.symm⟩
      rcases List.mem_append.1 hslot with hpre | hcons
      · exact absurd hk ((hc.not_keeps hself).1 slot hpre)
      · rcases List.mem_cons.1 hcons with rfl | hpost
        · exact Item.acked_mark _ _
        · exact absurd hk ((hc.not_keeps hself).2 slot hpost)
    · rcases List.mem_append.1 hslot with hpre | hcons
      · exact hm t hold slot (by simp [hpre]) hk
      · rcases List.mem_cons.1 hcons with rfl | hpost
        · exact Item.acked_mark _ _
        · exact hm t hold slot (by simp [hpost]) hk

theorem Marked.checkTimeout {s : Commands n} {h : History n} (hm : Marked s h) (hc : Counted s h)
    (channel : Fin n) (clock : ℕ → UInt64 × UInt64) :
    Marked (checkTimeout s channel clock) (record s (.checkTimeout channel clock) h) := by
  intro t ht slot hslot hk
  have ht' : t ∈ h.acknowledged := ht
  obtain ⟨i, hi, rfl⟩ := List.mem_mapIdx.1 hslot
  have hmem : s[i] ∈ s := List.getElem_mem hi
  obtain ⟨hold, hacked⟩ := checkSlot_keeps (hc.level _ hmem) hk
  exact hacked (hm t ht' _ hmem hold)

theorem Marked.step {p : Commands n × History n} (hm : Marked p.1 p.2) (hc : Counted p.1 p.2)
    {e : Event n} (honce : Once p e) (hcare : Careful p e) :
    Marked (historyStep step record p e).1 (historyStep step record p e).2 := by
  cases e with
  | handleVehicleCommand c channel now now' =>
    exact hm.handleVehicleCommand hc now now' honce hcare
  | handleMavlinkCommandAck ack channel => exact hm.handleMavlinkCommandAck hc ack channel
  | checkTimeout channel clock => exact hm.checkTimeout hc channel clock

theorem Marked.honours {p : Commands n × History n} (hm : Marked p.1 p.2) (hc : Counted p.1 p.2)
    {e : Event n} (hcare : Careful p e) : Honours p e := by
  cases e with
  | handleVehicleCommand c channel now now' => trivial
  | handleMavlinkCommandAck ack channel => exact ackTaken_of_careful hcare
  | checkTimeout channel clock =>
    intro x hx hack
    obtain ⟨slot, hslot, hk, hfalse⟩ := mem_transmissions hc.level hx
    rw [hm _ hack slot hslot hk] at hfalse
    cases hfalse

/-! ## Every run -/

/-- The sender in every run in which each channel hands in each command at most once: no command
goes out more than `RETRIES + 1` times on a channel; and as long as all calls are careful, every ack
that a stored command waits for acknowledges one of these, and no acknowledged command is sent
again. -/
theorem run_honours_acks (n : ℕ) (es : List (Event n))
    (honce : AllSteps (historyStep step record) Once (initial n) es) :
    (∀ p ∈ visited (historyStep step record) (initial n) es, ∀ t c,
      (p.2.transmitted.count (t, c) : ℤ) ≤ retries + 1) ∧
      (AllSteps (historyStep step record) Careful (initial n) es →
        AllSteps (historyStep step record) Honours (initial n) es) := by
  constructor
  · intro p hp t c
    have hc : Counted p.1 p.2 :=
      invariant_of_allSteps (fun p e (hc : Counted p.1 p.2) (ho : Once p e) => hc.step ho)
        counted_initial honce p hp
    have hbound := hc.bound (t, c)
    unfold retries
    omega
  · intro hcare
    have hmarked : Marked (initial n).1 (initial n).2 := by
      intro t ht
      cases ht
    have hstep : ∀ (p : Commands n × History n) (e : Event n),
        Counted p.1 p.2 ∧ Marked p.1 p.2 → Once p e ∧ Careful p e →
        Counted (historyStep step record p e).1 (historyStep step record p e).2 ∧
          Marked (historyStep step record p e).1 (historyStep step record p e).2 := by
      intro p e hinv hok
      exact ⟨hinv.1.step hok.1, hinv.2.step hinv.1 hok.1 hok.2⟩
    refine allSteps_of_invariant hstep ?_ ⟨counted_initial, hmarked⟩ (allSteps_and honce hcare)
    intro p e hinv hok
    exact hinv.2.honours hinv.1 hok.2

/-- A command to system 1, as channel 0 hands it in. -/
def armCommand (timestamp : UInt64) : VehicleCommand where
  timestamp := timestamp
  command := 400
  targetSystem := 1
  targetComponent := 1
  confirmation := 0
  params := [0x3f800000, 0, 0, 0, 0, 0, 0]

/-- One command, sent again after a second and then acked. -/
def oneAckedCommand : List (Event 4) :=
  [.handleVehicleCommand (armCommand 7) 0 10 11, .checkTimeout 0 fun _ => (1000000, 1000001),
    .handleMavlinkCommandAck ⟨400, 1, 1⟩ 0, .checkTimeout 0 fun _ => (2000000, 2000001)]

theorem run_honours_acks_one :
    (exec (historyStep step record) (initial 4) oneAckedCommand).2.transmitted = [(7, 0), (7, 0)] ∧
      (∀ p ∈ visited (historyStep step record) (initial 4) oneAckedCommand, ∀ t c,
        (p.2.transmitted.count (t, c) : ℤ) ≤ retries + 1) ∧
      AllSteps (historyStep step record) Honours (initial 4) oneAckedCommand := by
  have h := run_honours_acks 4 oneAckedCommand
    ⟨List.not_mem_nil, trivial, trivial, trivial, trivial⟩
  refine ⟨by decide, h.1, h.2 ⟨fun hf => absurd hf List.not_mem_nil, trivial, ?_, trivial, trivial⟩⟩
  intro _ slot hslot
  have hfirst : (((exec (historyStep step record) (initial 4) (oneAckedCommand.take 2)).1.find?
      fun slot => decide slot.Live && Ack.isFor ⟨400, 1, 1⟩ 0 slot.value).all
        fun slot => !slot.value.acked) = true := by decide
  rw [show (exec (historyStep step record) (initial 4) (oneAckedCommand.take 2)).1.find? _ = _
    from hslot] at hfirst
  simpa using hfirst

/-- Two commands with the same id are stored when their acks come. -/
def twoSameCommands : List (Event 4) :=
  [.handleVehicleCommand (armCommand 7) 0 10 11, .handleVehicleCommand (armCommand 8) 0 12 13,
    .handleMavlinkCommandAck ⟨400, 1, 1⟩ 0, .handleMavlinkCommandAck ⟨400, 1, 1⟩ 0]

/-- A channel hands a command in after another one has got its ack and the slot is free again. -/
def laggingChannel : List (Event 4) :=
  [.handleVehicleCommand (armCommand 7) 0 10 11, .handleMavlinkCommandAck ⟨400, 1, 1⟩ 0,
    .checkTimeout 0 fun _ => (1000000, 1000001),
      .handleVehicleCommand (armCommand 7) 1 1000002 1000003,
    .checkTimeout 1 fun _ => (2000000, 2000001)]

theorem second_ack_lost :
    AllSteps (historyStep step record) Once (initial 4) twoSameCommands ∧
      ¬ AllSteps (historyStep step record) Honours (initial 4) twoSameCommands ∧
      AllSteps (historyStep step record) Once (initial 4) laggingChannel ∧
      ¬ AllSteps (historyStep step record) Honours (initial 4) laggingChannel := by
  refine ⟨⟨List.not_mem_nil, by decide, trivial, trivial, trivial⟩, ?_,
    ⟨List.not_mem_nil, trivial, trivial, by decide, trivial, trivial⟩, ?_⟩
  · rintro ⟨-, -, -, h, -⟩
    revert h
    show ¬ AckTaken _ _ _
    decide
  · rintro ⟨-, -, -, -, h, -⟩
    exact absurd (h (7, 1) (by decide)) (by decide)

end CommandSender
end Mavlink
end DtPhm
