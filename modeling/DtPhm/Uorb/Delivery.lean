import Mathlib.Data.Nat.ModEq
import Mathlib.Data.List.Chain
import DtPhm.Lib.Run
import DtPhm.Uorb.DeviceNode

/-!
# Delivery — what the subscribers of a topic receive

Between the counter of the node and the list of published messages stands one equation: the
generation is the first one plus the number of messages, modulo 2³².  The ring size divides 2³², so
the newest messages stand in slots that do not depend on how often the counter has wrapped; and a
reader less than 2³¹ messages behind can be told from one that is ahead.
-/

namespace DtPhm
namespace Uorb

open Lib

variable {M : Type}

/-! ## Counters -/

theorem roundPowOfTwo8_cases (n : UInt8) :
    (∃ e ≤ 7, (roundPowOfTwo8 n).toNat = 2 ^ e) ∧ min n.toNat 128 ≤ (roundPowOfTwo8 n).toNat := by
  have hall : ∀ n : Fin 256, (∃ e ∈ List.range 8, (roundPowOfTwo8 (UInt8.ofNat n)).toNat = 2 ^ e) ∧
      min n.val 128 ≤ (roundPowOfTwo8 (UInt8.ofNat n)).toNat := by decide +kernel
  rcases hall ⟨n.toNat, n.toNat_lt⟩ with ⟨⟨e, he, hround⟩, hmin⟩
  rw [UInt8.ofNat_toNat] at hround hmin
  exact ⟨⟨e, by simpa using Nat.lt_succ_iff.1 (List.mem_range.1 he), hround⟩, hmin⟩

theorem toNat_sub_ofNat (g : BitVec 32) {d : ℕ} (hd : d < 2 ^ 32) :
    (g - BitVec.ofNat 32 d).toNat = if d ≤ g.toNat then g.toNat - d else g.toNat + 2 ^ 32 - d := by
  have hg := g.isLt
  simp only [BitVec.toNat_sub, BitVec.toNat_ofNat]
  split <;> omega

/-- The range test answers whether a reader that is `d` messages behind still finds its message in a
ring of `q` slots, wherever the counter stands. -/
theorem isInRange_eq (g : BitVec 32) {d q : ℕ} (hd : 0 < d) (hd' : d < 2 ^ 32) (hq : 2 ≤ q)
    (hq' : q ≤ 128) :
    isInRange (g - BitVec.ofNat 32 q) (g - BitVec.ofNat 32 d) (g - 1) = decide (d ≤ q) := by
  have hg := g.isLt
  have hleft := toNat_sub_ofNat g (show q < 2 ^ 32 by omega)
  have hvalue := toNat_sub_ofNat g hd'
  have hright : (g - 1).toNat = if 1 ≤ g.toNat then g.toNat - 1 else g.toNat + 2 ^ 32 - 1 :=
    toNat_sub_ofNat g (d := 1) (by omega)
  unfold isInRange
  simp only [gt_iff_lt, BitVec.lt_def, BitVec.le_def, hleft, hright, hvalue]
  -- which of the three numbers wrapped around zero
  by_cases hqg : q ≤ g.toNat <;> by_cases hdg : d ≤ g.toNat <;> by_cases h1 : 1 ≤ g.toNat <;>
    simp only [hqg, hdg, h1, if_true, if_false] <;> split <;>
    simp only [← Bool.decide_and, ← Bool.decide_or, decide_eq_decide] <;> omega

/-- The generation of the `i`-th message. -/
def genOf (g₀ : BitVec 32) (i : ℕ) : BitVec 32 := g₀ + BitVec.ofNat 32 i

theorem genOf_succ (g₀ : BitVec 32) (i : ℕ) : genOf g₀ i + 1 = genOf g₀ (i + 1) := by
  simp [genOf, BitVec.ofNat_add, BitVec.add_assoc]

theorem genOf_sub (g₀ : BitVec 32) {i j : ℕ} (h : i ≤ j) :
    genOf g₀ j - BitVec.ofNat 32 (j - i) = genOf g₀ i := by
  have hj : j = i + (j - i) := by omega
  rw [hj]
  simp only [genOf, Nat.add_sub_cancel_left, BitVec.ofNat_add, ← BitVec.add_assoc,
    BitVec.add_sub_cancel]

theorem genOf_sub_genOf (g₀ : BitVec 32) {i j : ℕ} (h : i ≤ j) :
    genOf g₀ j - genOf g₀ i = BitVec.ofNat 32 (j - i) := by
  rw [← genOf_sub g₀ h]
  generalize genOf g₀ j = g
  generalize BitVec.ofNat 32 (j - i) = x
  bv_omega

theorem genOf_mod (g₀ : BitVec 32) (i : ℕ) {q e : ℕ} (hq : q = 2 ^ e) (he : e ≤ 7) :
    (genOf g₀ i).toNat % q = (g₀.toNat + i) % q := by
  have hdvd : q ∣ 2 ^ 32 := hq ▸ Nat.pow_dvd_pow 2 (by omega)
  simp only [genOf, BitVec.toNat_add, BitVec.toNat_ofNat, Nat.add_mod_mod]
  exact Nat.mod_mod_of_dvd _ hdvd

/-! ## The ring -/

/-- The node after these messages were published, from the generation `g₀` on. -/
structure NodeInv (g₀ : BitVec 32) (n : DeviceNode M) (published : List M) : Prop where
  generation : n.generation = genOf g₀ published.length
  size : ∃ e ≤ 7, n.queueSize.toNat = 2 ^ e
  valid : n.dataValid = true ↔ published ≠ []
  data : n.data.isSome ↔ published ≠ []
  slots : ∀ data, n.data = some data → ∀ i, i < published.length →
    published.length ≤ i + n.queueSize.toNat →
    published[i]? = some (data ((g₀.toNat + i) % n.queueSize.toNat))

theorem nodeInv_create (g₀ : BitVec 32) (queueSize : UInt8) :
    NodeInv g₀ (DeviceNode.create g₀ queueSize : DeviceNode M) [] := by
  refine ⟨by simp [DeviceNode.create, genOf], (roundPowOfTwo8_cases queueSize).1, ?_, ?_, ?_⟩
  · simp [DeviceNode.create]
  · simp [DeviceNode.create]
  · intro data hdata
    simp [DeviceNode.create] at hdata

variable {g₀ : BitVec 32} {n : DeviceNode M} {published : List M}

theorem NodeInv.size_bounds (h : NodeInv g₀ n published) :
    0 < n.queueSize.toNat ∧ n.queueSize.toNat ≤ 128 := by
  rcases h.size with ⟨e, he, hsize⟩
  rw [hsize]
  refine ⟨Nat.two_pow_pos e, ?_⟩
  calc
    2 ^ e ≤ 2 ^ 7 := Nat.pow_le_pow_right (by decide) he
    _ = 128 := rfl

theorem NodeInv.slot (h : NodeInv g₀ n published) (i : ℕ) :
    n.slot (genOf g₀ i) = (g₀.toNat + i) % n.queueSize.toNat := by
  rcases h.size with ⟨e, he, hsize⟩
  exact genOf_mod g₀ i hsize he

/-- A publication overwrites the slot of the message that leaves the window of the newest ones. -/
theorem NodeInv.write (h : NodeInv g₀ n published) (memory : ℕ → M) (message : M) :
    NodeInv g₀ (n.write memory message) (published ++ [message]) := by
  refine ⟨?_, h.size, by simp [DeviceNode.write], by simp [DeviceNode.write], ?_⟩
  · simp only [DeviceNode.write, h.generation, List.length_append, List.length_singleton]
    exact genOf_succ g₀ _
  · intro data hdata i hi hwindow
    rcases h.size_bounds with ⟨hpos, _⟩
    simp only [DeviceNode.write, Option.some.injEq] at hdata hwindow ⊢
    rw [h.generation, h.slot] at hdata
    subst hdata
    simp only [List.length_append, List.length_singleton] at hi hwindow
    by_cases hlast : i = published.length
    · rw [hlast]
      simp
    · have hi' : i < published.length := by omega
      -- two messages fewer than a ring apart are in different slots
      have hne : (g₀.toNat + i) % n.queueSize.toNat ≠
          (g₀.toNat + published.length) % n.queueSize.toNat := by
        intro heq
        have hdvd :=
          (Nat.modEq_iff_dvd' (show g₀.toNat + i ≤ g₀.toNat + published.length by omega)).1 heq
        have := Nat.le_of_dvd (by omega) hdvd
        omega
      rw [Function.update_of_ne hne, List.getElem?_append_left hi']
      -- there is an older message, so that the ring is allocated
      have hsome : n.data.isSome := h.data.2 (by
        intro hnil
        simp [hnil] at hi')
      rcases Option.isSome_iff_exists.1 hsome with ⟨data, hdata⟩
      rw [hdata, Option.getD_some]
      exact h.slots data hdata i hi' (by omega)

theorem NodeInv.advertise (h : NodeInv g₀ n published) (queueSize : ℕ) :
    NodeInv g₀ (n.advertise queueSize) published ∧
      n.queueSize.toNat ≤ (n.advertise queueSize).queueSize.toNat ∧
      (published = [] → queueSize ≤ 255 →
        min queueSize 128 ≤ (n.advertise queueSize).queueSize.toNat) := by
  unfold DeviceNode.advertise DeviceNode.updateQueueSize
  split
  · rename_i hsame
    refine ⟨⟨h.generation, h.size, h.valid, h.data, h.slots⟩, Nat.le_refl _, fun _ _ => ?_⟩
    dsimp only at hsame ⊢
    omega
  · split
    -- a refused size: the ring is there already, is larger, or the size is no byte
    · rename_i hsame hrefused
      refine ⟨⟨h.generation, h.size, h.valid, h.data, h.slots⟩, Nat.le_refl _, fun hnil hle => ?_⟩
      have hnone : ¬n.data.isSome := fun hsome => h.data.1 hsome hnil
      have hlarger : n.queueSize.toNat > queueSize := by
        rcases hrefused with hdata | hlarger | hlimit
        · exact (hnone hdata).elim
        · exact hlarger
        · omega
      calc
        min queueSize 128 ≤ queueSize := Nat.min_le_left _ _
        _ ≤ n.queueSize.toNat := hlarger.le
    · rename_i hsame hallowed
      dsimp only at hallowed hsame ⊢
      push Not at hallowed
      rcases hallowed with ⟨hnone, hless, hle⟩
      rcases roundPowOfTwo8_cases (UInt8.ofNat queueSize) with ⟨hsize, hmin⟩
      have hnat : (UInt8.ofNat queueSize).toNat = queueSize := by
        simp
        omega
      rw [hnat] at hmin
      refine ⟨⟨h.generation, hsize, h.valid, h.data, ?_⟩, ?_, fun _ _ => hmin⟩
      · intro data hdata
        -- the size only changes before the ring is allocated
        rw [hdata] at hnone
        simp at hnone
      · have := h.size_bounds.2
        omega

/-- A reader at message `p`, not yet at the end, gets message `p` if it is still in the ring, and
else the oldest one that is. -/
theorem NodeInv.copy (h : NodeInv g₀ n published) {p : ℕ} (hp : p < published.length)
    (hbehind : published.length - p < 2 ^ 32) :
    ∃ i message, i = published.length - min (published.length - p) n.queueSize.toNat ∧
      published[i]? = some message ∧ n.copy (genOf g₀ p) = some (message, genOf g₀ (i + 1)) := by
  have hne : published ≠ [] := by
    intro hnil
    simp [hnil] at hp
  rcases Option.isSome_iff_exists.1 (h.data.2 hne) with ⟨data, hdata⟩
  rcases h.size_bounds with ⟨hpos, hle⟩
  have hsucc : ∀ i < published.length, published.length ≤ i + n.queueSize.toNat →
      published[i]? = some (data (n.slot (genOf g₀ i))) := by
    intro i hi hwindow
    rw [h.slot i]
    exact h.slots data hdata i hi hwindow
  unfold DeviceNode.copy
  rw [hdata]
  dsimp only
  split
  · -- a queue of one message: the newest one, whatever the generation
    rename_i hone
    have hsize : n.queueSize.toNat = 1 := by rw [hone]; rfl
    refine ⟨published.length - 1, data 0, by omega, ?_, ?_⟩
    · have := hsucc (published.length - 1) (by omega) (by omega)
      rwa [h.slot, hsize, Nat.mod_one] at this
    · rw [h.generation]
      congr 3
      omega
  · rename_i hone
    have hsize : 2 ≤ n.queueSize.toNat := by
      have : n.queueSize.toNat ≠ 1 := fun heq => hone (UInt8.toNat_inj.1 heq)
      omega
    have hgen : genOf g₀ p = n.generation - BitVec.ofNat 32 (published.length - p) := by
      rw [h.generation, genOf_sub g₀ hp.le]
    -- fewer than 2³² messages behind is not the same generation
    have hdiff : n.generation ≠ genOf g₀ p := by
      intro heq
      have hzero := genOf_sub_genOf g₀ hp.le
      rw [← h.generation, heq, BitVec.sub_self] at hzero
      have := congrArg BitVec.toNat hzero
      simp only [BitVec.toNat_ofNat] at this
      have h0 : BitVec.toNat (0#32) = 0 := rfl
      omega
    have hrange := isInRange_eq n.generation (d := published.length - p) (q := n.queueSize.toNat)
      (by omega) hbehind hsize hle
    rw [← hgen] at hrange
    rw [if_neg hdiff, hrange]
    by_cases hwindow : published.length - p ≤ n.queueSize.toNat
    · have hmin : min (published.length - p) n.queueSize.toNat = published.length - p :=
        Nat.min_eq_left hwindow
      refine ⟨p, data (n.slot (genOf g₀ p)), by omega, hsucc p hp (by omega), ?_⟩
      simp only [hwindow, decide_true, if_true, genOf_succ]
    · have hmin : min (published.length - p) n.queueSize.toNat = n.queueSize.toNat :=
        Nat.min_eq_right (by omega)
      -- the message is gone: the reader starts again with the oldest one in the ring
      have hold : n.generation - BitVec.ofNat 32 n.queueSize.toNat =
          genOf g₀ (published.length - n.queueSize.toNat) := by
        have hsub :=
          genOf_sub g₀ (show published.length - n.queueSize.toNat ≤ published.length by omega)
        have hcancel : published.length - (published.length - n.queueSize.toNat) =
          n.queueSize.toNat := by omega
        rw [hcancel] at hsub
        rw [h.generation]
        exact hsub
      refine ⟨published.length - n.queueSize.toNat, _, by omega,
        hsucc (published.length - n.queueSize.toNat) (by omega) (by omega), ?_⟩
      simp [hwindow, hold]
      exact genOf_succ g₀ _

/-! ## What a subscriber has received -/

/-- The receipt `b` comes after `a`, and what lies between them was no longer among the newest
`size` messages when `b` was received. -/
def Follows (size : ℕ) (a b : Receipt M) : Prop :=
  a.index < b.index ∧ ∀ i, a.index < i → i < b.index → i + size < b.published

/-- The messages of a subscriber are published messages, in order and without duplicates, from the
last one before its subscription on, with gaps only where the ring had moved on. -/
structure Delivered (size : ℕ) (published : List M) (sub : Subscriber M) : Prop where
  genuine : ∀ r ∈ sub.received, r.index < r.published ∧ published[r.index]? = some r.message
  order : sub.received.IsChain (Follows size)
  first : ∀ r ∈ sub.received.head?, sub.since ≤ r.index + 1

/-- A subscriber stands at its position, which is not past the end. -/
structure SubInv (g₀ : BitVec 32) (size : ℕ) (published : List M) (sub : Subscriber M) : Prop where
  generation : sub.lastGeneration = genOf g₀ sub.position
  position : sub.position ≤ published.length
  delivered : Delivered size published sub

variable {size : ℕ} {sub : Subscriber M}

theorem Delivered.publish (h : Delivered size published sub) (message : M) :
    Delivered size (published ++ [message]) sub := by
  refine ⟨?_, h.order, h.first⟩
  intro r hr
  rcases h.genuine r hr with ⟨hlt, hget⟩
  refine ⟨hlt, ?_⟩
  rw [List.getElem?_append_left (List.getElem?_eq_some_iff.1 hget).1]
  exact hget

theorem SubInv.publish (h : SubInv g₀ size published sub) (message : M) :
    SubInv g₀ size (published ++ [message]) sub := by
  have := h.position
  exact ⟨h.generation, by simp; omega, h.delivered.publish message⟩

/-- A receipt at or after the position of the subscriber, with nothing lost that the ring still
had. -/
theorem Delivered.receive (h : Delivered size published sub) {r : Receipt M}
    (hgenuine : r.index < r.published ∧ published[r.index]? = some r.message)
    (hpos : sub.position ≤ r.index)
    (hskip : ∀ i, sub.position ≤ i → i < r.index → i + size < r.published) (g : BitVec 32) :
    Delivered size published { sub with lastGeneration := g, received := sub.received ++ [r] } := by
  refine ⟨?_, ?_, ?_⟩
  · intro r' hr'
    rcases List.mem_append.1 hr' with hold | hnew
    · exact h.genuine r' hold
    · rw [List.mem_singleton.1 hnew]
      exact hgenuine
  · refine List.isChain_append.2 ⟨h.order, by simp, ?_⟩
    intro a ha b hb
    have hb' : b = r := by simpa [eq_comm] using hb
    -- the position is right behind the receipt that was the last one
    have hlast : sub.position = a.index + 1 := by
      rw [Subscriber.position, ha]
    rw [hb']
    refine ⟨by omega, ?_⟩
    intro i hi hi'
    exact hskip i (by omega) hi'
  · intro a ha
    cases hcase : sub.received with
    | nil =>
        -- the first receipt: the last message before the subscription may be among those received
        have hsince : sub.position = sub.since - 1 := by simp [Subscriber.position, hcase]
        have har : a = r := by simpa [hcase, eq_comm] using ha
        rw [har]
        dsimp only
        omega
    | cons r₀ rest =>
        have : a ∈ sub.received.head? := by simpa [hcase] using ha
        exact h.first a this

/-! ## One update -/

/-- The place that `update` records is the place of the message that it copies. -/
theorem index_of_generation (g₀ : BitVec 32) {i n : ℕ} (hi : i < n) (hn : n - i < 2 ^ 32) :
    n - 1 - (genOf g₀ n - genOf g₀ (i + 1)).toNat = i := by
  rw [genOf_sub_genOf g₀ (show i + 1 ≤ n by omega), BitVec.toNat_ofNat,
    Nat.mod_eq_of_lt (show n - (i + 1) < 2 ^ 32 by omega)]
  omega

theorem SubInv.update {t : Topic M} (hnode : NodeInv g₀ t.node t.published)
    (h : SubInv g₀ size t.published sub)
    (hsize : t.published = [] ∨ size ≤ t.node.queueSize.toNat)
    (hbehind : t.published.length - sub.position < 2 ^ 31) :
    SubInv g₀ size t.published (Subscriber.update t sub) := by
  unfold Subscriber.update
  split
  · rename_i hnew
    have hposition : sub.position < t.published.length := by
      refine lt_of_le_of_ne h.position ?_
      intro heq
      -- nothing was published since the last update
      refine hnew.2 ?_
      rw [DeviceNode.updatesAvailable, hnode.generation, h.generation, heq, BitVec.sub_self]
      rfl
    have hsize' : size ≤ t.node.queueSize.toNat := by
      rcases hsize with hnil | hsize
      · simp [hnil] at hposition
      · exact hsize
    rcases hnode.copy hposition (by omega) with ⟨i, message, hi, hmessage, hcopy⟩
    have hbounds := hnode.size_bounds
    rw [h.generation, hcopy]
    dsimp only
    rw [hnode.generation, index_of_generation g₀ (show i < t.published.length by omega) (by omega)]
    refine ⟨?_, ?_, ?_⟩
    · simp [Subscriber.position]
    · simp only [Subscriber.position, List.getLast?_append, List.getLast?_singleton, Option.some_or]
      omega
    · refine h.delivered.receive ⟨?_, hmessage⟩ ?_ ?_ _
      · dsimp only
        omega
      · dsimp only
        omega
      · intro j hj hj'
        dsimp only at hj' ⊢
        omega
  · exact h

/-! ## Whole runs -/

/-- The state of a topic, as far as subscriber `k` is concerned: before the first message the size
of the queue does not matter. -/
structure TopicInv (g₀ : BitVec 32) (size k : ℕ) (t : Topic M) : Prop where
  node : NodeInv g₀ t.node t.published
  sub : ∀ sub, t.subscribers[k]? = some sub → SubInv g₀ size t.published sub
  size : t.published = [] ∨ size ≤ t.node.queueSize.toNat

/-- Subscriber `k` is fewer than 2³¹ messages behind. -/
def NotBehind (k : ℕ) (t : Topic M) : Prop :=
  ∀ sub, t.subscribers[k]? = some sub → t.published.length - sub.position < 2 ^ 31

theorem subInv_subscribe {t : Topic M} (hnode : NodeInv g₀ t.node t.published) :
    SubInv g₀ size t.published (Subscriber.subscribe t) := by
  refine ⟨?_, ?_, ⟨by simp [Subscriber.subscribe], by simp [Subscriber.subscribe],
    by simp [Subscriber.subscribe]⟩⟩
  · show t.node.generation - _ = genOf g₀ (t.published.length - 1)
    rw [hnode.generation]
    -- with data, a new subscriber starts one message back
    by_cases hvalid : t.node.dataValid = true
    · have hpos := List.length_pos_iff.2 (hnode.valid.1 hvalid)
      have hsub := genOf_sub g₀ (show t.published.length - 1 ≤ t.published.length by omega)
      have hone : t.published.length - (t.published.length - 1) = 1 := by omega
      rw [hone] at hsub
      rw [if_pos hvalid]
      exact hsub
    · have hnil : t.published = [] := by
        by_contra hne
        exact hvalid (hnode.valid.2 hne)
      simp [hvalid, hnil]
  · simp [Subscriber.position, Subscriber.subscribe]

variable {k : ℕ} {t : Topic M}

theorem TopicInv.step (memory : ℕ → M) (h : TopicInv g₀ size k t) (hbehind : NotBehind k t)
    {e : Event M} (hpublish : ∀ message, e = .publish message → size ≤ t.node.queueSize.toNat) :
    TopicInv g₀ size k (t.step memory e) := by
  cases e with
  | advertise queueSize =>
      rcases h.node.advertise queueSize with ⟨hnode, hgrow, _⟩
      exact ⟨hnode, h.sub, h.size.imp_right fun hle => hle.trans hgrow⟩
  | unadvertise =>
      exact ⟨⟨h.node.generation, h.node.size, h.node.valid, h.node.data, h.node.slots⟩, h.sub,
        h.size⟩
  | subscribe =>
      refine ⟨h.node, ?_, h.size⟩
      intro sub hsub
      change (t.subscribers ++ [Subscriber.subscribe t])[k]? = some sub at hsub
      by_cases hold : k < t.subscribers.length
      · rw [List.getElem?_append_left hold] at hsub
        exact h.sub sub hsub
      · rw [List.getElem?_append_right (by omega)] at hsub
        have hnew := List.mem_singleton.1 (List.mem_of_getElem? hsub)
        rw [hnew]
        exact subInv_subscribe h.node
  | publish message =>
      refine ⟨h.node.write memory message, ?_, .inr (hpublish message rfl)⟩
      intro sub hsub
      exact (h.sub sub hsub).publish message
  | update j =>
      refine ⟨h.node, ?_, h.size⟩
      intro sub hsub
      change (t.subscribers.modify j (Subscriber.update t))[k]? = some sub at hsub
      rw [List.getElem?_modify] at hsub
      split at hsub
      · rcases Option.map_eq_some_iff.1 hsub with ⟨old, hold, rfl⟩
        exact (h.sub old hold).update h.node h.size (hbehind old hold)
      · exact h.sub sub (by simpa using hsub)

/-- The number of newest messages that an advertisement before the first publication gets for its
queue size: the ring has at most 128 slots, and a size that is no byte is refused. -/
def grantedSize (queueSize : ℕ) : ℕ := if queueSize ≤ 255 then min queueSize 128 else 1

theorem grantedSize_le_advertise (h : NodeInv g₀ n []) (queueSize : ℕ) :
    grantedSize queueSize ≤ (n.advertise queueSize).queueSize.toNat := by
  rcases h.advertise queueSize with ⟨hnode, _, hgrant⟩
  unfold grantedSize
  split
  · rename_i hle
    exact hgrant rfl hle
  · exact hnode.size_bounds.1

theorem topicInv_initial (g₀ : BitVec 32) (queueSize : UInt8) (size k : ℕ) :
    TopicInv g₀ size k (Topic.initial g₀ queueSize : Topic M) := by
  refine ⟨nodeInv_create g₀ queueSize, ?_, .inl rfl⟩
  intro sub hsub
  simp [Topic.initial] at hsub

theorem run_unpublished (memory : ℕ → M) {es : List (Event M)}
    (hquiet : ∀ e ∈ es, ∀ message, e ≠ .publish message) (h : TopicInv g₀ size k t)
    (hnil : t.published = []) (hbehind : ∀ u ∈ visited (Topic.step memory) t es, NotBehind k u) :
    TopicInv g₀ size k (exec (Topic.step memory) t es) ∧
      (exec (Topic.step memory) t es).published = [] := by
  have hok := allSteps_of_forall hbehind hquiet
  have hstep : ∀ (u : Topic M) e, (TopicInv g₀ size k u ∧ u.published = []) →
      (NotBehind k u ∧ ∀ message, e ≠ .publish message) →
      TopicInv g₀ size k (u.step memory e) ∧ (u.step memory e).published = [] := by
    intro u e hu he
    refine ⟨hu.1.step memory he.1 fun message heq => (he.2 message heq).elim, ?_⟩
    cases e with
    | publish message =>
        exact (he.2 message rfl).elim
    | advertise queueSize =>
        exact hu.2
    | unadvertise =>
        exact hu.2
    | subscribe =>
        exact hu.2
    | update j =>
        exact hu.2
  exact invariant_of_allSteps hstep ⟨h, hnil⟩ hok _ (exec_mem_visited _ _ _)

/-- From the moment the ring is large enough, the invariant is kept by all events. -/
theorem run_sized (memory : ℕ → M) (es : List (Event M)) (h : TopicInv g₀ size k t)
    (hsize : size ≤ t.node.queueSize.toNat)
    (hbehind : ∀ u ∈ visited (Topic.step memory) t es, NotBehind k u) :
    TopicInv g₀ size k (exec (Topic.step memory) t es) := by
  have hok := allSteps_of_forall hbehind (fun e (_ : e ∈ es) => trivial)
  have hstep : ∀ (u : Topic M) e, (TopicInv g₀ size k u ∧ size ≤ u.node.queueSize.toNat) →
      (NotBehind k u ∧ True) →
      TopicInv g₀ size k (u.step memory e) ∧ size ≤ (u.step memory e).node.queueSize.toNat := by
    intro u e hu hbehind
    refine ⟨hu.1.step memory hbehind.1 fun _ _ => hu.2, ?_⟩
    cases e with
    | advertise queueSize =>
        exact hu.2.trans (hu.1.node.advertise queueSize).2.1
    | unadvertise =>
        exact hu.2
    | subscribe =>
        exact hu.2
    | publish message =>
        exact hu.2
    | update j =>
        exact hu.2
  exact (invariant_of_allSteps hstep ⟨h, hsize⟩ hok _ (exec_mem_visited _ _ _)).1

/-- The publisher advertises the topic with a queue size before the first publication; before and
after it, anything may happen.  Every subscriber that does not fall 2³¹ messages behind receives the
published messages in order, and loses only messages that were not among the newest ones. -/
theorem queue_delivery (memory : ℕ → M) (g₀ : BitVec 32) (defaultSize : UInt8)
    (before after : List (Event M)) (queueSize k : ℕ)
    (hquiet : ∀ e ∈ before, ∀ message, e ≠ .publish message)
    (hbehind : ∀ t ∈ visited (Topic.step memory) (Topic.initial g₀ defaultSize)
      (before ++ .advertise queueSize :: after), NotBehind k t) :
    let t := exec (Topic.step memory) (Topic.initial g₀ defaultSize)
      (before ++ .advertise queueSize :: after)
    ∀ sub, t.subscribers[k]? = some sub → Delivered (grantedSize queueSize) t.published sub := by
  intro t sub hsub
  have hfirst : TopicInv g₀ (grantedSize queueSize) k (exec (Topic.step memory)
      (Topic.initial g₀ defaultSize) before) ∧ (exec (Topic.step memory)
      (Topic.initial g₀ defaultSize) before).published = [] := by
    refine run_unpublished memory hquiet (topicInv_initial g₀ defaultSize _ k) rfl ?_
    intro u hu
    exact hbehind u (visited_subset_append _ _ _ _ hu)
  set t₁ := exec (Topic.step memory) (Topic.initial g₀ defaultSize) before with ht₁
  have hrest : ∀ u ∈ visited (Topic.step memory) t₁ (.advertise queueSize :: after),
      NotBehind k u :=
    fun u hu => hbehind u (visited_append_subset _ _ _ _ hu)
  have hadvertise :
      TopicInv g₀ (grantedSize queueSize) k (t₁.step memory (.advertise queueSize)) := by
    refine hfirst.1.step memory (hrest t₁ (start_mem_visited _ _ _)) ?_
    intro message heq
    cases heq
  have hsize : grantedSize queueSize ≤
      (t₁.step memory (.advertise queueSize)).node.queueSize.toNat := by
    have hnode := hfirst.1.node
    rw [hfirst.2] at hnode
    exact grantedSize_le_advertise hnode queueSize
  have hlast := run_sized memory after hadvertise hsize fun u hu =>
    hrest u (List.mem_cons_of_mem _ hu)
  have ht : t = exec (Topic.step memory) (t₁.step memory (.advertise queueSize)) after := by
    rw [ht₁]
    exact exec_append _ _ _ _
  rw [ht] at hsub ⊢
  exact (hlast.sub sub hsub).delivered

theorem notBehind_of_length (memory : ℕ → M) (k : ℕ) : ∀ (es : List (Event M)) (t : Topic M),
    t.published.length + es.length < 2 ^ 31 →
      ∀ u ∈ visited (Topic.step memory) t es, NotBehind k u := by
  intro es
  induction es with
  | nil =>
      intro t hlen u hu sub _
      rw [List.mem_singleton.1 hu]
      simp only [List.length_nil] at hlen
      omega
  | cons e es ih =>
      intro t hlen u hu
      simp only [List.length_cons] at hlen
      rcases List.mem_cons.1 hu with hut | hrest
      · intro sub _
        rw [hut]
        omega
      · have hgrow : (t.step memory e).published.length ≤ t.published.length + 1 := by
          cases e <;> simp [Topic.step]
        exact ih _ (by omega) u hrest

/-- A run around the end of the counter: the subscriber is one message behind at its first
update. -/
theorem queue_delivery_wraparound :
    let t := exec (Topic.step fun _ => 0) (Topic.initial (BitVec.allOnes 32) 1)
      ([.subscribe] ++ .advertise 3 :: [.publish 5, .publish 6, .update 0, .publish 7, .update 0])
    (t.subscribers[0]?.map fun sub => sub.received.map Receipt.message) = some [5, 6] ∧
      ∀ sub, t.subscribers[0]? = some sub → Delivered (grantedSize 3) t.published sub :=
  ⟨by decide +kernel, queue_delivery _ _ _ _ _ 3 0 (by simp)
    (notBehind_of_length _ _ _ _ (by decide))⟩

/-- With a queue size of 200, a subscriber that comes back after 150 messages has lost the first 22
of them. -/
theorem queue_of_200_delivers_128 :
    let es := .advertise 200 :: .subscribe :: .publish 0 :: .update 0 ::
      (List.replicate 150 (.publish 0) ++ [.update 0])
    let t := exec (Topic.step fun _ => 0) (Topic.initial 0 1) es
    (∀ u ∈ visited (Topic.step fun _ => 0) (Topic.initial 0 1) es, NotBehind 0 u) ∧
      ∃ sub, t.subscribers[0]? = some sub ∧ ¬Delivered 200 t.published sub := by
  intro es t
  refine ⟨notBehind_of_length _ _ _ _ (by decide +kernel), ?_⟩
  have hrun : (t.subscribers[0]?.map fun sub => sub.received.map fun r => (r.index, r.published)) =
      some [(0, 1), (23, 151)] := by decide +kernel
  rcases Option.map_eq_some_iff.1 hrun with ⟨sub, hsub, hreceived⟩
  refine ⟨sub, hsub, ?_⟩
  intro hdelivered
  have horder := hdelivered.order
  rcases List.map_eq_cons_iff.1 hreceived with ⟨a, rest, hcons, ha, hrest⟩
  rcases List.map_eq_cons_iff.1 hrest with ⟨b, rest', hcons', hb, hrest'⟩
  rw [hcons, hcons'] at horder
  simp only [Prod.mk.injEq] at ha hb
  -- message 1 was among the newest 200 of the 151 messages
  have hlost := (List.isChain_cons_cons.1 horder).1.2 1 (by omega) (by omega)
  omega

end Uorb
end DtPhm
