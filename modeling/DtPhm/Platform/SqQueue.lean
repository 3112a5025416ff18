import DtPhm.Lib.Linked

/-!
# SqQueue — the singly linked queues of the operating system

`sq_addfirst`, `sq_addlast`, `sq_addafter`, `sq_remfirst`, `sq_remafter` and `sq_rem`.  The links
are in the entries themselves, so an entry that is added twice would spoil the queue.  The link of
an entry outside the queue may be anything: `sq_rem` does not look at it.

* `SqQueue` and its operations;
* `Represents` — the list that the links stand for;
* `Represents.addfirst` and so on — what the operations do to it.
-/

namespace DtPhm
namespace Platform

open Lib

universe u

variable {α : Type u}

/-- `sq_queue_t`, with the links of all entries. -/
structure SqQueue (α : Type u) where
  head : Option α
  tail : Option α
  flink : α → Option α

namespace SqQueue

/-- `sq_init`. -/
def init (flink : α → Option α) : SqQueue α := ⟨none, none, flink⟩

/-- `sq_peek`. -/
def peek (q : SqQueue α) : Option α := q.head

variable [DecidableEq α] (q : SqQueue α)

/-- The link of an entry is set. -/
def setLink (node : α) (next : Option α) : SqQueue α :=
  { q with flink := Function.update q.flink node next }

/-- `sq_addfirst`. -/
def addfirst (node : α) : SqQueue α :=
  let q := q.setLink node q.head
  { q with tail := if q.head = none then some node else q.tail, head := some node }

/-- `sq_addlast`. -/
def addlast (node : α) : SqQueue α :=
  let q := q.setLink node none
  if q.head = none then { q with head := some node, tail := some node }
  else
    match q.tail with
    | none => q
    | some tail => { q.setLink tail (some node) with tail := some node }

/-- `sq_addafter`. -/
def addafter (prev node : α) : SqQueue α :=
  if q.head = none ∨ some prev = q.tail then q.addlast node
  else (q.setLink node (q.flink prev)).setLink prev (some node)

/-- `sq_remfirst`. -/
def remfirst : Option α × SqQueue α :=
  match q.head with
  | none => (none, q)
  | some ret =>
      let q := { q with head := q.flink ret }
      let q := if q.head = none then { q with tail := none } else q
      (some ret, q.setLink ret none)

/-- `sq_remafter`. -/
def remafter (node : α) : Option α × SqQueue α :=
  match q.flink node with
  | none => (none, q)
  | some ret =>
      if q.head = none then (some ret, q)
      else
        let q :=
          if q.tail = some ret then ({ q with tail := some node } : SqQueue α).setLink node none
          else q.setLink node (q.flink ret)
        (some ret, q.setLink ret none)

/-- The loop of `sq_rem`. -/
def remLoop (node : α) : (fuel : ℕ) → (prev : Option α) → Option (SqQueue α)
  | 0, _ => none
  | _ + 1, none => some q
  | fuel + 1, some prev =>
      if q.flink prev = some node then some (q.remafter prev).2 else
        remLoop node fuel (q.flink prev)

/-- `sq_rem`. -/
def rem (fuel : ℕ) (node : α) : Option (SqQueue α) :=
  if q.head = none then some q
  else if some node = q.head then
    let q := { q with head := q.flink node }
    some (if some node = q.tail then { q with tail := none } else q)
  else q.remLoop node fuel q.head

/-! ## The list that is represented -/

/-- The links go through the list, from its first entry to its last one. -/
structure Represents (q : SqQueue α) (l : List α) : Prop where
  linked : Linked q.flink q.head l
  tail_eq : q.tail = l.getLast?

variable {q : SqQueue α} {l pre post : List α} {x y : α} {fuel : ℕ}

omit [DecidableEq α] in
theorem represents_init (flink : α → Option α) : Represents (init flink) [] := ⟨rfl, rfl⟩

namespace Represents

omit [DecidableEq α] in
theorem peek (h : Represents q l) : q.peek = l.head? := h.linked.head

omit [DecidableEq α] in
theorem head_ne_none (h : Represents q l) (hl : l ≠ []) : q.head ≠ none := by
  intro hnone
  have hlinked := h.linked
  rw [hnone, Linked.next_nil] at hlinked
  exact hl hlinked

theorem addfirst (h : Represents q l) (hx : x ∉ l) : Represents (q.addfirst x) (x :: l) := by
  have hrest : Linked (Function.update q.flink x q.head) q.head l := h.linked.update hx q.head
  have hlinked : Linked (Function.update q.flink x q.head) (some x) (x :: l) := by
    refine ⟨rfl, ?_⟩
    rw [Function.update_self]
    exact hrest
  cases l with
  | nil =>
      have hhead : q.head = none := h.linked
      refine ⟨hlinked, ?_⟩
      exact if_pos hhead
  | cons z zs =>
      have hhead : ¬q.head = none := h.head_ne_none (List.cons_ne_nil z zs)
      refine ⟨hlinked, ?_⟩
      exact (if_neg hhead).trans (h.tail_eq.trans List.getLast?_cons_cons.symm)

theorem addlast (h : Represents q l) (hx : x ∉ l) : Represents (q.addlast x) (l ++ [x]) := by
  rcases List.eq_nil_or_concat' l with rfl | ⟨pre, last, rfl⟩
  · have hhead : q.head = none := h.linked
    have heq : q.addlast x = ⟨some x, some x, Function.update q.flink x none⟩ := if_pos hhead
    have hself : Function.update q.flink x none x = none := Function.update_self x none q.flink
    rw [heq]
    exact ⟨⟨rfl, hself⟩, rfl⟩
  · have hhead : ¬q.head = none := h.head_ne_none (by simp)
    have htail : q.tail = some last := h.tail_eq.trans List.getLast?_concat
    simp only [SqQueue.addlast, setLink, if_neg hhead, htail]
    refine ⟨?_, List.getLast?_concat.symm⟩
    exact (h.linked.update hx none).append_singleton hx (Function.update_self x none q.flink)

theorem addafter (h : Represents q (pre ++ y :: post)) (hx : x ∉ pre ++ y :: post) :
    Represents (q.addafter y x) (pre ++ y :: x :: post) := by
  have hhead : ¬q.head = none := h.head_ne_none (by simp)
  cases post with
  | nil =>
      -- behind the last entry
      have htail : some y = q.tail := (h.tail_eq.trans List.getLast?_concat).symm
      rw [SqQueue.addafter, if_pos (Or.inr htail)]
      have hlast := h.addlast hx
      rwa [List.append_assoc] at hlast
  | cons z post =>
      have hnodup := h.linked.nodup
      have htail : q.tail = (z :: post).getLast? := by
        rw [h.tail_eq, List.getLast?_append_cons, List.getLast?_cons_cons]
      have hne : ¬(q.head = none ∨ some y = q.tail) := by
        rintro (hnone | heq)
        · exact hhead hnone
        · have hmem : y ∈ z :: post := List.mem_of_getLast? (htail.symm.trans heq.symm)
          exact (List.nodup_cons.1 (List.nodup_append.1 hnodup).2.1).1 hmem
      have hnext : Linked q.flink (q.flink y) (z :: post) := h.linked.next_of_append
      have hrest : x ∉ z :: post := fun hmem =>
        hx (List.mem_append_right pre (List.mem_cons_of_mem y hmem))
      have hnew : Linked (Function.update q.flink x (q.flink y)) (some x) (x :: z :: post) := by
        refine ⟨rfl, ?_⟩
        rw [Function.update_self]
        exact hnext.update hrest _
      have hyx : y ∉ x :: z :: post := by
        rintro hmem
        rcases List.mem_cons.1 hmem with rfl | hmem
        · exact hx (List.mem_append_right pre List.mem_cons_self)
        · exact (List.nodup_cons.1 (List.nodup_append.1 hnodup).2.1).1 hmem
      rw [SqQueue.addafter, if_neg hne]
      refine ⟨(h.linked.update hx _).link hnew hyx, ?_⟩
      show q.tail = _
      rw [htail, List.getLast?_append_cons, List.getLast?_cons_cons, List.getLast?_cons_cons]

theorem remafter (h : Represents q (pre ++ y :: x :: post)) :
    (q.remafter y).1 = some x ∧ Represents (q.remafter y).2 (pre ++ y :: post) := by
  have hhead : ¬q.head = none := h.head_ne_none (by simp)
  have hnext : q.flink y = some x := h.linked.next_of_append.1
  have hnodup : (pre ++ [y] ++ x :: post).Nodup := by
    rw [List.append_assoc]
    exact h.linked.nodup
  have htail : q.tail = (x :: post).getLast? := by
    rw [h.tail_eq, List.getLast?_append_cons, List.getLast?_cons_cons]
  have hlinked := h.linked.unlink
  cases post with
  | nil =>
      have hlast : q.tail = some x := htail
      have hnone : q.flink x = none := by
        have hlinked' := h.linked
        rw [← List.singleton_append, ← List.append_assoc] at hlinked'
        exact hlinked'.next_of_append
      rw [hnone] at hlinked
      simp only [SqQueue.remafter, hnext, if_neg hhead, if_pos hlast, setLink]
      exact ⟨trivial, hlinked, List.getLast?_concat.symm⟩
  | cons z post =>
      have hne : ¬q.tail = some x := by
        intro heq
        have hmem : x ∈ z :: post := List.mem_of_getLast? (htail.symm.trans heq)
        exact (List.nodup_cons.1 (List.nodup_append.1 hnodup).2.1).1 hmem
      simp only [SqQueue.remafter, hnext, if_neg hhead, if_neg hne, setLink]
      refine ⟨trivial, hlinked, htail.trans ?_⟩
      rw [List.getLast?_append_cons, List.getLast?_cons_cons, List.getLast?_cons_cons]

omit [DecidableEq α] in
theorem dropHead (h : Represents q (x :: l)) :
    Represents ⟨q.flink x, l.getLast?, q.flink⟩ l := ⟨h.linked.2, rfl⟩

theorem remfirst (h : Represents q l) :
    q.remfirst.1 = l.head? ∧ Represents q.remfirst.2 l.tail := by
  have hhead : q.head = l.head? := h.linked.head
  cases l with
  | nil =>
      simp only [SqQueue.remfirst, hhead, List.head?_nil]
      exact ⟨trivial, h⟩
  | cons x l =>
      have hrest : Linked (Function.update q.flink x none) (q.flink x) l :=
        h.linked.2.update (List.nodup_cons.1 h.linked.nodup).1 none
      have hnext : q.flink x = l.head? := h.linked.2.head
      simp only [SqQueue.remfirst, hhead, List.head?_cons, setLink]
      refine ⟨trivial, ?_⟩
      cases l with
      | nil =>
          have hnone : q.flink x = none := hnext
          rw [if_pos hnone]
          exact ⟨hrest, rfl⟩
      | cons z zs =>
          have hsome : ¬q.flink x = none := by
            rw [hnext]
            exact Option.some_ne_none z
          rw [if_neg hsome]
          exact ⟨hrest, h.tail_eq.trans List.getLast?_cons_cons⟩

/-- From the place `p` on, the loop looks for an entry that is neither before it nor there. -/
theorem remLoop (h : Represents q (pre ++ post)) {p : Option α} (hp : Linked q.flink p post)
    (hpre : x ∉ pre) (hhead : post.head? ≠ some x) (hfuel : post.length < fuel) :
    ∃ q', q.remLoop x fuel p = some q' ∧ Represents q' ((pre ++ post).erase x) := by
  induction post generalizing pre p fuel with
  | nil =>
      obtain rfl : p = none := hp
      obtain ⟨fuel, rfl⟩ := Nat.exists_eq_add_one.2 (Nat.zero_lt_of_lt hfuel)
      refine ⟨q, rfl, ?_⟩
      rw [List.append_nil] at h ⊢
      rwa [List.erase_of_not_mem hpre]
  | cons y post ih =>
      obtain ⟨rfl, hpost⟩ := hp
      obtain ⟨fuel, rfl⟩ := Nat.exists_eq_add_one.2 (Nat.zero_lt_of_lt hfuel)
      have hne : x ≠ y := by
        rintro rfl
        exact hhead rfl
      by_cases hnext : q.flink y = some x
      -- it is the next one
      · cases post with
        | nil => exact absurd (hnext.symm.trans hpost) (Option.some_ne_none x)
        | cons x' post =>
            obtain rfl : x = x' := Option.some.inj (hnext.symm.trans hpost.1)
            have herase : (pre ++ y :: x :: post).erase x = pre ++ y :: post := by
              rw [List.erase_append_right _ hpre, List.erase_cons_tail, List.erase_cons_head]
              simpa using hne.symm
            refine ⟨(q.remafter y).2, ?_, ?_⟩
            · rw [SqQueue.remLoop, if_pos hnext]
            · rw [herase]
              exact h.remafter.2
      -- the entry at the place joins the ones that have been passed
      · have hpre' : x ∉ pre ++ [y] := by simp [hpre, hne]
        have hhead' : post.head? ≠ some x := hpost.head ▸ hnext
        have hsplit : pre ++ y :: post = pre ++ [y] ++ post := by simp
        rw [hsplit] at h ⊢
        obtain ⟨q', hloop, hq'⟩ := ih h hpost hpre' hhead' (Nat.lt_of_succ_lt_succ hfuel)
        refine ⟨q', ?_, hq'⟩
        rw [SqQueue.remLoop, if_neg hnext]
        exact hloop

/-- `sq_rem` takes an entry out, if it is in the queue. -/
theorem rem (h : Represents q l) (x : α) (hfuel : l.length < fuel) :
    ∃ q', q.rem fuel x = some q' ∧ Represents q' (l.erase x) := by
  cases l with
  | nil =>
      have hhead : q.head = none := h.linked
      exact ⟨q, by rw [SqQueue.rem, if_pos hhead], h⟩
  | cons y l =>
      have hhead : q.head = some y := h.linked.1
      have hne : ¬q.head = none := h.head_ne_none (List.cons_ne_nil y l)
      by_cases hxy : x = y
      · subst hxy
        have hdrop := h.dropHead
        rw [List.erase_cons_head, SqQueue.rem, if_neg hne, if_pos hhead.symm]
        refine ⟨_, rfl, ?_⟩
        cases l with
        | nil =>
            have htail : some x = q.tail := h.tail_eq.symm
            rw [if_pos htail]
            exact hdrop
        | cons z zs =>
            have htail : q.tail = (z :: zs).getLast? := h.tail_eq.trans List.getLast?_cons_cons
            have hother : ¬some x = q.tail := by
              intro heq
              have hmem : x ∈ z :: zs := List.mem_of_getLast? (htail.symm.trans heq.symm)
              exact (List.nodup_cons.1 h.linked.nodup).1 hmem
            rw [if_neg hother]
            rw [← htail] at hdrop
            exact hdrop
      · have hother : ¬some x = q.head := by
          rw [hhead, Option.some.injEq]
          exact hxy
        rw [SqQueue.rem, if_neg hne, if_neg hother]
        have hhead' : (y :: l).head? ≠ some x := by
          rw [List.head?_cons, ne_eq, Option.some.injEq]
          exact fun heq => hxy heq.symm
        exact remLoop (List.nil_append (y :: l) ▸ h) h.linked List.not_mem_nil hhead' hfuel

/-! ## Two queues that share the memory of their links -/

omit [DecidableEq α] in
theorem congr {flink' : α → Option α} (h : Represents q l) (heq : ∀ z ∈ l, flink' z = q.flink z) :
    Represents ⟨q.head, q.tail, flink'⟩ l := ⟨h.linked.congr heq, h.tail_eq⟩

end Represents

theorem addfirst_flink (hyx : y ≠ x) : (q.addfirst x).flink y = q.flink y :=
  Function.update_of_ne hyx _ _

theorem addlast_flink (h : Represents q l) (hyx : y ≠ x) (hy : y ∉ l) :
    (q.addlast x).flink y = q.flink y := by
  have hset : (q.setLink x none).flink y = q.flink y := Function.update_of_ne hyx _ _
  unfold addlast
  dsimp only
  split
  · exact hset
  · split
    · exact hset
    · rename_i tail htail
      have hne : y ≠ tail := by
        rintro rfl
        exact hy (List.mem_of_getLast? (h.tail_eq.symm.trans htail))
      exact (Function.update_of_ne hne _ _).trans hset

theorem remfirst_flink (h : Represents q l) (hy : y ∉ l) : q.remfirst.2.flink y = q.flink y := by
  have hhead : q.head = l.head? := h.linked.head
  cases l with
  | nil => simp only [remfirst, hhead, List.head?_nil]
  | cons x l =>
      have hyx : y ≠ x := fun heq => hy (heq ▸ List.mem_cons_self)
      simp only [remfirst, hhead, List.head?_cons, setLink]
      rw [Function.update_of_ne hyx]
      split <;> rfl

end SqQueue

end Platform
end DtPhm
