import DtPhm.Lib.Linked

/-!
# IntrusiveQueue — a queue whose nodes hold its links

The container of the work queues.  A node is in the queue when its link is not null or it is the
last one; there is no other record of it.

* `IntrusiveQueue`, `push`, `pop`, `remove`, `size`, `nodes` — the queue and its operations;
* `Represents` — the list that the links stand for;
* `Represents.push`, `Represents.pop`, `Represents.remove` — what the operations do to the list;
* `queue_is_fifo` — all runs of calls.
-/

namespace DtPhm
namespace Platform

open Lib

universe u

variable {α : Type u}

/-- `IntrusiveQueue`, with the links of all nodes. -/
structure IntrusiveQueue (α : Type u) where
  head : Option α
  tail : Option α
  next : α → Option α

namespace IntrusiveQueue

/-- The queue before its first call; the nodes were made without a link. -/
def initial : IntrusiveQueue α := ⟨none, none, fun _ => none⟩

/-- The nodes that an iteration comes to, if there are less than `fuel`. -/
def nodes (fuel : ℕ) (q : IntrusiveQueue α) : Option (List α) := walk q.next fuel q.head

/-- The loop of `size`. -/
def sizeLoop (q : IntrusiveQueue α) : (fuel : ℕ) → (node : Option α) → (sz : ℕ) → Option ℕ
  | 0, _, _ => none
  | _ + 1, none, sz => some sz
  | fuel + 1, some node, sz => sizeLoop q fuel (q.next node) (sz + 1)

/-- `size`. -/
def size (fuel : ℕ) (q : IntrusiveQueue α) : Option ℕ := q.sizeLoop fuel q.head 0

variable [DecidableEq α] (q : IntrusiveQueue α)

/-- `set_next_intrusive_queue_node`. -/
def setNext (node : α) (next : Option α) : IntrusiveQueue α :=
  { q with next := Function.update q.next node next }

/-- `push`. -/
def push (newNode : α) : IntrusiveQueue α :=
  -- error, node already queued or already inserted
  if q.next newNode ≠ none ∨ some newNode = q.tail then q
  else
    let q := if q.head = none then { q with head := some newNode } else q
    let q :=
      match q.tail with
      | none => q
      | some tail => q.setNext tail (some newNode)
    { q with tail := some newNode }

/-- `pop`. -/
def pop : Option α × IntrusiveQueue α :=
  match q.head with
  | none => (none, q)
  | some ret =>
      let q :=
        if q.head ≠ q.tail then { q with head := q.next ret }
        -- only one item left
        else { q with head := none, tail := none }
      -- clear next in popped
      (some ret, q.setNext ret none)

/-- The loop of `remove`. -/
def removeLoop (removeNode : α) : (fuel : ℕ) → (node : Option α) → Option (Bool × IntrusiveQueue α)
  | 0, _ => none
  | _ + 1, none => some (false, q)
  | fuel + 1, some node =>
      -- is sibling the node to remove?
      if q.next node = some removeNode then
        let q := if some removeNode = q.tail then { q with tail := some node } else q
        let q := q.setNext node (q.next removeNode)
        some (true, q.setNext removeNode none)
      else removeLoop removeNode fuel (q.next node)

/-- `remove`. -/
def remove (fuel : ℕ) (removeNode : α) : Option (Bool × IntrusiveQueue α) :=
  if some removeNode = q.head then
    match q.next removeNode with
    | some next =>
        some (true, ({ q with head := some next } : IntrusiveQueue α).setNext removeNode none)
    | none => some (true, { q with head := none, tail := none })
  else q.removeLoop removeNode fuel q.head

/-! ## Calls -/

/-- The calls that change a queue. -/
inductive Call (α : Type u)
  | push (newNode : α)
  | pop
  | remove (removeNode : α)

/-- What they return. -/
inductive Returned (α : Type u)
  | nothing
  | node (ret : Option α)
  | removed (found : Bool)

def call (fuel : ℕ) : Call α → Option (Returned α × IntrusiveQueue α)
  | .push newNode => some (.nothing, q.push newNode)
  | .pop => some (.node q.pop.1, q.pop.2)
  | .remove removeNode => (q.remove fuel removeNode).map fun (found, q) => (.removed found, q)

/-- A run of calls, with what they return. -/
def run (fuel : ℕ) : IntrusiveQueue α → List (Call α) →
    Option (List (Returned α) × IntrusiveQueue α)
  | q, [] => some ([], q)
  | q, c :: cs =>
      match q.call fuel c with
      | none => none
      | some (ret, q) => (run fuel q cs).map fun (rets, q) => (ret :: rets, q)

/-- The same calls on a list without repetition. -/
def listCall (l : List α) : Call α → Returned α × List α
  | .push newNode => (.nothing, if newNode ∈ l then l else l ++ [newNode])
  | .pop => (.node l.head?, l.tail)
  | .remove removeNode => (.removed (removeNode ∈ l), l.erase removeNode)

def listRun : List α → List (Call α) → List (Returned α) × List α
  | l, [] => ([], l)
  | l, c :: cs =>
      let (ret, l) := listCall l c
      let (rets, l) := listRun l cs
      (ret :: rets, l)

/-! ## The list that is represented -/

/-- The links go through the list, from its first node to its last one, and no other node has a
link. -/
structure Represents (q : IntrusiveQueue α) (l : List α) : Prop where
  linked : Linked q.next q.head l
  tail_eq : q.tail = l.getLast?
  others : ∀ x, x ∉ l → q.next x = none

variable {q : IntrusiveQueue α} {l pre post : List α} {x y : α} {fuel : ℕ}

omit [DecidableEq α] in
theorem represents_initial : Represents (initial : IntrusiveQueue α) [] :=
  ⟨rfl, rfl, fun _ _ => rfl⟩

namespace Represents

omit [DecidableEq α] in
theorem mem_iff (h : Represents q l) : x ∈ l ↔ q.next x ≠ none ∨ some x = q.tail := by
  constructor
  · intro hmem
    obtain ⟨pre, post, rfl⟩ := List.append_of_mem hmem
    have hnext : q.next x = post.head? := h.linked.next_of_append.head
    cases post with
    | nil =>
        right
        rw [h.tail_eq]
        simp
    | cons z post =>
        left
        rw [hnext]
        exact Option.some_ne_none z
  · rintro (hnext | htail)
    · by_contra hmem
      exact hnext (h.others x hmem)
    · rw [h.tail_eq] at htail
      exact List.mem_of_getLast? htail.symm

/-- `push` puts a node at the end, unless it is in the list. -/
theorem push (h : Represents q l) : Represents (q.push x) (if x ∈ l then l else l ++ [x]) := by
  rw [IntrusiveQueue.push]
  by_cases hmem : x ∈ l
  · rw [if_pos (h.mem_iff.1 hmem), if_pos hmem]
    exact h
  · have hnext : q.next x = none := h.others x hmem
    rw [if_neg (h.mem_iff.not.1 hmem), if_neg hmem]
    rcases List.eq_nil_or_concat' l with rfl | ⟨pre, last, rfl⟩
    -- it is the only node
    · have hhead : q.head = none := h.linked
      have htail : q.tail = none := h.tail_eq
      simp only [hhead, htail, if_true]
      exact ⟨⟨rfl, hnext⟩, rfl, fun y _ => h.others y List.not_mem_nil⟩
    -- the link of the last node is set
    · have hhead : q.head ≠ none := by
        intro hnone
        have hlinked := h.linked
        rw [hnone, Linked.next_nil] at hlinked
        exact List.append_ne_nil_of_right_ne_nil pre (List.cons_ne_nil last []) hlinked
      have htail : q.tail = some last := h.tail_eq.trans List.getLast?_concat
      simp only [hhead, htail, if_false]
      refine ⟨h.linked.append_singleton hmem hnext, List.getLast?_concat.symm, fun y hy => ?_⟩
      have hne : y ≠ last := by
        rintro rfl
        exact hy (by simp)
      refine (Function.update_of_ne hne ..).trans (h.others y fun hy' => hy ?_)
      exact List.mem_append_left [x] hy'

theorem dropHead (h : Represents q (x :: l)) :
    Represents ⟨q.next x, l.getLast?, Function.update q.next x none⟩ l where
  linked := h.linked.2.update (List.nodup_cons.1 h.linked.nodup).1 none
  tail_eq := rfl
  others := by
    intro y hy
    by_cases hyx : y = x
    · rw [hyx]
      exact Function.update_self x none q.next
    · refine (Function.update_of_ne hyx none q.next).trans ?_
      exact h.others y (List.not_mem_cons_of_ne_of_not_mem hyx hy)

/-- `pop` takes the first node. -/
theorem pop (h : Represents q l) : q.pop.1 = l.head? ∧ Represents q.pop.2 l.tail := by
  have hhead : q.head = l.head? := h.linked.head
  rw [IntrusiveQueue.pop]
  cases l with
  | nil =>
      simp only [hhead, List.head?_nil]
      exact ⟨trivial, h⟩
  | cons x xs =>
      have hdrop := h.dropHead
      simp only [hhead, List.head?_cons]
      refine ⟨trivial, ?_⟩
      cases xs with
      | nil =>
          have htail : q.tail = some x := h.tail_eq
          have hnext : q.next x = none := h.linked.2
          rw [htail, if_neg (not_not.2 rfl)]
          rw [hnext] at hdrop
          exact hdrop
      | cons z zs =>
          have htail : q.tail = (z :: zs).getLast? := h.tail_eq.trans List.getLast?_cons_cons
          have hne : some x ≠ q.tail := by
            intro heq
            have hmem : x ∈ z :: zs := List.mem_of_getLast? (htail.symm.trans heq.symm)
            exact (List.nodup_cons.1 h.linked.nodup).1 hmem
          rw [if_pos hne]
          rw [← htail] at hdrop
          exact hdrop

theorem unlink (h : Represents q (pre ++ y :: x :: post)) :
    Represents
      (((if some x = q.tail then { q with tail := some y } else q).setNext y (q.next x)).setNext x
        none)
      (pre ++ y :: post) := by
  have hnodup : (pre ++ [y] ++ x :: post).Nodup := by
    rw [List.append_assoc]
    exact h.linked.nodup
  have htail : q.tail = (x :: post).getLast? := by
    rw [h.tail_eq, List.getLast?_append_cons, List.getLast?_cons_cons]
  have hlinked := h.linked.unlink
  have hothers : ∀ z, z ∉ pre ++ y :: post →
      Function.update (Function.update q.next y (q.next x)) x none z = none := by
    intro z hz
    by_cases hzx : z = x
    · rw [hzx, Function.update_self]
    · rw [Function.update_of_ne hzx, Function.update_of_ne fun hzy => hz (by simp [hzy])]
      refine h.others z fun hmem => hz ?_
      simpa [hzx] using hmem
  cases post with
  | nil =>
      -- the sibling is the last node now
      have hlast : some x = q.tail := htail.symm
      rw [if_pos hlast]
      exact ⟨hlinked, List.getLast?_concat.symm, hothers⟩
  | cons z post =>
      have hne : some x ≠ q.tail := by
        intro heq
        have hmem : x ∈ z :: post := List.mem_of_getLast? (htail.symm.trans heq.symm)
        exact (List.nodup_cons.1 (List.nodup_append.1 hnodup).2.1).1 hmem
      rw [if_neg hne]
      refine ⟨hlinked, htail.trans ?_, hothers⟩
      rw [List.getLast?_append_cons, List.getLast?_cons_cons, List.getLast?_cons_cons]

/-- From the place `p` on, the loop looks for a node that is neither before it nor there. -/
theorem removeLoop (h : Represents q (pre ++ post)) {p : Option α} (hp : Linked q.next p post)
    (hpre : x ∉ pre) (hhead : post.head? ≠ some x) :
    ∃ q', Represents q' ((pre ++ post).erase x) ∧ ∀ fuel, post.length < fuel →
      q.removeLoop x fuel p = some (decide (x ∈ pre ++ post), q') := by
  induction post generalizing pre p with
  | nil =>
      obtain rfl : p = none := hp
      have hnot : x ∉ pre ++ [] := by
        rw [List.append_nil]
        exact hpre
      rw [List.erase_of_not_mem hnot, decide_eq_false hnot]
      refine ⟨q, h, fun fuel hfuel => ?_⟩
      obtain ⟨fuel, rfl⟩ := Nat.exists_eq_add_one.2 (Nat.zero_lt_of_lt hfuel)
      rfl
  | cons y post ih =>
      obtain ⟨rfl, hpost⟩ := hp
      have hne : x ≠ y := by
        rintro rfl
        exact hhead rfl
      by_cases hnext : q.next y = some x
      -- it is the next one
      · cases post with
        | nil => exact absurd (hnext.symm.trans hpost) (Option.some_ne_none x)
        | cons x' post =>
            obtain rfl : x = x' := Option.some.inj (hnext.symm.trans hpost.1)
            have hmem : x ∈ pre ++ y :: x :: post := by simp
            have herase : (pre ++ y :: x :: post).erase x = pre ++ y :: post := by
              rw [List.erase_append_right _ hpre, List.erase_cons_tail, List.erase_cons_head]
              simpa using hne.symm
            rw [herase, decide_eq_true hmem]
            refine ⟨_, h.unlink, fun fuel hfuel => ?_⟩
            obtain ⟨fuel, rfl⟩ := Nat.exists_eq_add_one.2 (Nat.zero_lt_of_lt hfuel)
            rw [IntrusiveQueue.removeLoop, if_pos hnext]
            split <;> rfl
      -- the node at the place joins the ones that have been passed
      · have hpre' : x ∉ pre ++ [y] := by simp [hpre, hne]
        have hhead' : post.head? ≠ some x := hpost.head ▸ hnext
        have hsplit : pre ++ y :: post = pre ++ [y] ++ post := by simp
        rw [hsplit] at h ⊢
        obtain ⟨q', hq', hloop⟩ := ih h hpost hpre' hhead'
        refine ⟨q', hq', fun fuel hfuel => ?_⟩
        obtain ⟨fuel, rfl⟩ := Nat.exists_eq_add_one.2 (Nat.zero_lt_of_lt hfuel)
        rw [IntrusiveQueue.removeLoop, if_neg hnext]
        exact hloop fuel (Nat.lt_of_succ_lt_succ hfuel)

/-- `remove` takes a node out and tells if it was in the list. -/
theorem remove (h : Represents q l) (x : α) :
    ∃ q', Represents q' (l.erase x) ∧ ∀ fuel, l.length < fuel →
      q.remove fuel x = some (decide (x ∈ l), q') := by
  have hhead : q.head = l.head? := h.linked.head
  unfold IntrusiveQueue.remove
  by_cases hfirst : some x = q.head
  · simp only [if_pos hfirst]
    cases l with
    | nil => exact absurd (hfirst.trans hhead) (Option.some_ne_none x)
    | cons x' xs =>
        obtain rfl : x = x' := Option.some.inj (hfirst.trans hhead)
        have hxs : Linked q.next (q.next x) xs := h.linked.2
        have hdrop := h.dropHead
        rw [decide_eq_true List.mem_cons_self, List.erase_cons_head]
        cases hnext : q.next x with
        | none =>
            rw [hnext, Linked.next_nil] at hxs
            subst hxs
            -- its link is null already
            have hsame : Function.update q.next x none = q.next := by
              calc
                Function.update q.next x none = Function.update q.next x (q.next x) := by rw [hnext]
                _ = q.next := Function.update_eq_self x q.next
            rw [hnext, hsame] at hdrop
            exact ⟨{ q with head := none, tail := none }, hdrop, fun _ _ => rfl⟩
        | some z =>
            rw [hnext] at hxs hdrop
            have htail : q.tail = xs.getLast? := by
              cases xs with
              | nil => exact absurd hxs (Option.some_ne_none z)
              | cons z xs => exact h.tail_eq.trans List.getLast?_cons_cons
            rw [← htail] at hdrop
            exact ⟨_, hdrop, fun _ _ => rfl⟩
  · simp only [if_neg hfirst]
    have h' : Represents q ([] ++ l) := h
    exact h'.removeLoop h.linked List.not_mem_nil fun heq => hfirst (hhead.trans heq).symm

omit [DecidableEq α] in
theorem sizeLoop {p : Option α} (hp : Linked q.next p l) (hfuel : l.length < fuel) (sz : ℕ) :
    q.sizeLoop fuel p sz = some (sz + l.length) := by
  induction l generalizing p fuel sz with
  | nil =>
      obtain rfl : p = none := hp
      obtain ⟨fuel, rfl⟩ := Nat.exists_eq_add_one.2 (Nat.zero_lt_of_lt hfuel)
      rfl
  | cons x xs ih =>
      obtain ⟨rfl, hxs⟩ := hp
      obtain ⟨fuel, rfl⟩ := Nat.exists_eq_add_one.2 (Nat.zero_lt_of_lt hfuel)
      rw [IntrusiveQueue.sizeLoop, ih hxs (Nat.lt_of_succ_lt_succ hfuel), List.length_cons]
      congr 1
      omega

omit [DecidableEq α] in
theorem size (h : Represents q l) (hfuel : l.length < fuel) : q.size fuel = some l.length := by
  rw [IntrusiveQueue.size, sizeLoop h.linked hfuel, Nat.zero_add]

omit [DecidableEq α] in
theorem nodes (h : Represents q l) (hfuel : l.length < fuel) : q.nodes fuel = some l :=
  h.linked.walk_of_linked hfuel

theorem call (h : Represents q l) (c : Call α) :
    ∃ q', Represents q' (listCall l c).2 ∧ ∀ fuel, l.length < fuel →
      q.call fuel c = some ((listCall l c).1, q') := by
  cases c with
  | push newNode => exact ⟨_, h.push, fun _ _ => rfl⟩
  | pop =>
      obtain ⟨hret, hpop⟩ := h.pop
      refine ⟨_, hpop, fun _ _ => ?_⟩
      rw [IntrusiveQueue.call, hret]
      rfl
  | remove removeNode =>
      obtain ⟨q', hq', hremove⟩ := h.remove removeNode
      refine ⟨q', hq', fun fuel hfuel => ?_⟩
      rw [IntrusiveQueue.call, hremove fuel hfuel]
      rfl

end Represents

/-! ## All runs -/

theorem length_listCall_le (l : List α) (c : Call α) : (listCall l c).2.length ≤ l.length + 1 := by
  cases c with
  | push newNode =>
      rw [listCall]
      split
      · exact Nat.le_succ _
      · exact Nat.le_of_eq List.length_append
  | pop =>
      rw [listCall, List.length_tail]
      omega
  | remove removeNode => exact Nat.le_succ_of_le List.length_erase_le

theorem length_listRun_le (l : List α) (calls : List (Call α)) :
    (listRun l calls).2.length ≤ l.length + calls.length := by
  induction calls generalizing l with
  | nil => exact Nat.le_refl _
  | cons c cs ih =>
      have hrest := ih (listCall l c).2
      have hone := length_listCall_le l c
      simp only [listRun, List.length_cons]
      omega

theorem Represents.run (h : Represents q l) (calls : List (Call α)) :
    ∃ q', Represents q' (listRun l calls).2 ∧ ∀ fuel, l.length + calls.length < fuel →
      q.run fuel calls = some ((listRun l calls).1, q') := by
  induction calls generalizing q l with
  | nil => exact ⟨q, h, fun _ _ => rfl⟩
  | cons c cs ih =>
      obtain ⟨q₁, h₁, hcall⟩ := h.call c
      obtain ⟨q', h', hrun⟩ := ih h₁
      refine ⟨q', h', fun fuel hfuel => ?_⟩
      rw [List.length_cons] at hfuel
      have hone := length_listCall_le l c
      have hrest : (listCall l c).2.length + cs.length < fuel := by omega
      rw [IntrusiveQueue.run, hcall fuel (by omega)]
      simp only [hrun fuel hrest, Option.map_some]
      rfl

/-- In every run the links stand for a list without repetition, and the calls do to it what they
say: `push` appends a node that is not in it, `pop` takes the first one, and `remove` takes a node
out.  The loops come to an end, and `size` and the iteration follow the list. -/
theorem queue_is_fifo (calls : List (Call α)) :
    let (rets, l) := listRun ([] : List α) calls
    l.Nodup ∧ ∃ q, Represents q l ∧ ∀ fuel, calls.length < fuel →
      (initial : IntrusiveQueue α).run fuel calls = some (rets, q) ∧
        q.size fuel = some l.length ∧ q.nodes fuel = some l := by
  obtain ⟨q, hq, hrun⟩ := (represents_initial (α := α)).run calls
  refine ⟨hq.linked.nodup, q, hq, fun fuel hfuel => ?_⟩
  have hlength : (listRun ([] : List α) calls).2.length < fuel := by
    calc
      (listRun ([] : List α) calls).2.length ≤ ([] : List α).length + calls.length :=
        length_listRun_le [] calls
      _ < fuel := by
        rw [List.length_nil, Nat.zero_add]
        exact hfuel
  refine ⟨hrun fuel ?_, hq.size hlength, hq.nodes hlength⟩
  rw [List.length_nil, Nat.zero_add]
  exact hfuel

end IntrusiveQueue

end Platform
end DtPhm
