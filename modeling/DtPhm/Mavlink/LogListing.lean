import DtPhm.Mavlink.LogDownload

/-!
# LogListing — when the listing of the logs ends

A `LOG_REQUEST_LIST` starts a listing, whose entries are counted up until they meet the last one.
Both ends are clamped to the logs that there are.

* `Surroundings`, `stepIn`, `outputIn` — a handler whose logs and list file are changed by others;
* `NoLogs`, `noLogs_step` — without logs both counters stay at 0;
* `ListingEnds` — what a listing should do;
* `Listed`, `listed_step` — how far a listing has come;
* `Astray`, `astray_step` — a listing that started behind its end goes on;
* `listing_ends_iff` — the requests whose listings end.
-/

namespace DtPhm
namespace Mavlink
namespace LogHandler

open Lib

/-! ## A handler among others -/

/-- What a call finds: the logs, and the list file, which all handlers use.  Between calls logs are
written and erased, and an erase request does to its handler what a `LOG_REQUEST_END` does. -/
structure Surroundings where
  storage : Storage
  list : Option Text

/-- The handler after a call. -/
def stepIn (long : Long) (h : Handler) (e : Surroundings × Event) : Handler :=
  (call long e.1.storage h e.1.list e.2).1

/-- The messages of a call. -/
def outputIn (long : Long) (h : Handler) (e : Surroundings × Event) : List Message :=
  sent long h e.1.list e.2

/-- The id of a `LOG_ENTRY`. -/
def Message.entryId : Message → Option ℕ
  | .logEntry _ _ id _ _ => some id.toNat
  | .logData .. => none

/-- The ids of the entries among the messages. -/
def entryIds (ms : List Message) : List ℕ := ms.filterMap Message.entryId

theorem entryIds_append (ms ms' : List Message) :
    entryIds (ms ++ ms') = entryIds ms ++ entryIds ms' :=
  List.filterMap_append

/-- A call of `send` that has room for an entry. -/
def Event.hasRoom : Event → Bool
  | .send free _ => decide (free 0 > 14 + 12)
  | _ => false

/-- A request that starts a listing. -/
def Event.isRequestList : Event → Bool
  | .requestList .. => true
  | _ => false

/-- What a listing should do, whatever calls follow the request: its entries have consecutive ids,
all of logs that there are, and while it goes on every call with room sends one. -/
def ListingEnds (long : Long) (h : Handler) : Prop :=
  ∀ es : List (Surroundings × Event), (∀ e ∈ es, e.2.isRequestList = false) →
    ∃ n, entryIds (outputs (stepIn long) (outputIn long) h es) = List.range' h.nextEntry n ∧
      n ≤ max 1 h.logCount ∧ (∀ id ∈ List.range' h.nextEntry n, id < max 1 h.logCount) ∧
      ((exec (stepIn long) h es).currentStatus = .listing →
        es.countP (fun e => e.2.hasRoom) ≤ n ∧ n < max 1 h.logCount)

/-! ## What the calls do to the counters -/

/-- How many logs the handler lists after a request. -/
def countAfter (S : Storage) (h : Handler) (start stop : UInt16) : ℕ :=
  if h.currentStatus = .inactive ∨ (stop.toNat : ℤ) - start.toNat > h.logCount then
    (logList S).length
  else h.logCount

/-- An end of the range, clamped. -/
def clampEntry (count : ℕ) (i : UInt16) : ℕ := min i.toNat (count - 1)

/-- The counters of a handler. -/
def Handler.counters (h : Handler) : ℕ × ℕ × ℕ := (h.nextEntry, h.lastEntry, h.logCount)

/-- The counters after a request.  Without logs they are not set, but they were 0 before or are
reset. -/
theorem counters_requestList (S : Storage) (h : Handler) (list : Option Text)
    (start stop : UInt16) :
    (requestList S h list start stop).1.currentStatus = .listing ∧
      (requestList S h list start stop).1.counters =
        (if countAfter S h start stop ≠ 0 then
          (clampEntry (countAfter S h start stop) start,
            clampEntry (countAfter S h start stop) stop,
            countAfter S h start stop)
        else if h.currentStatus = .inactive ∨ (stop.toNat : ℤ) - start.toNat > h.logCount then
          (0, 0, 0)
        else h.counters) := by
  have hclamp : ∀ (count : ℕ) (i : UInt16), count ≠ 0 →
      (if i.toNat < count then i.toNat else count - 1) = clampEntry count i := by
    intro count i hcount
    unfold clampEntry
    split <;> omega
  have hclose : (closeAndUnlinkFiles { h with currentStatus := .inactive }).1.currentStatus =
      .inactive := by
    unfold closeAndUnlinkFiles
    dsimp only
    split <;> rfl
  refine ⟨rfl, ?_⟩
  unfold requestList countAfter
  by_cases hin : h.currentStatus = .inactive
  · -- a first request
    simp only [hin, ne_eq, not_true_eq_false, if_false, if_true, true_or, initListHelper,
      resetListHelper, Nat.zero_add]
    split
    · rename_i hcount
      simp [Handler.counters, hclamp _ _ hcount]
    · rename_i hcount
      simp only [not_not] at hcount
      simp [Handler.counters, hcount]
  · by_cases hnew : (stop.toNat : ℤ) - start.toNat > h.logCount
    · -- a new request
      simp only [ne_eq, hin, not_false_eq_true, if_true, hnew, hclose, false_or, initListHelper,
        resetListHelper, Nat.zero_add]
      split
      · rename_i hcount
        simp [Handler.counters, hclamp _ _ hcount]
      · rename_i hcount
        simp only [not_not] at hcount
        simp [Handler.counters, hcount]
    · -- the old list is kept
      simp only [ne_eq, hin, not_false_eq_true, if_true, hnew, if_false, reduceCtorEq, or_self]
      split
      · rename_i hcount
        simp [Handler.counters, hclamp _ _ hcount]
      · rfl

theorem counters_requestData (S : Storage) (h : Handler) (list : Option Text) (id : UInt16)
    (ofs count : UInt32) :
    (requestData S h list id ofs count).counters = h.counters ∧
      ((requestData S h list id ofs count).currentStatus = .listing →
        requestData S h list id ofs count = h) := by
  unfold requestData initDataset
  dsimp only
  split
  · exact ⟨rfl, fun _ => rfl⟩
  split
  · exact ⟨rfl, fun _ => rfl⟩
  split
  · -- another log is taken up
    cases (getEntry list id.toNat).file with
    | none => exact ⟨rfl, nofun⟩
    | some file => exact ⟨rfl, nofun⟩
  · exact ⟨rfl, nofun⟩

/-- A `LOG_REQUEST_END` ends a listing, and resets the counters or leaves them alone. -/
theorem counters_requestEnd (h : Handler) :
    ((requestEnd h).1.counters = h.counters ∨ (requestEnd h).1.counters = (0, 0, 0)) ∧
      (requestEnd h).1.currentStatus = .inactive := by
  unfold requestEnd closeAndUnlinkFiles
  dsimp only
  split
  · exact ⟨.inr rfl, rfl⟩
  · exact ⟨.inl rfl, rfl⟩

theorem counters_logSendData (long : Long) (h : Handler) (hs : h.currentStatus = .sendingData) :
    (logSendData long h).1.counters = h.counters ∧
      (logSendData long h).1.currentStatus ≠ .listing ∧
      (logSendData long h).2.entryId = none := by
  have hget : ∀ len, (getLogData long h len).1.counters = h.counters ∧
      (getLogData long h len).1.currentStatus = h.currentStatus := by
    intro len
    unfold getLogData
    split
    · exact ⟨rfl, rfl⟩
    split
    · exact ⟨rfl, rfl⟩
    split
    · exact ⟨rfl, rfl⟩
    · exact ⟨rfl, rfl⟩
  obtain ⟨hcounters, hstatus⟩ := hget (min h.currentLogDataRemaining.toNat dataSize)
  unfold logSendData
  dsimp only
  refine ⟨?_, ?_, rfl⟩
  · split <;> exact hcounters
  · split
    · exact nofun
    · simp [hstatus, hs]

/-- The loop for data leaves the counters alone, starts no listing and sends no entries. -/
theorem counters_dataLoop (long : Long) (free : ℕ → ℕ) (h : Handler) (count : ℕ)
    (hne : h.currentStatus ≠ .listing) :
    (sendLoop .sendingData 97 (logSendData long) maxBytesSend free h count).1.counters =
      h.counters ∧
      (sendLoop .sendingData 97 (logSendData long) maxBytesSend free h count).1.currentStatus ≠
        .listing ∧
      entryIds (sendLoop .sendingData 97 (logSendData long) maxBytesSend free h count).2.2 =
        [] := by
  obtain ⟨⟨hcounters, hstatus⟩, hids⟩ := sendLoop_rule .sendingData 97 (logSendData long)
    (P := fun g => g.counters = h.counters ∧ g.currentStatus ≠ .listing)
    (Q := fun m => m.entryId = none) (by
      intro g hg hs
      obtain ⟨hcounters, hstatus, hid⟩ := counters_logSendData long g hs
      exact ⟨⟨hcounters.trans hg.1, hstatus⟩, hid⟩) maxBytesSend free h count ⟨rfl, hne⟩
  exact ⟨hcounters, hstatus, List.filterMap_eq_nil_iff.2 hids⟩

/-- `send` in its two loops. -/
theorem send_eq {long : Long} {h : Handler} {list : Option Text} {free free' : ℕ → ℕ}
    {r r' : Handler × ℕ × List Message}
    (hr : sendLoop .listing 14 (logSendListing list) maxBytesSend free h 0 = r)
    (hr' : sendLoop .sendingData 97 (logSendData long) maxBytesSend free' r.1 r.2.1 = r') :
    send long h list free free' = (r'.1, r.2.2 ++ r'.2.2) := by
  unfold send
  rw [hr]
  obtain ⟨g, count, out⟩ := r
  dsimp only at hr' ⊢
  rw [hr']

theorem stepIn_send (long : Long) (h : Handler) (w : Surroundings) (free free' : ℕ → ℕ) :
    stepIn long h (w, .send free free') = (send long h w.list free free').1 := by
  unfold stepIn
  dsimp only
  rw [call]

theorem outputIn_send (long : Long) (h : Handler) (w : Surroundings) (free free' : ℕ → ℕ) :
    outputIn long h (w, .send free free') = (send long h w.list free free').2 := by
  unfold outputIn
  dsimp only
  rw [sent]

theorem send_of_listing {long : Long} {h : Handler} {list : Option Text} {free free' : ℕ → ℕ}
    {r : Handler × ℕ × List Message}
    (hr : sendLoop .listing 14 (logSendListing list) maxBytesSend free h 0 = r)
    (hne : r.1.currentStatus ≠ .sendingData) : send long h list free free' = (r.1, r.2.2) := by
  rw [send_eq hr (sendLoop_of_ne hne maxBytesSend free' r.2.1), List.append_nil]

/-! ## Without logs -/

/-- Without logs both counters are 0. -/
def NoLogs (h : Handler) : Prop := h.logCount = 0 → h.nextEntry = 0 ∧ h.lastEntry = 0

theorem noLogs_congr {g h : Handler} (hc : g.counters = h.counters) (hn : NoLogs h) : NoLogs g := by
  simp only [Handler.counters, Prod.mk.injEq] at hc
  obtain ⟨hnext, hlast, hcount⟩ := hc
  intro h0
  rw [hnext, hlast]
  exact hn (hcount ▸ h0)

theorem noLogs_of_zero {h : Handler} (hc : h.counters = (0, 0, 0)) : NoLogs h := by
  simp only [Handler.counters, Prod.mk.injEq] at hc
  exact fun _ => ⟨hc.1, hc.2.1⟩

theorem noLogs_step (long : Long) (h : Handler) (e : Surroundings × Event) (hn : NoLogs h) :
    NoLogs (stepIn long h e) := by
  obtain ⟨w, e⟩ := e
  unfold stepIn
  cases e with
  | requestList start stop =>
      obtain ⟨_, hcounters⟩ := counters_requestList w.storage h w.list start stop
      rw [call]
      split at hcounters
      · rename_i hcount
        intro h0
        simp only [Handler.counters, Prod.mk.injEq] at hcounters
        exact absurd (hcounters.2.2.symm.trans h0) hcount
      · split at hcounters
        · exact noLogs_of_zero hcounters
        · exact noLogs_congr hcounters hn
  | requestData id ofs count =>
      exact noLogs_congr (counters_requestData w.storage h w.list id ofs count).1 hn
  | requestEnd =>
      rcases (counters_requestEnd h).1 with hsame | hzero
      · exact noLogs_congr hsame hn
      · exact noLogs_of_zero hzero
  | send free free' =>
      obtain ⟨hlisting, _⟩ := sendLoop_rule .listing 14 (logSendListing w.list) (P := NoLogs)
        (Q := fun _ => True) (by
          intro g hg _
          refine ⟨?_, trivial⟩
          unfold logSendListing
          dsimp only
          split
          · exact hg
          · rename_i hne
            intro h0
            -- the counters are equal where there are no logs
            exact absurd ((hg h0).1.trans (hg h0).2.symm) hne) maxBytesSend free h 0 hn
      obtain ⟨hdata, _⟩ := sendLoop_rule .sendingData 97 (logSendData long) (P := NoLogs)
        (Q := fun _ => True)
        (fun g hg hs => ⟨noLogs_congr (counters_logSendData long g hs).1 hg, trivial⟩) maxBytesSend
        free' (sendLoop .listing 14 (logSendListing w.list) maxBytesSend free h 0).1
        (sendLoop .listing 14 (logSendListing w.list) maxBytesSend free h 0).2.1 hlisting
      rw [call, send_eq rfl rfl]
      exact hdata

/-! ## A listing that ends -/

/-- The listing goes on, at an entry that is not behind its last one. -/
structure Ahead (last count : ℕ) (h : Handler) : Prop where
  status : h.currentStatus = .listing
  next : h.nextEntry ≤ last
  last : h.lastEntry = last
  count : h.logCount = count

/-- How far a listing from `first` to `last` has come after `n` entries: it goes on, or is over. -/
def Listed (first last count : ℕ) (h : Handler) (n : ℕ) : Prop :=
  (Ahead last count h ∧ h.nextEntry = first + n) ∨
    (h.currentStatus ≠ .listing ∧ n ≤ last - first + 1)

/-- The loop for the entries sends them in their order, and some if there is room. -/
theorem Ahead.loop {last count : ℕ} (hlast : last < 65536) (list : Option Text) (k : ℕ) :
    ∀ (free : ℕ → ℕ) (h : Handler) (bytes : ℕ), Ahead last count h →
      ∃ n, entryIds (sendLoop .listing 14 (logSendListing list) k free h bytes).2.2 =
          List.range' h.nextEntry n ∧
        Listed h.nextEntry last count (sendLoop .listing 14 (logSendListing list) k free h bytes).1
          n ∧
        (0 < k → free 0 > 14 + 12 → bytes < maxBytesSend → 0 < n) ∧
        (sendLoop .listing 14 (logSendListing list) k free h bytes).1.currentStatus ≠
          .sendingData := by
  induction k with
  | zero =>
      intro free h bytes ha
      refine ⟨0, rfl, .inl ⟨ha, rfl⟩, fun hk => absurd hk (Nat.lt_irrefl 0), ?_⟩
      rw [sendLoop, ha.status]
      exact LogHandlerState.noConfusion
  | succ k ih =>
      intro free h bytes ha
      rw [sendLoop]
      split
      case isFalse =>
        rename_i hcond
        refine ⟨0, rfl, .inl ⟨ha, rfl⟩, fun _ hroom hbytes =>
          absurd ⟨ha.status, hroom, hbytes⟩ hcond, ?_⟩
        rw [ha.status]
        exact LogHandlerState.noConfusion
      have hnext := ha.next
      have hid : (UInt16.ofNat h.nextEntry).toNat = h.nextEntry := by
        rw [UInt16.toNat_ofNat']
        exact Nat.mod_eq_of_lt (by omega)
      have hmessage : (logSendListing list h).2.entryId = some h.nextEntry := congrArg some hid
      have hids : ∀ ms, entryIds ((logSendListing list h).2 :: ms) = h.nextEntry :: entryIds ms :=
        fun ms => List.filterMap_cons_some hmessage
      by_cases hdone : h.nextEntry = h.lastEntry
      · -- the last entry
        have hone : (logSendListing list h).1 = { h with currentStatus := .idle } := by
          unfold logSendListing
          exact if_pos hdone
        have hstop : ∀ bytes', sendLoop .listing 14 (logSendListing list) k (fun i => free (i + 1))
            (logSendListing list h).1 bytes' = ((logSendListing list h).1, bytes', []) :=
          fun bytes' => sendLoop_of_ne (by rw [hone]; exact LogHandlerState.noConfusion) k _ bytes'
        have hover : (logSendListing list h).1.currentStatus = .idle := by rw [hone]
        generalize logSendListing list h = r at *
        obtain ⟨g, message⟩ := r
        dsimp only at hstop hids hover ⊢
        rw [hstop]
        refine ⟨1, hids [], .inr ⟨?_, by omega⟩, fun _ _ _ => Nat.one_pos, ?_⟩
        · rw [hover]
          exact LogHandlerState.noConfusion
        · rw [hover]
          exact LogHandlerState.noConfusion
      · -- the entry is followed by the next one
        have hone : (logSendListing list h).1 = { h with nextEntry := h.nextEntry + 1 } := by
          unfold logSendListing
          exact if_neg hdone
        have hlt : h.nextEntry + 1 ≤ last := by
          have hne := ha.last
          omega
        have ha' : Ahead last count (logSendListing list h).1 := by
          rw [hone]
          exact ⟨ha.status, hlt, ha.last, ha.count⟩
        have hnext' : (logSendListing list h).1.nextEntry = h.nextEntry + 1 := by rw [hone]
        generalize logSendListing list h = r at *
        obtain ⟨g, message⟩ := r
        dsimp only at hids hnext' ha' ⊢
        obtain ⟨n, hrest, hlisted, _, hstatus⟩ := ih (fun i => free (i + 1)) g (bytes + 14) ha'
        rw [hnext'] at hrest hlisted
        refine ⟨n + 1, ?_, ?_, fun _ _ _ => Nat.succ_pos n, hstatus⟩
        · rw [hids, hrest, List.range'_succ]
        · rcases hlisted with ⟨hahead, hn⟩ | ⟨hover, hn⟩
          · exact .inl ⟨hahead, by omega⟩
          · exact .inr ⟨hover, by omega⟩

/-- A call of `send` goes on with the listing. -/
theorem Ahead.send {last count : ℕ} (hlast : last < 65536) (long : Long) {h : Handler}
    (ha : Ahead last count h) (list : Option Text) (free free' : ℕ → ℕ) :
    ∃ n, entryIds (send long h list free free').2 = List.range' h.nextEntry n ∧
      Listed h.nextEntry last count (LogHandler.send long h list free free').1 n ∧
      (free 0 > 14 + 12 → 0 < n) := by
  obtain ⟨n, hids, hlisted, hroom, hstatus⟩ := Ahead.loop hlast list maxBytesSend free h 0 ha
  rw [send_of_listing rfl hstatus]
  exact ⟨n, hids, hlisted, fun hfree => hroom maxBytesSend_pos hfree maxBytesSend_pos⟩

/-- A handler that is not listing sends no entries, until the next request for a list. -/
theorem notListing_step (long : Long) {h : Handler} (hne : h.currentStatus ≠ .listing)
    {e : Surroundings × Event} (he : e.2.isRequestList = false) :
    (stepIn long h e).currentStatus ≠ .listing ∧ entryIds (outputIn long h e) = [] := by
  obtain ⟨w, e⟩ := e
  cases e with
  | requestList start stop => cases he
  | requestData id ofs count =>
      refine ⟨fun hl => hne ?_, rfl⟩
      have hsame := (counters_requestData w.storage h w.list id ofs count).2 hl
      exact (congrArg Handler.currentStatus hsame).symm.trans hl
  | requestEnd =>
      refine ⟨?_, rfl⟩
      rw [stepIn, call, (counters_requestEnd h).2]
      exact LogHandlerState.noConfusion
  | send free free' =>
      obtain ⟨_, hstatus, hids⟩ := counters_dataLoop long free' h 0 hne
      rw [stepIn_send, outputIn_send, send_eq (sendLoop_of_ne hne maxBytesSend free 0) rfl]
      exact ⟨hstatus, hids⟩

theorem notListing_run (long : Long) {h : Handler} {es : List (Surroundings × Event)}
    (hne : h.currentStatus ≠ .listing) (hes : ∀ e ∈ es, e.2.isRequestList = false) :
    (exec (stepIn long) h es).currentStatus ≠ .listing := by
  induction es generalizing h with
  | nil => exact hne
  | cons e es ih =>
      have hstep := (notListing_step long hne (hes e List.mem_cons_self)).1
      exact ih hstep fun e' he' => hes e' (List.mem_cons_of_mem _ he')

theorem listed_step {first last count : ℕ} (hlast : last < 65536) (long : Long) {h : Handler}
    {n : ℕ}
    (hl : Listed first last count h n) {e : Surroundings × Event} (he : e.2.isRequestList = false) :
    ∃ k, entryIds (outputIn long h e) = List.range' (first + n) k ∧
      Listed first last count (stepIn long h e) (n + k) ∧
      ((stepIn long h e).currentStatus = .listing → e.2.hasRoom = true → 0 < k) := by
  rcases hl with ⟨ha, hnext⟩ | ⟨hne, hn⟩
  case inr =>
    obtain ⟨hne', hids⟩ := notListing_step long hne he
    exact ⟨0, hids, .inr ⟨hne', hn⟩, fun hlisting => absurd hlisting hne'⟩
  have hle := ha.next
  obtain ⟨w, e⟩ := e
  cases e with
  | requestList start stop => cases he
  | requestData id ofs count' =>
      refine ⟨0, rfl, ?_, fun _ hroom => absurd hroom Bool.false_ne_true⟩
      by_cases hl : (requestData w.storage h w.list id ofs count').currentStatus = .listing
      · -- the request was ignored
        have hsame := (counters_requestData w.storage h w.list id ofs count').2 hl
        rw [stepIn, call, hsame]
        exact .inl ⟨ha, hnext⟩
      · exact .inr ⟨hl, by omega⟩
  | requestEnd =>
      have hstatus := (counters_requestEnd h).2
      refine ⟨0, rfl, .inr ⟨?_, by omega⟩, fun _ hroom => absurd hroom Bool.false_ne_true⟩
      rw [stepIn, call, hstatus]
      exact LogHandlerState.noConfusion
  | send free free' =>
      obtain ⟨k, hids, hlisted, hroom⟩ := ha.send hlast long w.list free free'
      rw [hnext] at hids
      rw [stepIn_send, outputIn_send]
      refine ⟨k, hids, ?_, fun _ hfree => hroom (of_decide_eq_true hfree)⟩
      rcases hlisted with ⟨ha', hnext'⟩ | ⟨hover, hk⟩
      · exact .inl ⟨ha', by rw [hnext', hnext, Nat.add_assoc]⟩
      · exact .inr ⟨hover, by omega⟩

theorem listed_run {first last count : ℕ} (hlast : last < 65536) (long : Long)
    (es : List (Surroundings × Event)) : ∀ (h : Handler) (n : ℕ), Listed first last count h n →
      (∀ e ∈ es, e.2.isRequestList = false) →
      ∃ k, entryIds (outputs (stepIn long) (outputIn long) h es) = List.range' (first + n) k ∧
        Listed first last count (exec (stepIn long) h es) (n + k) ∧
        ((exec (stepIn long) h es).currentStatus = .listing →
          es.countP (fun e => e.2.hasRoom) ≤ k) := by
  induction es with
  | nil =>
      intro h n hl _
      exact ⟨0, rfl, hl, fun _ => Nat.le_refl 0⟩
  | cons e es ih =>
      intro h n hl hes
      obtain ⟨k, hids, hl', hroom⟩ := listed_step hlast long hl (hes e (by simp))
      obtain ⟨k', hids', hl'', hrooms⟩ := ih (stepIn long h e) (n + k) hl' fun e' he' =>
        hes e' (List.mem_cons_of_mem _ he')
      refine ⟨k + k', ?_, ?_, ?_⟩
      · rw [outputs, entryIds_append, hids, hids', ← Nat.add_assoc]
        exact List.range'_append_1
      · rw [exec_cons, ← Nat.add_assoc]
        exact hl''
      · intro hlisting
        have hrest := hrooms hlisting
        -- a listing that goes on was going on after the first call
        have hfirst : (stepIn long h e).currentStatus = .listing := by
          by_contra hne
          exact notListing_run long hne (fun e' he' => hes e' (List.mem_cons_of_mem _ he')) hlisting
        have hone : (if e.2.hasRoom = true then 1 else 0) ≤ k := by
          split
          · rename_i hfree
            exact hroom hfirst hfree
          · exact Nat.zero_le _
        rw [List.countP_cons]
        omega

theorem Ahead.listingEnds {last : ℕ} {h : Handler} (ha : Ahead last h.logCount h)
    (hlast : last < 65536) (hcount : last < max 1 h.logCount) (long : Long) :
    ListingEnds long h := by
  intro es hes
  have hstart : Listed h.nextEntry last h.logCount h 0 := .inl ⟨ha, rfl⟩
  obtain ⟨n, hids, hlisted, hroom⟩ := listed_run hlast long es h 0 hstart hes
  rw [Nat.add_zero] at hids
  rw [Nat.zero_add] at hlisted
  have hnext : h.nextEntry ≤ last := ha.next
  have hn : n ≤ last - h.nextEntry + 1 := by
    rcases hlisted with ⟨ha', hnext'⟩ | ⟨_, hn⟩
    · have := ha'.next
      omega
    · exact hn
  refine ⟨n, hids, by omega, ?_, ?_⟩
  · intro id hid
    have hmem := List.mem_range'_1.1 hid
    omega
  · intro hlisting
    refine ⟨hroom hlisting, ?_⟩
    rcases hlisted with ⟨ha', hnext'⟩ | ⟨hover, _⟩
    · have := ha'.next
      omega
    · exact absurd hlisting hover

/-! ## A listing that does not end -/

/-- The listing is behind its end, which it never meets. -/
structure Astray (h : Handler) : Prop where
  status : h.currentStatus = .listing
  behind : h.lastEntry < h.nextEntry

/-- A call of `send` leaves it there. -/
theorem astray_step (long : Long) {h : Handler} (ha : Astray h) (w : Surroundings)
    (free free' : ℕ → ℕ) : Astray (stepIn long h (w, .send free free')) := by
  obtain ⟨hlisting, _⟩ := sendLoop_rule .listing 14 (logSendListing w.list) (P := Astray)
    (Q := fun _ => True) (by
      intro g hg _
      have hbehind := hg.behind
      refine ⟨?_, trivial⟩
      unfold logSendListing
      dsimp only
      rw [if_neg (by omega)]
      exact ⟨hg.status, Nat.lt_succ_of_lt hbehind⟩) maxBytesSend free h 0 ha
  have hne : (sendLoop .listing 14 (logSendListing w.list) maxBytesSend free h 0).1.currentStatus ≠
      .sendingData := by
    rw [hlisting.status]
    exact nofun
  rw [stepIn_send, send_of_listing rfl hne]
  exact hlisting

/-- Calls of `send` on a free link. -/
def roomyCalls (w : Surroundings) (n : ℕ) : List (Surroundings × Event) :=
  List.replicate n (w, .send (fun _ => 1000) (fun _ => 1000))

theorem Astray.run (long : Long) (w : Surroundings) (n : ℕ) : ∀ h : Handler, Astray h →
    Astray (exec (stepIn long) h (roomyCalls w n)) := by
  induction n with
  | zero => exact fun h ha => ha
  | succ n ih => exact fun h ha => ih _ (astray_step long ha w _ _)

theorem Astray.not_listingEnds {h : Handler} (ha : Astray h) (long : Long) (w : Surroundings) :
    ¬ ListingEnds long h := by
  intro hends
  have hlist : ∀ n, ∀ e ∈ roomyCalls w n, e.2.isRequestList = false := by
    intro n e he
    rw [List.eq_of_mem_replicate he]
    rfl
  obtain ⟨n, _, _, _, hlisting⟩ := hends (roomyCalls w (max 1 h.logCount)) (hlist _)
  obtain ⟨hroom, hn⟩ := hlisting (Astray.run long w _ h ha).status
  rw [roomyCalls, List.countP_replicate] at hroom
  have hroomy : (Event.send (fun _ => 1000) (fun _ => 1000)).hasRoom = true := rfl
  rw [if_pos hroomy] at hroom
  omega

/-! ## The requests whose listings end -/

/-- A request for a list starts a listing that ends, exactly when its range is not reversed or
reaches the last log, which both ends are then clamped to. -/
theorem listing_ends_iff (long : Long) (es : List (Surroundings × Event)) (w : Surroundings)
    (start stop : UInt16) :
    ListingEnds long (requestList w.storage (exec (stepIn long) .initial es) w.list start stop).1 ↔
      start ≤ stop ∨
        countAfter w.storage (exec (stepIn long) .initial es) start stop ≤ stop.toNat + 1 := by
  have hnolog : NoLogs (exec (stepIn long) .initial es) :=
    invariant_exec (fun s e hs => noLogs_step long s e hs) (fun _ => ⟨rfl, rfl⟩) es
  generalize exec (stepIn long) .initial es = h at *
  obtain ⟨hstatus, hcounters⟩ := counters_requestList w.storage h w.list start stop
  have hnolog' : NoLogs (requestList w.storage h w.list start stop).1 :=
    noLogs_step long h (w, .requestList start stop) hnolog
  have hcount : (requestList w.storage h w.list start stop).1.logCount =
      countAfter w.storage h start stop := by
    have hthird := congrArg (fun c => c.2.2) hcounters
    refine hthird.trans ?_
    split
    · rfl
    · rename_i hzero
      simp only [ne_eq, not_not] at hzero
      rw [hzero]
      split
      · rfl
      · rename_i hkept
        rw [countAfter, if_neg hkept] at hzero
        exact hzero
  have hle : start ≤ stop ↔ start.toNat ≤ stop.toNat := UInt16.le_iff_toNat_le
  have hstop16 := stop.toNat_lt
  generalize (requestList w.storage h w.list start stop).1 = g at *
  generalize countAfter w.storage h start stop = count at *
  by_cases hzero : count = 0
  · -- without logs one entry is sent
    obtain ⟨hnext, hlast⟩ := hnolog' (hcount.trans hzero)
    refine iff_of_true ?_ (.inr (by omega))
    have hahead : Ahead 0 _ _ := ⟨hstatus, by omega, hlast, rfl⟩
    exact hahead.listingEnds (by omega) (by omega) long
  · rw [if_pos hzero] at hcounters
    simp only [Handler.counters, Prod.mk.injEq, clampEntry] at hcounters
    obtain ⟨hnext, hlast, _⟩ := hcounters
    by_cases hordered : start.toNat ≤ stop.toNat ∨ count ≤ stop.toNat + 1
    · refine iff_of_true ?_ (by rw [hle]; exact hordered)
      have hahead : Ahead g.lastEntry _ g := ⟨hstatus, by omega, rfl, rfl⟩
      exact hahead.listingEnds (by omega) (by omega) long
    · refine iff_of_false ?_ (by rw [hle]; exact hordered)
      exact Astray.not_listingEnds ⟨hstatus, by omega⟩ long w

/-- Two logs of three bytes. -/
def twoLogs : Storage where
  logRoot := "/log".toList
  entries := fun dir =>
    if dir = "/log".toList then some [("sess001".toList, .directory)]
    else if dir = "/log/sess001".toList then
      some [("log001.ulg".toList, .regularFile), ("log002.ulg".toList, .regularFile)]
    else none
  directoryTime := fun _ => none
  files := fun _ => some ⟨0, [1, 2, 3]⟩

theorem twoLogs_length : (logList twoLogs).length = 2 := by decide +kernel

/-- The logs 1 to 0 are asked for, and the listing goes on for as long as entries are sent. -/
theorem listing_reversed :
    ¬ (∀ (S : Storage) (start stop : UInt16),
        ListingEnds .bits32 (requestList S .initial none start stop).1) ∧
      ∀ n, (exec (stepIn .bits32) (requestList twoLogs .initial none 1 0).1
        (roomyCalls ⟨twoLogs, none⟩ n)).currentStatus = .listing := by
  have hastray : Astray (requestList twoLogs .initial none 1 0).1 := by
    obtain ⟨hstatus, hcounters⟩ := counters_requestList twoLogs .initial none 1 0
    have hcount : countAfter twoLogs .initial 1 0 = 2 := twoLogs_length
    rw [hcount] at hcounters
    simp only [Handler.counters, Prod.mk.injEq, ne_eq, OfNat.ofNat_ne_zero, not_false_eq_true,
      if_true] at hcounters
    refine ⟨hstatus, ?_⟩
    rw [hcounters.1, hcounters.2.1]
    decide
  refine ⟨fun hall => ?_, fun n => (Astray.run .bits32 _ n _ hastray).status⟩
  exact hastray.not_listingEnds .bits32 ⟨twoLogs, none⟩ (hall twoLogs 1 0)

end LogHandler
end Mavlink
end DtPhm
