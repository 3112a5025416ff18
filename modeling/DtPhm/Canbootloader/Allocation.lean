import Mathlib.Data.List.TakeWhile
import DtPhm.Canbootloader.Main
import DtPhm.Canbootloader.Transfers

/-!
# Allocation — the rules of the dynamic node ID

The comments of `get_dynamic_node_id` name the rules that it follows: a message of a server with a
part of the unique ID is answered by a request for the next part (rule D), and one with all of it
allocates the node ID (rule E).

* `AllocationRequest`, `Alloc.secondStage` — the requests that are sent;
* `Confirms`, `Received.Confirms` — the bytes of the unique ID that a message confirms;
* `ServerMessage`, `LastServerMessage` — the messages of servers, as they arrive;
* `allocation_follows_rules` — the rules are followed where no server allocates the node ID 0, and
  none sends a long message before the second request.
-/

namespace DtPhm
namespace Canbootloader

open Lib

/-! ## What the function sends and returns -/

/-- The arguments of `uavcan_tx_allocation_message`, less the unique ID and its length. -/
structure AllocationRequest where
  requestedNodeId : ℕ
  uniqueIdOffset : ℕ
  deriving DecidableEq, Repr

/-- `can_error_t`, as far as `get_dynamic_node_id` returns it. -/
inductive CanError
  | ok
  | bootTimeout
  deriving DecidableEq, Repr

namespace Alloc

variable (node : Node) (uniqueId : Mem) (a : Alloc) (r : AllocRound)

/-- The variables at the start, with no preferred node ID. -/
def init (protocol : Protocol) : Alloc where
  protocol := protocol
  serverNodeId := 0
  allocationMessage := fun _ => 0
  allocatedNodeId := 0
  restart := false

/-- What `get_dynamic_node_id` returns. -/
def result (allocatedNodeId : ℕ) : CanError := if allocatedNodeId = 0 then .bootTimeout else .ok

/-- The request of rule D. -/
def secondStage : List AllocationRequest :=
  match a.receive node r with
  | none => []
  | some received =>
      match rules uniqueId received with
      | .followup rxLen =>
          match receiveFollowup node r received rxLen with
          | none => []
          | some followup =>
              if followup.ok then []
              else
                [⟨a.allocatedNodeId,
                  matched uniqueId received.transfer (min uniqueIdSize rxLen)⟩]
      | _ => []

end Alloc

/-! ## Messages -/

/-- A message with `k` bytes of the unique ID, and no others: its first byte holds the node ID. -/
def Confirms (uniqueId : Mem) (payload : List UInt8) (k : ℕ) : Prop :=
  payload ≠ [] ∧ payload.tail = load uniqueId 0 k

theorem Confirms.length {uniqueId : Mem} {payload : List UInt8} {k : ℕ}
    (h : Confirms uniqueId payload k) : payload.length = k + 1 := by
  obtain ⟨b, bs, rfl⟩ := List.exists_cons_of_ne_nil h.1
  have htail : bs = load uniqueId 0 k := h.2
  rw [List.length_cons, htail, length_load]

namespace Received

/-- The bytes that were received. -/
def payload (m : Received) : List UInt8 := load m.transfer 0 m.length

/-- A message of a server was received that confirms `k` bytes. -/
structure Confirms (m : Received) (uniqueId : Mem) (k : ℕ) : Prop where
  ok : m.ok = true
  server : m.protocol.id.sourceNodeId ≠ 0
  payload : Canbootloader.Confirms uniqueId m.payload k

/-- A message of a server was received with the whole unique ID and this node ID. -/
structure Allocates (m : Received) (uniqueId : Mem) (nodeId : ℕ) : Prop where
  confirms : m.Confirms uniqueId uniqueIdSize
  nodeId : (m.transfer 0).toNat / 2 = nodeId

variable {m : Received} {uniqueId : Mem} {k : ℕ}

theorem payload_eq_cons (h : m.length = k + 1) :
    m.payload = m.transfer 0 :: load m.transfer 1 k := by
  rw [payload, h, Nat.add_comm, load_add]
  rfl

theorem confirms_payload_iff :
    Canbootloader.Confirms uniqueId m.payload k ↔
      m.length = k + 1 ∧ load m.transfer 1 k = load uniqueId 0 k := by
  constructor
  · intro h
    have hlength : m.length = k + 1 := by simpa [payload] using h.length
    refine ⟨hlength, ?_⟩
    have htail := h.2
    rwa [payload_eq_cons hlength] at htail
  · rintro ⟨hlength, hload⟩
    rw [payload_eq_cons hlength]
    exact ⟨List.cons_ne_nil _ _, hload⟩

end Received

/-! ## What is received -/

namespace Rx

variable {capacity : ℕ} {s : Rx} {f : Frame}

theorem copy_totalRx_le (h : s.totalRx ≤ capacity) : (s.copy capacity f).totalRx ≤ capacity := by
  rw [copy]
  split
  · assumption
  · exact h

theorem start_totalRx_le (h : s.totalRx ≤ capacity) : (s.start f).totalRx ≤ capacity := by
  rw [start]
  split
  · exact Nat.zero_le _
  · exact h

theorem rxFrame_totalRx_le (h : s.totalRx ≤ capacity) :
    (rxFrame capacity s f).1.totalRx ≤ capacity := by
  have hstart := start_totalRx_le (f := f) h
  rw [rxFrame]
  split
  · dsimp only
    split
    · exact copy_totalRx_le (s := (s.start f).restart) hstart
    · split
      · exact hstart
      · exact copy_totalRx_le hstart
  · exact h

theorem rxLoop_totalRx_le {ps : List Poll} (h : s.totalRx ≤ capacity) {s' : Rx}
    {last : Option Frame}
    (hloop : rxLoop capacity s ps = some (s', last)) : s'.totalRx ≤ capacity := by
  induction ps generalizing s with
  | nil => cases hloop
  | cons p ps ih =>
      rcases p with ⟨_ | f, expired⟩
      -- no frame: the timeout ends the loop, or the next poll
      · rw [rxLoop] at hloop
        dsimp only at hloop
        split at hloop
        · cases hloop
          exact h
        · exact ih h hloop
      · have hframe := rxFrame_totalRx_le (f := f) h
        rcases hstep : rxFrame capacity s f with ⟨t, _ | _⟩
        · rw [hstep] at hframe
          rw [rxLoop] at hloop
          simp only [hstep] at hloop
          split at hloop
          · cases hloop
            exact hframe
          · exact ih hframe hloop
        · rw [hstep] at hframe
          rw [rxLoop] at hloop
          simp only [hstep] at hloop
          cases hloop
          exact hframe

end Rx

theorem length_le_of_uavcanRxDsdl {node : Node} {d : Dsdl} {protocol : Protocol} {transfer : Mem}
    {capacity : ℕ} {ps : List Poll} {m : Received}
    (h : uavcanRxDsdl node d protocol transfer capacity ps = some m) : m.length ≤ capacity := by
  rw [uavcanRxDsdl] at h
  split at h
  · cases h
  rename_i s last hloop
  cases h
  cases last with
  | none => exact le_rfl
  | some f =>
      have hinit : (Rx.init node d protocol transfer).totalRx ≤ capacity := Nat.zero_le _
      exact Rx.rxLoop_totalRx_le hinit hloop

/-- A message of a server whose frames arrive from the start of a receive on. -/
def ServerMessage (ps : List Poll) (payload : List UInt8) : Prop :=
  ∃ (server : Node) (sent : Protocol), server.thisNodeId ≠ 0 ∧ payload ≠ [] ∧
    payload.length ≤ allocationSize ∧
    Arrives Dsdl.msgAllocation.entry.kind server.thisNodeId none
      (uavcanTxDsdl server .msgAllocation sent payload) ps

/-- A message of one frame is received without an error, with or without room for its data; and one
of several frames where there is room. -/
theorem ServerMessage.received {ps : List Poll} {payload : List UInt8}
    (h : ServerMessage ps payload)
    {capacity : ℕ} (hcapacity : capacity < 2 ^ 32)
    (hfits : payload.length ≤ max maxUserPayloadLength capacity) (node : Node) (protocol : Protocol)
    (transfer : Mem) :
    ∃ m, uavcanRxDsdl node .msgAllocation protocol transfer capacity ps = some m ∧ m.ok = true := by
  obtain ⟨server, sent, -, hne, -, harrives⟩ := h
  by_cases hroom : payload.length ≤ capacity
  · have hsource : Dsdl.msgAllocation.entry.kind.isService →
        protocol.id.sourceNodeId = 0 ∨ protocol.id.sourceNodeId = server.thisNodeId :=
      fun h => absurd h (by decide)
    have hdest : Dsdl.msgAllocation.entry.kind.withDest sent.id.sourceNodeId =
        Dsdl.msgAllocation.entry.kind.withDest node.thisNodeId := rfl
    obtain ⟨m, hm, hok, -, -⟩ :=
      received_of_arrives rfl hdest hsource hne hroom hcapacity harrives transfer
    exact ⟨m, hm, hok⟩
  -- its only frame starts and ends the transfer: it is dropped, but not taken for an error
  · have hshort : payload.length ≤ maxUserPayloadLength := by omega
    have hlong : ¬maxUserPayloadLength < payload.length := Nat.not_lt_of_le hshort
    have hwaits : (Rx.init node .msgAllocation protocol transfer).Waits
        Dsdl.msgAllocation.entry.kind server.thisNodeId :=
      waits_init rfl (fun h => absurd h (by decide)) transfer
    rw [uavcanTxDsdl, if_neg hlong, txLoop_eq _ _ (by decide) hne, List.length_nil, Nat.sub_zero,
      List.take_of_length_le hshort, List.drop_of_length_le hshort, List.nil_append] at harrives
    obtain ⟨f, ps', hf, -, hloop⟩ := hwaits.arrives harrives
    have hsot : f.tail.sot = true := by rw [hf.tail_eq]; rfl
    obtain ⟨s', hstep, -⟩ := hwaits.dropped (f := f) (by rw [hf.id]; rfl) (by rw [hf.id]; rfl) hsot
      (by rw [hf.tail_eq]; rfl) (by rw [hf.tail_eq]; rfl)
      (by rw [hf.rxLength_eq]; exact Nat.lt_of_not_le hroom)
    refine ⟨s'.finish .msgAllocation capacity (some f), ?_, ?_⟩
    · rw [uavcanRxDsdl, hloop, Rx.rxLoop_ends hstep]
    · simp [Rx.finish, hsot]

/-! ## The rules C to E -/

namespace Alloc

variable {node : Node} {uniqueId : Mem} {a : Alloc} {r : AllocRound} {m : Received} {k : ℕ}

theorem matched_eq_iff (message : Mem) (n : ℕ) :
    matched uniqueId message n = n ↔ load message 1 n = load uniqueId 0 n := by
  have hall : matched uniqueId message n = n ↔
      ∀ i ∈ List.range n, (uniqueId i == message (1 + i)) = true := by
    rw [← List.takeWhile_eq_self_iff]
    constructor
    · intro h
      apply (List.takeWhile_prefix _).eq_of_length
      rwa [List.length_range]
    · intro h
      rw [matched, h, List.length_range]
  rw [hall, load, load, List.map_inj_left]
  apply forall₂_congr
  intro i _
  rw [beq_iff_eq, Nat.zero_add]
  exact eq_comm

/-- What a message is taken for: rule E needs the whole unique ID, rule D a part of it. -/
theorem rules_cases (uniqueId : Mem) (hlength : m.length ≤ allocationSize) :
    rules uniqueId m = .skip ∨ rules uniqueId m = .restart ∨
      (rules uniqueId m = .allocated ((m.transfer 0).toNat / 2) ∧
        m.Confirms uniqueId uniqueIdSize) ∨
      ∃ k < uniqueIdSize, rules uniqueId m = .followup k ∧ m.Confirms uniqueId k ∧
        matched uniqueId m.transfer (min uniqueIdSize k) = k := by
  have hsize : allocationSize = 17 := rfl
  have huid : uniqueIdSize = 16 := rfl
  by_cases hok : m.ok = true
  · by_cases hserver : m.protocol.id.sourceNodeId = 0
    · exact Or.inl (by rw [rules, if_neg (not_not.2 hok), if_pos hserver])
    · generalize hn : (m.length + (2 ^ 32 - 1)) % 2 ^ 32 = n
      have hle := matched_le uniqueId m.transfer (min uniqueIdSize n)
      have hrules : rules uniqueId m =
          if matched uniqueId m.transfer (min uniqueIdSize n) < n then .restart
          else if matched uniqueId m.transfer (min uniqueIdSize n) = uniqueIdSize then
            .allocated ((m.transfer 0).toNat / 2)
          else .followup n := by
        rw [rules, if_neg (not_not.2 hok), if_neg hserver, hn]
      by_cases hlt : matched uniqueId m.transfer (min uniqueIdSize n) < n
      · exact Or.inr (Or.inl (by rw [hrules, if_pos hlt]))
      · -- an empty message is taken to be very long, so all of its bytes cannot have matched
        have hnle : n ≤ uniqueIdSize := by omega
        have hmin : min uniqueIdSize n = n := Nat.min_eq_right hnle
        rw [hmin] at hle hlt hrules
        have hmatched : matched uniqueId m.transfer n = n := by omega
        have hconfirms : m.Confirms uniqueId n := by
          refine ⟨hok, hserver, Received.confirms_payload_iff.2 ⟨by omega, ?_⟩⟩
          exact (matched_eq_iff m.transfer n).1 hmatched
        rw [if_neg hlt, hmatched] at hrules
        by_cases hall : n = uniqueIdSize
        · rw [if_pos hall] at hrules
          exact Or.inr (Or.inr (Or.inl ⟨hrules, hall ▸ hconfirms⟩))
        · rw [if_neg hall] at hrules
          refine Or.inr (Or.inr (Or.inr ⟨n, by omega, hrules, hconfirms, ?_⟩))
          rw [hmin, hmatched]
  · exact Or.inl (by rw [rules, if_pos hok])

theorem confirms_of_followup (hlength : m.length ≤ allocationSize)
    (h : rules uniqueId m = .followup k) : m.Confirms uniqueId k := by
  rcases rules_cases uniqueId hlength with
    hrules | hrules | ⟨hrules, -⟩ | ⟨k', -, hrules, hconfirms, -⟩
  · cases hrules.symm.trans h
  · cases hrules.symm.trans h
  · cases hrules.symm.trans h
  · cases hrules.symm.trans h
    exact hconfirms

theorem length_le_of_receive (h : a.receive node r = some m) : m.length ≤ allocationSize :=
  length_le_of_uavcanRxDsdl h

/-- The second request starts behind the bytes that the first message has confirmed, and no message
was received since. -/
theorem secondStage_spec {q : AllocationRequest} (hq : q ∈ a.secondStage node uniqueId r) :
    ∃ received followup, a.receive node r = some received ∧
      received.Confirms uniqueId q.uniqueIdOffset ∧ q.uniqueIdOffset < uniqueIdSize ∧
      receiveFollowup node r received q.uniqueIdOffset = some followup ∧ followup.ok = false := by
  rw [secondStage] at hq
  split at hq
  · cases hq
  rename_i received hreceive
  rcases rules_cases uniqueId (length_le_of_receive hreceive) with
    hrules | hrules | ⟨hrules, -⟩ | ⟨k, hk, hrules, hconfirms, hmatched⟩
  · rw [hrules] at hq
    cases hq
  · rw [hrules] at hq
    cases hq
  · rw [hrules] at hq
    cases hq
  · rw [hrules] at hq
    dsimp only at hq
    split at hq
    · cases hq
    rename_i followup hfollowup
    split at hq
    · cases hq
    · rename_i hok
      obtain rfl := List.mem_singleton.1 hq
      simp only [hmatched]
      exact ⟨received, followup, hreceive, hconfirms, hk, hfollowup, Bool.eq_false_iff.2 hok⟩

@[simp] theorem store_allocatedNodeId : (a.store r m).allocatedNodeId = a.allocatedNodeId := by
  rw [store, start]
  split <;> rfl

theorem round_goesOn {a' : Alloc} (h : a.round node uniqueId r = .goesOn a') :
    a'.allocatedNodeId = a.allocatedNodeId := by
  have hnext : ∀ b : Alloc, b.next r = .goesOn a' → a' = b := by
    intro b hb
    rw [next] at hb
    split at hb
    · cases hb
    · cases hb
      rfl
  rw [round] at h
  split at h
  · cases h
  rename_i received hreceive
  cases hrules : rules uniqueId received with
  | skip =>
      rw [hrules] at h
      rw [hnext _ h, store_allocatedNodeId]
  | restart =>
      rw [hrules] at h
      cases h
      exact store_allocatedNodeId (m := received)
  | allocated nodeId =>
      rw [hrules] at h
      cases h
  | followup rxLen =>
      rw [hrules] at h
      dsimp only at h
      split at h
      · cases h
      · split at h
        · cases h
          exact store_allocatedNodeId (m := received)
        · rw [hnext _ h]
          exact store_allocatedNodeId (m := received)

/-- A round returns the node ID of the message that was received, or at the end of `tboot`. -/
theorem round_returns {nodeId : ℕ} (h : a.round node uniqueId r = .returns nodeId) :
    (∃ received, a.receive node r = some received ∧ received.Allocates uniqueId nodeId) ∨
      (r.tbootExpired = true ∧ nodeId = a.allocatedNodeId) := by
  have hnext : ∀ b : Alloc, b.next r = .returns nodeId →
      r.tbootExpired = true ∧ nodeId = b.allocatedNodeId := by
    intro b hb
    rw [next] at hb
    split at hb
    · cases hb
      exact ⟨‹_›, rfl⟩
    · cases hb
  rw [round] at h
  split at h
  · cases h
  rename_i received hreceive
  rcases rules_cases uniqueId (length_le_of_receive hreceive) with
    hrules | hrules | ⟨hrules, hconfirms⟩ | ⟨k, -, hrules, -, -⟩
  -- at the end of the loop, no round before has stored a node ID
  · rw [hrules] at h
    have hend := hnext _ h
    rw [store_allocatedNodeId] at hend
    exact Or.inr hend
  · rw [hrules] at h
    cases h
  · rw [hrules] at h
    cases h
    exact Or.inl ⟨received, hreceive, hconfirms, rfl⟩
  · rw [hrules] at h
    dsimp only at h
    split at h
    · cases h
    · split at h
      · cases h
      · have hend := hnext _ h
        dsimp only at hend
        rw [store_allocatedNodeId] at hend
        exact Or.inr hend

/-! ## Runs -/

/-- The last message of a server before the second request is one that arrives while the function
waits before it; or there is none, and it is the one that is answered. -/
inductive LastServerMessage (node : Node) (a : Alloc) (r : AllocRound) : List UInt8 → Prop
  | followup {payload : List UInt8} (h : ServerMessage r.followup payload) :
      LastServerMessage node a r payload
  | first {received : Received} (hnone : ∀ payload, ¬ServerMessage r.followup payload)
      (h : a.receive node r = some received) (hok : received.ok = true)
      (hserver : received.protocol.id.sourceNodeId ≠ 0) :
      LastServerMessage node a r received.payload

/-- The ends of the function: a message has allocated the node ID, and it is not 0; or `tboot` has
expired. -/
inductive EndsWith (node : Node) (uniqueId : Mem) (a : Alloc) (r : AllocRound) : ℕ → Prop
  | allocated {nodeId : ℕ} {received : Received} (h : a.receive node r = some received)
      (hwhole : received.Whole node .msgAllocation r.polls)
      (hallocates : received.Allocates uniqueId nodeId) (hnodeId : nodeId ≠ 0)
      (hresult : result nodeId = .ok) : EndsWith node uniqueId a r nodeId
  | timeout (h : r.tbootExpired = true) (hresult : result 0 = .bootTimeout) :
      EndsWith node uniqueId a r 0

/-- The rules are followed in a run. -/
structure FollowsRules (node : Node) (uniqueId : Mem) (protocol : Protocol) (rs : List AllocRound) :
    Prop where
  ends : ∀ nodeId,
    exec (Progress.step (round node uniqueId)) (.goesOn (init protocol)) rs = .returns nodeId →
    ∃ a r, Progress.ReturnsAt (round node uniqueId) (init protocol) rs a r nodeId ∧
      EndsWith node uniqueId a r nodeId
  offset : AllSteps (Progress.step (round node uniqueId))
    (Progress.Meets fun a r => ∀ q ∈ a.secondStage node uniqueId r,
      (∃ payload, LastServerMessage node a r payload) ∧
        ∀ payload, LastServerMessage node a r payload → Confirms uniqueId payload q.uniqueIdOffset)
    (.goesOn (init protocol)) rs

/-- No message allocates the node ID 0.  A message that arrives while the function waits before its
second request has one frame, or there is room for it; or it confirms the same bytes. -/
structure Regular (node : Node) (uniqueId : Mem) (a : Alloc) (r : AllocRound) : Prop where
  nodeId : ∀ received, a.receive node r = some received → ¬received.Allocates uniqueId 0
  followup : ∀ received k, a.receive node r = some received → received.Confirms uniqueId k →
    k < uniqueIdSize → ∀ payload, ServerMessage r.followup payload →
    payload.length ≤ max maxUserPayloadLength k ∨ Canbootloader.Confirms uniqueId payload k

theorem exists_lastServerMessage {q : AllocationRequest}
    (hq : q ∈ a.secondStage node uniqueId r) : ∃ payload, LastServerMessage node a r payload := by
  by_cases h : ∃ payload, ServerMessage r.followup payload
  · obtain ⟨payload, hmessage⟩ := h
    exact ⟨payload, .followup hmessage⟩
  · obtain ⟨received, -, hreceive, hconfirms, -⟩ := secondStage_spec hq
    exact ⟨received.payload, .first (not_exists.1 h) hreceive hconfirms.ok hconfirms.server⟩

theorem Regular.offset (h : Regular node uniqueId a r) {q : AllocationRequest}
    (hq : q ∈ a.secondStage node uniqueId r) {payload : List UInt8}
    (hlast : LastServerMessage node a r payload) :
    Canbootloader.Confirms uniqueId payload q.uniqueIdOffset := by
  obtain ⟨received, followup, hreceive, hconfirms, hk, hfollowup, hok⟩ := secondStage_spec hq
  cases hlast with
  | followup hmessage =>
      rcases h.followup received _ hreceive hconfirms hk payload hmessage with hfits | hsame
      -- it would have been received
      · have huid : uniqueIdSize = 16 := rfl
        obtain ⟨m, hm, hmok⟩ := hmessage.received (by omega) hfits node
          { received.protocol with id := CanId.zero } r.rxPayload
        rw [receiveFollowup, hm] at hfollowup
        cases hfollowup
        exact absurd (hmok.symm.trans hok) (by decide)
      · exact hsame
  | first _ h _ _ =>
      rw [hreceive] at h
      cases h
      exact hconfirms.payload

end Alloc

/-- The rules are followed in every run whose rounds are regular. -/
theorem allocation_follows_rules (node : Node) (uniqueId : Mem) (protocol : Protocol)
    (rs : List AllocRound)
    (h : AllSteps (Progress.step (Alloc.round node uniqueId))
      (Progress.Meets (Alloc.Regular node uniqueId)) (.goesOn (Alloc.init protocol)) rs) :
    Alloc.FollowsRules node uniqueId protocol rs where
  ends := by
    intro nodeId hexec
    have hgo : ∀ a r a', a.allocatedNodeId = 0 → Alloc.Regular node uniqueId a r →
        Alloc.round node uniqueId a r = .goesOn a' → a'.allocatedNodeId = 0 :=
      fun a r a' ha _ hround => (Alloc.round_goesOn hround).trans ha
    obtain ⟨a, r, hreturns, ha, hr⟩ := Progress.exists_returnsAt hgo rfl h hexec
    refine ⟨a, r, hreturns, ?_⟩
    obtain ⟨-, -, -, -, hround⟩ := hreturns
    rcases Alloc.round_returns hround with ⟨received, hreceive, hallocates⟩ | ⟨htboot, rfl⟩
    · have hnodeId : nodeId ≠ 0 := by
        rintro rfl
        exact hr.nodeId received hreceive hallocates
      have hwhole : received.Whole node .msgAllocation r.polls :=
        whole_of_ok rfl (by decide) (by decide) hreceive hallocates.confirms.ok
      exact .allocated hreceive hwhole hallocates hnodeId (if_neg hnodeId)
    · rw [ha]
      exact .timeout htboot rfl
  offset := by
    refine Progress.allSteps_meets ?_ h
    intro a r hr q hq
    exact ⟨Alloc.exists_lastServerMessage hq, fun payload hlast => hr.offset hq hlast⟩

/-- A server with the node ID 1. -/
def allocator : Node := ⟨1, 0⟩

/-- What the variables hold before a message has come. -/
def noProtocol : Protocol := ⟨CanId.zero, ⟨0, false, false, false⟩⟩

/-- A unique ID. -/
def exampleId : Mem := fun i => UInt8.ofNat (i + 1)

/-- The frames of a message of the server with `k` bytes of the unique ID. -/
def allocatorSends (nodeId : UInt8) (k : ℕ) : List Poll :=
  arriving (uavcanTxDsdl allocator .msgAllocation noProtocol (2 * nodeId :: load exampleId 0 k))

/-- The server has six bytes of the unique ID, and nothing comes before the second request. -/
def sixBytes : AllocRound where
  trequestExpired := false
  polls := allocatorSends 0 6
  rxPayload _ := 0
  followup := [⟨none, true⟩]
  tbootExpired := true

theorem sixBytes_follows_rules :
    Alloc.FollowsRules ⟨0, 0⟩ exampleId noProtocol [sixBytes] ∧
      (Alloc.init noProtocol).secondStage ⟨0, 0⟩ exampleId sixBytes = [⟨0, 6⟩] := by
  have hrules : ((Alloc.init noProtocol).receive ⟨0, 0⟩ sixBytes).map (Alloc.rules exampleId) =
      some (.followup 6) := by decide +kernel
  refine ⟨allocation_follows_rules ⟨0, 0⟩ exampleId noProtocol [sixBytes] ⟨⟨?_, ?_⟩, trivial⟩,
    by decide +kernel⟩
  · intro received hreceive hallocates
    rw [hreceive, Option.map_some, Option.some_inj] at hrules
    have hsix := Alloc.confirms_of_followup (Alloc.length_le_of_receive hreceive) hrules
    have hall := hallocates.confirms.payload.length
    rw [hsix.payload.length] at hall
    exact absurd hall (by decide)
  · intro received k _ _ _ payload hmessage
    have hle : payload.length ≤ allocationSize := by
      obtain ⟨-, -, -, -, hle, -⟩ := hmessage
      exact hle
    have hm : ∃ m, uavcanRxDsdl ⟨0, 0⟩ .msgAllocation noProtocol (fun _ => 0) allocationSize
        [⟨none, true⟩] = some m ∧ m.ok = true :=
      hmessage.received (by decide) (le_max_of_le_right hle) _ _ _
    obtain ⟨m, hm, hok⟩ := hm
    cases hm
    cases hok

/-- The server has the whole unique ID, and no node ID for it. -/
def noNodeId : AllocRound := { sixBytes with polls := allocatorSends 0 16, tbootExpired := false }

/-- The server has six bytes of the unique ID; and before the second request, it has twelve. -/
def twelveBytes : AllocRound := { sixBytes with followup := allocatorSends 0 12 }

/-- In general they are not: without a node ID, the function ends before `tboot`, and a message that
does not fit into the bytes that the first one had is not taken for one. -/
theorem rules_not_followed :
    ¬Alloc.FollowsRules ⟨0, 0⟩ exampleId noProtocol [noNodeId] ∧
      ¬Alloc.FollowsRules ⟨0, 0⟩ exampleId noProtocol [twelveBytes] := by
  constructor
  · intro h
    have hrules : ((Alloc.init noProtocol).receive ⟨0, 0⟩ noNodeId).map (Alloc.rules exampleId) =
        some (.allocated 0) := by decide +kernel
    have hround : Alloc.round ⟨0, 0⟩ exampleId (Alloc.init noProtocol) noNodeId = .returns 0 := by
      obtain ⟨received, hreceive, hcase⟩ := Option.map_eq_some_iff.1 hrules
      rw [Alloc.round, hreceive]
      dsimp only
      rw [hcase]
    have hexec : exec (Progress.step (Alloc.round ⟨0, 0⟩ exampleId))
        (.goesOn (Alloc.init noProtocol)) [noNodeId] = .returns 0 := by
      rw [exec_cons, exec_nil, Progress.step_goesOn, hround]
    obtain ⟨a, r, hreturns, hends⟩ := h.ends 0 hexec
    obtain rfl := List.mem_singleton.1 hreturns.mem
    cases hends with
    | allocated _ _ _ hnodeId _ => exact hnodeId rfl
    | timeout htboot _ => cases htboot
  · intro h
    have hsecond : (Alloc.init noProtocol).secondStage ⟨0, 0⟩ exampleId twelveBytes = [⟨0, 6⟩] := by
      decide +kernel
    have hmessage : ServerMessage twelveBytes.followup (0 :: load exampleId 0 12) :=
      ⟨allocator, noProtocol, by decide, List.cons_ne_nil _ _, by decide,
        arrives_arriving length_le_of_mem_uavcanTxDsdl none⟩
    have hq : (⟨0, 6⟩ : AllocationRequest) ∈
        (Alloc.init noProtocol).secondStage ⟨0, 0⟩ exampleId twelveBytes := by
      rw [hsecond]
      exact List.mem_singleton_self _
    have hlength := ((h.offset.1 _ hq).2 _ (.followup hmessage)).length
    exact absurd hlength (by decide)

end Canbootloader
end DtPhm
