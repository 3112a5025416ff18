import DtPhm.Lib.Run
import Mathlib.Data.List.Chain
import Mathlib.Tactic.Ring

/-!
# ArmAuthorization — who may arm, and for how long

Before it arms, the vehicle may ask a remote authorizer.  `arm_auth_check` asks and answers,
`arm_auth_update` takes in what the authorizer says.  One method waits for the answer in the check,
the other wants two checks.

* `ArmAuth`, `armAuthUpdate`, `armAuthCheck` — the state and the two calls;
* `deadline` — how long an authorization lasts;
* `Chronological`, `Timely` — calls in the order of their times, and the condition of the results;
* `Tracks`, `tracks_step` — the state in terms of the last decision;
* `arm_auth_check_iff` — what the checks answer in a run.

Times are in microseconds.  A blocking check is given what it reads in each turn of its loop, up to
the turn in which the loop ends.
-/

namespace DtPhm
namespace Commander
namespace ArmAuthorization

open Lib

/-! ## Messages -/

/-- `VEHICLE_CMD_ARM_AUTHORIZATION_REQUEST`. -/
def cmdArmAuthorizationRequest : UInt32 := 3001

/-- `VEHICLE_RESULT_ACCEPTED` and the other results that are told apart. -/
def resultAccepted : UInt8 := 0

def resultTemporarilyRejected : UInt8 := 1

def resultDenied : UInt8 := 2

def resultInProgress : UInt8 := 5

/-- `vehicle_command_ack_s`. -/
structure CommandAck where
  timestamp : UInt64
  command : UInt32
  result : UInt8
  resultParam1 : UInt8
  resultParam2 : Int32
  targetSystem : UInt8
  deriving DecidableEq

/-- `vehicle_command_s`, as it is sent. -/
structure CommandRequest where
  timestamp : UInt64
  targetSystem : UInt8

/-- The message for `ARM_AUTH_DENIED_REASON`. -/
def deniedMessage (a : CommandAck) : List String :=
  if a.resultParam1 = 1 then []
  else if a.resultParam1 = 2 then
    ["Arm auth: Denied, waypoint " ++ toString a.resultParam2.toInt ++ " have a invalid value"]
  else if a.resultParam1 = 3 then ["Arm auth: Denied by timeout in authorizer"]
  else if a.resultParam1 = 4 then ["Arm auth: Denied because airspace is in use"]
  else if a.resultParam1 = 5 then ["Arm auth: Denied because of bad weather"]
  else ["Arm auth: Denied"]

/-! ## State -/

/-- `arm_auth_methods`. -/
inductive AuthMethod
  | armReq
  | twoArmReq
  deriving DecidableEq, Repr

/-- The parameters as they are read; the timeout is converted to microseconds. -/
structure Params where
  timeout : UInt64
  method : ℤ
  id : Int32

def Params.authMethod (p : Params) : AuthMethod := if p.method = 1 then .twoArmReq else .armReq

/-- The states. -/
inductive AuthState
  | idle
  | waitingAuth
  | waitingAuthWithAck
  | missionApproved
  deriving DecidableEq, Repr

/-- The static variables, with what was sent and logged. -/
structure ArmAuth where
  state : AuthState
  authTimeout : UInt64
  authReqTime : UInt64
  paramTimeout : UInt64
  paramMethod : AuthMethod
  paramId : Int32
  requests : List CommandRequest
  log : List String

/-- `arm_auth_param_update`. -/
def ArmAuth.paramUpdate (s : ArmAuth) (p : Params) : ArmAuth :=
  { s with paramTimeout := p.timeout, paramMethod := p.authMethod, paramId := p.id }

/-- `arm_auth_init`. -/
def ArmAuth.init (p : Params) : ArmAuth :=
  ArmAuth.paramUpdate ⟨.idle, 0, 0, 0, .armReq, 0, [], []⟩ p

def ArmAuth.say (s : ArmAuth) (text : String) : ArmAuth := { s with log := s.log ++ [text] }

def ArmAuth.Waiting (s : ArmAuth) : Prop :=
  s.state = .waitingAuth ∨ s.state = .waitingAuthWithAck

instance (s : ArmAuth) : Decidable s.Waiting := inferInstanceAs (Decidable (_ ∨ _))

/-! ## Updates -/

/-- What an update reads: parameters if it is told to, the id of the system, and a message if there
is one. -/
structure Reading where
  params : Option Params
  systemId : UInt8
  ack : Option CommandAck

/-- How a request is decided. -/
inductive Decision
  | authorized (a : CommandAck)
  | refused
  | noResponse
  deriving DecidableEq

/-- The message answers the request. -/
def ArmAuth.Answers (s : ArmAuth) (systemId : UInt8) (a : CommandAck) : Prop :=
  a.command = cmdArmAuthorizationRequest ∧ a.targetSystem = systemId ∧ s.authReqTime < a.timestamp

instance (s : ArmAuth) (systemId : UInt8) (a : CommandAck) : Decidable (s.Answers systemId a) :=
  inferInstanceAs (Decidable (_ ∧ _))

/-- The seconds of an authorization in microseconds, computed in 32 bits and added to 64. -/
def durationOf (a : CommandAck) : UInt64 :=
  UInt64.ofInt ((a.resultParam2.toInt * 1000000).bmod (2 ^ 32))

/-- No response came in time. -/
def giveUp (s : ArmAuth) (now : UInt64) : ArmAuth × Option Decision :=
  if s.authTimeout < now then
    ({ s.say "Arm auth: No response" with state := .idle }, some .noResponse)
  else (s, none)

/-- `arm_auth_update` while it waits. -/
def waitingUpdate (s : ArmAuth) (now : UInt64) (systemId : UInt8) (ack : Option CommandAck) :
    ArmAuth × Option Decision :=
  match ack with
  | none => giveUp s now
  | some a =>
      if s.Answers systemId a then
        if a.result = resultInProgress then giveUp { s with state := .waitingAuthWithAck } now
        else if a.result = resultAccepted then
          ({ s.say ("Arm auth: Authorized for the next " ++ toString a.resultParam2.toInt ++
            " seconds") with
              state := .missionApproved
              authTimeout := a.timestamp + durationOf a },
            some (.authorized a))
        else if a.result = resultTemporarilyRejected then
          ({ s.say "Arm auth: Temporarily rejected" with state := .idle }, some .refused)
        else ({ s with state := .idle, log := s.log ++ deniedMessage a }, some .refused)
      else giveUp s now

/-- `arm_auth_update`, with the decision that is made. -/
def armAuthUpdate (s : ArmAuth) (now : UInt64) (r : Reading) : ArmAuth × Option Decision :=
  let s := (r.params.map s.paramUpdate).getD s
  match s.state with
  | .waitingAuth | .waitingAuthWithAck => waitingUpdate s now r.systemId r.ack
  | .missionApproved =>
      if s.authTimeout < now then ({ s with state := .idle }, none) else (s, none)
  | .idle => (s, none)

/-! ## Checks -/

/-- A request is sent, and its answer waited for. -/
def sendRequest (s : ArmAuth) (now : UInt64) : ArmAuth :=
  { s with
    requests := s.requests ++ [⟨now, s.paramId.toInt8.toUInt8⟩]
    authReqTime := now
    authTimeout := now + s.paramTimeout
    state := .waitingAuth }

/-- A turn of the loop: what the update reads, and the time after the pause. -/
structure Poll where
  params : Params
  systemId : UInt8
  ack : Option CommandAck
  next : UInt64

def Poll.reading (p : Poll) : Reading := ⟨some p.params, p.systemId, p.ack⟩

/-- The result of a check, the time of its last look at the clock, and the decision that is
made in it. -/
structure Checked where
  auth : ArmAuth
  result : UInt8
  time : UInt64
  decision : Option Decision

/-- The loop that waits for the answer. -/
def pollLoop : List Poll → UInt64 → ArmAuth → ArmAuth × UInt64 × Option Decision
  | [], now, s => (s, now, none)
  | p :: ps, now, s =>
      if now < s.authTimeout then
        let u := armAuthUpdate s now p.reading
        if u.1.Waiting then
          let (s, now, decision) := pollLoop ps p.next u.1
          (s, now, decision.or u.2)
        else (u.1, now, u.2)
      else (s, now, none)

/-- `_auth_method_arm_req_check`. -/
def armReqCheck (s : ArmAuth) (now : UInt64) (polls : List Poll) : Checked :=
  match s.state with
  | .missionApproved => ⟨s, resultAccepted, now, none⟩
  | .waitingAuth | .waitingAuthWithAck => ⟨s, resultDenied, now, none⟩
  | .idle =>
      let (s, now, decision) := pollLoop polls now (sendRequest s now)
      if s.Waiting then
        ⟨{ s.say "Arm auth: No response" with state := .idle }, resultDenied, now, some .noResponse⟩
      else
        ⟨s, if s.state = .missionApproved then resultAccepted else resultDenied, now, decision⟩

/-- `_auth_method_two_arm_check`. -/
def twoArmCheck (s : ArmAuth) (now : UInt64) : Checked :=
  match s.state with
  | .missionApproved => ⟨s, resultAccepted, now, none⟩
  | .waitingAuth | .waitingAuthWithAck => ⟨s, resultTemporarilyRejected, now, none⟩
  | .idle =>
      ⟨(sendRequest s now).say "Arm auth: Requesting authorization...", resultTemporarilyRejected,
        now,
        none⟩

/-- `arm_auth_check`. -/
def armAuthCheck (s : ArmAuth) (now : UInt64) (polls : List Poll) : Checked :=
  match s.paramMethod with
  | .armReq => armReqCheck s now polls
  | .twoArmReq => twoArmCheck s now

/-! ## Runs -/

/-- A call. -/
inductive Event
  | check (now : UInt64) (polls : List Poll)
  | update (now : UInt64) (r : Reading)

def step (s : ArmAuth) : Event → ArmAuth
  | .check now polls => (armAuthCheck s now polls).auth
  | .update now r => (armAuthUpdate s now r).1

/-- What is known of a run: the last time, and the last decision. -/
structure History where
  clock : UInt64
  decision : Option Decision

/-- A decision takes the place of the one before. -/
def record (s : ArmAuth) (e : Event) (h : History) : History :=
  match e with
  | .check now polls =>
      let r := armAuthCheck s now polls
      ⟨r.time, r.decision.or h.decision⟩
  | .update now r => ⟨now, (armAuthUpdate s now r).2.or h.decision⟩

/-- The times do not decrease. -/
def Chronological (h : History) : Event → Prop
  | .check now polls => (h.clock :: now :: polls.map Poll.next).IsChain (· ≤ ·)
  | .update now _ => h.clock ≤ now

instance (h : History) (e : Event) : Decidable (Chronological h e) := by
  cases e with
  | check now polls => exact inferInstanceAs (Decidable (List.IsChain _ _))
  | update now r => exact inferInstanceAs (Decidable (_ ≤ _))

/-- How long an authorization lasts. -/
def deadline (a : CommandAck) : ℤ := a.timestamp.toNat + a.resultParam2.toInt * 1000000

/-- The last decision is an authorization that still lasts. -/
def Authorized (decision : Option Decision) (time : UInt64) : Prop :=
  ∃ a, decision = some (.authorized a) ∧ (time.toNat : ℤ) ≤ deadline a

/-- A check accepts exactly when there is an authorization that lasts. -/
def ChecksRight (s : ArmAuth) (h : History) : Event → Prop
  | .check now polls =>
      (armAuthCheck s now polls).result = resultAccepted ↔
        Authorized (record s (.check now polls) h).decision (armAuthCheck s now polls).time
  | .update _ _ => True

/-! ## The condition -/

/-- The message is taken in as an authorization. -/
def Accepts (s : ArmAuth) (systemId : UInt8) (ack : Option CommandAck) (a : CommandAck) : Prop :=
  s.Waiting ∧ ack = some a ∧ s.Answers systemId a ∧ a.result = resultAccepted

/-- The duration fits 32 bits in microseconds, and the end of it 64. -/
structure Lasts (a : CommandAck) : Prop where
  nonneg : 0 ≤ a.resultParam2.toInt
  most : a.resultParam2.toInt ≤ 2147
  fits : deadline a < 2 ^ 64

/-- What a blocking check takes in lasts, and has not ended already. -/
def PollsTimely : List Poll → UInt64 → ArmAuth → Prop
  | [], _, _ => True
  | p :: ps, now, s =>
      now < s.authTimeout →
        (∀ a, Accepts s p.systemId p.ack a → Lasts a ∧ (now.toNat : ℤ) ≤ deadline a) ∧
          PollsTimely ps p.next (armAuthUpdate s now p.reading).1

/-- What is taken in lasts, and no check comes behind the end of an authorization and before an
update. -/
def Timely (s : ArmAuth) : Event → Prop
  | .check now polls =>
      (s.state = .missionApproved → now ≤ s.authTimeout) ∧
        (s.state = .idle → s.paramMethod = .armReq → PollsTimely polls now (sendRequest s now))
  | .update _ r => ∀ a, Accepts s r.systemId r.ack a → Lasts a

/-! ## What a call does -/

theorem ArmAuth.Waiting.ne_approved {s : ArmAuth} (h : s.Waiting) : s.state ≠ .missionApproved := by
  rcases h with h | h
  · rw [h]
    decide
  · rw [h]
    decide

/-- The state in terms of the last decision. -/
structure Tracks (s : ArmAuth) (h : History) : Prop where
  approved : s.state = .missionApproved →
    ∃ a, h.decision = some (.authorized a) ∧ (s.authTimeout.toNat : ℤ) = deadline a
  ended : s.state ≠ .missionApproved → ∀ a, h.decision = some (.authorized a) →
    deadline a < h.clock.toNat

theorem Tracks.later {s : ArmAuth} {h : History} (ht : Tracks s h) {now : UInt64}
    (hclock : h.clock ≤ now) : Tracks s ⟨now, h.decision⟩ := by
  refine ⟨ht.approved, fun hstate a ha => ?_⟩
  have hended := ht.ended hstate a ha
  have hle := UInt64.le_iff_toNat_le.1 hclock
  dsimp only
  omega

theorem tracks_of_unauthorized {s : ArmAuth} {h : History} (hstate : s.state = .idle)
    (hdecision : ∀ a, h.decision ≠ some (.authorized a)) : Tracks s h := by
  refine ⟨fun happroved => ?_, fun _ a ha => absurd ha (hdecision a)⟩
  rw [hstate] at happroved
  cases happroved

theorem toNat_ofInt {x : ℤ} (h0 : 0 ≤ x) (h : x < 2 ^ 64) : ((UInt64.ofInt x).toNat : ℤ) = x := by
  have hnat : x.toNat < 2 ^ 64 := by omega
  rw [UInt64.ofInt, Int.emod_eq_of_lt h0 h, UInt64.toNat_ofNat', Nat.mod_eq_of_lt hnat,
    Int.toNat_of_nonneg h0]

theorem Lasts.deadline_eq {a : CommandAck} (h : Lasts a) :
    ((a.timestamp + durationOf a).toNat : ℤ) = deadline a := by
  have hnonneg := h.nonneg
  have hmost := h.most
  have hfits := h.fits
  have hbmod : (a.resultParam2.toInt * 1000000).bmod (2 ^ 32) = a.resultParam2.toInt * 1000000 :=
    Int.bmod_eq_of_le_mul_two (by omega) (by omega)
  have hduration : ((durationOf a).toNat : ℤ) = a.resultParam2.toInt * 1000000 := by
    rw [durationOf, hbmod]
    exact toNat_ofInt (by omega) (by omega)
  have hsum : ((a.timestamp.toNat + (durationOf a).toNat : ℕ) : ℤ) = deadline a := by
    rw [Nat.cast_add, hduration, deadline]
  rw [UInt64.toNat_add, Nat.mod_eq_of_lt (by rw [← hsum] at hfits; exact_mod_cast hfits), hsum]

theorem paramUpdate_keeps (s : ArmAuth) (params : Option Params) :
    ((params.map s.paramUpdate).getD s).state = s.state ∧
      ((params.map s.paramUpdate).getD s).authTimeout = s.authTimeout ∧
      ((params.map s.paramUpdate).getD s).authReqTime = s.authReqTime := by
  cases params with
  | none => exact ⟨rfl, rfl, rfl⟩
  | some p => exact ⟨rfl, rfl, rfl⟩

theorem giveUp_tracks {s : ArmAuth} {h : History} {now : UInt64} (hwaiting : s.Waiting)
    (hended : ∀ a, h.decision = some (.authorized a) → deadline a < now.toNat) :
    Tracks (giveUp s now).1 ⟨now, (giveUp s now).2.or h.decision⟩ := by
  unfold giveUp
  split
  · exact tracks_of_unauthorized rfl fun a ha => by cases ha
  · exact ⟨fun hstate => absurd hstate hwaiting.ne_approved, fun _ a ha => hended a ha⟩

theorem waitingUpdate_tracks {s : ArmAuth} {h : History} {now : UInt64} {systemId : UInt8}
    {ack : Option CommandAck} (hwaiting : s.Waiting)
    (hended : ∀ a, h.decision = some (.authorized a) → deadline a < now.toNat)
    (hlasts : ∀ a, Accepts s systemId ack a → Lasts a) :
    Tracks (waitingUpdate s now systemId ack).1
      ⟨now, (waitingUpdate s now systemId ack).2.or h.decision⟩ := by
  unfold waitingUpdate
  cases ack with
  | none => exact giveUp_tracks hwaiting hended
  | some a =>
      dsimp only
      split
      case isFalse => exact giveUp_tracks hwaiting hended
      rename_i hanswers
      split
      · exact giveUp_tracks (.inr rfl) hended
      split
      · rename_i haccepted
        have hlast := hlasts a ⟨hwaiting, rfl, hanswers, haccepted⟩
        exact ⟨fun _ => ⟨a, rfl, hlast.deadline_eq⟩, fun hstate => absurd rfl hstate⟩
      -- it is refused, for now or for good
      have hrefused : ∀ t : ArmAuth, t.state = .idle → Tracks t ⟨now, some .refused⟩ :=
        fun t ht => tracks_of_unauthorized ht fun b hb => by cases hb
      split
      · exact hrefused _ rfl
      · exact hrefused _ rfl

theorem armAuthUpdate_tracks {s : ArmAuth} {h : History} {now : UInt64} {r : Reading}
    (ht : Tracks s h) (hclock : h.clock ≤ now)
    (hlasts : ∀ a, Accepts s r.systemId r.ack a → Lasts a) :
    Tracks (armAuthUpdate s now r).1 ⟨now, (armAuthUpdate s now r).2.or h.decision⟩ := by
  obtain ⟨hstate, htimeout, hreq⟩ := paramUpdate_keeps s r.params
  have hlater := ht.later hclock
  unfold armAuthUpdate
  generalize (r.params.map s.paramUpdate).getD s = u at hstate htimeout hreq ⊢
  -- new parameters leave the invariant as it is
  have hu : Tracks u ⟨now, h.decision⟩ := by
    refine ⟨fun happroved => ?_, fun hnot => hlater.ended (by rwa [← hstate])⟩
    rw [htimeout]
    exact hlater.approved (hstate.symm.trans happroved)
  have hwaiting : u.Waiting → Tracks (waitingUpdate u now r.systemId r.ack).1
      ⟨now, (waitingUpdate u now r.systemId r.ack).2.or h.decision⟩ := by
    intro hw
    refine waitingUpdate_tracks hw (hu.ended hw.ne_approved) ?_
    rintro a ⟨-, hack, ⟨hcommand, htarget, hnewer⟩, haccepted⟩
    refine hlasts a ⟨?_, hack, ⟨hcommand, htarget, ?_⟩, haccepted⟩
    · unfold ArmAuth.Waiting at hw ⊢
      rwa [← hstate]
    · rwa [← hreq]
  dsimp only
  cases hcase : u.state with
  | waitingAuth => exact hwaiting (.inl hcase)
  | waitingAuthWithAck => exact hwaiting (.inr hcase)
  | idle => exact hu
  | missionApproved =>
      dsimp only
      split
      · -- the authorization ends
        rename_i hend
        obtain ⟨a, ha, hdeadline⟩ := hu.approved hcase
        refine ⟨fun hidle => (by cases hidle), fun _ b hb => ?_⟩
        obtain rfl : a = b := by simpa using ha.symm.trans hb
        have hlt := UInt64.lt_iff_toNat_lt.1 hend
        dsimp only
        omega
      · exact hu

theorem waitingUpdate_approved {s : ArmAuth} {now : UInt64} {systemId : UInt8}
    {ack : Option CommandAck} (hwaiting : s.Waiting)
    (h : (waitingUpdate s now systemId ack).1.state = .missionApproved) :
    ∃ a, Accepts s systemId ack a ∧
      (waitingUpdate s now systemId ack).1.authTimeout = a.timestamp + durationOf a := by
  have hgive : ∀ t : ArmAuth, t.Waiting → (giveUp t now).1.state ≠ .missionApproved := by
    intro t ht happroved
    unfold giveUp at happroved
    split at happroved
    · cases happroved
    · exact ht.ne_approved happroved
  unfold waitingUpdate at h ⊢
  cases ack with
  | none => exact absurd h (hgive s hwaiting)
  | some a =>
      dsimp only at h ⊢
      split at h
      case isFalse => exact absurd h (hgive s hwaiting)
      rename_i hanswers
      rw [if_pos hanswers]
      split at h
      · exact absurd h (hgive _ (.inr rfl))
      rename_i hprogress
      rw [if_neg hprogress]
      split at h
      · rename_i haccepted
        rw [if_pos haccepted]
        exact ⟨a, ⟨hwaiting, rfl, hanswers, haccepted⟩, rfl⟩
      split at h
      · cases h
      · cases h

theorem armAuthUpdate_approved {s : ArmAuth} {now : UInt64} {r : Reading} (hwaiting : s.Waiting)
    (h : (armAuthUpdate s now r).1.state = .missionApproved) :
    ∃ a, Accepts s r.systemId r.ack a ∧
      (armAuthUpdate s now r).1.authTimeout = a.timestamp + durationOf a := by
  obtain ⟨hstate, -, hreq⟩ := paramUpdate_keeps s r.params
  unfold armAuthUpdate at h ⊢
  generalize (r.params.map s.paramUpdate).getD s = u at hstate hreq h ⊢
  have hu : u.Waiting := by
    unfold ArmAuth.Waiting at hwaiting ⊢
    rwa [hstate]
  have hupdate : ∀ {β : Type} {x y z : β}, (match u.state with
      | .waitingAuth | .waitingAuthWithAck => x
      | .missionApproved => y
      | .idle => z) = x := by
    intro β x y z
    rcases hu with hu | hu
    · rw [hu]
    · rw [hu]
  dsimp only at h ⊢
  rw [hupdate] at h ⊢
  obtain ⟨a, ⟨-, hack, ⟨hcommand, htarget, hnewer⟩, haccepted⟩, htimeout⟩ :=
    waitingUpdate_approved hu h
  exact ⟨a, ⟨hwaiting, hack, ⟨hcommand, htarget, by rwa [← hreq]⟩, haccepted⟩, htimeout⟩

theorem pollLoop_tracks : ∀ {polls : List Poll} {now : UInt64} {s : ArmAuth} {d : Option Decision},
    s.Waiting → Tracks s ⟨now, d⟩ → (now :: polls.map Poll.next).IsChain (· ≤ ·) →
    PollsTimely polls now s →
    Tracks (pollLoop polls now s).1
        ⟨(pollLoop polls now s).2.1, (pollLoop polls now s).2.2.or d⟩ ∧
      ((pollLoop polls now s).1.state = .missionApproved →
        (pollLoop polls now s).2.1 ≤ (pollLoop polls now s).1.authTimeout) := by
  intro polls
  induction polls with
  | nil =>
      intro now s d hwaiting ht _ _
      exact ⟨ht, fun happroved => absurd happroved hwaiting.ne_approved⟩
  | cons p ps ih =>
      intro now s d hwaiting ht hchain htimely
      rw [List.map_cons, List.isChain_cons_cons] at hchain
      rw [pollLoop]
      by_cases hrunning : now < s.authTimeout
      · rw [if_pos hrunning]
        obtain ⟨hlasts, hrest⟩ := htimely hrunning
        have hupdate := armAuthUpdate_tracks (r := p.reading) ht UInt64.le_rfl
          fun a ha => (hlasts a ha).1
        dsimp only
        by_cases hagain : (armAuthUpdate s now p.reading).1.Waiting
        · rw [if_pos hagain]
          obtain ⟨htracks, hnotEnded⟩ := ih hagain (hupdate.later hchain.1) hchain.2 hrest
          rw [← Option.or_assoc] at htracks
          exact ⟨htracks, hnotEnded⟩
        · rw [if_neg hagain]
          refine ⟨hupdate, fun happroved => ?_⟩
          -- the loop does not look at the end of what was just accepted: the condition does
          obtain ⟨a, haccepts, htimeout⟩ := armAuthUpdate_approved hwaiting happroved
          obtain ⟨hlast, hdeadline⟩ := hlasts a haccepts
          have heq := hlast.deadline_eq
          dsimp only
          rw [htimeout, UInt64.le_iff_toNat_le]
          omega
      · rw [if_neg hrunning]
        exact ⟨ht, fun happroved => absurd happroved hwaiting.ne_approved⟩

/-! ## Checks -/

/-- What a check leaves: it accepts exactly in the approved state, which tracks the last decision
and has not ended. -/
structure Answered (r : Checked) (h : History) : Prop where
  result : r.result = resultAccepted ↔ r.auth.state = .missionApproved
  tracks : Tracks r.auth ⟨r.time, r.decision.or h.decision⟩
  lasts : r.auth.state = .missionApproved → r.time ≤ r.auth.authTimeout

theorem answered_of_ne {r : Checked} {h : History} (hresult : r.result ≠ resultAccepted)
    (hstate : r.auth.state ≠ .missionApproved)
    (ht : Tracks r.auth ⟨r.time, r.decision.or h.decision⟩) : Answered r h :=
  ⟨iff_of_false hresult hstate, ht, fun happroved => absurd happroved hstate⟩

theorem denied_ne : resultDenied ≠ resultAccepted := by decide

theorem temporarilyRejected_ne : resultTemporarilyRejected ≠ resultAccepted := by decide

theorem sendRequest_tracks {s : ArmAuth} {h : History} (ht : Tracks s h) (hidle : s.state = .idle)
    {now : UInt64} (hclock : h.clock ≤ now) : Tracks (sendRequest s now) ⟨now, h.decision⟩ := by
  refine ⟨fun happroved => (by cases happroved), fun _ => (ht.later hclock).ended ?_⟩
  rw [hidle]
  decide

theorem armReqCheck_answered {s : ArmAuth} {h : History} {now : UInt64} {polls : List Poll}
    (ht : Tracks s h) (hchain : (h.clock :: now :: polls.map Poll.next).IsChain (· ≤ ·))
    (hlast : s.state = .missionApproved → now ≤ s.authTimeout)
    (htimely : s.state = .idle → PollsTimely polls now (sendRequest s now)) :
    Answered (armReqCheck s now polls) h := by
  rw [List.isChain_cons_cons] at hchain
  have hlater := ht.later hchain.1
  unfold armReqCheck
  cases hstate : s.state with
  | missionApproved => exact ⟨iff_of_true rfl hstate, hlater, fun _ => hlast hstate⟩
  | waitingAuth => exact answered_of_ne denied_ne (ArmAuth.Waiting.ne_approved (.inl hstate)) hlater
  | waitingAuthWithAck =>
      exact answered_of_ne denied_ne (ArmAuth.Waiting.ne_approved (.inr hstate)) hlater
  | idle =>
      obtain ⟨htracks, hnotEnded⟩ := pollLoop_tracks (.inl rfl)
        (sendRequest_tracks ht hstate hchain.1) hchain.2 (htimely hstate)
      dsimp only
      generalize pollLoop polls now (sendRequest s now) = r at htracks hnotEnded
      obtain ⟨t, time, decision⟩ := r
      dsimp only at htracks hnotEnded ⊢
      by_cases hwaiting : t.Waiting
      · -- the loop has ended without an answer
        rw [if_pos hwaiting]
        exact answered_of_ne denied_ne nofun (tracks_of_unauthorized rfl fun a ha => by cases ha)
      · rw [if_neg hwaiting]
        refine ⟨?_, htracks, hnotEnded⟩
        dsimp only
        by_cases happroved : t.state = .missionApproved
        · rw [if_pos happroved]
          exact iff_of_true rfl happroved
        · rw [if_neg happroved]
          exact iff_of_false denied_ne happroved

theorem twoArmCheck_answered {s : ArmAuth} {h : History} {now : UInt64} (ht : Tracks s h)
    (hclock : h.clock ≤ now) (hlast : s.state = .missionApproved → now ≤ s.authTimeout) :
    Answered (twoArmCheck s now) h := by
  have hlater := ht.later hclock
  unfold twoArmCheck
  cases hstate : s.state with
  | missionApproved => exact ⟨iff_of_true rfl hstate, hlater, fun _ => hlast hstate⟩
  | waitingAuth =>
      exact answered_of_ne temporarilyRejected_ne (ArmAuth.Waiting.ne_approved (.inl hstate)) hlater
  | waitingAuthWithAck =>
      exact answered_of_ne temporarilyRejected_ne (ArmAuth.Waiting.ne_approved (.inr hstate)) hlater
  | idle =>
      have hrequest := sendRequest_tracks ht hstate hclock
      exact answered_of_ne temporarilyRejected_ne nofun ⟨hrequest.approved, hrequest.ended⟩

theorem armAuthCheck_answered {s : ArmAuth} {h : History} {now : UInt64} {polls : List Poll}
    (ht : Tracks s h) (hchron : Chronological h (.check now polls))
    (htimely : Timely s (.check now polls)) : Answered (armAuthCheck s now polls) h := by
  have hclock : h.clock ≤ now := (List.isChain_cons_cons.1 hchron).1
  unfold armAuthCheck
  cases hmethod : s.paramMethod with
  | armReq => exact armReqCheck_answered ht hchron htimely.1 fun hidle => htimely.2 hidle hmethod
  | twoArmReq => exact twoArmCheck_answered ht hclock htimely.1

theorem Answered.right {s : ArmAuth} {h : History} {now : UInt64} {polls : List Poll}
    (ha : Answered (armAuthCheck s now polls) h) : ChecksRight s h (.check now polls) := by
  refine ha.result.trans ⟨fun happroved => ?_, ?_⟩
  · obtain ⟨a, hdecision, hdeadline⟩ := ha.tracks.approved happroved
    have hle := UInt64.le_iff_toNat_le.1 (ha.lasts happroved)
    exact ⟨a, hdecision, by omega⟩
  · rintro ⟨a, hdecision, hlasts⟩
    by_contra hnot
    have hended := ha.tracks.ended hnot a hdecision
    dsimp only at hended
    omega

/-! ## Runs of calls -/

theorem tracks_step {s : ArmAuth} {h : History} {e : Event} (ht : Tracks s h)
    (hok : Chronological h e ∧ Timely s e) :
    Tracks (historyStep step record (s, h) e).1 (historyStep step record (s, h) e).2 := by
  cases e with
  | check now polls => exact (armAuthCheck_answered ht hok.1 hok.2).tracks
  | update now r => exact armAuthUpdate_tracks ht hok.1 hok.2

/-- In every run of checks and updates in the order of their times, in which what is taken in lasts
and no check comes between the end of an authorization and the next update, each check accepts
exactly when the last decision is an authorization that still lasts. -/
theorem arm_auth_check_iff (p : Params) (es : List Event)
    (h : AllSteps (historyStep step record) (fun q e => Chronological q.2 e ∧ Timely q.1 e)
      (ArmAuth.init p, ⟨0, none⟩) es) :
    AllSteps (historyStep step record) (fun q e => ChecksRight q.1 q.2 e)
      (ArmAuth.init p, ⟨0, none⟩) es := by
  have hinit : Tracks (ArmAuth.init p) ⟨0, none⟩ :=
    tracks_of_unauthorized rfl fun a ha => by cases ha
  refine @allSteps_of_invariant _ _ _ _ _ (fun q => Tracks q.1 q.2) ?_ ?_ _ _ hinit h
  · exact fun q e ht hok => tracks_step ht hok
  · intro q e ht hok
    cases e with
    | check now polls => exact (armAuthCheck_answered ht hok.1 hok.2).right
    | update now r => trivial

/-- Two checks, with a timeout of ten seconds. -/
def twoChecks : Params := ⟨10000000, 1, 10⟩

/-- The authorizer allows so many seconds, at 1.5 s. -/
def allowed (seconds : Int32) : CommandAck :=
  ⟨1500000, cmdArmAuthorizationRequest, resultAccepted, 0, seconds, 1⟩

/-- The vehicle is allowed to arm for ten seconds. -/
theorem arm_auth_check_iff_ten :
    AllSteps (historyStep step record) (fun q e => ChecksRight q.1 q.2 e)
      (ArmAuth.init twoChecks, ⟨0, none⟩)
      [.check 1000000 [], .update 2000000 ⟨none, 1, some (allowed 10)⟩, .check 3000000 []] :=
  arm_auth_check_iff twoChecks _ (by
    refine ⟨⟨by decide, fun h => ?_, fun _ h => ?_⟩, ⟨by decide, ?_⟩, ⟨by decide, ?_, fun h => ?_⟩,
      trivial⟩
    · cases h
    · cases h
    · rintro a ⟨-, ha, -⟩
      cases ha
      exact ⟨by decide, by decide, by decide⟩
    · exact fun _ => by decide
    · cases h)

/-- The seconds of the messages in a call are not negative. -/
def NonNegative : Event → Prop
  | .check _ polls => ∀ p ∈ polls, ∀ a ∈ p.ack, 0 ≤ a.resultParam2.toInt
  | .update _ r => ∀ a ∈ r.ack, 0 ≤ a.resultParam2.toInt

/-- An authorization for more than an hour ends at once. -/
theorem long_authorization_ends :
    ¬ ∀ (p : Params) (es : List Event),
      AllSteps (historyStep step record) (fun q e => Chronological q.2 e ∧ NonNegative e)
        (ArmAuth.init p, ⟨0, none⟩) es →
      AllSteps (historyStep step record) (fun q e => ChecksRight q.1 q.2 e)
        (ArmAuth.init p, ⟨0, none⟩) es := by
  intro hall
  obtain ⟨-, -, -, hright, -⟩ := hall twoChecks
    [.check 1000000 [], .update 2000000 ⟨none, 1, some (allowed 4295)⟩,
      .update 3000000 ⟨none, 1, none⟩,
      .check 4000000 []] (by
    refine ⟨⟨by decide, ?_⟩, ⟨by decide, ?_⟩, ⟨by decide, ?_⟩, ⟨by decide, ?_⟩, trivial⟩
    · exact fun _ h => absurd h List.not_mem_nil
    · intro a ha
      cases ha
      decide
    · exact fun _ h => absurd h (Option.not_mem_none _)
    · exact fun _ h => absurd h List.not_mem_nil)
  have haccepted := hright.2 ⟨allowed 4295, by decide, by decide⟩
  revert haccepted
  decide

end ArmAuthorization
end Commander
end DtPhm
