/-
  TargetFacade.Hub.DialBudget — a dial at a `dmx://` name derived on arming, from its making
  to its last close (FacadeHub.cpp: RetryDialDmx, FacadeHub::On_ConClose).

  The kernel calls Connect, which leaves by exception on a miss; it calls On_ConClose once
  after a miss and once after a session is lost, and redials after a close iff
  m_uAutoRestart is not zero. The budget is spent before the attempt, refreshed only on the
  path that returns, and read by On_ConClose, a callback later.

  - `budget_spent`: at any moment of any run the counter is eight less the misses since the
    last hit, and m_uAutoRestart is zero exactly at the eighth (`Budget`).
  - `dial_budget`: so the close of every lost session and of every miss redials but that of the
    eighth miss in a row, which raises P2PF_EVT_DIAL_GAVE_UP and redials nothing
    (`DialAnswers`, of each call); nothing is attempted after that one, and the event is raised
    there, once, and never otherwise (`DialLaw`, of each moment).
-/

import TargetFacade.Lib.KeyLog
import TargetFacade.Hub.Model

namespace TargetFacade

open KeyLog OrdMap Runs

/-! ## The dial -/

def kRedialMillisecs : UInt32 := 500
def kRedialDmxTries : Int := 8

def P2PF_EVT_DIAL_GAVE_UP : UInt32 := 0x0002

structure RetryDialDmx where
  /-- The address of the far side. -/
  csPeer : WStr
  m_sServiceName : WStr
  m_nTriesLeft : Int
  m_uAutoRestart : UInt32
  deriving DecidableEq, Repr

def RetryDialDmx.Make (strThat lpszService : WStr) : RetryDialDmx :=
  ⟨strThat, lpszService, kRedialDmxTries, kRedialMillisecs⟩

def RetryDialDmx.Exhausted (d : RetryDialDmx) : Bool := d.m_nTriesLeft ≤ 0

/-- `base` is what P2PeerConDmx::Connect returns, `none` when it throws. -/
def RetryDialDmx.Connect (base : Option Bool) (d : RetryDialDmx) : RetryDialDmx × Option Bool :=
  let m_nTriesLeft := d.m_nTriesLeft - 1
  let d := { d with m_nTriesLeft := m_nTriesLeft, m_uAutoRestart := if m_nTriesLeft ≤ 0 then 0 else d.m_uAutoRestart }
  match base with
  | none => (d, none)
  | some bDone => ({ d with m_nTriesLeft := kRedialDmxTries, m_uAutoRestart := kRedialMillisecs }, some bDone)

/-! ## The hub and the kernel around it -/

inductive DialStage where
  /-- The kernel is on its way to Connect. -/
  | dialing
  | up
  /-- The attempt missed, or the session was lost; On_ConClose is to come. -/
  | missed
  | lost
  /-- Closed, and not restarted. -/
  | stopped
  deriving DecidableEq, Repr

inductive DialNote where
  | attempt (base : Option Bool)
  | lost
  /-- The base On_ConClose, and whether it restarted the dial. -/
  | closed (csPeer : WStr) (bRestart : Bool)
  /-- RaiseEvent. -/
  | raised (uCode : UInt32) (lpszPeer lpszWhat : WStr)
  deriving DecidableEq, Repr

structure DialState where
  con : RetryDialDmx
  eStage : DialStage
  peers : Map WStr Bool
  /-- OnPeerUp and OnPeerDown. -/
  callbacks : List (WStr × Bool)
  log : List DialNote

def DialState.make (strThat lpszService : WStr) (peers : Map WStr Bool) (callbacks : List (WStr × Bool)) : DialState :=
  ⟨.Make strThat lpszService, .dialing, peers, callbacks, []⟩

def DialState.note (s : DialState) (x : DialNote) : DialState := { s with log := s.log ++ [x] }

def DialState.MarkPeer (s : DialState) (strPeer : WStr) (bUp : Bool) : DialState :=
  let (bChanged, peers) := MarkPeerLocked strPeer bUp s.peers
  { s with peers := peers, callbacks := if bChanged then s.callbacks ++ [(strPeer, bUp)] else s.callbacks }

/-- P2PeerHub::On_ConClose: it restarts the dial when m_uAutoRestart is set. -/
def DialState.Restart (s : DialState) : DialState :=
  let bRestart := s.con.m_uAutoRestart != 0
  { s with eStage := if bRestart then .dialing else .stopped }.note (.closed s.con.csPeer bRestart)

/-- What On_ConClose reads off a connection: its address, and the dial if it is one. -/
structure Closing where
  csPeer : WStr
  pDial : Option RetryDialDmx

def gaveUpWhat (csPeer csService : WStr) : WStr :=
  L "TargetFacade: gave up dialing '" ++ csPeer ++ L "' after " ++ fmtU kRedialDmxTries.toNat ++
    L " attempts at 'dmx://" ++ csService ++ L "'. The in-process listener never armed, or the hub that owned it has closed."

/-- `base` is the handler delegated to. The connection is read before it, and what was read is
    acted on after it. -/
def DialState.On_ConClose (base : DialState → DialState) (pCon : Option Closing) (s : DialState) : DialState :=
  let csPeer := (pCon.map (·.csPeer)).getD []
  let gaveUp := (pCon.bind (·.pDial)).filter (·.Exhausted)
  let s := base s
  let s := if csPeer.isEmpty then s else s.MarkPeer csPeer false
  match gaveUp with
  | none => s
  | some pDial => s.note (.raised P2PF_EVT_DIAL_GAVE_UP csPeer (gaveUpWhat csPeer pDial.m_sServiceName))

inductive DialEv where
  /-- The kernel calls Connect. -/
  | connect (base : Option Bool)
  /-- On_ConLogin or On_ConLoginAck of the session, with the address of the far side. -/
  | login (strThat : WStr)
  /-- The session drops. -/
  | lose
  /-- On_ConClose of the dial. -/
  | close
  /-- On_ConClose of a connection that is no such dial, or of none. -/
  | otherClose (csPeer : Option WStr)
  deriving DecidableEq, Repr

def dialStep (s : DialState) : DialEv → DialState
  | .connect base =>
    match s.eStage with
    | .dialing =>
      let (con, r) := s.con.Connect base
      { s with con := con, eStage := if r.isSome then .up else .missed }.note (.attempt r)
    | _ => s
  | .login strThat =>
    match s.eStage with
    | .up =>
      { s with con := { s.con with csPeer := if strThat.isEmpty then s.con.csPeer else strThat } }.MarkPeer strThat true
    | _ => s
  | .lose =>
    match s.eStage with
    | .up => { s with eStage := .lost }.note .lost
    | _ => s
  | .close =>
    match s.eStage with
    | .missed | .lost => DialState.On_ConClose DialState.Restart (some ⟨s.con.csPeer, some s.con⟩) s
    | _ => s
  | .otherClose csPeer => DialState.On_ConClose id (csPeer.map fun p => ⟨p, none⟩) s

/-! ## What the log says -/

/-- The misses since the last hit. -/
def missesInRow (log : List DialNote) : Nat :=
  log.foldl (fun n x => match x with | .attempt none => n + 1 | .attempt (some _) => 0 | _ => n) 0

@[simp] theorem missesInRow_nil : missesInRow [] = 0 := rfl

@[simp] theorem missesInRow_miss (log : List DialNote) : missesInRow (log ++ [.attempt none]) = missesInRow log + 1 := by
  simp [missesInRow]

@[simp] theorem missesInRow_hit (log : List DialNote) (bDone : Bool) : missesInRow (log ++ [.attempt (some bDone)]) = 0 := by
  simp [missesInRow]

@[simp] theorem missesInRow_lost (log : List DialNote) : missesInRow (log ++ [.lost]) = missesInRow log := by
  simp [missesInRow]

@[simp] theorem missesInRow_closed (log : List DialNote) (csPeer : WStr) (bRestart : Bool) :
    missesInRow (log ++ [.closed csPeer bRestart]) = missesInRow log := by simp [missesInRow]

@[simp] theorem missesInRow_raised (log : List DialNote) (uCode : UInt32) (lpszPeer lpszWhat : WStr) :
    missesInRow (log ++ [.raised uCode lpszPeer lpszWhat]) = missesInRow log := by simp [missesInRow]

/-- How often the event was raised. -/
def gaveUps (log : List DialNote) : Nat := log.countP fun x => match x with | .raised .. => true | _ => false

@[simp] theorem gaveUps_attempt (log : List DialNote) (r : Option Bool) : gaveUps (log ++ [.attempt r]) = gaveUps log := by
  simp [gaveUps]

@[simp] theorem gaveUps_lost (log : List DialNote) : gaveUps (log ++ [.lost]) = gaveUps log := by simp [gaveUps]

@[simp] theorem gaveUps_closed (log : List DialNote) (csPeer : WStr) (bRestart : Bool) :
    gaveUps (log ++ [.closed csPeer bRestart]) = gaveUps log := by simp [gaveUps]

@[simp] theorem gaveUps_raised (log : List DialNote) (uCode : UInt32) (lpszPeer lpszWhat : WStr) :
    gaveUps (log ++ [.raised uCode lpszPeer lpszWhat]) = gaveUps log + 1 := by simp [gaveUps]

/-- What an entry says of the log before it. -/
def DialNote.Right (csService : WStr) (log : List DialNote) : DialNote → Prop
  -- the first, or the redial of a close; never a ninth in a row
  | .attempt _ => (log = [] ∨ ∃ csPeer, DialNote.closed csPeer true ∈ log.getLast?) ∧ missesInRow log < 8
  | .lost => missesInRow log = 0
  | .closed _ bRestart => (bRestart = true ↔ missesInRow log < 8) ∧
      (log.getLast? = some .lost ∨ log.getLast? = some (.attempt none))
  | .raised uCode lpszPeer lpszWhat => uCode = P2PF_EVT_DIAL_GAVE_UP ∧ lpszWhat = gaveUpWhat lpszPeer csService ∧
      missesInRow log = 8 ∧ log.getLast? = some (.closed lpszPeer false)

/-- The dial as the log tells it. -/
structure DialLaw (csService : WStr) (s : DialState) : Prop where
  notes : Noted (DialNote.Right csService) s.log
  /-- A hit restores the full budget, and a miss takes one of it. -/
  budget : s.con.m_nTriesLeft = 8 - (missesInRow s.log : Int)
  restart : s.con.m_uAutoRestart = if missesInRow s.log = 8 then 0 else kRedialMillisecs
  /-- The kernel is on its way to Connect at the start and after each close that redials. -/
  redial : s.eStage = .dialing ↔ s.log = [] ∨ ∃ csPeer, DialNote.closed csPeer true ∈ s.log.getLast?
  /-- The event is raised once when the close of the eighth miss in a row is through, and not before. -/
  once : gaveUps s.log = if missesInRow s.log = 8 ∧ s.eStage ≠ .missed then 1 else 0

/-- The miss, or the lost session, that the dial's next close is about. -/
def AwaitsClose (log : List DialNote) : Prop := log.getLast? = some .lost ∨ log.getLast? = some (.attempt none)

/-- What the dial makes of a call of the kernel's. -/
structure DialAnswers (csService : WStr) (s : DialState) (e : DialEv) : Prop where
  /-- A redial is an attempt, and a hit restores the full budget. -/
  attempt : ∀ base, e = .connect base → s.eStage = .dialing → (dialStep s e).log = s.log ++ [.attempt base] ∧
    (dialStep s e).eStage = (if base.isSome then .up else .missed) ∧
    (base.isSome = true → (dialStep s e).con.m_nTriesLeft = 8 ∧ (dialStep s e).con.m_uAutoRestart = kRedialMillisecs)
  lost : e = .lose → s.eStage = .up → (dialStep s e).log = s.log ++ [.lost]
  redials : e = .close → AwaitsClose s.log → missesInRow s.log < 8 →
    (dialStep s e).log = s.log ++ [.closed s.con.csPeer true] ∧ (dialStep s e).eStage = .dialing
  givesUp : e = .close → AwaitsClose s.log → missesInRow s.log = 8 →
    (dialStep s e).log = s.log ++ [.closed s.con.csPeer false] ++
      [.raised P2PF_EVT_DIAL_GAVE_UP s.con.csPeer (gaveUpWhat s.con.csPeer csService)] ∧ (dialStep s e).eStage = .stopped

/-! ## One step -/

@[simp] theorem dialMark_con (s : DialState) (p : WStr) (bUp : Bool) : (s.MarkPeer p bUp).con = s.con := rfl
@[simp] theorem dialMark_stage (s : DialState) (p : WStr) (bUp : Bool) : (s.MarkPeer p bUp).eStage = s.eStage := rfl
@[simp] theorem dialMark_log (s : DialState) (p : WStr) (bUp : Bool) : (s.MarkPeer p bUp).log = s.log := rfl

/-- What the log says where the dial stands. -/
def DialStage.At (log : List DialNote) : DialStage → Prop
  | .dialing => (log = [] ∨ ∃ csPeer, DialNote.closed csPeer true ∈ log.getLast?) ∧ missesInRow log < 8
  | .up => (∃ bDone, log.getLast? = some (.attempt (some bDone))) ∧ missesInRow log = 0
  | .missed => log.getLast? = some (.attempt none) ∧ missesInRow log ≤ 8
  | .lost => log.getLast? = some .lost ∧ missesInRow log = 0
  | .stopped => (∃ uCode lpszPeer lpszWhat, log.getLast? = some (.raised uCode lpszPeer lpszWhat)) ∧ missesInRow log = 8

structure Budget (csService : WStr) (s : DialState) : Prop where
  service : s.con.m_sServiceName = csService
  tries : s.con.m_nTriesLeft = 8 - (missesInRow s.log : Int)
  restart : s.con.m_uAutoRestart = if missesInRow s.log = 8 then 0 else kRedialMillisecs
  stage : s.eStage.At s.log
  notes : Noted (DialNote.Right csService) s.log
  once : gaveUps s.log = if s.eStage = .stopped then 1 else 0

theorem DialStage.at_le {log : List DialNote} {e : DialStage} (h : e.At log) : missesInRow log ≤ 8 := by
  cases e <;> simp only [DialStage.At] at h <;> omega

theorem Budget.law {csService : WStr} {s : DialState} (hb : Budget csService s) : DialLaw csService s := by
  have hst := hb.stage
  refine ⟨hb.notes, hb.tries, hb.restart, ?_, ?_⟩
  · cases he : s.eStage <;> simp only [he, DialStage.At] at hst
    case dialing => simpa using hst.1
    case up =>
      obtain ⟨⟨bDone, hlast⟩, -⟩ := hst
      have hne : s.log ≠ [] := by intro h; simp [h] at hlast
      simp [hlast, hne]
    case stopped =>
      obtain ⟨⟨uCode, p, what, hlast⟩, -⟩ := hst
      have hne : s.log ≠ [] := by intro h; simp [h] at hlast
      simp [hlast, hne]
    all_goals
      have hne : s.log ≠ [] := by intro h; simp [h] at hst
      simp [hst.1, hne]
  · rw [hb.once]
    cases he : s.eStage <;> simp only [he, DialStage.At] at hst <;> simp
    all_goals omega

theorem connect_miss {s : DialState} (he : s.eStage = .dialing) : dialStep s (.connect none) =
    { s with
      con := { s.con with m_nTriesLeft := s.con.m_nTriesLeft - 1,
                          m_uAutoRestart := if s.con.m_nTriesLeft - 1 ≤ 0 then 0 else s.con.m_uAutoRestart },
      eStage := .missed, log := s.log ++ [.attempt none] } := by
  simp [dialStep, he, RetryDialDmx.Connect, DialState.note]

theorem connect_hit {s : DialState} (he : s.eStage = .dialing) (bDone : Bool) : dialStep s (.connect (some bDone)) =
    { s with con := { s.con with m_nTriesLeft := kRedialDmxTries, m_uAutoRestart := kRedialMillisecs },
             eStage := .up, log := s.log ++ [.attempt (some bDone)] } := by
  simp [dialStep, he, RetryDialDmx.Connect, DialState.note]

/-- The close of a dial with tries left. -/
theorem close_redials {s : DialState} (he : s.eStage = .missed ∨ s.eStage = .lost) (ht : 0 < s.con.m_nTriesLeft)
    (ha : s.con.m_uAutoRestart ≠ 0) : ∃ peers callbacks, dialStep s .close =
      { s with eStage := .dialing, peers := peers, callbacks := callbacks, log := s.log ++ [.closed s.con.csPeer true] } := by
  have hex : s.con.Exhausted = false := by simpa [RetryDialDmx.Exhausted] using ht
  rcases he with he | he
  all_goals
    simp only [dialStep, he, DialState.On_ConClose, Option.map_some, Option.getD_some, Option.bind_some, Option.filter_some, hex,
      Bool.false_eq_true, if_false, DialState.Restart, DialState.note]
    by_cases hp : s.con.csPeer.isEmpty = true
    · exact ⟨s.peers, s.callbacks, by simp [hp, ha]⟩
    · exact ⟨_, _, by simp [hp, ha, DialState.MarkPeer]; exact ⟨rfl, rfl⟩⟩

/-- The close of a dial that has spent its budget. -/
theorem close_gives_up {s : DialState} (he : s.eStage = .missed ∨ s.eStage = .lost) (ht : s.con.m_nTriesLeft ≤ 0)
    (ha : s.con.m_uAutoRestart = 0) : ∃ peers callbacks, dialStep s .close =
      { s with eStage := .stopped, peers := peers, callbacks := callbacks,
               log := s.log ++ [.closed s.con.csPeer false] ++
                 [.raised P2PF_EVT_DIAL_GAVE_UP s.con.csPeer (gaveUpWhat s.con.csPeer s.con.m_sServiceName)] } := by
  have hex : s.con.Exhausted = true := by simpa [RetryDialDmx.Exhausted] using ht
  rcases he with he | he
  all_goals
    simp only [dialStep, he, DialState.On_ConClose, Option.map_some, Option.getD_some, Option.bind_some, Option.filter_some, hex,
      if_true, DialState.Restart, DialState.note]
    by_cases hp : s.con.csPeer.isEmpty = true
    · exact ⟨s.peers, s.callbacks, by simp [hp, ha]⟩
    · exact ⟨_, _, by simp [hp, ha, DialState.MarkPeer]; exact ⟨rfl, rfl⟩⟩

/-- A dial that awaits its close stands at it. -/
theorem awaits_stage {log : List DialNote} {e : DialStage} (h : e.At log) (ha : AwaitsClose log) : e = .missed ∨ e = .lost := by
  cases e with
  | missed => exact Or.inl rfl
  | lost => exact Or.inr rfl
  | dialing =>
    rcases h.1 with rfl | ⟨p, hlast⟩
    · rcases ha with hl | hl <;> cases hl
    · rcases ha with hl | hl <;> rw [hl] at hlast <;> cases hlast
  | up =>
    obtain ⟨⟨bDone, hlast⟩, -⟩ := h
    rcases ha with hl | hl <;> rw [hl] at hlast <;> cases hlast
  | stopped =>
    obtain ⟨⟨uCode, p, what, hlast⟩, -⟩ := h
    rcases ha with hl | hl <;> rw [hl] at hlast <;> cases hlast

/-- What is left of the budget where a miss or a loss awaits its close. -/
theorem Budget.left {csService : WStr} {s : DialState} (hb : Budget csService s) :
    (missesInRow s.log < 8 → 0 < s.con.m_nTriesLeft ∧ s.con.m_uAutoRestart ≠ 0) ∧
      (missesInRow s.log = 8 → s.con.m_nTriesLeft ≤ 0 ∧ s.con.m_uAutoRestart = 0) := by
  have htries := hb.tries
  have hrestart := hb.restart
  constructor
  · intro hm
    rw [if_neg (by omega)] at hrestart
    refine ⟨by omega, ?_⟩
    rw [hrestart]
    decide
  · intro hm
    rw [if_pos hm] at hrestart
    exact ⟨by omega, hrestart⟩

theorem Budget.answers {csService : WStr} {s : DialState} (hb : Budget csService s) (e : DialEv) :
    DialAnswers csService s e := by
  refine ⟨?_, ?_, ?_, ?_⟩
  · rintro base rfl he
    cases base with
    | none =>
      rw [connect_miss he]
      exact ⟨rfl, rfl, fun h => by cases h⟩
    | some bDone =>
      rw [connect_hit he]
      exact ⟨rfl, rfl, fun _ => ⟨rfl, rfl⟩⟩
  · rintro rfl he
    simp [dialStep, he, DialState.note]
  · rintro rfl ha hm
    obtain ⟨htries, hauto⟩ := hb.left.1 hm
    obtain ⟨peers, callbacks, heq⟩ := close_redials (awaits_stage hb.stage ha) htries hauto
    rw [heq]
    exact ⟨rfl, rfl⟩
  · rintro rfl ha hm
    obtain ⟨htries, hauto⟩ := hb.left.2 hm
    obtain ⟨peers, callbacks, heq⟩ := close_gives_up (awaits_stage hb.stage ha) htries hauto
    rw [heq, hb.service]
    exact ⟨rfl, rfl⟩

theorem connect_budget {csService : WStr} {s : DialState} (hb : Budget csService s) (base : Option Bool) :
    Budget csService (dialStep s (.connect base)) := by
  have hst := hb.stage
  cases he : s.eStage with
  | dialing =>
    rw [he] at hst
    obtain ⟨hlast, hm⟩ := hst
    have hauto : s.con.m_uAutoRestart = kRedialMillisecs := by
      rw [hb.restart, if_neg (by omega)]
    have hno : gaveUps s.log = 0 := by
      rw [hb.once, he]
      rfl
    cases base with
    | none =>
      rw [connect_miss he]
      refine ⟨hb.service, ?_, ?_, ⟨by simp, ?_⟩, noted_snoc.mpr ⟨hb.notes, hlast, hm⟩, by simp [hno]⟩
      · simp only [hb.tries, missesInRow_miss]
        omega
      · -- the budget was spent before the attempt: none is left at the eighth miss
        simp only [hb.tries, hauto, missesInRow_miss]
        split <;> split <;> first | rfl | omega
      · simp only [missesInRow_miss]
        omega
    | some bDone =>
      rw [connect_hit he]
      exact ⟨hb.service, by simp [kRedialDmxTries], by simp, ⟨⟨bDone, by simp⟩, by simp⟩,
        noted_snoc.mpr ⟨hb.notes, hlast, hm⟩, by simp [hno]⟩
  | up => simpa only [dialStep, he] using hb
  | missed => simpa only [dialStep, he] using hb
  | lost => simpa only [dialStep, he] using hb
  | stopped => simpa only [dialStep, he] using hb

theorem lose_budget {csService : WStr} {s : DialState} (hb : Budget csService s) : Budget csService (dialStep s .lose) := by
  have hst := hb.stage
  cases he : s.eStage with
  | up =>
    rw [he] at hst
    obtain ⟨-, hm⟩ := hst
    have hno : gaveUps s.log = 0 := by
      rw [hb.once, he]
      rfl
    simp only [dialStep, he, DialState.note]
    exact ⟨hb.service, by simpa using hb.tries, by simpa using hb.restart, ⟨by simp, by simpa using hm⟩,
      noted_snoc.mpr ⟨hb.notes, hm⟩, by simp [hno]⟩
  | dialing => simpa only [dialStep, he] using hb
  | missed => simpa only [dialStep, he] using hb
  | lost => simpa only [dialStep, he] using hb
  | stopped => simpa only [dialStep, he] using hb

theorem close_budget {csService : WStr} {s : DialState} (hb : Budget csService s) : Budget csService (dialStep s .close) := by
  have hst := hb.stage
  by_cases he : s.eStage = .missed ∨ s.eStage = .lost
  case neg =>
    cases hs : s.eStage <;> simp only [hs, reduceCtorEq, or_false, or_true, not_true, not_false_eq_true] at he
    all_goals simpa only [dialStep, hs] using hb
  have hno : gaveUps s.log = 0 := by
    rcases he with he | he
    all_goals
      rw [hb.once, he]
      rfl
  have hlast : s.log.getLast? = some .lost ∨ s.log.getLast? = some (.attempt none) := by
    rcases he with he | he
    · rw [he] at hst; exact .inr hst.1
    · rw [he] at hst; exact .inl hst.1
  have hle := DialStage.at_le hst
  by_cases hm : missesInRow s.log = 8
  · obtain ⟨htries, hauto⟩ := hb.left.2 hm
    obtain ⟨peers, callbacks, heq⟩ := close_gives_up he htries hauto
    rw [heq]
    refine ⟨hb.service, ?_, ?_, ⟨⟨_, _, _, List.getLast?_concat ..⟩, ?_⟩, ?_, ?_⟩
    · simpa only [missesInRow_raised, missesInRow_closed] using hb.tries
    · simpa only [missesInRow_raised, missesInRow_closed] using hb.restart
    · simpa only [missesInRow_raised, missesInRow_closed] using hm
    · refine noted_snoc.mpr ⟨noted_snoc.mpr ⟨hb.notes, by simp [hm], hlast⟩, rfl, ?_, by simpa using hm, by simp⟩
      rw [hb.service]
    · simp only [gaveUps_raised, gaveUps_closed, hno, if_true]
  · have hlt : missesInRow s.log < 8 := by omega
    obtain ⟨htries, hauto⟩ := hb.left.1 hlt
    obtain ⟨peers, callbacks, heq⟩ := close_redials he htries hauto
    rw [heq]
    exact ⟨hb.service, by simpa using hb.tries, by simpa using hb.restart, ⟨.inr ⟨s.con.csPeer, by simp⟩, by simpa using hlt⟩,
      noted_snoc.mpr ⟨hb.notes, by simp [hlt], hlast⟩, by simp [hno]⟩

/-- A login, and the close of another connection, leave the budget and the log. -/
theorem login_budget {csService : WStr} {s : DialState} (hb : Budget csService s) (strThat : WStr) :
    Budget csService (dialStep s (.login strThat)) := by
  have hst := hb.stage
  have hno := hb.once
  cases he : s.eStage with
  | up =>
    rw [he] at hst hno
    simp only [dialStep, he]
    exact ⟨hb.service, hb.tries, hb.restart, hst, hb.notes, hno⟩
  | dialing => simpa only [dialStep, he] using hb
  | missed => simpa only [dialStep, he] using hb
  | lost => simpa only [dialStep, he] using hb
  | stopped => simpa only [dialStep, he] using hb

theorem otherClose_budget {csService : WStr} {s : DialState} (hb : Budget csService s) (csPeer : Option WStr) :
    Budget csService (dialStep s (.otherClose csPeer)) := by
  have hnone : ((csPeer.map fun p => (⟨p, none⟩ : Closing)).bind (·.pDial)).filter (·.Exhausted) = none := by
    cases csPeer <;> rfl
  simp only [dialStep, DialState.On_ConClose, hnone, id]
  split
  · exact hb
  · exact ⟨hb.service, hb.tries, hb.restart, hb.stage, hb.notes, hb.once⟩

theorem dialStep_budget {csService : WStr} (s : DialState) (e : DialEv) (hb : Budget csService s) :
    Budget csService (dialStep s e) := by
  cases e with
  | connect base => exact connect_budget hb base
  | login strThat => exact login_budget hb strThat
  | lose => exact lose_budget hb
  | close => exact close_budget hb
  | otherClose csPeer => exact otherClose_budget hb csPeer

/-! ## Every run -/

theorem make_budget (strThat lpszService : WStr) (peers : Map WStr Bool) (callbacks : List (WStr × Bool)) :
    Budget lpszService (.make strThat lpszService peers callbacks) :=
  ⟨rfl, rfl, rfl, ⟨.inl rfl, by simp [DialState.make]⟩, noted_nil, rfl⟩

theorem budget_spent (strThat lpszService : WStr) (peers : Map WStr Bool) (callbacks : List (WStr × Bool)) (evs : List DialEv) :
    Always dialStep (Budget lpszService) (.make strThat lpszService peers callbacks) evs :=
  always_of_inv dialStep_budget (make_budget strThat lpszService peers callbacks)

/-- Every lost session and every miss is redialled at its close but the eighth miss in a row; at
    that one's close the event is raised, after it nothing is attempted, and the event is raised
    once and never otherwise. -/
theorem dial_budget (strThat lpszService : WStr) (peers : Map WStr Bool) (callbacks : List (WStr × Bool)) (evs : List DialEv) :
    Always dialStep (DialLaw lpszService) (.make strThat lpszService peers callbacks) evs ∧
      Each dialStep (DialAnswers lpszService) (.make strThat lpszService peers callbacks) evs := by
  have hb := budget_spent strThat lpszService peers callbacks evs
  exact ⟨hb.mono fun _ => Budget.law, fun k e _ => (hb k).answers e⟩

end TargetFacade
