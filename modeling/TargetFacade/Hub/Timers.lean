/-
  TargetFacade.Hub.Timers — SetTimer, KillTimer, Post and the pump's half of them on one hub
  (FacadeHub.cpp: SetTimer, KillTimer, Post, HandlePrivate, ArmPumpTimer, On_PITimer).

  Each locked section, each post, each reading of the clock and each kernel call is one step;
  a client thread between two of them stands at a `ClientCall` and the pump at a `PumpPc`. The
  pump takes the messages waiting for it in any order, and calls a client callback only after
  it has let go of the row, so a callback that drives the pump again finds it idle.

  The kernel: `kernel` are its timers that have not called back yet. SetPITimer gives a timer
  an id that no timer of its list has, or none; a timer calls back once, and not as elapsed
  once KillP2PmsgTimer has been called on it. `nDue` is where the notes at the top of
  FacadeHub.cpp put its deadline. `toMsecs` is the conversion to P2Pmsecs_t.

  `set`, `notes` and `posted` are read by no step: the rows written, what was answered and
  delivered, and the Post calls whose message went out.
-/

import TargetFacade.Hub.Private
import TargetFacade.Lib.Bag

namespace TargetFacade

open OrdMap Runs Bag

def kTimerMaxRearms : Nat := 2

structure TimerRow where
  /-- 0 until the pump has armed it. -/
  nKernelID : Nat
  uKey : UInt32
  uDeadline : Nat
  uRearms : Nat
  deriving DecidableEq, Repr

structure KernelTimer where
  nTimerID : Nat
  dwUserKey : UInt32
  nDue : Nat
  bKilled : Bool
  deriving DecidableEq, Repr

/-- A SetTimer call that wrote a row: when it was called and with what. -/
structure SetCall where
  uId : UInt32
  uCalled : Nat
  delay : UInt32
  key : UInt32
  deriving DecidableEq, Repr

/-- Where a client thread stands. -/
inductive ClientCall where
  /-- SetTimer, past its checks. -/
  | entered (uCalled : Nat) (delay key : UInt32)
  /-- SetTimer, its row written and its message still to post. -/
  | posting (uId : UInt32)
  /-- SetTimer, its post refused and its row still there. -/
  | refused (uId : UInt32) (hr : HRESULT)
  /-- KillTimer, having found the row. -/
  | killing (timerId : UInt32)
  deriving DecidableEq, Repr

/-- Where the pump stands. -/
inductive PumpPc where
  | idle
  /-- ArmPumpTimer. -/
  | arming (uTimerId : UInt32) (uDeadlineTick : Nat) (bCompensate : Bool)
  /-- ArmPumpTimer, before it reads how far into the second it is. -/
  | compensating (uTimerId : UInt32) (nDelay : Nat)
  /-- ArmPumpTimer, about to call SetPITimer. -/
  | setting (uTimerId : UInt32) (nDelay : Nat)
  /-- The second locked section, with what SetPITimer answered. -/
  | recording (uTimerId : UInt32) (nKernel : Nat)
  /-- The row is gone, its kernel timer is still to kill. -/
  | killing (nKernel : Nat)
  /-- On_PITimer, about to call OnTimer. -/
  | elapsed (uTimerId uKey : UInt32)
  deriving DecidableEq, Repr

inductive Note where
  | setTimer (hr : HRESULT) (outTimerId : UInt32)
  | killTimer (hr : HRESULT) (timerId : UInt32)
  | post (hr : HRESULT)
  /-- A kill message has been processed. -/
  | killed (uTimerId : UInt32)
  | rearmed (uTimerId : UInt32)
  | onTimer (timerId key : UInt32) (uAt : Nat)
  | onPost (key : UInt32) (context : UInt64)
  deriving DecidableEq, Repr

structure PumpHub where
  oAddress : HubAddress
  now : Nat
  /-- m_pExtEvents is there. -/
  bExt : Bool
  uNextTimerId : UInt32
  timers : Map UInt32 TimerRow
  calls : List ClientCall
  inbox : List SentMsg
  kernel : List KernelTimer
  pump : PumpPc
  set : List SetCall
  posted : List (UInt32 × UInt64)
  notes : List Note

abbrev PumpHub.csAddress (s : PumpHub) : WStr := s.oAddress.1

def PumpHub.created (oAddress : HubAddress) (now : Nat) : PumpHub where
  oAddress := oAddress
  now := now
  bExt := false
  uNextTimerId := 0
  timers := ∅
  calls := []
  inbox := []
  kernel := []
  pump := .idle
  set := []
  posted := []
  notes := []

/-! ## The clock -/

/-- `_time64(0)*1000`. -/
def secondOf (now : Nat) : Nat := now / 1000 * 1000

def MillisecsIntoSecond (now : Nat) : Nat := now % 1000

theorem secondOf_le (now : Nat) : secondOf now ≤ now := by
  unfold secondOf
  omega

theorem secondOf_add (now : Nat) : secondOf now + MillisecsIntoSecond now = now := by
  unfold secondOf MillisecsIntoSecond
  omega

theorem secondOf_mono {a b : Nat} (h : a ≤ b) : secondOf a ≤ secondOf b := by
  unfold secondOf
  omega

theorem lt_secondOf (now : Nat) : now < secondOf now + 1000 := by
  unfold secondOf
  omega

/-! ## The kernel's timers -/

def SetPITimer (nTimerID : Nat) (now nDelay : Nat) (dwUserKey : UInt32) (kernel : List KernelTimer) :
    Nat × List KernelTimer :=
  if nTimerID = 0 ∨ kernel.any (·.nTimerID == nTimerID) then (0, kernel)
  else (nTimerID, kernel ++ [⟨nTimerID, dwUserKey, secondOf now + nDelay, false⟩])

def KernelTimer.kill (nTimerID : Nat) (t : KernelTimer) : KernelTimer :=
  if t.nTimerID = nTimerID then { t with bKilled := true } else t

def KillP2PmsgTimer (nTimerID : Nat) (kernel : List KernelTimer) : List KernelTimer := kernel.map (·.kill nTimerID)

/-! ## The locked sections -/

/-- The row of a SetTimer: its id is the counter's next value. -/
def SetTimerLocked (uCalled : Nat) (delay key : UInt32) (s : PumpHub) : PumpHub :=
  let uId := s.uNextTimerId + 1
  { s with
    uNextTimerId := uId
    timers := s.timers.insert uId ⟨0, key, s.now + delay.toNat, 0⟩
    calls := s.calls.erase (.entered uCalled delay key) ++ [.posting uId]
    set := s.set ++ [⟨uId, uCalled, delay, key⟩] }

/-- What On_PITimer makes of a callback: whether the row is known, its key, the deadline to
    re-arm for (0: none) and the rows it leaves. -/
def On_PITimerLocked (bCancel : Bool) (dwUserKey : UInt32) (uNow : Nat) (m : Map UInt32 TimerRow) :
    (Bool × UInt32 × Nat) × Map UInt32 TimerRow :=
  match m[dwUserKey]? with
  | none => ((false, 0, 0), m)
  | some row =>
    if !bCancel && decide (uNow < row.uDeadline) && decide (row.uRearms < kTimerMaxRearms) then
      ((true, row.uKey, row.uDeadline), m.insert dwUserKey { row with uRearms := row.uRearms + 1 })
    else ((true, row.uKey, 0), m.erase dwUserKey)

/-- After an arm: the row names the kernel timer, or is forgotten when nothing was armed; a timer
    whose row has gone is killed. -/
def RecordArm (uTimerId : UInt32) (nKernel : Nat) (s : PumpHub) : PumpHub :=
  match s.timers[uTimerId]? with
  | some row =>
    if nKernel ≠ 0 then { s with timers := s.timers.insert uTimerId { row with nKernelID := nKernel } }
    else { s with timers := s.timers.erase uTimerId }
  | none => if nKernel ≠ 0 then { s with kernel := KillP2PmsgTimer nKernel s.kernel } else s

/-! ## The system -/

inductive PumpEv where
  | tick (n : Nat)
  | setExtEvents (bSet : Bool)
  /-- Up to the locked section; `bOut` is whether outTimerId is there. -/
  | setTimer (bOut : Bool) (delay key : UInt32)
  /-- Up to the post. -/
  | killTimer (timerId : UInt32)
  | post (env : PostEnv) (key : UInt32) (context : UInt64)
  /-- A client thread's next step. -/
  | client (c : ClientCall) (env : PostEnv)
  /-- A message from another hub. -/
  | arrive (m : SentMsg)
  /-- The pump takes a message. -/
  | pump (m : SentMsg)
  /-- The pump's next step; `nTimerID` is the id SetPITimer has to give. -/
  | turn (nTimerID : Nat)
  /-- A kernel timer calls back. -/
  | callback (bCancel : Bool) (t : KernelTimer)

def PumpHub.note (s : PumpHub) (n : Note) : PumpHub := { s with notes := s.notes ++ [n] }

/-- A PostMsg from this hub to itself. -/
def PumpHub.postSelf (s : PumpHub) (env : PostEnv) (m : SentMsg) : HRESULT × PumpHub :=
  let (hr, posted) := PostMsg env s.csAddress m.oMsg.strName (some m.oMsg.aData) m.oMsg.aData.length none
  (hr, { s with inbox := s.inbox ++ posted.map fun o => ⟨s.csAddress, o⟩ })

def clientStep (env : PostEnv) (s : PumpHub) : ClientCall → PumpHub
  | .entered uCalled delay key => SetTimerLocked uCalled delay key s
  | .posting uId =>
    let (hr, s) := PumpHub.postSelf { s with calls := s.calls.erase (.posting uId) } env (msgTimer s.csAddress uId)
    if FAILED hr then { s with calls := s.calls ++ [.refused uId hr] } else s.note (.setTimer S_OK uId)
  | .refused uId hr =>
    PumpHub.note { s with calls := s.calls.erase (.refused uId hr), timers := s.timers.erase uId } (.setTimer hr 0)
  | .killing timerId =>
    let (hr, s) := PumpHub.postSelf { s with calls := s.calls.erase (.killing timerId) } env (msgKill s.csAddress timerId)
    s.note (.killTimer hr timerId)

/-- HandlePrivate, up to where it leaves the lock for the first time. -/
def workStep (s : PumpHub) : PrivWork → PumpHub
  | .timer uTimerId =>
    match s.timers[uTimerId]? with
    | none => s
    | some row => { s with pump := .arming uTimerId row.uDeadline false }
  | .kill uTimerId =>
    let s := s.note (.killed uTimerId)
    match s.timers[uTimerId]? with
    | none => s
    | some row =>
      { s with
        timers := s.timers.erase uTimerId
        pump := if row.nKernelID ≠ 0 then .killing row.nKernelID else .idle }
  | .post uKey uContext => if s.bExt then s.note (.onPost uKey uContext) else s
  -- the pings of the hub and its answers to others' are kept elsewhere
  | .echo _ _ | .pong _ | .nothing => s

variable (toMsecs : Nat → Nat)

def turnStep (nTimerID : Nat) (s : PumpHub) : PumpHub :=
  match s.pump with
  | .idle => s
  | .arming uTimerId uDeadlineTick bCompensate =>
    if s.now < uDeadlineTick then
      let nDelay := toMsecs (uDeadlineTick - s.now)
      { s with pump := if bCompensate then .compensating uTimerId nDelay else .setting uTimerId nDelay }
    else { s with pump := .setting uTimerId 0 }
  | .compensating uTimerId nDelay =>
    { s with pump := .setting uTimerId (toMsecs (nDelay + toMsecs (MillisecsIntoSecond s.now))) }
  | .setting uTimerId nDelay =>
    let (nKernel, kernel) := SetPITimer nTimerID s.now nDelay uTimerId s.kernel
    { s with kernel := kernel, pump := .recording uTimerId nKernel }
  | .recording uTimerId nKernel => { RecordArm uTimerId nKernel s with pump := .idle }
  | .killing nKernel => { s with kernel := KillP2PmsgTimer nKernel s.kernel, pump := .idle }
  | .elapsed uTimerId uKey =>
    let s := { s with pump := .idle }
    if s.bExt then s.note (.onTimer uTimerId uKey s.now) else s

def On_PITimer (bCancel : Bool) (t : KernelTimer) (s : PumpHub) : PumpHub :=
  let ((bKnown, uKey, uRetry), timers) := On_PITimerLocked bCancel t.dwUserKey s.now s.timers
  let s := { s with kernel := s.kernel.erase t, timers := timers }
  -- an id the map does not know is the base handler's
  if !bKnown then s
  else if uRetry ≠ 0 then PumpHub.note { s with pump := .arming t.dwUserKey uRetry true } (.rearmed t.dwUserKey)
  else if bCancel then s
  else { s with pump := .elapsed t.dwUserKey uKey }

def pumpHubStep (s : PumpHub) : PumpEv → PumpHub
  | .tick n => { s with now := s.now + n }
  | .setExtEvents bSet => { s with bExt := bSet }
  | .setTimer bOut delay key =>
    if !bOut then s.note (.setTimer E_POINTER 0)
    else if !s.bExt then s.note (.setTimer .P2PF_E_NO_SINK 0)
    else { s with calls := s.calls ++ [.entered s.now delay key] }
  | .killTimer timerId =>
    match s.timers[timerId]? with
    | none => s.note (.killTimer S_FALSE timerId)
    | some _ => { s with calls := s.calls ++ [.killing timerId] }
  | .post env key context =>
    if !s.bExt then s.note (.post .P2PF_E_NO_SINK)
    else
      let (hr, s) := s.postSelf env (msgPost s.csAddress key context)
      PumpHub.note { s with posted := if FAILED hr then s.posted else s.posted ++ [(key, context)] } (.post hr)
  | .client c env => if c ∈ s.calls then clientStep env s c else s
  | .arrive m => if m.strSource = s.csAddress then s else { s with inbox := s.inbox ++ [m] }
  | .pump m =>
    if s.pump = .idle ∧ m ∈ s.inbox then workStep { s with inbox := s.inbox.erase m } (m.work s.csAddress) else s
  | .turn nTimerID => turnStep toMsecs nTimerID s
  | .callback bCancel t =>
    if s.pump = .idle ∧ t ∈ s.kernel ∧ (bCancel || !t.bKilled) then On_PITimer bCancel t s else s

end TargetFacade
