/-
  TargetFacade.Hub.PumpVerbs — the verbs that run or wait for the pump, from any thread
  (FacadeHub.cpp: OwnsPump, WaitSlice, PumpOnce, Pump, CloseCon, Disconnect, Ping, DrainCons,
  CloseInternal, Close).

  A thread holds a stack of calls, the innermost first. Each locked section and each slice of a
  wait is a step, so that calls of any threads interleave, and a call is made from a callback
  when its thread is in a turn of the pump or is telling the client that a peer went down.
  CloseHub and the join with the thread of a hub that has one are left out.

  No step reads `turns` or `retired`: which thread made each turn of the pump, and which told a
  peer's connection to destroy itself.
-/

import Mathlib.Logic.Function.Basic
import TargetFacade.Hub.Pings
import TargetFacade.Hub.Drain

namespace TargetFacade

open OrdMap
open Function (update)

def kDrainSlices : Nat := 120
def P2PmsgPump_TIMEOUT : UInt32 := 1

inductive PumpVerb where
  | pump (timeoutMillisecs : UInt32) (bWhat : Bool)
  | disconnect (peer : Option WStr)
  | ping (peer : Option WStr) (timeoutMillisecs : UInt32) (bOut : Bool)
  | close
  deriving DecidableEq, Repr

/-- Where a call stands. -/
inductive VerbPc where
  /-- In a turn of the pump. -/
  | turn
  /-- Disconnect has found its peer. -/
  | dropping (peer : WStr)
  | retracting (peer : WStr) (bWasUp : Bool)
  | signalling (peer : WStr) (bWasUp : Bool)
  | retiring (peer : WStr) (bWasUp : Bool) (nSlice : Nat)
  | dropped (peer : WStr) (bWasUp bGone : Bool)
  | telling (peer : WStr) (bGone : Bool)
  | pinging (id : PingId)
  /-- Close has taken its latch. -/
  | closing
  /-- Its waiters are told, and may still be there. -/
  | releasing
  | tearing
  | draining (bOwns : Bool) (aPeers : List WStr) (nSlice : Nat)
  | drained (bOwns : Bool)
  | deleting
  deriving DecidableEq, Repr

def VerbPc.callsBack : VerbPc → Bool
  | .turn => true
  | .telling _ _ => true
  | _ => false

structure VerbCall where
  verb : PumpVerb
  pc : VerbPc
  deriving DecidableEq, Repr

structure VerbAnswer where
  nThread : UInt32
  verb : PumpVerb
  hr : HRESULT
  /-- What its out parameter was set to. -/
  out : Option UInt32
  deriving DecidableEq, Repr

/-- What is queued for the pump. -/
inductive PumpPost where
  | msg (m : PostedMsg)
  | destroy (peer : WStr)

structure PumpedHub where
  hub : Hub
  asks : PingHub
  /-- m_nHubID: the thread whose pump this is, 0 when there is none. -/
  nHubID : UInt32
  /-- m_hThread is there. -/
  bThread : Bool
  bPumpDone : Bool
  bClosed : Bool
  /-- delete this. -/
  bDeleted : Bool
  posted : List PumpPost
  calls : UInt32 → List VerbCall
  answers : List VerbAnswer
  turns : List UInt32
  retired : List (UInt32 × WStr)

/-- A hub as it is returned to its creator on `nHubID`. -/
def PumpedHub.created (nHubID : UInt32) (nHub now : Nat) (hub : Hub) : PumpedHub where
  hub := hub
  asks := .created nHub hub.oAddress now
  nHubID := nHubID
  bThread := !hub.bCallerPumped
  bPumpDone := false
  bClosed := false
  bDeleted := false
  posted := []
  calls := fun _ => []
  answers := []
  turns := []
  retired := []

def PumpedHub.OwnsPump (s : PumpedHub) (nThread : UInt32) : Bool := s.nHubID != 0 && nThread == s.nHubID

/-- What runs on a thread. -/
def PumpedHub.runs (s : PumpedHub) (nThread : UInt32) (cs : List VerbCall) : PumpedHub :=
  { s with calls := update s.calls nThread cs }

def PumpedHub.answered (s : PumpedHub) (nThread : UInt32) (v : PumpVerb) (hr : HRESULT) (out : Option UInt32) : PumpedHub :=
  { s with answers := s.answers ++ [⟨nThread, v, hr, out⟩] }

/-- A thread's own time to make a call: it runs none, or it is in a callback. -/
def PumpedHub.mayCall (s : PumpedHub) (nThread : UInt32) : Bool :=
  !s.bDeleted && ((s.calls nThread).head?.map (·.pc.callsBack)).getD true

/-! ## The pump -/

/-- PumpOnce begins its turn. -/
def PumpOnce (nThread : UInt32) (v : PumpVerb) (s : PumpedHub) : PumpedHub :=
  { s.runs nThread (⟨v, .turn⟩ :: s.calls nThread) with turns := s.turns ++ [nThread] }

def WaitSlice (nThread : UInt32) (v : PumpVerb) (s : PumpedHub) : PumpedHub :=
  if !s.hub.bCallerPumped || !s.OwnsPump nThread || s.bPumpDone then s else PumpOnce nThread v s

inductive HubSig where
  | none
  | close
  | closeOnIdle
  | other
  deriving DecidableEq, Repr

/-- How PumpP2Pmsg ends. -/
inductive TurnEnd where
  | threw
  | returned (dwResult : UInt32) (sig : HubSig)
  deriving DecidableEq, Repr

/-- What PumpOnce makes of it: its answer, what it was, whether the pump is done and whether every connection is
    told to destroy itself. -/
def TurnEnd.read : TurnEnd → HRESULT × UInt32 × Bool × Bool
  | .threw => (P2PF_E_CLOSED, 0, true, false)
  | .returned dwResult sig =>
    if dwResult = 0 then (P2PF_E_CLOSED, 0, true, false)
    else if sig = .close then (P2PF_E_CLOSED, dwResult, true, true)
    else if sig = .closeOnIdle then (P2PF_E_CLOSED, dwResult, true, false)
    else (if dwResult = P2PmsgPump_TIMEOUT then .S_FALSE else S_OK, dwResult, false, false)

/-- A DESTROY to each of these. -/
def PumpedHub.signal (s : PumpedHub) (nThread : UInt32) (aPeers : List WStr) : PumpedHub :=
  { s with posted := s.posted ++ aPeers.map .destroy, retired := s.retired ++ aPeers.map (nThread, ·) }

/-- PumpOnce ends its turn: the call that made it goes on, and Pump's answers. -/
def PumpOnceEnd (nThread : UInt32) (r : TurnEnd) (v : PumpVerb) (cs : List VerbCall) (s : PumpedHub) : PumpedHub :=
  let (hr, dwResult, bDone, bDestroy) := r.read
  let s := { s with bPumpDone := s.bPumpDone || bDone }
  let s := if bDestroy then s.signal nThread (s.hub.cons.map (·.csPeer)) else s
  let s := s.runs nThread cs
  match v with
  | .pump _ bWhat => s.answered nThread v hr (if bWhat then some dwResult else none)
  | _ => s

/-- What a turn does. -/
inductive PumpWork where
  /-- The first of what is queued is taken. -/
  | take
  | accept (i : Nat)
  | redial (i : Nat)
  | login (i : Nat) (strThat : WStr)
  | close (i : Nat) (bRestart : Bool)
  | pong (uPingId : UInt32)
  deriving DecidableEq, Repr

def PumpWork.run (s : PumpedHub) : PumpWork → PumpedHub
  | .take => { s with posted := s.posted.tail }
  | .accept i => { s with hub := acceptCon s.hub i }
  | .redial i => { s with hub := redialCon s.hub i }
  | .login i strThat => { s with hub := loginCon s.hub i strThat }
  | .close i bRestart => { s with hub := closeCon s.hub i bRestart }
  | .pong uPingId => { s with asks := HandlePong uPingId s.asks }

/-! ## The calls -/

structure CallEnv where
  /-- The hub context is there. -/
  alive : Bool := true
  /-- CreateEvent made one. -/
  bEvent : Bool := true
  deriving DecidableEq, Repr

/-- A call, up to its first wait or lock. -/
def callVerb (env : CallEnv) (nThread : UInt32) (v : PumpVerb) (s : PumpedHub) : PumpedHub :=
  match v with
  | .pump _ bWhat =>
    let out := if bWhat then some 0 else none
    if !s.hub.bCallerPumped then s.answered nThread v .P2PF_E_NOT_PUMPED out
    else if !s.OwnsPump nThread then s.answered nThread v .P2PF_E_PUMP_OWNER out
    else if s.bPumpDone then s.answered nThread v P2PF_E_CLOSED out
    else PumpOnce nThread v s
  | .disconnect none => s.answered nThread v E_POINTER none
  | .disconnect (some peer) =>
    if peer.isEmpty then s.answered nThread v E_INVALIDARG none
    else if !s.hub.bCallerPumped && s.OwnsPump nThread then s.answered nThread v P2PF_E_PUMP_THREAD none
    else if !env.alive then s.answered nThread v P2PF_E_CLOSED none
    else if !s.hub.ConExists peer then s.answered nThread v P2PF_E_NO_PEER none
    else s.runs nThread (⟨v, .dropping peer⟩ :: s.calls nThread)
  | .ping peer _ bOut =>
    let bPumpThread := !s.hub.bCallerPumped && s.OwnsPump nThread
    let hr := PingArgs peer bOut bPumpThread env.bEvent
    let id : PingId := ⟨s.asks.nHub, s.asks.nBegun, peer.getD []⟩
    let s := { s with asks := PingBegin peer bOut bPumpThread env.bEvent s.asks }
    if FAILED hr then s.answered nThread v hr (if hr = .E_OUTOFMEMORY then some 0 else none)
    else s.runs nThread (⟨v, .pinging id⟩ :: s.calls nThread)
  | .close =>
    if s.hub.bCallerPumped && !s.OwnsPump nThread then s.answered nThread v .P2PF_E_PUMP_OWNER none
    else if s.bClosed then s.answered nThread v P2PF_E_CLOSED none
    else { s.runs nThread (⟨v, .closing⟩ :: s.calls nThread) with bClosed := true }

structure StepEnv where
  /-- The hub context is there. -/
  alive : Bool := true
  post : PostEnv
  /-- A Ping's budget has run out. -/
  bExpired : Bool

/-- Still waiting for its event. -/
def PingCall.parked (bExpired : Bool) (c : PingCall) : Bool :=
  match c.pc with
  | .waiting _ => !(c.bPonged || c.bClosed || bExpired)
  | _ => false

/-- What a Ping's next step posts. -/
def PingCall.posts (env : PostEnv) (c : PingCall) : List PumpPost :=
  match c.pc with
  | .registered uId => (PingPost env c uId).2.map .msg
  | _ => []

def pingOn (env : StepEnv) (nThread : UInt32) (v : PumpVerb) (id : PingId) (cs : List VerbCall) (s : PumpedHub) : PumpedHub :=
  match s.asks.calls.find? (·.id == id) with
  | none => s.runs nThread cs
  | some c =>
    if c.parked env.bExpired then if s.hub.bCallerPumped && s.OwnsPump nThread then WaitSlice nThread v s else s
    else
      let s := { s with asks := pingClient env.post env.bExpired s.asks c, posted := s.posted ++ c.posts env.post }
      if s.asks.calls.any (·.id == id) then s
      else
        let a := s.asks.answers.getLast?
        (s.runs nThread cs).answered nThread v ((a.map (·.hr)).getD P2PF_E_CLOSED) (a.map (·.outMillisecs))

/-- A thread's innermost call goes on, over the others. -/
def callOn (env : StepEnv) (nThread : UInt32) (c : VerbCall) (cs : List VerbCall) (s : PumpedHub) : PumpedHub :=
  let goto (s : PumpedHub) (pc : VerbPc) : PumpedHub := s.runs nThread (⟨c.verb, pc⟩ :: cs)
  match c.pc with
  | .turn => s
  | .dropping peer => goto s (.retracting peer (IsPeerUp s.hub.peers peer))
  -- CloseCon
  | .retracting peer bWasUp =>
    goto { s with hub := { s.hub with armed := s.hub.armed.erase peer } } (.signalling peer bWasUp)
  | .signalling peer bWasUp =>
    if !env.alive then goto s (.dropped peer bWasUp true)
    else goto (s.signal nThread [peer]) (.retiring peer bWasUp 0)
  | .retiring peer bWasUp nSlice =>
    if !env.alive then goto s (.dropped peer bWasUp true)
    else if kRetireSlices ≤ nSlice then goto s (.dropped peer bWasUp false)
    else if !s.hub.ConExists peer then goto s (.dropped peer bWasUp true)
    else WaitSlice nThread c.verb (goto s (.retiring peer bWasUp (nSlice + 1)))
  | .dropped peer bWasUp bGone =>
    goto { s with hub := if bWasUp then s.hub.MarkPeer peer false else s.hub } (.telling peer bGone)
  | .telling peer bGone =>
    let unretired := if bGone then s.hub.unretired.erase peer else s.hub.unretired.insert peer
    PumpedHub.answered (({ s with hub := { s.hub with unretired := unretired } } : PumpedHub).runs nThread cs) nThread c.verb
      (if bGone then S_OK else S_FALSE) none
  | .pinging id => pingOn env nThread c.verb id cs s
  -- CloseInternal
  | .closing => goto { s with asks := CloseMark s.asks } .releasing
  | .releasing =>
    let s := { s with asks := CloseSlice s.asks }
    match s.asks.drain with
    | .draining _ => WaitSlice nThread c.verb s
    | _ => goto s .tearing
  | .tearing =>
    let bOwns := s.hub.bCallerPumped && s.OwnsPump nThread
    if s.hub.bCallerPumped && s.nHubID = 0 || !s.hub.bCallerPumped && !s.bThread then goto s .deleting
    else
      let aPeers := s.hub.DrainPeers.toList
      let s := if env.alive then s.signal nThread aPeers else s
      goto { s with bThread := false } (.draining bOwns aPeers 0)
  | .draining bOwns aPeers nSlice =>
    if env.alive && nSlice < kDrainSlices && aPeers.any s.hub.ConExists then
      WaitSlice nThread c.verb (goto s (.draining bOwns aPeers (nSlice + 1)))
    else goto s (.drained bOwns)
  | .drained bOwns => goto { s with nHubID := if bOwns then 0 else s.nHubID } .deleting
  | .deleting => PumpedHub.answered ({ s with bDeleted := true }.runs nThread cs) nThread c.verb S_OK none

/-! ## Runs -/

inductive ThreadEv where
  /-- Listen or Connect, on any thread. -/
  | arm (pOwner : Option Owner) (env : ArmEnv) (toPeer : Option WStr) (endpoint : WStr) (bListen : Bool)
  | tick (n : Nat)
  | call (nThread : UInt32) (v : PumpVerb) (env : CallEnv)
  | go (nThread : UInt32) (env : StepEnv)
  /-- Something a turn of the thread does. -/
  | work (nThread : UInt32) (w : PumpWork)
  | ended (nThread : UInt32) (r : TurnEnd)

variable (inet : InetPton)

def pumpStep (s : PumpedHub) : ThreadEv → PumpedHub
  | .arm pOwner env toPeer endpoint bListen =>
    if s.bDeleted then s else { s with hub := (ArmUnified inet pOwner env toPeer endpoint bListen s.hub).2 }
  | .tick n => { s with asks := { s.asks with now := s.asks.now + n } }
  | .call nThread v env => if s.mayCall nThread then callVerb env nThread v s else s
  | .go nThread env =>
    match s.calls nThread with
    | [] => s
    | c :: cs => if s.bDeleted then s else callOn env nThread c cs s
  | .work nThread w =>
    match s.calls nThread with
    | [] => s
    | c :: _ => if s.bDeleted || c.pc != .turn then s else w.run s
  | .ended nThread r =>
    match s.calls nThread with
    | [] => s
    | c :: cs => if s.bDeleted || c.pc != .turn then s else PumpOnceEnd nThread r c.verb cs s

end TargetFacade
