/-
  TargetFacade.Hub.Pings — Ping, its answer, and the close that waits for it (FacadeHub.cpp: Ping,
  HandlePrivate, CloseInternal).

  Each locked section, the post and the wait are a step each. A call is its thread's: it is
  named by its hub, its number there and the peer it asks, and the event it waits on is its own.
  `bPonged` and `bClosed` are what has set that event. Of CloseInternal the part up to the end of
  its drain loop is here.

  No step reads `bPosted`, `answers` or `refused`: whether the post went out, what the calls that
  got past their arguments answered, and what the others did.
-/

import TargetFacade.Hub.Private
import TargetFacade.Lib.Bag

namespace TargetFacade

open OrdMap Runs Bag

def kPingDrainSlices : Nat := 40

structure PingId where
  nHub : Nat
  nCall : Nat
  peer : WStr
  deriving DecidableEq, Repr

structure PingRow where
  /-- The event of this call. -/
  hEvent : PingId
  uSentTick : Nat
  uMillisecs : UInt32
  bAnswered : Bool
  deriving DecidableEq, Repr

/-- Where a call of Ping stands. -/
inductive PingPc where
  /-- Past its arguments, its event created. -/
  | checked
  /-- Its row is there, its message is still to post. -/
  | registered (uId : UInt32)
  | waiting (uId : UInt32)
  /-- Done waiting, its row still to take out. -/
  | leaving (uId : UInt32) (hr : HRESULT)
  deriving DecidableEq, Repr

structure PingCall where
  id : PingId
  pc : PingPc
  bPonged : Bool
  bClosed : Bool
  bPosted : Bool
  deriving DecidableEq, Repr

/-- Where CloseInternal stands. -/
inductive DrainPc where
  | open_
  | draining (nSlice : Nat)
  /-- The loop has seen the map empty. -/
  | drained
  /-- The budget has run out. -/
  | expired
  deriving DecidableEq, Repr

structure PingAnswer where
  call : PingCall
  hr : HRESULT
  outMillisecs : UInt32
  deriving DecidableEq, Repr

structure PingHub where
  nHub : Nat
  oAddress : HubAddress
  now : Nat
  nBegun : Nat
  bClosing : Bool
  uNextPingId : UInt32
  pings : Map UInt32 PingRow
  calls : List PingCall
  drain : DrainPc
  answers : List PingAnswer
  refused : List (PingId × HRESULT)

def PingHub.created (nHub : Nat) (oAddress : HubAddress) (now : Nat) : PingHub where
  nHub := nHub
  oAddress := oAddress
  now := now
  nBegun := 0
  bClosing := false
  uNextPingId := 0
  pings := ∅
  calls := []
  drain := .open_
  answers := []
  refused := []

inductive PingEv where
  | tick (n : Nat)
  /-- Up to the locked section. The flags are whether outMillisecs is there, whether this is a thread
      that may not wait here, and whether the event was created. -/
  | begin (peer : Option WStr) (bOut bPumpThread bEvent : Bool)
  /-- A call's next step; `bExpired` is whether its budget has run out. -/
  | client (c : PingCall) (env : PostEnv) (bExpired : Bool)
  /-- The pump takes an answer. -/
  | pong (uPingId : UInt32)
  | close
  /-- CloseInternal looks at the map once more. -/
  | slice

/-! ## The steps of a Ping -/

/-- What Ping says to its arguments. -/
def PingArgs (peer : Option WStr) (bOut bPumpThread bEvent : Bool) : HRESULT :=
  match peer with
  | none => E_POINTER
  | some peer =>
    if !bOut then E_POINTER
    else if peer.isEmpty then E_INVALIDARG
    else if bPumpThread then P2PF_E_PUMP_THREAD
    else if !bEvent then .E_OUTOFMEMORY
    else S_OK

def PingBegin (peer : Option WStr) (bOut bPumpThread bEvent : Bool) (s : PingHub) : PingHub :=
  let id : PingId := ⟨s.nHub, s.nBegun, peer.getD []⟩
  let hr := PingArgs peer bOut bPumpThread bEvent
  if FAILED hr then { s with nBegun := s.nBegun + 1, refused := s.refused ++ [(id, hr)] }
  else { s with nBegun := s.nBegun + 1, calls := s.calls ++ [⟨id, .checked, false, false, false⟩] }

def PingHub.answer (s : PingHub) (c : PingCall) (hr : HRESULT) (outMillisecs : UInt32) : PingHub :=
  { s with calls := s.calls.erase c, answers := s.answers ++ [⟨c, hr, outMillisecs⟩] }

def PingHub.goto (s : PingHub) (c c' : PingCall) : PingHub := { s with calls := s.calls.erase c ++ [c'] }

/-- The locked section that writes the row. -/
def PingRegister (c : PingCall) (s : PingHub) : PingHub :=
  if s.bClosing then s.answer c P2PF_E_CLOSED 0
  else
    let uId := s.uNextPingId + 1
    { s.goto c { c with pc := .registered uId } with
      uNextPingId := uId
      pings := s.pings.insert uId ⟨c.id, s.now, 0, false⟩ }

def PingPost (env : PostEnv) (c : PingCall) (uId : UInt32) : HRESULT × List PostedMsg :=
  PostMsg env c.id.peer kTopicPing (some (idBody uId)) (idBody uId).length none

/-- The locked section that takes the row out, and the answer. -/
def PingLeave (c : PingCall) (uId : UInt32) (hr : HRESULT) (s : PingHub) : PingHub :=
  let row := s.pings[uId]?
  let uMillisecs := (row.map (·.uMillisecs)).getD 0
  let bAnswered := (row.map (·.bAnswered)).getD false
  let s := { s with pings := s.pings.erase uId }
  -- the event is also set by CloseInternal, which is not an answer
  if !FAILED hr && !bAnswered then s.answer c .P2PF_E_TIMEOUT 0
  else s.answer c hr (if FAILED hr then 0 else uMillisecs)

def pingClient (env : PostEnv) (bExpired : Bool) (s : PingHub) (c : PingCall) : PingHub :=
  match c.pc with
  | .checked => PingRegister c s
  | .registered uId =>
    let hr := (PingPost env c uId).1
    s.goto c (if FAILED hr then { c with pc := .leaving uId hr } else { c with pc := .waiting uId, bPosted := true })
  | .waiting uId =>
    if c.bPonged || c.bClosed then s.goto c { c with pc := .leaving uId S_OK }
    else if bExpired then s.goto c { c with pc := .leaving uId .P2PF_E_TIMEOUT }
    else s
  | .leaving uId hr => PingLeave c uId hr s

/-! ## The pump and the close -/

def PingHub.ponged (hEvent : PingId) (c : PingCall) : PingCall := if c.id = hEvent then { c with bPonged := true } else c

/-- HandlePrivate, on an answer. -/
def HandlePong (uPingId : UInt32) (s : PingHub) : PingHub :=
  match s.pings[uPingId]? with
  | none => s
  | some row =>
    if row.bAnswered then s
    else
      { s with
        pings := s.pings.insert uPingId { row with uMillisecs := UInt32.ofNat (s.now - row.uSentTick), bAnswered := true }
        calls := s.calls.map (PingHub.ponged row.hEvent) }

/-- The calls whose events are in the map. -/
def PingHub.events (s : PingHub) : List PingId := s.pings.toList.map (·.2.hEvent)

def PingHub.released (events : List PingId) (c : PingCall) : PingCall :=
  if c.id ∈ events then { c with bClosed := true } else c

/-- CloseInternal's first locked section. -/
def CloseMark (s : PingHub) : PingHub :=
  { s with bClosing := true, calls := s.calls.map (PingHub.released s.events), drain := .draining 0 }

def CloseSlice (s : PingHub) : PingHub :=
  match s.drain with
  | .draining nSlice =>
    if kPingDrainSlices ≤ nSlice then { s with drain := .expired }
    else if s.pings.isEmpty then { s with drain := .drained }
    else { s with drain := .draining (nSlice + 1) }
  | _ => s

def pingStep (s : PingHub) : PingEv → PingHub
  | .tick n => { s with now := s.now + n }
  | .begin peer bOut bPumpThread bEvent => PingBegin peer bOut bPumpThread bEvent s
  | .client c env bExpired => if c ∈ s.calls then pingClient env bExpired s c else s
  | .pong uPingId => HandlePong uPingId s
  | .close => if s.drain = .open_ then CloseMark s else s
  | .slice => CloseSlice s

end TargetFacade
