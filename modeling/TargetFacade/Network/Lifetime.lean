/-
  TargetFacade.Network.Lifetime — the one network of the process, what it starts and takes down, and
  who is in it (FacadeNetwork.cpp: P2PF_CreateNetwork, Acquire, Startup, Release, Shutdown,
  CloseAllHubs; of CreateHubEx, FacadeHub::Close, SetDiagSink and DiagCallback what a network's life
  is about).

  Actors. Clients have handles, each one reference in m_cRef. Acquire and Release run in
  s_oCSectInstance from their first step to their last; the thread in it is `owner`, and the
  others wait. The lock lets its own thread in again: Shutdown closes hubs, the CloseInternal of a
  caller-pumped hub pumps it, and a client that is called from there may call Acquire or Release
  (`callback`). A client makes and closes hubs and sets the sink through a handle, and has it until
  the call is back. The kernel hands an event to whatever its slot holds: the thread reads the slot,
  and only then goes into DeliverDiag. Those two steps take no lock and hold no reference.

  Each call into the kernel, each locked section and each exchange is a step. A CloseInternal is one
  too, and does not stop every pump: on another thread than the owner of a caller-pumped hub it only
  signals the connections, and it waits no longer than five seconds for the thread of any other. The
  addresses of hubs and the steps of one CloseInternal are in Registry.Model and Hub.Drain, the sink
  itself in Network.DiagSink.
-/

import TargetFacade.Base
import Mathlib.Logic.Function.Basic

namespace TargetFacade

open Function (update)

def ABI_VERSION : Nat := 11

def ABI_VERSION_MIN : Nat := 4

/-! ## The kernel -/

inductive KernelCall where
  | StartupP2Pmsg (ok : Bool)
  | WSAStartup (ok : Bool)
  /-- A hub's pump starts. -/
  | pump (h : Nat)
  /-- CloseInternal of the hub; `bStopped` is whether its pump has stopped. -/
  | close (h : Nat) (bStopped : Bool)
  | CleanupP2Pmsg
  | WSACleanup
  deriving DecidableEq, Repr

structure Kernel where
  bMsg : Bool
  bWsa : Bool
  /-- The hubs whose pumps were started, up to the CloseInternal that stops them. -/
  hubs : List Nat
  /-- The calls that did not fit. -/
  misfits : List KernelCall
  deriving Repr

def Kernel.down : Kernel := ⟨false, false, [], []⟩

/-- Each half is started when it is down; hubs run and close with both up; Targetcore goes when no
    hub runs, and the sockets after it. -/
def Kernel.Fits (k : Kernel) : KernelCall → Bool
  | .StartupP2Pmsg _ => !k.bMsg && !k.bWsa
  | .WSAStartup _ => k.bMsg && !k.bWsa
  | .pump _ => k.bMsg && k.bWsa
  | .close h _ => k.bMsg && k.bWsa && k.hubs.contains h
  | .CleanupP2Pmsg => k.bMsg && k.hubs.isEmpty
  | .WSACleanup => k.bWsa && !k.bMsg

def Kernel.after (k : Kernel) : KernelCall → Kernel
  | .StartupP2Pmsg ok => { k with bMsg := ok }
  | .WSAStartup ok => { k with bWsa := ok }
  | .pump h => { k with hubs := k.hubs ++ [h] }
  | .close h bStopped => if bStopped then { k with hubs := k.hubs.erase h } else k
  | .CleanupP2Pmsg => { k with bMsg := false }
  | .WSACleanup => { k with bWsa := false }

def Kernel.call (k : Kernel) (c : KernelCall) : Kernel :=
  if k.Fits c then k.after c else { k.after c with misfits := k.misfits ++ [c] }

/-! ## The process -/

/-- A FacadeNetwork. -/
structure NetObj where
  cRef : Nat
  bMsgUp : Bool
  bWsaUp : Bool
  bDiagHeld : Bool
  listHubs : List Nat
  bGone : Bool
  deriving Repr

def NetObj.new : NetObj := ⟨0, false, false, false, [], false⟩

/-- Where Shutdown stands. -/
inductive DownPc where
  /-- SetDiagSink, at `InterlockedExchange ( &m_lDiagHeld, 0 )`. -/
  | exchanging
  | giving
  | waiting
  /-- CloseAllHubs, between two hubs and in one. -/
  | closing
  | closingHub (h : Nat)
  | cleaning
  | wsaCleaning
  | deleting
  deriving DecidableEq, Repr

/-- What the thread in s_oCSectInstance does next. -/
inductive InLock where
  /-- At `if ( !s_pInstance )`. -/
  | testing
  | starting (n : Nat)
  | wsaStarting (n : Nat)
  /-- At `InterlockedIncrement ( &s_pInstance->m_cRef )`. -/
  | counting (n : Nat)
  /-- In Shutdown, of a startup that has failed or of the last Release. -/
  | down (n : Nat) (failed : Bool) (pc : DownPc)
  deriving DecidableEq, Repr

inductive SlotPc where
  /-- At Register4P2Pevents, and at `m_lDiagHeld = 1` after it. -/
  | registering
  | holding
  /-- With no sink: at the exchange of m_lDiagHeld, and at Register4P2Pevents after it. -/
  | exchanging
  | giving
  deriving DecidableEq, Repr

inductive NetAct where
  /-- At the lock. -/
  | acquiring
  | releasing (n : Nat)
  /-- CreateHubEx, before the pump, and between the pump and the list. -/
  | creating (n : Nat)
  | publishing (n h : Nat)
  /-- Before CloseInternal, of a hub that was in the list or found its address taken. -/
  | closing (n h : Nat)
  | setting (n : Nat) (pc : SlotPc)
  /-- An event's thread has the network from the slot. -/
  | called (n : Nat)
  /-- It is in m_lDiagBusy. -/
  | counted (n : Nat)
  deriving DecidableEq, Repr

inductive NetAnswer where
  | created (hr : HRESULT) (outNetwork : Option Nat)
  | released (cRef : Nat)
  deriving DecidableEq, Repr

structure NetProcess where
  /-- The networks and hubs made so far. -/
  nNets : Nat
  nHubs : Nat
  pInstance : Option Nat
  net : Nat → NetObj
  /-- The handles of clients that are not in a call. -/
  handles : Nat → Nat
  /-- The key in the kernel's slot. -/
  slot : Option Nat
  kernel : Kernel
  owner : Option InLock
  /-- Where the same thread was when it came into the lock once more, the last first. -/
  outer : List InLock
  acts : List NetAct
  answers : List NetAnswer

def NetProcess.started : NetProcess where
  nNets := 0
  nHubs := 0
  pInstance := none
  net := fun _ => .new
  handles := fun _ => 0
  slot := none
  kernel := .down
  owner := none
  outer := []
  acts := []
  answers := []

inductive LifeEv where
  | createNetwork (abiVersion : Nat)
  | release (n : Nat)
  | createHub (n : Nat)
  /-- Up to RemoveHub. -/
  | closeHub (n h : Nat)
  /-- SetDiagSink, past the exchange of the sink. -/
  | setDiagSink (n : Nat) (bSink : Bool)
  /-- The kernel raises an event, and reads the slot. -/
  | raise
  /-- The next step in s_oCSectInstance. -/
  | locked (ok : Bool)
  /-- A client that is called from the CloseInternal in Shutdown goes into the lock, which it has. -/
  | callback (a : NetAct)
  | act (a : NetAct) (ok : Bool)
  deriving DecidableEq, Repr

/-! ## The steps -/

def NetProcess.put (s : NetProcess) (a : NetAct) : NetProcess := { s with acts := s.acts ++ [a] }

def NetProcess.answer (s : NetProcess) (a : NetAnswer) : NetProcess := { s with answers := s.answers ++ [a] }

def NetProcess.give (s : NetProcess) (n : Nat) : NetProcess := { s with handles := update s.handles n (s.handles n + 1) }

def NetProcess.setNet (s : NetProcess) (n : Nat) (o : NetObj) : NetProcess := { s with net := update s.net n o }

def NetProcess.call (s : NetProcess) (c : KernelCall) : NetProcess := { s with kernel := s.kernel.call c }

def NetProcess.goto (s : NetProcess) (o : InLock) : NetProcess := { s with owner := some o }

/-- The thread leaves the lock. -/
def NetProcess.leave (s : NetProcess) : NetProcess :=
  match s.outer with
  | [] => { s with owner := none }
  | o :: rest => { s with owner := some o, outer := rest }

/-- A call through a handle, which the client does not have meanwhile. -/
def NetProcess.through (s : NetProcess) (n : Nat) (a : NetAct) : NetProcess :=
  if s.handles n = 0 then s else { s with handles := update s.handles n (s.handles n - 1) }.put a

/-- m_lDiagBusy. -/
def NetProcess.lDiagBusy (s : NetProcess) (n : Nat) : Nat := s.acts.count (.counted n)

def P2PF_CreateNetwork (abiVersion : Nat) (s : NetProcess) : NetProcess :=
  if abiVersion < ABI_VERSION_MIN ∨ ABI_VERSION < abiVersion then s.answer (.created .P2PF_E_ABI_MISMATCH none)
  else s.put .acquiring

/-- `ok`: the wait is over for its budget, or as the thread is in a delivery itself; CloseInternal has stopped the pump. -/
def Shutdown (n : Nat) (failed ok : Bool) (s : NetProcess) : DownPc → NetProcess
  | .exchanging =>
    (s.setNet n { s.net n with bDiagHeld := false }).goto
      (.down n failed (if (s.net n).bDiagHeld then .giving else .waiting))
  | .giving => { s with slot := none }.goto (.down n failed .waiting)
  | .waiting => if s.lDiagBusy n = 0 ∨ ok then s.goto (.down n failed .closing) else s
  | .closing =>
    match (s.net n).listHubs with
    | [] => s.goto (.down n failed .cleaning)
    | h :: rest => (s.setNet n { s.net n with listHubs := rest }).goto (.down n failed (.closingHub h))
  | .closingHub h => (s.call (.close h ok)).goto (.down n failed .closing)
  | .cleaning =>
    (if (s.net n).bMsgUp then (s.setNet n { s.net n with bMsgUp := false }).call .CleanupP2Pmsg else s).goto
      (.down n failed .wsaCleaning)
  | .wsaCleaning =>
    (if (s.net n).bWsaUp then (s.setNet n { s.net n with bWsaUp := false }).call .WSACleanup else s).goto
      (.down n failed .deleting)
  | .deleting =>
    (s.setNet n { s.net n with bGone := true }).leave.answer
      (if failed then .created .P2PF_E_STARTUP none else .released 0)

/-- Acquire, Startup and Shutdown. `ok`: what the kernel and Windows say. -/
def lockedStep (ok : Bool) (s : NetProcess) : InLock → NetProcess
  | .testing =>
    match s.pInstance with
    | some n => s.goto (.counting n)
    | none => { s.setNet s.nNets .new with nNets := s.nNets + 1 }.goto (.starting s.nNets)
  | .starting n =>
    ((s.setNet n { s.net n with bMsgUp := ok }).call (.StartupP2Pmsg ok)).goto
      (if ok then .wsaStarting n else .down n true .exchanging)
  | .wsaStarting n =>
    let s := (s.setNet n { s.net n with bWsaUp := ok }).call (.WSAStartup ok)
    if ok then { s with pInstance := some n }.goto (.counting n) else s.goto (.down n true .exchanging)
  | .counting n =>
    ((s.setNet n { s.net n with cRef := (s.net n).cRef + 1 }).give n).leave.answer (.created S_OK (some n))
  | .down n failed pc => Shutdown n failed ok s pc

/-- In s_oCSectInstance. -/
def Release (n : Nat) (s : NetProcess) : NetProcess :=
  let cRef := (s.net n).cRef - 1
  let s := s.setNet n { s.net n with cRef := cRef }
  if 0 < cRef then s.answer (.released cRef)
  else { s with pInstance := none }.goto (.down n false .exchanging)

/-- `s` is without the activity. -/
def callbackStep (s : NetProcess) (a : NetAct) : NetProcess :=
  match s.owner, a with
  | some (.down n failed (.closingHub h)), .acquiring =>
    { s with outer := .down n failed (.closingHub h) :: s.outer }.goto .testing
  | some (.down n failed (.closingHub h)), .releasing k =>
    if 1 < (s.net k).cRef then Release k s
    else Release k { s with outer := .down n failed (.closingHub h) :: s.outer }
  | _, _ => s.put a

/-- `s` is without the activity. -/
def netActStep (ok : Bool) (s : NetProcess) : NetAct → NetProcess
  | .acquiring => if s.owner.isSome then s.put .acquiring else s.goto .testing
  | .releasing n => if s.owner.isSome then s.put (.releasing n) else Release n s
  | .creating n => if ok then ({ s with nHubs := s.nHubs + 1 }.call (.pump s.nHubs)).put (.publishing n s.nHubs) else s.give n
  -- `ok`: the address is still free
  | .publishing n h =>
    if ok then (s.setNet n { s.net n with listHubs := (s.net n).listHubs ++ [h] }).give n else s.put (.closing n h)
  -- `ok`: the pump has stopped
  | .closing n h => (s.call (.close h ok)).give n
  | .setting n .registering => { s with slot := some n }.put (.setting n .holding)
  | .setting n .holding => (s.setNet n { s.net n with bDiagHeld := true }).give n
  | .setting n .exchanging =>
    let s' := s.setNet n { s.net n with bDiagHeld := false }
    if (s.net n).bDiagHeld then s'.put (.setting n .giving) else s'.give n
  | .setting n .giving => { s with slot := none }.give n
  | .called n => s.put (.counted n)
  | .counted _ => s

def lifeStep (s : NetProcess) : LifeEv → NetProcess
  | .createNetwork abiVersion => P2PF_CreateNetwork abiVersion s
  | .release n => s.through n (.releasing n)
  | .createHub n => s.through n (.creating n)
  | .closeHub n h =>
    if 0 < s.handles n ∧ h ∈ (s.net n).listHubs then
      (s.setNet n { s.net n with listHubs := (s.net n).listHubs.erase h }).through n (.closing n h)
    else s
  | .setDiagSink n bSink => s.through n (.setting n (if bSink then .registering else .exchanging))
  | .raise =>
    match s.slot with
    | none => s
    | some n => s.put (.called n)
  | .locked ok =>
    match s.owner with
    | none => s
    | some o => lockedStep ok s o
  | .callback a => if a ∈ s.acts then callbackStep { s with acts := s.acts.erase a } a else s
  | .act a ok => if a ∈ s.acts then netActStep ok { s with acts := s.acts.erase a } a else s

end TargetFacade
