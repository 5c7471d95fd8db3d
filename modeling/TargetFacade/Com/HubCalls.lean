/-
  TargetFacade.Com.HubCalls — what the methods of the COM hub and its sink do with m_pHub
  (ComHub.cpp: Live, the IP2PHubCom methods, get_SecurityInfo, Sink::OnMessage).

  A method is a program over that pointer: where it reads it, which calls of the flat hub it
  makes through what it has read, and how their answers lead it on. All but one read the pointer
  once, through Live, and keep it for all of their calls; get_SecurityInfo and Sink::OnMessage
  read it again for each. Of the arguments and the answers there is what leads a method on.
-/

import TargetFacade.Lib.SharedPtr
import TargetFacade.Hub.CurMsg

namespace TargetFacade

open SharedPtr

/-- The calls of the flat hub. -/
inductive FlatCall where
  | Listen
  | Connect
  | Send
  | SendText
  | Broadcast
  | SendEx
  | BroadcastEx
  | SendMsg
  | BroadcastMsg
  | Address
  | IsPeerUp
  | GetConCount
  | GetCon
  | GetEndpoint
  | Describe
  | Disconnect
  | SetTimer
  | KillTimer
  | Ping
  | SetConOption
  | GetConOption
  | CloseIdleCons
  | GetSecurityInfo
  | GetMsgInfo
  | GetFieldCount
  | GetFieldName
  | GetField
  deriving DecidableEq, Repr

/-- What one of them answers, as far as its caller reads it. -/
structure FlatAnswer where
  hr : HRESULT
  /-- A count, or a size. -/
  n : Nat
  uFlags : UInt32
  text : WStr
  /-- The caller finds memory for what it sizes. -/
  bRoom : Bool
  deriving DecidableEq, Repr

instance : Inhabited FlatAnswer := ⟨⟨S_OK, 0, 0, [], true⟩⟩

abbrev HubProg := Prog FlatCall FlatAnswer

/-- Live, and what its caller does with the hub. -/
def Live (k : HubProg) : HubProg := .read fun bHub => if bHub then k else .done

def callOnce (c : FlatCall) : HubProg := .call c fun _ => .done

/-- A call straight through m_pHub. -/
def through (c : FlatCall) (k : FlatAnswer → HubProg) : HubProg := .read fun _ => .call c k

def kTries : Nat := 4

/-- The size, then the text, again while it grows. -/
def BstrFromRead (c : FlatCall) : Nat → HubProg
  | 0 => .done
  | n + 1 => .call c fun size =>
      if FAILED size.hr || size.n == 0 || !size.bRoom then .done
      else .call c fun fill => if fill.hr = .ERROR_MORE_DATA then BstrFromRead c n else .done

/-- The walk over the rows, by position, until the peer's. -/
def relationRows (wszPeer : WStr) : Nat → HubProg
  | 0 => .done
  | n + 1 => .call .GetCon fun size =>
      if FAILED size.hr then .done
      else if size.n = 0 then relationRows wszPeer n
      else .call .GetCon fun row =>
        if FAILED row.hr then relationRows wszPeer n
        else if row.text = wszPeer then .done
        else relationRows wszPeer n

def SecurityInfo : HubProg := .read fun bHub =>
  if !bHub then .done
  else through .GetSecurityInfo fun a =>
    if FAILED a.hr || a.n ≤ 1 || !a.bRoom then .done else through .GetSecurityInfo fun _ => .done

/-- The named fields of a message, one after the other. -/
def queuedFields : Nat → HubProg
  | 0 => .done
  | n + 1 => through .GetFieldName fun name =>
      if FAILED name.hr then queuedFields n
      else through .GetField fun size =>
        if FAILED size.hr || size.n == 0 then queuedFields n
        else through .GetField fun _ => queuedFields n

def OnMessage : HubProg := .read fun bHub =>
  if !bHub then .done
  else through .GetMsgInfo fun info =>
    if info.uFlags &&& P2PF_MSG_FIELDS = 0 then .done
    else through .GetFieldCount fun count => queuedFields count.n

/-- The methods and the callbacks. `bOut` is whether the out parameter is there, and `bBytes` and `bFlat` whether the
    payload or the message converts. -/
inductive ComCall where
  | Listen
  | Connect
  | Send (bBytes : Bool)
  | SendText
  | Broadcast (bOut bBytes : Bool)
  | SendEx (bBytes : Bool)
  | BroadcastEx (bOut bBytes : Bool)
  | SendMsg (bFlat : Bool)
  | BroadcastMsg (bOut bFlat : Bool)
  | Address (bOut : Bool)
  | IsPeerUp (bOut : Bool)
  | RelationTo (bOut : Bool) (peer : WStr)
  | ConCount (bOut : Bool)
  | PeerAt (bOut : Bool) (index : Int)
  | EndpointFor (bOut : Bool)
  | Description (bOut : Bool)
  | Disconnect
  | SetTimer (bOut : Bool) (delayMillisecs key : Int)
  | KillTimer (timerId : Int)
  | Ping (bOut : Bool) (timeoutMillisecs : Int)
  | SetConOption (option value : Int)
  | GetConOption (bOut : Bool) (option : Int)
  | CloseIdleCons
  | SecurityInfo (bOut : Bool)
  | OnMessage
  /-- The other callbacks, which only queue, and the readers of a queued message. -/
  | other
  deriving DecidableEq, Repr

/-- A method that refuses its arguments first. -/
def given (bOk : Bool) (p : HubProg) : HubProg := if bOk then p else .done

def ComCall.prog : ComCall → HubProg
  | .Listen => Live (callOnce .Listen)
  | .Connect => Live (callOnce .Connect)
  | .Send bBytes => Live (given bBytes (callOnce .Send))
  | .SendText => Live (callOnce .SendText)
  | .Broadcast bOut bBytes => given bOut (Live (given bBytes (callOnce .Broadcast)))
  | .SendEx bBytes => Live (given bBytes (callOnce .SendEx))
  | .BroadcastEx bOut bBytes => given bOut (Live (given bBytes (callOnce .BroadcastEx)))
  | .SendMsg bFlat => Live (given bFlat (callOnce .SendMsg))
  | .BroadcastMsg bOut bFlat => given bOut (Live (given bFlat (callOnce .BroadcastMsg)))
  | .Address bOut => given bOut (Live (callOnce .Address))
  | .IsPeerUp bOut => given bOut (Live (callOnce .IsPeerUp))
  | .RelationTo bOut peer =>
    given bOut (Live (.call .GetConCount fun count => if FAILED count.hr then .done else relationRows peer count.n))
  | .ConCount bOut => given bOut (Live (callOnce .GetConCount))
  | .PeerAt bOut index => given (bOut && 0 ≤ index) (Live (BstrFromRead .GetCon kTries))
  | .EndpointFor bOut => given bOut (Live (BstrFromRead .GetEndpoint kTries))
  | .Description bOut => given bOut (Live (BstrFromRead .Describe kTries))
  | .Disconnect => Live (callOnce .Disconnect)
  | .SetTimer bOut delayMillisecs key => given (bOut && 0 ≤ delayMillisecs && 0 ≤ key) (Live (callOnce .SetTimer))
  | .KillTimer timerId => given (0 ≤ timerId) (Live (callOnce .KillTimer))
  | .Ping bOut timeoutMillisecs => given (bOut && 0 ≤ timeoutMillisecs) (Live (callOnce .Ping))
  | .SetConOption option value => given (0 ≤ option && 0 ≤ value) (Live (callOnce .SetConOption))
  | .GetConOption bOut option => given (bOut && 0 ≤ option) (Live (callOnce .GetConOption))
  | .CloseIdleCons => Live (callOnce .CloseIdleCons)
  | .SecurityInfo bOut => given bOut TargetFacade.SecurityInfo
  | .OnMessage => TargetFacade.OnMessage
  | .other => .done

/-! ## Every one tests what it reads first -/

theorem guarded_done : (Prog.done : HubProg).Guarded := ⟨rfl, fun h => h⟩

theorem guarded_read {k : Bool → HubProg} (h : k false = .done) : (Prog.read k).Guarded := by
  refine ⟨rfl, fun hr => ?_⟩
  unfold Prog.Rereads at hr
  rw [h] at hr
  rcases hr with hc | hr
  · cases hc
  · exact hr

theorem guarded_live (k : HubProg) : (Live k).Guarded := guarded_read rfl

theorem guarded_given (bOk : Bool) {p : HubProg} (h : p.Guarded) : (given bOk p).Guarded := by
  cases bOk with
  | true => exact h
  | false => exact guarded_done

theorem guarded_prog (m : ComCall) : m.prog.Guarded := by
  cases m with
  | Listen => exact guarded_live _
  | Connect => exact guarded_live _
  | Send => exact guarded_live _
  | SendText => exact guarded_live _
  | SendEx => exact guarded_live _
  | SendMsg => exact guarded_live _
  | Disconnect => exact guarded_live _
  | CloseIdleCons => exact guarded_live _
  | SecurityInfo => exact guarded_given _ (guarded_read rfl)
  | OnMessage => exact guarded_read rfl
  | other => exact guarded_done
  | _ => exact guarded_given _ (guarded_live _)

/-! ## All but two test whatever they read -/

theorem tests_live {k : HubProg} (h : k.Tests) : (Live k).Tests := by
  refine ⟨rfl, fun b => ?_⟩
  cases b with
  | true => exact h
  | false => trivial

theorem tests_once (c : FlatCall) : (callOnce c).Tests := fun _ => trivial

theorem tests_given (bOk : Bool) {p : HubProg} (h : p.Tests) : (given bOk p).Tests := by
  cases bOk with
  | true => exact h
  | false => trivial

theorem tests_bstr (c : FlatCall) (n : Nat) : (BstrFromRead c n).Tests := by
  induction n with
  | zero => trivial
  | succ n ih =>
    intro size
    simp only
    split
    · trivial
    intro fill
    simp only
    split
    · exact ih
    · trivial

theorem tests_rows (wszPeer : WStr) (n : Nat) : (relationRows wszPeer n).Tests := by
  induction n with
  | zero => trivial
  | succ n ih =>
    intro size
    simp only
    split
    · trivial
    split
    · exact ih
    intro row
    simp only
    split
    · exact ih
    split
    · trivial
    · exact ih

/-- Only get_SecurityInfo and Sink::OnMessage go back to m_pHub after their test. -/
theorem tests_prog {m : ComCall} (hs : ∀ bOut, m ≠ .SecurityInfo bOut) (hm : m ≠ .OnMessage) : m.prog.Tests := by
  have hgiven (bOut bOk : Bool) (c : FlatCall) : (given bOut (Live (given bOk (callOnce c)))).Tests :=
    tests_given bOut (tests_live (tests_given bOk (tests_once c)))
  cases m with
  | Listen => exact tests_live (tests_once _)
  | Connect => exact tests_live (tests_once _)
  | Send bBytes => exact hgiven true bBytes _
  | SendText => exact tests_live (tests_once _)
  | Broadcast bOut bBytes => exact hgiven bOut bBytes _
  | SendEx bBytes => exact hgiven true bBytes _
  | BroadcastEx bOut bBytes => exact hgiven bOut bBytes _
  | SendMsg bFlat => exact hgiven true bFlat _
  | BroadcastMsg bOut bFlat => exact hgiven bOut bFlat _
  | RelationTo bOut peer =>
    refine tests_given bOut (tests_live fun count => ?_)
    simp only
    split
    · trivial
    · exact tests_rows peer count.n
  | PeerAt => exact tests_given _ (tests_live (tests_bstr _ _))
  | EndpointFor => exact tests_given _ (tests_live (tests_bstr _ _))
  | Description => exact tests_given _ (tests_live (tests_bstr _ _))
  | Disconnect => exact tests_live (tests_once _)
  | CloseIdleCons => exact tests_live (tests_once _)
  | SecurityInfo bOut => exact absurd rfl (hs bOut)
  | OnMessage => exact absurd rfl hm
  | other => trivial
  | _ => exact tests_given _ (tests_live (tests_once _))

end TargetFacade
