/-
  TargetFacade.Hub.Routing — client messages between hubs, and the exceptions the kernel sends
  back for those nobody took (FacadeHub.cpp: PostMsg, Deliver, On_AnyTopic, On_P2PeerBCast,
  ReportDeclined, ReportBounce, RaiseEvent).

  A pump gives a message to its client, whose handler may decline it. A declined message goes on to
  the kernel's NotHandled, which posts a P2Pmsg_Exception around it to its source, as the kernel
  does for a message it cannot route. The facade reads that exception on the way past and raises
  P2PF_EVT_ROUTING_ERROR.

  The kernel is everything that happens to a message on its way: it is delivered, relayed, lost or
  found unroutable, in any order, and an exception may be answered by another one.

  - `balanced_exec`: what is on the wire and what was taken off it is what was put on it.
  - `entered_exec`: everything that happens takes what was put there before it, and does with it
    what the code does.
-/

import TargetFacade.Hub.CurMsg
import TargetFacade.Hub.Isolation
import TargetFacade.Lib.KeyLog
import TargetFacade.Lib.Ledger

namespace TargetFacade

open OrdMap Runs Ledger KeyLog

def P2PF_SEND_NO_BOUNCE : UInt32 := 0x0001
def P2PF_PRI_DEFAULT : UInt32 := 0xFFFFFFFF
def P2PF_EVT_ROUTING_ERROR : UInt32 := 0x0003

/-! ## A message, as its receiver reads it -/

/-- The message PostMsg builds. A property that was not asked for is the kernel's own. -/
def SentMsg.curMsg (m : SentMsg) : CurMsgData where
  Priority := some (match m.oMsg.pOpts with
    | some o => if o.uPriority ≠ P2PF_PRI_DEFAULT then o.uPriority.toUInt8.toUInt32 else P2PF_PRI_NORMAL
    | none => P2PF_PRI_NORMAL)
  AddrTag := some ((m.oMsg.pOpts.map MsgOpts.uTag).getD 0).toUInt64
  GetDestin := some m.oMsg.strDest
  uiCtrl := some (match m.oMsg.pOpts with
    | some o => if o.uFlags &&& P2PF_SEND_NO_BOUNCE ≠ 0 then kCtrlNoBounce else 0
    | none => 0)
  IsWrapped := false
  IsReflected := false
  tree := m.oMsg.tree

def SentMsg.NoBounce (m : SentMsg) : Bool := IsNoBounce m.curMsg

/-- What OnMessage is called with, and the message GetMsgInfo answers about meanwhile. -/
structure Handed where
  lpszSource : WStr
  lpszTopic : WStr
  aPayload : List UInt8
  cur : CurDelivery
  deriving DecidableEq, Repr

def SentMsg.handed (m : SentMsg) (d : Delivered) (bBCast : Bool) : Handed :=
  ⟨m.strSource, d.lpszTopic, d.aData, (m.curMsg, bBCast)⟩

/-- m_pEvents and m_pExtEvents are there. -/
structure Sinks where
  bEvents : Bool
  bExtEvents : Bool
  deriving DecidableEq, Repr

/-- `answer` is what OnMessageEx would answer, none when the handler throws. -/
def Deliver (s : Sinks) (answer : Option HRESULT) (h : Handed) : HRESULT × Option Handed :=
  if s.bExtEvents then (answer.getD S_OK, some h)
  else if s.bEvents then (S_OK, some h)
  else (S_OK, none)

/-! ## What a pump makes of one -/

inductive msgRESULT where
  | msgHANDLED
  | msgCONTINUE
  deriving DecidableEq, Repr

/-- What the dispatch of a message does. -/
structure Taken where
  /-- The client's callback. -/
  handed : Option Handed := none
  /-- The handler chain ends at NotHandled. -/
  bNotHandled : Bool := false
  posts : List SentMsg := []
  deriving DecidableEq, Repr

/-- What HandlePrivate posts for another hub. -/
def pongPosts (env : PostEnv) (csAddress : WStr) (m : SentMsg) : List PostedMsg :=
  match m.work csAddress with
  | .echo strTo aData => (PostMsg env strTo kTopicPong (some aData) aData.length none).2
  | _ => []

def On_AnyTopic (s : Sinks) (answer : Option HRESULT) (env : PostEnv) (csAddress : WStr) (m : SentMsg) : msgRESULT × Taken :=
  if IsReservedName m.oMsg.strName then (.msgCONTINUE, {})
  else if IsPrivateName m.oMsg.strName then (.msgHANDLED, { posts := (pongPosts env csAddress m).map (⟨csAddress, ·⟩) })
  else
    let r := Deliver s answer (m.handed ⟨m.oMsg.strName, m.oMsg.aData⟩ false)
    (if r.1 = S_FALSE ∧ m.NoBounce = false then .msgCONTINUE else .msgHANDLED, { handed := r.2 })

/-- Whether NotHandled is called. -/
def ReportDeclined (m : SentMsg) : Bool := !m.NoBounce

/-- The base handler relays the message to `children`, and the client's answer is reported after it. -/
def bcastRelay (s : Sinks) (answer : Option HRESULT) (children : List WStr) (m : SentMsg) : Taken :=
  let r := match On_P2PeerBCast m.oMsg.strName (some m.oMsg.aData) with
    | some d => Deliver s answer (m.handed d true)
    | none => (S_OK, none)
  { handed := r.2
    bNotHandled := decide (r.1 = S_FALSE) && ReportDeclined m
    posts := children.map fun strChild => ⟨m.strSource, { m.oMsg with strDest := strChild }⟩ }

/-- The facade's entry of the handler chain, and the kernel's after it. -/
def routeMsg (s : Sinks) (answer : Option HRESULT) (env : PostEnv) (children : List WStr) (csAddress : WStr) (m : SentMsg) :
    Taken :=
  let r := On_AnyTopic s answer env csAddress m
  match r.1 with
  | .msgHANDLED => r.2
  | .msgCONTINUE =>
    if m.oMsg.strName = P2Pmsg_BCast then bcastRelay s answer children m
    else if IsReservedName m.oMsg.strName then r.2
    else { r.2 with bNotHandled := true }

/-! ## Exceptions -/

/-- A message on its way: one that was posted, or an exception around one. -/
inductive NetMsg where
  | posted (m : SentMsg)
  | exception (strSource strDest strWhy : WStr) (oWrapped : NetMsg)
  deriving DecidableEq, Repr

def NetMsg.source : NetMsg → WStr
  | .posted m => m.strSource
  | .exception strSource _ _ _ => strSource

def NetMsg.dest : NetMsg → WStr
  | .posted m => m.oMsg.strDest
  | .exception _ strDest _ _ => strDest

/-- The kernel's exception for a message: it goes from where that was for to where it came from. -/
def NetMsg.bounce (x : NetMsg) (strWhy : WStr) : NetMsg := .exception x.dest x.source strWhy x

/-- It is an exception around `x`. -/
def NetMsg.wraps (y x : NetMsg) : Bool :=
  match y with
  | .posted _ => false
  | .exception _ _ _ oWrapped => decide (oWrapped = x)

def bounceText (csPeer csWhy : WStr) : WStr :=
  if csWhy.isEmpty then L "TargetFacade: a message sent to '" ++ csPeer ++ L "' came back undelivered or unhandled."
  else L "TargetFacade: a message sent to '" ++ csPeer ++ L "' came back: " ++ csWhy

def RaiseEvent (s : Sinks) (uCode : UInt32) (lpszPeer lpszWhat : WStr) : Option Callback :=
  (HubNews.event uCode lpszPeer lpszWhat).callback s.bEvents s.bExtEvents

/-- The event raised for a message that comes back: none for a bounce of a bounce. -/
def ReportBounce (s : Sinks) : NetMsg → Option Callback
  | .posted _ => none
  | .exception _ _ _ (.exception _ _ _ _) => none
  | .exception strSource _ strWhy (.posted _) =>
    RaiseEvent s P2PF_EVT_ROUTING_ERROR strSource (bounceText strSource strWhy)

/-! ## Hubs, and the messages on their way between them -/

/-- What has happened, in order. -/
inductive Happening where
  | called (a : WStr) (c : PublicCall) (hr : HRESULT) (aPosted : List SentMsg)
  | took (a : WStr) (s : Sinks) (answer : Option HRESULT) (m : SentMsg) (t : Taken) (strWhy : WStr)
  /-- An exception has reached the hub at `a`; `strAgain` is why the kernel answers it with another. -/
  | returned (a : WStr) (s : Sinks) (x : NetMsg) (event : Option Callback) (strAgain : Option WStr)
  | unroutable (x : NetMsg) (strWhy : WStr)
  | lost (x : NetMsg)

/-- What is put on its way. -/
def Happening.puts : Happening → List NetMsg
  | .called _ _ _ aPosted => aPosted.map .posted
  | .took _ _ _ m t strWhy => t.posts.map .posted ++ if t.bNotHandled then [(NetMsg.posted m).bounce strWhy] else []
  | .returned _ _ x _ strAgain => (strAgain.map x.bounce).toList
  | .unroutable x strWhy => [x.bounce strWhy]
  | .lost _ => []

def Happening.takes : Happening → List NetMsg
  | .called _ _ _ _ => []
  | .took _ _ _ m _ _ => [.posted m]
  | .returned _ _ x _ _ => [x]
  | .unroutable x _ => [x]
  | .lost x => [x]

structure RouteNet where
  hubs : Map WStr Sinks
  flight : List NetMsg
  log : List Happening

def RouteNet.start : RouteNet := ⟨∅, [], []⟩

inductive RouteEv where
  /-- A hub is created at the address, its sinks change, or it closes. -/
  | hub (a : WStr) (s : Option Sinks)
  | call (a : WStr) (c : PublicCall) (env : PostEnv)
  /-- The hub it is for takes a message off the wire. -/
  | deliver (m : SentMsg) (answer : Option HRESULT) (env : PostEnv) (children : List WStr) (strWhy : WStr)
  | back (x : NetMsg) (strAgain : Option WStr)
  | unroutable (x : NetMsg) (strWhy : WStr)
  | lose (x : NetMsg)

/-- `x` is off the wire, and what the happening puts is on it. -/
def RouteNet.pass (n : RouteNet) (x : NetMsg) (e : Happening) : RouteNet :=
  { n with flight := n.flight.erase x ++ e.puts, log := n.log ++ [e] }

variable (uWord : Nat)

def routeStep (n : RouteNet) : RouteEv → RouteNet
  | .hub a s => { n with hubs := match s with
      | some s => n.hubs.insert a s
      | none => n.hubs.erase a }
  | .call a c env =>
    if a ∈ n.hubs then
      let e := Happening.called a c (c.answer uWord env) ((c.posts uWord env).map (⟨a, ·⟩))
      { n with flight := n.flight ++ e.puts, log := n.log ++ [e] }
    else n
  | .deliver m answer env children strWhy =>
    if .posted m ∈ n.flight then
      match n.hubs[m.oMsg.strDest]? with
      | none => n
      | some s => n.pass (.posted m) (.took m.oMsg.strDest s answer m (routeMsg s answer env children m.oMsg.strDest m) strWhy)
    else n
  | .back x strAgain =>
    if x ∈ n.flight then
      match x, n.hubs[x.dest]? with
      | .exception _ strDest _ _, some s => n.pass x (.returned strDest s x (ReportBounce s x) strAgain)
      | _, _ => n
    else n
  | .unroutable x strWhy => if x ∈ n.flight then n.pass x (.unroutable x strWhy) else n
  | .lose x => if x ∈ n.flight then n.pass x (.lost x) else n

/-! ## The ledger -/

variable {uWord}

theorem balanced_pass {n : RouteNet} (h : Balanced Happening.puts Happening.takes n.flight n.log) {x : NetMsg} (hx : x ∈ n.flight)
    {e : Happening} (he : e.takes = [x]) :
    Balanced Happening.puts Happening.takes (n.pass x e).flight (n.pass x e).log := balanced_take h hx he

theorem balanced_step (n : RouteNet) (ev : RouteEv) (h : Balanced Happening.puts Happening.takes n.flight n.log) :
    Balanced Happening.puts Happening.takes (routeStep uWord n ev).flight (routeStep uWord n ev).log := by
  cases ev with
  | hub a s => exact h
  | call a c env =>
    simp only [routeStep]
    split
    · exact balanced_put h rfl
    · exact h
  | deliver m answer env children strWhy =>
    simp only [routeStep]
    split
    case isFalse => exact h
    rename_i hm
    split
    · exact h
    · exact balanced_pass h hm rfl
  | back x strAgain =>
    simp only [routeStep]
    split
    case isFalse => exact h
    rename_i hx
    split
    · exact balanced_pass h hx rfl
    · exact h
  | unroutable x strWhy =>
    simp only [routeStep]
    split
    · rename_i hx
      exact balanced_pass h hx rfl
    · exact h
  | lose x =>
    simp only [routeStep]
    split
    · rename_i hx
      exact balanced_pass h hx rfl
    · exact h

/-- What is on the wire and what was taken off it is what was put on it. -/
theorem balanced_exec (es : List RouteEv) :
    Balanced Happening.puts Happening.takes (exec (routeStep uWord) .start es).flight (exec (routeStep uWord) .start es).log :=
  have h : Always (routeStep uWord) _ .start es := always_of_inv balanced_step balanced_nil
  h.last

/-- What a happening is, after what was before it: it takes what was put on the wire, and does with it what
    the hub there does. -/
structure Entered (uWord : Nat) (earlier : List Happening) (e : Happening) : Prop where
  put : ∀ x ∈ e.takes, ∃ e' ∈ earlier, x ∈ e'.puts
  called : ∀ a c hr aPosted, e = .called a c hr aPosted → ∃ env, hr = c.answer uWord env ∧ aPosted = (c.posts uWord env).map (⟨a, ·⟩)
  took : ∀ a s answer m t strWhy, e = .took a s answer m t strWhy →
    a = m.oMsg.strDest ∧ ∃ env children, t = routeMsg s answer env children a m
  returned : ∀ a s x event strAgain, e = .returned a s x event strAgain →
    (∃ strSource strWhy oWrapped, x = .exception strSource a strWhy oWrapped) ∧ event = ReportBounce s x

theorem entered_pass {n : RouteNet} (hb : Balanced Happening.puts Happening.takes n.flight n.log) (hn : Noted (Entered uWord) n.log)
    {x : NetMsg} (hx : x ∈ n.flight) {e : Happening} (he : e.takes = [x])
    (htook : ∀ a s answer m t strWhy, e = .took a s answer m t strWhy →
      a = m.oMsg.strDest ∧ ∃ env children, t = routeMsg s answer env children a m)
    (hreturned : ∀ a s x event strAgain, e = .returned a s x event strAgain →
      (∃ strSource strWhy oWrapped, x = .exception strSource a strWhy oWrapped) ∧ event = ReportBounce s x) :
    Noted (Entered uWord) (n.pass x e).log := by
  refine noted_snoc.mpr ⟨hn, fun y hy => ?_, fun a c hr aPosted h => ?_, htook, hreturned⟩
  · rw [he] at hy
    rw [List.mem_singleton.mp hy]
    exact mem_put hb hx
  · subst h
    cases he

theorem entered_step (n : RouteNet) (ev : RouteEv)
    (h : Balanced Happening.puts Happening.takes n.flight n.log ∧ Noted (Entered uWord) n.log) :
    Balanced Happening.puts Happening.takes (routeStep uWord n ev).flight (routeStep uWord n ev).log ∧
      Noted (Entered uWord) (routeStep uWord n ev).log := by
  obtain ⟨hb, hn⟩ := h
  refine ⟨balanced_step n ev hb, ?_⟩
  cases ev with
  | hub a s => exact hn
  | call a c env =>
    simp only [routeStep]
    split
    case isFalse => exact hn
    refine noted_snoc.mpr ⟨hn, fun x hx => ?_, fun a' c' hr aPosted h => ?_, fun _ _ _ _ _ _ h => ?_, fun _ _ _ _ _ h => ?_⟩
    · cases hx
    · cases h
      exact ⟨env, rfl, rfl⟩
    · cases h
    · cases h
  | deliver m answer env children strWhy =>
    simp only [routeStep]
    split
    case isFalse => exact hn
    rename_i hm
    split
    · exact hn
    · refine entered_pass hb hn hm rfl (fun _ _ _ _ _ _ h => ?_) fun _ _ _ _ _ h => by cases h
      cases h
      exact ⟨rfl, env, children, rfl⟩
  | back x strAgain =>
    simp only [routeStep]
    split
    case isFalse => exact hn
    rename_i hx
    split
    · rename_i strSource strDest strWhy oWrapped s hs
      refine entered_pass hb hn hx rfl (fun _ _ _ _ _ _ h => by cases h) fun _ _ _ _ _ h => ?_
      cases h
      exact ⟨⟨strSource, strWhy, oWrapped, rfl⟩, rfl⟩
    · exact hn
  | unroutable x strWhy =>
    simp only [routeStep]
    split
    · rename_i hx
      exact entered_pass hb hn hx rfl (fun _ _ _ _ _ _ h => by cases h) fun _ _ _ _ _ h => by cases h
    · exact hn
  | lose x =>
    simp only [routeStep]
    split
    · rename_i hx
      exact entered_pass hb hn hx rfl (fun _ _ _ _ _ _ h => by cases h) fun _ _ _ _ _ h => by cases h
    · exact hn

theorem entered_exec (es : List RouteEv) : Noted (Entered uWord) (exec (routeStep uWord) .start es).log :=
  have h : Always (routeStep uWord) _ .start es := always_of_inv entered_step ⟨balanced_nil, noted_nil⟩
  h.last.2

end TargetFacade
