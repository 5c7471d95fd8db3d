/-
  TargetFacade.Hub.CurMsg — the message GetMsgInfo and the field readers answer about
  (FacadeHub.cpp: CurMsgScope, Deliver, CurMsg, GetMsgInfo, RaiseEvent).

  Deliver publishes its message for the length of its callback and puts back what was published
  before. No other callback touches it. So the readers answer about the nearest message callback on
  the thread's stack, which is the innermost callback's own exactly while no other callback runs
  inside a message callback (`cur_msg_gate`).

  Callbacks nest on a thread when a handler runs the pump (Ping, Disconnect or Close on a
  caller-pumped hub) or when a call it makes raises an event (Link). Messages come on the pump
  thread only; a Disconnect on another thread tells that thread that the peer is down. Thread ids are
  not 0.
-/

import Mathlib.Logic.Function.Basic
import TargetFacade.Hub.FieldNames
import TargetFacade.Lib.Scopes

namespace TargetFacade

open Function (update)
open Runs Scopes

def P2PF_PRI_NORMAL : UInt32 := 7
def P2PF_MSG_BROADCAST : UInt32 := 0x0001
def P2PF_MSG_BOUNCES : UInt32 := 0x0002
def P2PF_MSG_WRAPPED : UInt32 := 0x0004
def P2PF_MSG_REFLECTED : UInt32 := 0x0008
def P2PF_MSG_FIELDS : UInt32 := 0x0010
def kCtrlNoBounce : UInt8 := 0x80

/-- What the readers ask of a P2PeerMsg. A getter that throws, or a NULL, is none, and FALSE where it says whether. -/
structure CurMsgData where
  Priority : Option UInt32
  AddrTag : Option UInt64
  GetDestin : Option WStr
  uiCtrl : Option UInt8
  IsWrapped : Bool
  IsReflected : Bool
  tree : ItemTree
  deriving DecidableEq, Repr

def IsNoBounce (pMsg : CurMsgData) : Bool := pMsg.uiCtrl.getD 0 &&& kCtrlNoBounce != 0

/-- A message and whether it came as a broadcast. -/
abbrev CurDelivery := CurMsgData × Bool

def msgFlags (d : CurDelivery) : UInt32 :=
  (if d.2 then P2PF_MSG_BROADCAST else 0) ||| (if IsNoBounce d.1 then 0 else P2PF_MSG_BOUNCES) |||
    (if d.1.IsWrapped then P2PF_MSG_WRAPPED else 0) ||| (if d.1.IsReflected then P2PF_MSG_REFLECTED else 0) |||
    (if d.1.tree.oFields.isSome then P2PF_MSG_FIELDS else 0)

/-- The buffer and its count, then the priority, the tag and the flags: none is NULL. -/
structure MsgInfoOut where
  destBuf : Option WStr
  destCch : Option Nat
  outPriority : Option UInt32
  outTag : Option UInt32
  outFlags : Option UInt32
  deriving DecidableEq, Repr

def GetMsgInfo (cur : Option CurDelivery) (out : MsgInfoOut) : HRESULT × MsgInfoOut :=
  match cur with
  | none => (.P2PF_E_NO_MESSAGE, out)
  | some d =>
    let out := { out with
      outPriority := out.outPriority.map fun _ => d.1.Priority.getD P2PF_PRI_NORMAL
      outTag := out.outTag.map fun _ => (d.1.AddrTag.getD 0).toUInt32
      outFlags := out.outFlags.map fun _ => msgFlags d }
    if out.destCch.isSome then
      let r := CopyOut (d.1.GetDestin.getD []) out.destBuf out.destCch
      (r.1, { out with destBuf := r.2.1, destCch := r.2.2 })
    else (S_OK, out)

/-- A call of a reader, with what it must be given. -/
inductive MsgReader where
  | info (out : MsgInfoOut)
  | count (outCount : Nat)
  | fieldName (index : Nat) (buf : Option WStr) (cch : Option Nat)
  | field (name : WStr) (buf : Option (List UInt8)) (size : Nat)

inductive MsgAnswer where
  | info (r : HRESULT × MsgInfoOut)
  | count (r : HRESULT × Option Nat)
  | fieldName (r : HRESULT × Option WStr × Option Nat)
  | field (r : HRESULT × Option (List UInt8) × Option Nat)
  deriving DecidableEq, Repr

def MsgAnswer.hr : MsgAnswer → HRESULT
  | .info r => r.1
  | .count r => r.1
  | .fieldName r => r.1
  | .field r => r.1

/-- What a reader answers when `cur` is the message it finds. -/
def MsgReader.run (cur : Option CurDelivery) : MsgReader → MsgAnswer
  | .info out => .info (GetMsgInfo cur out)
  | .count outCount => .count (GetFieldCount (cur.map (·.1.tree)) (some outCount))
  | .fieldName index buf cch => .fieldName (GetFieldName (cur.map (·.1.tree)) index buf cch)
  | .field name buf size => .field (GetField (cur.map (·.1.tree)) (some name) buf (some size))

theorem copyOut_message (value : WStr) (buf : Option WStr) (cch : Option Nat) : (CopyOut value buf cch).1 ≠ .P2PF_E_NO_MESSAGE := by
  unfold CopyOut
  cases cch with
  | none => exact HRESULT.noConfusion
  | some n =>
    cases buf with
    | none => exact HRESULT.noConfusion
    | some text =>
      simp only
      split
      · exact HRESULT.noConfusion
      · exact HRESULT.noConfusion

theorem copyOutBytes_message (value : List UInt8) (buf : Option (List UInt8)) (size : Option Nat) :
    (CopyOutBytes value buf size).1 ≠ .P2PF_E_NO_MESSAGE := by
  unfold CopyOutBytes
  cases size with
  | none => exact HRESULT.noConfusion
  | some n =>
    cases buf with
    | none => exact HRESULT.noConfusion
    | some bytes =>
      simp only
      split
      · exact HRESULT.noConfusion
      · exact HRESULT.noConfusion

/-- The readers say that there is no message exactly when there is none. -/
theorem run_message (cur : Option CurDelivery) (r : MsgReader) : (r.run cur).hr ≠ .P2PF_E_NO_MESSAGE ↔ cur.isSome = true := by
  cases cur with
  | none =>
    refine iff_of_false (fun h => h ?_) Bool.false_ne_true
    cases r <;> rfl
  | some d =>
    refine iff_of_true ?_ rfl
    cases r with
    | info out =>
      simp only [MsgReader.run, MsgAnswer.hr, GetMsgInfo]
      split
      · exact copyOut_message _ _ _
      · exact HRESULT.noConfusion
    | count outCount => exact HRESULT.noConfusion
    | fieldName index buf cch =>
      simp only [MsgReader.run, MsgAnswer.hr, GetFieldName, Option.map_some]
      split
      · exact HRESULT.noConfusion
      · exact copyOut_message _ _ _
    | field name buf size =>
      simp only [MsgReader.run, MsgAnswer.hr, GetField, Option.map_some, Option.isNone_some, Bool.or_self, Bool.false_eq_true,
        if_false]
      split
      · exact HRESULT.noConfusion
      · exact copyOutBytes_message _ _ _

/-! ## Callbacks on the threads of a hub -/

/-- What a hub has to tell its client. -/
inductive HubNews where
  /-- A message to deliver. -/
  | message (d : CurDelivery)
  | peer (strPeer : WStr) (bUp : Bool)
  | timer (uTimerId uKey : UInt32)
  | post (uKey : UInt32) (uContext : UInt64)
  /-- RaiseEvent. -/
  | event (uCode : UInt32) (lpszPeer lpszWhat : WStr)
  deriving DecidableEq, Repr

inductive Callback where
  | OnMessage (d : CurDelivery)
  | OnMessageEx (d : CurDelivery)
  | OnPeerUp (strPeer : WStr)
  | OnPeerDown (strPeer : WStr)
  | OnTimer (uTimerId uKey : UInt32)
  | OnPost (uKey : UInt32) (uContext : UInt64)
  | OnEvent (uCode : UInt32) (lpszPeer lpszWhat : WStr)
  | OnError (lpszWhat : WStr)
  deriving DecidableEq, Repr

/-- Which of the client's callbacks is called: an extended sink's, where there is one, is called instead of
    the plain sink's. -/
def HubNews.callback (bEvents bExtEvents : Bool) : HubNews → Option Callback
  | .message d => if bExtEvents then some (.OnMessageEx d) else if bEvents then some (.OnMessage d) else none
  | .peer strPeer bUp => if bEvents then some (if bUp then .OnPeerUp strPeer else .OnPeerDown strPeer) else none
  | .timer uTimerId uKey => if bExtEvents then some (.OnTimer uTimerId uKey) else none
  | .post uKey uContext => if bExtEvents then some (.OnPost uKey uContext) else none
  | .event uCode lpszPeer lpszWhat =>
    if bExtEvents then some (.OnEvent uCode lpszPeer lpszWhat) else if bEvents then some (.OnError lpszWhat) else none

/-- The message of a message callback. -/
def Callback.message? : Callback → Option CurDelivery
  | .OnMessage d | .OnMessageEx d => some d
  | _ => none

/-- m_pCurMsg, m_bCurMsgBCast and m_lCurMsgThread. -/
structure Published where
  pCurMsg : Option CurMsgData
  bCurMsgBCast : Bool
  lCurMsgThread : UInt32
  deriving DecidableEq, Repr

def Published.nothing : Published := ⟨none, false, 0⟩

/-- What CurMsgScope sets on a thread. -/
def CurMsgScope (nThread : UInt32) (d : CurDelivery) : Published := ⟨some d.1, d.2, nThread⟩

structure CallbackHub where
  bCallerPumped : Bool
  /-- The thread that runs the pump. -/
  nPump : UInt32
  bEvents : Bool
  bExtEvents : Bool
  cur : Published
  /-- Each thread's callbacks, the innermost first, with what was published when it began. -/
  running : UInt32 → List (Callback × Published)

def CallbackHub.created (bCallerPumped : Bool) (nPump : UInt32) (bEvents : Bool) : CallbackHub :=
  ⟨bCallerPumped, nPump, bEvents, false, .nothing, fun _ => []⟩

inductive CurEv where
  | setExtEvents (bExtEvents : Bool)
  | surface (nThread : UInt32) (w : HubNews)
  /-- The innermost callback of the thread returns or throws. -/
  | leave (nThread : UInt32)

def HubNews.isEvent : HubNews → Bool
  | .event _ _ _ => true
  | _ => false

/-- MarkPeer of a Disconnect. -/
def HubNews.isDown : HubNews → Bool
  | .peer _ bUp => !bUp
  | _ => false

/-- The pump surfaces anything, again from inside a callback when the client runs it; an event is raised on any thread,
    and a peer is marked down on any that calls Disconnect. -/
def CallbackHub.maySurface (s : CallbackHub) (nThread : UInt32) (w : HubNews) : Bool :=
  if nThread == s.nPump then w.isEvent || (s.running nThread).isEmpty || s.bCallerPumped
  else w.isEvent || w.isDown

/-- What a callback publishes on its thread. -/
def Callback.publishes (nThread : UInt32) (c : Callback) : Option Published := c.message?.map (CurMsgScope nThread)

def enter (nThread : UInt32) (c : Callback) (s : CallbackHub) : CallbackHub :=
  { s with
    cur := (c.publishes nThread).getD s.cur
    running := update s.running nThread ((c, s.cur) :: s.running nThread) }

def leave (nThread : UInt32) (s : CallbackHub) : CallbackHub :=
  match s.running nThread with
  | [] => s
  | (c, prev) :: fs =>
    -- the destructor of CurMsgScope
    { s with cur := if c.message?.isSome then prev else s.cur, running := update s.running nThread fs }

def curStep (s : CallbackHub) : CurEv → CallbackHub
  | .setExtEvents bExtEvents => { s with bExtEvents := bExtEvents }
  | .surface nThread w =>
    if s.maySurface nThread w then
      match w.callback s.bEvents s.bExtEvents with
      | none => s
      | some c => enter nThread c s
    else s
  | .leave nThread => leave nThread s

/-- CurMsg on a thread, and whether it came as a broadcast. -/
def CurMsg (nThread : UInt32) (s : CallbackHub) : Option CurDelivery :=
  if s.cur.lCurMsgThread = nThread then s.cur.pCurMsg.map (·, s.cur.bCurMsgBCast) else none

/-- The message of the callback that runs innermost on a thread. -/
def CallbackHub.Innermost (s : CallbackHub) (nThread : UInt32) : Option CurDelivery :=
  match s.running nThread with
  | [] => none
  | (c, _) :: _ => c.message?

/-- On every thread the readers answer something other than that there is no message exactly when the innermost
    callback is a message callback, and then they answer about its message. -/
def CurMsgAgrees (s : CallbackHub) : Prop :=
  ∀ nThread, nThread ≠ 0 → ∀ r : MsgReader,
    ((r.run (CurMsg nThread s)).hr ≠ .P2PF_E_NO_MESSAGE ↔ (s.Innermost nThread).isSome = true) ∧
      r.run (CurMsg nThread s) = r.run (s.Innermost nThread)

/-- No callback but a message callback begins inside a message callback. -/
def CurEv.Alone (s : CallbackHub) : CurEv → Prop
  | .surface nThread w => s.maySurface nThread w = true → ∀ c, w.callback s.bEvents s.bExtEvents = some c →
      c.message? = none → ∀ x ∈ s.running nThread, x.1.message? = none
  | _ => True

/-! ## What is published -/

/-- Messages run on the pump thread, and what is published is its nearest message callback's. -/
structure CurInv (s : CallbackHub) : Prop where
  pump : s.nPump ≠ 0
  stack : Scoped (Callback.publishes s.nPump) .nothing s.cur (s.running s.nPump)
  others : ∀ nThread, nThread ≠ s.nPump → ∀ x ∈ s.running nThread, x.1.message? = none

theorem publishes_none {nThread : UInt32} {c : Callback} : c.publishes nThread = none ↔ c.message? = none := Option.map_eq_none_iff

theorem curInv_enter {s : CallbackHub} (hi : CurInv s) {nThread : UInt32} {c : Callback}
    (hpump : c.message? ≠ none → nThread = s.nPump)
    (halone : c.message? = none → ∀ x ∈ s.running nThread, x.1.message? = none) : CurInv (enter nThread c s) := by
  by_cases ht : nThread = s.nPump
  · subst ht
    constructor
    · exact hi.pump
    · have hpush := hi.stack.push fun hc x hx => publishes_none.mpr (halone (publishes_none.mp hc) x hx)
      show Scoped _ _ _ (update s.running s.nPump _ s.nPump)
      rw [Function.update_self]
      exact hpush
    · intro t ht
      have ht : t ≠ s.nPump := ht
      show ∀ x ∈ update s.running s.nPump _ t, _
      rw [Function.update_of_ne ht]
      exact hi.others t ht
  · have hc : c.message? = none := Classical.not_not.mp (mt hpump ht)
    constructor
    · exact hi.pump
    · show Scoped _ _ ((c.publishes nThread).getD s.cur) (update s.running nThread _ s.nPump)
      rw [Function.update_of_ne (Ne.symm ht), publishes_none.mpr hc]
      exact hi.stack
    · intro t ht x hx
      change x ∈ update s.running nThread _ t at hx
      by_cases he : t = nThread
      · subst he
        rw [Function.update_self] at hx
        rcases List.mem_cons.mp hx with rfl | hx
        · exact hc
        · exact hi.others t ht x hx
      · rw [Function.update_of_ne he] at hx
        exact hi.others t ht x hx

theorem curInv_leave {s : CallbackHub} (hi : CurInv s) (nThread : UInt32) : CurInv (leave nThread s) := by
  unfold leave
  split
  · exact hi
  rename_i c prev fs hfs
  by_cases ht : nThread = s.nPump
  · subst ht
    constructor
    · exact hi.pump
    · have hpop := (hfs ▸ hi.stack).pop
      have hsome : (c.publishes s.nPump).isSome = c.message?.isSome := Option.isSome_map ..
      rw [hsome] at hpop
      show Scoped _ _ _ (update s.running s.nPump fs s.nPump)
      rw [Function.update_self]
      exact hpop
    · intro t ht
      show ∀ x ∈ update s.running s.nPump fs t, _
      rw [Function.update_of_ne ht]
      exact hi.others t ht
  · have hc : c.message? = none := hi.others nThread ht (c, prev) (by rw [hfs]; exact List.mem_cons_self)
    constructor
    · exact hi.pump
    · show Scoped _ _ (if c.message?.isSome then prev else s.cur) (update s.running nThread fs s.nPump)
      rw [Function.update_of_ne (Ne.symm ht), hc]
      exact hi.stack
    · intro t ht x hx
      change x ∈ update s.running nThread fs t at hx
      by_cases he : t = nThread
      · subst he
        rw [Function.update_self] at hx
        exact hi.others t ht x (by rw [hfs]; exact List.mem_cons_of_mem _ hx)
      · rw [Function.update_of_ne he] at hx
        exact hi.others t ht x hx

/-- A message is surfaced on the pump thread only. -/
theorem message_pump {s : CallbackHub} {nThread : UInt32} {w : HubNews} {c : Callback} (hmay : s.maySurface nThread w = true)
    (hw : w.callback s.bEvents s.bExtEvents = some c) (hc : c.message? ≠ none) : nThread = s.nPump := by
  have helse : (w.isEvent || w.isDown) = false := by
    cases w with
    | message d => rfl
    | peer | timer | post | event =>
      simp only [HubNews.callback] at hw
      repeat' split at hw
      all_goals cases hw
      all_goals exact absurd rfl hc
  by_contra hne
  unfold CallbackHub.maySurface at hmay
  rw [if_neg (by simpa using hne), helse] at hmay
  cases hmay

theorem curInv_step (s : CallbackHub) (e : CurEv) (hi : CurInv s) (he : e.Alone s) : CurInv (curStep s e) := by
  cases e with
  | setExtEvents bExtEvents => exact ⟨hi.pump, hi.stack, hi.others⟩
  | surface nThread w =>
    unfold curStep
    simp only
    split
    case isFalse => exact hi
    rename_i hmay
    split
    · exact hi
    · rename_i c hw
      exact curInv_enter hi (message_pump hmay hw) (he hmay c hw)
  | leave nThread => exact curInv_leave hi nThread

theorem innermost_own (s : CallbackHub) : own (Callback.publishes s.nPump) (s.running s.nPump) =
    (s.Innermost s.nPump).map (CurMsgScope s.nPump) := by
  unfold own CallbackHub.Innermost
  cases s.running s.nPump <;> rfl

/-- While the nearest message callback is the innermost callback, CurMsg is its message. -/
theorem curMsg_innermost {s : CallbackHub} (hi : CurInv s) {nThread : UInt32} (h0 : nThread ≠ 0) :
    CurMsg nThread s = s.Innermost nThread := by
  have hcur : s.cur = ((s.Innermost s.nPump).map (CurMsgScope s.nPump)).getD .nothing := by
    rw [hi.stack.cur, nearest_exposed hi.stack.exposed, innermost_own]
  unfold CurMsg
  rw [hcur]
  by_cases ht : nThread = s.nPump
  · subst ht
    cases s.Innermost s.nPump with
    | none => exact if_neg (Ne.symm h0)
    | some d => exact if_pos rfl
  · have hnone : s.Innermost nThread = none := by
      unfold CallbackHub.Innermost
      cases hfs : s.running nThread with
      | nil => rfl
      | cons x fs => exact hi.others nThread ht x (by rw [hfs]; exact List.mem_cons_self)
    rw [hnone]
    cases s.Innermost s.nPump with
    | none => exact if_neg (Ne.symm h0)
    | some d => exact if_neg (Ne.symm ht)

theorem agrees_of_inv {s : CallbackHub} (hi : CurInv s) : CurMsgAgrees s := by
  intro nThread h0 r
  rw [curMsg_innermost hi h0]
  exact ⟨run_message _ r, rfl⟩

theorem innermost_enter (nThread : UInt32) (c : Callback) (s : CallbackHub) :
    (enter nThread c s).Innermost nThread = c.message? := by
  have hself : (enter nThread c s).running nThread = (c, s.cur) :: s.running nThread := Function.update_self ..
  unfold CallbackHub.Innermost
  rw [hself]

/-- A callback that begins inside a message callback and is none is told of the outer message. -/
theorem not_agrees_enter {s : CallbackHub} (hi : CurInv s) {nThread : UInt32} {c : Callback} (hc : c.message? = none)
    (h : ∃ x ∈ s.running nThread, x.1.message? ≠ none) : ¬ CurMsgAgrees (enter nThread c s) := by
  obtain ⟨x, hx, hmsg⟩ := h
  have ht : nThread = s.nPump := Classical.not_not.mp fun ht => hmsg (hi.others nThread ht x hx)
  subst ht
  intro hagrees
  have hinner : (enter s.nPump c s).Innermost s.nPump = none := (innermost_enter s.nPump c s).trans hc
  have hcur : ∃ d, (enter s.nPump c s).cur = CurMsgScope s.nPump d := by
    obtain ⟨y, -, hy⟩ := @nearest_set _ _ (Callback.publishes s.nPump) .nothing _ ⟨x, hx, mt publishes_none.mp hmsg⟩
    rw [← hi.stack.cur] at hy
    obtain ⟨d, -, hd⟩ := Option.map_eq_some_iff.mp hy
    refine ⟨d, ?_⟩
    unfold enter
    rw [publishes_none.mpr hc]
    exact hd.symm
  obtain ⟨d, hd⟩ := hcur
  have hsome : (CurMsg s.nPump (enter s.nPump c s)).isSome = true := by
    unfold CurMsg
    rw [hd]
    exact congrArg Option.isSome (if_pos rfl)
  have hgate := (hagrees s.nPump hi.pump (.count 0)).1.mp ((run_message _ _).mpr hsome)
  rw [hinner] at hgate
  cases hgate

/-- The readers describe the innermost callback's own message, on every thread and at every moment of a run, exactly
    when no other callback begins inside a message callback. -/
theorem cur_msg_gate (bCallerPumped : Bool) (nPump : UInt32) (hpump : nPump ≠ 0) (bEvents : Bool) (es : List CurEv) :
    Always curStep CurMsgAgrees (.created bCallerPumped nPump bEvents) es ↔
      Each curStep CurEv.Alone (.created bCallerPumped nPump bEvents) es := by
  have h0 : CurInv (.created bCallerPumped nPump bEvents) := ⟨hpump, scoped_nil, fun t _ x hx => absurd hx List.not_mem_nil⟩
  refine always_iff_each_of_inv curInv_step (fun s hi => agrees_of_inv hi) (fun s e hi hp => ?_) h0
  cases e with
  | surface nThread w =>
    intro hmay c hw hc x hx
    have hstep : curStep s (.surface nThread w) = enter nThread c s := by
      unfold curStep
      simp only [hmay, if_true, hw]
    rw [hstep] at hp
    exact Classical.not_not.mp fun hmsg => not_agrees_enter hi hc ⟨x, hx, hmsg⟩ hp
  | _ => trivial

def taggedMsg (uTag : UInt64) : CurDelivery := (⟨some 7, some uTag, some (L "hub"), some 0, false, false, ⟨none, none⟩⟩, false)

/-- Inside the first message's handler the client runs the pump, and a second is delivered and done with. -/
def nestedRun : List CurEv := [.surface 20 (.message (taggedMsg 1)), .surface 20 (.message (taggedMsg 2)), .leave 20]

theorem cur_msg_gate_nested : Always curStep CurMsgAgrees (.created true 20 true) nestedRun ∧
    CurMsg 20 (exec curStep (.created true 20 true) (nestedRun.take 2)) = some (taggedMsg 2) ∧
    CurMsg 20 (exec curStep (.created true 20 true) nestedRun) = some (taggedMsg 1) := by
  refine ⟨(cur_msg_gate true 20 (by decide) true nestedRun).mpr ?_, by decide +kernel, by decide +kernel⟩
  simp only [nestedRun, each_cons, each_nil, and_true]
  refine ⟨fun _ c hw hc => ?_, fun _ c hw hc => ?_, trivial⟩
  · cases hw
    cases hc
  · cases hw
    cases hc

/-- A timer elapses while the handler of a message runs the pump, and GetMsgInfo in OnTimer answers about the message. -/
def timerInMessageRun : List CurEv := [.setExtEvents true, .surface 20 (.message (taggedMsg 1)), .surface 20 (.timer 1 7)]

theorem timer_sees_outer_message : ¬ ∀ bCallerPumped nPump bEvents, nPump ≠ 0 → ∀ es,
    Always curStep CurMsgAgrees (.created bCallerPumped nPump bEvents) es := by
  intro h
  have hgate := ((h true 20 true (by decide) timerInMessageRun).last 20 (by decide) (.count 0)).1
  revert hgate
  decide +kernel

end TargetFacade
