/-
  TargetFacade.Network.Handlers — the handlers that C++ clients register for the kernel's event
  stream, and when they are freed (TargetFacadeFn.hpp: Network::onDiag, retire, ~Network), over
  Network.DiagSink; the result is in Network.Freed.

  A p2pf::Network has its handler's FnDiagSink in m_diag, and in m_retired those that a call from
  inside of a delivery has replaced. onDiag registers the next one and then lets the old one go:
  from inside it is retired, from outside it is freed, and all that are retired with it. Any number
  of Networks share the one sink of the process; the last one's Release is a Shutdown, which clears
  it once more, and ends the model (what comes of the FacadeNetwork is in Network.Deliveries). The
  members of a Network are not locked, so no two calls on one Network overlap. Nobody but Networks
  sets the sink.

  What holds between the steps is `HandlersInv`. A Network's handler is out of the sink once its
  call is past the exchange, and a handler that is retired is out of it for good; a call that has
  waited the deliveries out finds nobody in what its Network has. Here it is kept by the deliveries
  (`inv_frame`) and in SetDiagSink (`inSink_cases`, `inv_moved`).
-/

import Mathlib.Logic.Function.Basic
import TargetFacade.Network.DiagSink

namespace TargetFacade

open Function (update)
open OrdMap Runs

inductive HandlerPc where
  /-- In SetDiagSink. -/
  | setting
  | retiring
  /-- ~Network: in its SetDiagSink, before Release, in the SetDiagSink of Shutdown, and before the
      members are destroyed. -/
  | dtorSetting
  | releasing
  | shutting
  | destroying
  deriving DecidableEq, Repr

structure HandlerCall where
  net : Nat
  next : Option Nat
  pc : HandlerPc
  /-- A SetDiagSink of the call has seen nobody in a delivery. -/
  bQuiet : Bool
  deriving DecidableEq, Repr

structure Handlers where
  diag : DiagState
  /-- The FnDiagSinks made so far. -/
  nSinks : Nat
  /-- m_diag and m_retired of each Network. -/
  sinkOf : Nat → Option Nat
  retired : Nat → List Nat
  /-- The Networks that have their reference, and whether the last one has given it back. -/
  nets : List Nat
  bDown : Bool
  inCall : Nat → Bool
  /-- By thread. No step reads `bQuiet`. -/
  calls : Map UInt32 HandlerCall
  freed : List Nat

def Handlers.started : Handlers where
  diag := .created
  nSinks := 0
  sinkOf := fun _ => none
  retired := fun _ => []
  nets := []
  bDown := false
  inCall := fun _ => false
  calls := ∅
  freed := []

inductive HandlerEv where
  /-- A Network is made. -/
  | make (net : Nat)
  | raise (nThread : UInt32)
  | deliver (nThread : UInt32) (uSeverity : Option Nat)
  | onDiag (nThread : UInt32) (net : Nat) (fn : Bool) (mask : UInt32)
  | destroy (nThread : UInt32) (net : Nat)
  /-- The thread's next step in its call. -/
  | step (nThread : UInt32)

/-- The thread is in client code: in no delivery, or in a handler, and in no call. -/
def Handlers.Free (s : Handlers) (nThread : UInt32) : Bool :=
  (s.calls[nThread]?).isNone && (s.diag.Inside nThread || (s.diag.deliveries[nThread]?).isNone)

def Handlers.begin_ (s : Handlers) (nThread : UInt32) (c : HandlerCall) : Handlers :=
  { s with calls := s.calls.insert nThread c, inCall := update s.inCall c.net true }

def Handlers.goto (s : Handlers) (nThread : UInt32) (c : HandlerCall) (pc : HandlerPc) : Handlers :=
  { s with calls := s.calls.insert nThread { c with pc := pc } }

def Handlers.finish (s : Handlers) (nThread : UInt32) (c : HandlerCall) : Handlers :=
  { s with calls := s.calls.erase nThread, inCall := update s.inCall c.net false }

def onDiag (nThread : UInt32) (net : Nat) (fn : Bool) (mask : UInt32) (s : Handlers) : Handlers :=
  if s.Free nThread && s.nets.contains net && !s.inCall net then
    let next := if fn then some s.nSinks else none
    let diag := SetDiagSink nThread next (if fn then mask else 0) s.diag
    let s := { s with diag := diag, nSinks := if fn then s.nSinks + 1 else s.nSinks }
    if (diag.setters[nThread]?).isSome then s.begin_ nThread ⟨net, next, .setting, false⟩
    else { s with freed := s.freed ++ next.toList }
  else s

/-- ~Network, up to its first call. -/
def destroy (nThread : UInt32) (net : Nat) (s : Handlers) : Handlers :=
  if s.Free nThread && s.nets.contains net && !s.inCall net then
    if (s.sinkOf net).isSome then
      { s with diag := SetDiagSink nThread none 0 s.diag }.begin_ nThread ⟨net, none, .dtorSetting, false⟩
    else s.begin_ nThread ⟨net, none, .releasing, false⟩
  else s

/-- SetDiagSink is about to return from its wait. -/
def SinkCall.SeesNobody (c : SinkCall) (s : DiagState) : Bool :=
  match c.pc with
  | .waiting nSlice => decide (nSlice < kDiagQuiesceSlices) && s.lDiagBusy == 0
  | _ => false

/-- A step in SetDiagSink; `pc` is where the call goes on. -/
def Handlers.inSink (s : Handlers) (nThread : UInt32) (c : HandlerCall) (pc : HandlerPc) : Handlers :=
  let c := { c with bQuiet := c.bQuiet || (s.diag.setters[nThread]?).any (·.SeesNobody s.diag) }
  let s := { s with diag := diagStep s.diag (.setStep nThread) }
  s.goto nThread c (if (s.diag.setters[nThread]?).isSome then c.pc else pc)

def retire (nThread : UInt32) (c : HandlerCall) (s : Handlers) : Handlers :=
  let old := (s.sinkOf c.net).toList
  let s' := { s with sinkOf := update s.sinkOf c.net c.next }
  if s.diag.Inside nThread then
    { s' with retired := update s.retired c.net (s.retired c.net ++ old) }.finish nThread c
  else
    { s' with freed := s.freed ++ (old ++ s.retired c.net), retired := update s.retired c.net [] }.finish nThread c

def callStep (nThread : UInt32) (c : HandlerCall) (s : Handlers) : Handlers :=
  match c.pc with
  | .setting => s.inSink nThread c .retiring
  | .retiring => retire nThread c s
  | .dtorSetting => s.inSink nThread c .releasing
  | .releasing =>
    let s := { s with nets := s.nets.erase c.net }
    if s.nets.isEmpty then { s with diag := SetDiagSink nThread none 0 s.diag, bDown := true }.goto nThread c .shutting
    else s.goto nThread c .destroying
  | .shutting => s.inSink nThread c .destroying
  | .destroying =>
    { s with
      freed := s.freed ++ ((s.sinkOf c.net).toList ++ s.retired c.net)
      sinkOf := update s.sinkOf c.net none
      retired := update s.retired c.net [] }.finish nThread c

def handlerStep (s : Handlers) : HandlerEv → Handlers
  | .make net => if s.bDown || s.nets.contains net || s.inCall net then s else { s with nets := s.nets ++ [net] }
  | .raise nThread => if (s.calls[nThread]?).isSome then s else { s with diag := diagStep s.diag (.raise nThread) }
  | .deliver nThread uSeverity =>
    if (s.calls[nThread]?).isSome then s else { s with diag := diagStep s.diag (.deliver nThread uSeverity) }
  | .onDiag nThread net fn mask => onDiag nThread net fn mask s
  | .destroy nThread net => destroy nThread net s
  | .step nThread =>
    match s.calls[nThread]? with
    | none => s
    | some c => callStep nThread c s

/-! ## What the sink's steps do -/

variable {d : DiagState}

/-- The exchange, or a step that leaves the sink and the deliveries as they are. -/
theorem setStep_cases (nThread : UInt32) (x : SinkCall) (d : DiagState) :
    (x.pc = .masked ∧ setStep nThread x d =
      { d with pDiagSink := x.sink, setters := d.setters.insert nThread { x with prev := d.pDiagSink, pc := .swapped } }) ∨
    (x.pc ≠ .masked ∧ (setStep nThread x d).pDiagSink = d.pDiagSink ∧ (setStep nThread x d).deliveries = d.deliveries ∧
      (setStep nThread x d).lDiagBusy = d.lDiagBusy ∧ ((setStep nThread x d).setters = d.setters.erase nThread ∨
        ∃ nSlice, (setStep nThread x d).setters = d.setters.insert nThread { x with pc := .waiting nSlice })) := by
  unfold setStep
  cases hpc : x.pc with
  | masked => exact Or.inl ⟨rfl, rfl⟩
  | swapped =>
    refine Or.inr ⟨nofun, ?_⟩
    simp only
    split
    · exact ⟨rfl, rfl, rfl, Or.inl rfl⟩
    split
    · exact ⟨rfl, rfl, rfl, Or.inl rfl⟩
    · exact ⟨rfl, rfl, rfl, Or.inr ⟨0, rfl⟩⟩
  | waiting nSlice =>
    refine Or.inr ⟨nofun, ?_⟩
    simp only
    split
    · exact ⟨rfl, rfl, rfl, Or.inl rfl⟩
    split
    · exact ⟨rfl, rfl, rfl, Or.inl rfl⟩
    · exact ⟨rfl, rfl, rfl, Or.inr ⟨nSlice + 1, rfl⟩⟩

/-- What a delivering thread's step leaves, and what it may come to hold. -/
structure DeliverFrame (d d' : DiagState) (nThread : UInt32) : Prop where
  sink : d'.pDiagSink = d.pDiagSink
  setters : d'.setters = d.setters
  others : ∀ n, n ≠ nThread → d'.deliveries[n]? = d.deliveries[n]?
  held : ∀ k, d'.Held k → d.Held k ∨ d.pDiagSink = some k
  busy : d.lDiagBusy = d.deliveries.size → d'.lDiagBusy = d'.deliveries.size

theorem DeliverFrame.refl (d : DiagState) (nThread : UInt32) : DeliverFrame d d nThread :=
  ⟨rfl, rfl, fun _ _ => rfl, fun _ h => Or.inl h, id⟩

theorem frame_at {nThread : UInt32} {x : Delivery} (hx : d.deliveries[nThread]? = some x) {pc : DeliverPc}
    (hpc : ∀ k, pc.holds k = true → x.pc.holds k = true ∨ d.pDiagSink = some k) :
    DeliverFrame d (d.at_ nThread x pc) nThread := by
  refine ⟨rfl, rfl, fun n hn => ?_, fun k hk => ?_, fun hb => hb.trans (size_insert_of_get hx).symm⟩
  · show (d.deliveries.insert nThread { x with pc := pc })[n]? = d.deliveries[n]?
    rw [get_insert, if_neg hn.symm]
  · rcases held_insert rfl hk with h | h
    · exact (hpc k h).imp_left fun h => ⟨nThread, x, hx, h⟩
    · exact Or.inl h

theorem frame_deliver (nThread : UInt32) (uSeverity : Option Nat) (d : DiagState) :
    DeliverFrame d (diagStep d (.deliver nThread uSeverity)) nThread := by
  unfold diagStep
  simp only
  split
  · exact .refl d nThread
  rename_i x hx
  split
  · exact .refl d nThread
  unfold deliverStep
  cases hpc : x.pc with
  | counted =>
    refine frame_at hx fun k hk => Or.inr ?_
    cases hp : d.pDiagSink with
    | none =>
      rw [hp] at hk
      cases hk
    | some j =>
      rw [hp] at hk
      rw [beq_iff_eq.mp hk]
  | read pSink =>
    cases pSink with
    | none => exact frame_at hx nofun
    | some sink => exact frame_at hx fun k hk => Or.inl (by rw [hpc]; exact hk)
  | asking sink uMask =>
    simp only
    split
    · exact frame_at hx nofun
    · have hf : DeliverFrame d (d.at_ nThread x (.inside sink)) nThread := frame_at hx fun k hk => Or.inl (by rw [hpc]; exact hk)
      exact ⟨hf.sink, hf.setters, hf.others, hf.held, hf.busy⟩
  | inside sink => exact frame_at hx nofun
  | leaving =>
    refine ⟨rfl, rfl, fun n hn => ?_, fun k hk => ?_, fun hb => ?_⟩
    · show (d.deliveries.erase nThread)[n]? = d.deliveries[n]?
      rw [get_erase, if_neg hn.symm]
    · obtain ⟨n, y, hn, hy⟩ := hk
      exact Or.inl ⟨n, y, (get_of_erase hn).2, hy⟩
    · show d.lDiagBusy - 1 = (d.deliveries.erase nThread).size
      rw [size_erase_of_get hx, hb]

theorem frame_raise (nThread : UInt32) (d : DiagState) : DeliverFrame d (diagStep d (.raise nThread)) nThread := by
  unfold diagStep DeliverDiag
  simp only
  split
  · exact .refl d nThread
  · rename_i hno
    refine ⟨rfl, rfl, fun n hn => ?_, fun k hk => ?_, fun hb => ?_⟩
    · show (d.deliveries.insert nThread _)[n]? = d.deliveries[n]?
      rw [get_insert, if_neg hn.symm]
    · rcases held_insert rfl hk with h | h
      · cases h
      · exact Or.inl h
    · show d.lDiagBusy + 1 = (d.deliveries.insert nThread _).size
      rw [size_insert_of_not_mem fun h => hno (Or.inl h), hb]

/-- What the first step of SetDiagSink leaves: it is in, or was refused. -/
theorem setDiagSink_frame (nThread : UInt32) (sink : Option Nat) (mask : UInt32) (d : DiagState) :
    (SetDiagSink nThread sink mask d).pDiagSink = d.pDiagSink ∧ (SetDiagSink nThread sink mask d).deliveries = d.deliveries ∧
      (SetDiagSink nThread sink mask d).lDiagBusy = d.lDiagBusy ∧ ((SetDiagSink nThread sink mask d).setters = d.setters ∨
        (SetDiagSink nThread sink mask d).setters = d.setters.insert nThread ⟨sink, none, .masked⟩) := by
  unfold SetDiagSink
  split
  · exact ⟨rfl, rfl, rfl, Or.inl rfl⟩
  split
  · exact ⟨rfl, rfl, rfl, Or.inl rfl⟩
  · exact ⟨rfl, rfl, rfl, Or.inr rfl⟩

/-- A client clears the sink. -/
theorem setDiagSink_clears {nThread : UInt32} (hno : d.setters[nThread]? = none)
    (hin : d.Inside nThread = true ∨ d.deliveries[nThread]? = none) :
    (SetDiagSink nThread none 0 d).setters = d.setters.insert nThread ⟨none, none, .masked⟩ := by
  unfold SetDiagSink
  rw [if_neg, if_neg (show ¬ badMask 0 = true by decide)]
  rintro (h | ⟨h, hout⟩)
  · rw [Std.ExtTreeMap.mem_iff_isSome_getElem?, hno] at h
    cases h
  · rcases hin with hin | hin
    · rw [hin] at hout
      cases hout
    · rw [Std.ExtTreeMap.mem_iff_isSome_getElem?, hin] at h
      cases h

/-! ## What holds between the steps -/

def HandlerPc.InSink : HandlerPc → Bool
  | .setting | .dtorSetting | .shutting => true
  | _ => false

/-- The call has taken the Network's handler out of the sink, if it has one. -/
def HandlerCall.Past (c : HandlerCall) (x : Option SinkCall) : Prop :=
  match c.pc with
  | .setting | .dtorSetting => ∃ y, x = some y ∧ y.pc ≠ .masked
  | _ => True

/-- The handlers of a Network. -/
def Handlers.owned (s : Handlers) (net : Nat) : List Nat := (s.sinkOf net).toList ++ s.retired net

/-- It is not registered, and nobody has it. -/
def DiagState.Away (d : DiagState) (k : Nat) : Prop := d.pDiagSink ≠ some k ∧ ¬ d.Held k

structure CallInv (s : Handlers) (nThread : UInt32) (c : HandlerCall) : Prop where
  inCall : s.inCall c.net = true
  client : s.diag.Inside nThread = true ∨ s.diag.deliveries[nThread]? = none
  fresh : ∀ k, c.next = some k → k < s.nSinks ∧ k ∉ s.freed ∧ ∀ net, k ∉ s.owned net
  sink : ∀ x, s.diag.setters[nThread]? = some x → x.sink = if c.pc = .setting then c.next else none
  there : c.pc.InSink = (s.diag.setters[nThread]?).isSome
  off : c.Past s.diag.setters[nThread]? → ∀ k, s.sinkOf c.net = some k → s.diag.pDiagSink ≠ some k
  quiet : c.bQuiet = true → c.Past s.diag.setters[nThread]? ∧ ∀ k ∈ s.owned c.net, ¬ s.diag.Held k

structure HandlersInv (s : Handlers) : Prop where
  busy : s.diag.lDiagBusy = s.diag.deliveries.size
  registered : ∀ k, s.diag.pDiagSink = some k → k < s.nSinks
  held : ∀ k, s.diag.Held k → k < s.nSinks
  freed : ∀ k ∈ s.freed, k < s.nSinks
  owned : ∀ net, ∀ k ∈ s.owned net, k < s.nSinks
  retired : ∀ net, ∀ k ∈ s.retired net, s.diag.pDiagSink ≠ some k
  calls : ∀ (nThread : UInt32) c, s.calls[nThread]? = some c → CallInv s nThread c
  alone : ∀ (m n : UInt32) b c, s.calls[m]? = some b → s.calls[n]? = some c → b.net = c.net → m = n
  distinct : ∀ (m n : UInt32) b c k, s.calls[m]? = some b → s.calls[n]? = some c → b.next = some k → c.next = some k → m = n
  outside : ∀ nThread : UInt32, s.calls[nThread]? = none → s.diag.setters[nThread]? = none
  unregistered : ∀ k ∈ s.freed, s.diag.pDiagSink ≠ some k

def Unheld (s : Handlers) : Prop := ∀ k ∈ s.freed, ¬ s.diag.Held k

/-- No handler that is freed is registered, or is read or run by a thread. -/
def HandlersSafe (s : Handlers) : Prop := ∀ k ∈ s.freed, s.diag.Away k

variable {s : Handlers} {nThread : UInt32} {c : HandlerCall}

theorem mem_owned {net k : Nat} : k ∈ s.owned net ↔ s.sinkOf net = some k ∨ k ∈ s.retired net := by
  unfold Handlers.owned
  rw [List.mem_append, Option.mem_toList]

/-- What a Network has is not registered once its call is past the exchange. -/
theorem HandlersInv.off (hi : HandlersInv s) (hc : s.calls[nThread]? = some c) (hpast : c.Past s.diag.setters[nThread]?) {k : Nat}
    (hk : k ∈ s.owned c.net) : s.diag.pDiagSink ≠ some k := by
  rcases mem_owned.mp hk with h | h
  · exact (hi.calls nThread c hc).off hpast k h
  · exact hi.retired c.net k h

/-! ## Deliveries -/

theorem inside_of_get {d d' : DiagState} (h : d'.deliveries[nThread]? = d.deliveries[nThread]?) :
    d'.Inside nThread = d.Inside nThread := by
  unfold DiagState.Inside
  rw [h]

theorem inv_frame (hi : HandlersInv s) (hc : s.calls[nThread]? = none) {d' : DiagState} (hf : DeliverFrame s.diag d' nThread) :
    HandlersInv { s with diag := d' } where
  busy := hf.busy hi.busy
  registered k hk := hi.registered k (hf.sink.symm.trans hk)
  held k hk := (hf.held k hk).elim (hi.held k) (hi.registered k)
  freed := hi.freed
  owned := hi.owned
  retired net k hk := by
    show d'.pDiagSink ≠ some k
    rw [hf.sink]
    exact hi.retired net k hk
  calls n b hb := by
    have h := hi.calls n b hb
    have hne : n ≠ nThread := by
      rintro rfl
      rw [hc] at hb
      cases hb
    have hset : d'.setters[n]? = s.diag.setters[n]? := by rw [hf.setters]
    refine ⟨h.inCall, ?_, h.fresh, fun x hx => h.sink x (hset.symm.trans hx), ?_, fun hp k hk => ?_, fun hq => ?_⟩
    · show d'.Inside n = true ∨ d'.deliveries[n]? = none
      rw [inside_of_get (hf.others n hne), hf.others n hne]
      exact h.client
    · show _ = (d'.setters[n]?).isSome
      rw [hset]
      exact h.there
    · show d'.pDiagSink ≠ some k
      rw [hf.sink]
      exact h.off (by rw [← hset]; exact hp) k hk
    · obtain ⟨hp, hno⟩ := h.quiet hq
      refine ⟨by rw [← hset] at hp; exact hp, fun k hk hheld => ?_⟩
      rcases hf.held k hheld with hh | hh
      · exact hno k hk hh
      · exact hi.off hb hp hk hh
  alone := hi.alone
  distinct := hi.distinct
  outside n hn := by
    show d'.setters[n]? = none
    rw [hf.setters]
    exact hi.outside n hn
  unregistered k hk := by
    show d'.pDiagSink ≠ some k
    rw [hf.sink]
    exact hi.unregistered k hk

/-- What a thread comes to hold is registered. -/
theorem unheld_frame (hi : HandlersInv s) (hu : Unheld s) {d' : DiagState} (hf : DeliverFrame s.diag d' nThread) :
    Unheld { s with diag := d' } := fun k hk hh => (hf.held k hh).elim (hu k hk) (hi.unregistered k hk)

/-! ## In SetDiagSink -/

theorem held_congr {d d' : DiagState} (h : d'.deliveries = d.deliveries) (k : Nat) : d'.Held k ↔ d.Held k := by
  unfold DiagState.Held
  rw [h]

/-- Another thread's call, while this one moves in SetDiagSink. -/
theorem CallInv.other {n : UInt32} {b : HandlerCall} (h : CallInv s n b) {d' : DiagState} (calls : Map UInt32 HandlerCall)
    (hset : d'.setters[n]? = s.diag.setters[n]?) (hdel : d'.deliveries = s.diag.deliveries)
    (hsink : b.Past s.diag.setters[n]? → ∀ k, s.sinkOf b.net = some k → d'.pDiagSink ≠ some k) :
    CallInv { s with diag := d', calls := calls } n b := by
  refine ⟨h.inCall, ?_, h.fresh, fun x hx => h.sink x (hset.symm.trans hx), ?_, fun hp k hk => ?_, fun hq => ?_⟩
  · show d'.Inside n = true ∨ d'.deliveries[n]? = none
    rw [inside_of_get (congrArg (·[n]?) hdel), hdel]
    exact h.client
  · show _ = (d'.setters[n]?).isSome
    rw [hset]
    exact h.there
  · exact hsink (by rw [← hset]; exact hp) k hk
  · obtain ⟨hp, hno⟩ := h.quiet hq
    exact ⟨by rw [← hset] at hp; exact hp, fun k hk => mt (held_congr hdel k).mp (hno k hk)⟩

/-- A thread's call goes on, with the same handlers, and the sink is what it was, nothing, or the call's own. -/
theorem inv_moved (hi : HandlersInv s) (hc : s.calls[nThread]? = some c) {d' : DiagState} {pc : HandlerPc} {bQuiet : Bool}
    (hdel : d'.deliveries = s.diag.deliveries) (hbusy : d'.lDiagBusy = s.diag.lDiagBusy)
    (hsets : ∀ n, n ≠ nThread → d'.setters[n]? = s.diag.setters[n]?)
    (hsink : ∀ k, d'.pDiagSink = some k → s.diag.pDiagSink = some k ∨ c.next = some k)
    (hown : CallInv { s with diag := d', calls := s.calls.insert nThread { c with pc := pc, bQuiet := bQuiet } } nThread
      { c with pc := pc, bQuiet := bQuiet }) :
    HandlersInv { s with diag := d', calls := s.calls.insert nThread { c with pc := pc, bQuiet := bQuiet } } := by
  have hfresh {k : Nat} (hk : d'.pDiagSink = some k) {net : Nat} (hin : k ∈ s.owned net) : s.diag.pDiagSink = some k :=
    (hsink k hk).resolve_right fun hn => ((hi.calls nThread c hc).fresh k hn).2.2 net hin
  have hold {n : UInt32} {b : HandlerCall} (hb : (s.calls.insert nThread { c with pc := pc, bQuiet := bQuiet })[n]? = some b) :
      ∃ a, s.calls[n]? = some a ∧ a.net = b.net ∧ a.next = b.next := by
    rcases get_of_insert hb with ⟨rfl, rfl⟩ | ⟨-, hb⟩
    · exact ⟨c, hc, rfl, rfl⟩
    · exact ⟨b, hb, rfl, rfl⟩
  refine ⟨?_, fun k hk => ?_, fun k hk => hi.held k ((held_congr hdel k).mp hk), hi.freed, hi.owned, fun net k hk hr => ?_,
    fun n b hb => ?_, fun m n a b ha hb he => ?_, fun m n a b k ha hb hka hkb => ?_, fun n hn => ?_, fun k hk hr => ?_⟩
  · show d'.lDiagBusy = d'.deliveries.size
    rw [hbusy, hdel, hi.busy]
  · rcases hsink k hk with h | h
    · exact hi.registered k h
    · exact ((hi.calls nThread c hc).fresh k h).1
  · exact hi.retired net k hk (hfresh hr (mem_owned.mpr (Or.inr hk)))
  · rcases get_of_insert hb with ⟨rfl, rfl⟩ | ⟨hne, hb⟩
    · exact hown
    · refine (hi.calls n b hb).other _ (hsets n hne.symm) hdel fun hp k hk hr => ?_
      exact (hi.calls n b hb).off hp k hk (hfresh hr (mem_owned.mpr (Or.inl hk)))
  · obtain ⟨a', ha', hna, -⟩ := hold ha
    obtain ⟨b', hb', hnb, -⟩ := hold hb
    exact hi.alone m n a' b' ha' hb' (by rw [hna, hnb, he])
  · obtain ⟨a', ha', -, hxa⟩ := hold ha
    obtain ⟨b', hb', -, hxb⟩ := hold hb
    exact hi.distinct m n a' b' k ha' hb' (hxa.trans hka) (hxb.trans hkb)
  · have hn : (s.calls.insert nThread { c with pc := pc, bQuiet := bQuiet })[n]? = none := hn
    rw [get_insert] at hn
    split at hn
    · cases hn
    · rename_i hne
      exact (hsets n (Ne.symm hne)).trans (hi.outside n hn)
  · rcases hsink k hr with h | h
    · exact hi.unregistered k hk h
    · exact ((hi.calls nThread c hc).fresh k h).2.1 hk

theorem unheld_moved (hu : Unheld s) {d' : DiagState} (hdel : d'.deliveries = s.diag.deliveries) : ∀ k ∈ s.freed, ¬ d'.Held k :=
  fun k hk => mt (held_congr hdel k).mp (hu k hk)

theorem past_of_not_masked {x : SinkCall} (hx : x.pc ≠ .masked) : c.Past (some x) := by
  unfold HandlerCall.Past
  cases c.pc with
  | setting => exact ⟨x, rfl, hx⟩
  | dtorSetting => exact ⟨x, rfl, hx⟩
  | _ => trivial

theorem past_of_out {pc : HandlerPc} {bQuiet : Bool} {x : Option SinkCall} (hpc : pc.InSink = false) :
    HandlerCall.Past { c with pc := pc, bQuiet := bQuiet } x := by
  cases pc with
  | setting => cases hpc
  | dtorSetting => cases hpc
  | _ => trivial

/-- What is to be registered is the call's own handler. -/
theorem next_of_sink (h : CallInv s nThread c) {x : SinkCall} (hx : s.diag.setters[nThread]? = some x) {k : Nat}
    (hk : x.sink = some k) : c.next = some k := by
  rw [h.sink x hx] at hk
  split at hk
  · exact hk
  · cases hk

/-- After the exchange the call stands where it did, and what it registered is its own. -/
theorem callInv_exchanged (h : CallInv s nThread c) (hin : c.pc.InSink = true) {x : SinkCall}
    (hx : s.diag.setters[nThread]? = some x) (calls : Map UInt32 HandlerCall) :
    CallInv { s with
      diag := { s.diag with
        pDiagSink := x.sink, setters := s.diag.setters.insert nThread { x with prev := s.diag.pDiagSink, pc := .swapped } }
      calls := calls } nThread c := by
  have hself : (s.diag.setters.insert nThread { x with prev := s.diag.pDiagSink, pc := .swapped })[nThread]? =
      some { x with prev := s.diag.pDiagSink, pc := .swapped } := by rw [get_insert, if_pos rfl]
  refine ⟨h.inCall, h.client, h.fresh, fun y hy => ?_, ?_, fun _ k hk hr => ?_, fun hq => ⟨?_, (h.quiet hq).2⟩⟩
  · obtain rfl := Option.some.inj (hself.symm.trans hy)
    exact h.sink x hx
  · show c.pc.InSink = ((s.diag.setters.insert nThread _)[nThread]?).isSome
    rw [hself]
    exact hin
  · exact (h.fresh k (next_of_sink h hx hr)).2.2 c.net (mem_owned.mpr (Or.inl hk))
  · show HandlerCall.Past c ((s.diag.setters.insert nThread _)[nThread]?)
    rw [hself]
    exact past_of_not_masked nofun

/-- Past the exchange the call waits, or is back; it is quiet if it saw nobody. -/
theorem callInv_waited (h : CallInv s nThread c) (hbusy : s.diag.lDiagBusy = s.diag.deliveries.size) (hin : c.pc.InSink = true)
    {x : SinkCall} (hx : s.diag.setters[nThread]? = some x) (hmask : x.pc ≠ .masked) {d' : DiagState}
    (hsink : d'.pDiagSink = s.diag.pDiagSink) (hdel : d'.deliveries = s.diag.deliveries) {pc' : HandlerPc}
    (hleft : d'.setters[nThread]? = none ∧ pc'.InSink = false ∨
      (∃ nSlice, d'.setters[nThread]? = some { x with pc := .waiting nSlice }) ∧ pc' = c.pc)
    (calls : Map UInt32 HandlerCall) :
    CallInv { s with diag := d', calls := calls } nThread
      { c with pc := pc', bQuiet := c.bQuiet || x.SeesNobody s.diag } := by
  have hbefore : c.Past s.diag.setters[nThread]? := by
    rw [hx]
    exact past_of_not_masked hmask
  have hpast (bQuiet : Bool) : HandlerCall.Past { c with pc := pc', bQuiet := bQuiet } d'.setters[nThread]? := by
    rcases hleft with ⟨-, hout⟩ | ⟨⟨nSlice, hself⟩, -⟩
    · exact past_of_out hout
    · rw [hself]
      exact past_of_not_masked nofun
  have hquiet (hq : (c.bQuiet || x.SeesNobody s.diag) = true) : ∀ k ∈ s.owned c.net, ¬ d'.Held k := by
    intro k hk hheld
    rw [held_congr hdel] at hheld
    rcases Bool.or_eq_true_iff.mp hq with hq | hq
    · exact (h.quiet hq).2 k hk hheld
    · have hzero : s.diag.lDiagBusy = 0 := by
        unfold SinkCall.SeesNobody at hq
        split at hq
        · exact beq_iff_eq.mp (Bool.and_eq_true_iff.mp hq).2
        · cases hq
      obtain ⟨n, y, hn, -⟩ := hheld
      rw [get_of_size_zero (hbusy.symm.trans hzero)] at hn
      cases hn
  refine ⟨h.inCall, ?_, h.fresh, fun y hy => ?_, ?_, fun _ k hk => ?_, fun hq => ⟨hpast _, hquiet hq⟩⟩
  · show d'.Inside nThread = true ∨ d'.deliveries[nThread]? = none
    rw [inside_of_get (congrArg (·[nThread]?) hdel), hdel]
    exact h.client
  · have hy : d'.setters[nThread]? = some y := hy
    rcases hleft with ⟨hself, -⟩ | ⟨⟨nSlice, hself⟩, rfl⟩
    · rw [hself] at hy
      cases hy
    · obtain rfl := Option.some.inj (hself.symm.trans hy)
      exact h.sink x hx
  · show pc'.InSink = (d'.setters[nThread]?).isSome
    rcases hleft with ⟨hself, hout⟩ | ⟨⟨nSlice, hself⟩, rfl⟩
    · rw [hself]
      exact hout
    · rw [hself]
      exact hin
  · show d'.pDiagSink ≠ some k
    rw [hsink]
    exact h.off hbefore k hk

/-- A step in SetDiagSink: the exchange, its wait, or its return. -/
theorem inSink_cases (hi : HandlersInv s) (hc : s.calls[nThread]? = some c) (hin : c.pc.InSink = true) {pc : HandlerPc}
    (hpc : pc.InSink = false) :
    ∃ (d' : DiagState) (pc' : HandlerPc) (bQuiet : Bool),
      s.inSink nThread c pc = { s with diag := d', calls := s.calls.insert nThread { c with pc := pc', bQuiet := bQuiet } } ∧
      d'.deliveries = s.diag.deliveries ∧ d'.lDiagBusy = s.diag.lDiagBusy ∧
      (∀ n, n ≠ nThread → d'.setters[n]? = s.diag.setters[n]?) ∧
      (∀ k, d'.pDiagSink = some k → s.diag.pDiagSink = some k ∨ c.next = some k) ∧
      CallInv { s with diag := d', calls := s.calls.insert nThread { c with pc := pc', bQuiet := bQuiet } } nThread
        { c with pc := pc', bQuiet := bQuiet } := by
  have h := hi.calls nThread c hc
  obtain ⟨x, hx⟩ := Option.isSome_iff_exists.mp (h.there.symm.trans hin)
  have hstep : diagStep s.diag (.setStep nThread) = setStep nThread x s.diag := by
    unfold diagStep
    simp only
    rw [hx]
  refine ⟨diagStep s.diag (.setStep nThread),
    if ((diagStep s.diag (.setStep nThread)).setters[nThread]?).isSome then c.pc else pc,
    c.bQuiet || (s.diag.setters[nThread]?).any (·.SeesNobody s.diag), rfl, ?_⟩
  rw [hstep, hx, Option.any_some]
  rcases setStep_cases nThread x s.diag with ⟨hmask, heq⟩ | ⟨hmask, hsink, hdel, hbusy, hsets⟩
  · -- the exchange
    have hseen : x.SeesNobody s.diag = false := by
      unfold SinkCall.SeesNobody
      rw [hmask]
    have hpc' : (if ((s.diag.setters.insert nThread { x with prev := s.diag.pDiagSink, pc := .swapped })[nThread]?).isSome = true
        then c.pc else pc) = c.pc := by
      rw [get_insert, if_pos rfl]
      rfl
    rw [heq]
    refine ⟨rfl, rfl, fun n hn => ?_, fun k hk => Or.inr (next_of_sink h hx hk), ?_⟩
    · show (s.diag.setters.insert nThread _)[n]? = s.diag.setters[n]?
      rw [get_insert, if_neg hn.symm]
    · simp only [hpc', hseen, Bool.or_false]
      exact callInv_exchanged h hin hx _
  · -- nothing but where it stands
    have hothers (n : UInt32) (hn : n ≠ nThread) : (setStep nThread x s.diag).setters[n]? = s.diag.setters[n]? := by
      rcases hsets with hsets | ⟨nSlice, hsets⟩
      · rw [hsets, get_erase, if_neg hn.symm]
      · rw [hsets, get_insert, if_neg hn.symm]
    refine ⟨hdel, hbusy, hothers, fun k hk => Or.inl (hsink.symm.trans hk), ?_⟩
    refine callInv_waited h hi.busy hin hx hmask hsink hdel ?_ _
    rcases hsets with hsets | ⟨nSlice, hsets⟩
    · have hself : (setStep nThread x s.diag).setters[nThread]? = none := by rw [hsets, get_erase, if_pos rfl]
      refine Or.inl ⟨hself, ?_⟩
      rw [hself]
      exact hpc
    · have hself : (setStep nThread x s.diag).setters[nThread]? = some { x with pc := .waiting nSlice } := by
        rw [hsets, get_insert, if_pos rfl]
      refine Or.inr ⟨⟨nSlice, hself⟩, ?_⟩
      rw [hself]
      rfl

end TargetFacade
