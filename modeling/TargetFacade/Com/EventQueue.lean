/-
  TargetFacade.Com.EventQueue — the queue between a COM hub's callbacks and its dispatch thread
  (ComHub.h: HubEvent; ComHub.cpp: kMaxQueued, Push, Pop, DispatchLoop, and what Close sets of it).

  Push is two steps: what it does under m_csQueue, and the SetEvent after it. Any number of
  threads may be between the two. Pop is one step, a wait that ends is one, a Fire that returns
  is one. m_hWake is auto-reset: the wait that ends takes it. A queue begins as Init leaves it.

  The log is what has happened to the events, and no step reads it: `account_step` says of every
  step what it keeps of the account between the log and the members. `rest_settled` is where the
  dispatch thread comes to rest, and `effort_moves` that it does.

  `queue_accounts` is what holds of every run. Two things do not: between the lock and the
  SetEvent an event waits with nothing set (`push_before_wake`), and the number a report tells is a
  LONG (`report_tells`).
-/

import Mathlib.Algebra.Order.Ring.Nat
import TargetFacade.Base
import TargetFacade.Lib.KeyLog
import TargetFacade.Lib.Runs

namespace TargetFacade

open Runs

inductive HubEventKind where
  | evMessage
  | evPeerUp
  | evPeerDown
  | evError
  | evEvent
  | evTimer
  deriving DecidableEq, Repr

structure Com.HubEvent where
  kind : HubEventKind
  /-- Source, peer, or what. -/
  a : WStr
  /-- Topic, or what. -/
  b : WStr
  payload : List UInt8
  broadcast : Bool
  n1 : Int32
  n2 : Int32
  msgDest : WStr
  msgPriority : Int32
  msgTag : Int32
  msgFlags : Int32
  fields : List (WStr × List UInt8)
  deriving DecidableEq, Repr

def Com.HubEvent.created : Com.HubEvent where
  kind := .evError
  a := []
  b := []
  payload := []
  broadcast := false
  n1 := 0
  n2 := 0
  msgDest := []
  msgPriority := 7
  msgTag := 0
  msgFlags := 0
  fields := []

/-- `%ld`. -/
def fmtLD (n : Int32) : WStr := if n.toInt < 0 then 45 :: fmtU n.toInt.natAbs else fmtU n.toInt.natAbs

def kMaxQueued : Nat := 4096

/-- What Pop hands out: an event it takes off the queue, or the gap it reports. -/
inductive Popped where
  | queued (ev : Com.HubEvent)
  | gap (cDropped : Int32)
  deriving DecidableEq, Repr

def Popped.ev : Popped → Com.HubEvent
  | .queued ev => ev
  | .gap cDropped =>
    { Com.HubEvent.created with a := fmtLD cDropped ++ L " event(s) dropped: the event sink could not keep up" }

inductive DispatchPc where
  /-- At WaitForSingleObject. -/
  | waiting
  /-- About to Pop. -/
  | popping
  /-- In Fire. -/
  | firing (p : Popped)
  /-- Pop had nothing; about to look at m_lQuit. -/
  | checking
  | left
  deriving DecidableEq, Repr

inductive QueueNote where
  | accepted (ev : Com.HubEvent)
  | dropped (ev : Com.HubEvent)
  | popped (p : Popped)
  | fired (p : Popped)
  deriving DecidableEq, Repr

structure ComQueue where
  queue : List Com.HubEvent
  cDropped : Int32
  /-- m_hWake is set. -/
  hWake : Bool
  /-- How many are past their lock and set m_hWake next. -/
  waking : Nat
  lQuit : Bool
  pc : DispatchPc
  log : List QueueNote
  deriving DecidableEq, Repr

def ComQueue.created : ComQueue where
  queue := []
  cDropped := 0
  hWake := false
  waking := 0
  lQuit := false
  pc := .waiting
  log := []

/-- Push, up to its Unlock. -/
def Push (ev : Com.HubEvent) (s : ComQueue) : ComQueue :=
  if kMaxQueued ≤ s.queue.length then { s with cDropped := s.cDropped + 1, log := s.log ++ [.dropped ev] }
  else { s with queue := s.queue ++ [ev], waking := s.waking + 1, log := s.log ++ [.accepted ev] }

def Pop (s : ComQueue) : Option Popped × ComQueue :=
  match s.queue with
  | ev :: rest => (some (.queued ev), { s with queue := rest })
  | [] => if s.cDropped != 0 then (some (.gap s.cDropped), { s with cDropped := 0 }) else (none, s)

/-- The next step of DispatchLoop. -/
def DispatchLoop (s : ComQueue) : ComQueue :=
  match s.pc with
  | .waiting => if s.hWake then { s with hWake := false, pc := .popping } else s
  | .popping =>
    match Pop s with
    | (some p, s') => { s' with pc := .firing p, log := s'.log ++ [.popped p] }
    | (none, s') => { s' with pc := .checking }
  | .firing p => { s with pc := .popping, log := s.log ++ [.fired p] }
  | .checking => { s with pc := if s.lQuit then .left else .waiting }
  | .left => s

inductive QueueEv where
  | push (ev : Com.HubEvent)
  /-- The SetEvent of one that is past its lock. -/
  | wake
  | dispatch
  /-- Close, or an Init that fails, up to its SetEvent. -/
  | quit
  deriving DecidableEq, Repr

def queueStep (s : ComQueue) : QueueEv → ComQueue
  | .push ev => Push ev s
  | .wake => if 0 < s.waking then { s with waking := s.waking - 1, hWake := true } else s
  | .dispatch => DispatchLoop s
  | .quit => if s.lQuit then s else { s with lQuit := true, waking := s.waking + 1 }

/-! ## What the log says -/

def QueueEv.pushed? : QueueEv → Option Com.HubEvent
  | .push ev => some ev
  | _ => none

def QueueNote.pushed? : QueueNote → Option Com.HubEvent
  | .accepted ev => some ev
  | .dropped ev => some ev
  | _ => none

def QueueNote.accepted? : QueueNote → Option Com.HubEvent
  | .accepted ev => some ev
  | _ => none

def QueueNote.popped? : QueueNote → Option Popped
  | .popped p => some p
  | _ => none

def QueueNote.fired? : QueueNote → Option Popped
  | .fired p => some p
  | _ => none

def Popped.queued? : Popped → Option Com.HubEvent
  | .queued ev => some ev
  | .gap _ => none

def QueueNote.tally (n : Nat) (x : QueueNote) : Nat :=
  match x with
  | .dropped _ => n + 1
  | .popped (.gap _) => 0
  | _ => n

/-- How many events have been dropped since the last report. -/
def droppedSince (log : List QueueNote) : Nat := log.foldl QueueNote.tally 0

/-- What Pop has handed out and Fire has not returned from. -/
def DispatchPc.hand : DispatchPc → List Popped
  | .firing p => [p]
  | _ => []

def DispatchPc.isRunning : DispatchPc → Bool
  | .waiting | .left => false
  | _ => true

/-- Every report tells the number of the events that were dropped since the one before it. -/
def Reported (log : List QueueNote) : Prop :=
  ∀ (earlier later : List QueueNote) (cDropped : Int32),
    log = earlier ++ .popped (.gap cDropped) :: later → cDropped.toInt = droppedSince earlier

/-- What there is to fire or to report meets a dispatch thread that runs, or that m_hWake will start. -/
def ComQueue.Woken (s : ComQueue) : Prop :=
  s.queue ≠ [] ∨ droppedSince s.log ≠ 0 → s.pc.isRunning = true ∨ s.hWake = true

/-- The same, with those counted who set m_hWake next. -/
def ComQueue.WokenSoon (s : ComQueue) : Prop :=
  s.queue ≠ [] ∨ droppedSince s.log ≠ 0 → s.pc.isRunning = true ∨ s.hWake = true ∨ 0 < s.waking

/-- The account between what was pushed, the log and the members. -/
structure ComQueue.Accounts (pushed : List Com.HubEvent) (s : ComQueue) : Prop where
  /-- Each push was accepted or dropped. -/
  decided : s.log.filterMap QueueNote.pushed? = pushed
  /-- What was accepted has been handed out, in that order, or is queued. -/
  inOrder : (s.log.filterMap QueueNote.popped?).filterMap Popped.queued? ++ s.queue = s.log.filterMap QueueNote.accepted?
  /-- What was handed out has been fired, in that order, or is being fired. -/
  fired : s.log.filterMap QueueNote.fired? ++ s.pc.hand = s.log.filterMap QueueNote.popped?
  /-- What was dropped has been reported, or is counted. -/
  reported : Reported s.log
  counted : s.cDropped.toInt = droppedSince s.log
  bounded : s.queue.length ≤ kMaxQueued

/-- Neither the dispatch thread nor one that is past its lock has a step to take. -/
def ComQueue.AtRest (s : ComQueue) : Prop := queueStep s .wake = s ∧ queueStep s .dispatch = s

/-- All that was accepted has been fired, in its order, and all that was dropped is in a report. -/
structure ComQueue.Settled (s : ComQueue) : Prop where
  fired : (s.log.filterMap QueueNote.fired?).filterMap Popped.queued? = s.log.filterMap QueueNote.accepted?
  reported : droppedSince s.log = 0

/-- Without another push the steps that are left are finitely many, and after them all is settled. -/
def ComQueue.Settles (s : ComQueue) : Prop :=
  ∃ n, ∀ fs : List QueueEv, Each queueStep (fun t f => (f = .wake ∨ f = .dispatch) ∧ queueStep t f ≠ t) s fs →
    fs.length ≤ n ∧ ((exec queueStep s fs).AtRest → (exec queueStep s fs).Settled)

/-! ## A step -/

/-- What a step does. -/
inductive QueueMove (s : ComQueue) : QueueEv → ComQueue → Prop
  | stay (e : QueueEv) (h : e.pushed? = none) : QueueMove s e s
  | accepted (ev : Com.HubEvent) (h : s.queue.length < kMaxQueued) :
    QueueMove s (.push ev)
      { s with queue := s.queue ++ [ev], waking := s.waking + 1, log := s.log ++ [.accepted ev] }
  | dropped (ev : Com.HubEvent) (h : kMaxQueued ≤ s.queue.length) :
    QueueMove s (.push ev) { s with cDropped := s.cDropped + 1, log := s.log ++ [.dropped ev] }
  | woken (h : 0 < s.waking) : QueueMove s .wake { s with waking := s.waking - 1, hWake := true }
  | begun (h : s.pc = .waiting) (hw : s.hWake = true) : QueueMove s .dispatch { s with hWake := false, pc := .popping }
  | handed (ev : Com.HubEvent) (rest : List Com.HubEvent) (h : s.pc = .popping) (hq : s.queue = ev :: rest) :
    QueueMove s .dispatch
      { s with queue := rest, pc := .firing (.queued ev), log := s.log ++ [.popped (.queued ev)] }
  | gap (h : s.pc = .popping) (hq : s.queue = []) (hc : s.cDropped ≠ 0) :
    QueueMove s .dispatch
      { s with cDropped := 0, pc := .firing (.gap s.cDropped), log := s.log ++ [.popped (.gap s.cDropped)] }
  | drained (h : s.pc = .popping) (hq : s.queue = []) (hc : s.cDropped = 0) :
    QueueMove s .dispatch { s with pc := .checking }
  | fired (p : Popped) (h : s.pc = .firing p) :
    QueueMove s .dispatch { s with pc := .popping, log := s.log ++ [.fired p] }
  | checked (h : s.pc = .checking) : QueueMove s .dispatch { s with pc := if s.lQuit then .left else .waiting }
  | quit (h : s.lQuit = false) : QueueMove s .quit { s with lQuit := true, waking := s.waking + 1 }

theorem dispatch_move (s : ComQueue) : QueueMove s .dispatch (DispatchLoop s) := by
  unfold DispatchLoop
  cases hpc : s.pc with
  | waiting =>
    cases hw : s.hWake with
    | false => exact .stay _ rfl
    | true => exact .begun hpc hw
  | popping =>
    unfold Pop
    cases hq : s.queue with
    | cons ev rest => exact .handed ev rest hpc hq
    | nil =>
      by_cases hc : s.cDropped = 0
      · simpa [hc] using QueueMove.drained hpc hq hc
      · simpa [hc, hq] using QueueMove.gap hpc hq hc
  | firing p => exact .fired p hpc
  | checking => exact .checked hpc
  | left => exact .stay _ rfl

theorem queue_move (s : ComQueue) (e : QueueEv) : QueueMove s e (queueStep s e) := by
  cases e with
  | push ev =>
    show QueueMove s _ (Push ev s)
    unfold Push
    split
    · rename_i h
      exact .dropped ev h
    · rename_i h
      exact .accepted ev (Nat.lt_of_not_le h)
  | wake =>
    by_cases h : 0 < s.waking
    · simpa [queueStep, h] using QueueMove.woken h
    · simpa [queueStep, h] using QueueMove.stay (s := s) .wake rfl
  | dispatch => exact dispatch_move s
  | quit =>
    cases h : s.lQuit with
    | false => simpa [queueStep, h] using QueueMove.quit h
    | true => simpa [queueStep, h] using QueueMove.stay (s := s) .quit rfl

/-! ## The account -/

@[simp] theorem filterMap_one {α β : Type} (f : α → Option β) (x : α) : [x].filterMap f = (f x).toList := by
  cases h : f x with
  | none => simp [h]
  | some y => simp [h]

@[simp] theorem droppedSince_snoc (log : List QueueNote) (x : QueueNote) :
    droppedSince (log ++ [x]) = QueueNote.tally (droppedSince log) x := by
  simp [droppedSince]

theorem reported_iff {log : List QueueNote} : Reported log ↔ KeyLog.Noted (fun (earlier : List QueueNote) (x : QueueNote) =>
    ∀ cDropped : Int32, x = .popped (.gap cDropped) → cDropped.toInt = (droppedSince earlier : Int)) log := by
  constructor
  · rintro h earlier x later heq cDropped rfl
    exact h earlier later cDropped heq
  · intro h earlier later cDropped heq
    exact h earlier _ later heq cDropped rfl

/-- A report in a log that ends with `x` is in the rest of it, or is `x`. -/
theorem reported_snoc {log : List QueueNote} {x : QueueNote} (h : Reported log)
    (hx : ∀ cDropped, x = .popped (.gap cDropped) → cDropped.toInt = droppedSince log) : Reported (log ++ [x]) :=
  reported_iff.mpr (KeyLog.noted_snoc.mpr ⟨reported_iff.mp h, hx⟩)

theorem reported_other {log : List QueueNote} {x : QueueNote} (h : Reported log) (hx : ∀ cDropped, x ≠ .popped (.gap cDropped)) :
    Reported (log ++ [x]) := reported_snoc h fun cDropped heq => absurd heq (hx cDropped)

theorem toInt_succ {c : Int32} {n : Nat} (h : c.toInt = n) (hn : n + 1 < 2 ^ 31) : (c + 1).toInt = (n + 1 : Nat) := by
  rw [Int32.toInt_add, h]
  have hone : (1 : Int32).toInt = 1 := rfl
  rw [hone, Int.bmod_eq_of_le]
  · simp
  · omega
  · omega

/-- Fewer than a LONG can count wait for their report. -/
def ComQueue.Small (s : ComQueue) : Prop := droppedSince s.log < 2 ^ 31

theorem account_step {pushed : List Com.HubEvent} {s : ComQueue} (e : QueueEv) (h : s.Accounts pushed)
    (hsmall : (queueStep s e).Small) : (queueStep s e).Accounts (pushed ++ e.pushed?.toList) := by
  have hmove := queue_move s e
  generalize queueStep s e = s' at hmove hsmall
  obtain ⟨hdec, hord, hfired, hrep, hcnt, hbnd⟩ := h
  cases hmove with
  | stay _ hp =>
    rw [hp, Option.toList_none, List.append_nil]
    exact ⟨hdec, hord, hfired, hrep, hcnt, hbnd⟩
  | accepted ev hlt =>
    refine ⟨?_, ?_, ?_, reported_other hrep (by simp), ?_, ?_⟩
    · simp [hdec, QueueNote.pushed?, QueueEv.pushed?]
    · simp [← hord, QueueNote.popped?, QueueNote.accepted?]
    · simpa [QueueNote.fired?, QueueNote.popped?] using hfired
    · simpa [QueueNote.tally] using hcnt
    · simp; omega
  | dropped ev hle =>
    refine ⟨?_, ?_, ?_, reported_other hrep (by simp), ?_, hbnd⟩
    · simp [hdec, QueueNote.pushed?, QueueEv.pushed?]
    · simpa [QueueNote.popped?, QueueNote.accepted?] using hord
    · simpa [QueueNote.fired?, QueueNote.popped?] using hfired
    · simp only [ComQueue.Small, droppedSince_snoc, QueueNote.tally] at hsmall ⊢
      exact toInt_succ hcnt hsmall
  | woken _ => exact ⟨by simpa [QueueEv.pushed?] using hdec, hord, hfired, hrep, hcnt, hbnd⟩
  | begun hpc _ =>
    refine ⟨by simpa [QueueEv.pushed?] using hdec, hord, ?_, hrep, hcnt, hbnd⟩
    simpa [hpc, DispatchPc.hand] using hfired
  | handed ev rest hpc hq =>
    rw [hq] at hord hbnd
    refine ⟨?_, ?_, ?_, reported_other hrep (by simp), ?_, ?_⟩
    · simpa [QueueNote.pushed?, QueueEv.pushed?] using hdec
    · simpa [QueueNote.popped?, QueueNote.accepted?, Popped.queued?] using hord
    · simp only [hpc, DispatchPc.hand, List.append_nil] at hfired
      simp [QueueNote.fired?, QueueNote.popped?, DispatchPc.hand, hfired]
    · simpa [QueueNote.tally] using hcnt
    · exact Nat.le_of_succ_le hbnd
  | gap hpc hq hc =>
    refine ⟨?_, ?_, ?_, reported_snoc hrep ?_, ?_, hbnd⟩
    · simpa [QueueNote.pushed?, QueueEv.pushed?] using hdec
    · simpa [QueueNote.popped?, QueueNote.accepted?, Popped.queued?] using hord
    · simp only [hpc, DispatchPc.hand, List.append_nil] at hfired
      simp [QueueNote.fired?, QueueNote.popped?, DispatchPc.hand, hfired]
    · intro cDropped heq
      cases heq
      exact hcnt
    · simp [QueueNote.tally]
  | drained hpc _ _ =>
    refine ⟨by simpa [QueueEv.pushed?] using hdec, hord, ?_, hrep, hcnt, hbnd⟩
    simpa [hpc, DispatchPc.hand] using hfired
  | fired p hpc =>
    refine ⟨?_, ?_, ?_, reported_other hrep (by simp), ?_, hbnd⟩
    · simpa [QueueNote.pushed?, QueueEv.pushed?] using hdec
    · simpa [QueueNote.popped?, QueueNote.accepted?] using hord
    · simp only [hpc, DispatchPc.hand] at hfired
      simpa [QueueNote.fired?, QueueNote.popped?, DispatchPc.hand] using hfired
    · simpa [QueueNote.tally] using hcnt
  | checked hpc =>
    refine ⟨by simpa [QueueEv.pushed?] using hdec, hord, ?_, hrep, hcnt, hbnd⟩
    rw [hpc] at hfired
    cases hq : s.lQuit with
    | false => simpa [DispatchPc.hand] using hfired
    | true => simpa [DispatchPc.hand] using hfired
  | quit _ => exact ⟨by simpa [QueueEv.pushed?] using hdec, hord, hfired, hrep, hcnt, hbnd⟩

/-! ## The wake event -/

/-- What waits with the dispatch thread at its wait, or on its way there, has somebody to wake it. -/
structure ComQueue.Waker (s : ComQueue) : Prop where
  running : s.lQuit = false ∧ s.pc ≠ .left
  idle : s.pc = .waiting ∨ s.pc = .checking → s.hWake = false → s.waking = 0 → s.queue = [] ∧ s.cDropped = 0

theorem waker_step {s : ComQueue} {e : QueueEv} (h : s.Waker) (he : e ≠ .quit) : (queueStep s e).Waker := by
  have hmove := queue_move s e
  generalize queueStep s e = s' at hmove
  obtain ⟨hrun, hidle⟩ := h
  cases hmove with
  | stay => exact ⟨hrun, hidle⟩
  | accepted ev _ => exact ⟨hrun, fun _ _ h0 => absurd h0 (Nat.succ_ne_zero _)⟩
  | dropped ev hle =>
    refine ⟨hrun, fun hpc hw h0 => ?_⟩
    have hnil := (hidle hpc hw h0).1
    rw [hnil] at hle
    exact absurd hle (by decide)
  | woken _ => exact ⟨hrun, fun _ hw => Bool.noConfusion hw⟩
  | begun _ _ => exact ⟨⟨hrun.1, nofun⟩, fun hpc => by simp at hpc⟩
  | handed => exact ⟨⟨hrun.1, nofun⟩, fun hpc => by simp at hpc⟩
  | gap => exact ⟨⟨hrun.1, nofun⟩, fun hpc => by simp at hpc⟩
  | drained _ hq hc => exact ⟨⟨hrun.1, nofun⟩, fun _ _ _ => ⟨hq, hc⟩⟩
  | fired => exact ⟨⟨hrun.1, nofun⟩, fun hpc => by simp at hpc⟩
  | checked hpc => exact ⟨⟨hrun.1, by simp [hrun.1]⟩, fun _ => hidle (.inr hpc)⟩
  | quit _ => exact absurd rfl he

theorem Waker.wokenSoon {s : ComQueue} {pushed : List Com.HubEvent} (h : s.Waker) (ha : s.Accounts pushed) : s.WokenSoon := by
  intro hleft
  cases hw : s.hWake with
  | true => exact .inr (.inl rfl)
  | false =>
    by_cases h0 : s.waking = 0
    · refine .inl ?_
      have hstop : ¬ (s.pc = .waiting ∨ s.pc = .checking) := by
        intro hpc
        obtain ⟨hq, hc⟩ := h.idle hpc hw h0
        have hcnt := ha.counted
        rw [hc] at hcnt
        rcases hleft with hne | hne
        · exact hne hq
        · exact hne (Int.ofNat_eq_zero.mp hcnt.symm)
      cases hpc : s.pc with
      | waiting => exact absurd (.inl hpc) hstop
      | checking => rfl
      | popping => rfl
      | firing p => rfl
      | left => exact absurd hpc h.running.2
    · exact .inr (.inr (Nat.pos_of_ne_zero h0))

/-! ## Coming to rest -/

def DispatchPc.effort : DispatchPc → Nat
  | .waiting => 0
  | .checking => 1
  | .popping => 2
  | .firing _ => 3
  | .left => 0

/-- No less than the steps that are left without another push. -/
def ComQueue.effort (s : ComQueue) : Nat :=
  4 * s.waking + (if s.hWake then 3 else 0) + s.pc.effort + 2 * s.queue.length + if s.cDropped = 0 then 0 else 2

theorem effort_moves {s : ComQueue} {e : QueueEv} (he : e = .wake ∨ e = .dispatch) (hne : queueStep s e ≠ s) :
    (queueStep s e).effort < s.effort := by
  have hmove := queue_move s e
  generalize queueStep s e = s' at hmove hne
  cases hmove with
  | stay => exact absurd rfl hne
  | accepted => simp at he
  | dropped => simp at he
  | quit => simp at he
  | woken h =>
    have hset : (if s.hWake = true then 3 else 0) ≤ 3 := by split <;> decide
    simp only [ComQueue.effort, if_true]
    omega
  | begun hpc hw => simp [ComQueue.effort, hpc, hw, DispatchPc.effort]
  | handed ev rest hpc hq =>
    simp only [ComQueue.effort, hpc, hq, DispatchPc.effort, List.length_cons]
    omega
  | gap hpc _ hc =>
    simp only [ComQueue.effort, hpc, hc, DispatchPc.effort, if_true, if_false]
    omega
  | drained hpc _ _ => simp [ComQueue.effort, hpc, DispatchPc.effort]
  | fired p hpc => simp [ComQueue.effort, hpc, DispatchPc.effort]
  | checked hpc =>
    cases hq : s.lQuit with
    | true => simp [ComQueue.effort, hpc, DispatchPc.effort]
    | false => simp [ComQueue.effort, hpc, DispatchPc.effort]

theorem rest_waits {s : ComQueue} (h : s.Waker) (hrest : s.AtRest) : s.pc = .waiting ∧ s.hWake = false ∧ s.waking = 0 := by
  obtain ⟨hwake, hdisp⟩ := hrest
  have h0 : s.waking = 0 := by
    refine Nat.eq_zero_of_not_pos fun hpos => ?_
    have hless := congrArg ComQueue.waking hwake
    simp only [queueStep, hpos, if_true] at hless
    omega
  have hstay : (DispatchLoop s).pc = s.pc := congrArg ComQueue.pc hdisp
  unfold DispatchLoop at hstay
  cases hpc : s.pc with
  | waiting =>
    cases hw : s.hWake with
    | false => exact ⟨rfl, rfl, h0⟩
    | true => simp [hpc, hw] at hstay
  | popping =>
    rw [hpc] at hstay
    unfold Pop at hstay
    cases hq : s.queue with
    | cons ev rest => simp [hq] at hstay
    | nil => by_cases hc : s.cDropped = 0 <;> simp [hq, hc] at hstay
  | firing p => simp [hpc] at hstay
  | checking => simp [hpc, h.running.1] at hstay
  | left => exact absurd hpc h.running.2

theorem rest_settled {s : ComQueue} {pushed : List Com.HubEvent} (h : s.Waker) (ha : s.Accounts pushed) (hrest : s.AtRest) :
    s.Settled := by
  obtain ⟨hpc, hw, h0⟩ := rest_waits h hrest
  obtain ⟨hq, hc⟩ := h.idle (.inl hpc) hw h0
  obtain ⟨-, hord, hfired, -, hcnt, -⟩ := ha
  constructor
  · simp only [hpc, DispatchPc.hand, List.append_nil] at hfired
    rw [hfired, ← hord, hq, List.append_nil]
  · rw [hc] at hcnt
    exact Int.ofNat_eq_zero.mp hcnt.symm

/-- A step that pushes nothing leaves no more to report. -/
theorem small_step {s : ComQueue} {e : QueueEv} (h : s.Small) (he : e.pushed? = none) : (queueStep s e).Small := by
  have hmove := queue_move s e
  generalize queueStep s e = s' at hmove
  unfold ComQueue.Small at h ⊢
  cases hmove with
  | accepted => cases he
  | dropped => cases he
  | stay => exact h
  | woken => exact h
  | begun => exact h
  | drained => exact h
  | checked => exact h
  | quit => exact h
  | handed => simpa [QueueNote.tally] using h
  | fired => simpa [QueueNote.tally] using h
  | gap => simp [QueueNote.tally]

/-- A step leaves one more to report, at most. -/
theorem droppedSince_step (s : ComQueue) (e : QueueEv) : droppedSince (queueStep s e).log ≤ droppedSince s.log + 1 := by
  have hmove := queue_move s e
  generalize queueStep s e = s' at hmove
  cases hmove with
  | accepted => simp [QueueNote.tally]
  | dropped => simp [QueueNote.tally]
  | handed => simp [QueueNote.tally]
  | gap => simp [QueueNote.tally]
  | fired => simp [QueueNote.tally]
  | stay => exact Nat.le_succ _
  | woken => exact Nat.le_succ _
  | begun => exact Nat.le_succ _
  | drained => exact Nat.le_succ _
  | checked => exact Nat.le_succ _
  | quit => exact Nat.le_succ _

theorem small_of_length {s : ComQueue} {es : List QueueEv} (h : droppedSince s.log + es.length < 2 ^ 31) :
    Always queueStep ComQueue.Small s es := by
  induction es generalizing s with
  | nil => exact always_nil.mpr h
  | cons e es ih =>
    have hone := droppedSince_step s e
    rw [List.length_cons] at h
    refine always_cons.mpr ⟨?_, ih (by omega)⟩
    unfold ComQueue.Small
    omega

/-! ## Whole runs -/

structure ComQueue.Inv (pushed : List Com.HubEvent) (s : ComQueue) : Prop where
  accounts : s.Accounts pushed
  waker : s.Waker

theorem inv_created : ComQueue.created.Inv [] where
  accounts := ⟨rfl, rfl, rfl, fun earlier later c h => by simp [ComQueue.created] at h, rfl, Nat.zero_le _⟩
  waker := ⟨⟨rfl, nofun⟩, fun _ _ _ => ⟨rfl, rfl⟩⟩

theorem inv_step {pushed : List Com.HubEvent} {s : ComQueue} {e : QueueEv} (h : s.Inv pushed) (he : e ≠ .quit)
    (hsmall : (queueStep s e).Small) : (queueStep s e).Inv (pushed ++ e.pushed?.toList) :=
  ⟨account_step e h.accounts hsmall, waker_step h.waker he⟩

theorem inv_exec (es : List QueueEv) : ∀ {pushed : List Com.HubEvent} {s : ComQueue}, s.Inv pushed → .quit ∉ es →
    Always queueStep ComQueue.Small s es → (exec queueStep s es).Inv (pushed ++ es.filterMap QueueEv.pushed?) := by
  induction es with
  | nil =>
    intro pushed s h _ _
    simpa using h
  | cons e es ih =>
    intro pushed s h hq hsmall
    obtain ⟨-, hsmall⟩ := always_cons.mp hsmall
    have he : e ≠ .quit := fun heq => hq (heq ▸ List.mem_cons_self)
    have hrest := ih (inv_step h he hsmall.first) (fun hm => hq (List.mem_cons_of_mem _ hm)) hsmall
    rw [List.append_assoc] at hrest
    cases hp : e.pushed? with
    | none => simpa [hp] using hrest
    | some ev => simpa [hp] using hrest

theorem settles_of_inv {pushed : List Com.HubEvent} {s : ComQueue} (h : s.Inv pushed) (hsmall : s.Small) : s.Settles := by
  refine ⟨s.effort, fun fs hfs => ⟨?_, fun hrest => ?_⟩⟩
  · exact length_le_of_each (fun t f hf => effort_moves hf.1 hf.2) hfs
  · have hstep : ∀ (t : ComQueue) (f : QueueEv), t.Inv pushed ∧ t.Small →
        ((f = .wake ∨ f = .dispatch) ∧ queueStep t f ≠ t) → (queueStep t f).Inv pushed ∧ (queueStep t f).Small := by
      intro t f ⟨ht, htsmall⟩ ⟨hf, _⟩
      have hp : f.pushed? = none := by rcases hf with rfl | rfl <;> rfl
      have hq : f ≠ .quit := by rcases hf with rfl | rfl <;> nofun
      have hsmall' := small_step htsmall hp
      have hinv := inv_step ht hq hsmall'
      rw [hp, Option.toList_none, List.append_nil] at hinv
      exact ⟨hinv, hsmall'⟩
    have hend := (always_of_each hstep ⟨h, hsmall⟩ hfs).last
    exact rest_settled hend.1.waker hend.1.accounts hrest

/-- Whatever the callbacks and the dispatch thread do in whatever order, until the hub is told to quit and while fewer
    drops than a LONG can count wait for their report. -/
theorem queue_accounts (es : List QueueEv) (hq : .quit ∉ es) (hsmall : Always queueStep ComQueue.Small .created es) :
    let s := exec queueStep .created es
    s.Accounts (es.filterMap QueueEv.pushed?) ∧ s.WokenSoon ∧ s.Settles := by
  have h := inv_exec es inv_created hq hsmall
  rw [List.nil_append] at h
  exact ⟨h.accounts, Waker.wokenSoon h.waker h.accounts, settles_of_inv h hsmall.last⟩

/-- Three events through the queue, all the way to rest. -/
theorem queue_accounts_three :
    let ev := Com.HubEvent.created
    let es := [.push ev, .push ev, .wake, .dispatch, .dispatch, .push ev, .dispatch]
    let s := exec queueStep .created es
    s.Accounts [ev, ev, ev] ∧ s.WokenSoon ∧ s.Settles :=
  queue_accounts [.push .created, .push .created, .wake, .dispatch, .dispatch, .push .created, .dispatch] (by decide)
    (small_of_length (by decide))

/-! ## What does not hold -/

/-- Between its lock and its SetEvent: the event is queued, the dispatch thread waits and nothing is set. -/
theorem push_before_wake : ¬ (exec queueStep .created [.push .created]).Woken := by
  intro h
  have hrun := h (.inl (by decide))
  exact absurd hrun (by decide)

/-- `n` events are queued and `k` dropped ones wait for their report. -/
structure ComQueue.Holds (n k : Nat) (s : ComQueue) : Prop where
  queue : s.queue.length = n
  cDropped : s.cDropped = Int32.ofNat k
  log : droppedSince s.log = k

theorem push_fills {n k : Nat} {s : ComQueue} (ev : Com.HubEvent) (h : s.Holds n k) (hn : n < kMaxQueued) :
    (Push ev s).Holds (n + 1) k ∧ (Push ev s).pc = s.pc := by
  obtain ⟨hq, hc, hl⟩ := h
  have hroom : ¬ kMaxQueued ≤ s.queue.length := by omega
  rw [Push, if_neg hroom]
  exact ⟨⟨by simp [hq], hc, by simpa [QueueNote.tally] using hl⟩, rfl⟩

theorem push_drops {k : Nat} {s : ComQueue} (ev : Com.HubEvent) (h : s.Holds kMaxQueued k) :
    (Push ev s).Holds kMaxQueued (k + 1) ∧ (Push ev s).pc = s.pc := by
  obtain ⟨hq, hc, hl⟩ := h
  rw [Push, if_pos (Nat.le_of_eq hq.symm)]
  refine ⟨⟨hq, ?_, by simp [QueueNote.tally, hl]⟩, rfl⟩
  show s.cDropped + 1 = Int32.ofNat (k + 1)
  rw [hc, Int32.ofNat_add]
  rfl

theorem pushes_fill (ev : Com.HubEvent) : ∀ (m : Nat) {n : Nat} {s : ComQueue}, s.Holds n 0 → n + m ≤ kMaxQueued →
    (exec queueStep s (List.replicate m (.push ev))).Holds (n + m) 0 ∧
      (exec queueStep s (List.replicate m (.push ev))).pc = s.pc := by
  intro m
  induction m with
  | zero => intro n s h _; exact ⟨h, rfl⟩
  | succ m ih =>
    intro n s h hn
    obtain ⟨hone, hpc⟩ := push_fills ev h (by omega)
    obtain ⟨hrest, hpc'⟩ := ih hone (by omega)
    rw [List.replicate_succ, exec_cons]
    exact ⟨by rwa [Nat.add_right_comm] at hrest, hpc'.trans hpc⟩

theorem pushes_drop (ev : Com.HubEvent) : ∀ (m : Nat) {k : Nat} {s : ComQueue}, s.Holds kMaxQueued k →
    (exec queueStep s (List.replicate m (.push ev))).Holds kMaxQueued (k + m) ∧
      (exec queueStep s (List.replicate m (.push ev))).pc = s.pc := by
  intro m
  induction m with
  | zero => intro k s h; exact ⟨h, rfl⟩
  | succ m ih =>
    intro k s h
    obtain ⟨hone, hpc⟩ := push_drops ev h
    obtain ⟨hrest, hpc'⟩ := ih hone
    rw [List.replicate_succ, exec_cons]
    exact ⟨by rwa [Nat.add_right_comm] at hrest, hpc'.trans hpc⟩

/-- The dispatch thread fires what is queued. -/
theorem dispatches_drain {k : Nat} : ∀ (n : Nat) {s : ComQueue}, s.Holds n k → s.pc = .popping →
    (exec queueStep s (List.replicate (2 * n) .dispatch)).Holds 0 k ∧
      (exec queueStep s (List.replicate (2 * n) .dispatch)).pc = .popping := by
  intro n
  induction n with
  | zero => intro s h hpc; exact ⟨h, hpc⟩
  | succ n ih =>
    intro s ⟨hq, hc, hl⟩ hpc
    obtain ⟨ev, rest, hcons⟩ := List.exists_cons_of_length_eq_add_one hq
    have hone : DispatchLoop s = { s with queue := rest, pc := .firing (.queued ev), log := s.log ++ [.popped (.queued ev)] } := by
      simp [DispatchLoop, hpc, Pop, hcons]
    have htwo : queueStep (queueStep s .dispatch) .dispatch
        = { s with queue := rest, pc := .popping, log := s.log ++ [.popped (.queued ev)] ++ [.fired (.queued ev)] } := by
      show DispatchLoop (DispatchLoop s) = _
      rw [hone]
      rfl
    rw [Nat.mul_succ, List.replicate_succ, List.replicate_succ, exec_cons, exec_cons, htwo]
    rw [hcons] at hq
    have hlog : droppedSince (s.log ++ [.popped (.queued ev)] ++ [.fired (.queued ev)]) = k := by
      rw [droppedSince_snoc, droppedSince_snoc]
      exact hl
    exact ih ⟨Nat.succ.inj hq, hc, hlog⟩ rfl

/-- Once the queue is drained, the next Pop reports. -/
theorem dispatch_reports {k : Nat} {s : ComQueue} (h : s.Holds 0 k) (hpc : s.pc = .popping) (hk : Int32.ofNat k ≠ 0) :
    (queueStep s .dispatch).log = s.log ++ [.popped (.gap (Int32.ofNat k))] := by
  have hnil := List.eq_nil_of_length_eq_zero h.queue
  rw [← h.cDropped] at hk ⊢
  simp [queueStep, DispatchLoop, hpc, Pop, hnil, hk]

/-- However many are dropped while the queue is full, there is a run that tells them in one report, as a LONG. -/
theorem report_tells (k : Nat) (hk : Int32.ofNat k ≠ 0) : ∃ es : List QueueEv, .quit ∉ es ∧ ∃ log,
    (exec queueStep .created es).log = log ++ [.popped (.gap (Int32.ofNat k))] ∧ droppedSince log = k := by
  obtain ⟨start, hrun, hone, hpop⟩ : ∃ s, exec queueStep .created [.push .created, .wake, .dispatch] = s ∧
      s.Holds 1 0 ∧ s.pc = .popping := ⟨_, rfl, ⟨by decide, by decide, by decide⟩, by decide⟩
  obtain ⟨hfull, hpc₁⟩ := pushes_fill .created (kMaxQueued - 1) hone (by decide)
  have hmax : 1 + (kMaxQueued - 1) = kMaxQueued := by decide
  rw [hmax] at hfull
  obtain ⟨hover, hpc₂⟩ := pushes_drop .created k hfull
  rw [Nat.zero_add] at hover
  obtain ⟨hempty, hpc₃⟩ := dispatches_drain kMaxQueued hover (hpc₂.trans (hpc₁.trans hpop))
  refine ⟨[.push .created, .wake, .dispatch] ++ List.replicate (kMaxQueued - 1) (.push .created)
    ++ List.replicate k (.push .created) ++ List.replicate (2 * kMaxQueued) .dispatch ++ [.dispatch], by simp, ?_⟩
  rw [exec_append, exec_append, exec_append, exec_append, hrun, exec_cons, exec_nil]
  exact ⟨_, dispatch_reports hempty hpc₃ hk, hempty.log⟩

/-- Before the SetEvent nothing is set, and from 2^31 drops on the number reported is not theirs. -/
theorem queue_not_always :
    (∃ es : List QueueEv, .quit ∉ es ∧ ¬ (exec queueStep .created es).Woken) ∧
    ∃ es : List QueueEv, .quit ∉ es ∧ ¬ Reported (exec queueStep .created es).log := by
  refine ⟨⟨[.push .created], by decide, push_before_wake⟩, ?_⟩
  obtain ⟨es, hq, log, hlog, hk⟩ := report_tells (2 ^ 31) (by decide)
  refine ⟨es, hq, fun h => ?_⟩
  have hsays := h log [] _ hlog
  rw [hk] at hsays
  exact absurd hsays (by decide)

end TargetFacade
