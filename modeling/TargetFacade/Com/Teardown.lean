/-
  TargetFacade.Com.Teardown — a COM hub that is closed while its methods and its sink run
  (ComHub.cpp: Close, FinalRelease, CloseKernelHub, DispatchLoop).

  Each read of m_pHub, each call through what was read, each exchange and each wait is a step.
  A hub begins as Init leaves it. Close, from any thread, waits for the dispatch thread if it is
  not on it, for as long as it may; that thread leaves its loop once m_lQuit is set, and tears
  the hub down if nobody has. The owner's reference and the event sinks are left out.

  m_lHubClosed lets one of them through, so the flat hub is closed once in any run
  (`close_once`). Nothing holds m_pHub for those who read it: a message callback that has found
  it there goes back to it for every call (`callback_calls_null`). `teardown_iff` says what the
  teardown must not meet, and `live_copies` that a method which takes its own copy through Live
  meets it only with a call still to make.
-/

import TargetFacade.Com.HubCalls
import TargetFacade.Lib.Bag
import TargetFacade.Lib.Runs

namespace TargetFacade

open Runs Bag SharedPtr

/-- Where a Close, or the dispatch thread on its way out, stands. -/
inductive ClosePc where
  | entered (bOnDispatch : Bool)
  | joining
  /-- In CloseKernelHub. -/
  | claiming
  | taking
  | closing
  | returned
  deriving DecidableEq, Repr

structure ComHub where
  /-- m_hThread is there. -/
  bThread : Bool
  shared : Shared FlatCall FlatAnswer
  lQuit : Bool
  lHubClosed : Bool
  /-- The dispatch thread has left its loop. -/
  bLeft : Bool
  closers : List ClosePc
  /-- How often the flat hub's Close was called. -/
  closes : Nat

def ComHub.created (bThread : Bool) : ComHub where
  bThread := bThread
  shared := .created
  lQuit := false
  lHubClosed := false
  bLeft := false
  closers := []
  closes := 0

inductive ComEv where
  /-- A method is called, or a callback made. -/
  | begin (m : ComCall)
  /-- The next step of the method or callback, and what the flat hub answers it. -/
  | use (i : Nat) (a : FlatAnswer)
  /-- Close, and FinalRelease. -/
  | close (bOnDispatch : Bool)
  | closer (pc : ClosePc)
  | leaveLoop
  deriving DecidableEq, Repr

def ComHub.goto (s : ComHub) (pc pc' : ClosePc) : ComHub := { s with closers := s.closers.erase pc ++ [pc'] }

def closerStep (pc : ClosePc) (s : ComHub) : ComHub :=
  match pc with
  | .entered bOnDispatch =>
    { s.goto pc (if !s.bThread then .claiming else if bOnDispatch then .returned else .joining) with lQuit := true }
  -- the dispatch thread has ended, or kCloseJoinMs has passed
  | .joining => s.goto pc .claiming
  | .claiming => if s.lHubClosed then s.goto pc .returned else { s.goto pc .taking with lHubClosed := true }
  | .taking => { s.goto pc (if s.shared.there then .closing else .returned) with shared := s.shared.take }
  | .closing => { s.goto pc .returned with shared := s.shared.close, closes := s.closes + 1 }
  | .returned => s

def comStep (s : ComHub) : ComEv → ComHub
  | .begin m => { s with shared := s.shared.begin m.prog }
  | .use i a => { s with shared := s.shared.use i a }
  | .close bOnDispatch => { s with closers := s.closers ++ [.entered bOnDispatch] }
  | .closer pc => if pc ∈ s.closers then closerStep pc s else s
  | .leaveLoop =>
    if s.bThread && s.lQuit && !s.bLeft then { s with closers := s.closers ++ [.claiming], bLeft := true } else s

/-- The flat hub is closed at most once, and no call has gone through NULL or through a hub that was closed. -/
structure ComHub.Safe (s : ComHub) : Prop where
  once : s.closes ≤ 1
  faults : s.shared.faults = []

def ComEv.isUse : ComEv → Bool
  | .use _ _ => true
  | _ => false

/-- It is safe, and stays so however the methods and callbacks that are in it go on. -/
def ComHub.StaysSafe (s : ComHub) : Prop := ∀ fs : List ComEv, (∀ f ∈ fs, f.isUse = true) → (exec comStep s fs).Safe

/-- The teardown takes the pointer from someone who will read it again, or closes the hub under someone about to call. -/
def Overlaps (s : ComHub) : ComEv → Prop
  | .closer .taking => .taking ∈ s.closers ∧ ∃ u ∈ s.shared.users, u.prog.Rereads
  | .closer .closing => .closing ∈ s.closers ∧ ∃ u ∈ s.shared.users, u.prog.calls = true
  | _ => False

/-! ## The latch -/

def ComHub.takers (s : ComHub) : Nat := s.closers.countP (· == .taking)

def ComHub.closing (s : ComHub) : Nat := s.closers.countP (· == .closing)

/-- How far the teardown is: not begun, claimed, the pointer taken, the hub closed. -/
inductive Stage (s : ComHub) : Prop where
  | open_ (hl : s.lHubClosed = false) (ht : s.shared.there = true) (hc : s.shared.closed = false) (hn : s.closes = 0)
      (h1 : s.takers = 0) (h2 : s.closing = 0)
  | claimed (hl : s.lHubClosed = true) (ht : s.shared.there = true) (hc : s.shared.closed = false) (hn : s.closes = 0)
      (h1 : s.takers = 1) (h2 : s.closing = 0)
  | taken (hl : s.lHubClosed = true) (ht : s.shared.there = false) (hc : s.shared.closed = false) (hn : s.closes = 0)
      (h1 : s.takers = 0) (h2 : s.closing = 1)
  | closed (hl : s.lHubClosed = true) (ht : s.shared.there = false) (hc : s.shared.closed = true) (hn : s.closes = 1)
      (h1 : s.takers = 0) (h2 : s.closing = 0)

theorem Stage.once {s : ComHub} (h : Stage s) : s.closes ≤ 1 := by
  cases h with
  | open_ hl ht hc hn => omega
  | claimed hl ht hc hn => omega
  | taken hl ht hc hn => omega
  | closed hl ht hc hn => omega

/-- Where only those who are not in CloseKernelHub's last two steps move, the stage is what it was. -/
theorem Stage.same {s s' : ComHub} (h : Stage s) (hl : s'.lHubClosed = s.lHubClosed) (ht : s'.shared.there = s.shared.there)
    (hc : s'.shared.closed = s.shared.closed) (hn : s'.closes = s.closes) (h1 : s'.takers = s.takers)
    (h2 : s'.closing = s.closing) : Stage s' := by
  cases h with
  | open_ l t c n a b => exact .open_ (hl.trans l) (ht.trans t) (hc.trans c) (hn.trans n) (h1.trans a) (h2.trans b)
  | claimed l t c n a b => exact .claimed (hl.trans l) (ht.trans t) (hc.trans c) (hn.trans n) (h1.trans a) (h2.trans b)
  | taken l t c n a b => exact .taken (hl.trans l) (ht.trans t) (hc.trans c) (hn.trans n) (h1.trans a) (h2.trans b)
  | closed l t c n a b => exact .closed (hl.trans l) (ht.trans t) (hc.trans c) (hn.trans n) (h1.trans a) (h2.trans b)

theorem count_goto {s : ComHub} {pc : ClosePc} (hm : pc ∈ s.closers) (pc' q : ClosePc) :
    (s.goto pc pc').closers.countP (· == q) + ifOne (pc == q) = s.closers.countP (· == q) + ifOne (pc' == q) := by
  have htake := countP_take (· == q) hm
  have hput := countP_put (· == q) (s.closers.erase pc) pc'
  show (s.closers.erase pc ++ [pc']).countP (· == q) + _ = _
  omega

/-- A move between the places outside the last two steps. -/
theorem Stage.move {s s' : ComHub} (h : Stage s) {pc : ClosePc} (hm : pc ∈ s.closers) (pc' : ClosePc)
    (hs : s'.closers = (s.goto pc pc').closers) (hl : s'.lHubClosed = s.lHubClosed) (hsh : s'.shared = s.shared)
    (hn : s'.closes = s.closes) (hpc : pc ≠ .taking ∧ pc ≠ .closing) (hpc' : pc' ≠ .taking ∧ pc' ≠ .closing) : Stage s' := by
  have ht := count_goto hm pc' .taking
  have hc := count_goto hm pc' .closing
  rw [beq_false_of_ne hpc.1, beq_false_of_ne hpc'.1] at ht
  rw [beq_false_of_ne hpc.2, beq_false_of_ne hpc'.2] at hc
  refine h.same hl (by rw [hsh]) (by rw [hsh]) hn ?_ ?_
  · unfold ComHub.takers
    rw [hs]
    omega
  · unfold ComHub.closing
    rw [hs]
    omega

theorem stage_claiming {s : ComHub} (h : Stage s) (hm : ClosePc.claiming ∈ s.closers) : Stage (closerStep .claiming s) := by
  unfold closerStep
  simp only
  split
  · exact h.move hm .returned rfl rfl rfl rfl ⟨ClosePc.noConfusion, ClosePc.noConfusion⟩
      ⟨ClosePc.noConfusion, ClosePc.noConfusion⟩
  · rename_i hopen
    have ht : (s.goto .claiming .taking).takers + 0 = s.takers + 1 := count_goto hm .taking .taking
    have hc : (s.goto .claiming .taking).closing + 0 = s.closing + 0 := count_goto hm .taking .closing
    cases h with
    | open_ hl hthere hcl hn n1 n2 =>
      refine .claimed rfl hthere hcl hn ?_ ?_
      · show (s.goto .claiming .taking).takers = 1
        omega
      · show (s.goto .claiming .taking).closing = 0
        omega
    | claimed hl => exact absurd hl hopen
    | taken hl => exact absurd hl hopen
    | closed hl => exact absurd hl hopen

theorem stage_taking {s : ComHub} (h : Stage s) (hm : ClosePc.taking ∈ s.closers) : Stage (closerStep .taking s) := by
  have hpos : 1 ≤ s.takers := countP_pos hm rfl
  have ht : (s.goto .taking .closing).takers + 1 = s.takers + 0 := count_goto hm .closing .taking
  have hc : (s.goto .taking .closing).closing + 0 = s.closing + 1 := count_goto hm .closing .closing
  cases h with
  | open_ hl hthere hcl hn n1 n2 => omega
  | claimed hl hthere hcl hn n1 n2 =>
    unfold closerStep
    simp only [hthere, if_true]
    refine .taken hl rfl hcl hn ?_ ?_
    · show (s.goto .taking .closing).takers = 0
      omega
    · show (s.goto .taking .closing).closing = 1
      omega
  | taken hl hthere hcl hn n1 n2 => omega
  | closed hl hthere hcl hn n1 n2 => omega

theorem stage_closing {s : ComHub} (h : Stage s) (hm : ClosePc.closing ∈ s.closers) : Stage (closerStep .closing s) := by
  have hpos : 1 ≤ s.closing := countP_pos hm rfl
  have ht : (s.goto .closing .returned).takers + 0 = s.takers + 0 := count_goto hm .returned .taking
  have hc : (s.goto .closing .returned).closing + 1 = s.closing + 0 := count_goto hm .returned .closing
  cases h with
  | open_ hl hthere hcl hn n1 n2 => omega
  | claimed hl hthere hcl hn n1 n2 => omega
  | taken hl hthere hcl hn n1 n2 =>
    refine .closed hl hthere rfl ?_ ?_ ?_
    · show s.closes + 1 = 1
      omega
    · show (s.goto .closing .returned).takers = 0
      omega
    · show (s.goto .closing .returned).closing = 0
      omega
  | closed hl hthere hcl hn n1 n2 => omega

theorem stage_closer {s : ComHub} (h : Stage s) {pc : ClosePc} (hm : pc ∈ s.closers) : Stage (closerStep pc s) := by
  cases pc with
  | entered bOnDispatch =>
    refine h.move hm (if !s.bThread then .claiming else if bOnDispatch then .returned else .joining) rfl rfl rfl rfl
      ⟨ClosePc.noConfusion, ClosePc.noConfusion⟩ ?_
    split
    · exact ⟨ClosePc.noConfusion, ClosePc.noConfusion⟩
    split
    · exact ⟨ClosePc.noConfusion, ClosePc.noConfusion⟩
    · exact ⟨ClosePc.noConfusion, ClosePc.noConfusion⟩
  | joining =>
    exact h.move hm .claiming rfl rfl rfl rfl ⟨ClosePc.noConfusion, ClosePc.noConfusion⟩
      ⟨ClosePc.noConfusion, ClosePc.noConfusion⟩
  | claiming => exact stage_claiming h hm
  | taking => exact stage_taking h hm
  | closing => exact stage_closing h hm
  | returned => exact h

theorem use_keeps (s : Shared FlatCall FlatAnswer) (i : Nat) (a : FlatAnswer) :
    (s.use i a).there = s.there ∧ (s.use i a).closed = s.closed := by
  unfold Shared.use
  split
  · exact ⟨rfl, rfl⟩
  · exact ⟨rfl, rfl⟩

theorem stage_step (s : ComHub) (e : ComEv) (h : Stage s) : Stage (comStep s e) := by
  -- one who comes in at a place outside the last two steps
  have henter (pc : ClosePc) (h1 : (pc == .taking) = false) (h2 : (pc == .closing) = false) :
      (s.closers ++ [pc]).countP (· == .taking) = s.takers ∧ (s.closers ++ [pc]).countP (· == .closing) = s.closing := by
    rw [countP_put, countP_put, h1, h2]
    exact ⟨rfl, rfl⟩
  cases e with
  | begin m => exact h.same rfl rfl rfl rfl rfl rfl
  | use i a =>
    obtain ⟨hthere, hclosed⟩ := use_keeps s.shared i a
    exact h.same rfl hthere hclosed rfl rfl rfl
  | close bOnDispatch =>
    obtain ⟨h1, h2⟩ := henter (.entered bOnDispatch) rfl rfl
    exact h.same rfl rfl rfl rfl h1 h2
  | closer pc =>
    unfold comStep
    simp only
    split
    · exact stage_closer h ‹_›
    · exact h
  | leaveLoop =>
    unfold comStep
    simp only
    split
    · obtain ⟨h1, h2⟩ := henter .claiming rfl rfl
      exact h.same rfl rfl rfl rfl h1 h2
    · exact h

theorem stage_created (bThread : Bool) : Stage (.created bThread) := .open_ rfl rfl rfl rfl rfl rfl

/-- However many close it, the flat hub is closed once. -/
theorem close_once (bThread : Bool) (es : List ComEv) : Always comStep (fun s => s.closes ≤ 1) (.created bThread) es :=
  (always_of_inv stage_step (stage_created bThread)).mono fun _ h => h.once

/-! ## Runs -/

structure TearInv (s : ComHub) : Prop where
  stage : Stage s
  sound : AllSound s.shared

theorem TearInv.safe {s : ComHub} (h : TearInv s) : s.Safe := ⟨h.stage.once, h.sound.faults⟩

/-- Of the closers only the last two steps of CloseKernelHub touch m_pHub. -/
theorem closer_shared (s : ComHub) {pc : ClosePc} (h1 : pc ≠ .taking) (h2 : pc ≠ .closing) :
    (closerStep pc s).shared = s.shared := by
  cases pc with
  | entered bOnDispatch => rfl
  | joining => rfl
  | claiming =>
    unfold closerStep
    simp only
    split
    · rfl
    · rfl
  | taking => exact absurd rfl h1
  | closing => exact absurd rfl h2
  | returned => rfl

theorem Stage.at_taking {s : ComHub} (h : Stage s) (hm : .taking ∈ s.closers) : s.shared.there = true := by
  have hpos : 1 ≤ s.takers := countP_pos hm rfl
  cases h with
  | open_ hl ht => exact ht
  | claimed hl ht => exact ht
  | taken hl ht hc hn n1 n2 => omega
  | closed hl ht hc hn n1 n2 => omega

theorem Stage.at_closing {s : ComHub} (h : Stage s) (hm : .closing ∈ s.closers) : s.shared.there = false := by
  have hpos : 1 ≤ s.closing := countP_pos hm rfl
  cases h with
  | open_ hl ht hc hn n1 n2 => omega
  | claimed hl ht hc hn n1 n2 => omega
  | taken hl ht => exact ht
  | closed hl ht => exact ht

theorem tearInv_step (s : ComHub) (e : ComEv) (h : TearInv s) (hover : ¬ Overlaps s e) : TearInv (comStep s e) := by
  refine ⟨stage_step s e h.stage, ?_⟩
  cases e with
  | begin m => exact allSound_begin h.sound (guarded_prog m)
  | use i a => exact allSound_use h.sound i a
  | close bOnDispatch => exact h.sound
  | closer pc =>
    unfold comStep
    simp only
    split
    case isFalse => exact h.sound
    rename_i hm
    by_cases h1 : pc = .taking
    · subst h1
      exact allSound_take h.sound (h.stage.at_taking hm) fun u hu hr => hover ⟨hm, u, hu, hr⟩
    by_cases h2 : pc = .closing
    · subst h2
      refine allSound_close h.sound (h.stage.at_closing hm) fun u hu => ?_
      cases hc : u.prog.calls with
      | false => rfl
      | true => exact absurd ⟨hm, u, hu, hc⟩ hover
    rw [closer_shared s h1 h2]
    exact h.sound
  | leaveLoop =>
    unfold comStep
    simp only
    split
    · exact h.sound
    · exact h.sound

theorem use_not_overlaps {s : ComHub} {e : ComEv} (h : e.isUse = true) : ¬ Overlaps s e := by
  cases e with
  | use i a => exact fun h => h
  | begin => cases h
  | close => cases h
  | closer => cases h
  | leaveLoop => cases h

theorem tearInv_staysSafe {s : ComHub} (h : TearInv s) : s.StaysSafe := by
  intro fs hfs
  have hrun : Each comStep (fun s e => ¬ Overlaps s e) s fs := fun k e hk => use_not_overlaps (hfs e (List.mem_of_getElem? hk))
  exact (always_of_each tearInv_step h hrun).last.safe

/-- A program that goes on alone, as a run of the hub. -/
theorem exec_uses (i : Nat) (as : List FlatAnswer) (s : ComHub) :
    (exec comStep s (as.map (.use i))).shared = s.shared.uses i as := by
  induction as generalizing s with
  | nil => rfl
  | cons a as ih => exact ih (comStep s (.use i a))

theorem faults_not_safe {s : ComHub} {i : Nat} {as : List FlatAnswer} (h : (s.shared.uses i as).faults ≠ []) : ¬ s.StaysSafe := by
  intro hsafe
  have hs := hsafe (as.map (.use i)) fun f hf => by
    obtain ⟨a, -, rfl⟩ := List.mem_map.mp hf
    rfl
  rw [← exec_uses] at h
  exact h hs.faults

theorem comStep_closer {s : ComHub} {pc : ClosePc} (hm : pc ∈ s.closers) : comStep s (.closer pc) = closerStep pc s := if_pos hm

theorem not_overlaps (s : ComHub) (e : ComEv) (h : (comStep s e).StaysSafe) : ¬ Overlaps s e := by
  intro hover
  cases e with
  | closer pc =>
    cases pc with
    | taking =>
      obtain ⟨hm, ⟨p, ptr⟩, hu, hr⟩ := hover
      have hstep : (comStep s (.closer .taking)).shared = s.shared.take := by
        rw [comStep_closer hm]
        rfl
      obtain ⟨i, hi⟩ := List.mem_iff_getElem?.mp hu
      have hi' : (comStep s (.closer .taking)).shared.users[i]? = some ⟨p, ptr⟩ := by
        rw [hstep]
        exact hi
      obtain ⟨as, has⟩ := reads_again_faults p hi' (by rw [hstep]; rfl) hr
      exact faults_not_safe has h
    | closing =>
      obtain ⟨hm, u, hu, hc⟩ := hover
      have hstep : (comStep s (.closer .closing)).shared = s.shared.close := by
        rw [comStep_closer hm]
        rfl
      obtain ⟨i, hi⟩ := List.mem_iff_getElem?.mp hu
      have hi' : (comStep s (.closer .closing)).shared.users[i]? = some u := by
        rw [hstep]
        exact hi
      have hlate := late_call_faults hi' hc (Or.inr (by rw [hstep]; rfl)) default
      exact @faults_not_safe _ i [default] hlate h
    | entered => exact hover
    | joining => exact hover
    | claiming => exact hover
    | returned => exact hover
  | begin => exact hover
  | use => exact hover
  | close => exact hover
  | leaveLoop => exact hover

/-- In every state of a run the hub is safe, and stays so however what runs in it goes on, exactly when the teardown
    never takes the pointer from one who will read it again and never closes the hub under one about to call. -/
theorem teardown_iff (bThread : Bool) (es : List ComEv) :
    Always comStep ComHub.StaysSafe (.created bThread) es ↔
      Each comStep (fun s e => ¬ Overlaps s e) (.created bThread) es :=
  always_iff_each_of_inv tearInv_step (fun _ => tearInv_staysSafe) (fun s e _ h => not_overlaps s e h)
    ⟨stage_created bThread, allSound_created⟩

/-- Where neither a message nor get_SecurityInfo comes in, the pointer can be taken at any time. -/
theorem live_copies (bThread : Bool) (es : List ComEv)
    (hes : ∀ m, .begin m ∈ es → (∀ bOut, m ≠ .SecurityInfo bOut) ∧ m ≠ .OnMessage) :
    Each comStep (fun s e => e = .closer .taking → ¬ Overlaps s e) (.created bThread) es := by
  have hstep (s : ComHub) (e : ComEv) (h : AllTest s.shared) (he : e ∈ es) : AllTest (comStep s e).shared := by
    cases e with
    | begin m => exact allTest_begin h (tests_prog (hes m he).1 (hes m he).2)
    | use i a => exact allTest_use h i a
    | close bOnDispatch => exact h
    | closer pc =>
      unfold comStep
      simp only
      split
      case isFalse => exact h
      by_cases h1 : pc = .taking
      · subst h1
        exact h
      by_cases h2 : pc = .closing
      · subst h2
        exact h
      rw [closer_shared s h1 h2]
      exact h
    | leaveLoop =>
      unfold comStep
      simp only
      split
      · exact h
      · exact h
  have hmem : Each comStep (fun _ e => e ∈ es) (.created bThread) es := fun k e hk => List.mem_of_getElem? hk
  have h0 : AllTest (ComHub.created bThread).shared := fun u hu => absurd hu List.not_mem_nil
  have hall := always_of_each hstep h0 hmem
  rintro k e - rfl ⟨-, u, hu, hr⟩
  exact (hall k).not_rereads u hu hr

/-- A message arrives while the hub is closed: its callback finds m_pHub there, and then calls through NULL. -/
theorem callback_calls_null :
    ¬ ∀ bThread es, Always comStep ComHub.Safe (.created bThread) es := by
  intro hall
  -- the dispatch thread leaves its loop and tears the hub down between the test and the next read
  have hsafe := (hall true [.begin .OnMessage, .use 0 default, .close false, .closer (.entered false), .leaveLoop,
    .closer .claiming, .closer .taking, .use 0 default, .use 0 default]).last
  have hfaults : (exec comStep (.created true) [.begin .OnMessage, .use 0 default, .close false, .closer (.entered false),
    .leaveLoop, .closer .claiming, .closer .taking, .use 0 default, .use 0 default]).shared.faults = [.GetMsgInfo] := rfl
  rw [hsafe.faults] at hfaults
  cases hfaults

end TargetFacade
