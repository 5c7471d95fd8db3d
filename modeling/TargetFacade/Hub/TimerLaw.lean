/-
  TargetFacade.Hub.TimerLaw — the life of a timer over every run of one hub.

  An id is at one stage at a time: its message is still to post, or waiting, or the pump has it
  in hand, or one kernel timer runs for it, or OnTimer is due or has been called. A step moves
  it from one stage to the next, so an id is at no more stages than it has been handed out
  times (`stages_le`), and before the counter comes round no id is handed out twice
  (`handed_le_one`). A row names the kernel timer that runs for it, except while the pump is
  between SetPITimer and the locked section that writes the name down (`Named`).
-/

import TargetFacade.Hub.TimerMoves

namespace TargetFacade

open OrdMap Runs Bag

/-! ## The stages of an id -/

def ClientCall.posts (id : UInt32) : ClientCall → Bool
  | .posting uId => decide (uId = id)
  | _ => false

def SentMsg.arms (oAddress : HubAddress) (id : UInt32) (m : SentMsg) : Bool := decide (m.work oAddress.1 = .timer id)

/-- An arm or an OnTimer of `id` is still to come. -/
def PumpPc.owes (id : UInt32) : PumpPc → Bool
  | .arming uId _ _ | .compensating uId _ | .setting uId _ | .elapsed uId _ => decide (uId = id)
  | _ => false

/-- The pump is arming `id`, up to where it has written the name down. -/
def PumpPc.holds (id : UInt32) : PumpPc → Bool
  | .arming uId _ _ | .compensating uId _ | .setting uId _ | .recording uId _ => decide (uId = id)
  | _ => false

def KernelTimer.runs (id : UInt32) (t : KernelTimer) : Bool := !t.bKilled && decide (t.dwUserKey = id)

def Note.fires (id : UInt32) : Note → Bool
  | .onTimer timerId _ _ => decide (timerId = id)
  | _ => false

/-- SetTimer has answered S_OK with `id`. -/
def Note.returns (id : UInt32) : Note → Bool
  | .setTimer hr outTimerId => decide (hr = S_OK ∧ outTimerId = id)
  | _ => false

/-- How often `id` has been handed out. -/
def PumpHub.handed (s : PumpHub) (id : UInt32) : Nat := s.set.countP fun c => decide (c.uId = id)

def PumpHub.stages (s : PumpHub) (id : UInt32) : Nat :=
  s.calls.countP (ClientCall.posts id) + s.inbox.countP (SentMsg.arms s.oAddress id) + ifOne (s.pump.owes id) +
    s.kernel.countP (KernelTimer.runs id) + s.notes.countP (Note.fires id)

@[simp] theorem arms_timer (oAddress : HubAddress) (uId id : UInt32) :
    (msgTimer oAddress.1 uId).arms oAddress id = decide (uId = id) := by
  simp [SentMsg.arms]

theorem arms_of_ne {oAddress : HubAddress} {m : SentMsg} {id : UInt32} (h : m.work oAddress.1 ≠ .timer id) :
    m.arms oAddress id = false := decide_eq_false h

theorem arms_kill (oAddress : HubAddress) (uId id : UInt32) : (msgKill oAddress.1 uId).arms oAddress id = false :=
  arms_of_ne (by rw [work_kill]; exact PrivWork.noConfusion)

theorem arms_post (oAddress : HubAddress) (key : UInt32) (context : UInt64) (id : UInt32) :
    (msgPost oAddress.1 key context).arms oAddress id = false :=
  arms_of_ne (by rw [work_post]; exact PrivWork.noConfusion)

theorem arms_arrival {oAddress : HubAddress} {m : SentMsg} (id : UInt32) (h : m.strSource ≠ oAddress.1) :
    m.arms oAddress id = false := by
  refine arms_of_ne fun hw => h (own_work ?_).1
  rw [hw]
  trivial

theorem Note.Plain.fires {n : Note} (h : n.Plain) (id : UInt32) : n.fires id = false := by
  cases n <;> first | rfl | cases h

theorem Note.Plain.returns {n : Note} (h : n.Plain) (id : UInt32) : n.returns id = false := by
  cases n with
  | setTimer hr outTimerId => exact decide_eq_false fun hb => h hb.1
  | killTimer _ _ | post _ => rfl
  | killed _ | rearmed _ | onTimer _ _ _ | onPost _ _ => cases h

theorem runs_kill (k : Nat) (id : UInt32) (t : KernelTimer) (h : (t.kill k).runs id = true) : t.runs id = true := by
  unfold KernelTimer.kill at h
  split at h
  · simp [KernelTimer.runs] at h
  · exact h

theorem runs_kill_le (k : Nat) (id : UInt32) (l : List KernelTimer) :
    (KillP2PmsgTimer k l).countP (KernelTimer.runs id) ≤ l.countP (KernelTimer.runs id) := countP_map_le (runs_kill k id) l

variable {toMsecs : Nat → Nat} {polls : PumpHub → KernelTimer → Prop}

/-- An id moves from one stage to the next. -/
theorem stages_move {s s' : PumpHub} (h : TimerMove toMsecs polls s s') {id : UInt32} (hs : s.stages id ≤ s.handed id) :
    s'.stages id ≤ s'.handed id := by
  unfold PumpHub.stages PumpHub.handed at *
  cases h with
  | same | tick | sink => exact hs
  | answer hn =>
    simp only [PumpHub.note, countP_put, hn.fires, ifOne_false]
    exact hs
  | enter delay key =>
    simp only [countP_put, ClientCall.posts, ifOne_false]
    exact hs
  | register hc =>
    have htake := countP_take (ClientCall.posts id) hc
    simp only [ClientCall.posts, ifOne_false] at htake
    simp only [SetTimerLocked, countP_put, ClientCall.posts]
    omega
  | sent hc =>
    have htake := countP_take (ClientCall.posts id) hc
    simp only [ClientCall.posts] at htake
    simp only [countP_put, arms_timer, Note.fires, ifOne_false]
    omega
  | refuse hc hf =>
    have htake := countP_take (ClientCall.posts id) hc
    simp only [countP_put, ClientCall.posts, ifOne_false]
    omega
  | forget hc =>
    have htake := countP_take (ClientCall.posts id) hc
    simp only [countP_put, Note.fires, ifOne_false]
    omega
  | wantKill hrow =>
    simp only [countP_put, ClientCall.posts, ifOne_false]
    exact hs
  | sentKill hc =>
    have htake := countP_take (ClientCall.posts id) hc
    simp only [countP_put, Note.fires, ifOne_false, arms_kill]
    omega
  | refuseKill hc =>
    have htake := countP_take (ClientCall.posts id) hc
    simp only [countP_put, Note.fires, ifOne_false]
    omega
  | sentPost hf =>
    simp only [countP_put, Note.fires, ifOne_false, arms_post]
    exact hs
  | arrive hm =>
    simp only [countP_put, arms_arrival id hm, ifOne_false]
    exact hs
  | take hm =>
    have htake := countP_take (SentMsg.arms s.oAddress id) hm
    simp only
    omega
  | deliver hm hw =>
    have htake := countP_take (SentMsg.arms s.oAddress id) hm
    simp only [countP_put, Note.fires, ifOne_false]
    omega
  | arm hi hm hw hrow =>
    have htake := countP_take (SentMsg.arms s.oAddress id) hm
    simp only [SentMsg.arms, hw, PrivWork.timer.injEq] at htake
    simp only [hi, PumpPc.owes, ifOne_false] at hs ⊢
    omega
  | killGone hi hm hw hrow =>
    have htake := countP_take (SentMsg.arms s.oAddress id) hm
    simp only [countP_put, Note.fires, ifOne_false]
    omega
  | kill hi hm hw hrow =>
    have htake := countP_take (SentMsg.arms s.oAddress id) hm
    have hidle : ∀ k, PumpPc.owes id (if k ≠ 0 then .killing k else .idle) = false := fun k => by split <;> rfl
    simp only [countP_put, Note.fires, ifOne_false, hidle]
    omega
  | late hp _ | plain hp _ | remaining hp _ | compensate hp =>
    rw [hp] at hs
    exact hs
  | unset hp =>
    rw [hp] at hs
    simp only [PumpPc.owes, ifOne_false] at hs ⊢
    omega
  | set hp h0 hk =>
    rw [hp] at hs
    simp only [countP_put, PumpPc.owes, KernelTimer.runs, Bool.not_false, Bool.true_and, ifOne_false] at hs ⊢
    omega
  | record hp h0 hrow => exact Nat.le_trans (by simp [hp, PumpPc.owes]) hs
  | unarmed hp => exact Nat.le_trans (by simp [hp, PumpPc.owes]) hs
  | @retract id' k hp hrow =>
    have hle := runs_kill_le k id s.kernel
    simp only [hp, PumpPc.owes, ifOne_false] at hs ⊢
    omega
  | @killed k hp =>
    have hle := runs_kill_le k id s.kernel
    simp only [hp, PumpPc.owes, ifOne_false] at hs ⊢
    omega
  | drop hp =>
    rw [hp] at hs
    simp only [PumpPc.owes, ifOne_false] at hs ⊢
    omega
  | fire hp =>
    rw [hp] at hs
    simp only [countP_put, PumpPc.owes, Note.fires, ifOne_false] at hs ⊢
    omega
  | stray ht hrow =>
    have htake := countP_take (KernelTimer.runs id) ht
    simp only
    omega
  | rearm hi ht hk hpoll hrow hlt hr =>
    have htake := countP_take (KernelTimer.runs id) ht
    simp only [KernelTimer.runs, hk, Bool.not_false, Bool.true_and] at htake
    simp only [hi, countP_put, PumpPc.owes, Note.fires, ifOne_false] at hs ⊢
    omega
  | cancel hi ht hrow =>
    have htake := countP_take (KernelTimer.runs id) ht
    simp only
    omega
  | elapse hi ht hk hpoll hrow hdue =>
    have htake := countP_take (KernelTimer.runs id) ht
    simp only [KernelTimer.runs, hk, Bool.not_false, Bool.true_and] at htake
    simp only [hi, PumpPc.owes, ifOne_false] at hs ⊢
    omega

/-- SetTimer answers once for a row it has written. -/
theorem answers_move {s s' : PumpHub} (h : TimerMove toMsecs polls s s') {id : UInt32}
    (hre : ∀ uId, .refused uId S_OK ∉ s.calls)
    (hs : s.calls.countP (ClientCall.posts id) + s.notes.countP (Note.returns id) ≤ s.handed id) :
    s'.calls.countP (ClientCall.posts id) + s'.notes.countP (Note.returns id) ≤ s'.handed id := by
  unfold PumpHub.handed at *
  cases h with
  | same | tick | sink | arrive | take | arm | late | plain | remaining | compensate | unset | set | record | unarmed
    | retract | killed | drop | stray | cancel | elapse => exact hs
  | answer hn =>
    simp only [PumpHub.note, countP_put, hn.returns, ifOne_false]
    exact hs
  | enter delay key | wantKill hrow =>
    simp only [countP_put, ClientCall.posts, ifOne_false]
    exact hs
  | register hc =>
    have htake := countP_take (ClientCall.posts id) hc
    simp only [ClientCall.posts, ifOne_false] at htake
    simp only [SetTimerLocked, countP_put, ClientCall.posts]
    omega
  | sent hc =>
    have htake := countP_take (ClientCall.posts id) hc
    simp only [ClientCall.posts] at htake
    simp only [countP_put, Note.returns, true_and]
    omega
  | refuse hc hf =>
    have htake := countP_take (ClientCall.posts id) hc
    simp only [countP_put, ClientCall.posts, ifOne_false]
    omega
  | @forget uId hr hc =>
    have hne : ¬ (hr = S_OK ∧ 0 = id) := fun he => hre uId (he.1 ▸ hc)
    have htake := countP_take (ClientCall.posts id) hc
    simp only [countP_put, Note.returns, hne, decide_false, ifOne_false]
    omega
  | sentKill hc | refuseKill hc =>
    have htake := countP_take (ClientCall.posts id) hc
    simp only [countP_put, Note.returns, ifOne_false]
    omega
  | sentPost | deliver | killGone | kill | fire | rearm =>
    simp only [countP_put, Note.returns, ifOne_false]
    exact hs

/-! ## Which ids there are -/

/-- Some SetTimer has written a row under `id`. -/
def PumpHub.Given (s : PumpHub) (id : UInt32) : Prop := ∃ c ∈ s.set, c.uId = id

/-- A SetTimer was given `id` for `key`. -/
def PumpHub.GivenKey (s : PumpHub) (id key : UInt32) : Prop := ∃ c ∈ s.set, c.uId = id ∧ c.key = key

/-- Whatever names an id names one that was handed out, and a key comes from its SetTimer. -/
structure Known (s : PumpHub) : Prop where
  ids : s.set.map (·.uId) = (List.range s.set.length).map fun k => UInt32.ofNat (k + 1)
  next : s.uNextTimerId = UInt32.ofNat s.set.length
  refused : ∀ uId, .refused uId S_OK ∉ s.calls
  row : ∀ id row, s.timers[id]? = some row → s.GivenKey id row.uKey
  wanted : ∀ id, .killing id ∈ s.calls → s.Given id
  asked : ∀ m ∈ s.inbox, ∀ id, m.work s.csAddress = .kill id → s.Given id
  killed : ∀ id, .killed id ∈ s.notes → s.Given id
  kernel : ∀ t ∈ s.kernel, s.Given t.dwUserKey
  held : ∀ id, s.pump.holds id = true → s.Given id
  elapsed : ∀ id key, s.pump = .elapsed id key → s.GivenKey id key
  fired : ∀ id key uAt, .onTimer id key uAt ∈ s.notes → s.GivenKey id key

theorem GivenKey.given {s : PumpHub} {id key : UInt32} (h : s.GivenKey id key) : s.Given id := by
  obtain ⟨c, hc, hid, -⟩ := h
  exact ⟨c, hc, hid⟩

theorem handed_pos {s : PumpHub} {id : UInt32} (h : s.Given id) : 1 ≤ s.handed id := by
  obtain ⟨c, hc, hid⟩ := h
  exact countP_pos hc (decide_eq_true hid)

theorem given_move {s s' : PumpHub} (h : TimerMove toMsecs polls s s') {id : UInt32} (hg : s.Given id) : s'.Given id := by
  rcases set_move h with ⟨hs, -⟩ | ⟨uCalled, delay, key, -, rfl⟩
  · unfold PumpHub.Given at *
    rwa [hs]
  · obtain ⟨c, hc, hid⟩ := hg
    exact ⟨c, List.mem_append_left _ hc, hid⟩

theorem givenKey_move {s s' : PumpHub} (h : TimerMove toMsecs polls s s') {id key : UInt32} (hg : s.GivenKey id key) :
    s'.GivenKey id key := by
  rcases set_move h with ⟨hs, -⟩ | ⟨uCalled, delay, k, -, rfl⟩
  · unfold PumpHub.GivenKey at *
    rwa [hs]
  · obtain ⟨c, hc, hid⟩ := hg
    exact ⟨c, List.mem_append_left _ hc, hid⟩

theorem holds_move {s s' : PumpHub} (h : TimerMove toMsecs polls s s') {id : UInt32} (hh : s'.pump.holds id = true) :
    s.pump.holds id = true ∨ ∃ row, s.timers[id]? = some row := by
  cases h with
  | @arm m a row hi hm hw hrow => exact Or.inr ⟨row, of_decide_eq_true hh ▸ hrow⟩
  | @rearm t row hi ht hk hpoll hrow hlt hr => exact Or.inr ⟨row, of_decide_eq_true hh ▸ hrow⟩
  | kill hi hm hw hrow =>
    simp only at hh
    split at hh <;> cases hh
  | late hp | plain hp | remaining hp | compensate hp | unset hp | set hp =>
    rw [hp]
    exact Or.inl hh
  | record | unarmed | retract | killed | drop | fire | elapse => cases hh
  | _ => exact Or.inl hh

theorem elapsed_move {s s' : PumpHub} (h : TimerMove toMsecs polls s s') {id key : UInt32} (he : s'.pump = .elapsed id key) :
    s.pump = .elapsed id key ∨ s.pump = .idle ∧ ∃ row, s.timers[id]? = some row ∧ row.uKey = key := by
  cases h with
  | elapse hi ht hk hpoll hrow hdue =>
    obtain ⟨rfl, rfl⟩ := PumpPc.elapsed.inj he
    exact Or.inr ⟨hi, _, hrow, rfl⟩
  | kill hi hm hw hrow =>
    simp only at he
    split at he <;> cases he
  | arm | late | plain | remaining | compensate | unset | set | record | unarmed | retract | killed | drop | fire
    | rearm => cases he
  | _ => exact Or.inl he

/-- The ids are given out in turn. -/
theorem ids_move {s s' : PumpHub} (h : TimerMove toMsecs polls s s') (hk : Known s) :
    s'.set.map (·.uId) = (List.range s'.set.length).map (fun k => UInt32.ofNat (k + 1)) ∧
      s'.uNextTimerId = UInt32.ofNat s'.set.length := by
  rcases set_move h with ⟨hs, hn⟩ | ⟨uCalled, delay, key, -, rfl⟩
  · rw [hs, hn]
    exact ⟨hk.ids, hk.next⟩
  · have hnext : s.uNextTimerId + 1 = UInt32.ofNat (s.set.length + 1) := by
      rw [hk.next, UInt32.ofNat_add]
      rfl
    simp only [SetTimerLocked, List.map_append, List.map_cons, List.map_nil, List.length_append, List.length_cons,
      List.length_nil, Nat.zero_add, List.range_succ, hk.ids, hnext, and_self]

theorem known_move {s s' : PumpHub} (h : TimerMove toMsecs polls s s') (hk : Known s) : Known s' := by
  have hrow : ∀ id row, s'.timers[id]? = some row → s'.GivenKey id row.uKey := by
    intro id row' hr
    rcases row_move h hr with ⟨row, hr0, hkey, -⟩ | ⟨uCalled, delay, key, hc, rfl, rfl, rfl⟩
    · rw [hkey]
      exact givenKey_move h (hk.row id row hr0)
    · exact ⟨_, List.mem_append_right _ (List.mem_singleton.mpr rfl), rfl, rfl⟩
  have hgiven {id : UInt32} (hr : ∃ row, s.timers[id]? = some row) : s.Given id := by
    obtain ⟨row, hr⟩ := hr
    exact GivenKey.given (hk.row id row hr)
  have haddr : s'.csAddress = s.csAddress := congrArg Subtype.val (address_move h)
  obtain ⟨ns, hns, hdue, -⟩ := note_move h
  have hids := ids_move h hk
  refine ⟨hids.1, hids.2, ?_, hrow, ?_, ?_, ?_, ?_, ?_, ?_, ?_⟩
  · -- refused
    intro uId hm
    rcases call_move h hm with hm | hf
    · exact hk.refused uId hm
    · cases hf
  · -- wanted
    intro id hm
    refine given_move h ?_
    rcases call_move h hm with hm | hf
    · exact hk.wanted id hm
    · exact hgiven hf
  · -- asked
    intro m hm id hw
    rw [haddr] at hw
    refine given_move h ?_
    rcases kill_asked h hm hw with hm | hm
    · exact hk.asked m hm id hw
    · exact hk.wanted id hm
  · -- killed
    intro id hm
    refine given_move h ?_
    rw [hns] at hm
    rcases List.mem_append.mp hm with hm | hm
    · exact hk.killed id hm
    · obtain ⟨-, m, hm, hw⟩ := hdue _ hm
      exact hk.asked m hm id hw
  · -- kernel
    intro t ht
    refine given_move h ?_
    rcases kernel_move h ht with ⟨t0, ht0, -, hkey, -⟩ | ⟨nDelay, hp, -⟩
    · rw [hkey]
      exact hk.kernel t0 ht0
    · refine hk.held _ ?_
      rw [hp]
      exact decide_eq_true rfl
  · -- held
    intro id hh
    refine given_move h ?_
    rcases holds_move h hh with hh | hr
    · exact hk.held id hh
    · exact hgiven hr
  · -- elapsed
    intro id key he
    refine givenKey_move h ?_
    rcases elapsed_move h he with he | ⟨-, row, hr, rfl⟩
    · exact hk.elapsed id key he
    · exact hk.row id row hr
  · -- fired
    intro id key uAt hm
    refine givenKey_move h ?_
    rw [hns] at hm
    rcases List.mem_append.mp hm with hm | hm
    · exact hk.fired id key uAt hm
    · exact hk.elapsed id key (hdue _ hm).1

theorem handed_move {s s' : PumpHub} (h : TimerMove toMsecs polls s s') (id : UInt32) : s.handed id ≤ s'.handed id := by
  unfold PumpHub.handed
  rcases set_move h with ⟨hs, -⟩ | ⟨uCalled, delay, key, -, rfl⟩
  · exact Nat.le_of_eq (by rw [hs])
  · simp only [SetTimerLocked, countP_put]
    omega

/-- An id that a SetTimer takes now was not taken before, when it is handed out once at most. -/
theorem fresh_of_register {s : PumpHub} {uCalled : Nat} {delay key : UInt32}
    (hone : (SetTimerLocked uCalled delay key s).handed (s.uNextTimerId + 1) ≤ 1) : ¬ s.Given (s.uNextTimerId + 1) := by
  intro hg
  have hpos := handed_pos hg
  unfold PumpHub.handed at *
  simp only [SetTimerLocked, countP_put, decide_true, ifOne_true] at hone
  omega

/-! ## After a kill message -/

theorem dead_move {s s' : PumpHub} (h : TimerMove toMsecs polls s s') (hk : Known s) {id : UInt32} (hone : s'.handed id ≤ 1)
    (hd : .killed id ∈ s.notes → Dead s id) (hm : .killed id ∈ s'.notes) : Dead s' id := by
  obtain ⟨ns, hns, hdue, hgone⟩ := note_move h
  rw [hns] at hm
  rcases List.mem_append.mp hm with hm | hm
  · have hdead := hd hm
    refine ⟨?_, fun key he => ?_⟩
    · cases hr : s'.timers[id]? with
      | none => rfl
      | some row' =>
        rcases row_move h hr with ⟨row, hr0, -⟩ | ⟨uCalled, delay, key, -, rfl, rfl, -⟩
        · rw [hdead.row] at hr0
          cases hr0
        · exact absurd (hk.killed _ hm) (fresh_of_register hone)
    · rcases elapsed_move h he with he | ⟨-, row, hr, -⟩
      · exact hdead.due key he
      · rw [hdead.row] at hr
        cases hr
  · exact hgone id hm

/-- Within one step nothing is both processed as killed and fired. -/
theorem order_move {s s' : PumpHub} (h : TimerMove toMsecs polls s s') {id : UInt32} (hd : .killed id ∈ s.notes → Dead s id)
    (ho : s.notes.Pairwise fun a b => a = .killed id → b.fires id = false) :
    s'.notes.Pairwise fun a b => a = .killed id → b.fires id = false := by
  obtain ⟨ns, hns, hdue, -⟩ := note_move h
  have hfire {b : Note} (hb : b ∈ ns) (hf : b.fires id = true) : ∃ key, s.pump = .elapsed id key := by
    cases b with
    | onTimer timerId key uAt => exact ⟨key, of_decide_eq_true hf ▸ (hdue _ hb).1⟩
    | _ => cases hf
  rw [hns, List.pairwise_append]
  refine ⟨ho, List.pairwise_of_forall_mem_list fun a ha b hb hkill => ?_, fun a ha b hb hkill => ?_⟩
  · subst hkill
    refine Bool.eq_false_iff.mpr fun hf => ?_
    obtain ⟨key, hp⟩ := hfire hb hf
    exact PumpPc.noConfusion ((hdue _ ha).1.symm.trans hp)
  · subst hkill
    refine Bool.eq_false_iff.mpr fun hf => ?_
    obtain ⟨key, hp⟩ := hfire hb hf
    exact (hd ha).due key hp

/-! ## The kernel timer a row names -/

/-- What the row of `id` will have written as its kernel timer once the pump is done with it. -/
def PumpPc.name (id : UInt32) (nKernelID : Nat) : PumpPc → Nat
  | .arming uTimerId _ _ | .compensating uTimerId _ | .setting uTimerId _ => if uTimerId = id then 0 else nKernelID
  | .recording uTimerId nKernel => if uTimerId = id then nKernel else nKernelID
  | .idle | .killing _ | .elapsed _ _ => nKernelID

theorem name_of_not_holds {pc : PumpPc} {id : UInt32} {n : Nat} (h : pc.holds id = false) : pc.name id n = n := by
  cases pc with
  | arming | compensating | setting | recording => exact if_neg (of_decide_eq_false h)
  | idle | killing | elapsed => rfl

/-- The kernel's list, whatever timers it is for: an id names one timer, and the pump has the one it
    is about to write down. -/
structure KernelIds (s : PumpHub) : Prop where
  nodup : (s.kernel.map (·.nTimerID)).Nodup
  nonzero : ∀ t ∈ s.kernel, t.nTimerID ≠ 0
  recording : ∀ id k, s.pump = .recording id k → ∀ t ∈ s.kernel, t.nTimerID = k → t.dwUserKey = id

theorem killed_ids (k : Nat) (l : List KernelTimer) :
    (KillP2PmsgTimer k l).map (·.nTimerID) = l.map (·.nTimerID) := by
  unfold KillP2PmsgTimer
  rw [List.map_map]
  exact List.map_congr_left fun t _ => kill_nTimerID k t

theorem erased_nodup {l : List KernelTimer} (t : KernelTimer) (h : (l.map (·.nTimerID)).Nodup) :
    ((l.erase t).map (·.nTimerID)).Nodup := h.sublist (List.erase_sublist.map _)

theorem kernelIds_move {s s' : PumpHub} (h : TimerMove toMsecs polls s s') (hk : KernelIds s) : KernelIds s' := by
  have hnonzero : ∀ t ∈ s'.kernel, t.nTimerID ≠ 0 := by
    intro t ht
    cases h with
    | set hp h0 hfree =>
      rcases List.mem_append.mp ht with ht | ht
      · exact hk.nonzero t ht
      · rw [List.mem_singleton.mp ht]
        exact h0
    | retract | killed =>
      obtain ⟨u, hu, rfl⟩ := List.mem_map.mp ht
      rw [kill_nTimerID]
      exact hk.nonzero u hu
    | stray | rearm | cancel | elapse => exact hk.nonzero t (List.mem_of_mem_erase ht)
    | _ => exact hk.nonzero t ht
  refine ⟨?_, hnonzero, ?_⟩
  · cases h with
    | set hp h0 hfree =>
      rw [List.map_append, List.nodup_append]
      refine ⟨hk.nodup, List.nodup_singleton _, fun a ha b hb hab => ?_⟩
      obtain ⟨t, ht, rfl⟩ := List.mem_map.mp ha
      exact hfree t ht (hab.trans (List.mem_singleton.mp hb))
    | retract | killed =>
      rw [killed_ids]
      exact hk.nodup
    | stray | rearm | cancel | elapse => exact erased_nodup _ hk.nodup
    | _ => exact hk.nodup
  · intro id k hp t ht hn
    cases h with
    | @set id' nDelay k' hp' h0 hfree =>
      obtain ⟨rfl, rfl⟩ := PumpPc.recording.inj hp
      rcases List.mem_append.mp ht with ht | ht
      · exact absurd hn (hfree t ht)
      · rw [List.mem_singleton.mp ht]
    | unset =>
      obtain ⟨-, rfl⟩ := PumpPc.recording.inj hp
      exact absurd hn (hk.nonzero t ht)
    | kill =>
      simp only at hp
      split at hp <;> cases hp
    | arm | late | plain | remaining | compensate | record | unarmed | retract | killed | drop | fire | rearm | elapse =>
      cases hp
    | stray | cancel => exact hk.recording id k hp t (List.mem_of_mem_erase ht) hn
    | _ => exact hk.recording id k hp t ht hn

/-- How many kernel timers run for `id`, and that they bear its row's name. -/
def RunsAs (id : UInt32) (n : Nat) (kernel : List KernelTimer) : Prop :=
  kernel.countP (KernelTimer.runs id) = ifOne (decide (n ≠ 0)) ∧ ∀ t ∈ kernel, t.runs id = true → t.nTimerID = n

theorem runsAs_zero {id : UInt32} {kernel : List KernelTimer} (h : kernel.countP (KernelTimer.runs id) = 0) :
    RunsAs id 0 kernel := by
  refine ⟨h, fun t ht hr => ?_⟩
  have hpos := countP_pos ht hr
  omega

/-- Taking away a timer that does not run for `id`. -/
theorem RunsAs.erase {id : UInt32} {n : Nat} {kernel : List KernelTimer} {t : KernelTimer} (h : RunsAs id n kernel)
    (ht : t ∈ kernel) (hr : t.runs id = false) : RunsAs id n (kernel.erase t) := by
  have htake := countP_take (KernelTimer.runs id) ht
  rw [hr, ifOne_false] at htake
  exact ⟨htake.trans h.1, fun u hu => h.2 u (List.mem_of_mem_erase hu)⟩

/-- Killing under a number that no timer of `id` has. -/
theorem RunsAs.kill {id : UInt32} {n k : Nat} {kernel : List KernelTimer} (h : RunsAs id n kernel)
    (hk : ∀ t ∈ kernel, t.nTimerID = k → t.dwUserKey ≠ id) : RunsAs id n (KillP2PmsgTimer k kernel) := by
  have hsame : ∀ t ∈ kernel, (t.kill k).runs id = t.runs id := by
    intro t ht
    unfold KernelTimer.kill
    split
    · rename_i hn
      simp [KernelTimer.runs, hk t ht hn]
    · rfl
  constructor
  · rw [← h.1]
    unfold KillP2PmsgTimer
    rw [List.countP_map]
    exact List.countP_congr fun t ht => by rw [Function.comp_apply, hsame t ht]
  · intro u hu hr
    obtain ⟨t, ht, rfl⟩ := List.mem_map.mp hu
    rw [kill_nTimerID]
    exact h.2 t ht ((hsame t ht).symm.trans hr)

structure RowNames (s : PumpHub) (id : UInt32) : Prop where
  named : ∀ row, s.timers[id]? = some row → RunsAs id (s.pump.name id row.nKernelID) s.kernel
  killing : ∀ k, s.pump = .killing k → ∀ t ∈ s.kernel, t.nTimerID = k → t.dwUserKey = id → s.timers[id]? = none

/-- What a row names with the pump at `pc`. -/
theorem RowNames.names {s : PumpHub} {id : UInt32} (ha : RowNames s id) {row : TimerRow} (hr : s.timers[id]? = some row)
    {pc : PumpPc} (hpc : s.pump = pc) : RunsAs id (pc.name id row.nKernelID) s.kernel := hpc ▸ ha.named row hr

/-- Between them the ids of the kernel tell the timers apart: the one a row names is its own. -/
theorem RowNames.owner {s : PumpHub} {id : UInt32} {row : TimerRow} (ha : RowNames s id) (hi : KernelIds s)
    (hrow : s.timers[id]? = some row) (hidle : s.pump = .idle) (h0 : row.nKernelID ≠ 0) {t : KernelTimer}
    (ht : t ∈ s.kernel) (hnum : t.nTimerID = row.nKernelID) : t.dwUserKey = id := by
  obtain ⟨hcount, hname⟩ := ha.names hrow hidle
  obtain ⟨u, hu, hrun⟩ := exists_of_countP (l := s.kernel) (p := KernelTimer.runs id) (by simp [hcount, PumpPc.name, h0])
  have hsame : t = u := List.inj_on_of_nodup_map hi.nodup ht hu (hnum.trans (hname u hu hrun).symm)
  simp only [KernelTimer.runs, Bool.and_eq_true, decide_eq_true_eq] at hrun
  exact hsame ▸ hrun.2

/-- A row's timer goes on under the name the row gives it. -/
theorem named_move {s s' : PumpHub} (h : TimerMove toMsecs polls s s') (hk : Known s) (hi : KernelIds s)
    (hst : ∀ id, s.stages id ≤ s.handed id) {id : UInt32} (hone : s'.handed id ≤ 1) (ha : RowNames s id) {row' : TimerRow}
    (hr : s'.timers[id]? = some row') : RunsAs id (s'.pump.name id row'.nKernelID) s'.kernel := by
  have hs : s.stages id ≤ 1 := Nat.le_trans (hst id) (Nat.le_trans (handed_move h id) hone)
  unfold PumpHub.stages at hs
  cases h with
  | @register uCalled delay key hc =>
    rcases get_of_insert hr with ⟨rfl, rfl⟩ | ⟨-, hr⟩
    · simp only [SetTimerLocked]
      have hnot := fresh_of_register hone
      have hholds : s.pump.holds (s.uNextTimerId + 1) = false := Bool.eq_false_iff.mpr fun hh => hnot (hk.held _ hh)
      rw [name_of_not_holds hholds]
      refine runsAs_zero (countP_of_none fun t ht => Bool.eq_false_iff.mpr fun hrun => hnot ?_)
      simp only [KernelTimer.runs, Bool.and_eq_true, decide_eq_true_eq] at hrun
      exact hrun.2 ▸ hk.kernel t ht
    · exact ha.named row' hr
  | forget => exact ha.named row' (get_of_erase hr).2
  | @kill m a row hidle hm hw hrow =>
    have hn := ha.names (get_of_erase hr).2 hidle
    simp only
    split <;> exact hn
  | @arm m a row hidle hm hw hrow =>
    have hn := ha.names hr hidle
    by_cases he : a = id
    · subst he
      have harms : m.arms s.oAddress a = true := decide_eq_true hw
      have hcount := countP_pos hm harms
      simp only [PumpPc.name, if_true]
      exact runsAs_zero (by omega)
    · simpa only [PumpPc.name, he, if_false] using hn
  | late hp | plain hp | remaining hp | compensate hp =>
    have hn := ha.names hr hp
    exact hn
  | unset hp =>
    have hn := ha.names hr hp
    exact hn
  | @set a nDelay k hp h0 hfree =>
    have hn := ha.names hr hp
    simp only [PumpPc.name] at hn ⊢
    by_cases he : a = id
    · subst he
      simp only [if_true] at hn ⊢
      refine ⟨?_, fun t ht hrun => ?_⟩
      · rw [countP_put, hn.1]
        simp [KernelTimer.runs, h0]
      · rcases List.mem_append.mp ht with ht | ht
        · exact absurd (hn.2 t ht hrun) (hi.nonzero t ht)
        · rw [List.mem_singleton.mp ht]
    · simp only [he, if_false] at hn ⊢
      refine ⟨?_, fun t ht hrun => ?_⟩
      · rw [countP_put, hn.1]
        simp [KernelTimer.runs, he]
      · rcases List.mem_append.mp ht with ht | ht
        · exact hn.2 t ht hrun
        · rw [List.mem_singleton.mp ht] at hrun
          simp [KernelTimer.runs, he] at hrun
  | @record a k row hp h0 hrow =>
    rcases get_of_insert hr with ⟨rfl, rfl⟩ | ⟨he, hr⟩
    · have hn := ha.names hrow hp
      simpa only [PumpPc.name, if_true] using hn
    · have hn := ha.names hr hp
      simpa only [PumpPc.name, he, if_false] using hn
  | @unarmed a hp =>
    obtain ⟨he, hr⟩ := get_of_erase hr
    have hn := ha.names hr hp
    simpa only [PumpPc.name, he, if_false] using hn
  | @retract a k hp hrow =>
    have hn := ha.names hr hp
    have he : a ≠ id := by
      intro he
      rw [he, hr] at hrow
      cases hrow
    simp only [PumpPc.name, he, if_false] at hn
    exact hn.kill fun t ht hnum hkey => he ((hi.recording a k hp t ht hnum).symm.trans hkey)
  | @killed k hp =>
    have hn := ha.names hr hp
    refine hn.kill fun t ht hnum hkey => ?_
    rw [ha.killing k hp t ht hnum hkey] at hr
    cases hr
  | drop hp | fire hp =>
    have hn := ha.names hr hp
    exact hn
  | @stray t ht hrow =>
    refine (ha.named row' hr).erase ht (Bool.eq_false_iff.mpr fun hrun => ?_)
    simp only [KernelTimer.runs, Bool.and_eq_true, decide_eq_true_eq] at hrun
    rw [hrun.2, hr] at hrow
    cases hrow
  | @rearm t row hidle ht hk' hpoll hrow hlt hretry =>
    by_cases he : t.dwUserKey = id
    · have htake := countP_take (KernelTimer.runs id) ht
      simp only [KernelTimer.runs, hk', he, Bool.not_false, Bool.true_and, decide_true, ifOne_true] at htake
      simp only [PumpPc.name, he, if_true]
      exact runsAs_zero (by omega)
    · simp only [get_insert, he, if_false] at hr
      have hn := ha.names hr hidle
      simp only [PumpPc.name, he, if_false]
      exact hn.erase ht (by simp [KernelTimer.runs, he])
  | @cancel t row hidle ht hrow =>
    obtain ⟨he, hr⟩ := get_of_erase hr
    exact (ha.named row' hr).erase ht (by simp [KernelTimer.runs, he])
  | @elapse t row hidle ht hk' hpoll hrow hdue =>
    obtain ⟨he, hr⟩ := get_of_erase hr
    have hn := ha.names hr hidle
    exact hn.erase ht (by simp [KernelTimer.runs, he])
  | _ => exact ha.named row' hr

/-- A timer that is being killed in the kernel has no row. -/
theorem killing_move {s s' : PumpHub} (h : TimerMove toMsecs polls s s') (hk : Known s) (hi : KernelIds s)
    (has : ∀ id, RowNames s id) {id : UInt32} (hone : s'.handed id ≤ 1) {k : Nat} (hp : s'.pump = .killing k) {t : KernelTimer}
    (ht : t ∈ s'.kernel) (hnum : t.nTimerID = k) (hkey : t.dwUserKey = id) : s'.timers[id]? = none := by
  have ha := has id
  cases h with
  | @register uCalled delay key hc =>
    have hne : s.uNextTimerId + 1 ≠ id := by
      intro he
      subst he
      exact fresh_of_register hone (hkey ▸ hk.kernel t ht)
    simp only [SetTimerLocked, get_insert, hne, if_false]
    exact ha.killing k hp t ht hnum hkey
  | forget =>
    rw [get_erase, ha.killing k hp t ht hnum hkey]
    exact ite_self none
  | @kill m a row hidle hm hw hrow =>
    simp only at hp hnum ht ⊢
    split at hp
    · obtain rfl := PumpPc.killing.inj hp
      have hown := (has a).owner hi hrow hidle ‹_› ht hnum
      rw [← hkey, hown]
      simp
    · cases hp
  | arm | late | plain | remaining | compensate | unset | set | record | unarmed | retract | killed | drop | fire | rearm
    | elapse => cases hp
  | stray => exact ha.killing k hp t (List.mem_of_mem_erase ht) hnum hkey
  | cancel =>
    rw [get_erase, ha.killing k hp t (List.mem_of_mem_erase ht) hnum hkey]
    exact ite_self none
  | _ => exact ha.killing k hp t ht hnum hkey

theorem arms_move {s s' : PumpHub} (h : TimerMove toMsecs polls s s') (hk : Known s) (hi : KernelIds s)
    (hst : ∀ id, s.stages id ≤ s.handed id) (hones : ∀ id, s'.handed id ≤ 1) (has : ∀ id, RowNames s id) (id : UInt32) :
    RowNames s' id := by
  constructor
  · intro row' hr
    exact named_move h hk hi hst (hones id) (has id) hr
  · intro k hp t ht hnum hkey
    exact killing_move h hk hi has (hones id) hp ht hnum hkey

/-! ## Every run -/

theorem uId_inj {n j k : Nat} (hn : n < UInt32.size) (hj : j < n) (hk : k < n)
    (h : UInt32.ofNat (j + 1) = UInt32.ofNat (k + 1)) : j = k := by
  have hmod := congrArg UInt32.toNat h
  rw [UInt32.toNat_ofNat_of_lt' (by omega), UInt32.toNat_ofNat_of_lt' (by omega)] at hmod
  omega

theorem Known.nodup {s : PumpHub} (hk : Known s) (hn : s.set.length < UInt32.size) : (s.set.map (·.uId)).Nodup := by
  rw [hk.ids]
  refine List.Nodup.map_on (fun j hj k hk he => ?_) List.nodup_range
  exact uId_inj hn (List.mem_range.mp hj) (List.mem_range.mp hk) he

theorem handed_le_one {s : PumpHub} (hk : Known s) (hn : s.set.length < UInt32.size) (id : UInt32) : s.handed id ≤ 1 := by
  have hcount := List.nodup_iff_count_le_one.mp (hk.nodup hn) id
  rw [List.count, List.countP_map] at hcount
  exact hcount

theorem given_ne_zero {s : PumpHub} (hk : Known s) (hn : s.set.length < UInt32.size) {id : UInt32} (hg : s.Given id) :
    id ≠ 0 := by
  obtain ⟨c, hc, rfl⟩ := hg
  have hmem : c.uId ∈ s.set.map (·.uId) := List.mem_map_of_mem hc
  rw [hk.ids] at hmem
  obtain ⟨k, hlt, he⟩ := List.mem_map.mp hmem
  have hlt := List.mem_range.mp hlt
  intro h0
  have hval := congrArg UInt32.toNat (he.trans h0)
  rw [UInt32.toNat_ofNat_of_lt' (by omega)] at hval
  cases hval

structure TimerInv (s : PumpHub) : Prop where
  known : Known s
  kernel : KernelIds s
  stages : ∀ id, s.stages id ≤ s.handed id
  answers : ∀ id, s.calls.countP (ClientCall.posts id) + s.notes.countP (Note.returns id) ≤ s.handed id
  dead : ∀ id, s.handed id ≤ 1 → .killed id ∈ s.notes → Dead s id
  order : ∀ id, s.handed id ≤ 1 → s.notes.Pairwise fun a b => a = .killed id → b.fires id = false
  arms : (∀ id, s.handed id ≤ 1) → ∀ id, RowNames s id

theorem timerInv_created (oAddress : HubAddress) (now : Nat) : TimerInv (PumpHub.created oAddress now) := by
  constructor
  · exact ⟨rfl, rfl, by simp [PumpHub.created], fun id row h => by simp [PumpHub.created] at h,
      by simp [PumpHub.created], by simp [PumpHub.created], by simp [PumpHub.created], by simp [PumpHub.created],
      fun id h => Bool.noConfusion h, fun id key h => PumpPc.noConfusion h, by simp [PumpHub.created]⟩
  · exact ⟨List.nodup_nil, by simp [PumpHub.created], fun id k h => PumpPc.noConfusion h⟩
  · exact fun id => Nat.le_refl 0
  · exact fun id => Nat.le_refl 0
  · exact fun id _ h => absurd h List.not_mem_nil
  · exact fun id _ => List.Pairwise.nil
  · exact fun _ id => ⟨fun row h => by simp [PumpHub.created] at h, fun k h => PumpPc.noConfusion h⟩

theorem timerInv_move {s s' : PumpHub} (h : TimerMove toMsecs polls s s') (hi : TimerInv s) : TimerInv s' := by
  have hone {id : UInt32} (hs : s'.handed id ≤ 1) : s.handed id ≤ 1 := Nat.le_trans (handed_move h id) hs
  constructor
  · exact known_move h hi.known
  · exact kernelIds_move h hi.kernel
  · exact fun id => stages_move h (hi.stages id)
  · exact fun id => answers_move h hi.known.refused (hi.answers id)
  · exact fun id hs => dead_move h hi.known hs (hi.dead id (hone hs))
  · exact fun id hs => order_move h (hi.dead id (hone hs)) (hi.order id (hone hs))
  · exact fun hs => arms_move h hi.known hi.kernel hi.stages hs (hi.arms fun id => hone (hs id))

theorem timerInv_run (toMsecs : Nat → Nat) (oAddress : HubAddress) (now : Nat) (es : List PumpEv) :
    TimerInv (exec (pumpHubStep toMsecs) (PumpHub.created oAddress now) es) :=
  (always_of_inv (fun s e hi => timerInv_move
    (pumpHubStep_move s e fun _ _ => trivial : TimerMove toMsecs (fun _ _ => True) s _) hi) (timerInv_created oAddress now)).last

/-- The life of the timers of a hub. -/
structure TimerLaw (s : PumpHub) : Prop where
  nonzero : ∀ id, .setTimer S_OK id ∈ s.notes → id ≠ 0
  once : ∀ id, s.notes.countP (Note.returns id) ≤ 1
  fires : ∀ id, s.notes.countP (Note.fires id) ≤ 1
  /-- The key is that of the one SetTimer call the id was handed out to. -/
  ownKey : ∀ id key uAt, .onTimer id key uAt ∈ s.notes →
    ∃ c ∈ s.set, c.uId = id ∧ c.key = key ∧ ∀ d ∈ s.set, d.uId = id → d = c
  killed : ∀ id, s.notes.Pairwise fun a b => a = .killed id → b.fires id = false

def PumpHub.Names (s : PumpHub) (id : UInt32) (row : TimerRow) : Prop :=
  ∃ t ∈ s.kernel, t.runs id = true ∧ t.nTimerID = row.nKernelID ∧ ∀ u ∈ s.kernel, u.runs id = true → u = t

/-- Every row the pump has armed names the one kernel timer armed for it. -/
def PumpHub.AllNamed (s : PumpHub) : Prop :=
  ∀ id row, s.timers[id]? = some row → row.nKernelID ≠ 0 → s.Names id row

/-- The same of the rows the pump is not arming again. -/
def PumpHub.RestNamed (s : PumpHub) : Prop :=
  ∀ id row, s.timers[id]? = some row → row.nKernelID ≠ 0 → s.pump.holds id = false → s.Names id row

theorem TimerInv.law {s : PumpHub} (hi : TimerInv s) (hn : s.set.length < UInt32.size) : TimerLaw s := by
  have hone := handed_le_one hi.known hn
  constructor
  · intro id hm
    have hreturns : (Note.setTimer S_OK id).returns id = true := decide_eq_true ⟨rfl, rfl⟩
    have hpos := countP_pos hm hreturns
    have hans := hi.answers id
    obtain ⟨c, hc, hid⟩ := exists_of_countP (l := s.set) (p := fun c => decide (c.uId = id))
      (by unfold PumpHub.handed at hans; omega)
    exact given_ne_zero hi.known hn ⟨c, hc, of_decide_eq_true hid⟩
  · intro id
    have hans := hi.answers id
    have := hone id
    omega
  · intro id
    have hst := hi.stages id
    have := hone id
    unfold PumpHub.stages at hst
    omega
  · intro id key uAt hm
    obtain ⟨c, hc, hid, hkey⟩ := hi.known.fired id key uAt hm
    refine ⟨c, hc, hid, hkey, fun d hd hdid => ?_⟩
    exact List.inj_on_of_nodup_map (hi.known.nodup hn) hd hc (hdid.trans hid.symm)
  · exact fun id => hi.order id (hone id)

theorem TimerInv.restNamed {s : PumpHub} (hi : TimerInv s) (hn : s.set.length < UInt32.size) : s.RestNamed := by
  intro id row hrow h0 hrest
  obtain ⟨hcount, hname⟩ := (hi.arms (handed_le_one hi.known hn) id).named row hrow
  rw [name_of_not_holds hrest] at hcount hname
  obtain ⟨t, ht, hrun⟩ := exists_of_countP (l := s.kernel) (p := KernelTimer.runs id) (by simp [hcount, h0])
  refine ⟨t, ht, hrun, hname t ht hrun, fun u hu hru => ?_⟩
  exact eq_of_countP_le_one (by simp [hcount, h0]) hu ht hru hrun

/-- Before the counter of a hub comes round, every run keeps the law of its timers. -/
theorem timer_law (toMsecs : Nat → Nat) (oAddress : HubAddress) (now : Nat) (es : List PumpEv)
    (h : (exec (pumpHubStep toMsecs) (PumpHub.created oAddress now) es).set.length < UInt32.size) :
    TimerLaw (exec (pumpHubStep toMsecs) (PumpHub.created oAddress now) es) ∧
      (exec (pumpHubStep toMsecs) (PumpHub.created oAddress now) es).RestNamed :=
  have hi := timerInv_run toMsecs oAddress now es
  ⟨hi.law h, hi.restNamed h⟩

/-- A timer of 500 ms set at 900 ms, its message taken at once. Its kernel timer is due at 500 ms and
    calls back at the next wake-up, 400 ms early: the pump is about to arm it again. -/
def earlyRun : List PumpEv :=
  [.setExtEvents true, .tick 900, .setTimer true 500 7, .client (.entered 900 500 7) {}, .client (.posting 1) {},
    .pump (msgTimer (L "hub") 1), .turn 0, .turn 1, .turn 0, .tick 100, .callback false ⟨1, 1, 500, false⟩]

/-- The re-armed timer, up to its OnTimer. -/
def lateRun : List PumpEv :=
  earlyRun ++ [.turn 0, .turn 0, .turn 2, .turn 0, .tick 1000, .callback false ⟨2, 1, 1400, false⟩, .turn 0]

theorem rearming_not_named : ¬ (∀ (toMsecs : Nat → Nat) (oAddress : HubAddress) (now : Nat) (es : List PumpEv),
    (exec (pumpHubStep toMsecs) (PumpHub.created oAddress now) es).set.length < UInt32.size →
      TimerLaw (exec (pumpHubStep toMsecs) (PumpHub.created oAddress now) es) ∧
        (exec (pumpHubStep toMsecs) (PumpHub.created oAddress now) es).AllNamed) := by
  intro h
  have hset : (exec (pumpHubStep id) (PumpHub.created hubAddress 0) earlyRun).set.length < UInt32.size := by decide +kernel
  have hrow : (exec (pumpHubStep id) (PumpHub.created hubAddress 0) earlyRun).timers[(1 : UInt32)]? =
      some ⟨1, 7, 1400, 1⟩ := by decide +kernel
  have hkernel : (exec (pumpHubStep id) (PumpHub.created hubAddress 0) earlyRun).kernel = [] := by decide +kernel
  obtain ⟨t, ht, -⟩ := (h id hubAddress 0 earlyRun hset).2 1 _ hrow (by decide)
  rw [hkernel] at ht
  cases ht

theorem timer_law_late : TimerLaw (exec (pumpHubStep id) (PumpHub.created hubAddress 0) lateRun) ∧
    (exec (pumpHubStep id) (PumpHub.created hubAddress 0) lateRun).RestNamed ∧
    .onTimer 1 7 2000 ∈ (exec (pumpHubStep id) (PumpHub.created hubAddress 0) lateRun).notes := by
  have hset : (exec (pumpHubStep id) (PumpHub.created hubAddress 0) lateRun).set.length < UInt32.size := by decide +kernel
  obtain ⟨hlaw, hnamed⟩ := timer_law id hubAddress 0 lateRun hset
  exact ⟨hlaw, hnamed, by decide +kernel⟩

end TargetFacade
