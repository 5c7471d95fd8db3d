/-
  TargetFacade.Hub.TimerClock — no timer is early (FacadeHub.cpp: ArmPumpTimer, On_PITimer and
  the notes on the kernel's clock at the top of the file).

  The kernel reads the time in whole seconds when it is armed and when it polls, so the timer of
  a first arm can call back up to a second before the row's deadline (`KernelTimer.Covers`). On_PITimer
  then arms again with the part of the second that has gone added to the delay: however late
  SetPITimer is called after that, its deadline is not before the row's. A row is re-armed once
  at most, and the second callback finds its deadline passed.
-/

import TargetFacade.Hub.TimerLaw

namespace TargetFacade

open OrdMap Runs Bag

/-- The kernel calls back as elapsed at a wake-up whose second has reached the deadline. -/
def PumpHub.Polls (s : PumpHub) (t : KernelTimer) : Prop := t.nDue ≤ secondOf s.now

instance (s : PumpHub) (t : KernelTimer) : Decidable (s.Polls t) := inferInstanceAs (Decidable (_ ≤ _))

def PumpEv.Polled (s : PumpHub) (e : PumpEv) : Prop := ∀ t, e = .callback false t → s.Polls t

def Note.rearms (id : UInt32) : Note → Bool
  | .rearmed uTimerId => decide (uTimerId = id)
  | _ => false

/-- How often `id` was armed again. -/
def PumpHub.rearms (s : PumpHub) (id : UInt32) : Nat := s.notes.countP (Note.rearms id)

/-- A SetTimer of `id` whose message the pump has not taken. -/
def PumpHub.waits (s : PumpHub) (id : UInt32) : Nat :=
  s.calls.countP (ClientCall.posts id) + s.inbox.countP (SentMsg.arms s.oAddress id)

theorem Note.Plain.rearms {n : Note} (h : n.Plain) (id : UInt32) : n.rearms id = false := by
  cases n <;> first | rfl | cases h

variable {toMsecs : Nat → Nat}

theorem now_move {s s' : PumpHub} (h : TimerMove toMsecs PumpHub.Polls s s') : s.now ≤ s'.now := by
  cases h with
  | tick n => exact Nat.le_add_right _ _
  | _ => exact Nat.le_refl _

/-! ## The deadline of a row -/

structure Deadlines (s : PumpHub) : Prop where
  entered : ∀ uCalled delay key, .entered uCalled delay key ∈ s.calls → uCalled ≤ s.now
  row : ∀ id row, s.timers[id]? = some row → ∃ c ∈ s.set, c.uId = id ∧
    c.uCalled + c.delay.toNat ≤ row.uDeadline ∧ row.uDeadline ≤ s.now + c.delay.toNat

theorem deadlines_move {s s' : PumpHub} (h : TimerMove toMsecs PumpHub.Polls s s') (hd : Deadlines s) : Deadlines s' := by
  have hnow := now_move h
  constructor
  · intro uCalled delay key hc
    rcases call_move h hc with hc | hc
    · exact Nat.le_trans (hd.entered _ _ _ hc) hnow
    · exact Nat.le_trans (Nat.le_of_eq hc) hnow
  · intro id row' hr
    rcases row_move h hr with ⟨row, hr0, -, hD⟩ | ⟨uCalled, delay, key, hc, rfl, rfl, rfl⟩
    · obtain ⟨c, hc, hid, hlo, hhi⟩ := hd.row id row hr0
      have hmem : c ∈ s'.set := by
        rcases set_move h with ⟨hs, -⟩ | ⟨uCalled, delay, key, -, rfl⟩
        · rwa [hs]
        · exact List.mem_append_left _ hc
      exact ⟨c, hmem, hid, by omega, by omega⟩
    · have hle := hd.entered _ _ _ hc
      refine ⟨_, List.mem_append_right _ (List.mem_singleton.mpr rfl), rfl, ?_, Nat.le_refl _⟩
      exact Nat.add_le_add_right hle _

/-! ## What the pump and the kernel have of it -/

/-- A kernel timer of a first arm is less than a second before its row's deadline, one of a second arm is
    not before it, unless the deadline had passed already. -/
def KernelTimer.Covers (now : Nat) (row : TimerRow) (t : KernelTimer) : Prop :=
  row.uRearms = 0 ∧ row.uDeadline < t.nDue + 1000 ∨ row.uDeadline ≤ t.nDue ∨ row.uDeadline ≤ now

def PumpPc.Covers (now : Nat) (id : UInt32) (row : TimerRow) : PumpPc → Prop
  | .arming uTimerId uDeadlineTick bCompensate => uTimerId = id →
      uDeadlineTick = row.uDeadline ∧ if bCompensate then uDeadlineTick < now + 1000 else row.uRearms = 0
  | .compensating uTimerId nDelay => uTimerId = id → row.uDeadline ≤ now + nDelay ∧ nDelay < 1000
  | .setting uTimerId nDelay => uTimerId = id →
      row.uRearms = 0 ∧ row.uDeadline ≤ now + nDelay ∨ row.uDeadline ≤ secondOf now + nDelay ∨ row.uDeadline ≤ now
  | .idle | .recording _ _ | .killing _ | .elapsed _ _ => True

theorem KernelTimer.Covers.mono {a b : Nat} (hab : a ≤ b) {row : TimerRow} {t : KernelTimer} (h : t.Covers a row) :
    t.Covers b row := by
  unfold KernelTimer.Covers at *
  omega

theorem PumpPc.Covers.mono {a b : Nat} (hab : a ≤ b) {id : UInt32} {row : TimerRow} {pc : PumpPc}
    (h : pc.Covers a id row) : pc.Covers b id row := by
  have hsec := secondOf_mono hab
  cases pc with
  | arming uTimerId D bCompensate =>
    intro he
    obtain ⟨hD, hb⟩ := h he
    refine ⟨hD, ?_⟩
    cases bCompensate with
    | true =>
      simp only [if_true] at hb ⊢
      omega
    | false => exact hb
  | compensating uTimerId nDelay =>
    intro he
    have := h he
    omega
  | setting uTimerId nDelay =>
    intro he
    have := h he
    omega
  | _ => trivial

theorem PumpPc.covers_of_not_holds {pc : PumpPc} {id : UInt32} (h : pc.holds id = false) (now : Nat) (row : TimerRow) :
    pc.Covers now id row := by
  cases pc with
  | arming | compensating | setting => exact fun he => absurd he (of_decide_eq_false h)
  | _ => trivial

structure Covered (s : PumpHub) (id : UInt32) : Prop where
  pump : ∀ row, s.timers[id]? = some row → s.pump.Covers s.now id row
  kernel : ∀ row, s.timers[id]? = some row → ∀ t ∈ s.kernel, t.runs id = true → t.Covers s.now row

/-- A timer that calls back before the row's deadline is the first arm's. -/
theorem Covered.first {s : PumpHub} {t : KernelTimer} {row : TimerRow} (hc : Covered s t.dwUserKey) (ht : t ∈ s.kernel)
    (hk : t.bKilled = false) (hpoll : s.Polls t) (hrow : s.timers[t.dwUserKey]? = some row) (hlt : s.now < row.uDeadline) :
    row.uRearms = 0 ∧ row.uDeadline < s.now + 1000 := by
  have hrun : t.runs t.dwUserKey = true := by simp [KernelTimer.runs, hk]
  have hcov := hc.kernel row hrow t ht hrun
  have hle := secondOf_le s.now
  unfold PumpHub.Polls at hpoll
  unfold KernelTimer.Covers at hcov
  omega

/-! ## How often a row is armed again -/

structure Counted (s : PumpHub) (id : UInt32) : Prop where
  row : ∀ row, s.timers[id]? = some row → row.uRearms = s.rearms id
  once : s.waits id + s.rearms id ≤ s.handed id

/-- A SetTimer waits from when it has its id on. -/
theorem waits_move {s s' : PumpHub} (h : TimerMove toMsecs PumpHub.Polls s s') (id : UInt32) :
    s'.waits id + s.handed id ≤ s.waits id + s'.handed id := by
  unfold PumpHub.waits PumpHub.handed
  cases h with
  | enter | wantKill =>
    simp only [countP_put, ClientCall.posts, ifOne_false]
    omega
  | register hc =>
    have htake := countP_take (ClientCall.posts id) hc
    simp only [ClientCall.posts, ifOne_false] at htake
    simp only [SetTimerLocked, countP_put, ClientCall.posts]
    omega
  | sent hc =>
    have htake := countP_take (ClientCall.posts id) hc
    simp only [ClientCall.posts] at htake
    simp only [countP_put, arms_timer]
    omega
  | refuse hc hf =>
    have htake := countP_take (ClientCall.posts id) hc
    simp only [countP_put, ClientCall.posts, ifOne_false]
    omega
  | forget hc | refuseKill hc =>
    have htake := countP_take (ClientCall.posts id) hc
    simp only
    omega
  | sentKill hc =>
    have htake := countP_take (ClientCall.posts id) hc
    simp only [countP_put, arms_kill, ifOne_false]
    omega
  | sentPost =>
    simp only [countP_put, arms_post, ifOne_false]
    omega
  | arrive hm =>
    simp only [countP_put, arms_arrival id hm, ifOne_false]
    omega
  | take hm | deliver hm | arm _ hm | killGone _ hm | kill _ hm =>
    have htake := countP_take (SentMsg.arms s.oAddress id) hm
    simp only
    omega
  | _ => exact Nat.le_refl _

/-- What a step that arms `id` again has found. -/
structure Rearmed (s : PumpHub) (id : UInt32) (row : TimerRow) : Prop where
  runs : ∃ t ∈ s.kernel, t.bKilled = false ∧ t.dwUserKey = id ∧ s.Polls t
  found : s.timers[id]? = some row
  early : s.now < row.uDeadline

theorem rearms_move {s s' : PumpHub} (h : TimerMove toMsecs PumpHub.Polls s s') (id : UInt32) :
    s'.rearms id = s.rearms id ∧
        (∀ row', s'.timers[id]? = some row' → s.handed id < s'.handed id ∧ row'.uRearms = 0 ∨
          ∃ row, s.timers[id]? = some row ∧ row'.uRearms = row.uRearms) ∨
      ∃ row, Rearmed s id row ∧ s'.rearms id = s.rearms id + 1 ∧
        s'.timers[id]? = some { row with uRearms := row.uRearms + 1 } := by
  have hkept (hr : s'.rearms id = s.rearms id) (ht : ∀ row', s'.timers[id]? = some row' → s.timers[id]? = some row') :
      s'.rearms id = s.rearms id ∧
        ∀ row', s'.timers[id]? = some row' → s.handed id < s'.handed id ∧ row'.uRearms = 0 ∨
          ∃ row, s.timers[id]? = some row ∧ row'.uRearms = row.uRearms :=
    ⟨hr, fun row' hrow => Or.inr ⟨row', ht row' hrow, rfl⟩⟩
  cases h with
  | @register uCalled delay key hc =>
    refine Or.inl ⟨rfl, fun row' hrow => ?_⟩
    rcases get_of_insert hrow with ⟨he, rfl⟩ | ⟨-, hrow⟩
    · refine Or.inl ⟨?_, rfl⟩
      simp [PumpHub.handed, SetTimerLocked, he]
    · exact Or.inr ⟨row', hrow, rfl⟩
  | @record a k row hp h0 hrow =>
    refine Or.inl ⟨rfl, fun row' hr => ?_⟩
    rcases get_of_insert hr with ⟨rfl, rfl⟩ | ⟨-, hr⟩
    · exact Or.inr ⟨row, hrow, rfl⟩
    · exact Or.inr ⟨row', hr, rfl⟩
  | @rearm t row hi ht hk hpoll hrow hlt hr =>
    by_cases he : t.dwUserKey = id
    · subst he
      refine Or.inr ⟨row, ⟨⟨t, ht, hk, rfl, hpoll⟩, hrow, hlt⟩, ?_, ?_⟩
      · simp [PumpHub.rearms, Note.rearms]
      · simp
    · refine Or.inl (hkept ?_ fun row' hr => ?_)
      · simp [PumpHub.rearms, Note.rearms, he]
      · simpa only [get_insert, he, if_false] using hr
  | answer hn => exact Or.inl (hkept (by simp [PumpHub.note, PumpHub.rearms, hn.rearms]) fun _ hr => hr)
  | forget | kill =>
    exact Or.inl (hkept (by simp [PumpHub.rearms, Note.rearms]) fun _ hr => (get_of_erase hr).2)
  | unarmed | cancel | elapse => exact Or.inl (hkept rfl fun _ hr => (get_of_erase hr).2)
  | sent | sentKill | refuseKill | sentPost | deliver | killGone | fire =>
    exact Or.inl (hkept (by simp [PumpHub.rearms, Note.rearms]) fun _ hr => hr)
  | _ => exact Or.inl (hkept rfl fun _ hr => hr)

theorem counted_move {s s' : PumpHub} (h : TimerMove toMsecs PumpHub.Polls s s') {id : UInt32} (hk : Known s)
    (hst : s.stages id ≤ s.handed id) (hone : s'.handed id ≤ 1) (hcov : Covered s id) (hc : Counted s id) :
    Counted s' id := by
  have hwaits := waits_move h id
  have hhanded := handed_move h id
  have honce := hc.once
  rcases rearms_move h id with ⟨hr, hrows⟩ | ⟨row, ⟨⟨t, ht, hkill, rfl, hpoll⟩, hrow, hlt⟩, hr, hrow'⟩
  · refine ⟨fun row' hrow' => ?_, by omega⟩
    rcases hrows row' hrow' with ⟨hnew, h0⟩ | ⟨row, hrow, he⟩
    · omega
    · rw [he, hr]
      exact hc.row row hrow
  · have hrow0 := hc.row row hrow
    obtain ⟨h0, -⟩ := hcov.first ht hkill hpoll hrow hlt
    have hrun : t.runs t.dwUserKey = true := by simp [KernelTimer.runs, hkill]
    have hkernel := countP_pos ht hrun
    have hgiven := handed_pos (GivenKey.given (hk.row _ row hrow))
    have hstages : s.waits t.dwUserKey + s.kernel.countP (KernelTimer.runs t.dwUserKey) ≤ s.handed t.dwUserKey := by
      unfold PumpHub.stages at hst
      unfold PumpHub.waits
      omega
    refine ⟨fun row' he => ?_, by omega⟩
    obtain rfl := Option.some.inj (hrow'.symm.trans he)
    rw [hr, ← hrow0]

theorem Covered.covers {s : PumpHub} {id : UInt32} (h : Covered s id) {row : TimerRow} (hr : s.timers[id]? = some row)
    {pc : PumpPc} (hpc : s.pump = pc) : pc.Covers s.now id row := hpc ▸ h.pump row hr

/-- Where the pump holds a timer, its delay takes it past the row's deadline. -/
theorem coversPump_move {s s' : PumpHub} (hcast : ∀ n, n < UInt32.size → toMsecs n = n)
    (h : TimerMove toMsecs PumpHub.Polls s s') {id : UInt32} (hk : Known s) (hd : Deadlines s) (hc : Counted s id)
    (hone : s'.handed id ≤ 1) (hcov : Covered s id) {row' : TimerRow} (hr : s'.timers[id]? = some row') :
    s'.pump.Covers s'.now id row' := by
  have hle := secondOf_le s.now
  -- the delay of an arm goes through the conversion as it is
  have hremains {row : TimerRow} (hr : s.timers[id]? = some row) : toMsecs (row.uDeadline - s.now) = row.uDeadline - s.now := by
    obtain ⟨c, -, -, -, hhi⟩ := hd.row id row hr
    have hlt := c.delay.toNat_lt
    exact hcast _ (by simp only [UInt32.size]; omega)
  cases h with
  | tick n => exact (hcov.pump row' hr).mono (Nat.le_add_right _ _)
  | @register uCalled delay key hcall =>
    rcases get_of_insert hr with ⟨rfl, rfl⟩ | ⟨-, hr⟩
    · have hnot := fresh_of_register hone
      exact PumpPc.covers_of_not_holds (Bool.eq_false_iff.mpr fun hh => hnot (hk.held _ hh)) _ _
    · exact hcov.pump row' hr
  | forget => exact hcov.pump row' (get_of_erase hr).2
  | @arm m a row hi hm hw hrow =>
    intro he
    subst he
    obtain rfl := Option.some.inj (hrow.symm.trans hr)
    have harms : m.arms s.oAddress a = true := decide_eq_true hw
    have hpos := countP_pos hm harms
    have honce := hc.once
    have hmove : TimerMove toMsecs PumpHub.Polls s _ := .arm hi hm hw hrow
    have hhanded := handed_move hmove a
    unfold PumpHub.waits at honce
    refine ⟨rfl, ?_⟩
    rw [if_neg Bool.false_ne_true, hc.row row hr]
    omega
  | kill hi hm hw hrow =>
    simp only
    split <;> trivial
  | @late a D b hp hlt =>
    intro he
    have hpump := hcov.covers hr hp
    have := (hpump he).1
    dsimp only
    omega
  | @plain a D hp hlt =>
    intro he
    subst he
    have hpump := hcov.covers hr hp
    obtain ⟨rfl, h0⟩ := hpump rfl
    rw [if_neg Bool.false_ne_true] at h0
    rw [hremains hr]
    dsimp only
    omega
  | @remaining a D hp hlt =>
    intro he
    subst he
    have hpump := hcov.covers hr hp
    obtain ⟨rfl, h0⟩ := hpump rfl
    rw [if_pos rfl] at h0
    rw [hremains hr]
    dsimp only
    omega
  | @compensate a nDelay hp =>
    intro he
    have hpump := hcov.covers hr hp
    obtain ⟨hD, hlt⟩ := hpump he
    have hadd := secondOf_add s.now
    have hmod : MillisecsIntoSecond s.now < 1000 := Nat.mod_lt _ (by decide)
    rw [hcast (MillisecsIntoSecond s.now) (by simp only [UInt32.size]; omega),
      hcast (nDelay + MillisecsIntoSecond s.now) (by simp only [UInt32.size]; omega)]
    simp only
    omega
  | unset | set | unarmed | retract | killed | drop | fire | elapse | record => trivial
  | @rearm t row hi ht hk' hpoll hrow hlt hretry =>
    intro he
    subst he
    rw [get_insert, if_pos rfl] at hr
    obtain rfl := Option.some.inj hr
    exact ⟨rfl, (hcov.first ht hk' hpoll hrow hlt).2⟩
  | cancel hi => exact hcov.pump row' (get_of_erase hr).2
  | _ => exact hcov.pump row' hr

/-- And so does that of every timer the kernel runs for it. -/
theorem coversKernel_move {s s' : PumpHub} (h : TimerMove toMsecs PumpHub.Polls s s') {id : UInt32} (hk : Known s)
    (hst : s.stages id ≤ s.handed id) (hone : s'.handed id ≤ 1) (hcov : Covered s id) {row' : TimerRow}
    (hr : s'.timers[id]? = some row') {t : KernelTimer} (ht : t ∈ s'.kernel) (hrun : t.runs id = true) :
    t.Covers s'.now row' := by
  have hs : s.stages id ≤ 1 := Nat.le_trans hst (Nat.le_trans (handed_move h id) hone)
  unfold PumpHub.stages at hs
  have hkill {row : TimerRow} (k : Nat) (hr : s.timers[id]? = some row) (t : KernelTimer)
      (ht : t ∈ KillP2PmsgTimer k s.kernel) (hrun : t.runs id = true) : t.Covers s.now row := by
    obtain ⟨u, hu, rfl⟩ := List.mem_map.mp ht
    have := hcov.kernel row hr u hu (runs_kill k id u hrun)
    unfold KernelTimer.Covers at *
    rwa [kill_nDue]
  cases h with
  | tick n => exact (hcov.kernel row' hr t ht hrun).mono (Nat.le_add_right _ _)
  | @register uCalled delay key hcall =>
    rcases get_of_insert hr with ⟨rfl, rfl⟩ | ⟨-, hr⟩
    · simp only [KernelTimer.runs, Bool.and_eq_true, decide_eq_true_eq] at hrun
      exact absurd (hrun.2 ▸ hk.kernel t ht) (fresh_of_register hone)
    · exact hcov.kernel row' hr t ht hrun
  | forget | kill | unarmed => exact hcov.kernel row' (get_of_erase hr).2 t ht hrun
  | @set a nDelay k hp h0 hfree =>
    rcases List.mem_append.mp ht with ht | ht
    · exact hcov.kernel row' hr t ht hrun
    · rw [List.mem_singleton.mp ht] at hrun ⊢
      have hpump := hcov.covers hr hp
      simp only [KernelTimer.runs, Bool.and_eq_true, decide_eq_true_eq] at hrun
      have := hpump hrun.2
      have hsec := lt_secondOf s.now
      unfold KernelTimer.Covers
      simp only
      omega
  | @record a k row hp h0 hrow =>
    rcases get_of_insert hr with ⟨rfl, rfl⟩ | ⟨-, hr⟩
    · exact hcov.kernel row hrow t ht hrun
    · exact hcov.kernel row' hr t ht hrun
  | retract | killed => exact hkill _ hr t ht hrun
  | stray => exact hcov.kernel row' hr t (List.mem_of_mem_erase ht) hrun
  | @rearm t₀ row hi ht₀ hk' hpoll hrow hlt hretry =>
    rcases get_of_insert hr with ⟨rfl, rfl⟩ | ⟨-, hr⟩
    · have htake := countP_take (KernelTimer.runs t₀.dwUserKey) ht₀
      have hrun₀ : t₀.runs t₀.dwUserKey = true := by simp [KernelTimer.runs, hk']
      have hpos := countP_pos ht hrun
      rw [hrun₀, ifOne_true] at htake
      dsimp only at hpos
      omega
    · exact hcov.kernel row' hr t (List.mem_of_mem_erase ht) hrun
  | cancel | elapse => exact hcov.kernel row' (get_of_erase hr).2 t (List.mem_of_mem_erase ht) hrun
  | _ => exact hcov.kernel row' hr t ht hrun

theorem covered_move {s s' : PumpHub} (hcast : ∀ n, n < UInt32.size → toMsecs n = n)
    (h : TimerMove toMsecs PumpHub.Polls s s') {id : UInt32} (hk : Known s) (hd : Deadlines s) (hc : Counted s id)
    (hst : s.stages id ≤ s.handed id) (hone : s'.handed id ≤ 1) (hcov : Covered s id) : Covered s' id := by
  constructor
  · intro row' hr
    exact coversPump_move hcast h hk hd hc hone hcov hr
  · intro row' hr t ht hrun
    exact coversKernel_move h hk hst hone hcov hr ht hrun

/-! ## When OnTimer runs -/

/-- A call of `id` whose delay is over at `uAt`. -/
def PumpHub.Over (s : PumpHub) (id : UInt32) (uAt : Nat) : Prop :=
  ∃ c ∈ s.set, c.uId = id ∧ c.uCalled + c.delay.toNat ≤ uAt

structure Fired (s : PumpHub) (id : UInt32) : Prop where
  due : ∀ key, s.pump = .elapsed id key → s.Over id s.now
  done : ∀ key uAt, .onTimer id key uAt ∈ s.notes → s.Over id uAt

theorem over_move {s s' : PumpHub} (h : TimerMove toMsecs PumpHub.Polls s s') {id : UInt32} {a b : Nat} (hab : a ≤ b)
    (ho : s.Over id a) : s'.Over id b := by
  obtain ⟨c, hc, hid, hle⟩ := ho
  have hmem : c ∈ s'.set := by
    rcases set_move h with ⟨hs, -⟩ | ⟨uCalled, delay, key, -, rfl⟩
    · rwa [hs]
    · exact List.mem_append_left _ hc
  exact ⟨c, hmem, hid, Nat.le_trans hle hab⟩

theorem fired_move {s s' : PumpHub} (h : TimerMove toMsecs PumpHub.Polls s s') {id : UInt32} (hd : Deadlines s)
    (hc : Counted s id) (hone : s'.handed id ≤ 1) (hf : Fired s id) : Fired s' id := by
  have hR : s.rearms id ≤ 1 := by
    have := hc.once
    have := handed_move h id
    omega
  constructor
  · intro key he
    have hold (hp : s.pump = .elapsed id key) : s'.Over id s'.now := over_move h (now_move h) (hf.due key hp)
    cases h with
    | @elapse t row hi ht hk hpoll hrow hdue =>
      obtain ⟨rfl, rfl⟩ := PumpPc.elapsed.inj he
      obtain ⟨c, hcs, hid, hlo, -⟩ := hd.row _ row hrow
      have hr := hc.row row hrow
      refine ⟨c, hcs, hid, Nat.le_trans hlo (Nat.le_of_not_lt fun hlt => hdue ⟨hlt, ?_⟩)⟩
      unfold kTimerMaxRearms
      omega
    | kill =>
      simp only at he
      split at he <;> cases he
    | arm | late | plain | remaining | compensate | unset | set | record | unarmed | retract | killed | drop | fire
      | rearm => cases he
    | _ => exact hold he
  · intro key uAt hm
    obtain ⟨ns, hns, hdue, -⟩ := note_move h
    rw [hns] at hm
    rcases List.mem_append.mp hm with hm | hm
    · exact over_move h (Nat.le_refl _) (hf.done key uAt hm)
    · obtain ⟨hp, rfl⟩ := hdue _ hm
      exact over_move h (Nat.le_refl _) (hf.due key hp)

/-! ## Every run -/

structure ClockInv (s : PumpHub) : Prop where
  known : Known s
  stages : ∀ id, s.stages id ≤ s.handed id
  deadlines : Deadlines s
  timer : ∀ id, s.handed id ≤ 1 → Counted s id ∧ Covered s id ∧ Fired s id

theorem clockInv_created (oAddress : HubAddress) (now : Nat) : ClockInv (PumpHub.created oAddress now) := by
  have hi := timerInv_created oAddress now
  refine ⟨hi.known, hi.stages, ⟨by simp [PumpHub.created], by simp [PumpHub.created]⟩, fun id _ => ⟨?_, ?_, ?_⟩⟩
  · exact ⟨by simp [PumpHub.created], Nat.le_refl 0⟩
  · exact ⟨by simp [PumpHub.created], by simp [PumpHub.created]⟩
  · exact ⟨fun key h => PumpPc.noConfusion h, by simp [PumpHub.created]⟩

theorem clockInv_move {s s' : PumpHub} (hcast : ∀ n, n < UInt32.size → toMsecs n = n)
    (h : TimerMove toMsecs PumpHub.Polls s s') (hi : ClockInv s) : ClockInv s' := by
  refine ⟨known_move h hi.known, fun id => stages_move h (hi.stages id), deadlines_move h hi.deadlines, fun id hone => ?_⟩
  obtain ⟨hc, hcov, hf⟩ := hi.timer id (Nat.le_trans (handed_move h id) hone)
  refine ⟨?_, ?_, ?_⟩
  · exact counted_move h hi.known (hi.stages id) hone hcov hc
  · exact covered_move hcast h hi.known hi.deadlines hc (hi.stages id) hone hcov
  · exact fired_move h hi.deadlines hc hone hf

/-- A timer, which is an id that was handed out once, is never early, and is re-armed once at most. -/
theorem timer_never_early (toMsecs : Nat → Nat) (hcast : ∀ n, n < UInt32.size → toMsecs n = n) (oAddress : HubAddress)
    (now : Nat) (es : List PumpEv) (s : PumpHub) (hs : s = exec (pumpHubStep toMsecs) (PumpHub.created oAddress now) es)
    (hpolled : Each (pumpHubStep toMsecs) PumpEv.Polled (PumpHub.created oAddress now) es) (c : SetCall) (hc : c ∈ s.set)
    (hone : s.handed c.uId = 1) :
    (∀ key uAt, .onTimer c.uId key uAt ∈ s.notes → c.uCalled + c.delay.toNat ≤ uAt) ∧ s.rearms c.uId ≤ 1 := by
  have hi : ClockInv s := hs ▸ (always_of_each (fun s e hi he => clockInv_move hcast (pumpHubStep_move s e he) hi)
    (clockInv_created oAddress now) hpolled).last
  obtain ⟨hcount, -, hf⟩ := hi.timer c.uId (Nat.le_of_eq hone)
  constructor
  · intro key uAt hm
    obtain ⟨d, hd, hid, hle⟩ := hf.done key uAt hm
    have hp : ∀ a : SetCall, a.uId = c.uId → decide (a.uId = c.uId) = true := fun a => decide_eq_true
    obtain rfl := eq_of_countP_le_one (Nat.le_of_eq hone) hc hd (hp c rfl) (hp d hid)
    exact hle
  · have := hcount.once
    omega

/-- Set at 900 ms for 500 ms, called back at 1000 ms and armed again, OnTimer runs at 2000 ms. -/
theorem timer_never_early_late :
    (∀ key uAt, .onTimer 1 key uAt ∈
      (exec (pumpHubStep (· % UInt32.size)) (PumpHub.created hubAddress 0) lateRun).notes → 900 + 500 ≤ uAt) ∧
    (exec (pumpHubStep (· % UInt32.size)) (PumpHub.created hubAddress 0) lateRun).rearms 1 ≤ 1 ∧
    .onTimer 1 7 2000 ∈ (exec (pumpHubStep (· % UInt32.size)) (PumpHub.created hubAddress 0) lateRun).notes := by
  have hpolled : Each (pumpHubStep (· % UInt32.size)) PumpEv.Polled (PumpHub.created hubAddress 0) lateRun := by
    simp only [lateRun, earlyRun, List.cons_append, List.nil_append, each_cons, each_nil, and_true]
    refine ⟨?_, ?_, ?_, ?_, ?_, ?_, ?_, ?_, ?_, ?_, ?_, ?_, ?_, ?_, ?_, ?_, ?_, ?_⟩ <;> intro t h <;> cases h <;>
      decide +kernel
  have hcast : ∀ n, n < UInt32.size → n % UInt32.size = n := fun n hn => Nat.mod_eq_of_lt hn
  have hmem : (⟨1, 900, 500, 7⟩ : SetCall) ∈
      (exec (pumpHubStep (· % UInt32.size)) (PumpHub.created hubAddress 0) lateRun).set := by decide +kernel
  have hone : (exec (pumpHubStep (· % UInt32.size)) (PumpHub.created hubAddress 0) lateRun).handed 1 = 1 := by
    decide +kernel
  obtain ⟨hearly, hre⟩ := timer_never_early _ hcast hubAddress 0 lateRun _ rfl hpolled ⟨1, 900, 500, 7⟩ hmem hone
  exact ⟨hearly, hre, by decide +kernel⟩

end TargetFacade
