/-
  TargetFacade.Hub.TimerMoves — everything one step of the timers can do.

  `TimerMove s s'` has one constructor for each way a step changes the hub, with what was found
  under the lock; `pumpHubStep_move` is that there are no others. The invariants of the timers
  are proved by cases on it.
-/

import TargetFacade.Hub.Timers

namespace TargetFacade

open OrdMap Runs Bag

/-- A note that is not about one timer: no id is given out, killed, re-armed or fired. -/
def Note.Plain : Note → Prop
  | .setTimer hr _ => hr ≠ S_OK
  | .killTimer _ _ | .post _ => True
  | .killed _ | .rearmed _ | .onTimer _ _ _ | .onPost _ _ => False

variable (toMsecs : Nat → Nat)
/- what is known of a kernel timer that calls back as elapsed -/
variable (polls : PumpHub → KernelTimer → Prop)

inductive TimerMove (s : PumpHub) : PumpHub → Prop
  | same : TimerMove s s
  | tick (n : Nat) : TimerMove s { s with now := s.now + n }
  | sink (bSet : Bool) : TimerMove s { s with bExt := bSet }
  | answer {n : Note} (h : n.Plain) : TimerMove s (s.note n)
  | enter (delay key : UInt32) : TimerMove s { s with calls := s.calls ++ [.entered s.now delay key] }
  | register {uCalled : Nat} {delay key : UInt32} (h : .entered uCalled delay key ∈ s.calls) :
      TimerMove s (SetTimerLocked uCalled delay key s)
  | sent {uId : UInt32} (h : .posting uId ∈ s.calls) :
      TimerMove s { s with calls := s.calls.erase (.posting uId), inbox := s.inbox ++ [msgTimer s.csAddress uId],
                           notes := s.notes ++ [.setTimer S_OK uId] }
  | refuse {uId : UInt32} {hr : HRESULT} (h : .posting uId ∈ s.calls) (hf : FAILED hr = true) :
      TimerMove s { s with calls := s.calls.erase (.posting uId) ++ [.refused uId hr] }
  | forget {uId : UInt32} {hr : HRESULT} (h : .refused uId hr ∈ s.calls) :
      TimerMove s { s with calls := s.calls.erase (.refused uId hr), timers := s.timers.erase uId,
                           notes := s.notes ++ [.setTimer hr 0] }
  | wantKill {timerId : UInt32} {row : TimerRow} (h : s.timers[timerId]? = some row) :
      TimerMove s { s with calls := s.calls ++ [.killing timerId] }
  | sentKill {timerId : UInt32} {hr : HRESULT} (h : .killing timerId ∈ s.calls) :
      TimerMove s { s with calls := s.calls.erase (.killing timerId), inbox := s.inbox ++ [msgKill s.csAddress timerId],
                           notes := s.notes ++ [.killTimer hr timerId] }
  | refuseKill {timerId : UInt32} {hr : HRESULT} (h : .killing timerId ∈ s.calls) :
      TimerMove s { s with calls := s.calls.erase (.killing timerId), notes := s.notes ++ [.killTimer hr timerId] }
  | sentPost {key : UInt32} {context : UInt64} {hr : HRESULT} (hf : FAILED hr = false) :
      TimerMove s { s with inbox := s.inbox ++ [msgPost s.csAddress key context],
                           posted := s.posted ++ [(key, context)], notes := s.notes ++ [.post hr] }
  | arrive {m : SentMsg} (h : m.strSource ≠ s.csAddress) : TimerMove s { s with inbox := s.inbox ++ [m] }
  | take {m : SentMsg} (h : m ∈ s.inbox) : TimerMove s { s with inbox := s.inbox.erase m }
  | deliver {m : SentMsg} {key : UInt32} {context : UInt64} (h : m ∈ s.inbox)
      (hw : m.work s.csAddress = .post key context) :
      TimerMove s { s with inbox := s.inbox.erase m, notes := s.notes ++ [.onPost key context] }
  | arm {m : SentMsg} {id : UInt32} {row : TimerRow} (hi : s.pump = .idle) (h : m ∈ s.inbox)
      (hw : m.work s.csAddress = .timer id) (hrow : s.timers[id]? = some row) :
      TimerMove s { s with inbox := s.inbox.erase m, pump := .arming id row.uDeadline false }
  | killGone {m : SentMsg} {id : UInt32} (hi : s.pump = .idle) (h : m ∈ s.inbox) (hw : m.work s.csAddress = .kill id)
      (hrow : s.timers[id]? = none) :
      TimerMove s { s with inbox := s.inbox.erase m, notes := s.notes ++ [.killed id] }
  | kill {m : SentMsg} {id : UInt32} {row : TimerRow} (hi : s.pump = .idle) (h : m ∈ s.inbox)
      (hw : m.work s.csAddress = .kill id) (hrow : s.timers[id]? = some row) :
      TimerMove s { s with inbox := s.inbox.erase m, timers := s.timers.erase id, notes := s.notes ++ [.killed id],
                           pump := if row.nKernelID ≠ 0 then .killing row.nKernelID else .idle }
  | late {id : UInt32} {D : Nat} {b : Bool} (hp : s.pump = .arming id D b) (h : ¬ s.now < D) :
      TimerMove s { s with pump := .setting id 0 }
  | plain {id : UInt32} {D : Nat} (hp : s.pump = .arming id D false) (h : s.now < D) :
      TimerMove s { s with pump := .setting id (toMsecs (D - s.now)) }
  | remaining {id : UInt32} {D : Nat} (hp : s.pump = .arming id D true) (h : s.now < D) :
      TimerMove s { s with pump := .compensating id (toMsecs (D - s.now)) }
  | compensate {id : UInt32} {nDelay : Nat} (hp : s.pump = .compensating id nDelay) :
      TimerMove s { s with pump := .setting id (toMsecs (nDelay + toMsecs (MillisecsIntoSecond s.now))) }
  | unset {id : UInt32} {nDelay : Nat} (hp : s.pump = .setting id nDelay) :
      TimerMove s { s with pump := .recording id 0 }
  | set {id : UInt32} {nDelay k : Nat} (hp : s.pump = .setting id nDelay) (h0 : k ≠ 0)
      (hk : ∀ t ∈ s.kernel, t.nTimerID ≠ k) :
      TimerMove s { s with kernel := s.kernel ++ [⟨k, id, secondOf s.now + nDelay, false⟩], pump := .recording id k }
  | record {id : UInt32} {k : Nat} {row : TimerRow} (hp : s.pump = .recording id k) (h0 : k ≠ 0)
      (hrow : s.timers[id]? = some row) :
      TimerMove s { s with timers := s.timers.insert id { row with nKernelID := k }, pump := .idle }
  | unarmed {id : UInt32} (hp : s.pump = .recording id 0) : TimerMove s { s with timers := s.timers.erase id, pump := .idle }
  | retract {id : UInt32} {k : Nat} (hp : s.pump = .recording id k) (hrow : s.timers[id]? = none) :
      TimerMove s { s with kernel := KillP2PmsgTimer k s.kernel, pump := .idle }
  | killed {k : Nat} (hp : s.pump = .killing k) :
      TimerMove s { s with kernel := KillP2PmsgTimer k s.kernel, pump := .idle }
  | drop {id key : UInt32} (hp : s.pump = .elapsed id key) : TimerMove s { s with pump := .idle }
  | fire {id key : UInt32} (hp : s.pump = .elapsed id key) :
      TimerMove s { s with pump := .idle, notes := s.notes ++ [.onTimer id key s.now] }
  | stray {t : KernelTimer} (h : t ∈ s.kernel) (hrow : s.timers[t.dwUserKey]? = none) :
      TimerMove s { s with kernel := s.kernel.erase t }
  | rearm {t : KernelTimer} {row : TimerRow} (hi : s.pump = .idle) (h : t ∈ s.kernel) (hk : t.bKilled = false)
      (hpoll : polls s t) (hrow : s.timers[t.dwUserKey]? = some row) (hlt : s.now < row.uDeadline) (hr : row.uRearms < kTimerMaxRearms) :
      TimerMove s { s with kernel := s.kernel.erase t,
                           timers := s.timers.insert t.dwUserKey { row with uRearms := row.uRearms + 1 },
                           pump := .arming t.dwUserKey row.uDeadline true, notes := s.notes ++ [.rearmed t.dwUserKey] }
  | cancel {t : KernelTimer} {row : TimerRow} (hi : s.pump = .idle) (h : t ∈ s.kernel)
      (hrow : s.timers[t.dwUserKey]? = some row) :
      TimerMove s { s with kernel := s.kernel.erase t, timers := s.timers.erase t.dwUserKey }
  | elapse {t : KernelTimer} {row : TimerRow} (hi : s.pump = .idle) (h : t ∈ s.kernel) (hk : t.bKilled = false)
      (hpoll : polls s t) (hrow : s.timers[t.dwUserKey]? = some row) (hdue : ¬ (s.now < row.uDeadline ∧ row.uRearms < kTimerMaxRearms)) :
      TimerMove s { s with kernel := s.kernel.erase t, timers := s.timers.erase t.dwUserKey,
                           pump := .elapsed t.dwUserKey row.uKey }

variable {toMsecs} {polls}

/-- A PostMsg to the hub itself puts the message in its inbox, or fails. -/
theorem postSelf_cases (s : PumpHub) (env : PostEnv) {m : SentMsg} (hsrc : m.strSource = s.csAddress)
    (hdest : m.oMsg.strDest = s.csAddress) (hopts : m.oMsg.pOpts = none) (hlen : m.oMsg.aData.length ≤ MAX_PAYLOAD) :
    (s.postSelf env m).2 = s ∧ FAILED (s.postSelf env m).1 = true ∨
      s.postSelf env m = (S_OK, { s with inbox := s.inbox ++ [m] }) := by
  obtain ⟨src, dest, name, aData, opts⟩ := m
  simp only at hsrc hdest hopts hlen
  subst hsrc hdest hopts
  have hsize : ¬ MAX_PAYLOAD < aData.length := Nat.not_lt.mpr hlen
  unfold PumpHub.postSelf PostMsg
  simp only [hsize, if_false, Option.isNone_some, Bool.false_and, Bool.false_eq_true, Option.getD_some, Option.any_none,
    List.take_length]
  cases env.takes s.csAddress with
  | false => exact Or.inl ⟨by simp, rfl⟩
  | true => exact Or.inr rfl

theorem idBody_fits (uId : UInt32) : (idBody uId).length ≤ MAX_PAYLOAD := by
  rw [length_idBody]
  decide

theorem postBody_fits (uKey : UInt32) (uContext : UInt64) : (postBody uKey uContext).length ≤ MAX_PAYLOAD := by
  unfold postBody
  rw [List.length_append, Words.length_leBytes, Words.length_leBytes]
  decide

theorem clientStep_move (env : PostEnv) (s : PumpHub) {c : ClientCall} (h : c ∈ s.calls) :
    TimerMove toMsecs polls s (clientStep env s c) := by
  cases c with
  | entered uCalled delay key => exact .register h
  | posting uId =>
    unfold clientStep
    simp only
    rcases postSelf_cases { s with calls := s.calls.erase (.posting uId) } env (m := msgTimer s.csAddress uId) rfl rfl rfl
      (idBody_fits uId) with ⟨hs, hf⟩ | hs
    · rw [if_pos hf, hs]
      exact .refuse h hf
    · rw [hs]
      exact .sent h
  | refused uId hr => exact .forget h
  | killing timerId =>
    unfold clientStep
    simp only
    rcases postSelf_cases { s with calls := s.calls.erase (.killing timerId) } env (m := msgKill s.csAddress timerId) rfl
      rfl rfl (idBody_fits timerId) with ⟨hs, -⟩ | hs
    · rw [hs]
      exact .refuseKill h
    · rw [hs]
      exact .sentKill h

theorem workStep_move {s : PumpHub} {m : SentMsg} (hi : s.pump = .idle) (h : m ∈ s.inbox) :
    TimerMove toMsecs polls s (workStep { s with inbox := s.inbox.erase m } (m.work s.csAddress)) := by
  cases hw : m.work s.csAddress with
  | timer id =>
    unfold workStep
    cases hrow : s.timers[id]? with
    | none => simpa only [hrow] using TimerMove.take h
    | some row => simpa only [hrow] using TimerMove.arm hi h hw hrow
  | kill id =>
    unfold workStep
    cases hrow : s.timers[id]? with
    | none => simpa only [PumpHub.note, hrow] using TimerMove.killGone hi h hw hrow
    | some row => simpa only [PumpHub.note, hrow] using TimerMove.kill hi h hw hrow
  | post uKey uContext =>
    unfold workStep
    simp only
    by_cases hb : s.bExt = true
    · rw [if_pos hb]
      exact .deliver h hw
    · rw [if_neg hb]
      exact .take h
  | echo strTo aData => exact .take h
  | pong uPingId => exact .take h
  | nothing => exact .take h

theorem setPITimer_cases (n now nDelay : Nat) (key : UInt32) (kernel : List KernelTimer) :
    SetPITimer n now nDelay key kernel = (0, kernel) ∨
      n ≠ 0 ∧ (∀ t ∈ kernel, t.nTimerID ≠ n) ∧
        SetPITimer n now nDelay key kernel = (n, kernel ++ [⟨n, key, secondOf now + nDelay, false⟩]) := by
  unfold SetPITimer
  by_cases h : n = 0 ∨ kernel.any (·.nTimerID == n) = true
  · exact Or.inl (if_pos h)
  · refine Or.inr ⟨fun h0 => h (Or.inl h0), fun t ht hn => h (Or.inr ?_), if_neg h⟩
    exact List.any_eq_true.mpr ⟨t, ht, beq_iff_eq.mpr hn⟩

theorem recordArm_some {s : PumpHub} {id : UInt32} {k : Nat} {row : TimerRow} (h0 : k ≠ 0)
    (hrow : s.timers[id]? = some row) :
    RecordArm id k s = { s with timers := s.timers.insert id { row with nKernelID := k } } := by
  unfold RecordArm
  rw [hrow]
  exact if_pos h0

theorem recordArm_none {s : PumpHub} {id : UInt32} {k : Nat} (h0 : k ≠ 0) (hrow : s.timers[id]? = none) :
    RecordArm id k s = { s with kernel := KillP2PmsgTimer k s.kernel } := by
  unfold RecordArm
  rw [hrow]
  exact if_pos h0

theorem recordArm_zero (s : PumpHub) (id : UInt32) : RecordArm id 0 s = { s with timers := s.timers.erase id } := by
  unfold RecordArm
  cases hrow : s.timers[id]? with
  | some row => exact if_neg (fun h => h rfl)
  | none =>
    rw [erase_of_none hrow]
    exact if_neg (fun h => h rfl)

theorem recordArm_move {s : PumpHub} {id : UInt32} {k : Nat} (hp : s.pump = .recording id k) :
    TimerMove toMsecs polls s { RecordArm id k s with pump := .idle } := by
  by_cases h0 : k = 0
  · subst h0
    rw [recordArm_zero]
    exact .unarmed hp
  · cases hrow : s.timers[id]? with
    | none =>
      rw [recordArm_none h0 hrow]
      exact .retract hp hrow
    | some row =>
      rw [recordArm_some h0 hrow]
      exact .record hp h0 hrow

theorem turnStep_move (n : Nat) (s : PumpHub) : TimerMove toMsecs polls s (turnStep toMsecs n s) := by
  unfold turnStep
  cases hp : s.pump with
  | idle => exact .same
  | arming id D b =>
    by_cases hlt : s.now < D
    · cases b with
      | false => simpa only [hlt, if_true, Bool.false_eq_true, if_false] using TimerMove.plain hp hlt
      | true => simpa only [hlt, if_true] using TimerMove.remaining hp hlt
    · simpa only [hlt, if_false] using TimerMove.late hp hlt
  | compensating id nDelay => exact .compensate hp
  | setting id nDelay =>
    rcases setPITimer_cases n s.now nDelay id s.kernel with hs | ⟨h0, hk, hs⟩
    · simp only [hs]
      exact .unset hp
    · simp only [hs]
      exact .set hp h0 hk
  | recording id k => exact recordArm_move hp
  | killing k => exact .killed hp
  | elapsed id key =>
    simp only
    by_cases hb : s.bExt = true
    · rw [if_pos hb]
      exact .fire hp
    · rw [if_neg hb]
      exact .drop hp

theorem callback_move {s : PumpHub} {bCancel : Bool} {t : KernelTimer} (hi : s.pump = .idle) (h : t ∈ s.kernel)
    (hk : (bCancel || !t.bKilled) = true) (hpoll : bCancel = false → polls s t) : TimerMove toMsecs polls s (On_PITimer bCancel t s) := by
  unfold On_PITimer On_PITimerLocked
  cases hrow : s.timers[t.dwUserKey]? with
  | none => exact .stray h hrow
  | some row =>
    cases bCancel with
    | true => exact .cancel hi h hrow
    | false =>
      have hk : t.bKilled = false := by simpa using hk
      by_cases hd : s.now < row.uDeadline ∧ row.uRearms < kTimerMaxRearms
      · have h0 : row.uDeadline ≠ 0 := by omega
        simpa [hd.1, hd.2, h0, PumpHub.note] using (TimerMove.rearm hi h hk (hpoll rfl) hrow hd.1 hd.2 : TimerMove toMsecs polls s _)
      · have hb : (!false && decide (s.now < row.uDeadline) && decide (row.uRearms < kTimerMaxRearms)) = false := by
          simpa using hd
        simp only [hb, Bool.false_eq_true, if_false]
        simpa using (TimerMove.elapse hi h hk (hpoll rfl) hrow hd : TimerMove toMsecs polls s _)

theorem pumpHubStep_move (s : PumpHub) (e : PumpEv) (hpoll : ∀ t, e = .callback false t → polls s t) :
    TimerMove toMsecs polls s (pumpHubStep toMsecs s e) := by
  cases e with
  | tick n => exact .tick n
  | setExtEvents bSet => exact .sink bSet
  | setTimer bOut delay key =>
    cases bOut with
    | false => exact .answer (n := .setTimer E_POINTER 0) HRESULT.noConfusion
    | true =>
      unfold pumpHubStep
      simp only [Bool.not_true, Bool.false_eq_true, if_false]
      by_cases hb : s.bExt = true
      · rw [if_neg (by simp [hb])]
        exact .enter delay key
      · rw [if_pos (by simpa using hb)]
        exact .answer (n := .setTimer .P2PF_E_NO_SINK 0) HRESULT.noConfusion
  | killTimer timerId =>
    unfold pumpHubStep
    simp only
    cases hrow : s.timers[timerId]? with
    | none => exact .answer (n := .killTimer S_FALSE timerId) trivial
    | some row => exact .wantKill hrow
  | post env key context =>
    unfold pumpHubStep
    simp only
    by_cases hb : s.bExt = true
    · rw [if_neg (by simp [hb])]
      rcases postSelf_cases s env (m := msgPost s.csAddress key context) rfl rfl rfl (postBody_fits key context) with
        ⟨hs, hf⟩ | hs
      · rw [hs]
        simp only [hf, if_true]
        exact .answer (n := .post _) trivial
      · rw [hs]
        exact .sentPost rfl
    · rw [if_pos (by simpa using hb)]
      exact .answer (n := .post .P2PF_E_NO_SINK) trivial
  | client c env =>
    unfold pumpHubStep
    simp only
    by_cases h : c ∈ s.calls
    · rw [if_pos h]
      exact clientStep_move env s h
    · rw [if_neg h]
      exact .same
  | arrive m =>
    unfold pumpHubStep
    simp only
    by_cases h : m.strSource = s.csAddress
    · rw [if_pos h]
      exact .same
    · rw [if_neg h]
      exact .arrive h
  | pump m =>
    unfold pumpHubStep
    simp only
    by_cases h : s.pump = .idle ∧ m ∈ s.inbox
    · rw [if_pos h]
      exact workStep_move h.1 h.2
    · rw [if_neg h]
      exact .same
  | turn nTimerID => exact turnStep_move nTimerID s
  | callback bCancel t =>
    unfold pumpHubStep
    simp only
    by_cases h : s.pump = .idle ∧ t ∈ s.kernel ∧ (bCancel || !t.bKilled) = true
    · rw [if_pos h]
      exact callback_move h.1 h.2.1 h.2.2 fun hb => hpoll t (hb ▸ rfl)
    · rw [if_neg h]
      exact .same

/-! ## What a move leaves -/

theorem address_move {s s' : PumpHub} (h : TimerMove toMsecs polls s s') : s'.oAddress = s.oAddress := by
  cases h <;> rfl

/-- A row is one that was there, perhaps armed or re-armed since, or the one a SetTimer has just written. -/
theorem row_move {s s' : PumpHub} (h : TimerMove toMsecs polls s s') {id : UInt32} {row' : TimerRow}
    (hrow' : s'.timers[id]? = some row') :
    (∃ row, s.timers[id]? = some row ∧ row'.uKey = row.uKey ∧ row'.uDeadline = row.uDeadline) ∨
      ∃ uCalled delay key, .entered uCalled delay key ∈ s.calls ∧ s' = SetTimerLocked uCalled delay key s ∧
        id = s.uNextTimerId + 1 ∧ row' = ⟨0, key, s.now + delay.toNat, 0⟩ := by
  have hkept (hsame : s'.timers[id]? = s.timers[id]?) :
      ∃ row, s.timers[id]? = some row ∧ row'.uKey = row.uKey ∧ row'.uDeadline = row.uDeadline :=
    ⟨row', hsame ▸ hrow', rfl, rfl⟩
  have herased {a : UInt32} (he : s'.timers = s.timers.erase a) :
      ∃ row, s.timers[id]? = some row ∧ row'.uKey = row.uKey ∧ row'.uDeadline = row.uDeadline := by
    rw [he] at hrow'
    exact ⟨row', (get_of_erase hrow').2, rfl, rfl⟩
  cases h with
  | @register uCalled delay key hc =>
    rcases get_of_insert hrow' with ⟨he, rfl⟩ | ⟨-, hrow'⟩
    · exact Or.inr ⟨uCalled, delay, key, hc, rfl, he.symm, rfl⟩
    · exact Or.inl ⟨row', hrow', rfl, rfl⟩
  | forget | kill | unarmed | cancel | elapse => exact Or.inl (herased rfl)
  | @record a k row hp h0 hrow =>
    rcases get_of_insert hrow' with ⟨rfl, rfl⟩ | ⟨-, hrow'⟩
    · exact Or.inl ⟨row, hrow, rfl, rfl⟩
    · exact Or.inl ⟨row', hrow', rfl, rfl⟩
  | @rearm t row hi ht hk hpoll hrow hlt hr =>
    rcases get_of_insert hrow' with ⟨rfl, rfl⟩ | ⟨-, hrow'⟩
    · exact Or.inl ⟨row, hrow, rfl, rfl⟩
    · exact Or.inl ⟨row', hrow', rfl, rfl⟩
  | _ => exact Or.inl (hkept rfl)

theorem set_move {s s' : PumpHub} (h : TimerMove toMsecs polls s s') :
    s'.set = s.set ∧ s'.uNextTimerId = s.uNextTimerId ∨
      ∃ uCalled delay key, .entered uCalled delay key ∈ s.calls ∧ s' = SetTimerLocked uCalled delay key s := by
  cases h with
  | @register uCalled delay key hc => exact Or.inr ⟨uCalled, delay, key, hc, rfl⟩
  | _ => exact Or.inl ⟨rfl, rfl⟩

/-- Why a step can add a note. -/
def Note.Due (s : PumpHub) : Note → Prop
  | .killed uTimerId => s.pump = .idle ∧ ∃ m ∈ s.inbox, m.work s.csAddress = .kill uTimerId
  | .rearmed uTimerId => s.pump = .idle ∧ ∃ t ∈ s.kernel, t.bKilled = false ∧ t.dwUserKey = uTimerId ∧
      ∃ row, s.timers[uTimerId]? = some row ∧ s.now < row.uDeadline
  | .onTimer timerId key uAt => s.pump = .elapsed timerId key ∧ uAt = s.now
  | _ => True

theorem Note.Plain.due {n : Note} (h : n.Plain) (s : PumpHub) : n.Due s := by
  cases n with
  | setTimer _ _ | killTimer _ _ | post _ => trivial
  | killed _ | rearmed _ | onTimer _ _ _ | onPost _ _ => cases h

/-- No OnTimer of `id` is due, and no row is there to make one due. -/
structure Dead (s : PumpHub) (id : UInt32) : Prop where
  row : s.timers[id]? = none
  due : ∀ key, s.pump ≠ .elapsed id key

theorem note_move {s s' : PumpHub} (h : TimerMove toMsecs polls s s') :
    ∃ ns, s'.notes = s.notes ++ ns ∧ (∀ n ∈ ns, n.Due s) ∧ (∀ id, .killed id ∈ ns → Dead s' id) := by
  have hnone : ∃ ns, s.notes = s.notes ++ ns ∧ (∀ n ∈ ns, n.Due s) ∧ (∀ id, .killed id ∈ ns → Dead s' id) :=
    ⟨[], (List.append_nil _).symm, fun n hn => absurd hn List.not_mem_nil, fun n hn => absurd hn List.not_mem_nil⟩
  have hone {n : Note} (hd : n.Due s) (hk : ∀ id, n = .killed id → Dead s' id) :
      ∃ ns, s.notes ++ [n] = s.notes ++ ns ∧ (∀ n ∈ ns, n.Due s) ∧ (∀ id, .killed id ∈ ns → Dead s' id) :=
    ⟨[n], rfl, fun n' hn => List.mem_singleton.mp hn ▸ hd, fun id hn => hk id (List.mem_singleton.mp hn).symm⟩
  cases h with
  | answer hn => exact hone (hn.due s) fun id he => by subst he; cases hn
  | sent | forget | sentKill | refuseKill | sentPost | deliver => exact hone trivial fun id he => Note.noConfusion he
  | @killGone m a hi hm hw hrow =>
    refine hone ⟨hi, m, hm, hw⟩ fun id he => ?_
    obtain rfl := Note.killed.inj he
    exact ⟨hrow, fun key he => PumpPc.noConfusion (hi.symm.trans he)⟩
  | @kill m a row hi hm hw hrow =>
    refine hone ⟨hi, m, hm, hw⟩ fun id he => ?_
    obtain rfl := Note.killed.inj he
    refine ⟨by simp, fun key he => ?_⟩
    simp only at he
    split at he <;> cases he
  | fire hp => exact hone ⟨hp, rfl⟩ fun id he => Note.noConfusion he
  | rearm hi ht hk hpoll hrow hlt hr => exact hone ⟨hi, _, ht, hk, rfl, _, hrow, hlt⟩ fun id he => Note.noConfusion he
  | _ => exact hnone

/-- Why a client thread can stand at a call. -/
def ClientCall.Due (s : PumpHub) : ClientCall → Prop
  | .entered uCalled _ _ => uCalled = s.now
  | .posting uId => uId = s.uNextTimerId + 1
  | .refused _ hr => FAILED hr = true
  | .killing timerId => ∃ row, s.timers[timerId]? = some row

theorem call_move {s s' : PumpHub} (h : TimerMove toMsecs polls s s') {c : ClientCall} (hc : c ∈ s'.calls) :
    c ∈ s.calls ∨ c.Due s := by
  have hput {l : List ClientCall} {d : ClientCall} (hm : c ∈ l ++ [d]) (hl : ∀ a ∈ l, a ∈ s.calls) (hd : d.Due s) :
      c ∈ s.calls ∨ c.Due s := by
    rcases List.mem_append.mp hm with hm | hm
    · exact Or.inl (hl c hm)
    · exact Or.inr (List.mem_singleton.mp hm ▸ hd)
  cases h with
  | enter => exact hput hc (fun a ha => ha) rfl
  | register => exact hput hc (fun a ha => List.mem_of_mem_erase ha) rfl
  | refuse _ hf => exact hput hc (fun a ha => List.mem_of_mem_erase ha) hf
  | wantKill hrow => exact hput hc (fun a ha => ha) ⟨_, hrow⟩
  | sent | forget | sentKill | refuseKill => exact Or.inl (List.mem_of_mem_erase hc)
  | _ => exact Or.inl hc

theorem kill_asked {s s' : PumpHub} (h : TimerMove toMsecs polls s s') {m : SentMsg} {id : UInt32} (hm : m ∈ s'.inbox)
    (hw : m.work s.csAddress = .kill id) : m ∈ s.inbox ∨ .killing id ∈ s.calls := by
  cases h with
  | sent hc =>
    rcases List.mem_append.mp hm with hm | hm
    · exact Or.inl hm
    · rw [List.mem_singleton.mp hm, work_timer] at hw; cases hw
  | sentKill hc =>
    rcases List.mem_append.mp hm with hm | hm
    · exact Or.inl hm
    · rw [List.mem_singleton.mp hm, work_kill] at hw
      obtain rfl := PrivWork.kill.inj hw
      exact Or.inr hc
  | sentPost =>
    rcases List.mem_append.mp hm with hm | hm
    · exact Or.inl hm
    · rw [List.mem_singleton.mp hm, work_post] at hw; cases hw
  | arrive hsrc =>
    rcases List.mem_append.mp hm with hm | hm
    · exact Or.inl hm
    · rw [List.mem_singleton.mp hm] at hw
      exact absurd (own_work (by rw [hw]; trivial)).1 hsrc
  | take | deliver | arm | killGone | kill => exact Or.inl (List.mem_of_mem_erase hm)
  | _ => exact Or.inl hm

@[simp] theorem kill_nTimerID (k : Nat) (t : KernelTimer) : (t.kill k).nTimerID = t.nTimerID := by
  unfold KernelTimer.kill
  split <;> rfl

@[simp] theorem kill_dwUserKey (k : Nat) (t : KernelTimer) : (t.kill k).dwUserKey = t.dwUserKey := by
  unfold KernelTimer.kill
  split <;> rfl

@[simp] theorem kill_nDue (k : Nat) (t : KernelTimer) : (t.kill k).nDue = t.nDue := by
  unfold KernelTimer.kill
  split <;> rfl

/-- A kernel timer is one that was there, or the one SetPITimer has just made. -/
theorem kernel_move {s s' : PumpHub} (h : TimerMove toMsecs polls s s') {t' : KernelTimer} (ht : t' ∈ s'.kernel) :
    (∃ t ∈ s.kernel, t'.nTimerID = t.nTimerID ∧ t'.dwUserKey = t.dwUserKey ∧ t'.nDue = t.nDue) ∨
      ∃ nDelay, s.pump = .setting t'.dwUserKey nDelay ∧ s'.pump = .recording t'.dwUserKey t'.nTimerID ∧
        t'.nDue = secondOf s.now + nDelay := by
  have hkill {k : Nat} (hm : t' ∈ KillP2PmsgTimer k s.kernel) :
      ∃ t ∈ s.kernel, t'.nTimerID = t.nTimerID ∧ t'.dwUserKey = t.dwUserKey ∧ t'.nDue = t.nDue := by
    obtain ⟨t, hmem, rfl⟩ := List.mem_map.mp hm
    exact ⟨t, hmem, by simp⟩
  cases h with
  | @set id nDelay k hp h0 hk =>
    rcases List.mem_append.mp ht with ht | ht
    · exact Or.inl ⟨t', ht, rfl, rfl, rfl⟩
    · obtain rfl := List.mem_singleton.mp ht
      exact Or.inr ⟨nDelay, hp, rfl, rfl⟩
  | retract | killed => exact Or.inl (hkill ht)
  | stray | rearm | cancel | elapse => exact Or.inl ⟨t', List.mem_of_mem_erase ht, rfl, rfl, rfl⟩
  | _ => exact Or.inl ⟨t', ht, rfl, rfl, rfl⟩

end TargetFacade
