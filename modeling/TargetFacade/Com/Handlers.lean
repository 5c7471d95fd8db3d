/-
  TargetFacade.Com.Handlers — from the callback that queues an event to the handlers it is raised in
  (ComHub.cpp: Push, Pop, DispatchLoop, Fire, CurEvent and the Msg* members).

  Between two returns of Fire the dispatch thread is at one event, so the turns of Com.Sinks are the
  events of the queue, in its order (`turns_exec`).

  - `handler_reads`: over any run a handler that reads the message reads the event it is in, unless
    Fire could not have its logical thread for that one, and nobody else reads any.
  - `sink_hears_all`: a sink that is there before the first event, and is refused no turn, has been
    invoked for all that the queue has taken, once all is at rest.
-/

import TargetFacade.Com.Sinks

namespace TargetFacade

open OrdMap Runs Rounds KeyLog

/-! ## Turns -/

/-- The event Fire is at. -/
def FirePc.event? : FirePc → Option Popped
  | .outside => none
  | .turn p _ | .fetched p _ _ | .inside p _ _ | .done p => some p

/-- What Pop has handed out and Fire has not begun with. -/
def ComTier.hand (s : ComTier) : List Popped :=
  match s.pc with
  | .outside => s.queue.pc.hand
  | _ => []

structure TurnInv (s : ComTier) : Prop where
  turns : s.log.filterMap TierNote.fired? ++ s.hand = s.queue.log.filterMap QueueNote.popped?
  inTurn : ∀ p, s.pc.event? = some p → s.queue.pc = .firing p

theorem turns_same {s s' : ComTier} (h : TurnInv s) (hq : s'.queue = s.queue) (hevent : s'.pc.event? = s.pc.event?)
    (hlog : s'.log.filterMap TierNote.fired? = s.log.filterMap TierNote.fired?) : TurnInv s' := by
  have hhand : s'.hand = s.hand := by
    unfold ComTier.hand
    rw [hq]
    cases hpc : s.pc <;> cases hpc' : s'.pc <;> simp [hpc, hpc', FirePc.event?] at hevent ⊢
  refine ⟨?_, fun p hp => ?_⟩
  · rw [hlog, hhand, hq]
    exact h.turns
  · rw [hq]
    exact h.inTurn p (hevent ▸ hp)

/-- A step of the queue that is not Fire's return. -/
theorem turns_queue {s : ComTier} (h : TurnInv s) {e : QueueEv} (he : e = .dispatch → ∀ p, s.queue.pc ≠ .firing p) :
    TurnInv { s with queue := queueStep s.queue e } := by
  have hmove := queue_move s.queue e
  generalize queueStep s.queue e = q at hmove ⊢
  obtain ⟨hturns, hin⟩ := h
  -- the dispatch thread is outside Fire when it is not at an event
  have houtside (hq : ∀ p, s.queue.pc ≠ .firing p) : s.pc = .outside := by
    cases hpc : s.pc with
    | outside => rfl
    | turn p rest | fetched p r rest | inside p r rest | done p =>
      rw [hpc] at hin
      exact absurd (hin p rfl) (hq p)
  have hkeep (hpc : q.pc = s.queue.pc) (hlog : q.log.filterMap QueueNote.popped? = s.queue.log.filterMap QueueNote.popped?) :
      TurnInv { s with queue := q } := by
    refine ⟨?_, fun p hp => hpc.trans (hin p hp)⟩
    rw [hlog, ← hturns]
    simp only [ComTier.hand, hpc]
  cases hmove with
  | stay _ _ | woken _ | quit _ => exact hkeep rfl rfl
  | accepted ev _ | dropped ev _ => exact hkeep rfl (by simp [QueueNote.popped?])
  | begun hpc _ | drained hpc _ _ =>
    have hout := houtside fun p hp => by rw [hpc] at hp; cases hp
    refine ⟨?_, fun p hp => by rw [hout] at hp; cases hp⟩
    simpa only [ComTier.hand, hout, hpc, DispatchPc.hand] using hturns
  | checked hpc =>
    have hout := houtside fun p hp => by rw [hpc] at hp; cases hp
    refine ⟨?_, fun p hp => by rw [hout] at hp; cases hp⟩
    have hnone : (if s.queue.lQuit then DispatchPc.left else .waiting).hand = [] := by split <;> rfl
    rw [ComTier.hand, hout, hpc] at hturns
    rw [ComTier.hand]
    simp only [hout]
    rw [hnone]
    exact hturns
  | handed ev rest hpc hq | gap hpc hq hc =>
    have hout := houtside fun p hp => by rw [hpc] at hp; cases hp
    refine ⟨?_, fun p hp => by rw [hout] at hp; cases hp⟩
    simp only [ComTier.hand, hout, hpc, DispatchPc.hand, List.append_nil] at hturns ⊢
    simp [hturns, QueueNote.popped?]
  | fired p hpc => exact absurd hpc (he rfl p)

/-- Fire returns. -/
theorem turns_left {s : ComTier} (h : TurnInv s) {p : Popped} (hpc : s.pc = .done p) :
    TurnInv { s with queue := queueStep s.queue .dispatch, pc := .outside } := by
  obtain ⟨hturns, hin⟩ := h
  have hq := hin p (by rw [hpc]; rfl)
  have hnext : queueStep s.queue .dispatch = { s.queue with pc := .popping, log := s.queue.log ++ [.fired p] } := by
    show DispatchLoop s.queue = _
    unfold DispatchLoop
    rw [hq]
  refine ⟨?_, nofun⟩
  simp only [ComTier.hand, hpc, List.append_nil] at hturns
  rw [hnext]
  simp [ComTier.hand, DispatchPc.hand, hturns, QueueNote.popped?]

/-- Fire begins. -/
theorem turns_fire {s : ComTier} (h : TurnInv s) {p : Popped} (hq : s.queue.pc = .firing p) (hpc : s.pc = .outside)
    {s' : ComTier} (hqueue : s'.queue = s.queue) (hevent : s'.pc.event? = some p)
    (hlog : s'.log.filterMap TierNote.fired? = s.log.filterMap TierNote.fired? ++ [p]) : TurnInv s' := by
  obtain ⟨hturns, -⟩ := h
  have hhand : s'.hand = [] := by
    unfold ComTier.hand
    cases hpc' : s'.pc with
    | outside =>
      rw [hpc'] at hevent
      cases hevent
    | turn | fetched | inside | done => rfl
  refine ⟨?_, fun p' hp' => ?_⟩
  · simp only [ComTier.hand, hpc, hq, DispatchPc.hand] at hturns
    rw [hlog, hhand, hqueue, List.append_nil, hturns]
  · rw [hqueue, hq]
    rw [hevent] at hp'
    rw [Option.some.inj hp']

theorem turns_step (s : ComTier) (e : TierEv) (h : TurnInv s) : TurnInv (tierStep s e) := by
  have hmove := tier_move s e
  generalize tierStep s e = s' at hmove ⊢
  cases hmove with
  | stay => exact h
  | queue e he => exact turns_queue h he
  | left p p' hq hpc => exact turns_left h hpc
  | nobody p bOk bGuid hq hpc hrs => exact turns_fire h hq hpc rfl rfl (by simp [TierNote.fired?])
  | abandoned p bGuid hq hpc => exact turns_fire h hq hpc rfl rfl (by simp [TierNote.fired?])
  | published p hq hpc hm => exact turns_fire h hq hpc rfl rfl (by simp [TierNote.fired?])
  | anonymous p hq hpc hm => exact turns_fire h hq hpc rfl rfl (by simp [TierNote.fired?])
  | plain p bGuid hq hpc hm => exact turns_fire h hq hpc rfl rfl (by simp [TierNote.fired?])
  | gone p r rest b hpc hg => exact turns_same h rfl (by rw [hpc]; rfl) rfl
  | fetched p r r' rest hpc hg => exact turns_same h rfl (by rw [hpc]; rfl) rfl
  | unfetched p r r' rest hpc hg => exact turns_same h rfl (by rw [hpc]; rfl) (by simp [TierNote.fired?])
  | unpublished p b hpc hm => exact turns_same h rfl (by rw [hpc]; rfl) rfl
  | ended p b hpc hm => exact turns_same h rfl (by rw [hpc]; rfl) rfl
  | invoked p r rest b hpc => exact turns_same h rfl (by rw [hpc]; rfl) (by simp [TierNote.fired?])
  | back p r rest b hpc => exact turns_same h rfl (by rw [hpc]; rfl) rfl
  | registered dwGit hfree => exact turns_same h rfl rfl rfl
  | advised r hr hc => exact turns_same h rfl rfl (by simp [TierNote.fired?])
  | replaced r r' hr hc => exact turns_same h rfl rfl (by simp [TierNote.fired?])
  | erased dwCookie r hr => exact turns_same h rfl rfl (by simp [TierNote.fired?])
  | revoked r hr => exact turns_same h rfl rfl (by simp [TierNote.fired?])
  | readInside p r rest get b hpc => exact turns_same h rfl rfl (by simp [TierNote.fired?])
  | readOutside n get b => exact turns_same h rfl rfl (by simp [TierNote.fired?])

theorem turns_created : TurnInv .created := ⟨rfl, nofun⟩

theorem turns_exec (es : List TierEv) : TurnInv (exec tierStep .created es) :=
  have h : Always tierStep TurnInv .created es := always_of_inv turns_step turns_created
  h.last

/-! ## Reads -/

/-- The event whose loop Fire is in. -/
def FirePc.raising? : FirePc → Option Popped
  | .outside | .done _ => none
  | .turn p _ | .fetched p _ _ | .inside p _ _ => some p

/-- The last call of Fire was for `p`, and could not have the logical thread. -/
def Anonymous (p : Popped) (log : List TierNote) : Prop :=
  ∃ earlier rs later, log = earlier ++ .fired p rs :: .noCausality p :: later ∧ later.filterMap TierNote.fired? = []

theorem anonymous_append {p : Popped} {log more : List TierNote} (h : Anonymous p log) (hmore : more.filterMap TierNote.fired? = []) :
    Anonymous p (log ++ more) := by
  obtain ⟨earlier, rs, later, rfl, hlater⟩ := h
  refine ⟨earlier, rs, later ++ more, by simp, ?_⟩
  rw [List.filterMap_append, hlater, hmore]
  rfl

/-- A message is published exactly while its event is raised. -/
structure Raises (s : ComTier) : Prop where
  active : s.lMsgActive = true ↔ ∃ p, s.pc.raising? = some p ∧ p.ev.kind = .evMessage
  current : ∀ p, s.pc.raising? = some p → p.ev.kind = .evMessage → s.pCurEvent = some p.ev ∧
    (s.guidMsgCausality = some .dispatch ∨ s.guidMsgCausality = none ∧ Anonymous p s.log)
  caller : s.guidMsgCausality = some .dispatch ∨ s.guidMsgCausality = none
  /-- A handler that runs was invoked. -/
  invoked : ∀ p r rest, s.pc = .inside p r rest → .invoked r p ∈ s.log

theorem raises_same {s s' : ComTier} (h : Raises s) (hraising : s'.pc.raising? = s.pc.raising?) (hcur : s'.pCurEvent = s.pCurEvent)
    (hguid : s'.guidMsgCausality = s.guidMsgCausality) (hactive : s'.lMsgActive = s.lMsgActive)
    (hlog : ∃ more, s'.log = s.log ++ more ∧ more.filterMap TierNote.fired? = [])
    (hinvoked : ∀ p r rest, s'.pc = .inside p r rest → .invoked r p ∈ s'.log) : Raises s' := by
  refine ⟨?_, fun p hp hm => ?_, by rw [hguid]; exact h.caller, hinvoked⟩
  · rw [hactive, hraising]
    exact h.active
  · rw [hraising] at hp
    obtain ⟨hev, hor⟩ := h.current p hp hm
    rw [hcur, hguid]
    obtain ⟨more, hlog, hmore⟩ := hlog
    refine ⟨hev, hor.imp_right fun ⟨hnone, hanon⟩ => ⟨hnone, ?_⟩⟩
    rw [hlog]
    exact anonymous_append hanon hmore

/-- No message is published where none is raised. -/
theorem raises_none {s s' : ComTier} (h : Raises s) (hguid : s'.guidMsgCausality = s.guidMsgCausality)
    (hactive : s'.lMsgActive = false) (hnone : ∀ p, s'.pc.raising? = some p → p.ev.kind ≠ .evMessage)
    (hinvoked : ∀ p r rest, s'.pc = .inside p r rest → .invoked r p ∈ s'.log) : Raises s' := by
  refine ⟨?_, fun p hp hm => absurd hm (hnone p hp), by rw [hguid]; exact h.caller, hinvoked⟩
  rw [hactive]
  exact iff_of_false Bool.false_ne_true fun ⟨p, hp, hm⟩ => hnone p hp hm

theorem raises_idle {s : ComTier} (h : Raises s) (hpc : s.pc.raising? = none) : s.lMsgActive = false := by
  rw [← Bool.not_eq_true, h.active, hpc]
  rintro ⟨p, hp, -⟩
  cases hp

theorem raises_step (s : ComTier) (e : TierEv) (h : Raises s) : Raises (tierStep s e) := by
  have hmove := tier_move s e
  generalize tierStep s e = s' at hmove ⊢
  have hgrow {y : TierNote} (more : List TierNote) (hy : y ∈ s.log) : y ∈ s.log ++ more := List.mem_append_left _ hy
  have hnone : ∃ more, s.log = s.log ++ more ∧ more.filterMap TierNote.fired? = [] := ⟨[], (List.append_nil _).symm, rfl⟩
  have hone (x : TierNote) (hx : x.fired? = none) : ∃ more, s.log ++ [x] = s.log ++ more ∧ more.filterMap TierNote.fired? = [] :=
    ⟨[x], rfl, by simp [hx]⟩
  have hidle (hpc : s.pc.raising? = none) : s.lMsgActive = false := raises_idle h hpc
  cases hmove with
  | stay => exact h
  | queue e he => exact raises_same h rfl rfl rfl rfl hnone h.invoked
  | left p p' hq hpc => exact raises_none h rfl (hidle (by rw [hpc]; rfl)) nofun nofun
  | nobody p bOk bGuid hq hpc hrs => exact raises_none h rfl (hidle (by rw [hpc]; rfl)) nofun nofun
  | abandoned p bGuid hq hpc => exact raises_none h rfl (hidle (by rw [hpc]; rfl)) nofun nofun
  | published p hq hpc hm =>
    refine ⟨iff_of_true rfl ⟨p, rfl, hm⟩, fun p' hp' _ => ?_, Or.inl rfl, nofun⟩
    cases hp'
    exact ⟨rfl, Or.inl rfl⟩
  | anonymous p hq hpc hm =>
    refine ⟨iff_of_true rfl ⟨p, rfl, hm⟩, fun p' hp' _ => ?_, Or.inr rfl, nofun⟩
    cases hp'
    exact ⟨rfl, Or.inr ⟨rfl, s.log, s.registered, [], by simp, rfl⟩⟩
  | plain p bGuid hq hpc hm =>
    refine raises_none h rfl (hidle (by rw [hpc]; rfl)) (fun p' hp' => ?_) nofun
    cases hp'
    exact hm
  | gone p r rest b hpc hg => exact raises_same h (by rw [hpc]; rfl) rfl rfl rfl hnone nofun
  | fetched p r r' rest hpc hg => exact raises_same h (by rw [hpc]; rfl) rfl rfl rfl hnone nofun
  | unfetched p r r' rest hpc hg => exact raises_same h (by rw [hpc]; rfl) rfl rfl rfl (hone _ rfl) nofun
  | unpublished p b hpc hm => exact raises_none h rfl rfl nofun nofun
  | ended p b hpc hm =>
    refine raises_none h rfl ?_ nofun nofun
    show s.lMsgActive = false
    rw [← Bool.not_eq_true, h.active, hpc]
    rintro ⟨p', hp', hm'⟩
    cases hp'
    exact hm hm'
  | invoked p r rest b hpc =>
    refine raises_same h (by rw [hpc]; rfl) rfl rfl rfl (hone _ rfl) fun p' r' rest' heq => ?_
    cases heq
    exact List.mem_append_right _ (List.mem_singleton.mpr rfl)
  | back p r rest b hpc => exact raises_same h (by rw [hpc]; rfl) rfl rfl rfl hnone nofun
  | registered dwGit hfree => exact raises_same h rfl rfl rfl rfl hnone h.invoked
  | advised r hr hc =>
    exact raises_same h rfl rfl rfl rfl (hone _ rfl) fun p r rest hpc => hgrow _ (h.invoked p r rest hpc)
  | replaced r r' hr hc =>
    refine raises_same h rfl rfl rfl rfl ⟨[.erased r', .advised r], by simp, rfl⟩ fun p r₀ rest hpc => ?_
    rw [List.append_assoc]
    exact hgrow _ (h.invoked p r₀ rest hpc)
  | erased dwCookie r hr =>
    exact raises_same h rfl rfl rfl rfl (hone _ rfl) fun p r rest hpc => hgrow _ (h.invoked p r rest hpc)
  | revoked r hr => exact raises_same h rfl rfl rfl rfl (hone _ rfl) fun p r rest hpc => hgrow _ (h.invoked p r rest hpc)
  | readInside p r rest get b hpc =>
    exact raises_same h rfl rfl rfl rfl (hone _ rfl) fun p r rest hpc => hgrow _ (h.invoked p r rest hpc)
  | readOutside n get b =>
    exact raises_same h rfl rfl rfl rfl (hone _ rfl) fun p r rest hpc => hgrow _ (h.invoked p r rest hpc)

theorem raises_created : Raises .created := by
  refine ⟨iff_of_false Bool.false_ne_true ?_, nofun, Or.inr rfl, nofun⟩
  rintro ⟨p, hp, -⟩
  cases hp

/-- A handler on its own call chain reads the event it is in, if that is a message whose logical thread was had. -/
theorem read_inside {s : ComTier} (h : Raises s) {p : Popped} {r : Registration} {rest : List Registration}
    (hpc : s.pc = .inside p r rest) (get : MsgRead) (b : Bool) : (p.ev.kind = .evMessage ∧ s.read (some .dispatch) get b = get.of b p.ev) ∨
      (s.read (some .dispatch) get b = .error .P2PF_E_NO_MESSAGE ∧ (p.ev.kind ≠ .evMessage ∨ Anonymous p s.log)) := by
  have hraising : s.pc.raising? = some p := by rw [hpc]; rfl
  by_cases hm : p.ev.kind = .evMessage
  · have hactive : s.lMsgActive = true := h.active.mpr ⟨p, hraising, hm⟩
    obtain ⟨hev, hguid | ⟨hguid, hin⟩⟩ := h.current p hraising hm
    · exact Or.inl ⟨hm, by simp [ComTier.read, CurEvent, hactive, hev, hguid, Except.bind]⟩
    · exact Or.inr ⟨by simp [ComTier.read, CurEvent, hactive, hev, hguid, Except.bind], Or.inr hin⟩
  · have hactive : s.lMsgActive = false := by
      rw [← Bool.not_eq_true, h.active, hraising]
      rintro ⟨p', hp', hm'⟩
      cases hp'
      exact hm hm'
    exact Or.inr ⟨by simp [ComTier.read, CurEvent, hactive, Except.bind], Or.inl hm⟩

/-- And nobody else reads any. -/
theorem read_outside {s : ComTier} (h : Raises s) (n : Option Nat) (get : MsgRead) (b : Bool) :
    s.read (n.map .other) get b = .error .P2PF_E_NO_MESSAGE := by
  unfold ComTier.read CurEvent
  split
  · rfl
  split
  · rfl
  have hother : ((n.map Causality.other).isNone || n.map Causality.other != s.guidMsgCausality) = true := by
    cases n with
    | none => rfl
    | some n => rcases h.caller with hg | hg <;> rw [hg] <;> rfl
  rw [if_pos hother]
  rfl

def TierEv.pushed? : TierEv → Option Com.HubEvent
  | .queue e => e.pushed?
  | _ => none

/-- A handler runs where it was invoked, and reads the message that was queued for it, or is told that there is none. -/
structure InsideRight (pushed : List Com.HubEvent) (earlier : List TierNote) (r : Registration) (p : Popped) (get : MsgRead)
    (bMemory : Bool) (a : Except HRESULT MsgValue) : Prop where
  invoked : .invoked r p ∈ earlier
  answer : (∃ ev ∈ pushed, p = .queued ev ∧ ev.kind = .evMessage ∧ a = get.of bMemory ev) ∨
    (a = .error .P2PF_E_NO_MESSAGE ∧ (p.ev.kind ≠ .evMessage ∨ Anonymous p earlier))

structure ReadsOwn (pushed : List Com.HubEvent) (earlier : List TierNote) (x : TierNote) : Prop where
  inside : ∀ r p get bMemory a, x = .readInside r p get bMemory a → InsideRight pushed earlier r p get bMemory a
  outside : ∀ guid get bMemory a, x = .readOutside guid get bMemory a → a = .error .P2PF_E_NO_MESSAGE

/-- The events of the queue, and the one in hand, were pushed. -/
structure FromPushes (pushed : List Com.HubEvent) (q : ComQueue) : Prop where
  queue : ∀ ev ∈ q.queue, ev ∈ pushed
  hand : ∀ ev, q.pc = .firing (.queued ev) → ev ∈ pushed

theorem fromPushes_step {pushed : List Com.HubEvent} {q : ComQueue} (h : FromPushes pushed q) {e : QueueEv}
    (he : ∀ ev, e.pushed? = some ev → ev ∈ pushed) : FromPushes pushed (queueStep q e) := by
  have hmove := queue_move q e
  generalize queueStep q e = q' at hmove ⊢
  cases hmove with
  | stay | woken | quit | dropped => exact ⟨h.queue, h.hand⟩
  | accepted ev hlt =>
    refine ⟨fun ev' hin => ?_, h.hand⟩
    rcases List.mem_append.mp hin with hin | hin
    · exact h.queue ev' hin
    · exact he ev' (by rw [List.mem_singleton.mp hin]; rfl)
  | begun | drained | fired => exact ⟨h.queue, nofun⟩
  | gap => exact ⟨h.queue, nofun⟩
  | handed ev rest hpc hq =>
    refine ⟨fun ev' hin => h.queue ev' (by rw [hq]; exact List.mem_cons_of_mem _ hin), fun ev' heq => ?_⟩
    cases heq
    exact h.queue ev (by rw [hq]; exact List.mem_cons_self)
  | checked hpc =>
    refine ⟨h.queue, fun ev heq => ?_⟩
    have hnot : (if q.lQuit then DispatchPc.left else .waiting) ≠ .firing (.queued ev) := by split <;> nofun
    exact absurd heq hnot

/-- What a step does to the queue. -/
theorem tier_queue (s : ComTier) (e : TierEv) :
    ((tierStep s e).queue = s.queue ∧ e.pushed? = none) ∨ ∃ f, e = .queue f ∧ (tierStep s e).queue = queueStep s.queue f := by
  have hmove := tier_move s e
  generalize tierStep s e = s' at hmove ⊢
  cases hmove with
  | queue f he => exact Or.inr ⟨f, rfl, rfl⟩
  | left p p' hq hpc => exact Or.inr ⟨.dispatch, rfl, rfl⟩
  | stay _ he =>
    refine Or.inl ⟨rfl, ?_⟩
    cases e with
    | queue f =>
      rw [he f rfl]
      rfl
    | fire | turn | register | advise | unadvise | revoke | readInside | readOutside => rfl
  | nobody | abandoned | published | anonymous | plain | gone | fetched | unfetched | unpublished | ended | invoked | back |
    registered | advised | replaced | erased | revoked | readInside | readOutside => exact Or.inl ⟨rfl, rfl⟩

def TierNote.isRead : TierNote → Bool
  | .readInside _ _ _ _ _ | .readOutside _ _ _ _ => true
  | _ => false

theorem right_other {pushed : List Com.HubEvent} {earlier : List TierNote} {x : TierNote} (h : x.isRead = false) :
    ReadsOwn pushed earlier x := by
  refine ⟨fun r p get b a heq => ?_, fun guid get b a heq => ?_⟩
  · rw [heq] at h
    cases h
  · rw [heq] at h
    cases h

theorem right_inside {pushed : List Com.HubEvent} {earlier : List TierNote} {r : Registration} {p : Popped} {get : MsgRead} {b : Bool}
    {a : Except HRESULT MsgValue} (h : InsideRight pushed earlier r p get b a) :
    ReadsOwn pushed earlier (.readInside r p get b a) := by
  refine ⟨fun r' p' get' b' a' heq => ?_, fun guid get' b' a' heq => ?_⟩
  · cases heq
    exact h
  · cases heq

theorem right_outside {pushed : List Com.HubEvent} {earlier : List TierNote} {guid : Option Causality} {get : MsgRead} {b : Bool}
    {a : Except HRESULT MsgValue} (h : a = .error .P2PF_E_NO_MESSAGE) :
    ReadsOwn pushed earlier (.readOutside guid get b a) := by
  refine ⟨fun r p get' b' a' heq => ?_, fun guid' get' b' a' heq => ?_⟩
  · cases heq
  · cases heq
    exact h

/-- A note that is no read is right. -/
theorem reads_snoc {pushed : List Com.HubEvent} {log : List TierNote} {x : TierNote} (h : Noted (ReadsOwn pushed) log)
    (hx : x.isRead = false) : Noted (ReadsOwn pushed) (log ++ [x]) := noted_snoc.mpr ⟨h, right_other hx⟩

theorem reads_step {pushed : List Com.HubEvent} {s : ComTier} (e : TierEv) (hr : Raises s) (ht : TurnInv s)
    (hp : FromPushes pushed s.queue) (h : Noted (ReadsOwn pushed) s.log) : Noted (ReadsOwn pushed) (tierStep s e).log := by
  have hmove := tier_move s e
  generalize tierStep s e = s' at hmove ⊢
  cases hmove with
  | stay | queue | left | gone | fetched | unpublished | ended | back | registered => exact h
  | nobody | published | plain | unfetched | invoked | advised | erased | revoked =>
    exact reads_snoc h rfl
  | abandoned | anonymous | replaced =>
    exact reads_snoc (reads_snoc h rfl) rfl
  | readInside p r rest get b hpc =>
    refine noted_snoc.mpr ⟨h, right_inside ⟨hr.invoked p r rest hpc, ?_⟩⟩
    rcases read_inside hr hpc get b with ⟨hm, hread⟩ | hread
    · refine Or.inl ?_
      have hq := ht.inTurn p (by rw [hpc]; rfl)
      cases p with
      | gap cDropped => cases hm
      | queued ev => exact ⟨ev, hp.hand ev hq, rfl, hm, hread⟩
    · exact Or.inr hread
  | readOutside n get b =>
    exact noted_snoc.mpr ⟨h, right_outside (read_outside hr n get b)⟩

/-- Over every run: a handler that reads the message is told what was queued of the one it is in, and anyone else
    that there is none. -/
theorem handler_reads (es : List TierEv) :
    Noted (ReadsOwn (es.filterMap TierEv.pushed?)) (exec tierStep .created es).log := by
  have hstep : ∀ s e, (Raises s ∧ TurnInv s ∧ FromPushes (es.filterMap TierEv.pushed?) s.queue ∧
        Noted (ReadsOwn (es.filterMap TierEv.pushed?)) s.log) →
      (∀ ev, e.pushed? = some ev → ev ∈ es.filterMap TierEv.pushed?) →
      Raises (tierStep s e) ∧ TurnInv (tierStep s e) ∧ FromPushes (es.filterMap TierEv.pushed?) (tierStep s e).queue ∧
        Noted (ReadsOwn (es.filterMap TierEv.pushed?)) (tierStep s e).log := by
    intro s e ⟨hr, ht, hp, hn⟩ he
    refine ⟨raises_step s e hr, turns_step s e ht, ?_, reads_step e hr ht hp hn⟩
    rcases tier_queue s e with ⟨hq, -⟩ | ⟨f, rfl, hq⟩
    · rw [hq]
      exact hp
    · rw [hq]
      exact fromPushes_step hp he
  have heach : Each tierStep (fun _ e => ∀ ev, e.pushed? = some ev → ev ∈ es.filterMap TierEv.pushed?) .created es := by
    intro k e hk ev hev
    exact List.mem_filterMap.mpr ⟨e, List.mem_of_getElem? hk, hev⟩
  exact (always_of_each hstep ⟨raises_created, turns_created, ⟨nofun, nofun⟩, noted_nil⟩ heach).last.2.2.2

/-! ## From Push to the handler -/

/-- A step of the dispatch thread, or the SetEvent of one that is past its lock. -/
def TierEv.isDispatch : TierEv → Bool
  | .queue .dispatch | .queue .wake | .fire _ _ | .turn _ => true
  | _ => false

def ComTier.AtRest (s : ComTier) : Prop := ∀ e : TierEv, e.isDispatch = true → tierStep s e = s

theorem rest_outside {s : ComTier} (ht : TurnInv s) (h : s.AtRest) : s.pc = .outside := by
  have hturn : (fireTurn true s).pc = s.pc := congrArg ComTier.pc (h (.turn true) rfl)
  cases hpc : s.pc with
  | outside => rfl
  | turn p rest =>
    exfalso
    unfold fireTurn at hturn
    rw [hpc] at hturn
    cases rest with
    | nil =>
      simp only at hturn
      split at hturn <;> cases hturn
    | cons r rest =>
      simp only at hturn
      split at hturn
      · have hlen := congrArg (fun pc : FirePc => pc.rest.length) hturn
        simp [FirePc.rest] at hlen
      · cases hturn
  | fetched p r rest =>
    unfold fireTurn at hturn
    rw [hpc] at hturn
    cases hturn
  | inside p r rest =>
    unfold fireTurn at hturn
    rw [hpc] at hturn
    cases hturn
  | done p =>
    have hq := ht.inTurn p (by rw [hpc]; rfl)
    have hleft := congrArg ComTier.pc (h (.queue .dispatch) rfl)
    unfold tierStep at hleft
    simp only [hq, hpc] at hleft
    cases hleft

theorem rest_queue {s : ComTier} (ht : TurnInv s) (h : s.AtRest) : s.queue.AtRest := by
  have hpc := rest_outside ht h
  refine ⟨congrArg ComTier.queue (h (.queue .wake) rfl), ?_⟩
  have hnot : ∀ p, s.queue.pc ≠ .firing p := by
    intro p hq
    have hfire := congrArg ComTier.pc (h (.fire true true) rfl)
    unfold tierStep Fire at hfire
    simp only [hq, hpc] at hfire
    split at hfire
    · cases hfire
    split at hfire
    · cases hfire
    split at hfire <;> cases hfire
  have hstep := congrArg ComTier.queue (h (.queue .dispatch) rfl)
  unfold tierStep at hstep
  simp only at hstep
  split at hstep
  · rename_i p p' hq hpc'
    exact absurd hq (hnot p)
  · rename_i p hq _
    exact absurd hq (hnot p)
  · exact hstep

theorem tier_inv_step {pushed : List Com.HubEvent} {s : ComTier} {e : TierEv} (h : s.queue.Inv pushed) (he : e ≠ .queue .quit)
    (hsmall : (tierStep s e).queue.Small) : (tierStep s e).queue.Inv (pushed ++ e.pushed?.toList) := by
  rcases tier_queue s e with ⟨hq, hnone⟩ | ⟨f, rfl, hq⟩
  · rw [hq, hnone, Option.toList_none, List.append_nil]
    exact h
  · rw [hq] at hsmall ⊢
    exact inv_step h (fun heq => he (heq ▸ rfl)) hsmall

theorem tier_inv_exec (es : List TierEv) : ∀ {pushed : List Com.HubEvent} {s : ComTier}, s.queue.Inv pushed → .queue .quit ∉ es →
    Always tierStep (fun s => s.queue.Small) s es →
    (exec tierStep s es).queue.Inv (pushed ++ es.filterMap TierEv.pushed?) := by
  induction es with
  | nil =>
    intro pushed s h _ _
    simpa using h
  | cons e es ih =>
    intro pushed s h hquit hsmall
    obtain ⟨-, hsmall⟩ := always_cons.mp hsmall
    have he : e ≠ .queue .quit := fun heq => hquit (heq ▸ List.mem_cons_self)
    have hrest := ih (tier_inv_step h he hsmall.first) (fun hm => hquit (List.mem_cons_of_mem _ hm)) hsmall
    rw [List.append_assoc] at hrest
    cases hp : e.pushed? with
    | none => simpa [hp] using hrest
    | some ev => simpa [hp] using hrest

/-- All that was pushed was accepted or dropped, and the rest is in a report. -/
structure HearsAll (pushed : List Com.HubEvent) (s : ComTier) (r : Registration) : Prop where
  decided : s.queue.log.filterMap QueueNote.pushed? = pushed
  /-- `r` has been invoked for all that was popped, the reports too, once each and in that order. -/
  invoked : s.log.flatMap (TierNote.invokes r) = s.queue.log.filterMap QueueNote.popped?
  /-- The events among them are all that was accepted. -/
  heard : (s.log.flatMap (TierNote.invokes r)).filterMap Popped.queued? = s.queue.log.filterMap QueueNote.accepted?
  reported : Reported s.queue.log ∧ droppedSince s.queue.log = 0

/-- A run that refuses `r` nothing skips no turn of it. -/
theorem skips_none {es : List TierEv} {r : Registration} (hes : Each tierStep NotListed .created es)
    (hserved : Each tierStep (fun s e => ¬ Refused r s e) .created es) :
    (exec tierStep .created es).log.flatMap (TierNote.skips r) = [] := by
  have hboth : Each tierStep (fun s e => NotListed s e ∧ ¬ Refused r s e) .created es := fun k e hk => ⟨hes k e hk, hserved k e hk⟩
  have hstep : ∀ s e, TierInv s ∧ s.log.flatMap (TierNote.skips r) = [] → NotListed s e ∧ ¬ Refused r s e →
      TierInv (tierStep s e) ∧ (tierStep s e).log.flatMap (TierNote.skips r) = [] :=
    fun s e h he => ⟨tierInv_step s e h.1 he.1, (skips_refused h.1 r e he.2).trans h.2⟩
  exact (always_of_each hstep ⟨tierInv_created, rfl⟩ hboth).last.2

/-- Then each turn is an invocation. -/
theorem turns_invokes {log : List TierNote} {r : Registration} (h : log.flatMap (TierNote.skips r) = []) :
    log.flatMap (TierNote.turns r) = log.flatMap (TierNote.invokes r) := by
  induction log with
  | nil => rfl
  | cons x log ih =>
    rw [List.flatMap_cons, List.append_eq_nil_iff] at h
    rw [List.flatMap_cons, List.flatMap_cons, ih h.2, TierNote.turns, h.1, List.append_nil]

/-- The turns of a registration that has not left, when nothing is under way. -/
theorem turns_at_rest {s : ComTier} {r : Registration} (ha : SinkAccount s r) (ht : TurnInv s) (hout : s.pc = .outside)
    (hhand : s.queue.pc.hand = []) {earlier later : List TierNote}
    (hadv : s.log = earlier ++ .advised r :: later) (hfirst : earlier.filterMap TierNote.fired? = []) (hstays : .erased r ∉ s.log) :
    s.log.flatMap (TierNote.turns r) = s.queue.log.filterMap QueueNote.popped? := by
  obtain ⟨rest, horder, -, hmissing⟩ := ha.inOrder
  have hnil : rest = [] := by
    by_contra hne
    rcases hmissing hne with ⟨p, rest', hu, -⟩ | herased
    · rw [hout] at hu
      cases hu
    · exact hstays herased
  have hall : s.log.filterMap TierNote.fired? = later.filterMap TierNote.fired? := by
    rw [hadv, List.filterMap_append, hfirst, List.filterMap_cons]
    rfl
  have hturns := ht.turns
  rw [ComTier.hand, hout] at hturns
  simp only at hturns
  rw [hhand, List.append_nil, hall, ← ha.since earlier later hadv hstays, horder, hnil, List.append_nil] at hturns
  exact hturns

/-- Whatever callbacks, sinks and handlers do, until the hub is told to quit: a sink that is there before the first event,
    stays and is refused no turn, has been invoked for all that the queue has taken once nothing is under way. -/
theorem sink_hears_all (es : List TierEv) (hes : Each tierStep NotListed .created es) (hquit : .queue .quit ∉ es)
    (hsmall : Always tierStep (fun s => s.queue.Small) .created es) (r : Registration)
    (hserved : Each tierStep (fun s e => ¬ Refused r s e) .created es) (earlier later : List TierNote)
    (hadv : (exec tierStep .created es).log = earlier ++ .advised r :: later) (hfirst : earlier.filterMap TierNote.fired? = [])
    (hstays : .erased r ∉ (exec tierStep .created es).log) (hrest : (exec tierStep .created es).AtRest) :
    HearsAll (es.filterMap TierEv.pushed?) (exec tierStep .created es) r := by
  have hinv := tier_inv_exec es inv_created hquit hsmall
  rw [List.nil_append] at hinv
  have hturns := turns_exec es
  have hqueue := rest_queue hturns hrest
  have hsettled := rest_settled hinv.waker hinv.accounts hqueue
  have hhand : (exec tierStep .created es).queue.pc.hand = [] := by
    rw [(rest_waits hinv.waker hqueue).1]
    rfl
  have haccount := sinkAccount_of_sound (tier_rounds hes).2 r
  have hinvoked := turns_at_rest haccount hturns (rest_outside hturns hrest) hhand hadv hfirst hstays
  rw [turns_invokes (skips_none hes hserved)] at hinvoked
  have hfired := hinv.accounts.fired
  rw [hhand, List.append_nil] at hfired
  refine ⟨hinv.accounts.decided, hinvoked, ?_, hinv.accounts.reported, hsettled.reported⟩
  rw [hinvoked, ← hfired]
  exact hsettled.fired

theorem tier_small_of_length {s : ComTier} {es : List TierEv} (h : droppedSince s.queue.log + es.length < 2 ^ 31) :
    Always tierStep (fun s => s.queue.Small) s es := by
  induction es generalizing s with
  | nil => exact always_nil.mpr h
  | cons e es ih =>
    have hone : droppedSince (tierStep s e).queue.log ≤ droppedSince s.queue.log + 1 := by
      rcases tier_queue s e with ⟨hq, -⟩ | ⟨f, -, hq⟩
      · rw [hq]
        exact Nat.le_succ _
      · rw [hq]
        exact droppedSince_step s.queue f
    rw [List.length_cons] at h
    refine always_cons.mpr ⟨?_, ih (by omega)⟩
    unfold ComQueue.Small
    omega

/-- Nothing is refused where every table and every fetch is good. -/
theorem served_of_good {es : List TierEv} (r : Registration) (hfire : ∀ bGuid, .fire false bGuid ∉ es) (hturn : .turn false ∉ es) :
    Each tierStep (fun s e => ¬ Refused r s e) .created es := by
  rintro k e hk (⟨-, -, -, bGuid, rfl⟩ | ⟨p, rest, -, rfl⟩)
  · exact hfire bGuid (List.mem_of_getElem? hk)
  · exact hturn (List.mem_of_getElem? hk)

/-- A peer comes up and sends a message: both are queued before the dispatch thread wakes, and it is back at its wait. -/
def peerUp : Com.HubEvent := { Com.HubEvent.created with kind := .evPeerUp, a := L "Demo.B" }

def firstMessage : Com.HubEvent := { Com.HubEvent.created with kind := .evMessage, a := L "Demo.B", b := L "hi", payload := [1, 2] }

def oneSinkRun : List TierEv :=
  [.register 256, .advise ⟨256, 0⟩, .queue (.push peerUp), .queue (.push firstMessage), .queue .wake, .queue .wake,
    .queue .dispatch, .queue .dispatch, .fire true true, .turn true, .turn true, .turn true, .turn true, .queue .dispatch,
    .queue .dispatch, .fire true true, .turn true, .turn true, .turn true, .turn true, .queue .dispatch, .queue .dispatch,
    .queue .dispatch]

theorem oneSink_log : (exec tierStep .created oneSinkRun).log =
    [.advised ⟨256, 0⟩, .fired (.queued peerUp) [⟨256, 0⟩], .invoked ⟨256, 0⟩ (.queued peerUp),
      .fired (.queued firstMessage) [⟨256, 0⟩], .invoked ⟨256, 0⟩ (.queued firstMessage)] := rfl

theorem oneSink_rests : (exec tierStep .created oneSinkRun).AtRest := by
  intro e he
  cases e with
  | queue f =>
    cases f with
    | dispatch | wake => rfl
    | push | quit => cases he
  | fire | turn => rfl
  | register | advise | unadvise | revoke | readInside | readOutside => cases he

theorem sink_hears_all_two : HearsAll [peerUp, firstMessage] (exec tierStep .created oneSinkRun) ⟨256, 0⟩ :=
  sink_hears_all oneSinkRun (notListed_first (by simp)) (by simp [oneSinkRun]) (tier_small_of_length (by decide)) ⟨256, 0⟩
    (served_of_good ⟨256, 0⟩ (by simp [oneSinkRun]) (by simp [oneSinkRun])) [] _ oneSink_log rfl (by rw [oneSink_log]; simp)
    oneSink_rests

end TargetFacade
