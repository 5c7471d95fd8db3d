/-
  TargetFacade.Hub.Affinity — whose thread turns the pump of a hub that its creator pumps, and
  retires its connections, over every interleaving of the calls of any threads.

  Pump and Close ask whose thread it is before anything else, and a refused Close has not taken
  its latch. Disconnect and Ping do not ask: from another thread a Disconnect drops its peer and
  waits without pumping (`foreign_disconnect_retires`), and a Ping posts and parks. WaitSlice
  asks, so every turn is the creator's in any run (`turns_by_owner`); `affinity_iff` says that
  these two verbs, called from another thread, are all that breaks the rest.
-/

import TargetFacade.Hub.PumpVerbs

namespace TargetFacade

open OrdMap Runs
open Function (update)

variable (inet : InetPton)

def PumpVerb.unguarded : PumpVerb → Bool
  | .pump _ _ => false
  | .disconnect _ => true
  | .ping _ _ _ => true
  | .close => false

/-- A call from another thread than the creator's answers P2PF_E_PUMP_OWNER, and the hub is as it was. -/
def RefusesForeign (nOwner : UInt32) (s : PumpedHub) (e : ThreadEv) : Prop :=
  ∀ nThread v env, e = .call nThread v env → s.mayCall nThread = true → nThread ≠ nOwner →
    ∃ out, pumpStep inet s e = s.answered nThread v .P2PF_E_PUMP_OWNER out

/-- Every turn of the pump and every retirement is the creator's. -/
structure OwnerActs (nOwner : UInt32) (s : PumpedHub) : Prop where
  turns : ∀ nThread ∈ s.turns, nThread = nOwner
  retired : ∀ r ∈ s.retired, r.1 = nOwner

/-- A Disconnect or a Ping from another thread. -/
def ForeignWait (nOwner : UInt32) (s : PumpedHub) (e : ThreadEv) : Prop :=
  ∃ nThread v env, e = .call nThread v env ∧ s.mayCall nThread = true ∧ nThread ≠ nOwner ∧ v.unguarded = true

/-! ## What a thread's step can do -/

/-- A step of a thread: it makes a turn only when the pump is its own, it retires connections in its own name, and the
    calls of the others stay where they are. -/
structure ThreadStep (nThread : UInt32) (s s' : PumpedHub) : Prop where
  pumped : s'.hub.bCallerPumped = s.hub.bCallerPumped
  hubID : s'.nHubID = s.nHubID ∨ s'.nHubID = 0
  turns : s'.turns = s.turns ∨ s'.turns = s.turns ++ [nThread] ∧ (s.hub.bCallerPumped = true → s.OwnsPump nThread = true)
  retired : ∃ aPeers : List WStr, s'.retired = s.retired ++ aPeers.map (nThread, ·)
  others : ∀ u, u ≠ nThread → s'.calls u = s.calls u

/-- The same, without a turn and with the hub's thread as it was. -/
structure Quiet (nThread : UInt32) (s s' : PumpedHub) : Prop where
  pumped : s'.hub.bCallerPumped = s.hub.bCallerPumped
  hubID : s'.nHubID = s.nHubID
  turns : s'.turns = s.turns
  retired : ∃ aPeers : List WStr, s'.retired = s.retired ++ aPeers.map (nThread, ·)
  others : ∀ u, u ≠ nThread → s'.calls u = s.calls u

variable {nThread : UInt32} {s s' s'' : PumpedHub}

theorem Quiet.step (h : Quiet nThread s s') : ThreadStep nThread s s' :=
  ⟨h.pumped, Or.inl h.hubID, Or.inl h.turns, h.retired, h.others⟩

theorem quiet_refl (nThread : UInt32) (s : PumpedHub) : Quiet nThread s s :=
  ⟨rfl, rfl, rfl, ⟨[], by simp⟩, fun _ _ => rfl⟩

theorem Quiet.trans (h : Quiet nThread s s') (h' : Quiet nThread s' s'') : Quiet nThread s s'' := by
  obtain ⟨aPeers, hr⟩ := h.retired
  obtain ⟨aPeers', hr'⟩ := h'.retired
  constructor
  · exact h'.pumped.trans h.pumped
  · exact h'.hubID.trans h.hubID
  · exact h'.turns.trans h.turns
  · exact ⟨aPeers ++ aPeers', by rw [hr', hr, List.map_append, List.append_assoc]⟩
  · intro u hu
    rw [h'.others u hu, h.others u hu]

theorem quiet_runs (nThread : UInt32) (s : PumpedHub) (cs : List VerbCall) : Quiet nThread s (s.runs nThread cs) :=
  ⟨rfl, rfl, rfl, ⟨[], by simp [PumpedHub.runs]⟩, fun _ hu => Function.update_of_ne hu _ _⟩

theorem quiet_answered (s : PumpedHub) (v : PumpVerb) (hr : HRESULT) (out : Option UInt32) :
    Quiet nThread s (s.answered nThread v hr out) :=
  ⟨rfl, rfl, rfl, ⟨[], by simp [PumpedHub.answered]⟩, fun _ _ => rfl⟩

theorem quiet_signal (s : PumpedHub) (aPeers : List WStr) : Quiet nThread s (s.signal nThread aPeers) :=
  ⟨rfl, rfl, rfl, ⟨aPeers, rfl⟩, fun _ _ => rfl⟩

/-- A change of the maps, the pings, the queue or the flags. -/
theorem quiet_fields (hub : Hub) (asks : PingHub) (bThread bPumpDone bClosed bDeleted : Bool) (posted : List PumpPost)
    (hh : hub.bCallerPumped = s.hub.bCallerPumped) :
    Quiet nThread s { s with hub := hub, asks := asks, bThread := bThread, bPumpDone := bPumpDone, bClosed := bClosed,
                             bDeleted := bDeleted, posted := posted } :=
  ⟨hh, rfl, rfl, ⟨[], by simp⟩, fun _ _ => rfl⟩

theorem pumpOnce_step (h : Quiet nThread s s') (v : PumpVerb) (ho : s.hub.bCallerPumped = true → s.OwnsPump nThread = true) :
    ThreadStep nThread s (PumpOnce nThread v s') := by
  obtain ⟨aPeers, hr⟩ := h.retired
  constructor
  · exact h.pumped
  · exact Or.inl h.hubID
  · refine Or.inr ⟨?_, ho⟩
    show s'.turns ++ [nThread] = _
    rw [h.turns]
  · exact ⟨aPeers, hr⟩
  · intro u hu
    show update s'.calls nThread _ u = _
    rw [Function.update_of_ne hu, h.others u hu]

theorem owns_of_quiet (h : Quiet nThread s s') (u : UInt32) : s'.OwnsPump u = s.OwnsPump u := by
  unfold PumpedHub.OwnsPump
  rw [h.hubID]

/-- WaitSlice pumps on the hub's own thread and on no other. -/
theorem waitSlice_step (h : Quiet nThread s s') (v : PumpVerb) : ThreadStep nThread s (WaitSlice nThread v s') := by
  unfold WaitSlice
  split
  · exact h.step
  · rename_i hw
    refine pumpOnce_step h v fun _ => ?_
    rw [← owns_of_quiet h nThread]
    cases ho : s'.OwnsPump nThread with
    | true => rfl
    | false => simp [ho] at hw

theorem markPeer_bCallerPumped (h : Hub) (p : WStr) (bUp : Bool) : (h.MarkPeer p bUp).bCallerPumped = h.bCallerPumped := rfl

theorem work_step (w : PumpWork) (nThread : UInt32) (s : PumpedHub) : ThreadStep nThread s (w.run s) := by
  have hhub {h : Hub} (hh : h.bCallerPumped = s.hub.bCallerPumped) : ThreadStep nThread s { s with hub := h } :=
    ⟨hh, Or.inl rfl, Or.inl rfl, ⟨[], by simp⟩, fun _ _ => rfl⟩
  cases w with
  | take => exact ⟨rfl, Or.inl rfl, Or.inl rfl, ⟨[], by simp [PumpWork.run]⟩, fun _ _ => rfl⟩
  | accept i =>
    refine hhub ?_
    unfold acceptCon
    split
    · rfl
    split
    · rfl
    · rfl
  | redial i =>
    refine hhub ?_
    unfold redialCon
    split
    · rfl
    split
    · rfl
    · rfl
  | login i strThat =>
    refine hhub ?_
    unfold loginCon
    split
    · rfl
    split
    · rfl
    · exact markPeer_bCallerPumped _ _ _
  | close i bRestart =>
    refine hhub ?_
    unfold closeCon
    split
    · rfl
    · exact markPeer_bCallerPumped _ _ _
  | pong uPingId => exact ⟨rfl, Or.inl rfl, Or.inl rfl, ⟨[], by simp [PumpWork.run]⟩, fun _ _ => rfl⟩

theorem callVerb_step (env : CallEnv) (nThread : UInt32) (v : PumpVerb) (s : PumpedHub) :
    ThreadStep nThread s (callVerb env nThread v s) := by
  cases v with
  | pump timeoutMillisecs bWhat =>
    unfold callVerb
    simp only
    by_cases h1 : s.hub.bCallerPumped = true
    · rw [if_neg (by simp [h1])]
      by_cases h2 : s.OwnsPump nThread = true
      · rw [if_neg (by simp [h2])]
        split
        · exact (quiet_answered s _ _ _).step
        · exact pumpOnce_step (quiet_refl nThread s) _ fun _ => h2
      · rw [if_pos (by simp [h2])]
        exact (quiet_answered s _ _ _).step
    · rw [if_pos (by simp [h1])]
      exact (quiet_answered s _ _ _).step
  | disconnect peer =>
    cases peer with
    | none => exact (quiet_answered s _ _ _).step
    | some peer =>
      unfold callVerb
      simp only
      split
      · exact (quiet_answered s _ _ _).step
      split
      · exact (quiet_answered s _ _ _).step
      split
      · exact (quiet_answered s _ _ _).step
      split
      · exact (quiet_answered s _ _ _).step
      · exact (quiet_runs nThread s _).step
  | ping peer timeoutMillisecs bOut =>
    have hq : Quiet nThread s { s with asks := PingBegin peer bOut (!s.hub.bCallerPumped && s.OwnsPump nThread) env.bEvent s.asks } :=
      quiet_fields s.hub _ _ _ _ _ _ rfl
    unfold callVerb
    simp only
    split
    · exact (hq.trans (quiet_answered _ _ _ _)).step
    · exact (hq.trans (quiet_runs nThread _ _)).step
  | close =>
    unfold callVerb
    simp only
    split
    · exact (quiet_answered s _ _ _).step
    split
    · exact (quiet_answered s _ _ _).step
    · exact ((quiet_runs nThread s _).trans (quiet_fields _ _ _ _ true _ _ rfl)).step

theorem pingOn_step (env : StepEnv) (nThread : UInt32) (v : PumpVerb) (id : PingId) (cs : List VerbCall) (s : PumpedHub) :
    ThreadStep nThread s (pingOn env nThread v id cs s) := by
  unfold pingOn
  split
  · exact (quiet_runs nThread s cs).step
  rename_i c hc
  split
  · split
    · exact waitSlice_step (quiet_refl nThread s) v
    · exact (quiet_refl nThread s).step
  · have hq : Quiet nThread s
        { s with asks := pingClient env.post env.bExpired s.asks c, posted := s.posted ++ c.posts env.post } :=
      quiet_fields s.hub _ _ _ _ _ _ rfl
    simp only
    split
    · exact hq.step
    · exact (hq.trans ((quiet_runs nThread _ cs).trans (quiet_answered _ _ _ _))).step

theorem callOn_step (env : StepEnv) (nThread : UInt32) (c : VerbCall) (cs : List VerbCall) (s : PumpedHub) :
    ThreadStep nThread s (callOn env nThread c cs s) := by
  obtain ⟨verb, pc⟩ := c
  -- a change of the fields, and on to the next place
  have hgoto {t : PumpedHub} (hq : Quiet nThread s t) (pc : VerbPc) : Quiet nThread s (t.runs nThread (⟨verb, pc⟩ :: cs)) :=
    hq.trans (quiet_runs nThread t _)
  cases pc with
  | turn => exact (quiet_refl nThread s).step
  | dropping peer => exact (hgoto (quiet_refl nThread s) _).step
  | retracting peer bWasUp => exact (hgoto (quiet_fields { s.hub with armed := s.hub.armed.erase peer } _ _ _ _ _ _ rfl) _).step
  | signalling peer bWasUp =>
    unfold callOn
    simp only
    split
    · exact (hgoto (quiet_refl nThread s) _).step
    · exact (hgoto (quiet_signal s [peer]) _).step
  | retiring peer bWasUp nSlice =>
    unfold callOn
    simp only
    split
    · exact (hgoto (quiet_refl nThread s) _).step
    split
    · exact (hgoto (quiet_refl nThread s) _).step
    split
    · exact (hgoto (quiet_refl nThread s) _).step
    · exact waitSlice_step (hgoto (quiet_refl nThread s) _) verb
  | dropped peer bWasUp bGone =>
    have hkeep : (if bWasUp then s.hub.MarkPeer peer false else s.hub).bCallerPumped = s.hub.bCallerPumped := by
      split
      · exact markPeer_bCallerPumped _ _ _
      · rfl
    exact (hgoto (quiet_fields _ _ _ _ _ _ _ hkeep) _).step
  | telling peer bGone =>
    have hq : Quiet nThread s { s with hub :=
        { s.hub with unretired := if bGone then s.hub.unretired.erase peer else s.hub.unretired.insert peer } } :=
      quiet_fields _ _ _ _ _ _ _ rfl
    exact (hq.trans ((quiet_runs nThread _ cs).trans (quiet_answered _ _ _ _))).step
  | pinging id => exact pingOn_step env nThread verb id cs s
  | closing => exact (hgoto (quiet_fields s.hub (CloseMark s.asks) _ _ _ _ _ rfl) _).step
  | releasing =>
    have hq : Quiet nThread s { s with asks := CloseSlice s.asks } := quiet_fields s.hub _ _ _ _ _ _ rfl
    unfold callOn
    simp only
    split
    · exact waitSlice_step hq verb
    · exact (hgoto hq _).step
  | tearing =>
    unfold callOn
    simp only
    split
    · exact (hgoto (quiet_refl nThread s) _).step
    · refine (hgoto ?_ _).step
      split
      · exact (quiet_signal s _).trans (quiet_fields _ _ false _ _ _ _ rfl)
      · exact quiet_fields _ _ false _ _ _ _ rfl
  | draining bOwns aPeers nSlice =>
    unfold callOn
    simp only
    split
    · exact waitSlice_step (hgoto (quiet_refl nThread s) _) verb
    · exact (hgoto (quiet_refl nThread s) _).step
  | drained bOwns =>
    constructor
    · rfl
    · cases bOwns with
      | true => exact Or.inr rfl
      | false => exact Or.inl rfl
    · exact Or.inl rfl
    · exact ⟨[], by simp [callOn, PumpedHub.runs]⟩
    · exact fun u hu => Function.update_of_ne hu _ _
  | deleting =>
    have hq : Quiet nThread s { s with bDeleted := true } := quiet_fields s.hub _ _ _ _ true _ rfl
    exact (hq.trans ((quiet_runs nThread _ cs).trans (quiet_answered _ _ _ _))).step

theorem pumpOnceEnd_step (nThread : UInt32) (r : TurnEnd) (v : PumpVerb) (cs : List VerbCall) (s : PumpedHub) :
    ThreadStep nThread s (PumpOnceEnd nThread r v cs s) := by
  unfold PumpOnceEnd
  generalize r.read = read
  obtain ⟨hr, dwResult, bDone, bDestroy⟩ := read
  have hdone : Quiet nThread s { s with bPumpDone := s.bPumpDone || bDone } := quiet_fields s.hub _ _ _ _ _ _ rfl
  simp only
  have hsignal : Quiet nThread s (if bDestroy then
      PumpedHub.signal { s with bPumpDone := s.bPumpDone || bDone } nThread (s.hub.cons.map (·.csPeer))
      else { s with bPumpDone := s.bPumpDone || bDone }) := by
    split
    · exact hdone.trans (quiet_signal _ _)
    · exact hdone
  have hruns := hsignal.trans (quiet_runs nThread _ cs)
  split
  · exact (hruns.trans (quiet_answered _ _ _ _)).step
  · exact hruns.step

theorem armUnified_bCallerPumped (pOwner : Option Owner) (env : ArmEnv) (toPeer : Option WStr) (endpoint : WStr) (bListen : Bool)
    (h : Hub) : (ArmUnified inet pOwner env toPeer endpoint bListen h).2.bCallerPumped = h.bCallerPumped := by
  have hresolved (peer : WStr) (rEp : FacadeEndpoint) (h : Hub) :
      (ArmResolved env peer rEp bListen h).2.bCallerPumped = h.bCallerPumped := by
    have hout := armResolved_cases env peer rEp bListen h
    generalize ArmResolved env peer rEp bListen h = r at hout ⊢
    obtain ⟨hr, h'⟩ := r
    cases hout with
    | refused => rfl
    | armed => rfl
  have hout := armUnified_cases inet pOwner env toPeer endpoint bListen h
  revert hout
  generalize ArmUnified inet pOwner env toPeer endpoint bListen h = r
  obtain ⟨hr, h'⟩ := r
  intro hout
  cases hout with
  | early => rfl
  | barred => rfl
  | passed p t said => exact hresolved p _ _

/-! ## Runs -/

/-- What holds in any run: the hub is caller-pumped, its thread is its creator or none any more, and the turns are its. -/
structure PumpInv (nOwner : UInt32) (s : PumpedHub) : Prop where
  pumped : s.hub.bCallerPumped = true
  hubID : s.nHubID = nOwner ∨ s.nHubID = 0
  turns : ∀ nThread ∈ s.turns, nThread = nOwner

theorem PumpInv.owns {nOwner : UInt32} (h : PumpInv nOwner s) (ho : s.OwnsPump nThread = true) : nThread = nOwner := by
  unfold PumpedHub.OwnsPump at ho
  simp only [Bool.and_eq_true, bne_iff_ne, beq_iff_eq] at ho
  rcases h.hubID with h | h
  · exact ho.2.trans h
  · exact absurd h ho.1

theorem PumpInv.stepped {nOwner : UInt32} (h : PumpInv nOwner s) (hs : ThreadStep nThread s s') : PumpInv nOwner s' := by
  constructor
  · rw [hs.pumped, h.pumped]
  · rcases hs.hubID with he | he
    · rw [he]
      exact h.hubID
    · exact Or.inr he
  · rcases hs.turns with he | ⟨he, ho⟩
    · rw [he]
      exact h.turns
    · rw [he]
      intro u hu
      rcases List.mem_append.mp hu with hu | hu
      · exact h.turns u hu
      · rw [List.mem_singleton.mp hu]
        exact h.owns (ho h.pumped)

/-- A step is a call, or goes on in a call of some thread, or is no thread's. -/
inductive PumpMove (s : PumpedHub) (e : ThreadEv) : PumpedHub → Prop
  | call (nThread : UInt32) (v : PumpVerb) (env : CallEnv) (he : e = .call nThread v env) (hmay : s.mayCall nThread = true) :
      PumpMove s e (callVerb env nThread v s)
  | within (nThread : UInt32) (s' : PumpedHub) (hc : s.calls nThread ≠ []) (hs : ThreadStep nThread s s') : PumpMove s e s'
  | outside (hub : Hub) (asks : PingHub) (hh : hub.bCallerPumped = s.hub.bCallerPumped) :
      PumpMove s e { s with hub := hub, asks := asks }

theorem pumpStep_moves (s : PumpedHub) (e : ThreadEv) : PumpMove s e (pumpStep inet s e) := by
  have hstay : PumpMove s e s := .outside s.hub s.asks rfl
  have hcalls {nThread : UInt32} {c : VerbCall} {cs : List VerbCall} (hc : s.calls nThread = c :: cs) : s.calls nThread ≠ [] := by
    rw [hc]
    exact List.cons_ne_nil c cs
  unfold pumpStep
  cases e with
  | arm pOwner env toPeer endpoint bListen =>
    simp only
    split
    · exact hstay
    · exact .outside _ s.asks (armUnified_bCallerPumped inet pOwner env toPeer endpoint bListen s.hub)
  | tick n => exact .outside s.hub _ rfl
  | call nThread v env =>
    simp only
    split
    · exact .call nThread v env rfl ‹_›
    · exact hstay
  | go nThread env =>
    simp only
    split
    · exact hstay
    split
    · exact hstay
    · exact .within nThread _ (hcalls ‹_›) (callOn_step env nThread _ _ s)
  | work nThread w =>
    simp only
    split
    · exact hstay
    split
    · exact hstay
    · exact .within nThread _ (hcalls ‹_›) (work_step w nThread s)
  | ended nThread r =>
    simp only
    split
    · exact hstay
    split
    · exact hstay
    · exact .within nThread _ (hcalls ‹_›) (pumpOnceEnd_step nThread r _ _ s)

theorem pumpStep_call (env : CallEnv) (v : PumpVerb) (hmay : s.mayCall nThread = true) :
    pumpStep inet s (.call nThread v env) = callVerb env nThread v s := by
  simp only [pumpStep, hmay, if_true]

theorem pumpInv_step {nOwner : UInt32} (s : PumpedHub) (e : ThreadEv) (h : PumpInv nOwner s) : PumpInv nOwner (pumpStep inet s e) := by
  have hm := pumpStep_moves inet s e
  revert hm
  generalize pumpStep inet s e = s'
  intro hm
  cases hm with
  | call nThread v env he hmay => exact h.stepped (callVerb_step env nThread v s)
  | within nThread s' hc hs => exact h.stepped hs
  | outside hub asks hh => exact ⟨hh.trans h.pumped, h.hubID, h.turns⟩

/-- Where nothing is called from another thread but what asks first, no other thread is in a call, and all is the creator's. -/
structure Affine (nOwner : UInt32) (s : PumpedHub) : Prop where
  inv : PumpInv nOwner s
  acts : OwnerActs nOwner s
  foreign : ∀ nThread, nThread ≠ nOwner → s.calls nThread = []

theorem Affine.stepped {nOwner : UInt32} (h : Affine nOwner s) (hs : ThreadStep nOwner s s') : Affine nOwner s' := by
  have hinv := h.inv.stepped hs
  refine ⟨hinv, ⟨hinv.turns, ?_⟩, fun u hu => (hs.others u hu).trans (h.foreign u hu)⟩
  obtain ⟨aPeers, he⟩ := hs.retired
  rw [he]
  intro r hr
  rcases List.mem_append.mp hr with hr | hr
  · exact h.acts.retired r hr
  · obtain ⟨p, -, rfl⟩ := List.mem_map.mp hr
    rfl

/-- Pump and Close refuse another thread, whatever the state of the hub. -/
theorem guarded_refuses {nOwner : UInt32} (h : PumpInv nOwner s) (env : CallEnv) {v : PumpVerb} (hv : v.unguarded = false)
    (hn : nThread ≠ nOwner) : ∃ out, callVerb env nThread v s = s.answered nThread v .P2PF_E_PUMP_OWNER out := by
  have hnot : s.OwnsPump nThread = false := by
    cases ho : s.OwnsPump nThread with
    | false => rfl
    | true => exact absurd (h.owns ho) hn
  cases v with
  | pump timeoutMillisecs bWhat => exact ⟨if bWhat then some 0 else none, by simp [callVerb, h.pumped, hnot]⟩
  | close => exact ⟨none, by simp [callVerb, h.pumped, hnot]⟩
  | disconnect peer => cases hv
  | ping peer timeoutMillisecs bOut => cases hv

theorem guarded_of_not_wait {nOwner : UInt32} {v : PumpVerb} {env : CallEnv} (hf : ¬ ForeignWait nOwner s (.call nThread v env))
    (hmay : s.mayCall nThread = true) (hn : nThread ≠ nOwner) : v.unguarded = false := by
  cases hv : v.unguarded with
  | false => rfl
  | true => exact absurd ⟨nThread, v, env, rfl, hmay, hn, hv⟩ hf

theorem affine_step {nOwner : UInt32} (s : PumpedHub) (e : ThreadEv) (h : Affine nOwner s) (hf : ¬ ForeignWait nOwner s e) :
    Affine nOwner (pumpStep inet s e) := by
  have hm := pumpStep_moves inet s e
  revert hm
  generalize pumpStep inet s e = s'
  intro hm
  cases hm with
  | call nThread v env he hmay =>
    by_cases hn : nThread = nOwner
    · subst hn
      exact h.stepped (callVerb_step env nThread v s)
    subst he
    obtain ⟨out, hr⟩ := guarded_refuses h.inv env (guarded_of_not_wait hf hmay hn) hn
    rw [hr]
    exact ⟨⟨h.inv.pumped, h.inv.hubID, h.inv.turns⟩, ⟨h.acts.turns, h.acts.retired⟩, h.foreign⟩
  | within nThread s' hc hs =>
    by_cases hn : nThread = nOwner
    · subst hn
      exact h.stepped hs
    · exact absurd (h.foreign nThread hn) hc
  | outside hub asks hh =>
    exact ⟨⟨hh.trans h.inv.pumped, h.inv.hubID, h.inv.turns⟩, ⟨h.acts.turns, h.acts.retired⟩, h.foreign⟩

/-- Neither Disconnect nor Ping answers P2PF_E_PUMP_OWNER to its caller. -/
theorem unguarded_goes_on (env : CallEnv) {v : PumpVerb} (hv : v.unguarded = true) (nThread : UInt32) (s : PumpedHub)
    (out : Option UInt32) : callVerb env nThread v s ≠ s.answered nThread v .P2PF_E_PUMP_OWNER out := by
  have hother {t : PumpedHub} {hr : HRESULT} {out' : Option UInt32} (hne : hr ≠ .P2PF_E_PUMP_OWNER)
      (ht : t.answers = s.answers) :
      t.answered nThread v hr out' ≠ s.answered nThread v .P2PF_E_PUMP_OWNER out := by
    intro he
    have hans : t.answers ++ [⟨nThread, v, hr, out'⟩] = s.answers ++ [⟨nThread, v, .P2PF_E_PUMP_OWNER, out⟩] :=
      congrArg PumpedHub.answers he
    rw [ht, List.append_cancel_left_eq] at hans
    exact hne (congrArg VerbAnswer.hr (List.cons.inj hans).1)
  have hnone {t : PumpedHub} (ht : t.answers = s.answers) : t ≠ s.answered nThread v .P2PF_E_PUMP_OWNER out := by
    intro he
    have hans : t.answers = s.answers ++ [⟨nThread, v, .P2PF_E_PUMP_OWNER, out⟩] := congrArg PumpedHub.answers he
    rw [ht] at hans
    exact absurd (congrArg List.length hans) (by simp)
  cases v with
  | pump timeoutMillisecs bWhat => cases hv
  | close => cases hv
  | disconnect peer =>
    cases peer with
    | none => exact hother HRESULT.noConfusion rfl
    | some peer =>
      unfold callVerb
      simp only
      split
      · exact hother HRESULT.noConfusion rfl
      split
      · exact hother HRESULT.noConfusion rfl
      split
      · exact hother HRESULT.noConfusion rfl
      split
      · exact hother HRESULT.noConfusion rfl
      · exact hnone rfl
  | ping peer timeoutMillisecs bOut =>
    have hargs : PingArgs peer bOut (!s.hub.bCallerPumped && s.OwnsPump nThread) env.bEvent ≠ .P2PF_E_PUMP_OWNER := by
      unfold PingArgs
      split
      · exact HRESULT.noConfusion
      split
      · exact HRESULT.noConfusion
      split
      · exact HRESULT.noConfusion
      split
      · exact HRESULT.noConfusion
      split
      · exact HRESULT.noConfusion
      · exact HRESULT.noConfusion
    unfold callVerb
    simp only
    split
    · exact hother hargs rfl
    · exact hnone rfl

theorem affine_created (nOwner : UInt32) (nHub now : Nat) {hub : Hub} (hp : hub.bCallerPumped = true) :
    Affine nOwner (.created nOwner nHub now hub) :=
  ⟨⟨hp, Or.inl rfl, fun _ ht => absurd ht List.not_mem_nil⟩,
   ⟨fun _ ht => absurd ht List.not_mem_nil, fun _ hr => absurd hr List.not_mem_nil⟩, fun _ _ => rfl⟩

/-- Whatever is called from where, every turn of the pump is the creator's. -/
theorem turns_by_owner (nOwner : UInt32) (nHub now : Nat) (hub : Hub) (hp : hub.bCallerPumped = true) (es : List ThreadEv) :
    Always (pumpStep inet) (fun s => ∀ nThread ∈ s.turns, nThread = nOwner) (.created nOwner nHub now hub) es :=
  (always_of_inv (pumpInv_step inet) (affine_created nOwner nHub now hp).inv).mono fun _ h => h.turns

/-- In a run on a caller-pumped hub every call from another thread answers P2PF_E_PUMP_OWNER and leaves the hub as it
    was, and every turn and every retirement is the creator's, exactly when no other thread calls Disconnect or Ping. -/
theorem affinity_iff (nOwner : UInt32) (nHub now : Nat) (oAddress : HubAddress) (bSecure : Bool) (oSecKeys : SecKeys)
    (csSecDir : WStr) (temp file : Option (List AllowLine)) (es : List ThreadEv) :
    let s₀ := PumpedHub.created nOwner nHub now (.created oAddress bSecure true oSecKeys csSecDir temp file)
    Each (pumpStep inet) (RefusesForeign inet nOwner) s₀ es ∧ Always (pumpStep inet) (OwnerActs nOwner) s₀ es ↔
      Each (pumpStep inet) (fun s e => ¬ ForeignWait nOwner s e) s₀ es := by
  intro s₀
  have h0 : Affine nOwner s₀ := affine_created nOwner nHub now rfl
  constructor
  · rintro ⟨hrefuses, -⟩
    refine hrefuses.mono fun s e hr => ?_
    rintro ⟨nThread, v, env, rfl, hmay, hn, hv⟩
    obtain ⟨out, ho⟩ := hr nThread v env rfl hmay hn
    rw [pumpStep_call inet env v hmay] at ho
    exact unguarded_goes_on env hv nThread s out ho
  · intro hf
    have hall := always_of_each (affine_step inet) h0 hf
    refine ⟨fun k e hk => ?_, hall.mono fun _ h => h.acts⟩
    intro nThread v env he hmay hn
    subst he
    obtain ⟨out, hr⟩ := guarded_refuses (hall k).inv env (guarded_of_not_wait (hf k _ hk) hmay hn) hn
    exact ⟨out, (pumpStep_call inet env v hmay).trans hr⟩

/-- Another thread drops a peer of the creator's hub: its armed record goes, and its connection is told to destroy itself. -/
theorem foreign_disconnect_retires :
    let inet : InetPton := ⟨fun _ => false, fun _ => none⟩
    let s₀ := PumpedHub.created 1 0 0 (.created hubAddress false true .zero [] none none)
    let es : List ThreadEv :=
      [.arm none ⟨⟨fun _ => true, fun _ => .IdErrIo, fun _ => none, fun _ => none, fun _ => []⟩, ⟨{}, .good, {}⟩,
        true, true⟩ (some (L "hub.p")) (L "tcp://host:9000") false,
       .call 2 (.disconnect (some (L "hub.p"))) {},
       .go 2 ⟨true, {}, false⟩, .go 2 ⟨true, {}, false⟩, .go 2 ⟨true, {}, false⟩]
    ¬ (Each (pumpStep inet) (RefusesForeign inet 1) s₀ es ∧ Always (pumpStep inet) (OwnerActs 1) s₀ es) := by
  intro inet s₀ es
  rintro ⟨-, hacts⟩
  have hretired : (2, L "hub.p") ∈ (exec (pumpStep inet) s₀ es).retired := by decide +kernel
  exact absurd (hacts.last.retired _ hretired) (by decide)

end TargetFacade
