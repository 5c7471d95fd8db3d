/-
  TargetFacade.Hub.Isolation — a hub among others (FacadeHub.cpp: the guards of the sending
  verbs, HandlePrivate, On_AnyTopic, On_P2PeerBCast).

  Every verb of a hub puts messages of its own address on their way (`PublicCall.posts`), and a
  pump takes what has reached it. What a hub is asked by its own calls and its own plumbing
  messages (`HubsEv.asks`) decides its timers and its OnPost callbacks: among other hubs it
  goes as it would alone (`own_exec`), whatever they call, send and broadcast.
-/

import TargetFacade.Hub.Message
import TargetFacade.Hub.TimerLaw

namespace TargetFacade

open OrdMap Runs Bag

/-! ## The verbs that post a message for other hubs -/

/-- The peers a broadcast reads are up to the hub's connections, and the id of a Ping to its counter. -/
inductive PublicCall where
  | send (dest topic : Option WStr) (payload : Option (List UInt8)) (size : UInt32)
  | sendEx (dest topic : Option WStr) (payload : Option (List UInt8)) (size : UInt32) (priority tag flags : UInt32)
  | sendText (dest topic text : Option WStr)
  | sendMsg (dest topic : Option WStr) (msg : Option FacadeMessage) (priority tag flags : UInt32)
  | broadcast (peers : Map WStr Bool) (topic : Option WStr) (payload : Option (List UInt8)) (size : UInt32)
  | broadcastEx (peers : Map WStr Bool) (topic : Option WStr) (payload : Option (List UInt8)) (size : UInt32)
      (priority tag flags : UInt32)
  | broadcastMsg (peers : Map WStr Bool) (topic : Option WStr) (msg : Option FacadeMessage) (priority tag flags : UInt32)
  | ping (peer : WStr) (uPingId : UInt32)

def PublicCall.posts (uWord : Nat) (env : PostEnv) : PublicCall → List PostedMsg
  | .send dest topic payload size => (Send env dest topic payload size).2
  | .sendEx dest topic payload size priority tag flags => (SendEx env dest topic payload size priority tag flags).2
  | .sendText dest topic text => (SendText env dest topic text).2
  | .sendMsg dest topic msg priority tag flags => (SendMsg env dest topic msg priority tag flags).2
  | .broadcast peers topic payload size => (Broadcast uWord env peers topic payload size).2
  | .broadcastEx peers topic payload size priority tag flags =>
    (BroadcastEx uWord env peers topic payload size priority tag flags).2
  | .broadcastMsg peers topic msg priority tag flags => (BroadcastMsg uWord env peers topic msg priority tag flags).2
  | .ping peer uPingId => (PostMsg env peer kTopicPing (some (idBody uPingId)) (idBody uPingId).length none).2

/-- What the call answers, a ping its post's answer. -/
def PublicCall.answer (uWord : Nat) (env : PostEnv) : PublicCall → HRESULT
  | .send dest topic payload size => (Send env dest topic payload size).1
  | .sendEx dest topic payload size priority tag flags => (SendEx env dest topic payload size priority tag flags).1
  | .sendText dest topic text => (SendText env dest topic text).1
  | .sendMsg dest topic msg priority tag flags => (SendMsg env dest topic msg priority tag flags).1
  | .broadcast peers topic payload size => (Broadcast uWord env peers topic payload size).1
  | .broadcastEx peers topic payload size priority tag flags =>
    (BroadcastEx uWord env peers topic payload size priority tag flags).1
  | .broadcastMsg peers topic msg priority tag flags => (BroadcastMsg uWord env peers topic msg priority tag flags).1
  | .ping peer uPingId => (PostMsg env peer kTopicPing (some (idBody uPingId)) (idBody uPingId).length none).1

/-- A name under which nothing is asked that only the hub itself may ask. -/
def Harmless (strName : WStr) : Prop :=
  IsReservedName strName = true ∨ IsPrivateName strName = false ∨ strName = kTopicPing ∨ strName = kTopicPong

theorem harmless_work {m : SentMsg} (csAddress : WStr) (h : Harmless m.oMsg.strName) : ¬ (m.work csAddress).Own := by
  rcases h with h | h | h | h
  · unfold SentMsg.work
    rw [if_pos h]
    exact id
  · rw [public_work csAddress h]
    exact id
  · have hres : IsReservedName m.oMsg.strName = false := by rw [h]; rfl
    have hpriv : IsPrivateName m.oMsg.strName = true := by rw [h]; rfl
    unfold SentMsg.work
    rw [if_neg (by simp [hres]), if_pos hpriv]
    unfold HandlePrivate
    rw [if_pos h]
    split <;> exact id
  · have hres : IsReservedName m.oMsg.strName = false := by rw [h]; rfl
    have hpriv : IsPrivateName m.oMsg.strName = true := by rw [h]; rfl
    unfold SentMsg.work
    rw [if_neg (by simp [hres]), if_pos hpriv]
    unfold HandlePrivate
    rw [if_neg (by rw [h]; decide), if_pos h]
    split <;> exact id

theorem sendGuarded_harmless {env : PostEnv} {dest topic : Option WStr} {payload : Option (List UInt8)} {size : UInt32}
    {pOpts : Option MsgOpts} {o : PostedMsg} (h : o ∈ (SendGuarded env dest topic payload size pOpts).2) :
    Harmless o.strName := by
  unfold SendGuarded at h
  cases dest with
  | none => cases h
  | some dest =>
    cases topic with
    | none => cases h
    | some topic =>
      simp only at h
      split at h
      · cases h
      split at h
      · cases h
      rename_i hguard
      rw [mem_postMsg h]
      simp only [Bool.or_eq_true, not_or, Bool.not_eq_true] at hguard
      exact Or.inr (Or.inl hguard.2)

theorem bcast_name {uWord : Nat} {env : PostEnv} {peers : Map WStr Bool} {topic : Option WStr}
    {payload : Option (List UInt8)} {size : UInt32} {pOpts : Option MsgOpts} {o : PostedMsg}
    (h : o ∈ (BroadcastInternal uWord env peers topic payload size pOpts).2) : o.strName = P2Pmsg_BCast := by
  cases topic with
  | none => cases h
  | some topic =>
    by_cases ha : BroadcastAccepts uWord topic payload size
    · rw [broadcast_posts env peers pOpts ha] at h
      obtain ⟨p, -, rfl⟩ := List.mem_map.mp h
      rfl
    · obtain ⟨hr, -, hb⟩ := broadcast_refused env peers pOpts ha
      rw [hb] at h
      cases h

theorem broadcast_harmless {uWord : Nat} {env : PostEnv} {peers : Map WStr Bool} {topic : Option WStr}
    {payload : Option (List UInt8)} {size : UInt32} {pOpts : Option MsgOpts} {o : PostedMsg}
    (h : o ∈ (BroadcastInternal uWord env peers topic payload size pOpts).2) : Harmless o.strName := by
  rw [bcast_name h]
  exact Or.inl rfl

theorem posts_harmless {uWord : Nat} {env : PostEnv} {c : PublicCall} {o : PostedMsg} (h : o ∈ c.posts uWord env) :
    Harmless o.strName := by
  cases c with
  | send | sendEx => exact sendGuarded_harmless h
  | sendText dest topic text =>
    unfold PublicCall.posts SendText at h
    cases text with
    | none => cases h
    | some text =>
      simp only at h
      split at h
      · cases h
      · exact sendGuarded_harmless h
  | sendMsg dest topic msg priority tag flags =>
    unfold PublicCall.posts SendMsg at h
    simp only at h
    split at h
    · split at h
      · cases h
      split at h
      · cases h
      rename_i hguard
      split at h
      · cases h
      · rw [mem_postMsg h]
        simp only [Bool.or_eq_true, not_or, Bool.not_eq_true] at hguard
        exact Or.inr (Or.inl hguard.2)
    · cases h
  | broadcast | broadcastEx => exact broadcast_harmless h
  | broadcastMsg peers topic msg priority tag flags =>
    unfold PublicCall.posts BroadcastMsg at h
    cases msg with
    | none => cases h
    | some pFm =>
      simp only at h
      split at h
      · cases h
      · exact broadcast_harmless h
  | ping peer uPingId =>
    rw [mem_postMsg h]
    exact Or.inr (Or.inr (Or.inl rfl))

/-! ## Hubs with distinct addresses, and the messages on their way between them -/

structure HubNet where
  hubs : Map WStr PumpHub
  /-- Posted, and not yet in the inbox of the hub it is for. -/
  flight : List SentMsg
  keyed : ∀ a (s : PumpHub), hubs[a]? = some s → s.csAddress = a

inductive HubsEv where
  /-- A call or a step of the pump of the hub at `a`; `env` is for what the pump posts. -/
  | hub (a : WStr) (e : PumpEv) (env : PostEnv)
  | call (a : WStr) (c : PublicCall) (env : PostEnv)
  | deliver (m : SentMsg)
  | lose (m : SentMsg)

variable (toMsecs : Nat → Nat) (uWord : Nat)

variable {toMsecs} in
theorem address_step (s : PumpHub) (e : PumpEv) : (pumpHubStep toMsecs s e).oAddress = s.oAddress := by
  have h : TimerMove toMsecs (fun _ _ => True) s (pumpHubStep toMsecs s e) := pumpHubStep_move s e fun _ _ => trivial
  exact address_move h

/-- What the pump of `s` posts in answer to a ping. -/
def echoes (env : PostEnv) (s : PumpHub) : PumpEv → List PostedMsg
  | .pump m =>
    if s.pump = .idle ∧ m ∈ s.inbox then
      match m.work s.csAddress with
      | .echo strTo aData => (PostMsg env strTo kTopicPong (some aData) aData.length none).2
      | _ => []
    else []
  | _ => []

theorem keyed_insert {hubs : Map WStr PumpHub} {a : WStr} {s : PumpHub} (hs : s.csAddress = a)
    (h : ∀ a (s : PumpHub), hubs[a]? = some s → s.csAddress = a) :
    ∀ b (t : PumpHub), (hubs.insert a s)[b]? = some t → t.csAddress = b := by
  intro b t ht
  rcases get_of_insert ht with ⟨he, rfl⟩ | ⟨-, ht⟩
  · rw [hs, he]
  · exact h b t ht

def hubsStep (n : HubNet) : HubsEv → HubNet
  | .hub a e env =>
    match h : n.hubs[a]? with
    | none => n
    | some s =>
      { hubs := n.hubs.insert a (pumpHubStep toMsecs s e)
        flight := n.flight ++ (echoes env s e).map (⟨a, ·⟩)
        keyed := keyed_insert (by rw [PumpHub.csAddress, address_step]; exact n.keyed a s h) n.keyed }
  | .call a c env => if a ∈ n.hubs then { n with flight := n.flight ++ (c.posts uWord env).map (⟨a, ·⟩) } else n
  | .deliver m =>
    if m ∈ n.flight then
      match h : n.hubs[m.oMsg.strDest]? with
      | none => { n with flight := n.flight.erase m }
      | some s =>
        { hubs := n.hubs.insert m.oMsg.strDest { s with inbox := s.inbox ++ [m] }
          flight := n.flight.erase m
          keyed := keyed_insert (n.keyed _ s h) n.keyed }
    else n
  | .lose m => { n with flight := n.flight.erase m }

/-- What an event asks of the hub at `a` that only that hub can ask: its calls, and its pump's work
    on its own plumbing. -/
def HubsEv.asks (a : WStr) : HubsEv → Option PumpEv
  | .hub b e _ =>
    if b = a then
      match e with
      | .arrive _ => none
      | .pump m => if (m.work a).Own then some (.pump m) else none
      | e => some e
    else none
  | _ => none

def PumpHub.withInbox (s : PumpHub) (l : List SentMsg) : PumpHub := { s with inbox := l }

/-- A hub with its own plumbing only in its inbox. -/
def PumpHub.own (s : PumpHub) : PumpHub := s.withInbox (s.inbox.filter fun m => decide (m.work s.oAddress.1).Own)

def HubNet.own (a : WStr) (n : HubNet) : Option PumpHub := n.hubs[a]?.map PumpHub.own

/-! ## What is asked of a hub moves it as it would alone -/

variable {toMsecs uWord}

theorem turn_inbox (nTimerID : Nat) (s : PumpHub) (l : List SentMsg) :
    turnStep toMsecs nTimerID (s.withInbox l) = (turnStep toMsecs nTimerID s).withInbox l := by
  obtain ⟨oAddress, now, bExt, next, timers, calls, inbox, kernel, pump, set, posted, notes⟩ := s
  unfold turnStep PumpHub.withInbox
  cases pump with
  | recording id k =>
    simp only [RecordArm]
    split <;> split <;> rfl
  | elapsed id key =>
    simp only
    split <;> rfl
  | arming id D b =>
    simp only
    split <;> rfl
  | _ => rfl

theorem callback_inbox (bCancel : Bool) (t : KernelTimer) (s : PumpHub) (l : List SentMsg) :
    On_PITimer bCancel t (s.withInbox l) = (On_PITimer bCancel t s).withInbox l := by
  unfold On_PITimer PumpHub.withInbox
  simp only
  split
  · rfl
  split
  · rfl
  split <;> rfl

theorem work_inbox (s : PumpHub) (w : PrivWork) (l : List SentMsg) :
    workStep (s.withInbox l) w = (workStep s w).withInbox l := by
  unfold workStep PumpHub.withInbox
  cases w with
  | timer id =>
    simp only
    split <;> rfl
  | kill id =>
    simp only [PumpHub.note]
    split <;> rfl
  | post key context =>
    simp only
    split <;> rfl
  | _ => rfl

/-- A part of the hub's work that does not touch the inbox. -/
theorem own_of_inbox {f : PumpHub → PumpHub} {s : PumpHub} (hin : ∀ l, f (s.withInbox l) = (f s).withInbox l)
    (haddr : (f s).oAddress = s.oAddress) : (f s).own = f s.own := by
  have hself : f s = (f s).withInbox s.inbox := hin s.inbox
  have hsame : (f s).inbox = s.inbox := (congrArg PumpHub.inbox hself).trans rfl
  unfold PumpHub.own
  rw [hin, hsame, haddr]

theorem turn_address (nTimerID : Nat) (s : PumpHub) : (turnStep toMsecs nTimerID s).oAddress = s.oAddress := by
  have h : TimerMove toMsecs (fun _ _ => True) s (turnStep toMsecs nTimerID s) := turnStep_move nTimerID s
  exact address_move h

theorem work_address (s : PumpHub) (w : PrivWork) : (workStep s w).oAddress = s.oAddress := by
  unfold workStep
  cases w with
  | timer id =>
    simp only
    split <;> rfl
  | kill id =>
    simp only [PumpHub.note]
    split <;> rfl
  | post key context =>
    simp only
    split <;> rfl
  | _ => rfl

theorem callback_address (bCancel : Bool) (t : KernelTimer) (s : PumpHub) :
    (On_PITimer bCancel t s).oAddress = s.oAddress := by
  unfold On_PITimer
  simp only
  split
  · rfl
  split
  · rfl
  split <;> rfl

theorem postSelf_own (env : PostEnv) (s : PumpHub) {m : SentMsg} (hsrc : m.strSource = s.csAddress)
    (hdest : m.oMsg.strDest = s.csAddress) (hopts : m.oMsg.pOpts = none) (hw : (m.work s.csAddress).Own) :
    s.own.postSelf env m = ((s.postSelf env m).1, (s.postSelf env m).2.own) := by
  obtain ⟨src, dest, name, aData, opts⟩ := m
  simp only at hsrc hdest hopts
  subst hsrc hdest hopts
  have hself : ∀ x ∈ (PostMsg env s.csAddress name (some aData) aData.length none).2.map (⟨s.csAddress, ·⟩ : PostedMsg → SentMsg),
      decide (x.work s.oAddress.1).Own = true := by
    intro x hx
    obtain ⟨o, ho, rfl⟩ := List.mem_map.mp hx
    have heq := mem_postMsg ho
    simp only [Option.getD_some, List.take_length] at heq
    rw [heq]
    exact decide_eq_true hw
  unfold PumpHub.postSelf
  refine Prod.ext rfl ?_
  simp only [PumpHub.own, PumpHub.withInbox, List.filter_append, List.filter_eq_self.mpr hself]

/-- SetTimer from the answer of its post on. -/
def timerPosted (uId : UInt32) (r : HRESULT × PumpHub) : PumpHub :=
  if FAILED r.1 then { r.2 with calls := r.2.calls ++ [.refused uId r.1] } else r.2.note (.setTimer S_OK uId)

theorem timerPosted_own (uId : UInt32) (r : HRESULT × PumpHub) :
    (timerPosted uId r).own = timerPosted uId (r.1, r.2.own) := by
  unfold timerPosted
  simp only
  split <;> rfl

theorem client_own (env : PostEnv) (s : PumpHub) (c : ClientCall) :
    (clientStep env s c).own = clientStep env s.own c := by
  cases c with
  | entered | refused => rfl
  | posting uId =>
    let s₁ : PumpHub := { s with calls := s.calls.erase (.posting uId) }
    have hpost := postSelf_own env s₁ (m := msgTimer s.csAddress uId) rfl rfl rfl (by rw [work_timer]; trivial)
    calc (clientStep env s (.posting uId)).own = (timerPosted uId (s₁.postSelf env (msgTimer s.csAddress uId))).own := rfl
      _ = timerPosted uId (s₁.own.postSelf env (msgTimer s.csAddress uId)) := by rw [timerPosted_own, hpost]
      _ = clientStep env s.own (.posting uId) := rfl
  | killing timerId =>
    let s₁ : PumpHub := { s with calls := s.calls.erase (.killing timerId) }
    have hpost := postSelf_own env s₁ (m := msgKill s.csAddress timerId) rfl rfl rfl (by rw [work_kill]; trivial)
    let answered (r : HRESULT × PumpHub) : PumpHub := r.2.note (.killTimer r.1 timerId)
    calc (clientStep env s (.killing timerId)).own = (answered (s₁.postSelf env (msgKill s.csAddress timerId))).own := rfl
      _ = answered (s₁.own.postSelf env (msgKill s.csAddress timerId)) := by rw [hpost]; rfl
      _ = clientStep env s.own (.killing timerId) := rfl

/-- What the pump takes that is not the hub's own plumbing leaves all else as it is. -/
theorem foreign_own {s : PumpHub} {m : SentMsg} (hw : ¬ (m.work s.csAddress).Own) :
    (pumpHubStep toMsecs s (.pump m)).own = s.own := by
  have hfilter : (s.inbox.erase m).filter (fun m => decide (m.work s.oAddress.1).Own) =
      s.inbox.filter fun m => decide (m.work s.oAddress.1).Own := by
    rw [← List.erase_filter, List.erase_of_not_mem]
    intro hm
    exact hw (of_decide_eq_true (List.mem_filter.mp hm).2)
  have hquiet : ({ s with inbox := s.inbox.erase m } : PumpHub).own = s.own := by
    unfold PumpHub.own PumpHub.withInbox
    simp only [hfilter]
  unfold pumpHubStep
  simp only
  split
  · cases h : m.work s.csAddress with
    | timer | kill | post => exact absurd (by rw [h]; trivial) hw
    | echo | pong | nothing => exact hquiet
  · rfl

theorem receive_own {s : PumpHub} {m : SentMsg} (hw : ¬ (m.work s.csAddress).Own) :
    ({ s with inbox := s.inbox ++ [m] } : PumpHub).own = s.own := by
  have hone : [m].filter (fun m => decide (m.work s.oAddress.1).Own) = [] :=
    List.filter_eq_nil_iff.mpr fun x hx => by rw [List.mem_singleton.mp hx, decide_eq_false hw]; exact Bool.false_ne_true
  unfold PumpHub.own PumpHub.withInbox
  simp only [List.filter_append, hone, List.append_nil]

theorem arrive_own (s : PumpHub) (m : SentMsg) : (pumpHubStep toMsecs s (.arrive m)).own = s.own := by
  unfold pumpHubStep
  simp only
  split
  · rfl
  · rename_i hsrc
    have hw : ¬ (m.work s.csAddress).Own := fun h => hsrc (own_work h).1
    exact receive_own hw

theorem own_step {s : PumpHub} {e : PumpEv} (h1 : ∀ m, e ≠ .arrive m) (h2 : ∀ m, e = .pump m → (m.work s.csAddress).Own) :
    (pumpHubStep toMsecs s e).own = pumpHubStep toMsecs s.own e := by
  cases e with
  | tick | setExtEvents => rfl
  | setTimer bOut delay key =>
    unfold pumpHubStep
    simp only
    split
    · rfl
    show PumpHub.own (if (!s.bExt) = true then _ else _) = if (!s.bExt) = true then _ else _
    split <;> rfl
  | killTimer timerId =>
    have hsame : s.own.timers[timerId]? = s.timers[timerId]? := rfl
    unfold pumpHubStep
    simp only [hsame]
    cases s.timers[timerId]? <;> rfl
  | post env key context =>
    have hpost := postSelf_own env s (m := msgPost s.csAddress key context) rfl rfl rfl (by rw [work_post]; trivial)
    let answered (r : HRESULT × PumpHub) : PumpHub := PumpHub.note
      { r.2 with posted := if FAILED r.1 then r.2.posted else r.2.posted ++ [(key, context)] } (.post r.1)
    show PumpHub.own (if (!s.bExt) = true then _ else answered (s.postSelf env (msgPost s.csAddress key context))) =
      if (!s.bExt) = true then _ else answered (s.own.postSelf env (msgPost s.csAddress key context))
    rw [hpost]
    split <;> rfl
  | client c env =>
    unfold pumpHubStep
    show PumpHub.own (if c ∈ s.calls then _ else _) = if c ∈ s.calls then _ else _
    split
    · exact client_own env s c
    · rfl
  | arrive m => exact absurd rfl (h1 m)
  | pump m =>
    have hw := h2 m rfl
    have hmem : m ∈ s.own.inbox ↔ m ∈ s.inbox := by
      have hfilter : m ∈ s.own.inbox ↔ m ∈ s.inbox ∧ decide (m.work s.oAddress.1).Own = true := List.mem_filter
      exact hfilter.trans (and_iff_left (decide_eq_true hw))
    have herase : s.own.withInbox (s.own.inbox.erase m) = (s.withInbox (s.inbox.erase m)).own := by
      unfold PumpHub.own PumpHub.withInbox
      simp only [List.erase_filter]
    by_cases h : s.pump = .idle ∧ m ∈ s.inbox
    · have hown : s.own.pump = .idle ∧ m ∈ s.own.inbox := ⟨h.1, hmem.mpr h.2⟩
      have hstep : pumpHubStep toMsecs s (.pump m) = workStep (s.withInbox (s.inbox.erase m)) (m.work s.csAddress) := if_pos h
      have hstep' : pumpHubStep toMsecs s.own (.pump m) =
          workStep (s.own.withInbox (s.own.inbox.erase m)) (m.work s.csAddress) := if_pos hown
      rw [hstep, hstep', herase]
      exact own_of_inbox (f := fun t => workStep t (m.work s.csAddress)) (fun l => work_inbox _ _ l) (work_address _ _)
    · have hown : ¬ (s.own.pump = .idle ∧ m ∈ s.own.inbox) := fun h' => h ⟨h'.1, hmem.mp h'.2⟩
      have hstep : pumpHubStep toMsecs s (.pump m) = s := if_neg h
      have hstep' : pumpHubStep toMsecs s.own (.pump m) = s.own := if_neg hown
      rw [hstep, hstep']
  | turn nTimerID =>
    exact own_of_inbox (turn_inbox nTimerID s) (turn_address nTimerID s)
  | callback bCancel t =>
    show PumpHub.own (if s.pump = .idle ∧ t ∈ s.kernel ∧ (bCancel || !t.bKilled) = true then _ else _) =
      if s.pump = .idle ∧ t ∈ s.kernel ∧ (bCancel || !t.bKilled) = true then _ else _
    split
    · exact own_of_inbox (callback_inbox bCancel t s) (callback_address bCancel t s)
    · rfl

/-! ## Every run -/

theorem asks_some {a : WStr} {e : HubsEv} {d : PumpEv} (h : e.asks a = some d) :
    ∃ env, e = .hub a d env ∧ (∀ m, d ≠ .arrive m) ∧ ∀ m, d = .pump m → (m.work a).Own := by
  cases e with
  | hub b e env =>
    unfold HubsEv.asks at h
    simp only at h
    split at h
    case isFalse => cases h
    rename_i hb
    subst hb
    cases e with
    | arrive m => cases h
    | pump m =>
      simp only at h
      split at h
      · obtain rfl := Option.some.inj h
        exact ⟨env, rfl, fun _ => PumpEv.noConfusion, fun m' he => by rw [← PumpEv.pump.inj he]; assumption⟩
      · cases h
    | _ =>
      obtain rfl := Option.some.inj h
      exact ⟨env, rfl, fun _ => PumpEv.noConfusion, fun _ => PumpEv.noConfusion⟩
  | call | deliver | lose => cases h

theorem asks_none {a : WStr} {e : PumpEv} {env : PostEnv} (h : (HubsEv.hub a e env).asks a = none) :
    (∃ m, e = .arrive m) ∨ ∃ m, e = .pump m ∧ ¬ (m.work a).Own := by
  unfold HubsEv.asks at h
  simp only [if_true] at h
  cases e with
  | arrive m => exact Or.inl ⟨m, rfl⟩
  | pump m =>
    simp only at h
    split at h
    · cases h
    · exact Or.inr ⟨m, rfl, ‹_›⟩
  | _ => cases h

/-- On their way are messages only that ask nothing of a hub's own. -/
def HubNet.Fair (n : HubNet) : Prop := ∀ m ∈ n.flight, Harmless m.oMsg.strName

theorem fair_put {n : HubNet} {l : List PostedMsg} (a : WStr) (hn : n.Fair) (hl : ∀ o ∈ l, Harmless o.strName) :
    ∀ m ∈ n.flight ++ l.map (⟨a, ·⟩ : PostedMsg → SentMsg), Harmless m.oMsg.strName := by
  intro m hm
  rcases List.mem_append.mp hm with hm | hm
  · exact hn m hm
  · obtain ⟨o, ho, rfl⟩ := List.mem_map.mp hm
    exact hl o ho

theorem echoes_harmless {env : PostEnv} {s : PumpHub} {e : PumpEv} {o : PostedMsg} (h : o ∈ echoes env s e) :
    Harmless o.strName := by
  unfold echoes at h
  split at h
  · split at h
    · split at h
      · rw [mem_postMsg h]
        exact Or.inr (Or.inr (Or.inr rfl))
      · cases h
    · cases h
  · cases h

theorem fair_step {n : HubNet} (e : HubsEv) (hn : n.Fair) : (hubsStep toMsecs uWord n e).Fair := by
  have herase {m : SentMsg} : ∀ x ∈ n.flight.erase m, Harmless x.oMsg.strName := fun x hx => hn x (List.mem_of_mem_erase hx)
  unfold hubsStep
  cases e with
  | hub a e env =>
    simp only
    split
    · exact hn
    · exact fair_put a hn fun o ho => echoes_harmless ho
  | call a c env =>
    simp only
    split
    · exact fair_put a hn fun o ho => posts_harmless ho
    · exact hn
  | deliver m =>
    simp only
    split
    · split
      · exact herase
      · exact herase
    · exact hn
  | lose m => exact herase

theorem hubs_hub (n : HubNet) (a b : WStr) (e : PumpEv) (env : PostEnv) :
    (hubsStep toMsecs uWord n (.hub b e env)).hubs[a]? =
      if b = a then n.hubs[a]?.map (pumpHubStep toMsecs · e) else n.hubs[a]? := by
  unfold hubsStep
  simp only
  split
  · rename_i hnone
    split
    · rename_i he
      rw [← he, hnone]
      rfl
    · rfl
  · rename_i s hs
    rw [get_insert]
    split
    · rename_i he
      rw [← he, hs]
      rfl
    · rfl

theorem hubs_deliver (n : HubNet) (a : WStr) {m : SentMsg} (hm : m ∈ n.flight) :
    (hubsStep toMsecs uWord n (.deliver m)).hubs[a]? =
      if m.oMsg.strDest = a then n.hubs[a]?.map (fun s => { s with inbox := s.inbox ++ [m] }) else n.hubs[a]? := by
  unfold hubsStep
  simp only [hm, if_true]
  split
  · rename_i hnone
    split
    · rename_i he
      rw [← he, hnone]
      rfl
    · rfl
  · rename_i s hs
    rw [get_insert]
    split
    · rename_i he
      rw [← he, hs]
      rfl
    · rfl

/-- Changes of the hub at `a` that its own part does not show. -/
theorem map_own {n : HubNet} {a : WStr} {f : PumpHub → PumpHub}
    (h : ∀ s, n.hubs[a]? = some s → s.csAddress = a → (f s).own = s.own) :
    (n.hubs[a]?.map f).map PumpHub.own = n.hubs[a]?.map PumpHub.own := by
  cases hs : n.hubs[a]? with
  | none => rfl
  | some s => exact congrArg some (h s hs (n.keyed a s hs))

theorem own_none {n : HubNet} {a : WStr} {e : HubsEv} (hn : n.Fair) (h : e.asks a = none) :
    (hubsStep toMsecs uWord n e).own a = n.own a := by
  unfold HubNet.own
  cases e with
  | hub b e env =>
    rw [hubs_hub]
    split
    · rename_i hb
      subst hb
      refine map_own fun s _ haddr => ?_
      rcases asks_none h with ⟨m, rfl⟩ | ⟨m, rfl, hw⟩
      · exact arrive_own s m
      · exact foreign_own (haddr.symm ▸ hw)
    · rfl
  | call b c env =>
    unfold hubsStep
    simp only
    split <;> rfl
  | deliver m =>
    by_cases hm : m ∈ n.flight
    · rw [hubs_deliver n a hm]
      split
      · exact map_own fun s _ _ => receive_own (harmless_work _ (hn m hm))
      · rfl
    · have hsame : hubsStep toMsecs uWord n (.deliver m) = n := if_neg hm
      rw [hsame]
  | lose m => rfl

theorem own_some {n : HubNet} {a : WStr} {e : HubsEv} {d : PumpEv} (h : e.asks a = some d) :
    (hubsStep toMsecs uWord n e).own a = (n.own a).map (pumpHubStep toMsecs · d) := by
  obtain ⟨env, rfl, h1, h2⟩ := asks_some h
  unfold HubNet.own
  rw [hubs_hub, if_pos rfl]
  cases hs : n.hubs[a]? with
  | none => rfl
  | some s =>
    have haddr := n.keyed a s hs
    exact congrArg some (own_step h1 fun m he => haddr.symm ▸ h2 m he)

/-- Among other hubs a hub goes as it would alone, over what was asked of it. -/
theorem own_exec {n : HubNet} (hn : n.Fair) (a : WStr) (es : List HubsEv) :
    (exec (hubsStep toMsecs uWord) n es).own a =
      exec (fun o d => o.map (pumpHubStep toMsecs · d)) (n.own a) (es.filterMap (HubsEv.asks a)) :=
  exec_view (I := HubNet.Fair) (HubNet.own a) (HubsEv.asks a) (fun _ e h => fair_step e h) (fun _ _ h ha => own_none h ha)
    (fun _ _ _ _ ha => own_some ha) es hn

/-! ## What OnPost and OnTimer are called with -/

def Note.onPost? : Note → Option (UInt32 × UInt64)
  | .onPost key context => some (key, context)
  | _ => none

def Note.onTimer? : Note → Option (UInt32 × UInt32)
  | .onTimer timerId key _ => some (timerId, key)
  | _ => none

/-- The timers of a hub and the callbacks it has made, in order. -/
structure Seen where
  timers : Map UInt32 TimerRow
  onPosts : List (UInt32 × UInt64)
  onTimers : List (UInt32 × UInt32)

def PumpHub.seen (s : PumpHub) : Seen := ⟨s.timers, s.notes.filterMap Note.onPost?, s.notes.filterMap Note.onTimer?⟩

def HubNet.seen (a : WStr) (n : HubNet) : Option Seen := n.hubs[a]?.map PumpHub.seen

theorem seen_own (a : WStr) (n : HubNet) : n.seen a = (n.own a).map PumpHub.seen := by
  unfold HubNet.seen HubNet.own
  rw [Option.map_map]
  rfl

def Note.posts (p : UInt32 × UInt64) : Note → Bool
  | .onPost key context => (key, context) == p
  | _ => false

def SentMsg.posts (oAddress : HubAddress) (p : UInt32 × UInt64) (m : SentMsg) : Bool :=
  decide (m.work oAddress.1 = .post p.1 p.2)

/-- A Post call's message waits or has been delivered, and not more often than the call was made. -/
def PumpHub.Posted (s : PumpHub) : Prop :=
  ∀ p, s.inbox.countP (SentMsg.posts s.oAddress p) + s.notes.countP (Note.posts p) ≤ s.posted.count p

theorem posts_of_ne {oAddress : HubAddress} {m : SentMsg} {p : UInt32 × UInt64}
    (h : m.work oAddress.1 ≠ .post p.1 p.2) : m.posts oAddress p = false := decide_eq_false h

theorem posts_msgTimer (oAddress : HubAddress) (uId : UInt32) (p : UInt32 × UInt64) :
    (msgTimer oAddress.1 uId).posts oAddress p = false := posts_of_ne (by rw [work_timer]; exact PrivWork.noConfusion)

theorem posts_msgKill (oAddress : HubAddress) (uId : UInt32) (p : UInt32 × UInt64) :
    (msgKill oAddress.1 uId).posts oAddress p = false := posts_of_ne (by rw [work_kill]; exact PrivWork.noConfusion)

theorem posts_msgPost (oAddress : HubAddress) (key : UInt32) (context : UInt64) (p : UInt32 × UInt64) :
    (msgPost oAddress.1 key context).posts oAddress p = ((key, context) == p) := by
  unfold SentMsg.posts
  rw [work_post, Bool.eq_iff_iff]
  simp [Prod.ext_iff]

theorem Note.Plain.posts {n : Note} (h : n.Plain) (p : UInt32 × UInt64) : n.posts p = false := by
  cases n <;> first | rfl | cases h

theorem posted_move {polls : PumpHub → KernelTimer → Prop} {s s' : PumpHub} (h : TimerMove toMsecs polls s s')
    (hs : s.Posted) : s'.Posted := by
  intro p
  have hp := hs p
  cases h with
  | answer hn =>
    simp only [PumpHub.note, countP_put, hn.posts, ifOne_false]
    exact hp
  | sent | sentKill =>
    simp only [countP_put, posts_msgTimer, posts_msgKill, Note.posts, ifOne_false]
    exact hp
  | forget | refuseKill | rearm | fire =>
    simp only [countP_put, Note.posts, ifOne_false]
    exact hp
  | @sentPost key context hr hf =>
    have hcount : (s.posted ++ [(key, context)]).count p = s.posted.count p + ifOne ((key, context) == p) := by
      rw [List.count, countP_put]
    simp only [countP_put, posts_msgPost, Note.posts, ifOne_false, hcount]
    omega
  | arrive hsrc =>
    have hno := posts_of_ne (p := p) fun hw => hsrc (own_work (by rw [hw]; trivial)).1
    simp only [countP_put, hno, ifOne_false]
    exact hp
  | take hm | arm _ hm =>
    have htake := countP_take (SentMsg.posts s.oAddress p) hm
    simp only
    omega
  | killGone _ hm | kill _ hm =>
    have htake := countP_take (SentMsg.posts s.oAddress p) hm
    simp only [countP_put, Note.posts, ifOne_false]
    omega
  | @deliver m key context hm hw =>
    have htake := countP_take (SentMsg.posts s.oAddress p) hm
    have hpost : m.posts s.oAddress p = ((key, context) == p) := by
      unfold SentMsg.posts
      rw [hw, Bool.eq_iff_iff]
      simp [Prod.ext_iff]
    simp only [countP_put, Note.posts]
    rw [hpost] at htake
    omega
  | _ => exact hp

theorem count_onPosts (l : List Note) (p : UInt32 × UInt64) :
    (l.filterMap Note.onPost?).count p = l.countP (Note.posts p) := by
  induction l with
  | nil => rfl
  | cons n l ih =>
    cases n with
    | onPost key context =>
      have hcons : (Note.onPost key context :: l).filterMap Note.onPost? = (key, context) :: l.filterMap Note.onPost? := rfl
      rw [hcons, List.count_cons, List.countP_cons, ih]
      rfl
    | _ => exact ih

/-- OnPost is not called with what no Post call of the hub has asked for, nor more often. -/
theorem onPosts_posted (toMsecs : Nat → Nat) (oAddress : HubAddress) (now : Nat) (es : List PumpEv) (p : UInt32 × UInt64) :
    (exec (pumpHubStep toMsecs) (PumpHub.created oAddress now) es).seen.onPosts.count p ≤
      (exec (pumpHubStep toMsecs) (PumpHub.created oAddress now) es).posted.count p := by
  have hcreated : (PumpHub.created oAddress now).Posted := fun _ => Nat.le_refl 0
  have hinv : (exec (pumpHubStep toMsecs) (PumpHub.created oAddress now) es).Posted :=
    (always_of_inv (fun s e h => posted_move
      (pumpHubStep_move s e fun _ _ => trivial : TimerMove toMsecs (fun _ _ => True) s _) h) hcreated).last
  have hp := hinv p
  rw [PumpHub.seen, count_onPosts]
  omega

/-- Two runs that ask the same of a hub leave it the same timers and have made the same callbacks, whatever the
    other hubs call in them; and a hub that was fresh has made no callback and has no row that it was not asked for. -/
theorem isolation (toMsecs : Nat → Nat) (uWord : Nat) (n : HubNet) (hn : n.flight = []) (a : WStr) :
    (∀ es es' : List HubsEv, es.filterMap (HubsEv.asks a) = es'.filterMap (HubsEv.asks a) →
      (exec (hubsStep toMsecs uWord) n es).seen a = (exec (hubsStep toMsecs uWord) n es').seen a) ∧
    ∀ (oAddress : HubAddress) (now : Nat), n.hubs[a]? = some (PumpHub.created oAddress now) → ∀ es : List HubsEv,
      ∃ s, (exec (hubsStep toMsecs uWord) n es).hubs[a]? = some s ∧
        (∀ id row, s.timers[id]? = some row → s.GivenKey id row.uKey) ∧
        (∀ id key, (id, key) ∈ s.seen.onTimers → s.GivenKey id key) ∧
        ∀ p, s.seen.onPosts.count p ≤ s.posted.count p := by
  have hfair : n.Fair := by
    intro m hm
    rw [hn] at hm
    cases hm
  constructor
  · intro es es' h
    rw [seen_own, seen_own, own_exec hfair, own_exec hfair, h]
  · intro oAddress now hfresh es
    have hown : (exec (hubsStep toMsecs uWord) n es).own a = _ := own_exec hfair a es
    have hstart : n.own a = some (PumpHub.created oAddress now) := by
      unfold HubNet.own
      rw [hfresh]
      rfl
    rw [hstart, exec_some] at hown
    cases hs : (exec (hubsStep toMsecs uWord) n es).hubs[a]? with
    | none =>
      rw [HubNet.own, hs] at hown
      cases hown
    | some s =>
      rw [HubNet.own, hs] at hown
      have heq : s.own = exec (pumpHubStep toMsecs) (PumpHub.created oAddress now) (es.filterMap (HubsEv.asks a)) :=
        Option.some.inj hown
      have hk : Known s.own := heq ▸ (timerInv_run toMsecs oAddress now _).known
      refine ⟨s, rfl, hk.row, fun id key hm => ?_, fun p => ?_⟩
      · obtain ⟨m, hmem, hnote⟩ := List.mem_filterMap.mp hm
        cases m with
        | onTimer timerId key' uAt =>
          obtain ⟨rfl, rfl⟩ := Prod.mk.inj (Option.some.inj hnote)
          exact hk.fired _ _ uAt hmem
        | _ => cases hnote
      · have hp := onPosts_posted toMsecs oAddress now (es.filterMap (HubsEv.asks a)) p
        rw [← heq] at hp
        exact hp

def otherAddress : HubAddress := ⟨L "other", by decide⟩

def twoHubs : HubNet where
  hubs := ((∅ : Map WStr PumpHub).insert hubAddress.1 (PumpHub.created hubAddress 0)).insert otherAddress.1
    (PumpHub.created otherAddress 0)
  flight := []
  keyed := keyed_insert rfl (keyed_insert rfl fun a s h => by
    rw [Std.ExtTreeMap.getElem?_empty] at h
    cases h)

/-- A Post on one hub, while the other sends it a message and pings it. -/
def loudRun : List HubsEv :=
  let news : SentMsg := ⟨otherAddress.1, hubAddress.1, L "news", [], none⟩
  let ping : SentMsg := msgPing otherAddress.1 hubAddress.1 1
  [.hub hubAddress.1 (.setExtEvents true) {}, .call otherAddress.1 (.send (some hubAddress.1) (some (L "news")) none 0) {},
    .hub hubAddress.1 (.post {} 7 9) {}, .deliver news, .hub hubAddress.1 (.pump news) {},
    .call otherAddress.1 (.ping hubAddress.1 1) {}, .deliver ping, .hub hubAddress.1 (.pump ping) {},
    .hub hubAddress.1 (.pump (msgPost hubAddress.1 7 9)) {}]

def quietRun : List HubsEv :=
  [.hub hubAddress.1 (.setExtEvents true) {}, .hub hubAddress.1 (.post {} 7 9) {},
    .hub hubAddress.1 (.pump (msgPost hubAddress.1 7 9)) {}]

theorem isolation_loud :
    (exec (hubsStep id 64) twoHubs loudRun).seen hubAddress.1 = (exec (hubsStep id 64) twoHubs quietRun).seen hubAddress.1 ∧
    ((exec (hubsStep id 64) twoHubs loudRun).seen hubAddress.1).map (·.onPosts) = some [(7, 9)] := by
  have hasks : loudRun.filterMap (HubsEv.asks hubAddress.1) = quietRun.filterMap (HubsEv.asks hubAddress.1) := rfl
  exact ⟨(isolation id 64 twoHubs rfl hubAddress.1).1 loudRun quietRun hasks, by decide +kernel⟩

end TargetFacade
