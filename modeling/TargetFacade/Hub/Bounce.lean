/-
  TargetFacade.Hub.Bounce — what a sender is told of the messages that nobody took (FacadeHub.cpp:
  Deliver, On_AnyTopic, On_P2PeerBCast, ReportDeclined, ReportBounce).

  - `bounces_accounted`: over any run, every failure of a message (its client declined it and it
    bears no P2PF_SEND_NO_BOUNCE, or it was not routable) is reported to its sender once, unless
    the exception that says so is on its way still or was dropped; an exception that comes back to
    the sender raises the event that names the message's destination and the reason, if the sender
    has a sink; nothing else is reported.
  - `answers_change_reports_only`: what the handlers answer changes no message that any client is
    given, and nothing of what is posted and relayed.
-/

import TargetFacade.Hub.Routing

namespace TargetFacade

open OrdMap Runs Ledger KeyLog Bag

/-! ## Declines -/

/-- A message for the client: a topic of its own, or a broadcast. -/
def SentMsg.ForClient (m : SentMsg) : Prop :=
  m.oMsg.strName = P2Pmsg_BCast ∨ IsReservedName m.oMsg.strName = false ∧ IsPrivateName m.oMsg.strName = false

theorem deliver_declined {s : Sinks} {answer : Option HRESULT} {h : Handed} :
    (Deliver s answer h).1 = S_FALSE ↔ s.bExtEvents = true ∧ answer = some S_FALSE := by
  unfold Deliver
  by_cases hext : s.bExtEvents = true
  · rw [if_pos hext]
    cases answer with
    | none => exact iff_of_false HRESULT.noConfusion fun h => by cases h.2
    | some hr => simp [hext]
  · rw [if_neg hext]
    refine iff_of_false ?_ fun h => hext h.1
    split <;> exact HRESULT.noConfusion

/-- Which callback is made does not depend on how it ends. -/
theorem deliver_handed (s : Sinks) (answer answer' : Option HRESULT) (h : Handed) :
    (Deliver s answer h).2 = (Deliver s answer' h).2 := by
  unfold Deliver
  split
  · rfl
  · split <;> rfl

/-- A name that is reserved goes past the facade's entry. -/
theorem anyTopic_reserved {m : SentMsg} (h : IsReservedName m.oMsg.strName = true) (s : Sinks) (answer : Option HRESULT)
    (env : PostEnv) (a : WStr) : On_AnyTopic s answer env a m = (.msgCONTINUE, {}) := by
  unfold On_AnyTopic
  rw [if_pos h]

theorem routeMsg_bcast {m : SentMsg} (h : m.oMsg.strName = P2Pmsg_BCast) (s : Sinks) (answer : Option HRESULT) (env : PostEnv)
    (children : List WStr) (a : WStr) : routeMsg s answer env children a m = bcastRelay s answer children m := by
  unfold routeMsg
  rw [anyTopic_reserved (by rw [h]; rfl)]
  simp only
  rw [if_pos h]

theorem routeMsg_reserved {m : SentMsg} (h : IsReservedName m.oMsg.strName = true) (hne : m.oMsg.strName ≠ P2Pmsg_BCast)
    (s : Sinks) (answer : Option HRESULT) (env : PostEnv) (children : List WStr) (a : WStr) :
    routeMsg s answer env children a m = {} := by
  unfold routeMsg
  rw [anyTopic_reserved h]
  simp only
  rw [if_neg hne, if_pos h]

theorem routeMsg_private {m : SentMsg} (hres : IsReservedName m.oMsg.strName = false) (hpriv : IsPrivateName m.oMsg.strName = true)
    (s : Sinks) (answer : Option HRESULT) (env : PostEnv) (children : List WStr) (a : WStr) :
    routeMsg s answer env children a m = { posts := (pongPosts env a m).map (⟨a, ·⟩) } := by
  unfold routeMsg On_AnyTopic
  rw [if_neg (by simp [hres]), if_pos hpriv]

theorem pongPosts_name {env : PostEnv} {a : WStr} {m : SentMsg} {o : PostedMsg} (h : o ∈ pongPosts env a m) :
    o.strName = kTopicPong := by
  unfold pongPosts at h
  split at h
  · rw [mem_postMsg h]
  · cases h

theorem routeMsg_topic {m : SentMsg} (hres : IsReservedName m.oMsg.strName = false) (hpriv : IsPrivateName m.oMsg.strName = false)
    (s : Sinks) (answer : Option HRESULT) (env : PostEnv) (children : List WStr) (a : WStr) :
    routeMsg s answer env children a m =
      { handed := (Deliver s answer (m.handed ⟨m.oMsg.strName, m.oMsg.aData⟩ false)).2
        bNotHandled := decide ((Deliver s answer (m.handed ⟨m.oMsg.strName, m.oMsg.aData⟩ false)).1 = S_FALSE) && !m.NoBounce } := by
  have hne : m.oMsg.strName ≠ P2Pmsg_BCast := by
    intro h
    rw [h] at hres
    cases hres
  unfold routeMsg On_AnyTopic
  rw [if_neg (by simp [hres]), if_neg (by simp [hpriv])]
  by_cases hd : (Deliver s answer (m.handed ⟨m.oMsg.strName, m.oMsg.aData⟩ false)).1 = S_FALSE ∧ m.NoBounce = false
  · simp only [if_pos hd]
    rw [if_neg hne, if_neg (by simp [hres])]
    simp [hd.1, hd.2]
  · simp only [if_neg hd]
    by_cases h1 : (Deliver s answer (m.handed ⟨m.oMsg.strName, m.oMsg.aData⟩ false)).1 = S_FALSE
    · have h2 : m.NoBounce = true := by
        cases hb : m.NoBounce with
        | true => rfl
        | false => exact absurd ⟨h1, hb⟩ hd
      simp [h2]
    · simp [h1]

theorem bcast_decodes (c_name : WStr) (body : List UInt8) : ∃ d, On_P2PeerBCast c_name (some body) = some d :=
  ⟨_, (body_decodes c_name body).choose_spec.1⟩

/-- NotHandled is reached exactly by a client's message that an extended sink has declined and whose sender has not
    asked for silence. -/
theorem routeMsg_notHandled (s : Sinks) (answer : Option HRESULT) (env : PostEnv) (children : List WStr) (a : WStr) (m : SentMsg) :
    (routeMsg s answer env children a m).bNotHandled = true ↔
      m.ForClient ∧ s.bExtEvents = true ∧ answer = some S_FALSE ∧ m.NoBounce = false := by
  by_cases hb : m.oMsg.strName = P2Pmsg_BCast
  · obtain ⟨d, hd⟩ := bcast_decodes m.oMsg.strName m.oMsg.aData
    rw [routeMsg_bcast hb]
    unfold bcastRelay ReportDeclined
    rw [hd]
    simp only [Bool.and_eq_true, decide_eq_true_eq, deliver_declined, Bool.not_eq_true', and_assoc]
    exact ⟨fun h => ⟨Or.inl hb, h⟩, fun h => h.2⟩
  · by_cases hres : IsReservedName m.oMsg.strName = true
    · rw [routeMsg_reserved hres hb]
      refine iff_of_false Bool.false_ne_true fun h => ?_
      rcases h.1 with h1 | h1
      · exact hb h1
      · rw [hres] at h1
        cases h1.1
    · rw [Bool.not_eq_true] at hres
      by_cases hpriv : IsPrivateName m.oMsg.strName = true
      · rw [routeMsg_private hres hpriv]
        refine iff_of_false Bool.false_ne_true fun h => ?_
        rcases h.1 with h1 | h1
        · exact hb h1
        · rw [hpriv] at h1
          cases h1.2
      · rw [Bool.not_eq_true] at hpriv
        rw [routeMsg_topic hres hpriv]
        simp only [Bool.and_eq_true, decide_eq_true_eq, deliver_declined, Bool.not_eq_true', and_assoc]
        exact ⟨fun h => ⟨Or.inr ⟨hres, hpriv⟩, h⟩, fun h => h.2⟩

/-! ## Failures, reports, and exceptions that are dropped -/

/-- The message was not taken: its client declined it out loud, or it was not routable. -/
def Happening.fails (m : SentMsg) : Happening → Bool
  | .took _ _ _ m' t _ => t.bNotHandled && decide (m' = m)
  | .unroutable x _ => decide (x = .posted m)
  | _ => false

/-- The client of its sender is told that it came back. -/
def Happening.reports (m : SentMsg) : Happening → Bool
  | .returned _ _ x event _ => event.isSome && x.wraps (.posted m)
  | _ => false

/-- The exception for it is off the wire, and no client was told. -/
def Happening.drops (m : SentMsg) : Happening → Bool
  | .returned _ _ x event _ => event.isNone && x.wraps (.posted m)
  | .unroutable x _ => x.wraps (.posted m)
  | .lost x => x.wraps (.posted m)
  | _ => false

theorem bounce_wraps (x y : NetMsg) (strWhy : WStr) : (y.bounce strWhy).wraps x = decide (y = x) := rfl

theorem countP_posted (x : NetMsg) (l : List SentMsg) : (l.map NetMsg.posted).countP (·.wraps x) = 0 := by
  refine countP_of_none fun y hy => ?_
  obtain ⟨m, -, rfl⟩ := List.mem_map.mp hy
  rfl

theorem puts_fails {uWord : Nat} {earlier : List Happening} {e : Happening} (he : Entered uWord earlier e) (m : SentMsg) :
    e.puts.countP (·.wraps (.posted m)) = ifOne (e.fails m) := by
  cases e with
  | called a c hr aPosted => exact countP_posted _ _
  | took a s answer m' t strWhy =>
    simp only [Happening.puts, Happening.fails, List.countP_append, countP_posted, Nat.zero_add]
    cases t.bNotHandled with
    | false => rfl
    | true =>
      simp only [if_true, List.countP_singleton, bounce_wraps, Bool.true_and, NetMsg.posted.injEq]
      rfl
  | returned a s x event strAgain =>
    obtain ⟨⟨strSource, strWhy, oWrapped, rfl⟩, -⟩ := he.returned a s x event strAgain rfl
    cases strAgain with
    | none => rfl
    | some strWhy' => rfl
  | unroutable x strWhy =>
    simp only [Happening.puts, List.countP_singleton, bounce_wraps]
    rfl
  | lost x => rfl

theorem takes_dropped (e : Happening) (m : SentMsg) :
    e.takes.countP (·.wraps (.posted m)) = ifOne (e.reports m) + ifOne (e.drops m) := by
  cases e with
  | called a c hr aPosted => rfl
  | took a s answer m' t strWhy => rfl
  | returned a s x event strAgain =>
    simp only [Happening.takes, Happening.reports, Happening.drops, List.countP_singleton]
    cases event with
    | none => exact (Nat.zero_add _).symm
    | some c => rfl
  | unroutable x strWhy =>
    simp only [Happening.takes, List.countP_singleton]
    exact (Nat.zero_add _).symm
  | lost x =>
    simp only [Happening.takes, List.countP_singleton]
    exact (Nat.zero_add _).symm

/-- Every exception is the kernel's for the message in it. -/
theorem puts_bounce {e : Happening} {strSource strDest strWhy : WStr} {oWrapped : NetMsg}
    (h : NetMsg.exception strSource strDest strWhy oWrapped ∈ e.puts) : strSource = oWrapped.dest ∧ strDest = oWrapped.source := by
  have hbounce : ∀ {x : NetMsg} {why : WStr}, NetMsg.exception strSource strDest strWhy oWrapped = x.bounce why →
      strSource = oWrapped.dest ∧ strDest = oWrapped.source := by
    intro x why he
    obtain ⟨rfl, rfl, -, rfl⟩ := NetMsg.exception.inj he
    exact ⟨rfl, rfl⟩
  have hposted : ∀ l : List SentMsg, NetMsg.exception strSource strDest strWhy oWrapped ∉ l.map .posted := by
    intro l hl
    obtain ⟨m, -, hm⟩ := List.mem_map.mp hl
    cases hm
  cases e with
  | called a c hr aPosted => exact absurd h (hposted aPosted)
  | took a s answer m t why =>
    rcases List.mem_append.mp h with h | h
    · exact absurd h (hposted t.posts)
    · split at h
      · exact hbounce (List.mem_singleton.mp h)
      · cases h
  | returned a s x event strAgain =>
    cases strAgain with
    | none => cases h
    | some why => exact hbounce (List.mem_singleton.mp h)
  | unroutable x why => exact hbounce (List.mem_singleton.mp h)
  | lost x => cases h

/-- The event that tells a client that the message came back. -/
def bounceEvent (s : Sinks) (m : SentMsg) (strWhy : WStr) : Option Callback :=
  if s.bExtEvents then some (.OnEvent P2PF_EVT_ROUTING_ERROR m.oMsg.strDest (bounceText m.oMsg.strDest strWhy))
  else if s.bEvents then some (.OnError (bounceText m.oMsg.strDest strWhy))
  else none

theorem reportBounce_posted (s : Sinks) (m : SentMsg) (strWhy : WStr) :
    ReportBounce s ((NetMsg.posted m).bounce strWhy) = bounceEvent s m strWhy := rfl

/-! ## Every run -/

/-- What senders are told of the messages that nobody took. -/
structure BouncesAccounted (uWord : Nat) (n : RouteNet) : Prop where
  /-- A failure is reported, dropped, or on its way back. -/
  once : ∀ m, n.log.countP (·.fails m) = n.log.countP (·.reports m) + n.log.countP (·.drops m) + n.flight.countP (·.wraps (.posted m))
  /-- What comes back around a message comes to its sender and raises the event; around an exception, none. -/
  told : ∀ a s x event strAgain, .returned a s x event strAgain ∈ n.log →
    (∃ m strWhy, x = (NetMsg.posted m).bounce strWhy ∧ m.strSource = a ∧ event = bounceEvent s m strWhy) ∨
      (∀ m, x.wraps (.posted m) = false) ∧ event = none
  /-- And it comes whenever it is on its way and the sender's hub is there. -/
  comes : ∀ m strWhy s strAgain, (NetMsg.posted m).bounce strWhy ∈ n.flight → n.hubs[m.strSource]? = some s →
    (routeStep uWord n (.back ((NetMsg.posted m).bounce strWhy) strAgain)).log =
      n.log ++ [.returned m.strSource s ((NetMsg.posted m).bounce strWhy) (bounceEvent s m strWhy) strAgain]
  /-- A message whose client took it, or whose sender asked for silence, fails at no hub. -/
  declined : ∀ a s answer m t strWhy, .took a s answer m t strWhy ∈ n.log →
    ((Happening.took a s answer m t strWhy).fails m = true ↔
      m.ForClient ∧ s.bExtEvents = true ∧ answer = some S_FALSE ∧ m.NoBounce = false)

theorem bounces_accounted (uWord : Nat) (es : List RouteEv) : BouncesAccounted uWord (exec (routeStep uWord) .start es) := by
  have hbal := @balanced_exec uWord es
  have hlog := @entered_exec uWord es
  constructor
  · intro m
    have hcount := countP_balanced hbal (·.wraps (.posted m))
    rw [countP_flatMap_two (q := (·.reports m)) (r := (·.drops m)) fun e _ => takes_dropped e m] at hcount
    rw [countP_flatMap_one (q := (·.fails m)) fun e he => ?_] at hcount
    · omega
    · obtain ⟨earlier, -, -, hentered⟩ := noted_mem hlog he
      exact puts_fails hentered m
  · intro a s x event strAgain hmem
    obtain ⟨earlier, -, -, he⟩ := noted_mem hlog hmem
    obtain ⟨⟨strSource, strWhy, oWrapped, rfl⟩, rfl⟩ := he.returned a s x event strAgain rfl
    cases oWrapped with
    | exception => exact Or.inr ⟨fun m => rfl, rfl⟩
    | posted m =>
      obtain ⟨e', -, hput⟩ := he.put _ List.mem_cons_self
      obtain ⟨rfl, rfl⟩ := puts_bounce hput
      exact Or.inl ⟨m, strWhy, rfl, rfl, reportBounce_posted s m strWhy⟩
  · intro m strWhy s strAgain hx hs
    have hs' : (exec (routeStep uWord) .start es).hubs[((NetMsg.posted m).bounce strWhy).dest]? = some s := hs
    simp only [routeStep]
    rw [if_pos hx, hs']
    rfl
  · intro a s answer m t strWhy hmem
    obtain ⟨earlier, -, -, he⟩ := noted_mem hlog hmem
    obtain ⟨rfl, env, children, rfl⟩ := he.took a s answer m t strWhy rfl
    simp only [Happening.fails, decide_true, Bool.and_true]
    exact routeMsg_notHandled s answer env children m.oMsg.strDest m

/-! ## What an answer changes -/

/-- An event, whatever the handler answers. -/
def RouteEv.unanswered : RouteEv → RouteEv
  | .deliver m _ env children strWhy => .deliver m none env children strWhy
  | e => e

def NetMsg.posted? : NetMsg → Option SentMsg
  | .posted m => some m
  | .exception _ _ _ _ => none

/-- The message callbacks of a hub's client. -/
def Happening.handed? : Happening → Option (WStr × Handed)
  | .took a _ _ _ t _ => t.handed.map (a, ·)
  | _ => none

/-- The hubs, what is on its way that was posted, and the message callbacks, in order. -/
structure Traffic where
  hubs : Map WStr Sinks
  aPosted : List SentMsg
  aHanded : List (WStr × Handed)

def RouteNet.traffic (n : RouteNet) : Traffic := ⟨n.hubs, n.flight.filterMap NetMsg.posted?, n.log.filterMap Happening.handed?⟩

theorem posted_erase (l : List NetMsg) (x : NetMsg) :
    (l.erase x).filterMap NetMsg.posted? = match x.posted? with
      | some m => (l.filterMap NetMsg.posted?).erase m
      | none => l.filterMap NetMsg.posted? := by
  induction l with
  | nil => cases x <;> rfl
  | cons y l ih =>
    by_cases hy : y = x
    · subst hy
      rw [List.erase_cons_head]
      cases y with
      | posted m => exact (List.erase_cons_head ..).symm
      | exception => rfl
    · rw [List.erase_cons_tail (by simpa using hy)]
      cases y with
      | exception => exact ih
      | posted m =>
        show m :: (l.erase x).filterMap NetMsg.posted? = _
        rw [ih]
        cases x with
        | exception => rfl
        | posted m' =>
          have hne : m ≠ m' := fun h => hy (congrArg _ h)
          exact (List.erase_cons_tail (by simpa using hne)).symm

theorem mem_posted {l : List NetMsg} {m : SentMsg} : m ∈ l.filterMap NetMsg.posted? ↔ NetMsg.posted m ∈ l := by
  rw [List.mem_filterMap]
  constructor
  · intro h
    obtain ⟨x, hx, hm⟩ := h
    cases x with
    | posted m' => exact Option.some.inj hm ▸ hx
    | exception => cases hm
  · exact fun h => ⟨_, h, rfl⟩

theorem posted_map (l : List SentMsg) : (l.map NetMsg.posted).filterMap NetMsg.posted? = l := by
  rw [List.filterMap_map]
  exact List.filterMap_some

/-- What is posted on the wire when `x` has passed. -/
theorem posted_pass (n : RouteNet) (x : NetMsg) (e : Happening) :
    (n.pass x e).flight.filterMap NetMsg.posted? =
      (match x.posted? with
        | some m => (n.flight.filterMap NetMsg.posted?).erase m
        | none => n.flight.filterMap NetMsg.posted?) ++ e.puts.filterMap NetMsg.posted? := by
  unfold RouteNet.pass
  rw [List.filterMap_append, posted_erase]

theorem routeMsg_alike (s : Sinks) (answer answer' : Option HRESULT) (env : PostEnv) (children : List WStr) (a : WStr) (m : SentMsg) :
    (routeMsg s answer env children a m).handed = (routeMsg s answer' env children a m).handed ∧
      (routeMsg s answer env children a m).posts = (routeMsg s answer' env children a m).posts := by
  by_cases hb : m.oMsg.strName = P2Pmsg_BCast
  · obtain ⟨d, hd⟩ := bcast_decodes m.oMsg.strName m.oMsg.aData
    rw [routeMsg_bcast hb, routeMsg_bcast hb]
    unfold bcastRelay
    rw [hd]
    exact ⟨deliver_handed s answer answer' _, rfl⟩
  · by_cases hres : IsReservedName m.oMsg.strName = true
    · rw [routeMsg_reserved hres hb, routeMsg_reserved hres hb]
      exact ⟨rfl, rfl⟩
    · rw [Bool.not_eq_true] at hres
      by_cases hpriv : IsPrivateName m.oMsg.strName = true
      · rw [routeMsg_private hres hpriv, routeMsg_private hres hpriv]
        exact ⟨rfl, rfl⟩
      · rw [Bool.not_eq_true] at hpriv
        rw [routeMsg_topic hres hpriv, routeMsg_topic hres hpriv]
        exact ⟨deliver_handed s answer answer' _, rfl⟩

theorem puts_posted (e : Happening) : e.puts.filterMap NetMsg.posted? = match e with
    | .called _ _ _ aPosted => aPosted
    | .took _ _ _ _ t _ => t.posts
    | _ => [] := by
  cases e with
  | called a c hr aPosted => exact posted_map aPosted
  | took a s answer m t strWhy =>
    show List.filterMap _ (_ ++ _) = _
    rw [List.filterMap_append, posted_map]
    split <;> exact List.append_nil _
  | returned a s x event strAgain => cases strAgain <;> rfl
  | unroutable x strWhy => rfl
  | lost x => rfl

/-- The traffic after a message has passed. -/
theorem traffic_pass (n : RouteNet) (x : NetMsg) (e : Happening) : (n.pass x e).traffic =
    ⟨n.hubs, (match x.posted? with
        | some m => n.traffic.aPosted.erase m
        | none => n.traffic.aPosted) ++ e.puts.filterMap NetMsg.posted?,
      n.traffic.aHanded ++ (e.handed?).toList⟩ := by
  unfold RouteNet.traffic
  rw [posted_pass]
  congr 1
  show List.filterMap _ (n.log ++ [e]) = _
  rw [List.filterMap_append, List.filterMap_cons]
  cases e.handed? <;> rfl

/-- An exception that passes leaves the traffic as it is. -/
theorem traffic_exception (n : RouteNet) {x : NetMsg} (hx : x.posted? = none) {e : Happening}
    (hputs : e.puts.filterMap NetMsg.posted? = []) (hh : e.handed? = none) : (n.pass x e).traffic = n.traffic := by
  rw [traffic_pass, hx, hputs, hh]
  simp only [List.append_nil, Option.toList_none]
  rfl

section Alike

variable {n n' : RouteNet}

theorem flight_alike (h : n.traffic = n'.traffic) (m : SentMsg) : NetMsg.posted m ∈ n.flight ↔ NetMsg.posted m ∈ n'.flight := by
  have hposted : n.flight.filterMap NetMsg.posted? = n'.flight.filterMap NetMsg.posted? := congrArg Traffic.aPosted h
  rw [← mem_posted, ← mem_posted, hposted]

theorem pass_alike (h : n.traffic = n'.traffic) (x : NetMsg) {e e' : Happening}
    (hputs : e.puts.filterMap NetMsg.posted? = e'.puts.filterMap NetMsg.posted?) (hh : e.handed? = e'.handed?) :
    (n.pass x e).traffic = (n'.pass x e').traffic := by
  have hhubs : n.hubs = n'.hubs := congrArg Traffic.hubs h
  rw [traffic_pass, traffic_pass, hputs, hh, hhubs, h]

theorem deliver_alike (h : n.traffic = n'.traffic) (m : SentMsg) (answer answer' : Option HRESULT) (env : PostEnv)
    (children : List WStr) (strWhy : WStr) :
    (routeStep uWord n (.deliver m answer env children strWhy)).traffic =
      (routeStep uWord n' (.deliver m answer' env children strWhy)).traffic := by
  have hhubs : n.hubs = n'.hubs := congrArg Traffic.hubs h
  simp only [routeStep]
  by_cases hm : NetMsg.posted m ∈ n.flight
  · rw [if_pos hm, if_pos ((flight_alike h m).mp hm), hhubs]
    cases hs : n'.hubs[m.oMsg.strDest]? with
    | none => exact h
    | some s =>
      obtain ⟨hh, hp⟩ := routeMsg_alike s answer answer' env children m.oMsg.strDest m
      refine pass_alike h _ ?_ ?_
      · rw [puts_posted, puts_posted]
        exact hp
      · show Option.map _ (routeMsg s answer _ _ _ m).handed = Option.map _ (routeMsg s answer' _ _ _ m).handed
        rw [hh]
  · rw [if_neg hm, if_neg fun hm' => hm ((flight_alike h m).mpr hm')]
    exact h

/-- An exception's way is not traffic. -/
theorem back_traffic (n : RouteNet) (x : NetMsg) (strAgain : Option WStr) :
    (routeStep uWord n (.back x strAgain)).traffic = n.traffic := by
  simp only [routeStep]
  split
  · split
    · exact traffic_exception n rfl (puts_posted _) rfl
    · rfl
  · rfl

/-- What becomes of a message that no hub takes. -/
theorem astray_alike (h : n.traffic = n'.traffic) (x : NetMsg) {e : Happening} (hputs : e.puts.filterMap NetMsg.posted? = [])
    (hh : e.handed? = none) :
    (if x ∈ n.flight then n.pass x e else n).traffic = (if x ∈ n'.flight then n'.pass x e else n').traffic := by
  cases x with
  | posted m =>
    by_cases hm : NetMsg.posted m ∈ n.flight
    · rw [if_pos hm, if_pos ((flight_alike h m).mp hm)]
      exact pass_alike h _ rfl rfl
    · rw [if_neg hm, if_neg fun hm' => hm ((flight_alike h m).mpr hm')]
      exact h
  | exception strSource strDest strWhy oWrapped =>
    have hkeeps : ∀ n : RouteNet, (if NetMsg.exception strSource strDest strWhy oWrapped ∈ n.flight
        then n.pass (.exception strSource strDest strWhy oWrapped) e else n).traffic = n.traffic := by
      intro n
      split
      · exact traffic_exception n rfl hputs hh
      · rfl
    rw [hkeeps, hkeeps]
    exact h

theorem traffic_step (h : n.traffic = n'.traffic) (e : RouteEv) :
    (routeStep uWord n e).traffic = (routeStep uWord n' e.unanswered).traffic := by
  have hhubs : n.hubs = n'.hubs := congrArg Traffic.hubs h
  have hposted : n.flight.filterMap NetMsg.posted? = n'.flight.filterMap NetMsg.posted? := congrArg Traffic.aPosted h
  have hhanded : n.log.filterMap Happening.handed? = n'.log.filterMap Happening.handed? := congrArg Traffic.aHanded h
  cases e with
  | hub a s =>
    simp only [RouteEv.unanswered, routeStep, RouteNet.traffic]
    rw [hhubs, hposted, hhanded]
  | call a c env =>
    simp only [RouteEv.unanswered, routeStep]
    rw [hhubs]
    split
    · simp only [RouteNet.traffic, List.filterMap_append]
      rw [hposted, hhanded]
    · exact h
  | deliver m answer env children strWhy => exact deliver_alike h m answer none env children strWhy
  | back x strAgain => exact (back_traffic n x strAgain).trans (h.trans (back_traffic n' x strAgain).symm)
  | unroutable x strWhy => exact astray_alike h x rfl rfl
  | lose x => exact astray_alike h x rfl rfl

end Alike

/-- Two runs that differ in what the handlers answer. -/
theorem answers_change_reports_only (uWord : Nat) (es fs : List RouteEv)
    (h : es.map RouteEv.unanswered = fs.map RouteEv.unanswered) :
    (exec (routeStep uWord) .start es).traffic = (exec (routeStep uWord) .start fs).traffic :=
  exec_alike (R := fun n n' : RouteNet => n.traffic = n'.traffic) (fun n n' e f hn he => by
    rw [traffic_step hn e, he, ← traffic_step rfl f]) h rfl

def tagged : SentMsg := ⟨L "a", L "b", L "hi", [1], some ⟨7, 9, 0, none⟩⟩

/-- It is sent, and the handler it is given to answers. -/
def taggedRun (answer : Option HRESULT) : List RouteEv :=
  [.hub (L "a") (some ⟨true, false⟩), .hub (L "b") (some ⟨true, true⟩),
    .call (L "a") (.sendEx (some (L "b")) (some (L "hi")) (some [1]) 1 7 9 0) {},
    .deliver tagged answer {} [] []]

theorem answers_change_reports_only_tagged :
    (exec (routeStep 64) .start (taggedRun (some S_FALSE))).traffic = (exec (routeStep 64) .start (taggedRun (some S_OK))).traffic :=
  answers_change_reports_only 64 (taggedRun (some S_FALSE)) (taggedRun (some S_OK)) rfl

end TargetFacade
