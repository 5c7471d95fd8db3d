/-
  TargetFacade.Hub.PingAgreement — Pings between hubs, and what a Ping that succeeds says
  (FacadeHub.cpp: Ping, HandlePrivate).

  A pong finds its waiter by an id that counts the Pings of one hub, and nothing else. A hub created
  at the address of one that is gone counts from the start again. So the pong of the hub that is
  gone answers a Ping of the one that is there (`stale_pong`).

  Every message on its way carries the Ping it is for, which no step reads. As long as a Ping takes
  an id that no message on its way to or from its address carries, the messages that carry an id
  are for the call whose row has it (`Matched`), and a Ping that succeeds was heard by its peer
  (`ping_agreement`).
-/

import TargetFacade.Hub.PingClose

namespace TargetFacade

open OrdMap Runs Bag

structure PingNet where
  hubs : Map WStr PingHub
  nHubs : Nat
  /-- Posted and not yet taken, with the Ping that it is for. -/
  flight : List (SentMsg × PingId)
  /-- Which Ping's message was taken at which address. -/
  processed : List (PingId × WStr)

def PingNet.empty : PingNet := ⟨∅, 0, [], []⟩

inductive PingNetEv where
  /-- A hub at an address that no hub has. -/
  | create (oAddress : HubAddress) (now : Nat)
  /-- A step of the hub at `a` that no message asks for. -/
  | hub (a : WStr) (e : PingEv)
  /-- The end of Close. -/
  | destroy (a : WStr)
  /-- The pump of the hub that a message is for takes it; `env` is for what it posts. -/
  | take (m : SentMsg) (id : PingId) (env : PostEnv)
  | lose (m : SentMsg) (id : PingId)

def PingEv.isAnswer : PingEv → Bool
  | .pong _ => true
  | _ => false

def PingHub.csAddress (s : PingHub) : WStr := s.oAddress.1

/-- What a call posts, for itself. -/
def PingEv.posts (s : PingHub) : PingEv → List (SentMsg × PingId)
  | .client c env _ =>
    if c ∈ s.calls then
      match c.pc with
      | .registered uId => (PingPost env c uId).2.map fun o => (⟨s.csAddress, o⟩, c.id)
      | _ => []
    else []
  | _ => []

/-- HandlePrivate, on a ping: the body goes back as it came. -/
def pongs (env : PostEnv) (csAddress strTo : WStr) (aData : List UInt8) : List SentMsg :=
  (PostMsg env strTo kTopicPong (some aData) aData.length none).2.map (⟨csAddress, ·⟩)

def takeMsg (n : PingNet) (s : PingHub) (m : SentMsg) (id : PingId) (env : PostEnv) : PingNet :=
  match m.work s.csAddress with
  | .echo strTo aData =>
    { n with
      flight := n.flight ++ (pongs env s.csAddress strTo aData).map (·, id)
      processed := n.processed ++ [(id, s.csAddress)] }
  | .pong uPingId => { n with hubs := n.hubs.insert s.csAddress (HandlePong uPingId s) }
  | _ => n

def pingNetStep (n : PingNet) : PingNetEv → PingNet
  | .create oAddress now =>
    if oAddress.1 ∈ n.hubs then n
    else { n with hubs := n.hubs.insert oAddress.1 (.created n.nHubs oAddress now), nHubs := n.nHubs + 1 }
  | .hub a e =>
    match n.hubs[a]? with
    | none => n
    | some s =>
      if e.isAnswer then n
      else { n with hubs := n.hubs.insert a (pingStep s e), flight := n.flight ++ e.posts s }
  | .destroy a =>
    match n.hubs[a]? with
    | none => n
    | some s => if s.drain = .drained ∨ s.drain = .expired then { n with hubs := n.hubs.erase a } else n
  | .take m id env =>
    if (m, id) ∈ n.flight then
      match n.hubs[m.oMsg.strDest]? with
      | none => { n with flight := n.flight.erase (m, id) }
      | some s => takeMsg { n with flight := n.flight.erase (m, id) } s m id env
    else n
  | .lose m id => { n with flight := n.flight.erase (m, id) }

/-- The peer that `id` asks has taken its message. -/
def Heard (processed : List (PingId × WStr)) (id : PingId) : Prop := (id, id.peer) ∈ processed

/-- Every Ping that answered S_OK was heard. -/
def PingAgrees (n : PingNet) : Prop :=
  ∀ (a : WStr) (s : PingHub), n.hubs[a]? = some s → ∀ x ∈ s.answers, x.hr = S_OK → Heard n.processed x.call.id

/-! ## A clear id -/

/-- A ping from `a` or a pong to it, with this id. -/
def SentMsg.Carries (a : WStr) (uId : UInt32) (m : SentMsg) : Prop :=
  bodyId m.oMsg.aData = uId ∧
    (m.oMsg.strName = kTopicPing ∧ m.strSource = a ∨ m.oMsg.strName = kTopicPong ∧ m.oMsg.strDest = a)

instance (a : WStr) (uId : UInt32) : DecidablePred (SentMsg.Carries a uId) := fun _ => inferInstanceAs (Decidable (_ ∧ _))

/-- No message carries the next id, and no call has still to post it. -/
def PingHub.NextClear (flight : List (SentMsg × PingId)) (s : PingHub) : Prop :=
  (∀ x ∈ flight, ¬ x.1.Carries s.csAddress (s.uNextPingId + 1)) ∧ ∀ c ∈ s.calls, c.pc ≠ .registered (s.uNextPingId + 1)

/-- A Ping that writes its row takes a clear id. -/
def PingNetEv.Clear (n : PingNet) : PingNetEv → Prop
  | .hub a e => ∀ s : PingHub, n.hubs[a]? = some s → e.Registers s → s.NextClear n.flight
  | _ => True

/-! ## One hub -/

/-- What a hub's rows and calls say of who was heard. -/
structure HubAgrees (processed : List (PingId × WStr)) (s : PingHub) : Prop where
  inv : PingInv s
  ponged : ∀ c ∈ s.calls, c.bPonged = true → Heard processed c.id
  closed : ∀ c ∈ s.calls, c.bClosed = true → s.bClosing = true ∧
    ∀ (uId : UInt32) (row : PingRow), c.pc.held = some uId → s.pings[uId]? = some row → row.hEvent = c.id
  rows : ∀ (uId : UInt32) (row : PingRow), s.pings[uId]? = some row → row.bAnswered = true → Heard processed row.hEvent
  set : ∀ c ∈ s.calls, ∀ uId hr, c.pc = .leaving uId hr → FAILED hr = false → c.bPonged = true ∨ c.bClosed = true
  answers : ∀ x ∈ s.answers, FAILED x.hr = false → Heard processed x.call.id

theorem Heard.mono {processed : List (PingId × WStr)} {id : PingId} (l : List (PingId × WStr)) (h : Heard processed id) :
    Heard (processed ++ l) id := List.mem_append_left l h

theorem HubAgrees.mono {processed : List (PingId × WStr)} {s : PingHub} (l : List (PingId × WStr))
    (h : HubAgrees processed s) : HubAgrees (processed ++ l) s :=
  ⟨h.inv, fun c hc hp => (h.ponged c hc hp).mono l, h.closed, fun u row hr ha => (h.rows u row hr ha).mono l, h.set,
    fun x hx hf => (h.answers x hx hf).mono l⟩

variable {processed : List (PingId × WStr)}

/-- A call that goes on holding what it held. -/
theorem agrees_goto {s : PingHub} (hs : HubAgrees processed s) {c c' : PingCall} (hc : c ∈ s.calls) (hid : c'.id = c.id)
    (hheld : c'.pc.held = c.pc.held) (hpong : c'.bPonged = c.bPonged) (hclosed : c'.bClosed = c.bClosed)
    (hset : ∀ uId hr, c'.pc = .leaving uId hr → FAILED hr = false → c.bPonged = true ∨ c.bClosed = true) :
    HubAgrees processed (s.goto c c') := by
  refine ⟨pingInv_goto hs.inv hc hid hheld, fun d hd hp => ?_, fun d hd hp => ?_, hs.rows, fun d hd => ?_, hs.answers⟩
  · rcases goto_calls hs.inv.ids hc hd with ⟨hd, -⟩ | rfl
    · exact hs.ponged d hd hp
    · rw [hid]
      exact hs.ponged c hc (hpong ▸ hp)
  · rcases goto_calls hs.inv.ids hc hd with ⟨hd, -⟩ | rfl
    · exact hs.closed d hd hp
    · rw [hid, hheld]
      exact hs.closed c hc (hclosed ▸ hp)
  · rcases goto_calls hs.inv.ids hc hd with ⟨hd, -⟩ | rfl
    · exact hs.set d hd
    · rw [hpong, hclosed]
      exact hset

/-- A call that answers, and rows that are still there. -/
theorem agrees_answer {s : PingHub} (hs : HubAgrees processed s) {c : PingCall} {pings : Map UInt32 PingRow} {hr : HRESULT}
    {m : UInt32} (hp : ∀ (uId : UInt32) (row : PingRow), pings[uId]? = some row → s.pings[uId]? = some row)
    (hh : FAILED hr = false → Heard processed c.id) :
    HubAgrees processed (PingHub.answer { s with pings := pings } c hr m) := by
  refine ⟨pingInv_erase hs.inv hp, fun d hd => hs.ponged d (List.mem_of_mem_erase hd), fun d hd hb => ?_,
    fun u row hr => hs.rows u row (hp u row hr), fun d hd => hs.set d (List.mem_of_mem_erase hd), fun x hx => ?_⟩
  · obtain ⟨hclosing, hown⟩ := hs.closed d (List.mem_of_mem_erase hd) hb
    exact ⟨hclosing, fun u row hu hr => hown u row hu (hp u row hr)⟩
  · rcases List.mem_append.mp hx with hx | hx
    · exact hs.answers x hx
    · rw [List.mem_singleton.mp hx]
      exact hh

/-- A call whose event is set and whose row is answered was heard. -/
theorem heard_leave {s : PingHub} (hs : HubAgrees processed s) {c : PingCall} (hc : c ∈ s.calls) {uId : UInt32} {hr : HRESULT}
    (hp : c.pc = .leaving uId hr) (hf : FAILED hr = false) {row : PingRow} (hrow : s.pings[uId]? = some row)
    (hans : row.bAnswered = true) : Heard processed c.id := by
  rcases hs.set c hc uId hr hp hf with hpong | hclosed
  · exact hs.ponged c hc hpong
  · have hown := (hs.closed c hc hclosed).2 uId row (by rw [hp]; rfl) hrow
    exact hown ▸ hs.rows uId row hrow hans

theorem agrees_register {s : PingHub} (hs : HubAgrees processed s) {c : PingCall} (hc : c ∈ s.calls) (hb : s.bClosing = false)
    (hinv : PingInv { s.goto c { c with pc := .registered (s.uNextPingId + 1) } with
      uNextPingId := s.uNextPingId + 1
      pings := s.pings.insert (s.uNextPingId + 1) ⟨c.id, s.now, 0, false⟩ }) :
    HubAgrees processed { s.goto c { c with pc := .registered (s.uNextPingId + 1) } with
      uNextPingId := s.uNextPingId + 1
      pings := s.pings.insert (s.uNextPingId + 1) ⟨c.id, s.now, 0, false⟩ } := by
  have hopen : ∀ d ∈ s.calls, d.bClosed = false := by
    intro d hd
    cases hcl : d.bClosed with
    | false => rfl
    | true => rw [(hs.closed d hd hcl).1] at hb; cases hb
  refine ⟨hinv, fun d hd hpong => ?_, fun d hd hcl => ?_, fun u row hr hans => ?_, fun d hd => ?_, hs.answers⟩
  · rcases goto_calls hs.inv.ids hc hd with ⟨hd, -⟩ | rfl
    · exact hs.ponged d hd hpong
    · exact hs.ponged c hc hpong
  · rcases goto_calls hs.inv.ids hc hd with ⟨hd, -⟩ | rfl
    · rw [hopen d hd] at hcl
      cases hcl
    · exact absurd hcl (by simp [hopen c hc])
  · rcases get_of_insert hr with ⟨-, rfl⟩ | ⟨-, hr⟩
    · cases hans
    · exact hs.rows u row hr hans
  · rcases goto_calls hs.inv.ids hc hd with ⟨hd, -⟩ | rfl
    · exact hs.set d hd
    · exact fun u hr h => PingPc.noConfusion h

/-- An answer is heard by the call whose row it finds. -/
theorem agrees_pong {s : PingHub} (hs : HubAgrees processed s) {uId : UInt32} {row : PingRow} (hrow : s.pings[uId]? = some row)
    (hh : Heard processed row.hEvent)
    (hinv : PingInv { s with
      pings := s.pings.insert uId { row with uMillisecs := UInt32.ofNat (s.now - row.uSentTick), bAnswered := true }
      calls := s.calls.map (PingHub.ponged row.hEvent) }) :
    HubAgrees processed { s with
      pings := s.pings.insert uId { row with uMillisecs := UInt32.ofNat (s.now - row.uSentTick), bAnswered := true }
      calls := s.calls.map (PingHub.ponged row.hEvent) } := by
  refine ⟨hinv, fun d hd hpong => ?_, fun d hd hcl => ?_, fun u row' hr hans => ?_, fun d hd => ?_, hs.answers⟩
  · obtain ⟨c, hc, rfl⟩ := List.mem_map.mp hd
    rw [ponged_id]
    rw [ponged_bPonged, Bool.or_eq_true, decide_eq_true_iff] at hpong
    rcases hpong with hpong | he
    · exact hs.ponged c hc hpong
    · rw [he]
      exact hh
  · obtain ⟨c, hc, rfl⟩ := List.mem_map.mp hd
    rw [ponged_bClosed] at hcl
    rw [ponged_id, ponged_pc]
    obtain ⟨hclosing, hown⟩ := hs.closed c hc hcl
    refine ⟨hclosing, fun u row' hu hr => ?_⟩
    rcases get_of_insert hr with ⟨rfl, rfl⟩ | ⟨-, hr⟩
    · exact hown uId row hu hrow
    · exact hown u row' hu hr
  · rcases get_of_insert hr with ⟨-, rfl⟩ | ⟨-, hr⟩
    · exact hh
    · exact hs.rows u row' hr hans
  · obtain ⟨c, hc, rfl⟩ := List.mem_map.mp hd
    rw [ponged_pc, ponged_bPonged, ponged_bClosed]
    intro u hr hp hf
    rcases hs.set c hc u hr hp hf with h | h
    · exact Or.inl (by rw [h, Bool.true_or])
    · exact Or.inr h

theorem agrees_mark {s : PingHub} (hs : HubAgrees processed s) (hinv : PingInv (CloseMark s)) :
    HubAgrees processed (CloseMark s) := by
  refine ⟨hinv, fun d hd hpong => ?_, fun d hd hcl => ⟨rfl, fun u row hu hr => ?_⟩, hs.rows, fun d hd => ?_, hs.answers⟩
  · obtain ⟨c, hc, rfl⟩ := List.mem_map.mp hd
    rw [released_bPonged] at hpong
    rw [released_id]
    exact hs.ponged c hc hpong
  · obtain ⟨c, hc, rfl⟩ := List.mem_map.mp hd
    rw [released_pc] at hu
    rw [released_id]
    rw [released_bClosed, Bool.or_eq_true, decide_eq_true_iff] at hcl
    rcases hcl with hcl | hm
    · exact (hs.closed c hc hcl).2 u row hu hr
    · obtain ⟨u', row', hrow', he, hheld⟩ := hs.inv.event_row hc hm
      rw [hu] at hheld
      obtain rfl := Option.some.inj hheld
      have hr : s.pings[u]? = some row := hr
      rw [hrow'] at hr
      exact Option.some.inj hr ▸ he
  · obtain ⟨c, hc, rfl⟩ := List.mem_map.mp hd
    rw [released_pc, released_bPonged, released_bClosed]
    intro u hr hp hf
    rcases hs.set c hc u hr hp hf with h | h
    · exact Or.inl h
    · exact Or.inr (by rw [h, Bool.true_or])

theorem agrees_move {ok : PingHub → Prop} {s s' : PingHub} (h : PingMove ok (fun row => Heard processed row.hEvent) s s')
    (hs : HubAgrees processed s) : HubAgrees processed s' := by
  have hinv : PingInv s' := pingInv_move h hs.inv
  cases h with
  | same | tick | refuse | slice => exact ⟨hinv, hs.ponged, hs.closed, hs.rows, hs.set, hs.answers⟩
  | begin peer =>
    refine ⟨hinv, fun d hd => ?_, fun d hd => ?_, hs.rows, fun d hd => ?_, hs.answers⟩
    · rcases List.mem_append.mp hd with hd | hd
      · exact hs.ponged d hd
      · rw [List.mem_singleton.mp hd]
        exact fun h => Bool.noConfusion h
    · rcases List.mem_append.mp hd with hd | hd
      · exact hs.closed d hd
      · rw [List.mem_singleton.mp hd]
        exact fun h => Bool.noConfusion h
    · rcases List.mem_append.mp hd with hd | hd
      · exact hs.set d hd
      · rw [List.mem_singleton.mp hd]
        exact fun u hr h => PingPc.noConfusion h
  | turnAway hc hp hb => exact agrees_answer hs (fun u row hr => hr) fun hf => Bool.noConfusion hf
  | register hc hp hb hok => exact agrees_register hs hc hb hinv
  | @unposted c uId hr hc hp hf =>
    refine agrees_goto hs hc rfl (by rw [hp]; rfl) rfl rfl fun u hr' he hok => ?_
    obtain ⟨-, rfl⟩ := PingPc.leaving.inj he
    rw [hf] at hok
    cases hok
  | post hc hp => exact agrees_goto hs hc rfl (by rw [hp]; rfl) rfl rfl fun u hr he => PingPc.noConfusion he
  | wake hc hp hset => exact agrees_goto hs hc rfl (by rw [hp]; rfl) rfl rfl fun u hr he _ => hset
  | expire hc hp =>
    refine agrees_goto hs hc rfl (by rw [hp]; rfl) rfl rfl fun u hr he hok => ?_
    obtain ⟨-, rfl⟩ := PingPc.leaving.inj he
    cases hok
  | @leave c uId hr hc hp =>
    obtain ⟨hr', m, heq, -, hok⟩ := leave_eq c uId hr s
    rw [heq]
    refine agrees_answer hs (fun u row hrow => ?_) fun hf => ?_
    · exact (get_of_erase hrow).2
    · obtain ⟨rfl, row, hrow, hans⟩ := hok hf
      exact heard_leave hs hc hp hf hrow hans
  | pong hrow hb hh => exact agrees_pong hs hrow hh hinv
  | mark hopen => exact agrees_mark hs hinv

/-! ## The messages that carry an id -/

/-- A message that carries the id of a row is for the call of that row. -/
structure Matched (flight : List (SentMsg × PingId)) (s : PingHub) : Prop where
  carried : ∀ x ∈ flight, ∀ (uId : UInt32) (row : PingRow), x.1.Carries s.csAddress uId →
    s.pings[uId]? = some row → row.hEvent = x.2
  unposted : ∀ c ∈ s.calls, ∀ (uId : UInt32) (row : PingRow), c.pc = .registered uId →
    s.pings[uId]? = some row → row.hEvent = c.id

variable {flight : List (SentMsg × PingId)}

/-- Rows that name the same calls, and no call more with its message to post. -/
theorem matched_of {s s' : PingHub} (hm : Matched flight s) (ha : s'.oAddress = s.oAddress)
    (hp : ∀ (uId : UInt32) (row' : PingRow), s'.pings[uId]? = some row' →
      ∃ row : PingRow, s.pings[uId]? = some row ∧ row'.hEvent = row.hEvent)
    (hc : ∀ d ∈ s'.calls, ∀ uId, d.pc = .registered uId → ∃ c ∈ s.calls, c.pc = .registered uId ∧ c.id = d.id) :
    Matched flight s' := by
  constructor
  · intro x hx uId row' hcar hr
    obtain ⟨row, hrow, hev⟩ := hp uId row' hr
    rw [hev]
    exact hm.carried x hx uId row (by unfold PingHub.csAddress at *; rwa [ha] at hcar) hrow
  · intro d hd uId row' hpc hr
    obtain ⟨row, hrow, hev⟩ := hp uId row' hr
    obtain ⟨c, hmem, hcpc, hid⟩ := hc d hd uId hpc
    rw [hev, ← hid]
    exact hm.unposted c hmem uId row hcpc hrow

theorem matched_goto {s : PingHub} (hm : Matched flight s) {c c' : PingCall} (hpc : ∀ uId, c'.pc ≠ .registered uId) :
    Matched flight (s.goto c c') := by
  refine matched_of hm rfl (fun u row h => ⟨row, h, rfl⟩) fun d hd u hp => ?_
  rcases List.mem_append.mp hd with hd | hd
  · exact ⟨d, List.mem_of_mem_erase hd, hp, rfl⟩
  · rw [List.mem_singleton.mp hd] at hp
    exact absurd hp (hpc u)

theorem matched_move {heard : PingRow → Prop} {s s' : PingHub} (h : PingMove (PingHub.NextClear flight) heard s s')
    (hi : PingInv s) (hm : Matched flight s) : Matched flight s' := by
  have hsame (uId : UInt32) (row : PingRow) (h : s.pings[uId]? = some row) :
      ∃ row' : PingRow, s.pings[uId]? = some row' ∧ row.hEvent = row'.hEvent := ⟨row, h, rfl⟩
  cases h with
  | same | tick | refuse | slice => exact ⟨hm.carried, hm.unposted⟩
  | begin peer =>
    refine matched_of hm rfl hsame fun d hd u hp => ?_
    rcases List.mem_append.mp hd with hd | hd
    · exact ⟨d, hd, hp, rfl⟩
    · rw [List.mem_singleton.mp hd] at hp
      cases hp
  | turnAway => exact matched_of hm rfl hsame fun d hd u hp => ⟨d, List.mem_of_mem_erase hd, hp, rfl⟩
  | @register c hc hp hb hok =>
    obtain ⟨hflight, hcalls⟩ := hok
    constructor
    · intro x hx u row hcar hr
      rcases get_of_insert hr with ⟨rfl, -⟩ | ⟨-, hr⟩
      · exact absurd hcar (hflight x hx)
      · exact hm.carried x hx u row hcar hr
    · intro d hd u row hpc hr
      simp only [get_insert] at hr
      rcases goto_calls hi.ids hc hd with ⟨hd, -⟩ | rfl
      · have hne : s.uNextPingId + 1 ≠ u := fun he => hcalls d hd (he ▸ hpc)
        rw [if_neg hne] at hr
        exact hm.unposted d hd u row hpc hr
      · rw [if_pos (PingPc.registered.inj hpc)] at hr
        rw [← Option.some.inj hr]
  | unposted | post | wake | expire => exact matched_goto hm fun u => PingPc.noConfusion
  | @leave c uId hr hc hp =>
    obtain ⟨hr', m, heq, -⟩ := leave_eq c uId hr s
    rw [heq]
    refine matched_of hm rfl (fun u row hrow => ?_) fun d hd u hp => ⟨d, List.mem_of_mem_erase hd, hp, rfl⟩
    exact ⟨row, (get_of_erase hrow).2, rfl⟩
  | @pong uId row hrow hb hh =>
    refine matched_of hm rfl (fun u row' hr => ?_) fun d hd u hp => ?_
    · rcases get_of_insert hr with ⟨rfl, rfl⟩ | ⟨-, hr⟩
      · exact ⟨row, hrow, rfl⟩
      · exact ⟨row', hr, rfl⟩
    · obtain ⟨c, hc, rfl⟩ := List.mem_map.mp hd
      rw [ponged_pc] at hp
      exact ⟨c, hc, hp, (ponged_id _ c).symm⟩
  | mark =>
    refine matched_of hm rfl hsame fun d hd u hp => ?_
    obtain ⟨c, hc, rfl⟩ := List.mem_map.mp hd
    rw [released_pc] at hp
    exact ⟨c, hc, hp, (released_id _ c).symm⟩

/-- A call posts its own ping, under the id it registered. -/
theorem mem_posts {s : PingHub} {e : PingEv} {x : SentMsg × PingId} (h : x ∈ e.posts s) :
    ∃ c env bExpired uId, e = .client c env bExpired ∧ c ∈ s.calls ∧ c.pc = .registered uId ∧
      x = (msgPing s.csAddress c.id.peer uId, c.id) := by
  unfold PingEv.posts at h
  cases e with
  | client c env bExpired =>
    simp only at h
    split at h
    case isFalse => cases h
    rename_i hc
    cases hp : c.pc with
    | registered uId =>
      rw [hp] at h
      obtain ⟨o, ho, rfl⟩ := List.mem_map.mp h
      refine ⟨c, env, bExpired, uId, rfl, hc, hp, ?_⟩
      rw [mem_postMsg ho, Option.getD_some, List.take_length]
      rfl
    | _ => rw [hp] at h; cases h
  | _ => cases h

theorem mem_pongs {env : PostEnv} {csAddress strTo : WStr} {aData : List UInt8} {m : SentMsg}
    (h : m ∈ pongs env csAddress strTo aData) : m = ⟨csAddress, strTo, kTopicPong, aData, none⟩ := by
  obtain ⟨o, ho, rfl⟩ := List.mem_map.mp h
  rw [mem_postMsg ho, Option.getD_some, List.take_length]

theorem carries_ping {csAddress peer a : WStr} {uPingId uId : UInt32} (h : (msgPing csAddress peer uPingId).Carries a uId) :
    csAddress = a ∧ uPingId = uId := by
  obtain ⟨hid, hside⟩ := h
  rcases hside with ⟨-, hsrc⟩ | ⟨hname, -⟩
  · exact ⟨hsrc, (bodyId_idBody uPingId).symm.trans hid⟩
  · exact absurd (show kTopicPing = kTopicPong from hname) (by decide)

/-- The answer carries what the ping did. -/
theorem carries_pong {csAddress a : WStr} {m : SentMsg} {uId : UInt32} (hname : m.oMsg.strName = kTopicPing)
    (h : SentMsg.Carries a uId ⟨csAddress, m.strSource, kTopicPong, m.oMsg.aData, none⟩) : m.Carries a uId := by
  obtain ⟨hid, hside⟩ := h
  rcases hside with ⟨hping, -⟩ | ⟨-, hdest⟩
  · exact absurd (show kTopicPong = kTopicPing from hping) (by decide)
  · exact ⟨hid, Or.inl ⟨hname, hdest⟩⟩

/-! ## The net -/

/-- A ping is on its way to the peer its call asks, and a pong comes from there. -/
def Sound (processed : List (PingId × WStr)) (x : SentMsg × PingId) : Prop :=
  (x.1.oMsg.strName = kTopicPing → x.1.oMsg.strDest = x.2.peer) ∧ (x.1.oMsg.strName = kTopicPong → Heard processed x.2)

structure NetAgrees (n : PingNet) : Prop where
  keyed : ∀ (a : WStr) (s : PingHub), n.hubs[a]? = some s → s.csAddress = a
  hubs : ∀ (a : WStr) (s : PingHub), n.hubs[a]? = some s → HubAgrees n.processed s
  matched : ∀ (a : WStr) (s : PingHub), n.hubs[a]? = some s → Matched n.flight s
  sound : ∀ x ∈ n.flight, Sound n.processed x

theorem Matched.mono {flight' : List (SentMsg × PingId)} {s : PingHub} (hm : Matched flight s)
    (h : ∀ x ∈ flight', ∀ uId, x.1.Carries s.csAddress uId → ∃ y ∈ flight, y.2 = x.2 ∧ y.1.Carries s.csAddress uId) :
    Matched flight' s := by
  refine ⟨fun x hx uId row hcar hr => ?_, hm.unposted⟩
  obtain ⟨y, hy, hid, hcar'⟩ := h x hx uId hcar
  exact (hm.carried y hy uId row hcar' hr).trans hid

theorem netAgrees_empty : NetAgrees .empty := by
  have hnone (a : WStr) (s : PingHub) (h : PingNet.empty.hubs[a]? = some s) : False := by
    have h0 : PingNet.empty.hubs[a]? = none := Std.ExtTreeMap.getElem?_empty
    rw [h0] at h
    cases h
  exact ⟨fun a s h => (hnone a s h).elim, fun a s h => (hnone a s h).elim, fun a s h => (hnone a s h).elim,
    fun x hx => absurd hx List.not_mem_nil⟩

/-- Messages that are gone. -/
theorem netAgrees_erase {n : PingNet} (hn : NetAgrees n) (x : SentMsg × PingId) :
    NetAgrees { n with flight := n.flight.erase x } :=
  ⟨hn.keyed, hn.hubs, fun a s h => (hn.matched a s h).mono fun y hy _ hcar => ⟨y, List.mem_of_mem_erase hy, rfl, hcar⟩,
    fun y hy => hn.sound y (List.mem_of_mem_erase hy)⟩

/-- One hub moves, and posts what only it carries. -/
theorem netAgrees_hub {n : PingNet} (hn : NetAgrees n) {a : WStr} {s' : PingHub} {flight' : List (SentMsg × PingId)}
    (ha : s'.csAddress = a) (hs : HubAgrees n.processed s') (hm : Matched flight' s')
    (hl : ∀ x ∈ flight', x ∈ n.flight ∨ Sound n.processed x ∧ ∀ b uId, x.1.Carries b uId → a = b) :
    NetAgrees { n with hubs := n.hubs.insert a s', flight := flight' } := by
  refine ⟨fun b t ht => ?_, fun b t ht => ?_, fun b t ht => ?_, fun x hx => ?_⟩
  · rcases get_of_insert ht with ⟨he, rfl⟩ | ⟨-, ht⟩
    · rw [ha, he]
    · exact hn.keyed b t ht
  · rcases get_of_insert ht with ⟨-, rfl⟩ | ⟨-, ht⟩
    · exact hs
    · exact hn.hubs b t ht
  · rcases get_of_insert ht with ⟨-, rfl⟩ | ⟨hne, ht⟩
    · exact hm
    · refine (hn.matched b t ht).mono fun x hx uId hcar => ?_
      rcases hl x hx with hx | ⟨-, honly⟩
      · exact ⟨x, hx, rfl, hcar⟩
      · exact absurd ((honly _ uId hcar).trans (hn.keyed b t ht)) hne
  · rcases hl x hx with hx | ⟨hsound, -⟩
    · exact hn.sound x hx
    · exact hsound

/-- A hub hears a ping and posts the pong. -/
theorem netAgrees_echo {n : PingNet} (hn : NetAgrees n) {m : SentMsg} {id : PingId} (hx : (m, id) ∈ n.flight)
    (hname : m.oMsg.strName = kTopicPing) (env : PostEnv) :
    NetAgrees { n with
      flight := n.flight.erase (m, id) ++ (pongs env m.oMsg.strDest m.strSource m.oMsg.aData).map (·, id)
      processed := n.processed ++ [(id, m.oMsg.strDest)] } := by
  have hpong : ∀ y ∈ (pongs env m.oMsg.strDest m.strSource m.oMsg.aData).map (·, id),
      y = ((⟨m.oMsg.strDest, m.strSource, kTopicPong, m.oMsg.aData, none⟩ : SentMsg), id) := by
    intro y hy
    obtain ⟨p, hp, rfl⟩ := List.mem_map.mp hy
    rw [mem_pongs hp]
  have hpeer : m.oMsg.strDest = id.peer := (hn.sound _ hx).1 hname
  refine ⟨hn.keyed, fun a s h => (hn.hubs a s h).mono _, fun a s h => (hn.matched a s h).mono fun y hy uId hcar => ?_,
    fun y hy => ?_⟩
  · rcases List.mem_append.mp hy with hy | hy
    · exact ⟨y, List.mem_of_mem_erase hy, rfl, hcar⟩
    · obtain rfl := hpong y hy
      exact ⟨(m, id), hx, rfl, carries_pong hname hcar⟩
  · rcases List.mem_append.mp hy with hy | hy
    · obtain ⟨hto, hfrom⟩ := hn.sound y (List.mem_of_mem_erase hy)
      exact ⟨hto, fun h => (hfrom h).mono _⟩
    · obtain rfl := hpong y hy
      refine ⟨fun h => absurd (show kTopicPong = kTopicPing from h) (by decide), fun _ => ?_⟩
      rw [hpeer]
      exact List.mem_append_right _ (List.mem_singleton.mpr rfl)

theorem address_pingMove {ok : PingHub → Prop} {heard : PingRow → Prop} {s s' : PingHub} (h : PingMove ok heard s s') :
    s'.oAddress = s.oAddress := by
  cases h with
  | @leave c uId hr hc hp =>
    obtain ⟨hr', m, heq, -⟩ := leave_eq c uId hr s
    rw [heq]
    rfl
  | _ => rfl

/-- A step of a hub that no message asks for. -/
theorem netAgrees_own {n : PingNet} (hn : NetAgrees n) {a : WStr} {s : PingHub} (h : n.hubs[a]? = some s) {e : PingEv}
    (he : e.isAnswer = false) (hclear : e.Registers s → s.NextClear n.flight) :
    NetAgrees { n with hubs := n.hubs.insert a (pingStep s e), flight := n.flight ++ e.posts s } := by
  have hs := hn.hubs a s h
  have hkey := hn.keyed a s h
  have hmove : PingMove (PingHub.NextClear n.flight) (fun row => Heard n.processed row.hEvent) s (pingStep s e) := by
    refine pingStep_move s e hclear fun uId hpong => ?_
    rw [hpong] at he
    cases he
  have hm := matched_move hmove hs.inv (hn.matched a s h)
  refine netAgrees_hub hn (by rw [PingHub.csAddress, address_pingMove hmove]; exact hkey) (agrees_move hmove hs) ?_ ?_
  · refine ⟨fun x hx u row hcar hr => ?_, hm.unposted⟩
    rcases List.mem_append.mp hx with hx | hx
    · exact hm.carried x hx u row hcar hr
    · obtain ⟨c, env, bExpired, uId, rfl, hc, hp, rfl⟩ := mem_posts hx
      have hpings : (pingStep s (.client c env bExpired)).pings = s.pings := by
        show PingHub.pings (if c ∈ s.calls then pingClient env bExpired s c else s) = s.pings
        rw [if_pos hc]
        unfold pingClient
        rw [hp]
        rfl
      obtain ⟨-, rfl⟩ := carries_ping hcar
      rw [hpings] at hr
      exact (hn.matched a s h).unposted c hc uId row hp hr
  · intro x hx
    rcases List.mem_append.mp hx with hx | hx
    · exact Or.inl hx
    · obtain ⟨c, env, bExpired, uId, rfl, hc, hp, rfl⟩ := mem_posts hx
      refine Or.inr ⟨⟨fun _ => rfl, fun h => absurd (show kTopicPing = kTopicPong from h) (by decide)⟩, fun b u hcar => ?_⟩
      exact hkey ▸ (carries_ping hcar).1

/-- A hub takes a message that has reached it. -/
theorem netAgrees_take {n : PingNet} (hn : NetAgrees n) {m : SentMsg} {id : PingId} (hx : (m, id) ∈ n.flight) {s : PingHub}
    (h : n.hubs[m.oMsg.strDest]? = some s) (env : PostEnv) :
    NetAgrees (takeMsg { n with flight := n.flight.erase (m, id) } s m id env) := by
  have hs := hn.hubs _ s h
  have hkey := hn.keyed _ s h
  unfold takeMsg
  split
  · rename_i strTo aData hw
    obtain ⟨hname, rfl, rfl⟩ := echo_work hw
    rw [hkey]
    exact netAgrees_echo hn hx hname env
  · rename_i uPingId hw
    obtain ⟨hname, hid⟩ := pong_work hw
    have hcar : m.Carries s.csAddress uPingId := ⟨hid, Or.inr ⟨hname, hkey.symm⟩⟩
    have hmove : PingMove (PingHub.NextClear n.flight) (fun row => Heard n.processed row.hEvent) s (HandlePong uPingId s) := by
      refine pongMove fun row hrow => ?_
      rw [(hn.matched _ s h).carried _ hx uPingId row hcar hrow]
      exact (hn.sound _ hx).2 hname
    have hm := matched_move hmove hs.inv (hn.matched _ s h)
    refine netAgrees_hub (a := s.csAddress) hn (by rw [PingHub.csAddress, address_pingMove hmove]; rfl) (agrees_move hmove hs)
      (hm.mono fun y hy uId hcar => ⟨y, List.mem_of_mem_erase hy, rfl, hcar⟩) fun y hy => Or.inl (List.mem_of_mem_erase hy)
  · exact netAgrees_erase hn _

theorem netAgrees_step (n : PingNet) (e : PingNetEv) (hn : NetAgrees n) (hclear : e.Clear n) : NetAgrees (pingNetStep n e) := by
  cases e with
  | create oAddress now =>
    unfold pingNetStep
    simp only
    split
    · exact hn
    · have hnone (uId : UInt32) : (PingHub.created n.nHubs oAddress now).pings[uId]? = none := Std.ExtTreeMap.getElem?_empty
      have hs : HubAgrees n.processed (.created n.nHubs oAddress now) :=
        ⟨pingInv_created _ _ _, fun c hc => absurd hc List.not_mem_nil, fun c hc => absurd hc List.not_mem_nil,
          fun u row hr => absurd (hr.symm.trans (hnone u)) (Option.some_ne_none row), fun c hc => absurd hc List.not_mem_nil,
          fun x hx => absurd hx List.not_mem_nil⟩
      have hm : Matched n.flight (.created n.nHubs oAddress now) :=
        ⟨fun x hx u row hcar hr => absurd (hr.symm.trans (hnone u)) (Option.some_ne_none row),
          fun c hc => absurd hc List.not_mem_nil⟩
      have hnet := netAgrees_hub hn (a := oAddress.1) rfl hs hm fun x hx => Or.inl hx
      exact ⟨hnet.keyed, hnet.hubs, hnet.matched, hnet.sound⟩
  | hub a e =>
    unfold pingNetStep
    simp only
    split
    · exact hn
    rename_i s h
    split
    · exact hn
    · rename_i he
      exact netAgrees_own hn h (Bool.eq_false_iff.mpr he) (hclear s h)
  | destroy a =>
    unfold pingNetStep
    simp only
    split
    · exact hn
    split
    · have hthere (b : WStr) (t : PingHub) (ht : (n.hubs.erase a)[b]? = some t) : n.hubs[b]? = some t := (get_of_erase ht).2
      exact ⟨fun b t ht => hn.keyed b t (hthere b t ht), fun b t ht => hn.hubs b t (hthere b t ht),
        fun b t ht => hn.matched b t (hthere b t ht), hn.sound⟩
    · exact hn
  | take m id env =>
    unfold pingNetStep
    simp only
    split
    case isFalse => exact hn
    rename_i hx
    split
    · exact netAgrees_erase hn _
    · rename_i s h
      exact netAgrees_take hn hx h env
  | lose m id => exact netAgrees_erase hn _

/-- As long as a Ping takes a clear id, one that answers S_OK was heard by its peer. -/
theorem ping_agreement (es : List PingNetEv) (h : Each pingNetStep PingNetEv.Clear .empty es) :
    Always pingNetStep PingAgrees .empty es := by
  have hnet : Always pingNetStep NetAgrees .empty es := always_of_each netAgrees_step netAgrees_empty h
  refine hnet.mono fun n hn a s ha x hx hok => ?_
  exact (hn.hubs a s ha).answers x hx (by rw [hok]; rfl)

def peerAddress : HubAddress := ⟨askedPeer, by decide⟩

/-- The first Ping of the hub at `hub`. -/
def firstPing (pc : PingPc) (bPonged : Bool) : PingCall := ⟨⟨0, 0, askedPeer⟩, pc, bPonged, false, true⟩

/-- The peer has taken it, and its answer is on the way. -/
def heardRun : List PingNetEv :=
  [.create hubAddress 0, .create peerAddress 0] ++ waitingRun.map (.hub (L "hub")) ++
    [.take (msgPing (L "hub") askedPeer 1) ⟨0, 0, askedPeer⟩ {}]

def answeredRun : List PingNetEv :=
  heardRun ++ [.take (msgPong askedPeer (L "hub") 1) ⟨0, 0, askedPeer⟩ {},
    .hub (L "hub") (.client (firstPing (.waiting 1) true) {} false),
    .hub (L "hub") (.client (firstPing (.leaving 1 S_OK) true) {} false)]

theorem ping_agreement_answered : PingAgrees (exec pingNetStep .empty answeredRun) ∧
    ((exec pingNetStep .empty answeredRun).hubs[L "hub"]?.map (·.answers)) =
      some [⟨firstPing (.leaving 1 S_OK) true, S_OK, 0⟩] := by
  have h : Each pingNetStep PingNetEv.Clear .empty answeredRun := by
    simp only [answeredRun, heardRun, waitingRun, List.map_cons, List.map_nil, List.cons_append, List.nil_append, each_cons,
      each_nil, and_true]
    refine ⟨trivial, trivial, ?_, ?_, ?_, trivial, trivial, ?_, ?_⟩ <;> intro s hs hreg
    · exact hreg.elim
    · obtain rfl := Option.some.inj hs
      constructor
      · decide +kernel
      · decide +kernel
    · exact absurd hreg.2.1 PingPc.noConfusion
    · exact absurd hreg.2.1 PingPc.noConfusion
    · exact absurd hreg.2.1 PingPc.noConfusion
  exact ⟨(ping_agreement answeredRun h).last, by decide +kernel⟩

/-! ## A pong for a hub that is gone -/

def otherPeer : WStr := L "other"

/-- The Ping of the hub that comes after it at the same address. -/
def secondPing (pc : PingPc) (bPonged bPosted : Bool) : PingCall := ⟨⟨2, 0, otherPeer⟩, pc, bPonged, false, bPosted⟩

/-- The first Ping runs out of time, its hub is closed and another created, and that hub pings a peer nobody has. -/
def staleRun : List PingNetEv :=
  heardRun ++ [.hub (L "hub") (.client (firstPing (.waiting 1) false) {} true),
    .hub (L "hub") (.client (firstPing (.leaving 1 .P2PF_E_TIMEOUT) false) {} false),
    .hub (L "hub") .close, .hub (L "hub") .slice, .destroy (L "hub"), .create hubAddress 0,
    .hub (L "hub") (.begin (some otherPeer) true false true),
    .hub (L "hub") (.client (secondPing .checked false false) {} false),
    .hub (L "hub") (.client (secondPing (.registered 1) false false) {} false),
    .take (msgPong askedPeer (L "hub") 1) ⟨0, 0, askedPeer⟩ {},
    .hub (L "hub") (.client (secondPing (.waiting 1) true true) {} false),
    .hub (L "hub") (.client (secondPing (.leaving 1 S_OK) true true) {} false)]

theorem stale_answers : (exec pingNetStep .empty staleRun).hubs[L "hub"]?.map (·.answers) =
    some [⟨secondPing (.leaving 1 S_OK) true true, S_OK, 0⟩] := by decide +kernel

theorem stale_processed : (exec pingNetStep .empty staleRun).processed = [(⟨0, 0, askedPeer⟩, askedPeer)] := by decide +kernel

theorem stale_pong : ¬ ∀ es, Always pingNetStep PingAgrees .empty es := by
  intro h
  have hagrees := (h staleRun).last
  obtain ⟨s, hs, hans⟩ := Option.map_eq_some_iff.mp stale_answers
  have hheard := hagrees _ s hs _ (by rw [hans]; exact List.mem_singleton.mpr rfl) rfl
  rw [Heard, stale_processed] at hheard
  revert hheard
  decide

end TargetFacade
