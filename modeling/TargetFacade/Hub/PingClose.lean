/-
  TargetFacade.Hub.PingClose — Ping and Close over every interleaving of them on one hub
  (FacadeHub.cpp: CloseInternal, Ping).

  As long as no Ping takes an id that another still holds, a call between writing its row and
  taking it out has that row in the map, and the row says whether its event was set by an answer
  (`RowsHeld`). So when the drain loop sees the map empty no call is in between, and since the mark
  was set first no call gets there any more.
-/

import TargetFacade.Hub.PingMoves

namespace TargetFacade

open OrdMap Runs Bag

/-- The next id is held by no call. -/
def PingHub.Unheld (s : PingHub) : Prop := ∀ d ∈ s.calls, d.pc.held ≠ some (s.uNextPingId + 1)

/-- A Ping that writes its row takes an id that no other call holds. -/
def PingEv.TakesUnheld (s : PingHub) (e : PingEv) : Prop := e.Registers s → s.Unheld

structure RowsHeld (s : PingHub) : Prop where
  fresh : ∀ c ∈ s.calls, c.pc = .checked → c.bPonged = false ∧ c.bClosed = false
  row : ∀ c ∈ s.calls, ∀ uId, c.pc.held = some uId →
    ∃ row, s.pings[uId]? = some row ∧ row.hEvent = c.id ∧ row.bAnswered = c.bPonged

theorem rowsHeld_goto {s : PingHub} (hi : PingInv s) (hr : RowsHeld s) {c c' : PingCall} (hc : c ∈ s.calls)
    (hid : c'.id = c.id) (hheld : c'.pc.held = c.pc.held) (hpong : c'.bPonged = c.bPonged) (hpc : c'.pc ≠ .checked) :
    RowsHeld (s.goto c c') := by
  constructor
  · intro d hd hp
    rcases goto_calls hi.ids hc hd with ⟨hd, -⟩ | rfl
    · exact hr.fresh d hd hp
    · exact absurd hp hpc
  · intro d hd uId hu
    rcases goto_calls hi.ids hc hd with ⟨hd, -⟩ | rfl
    · exact hr.row d hd uId hu
    · rw [hid, hpong]
      exact hr.row c hc uId (hheld ▸ hu)

theorem rowsHeld_move {s s' : PingHub} (h : PingMove PingHub.Unheld (fun _ => True) s s') (hi : PingInv s) (hr : RowsHeld s) :
    RowsHeld s' := by
  cases h with
  | same | tick | refuse | slice => exact ⟨hr.fresh, hr.row⟩
  | begin peer =>
    constructor
    · intro c hc hp
      rcases List.mem_append.mp hc with hc | hc
      · exact hr.fresh c hc hp
      · rw [List.mem_singleton.mp hc]
        exact ⟨rfl, rfl⟩
    · intro c hc uId hu
      rcases List.mem_append.mp hc with hc | hc
      · exact hr.row c hc uId hu
      · rw [List.mem_singleton.mp hc] at hu
        cases hu
  | turnAway hc hp hb =>
    exact ⟨fun d hd => hr.fresh d (List.mem_of_mem_erase hd), fun d hd => hr.row d (List.mem_of_mem_erase hd)⟩
  | @register c hc hp hb hok =>
    constructor
    · intro d hd hdp
      rcases goto_calls hi.ids hc hd with ⟨hd, -⟩ | rfl
      · exact hr.fresh d hd hdp
      · cases hdp
    · intro d hd uId hu
      simp only [get_insert]
      rcases goto_calls hi.ids hc hd with ⟨hd, -⟩ | rfl
      · have hne : s.uNextPingId + 1 ≠ uId := fun he => hok d hd (he ▸ hu)
        rw [if_neg hne]
        exact hr.row d hd uId hu
      · rw [if_pos (Option.some.inj hu)]
        exact ⟨_, rfl, rfl, (hr.fresh c hc hp).1.symm⟩
  | unposted hc hp | post hc hp | wake hc hp | expire hc hp =>
    exact rowsHeld_goto hi hr hc rfl (by rw [hp]; rfl) rfl PingPc.noConfusion
  | @leave c uId hr' hc hp =>
    obtain ⟨hr'', m, heq, -⟩ := leave_eq c uId hr' s
    rw [heq]
    constructor
    · exact fun d hd => hr.fresh d (List.mem_of_mem_erase hd)
    · intro d hd u hu
      obtain ⟨hd, hne⟩ := erase_ids hi.ids hc hd
      obtain ⟨row, hrow, hev, hans⟩ := hr.row d hd u hu
      have hu' : uId ≠ u := by
        intro he
        obtain ⟨row', hrow', hev', -⟩ := hr.row c hc uId (by rw [hp]; rfl)
        rw [he, hrow] at hrow'
        obtain rfl := Option.some.inj hrow'
        exact hne (hev.symm.trans hev')
      refine ⟨row, ?_, hev, hans⟩
      simp only [PingHub.answer, get_erase, hu', if_false]
      exact hrow
  | @pong uId row hrow hb hh =>
    constructor
    · intro d hd hp
      obtain ⟨c, hc, rfl⟩ := List.mem_map.mp hd
      rw [ponged_pc] at hp
      have hne : c.id ≠ row.hEvent := by
        intro he
        have hheld := hi.owner uId row hrow c hc he
        rw [hp] at hheld
        cases hheld
      rw [ponged_bPonged, ponged_bClosed, decide_eq_false hne, Bool.or_false]
      exact hr.fresh c hc hp
    · intro d hd u hu
      obtain ⟨c, hc, rfl⟩ := List.mem_map.mp hd
      rw [ponged_pc] at hu
      obtain ⟨row₀, hrow₀, hev, hans⟩ := hr.row c hc u hu
      rw [ponged_id, ponged_bPonged]
      simp only [get_insert]
      by_cases he : uId = u
      · subst he
        obtain rfl := Option.some.inj (hrow.symm.trans hrow₀)
        rw [if_pos rfl, decide_eq_true hev.symm, Bool.or_true]
        exact ⟨_, rfl, hev, rfl⟩
      · have hne : c.id ≠ row.hEvent := by
          intro heq
          have hheld := hi.owner uId row hrow c hc heq
          exact he (Option.some.inj (hheld.symm.trans hu))
        rw [if_neg he, decide_eq_false hne, Bool.or_false]
        exact ⟨row₀, hrow₀, hev, hans⟩
  | mark =>
    constructor
    · intro d hd hp
      obtain ⟨c, hc, rfl⟩ := List.mem_map.mp hd
      rw [released_pc] at hp
      have hne : c.id ∉ s.events := by
        intro hm
        obtain ⟨uId, row, -, -, hheld⟩ := hi.event_row hc hm
        rw [hp] at hheld
        cases hheld
      rw [released_bPonged, released_bClosed, decide_eq_false hne, Bool.or_false]
      exact hr.fresh c hc hp
    · intro d hd uId hu
      obtain ⟨c, hc, rfl⟩ := List.mem_map.mp hd
      rw [released_pc] at hu
      rw [released_id, released_bPonged]
      exact hr.row c hc uId hu

/-! ## The answers and the drain -/

/-- A call whose post went out fails only by running out of time. -/
def PingCall.TimesOut (c : PingCall) : Prop :=
  ∀ uId hr, c.pc = .leaving uId hr → FAILED hr = true → c.bPosted = true → hr = .P2PF_E_TIMEOUT

/-- An answer to a call whose event only the close has set: never a success, and the time-out unless its own
    post had failed. -/
def PingAnswer.Released (a : PingAnswer) : Prop :=
  a.call.bClosed = true → a.call.bPonged = false →
    FAILED a.hr = true ∧ (a.call.bPosted = true → a.hr = .P2PF_E_TIMEOUT)

/-- Its message is still to post. -/
def PingPc.Unposted : PingPc → Prop
  | .checked | .registered _ => True
  | .waiting _ | .leaving _ _ => False

structure Drained (s : PingHub) : Prop where
  closing : s.drain ≠ .open_ → s.bClosing = true
  empty : s.drain = .drained → s.pings.isEmpty = true
  posted : ∀ c ∈ s.calls, c.pc.Unposted → c.bPosted = false
  timesOut : ∀ c ∈ s.calls, c.TimesOut
  answers : ∀ a ∈ s.answers, a.Released

theorem drained_goto {s : PingHub} (hd : Drained s) {c c' : PingCall} (hp : c'.pc.Unposted → c'.bPosted = false)
    (ht : c'.TimesOut) : Drained (s.goto c c') := by
  refine ⟨hd.closing, hd.empty, fun d hm => ?_, fun d hm => ?_, hd.answers⟩
  · rcases List.mem_append.mp hm with hm | hm
    · exact hd.posted d (List.mem_of_mem_erase hm)
    · rw [List.mem_singleton.mp hm]
      exact hp
  · rcases List.mem_append.mp hm with hm | hm
    · exact hd.timesOut d (List.mem_of_mem_erase hm)
    · rw [List.mem_singleton.mp hm]
      exact ht

theorem drained_answer {s : PingHub} (hd : Drained s) {c : PingCall} {hr : HRESULT} {m : UInt32}
    (ha : (⟨c, hr, m⟩ : PingAnswer).Released) : Drained (s.answer c hr m) := by
  refine ⟨hd.closing, hd.empty, fun d hm => hd.posted d (List.mem_of_mem_erase hm),
    fun d hm => hd.timesOut d (List.mem_of_mem_erase hm), fun a hm => ?_⟩
  rcases List.mem_append.mp hm with hm | hm
  · exact hd.answers a hm
  · rw [List.mem_singleton.mp hm]
    exact ha

theorem drained_flags {s s' : PingHub} (hd : Drained s) {f : PingCall → PingCall} (hcalls : s'.calls = s.calls.map f)
    (hpc : ∀ c, (f c).pc = c.pc) (hposted : ∀ c, (f c).bPosted = c.bPosted) (hans : s'.answers = s.answers)
    (hclosing : s'.drain ≠ .open_ → s'.bClosing = true) (hempty : s'.drain = .drained → s'.pings.isEmpty = true) :
    Drained s' := by
  refine ⟨hclosing, hempty, fun d hm => ?_, fun d hm => ?_, hans ▸ hd.answers⟩
  · rw [hcalls] at hm
    obtain ⟨c, hc, rfl⟩ := List.mem_map.mp hm
    rw [hpc, hposted]
    exact hd.posted c hc
  · rw [hcalls] at hm
    obtain ⟨c, hc, rfl⟩ := List.mem_map.mp hm
    unfold PingCall.TimesOut
    rw [hpc, hposted]
    exact hd.timesOut c hc

/-- What a call that leaves answers. -/
theorem released_leave {s : PingHub} (hr : RowsHeld s) (hd : Drained s) {c : PingCall} {uId : UInt32} {hrw hr' : HRESULT}
    {m : UInt32} (hc : c ∈ s.calls) (hp : c.pc = .leaving uId hrw) (hcases : hr' = hrw ∨ hr' = .P2PF_E_TIMEOUT)
    (hok : FAILED hr' = false → hr' = hrw ∧ ∃ row : PingRow, s.pings[uId]? = some row ∧ row.bAnswered = true) :
    (⟨c, hr', m⟩ : PingAnswer).Released := by
  intro _ hpong
  have hfail : FAILED hr' = true := by
    cases hf : FAILED hr' with
    | true => rfl
    | false =>
      obtain ⟨-, row, hrow, hans⟩ := hok hf
      obtain ⟨row', hrow', -, hans'⟩ := hr.row c hc uId (by rw [hp]; rfl)
      rw [hrow] at hrow'
      obtain rfl := Option.some.inj hrow'
      rw [hans, hpong] at hans'
      cases hans'
  refine ⟨hfail, fun hposted => ?_⟩
  rcases hcases with rfl | h
  · exact hd.timesOut c hc uId hr' hp hfail hposted
  · exact h

theorem drained_move {s s' : PingHub} (h : PingMove PingHub.Unheld (fun _ => True) s s') (hr : RowsHeld s) (hd : Drained s) :
    Drained s' := by
  cases h with
  | same | tick | refuse => exact ⟨hd.closing, hd.empty, hd.posted, hd.timesOut, hd.answers⟩
  | begin peer =>
    refine ⟨hd.closing, hd.empty, fun d hm => ?_, fun d hm => ?_, hd.answers⟩
    · rcases List.mem_append.mp hm with hm | hm
      · exact hd.posted d hm
      · rw [List.mem_singleton.mp hm]
        exact fun _ => rfl
    · rcases List.mem_append.mp hm with hm | hm
      · exact hd.timesOut d hm
      · rw [List.mem_singleton.mp hm]
        exact fun uId hr hp => PingPc.noConfusion hp
  | turnAway hc hp hb => exact drained_answer hd fun hclosed => absurd hclosed (by simp [(hr.fresh _ hc hp).2])
  | @register c hc hp hb hok =>
    have hopen : s.drain = .open_ := Classical.not_not.mp fun hne => by rw [hd.closing hne] at hb; cases hb
    have hgoto : Drained (s.goto c { c with pc := .registered (s.uNextPingId + 1) }) :=
      drained_goto hd (fun _ => hd.posted c hc (by rw [hp]; trivial)) fun uId hr he => PingPc.noConfusion he
    refine ⟨hgoto.closing, fun he => ?_, hgoto.posted, hgoto.timesOut, hd.answers⟩
    have he : s.drain = .drained := he
    rw [hopen] at he
    cases he
  | @unposted c uId hr' hc hp hf =>
    have hposted := hd.posted c hc (by rw [hp]; trivial)
    refine drained_goto hd (fun h => h.elim) fun u hr'' he _ hb => ?_
    rw [hposted] at hb
    cases hb
  | post hc hp => exact drained_goto hd (fun h => h.elim) fun u hr'' he => PingPc.noConfusion he
  | wake hc hp hset =>
    refine drained_goto hd (fun h => h.elim) fun u hr'' he hf _ => ?_
    obtain ⟨-, rfl⟩ := PingPc.leaving.inj he
    cases hf
  | expire hc hp =>
    refine drained_goto hd (fun h => h.elim) fun u hr'' he _ _ => ?_
    exact (PingPc.leaving.inj he).2.symm
  | @leave c uId hr' hc hp =>
    obtain ⟨hr'', m, heq, hcases, hok⟩ := leave_eq c uId hr' s
    rw [heq]
    have hans := drained_answer hd (released_leave hr hd hc hp hcases hok (m := m))
    refine ⟨hans.closing, fun he => ?_, hans.posted, hans.timesOut, hans.answers⟩
    have hempty := isEmpty_iff_get.mp (hd.empty he)
    refine isEmpty_iff_get.mpr fun a => ?_
    simp only [PingHub.answer, get_erase, hempty, ite_self]
  | @pong uId row hrow hb hh =>
    refine drained_flags hd rfl (ponged_pc _) (ponged_bPosted _) rfl hd.closing fun he => ?_
    have hempty := isEmpty_iff_get.mp (hd.empty he) uId
    rw [hrow] at hempty
    cases hempty
  | mark => exact drained_flags hd rfl (released_pc _) (released_bPosted _) rfl (fun _ => rfl) fun he => DrainPc.noConfusion he
  | slice h0 hempty =>
    exact ⟨fun _ => hd.closing (by rw [h0]; exact DrainPc.noConfusion), hempty, hd.posted, hd.timesOut, hd.answers⟩

/-! ## After the drain -/

/-- No call is in between any more. -/
def PingHub.Out (s : PingHub) : Prop := s.drain = .drained ∧ s.bClosing = true ∧ ∀ c ∈ s.calls, c.pc = .checked

/-- Nothing but refusals happens to Pings once none is in between. -/
structure After (s₀ s : PingHub) : Prop where
  out : s.Out
  pings : s.pings = s₀.pings
  answers : ∃ l, s.answers = s₀.answers ++ l ∧ ∀ a ∈ l, a.hr = P2PF_E_CLOSED

theorem after_move {s₀ s s' : PingHub} (h : PingMove (fun _ => True) (fun _ => True) s s') (hempty : s₀.pings.isEmpty = true)
    (ha : After s₀ s) : After s₀ s' := by
  obtain ⟨⟨hdrain, hclosing, hcalls⟩, hpings, l, hl, hclosed⟩ := ha
  cases h with
  | same | tick | refuse => exact ⟨⟨hdrain, hclosing, hcalls⟩, hpings, l, hl, hclosed⟩
  | begin peer =>
    refine ⟨⟨hdrain, hclosing, fun c hc => ?_⟩, hpings, l, hl, hclosed⟩
    rcases List.mem_append.mp hc with hc | hc
    · exact hcalls c hc
    · rw [List.mem_singleton.mp hc]
  | @turnAway c hc hp hb =>
    refine ⟨⟨hdrain, hclosing, fun d hd => hcalls d (List.mem_of_mem_erase hd)⟩, hpings, l ++ [⟨c, P2PF_E_CLOSED, 0⟩], ?_,
      fun a hm => ?_⟩
    · rw [← List.append_assoc, ← hl]
      rfl
    · rcases List.mem_append.mp hm with hm | hm
      · exact hclosed a hm
      · rw [List.mem_singleton.mp hm]
  | register hc hp hb =>
    rw [hclosing] at hb
    cases hb
  | unposted hc hp | post hc hp | wake hc hp | expire hc hp | leave hc hp =>
    rw [hcalls _ hc] at hp
    cases hp
  | @pong uId row hrow hb hh =>
    have hnone := isEmpty_iff_get.mp hempty uId
    rw [← hpings, hrow] at hnone
    cases hnone
  | mark hopen => exact absurd (hdrain.symm.trans hopen) DrainPc.noConfusion
  | slice h0 hd => exact absurd (hdrain.symm.trans h0) DrainPc.noConfusion

theorem after_run {s₀ : PingHub} (hout : s₀.Out) (hempty : s₀.pings.isEmpty = true) (fs : List PingEv) :
    After s₀ (exec pingStep s₀ fs) :=
  (always_of_inv (fun s e h => after_move (pingStep_move s e (fun _ => trivial) fun _ _ _ _ => trivial) hempty h)
    (⟨hout, rfl, [], (List.append_nil _).symm, fun _ ha => absurd ha List.not_mem_nil⟩ : After s₀ s₀)).last

/-- When the drain loop has seen the map empty no call is between its row and its answer, none gets there any
    more, and each later one is told that the hub is closed; and a call whose event only the close has set is
    not told that it was answered. -/
theorem ping_close (nHub : Nat) (oAddress : HubAddress) (now : Nat) (es : List PingEv)
    (h : Each pingStep PingEv.TakesUnheld (PingHub.created nHub oAddress now) es) (s : PingHub)
    (hs : s = exec pingStep (PingHub.created nHub oAddress now) es) :
    (s.drain = .drained → (∀ c ∈ s.calls, c.pc = .checked) ∧ s.pings.isEmpty = true ∧
      ∀ fs, After s (exec pingStep s fs)) ∧ ∀ a ∈ s.answers, a.Released := by
  have hinv : PingInv s ∧ RowsHeld s ∧ Drained s := by
    refine hs ▸ (always_of_each (I := fun s => PingInv s ∧ RowsHeld s ∧ Drained s) (fun s e hi he => ?_) ?_ h).last
    · have hmove : PingMove PingHub.Unheld (fun _ => True) s (pingStep s e) :=
        pingStep_move s e he fun _ _ _ _ => trivial
      exact ⟨pingInv_move hmove hi.1, rowsHeld_move hmove hi.1 hi.2.1, drained_move hmove hi.2.1 hi.2.2⟩
    · refine ⟨pingInv_created nHub oAddress now, ?_, ?_⟩
      · exact ⟨fun c hc => absurd hc List.not_mem_nil, fun c hc => absurd hc List.not_mem_nil⟩
      · exact ⟨fun h => absurd rfl h, fun h => DrainPc.noConfusion h, fun c hc => absurd hc List.not_mem_nil,
          fun c hc => absurd hc List.not_mem_nil, fun a ha => absurd ha List.not_mem_nil⟩
  obtain ⟨-, hr, hd⟩ := hinv
  refine ⟨fun hdrain => ?_, hd.answers⟩
  have hempty := hd.empty hdrain
  have hcalls : ∀ c ∈ s.calls, c.pc = .checked := by
    intro c hc
    cases hheld : c.pc.held with
    | none =>
      cases hp : c.pc with
      | checked => rfl
      | _ => rw [hp] at hheld; cases hheld
    | some uId =>
      obtain ⟨row, hrow, -⟩ := hr.row c hc uId hheld
      rw [isEmpty_iff_get.mp hempty uId] at hrow
      cases hrow
  have hclosing := hd.closing (by rw [hdrain]; exact DrainPc.noConfusion)
  exact ⟨hcalls, hempty, after_run ⟨hdrain, hclosing, hcalls⟩ hempty⟩

def askedPeer : WStr := L "peer"

def pinged (nCall : Nat) (pc : PingPc) : PingCall := ⟨⟨0, nCall, askedPeer⟩, pc, false, false, false⟩

/-- A hub at `hub` whose first Ping waits under the id 1. -/
def waitingRun : List PingEv :=
  [.begin (some askedPeer) true false true, .client (pinged 0 .checked) {} false, .client (pinged 0 (.registered 1)) {} false]

/-- The hub is closed while the Ping waits. -/
def closedRun : List PingEv :=
  waitingRun ++ [.close, .slice, .client ⟨⟨0, 0, askedPeer⟩, .waiting 1, false, true, true⟩ {} false,
    .client ⟨⟨0, 0, askedPeer⟩, .leaving 1 S_OK, false, true, true⟩ {} false, .slice]

theorem ping_close_waiting :
    (∀ c ∈ (exec pingStep (PingHub.created 0 hubAddress 0) closedRun).calls, c.pc = .checked) ∧
    (exec pingStep (PingHub.created 0 hubAddress 0) closedRun).answers =
      [⟨⟨⟨0, 0, askedPeer⟩, .leaving 1 S_OK, false, true, true⟩, .P2PF_E_TIMEOUT, 0⟩] := by
  have h : Each pingStep PingEv.TakesUnheld (PingHub.created 0 hubAddress 0) closedRun := by
    simp only [closedRun, waitingRun, List.cons_append, List.nil_append, each_cons, each_nil, and_true]
    refine ⟨?_, ?_, ?_, ?_, ?_, ?_, ?_, ?_⟩ <;> intro hreg
    · exact hreg.elim
    · show ∀ d ∈ PingHub.calls _, d.pc.held ≠ some _
      decide +kernel
    · exact absurd hreg.2.1 PingPc.noConfusion
    · exact hreg.elim
    · exact hreg.elim
    · exact absurd hreg.2.1 PingPc.noConfusion
    · exact absurd hreg.2.1 PingPc.noConfusion
    · exact hreg.elim
  obtain ⟨hdrained, -⟩ := ping_close 0 hubAddress 0 closedRun h _ rfl
  exact ⟨(hdrained (by decide +kernel)).1, by decide +kernel⟩

/-! ## Two runs that go another way -/

theorem slice_empty {s : PingHub} {nSlice : Nat} (hd : s.drain = .draining nSlice) (hn : nSlice < kPingDrainSlices)
    (he : s.pings.isEmpty = true) : CloseSlice s = { s with drain := .drained } := by
  unfold CloseSlice
  rw [hd]
  simp only [Nat.not_le.mpr hn, if_false, he, if_true]

/-- A Ping that is begun, registered as `uId`, not taken by the kernel, and gone. -/
def lostPing (nCall : Nat) (uId : UInt32) : List PingEv :=
  [.begin (some askedPeer) true false true, .client (pinged nCall .checked) {} false,
    .client (pinged nCall (.registered uId)) { takes := fun _ => false } false,
    .client (pinged nCall (.leaving uId P2PF_E_CLOSED)) {} false]

def lostPings : Nat → List PingEv
  | 0 => []
  | n + 1 => lostPings n ++ lostPing (n + 1) (UInt32.ofNat (n + 2))

def waitingHub : PingHub := exec pingStep (PingHub.created 0 hubAddress 0) waitingRun

theorem lost_post (c : PingCall) (uId : UInt32) : (PingPost { takes := fun _ => false } c uId).1 = P2PF_E_CLOSED := by
  unfold PingPost PostMsg
  rw [length_idBody]
  rfl

theorem lost_client {s : PingHub} {c : PingCall} {uId : UInt32} {bExpired : Bool} (hp : c.pc = .registered uId) :
    pingClient { takes := fun _ => false } bExpired s c = s.goto c { c with pc := .leaving uId P2PF_E_CLOSED } := by
  unfold pingClient
  rw [hp]
  simp only [lost_post]
  rfl

theorem lostPing_exec {s : PingHub} {uId : UInt32} (hhub : s.nHub = 0) (hopen : s.bClosing = false)
    (hnext : s.uNextPingId + 1 = uId) (hcalls : ∀ pc, pinged s.nBegun pc ∉ s.calls) :
    ∃ answers, exec pingStep s (lostPing s.nBegun uId) =
      { s with nBegun := s.nBegun + 1, uNextPingId := uId, pings := s.pings.erase uId, answers := answers } := by
  let s₁ : PingHub := { s with nBegun := s.nBegun + 1, calls := s.calls ++ [pinged s.nBegun .checked] }
  let s₂ : PingHub := { s₁ with
    calls := s.calls ++ [pinged s.nBegun (.registered uId)]
    uNextPingId := uId
    pings := s.pings.insert uId ⟨⟨0, s.nBegun, askedPeer⟩, s.now, 0, false⟩ }
  let s₃ : PingHub := { s₂ with calls := s.calls ++ [pinged s.nBegun (.leaving uId P2PF_E_CLOSED)] }
  have hin (pc : PingPc) : pinged s.nBegun pc ∈ s.calls ++ [pinged s.nBegun pc] :=
    List.mem_append_right _ (List.mem_singleton.mpr rfl)
  have herase (pc : PingPc) : (s.calls ++ [pinged s.nBegun pc]).erase (pinged s.nBegun pc) = s.calls := erase_put (hcalls pc)
  have h1 : pingStep s (.begin (some askedPeer) true false true) = s₁ := by
    have hid : (⟨s.nHub, s.nBegun, askedPeer⟩ : PingId) = ⟨0, s.nBegun, askedPeer⟩ := by rw [hhub]
    show ({ s with nBegun := _, calls := s.calls ++ [⟨⟨s.nHub, s.nBegun, askedPeer⟩, _, _, _, _⟩] } : PingHub) = _
    rw [hid]
    rfl
  have h2 : pingStep s₁ (.client (pinged s.nBegun .checked) {} false) = s₂ := by
    show (if pinged s.nBegun .checked ∈ s₁.calls then PingRegister (pinged s.nBegun .checked) s₁ else s₁) = _
    rw [if_pos (hin _)]
    unfold PingRegister PingHub.goto
    rw [if_neg (by simp [s₁, hopen])]
    simp only [s₁, s₂, herase, hnext]
    rfl
  have h3 : pingStep s₂ (.client (pinged s.nBegun (.registered uId)) { takes := fun _ => false } false) = s₃ := by
    show (if pinged s.nBegun (.registered uId) ∈ s₂.calls then _ else s₂) = _
    rw [if_pos (hin _), lost_client rfl]
    unfold PingHub.goto
    simp only [s₂, s₃, herase]
    rfl
  have h4 : pingStep s₃ (.client (pinged s.nBegun (.leaving uId P2PF_E_CLOSED)) {} false) =
      { s₃ with
        calls := s.calls
        pings := s₃.pings.erase uId
        answers := s.answers ++ [⟨pinged s.nBegun (.leaving uId P2PF_E_CLOSED), P2PF_E_CLOSED, 0⟩] } := by
    show (if pinged s.nBegun (.leaving uId P2PF_E_CLOSED) ∈ s₃.calls then _ else s₃) = _
    rw [if_pos (hin _)]
    show PingHub.answer { s₃ with pings := s₃.pings.erase uId } _ _ _ = _
    unfold PingHub.answer
    simp only [s₃, herase]
    rfl
  refine ⟨s.answers ++ [⟨pinged s.nBegun (.leaving uId P2PF_E_CLOSED), P2PF_E_CLOSED, 0⟩], ?_⟩
  rw [lostPing, exec_cons, h1, exec_cons, h2, exec_cons, h3, exec_cons, h4, exec_nil]
  simp only [s₃, s₂, s₁, erase_insert]

theorem waiting_calls {nCall : Nat} (h : nCall ≠ 0) (pc : PingPc) : pinged nCall pc ∉ waitingHub.calls := by
  have hcalls : waitingHub.calls = [⟨⟨0, 0, askedPeer⟩, .waiting 1, false, false, true⟩] := by decide +kernel
  intro hm
  rw [hcalls] at hm
  exact h (congrArg (·.id.nCall) (List.mem_singleton.mp hm))

theorem ofNat_ne_one {n : Nat} (h2 : 2 ≤ n) (hn : n ≤ UInt32.size) : UInt32.ofNat n ≠ 1 := by
  intro h
  have hmod : n % UInt32.size = 1 := congrArg UInt32.toNat h
  unfold UInt32.size at *
  omega

theorem lostPings_exec (n : Nat) (hn : n < UInt32.size) : ∃ answers, exec pingStep waitingHub (lostPings n) =
    { waitingHub with nBegun := n + 1, uNextPingId := UInt32.ofNat (n + 1), answers := answers } := by
  induction n with
  | zero => exact ⟨waitingHub.answers, rfl⟩
  | succ n ih =>
    obtain ⟨answers, hrun⟩ := ih (by omega)
    let s : PingHub := { waitingHub with nBegun := n + 1, uNextPingId := UInt32.ofNat (n + 1), answers := answers }
    have hnext : s.uNextPingId + 1 = UInt32.ofNat (n + 2) := by
      rw [UInt32.ofNat_add (n + 1) 1]
      rfl
    have hpings : s.pings.erase (UInt32.ofNat (n + 2)) = waitingHub.pings := by
      refine erase_of_none ?_
      have hrow : waitingHub.pings = (∅ : Map UInt32 PingRow).insert 1 ⟨⟨0, 0, askedPeer⟩, 0, 0, false⟩ := rfl
      show waitingHub.pings[UInt32.ofNat (n + 2)]? = none
      rw [hrow, get_insert, if_neg (Ne.symm (ofNat_ne_one (by omega) (by omega)))]
      exact Std.ExtTreeMap.getElem?_empty
    obtain ⟨answers', hlost⟩ := @lostPing_exec s (UInt32.ofNat (n + 2)) rfl rfl hnext
      (waiting_calls (Nat.succ_ne_zero n))
    refine ⟨answers', ?_⟩
    rw [lostPings, exec_append, hrun]
    refine hlost.trans ?_
    rw [hpings]

/-- Once the counter has come round another Ping takes the id of the one that waits, and takes its row with it. -/
def overtakenRun : List PingEv :=
  waitingRun ++ (lostPings (UInt32.size - 1) ++ lostPing UInt32.size 1 ++ [.close, .slice])

theorem overtaken : (exec pingStep (PingHub.created 0 hubAddress 0) overtakenRun).drain = .drained ∧
    ∃ c ∈ (exec pingStep (PingHub.created 0 hubAddress 0) overtakenRun).calls, c.pc = .waiting 1 := by
  obtain ⟨answers, hrun⟩ := lostPings_exec (UInt32.size - 1) (by decide)
  let s : PingHub := { waitingHub with nBegun := UInt32.size, uNextPingId := 0, answers := answers }
  have hs : exec pingStep waitingHub (lostPings (UInt32.size - 1)) = s := hrun
  obtain ⟨answers', hlost⟩ := @lostPing_exec s 1 rfl rfl rfl (waiting_calls (show UInt32.size ≠ 0 by decide))
  let t : PingHub := { s with nBegun := s.nBegun + 1, uNextPingId := 1, pings := s.pings.erase 1, answers := answers' }
  have hrun : exec pingStep (PingHub.created 0 hubAddress 0) overtakenRun = CloseSlice (CloseMark t) := by
    have hmark : exec pingStep t [.close, .slice] = CloseSlice (CloseMark t) := rfl
    rw [← hmark, overtakenRun, exec_append, exec_append, exec_append]
    show exec pingStep (exec pingStep (exec pingStep waitingHub _) _) _ = _
    rw [hs]
    exact congrArg (exec pingStep · [.close, .slice]) hlost
  have hempty : (waitingHub.pings.erase 1).isEmpty = true := by decide +kernel
  have hslice : CloseSlice (CloseMark t) = { CloseMark t with drain := .drained } := slice_empty rfl (by decide) hempty
  rw [hrun, hslice]
  have hwait : (⟨⟨0, 0, askedPeer⟩, .waiting 1, false, false, true⟩ : PingCall) ∈ waitingHub.calls := by decide +kernel
  exact ⟨rfl, _, List.mem_map_of_mem hwait, by rw [released_pc]⟩

/-- A Ping whose post the kernel does not take after the close has set its event. -/
def unpostedRun : List PingEv :=
  [.begin (some askedPeer) true false true, .client (pinged 0 .checked) {} false, .close,
    .client { pinged 0 (.registered 1) with bClosed := true } { takes := fun _ => false } false,
    .client { pinged 0 (.leaving 1 P2PF_E_CLOSED) with bClosed := true } {} false]

theorem late_post_and_overtaken_row : ¬ (∀ (nHub : Nat) (oAddress : HubAddress) (now : Nat) (es : List PingEv),
    let s := exec pingStep (PingHub.created nHub oAddress now) es
    ∀ a ∈ s.answers, a.call.bClosed = true → a.call.bPonged = false → a.hr = .P2PF_E_TIMEOUT) ∧
    ¬ (∀ (nHub : Nat) (oAddress : HubAddress) (now : Nat) (es : List PingEv),
      let s := exec pingStep (PingHub.created nHub oAddress now) es
      s.drain = .drained → ∀ c ∈ s.calls, c.pc = .checked) := by
  constructor
  · intro h
    have hlate := h 0 hubAddress 0 unpostedRun
      ⟨{ pinged 0 (.leaving 1 P2PF_E_CLOSED) with bClosed := true }, P2PF_E_CLOSED, 0⟩ (by decide +kernel) rfl rfl
    exact HRESULT.noConfusion hlate
  · intro h
    obtain ⟨hdrain, c, hc, hp⟩ := overtaken
    rw [h 0 hubAddress 0 overtakenRun hdrain c hc] at hp
    cases hp

end TargetFacade
