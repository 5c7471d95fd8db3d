/-
  TargetFacade.Hub.PingMoves — everything one step of a hub's Pings can do, and what ties its rows to
  its calls.

  A row is its call's while that call is there (`PingInv.owner`): a Ping that takes an id another call
  still holds writes over that call's row, and nothing gives the row back.
-/

import TargetFacade.Hub.Pings

namespace TargetFacade

open OrdMap Runs Bag

/-- The id a call holds, from writing its row to taking it out. -/
def PingPc.held : PingPc → Option UInt32
  | .checked => none
  | .registered uId | .waiting uId | .leaving uId _ => some uId

/-- `ok` is what is known of the hub when a Ping writes its row, and `heard` of a row that an answer is for. -/
inductive PingMove (ok : PingHub → Prop) (heard : PingRow → Prop) (s : PingHub) : PingHub → Prop
  | same : PingMove ok heard s s
  | tick (n : Nat) : PingMove ok heard s { s with now := s.now + n }
  | refuse (id : PingId) (hr : HRESULT) :
      PingMove ok heard s { s with nBegun := s.nBegun + 1, refused := s.refused ++ [(id, hr)] }
  | begin (peer : WStr) :
      PingMove ok heard s { s with
        nBegun := s.nBegun + 1
        calls := s.calls ++ [⟨⟨s.nHub, s.nBegun, peer⟩, .checked, false, false, false⟩] }
  | turnAway {c : PingCall} (h : c ∈ s.calls) (hp : c.pc = .checked) (hb : s.bClosing = true) :
      PingMove ok heard s (s.answer c P2PF_E_CLOSED 0)
  | register {c : PingCall} (h : c ∈ s.calls) (hp : c.pc = .checked) (hb : s.bClosing = false) (hok : ok s) :
      PingMove ok heard s { s.goto c { c with pc := .registered (s.uNextPingId + 1) } with
        uNextPingId := s.uNextPingId + 1
        pings := s.pings.insert (s.uNextPingId + 1) ⟨c.id, s.now, 0, false⟩ }
  | unposted {c : PingCall} {uId : UInt32} {hr : HRESULT} (h : c ∈ s.calls) (hp : c.pc = .registered uId)
      (hf : FAILED hr = true) : PingMove ok heard s (s.goto c { c with pc := .leaving uId hr })
  | post {c : PingCall} {uId : UInt32} (h : c ∈ s.calls) (hp : c.pc = .registered uId) :
      PingMove ok heard s (s.goto c { c with pc := .waiting uId, bPosted := true })
  | wake {c : PingCall} {uId : UInt32} (h : c ∈ s.calls) (hp : c.pc = .waiting uId)
      (hset : c.bPonged = true ∨ c.bClosed = true) : PingMove ok heard s (s.goto c { c with pc := .leaving uId S_OK })
  | expire {c : PingCall} {uId : UInt32} (h : c ∈ s.calls) (hp : c.pc = .waiting uId) :
      PingMove ok heard s (s.goto c { c with pc := .leaving uId .P2PF_E_TIMEOUT })
  | leave {c : PingCall} {uId : UInt32} {hr : HRESULT} (h : c ∈ s.calls) (hp : c.pc = .leaving uId hr) :
      PingMove ok heard s (PingLeave c uId hr s)
  | pong {uId : UInt32} {row : PingRow} (hrow : s.pings[uId]? = some row) (hb : row.bAnswered = false)
      (hh : heard row) :
      PingMove ok heard s { s with
        pings := s.pings.insert uId { row with uMillisecs := UInt32.ofNat (s.now - row.uSentTick), bAnswered := true }
        calls := s.calls.map (PingHub.ponged row.hEvent) }
  | mark (h : s.drain = .open_) : PingMove ok heard s (CloseMark s)
  | slice {nSlice : Nat} {d : DrainPc} (h0 : s.drain = .draining nSlice) (h : d = .drained → s.pings.isEmpty = true) :
      PingMove ok heard s { s with drain := d }

/-- What must be known for a step to be known to be `ok`. -/
def PingEv.Registers (s : PingHub) : PingEv → Prop
  | .client c _ _ => c ∈ s.calls ∧ c.pc = .checked ∧ s.bClosing = false
  | _ => False

variable {ok : PingHub → Prop} {heard : PingRow → Prop}

theorem pongMove {s : PingHub} {uId : UInt32} (hh : ∀ row, s.pings[uId]? = some row → heard row) :
    PingMove ok heard s (HandlePong uId s) := by
  unfold HandlePong
  cases hrow : s.pings[uId]? with
  | none => exact .same
  | some row =>
    by_cases hb : row.bAnswered = true
    · simp only [hb, if_true]
      exact .same
    · simp only [hb, Bool.false_eq_true, if_false]
      exact .pong hrow (Bool.eq_false_iff.mpr hb) (hh row hrow)

theorem pingClient_move (env : PostEnv) (bExpired : Bool) {s : PingHub} {c : PingCall} (h : c ∈ s.calls)
    (hok : c.pc = .checked → s.bClosing = false → ok s) : PingMove ok heard s (pingClient env bExpired s c) := by
  unfold pingClient
  cases hp : c.pc with
  | checked =>
    simp only
    unfold PingRegister
    by_cases hb : s.bClosing = true
    · rw [if_pos hb]
      exact .turnAway h hp hb
    · rw [if_neg hb]
      have hb := Bool.eq_false_iff.mpr hb
      exact .register h hp hb (hok hp hb)
  | registered uId =>
    simp only
    by_cases hf : FAILED (PingPost env c uId).1 = true
    · rw [if_pos hf]
      exact .unposted h hp hf
    · rw [if_neg hf]
      exact .post h hp
  | waiting uId =>
    simp only
    by_cases hset : (c.bPonged || c.bClosed) = true
    · rw [if_pos hset]
      exact .wake h hp (by simpa using hset)
    · rw [if_neg hset]
      split
      · exact .expire h hp
      · exact .same
  | leaving uId hr => exact .leave h hp

theorem slice_move (s : PingHub) : PingMove ok heard s (CloseSlice s) := by
  unfold CloseSlice
  cases hd : s.drain with
  | draining nSlice =>
    simp only
    split
    · exact .slice hd fun h => DrainPc.noConfusion h
    split
    · exact .slice hd fun _ => ‹_›
    · exact .slice hd fun h => DrainPc.noConfusion h
  | _ => exact .same

theorem pingStep_move (s : PingHub) (e : PingEv) (hok : e.Registers s → ok s)
    (hh : ∀ uId, e = .pong uId → ∀ row, s.pings[uId]? = some row → heard row) : PingMove ok heard s (pingStep s e) := by
  cases e with
  | tick n => exact .tick n
  | begin peer bOut bPumpThread bEvent =>
    unfold pingStep PingBegin
    simp only
    split
    · exact .refuse _ _
    · exact .begin _
  | client c env bExpired =>
    unfold pingStep
    simp only
    split
    · rename_i h
      exact pingClient_move env bExpired h fun hp hb => hok ⟨h, hp, hb⟩
    · exact .same
  | pong uPingId => exact pongMove (hh uPingId rfl)
  | close =>
    unfold pingStep
    simp only
    split
    · exact .mark ‹_›
    · exact .same
  | slice => exact slice_move s

/-! ## Rows and calls -/

section flags
variable (hEvent : PingId) (events : List PingId) (c : PingCall)

@[simp] theorem ponged_id : (PingHub.ponged hEvent c).id = c.id := by unfold PingHub.ponged; split <;> rfl
@[simp] theorem ponged_pc : (PingHub.ponged hEvent c).pc = c.pc := by unfold PingHub.ponged; split <;> rfl
@[simp] theorem ponged_bClosed : (PingHub.ponged hEvent c).bClosed = c.bClosed := by unfold PingHub.ponged; split <;> rfl
@[simp] theorem ponged_bPosted : (PingHub.ponged hEvent c).bPosted = c.bPosted := by unfold PingHub.ponged; split <;> rfl
@[simp] theorem released_id : (PingHub.released events c).id = c.id := by unfold PingHub.released; split <;> rfl
@[simp] theorem released_pc : (PingHub.released events c).pc = c.pc := by unfold PingHub.released; split <;> rfl
@[simp] theorem released_bPonged : (PingHub.released events c).bPonged = c.bPonged := by unfold PingHub.released; split <;> rfl
@[simp] theorem released_bPosted : (PingHub.released events c).bPosted = c.bPosted := by unfold PingHub.released; split <;> rfl

end flags

theorem ponged_bPonged (hEvent : PingId) (c : PingCall) :
    (PingHub.ponged hEvent c).bPonged = (c.bPonged || decide (c.id = hEvent)) := by
  unfold PingHub.ponged
  split <;> simp [*]

theorem released_bClosed (events : List PingId) (c : PingCall) :
    (PingHub.released events c).bClosed = (c.bClosed || decide (c.id ∈ events)) := by
  unfold PingHub.released
  split <;> simp [*]

/-- The calls of a hub are told apart by their numbers, and a row is its call's. -/
structure PingInv (s : PingHub) : Prop where
  ids : (s.calls.map (·.id)).Nodup
  calls : ∀ c ∈ s.calls, c.id.nCall < s.nBegun
  rows : ∀ (uId : UInt32) (row : PingRow), s.pings[uId]? = some row → row.hEvent.nCall < s.nBegun
  owner : ∀ (uId : UInt32) (row : PingRow), s.pings[uId]? = some row → ∀ c ∈ s.calls, c.id = row.hEvent → c.pc.held = some uId

/-- A call whose event is in the map holds the row it is in. -/
theorem PingInv.event_row {s : PingHub} (hi : PingInv s) {c : PingCall} (hc : c ∈ s.calls) (hm : c.id ∈ s.events) :
    ∃ (uId : UInt32) (row : PingRow), s.pings[uId]? = some row ∧ row.hEvent = c.id ∧ c.pc.held = some uId := by
  obtain ⟨⟨uId, row⟩, hmem, he⟩ := List.mem_map.mp hm
  have hrow : s.pings[uId]? = some row := Std.ExtTreeMap.mem_toList_iff_getElem?_eq_some.mp hmem
  exact ⟨uId, row, hrow, he, hi.owner uId row hrow c hc he.symm⟩

theorem erase_ids {l : List PingCall} (hn : (l.map (·.id)).Nodup) {c d : PingCall} (hc : c ∈ l) (hd : d ∈ l.erase c) :
    d ∈ l ∧ d.id ≠ c.id := by
  obtain ⟨hne, hmem⟩ := (List.Nodup.mem_erase_iff hn.of_map).mp hd
  exact ⟨hmem, fun hid => hne (List.inj_on_of_nodup_map hn hmem hc hid)⟩

theorem goto_calls {l : List PingCall} (hn : (l.map (·.id)).Nodup) {c c' d : PingCall} (hc : c ∈ l)
    (hd : d ∈ l.erase c ++ [c']) : d ∈ l ∧ d.id ≠ c.id ∨ d = c' := by
  rcases List.mem_append.mp hd with hd | hd
  · exact Or.inl (erase_ids hn hc hd)
  · exact Or.inr (List.mem_singleton.mp hd)

theorem goto_ids {l : List PingCall} {c c' : PingCall} (hc : c ∈ l) (hid : c'.id = c.id) :
    ((l.erase c ++ [c']).map (·.id)).Perm (l.map (·.id)) := by
  have hl : l.Perm (c :: l.erase c) := List.perm_cons_erase hc
  have h1 : (l.erase c ++ [c']).Perm (c' :: l.erase c) := List.perm_append_singleton c' _
  refine (h1.map _).trans ?_
  rw [List.map_cons, hid]
  exact (hl.map (·.id)).symm

theorem map_ids {l : List PingCall} {f : PingCall → PingCall} (hf : ∀ c, (f c).id = c.id) :
    (l.map f).map (·.id) = l.map (·.id) := by
  rw [List.map_map]
  exact List.map_congr_left fun c _ => hf c

theorem pingInv_created (nHub : Nat) (oAddress : HubAddress) (now : Nat) : PingInv (PingHub.created nHub oAddress now) :=
  ⟨List.nodup_nil, fun c h => absurd h List.not_mem_nil, fun uId row h => by simp [PingHub.created] at h,
    fun uId row h => by simp [PingHub.created] at h⟩

/-- A call that goes on holding what it held. -/
theorem pingInv_goto {s : PingHub} (hi : PingInv s) {c c' : PingCall} (hc : c ∈ s.calls) (hid : c'.id = c.id)
    (hheld : c'.pc.held = c.pc.held) : PingInv (s.goto c c') := by
  refine ⟨(goto_ids hc hid).nodup_iff.mpr hi.ids, fun d hd => ?_, hi.rows, fun uId row hrow d hd he => ?_⟩
  · rcases goto_calls hi.ids hc hd with ⟨hd, -⟩ | rfl
    · exact hi.calls d hd
    · rw [hid]
      exact hi.calls c hc
  · rcases goto_calls hi.ids hc hd with ⟨hd, -⟩ | rfl
    · exact hi.owner uId row hrow d hd he
    · rw [hheld]
      exact hi.owner uId row hrow c hc (hid.symm.trans he)

/-- A call that is gone, and rows that are still there. -/
theorem pingInv_erase {s : PingHub} (hi : PingInv s) {c : PingCall} {pings : Map UInt32 PingRow}
    {answers : List PingAnswer} (hp : ∀ (uId : UInt32) (row : PingRow), pings[uId]? = some row → s.pings[uId]? = some row) :
    PingInv { s with pings := pings, calls := s.calls.erase c, answers := answers } :=
  ⟨hi.ids.sublist (List.erase_sublist.map _), fun d hd => hi.calls d (List.mem_of_mem_erase hd),
    fun uId row h => hi.rows uId row (hp uId row h),
    fun uId row h d hd => hi.owner uId row (hp uId row h) d (List.mem_of_mem_erase hd)⟩

/-- Events set, and rows that name the same calls. -/
theorem pingInv_flag {s s' : PingHub} (hi : PingInv s) {f : PingCall → PingCall} (hcalls : s'.calls = s.calls.map f)
    (hn : s'.nBegun = s.nBegun) (hid : ∀ c, (f c).id = c.id) (hpc : ∀ c, (f c).pc = c.pc)
    (hp : ∀ (uId : UInt32) (row' : PingRow), s'.pings[uId]? = some row' →
      ∃ row : PingRow, s.pings[uId]? = some row ∧ row'.hEvent = row.hEvent) :
    PingInv s' := by
  refine ⟨?_, fun d hd => ?_, fun uId row' h => ?_, fun uId row' h d hd he => ?_⟩
  · rw [hcalls, map_ids hid]
    exact hi.ids
  · rw [hcalls] at hd
    obtain ⟨c, hc, rfl⟩ := List.mem_map.mp hd
    rw [hid, hn]
    exact hi.calls c hc
  · obtain ⟨row, hrow, hev⟩ := hp uId row' h
    rw [hev, hn]
    exact hi.rows uId row hrow
  · obtain ⟨row, hrow, hev⟩ := hp uId row' h
    rw [hcalls] at hd
    obtain ⟨c, hc, rfl⟩ := List.mem_map.mp hd
    rw [hpc]
    exact hi.owner uId row hrow c hc ((hid c).symm.trans (he.trans hev))

theorem leave_eq (c : PingCall) (uId : UInt32) (hr : HRESULT) (s : PingHub) :
    ∃ hr' m, PingLeave c uId hr s = PingHub.answer { s with pings := s.pings.erase uId } c hr' m ∧
      (hr' = hr ∨ hr' = .P2PF_E_TIMEOUT) ∧
      (FAILED hr' = false → hr' = hr ∧ ∃ row : PingRow, s.pings[uId]? = some row ∧ row.bAnswered = true) := by
  unfold PingLeave
  simp only
  split
  · exact ⟨_, _, rfl, Or.inr rfl, fun h => Bool.noConfusion h⟩
  · rename_i hno
    refine ⟨_, _, rfl, Or.inl rfl, fun hf => ⟨rfl, ?_⟩⟩
    cases hrow : s.pings[uId]? with
    | none =>
      rw [hrow] at hno
      exact absurd (by simp [hf]) hno
    | some row =>
      refine ⟨row, rfl, ?_⟩
      rw [hrow] at hno
      simpa [hf] using hno

theorem pingInv_move {s s' : PingHub} (h : PingMove ok heard s s') (hi : PingInv s) : PingInv s' := by
  cases h with
  | same | tick | slice => exact ⟨hi.ids, hi.calls, hi.rows, hi.owner⟩
  | refuse =>
    exact ⟨hi.ids, fun c hc => Nat.lt_succ_of_lt (hi.calls c hc), fun u row hr => Nat.lt_succ_of_lt (hi.rows u row hr), hi.owner⟩
  | begin peer =>
    refine ⟨?_, fun c hc => ?_, fun u row hr => Nat.lt_succ_of_lt (hi.rows u row hr), fun u row hr c hc he => ?_⟩
    · simp only [List.map_append, List.map_cons, List.map_nil]
      rw [List.nodup_append]
      refine ⟨hi.ids, List.nodup_singleton _, fun a ha b hb hab => ?_⟩
      obtain ⟨c, hc, rfl⟩ := List.mem_map.mp ha
      have hlt := hi.calls c hc
      rw [hab, List.mem_singleton.mp hb] at hlt
      exact Nat.lt_irrefl _ hlt
    · rcases List.mem_append.mp hc with hc | hc
      · exact Nat.lt_succ_of_lt (hi.calls c hc)
      · rw [List.mem_singleton.mp hc]
        exact Nat.lt_succ_self _
    · rcases List.mem_append.mp hc with hc | hc
      · exact hi.owner u row hr c hc he
      · have hlt := hi.rows u row hr
        rw [← he, List.mem_singleton.mp hc] at hlt
        exact absurd hlt (Nat.lt_irrefl _)
  | turnAway => exact pingInv_erase hi fun u row hr => hr
  | @register c hc hp hb hok =>
    have hids : ((s.calls.erase c ++ [{ c with pc := .registered (s.uNextPingId + 1) }]).map PingCall.id).Perm
        (s.calls.map PingCall.id) := goto_ids hc rfl
    refine ⟨hids.nodup_iff.mpr hi.ids, fun d hd => ?_, fun u row hr => ?_, fun u row hr d hd he => ?_⟩
    · rcases goto_calls hi.ids hc hd with ⟨hd, -⟩ | rfl
      · exact hi.calls d hd
      · exact hi.calls c hc
    · rcases get_of_insert hr with ⟨-, rfl⟩ | ⟨-, hr⟩
      · exact hi.calls c hc
      · exact hi.rows u row hr
    · rcases get_of_insert hr with ⟨hu, rfl⟩ | ⟨-, hr⟩
      · rcases goto_calls hi.ids hc hd with ⟨-, hne⟩ | rfl
        · exact absurd he hne
        · exact congrArg some hu
      · rcases goto_calls hi.ids hc hd with ⟨hd, -⟩ | rfl
        · exact hi.owner u row hr d hd he
        · have hheld := hi.owner u row hr c hc he
          rw [hp] at hheld
          cases hheld
  | unposted hc hp | post hc hp | wake hc hp | expire hc hp => exact pingInv_goto hi hc rfl (by rw [hp]; rfl)
  | @leave c uId hr hc hp =>
    obtain ⟨hr', m, heq, -⟩ := leave_eq c uId hr s
    rw [heq]
    refine pingInv_erase hi fun u row hrow => ?_
    exact (get_of_erase hrow).2
  | @pong uId row hrow hb hh =>
    refine pingInv_flag hi rfl rfl (ponged_id _) (ponged_pc _) fun u row' hr => ?_
    rcases get_of_insert hr with ⟨rfl, rfl⟩ | ⟨-, hr⟩
    · exact ⟨row, hrow, rfl⟩
    · exact ⟨row', hr, rfl⟩
  | mark => exact pingInv_flag hi rfl rfl (released_id _) (released_pc _) fun u row' hr => ⟨row', hr, rfl⟩

end TargetFacade
