/-
  TargetFacade.Hub.Drain — whether DrainCons signals every connection it must, over runs of
  the verbs, the two halves of a Link and the kernel's events on one hub.

  A named listen leaves a service connection on the hub, and each clone it accepts has the
  same peer address. A close takes the closed connection off the list, or, for a redialling
  dial, leaves it waiting; either way it writes the peer's row down, which the drain reads
  as "redialling". So the drain loses a connection when a row is written down over it: by
  another connection's close, by a re-arm after the row was written, by a redial, or by a
  retracted Link whose service stays (`Uncovers`). m_setUnretired covers a peer whatever its
  row says.
-/

import TargetFacade.Hub.ArmSpec
import TargetFacade.Hub.RetireSpec

namespace TargetFacade

open OrdMap Runs

theorem mem_drainPeers {h : Hub} {p : WStr} :
    p ∈ h.DrainPeers ↔
      IsPeerUp h.peers p = true ∨ ((∃ a, h.armed[p]? = some a) ∧ h.peers[p]? = none) ∨ p ∈ h.unretired := by
  have hup : (∃ e ∈ h.peers.toList, e.2 = true ∧ e.1 = p) ↔ IsPeerUp h.peers p = true := by
    unfold IsPeerUp
    constructor
    · intro hx
      obtain ⟨⟨q, b⟩, hm, hb, rfl⟩ := hx
      rw [Std.ExtTreeMap.mem_toList_iff_getElem?_eq_some] at hm
      simp only at hb
      simp [hm, hb]
    · intro hx
      cases hg : h.peers[p]? with
      | none => simp [hg] at hx
      | some b =>
        refine ⟨(p, b), Std.ExtTreeMap.mem_toList_iff_getElem?_eq_some.mpr hg, ?_, rfl⟩
        simpa [hg] using hx
  have harmed : (∃ e ∈ h.armed.toList, (h.peers[e.1]?).isNone = true ∧ e.1 = p) ↔
      (∃ a, h.armed[p]? = some a) ∧ h.peers[p]? = none := by
    constructor
    · intro hx
      obtain ⟨⟨q, a⟩, hm, hn, rfl⟩ := hx
      exact ⟨⟨a, Std.ExtTreeMap.mem_toList_iff_getElem?_eq_some.mp hm⟩, by simpa using hn⟩
    · intro hx
      obtain ⟨⟨a, ha⟩, hn⟩ := hx
      exact ⟨(p, a), Std.ExtTreeMap.mem_toList_iff_getElem?_eq_some.mpr ha, by simp [hn], rfl⟩
  have hun : ∀ s : OSet WStr, p ∈ h.unretired.toList.foldl (fun s q => s.insert q) s ↔ p ∈ s ∨ p ∈ h.unretired := by
    intro s
    have hm := mem_foldl_insert (fun _ => true) id (x := p) (l := h.unretired.toList) (s := s)
    simpa only [if_true, id_eq, true_and, exists_eq_right, Std.ExtTreeSet.mem_toList] using hm
  unfold Hub.DrainPeers
  rw [hun, mem_foldl_insert (fun e : WStr × ArmedCon => (h.peers[e.1]?).isNone) Prod.fst,
    mem_foldl_insert (fun e : WStr × Bool => e.2) Prod.fst, hup, harmed]
  simp [or_assoc]

/-! ## The system -/

/-- A connection the facade armed that is not a dial between two attempts. -/
def Con.Live (c : Con) : Prop := c.eMode ≠ .accept ∧ c.ePhase ≠ .waiting

def Hub.Covered (h : Hub) : Prop := ∀ c ∈ h.cons, c.Live → c.csPeer ∈ h.DrainPeers

/-- A hub, and the peer a Link is arming it to listen for while the dial is still to come. -/
structure DrainState where
  hub : Hub
  linking : Option WStr

inductive HubEv where
  | listen (pOwner : Option Owner) (env : ArmEnv) (toPeer : Option WStr) (endpoint : WStr)
  | connect (pOwner : Option Owner) (env : ArmEnv) (toPeer : Option WStr) (endpoint : WStr)
  /-- This hub's half of a Link, with the trust the edge has left it. -/
  | linkListen (t : Trust) (env : ArmEnv) (peer : WStr) (rEp : FacadeEndpoint)
  | linkDial (t : Trust) (env : ArmEnv) (peer : WStr) (rEp : FacadeEndpoint)
  /-- The other hub's dial was armed. -/
  | linkDone
  /-- The other hub's dial was refused. -/
  | linkUnwind (env : RetireEnv)
  | disconnect (env : RetireEnv) (peer : Option WStr)
  /-- A service connection spawns a clone. -/
  | accept (i : Nat)
  /-- On_ConLogin or On_ConLoginAck of a connection, with the address of the far side. -/
  | login (i : Nat) (strThat : WStr)
  /-- A waiting dial starts its next attempt. -/
  | redial (i : Nat)
  /-- On_ConClose of a connection; the kernel restarts a dial whose m_uAutoRestart is still set. -/
  | close (i : Nat) (bRestart : Bool)

def acceptCon (h : Hub) (i : Nat) : Hub :=
  match h.cons[i]? with
  | none => h
  | some c =>
    if c.eMode = .service then
      { h with cons := h.cons ++ [{ c with nId := h.nNextCon, eMode := .accept, bRetry := false, ePhase := .posted }],
               nNextCon := h.nNextCon + 1 }
    else h

def loginCon (h : Hub) (i : Nat) (strThat : WStr) : Hub :=
  match h.cons[i]? with
  | none => h
  | some c =>
    if c.ePhase = .waiting then h
    else Hub.MarkPeer { h with cons := h.cons.set i (c.loggedIn strThat) } strThat true

def redialCon (h : Hub) (i : Nat) : Hub :=
  match h.cons[i]? with
  | none => h
  | some c => if c.ePhase = .waiting then { h with cons := h.cons.set i { c with ePhase := .posted } } else h

def closeCon (h : Hub) (i : Nat) (bRestart : Bool) : Hub :=
  match h.cons[i]? with
  | none => h
  | some c =>
    let cons := if c.bRetry && bRestart then h.cons.set i { c with ePhase := .waiting } else h.cons.eraseIdx i
    Hub.MarkPeer { h with cons := cons } c.csPeer false

variable (inet : InetPton)

def drainStep (s : DrainState) : HubEv → DrainState
  | .listen pOwner env toPeer endpoint => { s with hub := (Listen inet pOwner env toPeer endpoint s.hub).2 }
  | .connect pOwner env toPeer endpoint => { s with hub := (Connect inet pOwner env toPeer endpoint s.hub).2 }
  | .linkListen t env peer rEp =>
    -- Link holds the network's lock: one at a time
    match s.linking with
    | some _ => s
    | none =>
      let (hr, h) := ArmResolved env peer rEp true { s.hub with trust := t }
      ⟨h, if FAILED hr then none else some peer⟩
  | .linkDial t env peer rEp => { s with hub := (ArmResolved env peer rEp false { s.hub with trust := t }).2 }
  | .linkDone => { s with linking := none }
  | .linkUnwind env =>
    match s.linking with
    | none => s
    | some peer => ⟨(CloseCon env peer kUnwindSlices s.hub).2, none⟩
  | .disconnect env peer => { s with hub := (Disconnect env peer s.hub).2 }
  | .accept i => { s with hub := acceptCon s.hub i }
  | .login i strThat => { s with hub := loginCon s.hub i strThat }
  | .redial i => { s with hub := redialCon s.hub i }
  | .close i bRestart => { s with hub := closeCon s.hub i bRestart }

def DrainState.Covered (s : DrainState) : Prop := s.hub.Covered

/-! ## The steps that uncover a connection -/

/-- The peer's row is down, and no timed-out Disconnect remembers it. -/
def Hub.Skipped (h : Hub) (p : WStr) : Prop := h.peers[p]? = some false ∧ p ∉ h.unretired

/-- A live connection for `p` besides the one at `i`. -/
def Hub.LiveBeside (h : Hub) (i : Nat) (p : WStr) : Prop :=
  ∃ j d, j ≠ i ∧ h.cons[j]? = some d ∧ d.Live ∧ d.csPeer = p

/-- A retraction of `p` leaves a live connection, and neither its row nor m_setUnretired
    keeps it in the drain. -/
def Hub.LeavesBehind (h : Hub) (env : RetireEnv) (p : WStr) : Prop :=
  p ≠ [] ∧ env.alive = true ∧ p ∉ h.unretired ∧
    (∃ c ∈ h.cons, c.Live ∧ c.csPeer = p ∧ Outstays env kUnwindSlices c) ∧
    (IsPeerUp h.peers p = true → ClosesOne env p kUnwindSlices h.cons)

def Uncovers (s : DrainState) : HubEv → Prop
  | .listen pOwner env toPeer endpoint =>
      ∃ p, toPeer = some p ∧ ArmsPeer inet pOwner env p endpoint true s.hub ∧ s.hub.Skipped p
  | .connect pOwner env toPeer endpoint =>
      ∃ p, toPeer = some p ∧ ArmsPeer inet pOwner env p endpoint false s.hub ∧ s.hub.Skipped p
  | .linkListen _ env peer _ => s.linking = none ∧ Armable env peer s.hub ∧ s.hub.Skipped peer
  | .linkDial _ env peer _ => Armable env peer s.hub ∧ s.hub.Skipped peer
  | .linkDone => False
  | .linkUnwind env => ∃ p, s.linking = some p ∧ s.hub.LeavesBehind env p
  | .disconnect _ _ => False
  | .accept _ => False
  | .login _ _ => False
  | .redial i => ∃ c, s.hub.cons[i]? = some c ∧ c.ePhase = .waiting ∧ c.eMode ≠ .accept ∧ c.csPeer ∉ s.hub.DrainPeers
  | .close i _ => ∃ c, s.hub.cons[i]? = some c ∧ c.csPeer ≠ [] ∧ c.csPeer ∉ s.hub.unretired ∧ s.hub.LiveBeside i c.csPeer

/-! ## One step -/

theorem sameCons_covered {h h' : Hub} (hs : SameCons h h') : h'.Covered ↔ h.Covered := by
  have hd : ∀ p, p ∈ h'.DrainPeers ↔ p ∈ h.DrainPeers := by
    intro p
    rw [mem_drainPeers, mem_drainPeers, hs.armed, hs.peers, hs.unretired]
  unfold Hub.Covered
  simp only [hd, hs.cons]

/-- An armed connection is covered unless its peer's row is down. -/
theorem addedCon_covered {p : WStr} {h h' : Hub} (hc : h.Covered) (hadd : AddedCon p h h') :
    h'.Covered ↔ ¬ h.Skipped p := by
  obtain ⟨⟨a, ha⟩, hpe, hun, c, hcp, hcm, hcph, hcons⟩ := hadd
  have hlive : c.Live := ⟨hcm, by simp [hcph]⟩
  have hmono : ∀ q, q ∈ h.DrainPeers → q ∈ h'.DrainPeers := by
    intro q hq
    rw [mem_drainPeers] at hq ⊢
    rw [hpe, hun, ha]
    rcases hq with hq | ⟨⟨b, hb⟩, hq⟩ | hq
    · exact Or.inl hq
    · refine Or.inr (Or.inl ⟨?_, hq⟩)
      rw [get_insert]
      split
      · exact ⟨a, rfl⟩
      · exact ⟨b, hb⟩
    · exact Or.inr (Or.inr hq)
  have hnew : p ∈ h'.DrainPeers ↔ ¬ h.Skipped p := by
    rw [mem_drainPeers, hpe, hun, ha]
    unfold Hub.Skipped IsPeerUp
    cases hg : h.peers[p]? with
    | none => simp
    | some b => cases b <;> simp
  refine ⟨fun h' => hnew.mp ?_, fun hn d hd hdl => ?_⟩
  · have := h' c (by rw [hcons]; simp) hlive
    rwa [hcp] at this
  · rw [hcons] at hd
    rcases List.mem_append.mp hd with hd | hd
    · exact hmono _ (hc d hd hdl)
    · obtain rfl : d = c := by simpa using hd
      rw [hcp]; exact hnew.mpr hn

theorem retracted_covered {env : RetireEnv} {p : WStr} {h h' : Hub} {bGone : Bool} (hc : h.Covered) (hp : p ≠ [])
    (halive : env.alive = true) (hr : Retracted env p kUnwindSlices h bGone h') :
    h'.Covered ↔ ¬ h.LeavesBehind env p := by
  have hother : ∀ q, q ≠ p → (q ∈ h'.DrainPeers ↔ q ∈ h.DrainPeers) := by
    intro q hq
    have hup := hr.up q
    simp only [hq, false_implies, and_true] at hup
    rw [mem_drainPeers, mem_drainPeers, hup, hr.known q hq, hr.unretired, hr.armed, get_erase, if_neg (Ne.symm hq)]
  have hself : p ∈ h'.DrainPeers ↔
      (IsPeerUp h.peers p = true ∧ ¬ ClosesOne env p kUnwindSlices h.cons) ∨ p ∈ h.unretired := by
    rw [mem_drainPeers, hr.unretired, hr.up p, hr.armed, get_erase]
    simp
  constructor
  · intro h' hl
    obtain ⟨-, -, hun, ⟨c, hcm, hcl, hcp, hout⟩, hcl'⟩ := hl
    have hm := h' c ((hr.cons c).mpr ⟨hcm, fun _ => hout⟩) hcl
    rw [hcp, hself] at hm
    rcases hm with ⟨hup, hnc⟩ | hm
    · exact hnc (hcl' hup)
    · exact hun hm
  · intro hn d hd hdl
    obtain ⟨hdm, hdo⟩ := (hr.cons d).mp hd
    by_cases hq : d.csPeer = p
    · rw [hq, hself]
      by_cases hun : p ∈ h.unretired
      · exact Or.inr hun
      · by_cases hstays : IsPeerUp h.peers p = true ∧ ¬ ClosesOne env p kUnwindSlices h.cons
        · exact Or.inl hstays
        · refine absurd ⟨hp, halive, hun, ⟨d, hdm, hdl, hq, hdo hq⟩, fun hup => ?_⟩ hn
          exact Classical.byContradiction fun hnc => hstays ⟨hup, hnc⟩
    · exact (hother _ hq).mpr (hc d hdm hdl)

theorem disconnected_covered {env : RetireEnv} {p : WStr} {h h' : Hub} (hc : h.Covered)
    (hd : Disconnected env p h h') : h'.Covered := by
  intro d hdm hdl
  by_cases hq : d.csPeer = p
  · rw [mem_drainPeers, hq]
    exact Or.inr (Or.inr (hd.kept ⟨d, hdm, hq⟩))
  · have hm := hc d ((hd.cons d).mp hdm).1 hdl
    rw [mem_drainPeers] at hm ⊢
    rw [hd.up _ hq, hd.known _ hq, hd.unretired _ hq, hd.armed, get_erase, if_neg (Ne.symm hq)]
    exact hm

theorem markUp_drain {h : Hub} {p q : WStr} (hq : q ∈ h.DrainPeers) : q ∈ (h.MarkPeer p true).DrainPeers := by
  by_cases hp : p = []
  · subst hp; exact hq
  have hpe := markPeer_peers h true hp
  rw [mem_drainPeers] at hq ⊢
  rw [hpe, isPeerUp_insert]
  by_cases he : p = q
  · simp [he]
  · rw [if_neg he, get_insert, if_neg he]
    exact hq

theorem markUp_self {h : Hub} {p : WStr} (hp : p ≠ []) : p ∈ (h.MarkPeer p true).DrainPeers := by
  rw [mem_drainPeers, markPeer_peers h true hp, isPeerUp_insert, if_pos rfl]
  exact Or.inl rfl

theorem login_covered {h : Hub} (i : Nat) (strThat : WStr) (hc : h.Covered) : (loginCon h i strThat).Covered := by
  unfold loginCon
  cases hi : h.cons[i]? with
  | none => exact hc
  | some c =>
    by_cases hw : c.ePhase = .waiting
    · simp only [hw, if_true]; exact hc
    simp only [hw, if_false]
    intro d hd hdl
    have hd' : d ∈ h.cons.set i (c.loggedIn strThat) := hd
    have hold : ∀ d ∈ h.cons, d.Live → d.csPeer ∈
        (Hub.MarkPeer { h with cons := h.cons.set i (c.loggedIn strThat) } strThat true).DrainPeers :=
      fun d hdm hdl => markUp_drain (hc d hdm hdl)
    rcases List.mem_or_eq_of_mem_set hd' with hdm | rfl
    · exact hold d hdm hdl
    · by_cases hn : strThat = []
      · subst hn
        exact hold c (List.mem_of_getElem? hi) ⟨hdl.1, hw⟩
      · have he : strThat.isEmpty = false := by simpa using hn
        simp only [Con.loggedIn, he, Bool.false_eq_true, if_false]
        exact markUp_self hn

theorem accept_covered {h : Hub} (i : Nat) (hc : h.Covered) : (acceptCon h i).Covered := by
  unfold acceptCon
  cases hi : h.cons[i]? with
  | none => exact hc
  | some c =>
    by_cases hs : c.eMode = .service
    case neg => simp only [hs, if_false]; exact hc
    simp only [hs, if_true]
    intro d hd hdl
    rcases List.mem_append.mp hd with hd | hd
    · exact hc d hd hdl
    · obtain rfl := List.mem_singleton.mp hd
      exact absurd rfl hdl.1

theorem redial_covered {h : Hub} (i : Nat) (hc : h.Covered) :
    (redialCon h i).Covered ↔
      ¬ ∃ c, h.cons[i]? = some c ∧ c.ePhase = .waiting ∧ c.eMode ≠ .accept ∧ c.csPeer ∉ h.DrainPeers := by
  unfold redialCon
  cases hi : h.cons[i]? with
  | none => simp [hc]
  | some c =>
    by_cases hw : c.ePhase = .waiting
    case neg => simp [hw, hc]
    simp only [hw, if_true, Option.some.injEq, exists_eq_left', true_and]
    have hd : ∀ p, p ∈ Hub.DrainPeers { h with cons := h.cons.set i { c with ePhase := .posted } } ↔ p ∈ h.DrainPeers :=
      fun p => by rw [mem_drainPeers, mem_drainPeers]
    refine ⟨fun h' hn => hn.2 ?_, fun hn d hdm hdl => ?_⟩
    · have hm : ({ c with ePhase := .posted } : Con) ∈ h.cons.set i { c with ePhase := .posted } :=
        List.mem_set (List.getElem?_eq_some_iff.mp hi).1 _
      have hdrained := h' { c with ePhase := .posted } hm ⟨hn.1, by simp⟩
      exact (hd _).mp hdrained
    · rw [hd]
      rcases List.mem_or_eq_of_mem_set hdm with hdm | rfl
      · exact hc d hdm hdl
      · exact Classical.byContradiction fun hnot => hn ⟨hdl.1, hnot⟩

/-- The live connections after a close are the live ones beside it. -/
theorem live_after_close {h : Hub} {i : Nat} (bRestart : Bool) {c : Con} (hi : h.cons[i]? = some c) (d : Con)
    (hdl : d.Live) : d ∈ (closeCon h i bRestart).cons ↔ ∃ j, j ≠ i ∧ h.cons[j]? = some d := by
  have hcons : (closeCon h i bRestart).cons =
      if c.bRetry && bRestart then h.cons.set i { c with ePhase := .waiting } else h.cons.eraseIdx i := by
    simp only [closeCon, hi]
    rfl
  rw [hcons]
  split
  · rw [List.mem_iff_getElem?]
    constructor
    · intro hm
      obtain ⟨j, hj⟩ := hm
      rw [List.getElem?_set] at hj
      split at hj
      · split at hj
        · cases hj; exact absurd rfl hdl.2
        · cases hj
      · rename_i hne
        exact ⟨j, Ne.symm hne, hj⟩
    · intro hm
      obtain ⟨j, hne, hj⟩ := hm
      exact ⟨j, by rw [List.getElem?_set, if_neg (Ne.symm hne)]; exact hj⟩
  · exact List.mem_eraseIdx_iff_getElem?

theorem close_covered {h : Hub} (i : Nat) (bRestart : Bool) (hc : h.Covered) :
    (closeCon h i bRestart).Covered ↔
      ¬ ∃ c, h.cons[i]? = some c ∧ c.csPeer ≠ [] ∧ c.csPeer ∉ h.unretired ∧ h.LiveBeside i c.csPeer := by
  cases hi : h.cons[i]? with
  | none => simp [closeCon, hi, hc]
  | some c =>
    simp only [Option.some.injEq, exists_eq_left']
    have hlive := fun d hdl => live_after_close bRestart hi d hdl
    have hold : ∀ d, d ∈ (closeCon h i bRestart).cons → d.Live → d ∈ h.cons := by
      intro d hdm hdl
      obtain ⟨j, -, hj⟩ := (hlive d hdl).mp hdm
      exact List.mem_of_getElem? hj
    by_cases hp : c.csPeer = []
    · -- a connection without an address has no row
      have hd : ∀ p, p ∈ (closeCon h i bRestart).DrainPeers ↔ p ∈ h.DrainPeers := by
        intro p
        rw [mem_drainPeers, mem_drainPeers]
        simp [closeCon, hi, hp, Hub.MarkPeer, MarkPeerLocked]
      simp only [hp, ne_eq, not_true_eq_false, false_and, not_false_eq_true, iff_true]
      exact fun d hdm hdl => (hd _).mpr (hc d (hold d hdm hdl) hdl)
    have hpeers : (closeCon h i bRestart).peers = h.peers.insert c.csPeer false := by
      simp only [closeCon, hi]
      exact markPeer_peers _ _ hp
    have hrest : (closeCon h i bRestart).armed = h.armed ∧ (closeCon h i bRestart).unretired = h.unretired := by
      simp only [closeCon, hi]
      exact ⟨rfl, rfl⟩
    have hself : c.csPeer ∈ (closeCon h i bRestart).DrainPeers ↔ c.csPeer ∈ h.unretired := by
      rw [mem_drainPeers, hpeers, hrest.2, isPeerUp_insert, if_pos rfl, get_insert, if_pos rfl]
      simp
    have hother : ∀ q, q ≠ c.csPeer → (q ∈ (closeCon h i bRestart).DrainPeers ↔ q ∈ h.DrainPeers) := by
      intro q hq
      rw [mem_drainPeers, mem_drainPeers, hpeers, hrest.1, hrest.2, isPeerUp_insert, if_neg (Ne.symm hq), get_insert,
        if_neg (Ne.symm hq)]
    constructor
    · intro h' hn
      obtain ⟨-, hun, j, d, hne, hj, hdl, hdp⟩ := hn
      have hm := h' d ((hlive d hdl).mpr ⟨j, hne, hj⟩) hdl
      rw [hdp] at hm
      exact hun (hself.mp hm)
    · intro hn d hdm hdl
      by_cases hq : d.csPeer = c.csPeer
      · rw [hq, hself]
        obtain ⟨j, hne, hj⟩ := (hlive d hdl).mp hdm
        exact Classical.byContradiction fun hun => hn ⟨hp, hun, j, d, hne, hj, hdl, hq⟩
      · exact (hother _ hq).mpr (hc d (hold d hdm hdl) hdl)

/-- One step keeps every live connection in the drain exactly when it does not uncover one. -/
theorem step_covered (s : DrainState) (e : HubEv) (hc : s.Covered) :
    (drainStep inet s e).Covered ↔ ¬ Uncovers inet s e := by
  have harm : ∀ (pOwner : Option Owner) (env : ArmEnv) (toPeer : Option WStr) (endpoint : WStr) (bListen : Bool),
      (ArmUnified inet pOwner env toPeer endpoint bListen s.hub).2.Covered ↔
        ¬ ∃ p, toPeer = some p ∧ ArmsPeer inet pOwner env p endpoint bListen s.hub ∧ s.hub.Skipped p := by
    intro pOwner env toPeer endpoint bListen
    rcases armUnified_adds inet pOwner env toPeer endpoint bListen s.hub with ⟨hn, hs⟩ | ⟨p, rfl, ha, hadd⟩
    · rw [sameCons_covered hs]
      refine ⟨fun _ hx => ?_, fun _ => hc⟩
      obtain ⟨p, hp, ha, -⟩ := hx
      exact hn p hp ha
    · rw [addedCon_covered hc hadd]
      refine ⟨fun hns hx => ?_, fun hx hs => hx ⟨p, rfl, ha, hs⟩⟩
      obtain ⟨q, hq, -, hs⟩ := hx
      cases hq; exact hns hs
  have hhalf : ∀ (t : Trust) (env : ArmEnv) (peer : WStr) (rEp : FacadeEndpoint) (bListen : Bool),
      (ArmResolved env peer rEp bListen { s.hub with trust := t }).2.Covered ↔
        ¬ (Armable env peer s.hub ∧ s.hub.Skipped peer) := by
    intro t env peer rEp bListen
    have htrust := armable_trust env peer s.hub t s.hub.said
    have hc' : Hub.Covered { s.hub with trust := t } := (sameCons_covered ⟨rfl, rfl, rfl, rfl⟩).mpr hc
    rcases armResolved_adds env peer rEp bListen { s.hub with trust := t } with ⟨hn, hs⟩ | ⟨ha, hadd⟩
    · rw [sameCons_covered hs]
      exact ⟨fun _ hx => hn (htrust.mpr hx.1), fun _ => hc'⟩
    · rw [addedCon_covered hc' hadd]
      exact ⟨fun hns hx => hns hx.2, fun hx hs => hx ⟨htrust.mp ha, hs⟩⟩
  cases e with
  | listen pOwner env toPeer endpoint => exact harm pOwner env toPeer endpoint true
  | connect pOwner env toPeer endpoint => exact harm pOwner env toPeer endpoint false
  | linkListen t env peer rEp =>
    unfold drainStep Uncovers
    cases hl : s.linking with
    | some q => simp [hc]
    | none => simpa [DrainState.Covered] using hhalf t env peer rEp true
  | linkDial t env peer rEp => exact hhalf t env peer rEp false
  | linkDone => exact ⟨fun _ hx => hx, fun _ => hc⟩
  | linkUnwind env =>
    unfold drainStep Uncovers
    cases hl : s.linking with
    | none => simp [hc]
    | some p =>
      simp only [Option.some.injEq, exists_eq_left']
      by_cases hp : p = []
      · subst hp
        exact ⟨fun _ hx => hx.1 rfl, fun _ => hc⟩
      cases ha : env.alive with
      | true => exact retracted_covered hc hp ha (closeCon_retracted env kUnwindSlices s.hub hp ha)
      | false =>
        rw [closeCon_dead env kUnwindSlices s.hub hp ha]
        exact ⟨fun _ hx => absurd hx.2.1 (by simp [ha]), fun _ d hd => (by cases hd)⟩
  | disconnect env peer =>
    refine ⟨fun _ hx => hx, fun _ => ?_⟩
    show (Disconnect env peer s.hub).2.Covered
    rcases disconnect_cases env peer s.hub with he | ⟨p, -, -, hd⟩
    · rw [he]; exact hc
    · exact disconnected_covered hc hd
  | accept i => exact ⟨fun _ hx => hx, fun _ => accept_covered i hc⟩
  | login i strThat => exact ⟨fun _ hx => hx, fun _ => login_covered i strThat hc⟩
  | redial i => exact redial_covered i hc
  | close i bRestart => exact close_covered i bRestart hc

/-! ## Runs -/

/-- Every live connection is in the drain in every state of a run exactly when no step of it
    uncovers one. -/
theorem drain_covers_iff (s : DrainState) (hc : s.Covered) (es : List HubEv) :
    Always (drainStep inet) DrainState.Covered s es ↔ Each (drainStep inet) (fun s e => ¬ Uncovers inet s e) s es :=
  always_iff_each (step_covered inet) es hc

/-- A named listen on a new hub, and a clone that logs in. -/
theorem drain_covers_listener :
    (Always (drainStep ⟨fun _ => false, fun _ => none⟩) DrainState.Covered
        ⟨.created ⟨L "A", by decide⟩ false false .zero [] none none, none⟩
        [.listen none ⟨⟨fun _ => true, fun _ => .IdErrIo, fun _ => none, fun _ => none, fun _ => []⟩, ⟨{}, .good, {}⟩,
          true, true⟩ (some (L "A.B")) [], .accept 0, .login 1 (L "A.B")] ↔
      Each (drainStep ⟨fun _ => false, fun _ => none⟩) (fun s e => ¬ Uncovers ⟨fun _ => false, fun _ => none⟩ s e)
        ⟨.created ⟨L "A", by decide⟩ false false .zero [] none none, none⟩
        [.listen none ⟨⟨fun _ => true, fun _ => .IdErrIo, fun _ => none, fun _ => none, fun _ => []⟩, ⟨{}, .good, {}⟩,
          true, true⟩ (some (L "A.B")) [], .accept 0, .login 1 (L "A.B")]) :=
  drain_covers_iff _ _ (fun c hc => (by cases hc)) _

/-- A named listener whose clone has come and gone: the service is on the hub, and the drain
    passes it over. -/
theorem listener_uncovered_by_its_clone :
    ¬ Always (drainStep ⟨fun _ => false, fun _ => none⟩) DrainState.Covered
      ⟨.created ⟨L "A", by decide⟩ false false .zero [] none none, none⟩
      [.listen none ⟨⟨fun _ => true, fun _ => .IdErrIo, fun _ => none, fun _ => none, fun _ => []⟩, ⟨{}, .good, {}⟩,
        true, true⟩ (some (L "A.B")) [], .accept 0, .login 1 (L "A.B"), .close 1 false] := by
  intro hall
  have hcov := hall.last
  obtain ⟨c, hm, hmode, hphase, hpeer⟩ : ∃ c ∈ (exec (drainStep ⟨fun _ => false, fun _ => none⟩)
      ⟨.created ⟨L "A", by decide⟩ false false .zero [] none none, none⟩
      [.listen none ⟨⟨fun _ => true, fun _ => .IdErrIo, fun _ => none, fun _ => none, fun _ => []⟩, ⟨{}, .good, {}⟩,
        true, true⟩ (some (L "A.B")) [], .accept 0, .login 1 (L "A.B"), .close 1 false]).hub.cons,
      c.eMode = .service ∧ c.ePhase = .posted ∧ c.csPeer = L "A.B" := by decide +kernel
  have hin := hcov c hm ⟨by simp [hmode], by simp [hphase]⟩
  rw [hpeer] at hin
  revert hin
  decide +kernel

end TargetFacade
