/-
  TargetFacade.Network.Records — what a run of the network does to the records of its hubs,
  m_mapArmed, and to the deployment map.

  `Rewrites` lists every way a step can change the record a hub keeps for a peer, and
  `step_records` says that there is no other: an arm writes it only while the hub has no
  connection for the peer, and Disconnect and a Link that is unwound erase it.
-/

import TargetFacade.Network.LinkAtomic
import TargetFacade.Network.Deployment

namespace TargetFacade

open OrdMap Runs

/-! ## Runs of a network -/

/-- The kernel retires the connections that do not stay, and raises On_ConClose for each. -/
def Hub.Retire (h : Hub) (stays : Con → Bool) : Hub :=
  (h.cons.filter (!stays ·)).foldl (fun h c => h.MarkPeer c.csPeer false) { h with cons := h.cons.filter stays }

inductive FacadeEv where
  | verb (e : NetEv)
  | map (c : MapCall)
  | retire (address : WStr) (stays : Con → Bool)

def facadeStep (inet : InetPton) (net : Net) : FacadeEv → Net
  | .verb e => netStep inet net e
  | .map c => mapStep inet net c
  | .retire address stays => net.call address fun h => (S_OK, h.Retire stays)

/-! ## One verb on one hub -/

section Verbs

variable (inet : InetPton) (pOwner : Option Owner)

/-- An arm writes its own record, and only on a hub that has no connection for the peer. -/
theorem armResolved_record (env : ArmEnv) (peer : WStr) (rEp : FacadeEndpoint) (bListen : Bool) (h : Hub) :
    (ArmResolved env peer rEp bListen h).2.armed = h.armed ∨
      (FAILED (ArmResolved env peer rEp bListen h).1 = false ∧ h.ConExists peer = false ∧
        (ArmResolved env peer rEp bListen h).2.armed = h.armed.insert peer ⟨rEp.Format, bListen⟩) := by
  have hout := armResolved_cases env peer rEp bListen h
  revert hout
  generalize ArmResolved env peer rEp bListen h = r
  obtain ⟨hr, h'⟩ := r
  intro hout
  cases hout with
  | refused handed hn hf hh => exact Or.inl rfl
  | armed c events ha hf hpeer hmode hphase => exact Or.inr ⟨hf, ha.posts.fresh, rfl⟩

/-- A verb writes its own record, and only when it succeeds. -/
theorem armUnified_record (env : ArmEnv) (peer : Option WStr) (endpoint : WStr) (bListen : Bool) (h : Hub) :
    (ArmUnified inet pOwner env peer endpoint bListen h).2.csAddress = h.csAddress ∧
    ((ArmUnified inet pOwner env peer endpoint bListen h).2.armed = h.armed ∨
      ∃ p, peer = some p ∧ FAILED (ArmUnified inet pOwner env peer endpoint bListen h).1 = false ∧
        FAILED (endpointFor inet pOwner h.csAddress p endpoint bListen).1 = false ∧
        h.ConExists p = false ∧ (ArmUnified inet pOwner env peer endpoint bListen h).2.armed =
          h.armed.insert p ⟨(endpointFor inet pOwner h.csAddress p endpoint bListen).2.Format, bListen⟩) := by
  have hout := armUnified_cases inet pOwner env peer endpoint bListen h
  revert hout
  generalize ArmUnified inet pOwner env peer endpoint bListen h = r
  obtain ⟨hr, h'⟩ := r
  intro hout
  cases hout with
  | early hr hf hn => exact ⟨rfl, Or.inl rfl⟩
  | barred p hr t said hpeer hs hshut hf => exact ⟨rfl, Or.inl rfl⟩
  | passed p t said hpeer hne hres hgate =>
    refine ⟨armResolved_address env p _ bListen _, ?_⟩
    rcases armResolved_record env p (endpointFor inet pOwner h.csAddress p endpoint bListen).2 bListen
        { h with trust := t, said := said } with hsame | ⟨hok, hfree, hnew⟩
    · exact Or.inl hsame
    · exact Or.inr ⟨p, hpeer, hok, hres, hfree, hnew⟩

/-- An arming verb that is not refused has posted a connection of the endpoint it was given or
    resolved, and recorded it. -/
theorem armUnified_made {env : ArmEnv} {peer : Option WStr} {endpoint : WStr} {bListen : Bool} {h : Hub}
    (hok : FAILED (ArmUnified inet pOwner env peer endpoint bListen h).1 = false) :
    ∃ p c, peer = some p ∧ p ≠ [] ∧ FAILED (endpointFor inet pOwner h.csAddress p endpoint bListen).1 = false ∧
      c.csPeer = p ∧ c.eMode = (if bListen then .service else .client) ∧
      c.rEp = (endpointFor inet pOwner h.csAddress p endpoint bListen).2 ∧
      (ArmUnified inet pOwner env peer endpoint bListen h).2.cons = h.cons ++ [c] ∧
      (ArmUnified inet pOwner env peer endpoint bListen h).2.armed = h.armed.insert p ⟨c.rEp.Format, bListen⟩ := by
  have hout := armUnified_cases inet pOwner env peer endpoint bListen h
  revert hout hok
  generalize ArmUnified inet pOwner env peer endpoint bListen h = r
  obtain ⟨hr, h'⟩ := r
  intro hok hout
  cases hout with
  | early hr hf hn => exact absurd (hok.symm.trans hf) Bool.false_ne_true
  | barred p hr t said hpeer hs hshut hf => exact absurd (hok.symm.trans hf) Bool.false_ne_true
  | passed p t said hpeer hne hres hgate =>
    obtain ⟨c, hcp, hcm, hce, hcons, harmed⟩ := armResolved_made hok
    exact ⟨p, c, hpeer, hne, hres, hcp, hcm, hce, hcons, by rw [harmed, hce]⟩

theorem retire_record (h : Hub) (stays : Con → Bool) :
    (h.Retire stays).csAddress = h.csAddress ∧ (h.Retire stays).armed = h.armed := by
  have hfold : ∀ (gone : List Con) (h : Hub), (gone.foldl (fun h c => h.MarkPeer c.csPeer false) h).csAddress = h.csAddress ∧
      (gone.foldl (fun h c => h.MarkPeer c.csPeer false) h).armed = h.armed := by
    intro gone
    induction gone with
    | nil => exact fun h => ⟨rfl, rfl⟩
    | cons c gone ih => exact fun h => ih (h.MarkPeer c.csPeer false)
  exact hfold _ _

/-- CloseCon erases the peer's record, and nothing else of the records. -/
theorem closeCon_record (env : RetireEnv) {peer : WStr} (n : Nat) (h : Hub) (hp : peer ≠ []) :
    (CloseCon env peer n h).2.armed = h.armed.erase peer := by
  cases ha : env.alive with
  | true => exact (closeCon_retracted env n h hp ha).armed
  | false => rw [closeCon_dead env n h hp ha]

theorem disconnect_record (env : RetireEnv) (peer : Option WStr) (h : Hub) :
    (Disconnect env peer h).2.csAddress = h.csAddress ∧
    ((Disconnect env peer h).2.armed = h.armed ∨
      ∃ p, peer = some p ∧ (Disconnect env peer h).2.armed = h.armed.erase p) := by
  constructor
  · unfold Disconnect
    cases peer with
    | none => rfl
    | some p =>
      simp only
      repeat' split
      all_goals first
        | rfl
        | exact closeCon_address env kRetireSlices h (by simp_all)
  · rcases disconnect_cases env peer h with he | ⟨p, hp, -, hd⟩
    · exact Or.inl (by rw [he])
    · exact Or.inr ⟨p, hp, hd.armed⟩

/-- The edge of a link writes one record on each hub, its own; the listener's may be gone again. -/
theorem armEdge_record (env : LinkEnv) (oListen oDial : FacadeEndpoint) (pListener pDialer : Hub) :
    ((armEdge env oListen oDial pListener pDialer).2.1.armed = pListener.armed ∨
      ∃ r, (r = none ∨ r = some ⟨oListen.Format, true⟩) ∧ (armEdge env oListen oDial pListener pDialer).2.1.armed =
        putBack pListener.armed pDialer.csAddress r) ∧
    ((armEdge env oListen oDial pListener pDialer).2.2.armed = pDialer.armed ∨
      (armEdge env oListen oDial pListener pDialer).2.2.armed =
        pDialer.armed.insert pListener.csAddress ⟨oDial.Format, false⟩) := by
  have haddr := armResolved_address env.listen pDialer.csAddress oListen true pListener
  have hrecL := armResolved_record env.listen pDialer.csAddress oListen true pListener
  unfold armEdge
  generalize ArmResolved env.listen pDialer.csAddress oListen true pListener = rL at *
  obtain ⟨hrL, pL⟩ := rL
  simp only at haddr hrecL ⊢
  have hlisten : pL.armed = pListener.armed ∨ ∃ r, (r = none ∨ r = some (⟨oListen.Format, true⟩ : ArmedCon)) ∧
      pL.armed = putBack pListener.armed pDialer.csAddress r := by
    rcases hrecL with hs | ⟨-, -, hn⟩
    · exact Or.inl hs
    · exact Or.inr ⟨_, Or.inr rfl, hn⟩
  by_cases hl : FAILED hrL = true
  · simp only [hl, if_true]
    exact ⟨hlisten, Or.inl trivial⟩
  simp only [hl, Bool.false_eq_true, if_false, haddr]
  have hdaddr := armResolved_address env.dial pListener.csAddress oDial false pDialer
  have hrecD := armResolved_record env.dial pListener.csAddress oDial false pDialer
  generalize ArmResolved env.dial pListener.csAddress oDial false pDialer = rD at *
  obtain ⟨hrD, pD⟩ := rD
  simp only at hdaddr hrecD ⊢
  have hdial : pD.armed = pDialer.armed ∨ pD.armed = pDialer.armed.insert pListener.csAddress ⟨oDial.Format, false⟩ :=
    hrecD.imp id (·.2.2)
  by_cases hd : FAILED hrD = true
  · simp only [hd, if_true]
    refine ⟨Or.inr ⟨none, Or.inl rfl, ?_⟩, hdial⟩
    rw [closeCon_record _ _ _ pD.oAddress.2, show pD.oAddress.1 = pDialer.csAddress from hdaddr]
    rcases hrecL with hs | ⟨-, -, hn⟩
    · rw [hs]
      rfl
    · rw [hn]
      apply map_ext
      intro q
      simp only [putBack, get_erase, get_insert]
      split <;> rfl
  · simp only [hd, Bool.false_eq_true, if_false]
    exact ⟨hlisten, hdial⟩

end Verbs

/-! ## One step of the network -/

/-- How a step can write the record that the hub `h` keeps for `q`: none is an erasure. -/
inductive Rewrites (inet : InetPton) (net : Net) (h : Hub) (q : WStr) : FacadeEv → Option ArmedCon → Prop
  | listen (endpoint : WStr) (env : ArmEnv) (hfree : h.ConExists q = false)
      (hok : FAILED (Listen inet (some (net.owner inet)) env (some q) endpoint h).1 = false)
      (hres : FAILED (endpointFor inet (some (net.owner inet)) h.csAddress q endpoint true).1 = false) :
      Rewrites inet net h q (.verb (.listen h.csAddress (some q) endpoint env))
        (some ⟨(endpointFor inet (some (net.owner inet)) h.csAddress q endpoint true).2.Format, true⟩)
  | connect (endpoint : WStr) (env : ArmEnv) (hfree : h.ConExists q = false)
      (hok : FAILED (Connect inet (some (net.owner inet)) env (some q) endpoint h).1 = false)
      (hres : FAILED (endpointFor inet (some (net.owner inet)) h.csAddress q endpoint false).1 = false) :
      Rewrites inet net h q (.verb (.connect h.csAddress (some q) endpoint env))
        (some ⟨(endpointFor inet (some (net.owner inet)) h.csAddress q endpoint false).2.Format, false⟩)
  | listener (endpoint : WStr) (env : LinkEnv) (oListen oDial : FacadeEndpoint) (r : Option ArmedCon)
      (hfree : h.ConExists q = false) (hep : linkEndpoints inet h.csAddress q endpoint = (S_OK, oListen, oDial))
      (hr : r = none ∨ r = some ⟨oListen.Format, true⟩) :
      Rewrites inet net h q (.verb (.link (some h.csAddress) (some q) endpoint env)) r
  | dialer (endpoint : WStr) (env : LinkEnv) (oListen oDial : FacadeEndpoint) (hfree : h.ConExists q = false)
      (hep : linkEndpoints inet q h.csAddress endpoint = (S_OK, oListen, oDial)) :
      Rewrites inet net h q (.verb (.link (some q) (some h.csAddress) endpoint env)) (some ⟨oDial.Format, false⟩)
  | disconnect (env : RetireEnv) : Rewrites inet net h q (.verb (.disconnect h.csAddress (some q) env)) none

/-- The hub `h` becomes `h'`: its records are what they were, but for what the step writes. -/
structure StepOn (inet : InetPton) (net : Net) (e : FacadeEv) (h h' : Hub) : Prop where
  address : h'.csAddress = h.csAddress
  records : ∀ q : WStr, h'.armed[q]? = h.armed[q]? ∨ ∃ r, Rewrites inet net h q e r ∧ h'.armed[q]? = r

section Steps

variable {inet : InetPton} {net : Net}

theorem stepOn_same {e : FacadeEv} {h h' : Hub} (haddr : h'.csAddress = h.csAddress) (harmed : h'.armed = h.armed) :
    StepOn inet net e h h' := ⟨haddr, fun q => Or.inl (by rw [harmed])⟩

/-- The record of one peer is written, the others are left. -/
theorem stepOn_putBack {e : FacadeEv} {h h' : Hub} {p : WStr} {r : Option ArmedCon} (haddr : h'.csAddress = h.csAddress)
    (hw : Rewrites inet net h p e r) (harmed : h'.armed = putBack h.armed p r) : StepOn inet net e h h' := by
  refine ⟨haddr, fun q => ?_⟩
  rw [harmed, get_putBack]
  by_cases hq : p = q
  · subst hq
    exact Or.inr ⟨r, hw, if_pos rfl⟩
  · exact Or.inl (if_neg hq)

theorem find_call {address : WStr} {verb : Hub → HRESULT × Hub} (haddr : ∀ h, (verb h).2.csAddress = h.csAddress)
    (x : WStr) : (net.call address verb).FindHubLocked x =
      (net.FindHubLocked x).map fun h => if x = address then (verb h).2 else h := by
  unfold Net.call
  cases hf : net.FindHubLocked address with
  | none =>
    cases hx : net.FindHubLocked x with
    | none => rfl
    | some h =>
      have hne : x ≠ address := fun e => by rw [e, hf] at hx; cases hx
      simp [hne]
  | some g =>
    simp only
    rw [find_setHub, haddr, find_address hf]
    by_cases hx : x = address
    · subst hx
      simp [hf]
    · simp [hx]

/-- A verb on the hub at `address` is a step on every hub, when it is one on that hub. -/
theorem call_stepOn {e : FacadeEv} {address : WStr} {verb : Hub → HRESULT × Hub}
    (hverb : ∀ h : Hub, (h.csAddress = address → StepOn inet net e h (verb h).2) ∧ (verb h).2.csAddress = h.csAddress)
    {x : WStr} {h : Hub} (hf : net.FindHubLocked x = some h) :
    ∃ h', (net.call address verb).FindHubLocked x = some h' ∧ StepOn inet net e h h' := by
  rw [find_call fun h => (hverb h).2, hf]
  refine ⟨if x = address then (verb h).2 else h, rfl, ?_⟩
  by_cases hx : x = address
  · rw [if_pos hx]
    exact (hverb h).1 ((find_address hf).trans hx)
  · rw [if_neg hx]
    exact stepOn_same rfl rfl

theorem link_stepOn (env : LinkEnv) (listenerAddr dialerAddr : Option WStr) (endpoint : WStr) {x : WStr} {h : Hub}
    (hf : net.FindHubLocked x = some h) :
    ∃ h', (Link inet env listenerAddr dialerAddr endpoint net).2.FindHubLocked x = some h' ∧
      StepOn inet net (.verb (.link listenerAddr dialerAddr endpoint env)) h h' := by
  have hout := link_cases inet env listenerAddr dialerAddr endpoint net
  generalize Link inet env listenerAddr dialerAddr endpoint net = r at hout
  cases hout with
  | early hr net' hfail hcode hhubs hmap hnet =>
    refine ⟨h, ?_, stepOn_same rfl rfl⟩
    rw [find_congr hhubs]
    exact hf
  | late a b oListen oDial pListener pDialer tL tD net' hr pL pD ha hb hab hep hL hD hfreeL hfreeD hhubs hmap hplain
      hout =>
    subst ha hb
    have haL := find_address hL
    have haD := find_address hD
    have hfind := find_congr hhubs
    -- what became of the two hubs
    obtain ⟨haddrL, haddrD, hstepL, hstepD⟩ : pL.csAddress = a ∧ pD.csAddress = b ∧
        StepOn inet net (.verb (.link (some a) (some b) endpoint env)) pListener pL ∧
        StepOn inet net (.verb (.link (some a) (some b) endpoint env)) pDialer pD := by
      rcases hout with ⟨-, -, rfl, rfl⟩ | ⟨-, -, hedge⟩
      · exact ⟨haL, haD, stepOn_same rfl rfl, stepOn_same rfl rfl⟩
      · obtain ⟨hla, hda⟩ := armEdge_addresses env oListen oDial { pListener with trust := tL } { pDialer with trust := tD }
        obtain ⟨hrl, hrd⟩ := armEdge_record env oListen oDial { pListener with trust := tL } { pDialer with trust := tD }
        rw [hedge] at hla hda hrl hrd
        refine ⟨hla.trans haL, hda.trans haD, ?_, ?_⟩
        · rcases hrl with hs | ⟨r, hr, hn⟩
          · exact stepOn_same hla hs
          · refine stepOn_putBack (p := b) (r := r) hla ?_ (haD ▸ hn)
            rw [← haL] at hep ⊢
            exact .listener endpoint env oListen oDial r hfreeL hep hr
        · rcases hrd with hs | hn
          · exact stepOn_same hda hs
          · refine stepOn_putBack (p := a) (r := some ⟨oDial.Format, false⟩) hda ?_ (haL ▸ hn)
            rw [← haD] at hep ⊢
            exact .dialer endpoint env oListen oDial hfreeD hep
    simp only
    rw [find_setHub, find_setHub, haddrL, haddrD, hfind]
    by_cases hxb : x = b
    · subst hxb
      have hne : ¬ x = a := Ne.symm hab
      obtain rfl : pDialer = h := by rw [hD] at hf; exact Option.some.inj hf
      exact ⟨pD, by simp [hne, hD], hstepD⟩
    · by_cases hxa : x = a
      · subst hxa
        obtain rfl : pListener = h := by rw [hL] at hf; exact Option.some.inj hf
        exact ⟨pL, by simp [hxb, hL], hstepL⟩
      · exact ⟨h, by simp [hxa, hxb, hf], stepOn_same rfl rfl⟩

/-- A hub is there after a step when it was there before, and its records are what `Rewrites` says. -/
theorem step_records (e : FacadeEv) {x : WStr} {h : Hub} (hf : net.FindHubLocked x = some h) :
    ∃ h', (facadeStep inet net e).FindHubLocked x = some h' ∧ StepOn inet net e h h' := by
  cases e with
  | map c =>
    refine ⟨h, ?_, stepOn_same rfl rfl⟩
    exact (find_congr (mapStep_hubs inet net c) x).trans hf
  | retire address stays =>
    refine call_stepOn (fun h => ⟨fun _ => ?_, (retire_record h stays).1⟩) hf
    exact stepOn_same (retire_record h stays).1 (retire_record h stays).2
  | verb e =>
    cases e with
    | listen address toPeer endpoint env =>
      refine call_stepOn (fun h => ⟨fun haddr => ?_, (armUnified_record inet _ env toPeer endpoint true h).1⟩) hf
      obtain ⟨ha, hs | ⟨p, rfl, hok, hres, hfree, hn⟩⟩ := armUnified_record inet (some (net.owner inet)) env toPeer endpoint true h
      · exact stepOn_same ha hs
      · subst haddr
        exact stepOn_putBack ha (.listen endpoint env hfree hok hres) hn
    | connect address toPeer endpoint env =>
      refine call_stepOn (fun h => ⟨fun haddr => ?_, (armUnified_record inet _ env toPeer endpoint false h).1⟩) hf
      obtain ⟨ha, hs | ⟨p, rfl, hok, hres, hfree, hn⟩⟩ := armUnified_record inet (some (net.owner inet)) env toPeer endpoint false h
      · exact stepOn_same ha hs
      · subst haddr
        exact stepOn_putBack ha (.connect endpoint env hfree hok hres) hn
    | link listenerAddr dialerAddr endpoint env => exact link_stepOn env listenerAddr dialerAddr endpoint hf
    | disconnect address peer env =>
      refine call_stepOn (fun h => ⟨fun haddr => ?_, (disconnect_record env peer h).1⟩) hf
      obtain ⟨ha, hs | ⟨p, rfl, hn⟩⟩ := disconnect_record env peer h
      · exact stepOn_same ha hs
      · subst haddr
        exact stepOn_putBack ha (.disconnect env) hn

/-- No step brings a hub. -/
theorem find_before (e : FacadeEv) {x : WStr} {h' : Hub} (hf : (facadeStep inet net e).FindHubLocked x = some h') :
    ∃ h, net.FindHubLocked x = some h := by
  have hcall : ∀ {address : WStr} {verb : Hub → HRESULT × Hub}, (∀ h, (verb h).2.csAddress = h.csAddress) →
      (net.call address verb).FindHubLocked x = some h' → ∃ h, net.FindHubLocked x = some h := by
    intro address verb haddr hf
    rw [find_call haddr] at hf
    obtain ⟨h, hfound, -⟩ := Option.map_eq_some_iff.mp hf
    exact ⟨h, hfound⟩
  cases e with
  | map c =>
    exact ⟨h', (find_congr (mapStep_hubs inet net c) x).symm.trans hf⟩
  | retire address stays => exact hcall (fun h => (retire_record h stays).1) hf
  | verb e =>
    cases e with
    | listen address toPeer endpoint env =>
      exact hcall (fun h => (armUnified_record inet _ env toPeer endpoint true h).1) hf
    | connect address toPeer endpoint env =>
      exact hcall (fun h => (armUnified_record inet _ env toPeer endpoint false h).1) hf
    | disconnect address peer env => exact hcall (fun h => (disconnect_record env peer h).1) hf
    | link listenerAddr dialerAddr endpoint env =>
      have hout := link_cases inet env listenerAddr dialerAddr endpoint net
      have hf' : (Link inet env listenerAddr dialerAddr endpoint net).2.FindHubLocked x = some h' := hf
      generalize Link inet env listenerAddr dialerAddr endpoint net = r at hout hf'
      cases hout with
      | early hr net' hfail hcode hhubs hmap hnet =>
        exact ⟨h', (find_congr hhubs x).symm.trans hf'⟩
      | late a b oListen oDial pListener pDialer tL tD net' hr pL pD ha hb hab hep hL hD hfreeL hfreeD hhubs hmap hplain
          hout =>
        have hfind := find_congr hhubs x
        cases hx : net.FindHubLocked x with
        | some h => exact ⟨h, rfl⟩
        | none =>
          simp only [find_setHub, hfind, hx, Option.map_none, ite_self] at hf'
          cases hf'

theorem call_map (address : WStr) (verb : Hub → HRESULT × Hub) :
    (net.call address verb).mapEndpoints = net.mapEndpoints := by
  unfold Net.call
  split <;> rfl

/-- The verbs leave the map alone. -/
theorem step_map (e : FacadeEv) : (facadeStep inet net e).mapEndpoints = net.mapEndpoints ∨ ∃ c, e = .map c := by
  cases e with
  | map c => exact Or.inr ⟨c, rfl⟩
  | retire address stays => exact Or.inl (call_map address _)
  | verb e =>
    refine Or.inl ?_
    cases e with
    | listen address toPeer endpoint env => exact call_map address _
    | connect address toPeer endpoint env => exact call_map address _
    | disconnect address peer env => exact call_map address _
    | link listenerAddr dialerAddr endpoint env =>
      have hout := link_cases inet env listenerAddr dialerAddr endpoint net
      show (Link inet env listenerAddr dialerAddr endpoint net).2.mapEndpoints = net.mapEndpoints
      generalize Link inet env listenerAddr dialerAddr endpoint net = r at hout
      cases hout with
      | early hr net' hfail hcode hhubs hmap hnet => exact hmap
      | late a b oListen oDial pListener pDialer tL tD net' hr pL pD ha hb hab hep hL hD hfreeL hfreeD hhubs hmap hplain
          hout =>
        exact hmap

theorem mapInv_facadeStep (hinet : inet.Literal) (h : MapInv inet net.mapEndpoints) (e : FacadeEv) :
    MapInv inet (facadeStep inet net e).mapEndpoints := by
  rcases @step_map inet net e with hs | ⟨c, rfl⟩
  · rw [hs]
    exact h
  · exact mapInv_step hinet h c

end Steps

end TargetFacade
