/-
  TargetFacade.Network.ArmingGate — no connection reaches the kernel on a secure hub that
  is not enforcing, over runs of Listen, Connect, Link and Disconnect.

  The reason is local to one call. On a secure hub each path to PostCon passes
  TrustAndEnforce or AdmitPatternPeer first, in the same call and on the same hub: the one
  answers S_OK only with the flag on, the gate's ArmOk and the peer's line loaded; the other
  only on the gate's ArmOk, which the kernel gives no hub whose flag is off. What came before
  the call, its failures and its roll-backs included, does not matter (`Ready`).
-/

import TargetFacade.Network.SecureEdge
import TargetFacade.Hub.ArmSpec
import TargetFacade.Hub.RetireSpec

namespace TargetFacade

open OrdMap Runs

/-- The connection was handed over while the hub enforced; and for one named peer, under the
    key the hub had just trusted it for, with that entry on the list in force. -/
structure Handover.Gated (ho : Handover) : Prop where
  enforcing : ho.requireAuth = true
  answered : ho.lastArm = some .ArmOk
  listed : IsPattern ho.peer = false →
    ∃ k, ho.lastTrust = some (ho.peer, k) ∧ (ho.peer, k.published) ∈ ho.loaded

def Hub.Gated (h : Hub) : Prop := h.bSecure = true → ∀ ho ∈ h.handed, ho.Gated

def Net.Gated (net : Net) : Prop := ∀ h ∈ net.hubs, h.Gated

/-- A connection for `peer` may be handed over now. -/
def Hub.Ready (h : Hub) (peer : WStr) : Prop := h.bSecure = true → (h.handover peer).Gated

/-! ## The calls -/

inductive NetEv where
  | listen (address : WStr) (toPeer : Option WStr) (endpoint : WStr) (env : ArmEnv)
  | connect (address : WStr) (toPeer : Option WStr) (endpoint : WStr) (env : ArmEnv)
  | link (listenerAddr dialerAddr : Option WStr) (endpoint : WStr) (env : LinkEnv)
  | disconnect (address : WStr) (peer : Option WStr) (env : RetireEnv)

/-- A verb called on the hub at `address`. -/
def Net.call (net : Net) (address : WStr) (verb : Hub → HRESULT × Hub) : Net :=
  match net.FindHubLocked address with
  | none => net
  | some h => net.setHub (verb h).2

variable (inet : InetPton)

def netStep (net : Net) : NetEv → Net
  | .listen address toPeer endpoint env => net.call address (Listen inet (some (net.owner inet)) env toPeer endpoint)
  | .connect address toPeer endpoint env => net.call address (Connect inet (some (net.owner inet)) env toPeer endpoint)
  | .link listenerAddr dialerAddr endpoint env => (Link inet env listenerAddr dialerAddr endpoint net).2
  | .disconnect address peer env => net.call address (Disconnect env peer)

/-! ## Trust makes a hub ready -/

theorem trusted_ready {h : Hub} {t : Trust} (said : List HubWhy) {peer : WStr} {k : SecKeys}
    (hlo : t.loaded = lines (h.trust.trusted.insert peer k)) (hau : t.requireAuth = true)
    (harm : t.lastArm = some .ArmOk) (hgr : t.lastTrust = some (peer, k)) :
    Hub.Ready { h with trust := t, said := said } peer := fun _ =>
  ⟨hau, harm, fun _ => ⟨k, hgr, by
    show (peer, k.published) ∈ t.loaded
    rw [hlo]; exact mem_lines_pair.mpr ⟨k, by simp, rfl⟩⟩⟩

theorem published_ready (env : ArmEnv) {peer : WStr} (h : Hub) (hp : peer ≠ []) :
    ∃ hr t said, TrustPublishedPeer env peer h = (hr, { h with trust := t, said := said }) ∧
      (FAILED hr = false → Hub.Ready { h with trust := t, said := said } peer) := by
  obtain ⟨hr, t, said, hpub, ⟨-, -, hf⟩ | ⟨k, -, hout⟩⟩ := published_cases env h hp
  · exact ⟨hr, t, said, hpub, fun hok => absurd hf (by simp [hok])⟩
  · refine ⟨hr, t, said, hpub, fun hok => ?_⟩
    cases hout with
    | unwritten temp file hw => cases hok
    | unarmed _ hw ha htr hlo hau hgr => cases hok
    | trusted _ hw ha htr hlo hau harm hgr => exact trusted_ready said hlo hau harm hgr

/-- The gate's ArmOk is no answer to a hub whose flag is off. -/
theorem admit_ready (env : ArmEnv) {peer : WStr} (h : Hub) (hpat : IsPattern peer = true) :
    ∃ hr t said, AdmitPatternPeer env peer h = (hr, { h with trust := t, said := said }) ∧
      (FAILED hr = false → Hub.Ready { h with trust := t, said := said } peer) := by
  obtain ⟨hr, said, had, hok⟩ := admit_cases env peer h
  refine ⟨hr, _, said, had, fun hs _ => ⟨?_, ?_, fun hn => absurd hpat (by simp [Hub.handover] at hn; simp [hn])⟩⟩
  · show h.trust.requireAuth = true
    cases hra : h.trust.requireAuth with
    | true => rfl
    | false =>
      have hans := hok.mp hs
      rw [hra] at hans
      exact absurd hans env.trust.arm.off
  · show some (env.trust.arm.answer h.trust.requireAuth) = some .ArmOk
    rw [hok.mp hs]

/-! ## One hub -/

theorem armResolved_gated (env : ArmEnv) {peer : WStr} (rEp : FacadeEndpoint) (bListen : Bool) {h : Hub}
    (hg : h.Gated) (hready : h.Ready peer) : (ArmResolved env peer rEp bListen h).2.Gated := by
  have hadd : h.bSecure = true → ∀ ho ∈ h.handed ++ [h.handover peer], ho.Gated := by
    intro hs ho hm
    rcases List.mem_append.mp hm with hm | hm
    · exact hg hs ho hm
    · obtain rfl : ho = h.handover peer := by simpa using hm
      exact hready hs
  have hout := armResolved_cases env peer rEp bListen h
  revert hout
  generalize ArmResolved env peer rEp bListen h = r
  obtain ⟨hr, h'⟩ := r
  intro hout
  cases hout with
  | refused handed hn hf hh =>
    rcases hh with rfl | rfl
    · exact hg
    · exact hadd
  | armed c events ha hf hpeer hmode hphase => exact hadd

theorem armUnified_gated (pOwner : Option Owner) (env : ArmEnv) (peer : Option WStr) (endpoint : WStr)
    (bListen : Bool) {h : Hub} (hg : h.Gated) : (ArmUnified inet pOwner env peer endpoint bListen h).2.Gated := by
  have hout := armUnified_cases inet pOwner env peer endpoint bListen h
  revert hout
  generalize ArmUnified inet pOwner env peer endpoint bListen h = r
  obtain ⟨hr, h'⟩ := r
  intro hout
  cases hout with
  | early hr hf hn => exact hg
  | barred p hr t said hpeer hs hshut hf => exact hg
  | passed p t said hpeer hne hres hgate =>
    refine armResolved_gated env _ bListen hg ?_
    rcases hgate with ⟨hplain, -⟩ | ⟨-, -, hr, he, hf⟩
    · intro hs
      exact absurd (hs.symm.trans hplain) Bool.true_eq_false.mp
    -- either gate leaves the hub ready when it does not refuse
    obtain ⟨hr', t', said', he', hready⟩ : ∃ hr t said,
        (if IsPattern p = true then AdmitPatternPeer env p h else TrustPublishedPeer env p h) =
          (hr, { h with trust := t, said := said }) ∧
        (FAILED hr = false → Hub.Ready { h with trust := t, said := said } p) := by
      by_cases hpat : IsPattern p = true
      · rw [if_pos hpat]
        exact admit_ready env h hpat
      · rw [if_neg hpat]
        exact published_ready env h hne
    obtain ⟨hcode, hhub⟩ := Prod.mk.inj (he.symm.trans he')
    rw [hhub]
    exact hready (hcode ▸ hf)

theorem closeCon_gated (env : RetireEnv) (peer : WStr) (nSlices : Nat) {h : Hub} (hg : h.Gated) :
    (CloseCon env peer nSlices h).2.Gated := by
  by_cases hp : peer = []
  · subst hp; exact hg
  cases ha : env.alive with
  | true =>
    have hr := closeCon_retracted env nSlices h hp ha
    intro hs
    rw [hr.secure] at hs
    rw [hr.handed]
    exact hg hs
  | false =>
    rw [closeCon_dead env nSlices h hp ha]
    exact hg

theorem disconnect_gated (env : RetireEnv) (peer : Option WStr) {h : Hub} (hg : h.Gated) :
    (Disconnect env peer h).2.Gated := by
  rcases disconnect_cases env peer h with he | ⟨p, -, -, hd⟩
  · rw [he]; exact hg
  · intro hs
    rw [hd.secure] at hs
    rw [hd.handed]
    exact hg hs

/-! ## The network -/

theorem setHub_gated {net : Net} {h : Hub} (hn : net.Gated) (hg : h.Gated) : (net.setHub h).Gated := by
  intro g hm
  obtain ⟨g0, hg0, rfl⟩ := List.mem_map.mp hm
  split
  · exact hg
  · exact hn g0 hg0

theorem found_gated {net : Net} {address : WStr} {h : Hub} (hn : net.Gated) (hf : net.FindHubLocked address = some h) :
    h.Gated := hn h (List.mem_of_find?_eq_some hf)

theorem call_gated {net : Net} (address : WStr) {verb : Hub → HRESULT × Hub} (hn : net.Gated)
    (hv : ∀ {h : Hub}, h.Gated → (verb h).2.Gated) : (net.call address verb).Gated := by
  unfold Net.call
  cases hf : net.FindHubLocked address with
  | none => exact hn
  | some h => exact setHub_gated hn (hv (found_gated hn hf))

/-- The edge leaves each hub as it was but for its trust; and once it stands each is ready
    for the other. -/
theorem secureEdge_ready (env : EdgeEnv) (net : Net) (pA pB : Hub) :
    ∃ hr net' tA tB, SecureEdgeLocked env net pA pB = (hr, net', { pA with trust := tA }, { pB with trust := tB }) ∧
      net'.hubs = net.hubs ∧ (FAILED hr = false →
        Hub.Ready { pA with trust := tA } pB.csAddress ∧ Hub.Ready { pB with trust := tB } pA.csAddress) := by
  by_cases htrades : Trades env net pA pB
  case neg =>
    obtain ⟨hr, net', hf, hh, he⟩ := secureEdge_stays htrades
    exact ⟨hr, net', pA.trust, pB.trust, he, hh, fun hok => absurd hf (by simp [hok])⟩
  obtain ⟨csDir, net', hh, he⟩ := secureEdge_trades htrades
  rw [he]
  have hout := trust_cases pA.csAddress csDir env.first pB.oSecKeys pA.trust pB.oAddress.2
  revert hout
  generalize TrustAndEnforce pA.csAddress pB.csAddress pB.oSecKeys csDir env.first pA.trust = r
  obtain ⟨hr, what, t1⟩ := r
  intro hout
  have hout2 := trust_cases pB.csAddress csDir env.second pA.oSecKeys pB.trust pA.oAddress.2
  revert hout2
  generalize TrustAndEnforce pB.csAddress pA.csAddress pA.oSecKeys csDir env.second pB.trust = r2
  obtain ⟨hr2, what2, t2⟩ := r2
  intro hout2
  by_cases hf : FAILED hr = true
  · simp only [hf, if_true]
    exact ⟨_, _, t1, pB.trust, rfl, hh, fun hok => (by cases hok)⟩
  simp only [hf, Bool.false_eq_true, if_false]
  by_cases hf2 : FAILED hr2 = true
  · simp only [hf2, if_true]
    by_cases htr : pA.trust.Trusts pB.csAddress = true
    · simp only [htr, Bool.not_true, Bool.false_eq_true, if_false]
      exact ⟨_, _, t1, t2, rfl, hh, fun hok => (by cases hok)⟩
    · simp only [htr, Bool.not_false, if_true]
      exact ⟨_, _, _, t2, rfl, hh, fun hok => (by cases hok)⟩
  simp only [hf2, Bool.false_eq_true, if_false]
  refine ⟨_, _, t1, t2, rfl, hh, fun _ => ⟨?_, ?_⟩⟩
  · cases hout with
    | unwritten temp file hw => exact absurd rfl hf
    | unarmed _ hw ha htr hlo hau hgr => exact absurd rfl hf
    | trusted _ hw ha htr hlo hau harm hgr => exact trusted_ready pA.said hlo hau harm hgr
  · cases hout2 with
    | unwritten temp file hw => exact absurd rfl hf2
    | unarmed _ hw ha htr hlo hau hgr => exact absurd rfl hf2
    | trusted _ hw ha htr hlo hau harm hgr => exact trusted_ready pB.said hlo hau harm hgr

theorem armResolved_address (env : ArmEnv) (peer : WStr) (rEp : FacadeEndpoint) (bListen : Bool) (h : Hub) :
    (ArmResolved env peer rEp bListen h).2.csAddress = h.csAddress := by
  have hout := armResolved_cases env peer rEp bListen h
  revert hout
  generalize ArmResolved env peer rEp bListen h = r
  obtain ⟨hr, h'⟩ := r
  intro hout
  cases hout with
  | refused handed hn hf hh => rfl
  | armed c events ha hf hpeer hmode hphase => rfl

theorem armEdge_gated (env : LinkEnv) (oListen oDial : FacadeEndpoint) {pListener pDialer : Hub}
    (hl : pListener.Gated) (hd : pDialer.Gated) (hlr : pListener.Ready pDialer.csAddress)
    (hdr : pDialer.Ready pListener.csAddress) :
    (armEdge env oListen oDial pListener pDialer).2.1.Gated ∧ (armEdge env oListen oDial pListener pDialer).2.2.Gated := by
  unfold armEdge
  have haddr := armResolved_address env.listen pDialer.csAddress oListen true pListener
  have hl' := armResolved_gated env.listen oListen true hl hlr
  generalize ArmResolved env.listen pDialer.csAddress oListen true pListener = r at haddr hl'
  obtain ⟨hr, l'⟩ := r
  by_cases hf : FAILED hr = true
  · simp only [hf, if_true]
    exact ⟨hl', hd⟩
  simp only [hf, Bool.false_eq_true, if_false]
  have haddr' : l'.csAddress = pListener.csAddress := haddr
  have hd' := armResolved_gated env.dial oDial false hd (haddr' ▸ hdr)
  generalize ArmResolved env.dial l'.csAddress oDial false pDialer = r2 at hd'
  obtain ⟨hr2, d'⟩ := r2
  by_cases hf2 : FAILED hr2 = true
  · simp only [hf2, if_true]
    exact ⟨closeCon_gated env.unwind _ kUnwindSlices hl', hd'⟩
  · simp only [hf2, Bool.false_eq_true, if_false]
    exact ⟨hl', hd'⟩

/-! ## Link -/

theorem linkEndpoints_code (a b endpoint : WStr) :
    (linkEndpoints inet a b endpoint).1 = S_OK ∨ (linkEndpoints inet a b endpoint).1 = P2PF_E_ENDPOINT := by
  unfold linkEndpoints ParseFacadeEndpoint
  by_cases he : endpoint.isEmpty = true
  · simp [he]
  · simp only [he, Bool.not_false, if_true]
    cases parseCore inet endpoint false {} with
    | none => simp [FAILED]
    | some ep =>
      simp only [failed_S_OK, Bool.false_eq_true, if_false]
      by_cases hk : ep.eKind = .serial <;> simp [hk]

theorem secureEdge_map (env : EdgeEnv) (net : Net) (pA pB : Hub) :
    (SecureEdgeLocked env net pA pB).2.1.mapEndpoints = net.mapEndpoints := by
  have hdir : (net.EnsureSecurityDirLocked env.dir).2.2.mapEndpoints = net.mapEndpoints := by
    unfold Net.EnsureSecurityDirLocked
    split
    · cases env.dir <;> rfl
    · rfl
  unfold SecureEdgeLocked
  generalize net.EnsureSecurityDirLocked env.dir = r at hdir
  obtain ⟨hr, csDir, net'⟩ := r
  simp only
  repeat' split
  all_goals exact hdir

/-- How Link ends: before it writes to a hub, or with both hubs written back. The security edge has
    changed nothing but their trust, and on a plain pair not even that. -/
inductive LinkOut (inet : InetPton) (env : LinkEnv) (listenerAddr dialerAddr : Option WStr) (endpoint : WStr)
    (net : Net) : HRESULT × Net → Prop
  | early (hr : HRESULT) (net' : Net) (hf : FAILED hr = true) (hcode : hr ≠ P2PF_E_LINK_PARTIAL)
      (hhubs : net'.hubs = net.hubs) (hmap : net'.mapEndpoints = net.mapEndpoints)
      (hnet : net' = net ∨ ∃ a b pListener pDialer, listenerAddr = some a ∧ dialerAddr = some b ∧
        net.FindHubLocked a = some pListener ∧ net.FindHubLocked b = some pDialer ∧
        pListener.bSecure ≠ pDialer.bSecure) : LinkOut inet env listenerAddr dialerAddr endpoint net (hr, net')
  | late (a b : WStr) (oListen oDial : FacadeEndpoint) (pListener pDialer : Hub) (tL tD : Trust) (net' : Net)
      (hr : HRESULT) (pL pD : Hub) (ha : listenerAddr = some a) (hb : dialerAddr = some b) (hab : a ≠ b)
      (hep : linkEndpoints inet a b endpoint = (S_OK, oListen, oDial))
      (hL : net.FindHubLocked a = some pListener) (hD : net.FindHubLocked b = some pDialer)
      (hfreeL : pListener.ConExists b = false) (hfreeD : pDialer.ConExists a = false) (hhubs : net'.hubs = net.hubs)
      (hmap : net'.mapEndpoints = net.mapEndpoints)
      (hplain : pListener.bSecure = false → net' = net ∧ tL = pListener.trust ∧ tD = pDialer.trust)
      (hout : (pListener.bSecure = true ∧ FAILED hr = true ∧
          pL = { pListener with trust := tL } ∧ pD = { pDialer with trust := tD }) ∨
        (Hub.Ready { pListener with trust := tL } pDialer.csAddress ∧
          Hub.Ready { pDialer with trust := tD } pListener.csAddress ∧
          armEdge env oListen oDial { pListener with trust := tL } { pDialer with trust := tD } = (hr, pL, pD))) :
      LinkOut inet env listenerAddr dialerAddr endpoint net (hr, (net'.setHub pL).setHub pD)

theorem link_cases (env : LinkEnv) (listenerAddr dialerAddr : Option WStr) (endpoint : WStr) (net : Net) :
    LinkOut inet env listenerAddr dialerAddr endpoint net (Link inet env listenerAddr dialerAddr endpoint net) := by
  unfold Link
  cases listenerAddr with
  | none => exact .early _ net rfl (by decide) rfl rfl (Or.inl rfl)
  | some a =>
    cases dialerAddr with
    | none => exact .early _ net rfl (by decide) rfl rfl (Or.inl rfl)
    | some b =>
      simp only
      split
      · exact .early _ net rfl (by decide) rfl rfl (Or.inl rfl)
      split
      · exact .early _ net rfl (by decide) rfl rfl (Or.inl rfl)
      rename_i hab
      split
      · exact .early _ net rfl (by decide) rfl rfl (Or.inl rfl)
      obtain ⟨⟨hr, oListen, oDial⟩, hep⟩ : ∃ x, linkEndpoints inet a b endpoint = x := ⟨_, rfl⟩
      have hcode := linkEndpoints_code inet a b endpoint
      rw [hep] at hcode ⊢
      rcases hcode with rfl | rfl
      case inr => exact .early _ net rfl (fun h => HRESULT.noConfusion h) rfl rfl (Or.inl rfl)
      simp only [failed_S_OK, Bool.false_eq_true, if_false]
      cases hL : net.FindHubLocked a with
      | none => exact .early _ net rfl (by decide) rfl rfl (Or.inl rfl)
      | some pListener =>
        cases hD : net.FindHubLocked b with
        | none => exact .early _ net rfl (by decide) rfl rfl (Or.inl rfl)
        | some pDialer =>
          simp only
          split
          · exact .early _ net rfl (by decide) rfl rfl (Or.inl rfl)
          rename_i hfree
          obtain ⟨hfreeL, hfreeD⟩ : pListener.ConExists b = false ∧ pDialer.ConExists a = false := by simpa using hfree
          split
          · rename_i hposture
            exact .early _ _ rfl (by decide) rfl rfl (Or.inr ⟨a, b, pListener, pDialer, rfl, rfl, hL, hD, hposture⟩)
          rename_i hposture
          have hsame : pListener.bSecure = pDialer.bSecure := Decidable.of_not_not hposture
          by_cases hs : pListener.bSecure = true
          · obtain ⟨hrSec, net', tL, tD, he, hhubs, hready⟩ := secureEdge_ready env.edge net pListener pDialer
            have hmap := secureEdge_map env.edge net pListener pDialer
            rw [he] at hmap
            have hplain : pListener.bSecure = false → net' = net ∧ tL = pListener.trust ∧ tD = pDialer.trust :=
              fun hp => absurd (hs.symm.trans hp) Bool.true_eq_false.mp
            rw [if_pos hs, he]
            simp only
            split
            · rename_i hf
              exact .late a b oListen oDial pListener pDialer tL tD net' hrSec _ _ rfl rfl hab hep hL hD hfreeL hfreeD
                hhubs hmap hplain (Or.inl ⟨hs, hf, rfl, rfl⟩)
            · rename_i hf
              obtain ⟨h1, h2⟩ := hready (by simpa using hf)
              exact .late a b oListen oDial pListener pDialer tL tD net' _ _ _ rfl rfl hab hep hL hD hfreeL hfreeD
                hhubs hmap hplain (Or.inr ⟨h1, h2, rfl⟩)
          · -- a plain pair needs no gate
            have hs' : ¬ pDialer.bSecure = true := fun h => hs (hsame.trans h)
            rw [if_neg hs]
            simp only [failed_S_OK, Bool.false_eq_true, if_false]
            exact .late a b oListen oDial pListener pDialer pListener.trust pDialer.trust net _ _ _ rfl rfl hab hep hL hD
              hfreeL hfreeD rfl rfl (fun _ => ⟨rfl, rfl, rfl⟩)
              (Or.inr ⟨fun h => absurd h hs, fun h => absurd h hs', rfl⟩)

theorem link_gated (env : LinkEnv) (listenerAddr dialerAddr : Option WStr) (endpoint : WStr) {net : Net}
    (hn : net.Gated) : (Link inet env listenerAddr dialerAddr endpoint net).2.Gated := by
  have hout := link_cases inet env listenerAddr dialerAddr endpoint net
  generalize Link inet env listenerAddr dialerAddr endpoint net = r at hout
  cases hout with
  | early hr net' hf hcode hhubs hmap hnet => exact fun g hg => hn g (hhubs ▸ hg)
  | late a b oListen oDial pListener pDialer tL tD net' hr pL pD ha hb hab hep hL hD hfreeL hfreeD hhubs hmap hplain
      hout =>
    have hn' : net'.Gated := fun g hg => hn g (hhubs ▸ hg)
    have hl := found_gated hn hL
    have hd := found_gated hn hD
    rcases hout with ⟨-, -, rfl, rfl⟩ | ⟨hlr, hdr, he⟩
    · exact setHub_gated (setHub_gated hn' hl) hd
    · have hedge := @armEdge_gated env oListen oDial { pListener with trust := tL } { pDialer with trust := tD }
        hl hd hlr hdr
      rw [he] at hedge
      exact setHub_gated (setHub_gated hn' hedge.1) hedge.2

theorem step_gated {net : Net} (e : NetEv) (hn : net.Gated) : (netStep inet net e).Gated := by
  cases e with
  | listen address toPeer endpoint env =>
    exact call_gated address hn fun hg => armUnified_gated inet _ env toPeer endpoint true hg
  | connect address toPeer endpoint env =>
    exact call_gated address hn fun hg => armUnified_gated inet _ env toPeer endpoint false hg
  | link listenerAddr dialerAddr endpoint env => exact link_gated inet env listenerAddr dialerAddr endpoint hn
  | disconnect address peer env => exact call_gated address hn fun hg => disconnect_gated env peer hg

/-! ## Runs -/

/-- In every run of the four verbs, whatever fails on the way, every connection handed to the
    kernel on a secure hub was handed over while that hub enforced, and one for a named peer
    with the peer's entry in force. -/
theorem every_handover_gated (net : Net) (hn : net.Gated) (es : List NetEv) :
    Always (netStep inet) Net.Gated net es := always_of_inv (fun _ e h => step_gated inet e h) hn

/-- Two new secure hubs, linked. -/
theorem every_handover_gated_linked :
    Always (netStep ⟨fun _ => false, fun _ => none⟩) Net.Gated
      ⟨[.created ⟨L "A", by decide⟩ true false ⟨1, 0, false, []⟩ (L "keys") none none,
        .created ⟨L "A.B", by decide⟩ true false ⟨2, 0, false, []⟩ (L "keys") none none], ∅, L "keys", true, []⟩
      [.link (some (L "A")) (some (L "A.B")) [] ⟨⟨.noModule, ⟨{}, .good, {}⟩, ⟨{}, .good, {}⟩, {}⟩,
        ⟨⟨fun _ => true, fun _ => .IdErrIo, fun _ => none, fun _ => none, fun _ => []⟩, ⟨{}, .good, {}⟩, true, true⟩,
        ⟨⟨fun _ => true, fun _ => .IdErrIo, fun _ => none, fun _ => none, fun _ => []⟩, ⟨{}, .good, {}⟩, true, true⟩,
        { stays := fun _ _ => false }⟩] :=
  every_handover_gated _ _ (by
    intro h hm _ ho hho
    rcases List.mem_cons.mp hm with rfl | hm
    · cases hho
    · obtain rfl := List.mem_singleton.mp hm
      cases hho) _

end TargetFacade
