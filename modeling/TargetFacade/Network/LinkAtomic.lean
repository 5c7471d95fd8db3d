/-
  TargetFacade.Network.LinkAtomic — Link on a pair of plain hubs: both ends armed, or neither.

  A refused arm leaves its hub as it found it, so the only end there is to undo is the
  listener's, when the dialer's was refused. CloseCon undoes it inside its budget or says that
  it has not: P2PF_E_LINK_PARTIAL, and then the listener's connection was there at each of the
  probes (`probed`).
-/

import TargetFacade.Network.ArmingGate

namespace TargetFacade

open OrdMap

/-! ## The probes of CloseCon -/

/-- The connections as probe `k` reads them. -/
def probed (env : RetireEnv) (peer : WStr) (cons : List Con) : Nat → List Con
  | 0 => cons.filter fun c => c.csPeer != peer || env.stays 0 c
  | k + 1 => (probed env peer cons k).filter fun c => c.csPeer != peer || env.stays (k + 1) c

theorem mem_probed {env : RetireEnv} {peer : WStr} {cons : List Con} {c : Con} : ∀ {k : Nat},
    c ∈ probed env peer cons k ↔ c ∈ cons ∧ (c.csPeer = peer → ∀ i ≤ k, env.stays i c = true) := by
  intro k
  induction k with
  | zero =>
    rw [probed, mem_slice]
    simp
  | succ k ih =>
    rw [probed, mem_slice, ih, and_assoc]
    refine and_congr_right fun _ => ?_
    constructor
    · intro h hp i hi
      rcases Nat.le_succ_iff.mp hi with hi | rfl
      · exact h.1 hp i hi
      · exact h.2 hp
    · intro h
      exact ⟨fun hp i hi => h hp i (by omega), fun hp => h hp (k + 1) (by omega)⟩

/-- The slices give up only on a connection that is there at each of them. -/
theorem closeSlices_stuck {env : RetireEnv} {peer : WStr} : ∀ {n s : Nat} {cons : List Con},
    0 < n → (closeSlices env peer n s cons).1 = false →
      ∃ c ∈ cons, c.csPeer = peer ∧ ∀ i, s ≤ i → i < s + n → env.stays i c = true := by
  intro n
  induction n with
  | zero => intro s cons h; omega
  | succ n ih =>
    intro s cons _ hout
    unfold closeSlices at hout
    simp only at hout
    by_cases hany : (cons.filter fun c => c.csPeer != peer || env.stays s c).any (·.csPeer == peer) = true
    case neg => simp [hany] at hout
    simp only [hany, Bool.not_true, Bool.false_eq_true, if_false] at hout
    by_cases hn : n = 0
    · obtain ⟨c, hc, hp⟩ := List.any_eq_true.mp hany
      have hp : c.csPeer = peer := by simpa using hp
      obtain ⟨hc, hstays⟩ := mem_slice.mp hc
      refine ⟨c, hc, hp, fun i h1 h2 => ?_⟩
      obtain rfl : i = s := by omega
      exact hstays hp
    · obtain ⟨c, hc, hp, hstays⟩ := ih (by omega) hout
      obtain ⟨hc, hs⟩ := mem_slice.mp hc
      refine ⟨c, hc, hp, fun i h1 h2 => ?_⟩
      rcases Nat.eq_or_lt_of_le h1 with rfl | hlt
      · exact hs hp
      · exact hstays i hlt (by omega)

/-! ## One end -/

/-- The hub has no connection and no record for `peer` that it did not have before. -/
structure NothingNew (peer : WStr) (h h' : Hub) : Prop where
  cons : ∀ c ∈ h'.cons, c.csPeer = peer → c ∈ h.cons
  armed : ∀ a, h'.armed[peer]? = some a → h.armed[peer]? = some a

theorem nothingNew_refl (peer : WStr) (h : Hub) : NothingNew peer h h := ⟨fun _ hc _ => hc, fun _ ha => ha⟩

theorem postCon_code (env : ArmEnv) (pCon : Option Con) (h : Hub) : (PostCon env pCon h).1 ≠ P2PF_E_LINK_PARTIAL := by
  unfold PostCon
  cases pCon with
  | none => intro hc; cases hc
  | some c =>
    simp only
    split <;> (intro hc; cases hc)

theorem armRecorded_code (env : ArmEnv) (peer : WStr) (rEp : FacadeEndpoint) (bListen : Bool) (h : Hub) :
    (ArmRecorded env peer rEp bListen h).1 ≠ P2PF_E_LINK_PARTIAL := by
  unfold ArmRecorded
  simp only
  split
  · exact postCon_code env _ _
  · exact postCon_code env _ _

theorem armResolved_code (env : ArmEnv) (peer : WStr) (rEp : FacadeEndpoint) (bListen : Bool) (h : Hub) :
    (ArmResolved env peer rEp bListen h).1 ≠ P2PF_E_LINK_PARTIAL := by
  have hrec := armRecorded_code env peer rEp bListen h
  unfold ArmResolved
  simp only
  repeat' split
  all_goals first | exact hrec | (intro hc; cases hc)

theorem armResolved_refused {env : ArmEnv} {peer : WStr} {rEp : FacadeEndpoint} {bListen : Bool} {h : Hub}
    (hf : FAILED (ArmResolved env peer rEp bListen h).1 = true) :
    SameCons h (ArmResolved env peer rEp bListen h).2 := by
  have hout := armResolved_cases env peer rEp bListen h
  revert hf hout
  generalize ArmResolved env peer rEp bListen h = r
  obtain ⟨hr, h'⟩ := r
  intro hf hout
  cases hout with
  | refused handed hn _ hh => exact ⟨rfl, rfl, rfl, rfl⟩
  | armed c events ha hok => rw [hok] at hf; cases hf

/-- What Link leaves of an arm it undoes: no record, and no connection when CloseCon says so. -/
theorem closeCon_undoes {env : RetireEnv} {peer : WStr} {n : Nat} {h : Hub} (hp : peer ≠ [])
    (hgone : (CloseCon env peer n h).1 = true) (h0 : Hub) : NothingNew peer h0 (CloseCon env peer n h).2 := by
  cases ha : env.alive with
  | true =>
    have hr := closeCon_retracted env n h hp ha
    refine ⟨fun c hc e => absurd e (hr.gone hgone c hc), fun a hget => ?_⟩
    rw [hr.armed, get_erase] at hget
    simp at hget
  | false =>
    rw [closeCon_dead env n h hp ha]
    exact ⟨fun c hc => (by cases hc), fun a hget => (by simp at hget)⟩

theorem NothingNew.of_same {peer : WStr} {h h' : Hub} (hs : SameCons h h') : NothingNew peer h h' :=
  ⟨fun _ hc _ => hs.cons ▸ hc, fun _ ha => hs.armed ▸ ha⟩

theorem closeCon_address (env : RetireEnv) {peer : WStr} (n : Nat) (h : Hub) (hp : peer ≠ []) :
    (CloseCon env peer n h).2.csAddress = h.csAddress := by
  cases ha : env.alive with
  | true =>
    unfold Hub.csAddress
    rw [(closeCon_retracted env n h hp ha).address]
  | false => rw [closeCon_dead env n h hp ha]

theorem closeCon_stuck {env : RetireEnv} {peer : WStr} {n : Nat} {h : Hub} (hp : peer ≠ []) (hn : 0 < n)
    (hout : (CloseCon env peer n h).1 = false) :
    ∃ c ∈ h.cons, c.csPeer = peer ∧ ∀ i < n, env.stays i c = true := by
  cases ha : env.alive with
  | false => rw [closeCon_dead env n h hp ha] at hout; cases hout
  | true =>
    have hp' : peer.isEmpty = false := by simpa using hp
    have hslices : (closeSlices env peer n 0 h.cons).1 = false := by
      rw [← hout]
      simp [CloseCon, hp', ha]
    obtain ⟨c, hc, hpeer, hstays⟩ := closeSlices_stuck hn hslices
    exact ⟨c, hc, hpeer, fun i hi => hstays i (Nat.zero_le i) (by omega)⟩

/-! ## Both ends -/

/-- The listening hub and the dialing one, each holding a connection and a record for the
    other, made of endpoints that meet. -/
structure Linked (pListener pDialer : Hub) : Prop where
  edge : ∃ cListen ∈ pListener.cons, ∃ cDial ∈ pDialer.cons,
    cListen.csPeer = pDialer.csAddress ∧ cListen.eMode = .service ∧
    cDial.csPeer = pListener.csAddress ∧ cDial.eMode = .client ∧
    pListener.armed[pDialer.csAddress]? = some ⟨cListen.rEp.Format, true⟩ ∧
    pDialer.armed[pListener.csAddress]? = some ⟨cDial.rEp.Format, false⟩ ∧
    cListen.rEp.eKind = cDial.rEp.eKind ∧ cListen.rEp.csName = cDial.rEp.csName ∧
    cListen.rEp.uNum = cDial.rEp.uNum ∧ cListen.rEp.eFamily = cDial.rEp.eFamily

/-- The dialer's arm was refused, and the connection the listener had posted for it was on the
    hub at every probe of the retraction. -/
structure Stuck (env : LinkEnv) (oDial : FacadeEndpoint) (pListener pDialer : Hub) : Prop where
  refused : FAILED (ArmResolved env.dial pListener.csAddress oDial false pDialer).1 = true
  there : ∃ c : Con, c.csPeer = pDialer.csAddress ∧ c.eMode = .service ∧
    ∀ k < kUnwindSlices, c ∈ probed env.unwind pDialer.csAddress (pListener.cons ++ [c]) k

/-- What Link promises of the two hubs: `hr` is its answer, and the primed ones what it leaves. -/
structure LinkAtomic (env : LinkEnv) (oDial : FacadeEndpoint) (pListener pDialer : Hub) (hr : HRESULT)
    (pListener' pDialer' : Hub) : Prop where
  undone : FAILED hr = true → hr ≠ P2PF_E_LINK_PARTIAL →
    NothingNew pDialer.csAddress pListener pListener' ∧ NothingNew pListener.csAddress pDialer pDialer'
  stuck : hr = P2PF_E_LINK_PARTIAL → Stuck env oDial pListener pDialer
  linked : FAILED hr = false → Linked pListener' pDialer'

/-- An answer from before the first arm. -/
theorem LinkAtomic.early {env : LinkEnv} {oDial : FacadeEndpoint} {pListener pDialer : Hub} {hr : HRESULT}
    (hf : FAILED hr = true) (hne : hr ≠ P2PF_E_LINK_PARTIAL) :
    LinkAtomic env oDial pListener pDialer hr pListener pDialer :=
  ⟨fun _ _ => ⟨nothingNew_refl _ _, nothingNew_refl _ _⟩, fun hp => absurd hp hne, fun hok => (by rw [hf] at hok; cases hok)⟩

/-- The listener's spelling is the dialer's with the host cleared. -/
theorem linkEndpoints_meet {inet : InetPton} {a b endpoint : WStr} {oListen oDial : FacadeEndpoint}
    (h : linkEndpoints inet a b endpoint = (S_OK, oListen, oDial)) :
    oListen.eKind = oDial.eKind ∧ oListen.csName = oDial.csName ∧ oListen.uNum = oDial.uNum ∧
      oListen.eFamily = oDial.eFamily := by
  unfold linkEndpoints at h
  by_cases he : endpoint.isEmpty = true
  · simp only [he, Bool.not_true, Bool.false_eq_true, if_false] at h
    cases h
    exact ⟨rfl, rfl, rfl, rfl⟩
  · simp only [he, Bool.not_false, if_true] at h
    generalize ParseFacadeEndpoint inet endpoint false {} = r at h
    obtain ⟨hr, ep⟩ := r
    simp only at h
    split at h
    · rename_i hf; cases h; simp at hf
    · split at h
      · cases h
      · cases h
        exact ⟨rfl, rfl, rfl, rfl⟩

theorem armEdge_atomic (env : LinkEnv) {oListen oDial : FacadeEndpoint} {pListener pDialer : Hub}
    (hmeet : oListen.eKind = oDial.eKind ∧ oListen.csName = oDial.csName ∧ oListen.uNum = oDial.uNum ∧
      oListen.eFamily = oDial.eFamily)
    (hfree : pListener.ConExists pDialer.csAddress = false) :
    LinkAtomic env oDial pListener pDialer (armEdge env oListen oDial pListener pDialer).1
      (armEdge env oListen oDial pListener pDialer).2.1 (armEdge env oListen oDial pListener pDialer).2.2 := by
  have haddr := armResolved_address env.listen pDialer.csAddress oListen true pListener
  have hcode := armResolved_code env.listen pDialer.csAddress oListen true pListener
  unfold armEdge
  by_cases hl : FAILED (ArmResolved env.listen pDialer.csAddress oListen true pListener).1 = true
  · -- nothing is armed anywhere
    simp only [hl, if_true]
    have hs := armResolved_refused hl
    exact ⟨fun _ _ => ⟨.of_same hs, nothingNew_refl _ _⟩, fun hp => absurd hp hcode,
      fun hok => (by rw [hl] at hok; cases hok)⟩
  have hl' : FAILED (ArmResolved env.listen pDialer.csAddress oListen true pListener).1 = false := by simpa using hl
  obtain ⟨cListen, hcp, hcm, hce, hcons, harmed⟩ := armResolved_made hl'
  simp only [hl', Bool.false_eq_true, if_false]
  generalize hL : (ArmResolved env.listen pDialer.csAddress oListen true pListener) = rL at *
  obtain ⟨hrListen, pL⟩ := rL
  simp only at haddr hcode hl' hcons harmed ⊢
  rw [haddr]
  have hdcode := armResolved_code env.dial pListener.csAddress oDial false pDialer
  have hdaddr := armResolved_address env.dial pListener.csAddress oDial false pDialer
  by_cases hd : FAILED (ArmResolved env.dial pListener.csAddress oDial false pDialer).1 = true
  · -- the listener's arm is undone, or it is said that it is not
    simp only [hd, if_true]
    have hsd := armResolved_refused hd
    rw [hdaddr]
    cases hgone : (CloseCon env.unwind pDialer.csAddress kUnwindSlices pL).1 with
    | true =>
      simp only [Bool.not_true, Bool.false_eq_true, if_false]
      exact ⟨fun _ _ => ⟨closeCon_undoes pDialer.oAddress.2 hgone pListener, .of_same hsd⟩,
        fun hp => absurd hp hdcode, fun hok => (by rw [hd] at hok; cases hok)⟩
    | false =>
      simp only [Bool.not_false, if_true]
      refine ⟨fun _ hp => absurd rfl hp, fun _ => ⟨hd, cListen, hcp, hcm, fun k hk => ?_⟩, fun hok => (by cases hok)⟩
      obtain ⟨c, hc, hpeer, hstays⟩ := closeCon_stuck pDialer.oAddress.2 (by decide) hgone
      rw [hcons] at hc
      have hthis : c = cListen := by
        rcases List.mem_append.mp hc with hc | hc
        · have hex : pListener.ConExists pDialer.csAddress = true := List.any_eq_true.mpr ⟨c, hc, by simp [hpeer]⟩
          rw [hfree] at hex
          cases hex
        · simpa using hc
      subst hthis
      exact mem_probed.mpr ⟨by simp, fun _ i hi => hstays i (by omega)⟩
  · have hd' : FAILED (ArmResolved env.dial pListener.csAddress oDial false pDialer).1 = false := by simpa using hd
    obtain ⟨cDial, hdp, hdm, hde, hdcons, hdarmed⟩ := armResolved_made hd'
    simp only [hd', Bool.false_eq_true, if_false]
    refine ⟨fun hf => ?_, fun hp => ?_, fun _ => ⟨cListen, ?_, cDial, ?_, ?_⟩⟩
    · split at hf <;> cases hf
    · split at hp <;> cases hp
    · rw [hcons]; simp
    · rw [hdcons]; simp
    · rw [hdaddr, haddr, harmed, hdarmed, hcp, hcm, hdp, hdm, hce, hde]
      exact ⟨rfl, rfl, rfl, rfl, by simp, by simp, hmeet⟩

/-- Link on two plain hubs answers before the first arm, or arms the edge. -/
theorem link_plain_cases (inet : InetPton) (env : LinkEnv) {a b : WStr} (endpoint : WStr) {net : Net}
    {pListener pDialer : Hub} (hL : net.FindHubLocked a = some pListener) (hD : net.FindHubLocked b = some pDialer)
    (hplainL : pListener.bSecure = false) (hplainD : pDialer.bSecure = false) :
    (∃ hr, FAILED hr = true ∧ hr ≠ P2PF_E_LINK_PARTIAL ∧ Link inet env (some a) (some b) endpoint net = (hr, net)) ∨
    ∃ oListen oDial, linkEndpoints inet a b endpoint = (S_OK, oListen, oDial) ∧ a ≠ b ∧
      pListener.ConExists b = false ∧ pDialer.ConExists a = false ∧
      Link inet env (some a) (some b) endpoint net = ((armEdge env oListen oDial pListener pDialer).1,
        (net.setHub (armEdge env oListen oDial pListener pDialer).2.1).setHub
          (armEdge env oListen oDial pListener pDialer).2.2) := by
  have hout := link_cases inet env (some a) (some b) endpoint net
  generalize Link inet env (some a) (some b) endpoint net = r at hout
  cases hout with
  | early hr net' hf hcode hhubs hmap hnet =>
    rcases hnet with rfl | ⟨a', b', pL, pD, ha, hb, hL', hD', hposture⟩
    · exact Or.inl ⟨hr, hf, hcode, rfl⟩
    · cases ha
      cases hb
      rw [hL] at hL'
      rw [hD] at hD'
      cases hL'
      cases hD'
      exact absurd (hplainL.trans hplainD.symm) hposture
  | late a' b' oListen oDial pL pD tL tD net' hr pL' pD' ha hb hab hep hL' hD' hfreeL hfreeD hhubs hmap hplain hout =>
    cases ha
    cases hb
    rw [hL] at hL'
    rw [hD] at hD'
    cases hL'
    cases hD'
    obtain ⟨rfl, rfl, rfl⟩ := hplain hplainL
    rcases hout with ⟨hs, -⟩ | ⟨-, -, he⟩
    · rw [hplainL] at hs
      cases hs
    · exact Or.inr ⟨oListen, oDial, hep, hab, hfreeL, hfreeD, by rw [he]⟩

theorem armEdge_addresses (env : LinkEnv) (oListen oDial : FacadeEndpoint) (pListener pDialer : Hub) :
    (armEdge env oListen oDial pListener pDialer).2.1.csAddress = pListener.csAddress ∧
      (armEdge env oListen oDial pListener pDialer).2.2.csAddress = pDialer.csAddress := by
  have haddr := armResolved_address env.listen pDialer.csAddress oListen true pListener
  unfold armEdge
  generalize ArmResolved env.listen pDialer.csAddress oListen true pListener = rL at *
  have hdaddr := armResolved_address env.dial rL.2.csAddress oDial false pDialer
  by_cases hl : FAILED rL.1 = true
  · simp only [hl, if_true]
    exact ⟨haddr, trivial⟩
  simp only [hl, Bool.false_eq_true, if_false]
  generalize ArmResolved env.dial rL.2.csAddress oDial false pDialer = rD at *
  by_cases hd : FAILED rD.1 = true
  · simp only [hd, if_true]
    rw [closeCon_address _ _ _ rD.2.oAddress.2]
    exact ⟨haddr, hdaddr⟩
  · simp only [hd, Bool.false_eq_true, if_false]
    exact ⟨haddr, hdaddr⟩

/-! ## The link -/

/-- No key file can be read; the factory makes its connection, and the kernel takes it or not. -/
def ArmEnv.keyless (accepts : Bool) : ArmEnv where
  keys := ⟨fun _ => true, fun _ => .IdErrIo, fun _ => none, fun _ => none, fun _ => []⟩
  trust := ⟨{}, .good, {}⟩
  accepts := accepts

/-- The network of two plain hubs as CreateHubEx returns them. -/
def Net.pair (a b : HubAddress) : Net :=
  ⟨[.created a false false .zero [] none none, .created b false false .zero [] none none], ∅, [], false, []⟩

/-- Link on two plain hubs, whatever the endpoint, the state and the outcomes of the posts and
    of the retraction: a failure leaves neither hub with anything for the other that it did not
    have before, unless it is P2PF_E_LINK_PARTIAL, whose reason is a connection that would not
    go; and a success leaves both armed, with endpoints that meet. -/
theorem link_atomic (inet : InetPton) (env : LinkEnv) {a b : WStr} (endpoint : WStr) {net : Net}
    {pListener pDialer : Hub} (hL : net.FindHubLocked a = some pListener) (hD : net.FindHubLocked b = some pDialer)
    (hplainL : pListener.bSecure = false) (hplainD : pDialer.bSecure = false) :
    ∃ pListener' pDialer', (Link inet env (some a) (some b) endpoint net).2.FindHubLocked a = some pListener' ∧
      (Link inet env (some a) (some b) endpoint net).2.FindHubLocked b = some pDialer' ∧
      LinkAtomic env (linkEndpoints inet a b endpoint).2.2 pListener pDialer
        (Link inet env (some a) (some b) endpoint net).1 pListener' pDialer' := by
  rcases link_plain_cases inet env endpoint hL hD hplainL hplainD with
    ⟨hr, hf, hne, he⟩ | ⟨oListen, oDial, hep, hab, hfree, -, he⟩
  · rw [he]
    exact ⟨pListener, pDialer, hL, hD, .early hf hne⟩
  · obtain ⟨hla, hda⟩ := armEdge_addresses env oListen oDial pListener pDialer
    have ha := find_address hL
    have hb := find_address hD
    have hedge := armEdge_atomic env (linkEndpoints_meet hep) (by rw [hb]; exact hfree)
    rw [he, hep]
    refine ⟨_, _, ?_, ?_, hedge⟩
    · rw [find_setHub, find_setHub, hla, hda, ha, hb, hL]
      simp [hab]
    · rw [find_setHub, find_setHub, hla, hda, ha, hb, hD]
      simp [Ne.symm hab]

/-- Two new plain hubs, the dialer's post refused and the listener's connection
    gone at the second probe. -/
theorem link_atomic_undone :
    let r := Link ⟨fun _ => false, fun _ => none⟩
      ⟨⟨.noModule, ⟨{}, .good, {}⟩, ⟨{}, .good, {}⟩, {}⟩, .keyless true, .keyless false, { stays := fun k _ => k == 0 }⟩
      (some (L "A")) (some (L "A.B")) [] (.pair ⟨L "A", by decide⟩ ⟨L "A.B", by decide⟩)
    ∃ pListener' pDialer', r.2.FindHubLocked (L "A") = some pListener' ∧ r.2.FindHubLocked (L "A.B") = some pDialer' ∧
      NothingNew (L "A.B") (.created ⟨L "A", by decide⟩ false false .zero [] none none) pListener' ∧
      NothingNew (L "A") (.created ⟨L "A.B", by decide⟩ false false .zero [] none none) pDialer' := by
  obtain ⟨pL, pD, h1, h2, h⟩ := @link_atomic ⟨fun _ => false, fun _ => none⟩
    ⟨⟨.noModule, ⟨{}, .good, {}⟩, ⟨{}, .good, {}⟩, {}⟩, .keyless true, .keyless false, { stays := fun k _ => k == 0 }⟩
    (L "A") (L "A.B") [] (.pair ⟨L "A", by decide⟩ ⟨L "A.B", by decide⟩) _ _ rfl rfl rfl rfl
  obtain ⟨hl, hd⟩ := h.undone (by decide +kernel) (by decide +kernel)
  exact ⟨pL, pD, h1, h2, hl, hd⟩

end TargetFacade
