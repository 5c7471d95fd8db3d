/-
  TargetFacade.Hub.ArmSpec — what one arming verb can do to a hub, and what a refused one
  leaves behind.

  `armResolved_cases`, `admit_cases` and `published_cases` list the outcomes of the three
  parts of ArmUnified. Trust comes first and the arm second, so a secure Listen or Connect
  that fails in its second half has already changed the first, and nothing puts it back:
  `arm_leaves_nothing_iff` says in which states and environments a failure leaves the hub
  as it was.
-/

import TargetFacade.Trust.Spec
import TargetFacade.Hub.Model

namespace TargetFacade

open OrdMap

/-! ## The arm -/

/-- A connection for `peer` is made, and the kernel takes it. -/
structure Posts (env : ArmEnv) (peer : WStr) (h : Hub) : Prop where
  factory : env.factory = true
  accepts : env.accepts = true
  fresh : h.ConExists peer = false

/-- ArmResolved reaches its post, and the post is accepted. -/
structure Armable (env : ArmEnv) (peer : WStr) (h : Hub) : Prop where
  named : peer ≠ []
  inPlace : IsSwappedPeerArgument peer = false
  other : ClassifyPeer h.csAddress peer ≠ .self
  posts : Posts env peer h

theorem postCon_cases (env : ArmEnv) (c : Con) (h : Hub) :
    ((env.accepts = true ∧ h.ConExists c.csPeer = false) ∧ PostCon env (some c) h = (S_OK,
      { h with cons := h.cons ++ [c], nNextCon := h.nNextCon + 1, handed := h.handed ++ [h.handover c.csPeer] })) ∨
    (¬ (env.accepts = true ∧ h.ConExists c.csPeer = false) ∧ PostCon env (some c) h =
      (P2PF_E_CON_DUPLICATE, { h with handed := h.handed ++ [h.handover c.csPeer] })) := by
  have hc : ∀ hs, Hub.ConExists { h with handed := hs } c.csPeer = h.ConExists c.csPeer := fun _ => rfl
  by_cases ha : env.accepts = true ∧ h.ConExists c.csPeer = false
  · exact Or.inl ⟨ha, by simp [PostCon, hc, ha.1, ha.2]⟩
  · have hb : (env.accepts && !h.ConExists c.csPeer) = false := by
      cases he : env.accepts <;> cases hx : h.ConExists c.csPeer <;> simp_all
    exact Or.inr ⟨ha, by simp [PostCon, hc, hb]⟩

theorem armRecorded_cases (env : ArmEnv) (peer : WStr) (rEp : FacadeEndpoint) (bListen : Bool) (h : Hub) :
    (Posts env peer h ∧ ∃ c : Con, c.csPeer = peer ∧ c.eMode = (if bListen then .service else .client) ∧
      c.ePhase = .posted ∧ ArmRecorded env peer rEp bListen h = (S_OK,
        { h with armed := h.armed.insert peer ⟨rEp.Format, bListen⟩, cons := h.cons ++ [c],
                 nNextCon := h.nNextCon + 1, handed := h.handed ++ [h.handover peer] })) ∨
    (¬ Posts env peer h ∧ ∃ hr handed, FAILED hr = true ∧
      (handed = h.handed ∨ handed = h.handed ++ [h.handover peer]) ∧
      ArmRecorded env peer rEp bListen h = (hr, { h with handed := handed })) := by
  unfold ArmRecorded
  by_cases hf : env.factory = true
  case neg =>
    refine Or.inr ⟨fun hp => hf hp.factory, P2PF_E_CON_FACTORY, h.handed, rfl, Or.inl rfl, ?_⟩
    simp [MakeCon, hf, PostCon, putBack_insert, FAILED]
  obtain ⟨c, hmk, hcp, hcm, hcph⟩ : ∃ c : Con, MakeCon env.factory h.nNextCon rEp peer bListen = some c ∧
      c.csPeer = peer ∧ c.eMode = (if bListen then .service else .client) ∧ c.ePhase = .posted :=
    ⟨_, by simp only [MakeCon, hf, Bool.not_true, Bool.false_eq_true, if_false]; rfl, rfl, rfl, rfl⟩
  simp only [hmk]
  rcases postCon_cases env c { h with armed := h.armed.insert peer ⟨rEp.Format, bListen⟩ } with
    ⟨⟨hacc, hex⟩, hr⟩ | ⟨hn, hr⟩
  · refine Or.inl ⟨⟨hf, hacc, hcp ▸ hex⟩, c, hcp, hcm, hcph, ?_⟩
    rw [hr, hcp]
    rfl
  · refine Or.inr ⟨fun hp => hn ⟨hp.accepts, hcp ▸ hp.fresh⟩, P2PF_E_CON_DUPLICATE, _, rfl, Or.inr rfl, ?_⟩
    rw [hr, hcp]
    simp [FAILED, putBack_insert, Hub.handover]

/-- How ArmResolved ends: refused, with the hub as it was, or with one more connection. -/
inductive ArmOutcome (env : ArmEnv) (peer : WStr) (rEp : FacadeEndpoint) (bListen : Bool) (h : Hub) :
    HRESULT → Hub → Prop
  | refused (hr : HRESULT) (handed : List Handover) (hn : ¬ Armable env peer h) (hf : FAILED hr = true)
      (hh : handed = h.handed ∨ handed = h.handed ++ [h.handover peer]) :
      ArmOutcome env peer rEp bListen h hr { h with handed := handed }
  | armed (hr : HRESULT) (c : Con) (events : List HubEvent) (ha : Armable env peer h) (hf : FAILED hr = false)
      (hpeer : c.csPeer = peer) (hmode : c.eMode = if bListen then .service else .client)
      (hphase : c.ePhase = .posted) :
      ArmOutcome env peer rEp bListen h hr
        { h with armed := h.armed.insert peer ⟨rEp.Format, bListen⟩, cons := h.cons ++ [c],
                 nNextCon := h.nNextCon + 1, handed := h.handed ++ [h.handover peer], events := events }

theorem armResolved_cases (env : ArmEnv) (peer : WStr) (rEp : FacadeEndpoint) (bListen : Bool) (h : Hub) :
    ArmOutcome env peer rEp bListen h (ArmResolved env peer rEp bListen h).1
      (ArmResolved env peer rEp bListen h).2 := by
  unfold ArmResolved
  by_cases hp : peer.isEmpty = true
  · rw [if_pos hp]
    exact .refused _ h.handed (fun ha => ha.named (by simpa using hp)) rfl (Or.inl rfl)
  rw [if_neg hp]
  by_cases hs : IsSwappedPeerArgument peer = true
  · rw [if_pos hs]
    exact .refused _ h.handed (fun ha => by rw [ha.inPlace] at hs; cases hs) rfl (Or.inl rfl)
  rw [if_neg hs]
  by_cases hc : ClassifyPeer h.csAddress peer = .self
  · simp only [hc, if_true]
    exact .refused _ h.handed (fun ha => ha.other hc) rfl (Or.inl rfl)
  simp only [hc, if_false]
  rcases armRecorded_cases env peer rEp bListen h with ⟨hposts, c, hcp, hcm, hcph, hr⟩ | ⟨hn, hr, handed, hf, hh, he⟩
  · have ha : Armable env peer h := ⟨by simpa using hp, by simpa using hs, hc, hposts⟩
    rw [hr]
    by_cases hu : ClassifyPeer h.csAddress peer = .unrelated
    · simp only [hu, failed_S_OK, Bool.false_eq_true, if_false, ne_eq, not_true_eq_false]
      exact .armed _ c _ ha rfl hcp hcm hcph
    · simp only [hu, failed_S_OK, Bool.false_eq_true, if_false, ne_eq, not_false_eq_true, if_true]
      exact .armed _ c h.events ha rfl hcp hcm hcph
  · rw [he]
    simp only [hf, if_true]
    exact .refused hr handed (fun ha => hn ha.posts) hf hh

/-- An arm that is not refused has posted a connection of exactly this endpoint, and recorded it. -/
theorem armResolved_made {env : ArmEnv} {peer : WStr} {rEp : FacadeEndpoint} {bListen : Bool} {h : Hub}
    (hok : FAILED (ArmResolved env peer rEp bListen h).1 = false) :
    ∃ c : Con, c.csPeer = peer ∧ c.eMode = (if bListen then .service else .client) ∧ c.rEp = rEp ∧
      (ArmResolved env peer rEp bListen h).2.cons = h.cons ++ [c] ∧
      (ArmResolved env peer rEp bListen h).2.armed = h.armed.insert peer ⟨rEp.Format, bListen⟩ := by
  have hposted : ∀ h' : Hub, h'.cons = (ArmRecorded env peer rEp bListen h).2.cons →
      h'.armed = (ArmRecorded env peer rEp bListen h).2.armed →
      FAILED (ArmRecorded env peer rEp bListen h).1 = false →
      ∃ c : Con, c.csPeer = peer ∧ c.eMode = (if bListen then .service else .client) ∧ c.rEp = rEp ∧
        h'.cons = h.cons ++ [c] ∧ h'.armed = h.armed.insert peer ⟨rEp.Format, bListen⟩ := by
    intro h' hc ha hrec
    rw [hc, ha]
    unfold ArmRecorded at hrec ⊢
    cases hf : env.factory with
    | false => simp [hf, MakeCon, PostCon, FAILED] at hrec
    | true =>
      simp only [hf, MakeCon, Bool.not_true, Bool.false_eq_true, if_false] at hrec ⊢
      generalize hmk : (Con.mk h.nNextCon peer (if bListen then .service else .client) rEp _ .posted) = c at hrec ⊢
      have hcp : c.csPeer = peer := by rw [← hmk]
      rcases postCon_cases env c { h with armed := h.armed.insert peer ⟨rEp.Format, bListen⟩ } with
        ⟨-, hr⟩ | ⟨-, hr⟩
      · rw [hr]
        exact ⟨c, hcp, by rw [← hmk], by rw [← hmk], rfl, rfl⟩
      · rw [hr] at hrec
        simp [FAILED] at hrec
  unfold ArmResolved at hok ⊢
  by_cases hp : peer.isEmpty = true
  · simp [hp, FAILED] at hok
  by_cases hs : IsSwappedPeerArgument peer = true
  · simp [hp, hs, FAILED] at hok
  by_cases hc : ClassifyPeer h.csAddress peer = .self
  · simp [hp, hs, hc, FAILED] at hok
  by_cases hf : FAILED (ArmRecorded env peer rEp bListen h).1 = true
  · simp [hp, hs, hc, hf] at hok
  have hf' : FAILED (ArmRecorded env peer rEp bListen h).1 = false := by simpa using hf
  by_cases hu : ClassifyPeer h.csAddress peer = .unrelated
  · simp only [hp, hs, hf', hu, Bool.false_eq_true, if_false, ne_eq, not_true_eq_false]
    exact hposted _ rfl rfl hf'
  · simp only [hp, hs, hc, hf', hu, Bool.false_eq_true, if_false, ne_eq, not_false_eq_true, if_true]
    exact hposted _ rfl rfl hf'

/-! ## The gate of a secure hub -/

theorem admit_cases (env : ArmEnv) (peer : WStr) (h : Hub) :
    ∃ hr said, AdmitPatternPeer env peer h = (hr, { h with
        trust := { h.trust with lastArm := some (env.trust.arm.answer h.trust.requireAuth) }, said := said }) ∧
      (FAILED hr = false ↔ env.trust.arm.answer h.trust.requireAuth = .ArmOk) := by
  unfold AdmitPatternPeer AuthArm
  by_cases ha : env.trust.arm.answer h.trust.requireAuth = .ArmOk
  · exact ⟨S_OK, h.said, by simp [ha], by simp [ha]⟩
  · exact ⟨P2PF_E_SECURITY, _, by simp only [ha, if_false]; rfl, by simp [ha, FAILED]⟩

/-- The key files of the hub's security directory have an identity for `peer`. -/
def KeyFor (env : ArmEnv) (peer : WStr) (h : Hub) (k : SecKeys) : Prop :=
  h.csSecDir ≠ [] ∧ (LoadPeerKeys peer h.csSecDir env.keys).1 = .IdOk ∧
    (LoadPeerKeys peer h.csSecDir env.keys).2.2 = k

/-- Without a key nothing has changed; with one the outcome is TrustAndEnforce's. -/
theorem published_cases (env : ArmEnv) {peer : WStr} (h : Hub) (hpeer : peer ≠ []) :
    ∃ hr t said, TrustPublishedPeer env peer h = (hr, { h with trust := t, said := said }) ∧
      (((∀ k, ¬ KeyFor env peer h k) ∧ t = h.trust ∧ FAILED hr = true) ∨
        ∃ k, KeyFor env peer h k ∧ TrustOutcome env.trust peer k h.trust hr t) := by
  unfold TrustPublishedPeer
  by_cases hd : h.csSecDir.isEmpty = true
  · rw [if_pos hd]
    exact ⟨_, h.trust, _, rfl, Or.inl ⟨fun k hk => hk.1 (by simpa using hd), rfl, rfl⟩⟩
  rw [if_neg hd]
  obtain ⟨⟨e, what, k⟩, hl⟩ : ∃ x, LoadPeerKeys peer h.csSecDir env.keys = x := ⟨_, rfl⟩
  rw [hl]
  by_cases he : e = .IdOk
  · subst he
    have hk : KeyFor env peer h k := ⟨by simpa using hd, by rw [hl], by rw [hl]⟩
    have hout := trust_cases h.csAddress h.csSecDir env.trust k h.trust hpeer
    by_cases hf : FAILED (TrustAndEnforce h.csAddress peer k h.csSecDir env.trust h.trust).1 = true
    · exact ⟨_, _, _, by simp only [hf, if_true]; rfl, Or.inr ⟨k, hk, hout⟩⟩
    · exact ⟨_, _, h.said, by simp only [hf, Bool.false_eq_true, if_false], Or.inr ⟨k, hk, hout⟩⟩
  · have hno : ∀ k', ¬ KeyFor env peer h k' := fun k' hk' => he (by have := hk'.2.1; rwa [hl] at this)
    refine ⟨P2PF_E_SECURITY, h.trust, h.said ++ [.noPublishedKey h.csAddress peer what], ?_, Or.inl ⟨hno, rfl, rfl⟩⟩
    cases e <;> first | exact absurd rfl he | rfl

/-- The gate of a secure hub lets the arm of `peer` through: a pattern while the hub
    enforces, a named peer when it can be trusted now. -/
def GateOpen (env : ArmEnv) (peer : WStr) (h : Hub) : Prop :=
  (IsPattern peer = true → env.trust.arm.answer h.trust.requireAuth = .ArmOk) ∧
  (IsPattern peer = false → ∃ k, KeyFor env peer h k ∧ env.trust.Writes h.trust.trusted peer k ∧ env.trust.Arms)

theorem gate_cases (env : ArmEnv) {peer : WStr} (h : Hub) (hpeer : peer ≠ []) :
    ∃ hr t said, (if IsPattern peer then AdmitPatternPeer env peer h else TrustPublishedPeer env peer h) =
      (hr, { h with trust := t, said := said }) ∧ (FAILED hr = false ↔ GateOpen env peer h) := by
  by_cases hpat : IsPattern peer = true
  · obtain ⟨hr, said, had, hok⟩ := admit_cases env peer h
    rw [if_pos hpat]
    refine ⟨hr, _, said, had, hok.trans ⟨fun ha => ⟨fun _ => ha, fun hn => absurd hpat (by simp [hn])⟩, fun hg => hg.1 hpat⟩⟩
  · have hpat' : IsPattern peer = false := by simpa using hpat
    rw [if_neg hpat]
    obtain ⟨hr, t, said, hpub, ⟨hno, -, hf⟩ | ⟨k, hk, hout⟩⟩ := published_cases env h hpeer
    · refine ⟨hr, t, said, hpub, ⟨fun hok => absurd hf (by simp [hok]), fun hg => ?_⟩⟩
      obtain ⟨k, hk, -⟩ := hg.2 hpat'
      exact absurd hk (hno k)
    · have honly : GateOpen env peer h ↔ env.trust.Writes h.trust.trusted peer k ∧ env.trust.Arms := by
        refine ⟨fun hg => ?_, fun hwa => ⟨fun hn => absurd hn hpat, fun _ => ⟨k, hk, hwa⟩⟩⟩
        obtain ⟨k', hk', hwa⟩ := hg.2 hpat'
        obtain rfl : k' = k := hk'.2.2.symm.trans hk.2.2
        exact hwa
      refine ⟨hr, t, said, hpub, ?_⟩
      rw [honly]
      cases hout with
      | unwritten temp file hw => exact ⟨fun hc => (by cases hc), fun hwa => absurd hwa.1 hw⟩
      | trusted _ hw ha => exact ⟨fun _ => ⟨hw, ha⟩, fun _ => rfl⟩
      | unarmed _ hw ha => exact ⟨fun hc => (by cases hc), fun hwa => absurd hwa.2 ha⟩

/-! ## The verbs -/

/-- The arms, the peers and the connections are what they were. -/
structure SameCons (h h' : Hub) : Prop where
  armed : h'.armed = h.armed
  peers : h'.peers = h.peers
  unretired : h'.unretired = h.unretired
  cons : h'.cons = h.cons

/-- One connection for `peer` has been armed, and nothing else about the peers has changed. -/
structure AddedCon (peer : WStr) (h h' : Hub) : Prop where
  armed : ∃ a, h'.armed = h.armed.insert peer a
  peers : h'.peers = h.peers
  unretired : h'.unretired = h.unretired
  cons : ∃ c : Con, c.csPeer = peer ∧ c.eMode ≠ .accept ∧ c.ePhase = .posted ∧ h'.cons = h.cons ++ [c]

theorem armResolved_adds (env : ArmEnv) (peer : WStr) (rEp : FacadeEndpoint) (bListen : Bool) (h : Hub) :
    (¬ Armable env peer h ∧ SameCons h (ArmResolved env peer rEp bListen h).2) ∨
      (Armable env peer h ∧ AddedCon peer h (ArmResolved env peer rEp bListen h).2) := by
  have hout := armResolved_cases env peer rEp bListen h
  revert hout
  generalize ArmResolved env peer rEp bListen h = r
  obtain ⟨hr, h'⟩ := r
  intro hout
  cases hout with
  | refused handed hn hf hh => exact Or.inl ⟨hn, rfl, rfl, rfl, rfl⟩
  | armed c events ha hf hpeer hmode hphase =>
    refine Or.inr ⟨ha, ⟨_, rfl⟩, rfl, rfl, c, hpeer, ?_, hphase, rfl⟩
    rw [hmode]; split <;> simp

section Verbs

variable (inet : InetPton) (pOwner : Option Owner) (env : ArmEnv)

/-- The verb arms `peer`: it has an endpoint, passes the gate, and its post is accepted. -/
structure ArmsPeer (peer endpoint : WStr) (bListen : Bool) (h : Hub) : Prop where
  resolves : FAILED (endpointFor inet pOwner h.csAddress peer endpoint bListen).1 = false
  gate : h.bSecure = true → GateOpen env peer h
  armable : Armable env peer h

/-- The post asks about the address and the connections only. -/
theorem armable_trust (peer : WStr) (h : Hub) (t : Trust) (said : List HubWhy) :
    Armable env peer { h with trust := t, said := said } ↔ Armable env peer h :=
  ⟨fun ha => ⟨ha.named, ha.inPlace, ha.other, ha.posts.factory, ha.posts.accepts, ha.posts.fresh⟩,
   fun ha => ⟨ha.named, ha.inPlace, ha.other, ha.posts.factory, ha.posts.accepts, ha.posts.fresh⟩⟩

/-- How a verb ends: before the gate, at the gate, or as the arm of the endpoint it has found does. -/
inductive UnifiedOutcome (peer : Option WStr) (endpoint : WStr) (bListen : Bool) (h : Hub) : HRESULT → Hub → Prop
  | early (hr : HRESULT) (hf : FAILED hr = true) (hn : ∀ p, peer = some p → p = [] ∨ IsSwappedPeerArgument p = true ∨
      FAILED (endpointFor inet pOwner h.csAddress p endpoint bListen).1 = true) :
      UnifiedOutcome peer endpoint bListen h hr h
  | barred (p : WStr) (hr : HRESULT) (t : Trust) (said : List HubWhy) (hpeer : peer = some p) (hs : h.bSecure = true)
      (hshut : ¬ GateOpen env p h) (hf : FAILED hr = true) :
      UnifiedOutcome peer endpoint bListen h hr { h with trust := t, said := said }
  | passed (p : WStr) (t : Trust) (said : List HubWhy) (hpeer : peer = some p) (hne : p ≠ [])
      (hres : FAILED (endpointFor inet pOwner h.csAddress p endpoint bListen).1 = false)
      (hgate : (h.bSecure = false ∧ t = h.trust ∧ said = h.said) ∨ (h.bSecure = true ∧ GateOpen env p h ∧
        ∃ hr, (if IsPattern p then AdmitPatternPeer env p h else TrustPublishedPeer env p h) =
          (hr, { h with trust := t, said := said }) ∧ FAILED hr = false)) :
      UnifiedOutcome peer endpoint bListen h
        (ArmResolved env p (endpointFor inet pOwner h.csAddress p endpoint bListen).2 bListen
          { h with trust := t, said := said }).1
        (ArmResolved env p (endpointFor inet pOwner h.csAddress p endpoint bListen).2 bListen
          { h with trust := t, said := said }).2

theorem armUnified_cases (peer : Option WStr) (endpoint : WStr) (bListen : Bool) (h : Hub) :
    UnifiedOutcome inet pOwner env peer endpoint bListen h (ArmUnified inet pOwner env peer endpoint bListen h).1
      (ArmUnified inet pOwner env peer endpoint bListen h).2 := by
  unfold ArmUnified
  cases peer with
  | none => exact .early _ rfl fun p hp => (by cases hp)
  | some p =>
    have hearly : ∀ {hr}, FAILED hr = true → (p = [] ∨ IsSwappedPeerArgument p = true ∨
        FAILED (endpointFor inet pOwner h.csAddress p endpoint bListen).1 = true) →
        UnifiedOutcome inet pOwner env (some p) endpoint bListen h hr h :=
      fun hf hn => .early _ hf fun q hq => by cases hq; exact hn
    by_cases h1 : p.isEmpty = true
    · simp only [h1, if_true]
      exact hearly rfl (Or.inl (by simpa using h1))
    by_cases h2 : IsSwappedPeerArgument p = true
    · simp only [h1, h2, Bool.false_eq_true, if_false, if_true]
      exact hearly rfl (Or.inr (Or.inl h2))
    simp only [h1, h2, Bool.false_eq_true, if_false]
    by_cases h3 : FAILED (endpointFor inet pOwner h.csAddress p endpoint bListen).1 = true
    · simp only [h3, if_true]
      exact hearly h3 (Or.inr (Or.inr h3))
    have hne : p ≠ [] := by simpa using h1
    have hres : FAILED (endpointFor inet pOwner h.csAddress p endpoint bListen).1 = false := by simpa using h3
    simp only [h3, Bool.false_eq_true, if_false]
    by_cases h4 : h.bSecure = true
    case neg =>
      simp only [h4, Bool.false_eq_true, if_false]
      exact .passed p h.trust h.said rfl hne hres (Or.inl ⟨by simpa using h4, rfl, rfl⟩)
    simp only [h4, if_true]
    obtain ⟨hr, t, said, he, hok⟩ := gate_cases env h hne
    rw [he]
    by_cases hf : FAILED hr = true
    · simp only [hf, if_true]
      exact .barred p hr t said rfl h4 (fun hg => absurd (hok.mpr hg) (by simp [hf])) hf
    · have hf' : FAILED hr = false := by simpa using hf
      simp only [hf, Bool.false_eq_true, if_false]
      exact .passed p t said rfl hne hres (Or.inr ⟨h4, hok.mp hf', hr, he, hf'⟩)

variable {inet pOwner env}

theorem early_not_arms {p endpoint : WStr} {bListen : Bool} {h : Hub} (hn : p = [] ∨ IsSwappedPeerArgument p = true ∨
    FAILED (endpointFor inet pOwner h.csAddress p endpoint bListen).1 = true) :
    ¬ ArmsPeer inet pOwner env p endpoint bListen h := by
  intro ha
  rcases hn with hne | hswap | hres
  · exact ha.armable.named hne
  · rw [ha.armable.inPlace] at hswap
    cases hswap
  · rw [ha.resolves] at hres
    cases hres

theorem passed_gate {p : WStr} {h : Hub} {t : Trust} {said : List HubWhy} {P : Prop}
    (hgate : (h.bSecure = false ∧ t = h.trust ∧ said = h.said) ∨ (h.bSecure = true ∧ GateOpen env p h ∧ P)) :
    h.bSecure = true → GateOpen env p h := by
  intro hs
  rcases hgate with ⟨hplain, -⟩ | ⟨-, hg, -⟩
  · rw [hplain] at hs
    cases hs
  · exact hg

/-- Past the gate it is the post that decides. -/
theorem passed_arms_iff {p endpoint : WStr} {bListen : Bool} {h : Hub} {t : Trust} {said : List HubWhy}
    (hres : FAILED (endpointFor inet pOwner h.csAddress p endpoint bListen).1 = false)
    (hgate : h.bSecure = true → GateOpen env p h) :
    ArmsPeer inet pOwner env p endpoint bListen h ↔ Armable env p { h with trust := t, said := said } :=
  ⟨fun ha => (armable_trust env p h t said).mpr ha.armable, fun ha => ⟨hres, hgate, (armable_trust env p h t said).mp ha⟩⟩

variable (inet pOwner env)

theorem armUnified_adds (peer : Option WStr) (endpoint : WStr) (bListen : Bool) (h : Hub) :
    ((∀ p, peer = some p → ¬ ArmsPeer inet pOwner env p endpoint bListen h) ∧
        SameCons h (ArmUnified inet pOwner env peer endpoint bListen h).2) ∨
      ∃ p, peer = some p ∧ ArmsPeer inet pOwner env p endpoint bListen h ∧
        AddedCon p h (ArmUnified inet pOwner env peer endpoint bListen h).2 := by
  have hout := armUnified_cases inet pOwner env peer endpoint bListen h
  revert hout
  generalize ArmUnified inet pOwner env peer endpoint bListen h = r
  obtain ⟨hr, h'⟩ := r
  intro hout
  cases hout with
  | early hr hf hn => exact Or.inl ⟨fun p hp => early_not_arms (hn p hp), rfl, rfl, rfl, rfl⟩
  | barred p hr t said hpeer hs hshut hf =>
    refine Or.inl ⟨fun q hq ha => hshut ?_, rfl, rfl, rfl, rfl⟩
    rw [hpeer] at hq
    cases hq
    exact ha.gate hs
  | passed p t said hpeer hne hres hgate =>
    have hopen : h.bSecure = true → GateOpen env p h := passed_gate hgate
    rcases armResolved_adds env p (endpointFor inet pOwner h.csAddress p endpoint bListen).2 bListen
        { h with trust := t, said := said } with ⟨hn, hs⟩ | ⟨ha, hadd⟩
    · refine Or.inl ⟨fun q hq hq' => hn ?_, hs.1, hs.2, hs.3, hs.4⟩
      rw [hpeer] at hq
      cases hq
      exact (passed_arms_iff hres hopen).mp hq'
    · exact Or.inr ⟨p, hpeer, (passed_arms_iff hres hopen).mpr ha, hadd.1, hadd.2, hadd.3, hadd.4⟩

theorem armResolved_ok_iff {peer : WStr} {rEp : FacadeEndpoint} {bListen : Bool} {h : Hub} :
    FAILED (ArmResolved env peer rEp bListen h).1 = false ↔ Armable env peer h := by
  have hout := armResolved_cases env peer rEp bListen h
  revert hout
  generalize ArmResolved env peer rEp bListen h = r
  obtain ⟨hr, h'⟩ := r
  intro hout
  cases hout with
  | refused handed hn hf hh => exact ⟨fun hok => (by rw [hf] at hok; cases hok), fun ha => absurd ha hn⟩
  | armed c events ha hf hpeer hmode hphase => exact ⟨fun _ => ha, fun _ => hf⟩

/-- The verb answers with a success exactly when it arms. -/
theorem armUnified_ok_iff {p : WStr} {endpoint : WStr} {bListen : Bool} {h : Hub} :
    FAILED (ArmUnified inet pOwner env (some p) endpoint bListen h).1 = false ↔
      ArmsPeer inet pOwner env p endpoint bListen h := by
  have hout := armUnified_cases inet pOwner env (some p) endpoint bListen h
  revert hout
  generalize ArmUnified inet pOwner env (some p) endpoint bListen h = r
  obtain ⟨hr, h'⟩ := r
  intro hout
  cases hout with
  | early hr hf hn =>
    refine ⟨fun hok => absurd (hok.symm.trans hf) Bool.false_ne_true, fun ha => ?_⟩
    exact absurd ha (early_not_arms (hn p rfl))
  | barred q hr t said hpeer hs hshut hf =>
    cases hpeer
    exact ⟨fun hok => absurd (hok.symm.trans hf) Bool.false_ne_true, fun ha => absurd (ha.gate hs) hshut⟩
  | passed q t said hpeer hne hres hgate =>
    cases hpeer
    exact (armResolved_ok_iff env).trans (passed_arms_iff hres (passed_gate hgate)).symm

end Verbs

end TargetFacade
