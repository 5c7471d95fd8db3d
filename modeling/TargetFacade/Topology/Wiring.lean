/-
  TargetFacade.Topology.Wiring — what the edges of a text mean, and one Link of them
  (TargetFacadeTopology.hpp: Edge, the edge's endpoint as its header gives it; FacadeNetwork.cpp: Link).

  An edge is armed at both hubs: the listener's record has its endpoint less the host, the dialer's the
  endpoint. Which endpoint it is the text says alone: the line's own, or the one declared for the listener,
  or one derived from the two addresses (`Edge.ends`). `wired` is what edges mean together: the record that
  each hub keeps for each peer. `link_step` is one Link against it: it adds its edge to what is wired, or it
  fails and leaves every record, and it goes exactly if the endpoint is one, no edge before it has the two
  hubs, and the kernel takes both connections (`Goes`).
-/

import TargetFacade.Network.Records
import TargetFacade.Topology.MapText

namespace TargetFacade

open OrdMap Text TargetFacade.Topology

/-! ## What edges mean -/

/-- The edges of a text, in its order. -/
def edgesOf (ds : List Numbered) : List Edge := ds.filterMap (·.2.edge?)

/-- The endpoint text of an edge: the line's own, else the listener's, else none. -/
def Edge.text (ds : List Numbered) (e : Edge) : WStr :=
  if e.endpoint.isEmpty then ((entries ds).find? (·.2.1 == e.listener)).elim [] (·.2.2) else e.endpoint

/-- The endpoint as the listener spells it, and as the dialer does. -/
def Edge.ends (inet : InetPton) (ds : List Numbered) (e : Edge) : HRESULT × FacadeEndpoint × FacadeEndpoint :=
  linkEndpoints inet e.listener e.dialer (e.text ds)

/-- The edge joins the two hubs, either way. -/
def Edge.Joins (e : Edge) (x q : WStr) : Prop := (e.listener = x ∧ e.dialer = q) ∨ (e.dialer = x ∧ e.listener = q)

instance (e : Edge) (x q : WStr) : Decidable (e.Joins x q) := inferInstanceAs (Decidable (_ ∨ _))

/-- What the edge has the hub at `x` keep for `q`. -/
def Edge.record (inet : InetPton) (ds : List Numbered) (e : Edge) (x q : WStr) : Option ArmedCon :=
  if e.listener = x ∧ e.dialer = q then some ⟨(e.ends inet ds).2.1.Format, true⟩
  else if e.dialer = x ∧ e.listener = q then some ⟨(e.ends inet ds).2.2.Format, false⟩
  else none

def wired (inet : InetPton) (ds : List Numbered) (es : List Edge) (x q : WStr) : Option ArmedCon :=
  es.findSome? fun e => e.record inet ds x q

section Meaning

variable {inet : InetPton} {ds : List Numbered}

theorem record_isSome {e : Edge} {x q : WStr} : (e.record inet ds x q).isSome = true ↔ e.Joins x q := by
  unfold Edge.record Edge.Joins
  split
  · rename_i hl
    exact iff_of_true rfl (Or.inl hl)
  split
  · rename_i hd
    exact iff_of_true rfl (Or.inr hd)
  · rename_i hl hd
    exact iff_of_false nofun (fun h => h.elim hl hd)

theorem joins_comm {e : Edge} {x q : WStr} : e.Joins x q ↔ e.Joins q x := by
  unfold Edge.Joins
  rw [or_comm, and_comm, and_comm (a := e.listener = x)]

theorem wired_snoc (es : List Edge) (e : Edge) (x q : WStr) :
    wired inet ds (es ++ [e]) x q = (wired inet ds es x q).or (e.record inet ds x q) := by
  unfold wired
  rw [List.findSome?_append, List.findSome?_singleton]

theorem wired_isSome {es : List Edge} {x q : WStr} : (wired inet ds es x q).isSome = true ↔ ∃ e ∈ es, e.Joins x q := by
  unfold wired
  rw [List.isSome_findSome?, List.any_eq_true]
  exact exists_congr fun e => and_congr_right fun _ => record_isSome

end Meaning

/-! ## One arm -/

theorem armResolved_answer {env : ArmEnv} {peer : WStr} {rEp : FacadeEndpoint} {bListen : Bool} {h : Hub}
    (hok : FAILED (ArmResolved env peer rEp bListen h).1 = false) :
    (ArmResolved env peer rEp bListen h).1 =
      if ClassifyPeer h.csAddress peer = .unrelated then P2PF_S_UNRELATED_LINK else S_OK := by
  unfold ArmResolved at hok ⊢
  by_cases hp : peer.isEmpty = true
  · rw [if_pos hp] at hok
    cases hok
  rw [if_neg hp] at hok ⊢
  by_cases hs : IsSwappedPeerArgument peer = true
  · rw [if_pos hs] at hok
    cases hok
  rw [if_neg hs] at hok ⊢
  simp only at hok ⊢
  by_cases hc : ClassifyPeer h.csAddress peer = .self
  · rw [if_pos hc] at hok
    cases hok
  rw [if_neg hc] at hok ⊢
  by_cases hf : FAILED (ArmRecorded env peer rEp bListen h).1 = true
  · rw [if_pos hf] at hok
    exact absurd hf (by rw [hok]; nofun)
  rw [if_neg hf]
  by_cases hu : ClassifyPeer h.csAddress peer = .unrelated
  · rw [if_neg (not_not.mpr hu), if_pos hu]
  · rw [if_pos hu, if_neg hu]

theorem armResolved_goes {env : ArmEnv} {peer : WStr} {rEp : FacadeEndpoint} {bListen : Bool} {h : Hub} :
    FAILED (ArmResolved env peer rEp bListen h).1 = false ↔ Armable env peer h := by
  have hout := armResolved_cases env peer rEp bListen h
  generalize ArmResolved env peer rEp bListen h = r at hout
  obtain ⟨hr, h'⟩ := r
  simp only at hout ⊢
  cases hout with
  | refused handed hn hf hh => exact iff_of_false (by rw [hf]; nofun) hn
  | armed c events ha hf => exact iff_of_true hf ha

/-! ## Both arms -/

/-- What an arm that goes adds to a hub. -/
structure ArmedEnd (peer : WStr) (a : ArmedCon) (h h' : Hub) : Prop where
  address : h'.csAddress = h.csAddress
  plain : h'.bSecure = h.bSecure
  armed : h'.armed = h.armed.insert peer a
  cons : ∃ c : Con, c.csPeer = peer ∧ h'.cons = h.cons ++ [c]

theorem armResolved_arms {env : ArmEnv} {peer : WStr} {rEp : FacadeEndpoint} {bListen : Bool} {h : Hub} (ha : Armable env peer h) :
    ArmedEnd peer ⟨rEp.Format, bListen⟩ h (ArmResolved env peer rEp bListen h).2 := by
  have hout := armResolved_cases env peer rEp bListen h
  generalize ArmResolved env peer rEp bListen h = r at hout ⊢
  obtain ⟨hr, h'⟩ := r
  simp only at hout ⊢
  cases hout with
  | refused handed hn hf hh => exact absurd ha hn
  | armed c events ha hf hpeer => exact ⟨rfl, rfl, rfl, c, hpeer, rfl⟩

/-- The edge goes: both ends are armed. -/
theorem armEdge_goes {env : LinkEnv} (oListen oDial : FacadeEndpoint) {pListener pDialer : Hub}
    (hL : Armable env.listen pDialer.csAddress pListener) (hD : Armable env.dial pListener.csAddress pDialer) :
    (armEdge env oListen oDial pListener pDialer).1 =
        (if ClassifyPeer pListener.csAddress pDialer.csAddress = .unrelated ∨
          ClassifyPeer pDialer.csAddress pListener.csAddress = .unrelated then P2PF_S_UNRELATED_LINK else S_OK) ∧
      ArmedEnd pDialer.csAddress ⟨oListen.Format, true⟩ pListener (armEdge env oListen oDial pListener pDialer).2.1 ∧
      ArmedEnd pListener.csAddress ⟨oDial.Format, false⟩ pDialer (armEdge env oListen oDial pListener pDialer).2.2 := by
  have hokL : FAILED (ArmResolved env.listen pDialer.csAddress oListen true pListener).1 = false := armResolved_goes.mpr hL
  have hokD : FAILED (ArmResolved env.dial pListener.csAddress oDial false pDialer).1 = false := armResolved_goes.mpr hD
  have hansL := armResolved_answer hokL
  have hansD := armResolved_answer hokD
  have harmL : ArmedEnd pDialer.csAddress ⟨oListen.Format, true⟩ pListener _ := armResolved_arms hL
  have harmD : ArmedEnd pListener.csAddress ⟨oDial.Format, false⟩ pDialer _ := armResolved_arms hD
  have haddr : (ArmResolved env.listen pDialer.csAddress oListen true pListener).2.csAddress = pListener.csAddress := harmL.address
  unfold armEdge
  simp only [hokL, haddr, hokD, Bool.false_eq_true, if_false]
  refine ⟨?_, harmL, harmD⟩
  rw [hansL, hansD]
  by_cases hl : ClassifyPeer pListener.csAddress pDialer.csAddress = .unrelated <;>
    by_cases hd : ClassifyPeer pDialer.csAddress pListener.csAddress = .unrelated <;> simp [hl, hd]

/-- The edge does not: the records are what they were, unless the listener had one for the dialer. -/
theorem armEdge_refused {env : LinkEnv} (oListen oDial : FacadeEndpoint) {pListener pDialer : Hub}
    (hfree : pListener.armed[pDialer.csAddress]? = none)
    (hno : ¬ (Armable env.listen pDialer.csAddress pListener ∧ Armable env.dial pListener.csAddress pDialer)) :
    FAILED (armEdge env oListen oDial pListener pDialer).1 = true ∧
      (armEdge env oListen oDial pListener pDialer).2.1.armed = pListener.armed ∧
      (armEdge env oListen oDial pListener pDialer).2.2.armed = pDialer.armed := by
  unfold armEdge
  by_cases hL : FAILED (ArmResolved env.listen pDialer.csAddress oListen true pListener).1 = true
  · simp only [hL, if_true]
    exact ⟨trivial, (armResolved_refused hL).armed, trivial⟩
  have hL : FAILED (ArmResolved env.listen pDialer.csAddress oListen true pListener).1 = false := by simpa using hL
  have harm : ArmedEnd pDialer.csAddress ⟨oListen.Format, true⟩ pListener _ := armResolved_arms (armResolved_goes.mp hL)
  have hD : FAILED (ArmResolved env.dial pListener.csAddress oDial false pDialer).1 = true := by
    by_contra hD
    exact hno ⟨armResolved_goes.mp hL, armResolved_goes.mp (Bool.eq_false_iff.mpr hD)⟩
  have haddr : (ArmResolved env.listen pDialer.csAddress oListen true pListener).2.csAddress = pListener.csAddress := harm.address
  have hdial := armResolved_refused hD
  have hdaddr := armResolved_address env.dial pListener.csAddress oDial false pDialer
  simp only [hL, haddr, hD, Bool.false_eq_true, if_false, if_true]
  refine ⟨by split <;> first | rfl | exact hD, ?_, hdial.armed⟩
  rw [hdaddr, closeCon_record _ _ _ pDialer.oAddress.2, harm.armed, erase_insert, erase_of_none hfree]

/-! ## One Link -/

/-- The kernel takes both connections of an edge. -/
structure LinkEnv.Takes (env : LinkEnv) : Prop where
  listen : env.listen.factory = true ∧ env.listen.accepts = true
  dial : env.dial.factory = true ∧ env.dial.accepts = true

/-- The edge can be armed after these. -/
structure Goes (inet : InetPton) (ds : List Numbered) (env : LinkEnv) (done : List Edge) (e : Edge) : Prop where
  endpoint : FAILED (e.ends inet ds).1 = false
  fresh : ∀ f ∈ done, ¬ f.Joins e.listener e.dialer
  takes : env.Takes

/-- Neither end is on a line of the other's tree. -/
def Edge.Unrelated (e : Edge) : Prop :=
  ClassifyPeer e.listener e.dialer = .unrelated ∨ ClassifyPeer e.dialer e.listener = .unrelated

instance (e : Edge) : Decidable e.Unrelated := inferInstanceAs (Decidable (_ ∨ _))

/-- What parse leaves of an edge's two addresses. -/
structure Edge.Fine (e : Edge) : Prop where
  apart : e.listener ≠ e.dialer
  listener : e.listener ≠ [] ∧ IsSwappedPeerArgument e.listener = false
  dialer : e.dialer ≠ [] ∧ IsSwappedPeerArgument e.dialer = false

/-- A plain hub with nothing armed, as createHubs makes it. -/
structure Hub.Unarmed (h : Hub) : Prop where
  plain : h.bSecure = false
  armed : ∀ q : WStr, h.armed[q]? = none
  cons : h.cons = []

/-- Each hub has the records of these edges, and otherwise those it had. -/
def Wired (inet : InetPton) (ds : List Numbered) (es : List Edge) (net net' : Net) : Prop :=
  ∀ x h, net.FindHubLocked x = some h → ∃ h', net'.FindHubLocked x = some h' ∧
    ∀ q : WStr, h'.armed[q]? = (wired inet ds es x q).or h.armed[q]?

/-- And the connections too. -/
structure WiredUp (inet : InetPton) (ds : List Numbered) (es : List Edge) (net net' : Net) : Prop where
  hubs : ∀ x h, net.FindHubLocked x = some h → ∃ h', net'.FindHubLocked x = some h' ∧ h'.bSecure = h.bSecure ∧
    (∀ q : WStr, h'.armed[q]? = (wired inet ds es x q).or h.armed[q]?) ∧
    ∀ q, h'.ConExists q = ((wired inet ds es x q).isSome || h.ConExists q)
  map : net'.mapEndpoints = net.mapEndpoints

/-- A text for the edge that Link reads as the text's own. -/
structure Edge.Says (inet : InetPton) (ds : List Numbered) (e : Edge) (ep : WStr) : Prop where
  failed : FAILED (linkEndpoints inet e.listener e.dialer ep).1 = FAILED (e.ends inet ds).1
  listen : FAILED (e.ends inet ds).1 = false →
    (linkEndpoints inet e.listener e.dialer ep).2.1.Format = (e.ends inet ds).2.1.Format
  dial : FAILED (e.ends inet ds).1 = false →
    (linkEndpoints inet e.listener e.dialer ep).2.2.Format = (e.ends inet ds).2.2.Format

section Linking

variable {inet : InetPton} {ds : List Numbered} {es : List Edge} {net net' : Net} {e : Edge}

theorem wiredUp_wired (h : WiredUp inet ds es net net') : Wired inet ds es net net' := by
  intro x g hg
  obtain ⟨g', hf, -, hr, -⟩ := h.hubs x g hg
  exact ⟨g', hf, hr⟩

theorem wiredUp_refl : WiredUp inet ds [] net net := ⟨fun _ h hf => ⟨h, hf, rfl, fun _ => rfl, fun _ => rfl⟩, rfl⟩

/-- Link on two plain hubs that it does not take for the wrong ones. -/
theorem link_fine (env : LinkEnv) (he : e.Fine) (ep : WStr) {pListener pDialer : Hub}
    (hL : net.FindHubLocked e.listener = some pListener) (hD : net.FindHubLocked e.dialer = some pDialer)
    (hplainL : pListener.bSecure = false) (hplainD : pDialer.bSecure = false) :
    Link inet env (some e.listener) (some e.dialer) ep net =
      if FAILED (linkEndpoints inet e.listener e.dialer ep).1 then ((linkEndpoints inet e.listener e.dialer ep).1, net)
      else if pListener.ConExists e.dialer || pDialer.ConExists e.listener then (P2PF_E_CON_DUPLICATE, net)
      else
        let r := armEdge env (linkEndpoints inet e.listener e.dialer ep).2.1 (linkEndpoints inet e.listener e.dialer ep).2.2
          pListener pDialer
        (r.1, (net.setHub r.2.1).setHub r.2.2) := by
  have hl : e.listener.isEmpty = false := by simpa using he.listener.1
  have hd : e.dialer.isEmpty = false := by simpa using he.dialer.1
  unfold Link
  simp only [hl, hd, he.apart, he.listener.2, he.dialer.2, hL, hD, hplainL, hplainD, Bool.or_self, Bool.false_eq_true, if_false,
    ne_eq, not_true_eq_false, failed_S_OK]

/-- What the hub at `x` becomes when the two are written back. -/
theorem find_both {pListener pDialer pL pD : Hub} (hL : net.FindHubLocked e.listener = some pListener)
    (hD : net.FindHubLocked e.dialer = some pDialer) (haL : pL.csAddress = e.listener) (haD : pD.csAddress = e.dialer)
    (hab : e.listener ≠ e.dialer) {x : WStr} {h : Hub} (hx : net.FindHubLocked x = some h) :
    (x = e.listener ∧ h = pListener ∧ ((net.setHub pL).setHub pD).FindHubLocked x = some pL) ∨
    (x = e.dialer ∧ h = pDialer ∧ ((net.setHub pL).setHub pD).FindHubLocked x = some pD) ∨
    (x ≠ e.listener ∧ x ≠ e.dialer ∧ ((net.setHub pL).setHub pD).FindHubLocked x = some h) := by
  rw [find_setHub, find_setHub, haL, haD]
  by_cases hxL : x = e.listener
  · subst hxL
    rw [if_neg hab, if_pos rfl, hx]
    exact Or.inl ⟨rfl, Option.some.inj (hx.symm.trans hL), rfl⟩
  by_cases hxD : x = e.dialer
  · subst hxD
    rw [if_pos rfl, if_neg hxL, hx]
    exact Or.inr (Or.inl ⟨rfl, Option.some.inj (hx.symm.trans hD), rfl⟩)
  · rw [if_neg hxD, if_neg hxL]
    exact Or.inr (Or.inr ⟨hxL, hxD, hx⟩)

/-- An end that is armed is an edge more. -/
theorem wired_arms {x p : WStr} {a : ArmedCon} {h g h' : Hub} (ha : ArmedEnd p a g h') (hrec : e.record inet ds x p = some a)
    (hother : ∀ q, q ≠ p → e.record inet ds x q = none) (hno : wired inet ds es x p = none)
    (hg : ∀ q : WStr, g.armed[q]? = (wired inet ds es x q).or h.armed[q]?)
    (hc : ∀ q, g.ConExists q = ((wired inet ds es x q).isSome || h.ConExists q)) :
    (∀ q : WStr, h'.armed[q]? = (wired inet ds (es ++ [e]) x q).or h.armed[q]?) ∧
      ∀ q, h'.ConExists q = ((wired inet ds (es ++ [e]) x q).isSome || h.ConExists q) := by
  obtain ⟨c, hpeer, hcons⟩ := ha.cons
  constructor
  · intro q
    rw [ha.armed, get_insert, wired_snoc]
    by_cases hq : p = q
    · subst hq
      rw [if_pos rfl, hno, hrec]
      rfl
    · rw [if_neg hq, hother q (Ne.symm hq), Option.or_none, hg q]
  · intro q
    have hmore : h'.ConExists q = (g.ConExists q || p == q) := by
      unfold Hub.ConExists
      rw [hcons, List.any_append, List.any_cons, List.any_nil, Bool.or_false, hpeer]
    rw [hmore, hc q, wired_snoc]
    by_cases hq : p = q
    · subst hq
      rw [hno, hrec]
      simp
    · rw [hother q (Ne.symm hq), Option.or_none, beq_eq_false_iff_ne.mpr hq, Bool.or_false]

/-- A hub that the edge does not end at. -/
theorem record_elsewhere {x q : WStr} (hl : x ≠ e.listener) (hd : x ≠ e.dialer) : e.record inet ds x q = none := by
  cases hr : e.record inet ds x q with
  | none => rfl
  | some a =>
    rcases record_isSome.mp (Option.isSome_of_eq_some hr) with ⟨rfl, -⟩ | ⟨rfl, -⟩
    · exact absurd rfl hl
    · exact absurd rfl hd

theorem wired_none {x q : WStr} (h : ∀ f ∈ es, ¬ f.Joins x q) : wired inet ds es x q = none := by
  cases hw : wired inet ds es x q with
  | none => rfl
  | some a =>
    obtain ⟨f, hf, hj⟩ := wired_isSome.mp (Option.isSome_of_eq_some hw)
    exact absurd hj (h f hf)

theorem unarmed_conExists {h : Hub} (hu : h.Unarmed) (q : WStr) : h.ConExists q = false := by
  unfold Hub.ConExists
  rw [hu.cons]
  rfl

theorem classify_ne {a b : WStr} (h : a ≠ b) : ClassifyPeer a b ≠ .self := by
  unfold ClassifyPeer
  rw [beq_eq_false_iff_ne.mpr h]
  repeat' split
  all_goals first
    | contradiction
    | decide

/-- An edge more, when both its ends are armed and written back. -/
theorem wiredUp_armed (hu : WiredUp inet ds es net net') (he : e.Fine) (hfresh : ∀ f ∈ es, ¬ f.Joins e.listener e.dialer)
    {gL gD pL pD : Hub} (hgL : net'.FindHubLocked e.listener = some gL) (hgD : net'.FindHubLocked e.dialer = some gD)
    (harmL : ArmedEnd e.dialer ⟨(e.ends inet ds).2.1.Format, true⟩ gL pL)
    (harmD : ArmedEnd e.listener ⟨(e.ends inet ds).2.2.Format, false⟩ gD pD) :
    WiredUp inet ds (es ++ [e]) net ((net'.setHub pL).setHub pD) := by
  have hnoL : wired inet ds es e.listener e.dialer = none := wired_none hfresh
  have hnoD : wired inet ds es e.dialer e.listener = none := wired_none fun f hf hj => hfresh f hf (joins_comm.mp hj)
  have haL : pL.csAddress = e.listener := harmL.address.trans (find_address hgL)
  have haD : pD.csAddress = e.dialer := harmD.address.trans (find_address hgD)
  refine ⟨fun x h hx => ?_, hu.map⟩
  obtain ⟨g, hg, hplain, hrec, hcon⟩ := hu.hubs x h hx
  rcases find_both hgL hgD haL haD he.apart hg with ⟨rfl, rfl, hf⟩ | ⟨rfl, rfl, hf⟩ | ⟨hxL, hxD, hf⟩
  · have hself : e.record inet ds e.listener e.dialer = some ⟨(e.ends inet ds).2.1.Format, true⟩ := by
      unfold Edge.record
      rw [if_pos ⟨rfl, rfl⟩]
    have hnone (q : WStr) (hq : q ≠ e.dialer) : e.record inet ds e.listener q = none := by
      unfold Edge.record
      rw [if_neg fun h => hq h.2.symm, if_neg fun h => he.apart h.1.symm]
    exact ⟨_, hf, harmL.plain.trans hplain, wired_arms harmL hself hnone hnoL hrec hcon⟩
  · have hself : e.record inet ds e.dialer e.listener = some ⟨(e.ends inet ds).2.2.Format, false⟩ := by
      unfold Edge.record
      rw [if_neg fun h => he.apart h.1, if_pos ⟨rfl, rfl⟩]
    have hnone (q : WStr) (hq : q ≠ e.listener) : e.record inet ds e.dialer q = none := by
      unfold Edge.record
      rw [if_neg fun h => he.apart h.1, if_neg fun h => hq h.2.symm]
    exact ⟨_, hf, harmD.plain.trans hplain, wired_arms harmD hself hnone hnoD hrec hcon⟩
  · have hnone (q : WStr) : wired inet ds (es ++ [e]) x q = wired inet ds es x q := by
      rw [wired_snoc, record_elsewhere hxL hxD, Option.or_none]
    exact ⟨g, hf, hplain, fun q => by rw [hnone]; exact hrec q, fun q => by rw [hnone]; exact hcon q⟩

/-- No edge more, when both are written back with the records they had. -/
theorem wired_refused (hu : WiredUp inet ds es net net') (he : e.Fine) {gL gD pL pD : Hub}
    (hgL : net'.FindHubLocked e.listener = some gL) (hgD : net'.FindHubLocked e.dialer = some gD)
    (haL : pL.csAddress = gL.csAddress) (haD : pD.csAddress = gD.csAddress) (hsameL : pL.armed = gL.armed)
    (hsameD : pD.armed = gD.armed) : Wired inet ds es net ((net'.setHub pL).setHub pD) := by
  intro x h hx
  obtain ⟨g, hg, -, hrec, -⟩ := hu.hubs x h hx
  rcases find_both hgL hgD (haL.trans (find_address hgL)) (haD.trans (find_address hgD)) he.apart hg with
    ⟨-, rfl, hf⟩ | ⟨-, rfl, hf⟩ | ⟨-, -, hf⟩
  · exact ⟨_, hf, fun q => by rw [hsameL]; exact hrec q⟩
  · exact ⟨_, hf, fun q => by rw [hsameD]; exact hrec q⟩
  · exact ⟨g, hf, hrec⟩

/-- One Link, on hubs that were plain and had nothing armed before the first. -/
theorem link_step (env : LinkEnv) (hu : WiredUp inet ds es net net') (he : e.Fine) {ep : WStr} (hs : e.Says inet ds ep)
    {pListener pDialer : Hub} (hL : net.FindHubLocked e.listener = some pListener)
    (hD : net.FindHubLocked e.dialer = some pDialer) (hunL : pListener.Unarmed) (hunD : pDialer.Unarmed) :
    (Goes inet ds env es e ∧ (Link inet env (some e.listener) (some e.dialer) ep net').1 =
        (if e.Unrelated then P2PF_S_UNRELATED_LINK else S_OK) ∧
      WiredUp inet ds (es ++ [e]) net (Link inet env (some e.listener) (some e.dialer) ep net').2) ∨
    (¬ Goes inet ds env es e ∧ FAILED (Link inet env (some e.listener) (some e.dialer) ep net').1 = true ∧
      Wired inet ds es net (Link inet env (some e.listener) (some e.dialer) ep net').2) := by
  obtain ⟨gL, hgL, hplainL, hrecL, hconL⟩ := hu.hubs _ _ hL
  obtain ⟨gD, hgD, hplainD, -, hconD⟩ := hu.hubs _ _ hD
  have haL := find_address hgL
  have haD := find_address hgD
  rw [link_fine env he ep hgL hgD (hplainL.trans hunL.plain) (hplainD.trans hunD.plain)]
  rw [hconL, hconD, unarmed_conExists hunL, unarmed_conExists hunD, Bool.or_false, Bool.or_false]
  by_cases hend : FAILED (linkEndpoints inet e.listener e.dialer ep).1 = true
  · rw [if_pos hend]
    refine Or.inr ⟨fun hgo => ?_, hend, wiredUp_wired hu⟩
    rw [hs.failed, hgo.endpoint] at hend
    cases hend
  have hend' : FAILED (e.ends inet ds).1 = false := hs.failed.symm.trans (Bool.eq_false_iff.mpr hend)
  rw [if_neg hend]
  by_cases hjoin : ∃ f ∈ es, f.Joins e.listener e.dialer
  · -- the two hubs are linked already
    rw [if_pos (Bool.or_eq_true_iff.mpr (Or.inl (wired_isSome.mpr hjoin)))]
    refine Or.inr ⟨fun hgo => ?_, rfl, wiredUp_wired hu⟩
    obtain ⟨f, hf, hj⟩ := hjoin
    exact hgo.fresh f hf hj
  have hfresh : ∀ f ∈ es, ¬ f.Joins e.listener e.dialer := fun f hf hj => hjoin ⟨f, hf, hj⟩
  have hnoL : wired inet ds es e.listener e.dialer = none := wired_none hfresh
  have hnoD : wired inet ds es e.dialer e.listener = none := wired_none fun f hf hj => hfresh f hf (joins_comm.mp hj)
  rw [hnoL, hnoD, if_neg (by decide)]
  have hconL' : gL.ConExists gD.csAddress = false := by
    rw [haD, hconL, hnoL, unarmed_conExists hunL]
    rfl
  have hconD' : gD.ConExists gL.csAddress = false := by
    rw [haL, hconD, hnoD, unarmed_conExists hunD]
    rfl
  by_cases htake : env.Takes
  · -- both ends are armed
    have hgoL : Armable env.listen gD.csAddress gL :=
      ⟨gD.oAddress.2, by rw [haD]; exact he.dialer.2, by rw [haL, haD]; exact classify_ne he.apart, htake.listen.1,
        htake.listen.2, hconL'⟩
    have hgoD : Armable env.dial gL.csAddress gD :=
      ⟨gL.oAddress.2, by rw [haL]; exact he.listener.2, by rw [haL, haD]; exact classify_ne he.apart.symm, htake.dial.1,
        htake.dial.2, hconD'⟩
    obtain ⟨hcode, harmL, harmD⟩ := armEdge_goes (linkEndpoints inet e.listener e.dialer ep).2.1
      (linkEndpoints inet e.listener e.dialer ep).2.2 hgoL hgoD
    rw [haL, haD] at hcode
    rw [haD, hs.listen hend'] at harmL
    rw [haL, hs.dial hend'] at harmD
    exact Or.inl ⟨⟨hend', hfresh, htake⟩, hcode, wiredUp_armed hu he hfresh hgL hgD harmL harmD⟩
  · -- the kernel refuses one of them
    have hno : ¬ (Armable env.listen gD.csAddress gL ∧ Armable env.dial gL.csAddress gD) := fun ⟨hl, hd⟩ =>
      htake ⟨⟨hl.posts.factory, hl.posts.accepts⟩, ⟨hd.posts.factory, hd.posts.accepts⟩⟩
    have hfree : gL.armed[gD.csAddress]? = none := by
      rw [haD, hrecL, hnoL, hunL.armed]
      rfl
    obtain ⟨hfail, hsameL, hsameD⟩ := armEdge_refused (linkEndpoints inet e.listener e.dialer ep).2.1
      (linkEndpoints inet e.listener e.dialer ep).2.2 hfree hno
    obtain ⟨haddrL, haddrD⟩ := armEdge_addresses env (linkEndpoints inet e.listener e.dialer ep).2.1
      (linkEndpoints inet e.listener e.dialer ep).2.2 gL gD
    exact Or.inr ⟨fun hgo => htake hgo.takes, hfail, wired_refused hu he hgL hgD haddrL haddrD hsameL hsameD⟩

end Linking

end TargetFacade
