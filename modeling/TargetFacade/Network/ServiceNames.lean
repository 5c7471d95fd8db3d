/-
  TargetFacade.Network.ServiceNames — the Dmx service names that an omitted endpoint derives.

  A derived name is the two addresses with a '|' between them, and it is all the kernel matches
  a rendezvous on. A `NamedEdge` is what can have one: the hub is one that CreateHubEx makes, and
  its peer, an address or a pattern, one that the arming guards let through. `listen_names` and
  `link_names` say that a Listen and a Link with no endpoint name just such an edge, and
  `named_listens` that every one of them can be listened for.

  '|' separates the alternatives of a pattern and may stand in a hub's address too, so the
  addresses cannot be read back from the name: `names_apart_iff` is when they can, and
  `names_apart` that a '|' in both a listener and a peer is needed for a clash.
-/

import TargetFacade.Lib.Text
import TargetFacade.Network.Rendezvous

namespace TargetFacade

open OrdMap Text

/-- A hub, and a peer it can be armed for. -/
structure NamedEdge where
  listener : HubAddress
  peer : WStr
  named : peer ≠ []
  inPlace : IsSwappedPeerArgument peer = false
  other : ClassifyPeer listener.1 peer ≠ .self

def NamedEdge.service (e : NamedEdge) : WStr := DeriveDmxService e.listener.1 e.peer

@[ext] theorem NamedEdge.ext {e e' : NamedEdge} (hl : e.listener.1 = e'.listener.1) (hp : e.peer = e'.peer) : e = e' := by
  obtain ⟨⟨l, hne⟩, p, _, _, _⟩ := e
  obtain ⟨⟨l', hne'⟩, p', _, _, _⟩ := e'
  obtain rfl : l = l' := hl
  obtain rfl : p = p' := hp
  rfl

/-- The listener of `e'` is that of `e` and the first of the alternatives that the peer of `e` goes on with. -/
def Overlaid (e e' : NamedEdge) : Prop :=
  ∃ m, e'.listener.1 = e.listener.1 ++ 124 :: m ∧ e.peer = m ++ 124 :: e'.peer

/-! ## Who has a derived name -/

section Names

variable {inet : InetPton}

/-- What an arm that is not refused has let through. -/
theorem armResolved_armable {env : ArmEnv} {peer : WStr} {rEp : FacadeEndpoint} {bListen : Bool} {h : Hub}
    (hok : FAILED (ArmResolved env peer rEp bListen h).1 = false) : Armable env peer h := by
  have hout := armResolved_cases env peer rEp bListen h
  revert hok hout
  generalize ArmResolved env peer rEp bListen h = r
  obtain ⟨hr, h'⟩ := r
  intro hok hout
  cases hout with
  | refused handed hn hf => exact absurd (hok.symm.trans hf) Bool.false_ne_true
  | armed c events ha => exact ha

theorem armUnified_armable {pOwner : Option Owner} {env : ArmEnv} {peer : Option WStr} {endpoint : WStr} {bListen : Bool}
    {h : Hub} (hok : FAILED (ArmUnified inet pOwner env peer endpoint bListen h).1 = false) :
    ∃ p, peer = some p ∧ p ≠ [] ∧ IsSwappedPeerArgument p = false ∧ ClassifyPeer h.csAddress p ≠ .self := by
  have hout := armUnified_cases inet pOwner env peer endpoint bListen h
  revert hout hok
  generalize ArmUnified inet pOwner env peer endpoint bListen h = r
  obtain ⟨hr, h'⟩ := r
  intro hok hout
  cases hout with
  | early hr hf hn => exact absurd (hok.symm.trans hf) Bool.false_ne_true
  | barred p hr t said hpeer hs hshut hf => exact absurd (hok.symm.trans hf) Bool.false_ne_true
  | passed p t said hpeer hne hres hgate =>
    have ha := armResolved_armable hok
    exact ⟨p, hpeer, ha.named, ha.inPlace, ha.other⟩

/-- The connection that a Listen without an endpoint posts has the name of its edge. -/
theorem listen_names {net : Net} {env : ArmEnv} {toPeer : Option WStr} {h : Hub} (hmap : net.mapEndpoints[h.csAddress]? = none)
    (hok : FAILED (Listen inet (some (net.owner inet)) env toPeer [] h).1 = false) :
    ∃ (e : NamedEdge) (c : Con), e.listener = h.oAddress ∧ toPeer = some e.peer ∧ c.csPeer = e.peer ∧
      c.rEp = { eKind := .dmx, csName := e.service, bDerived := true } ∧
      (Listen inet (some (net.owner inet)) env toPeer [] h).2.cons = h.cons ++ [c] := by
  obtain ⟨p, hpeer, hne, hplace, hother⟩ := armUnified_armable hok
  obtain ⟨q, c, hpeer', -, -, hcp, -, hce, hcons, -⟩ := armUnified_made inet _ hok
  obtain rfl : p = q := Option.some.inj (hpeer.symm.trans hpeer')
  have hres : endpointFor inet (some (net.owner inet)) h.csAddress p [] true =
      (S_OK, { eKind := .dmx, csName := DeriveDmxService h.csAddress p, bDerived := true }) :=
    resolve_listen_derived h.oAddress.2 hmap
  rw [hres] at hce
  exact ⟨⟨h.oAddress, p, hne, hplace, hother⟩, c, rfl, hpeer, hcp, hce, hcons⟩

/-- Each edge can be listened for: by a plain hub as CreateHubEx returns it, of a network whose map does not name it. -/
theorem named_listens (inet : InetPton) {net : Net} (e : NamedEdge) (hmap : net.mapEndpoints[e.listener.1]? = none) :
    FAILED (Listen inet (some (net.owner inet)) (.keyless true) (some e.peer) []
      (.created e.listener false false .zero [] none none)).1 = false := by
  let h : Hub := .created e.listener false false .zero [] none none
  have hpeer : e.peer.isEmpty = false := by simpa using e.named
  have hres : endpointFor inet (some (net.owner inet)) h.csAddress e.peer [] true =
      (S_OK, { eKind := .dmx, csName := e.service, bDerived := true }) := resolve_listen_derived e.listener.2 hmap
  have harm : Armable (.keyless true) e.peer h := ⟨e.named, e.inPlace, e.other, ⟨rfl, rfl, rfl⟩⟩
  have hplain : h.bSecure = false := rfl
  show FAILED (ArmUnified inet _ _ (some e.peer) [] true h).1 = false
  unfold ArmUnified
  simp only [hpeer, e.inPlace, hres, failed_S_OK, hplain, Bool.false_eq_true, if_false]
  have hout := armResolved_cases (.keyless true) e.peer { eKind := .dmx, csName := e.service, bDerived := true } true h
  revert hout
  generalize ArmResolved _ _ _ _ h = r
  obtain ⟨hr, h'⟩ := r
  intro hout
  cases hout with
  | refused handed hn => exact absurd harm hn
  | armed c events ha hf => exact hf

theorem armEdge_listens {env : LinkEnv} {oListen oDial : FacadeEndpoint} {pListener pDialer : Hub}
    (hok : FAILED (armEdge env oListen oDial pListener pDialer).1 = false) :
    Armable env.listen pDialer.csAddress pListener ∧ ∃ c : Con, c.csPeer = pDialer.csAddress ∧ c.rEp = oListen ∧
      (armEdge env oListen oDial pListener pDialer).2.1.cons = pListener.cons ++ [c] := by
  have hlisten := @armResolved_armable env.listen pDialer.csAddress oListen true pListener
  have hmade := @armResolved_made env.listen pDialer.csAddress oListen true pListener
  unfold armEdge at hok ⊢
  generalize ArmResolved env.listen pDialer.csAddress oListen true pListener = rL at *
  obtain ⟨hrL, pL⟩ := rL
  cases hfL : FAILED hrL with
  | true => simp [hfL] at hok
  | false =>
    obtain ⟨c, hcp, -, hce, hcons, -⟩ := hmade hfL
    refine ⟨hlisten hfL, c, hcp, hce, ?_⟩
    simp only [hfL, Bool.false_eq_true, if_false] at hok ⊢
    cases hfD : FAILED (ArmResolved env.dial pL.csAddress oDial false pDialer).1 with
    | true =>
      -- the dialer's refusal is a failure of the link
      simp only [hfD, if_true] at hok
      split at hok
      · cases hok
      · exact absurd (hok.symm.trans hfD) Bool.false_ne_true
    | false => simpa only [hfD, Bool.false_eq_true, if_false] using hcons

/-- So has the one that a Link without an endpoint posts on its listener. -/
theorem link_names {env : LinkEnv} {net : Net} {listenerAddr dialerAddr : Option WStr}
    (hok : FAILED (Link inet env listenerAddr dialerAddr [] net).1 = false) :
    ∃ (e : NamedEdge) (c : Con) (pListener : Hub), listenerAddr = some e.listener.1 ∧ dialerAddr = some e.peer ∧
      (Link inet env listenerAddr dialerAddr [] net).2.FindHubLocked e.listener.1 = some pListener ∧ c ∈ pListener.cons ∧
      c.csPeer = e.peer ∧ c.rEp = { eKind := .dmx, csName := e.service, bDerived := true } := by
  have hout := link_cases inet env listenerAddr dialerAddr [] net
  revert hok hout
  generalize Link inet env listenerAddr dialerAddr [] net = r
  intro hok hout
  cases hout with
  | early hr net' hf => exact absurd (hok.symm.trans hf) Bool.false_ne_true
  | late a b oListen oDial pListener pDialer tL tD net' hr pL pD ha hb hab hep hL hD hfreeL hfreeD hhubs hmap hplain hout =>
    rcases hout with ⟨-, hf, -, -⟩ | ⟨-, -, hedge⟩
    · exact absurd (hok.symm.trans hf) Bool.false_ne_true
    have haddrL := find_address hL
    have haddrD := find_address hD
    obtain ⟨harm, c, hcp, hce, hcons⟩ := @armEdge_listens env oListen oDial { pListener with trust := tL }
      { pDialer with trust := tD } (by rw [hedge]; exact hok)
    obtain ⟨hkeepL, hkeepD⟩ := armEdge_addresses env oListen oDial { pListener with trust := tL } { pDialer with trust := tD }
    rw [hedge] at hcons hkeepL hkeepD
    have hname : oListen = { eKind := .dmx, csName := DeriveDmxService a b, bDerived := true } :=
      (congrArg (fun x : HRESULT × FacadeEndpoint × FacadeEndpoint => x.2.1) hep).symm
    subst ha hb haddrL haddrD
    refine ⟨⟨pListener.oAddress, pDialer.csAddress, harm.named, harm.inPlace, harm.other⟩, c, pL, rfl, rfl, ?_, ?_, hcp, ?_⟩
    · have hfind : net'.FindHubLocked pListener.csAddress = some pListener := by
        unfold Net.FindHubLocked at hL ⊢
        rw [hhubs]
        exact hL
      have hL' : pL.csAddress = pListener.csAddress := hkeepL
      have hD' : pD.csAddress = pDialer.csAddress := hkeepD
      show ((net'.setHub pL).setHub pD).FindHubLocked pListener.csAddress = some pL
      rw [find_setHub, find_setHub, hL', hD', hfind]
      simp [hab]
    · show c ∈ pL.cons
      rw [hcons]
      simp
    · rw [hce, hname]
      rfl

end Names

/-! ## Two edges -/

theorem service_eq_iff (e e' : NamedEdge) : e.service = e'.service ↔ e = e' ∨ Overlaid e e' ∨ Overlaid e' e := by
  have hcut : e.service = e'.service ↔ e.listener.1 ++ 124 :: e.peer = e'.listener.1 ++ 124 :: e'.peer := by
    have hname : ∀ d : NamedEdge, d.service = L "P2PF|" ++ (d.listener.1 ++ 124 :: d.peer) := by
      intro d
      unfold NamedEdge.service DeriveDmxService
      rw [List.append_assoc, List.append_assoc]
      rfl
    rw [hname, hname, List.append_cancel_left_eq]
  rw [hcut, two_cuts]
  constructor
  · rintro (⟨hl, hp⟩ | h | h)
    · exact Or.inl (NamedEdge.ext hl hp)
    · exact Or.inr (Or.inl h)
    · exact Or.inr (Or.inr h)
  · rintro (rfl | h | h)
    · exact Or.inl ⟨rfl, rfl⟩
    · exact Or.inr (Or.inl h)
    · exact Or.inr (Or.inr h)

theorem overlaid_ne {e e' : NamedEdge} (h : Overlaid e e') : e ≠ e' := by
  rintro rfl
  obtain ⟨m, hl, -⟩ := h
  have hlen := congrArg List.length hl
  simp at hlen

/-- Two edges have names of their own exactly when neither listener is the other with alternatives of its peer. -/
theorem names_apart_iff (e e' : NamedEdge) : (e.service = e'.service → e = e') ↔ ¬ (Overlaid e e' ∨ Overlaid e' e) := by
  rw [service_eq_iff]
  constructor
  · intro h hover
    have heq := h (Or.inr hover)
    rcases hover with hover | hover
    · exact overlaid_ne hover heq
    · exact overlaid_ne hover heq.symm
  · rintro h (heq | hover)
    · exact heq
    · exact absurd hover h

/-- So have any two when no listener's address holds a '|', or no peer does. -/
theorem names_apart {e e' : NamedEdge} (hbar : (124 ∉ e.listener.1 ∧ 124 ∉ e'.listener.1) ∨ (124 ∉ e.peer ∧ 124 ∉ e'.peer))
    (h : e.service = e'.service) : e = e' := by
  refine ((service_eq_iff e e').mp h).resolve_right ?_
  have hin : ∀ {d d' : NamedEdge}, Overlaid d d' → 124 ∈ d'.listener.1 ∧ 124 ∈ d.peer := by
    rintro d d' ⟨m, hl, hp⟩
    constructor
    · rw [hl]; simp
    · rw [hp]; simp
  rintro (hover | hover)
  · obtain ⟨hl, hp⟩ := hin hover
    rcases hbar with ⟨-, hno⟩ | ⟨hno, -⟩
    · exact hno hl
    · exact hno hp
  · obtain ⟨hl, hp⟩ := hin hover
    rcases hbar with ⟨hno, -⟩ | ⟨-, hno⟩
    · exact hno hl
    · exact hno hp

/-- The hub "A" waits for "B" or "C", and the hub "A|B" for "C". -/
theorem names_shared : ∃ e e' : NamedEdge, e.service = e'.service ∧ e ≠ e' := by
  let e : NamedEdge := ⟨⟨L "A", by decide⟩, L "B|C", by decide, by decide, by decide⟩
  let e' : NamedEdge := ⟨⟨L "A|B", by decide⟩, L "C", by decide, by decide, by decide⟩
  have hover : Overlaid e e' := ⟨L "B", rfl, rfl⟩
  exact ⟨e, e', (service_eq_iff e e').mpr (Or.inr (Or.inl hover)), overlaid_ne hover⟩

end TargetFacade
