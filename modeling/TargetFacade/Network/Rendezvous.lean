/-
  TargetFacade.Network.Rendezvous — an omitted Listen and an omitted Connect meet.

  The listener takes its endpoint from its own entry of the deployment map, less the host, or
  derives it from the two addresses; the dialer takes the listener's entry, or reads back what
  the listener recorded. The two are the same endpoint because the entry's presence decides
  both, and because a derived name is read back as it was written (`rendezvous`). Without an entry
  it takes a listener that stands: after a Disconnect the dialer finds no record
  (`rendezvous_disconnected`).
-/

import TargetFacade.Network.Records

namespace TargetFacade

open OrdMap Runs

/-- Where a listener is and what reaches it, the host apart. -/
structure Meets (oListen oDial : FacadeEndpoint) : Prop where
  kind : oDial.eKind = oListen.eKind
  name : oDial.csName = oListen.csName
  number : oDial.uNum = oListen.uNum
  family : oDial.eFamily = oListen.eFamily
  derived : oDial.bDerived = oListen.bDerived

/-- The hub at `a` has no connection for `b`. -/
def Free (net : Net) (a b : WStr) : Prop := ∀ h, net.FindHubLocked a = some h → h.ConExists b = false

/-- The step retracts what the hub at `a` has armed for `b`, or arms it anew, the connection gone. -/
def Retracts (inet : InetPton) (a b : WStr) (net : Net) : FacadeEv → Prop
  | .verb (.listen address toPeer endpoint env) => address = a ∧ toPeer = some b ∧ ∃ h,
    net.FindHubLocked a = some h ∧ FAILED (Listen inet (some (net.owner inet)) env toPeer endpoint h).1 = false
  | .verb (.connect address toPeer endpoint env) => address = a ∧ toPeer = some b ∧ ∃ h,
    net.FindHubLocked a = some h ∧ FAILED (Connect inet (some (net.owner inet)) env toPeer endpoint h).1 = false
  | .verb (.link listenerAddr dialerAddr _ _) =>
    ((listenerAddr = some a ∧ dialerAddr = some b) ∨ (listenerAddr = some b ∧ dialerAddr = some a)) ∧ Free net a b
  | .verb (.disconnect address peer _) => address = a ∧ peer = some b
  | _ => False

/-! ## The record stands -/

section Standing

variable {inet : InetPton}

theorem rewrites_retracts {net : Net} {a b : WStr} {h : Hub} {e : FacadeEv} {r : Option ArmedCon}
    (hf : net.FindHubLocked a = some h) (hw : Rewrites inet net h b e r) : Retracts inet a b net e := by
  have haddr := find_address hf
  have hfree : h.ConExists b = false → Free net a b := by
    intro hfree h' hf'
    obtain rfl : h = h' := by rw [hf] at hf'; exact Option.some.inj hf'
    exact hfree
  cases hw with
  | listen endpoint env hno hok hres => exact ⟨haddr, rfl, h, hf, hok⟩
  | connect endpoint env hno hok hres => exact ⟨haddr, rfl, h, hf, hok⟩
  | listener endpoint env oListen oDial _ hno hep hr => exact ⟨Or.inl ⟨congrArg some haddr, rfl⟩, hfree hno⟩
  | dialer endpoint env oListen oDial hno hep => exact ⟨Or.inr ⟨rfl, congrArg some haddr⟩, hfree hno⟩
  | disconnect env => exact ⟨haddr, rfl⟩

/-- The hub at `a` is there, and its record for `b` is `r`. -/
def Stands (a b : WStr) (r : ArmedCon) (net : Net) : Prop :=
  ∃ h, net.FindHubLocked a = some h ∧ h.armed[b]? = some r

theorem stands_step {a b : WStr} {r : ArmedCon} {net : Net} {e : FacadeEv} (h : Stands a b r net)
    (he : ¬ Retracts inet a b net e) : Stands a b r (facadeStep inet net e) := by
  obtain ⟨g, hf, hr⟩ := h
  obtain ⟨g', hf', hstep⟩ := @step_records inet net e _ _ hf
  refine ⟨g', hf', ?_⟩
  rcases hstep.records b with hsame | ⟨r', hw, -⟩
  · rw [hsame, hr]
  · exact absurd (rewrites_retracts hf hw) he

end Standing

/-! ## The two resolutions -/

section Resolutions

variable {inet : InetPton}

/-- Without an entry of its own a listener derives its endpoint. -/
theorem resolve_listen_derived {net : Net} {a b : WStr} (ha : a ≠ []) (hget : net.mapEndpoints[a]? = none) :
    ResolveEndpoint (some (net.owner inet)) a b true {} =
      (S_OK, { eKind := .dmx, csName := DeriveDmxService a b, bDerived := true }) := by
  have ha' : a.isEmpty = false := by simpa using ha
  have hlook : net.LookupEndpoint inet a {} = (P2PF_E_UNRESOLVED, {}) := by
    unfold Net.LookupEndpoint
    rw [ha', hget]
    rfl
  unfold ResolveEndpoint
  rw [if_neg (by simp [ha'])]
  simp only [Net.owner, if_true, hlook]
  rfl

/-- The listener's own entry decides what it arms. -/
theorem resolve_listen {net : Net} (h : MapInv inet net.mapEndpoints) {a b : WStr} (ha : a ≠ []) :
    (net.mapEndpoints[a]? = none ∧ ResolveEndpoint (some (net.owner inet)) a b true {} =
      (S_OK, { eKind := .dmx, csName := DeriveDmxService a b, bDerived := true })) ∨
    ∃ v ep, net.mapEndpoints[a]? = some v ∧ ParseFacadeEndpoint inet v false {} = (S_OK, ep) ∧
      ResolveEndpoint (some (net.owner inet)) a b true {} = (S_OK, { ep with csHost := [] }) := by
  have ha' : a.isEmpty = false := by simpa using ha
  cases hget : net.mapEndpoints[a]? with
  | none => exact Or.inl ⟨rfl, resolve_listen_derived ha hget⟩
  | some v =>
    obtain ⟨ep, hp, -⟩ := stored_parses (h a v hget) {}
    refine Or.inr ⟨v, ep, rfl, hp, ?_⟩
    unfold ResolveEndpoint
    rw [if_neg (by simp [ha'])]
    simp only [Net.owner, if_true, lookup_stored h hget, hp, failed_S_OK, Bool.not_false]

/-- With an entry for the peer a dial takes it. -/
theorem resolve_dial_mapped {net : Net} (h : MapInv inet net.mapEndpoints) {a b v : WStr} {ep : FacadeEndpoint}
    (hb : b ≠ []) (hget : net.mapEndpoints[a]? = some v) (hp : ParseFacadeEndpoint inet v false {} = (S_OK, ep)) :
    ResolveEndpoint (some (net.owner inet)) b a false {} = (S_OK, ep) := by
  have hb' : b.isEmpty = false := by simpa using hb
  unfold ResolveEndpoint
  rw [if_neg (by simp [hb'])]
  simp only [Net.owner, Bool.false_eq_true, if_false, lookup_stored h hget, hp, failed_S_OK, Bool.not_false, if_true]

/-- Without one it is what ResolveDial makes of the peer's record. -/
theorem resolve_dial_unmapped {net : Net} {a b : WStr} (hb : b ≠ []) (hget : net.mapEndpoints[a]? = none) :
    ResolveEndpoint (some (net.owner inet)) b a false {} =
      if FAILED (net.ResolveDial inet a b {}).1 then net.ResolveDial inet a b {}
      else ((net.ResolveDial inet a b {}).1, { (net.ResolveDial inet a b {}).2 with bDerived := true }) := by
  have hb' : b.isEmpty = false := by simpa using hb
  have hlook : net.LookupEndpoint inet a {} = (P2PF_E_UNRESOLVED, {}) := by
    unfold Net.LookupEndpoint
    rw [hget]
    split <;> rfl
  unfold ResolveEndpoint
  rw [if_neg (by simp [hb'])]
  simp only [Net.owner, Bool.false_eq_true, if_false, hlook]
  rfl

theorem derived_canonical (inet : InetPton) (bListen : Bool) (a : WStr) {b : WStr}
    (hlast : ∀ c ∈ b.getLast?, iswspace c = false) :
    Canonical inet bListen { eKind := .dmx, csName := DeriveDmxService a b, bDerived := true } := by
  refine .named bListen .dmx _ true (Or.inr rfl) (by simp [DeriveDmxService, L]) fun c hc => ?_
  unfold DeriveDmxService at hc
  rw [List.getLast?_append] at hc
  cases hb : b.getLast? with
  | some d =>
    rw [hb] at hc
    exact hlast c (by rw [hb]; exact hc)
  | none =>
    rw [hb] at hc
    have hbar : (L "P2PF|" ++ a ++ L "|").getLast? = some 124 := by rw [List.getLast?_append]; rfl
    obtain rfl : 124 = c := by
      rw [Option.none_or, hbar] at hc
      simpa using hc
    decide

/-- A record that a hub keeps as a listener is read back as the endpoint it was written from. -/
theorem resolveDial_record {net : Net} {a b : WStr} {oListen : FacadeEndpoint} (hcan : Canonical inet true oListen)
    (hkind : oListen.eKind ≠ .tcp) (ha : a ≠ []) (hb : b ≠ []) (h : Stands a b ⟨oListen.Format, true⟩ net) :
    net.ResolveDial inet a b {} = (S_OK, { oListen with bDerived := false }) := by
  obtain ⟨g, hf, hr⟩ := h
  have ha' : a.isEmpty = false := by simpa using ha
  have hb' : b.isEmpty = false := by simpa using hb
  have hne : oListen.Format.isEmpty = false := by
    have hp := parseCore_format hcan {}
    cases hfmt : oListen.Format with
    | nil => rw [hfmt] at hp; cases hp
    | cons c s => rfl
  have harmed : g.ArmedListener b = oListen.Format := by
    unfold Hub.ArmedListener
    rw [hb', hr]
    rfl
  unfold Net.ResolveDial
  simp only [ha', hb', Bool.or_self, Bool.false_eq_true, if_false, hf, harmed, hne, parse_format hcan, failed_S_OK,
    hkind, Bool.false_and, decide_false]

end Resolutions

/-! ## The rendezvous -/

/-- The network as the hub at `a` is asked to listen, from an empty map. -/
def listening (inet : InetPton) (net : Net) (before : List FacadeEv) : Net :=
  exec (facadeStep inet) { net with mapEndpoints := ∅ } before

/-- The network once it has listened for `b`. -/
def listened (inet : InetPton) (net : Net) (before : List FacadeEv) (a b : WStr) (env : ArmEnv) : Net :=
  facadeStep inet (listening inet net before) (.verb (.listen a (some b) [] env))

/-- Whatever was called before, once the hub at `a` listens for `b` with no endpoint, a Connect of the
    hub at `b` with no endpoint is resolved to what that listener armed: after any further calls that
    leave the map, and the listener too where the map has no entry for `a`, and with no white space at
    the end of `b`. -/
theorem rendezvous {inet : InetPton} (hinet : inet.Literal) (net : Net) (before after : List FacadeEv) (env : ArmEnv)
    {a b : WStr} (hlast : ∀ c ∈ b.getLast?, iswspace c = false) {pListener pDialer : Hub}
    (hL : (listening inet net before).FindHubLocked a = some pListener)
    (hok : FAILED (Listen inet (some ((listening inet net before).owner inet)) env (some b) [] pListener).1 = false)
    (hstands : (listening inet net before).mapEndpoints[a]? = none →
      Each (facadeStep inet) (fun net e => ¬ Retracts inet a b net e) (listened inet net before a b env) after)
    (hmap : (exec (facadeStep inet) (listened inet net before a b env) after).mapEndpoints =
      (listening inet net before).mapEndpoints)
    (hD : (exec (facadeStep inet) (listened inet net before a b env) after).FindHubLocked b = some pDialer) :
    ∃ c ∈ (Listen inet (some ((listening inet net before).owner inet)) env (some b) [] pListener).2.cons,
      c.csPeer = b ∧ c.eMode = .service ∧ ∃ oDial,
        ResolveEndpoint (some ((exec (facadeStep inet) (listened inet net before a b env) after).owner inet))
          pDialer.csAddress a false {} = (S_OK, oDial) ∧ Meets c.rEp oDial := by
  have hempty : MapInv inet ({ net with mapEndpoints := ∅ } : Net).mapEndpoints := by
    intro k v hget
    rw [Std.ExtTreeMap.getElem?_empty] at hget
    cases hget
  have hinv : MapInv inet (listening inet net before).mapEndpoints :=
    (always_of_inv (I := fun net : Net => MapInv inet net.mapEndpoints) (fun net e h => mapInv_facadeStep hinet h e)
      hempty).last
  obtain ⟨p, c, hp, hbne, hep, hcp, hcm, hce, hcons, harmed⟩ := armUnified_made inet _ hok
  obtain rfl : b = p := Option.some.inj hp
  have haddr := find_address hL
  have hane : a ≠ [] := haddr ▸ pListener.oAddress.2
  -- the record of the listener, now and after the further calls
  have hlistened : Stands a b ⟨c.rEp.Format, true⟩ (listened inet net before a b env) := by
    refine ⟨(Listen inet (some ((listening inet net before).owner inet)) env (some b) [] pListener).2, ?_, ?_⟩
    · have hcall := @find_call (listening inet net before) a
        (Listen inet (some ((listening inet net before).owner inet)) env (some b) [])
        (fun h => (armUnified_record inet _ env (some b) [] true h).1) a
      rw [hL] at hcall
      exact hcall.trans (by simp)
    · show (ArmUnified inet _ env (some b) [] true pListener).2.armed[b]? = _
      rw [harmed]
      simp
  have hstill := fun hnone => (always_of_each (I := Stands a b ⟨c.rEp.Format, true⟩)
    (fun net e h he => stands_step h he) hlistened (hstands hnone)).last
  generalize exec (facadeStep inet) (listened inet net before a b env) after = net' at *
  have hinv' : MapInv inet net'.mapEndpoints := hmap ▸ hinv
  have hlisten : c.rEp = (ResolveEndpoint (some ((listening inet net before).owner inet)) a b true {}).2 := by
    rw [hce, ← haddr]
    rfl
  refine ⟨c, ?_, hcp, hcm, ?_⟩
  · show c ∈ (ArmUnified inet _ env (some b) [] true pListener).2.cons
    rw [hcons]
    simp
  rw [find_address hD]
  rcases @resolve_listen inet _ hinv a b hane with ⟨hnone, hres⟩ | ⟨v, ep, hget, hparse, hres⟩
  · -- derived: the dialer reads the record
    have hstill := hstill hnone
    rw [hres] at hlisten
    simp only at hlisten
    rw [← hmap] at hnone
    have hdial := resolveDial_record (derived_canonical inet true a hlast) (fun hk => by cases hk) hane hbne (hlisten ▸ hstill)
    rw [resolve_dial_unmapped hbne hnone, hdial]
    exact ⟨_, rfl, by rw [hlisten]; exact ⟨rfl, rfl, rfl, rfl, rfl⟩⟩
  · -- both read the entry
    rw [hres] at hlisten
    rw [← hmap] at hget
    exact ⟨ep, resolve_dial_mapped hinv' hbne hget hparse, by rw [hlisten]; exact ⟨rfl, rfl, rfl, rfl, rfl⟩⟩

/-- Two new plain hubs, an entry in the map for the dialer alone, and the listener's connection
    retired by the kernel before the Connect. -/
theorem rendezvous_derived :
    let before : List FacadeEv := [.map (.setEndpoint (some (L "B")) (L "tcp://[fe80::1]:7788"))]
    let net := exec (facadeStep inetSome)
      (listened inetSome (.pair ⟨L "A", by decide⟩ ⟨L "B", by decide⟩) before (L "A") (L "B") (.keyless true))
      [.retire (L "A") fun _ => false]
    ∃ (c : Con) (oDial : FacadeEndpoint), c.csPeer = L "B" ∧ Meets c.rEp oDial ∧
      ResolveEndpoint (some (net.owner inetSome)) (L "B") (L "A") false {} = (S_OK, oDial) := by
  obtain ⟨c, -, hcp, -, oDial, hres, hmeets⟩ := @rendezvous inetSome inetSome_literal
    (.pair ⟨L "A", by decide⟩ ⟨L "B", by decide⟩) [.map (.setEndpoint (some (L "B")) (L "tcp://[fe80::1]:7788"))]
    [.retire (L "A") fun _ => false] (.keyless true)
    (L "A") (L "B") (not_space rfl) _ _ rfl (by decide +kernel)
    (fun _ => each_cons.mpr ⟨fun hr => hr, each_nil⟩) rfl rfl
  exact ⟨c, oDial, hcp, hmeets, hres⟩

/-- The listener retired by its own hub before the Connect, which then finds nothing to dial. -/
theorem rendezvous_disconnected :
    ¬ ∀ (after : List FacadeEv) (pListener pDialer : Hub),
      let net : Net := .pair ⟨L "A", by decide⟩ ⟨L "B", by decide⟩
      let net' := exec (facadeStep inetSome) (listened inetSome net [] (L "A") (L "B") (.keyless true)) after
      (listening inetSome net []).FindHubLocked (L "A") = some pListener →
      FAILED (Listen inetSome (some ((listening inetSome net []).owner inetSome)) (.keyless true) (some (L "B")) []
        pListener).1 = false →
      net'.mapEndpoints = (listening inetSome net []).mapEndpoints →
      net'.FindHubLocked (L "B") = some pDialer →
      (ResolveEndpoint (some (net'.owner inetSome)) pDialer.csAddress (L "A") false {}).1 = S_OK := by
  intro h
  have hdial := h [.verb (.disconnect (L "A") (some (L "B")) { stays := fun _ _ => false })] _ _ rfl (by decide +kernel) rfl rfl
  have hanswer : (ResolveEndpoint (some ((exec (facadeStep inetSome)
      (listened inetSome (.pair ⟨L "A", by decide⟩ ⟨L "B", by decide⟩) [] (L "A") (L "B") (.keyless true))
      [.verb (.disconnect (L "A") (some (L "B")) { stays := fun _ _ => false })]).owner inetSome)) (L "B") (L "A") false {}).1 =
      P2PF_E_UNRESOLVED := by decide +kernel
  cases hdial.symm.trans hanswer

end TargetFacade
