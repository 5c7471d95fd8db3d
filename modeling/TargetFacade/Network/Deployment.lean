/-
  TargetFacade.Network.Deployment — the deployment map: SetEndpoint, SetEndpointMap and
  GetEndpointFor, over whole runs.

  Every value in the map is the text of a canonical dial that is not serial (`Stored`), which
  both writers establish and no call can break. It is what makes LookupEndpoint answer for
  every key, and what makes the text GetEndpointFor hands out one that SetEndpoint takes back
  as it was.
-/

import TargetFacade.Network.Model
import TargetFacade.Endpoint.MapBlock

namespace TargetFacade

open OrdMap Runs

/-! ## The calls -/

def Net.GetEndpointFor (net : Net) (address : Option WStr) (buf : Option WStr) (cch : Option Nat) :
    HRESULT × Option WStr × Option Nat :=
  match address with
  | none => (E_INVALIDARG, buf, cch)
  | some address =>
    if address.isEmpty then (E_INVALIDARG, buf, cch)
    else
      match net.mapEndpoints[address]? with
      | none => (P2PF_E_UNRESOLVED, buf, cch)
      | some csValue => CopyOut csValue buf cch

section Calls

variable (inet : InetPton)

/-- `address` is none when it is NULL; `endpoint` is empty when it is NULL. -/
def SetEndpoint (address : Option WStr) (endpoint : WStr) (net : Net) : HRESULT × Net :=
  match address with
  | none => (E_POINTER, net)
  | some address =>
    if address.isEmpty then (E_INVALIDARG, net)
    else if IsSwappedPeerArgument address then (E_INVALIDARG, net)
    else if endpoint.isEmpty then (S_OK, { net with mapEndpoints := net.mapEndpoints.erase address })
    else
      let (hr, oEp) := ParseFacadeEndpoint inet endpoint false {}
      if FAILED hr then (hr, net)
      else if oEp.eKind = .serial then (P2PF_E_ENDPOINT, net)
      else (S_OK, { net with mapEndpoints := net.mapEndpoints.insert address oEp.Format })

/-- `text` is empty when it is NULL. The number is what `badLine` receives. -/
def SetEndpointMap (text : WStr) (net : Net) : HRESULT × UInt32 × Net :=
  let (hr, mapNew, badLine) := ParseFacadeEndpointMap inet text ∅
  if FAILED hr then (hr, badLine, net) else (S_OK, badLine, { net with mapEndpoints := mapNew })

inductive MapCall where
  | setEndpoint (address : Option WStr) (endpoint : WStr)
  | setEndpointMap (text : WStr)
  deriving DecidableEq, Repr

def MapCall.run (net : Net) : MapCall → HRESULT × Net
  | .setEndpoint address endpoint => SetEndpoint inet address endpoint net
  | .setEndpointMap text => ((SetEndpointMap inet text net).1, (SetEndpointMap inet text net).2.2)

def mapStep (net : Net) (c : MapCall) : Net := (c.run inet net).2

end Calls

/-! ## The representation -/

/-- What a key and its value are. -/
structure Stored (inet : InetPton) (k v : WStr) : Prop where
  named : k ≠ []
  inPlace : IsSwappedPeerArgument k = false
  value : ∃ ep, Canonical inet false ep ∧ ep.eKind ≠ .serial ∧ ep.Format = v

def MapInv (inet : InetPton) (m : FacadeEndpointMap) : Prop := ∀ k v, m[k]? = some v → Stored inet k v

section Representation

variable {inet : InetPton}

theorem stored_parses {k v : WStr} (h : Stored inet k v) (rOut : FacadeEndpoint) :
    ∃ ep, ParseFacadeEndpoint inet v false rOut = (S_OK, ep) ∧ ep.eKind ≠ .serial ∧ ep.Format = v ∧
      Canonical inet false { ep with bDerived := false } ∧ ep.bDerived = rOut.bDerived := by
  obtain ⟨ep, hep, hkind, rfl⟩ := h.value
  refine ⟨{ ep with bDerived := rOut.bDerived }, parse_format hep rOut, hkind, rfl, ?_, rfl⟩
  cases hep with
  | dial csHost uNum eFamily bDerived hmin hmax hhost => exact .dial csHost uNum eFamily false hmin hmax hhost
  | named _ eKind csName bDerived hk hname hlast => exact .named false eKind csName false hk hname hlast
  | serial _ uNum bDerived hmin hmax => exact .serial false uNum false hmin hmax

theorem stored_ne_nil {k v : WStr} (h : Stored inet k v) : v ≠ [] := by
  rintro rfl
  obtain ⟨ep, hp, -⟩ := stored_parses h {}
  cases hp

/-- How SetEndpoint ends. -/
inductive SetEndpointOut (inet : InetPton) (address : Option WStr) (endpoint : WStr) (net : Net) : HRESULT × Net → Prop
  | refused (hr : HRESULT) (hf : FAILED hr = true) : SetEndpointOut inet address endpoint net (hr, net)
  | erased (a : WStr) (ha : address = some a) (he : endpoint = []) :
      SetEndpointOut inet address endpoint net (S_OK, { net with mapEndpoints := net.mapEndpoints.erase a })
  | stored (a : WStr) (oEp : FacadeEndpoint) (ha : address = some a) (hne : a ≠ [])
      (hswap : IsSwappedPeerArgument a = false) (he : endpoint ≠ [])
      (hp : ParseFacadeEndpoint inet endpoint false {} = (S_OK, oEp)) (hkind : oEp.eKind ≠ .serial) :
      SetEndpointOut inet address endpoint net
        (S_OK, { net with mapEndpoints := net.mapEndpoints.insert a oEp.Format })

theorem setEndpoint_cases (address : Option WStr) (endpoint : WStr) (net : Net) :
    SetEndpointOut inet address endpoint net (SetEndpoint inet address endpoint net) := by
  unfold SetEndpoint
  cases address with
  | none => exact .refused _ rfl
  | some a =>
    by_cases hne : a.isEmpty = true
    · simp only [hne, if_true]
      exact .refused _ rfl
    by_cases hswap : IsSwappedPeerArgument a = true
    · simp only [hne, hswap, Bool.false_eq_true, if_true, if_false]
      exact .refused _ rfl
    by_cases he : endpoint.isEmpty = true
    · simp only [hne, hswap, he, Bool.false_eq_true, if_true, if_false]
      exact .erased a rfl (by simpa using he)
    simp only [hne, hswap, he, Bool.false_eq_true, if_false]
    cases hp : parseCore inet endpoint false {} with
    | none =>
      have hparse : ParseFacadeEndpoint inet endpoint false {} = (P2PF_E_ENDPOINT, {}) := by
        unfold ParseFacadeEndpoint
        rw [hp]
      rw [hparse]
      exact .refused _ rfl
    | some oEp =>
      rw [parse_accepts.mpr hp]
      simp only [failed_S_OK, Bool.false_eq_true, if_false]
      by_cases hkind : oEp.eKind = .serial
      · rw [if_pos hkind]
        exact .refused _ rfl
      · rw [if_neg hkind]
        exact .stored a oEp rfl (by simpa using hne) (by simpa using hswap) (by simpa using he) (parse_accepts.mpr hp) hkind

/-- How SetEndpointMap ends. -/
inductive SetMapOut (inet : InetPton) (text : WStr) (net : Net) : HRESULT × UInt32 × Net → Prop
  | refused (badLine : UInt32) : SetMapOut inet text net (P2PF_E_ENDPOINT, badLine, net)
  | replaced (m : FacadeEndpointMap) (hm : MapOf inet (Lines.lines 13 10 text) m)
      (hp : ParseFacadeEndpointMap inet text ∅ = (S_OK, m, 0)) :
      SetMapOut inet text net (S_OK, 0, { net with mapEndpoints := m })

theorem setMap_cases (text : WStr) (net : Net) : SetMapOut inet text net (SetEndpointMap inet text net) := by
  unfold SetEndpointMap
  rcases @good_or_firstBad inet (Lines.lines 13 10 text) with hgood | ⟨n, hn⟩
  · obtain ⟨m, hp, hm⟩ := parseMap_good ∅ hgood
    rw [hp]
    exact .replaced m hm hp
  · rw [parseMap_bad ∅ hn]
    exact .refused _

theorem entry_stored (hinet : inet.Literal) {line k : WStr} {oEp : FacadeEndpoint} (h : Entry inet line k oEp) :
    Stored inet k oEp.Format := by
  obtain ⟨u, v, -, -, -, hp⟩ := h.split
  exact ⟨h.named, isSwapped_iff.mpr h.inPlace, oEp, parseCore_canonical hinet (parse_accepts.mp hp), h.kind, rfl⟩

theorem mapInv_insert {m : FacadeEndpointMap} (hm : MapInv inet m) {a v : WStr} (h : Stored inet a v) :
    MapInv inet (m.insert a v) := by
  intro k w hget
  rcases get_of_insert hget with ⟨rfl, rfl⟩ | ⟨-, hget⟩
  · exact h
  · exact hm k w hget

theorem mapInv_erase {m : FacadeEndpointMap} (hm : MapInv inet m) (a : WStr) : MapInv inet (m.erase a) := by
  intro k w hget
  exact hm k w (get_of_erase hget).2

theorem mapStep_hubs (inet : InetPton) (net : Net) (c : MapCall) : (mapStep inet net c).hubs = net.hubs := by
  unfold mapStep MapCall.run
  cases c with
  | setEndpoint address endpoint =>
    have hout := @setEndpoint_cases inet address endpoint net
    simp only
    generalize SetEndpoint inet address endpoint net = r at hout ⊢
    cases hout <;> rfl
  | setEndpointMap text =>
    have hout := @setMap_cases inet text net
    simp only
    generalize SetEndpointMap inet text net = r at hout ⊢
    cases hout <;> rfl

/-- Either writer keeps the representation. -/
theorem mapInv_step (hinet : inet.Literal) {net : Net} (h : MapInv inet net.mapEndpoints) (c : MapCall) :
    MapInv inet (mapStep inet net c).mapEndpoints := by
  unfold mapStep MapCall.run
  cases c with
  | setEndpoint address endpoint =>
    have hout := @setEndpoint_cases inet address endpoint net
    simp only
    generalize SetEndpoint inet address endpoint net = r at hout ⊢
    cases hout with
    | refused hr hf => exact h
    | erased a ha he => exact mapInv_erase h a
    | stored a oEp ha hne hswap he hp hkind =>
      exact mapInv_insert h ⟨hne, hswap, oEp, parseCore_canonical hinet (parse_accepts.mp hp), hkind, rfl⟩
  | setEndpointMap text =>
    have hout := @setMap_cases inet text net
    simp only
    generalize SetEndpointMap inet text net = r at hout ⊢
    cases hout with
    | refused badLine => exact h
    | replaced m hm hp =>
      intro k v hget
      obtain ⟨line, -, -, oEp, hoEp, rfl⟩ := (hm k v).mp hget
      exact entry_stored hinet hoEp

theorem lookup_stored {net : Net} (h : MapInv inet net.mapEndpoints) {k v : WStr} (hget : net.mapEndpoints[k]? = some v)
    (rEp : FacadeEndpoint) : net.LookupEndpoint inet k rEp = ParseFacadeEndpoint inet v false rEp := by
  have hk : k.isEmpty = false := by simpa using (h k v hget).named
  unfold Net.LookupEndpoint
  rw [hk, hget]
  rfl

/-- What is read back is a text SetEndpoint stores as it was. -/
theorem setEndpoint_again {net : Net} (h : MapInv inet net.mapEndpoints) {k v : WStr}
    (hget : net.mapEndpoints[k]? = some v) : SetEndpoint inet (some k) v net = (S_OK, net) := by
  have hs := h k v hget
  obtain ⟨ep, hp, hkind, hv, -⟩ := stored_parses hs {}
  have hk : k.isEmpty = false := by simpa using hs.named
  have hne : v.isEmpty = false := by simpa using stored_ne_nil hs
  have hsame : net.mapEndpoints.insert k v = net.mapEndpoints := insert_eq_self.mpr hget
  unfold SetEndpoint
  simp only [hk, hs.inPlace, hne, hp, hkind, hv, hsame, failed_S_OK, Bool.false_eq_true, if_false]

end Representation

/-! ## The map over a run -/

/-- What the map owes its callers in one state, of whatever call is made next. -/
structure Deployed (inet : InetPton) (net : Net) : Prop where
  canonical : ∀ k v : WStr, net.mapEndpoints[k]? = some v →
    ∃ ep, ParseFacadeEndpoint inet v false {} = (S_OK, ep) ∧ ep.eKind ≠ .serial ∧ ep.Format = v
  found : ∀ k v : WStr, net.mapEndpoints[k]? = some v → ∀ rEp, FAILED (net.LookupEndpoint inet k rEp).1 = false
  refused : ∀ c : MapCall, FAILED (c.run inet net).1 = true → (c.run inet net).2 = net
  /-- The map is the block's entries and nothing else. -/
  replaced : ∀ text, FAILED (SetEndpointMap inet text net).1 = false →
    ParseFacadeEndpointMap inet text ∅ = (S_OK, (SetEndpointMap inet text net).2.2.mapEndpoints, 0) ∧
    ∀ k v : WStr, (SetEndpointMap inet text net).2.2.mapEndpoints[k]? = some v ↔
      ∃ line ∈ Lines.lines 13 10 text, ¬ Blank line ∧ ∃ oEp, Entry inet line k oEp ∧ v = oEp.Format
  single : ∀ address endpoint, FAILED (SetEndpoint inet address endpoint net).1 = false → ∃ a, address = some a ∧
    (∀ k : WStr, k ≠ a → (SetEndpoint inet address endpoint net).2.mapEndpoints[k]? = net.mapEndpoints[k]?) ∧
    (endpoint = [] → (SetEndpoint inet address endpoint net).2.mapEndpoints[a]? = none) ∧
    (endpoint ≠ [] → ∃ oEp, ParseFacadeEndpoint inet endpoint false {} = (S_OK, oEp) ∧
      (SetEndpoint inet address endpoint net).2.mapEndpoints[a]? = some oEp.Format)
  readBack : ∀ k buf cch text, buf.isSome = true → (net.GetEndpointFor (some k) buf cch).1 = S_OK →
    (net.GetEndpointFor (some k) buf cch).2.1 = some text → SetEndpoint inet (some k) text net = (S_OK, net)

theorem mapInv_deployed {inet : InetPton} {net : Net} (h : MapInv inet net.mapEndpoints) : Deployed inet net := by
  refine ⟨fun k v hget => ?_, fun k v hget rEp => ?_, fun c hf => ?_, fun text hok => ?_, fun address endpoint hok => ?_,
    fun k buf cch text hbuf hcode hout => ?_⟩
  · obtain ⟨ep, hp, hkind, hv, -⟩ := stored_parses (h k v hget) {}
    exact ⟨ep, hp, hkind, hv⟩
  · obtain ⟨ep, hp, -⟩ := stored_parses (h k v hget) rEp
    rw [lookup_stored h hget, hp]
    rfl
  · unfold MapCall.run at hf ⊢
    cases c with
    | setEndpoint address endpoint =>
      have hout := @setEndpoint_cases inet address endpoint net
      simp only at hf ⊢
      generalize SetEndpoint inet address endpoint net = r at hout hf ⊢
      cases hout with
      | refused hr _ => rfl
      | erased a ha he => cases hf
      | stored a oEp ha hne hswap he hp hkind => cases hf
    | setEndpointMap text =>
      have hout := @setMap_cases inet text net
      simp only at hf ⊢
      generalize SetEndpointMap inet text net = r at hout hf ⊢
      cases hout with
      | refused badLine => rfl
      | replaced m hm hp => cases hf
  · have hout := @setMap_cases inet text net
    generalize SetEndpointMap inet text net = r at hout hok ⊢
    cases hout with
    | refused badLine => cases hok
    | replaced m hm hp => exact ⟨hp, hm⟩
  · have hout := @setEndpoint_cases inet address endpoint net
    generalize SetEndpoint inet address endpoint net = r at hout hok ⊢
    cases hout with
    | refused hr hf => rw [hf] at hok; cases hok
    | erased a ha he =>
      refine ⟨a, ha, fun k hk => ?_, fun _ => ?_, fun hne => absurd he hne⟩
      · rw [get_erase, if_neg (Ne.symm hk)]
      · rw [get_erase, if_pos rfl]
    | stored a oEp ha hne hswap he hp hkind =>
      refine ⟨a, ha, fun k hk => ?_, fun hnil => absurd hnil he, fun _ => ⟨oEp, hp, ?_⟩⟩
      · rw [get_insert, if_neg (Ne.symm hk)]
      · rw [get_insert, if_pos rfl]
  · unfold Net.GetEndpointFor at hcode hout
    simp only at hcode hout
    split at hcode
    · cases hcode
    rename_i hk
    rw [if_neg hk] at hout
    cases hget : net.mapEndpoints[k]? with
    | none =>
      rw [hget] at hcode
      cases hcode
    | some v =>
      rw [hget] at hcode hout
      obtain rfl := copyOut_text hbuf hcode hout
      exact setEndpoint_again h hget

/-- However SetEndpoint and SetEndpointMap are called, the map of a new network keeps its word. -/
theorem deployment_map {inet : InetPton} (hinet : inet.Literal) (net : Net) (calls : List MapCall) :
    Always (mapStep inet) (Deployed inet) { net with mapEndpoints := ∅ } calls := by
  have hempty : MapInv inet ({ net with mapEndpoints := ∅ } : Net).mapEndpoints := by
    intro k v hget
    rw [Std.ExtTreeMap.getElem?_empty] at hget
    cases hget
  have hinv : Always (mapStep inet) (fun net => MapInv inet net.mapEndpoints) { net with mapEndpoints := ∅ } calls := by
    refine always_of_inv (fun net c h => ?_) hempty
    exact mapInv_step hinet h c
  exact hinv.mono fun net h => mapInv_deployed h

/-- An entry, a block that is refused for its serial port, and a block that replaces. -/
theorem deployment_map_replaced :
    Always (mapStep inetSome) (Deployed inetSome) { (⟨[], ∅, [], false, []⟩ : Net) with mapEndpoints := ∅ }
      [.setEndpoint (some (L "B")) (L "TCP://10.0.0.7:07788"), .setEndpointMap (L "A = dmx://A\nB = serial://COM5"),
        .setEndpointMap (L "A = tcp://[::1]:7788")] :=
  deployment_map inetSome_literal _ _

end TargetFacade
