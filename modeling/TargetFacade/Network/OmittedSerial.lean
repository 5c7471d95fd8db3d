/-
  TargetFacade.Network.OmittedSerial — which omitted endpoints resolve to a serial port.

  Three places fill an omitted endpoint. The map holds no serial entry and a derived name is
  dmx, but a dialer with no entry takes what its peer recorded, and a Listen armed on a COM port
  by name has recorded that. So an omitted endpoint is kept from a serial port exactly as long
  as no Connect finds such a record (`FindsSerial`).
-/

import TargetFacade.Network.Rendezvous

namespace TargetFacade

open OrdMap Runs

/-- The call, made with no endpoint, fails or has resolved to something else than a serial port. -/
def NeverSerial (inet : InetPton) (net : Net) : FacadeEv → Prop
  | .verb (.listen address (some toPeer) [] env) => ∀ h, net.FindHubLocked address = some h →
    FAILED (Listen inet (some (net.owner inet)) env (some toPeer) [] h).1 = true ∨
      (ResolveEndpoint (some (net.owner inet)) h.csAddress toPeer true {}).2.eKind ≠ .serial
  | .verb (.connect address (some toPeer) [] env) => ∀ h, net.FindHubLocked address = some h →
    FAILED (Connect inet (some (net.owner inet)) env (some toPeer) [] h).1 = true ∨
      (ResolveEndpoint (some (net.owner inet)) h.csAddress toPeer false {}).2.eKind ≠ .serial
  | .verb (.link (some listenerAddr) (some dialerAddr) [] env) =>
    FAILED (Link inet env (some listenerAddr) (some dialerAddr) [] net).1 = true ∨
      ((linkEndpoints inet listenerAddr dialerAddr []).2.1.eKind ≠ .serial ∧
        (linkEndpoints inet listenerAddr dialerAddr []).2.2.eKind ≠ .serial)
  | _ => True

/-- An omitted Connect whose peer has no entry in the map and has recorded a listener for the
    caller on a serial port; and which the caller's hub can arm. -/
def FindsSerial (net : Net) : FacadeEv → Prop
  | .verb (.connect address (some toPeer) [] env) => ∃ h, net.FindHubLocked address = some h ∧
    net.mapEndpoints[toPeer]? = none ∧
    (∃ pPeer r, net.FindHubLocked toPeer = some pPeer ∧ pPeer.armed[address]? = some r ∧ r.bListen = true ∧
      L "serial://" <+: r.strEndpoint) ∧
    (h.bSecure = true → GateOpen env toPeer h) ∧ Armable env toPeer h
  | _ => False

/-! ## What the records hold -/

/-- A listener's record is an endpoint's text, and a COM number in it is in range. -/
def WrittenAs (inet : InetPton) (r : ArmedCon) : Prop :=
  r.bListen = true → ∃ ep, r.strEndpoint = ep.Format ∧ (ep.eKind = .serial → Canonical inet true ep)

def RecordInv (inet : InetPton) (net : Net) : Prop :=
  ∀ x h, net.FindHubLocked x = some h → ∀ (q : WStr) r, h.armed[q]? = some r → WrittenAs inet r

section Reachable

variable {inet : InetPton}

/-- An omitted Listen never resolves to a serial port. -/
theorem listen_never_serial {net : Net} (h : MapInv inet net.mapEndpoints) {a b : WStr} (ha : a ≠ []) :
    (ResolveEndpoint (some (net.owner inet)) a b true {}).2.eKind ≠ .serial := by
  rcases @resolve_listen inet net h a b ha with ⟨-, hres⟩ | ⟨v, ep, hget, hp, hres⟩
  · rw [hres]
    intro hk
    cases hk
  · obtain ⟨ep', hp', hkind, -⟩ := stored_parses (h a v hget) {}
    rw [hp] at hp'
    cases hp'
    rw [hres]
    exact hkind

theorem linkEndpoints_kind {a b endpoint : WStr} {oListen oDial : FacadeEndpoint}
    (h : linkEndpoints inet a b endpoint = (S_OK, oListen, oDial)) : oListen.eKind ≠ .serial := by
  unfold linkEndpoints at h
  by_cases he : endpoint.isEmpty = true
  · simp only [he, Bool.not_true, Bool.false_eq_true, if_false] at h
    cases h
    intro hk
    cases hk
  · simp only [he, Bool.not_false, if_true] at h
    generalize ParseFacadeEndpoint inet endpoint false {} = r at h
    obtain ⟨hr, ep⟩ := r
    simp only at h
    split at h
    · rename_i hf
      cases h
      cases hf
    split at h
    · cases h
    · rename_i hk
      cases h
      exact hk

theorem rewrites_written {net : Net} (hmap : MapInv inet net.mapEndpoints) {h : Hub} {q : WStr} {e : FacadeEv}
    {r : ArmedCon} (hw : Rewrites inet net h q e (some r)) : WrittenAs inet r := by
  generalize ho : some r = o at hw
  cases hw with
  | listen endpoint env hfree _ hok =>
    cases ho
    intro _
    refine ⟨_, rfl, fun hk => ?_⟩
    unfold endpointFor at hok hk ⊢
    by_cases he : endpoint.isEmpty = true
    · simp only [he, Bool.not_true, Bool.false_eq_true, if_false] at hk
      exact absurd hk (listen_never_serial hmap h.oAddress.2)
    · simp only [he, Bool.not_false, if_true] at hok hk ⊢
      unfold ParseFacadeEndpoint at hok hk ⊢
      cases hp : parseCore inet endpoint true {} with
      | none => rw [hp] at hok; cases hok
      | some ep =>
        rw [hp] at hk
        exact parse_serial hp hk
  | connect endpoint env hfree _ hok =>
    cases ho
    intro hl
    cases hl
  | listener endpoint env oListen oDial _ hfree hep hr =>
    rcases hr with rfl | rfl
    · cases ho
    · cases ho
      exact fun _ => ⟨oListen, rfl, fun hk => absurd hk (linkEndpoints_kind hep)⟩
  | dialer endpoint env oListen oDial hfree hep =>
    cases ho
    intro hl
    cases hl
  | disconnect env => cases ho

theorem recordInv_step {net : Net} (hmap : MapInv inet net.mapEndpoints) (hrec : RecordInv inet net) (e : FacadeEv) :
    RecordInv inet (facadeStep inet net e) := by
  intro x h' hf' q r hr
  obtain ⟨h, hf⟩ := find_before e hf'
  obtain ⟨h'', hf'', hstep⟩ := @step_records inet net e _ _ hf
  obtain rfl : h' = h'' := by rw [hf'] at hf''; exact Option.some.inj hf''
  rcases hstep.records q with hsame | ⟨r', hw, hr'⟩
  · exact hrec x h hf q r (hsame ▸ hr)
  · rw [hr] at hr'
    subst hr'
    exact rewrites_written hmap hw

/-! ## One call -/

/-- ResolveDial gives a serial port exactly for a listener's record that says so. -/
theorem resolveDial_serial {net : Net} (hrec : RecordInv inet net) {a b : WStr} (ha : a ≠ []) (hb : b ≠ []) :
    (FAILED (net.ResolveDial inet a b {}).1 = false ∧ (net.ResolveDial inet a b {}).2.eKind = .serial) ↔
      ∃ pPeer r, net.FindHubLocked a = some pPeer ∧ pPeer.armed[b]? = some r ∧ r.bListen = true ∧
        L "serial://" <+: r.strEndpoint := by
  have ha' : a.isEmpty = false := by simpa using ha
  have hb' : b.isEmpty = false := by simpa using hb
  constructor
  · rintro ⟨hok, hk⟩
    unfold Net.ResolveDial at hok hk
    simp only [ha', hb', Bool.or_self, Bool.false_eq_true, if_false] at hok hk
    cases hf : net.FindHubLocked a with
    | none => rw [hf] at hok; cases hok
    | some pPeer =>
      simp only [hf, Hub.ArmedListener, hb', Bool.false_eq_true, if_false] at hok hk
      cases hr : pPeer.armed[b]? with
      | none => simp [hr, FAILED] at hok
      | some r =>
        simp only [hr] at hok hk
        cases hl : r.bListen with
        | false => simp [hl, FAILED] at hok
        | true =>
          obtain ⟨ep, htext, -⟩ := hrec a pPeer hf b r hr hl
          refine ⟨pPeer, r, rfl, hr, hl, ?_⟩
          simp only [hl, if_true] at hok hk
          by_cases he : r.strEndpoint.isEmpty = true
          · simp [he, FAILED] at hok
          simp only [he, Bool.false_eq_true, if_false] at hok hk
          unfold ParseFacadeEndpoint at hok hk
          cases hp : parseCore inet r.strEndpoint true {} with
          | none => rw [hp] at hok; cases hok
          | some back =>
            simp only [hp, failed_S_OK, Bool.false_eq_true, if_false] at hk
            have hback : back.eKind = .serial := by
              split at hk
              · exact hk
              · exact hk
            rw [htext] at hp ⊢
            exact format_serial.mpr ((parse_format_kind hp).symm.trans hback)
  · rintro ⟨pPeer, r, hf, hr, hl, hpre⟩
    obtain ⟨ep, htext, hcan⟩ := hrec a pPeer hf b r hr hl
    rw [htext] at hpre
    have hk := format_serial.mp hpre
    obtain ⟨str, bListen⟩ := r
    simp only at htext hl
    subst htext hl
    rw [resolveDial_record (hcan hk) (by rw [hk]; intro h; cases h) ha hb ⟨pPeer, hf, hr⟩]
    exact ⟨rfl, hk⟩

/-- An omitted Connect resolves to a serial port exactly when no entry is in the way of such a record. -/
theorem dial_serial {net : Net} (hmap : MapInv inet net.mapEndpoints) (hrec : RecordInv inet net) {a b : WStr}
    (ha : a ≠ []) (hb : b ≠ []) :
    (FAILED (ResolveEndpoint (some (net.owner inet)) b a false {}).1 = false ∧
      (ResolveEndpoint (some (net.owner inet)) b a false {}).2.eKind = .serial) ↔
      net.mapEndpoints[a]? = none ∧ ∃ pPeer r, net.FindHubLocked a = some pPeer ∧ pPeer.armed[b]? = some r ∧
        r.bListen = true ∧ L "serial://" <+: r.strEndpoint := by
  cases hget : net.mapEndpoints[a]? with
  | some v =>
    obtain ⟨ep, hp, hkind, -⟩ := stored_parses (hmap a v hget) {}
    rw [resolve_dial_mapped hmap hb hget hp]
    exact ⟨fun h => absurd h.2 hkind, fun h => by cases h.1⟩
  | none =>
    rw [resolve_dial_unmapped hb hget, ← resolveDial_serial hrec ha hb]
    by_cases hf : FAILED (net.ResolveDial inet a b {}).1 = true
    · rw [if_pos hf]
      exact ⟨fun h => ⟨rfl, h⟩, fun h => h.2⟩
    · rw [if_neg hf]
      exact ⟨fun h => ⟨rfl, h⟩, fun h => h.2⟩

theorem neverSerial_iff {net : Net} (hmap : MapInv inet net.mapEndpoints) (hrec : RecordInv inet net) (e : FacadeEv) :
    NeverSerial inet net e ↔ ¬ FindsSerial net e := by
  cases e with
  | map c => exact ⟨fun _ h => h, fun _ => trivial⟩
  | retire address stays => exact ⟨fun _ h => h, fun _ => trivial⟩
  | verb e =>
    cases e with
    | disconnect address peer env => exact ⟨fun _ h => h, fun _ => trivial⟩
    | listen address toPeer endpoint env =>
      refine ⟨fun _ h => h, fun _ => ?_⟩
      cases toPeer with
      | none => trivial
      | some p =>
        cases endpoint with
        | cons c s => trivial
        | nil => exact fun h hf => Or.inr (listen_never_serial hmap h.oAddress.2)
    | link listenerAddr dialerAddr endpoint env =>
      refine ⟨fun _ h => h, fun _ => ?_⟩
      cases listenerAddr with
      | none => trivial
      | some a =>
        cases dialerAddr with
        | none => trivial
        | some b =>
          cases endpoint with
          | cons c s => trivial
          | nil => exact Or.inr ⟨fun hk => (by cases hk), fun hk => (by cases hk)⟩
    | connect address toPeer endpoint env =>
      cases toPeer with
      | none => exact ⟨fun _ h => h, fun _ => trivial⟩
      | some p =>
        cases endpoint with
        | cons c s => exact ⟨fun _ h => h, fun _ => trivial⟩
        | nil =>
          constructor
          · rintro hnever ⟨h, hf, hnone, hrecord, hgate, harm⟩
            have haddr := find_address hf
            have hne : h.csAddress ≠ [] := h.oAddress.2
            have hdial := (dial_serial hmap hrec harm.named hne).mpr ⟨hnone, haddr ▸ hrecord⟩
            have hok : FAILED (Connect inet (some (net.owner inet)) env (some p) [] h).1 = false :=
              (armUnified_ok_iff inet (some (net.owner inet)) env).mpr ⟨hdial.1, hgate, harm⟩
            rcases hnever h hf with hfail | hkind
            · rw [hok] at hfail
              cases hfail
            · exact hkind hdial.2
          · intro hno h hf
            cases hok : FAILED (Connect inet (some (net.owner inet)) env (some p) [] h).1 with
            | true => exact Or.inl rfl
            | false =>
            refine Or.inr fun hkind => hno ?_
            have harms := (armUnified_ok_iff inet (some (net.owner inet)) env).mp hok
            obtain ⟨hnone, hrecord⟩ := (dial_serial hmap hrec harms.armable.named h.oAddress.2).mp ⟨harms.resolves, hkind⟩
            exact ⟨h, hf, hnone, (find_address hf) ▸ hrecord, harms.gate, harms.armable⟩

end Reachable

/-! ## Runs -/

/-- No entry in the map, and nothing recorded on any hub. -/
structure Net.Unarmed (net : Net) : Prop where
  map : net.mapEndpoints = ∅
  hubs : ∀ h ∈ net.hubs, h.armed = ∅

/-- In every run from a network that has armed nothing, no call with an omitted endpoint resolves to a
    serial port exactly when no omitted Connect finds a serial listener's record. -/
theorem omitted_serial_iff {inet : InetPton} (hinet : inet.Literal) {net : Net} (hnet : net.Unarmed)
    (es : List FacadeEv) :
    Each (facadeStep inet) (NeverSerial inet) net es ↔ Each (facadeStep inet) (fun net e => ¬ FindsSerial net e) net es := by
  have hinv : Always (facadeStep inet) (fun net => MapInv inet net.mapEndpoints ∧ RecordInv inet net) net es := by
    refine always_of_inv (fun net e h => ⟨mapInv_facadeStep hinet h.1 e, recordInv_step h.1 h.2 e⟩) ⟨?_, ?_⟩
    · intro k v hget
      rw [hnet.map, Std.ExtTreeMap.getElem?_empty] at hget
      cases hget
    · intro x h hf q r hr
      rw [hnet.hubs h (List.mem_of_find?_eq_some hf), Std.ExtTreeMap.getElem?_empty] at hr
      cases hr
  refine forall_congr' fun k => forall_congr' fun e => imp_congr_right fun _ => ?_
  exact neverSerial_iff (hinv k).1 (hinv k).2 e

/-- The same pair of hubs, the listener's port given up before the Connect. -/
theorem omitted_serial_retracted :
    Each (facadeStep inetSome) (NeverSerial inetSome) (.pair ⟨L "A", by decide⟩ ⟨L "B", by decide⟩)
      [.verb (.listen (L "A") (some (L "B")) (L "serial://COM5") (.keyless true)),
        .verb (.disconnect (L "A") (some (L "B")) { stays := fun _ _ => false }),
        .verb (.connect (L "B") (some (L "A")) [] (.keyless true))] := by
  refine (omitted_serial_iff inetSome_literal ⟨rfl, fun h hm => ?_⟩ _).mpr ?_
  · rcases List.mem_cons.mp hm with rfl | hm
    · rfl
    · obtain rfl := List.mem_singleton.mp hm
      rfl
  · refine each_cons.mpr ⟨fun h => h, each_cons.mpr ⟨fun h => h, each_cons.mpr ⟨?_, each_nil⟩⟩⟩
    rintro ⟨h, hf, -, ⟨pPeer, r, hfp, hr, -⟩, -⟩
    obtain rfl := Option.some.inj hfp
    have hnone : ∀ r : ArmedCon, ¬ (some r = none) := fun r hc => by cases hc
    refine hnone r (hr.symm.trans ?_)
    decide +kernel

/-- A listener armed on COM5 by name, and a Connect with no endpoint: it is sent to COM5. -/
theorem omitted_connect_serial :
    ¬ Each (facadeStep ⟨fun _ => false, fun _ => none⟩) (NeverSerial ⟨fun _ => false, fun _ => none⟩)
      (.pair ⟨L "A", by decide⟩ ⟨L "B", by decide⟩)
      [.verb (.listen (L "A") (some (L "B")) (L "serial://COM5") (.keyless true)),
        .verb (.connect (L "B") (some (L "A")) [] (.keyless true))] := by
  intro h
  have hconnect := (each_cons.mp (each_cons.mp h).2).1 _ rfl
  revert hconnect
  decide +kernel

end TargetFacade
