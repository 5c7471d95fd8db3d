/-
  TargetFacade.Hub.FailedArm — what a failed Listen or Connect leaves on a hub.

  Every refusal before TrustAndEnforce, and a write it could not make, leaves the hub as it
  was. Past the write two failures are left. The gate refuses: the undo rewrites the list
  from the set it put back, which a set that was empty cannot do, and the flag becomes what
  the set's emptiness says. The gate accepts and ArmResolved refuses: nothing is undone, so
  the peer stays trusted and the hub enforces.
-/

import TargetFacade.Hub.ArmSpec

namespace TargetFacade

open OrdMap

/-- The same trust, the same arms, the same connections. -/
def Unchanged (h h' : Hub) : Prop := SameTrust h.trust h'.trust ∧ h'.armed = h.armed ∧ h'.cons = h.cons

def LeavesNothing (h : Hub) (r : HRESULT × Hub) : Prop := FAILED r.1 = true → Unchanged h r.2

variable (inet : InetPton) (pOwner : Option Owner) (env : ArmEnv)

/-- The call reaches TrustAndEnforce with the key `k`, and its allow-list is written and
    loaded. -/
structure Grants (peer endpoint : WStr) (bListen : Bool) (h : Hub) (k : SecKeys) : Prop where
  secure : h.bSecure = true
  named : peer ≠ []
  inPlace : IsSwappedPeerArgument peer = false
  resolves : FAILED (endpointFor inet pOwner h.csAddress peer endpoint bListen).1 = false
  exact : IsPattern peer = false
  key : KeyFor env peer h k
  writes : env.trust.Writes h.trust.trusted peer k

/-- What granting `k` to `peer` changes is nothing, or the call goes on to succeed. When the
    gate accepts, either the arm is accepted too or the hub enforced a list that had this
    very entry; when it refuses, the list and the flag were what the undo makes of them. -/
def NothingToUndo (peer : WStr) (h : Hub) (k : SecKeys) : Prop :=
  (env.trust.Arms → Armable env peer h ∨
    (h.trust.trusted[peer]? = some k ∧ h.trust.requireAuth = true ∧ h.trust.Agrees)) ∧
  (¬ env.trust.Arms → h.trust.requireAuth = !h.trust.trusted.isEmpty ∧
    ∀ ls, undoneLines env.trust.undo h.trust.trusted peer k ls → ∀ l, l ∈ ls ↔ l ∈ h.trust.loaded)

/-! ## The two halves of the call -/

theorem leavesNothing_refused {hr : HRESULT} {h h' : Hub} (ht : SameTrust h.trust h'.trust) (ha : h'.armed = h.armed)
    (hc : h'.cons = h.cons) : LeavesNothing h (hr, h') := fun _ => ⟨ht, ha, hc⟩

/-- An arm that follows a trust half leaves nothing exactly when it is accepted or the trust
    half changed nothing. -/
theorem armResolved_leaves (peer : WStr) (rEp : FacadeEndpoint) (bListen : Bool) (h : Hub) (t : Trust)
    (said : List HubWhy) :
    LeavesNothing h (ArmResolved env peer rEp bListen { h with trust := t, said := said }) ↔
      (Armable env peer h ∨ SameTrust h.trust t) := by
  have hout := armResolved_cases env peer rEp bListen { h with trust := t, said := said }
  revert hout
  generalize ArmResolved env peer rEp bListen { h with trust := t, said := said } = r
  obtain ⟨hr, h'⟩ := r
  intro hout
  cases hout with
  | refused handed hn hf hh =>
    have hn' : ¬ Armable env peer h := fun ha => hn ((armable_trust env peer h t said).mpr ha)
    exact ⟨fun hl => Or.inr (hl hf).1, fun ho => ho.elim (fun ha => absurd ha hn') fun ht => leavesNothing_refused ht rfl rfl⟩
  | armed c events ha hf hp hm hph =>
    exact ⟨fun _ => Or.inl ((armable_trust env peer h t said).mp ha), fun _ hfail => absurd hfail (by simp [hf])⟩

theorem keyFor_unique {peer : WStr} {h : Hub} {k k' : SecKeys} (hk : KeyFor env peer h k) (hk' : KeyFor env peer h k') :
    k = k' := hk.2.2.symm.trans hk'.2.2

/-- The trust half of a named peer, followed by the arm. -/
theorem granted_leaves {peer : WStr} (hp : peer ≠ []) (rEp : FacadeEndpoint) (bListen : Bool) (h : Hub) :
    LeavesNothing h (
        let (hr, h) := TrustPublishedPeer env peer h
        if FAILED hr then (hr, h) else ArmResolved env peer rEp bListen h) ↔
      ∀ k, KeyFor env peer h k → env.trust.Writes h.trust.trusted peer k → NothingToUndo env peer h k := by
  obtain ⟨hr, t, said, hpub, ⟨hno, rfl, hf⟩ | ⟨k, hk, hout⟩⟩ := published_cases env h hp
  · rw [hpub]
    simp only [hf, if_true]
    exact ⟨fun _ k hk => absurd hk (hno k), fun _ => leavesNothing_refused (sameTrust_refl _) rfl rfl⟩
  rw [hpub]
  have honly : (∀ k', KeyFor env peer h k' → env.trust.Writes h.trust.trusted peer k' → NothingToUndo env peer h k') ↔
      (env.trust.Writes h.trust.trusted peer k → NothingToUndo env peer h k) :=
    ⟨fun hall => hall k hk, fun h1 k' hk' => keyFor_unique env hk hk' ▸ h1⟩
  rw [honly]
  cases hout with
  | unwritten temp file hw =>
    exact ⟨fun _ hw' => absurd hw' hw, fun _ => leavesNothing_refused ⟨rfl, fun _ => Iff.rfl, rfl⟩ rfl rfl⟩
  | trusted _ hw ha htr hlo hau harm hgr =>
    simp only [failed_S_OK, Bool.false_eq_true, if_false]
    rw [armResolved_leaves]
    have hsame : SameTrust h.trust t ↔
        h.trust.trusted[peer]? = some k ∧ h.trust.requireAuth = true ∧ h.trust.Agrees := by
      unfold SameTrust
      rw [htr, insert_eq_self, hau, hlo]
      constructor
      · intro hs
        obtain ⟨h1, h2, h3⟩ := hs
        rw [insert_eq_self.mpr h1] at h2
        exact ⟨h1, h3.symm, fun l => (h2 l).symm⟩
      · intro hs
        obtain ⟨h1, h2, h3⟩ := hs
        rw [insert_eq_self.mpr h1]
        exact ⟨h1, fun l => (h3 l).symm, h2.symm⟩
    rw [hsame]
    exact ⟨fun ho _ => ⟨fun _ => ho, fun hna => absurd ha hna⟩, fun hn => (hn hw).1 ha⟩
  | unarmed _ hw ha htr hlo hau hgr =>
    simp only [FAILED, if_true]
    refine ⟨fun hl _ => ⟨fun hya => absurd hya ha, fun _ => ?_⟩, fun hn => ?_⟩
    · obtain ⟨⟨-, h2, h3⟩, -, -⟩ := hl rfl
      refine ⟨by rw [← h3, hau], fun ls hls l => ?_⟩
      rw [← h2 l]
      -- the undo leaves one list
      rcases hls with ⟨hps, he, rfl⟩ | ⟨hf, rfl⟩ <;> rcases hlo with ⟨hps', he', h'⟩ | ⟨hf', h'⟩
      · simp [h']
      · exact absurd (hf' hps) (by simp [he])
      · exact absurd (hf hps') (by simp [he'])
      · simp [h']
    · obtain ⟨h1, h2⟩ := (hn hw).2 ha
      exact leavesNothing_refused ⟨htr, h2 _ hlo, by rw [hau, h1]⟩ rfl rfl

theorem armUnified_leaves (peer : Option WStr) (endpoint : WStr) (bListen : Bool) (h : Hub) :
    LeavesNothing h (ArmUnified inet pOwner env peer endpoint bListen h) ↔
      ∀ p k, peer = some p → Grants inet pOwner env p endpoint bListen h k → NothingToUndo env p h k := by
  have hstays : ∀ {hr : HRESULT} {Q : Prop}, Q → (LeavesNothing h (hr, h) ↔ Q) := fun hq =>
    ⟨fun _ => hq, fun _ => leavesNothing_refused (sameTrust_refl _) rfl rfl⟩
  unfold ArmUnified
  cases peer with
  | none => exact hstays fun p k hp => (by cases hp)
  | some p =>
    have honly : (∀ q k, some p = some q → Grants inet pOwner env q endpoint bListen h k → NothingToUndo env q h k) ↔
        ∀ k, Grants inet pOwner env p endpoint bListen h k → NothingToUndo env p h k :=
      ⟨fun hall k => hall p k rfl, fun hall q k hq => by cases hq; exact hall k⟩
    rw [honly]
    by_cases h1 : p.isEmpty = true
    · simp only [h1, if_true]
      exact hstays fun k hg => absurd (by simpa using h1) hg.named
    by_cases h2 : IsSwappedPeerArgument p = true
    · simp only [h1, h2, Bool.false_eq_true, if_false, if_true]
      exact hstays fun k hg => absurd hg.inPlace (by simp [h2])
    simp only [h1, h2, Bool.false_eq_true, if_false]
    by_cases h3 : FAILED (endpointFor inet pOwner h.csAddress p endpoint bListen).1 = true
    · simp only [h3, if_true]
      exact hstays fun k hg => absurd hg.resolves (by simp [h3])
    simp only [h3, Bool.false_eq_true, if_false]
    generalize hep : (endpointFor inet pOwner h.csAddress p endpoint bListen).2 = oEp
    by_cases h4 : h.bSecure = true
    case neg =>
      simp only [h4, Bool.false_eq_true, if_false]
      have hl := (armResolved_leaves env p oEp bListen h h.trust h.said).mpr (Or.inr (sameTrust_refl _))
      exact ⟨fun _ k hg => absurd hg.secure h4, fun _ => hl⟩
    simp only [h4, if_true]
    by_cases h5 : IsPattern p = true
    · -- a pattern changes no trust, whatever follows
      simp only [h5, if_true]
      refine ⟨fun _ k hg => absurd hg.exact (by simp [h5]), fun _ => ?_⟩
      obtain ⟨hr, said, had, -⟩ := admit_cases env p h
      rw [had]
      by_cases hf : FAILED hr = true
      · simp only [hf, if_true]
        exact leavesNothing_refused ⟨rfl, fun _ => Iff.rfl, rfl⟩ rfl rfl
      · simp only [hf, Bool.false_eq_true, if_false]
        exact (armResolved_leaves env p oEp bListen h _ said).mpr (Or.inr ⟨rfl, fun _ => Iff.rfl, rfl⟩)
    simp only [h5, Bool.false_eq_true, if_false]
    have hp : p ≠ [] := by simpa using h1
    rw [granted_leaves env hp]
    refine ⟨fun hall k hg => hall k hg.key hg.writes, fun hall k hk hw => hall k ?_⟩
    exact ⟨h4, hp, by simpa using h2, by simpa using h3, by simpa using h5, hk, hw⟩

/-! ## Listen and Connect -/

/-- A Listen or a Connect that fails leaves the trusted set, the loaded list, the flag, the
    arms and the connections as they were, exactly when the grant it makes on the way leaves
    nothing to undo. -/
theorem failed_arm_leaves_nothing_iff (toPeer : Option WStr) (endpoint : WStr) (h : Hub) :
    (LeavesNothing h (Listen inet pOwner env toPeer endpoint h) ↔
      ∀ p k, toPeer = some p → Grants inet pOwner env p endpoint true h k → NothingToUndo env p h k) ∧
    (LeavesNothing h (Connect inet pOwner env toPeer endpoint h) ↔
      ∀ p k, toPeer = some p → Grants inet pOwner env p endpoint false h k → NothingToUndo env p h k) :=
  ⟨armUnified_leaves inet pOwner env toPeer endpoint true h, armUnified_leaves inet pOwner env toPeer endpoint false h⟩

/-- A new secure hub told to listen for itself: refused, and from then on it trusts itself
    and requires authentication. -/
theorem listening_for_itself_enforces :
    ¬ LeavesNothing (.created ⟨L "A", by decide⟩ true false ⟨7, 0, false, []⟩ (L "keys") none none)
      (Listen ⟨fun _ => false, fun _ => none⟩ none
        { keys := { loadPublic := fun _ => .IdOk, exportPublic := fun _ => some 7, agreement := fun _ => none,
                    fingerprint := fun _ => [] }
          trust := ⟨{}, .good, {}⟩ }
        (some (L "A")) [] (.created ⟨L "A", by decide⟩ true false ⟨7, 0, false, []⟩ (L "keys") none none)) := by
  intro hl
  have hflag := (hl (by decide +kernel)).1.2.2
  revert hflag
  decide +kernel

end TargetFacade
