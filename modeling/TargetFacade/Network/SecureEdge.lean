/-
  TargetFacade.Network.SecureEdge — what a refused security edge leaves on its two hubs.

  The first hub is granted its peer before the second is asked, so a refusal can come at
  four places: the first hub's write, its gate, the second hub's write, its gate. A failed
  write changes nothing on its own hub. The gate's refusal restores the set but cannot
  rewrite an empty list, and turns the flag off or leaves it on by the set's emptiness
  (`unarmed_same_iff`). Withdrawing the first hub's grant (`taken_back_same_iff`) erases
  the peer, so it brings back neither a key that was rotated, nor the list of a set that was
  empty, nor a flag that was off.
-/

import TargetFacade.Trust.Spec
import TargetFacade.Network.Model

namespace TargetFacade

open OrdMap

/-- A hub whose gate refuses is as it was: it trusted somebody, and it enforced. -/
def KeepsItself (t : Trust) : Prop := t.trusted.isEmpty = false ∧ t.requireAuth = true

/-- A hub whose grant is taken back is as it was: besides, it did not list the peer under
    another key. -/
def TakesBack (t : Trust) (peer : WStr) (k : SecKeys) : Prop :=
  KeepsItself t ∧ (t.trusted[peer]? = none ∨ t.trusted[peer]? = some k)

/-- The edge gets as far as trust: the directory is there and both hubs hold keys. -/
def Trades (env : EdgeEnv) (net : Net) (pA pB : Hub) : Prop :=
  FAILED (net.EnsureSecurityDirLocked env.dir).1 = false ∧ pA.bProvisioned = true ∧ pB.bProvisioned = true

/-- Whatever the edge has changed when it is refused, it can put back. -/
def Undoable (env : EdgeEnv) (net : Net) (pA pB : Hub) : Prop :=
  Trades env net pA pB → env.first.Writes pA.trust.trusted pB.csAddress pB.oSecKeys →
    (¬ env.first.Arms → KeepsItself pA.trust) ∧
    (env.first.Arms →
      (¬ env.second.Writes pB.trust.trusted pA.csAddress pA.oSecKeys →
        TakesBack pA.trust pB.csAddress pB.oSecKeys) ∧
      (env.second.Writes pB.trust.trusted pA.csAddress pA.oSecKeys → ¬ env.second.Arms →
        TakesBack pA.trust pB.csAddress pB.oSecKeys ∧ KeepsItself pB.trust))

/-- On a security failure both hubs have the set, the list and the flag they had. -/
def EdgeAtomic (pA pB : Hub) (r : HRESULT × Net × Hub × Hub) : Prop :=
  r.1 = P2PF_E_SECURITY → SameTrust pA.trust r.2.2.1.trust ∧ SameTrust pB.trust r.2.2.2.trust

/-! ## One hub -/

theorem unarmed_same_iff {t t' : Trust} {undo : WriteEnv} {peer : WStr} {k : SecKeys} (h : t.Agrees)
    (hclean : undo.Clean) (htr : t'.trusted = t.trusted) (hlo : undoneLines undo t.trusted peer k t'.loaded)
    (hau : t'.requireAuth = !t.trusted.isEmpty) : SameTrust t t' ↔ KeepsItself t := by
  cases he : t.trusted.isEmpty with
  | true =>
    refine ⟨fun hs => ?_, fun hk => absurd hk.1 (by simp [he])⟩
    -- the list still carries the refused peer
    rcases hlo with ⟨-, hne, -⟩ | ⟨-, hlo⟩
    · simp [he] at hne
    · have hnone : t.trusted[peer]? = none := isEmpty_iff_get.mp he peer
      refine absurd (fun l => ?_) (lines_insert_new k hnone)
      rw [← hlo, hs.2.1 l, h l]
  | false =>
    rcases hlo with ⟨-, -, hlo⟩ | ⟨hf, -⟩
    · refine ⟨fun hs => ⟨he, by rw [← hs.2.2, hau, he]; rfl⟩, fun hk => ⟨htr, fun l => ?_, ?_⟩⟩
      · rw [hlo, h l]
      · rw [hau, he, hk.2]; rfl
    · exact absurd (hf (hclean _)) (by simp [he])

/-- The peer's grant, and the UntrustPeer that takes it back when the peer was not listed. -/
theorem taken_back_same_iff {t t1 : Trust} {withdraw : WriteEnv} {peer : WStr} {k : SecKeys}
    (address csDir : WStr) (hpeer : peer ≠ []) (h : t.Agrees) (hclean : withdraw.Clean)
    (htr : t1.trusted = t.trusted.insert peer k) (hlo : t1.loaded = lines (t.trusted.insert peer k))
    (hau : t1.requireAuth = true) :
    SameTrust t (if !t.Trusts peer then (UntrustPeer address peer csDir withdraw t1).2.2 else t1) ↔
      TakesBack t peer k := by
  have htrusts : t.Trusts peer = (t.trusted[peer]?).isSome := by
    have hp : peer.isEmpty = false := by simpa using hpeer
    simp [Trust.Trusts, hp]
  rw [htrusts]
  cases hg : t.trusted[peer]? with
  | some k' =>
    -- already listed: nothing is withdrawn
    simp only [Option.isSome_some, Bool.not_true, Bool.false_eq_true, if_false]
    have hne := not_isEmpty_of_get hg
    refine ⟨fun hs => ⟨⟨hne, by rw [← hs.2.2, hau]⟩, Or.inr ?_⟩, fun hb => ?_⟩
    · have hins : t.trusted.insert peer k = t.trusted := by rw [← htr]; exact hs.1
      exact insert_eq_self.mp hins
    · rcases hb.2 with hnone | hsome
      · simp [hg] at hnone
      · have hins : t.trusted.insert peer k = t.trusted := insert_eq_self.mpr hsome
        refine ⟨by rw [htr, hins], fun l => ?_, by rw [hau, hb.1.2]⟩
        rw [hlo, hins, h l]
  | none =>
    simp only [Option.isSome_none, Bool.not_false, if_true]
    obtain ⟨t2, ht2, htr2, hau2, hlo2⟩ := untrust_cases address csDir withdraw t1 hpeer
    have herase : t1.trusted.erase peer = t.trusted := by
      rw [htr]; simpa [putBack, hg] using putBack_insert t.trusted peer k
    rw [ht2]
    rw [herase] at htr2 hlo2
    rcases hlo2 with ⟨-, hne, hlo2⟩ | ⟨hf, hlo2⟩
    · refine ⟨fun hs => ⟨⟨hne, by rw [← hs.2.2, hau2, hau]⟩, Or.inl hg⟩, fun hb => ?_⟩
      refine ⟨htr2, fun l => ?_, by rw [hau2, hau, hb.1.2]⟩
      rw [hlo2, h l]
    · have hemp := hf (hclean _)
      refine ⟨fun hs => ?_, fun hb => absurd hb.1.1 (by simp [hemp])⟩
      refine absurd (fun l => ?_) (lines_insert_new k hg)
      rw [← hlo, ← hlo2, hs.2.1 l, h l]

/-! ## The edge -/

theorem ensureDir_hubs (net : Net) (answer : DirAnswer) : (net.EnsureSecurityDirLocked answer).2.2.hubs = net.hubs := by
  unfold Net.EnsureSecurityDirLocked
  split
  · cases answer <;> rfl
  · rfl

/-- SecureEdgeLocked once the directory is there and both hubs hold keys. -/
theorem secureEdge_trades {env : EdgeEnv} {net : Net} {pA pB : Hub} (h : Trades env net pA pB) :
    ∃ csDir net', net'.hubs = net.hubs ∧ SecureEdgeLocked env net pA pB =
      (let (hrTrust, csWhat, t) := TrustAndEnforce pA.csAddress pB.csAddress pB.oSecKeys csDir env.first pA.trust
       let pA' := { pA with trust := t }
       if FAILED hrTrust then (P2PF_E_SECURITY, net'.RaiseSecurityError (.refused csWhat), pA', pB)
       else
        let (hrTrust, csWhat, t) := TrustAndEnforce pB.csAddress pA.csAddress pA.oSecKeys csDir env.second pB.trust
        let pB' := { pB with trust := t }
        if FAILED hrTrust then
          (P2PF_E_SECURITY, net'.RaiseSecurityError (.refused csWhat),
            if !pA.trust.Trusts pB.csAddress then
              { pA' with trust := (UntrustPeer pA.csAddress pB.csAddress csDir env.withdraw pA'.trust).2.2 }
            else pA', pB')
        else (S_OK, net', pA', pB')) := by
  obtain ⟨hd, hA, hB⟩ := h
  obtain ⟨⟨hr, csDir, net'⟩, he⟩ : ∃ x, net.EnsureSecurityDirLocked env.dir = x := ⟨_, rfl⟩
  refine ⟨csDir, net', by rw [← ensureDir_hubs net env.dir, he], ?_⟩
  rw [he] at hd
  unfold SecureEdgeLocked
  simp only [he, hd, hA, hB, Bool.not_true, Bool.false_eq_true, if_false]

theorem secureEdge_stays {env : EdgeEnv} {net : Net} {pA pB : Hub} (h : ¬ Trades env net pA pB) :
    ∃ hr net', FAILED hr = true ∧ net'.hubs = net.hubs ∧ SecureEdgeLocked env net pA pB = (hr, net', pA, pB) := by
  unfold SecureEdgeLocked
  obtain ⟨⟨hr, csDir, net'⟩, he⟩ : ∃ x, net.EnsureSecurityDirLocked env.dir = x := ⟨_, rfl⟩
  have hhubs : net'.hubs = net.hubs := by rw [← ensureDir_hubs net env.dir, he]
  simp only [he]
  by_cases hd : FAILED hr = true
  · exact ⟨hr, net', hd, hhubs, by simp only [hd, if_true]⟩
  by_cases hA : pA.bProvisioned = true
  · by_cases hB : pB.bProvisioned = true
    · exact absurd ⟨by rw [he]; simpa using hd, hA, hB⟩ h
    · refine ⟨P2PF_E_SECURITY, net'.RaiseSecurityError (.unprovisioned pB.csAddress), rfl, hhubs, ?_⟩
      simp only [hd, hA, hB, Bool.not_true, Bool.not_false, Bool.false_eq_true, if_false, if_true]
  · refine ⟨P2PF_E_SECURITY, net'.RaiseSecurityError (.unprovisioned pA.csAddress), rfl, hhubs, ?_⟩
    simp only [hd, hA, Bool.not_false, Bool.false_eq_true, if_false, if_true]

variable (env : EdgeEnv) (net : Net) (pA pB : Hub)

/-- A refused edge leaves both hubs as they were exactly when it can put back what it has
    changed by then. -/
theorem secure_edge_atomic_iff (hA : pA.trust.Agrees) (hB : pB.trust.Agrees) (hfirst : env.first.undo.Clean)
    (hsecond : env.second.undo.Clean) (hwithdraw : env.withdraw.Clean) :
    EdgeAtomic pA pB (SecureEdgeLocked env net pA pB) ↔ Undoable env net pA pB := by
  by_cases htrades : Trades env net pA pB
  case neg =>
    obtain ⟨hr, net', -, -, he⟩ := secureEdge_stays htrades
    rw [he]
    exact ⟨fun _ ht => absurd ht htrades, fun _ _ => ⟨sameTrust_refl _, sameTrust_refl _⟩⟩
  obtain ⟨csDir, net', -, he⟩ := secureEdge_trades htrades
  rw [he]
  have hundo : ∀ {P : Prop}, (P ↔ (env.first.Writes pA.trust.trusted pB.csAddress pB.oSecKeys →
      (¬ env.first.Arms → KeepsItself pA.trust) ∧
      (env.first.Arms →
        (¬ env.second.Writes pB.trust.trusted pA.csAddress pA.oSecKeys →
          TakesBack pA.trust pB.csAddress pB.oSecKeys) ∧
        (env.second.Writes pB.trust.trusted pA.csAddress pA.oSecKeys → ¬ env.second.Arms →
          TakesBack pA.trust pB.csAddress pB.oSecKeys ∧ KeepsItself pB.trust)))) →
      (P ↔ Undoable env net pA pB) := fun hP => hP.trans ⟨fun h _ => h, fun h => h htrades⟩
  apply hundo
  have hout := trust_cases pA.csAddress csDir env.first pB.oSecKeys pA.trust pB.oAddress.2
  revert hout
  generalize TrustAndEnforce pA.csAddress pB.csAddress pB.oSecKeys csDir env.first pA.trust = r
  obtain ⟨hr, what, t1⟩ := r
  intro hout
  cases hout with
  | unwritten temp file hw =>
    simp only [FAILED, if_true]
    exact ⟨fun _ hw' => absurd hw' hw, fun _ _ => ⟨⟨rfl, fun _ => Iff.rfl, rfl⟩, sameTrust_refl _⟩⟩
  | unarmed _ hw ha htr hlo hau hgr =>
    simp only [FAILED, if_true]
    have hsame := unarmed_same_iff hA hfirst htr hlo hau
    exact ⟨fun hat _ => ⟨fun _ => hsame.mp (hat rfl).1, fun hya => absurd hya ha⟩,
      fun hu _ => ⟨hsame.mpr ((hu hw).1 ha), sameTrust_refl _⟩⟩
  | trusted _ hw ha htr hlo hau harm hgr =>
    simp only [failed_S_OK, Bool.false_eq_true, if_false]
    -- the first hub has its peer; only a refusal of the second says anything
    have hout2 := trust_cases pB.csAddress csDir env.second pA.oSecKeys pB.trust pA.oAddress.2
    revert hout2
    generalize TrustAndEnforce pB.csAddress pA.csAddress pA.oSecKeys csDir env.second pB.trust = r2
    obtain ⟨hr2, what2, t2⟩ := r2
    intro hout2
    have hback := taken_back_same_iff pA.csAddress csDir pB.oAddress.2 hA hwithdraw htr hlo hau
    have hfirstHub : ∀ {t : Trust}, t1 = t → (if !pA.trust.Trusts pB.csAddress then
          { pA with trust := (UntrustPeer pA.csAddress pB.csAddress csDir env.withdraw t).2.2 }
        else { pA with trust := t }).trust =
        if !pA.trust.Trusts pB.csAddress then
          (UntrustPeer pA.csAddress pB.csAddress csDir env.withdraw t1).2.2 else t1 := by
      intro t ht
      subst ht
      split <;> rfl
    cases hout2 with
    | unwritten temp file hw2 =>
      simp only [FAILED, if_true]
      refine ⟨fun hat _ => ⟨fun hna => absurd ha hna, fun _ => ⟨fun _ => ?_, fun hw2' => absurd hw2' hw2⟩⟩,
        fun hu _ => ⟨?_, ⟨rfl, fun _ => Iff.rfl, rfl⟩⟩⟩
      · have hs := (hat rfl).1
        rw [hfirstHub rfl] at hs
        exact hback.mp hs
      · rw [hfirstHub rfl]
        exact hback.mpr (((hu hw).2 ha).1 hw2)
    | unarmed _ hw2 ha2 htr2 hlo2 hau2 hgr2 =>
      simp only [FAILED, if_true]
      have hsame := unarmed_same_iff hB hsecond htr2 hlo2 hau2
      refine ⟨fun hat _ => ⟨fun hna => absurd ha hna, fun _ => ⟨fun hnw => absurd hw2 hnw, fun _ _ => ?_⟩⟩,
        fun hu _ => ?_⟩
      · have hs := hat rfl
        rw [hfirstHub rfl] at hs
        exact ⟨hback.mp hs.1, hsame.mp hs.2⟩
      · obtain ⟨hb, hk⟩ := ((hu hw).2 ha).2 hw2 ha2
        rw [hfirstHub rfl]
        exact ⟨hback.mpr hb, hsame.mpr hk⟩
    | trusted _ hw2 ha2 =>
      simp only [failed_S_OK, Bool.false_eq_true, if_false]
      exact ⟨fun _ _ => ⟨fun hna => absurd ha hna,
        fun _ => ⟨fun hnw => absurd hw2 hnw, fun _ hna2 => absurd ha2 hna2⟩⟩, fun _ hc => (by cases hc)⟩

/-- Two new hubs, the second with no revocation list. -/
theorem secure_edge_atomic_created :
    EdgeAtomic (.created ⟨L "A", by decide⟩ true false ⟨1, 0, false, []⟩ (L "keys") none none)
        (.created ⟨L "B", by decide⟩ true false ⟨2, 0, false, []⟩ (L "keys") none none)
        (SecureEdgeLocked ⟨.noModule, ⟨{}, .good, {}⟩, ⟨{}, .noRevocation, {}⟩, {}⟩ ⟨[], ∅, L "keys", true, []⟩
          (.created ⟨L "A", by decide⟩ true false ⟨1, 0, false, []⟩ (L "keys") none none)
          (.created ⟨L "B", by decide⟩ true false ⟨2, 0, false, []⟩ (L "keys") none none)) ↔
      Undoable ⟨.noModule, ⟨{}, .good, {}⟩, ⟨{}, .noRevocation, {}⟩, {}⟩ ⟨[], ∅, L "keys", true, []⟩
        (.created ⟨L "A", by decide⟩ true false ⟨1, 0, false, []⟩ (L "keys") none none)
        (.created ⟨L "B", by decide⟩ true false ⟨2, 0, false, []⟩ (L "keys") none none) :=
  secure_edge_atomic_iff _ _ _ _ (by intro l; simp [Hub.created, Trust.created, lines])
    (by intro l; simp [Hub.created, Trust.created, lines]) clean_default clean_default clean_default

/-- Two new hubs, the second refused for its deleted revocation list: the first is left with
    the second on the list in force, and requiring authentication. -/
theorem refused_edge_stays_listed :
    ¬ EdgeAtomic (.created ⟨L "A", by decide⟩ true false ⟨1, 0, false, []⟩ (L "keys") none none)
        (.created ⟨L "B", by decide⟩ true false ⟨2, 0, false, []⟩ (L "keys") none none)
        (SecureEdgeLocked ⟨.noModule, ⟨{}, .good, {}⟩, ⟨{}, .noRevocation, {}⟩, {}⟩ ⟨[], ∅, L "keys", true, []⟩
          (.created ⟨L "A", by decide⟩ true false ⟨1, 0, false, []⟩ (L "keys") none none)
          (.created ⟨L "B", by decide⟩ true false ⟨2, 0, false, []⟩ (L "keys") none none)) := by
  intro hat
  have hlist := (hat (by decide +kernel)).1.2.1 (L "B", 2, none)
  have hold : (L "B", (2 : Point), none) ∉ (Hub.created ⟨L "A", by decide⟩ true false ⟨1, 0, false, []⟩ (L "keys")
      none none).trust.loaded := by decide +kernel
  have hnew := mt hlist.mp hold
  revert hnew
  decide +kernel

end TargetFacade
