/-
  TargetFacade.Hub.RetireSpec — what CloseCon and Disconnect do to a hub.

  The slices of CloseCon ask the same question again and again, so what they leave is what
  answered it every time: a connection for the peer is left when it stays at each slice of
  the budget (`Outstays`), and every other peer's connection is left (`mem_closeSlices`).
-/

import TargetFacade.Hub.Model

namespace TargetFacade

open OrdMap

/-- The connection is still on the list at every slice of the budget. -/
def Outstays (env : RetireEnv) (nSlices : Nat) (c : Con) : Prop := ∀ i ≤ nSlices, env.stays i c = true

theorem mem_slice {env : RetireEnv} {peer : WStr} {i : Nat} {cons : List Con} {c : Con} :
    c ∈ cons.filter (fun c => c.csPeer != peer || env.stays i c) ↔
      c ∈ cons ∧ (c.csPeer = peer → env.stays i c = true) := by
  simp only [List.mem_filter, Bool.or_eq_true, bne_iff_ne]
  refine and_congr_right fun _ => ⟨fun h hp => h.resolve_left (fun hn => hn hp), fun h => ?_⟩
  by_cases hp : c.csPeer = peer
  · exact Or.inr (h hp)
  · exact Or.inl hp

theorem mem_closeSlices (env : RetireEnv) (peer : WStr) : ∀ (n k : Nat) (cons : List Con),
    ((closeSlices env peer n k cons).1 = true → ∀ c ∈ (closeSlices env peer n k cons).2, c.csPeer ≠ peer) ∧
    ∀ c, c ∈ (closeSlices env peer n k cons).2 ↔
      c ∈ cons ∧ (c.csPeer = peer → ∀ i, k ≤ i → i ≤ k + n → env.stays i c = true) := by
  intro n
  induction n with
  | zero =>
    intro k cons
    refine ⟨fun h => (by simp [closeSlices] at h), fun c => ?_⟩
    rw [closeSlices, mem_slice]
    refine and_congr_right fun _ => ⟨fun h hp i h1 h2 => ?_, fun h hp => h hp k (Nat.le_refl k) (by omega)⟩
    obtain rfl : i = k := by omega
    exact h hp
  | succ n ih =>
    intro k cons
    have hslice : ∀ c, c ∈ cons.filter (fun c => c.csPeer != peer || env.stays k c) ↔
        c ∈ cons ∧ (c.csPeer = peer → env.stays k c = true) := fun c => mem_slice
    unfold closeSlices
    generalize cons.filter (fun c => c.csPeer != peer || env.stays k c) = left at hslice ⊢
    simp only
    by_cases hgone : left.any (fun c => c.csPeer == peer) = true
    · -- somebody is left: the next slice decides
      obtain ⟨hnone, hmem⟩ := ih (k + 1) left
      simp only [hgone, Bool.not_true, Bool.false_eq_true, if_false]
      refine ⟨hnone, fun c => ?_⟩
      rw [hmem, hslice, and_assoc]
      refine and_congr_right fun _ => ⟨fun h hp i h1 h2 => ?_, fun h => ?_⟩
      · rcases Nat.eq_or_lt_of_le h1 with rfl | hlt
        · exact h.1 hp
        · exact h.2 hp i hlt (by omega)
      · exact ⟨fun hp => h hp k (Nat.le_refl k) (by omega), fun hp i h1 h2 => h hp i (by omega) (by omega)⟩
    · have hnone : ∀ c ∈ left, c.csPeer ≠ peer := fun c hc hp =>
        hgone (List.any_eq_true.mpr ⟨c, hc, by simpa using hp⟩)
      simp only [hgone, Bool.not_false, if_true]
      refine ⟨fun _ => hnone, fun c => ⟨fun hc => ?_, fun h => (hslice c).mpr ⟨h.1, fun hp => ?_⟩⟩⟩
      · exact ⟨((hslice c).mp hc).1, fun hp => absurd hp (hnone c hc)⟩
      · exact h.2 hp k (Nat.le_refl k) (by omega)

/-- The connection for `peer` goes inside the budget, and On_ConClose is raised for it. -/
def ClosesOne (env : RetireEnv) (peer : WStr) (nSlices : Nat) (cons : List Con) : Prop :=
  ∃ c ∈ cons, c.csPeer = peer ∧ ¬ Outstays env nSlices c ∧ env.closes c = true

/-- What a CloseCon of `peer` leaves on a hub whose context is there. -/
structure Retracted (env : RetireEnv) (peer : WStr) (nSlices : Nat) (h : Hub) (bGone : Bool) (h' : Hub) : Prop where
  armed : h'.armed = h.armed.erase peer
  cons : ∀ c, c ∈ h'.cons ↔ c ∈ h.cons ∧ (c.csPeer = peer → Outstays env nSlices c)
  gone : bGone = true → ∀ c ∈ h'.cons, c.csPeer ≠ peer
  up : ∀ p, IsPeerUp h'.peers p = true ↔ IsPeerUp h.peers p = true ∧ (p = peer → ¬ ClosesOne env peer nSlices h.cons)
  known : ∀ p, p ≠ peer → h'.peers[p]? = h.peers[p]?
  unretired : h'.unretired = h.unretired
  address : h'.oAddress = h.oAddress
  secure : h'.bSecure = h.bSecure
  trust : h'.trust = h.trust
  handed : h'.handed = h.handed

/-- A named peer's row is written, and has changed if it said otherwise. -/
theorem markPeerLocked_named {p : WStr} (b : Bool) (m : Map WStr Bool) (hp : p ≠ []) :
    MarkPeerLocked p b m = (IsPeerUp m p != b, m.insert p b) := by
  have hp' : p.isEmpty = false := by simpa using hp
  simp [MarkPeerLocked, IsPeerUp, hp']

theorem markPeer_peers (h : Hub) {p : WStr} (b : Bool) (hp : p ≠ []) :
    (h.MarkPeer p b).peers = h.peers.insert p b := by
  simp [Hub.MarkPeer, markPeerLocked_named b h.peers hp]

theorem isPeerUp_insert (m : Map WStr Bool) (p q : WStr) (b : Bool) :
    IsPeerUp (m.insert p b) q = if p = q then b else IsPeerUp m q := by
  unfold IsPeerUp
  rw [get_insert]
  split <;> rfl

/-- What is left when the budget is spent. -/
theorem mem_budget (env : RetireEnv) (peer : WStr) (nSlices : Nat) (cons : List Con) (c : Con) :
    c ∈ (closeSlices env peer nSlices 0 cons).2 ↔ c ∈ cons ∧ (c.csPeer = peer → Outstays env nSlices c) := by
  rw [(mem_closeSlices env peer nSlices 0 cons).2]
  exact and_congr_right fun _ => ⟨fun hs hq i hi => hs hq i (Nat.zero_le i) (by omega),
    fun hs hq i _ hi => hs hq i (by omega)⟩

/-- Whether CloseCon has On_ConClose raised for the peer. -/
theorem closed_iff (env : RetireEnv) (peer : WStr) (nSlices : Nat) (cons : List Con) :
    (cons.any fun c => c.csPeer == peer && !(closeSlices env peer nSlices 0 cons).2.contains c && env.closes c) = true ↔
      ClosesOne env peer nSlices cons := by
  simp only [List.any_eq_true, Bool.and_eq_true, beq_iff_eq, Bool.not_eq_true', List.contains_eq_mem,
    decide_eq_false_iff_not, mem_budget]
  refine exists_congr fun c => and_congr_right fun hc => ?_
  refine ⟨fun hx => ⟨hx.1.1, fun ho => hx.1.2 ⟨hc, fun _ => ho⟩, hx.2⟩, fun hx => ⟨⟨hx.1, fun ho => hx.2.1 (ho.2 hx.1)⟩, hx.2.2⟩⟩

theorem closeCon_retracted (env : RetireEnv) {peer : WStr} (nSlices : Nat) (h : Hub) (hpeer : peer ≠ [])
    (halive : env.alive = true) :
    Retracted env peer nSlices h (CloseCon env peer nSlices h).1 (CloseCon env peer nSlices h).2 := by
  have hp : peer.isEmpty = false := by simpa using hpeer
  obtain ⟨hgone, -⟩ := mem_closeSlices env peer nSlices 0 h.cons
  have hmem' := mem_budget env peer nSlices h.cons
  have hcl := closed_iff env peer nSlices h.cons
  unfold CloseCon
  simp only [hp, halive, Bool.not_true, Bool.false_eq_true, if_false]
  by_cases hc : ClosesOne env peer nSlices h.cons
  · have hany := hcl.mpr hc
    rw [if_pos hany]
    refine ⟨rfl, hmem', hgone, fun p => ?_, fun p hne => ?_, rfl, rfl, rfl, rfl, rfl⟩
    · rw [markPeer_peers _ _ hpeer, isPeerUp_insert]
      by_cases he : peer = p
      · subst he; simp [hc]
      · simp [he, Ne.symm he]
    · rw [markPeer_peers _ _ hpeer, get_insert, if_neg (Ne.symm hne)]
  · have hany : ¬ _ = true := fun hx => hc (hcl.mp hx)
    rw [if_neg hany]
    exact ⟨rfl, hmem', hgone, fun p => ⟨fun hu => ⟨hu, fun _ => hc⟩, fun hu => hu.1⟩, fun _ _ => rfl, rfl, rfl, rfl,
      rfl, rfl⟩

/-- The row of the peer is written down when On_ConClose is raised for it, and no other is. -/
theorem closeCon_peers (env : RetireEnv) {peer : WStr} (nSlices : Nat) (h : Hub) (hpeer : peer ≠ []) (halive : env.alive = true) :
    (ClosesOne env peer nSlices h.cons → (CloseCon env peer nSlices h).2.peers = h.peers.insert peer false) ∧
      (¬ ClosesOne env peer nSlices h.cons → (CloseCon env peer nSlices h).2.peers = h.peers) := by
  have hp : peer.isEmpty = false := by simpa using hpeer
  have hcl := closed_iff env peer nSlices h.cons
  unfold CloseCon
  simp only [hp, halive, Bool.not_true, Bool.false_eq_true, if_false]
  constructor
  · intro hc
    rw [if_pos (hcl.mpr hc), markPeer_peers _ _ hpeer]
  · intro hc
    rw [if_neg fun hx => hc (hcl.mp hx)]

/-- A hub whose context has gone has lost its connections. -/
theorem closeCon_dead (env : RetireEnv) {peer : WStr} (nSlices : Nat) (h : Hub) (hpeer : peer ≠ [])
    (halive : env.alive = false) :
    CloseCon env peer nSlices h = (true, { h with armed := h.armed.erase peer, cons := [] }) := by
  have hp : peer.isEmpty = false := by simpa using hpeer
  simp [CloseCon, hp, halive]

/-! ## Disconnect -/

/-- What a Disconnect that finds a connection for `peer` leaves. -/
structure Disconnected (env : RetireEnv) (peer : WStr) (h h' : Hub) : Prop where
  armed : h'.armed = h.armed.erase peer
  cons : ∀ c, c ∈ h'.cons ↔ c ∈ h.cons ∧ (c.csPeer = peer → Outstays env kRetireSlices c)
  up : ∀ p, p ≠ peer → (IsPeerUp h'.peers p = true ↔ IsPeerUp h.peers p = true)
  known : ∀ p, p ≠ peer → h'.peers[p]? = h.peers[p]?
  unretired : ∀ p, p ≠ peer → (p ∈ h'.unretired ↔ p ∈ h.unretired)
  kept : (∃ c ∈ h'.cons, c.csPeer = peer) → peer ∈ h'.unretired
  secure : h'.bSecure = h.bSecure
  handed : h'.handed = h.handed

theorem disconnect_cases (env : RetireEnv) (peer : Option WStr) (h : Hub) :
    (Disconnect env peer h).2 = h ∨
      ∃ p, peer = some p ∧ p ≠ [] ∧ Disconnected env p h (Disconnect env peer h).2 := by
  unfold Disconnect
  cases peer with
  | none => exact Or.inl rfl
  | some peer =>
    by_cases h1 : peer.isEmpty = true
    · simp only [h1, if_true]; exact Or.inl trivial
    by_cases h2 : (!h.bCallerPumped && env.bOwnsPump) = true
    · simp only [h1, h2, Bool.false_eq_true, if_false, if_true]; exact Or.inl trivial
    by_cases h3 : env.alive = true
    case neg =>
      simp only [h1, h2, h3, Bool.not_false, Bool.false_eq_true, if_false, if_true]; exact Or.inl trivial
    by_cases h4 : h.ConExists peer = true
    case neg =>
      simp only [h1, h2, h3, h4, Bool.not_true, Bool.not_false, Bool.false_eq_true, if_false, if_true]
      exact Or.inl trivial
    simp only [h1, h2, h3, h4, Bool.not_true, Bool.false_eq_true, if_false]
    have hp : peer ≠ [] := by simpa using h1
    have hr := closeCon_retracted env kRetireSlices h hp h3
    generalize CloseCon env peer kRetireSlices h = r at hr ⊢
    obtain ⟨bGone, h'⟩ := r
    refine Or.inr ⟨peer, rfl, hp, ?_⟩
    -- the row it writes is the peer's own
    have hmark : ∀ p, p ≠ peer → (if IsPeerUp h.peers peer = true then h'.MarkPeer peer false else h').peers[p]? =
        h.peers[p]? := by
      intro p hne
      split
      · rw [markPeer_peers _ _ hp, get_insert, if_neg (Ne.symm hne), hr.known p hne]
      · exact hr.known p hne
    generalize hh2 : (if IsPeerUp h.peers peer = true then h'.MarkPeer peer false else h') = h2 at hmark ⊢
    have hsame : h2.armed = h'.armed ∧ h2.cons = h'.cons ∧ h2.unretired = h'.unretired ∧
        h2.bSecure = h'.bSecure ∧ h2.handed = h'.handed := by
      subst hh2; split <;> exact ⟨rfl, rfl, rfl, rfl, rfl⟩
    obtain ⟨ha, hc, hu, hs, hhd⟩ := hsame
    refine ⟨ha.trans hr.armed, fun c => ?_, fun p hne => ?_, hmark, fun p hne => ?_, fun hk => ?_, hs.trans hr.secure,
      hhd.trans hr.handed⟩
    · show c ∈ h2.cons ↔ _
      rw [hc, hr.cons]
    · show IsPeerUp h2.peers p = true ↔ _
      simp only [IsPeerUp, hmark p hne]
    · show p ∈ (if bGone then h2.unretired.erase peer else h2.unretired.insert peer) ↔ _
      rw [hu, hr.unretired]
      split <;> simp [Ne.symm hne]
    · show peer ∈ (if bGone then h2.unretired.erase peer else h2.unretired.insert peer)
      cases hg : bGone with
      | true =>
        obtain ⟨c, hc', hcp⟩ := hk
        exact absurd hcp (hr.gone hg c (hc ▸ hc'))
      | false => simp

end TargetFacade
