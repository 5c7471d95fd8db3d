/-
  TargetFacade.Trust.Agreement — the kernel's list against m_mapTrusted, over runs of
  TrustAndEnforce, UntrustPeer and RestoreTrust-plus-rewrite in which no file call fails
  for a reason of its own.

  A rewrite of a set that is not empty makes the list agree with it. A rewrite of an empty
  set writes no temp file, so the rename has no source and the old list stays in force:
  the one way to lose the agreement is a step that leaves the set empty and had an entry to
  withdraw (`Empties`), the last peer's UntrustPeer among them.
-/

import TargetFacade.Trust.Spec

namespace TargetFacade

open OrdMap Runs

inductive TrustEv where
  | trust (peer : WStr) (keys : SecKeys) (gate : ArmGate)
  | untrust (peer : WStr)
  /-- RestoreTrust, then WriteAllowList. -/
  | restore (peer : WStr) (oPrev : Option SecKeys)

variable (address csDir : WStr)

def trustStep (t : Trust) : TrustEv → Trust
  | .trust peer keys gate => (TrustAndEnforce address peer keys csDir ⟨{}, gate, {}⟩ t).2.2
  | .untrust peer => (UntrustPeer address peer csDir {} t).2.2
  | .restore peer oPrev => (WriteAllowList address csDir {} (RestoreTrust peer oPrev t)).2.2

/-- After every step the list agrees with the set; and a peer UntrustPeer has just
    withdrawn is on no line. -/
def AllowListKept (t : Trust) (es : List TrustEv) : Prop :=
  Always (trustStep address csDir) Trust.Agrees t es ∧
    Each (trustStep address csDir)
      (fun s e => ∀ p, e = .untrust p → p ≠ [] → ∀ x, (p, x) ∉ (trustStep address csDir s e).loaded) t es

/-- The step leaves the set empty and has an entry to withdraw: an UntrustPeer or a
    RestoreTrust that erases the only peer, or the first peer's TrustAndEnforce when the
    gate refuses it. -/
def Empties (t : Trust) : TrustEv → Prop
  | .trust peer _ gate => peer ≠ [] ∧ t.trusted.isEmpty = true ∧ gate.answer true ≠ .ArmOk
  | .untrust peer => peer ≠ [] ∧ t.trusted.isEmpty = false ∧ (t.trusted.erase peer).isEmpty = true
  | .restore peer oPrev => oPrev = none ∧ t.trusted.isEmpty = false ∧ (t.trusted.erase peer).isEmpty = true

/-! ## One step -/

theorem agrees_of_lines {t : Trust} (h : t.loaded = lines t.trusted) : t.Agrees := by
  intro l; rw [h]

/-- A rewrite makes the list agree, unless the set is empty: then the list is as it was. -/
theorem rewrite_cases (t : Trust) :
    ∃ t', (WriteAllowList address csDir {} t).2.2 = t' ∧ t'.trusted = t.trusted ∧
      ((t.trusted.isEmpty = false ∧ t'.loaded = lines t.trusted) ∨
        (t.trusted.isEmpty = true ∧ t'.loaded = t.loaded)) := by
  rcases write_cases address csDir {} t with ⟨-, he, hr⟩ | ⟨hf, -, temp, file, hr⟩
  · exact ⟨_, rfl, by rw [hr], Or.inl ⟨he, by rw [hr]⟩⟩
  · exact ⟨_, rfl, by rw [hr], Or.inr ⟨hf (clean_default _), by rw [hr]⟩⟩

/-- When a set that agreed with the list is emptied and the list stays, the two disagree
    exactly if the set was not empty before. -/
theorem agrees_emptied {t t' : Trust} (h : t.Agrees) (he : t'.trusted.isEmpty = true) (hl : t'.loaded = t.loaded) :
    t'.Agrees ↔ t.trusted.isEmpty = true := by
  have hnil : lines t'.trusted = [] := lines_eq_nil.mpr he
  constructor
  · intro h'
    rw [← lines_eq_nil, List.eq_nil_iff_forall_not_mem]
    intro l hm
    have := (h' l).mp (hl ▸ (h l).mpr hm)
    rw [hnil] at this; cases this
  · intro h0 l
    rw [hl, h l, lines_eq_nil.mpr h0, hnil]

/-- A rewrite after the entry of `peer` has been changed: it keeps the agreement exactly
    when it does not empty a set that had an entry. -/
theorem agrees_rewritten {t : Trust} (t1 : Trust) (h : t.Agrees) (hl : t1.loaded = t.loaded) :
    (WriteAllowList address csDir {} t1).2.2.Agrees ↔
      ¬ (t.trusted.isEmpty = false ∧ t1.trusted.isEmpty = true) := by
  obtain ⟨t', hr, htr, ⟨he, hlo⟩ | ⟨he, hlo⟩⟩ := rewrite_cases address csDir t1
  · rw [hr]
    exact ⟨fun _ hc => absurd hc.2 (by simp [he]), fun _ => agrees_of_lines (by rw [hlo, htr])⟩
  · rw [hr, agrees_emptied h (by rw [htr]; exact he) (hlo.trans hl)]
    simp [he]

theorem step_agrees (t : Trust) (e : TrustEv) (h : t.Agrees) :
    (trustStep address csDir t e).Agrees ↔ ¬ Empties t e := by
  cases e with
  | trust peer keys gate =>
    by_cases hp : peer = []
    · subst hp
      simp [trustStep, TrustAndEnforce, Empties, h]
    have hw : TrustEnv.Writes ⟨{}, gate, {}⟩ t.trusted peer keys := clean_default _
    have hout := trust_cases address csDir ⟨{}, gate, {}⟩ keys t hp
    simp only [trustStep, Empties, ne_eq, hp, not_false_eq_true, true_and]
    revert hout
    generalize (TrustAndEnforce address peer keys csDir ⟨{}, gate, {}⟩ t).1 = hr
    generalize (TrustAndEnforce address peer keys csDir ⟨{}, gate, {}⟩ t).2.2 = t'
    intro hout
    cases hout with
    | unwritten temp file hn => exact absurd hw hn
    | trusted _ _ ha htr hlo =>
      exact ⟨fun _ hc => hc.2 ha, fun _ => agrees_of_lines (by rw [hlo, htr])⟩
    | unarmed _ _ ha htr hlo =>
      rcases hlo with ⟨-, he, hlo⟩ | ⟨he, hlo⟩
      · exact ⟨fun _ hc => absurd hc.1 (by simp [he]), fun _ => agrees_of_lines (by rw [hlo, htr])⟩
      · have hemp := he (clean_default _)
        refine ⟨fun hag => ?_, fun hc => absurd ⟨hemp, ha⟩ hc⟩
        have hnone : t.trusted[peer]? = none := isEmpty_iff_get.mp hemp peer
        refine absurd (fun l => ?_) (lines_insert_new keys hnone)
        rw [← hlo, hag l, htr]
  | untrust peer =>
    by_cases hp : peer = []
    · subst hp
      simp [trustStep, UntrustPeer, Empties, h]
    have hp' : peer.isEmpty = false := by simpa using hp
    have hr := agrees_rewritten address csDir { t with trusted := t.trusted.erase peer } h rfl
    simpa [trustStep, UntrustPeer, hp', Empties, hp] using hr
  | restore peer oPrev =>
    have hr := agrees_rewritten address csDir (RestoreTrust peer oPrev t) h rfl
    rw [trustStep, hr]
    cases oPrev with
    | none => simp [RestoreTrust, putBack, Empties]
    | some k => simp [RestoreTrust, putBack, Empties, insert_not_isEmpty]

/-- A list that agrees after UntrustPeer has no line for the peer. -/
theorem untrusted_gone {t : Trust} {p : WStr} (hp : p ≠ []) (h : (trustStep address csDir t (.untrust p)).Agrees)
    (x : Point × Option Point) : (p, x) ∉ (trustStep address csDir t (.untrust p)).loaded := by
  intro hm
  obtain ⟨k, hk, -⟩ := mem_lines_pair.mp ((h _).mp hm)
  obtain ⟨t', ht', htr, -⟩ := untrust_cases address csDir {} t hp
  rw [trustStep, ht', htr] at hk
  simp at hk

/-! ## Runs -/

/-- The agreement, and the withdrawal it is for, hold after every step of a run exactly when
    no step of it empties the set. -/
theorem allow_list_kept_iff (t : Trust) (h : t.Agrees) (es : List TrustEv) :
    AllowListKept address csDir t es ↔ Each (trustStep address csDir) (fun s e => ¬ Empties s e) t es := by
  have hiff := always_iff_each (step_agrees address csDir) es h
  refine ⟨fun hk => hiff.mp hk.1, fun he => ⟨hiff.mpr he, fun k e hk p hep hp x => ?_⟩⟩
  have hag := hiff.mpr he (k + 1)
  rw [List.take_add_one, hk, Option.toList_some, exec_append] at hag
  subst hep
  exact untrusted_gone address csDir hp hag x

/-- Two peers trusted, and one of them withdrawn. -/
def twoPeersRun : List TrustEv :=
  [.trust (L "B") ⟨1, 0, false, []⟩ .good, .trust (L "C") ⟨2, 0, false, []⟩ .good, .untrust (L "B")]

theorem allow_list_kept_created :
    (AllowListKept (L "A") (L "keys") (Trust.created none none) twoPeersRun ↔
      Each (trustStep (L "A") (L "keys")) (fun s e => ¬ Empties s e) (Trust.created none none) twoPeersRun) :=
  allow_list_kept_iff _ _ _ (by intro l; simp [Trust.created, lines]) _

/-- One peer trusted and then withdrawn: the set is empty and the list still carries it. -/
theorem last_peer_stays_listed :
    ¬ AllowListKept (L "A") (L "keys") (Trust.created none none)
      [.trust (L "B") ⟨1, 0, false, []⟩ .good, .untrust (L "B")] := by
  intro h
  have hag := h.1.last
  have hm : (L "B", (1 : Point), none) ∈ (exec (trustStep (L "A") (L "keys")) (Trust.created none none)
      [.trust (L "B") ⟨1, 0, false, []⟩ .good, .untrust (L "B")]).loaded := by decide +kernel
  have hn : (exec (trustStep (L "A") (L "keys")) (Trust.created none none)
      [.trust (L "B") ⟨1, 0, false, []⟩ .good, .untrust (L "B")]).trusted.isEmpty = true := by decide +kernel
  have := (hag _).mp hm
  rw [lines_eq_nil.mpr hn] at this
  cases this

end TargetFacade
