/-
  TargetFacade.Trust.Spec — what WriteAllowList, TrustAndEnforce and UntrustPeer can do.

  `write_cases` and `trust_cases` list every outcome with the state it leaves; the results
  about trust are read off them. A write passes when the environment answers each of its
  calls well and there is a line to write: with nothing trusted no temp file is made, so
  MoveFileEx has no source and WriteAllowList fails (`write_of_empty`).
-/

import TargetFacade.Trust.Model

namespace TargetFacade

open OrdMap

/-! ## Lines -/

theorem mem_lines {m : Map WStr SecKeys} {l : AllowLine} :
    l ∈ lines m ↔ ∃ p k, m[p]? = some k ∧ (p, k.published) = l := mem_entries (f := fun p k => (p, SecKeys.published k))

theorem lines_eq_nil {m : Map WStr SecKeys} : lines m = [] ↔ m.isEmpty = true := by
  simp [lines]

theorem mem_lines_pair {m : Map WStr SecKeys} {p : WStr} {x : Point × Option Point} :
    (p, x) ∈ lines m ↔ ∃ k, m[p]? = some k ∧ k.published = x := by
  rw [mem_lines]
  constructor
  · intro h
    obtain ⟨q, k, hk, he⟩ := h
    cases he; exact ⟨k, hk, rfl⟩
  · intro h
    obtain ⟨k, hk, rfl⟩ := h
    exact ⟨p, k, hk, rfl⟩

/-- A set with one more peer has other lines than the set without it. -/
theorem lines_insert_new {m : Map WStr SecKeys} {p : WStr} (k : SecKeys) (h : m[p]? = none) :
    ¬ ∀ l, l ∈ lines (m.insert p k) ↔ l ∈ lines m := by
  intro hall
  have hin : (p, k.published) ∈ lines (m.insert p k) := mem_lines_pair.mpr ⟨k, by simp, rfl⟩
  obtain ⟨k', hk', -⟩ := mem_lines_pair.mp ((hall _).mp hin)
  rw [h] at hk'; cases hk'

theorem sameTrust_refl (t : Trust) : SameTrust t t := ⟨rfl, fun _ => Iff.rfl, rfl⟩

/-! ## WriteAllowList -/

def WriteEnv.Takes (env : WriteEnv) (who : WStr) : Prop := env.who who = true ∧ env.append who = .IdOk

/-- Every call of a WriteAllowList of `m` answers well. -/
structure WriteEnv.Passes (env : WriteEnv) (m : Map WStr SecKeys) : Prop where
  tempPath : env.tempPath = true
  takes : ∀ p k, m[p]? = some k → env.Takes p
  move : env.move = none
  allowPath : env.allowPath = true
  load : env.load = .IdOk

/-- No call fails for a reason of its own, whatever is written. -/
def WriteEnv.Clean (env : WriteEnv) : Prop := ∀ m, env.Passes m

theorem clean_default : ({} : WriteEnv).Clean := fun _ => ⟨rfl, fun _ _ _ => ⟨rfl, rfl⟩, rfl, rfl, rfl⟩

theorem appendLines_cases (env : WriteEnv) : ∀ (l : List (WStr × SecKeys)) (temp : Option (List AllowLine)),
    ((∀ e ∈ l, env.Takes e.1) ∧ appendLines env l temp =
      (.IdOk, if l = [] then temp else some (temp.getD [] ++ l.map fun e => (e.1, e.2.published)))) ∨
    ((∃ e ∈ l, ¬ env.Takes e.1) ∧ (appendLines env l temp).1 ≠ .IdOk) := by
  intro l
  induction l with
  | nil => intro temp; exact Or.inl ⟨fun _ h => (by cases h), rfl⟩
  | cons e l ih =>
    intro temp
    obtain ⟨who, keys⟩ := e
    by_cases hw : env.who who = true
    · by_cases ha : env.append who = .IdOk
      · have hstep : appendLines env ((who, keys) :: l) temp =
            appendLines env l (some (temp.getD [] ++ [(who, keys.published)])) := by
          simp [appendLines, hw, ha]
        rw [hstep]
        rcases ih (some (temp.getD [] ++ [(who, keys.published)])) with ⟨hl, he⟩ | ⟨⟨x, hx, hn⟩, hne⟩
        · refine Or.inl ⟨fun x hx => ?_, ?_⟩
          · rcases List.mem_cons.mp hx with rfl | hx
            · exact ⟨hw, ha⟩
            · exact hl x hx
          · rw [he]
            cases l <;> simp
        · exact Or.inr ⟨⟨x, List.mem_cons_of_mem _ hx, hn⟩, hne⟩
      · refine Or.inr ⟨⟨(who, keys), List.mem_cons_self, fun h => ha h.2⟩, ?_⟩
        cases h : env.append who <;> simp_all [appendLines]
    · exact Or.inr ⟨⟨(who, keys), List.mem_cons_self, fun h => hw h.1⟩, by simp [appendLines, hw]⟩

variable (address csDir : WStr)

/-- A write passes, and the kernel's list is the lines of the set; or it fails, and nothing
    but the two files has changed. -/
theorem write_cases (env : WriteEnv) (t : Trust) :
    (env.Passes t.trusted ∧ t.trusted.isEmpty = false ∧ WriteAllowList address csDir env t =
      (.IdOk, .empty, { t with temp := none, file := some (lines t.trusted), loaded := lines t.trusted })) ∨
    ((env.Passes t.trusted → t.trusted.isEmpty = true) ∧ (WriteAllowList address csDir env t).1 ≠ .IdOk ∧
      ∃ temp file, (WriteAllowList address csDir env t).2.2 = { t with temp := temp, file := file }) := by
  unfold WriteAllowList
  by_cases hp : env.tempPath = true
  case neg => exact Or.inr ⟨fun h => absurd h.tempPath hp, by simp [hp], t.temp, t.file, by simp [hp]⟩
  simp only [hp, Bool.not_true, Bool.false_eq_true, if_false]
  rcases appendLines_cases env t.trusted.toList none with ⟨htakes, he⟩ | ⟨⟨e, hm, hn⟩, hne⟩
  case inr =>
    right
    obtain ⟨⟨r, temp⟩, hr⟩ : ∃ x, appendLines env t.trusted.toList none = x := ⟨_, rfl⟩
    rw [hr] at hne ⊢
    refine ⟨fun h => absurd (h.takes e.1 e.2 (Std.ExtTreeMap.mem_toList_iff_getElem?_eq_some.mp hm)) hn, ?_, ?_⟩
    · cases r <;> simp_all
    · cases r <;> simp_all
  rw [he]
  have htakes' : ∀ p k, t.trusted[p]? = some k → env.Takes p := fun p k h =>
    htakes (p, k) (Std.ExtTreeMap.mem_toList_iff_getElem?_eq_some.mpr h)
  by_cases hl : t.trusted.toList = []
  case pos =>
    -- nothing to append: no temp file, and the rename has no source
    rw [if_pos hl]
    exact Or.inr ⟨fun _ => toList_eq_nil_iff.mp hl, by simp, none, t.file, rfl⟩
  rw [if_neg hl]
  have hne : t.trusted.isEmpty = false := by
    cases h : t.trusted.isEmpty with
    | false => rfl
    | true => exact absurd (toList_eq_nil_iff.mpr h) hl
  cases hm : env.move with
  | some dwErr =>
    right
    exact ⟨fun h => absurd h.move (by simp [hm]), by simp, none, t.file, rfl⟩
  | none =>
    by_cases ha : env.allowPath = true
    case neg =>
      right
      exact ⟨fun h => absurd h.allowPath ha, by simp [ha], none, some (lines t.trusted), by simp [ha, lines]⟩
    by_cases hld : env.load = .IdOk
    · exact Or.inl ⟨⟨hp, htakes', hm, ha, hld⟩, hne, by simp [ha, hld, lines]⟩
    · right
      exact ⟨fun h => absurd h.load hld, by simp [ha, hld], none, some (lines t.trusted), by simp [ha, hld, lines]⟩

/-- With nothing trusted the write fails, whatever the environment answers. -/
theorem write_of_empty (env : WriteEnv) (t : Trust) (h : t.trusted.isEmpty = true) :
    (WriteAllowList address csDir env t).1 ≠ .IdOk := by
  rcases write_cases address csDir env t with ⟨-, hne, -⟩ | ⟨-, hr, -⟩
  · rw [h] at hne; cases hne
  · exact hr

/-! ## TrustAndEnforce -/

/-- The list the kernel holds after a refused TrustAndEnforce has undone its write. -/
def undoneLines (undo : WriteEnv) (m : Map WStr SecKeys) (peer : WStr) (k : SecKeys) (ls : List AllowLine) : Prop :=
  (undo.Passes m ∧ m.isEmpty = false ∧ ls = lines m) ∨
    ((undo.Passes m → m.isEmpty = true) ∧ ls = lines (m.insert peer k))

/-- The write passes over the set with the peer in it. -/
abbrev TrustEnv.Writes (env : TrustEnv) (m : Map WStr SecKeys) (peer : WStr) (k : SecKeys) : Prop :=
  env.write.Passes (m.insert peer k)

/-- The kernel's gate passes once RequireAuth is on. -/
abbrev TrustEnv.Arms (env : TrustEnv) : Prop := env.arm.answer true = .ArmOk

/-- The gate of a hub that can enforce. -/
def ArmGate.good : ArmGate := ⟨fun b => if b then .ArmOk else .ArmNotRequired, by decide, none, none⟩

/-- The gate of a hub whose revocation list has been deleted. -/
def ArmGate.noRevocation : ArmGate := ⟨fun b => if b then .ArmNoRevocation else .ArmNotRequired, by decide, none, none⟩

theorem putBack_same {m : Map WStr SecKeys} {peer : WStr} {k : SecKeys} :
    putBack (m.insert peer k) peer m[peer]? = m := putBack_insert m peer k

/-- The three ways TrustAndEnforce of a named peer ends. -/
inductive TrustOutcome (env : TrustEnv) (peer : WStr) (k : SecKeys) (t : Trust) : HRESULT → Trust → Prop
  /-- The write failed: only the files have changed. -/
  | unwritten (temp file : Option (List AllowLine)) (h : ¬ env.Writes t.trusted peer k) :
      TrustOutcome env peer k t P2PF_E_SECURITY { t with temp := temp, file := file }
  | trusted (t' : Trust) (hw : env.Writes t.trusted peer k) (ha : env.Arms)
      (htrusted : t'.trusted = t.trusted.insert peer k) (hloaded : t'.loaded = lines (t.trusted.insert peer k))
      (hauth : t'.requireAuth = true) (harm : t'.lastArm = some .ArmOk) (hgrant : t'.lastTrust = some (peer, k)) :
      TrustOutcome env peer k t S_OK t'
  /-- The gate refused: the set is put back, and the flag is what the set's emptiness says. -/
  | unarmed (t' : Trust) (hw : env.Writes t.trusted peer k) (ha : ¬ env.Arms) (htrusted : t'.trusted = t.trusted)
      (hloaded : undoneLines env.undo t.trusted peer k t'.loaded)
      (hauth : t'.requireAuth = !t.trusted.isEmpty) (hgrant : t'.lastTrust = t.lastTrust) :
      TrustOutcome env peer k t P2PF_E_SECURITY t'

theorem trust_cases (env : TrustEnv) {peer : WStr} (k : SecKeys) (t : Trust) (hpeer : peer ≠ []) :
    TrustOutcome env peer k t (TrustAndEnforce address peer k csDir env t).1
      (TrustAndEnforce address peer k csDir env t).2.2 := by
  have hp : peer.isEmpty = false := by simpa using hpeer
  unfold TrustAndEnforce
  simp only [hp, Bool.false_eq_true, if_false]
  rcases write_cases address csDir env.write { t with trusted := t.trusted.insert peer k } with
    ⟨hpass, -, hw⟩ | ⟨hfail, hne, temp, file, hw⟩
  case inr =>
    have hunw : ¬ env.Writes t.trusted peer k := by
      intro h
      have := hfail h
      simp [insert_not_isEmpty] at this
    obtain ⟨⟨r, what, t2⟩, hr⟩ :
        ∃ x, WriteAllowList address csDir env.write { t with trusted := t.trusted.insert peer k } = x := ⟨_, rfl⟩
    rw [hr] at hne hw ⊢
    have hback : RestoreTrust peer t.trusted[peer]? t2 = { t with temp := temp, file := file } := by
      have : t2 = { t with trusted := t.trusted.insert peer k, temp := temp, file := file } := hw
      subst this
      simp [RestoreTrust, putBack_same]
    cases r <;> first | exact absurd rfl hne | (simp only [hback]; exact .unwritten temp file hunw)
  rw [hw]
  simp only [Trust.RequireAuth, AuthArm]
  by_cases ha : env.arm.answer true = .ArmOk
  · simp only [ha, if_true]
    exact .trusted _ hpass ha rfl rfl rfl rfl rfl
  simp only [ha, if_false]
  -- the map is put back first, then the undo write rebuilds the list from it
  obtain ⟨t5, ht5, hbase⟩ : ∃ t5, t5 = RestoreTrust peer t.trusted[peer]?
      { t with trusted := t.trusted.insert peer k, temp := none, file := some (lines (t.trusted.insert peer k)),
               loaded := lines (t.trusted.insert peer k), requireAuth := true,
               lastArm := some (env.arm.answer true) } ∧
      t5.trusted = t.trusted ∧ t5.loaded = lines (t.trusted.insert peer k) ∧ t5.requireAuth = true ∧
        t5.lastTrust = t.lastTrust := ⟨_, rfl, putBack_same, rfl, rfl, rfl⟩
  obtain ⟨htr, hlo, hau, hgr⟩ := hbase
  rw [← ht5]
  have hundo : ∃ t6, (WriteAllowList address csDir env.undo t5).2.2 = t6 ∧ t6.trusted = t.trusted ∧
      t6.requireAuth = true ∧ t6.lastTrust = t.lastTrust ∧ undoneLines env.undo t.trusted peer k t6.loaded := by
    rcases write_cases address csDir env.undo t5 with ⟨hps, he, hr⟩ | ⟨hf, -, temp, file, hr⟩
    · rw [hr]
      rw [htr] at hps he
      exact ⟨_, rfl, htr, hau, hgr, Or.inl ⟨hps, he, by simp [htr]⟩⟩
    · rw [hr]
      rw [htr] at hf
      exact ⟨_, rfl, htr, hau, hgr, Or.inr ⟨hf, hlo⟩⟩
  obtain ⟨t6, h6, htr6, hau6, hgr6, hlo6⟩ := hundo
  simp only [h6]
  cases he : t.trusted.isEmpty with
  | true =>
    simp only [if_true]
    exact .unarmed _ hpass ha htr6 hlo6 (by simp [Trust.RelinquishSecurity, Trust.ApplyDefaultPosture, he]) hgr6
  | false =>
    simp only [Bool.false_eq_true, if_false]
    exact .unarmed _ hpass ha htr6 hlo6 (by simp [hau6, he]) hgr6

/-! ## UntrustPeer -/

/-- The set loses the peer; the list follows it exactly when the write passes. -/
theorem untrust_cases (env : WriteEnv) {peer : WStr} (t : Trust) (hpeer : peer ≠ []) :
    ∃ t', (UntrustPeer address peer csDir env t).2.2 = t' ∧ t'.trusted = t.trusted.erase peer ∧
      t'.requireAuth = t.requireAuth ∧
      ((env.Passes (t.trusted.erase peer) ∧ (t.trusted.erase peer).isEmpty = false ∧
          t'.loaded = lines (t.trusted.erase peer)) ∨
        ((env.Passes (t.trusted.erase peer) → (t.trusted.erase peer).isEmpty = true) ∧ t'.loaded = t.loaded)) := by
  have hp : peer.isEmpty = false := by simpa using hpeer
  refine ⟨_, rfl, ?_⟩
  simp only [UntrustPeer, hp, Bool.false_eq_true, if_false]
  rcases write_cases address csDir env { t with trusted := t.trusted.erase peer } with
    ⟨hps, he, hr⟩ | ⟨hf, -, temp, file, hr⟩
  · rw [hr]
    exact ⟨rfl, rfl, Or.inl ⟨hps, he, rfl⟩⟩
  · rw [hr]
    exact ⟨rfl, rfl, Or.inr ⟨hf, rfl⟩⟩

end TargetFacade
