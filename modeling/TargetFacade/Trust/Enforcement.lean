/-
  TargetFacade.Trust.Enforcement — TrustAndEnforce on any number of threads of one secure hub.

  Each locked section, each file write, RequireAuth, AuthArm and RelinquishSecurity is one
  step; between two of them a call stands at a `TrustPc` with what it has read so far. A call
  that runs alone is the sequential TrustAndEnforce (`alone_runs_trustAndEnforce`).

  `granted` is read by no step: the peers whose call has returned S_OK and whose entry has
  been in m_mapTrusted ever since. While there is one, RequireAuth must be on. AuthArm passes
  only with the flag on, so a call that returns leaves it on; the flag goes off in
  RelinquishSecurity alone, which a call decides on what it found when it began.
-/

import Mathlib.Logic.Function.Basic
import TargetFacade.Lib.Runs
import TargetFacade.Trust.Spec

namespace TargetFacade

open OrdMap Runs
open Function (update)

/-! ## Calls -/

/-- The locals of one TrustAndEnforce. -/
structure TrustCall where
  peer : WStr
  rKeys : SecKeys
  bWasFirst : Bool
  oPrev : Option SecKeys
  rcsWhat : What

inductive TrustPc where
  | idle
  /-- The entry is in. -/
  | inserted (c : TrustCall)
  /-- WriteAllowList has its copy of the set. -/
  | copied (c : TrustCall) (mapNow : Map WStr SecKeys)
  | written (c : TrustCall)
  | required (c : TrustCall)
  | unwritten (c : TrustCall)
  | refused (c : TrustCall)
  | restored (c : TrustCall)
  | undoCopied (c : TrustCall) (mapNow : Map WStr SecKeys)
  | undone (c : TrustCall)

structure TrustSys where
  trust : Trust
  pc : Nat → TrustPc
  answers : List (Nat × HRESULT × What)
  granted : List WStr

inductive TrustSysEv where
  /-- TrustAndEnforce up to the end of its first locked section. -/
  | call (t : Nat) (peer : WStr) (rKeys : SecKeys)
  /-- The thread's next step, with what the file system or the kernel answers in it. -/
  | advance (t : Nat) (env : TrustEnv)

/-- The rest of WriteAllowList, once it has its copy of the set. -/
def WriteCopied (address csDir : WStr) (mapNow : Map WStr SecKeys) (env : WriteEnv) (t : Trust) :
    IdResult × What × Trust :=
  let r := WriteAllowList address csDir env { t with trusted := mapNow }
  (r.1, r.2.1, { r.2.2 with trusted := t.trusted })

def TrustSys.goto (s : TrustSys) (t : Nat) (pc : TrustPc) : TrustSys := { s with pc := update s.pc t pc }

def TrustSys.finish (s : TrustSys) (t : Nat) (hr : HRESULT) (rcsWhat : What) : TrustSys :=
  { s with pc := update s.pc t .idle, answers := s.answers ++ [(t, hr, rcsWhat)] }

/-- RestoreTrust; a peer whose entry it erases is granted no longer. -/
def TrustSys.restore (s : TrustSys) (c : TrustCall) : TrustSys :=
  let trust := RestoreTrust c.peer c.oPrev s.trust
  { s with trust := trust, granted := s.granted.filter trust.Trusts }

variable (address csDir : WStr)

def trustSysStep (s : TrustSys) : TrustSysEv → TrustSys
  | .call t peer rKeys =>
    match s.pc t with
    | .idle =>
      if peer.isEmpty then s.finish t E_INVALIDARG .empty
      else
        let c := ⟨peer, rKeys, s.trust.trusted.isEmpty, s.trust.trusted[peer]?, .empty⟩
        TrustSys.goto { s with trust := { s.trust with trusted := s.trust.trusted.insert peer rKeys } } t (.inserted c)
    | _ => s
  | .advance t env =>
    match s.pc t with
    | .idle => s
    | .inserted c => s.goto t (.copied c s.trust.trusted)
    | .copied c mapNow =>
      let (e, rcsWhat, trust) := WriteCopied address csDir mapNow env.write s.trust
      TrustSys.goto { s with trust := trust } t (if e = .IdOk then .written c else .unwritten { c with rcsWhat := rcsWhat })
    | .written c => TrustSys.goto { s with trust := s.trust.RequireAuth true } t (.required c)
    | .required c =>
      let (eArm, trust) := AuthArm env.arm s.trust
      if eArm = .ArmOk then
        TrustSys.finish { s with
          trust := { trust with lastTrust := some (c.peer, c.rKeys) }
          granted := if trust.Trusts c.peer then s.granted ++ [c.peer] else s.granted } t S_OK .empty
      else
        let rcsWhat := What.enforce address eArm (ArmRefusalFile env.arm eArm)
        TrustSys.goto { s with trust := trust } t (.refused { c with rcsWhat := rcsWhat })
    | .unwritten c => (s.restore c).finish t P2PF_E_SECURITY c.rcsWhat
    | .refused c => (s.restore c).goto t (.restored c)
    | .restored c => s.goto t (.undoCopied c s.trust.trusted)
    | .undoCopied c mapNow =>
      TrustSys.goto { s with trust := (WriteCopied address csDir mapNow env.undo s.trust).2.2 } t (.undone c)
    | .undone c =>
      TrustSys.finish { s with trust := if c.bWasFirst then s.trust.RelinquishSecurity else s.trust } t P2PF_E_SECURITY
        c.rcsWhat

/-- A secure hub as it is created, with no call in progress. -/
def TrustSys.created (temp file : Option (List AllowLine)) : TrustSys := ⟨Trust.created temp file, fun _ => .idle, [], []⟩

/-! ## Every granted peer is enforced for -/

/-- While the peer of a call that has returned S_OK is still in m_mapTrusted, RequireAuth is on. -/
def TrustSys.Enforced (s : TrustSys) : Prop :=
  ∀ p ∈ s.granted, (s.trust.trusted[p]?).isSome = true ∧ s.trust.requireAuth = true

/-- A call that found m_mapTrusted empty, and has been refused since, relinquishes on what it
    found, when another call has meanwhile been granted its peer. -/
def Stale (s : TrustSys) (e : TrustSysEv) : Prop :=
  ∃ t env c, e = .advance t env ∧ s.pc t = .undone c ∧ c.bWasFirst = true ∧ s.granted ≠ []

/-! ## A call alone -/

theorem write_keeps (env : WriteEnv) (t : Trust) :
    (WriteAllowList address csDir env t).2.2.trusted = t.trusted ∧
      (WriteAllowList address csDir env t).2.2.requireAuth = t.requireAuth := by
  rcases write_cases address csDir env t with ⟨-, -, hw⟩ | ⟨-, -, temp, file, hw⟩ <;> rw [hw] <;> exact ⟨rfl, rfl⟩

theorem writeCopied_keeps (mapNow : Map WStr SecKeys) (env : WriteEnv) (t : Trust) :
    (WriteCopied address csDir mapNow env t).2.2.trusted = t.trusted ∧
      (WriteCopied address csDir mapNow env t).2.2.requireAuth = t.requireAuth :=
  ⟨rfl, (write_keeps address csDir env { t with trusted := mapNow }).2⟩

/-- Nobody has changed the set since the copy. -/
theorem writeCopied_now (env : WriteEnv) (t : Trust) :
    WriteCopied address csDir t.trusted env t = WriteAllowList address csDir env t := by
  have hk := (write_keeps address csDir env t).1
  have heq : WriteCopied address csDir t.trusted env t = ((WriteAllowList address csDir env t).1,
      (WriteAllowList address csDir env t).2.1, { (WriteAllowList address csDir env t).2.2 with trusted := t.trusted }) := rfl
  rw [heq, ← hk]

@[simp] theorem TrustSys.goto_own (s : TrustSys) (t : Nat) (pc : TrustPc) : (s.goto t pc).pc t = pc :=
  Function.update_self _ _ _

@[simp] theorem TrustSys.goto_trust (s : TrustSys) (t : Nat) (pc : TrustPc) : (s.goto t pc).trust = s.trust := rfl

@[simp] theorem TrustSys.finish_own (s : TrustSys) (t : Nat) (hr : HRESULT) (w : What) : (s.finish t hr w).pc t = .idle :=
  Function.update_self _ _ _

@[simp] theorem TrustSys.restore_trust (s : TrustSys) (c : TrustCall) :
    (s.restore c).trust = RestoreTrust c.peer c.oPrev s.trust := rfl

/-- A call that has ended stays ended. -/
theorem ended_stays {s : TrustSys} {t : Nat} {env : TrustEnv} (h : s.pc t = .idle) :
    ∀ n, exec (trustSysStep address csDir) s (List.replicate n (.advance t env)) = s := by
  intro n
  induction n with
  | zero => rfl
  | succ n ih =>
    have hstep : trustSysStep address csDir s (.advance t env) = s := by simp [trustSysStep, h]
    rw [List.replicate_succ, exec_cons, hstep, ih]

/-- Alone, a call's steps are the sequential TrustAndEnforce. -/
theorem alone_runs_trustAndEnforce (s : TrustSys) (t : Nat) (peer : WStr) (rKeys : SecKeys) (env : TrustEnv)
    (h : s.pc t = .idle) :
    ∃ s', exec (trustSysStep address csDir) s (.call t peer rKeys :: List.replicate 8 (.advance t env)) = s' ∧
      s'.pc t = .idle ∧
      s'.trust = (TrustAndEnforce address peer rKeys csDir env s.trust).2.2 ∧
      s'.answers = s.answers ++ [(t, (TrustAndEnforce address peer rKeys csDir env s.trust).1,
        (TrustAndEnforce address peer rKeys csDir env s.trust).2.1)] := by
  rw [exec_cons]
  by_cases hp : peer.isEmpty = true
  · have hcall : trustSysStep address csDir s (.call t peer rKeys) = s.finish t E_INVALIDARG .empty := by
      simp [trustSysStep, h, hp]
    rw [hcall, ended_stays address csDir (by simp)]
    refine ⟨_, rfl, by simp, ?_, ?_⟩ <;> simp [TrustAndEnforce, hp, TrustSys.finish]
  have hp' : peer.isEmpty = false := by simpa using hp
  let c : TrustCall := ⟨peer, rKeys, s.trust.trusted.isEmpty, s.trust.trusted[peer]?, .empty⟩
  let t1 : Trust := { s.trust with trusted := s.trust.trusted.insert peer rKeys }
  have hcall : trustSysStep address csDir s (.call t peer rKeys) = TrustSys.goto { s with trust := t1 } t (.inserted c) := by
    simp [trustSysStep, h, hp', t1, c]
  obtain ⟨⟨r, what, t2⟩, hw⟩ : ∃ x, WriteAllowList address csDir env.write t1 = x := ⟨_, rfl⟩
  have hw' : WriteCopied address csDir t1.trusted env.write t1 = (r, what, t2) := by rw [writeCopied_now, hw]
  rw [hcall]
  by_cases hr : r = .IdOk
  case neg =>
    -- the write fails: RestoreTrust and out
    have hseq : TrustAndEnforce address peer rKeys csDir env s.trust =
        (P2PF_E_SECURITY, what, RestoreTrust peer s.trust.trusted[peer]? t2) := by
      simp only [TrustAndEnforce, hp', Bool.false_eq_true, if_false]
      rw [show WriteAllowList address csDir env.write { s.trust with trusted := s.trust.trusted.insert peer rKeys } =
        (r, what, t2) from hw]
      cases r <;> first | exact absurd rfl hr | rfl
    rw [hseq]
    show ∃ s', exec _ _ (TrustSysEv.advance t env :: .advance t env :: .advance t env :: List.replicate 5 (.advance t env)) =
      s' ∧ _
    simp only [exec_cons, trustSysStep, TrustSys.goto_own, TrustSys.goto_trust, hw', hr, if_false]
    rw [ended_stays address csDir (by simp)]
    exact ⟨_, rfl, by simp, rfl, rfl⟩
  subst hr
  have hw0 : WriteAllowList address csDir env.write { s.trust with trusted := s.trust.trusted.insert peer rKeys } =
      (.IdOk, what, t2) := hw
  by_cases harm : env.arm.answer true = .ArmOk
  · show ∃ s', exec _ _ (TrustSysEv.advance t env :: .advance t env :: .advance t env :: .advance t env ::
      List.replicate 4 (.advance t env)) = s' ∧ _
    simp only [exec_cons, trustSysStep, TrustSys.goto_own, TrustSys.goto_trust, hw', if_true, AuthArm, Trust.RequireAuth, harm]
    rw [ended_stays address csDir (by simp)]
    refine ⟨_, rfl, by simp, ?_, ?_⟩ <;>
      simp [TrustAndEnforce, hp', hw0, AuthArm, Trust.RequireAuth, harm, TrustSys.finish, TrustSys.goto, c]
  · show ∃ s', exec _ _ (TrustSysEv.advance t env :: .advance t env :: .advance t env :: .advance t env ::
      .advance t env :: .advance t env :: .advance t env :: .advance t env :: []) = s' ∧ _
    simp only [exec_cons, exec_nil, trustSysStep, TrustSys.goto_own, TrustSys.goto_trust, hw', if_true, AuthArm,
      Trust.RequireAuth, harm, if_false, TrustSys.restore_trust, writeCopied_now]
    refine ⟨_, rfl, by simp, ?_, ?_⟩ <;>
      simp [TrustAndEnforce, hp', hw0, AuthArm, Trust.RequireAuth, harm, TrustSys.finish, TrustSys.goto, TrustSys.restore, c]

/-! ## One step -/

theorem enforced_congr {s s' : TrustSys} (hg : s'.granted = s.granted) (ht : s'.trust.trusted = s.trust.trusted)
    (ha : s'.trust.requireAuth = s.trust.requireAuth) : s'.Enforced ↔ s.Enforced := by
  unfold TrustSys.Enforced
  rw [hg, ht, ha]

theorem not_stale {s : TrustSys} {t : Nat} {env : TrustEnv} (h : ∀ c, s.pc t ≠ .undone c) : ¬ Stale s (.advance t env) := by
  intro hst
  obtain ⟨t', env', c, he, hpc, -⟩ := hst
  cases he
  exact h c hpc

theorem trusts_iff {t : Trust} {p : WStr} : t.Trusts p = true → (t.trusted[p]?).isSome = true := by
  intro h
  unfold Trust.Trusts at h
  split at h
  · cases h
  · exact h

theorem restore_enforced {s : TrustSys} (h : s.Enforced) (c : TrustCall) : (s.restore c).Enforced := by
  intro p hp
  have hp' := List.mem_filter.mp hp
  exact ⟨trusts_iff hp'.2, (h p hp'.1).2⟩

/-- RelinquishSecurity, or not, on what the call found when it began. -/
theorem undone_enforced {s : TrustSys} {t : Nat} {env : TrustEnv} {c : TrustCall} (h : s.Enforced)
    (hpc : s.pc t = .undone c) :
    (trustSysStep address csDir s (.advance t env)).Enforced ↔ ¬ Stale s (.advance t env) := by
  have hst : Stale s (.advance t env) ↔ c.bWasFirst = true ∧ s.granted ≠ [] := by
    refine ⟨fun hst => ?_, fun hb => ⟨t, env, c, rfl, hpc, hb⟩⟩
    obtain ⟨t', env', c', he, hpc', hb⟩ := hst
    cases he
    rw [hpc] at hpc'
    cases hpc'
    exact hb
  rw [hst]
  simp only [trustSysStep, hpc]
  cases hb : c.bWasFirst with
  | false => exact iff_of_true h (by simp)
  | true =>
    constructor
    · intro hen hc
      obtain ⟨p, hm⟩ := List.exists_mem_of_ne_nil _ hc.2
      have hon := (hen p hm).2
      simp [TrustSys.finish, Trust.RelinquishSecurity, Trust.ApplyDefaultPosture] at hon
    · intro hc p hm
      have hnil : s.granted = [] := Classical.byContradiction fun hn => hc ⟨rfl, hn⟩
      have hm' : p ∈ s.granted := hm
      rw [hnil] at hm'
      cases hm'

/-- AuthArm passes only with the flag on, so a call that returns S_OK leaves it on. -/
theorem required_enforced {s : TrustSys} {t : Nat} {env : TrustEnv} {c : TrustCall} (h : s.Enforced)
    (hpc : s.pc t = .required c) : (trustSysStep address csDir s (.advance t env)).Enforced := by
  simp only [trustSysStep, hpc, AuthArm]
  by_cases harm : env.arm.answer s.trust.requireAuth = .ArmOk
  case neg => simp only [harm, if_false]; exact h
  case pos =>
    simp only [harm, if_true]
    have hon : s.trust.requireAuth = true := by
      cases hoff : s.trust.requireAuth with
      | true => rfl
      | false => rw [hoff] at harm; exact absurd harm env.arm.off
    intro p hm
    refine ⟨?_, hon⟩
    simp only [TrustSys.finish] at hm
    split at hm
    case isFalse => exact (h p hm).1
    case isTrue hin =>
      rcases List.mem_append.mp hm with hm | hm
      · exact (h p hm).1
      · rw [List.mem_singleton.mp hm]
        exact trusts_iff hin

theorem call_enforced {s : TrustSys} {t : Nat} {peer : WStr} {rKeys : SecKeys} (h : s.Enforced) :
    (trustSysStep address csDir s (.call t peer rKeys)).Enforced := by
  cases hpc : s.pc t with
  | idle =>
    simp only [trustSysStep, hpc]
    by_cases hp : peer.isEmpty = true
    · simp only [hp, if_true]; exact h
    · simp only [hp, Bool.false_eq_true, if_false]
      intro p hm
      obtain ⟨hin, ha⟩ := h p hm
      refine ⟨?_, ha⟩
      show ((s.trust.trusted.insert peer rKeys)[p]?).isSome = true
      rw [get_insert]
      split
      · rfl
      · exact hin
  | _ => simp only [trustSysStep, hpc]; exact h

theorem advance_enforced {s : TrustSys} {t : Nat} {env : TrustEnv} (h : s.Enforced) (hpc : ∀ c, s.pc t ≠ .undone c) :
    (trustSysStep address csDir s (.advance t env)).Enforced := by
  cases hp : s.pc t with
  | undone c => exact absurd hp (hpc c)
  | required c => exact required_enforced address csDir h hp
  | copied c mapNow =>
    simp only [trustSysStep, hp]
    obtain ⟨hk, ha⟩ := writeCopied_keeps address csDir mapNow env.write s.trust
    refine (enforced_congr ?_ ?_ ?_).mpr h
    · rfl
    · exact hk
    · exact ha
  | undoCopied c mapNow =>
    simp only [trustSysStep, hp]
    obtain ⟨hk, ha⟩ := writeCopied_keeps address csDir mapNow env.undo s.trust
    refine (enforced_congr ?_ ?_ ?_).mpr h
    · rfl
    · exact hk
    · exact ha
  | written c =>
    simp only [trustSysStep, hp]
    exact fun p hm => ⟨(h p hm).1, rfl⟩
  | unwritten c =>
    simp only [trustSysStep, hp]
    exact restore_enforced h c
  | refused c =>
    simp only [trustSysStep, hp]
    exact restore_enforced h c
  | _ => simp only [trustSysStep, hp]; exact h

theorem step_enforced (s : TrustSys) (e : TrustSysEv) (h : s.Enforced) :
    (trustSysStep address csDir s e).Enforced ↔ ¬ Stale s e := by
  cases e with
  | call t peer rKeys =>
    refine iff_of_true (call_enforced address csDir h) fun hst => ?_
    obtain ⟨t', env', c, he, -⟩ := hst
    cases he
  | advance t env =>
    by_cases hu : ∃ c, s.pc t = .undone c
    · obtain ⟨c, hpc⟩ := hu
      exact undone_enforced address csDir h hpc
    · have hpc : ∀ c, s.pc t ≠ .undone c := fun c hc => hu ⟨c, hc⟩
      exact iff_of_true (advance_enforced address csDir h hpc) (not_stale hpc)

/-! ## Runs -/

/-- RequireAuth stays on for every granted peer exactly when no call relinquishes on what
    it found before a peer was granted. -/
theorem enforcement_kept_iff (temp file : Option (List AllowLine)) (es : List TrustSysEv) :
    Always (trustSysStep address csDir) TrustSys.Enforced (.created temp file) es ↔
      Each (trustSysStep address csDir) (fun s e => ¬ Stale s e) (.created temp file) es :=
  always_iff_each (step_enforced address csDir) es fun p hp => by cases hp

/-- The first caller is refused by the gate after the second has been granted its peer. -/
theorem first_caller_opens_the_second :
    ¬ Always (trustSysStep (L "A") (L "d/")) TrustSys.Enforced (.created none none)
      ([.call 0 (L "P") ⟨1, 0, false, []⟩, .call 1 (L "Q") ⟨2, 0, false, []⟩] ++
        List.replicate 4 (.advance 1 ⟨{}, .good, {}⟩) ++ List.replicate 8 (.advance 0 ⟨{}, .noRevocation, {}⟩)) := by
  intro hall
  have hoff := (hall.last (L "Q") (by decide +kernel)).2
  revert hoff
  decide +kernel

end TargetFacade
