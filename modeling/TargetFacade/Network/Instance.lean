/-
  TargetFacade.Network.Instance — what holds between the steps of Network.Lifetime, and that the
  calls through a handle keep it.

  A network that has handles is the instance (`LifeInv.used`), the instance is up (`Live`), and
  where there is no instance the thread in the lock says what is there (`Between`). The kernel runs
  the hubs of the list and those that a call has in its hands. A key in the slot is marked as held,
  or somebody is about to mark it or to give it back (`Minds`): the mark is written after the slot,
  and taken before the slot is.
-/

import TargetFacade.Lib.Counted
import TargetFacade.Network.Lifetime

namespace TargetFacade

open Function (update)
open Bag Counted

/-! ## What holds between the steps -/

/-- How many of its references to the network an activity has. -/
def NetAct.uses (n : Nat) : NetAct → Nat
  | .releasing k | .creating k | .publishing k _ | .closing k _ | .setting k _ => one k n
  | .acquiring | .called _ | .counted _ => 0

/-- The hub that it has, and whose pump runs. -/
def NetAct.runs (h : Nat) : NetAct → Nat
  | .publishing _ k | .closing _ k => one k h
  | _ => 0

/-- The handles to a network, in calls and out of them. -/
def NetProcess.uses (s : NetProcess) (n : Nat) : Nat := s.handles n + weigh (NetAct.uses n) s.acts

/-- Who is about to mark the slot as held, or to give it back. -/
def NetProcess.Minds (s : NetProcess) (n : Nat) : Prop :=
  .setting n .holding ∈ s.acts ∨ .setting n .giving ∈ s.acts ∨ ∃ failed, s.owner = some (.down n failed .giving)

/-- The network is the only one there, and the kernel is as it says; `runs` are the hubs in its
    CloseAllHubs. -/
structure NetProcess.Current (s : NetProcess) (n : Nat) (runs : Nat → Nat) : Prop where
  made : n < s.nNets
  there : (s.net n).bGone = false
  only : ∀ k, k < s.nNets → k ≠ n → (s.net k).bGone = true
  msg : s.kernel.bMsg = (s.net n).bMsgUp
  wsa : s.kernel.bWsa = (s.net n).bWsaUp
  hubs : ∀ h, s.kernel.hubs.count h = (s.net n).listHubs.count h + runs h + weigh (NetAct.runs h) s.acts

structure NetProcess.Live (s : NetProcess) (n : Nat) : Prop where
  current : s.Current n fun _ => 0
  msgUp : (s.net n).bMsgUp = true
  wsaUp : (s.net n).bWsaUp = true

structure NetProcess.Down (s : NetProcess) : Prop where
  gone : ∀ n, n < s.nNets → (s.net n).bGone = true
  msg : s.kernel.bMsg = false
  wsa : s.kernel.bWsa = false
  hubs : s.kernel.hubs = []

def DownPc.runs : DownPc → Nat → Nat
  | .closingHub h => one h
  | _ => fun _ => 0

/-- What Shutdown has done by then. -/
def DownPc.Fine (o : NetObj) : DownPc → Prop
  | .exchanging => (o.bMsgUp = true ∧ o.bWsaUp = true) ∨ (o.bWsaUp = false ∧ o.listHubs = [])
  | .giving | .waiting | .closing =>
    o.bDiagHeld = false ∧ ((o.bMsgUp = true ∧ o.bWsaUp = true) ∨ (o.bWsaUp = false ∧ o.listHubs = []))
  | .closingHub _ => o.bDiagHeld = false ∧ o.bMsgUp = true ∧ o.bWsaUp = true
  | .cleaning => o.bDiagHeld = false ∧ o.listHubs = []
  | .wsaCleaning => o.bDiagHeld = false ∧ o.listHubs = [] ∧ o.bMsgUp = false
  | .deleting => o.bDiagHeld = false ∧ o.listHubs = [] ∧ o.bMsgUp = false ∧ o.bWsaUp = false

/-- The thread in the lock leaves the instance as it is, or has just made it. -/
def Calm (n : Nat) : Option InLock → Prop
  | none | some .testing => True
  | some (.counting k) => k = n
  | _ => False

/-- Where there is no instance. -/
def NetProcess.Between (s : NetProcess) : Option InLock → Prop
  | none | some .testing => s.Down
  | some (.starting n) =>
    s.Current n (fun _ => 0) ∧ (s.net n).bMsgUp = false ∧ (s.net n).bWsaUp = false ∧ (s.net n).listHubs = []
  | some (.wsaStarting n) =>
    s.Current n (fun _ => 0) ∧ (s.net n).bMsgUp = true ∧ (s.net n).bWsaUp = false ∧ (s.net n).listHubs = []
  | some (.counting _) => False
  | some (.down n _ pc) => s.Current n pc.runs ∧ pc.Fine (s.net n)

def NetProcess.Phase (s : NetProcess) : Prop :=
  match s.pInstance with
  | some n => Calm n s.owner ∧ s.Live n
  | none => s.Between s.owner

structure LifeInv (s : NetProcess) : Prop where
  misfits : s.kernel.misfits = []
  counted : ∀ n, (s.net n).cRef = s.uses n
  used : ∀ n, 0 < s.uses n → s.pInstance = some n
  kept : ∀ n, s.pInstance = some n → s.owner ≠ some (.counting n) → 0 < s.uses n
  /-- A key in the slot is marked as held, or will be. -/
  held : ∀ n, s.slot = some n → (s.net n).bDiagHeld = true ∨ s.Minds n
  slot : ∀ n, s.slot = some n → n < s.nNets ∧ (s.net n).bGone = false
  phase : s.Phase

variable {s : NetProcess} {n : Nat}

theorem phase_of_live (hn : s.pInstance = some n) (hc : Calm n s.owner) (hl : s.Live n) : s.Phase := by
  unfold NetProcess.Phase
  rw [hn]
  exact ⟨hc, hl⟩

theorem phase_of_between (hn : s.pInstance = none) (hb : s.Between s.owner) : s.Phase := by
  unfold NetProcess.Phase
  rw [hn]
  exact hb

theorem LifeInv.calm (hi : LifeInv s) (hn : s.pInstance = some n) : Calm n s.owner ∧ s.Live n := by
  have hp := hi.phase
  unfold NetProcess.Phase at hp
  rwa [hn] at hp

theorem LifeInv.between (hi : LifeInv s) (hn : s.pInstance = none) : s.Between s.owner := by
  have hp := hi.phase
  unfold NetProcess.Phase at hp
  rwa [hn] at hp

/-- Without an instance nobody has a handle. -/
theorem LifeInv.unused (hi : LifeInv s) (hn : s.pInstance ≠ some n) : s.uses n = 0 :=
  Nat.eq_zero_of_not_pos fun hpos => hn (hi.used n hpos)

/-- An activity that minds the slot has a handle. -/
theorem uses_of_mem {a : NetAct} (ha : a ∈ s.acts) (hn : a.uses n = 1) : 0 < s.uses n := by
  have hle : a.uses n ≤ weigh (NetAct.uses n) s.acts := weigh_pos ha
  unfold NetProcess.uses
  omega

/-- The networks themselves are as they were. -/
theorem NetProcess.Between.mono {t : NetProcess} {o : Option InLock} (hb : s.Between o) (hdown : s.Down → t.Down)
    (hcur : ∀ {k : Nat} {runs : Nat → Nat}, s.Current k runs → t.Current k runs) (hnet : t.net = s.net) : t.Between o := by
  cases o with
  | none => exact hdown hb
  | some o =>
    cases o with
    | testing => exact hdown hb
    | starting k =>
      obtain ⟨hc, hfine⟩ := hb
      rw [← hnet] at hfine
      exact ⟨hcur hc, hfine⟩
    | wsaStarting k =>
      obtain ⟨hc, hfine⟩ := hb
      rw [← hnet] at hfine
      exact ⟨hcur hc, hfine⟩
    | counting k => exact hb
    | down k failed pc =>
      obtain ⟨hc, hfine⟩ := hb
      rw [← hnet] at hfine
      exact ⟨hcur hc, hfine⟩

/-- Nothing but who does what next, and who has the handles, is changed. -/
theorem LifeInv.pass (hi : LifeInv s) (acts : List NetAct) {handles : Nat → Nat} {nHubs : Nat} {answers : List NetAnswer}
    (huses : ∀ n, handles n + weigh (NetAct.uses n) acts = s.uses n)
    (hruns : ∀ h, weigh (NetAct.runs h) acts = weigh (NetAct.runs h) s.acts)
    (hminds : ∀ n pc, .setting n pc ∈ s.acts → pc = .holding ∨ pc = .giving → .setting n pc ∈ acts) :
    LifeInv { s with handles := handles, acts := acts, nHubs := nHubs, answers := answers } where
  misfits := hi.misfits
  counted n := (hi.counted n).trans (huses n).symm
  used n h := by
    have h : 0 < handles n + weigh (NetAct.uses n) acts := h
    rw [huses n] at h
    exact hi.used n h
  kept n hn ho := by
    show 0 < handles n + weigh (NetAct.uses n) acts
    rw [huses n]
    exact hi.kept n hn ho
  held n hn := by
    rcases hi.held n hn with h | h | h | h
    · exact Or.inl h
    · exact Or.inr (Or.inl (hminds n _ h (Or.inl rfl)))
    · exact Or.inr (Or.inr (Or.inl (hminds n _ h (Or.inr rfl))))
    · exact Or.inr (Or.inr (Or.inr h))
  slot := hi.slot
  phase := by
    have hcur {k : Nat} {runs : Nat → Nat} (hc : s.Current k runs) :
        NetProcess.Current { s with handles := handles, acts := acts, nHubs := nHubs, answers := answers } k runs :=
      ⟨hc.made, hc.there, hc.only, hc.msg, hc.wsa, fun h => (hc.hubs h).trans (by rw [hruns h])⟩
    obtain hn | ⟨k, hn⟩ := Option.eq_none_or_eq_some s.pInstance
    · have hb := hi.between hn
      exact phase_of_between hn (hb.mono (fun hd => ⟨hd.gone, hd.msg, hd.wsa, hd.hubs⟩) hcur rfl)
    · obtain ⟨hcalm, hl⟩ := hi.calm hn
      exact phase_of_live hn hcalm ⟨hcur hl.current, hl.msgUp, hl.wsaUp⟩

/-! ## One activity at a time -/

/-- With the activity before all others. -/
def NetProcess.doing (s : NetProcess) (a : NetAct) : NetProcess := { s with acts := a :: s.acts }

@[simp] theorem uses_doing (s : NetProcess) (a : NetAct) (n : Nat) : (s.doing a).uses n = a.uses n + s.uses n :=
  Nat.add_left_comm _ _ _

@[simp] theorem uses_put (s : NetProcess) (a : NetAct) (n : Nat) : (s.put a).uses n = s.uses n + a.uses n := by
  unfold NetProcess.uses NetProcess.put
  rw [weigh_put, Nat.add_assoc]

@[simp] theorem uses_give (s : NetProcess) (n k : Nat) : (s.give n).uses k = s.uses k + one n k := by
  show update s.handles n (s.handles n + 1) k + _ = _
  rw [update_succ, Nat.add_right_comm]
  rfl

@[simp] theorem uses_setNet (s : NetProcess) (n : Nat) (o : NetObj) (k : Nat) : (s.setNet n o).uses k = s.uses k := rfl

@[simp] theorem uses_call (s : NetProcess) (c : KernelCall) (k : Nat) : (s.call c).uses k = s.uses k := rfl

@[simp] theorem uses_goto (s : NetProcess) (o : InLock) (k : Nat) : (s.goto o).uses k = s.uses k := rfl

@[simp] theorem uses_answer (s : NetProcess) (a : NetAnswer) (k : Nat) : (s.answer a).uses k = s.uses k := rfl

theorem inv_perm (hi : LifeInv s) {acts : List NetAct} (h : s.acts.Perm acts) : LifeInv { s with acts := acts } :=
  hi.pass acts (fun n => by rw [← weigh_perm _ h]; rfl) (fun n => (weigh_perm _ h).symm) fun _ _ hm _ => h.mem_iff.mp hm

theorem inv_doing (hi : LifeInv s) {a : NetAct} (ha : a ∈ s.acts) : LifeInv ({ s with acts := s.acts.erase a }.doing a) :=
  inv_perm hi (List.perm_cons_erase ha)

theorem inv_put {a : NetAct} (hi : LifeInv (s.doing a)) : LifeInv (s.put a) :=
  inv_perm hi (List.perm_append_singleton a s.acts).symm

/-- It has no handle and no hub. -/
def NetAct.Idle (a : NetAct) : Prop := (∀ n, a.uses n = 0) ∧ ∀ h, a.runs h = 0

theorem inv_drop {a : NetAct} (ha : a.Idle) (hi : LifeInv (s.doing a)) : LifeInv s := by
  refine hi.pass s.acts (fun n => ?_) (fun h => ?_) fun n pc hm _ => ?_
  · show s.uses n = (s.doing a).uses n
    rw [uses_doing, ha.1, Nat.zero_add]
  · show _ = a.runs h + weigh (NetAct.runs h) s.acts
    rw [ha.2, Nat.zero_add]
  · rcases List.mem_cons.mp hm with rfl | hm
    · exact absurd (ha.1 n) (by rw [NetAct.uses, one_self]; exact Nat.one_ne_zero)
    · exact hm

theorem inv_add {a : NetAct} (ha : a.Idle) (hi : LifeInv s) : LifeInv (s.doing a) := by
  refine hi.pass (a :: s.acts) (fun n => ?_) (fun h => ?_) fun n pc hm _ => List.mem_cons_of_mem a hm
  · show (s.doing a).uses n = s.uses n
    rw [uses_doing, ha.1, Nat.zero_add]
  · rw [weigh_cons, ha.2, Nat.zero_add]

/-! ## Calls through a handle -/

/-- What a call through a handle leaves as it is. -/
structure SameLife (s t : NetProcess) (n : Nat) : Prop where
  nNets : t.nNets = s.nNets
  pInstance : t.pInstance = s.pInstance
  owner : t.owner = s.owner
  uses : ∀ k, t.uses k = s.uses k
  others : ∀ k, k ≠ n → t.net k = s.net k
  cRef : (t.net n).cRef = (s.net n).cRef
  gone : (t.net n).bGone = (s.net n).bGone
  msgUp : (t.net n).bMsgUp = (s.net n).bMsgUp
  wsaUp : (t.net n).bWsaUp = (s.net n).bWsaUp
  msg : t.kernel.bMsg = s.kernel.bMsg
  wsa : t.kernel.bWsa = s.kernel.bWsa
  misfits : t.kernel.misfits = s.kernel.misfits

theorem LifeInv.live_step {t : NetProcess} (hi : LifeInv s) (hn : s.pInstance = some n) (h : SameLife s t n)
    (hheld : ∀ k, t.slot = some k → (t.net k).bDiagHeld = true ∨ t.Minds k)
    (hslot : ∀ k, t.slot = some k → k = n ∨ s.slot = some k)
    (hhubs : ∀ k, t.kernel.hubs.count k = (t.net n).listHubs.count k + weigh (NetAct.runs k) t.acts) : LifeInv t := by
  obtain ⟨hcalm, hl⟩ := hi.calm hn
  have hgone (k : Nat) : (t.net k).bGone = (s.net k).bGone := by
    by_cases hk : k = n
    · rw [hk, h.gone]
    · rw [h.others k hk]
  have hcur : t.Current n fun _ => 0 := by
    refine ⟨h.nNets ▸ hl.current.made, (hgone n).trans hl.current.there, fun k hk hne => ?_, ?_, ?_, hhubs⟩
    · rw [hgone k]
      exact hl.current.only k (h.nNets ▸ hk) hne
    · rw [h.msg, h.msgUp]
      exact hl.current.msg
    · rw [h.wsa, h.wsaUp]
      exact hl.current.wsa
  constructor
  · exact h.misfits.trans hi.misfits
  · intro k
    rw [h.uses k, ← hi.counted k]
    by_cases hk : k = n
    · rw [hk, h.cRef]
    · rw [h.others k hk]
  · intro k hk
    rw [h.uses k] at hk
    exact h.pInstance.trans (hi.used k hk)
  · intro k hk ho
    rw [h.uses k]
    exact hi.kept k (h.pInstance ▸ hk) (h.owner ▸ ho)
  · exact hheld
  · intro k hk
    rw [h.nNets, hgone k]
    rcases hslot k hk with rfl | hk
    · exact ⟨hl.current.made, hl.current.there⟩
    · exact hi.slot k hk
  · exact phase_of_live (h.pInstance.trans hn) (h.owner.symm ▸ hcalm) ⟨hcur, h.msgUp.trans hl.msgUp, h.wsaUp.trans hl.wsaUp⟩

theorem call_fits {k : Kernel} {c : KernelCall} (h : k.Fits c = true) : k.call c = k.after c := by
  unfold Kernel.call
  rw [if_pos h]

theorem NetProcess.call_fits {c : KernelCall} (h : s.kernel.Fits c = true) :
    s.call c = { s with kernel := s.kernel.after c } := by
  unfold NetProcess.call
  rw [TargetFacade.call_fits h]

theorem NetProcess.Live.kernel (hl : s.Live n) : s.kernel.bMsg = true ∧ s.kernel.bWsa = true :=
  ⟨hl.current.msg.trans hl.msgUp, hl.current.wsa.trans hl.wsaUp⟩

variable {a : NetAct}

/-- It is in the instance. -/
theorem LifeInv.inst (hi : LifeInv (s.doing a)) (ha : a.uses n = 1) : s.pInstance = some n := by
  refine hi.used n ?_
  rw [uses_doing, ha]
  omega

theorem LifeInv.live (hi : LifeInv (s.doing a)) (ha : a.uses n = 1) : (s.doing a).Live n := (hi.calm (hi.inst ha)).2

/-- The hubs that run, but for the activity. -/
theorem LifeInv.hubs (hi : LifeInv (s.doing a)) (ha : a.uses n = 1) (h : Nat) :
    s.kernel.hubs.count h = (s.net n).listHubs.count h + a.runs h + weigh (NetAct.runs h) s.acts := by
  have hh : s.kernel.hubs.count h = (s.net n).listHubs.count h + 0 + (a.runs h + weigh (NetAct.runs h) s.acts) :=
    (hi.live ha).current.hubs h
  omega

/-- What is in the slot stays minded when the activity did not mind it. -/
theorem LifeInv.still {t : NetProcess} (hi : LifeInv (s.doing a)) (ha : ∀ m pc, a ≠ .setting m pc)
    (hslot : t.slot = s.slot) (hnet : ∀ k, (t.net k).bDiagHeld = (s.net k).bDiagHeld) (hacts : ∀ b ∈ s.acts, b ∈ t.acts)
    (howner : t.owner = s.owner) (k : Nat) (hk : t.slot = some k) : (t.net k).bDiagHeld = true ∨ t.Minds k := by
  have hmem {b : NetAct} (hb : b ∈ a :: s.acts) (hne : a ≠ b) : b ∈ t.acts :=
    hacts b ((List.mem_cons.mp hb).resolve_left hne.symm)
  rcases hi.held k (hslot.symm.trans hk) with h | h | h | h
  · exact Or.inl ((hnet k).trans h)
  · exact Or.inr (Or.inl (hmem h (ha k _)))
  · exact Or.inr (Or.inr (Or.inl (hmem h (ha k _))))
  · obtain ⟨failed, h⟩ := h
    exact Or.inr (Or.inr (Or.inr ⟨failed, howner.trans h⟩))

theorem inv_creating (hi : LifeInv (s.doing (.creating n))) (h : Nat) :
    LifeInv (({ s with nHubs := s.nHubs + 1 }.call (.pump h)).put (.publishing n h)) := by
  have huse : (NetAct.creating n).uses n = 1 := one_self n
  obtain ⟨hmsg, hwsa⟩ := (hi.live huse).kernel
  have hfits : s.kernel.Fits (.pump h) = true := by
    show (s.kernel.bMsg && s.kernel.bWsa) = true
    rw [show s.kernel.bMsg = true from hmsg, show s.kernel.bWsa = true from hwsa]
    rfl
  rw [NetProcess.call_fits (s := { s with nHubs := s.nHubs + 1 }) hfits]
  refine hi.live_step (hi.inst huse) ⟨rfl, rfl, rfl, fun k => ?_, fun _ _ => rfl, rfl, rfl, rfl, rfl, rfl, rfl, rfl⟩
    (hi.still nofun rfl (fun _ => rfl) (fun b hb => List.mem_append_left _ hb) rfl) (fun k hk => Or.inr hk) fun k => ?_
  · rw [uses_put, uses_doing, Nat.add_comm]
    rfl
  · have hh := hi.hubs huse k
    show (s.kernel.hubs ++ [h]).count k = (s.net n).listHubs.count k + weigh (NetAct.runs k) (s.acts ++ [.publishing n h])
    rw [count_put, weigh_put, hh]
    show _ + 0 + _ + one h k = _ + (_ + one h k)
    omega

@[simp] theorem setNet_self (s : NetProcess) (n : Nat) (o : NetObj) : (s.setNet n o).net n = o := by
  show update s.net n o n = o
  rw [Function.update_self]

theorem setNet_other {k : Nat} (hk : k ≠ n) (s : NetProcess) (o : NetObj) : (s.setNet n o).net k = s.net k := by
  show update s.net n o k = s.net k
  rw [Function.update_of_ne hk]

theorem setNet_held {o : NetObj} (h : o.bDiagHeld = (s.net n).bDiagHeld) (k : Nat) :
    ((s.setNet n o).net k).bDiagHeld = (s.net k).bDiagHeld := by
  by_cases hk : k = n
  · rw [hk, setNet_self, h]
  · rw [setNet_other hk]

/-- And the list or the mark of the network is changed. -/
theorem SameLife.setNet {t : NetProcess} {o : NetObj} (h : SameLife s t n)
    (hcRef : o.cRef = (s.net n).cRef) (hgone : o.bGone = (s.net n).bGone) (hmsg : o.bMsgUp = (s.net n).bMsgUp)
    (hwsa : o.bWsaUp = (s.net n).bWsaUp) : SameLife s (t.setNet n o) n := by
  have hself : (t.setNet n o).net n = o := setNet_self t n o
  refine ⟨h.nNets, h.pInstance, h.owner, h.uses, fun k hk => ?_, ?_, ?_, ?_, ?_, h.msg, h.wsa, h.misfits⟩
  · rw [setNet_other hk, h.others k hk]
  · rw [hself, hcRef]
  · rw [hself, hgone]
  · rw [hself, hmsg]
  · rw [hself, hwsa]

theorem inv_published {h : Nat} (hi : LifeInv (s.doing (.publishing n h))) :
    LifeInv ((s.setNet n { s.net n with listHubs := (s.net n).listHubs ++ [h] }).give n) := by
  have huse : (NetAct.publishing n h).uses n = 1 := one_self n
  refine hi.live_step (hi.inst huse) (SameLife.setNet (t := s.give n)
    ⟨rfl, rfl, rfl, fun k => ?_, fun _ _ => rfl, rfl, rfl, rfl, rfl, rfl, rfl, rfl⟩ rfl rfl rfl rfl)
    (hi.still nofun rfl (setNet_held rfl) (fun b hb => hb) rfl) (fun k hk => Or.inr hk) fun k => ?_
  · rw [uses_give, uses_doing, Nat.add_comm]
    rfl
  · have hh : s.kernel.hubs.count k = (s.net n).listHubs.count k + one h k + weigh (NetAct.runs k) s.acts := hi.hubs huse k
    show s.kernel.hubs.count k = ((s.setNet n _).net n).listHubs.count k + weigh (NetAct.runs k) s.acts
    rw [setNet_self, count_put, hh]

theorem inv_refused {h : Nat} (hi : LifeInv (s.doing (.publishing n h))) : LifeInv (s.put (.closing n h)) := by
  refine inv_put (hi.pass (.closing n h :: s.acts) (fun k => ?_) (fun k => rfl) fun k pc hm _ => ?_)
  · show (s.doing (.closing n h)).uses k = _
    rw [uses_doing, uses_doing]
    rfl
  · exact List.mem_cons_of_mem _ ((List.mem_cons.mp hm).resolve_left nofun)

theorem inv_closing {h : Nat} (hi : LifeInv (s.doing (.closing n h))) : LifeInv ((s.call (.close h true)).give n) := by
  have huse : (NetAct.closing n h).uses n = 1 := one_self n
  obtain ⟨hmsg, hwsa⟩ := (hi.live huse).kernel
  have hcount (k : Nat) : s.kernel.hubs.count k = (s.net n).listHubs.count k + one h k + weigh (NetAct.runs k) s.acts :=
    hi.hubs huse k
  have hmem : h ∈ s.kernel.hubs := by
    rw [← List.count_pos_iff, hcount h, one_self]
    omega
  have hfits : s.kernel.Fits (.close h true) = true := by
    show (s.kernel.bMsg && s.kernel.bWsa && s.kernel.hubs.contains h) = true
    rw [show s.kernel.bMsg = true from hmsg, show s.kernel.bWsa = true from hwsa, List.contains_iff_mem.mpr hmem]
    rfl
  rw [NetProcess.call_fits hfits]
  refine hi.live_step (hi.inst huse) ⟨rfl, rfl, rfl, fun k => ?_, fun _ _ => rfl, rfl, rfl, rfl, rfl, rfl, rfl, rfl⟩
    (hi.still nofun rfl (fun _ => rfl) (fun b hb => hb) rfl) (fun k hk => Or.inr hk) fun k => ?_
  · rw [uses_give, uses_doing, Nat.add_comm]
    rfl
  · have ht := count_take hmem k
    have hh := hcount k
    show (s.kernel.hubs.erase h).count k = (s.net n).listHubs.count k + weigh (NetAct.runs k) s.acts
    omega

/-! ## The slot -/

theorem setting_uses (n : Nat) (pc : SlotPc) : (NetAct.setting n pc).uses n = 1 := one_self n

theorem inv_registering (hi : LifeInv (s.doing (.setting n .registering))) :
    LifeInv ({ s with slot := some n }.put (.setting n .holding)) := by
  refine hi.live_step (hi.inst (setting_uses n _)) ⟨rfl, rfl, rfl, fun k => ?_, fun _ _ => rfl, rfl, rfl, rfl, rfl, rfl, rfl, rfl⟩
    (fun k hk => ?_) (fun k hk => Or.inl (Option.some.inj hk).symm) fun k => ?_
  · rw [uses_put, uses_doing, Nat.add_comm]
    rfl
  · obtain rfl := Option.some.inj hk
    exact Or.inr (Or.inl (List.mem_append_right _ (List.mem_singleton.mpr rfl)))
  · have hh := hi.hubs (setting_uses n _) k
    show s.kernel.hubs.count k = (s.net n).listHubs.count k + weigh (NetAct.runs k) (s.acts ++ [.setting n .holding])
    rw [weigh_put]
    exact hh.trans (Nat.add_right_comm _ _ _)

theorem inv_holding (hi : LifeInv (s.doing (.setting n .holding))) :
    LifeInv ((s.setNet n { s.net n with bDiagHeld := true }).give n) := by
  refine hi.live_step (hi.inst (setting_uses n _)) (SameLife.setNet (t := s.give n)
    ⟨rfl, rfl, rfl, fun k => ?_, fun _ _ => rfl, rfl, rfl, rfl, rfl, rfl, rfl, rfl⟩ rfl rfl rfl rfl)
    (fun k hk => ?_) (fun k hk => Or.inr hk) fun k => ?_
  · rw [uses_give, uses_doing, Nat.add_comm]
    rfl
  · -- the slot's key is the instance
    have hkn : k = n := by
      have hthere := hi.slot k hk
      by_contra hne
      have hgone := (hi.live (setting_uses n _)).current.only k hthere.1 hne
      rw [hthere.2] at hgone
      cases hgone
    subst hkn
    exact Or.inl (congrArg NetObj.bDiagHeld (setNet_self s k _))
  · have hh := hi.hubs (setting_uses n _) k
    show s.kernel.hubs.count k = ((s.setNet n _).net n).listHubs.count k + weigh (NetAct.runs k) s.acts
    rw [setNet_self]
    exact hh

theorem inv_exchanging (hi : LifeInv (s.doing (.setting n .exchanging))) :
    LifeInv (let s' := s.setNet n { s.net n with bDiagHeld := false }
      if (s.net n).bDiagHeld then s'.put (.setting n .giving) else s'.give n) := by
  have hminds {k : Nat} {t : NetProcess} (hm : (s.doing (.setting n .exchanging)).Minds k) (hacts : ∀ b ∈ s.acts, b ∈ t.acts)
      (howner : t.owner = s.owner) : t.Minds k := by
    rcases hm with h | h | h
    · exact Or.inl (hacts _ ((List.mem_cons.mp h).resolve_left nofun))
    · exact Or.inr (Or.inl (hacts _ ((List.mem_cons.mp h).resolve_left nofun)))
    · obtain ⟨failed, h⟩ := h
      exact Or.inr (Or.inr ⟨failed, howner.trans h⟩)
  have hhubs (k : Nat) := hi.hubs (setting_uses n .exchanging) k
  simp only
  split
  · refine hi.live_step (hi.inst (setting_uses n _)) (SameLife.setNet (t := s.put (.setting n .giving))
    ⟨rfl, rfl, rfl, fun k => ?_, fun _ _ => rfl, rfl, rfl, rfl, rfl, rfl, rfl, rfl⟩ rfl rfl rfl rfl)
      (fun k hk => ?_) (fun k hk => Or.inr hk) fun k => ?_
    · rw [uses_put, uses_doing, Nat.add_comm]
      rfl
    · by_cases hkn : k = n
      · subst hkn
        exact Or.inr (Or.inr (Or.inl (List.mem_append_right _ (List.mem_singleton.mpr rfl))))
      · rcases hi.held k hk with h | h
        · exact Or.inl ((congrArg NetObj.bDiagHeld (setNet_other hkn s _)).trans h)
        · exact Or.inr (hminds h (fun b hb => List.mem_append_left _ hb) rfl)
    · show s.kernel.hubs.count k =
        ((s.setNet n _).net n).listHubs.count k + weigh (NetAct.runs k) (s.acts ++ [.setting n .giving])
      rw [setNet_self, weigh_put]
      exact (hhubs k).trans (Nat.add_right_comm _ _ _)
  · rename_i hfree
    refine hi.live_step (hi.inst (setting_uses n _)) (SameLife.setNet (t := s.give n)
    ⟨rfl, rfl, rfl, fun k => ?_, fun _ _ => rfl, rfl, rfl, rfl, rfl, rfl, rfl, rfl⟩ rfl rfl rfl rfl)
      (fun k hk => ?_) (fun k hk => Or.inr hk) fun k => ?_
    · rw [uses_give, uses_doing, Nat.add_comm]
      rfl
    · rcases hi.held k hk with h | h
      · -- it was not marked
        have hkn : k ≠ n := fun he => hfree (he ▸ h)
        exact Or.inl ((congrArg NetObj.bDiagHeld (setNet_other hkn s _)).trans h)
      · exact Or.inr (hminds h (fun b hb => hb) rfl)
    · show s.kernel.hubs.count k = ((s.setNet n _).net n).listHubs.count k + weigh (NetAct.runs k) s.acts
      rw [setNet_self]
      exact hhubs k

theorem inv_giving (hi : LifeInv (s.doing (.setting n .giving))) : LifeInv ({ s with slot := none }.give n) := by
  refine hi.live_step (hi.inst (setting_uses n _)) ⟨rfl, rfl, rfl, fun k => ?_, fun _ _ => rfl, rfl, rfl, rfl, rfl, rfl, rfl, rfl⟩
    nofun nofun fun k => hi.hubs (setting_uses n _) k
  rw [uses_give, uses_doing, Nat.add_comm]
  rfl

/-! ## The lock -/

theorem NetProcess.Current.setNet {runs : Nat → Nat} {o : NetObj} (hc : s.Current n runs) (hgone : o.bGone = (s.net n).bGone)
    (hmsg : o.bMsgUp = (s.net n).bMsgUp) (hwsa : o.bWsaUp = (s.net n).bWsaUp) (hlist : o.listHubs = (s.net n).listHubs) :
    (s.setNet n o).Current n runs := by
  constructor
  · exact hc.made
  · rw [setNet_self, hgone]
    exact hc.there
  · intro k hk hne
    rw [setNet_other hne]
    exact hc.only k hk hne
  · rw [setNet_self, hmsg]
    exact hc.msg
  · rw [setNet_self, hwsa]
    exact hc.wsa
  · intro h
    rw [setNet_self, hlist]
    exact hc.hubs h

/-- The key of the slot is a network that is there. -/
theorem LifeInv.there {t : NetProcess} (hi : LifeInv s) (hslot : t.slot = s.slot) (hnNets : t.nNets = s.nNets)
    (hgone : ∀ k, (t.net k).bGone = (s.net k).bGone) (k : Nat) (hk : t.slot = some k) :
    k < t.nNets ∧ (t.net k).bGone = false := by
  rw [hnNets, hgone k]
  exact hi.slot k (hslot.symm.trans hk)

theorem setNet_gone {o : NetObj} (h : o.bGone = (s.net n).bGone) (k : Nat) :
    ((s.setNet n o).net k).bGone = (s.net k).bGone := by
  by_cases hk : k = n
  · rw [hk, setNet_self, h]
  · rw [setNet_other hk]

theorem setNet_cRef {o : NetObj} (h : o.cRef = (s.net n).cRef) (k : Nat) : ((s.setNet n o).net k).cRef = (s.net k).cRef := by
  by_cases hk : k = n
  · rw [hk, setNet_self, h]
  · rw [setNet_other hk]

theorem inv_release (hi : LifeInv (s.doing (.releasing n))) (ho : s.owner = none) : LifeInv (Release n s) := by
  have hinst : s.pInstance = some n := hi.inst (one_self n)
  have hl : (s.doing (.releasing n)).Live n := hi.live (one_self n)
  have hcRef : (s.net n).cRef - 1 = s.uses n := by
    have hc := hi.counted n
    rw [uses_doing] at hc
    have hc : (s.net n).cRef = one n n + s.uses n := hc
    rw [hc, one_self]
    omega
  have hcounted (k : Nat) : ((s.setNet n { s.net n with cRef := (s.net n).cRef - 1 }).net k).cRef = s.uses k := by
    by_cases hk : k = n
    · rw [hk, setNet_self]
      exact hcRef
    · rw [setNet_other hk]
      have hc : (s.net k).cRef = one n k + s.uses k := (hi.counted k).trans (uses_doing s _ k)
      rw [hc, one_other hk, Nat.zero_add]
  have hcur : NetProcess.Current (s.setNet n { s.net n with cRef := (s.net n).cRef - 1 }) n fun _ => 0 := by
    have hc : s.Current n fun _ => 0 :=
      ⟨hl.current.made, hl.current.there, hl.current.only, hl.current.msg, hl.current.wsa, fun h => hi.hubs (one_self n) h⟩
    exact hc.setNet rfl rfl rfl rfl
  have hmsg : ((s.setNet n { s.net n with cRef := (s.net n).cRef - 1 }).net n).bMsgUp = true := by
    rw [setNet_self]
    exact hl.msgUp
  have hwsa : ((s.setNet n { s.net n with cRef := (s.net n).cRef - 1 }).net n).bWsaUp = true := by
    rw [setNet_self]
    exact hl.wsaUp
  have hminds {k : Nat} (hk : s.slot = some k) : (s.net k).bDiagHeld = true ∨ s.Minds k :=
    hi.still (t := s) nofun rfl (fun _ => rfl) (fun b hb => hb) rfl k hk
  unfold Release
  simp only
  rw [hcRef] at hcounted hcur hmsg hwsa ⊢
  split
  · rename_i hpos
    constructor
    · exact hi.misfits
    · exact hcounted
    · intro k hk
      exact hi.used k (by rw [uses_doing]; exact Nat.add_pos_right _ hk)
    · intro k hk _
      obtain rfl : n = k := Option.some.inj (hinst.symm.trans hk)
      exact hpos
    · exact hi.still nofun rfl (setNet_held rfl) (fun b hb => hb) rfl
    · exact hi.there rfl rfl (setNet_gone rfl)
    · refine phase_of_live hinst ?_ ⟨⟨hcur.made, hcur.there, hcur.only, hcur.msg, hcur.wsa, hcur.hubs⟩, hmsg, hwsa⟩
      show Calm n s.owner
      rw [ho]
      trivial
  · rename_i hzero
    constructor
    · exact hi.misfits
    · exact hcounted
    · intro k hk
      have hk : 0 < s.uses k := hk
      obtain rfl : n = k := Option.some.inj (hinst.symm.trans (hi.used k (by rw [uses_doing]; exact Nat.add_pos_right _ hk)))
      exact absurd hk hzero
    · nofun
    · intro k hk
      rcases hminds hk with h | h | h | h
      · exact Or.inl ((setNet_held (o := { s.net n with cRef := s.uses n }) rfl k).trans h)
      · exact Or.inr (Or.inl h)
      · exact Or.inr (Or.inr (Or.inl h))
      · obtain ⟨failed, h⟩ := h
        rw [ho] at h
        cases h
    · exact hi.there rfl rfl (setNet_gone rfl)
    · exact phase_of_between rfl ⟨⟨hcur.made, hcur.there, hcur.only, hcur.msg, hcur.wsa, hcur.hubs⟩, Or.inl ⟨hmsg, hwsa⟩⟩

theorem inv_testing (hi : LifeInv s) (ho : s.owner = none) : LifeInv (s.goto .testing) := by
  constructor
  · exact hi.misfits
  · exact hi.counted
  · exact hi.used
  · intro k hk _
    exact hi.kept k hk (by rw [ho]; nofun)
  · intro k hk
    rcases hi.held k hk with h | h | h | h
    · exact Or.inl h
    · exact Or.inr (Or.inl h)
    · exact Or.inr (Or.inr (Or.inl h))
    · obtain ⟨failed, h⟩ := h
      rw [ho] at h
      cases h
  · exact hi.slot
  · obtain hn | ⟨k, hn⟩ := Option.eq_none_or_eq_some s.pInstance
    · have hb := hi.between hn
      rw [ho] at hb
      exact phase_of_between hn ⟨hb.gone, hb.msg, hb.wsa, hb.hubs⟩
    · obtain ⟨-, hl⟩ := hi.calm hn
      have hc := hl.current
      exact phase_of_live hn trivial ⟨⟨hc.made, hc.there, hc.only, hc.msg, hc.wsa, hc.hubs⟩, hl.msgUp, hl.wsaUp⟩

theorem idle_acquiring : NetAct.acquiring.Idle := ⟨fun _ => rfl, fun _ => rfl⟩

theorem idle_called (n : Nat) : (NetAct.called n).Idle := ⟨fun _ => rfl, fun _ => rfl⟩

theorem idle_counted (n : Nat) : (NetAct.counted n).Idle := ⟨fun _ => rfl, fun _ => rfl⟩

/-- If it closes a hub, the pump stops. -/
theorem inv_act (ok : Bool) (hi : LifeInv (s.doing a)) (hstops : ∀ n h, a = .closing n h → ok = true) :
    LifeInv (netActStep ok s a) := by
  cases a with
  | acquiring =>
    cases ho : s.owner with
    | some o =>
      rw [show netActStep ok s .acquiring = s.put .acquiring from if_pos (by rw [ho]; rfl)]
      exact inv_put hi
    | none =>
      rw [show netActStep ok s .acquiring = s.goto .testing from if_neg (by rw [ho]; nofun)]
      exact inv_testing (inv_drop idle_acquiring hi) ho
  | releasing n =>
    cases ho : s.owner with
    | some o =>
      rw [show netActStep ok s (.releasing n) = s.put (.releasing n) from if_pos (by rw [ho]; rfl)]
      exact inv_put hi
    | none =>
      rw [show netActStep ok s (.releasing n) = Release n s from if_neg (by rw [ho]; nofun)]
      exact inv_release hi ho
  | creating n =>
    cases ok with
    | true => exact inv_creating hi s.nHubs
    | false =>
      refine hi.pass s.acts (fun k => ?_) (fun h => ?_) fun k pc hm _ => ?_
      · show (s.give n).uses k = (s.doing (.creating n)).uses k
        rw [uses_give, uses_doing, Nat.add_comm]
        rfl
      · exact (Nat.zero_add _).symm
      · exact (List.mem_cons.mp hm).resolve_left nofun
  | publishing n h =>
    cases ok with
    | true => exact inv_published hi
    | false => exact inv_refused hi
  | closing n h =>
    rw [hstops n h rfl]
    exact inv_closing hi
  | setting n pc =>
    cases pc with
    | registering => exact inv_registering hi
    | holding => exact inv_holding hi
    | exchanging => exact inv_exchanging hi
    | giving => exact inv_giving hi
  | called n => exact inv_put (inv_add (idle_counted n) (inv_drop (idle_called n) hi))
  | counted n => exact inv_drop (idle_counted n) hi

end TargetFacade
