/-
  TargetFacade.Network.Session — what s_oCSectInstance orders: Acquire with its Startup, Shutdown
  after a startup that failed or after the last Release, and what follows over whole runs.

  `LifeRight`: a network that has a handle, or a call in it, is the instance, is not deleted and has
  both halves of the kernel up; the pumps that run are those of the hubs in its list, in a call or
  in Shutdown's hands; every call into the kernel comes when it fits (nothing is started twice, no
  hub runs outside of a session, nothing is cleaned up under a hub or in the wrong order); the key
  in the slot is a network that is there; and once the last handle is back and the lock is free, all
  of it is down and deleted.

  A run keeps it exactly if no Acquire makes a network inside of a Shutdown and every CloseInternal
  stops its pump (`network_up_iff`). A client that is called from a CloseInternal in Shutdown is let
  into the lock, and gets a network whose kernel Shutdown then takes down (`nested_network`); and
  where a CloseInternal leaves a pump up, CleanupP2Pmsg comes under it (`cleaned_under_hub`).
-/

import TargetFacade.Network.Instance

namespace TargetFacade

open Function (update)
open Runs Counted

variable {s : NetProcess} {n : Nat} {a : NetAct}

/-! ## Without an instance -/

theorem NetAct.uses_of_runs {a : NetAct} {h : Nat} (hr : 0 < a.runs h) : ∃ n, a.uses n = 1 := by
  cases a with
  | publishing n k => exact ⟨n, one_self n⟩
  | closing n k => exact ⟨n, one_self n⟩
  | _ => exact absurd hr (Nat.lt_irrefl 0)

/-- Without an instance no activity has a hub. -/
theorem LifeInv.no_runs (hi : LifeInv s) (hn : s.pInstance = none) (h : Nat) : weigh (NetAct.runs h) s.acts = 0 := by
  refine weigh_zero fun a ha => Nat.eq_zero_of_not_pos fun hpos => ?_
  obtain ⟨n, hu⟩ := NetAct.uses_of_runs hpos
  have hinst := hi.used n (uses_of_mem ha hu)
  rw [hn] at hinst
  cases hinst

/-- And none sets the sink: only Shutdown still has to do with the slot. -/
theorem LifeInv.minds (hi : LifeInv s) (hn : s.pInstance = none) {k : Nat} (hm : s.Minds k) :
    ∃ failed, s.owner = some (.down k failed .giving) := by
  have hno (pc : SlotPc) (ha : .setting k pc ∈ s.acts) : False := by
    have hinst := hi.used k (uses_of_mem ha (setting_uses k pc))
    rw [hn] at hinst
    cases hinst
  rcases hm with h | h | h
  · exact (hno _ h).elim
  · exact (hno _ h).elim
  · exact h

/-- A step without an instance before it or after it. -/
theorem LifeInv.between_step {t : NetProcess} (hi : LifeInv s) (hn : s.pInstance = none) (hinst : t.pInstance = none)
    (huses : ∀ k, t.uses k = s.uses k) (hcRef : ∀ k, (t.net k).cRef = (s.net k).cRef) (hmisfits : t.kernel.misfits = [])
    (hheld : ∀ k, t.slot = some k → (t.net k).bDiagHeld = true ∨ t.Minds k)
    (hslot : ∀ k, t.slot = some k → k < t.nNets ∧ (t.net k).bGone = false) (hb : t.Between t.owner) : LifeInv t := by
  have hzero (k : Nat) : s.uses k = 0 := hi.unused (by rw [hn]; nofun)
  constructor
  · exact hmisfits
  · intro k
    rw [hcRef k, hi.counted k, huses k]
  · intro k hk
    rw [huses k, hzero k] at hk
    exact absurd hk (Nat.lt_irrefl 0)
  · intro k hk
    rw [hinst] at hk
    cases hk
  · exact hheld
  · exact hslot
  · exact phase_of_between hinst hb

/-- A step in the lock on the one network there is. -/
def NetProcess.inLock (s : NetProcess) (n : Nat) (o : NetObj) (slot : Option Nat) (k : Kernel) (own : InLock) : NetProcess :=
  { s.setNet n o with slot := slot, kernel := k, owner := some own }

theorem goto_eq_inLock (s : NetProcess) (n : Nat) (own : InLock) : s.goto own = s.inLock n (s.net n) s.slot s.kernel own := by
  unfold NetProcess.goto NetProcess.inLock NetProcess.setNet
  rw [Function.update_eq_self]

theorem inv_inLock (hi : LifeInv s) (hn : s.pInstance = none) {runs : Nat → Nat} (hc : s.Current n runs)
    (runs' : Nat → Nat) {o : NetObj} {slot : Option Nat} {k : Kernel} {own : InLock}
    (hcRef : o.cRef = (s.net n).cRef) (hgone : o.bGone = (s.net n).bGone)
    (hmisfits : k.misfits = []) (hmsg : k.bMsg = o.bMsgUp) (hwsa : k.bWsa = o.bWsaUp)
    (hhubs : ∀ h, k.hubs.count h = o.listHubs.count h + runs' h) (hslot : ∀ j, slot = some j → s.slot = some j)
    (hheld : slot = some n → o.bDiagHeld = true ∨ ∃ failed, own = .down n failed .giving)
    (hb : ∀ t : NetProcess, t.net n = o → t.Current n runs' → t.Between (some own)) : LifeInv (s.inLock n o slot k own) := by
  have hthere (j : Nat) (hj : slot = some j) : j < s.nNets ∧ ((s.setNet n o).net j).bGone = false := by
    rw [setNet_gone hgone]
    exact hi.slot j (hslot j hj)
  refine hi.between_step hn hn (fun _ => rfl) (setNet_cRef hcRef) hmisfits (fun j hj => ?_) hthere (hb _ (setNet_self s n o) ?_)
  · by_cases hjn : j = n
    · subst hjn
      rcases hheld hj with h | ⟨failed, h⟩
      · exact Or.inl ((congrArg NetObj.bDiagHeld (setNet_self s j o)).trans h)
      · exact Or.inr (Or.inr (Or.inr ⟨failed, congrArg some h⟩))
    · have hg := hc.only j (hthere j hj).1 hjn
      rw [← setNet_gone hgone j, (hthere j hj).2] at hg
      cases hg
  · have hself : (s.setNet n o).net n = o := setNet_self s n o
    refine ⟨hc.made, (setNet_gone hgone n).trans hc.there, fun j hj hne => ?_, ?_, ?_, fun h => ?_⟩
    · exact (setNet_gone hgone j).trans (hc.only j hj hne)
    · exact hmsg.trans (congrArg NetObj.bMsgUp hself).symm
    · exact hwsa.trans (congrArg NetObj.bWsaUp hself).symm
    · show k.hubs.count h = ((s.setNet n o).net n).listHubs.count h + runs' h + weigh (NetAct.runs h) s.acts
      rw [hself, hi.no_runs hn h]
      exact hhubs h

/-- The hubs that run are those of the list, and the one that is being closed. -/
theorem LifeInv.lists (hi : LifeInv s) (hn : s.pInstance = none) {runs : Nat → Nat} (hc : s.Current n runs) (h : Nat) :
    s.kernel.hubs.count h = (s.net n).listHubs.count h + runs h := by
  rw [hc.hubs h, hi.no_runs hn h, Nat.add_zero]

theorem LifeInv.no_hubs (hi : LifeInv s) (hn : s.pInstance = none) {runs : Nat → Nat} (hc : s.Current n runs)
    (hruns : ∀ h, runs h = 0) (hlist : (s.net n).listHubs = []) : s.kernel.hubs = [] := by
  rw [List.eq_nil_iff_forall_not_mem]
  intro h hm
  have hpos := List.count_pos_iff.mpr hm
  rw [hi.lists hn hc h, hlist, hruns h] at hpos
  exact absurd hpos (Nat.lt_irrefl 0)

/-- The thread in the lock goes on to its next stage, and does nothing else. -/
theorem inv_goes_on (hi : LifeInv s) (hn : s.pInstance = none) (hc : s.Current n fun _ => 0) {own : InLock}
    (hmark : s.slot = some n → (s.net n).bDiagHeld = true)
    (hb : ∀ t : NetProcess, t.net n = s.net n → t.Current n (fun _ => 0) → t.Between (some own)) : LifeInv (s.goto own) := by
  rw [goto_eq_inLock s n]
  exact inv_inLock hi hn hc (fun _ => 0) rfl rfl hi.misfits hc.msg hc.wsa (hi.lists hn hc) (fun _ hj => hj)
    (fun hk => Or.inl (hmark hk)) hb

/-- Outside of its two steps with the slot, the key is marked. -/
theorem LifeInv.marked (hi : LifeInv s) (hn : s.pInstance = none) (ho : ∀ failed, s.owner ≠ some (.down n failed .giving))
    (hk : s.slot = some n) : (s.net n).bDiagHeld = true := by
  rcases hi.held n hk with h | h
  · exact h
  · obtain ⟨failed, h⟩ := hi.minds hn h
    exact absurd h (ho failed)

theorem inv_starting (ok : Bool) (hi : LifeInv s) (ho : s.owner = some (.starting n)) (hn : s.pInstance = none) :
    LifeInv (lockedStep ok s (.starting n)) := by
  have hb := hi.between hn
  rw [ho] at hb
  obtain ⟨hc, hmsg, hwsa, hlist⟩ := hb
  have hfits : s.kernel.Fits (.StartupP2Pmsg ok) = true := by
    show (!s.kernel.bMsg && !s.kernel.bWsa) = true
    rw [hc.msg, hmsg, hc.wsa, hwsa]
    rfl
  show LifeInv (s.inLock n _ s.slot (s.kernel.call (.StartupP2Pmsg ok)) _)
  rw [call_fits hfits]
  refine inv_inLock hi hn hc (fun _ => 0) rfl rfl hi.misfits rfl hc.wsa (hi.lists hn hc) (fun _ hj => hj)
    (fun hk => Or.inl (hi.marked hn (by rw [ho]; nofun) hk)) fun t hself hct => ?_
  cases ok with
  | true =>
    refine ⟨hct, ?_⟩
    rw [hself]
    exact ⟨rfl, hwsa, hlist⟩
  | false =>
    refine ⟨hct, ?_⟩
    rw [hself]
    exact Or.inr ⟨hwsa, hlist⟩

theorem inv_wsaStarting (ok : Bool) (hi : LifeInv s) (ho : s.owner = some (.wsaStarting n)) (hn : s.pInstance = none) :
    LifeInv (lockedStep ok s (.wsaStarting n)) := by
  have hb := hi.between hn
  rw [ho] at hb
  obtain ⟨hc, hmsg, hwsa, hlist⟩ := hb
  have hfits : s.kernel.Fits (.WSAStartup ok) = true := by
    show (s.kernel.bMsg && !s.kernel.bWsa) = true
    rw [hc.msg, hmsg, hc.wsa, hwsa]
    rfl
  have hmark (hk : s.slot = some n) : (s.net n).bDiagHeld = true := hi.marked hn (by rw [ho]; nofun) hk
  cases ok with
  | false =>
    show LifeInv (s.inLock n _ s.slot (s.kernel.call (.WSAStartup false)) _)
    rw [call_fits hfits]
    refine inv_inLock hi hn hc (fun _ => 0) rfl rfl hi.misfits hc.msg rfl (hi.lists hn hc) (fun _ hj => hj)
      (fun hk => Or.inl (hmark hk)) fun t hself hct => ⟨hct, ?_⟩
    rw [hself]
    exact Or.inr ⟨rfl, hlist⟩
  | true =>
    -- the network is the instance from here on, and the thread still in the lock
    have hup : LifeInv
        (s.inLock n { s.net n with bWsaUp := true } s.slot (s.kernel.call (.WSAStartup true)) (.down n true .exchanging)) := by
      rw [call_fits hfits]
      refine inv_inLock hi hn hc (fun _ => 0) rfl rfl hi.misfits hc.msg rfl (hi.lists hn hc) (fun _ hj => hj)
        (fun hk => Or.inl (hmark hk)) fun t hself hct => ⟨hct, ?_⟩
      rw [hself]
      exact Or.inl ⟨hmsg, rfl⟩
    have hbu := hup.between hn
    constructor
    · exact hup.misfits
    · exact hup.counted
    · intro k hk
      have hinst := hi.used k hk
      rw [hn] at hinst
      cases hinst
    · intro k hk hne
      exact absurd (congrArg (fun o => some (InLock.counting o)) (Option.some.inj hk)) hne
    · intro k hk
      rcases hup.held k hk with h | h
      · exact Or.inl h
      · obtain ⟨failed, h⟩ := hup.minds hn h
        cases h
    · exact hup.slot
    · obtain ⟨hcu, hfine⟩ := hbu
      have hself : (s.setNet n { s.net n with bWsaUp := true }).net n = { s.net n with bWsaUp := true } := setNet_self _ _ _
      exact phase_of_live rfl rfl ⟨⟨hcu.made, hcu.there, hcu.only, hcu.msg, hcu.wsa, hcu.hubs⟩,
        (congrArg NetObj.bMsgUp hself).trans hmsg, congrArg NetObj.bWsaUp hself⟩

theorem leave_last (hout : s.outer = []) : s.leave = { s with owner := none } := by
  unfold NetProcess.leave
  rw [hout]

theorem inv_counting (ok : Bool) (hi : LifeInv s) (hout : s.outer = []) (ho : s.owner = some (.counting n))
    (hn : s.pInstance = some n) : LifeInv (lockedStep ok s (.counting n)) := by
  obtain ⟨-, hl⟩ := hi.calm hn
  have hc := hl.current.setNet (o := { s.net n with cRef := (s.net n).cRef + 1 }) rfl rfl rfl rfl
  have hself : (s.setNet n { s.net n with cRef := (s.net n).cRef + 1 }).net n = { s.net n with cRef := (s.net n).cRef + 1 } :=
    setNet_self _ _ _
  show LifeInv (((s.setNet n { s.net n with cRef := (s.net n).cRef + 1 }).give n).leave.answer _)
  rw [leave_last (s := (s.setNet n _).give n) hout]
  constructor
  · exact hi.misfits
  · intro k
    show ((s.setNet n { s.net n with cRef := (s.net n).cRef + 1 }).net k).cRef = (s.give n).uses k
    rw [uses_give]
    by_cases hk : k = n
    · rw [hk, hself, one_self, ← hi.counted n]
    · rw [setNet_other hk, one_other hk, hi.counted k, Nat.add_zero]
  · intro k hk
    have hk : 0 < (s.give n).uses k := hk
    rw [uses_give] at hk
    by_cases hkn : k = n
    · rw [hkn]
      exact hn
    · rw [one_other hkn] at hk
      exact hi.used k hk
  · intro k hk _
    obtain rfl : n = k := Option.some.inj (hn.symm.trans hk)
    show 0 < (s.give n).uses n
    rw [uses_give, one_self]
    omega
  · intro k hk
    rcases hi.held k hk with h | h | h | h
    · exact Or.inl ((setNet_held (o := { s.net n with cRef := (s.net n).cRef + 1 }) rfl k).trans h)
    · exact Or.inr (Or.inl h)
    · exact Or.inr (Or.inr (Or.inl h))
    · obtain ⟨failed, h⟩ := h
      rw [ho] at h
      cases h
  · exact hi.there rfl rfl (setNet_gone rfl)
  · exact phase_of_live hn trivial ⟨⟨hc.made, hc.there, hc.only, hc.msg, hc.wsa, hc.hubs⟩,
      (congrArg NetObj.bMsgUp hself).trans hl.msgUp, (congrArg NetObj.bWsaUp hself).trans hl.wsaUp⟩

theorem inv_tested (ok : Bool) (hi : LifeInv s) (ho : s.owner = some .testing) : LifeInv (lockedStep ok s .testing) := by
  obtain hn | ⟨n, hn⟩ := Option.eq_none_or_eq_some s.pInstance
  · have hb := hi.between hn
    rw [ho] at hb
    have hd : s.Down := hb
    -- no network is there, so the slot is empty
    have hslot (k : Nat) : s.slot ≠ some k := fun hk => by
      have hg := hd.gone k (hi.slot k hk).1
      rw [(hi.slot k hk).2] at hg
      cases hg
    have hzero (k : Nat) : (s.net k).cRef = 0 := (hi.counted k).trans (hi.unused (by rw [hn]; nofun))
    have heq : lockedStep ok s .testing = { s.setNet s.nNets .new with nNets := s.nNets + 1 }.goto (.starting s.nNets) := by
      unfold lockedStep
      simp only
      rw [hn]
    rw [heq]
    have hself : (s.setNet s.nNets .new).net s.nNets = .new := setNet_self _ _ _
    refine hi.between_step hn hn (fun _ => rfl) (fun k => ?_) hi.misfits (fun k hk => absurd hk (hslot k))
      (fun k hk => absurd hk (hslot k)) ⟨⟨Nat.lt_succ_self _, ?_, fun k hk hne => ?_, ?_, ?_, fun h => ?_⟩, ?_, ?_, ?_⟩
    · by_cases hk : k = s.nNets
      · rw [hzero k, hk]
        exact congrArg NetObj.cRef hself
      · exact congrArg NetObj.cRef (setNet_other hk s .new)
    · exact congrArg NetObj.bGone hself
    · exact (congrArg NetObj.bGone (setNet_other hne s .new)).trans (hd.gone k (by have : k < s.nNets + 1 := hk; omega))
    · exact hd.msg.trans (congrArg NetObj.bMsgUp hself).symm
    · exact hd.wsa.trans (congrArg NetObj.bWsaUp hself).symm
    · show s.kernel.hubs.count h = ((s.setNet s.nNets .new).net s.nNets).listHubs.count h + 0 + weigh (NetAct.runs h) s.acts
      rw [hself, hd.hubs, hi.no_runs hn h]
      rfl
    · exact congrArg NetObj.bMsgUp hself
    · exact congrArg NetObj.bWsaUp hself
    · exact congrArg NetObj.listHubs hself
  · obtain ⟨-, hl⟩ := hi.calm hn
    have hc := hl.current
    have heq : lockedStep ok s .testing = s.goto (.counting n) := by
      unfold lockedStep
      simp only
      rw [hn]
    rw [heq]
    constructor
    · exact hi.misfits
    · exact hi.counted
    · exact hi.used
    · intro k hk _
      exact hi.kept k hk (by rw [ho]; nofun)
    · intro k hk
      rcases hi.held k hk with h | h | h | h
      · exact Or.inl h
      · exact Or.inr (Or.inl h)
      · exact Or.inr (Or.inr (Or.inl h))
      · obtain ⟨failed, h⟩ := h
        rw [ho] at h
        cases h
    · exact hi.slot
    · exact phase_of_live hn rfl ⟨⟨hc.made, hc.there, hc.only, hc.msg, hc.wsa, hc.hubs⟩, hl.msgUp, hl.wsaUp⟩

/-! ## Shutdown -/

theorem inv_cleaning (ok failed : Bool) (hi : LifeInv s) (ho : s.owner = some (.down n failed .cleaning)) (hn : s.pInstance = none) :
    LifeInv (Shutdown n failed ok s .cleaning) := by
  have hb := hi.between hn
  rw [ho] at hb
  obtain ⟨hc, hheld, hlist⟩ := hb
  have hhubs : s.kernel.hubs = [] := hi.no_hubs hn hc (fun _ => rfl) hlist
  have hcount (h : Nat) : s.kernel.hubs.count h = (s.net n).listHubs.count h + 0 := hi.lists hn hc h
  have hmark (hk : s.slot = some n) : (s.net n).bDiagHeld = true := hi.marked hn (by rw [ho]; nofun) hk
  unfold Shutdown
  simp only
  split
  · rename_i hmsg
    have hfits : s.kernel.Fits .CleanupP2Pmsg = true := by
      show (s.kernel.bMsg && s.kernel.hubs.isEmpty) = true
      rw [hc.msg, hmsg, hhubs]
      rfl
    show LifeInv (s.inLock n _ s.slot (s.kernel.call .CleanupP2Pmsg) _)
    rw [call_fits hfits]
    refine inv_inLock hi hn hc (fun _ => 0) rfl rfl hi.misfits rfl hc.wsa hcount (fun _ hj => hj)
      (fun hk => Or.inl (hmark hk)) fun t hself hct => ⟨hct, ?_⟩
    rw [hself]
    exact ⟨hheld, hlist, rfl⟩
  · rename_i hmsg
    refine inv_goes_on hi hn hc hmark fun t hself hct => ⟨hct, ?_⟩
    rw [hself]
    exact ⟨hheld, hlist, Bool.eq_false_iff.mpr hmsg⟩

theorem inv_wsaCleaning (ok failed : Bool) (hi : LifeInv s) (ho : s.owner = some (.down n failed .wsaCleaning))
    (hn : s.pInstance = none) : LifeInv (Shutdown n failed ok s .wsaCleaning) := by
  have hb := hi.between hn
  rw [ho] at hb
  obtain ⟨hc, hheld, hlist, hmsg⟩ := hb
  have hcount (h : Nat) : s.kernel.hubs.count h = (s.net n).listHubs.count h + 0 := hi.lists hn hc h
  have hmark (hk : s.slot = some n) : (s.net n).bDiagHeld = true := hi.marked hn (by rw [ho]; nofun) hk
  unfold Shutdown
  simp only
  split
  · rename_i hwsa
    have hfits : s.kernel.Fits .WSACleanup = true := by
      show (s.kernel.bWsa && !s.kernel.bMsg) = true
      rw [hc.msg, hmsg, hc.wsa, hwsa]
      rfl
    show LifeInv (s.inLock n _ s.slot (s.kernel.call .WSACleanup) _)
    rw [call_fits hfits]
    refine inv_inLock hi hn hc (fun _ => 0) rfl rfl hi.misfits hc.msg rfl hcount (fun _ hj => hj)
      (fun hk => Or.inl (hmark hk)) fun t hself hct => ⟨hct, ?_⟩
    rw [hself]
    exact ⟨hheld, hlist, hmsg, rfl⟩
  · rename_i hwsa
    refine inv_goes_on hi hn hc hmark fun t hself hct => ⟨hct, ?_⟩
    rw [hself]
    exact ⟨hheld, hlist, hmsg, Bool.eq_false_iff.mpr hwsa⟩

theorem inv_deleting (ok failed : Bool) (hi : LifeInv s) (hout : s.outer = []) (ho : s.owner = some (.down n failed .deleting))
    (hn : s.pInstance = none) : LifeInv (Shutdown n failed ok s .deleting) := by
  have hb := hi.between hn
  rw [ho] at hb
  obtain ⟨hc, hheld, hlist, hmsg, hwsa⟩ := hb
  -- the slot has been given back
  have hslot (k : Nat) : s.slot ≠ some k := fun hk => by
    obtain ⟨hmade, hthere⟩ := hi.slot k hk
    by_cases hkn : k = n
    · subst hkn
      have hmark := hi.marked hn (by rw [ho]; nofun) hk
      rw [hheld] at hmark
      cases hmark
    · rw [hc.only k hmade hkn] at hthere
      cases hthere
  show LifeInv ((s.setNet n { s.net n with bGone := true }).leave.answer _)
  rw [leave_last (s := s.setNet n _) hout]
  refine hi.between_step hn hn (fun _ => rfl) (setNet_cRef rfl) hi.misfits (fun k hk => absurd hk (hslot k))
    (fun k hk => absurd hk (hslot k)) ⟨fun k hk => ?_, hc.msg.trans hmsg, hc.wsa.trans hwsa, hi.no_hubs hn hc (fun _ => rfl) hlist⟩
  by_cases hkn : k = n
  · rw [hkn]
    exact congrArg NetObj.bGone (setNet_self s n { s.net n with bGone := true })
  · exact (congrArg NetObj.bGone (setNet_other hkn s _)).trans (hc.only k hk hkn)

/-- If it closes a hub, the pump stops. -/
theorem inv_shutdown (ok failed : Bool) {pc : DownPc} (hi : LifeInv s) (hout : s.outer = []) (ho : s.owner = some (.down n failed pc))
    (hn : s.pInstance = none) (hstops : ∀ h, pc = .closingHub h → ok = true) : LifeInv (Shutdown n failed ok s pc) := by
  have hb := hi.between hn
  rw [ho] at hb
  obtain ⟨hc, hfine⟩ := hb
  have hcount (h : Nat) : s.kernel.hubs.count h = (s.net n).listHubs.count h + pc.runs h := hi.lists hn hc h
  have hmark (hpc : pc ≠ .giving) (hk : s.slot = some n) : (s.net n).bDiagHeld = true :=
    hi.marked hn (fun f hf => by rw [ho] at hf; cases hf; exact hpc rfl) hk
  cases pc with
  | exchanging =>
    show LifeInv (s.inLock n _ s.slot s.kernel _)
    refine inv_inLock hi hn hc (fun _ => 0) rfl rfl hi.misfits hc.msg hc.wsa hcount (fun _ hj => hj) (fun hk => ?_)
      fun t hself hct => ?_
    · rw [hmark nofun hk]
      exact Or.inr ⟨failed, rfl⟩
    · cases (s.net n).bDiagHeld <;> refine ⟨hct, ?_⟩ <;> rw [hself] <;> exact ⟨rfl, hfine⟩
  | giving =>
    show LifeInv ({ s with slot := none }.goto _)
    rw [goto_eq_inLock _ n]
    show LifeInv (s.inLock n (s.net n) none s.kernel _)
    refine inv_inLock hi hn hc (fun _ => 0) rfl rfl hi.misfits hc.msg hc.wsa hcount nofun nofun
      fun t hself hct => ⟨hct, ?_⟩
    rw [hself]
    exact hfine
  | waiting =>
    unfold Shutdown
    simp only
    split
    · refine inv_goes_on hi hn hc (hmark nofun) fun t hself hct => ⟨hct, ?_⟩
      rw [hself]
      exact hfine
    · exact hi
  | closing =>
    unfold Shutdown
    simp only
    split
    · rename_i hlist
      refine inv_goes_on hi hn hc (hmark nofun) fun t hself hct => ⟨hct, ?_⟩
      rw [hself]
      exact ⟨hfine.1, hlist⟩
    · rename_i h rest hlist
      -- a hub is in the list, so the startup did not fail
      have hup : (s.net n).bMsgUp = true ∧ (s.net n).bWsaUp = true :=
        hfine.2.resolve_right fun hnone => by
          rw [hlist] at hnone
          cases hnone.2
      show LifeInv (s.inLock n _ s.slot s.kernel _)
      refine inv_inLock hi hn hc (one h) rfl rfl hi.misfits hc.msg hc.wsa (fun k => ?_) (fun _ hj => hj)
        (fun hk => Or.inl (hmark nofun hk)) fun t hself hct => ⟨hct, ?_⟩
      · rw [hcount k, hlist, ← (List.perm_append_singleton h rest).count_eq k, count_put]
        rfl
      · rw [hself]
        exact ⟨hfine.1, hup⟩
  | closingHub h =>
    obtain ⟨hheld, hmsg, hwsa⟩ := hfine
    have hmem : h ∈ s.kernel.hubs := by
      rw [← List.count_pos_iff, hcount h]
      show 0 < _ + one h h
      rw [one_self]
      omega
    have hfits : s.kernel.Fits (.close h true) = true := by
      show (s.kernel.bMsg && s.kernel.bWsa && s.kernel.hubs.contains h) = true
      rw [hc.msg, hmsg, hc.wsa, hwsa, List.contains_iff_mem.mpr hmem]
      rfl
    rw [hstops h rfl]
    show LifeInv ((s.call (.close h true)).goto _)
    rw [NetProcess.call_fits hfits, goto_eq_inLock _ n]
    refine inv_inLock hi hn hc (fun _ => 0) rfl rfl hi.misfits hc.msg hc.wsa (fun k => ?_) (fun _ hj => hj)
      (fun hk => Or.inl (hmark nofun hk)) fun t hself hct => ⟨hct, ?_⟩
    · have ht := count_take hmem k
      have hk : s.kernel.hubs.count k = (s.net n).listHubs.count k + one h k := hcount k
      show (s.kernel.hubs.erase h).count k = (s.net n).listHubs.count k + 0
      omega
    · rw [hself]
      exact ⟨hheld, Or.inl ⟨hmsg, hwsa⟩⟩
  | cleaning => exact inv_cleaning ok failed hi ho hn
  | wsaCleaning => exact inv_wsaCleaning ok failed hi ho hn
  | deleting => exact inv_deleting ok failed hi hout ho hn

theorem inv_locked (ok : Bool) {o : InLock} (hi : LifeInv s) (hout : s.outer = []) (ho : s.owner = some o)
    (hstops : ∀ n failed h, o = .down n failed (.closingHub h) → ok = true) : LifeInv (lockedStep ok s o) := by
  obtain hn | ⟨k, hn⟩ := Option.eq_none_or_eq_some s.pInstance
  · have hb := hi.between hn
    rw [ho] at hb
    cases o with
    | testing => exact inv_tested ok hi ho
    | starting n => exact inv_starting ok hi ho hn
    | wsaStarting n => exact inv_wsaStarting ok hi ho hn
    | counting n => exact hb.elim
    | down n failed pc => exact inv_shutdown ok failed hi hout ho hn fun h hpc => hstops n failed h (by rw [hpc])
  · have hcalm := (hi.calm hn).1
    rw [ho] at hcalm
    cases o with
    | testing => exact inv_tested ok hi ho
    | counting n =>
      obtain rfl : n = k := hcalm
      exact inv_counting ok hi hout ho hn
    | starting n => exact hcalm.elim
    | wsaStarting n => exact hcalm.elim
    | down n failed pc => exact hcalm.elim

/-! ## The runs -/

theorem uses_through (hpos : 0 < s.handles n) {a : NetAct} (ha : ∀ k, a.uses k = one n k) (k : Nat) :
    update s.handles n (s.handles n - 1) k + weigh (NetAct.uses k) (s.acts ++ [a]) = s.uses k := by
  have hp := update_pred hpos k
  have hu : s.uses k = s.handles k + weigh (NetAct.uses k) s.acts := rfl
  rw [weigh_put, ha k]
  omega

theorem inv_through (hi : LifeInv s) (ha : ∀ k, a.uses k = one n k) (hruns : ∀ h, a.runs h = 0) : LifeInv (s.through n a) := by
  unfold NetProcess.through
  split
  · exact hi
  · rename_i hpos
    refine hi.pass (s.acts ++ [a]) (uses_through (Nat.pos_of_ne_zero hpos) ha) (fun h => ?_)
      fun k pc hm _ => List.mem_append_left _ hm
    rw [weigh_put, hruns h, Nat.add_zero]

theorem inv_closeHub {h : Nat} (hi : LifeInv s) (hpos : 0 < s.handles n) (hm : h ∈ (s.net n).listHubs) :
    LifeInv ((s.setNet n { s.net n with listHubs := (s.net n).listHubs.erase h }).through n (.closing n h)) := by
  have hinst : s.pInstance = some n := hi.used n (Nat.add_pos_left hpos _)
  have heq (t : NetProcess) (ht : 0 < t.handles n) : t.through n (.closing n h) =
      { t with handles := update t.handles n (t.handles n - 1) }.put (.closing n h) := if_neg (Nat.ne_of_gt ht)
  rw [heq (s.setNet n _) hpos]
  have hsame : SameLife s ({ s with handles := update s.handles n (s.handles n - 1) }.put (.closing n h)) n :=
    ⟨rfl, rfl, rfl, uses_through hpos fun _ => rfl, fun _ _ => rfl, rfl, rfl, rfl, rfl, rfl, rfl, rfl⟩
  refine hi.live_step hinst (hsame.setNet rfl rfl rfl rfl)
    (fun k hk => ?_) (fun k hk => Or.inr hk) fun k => ?_
  · have hmem {b : NetAct} (hb : b ∈ s.acts) : b ∈ s.acts ++ [.closing n h] := List.mem_append_left _ hb
    rcases hi.held k hk with hd | hd | hd | hd
    · exact Or.inl ((setNet_held (o := { s.net n with listHubs := (s.net n).listHubs.erase h }) rfl k).trans hd)
    · exact Or.inr (Or.inl (hmem hd))
    · exact Or.inr (Or.inr (Or.inl (hmem hd)))
    · exact Or.inr (Or.inr (Or.inr hd))
  · have hh := (hi.calm hinst).2.current.hubs k
    have ht := count_take hm k
    show s.kernel.hubs.count k = ((s.setNet n { s.net n with listHubs := (s.net n).listHubs.erase h }).net n).listHubs.count k +
      weigh (NetAct.runs k) (s.acts ++ [.closing n h])
    rw [setNet_self, weigh_put]
    show _ = ((s.net n).listHubs.erase h).count k + (_ + one h k)
    omega

/-- What is not done in the lock. -/
def LifeEv.Open : LifeEv → Prop
  | .locked _ | .callback _ => False
  | _ => True

/-- Every CloseInternal stops the pump of its hub. -/
def PumpsStop (s : NetProcess) : LifeEv → Prop
  | .locked ok => ∀ n failed h, s.owner = some (.down n failed (.closingHub h)) → ok = true
  | .act a ok => ∀ n h, a = .closing n h → a ∈ s.acts → ok = true
  | _ => True

theorem inv_open (s : NetProcess) {e : LifeEv} (he : e.Open) (hstops : PumpsStop s e) (hi : LifeInv s) : LifeInv (lifeStep s e) := by
  cases e with
  | createNetwork abiVersion =>
    unfold lifeStep P2PF_CreateNetwork
    simp only
    split
    · exact hi.pass s.acts (fun _ => rfl) (fun _ => rfl) fun _ _ hm _ => hm
    · exact inv_put (inv_add idle_acquiring hi)
  | release n => exact inv_through hi (fun _ => rfl) fun _ => rfl
  | createHub n => exact inv_through hi (fun _ => rfl) fun _ => rfl
  | closeHub n h =>
    unfold lifeStep
    simp only
    split
    · rename_i hcan
      exact inv_closeHub hi hcan.1 hcan.2
    · exact hi
  | setDiagSink n bSink => exact inv_through hi (fun _ => rfl) fun _ => rfl
  | raise =>
    unfold lifeStep
    simp only
    split
    · exact hi
    · exact inv_put (inv_add (idle_called _) hi)
  | locked ok => exact he.elim
  | callback a => exact he.elim
  | act a ok =>
    unfold lifeStep
    simp only
    split
    · rename_i ha
      exact inv_act ok (inv_doing hi ha) fun n h heq => hstops n h heq ha
    · exact hi

/-- With another thread in the lock, or the same one somewhere else. -/
def NetProcess.inside (s : NetProcess) (o : InLock) (outer : List InLock) : NetProcess := { s with owner := some o, outer := outer }

theorem through_inside (s : NetProcess) (n : Nat) (a : NetAct) (o : InLock) (outer : List InLock) :
    (s.inside o outer).through n a = (s.through n a).inside o outer := by
  unfold NetProcess.through NetProcess.inside
  simp only
  split <;> rfl

theorem act_inside (ok : Bool) (s : NetProcess) (ho : s.owner.isSome = true) (a : NetAct) (o : InLock) (outer : List InLock) :
    netActStep ok (s.inside o outer) a = (netActStep ok s a).inside o outer := by
  cases a with
  | acquiring =>
    unfold netActStep
    simp only
    rw [if_pos ho]
    rfl
  | releasing n =>
    unfold netActStep
    simp only
    rw [if_pos ho]
    rfl
  | creating n => cases ok <;> rfl
  | publishing n h => cases ok <;> rfl
  | closing n h => rfl
  | setting n pc =>
    cases pc with
    | registering => rfl
    | holding => rfl
    | exchanging =>
      unfold netActStep NetProcess.inside
      simp only
      split <;> rfl
    | giving => rfl
  | called n => rfl
  | counted n => rfl

/-- Outside of the lock nobody sees who is in it, but that somebody is. -/
theorem open_inside (s : NetProcess) {e : LifeEv} (he : e.Open) (ho : s.owner.isSome = true) (o : InLock) (outer : List InLock) :
    lifeStep (s.inside o outer) e = (lifeStep s e).inside o outer := by
  cases e with
  | createNetwork abiVersion =>
    unfold lifeStep P2PF_CreateNetwork
    simp only
    split <;> rfl
  | release n => exact through_inside s n _ o outer
  | createHub n => exact through_inside s n _ o outer
  | closeHub n h =>
    unfold lifeStep
    simp only
    by_cases hcan : 0 < s.handles n ∧ h ∈ (s.net n).listHubs
    · rw [if_pos hcan, if_pos (show 0 < (s.inside o outer).handles n ∧ h ∈ ((s.inside o outer).net n).listHubs from hcan)]
      exact through_inside (s.setNet n _) n _ o outer
    · rw [if_neg hcan, if_neg (show ¬ (0 < (s.inside o outer).handles n ∧ h ∈ ((s.inside o outer).net n).listHubs) from hcan)]
  | setDiagSink n bSink => exact through_inside s n _ o outer
  | raise =>
    unfold lifeStep NetProcess.inside
    simp only
    split <;> rfl
  | locked ok => exact he.elim
  | callback a => exact he.elim
  | act a ok =>
    unfold lifeStep
    simp only
    by_cases ha : a ∈ s.acts
    · rw [if_pos ha, if_pos (show a ∈ (s.inside o outer).acts from ha)]
      exact act_inside ok { s with acts := s.acts.erase a } ho a o outer
    · rw [if_neg ha, if_neg (show a ∉ (s.inside o outer).acts from ha)]

theorem through_outer (s : NetProcess) (n : Nat) (a : NetAct) : (s.through n a).outer = s.outer := by
  unfold NetProcess.through
  split <;> rfl

theorem act_outer (ok : Bool) (s : NetProcess) (a : NetAct) : (netActStep ok s a).outer = s.outer := by
  cases a with
  | acquiring =>
    unfold netActStep
    simp only
    split <;> rfl
  | releasing n =>
    unfold netActStep Release
    simp only
    split
    · rfl
    · split <;> rfl
  | setting n pc =>
    cases pc with
    | exchanging =>
      unfold netActStep
      simp only
      split <;> rfl
    | _ => rfl
  | creating n => cases ok <;> rfl
  | publishing n h => cases ok <;> rfl
  | _ => rfl

theorem open_outer (s : NetProcess) {e : LifeEv} (he : e.Open) : (lifeStep s e).outer = s.outer := by
  cases e with
  | createNetwork abiVersion =>
    unfold lifeStep P2PF_CreateNetwork
    simp only
    split <;> rfl
  | release n => exact through_outer s n _
  | createHub n => exact through_outer s n _
  | closeHub n h =>
    unfold lifeStep
    simp only
    split
    · exact through_outer _ n _
    · rfl
  | setDiagSink n bSink => exact through_outer s n _
  | raise =>
    unfold lifeStep
    simp only
    split <;> rfl
  | locked ok => exact he.elim
  | callback a => exact he.elim
  | act a ok =>
    unfold lifeStep
    simp only
    split
    · exact act_outer ok _ a
    · rfl

theorem shutdown_outer (ok failed : Bool) (pc : DownPc) (hout : s.outer = []) : (Shutdown n failed ok s pc).outer = [] := by
  cases pc with
  | deleting =>
    show (s.setNet n { s.net n with bGone := true }).leave.outer = []
    rw [leave_last (s := s.setNet n _) hout]
    exact hout
  | _ =>
    unfold Shutdown
    simp only
    first
      | exact hout
      | split <;> exact hout

theorem locked_outer (ok : Bool) (o : InLock) (hout : s.outer = []) : (lockedStep ok s o).outer = [] := by
  cases o with
  | testing =>
    unfold lockedStep
    simp only
    split <;> exact hout
  | starting n => exact hout
  | wsaStarting n => cases ok <;> exact hout
  | counting n =>
    show ((s.setNet n { s.net n with cRef := (s.net n).cRef + 1 }).give n).leave.outer = []
    rw [leave_last (s := (s.setNet n _).give n) hout]
    exact hout
  | down n failed pc => exact shutdown_outer ok failed pc hout

/-- A client that was called from Shutdown is about to find no instance. -/
def NetProcess.Nested (s : NetProcess) (o : InLock) : Prop :=
  s.owner = some .testing ∧ s.outer = [o] ∧ LifeInv (s.inside o [])

/-- At most one call is in another. -/
def LifeGood (s : NetProcess) : Prop :=
  (s.outer = [] ∧ LifeInv s) ∨ ∃ n failed h, s.Nested (.down n failed (.closingHub h))

/-- No Acquire makes a network inside of a Shutdown. -/
def NoNested (s : NetProcess) : LifeEv → Prop
  | .locked _ => s.owner = some .testing → s.pInstance = none → s.outer = []
  | _ => True

theorem down_no_inst (hi : LifeInv s) {failed : Bool} {pc : DownPc} (ho : s.owner = some (.down n failed pc)) :
    s.pInstance = none := by
  rw [Option.eq_none_iff_forall_ne_some]
  intro m hm
  have hcalm := (hi.calm hm).1
  rw [ho] at hcalm
  exact hcalm

theorem good_callback (hi : LifeInv (s.doing a)) (hout : s.outer = []) : LifeGood (callbackStep s a) := by
  have hput : LifeGood (s.put a) := Or.inl ⟨hout, inv_put hi⟩
  unfold callbackStep
  split
  · rename_i n failed h ho
    refine Or.inr ⟨n, failed, h, rfl, congrArg (List.cons _) hout, ?_⟩
    have hsame : (({ s with outer := .down n failed (.closingHub h) :: s.outer }.goto .testing).inside
        (.down n failed (.closingHub h)) []) = s := by
      unfold NetProcess.inside NetProcess.goto
      rw [← hout, ← ho]
    rw [hsame]
    exact inv_drop idle_acquiring hi
  · -- nobody has a handle to release
    rename_i n failed h k ho
    have hinst := hi.inst (n := k) (one_self k)
    have hnone : s.pInstance = none := down_no_inst (s := s.doing (.releasing k)) hi ho
    rw [hnone] at hinst
    cases hinst
  · exact hput

/-- Neither an Acquire makes a network inside of a Shutdown, nor is a pump left up. -/
def StepsRight (s : NetProcess) (e : LifeEv) : Prop := NoNested s e ∧ PumpsStop s e

theorem good_step (s : NetProcess) (e : LifeEv) (hs : LifeGood s) (he : StepsRight s e) : LifeGood (lifeStep s e) := by
  obtain ⟨he, hstops⟩ := he
  rcases hs with ⟨hout, hi⟩ | ⟨n, failed, h, ho, hout, hi⟩
  · have hopen {e : LifeEv} (he : e.Open) (hstops : PumpsStop s e) : LifeGood (lifeStep s e) :=
      Or.inl ⟨(open_outer s he).trans hout, inv_open s he hstops hi⟩
    cases e with
    | locked ok =>
      unfold lifeStep
      simp only
      split
      · exact Or.inl ⟨hout, hi⟩
      · rename_i o ho
        refine Or.inl ⟨locked_outer ok _ hout, inv_locked ok hi hout ho fun n failed h heq => ?_⟩
        exact hstops n failed h (by rw [ho, heq])
    | callback a =>
      unfold lifeStep
      simp only
      split
      · exact good_callback (inv_doing hi ‹_›) hout
      · exact Or.inl ⟨hout, hi⟩
    | _ => exact hopen trivial hstops
  · have hopen {e : LifeEv} (he : e.Open) (hstops : PumpsStop (s.inside (.down n failed (.closingHub h)) []) e) :
        LifeGood (lifeStep s e) := by
      have hself : s = (s.inside (.down n failed (.closingHub h)) []).inside .testing [.down n failed (.closingHub h)] := by
        unfold NetProcess.inside
        rw [← ho, ← hout]
      rw [hself, open_inside _ he rfl]
      refine Or.inr ⟨n, failed, h, rfl, rfl, ?_⟩
      have hnext := inv_open _ he hstops hi
      have hsame := open_inside (s.inside (.down n failed (.closingHub h)) []) he rfl (.down n failed (.closingHub h)) []
      rw [show (s.inside (.down n failed (.closingHub h)) []).inside (.down n failed (.closingHub h)) [] =
        s.inside (.down n failed (.closingHub h)) [] from rfl] at hsame
      rw [hsame] at hnext
      exact hnext
    cases e with
    | locked ok =>
      rw [he ho (down_no_inst (s := s.inside _ []) hi rfl)] at hout
      cases hout
    | callback a =>
      unfold lifeStep
      simp only
      split
      · rename_i ha
        have hput : callbackStep { s with acts := s.acts.erase a } a = { s with acts := s.acts.erase a }.put a := by
          unfold callbackStep
          simp only
          rw [ho]
        rw [hput]
        exact Or.inr ⟨n, failed, h, ho, hout, inv_put (inv_doing hi ha)⟩
      · exact Or.inr ⟨n, failed, h, ho, hout, hi⟩
    | act a ok => exact hopen trivial hstops
    | _ => exact hopen trivial trivial

theorem inv_started : LifeInv .started := by
  constructor
  · rfl
  · exact fun _ => rfl
  · intro n hn
    exact absurd hn (Nat.lt_irrefl 0)
  · nofun
  · nofun
  · nofun
  · exact ⟨fun n hn => absurd hn (Nat.not_lt_zero n), rfl, rfl, rfl⟩

def InLock.runs (h : Nat) : InLock → Nat
  | .down _ _ pc => pc.runs h
  | _ => 0

/-- The hubs that Shutdown has in its hands. -/
def NetProcess.downRuns (s : NetProcess) (h : Nat) : Nat := weigh (InLock.runs h) (s.owner.toList ++ s.outer)

/-- Who has a handle or is in a call finds the network and the kernel up, and what nobody uses is down. -/
structure LifeRight (s : NetProcess) : Prop where
  misfits : s.kernel.misfits = []
  counted : ∀ n, (s.net n).cRef = s.uses n
  up : ∀ n, 0 < s.uses n →
    s.pInstance = some n ∧ n < s.nNets ∧ (s.net n).bGone = false ∧ s.kernel.bMsg = true ∧ s.kernel.bWsa = true
  only : ∀ m n, m < s.nNets → n < s.nNets → (s.net m).bGone = false → (s.net n).bGone = false → m = n
  /-- The pumps that run are those of the hubs in the list, in a call and in Shutdown's hands. -/
  hubs : ∀ n, n < s.nNets → (s.net n).bGone = false →
    ∀ h, s.kernel.hubs.count h = (s.net n).listHubs.count h + s.downRuns h + weigh (NetAct.runs h) s.acts
  slot : ∀ n, s.slot = some n → n < s.nNets ∧ (s.net n).bGone = false
  down : s.owner = none → (∀ n, s.uses n = 0) →
    s.slot = none ∧ s.kernel = .down ∧ ∀ n, n < s.nNets → (s.net n).bGone = true

/-- A network that is there is the only one. -/
theorem LifeInv.current (hi : LifeInv s) (hout : s.outer = []) (hn : n < s.nNets) (hg : (s.net n).bGone = false) :
    s.Current n s.downRuns := by
  have hcur {k : Nat} {runs : Nat → Nat} (hc : s.Current k runs) (hruns : ∀ h, s.downRuns h = runs h) : s.Current n s.downRuns := by
    have heq : n = k := by
      by_contra hne
      rw [hc.only n hn hne] at hg
      cases hg
    rw [heq, funext hruns]
    exact hc
  have hdown (hd : s.Down) : s.Current n s.downRuns := by
    rw [hd.gone n hn] at hg
    cases hg
  have hone {o : InLock} (ho : s.owner = some o) (h : Nat) : s.downRuns h = o.runs h := by
    unfold NetProcess.downRuns
    rw [ho, hout]
    exact Nat.add_zero _
  obtain hinst | ⟨k, hinst⟩ := Option.eq_none_or_eq_some s.pInstance
  · have hb := hi.between hinst
    cases ho : s.owner with
    | none =>
      rw [ho] at hb
      exact hdown hb
    | some o =>
      rw [ho] at hb
      cases o with
      | testing => exact hdown hb
      | starting k => exact hcur hb.1 (hone ho)
      | wsaStarting k => exact hcur hb.1 (hone ho)
      | counting k => exact hb.elim
      | down k failed pc => exact hcur hb.1 (hone ho)
  · obtain ⟨hcalm, hl⟩ := hi.calm hinst
    refine hcur hl.current fun h => ?_
    cases ho : s.owner with
    | none =>
      unfold NetProcess.downRuns
      rw [ho, hout]
      rfl
    | some o =>
      rw [ho] at hcalm
      cases o with
      | testing | counting k => exact hone ho h
      | starting | wsaStarting | down => exact hcalm.elim

theorem right_of_inv (s : NetProcess) (hi : LifeInv s) (hout : s.outer = []) : LifeRight s where
  misfits := hi.misfits
  counted := hi.counted
  up n hn := by
    have hinst := hi.used n hn
    have hl := (hi.calm hinst).2
    exact ⟨hinst, hl.current.made, hl.current.there, hl.kernel⟩
  only m n hm hn hgm hgn := by
    by_contra hne
    rw [(hi.current hout hn hgn).only m hm hne] at hgm
    cases hgm
  hubs n hn hg := (hi.current hout hn hg).hubs
  slot := hi.slot
  down ho hzero := by
    have hinst : s.pInstance = none := by
      rw [Option.eq_none_iff_forall_ne_some]
      intro n hn
      have hpos := hi.kept n hn (by rw [ho]; nofun)
      rw [hzero n] at hpos
      exact absurd hpos (Nat.lt_irrefl 0)
    have hb := hi.between hinst
    rw [ho] at hb
    have hd : s.Down := hb
    refine ⟨?_, ?_, hd.gone⟩
    · rw [Option.eq_none_iff_forall_ne_some]
      intro n hn
      have hg := hd.gone n (hi.slot n hn).1
      rw [(hi.slot n hn).2] at hg
      cases hg
    · have heta : s.kernel = ⟨s.kernel.bMsg, s.kernel.bWsa, s.kernel.hubs, s.kernel.misfits⟩ := rfl
      rw [heta, hd.msg, hd.wsa, hd.hubs, hi.misfits]
      rfl

theorem right_of_good (s : NetProcess) (hs : LifeGood s) : LifeRight s := by
  rcases hs with ⟨hout, hi⟩ | ⟨n, failed, h, ho, hout, hi⟩
  · exact right_of_inv s hi hout
  · have hr := right_of_inv _ hi rfl
    have hruns (k : Nat) : s.downRuns k = (s.inside (.down n failed (.closingHub h)) []).downRuns k := by
      unfold NetProcess.downRuns
      rw [ho, hout]
      exact Nat.zero_add _
    refine ⟨hr.misfits, hr.counted, hr.up, hr.only, fun m hm hg k => ?_, hr.slot, fun hnone => by rw [ho] at hnone; cases hnone⟩
    rw [hruns k]
    exact hr.hubs m hm hg k

/-- A step that leaves one network is not an Acquire inside of a Shutdown. -/
theorem nested_of_right (s : NetProcess) (e : LifeEv) (hs : LifeGood s) (hnext : LifeRight (lifeStep s e)) : NoNested s e := by
  cases e with
  | locked ok =>
    intro ho hinst
    rcases hs with ⟨hout, -⟩ | ⟨n, failed, h, -, hout, hi⟩
    · exact hout
    · -- the network that goes is still there, next to the one that is made
      have hstep : lifeStep s (.locked ok) = { s.setNet s.nNets .new with nNets := s.nNets + 1 }.goto (.starting s.nNets) := by
        unfold lifeStep lockedStep
        simp only
        rw [ho]
        simp only
        rw [hinst]
      rw [hstep] at hnext
      have hc := (hi.between hinst).1
      have hne : n ≠ s.nNets := Nat.ne_of_lt hc.made
      have hgone : ((s.setNet s.nNets .new).net n).bGone = false := by
        rw [setNet_other hne]
        exact hc.there
      have hnew : ((s.setNet s.nNets .new).net s.nNets).bGone = false := by rw [setNet_self]; rfl
      exact absurd (hnext.only n s.nNets (Nat.lt_succ_of_lt hc.made) (Nat.lt_succ_self _) hgone hnew) hne
  | _ => trivial

/-- A CloseInternal that leaves the pump up leaves as many in hand. -/
theorem in_hand_of_left_up {t : NetProcess} {h : Nat} (hr : LifeRight s) (hnext : LifeRight t) (hn : n < s.nNets)
    (hg : (s.net n).bGone = false) (hnets : t.nNets = s.nNets) (hnet : t.net = s.net)
    (hkernel : t.kernel = s.kernel.call (.close h false)) :
    t.downRuns h + weigh (NetAct.runs h) t.acts = s.downRuns h + weigh (NetAct.runs h) s.acts := by
  have hbefore := hr.hubs n hn hg h
  have hafter := hnext.hubs n (hnets ▸ hn) (by rw [hnet]; exact hg) h
  have hkept : t.kernel = s.kernel := by
    have hfits := hnext.misfits
    rw [hkernel] at hfits ⊢
    unfold Kernel.call at hfits ⊢
    split
    · rfl
    · rename_i hno
      rw [if_neg hno] at hfits
      simp at hfits
  rw [hkept, hnet] at hafter
  omega

theorem pumpsStop_of_right (s : NetProcess) (e : LifeEv) (hs : LifeGood s) (hnext : LifeRight (lifeStep s e)) : PumpsStop s e := by
  have hr := right_of_good s hs
  cases e with
  | locked ok =>
    intro n failed h ho
    cases ok with
    | true => rfl
    | false =>
      rcases hs with ⟨hout, hi⟩ | ⟨_, _, _, hot, -, -⟩
      · -- the hub is no longer in Shutdown's hands
        have hstep : lifeStep s (.locked false) = (s.call (.close h false)).goto (.down n failed .closing) := by
          unfold lifeStep
          simp only
          rw [ho]
          rfl
        rw [hstep] at hnext
        have hb := hi.between (down_no_inst hi ho)
        rw [ho] at hb
        have hsame := in_hand_of_left_up hr hnext hb.1.made hb.1.there rfl rfl rfl
        have hruns : s.downRuns h = 1 := by
          unfold NetProcess.downRuns
          rw [ho, hout]
          exact one_self h
        have hnone : ((s.call (.close h false)).goto (.down n failed .closing)).downRuns h = 0 := by
          unfold NetProcess.downRuns
          rw [show ((s.call (.close h false)).goto (.down n failed .closing)).outer = [] from hout]
          rfl
        rw [hruns, hnone] at hsame
        have hacts : ((s.call (.close h false)).goto (.down n failed .closing)).acts = s.acts := rfl
        rw [hacts] at hsame
        omega
      · rw [ho] at hot
        cases hot
  | act a ok =>
    rintro n h rfl ha
    cases ok with
    | true => rfl
    | false =>
      -- nor is it in the call
      have hstep : lifeStep s (.act (.closing n h) false) =
          ({ s with acts := s.acts.erase (.closing n h) }.call (.close h false)).give n := if_pos ha
      rw [hstep] at hnext
      obtain ⟨-, hmade, hthere, -⟩ := hr.up n (uses_of_mem ha (one_self n))
      have hsame : s.downRuns h + weigh (NetAct.runs h) (s.acts.erase (.closing n h)) =
          s.downRuns h + weigh (NetAct.runs h) s.acts := in_hand_of_left_up hr hnext hmade hthere rfl rfl rfl
      have htake : weigh (NetAct.runs h) (s.acts.erase (.closing n h)) + one h h = weigh (NetAct.runs h) s.acts :=
        weigh_take (NetAct.runs h) ha
      rw [one_self] at htake
      omega
  | _ => trivial

theorem steps_of_right (s : NetProcess) (e : LifeEv) (hs : LifeGood s) (hnext : LifeRight (lifeStep s e)) : StepsRight s e :=
  ⟨nested_of_right s e hs hnext, pumpsStop_of_right s e hs hnext⟩

/-- Over any run of clients, calls, startups that may fail, Shutdowns, callbacks and events. -/
theorem network_up_iff (es : List LifeEv) : Always lifeStep LifeRight .started es ↔ Each lifeStep StepsRight .started es :=
  always_iff_each_of_inv good_step right_of_good steps_of_right (Or.inl ⟨rfl, inv_started⟩)

/-- A client makes the network and a hub and gives its handle back, up to the CloseInternal of the hub. -/
def toCloseRun : List LifeEv :=
  [.createNetwork 11, .act .acquiring true, .locked true, .locked true, .locked true, .locked true, .createHub 0,
    .act (.creating 0) true, .act (.publishing 0 0) true, .release 0, .act (.releasing 0) true, .locked true, .locked true,
    .locked true]

/-- A client that is called from there makes the network once more. -/
def calledBackRun : List LifeEv :=
  toCloseRun ++ [.createNetwork 11, .callback .acquiring, .locked true, .locked true, .locked true, .locked true, .locked true,
    .locked true, .locked true, .locked true, .locked true]

/-- It has a handle to a network that is up by its own account, and the kernel is down. -/
theorem nested_network :
    (exec lifeStep .started calledBackRun).pInstance = some 1 ∧ (exec lifeStep .started calledBackRun).handles 1 = 1 ∧
    ((exec lifeStep .started calledBackRun).net 1).bMsgUp = true ∧ (exec lifeStep .started calledBackRun).kernel.bMsg = false ∧
    (exec lifeStep .started calledBackRun).kernel.bWsa = false := by
  decide +kernel

/-- The last Release is on another thread than the owner of its caller-pumped hub. -/
theorem cleaned_under_hub :
    (exec lifeStep .started (toCloseRun ++ [.locked false, .locked true, .locked true])).kernel.misfits = [.CleanupP2Pmsg] ∧
    (exec lifeStep .started (toCloseRun ++ [.locked false, .locked true, .locked true])).kernel.hubs = [0] := by
  decide +kernel

end TargetFacade
