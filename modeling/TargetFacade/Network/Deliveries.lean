/-
  TargetFacade.Network.Deliveries — the threads in DeliverDiag of a network that is deleted
  (FacadeNetwork.cpp: DiagCallback, Release, Shutdown).

  A thread reads the kernel's slot and only then goes into the network that it found. No thread
  delivers into a deleted network exactly if each `delete this` finds nobody between the slot and
  the end of its DeliverDiag (`deliveries_there_iff`). Shutdown gives the slot back and waits for
  those who are counted; it cannot see one who has read the slot and is not counted yet
  (`late_event`), and the wait is bounded (`spent_wait`).
-/

import TargetFacade.Network.Session

namespace TargetFacade

open Function (update)
open Runs

variable {s : NetProcess} {n : Nat}

/-- A thread that has read the network from the slot, or is in its DeliverDiag. -/
def NetAct.delivers (n : Nat) : NetAct → Bool
  | .called k | .counted k => k == n
  | _ => false

def NetProcess.Delivers (s : NetProcess) (n : Nat) : Prop := ∃ a ∈ s.acts, a.delivers n = true

def DeliversThere (s : NetProcess) : Prop := ∀ n, s.Delivers n → (s.net n).bGone = false

/-- A `delete this` finds no thread in its network. -/
def DeletesAlone (s : NetProcess) : LifeEv → Prop
  | .locked _ => ∀ n failed, s.owner = some (.down n failed .deleting) → ¬ s.Delivers n
  | _ => True

theorem delivers_of_subset {t : NetProcess} (hacts : ∀ b ∈ t.acts, b ∈ s.acts ∨ ∀ k, b.delivers k = false)
    (h : t.Delivers n) : s.Delivers n := by
  obtain ⟨b, hb, hd⟩ := h
  refine ⟨b, (hacts b hb).resolve_right fun hne => ?_, hd⟩
  rw [hne n] at hd
  cases hd

theorem put_subset {b : NetAct} (hb : ∀ k, b.delivers k = false) (c : NetAct) (hc : c ∈ (s.put b).acts) :
    c ∈ s.acts ∨ ∀ k, c.delivers k = false := by
  rcases List.mem_append.mp hc with hc | hc
  · exact Or.inl hc
  · obtain rfl := List.mem_singleton.mp hc
    exact Or.inr hb

theorem through_subset {b : NetAct} (hb : ∀ k, b.delivers k = false) (c : NetAct) (hc : c ∈ (s.through n b).acts) :
    c ∈ s.acts ∨ ∀ k, c.delivers k = false := by
  unfold NetProcess.through at hc
  split at hc
  · exact Or.inl hc
  · exact put_subset (s := { s with handles := update s.handles n (s.handles n - 1) }) hb c hc

theorem leave_acts (s : NetProcess) : s.leave.acts = s.acts := by
  unfold NetProcess.leave
  split <;> rfl

theorem leave_net (s : NetProcess) : s.leave.net = s.net := by
  unfold NetProcess.leave
  split <;> rfl

theorem shutdown_acts (ok failed : Bool) (pc : DownPc) : (Shutdown n failed ok s pc).acts = s.acts := by
  cases pc with
  | deleting => exact leave_acts _
  | _ =>
    unfold Shutdown
    simp only
    first
      | rfl
      | split <;> rfl

theorem locked_acts (ok : Bool) (o : InLock) : (lockedStep ok s o).acts = s.acts := by
  cases o with
  | testing =>
    unfold lockedStep
    simp only
    split <;> rfl
  | starting k => rfl
  | wsaStarting k => cases ok <;> rfl
  | counting k => exact leave_acts _
  | down k failed pc => exact shutdown_acts ok failed pc

theorem release_acts (s : NetProcess) (k : Nat) : (Release k s).acts = s.acts := by
  unfold Release
  simp only
  split <;> rfl

/-- Whoever delivers has the network from the slot. -/
theorem delivers_act (ok : Bool) (s : NetProcess) (a : NetAct) (h : (netActStep ok s a).Delivers n) : (s.doing a).Delivers n := by
  have hsub {t : NetProcess} (ht : t.acts = s.acts) (hd : t.Delivers n) : (s.doing a).Delivers n :=
    delivers_of_subset (fun b hb => Or.inl (List.mem_cons_of_mem a (ht ▸ hb))) hd
  have hput {t : NetProcess} {b : NetAct} (ht : t.acts = s.acts) (hb : ∀ k, b.delivers k = false)
      (hd : (t.put b).Delivers n) : (s.doing a).Delivers n := hsub ht (delivers_of_subset (put_subset hb) hd)
  cases a with
  | acquiring =>
    unfold netActStep at h
    simp only at h
    split at h
    · exact hput rfl (fun _ => rfl) h
    · exact hsub rfl h
  | releasing k =>
    unfold netActStep at h
    simp only at h
    split at h
    · exact hput rfl (fun _ => rfl) h
    · exact hsub (release_acts s k) h
  | creating k =>
    cases ok with
    | true => exact hput rfl (fun _ => rfl) h
    | false => exact hsub rfl h
  | publishing k hub =>
    cases ok with
    | true => exact hsub rfl h
    | false => exact hput rfl (fun _ => rfl) h
  | closing k hub => exact hsub rfl h
  | setting k pc =>
    cases pc with
    | registering => exact hput rfl (fun _ => rfl) h
    | holding => exact hsub rfl h
    | exchanging =>
      unfold netActStep at h
      simp only at h
      split at h
      · exact hput rfl (fun _ => rfl) h
      · exact hsub rfl h
    | giving => exact hsub rfl h
  | called k =>
    -- it counts itself
    obtain ⟨b, hb, hd⟩ := h
    rcases List.mem_append.mp hb with hb | hb
    · exact ⟨b, List.mem_cons_of_mem _ hb, hd⟩
    · cases List.mem_singleton.mp hb
      exact ⟨.called k, List.mem_cons_self, hd⟩
  | counted k => exact hsub rfl h

theorem delivers_callback (s : NetProcess) (a : NetAct) (h : (callbackStep s a).Delivers n) : (s.doing a).Delivers n := by
  have hsub {t : NetProcess} (ht : t.acts = s.acts) (hd : t.Delivers n) : (s.doing a).Delivers n :=
    delivers_of_subset (fun b hb => Or.inl (List.mem_cons_of_mem a (ht ▸ hb))) hd
  unfold callbackStep at h
  split at h
  · exact hsub rfl h
  · split at h
    · exact hsub (by rw [release_acts]) h
    · exact hsub (by rw [release_acts]) h
  · obtain ⟨b, hb, hd⟩ := h
    exact ⟨b, (List.perm_append_singleton _ _).mem_iff.mp hb, hd⟩

theorem delivers_step (s : NetProcess) (e : LifeEv) (h : (lifeStep s e).Delivers n) : s.Delivers n ∨ s.slot = some n := by
  have hsub {t : NetProcess} (ht : ∀ b ∈ t.acts, b ∈ s.acts ∨ ∀ k, b.delivers k = false) (hd : t.Delivers n) :
      s.Delivers n ∨ s.slot = some n := Or.inl (delivers_of_subset ht hd)
  cases e with
  | createNetwork abiVersion =>
    unfold lifeStep P2PF_CreateNetwork at h
    simp only at h
    split at h
    · exact hsub (fun b hb => Or.inl hb) h
    · exact hsub (put_subset fun _ => rfl) h
  | release k => exact hsub (through_subset fun _ => rfl) h
  | createHub k => exact hsub (through_subset fun _ => rfl) h
  | closeHub k hub =>
    unfold lifeStep at h
    simp only at h
    split at h
    · exact hsub (through_subset (s := s.setNet k _) fun _ => rfl) h
    · exact Or.inl h
  | setDiagSink k bSink => exact hsub (through_subset fun _ => rfl) h
  | raise =>
    unfold lifeStep at h
    simp only at h
    split at h
    · exact Or.inl h
    · rename_i k hslot
      obtain ⟨b, hb, hd⟩ := h
      rcases List.mem_append.mp hb with hb | hb
      · exact Or.inl ⟨b, hb, hd⟩
      · cases List.mem_singleton.mp hb
        rw [beq_iff_eq.mp hd] at hslot
        exact Or.inr hslot
  | locked ok =>
    unfold lifeStep at h
    simp only at h
    split at h
    · exact Or.inl h
    · exact hsub (fun b hb => Or.inl (locked_acts ok _ ▸ hb)) h
  | callback a =>
    unfold lifeStep at h
    simp only at h
    split at h
    · rename_i ha
      exact hsub (fun b hb => Or.inl ((List.perm_cons_erase ha).mem_iff.mpr hb)) (delivers_callback _ a h)
    · exact Or.inl h
  | act a ok =>
    unfold lifeStep at h
    simp only at h
    split at h
    · rename_i ha
      exact hsub (fun b hb => Or.inl ((List.perm_cons_erase ha).mem_iff.mpr hb)) (delivers_act ok _ a h)
    · exact Or.inl h

/-- A network goes in no other step. -/
theorem gone_shutdown (ok failed : Bool) {pc : DownPc} (k : Nat) (h : ((Shutdown n failed ok s pc).net k).bGone = true) :
    (s.net k).bGone = true ∨ (k = n ∧ pc = .deleting) := by
  have hset {o : NetObj} (hg : ((s.setNet n o).net k).bGone = true) (ho : o.bGone = (s.net n).bGone) :
      (s.net k).bGone = true ∨ (k = n ∧ pc = .deleting) := Or.inl ((setNet_gone ho k).symm.trans hg)
  cases pc with
  | exchanging => exact hset h rfl
  | giving => exact Or.inl h
  | waiting =>
    unfold Shutdown at h
    simp only at h
    split at h
    · exact Or.inl h
    · exact Or.inl h
  | closing =>
    unfold Shutdown at h
    simp only at h
    split at h
    · exact Or.inl h
    · exact hset h rfl
  | closingHub hub => exact Or.inl h
  | cleaning =>
    unfold Shutdown at h
    simp only at h
    split at h
    · exact hset h rfl
    · exact Or.inl h
  | wsaCleaning =>
    unfold Shutdown at h
    simp only at h
    split at h
    · exact hset h rfl
    · exact Or.inl h
  | deleting =>
    by_cases hk : k = n
    · exact Or.inr ⟨hk, rfl⟩
    · have h : ((s.setNet n { s.net n with bGone := true }).leave.net k).bGone = true := h
      rw [leave_net, setNet_other hk] at h
      exact Or.inl h

theorem gone_locked (ok : Bool) (s : NetProcess) (o : InLock) (k : Nat) (h : ((lockedStep ok s o).net k).bGone = true) :
    (s.net k).bGone = true ∨ ∃ failed, o = .down k failed .deleting := by
  have hset {n : Nat} {p : NetObj} (hg : ((s.setNet n p).net k).bGone = true) (hp : p.bGone = (s.net n).bGone) :
      (s.net k).bGone = true ∨ ∃ failed, o = .down k failed .deleting := Or.inl ((setNet_gone hp k).symm.trans hg)
  cases o with
  | testing =>
    unfold lockedStep at h
    simp only at h
    split at h
    · exact Or.inl h
    · have h : ((s.setNet s.nNets .new).net k).bGone = true := h
      by_cases hk : k = s.nNets
      · rw [hk, setNet_self] at h
        cases h
      · exact Or.inl ((congrArg NetObj.bGone (setNet_other hk s _)).symm.trans h)
  | starting n => exact hset h rfl
  | wsaStarting n => cases ok <;> exact hset h rfl
  | counting n =>
    have h : (((s.setNet n { s.net n with cRef := (s.net n).cRef + 1 }).give n).leave.net k).bGone = true := h
    rw [leave_net] at h
    exact hset h rfl
  | down n failed pc =>
    rcases gone_shutdown ok failed k h with h | ⟨rfl, rfl⟩
    · exact Or.inl h
    · exact Or.inr ⟨failed, rfl⟩

theorem gone_release (s : NetProcess) (n k : Nat) (h : ((Release n s).net k).bGone = true) : (s.net k).bGone = true := by
  have h : ((s.setNet n { s.net n with cRef := (s.net n).cRef - 1 }).net k).bGone = true := by
    unfold Release at h
    simp only at h
    split at h
    · exact h
    · exact h
  exact (setNet_gone (o := { s.net n with cRef := (s.net n).cRef - 1 }) rfl k).symm.trans h

theorem gone_callback (s : NetProcess) (a : NetAct) (k : Nat) (h : ((callbackStep s a).net k).bGone = true) :
    (s.net k).bGone = true := by
  unfold callbackStep at h
  split at h
  · exact h
  · rename_i n failed hub m _
    split at h
    · exact gone_release s m k h
    · exact gone_release { s with outer := .down n failed (.closingHub hub) :: s.outer } m k h
  · exact h

theorem gone_act (ok : Bool) (s : NetProcess) (a : NetAct) (k : Nat) (h : ((netActStep ok s a).net k).bGone = true) :
    (s.net k).bGone = true := by
  have hset {n : Nat} {p : NetObj} (hg : ((s.setNet n p).net k).bGone = true) (hp : p.bGone = (s.net n).bGone) :
      (s.net k).bGone = true := (setNet_gone hp k).symm.trans hg
  cases a with
  | acquiring =>
    unfold netActStep at h
    simp only at h
    split at h
    · exact h
    · exact h
  | releasing n =>
    unfold netActStep at h
    simp only at h
    split at h
    · exact h
    · exact gone_release s n k h
  | creating n => cases ok <;> exact h
  | publishing n hub =>
    cases ok with
    | true => exact hset h rfl
    | false => exact h
  | closing n hub => exact h
  | setting n pc =>
    cases pc with
    | registering => exact h
    | holding => exact hset h rfl
    | exchanging =>
      unfold netActStep at h
      simp only at h
      split at h
      · exact hset h rfl
      · exact hset h rfl
    | giving => exact h
  | called n => exact h
  | counted n => exact h

theorem gone_through {a : NetAct} (k : Nat) (h : ((s.through n a).net k).bGone = true) : (s.net k).bGone = true := by
  unfold NetProcess.through at h
  split at h
  · exact h
  · exact h

theorem gone_step (s : NetProcess) (e : LifeEv) (k : Nat) (h : ((lifeStep s e).net k).bGone = true) :
    (s.net k).bGone = true ∨ ∃ ok failed, e = .locked ok ∧ s.owner = some (.down k failed .deleting) := by
  cases e with
  | createNetwork abiVersion =>
    unfold lifeStep P2PF_CreateNetwork at h
    simp only at h
    split at h
    · exact Or.inl h
    · exact Or.inl h
  | release n => exact Or.inl (gone_through k h)
  | createHub n => exact Or.inl (gone_through k h)
  | closeHub n hub =>
    unfold lifeStep at h
    simp only at h
    split at h
    · exact Or.inl ((setNet_gone (o := { s.net n with listHubs := (s.net n).listHubs.erase hub }) rfl k).symm.trans (gone_through k h))
    · exact Or.inl h
  | setDiagSink n bSink => exact Or.inl (gone_through k h)
  | raise =>
    unfold lifeStep at h
    simp only at h
    split at h
    · exact Or.inl h
    · exact Or.inl h
  | locked ok =>
    unfold lifeStep at h
    simp only at h
    split at h
    · exact Or.inl h
    · rename_i o ho
      rcases gone_locked ok s o k h with h | ⟨failed, rfl⟩
      · exact Or.inl h
      · exact Or.inr ⟨ok, failed, rfl, ho⟩
  | callback a =>
    unfold lifeStep at h
    simp only at h
    split at h
    · exact Or.inl (gone_callback { s with acts := s.acts.erase a } a k h)
    · exact Or.inl h
  | act a ok =>
    unfold lifeStep at h
    simp only at h
    split at h
    · exact Or.inl (gone_act ok { s with acts := s.acts.erase a } a k h)
    · exact Or.inl h

/-- The network that a `delete this` takes is the only one there, and the slot is empty by then. -/
theorem deleting_slot (hi : LifeInv s) {failed : Bool} (ho : s.owner = some (.down n failed .deleting)) : s.slot ≠ some n := by
  intro hslot
  have hn := down_no_inst hi ho
  have hb := hi.between hn
  rw [ho] at hb
  have hmark := hi.marked hn (by rw [ho]; nofun) hslot
  rw [hb.2.1] at hmark
  cases hmark

/-- The network, the kernel and the slot are right throughout and no thread is in a deleted network, exactly if no
    Acquire makes a network inside of a Shutdown, every CloseInternal stops its pump and no `delete this` finds a thread in
    its network. -/
theorem deliveries_there_iff (es : List LifeEv) :
    Always lifeStep (fun s => LifeRight s ∧ DeliversThere s) .started es ↔
      Each lifeStep (fun s e => StepsRight s e ∧ DeletesAlone s e) .started es := by
  have hfirst : LifeGood .started ∧ DeliversThere .started := by
    refine ⟨Or.inl ⟨rfl, inv_started⟩, fun n hd => ?_⟩
    obtain ⟨b, hb, -⟩ := hd
    cases hb
  refine always_iff_each_of_inv (I := fun s => LifeGood s ∧ DeliversThere s) (fun s e hs he => ?_)
    (fun s hs => ⟨right_of_good s hs.1, hs.2⟩) (fun s e hs hnext => ⟨steps_of_right s e hs.1 hnext.1, ?_⟩) hfirst
  · obtain ⟨hgood, hthere⟩ := hs
    refine ⟨good_step s e hgood he.1, fun n hd => ?_⟩
    have hbefore := delivers_step s e hd
    have hgone : (s.net n).bGone = false :=
      hbefore.elim (hthere n) fun hslot => ((right_of_good s hgood).slot n hslot).2
    cases hg : ((lifeStep s e).net n).bGone with
    | false => rfl
    | true =>
      rcases gone_step s e n hg with h | ⟨ok, failed, rfl, ho⟩
      · rw [hgone] at h
        cases h
      · -- its own deletion: the slot was given back, so somebody was in it before
        refine absurd (hbefore.resolve_right ?_) (he.2 n failed ho)
        rcases hgood with ⟨-, hi⟩ | ⟨m, f, h, hot, -, -⟩
        · exact deleting_slot hi ho
        · rw [ho] at hot
          cases hot
  · cases e with
    | locked ok =>
      intro n failed ho hd
      have hstep : lifeStep s (.locked ok) = lockedStep ok s (.down n failed .deleting) := by
        unfold lifeStep
        simp only
        rw [ho]
      rw [hstep] at hnext
      obtain ⟨b, hb, hbn⟩ := hd
      have hthere := hnext.2 n ⟨b, by rw [locked_acts]; exact hb, hbn⟩
      have hgone : ((lockedStep ok s (.down n failed .deleting)).net n).bGone = true := by
        show (((s.setNet n { s.net n with bGone := true }).leave.net n)).bGone = true
        rw [leave_net, setNet_self]
      rw [hgone] at hthere
      cases hthere
    | _ => trivial

/-- A client makes the network and sets a sink. -/
def sinkRun : List LifeEv :=
  [.createNetwork 11, .act .acquiring true, .locked true, .locked true, .locked true, .locked true, .setDiagSink 0 true,
    .act (.setting 0 .registering) true, .act (.setting 0 .holding) true]

/-- The last Release, from its lock to the deletion; `ok` says whether it waits no longer. -/
def releaseRun (ok : Bool) : List LifeEv :=
  [.release 0, .act (.releasing 0) true, .locked true, .locked true, .locked ok, .locked true, .locked true, .locked true,
    .locked true]

/-- A thread has read the slot, and not gone in when the network is deleted. -/
theorem late_event : ¬ ∀ es, Always lifeStep DeliversThere .started es := by
  intro h
  have hgone : ((exec lifeStep .started (sinkRun ++ [.raise] ++ releaseRun false)).net 0).bGone = true := by decide +kernel
  have hin : (exec lifeStep .started (sinkRun ++ [.raise] ++ releaseRun false)).acts = [.called 0] := by decide +kernel
  have hthere := (h (sinkRun ++ [.raise] ++ releaseRun false)).last 0 ⟨.called 0, by rw [hin]; exact List.mem_singleton.mpr rfl, rfl⟩
  rw [hgone] at hthere
  cases hthere

/-- A thread is in the sink for longer than Shutdown waits. -/
theorem spent_wait : ((exec lifeStep .started (sinkRun ++ [.raise, .act (.called 0) true] ++ releaseRun true)).net 0).bGone = true ∧
    (exec lifeStep .started (sinkRun ++ [.raise, .act (.called 0) true] ++ releaseRun true)).acts = [.counted 0] := by
  decide +kernel

end TargetFacade
