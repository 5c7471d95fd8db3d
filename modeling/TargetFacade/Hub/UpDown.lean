/-
  TargetFacade.Hub.UpDown — OnPeerUp and OnPeerDown against m_mapPeers, over every
  interleaving of MarkPeer calls.

  A MarkPeer is two steps: the locked section writes the row, and when that changed it the
  calling thread raises the callback with the lock released. Between the two the callback is
  owed; `owed` keeps the owed ones in the order their rows changed. With nobody between them
  the two steps are Hub.Model's MarkPeer (`mark_then_raise`). For each peer the callbacks made
  and then those owed alternate from Up and end at the row, so the callbacks are right exactly
  while each one made is the oldest owed to its peer, or the same as it (`Overtakes`).
-/

import TargetFacade.Lib.KeyLog
import TargetFacade.Lib.Runs
import TargetFacade.Hub.RetireSpec

namespace TargetFacade

open KeyLog OrdMap Runs

/-! ## MarkPeer in two steps -/

structure Marks where
  peers : Map WStr Bool
  /-- The callbacks as they were made. -/
  callbacks : List (WStr × Bool)
  /-- The threads between a change and its callback. -/
  between : List (Nat × WStr × Bool)
  /-- The callbacks not made yet, oldest change first; read by no step. -/
  owed : List (WStr × Bool)

inductive MarkEv where
  /-- The locked section of the MarkPeer of an On_ConLogin or On_ConLoginAck, on thread `t`. -/
  | login (t : Nat) (strThat : WStr)
  | close (t : Nat) (csPeer : WStr)
  | disconnect (t : Nat) (peer : WStr)
  /-- The thread raises the callback it is on the way to. -/
  | callback (t : Nat)
  deriving DecidableEq, Repr

def Marks.Idle (s : Marks) (t : Nat) : Bool := s.between.all (·.1 != t)

def Marks.MarkLocked (s : Marks) (t : Nat) (strPeer : WStr) (bUp : Bool) : Marks :=
  if !s.Idle t then s
  else
    let (bChanged, peers) := MarkPeerLocked strPeer bUp s.peers
    if bChanged then
      { s with peers := peers, between := s.between ++ [(t, strPeer, bUp)], owed := s.owed ++ [(strPeer, bUp)] }
    else { s with peers := peers }

def Marks.Raise (s : Marks) (t : Nat) : Marks :=
  match s.between.find? (·.1 == t) with
  | none => s
  | some e => { s with callbacks := s.callbacks ++ [e.2], between := s.between.erase e, owed := s.owed.erase e.2 }

def markStep (s : Marks) : MarkEv → Marks
  | .login t strThat => s.MarkLocked t strThat true
  | .close t csPeer => s.MarkLocked t csPeer false
  | .disconnect t peer => s.MarkLocked t peer false
  | .callback t => s.Raise t

def Marks.fresh : Marks := ⟨∅, [], [], []⟩

structure Marks.Truthful (s : Marks) : Prop where
  alternate : ∀ p, Alternates true (ofKey p s.callbacks)
  /-- With every call returned, the last callback of a peer agrees with its row. -/
  agree : s.between = [] → ∀ p, (ofKey p s.callbacks).getLastD false = IsPeerUp s.peers p

/-- A callback is raised that is not what the oldest one owed to its peer says. -/
def Overtakes (s : Marks) (e : MarkEv) : Prop :=
  ∃ t x, e = .callback t ∧ s.between.find? (·.1 == t) = some x ∧ (ofKey x.2.1 s.owed).head? ≠ some x.2.2

/-- MarkPeer, when nobody comes between its two steps. -/
theorem mark_then_raise (h : Hub) (t : Nat) (p : WStr) (bUp : Bool) :
    ((Marks.MarkLocked ⟨h.peers, h.callbacks, [], []⟩ t p bUp).Raise t) =
      ⟨(h.MarkPeer p bUp).peers, (h.MarkPeer p bUp).callbacks, [], []⟩ := by
  unfold Marks.MarkLocked Hub.MarkPeer
  obtain ⟨⟨bChanged, peers⟩, hm⟩ : ∃ x, MarkPeerLocked p bUp h.peers = x := ⟨_, rfl⟩
  simp only [hm, Marks.Idle, List.all_nil, Bool.not_true, Bool.false_eq_true, if_false]
  cases bChanged <;> simp [Marks.Raise]

/-! ## One step -/

structure Marks.Inv (s : Marks) : Prop where
  /-- The callbacks made and then those owed alternate from Up -/
  alternate : ∀ p, Alternates true (ofKey p (s.callbacks ++ s.owed))
  /-- and end at the row. -/
  row : ∀ p, nextOf true (ofKey p (s.callbacks ++ s.owed)) = !IsPeerUp s.peers p
  owed : s.owed.Perm (s.between.map (·.2))

theorem Marks.Inv.truthful {s : Marks} (hi : s.Inv) : s.Truthful := by
  constructor
  · intro p
    have ha := hi.alternate p
    rw [ofKey_append] at ha
    exact (alternates_append.mp ha).1
  · intro hdone p
    have hnone : s.owed = [] := by
      have hp := hi.owed
      rw [hdone] at hp
      exact hp.eq_nil
    have hr := hi.row p
    rw [hnone, List.append_nil, nextOf_last] at hr
    simpa using hr

/-- A locked section owes the callback of a row it changes. -/
theorem markLocked_inv {s : Marks} (hi : s.Inv) (t : Nat) (p : WStr) (bUp : Bool) : (s.MarkLocked t p bUp).Inv := by
  unfold Marks.MarkLocked
  by_cases hidle : s.Idle t = true
  case neg => simp only [hidle, Bool.not_false, if_true]; exact hi
  simp only [hidle, Bool.not_true, Bool.false_eq_true, if_false]
  by_cases hp : p = []
  · subst hp; exact hi
  simp only [markPeerLocked_named bUp s.peers hp]
  by_cases hch : IsPeerUp s.peers p = bUp
  · -- the row is what it was
    have hsame : ∀ q, IsPeerUp (s.peers.insert p bUp) q = IsPeerUp s.peers q := by
      intro q
      rw [isPeerUp_insert]
      split
      · rename_i hq; rw [← hq, hch]
      · rfl
    have hb : (IsPeerUp s.peers p != bUp) = false := by simp [hch]
    simp only [hb, Bool.false_eq_true, if_false]
    exact ⟨hi.alternate, fun q => (hi.row q).trans (by rw [hsame q]), hi.owed⟩
  · have hb : (IsPeerUp s.peers p != bUp) = true := by simpa using hch
    have hup : bUp = !IsPeerUp s.peers p := by
      cases bUp <;> cases hx : IsPeerUp s.peers p <;> simp_all
    simp only [hb, if_true]
    refine ⟨fun q => ?_, fun q => ?_, ?_⟩
    · rw [← List.append_assoc, ofKey_append]
      by_cases hq : p = q
      · subst hq
        rw [ofKey_own, alternates_append]
        exact ⟨hi.alternate p, by rw [hi.row p]; exact hup, trivial⟩
      · rw [ofKey_other bUp hq, List.append_nil]
        exact hi.alternate q
    · rw [← List.append_assoc, ofKey_append, isPeerUp_insert]
      by_cases hq : p = q
      · subst hq
        rw [ofKey_own, nextOf_append, if_pos rfl]
        rfl
      · rw [ofKey_other bUp hq, List.append_nil, if_neg hq]
        exact hi.row q
    · rw [List.map_append]
      exact hi.owed.append_right _

/-- The callbacks made and owed are what they were, when the one raised is the oldest. -/
theorem raise_inv {s : Marks} (hi : s.Inv) {t : Nat} {x : Nat × WStr × Bool} (hx : s.between.find? (·.1 == t) = some x)
    (hold : (ofKey x.2.1 s.owed).head? = some x.2.2) : (s.Raise t).Inv := by
  have hsame : ∀ p, ofKey p ((s.callbacks ++ [x.2]) ++ s.owed.erase x.2) = ofKey p (s.callbacks ++ s.owed) := by
    intro p
    obtain ⟨t', q, b⟩ := x
    have hold' : (ofKey q s.owed).head? = some b := hold
    simp only [ofKey_append]
    by_cases hq : q = p
    · subst hq
      rw [ofKey_own, ofKey_erase_head hold', List.append_assoc, List.singleton_append]
    · rw [ofKey_other b hq, ofKey_erase_other b hq, List.append_nil]
  have hmem : x ∈ s.between := List.mem_of_find?_eq_some hx
  have hperm : (s.owed.erase x.2).Perm ((s.between.erase x).map (·.2)) := by
    have hcons : s.owed.Perm (x.2 :: (s.between.erase x).map (·.2)) :=
      hi.owed.trans ((List.perm_cons_erase hmem).map (·.2))
    have := hcons.erase x.2
    rwa [List.erase_cons_head] at this
  unfold Marks.Raise
  rw [hx]
  exact ⟨fun p => by rw [hsame p]; exact hi.alternate p, fun p => by rw [hsame p]; exact hi.row p, hperm⟩

theorem markStep_inv (s : Marks) (e : MarkEv) (hi : s.Inv) (hok : ¬ Overtakes s e) : (markStep s e).Inv := by
  cases e with
  | login t p => exact markLocked_inv hi t p true
  | close t p => exact markLocked_inv hi t p false
  | disconnect t p => exact markLocked_inv hi t p false
  | callback t =>
    show (s.Raise t).Inv
    cases hx : s.between.find? (·.1 == t) with
    | none => unfold Marks.Raise; rw [hx]; exact hi
    | some x =>
      exact raise_inv hi hx (Classical.byContradiction fun hne => hok ⟨t, x, rfl, hx, hne⟩)

/-- A callback that keeps the alternation is what the oldest owed one says. -/
theorem truthful_in_order (s : Marks) (e : MarkEv) (hi : s.Inv) (h : (markStep s e).Truthful) : ¬ Overtakes s e := by
  intro ho
  obtain ⟨t, ⟨t', p, b⟩, rfl, hx, hne⟩ := ho
  have hraise : (markStep s (.callback t)).callbacks = s.callbacks ++ [(p, b)] := by
    show (s.Raise t).callbacks = _
    unfold Marks.Raise
    rw [hx]
  have hnext : b = nextOf true (ofKey p s.callbacks) := by
    have ha := h.alternate p
    rw [hraise, ofKey_append, ofKey_own, alternates_append] at ha
    exact ha.2.1
  have hmem : (p, b) ∈ s.owed := hi.owed.mem_iff.mpr (List.mem_map.mpr ⟨_, List.mem_of_find?_eq_some hx, rfl⟩)
  have hin : b ∈ ofKey p s.owed := mem_ofKey.mpr hmem
  cases hl : ofKey p s.owed with
  | nil => rw [hl] at hin; cases hin
  | cons c rest =>
    have ha := hi.alternate p
    rw [ofKey_append, alternates_append, hl] at ha
    have hc : c = b := ha.2.1.trans hnext.symm
    exact hne (by show (ofKey p s.owed).head? = some b; rw [hl, hc]; rfl)

/-! ## Runs -/

theorem unmarked_inv : Marks.Inv .fresh :=
  ⟨fun _ => trivial, fun p => by simp [Marks.fresh, ofKey, nextOf, IsPeerUp], List.Perm.refl _⟩

/-- The callbacks tell the truth in order, all through a run, exactly when none overtakes an
    older one that is owed to its peer. -/
theorem callbacks_truthful_iff (es : List MarkEv) :
    Always markStep Marks.Truthful .fresh es ↔ Each markStep (fun s e => ¬ Overtakes s e) .fresh es :=
  always_iff_each_of_inv markStep_inv (fun _ hi => hi.truthful) truthful_in_order unmarked_inv

/-- A Disconnect writes its row down, and the peer logs in again before OnPeerDown is raised. -/
theorem late_down_follows_the_up :
    ¬ Always markStep Marks.Truthful .fresh
      [.login 0 (L "Demo.B"), .callback 0, .disconnect 1 (L "Demo.B"), .login 0 (L "Demo.B"), .callback 0, .callback 1] := by
  intro h
  have hagree := h.last.agree (by decide) (L "Demo.B")
  revert hagree
  decide

end TargetFacade
