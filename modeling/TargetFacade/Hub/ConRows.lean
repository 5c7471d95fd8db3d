/-
  TargetFacade.Hub.ConRows — the rows of SnapshotCons, against the two maps it merges.

  `mergeTurn` is one turn of the loop with the source's two flags. Each turn takes the lesser of
  the two keys in front, or both when they are one, so the loop ends after at most a turn for each
  entry of either map, with the rows of their join (`loop_ends`). `snapshot_rows` says what these are.
-/

import TargetFacade.Hub.ReadSide

namespace TargetFacade

open OrdMap Join

/-! ## The loop -/

/-- The two iterators, each as what it has yet to go through. -/
structure MergeAt where
  itA : List (WStr × ArmedCon)
  itP : List (WStr × Bool)
  rOut : List ConRow

/-- The condition of the while. -/
def MergeAt.More (s : MergeAt) : Prop := s.itA ≠ [] ∨ s.itP ≠ []

def MergeAt.bTakeArmed (s : MergeAt) : Bool :=
  match s.itA, s.itP with
  | [], _ => false
  | _ :: _, [] => true
  | a :: _, p :: _ => (compare a.1 p.1).isLE

def MergeAt.bTakePeer (s : MergeAt) : Bool :=
  match s.itA, s.itP with
  | _, [] => false
  | [], _ :: _ => true
  | a :: _, p :: _ => (compare p.1 a.1).isLE

/-- The body of the while. -/
def mergeTurn (csAddress : WStr) (s : MergeAt) : MergeAt :=
  let oArmed := if s.bTakeArmed then s.itA.head? else none
  let oPeer := if s.bTakePeer then s.itP.head? else none
  let strPeer := if s.bTakeArmed then (s.itA.head?.map (·.1)).getD [] else (s.itP.head?.map (·.1)).getD []
  { itA := if s.bTakeArmed then s.itA.tail else s.itA
    itP := if s.bTakePeer then s.itP.tail else s.itP
    rOut := s.rOut ++ [conRow csAddress strPeer (oArmed.map (·.2)) ((oPeer.map (·.2)).getD false)] }

def mergeStart (h : Hub) : MergeAt := ⟨h.armed.toList, h.peers.toList, []⟩

/-- The while leaves `s` after `n` turns, with these rows. -/
structure LoopEnds (csAddress : WStr) (s : MergeAt) (n : Nat) (rows : List ConRow) : Prop where
  goes : ∀ k < n, ((mergeTurn csAddress)^[k] s).More
  ends : ¬ ((mergeTurn csAddress)^[n] s).More
  rows : ((mergeTurn csAddress)^[n] s).rOut = rows

theorem LoopEnds.turn {csAddress : WStr} {s : MergeAt} {n : Nat} {rows : List ConRow} (hmore : s.More)
    (h : LoopEnds csAddress (mergeTurn csAddress s) n rows) : LoopEnds csAddress s (n + 1) rows where
  goes := fun k hk => by
    cases k with
    | zero => exact hmore
    | succ k => exact h.goes k (Nat.lt_of_succ_lt_succ hk)
  ends := h.ends
  rows := h.rows

/-- The loop goes through the rows of the join, a turn for each. -/
theorem loop_join (csAddress : WStr) : ∀ (as : List (WStr × ArmedCon)) (ps : List (WStr × Bool)) (rOut : List ConRow),
    LoopEnds csAddress ⟨as, ps, rOut⟩ (join as ps).length (rOut ++ (join as ps).map (joinRow csAddress)) := by
  intro as ps
  fun_induction join as ps with
  | case1 => exact fun rOut => ⟨fun _ hk => absurd hk (Nat.not_lt_zero _), by simp [MergeAt.More], by simp⟩
  | case2 a as ih =>
    intro rOut
    refine LoopEnds.turn (Or.inl (List.cons_ne_nil _ _)) ?_
    rw [List.map_cons, List.append_cons]
    exact ih _
  | case3 b ps ih =>
    intro rOut
    refine LoopEnds.turn (Or.inr (List.cons_ne_nil _ _)) ?_
    rw [List.map_cons, List.append_cons]
    exact ih _
  | case4 a as b ps hlt ih =>
    intro rOut
    have hgt : compare b.1 a.1 = .gt := Std.OrientedCmp.gt_of_lt hlt
    have hturn : mergeTurn csAddress ⟨a :: as, b :: ps, rOut⟩ =
        ⟨as, b :: ps, rOut ++ [joinRow csAddress (a.1, some a.2, none)]⟩ := by
      unfold mergeTurn MergeAt.bTakeArmed MergeAt.bTakePeer
      simp only [hlt, hgt]
      rfl
    refine LoopEnds.turn (Or.inl (List.cons_ne_nil _ _)) ?_
    rw [List.map_cons, List.append_cons, hturn]
    exact ih _
  | case5 a as b ps hgt ih =>
    intro rOut
    have hlt : compare b.1 a.1 = .lt := Std.OrientedCmp.lt_of_gt hgt
    have hturn : mergeTurn csAddress ⟨a :: as, b :: ps, rOut⟩ =
        ⟨a :: as, ps, rOut ++ [joinRow csAddress (b.1, none, some b.2)]⟩ := by
      unfold mergeTurn MergeAt.bTakeArmed MergeAt.bTakePeer
      simp only [hlt, hgt]
      rfl
    refine LoopEnds.turn (Or.inl (List.cons_ne_nil _ _)) ?_
    rw [List.map_cons, List.append_cons, hturn]
    exact ih _
  | case6 a as b ps heq ih =>
    intro rOut
    have heq' : compare b.1 a.1 = .eq := Std.OrientedCmp.eq_symm heq
    have hturn : mergeTurn csAddress ⟨a :: as, b :: ps, rOut⟩ =
        ⟨as, ps, rOut ++ [joinRow csAddress (a.1, some a.2, some b.2)]⟩ := by
      unfold mergeTurn MergeAt.bTakeArmed MergeAt.bTakePeer
      simp only [heq, heq']
      rfl
    refine LoopEnds.turn (Or.inl (List.cons_ne_nil _ _)) ?_
    rw [List.map_cons, List.append_cons, hturn]
    exact ih _

theorem loop_ends (h : Hub) :
    ∃ n ≤ h.armed.size + h.peers.size, LoopEnds h.csAddress (mergeStart h) n (SnapshotCons h) := by
  have hle := join_length_le h.armed.toList h.peers.toList
  rw [Std.ExtTreeMap.length_toList, Std.ExtTreeMap.length_toList] at hle
  refine ⟨_, hle, ?_⟩
  rw [snapshot_join]
  exact loop_join h.csAddress _ _ []

/-! ## The rows -/

def ConRow.Has (r : ConRow) (uBit : UInt32) : Prop := r.uFlags &&& uBit ≠ 0

instance (r : ConRow) (uBit : UInt32) : Decidable (r.Has uBit) := inferInstanceAs (Decidable (_ ≠ _))

/-- The rows are those of the keys of `A` and `P`. -/
structure RowsMerged (csAddress : WStr) (A : Map WStr ArmedCon) (P : Map WStr Bool) (rows : List ConRow) : Prop where
  keys : ∀ p, p ∈ rows.map (·.strPeer) ↔ (A[p]?).isSome = true ∨ (P[p]?).isSome = true
  increasing : (rows.map (·.strPeer)).Pairwise fun p q => compare p q = .lt
  armed : ∀ r ∈ rows, ∀ a, A[r.strPeer]? = some a → r.strEndpoint = a.strEndpoint ∧
    (r.Has P2PF_CON_LISTEN ↔ a.bListen = true) ∧ (r.Has P2PF_CON_DIAL ↔ a.bListen = false)
  unarmed : ∀ r ∈ rows, A[r.strPeer]? = none → r.strEndpoint = [] ∧ ¬ r.Has P2PF_CON_LISTEN ∧ ¬ r.Has P2PF_CON_DIAL
  up : ∀ r ∈ rows, (r.Has P2PF_CON_UP ↔ P[r.strPeer]? = some true)
  relation : ∀ r ∈ rows, ∀ rel, (r.Has (RelationFlag rel) ↔ rel = ClassifyPeer csAddress r.strPeer)

/-- The bits of a row are told apart. -/
theorem flags_apart (oListen : Option Bool) (bUp : Bool) (eRel : FacadeRelation) :
    let uFlags := (oListen.map fun b => if b then P2PF_CON_LISTEN else P2PF_CON_DIAL).getD 0 |||
      (if bUp then P2PF_CON_UP else 0) ||| RelationFlag eRel
    (uFlags &&& P2PF_CON_LISTEN ≠ 0 ↔ oListen = some true) ∧ (uFlags &&& P2PF_CON_DIAL ≠ 0 ↔ oListen = some false) ∧
    (uFlags &&& P2PF_CON_UP ≠ 0 ↔ bUp = true) ∧ ∀ rel, (uFlags &&& RelationFlag rel ≠ 0 ↔ rel = eRel) := by
  refine ⟨?_, ?_, ?_, fun rel => ?_⟩
  · rcases oListen with _ | _ | _ <;> cases bUp <;> cases eRel <;> decide
  · rcases oListen with _ | _ | _ <;> cases bUp <;> cases eRel <;> decide
  · rcases oListen with _ | _ | _ <;> cases bUp <;> cases eRel <;> decide
  · rcases oListen with _ | _ | _ <;> cases bUp <;> cases eRel <;> cases rel <;> decide

theorem conRow_has (csAddress strPeer : WStr) (oArmed : Option ArmedCon) (bUp : Bool) :
    ((conRow csAddress strPeer oArmed bUp).Has P2PF_CON_LISTEN ↔ oArmed.map (·.bListen) = some true) ∧
    ((conRow csAddress strPeer oArmed bUp).Has P2PF_CON_DIAL ↔ oArmed.map (·.bListen) = some false) ∧
    ((conRow csAddress strPeer oArmed bUp).Has P2PF_CON_UP ↔ bUp = true) ∧
    ∀ rel, ((conRow csAddress strPeer oArmed bUp).Has (RelationFlag rel) ↔ rel = ClassifyPeer csAddress strPeer) := by
  have h := flags_apart (oArmed.map (·.bListen)) bUp (ClassifyPeer csAddress strPeer)
  rw [Option.map_map] at h
  exact h

theorem rows_merged (h : Hub) : RowsMerged h.csAddress h.armed h.peers (SnapshotCons h) := by
  have hrow (r : ConRow) (hr : r ∈ SnapshotCons h) :
      r = conRow h.csAddress r.strPeer h.armed[r.strPeer]? ((h.peers[r.strPeer]?).getD false) := by
    rw [snapshot_join] at hr
    obtain ⟨j, hj, rfl⟩ := List.mem_map.mp hr
    obtain ⟨hA, hP⟩ := join_maps h.armed h.peers hj
    show joinRow h.csAddress j = conRow h.csAddress j.1 h.armed[j.1]? ((h.peers[j.1]?).getD false)
    rw [← hA, ← hP]
    rfl
  have hhas (r : ConRow) (hr : r ∈ SnapshotCons h) :
      (r.Has P2PF_CON_LISTEN ↔ (h.armed[r.strPeer]?).map (·.bListen) = some true) ∧
      (r.Has P2PF_CON_DIAL ↔ (h.armed[r.strPeer]?).map (·.bListen) = some false) ∧
      (r.Has P2PF_CON_UP ↔ (h.peers[r.strPeer]?).getD false = true) ∧
      ∀ rel, (r.Has (RelationFlag rel) ↔ rel = ClassifyPeer h.csAddress r.strPeer) := by
    have hbits := conRow_has h.csAddress r.strPeer h.armed[r.strPeer]? ((h.peers[r.strPeer]?).getD false)
    rw [← hrow r hr] at hbits
    exact hbits
  constructor
  case keys =>
    intro p
    rw [snapshot_peers]
    exact mem_keys_maps h.armed h.peers p
  case increasing =>
    rw [snapshot_peers]
    exact List.pairwise_map.mpr (join_ordered _ _ (ordered_toList _) (ordered_toList _))
  case armed =>
    intro r hr a ha
    obtain ⟨hlisten, hdial, -⟩ := hhas r hr
    rw [ha] at hlisten hdial
    refine ⟨?_, hlisten.trans Option.some_inj, hdial.trans Option.some_inj⟩
    rw [hrow r hr, ha]
    rfl
  case unarmed =>
    intro r hr hno
    obtain ⟨hlisten, hdial, -⟩ := hhas r hr
    rw [hno] at hlisten hdial
    refine ⟨?_, mt hlisten.mp nofun, mt hdial.mp nofun⟩
    rw [hrow r hr, hno]
    rfl
  case up =>
    intro r hr
    obtain ⟨-, -, hup, -⟩ := hhas r hr
    rw [hup]
    cases h.peers[r.strPeer]? <;> simp
  case relation => exact fun r hr => (hhas r hr).2.2.2

/-- SnapshotCons ends, and its rows are those of the two maps. -/
theorem snapshot_rows (h : Hub) :
    (∃ n ≤ h.armed.size + h.peers.size, LoopEnds h.csAddress (mergeStart h) n (SnapshotCons h)) ∧
      RowsMerged h.csAddress h.armed h.peers (SnapshotCons h) :=
  ⟨loop_ends h, rows_merged h⟩

end TargetFacade
