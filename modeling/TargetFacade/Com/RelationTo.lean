/-
  TargetFacade.Com.RelationTo — one peer's flags, looked for by position (ComHub.cpp: RelationTo).

  The count is read once, then two GetCons a position, and the hub changes between any two calls
  as it likes (`Course`). What is found was so at the call that found it, but a peer that stays
  can be walked past: one that logs in before it moves it behind the count (`walked_past`), one
  that goes moves it to a position the walk has left, and where a shorter name has made room for
  it the second call fails.
  The peer's `place` is how many rows sort before it. A walk that has not met it reads positions
  that its place is not before (`unmet_ahead`), unless its place falls below one of them from one
  call to the next, which a peer before it that goes can do (`FallsBehind`). So where nothing makes
  it fall behind, the peer is found exactly when at some position below the count its place is not
  behind that position any more (`found_iff_caught`): what comes before it has left it below the
  count. `relation_to_found` is that on every course, whatever comes and goes after it, and for the
  answer as a whole; `caughtUp_undisturbed` that it covers the courses on which nobody before it
  comes or goes. Where the peer does fall behind, it depends on the names and on what comes next
  whether it is met (`relation_to_iff` says what that is for the walk). The walk is the method's
  program in Com.HubCalls, call for call (`relationTo_calls`).
-/

import TargetFacade.Com.HubCalls
import TargetFacade.Hub.RealReads

namespace TargetFacade.RelationWalk

open OrdMap SharedPtr SizedReads

/-! ## The walk -/

def Str (bs : Option WStr) : WStr := bs.getD []

/-- What wcscmp reads of a text. -/
def wcs (s : WStr) : WStr := s.takeWhile (· ≠ 0)

/-- The answer, and `*pFlags` as its bits, none when NULL. `last` is the last call that was made, and the code
    keeps no count of them: the two on position `i` are `2 * i + 1` and `2 * i + 2`. -/
structure Related where
  hr : HRESULT
  pFlags : Option UInt32
  last : Nat
  deriving DecidableEq, Repr

/-- The positions from the `i`-th on, `n` of them. -/
def rowsFrom (c : Course TextHub) (wszPeer : WStr) : Nat → Nat → Related
  | 0, i => ⟨P2PF_E_UNRESOLVED, some 0, 2 * i⟩
  | n + 1, i =>
    let (hr, out) := GetCon (c.seen (2 * i + 1)).hub i ⟨none, some 0, none, none, some 0⟩
    -- past the end: the set shrank
    if FAILED hr then ⟨P2PF_E_UNRESOLVED, some 0, 2 * i + 1⟩
    else
      let cch := out.peerCch.getD 0
      if cch = 0 then rowsFrom c wszPeer n (i + 1)
      else
        let (hr, out) := GetCon (c.seen (2 * i + 2)).hub i ⟨some [], some cch, none, none, out.outFlags⟩
        -- this row changed under the walk
        if FAILED hr then rowsFrom c wszPeer n (i + 1)
        else if wcs (out.peerBuf.getD []) = wcs wszPeer then ⟨S_OK, some (out.outFlags.getD 0), 2 * i + 2⟩
        else rowsFrom c wszPeer n (i + 1)

/-- `m_pHub` is none when it is NULL, and `bOut` whether `pFlags` is not. -/
def RelationTo (m_pHub : Option (Course TextHub)) (peer : Option WStr) (bOut : Bool) : Related :=
  if !bOut then ⟨E_POINTER, none, 0⟩
  else
    match m_pHub with
    | none => ⟨P2PF_E_CLOSED, some 0, 0⟩
    | some c =>
      let (hr, cCon) := GetConCount (c.seen 0).hub (some 0)
      if FAILED hr then ⟨hr, some 0, 0⟩ else rowsFrom c (Str peer) (cCon.getD 0) 0

/-! ## What it meets -/

def rows (c : Course TextHub) (k : Nat) : List ConRow := SnapshotCons (c.seen k).hub

/-- The first call on position `i` finds a row there. -/
def InRange (c : Course TextHub) (i : Nat) : Prop := i < (rows c (2 * i + 1)).length

/-- The second call on position `i` finds the peer's row, in the room that the first has measured. -/
def Met (c : Course TextHub) (p : WStr) (i : Nat) (uFlags : UInt32) : Prop :=
  ∃ r r', (rows c (2 * i + 1))[i]? = some r ∧ (rows c (2 * i + 2))[i]? = some r' ∧
    r'.strPeer = p ∧ p.length ≤ r.strPeer.length ∧ r'.uFlags = uFlags

/-- The walk gets to position `i` and meets the peer there. -/
def Meets (c : Course TextHub) (p : WStr) (i : Nat) : Prop := (∀ j < i, InRange c j) ∧ ∃ uFlags, Met c p i uFlags

instance (c : Course TextHub) (i : Nat) : Decidable (InRange c i) := inferInstanceAs (Decidable (_ < _))

/-- The last call of a walk that meets nothing: on the first position that is not there, or on the last. -/
def lastCall (c : Course TextHub) : Nat → Nat → Nat
  | 0, i => 2 * i
  | n + 1, i => if InRange c i then lastCall c n (i + 1) else 2 * i + 1

theorem lastCall_le (c : Course TextHub) : ∀ n i : Nat, lastCall c n i ≤ 2 * (i + n) := by
  intro n
  induction n with
  | zero => exact fun i => Nat.le_refl _
  | succ n ih =>
    intro i
    rw [lastCall]
    split
    · have hle := ih (i + 1)
      omega
    · omega

/-- What RelationTo is for. -/
structure Finds (c : Course TextHub) (p : WStr) (r : Related) : Prop where
  found : c.Throughout 0 r.last (fun h => h.hub.Listed p) → r.hr = S_OK
  flags : r.hr = S_OK → c.Once 0 r.last fun h => ∃ row ∈ SnapshotCons h.hub, row.strPeer = p ∧ r.pFlags = some row.uFlags
  unresolved : r.hr = P2PF_E_UNRESOLVED → c.Once 0 r.last fun h => ¬ h.hub.Listed p

/-! ## One turn -/

variable {c : Course TextHub}

theorem wcs_ended {s : WStr} (h : 0 ∉ s) : wcs s = s := by
  unfold wcs
  apply List.takeWhile_eq_self_iff.mpr
  intro x hx
  have hne : x ≠ 0 := fun h0 => h (h0 ▸ hx)
  simp [hne]

theorem getCon_sizing {h : Hub} {i : Nat} {r : ConRow} (hr : (SnapshotCons h)[i]? = some r) :
    GetCon h i ⟨none, some 0, none, none, some 0⟩ = (S_OK, ⟨none, some (r.strPeer.length + 1), none, none, some r.uFlags⟩) := by
  unfold GetCon
  rw [hr]
  rfl

theorem getCon_peer {h : Hub} {i : Nat} {r : ConRow} (hr : (SnapshotCons h)[i]? = some r) (n : Nat) (uFlags : UInt32) :
    GetCon h i ⟨some [], some (n + 1), none, none, some uFlags⟩ =
      if n < r.strPeer.length then (.ERROR_MORE_DATA, ⟨some [], some (r.strPeer.length + 1), none, none, some r.uFlags⟩)
      else (S_OK, ⟨some r.strPeer, some (r.strPeer.length + 1), none, none, some r.uFlags⟩) := by
  unfold GetCon
  rw [hr]
  simp only [copyField, copyOut_room, Option.isSome_some, Option.isSome_none, if_true, Bool.false_eq_true, if_false]
  by_cases hlt : n < r.strPeer.length
  · simp [hlt, FAILED]
  · simp [hlt]

/-- A turn of the walk, by the rows its two calls find. -/
theorem rowsFrom_turn (p : WStr) (n i : Nat) {r : ConRow} (hr : (rows c (2 * i + 1))[i]? = some r) :
    rowsFrom c p (n + 1) i =
      ((rows c (2 * i + 2))[i]?).elim (rowsFrom c p n (i + 1)) fun r' =>
        if r'.strPeer.length ≤ r.strPeer.length ∧ r'.strPeer = wcs p then ⟨S_OK, some r'.uFlags, 2 * i + 2⟩
        else rowsFrom c p n (i + 1) := by
  rw [rowsFrom]
  simp only [getCon_sizing hr, failed_S_OK, Bool.false_eq_true, if_false, Option.getD_some, Nat.succ_ne_zero]
  cases hr' : (rows c (2 * i + 2))[i]? with
  | none =>
    unfold rows at hr'
    simp only [GetCon, hr', Option.elim_none]
    rfl
  | some r' =>
    have hended : wcs r'.strPeer = r'.strPeer := wcs_ended (row_ended _ (List.mem_of_getElem? hr')).1
    simp only [getCon_peer hr', Option.elim_some]
    by_cases hlt : r.strPeer.length < r'.strPeer.length
    · have hfail : FAILED .ERROR_MORE_DATA = true := rfl
      simp only [hlt, Nat.not_le.mpr hlt, hfail, if_true, false_and, if_false]
    · have hle := Nat.not_lt.mp hlt
      simp only [hlt, hle, failed_S_OK, Bool.false_eq_true, if_false, Option.getD_some, hended, true_and]

/-- The three ways a turn goes: past the end, onto the peer, or on to the next position. -/
theorem rowsFrom_past (p : WStr) (n : Nat) {i : Nat} (h : ¬ InRange c i) :
    rowsFrom c p (n + 1) i = ⟨P2PF_E_UNRESOLVED, some 0, 2 * i + 1⟩ := by
  have hnone : (SnapshotCons (c.seen (2 * i + 1)).hub)[i]? = none := List.getElem?_eq_none (Nat.le_of_not_lt h)
  rw [rowsFrom]
  simp only [GetCon, hnone]
  rfl

theorem rowsFrom_met {p : WStr} (n : Nat) {i : Nat} {uFlags : UInt32} (h : Met c (wcs p) i uFlags) :
    rowsFrom c p (n + 1) i = ⟨S_OK, some uFlags, 2 * i + 2⟩ := by
  obtain ⟨r, r', hr, hr', hpeer, hle, rfl⟩ := h
  have hfits : r'.strPeer.length ≤ r.strPeer.length := hpeer ▸ hle
  rw [rowsFrom_turn p n i hr, hr']
  exact if_pos ⟨hfits, hpeer⟩

theorem rowsFrom_next {p : WStr} (n : Nat) {i : Nat} (h : InRange c i) (hno : ∀ uFlags, ¬ Met c (wcs p) i uFlags) :
    rowsFrom c p (n + 1) i = rowsFrom c p n (i + 1) := by
  have hr := List.getElem?_eq_getElem h
  rw [rowsFrom_turn p n i hr]
  cases hr' : (rows c (2 * i + 2))[i]? with
  | none => rfl
  | some r' =>
    refine if_neg fun hmet => hno r'.uFlags ⟨_, r', hr, hr', hmet.2, ?_, rfl⟩
    rw [← hmet.2]
    exact hmet.1

/-! ## The walk meets the peer, or goes on to its last call -/

theorem met_inRange {p : WStr} {i : Nat} {uFlags : UInt32} (h : Met c p i uFlags) : InRange c i := by
  obtain ⟨r, -, hr, -⟩ := h
  exact (List.getElem?_eq_some_iff.mp hr).1

theorem rowsFrom_cases (c : Course TextHub) (p : WStr) : ∀ n i : Nat,
    (∃ d < n, (∀ j < d, InRange c (i + j)) ∧ ∃ uFlags, Met c (wcs p) (i + d) uFlags ∧
      rowsFrom c p n i = ⟨S_OK, some uFlags, 2 * (i + d) + 2⟩) ∨
    (∀ d < n, (∀ j < d, InRange c (i + j)) → ∀ uFlags, ¬ Met c (wcs p) (i + d) uFlags) ∧
      rowsFrom c p n i = ⟨P2PF_E_UNRESOLVED, some 0, lastCall c n i⟩ := by
  intro n
  induction n with
  | zero => exact fun i => Or.inr ⟨fun d hd => absurd hd (Nat.not_lt_zero d), rfl⟩
  | succ n ih =>
    intro i
    have hshift (j : Nat) : i + 1 + j = i + (j + 1) := by omega
    have hturns := @Course.reached_succ (InRange c) (fun j => ∀ uFlags, ¬ Met c (wcs p) j uFlags) n i
    by_cases hin : InRange c i
    · by_cases hmet : ∃ uFlags, Met c (wcs p) i uFlags
      · obtain ⟨uFlags, hmet⟩ := hmet
        exact Or.inl ⟨0, Nat.succ_pos n, fun j hj => absurd hj (Nat.not_lt_zero j), uFlags, hmet, rowsFrom_met n hmet⟩
      · have hno : ∀ uFlags, ¬ Met c (wcs p) i uFlags := fun uFlags h => hmet ⟨uFlags, h⟩
        rw [rowsFrom_next n hin hno, lastCall, if_pos hin]
        rcases ih (i + 1) with ⟨d, hd, hall, uFlags, hmet, heq⟩ | ⟨hall, heq⟩
        · refine Or.inl ⟨d + 1, Nat.succ_lt_succ hd, fun j hj => ?_, uFlags, hshift d ▸ hmet, hshift d ▸ heq⟩
          cases j with
          | zero => exact hin
          | succ j => exact hshift j ▸ hall j (Nat.lt_of_succ_lt_succ hj)
        · exact Or.inr ⟨hturns.mpr ⟨hno, fun _ => hall⟩, heq⟩
    · refine Or.inr ⟨hturns.mpr ⟨fun uFlags hmet => hin (met_inRange hmet), fun h => absurd h hin⟩, ?_⟩
      rw [rowsFrom_past p n hin, lastCall, if_neg hin]

theorem relationTo_walk (c : Course TextHub) (peer : Option WStr) :
    RelationTo (some c) peer true = rowsFrom c (Str peer) (conCount c) 0 := rfl

theorem relationTo_cases (c : Course TextHub) (peer : Option WStr) :
    (∃ i < conCount c, (∀ j < i, InRange c j) ∧ ∃ uFlags, Met c (wcs (Str peer)) i uFlags ∧
      RelationTo (some c) peer true = ⟨S_OK, some uFlags, 2 * i + 2⟩) ∨
    (∀ i < conCount c, ¬ Meets c (wcs (Str peer)) i) ∧
      RelationTo (some c) peer true = ⟨P2PF_E_UNRESOLVED, some 0, lastCall c (conCount c) 0⟩ := by
  have hcases := rowsFrom_cases c (Str peer) (conCount c) 0
  simp only [Nat.zero_add] at hcases
  rw [relationTo_walk]
  rcases hcases with hmet | ⟨hno, heq⟩
  · exact Or.inl hmet
  · refine Or.inr ⟨?_, heq⟩
    rintro i hi ⟨hrange, uFlags, hmet⟩
    exact hno i hi hrange uFlags hmet

/-- The answer is right exactly when the walk meets the peer, or the peer is away at some moment of a walk that does not. -/
theorem relation_to_iff (c : Course TextHub) (peer : Option WStr) :
    Finds c (wcs (Str peer)) (RelationTo (some c) peer true) ↔
    (∃ i < conCount c, Meets c (wcs (Str peer)) i) ∨
      c.Once 0 (lastCall c (conCount c) 0) fun h => ¬ h.hub.Listed (wcs (Str peer)) := by
  rcases relationTo_cases c peer with ⟨i, hi, hrange, uFlags, hmet, heq⟩ | ⟨hno, heq⟩
  · rw [heq]
    refine iff_of_true ⟨fun _ => rfl, fun _ => ?_, fun h => HRESULT.noConfusion h⟩ (Or.inl ⟨i, hi, hrange, uFlags, hmet⟩)
    obtain ⟨-, r', -, hr', hpeer, -, rfl⟩ := hmet
    exact Course.once_seen (Nat.zero_le _) (Nat.le_refl _) ⟨r', List.mem_of_getElem? hr', hpeer, rfl⟩
  · rw [heq]
    constructor
    · exact fun h => Or.inr (h.unresolved rfl)
    · rintro (⟨i, hi, hmeets⟩ | haway)
      · exact absurd hmeets (hno i hi)
      · exact ⟨fun hall => absurd hall (Course.once_not.mp haway), fun h => HRESULT.noConfusion h, fun _ => haway⟩

/-! ## The calls it makes -/

/-- What the hub answers the `k`-th call of RelationTo. -/
def hubAnswer (c : Course TextHub) (k : Nat) : FlatCall → FlatAnswer
  | .GetConCount =>
    let (hr, cCon) := GetConCount (c.seen k).hub (some 0)
    { (default : FlatAnswer) with hr := hr, n := cCon.getD 0 }
  | .GetCon =>
    let i := (k - 1) / 2
    if k % 2 = 1 then
      let (hr, out) := GetCon (c.seen k).hub i ⟨none, some 0, none, none, some 0⟩
      { (default : FlatAnswer) with hr := hr, n := out.peerCch.getD 0 }
    else
      let (_, size) := GetCon (c.seen (k - 1)).hub i ⟨none, some 0, none, none, some 0⟩
      let (hr, out) := GetCon (c.seen k).hub i ⟨some [], size.peerCch, none, none, size.outFlags⟩
      { (default : FlatAnswer) with hr := hr, text := wcs (out.peerBuf.getD []) }
  | _ => default

theorem hubAnswer_first (i : Nat) : (hubAnswer c (2 * i + 1) .GetCon).hr =
      (GetCon (c.seen (2 * i + 1)).hub i ⟨none, some 0, none, none, some 0⟩).1 ∧
    (hubAnswer c (2 * i + 1) .GetCon).n =
      (GetCon (c.seen (2 * i + 1)).hub i ⟨none, some 0, none, none, some 0⟩).2.peerCch.getD 0 := by
  have hodd : (2 * i + 1) % 2 = 1 := by omega
  have hpos : (2 * i + 1 - 1) / 2 = i := by omega
  simp only [hubAnswer, if_pos hodd, hpos, and_self]

theorem hubAnswer_second {i : Nat} {r : ConRow} (hr : (rows c (2 * i + 1))[i]? = some r) :
    let out := GetCon (c.seen (2 * i + 2)).hub i ⟨some [], some (r.strPeer.length + 1), none, none, some r.uFlags⟩
    (hubAnswer c (2 * i + 2) .GetCon).hr = out.1 ∧
      (hubAnswer c (2 * i + 2) .GetCon).text = wcs (out.2.peerBuf.getD []) := by
  have heven : ¬ (2 * i + 2) % 2 = 1 := by omega
  have hback : 2 * i + 2 - 1 = 2 * i + 1 := rfl
  have hpos : (2 * i + 1) / 2 = i := by omega
  simp only [hubAnswer, if_neg heven, hback, hpos, getCon_sizing hr, and_self]

theorem rows_calls (p : WStr) : ∀ n i : Nat,
    (relationRows (wcs p) n).callsFrom (hubAnswer c) (2 * i + 1) = (rowsFrom c p n i).last + 1 := by
  intro n
  induction n with
  | zero => exact fun i => rfl
  | succ n ih =>
    intro i
    have hfirst := @hubAnswer_first c i
    rw [relationRows, Prog.callsFrom, rowsFrom, hfirst.1, hfirst.2]
    cases hr : (rows c (2 * i + 1))[i]? with
    | none =>
      unfold rows at hr
      simp only [GetCon, hr]
      rfl
    | some r =>
      have hsecond := hubAnswer_second hr
      have hsize := getCon_sizing hr
      simp only [hsize, failed_S_OK, Bool.false_eq_true, if_false, Option.getD_some, Nat.succ_ne_zero, Prog.callsFrom]
      rw [hsecond.1, hsecond.2]
      split
      · exact ih (i + 1)
      · split
        · rfl
        · exact ih (i + 1)

/-- The walk makes the calls of the method's program, as the hub answers them. -/
theorem relationTo_calls (c : Course TextHub) (peer : Option WStr) :
    (ComCall.RelationTo true (wcs (Str peer))).prog.callsFrom (hubAnswer c) 0 = (RelationTo (some c) peer true).last + 1 :=
  rows_calls (Str peer) (conCount c) 0

/-! ## While the peer keeps ahead of the walk -/

def namesBelow (p : WStr) (h : TextHub) : List WStr := ((SnapshotCons h.hub).map (·.strPeer)).filter fun q => compare q p = .lt

/-- How many rows sort before the peer at the `k`-th call: the position of its row, if it has one. -/
def place (c : Course TextHub) (p : WStr) (k : Nat) : Nat := (namesBelow p (c.seen k)).length

/-- Between the `k`-th call and the next the peer's place falls below a position that it had not fallen below, and that
    the walk has still to read or, between the two calls on it, to read again. -/
def FallsBehind (c : Course TextHub) (p : WStr) (k : Nat) : Prop :=
  ∃ i, k / 2 ≤ i ∧ i ≤ (k + 1) / 2 ∧ i ≤ place c p k ∧ place c p (k + 1) < i

/-- The walk catches up with the peer: by the second call on a position below the count no more rows sort before the
    peer than before that position, and until then the peer has not fallen behind. -/
def CaughtUp (c : Course TextHub) (p : WStr) : Prop :=
  ∃ i < conCount c, place c p (2 * i + 2) ≤ i ∧ ∀ k < 2 * i + 2, ¬ FallsBehind c p k

/-- In a sorted list an element is behind those before it in the order, and no others. -/
theorem sorted_position {p : WStr} : ∀ {l : List WStr} {i : Nat}, (l.Pairwise fun p q => compare p q = .lt) → l[i]? = some p →
    i = (l.filter fun q => compare q p = .lt).length := by
  intro l
  induction l with
  | nil =>
    intro i _ hget
    cases hget
  | cons q l ih =>
    intro i hsorted hget
    obtain ⟨hq, hl⟩ := List.pairwise_cons.mp hsorted
    cases i with
    | zero =>
      obtain rfl : q = p := Option.some.inj hget
      have hnone : l.filter (fun x => compare x q = .lt) = [] := by
        apply List.filter_eq_nil_iff.mpr
        intro x hx
        have hgt := Std.OrientedCmp.gt_of_lt (hq x hx)
        simp [hgt]
      simp [hnone]
    | succ i =>
      have hget : l[i]? = some p := hget
      have hbelow := hq p (List.mem_of_getElem? hget)
      simp [hbelow, ← ih hl hget]

theorem listed_position {h : TextHub} {p : WStr} (hp : h.hub.Listed p) :
    ∃ r, (SnapshotCons h.hub)[(namesBelow p h).length]? = some r ∧ r.strPeer = p := by
  obtain ⟨r, hr, hpeer⟩ := hp
  obtain ⟨i, hi⟩ := List.mem_iff_getElem?.mp hr
  have hname : ((SnapshotCons h.hub).map (·.strPeer))[i]? = some p := by simp [hi, hpeer]
  have hpos : i = (namesBelow p h).length := sorted_position (rows_merged h.hub).increasing hname
  exact ⟨r, hpos ▸ hi, hpeer⟩

theorem place_row {p : WStr} {k : Nat} (hp : (c.seen k).hub.Listed p) :
    ∃ r, (rows c k)[place c p k]? = some r ∧ r.strPeer = p := listed_position hp

/-- A walk that passes `d` positions makes both calls on each of them, and the first on the next. -/
theorem lastCall_passed {n : Nat} : ∀ {i d : Nat}, d ≤ n → (∀ j < d, InRange c (i + j)) →
    2 * (i + d) ≤ lastCall c n i ∧ (d < n → 2 * (i + d) + 1 ≤ lastCall c n i) := by
  induction n with
  | zero =>
    intro i d hd _
    obtain rfl : d = 0 := Nat.le_zero.mp hd
    exact ⟨Nat.le_refl _, fun h => absurd h (Nat.lt_irrefl 0)⟩
  | succ n ih =>
    intro i d hd hin
    cases d with
    | zero =>
      rw [lastCall]
      split
      · have hnext := (@ih (i + 1) 0 (Nat.zero_le n) fun j hj => absurd hj (Nat.not_lt_zero j)).1
        omega
      · omega
    | succ d =>
      have hnext := @ih (i + 1) d (Nat.le_of_succ_le_succ hd) fun j hj => by
        have hj' := hin (j + 1) (Nat.succ_lt_succ hj)
        rwa [show i + (j + 1) = i + 1 + j by omega] at hj'
      have hhere : InRange c i := hin 0 (Nat.succ_pos d)
      rw [lastCall, if_pos hhere, show i + (d + 1) = i + 1 + d by omega]
      exact ⟨hnext.1, fun h => hnext.2 (Nat.lt_of_succ_lt_succ h)⟩

/-- As long as the walk has not met a peer that is there, and the peer has not fallen behind, it is ahead. -/
theorem unmet_ahead {p : WStr} {n : Nat} (hlisted : c.Throughout 0 (lastCall c n 0) fun h => h.hub.Listed p)
    (hno : ∀ i < n, ¬ Meets c p i) : ∀ i ≤ n, (∀ k < 2 * i, ¬ FallsBehind c p k) →
      (∀ j < i, InRange c j) ∧ i ≤ place c p (2 * i) := by
  intro i
  induction i with
  | zero => exact fun _ _ => ⟨fun j hj => absurd hj (Nat.not_lt_zero j), Nat.zero_le _⟩
  | succ i ih =>
    intro hi hkeeps
    obtain ⟨hrange, hahead⟩ := ih (by omega) fun k hk => hkeeps k (by omega)
    have hzero (d : Nat) (hd : ∀ j < d, InRange c j) : ∀ j < d, InRange c (0 + j) := fun j hj => by
      rw [Nat.zero_add]; exact hd j hj
    -- the first call on the position: the peer is at it or behind it, so there is a row
    have hfirst : 2 * i + 1 ≤ lastCall c n 0 := by
      have hcalls := (lastCall_passed (Nat.le_of_succ_le hi) (hzero i hrange)).2 hi
      rwa [Nat.zero_add] at hcalls
    obtain ⟨r, hr, hpeer⟩ := place_row (hlisted.seen (Nat.zero_le _) hfirst)
    have hahead1 : i ≤ place c p (2 * i + 1) := Nat.le_of_not_lt fun hlt =>
      hkeeps (2 * i) (by omega) ⟨i, by omega, by omega, hahead, hlt⟩
    have hin : InRange c i := Nat.lt_of_le_of_lt hahead1 (List.getElem?_eq_some_iff.mp hr).1
    have hrange' : ∀ j < i + 1, InRange c j := fun j hj => by
      rcases Nat.lt_succ_iff_lt_or_eq.mp hj with hlt | rfl
      · exact hrange j hlt
      · exact hin
    -- the second
    have hsecond : 2 * i + 2 ≤ lastCall c n 0 := by
      have hcalls := (lastCall_passed hi (hzero (i + 1) hrange')).1
      omega
    obtain ⟨r', hr', hpeer'⟩ := place_row (hlisted.seen (Nat.zero_le _) hsecond)
    have hsame (h : place c p (2 * i + 1) = i) : place c p (2 * i + 2) ≠ i := fun h' => by
      rw [h] at hr
      rw [h'] at hr'
      have hfits : p.length ≤ r.strPeer.length := Nat.le_of_eq (congrArg List.length hpeer.symm)
      exact hno i (by omega) ⟨hrange, r'.uFlags, r, r', hr, hr', hpeer', hfits, rfl⟩
    refine ⟨hrange', ?_⟩
    show i + 1 ≤ place c p (2 * i + 2)
    rcases Nat.eq_or_lt_of_le hahead1 with heq | hlt
    · have hle : i ≤ place c p (2 * i + 2) := Nat.le_of_not_lt fun hlt =>
        hkeeps (2 * i + 1) (by omega) ⟨i, by omega, by omega, hahead1, hlt⟩
      have hne := hsame heq.symm
      omega
    · exact Nat.le_of_not_lt fun hlt' => hkeeps (2 * i + 1) (by omega) ⟨i + 1, by omega, by omega, hlt, hlt'⟩

/-- While the peer does not fall behind, a walk over a hub that has it all the time finds it exactly when it catches up
    with it. -/
theorem found_iff_caught {peer : Option WStr} (hlisted : c.Throughout 0 (2 * conCount c) fun h => h.hub.Listed (wcs (Str peer)))
    (hkeeps : ∀ k < 2 * conCount c, ¬ FallsBehind c (wcs (Str peer)) k) :
    (RelationTo (some c) peer true).hr = S_OK ↔ ∃ i < conCount c, place c (wcs (Str peer)) (2 * i + 2) ≤ i := by
  have hlast : lastCall c (conCount c) 0 ≤ 2 * conCount c := by
    have hle := lastCall_le c (conCount c) 0
    rwa [Nat.zero_add] at hle
  rcases relationTo_cases c peer with ⟨i, hi, hrange, uFlags, ⟨r, r', hr, hr', hpeer, -, -⟩, heq⟩ | ⟨hno, heq⟩
  · rw [heq]
    refine iff_of_true rfl ⟨i, hi, Nat.le_of_eq ?_⟩
    have hname : ((rows c (2 * i + 2)).map (·.strPeer))[i]? = some (wcs (Str peer)) := by simp [hr', hpeer]
    exact (sorted_position (rows_merged (c.seen (2 * i + 2)).hub).increasing hname).symm
  · rw [heq]
    refine iff_of_false (fun h => HRESULT.noConfusion h) ?_
    rintro ⟨i, hi, hle⟩
    have hall : c.Throughout 0 (lastCall c (conCount c) 0) fun h => h.hub.Listed (wcs (Str peer)) := fun t h0 ht =>
      hlisted t h0 (Nat.le_trans ht (Course.call_mono hlast))
    have hahead := (unmet_ahead hall hno (i + 1) hi fun k hk => hkeeps k (by omega)).2
    exact absurd (Nat.le_trans hahead hle) (Nat.not_succ_le_self i)

/-- A peer before which nobody comes or goes is caught up with. -/
theorem caughtUp_undisturbed {p : WStr} (hlisted : (c.seen 0).hub.Listed p)
    (hbelow : ∀ k ≤ 2 * conCount c, namesBelow p (c.seen k) = namesBelow p (c.seen 0)) : CaughtUp c p := by
  obtain ⟨r, hr, -⟩ := place_row hlisted
  have hi : place c p 0 < conCount c := (List.getElem?_eq_some_iff.mp hr).1
  have hplace (k : Nat) (hk : k ≤ 2 * conCount c) : place c p k = place c p 0 := congrArg List.length (hbelow k hk)
  refine ⟨place c p 0, hi, Nat.le_of_eq (hplace _ (by omega)), fun k hk => ?_⟩
  rintro ⟨i, -, -, h1, h2⟩
  rw [hplace k (by omega)] at h1
  rw [hplace (k + 1) (by omega)] at h2
  omega

/-- Whatever comes and goes: where the walk catches up with a peer that was there at the count, the answer is right. -/
theorem relation_to_found (c : Course TextHub) (peer : Option WStr)
    (hcaught : (c.seen 0).hub.Listed (wcs (Str peer)) → CaughtUp c (wcs (Str peer))) :
    Finds c (wcs (Str peer)) (RelationTo (some c) peer true) := by
  rw [relation_to_iff]
  by_contra h
  obtain ⟨hno, haway⟩ := not_or.mp h
  have hlisted : c.Throughout 0 (lastCall c (conCount c) 0) fun h => h.hub.Listed (wcs (Str peer)) := by
    by_contra hx
    exact haway (Course.once_not.mpr hx)
  obtain ⟨i, hi, hle, hkeeps⟩ := hcaught (hlisted.seen (Nat.le_refl 0) (Nat.zero_le _))
  have hahead := (unmet_ahead hlisted (fun j hj hm => hno ⟨j, hj, hm⟩) (i + 1) hi hkeeps).2
  exact absurd (Nat.le_trans hahead hle) (Nat.not_succ_le_self i)

/-! ## Two peers that log in before another -/

/-- A hub that no peer has logged in to. -/
def noPeers : TextHub where
  hub := Hub.created ⟨L "H", by decide⟩ false false .zero [] none none
  address := by
    show (0 : WChar) ∉ L "H"
    decide
  armed := fun p a ha => by
    have hnone : (∅ : Map WStr ArmedCon)[p]? = some a := ha
    rw [Std.ExtTreeMap.getElem?_empty] at hnone
    cases hnone
  peers := fun p b hb => by
    have hnone : (∅ : Map WStr Bool)[p]? = some b := hb
    rw [Std.ExtTreeMap.getElem?_empty] at hnone
    cases hnone

/-- A peer logs in. -/
def login (strPeer : WStr) (hp : 0 ∉ strPeer) (h : TextHub) : TextHub where
  hub := h.hub.MarkPeer strPeer true
  address := h.address
  armed := h.armed
  peers := fun p b hb => by
    have hget : (MarkPeerLocked strPeer true h.hub.peers).2[p]? = some b := hb
    unfold MarkPeerLocked at hget
    split at hget
    · exact h.peers p b hget
    · rcases get_of_insert hget with ⟨rfl, -⟩ | ⟨-, hold⟩
      · exact hp
      · exact h.peers p b hold

def loggedInBC : TextHub := login (L "C") (by decide) (login (L "B") (by decide) noPeers)

/-- "D" is there as well, and "A" logs in between the two calls on the first position. -/
def caughtUpWith : Course TextHub where
  value t := login (L "D") (by decide) (if t ≤ 1 then loggedInBC else login (L "A") (by decide) loggedInBC)
  call k := k
  forward k := Nat.le_succ k

/-- "C" is at the second position at first, and found at the third. -/
theorem relation_to_found_third : RelationTo (some caughtUpWith) (some (L "C")) true = ⟨S_OK, some 2052, 6⟩ ∧
    Finds caughtUpWith (wcs (Str (some (L "C")))) (RelationTo (some caughtUpWith) (some (L "C")) true) := by
  refine ⟨by decide +kernel, relation_to_found caughtUpWith (some (L "C")) fun _ =>
    ⟨2, by decide +kernel, by decide +kernel, fun k hk => ?_⟩⟩
  have hgrows : place caughtUpWith (wcs (Str (some (L "C")))) k ≤ place caughtUpWith (wcs (Str (some (L "C")))) (k + 1) := by
    revert k
    decide +kernel
  rintro ⟨i, -, -, h1, h2⟩
  omega

/-- "A" logs in after the two calls on the first position, which have read "B"'s row. -/
def walkedPast : Course TextHub where
  value t := if t ≤ 2 then loggedInBC else login (L "A") (by decide) loggedInBC
  call k := k
  forward k := Nat.le_succ k

/-- Then the calls on the second position read "B" again, and "C" is not found. -/
theorem walked_past : ¬ Finds walkedPast (wcs (Str (some (L "C")))) (RelationTo (some walkedPast) (some (L "C")) true) := by
  have hanswer : RelationTo (some walkedPast) (some (L "C")) true = ⟨P2PF_E_UNRESOLVED, some 0, 4⟩ := by decide +kernel
  have hname : wcs (Str (some (L "C"))) = L "C" := by decide
  rw [hanswer, hname]
  intro h
  obtain ⟨t, -, -, haway⟩ := h.unresolved rfl
  apply haway
  apply (listed_iff _ _).mpr
  refine Or.inr ?_
  show ((if t ≤ 2 then loggedInBC else login (L "A") (by decide) loggedInBC).hub.peers[L "C"]?).isSome = true
  split
  · decide +kernel
  · decide +kernel

end TargetFacade.RelationWalk
