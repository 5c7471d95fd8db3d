/-
  TargetFacade.Hub.ReadSide — the peers a hub lists, over runs of the verbs, the halves of a
  Link and the kernel's events (FacadeHub.cpp: SnapshotCons, GetCon, GetEndpoint, Describe).

  The rows are those of m_mapArmed and m_mapPeers, merged in key order. A row of m_mapPeers is
  never taken out, and MarkPeer writes one for any peer it is told of, down as well as up. So a
  peer whose connection closes without a login is listed (`unseen_peer_listed`), and so is one
  that a Disconnect dropped. `read_side_iff` says which steps list a peer that is neither armed
  nor logged in.

  No step reads `seen`: the peers that have logged in and that no Disconnect has dropped since.
-/

import TargetFacade.Hub.Drain
import TargetFacade.Hub.Private
import TargetFacade.Lib.Join

namespace TargetFacade

open OrdMap Runs

def P2PF_CON_LISTEN : UInt32 := 0x0001
def P2PF_CON_DIAL : UInt32 := 0x0002
def P2PF_CON_UP : UInt32 := 0x0004
def P2PF_REL_SELF : UInt32 := 0x0100
def P2PF_REL_DESCENDANT : UInt32 := 0x0200
def P2PF_REL_ANCESTOR : UInt32 := 0x0400
def P2PF_REL_UNRELATED : UInt32 := 0x0800
def P2PF_REL_PATTERN : UInt32 := 0x1000
def P2PF_REL_MASK : UInt32 := 0x1F00

/-! ## The getters -/

structure ConRow where
  strPeer : WStr
  strEndpoint : WStr
  uFlags : UInt32
  deriving DecidableEq, Repr

def RelationFlag : FacadeRelation → UInt32
  | .self => P2PF_REL_SELF
  | .descendant => P2PF_REL_DESCENDANT
  | .ancestor => P2PF_REL_ANCESTOR
  | .unrelated => P2PF_REL_UNRELATED
  | .pattern => P2PF_REL_PATTERN

def AppendFlagText (uFlags : UInt32) : WStr :=
  (if uFlags &&& P2PF_CON_LISTEN != 0 then L "listen," else []) ++
  (if uFlags &&& P2PF_CON_DIAL != 0 then L "dial," else []) ++
  (if uFlags &&& P2PF_CON_UP != 0 then L "up," else []) ++
  let uRel := uFlags &&& P2PF_REL_MASK
  if uRel = P2PF_REL_SELF then L "self"
  else if uRel = P2PF_REL_DESCENDANT then L "descendant"
  else if uRel = P2PF_REL_ANCESTOR then L "ancestor"
  else if uRel = P2PF_REL_UNRELATED then L "unrelated"
  else L "pattern"

/-- The row of a peer, from what each map has of it. -/
def conRow (csAddress strPeer : WStr) (oArmed : Option ArmedCon) (bUp : Bool) : ConRow where
  strPeer := strPeer
  strEndpoint := (oArmed.map (·.strEndpoint)).getD []
  uFlags := (oArmed.map fun a => if a.bListen then P2PF_CON_LISTEN else P2PF_CON_DIAL).getD 0 |||
    (if bUp then P2PF_CON_UP else 0) ||| RelationFlag (ClassifyPeer csAddress strPeer)

/-- The loop of SnapshotCons, at most `n` turns of it. -/
def mergeRows (csAddress : WStr) : Nat → List (WStr × ArmedCon) → List (WStr × Bool) → List ConRow
  | 0, _, _ => []
  | _ + 1, [], [] => []
  | n + 1, itA :: as, [] => conRow csAddress itA.1 (some itA.2) false :: mergeRows csAddress n as []
  | n + 1, [], itP :: ps => conRow csAddress itP.1 none itP.2 :: mergeRows csAddress n [] ps
  | n + 1, itA :: as, itP :: ps =>
    match compare itA.1 itP.1 with
    | .lt => conRow csAddress itA.1 (some itA.2) false :: mergeRows csAddress n as (itP :: ps)
    | .gt => conRow csAddress itP.1 none itP.2 :: mergeRows csAddress n (itA :: as) ps
    | .eq => conRow csAddress itA.1 (some itA.2) itP.2 :: mergeRows csAddress n as ps

/-- Each turn takes a row of one map at least. -/
def SnapshotCons (h : Hub) : List ConRow :=
  mergeRows h.csAddress (h.armed.toList.length + h.peers.toList.length) h.armed.toList h.peers.toList

def GetConCount (h : Hub) (outCount : Option Nat) : HRESULT × Option Nat :=
  match outCount with
  | none => (E_POINTER, none)
  | some _ => (S_OK, some (SnapshotCons h).length)

/-- none is NULL. -/
structure ConOut where
  peerBuf : Option WStr
  peerCch : Option Nat
  endpointBuf : Option WStr
  endpointCch : Option Nat
  outFlags : Option UInt32
  deriving DecidableEq, Repr

/-- A field whose count is NULL is skipped. -/
def copyField (value : WStr) (buf : Option WStr) (cch : Option Nat) : HRESULT × Option WStr × Option Nat :=
  if cch.isSome then CopyOut value buf cch else (S_OK, buf, none)

def GetCon (h : Hub) (index : Nat) (out : ConOut) : HRESULT × ConOut :=
  match (SnapshotCons h)[index]? with
  | none => (E_INVALIDARG, out)
  | some rRow =>
    let rPeer := copyField rRow.strPeer out.peerBuf out.peerCch
    let rEp := copyField rRow.strEndpoint out.endpointBuf out.endpointCch
    (if FAILED rPeer.1 then rPeer.1 else rEp.1,
      ⟨rPeer.2.1, rPeer.2.2, rEp.2.1, rEp.2.2, out.outFlags.map fun _ => rRow.uFlags⟩)

def GetEndpoint (h : Hub) (peer : Option WStr) (buf : Option WStr) (cch : Option Nat) : HRESULT × Option WStr × Option Nat :=
  match peer with
  | none => (E_POINTER, buf, cch)
  | some peer =>
    if cch.isNone then (E_POINTER, buf, cch)
    else
      match h.armed[peer]? with
      | some a => CopyOut a.strEndpoint buf cch
      | none => if (h.peers[peer]?).isNone then (P2PF_E_UNRESOLVED, buf, cch) else CopyOut [] buf cch

/-- One line of Describe. -/
def conLine (r : ConRow) : WStr := L "con=" ++ r.strPeer ++ [9] ++ r.strEndpoint ++ [9] ++ AppendFlagText r.uFlags ++ [10]

def Describe (h : Hub) (buf : Option WStr) (cch : Option Nat) : HRESULT × Option WStr × Option Nat :=
  if cch.isNone then (E_POINTER, buf, cch)
  else CopyOut (L "address=" ++ h.csAddress ++ [10] ++ (SnapshotCons h).flatMap conLine) buf cch

/-! ## What they list -/

/-- One of the rows GetCon and Describe go through. -/
def Hub.Listed (h : Hub) (p : WStr) : Prop := ∃ r ∈ SnapshotCons h, r.strPeer = p

/-- The hub has armed a connection for it. -/
def Hub.Armed (h : Hub) (p : WStr) : Prop := (h.armed[p]?).isSome = true

/-- m_mapPeers has a row for it. -/
def Hub.HasRow (h : Hub) (p : WStr) : Prop := (h.peers[p]?).isSome = true

/-- The row of a peer that the maps are joined at. -/
def joinRow (csAddress : WStr) (r : Join.Row WStr ArmedCon Bool) : ConRow := conRow csAddress r.1 r.2.1 (r.2.2.getD false)

theorem mergeRows_join (csAddress : WStr) : ∀ (as : List (WStr × ArmedCon)) (ps : List (WStr × Bool)) (n : Nat),
    as.length + ps.length ≤ n → mergeRows csAddress n as ps = (Join.join as ps).map (joinRow csAddress) := by
  intro as ps
  fun_induction Join.join as ps with
  | case1 =>
    intro n _
    cases n with
    | zero => rfl
    | succ n => rfl
  | case2 a as ih =>
    intro n hn
    obtain ⟨n, rfl⟩ := Nat.exists_eq_succ_of_ne_zero (Nat.ne_zero_of_lt hn)
    rw [mergeRows, ih n (Nat.le_of_succ_le_succ hn)]
    rfl
  | case3 b ps ih =>
    intro n hn
    rw [List.length_cons, ← Nat.add_assoc] at hn
    obtain ⟨n, rfl⟩ := Nat.exists_eq_succ_of_ne_zero (Nat.ne_zero_of_lt hn)
    rw [mergeRows, ih n (Nat.le_of_succ_le_succ hn)]
    rfl
  | case4 a as b ps hlt ih =>
    intro n hn
    rw [List.length_cons] at hn
    obtain ⟨n, rfl⟩ := Nat.exists_eq_succ_of_ne_zero (n := n) (by omega)
    simp only [mergeRows, hlt, ih n (by omega), List.map_cons]
    rfl
  | case5 a as b ps hgt ih =>
    intro n hn
    rw [List.length_cons, List.length_cons] at hn
    obtain ⟨n, rfl⟩ := Nat.exists_eq_succ_of_ne_zero (n := n) (by omega)
    simp only [mergeRows, hgt, ih n (by rw [List.length_cons]; omega), List.map_cons]
    rfl
  | case6 a as b ps heq ih =>
    intro n hn
    rw [List.length_cons, List.length_cons] at hn
    obtain ⟨n, rfl⟩ := Nat.exists_eq_succ_of_ne_zero (n := n) (by omega)
    simp only [mergeRows, heq, ih n (by omega), List.map_cons]
    rfl

theorem snapshot_join (h : Hub) : SnapshotCons h = (Join.join h.armed.toList h.peers.toList).map (joinRow h.csAddress) :=
  mergeRows_join h.csAddress _ _ _ (Nat.le_refl _)

theorem snapshot_peers (h : Hub) : (SnapshotCons h).map (·.strPeer) = (Join.join h.armed.toList h.peers.toList).map (·.1) := by
  rw [snapshot_join, List.map_map]
  rfl

theorem listed_iff (h : Hub) (p : WStr) : h.Listed p ↔ h.Armed p ∨ h.HasRow p := by
  have hmem : h.Listed p ↔ p ∈ (SnapshotCons h).map (·.strPeer) := List.mem_map.symm
  rw [hmem, snapshot_peers]
  exact Join.mem_keys_maps h.armed h.peers p

/-- GetCon gives it at some position. -/
def Hub.Lists (h : Hub) (p : WStr) : Prop :=
  ∃ index cch cch', GetCon h index ⟨some [], some cch, none, none, none⟩ = (S_OK, ⟨some p, some cch', none, none, none⟩)

theorem lists_iff (h : Hub) (p : WStr) : h.Lists p ↔ h.Listed p := by
  constructor
  · rintro ⟨index, cch, cch', hcon⟩
    unfold GetCon at hcon
    cases hrow : (SnapshotCons h)[index]? with
    | none =>
      rw [hrow] at hcon
      cases hcon
    | some r =>
      rw [hrow] at hcon
      obtain ⟨hhr, hout⟩ := Prod.mk.inj hcon
      have hpeer : (CopyOut r.strPeer (some []) (some cch)).2.1 = some p := congrArg ConOut.peerBuf hout
      have hok : (CopyOut r.strPeer (some []) (some cch)).1 = S_OK := by
        change (if FAILED (CopyOut r.strPeer (some []) (some cch)).1 then (CopyOut r.strPeer (some []) (some cch)).1 else S_OK) =
          S_OK at hhr
        unfold CopyOut at hhr ⊢
        simp only at hhr ⊢
        split
        · rename_i hlt
          rw [if_pos hlt] at hhr
          cases hhr
        · rfl
      exact ⟨r, List.mem_of_getElem? hrow, (copyOut_text rfl hok hpeer).symm⟩
  · rintro ⟨r, hr, rfl⟩
    obtain ⟨index, hrow⟩ := List.mem_iff_getElem?.mp hr
    refine ⟨index, r.strPeer.length + 1, r.strPeer.length + 1, ?_⟩
    unfold GetCon copyField CopyOut
    rw [hrow]
    simp

/-- GetEndpoint has never heard of the peers that are not listed, and of no others. -/
theorem getEndpoint_unresolved (h : Hub) (p : WStr) (buf : Option WStr) (uHave : Nat) :
    (GetEndpoint h (some p) buf (some uHave)).1 = P2PF_E_UNRESOLVED ↔ ¬ h.Listed p := by
  have hcopy (value : WStr) : (CopyOut value buf (some uHave)).1 ≠ P2PF_E_UNRESOLVED := by
    unfold CopyOut
    cases buf with
    | none => exact HRESULT.noConfusion
    | some text =>
      simp only
      split
      · exact HRESULT.noConfusion
      · exact HRESULT.noConfusion
  rw [listed_iff]
  unfold GetEndpoint Hub.Armed Hub.HasRow
  simp only [Option.isNone_some, Bool.false_eq_true, if_false]
  cases h.armed[p]? with
  | some a => exact iff_of_false (hcopy _) fun hno => hno (Or.inl rfl)
  | none =>
    cases h.peers[p]? with
    | some b => exact iff_of_false (hcopy _) fun hno => hno (Or.inr rfl)
    | none =>
      refine iff_of_true rfl fun hyes => ?_
      rcases hyes with hyes | hyes
      · cases hyes
      · cases hyes

/-! ## The system -/

structure ReadState where
  sys : DrainState
  seen : List WStr

def ReadState.seenAfter (s : ReadState) : HubEv → List WStr
  | .login i strThat =>
    match s.sys.hub.cons[i]? with
    | none => s.seen
    | some c => if c.ePhase = .waiting ∨ strThat = [] then s.seen else s.seen ++ [strThat]
  | .disconnect env (some p) => if FAILED (Disconnect env (some p) s.sys.hub).1 then s.seen else s.seen.filter (· != p)
  | _ => s.seen

variable (inet : InetPton)

def readStep (s : ReadState) (e : HubEv) : ReadState := ⟨drainStep inet s.sys e, s.seenAfter e⟩

/-- What is listed is what is armed or has logged in and was not dropped since, and GetEndpoint knows the rest of no other. -/
structure ReadsRight (s : ReadState) : Prop where
  getCon : ∀ p, s.sys.hub.Lists p ↔ s.sys.hub.Armed p ∨ p ∈ s.seen
  describe : ∀ p, s.sys.hub.Listed p ↔ s.sys.hub.Armed p ∨ p ∈ s.seen
  getEndpoint : ∀ p buf uHave,
    (GetEndpoint s.sys.hub (some p) buf (some uHave)).1 = P2PF_E_UNRESOLVED ↔ ¬ (s.sys.hub.Armed p ∨ p ∈ s.seen)

/-- Disconnect finds a connection to drop. -/
structure Drops (env : RetireEnv) (p : WStr) (h : Hub) : Prop where
  named : p ≠ []
  mayWait : ¬ (!h.bCallerPumped && env.bOwnsPump) = true
  alive : env.alive = true
  there : h.ConExists p = true

/-- A row is left, or written, for a peer that is then neither armed nor seen: by a Disconnect of a peer that has a row
    or whose connection closes under it, by a retraction in a Link of a peer that is not seen, and by a close of a
    connection whose peer is neither. -/
def Lingers (s : ReadState) : HubEv → Prop
  | .linkUnwind env => ∃ p, s.sys.linking = some p ∧ p ≠ [] ∧ p ∉ s.seen ∧
      (s.sys.hub.HasRow p ∨ env.alive = true ∧ ClosesOne env p kUnwindSlices s.sys.hub.cons)
  | .disconnect env peer => ∃ p, peer = some p ∧ Drops env p s.sys.hub ∧
      (s.sys.hub.HasRow p ∨ ClosesOne env p kRetireSlices s.sys.hub.cons)
  | .close i _ => ∃ c, s.sys.hub.cons[i]? = some c ∧ c.csPeer ≠ [] ∧ ¬ s.sys.hub.Armed c.csPeer ∧ c.csPeer ∉ s.seen
  | _ => False

/-! ## One step -/

/-- Every peer that is seen has a row, and every row's peer is armed or seen. -/
structure RowsRight (s : ReadState) : Prop where
  seen : ∀ p ∈ s.seen, s.sys.hub.HasRow p
  row : ∀ p, s.sys.hub.HasRow p → s.sys.hub.Armed p ∨ p ∈ s.seen

theorem readsRight_of_rows {s : ReadState} (h : RowsRight s) : ReadsRight s := by
  have hlisted (p : WStr) : s.sys.hub.Listed p ↔ s.sys.hub.Armed p ∨ p ∈ s.seen := by
    rw [listed_iff]
    constructor
    · rintro (ha | hr)
      · exact Or.inl ha
      · exact h.row p hr
    · rintro (ha | hs)
      · exact Or.inl ha
      · exact Or.inr (h.seen p hs)
  refine ⟨fun p => ?_, hlisted, fun p buf uHave => ?_⟩
  · rw [lists_iff, hlisted]
  · rw [getEndpoint_unresolved, hlisted]

theorem row_of_readsRight {s : ReadState} (h : ReadsRight s) {p : WStr} (hr : s.sys.hub.HasRow p) :
    s.sys.hub.Armed p ∨ p ∈ s.seen :=
  (h.describe p).mp ((listed_iff _ _).mpr (Or.inr hr))

/-- The rows are what they were, and nothing that was armed is not. -/
structure ArmedMore (h h' : Hub) : Prop where
  peers : h'.peers = h.peers
  armed : ∀ p, h.Armed p → h'.Armed p

theorem armedMore_same {h h' : Hub} (hs : SameCons h h') : ArmedMore h h' :=
  ⟨hs.peers, fun p ha => by unfold Hub.Armed; rwa [hs.armed]⟩

theorem armedMore_added {h h' : Hub} {peer : WStr} (ha : AddedCon peer h h') : ArmedMore h h' := by
  obtain ⟨a, harmed⟩ := ha.armed
  refine ⟨ha.peers, fun p hp => ?_⟩
  unfold Hub.Armed at *
  rw [harmed, get_insert]
  split
  · rfl
  · exact hp

theorem rowsRight_more {s s' : ReadState} (hr : RowsRight s) (hm : ArmedMore s.sys.hub s'.sys.hub) (hseen : s'.seen = s.seen) :
    RowsRight s' := by
  constructor
  · intro p hp
    unfold Hub.HasRow
    rw [hm.peers]
    exact hr.seen p (hseen ▸ hp)
  · intro p hp
    unfold Hub.HasRow at hp
    rw [hm.peers] at hp
    rcases hr.row p hp with ha | hs
    · exact Or.inl (hm.armed p ha)
    · exact Or.inr (hseen ▸ hs)

theorem hasRow_insert {h h' : Hub} {p : WStr} {b : Bool} (hp : h'.peers = h.peers.insert p b) (q : WStr) :
    h'.HasRow q ↔ h.HasRow q ∨ q = p := by
  unfold Hub.HasRow
  rw [hp, get_insert]
  by_cases he : p = q
  · simp [he]
  · simp [he, Ne.symm he]

theorem armed_erase {h h' : Hub} {p : WStr} (hp : h'.armed = h.armed.erase p) (q : WStr) :
    h'.Armed q ↔ h.Armed q ∧ q ≠ p := by
  unfold Hub.Armed
  rw [hp, get_erase]
  by_cases he : p = q
  · simp [he]
  · simp [he, Ne.symm he]

/-- A retraction adds the row of its peer when On_ConClose is raised for it. -/
theorem closeCon_hasRow (env : RetireEnv) {p : WStr} (nSlices : Nat) (h : Hub) (hp : p ≠ []) (q : WStr) :
    (CloseCon env p nSlices h).2.HasRow q ↔
      h.HasRow q ∨ q = p ∧ env.alive = true ∧ ClosesOne env p nSlices h.cons := by
  cases ha : env.alive with
  | false =>
    rw [closeCon_dead env nSlices h hp ha]
    simp [Hub.HasRow]
  | true =>
    obtain ⟨hcloses, hstays⟩ := closeCon_peers env nSlices h hp ha
    by_cases hc : ClosesOne env p nSlices h.cons
    · rw [hasRow_insert (hcloses hc)]
      simp [hc]
    · unfold Hub.HasRow
      rw [hstays hc]
      simp [hc]

theorem closeCon_armed (env : RetireEnv) {p : WStr} (nSlices : Nat) (h : Hub) (hp : p ≠ []) :
    (CloseCon env p nSlices h).2.armed = h.armed.erase p := by
  cases ha : env.alive with
  | false => rw [closeCon_dead env nSlices h hp ha]
  | true => exact (closeCon_retracted env nSlices h hp ha).armed

theorem not_drops {env : RetireEnv} {p : WStr} {h : Hub} (hd : ¬ Drops env p h) :
    FAILED (Disconnect env (some p) h).1 = true ∧ (Disconnect env (some p) h).2 = h := by
  unfold Disconnect
  simp only
  by_cases h1 : p.isEmpty = true
  · rw [if_pos h1]
    exact ⟨rfl, rfl⟩
  rw [if_neg h1]
  by_cases h2 : (!h.bCallerPumped && env.bOwnsPump) = true
  · rw [if_pos h2]
    exact ⟨rfl, rfl⟩
  rw [if_neg h2]
  cases h3 : env.alive with
  | false => exact ⟨rfl, rfl⟩
  | true =>
    cases h4 : h.ConExists p with
    | false => exact ⟨rfl, rfl⟩
    | true => exact absurd ⟨by simpa using h1, h2, h3, h4⟩ hd

/-- A Disconnect that drops a peer takes its arm away, and leaves or writes its row. -/
theorem drops_rows {env : RetireEnv} {p : WStr} {h : Hub} (hd : Drops env p h) :
    FAILED (Disconnect env (some p) h).1 = false ∧ (Disconnect env (some p) h).2.armed = h.armed.erase p ∧
      ∀ q, (Disconnect env (some p) h).2.HasRow q ↔ h.HasRow q ∨ q = p ∧ ClosesOne env p kRetireSlices h.cons := by
  have hp : p.isEmpty = false := by simpa using hd.named
  have harmed := closeCon_armed env kRetireSlices h hd.named
  have hrow (q : WStr) := closeCon_hasRow env kRetireSlices h hd.named q
  unfold Disconnect
  simp only [hp, hd.mayWait, hd.alive, hd.there, Bool.not_true, Bool.false_eq_true, if_false]
  generalize CloseCon env p kRetireSlices h = r at harmed hrow ⊢
  obtain ⟨bGone, h'⟩ := r
  refine ⟨by cases bGone <;> rfl, ?_, fun q => ?_⟩
  · rw [← harmed]
    split <;> rfl
  · have hcon : h'.HasRow q ↔ h.HasRow q ∨ q = p ∧ ClosesOne env p kRetireSlices h.cons := by
      rw [hrow q, hd.alive]
      simp
    rw [← hcon]
    by_cases hup : IsPeerUp h.peers p = true
    · have hmark : (h'.MarkPeer p false).HasRow q ↔ h'.HasRow q ∨ q = p := hasRow_insert (markPeer_peers h' false hd.named) q
      have hself : h.HasRow p := by
        unfold IsPeerUp at hup
        unfold Hub.HasRow
        cases hg : h.peers[p]? with
        | none => rw [hg] at hup; cases hup
        | some b => rfl
      simp only [hup, if_true]
      refine hmark.trans ⟨fun hor => ?_, Or.inl⟩
      rcases hor with hr | rfl
      · exact hr
      · exact hcon.mpr (Or.inl hself)
    · simp only [hup, Bool.false_eq_true, if_false]
      exact Iff.rfl

/-- A Disconnect keeps the rows right where its peer had no row and gets none. -/
theorem rowsRight_disconnect {s : ReadState} {env : RetireEnv} {p : WStr} (hr : RowsRight s) (hd : Drops env p s.sys.hub)
    (hlinger : ¬ Lingers s (.disconnect env (some p))) : RowsRight (readStep inet s (.disconnect env (some p))) := by
  obtain ⟨hok, harmed, hrow⟩ := drops_rows hd
  have hseen : (readStep inet s (.disconnect env (some p))).seen = s.seen.filter (· != p) := by
    show (if FAILED (Disconnect env (some p) s.sys.hub).1 then s.seen else _) = _
    rw [hok]
    rfl
  constructor
  · intro q hq
    rw [hseen, List.mem_filter] at hq
    exact (hrow q).mpr (Or.inl (hr.seen q hq.1))
  · intro q hq
    rw [hseen]
    have hne : q ≠ p := by
      rintro rfl
      refine hlinger ⟨q, rfl, hd, ?_⟩
      exact ((hrow q).mp hq).imp_right And.right
    rcases (hrow q).mp hq with hq | ⟨he, -⟩
    · rcases hr.row q hq with ha | hs
      · exact Or.inl ((armed_erase harmed q).mpr ⟨ha, hne⟩)
      · exact Or.inr (List.mem_filter.mpr ⟨hs, by simpa using hne⟩)
    · exact absurd he hne

theorem closed_armed (h : Hub) (i : Nat) (bRestart : Bool) : (closeCon h i bRestart).armed = h.armed := by
  unfold closeCon
  split <;> rfl

/-- A close writes the row of the connection's peer down. -/
theorem closed_peers {h : Hub} {i : Nat} (bRestart : Bool) {c : Con} (hi : h.cons[i]? = some c) :
    (c.csPeer = [] → (closeCon h i bRestart).peers = h.peers) ∧
      (c.csPeer ≠ [] → (closeCon h i bRestart).peers = h.peers.insert c.csPeer false) := by
  unfold closeCon
  rw [hi]
  constructor
  · intro hp
    simp only [hp]
    rfl
  · intro hp
    exact markPeer_peers _ false hp

theorem rowsRight_login {s : ReadState} (hr : RowsRight s) (i : Nat) (strThat : WStr) :
    RowsRight (readStep inet s (.login i strThat)) := by
  have hhub : (readStep inet s (.login i strThat)).sys.hub = loginCon s.sys.hub i strThat := rfl
  have hseen : (readStep inet s (.login i strThat)).seen = s.seenAfter (.login i strThat) := rfl
  unfold loginCon at hhub
  unfold ReadState.seenAfter at hseen
  simp only at hseen
  cases hi : s.sys.hub.cons[i]? with
  | none =>
    rw [hi] at hhub hseen
    exact rowsRight_more hr (by rw [hhub]; exact ⟨rfl, fun p hp => hp⟩) hseen
  | some c =>
    rw [hi] at hhub hseen
    simp only at hhub hseen
    by_cases hw : c.ePhase = .waiting
    · rw [if_pos hw] at hhub
      rw [if_pos (Or.inl hw)] at hseen
      exact rowsRight_more hr (by rw [hhub]; exact ⟨rfl, fun p hp => hp⟩) hseen
    rw [if_neg hw] at hhub
    by_cases hn : strThat = []
    · rw [if_pos (Or.inr hn)] at hseen
      refine rowsRight_more hr ?_ hseen
      rw [hhub, hn]
      exact ⟨rfl, fun p hp => hp⟩
    rw [if_neg (fun h => h.elim hw hn)] at hseen
    have hpeers : (readStep inet s (.login i strThat)).sys.hub.peers = s.sys.hub.peers.insert strThat true := by
      rw [hhub, markPeer_peers _ true hn]
    have hrow := hasRow_insert hpeers
    constructor
    · intro q hq
      rw [hseen, List.mem_append, List.mem_singleton] at hq
      exact (hrow q).mpr (hq.imp_left (hr.seen q))
    · intro q hq
      rw [hseen, List.mem_append, List.mem_singleton]
      have harmed : (readStep inet s (.login i strThat)).sys.hub.Armed q ↔ s.sys.hub.Armed q := by
        rw [hhub]
        exact Iff.rfl
      rw [harmed]
      rcases (hrow q).mp hq with hq | hq
      · exact (hr.row q hq).imp_right Or.inl
      · exact Or.inr (Or.inr hq)

/-- A Link that takes its listener back keeps the rows right where its peer is seen, or had no row and gets none. -/
theorem rowsRight_unwind {s : ReadState} (hr : RowsRight s) (env : RetireEnv) (hlinger : ¬ Lingers s (.linkUnwind env)) :
    RowsRight (readStep inet s (.linkUnwind env)) := by
  cases hl : s.sys.linking with
  | none =>
    have hsame : drainStep inet s.sys (.linkUnwind env) = s.sys := by
      unfold drainStep
      rw [hl]
    refine rowsRight_more hr ?_ rfl
    show ArmedMore s.sys.hub (drainStep inet s.sys (.linkUnwind env)).hub
    rw [hsame]
    exact ⟨rfl, fun p hp => hp⟩
  | some p =>
    have hhub : (readStep inet s (.linkUnwind env)).sys.hub = (CloseCon env p kUnwindSlices s.sys.hub).2 := by
      show (drainStep inet s.sys (.linkUnwind env)).hub = _
      unfold drainStep
      rw [hl]
    by_cases hp : p = []
    · subst hp
      refine rowsRight_more hr ?_ rfl
      rw [hhub]
      exact ⟨rfl, fun p hp => hp⟩
    have hrow (q : WStr) := closeCon_hasRow env kUnwindSlices s.sys.hub hp q
    have harmed := closeCon_armed env kUnwindSlices s.sys.hub hp
    rw [← hhub] at harmed
    constructor
    · intro q hq
      rw [hhub]
      exact (hrow q).mpr (Or.inl (hr.seen q hq))
    · intro q hq
      rw [hhub] at hq
      by_cases hs : q ∈ s.seen
      · exact Or.inr hs
      have hne : q ≠ p := by
        rintro rfl
        exact hlinger ⟨q, hl, hp, hs, ((hrow q).mp hq).imp_right And.right⟩
      rcases (hrow q).mp hq with hq | ⟨he, -⟩
      · have ha := (hr.row q hq).resolve_right hs
        exact Or.inl ((armed_erase harmed q).mpr ⟨ha, hne⟩)
      · exact absurd he hne

theorem rowsRight_close {s : ReadState} (hr : RowsRight s) (i : Nat) (bRestart : Bool)
    (hlinger : ¬ Lingers s (.close i bRestart)) : RowsRight (readStep inet s (.close i bRestart)) := by
  cases hi : s.sys.hub.cons[i]? with
  | none =>
    refine rowsRight_more hr ?_ rfl
    show ArmedMore s.sys.hub (closeCon s.sys.hub i bRestart)
    unfold closeCon
    rw [hi]
    exact ⟨rfl, fun p hp => hp⟩
  | some c =>
    by_cases hp : c.csPeer = []
    · refine rowsRight_more hr ?_ rfl
      constructor
      · exact (closed_peers bRestart hi).1 hp
      · intro p ha
        show (closeCon s.sys.hub i bRestart).Armed p
        unfold Hub.Armed at ha ⊢
        rwa [closed_armed]
    have hrow := hasRow_insert ((closed_peers bRestart hi).2 hp)
    constructor
    · intro q hq
      exact (hrow q).mpr (Or.inl (hr.seen q hq))
    · intro q hq
      show (closeCon s.sys.hub i bRestart).Armed q ∨ q ∈ s.seen
      unfold Hub.Armed
      rw [closed_armed]
      rcases (hrow q).mp hq with hq | rfl
      · exact hr.row q hq
      · by_cases ha : s.sys.hub.Armed c.csPeer
        · exact Or.inl ha
        by_cases hs : c.csPeer ∈ s.seen
        · exact Or.inr hs
        · exact absurd ⟨c, hi, hp, ha, hs⟩ hlinger

theorem rowsRight_step (s : ReadState) (e : HubEv) (hr : RowsRight s) (hlinger : ¬ Lingers s e) :
    RowsRight (readStep inet s e) := by
  have harm (pOwner : Option Owner) (env : ArmEnv) (toPeer : Option WStr) (endpoint : WStr) (bListen : Bool) :
      ArmedMore s.sys.hub (ArmUnified inet pOwner env toPeer endpoint bListen s.sys.hub).2 := by
    rcases armUnified_adds inet pOwner env toPeer endpoint bListen s.sys.hub with ⟨-, hs⟩ | ⟨p, -, -, hadd⟩
    · exact armedMore_same hs
    · exact armedMore_added hadd
  have hhalf (t : Trust) (env : ArmEnv) (peer : WStr) (rEp : FacadeEndpoint) (bListen : Bool) :
      ArmedMore s.sys.hub (ArmResolved env peer rEp bListen { s.sys.hub with trust := t }).2 := by
    rcases armResolved_adds env peer rEp bListen { s.sys.hub with trust := t } with ⟨-, hs⟩ | ⟨-, hadd⟩
    · exact armedMore_same ⟨hs.armed, hs.peers, hs.unretired, hs.cons⟩
    · have hmore := armedMore_added hadd
      exact ⟨hmore.peers, hmore.armed⟩
  cases e with
  | listen pOwner env toPeer endpoint => exact rowsRight_more hr (harm pOwner env toPeer endpoint true) rfl
  | connect pOwner env toPeer endpoint => exact rowsRight_more hr (harm pOwner env toPeer endpoint false) rfl
  | linkListen t env peer rEp =>
    refine rowsRight_more hr ?_ rfl
    show ArmedMore s.sys.hub (drainStep inet s.sys (.linkListen t env peer rEp)).hub
    unfold drainStep
    cases s.sys.linking with
    | some q => exact ⟨rfl, fun p hp => hp⟩
    | none => exact hhalf t env peer rEp true
  | linkDial t env peer rEp => exact rowsRight_more hr (hhalf t env peer rEp false) rfl
  | linkDone => exact ⟨hr.seen, hr.row⟩
  | linkUnwind env => exact rowsRight_unwind inet hr env hlinger
  | disconnect env peer =>
    cases peer with
    | none => exact ⟨hr.seen, hr.row⟩
    | some p =>
      by_cases hd : Drops env p s.sys.hub
      · exact rowsRight_disconnect inet hr hd hlinger
      · obtain ⟨hf, hsame⟩ := not_drops hd
        refine rowsRight_more hr ?_ ?_
        · show ArmedMore s.sys.hub (Disconnect env (some p) s.sys.hub).2
          rw [hsame]
          exact ⟨rfl, fun p hp => hp⟩
        · show (if FAILED (Disconnect env (some p) s.sys.hub).1 then s.seen else _) = s.seen
          rw [hf, if_pos rfl]
  | accept i =>
    refine rowsRight_more hr ?_ rfl
    show ArmedMore s.sys.hub (acceptCon s.sys.hub i)
    unfold acceptCon
    split
    · exact ⟨rfl, fun p hp => hp⟩
    split
    · exact ⟨rfl, fun p hp => hp⟩
    · exact ⟨rfl, fun p hp => hp⟩
  | redial i =>
    refine rowsRight_more hr ?_ rfl
    show ArmedMore s.sys.hub (redialCon s.sys.hub i)
    unfold redialCon
    split
    · exact ⟨rfl, fun p hp => hp⟩
    split
    · exact ⟨rfl, fun p hp => hp⟩
    · exact ⟨rfl, fun p hp => hp⟩
  | login i strThat => exact rowsRight_login inet hr i strThat
  | close i bRestart => exact rowsRight_close inet hr i bRestart hlinger

/-- A step that leaves a row behind is seen by the getters. -/
theorem not_lingers {s : ReadState} {e : HubEv} (h : ReadsRight (readStep inet s e)) : ¬ Lingers s e := by
  intro hlinger
  cases e with
  | linkUnwind env =>
    obtain ⟨p, hl, hp, hs, hrow⟩ := hlinger
    have hhub : (readStep inet s (.linkUnwind env)).sys.hub = (CloseCon env p kUnwindSlices s.sys.hub).2 := by
      show (drainStep inet s.sys (.linkUnwind env)).hub = _
      unfold drainStep
      rw [hl]
    have harmed := closeCon_armed env kUnwindSlices s.sys.hub hp
    rw [← hhub] at harmed
    have hrow' : (readStep inet s (.linkUnwind env)).sys.hub.HasRow p := by
      rw [hhub, closeCon_hasRow env kUnwindSlices s.sys.hub hp p]
      exact hrow.imp_right fun h => ⟨rfl, h⟩
    rcases row_of_readsRight h hrow' with ha | hs'
    · exact ((armed_erase harmed p).mp ha).2 rfl
    · exact hs hs'
  | disconnect env peer =>
    obtain ⟨p, rfl, hd, hrow⟩ := hlinger
    obtain ⟨hok, harmed, hrows⟩ := drops_rows hd
    have hrow' : (readStep inet s (.disconnect env (some p))).sys.hub.HasRow p :=
      (hrows p).mpr (hrow.imp_right fun h => ⟨rfl, h⟩)
    rcases row_of_readsRight h hrow' with ha | hs'
    · exact ((armed_erase harmed p).mp ha).2 rfl
    · have hseen : (readStep inet s (.disconnect env (some p))).seen = s.seen.filter (· != p) := by
        show (if FAILED (Disconnect env (some p) s.sys.hub).1 then s.seen else _) = _
        rw [hok]
        rfl
      rw [hseen, List.mem_filter] at hs'
      exact absurd hs'.2 (by simp)
  | close i bRestart =>
    obtain ⟨c, hi, hp, harmed, hs⟩ := hlinger
    have hrow' : (readStep inet s (.close i bRestart)).sys.hub.HasRow c.csPeer :=
      (hasRow_insert ((closed_peers bRestart hi).2 hp) c.csPeer).mpr (Or.inr rfl)
    rcases row_of_readsRight h hrow' with ha | hs'
    · refine harmed ?_
      change (closeCon s.sys.hub i bRestart).Armed c.csPeer at ha
      unfold Hub.Armed at ha ⊢
      rwa [closed_armed] at ha
    · exact hs hs'
  | _ => exact hlinger

/-- In every state of a run on a new hub the getters list the peers that are armed or have logged in and were not
    dropped since, and no others, exactly when no step of it leaves a row behind. -/
theorem read_side_iff (oAddress : HubAddress) (bSecure bCallerPumped : Bool) (oSecKeys : SecKeys) (csSecDir : WStr)
    (temp file : Option (List AllowLine)) (es : List HubEv) :
    let s₀ : ReadState := ⟨⟨.created oAddress bSecure bCallerPumped oSecKeys csSecDir temp file, none⟩, []⟩
    Always (readStep inet) ReadsRight s₀ es ↔ Each (readStep inet) (fun s e => ¬ Lingers s e) s₀ es := by
  intro s₀
  have h0 : RowsRight s₀ := by
    refine ⟨fun p hp => absurd hp List.not_mem_nil, fun p hp => ?_⟩
    have hnone : (∅ : Map WStr Bool)[p]? = none := Std.ExtTreeMap.getElem?_empty
    change ((∅ : Map WStr Bool)[p]?).isSome = true at hp
    rw [hnone] at hp
    cases hp
  exact always_iff_each_of_inv (rowsRight_step inet) (fun s => readsRight_of_rows) (fun s e _ hp => not_lingers inet hp) h0

/-- A dial that fails and is then dropped: its peer never logged in, and it is listed from then on. -/
theorem unseen_peer_listed :
    ¬ Always (readStep ⟨fun _ => false, fun _ => none⟩) ReadsRight
      ⟨⟨.created hubAddress false false .zero [] none none, none⟩, []⟩
      [.connect none ⟨⟨fun _ => true, fun _ => .IdErrIo, fun _ => none, fun _ => none, fun _ => []⟩, ⟨{}, .good, {}⟩,
        true, true⟩ (some (L "hub.p")) (L "tcp://host:9000"), .close 0 true,
        .disconnect { stays := fun _ _ => false } (some (L "hub.p"))] := by
  intro hall
  have hright := hall.last
  have hknown : (GetEndpoint (exec (readStep ⟨fun _ => false, fun _ => none⟩)
      ⟨⟨.created hubAddress false false .zero [] none none, none⟩, []⟩
      [.connect none ⟨⟨fun _ => true, fun _ => .IdErrIo, fun _ => none, fun _ => none, fun _ => []⟩, ⟨{}, .good, {}⟩,
        true, true⟩ (some (L "hub.p")) (L "tcp://host:9000"), .close 0 true,
        .disconnect { stays := fun _ _ => false } (some (L "hub.p"))]).sys.hub
      (some (L "hub.p")) none (some 0)).1 ≠ P2PF_E_UNRESOLVED := by decide +kernel
  refine hknown ((hright.getEndpoint _ _ _).mpr ?_)
  rintro (ha | hs)
  · unfold Hub.Armed at ha
    revert ha
    decide +kernel
  · revert hs
    decide +kernel

end TargetFacade
