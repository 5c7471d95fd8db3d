/-
  TargetFacade.Hub.PeerUp — IsPeerUp against the connections that are logged in, over runs of
  On_ConLogin, On_ConLoginAck and On_ConClose of any number of connections.

  A hub keeps one row a peer, whatever the number of its connections: a login writes the row
  of the address it names up, a close the row of its connection's address down. So a row goes
  wrong when a connection closes over another that is logged in at its address, the clone of
  a named listener that never logged in among them (`Erases`), and when a login takes away an
  address and leaves nobody there, or names none (`Strays`).
-/

import Mathlib.Logic.Function.Basic
import TargetFacade.Lib.Runs
import TargetFacade.Hub.Broadcast

namespace TargetFacade

open OrdMap Runs
open Function (update)

/-! ## Connections and their events -/

/-- The connections of a hub, by object, and m_mapPeers. -/
structure Sessions where
  cons : Nat → Con
  peers : Map WStr Bool

inductive ConEv where
  | login (pCon : Nat) (strThat : WStr)
  | loginAck (pCon : Nat) (strThis strThat : WStr)
  | close (pCon : Nat)
  deriving DecidableEq, Repr

def Sessions.MarkPeer (s : Sessions) (strPeer : WStr) (bUp : Bool) : Sessions :=
  { s with peers := (MarkPeerLocked strPeer bUp s.peers).2 }

def On_ConLogin (s : Sessions) (pCon : Nat) (strThat : WStr) : Sessions :=
  Sessions.MarkPeer { s with cons := update s.cons pCon ((s.cons pCon).loggedIn strThat) } strThat true

def On_ConLoginAck (s : Sessions) (pCon : Nat) (_strThis strThat : WStr) : Sessions :=
  Sessions.MarkPeer { s with cons := update s.cons pCon ((s.cons pCon).loggedIn strThat) } strThat true

def On_ConClose (s : Sessions) (pCon : Nat) : Sessions :=
  -- read before the base handler may retire the connection
  let csPeer := (s.cons pCon).csPeer
  Sessions.MarkPeer { s with cons := update s.cons pCon { s.cons pCon with ePhase := .waiting } } csPeer false

def conStep (s : Sessions) : ConEv → Sessions
  | .login pCon strThat => On_ConLogin s pCon strThat
  | .loginAck pCon strThis strThat => On_ConLoginAck s pCon strThis strThat
  | .close pCon => On_ConClose s pCon

/-- A hub nobody has logged in to, its connections for any peers. -/
def Sessions.fresh (cons : Nat → Con) : Sessions := ⟨fun c => { cons c with ePhase := .posted }, ∅⟩

/-! ## The truth -/

def Con.UpAt (c : Con) (p : WStr) : Prop := c.csPeer = p ∧ c.ePhase = .login

/-- A connection for this peer has logged in and has not closed since. -/
def Sessions.LoggedIn (s : Sessions) (p : WStr) : Prop := ∃ c, (s.cons c).UpAt p

/-- Another connection than `pCon`. -/
def Sessions.LoggedInBeside (s : Sessions) (pCon : Nat) (p : WStr) : Prop := ∃ c, c ≠ pCon ∧ (s.cons c).UpAt p

structure Sessions.Truthful (s : Sessions) : Prop where
  up : ∀ p, IsPeerUp s.peers p = true ↔ s.LoggedIn p
  /-- One copy to each such peer, of a broadcast that is accepted, by a kernel that takes it. -/
  broadcast : ∀ uWord env topic payload size pOpts, BroadcastAccepts uWord topic payload size →
    (∀ p, env.Reaches pOpts p = true) →
    let dests := (BroadcastInternal uWord env s.peers (some topic) payload size pOpts).2.map (·.strDest)
    dests.Nodup ∧ ∀ p, p ∈ dests ↔ s.LoggedIn p

/-- A login that leaves nobody logged in at the address its connection was logged in at, or
    that names no address when nobody is logged in at its connection's own. -/
def Sessions.Strays (s : Sessions) (c : Nat) (strThat : WStr) : Prop :=
  (strThat ≠ [] ∧ (s.cons c).ePhase = .login ∧ (s.cons c).csPeer ≠ strThat ∧ ¬ s.LoggedInBeside c (s.cons c).csPeer) ∨
    (strThat = [] ∧ ¬ s.LoggedIn (s.cons c).csPeer)

/-- The close of a connection while another is logged in at its address. -/
def Sessions.Erases (s : Sessions) (c : Nat) : Prop :=
  (s.cons c).csPeer ≠ [] ∧ s.LoggedInBeside c (s.cons c).csPeer

def Misstates (s : Sessions) : ConEv → Prop
  | .login c strThat => s.Strays c strThat
  | .loginAck c _ strThat => s.Strays c strThat
  | .close c => s.Erases c

/-! ## One step -/

/-- The rows tell the truth, and nobody wrote one for the empty address. -/
structure Sessions.Inv (s : Sessions) : Prop where
  up : ∀ p, IsPeerUp s.peers p = true ↔ s.LoggedIn p
  unnamed : s.peers[([] : WStr)]? = none

theorem Sessions.Inv.truthful {s : Sessions} (h : s.Inv) : s.Truthful := by
  refine ⟨h.up, fun uWord env topic payload size pOpts hacc hreach => ?_⟩
  have hall : (upPeers s.peers).filter (env.Reaches pOpts) = upPeers s.peers :=
    List.filter_eq_self.mpr fun p _ => hreach p
  have hd : (BroadcastInternal uWord env s.peers (some topic) payload size pOpts).2.map (·.strDest) = upPeers s.peers := by
    rw [broadcast_posts env s.peers pOpts hacc, hall, List.map_map]
    exact List.map_id _
  simp only [hd]
  exact ⟨nodup_upPeers _, fun p => mem_upPeers.trans (h.up p)⟩

theorem markPeer_row {s : Sessions} {p : WStr} (b : Bool) (hp : p ≠ []) :
    (s.MarkPeer p b).peers = s.peers.insert p b := by
  simp [Sessions.MarkPeer, markPeerLocked_named b s.peers hp]

theorem markPeer_nobody {s : Sessions} (b : Bool) : (s.MarkPeer [] b).peers = s.peers := rfl

/-- Who is logged in after one connection's state is written. -/
theorem loggedIn_update {s : Sessions} {c : Nat} {st : Con} {peers : Map WStr Bool} {p : WStr} :
    (⟨update s.cons c st, peers⟩ : Sessions).LoggedIn p ↔ st.UpAt p ∨ s.LoggedInBeside c p := by
  constructor
  · intro h
    obtain ⟨d, hd⟩ := h
    by_cases hdc : d = c
    · subst hdc
      exact Or.inl (by simpa using hd)
    · exact Or.inr ⟨d, hdc, by simpa [hdc] using hd⟩
  · intro h
    rcases h with h | ⟨d, hdc, hd⟩
    · exact ⟨c, by simpa using h⟩
    · exact ⟨d, by simpa [hdc] using hd⟩

theorem loggedIn_split {s : Sessions} (c : Nat) {p : WStr} : s.LoggedIn p ↔ (s.cons c).UpAt p ∨ s.LoggedInBeside c p := by
  constructor
  · intro h
    obtain ⟨d, hd⟩ := h
    by_cases hdc : d = c
    · exact Or.inl (hdc ▸ hd)
    · exact Or.inr ⟨d, hdc, hd⟩
  · intro h
    rcases h with h | ⟨d, -, hd⟩
    · exact ⟨c, h⟩
    · exact ⟨d, hd⟩

/-- A row is written at `p`: the rows tell the truth exactly if they do at `p` and nobody
    came or went elsewhere. -/
theorem up_insert_iff {s s' : Sessions} {p : WStr} {b : Bool} (hi : s.Inv) (hpeers : s'.peers = s.peers.insert p b) :
    (∀ q, IsPeerUp s'.peers q = true ↔ s'.LoggedIn q) ↔
      (b = true ↔ s'.LoggedIn p) ∧ ∀ q, q ≠ p → (s.LoggedIn q ↔ s'.LoggedIn q) := by
  rw [hpeers]
  refine ⟨fun h => ⟨?_, fun q hq => ?_⟩, fun h q => ?_⟩
  · have := h p
    rwa [isPeerUp_insert, if_pos rfl] at this
  · have := h q
    rw [isPeerUp_insert, if_neg (Ne.symm hq)] at this
    rw [← hi.up q, this]
  · rw [isPeerUp_insert]
    by_cases hq : p = q
    · subst hq; rw [if_pos rfl]; exact h.1
    · rw [if_neg hq, hi.up q]; exact h.2 q (Ne.symm hq)

theorem login_up_iff {s : Sessions} (c : Nat) (strThat : WStr) (hi : s.Inv) :
    (∀ q, IsPeerUp (On_ConLogin s c strThat).peers q = true ↔ (On_ConLogin s c strThat).LoggedIn q) ↔
      ¬ s.Strays c strThat := by
  have hlog : ∀ q, (On_ConLogin s c strThat).LoggedIn q ↔
      ((s.cons c).loggedIn strThat).UpAt q ∨ s.LoggedInBeside c q := fun q => loggedIn_update
  by_cases hn : strThat = []
  · -- no row is written
    subst hn
    have hpeers : (On_ConLogin s c []).peers = s.peers := markPeer_nobody true
    have hown : ∀ q, ((s.cons c).loggedIn []).UpAt q ↔ (s.cons c).csPeer = q := by
      intro q
      simp [Con.loggedIn, Con.UpAt]
    simp only [hpeers, hlog, hown, hi.up, Sessions.Strays, ne_eq, not_true_eq_false, false_and, true_and, false_or, not_not]
    refine ⟨fun h => (h (s.cons c).csPeer).mpr (Or.inl rfl), fun h q => ?_⟩
    rw [loggedIn_split c] at h ⊢
    refine ⟨fun hq => hq.imp_left fun hc => hc.1, fun hq => ?_⟩
    rcases hq with rfl | hq
    · exact h
    · exact Or.inr hq
  · have hown : ∀ q, ((s.cons c).loggedIn strThat).UpAt q ↔ strThat = q := by
      intro q
      simp [Con.loggedIn, Con.UpAt, hn]
    have hrow : (On_ConLogin s c strThat).peers = s.peers.insert strThat true := markPeer_row true hn
    rw [up_insert_iff hi hrow]
    simp only [hlog, hown, true_or, Sessions.Strays, ne_eq, hn, not_false_eq_true, true_and, false_and, or_false,
      not_and, not_not]
    constructor
    · intro h hl hp
      rcases (h _ hp).mp ⟨c, rfl, hl⟩ with he | hb
      · exact absurd he.symm hp
      · exact hb
    · intro h q hq
      rw [loggedIn_split c]
      refine ⟨fun hx => Or.inr ?_, fun hx => Or.inr (hx.resolve_left fun he => hq he.symm)⟩
      rcases hx with ⟨rfl, hl⟩ | hb
      · exact h hl hq
      · exact hb

theorem close_up_iff {s : Sessions} (c : Nat) (hi : s.Inv) :
    (∀ q, IsPeerUp (On_ConClose s c).peers q = true ↔ (On_ConClose s c).LoggedIn q) ↔ ¬ s.Erases c := by
  have hlog : ∀ q, (On_ConClose s c).LoggedIn q ↔ s.LoggedInBeside c q := fun q =>
    loggedIn_update.trans ⟨fun h => h.resolve_left (by simp [Con.UpAt]), Or.inr⟩
  -- the connection was logged in at its own address only
  have hkeep : ∀ q, q ≠ (s.cons c).csPeer → (s.LoggedIn q ↔ s.LoggedInBeside c q) := by
    intro q hq
    rw [loggedIn_split c]
    exact ⟨fun h => h.resolve_left fun hc => hq hc.1.symm, Or.inr⟩
  by_cases hn : (s.cons c).csPeer = []
  · have hpeers : (On_ConClose s c).peers = s.peers := by
      show (Sessions.MarkPeer _ (s.cons c).csPeer false).peers = _
      rw [hn]; rfl
    simp only [hpeers, hlog, hi.up, Sessions.Erases, hn, ne_eq, not_true_eq_false, false_and, not_false_eq_true, iff_true]
    intro q
    by_cases hq : q = []
    · subst hq
      have hno : ¬ s.LoggedIn [] := by
        intro hx
        have := (hi.up []).mpr hx
        rw [IsPeerUp, hi.unnamed] at this
        cases this
      exact ⟨fun hx => absurd hx hno, fun hx => absurd ((loggedIn_split c).mpr (Or.inr hx)) hno⟩
    · exact hkeep q (by rw [hn]; exact hq)
  · have hrow : (On_ConClose s c).peers = s.peers.insert (s.cons c).csPeer false := markPeer_row false hn
    rw [up_insert_iff hi hrow]
    simp only [hlog, Sessions.Erases, ne_eq, hn, not_false_eq_true, true_and, Bool.false_eq_true, false_iff]
    exact ⟨fun h => h.1, fun h => ⟨h, hkeep⟩⟩

theorem markPeer_unnamed {s : Sessions} (p : WStr) (b : Bool) (h : s.peers[([] : WStr)]? = none) :
    (s.MarkPeer p b).peers[([] : WStr)]? = none := by
  by_cases hp : p = []
  · subst hp; exact h
  · rw [markPeer_row b hp, get_insert, if_neg hp]
    exact h

theorem step_up_iff (s : Sessions) (e : ConEv) (hi : s.Inv) :
    (∀ q, IsPeerUp (conStep s e).peers q = true ↔ (conStep s e).LoggedIn q) ↔ ¬ Misstates s e := by
  cases e with
  | login c strThat => exact login_up_iff c strThat hi
  | loginAck c strThis strThat => exact login_up_iff c strThat hi
  | close c => exact close_up_iff c hi

theorem conStep_inv (s : Sessions) (e : ConEv) (hi : s.Inv) (hok : ¬ Misstates s e) : (conStep s e).Inv := by
  refine ⟨(step_up_iff s e hi).mpr hok, ?_⟩
  cases e <;> exact markPeer_unnamed _ _ hi.unnamed

/-! ## Runs -/

theorem fresh_inv (cons : Nat → Con) : (Sessions.fresh cons).Inv := by
  refine ⟨fun p => ⟨fun h => ?_, fun h => ?_⟩, by simp [Sessions.fresh]⟩
  · simp [IsPeerUp, Sessions.fresh] at h
  · obtain ⟨c, -, hc⟩ := h
    simp [Sessions.fresh] at hc

/-- IsPeerUp and Broadcast know who is logged in, all through a run, exactly when no
    connection closes over another that is logged in at its address and no login strays. -/
theorem peers_truthful_iff (cons : Nat → Con) (es : List ConEv) :
    Always conStep Sessions.Truthful (.fresh cons) es ↔ Each conStep (fun s e => ¬ Misstates s e) (.fresh cons) es :=
  always_iff_each_of_inv conStep_inv (fun _ hi => hi.truthful) (fun s e hi hp => (step_up_iff s e hi).mp hp.up)
    (fresh_inv cons)

/-- The old session of a peer closes after its replacement has logged in. -/
theorem replaced_session_takes_the_peer_down :
    ¬ Always conStep Sessions.Truthful (.fresh fun c => ⟨c, L "Demo.B", .accept, {}, false, .posted⟩)
      [.login 0 (L "Demo.B"), .login 1 (L "Demo.B"), .close 0] := by
  intro h
  have hup := (h.last.up (L "Demo.B")).mpr ⟨1, by decide, by decide⟩
  revert hup
  decide

end TargetFacade
