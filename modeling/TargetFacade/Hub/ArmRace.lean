/-
  TargetFacade.Hub.ArmRace — m_mapArmed against the connections, over every interleaving of
  ArmRecorded calls on one hub.

  An ArmRecorded is two or three steps: the locked section that records, the post outside the
  lock, and after a refusal the locked section that puts back what the first one found; with
  nobody between them they are Hub.Model's ArmRecorded (`arm_alone`). What it found is its own
  (`oPrev`), and by the time it is put back another call may have recorded and posted. The
  records are right whenever no call for the peer is under way, exactly while no roll-back that
  is the last one under way for its peer puts back something else than the record of the
  connection the kernel took (`Unrecords`).
-/

import TargetFacade.Hub.ArmSpec

namespace TargetFacade

open OrdMap Runs

/-! ## ArmRecorded in steps -/

structure ArmCall where
  peer : WStr
  rEp : FacadeEndpoint
  bListen : Bool

def ArmCall.record (a : ArmCall) : ArmedCon := ⟨a.rEp.Format, a.bListen⟩

inductive ArmStage where
  | idle
  /-- Between its record and its post. -/
  | recorded (oPrev : Option ArmedCon)
  /-- Between the refusal of its post and its roll-back. -/
  | refused (oPrev : Option ArmedCon)
  | returned
  deriving DecidableEq, Repr

def ArmStage.UnderWay : ArmStage → Prop
  | .recorded _ | .refused _ => True
  | .idle | .returned => False

/-- The hub, and how far each call has come. -/
structure Arms where
  hub : Hub
  stage : Nat → ArmStage

def Arms.move (s : Arms) (i : Nat) (h : Hub) (g : ArmStage) : Arms :=
  ⟨h, fun j => if j = i then g else s.stage j⟩

section Race

variable (env : ArmEnv) (call : Nat → ArmCall)

/-- The next step of call `i`. -/
def armStep (s : Arms) (i : Nat) : Arms :=
  match s.stage i with
  | .idle =>
    s.move i { s.hub with armed := s.hub.armed.insert (call i).peer (call i).record }
      (.recorded s.hub.armed[(call i).peer]?)
  | .recorded oPrev =>
    let (hr, h) := PostCon env (MakeCon env.factory s.hub.nNextCon (call i).rEp (call i).peer (call i).bListen) s.hub
    s.move i h (if FAILED hr then .refused oPrev else .returned)
  | .refused oPrev => s.move i { s.hub with armed := putBack s.hub.armed (call i).peer oPrev } .returned
  | .returned => s

/-- A call nobody comes between is ArmRecorded. -/
theorem arm_alone (s : Arms) (i : Nat) (h : s.stage i = .idle) :
    (exec (armStep env call) s [i, i, i]).hub =
      (ArmRecorded env (call i).peer (call i).rEp (call i).bListen s.hub).2 := by
  simp only [exec_cons, exec_nil]
  unfold ArmRecorded
  simp only [armStep, h, Arms.move, if_true, ArmCall.record]
  generalize PostCon env _ _ = r
  obtain ⟨hr, h'⟩ := r
  cases FAILED hr <;> simp

end Race

/-- The record that says what the connection was posted with. -/
def Con.record (c : Con) : ArmedCon := ⟨c.rEp.Format, c.eMode == .service⟩

/-- The record of `p` is that of its connection, and without a connection there is none. -/
structure Hub.Agrees (h : Hub) (p : WStr) : Prop where
  posted : ∀ c ∈ h.cons, c.csPeer = p → h.armed[p]? = some c.record
  none : (∀ c ∈ h.cons, c.csPeer ≠ p) → h.armed[p]? = none

section Agreement

variable (call : Nat → ArmCall)

/-- No call for `p` is under way. -/
def Arms.Settled (s : Arms) (p : WStr) : Prop := ∀ i, (call i).peer = p → ¬ (s.stage i).UnderWay

def Arms.Truthful (s : Arms) : Prop := ∀ p, s.Settled call p → s.hub.Agrees p

/-- Call `i` is the only one under way for its peer. -/
def Arms.Sole (s : Arms) (i : Nat) : Prop :=
  ∀ j, j ≠ i → (call j).peer = (call i).peer → ¬ (s.stage j).UnderWay

/-- The last roll-back for a peer puts back something else than the record of its connection. -/
def Unrecords (s : Arms) (i : Nat) : Prop :=
  ∃ oPrev, s.stage i = .refused oPrev ∧ s.Sole call i ∧
    ∃ c ∈ s.hub.cons, c.csPeer = (call i).peer ∧ oPrev ≠ some c.record

end Agreement

/-! ## One step -/

@[simp] theorem stage_move_self (s : Arms) (i : Nat) (h : Hub) (g : ArmStage) : (s.move i h g).stage i = g := by
  simp [Arms.move]

theorem stage_move_ne (s : Arms) {i j : Nat} (h : Hub) (g : ArmStage) (hne : j ≠ i) :
    (s.move i h g).stage j = s.stage j := by
  simp [Arms.move, hne]

@[simp] theorem hub_move (s : Arms) (i : Nat) (h : Hub) (g : ArmStage) : (s.move i h g).hub = h := rfl

section Steps

variable {env : ArmEnv} {call : Nat → ArmCall}

theorem settled_other {s : Arms} {i : Nat} {h : Hub} {g : ArmStage} {p : WStr} (hp : (call i).peer ≠ p) :
    (s.move i h g).Settled call p ↔ s.Settled call p := by
  constructor
  · intro hs j hj
    have hne : j ≠ i := fun e => hp (e ▸ hj)
    have := hs j hj
    rwa [stage_move_ne s h g hne] at this
  · intro hs j hj
    have hne : j ≠ i := fun e => hp (e ▸ hj)
    rw [stage_move_ne s h g hne]
    exact hs j hj

/-- A call that returns leaves its peer settled exactly when it was the only one. -/
theorem settled_return {s : Arms} {i : Nat} {h : Hub} :
    (s.move i h .returned).Settled call (call i).peer ↔ s.Sole call i := by
  constructor
  · intro hs j hne hj
    have := hs j hj
    rwa [stage_move_ne s h _ hne] at this
  · intro hs j hj
    by_cases hne : j = i
    · subst hne; simp [ArmStage.UnderWay]
    · rw [stage_move_ne s h _ hne]
      exact hs j hne hj

theorem not_settled {s : Arms} {i : Nat} {h : Hub} {g : ArmStage} (hg : g.UnderWay) :
    ¬ (s.move i h g).Settled call (call i).peer := by
  intro hs
  exact hs i rfl (by simpa using hg)

theorem sole_other {s : Arms} {i j : Nat} {h : Hub} {g : ArmStage} (hp : (call j).peer ≠ (call i).peer) :
    (s.move i h g).Sole call j ↔ s.Sole call j := by
  constructor
  · intro hs k hk hkp
    have hne : k ≠ i := fun e => hp (by rw [← hkp, e])
    have := hs k hk hkp
    rwa [stage_move_ne s h g hne] at this
  · intro hs k hk hkp
    have hne : k ≠ i := fun e => hp (by rw [← hkp, e])
    rw [stage_move_ne s h g hne]
    exact hs k hk hkp

/-- While the kernel has no connection for a peer, no call has been refused and the record is
    the one of the call under way when there is one only; from then on the connections of the
    peer have one record, which stands whenever no call is under way. -/
structure Arms.Inv (call : Nat → ArmCall) (s : Arms) (p : WStr) : Prop where
  unposted : (∀ c ∈ s.hub.cons, c.csPeer ≠ p) → s.Settled call p → s.hub.armed[p]? = none
  unrefused : (∀ c ∈ s.hub.cons, c.csPeer ≠ p) → ∀ i oPrev, (call i).peer = p → s.stage i ≠ .refused oPrev
  sole : (∀ c ∈ s.hub.cons, c.csPeer ≠ p) → ∀ i, (call i).peer = p → (s.stage i).UnderWay → s.Sole call i →
    s.hub.armed[p]? = some (call i).record
  posted : ∀ c ∈ s.hub.cons, c.csPeer = p → s.Settled call p → s.hub.armed[p]? = some c.record
  one : ∀ c ∈ s.hub.cons, ∀ d ∈ s.hub.cons, c.csPeer = p → d.csPeer = p → c.record = d.record

theorem Arms.Inv.agrees {s : Arms} {p : WStr} (hi : s.Inv call p) (hs : s.Settled call p) : s.hub.Agrees p :=
  ⟨fun c hc hp => hi.posted c hc hp hs, fun hn => hi.unposted hn hs⟩

/-- A step of another peer's call. -/
theorem inv_other {s : Arms} {i : Nat} {h : Hub} {g : ArmStage} {p : WStr} (hi : s.Inv call p)
    (hp : (call i).peer ≠ p) (harmed : h.armed[p]? = s.hub.armed[p]?)
    (hcons : ∀ c, c.csPeer = p → (c ∈ h.cons ↔ c ∈ s.hub.cons)) : (s.move i h g).Inv call p := by
  have hnone : (∀ c ∈ h.cons, c.csPeer ≠ p) → ∀ c ∈ s.hub.cons, c.csPeer ≠ p :=
    fun hn c hc e => hn c ((hcons c e).mpr hc) e
  refine ⟨fun hn hs => ?_, fun hn j oPrev hj => ?_, fun hn j hj huw hsole => ?_, fun c hc e hs => ?_, ?_⟩
  · rw [hub_move, harmed]
    exact hi.unposted (hnone hn) ((settled_other hp).mp hs)
  · have hne : j ≠ i := fun e => hp (e ▸ hj)
    rw [stage_move_ne s h g hne]
    exact hi.unrefused (hnone hn) j oPrev hj
  · have hne : j ≠ i := fun e => hp (e ▸ hj)
    rw [stage_move_ne s h g hne] at huw
    rw [hub_move, harmed]
    exact hi.sole (hnone hn) j hj huw ((sole_other (by rw [hj]; exact Ne.symm hp)).mp hsole)
  · rw [hub_move, harmed]
    exact hi.posted c ((hcons c e).mp hc) e ((settled_other hp).mp hs)
  · intro c hc d hd e e'
    exact hi.one c ((hcons c e).mp hc) d ((hcons d e').mp hd) e e'

/-- The kernel refuses a post for one reason only: a connection with that peer address. -/
structure ArmEnv.Takes (env : ArmEnv) : Prop where
  factory : env.factory = true
  accepts : env.accepts = true

theorem post_cases (henv : env.Takes) {s : Arms} {i : Nat} {oPrev : Option ArmedCon} (hg : s.stage i = .recorded oPrev) :
    ((∀ c ∈ s.hub.cons, c.csPeer ≠ (call i).peer) ∧ ∃ c n handed, c.csPeer = (call i).peer ∧ c.record = (call i).record ∧
      armStep env call s i =
        s.move i { s.hub with cons := s.hub.cons ++ [c], nNextCon := n, handed := handed } .returned) ∨
    ((∃ c ∈ s.hub.cons, c.csPeer = (call i).peer) ∧ ∃ handed,
      armStep env call s i = s.move i { s.hub with handed := handed } (.refused oPrev)) := by
  obtain ⟨c, hmk, hcp, hcr⟩ : ∃ c : Con,
      MakeCon env.factory s.hub.nNextCon (call i).rEp (call i).peer (call i).bListen = some c ∧
      c.csPeer = (call i).peer ∧ c.record = (call i).record := by
    refine ⟨_, by simp only [MakeCon, henv.factory, Bool.not_true, Bool.false_eq_true, if_false]; rfl, rfl, ?_⟩
    cases hb : (call i).bListen <;> simp [Con.record, ArmCall.record, hb]
  have hex : s.hub.ConExists c.csPeer = false ↔ ∀ d ∈ s.hub.cons, d.csPeer ≠ (call i).peer := by
    rw [hcp]
    simp [Hub.ConExists]
  have hstep : armStep env call s i = s.move i (PostCon env (some c) s.hub).2
      (if FAILED (PostCon env (some c) s.hub).1 then .refused oPrev else .returned) := by
    unfold armStep
    simp only [hg, hmk]
  rcases postCon_cases env c s.hub with ⟨⟨-, he⟩, hr⟩ | ⟨hn, hr⟩
  · rw [hr] at hstep
    exact Or.inl ⟨hex.mp he, c, _, _, hcp, hcr, hstep⟩
  · have hsome : ∃ d ∈ s.hub.cons, d.csPeer = (call i).peer := by
      have hne : ¬ s.hub.ConExists c.csPeer = false := fun he => hn ⟨henv.accepts, he⟩
      rw [hex] at hne
      simpa using hne
    rw [hr] at hstep
    exact Or.inr ⟨hsome, _, hstep⟩

/-- Recording puts one more call under way. -/
theorem record_inv {s : Arms} {i : Nat} {g : ArmStage} (hs : ∀ p, s.Inv call p) (hg : s.stage i = .idle)
    (hgo : ∃ oPrev, g = .recorded oPrev) (p : WStr) :
    (s.move i { s.hub with armed := s.hub.armed.insert (call i).peer (call i).record } g).Inv call p := by
  obtain ⟨oPrev, rfl⟩ := hgo
  by_cases hp : (call i).peer = p
  case neg => exact inv_other (hs p) hp (by simp [get_insert, hp]) (fun c _ => Iff.rfl)
  subst hp
  have hi := hs (call i).peer
  refine ⟨fun _ hset => absurd hset (not_settled trivial), fun hn j oP hj => ?_, fun hn j hj huw hsole => ?_,
    fun c hc e hset => absurd hset (not_settled trivial), hi.one⟩
  · by_cases hne : j = i
    · subst hne; simp
    · rw [stage_move_ne s _ _ hne]
      exact hi.unrefused hn j oP hj
  · by_cases hne : j = i
    · subst hne; simp
    · have := hsole i (Ne.symm hne) hj.symm
      exact absurd (show (ArmStage.recorded oPrev).UnderWay from trivial) (by simpa using this)

theorem post_inv (henv : env.Takes) {s : Arms} {i : Nat} {oPrev : Option ArmedCon} (hs : ∀ p, s.Inv call p)
    (hg : s.stage i = .recorded oPrev) (p : WStr) : (armStep env call s i).Inv call p := by
  have hi := hs (call i).peer
  rcases @post_cases env call henv _ _ _ hg with ⟨hnone, c, n, handed, hcp, hcr, he⟩ | ⟨⟨d, hd, hdp⟩, handed, he⟩
  · rw [he]
    by_cases hp : (call i).peer = p
    case neg =>
      refine inv_other (hs p) hp rfl fun d hdp => ?_
      have hne : d ≠ c := fun e => hp (by rw [← hcp, ← e, hdp])
      simp [hne]
    subst hp
    -- the first connection of the peer, posted by the call that recorded last
    have hnow : ∀ d, d ∈ s.hub.cons ++ [c] → d.csPeer = (call i).peer → d = c := by
      intro d hd hdp
      rcases List.mem_append.mp hd with hd | hd
      · exact absurd hdp (hnone d hd)
      · simpa using hd
    have hsome : ¬ ∀ d ∈ s.hub.cons ++ [c], d.csPeer ≠ (call i).peer := fun hn => hn c (by simp) hcp
    refine ⟨fun hn => absurd hn hsome, fun hn => absurd hn hsome, fun hn => absurd hn hsome,
      fun d hd hdp hset => ?_, fun d hd e he hdp hep => ?_⟩
    · have hwas := hi.sole hnone i rfl (by rw [hg]; trivial) (settled_return.mp hset)
      rw [hnow d hd hdp, hcr]
      exact hwas
    · rw [hnow d hd hdp, hnow e he hep]
  · rw [he]
    by_cases hp : (call i).peer = p
    case neg => exact inv_other (hs p) hp rfl (fun c _ => Iff.rfl)
    subst hp
    have hsome : ¬ ∀ c ∈ s.hub.cons, c.csPeer ≠ (call i).peer := fun hn => hn d hd hdp
    exact ⟨fun hn => absurd hn hsome, fun hn => absurd hn hsome, fun hn => absurd hn hsome,
      fun c hc e hset => absurd hset (not_settled trivial), hi.one⟩

/-- A roll-back leaves its peer's record right unless it unrecords its connection. -/
theorem rollback_inv {s : Arms} {i : Nat} {oPrev : Option ArmedCon} (hs : ∀ p, s.Inv call p)
    (hg : s.stage i = .refused oPrev) (hok : ¬ Unrecords call s i) (p : WStr) :
    (s.move i { s.hub with armed := putBack s.hub.armed (call i).peer oPrev } .returned).Inv call p := by
  by_cases hp : (call i).peer = p
  case neg => exact inv_other (hs p) hp (by simp [get_putBack, hp]) (fun c _ => Iff.rfl)
  subst hp
  have hi := hs (call i).peer
  have hsome : ¬ ∀ c ∈ s.hub.cons, c.csPeer ≠ (call i).peer := fun hn => hi.unrefused hn i oPrev rfl hg
  refine ⟨fun hn => absurd hn hsome, fun hn => absurd hn hsome, fun hn => absurd hn hsome,
    fun c hc e hset => ?_, hi.one⟩
  have hsole := settled_return.mp hset
  have hfound : oPrev = some c.record := by
    by_cases hne : oPrev = some c.record
    · exact hne
    · exact absurd ⟨oPrev, hg, hsole, c, hc, e, hne⟩ hok
  simp [get_putBack, hfound]

theorem armStep_inv (henv : env.Takes) (s : Arms) (i : Nat) (hs : ∀ p, s.Inv call p) (hok : ¬ Unrecords call s i) :
    ∀ p, (armStep env call s i).Inv call p := by
  intro p
  cases hg : s.stage i with
  | idle =>
    have he : armStep env call s i =
        s.move i { s.hub with armed := s.hub.armed.insert (call i).peer (call i).record }
          (.recorded s.hub.armed[(call i).peer]?) := by
      unfold armStep; simp only [hg]
    rw [he]
    exact record_inv hs hg ⟨_, rfl⟩ p
  | recorded oPrev => exact post_inv henv hs hg p
  | refused oPrev =>
    have he : armStep env call s i =
        s.move i { s.hub with armed := putBack s.hub.armed (call i).peer oPrev } .returned := by
      unfold armStep; simp only [hg]
    rw [he]
    exact rollback_inv hs hg hok p
  | returned =>
    have he : armStep env call s i = s := by unfold armStep; simp only [hg]
    rw [he]
    exact hs p

/-- A roll-back that unrecords a connection leaves a settled peer with a wrong record. -/
theorem unrecords_untrue {s : Arms} {i : Nat} (hu : Unrecords call s i) :
    ¬ (armStep env call s i).Truthful call := by
  obtain ⟨oPrev, hg, hsole, c, hc, hcp, hne⟩ := hu
  intro ht
  have he : armStep env call s i =
      s.move i { s.hub with armed := putBack s.hub.armed (call i).peer oPrev } .returned := by
    unfold armStep; simp only [hg]
  rw [he] at ht
  have hrec := (ht (call i).peer (settled_return.mpr hsole)).posted c hc hcp
  rw [hub_move] at hrec
  simp only [get_putBack, if_true] at hrec
  exact hne hrec

end Steps

/-! ## Runs -/

section Runs

variable {env : ArmEnv} {call : Nat → ArmCall}

/-- A hub whose records agree with its connections, before any of the calls. -/
def Arms.start (h : Hub) : Arms := ⟨h, fun _ => .idle⟩

theorem start_inv {h : Hub} (hh : ∀ p, h.Agrees p) (p : WStr) : (Arms.start h).Inv call p := by
  refine ⟨fun hn _ => (hh p).none hn, fun _ i oPrev _ hj => (by cases hj),
    fun _ i _ huw => absurd huw id,
    fun c hc e _ => (hh p).posted c hc e, fun c hc d hd e e' => ?_⟩
  have h1 := (hh p).posted c hc e
  have h2 := (hh p).posted d hd e'
  exact Option.some.inj (h1.symm.trans h2)

/-- The records are right, whenever no call for the peer is under way, exactly while no last
    roll-back for a peer unrecords its connection. -/
theorem records_agree_iff (henv : env.Takes) {h : Hub} (hh : ∀ p, h.Agrees p) (es : List Nat) :
    Always (armStep env call) (Arms.Truthful call) (Arms.start h) es ↔
      Each (armStep env call) (fun s i => ¬ Unrecords call s i) (Arms.start h) es :=
  always_iff_each_of_inv (I := fun s => ∀ p, s.Inv call p) (fun s i hs hok => armStep_inv henv s i hs hok)
    (fun _ hs p hset => (hs p).agrees hset) (fun _ _ _ ht hu => unrecords_untrue hu ht) (start_inv hh)

/-- Two Listens for one peer: the second posts first, and the refusal of the first erases its
    record. -/
theorem refusal_erases_the_winner :
    ¬ Always
        (armStep ⟨⟨fun _ => true, fun _ => .IdErrIo, fun _ => none, fun _ => none, fun _ => []⟩, ⟨{}, .good, {}⟩, true, true⟩
          fun i => ⟨L "Demo.B", { uNum := 7000 + i }, true⟩)
        (Arms.Truthful fun i => ⟨L "Demo.B", { uNum := 7000 + i }, true⟩)
        (.start (.created ⟨L "Demo", by decide⟩ false false ⟨0, 0, false, []⟩ [] none none)) [0, 1, 1, 0, 0] := by
  intro h
  have hagree := (h.last (L "Demo.B") (by
    intro i _ huw
    rcases i with _ | _ | i
    · exact huw
    · exact huw
    · exact huw)).posted ⟨0, L "Demo.B", .service, { uNum := 7001 }, false, .posted⟩ (by decide +kernel) rfl
  revert hagree
  decide +kernel

theorem first_to_record_posts :
    Always
        (armStep ⟨⟨fun _ => true, fun _ => .IdErrIo, fun _ => none, fun _ => none, fun _ => []⟩, ⟨{}, .good, {}⟩, true, true⟩
          fun i => ⟨L "Demo.B", { uNum := 7000 + i }, true⟩)
        (Arms.Truthful fun i => ⟨L "Demo.B", { uNum := 7000 + i }, true⟩)
        (.start (.created ⟨L "Demo", by decide⟩ false false ⟨0, 0, false, []⟩ [] none none)) [0, 1, 0, 1, 1] := by
  refine (records_agree_iff ⟨rfl, rfl⟩ (fun p => ⟨fun c hc => (by cases hc), fun _ => ?_⟩) _).mpr ?_
  · exact Std.ExtTreeMap.getElem?_empty
  · simp only [each_cons, each_nil, and_true]
    refine ⟨?_, ?_, ?_, ?_, ?_⟩
    · rintro ⟨oPrev, hg, -⟩; cases hg
    · rintro ⟨oPrev, hg, -⟩; cases hg
    · rintro ⟨oPrev, hg, -⟩; cases hg
    · rintro ⟨oPrev, hg, -⟩; cases hg
    · rintro ⟨oPrev, hg, -, c, hc, -, hne⟩
      obtain rfl := List.mem_singleton.mp hc
      cases hg
      exact hne (by decide +kernel)

end Runs

end TargetFacade
