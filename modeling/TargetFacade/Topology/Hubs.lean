/-
  TargetFacade.Topology.Hubs — createHubs, closeAll and the hubs a Topology object holds
  (TargetFacadeTopology.hpp; Hub and Network::createHub of TargetFacadeFn.hpp).

  The comment over createHubs: "On failure the hubs already created are closed, so a failed createHubs
  leaves the process as it found it." What a failure runs is closeAll, and closeAll closes what the
  object holds, whichever call made it. So the hubs that are live after a failed call are those the object
  did not hold before it (`createHubs_failed`), and a call on an object that holds a live hub always
  fails, at that hub's own address if not before (`createHubs_taken`):
  - `createHubs_atomic_iff`: a run keeps the comment's law exactly when each of its createHubs calls
    is made on an object that holds no live hub.
  - `createHubs_twice`: `hub A`, and createHubs called twice: the second call fails and A is gone.

  `calls` is read by no step: each createHubs with the hubs that were live before it and after.
-/

import TargetFacade.Lib.OrdMap
import TargetFacade.Lib.Runs
import TargetFacade.Topology.Parse

namespace TargetFacade

open Text OrdMap Runs

/-- The hubs that are live in the process, by the number of the object: the address of each. -/
structure Process where
  m_listHubs : Map Nat WStr
  next : Nat
  fresh : ∀ id : Nat, next ≤ id → m_listHubs[id]? = none

namespace Process

def empty : Process where
  m_listHubs := ∅
  next := 0
  fresh id _ := by simp

def IsAddressTaken (p : Process) (address : WStr) : Bool := p.m_listHubs.toList.any (·.2 == address)

theorem isAddressTaken_iff {p : Process} {address : WStr} :
    p.IsAddressTaken address = true ↔ ∃ id : Nat, p.m_listHubs[id]? = some address := by
  simp [IsAddressTaken, Std.ExtTreeMap.mem_toList_iff_getElem?_eq_some]

/-- One hub more. -/
def add (p : Process) (address : WStr) : Process where
  m_listHubs := p.m_listHubs.insert p.next address
  next := p.next + 1
  fresh id hid := by
    have hne : p.next ≠ id := by omega
    rw [get_insert, if_neg hne]
    exact p.fresh id (by omega)

def close (p : Process) (id : Nat) : Process where
  m_listHubs := p.m_listHubs.erase id
  next := p.next
  fresh j hj := by
    rw [get_erase, p.fresh j hj]
    split <;> rfl

theorem ne_next {p : Process} {id : Nat} {a : WStr} (h : p.m_listHubs[id]? = some a) : p.next ≠ id := by
  rintro rfl
  rw [p.fresh _ (Nat.le_refl _)] at h
  cases h

theorem get_add (p : Process) (a : WStr) (id : Nat) :
    (p.add a).m_listHubs[id]? = if p.next = id then some a else p.m_listHubs[id]? := get_insert _ _ _ _

theorem get_close (p : Process) (j id : Nat) : (p.close j).m_listHubs[id]? = if j = id then none else p.m_listHubs[id]? :=
  get_erase _ _ _

theorem add_close (p : Process) (a : WStr) : ((p.add a).close p.next).m_listHubs = p.m_listHubs := by
  show (p.m_listHubs.insert p.next a).erase p.next = p.m_listHubs
  rw [erase_insert, erase_of_none (p.fresh _ (Nat.le_refl _))]

end Process

/-! ## The object -/

/-- A Topology's m_live, and the process around it. A handle is none once its hub is closed. -/
structure LiveHubs where
  m_live : Map WStr (Option Nat)
  process : Process

namespace Topology

/-- What becomes of one hub of a createHubs call when its address is free. -/
inductive Creation where
  | made
  /-- CreateHubEx fails: no room, no pump, or the address taken while it spawned. -/
  | refused
  /-- The hub is made, and then there is no room for it in m_live. -/
  | lost
  deriving DecidableEq, Repr

/-- Network::createHub, the hub's number beside the process; none when it throws. -/
def createHub (p : Process) (address : WStr) (o : Creation) : Option (Process × Nat) :=
  if address.isEmpty || p.IsAddressTaken address || o == .refused then none
  else some (p.add address, p.next)

/-- When m_live has the address, the node made for the hub goes, and the hub with it. -/
def emplace (a : WStr) (id : Nat) (s : LiveHubs) : LiveHubs :=
  if s.m_live.contains a then { s with process := s.process.close id }
  else { s with m_live := s.m_live.insert a (some id) }

/-- Hub::close on the handle at `a`. -/
def closeHub (a : WStr) (s : LiveHubs) : LiveHubs :=
  match s.m_live[a]? with
  | some (some id) => { m_live := s.m_live.insert a none, process := s.process.close id }
  | _ => s

/-- The destructors of m_live's handles. -/
def clear (s : LiveHubs) : LiveHubs where
  m_live := ∅
  process := s.m_live.toList.foldl (fun p e => e.2.elim p p.close) s.process

def closeAll (t : Topology) (s : LiveHubs) : LiveHubs := clear (t.m_hubs.reverse.foldl (fun s a => closeHub a s) s)

/-- The loop from hub `i`: what is there at its end, or when it is thrown out of. -/
def createLoop (env : Nat → Creation) : Nat → List WStr → LiveHubs → Except LiveHubs LiveHubs
  | _, [], s => .ok s
  | i, a :: hubs, s =>
    match createHub s.process a (env i) with
    | none => .error s
    | some (p, id) =>
      if env i = .lost then .error { s with process := p.close id }
      else createLoop env (i + 1) hubs (emplace a id { s with process := p })

def createHubs (t : Topology) (env : Nat → Creation) (s : LiveHubs) : HRESULT × LiveHubs :=
  match createLoop env 0 t.m_hubs s with
  | .ok s => (S_OK, s)
  | .error s => (P2PF_E_HUB_DUPLICATE, closeAll t s)

/-! ## What is closed -/

/-- The object holds the hub. -/
def Owns (s : LiveHubs) (id : Nat) : Prop := ∃ a : WStr, s.m_live[a]? = some (some id)

/-- A hub the object holds is live, at the address it is held under. -/
def Valid (s : LiveHubs) : Prop := ∀ (a : WStr) (id : Nat), s.m_live[a]? = some (some id) → s.process.m_listHubs[id]? = some a

/-- A live hub that is not the object's. -/
def Stays (s : LiveHubs) (id : Nat) (a : WStr) : Prop := s.process.m_listHubs[id]? = some a ∧ ¬ Owns s id

theorem Valid.closeHub {s : LiveHubs} (h : Valid s) (a : WStr) : Valid (closeHub a s) := by
  unfold Topology.closeHub
  split
  · rename_i id ha
    intro b j hb
    obtain ⟨-, he⟩ | ⟨hne, hb⟩ := get_of_insert hb
    · cases he
    have hj := h b j hb
    have hid : id ≠ j := by
      rintro rfl
      exact hne (Option.some.inj ((h a id ha).symm.trans hj))
    rw [Process.get_close, if_neg hid]
    exact hj
  · exact h

theorem stays_closeHub (s : LiveHubs) (a : WStr) (id : Nat) (b : WStr) :
    Stays (closeHub a s) id b ↔ Stays s id b := by
  unfold closeHub
  split
  · rename_i j ha
    unfold Stays Owns
    simp only [Process.get_close, get_insert]
    constructor
    · rintro ⟨hlive, hown⟩
      split at hlive
      · cases hlive
      rename_i hne
      refine ⟨hlive, ?_⟩
      rintro ⟨c, hc⟩
      refine hown ⟨c, ?_⟩
      have hac : a ≠ c := by
        rintro rfl
        exact hne (Option.some.inj (Option.some.inj (ha.symm.trans hc)))
      rw [if_neg hac]
      exact hc
    · rintro ⟨hlive, hown⟩
      have hne : j ≠ id := by
        rintro rfl
        exact hown ⟨a, ha⟩
      refine ⟨by rw [if_neg hne]; exact hlive, ?_⟩
      rintro ⟨c, hc⟩
      split at hc
      · cases hc
      · exact hown ⟨c, hc⟩
  · exact Iff.rfl

theorem stays_closeHubs (id : Nat) (b : WStr) : ∀ {hubs : List WStr} {s : LiveHubs},
    Stays (hubs.foldl (fun s a => closeHub a s) s) id b ↔ Stays s id b := by
  intro hubs
  induction hubs with
  | nil => intro s; exact Iff.rfl
  | cons a hubs ih =>
    intro s
    rw [List.foldl_cons, ih, stays_closeHub]

theorem get_closeHandles (id : Nat) (b : WStr) : ∀ (l : List (WStr × Option Nat)) (p : Process),
    (l.foldl (fun p e => e.2.elim p p.close) p).m_listHubs[id]? = some b ↔
      p.m_listHubs[id]? = some b ∧ ∀ e ∈ l, e.2 ≠ some id := by
  intro l
  induction l with
  | nil => intro p; simp
  | cons e l ih =>
    intro p
    rw [List.foldl_cons, ih]
    obtain ⟨a, o⟩ := e
    cases o with
    | none => simp
    | some j =>
      simp only [Option.elim_some, Process.get_close, List.forall_mem_cons, ne_eq, Option.some.injEq]
      by_cases hj : j = id <;> simp [hj]

/-- What m_live's destructors leave. -/
theorem clear_live (s : LiveHubs) (id : Nat) (b : WStr) : (clear s).process.m_listHubs[id]? = some b ↔ Stays s id b := by
  unfold clear Stays Owns
  rw [get_closeHandles]
  refine and_congr_right fun _ => ?_
  constructor
  · rintro hall ⟨a, ha⟩
    exact hall (a, some id) (Std.ExtTreeMap.mem_toList_iff_getElem?_eq_some.mpr ha) rfl
  · rintro hown ⟨a, o⟩ he rfl
    exact hown ⟨a, Std.ExtTreeMap.mem_toList_iff_getElem?_eq_some.mp he⟩

/-- closeAll closes what the object holds, and no other hub. -/
theorem closeAll_live (t : Topology) (s : LiveHubs) (id : Nat) (b : WStr) :
    (closeAll t s).process.m_listHubs[id]? = some b ↔ Stays s id b := by
  unfold closeAll
  rw [clear_live, stays_closeHubs]

/-! ## What a call makes -/

/-- `s'` comes of `s` by hubs that the object made for itself, at addresses among `hubs`. -/
structure Grown (hubs : List WStr) (s s' : LiveHubs) : Prop where
  valid : Valid s'
  stays : ∀ id b, Stays s' id b ↔ Stays s id b
  live : ∀ (id : Nat) (b : WStr), s.process.m_listHubs[id]? = some b → s'.process.m_listHubs[id]? = some b
  keys : ∀ (a : WStr) (o : Option Nat), s'.m_live[a]? = some o → s.m_live[a]? = some o ∨ a ∈ hubs

theorem Grown.refl {s : LiveHubs} (h : Valid s) (hubs : List WStr) : Grown hubs s s where
  valid := h
  stays _ _ := Iff.rfl
  live _ _ := id
  keys _ _ := Or.inl

theorem Grown.trans {hubs hubs' : List WStr} {s s' s'' : LiveHubs} (h : Grown hubs s s') (h' : Grown hubs' s' s'') :
    Grown (hubs ++ hubs') s s'' where
  valid := h'.valid
  stays id b := (h'.stays id b).trans (h.stays id b)
  live id b hlive := h'.live id b (h.live id b hlive)
  keys a o ha := by
    rcases h'.keys a o ha with ha | ha
    · exact (h.keys a o ha).imp_right fun hm => List.mem_append_left _ hm
    · exact Or.inr (List.mem_append_right _ ha)

/-- A hub made and closed again. -/
theorem grown_lost {s : LiveHubs} (h : Valid s) (a : WStr) (hubs : List WStr) :
    Grown hubs s { s with process := (s.process.add a).close s.process.next } := by
  have hlive := Process.add_close s.process a
  constructor
  · intro b id hb
    show ((s.process.add a).close s.process.next).m_listHubs[id]? = some b
    rw [hlive]
    exact h b id hb
  · intro id b
    unfold Stays Owns
    simp only [hlive]
  · intro id b hb
    show ((s.process.add a).close s.process.next).m_listHubs[id]? = some b
    rw [hlive]
    exact hb
  · intro b o hb
    exact Or.inl hb

/-- A hub made and held. -/
theorem grown_held {s : LiveHubs} (h : Valid s) {a : WStr} (hnew : s.m_live[a]? = none) :
    Grown [a] s { m_live := s.m_live.insert a (some s.process.next), process := s.process.add a } := by
  constructor
  · intro b id hb
    show (s.process.add a).m_listHubs[id]? = some b
    rw [Process.get_add]
    obtain ⟨rfl, he⟩ | ⟨-, hb⟩ := get_of_insert hb
    · rw [if_pos (Option.some.inj he)]
    · have hid := h b id hb
      rw [if_neg (Process.ne_next hid)]
      exact hid
  · intro id b
    unfold Stays Owns
    simp only [Process.get_add, get_insert]
    constructor
    · rintro ⟨hlive, hown⟩
      have hne : s.process.next ≠ id := by
        rintro rfl
        exact hown ⟨a, by rw [if_pos rfl]⟩
      rw [if_neg hne] at hlive
      refine ⟨hlive, ?_⟩
      rintro ⟨c, hc⟩
      have hac : a ≠ c := by
        rintro rfl
        rw [hnew] at hc
        cases hc
      exact hown ⟨c, by rw [if_neg hac]; exact hc⟩
    · rintro ⟨hlive, hown⟩
      have hne := Process.ne_next hlive
      refine ⟨by rw [if_neg hne]; exact hlive, ?_⟩
      rintro ⟨c, hc⟩
      split at hc
      · exact hne (Option.some.inj (Option.some.inj hc))
      · exact hown ⟨c, hc⟩
  · intro id b hb
    show (s.process.add a).m_listHubs[id]? = some b
    rw [Process.get_add, if_neg (Process.ne_next hb)]
    exact hb
  · intro b o hb
    obtain ⟨rfl, -⟩ | ⟨-, hb⟩ := get_of_insert hb
    · exact Or.inr (by simp)
    · exact Or.inl hb

theorem grown_emplace {s : LiveHubs} (h : Valid s) (a : WStr) :
    Grown [a] s (emplace a s.process.next { s with process := s.process.add a }) := by
  unfold emplace
  split
  · exact grown_lost h a [a]
  · rename_i hnew
    refine grown_held h ?_
    simpa using hnew

theorem createHub_some {p p' : Process} {a : WStr} {o : Creation} {id : Nat} (h : createHub p a o = some (p', id)) :
    p.IsAddressTaken a = false ∧ p' = p.add a ∧ id = p.next := by
  unfold createHub at h
  split at h
  · cases h
  · rename_i hfree
    simp only [Bool.or_eq_true, not_or, Bool.not_eq_true] at hfree
    cases h
    exact ⟨hfree.1.2, rfl, rfl⟩

/-- What is there when the loop has ended, however it has. -/
def ended : Except LiveHubs LiveHubs → LiveHubs
  | .ok s | .error s => s

theorem createLoop_grown (env : Nat → Creation) : ∀ (hubs : List WStr) (i : Nat) {s : LiveHubs}, Valid s →
    Grown hubs s (ended (createLoop env i hubs s)) := by
  intro hubs
  induction hubs with
  | nil => intro i s h; exact .refl h []
  | cons a hubs ih =>
    intro i s h
    unfold createLoop
    split
    · exact .refl h _
    · rename_i p id hmade
      obtain ⟨-, rfl, rfl⟩ := createHub_some hmade
      split
      · exact grown_lost h a _
      · have hone := grown_emplace h a
        exact hone.trans (ih (i + 1) hone.valid)

/-- The address of a live hub is not given out again. -/
theorem createLoop_taken (env : Nat → Creation) {id : Nat} {a : WStr} : ∀ {hubs : List WStr} (i : Nat) {s : LiveHubs}, Valid s →
    s.process.m_listHubs[id]? = some a → a ∈ hubs → ∃ s', createLoop env i hubs s = .error s' := by
  intro hubs
  induction hubs with
  | nil => intro i s _ _ ha; cases ha
  | cons b hubs ih =>
    intro i s h hlive ha
    unfold createLoop
    split
    · exact ⟨s, rfl⟩
    · rename_i p j hmade
      obtain ⟨hfree, rfl, rfl⟩ := createHub_some hmade
      split
      · exact ⟨_, rfl⟩
      · have hone := grown_emplace h b
        have hne : a ≠ b := by
          rintro rfl
          rw [Process.isAddressTaken_iff.mpr ⟨id, hlive⟩] at hfree
          cases hfree
        exact ih (i + 1) hone.valid (hone.live id a hlive) ((List.mem_cons.mp ha).resolve_left hne)

/-- A failed call closes every hub the object holds, and none besides. -/
theorem createHubs_failed {t : Topology} {env : Nat → Creation} {s : LiveHubs} (h : Valid s)
    (hfail : FAILED (createHubs t env s).1 = true) (id : Nat) (b : WStr) :
    (createHubs t env s).2.process.m_listHubs[id]? = some b ↔ Stays s id b := by
  have hgrown := createLoop_grown env t.m_hubs 0 h
  unfold createHubs at hfail ⊢
  split
  · rename_i s' hloop
    rw [hloop] at hfail
    cases hfail
  · rename_i s' hloop
    rw [hloop] at hgrown
    exact (closeAll_live t s' id b).trans (hgrown.stays id b)

/-- A call on an object that holds a live hub fails. -/
theorem createHubs_taken {t : Topology} (env : Nat → Creation) {s : LiveHubs} (h : Valid s) {id : Nat} {a : WStr}
    (hheld : s.m_live[a]? = some (some id)) (ha : a ∈ t.m_hubs) : FAILED (createHubs t env s).1 = true := by
  obtain ⟨s', hloop⟩ := createLoop_taken env 0 h (h a id hheld) ha
  unfold createHubs
  rw [hloop]
  rfl

/-- One call keeps the law exactly when it is made on an object that holds no live hub. -/
theorem createHubs_keeps_iff {t : Topology} (env : Nat → Creation) {s : LiveHubs} (h : Valid s)
    (hdecl : ∀ (a : WStr) (o : Option Nat), s.m_live[a]? = some o → a ∈ t.m_hubs) :
    (FAILED (createHubs t env s).1 = true → (createHubs t env s).2.process.m_listHubs = s.process.m_listHubs) ↔
      ∀ id, ¬ Owns s id := by
  constructor
  · rintro hkeep id ⟨a, ha⟩
    have hfail := createHubs_taken env h ha (hdecl a _ ha)
    have hlive := h a id ha
    rw [← hkeep hfail, createHubs_failed h hfail] at hlive
    exact hlive.2 ⟨a, ha⟩
  · intro hnone hfail
    apply map_ext
    intro id
    apply Option.ext
    intro b
    rw [createHubs_failed h hfail]
    exact ⟨fun hs => hs.1, fun hs => ⟨hs, hnone id⟩⟩

/-! ## Any number of calls -/

/-- A createHubs call: its answer, and the hubs that are live before it and after. -/
structure HubsCall where
  answer : HRESULT
  before : Map Nat WStr
  after : Map Nat WStr

structure TopoSt where
  topo : Topology
  live : LiveHubs
  calls : List HubsCall

inductive TopoEv where
  | parse (text : Option WStr)
  | createHubs (env : Nat → Creation)
  | closeAll
  /-- `hub(a)->close()`. -/
  | closeHub (a : WStr)
  /-- The handle at `a` moved into one of the client's. -/
  | moveHub (a : WStr)
  /-- The rest of the process makes a hub. -/
  | createHub (a : WStr)
  /-- The rest of the process closes a hub that is not the object's. -/
  | close (id : Nat)

def topoStart (p : Process) : TopoSt := ⟨empty, ⟨∅, p⟩, []⟩

def topoStep (s : TopoSt) : TopoEv → TopoSt
  | .parse text =>
    match parse text s.topo with
    -- the old m_live goes with the object it was assigned over
    | (S_OK, t, _) => { s with topo := t, live := clear s.live }
    | _ => s
  | .createHubs env =>
    let call := s.topo.createHubs env s.live
    { s with
      live := call.2
      calls := s.calls ++ [⟨call.1, s.live.process.m_listHubs, call.2.process.m_listHubs⟩] }
  | .closeAll => { s with live := s.topo.closeAll s.live }
  | .closeHub a => { s with live := Topology.closeHub a s.live }
  | .moveHub a =>
    if s.live.m_live.contains a then { s with live := { s.live with m_live := s.live.m_live.insert a none } } else s
  | .createHub a =>
    match Topology.createHub s.live.process a .made with
    | none => s
    | some (p, _) => { s with live := { s.live with process := p } }
  | .close id =>
    if s.live.m_live.toList.any (·.2 == some id) then s
    else { s with live := { s.live with process := s.live.process.close id } }

/-- A failed createHubs leaves the process as it found it. -/
def Atomic (s : TopoSt) : Prop := ∀ c ∈ s.calls, FAILED c.answer = true → c.after = c.before

/-- A createHubs call is made on an object that holds no live hub. -/
def HoldsNone (s : TopoSt) : TopoEv → Prop
  | .createHubs _ => ∀ id, ¬ Owns s.live id
  | _ => True

/-- What every step keeps. -/
structure Kept (s : TopoSt) : Prop where
  valid : Valid s.live
  declared : ∀ (a : WStr) (o : Option Nat), s.live.m_live[a]? = some o → a ∈ s.topo.m_hubs

theorem valid_empty (p : Process) : Valid ⟨∅, p⟩ := by
  intro a id ha
  simp at ha

theorem kept_empty (t : Topology) (p : Process) (calls : List HubsCall) : Kept ⟨t, ⟨∅, p⟩, calls⟩ :=
  ⟨valid_empty p, fun a o ha => by simp at ha⟩

theorem kept_start (p : Process) : Kept (topoStart p) := kept_empty _ p []

/-- What the object holds after a call. -/
theorem createHubs_held {t : Topology} (env : Nat → Creation) {s : LiveHubs} (h : Valid s) :
    Valid (createHubs t env s).2 ∧
      ∀ (a : WStr) (o : Option Nat), (createHubs t env s).2.m_live[a]? = some o → s.m_live[a]? = some o ∨ a ∈ t.m_hubs := by
  have hgrown := createLoop_grown env t.m_hubs 0 h
  unfold createHubs
  cases hloop : createLoop env 0 t.m_hubs s with
  | ok s' =>
    rw [hloop] at hgrown
    exact ⟨hgrown.valid, hgrown.keys⟩
  | error s' =>
    refine ⟨valid_empty _, fun a o ha => ?_⟩
    simp [closeAll, clear] at ha

theorem kept_createHubs {s : TopoSt} (h : Kept s) (env : Nat → Creation) : Kept (topoStep s (.createHubs env)) := by
  obtain ⟨hvalid, hkeys⟩ := createHubs_held (t := s.topo) env h.valid
  exact ⟨hvalid, fun a o ha => (hkeys a o ha).elim (h.declared a o) id⟩

theorem kept_closeHub {s : TopoSt} (h : Kept s) (a : WStr) : Kept (topoStep s (.closeHub a)) := by
  refine ⟨h.valid.closeHub a, fun b o hb => ?_⟩
  simp only [topoStep, closeHub] at hb
  split at hb
  · rename_i id ha
    obtain ⟨rfl, -⟩ | ⟨-, hb⟩ := get_of_insert hb
    · exact h.declared _ _ ha
    · exact h.declared b o hb
  · exact h.declared b o hb

theorem kept_moveHub {s : TopoSt} (h : Kept s) (a : WStr) : Kept (topoStep s (.moveHub a)) := by
  simp only [topoStep]
  split
  · rename_i ha
    obtain ⟨o, ha⟩ := Option.isSome_iff_exists.mp (by rwa [Std.ExtTreeMap.contains_eq_isSome_getElem?] at ha)
    refine ⟨fun b id hb => ?_, fun b o' hb => ?_⟩
    · obtain ⟨-, he⟩ | ⟨-, hb⟩ := get_of_insert hb
      · cases he
      · exact h.valid b id hb
    · obtain ⟨rfl, -⟩ | ⟨-, hb⟩ := get_of_insert hb
      · exact h.declared _ _ ha
      · exact h.declared b o' hb
  · exact h

theorem kept_createHub {s : TopoSt} (h : Kept s) (a : WStr) : Kept (topoStep s (.createHub a)) := by
  simp only [topoStep]
  split
  · exact h
  · rename_i p id hmade
    obtain ⟨-, rfl, -⟩ := createHub_some hmade
    refine ⟨fun b j hb => ?_, h.declared⟩
    have hj := h.valid b j hb
    show (s.live.process.add a).m_listHubs[j]? = some b
    rw [Process.get_add, if_neg (Process.ne_next hj)]
    exact hj

theorem kept_close {s : TopoSt} (h : Kept s) (id : Nat) : Kept (topoStep s (.close id)) := by
  simp only [topoStep]
  split
  · exact h
  · rename_i hown
    refine ⟨fun b j hb => ?_, h.declared⟩
    have hne : id ≠ j := by
      rintro rfl
      exact hown (List.any_eq_true.mpr ⟨(b, some id), Std.ExtTreeMap.mem_toList_iff_getElem?_eq_some.mpr hb, by simp⟩)
    show (s.live.process.close id).m_listHubs[j]? = some b
    rw [Process.get_close, if_neg hne]
    exact h.valid b j hb

theorem kept_step (s : TopoSt) (e : TopoEv) (h : Kept s) : Kept (topoStep s e) := by
  cases e with
  | parse text =>
    simp only [topoStep]
    split
    · exact kept_empty _ _ _
    · exact h
  | createHubs env => exact kept_createHubs h env
  | closeAll => exact kept_empty _ _ _
  | closeHub a => exact kept_closeHub h a
  | moveHub a => exact kept_moveHub h a
  | createHub a => exact kept_createHub h a
  | close id => exact kept_close h id

/-- A step adds to the calls when it is one. -/
theorem topoStep_calls {s : TopoSt} {e : TopoEv} (h : ∀ env, e ≠ .createHubs env) : (topoStep s e).calls = s.calls := by
  cases e with
  | createHubs env => exact absurd rfl (h env)
  | parse text => simp only [topoStep]; split <;> rfl
  | closeAll => rfl
  | closeHub a => rfl
  | moveHub a => simp only [topoStep]; split <;> rfl
  | createHub a => simp only [topoStep]; split <;> rfl
  | close id => simp only [topoStep]; split <;> rfl

/-- Which steps keep the law. -/
theorem atomic_step_iff {s : TopoSt} {e : TopoEv} (h : Kept s) (ha : Atomic s) : Atomic (topoStep s e) ↔ HoldsNone s e := by
  by_cases hcall : ∃ env, e = .createHubs env
  · obtain ⟨env, rfl⟩ := hcall
    unfold HoldsNone
    rw [← createHubs_keeps_iff env h.valid h.declared]
    unfold Atomic topoStep
    simp only [List.forall_mem_append, List.forall_mem_singleton]
    exact and_iff_right ha
  · have hcalls := topoStep_calls (s := s) (not_exists.mp hcall)
    have hnone : HoldsNone s e := by
      unfold HoldsNone
      split
      · exact absurd ⟨_, rfl⟩ hcall
      · trivial
    unfold Atomic
    rw [hcalls]
    exact iff_of_true ha hnone

/-- Whatever is parsed, however creation fails, and whatever else lives in the process: every failed
    createHubs of a run leaves the live hubs as they were exactly when each createHubs is called on an
    object that holds no live hub. -/
theorem createHubs_atomic_iff (p : Process) (es : List TopoEv) :
    Always topoStep Atomic (topoStart p) es ↔ Each topoStep HoldsNone (topoStart p) es := by
  refine always_iff_each_of_inv (I := fun s => Kept s ∧ Atomic s) ?_ (fun s h => h.2) ?_ ⟨kept_start p, nofun⟩
  · intro s e h hok
    exact ⟨kept_step s e h.1, (atomic_step_iff h.1 h.2).mpr hok⟩
  · intro s e h ha
    exact (atomic_step_iff h.1 h.2).mp ha

/-- A hub, and createHubs called twice: the second call fails at the first one's hub and closes it. -/
theorem createHubs_twice : ¬ Always topoStep Atomic (topoStart .empty)
    [.parse (some (L "hub A")), .createHubs fun _ => .made, .createHubs fun _ => .made] := by
  have hread : readLines 0 [L "hub A"] = some [(1, .hub (L "A") [])] := by decide
  have hparse : parse (some (L "hub A")) empty = (S_OK, ⟨[L "A"], [], [], [], []⟩, 0) :=
    parse_one (by decide) hread (by decide) empty
  have hdeclared : topoStep (topoStart .empty) (.parse (some (L "hub A"))) =
      ⟨⟨[L "A"], [], [], [], []⟩, clear ⟨∅, .empty⟩, []⟩ := by
    simp only [topoStep, topoStart, hparse]
  intro h
  have hlast := h.last
  simp only [exec_cons, exec_nil, hdeclared] at hlast
  -- the second call: A is live before it
  have hkeep := hlast _ (List.mem_append_right _ (List.mem_singleton_self _)) (by decide)
  have hlive : (_ : Map Nat WStr)[0]? = (_ : Map Nat WStr)[0]? := congrArg (·[0]?) hkeep
  exact absurd hlive (by decide)

end Topology

end TargetFacade
