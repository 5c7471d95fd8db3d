/-
  TargetFacade.Registry.Model — the life of the hubs of one network: CreateHubEx, Close and
  CloseAllHubs on any number of threads (FacadeNetwork.cpp, FacadeHub.cpp).

  A hub is the number of its object. Each locked section, each spawn, each CloseInternal and
  each delete is one step, so a thread between two of them stands at a `Pc`. An event of a
  thread that is not at the place it needs does nothing.

  CloseInternal does not always bring the pump down. A caller-pumped hub's comes down on its
  own thread only, and CloseAllHubs runs on the thread of the last Release; a spawned hub's is
  waited for five seconds, and CloseP2PmsgHub may throw. `bStopped` is the outcome of the last
  two, and `pumpEnds` the end of a pump that outlived them. What the kernel sweeps up after
  CloseAllHubs is no part of this.

  `published`, `called`, `torn`, `freed` and `late` are read by no step: the hubs a client
  was given, the Close calls, the CloseInternals and deletes that ran, and the steps a thread
  made on a hub after its delete.
-/

import Mathlib.Logic.Function.Basic
import TargetFacade.Base

namespace TargetFacade

open Function (update)

/-- Who runs a CloseInternal and the delete after it. -/
inductive Closer where
  /-- A CreateHubEx that found its address taken. -/
  | backOut
  | close
  | closeAll
  deriving DecidableEq, Repr

/-- Where a thread stands. -/
inductive Pc where
  | idle
  /-- CreateHubEx: the address was free at the first check. -/
  | checked (address : WStr)
  /-- CreateHubEx: the pump is up and the hub is not in m_listHubs yet. -/
  | spawned (h : Nat)
  /-- Close: the latch is taken and RemoveHub still to come. -/
  | latched (h : Nat)
  /-- CloseAllHubs: between two hubs. -/
  | sweeping
  | closing (by_ : Closer) (h : Nat)
  | freeing (by_ : Closer) (h : Nat)
  deriving DecidableEq, Repr

structure Registry where
  next : Nat
  address : Nat → WStr
  /-- The thread that runs a caller-pumped hub. -/
  pumpOwner : Nat → Option Nat
  /-- m_hThread of a spawned hub, m_nHubID of a caller-pumped one, is not 0. -/
  hasPump : Nat → Bool
  /-- The pump has been started and not torn down. -/
  running : Nat → Bool
  bClosed : Nat → Bool
  deleted : Nat → Bool
  listHubs : List Nat
  pc : Nat → Pc
  answers : List (Nat × HRESULT)
  published : List Nat
  called : List Nat
  torn : List Nat
  freed : List Nat
  late : List (Nat × Nat)

def Registry.empty : Registry where
  next := 0
  address := fun _ => []
  pumpOwner := fun _ => none
  hasPump := fun _ => false
  running := fun _ => false
  bClosed := fun _ => false
  deleted := fun _ => false
  listHubs := []
  pc := fun _ => .idle
  answers := []
  published := []
  called := []
  torn := []
  freed := []
  late := []

def Registry.IsAddressTakenLocked (s : Registry) (address : WStr) : Bool := s.listHubs.any (s.address · == address)

/-- Thread `t` reads the hubs `hs`. -/
def Registry.touch (s : Registry) (t : Nat) (hs : List Nat) : Registry :=
  { s with late := s.late ++ (hs.filter s.deleted).map fun h => (t, h) }

def Registry.OwnsPump (s : Registry) (t h : Nat) : Bool := s.hasPump h && s.pumpOwner h == some t

/-- What thread `t` does to the pump of hub `h` in CloseInternal. -/
def Registry.CloseInternal (s : Registry) (t h : Nat) (bStopped : Bool) : Registry :=
  let s' := { s with
    hasPump := update s.hasPump h false
    running := if bStopped then update s.running h false else s.running }
  if (s.pumpOwner h).isSome then
    if !s.hasPump h then s
    -- another thread's: the connections are drained, and that is all
    else if !s.OwnsPump t h then s
    else s'
  else if !s.hasPump h then s
  else s'

def Registry.goto (s : Registry) (t : Nat) (pc : Pc) : Registry := { s with pc := update s.pc t pc }

theorem goto_others {s : Registry} {t : Nat} {pc : Pc} : ∀ u, u ≠ t → (s.goto t pc).pc u = s.pc u :=
  fun _ hu => Function.update_of_ne hu _ _

theorem goto_own {s : Registry} {t : Nat} {pc : Pc} : (s.goto t pc).pc t = pc := Function.update_self _ _ _

def Registry.answer (s : Registry) (t : Nat) (hr : HRESULT) : Registry := { s with answers := s.answers ++ [(t, hr)] }

inductive RegEv where
  /-- CreateHubEx up to its first check. -/
  | createHub (t : Nat) (address : WStr)
  /-- The hub is made and provisioned, and its pump started. -/
  | spawn (t : Nat) (bStarted bCallerPumped : Bool)
  /-- The second check, and the insertion. -/
  | publish (t : Nat)
  /-- Close up to its latch. -/
  | close (t : Nat) (h : Nat)
  | removeHub (t : Nat)
  | closeInternal (t : Nat) (bStopped : Bool)
  /-- The pump of a hub whose CloseInternal did not see it down comes down. -/
  | pumpEnds (h : Nat)
  | delete (t : Nat)
  | closeAllHubs (t : Nat)
  | removeHead (t : Nat)
  deriving DecidableEq, Repr

def regStep (s : Registry) : RegEv → Registry
  | .createHub t address =>
    match s.pc t with
    | .idle =>
      if address.isEmpty then s.answer t E_INVALIDARG
      else
        let s := s.touch t s.listHubs
        if s.IsAddressTakenLocked address then s.answer t P2PF_E_HUB_DUPLICATE else s.goto t (.checked address)
    | _ => s
  | .spawn t bStarted bCallerPumped =>
    match s.pc t with
    | .checked address =>
      if !bStarted then (s.answer t P2PF_E_HUB_SPAWN).goto t .idle
      else
        let h := s.next
        Registry.goto { s with
          next := h + 1
          address := update s.address h address
          pumpOwner := update s.pumpOwner h (if bCallerPumped then some t else none)
          hasPump := update s.hasPump h true
          running := update s.running h true } t (.spawned h)
    | _ => s
  | .publish t =>
    match s.pc t with
    | .spawned h =>
      let s := s.touch t s.listHubs
      if s.IsAddressTakenLocked (s.address h) then s.goto t (.closing .backOut h)
      else
        Registry.goto (Registry.answer { s with listHubs := s.listHubs ++ [h], published := s.published ++ [h] } t S_OK)
          t .idle
    | _ => s
  | .close t h =>
    match s.pc t with
    | .idle =>
      -- only what CreateHubEx has given out can be called
      if h ∉ s.published then s
      else
        let s := { s.touch t [h] with called := s.called ++ [h] }
        if s.deleted h then s
        else if (s.pumpOwner h).isSome && !s.OwnsPump t h then s.answer t .P2PF_E_PUMP_OWNER
        else if s.bClosed h then s.answer t P2PF_E_CLOSED
        else Registry.goto { s with bClosed := update s.bClosed h true } t (.latched h)
    | _ => s
  | .removeHub t =>
    match s.pc t with
    | .latched h => Registry.goto { s.touch t [h] with listHubs := s.listHubs.erase h } t (.closing .close h)
    | _ => s
  | .closeInternal t bStopped =>
    match s.pc t with
    | .closing c h => (Registry.CloseInternal { s.touch t [h] with torn := s.torn ++ [h] } t h bStopped).goto t (.freeing c h)
    | _ => s
  | .pumpEnds h => if s.hasPump h then s else { s with running := update s.running h false }
  | .delete t =>
    match s.pc t with
    | .freeing c h =>
      let s := { s.touch t [h] with deleted := update s.deleted h true, freed := s.freed ++ [h] }
      match c with
      | .backOut => (s.answer t P2PF_E_HUB_DUPLICATE).goto t .idle
      | .close => (s.answer t S_OK).goto t .idle
      | .closeAll => s.goto t .sweeping
    | _ => s
  | .closeAllHubs t =>
    match s.pc t with
    | .idle => s.goto t .sweeping
    | _ => s
  | .removeHead t =>
    match s.pc t with
    | .sweeping =>
      match s.listHubs with
      | [] => s.goto t .idle
      | h :: rest => Registry.goto { s with listHubs := rest } t (.closing .closeAll h)
    | _ => s

/-! ## What a step can do -/

/-- The steps, but for what `answers` and `late` record. -/
inductive RegOutcome (s : Registry) : RegEv → Registry → Prop
  /-- Nothing but the records has changed: the event was refused, or its thread is elsewhere. -/
  | quiet (e : RegEv) (answers : List (Nat × HRESULT)) (called : List Nat) (late : List (Nat × Nat))
      (hpass : ∀ t address, e = .createHub t address → s.pc t = .idle → address ≠ [] →
        s.IsAddressTakenLocked address = true ∧ answers = s.answers ++ [(t, P2PF_E_HUB_DUPLICATE)])
      (hpump : ∀ t cp address, e = .spawn t true cp → s.pc t ≠ .checked address)
      (hlate : late = s.late ∨ (∃ t, late = s.late ++ (s.listHubs.filter s.deleted).map fun h => (t, h)) ∨
        ∃ t h, e = .close t h ∧ s.pc t = .idle ∧ h ∈ s.published ∧
          late = s.late ++ ([h].filter s.deleted).map fun h => (t, h))
      (hcalled : called = s.called ∨ ∃ t h, e = .close t h ∧ called = s.called ++ [h]) :
      RegOutcome s e { s with answers := answers, called := called, late := late }
  | checked (t : Nat) (address : WStr) (hpc : s.pc t = .idle) (hne : address ≠ [])
      (hfree : s.IsAddressTakenLocked address = false) :
      RegOutcome s (.createHub t address) ((s.touch t s.listHubs).goto t (.checked address))
  | unstarted (t : Nat) (cp : Bool) (address : WStr) (hpc : s.pc t = .checked address) :
      RegOutcome s (.spawn t false cp) ((s.answer t P2PF_E_HUB_SPAWN).goto t .idle)
  | spawned (t : Nat) (cp : Bool) (address : WStr) (hpc : s.pc t = .checked address) :
      RegOutcome s (.spawn t true cp) (Registry.goto { s with
        next := s.next + 1
        address := update s.address s.next address
        pumpOwner := update s.pumpOwner s.next (if cp then some t else none)
        hasPump := update s.hasPump s.next true
        running := update s.running s.next true } t (.spawned s.next))
  | backedOut (t h : Nat) (hpc : s.pc t = .spawned h) :
      RegOutcome s (.publish t) ((s.touch t s.listHubs).goto t (.closing .backOut h))
  | published (t h : Nat) (hpc : s.pc t = .spawned h) (hfree : s.IsAddressTakenLocked (s.address h) = false) :
      RegOutcome s (.publish t) (Registry.goto (Registry.answer { s.touch t s.listHubs with
        listHubs := s.listHubs ++ [h], published := s.published ++ [h] } t S_OK) t .idle)
  | latched (t h : Nat) (hpc : s.pc t = .idle) (hpub : h ∈ s.published) (hlive : s.deleted h = false)
      (hopen : s.bClosed h = false) :
      RegOutcome s (.close t h) (Registry.goto { s.touch t [h] with
        called := s.called ++ [h], bClosed := update s.bClosed h true } t (.latched h))
  | removed (t h : Nat) (hpc : s.pc t = .latched h) :
      RegOutcome s (.removeHub t)
        (Registry.goto { s.touch t [h] with listHubs := s.listHubs.erase h } t (.closing .close h))
  /-- CloseInternal of a hub with no pump left, or with another thread's. -/
  | passed (t : Nat) (c : Closer) (h : Nat) (bStopped : Bool) (hpc : s.pc t = .closing c h)
      (hpass : s.hasPump h = false ∨ ∃ u, u ≠ t ∧ s.pumpOwner h = some u) :
      RegOutcome s (.closeInternal t bStopped)
        (Registry.goto { s.touch t [h] with torn := s.torn ++ [h] } t (.freeing c h))
  | torn (t : Nat) (c : Closer) (h : Nat) (bStopped : Bool) (hpc : s.pc t = .closing c h) (hpump : s.hasPump h = true)
      (howner : s.pumpOwner h = none ∨ s.pumpOwner h = some t) :
      RegOutcome s (.closeInternal t bStopped) (Registry.goto { s.touch t [h] with
        hasPump := update s.hasPump h false
        running := if bStopped then update s.running h false else s.running
        torn := s.torn ++ [h] } t (.freeing c h))
  | ended (h : Nat) (hpump : s.hasPump h = false) :
      RegOutcome s (.pumpEnds h) { s with running := update s.running h false }
  | freed (t : Nat) (c : Closer) (h : Nat) (pc : Pc) (answers : List (Nat × HRESULT)) (hpc : s.pc t = .freeing c h)
      (hout : pc = .idle ∨ pc = .sweeping) :
      RegOutcome s (.delete t) (Registry.goto { s.touch t [h] with
        deleted := update s.deleted h true, freed := s.freed ++ [h], answers := answers } t pc)
  | sweeping (t : Nat) (hpc : s.pc t = .idle) : RegOutcome s (.closeAllHubs t) (s.goto t .sweeping)
  | swept (t : Nat) (hpc : s.pc t = .sweeping) : RegOutcome s (.removeHead t) (s.goto t .idle)
  | taken (t h : Nat) (rest : List Nat) (hpc : s.pc t = .sweeping) (hhead : s.listHubs = h :: rest) :
      RegOutcome s (.removeHead t) (Registry.goto { s with listHubs := rest } t (.closing .closeAll h))

/-- CloseInternal leaves the pump alone, or it is the owner's to bring down. -/
theorem closeInternal_cases (s : Registry) (t h : Nat) (bStopped : Bool) :
    ((s.hasPump h = false ∨ ∃ u, u ≠ t ∧ s.pumpOwner h = some u) ∧ s.CloseInternal t h bStopped = s) ∨
      (s.hasPump h = true ∧ (s.pumpOwner h = none ∨ s.pumpOwner h = some t) ∧
        s.CloseInternal t h bStopped = { s with
          hasPump := update s.hasPump h false
          running := if bStopped then update s.running h false else s.running }) := by
  cases hp : s.hasPump h with
  | false => exact Or.inl ⟨Or.inl rfl, by simp [Registry.CloseInternal, hp]⟩
  | true =>
    cases ho : s.pumpOwner h with
    | none => exact Or.inr ⟨rfl, Or.inl rfl, by simp [Registry.CloseInternal, hp, ho]⟩
    | some u =>
      by_cases hu : u = t
      · subst hu
        exact Or.inr ⟨rfl, Or.inr rfl, by simp [Registry.CloseInternal, Registry.OwnsPump, hp, ho]⟩
      · exact Or.inl ⟨Or.inr ⟨u, hu, rfl⟩, by simp [Registry.CloseInternal, Registry.OwnsPump, hp, ho, hu]⟩

theorem regStep_cases (s : Registry) (e : RegEv) : RegOutcome s e (regStep s e) := by
  have hstay : ∀ e, (∀ t address, e = .createHub t address → s.pc t = .idle → address = []) →
      (∀ t cp address, e = .spawn t true cp → s.pc t ≠ .checked address) → RegOutcome s e s :=
    fun e hpass hpump => .quiet e s.answers s.called s.late
      (fun t address he hpc hne => absurd (hpass t address he hpc) hne) hpump (Or.inl rfl) (Or.inl rfl)
  cases e with
  | createHub t address =>
    cases hpc : s.pc t with
    | idle =>
      simp only [regStep, hpc]
      by_cases hne : address = []
      · subst hne
        refine .quiet _ _ s.called s.late (fun t' a' he _ hn => ?_) (fun t' cp a' he => by cases he) (Or.inl rfl) (Or.inl rfl)
        cases he; exact absurd rfl hn
      · have hne' : address.isEmpty = false := by simpa using hne
        simp only [hne', Bool.false_eq_true, if_false]
        by_cases htaken : s.IsAddressTakenLocked address = true
        · have ht : (s.touch t s.listHubs).IsAddressTakenLocked address = true := htaken
          rw [if_pos ht]
          refine .quiet _ _ s.called _ (fun t' a' he _ _ => ?_) (fun t' cp a' he => by cases he) (Or.inr (Or.inl ⟨t, rfl⟩))
            (Or.inl rfl)
          cases he; exact ⟨htaken, rfl⟩
        · have ht : ¬ (s.touch t s.listHubs).IsAddressTakenLocked address = true := htaken
          rw [if_neg ht]
          exact .checked t address hpc hne (by simpa using htaken)
    | _ =>
      simp only [regStep, hpc]
      refine hstay _ (fun t' a' he h => ?_) (fun t' cp a' he => by cases he)
      cases he; rw [hpc] at h; cases h
  | spawn t bStarted bCallerPumped =>
    cases hpc : s.pc t with
    | checked address =>
      simp only [regStep, hpc]
      cases bStarted with
      | false => exact .unstarted t bCallerPumped address hpc
      | true => exact .spawned t bCallerPumped address hpc
    | _ =>
      simp only [regStep, hpc]
      refine hstay _ (fun t' a' he => by cases he) (fun t' cp a' he h => ?_)
      cases he; rw [hpc] at h; cases h
  | publish t =>
    cases hpc : s.pc t with
    | spawned h =>
      simp only [regStep, hpc]
      by_cases htaken : s.IsAddressTakenLocked (s.address h) = true
      · have ht : (s.touch t s.listHubs).IsAddressTakenLocked ((s.touch t s.listHubs).address h) = true := htaken
        rw [if_pos ht]
        exact .backedOut t h hpc
      · have ht : ¬ (s.touch t s.listHubs).IsAddressTakenLocked ((s.touch t s.listHubs).address h) = true := htaken
        rw [if_neg ht]
        exact .published t h hpc (by simpa using htaken)
    | _ => simp only [regStep, hpc]; exact hstay _ (fun t' a' he => by cases he) (fun t' cp a' he => by cases he)
  | close t h =>
    cases hpc : s.pc t with
    | idle =>
      simp only [regStep, hpc]
      by_cases hpub : h ∈ s.published
      case neg =>
        simp only [hpub, not_false_eq_true, if_true]
        exact hstay _ (fun t' a' he => by cases he) (fun t' cp a' he => by cases he)
      simp only [hpub, not_true_eq_false, if_false]
      have hquiet : ∀ answers, RegOutcome s (.close t h) { s.touch t [h] with
          answers := answers, called := s.called ++ [h] } := fun answers =>
        .quiet _ answers _ _ (fun t' a' he => by cases he) (fun t' cp a' he => by cases he)
          (Or.inr (Or.inr ⟨t, h, rfl, hpc, hpub, rfl⟩)) (Or.inr ⟨t, h, rfl, rfl⟩)
      split
      · exact hquiet s.answers
      rename_i hdel
      split
      · exact hquiet _
      split
      · exact hquiet _
      rename_i hopen
      exact .latched t h hpc hpub (by simpa [Registry.touch] using hdel) (by simpa [Registry.touch] using hopen)
    | _ => simp only [regStep, hpc]; exact hstay _ (fun t' a' he => by cases he) (fun t' cp a' he => by cases he)
  | removeHub t =>
    cases hpc : s.pc t with
    | latched h => simp only [regStep, hpc]; exact .removed t h hpc
    | _ => simp only [regStep, hpc]; exact hstay _ (fun t' a' he => by cases he) (fun t' cp a' he => by cases he)
  | closeInternal t bStopped =>
    cases hpc : s.pc t with
    | closing c h =>
      simp only [regStep, hpc]
      have hcall := closeInternal_cases { s.touch t [h] with torn := s.torn ++ [h] } t h bStopped
      rcases hcall with ⟨hpass, hs⟩ | ⟨hpump, howner, hs⟩ <;> rw [hs]
      · exact .passed t c h bStopped hpc hpass
      · exact .torn t c h bStopped hpc hpump howner
    | _ => simp only [regStep, hpc]; exact hstay _ (fun t' a' he => by cases he) (fun t' cp a' he => by cases he)
  | pumpEnds h =>
    simp only [regStep]
    split
    · exact hstay _ (fun t' a' he => by cases he) (fun t' cp a' he => by cases he)
    · rename_i hpump
      exact .ended h (by simpa using hpump)
  | delete t =>
    cases hpc : s.pc t with
    | freeing c h =>
      simp only [regStep, hpc]
      cases c with
      | backOut => exact .freed t _ h .idle _ hpc (Or.inl rfl)
      | close => exact .freed t _ h .idle _ hpc (Or.inl rfl)
      | closeAll => exact .freed t _ h .sweeping s.answers hpc (Or.inr rfl)
    | _ => simp only [regStep, hpc]; exact hstay _ (fun t' a' he => by cases he) (fun t' cp a' he => by cases he)
  | closeAllHubs t =>
    cases hpc : s.pc t with
    | idle => simp only [regStep, hpc]; exact .sweeping t hpc
    | _ => simp only [regStep, hpc]; exact hstay _ (fun t' a' he => by cases he) (fun t' cp a' he => by cases he)
  | removeHead t =>
    cases hpc : s.pc t with
    | sweeping =>
      simp only [regStep, hpc]
      cases hl : s.listHubs with
      | nil => exact .swept t hpc
      | cons h rest => exact .taken t h rest hpc hl
    | _ => simp only [regStep, hpc]; exact hstay _ (fun t' a' he => by cases he) (fun t' cp a' he => by cases he)

end TargetFacade
