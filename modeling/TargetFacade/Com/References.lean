/-
  TargetFacade.Com.References — who holds the COM objects, and when they are deleted
  (ComNetwork.cpp: CreateHubFlagged, FinalRelease, ForgetHub; ComHub.cpp: Init, Close,
  FinalRelease, DispatchLoop).

  A hub is held by clients, by its dispatch thread, by m_hubs of its network and by the calls that
  are in it; the network by clients and by the calls in it. A hub's m_pOwner holds nothing. The one
  who takes a count to zero runs FinalRelease and deletes the object: a hub's closes it once more,
  the network's closes and lets go each hub in m_hubs.

  Each locked section, each read and write of m_pOwner, each AddRef and Release is a step; what
  runs is a list of activities. Of the network's calls only CreateHub is one, as it alone makes
  and lets go references of its own. A client calls through a reference it has, and keeps that until
  the call is back. The wait for the dispatch thread may be given up, so it is no step; the flat hub
  and the sinks are in Com.Teardown and Com.Sinks.
-/

import TargetFacade.Lib.Counted
import TargetFacade.Lib.Runs

namespace TargetFacade

open Function (update)
open Runs Bag Counted

inductive Obj where
  | net
  | hub (h : Nat)
  deriving DecidableEq, Repr

/-- Where a Close stands. -/
inductive OwnerPc where
  | entered
  /-- At `if ( m_pOwner != NULL )`. -/
  | testing
  | copying
  /-- `pOwner` is the network, or NULL. -/
  | clearing (pOwner : Bool)
  | forgetting (pOwner : Bool)
  /-- ForgetHub has taken the hub out of m_hubs. -/
  | dropping
  deriving DecidableEq, Repr

/-- Where the thread that ran a hub's FinalRelease goes on. -/
inductive Resume where
  | done
  | create
  | sweep (rest : List Nat)
  deriving DecidableEq, Repr

/-- Who is in a Close. -/
inductive InClose where
  | client
  /-- FinalRelease of the network, with the hubs after this one. -/
  | sweep (rest : List Nat)
  /-- FinalRelease of the hub. -/
  | final (after : Resume)
  deriving DecidableEq, Repr

inductive Act where
  /-- CreateHubFlagged, before Init, after it, and with the hub in m_hubs. -/
  | initing (h : Nat)
  | inited (h : Nat)
  | listed (h : Nat)
  /-- The client's reference is made, and spHold still there. -/
  | given (h : Nat)
  /-- Init has failed. -/
  | failed (h : Nat)
  | returning
  /-- The hub's dispatch thread. -/
  | dispatch (h : Nat)
  | close (h : Nat) (who : InClose) (pc : OwnerPc)
  /-- FinalRelease of the network. -/
  | finalizing
  | sweeping (rest : List Nat)
  | unlisting (h : Nat) (rest : List Nat)
  | unholding (h : Nat) (rest : List Nat)
  deriving DecidableEq, Repr

inductive RefFault where
  /-- ForgetHub is called through NULL, or on a network that was deleted. -/
  | nullOwner (h : Nat)
  | goneOwner (h : Nat)
  /-- A step is made on an object that was deleted, or a reference given back that is not there. -/
  | gone (o : Obj)
  | overRelease (o : Obj)
  deriving DecidableEq, Repr

structure ComRefs where
  ref : Obj → Count
  /-- The references that clients have and are not in a call through. -/
  clients : Obj → Nat
  /-- m_hubs. -/
  hubs : List Nat
  /-- Each hub's m_pOwner is not NULL. -/
  bOwner : Nat → Bool
  lQuit : Nat → Bool
  acts : List Act
  faults : List RefFault

/-- A client has made the network. -/
def ComRefs.created : ComRefs where
  ref := update (fun _ => .unmade) .net .made
  clients := update (fun _ => 0) .net 1
  hubs := []
  bOwner := fun _ => false
  lQuit := fun _ => false
  acts := []
  faults := []

inductive InitEnd where
  /-- No event, or no thread. -/
  | noThread
  /-- CreateHubEx refuses. -/
  | refused
  | ok
  deriving DecidableEq, Repr

inductive RefEv where
  | addRef (o : Obj)
  | release (o : Obj)
  /-- CreateHub or CreateSecureHub, up to Init, makes the hub. -/
  | create (h : Nat)
  | close (h : Nat)
  /-- The next step of one of the activities. -/
  | act (a : Act) (init : InitEnd)
  deriving DecidableEq, Repr

/-! ## The steps -/

def ComRefs.put (s : ComRefs) (a : Act) : ComRefs := { s with acts := s.acts ++ [a] }

def ComRefs.fault (s : ComRefs) (f : RefFault) : ComRefs := { s with faults := s.faults ++ [f] }

def ComRefs.addRef (s : ComRefs) (o : Obj) : ComRefs := { s with ref := update s.ref o (s.ref o).addRef }

def ComRefs.delete (s : ComRefs) (o : Obj) : ComRefs := { s with ref := update s.ref o (s.ref o).delete }

def ComRefs.give (s : ComRefs) (o : Obj) : ComRefs := { s with clients := update s.clients o (s.clients o + 1) }

def ComRefs.take (s : ComRefs) (o : Obj) : ComRefs := { s with clients := update s.clients o (s.clients o - 1) }

def Resume.go (after : Resume) (s : ComRefs) : ComRefs :=
  match after with
  | .done => s
  | .create => s.put .returning
  | .sweep rest => s.put (.sweeping rest)

/-- FinalRelease, and where its thread goes on. -/
def Obj.finalAct (after : Resume) : Obj → Act
  | .net => .finalizing
  | .hub h => .close h (.final after) .entered

def ComRefs.release (s : ComRefs) (o : Obj) (after : Resume) : ComRefs :=
  let s' := { s with ref := update s.ref o (s.ref o).release }
  if (s.ref o).cRef = 0 then after.go (s.fault (.overRelease o))
  else if (s.ref o).last then s'.put (o.finalAct after)
  else after.go s'

/-- Close returns. -/
def ComRefs.closed (s : ComRefs) (h : Nat) : InClose → ComRefs
  | .client => s.give (.hub h)
  | .sweep rest => s.put (.unlisting h rest)
  | .final after => after.go (s.delete (.hub h))

/-- The next step of a Close. -/
def closeStep (h : Nat) (who : InClose) (pc : OwnerPc) (s : ComRefs) : ComRefs :=
  match pc with
  | .entered => { s with lQuit := update s.lQuit h true }.put (.close h who .testing)
  | .testing => if s.bOwner h then s.put (.close h who .copying) else s.closed h who
  | .copying => s.put (.close h who (.clearing (s.bOwner h)))
  | .clearing pOwner => { s with bOwner := update s.bOwner h false }.put (.close h who (.forgetting pOwner))
  | .forgetting false => (s.fault (.nullOwner h)).closed h who
  | .forgetting true =>
    if (s.ref .net).bGone then (s.fault (.goneOwner h)).closed h who
    else if h ∈ s.hubs then { s with hubs := s.hubs.erase h }.put (.close h who .dropping)
    else s.closed h who
  | .dropping => (s.release (.hub h) .done).closed h who

/-- Init, on a hub that nobody else has. -/
def Init (h : Nat) (init : InitEnd) (s : ComRefs) : ComRefs :=
  let s := { s with bOwner := update s.bOwner h true }
  match init with
  | .noThread => s.put (.failed h)
  | .refused => { (s.addRef (.hub h)).put (.dispatch h) with lQuit := update s.lQuit h true }.put (.failed h)
  | .ok => ((s.addRef (.hub h)).put (.dispatch h)).put (.inited h)

/-- `s` is without the activity. -/
def actStep (init : InitEnd) (s : ComRefs) : Act → ComRefs
  | .initing h => Init h init s
  | .inited h => { s.addRef (.hub h) with hubs := s.hubs ++ [h] }.put (.listed h)
  | .listed h => (s.addRef (.hub h)).put (.given h)
  | .given h => (s.give (.hub h)).release (.hub h) .create
  | .failed h => s.release (.hub h) .create
  | .returning => s.give .net
  -- it leaves its loop
  | .dispatch h => if s.lQuit h then s.release (.hub h) .done else s.put (.dispatch h)
  | .close h who pc => closeStep h who pc s
  | .finalizing => { s with hubs := [] }.put (.sweeping s.hubs)
  | .sweeping [] => s.delete .net
  | .sweeping (h :: rest) => (s.addRef (.hub h)).put (.close h (.sweep rest) .entered)
  | .unlisting h rest => (s.release (.hub h) .done).put (.unholding h rest)
  | .unholding h rest => s.release (.hub h) (.sweep rest)

/-- The objects that the activity's next step is on, m_pOwner apart. -/
def Act.on : Act → List Obj
  | .initing h | .given h | .failed h | .dispatch h | .close h _ _ | .unlisting h _ | .unholding h _ => [.hub h]
  | .inited h | .listed h | .sweeping (h :: _) => [.hub h, .net]
  | .returning | .finalizing | .sweeping [] => [.net]

/-- What a step is on is there, or it is a fault. -/
def ComRefs.touch (s : ComRefs) (on : List Obj) : ComRefs :=
  { s with faults := s.faults ++ (on.filter fun o => (s.ref o).bGone).map .gone }

def refStep (s : ComRefs) : RefEv → ComRefs
  | .addRef o => if 0 < s.clients o then ((s.touch [o]).addRef o).give o else s
  | .release o => if 0 < s.clients o then ((s.touch [o]).take o).release o .done else s
  | .create h =>
    if 0 < s.clients .net ∧ (s.ref (.hub h)).bMade = false then
      { (s.touch [.net]).take .net with
        ref := update s.ref (.hub h) .made
        bOwner := update s.bOwner h false
        lQuit := update s.lQuit h false }.put (.initing h)
    else s
  | .close h => if 0 < s.clients (.hub h) then ((s.touch [.hub h]).take (.hub h)).put (.close h .client .entered) else s
  | .act a init => if a ∈ s.acts then actStep init { s.touch a.on with acts := s.acts.erase a } a else s

/-! ## Who holds what -/

def inHubs (l : List Nat) : Obj → Nat
  | .net => 0
  | .hub h => l.count h

def Resume.holds (o : Obj) : Resume → Nat
  | .done => 0
  | .create => one .net o
  | .sweep rest => inHubs rest o

def Resume.finals (o : Obj) : Resume → Nat
  | .done | .create => 0
  | .sweep _ => one .net o

def InClose.holds (h : Nat) (o : Obj) : InClose → Nat
  | .client => one (.hub h) o
  -- the reference of m_hubs, and spHub's
  | .sweep rest => 2 * one (.hub h) o + inHubs rest o
  | .final after => after.holds o

def InClose.finals (h : Nat) (o : Obj) : InClose → Nat
  | .client => 0
  | .sweep _ => one .net o
  | .final after => one (.hub h) o + after.finals o

/-- The references that an activity has of an object. -/
def Act.holds (o : Obj) : Act → Nat
  | .initing h | .inited h | .listed h | .failed h => one (.hub h) o + one .net o
  | .given h => 2 * one (.hub h) o + one .net o
  | .returning => one .net o
  | .dispatch h => one (.hub h) o
  | .close h who pc => who.holds h o + if pc = .dropping then one (.hub h) o else 0
  | .finalizing => 0
  | .sweeping rest => inHubs rest o
  | .unlisting h rest => 2 * one (.hub h) o + inHubs rest o
  | .unholding h rest => one (.hub h) o + inHubs rest o

/-- It is the object's FinalRelease. -/
def Act.finals (o : Obj) : Act → Nat
  | .initing _ | .inited _ | .listed _ | .failed _ | .given _ | .returning | .dispatch _ => 0
  | .close h who _ => who.finals h o
  | .finalizing | .sweeping _ | .unlisting _ _ | .unholding _ _ => one .net o

/-- The references of clients, and of m_hubs. -/
def ComRefs.base (s : ComRefs) (o : Obj) : Nat := s.clients o + inHubs s.hubs o

/-- Whose m_pOwner it is. -/
def RefFault.isOwner : RefFault → Bool
  | .nullOwner _ | .goneOwner _ => true
  | .gone _ | .overRelease _ => false

/-- The references are counted while an activity has `hand` of them, and no step was made on a deleted object, those through
    m_pOwner apart. -/
structure ComRefs.Counts (s : ComRefs) (hand fin : Obj → Nat) : Prop where
  counted : InHand Act.holds Act.finals s.ref s.base s.acts hand fin
  faults : ∀ f ∈ s.faults, f.isOwner = true
  net : (s.ref .net).bMade = true

theorem inHubs_cons (h : Nat) (rest : List Nat) (o : Obj) : inHubs (h :: rest) o = inHubs rest o + one (.hub h) o := by
  cases o with
  | net => rw [one_other (by simp)]; rfl
  | hub k =>
    show (h :: rest).count k = rest.count k + _
    rw [List.count_cons]
    by_cases hk : h = k
    · subst hk
      rw [one_self, beq_self_eq_true, if_pos rfl]
    · rw [one_other fun he => hk (Obj.hub.inj he).symm, beq_false_of_ne hk]
      rfl

theorem inHubs_snoc (l : List Nat) (h : Nat) (o : Obj) : inHubs (l ++ [h]) o = inHubs l o + one (.hub h) o := by
  have hcons := inHubs_cons h l o
  cases o with
  | net => exact hcons
  | hub k =>
    rw [← hcons]
    show (l ++ [h]).count k = (h :: l).count k
    exact List.perm_append_singleton h l |>.count_eq k

theorem inHubs_erase {l : List Nat} {h : Nat} (hm : h ∈ l) (o : Obj) : inHubs (l.erase h) o + one (.hub h) o = inHubs l o := by
  rw [← inHubs_cons]
  cases o with
  | net => rfl
  | hub k => exact ((List.perm_cons_erase hm).count_eq k).symm

theorem update_made {ref : Obj → Count} {k : Obj} {c : Count} (h : (ref .net).bMade = true) (hc : c.bMade = (ref k).bMade) :
    (update ref k c .net).bMade = true := by
  by_cases hk : Obj.net = k
  · subst hk
    rw [Function.update_self, hc]
    exact h
  · rw [Function.update_of_ne hk]
    exact h

theorem one_pos (k : Obj) (n : Nat) : 0 < one k k + n := by
  rw [one_self]
  omega

section Hand

variable {s : ComRefs} {hand fin hand' fin' : Obj → Nat}

theorem counts_put (hs : s.Counts hand fin) {a : Act} (hh : ∀ o, hand' o + a.holds o = hand o)
    (hf : ∀ o, fin' o + a.finals o = fin o) : (s.put a).Counts hand' fin' := ⟨hs.counted.put hh hf, hs.faults, hs.net⟩

theorem counts_addRef (hs : s.Counts hand fin) {k : Obj} (hk : 0 < s.base k + weigh (Act.holds k) s.acts + hand k)
    (hh : ∀ o, hand' o = hand o + one k o) : (s.addRef k).Counts hand' fin := 
  ⟨hs.counted.addRef hk hh, hs.faults, update_made hs.net rfl⟩

/-- The one in hand is doubled. -/
theorem counts_addRef_hand (hs : s.Counts hand fin) {k : Obj} (hk : 0 < hand k) (hh : ∀ o, hand' o = hand o + one k o) :
    (s.addRef k).Counts hand' fin := counts_addRef hs (Nat.add_pos_right _ hk) hh

theorem counts_delete (hs : s.Counts hand fin) {k : Obj} (hf : ∀ o, fin' o + one k o = fin o) : (s.delete k).Counts hand fin' :=
  ⟨hs.counted.delete hf, hs.faults, update_made hs.net rfl⟩

theorem counts_give (hs : s.Counts hand fin) {k : Obj} (hh : ∀ o, hand' o + one k o = hand o) : (s.give k).Counts hand' fin := by
  refine ⟨hs.counted.move (fun o => ?_) fun _ => rfl, hs.faults, hs.net⟩
  have hu := update_succ s.clients k o
  have ho := hh o
  show update s.clients k (s.clients k + 1) o + inHubs s.hubs o + hand' o = s.clients o + inHubs s.hubs o + hand o
  omega

theorem counts_take (hs : s.Counts hand fin) {k : Obj} (hk : 0 < s.clients k) (hh : ∀ o, hand' o = hand o + one k o) :
    (s.take k).Counts hand' fin := by
  refine ⟨hs.counted.move (fun o => ?_) fun _ => rfl, hs.faults, hs.net⟩
  have hu := update_pred hk o
  have ho := hh o
  show update s.clients k (s.clients k - 1) o + inHubs s.hubs o + hand' o = s.clients o + inHubs s.hubs o + hand o
  omega

theorem counts_go (hs : s.Counts hand fin) {after : Resume} (hh : ∀ o, hand' o + after.holds o = hand o)
    (hf : ∀ o, fin' o + after.finals o = fin o) : (after.go s).Counts hand' fin' := by
  cases after with
  | done => exact ⟨hs.counted.move (fun o => congrArg (s.base o + ·) (hh o)) hf, hs.faults, hs.net⟩
  | create => exact counts_put hs hh hf
  | sweep rest => exact counts_put hs hh hf

theorem finalAct_holds {k : Obj} {after : Resume} (hk : k = .net → after = .done) (o : Obj) :
    (k.finalAct after).holds o = after.holds o ∧ (k.finalAct after).finals o = one k o + after.finals o := by
  cases k with
  | net =>
    rw [hk rfl]
    exact ⟨rfl, rfl⟩
  | hub h => exact ⟨rfl, rfl⟩

/-- A reference in hand is given back. -/
theorem counts_release (hs : s.Counts hand fin) {k : Obj} {after : Resume} (hk : k = .net → after = .done)
    (hh : ∀ o, hand' o + after.holds o + one k o = hand o) (hf : ∀ o, fin' o + after.finals o = fin o) :
    (s.release k after).Counts hand' fin' := by
  have hpos := hh k
  rw [one_self] at hpos
  have hcount : (s.ref k).cRef ≠ 0 := by
    rw [(hs.counted k).counted]
    omega
  unfold ComRefs.release
  simp only [if_neg hcount]
  split
  · rename_i hlast
    have hdown : ComRefs.Counts { s with ref := update s.ref k (s.ref k).release } (fun o => hand' o + after.holds o)
        (fun o => fin o + one k o) :=
      ⟨hs.counted.release hh fun o => by rw [if_pos hlast], hs.faults, update_made hs.net rfl⟩
    refine counts_put hdown (fun o => ?_) fun o => ?_
    · rw [(finalAct_holds hk o).1]
    · have ho := hf o
      rw [(finalAct_holds hk o).2]
      omega
  · rename_i hlast
    have hdown : ComRefs.Counts { s with ref := update s.ref k (s.ref k).release } (fun o => hand' o + after.holds o) fin :=
      
      ⟨hs.counted.release hh fun o => by rw [if_neg hlast, Nat.add_zero], hs.faults, update_made hs.net rfl⟩
    exact counts_go hdown (fun _ => rfl) hf

theorem counts_closed (hs : s.Counts hand fin) {h : Nat} {who : InClose} (hh : ∀ o, hand' o + who.holds h o = hand o)
    (hf : ∀ o, fin' o + who.finals h o = fin o) : (s.closed h who).Counts hand' fin' := by
  cases who with
  | client =>
    have hg : (s.give (.hub h)).Counts hand' fin := counts_give hs hh
    exact ⟨hg.counted.move (fun _ => rfl) hf, hg.faults, hg.net⟩
  | sweep rest => exact counts_put hs hh hf
  | final after =>
    have hd : (s.delete (.hub h)).Counts hand fun o => fin' o + after.finals o := by
      refine counts_delete hs fun o => ?_
      have ho := hf o
      show fin' o + after.finals o + one (.hub h) o = fin o
      have hdef : InClose.finals h o (.final after) = one (.hub h) o + after.finals o := rfl
      omega
    exact counts_go hd hh fun _ => rfl

end Hand

/-- An activity goes on as another, which has as many references. -/
theorem counts_same {s : ComRefs} {a b : Act} (hs : s.Counts (a.holds ·) (a.finals ·)) (hh : ∀ o, b.holds o = a.holds o)
    (hf : ∀ o, b.finals o = a.finals o) : (s.put b).Counts (fun _ => 0) fun _ => 0 :=
  counts_put hs (fun o => (Nat.zero_add _).trans (hh o)) fun o => (Nat.zero_add _).trans (hf o)

theorem counts_fault {s : ComRefs} {hand fin : Obj → Nat} (hs : s.Counts hand fin) {f : RefFault} (hf : f.isOwner = true) :
    (s.fault f).Counts hand fin := by
  refine ⟨hs.counted, fun g hg => ?_, hs.net⟩
  rcases List.mem_append.mp hg with hg | hg
  · exact hs.faults g hg
  · rw [List.mem_singleton.mp hg]
    exact hf

theorem counts_close {s : ComRefs} {h : Nat} {who : InClose} {pc : OwnerPc}
    (hs : s.Counts ((Act.close h who pc).holds ·) ((Act.close h who pc).finals ·)) :
    (closeStep h who pc s).Counts (fun _ => 0) fun _ => 0 := by
  -- a Close that is not about to drop the reference of m_hubs has those of its caller
  have hreturn {s' : ComRefs} (hs' : s'.Counts ((Act.close h who pc).holds ·) ((Act.close h who pc).finals ·))
      (hpc : pc ≠ .dropping) : (s'.closed h who).Counts (fun _ => 0) fun _ => 0 := by
    refine counts_closed hs' (fun o => ?_) fun o => Nat.zero_add _
    show 0 + who.holds h o = who.holds h o + if pc = .dropping then one (.hub h) o else 0
    rw [if_neg hpc, Nat.add_zero, Nat.zero_add]
  cases pc with
  | entered =>
    have hq : ComRefs.Counts { s with lQuit := update s.lQuit h true } _ _ := ⟨hs.counted, hs.faults, hs.net⟩
    exact counts_same hq (fun _ => rfl) fun _ => rfl
  | testing =>
    unfold closeStep
    simp only
    split
    · exact counts_same hs (fun _ => rfl) fun _ => rfl
    · exact hreturn hs (by simp)
  | copying => exact counts_same hs (fun _ => rfl) fun _ => rfl
  | clearing pOwner =>
    have hc : ComRefs.Counts { s with bOwner := update s.bOwner h false } _ _ := ⟨hs.counted, hs.faults, hs.net⟩
    exact counts_same hc (fun _ => rfl) fun _ => rfl
  | forgetting pOwner =>
    cases pOwner with
    | false => exact hreturn (counts_fault hs rfl) (by simp)
    | true =>
      unfold closeStep
      simp only
      split
      · exact hreturn (counts_fault hs rfl) (by simp)
      split
      · rename_i hm
        -- the reference of m_hubs goes over to the Close
        have hout : ComRefs.Counts { s with hubs := s.hubs.erase h } (fun o => who.holds h o + one (.hub h) o)
            ((Act.close h who (.forgetting true)).finals ·) := by
          refine ⟨hs.counted.move (fun o => ?_) fun _ => rfl, hs.faults, hs.net⟩
          have he := inHubs_erase hm o
          show s.clients o + inHubs (s.hubs.erase h) o + (who.holds h o + one (.hub h) o) =
            s.clients o + inHubs s.hubs o + (who.holds h o + 0)
          omega
        exact counts_put hout (fun o => Nat.zero_add _) fun o => Nat.zero_add _
      · exact hreturn hs (by simp)
  | dropping =>
    have hdrop : (s.release (.hub h) .done).Counts (who.holds h ·) (who.finals h ·) :=
      counts_release hs (fun he => by cases he) (fun o => rfl) fun o => rfl
    exact counts_closed hdrop (fun o => Nat.zero_add _) fun o => Nat.zero_add _

theorem counts_init {s : ComRefs} {h : Nat} (init : InitEnd) (hs : s.Counts ((Act.initing h).holds ·) ((Act.initing h).finals ·)) :
    (Init h init s).Counts (fun _ => 0) fun _ => 0 := by
  have hset {bOwner lQuit : Nat → Bool} {hand : Obj → Nat} {s' : ComRefs} (hs' : s'.Counts hand fun _ => 0) :
      ComRefs.Counts { s' with bOwner := bOwner, lQuit := lQuit } hand fun _ => 0 := ⟨hs'.counted, hs'.faults, hs'.net⟩
  have hown := @hset (update s.bOwner h true) s.lQuit _ s hs
  -- the dispatch thread takes its reference over
  have hthread (s' : ComRefs) (hs' : s'.Counts ((Act.initing h).holds ·) fun _ => 0) :
      ((s'.addRef (.hub h)).put (.dispatch h)).Counts ((Act.initing h).holds ·) fun _ => 0 := by
    have hadd : (s'.addRef (.hub h)).Counts (fun o => (Act.initing h).holds o + one (.hub h) o) fun _ => 0 :=
      counts_addRef_hand hs' (one_pos _ _) fun _ => rfl
    exact counts_put hadd (fun _ => rfl) fun _ => rfl
  cases init with
  | noThread => exact counts_same hown (fun _ => rfl) fun _ => rfl
  | refused => exact counts_same (hset (hthread _ hown)) (fun _ => rfl) fun _ => rfl
  | ok => exact counts_same (hthread _ hown) (fun _ => rfl) fun _ => rfl

theorem counts_act {s : ComRefs} (init : InitEnd) {a : Act} (hs : s.Counts (a.holds ·) (a.finals ·)) :
    (actStep init s a).Counts (fun _ => 0) fun _ => 0 := by
  cases a with
  | initing h => exact counts_init init hs
  | inited h =>
    have hadd : (s.addRef (.hub h)).Counts (fun o => (Act.inited h).holds o + one (.hub h) o) fun _ => 0 :=
      counts_addRef_hand hs (one_pos _ _) fun _ => rfl
    have hin : ComRefs.Counts { s.addRef (.hub h) with hubs := s.hubs ++ [h] } ((Act.inited h).holds ·) fun _ => 0 := by
      refine ⟨hadd.counted.move (fun o => ?_) fun _ => rfl, hadd.faults, hadd.net⟩
      have hsnoc := inHubs_snoc s.hubs h o
      show s.clients o + inHubs (s.hubs ++ [h]) o + (Act.inited h).holds o =
        s.clients o + inHubs s.hubs o + ((Act.inited h).holds o + one (.hub h) o)
      omega
    exact counts_same hin (fun _ => rfl) fun _ => rfl
  | listed h =>
    have hadd : (s.addRef (.hub h)).Counts (fun o => (Act.listed h).holds o + one (.hub h) o) fun _ => 0 :=
      counts_addRef_hand hs (one_pos _ _) fun _ => rfl
    refine counts_put hadd (fun o => ?_) fun _ => rfl
    show 0 + (2 * one (.hub h) o + one .net o) = one (.hub h) o + one .net o + one (.hub h) o
    omega
  | given h =>
    have hgive : (s.give (.hub h)).Counts (fun o => one (.hub h) o + one .net o) fun _ => 0 := by
      refine counts_give hs fun o => ?_
      show one (.hub h) o + one .net o + one (.hub h) o = 2 * one (.hub h) o + one .net o
      omega
    refine counts_release hgive (fun he => by cases he) (fun o => ?_) fun _ => rfl
    show 0 + one .net o + one (.hub h) o = one (.hub h) o + one .net o
    omega
  | failed h =>
    refine counts_release hs (fun he => by cases he) (fun o => ?_) fun _ => rfl
    show 0 + one .net o + one (.hub h) o = one (.hub h) o + one .net o
    omega
  | returning => exact counts_give hs fun o => Nat.zero_add _
  | dispatch h =>
    unfold actStep
    simp only
    split
    · refine counts_release hs (fun he => by cases he) (fun o => ?_) fun _ => rfl
      show 0 + 0 + one (.hub h) o = one (.hub h) o
      omega
    · exact counts_same hs (fun _ => rfl) fun _ => rfl
  | close h who pc => exact counts_close hs
  | finalizing =>
    have hswap : ComRefs.Counts { s with hubs := [] } (fun o => inHubs s.hubs o) (Act.finalizing.finals ·) := by
      refine ⟨hs.counted.move (fun o => ?_) fun _ => rfl, hs.faults, hs.net⟩
      have hnil : inHubs [] o = 0 := by cases o <;> rfl
      show s.clients o + inHubs [] o + inHubs s.hubs o = s.clients o + inHubs s.hubs o + 0
      omega
    exact counts_put hswap (fun o => Nat.zero_add _) fun o => Nat.zero_add _
  | sweeping rest =>
    cases rest with
    | nil =>
      have hnil : ((Act.sweeping []).holds · : Obj → Nat) = fun _ => 0 := by
        funext o
        cases o <;> rfl
      rw [hnil] at hs
      exact counts_delete hs fun o => Nat.zero_add _
    | cons h rest =>
      have hadd : (s.addRef (.hub h)).Counts (fun o => inHubs (h :: rest) o + one (.hub h) o)
          ((Act.sweeping (h :: rest)).finals ·) := by
        refine counts_addRef_hand hs ?_ fun _ => rfl
        show 0 < inHubs (h :: rest) (.hub h)
        rw [inHubs_cons, Nat.add_comm]
        exact one_pos _ _
      refine counts_put hadd (fun o => ?_) fun o => Nat.zero_add _
      have hcons := inHubs_cons h rest o
      show 0 + (2 * one (.hub h) o + inHubs rest o + 0) = inHubs (h :: rest) o + one (.hub h) o
      omega
  | unlisting h rest =>
    have hdrop : (s.release (.hub h) .done).Counts (fun o => one (.hub h) o + inHubs rest o) ((Act.unlisting h rest).finals ·) := by
      refine counts_release hs (fun he => by cases he) (fun o => ?_) fun _ => rfl
      show one (.hub h) o + inHubs rest o + 0 + one (.hub h) o = 2 * one (.hub h) o + inHubs rest o
      omega
    exact counts_put hdrop (fun o => Nat.zero_add _) fun o => Nat.zero_add _
  | unholding h rest =>
    refine counts_release hs (fun he => by cases he) (fun o => ?_) fun o => Nat.zero_add _
    show 0 + inHubs rest o + one (.hub h) o = one (.hub h) o + inHubs rest o
    omega

/-! ## Whole runs -/

theorem touch_there {s : ComRefs} {on : List Obj} (h : ∀ o ∈ on, (s.ref o).bGone = false) : s.touch on = s := by
  unfold ComRefs.touch
  rw [List.filter_eq_nil_iff.mpr fun o ho => by rw [h o ho]; exact Bool.false_ne_true]
  simp

/-- Whoever makes a step on an object has a reference to it, or is in its FinalRelease. -/
theorem act_on {a : Act} {o : Obj} (ho : o ∈ a.on) : 0 < a.holds o + a.finals o := by
  have hone (k : Obj) : 0 < one k k := by
    rw [one_self]
    exact Nat.one_pos
  cases a with
  | initing h | failed h =>
    rw [List.mem_singleton.mp ho]
    have := hone (.hub h)
    simp only [Act.holds]
    omega
  | inited h | listed h =>
    simp only [Act.on, List.mem_cons, List.not_mem_nil, or_false] at ho
    simp only [Act.holds]
    have := hone o
    rcases ho with rfl | rfl <;> omega
  | given h =>
    rw [List.mem_singleton.mp ho]
    have := hone (.hub h)
    simp only [Act.holds]
    omega
  | returning | dispatch h =>
    rw [List.mem_singleton.mp ho]
    exact Nat.add_pos_left (hone _) _
  | close h who pc =>
    rw [List.mem_singleton.mp ho]
    have := hone (.hub h)
    simp only [Act.holds, Act.finals]
    cases who <;> simp only [InClose.holds, InClose.finals] <;> omega
  | finalizing =>
    rw [List.mem_singleton.mp ho]
    exact hone .net
  | sweeping rest =>
    cases rest with
    | nil =>
      rw [List.mem_singleton.mp ho]
      exact Nat.add_pos_right _ (hone .net)
    | cons h rest =>
      simp only [Act.on, List.mem_cons, List.not_mem_nil, or_false] at ho
      simp only [Act.holds, Act.finals, inHubs_cons]
      have := hone o
      rcases ho with rfl | rfl <;> omega
  | unlisting h rest | unholding h rest =>
    rw [List.mem_singleton.mp ho]
    have := hone (.hub h)
    simp only [Act.holds]
    omega

theorem there_of_client {s : ComRefs} {hand fin : Obj → Nat} (hs : s.Counts hand fin) {o : Obj} (ho : 0 < s.clients o) :
    (s.ref o).bGone = false := by
  refine (hs.counted o).there ?_
  have hbase : s.base o = s.clients o + inHubs s.hubs o := rfl
  omega

theorem act_there {s : ComRefs} (hs : s.Counts (fun _ => 0) fun _ => 0) {a : Act} (ha : a ∈ s.acts) {o : Obj} (ho : o ∈ a.on) :
    (s.ref o).bGone = false := by
  refine (hs.counted o).there ?_
  have hpos := act_on ho
  have hheld : a.holds o ≤ weigh (Act.holds o) s.acts := weigh_pos ha
  have hfin : a.finals o ≤ weigh (Act.finals o) s.acts := weigh_pos ha
  omega

theorem counts_step (s : ComRefs) (e : RefEv) (hs : s.Counts (fun _ => 0) fun _ => 0) :
    (refStep s e).Counts (fun _ => 0) fun _ => 0 := by
  have htouch {o : Obj} (ho : 0 < s.clients o) : s.touch [o] = s :=
    touch_there fun k hk => by
      rw [List.mem_singleton.mp hk]
      exact there_of_client hs ho
  cases e with
  | addRef o =>
    unfold refStep
    simp only
    split
    case isFalse => exact hs
    rename_i ho
    rw [htouch ho]
    have hadd : (s.addRef o).Counts (one o ·) fun _ => 0 := by
      refine counts_addRef hs ?_ fun k => (Nat.zero_add _).symm
      have hbase : s.base o = s.clients o + inHubs s.hubs o := rfl
      omega
    exact counts_give hadd fun k => Nat.zero_add _
  | release o =>
    unfold refStep
    simp only
    split
    case isFalse => exact hs
    rename_i ho
    rw [htouch ho]
    have htake : (s.take o).Counts (one o ·) fun _ => 0 := counts_take hs ho fun k => (Nat.zero_add _).symm
    exact counts_release htake (fun _ => rfl) (fun k => Nat.zero_add _) fun _ => rfl
  | create h =>
    unfold refStep
    simp only
    split
    case isFalse => exact hs
    rename_i hnet
    rw [htouch hnet.1]
    have htake : (s.take .net).Counts (one .net ·) fun _ => 0 := counts_take hs hnet.1 fun k => (Nat.zero_add _).symm
    have hmake : ComRefs.Counts
        { s.take .net with
          ref := update s.ref (.hub h) .made
          bOwner := update s.bOwner h false
          lQuit := update s.lQuit h false }
        (fun o => one .net o + one (.hub h) o) fun _ => 0 :=
      ⟨htake.counted.make hnet.2 fun _ => rfl, htake.faults, htake.net⟩
    refine counts_put hmake (fun o => ?_) fun _ => rfl
    show 0 + (one (.hub h) o + one .net o) = one .net o + one (.hub h) o
    omega
  | close h =>
    unfold refStep
    simp only
    split
    case isFalse => exact hs
    rename_i ho
    rw [htouch ho]
    have htake : (s.take (.hub h)).Counts (one (.hub h) ·) fun _ => 0 := counts_take hs ho fun k => (Nat.zero_add _).symm
    exact counts_put htake (fun o => Nat.zero_add _) fun _ => rfl
  | act a init =>
    unfold refStep
    simp only
    split
    case isFalse => exact hs
    rename_i ha
    have hthere : ∀ o ∈ a.on, (s.ref o).bGone = false := fun o ho => act_there hs ha ho
    rw [touch_there hthere]
    exact counts_act init ⟨inHand_take hs.counted ha, hs.faults, hs.net⟩

theorem counts_created : ComRefs.created.Counts (fun _ => 0) fun _ => 0 := by
  refine ⟨fun o => ?_, nofun, rfl⟩
  cases o with
  | net => exact kept_made
  | hub h => exact kept_unmade

theorem counts_exec (es : List RefEv) : (exec refStep .created es).Counts (fun _ => 0) fun _ => 0 :=
  have h : Always refStep (fun s => s.Counts (fun _ => 0) fun _ => 0) .created es := always_of_inv counts_step counts_created
  h.last

end TargetFacade
