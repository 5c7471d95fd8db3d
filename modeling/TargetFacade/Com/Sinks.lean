/-
  TargetFacade.Com.Sinks — a COM hub's event sinks, from a callback's Push to the sink's handler
  (ComHub.cpp: Advise, Unadvise, Fire, CurEvent; DispatchLoop and the queue as in Com.EventQueue).

  A sink is held as a cookie of the process's Global Interface Table. Fire lists the cookies under
  m_csSinks and then, outside it, fetches and invokes one sink after the other, while sinks come
  and go. Advise registers with the table first and Unadvise revokes last, each outside the lock.
  The table tells one live registration from another; RevokeInterfaceFromGlobal takes one out.

  A handler runs inside its Invoke, and its calls back carry the dispatch thread's logical thread.
  The event is published for the length of the loop over the sinks.

  `tier_move` says of every step what it is of Lib.Rounds: the members are the registrations, and an
  item is an event of the queue.

  - `sinks_accounted`: what each sink is invoked for, over any run, and when a turn of it is skipped.
-/

import TargetFacade.Com.Capture
import TargetFacade.Lib.Rounds

namespace TargetFacade

open OrdMap Runs Rounds KeyLog

/-- A sink, by its cookie in the table and the Advise that it came with. -/
structure Registration where
  dwGit : UInt32
  nAdvise : Nat
  deriving DecidableEq, Repr

inductive FirePc where
  | outside
  /-- In the loop over the sinks. -/
  | turn (p : Popped) (rest : List Registration)
  /-- GetInterfaceFromGlobal has found `r`; Invoke is next. -/
  | fetched (p : Popped) (r : Registration) (rest : List Registration)
  /-- In the handler of `r`. -/
  | inside (p : Popped) (r : Registration) (rest : List Registration)
  /-- About to return. -/
  | done (p : Popped)
  deriving DecidableEq, Repr

/-- What CoGetCurrentLogicalThreadId tells apart. -/
inductive Causality where
  | dispatch
  | other (n : Nat)
  deriving DecidableEq, Repr

inductive TierNote where
  | advised (r : Registration)
  /-- Out of m_sinks. -/
  | erased (r : Registration)
  | revoked (r : Registration)
  /-- Fire is called, with these in m_sinks. -/
  | fired (p : Popped) (rs : List Registration)
  /-- There is no table, or no memory for the payload. -/
  | abandoned (p : Popped) (rs : List Registration)
  | noCausality (p : Popped)
  /-- GetInterfaceFromGlobal fails on a registration that is there. -/
  | unfetched (r : Registration) (p : Popped)
  | invoked (r : Registration) (p : Popped)
  /-- A handler's read, on its own call chain. -/
  | readInside (r : Registration) (p : Popped) (get : MsgRead) (bMemory : Bool) (a : Except HRESULT MsgValue)
  /-- Anyone else's. -/
  | readOutside (guid : Option Causality) (get : MsgRead) (bMemory : Bool) (a : Except HRESULT MsgValue)

structure ComTier where
  queue : ComQueue
  sinks : Map UInt32 Registration
  dwNextCookie : UInt32
  /-- The table's entries that are this hub's. -/
  git : Map UInt32 Registration
  nAdvises : Nat
  /-- Registered with the table; the lock is next. -/
  advising : List Registration
  /-- Past the lock; the table is next. -/
  revoking : List Registration
  pc : FirePc
  pCurEvent : Option Com.HubEvent
  /-- none is GUID_NULL. -/
  guidMsgCausality : Option Causality
  lMsgActive : Bool
  log : List TierNote

def ComTier.created : ComTier where
  queue := .created
  sinks := ∅
  dwNextCookie := 1
  git := ∅
  nAdvises := 0
  advising := []
  revoking := []
  pc := .outside
  pCurEvent := none
  guidMsgCausality := none
  lMsgActive := false
  log := []

/-- `guid` is the caller's logical thread, none when it cannot be had. -/
def CurEvent (s : ComTier) (guid : Option Causality) : Except HRESULT Com.HubEvent :=
  if !s.lMsgActive then .error .P2PF_E_NO_MESSAGE
  else
    match s.pCurEvent with
    | none => .error .P2PF_E_NO_MESSAGE
    | some pEv => if guid.isNone || guid != s.guidMsgCausality then .error .P2PF_E_NO_MESSAGE else .ok pEv

def ComTier.read (s : ComTier) (guid : Option Causality) (get : MsgRead) (bMemory : Bool) : Except HRESULT MsgValue :=
  (CurEvent s guid).bind fun pEv => get.of bMemory pEv

/-- The registrations in m_sinks, in the order of their cookies. -/
def ComTier.registered (s : ComTier) : List Registration := s.sinks.toList.map (·.2)

/-- Fire, up to its loop. `bOk` is whether there is a table and memory for the payload, and `bGuid` whether the logical
    thread can be had. -/
def Fire (p : Popped) (bOk bGuid : Bool) (s : ComTier) : ComTier :=
  let rs := s.registered
  let s : ComTier := { s with log := s.log ++ [.fired p rs] }
  if rs.isEmpty then { s with pc := .done p }
  else if !bOk then { s with pc := .done p, log := s.log ++ [.abandoned p rs] }
  else if p.ev.kind = .evMessage then
    { s with
      pc := .turn p rs
      pCurEvent := some p.ev
      guidMsgCausality := if bGuid then some .dispatch else none
      lMsgActive := true
      log := if bGuid then s.log else s.log ++ [.noCausality p] }
  else { s with pc := .turn p rs }

/-- The next step of its loop. -/
def fireTurn (bFetched : Bool) (s : ComTier) : ComTier :=
  match s.pc with
  | .turn p (r :: rest) =>
    match s.git[r.dwGit]? with
    | none => { s with pc := .turn p rest }
    | some r' =>
      if bFetched then { s with pc := .fetched p r' rest }
      else { s with pc := .turn p rest, log := s.log ++ [.unfetched r' p] }
  | .turn p [] =>
    if p.ev.kind = .evMessage then { s with pc := .done p, lMsgActive := false, pCurEvent := none } else { s with pc := .done p }
  | .fetched p r rest => { s with pc := .inside p r rest, log := s.log ++ [.invoked r p] }
  | .inside p _ rest => { s with pc := .turn p rest }
  | .outside | .done _ => s

inductive TierEv where
  /-- A step of the queue: the dispatch thread's is its next, once Fire has returned. -/
  | queue (e : QueueEv)
  | fire (bOk bGuid : Bool)
  | turn (bFetched : Bool)
  /-- Advise, up to RegisterInterfaceInGlobal, which hands out `dwGit`. -/
  | register (dwGit : UInt32)
  /-- Its lock. -/
  | advise (r : Registration)
  /-- Unadvise, up to its Unlock. -/
  | unadvise (dwCookie : UInt32)
  | revoke (r : Registration)
  /-- A handler reads. -/
  | readInside (get : MsgRead) (bMemory : Bool)
  | readOutside (n : Option Nat) (get : MsgRead) (bMemory : Bool)
  deriving DecidableEq, Repr

def tierStep (s : ComTier) : TierEv → ComTier
  | .queue .dispatch =>
    match s.queue.pc, s.pc with
    | .firing _, .done _ => { s with queue := queueStep s.queue .dispatch, pc := .outside }
    | .firing _, _ => s
    | _, _ => { s with queue := queueStep s.queue .dispatch }
  | .queue e => { s with queue := queueStep s.queue e }
  | .fire bOk bGuid =>
    match s.queue.pc, s.pc with
    | .firing p, .outside => Fire p bOk bGuid s
    | _, _ => s
  | .turn bFetched => fireTurn bFetched s
  | .register dwGit =>
    if dwGit ∈ s.git then s
    else
      let r : Registration := ⟨dwGit, s.nAdvises⟩
      { s with git := s.git.insert dwGit r, nAdvises := s.nAdvises + 1, advising := s.advising ++ [r] }
  | .advise r =>
    if r ∈ s.advising then
      -- the cookies wrap round, and one that is taken gives up its sink
      let lost := (s.sinks[s.dwNextCookie]?).toList.map .erased
      { s with
        advising := s.advising.erase r
        sinks := s.sinks.insert s.dwNextCookie r
        dwNextCookie := s.dwNextCookie + 1
        log := s.log ++ lost ++ [.advised r] }
    else s
  | .unadvise dwCookie =>
    match s.sinks[dwCookie]? with
    | none => s
    | some r => { s with sinks := s.sinks.erase dwCookie, revoking := s.revoking ++ [r], log := s.log ++ [.erased r] }
  | .revoke r =>
    if r ∈ s.revoking then
      { s with revoking := s.revoking.erase r, git := s.git.erase r.dwGit, log := s.log ++ [.revoked r] }
    else s
  | .readInside get bMemory =>
    match s.pc with
    | .inside p r _ => { s with log := s.log ++ [.readInside r p get bMemory (s.read (some .dispatch) get bMemory)] }
    | _ => s
  | .readOutside n get bMemory =>
    let guid := n.map Causality.other
    { s with log := s.log ++ [.readOutside guid get bMemory (s.read guid get bMemory)] }

/-! ## A step -/

/-- What a step does. -/
inductive TierMove (s : ComTier) : TierEv → ComTier → Prop
  | stay (e : TierEv) (h : ∀ f, e = .queue f → f = .dispatch) : TierMove s e s
  | queue (e : QueueEv) (h : e = .dispatch → ∀ p, s.queue.pc ≠ .firing p) :
    TierMove s (.queue e) { s with queue := queueStep s.queue e }
  | left (p p' : Popped) (hq : s.queue.pc = .firing p') (h : s.pc = .done p) :
    TierMove s (.queue .dispatch) { s with queue := queueStep s.queue .dispatch, pc := .outside }
  | nobody (p : Popped) (bOk bGuid : Bool) (hq : s.queue.pc = .firing p) (h : s.pc = .outside) (hrs : s.registered = []) :
    TierMove s (.fire bOk bGuid) { s with pc := .done p, log := s.log ++ [.fired p s.registered] }
  | abandoned (p : Popped) (bGuid : Bool) (hq : s.queue.pc = .firing p) (h : s.pc = .outside) :
    TierMove s (.fire false bGuid)
      { s with pc := .done p, log := s.log ++ [.fired p s.registered] ++ [.abandoned p s.registered] }
  | published (p : Popped) (hq : s.queue.pc = .firing p) (h : s.pc = .outside) (hm : p.ev.kind = .evMessage) :
    TierMove s (.fire true true)
      { s with
        pc := .turn p s.registered
        pCurEvent := some p.ev
        guidMsgCausality := some .dispatch
        lMsgActive := true
        log := s.log ++ [.fired p s.registered] }
  | anonymous (p : Popped) (hq : s.queue.pc = .firing p) (h : s.pc = .outside) (hm : p.ev.kind = .evMessage) :
    TierMove s (.fire true false)
      { s with
        pc := .turn p s.registered
        pCurEvent := some p.ev
        guidMsgCausality := none
        lMsgActive := true
        log := s.log ++ [.fired p s.registered] ++ [.noCausality p] }
  | plain (p : Popped) (bGuid : Bool) (hq : s.queue.pc = .firing p) (h : s.pc = .outside) (hm : p.ev.kind ≠ .evMessage) :
    TierMove s (.fire true bGuid) { s with pc := .turn p s.registered, log := s.log ++ [.fired p s.registered] }
  | gone (p : Popped) (r : Registration) (rest : List Registration) (b : Bool) (h : s.pc = .turn p (r :: rest))
      (hg : s.git[r.dwGit]? = none) : TierMove s (.turn b) { s with pc := .turn p rest }
  | fetched (p : Popped) (r r' : Registration) (rest : List Registration) (h : s.pc = .turn p (r :: rest))
      (hg : s.git[r.dwGit]? = some r') : TierMove s (.turn true) { s with pc := .fetched p r' rest }
  | unfetched (p : Popped) (r r' : Registration) (rest : List Registration) (h : s.pc = .turn p (r :: rest))
      (hg : s.git[r.dwGit]? = some r') :
    TierMove s (.turn false) { s with pc := .turn p rest, log := s.log ++ [.unfetched r' p] }
  | unpublished (p : Popped) (b : Bool) (h : s.pc = .turn p []) (hm : p.ev.kind = .evMessage) :
    TierMove s (.turn b) { s with pc := .done p, lMsgActive := false, pCurEvent := none }
  | ended (p : Popped) (b : Bool) (h : s.pc = .turn p []) (hm : p.ev.kind ≠ .evMessage) :
    TierMove s (.turn b) { s with pc := .done p }
  | invoked (p : Popped) (r : Registration) (rest : List Registration) (b : Bool) (h : s.pc = .fetched p r rest) :
    TierMove s (.turn b) { s with pc := .inside p r rest, log := s.log ++ [.invoked r p] }
  | back (p : Popped) (r : Registration) (rest : List Registration) (b : Bool) (h : s.pc = .inside p r rest) :
    TierMove s (.turn b) { s with pc := .turn p rest }
  | registered (dwGit : UInt32) (h : s.git[dwGit]? = none) :
    TierMove s (.register dwGit)
      { s with
        git := s.git.insert dwGit ⟨dwGit, s.nAdvises⟩
        nAdvises := s.nAdvises + 1
        advising := s.advising ++ [⟨dwGit, s.nAdvises⟩] }
  | advised (r : Registration) (h : r ∈ s.advising) (hc : s.sinks[s.dwNextCookie]? = none) :
    TierMove s (.advise r)
      { s with
        advising := s.advising.erase r
        sinks := s.sinks.insert s.dwNextCookie r
        dwNextCookie := s.dwNextCookie + 1
        log := s.log ++ [.advised r] }
  | replaced (r r' : Registration) (h : r ∈ s.advising) (hc : s.sinks[s.dwNextCookie]? = some r') :
    TierMove s (.advise r)
      { s with
        advising := s.advising.erase r
        sinks := s.sinks.insert s.dwNextCookie r
        dwNextCookie := s.dwNextCookie + 1
        log := s.log ++ [.erased r'] ++ [.advised r] }
  | erased (dwCookie : UInt32) (r : Registration) (h : s.sinks[dwCookie]? = some r) :
    TierMove s (.unadvise dwCookie)
      { s with sinks := s.sinks.erase dwCookie, revoking := s.revoking ++ [r], log := s.log ++ [.erased r] }
  | revoked (r : Registration) (h : r ∈ s.revoking) :
    TierMove s (.revoke r) { s with revoking := s.revoking.erase r, git := s.git.erase r.dwGit, log := s.log ++ [.revoked r] }
  | readInside (p : Popped) (r : Registration) (rest : List Registration) (get : MsgRead) (b : Bool) (h : s.pc = .inside p r rest) :
    TierMove s (.readInside get b) { s with log := s.log ++ [.readInside r p get b (s.read (some .dispatch) get b)] }
  | readOutside (n : Option Nat) (get : MsgRead) (b : Bool) :
    TierMove s (.readOutside n get b)
      { s with log := s.log ++ [.readOutside (n.map .other) get b (s.read (n.map .other) get b)] }

theorem queue_tierMove (s : ComTier) (e : QueueEv) : TierMove s (.queue e) (tierStep s (.queue e)) := by
  cases e with
  | dispatch =>
    unfold tierStep
    simp only
    split
    · rename_i p p' hq h
      exact .left p' p hq h
    · exact .stay _ fun f h => (TierEv.queue.inj h).symm
    · rename_i hq _
      exact .queue .dispatch fun _ p h => hq p h
  | push ev => exact .queue (.push ev) nofun
  | wake => exact .queue .wake nofun
  | quit => exact .queue .quit nofun

theorem fire_tierMove (s : ComTier) (bOk bGuid : Bool) : TierMove s (.fire bOk bGuid) (tierStep s (.fire bOk bGuid)) := by
  unfold tierStep
  simp only
  split
  case h_2 => exact .stay _ nofun
  rename_i p hq h
  unfold Fire
  simp only
  split
  · rename_i hrs
    exact .nobody p bOk bGuid hq h (List.isEmpty_iff.mp hrs)
  split
  · rename_i hok
    obtain rfl : bOk = false := by simpa using hok
    exact .abandoned p bGuid hq h
  rename_i hok
  obtain rfl : bOk = true := by simpa using hok
  split
  · rename_i hm
    cases bGuid with
    | true => exact .published p hq h hm
    | false => exact .anonymous p hq h hm
  · rename_i hm
    exact .plain p bGuid hq h hm

theorem turn_tierMove (s : ComTier) (b : Bool) : TierMove s (.turn b) (tierStep s (.turn b)) := by
  show TierMove s _ (fireTurn b s)
  unfold fireTurn
  split
  · rename_i p r rest h
    split
    · rename_i hg
      exact .gone p r rest b h hg
    · rename_i r' hg
      cases b with
      | true => exact .fetched p r r' rest h hg
      | false => exact .unfetched p r r' rest h hg
  · rename_i p h
    split
    · rename_i hm
      exact .unpublished p b h hm
    · rename_i hm
      exact .ended p b h hm
  · rename_i p r rest h
    exact .invoked p r rest b h
  · rename_i p r rest h
    exact .back p r rest b h
  · exact .stay _ nofun
  · exact .stay _ nofun

theorem tier_move (s : ComTier) (e : TierEv) : TierMove s e (tierStep s e) := by
  cases e with
  | queue e => exact queue_tierMove s e
  | fire bOk bGuid => exact fire_tierMove s bOk bGuid
  | turn b => exact turn_tierMove s b
  | register dwGit =>
    unfold tierStep
    simp only
    split
    · exact .stay _ nofun
    · rename_i h
      exact .registered dwGit (Std.ExtTreeMap.getElem?_eq_none h)
  | advise r =>
    unfold tierStep
    simp only
    split
    case isFalse => exact .stay _ nofun
    rename_i h
    cases hc : s.sinks[s.dwNextCookie]? with
    | none => simpa using TierMove.advised r h hc
    | some r' => simpa using TierMove.replaced r r' h hc
  | unadvise dwCookie =>
    unfold tierStep
    simp only
    split
    · exact .stay _ nofun
    · rename_i r h
      exact .erased dwCookie r h
  | revoke r =>
    unfold tierStep
    simp only
    split
    · rename_i h
      exact .revoked r h
    · exact .stay _ nofun
  | readInside get b =>
    unfold tierStep
    simp only
    split
    · rename_i p r rest h
      exact .readInside p r rest get b h
    · exact .stay _ nofun
  | readOutside n get b => exact .readOutside n get b

/-! ## Rounds -/

/-- Those the loop has still to fetch. -/
def FirePc.rest : FirePc → List Registration
  | .turn _ rest | .fetched _ _ rest | .inside _ _ rest => rest
  | .outside | .done _ => []

def FirePc.under : FirePc → Option (Popped × List Registration)
  | .turn p rest | .inside p _ rest => some (p, rest)
  | .fetched p r rest => some (p, r :: rest)
  | .outside | .done _ => none

def TierNote.abs : TierNote → List (RoundNote Popped Registration)
  | .advised r => [.joined r]
  | .erased r => [.left r]
  | .fired p rs => [.begun p rs]
  | .abandoned p rs => rs.map (.served · p)
  | .unfetched r p | .invoked r p => [.served r p]
  | .revoked _ | .noCausality _ | .readInside _ _ _ _ _ | .readOutside _ _ _ _ => []

def roundLog (log : List TierNote) : List (RoundNote Popped Registration) := log.flatMap TierNote.abs

def ComTier.rounds (s : ComTier) : Round Popped Registration := ⟨s.pc.under, roundLog s.log⟩

/-- A cookie of the table is not handed out again while Fire has it on its list. -/
def NotListed (s : ComTier) : TierEv → Prop
  | .register dwGit => ∀ r ∈ s.pc.rest, r.dwGit ≠ dwGit
  | _ => True

/-- What the members say of a registration at each stage of its life. -/
structure TierInv (s : ComTier) : Prop where
  /-- m_sinks holds what is advised and not erased. -/
  members : ∀ r, (∃ c : UInt32, s.sinks[c]? = some r) ↔ .advised r ∈ s.log ∧ .erased r ∉ s.log
  apart : ∀ (c c' : UInt32) (r : Registration), s.sinks[c]? = some r → s.sinks[c']? = some r → c = c'
  live : ∀ (c : UInt32) (r : Registration), s.sinks[c]? = some r → s.git[r.dwGit]? = some r
  entry : ∀ (g : UInt32) (r : Registration), s.git[g]? = some r → r.dwGit = g ∧ r.nAdvise < s.nAdvises
  counted : ∀ r, .advised r ∈ s.log → r.nAdvise < s.nAdvises
  advising : ∀ r ∈ s.advising, s.git[r.dwGit]? = some r ∧ .advised r ∉ s.log
  advisingNodup : s.advising.Nodup
  revoking : ∀ r ∈ s.revoking, s.git[r.dwGit]? = some r ∧ .erased r ∈ s.log
  revokingNodup : s.revoking.Nodup
  advisedFirst : ∀ r, .erased r ∈ s.log → .advised r ∈ s.log
  listed : ∀ r ∈ s.pc.rest, s.git[r.dwGit]? = some r ∨ s.git[r.dwGit]? = none

theorem roundLog_snoc (log : List TierNote) (x : TierNote) : roundLog (log ++ [x]) = roundLog log ++ x.abs := by
  simp [roundLog]

theorem joined_mem {log : List TierNote} {r : Registration} : RoundNote.joined r ∈ roundLog log ↔ TierNote.advised r ∈ log := by
  unfold roundLog
  rw [List.mem_flatMap]
  constructor
  · rintro ⟨x, hx, hin⟩
    cases x <;> simp [TierNote.abs] at hin
    subst hin
    exact hx
  · intro h
    exact ⟨_, h, List.mem_singleton.mpr rfl⟩

theorem left_mem {log : List TierNote} {r : Registration} : RoundNote.left r ∈ roundLog log ↔ TierNote.erased r ∈ log := by
  unfold roundLog
  rw [List.mem_flatMap]
  constructor
  · rintro ⟨x, hx, hin⟩
    cases x <;> simp [TierNote.abs] at hin
    subst hin
    exact hx
  · intro h
    exact ⟨_, h, List.mem_singleton.mpr rfl⟩

theorem member_iff {s : ComTier} (h : TierInv s) (r : Registration) :
    Member (roundLog s.log) r ↔ ∃ c : UInt32, s.sinks[c]? = some r := by
  rw [h.members, Member, joined_mem, left_mem]

/-! ## The life of a registration -/

theorem registered_iff (s : ComTier) (r : Registration) : r ∈ s.registered ↔ ∃ c : UInt32, s.sinks[c]? = some r := by
  refine (mem_entries (f := fun _ r => r)).trans ?_
  simp

theorem registered_nodup {s : ComTier} (h : TierInv s) : s.registered.Nodup := by
  unfold ComTier.registered
  rw [List.Nodup, List.pairwise_map]
  refine List.Pairwise.imp_of_mem (fun {a b} ha hb hne heq => ?_) Std.ExtTreeMap.distinct_keys_toList
  have ha' := Std.ExtTreeMap.mem_toList_iff_getElem?_eq_some.mp ha
  have hb' := Std.ExtTreeMap.mem_toList_iff_getElem?_eq_some.mp hb
  rw [heq] at ha'
  exact hne (Std.LawfulEqOrd.compare_eq_iff_eq.mpr (h.apart a.1 b.1 b.2 ha' hb'))

/-- Where the table and m_sinks stay, so does the invariant. -/
theorem TierInv.same {s s' : ComTier} (h : TierInv s) (hsinks : s'.sinks = s.sinks) (hgit : s'.git = s.git)
    (hn : s'.nAdvises = s.nAdvises) (hadv : s'.advising = s.advising) (hrev : s'.revoking = s.revoking)
    (hlog : ∀ r, (.advised r ∈ s'.log ↔ .advised r ∈ s.log) ∧ (.erased r ∈ s'.log ↔ .erased r ∈ s.log))
    (hlisted : ∀ r ∈ s'.pc.rest, s.git[r.dwGit]? = some r ∨ s.git[r.dwGit]? = none) : TierInv s' := by
  refine ⟨fun r => ?_, ?_, ?_, ?_, fun r hr => ?_, fun r hr => ?_, ?_, fun r hr => ?_, ?_, fun r hr => ?_, ?_⟩
  · rw [hsinks, (hlog r).1, (hlog r).2]
    exact h.members r
  · rw [hsinks]
    exact h.apart
  · rw [hsinks, hgit]
    exact h.live
  · rw [hgit, hn]
    exact h.entry
  · rw [hn]
    exact h.counted r ((hlog r).1.mp hr)
  · rw [hadv] at hr
    rw [hgit, (hlog r).1]
    exact h.advising r hr
  · rw [hadv]
    exact h.advisingNodup
  · rw [hrev] at hr
    rw [hgit, (hlog r).2]
    exact h.revoking r hr
  · rw [hrev]
    exact h.revokingNodup
  · exact (hlog r).1.mpr (h.advisedFirst r ((hlog r).2.mp hr))
  · rw [hgit]
    exact hlisted

/-- Two registrations that the table has under one cookie are one. -/
theorem TierInv.one {s : ComTier} {r r' : Registration} (hr : s.git[r.dwGit]? = some r) (hr' : s.git[r'.dwGit]? = some r')
    (heq : r.dwGit = r'.dwGit) : r = r' := by
  rw [heq, hr'] at hr
  exact (Option.some.inj hr).symm

theorem tierInv_registered {s : ComTier} (h : TierInv s) {dwGit : UInt32} (hfree : s.git[dwGit]? = none)
    (hlisted : ∀ r ∈ s.pc.rest, r.dwGit ≠ dwGit) :
    TierInv { s with
      git := s.git.insert dwGit ⟨dwGit, s.nAdvises⟩
      nAdvises := s.nAdvises + 1
      advising := s.advising ++ [⟨dwGit, s.nAdvises⟩] } := by
  -- what is in the table stays there
  have hstays : ∀ r : Registration, s.git[r.dwGit]? = some r → (s.git.insert dwGit ⟨dwGit, s.nAdvises⟩)[r.dwGit]? = some r := by
    intro r hr
    rw [get_insert]
    split
    · rename_i heq
      rw [← heq, hfree] at hr
      cases hr
    · exact hr
  have hnew : .advised ⟨dwGit, s.nAdvises⟩ ∉ s.log := fun hin => Nat.lt_irrefl _ (h.counted _ hin)
  refine ⟨h.members, h.apart, fun c r hr => hstays r (h.live c r hr), fun g r hr => ?_, fun r hr => ?_, fun r hr => ?_, ?_,
    fun r hr => ?_, h.revokingNodup, h.advisedFirst, fun r hr => ?_⟩
  · rcases get_of_insert hr with ⟨rfl, rfl, -⟩ | ⟨-, hr⟩
    · exact ⟨rfl, Nat.lt_succ_self _⟩
    · obtain ⟨hg, hlt⟩ := h.entry g r hr
      exact ⟨hg, Nat.lt_succ_of_lt hlt⟩
  · exact Nat.lt_succ_of_lt (h.counted r hr)
  · rcases List.mem_append.mp hr with hr | hr
    · obtain ⟨hg, hnot⟩ := h.advising r hr
      exact ⟨hstays r hg, hnot⟩
    · rw [List.mem_singleton.mp hr]
      exact ⟨by rw [get_insert, if_pos rfl], hnew⟩
  · refine List.nodup_append.mpr ⟨h.advisingNodup, List.nodup_singleton _, fun r hr r' hr' heq => ?_⟩
    rw [List.mem_singleton.mp hr'] at heq
    obtain ⟨hg, -⟩ := h.advising r hr
    have hlt := (h.entry _ _ hg).2
    rw [heq] at hlt
    exact Nat.lt_irrefl _ hlt
  · obtain ⟨hg, hin⟩ := h.revoking r hr
    exact ⟨hstays r hg, hin⟩
  · rcases h.listed r hr with hg | hg
    · exact Or.inl (hstays r hg)
    · refine Or.inr ?_
      show (s.git.insert dwGit _)[r.dwGit]? = none
      rw [get_insert, if_neg (hlisted r hr).symm]
      exact hg

/-- A registration that is in the table and not in m_sinks takes the next cookie, which is free. -/
theorem tierInv_advised {s : ComTier} (h : TierInv s) {r : Registration} (hr : r ∈ s.advising)
    (hc : s.sinks[s.dwNextCookie]? = none) :
    TierInv { s with
      advising := s.advising.erase r
      sinks := s.sinks.insert s.dwNextCookie r
      dwNextCookie := s.dwNextCookie + 1
      log := s.log ++ [.advised r] } := by
  obtain ⟨hg, hnot⟩ := h.advising r hr
  have hout : ∀ c : UInt32, s.sinks[c]? ≠ some r := fun c hin => hnot ((h.members r).mp ⟨c, hin⟩).1
  have herased : .erased r ∉ s.log := fun hin => hnot (h.advisedFirst r hin)
  have hadvised (r' : Registration) : .advised r' ∈ s.log ++ [.advised r] ↔ .advised r' ∈ s.log ∨ r' = r := by simp
  have hlost (r' : Registration) : TierNote.erased r' ∈ s.log ++ [.advised r] ↔ .erased r' ∈ s.log := by simp
  refine ⟨fun r' => ?_, fun c c' r' h1 h2 => ?_, fun c r' h1 => ?_, h.entry, fun r' hr' => ?_, fun r' hr' => ?_,
    h.advisingNodup.erase r, fun r' hr' => ?_, h.revokingNodup, fun r' hr' => ?_, h.listed⟩
  · show (∃ c, (s.sinks.insert s.dwNextCookie r)[c]? = some r') ↔ .advised r' ∈ s.log ++ _ ∧ .erased r' ∉ s.log ++ _
    rw [hadvised, hlost]
    constructor
    · rintro ⟨c, hin⟩
      rcases get_of_insert hin with ⟨-, rfl⟩ | ⟨-, hin⟩
      · exact ⟨Or.inr rfl, herased⟩
      · obtain ⟨h1, h2⟩ := (h.members r').mp ⟨c, hin⟩
        exact ⟨Or.inl h1, h2⟩
    · rintro ⟨h1 | rfl, h2⟩
      · obtain ⟨c, hin⟩ := (h.members r').mpr ⟨h1, h2⟩
        refine ⟨c, ?_⟩
        rw [get_insert, if_neg, hin]
        rintro rfl
        rw [hc] at hin
        cases hin
      · exact ⟨s.dwNextCookie, by rw [get_insert, if_pos rfl]⟩
  · rcases get_of_insert h1 with ⟨rfl, rfl⟩ | ⟨-, h1⟩
    · rcases get_of_insert h2 with ⟨rfl, -⟩ | ⟨-, h2⟩
      · rfl
      · exact absurd h2 (hout c')
    · rcases get_of_insert h2 with ⟨rfl, rfl⟩ | ⟨-, h2⟩
      · exact absurd h1 (hout c)
      · exact h.apart c c' r' h1 h2
  · rcases get_of_insert h1 with ⟨-, rfl⟩ | ⟨-, h1⟩
    · exact hg
    · exact h.live c r' h1
  · rcases (hadvised r').mp hr' with hr' | rfl
    · exact h.counted r' hr'
    · exact (h.entry _ _ hg).2
  · obtain ⟨hne, hin⟩ := (h.advisingNodup.mem_erase_iff).mp hr'
    obtain ⟨hg', hnot'⟩ := h.advising r' hin
    exact ⟨hg', fun hin' => ((hadvised r').mp hin').elim hnot' hne⟩
  · obtain ⟨hg', hin⟩ := h.revoking r' hr'
    exact ⟨hg', (hlost r').mpr hin⟩
  · exact (hadvised r').mpr (Or.inl (h.advisedFirst r' ((hlost r').mp hr')))

/-- Taking a cookie out of m_sinks. -/
theorem tierInv_erased {s : ComTier} (h : TierInv s) {dwCookie : UInt32} {r : Registration} (hr : s.sinks[dwCookie]? = some r)
    {revoking : List Registration} (hrev : ∀ r' ∈ revoking, r' ∈ s.revoking ∨ r' = r) (hnodup : revoking.Nodup) :
    TierInv { s with sinks := s.sinks.erase dwCookie, revoking := revoking, log := s.log ++ [.erased r] } := by
  obtain ⟨hadvised, hnot⟩ := (h.members r).mp ⟨_, hr⟩
  have hkeeps (r' : Registration) : .advised r' ∈ s.log ++ [.erased r] ↔ .advised r' ∈ s.log := by simp
  have hlost (r' : Registration) : TierNote.erased r' ∈ s.log ++ [.erased r] ↔ .erased r' ∈ s.log ∨ r' = r := by simp
  refine ⟨fun r' => ?_, fun c c' r' h1 h2 => ?_, fun c r' h1 => ?_, h.entry, fun r' hr' => ?_, fun r' hr' => ?_,
    h.advisingNodup, fun r' hr' => ?_, hnodup, fun r' hr' => ?_, h.listed⟩
  · show (∃ c, (s.sinks.erase dwCookie)[c]? = some r') ↔ .advised r' ∈ s.log ++ _ ∧ .erased r' ∉ s.log ++ _
    rw [hkeeps, hlost]
    constructor
    · rintro ⟨c, hin⟩
      obtain ⟨hne, hin⟩ := get_of_erase hin
      obtain ⟨h1, h2⟩ := (h.members r').mp ⟨c, hin⟩
      refine ⟨h1, fun h3 => h3.elim h2 ?_⟩
      rintro rfl
      exact hne (h.apart _ _ _ hr hin)
    · rintro ⟨h1, h2⟩
      obtain ⟨c, hin⟩ := (h.members r').mpr ⟨h1, fun h3 => h2 (Or.inl h3)⟩
      refine ⟨c, ?_⟩
      rw [get_erase, if_neg, hin]
      rintro rfl
      rw [hr] at hin
      exact h2 (Or.inr (Option.some.inj hin).symm)
  · exact h.apart c c' r' (get_of_erase h1).2 (get_of_erase h2).2
  · exact h.live c r' (get_of_erase h1).2
  · exact h.counted r' ((hkeeps r').mp hr')
  · obtain ⟨hg, hout⟩ := h.advising r' hr'
    exact ⟨hg, fun hin => hout ((hkeeps r').mp hin)⟩
  · rcases hrev r' hr' with hin | rfl
    · obtain ⟨hg, hin⟩ := h.revoking r' hin
      exact ⟨hg, (hlost r').mpr (Or.inl hin)⟩
    · exact ⟨h.live _ _ hr, (hlost r').mpr (Or.inr rfl)⟩
  · rcases (hlost r').mp hr' with hin | rfl
    · exact (hkeeps r').mpr (h.advisedFirst r' hin)
    · exact (hkeeps r').mpr hadvised

theorem insert_erase {α β : Type} [Ord α] [Std.TransOrd α] [Std.LawfulEqOrd α] [DecidableEq α] (m : Map α β) (k : α) (v : β) :
    (m.erase k).insert k v = m.insert k v := by
  apply map_ext
  intro a
  rw [get_insert, get_insert, get_erase]
  split <;> rfl

/-- A cookie that is taken: its sink goes and the new one has it. -/
theorem tierInv_replaced {s : ComTier} (h : TierInv s) {r r' : Registration} (hr : r ∈ s.advising)
    (hc : s.sinks[s.dwNextCookie]? = some r') :
    TierInv { s with
      advising := s.advising.erase r
      sinks := s.sinks.insert s.dwNextCookie r
      dwNextCookie := s.dwNextCookie + 1
      log := s.log ++ [.erased r'] ++ [.advised r] } := by
  have hgone := @tierInv_erased s h s.dwNextCookie r' hc s.revoking (fun _ hin => Or.inl hin) h.revokingNodup
  have hnone : (s.sinks.erase s.dwNextCookie)[s.dwNextCookie]? = none := by rw [get_erase, if_pos rfl]
  have hnow := tierInv_advised hgone (r := r) hr hnone
  rw [insert_erase] at hnow
  exact hnow

theorem tierInv_revoked {s : ComTier} (h : TierInv s) {r : Registration} (hr : r ∈ s.revoking) :
    TierInv { s with revoking := s.revoking.erase r, git := s.git.erase r.dwGit, log := s.log ++ [.revoked r] } := by
  obtain ⟨hg, herased⟩ := h.revoking r hr
  -- another registration's entry stays
  have hstays (r' : Registration) (hg' : s.git[r'.dwGit]? = some r') (hne : r' ≠ r) : (s.git.erase r.dwGit)[r'.dwGit]? = some r' := by
    rw [get_erase, if_neg fun heq => hne (TierInv.one hg hg' heq).symm]
    exact hg'
  have hkeeps (r' : Registration) : TierNote.advised r' ∈ s.log ++ [.revoked r] ↔ .advised r' ∈ s.log := by simp
  have hlost (r' : Registration) : TierNote.erased r' ∈ s.log ++ [.revoked r] ↔ .erased r' ∈ s.log := by simp
  refine ⟨fun r' => ?_, h.apart, fun c r' hin => hstays r' (h.live c r' hin) ?_, fun g r' hin => h.entry g r' (get_of_erase hin).2,
    fun r' hin => h.counted r' ((hkeeps r').mp hin), fun r' hin => ?_, h.advisingNodup, fun r' hin => ?_,
    h.revokingNodup.erase r, fun r' hin => (hkeeps r').mpr (h.advisedFirst r' ((hlost r').mp hin)), fun r' hin => ?_⟩
  · rw [hkeeps, hlost]
    exact h.members r'
  · rintro rfl
    exact ((h.members r').mp ⟨c, hin⟩).2 herased
  · obtain ⟨hg', hout⟩ := h.advising r' hin
    refine ⟨hstays r' hg' ?_, fun h1 => hout ((hkeeps r').mp h1)⟩
    rintro rfl
    exact hout (h.advisedFirst r' herased)
  · obtain ⟨hne, hin⟩ := (h.revokingNodup.mem_erase_iff).mp hin
    obtain ⟨hg', h1⟩ := h.revoking r' hin
    exact ⟨hstays r' hg' hne, (hlost r').mpr h1⟩
  · show (s.git.erase r.dwGit)[r'.dwGit]? = some r' ∨ (s.git.erase r.dwGit)[r'.dwGit]? = none
    rw [get_erase]
    split
    · exact Or.inr rfl
    · exact h.listed r' hin

theorem tierInv_created : TierInv .created := by
  refine ⟨fun r => ?_, nofun, nofun, nofun, nofun, nofun, List.nodup_nil, nofun, List.nodup_nil, nofun, nofun⟩
  simp [ComTier.created]

theorem tierInv_step (s : ComTier) (e : TierEv) (h : TierInv s) (he : NotListed s e) : TierInv (tierStep s e) := by
  have hmove := tier_move s e
  generalize tierStep s e = s' at hmove ⊢
  have hlive : ∀ r ∈ s.registered, s.git[r.dwGit]? = some r ∨ s.git[r.dwGit]? = none := fun r hr => by
    obtain ⟨c, hin⟩ := (registered_iff s r).mp hr
    exact Or.inl (h.live c r hin)
  cases hmove with
  | stay => exact h
  | queue e hq => exact h.same rfl rfl rfl rfl rfl (fun _ => ⟨Iff.rfl, Iff.rfl⟩) h.listed
  | left p p' hq hpc => exact h.same rfl rfl rfl rfl rfl (fun _ => ⟨Iff.rfl, Iff.rfl⟩) nofun
  | nobody p bOk bGuid hq hpc hrs => exact h.same rfl rfl rfl rfl rfl (fun _ => by simp) nofun
  | abandoned p bGuid hq hpc => exact h.same rfl rfl rfl rfl rfl (fun _ => by simp) nofun
  | published p hq hpc hm => exact h.same rfl rfl rfl rfl rfl (fun _ => by simp) hlive
  | anonymous p hq hpc hm => exact h.same rfl rfl rfl rfl rfl (fun _ => by simp) hlive
  | plain p bGuid hq hpc hm => exact h.same rfl rfl rfl rfl rfl (fun _ => by simp) hlive
  | gone p r rest b hpc hg =>
    have hlisted := h.listed
    rw [hpc] at hlisted
    exact h.same rfl rfl rfl rfl rfl (fun _ => ⟨Iff.rfl, Iff.rfl⟩) fun r' hr' => hlisted r' (List.mem_cons_of_mem _ hr')
  | fetched p r r' rest hpc hg =>
    have hlisted := h.listed
    rw [hpc] at hlisted
    exact h.same rfl rfl rfl rfl rfl (fun _ => ⟨Iff.rfl, Iff.rfl⟩) fun r' hr' => hlisted r' (List.mem_cons_of_mem _ hr')
  | unfetched p r r' rest hpc hg =>
    have hlisted := h.listed
    rw [hpc] at hlisted
    exact h.same rfl rfl rfl rfl rfl (fun _ => by simp) fun r' hr' => hlisted r' (List.mem_cons_of_mem _ hr')
  | unpublished p b hpc hm => exact h.same rfl rfl rfl rfl rfl (fun _ => ⟨Iff.rfl, Iff.rfl⟩) nofun
  | ended p b hpc hm => exact h.same rfl rfl rfl rfl rfl (fun _ => ⟨Iff.rfl, Iff.rfl⟩) nofun
  | invoked p r rest b hpc =>
    have hlisted := h.listed
    rw [hpc] at hlisted
    exact h.same rfl rfl rfl rfl rfl (fun _ => by simp) hlisted
  | back p r rest b hpc =>
    have hlisted := h.listed
    rw [hpc] at hlisted
    exact h.same rfl rfl rfl rfl rfl (fun _ => ⟨Iff.rfl, Iff.rfl⟩) hlisted
  | registered dwGit hfree => exact tierInv_registered h hfree he
  | advised r hr hc => exact tierInv_advised h hr hc
  | replaced r r' hr hc => exact tierInv_replaced h hr hc
  | erased dwCookie r hr =>
    refine tierInv_erased h hr (fun r' hin => ?_) ?_
    · exact (List.mem_append.mp hin).imp_right List.mem_singleton.mp
    · refine List.nodup_append.mpr ⟨h.revokingNodup, List.nodup_singleton _, fun r' hr' r'' hr'' heq => ?_⟩
      rw [List.mem_singleton.mp hr''] at heq
      subst heq
      exact ((h.members r').mp ⟨_, hr⟩).2 (h.revoking r' hr').2
  | revoked r hr => exact tierInv_revoked h hr
  | readInside p r rest get b hpc => exact h.same rfl rfl rfl rfl rfl (fun _ => by simp) h.listed
  | readOutside n get b => exact h.same rfl rfl rfl rfl rfl (fun _ => by simp) h.listed

/-! ## Every step is one of the rounds -/

theorem serve_all (x : Popped) : ∀ (rs : List Registration) (log : List (RoundNote Popped Registration)),
    Relation.ReflTransGen Rounds.Move ⟨some (x, rs), log⟩ ⟨some (x, []), log ++ rs.map (.served · x)⟩ := by
  intro rs
  induction rs with
  | nil =>
    intro log
    rw [List.map_nil, List.append_nil]
  | cons r rs ih =>
    intro log
    have hone : Rounds.Move ⟨some (x, r :: rs), log⟩ ⟨some (x, rs), log ++ [.served r x]⟩ := .serve _ x r rs rfl
    have hrest := ih (log ++ [.served r x])
    rw [List.append_assoc] at hrest
    exact .head hone hrest

theorem rounds_begin {s : ComTier} (h : TierInv s) (hpc : s.pc = .outside) (p : Popped) :
    Rounds.Move s.rounds ⟨some (p, s.registered), roundLog s.log ++ [.begun p s.registered]⟩ := by
  have hidle : s.rounds.under = none := by
    show s.pc.under = none
    rw [hpc]
    rfl
  exact .begin_ s.rounds p s.registered hidle (registered_nodup h) fun r => (registered_iff s r).trans (member_iff h r).symm

/-- What the table has for a sink of the round is that sink. -/
theorem table_has {s : ComTier} (h : TierInv s) {r r' : Registration} (hr : r ∈ s.pc.rest) (hg : s.git[r.dwGit]? = some r') :
    r' = r := by
  have hlisted := h.listed r hr
  rw [hg] at hlisted
  simpa using hlisted

/-- The notes that are nothing to the rounds. -/
theorem rounds_same {s s' : ComTier} (hpc : s'.pc.under = s.pc.under) (hlog : roundLog s'.log = roundLog s.log) :
    Relation.ReflTransGen Rounds.Move s.rounds s'.rounds := by
  have heq : s'.rounds = s.rounds := by
    unfold ComTier.rounds
    rw [hpc, hlog]
  rw [heq]

theorem rounds_step {s : ComTier} (h : TierInv s) (e : TierEv) : Relation.ReflTransGen Rounds.Move s.rounds (tierStep s e).rounds := by
  have hmove := tier_move s e
  generalize tierStep s e = s' at hmove ⊢
  have hnote (x : TierNote) : roundLog (s.log ++ [x]) = roundLog s.log ++ x.abs := roundLog_snoc s.log x
  have hnotes (x y : TierNote) : roundLog (s.log ++ [x] ++ [y]) = roundLog s.log ++ x.abs ++ y.abs := by
    rw [roundLog_snoc, roundLog_snoc]
  cases hmove with
  | stay | queue e hq => exact rounds_same rfl rfl
  | left p p' hq hpc => exact rounds_same (by rw [hpc]; rfl) rfl
  | nobody p bOk bGuid hq hpc hrs =>
    refine .tail (.single (rounds_begin h hpc p)) ?_
    show Rounds.Move _ ⟨none, roundLog (s.log ++ [.fired p s.registered])⟩
    rw [hnote]
    exact .finish _ p (by rw [hrs])
  | abandoned p bGuid hq hpc =>
    refine .head (rounds_begin h hpc p) (.tail (serve_all p s.registered _) ?_)
    show Rounds.Move _ ⟨none, roundLog (s.log ++ [.fired p s.registered] ++ [.abandoned p s.registered])⟩
    rw [hnotes]
    exact .finish _ p rfl
  | published p hq hpc hm | plain p bGuid hq hpc hm =>
    refine .single ?_
    show Rounds.Move _ ⟨some (p, s.registered), roundLog (s.log ++ [.fired p s.registered])⟩
    rw [hnote]
    exact rounds_begin h hpc p
  | anonymous p hq hpc hm =>
    refine .single ?_
    show Rounds.Move _ ⟨some (p, s.registered), roundLog (s.log ++ [.fired p s.registered] ++ [.noCausality p])⟩
    rw [hnotes]
    simpa [TierNote.abs] using rounds_begin h hpc p
  | gone p r rest b hpc hg =>
    -- a sink that the table no longer has is no longer in m_sinks
    have hnot : ¬ Member (roundLog s.log) r := fun hin => by
      obtain ⟨c, hin⟩ := (member_iff h r).mp hin
      rw [h.live c r hin] at hg
      cases hg
    exact .single (.pass s.rounds p r rest (by show s.pc.under = _; rw [hpc]; rfl) hnot)
  | fetched p r r' rest hpc hg =>
    obtain rfl := table_has h (by rw [hpc]; exact List.mem_cons_self) hg
    exact rounds_same (by rw [hpc]; rfl) rfl
  | unfetched p r r' rest hpc hg =>
    obtain rfl := table_has h (by rw [hpc]; exact List.mem_cons_self) hg
    refine .single ?_
    show Rounds.Move _ ⟨some (p, rest), roundLog (s.log ++ [.unfetched r' p])⟩
    rw [hnote]
    exact .serve s.rounds p r' rest (by show s.pc.under = _; rw [hpc]; rfl)
  | unpublished p b hpc hm | ended p b hpc hm =>
    exact .single (.finish s.rounds p (by show s.pc.under = _; rw [hpc]; rfl))
  | invoked p r rest b hpc =>
    refine .single ?_
    show Rounds.Move _ ⟨some (p, rest), roundLog (s.log ++ [.invoked r p])⟩
    rw [hnote]
    exact .serve s.rounds p r rest (by show s.pc.under = _; rw [hpc]; rfl)
  | back p r rest b hpc => exact rounds_same (by rw [hpc]; rfl) rfl
  | registered dwGit hfree => exact rounds_same rfl rfl
  | advised r hr hc =>
    refine .single ?_
    show Rounds.Move _ ⟨s.pc.under, roundLog (s.log ++ [.advised r])⟩
    rw [hnote]
    exact .join s.rounds r fun hin => (h.advising r hr).2 (joined_mem.mp hin)
  | replaced r r' hr hc =>
    refine .tail (.single (.leave s.rounds r' ((member_iff h r').mpr ⟨_, hc⟩))) ?_
    show Rounds.Move _ ⟨s.pc.under, roundLog (s.log ++ [.erased r'] ++ [.advised r])⟩
    rw [hnotes]
    refine .join _ r fun hin => ?_
    rcases List.mem_append.mp hin with hin | hin
    · exact (h.advising r hr).2 (joined_mem.mp hin)
    · cases List.mem_singleton.mp hin
  | erased dwCookie r hr =>
    refine .single ?_
    show Rounds.Move _ ⟨s.pc.under, roundLog (s.log ++ [.erased r])⟩
    rw [hnote]
    exact .leave s.rounds r ((member_iff h r).mpr ⟨_, hr⟩)
  | revoked r hr => exact rounds_same rfl (by rw [hnote]; exact List.append_nil _)
  | readInside p r rest get b hpc => exact rounds_same rfl (by rw [hnote]; exact List.append_nil _)
  | readOutside n get b => exact rounds_same rfl (by rw [hnote]; exact List.append_nil _)

/-- The invariant, and the rounds it makes. -/
theorem tier_rounds {es : List TierEv} (hes : Each tierStep NotListed .created es) :
    TierInv (exec tierStep .created es) ∧ Rounds.Sound (exec tierStep .created es).rounds := by
  have hboth : ∀ s e, TierInv s ∧ Relation.ReflTransGen Rounds.Move .start s.rounds → NotListed s e →
      TierInv (tierStep s e) ∧ Relation.ReflTransGen Rounds.Move .start (tierStep s e).rounds :=
    fun s e h he => ⟨tierInv_step s e h.1 he, h.2.trans (rounds_step h.1 e)⟩
  have hend := (always_of_each hboth ⟨tierInv_created, .refl⟩ hes).last
  exact ⟨hend.1, rounds_sound hend.2⟩

/-! ## What a sink is called for -/

def TierNote.fired? : TierNote → Option Popped
  | .fired p _ => some p
  | _ => none

/-- An event that was fired with `r` in m_sinks. -/
def TierNote.firedFor? (r : Registration) : TierNote → Option Popped
  | .fired p rs => if r ∈ rs then some p else none
  | _ => none

def TierNote.invokes (r : Registration) : TierNote → List Popped
  | .invoked r' p => if r' = r then [p] else []
  | _ => []

/-- Its turn comes, and it is not invoked. -/
def TierNote.skips (r : Registration) : TierNote → List Popped
  | .unfetched r' p => if r' = r then [p] else []
  | .abandoned p rs => List.replicate (rs.count r) p
  | _ => []

/-- The turn of `r`, one way or the other. -/
def TierNote.turns (r : Registration) (x : TierNote) : List Popped := x.invokes r ++ x.skips r

/-- Its turn is to come in the round under way. -/
def ComTier.Due (s : ComTier) (r : Registration) : Prop := ∃ p rest, s.pc.under = some (p, rest) ∧ r ∈ rest

structure SinkAccount (s : ComTier) (r : Registration) : Prop where
  /-- Its turn comes for what was fired while it was in m_sinks, in that order and for each once; at most the last is missing. -/
  inOrder : ∃ rest, s.log.filterMap (TierNote.firedFor? r) = s.log.flatMap (TierNote.turns r) ++ rest ∧ rest.length ≤ 1 ∧
    (rest ≠ [] → s.Due r ∨ .erased r ∈ s.log)
  /-- From Advise on it is in m_sinks, until it is erased. -/
  since : ∀ earlier later, s.log = earlier ++ .advised r :: later → .erased r ∉ s.log →
    s.log.filterMap (TierNote.firedFor? r) = later.filterMap TierNote.fired?
  /-- Once it is erased its turn comes once more at most. -/
  after : ∀ earlier later, s.log = earlier ++ .erased r :: later → (later.flatMap (TierNote.turns r)).length ≤ 1

/-- Fire finds no table or no memory for the payload with `r` in m_sinks, or the table fails at the turn of `r`. -/
def Refused (r : Registration) (s : ComTier) (e : TierEv) : Prop :=
  ((∃ p, s.queue.pc = .firing p) ∧ s.pc = .outside ∧ r ∈ s.registered ∧ ∃ bGuid, e = .fire false bGuid) ∨
    ∃ p rest, s.pc = .turn p (r :: rest) ∧ e = .turn false

/-- A step that is not refused skips no turn. -/
def SkipsRefused (r : Registration) (s : ComTier) (e : TierEv) : Prop :=
  ¬ Refused r s e → (tierStep s e).log.flatMap (TierNote.skips r) = s.log.flatMap (TierNote.skips r)

theorem served_append (r : Registration) (log log' : List (RoundNote Popped Registration)) :
    served r (log ++ log') = served r log ++ served r log' := List.filterMap_append

theorem served_abs (r : Registration) (x : TierNote) : served r x.abs = x.turns r := by
  cases x with
  | abandoned p rs =>
    show (rs.map (.served · p)).filterMap (RoundNote.serves? r) = [] ++ List.replicate (rs.count r) p
    rw [List.nil_append]
    rw [List.filterMap_map]
    induction rs with
    | nil => rfl
    | cons r' rs ih =>
      rw [List.filterMap_cons, List.count_cons]
      by_cases heq : r' = r
      · subst heq
        simpa [RoundNote.serves?, List.replicate_succ] using ih
      · simpa [RoundNote.serves?, heq] using ih
  | invoked r' p | unfetched r' p =>
    by_cases heq : r' = r
    · simp [served, TierNote.abs, RoundNote.serves?, TierNote.turns, TierNote.invokes, TierNote.skips, heq]
    · simp [served, TierNote.abs, RoundNote.serves?, TierNote.turns, TierNote.invokes, TierNote.skips, heq]
  | advised | erased | revoked | fired | noCausality | readInside | readOutside => rfl

theorem served_roundLog (r : Registration) (log : List TierNote) : served r (roundLog log) = log.flatMap (TierNote.turns r) := by
  induction log with
  | nil => rfl
  | cons x log ih =>
    show served r (x.abs ++ roundLog log) = _
    rw [served_append, served_abs, ih, List.flatMap_cons]

theorem filterMap_roundLog {f : RoundNote Popped Registration → Option Popped} {g : TierNote → Option Popped}
    (h : ∀ x : TierNote, x.abs.filterMap f = (g x).toList) (log : List TierNote) : (roundLog log).filterMap f = log.filterMap g := by
  induction log with
  | nil => rfl
  | cons x log ih =>
    show (x.abs ++ roundLog log).filterMap f = _
    rw [List.filterMap_append, h, ih]
    cases hg : g x with
    | none => simp [hg]
    | some p => simp [hg]

theorem offered_roundLog (r : Registration) (log : List TierNote) :
    offered r (roundLog log) = log.filterMap (TierNote.firedFor? r) := by
  refine filterMap_roundLog (fun x => ?_) log
  cases x with
  | fired p rs =>
    by_cases hr : r ∈ rs
    · simp [TierNote.abs, RoundNote.offers?, TierNote.firedFor?, hr]
    · simp [TierNote.abs, RoundNote.offers?, TierNote.firedFor?, hr]
  | abandoned p rs =>
    show (rs.map (.served · p)).filterMap (RoundNote.offers? r) = []
    rw [List.filterMap_map]
    exact List.filterMap_eq_nil_iff.mpr fun _ _ => rfl
  | advised | erased | revoked | noCausality | unfetched | invoked | readInside | readOutside => rfl

theorem begun_roundLog (log : List TierNote) : (roundLog log).filterMap RoundNote.begun? = log.filterMap TierNote.fired? := by
  refine filterMap_roundLog (fun x => ?_) log
  cases x with
  | abandoned p rs =>
    show (rs.map (.served · p)).filterMap RoundNote.begun? = []
    rw [List.filterMap_map]
    exact List.filterMap_eq_nil_iff.mpr fun _ _ => rfl
  | fired | advised | erased | revoked | noCausality | unfetched | invoked | readInside | readOutside => rfl

theorem due_mem {s : ComTier} {r : Registration} (h : s.rounds.due r ≠ []) : s.Due r := by
  unfold Round.due at h
  cases hu : s.rounds.under with
  | none =>
    rw [hu] at h
    exact absurd rfl h
  | some under =>
    obtain ⟨p, rest⟩ := under
    rw [hu] at h
    refine ⟨p, rest, hu, ?_⟩
    by_contra hnot
    exact h (if_neg hnot)

theorem roundLog_split {log earlier later : List TierNote} {x : TierNote} {y : RoundNote Popped Registration} (hx : x.abs = [y])
    (h : log = earlier ++ x :: later) : roundLog log = roundLog earlier ++ y :: roundLog later := by
  rw [h]
  show (earlier ++ x :: later).flatMap TierNote.abs = _
  rw [List.flatMap_append, List.flatMap_cons, hx]
  rfl

theorem sinkAccount_of_sound {s : ComTier} (h : Rounds.Sound s.rounds) (r : Registration) : SinkAccount s r := by
  refine ⟨?_, fun earlier later hlog hstays => ?_, fun earlier later hlog => ?_⟩
  · obtain ⟨rest, horder, hle, hmissing⟩ := h.missing r
    refine ⟨rest, ?_, hle, fun hne => ?_⟩
    · rw [← offered_roundLog, ← served_roundLog]
      exact horder
    · rcases hmissing hne with hdue | hleft
      · exact Or.inl (due_mem (hdue ▸ hne))
      · exact Or.inr (left_mem.mp hleft)
  · have hsince := h.offered_since (roundLog_split rfl hlog) fun hleft => hstays (left_mem.mp hleft)
    rw [← offered_roundLog, ← begun_roundLog]
    exact hsince
  · have hafter := h.served_after (roundLog_split rfl hlog)
    rwa [served_roundLog] at hafter

/-- Where the sinks register before anything else, no cookie is on a list. -/
theorem notListed_first {dwGit : UInt32} {es : List TierEv} (hes : ∀ dwGit', .register dwGit' ∉ es) :
    Each tierStep NotListed .created (.register dwGit :: es) := by
  refine each_cons.mpr ⟨nofun, fun k e hk => ?_⟩
  have hin := List.mem_of_getElem? hk
  cases e with
  | register dwGit' => exact absurd hin (hes dwGit')
  | queue | fire | turn | advise | unadvise | revoke | readInside | readOutside => trivial

theorem skips_refused {s : ComTier} (h : TierInv s) (r : Registration) (e : TierEv) : SkipsRefused r s e := by
  intro hnot
  have hmove := tier_move s e
  generalize tierStep s e = s' at hmove ⊢
  have hnote {x : TierNote} (hx : x.skips r = []) : (s.log ++ [x]).flatMap (TierNote.skips r) = s.log.flatMap (TierNote.skips r) := by
    simp [hx]
  cases hmove with
  | stay | queue | left | gone | fetched | unpublished | ended | back | registered => rfl
  | nobody | published | plain | invoked | advised | erased | revoked | readInside | readOutside => exact hnote rfl
  | anonymous | replaced => simp [TierNote.skips]
  | abandoned p bGuid hq hpc =>
    have hout : r ∉ s.registered := fun hin => hnot (Or.inl ⟨⟨p, hq⟩, hpc, hin, bGuid, rfl⟩)
    simp [TierNote.skips, List.count_eq_zero.mpr hout]
  | unfetched p r₀ r' rest hpc hg =>
    obtain rfl := table_has h (by rw [hpc]; exact List.mem_cons_self) hg
    have hne : r' ≠ r := fun heq => hnot (Or.inr ⟨p, rest, heq ▸ hpc, rfl⟩)
    exact hnote (if_neg hne)

/-- Over every run in which the table hands out no cookie that Fire still has on its list. -/
theorem sinks_accounted (es : List TierEv) (hes : Each tierStep NotListed .created es) (r : Registration) :
    SinkAccount (exec tierStep .created es) r ∧ Each tierStep (SkipsRefused r) .created es := by
  have hinv : Always tierStep TierInv .created es := always_of_each tierInv_step tierInv_created hes
  exact ⟨sinkAccount_of_sound (tier_rounds hes).2 r, fun k e _ => skips_refused (hinv k) r e⟩

/-- A sink that is unadvised when it is about to be invoked. -/
def unadvisedRun : List TierEv :=
  [.register 256, .advise ⟨256, 0⟩, .queue (.push .created), .queue .wake, .queue .dispatch, .queue .dispatch, .fire true true,
    .turn true, .unadvise 1, .revoke ⟨256, 0⟩, .turn true, .turn true, .turn true]

theorem sinks_accounted_late : SinkAccount (exec tierStep .created unadvisedRun) ⟨256, 0⟩ ∧
    Each tierStep (SkipsRefused ⟨256, 0⟩) .created unadvisedRun :=
  sinks_accounted _ (notListed_first (by simp)) _

end TargetFacade
