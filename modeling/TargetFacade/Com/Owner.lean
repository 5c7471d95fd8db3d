/-
  TargetFacade.Com.Owner — the network a COM hub points to, and what is left when all is let go
  (ComNetwork.cpp: FinalRelease, ForgetHub; ComHub.cpp: Close's m_pOwner).

  `OwnerView` is the objects without their counts: a Release is the last one or not. `OwnerMove`
  lists what an activity can do to it, and `act_move` says that there is no more.

  - `refs_counted`: over any run each count is the references there are, and no step but those
    through m_pOwner is made on an object that was deleted.
  - `refs_released`: once clients have let go all they have and no thread can go on, every object
    is deleted.
  - `owner_kept_iff`: no ForgetHub goes through NULL or to a deleted network, and none is bound to,
    exactly if no Close clears m_pOwner while another is about to copy it, and the network is not
    deleted while a hub points to it or a Close has its address.
  - `closes_race` and `late_forget` are the two ways it is lost.
-/

import TargetFacade.Com.References

namespace TargetFacade

open Function (update)
open Runs Bag Counted

/-! ## The objects without their counts -/

structure OwnerView where
  acts : List Act
  hubs : List Nat
  bOwner : Nat → Bool
  lQuit : Nat → Bool
  gone : Obj → Bool
  faults : List RefFault

def ComRefs.view (s : ComRefs) : OwnerView := ⟨s.acts, s.hubs, s.bOwner, s.lQuit, fun o => (s.ref o).bGone, s.faults⟩

def Resume.acts : Resume → List Act
  | .done => []
  | .create => [.returning]
  | .sweep rest => [.sweeping rest]

namespace OwnerView

def puts (v : OwnerView) (l : List Act) : OwnerView := { v with acts := v.acts ++ l }

def closed (v : OwnerView) (h : Nat) : InClose → OwnerView
  | .client => v
  | .sweep rest => v.puts [.unlisting h rest]
  | .final after => { v with gone := update v.gone (.hub h) true }.puts after.acts

end OwnerView

/-- The Release of a hub was the last, or not. -/
def Ends (h : Nat) (after : Resume) (l : List Act) : Prop := l = [.close h (.final after) .entered] ∨ l = after.acts

/-- What an activity can do; the view is without it. -/
inductive OwnerMove (v : OwnerView) : Act → OwnerView → Prop where
  | noThread (h : Nat) (hnet : v.gone .net = false) :
    OwnerMove v (.initing h) ({ v with bOwner := update v.bOwner h true }.puts [.failed h])
  | refused (h : Nat) (hnet : v.gone .net = false) :
    OwnerMove v (.initing h)
      ({ v with bOwner := update v.bOwner h true, lQuit := update v.lQuit h true }.puts [.dispatch h, .failed h])
  | begun (h : Nat) (hnet : v.gone .net = false) :
    OwnerMove v (.initing h) ({ v with bOwner := update v.bOwner h true }.puts [.dispatch h, .inited h])
  /-- The network's FinalRelease is not under way. -/
  | listed (h : Nat) (hnet : v.gone .net = false) (hfinal : ∀ a ∈ v.acts, a.finals .net = 0) :
    OwnerMove v (.inited h) ({ v with hubs := v.hubs ++ [h] }.puts [.listed h])
  | asked (h : Nat) : OwnerMove v (.listed h) (v.puts [.given h])
  | given (h : Nat) (l : List Act) (hl : Ends h .create l) : OwnerMove v (.given h) (v.puts l)
  | unmade (h : Nat) (l : List Act) (hl : Ends h .create l) : OwnerMove v (.failed h) (v.puts l)
  | returned : OwnerMove v .returning v
  | waits (h : Nat) (hq : v.lQuit h = false) : OwnerMove v (.dispatch h) (v.puts [.dispatch h])
  | leaves (h : Nat) (l : List Act) (hl : Ends h .done l) : OwnerMove v (.dispatch h) (v.puts l)
  | entered (h : Nat) (who : InClose) :
    OwnerMove v (.close h who .entered) ({ v with lQuit := update v.lQuit h true }.puts [.close h who .testing])
  | tested (h : Nat) (who : InClose) (hb : v.bOwner h = true) :
    OwnerMove v (.close h who .testing) (v.puts [.close h who .copying])
  | unowned (h : Nat) (who : InClose) (hb : v.bOwner h = false) : OwnerMove v (.close h who .testing) (v.closed h who)
  | copied (h : Nat) (who : InClose) :
    OwnerMove v (.close h who .copying) (v.puts [.close h who (.clearing (v.bOwner h))])
  | cleared (h : Nat) (who : InClose) (pOwner : Bool) :
    OwnerMove v (.close h who (.clearing pOwner))
      ({ v with bOwner := update v.bOwner h false }.puts [.close h who (.forgetting pOwner)])
  | nullOwner (h : Nat) (who : InClose) :
    OwnerMove v (.close h who (.forgetting false)) ({ v with faults := v.faults ++ [RefFault.nullOwner h] }.closed h who)
  | goneOwner (h : Nat) (who : InClose) (hnet : v.gone .net = true) :
    OwnerMove v (.close h who (.forgetting true)) ({ v with faults := v.faults ++ [RefFault.goneOwner h] }.closed h who)
  | forgot (h : Nat) (who : InClose) (hnet : v.gone .net = false) (hm : h ∈ v.hubs) :
    OwnerMove v (.close h who (.forgetting true)) ({ v with hubs := v.hubs.erase h }.puts [.close h who .dropping])
  | missed (h : Nat) (who : InClose) (hnet : v.gone .net = false) :
    OwnerMove v (.close h who (.forgetting true)) (v.closed h who)
  /-- A hub in its FinalRelease is in no list. -/
  | dropped (h : Nat) (who : InClose) (l : List Act) (hwho : ∀ after, who ≠ .final after) (hl : Ends h .done l) :
    OwnerMove v (.close h who .dropping) ((v.puts l).closed h who)
  | swapped : OwnerMove v .finalizing ({ v with hubs := [] }.puts [.sweeping v.hubs])
  | netDeleted : OwnerMove v (.sweeping []) { v with gone := update v.gone .net true }
  | swept (h : Nat) (rest : List Nat) : OwnerMove v (.sweeping (h :: rest)) (v.puts [.close h (.sweep rest) .entered])
  | unlisted (h : Nat) (rest : List Nat) (l : List Act) (hl : Ends h .done l) :
    OwnerMove v (.unlisting h rest) ((v.puts l).puts [.unholding h rest])
  | unheld (h : Nat) (rest : List Nat) (l : List Act) (hl : Ends h (.sweep rest) l) :
    OwnerMove v (.unholding h rest) (v.puts l)

section View

variable {s : ComRefs} {hand fin : Obj → Nat}

theorem gone_update (ref : Obj → Count) (k : Obj) (c : Count) :
    (fun o => (update ref k c o).bGone) = update (fun o => (ref o).bGone) k c.bGone := by
  funext o
  by_cases ho : o = k
  · subst ho
    rw [Function.update_self, Function.update_self]
  · rw [Function.update_of_ne ho, Function.update_of_ne ho]

theorem view_update (s : ComRefs) (k : Obj) (c : Count) :
    ComRefs.view { s with ref := update s.ref k c } = { s.view with gone := update s.view.gone k c.bGone } :=
  congrArg (OwnerView.mk s.acts s.hubs s.bOwner s.lQuit · s.faults) (gone_update s.ref k c)

/-- A count that does not delete. -/
theorem view_ref (s : ComRefs) {k : Obj} {c : Count} (hc : c.bGone = (s.ref k).bGone) :
    ComRefs.view { s with ref := update s.ref k c } = s.view := by
  rw [view_update, hc]
  exact congrArg (OwnerView.mk s.acts s.hubs s.bOwner s.lQuit · s.faults) (Function.update_eq_self k s.view.gone)

theorem view_addRef (s : ComRefs) (k : Obj) : (s.addRef k).view = s.view := view_ref s rfl

theorem view_delete (s : ComRefs) (k : Obj) : (s.delete k).view = { s.view with gone := update s.view.gone k true } :=
  view_update s k _

theorem view_go (s : ComRefs) (after : Resume) : (after.go s).view = s.view.puts after.acts := by
  cases after with
  | done => exact congrArg (fun l => { s.view with acts := l }) (List.append_nil _).symm
  | create | sweep rest => rfl

theorem view_closed (s : ComRefs) (h : Nat) (who : InClose) : (s.closed h who).view = s.view.closed h who := by
  cases who with
  | client | sweep rest => rfl
  | final after =>
    unfold ComRefs.closed
    simp only
    rw [view_go, view_delete]
    rfl

/-- Someone has the reference that is released. -/
theorem view_release (hs : s.Counts hand fin) {h : Nat} (hh : 0 < hand (.hub h)) (after : Resume) :
    ∃ l, Ends h after l ∧ (s.release (.hub h) after).view = s.view.puts l := by
  have hcount : (s.ref (.hub h)).cRef ≠ 0 := by
    rw [(hs.counted (.hub h)).counted]
    omega
  have hdown : ComRefs.view { s with ref := update s.ref (.hub h) (s.ref (.hub h)).release } = s.view := view_ref s rfl
  unfold ComRefs.release
  simp only [if_neg hcount]
  split
  · refine ⟨_, Or.inl rfl, ?_⟩
    exact congrArg (OwnerView.puts · _) hdown
  · refine ⟨_, Or.inr rfl, ?_⟩
    rw [view_go]
    exact congrArg (OwnerView.puts · _) hdown

theorem net_there (hs : s.Counts hand fin) (h : 0 < hand .net + fin .net) : s.view.gone .net = false := by
  refine (hs.counted .net).there ?_
  omega

/-- While someone has a reference to the network, its FinalRelease is not under way. -/
theorem net_not_final (hs : s.Counts hand fin) (h : 0 < hand .net) : ∀ a ∈ s.view.acts, a.finals .net = 0 := by
  intro a ha
  have hfin := ((hs.counted .net).live (by omega)).1
  have hle : a.finals .net ≤ weigh (Act.finals .net) s.acts := weigh_pos ha
  omega

theorem close_move {h : Nat} {who : InClose} {pc : OwnerPc}
    (hs : s.Counts ((Act.close h who pc).holds ·) ((Act.close h who pc).finals ·)) :
    OwnerMove s.view (.close h who pc) (closeStep h who pc s).view := by
  cases pc with
  | entered => exact .entered h who
  | testing =>
    unfold closeStep
    simp only
    split
    · exact .tested h who ‹_›
    · rename_i hb
      rw [view_closed]
      exact .unowned h who (Bool.not_eq_true _ ▸ hb)
  | copying => exact .copied h who
  | clearing pOwner => exact .cleared h who pOwner
  | forgetting pOwner =>
    cases pOwner with
    | false =>
      unfold closeStep
      simp only
      rw [view_closed]
      exact .nullOwner h who
    | true =>
      unfold closeStep
      simp only
      split
      · rw [view_closed]
        exact .goneOwner h who ‹_›
      rename_i hnet
      have hnet : s.view.gone .net = false := Bool.not_eq_true _ ▸ hnet
      split
      · exact .forgot h who hnet ‹_›
      · rw [view_closed]
        exact .missed h who hnet
  | dropping =>
    have hdef (o : Obj) : (Act.close h who .dropping).holds o = who.holds h o + one (.hub h) o := rfl
    have hone : one (Obj.hub h) (.hub h) = 1 := one_self _
    obtain ⟨l, hl, hview⟩ := view_release hs (h := h) (by rw [hdef]; omega) .done
    unfold closeStep
    simp only
    rw [view_closed, hview]
    refine .dropped h who l (fun after hfinal => ?_) hl
    subst hfinal
    -- it has a reference of the hub, which nobody has in FinalRelease
    have hfin : (Act.close h (.final after) .dropping).finals (.hub h) = one (Obj.hub h) (.hub h) + after.finals (.hub h) := rfl
    have halone := (hs.counted (.hub h)).alone (by omega)
    have hheld := hdef (.hub h)
    omega

theorem init_move (init : InitEnd) {h : Nat} (hs : s.Counts ((Act.initing h).holds ·) ((Act.initing h).finals ·)) :
    OwnerMove s.view (.initing h) (Init h init s).view := by
  have hnet : s.view.gone .net = false := by
    refine net_there hs ?_
    have hone : one Obj.net .net = 1 := one_self _
    simp only [Act.holds]
    omega
  -- the dispatch thread's reference
  have hadd (v : ComRefs) : ((v.addRef (.hub h)).put (.dispatch h)).view = v.view.puts [.dispatch h] :=
    congrArg (OwnerView.puts · [.dispatch h]) (view_addRef v (.hub h))
  cases init with
  | noThread => exact .noThread h hnet
  | refused =>
    have hview : (Init h .refused s).view =
        { s.view with bOwner := update s.bOwner h true, lQuit := update s.lQuit h true }.puts [.dispatch h, .failed h] := by
      show OwnerView.puts { (ComRefs.put (ComRefs.addRef { s with bOwner := update s.bOwner h true } (.hub h)) (.dispatch h)).view with
        lQuit := update s.lQuit h true } [.failed h] = _
      rw [hadd]
      exact congrArg (fun l => OwnerView.mk l s.hubs _ _ _ _) (List.append_assoc _ [Act.dispatch h] [Act.failed h])
    rw [hview]
    exact .refused h hnet
  | ok =>
    have hview : (Init h .ok s).view = { s.view with bOwner := update s.bOwner h true }.puts [.dispatch h, .inited h] := by
      show OwnerView.puts (ComRefs.put (ComRefs.addRef { s with bOwner := update s.bOwner h true } (.hub h)) (.dispatch h)).view
        [.inited h] = _
      rw [hadd]
      exact congrArg (fun l => OwnerView.mk l s.hubs _ _ _ _) (List.append_assoc _ [Act.dispatch h] [Act.inited h])
    rw [hview]
    exact .begun h hnet

/-- An activity does to the view one of the moves. -/
theorem act_move (init : InitEnd) {a : Act} (hs : s.Counts (a.holds ·) (a.finals ·)) : OwnerMove s.view a (actStep init s a).view := by
  have hone (k : Obj) : one k k = 1 := one_self k
  cases a with
  | initing h => exact init_move init hs
  | inited h =>
    have hpos : 0 < (Act.inited h).holds .net := by
      simp only [Act.holds, hone]
      omega
    have hview : (actStep init s (.inited h)).view = { s.view with hubs := s.hubs ++ [h] }.puts [.listed h] := by
      show OwnerView.puts { (s.addRef (.hub h)).view with hubs := s.hubs ++ [h] } [.listed h] = _
      rw [view_addRef]
    rw [hview]
    exact .listed h (net_there hs (by omega)) (net_not_final hs hpos)
  | listed h =>
    have hview : (actStep init s (.listed h)).view = s.view.puts [.given h] := congrArg (OwnerView.puts · _) (view_addRef s (.hub h))
    rw [hview]
    exact .asked h
  | given h =>
    have hgive : (s.give (.hub h)).Counts (fun o => one (.hub h) o + one .net o) fun _ => 0 := by
      refine counts_give hs fun o => ?_
      show one (.hub h) o + one .net o + one (.hub h) o = 2 * one (.hub h) o + one .net o
      omega
    obtain ⟨l, hl, hview⟩ := view_release hgive (one_pos _ _) .create
    have hview : (actStep init s (.given h)).view = s.view.puts l := hview
    rw [hview]
    exact .given h l hl
  | failed h =>
    obtain ⟨l, hl, hview⟩ := view_release hs (one_pos _ _) .create
    have hview : (actStep init s (.failed h)).view = s.view.puts l := hview
    rw [hview]
    exact .unmade h l hl
  | returning => exact .returned
  | dispatch h =>
    unfold actStep
    simp only
    split
    · obtain ⟨l, hl, hview⟩ := view_release hs (h := h) (by simp only [Act.holds, hone]; omega) .done
      rw [hview]
      exact .leaves h l hl
    · rename_i hq
      exact .waits h (Bool.not_eq_true _ ▸ hq)
  | close h who pc => exact close_move hs
  | finalizing => exact .swapped
  | sweeping rest =>
    cases rest with
    | nil =>
      have hview : (actStep init s (.sweeping [])).view = _ := view_delete s .net
      rw [hview]
      exact .netDeleted
    | cons h rest =>
      have hview : (actStep init s (.sweeping (h :: rest))).view = s.view.puts [.close h (.sweep rest) .entered] :=
        congrArg (OwnerView.puts · _) (view_addRef s (.hub h))
      rw [hview]
      exact .swept h rest
  | unlisting h rest =>
    obtain ⟨l, hl, hview⟩ := view_release hs (h := h) (by simp only [Act.holds, hone]; omega) .done
    have hview : (actStep init s (.unlisting h rest)).view = (s.view.puts l).puts [.unholding h rest] :=
      congrArg (OwnerView.puts · _) hview
    rw [hview]
    exact .unlisted h rest l hl
  | unholding h rest =>
    obtain ⟨l, hl, hview⟩ := view_release hs (one_pos _ _) (.sweep rest)
    have hview : (actStep init s (.unholding h rest)).view = s.view.puts l := hview
    rw [hview]
    exact .unheld h rest l hl

end View

/-- What a step does to the view. -/
inductive OwnerStep (v : OwnerView) : RefEv → OwnerView → Prop where
  | stay (e : RefEv) (he : ∀ a init, e = .act a init → a ∉ v.acts) : OwnerStep v e v
  /-- A client's last Release. -/
  | last (o : Obj) : OwnerStep v (.release o) (v.puts [o.finalAct .done])
  | create (h : Nat) (hnet : v.gone .net = false) (hnew : ∀ a ∈ v.acts, a.holds (.hub h) = 0 ∧ a.finals (.hub h) = 0) :
    OwnerStep v (.create h)
      ({ v with
        bOwner := update v.bOwner h false
        lQuit := update v.lQuit h false
        gone := update v.gone (.hub h) false }.puts [.initing h])
  | close (h : Nat) : OwnerStep v (.close h) (v.puts [.close h .client .entered])
  | act (a : Act) (init : InitEnd) (v' : OwnerView) (ha : a ∈ v.acts) (hon : ∀ o ∈ a.on, v.gone o = false)
    (h : OwnerMove { v with acts := v.acts.erase a } a v') : OwnerStep v (.act a init) v'

theorem owner_step {s : ComRefs} (e : RefEv) (hs : s.Counts (fun _ => 0) fun _ => 0) : OwnerStep s.view e (refStep s e).view := by
  have htouch {o : Obj} (ho : 0 < s.clients o) : s.touch [o] = s :=
    touch_there fun k hk => by
      rw [List.mem_singleton.mp hk]
      exact there_of_client hs ho
  cases e with
  | addRef o =>
    unfold refStep
    simp only
    split
    case isFalse => exact .stay _ nofun
    rename_i ho
    rw [htouch ho]
    have hview : ((s.addRef o).give o).view = s.view := view_addRef s o
    rw [hview]
    exact .stay _ nofun
  | release o =>
    unfold refStep
    simp only
    split
    case isFalse => exact .stay _ nofun
    rename_i ho
    rw [htouch ho]
    have htake : (s.take o).Counts (one o ·) fun _ => 0 := counts_take hs ho fun k => (Nat.zero_add _).symm
    have hcount : ((s.take o).ref o).cRef ≠ 0 := by
      have hone : one o o = 1 := one_self o
      rw [(htake.counted o).counted]
      omega
    have hdown : ComRefs.view { s.take o with ref := update s.ref o (s.ref o).release } = s.view := view_ref s rfl
    unfold ComRefs.release
    simp only [if_neg hcount]
    split
    · have hview : (ComRefs.put { s.take o with ref := update s.ref o (s.ref o).release } (o.finalAct .done)).view =
          s.view.puts [o.finalAct .done] := congrArg (OwnerView.puts · _) hdown
      exact hview ▸ .last o
    · exact hdown ▸ .stay _ nofun
  | create h =>
    unfold refStep
    simp only
    split
    case isFalse => exact .stay _ nofun
    rename_i hnet
    rw [htouch hnet.1]
    have hunheld := (hs.counted (.hub h)).unheld hnet.2
    show OwnerStep s.view (.create h) ⟨s.acts ++ [.initing h], s.hubs, update s.bOwner h false, update s.lQuit h false,
      fun o => (update s.ref (.hub h) .made o).bGone, s.faults⟩
    rw [gone_update]
    refine .create h (there_of_client hs hnet.1) fun a ha => ?_
    have hh : a.holds (.hub h) ≤ weigh (Act.holds (.hub h)) s.acts := weigh_pos ha
    have hf : a.finals (.hub h) ≤ weigh (Act.finals (.hub h)) s.acts := weigh_pos ha
    omega
  | close h =>
    unfold refStep
    simp only
    split
    case isFalse => exact .stay _ nofun
    rename_i ho
    rw [htouch ho]
    exact .close h
  | act a init =>
    unfold refStep
    simp only
    split
    case isFalse =>
      rename_i ha
      refine .stay _ fun a' init' he => ?_
      cases he
      exact ha
    rename_i ha
    have hthere : ∀ o ∈ a.on, (s.ref o).bGone = false := fun o ho => act_there hs ha ho
    rw [touch_there hthere]
    have hout : ComRefs.Counts { s with acts := s.acts.erase a } (a.holds ·) (a.finals ·) :=
      ⟨inHand_take hs.counted ha, hs.faults, hs.net⟩
    exact .act a init _ ha hthere (act_move init hout)

/-! ## All is let go -/

def Resume.rest : Resume → List Nat
  | .done | .create => []
  | .sweep rest => rest

def InClose.rest : InClose → List Nat
  | .client => []
  | .sweep rest => rest
  | .final after => after.rest

/-- The hubs that it will list or close. -/
def Act.minded : Act → List Nat
  | .inited h => [h]
  | .close h who pc => (if pc = .entered then [h] else []) ++ who.rest
  | .sweeping rest | .unlisting _ rest | .unholding _ rest => rest
  | .initing _ | .listed _ | .given _ | .failed _ | .returning | .dispatch _ | .finalizing => []

/-- The network's FinalRelease, once it has the hubs. -/
def Act.swept : Act → Bool
  | .sweeping _ | .unlisting _ _ | .unholding _ _ | .close _ (.sweep _) _ | .close _ (.final (.sweep _)) _ => true
  | _ => false

/-- A dispatch thread that was not told to leave is that of a hub someone will close, and m_hubs is empty once it was taken. -/
structure Minded (v : OwnerView) : Prop where
  past : ∀ h who pc, .close h who pc ∈ v.acts → pc ≠ .entered → v.lQuit h = true
  minds : ∀ h, .dispatch h ∈ v.acts → v.lQuit h = true ∨ h ∈ v.hubs ∨ ∃ a ∈ v.acts, h ∈ a.minded
  swept : v.gone .net = true ∨ (∃ a ∈ v.acts, a.swept = true) → v.hubs = []

def InClose.acts (h : Nat) : InClose → List Act
  | .client => []
  | .sweep rest => [.unlisting h rest]
  | .final after => after.acts

theorem closed_same (v : OwnerView) (h : Nat) (who : InClose) :
    (v.closed h who).acts = v.acts ++ who.acts h ∧ (v.closed h who).hubs = v.hubs ∧ (v.closed h who).bOwner = v.bOwner ∧
      (v.closed h who).lQuit = v.lQuit ∧ (v.closed h who).gone .net = v.gone .net ∧ (v.closed h who).faults = v.faults := by
  cases who with
  | client => exact ⟨(List.append_nil _).symm, rfl, rfl, rfl, rfl, rfl⟩
  | sweep rest => exact ⟨rfl, rfl, rfl, rfl, rfl, rfl⟩
  | final after =>
    have hne : Obj.net ≠ .hub h := by simp
    exact ⟨rfl, rfl, rfl, rfl, Function.update_of_ne hne true v.gone, rfl⟩

/-- What one activity makes of those it minds. -/
structure News (v v' : OwnerView) (a : Act) (l : List Act) : Prop where
  acts : v'.acts = v.acts ++ l
  quit : ∀ h, v.lQuit h = true → v'.lQuit h = true
  past : ∀ h who pc, .close h who pc ∈ l → pc ≠ .entered → v'.lQuit h = true ∨ ∃ who' pc', a = .close h who' pc' ∧ pc' ≠ .entered
  hubs : ∀ h ∈ v.hubs, h ∈ v'.hubs ∨ (∃ x ∈ l, h ∈ x.minded) ∨ ∃ who pc, a = .close h who pc ∧ pc ≠ .entered
  minds : ∀ h ∈ a.minded, v'.lQuit h = true ∨ h ∈ v'.hubs ∨ ∃ x ∈ l, h ∈ x.minded
  dispatch : ∀ h, .dispatch h ∈ l → a = .dispatch h ∨ v'.lQuit h = true ∨ ∃ x ∈ l, h ∈ x.minded
  swept : v'.gone .net = true ∨ (∃ x ∈ v'.acts, x.swept = true) →
    v'.hubs = [] ∨ (v.hubs = [] → v'.hubs = []) ∧ (v.gone .net = true ∨ (∃ x ∈ v.acts, x.swept = true) ∨ a.swept = true)

theorem ends_minded {h : Nat} {after : Resume} {l : List Act} (hl : Ends h after l) :
    (∀ k ∈ after.rest, ∃ x ∈ l, k ∈ x.minded) ∧ (∀ k who pc, .close k who pc ∈ l → pc = .entered) ∧
      (∀ k, .dispatch k ∉ l) ∧ ((∃ x ∈ l, x.swept = true) → ∃ rest, after = .sweep rest) := by
  rcases hl with rfl | rfl
  · refine ⟨fun k hk => ⟨_, List.mem_singleton.mpr rfl, List.mem_append_right _ hk⟩, fun k who pc hm => ?_, fun k hm => ?_, ?_⟩
    · cases List.mem_singleton.mp hm
      rfl
    · cases List.mem_singleton.mp hm
    · rintro ⟨x, hx, hs⟩
      rw [List.mem_singleton.mp hx] at hs
      cases after with
      | done | create => cases hs
      | sweep rest => exact ⟨rest, rfl⟩
  · cases after with
    | done =>
      refine ⟨nofun, nofun, nofun, ?_⟩
      rintro ⟨x, hx, -⟩
      cases hx
    | create =>
      refine ⟨nofun, fun k who pc hm => ?_, fun k hm => ?_, ?_⟩
      · cases List.mem_singleton.mp hm
      · cases List.mem_singleton.mp hm
      · rintro ⟨x, hx, hs⟩
        rw [List.mem_singleton.mp hx] at hs
        cases hs
    | sweep rest =>
      refine ⟨fun k hk => ⟨_, List.mem_singleton.mpr rfl, hk⟩, fun k who pc hm => ?_, fun k hm => ?_, fun _ => ⟨rest, rfl⟩⟩
      · cases List.mem_singleton.mp hm
      · cases List.mem_singleton.mp hm

theorem minded_news {v v' : OwnerView} {a : Act} {l : List Act} (h : Minded v) (ha : a ∈ v.acts)
    (hnews : News { v with acts := v.acts.erase a } v' a l) : Minded v' := by
  have hmem {x : Act} (hx : x ∈ v'.acts) : x ∈ v.acts ∨ x ∈ l := by
    rw [hnews.acts] at hx
    exact (List.mem_append.mp hx).imp_left List.mem_of_mem_erase
  have hkeep {x : Act} (hx : x ∈ v.acts) : x = a ∨ x ∈ v'.acts := by
    rw [hnews.acts]
    by_cases hxa : x = a
    · exact Or.inl hxa
    · exact Or.inr (List.mem_append_left _ ((List.mem_erase_of_ne hxa).mpr hx))
  have hnew {h : Nat} (hx : ∃ x ∈ l, h ∈ x.minded) : ∃ x ∈ v'.acts, h ∈ x.minded := by
    obtain ⟨x, hx, hm⟩ := hx
    refine ⟨x, ?_, hm⟩
    rw [hnews.acts]
    exact List.mem_append_right _ hx
  have hquit {k : Nat} {who : InClose} {pc : OwnerPc} (he : a = .close k who pc) (hpc : pc ≠ .entered) : v'.lQuit k = true :=
    hnews.quit k (h.past k who pc (he ▸ ha) hpc)
  refine ⟨fun k who pc hin hpc => ?_, fun k hin => ?_, fun hout => ?_⟩
  · rcases hmem hin with hin | hin
    · exact hnews.quit k (h.past k who pc hin hpc)
    · rcases hnews.past k who pc hin hpc with hq | ⟨who', pc', he, hpc'⟩
      · exact hq
      · exact hquit he hpc'
  · have hold (hd : .dispatch k ∈ v.acts) : v'.lQuit k = true ∨ k ∈ v'.hubs ∨ ∃ x ∈ v'.acts, k ∈ x.minded := by
      rcases h.minds k hd with hq | hin | ⟨x, hx, hm⟩
      · exact Or.inl (hnews.quit k hq)
      · rcases hnews.hubs k hin with hin | hx | ⟨who, pc, he, hpc⟩
        · exact Or.inr (Or.inl hin)
        · exact Or.inr (Or.inr (hnew hx))
        · exact Or.inl (hquit he hpc)
      · rcases hkeep hx with rfl | hx
        · exact (hnews.minds k hm).imp_right fun hor => hor.imp_right hnew
        · exact Or.inr (Or.inr ⟨x, hx, hm⟩)
    rcases hmem hin with hin | hin
    · exact hold hin
    · rcases hnews.dispatch k hin with he | hq | hx
      · exact hold (he ▸ ha)
      · exact Or.inl hq
      · exact Or.inr (Or.inr (hnew hx))
  · rcases hnews.swept hout with he | ⟨hempty, hor⟩
    · exact he
    refine hempty (h.swept ?_)
    rcases hor with hnet | ⟨x, hx, hs⟩ | hs
    · exact Or.inl hnet
    · exact Or.inr ⟨x, List.mem_of_mem_erase hx, hs⟩
    · exact Or.inr ⟨a, ha, hs⟩

/-- Where m_hubs and the network are what they were. -/
theorem swept_same {v v' : OwnerView} {a : Act} {l : List Act} (hacts : v'.acts = v.acts ++ l) (hhubs : v'.hubs = v.hubs)
    (hnet : v'.gone .net = v.gone .net) (hl : (∃ x ∈ l, x.swept = true) → a.swept = true) :
    v'.gone .net = true ∨ (∃ x ∈ v'.acts, x.swept = true) →
      v'.hubs = [] ∨ (v.hubs = [] → v'.hubs = []) ∧ (v.gone .net = true ∨ (∃ x ∈ v.acts, x.swept = true) ∨ a.swept = true) := by
  rw [hacts, hhubs, hnet]
  rintro (hg | ⟨x, hx, hs⟩)
  · exact Or.inr ⟨id, Or.inl hg⟩
  · rcases List.mem_append.mp hx with hx | hx
    · exact Or.inr ⟨id, Or.inr (Or.inl ⟨x, hx, hs⟩)⟩
    · exact Or.inr ⟨id, Or.inr (Or.inr (hl ⟨x, hx, hs⟩))⟩

theorem closing_acts (h : Nat) (who : InClose) : (∀ k ∈ who.rest, ∃ x ∈ who.acts h, k ∈ x.minded) ∧
    (∀ k who' pc, .close k who' pc ∉ who.acts h) ∧ (∀ k, .dispatch k ∉ who.acts h) ∧
    ∀ pc, (∃ x ∈ who.acts h, x.swept = true) → (Act.close h who pc).swept = true := by
  cases who with
  | client =>
    refine ⟨nofun, nofun, nofun, ?_⟩
    rintro pc ⟨x, hx, -⟩
    cases hx
  | sweep rest =>
    refine ⟨fun k hk => ⟨_, List.mem_singleton.mpr rfl, hk⟩, fun k who' pc hm => ?_, fun k hm => ?_, fun _ _ => rfl⟩
    · cases List.mem_singleton.mp hm
    · cases List.mem_singleton.mp hm
  | final after =>
    cases after with
    | done =>
      refine ⟨nofun, nofun, nofun, ?_⟩
      rintro pc ⟨x, hx, -⟩
      cases hx
    | create =>
      refine ⟨nofun, fun k who' pc hm => ?_, fun k hm => ?_, ?_⟩
      · cases List.mem_singleton.mp hm
      · cases List.mem_singleton.mp hm
      · rintro pc ⟨x, hx, hs⟩
        rw [List.mem_singleton.mp hx] at hs
        cases hs
    | sweep rest =>
      refine ⟨fun k hk => ⟨_, List.mem_singleton.mpr rfl, hk⟩, fun k who' pc hm => ?_, fun k hm => ?_, fun _ _ => rfl⟩
      · cases List.mem_singleton.mp hm
      · cases List.mem_singleton.mp hm

/-- An activity that goes on as one other. -/
theorem news_one {v v' : OwnerView} {a b : Act} (hacts : v'.acts = v.acts ++ [b]) (hhubs : v'.hubs = v.hubs)
    (hnet : v'.gone .net = v.gone .net) (hquit : ∀ h, v.lQuit h = true → v'.lQuit h = true)
    (hpast : ∀ h who pc, b = .close h who pc → pc ≠ .entered → v'.lQuit h = true ∨ ∃ who' pc', a = .close h who' pc' ∧ pc' ≠ .entered)
    (hminds : ∀ h ∈ a.minded, v'.lQuit h = true ∨ h ∈ b.minded) (hdispatch : ∀ h, b = .dispatch h → a = .dispatch h)
    (hswept : b.swept = true → a.swept = true) : News v v' a [b] := by
  refine ⟨hacts, hquit, fun h who pc hm => hpast h who pc (List.mem_singleton.mp hm).symm, fun h hin => Or.inl (hhubs ▸ hin),
    fun h hm => ?_, fun h hm => Or.inl (hdispatch h (List.mem_singleton.mp hm).symm), swept_same hacts hhubs hnet ?_⟩
  · rcases hminds h hm with hq | hb
    · exact Or.inl hq
    · exact Or.inr (Or.inr ⟨b, List.mem_singleton.mpr rfl, hb⟩)
  · rintro ⟨x, hx, hs⟩
    rw [List.mem_singleton.mp hx] at hs
    exact hswept hs

/-- A Release that may be the last. -/
theorem news_ends {v : OwnerView} {a : Act} {h : Nat} {after : Resume} {l : List Act} (hl : Ends h after l)
    (hminds : a.minded = after.rest) (hswept : ∀ rest, after = .sweep rest → a.swept = true) : News v (v.puts l) a l := by
  obtain ⟨hrest, hpast, hdispatch, hsweep⟩ := ends_minded hl
  refine ⟨rfl, fun _ hq => hq, fun k who pc hm hpc => absurd (hpast k who pc hm) hpc, fun k hk => Or.inl hk, fun k hk => ?_,
    fun k hm => absurd hm (hdispatch k), swept_same rfl rfl rfl fun hs => ?_⟩
  · rw [hminds] at hk
    exact Or.inr (Or.inr (hrest k hk))
  · obtain ⟨rest, he⟩ := hsweep hs
    exact hswept rest he

/-- A Close that returns. -/
theorem news_closed {v w : OwnerView} {h : Nat} {who : InClose} {pc : OwnerPc} (hpc : pc ≠ .entered) (hacts : w.acts = v.acts)
    (hhubs : w.hubs = v.hubs) (hnet : w.gone .net = v.gone .net) (hquit : w.lQuit = v.lQuit) :
    News v (w.closed h who) (.close h who pc) (who.acts h) := by
  obtain ⟨hca, hch, -, hcq, hcn, -⟩ := closed_same w h who
  obtain ⟨hrest, hnone, hdispatch, hswept⟩ := closing_acts h who
  rw [hacts] at hca
  refine ⟨hca, fun k hq => ?_, fun k who' pc' hm => absurd hm (hnone k who' pc'), fun k hk => Or.inl ?_, fun k hk => ?_,
    fun k hm => absurd hm (hdispatch k), swept_same hca (hch.trans hhubs) (hcn.trans hnet) (hswept pc)⟩
  · rw [hcq, hquit]
    exact hq
  · rw [hch, hhubs]
    exact hk
  · have hk : k ∈ (if pc = .entered then [h] else []) ++ who.rest := hk
    rw [if_neg hpc, List.nil_append] at hk
    exact Or.inr (Or.inr (hrest k hk))

theorem close_swept {h : Nat} {who : InClose} {pc pc' : OwnerPc} (hs : (Act.close h who pc).swept = true) :
    (Act.close h who pc').swept = true := by
  cases who with
  | client => cases hs
  | sweep rest => rfl
  | final after =>
    cases after with
    | done | create => cases hs
    | sweep rest => rfl

theorem swept_final {a : Act} (hs : a.swept = true) : 0 < a.finals .net := by
  have hone : one Obj.net .net = 1 := one_self _
  cases a with
  | initing | inited | listed | given | failed | returning | dispatch | finalizing => cases hs
  | sweeping | unlisting | unholding => exact Nat.le_of_eq hone.symm
  | close h who pc =>
    cases who with
    | client => cases hs
    | sweep rest => exact Nat.le_of_eq hone.symm
    | final after =>
      cases after with
      | done | create => cases hs
      | sweep rest =>
        show 0 < one (Obj.hub h) .net + one Obj.net .net
        omega

theorem set_quit {lQuit : Nat → Bool} {h k : Nat} (hq : lQuit k = true) : update lQuit h true k = true := by
  by_cases hk : k = h
  · rw [hk, Function.update_self]
  · rw [Function.update_of_ne hk]
    exact hq

/-- Past its first step a Close minds only what comes after it. -/
theorem minded_past {h k : Nat} {who : InClose} (pc : OwnerPc) {pc' : OwnerPc} (hpc : pc ≠ .entered)
    (hk : k ∈ (Act.close h who pc).minded) : k ∈ (Act.close h who pc').minded := by
  have hk : k ∈ (if pc = .entered then [h] else []) ++ who.rest := hk
  rw [if_neg hpc, List.nil_append] at hk
  exact List.mem_append_right _ hk

/-- A Close past its first step goes on to another. -/
theorem news_close {v v' : OwnerView} {h : Nat} {who : InClose} {pc pc' : OwnerPc} (hpc : pc ≠ .entered)
    (hacts : v'.acts = v.acts ++ [.close h who pc']) (hhubs : v'.hubs = v.hubs) (hnet : v'.gone .net = v.gone .net)
    (hquit : v'.lQuit = v.lQuit) : News v v' (.close h who pc) [.close h who pc'] := by
  refine news_one hacts hhubs hnet (fun k hq => hquit ▸ hq) (fun k who' pc'' hb _ => ?_)
    (fun k hk => Or.inr (minded_past pc hpc hk)) nofun close_swept
  cases hb
  exact Or.inr ⟨who, pc, rfl, hpc⟩

/-- A hub is made: its dispatch thread has been told to leave, or its Init is not over. -/
theorem news_made {v v' : OwnerView} {h : Nat} {b : Act} (hacts : v'.acts = v.acts ++ [.dispatch h, b])
    (hhubs : v'.hubs = v.hubs) (hnet : v'.gone .net = v.gone .net) (hquit : ∀ k, v.lQuit k = true → v'.lQuit k = true)
    (hb : b = .failed h ∧ v'.lQuit h = true ∨ b = .inited h) : News v v' (.initing h) [.dispatch h, b] := by
  have hother : (∀ k who pc, b ≠ .close k who pc) ∧ (∀ k, b ≠ .dispatch k) ∧ b.swept = false := by
    rcases hb with ⟨rfl, -⟩ | rfl <;> exact ⟨nofun, nofun, rfl⟩
  obtain ⟨hclose, hdispatch, hswept⟩ := hother
  refine ⟨hacts, hquit, fun k who pc hm => ?_, fun k hk => Or.inl (hhubs ▸ hk), nofun, fun k hm => ?_,
    swept_same hacts hhubs hnet ?_⟩
  · rcases List.mem_pair.mp hm with hm | hm
    · cases hm
    · exact absurd hm.symm (hclose k who pc)
  · rcases List.mem_pair.mp hm with hm | hm
    · cases hm
      rcases hb with ⟨-, hq⟩ | rfl
      · exact Or.inr (Or.inl hq)
      · exact Or.inr (Or.inr ⟨.inited h, List.mem_pair.mpr (Or.inr rfl), List.mem_singleton.mpr rfl⟩)
    · exact absurd hm.symm (hdispatch k)
  · rintro ⟨x, hx, hs⟩
    rcases List.mem_pair.mp hx with rfl | rfl
    · cases hs
    · rw [hswept] at hs
      cases hs

/-- A hub comes into m_hubs: the network is there, and nobody sweeps. -/
theorem news_listed {v : OwnerView} (h : Nat) (hnet : v.gone .net = false) (hfinal : ∀ a ∈ v.acts, a.finals .net = 0) :
    News v ({ v with hubs := v.hubs ++ [h] }.puts [.listed h]) (.inited h) [.listed h] := by
  refine ⟨rfl, fun k hq => hq, fun k who pc hm => ?_, fun k hk => Or.inl (List.mem_append_left _ hk), fun k hk => ?_,
    fun k hm => ?_, ?_⟩
  · cases List.mem_singleton.mp hm
  · exact Or.inr (Or.inl (List.mem_append_right _ hk))
  · cases List.mem_singleton.mp hm
  · rintro (hg | ⟨x, hx, hs⟩)
    · exact absurd (hnet.symm.trans hg) Bool.false_ne_true
    · exfalso
      rcases List.mem_append.mp hx with hx | hx
      · have hzero := hfinal x hx
        have hpos := swept_final hs
        omega
      · rw [List.mem_singleton.mp hx] at hs
        cases hs

/-- A hub leaves m_hubs, and is being closed. -/
theorem news_forgot (v : OwnerView) (h : Nat) (who : InClose) :
    News v ({ v with hubs := v.hubs.erase h }.puts [.close h who .dropping]) (.close h who (.forgetting true))
      [.close h who .dropping] := by
  refine ⟨rfl, fun _ hq => hq, fun k who' pc hb _ => ?_, fun k hk => ?_, fun k hk => ?_, fun k hb => ?_, ?_⟩
  · cases List.mem_singleton.mp hb
    exact Or.inr ⟨who, _, rfl, nofun⟩
  · by_cases hkh : k = h
    · rw [hkh]
      exact Or.inr (Or.inr ⟨who, _, rfl, nofun⟩)
    · exact Or.inl ((List.mem_erase_of_ne hkh).mpr hk)
  · exact Or.inr (Or.inr ⟨_, List.mem_singleton.mpr rfl, minded_past (.forgetting true) nofun hk⟩)
  · cases List.mem_singleton.mp hb
  · have hnil (hnil : v.hubs = []) : v.hubs.erase h = [] := by rw [hnil]; rfl
    rintro (hg | ⟨x, hx, hs⟩)
    · exact Or.inr ⟨hnil, Or.inl hg⟩
    · refine Or.inr ⟨hnil, Or.inr ?_⟩
      rcases List.mem_append.mp hx with hx | hx
      · exact Or.inl ⟨x, hx, hs⟩
      · rw [List.mem_singleton.mp hx] at hs
        exact Or.inr (close_swept hs)

/-- A Release that may be the last, and then the Close returns. -/
theorem news_dropped {v : OwnerView} {h : Nat} (who : InClose) {l : List Act} (hl : Ends h .done l) :
    News v ((v.puts l).closed h who) (.close h who .dropping) (l ++ who.acts h) := by
  obtain ⟨-, hlpast, hldispatch, hlswept⟩ := ends_minded hl
  obtain ⟨hca, hch, -, hcq, hcn, -⟩ := closed_same (v.puts l) h who
  obtain ⟨hcrest, hcnone, hcdispatch, hcswept⟩ := closing_acts h who
  have hacts : ((v.puts l).closed h who).acts = v.acts ++ (l ++ who.acts h) := hca.trans (List.append_assoc ..)
  refine ⟨hacts, fun k hq => hcq ▸ hq, fun k who' pc hb hpc => ?_, fun k hk => Or.inl (hch ▸ hk), fun k hk => ?_,
    fun k hb => ?_, swept_same hacts hch hcn ?_⟩
  · rcases List.mem_append.mp hb with hb | hb
    · exact absurd (hlpast k who' pc hb) hpc
    · exact absurd hb (hcnone k who' pc)
  · obtain ⟨x, hx, hm⟩ := hcrest k hk
    exact Or.inr (Or.inr ⟨x, List.mem_append_right _ hx, hm⟩)
  · rcases List.mem_append.mp hb with hb | hb
    · exact absurd hb (hldispatch k)
    · exact absurd hb (hcdispatch k)
  · rintro ⟨x, hx, hs⟩
    rcases List.mem_append.mp hx with hx | hx
    · obtain ⟨rest, he⟩ := hlswept ⟨x, hx, hs⟩
      cases he
    · exact hcswept _ ⟨x, hx, hs⟩

/-- A Release that may be the last, and the sweep goes on. -/
theorem news_unlisted {v : OwnerView} {h : Nat} (rest : List Nat) {l : List Act} (hl : Ends h .done l) :
    News v ((v.puts l).puts [.unholding h rest]) (.unlisting h rest) (l ++ [.unholding h rest]) := by
  obtain ⟨-, hlpast, hldispatch, -⟩ := ends_minded hl
  have hacts : ((v.puts l).puts [.unholding h rest]).acts = v.acts ++ (l ++ [.unholding h rest]) := List.append_assoc ..
  refine ⟨hacts, fun _ hq => hq, fun k who pc hb hpc => ?_, fun k hk => Or.inl hk, fun k hk => ?_, fun k hb => ?_,
    swept_same hacts rfl rfl fun _ => rfl⟩
  · rcases List.mem_append.mp hb with hb | hb
    · exact absurd (hlpast k who pc hb) hpc
    · cases List.mem_singleton.mp hb
  · exact Or.inr (Or.inr ⟨_, List.mem_append_right _ (List.mem_singleton.mpr rfl), hk⟩)
  · rcases List.mem_append.mp hb with hb | hb
    · exact absurd hb (hldispatch k)
    · cases List.mem_singleton.mp hb

theorem move_news {v v' : OwnerView} {a : Act} (hm : OwnerMove v a v') : ∃ l, News v v' a l := by
  cases hm with
  | noThread h hnet => exact ⟨_, news_one rfl rfl rfl (fun _ hq => hq) nofun nofun nofun nofun⟩
  | refused h hnet =>
    exact ⟨_, news_made rfl rfl rfl (fun _ hq => set_quit hq) (Or.inl ⟨rfl, Function.update_self ..⟩)⟩
  | begun h hnet => exact ⟨_, news_made rfl rfl rfl (fun _ hq => hq) (Or.inr rfl)⟩
  | listed h hnet hfinal => exact ⟨_, news_listed h hnet hfinal⟩
  | asked h => exact ⟨_, news_one rfl rfl rfl (fun _ hq => hq) nofun nofun nofun nofun⟩
  | given h l hl => exact ⟨l, news_ends hl rfl nofun⟩
  | unmade h l hl => exact ⟨l, news_ends hl rfl nofun⟩
  | returned =>
    refine ⟨[], (List.append_nil _).symm, fun _ hq => hq, nofun, fun k hk => Or.inl hk, nofun, nofun,
      swept_same (List.append_nil _).symm rfl rfl ?_⟩
    rintro ⟨x, hx, -⟩
    cases hx
  | waits h hq => exact ⟨_, news_one rfl rfl rfl (fun _ hq => hq) nofun nofun (fun k hk => hk) nofun⟩
  | leaves h l hl => exact ⟨l, news_ends hl rfl nofun⟩
  | entered h who =>
    refine ⟨_, news_one rfl rfl rfl (fun k hq => set_quit hq) (fun k who' pc hb _ => ?_) (fun k hk => ?_) nofun fun hs => ?_⟩
    · cases hb
      exact Or.inl (Function.update_self ..)
    · have hk : k ∈ [h] ++ who.rest := hk
      rcases List.mem_append.mp hk with hk | hk
      · rw [List.mem_singleton.mp hk]
        exact Or.inl (Function.update_self ..)
      · exact Or.inr (List.mem_append_right _ hk)
    · exact close_swept hs
  | tested h who hb => exact ⟨_, news_close nofun rfl rfl rfl rfl⟩
  | unowned h who hb => exact ⟨_, news_closed nofun rfl rfl rfl rfl⟩
  | copied h who => exact ⟨_, news_close nofun rfl rfl rfl rfl⟩
  | cleared h who pOwner => exact ⟨_, news_close nofun rfl rfl rfl rfl⟩
  | nullOwner h who => exact ⟨_, news_closed nofun rfl rfl rfl rfl⟩
  | goneOwner h who hnet => exact ⟨_, news_closed nofun rfl rfl rfl rfl⟩
  | forgot h who hnet hm => exact ⟨_, news_forgot v h who⟩
  | missed h who hnet => exact ⟨_, news_closed nofun rfl rfl rfl rfl⟩
  | dropped h who l hwho hl => exact ⟨_, news_dropped who hl⟩
  | swapped =>
    refine ⟨_, rfl, fun _ hq => hq, fun k who pc hb => ?_, fun k hk => Or.inr (Or.inl ⟨_, List.mem_singleton.mpr rfl, hk⟩), nofun,
      fun k hb => ?_, fun _ => Or.inl rfl⟩
    · cases List.mem_singleton.mp hb
    · cases List.mem_singleton.mp hb
  | netDeleted =>
    exact ⟨[], (List.append_nil _).symm, fun _ hq => hq, nofun, fun k hk => Or.inl hk, nofun, nofun,
      fun _ => Or.inr ⟨id, Or.inr (Or.inr rfl)⟩⟩
  | swept h rest =>
    refine ⟨_, news_one rfl rfl rfl (fun _ hq => hq) (fun k who pc hb hpc => ?_) (fun k hk => Or.inr hk) nofun fun _ => rfl⟩
    cases hb
    exact absurd rfl hpc
  | unlisted h rest l hl => exact ⟨_, news_unlisted rest hl⟩
  | unheld h rest l hl => exact ⟨l, news_ends hl rfl fun _ _ => rfl⟩

/-- An activity that begins. -/
theorem minded_put {v : OwnerView} (h : Minded v) {a : Act} (hpast : ∀ k who pc, a = .close k who pc → pc = .entered)
    (hdispatch : ∀ k, a ≠ .dispatch k) (hswept : a.swept = false) : Minded (v.puts [a]) := by
  refine ⟨fun k who pc hin hpc => ?_, fun k hin => ?_, ?_⟩
  · rcases List.mem_append.mp hin with hin | hin
    · exact h.past k who pc hin hpc
    · exact absurd (hpast k who pc (List.mem_singleton.mp hin).symm) hpc
  · rcases List.mem_append.mp hin with hin | hin
    · rcases h.minds k hin with hq | hin | ⟨x, hx, hm⟩
      · exact Or.inl hq
      · exact Or.inr (Or.inl hin)
      · exact Or.inr (Or.inr ⟨x, List.mem_append_left _ hx, hm⟩)
    · exact absurd (List.mem_singleton.mp hin).symm (hdispatch k)
  · rintro (hg | ⟨x, hx, hs⟩)
    · exact h.swept (Or.inl hg)
    · rcases List.mem_append.mp hx with hx | hx
      · exact h.swept (Or.inr ⟨x, hx, hs⟩)
      · rw [List.mem_singleton.mp hx, hswept] at hs
        cases hs

theorem minded_create {v : OwnerView} (h : Minded v) {k : Nat}
    (hnew : ∀ a ∈ v.acts, a.holds (.hub k) = 0 ∧ a.finals (.hub k) = 0) :
    Minded { v with
      bOwner := update v.bOwner k false
      lQuit := update v.lQuit k false
      gone := update v.gone (.hub k) false } := by
  have hone : one (Obj.hub k) (.hub k) = 1 := one_self _
  have hne : Obj.net ≠ .hub k := by simp
  refine ⟨fun h' who pc hin hpc => ?_, fun h' hin => ?_, ?_⟩
  · have hh : h' ≠ k := by
      rintro rfl
      have hon := act_on (show Obj.hub h' ∈ (Act.close h' who pc).on from List.mem_singleton.mpr rfl)
      have := hnew _ hin
      omega
    exact (Function.update_of_ne hh false v.lQuit).trans (h.past h' who pc hin hpc)
  · have hh : h' ≠ k := by
      rintro rfl
      have hon := act_on (show Obj.hub h' ∈ (Act.dispatch h').on from List.mem_singleton.mpr rfl)
      have := hnew _ hin
      omega
    exact (h.minds h' hin).imp_left (Function.update_of_ne hh false v.lQuit).trans
  · rintro (hg | hx)
    · exact h.swept (Or.inl ((Function.update_of_ne hne false v.gone).symm.trans hg))
    · exact h.swept (Or.inr hx)

theorem minded_step {v v' : OwnerView} {e : RefEv} (h : Minded v) (hstep : OwnerStep v e v') : Minded v' := by
  cases hstep with
  | stay => exact h
  | last o =>
    cases o with
    | net => exact minded_put h nofun nofun rfl
    | hub k =>
      refine minded_put h (fun k' who pc he => ?_) nofun rfl
      cases he
      rfl
  | create k hnet hnew => exact minded_put (minded_create h hnew) nofun nofun rfl
  | close k =>
    refine minded_put h (fun k' who pc he => ?_) nofun rfl
    cases he
    rfl
  | act a init v' ha hon hmove =>
    obtain ⟨l, hnews⟩ := move_news hmove
    exact minded_news h ha hnews

theorem minded_created : Minded ComRefs.created.view := ⟨nofun, nofun, fun _ => rfl⟩

theorem minded_exec (es : List RefEv) : Minded (exec refStep .created es).view := by
  have hstep (s : ComRefs) (e : RefEv) (h : s.Counts (fun _ => 0) (fun _ => 0) ∧ Minded s.view) :
      (refStep s e).Counts (fun _ => 0) (fun _ => 0) ∧ Minded (refStep s e).view :=
    ⟨counts_step s e h.1, minded_step h.2 (owner_step e h.1)⟩
  have hall : Always refStep _ .created es := always_of_inv hstep ⟨counts_created, minded_created⟩
  exact hall.last.2

/-- The counts are the references there are, and nobody has an object that was deleted or is about to make a step on it. -/
structure RefsRight (s : ComRefs) : Prop where
  faults : ∀ f ∈ s.faults, f.isOwner = true
  counted : ∀ o, (s.ref o).cRef = s.base o + weigh (Act.holds o) s.acts
  gone : ∀ o, (s.ref o).bGone = true → s.base o = 0 ∧ ∀ a ∈ s.acts, a.holds o = 0 ∧ o ∉ a.on

theorem right_of_counts {s : ComRefs} (hs : s.Counts (fun _ => 0) fun _ => 0) : RefsRight s := by
  refine ⟨hs.faults, fun o => (hs.counted o).counted, fun o hg => ?_⟩
  have hnone : s.base o + weigh (Act.holds o) s.acts = 0 := by
    by_contra hne
    exact absurd (hg.symm.trans ((hs.counted o).there (by omega))) (by simp)
  refine ⟨by omega, fun a ha => ⟨?_, fun hon => ?_⟩⟩
  · have hle : a.holds o ≤ weigh (Act.holds o) s.acts := weigh_pos ha
    omega
  · exact absurd (hg.symm.trans (act_there hs ha hon)) (by simp)

/-- Over any run of clients, calls, dispatch threads and FinalReleases. -/
theorem refs_counted (es : List RefEv) : Always refStep RefsRight .created es := by
  have hall : Always refStep (fun s => s.Counts (fun _ => 0) fun _ => 0) .created es := always_of_inv counts_step counts_created
  exact hall.mono fun s hs => right_of_counts hs

/-- Clients have let go all they had, and nothing runs but dispatch threads that wait. -/
structure ComRefs.Settled (s : ComRefs) : Prop where
  clients : ∀ o, s.clients o = 0
  waits : ∀ a ∈ s.acts, ∃ h, a = .dispatch h ∧ s.lQuit h = false

/-- What is made is deleted once clients have let go all they had, and no thread is left. -/
theorem refs_released (es : List RefEv) (h : (exec refStep .created es).Settled) :
    (exec refStep .created es).acts = [] ∧
      ∀ o, ((exec refStep .created es).ref o).bGone = ((exec refStep .created es).ref o).bMade := by
  have hc := counts_exec es
  have hm := minded_exec es
  generalize exec refStep .created es = s at *
  have hweigh (w : Act → Nat) (hw : ∀ h, w (.dispatch h) = 0) : weigh w s.acts = 0 := by
    refine weigh_zero fun a ha => ?_
    obtain ⟨k, rfl, -⟩ := h.waits a ha
    exact hw k
  -- nobody has the network, so it is deleted, and its m_hubs is empty
  have hnet : (s.ref .net).bGone = true := by
    have hk := hc.counted .net
    rw [hweigh (Act.holds .net) fun k => one_other (by simp), hweigh (Act.finals .net) fun _ => rfl] at hk
    have hbase : s.base .net = 0 := by
      show s.clients .net + 0 = 0
      rw [h.clients]
    rw [hbase] at hk
    rw [hk.gone_iff]
    exact hc.net
  have hhubs : s.hubs = [] := hm.swept (Or.inl hnet)
  have hacts : s.acts = [] := by
    rw [List.eq_nil_iff_forall_not_mem]
    intro a ha
    obtain ⟨k, rfl, hq⟩ := h.waits a ha
    rcases hm.minds k ha with hq' | hin | ⟨x, hx, hin⟩
    · exact absurd (hq.symm.trans hq') Bool.false_ne_true
    · have hin : k ∈ s.hubs := hin
      rw [hhubs] at hin
      cases hin
    · obtain ⟨k', rfl, -⟩ := h.waits x hx
      cases hin
  refine ⟨hacts, fun o => ?_⟩
  have hk := hc.counted o
  have hbase : s.base o = 0 := by
    show s.clients o + inHubs s.hubs o = 0
    rw [h.clients, hhubs]
    cases o <;> rfl
  rw [hacts, hbase] at hk
  exact hk.gone_iff

/-- A client has made the hub 0. -/
def hubRun : List RefEv :=
  [.create 0, .act (.initing 0) .ok, .act (.inited 0) .ok, .act (.listed 0) .ok, .act (.given 0) .ok, .act .returning .ok]

/-- And lets it go, and then the network. -/
def settledRun : List RefEv :=
  hubRun ++ [.release (.hub 0), .release .net, .act .finalizing .ok, .act (.sweeping [0]) .ok] ++
    ([.entered, .testing, .copying, .clearing true, .forgetting true].map fun pc => .act (.close 0 (.sweep []) pc) .ok) ++
    [.act (.dispatch 0) .ok, .act (.unlisting 0 []) .ok, .act (.unholding 0 []) .ok, .act (.close 0 (.final (.sweep [])) .entered) .ok,
      .act (.close 0 (.final (.sweep [])) .testing) .ok, .act (.sweeping []) .ok]

theorem refs_released_hub : (exec refStep .created settledRun).acts = [] ∧
    ∀ o, ((exec refStep .created settledRun).ref o).bGone = ((exec refStep .created settledRun).ref o).bMade := by
  refine refs_released settledRun ⟨fun o => ?_, nofun⟩
  have hclients : (exec refStep .created settledRun).clients =
      update (update (update (update (update (update (fun _ => 0) .net 1) .net 0) (.hub 0) 1) .net 1) (.hub 0) 0) .net 0 := rfl
  rw [hclients]
  cases o with
  | net => rfl
  | hub h =>
    cases h with
    | zero => rfl
    | succ h => rfl

/-! ## The network that a hub points to -/

/-- ForgetHub was not called through NULL or on a deleted network, no Close is on its way to that, and no hub that is there
    points to a deleted network. -/
structure OwnerKept (v : OwnerView) : Prop where
  faults : v.faults = []
  copying : ∀ h who, .close h who .copying ∈ v.acts → v.bOwner h = true
  null : ∀ h who pc, .close h who pc ∈ v.acts → pc ≠ .clearing false ∧ pc ≠ .forgetting false
  points : v.gone .net = true → ∀ h, v.gone (.hub h) = false → v.bOwner h = false
  address : v.gone .net = true → ∀ h who pc, .close h who pc ∈ v.acts → pc ≠ .clearing true ∧ pc ≠ .forgetting true

/-- A Close clears m_pOwner between the test and the read of another, or the network is deleted while a hub points to it or
    a Close has its address. -/
def Clash (v : OwnerView) : RefEv → Prop
  | .act (.close h who (.clearing pOwner)) _ =>
    .close h who (.clearing pOwner) ∈ v.acts ∧ ∃ who', .close h who' .copying ∈ v.acts
  | .act (.sweeping []) _ =>
    .sweeping [] ∈ v.acts ∧ ((∃ h, v.bOwner h = true ∧ v.gone (.hub h) = false) ∨
      ∃ h who pc, .close h who pc ∈ v.acts ∧ (pc = .clearing true ∨ pc = .forgetting true))
  | _ => False

/-- It is none of the steps of a Close that has to do with the owner. -/
def Act.quiet : Act → Bool
  | .close _ _ .copying | .close _ _ (.clearing _) | .close _ _ (.forgetting _) => false
  | _ => true

theorem kept_quiet {v v' : OwnerView} (h : OwnerKept v) (hfaults : v'.faults = v.faults) (howner : v'.bOwner = v.bOwner)
    (hnet : v'.gone .net = v.gone .net) (hgone : ∀ k, v.gone (.hub k) = true → v'.gone (.hub k) = true)
    (hacts : ∀ x ∈ v'.acts, x ∈ v.acts ∨ x.quiet = true) : OwnerKept v' := by
  have hmem {k : Nat} {who : InClose} {pc : OwnerPc} (hin : .close k who pc ∈ v'.acts) (hpc : (Act.close k who pc).quiet = false) :
      .close k who pc ∈ v.acts := by
    rcases hacts _ hin with hin | hq
    · exact hin
    · exact absurd (hpc.symm.trans hq) Bool.false_ne_true
  refine ⟨hfaults.trans h.faults, fun k who hin => ?_, fun k who pc hin => ⟨?_, ?_⟩, fun hg k hk => ?_,
    fun hg k who pc hin => ⟨?_, ?_⟩⟩
  · rw [howner]
    exact h.copying k who (hmem hin rfl)
  · rintro rfl
    exact (h.null k who _ (hmem hin rfl)).1 rfl
  · rintro rfl
    exact (h.null k who _ (hmem hin rfl)).2 rfl
  · rw [howner]
    refine h.points (hnet ▸ hg) k ?_
    cases hold : v.gone (.hub k) with
    | false => rfl
    | true => exact absurd (hk.symm.trans (hgone k hold)) Bool.false_ne_true
  · rintro rfl
    exact (h.address (hnet ▸ hg) k who _ (hmem hin rfl)).1 rfl
  · rintro rfl
    exact (h.address (hnet ▸ hg) k who _ (hmem hin rfl)).2 rfl

theorem kept_erase {v : OwnerView} (h : OwnerKept v) (a : Act) : OwnerKept { v with acts := v.acts.erase a } :=
  kept_quiet h rfl rfl rfl (fun _ hk => hk) fun _ hx => Or.inl (List.mem_of_mem_erase hx)

theorem kept_puts {v : OwnerView} (h : OwnerKept v) {l : List Act} (hl : ∀ x ∈ l, x.quiet = true) : OwnerKept (v.puts l) :=
  kept_quiet h rfl rfl rfl (fun _ hk => hk) fun x hx => (List.mem_append.mp hx).imp_right (hl x)

theorem kept_set {v : OwnerView} (h : OwnerKept v) (hubs : List Nat) (lQuit : Nat → Bool) :
    OwnerKept { v with hubs := hubs, lQuit := lQuit } :=
  kept_quiet h rfl rfl rfl (fun _ hk => hk) fun _ hx => Or.inl hx

theorem closing_quiet (h : Nat) (who : InClose) : ∀ x ∈ who.acts h, x.quiet = true := by
  intro x hx
  cases who with
  | client => cases hx
  | sweep rest =>
    rw [List.mem_singleton.mp hx]
    rfl
  | final after =>
    cases after with
    | done => cases hx
    | create | sweep rest =>
      rw [List.mem_singleton.mp hx]
      rfl

theorem ends_quiet {h : Nat} {after : Resume} {l : List Act} (hl : Ends h after l) : ∀ x ∈ l, x.quiet = true := by
  intro x hx
  rcases hl with rfl | rfl
  · rw [List.mem_singleton.mp hx]
    rfl
  · cases after with
    | done => cases hx
    | create | sweep rest =>
      rw [List.mem_singleton.mp hx]
      rfl

theorem kept_closed {v : OwnerView} (h : OwnerKept v) (k : Nat) (who : InClose) : OwnerKept (v.closed k who) := by
  obtain ⟨hacts, -, howner, -, hnet, hfaults⟩ := closed_same v k who
  refine kept_quiet h hfaults howner hnet (fun k' hk => ?_) fun x hx => ?_
  · cases who with
    | client | sweep rest => exact hk
    | final after =>
      show update v.gone (.hub k) true (.hub k') = true
      by_cases hkk : Obj.hub k' = .hub k
      · rw [hkk, Function.update_self]
      · rw [Function.update_of_ne hkk]
        exact hk
  · rw [hacts] at hx
    exact (List.mem_append.mp hx).imp_right (closing_quiet k who x)

/-- Init sets m_pOwner, and the network is there. -/
theorem kept_init {v : OwnerView} (h : OwnerKept v) (hnet : v.gone .net = false) (k : Nat) (lQuit : Nat → Bool) {l : List Act}
    (hl : ∀ x ∈ l, x.quiet = true) : OwnerKept ({ v with bOwner := update v.bOwner k true, lQuit := lQuit }.puts l) := by
  have hset : OwnerKept { v with bOwner := update v.bOwner k true, lQuit := lQuit } := by
    refine ⟨h.faults, fun k' who hin => ?_, h.null, fun hg => ?_, h.address⟩
    · show update v.bOwner k true k' = true
      by_cases hk : k' = k
      · rw [hk, Function.update_self]
      · rw [Function.update_of_ne hk]
        exact h.copying k' who hin
    · exact absurd (hnet.symm.trans hg) Bool.false_ne_true
  exact kept_puts hset hl

/-- A Close comes to a stage that is none of those on the way to a fault. -/
theorem kept_close {v : OwnerView} (h : OwnerKept v) {k : Nat} {who : InClose} {pc : OwnerPc}
    (hcopying : pc = .copying → v.bOwner k = true) (hnull : pc ≠ .clearing false ∧ pc ≠ .forgetting false)
    (haddress : v.gone .net = true → pc ≠ .clearing true ∧ pc ≠ .forgetting true) : OwnerKept (v.puts [.close k who pc]) := by
  refine ⟨h.faults, fun k' who' hin => ?_, fun k' who' pc' hin => ?_, h.points, fun hg k' who' pc' hin => ?_⟩
  · rcases List.mem_append.mp hin with hin | hin
    · exact h.copying k' who' hin
    · obtain ⟨rfl, -, he⟩ := Act.close.inj (List.mem_singleton.mp hin)
      exact hcopying he.symm
  · rcases List.mem_append.mp hin with hin | hin
    · exact h.null k' who' pc' hin
    · obtain ⟨-, -, rfl⟩ := Act.close.inj (List.mem_singleton.mp hin)
      exact hnull
  · rcases List.mem_append.mp hin with hin | hin
    · exact h.address hg k' who' pc' hin
    · obtain ⟨-, -, rfl⟩ := Act.close.inj (List.mem_singleton.mp hin)
      exact haddress hg

/-- A Close clears m_pOwner, and no other is between its test and its read. -/
theorem kept_clear {v : OwnerView} (h : OwnerKept v) {k : Nat} (hno : ∀ who, .close k who .copying ∉ v.acts) :
    OwnerKept { v with bOwner := update v.bOwner k false } := by
  refine ⟨h.faults, fun k' who' hin => ?_, h.null, fun hg k' hk => ?_, h.address⟩
  · have hne : k' ≠ k := by
      rintro rfl
      exact hno who' hin
    exact (Function.update_of_ne hne false v.bOwner).trans (h.copying k' who' hin)
  · show update v.bOwner k false k' = false
    by_cases hkk : k' = k
    · rw [hkk, Function.update_self]
    · rw [Function.update_of_ne hkk]
      exact h.points hg k' hk

/-- What the step of an activity leaves, if it does not clash. -/
theorem kept_move {v v' : OwnerView} {a : Act} (h : OwnerKept v) (ha : a ∈ v.acts)
    (hon : ∀ o ∈ a.on, v.gone o = false) {init : InitEnd}
    (hclash : ¬ Clash v (.act a init)) (hm : OwnerMove { v with acts := v.acts.erase a } a v') : OwnerKept v' := by
  have h0 := kept_erase h a
  have hone {b : Act} (hb : b.quiet = true) : ∀ x ∈ [b], x.quiet = true := fun x hx => by rw [List.mem_singleton.mp hx]; exact hb
  cases hm with
  | noThread k hnet => exact kept_init h0 hnet k v.lQuit (hone rfl)
  | refused k hnet =>
    refine kept_init h0 hnet k (update v.lQuit k true) fun x hx => ?_
    rcases List.mem_pair.mp hx with rfl | rfl <;> rfl
  | begun k hnet =>
    refine kept_init h0 hnet k v.lQuit fun x hx => ?_
    rcases List.mem_pair.mp hx with rfl | rfl <;> rfl
  | listed k hnet hfinal =>
    refine kept_puts (kept_set h0 _ _) ?_
    exact hone rfl
  | asked k => exact kept_puts h0 (hone rfl)
  | given k l hl | unmade k l hl | leaves k l hl | unheld k rest l hl => exact kept_puts h0 (ends_quiet hl)
  | returned => exact h0
  | waits k hq => exact kept_puts h0 (hone rfl)
  | entered k who =>
    refine kept_puts (kept_set h0 _ _) ?_
    exact hone rfl
  | tested k who hb => exact kept_close h0 (fun _ => hb) ⟨nofun, nofun⟩ fun _ => ⟨nofun, nofun⟩
  | unowned k who hb => exact kept_closed h0 k who
  | copied k who =>
    -- the pointer is there, and so is the network
    have hb := h.copying k who ha
    have hnet (hg : v.gone .net = true) : False :=
      absurd ((h.points hg k (hon _ (List.mem_singleton.mpr rfl))).symm.trans hb) Bool.false_ne_true
    refine kept_close h0 nofun ⟨fun he => ?_, nofun⟩ fun hg => absurd hg hnet
    exact absurd ((OwnerPc.clearing.inj he).symm.trans hb) Bool.false_ne_true
  | cleared k who pOwner =>
    have hset := kept_clear h0 (k := k) fun who' hin => hclash ⟨ha, who', List.mem_of_mem_erase hin⟩
    refine kept_close hset nofun ⟨nofun, fun he => ?_⟩ fun hg => ⟨nofun, fun he => ?_⟩
    · cases he
      exact (h.null k who _ ha).1 rfl
    · cases he
      exact (h.address hg k who _ ha).1 rfl
  | nullOwner k who => exact absurd rfl (h.null k who _ ha).2
  | goneOwner k who hnet => exact absurd rfl (h.address hnet k who _ ha).2
  | forgot k who hnet hin =>
    refine kept_puts (kept_set h0 _ _) ?_
    exact hone rfl
  | missed k who hnet => exact kept_closed h0 k who
  | dropped k who l hwho hl => exact kept_closed (kept_puts h0 (ends_quiet hl)) k who
  | swapped =>
    refine kept_puts (kept_set h0 _ _) ?_
    exact hone rfl
  | netDeleted =>
    have hne (k : Nat) : Obj.hub k ≠ .net := by simp
    refine ⟨h.faults, h0.copying, h0.null, fun _ k hk => ?_, fun _ k who pc hin => ⟨fun he => ?_, fun he => ?_⟩⟩
    · cases hb : v.bOwner k with
      | false => rfl
      | true => exact absurd ⟨ha, Or.inl ⟨k, hb, (Function.update_of_ne (hne k) true v.gone).symm.trans hk⟩⟩ hclash
    · exact hclash ⟨ha, Or.inr ⟨k, who, pc, List.mem_of_mem_erase hin, Or.inl he⟩⟩
    · exact hclash ⟨ha, Or.inr ⟨k, who, pc, List.mem_of_mem_erase hin, Or.inr he⟩⟩
  | swept k rest => exact kept_puts h0 (hone rfl)
  | unlisted k rest l hl => exact kept_puts (kept_puts h0 (ends_quiet hl)) (hone rfl)

theorem kept_step {v v' : OwnerView} {e : RefEv} (h : OwnerKept v) (hclash : ¬ Clash v e) (hstep : OwnerStep v e v') :
    OwnerKept v' := by
  cases hstep with
  | stay => exact h
  | last o =>
    refine kept_puts h fun x hx => ?_
    rw [List.mem_singleton.mp hx]
    cases o <;> rfl
  | create k hnet hnew =>
    have hset : OwnerKept { v with
        bOwner := update v.bOwner k false
        lQuit := update v.lQuit k false
        gone := update v.gone (.hub k) false } := by
      have hnet' (hg : update v.gone (.hub k) false .net = true) : False := by
        rw [Function.update_of_ne (by simp)] at hg
        exact absurd (hnet.symm.trans hg) Bool.false_ne_true
      refine ⟨h.faults, fun k' who hin => ?_, h.null, fun hg => absurd hg hnet', fun hg => absurd hg hnet'⟩
      have hne : k' ≠ k := by
        rintro rfl
        have hon := act_on (show Obj.hub k' ∈ (Act.close k' who .copying).on from List.mem_singleton.mpr rfl)
        have := hnew _ hin
        omega
      exact (Function.update_of_ne hne false v.bOwner).trans (h.copying k' who hin)
    refine kept_puts hset fun x hx => ?_
    rw [List.mem_singleton.mp hx]
    rfl
  | close k =>
    refine kept_puts h fun x hx => ?_
    rw [List.mem_singleton.mp hx]
    rfl
  | act a init v' ha hon hmove => exact kept_move h ha hon hclash hmove

/-- A step that clashes leaves someone lost. -/
theorem clash_lost {v v' : OwnerView} {e : RefEv} (hstep : OwnerStep v e v') (hclash : Clash v e) : ¬ OwnerKept v' := by
  intro h
  cases hstep with
  | last | create | close => exact hclash
  | stay _ he =>
    unfold Clash at hclash
    split at hclash
    · exact he _ _ rfl hclash.1
    · exact he _ _ rfl hclash.1
    · exact hclash
  | act a init v' ha hon hmove =>
    unfold Clash at hclash
    split at hclash
    · rename_i k who pOwner init' heq
      obtain ⟨rfl, rfl⟩ := RefEv.act.inj heq
      obtain ⟨-, who', hin⟩ := hclash
      cases hmove
      have hin' : Act.close k who' .copying ∈ v.acts.erase (.close k who (.clearing pOwner)) :=
        (List.mem_erase_of_ne (by simp)).mpr hin
      have htrue : update v.bOwner k false k = true := h.copying k who' (List.mem_append_left _ hin')
      rw [Function.update_self] at htrue
      cases htrue
    · rename_i init' heq
      obtain ⟨rfl, rfl⟩ := RefEv.act.inj heq
      cases hmove
      have hgone : update v.gone .net true .net = true := Function.update_self ..
      rcases hclash.2 with ⟨k, hb, hk⟩ | ⟨k, who, pc, hin, hpc⟩
      · have hne : Obj.hub k ≠ .net := by simp
        exact absurd (hb.symm.trans (h.points hgone k ((Function.update_of_ne hne true v.gone).trans hk))) (by simp)
      · have haddr := h.address hgone k who pc ((List.mem_erase_of_ne (by simp)).mpr hin)
        rcases hpc with rfl | rfl
        · exact haddr.1 rfl
        · exact haddr.2 rfl
    · exact hclash

/-- No ForgetHub goes wrong in a run, and none is bound to, exactly if no step of it clashes. -/
theorem owner_kept_iff (es : List RefEv) :
    Always refStep (fun s => OwnerKept s.view) .created es ↔ Each refStep (fun s e => ¬ Clash s.view e) .created es := by
  have hstep (s : ComRefs) (e : RefEv) (h : s.Counts (fun _ => 0) (fun _ => 0) ∧ OwnerKept s.view) (he : ¬ Clash s.view e) :
      (refStep s e).Counts (fun _ => 0) (fun _ => 0) ∧ OwnerKept (refStep s e).view :=
    ⟨counts_step s e h.1, kept_step h.2 he (owner_step e h.1)⟩
  have hcreated : OwnerKept ComRefs.created.view := by
    refine ⟨rfl, nofun, nofun, fun hg => ?_, fun hg => ?_⟩ <;> cases hg
  exact always_iff_each_of_inv hstep (fun s h => h.2) (fun s e h hkept hclash => clash_lost (owner_step e h.1) hclash hkept)
    ⟨counts_created, hcreated⟩

/-- Two clients close it at once: both pass the test, and one copies what the other has cleared. -/
def raceRun : List RefEv :=
  hubRun ++ [.addRef (.hub 0), .close 0, .close 0] ++
    ([.entered, .entered, .testing, .testing, .copying, .clearing true, .copying, .clearing false, .forgetting false].map
      fun pc => .act (.close 0 .client pc) .ok)

theorem closes_race : (exec refStep .created raceRun).faults = [.nullOwner 0] := rfl

/-- A Close has the address of the network, whose last client lets it go. -/
def lateForgetRun : List RefEv :=
  hubRun ++ [.close 0] ++ ([.entered, .testing, .copying, .clearing true].map fun pc => .act (.close 0 .client pc) .ok) ++
    [.release .net, .act .finalizing .ok, .act (.sweeping [0]) .ok, .act (.close 0 (.sweep []) .entered) .ok,
      .act (.close 0 (.sweep []) .testing) .ok, .act (.unlisting 0 []) .ok, .act (.unholding 0 []) .ok, .act (.sweeping []) .ok,
      .act (.close 0 .client (.forgetting true)) .ok]

theorem late_forget : (exec refStep .created lateForgetRun).faults = [.goneOwner 0] := rfl

end TargetFacade
