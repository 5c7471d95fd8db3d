/-
  TargetFacade.Registry.Teardown — each hub is torn down and deleted by one thread, over the
  interleavings in which Close and CloseAllHubs keep off each other's hubs.

  The life of a hub is a line: made by a CreateHubEx, listed, perhaps latched by a Close,
  then closing, freeing and gone, or from made straight to closing when its address was
  taken. `At` ties a stage of that line to the state: who holds the hub, whether it is listed,
  and how often its CloseInternal and delete have run. A step moves one hub one stage on
  (`stage_move`) and leaves the others where they are, provided nobody else holds it. Close
  takes its latch without leaving the list and CloseAllHubs empties the list without looking
  at the latch, so that proviso is the condition (`Apart`).
-/

import TargetFacade.Registry.Model

namespace TargetFacade

open Function (update)
open Runs

/-! ## The life of one hub -/

inductive Life where
  | unborn
  | made (t : Nat)
  | listed
  | latched (t : Nat)
  | closing (t : Nat)
  | freeing (t : Nat)
  | gone
  deriving DecidableEq, Repr

def Life.holder : Life → Option Nat
  | .made t | .latched t | .closing t | .freeing t => some t
  | _ => none

def Life.isListed : Life → Bool
  | .listed | .latched _ => true
  | _ => false

def Life.tornCount : Life → Nat
  | .freeing _ | .gone => 1
  | _ => 0

def Life.freedCount : Life → Nat
  | .gone => 1
  | _ => 0

/-- The hub a thread at this place works on. -/
def Pc.hub : Pc → Option Nat
  | .spawned h | .latched h | .closing _ h | .freeing _ h => some h
  | _ => none

/-- The place its holder stands at. -/
def Life.Fits (h : Nat) (pc : Pc) : Life → Prop
  | .made _ => pc = .spawned h
  | .latched _ => pc = .latched h
  | .closing _ => ∃ c, pc = .closing c h
  | .freeing _ => ∃ c, pc = .freeing c h
  | _ => False

structure Registry.At (s : Registry) (h : Nat) (l : Life) : Prop where
  born : s.next ≤ h ↔ l = .unborn
  place : ∀ t, (s.pc t).hub = some h ↔ l.holder = some t
  fits : ∀ t, l.holder = some t → l.Fits h (s.pc t)
  listed : h ∈ s.listHubs ↔ l.isListed = true
  deleted : s.deleted h = true ↔ l = .gone
  torn : s.torn.count h = l.tornCount
  freed : s.freed.count h = l.freedCount
  closed : ∀ t, l = .latched t → s.bClosed h = true
  called : s.bClosed h = true → h ∈ s.called

structure Registry.Owned (s : Registry) : Prop where
  at_ : ∃ life : Nat → Life, ∀ h, s.At h (life h)
  nodup : s.listHubs.Nodup
  late : s.late = []

/-- No CloseInternal and no delete runs twice, a hub that is nobody's any more has had one of
    each, and no thread has made a step on a deleted hub. -/
structure Registry.TornOnce (s : Registry) : Prop where
  once : ∀ h, s.torn.count h ≤ 1 ∧ s.freed.count h ≤ 1
  done : ∀ h, h < s.next → h ∉ s.listHubs → (∀ t, (s.pc t).hub ≠ some h) → s.torn.count h = 1 ∧ s.freed.count h = 1
  late : s.late = []

/-- A client calls Close at most once for a hub. -/
def CallsOnce (s : Registry) (e : RegEv) : Prop :=
  ∀ t h, e = .close t h → s.pc t = .idle → h ∈ s.published → h ∉ s.called

/-- No Close begins on a hub that CloseAllHubs has taken off the list, and CloseAllHubs takes
    none whose Close has begun. -/
def Apart (s : Registry) (e : RegEv) : Prop :=
  (∀ t h, e = .close t h → s.pc t = .idle → h ∈ s.published → h ∈ s.listHubs) ∧
  (∀ t h rest, e = .removeHead t → s.pc t = .sweeping → s.listHubs = h :: rest → s.bClosed h = false)

theorem Registry.Owned.tornOnce {s : Registry} (ho : s.Owned) : s.TornOnce := by
  obtain ⟨life, hat⟩ := ho.at_
  refine ⟨fun h => ?_, fun h hlt hnl hnone => ?_, ho.late⟩
  · rw [(hat h).torn, (hat h).freed]
    cases life h <;> simp [Life.tornCount, Life.freedCount]
  · have hgone : life h = .gone := by
      have hborn := (hat h).born
      have hlist := (hat h).listed
      have hplace := (hat h).place
      cases hl : life h with
      | unborn => exact absurd (hborn.mpr hl) (by omega)
      | listed => exact absurd (hlist.mpr (by rw [hl]; rfl)) hnl
      | gone => rfl
      | made t => exact absurd ((hplace t).mpr (by rw [hl]; rfl)) (hnone t)
      | latched t => exact absurd ((hplace t).mpr (by rw [hl]; rfl)) (hnone t)
      | closing t => exact absurd ((hplace t).mpr (by rw [hl]; rfl)) (hnone t)
      | freeing t => exact absurd ((hplace t).mpr (by rw [hl]; rfl)) (hnone t)
    rw [(hat h).torn, (hat h).freed, hgone]
    exact ⟨rfl, rfl⟩

/-! ## What a place says of the stage -/

/-- The stage a thread at this place holds its hub at. -/
def Pc.stage (t : Nat) : Pc → Option Life
  | .spawned _ => some (.made t)
  | .latched _ => some (.latched t)
  | .closing _ _ => some (.closing t)
  | .freeing _ _ => some (.freeing t)
  | _ => none

theorem at_stage {s : Registry} {h t : Nat} {l l' : Life} {pc : Pc} (ha : s.At h l) (hpc : s.pc t = pc)
    (hh : pc.hub = some h) (hst : pc.stage t = some l') : l = l' := by
  have hl := (ha.place t).mp (by rw [hpc]; exact hh)
  have hf := ha.fits t hl
  rw [hpc] at hf
  cases l with
  | made u => cases hl; rw [show pc = .spawned h from hf] at hst; exact Option.some.inj hst
  | latched u => cases hl; rw [show pc = .latched h from hf] at hst; exact Option.some.inj hst
  | closing u => cases hl; obtain ⟨c, rfl⟩ := hf; exact Option.some.inj hst
  | freeing u => cases hl; obtain ⟨c, rfl⟩ := hf; exact Option.some.inj hst
  | _ => cases hl

/-- A listed hub whose latch is open is held by nobody. -/
theorem at_listed {s : Registry} {h : Nat} {l : Life} (ha : s.At h l) (hl : h ∈ s.listHubs) (ho : s.bClosed h = false) :
    l = .listed := by
  have hlist := ha.listed.mp hl
  cases l with
  | listed => rfl
  | latched t => exact absurd (ha.closed t rfl) (by simp [ho])
  | _ => simp [Life.isListed] at hlist

/-! ## One stage on -/

/-- What a step leaves alone about a hub it does not move. -/
structure SameHub (s s' : Registry) (g : Nat) : Prop where
  next : s'.next ≤ g ↔ s.next ≤ g
  listed : g ∈ s'.listHubs ↔ g ∈ s.listHubs
  deleted : s'.deleted g = s.deleted g
  torn : s'.torn.count g = s.torn.count g
  freed : s'.freed.count g = s.freed.count g
  closed : s'.bClosed g = s.bClosed g
  called : g ∈ s.called → g ∈ s'.called

theorem at_frame {s s' : Registry} {t g : Nat} {l : Life} (ha : s.At g l) (hpc : ∀ u, u ≠ t → s'.pc u = s.pc u)
    (h0 : (s.pc t).hub ≠ some g) (h1 : (s'.pc t).hub ≠ some g) (hs : SameHub s s' g) : s'.At g l := by
  have hnot : l.holder ≠ some t := fun hh => h0 ((ha.place t).mpr hh)
  refine ⟨hs.next.trans ha.born, fun u => ?_, fun u hu => ?_, hs.listed.trans ha.listed, by rw [hs.deleted]; exact ha.deleted,
    by rw [hs.torn]; exact ha.torn, by rw [hs.freed]; exact ha.freed, fun u hu => by rw [hs.closed]; exact ha.closed u hu,
    fun hc => hs.called (ha.called (hs.closed ▸ hc))⟩
  · by_cases hut : u = t
    · subst hut; exact ⟨fun hx => absurd hx h1, fun hx => absurd hx hnot⟩
    · rw [hpc u hut]; exact ha.place u
  · have hut : u ≠ t := fun he => hnot (he ▸ hu)
    rw [hpc u hut]; exact ha.fits u hu

/-- What a state says of a hub besides who holds it. -/
structure Registry.Shows (s : Registry) (h : Nat) (l : Life) : Prop where
  born : s.next ≤ h ↔ l = .unborn
  listed : h ∈ s.listHubs ↔ l.isListed = true
  deleted : s.deleted h = true ↔ l = .gone
  torn : s.torn.count h = l.tornCount
  freed : s.freed.count h = l.freedCount
  closed : ∀ t, l = .latched t → s.bClosed h = true
  called : s.bClosed h = true → h ∈ s.called

/-- Thread `t` moves hub `h`, which nobody else holds, to the stage `l`; every other hub stays
    where it was. -/
theorem stage_move {s s' : Registry} {t : Nat} {life : Nat → Life} (h : Nat) (l : Life) (hat : ∀ g, s.At g (life g))
    (halone : (life h).holder = none ∨ (life h).holder = some t) (hpc : ∀ u, u ≠ t → s'.pc u = s.pc u)
    (h0 : (s.pc t).hub = none ∨ (s.pc t).hub = some h) (h1 : (s'.pc t).hub = l.holder.map fun _ => h)
    (hholder : l.holder = none ∨ l.holder = some t) (hfits : l.holder = some t → l.Fits h (s'.pc t))
    (hrest : ∀ g, g ≠ h → SameHub s s' g) (hself : s'.Shows h l) : ∃ life : Nat → Life, ∀ g, s'.At g (life g) := by
  have hothers : ∀ u, u ≠ t → (s.pc u).hub ≠ some h := by
    intro u hut hx
    have hu := ((hat h).place u).mp hx
    rcases halone with hn | hn <;> (rw [hn] at hu; cases hu)
    exact hut rfl
  have hnot : ∀ u, u ≠ t → l.holder ≠ some u := by
    intro u hut hx
    rcases hholder with hn | hn <;> (rw [hn] at hx; cases hx)
    exact hut rfl
  refine ⟨update life h l, fun g => ?_⟩
  by_cases hg : g = h
  case neg =>
    rw [Function.update_of_ne hg]
    refine at_frame (hat g) hpc (fun hx => ?_) (fun hx => ?_) (hrest g hg)
    · rcases h0 with hn | hn <;> (rw [hn] at hx; cases hx)
      exact hg rfl
    · rw [h1] at hx
      cases hl : l.holder with
      | none => simp [hl] at hx
      | some u => simp [hl] at hx; exact hg hx.symm
  subst hg
  rw [Function.update_self]
  refine ⟨hself.born, fun u => ?_, fun u hu => ?_, hself.listed, hself.deleted, hself.torn, hself.freed, hself.closed,
    hself.called⟩
  · by_cases hut : u = t
    · subst hut
      rw [h1]
      rcases hholder with hn | hn <;> simp [hn]
    · rw [hpc u hut]
      exact ⟨fun hx => absurd hx (hothers u hut), fun hx => absurd hx (hnot u hut)⟩
  · by_cases hut : u = t
    · subst hut; exact hfits hu
    · exact absurd hu (hnot u hut)

/-- The hub was there before the step, and is there after it. -/
theorem still_born {s : Registry} {h : Nat} {l : Life} (l' : Life) (ha : s.At h l) (hl : l ≠ .unborn) (hl' : l' ≠ .unborn) :
    s.next ≤ h ↔ l' = .unborn :=
  ⟨fun hn => absurd (ha.born.mp hn) hl, fun he => absurd he hl'⟩

theorem still_kept {s : Registry} {h : Nat} {l : Life} (l' : Life) (ha : s.At h l) (hl : l ≠ .gone) (hl' : l' ≠ .gone) :
    s.deleted h = true ↔ l' = .gone :=
  ⟨fun hd => absurd (ha.deleted.mp hd) hl, fun he => absurd he hl'⟩

theorem touch_late {s : Registry} (t : Nat) {hs : List Nat} (h : ∀ g ∈ hs, s.deleted g = false) :
    s.late ++ (hs.filter s.deleted).map (fun g => (t, g)) = s.late := by
  have hnil : hs.filter s.deleted = [] := List.filter_eq_nil_iff.mpr fun g hg => by simp [h g hg]
  simp [hnil]

theorem count_other {h g : Nat} (l : List Nat) (hg : g ≠ h) : (l ++ [h]).count g = l.count g := by
  have : ¬ h = g := fun he => hg he.symm
  simp [List.count_append, this]

theorem count_self (l : List Nat) (h : Nat) : (l ++ [h]).count h = l.count h + 1 := by
  simp [List.count_append]

theorem live_kept {s : Registry} {h : Nat} {l : Life} (ha : s.At h l) (hl : l ≠ .gone) : s.deleted h = false := by
  cases hd : s.deleted h with
  | false => rfl
  | true => exact absurd (ha.deleted.mp hd) hl

/-! ## The moves -/

section Moves

variable {s : Registry} {life : Nat → Life}

/-- A thread moves between two places that hold no hub. -/
theorem owned_idle {s' : Registry} {t : Nat} (hat : ∀ g, s.At g (life g)) (hpc : ∀ u, u ≠ t → s'.pc u = s.pc u)
    (h0 : (s.pc t).hub = none) (h1 : (s'.pc t).hub = none) (hrest : ∀ g, SameHub s s' g) :
    ∃ life : Nat → Life, ∀ g, s'.At g (life g) :=
  ⟨life, fun g => at_frame (hat g) hpc (by simp [h0]) (by simp [h1]) (hrest g)⟩

theorem spawned_owned (hat : ∀ g, s.At g (life g)) {t : Nat} {address : WStr} (cp : Bool) (hpc : s.pc t = .checked address) :
    ∃ life : Nat → Life, ∀ g, (Registry.goto { s with
      next := s.next + 1
      address := update s.address s.next address
      pumpOwner := update s.pumpOwner s.next (if cp then some t else none)
      hasPump := update s.hasPump s.next true
      running := update s.running s.next true } t (.spawned s.next)).At g (life g) := by
  have ha := hat s.next
  have hl : life s.next = .unborn := ha.born.mp (Nat.le_refl _)
  rw [hl] at ha
  have hkept := still_kept (.made t) ha (by simp) (by simp)
  refine stage_move s.next (.made t) hat (Or.inl (by rw [hl]; rfl)) goto_others (Or.inl (by rw [hpc]; rfl))
    (by rw [goto_own]; rfl) (Or.inr rfl) (fun _ => goto_own) (fun g hg => ?_) ?_
  · refine ⟨?_, Iff.rfl, rfl, rfl, rfl, rfl, id⟩
    show s.next + 1 ≤ g ↔ s.next ≤ g
    omega
  · refine ⟨?_, ha.listed, hkept, ha.torn, ha.freed, fun u hu => (by cases hu), ha.called⟩
    show s.next + 1 ≤ s.next ↔ _
    simp

theorem backedOut_owned (hat : ∀ g, s.At g (life g)) {t h : Nat} (hpc : s.pc t = .spawned h) :
    ∃ life : Nat → Life, ∀ g, ((s.touch t s.listHubs).goto t (.closing .backOut h)).At g (life g) := by
  have ha := hat h
  have hl := at_stage ha hpc rfl rfl
  rw [hl] at ha
  have hborn := still_born (.closing t) ha (by simp) (by simp)
  have hkept := still_kept (.closing t) ha (by simp) (by simp)
  refine stage_move h (.closing t) hat (Or.inr (by rw [hl]; rfl)) goto_others (Or.inr (by rw [hpc]; rfl))
    (by rw [goto_own]; rfl) (Or.inr rfl) (fun _ => ⟨.backOut, goto_own⟩)
    (fun g hg => ⟨Iff.rfl, Iff.rfl, rfl, rfl, rfl, rfl, id⟩) ?_
  exact ⟨hborn, ha.listed, hkept, ha.torn, ha.freed, fun u hu => (by cases hu), ha.called⟩

theorem published_owned (hat : ∀ g, s.At g (life g)) {t h : Nat} (hpc : s.pc t = .spawned h) :
    ∃ life : Nat → Life, ∀ g, (Registry.goto (Registry.answer { s.touch t s.listHubs with
      listHubs := s.listHubs ++ [h], published := s.published ++ [h] } t S_OK) t .idle).At g (life g) := by
  have ha := hat h
  have hl := at_stage ha hpc rfl rfl
  rw [hl] at ha
  have hborn := still_born .listed ha (by simp) (by simp)
  have hkept := still_kept .listed ha (by simp) (by simp)
  refine stage_move h .listed hat (Or.inr (by rw [hl]; rfl)) goto_others (Or.inr (by rw [hpc]; rfl))
    (by rw [goto_own]; rfl) (Or.inl rfl) (fun hx => (by cases hx)) (fun g hg => ?_) ?_
  · refine ⟨Iff.rfl, ?_, rfl, rfl, rfl, rfl, id⟩
    show g ∈ s.listHubs ++ [h] ↔ _
    simp [hg]
  · refine ⟨hborn, ?_, hkept, ha.torn, ha.freed, fun u hu => (by cases hu), ha.called⟩
    show h ∈ s.listHubs ++ [h] ↔ _
    simp [Life.isListed]

theorem latched_owned (hat : ∀ g, s.At g (life g)) {t h : Nat} (hpc : s.pc t = .idle) (hm : h ∈ s.listHubs)
    (hopen : s.bClosed h = false) :
    ∃ life : Nat → Life, ∀ g, (Registry.goto { s.touch t [h] with
      called := s.called ++ [h], bClosed := update s.bClosed h true } t (.latched h)).At g (life g) := by
  have ha := hat h
  have hl := at_listed ha hm hopen
  rw [hl] at ha
  have hborn := still_born (.latched t) ha (by simp) (by simp)
  have hkept := still_kept (.latched t) ha (by simp) (by simp)
  refine stage_move h (.latched t) hat (Or.inl (by rw [hl]; rfl)) goto_others (Or.inl (by rw [hpc]; rfl))
    (by rw [goto_own]; rfl) (Or.inr rfl) (fun _ => goto_own) (fun g hg => ?_) ?_
  · refine ⟨Iff.rfl, Iff.rfl, rfl, rfl, rfl, ?_, fun hm => List.mem_append_left _ hm⟩
    show update s.bClosed h true g = s.bClosed g
    exact Function.update_of_ne hg _ _
  · refine ⟨hborn, ha.listed, hkept, ha.torn, ha.freed, fun u _ => ?_, fun _ => ?_⟩
    · show update s.bClosed h true h = true
      exact Function.update_self _ _ _
    · show h ∈ s.called ++ [h]
      simp

theorem removed_owned (hat : ∀ g, s.At g (life g)) {t h : Nat} (hpc : s.pc t = .latched h) (hnd : s.listHubs.Nodup) :
    ∃ life : Nat → Life, ∀ g, (Registry.goto { s.touch t [h] with
      listHubs := s.listHubs.erase h } t (.closing .close h)).At g (life g) := by
  have ha := hat h
  have hl := at_stage ha hpc rfl rfl
  rw [hl] at ha
  have hborn := still_born (.closing t) ha (by simp) (by simp)
  have hkept := still_kept (.closing t) ha (by simp) (by simp)
  refine stage_move h (.closing t) hat (Or.inr (by rw [hl]; rfl)) goto_others (Or.inr (by rw [hpc]; rfl))
    (by rw [goto_own]; rfl) (Or.inr rfl) (fun _ => ⟨.close, goto_own⟩) (fun g hg => ?_) ?_
  · refine ⟨Iff.rfl, ?_, rfl, rfl, rfl, rfl, id⟩
    show g ∈ s.listHubs.erase h ↔ _
    exact List.mem_erase_of_ne hg
  · refine ⟨hborn, ?_, hkept, ha.torn, ha.freed, fun u hu => (by cases hu), ha.called⟩
    show h ∈ s.listHubs.erase h ↔ _
    rw [hnd.mem_erase_iff]
    simp [Life.isListed]

/-- Whatever a CloseInternal does to the pump. -/
theorem torn_owned (hat : ∀ g, s.At g (life g)) {t h : Nat} {c : Closer} (hasPump running : Nat → Bool)
    (hpc : s.pc t = .closing c h) :
    ∃ life : Nat → Life, ∀ g, (Registry.goto { s.touch t [h] with
      hasPump := hasPump, running := running, torn := s.torn ++ [h] } t (.freeing c h)).At g (life g) := by
  have ha := hat h
  have hl := at_stage ha hpc rfl rfl
  rw [hl] at ha
  have hborn := still_born (.freeing t) ha (by simp) (by simp)
  have hkept := still_kept (.freeing t) ha (by simp) (by simp)
  refine stage_move h (.freeing t) hat (Or.inr (by rw [hl]; rfl)) goto_others (Or.inr (by rw [hpc]; rfl))
    (by rw [goto_own]; rfl) (Or.inr rfl) (fun _ => ⟨c, goto_own⟩) (fun g hg => ?_) ?_
  · exact ⟨Iff.rfl, Iff.rfl, rfl, count_other _ hg, rfl, rfl, id⟩
  · refine ⟨hborn, ha.listed, hkept, ?_, ha.freed, fun u hu => (by cases hu), ha.called⟩
    show (s.torn ++ [h]).count h = _
    rw [count_self, ha.torn]
    rfl

theorem freed_owned (hat : ∀ g, s.At g (life g)) {t h : Nat} {c : Closer} {pc : Pc} (answers : List (Nat × HRESULT))
    (hpc : s.pc t = .freeing c h) (hout : pc = .idle ∨ pc = .sweeping) :
    ∃ life : Nat → Life, ∀ g, (Registry.goto { s.touch t [h] with
      deleted := update s.deleted h true, freed := s.freed ++ [h], answers := answers } t pc).At g (life g) := by
  have ha := hat h
  have hl := at_stage ha hpc rfl rfl
  rw [hl] at ha
  have hborn := still_born .gone ha (by simp) (by simp)
  refine stage_move h .gone hat (Or.inr (by rw [hl]; rfl)) goto_others (Or.inr (by rw [hpc]; rfl))
    ?_ (Or.inl rfl) (fun hx => (by cases hx)) (fun g hg => ?_) ?_
  · rw [goto_own]
    rcases hout with rfl | rfl <;> rfl
  · refine ⟨Iff.rfl, Iff.rfl, ?_, rfl, count_other _ hg, rfl, id⟩
    show update s.deleted h true g = s.deleted g
    exact Function.update_of_ne hg _ _
  · refine ⟨hborn, ha.listed, ?_, ha.torn, ?_, fun u hu => (by cases hu), ha.called⟩
    · show update s.deleted h true h = true ↔ _
      simp
    · show (s.freed ++ [h]).count h = _
      rw [count_self, ha.freed]
      rfl

theorem taken_owned (hat : ∀ g, s.At g (life g)) {t h : Nat} {rest : List Nat} (hpc : s.pc t = .sweeping)
    (hhead : s.listHubs = h :: rest) (hnew : h ∉ rest) (hopen : s.bClosed h = false) :
    ∃ life : Nat → Life, ∀ g, (Registry.goto { s with listHubs := rest } t (.closing .closeAll h)).At g (life g) := by
  have ha := hat h
  have hl := at_listed ha (by rw [hhead]; simp) hopen
  rw [hl] at ha
  have hborn := still_born (.closing t) ha (by simp) (by simp)
  have hkept := still_kept (.closing t) ha (by simp) (by simp)
  refine stage_move h (.closing t) hat (Or.inl (by rw [hl]; rfl)) goto_others (Or.inl (by rw [hpc]; rfl))
    (by rw [goto_own]; rfl) (Or.inr rfl) (fun _ => ⟨.closeAll, goto_own⟩) (fun g hg => ?_) ?_
  · refine ⟨Iff.rfl, ?_, rfl, rfl, rfl, rfl, id⟩
    show g ∈ rest ↔ g ∈ s.listHubs
    rw [hhead]
    simp [hg]
  · refine ⟨hborn, ?_, hkept, ha.torn, ha.freed, fun u hu => (by cases hu), ha.called⟩
    show h ∈ rest ↔ _
    simp [Life.isListed, hnew]

end Moves

theorem step_owned (s : Registry) (e : RegEv) (ho : s.Owned) (hok : CallsOnce s e ∧ Apart s e) :
    (regStep s e).Owned := by
  obtain ⟨life, hat⟩ := ho.at_
  obtain ⟨honce, hclose, hsweep⟩ := hok
  -- neither a listed hub nor a held one has been deleted
  have hlisted : ∀ h ∈ s.listHubs, s.deleted h = false := fun h hm => live_kept (hat h) fun hg => by
    have hl := (hat h).listed.mp hm
    rw [hg] at hl
    cases hl
  have hheld : ∀ {t h l}, (s.pc t).hub = some h → (s.pc t).stage t = some l → l ≠ .gone → s.deleted h = false :=
    fun {t h l} hh hst hl => live_kept (hat h) (at_stage (hat h) rfl hh hst ▸ hl)
  have hall : ∀ t, s.late ++ (s.listHubs.filter s.deleted).map (fun g => (t, g)) = [] :=
    fun t => (touch_late t hlisted).trans ho.late
  have hone : ∀ t {h}, s.deleted h = false → s.late ++ ([h].filter s.deleted).map (fun g => (t, g)) = [] := by
    intro t h hd
    refine (touch_late t fun g hg => ?_).trans ho.late
    obtain rfl := List.mem_singleton.mp hg
    exact hd
  have hout := regStep_cases s e
  revert hout
  generalize regStep s e = s'
  intro hout
  cases hout with
  | quiet _ answers called late hpass hpump hl hc =>
    refine ⟨⟨life, fun h => ?_⟩, ho.nodup, ?_⟩
    · have ha := hat h
      refine ⟨ha.born, ha.place, ha.fits, ha.listed, ha.deleted, ha.torn, ha.freed, ha.closed, fun hcl => ?_⟩
      rcases hc with rfl | ⟨t, g, -, rfl⟩
      · exact ha.called hcl
      · exact List.mem_append_left _ (ha.called hcl)
    · rcases hl with rfl | ⟨t, rfl⟩ | ⟨t, h, he, hpc, hpub, rfl⟩
      · exact ho.late
      · exact hall t
      · exact hone t (hlisted h (hclose t h he hpc hpub))
  | checked t address hpc hne hfree =>
    exact ⟨owned_idle hat goto_others (by rw [hpc]; rfl) (by rw [goto_own]; rfl)
      fun g => ⟨Iff.rfl, Iff.rfl, rfl, rfl, rfl, rfl, id⟩, ho.nodup, hall t⟩
  | unstarted t cp address hpc =>
    exact ⟨owned_idle hat goto_others (by rw [hpc]; rfl) (by rw [goto_own]; rfl)
      fun g => ⟨Iff.rfl, Iff.rfl, rfl, rfl, rfl, rfl, id⟩, ho.nodup, ho.late⟩
  | sweeping t hpc =>
    exact ⟨owned_idle hat goto_others (by rw [hpc]; rfl) (by rw [goto_own]; rfl)
      fun g => ⟨Iff.rfl, Iff.rfl, rfl, rfl, rfl, rfl, id⟩, ho.nodup, ho.late⟩
  | swept t hpc =>
    exact ⟨owned_idle hat goto_others (by rw [hpc]; rfl) (by rw [goto_own]; rfl)
      fun g => ⟨Iff.rfl, Iff.rfl, rfl, rfl, rfl, rfl, id⟩, ho.nodup, ho.late⟩
  | spawned t cp address hpc => exact ⟨spawned_owned hat cp hpc, ho.nodup, ho.late⟩
  | backedOut t h hpc => exact ⟨backedOut_owned hat hpc, ho.nodup, hall t⟩
  | published t h hpc hfree =>
    have hnl : h ∉ s.listHubs := fun hm => by
      have hl := (hat h).listed.mp hm
      rw [at_stage (hat h) hpc rfl rfl] at hl
      cases hl
    refine ⟨published_owned hat hpc, List.nodup_append.mpr ⟨ho.nodup, by simp, fun a hm b hb he => ?_⟩, hall t⟩
    obtain rfl := List.mem_singleton.mp hb
    exact hnl (he ▸ hm)
  | latched t h hpc hpub hdel hopen =>
    exact ⟨latched_owned hat hpc (hclose t h rfl hpc hpub) hopen, ho.nodup, hone t hdel⟩
  | removed t h hpc =>
    have hd : s.deleted h = false := hheld (by rw [hpc]; rfl) (by rw [hpc]; rfl) Life.noConfusion
    exact ⟨removed_owned hat hpc ho.nodup, ho.nodup.erase h, hone t hd⟩
  | passed t c h bStopped hpc hpass =>
    have hd : s.deleted h = false := hheld (by rw [hpc]; rfl) (by rw [hpc]; rfl) Life.noConfusion
    exact ⟨torn_owned hat s.hasPump s.running hpc, ho.nodup, hone t hd⟩
  | torn t c h bStopped hpc hpump howner =>
    have hd : s.deleted h = false := hheld (by rw [hpc]; rfl) (by rw [hpc]; rfl) Life.noConfusion
    exact ⟨torn_owned hat _ _ hpc, ho.nodup, hone t hd⟩
  | ended h hpump =>
    refine ⟨⟨life, fun g => ?_⟩, ho.nodup, ho.late⟩
    have ha := hat g
    exact ⟨ha.born, ha.place, ha.fits, ha.listed, ha.deleted, ha.torn, ha.freed, ha.closed, ha.called⟩
  | freed t c h pc answers hpc hout =>
    have hd : s.deleted h = false := hheld (by rw [hpc]; rfl) (by rw [hpc]; rfl) Life.noConfusion
    exact ⟨freed_owned hat answers hpc hout, ho.nodup, hone t hd⟩
  | taken t h rest hpc hhead =>
    have hnd := List.nodup_cons.mp (hhead ▸ ho.nodup)
    exact ⟨taken_owned hat hpc hhead hnd.1 (hsweep t h rest rfl hpc hhead), hnd.2, ho.late⟩

/-! ## Runs -/

theorem empty_owned : Registry.Owned .empty := by
  refine ⟨⟨fun _ => .unborn, fun h => ⟨?_, fun t => ?_, fun t ht => (by cases ht), ?_, ?_, rfl, rfl, fun t ht => (by cases ht),
    fun hc => (by cases hc)⟩⟩, List.nodup_nil, rfl⟩
  · simp [Registry.empty]
  · simp [Registry.empty, Pc.hub, Life.holder]
  · simp [Registry.empty, Life.isListed]
  · simp [Registry.empty]

/-- While clients call Close at most once a hub, and Close and CloseAllHubs keep off each
    other's hubs, every hub is torn down and deleted by exactly one thread, and no thread
    comes back to it. -/
theorem torn_once (es : List RegEv) (hcalls : Each regStep CallsOnce .empty es) (hapart : Each regStep Apart .empty es) :
    Always regStep Registry.TornOnce .empty es :=
  (always_of_each step_owned empty_owned fun k e hk => ⟨hcalls k e hk, hapart k e hk⟩).mono fun _ ho => ho.tornOnce

/-- One hub created, and closed by its client. -/
theorem torn_once_closed :
    Always regStep Registry.TornOnce .empty
      [.createHub 0 (L "A"), .spawn 0 true false, .publish 0, .close 0 0, .removeHub 0, .closeInternal 0 true, .delete 0] := by
  refine torn_once _ ?_ ?_
  · refine each_cons.mpr ⟨?_, each_cons.mpr ⟨?_, each_cons.mpr ⟨?_, each_cons.mpr ⟨?_, each_cons.mpr ⟨?_,
      each_cons.mpr ⟨?_, each_cons.mpr ⟨?_, each_nil⟩⟩⟩⟩⟩⟩⟩ <;> intro t h he <;> cases he
    intro _ _
    decide
  · refine each_cons.mpr ⟨?_, each_cons.mpr ⟨?_, each_cons.mpr ⟨?_, each_cons.mpr ⟨?_, each_cons.mpr ⟨?_,
      each_cons.mpr ⟨?_, each_cons.mpr ⟨?_, each_nil⟩⟩⟩⟩⟩⟩⟩ <;>
      refine ⟨fun t h he => ?_, fun t h rest he => ?_⟩ <;> cases he
    intro _ _
    decide

/-- Close has its latch when CloseAllHubs takes the same hub: both tear it down. -/
theorem closed_twice :
    ¬ ∀ es, Each regStep CallsOnce .empty es → Always regStep Registry.TornOnce .empty es := by
  intro hall
  have hcalls : Each regStep CallsOnce .empty [.createHub 0 (L "A"), .spawn 0 true false, .publish 0, .close 0 0,
      .closeAllHubs 1, .removeHead 1, .removeHub 0, .closeInternal 0 true, .closeInternal 1 true] := by
    refine each_cons.mpr ⟨?_, each_cons.mpr ⟨?_, each_cons.mpr ⟨?_, each_cons.mpr ⟨?_, each_cons.mpr ⟨?_,
      each_cons.mpr ⟨?_, each_cons.mpr ⟨?_, each_cons.mpr ⟨?_, each_cons.mpr ⟨?_, each_nil⟩⟩⟩⟩⟩⟩⟩⟩⟩ <;>
      intro t h he <;> cases he
    intro _ _
    decide
  have honce := ((hall _ hcalls).last.once 0).1
  revert honce
  decide

end TargetFacade
