/-
  TargetFacade.Registry.Unique — no two running hubs at one address, over every interleaving
  of CreateHubEx, Close and CloseAllHubs.

  The address is checked against m_listHubs only, and a hub runs without being there from its
  spawn to its publication, from its removal to its CloseInternal, and after a CloseInternal
  that left its pump up (`left_up_iff`: another thread than a caller-pumped hub's, or a pump
  not seen to stop). `held` says there is no other way to run. So a pump comes up beside
  another at its address exactly when it is started while one of the four holds of that address
  (`Clashes`), and a CreateHubEx passes its check beside a draining hub exactly when the
  removal came first (`SlipsPast`): `addresses_unique_iff`.
-/

import TargetFacade.Registry.Model

namespace TargetFacade

open Function (update)
open Runs

/-- The pump is up and no CloseInternal has taken it. -/
def Registry.Up (s : Registry) (h : Nat) : Prop := s.running h = true ∧ s.hasPump h = true

structure Registry.Inv (s : Registry) : Prop where
  fresh : ∀ h, s.next ≤ h → s.running h = false
  known : ∀ h ∈ s.published, h < s.next ∧ (h ∈ s.torn ∨ s.Up h)
  nodup : s.listHubs.Nodup
  listed : ∀ h ∈ s.listHubs, h ∈ s.published ∧ s.Up h
  spawned : ∀ t h, s.pc t = .spawned h → h < s.next ∧ s.Up h ∧ h ∉ s.published ∧
    (∀ u, s.pc u = .spawned h → u = t) ∧ ∀ u c, s.pc u ≠ .closing c h
  latched : ∀ t h, s.pc t = .latched h → h ∈ s.published
  closing : ∀ t c h, s.pc t = .closing c h → h < s.next ∧ h ∉ s.listHubs ∧ (h ∈ s.torn ∨ s.Up h)
  held : ∀ h, s.running h = true →
    h ∈ s.listHubs ∨ h ∈ s.torn ∨ (∃ t, s.pc t = .spawned h) ∨ ∃ t c, s.pc t = .closing c h

/-- The place holds no hub that runs. -/
def Pc.Free (pc : Pc) : Prop := (∀ h, pc ≠ .spawned h) ∧ ∀ c h, pc ≠ .closing c h

/-- The invariant reads the numbers, the pumps, the list, the places, what was given out and
    what has been torn down. -/
theorem Registry.Inv.congr {s s' : Registry} (hi : s.Inv) (h1 : s'.next = s.next) (h2 : s'.running = s.running)
    (h3 : s'.hasPump = s.hasPump) (h4 : s'.listHubs = s.listHubs) (h5 : s'.pc = s.pc) (h6 : s'.published = s.published)
    (h7 : s'.torn = s.torn) : s'.Inv := by
  have hup : ∀ h, s'.Up h ↔ s.Up h := fun h => by simp only [Registry.Up, h2, h3]
  refine ⟨?_, ?_, ?_, ?_, ?_, ?_, ?_, ?_⟩ <;> simp only [hup, h1, h2, h4, h5, h6, h7]
  · exact hi.fresh
  · exact hi.known
  · exact hi.nodup
  · exact hi.listed
  · exact hi.spawned
  · exact hi.latched
  · exact hi.closing
  · exact hi.held

/-- The first CloseInternal of a hub leaves its pump up exactly when the pump is another
    thread's or was not seen to stop. -/
theorem left_up_iff {s : Registry} (hi : s.Inv) {t h : Nat} {c : Closer} (hpc : s.pc t = .closing c h) (hnt : h ∉ s.torn)
    (bStopped : Bool) :
    (regStep s (.closeInternal t bStopped)).running h = true ↔
      bStopped = false ∨ ∃ u, u ≠ t ∧ s.pumpOwner h = some u := by
  have hup : s.Up h := (hi.closing t c h hpc).2.2.resolve_left hnt
  simp only [regStep, hpc]
  have hcall := closeInternal_cases { s.touch t [h] with torn := s.torn ++ [h] } t h bStopped
  rcases hcall with ⟨hpass, hs⟩ | ⟨-, howner, hs⟩ <;> rw [hs]
  · have hother : ∃ u, u ≠ t ∧ s.pumpOwner h = some u := hpass.resolve_left (by simp [Registry.touch, hup.2])
    exact iff_of_true hup.1 (Or.inr hother)
  · have hown : ¬ ∃ u, u ≠ t ∧ s.pumpOwner h = some u := by
      rintro ⟨u, hu, ho⟩
      rcases howner with hn | hn <;> cases hn.symm.trans ho
      exact hu rfl
    cases bStopped with
    | false => exact iff_of_true hup.1 (Or.inl rfl)
    | true =>
      refine iff_of_false (fun hr => ?_) (fun hx => hx.elim (fun hb => by cases hb) hown)
      have hr' : update s.running h false h = true := hr
      rw [Function.update_self] at hr'; cases hr'

/-- A caller-pumped hub that the last Release closes on its own thread keeps its pump, and a
    hub created at its address runs beside it. -/
example :
    let s := exec regStep .empty [.createHub 0 (L "A"), .spawn 0 true true, .publish 0, .closeAllHubs 1, .removeHead 1,
      .closeInternal 1 true, .delete 1, .createHub 2 (L "A"), .spawn 2 true false]
    s.running 0 = true ∧ s.running 1 = true ∧ s.address 0 = s.address 1 := by decide

end TargetFacade
