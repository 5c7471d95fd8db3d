/-
  TargetFacade.Endpoint.Relation — where one address stands to another (FacadeEndpoint.cpp:
  IsBelow, ClassifyPeer).

  The code compares units up to a length and then looks for one dot. On addresses that are no
  patterns that is the order of their dotted components: above is a proper prefix
  (`classify_order`), so what the two ends of a link find out agrees.
-/

import TargetFacade.Endpoint
import TargetFacade.Lib.Components

namespace TargetFacade

open Components

/-- An address that is not a pattern. -/
abbrev LiteralAddress := { csAddress : WStr // csAddress ≠ [] ∧ IsPattern csAddress = false }

/-- The components between the dots. -/
def LiteralAddress.parts (a : LiteralAddress) : List WStr := a.1.splitOn 46

theorem isBelow_iff {parent child : WStr} (h : parent ≠ []) : IsBelow parent child = true ↔ ∃ s, child = parent ++ 46 :: s := by
  have hne : parent.isEmpty = false := by simpa using h
  unfold IsBelow
  rw [hne, Bool.not_false, Bool.true_and, Bool.and_eq_true, List.isPrefixOf_iff_prefix, beq_iff_eq]
  constructor
  · rintro ⟨⟨r, rfl⟩, hdot⟩
    rw [List.getElem?_append_right (Nat.le_refl _), Nat.sub_self] at hdot
    cases r with
    | nil => cases hdot
    | cons d s =>
      obtain rfl : d = 46 := Option.some.inj hdot
      exact ⟨s, rfl⟩
  · rintro ⟨s, rfl⟩
    refine ⟨List.prefix_append _ _, ?_⟩
    rw [List.getElem?_append_right (Nat.le_refl _), Nat.sub_self]
    rfl

theorem isBelow_above (a b : LiteralAddress) : IsBelow a.1 b.1 = true ↔ Above a.parts b.parts := by
  rw [isBelow_iff a.2.1]
  exact above_components_iff.symm

/-- The relation of two addresses, by their components. -/
theorem classify_cases (a b : LiteralAddress) :
    (a = b ∧ ClassifyPeer a.1 b.1 = .self) ∨ (Above a.parts b.parts ∧ ClassifyPeer a.1 b.1 = .descendant) ∨
    (Above b.parts a.parts ∧ ClassifyPeer a.1 b.1 = .ancestor) ∨
    (a ≠ b ∧ ¬ Above a.parts b.parts ∧ ¬ Above b.parts a.parts ∧ ClassifyPeer a.1 b.1 = .unrelated) := by
  have ha : a.1.isEmpty = false := by simpa using a.2.1
  have hb : b.1.isEmpty = false := by simpa using b.2.1
  unfold ClassifyPeer
  rw [ha, hb, b.2.2, ← isBelow_above a b, ← isBelow_above b a]
  simp only [Bool.or_self, Bool.false_eq_true, if_false]
  by_cases hself : a = b
  · subst hself
    exact Or.inl ⟨rfl, by simp⟩
  have hne : (a.1 == b.1) = false := by simpa using fun h => hself (Subtype.ext h)
  simp only [hne, Bool.false_eq_true, if_false]
  by_cases hdown : IsBelow a.1 b.1 = true
  · exact Or.inr (Or.inl ⟨hdown, if_pos hdown⟩)
  rw [if_neg hdown]
  by_cases hup : IsBelow b.1 a.1 = true
  · exact Or.inr (Or.inr (Or.inl ⟨hup, if_pos hup⟩))
  · exact Or.inr (Or.inr (Or.inr ⟨hself, hdown, hup, if_neg hup⟩))

/-- What ClassifyPeer says of a pair is one of the four, each exactly under its condition on the components. -/
structure Classified (a b : LiteralAddress) : Prop where
  self_iff : ClassifyPeer a.1 b.1 = .self ↔ a = b
  descendant_iff : ClassifyPeer a.1 b.1 = .descendant ↔ Above a.parts b.parts
  ancestor_iff : ClassifyPeer a.1 b.1 = .ancestor ↔ Above b.parts a.parts
  unrelated_iff : ClassifyPeer a.1 b.1 = .unrelated ↔ a ≠ b ∧ ¬ Above a.parts b.parts ∧ ¬ Above b.parts a.parts

theorem not_above_self (a : LiteralAddress) : ¬ Above a.parts a.parts := fun h => h.2 rfl

theorem classified (a b : LiteralAddress) : Classified a b := by
  rcases classify_cases a b with ⟨rfl, hc⟩ | ⟨hdown, hc⟩ | ⟨hup, hc⟩ | ⟨hne, hdown, hup, hc⟩
  · have hno := not_above_self a
    constructor <;> simp [hc, hno]
  · have hne : a ≠ b := fun h => not_above_self b (h ▸ hdown)
    have hno := hdown.asymm
    constructor <;> simp [hc, hne, hdown, hno]
  · have hne : a ≠ b := fun h => not_above_self b (h ▸ hup)
    have hno := hup.asymm
    constructor <;> simp [hc, hne, hup, hno]
  · constructor <;> simp [hc, hne, hdown, hup]

/-- The classification is the order of the components, so the two ends of a link agree. -/
theorem classify_order (a b : LiteralAddress) :
    Classified a b ∧
    (ClassifyPeer a.1 b.1 = .descendant ↔ ClassifyPeer b.1 a.1 = .ancestor) ∧
    (ClassifyPeer a.1 b.1 = .unrelated ↔ ClassifyPeer b.1 a.1 = .unrelated) ∧
    ∀ c : LiteralAddress, ClassifyPeer a.1 b.1 = .descendant → ClassifyPeer b.1 c.1 = .descendant →
      ClassifyPeer a.1 c.1 = .descendant := by
  refine ⟨classified a b, ?_, ?_, fun c hab hbc => ?_⟩
  · rw [(classified a b).descendant_iff, (classified b a).ancestor_iff]
  · rw [(classified a b).unrelated_iff, (classified b a).unrelated_iff]
    exact ⟨fun ⟨h1, h2, h3⟩ => ⟨h1.symm, h3, h2⟩, fun ⟨h1, h2, h3⟩ => ⟨h1.symm, h3, h2⟩⟩
  · have h1 := (classified a b).descendant_iff.mp hab
    have h2 := (classified b c).descendant_iff.mp hbc
    exact (classified a c).descendant_iff.mpr (h1.trans h2)

end TargetFacade
