/-
  TargetFacade.Lib.Components — the components of a text between its separators, empty ones
  included, and the proper-prefix order on them.

  `above_components_iff`: the components of one text begin another's, and are not all of them,
  exactly when the other is the one, a separator and a rest.
-/

import Mathlib.Data.List.Infix

namespace Components

universe u

/-- A proper prefix. -/
def Above {β : Type u} (l m : List β) : Prop := l <+: m ∧ l ≠ m

section Order

variable {β : Type u} {l m n : List β}

theorem above_iff : Above l m ↔ ∃ r, r ≠ [] ∧ l ++ r = m := by
  constructor
  · rintro ⟨⟨r, hr⟩, hne⟩
    refine ⟨r, fun hnil => hne ?_, hr⟩
    rw [← hr, hnil, List.append_nil]
  · rintro ⟨r, hr, rfl⟩
    refine ⟨List.prefix_append l r, fun h => hr ?_⟩
    exact List.self_eq_append_right.mp h

theorem Above.length_lt (h : Above l m) : l.length < m.length := by
  obtain ⟨r, hr, rfl⟩ := above_iff.mp h
  rw [List.length_append]
  exact Nat.lt_add_of_pos_right (List.length_pos_of_ne_nil hr)

theorem Above.trans (h : Above l m) (h' : Above m n) : Above l n := by
  refine ⟨h.1.trans h'.1, fun heq => ?_⟩
  have hlt := Nat.lt_trans h.length_lt h'.length_lt
  rw [heq] at hlt
  exact Nat.lt_irrefl _ hlt

theorem Above.asymm (h : Above l m) : ¬ Above m l := fun h' => Nat.lt_asymm h.length_lt h'.length_lt

end Order

section Texts

variable {α : Type u} (c : α)

theorem intercalate_append {ls ms : List (List α)} (hl : ls ≠ []) (hm : ms ≠ []) :
    [c].intercalate (ls ++ ms) = [c].intercalate ls ++ c :: [c].intercalate ms := by
  induction ls with
  | nil => exact absurd rfl hl
  | cons l ls ih =>
    cases ls with
    | nil =>
      rw [List.intercalate_singleton, List.singleton_append, List.intercalate_cons_of_ne_nil hm]
      simp
    | cons l' ls =>
      have hrest := ih (List.cons_ne_nil l' ls)
      rw [List.cons_append, List.intercalate_cons_of_ne_nil (by simp), hrest,
        List.intercalate_cons_of_ne_nil (List.cons_ne_nil l' ls)]
      simp

variable {c} [BEq α] [LawfulBEq α] {s t : List α}

theorem above_components_iff : Above (s.splitOn c) (t.splitOn c) ↔ ∃ u, t = s ++ c :: u := by
  rw [above_iff]
  constructor
  · rintro ⟨r, hr, h⟩
    refine ⟨[c].intercalate r, ?_⟩
    have ht : [c].intercalate (t.splitOn c) = t := List.intercalate_splitOn c
    rw [← ht, ← h, intercalate_append c (List.splitOn_ne_nil c s) hr, List.intercalate_splitOn]
  · rintro ⟨u, rfl⟩
    exact ⟨u.splitOn c, List.splitOn_ne_nil c u, (List.splitOn_append_cons_self s u).symm⟩

end Texts

end Components
