/-
  TargetFacade.Lib.Bag — a list used as a bag: what is put in at the end and taken out by
  value, and how many of a kind are in it.

  A thing that moves from one bag to another is counted once throughout when every move
  takes it out of the bag it was in (`countP_take`) and puts it in the next (`countP_put`);
  a kind that is counted at most once has at most one member (`eq_of_countP_le_one`).
-/

import Mathlib.Data.List.Basic

namespace Bag

universe u v

variable {α : Type u} {β : Type v}

def ifOne (b : Bool) : Nat := if b then 1 else 0

@[simp] theorem ifOne_true : ifOne true = 1 := rfl
@[simp] theorem ifOne_false : ifOne false = 0 := rfl

theorem countP_put (p : α → Bool) (l : List α) (a : α) : (l ++ [a]).countP p = l.countP p + ifOne (p a) := by
  rw [List.countP_append, List.countP_singleton]
  rfl

theorem countP_take [BEq α] [LawfulBEq α] (p : α → Bool) {l : List α} {a : α} (h : a ∈ l) :
    (l.erase a).countP p + ifOne (p a) = l.countP p := by
  have hperm := List.perm_cons_erase h
  rw [hperm.countP_eq p, List.countP_cons]
  rfl

theorem erase_put [BEq α] [LawfulBEq α] {l : List α} {a : α} (h : a ∉ l) : (l ++ [a]).erase a = l := by
  rw [List.erase_append_right _ h, List.erase_cons_head, List.append_nil]

theorem countP_of_none {p : α → Bool} {l : List α} (h : ∀ a ∈ l, p a = false) : l.countP p = 0 := by
  rw [List.countP_eq_zero]
  intro a ha hp
  rw [h a ha] at hp
  cases hp

theorem countP_pos {p : α → Bool} {l : List α} {a : α} (h : a ∈ l) (hp : p a = true) : 1 ≤ l.countP p :=
  List.countP_pos_iff.mpr ⟨a, h, hp⟩

theorem exists_of_countP {p : α → Bool} {l : List α} (h : 1 ≤ l.countP p) : ∃ a ∈ l, p a = true :=
  List.countP_pos_iff.mp h

/-- A change that makes nothing one of the kind does not raise its count. -/
theorem countP_map_le {p : α → Bool} {f : α → α} (h : ∀ a, p (f a) = true → p a = true) (l : List α) :
    (l.map f).countP p ≤ l.countP p := by
  rw [List.countP_map]
  exact List.countP_mono_left fun a _ ha => h a ha

theorem eq_of_countP_le_one {p : α → Bool} {l : List α} (h : l.countP p ≤ 1) {a b : α} (ha : a ∈ l) (hb : b ∈ l)
    (hpa : p a = true) (hpb : p b = true) : a = b := by
  induction l with
  | nil => cases ha
  | cons c l ih =>
    rw [List.countP_cons] at h
    have hrest : ∀ d ∈ l, p d = true → p c = false := by
      intro d hd hpd
      have hpos := countP_pos hd hpd
      cases hc : p c with
      | false => rfl
      | true => rw [hc, if_pos rfl] at h; omega
    rcases List.mem_cons.mp ha with hac | hal
    · rcases List.mem_cons.mp hb with hbc | hbl
      · rw [hac, hbc]
      · rw [hac, hrest b hbl hpb] at hpa; cases hpa
    · rcases List.mem_cons.mp hb with hbc | hbl
      · rw [hbc, hrest a hal hpa] at hpb; cases hpb
      · exact ih (by omega) hal hbl

end Bag
