/-
  TargetFacade.Lib.Course — a value that changes as it likes, and the calls that read it.

  `value t` is what the value is at moment `t`, and `call k` the moment of the `k`-th call: no
  call is before the one before it, and what happens between two calls is not limited. `seen k`
  is what the `k`-th call finds. `Once i j P` is `P` at some moment from the `i`-th call to the
  `j`-th, and `Throughout i j P` is `P` at all of them.
-/

import Mathlib.Tactic.ByContra

universe u v

structure Course (α : Type u) where
  value : Nat → α
  call : Nat → Nat
  forward : ∀ k, call k ≤ call (k + 1)

namespace Course

variable {α : Type u} {β : Type v} (c : Course α)

def seen (k : Nat) : α := c.value (c.call k)

def Once (i j : Nat) (P : α → Prop) : Prop := ∃ t, c.call i ≤ t ∧ t ≤ c.call j ∧ P (c.value t)

def Throughout (i j : Nat) (P : α → Prop) : Prop := ∀ t, c.call i ≤ t → t ≤ c.call j → P (c.value t)

variable {c}

theorem call_mono {i j : Nat} (h : i ≤ j) : c.call i ≤ c.call j := by
  induction h with
  | refl => exact Nat.le_refl _
  | step _ ih => exact Nat.le_trans ih (c.forward _)

theorem once_seen {i j k : Nat} {P : α → Prop} (hi : i ≤ k) (hj : k ≤ j) (h : P (c.seen k)) : c.Once i j P :=
  ⟨c.call k, call_mono hi, call_mono hj, h⟩

theorem Throughout.seen {i j k : Nat} {P : α → Prop} (h : c.Throughout i j P) (hi : i ≤ k) (hj : k ≤ j) : P (c.seen k) :=
  h _ (call_mono hi) (call_mono hj)

theorem once_not {i j : Nat} {P : α → Prop} : c.Once i j (fun x => ¬ P x) ↔ ¬ c.Throughout i j P := by
  constructor
  · rintro ⟨t, hi, hj, hP⟩ hall
    exact hP (hall t hi hj)
  · intro h
    by_contra hno
    refine h fun t hi hj => ?_
    by_contra hP
    exact hno ⟨t, hi, hj, hP⟩

/-- What holds of each turn that is reached, from the `i`-th on: of the first, and of those that follow it. -/
theorem reached_succ {P Q : Nat → Prop} {n i : Nat} : (∀ j < n + 1, (∀ k < j, P (i + k)) → Q (i + j)) ↔
    Q i ∧ (P i → ∀ j < n, (∀ k < j, P (i + 1 + k)) → Q (i + 1 + j)) := by
  have hshift (j : Nat) : i + 1 + j = i + (j + 1) := by omega
  simp only [hshift]
  constructor
  · intro h
    refine ⟨h 0 (Nat.succ_pos n) fun k hk => absurd hk (Nat.not_lt_zero k), fun hP j hj hall => ?_⟩
    refine h (j + 1) (Nat.succ_lt_succ hj) fun k hk => ?_
    cases k with
    | zero => exact hP
    | succ k => exact hall k (Nat.lt_of_succ_lt_succ hk)
  · rintro ⟨hfirst, hrest⟩ j hj hall
    cases j with
    | zero => exact hfirst
    | succ j =>
      refine hrest (hall 0 (Nat.succ_pos j)) j (Nat.lt_of_succ_lt_succ hj) fun k hk => ?_
      exact hall (k + 1) (Nat.succ_lt_succ hk)

end Course
