/-
  TargetFacade.Lib.Ledger — a store, and the log of what was put into it and taken out of it.

  `Balanced puts takes store log`: what is in the store together with what the log's entries took
  is what they put in. An entry that only puts keeps it (`balanced_put`), and so does one that
  takes a thing that is there (`balanced_take`). Counted by any kind, the store and the taken
  make up the put (`countP_balanced`); where an entry moves at most one thing of a kind, that is a
  count of entries (`countP_flatMap_one`).
-/

import TargetFacade.Lib.Bag

namespace Ledger

universe u v

open Bag

variable {α : Type u} {ε : Type v} (puts takes : ε → List α)

def Balanced (store : List α) (log : List ε) : Prop := (store ++ log.flatMap takes).Perm (log.flatMap puts)

variable {puts takes}

theorem balanced_nil : Balanced puts takes [] [] := List.Perm.refl _

theorem balanced_put {store : List α} {log : List ε} (h : Balanced puts takes store log) {e : ε} (ht : takes e = []) :
    Balanced puts takes (store ++ puts e) (log ++ [e]) := by
  unfold Balanced at h ⊢
  rw [List.flatMap_append, List.flatMap_append, List.flatMap_singleton, List.flatMap_singleton, ht, List.append_nil,
    List.append_assoc]
  refine List.Perm.trans ?_ (h.append_right (puts e))
  rw [List.append_assoc]
  exact List.perm_append_comm.append_left store

theorem balanced_take [BEq α] [LawfulBEq α] {store : List α} {log : List ε} (h : Balanced puts takes store log) {e : ε}
    {x : α} (hx : x ∈ store) (ht : takes e = [x]) : Balanced puts takes (store.erase x ++ puts e) (log ++ [e]) := by
  unfold Balanced at h ⊢
  rw [List.flatMap_append, List.flatMap_append, List.flatMap_singleton, List.flatMap_singleton, ht]
  refine List.Perm.trans ?_ (h.append_right (puts e))
  -- the taken thing goes back to the head of the store
  have hback : (store.erase x ++ (log.flatMap takes ++ [x])).Perm (store ++ log.flatMap takes) := by
    refine List.Perm.trans ?_ ((List.perm_cons_erase hx).symm.append_right _)
    rw [← List.append_assoc]
    exact List.perm_append_singleton x _
  refine List.Perm.trans ?_ (hback.append_right (puts e))
  rw [List.append_assoc, List.append_assoc]
  exact List.perm_append_comm.append_left (store.erase x)

theorem countP_balanced {store : List α} {log : List ε} (h : Balanced puts takes store log) (p : α → Bool) :
    store.countP p + (log.flatMap takes).countP p = (log.flatMap puts).countP p := by
  rw [← List.countP_append]
  exact h.countP_eq p

/-- Whatever is in the store was put there. -/
theorem mem_put {store : List α} {log : List ε} (h : Balanced puts takes store log) {x : α} (hx : x ∈ store) :
    ∃ e ∈ log, x ∈ puts e :=
  List.mem_flatMap.mp (h.mem_iff.mp (List.mem_append_left _ hx))

theorem countP_flatMap_one {f : ε → List α} {p : α → Bool} {q : ε → Bool} :
    ∀ {log : List ε}, (∀ e ∈ log, (f e).countP p = ifOne (q e)) → (log.flatMap f).countP p = log.countP q := by
  intro log
  induction log with
  | nil => intro _; rfl
  | cons e log ih =>
    intro hf
    rw [List.flatMap_cons, List.countP_append, List.countP_cons, hf e List.mem_cons_self,
      ih fun e' he' => hf e' (List.mem_cons_of_mem e he'), Nat.add_comm]
    cases q e <;> rfl

/-- Entries of two kinds, none of which is of both. -/
theorem countP_flatMap_two {f : ε → List α} {p : α → Bool} {q r : ε → Bool} {log : List ε}
    (hf : ∀ e ∈ log, (f e).countP p = ifOne (q e) + ifOne (r e)) :
    (log.flatMap f).countP p = log.countP q + log.countP r := by
  induction log with
  | nil => rfl
  | cons e log ih =>
    have htail := ih fun e' he' => hf e' (List.mem_cons_of_mem e he')
    rw [List.flatMap_cons, List.countP_append, List.countP_cons, List.countP_cons, hf e List.mem_cons_self, htail]
    cases q e <;> cases r e <;> simp only [ifOne_true, ifOne_false, if_true, Bool.false_eq_true, if_false] <;> omega

/-- Entries that are each of exactly one of two kinds, or of neither. -/
theorem countP_two {p q r : ε → Bool} {log : List ε} (h : ∀ e ∈ log, ifOne (p e) = ifOne (q e) + ifOne (r e)) :
    log.countP p = log.countP q + log.countP r := by
  rw [← countP_flatMap_two (f := fun e => [e]) fun e he => List.countP_singleton.trans (h e he), List.flatMap_singleton']

end Ledger
