/-
  TargetFacade.Lib.InsMap — finite maps that keep the order their keys came in.

  A map is its keys in order and what is at each. `set` leaves a key where it is and puts a new
  one last; `remove` leaves the others as they stand. A list of entries with distinct keys is
  such a map (`ofEntries`): `put` on it is `set` and erasing an entry is `remove`, and no two
  lists are one map (`ofEntries_inj`).
-/

import Mathlib.Logic.Function.Basic
import TargetFacade.Lib.Assoc

universe u v

structure InsMap (α : Type u) (β : Type v) where
  order : List α
  get : α → Option β
  nodup : order.Nodup
  dom : ∀ k, k ∈ order ↔ (get k).isSome = true

namespace InsMap

open Function (update)
open Assoc

variable {α : Type u} {β : Type v}

@[ext] theorem ext {m m' : InsMap α β} (horder : m.order = m'.order) (hget : ∀ k, m.get k = m'.get k) : m = m' := by
  obtain ⟨o, g, _, _⟩ := m
  obtain ⟨o', g', _, _⟩ := m'
  obtain rfl : o = o' := horder
  obtain rfl : g = g' := funext hget
  rfl

def empty : InsMap α β where
  order := []
  get := fun _ => none
  nodup := List.nodup_nil
  dom := fun k => by simp

variable [DecidableEq α]

def set (k : α) (v : β) (m : InsMap α β) : InsMap α β where
  order := if k ∈ m.order then m.order else m.order ++ [k]
  get := update m.get k (some v)
  nodup := by
    split
    · exact m.nodup
    · rename_i hk
      exact List.nodup_append.mpr ⟨m.nodup, by simp, fun a ha b hb he => hk (List.mem_singleton.mp hb ▸ he ▸ ha)⟩
  dom := fun j => by
    by_cases hj : j = k
    · subst hj
      rw [Function.update_self]
      split <;> simp_all
    · rw [Function.update_of_ne hj, ← m.dom j]
      split
      · rfl
      · simp [hj]

def remove (k : α) (m : InsMap α β) : InsMap α β where
  order := m.order.erase k
  get := update m.get k none
  nodup := m.nodup.erase k
  dom := fun j => by
    rw [m.nodup.mem_erase_iff]
    by_cases hj : j = k
    · subst hj
      simp
    · rw [Function.update_of_ne hj, ← m.dom j]
      simp [hj]

instance decidableMem (k : α) (m : InsMap α β) : Decidable (k ∈ m.order) := inferInstance

/-! ## Lists of entries -/

theorem lookup_head (e : α × β) (l : List (α × β)) (j : α) :
    (e :: l).lookup j = if j = e.1 then some e.2 else l.lookup j := by
  obtain ⟨k, v⟩ := e
  rw [List.lookup_cons]
  by_cases hj : j = k
  · have hb : (j == k) = true := by simpa using hj
    rw [hb, if_pos hj]
  · have hb : (j == k) = false := by simpa using hj
    rw [hb, if_neg hj]

theorem lookup_isSome {l : List (α × β)} {k : α} : (l.lookup k).isSome = true ↔ k ∈ keys l := by
  induction l with
  | nil => simp [keys]
  | cons e l ih =>
    rw [lookup_head]
    by_cases hk : k = e.1
    · simp [keys, hk]
    · rw [if_neg hk, ih]
      simp [keys, hk]

theorem lookup_put (k : α) (v : β) (l : List (α × β)) (j : α) :
    (put k v l).lookup j = if j = k then some v else l.lookup j := by
  induction l with
  | nil => exact lookup_head (k, v) [] j
  | cons e l ih =>
    unfold put
    by_cases he : e.1 = k
    · rw [if_pos he, lookup_head, lookup_head]
      by_cases hj : j = k
      · simp only [hj, if_true]
      · simp only [he, hj, if_false]
    · rw [if_neg he, lookup_head, lookup_head, ih]
      by_cases hj : j = e.1
      · subst hj
        simp only [he, if_true, if_false]
      · simp only [hj, if_false]

theorem lookup_erase {l : List (α × β)} (h : (keys l).Nodup) (k j : α) :
    (l.eraseP (decide <| ·.1 = k)).lookup j = if j = k then none else l.lookup j := by
  induction l with
  | nil => simp
  | cons e l ih =>
    obtain ⟨he, hl⟩ := List.nodup_cons.mp (show (e.1 :: keys l).Nodup from h)
    by_cases hk : e.1 = k
    · rw [List.eraseP_cons_of_pos (by simpa using hk), lookup_head]
      by_cases hj : j = k
      · have hnone : ¬ (l.lookup k).isSome = true := mt lookup_isSome.mp (hk ▸ he)
        rw [if_pos hj, hj]
        exact Option.not_isSome_iff_eq_none.mp hnone
      · simp only [hk, hj, if_false]
    · rw [List.eraseP_cons_of_neg (by simpa using hk), lookup_head, lookup_head, ih hl]
      by_cases hj : j = e.1
      · subst hj
        simp only [hk, if_true, if_false]
      · simp only [hj, if_false]

/-- The map of a list of entries. -/
def ofEntries (l : List (α × β)) (h : (keys l).Nodup) : InsMap α β where
  order := keys l
  get := fun k => l.lookup k
  nodup := h
  dom := fun _ => lookup_isSome.symm

theorem get_ofEntries {l : List (α × β)} (h : (keys l).Nodup) (k : α) :
    (ofEntries l h).get k = (l.find? (decide <| ·.1 = k)).map (·.2) := by
  show l.lookup k = _
  clear h
  induction l with
  | nil => rfl
  | cons e l ih =>
    rw [lookup_head, List.find?_cons]
    by_cases he : e.1 = k
    · rw [if_pos he.symm, decide_eq_true he]
      rfl
    · rw [if_neg (Ne.symm he), decide_eq_false he]
      exact ih

theorem ofEntries_put {l : List (α × β)} (h : (keys l).Nodup) (k : α) (v : β) :
    ofEntries (put k v l) (nodup_put v h) = (ofEntries l h).set k v := by
  refine ext ?_ fun j => ?_
  · exact keys_put k v l
  · show (put k v l).lookup j = update (fun k => l.lookup k) k (some v) j
    rw [lookup_put, Function.update_apply]

theorem keys_erase (l : List (α × β)) (k : α) : keys (l.eraseP (decide <| ·.1 = k)) = (keys l).erase k := by
  unfold keys
  rw [List.erase_eq_eraseP', List.eraseP_map]
  congr 2

theorem ofEntries_erase {l : List (α × β)} (h : (keys l).Nodup) (k : α) (h' : (keys (l.eraseP (decide <| ·.1 = k))).Nodup) :
    ofEntries (l.eraseP (decide <| ·.1 = k)) h' = (ofEntries l h).remove k := by
  refine ext ?_ fun j => ?_
  · exact keys_erase l k
  · show (l.eraseP (decide <| ·.1 = k)).lookup j = update (fun k => l.lookup k) k none j
    rw [lookup_erase h, Function.update_apply]

/-- The entries are its keys in order, each with what is there. -/
theorem entries_eq {l : List (α × β)} (h : (keys l).Nodup) :
    l.map some = (keys l).map fun k => (l.lookup k).map (k, ·) := by
  unfold keys
  rw [List.map_map]
  refine List.map_congr_left fun e he => ?_
  show some e = (l.lookup e.1).map (e.1, ·)
  rw [lookup_of_mem h he]
  rfl

theorem ofEntries_inj {l l' : List (α × β)} (h : (keys l).Nodup) (h' : (keys l').Nodup)
    (heq : ofEntries l h = ofEntries l' h') : l = l' := by
  have hkeys : keys l = keys l' := congrArg order heq
  have hget : (fun k => l.lookup k) = fun k => l'.lookup k := congrArg get heq
  have hsame : l.map some = l'.map some := by
    rw [entries_eq h, entries_eq h', hkeys]
    exact List.map_congr_left fun k _ => congrArg (Option.map (k, ·)) (congrFun hget k)
  exact List.map_injective_iff.mpr (fun _ _ h => Option.some.inj h) hsame

end InsMap
