/-
  TargetFacade.Lib.OrdMap — finite maps ordered by key, and putting one entry back.

  The maps are Std's extensional ordered trees, so two maps with the same entries are
  equal. `putBack m k old` is the rollback half of a write to one key: the entry becomes
  what `old` says it was, absent included. `putBack_insert` is the law a rollback needs:
  writing a key and putting back what was found there is no change.
-/

import Std.Data.ExtTreeMap
import Std.Data.ExtTreeSet

namespace OrdMap

universe u v w

abbrev Map (α : Type u) (β : Type v) [Ord α] := Std.ExtTreeMap α β
abbrev OSet (α : Type u) [Ord α] := Std.ExtTreeSet α

variable {α : Type u} {β : Type v} {γ : Type w} [Ord α] [Std.TransOrd α] [Std.LawfulEqOrd α]

theorem get_insert [DecidableEq α] (m : Map α β) (k a : α) (v : β) :
    (m.insert k v)[a]? = if k = a then some v else m[a]? := by
  simp [Std.ExtTreeMap.getElem?_insert, Std.LawfulEqCmp.compare_eq_iff_eq]

theorem get_erase [DecidableEq α] (m : Map α β) (k a : α) :
    (m.erase k)[a]? = if k = a then none else m[a]? := by
  simp [Std.ExtTreeMap.getElem?_erase, Std.LawfulEqCmp.compare_eq_iff_eq]

/-- What is found after an erase is another key's, and was there. -/
theorem get_of_erase [DecidableEq α] {m : Map α β} {k a : α} {v : β} (h : (m.erase k)[a]? = some v) :
    k ≠ a ∧ m[a]? = some v := by
  rw [get_erase] at h
  split at h
  · cases h
  · exact ⟨‹_›, h⟩

/-- What is found after an insert was put there, or is another key's and was there. -/
theorem get_of_insert [DecidableEq α] {m : Map α β} {k a : α} {v w : β} (h : (m.insert k v)[a]? = some w) :
    k = a ∧ v = w ∨ k ≠ a ∧ m[a]? = some w := by
  rw [get_insert] at h
  split at h
  · exact Or.inl ⟨‹_›, Option.some.inj h⟩
  · exact Or.inr ⟨‹_›, h⟩

theorem map_ext {m n : Map α β} (h : ∀ a : α, m[a]? = n[a]?) : m = n := Std.ExtTreeMap.ext_getElem? h

theorem erase_insert [DecidableEq α] (m : Map α β) (k : α) (v : β) : (m.insert k v).erase k = m.erase k := by
  apply map_ext
  intro a
  rw [get_erase, get_erase, get_insert]
  split <;> rfl

theorem erase_of_none [DecidableEq α] {m : Map α β} {k : α} (h : m[k]? = none) : m.erase k = m := by
  apply map_ext
  intro a
  rw [get_erase]
  split
  · rename_i he
    rw [← he, h]
  · rfl

/-! ## Sizes -/

section
omit [Std.LawfulEqOrd α]

theorem contains_of_get {m : Map α β} {k : α} {v : β} (h : m[k]? = some v) : m.contains k = true := by
  rw [Std.ExtTreeMap.contains_eq_isSome_getElem?, h]
  rfl

theorem size_insert_of_get {m : Map α β} {k : α} {v w : β} (h : m[k]? = some w) : (m.insert k v).size = m.size := by
  rw [Std.ExtTreeMap.size_insert, contains_of_get h, if_pos rfl]

theorem size_insert_of_not_mem {m : Map α β} {k : α} {v : β} (h : k ∉ m) : (m.insert k v).size = m.size + 1 := by
  rw [Std.ExtTreeMap.size_insert, if_neg (mt Std.ExtTreeMap.mem_iff_contains.mpr h)]

theorem size_erase_of_get {m : Map α β} {k : α} {v : β} (h : m[k]? = some v) : (m.erase k).size = m.size - 1 := by
  rw [Std.ExtTreeMap.size_erase, contains_of_get h, if_pos rfl]

theorem get_of_size_zero {m : Map α β} (h : m.size = 0) (k : α) : m[k]? = none := by
  rw [Std.ExtTreeMap.eq_empty_iff_size_eq_zero.mpr h]
  exact Std.ExtTreeMap.getElem?_empty

end

/-! ## Empty maps -/

theorem isEmpty_iff_get {m : Map α β} : m.isEmpty = true ↔ ∀ a : α, m[a]? = none := by
  rw [Std.ExtTreeMap.isEmpty_iff]
  constructor
  · intro h a
    subst h; exact Std.ExtTreeMap.getElem?_empty
  · intro h
    exact map_ext fun a => (h a).trans Std.ExtTreeMap.getElem?_empty.symm

theorem not_isEmpty_of_get {m : Map α β} {a : α} {v : β} (h : m[a]? = some v) : m.isEmpty = false := by
  cases he : m.isEmpty with
  | false => rfl
  | true => rw [isEmpty_iff_get.mp he a] at h; cases h

theorem insert_not_isEmpty (m : Map α β) (k : α) (v : β) : (m.insert k v).isEmpty = false :=
  not_isEmpty_of_get (Std.ExtTreeMap.getElem?_insert_self (k := k))

/-! ## Putting one entry back -/

/-- The entry of `k` becomes `old`, absent included. -/
def putBack (m : Map α β) (k : α) (old : Option β) : Map α β :=
  match old with
  | some v => m.insert k v
  | none => m.erase k

theorem get_putBack [DecidableEq α] (m : Map α β) (k a : α) (old : Option β) :
    (putBack m k old)[a]? = if k = a then old else m[a]? := by
  cases old with
  | some v => exact get_insert m k a v
  | none => exact get_erase m k a

/-- Writing one key and putting back what was there is no change. -/
theorem putBack_insert [DecidableEq α] (m : Map α β) (k : α) (v : β) : putBack (m.insert k v) k m[k]? = m := by
  apply map_ext
  intro a
  rw [get_putBack, get_insert]
  by_cases h : k = a
  · subst h; simp
  · simp [h]

/-- Writing a key is no change exactly when the key holds that value already. -/
theorem insert_eq_self [DecidableEq α] {m : Map α β} {k : α} {v : β} : m.insert k v = m ↔ m[k]? = some v := by
  constructor
  · intro h
    rw [← h]; exact Std.ExtTreeMap.getElem?_insert_self
  · intro h
    apply map_ext
    intro a
    rw [get_insert]
    by_cases e : k = a
    · subst e; simp [h]
    · simp [e]

/-! ## Entries -/

theorem mem_entries {m : Map α β} {f : α → β → γ} {x : γ} :
    x ∈ (m.toList.map fun e => f e.1 e.2) ↔ ∃ k v, m[k]? = some v ∧ f k v = x := by
  simp only [List.mem_map, Prod.exists, Std.ExtTreeMap.mem_toList_iff_getElem?_eq_some]

theorem mem_keys_toList {m : Map α β} {k : α} : k ∈ m.toList.map (·.1) ↔ (m[k]?).isSome = true := by
  rw [List.mem_map, Option.isSome_iff_exists]
  constructor
  · rintro ⟨⟨q, v⟩, hm, rfl⟩
    exact ⟨v, Std.ExtTreeMap.mem_toList_iff_getElem?_eq_some.mp hm⟩
  · rintro ⟨v, hv⟩
    exact ⟨(k, v), Std.ExtTreeMap.mem_toList_iff_getElem?_eq_some.mpr hv, rfl⟩

omit [Std.LawfulEqOrd α] in
theorem toList_eq_nil_iff {m : Map α β} : m.toList = [] ↔ m.isEmpty = true := by
  rw [← List.isEmpty_iff, Std.ExtTreeMap.isEmpty_toList]

/-! ## Collecting into a set -/

theorem mem_foldl_insert (p : γ → Bool) (f : γ → α) {x : α} : ∀ {l : List γ} {s : OSet α},
    x ∈ l.foldl (fun s e => if p e then s.insert (f e) else s) s ↔ x ∈ s ∨ ∃ e ∈ l, p e = true ∧ f e = x := by
  intro l
  induction l with
  | nil => intro s; simp
  | cons e l ih =>
    intro s
    rw [List.foldl_cons, ih]
    by_cases hp : p e = true
    · simp [hp, Std.ExtTreeSet.mem_insert, Std.LawfulEqCmp.compare_eq_iff_eq, or_assoc, or_left_comm]
    · simp [hp]

end OrdMap
