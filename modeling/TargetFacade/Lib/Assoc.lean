/-
  TargetFacade.Lib.Assoc — a map as the list of its entries, in the order their keys came.

  `put` writes a key where it stands, or at the end when it is new; the keys stay distinct.
-/

import Mathlib.Data.List.Nodup

namespace Assoc

universe u v

variable {α : Type u} {β : Type v} [DecidableEq α]

def keys (l : List (α × β)) : List α := l.map (·.1)

def put (k : α) (v : β) : List (α × β) → List (α × β)
  | [] => [(k, v)]
  | e :: l => if e.1 = k then (k, v) :: l else e :: put k v l

theorem keys_put (k : α) (v : β) (l : List (α × β)) :
    keys (put k v l) = if k ∈ keys l then keys l else keys l ++ [k] := by
  induction l with
  | nil => rfl
  | cons e l ih =>
    unfold put
    by_cases he : e.1 = k
    · simp [keys, he]
    · have hk : k ∈ keys (e :: l) ↔ k ∈ keys l := by simp [keys, Ne.symm he]
      rw [if_neg he]
      show e.1 :: keys (put k v l) = _
      rw [ih]
      by_cases hm : k ∈ keys l
      · rw [if_pos hm, if_pos (hk.mpr hm)]
        rfl
      · rw [if_neg hm, if_neg (mt hk.mp hm)]
        rfl

theorem nodup_put {k : α} (v : β) {l : List (α × β)} (h : (keys l).Nodup) : (keys (put k v l)).Nodup := by
  rw [keys_put]
  split
  · exact h
  · rename_i hk
    exact List.nodup_append.mpr ⟨h, by simp, fun a ha b hb => by
      obtain rfl : b = k := by simpa using hb
      exact fun e => hk (e ▸ ha)⟩

theorem mem_put {k : α} {v : β} {l : List (α × β)} {e : α × β} (h : e ∈ put k v l) : e = (k, v) ∨ e ∈ l := by
  induction l with
  | nil => exact Or.inl (by simpa [put] using h)
  | cons d l ih =>
    unfold put at h
    split at h
    · rcases List.mem_cons.mp h with rfl | h
      · exact Or.inl rfl
      · exact Or.inr (by simp [h])
    · rcases List.mem_cons.mp h with rfl | h
      · exact Or.inr (by simp)
      · exact (ih h).imp id fun h => by simp [h]

theorem length_put (k : α) (v : β) (l : List (α × β)) :
    (put k v l).length = if k ∈ keys l then l.length else l.length + 1 := by
  have h := congrArg List.length (keys_put k v l)
  unfold keys at h
  rw [List.length_map] at h
  rw [h]
  unfold keys
  split <;> simp

theorem put_new {k : α} (v : β) {l : List (α × β)} (h : k ∉ keys l) : put k v l = l ++ [(k, v)] := by
  induction l with
  | nil => rfl
  | cons e l ih =>
    have he : ¬ e.1 = k := fun e' => h (by simp [keys, e'])
    have hk : k ∉ keys l := fun hm => h (by simp only [keys, List.map_cons]; exact List.mem_cons_of_mem _ hm)
    unfold put
    rw [if_neg he, ih hk]
    rfl

/-- Entries put one after the other, their keys distinct, stand as they came. -/
theorem foldl_put {l : List (α × β)} : ∀ {acc : List (α × β)}, (keys (acc ++ l)).Nodup →
    l.foldl (fun acc e => put e.1 e.2 acc) acc = acc ++ l := by
  induction l with
  | nil => intro acc _; simp
  | cons e l ih =>
    intro acc h
    have hnew : e.1 ∉ keys acc := by
      have hsplit : keys (acc ++ e :: l) = keys acc ++ e.1 :: keys l := by simp [keys]
      rw [hsplit] at h
      intro hm
      exact (List.nodup_append.mp h).2.2 _ hm _ (by simp) rfl
    have happ : acc ++ e :: l = (acc ++ [e]) ++ l := by simp
    rw [List.foldl_cons, put_new e.2 hnew, happ]
    exact ih (happ ▸ h)

omit [DecidableEq α] in
/-- With distinct keys an entry is found under its own. -/
theorem lookup_of_mem [BEq α] [LawfulBEq α] {l : List (α × β)} (h : (keys l).Nodup) {e : α × β} (he : e ∈ l) :
    l.lookup e.1 = some e.2 := by
  induction l with
  | nil => cases he
  | cons d l ih =>
    obtain ⟨hd, hl⟩ := List.nodup_cons.mp (show (d.1 :: keys l).Nodup from h)
    obtain ⟨k, v⟩ := d
    rw [List.lookup_cons]
    rcases List.mem_cons.mp he with rfl | he
    · simp
    · have hne : (e.1 == k) = false := by
        rw [beq_eq_false_iff_ne]
        intro hk
        have hmem : e.1 ∈ keys l := List.mem_map_of_mem he
        exact hd (hk ▸ hmem)
      rw [hne]
      exact ih hl he

end Assoc
