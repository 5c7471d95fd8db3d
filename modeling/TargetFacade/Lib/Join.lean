/-
  TargetFacade.Lib.Join — two lists of entries in key order, joined into one list of rows.

  A row has a key and what each list has of it. Of two lists whose keys increase strictly, `join`
  has a row for each key that one of them has (`mem_keys_join`), in strictly increasing order
  (`join_ordered`), and each row is right about both (`join_right`).
-/

import TargetFacade.Lib.OrdMap

namespace Join

universe u v w

variable {α : Type u} {β : Type v} {γ : Type w}

/-- A key, and what is at it on either side. -/
abbrev Row (α : Type u) (β : Type v) (γ : Type w) := α × Option β × Option γ

variable [Ord α]

def join : List (α × β) → List (α × γ) → List (Row α β γ)
  | [], [] => []
  | a :: as, [] => (a.1, some a.2, none) :: join as []
  | [], b :: bs => (b.1, none, some b.2) :: join [] bs
  | a :: as, b :: bs =>
    match compare a.1 b.1 with
    | .lt => (a.1, some a.2, none) :: join as (b :: bs)
    | .gt => (b.1, none, some b.2) :: join (a :: as) bs
    | .eq => (a.1, some a.2, some b.2) :: join as bs
termination_by as bs => as.length + bs.length

/-- Every key of the list comes after `k`. -/
def After (k : α) {δ : Type w} (l : List (α × δ)) : Prop := ∀ e ∈ l, compare k e.1 = .lt

/-- The keys increase strictly. -/
def Ordered {δ : Type w} (l : List (α × δ)) : Prop := l.Pairwise fun e e' => compare e.1 e'.1 = .lt

/-- A row has what each list has of its key. -/
structure Right (as : List (α × β)) (bs : List (α × γ)) (r : Row α β γ) : Prop where
  left : ∀ v, r.2.1 = some v ↔ (r.1, v) ∈ as
  right : ∀ w, r.2.2 = some w ↔ (r.1, w) ∈ bs

section
variable {δ : Type w} {e : α × δ} {l : List (α × δ)} {k : α}

theorem ordered_cons : Ordered (e :: l) ↔ After e.1 l ∧ Ordered l := List.pairwise_cons

theorem after_cons : After k (e :: l) ↔ compare k e.1 = .lt ∧ After k l := List.forall_mem_cons

theorem After.trans [Std.TransOrd α] {j : α} (h : After k l) (hlt : compare j k = .lt) : After j l :=
  fun e he => Std.TransCmp.lt_trans hlt (h e he)

theorem After.not_mem [Std.TransOrd α] (h : After k l) (v : δ) : (k, v) ∉ l := by
  intro hm
  have hlt := h _ hm
  have hself : compare k k = .eq := Std.ReflCmp.compare_self
  rw [hself] at hlt
  cases hlt

/-- What stands first is all that its key has. -/
theorem After.mem_head [Std.TransOrd α] (h : After e.1 l) (v : δ) : some e.2 = some v ↔ (e.1, v) ∈ e :: l := by
  rw [List.mem_cons, or_iff_left (h.not_mem v), Option.some.injEq]
  constructor
  · rintro rfl
    rfl
  · intro he
    rw [← he]

omit [Ord α] in
theorem mem_tail (hne : k ≠ e.1) (v : δ) : (k, v) ∈ e :: l ↔ (k, v) ∈ l := by
  rw [List.mem_cons, or_iff_right]
  rintro rfl
  exact hne rfl

end

variable [Std.TransOrd α] [Std.LawfulEqOrd α]

omit [Std.TransOrd α] in
theorem mem_keys_join (k : α) : ∀ (as : List (α × β)) (bs : List (α × γ)),
    k ∈ (join as bs).map (·.1) ↔ k ∈ as.map (·.1) ∨ k ∈ bs.map (·.1) := by
  intro as bs
  fun_induction join as bs with
  | case1 => simp
  | case2 a as ih => simpa using or_congr_right (a := k = a.1) ih
  | case3 b bs ih => simpa using or_congr_right (a := k = b.1) ih
  | case4 a as b bs hlt ih => simp only [List.map_cons, List.mem_cons, ih, or_assoc]
  | case5 a as b bs hgt ih => simp only [List.map_cons, List.mem_cons, ih, or_left_comm, or_assoc]
  | case6 a as b bs heq ih =>
    have hkey : a.1 = b.1 := Std.LawfulEqOrd.eq_of_compare heq
    simp only [List.map_cons, List.mem_cons, ih, hkey]
    exact or_or_distrib_left

omit [Std.TransOrd α] in
theorem after_join {k : α} {as : List (α × β)} {bs : List (α × γ)} (ha : After k as) (hb : After k bs) :
    After k (join as bs) := by
  intro r hr
  rcases (mem_keys_join r.1 as bs).mp (List.mem_map_of_mem hr) with h | h
  · obtain ⟨e, he, hk⟩ := List.mem_map.mp h
    exact hk ▸ ha e he
  · obtain ⟨e, he, hk⟩ := List.mem_map.mp h
    exact hk ▸ hb e he

theorem join_ordered : ∀ (as : List (α × β)) (bs : List (α × γ)), Ordered as → Ordered bs → Ordered (join as bs) := by
  intro as bs
  fun_induction join as bs with
  | case1 => exact fun _ _ => List.Pairwise.nil
  | case2 a as ih =>
    intro ha hb
    obtain ⟨haft, ha⟩ := ordered_cons.mp ha
    exact ordered_cons.mpr ⟨after_join haft (by simp [After]), ih ha hb⟩
  | case3 b bs ih =>
    intro ha hb
    obtain ⟨hbft, hb⟩ := ordered_cons.mp hb
    exact ordered_cons.mpr ⟨after_join (by simp [After]) hbft, ih ha hb⟩
  | case4 a as b bs hlt ih =>
    intro ha hb
    obtain ⟨haft, ha⟩ := ordered_cons.mp ha
    have hbft := (ordered_cons.mp hb).1.trans hlt
    exact ordered_cons.mpr ⟨after_join haft (after_cons.mpr ⟨hlt, hbft⟩), ih ha hb⟩
  | case5 a as b bs hgt ih =>
    intro ha hb
    have hlt := Std.OrientedCmp.lt_of_gt hgt
    obtain ⟨hbft, hb⟩ := ordered_cons.mp hb
    have haft := (ordered_cons.mp ha).1.trans hlt
    exact ordered_cons.mpr ⟨after_join (after_cons.mpr ⟨hlt, haft⟩) hbft, ih ha hb⟩
  | case6 a as b bs heq ih =>
    intro ha hb
    have hkey : a.1 = b.1 := Std.LawfulEqOrd.eq_of_compare heq
    obtain ⟨haft, ha⟩ := ordered_cons.mp ha
    obtain ⟨hbft, hb⟩ := ordered_cons.mp hb
    exact ordered_cons.mpr ⟨after_join haft (hkey ▸ hbft), ih ha hb⟩

omit [Ord α] [Std.TransOrd α] [Std.LawfulEqOrd α] in
/-- An entry under another key makes no difference to a row. -/
theorem Right.cons_left {as : List (α × β)} {bs : List (α × γ)} {a : α × β} {r : Row α β γ} (h : Right as bs r)
    (hne : r.1 ≠ a.1) : Right (a :: as) bs r :=
  ⟨fun v => (h.left v).trans (mem_tail hne v).symm, h.right⟩

omit [Ord α] [Std.TransOrd α] [Std.LawfulEqOrd α] in
theorem Right.cons_right {as : List (α × β)} {bs : List (α × γ)} {b : α × γ} {r : Row α β γ} (h : Right as bs r)
    (hne : r.1 ≠ b.1) : Right as (b :: bs) r :=
  ⟨h.left, fun w => (h.right w).trans (mem_tail hne w).symm⟩

theorem join_right : ∀ (as : List (α × β)) (bs : List (α × γ)), Ordered as → Ordered bs →
    ∀ r ∈ join as bs, Right as bs r := by
  -- a row of the rest has a key of its own
  have hne {k : α} {l : List (Row α β γ)} (h : After k l) (r : Row α β γ) (hr : r ∈ l) : r.1 ≠ k := by
    rintro rfl
    exact h.not_mem r.2 hr
  intro as bs
  fun_induction join as bs with
  | case1 => simp
  | case2 a as ih =>
    intro ha hb r hr
    obtain ⟨haft, ha⟩ := ordered_cons.mp ha
    rcases List.mem_cons.mp hr with rfl | hr
    · exact ⟨haft.mem_head, fun w => by simp⟩
    · exact (ih ha hb r hr).cons_left (hne (after_join haft (by simp [After])) r hr)
  | case3 b bs ih =>
    intro ha hb r hr
    obtain ⟨hbft, hb⟩ := ordered_cons.mp hb
    rcases List.mem_cons.mp hr with rfl | hr
    · exact ⟨fun v => by simp, hbft.mem_head⟩
    · exact (ih ha hb r hr).cons_right (hne (after_join (by simp [After]) hbft) r hr)
  | case4 a as b bs hlt ih =>
    intro ha hb r hr
    obtain ⟨haft, ha⟩ := ordered_cons.mp ha
    have hbft := after_cons.mpr ⟨hlt, (ordered_cons.mp hb).1.trans hlt⟩
    rcases List.mem_cons.mp hr with rfl | hr
    · exact ⟨haft.mem_head, fun w => iff_of_false nofun (hbft.not_mem w)⟩
    · exact (ih ha hb r hr).cons_left (hne (after_join haft hbft) r hr)
  | case5 a as b bs hgt ih =>
    intro ha hb r hr
    have hlt := Std.OrientedCmp.lt_of_gt hgt
    obtain ⟨hbft, hb⟩ := ordered_cons.mp hb
    have haft := after_cons.mpr ⟨hlt, (ordered_cons.mp ha).1.trans hlt⟩
    rcases List.mem_cons.mp hr with rfl | hr
    · exact ⟨fun v => iff_of_false nofun (haft.not_mem v), hbft.mem_head⟩
    · exact (ih ha hb r hr).cons_right (hne (after_join haft hbft) r hr)
  | case6 a as b bs heq ih =>
    intro ha hb r hr
    have hkey : a.1 = b.1 := Std.LawfulEqOrd.eq_of_compare heq
    obtain ⟨haft, ha⟩ := ordered_cons.mp ha
    obtain ⟨hbft, hb⟩ := ordered_cons.mp hb
    rcases List.mem_cons.mp hr with rfl | hr
    · refine ⟨haft.mem_head, ?_⟩
      rw [hkey]
      exact hbft.mem_head
    · have hother := hne (after_join haft (hkey ▸ hbft)) r hr
      exact ((ih ha hb r hr).cons_left hother).cons_right (hkey ▸ hother)

omit [Std.TransOrd α] [Std.LawfulEqOrd α] in
theorem join_length_le : ∀ (as : List (α × β)) (bs : List (α × γ)), (join as bs).length ≤ as.length + bs.length := by
  intro as bs
  fun_induction join as bs <;> simp only [List.length_cons, List.length_nil] at * <;> omega

/-! ## Maps -/

omit [Std.LawfulEqOrd α] in
theorem ordered_toList (m : OrdMap.Map α β) : Ordered m.toList := Std.ExtTreeMap.ordered_keys_toList

/-- The rows of two maps. -/
theorem join_maps (m : OrdMap.Map α β) (n : OrdMap.Map α γ) {r : Row α β γ} (hr : r ∈ join m.toList n.toList) :
    r.2.1 = m[r.1]? ∧ r.2.2 = n[r.1]? := by
  have hright := join_right _ _ (ordered_toList m) (ordered_toList n) r hr
  constructor
  · apply Option.ext
    intro v
    rw [hright.left v, Std.ExtTreeMap.mem_toList_iff_getElem?_eq_some]
  · apply Option.ext
    intro w
    rw [hright.right w, Std.ExtTreeMap.mem_toList_iff_getElem?_eq_some]

theorem mem_keys_maps (m : OrdMap.Map α β) (n : OrdMap.Map α γ) (k : α) :
    k ∈ (join m.toList n.toList).map (·.1) ↔ (m[k]?).isSome = true ∨ (n[k]?).isSome = true := by
  rw [mem_keys_join, OrdMap.mem_keys_toList, OrdMap.mem_keys_toList]

end Join
