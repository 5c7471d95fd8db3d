/-
  TargetFacade.Lib.Text — trimming a text at both ends, and cutting it at the first or the last
  occurrence of a character.

  A text is a list. `strip p` drops what `p` says at either end; `Clean p` is a text that has
  nothing to drop. A cut is an index in the code and an equation `s = u ++ c :: v` in a proof:
  `findIdx_cut` and `lastIdx_cut` go from the one to the other and back, and `two_cuts` compares two
  cuts of one text.
-/

import Mathlib.Data.List.DropRight

namespace Text

universe u

variable {α : Type u}

/-! ## Trimming -/

def strip (p : α → Bool) (s : List α) : List α := (s.dropWhile p).rdropWhile p

/-- Neither end of the text is to be dropped. -/
structure Clean (p : α → Bool) (s : List α) : Prop where
  head : ∀ c ∈ s.head?, p c = false
  last : ∀ c ∈ s.getLast?, p c = false

theorem strip_of_clean {p : α → Bool} {s : List α} (h : Clean p s) : strip p s = s := by
  unfold strip
  have hdrop : s.dropWhile p = s := by
    cases s with
    | nil => rfl
    | cons c s => simp [h.head c (by simp)]
  rw [hdrop, List.rdropWhile_eq_self_iff]
  intro hne hp
  have := h.last (s.getLast hne) (by simp [List.getLast?_eq_some_getLast hne])
  rw [this] at hp
  cases hp

theorem strip_parts (p : α → Bool) (s : List α) :
    ∃ u v, s = u ++ strip p s ++ v ∧ (∀ c ∈ u, p c = true) ∧ ∀ c ∈ v, p c = true := by
  refine ⟨s.takeWhile p, (s.dropWhile p).rtakeWhile p, ?_, fun c hc => ?_, fun c hc => List.mem_rtakeWhile_imp hc⟩
  · unfold strip
    rw [List.append_assoc, List.rdropWhile_append_rtakeWhile, List.takeWhile_append_dropWhile]
  · exact List.mem_takeWhile_imp hc

theorem strip_clean (p : α → Bool) (s : List α) : Clean p (strip p s) := by
  constructor
  · intro c hc
    obtain ⟨t, ht⟩ : strip p s <+: s.dropWhile p := List.rdropWhile_prefix p _
    have hhead : c ∈ (s.dropWhile p).head? := by
      rw [← ht, List.head?_append]
      simp only [Option.mem_def] at hc ⊢
      rw [hc]; rfl
    have hnot := List.head?_dropWhile_not p s
    simp only [Option.mem_def] at hhead
    rw [hhead] at hnot
    simpa using hnot
  · intro c hc
    have hne : strip p s ≠ [] := by
      intro he; rw [he] at hc; simp at hc
    have hlast := List.rdropWhile_last_not p (s.dropWhile p) hne
    rw [List.getLast?_eq_some_getLast hne] at hc
    obtain rfl : (strip p s).getLast hne = c := by simpa using hc
    simpa [strip] using hlast

theorem strip_strip (p : α → Bool) (s : List α) : strip p (strip p s) = strip p s := strip_of_clean (strip_clean p s)

theorem strip_pad {p : α → Bool} {u s v : List α} (hu : ∀ c ∈ u, p c = true) (hv : ∀ c ∈ v, p c = true) :
    strip p (u ++ s ++ v) = strip p s := by
  have hright : ∀ t : List α, (t ++ v).rdropWhile p = t.rdropWhile p := by
    intro t
    unfold List.rdropWhile
    rw [List.reverse_append, List.dropWhile_append_of_pos (by simpa using hv)]
  unfold strip
  rw [List.append_assoc, List.dropWhile_append_of_pos hu, List.dropWhile_append]
  by_cases he : s.dropWhile p = []
  · have hvd : v.dropWhile p = [] := List.dropWhile_eq_nil_iff.mpr hv
    simp [he, hvd]
  · have hne : (s.dropWhile p).isEmpty = false := by simpa using he
    rw [hne]
    exact hright _

/-- A text is stripped after a character that stays only. -/
theorem strip_cut {p : α → Bool} {u v : List α} {c : α} (hhead : ∀ d ∈ (u ++ [c]).head?, p d = false)
    (hc : p c = false) : strip p (u ++ c :: v) = u ++ c :: v.rdropWhile p := by
  have hdrop : (u ++ c :: v).dropWhile p = u ++ c :: v := by
    cases u with
    | nil => simp [hc]
    | cons d u => simp [hhead d (by simp)]
  have hstay : (c :: u.reverse).dropWhile p = c :: u.reverse := by simp [hc]
  unfold strip
  rw [hdrop]
  unfold List.rdropWhile
  have hrev : (u ++ c :: v).reverse = v.reverse ++ c :: u.reverse := by simp
  rw [hrev, List.dropWhile_append, hstay]
  by_cases he : v.reverse.dropWhile p = []
  · simp [he]
  · have hne : (v.reverse.dropWhile p).isEmpty = false := by simpa using he
    rw [hne]
    simp

theorem strip_cons {p : α → Bool} {c : α} (hc : p c = false) (v : List α) :
    strip p (c :: v) = c :: v.rdropWhile p :=
  strip_cut (u := []) (by simpa using hc) hc

theorem strip_rdropWhile (p : α → Bool) (v : List α) : strip p (v.rdropWhile p) = strip p v := by
  have hpad := strip_pad (p := p) (u := []) (s := v.rdropWhile p) (v := v.rtakeWhile p) (by simp)
    (fun c hc => List.mem_rtakeWhile_imp hc)
  rw [List.nil_append, List.rdropWhile_append_rtakeWhile] at hpad
  exact hpad.symm

theorem strip_dropWhile (p : α → Bool) (s : List α) : strip p (s.dropWhile p) = strip p s := by
  have hpad := strip_pad (p := p) (u := s.takeWhile p) (s := s.dropWhile p) (v := []) (fun c hc => List.mem_takeWhile_imp hc)
    (by simp)
  rw [List.append_nil, List.takeWhile_append_dropWhile] at hpad
  exact hpad.symm

theorem mem_of_mem_strip {p : α → Bool} {s : List α} {c : α} (h : c ∈ strip p s) : c ∈ s := by
  obtain ⟨u, v, hs, -, -⟩ := strip_parts p s
  rw [hs]
  simp [h]

/-- Nothing is dropped where two texts meet, when neither ends in what is. -/
theorem strip_append {p : α → Bool} {s c : List α} (hs : ∀ x ∈ s.getLast?, p x = false) (hne : strip p s ≠ [])
    (hc : c ≠ []) (hlast : ∀ x ∈ c.getLast?, p x = false) : strip p (s ++ c) = strip p s ++ c := by
  obtain ⟨u, v, hparts, hu, hv⟩ := strip_parts p s
  have hvnil : v = [] := by
    cases hvl : v.getLast? with
    | none => exact List.getLast?_eq_none_iff.mp hvl
    | some x =>
      have hx : x ∈ s.getLast? := by
        rw [hparts, List.getLast?_append_of_ne_nil _ (by rintro rfl; cases hvl), hvl]
        rfl
      have hdrop := hv x (List.mem_of_getLast? hvl)
      rw [hs x hx] at hdrop
      cases hdrop
  subst hvnil
  have hwhole : s ++ c = u ++ (strip p s ++ c) ++ [] := by
    nth_rewrite 1 [hparts]
    simp only [List.append_nil, List.append_assoc]
  rw [hwhole, strip_pad hu (by simp)]
  refine strip_of_clean ⟨fun x hx => (strip_clean p s).head x ?_, fun x hx => ?_⟩
  · obtain ⟨y, r, hr⟩ := List.exists_cons_of_ne_nil hne
    rw [hr] at hx ⊢
    exact hx
  · rw [List.getLast?_append_of_ne_nil _ hc] at hx
    exact hlast x hx

/-- What is left of a text grows by anything after it that is not all dropped. -/
theorem strip_grows {p : α → Bool} (u : List α) {c : List α} (hc : ∃ x ∈ c, p x = false) :
    (strip p u).length < (strip p (u ++ c)).length := by
  obtain ⟨x, hx, hstay⟩ := hc
  obtain ⟨a, b, hu, ha, -⟩ := strip_parts p u
  have hpad : strip p (u ++ c) = strip p (strip p u ++ (b ++ c)) := by
    have h := strip_pad (p := p) (u := a) (s := strip p u ++ (b ++ c)) (v := []) ha (by simp)
    rw [← h, List.append_nil]
    congr 1
    nth_rewrite 1 [hu]
    simp only [List.append_assoc]
  rw [hpad]
  cases hw : strip p u with
  | nil =>
    obtain ⟨d, e, ht, hd, he⟩ := strip_parts p ([] ++ (b ++ c))
    have hmem : x ∈ d ++ strip p ([] ++ (b ++ c)) ++ e := ht ▸ by simp [hx]
    have hin : x ∈ strip p ([] ++ (b ++ c)) := by
      rcases List.mem_append.mp hmem with hmem | hmem
      · rcases List.mem_append.mp hmem with hmem | hmem
        · rw [hd x hmem] at hstay
          cases hstay
        · exact hmem
      · rw [he x hmem] at hstay
        cases hstay
    exact List.length_pos_of_mem hin
  | cons y w =>
    obtain ⟨c1, c2, rfl⟩ := List.append_of_mem hx
    have hy : p y = false := (strip_clean p u).head y (by rw [hw]; rfl)
    have hcut : strip p ((y :: w) ++ (b ++ (c1 ++ x :: c2))) = (y :: w ++ (b ++ c1)) ++ x :: c2.rdropWhile p := by
      rw [← strip_cut (by simpa using hy) hstay]
      simp only [List.append_assoc]
    rw [hcut]
    simp only [List.length_append, List.length_cons]
    omega

/-! ## Cutting -/

variable [BEq α] [LawfulBEq α]

/-- The first occurrence. -/
theorem findIdx_cut {s : List α} {c : α} {i : Nat} :
    s.findIdx? (· == c) = some i ↔ ∃ u v, s = u ++ c :: v ∧ c ∉ u ∧ u.length = i := by
  induction s generalizing i with
  | nil => simp
  | cons x s ih =>
    rw [List.findIdx?_cons]
    by_cases hx : x = c
    · subst hx
      simp only [beq_self_eq_true, if_true, Option.some.injEq]
      constructor
      · intro h
        exact ⟨[], s, rfl, by simp, by simpa using h⟩
      · rintro ⟨u, v, hs, hu, hi⟩
        cases u with
        | nil => simpa using hi
        | cons y u =>
          simp only [List.cons_append, List.cons.injEq] at hs
          exact absurd hs.1 (by simpa using (fun e => hu (by simp [e]) : x ≠ y))
    · have hb : (x == c) = false := by simpa using hx
      simp only [hb, Bool.false_eq_true, if_false, Option.map_eq_some_iff]
      constructor
      · rintro ⟨j, hj, rfl⟩
        obtain ⟨u, v, rfl, hu, rfl⟩ := ih.mp hj
        exact ⟨x :: u, v, rfl, by simp [hu, Ne.symm hx], rfl⟩
      · rintro ⟨u, v, hs, hu, hi⟩
        cases u with
        | nil =>
          simp only [List.nil_append, List.cons.injEq] at hs
          exact absurd hs.1 hx
        | cons y u =>
          simp only [List.cons_append, List.cons.injEq] at hs
          obtain ⟨rfl, rfl⟩ := hs
          exact ⟨u.length, ih.mpr ⟨u, v, rfl, fun h => hu (by simp [h]), rfl⟩, by simpa using hi⟩

/-- The last occurrence, found from the end. -/
theorem lastIdx_cut {s : List α} {c : α} {i : Nat} :
    (s.reverse.findIdx? (· == c)).map (s.length - 1 - ·) = some i ↔ ∃ u v, s = u ++ c :: v ∧ c ∉ v ∧ u.length = i := by
  rw [Option.map_eq_some_iff]
  constructor
  · rintro ⟨j, hj, rfl⟩
    obtain ⟨u, v, hs, hu, rfl⟩ := findIdx_cut.mp hj
    have hs' : s = v.reverse ++ c :: u.reverse := by
      rw [← List.reverse_reverse s, hs]
      simp
    refine ⟨v.reverse, u.reverse, hs', by simpa using hu, ?_⟩
    rw [hs']
    simp only [List.length_append, List.length_reverse, List.length_cons]
    omega
  · rintro ⟨u, v, rfl, hv, rfl⟩
    refine ⟨v.length, findIdx_cut.mpr ⟨v.reverse, u.reverse, by simp, by simpa using hv, by simp⟩, ?_⟩
    simp only [List.length_append, List.length_cons]
    omega

omit [BEq α] [LawfulBEq α] in
/-- Two cuts of one text: at the same place, or one of them further on. -/
theorem two_cuts {u v u' v' : List α} {c : α} : u ++ c :: v = u' ++ c :: v' ↔
    (u = u' ∧ v = v') ∨ (∃ m, u' = u ++ c :: m ∧ v = m ++ c :: v') ∨ ∃ m, u = u' ++ c :: m ∧ v' = m ++ c :: v := by
  constructor
  · intro h
    rcases List.append_eq_append_iff.mp h with ⟨m, hu, hv⟩ | ⟨m, hu, hv⟩
    · cases m with
      | nil =>
        rw [List.append_nil] at hu
        exact Or.inl ⟨hu.symm, (List.cons.inj hv).2⟩
      | cons d m =>
        obtain ⟨rfl, hrest⟩ := List.cons.inj hv
        exact Or.inr (Or.inl ⟨m, hu, hrest⟩)
    · cases m with
      | nil =>
        rw [List.append_nil] at hu
        exact Or.inl ⟨hu, (List.cons.inj hv).2.symm⟩
      | cons d m =>
        obtain ⟨rfl, hrest⟩ := List.cons.inj hv
        exact Or.inr (Or.inr ⟨m, hu, hrest⟩)
  · rintro (⟨rfl, rfl⟩ | ⟨m, rfl, rfl⟩ | ⟨m, rfl, rfl⟩)
    · rfl
    · simp
    · simp

end Text
