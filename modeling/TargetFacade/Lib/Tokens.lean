/-
  TargetFacade.Lib.Tokens — a list of words in one text, with a separator between them.

  `joined` puts the separator between the words; `tokens` cuts a text at every separator and
  drops what is empty. A token holds no separator (`mem_tokens`), so `tokens` gives back the
  words that were joined exactly when they hold none and are not empty (`tokens_joined_iff`).
-/

import Mathlib.Algebra.Order.Ring.Nat
import Mathlib.Data.List.TakeWhile

namespace Tokens

universe u

variable {α : Type u} [DecidableEq α] (c : α)

def joined : List (List α) → List α
  | [] => []
  | [t] => t
  | t :: ts => t ++ c :: joined ts

/-- The next token, and what follows its separator. -/
def next (s : List α) : Option (List α × List α) :=
  let s := s.dropWhile (· = c)
  if s.isEmpty then none else some (s.takeWhile (· ≠ c), (s.dropWhile (· ≠ c)).drop 1)

variable {c}

omit [DecidableEq α] in
/-- A separator for each word but the last. -/
theorem joined_length {ts : List (List α)} (h : ts ≠ []) : (joined c ts).length + 1 = (ts.map (·.length + 1)).sum := by
  induction ts with
  | nil => exact absurd rfl h
  | cons t ts ih =>
    cases ts with
    | nil => rfl
    | cons t' ts =>
      have hts := ih (List.cons_ne_nil t' ts)
      show (t ++ c :: joined c (t' :: ts)).length + 1 = _
      rw [List.length_append, List.length_cons, List.map_cons, List.sum_cons, ← hts]
      omega

theorem next_spec {s t rest : List α} (h : next c s = some (t, rest)) :
    t ≠ [] ∧ c ∉ t ∧ rest.length < s.length := by
  unfold next at h
  have hle : (s.dropWhile (· = c)).length ≤ s.length := (List.dropWhile_suffix _).length_le
  have hhead := List.head?_dropWhile_not (· = c) s
  generalize s.dropWhile (· = c) = s' at *
  cases s' with
  | nil => cases h
  | cons x s' =>
    have hx : x ≠ c := by simpa using hhead
    simp only [List.isEmpty_cons, Bool.false_eq_true, if_false, Option.some.injEq, Prod.mk.injEq] at h
    obtain ⟨rfl, rfl⟩ := h
    refine ⟨by simp [hx], fun hc => ?_, ?_⟩
    · simpa using List.mem_takeWhile_imp hc
    · have hdrop : (x :: s').dropWhile (· ≠ c) = s'.dropWhile (· ≠ c) := by simp [hx]
      have hshort : (s'.dropWhile (· ≠ c)).length ≤ s'.length := (List.dropWhile_suffix _).length_le
      rw [hdrop, List.length_drop]
      rw [List.length_cons] at hle
      omega

variable (c)

def tokens (s : List α) : List (List α) :=
  match _ : next c s with
  | none => []
  | some (t, rest) => t :: tokens rest
termination_by s.length
decreasing_by exact (next_spec (by assumption)).2.2

variable {c}

theorem tokens_next {s t rest : List α} (h : next c s = some (t, rest)) : tokens c s = t :: tokens c rest := by
  rw [tokens]
  split
  · rename_i hn
    rw [h] at hn
    cases hn
  · rename_i t' rest' hn
    rw [h] at hn
    cases hn
    rfl

theorem tokens_none {s : List α} (h : next c s = none) : tokens c s = [] := by
  rw [tokens]
  split
  · rfl
  · rename_i t rest hn
    rw [h] at hn
    cases hn

theorem mem_tokens {s t : List α} (h : t ∈ tokens c s) : t ≠ [] ∧ c ∉ t := by
  induction hn : s.length using Nat.strongRecOn generalizing s with
  | ind n ih =>
    cases he : next c s with
    | none => rw [tokens_none he] at h; cases h
    | some r =>
      obtain ⟨t', rest⟩ := r
      obtain ⟨hne, hc, hlt⟩ := next_spec he
      rw [tokens_next he] at h
      rcases List.mem_cons.mp h with rfl | h
      · exact ⟨hne, hc⟩
      · exact ih _ (hn ▸ hlt) h rfl

/-- A token at the front, and a separator or nothing after it. -/
theorem next_cut {t rest : List α} (hne : t ≠ []) (hc : c ∉ t) (hrest : rest = [] ∨ ∃ s, rest = c :: s) :
    next c (t ++ rest) = some (t, rest.drop 1) := by
  obtain ⟨x, t', rfl⟩ := List.exists_cons_of_ne_nil hne
  have hpos : ∀ y ∈ x :: t', decide (y ≠ c) = true := fun y hy => by simpa using fun e : y = c => hc (e ▸ hy)
  have hx : x ≠ c := by simpa using hpos x (by simp)
  have hdrop : ((x :: t') ++ rest).dropWhile (· = c) = (x :: t') ++ rest := by simp [hx]
  have hstop : rest.takeWhile (· ≠ c) = [] ∧ rest.dropWhile (· ≠ c) = rest := by
    rcases hrest with rfl | ⟨s, rfl⟩
    · exact ⟨rfl, rfl⟩
    · simp
  unfold next
  simp only [hdrop]
  rw [if_neg (by simp), List.takeWhile_append_of_pos hpos, List.dropWhile_append_of_pos hpos, hstop.1, hstop.2,
    List.append_nil]

theorem tokens_joined {ts : List (List α)} (h : ∀ t ∈ ts, t ≠ [] ∧ c ∉ t) : tokens c (joined c ts) = ts := by
  induction ts with
  | nil => exact tokens_none rfl
  | cons t ts ih =>
    obtain ⟨hne, hc⟩ := h t (by simp)
    have hrest := ih fun t' ht' => h t' (by simp [ht'])
    rcases ts with _ | ⟨t', ts⟩
    case nil =>
      have hnext := @next_cut _ _ c t [] hne hc (Or.inl rfl)
      rw [List.append_nil] at hnext
      show tokens c t = _
      rw [tokens_next hnext]
      exact congrArg _ (tokens_none rfl)
    case cons =>
      show tokens c (t ++ c :: joined c (t' :: ts)) = _
      rw [tokens_next (next_cut hne hc (Or.inr ⟨_, rfl⟩))]
      exact congrArg _ hrest

/-- Words come back exactly when none holds a separator or is empty. -/
theorem tokens_joined_iff {ts : List (List α)} : tokens c (joined c ts) = ts ↔ ∀ t ∈ ts, t ≠ [] ∧ c ∉ t :=
  ⟨fun h _ ht => mem_tokens (h ▸ ht), tokens_joined⟩

end Tokens
