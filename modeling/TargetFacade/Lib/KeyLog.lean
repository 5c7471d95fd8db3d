/-
  TargetFacade.Lib.KeyLog — logs of keyed entries read one key at a time, logs of booleans
  that alternate, and logs whose every entry agrees with what was before it.

  `ofKey k l` is what `l` says of `k`, in order. Taking an entry away changes what the log
  says of its own key only; when the entry is the first of its key, it is the head that goes
  (`ofKey_erase_head`). `Alternates b xs` is alternation from `b`, and `nextOf b xs` what
  would come next: `alternates_append` cuts a log in two there. `Noted Q log` is `Q` of every
  entry and of the log up to it: `noted_snoc` says what one more entry asks, `noted_rec` gets one
  such property from another.
-/

import Mathlib.Data.List.Induction

namespace KeyLog

universe u v

variable {κ : Type u} {ν : Type v} [DecidableEq κ]

def ofKey (k : κ) (l : List (κ × ν)) : List ν := (l.filter (·.1 = k)).map (·.2)

theorem ofKey_append (k : κ) (l m : List (κ × ν)) : ofKey k (l ++ m) = ofKey k l ++ ofKey k m := by
  simp [ofKey]

theorem ofKey_cons (k : κ) (e : κ × ν) (l : List (κ × ν)) :
    ofKey k (e :: l) = if e.1 = k then e.2 :: ofKey k l else ofKey k l := by
  by_cases h : e.1 = k <;> simp [ofKey, h]

theorem ofKey_own (k : κ) (v : ν) : ofKey k [(k, v)] = [v] := by simp [ofKey]

theorem ofKey_other {k j : κ} (v : ν) (h : j ≠ k) : ofKey k [(j, v)] = [] := by simp [ofKey, h]

theorem mem_ofKey {k : κ} {v : ν} {l : List (κ × ν)} : v ∈ ofKey k l ↔ (k, v) ∈ l := by
  simp [ofKey]

section Erase

variable [BEq (κ × ν)] [LawfulBEq (κ × ν)]

/-- Taking away a key's first entry. -/
theorem ofKey_erase_head {k : κ} {v : ν} : ∀ {l : List (κ × ν)}, (ofKey k l).head? = some v →
    ofKey k l = v :: ofKey k (l.erase (k, v)) := by
  intro l
  induction l with
  | nil => intro h; cases h
  | cons e l ih =>
    intro h
    obtain ⟨j, w⟩ := e
    rw [ofKey_cons] at h ⊢
    by_cases hj : j = k
    · subst hj
      simp only [if_true, List.head?_cons, Option.some.injEq] at h ⊢
      subst h
      rw [List.erase_cons_head]
    · simp only [hj, if_false] at h ⊢
      rw [List.erase_cons_tail (by simp [hj]), ofKey_cons, if_neg hj]
      exact ih h

theorem ofKey_erase_other {k j : κ} (v : ν) (h : j ≠ k) : ∀ l : List (κ × ν), ofKey k (l.erase (j, v)) = ofKey k l := by
  intro l
  induction l with
  | nil => rfl
  | cons e l ih =>
    by_cases he : e = (j, v)
    · subst he
      rw [List.erase_cons_head, ofKey_cons, if_neg h]
    · rw [List.erase_cons_tail (by simpa using he), ofKey_cons, ofKey_cons, ih]

end Erase

/-! ## Alternation -/

/-- The booleans alternate, and the first is `b`. -/
def Alternates (b : Bool) : List Bool → Prop
  | [] => True
  | x :: xs => x = b ∧ Alternates (!b) xs

/-- What comes next after `xs`. -/
def nextOf (b : Bool) (xs : List Bool) : Bool := xs.foldl (fun _ x => !x) b

theorem nextOf_append (b : Bool) (xs ys : List Bool) : nextOf b (xs ++ ys) = nextOf (nextOf b xs) ys := by
  simp [nextOf]

theorem nextOf_last (b : Bool) (xs : List Bool) : nextOf b xs = !xs.getLastD (!b) := by
  rcases List.eq_nil_or_concat xs with rfl | ⟨ys, x, rfl⟩
  · simp [nextOf]
  · rw [List.concat_eq_append, nextOf_append]
    simp [nextOf]

theorem alternates_append : ∀ {xs : List Bool} {b : Bool} {ys : List Bool},
    Alternates b (xs ++ ys) ↔ Alternates b xs ∧ Alternates (nextOf b xs) ys := by
  intro xs
  induction xs with
  | nil => intro b ys; simp [Alternates, nextOf]
  | cons x xs ih =>
    intro b ys
    simp only [List.cons_append, Alternates, ih, and_assoc]
    refine and_congr_right fun hx => ?_
    subst hx
    rfl

/-! ## Entries and what was before them -/

/-- Each entry, with the log as it was when the entry came. -/
def Noted {ν : Type v} (Q : List ν → ν → Prop) (log : List ν) : Prop :=
  ∀ earlier x later, log = earlier ++ x :: later → Q earlier x

theorem noted_nil {Q : List ν → ν → Prop} : Noted Q [] := by
  intro earlier x later h
  simp at h

theorem noted_snoc {Q : List ν → ν → Prop} {log : List ν} {x : ν} :
    Noted Q (log ++ [x]) ↔ Noted Q log ∧ Q log x := by
  constructor
  · intro h
    refine ⟨fun earlier y later heq => h earlier y (later ++ [x]) ?_, h log x [] rfl⟩
    rw [heq, List.append_assoc, List.cons_append]
  · intro h earlier y later heq
    rcases List.eq_nil_or_concat later with rfl | ⟨later, z, rfl⟩
    · obtain ⟨hlog, hlast⟩ := List.append_inj' heq rfl
      rw [← hlog, ← (List.cons.inj hlast).1]
      exact h.2
    · rw [List.concat_eq_append, ← List.cons_append, ← List.append_assoc] at heq
      obtain ⟨hlog, -⟩ := List.append_inj' heq rfl
      exact h.1 earlier y later hlog

/-- What an entry owes to what was before it may be shown from what the earlier entries owe. -/
theorem noted_rec {Q P : List ν → ν → Prop} (hstep : ∀ earlier x, Noted P earlier → Q earlier x → P earlier x) {log : List ν}
    (h : Noted Q log) : Noted P log := by
  induction log using List.reverseRecOn with
  | nil => exact noted_nil
  | append_singleton log x ih =>
    obtain ⟨hlog, hx⟩ := noted_snoc.mp h
    have hP := ih hlog
    exact noted_snoc.mpr ⟨hP, hstep log x hP hx⟩

theorem noted_mem {Q : List ν → ν → Prop} {log : List ν} (h : Noted Q log) {x : ν} (hx : x ∈ log) :
    ∃ earlier later, log = earlier ++ x :: later ∧ Q earlier x := by
  obtain ⟨earlier, later, hsplit⟩ := List.append_of_mem hx
  exact ⟨earlier, later, hsplit, h earlier x later hsplit⟩

end KeyLog
