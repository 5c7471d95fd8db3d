/-
  TargetFacade.Lib.Rounds — items offered, one after the other, to members that come and go.

  A round begins with the members of that moment. Each of them is served in its turn or, once it is
  no longer a member, passed over, and the next round begins when all of them have had their turn.

  Whatever the order of it all, what a member was served is what was offered to it, in that order
  and each item once: at most the last is missing, and then its turn is to come or the member has
  left (`Sound.missing`). Whoever has left is served once more at most (`Sound.served_after`).
-/

import Mathlib.Data.List.Infix
import Mathlib.Logic.Relation
import TargetFacade.Lib.KeyLog

namespace Rounds

open KeyLog

universe u v

inductive RoundNote (α : Type u) (ρ : Type v) where
  | joined (r : ρ)
  | left (r : ρ)
  | begun (x : α) (rs : List ρ)
  | served (r : ρ) (x : α)
  deriving DecidableEq

variable {α : Type u} {ρ : Type v} [DecidableEq ρ]

def RoundNote.offers? (r : ρ) : RoundNote α ρ → Option α
  | .begun x rs => if r ∈ rs then some x else none
  | _ => none

def RoundNote.begun? : RoundNote α ρ → Option α
  | .begun x _ => some x
  | _ => none

def RoundNote.serves? (r : ρ) : RoundNote α ρ → Option α
  | .served r' x => if r' = r then some x else none
  | _ => none

/-- What rounds that began with `r` among the members were about. -/
def offered (r : ρ) (log : List (RoundNote α ρ)) : List α := log.filterMap (RoundNote.offers? r)

def served (r : ρ) (log : List (RoundNote α ρ)) : List α := log.filterMap (RoundNote.serves? r)

def Member (log : List (RoundNote α ρ)) (r : ρ) : Prop := .joined r ∈ log ∧ .left r ∉ log

structure Round (α : Type u) (ρ : Type v) where
  /-- The item of the round under way, and whose turn is to come. -/
  under : Option (α × List ρ)
  log : List (RoundNote α ρ)

def Round.start : Round α ρ := ⟨none, []⟩

inductive Move : Round α ρ → Round α ρ → Prop
  | join (s : Round α ρ) (r : ρ) (h : .joined r ∉ s.log) : Move s { s with log := s.log ++ [.joined r] }
  | leave (s : Round α ρ) (r : ρ) (h : Member s.log r) : Move s { s with log := s.log ++ [.left r] }
  | begin_ (s : Round α ρ) (x : α) (rs : List ρ) (hidle : s.under = none) (hnodup : rs.Nodup)
      (hrs : ∀ r, r ∈ rs ↔ Member s.log r) : Move s ⟨some (x, rs), s.log ++ [.begun x rs]⟩
  | serve (s : Round α ρ) (x : α) (r : ρ) (rest : List ρ) (h : s.under = some (x, r :: rest)) :
      Move s ⟨some (x, rest), s.log ++ [.served r x]⟩
  | pass (s : Round α ρ) (x : α) (r : ρ) (rest : List ρ) (h : s.under = some (x, r :: rest)) (hr : ¬ Member s.log r) :
      Move s { s with under := some (x, rest) }
  | finish (s : Round α ρ) (x : α) (h : s.under = some (x, [])) : Move s { s with under := none }

/-! ## One member's account -/

/-- The item whose turn is to come for `r`. -/
def Round.due (r : ρ) (s : Round α ρ) : List α :=
  match s.under with
  | some (x, rest) => if r ∈ rest then [x] else []
  | none => []

/-- What is missing is what is due or, for one that has left, what it was passed over for. -/
def Round.Accounts (r : ρ) (s : Round α ρ) : Prop :=
  offered r s.log = served r s.log ++ s.due r ∨
    .joined r ∈ s.log ∧ ¬ Member s.log r ∧ s.due r = [] ∧ ∃ x, offered r s.log = served r s.log ++ [x]

/-- At most the last of what was offered is missing. -/
def Kept (r : ρ) (log : List (RoundNote α ρ)) : Prop := ∃ rest, offered r log = served r log ++ rest ∧ rest.length ≤ 1

/-- A round begins with the members. -/
def Began (earlier : List (RoundNote α ρ)) (e : RoundNote α ρ) : Prop := ∀ x rs, e = .begun x rs → ∀ r, r ∈ rs ↔ Member earlier r

/-- Whoever joins is new. -/
def Fresh (earlier : List (RoundNote α ρ)) (e : RoundNote α ρ) : Prop := ∀ r, e = .joined r → .joined r ∉ earlier

structure Sound (s : Round α ρ) : Prop where
  nodup : ∀ x rest, s.under = some (x, rest) → rest.Nodup
  joined : ∀ x rest, s.under = some (x, rest) → ∀ r ∈ rest, .joined r ∈ s.log
  accounts : ∀ r, s.Accounts r
  kept : ∀ log, log <+: s.log → ∀ r, Kept r log
  began : Noted Began s.log
  fresh : Noted Fresh s.log

theorem offered_snoc (r : ρ) (log : List (RoundNote α ρ)) (e : RoundNote α ρ) :
    offered r (log ++ [e]) = offered r log ++ (e.offers? r).toList := by
  unfold offered
  rw [List.filterMap_append]
  cases he : e.offers? r with
  | none => simp [he]
  | some x => simp [he]

theorem served_snoc (r : ρ) (log : List (RoundNote α ρ)) (e : RoundNote α ρ) :
    served r (log ++ [e]) = served r log ++ (e.serves? r).toList := by
  unfold served
  rw [List.filterMap_append]
  cases he : e.serves? r with
  | none => simp [he]
  | some x => simp [he]

theorem due_le (r : ρ) (s : Round α ρ) : (s.due r).length ≤ 1 := by
  unfold Round.due
  split
  · split
    · exact Nat.le_refl 1
    · exact Nat.zero_le 1
  · exact Nat.zero_le 1

theorem Round.Accounts.kept {r : ρ} {s : Round α ρ} (h : s.Accounts r) : Kept r s.log := by
  rcases h with h | ⟨-, -, -, x, h⟩
  · exact ⟨_, h, due_le r s⟩
  · exact ⟨[x], h, Nat.le_refl 1⟩

omit [DecidableEq ρ] in
theorem member_snoc {log : List (RoundNote α ρ)} {e : RoundNote α ρ} {r : ρ} (hj : e ≠ .joined r) (hl : e ≠ .left r) :
    Member (log ++ [e]) r ↔ Member log r := by
  simp [Member, hj.symm, hl.symm]

/-- A note that neither offers to `r` nor serves it, nor moves it, leaves its account as it is. -/
theorem accounts_snoc {r : ρ} {s s' : Round α ρ} {e : RoundNote α ρ} (h : s.Accounts r) (hlog : s'.log = s.log ++ [e])
    (ho : e.offers? r = none) (hs : e.serves? r = none) (hj : e ≠ .joined r) (hl : e ≠ .left r) (hdue : s'.due r = s.due r) :
    s'.Accounts r := by
  have hoffered : offered r s'.log = offered r s.log := by rw [hlog, offered_snoc, ho, Option.toList_none, List.append_nil]
  have hserved : served r s'.log = served r s.log := by rw [hlog, served_snoc, hs, Option.toList_none, List.append_nil]
  have hmember : Member s'.log r ↔ Member s.log r := by rw [hlog, member_snoc hj hl]
  unfold Round.Accounts
  rw [hoffered, hserved, hdue, hmember, hlog]
  rcases h with h | ⟨hin, h⟩
  · exact Or.inl h
  · exact Or.inr ⟨List.mem_append_left _ hin, h⟩

theorem accounts_move {s s' : Round α ρ} (hm : Move s s') (h : Sound s) (r : ρ) : s'.Accounts r := by
  have hacc := h.accounts r
  cases hm with
  | join r' hnew =>
    by_cases hr : r' = r
    · subst hr
      refine Or.inl ?_
      rcases hacc with hacc | ⟨hin, -⟩
      · show offered r' (s.log ++ [.joined r']) = served r' (s.log ++ [.joined r']) ++ s.due r'
        rw [offered_snoc, served_snoc, hacc]
        simp [RoundNote.offers?, RoundNote.serves?]
      · exact absurd hin hnew
    · exact accounts_snoc hacc rfl rfl rfl (by simp [hr]) nofun rfl
  | leave r' hmem =>
    by_cases hr : r' = r
    · subst hr
      refine Or.inl ?_
      rcases hacc with hacc | ⟨-, hnot, -⟩
      · show offered r' (s.log ++ [.left r']) = served r' (s.log ++ [.left r']) ++ s.due r'
        rw [offered_snoc, served_snoc, hacc]
        simp [RoundNote.offers?, RoundNote.serves?]
      · exact absurd hmem hnot
    · exact accounts_snoc hacc rfl rfl rfl nofun (by simp [hr]) rfl
  | begin_ x rs hidle hnodup hrs =>
    have hdue : s.due r = [] := by rw [Round.due, hidle]
    by_cases hr : r ∈ rs
    · refine Or.inl ?_
      rcases hacc with hacc | ⟨-, hnot, -⟩
      · show offered r (s.log ++ [.begun x rs]) = served r (s.log ++ [.begun x rs]) ++ (if r ∈ rs then [x] else [])
        rw [offered_snoc, served_snoc, hacc, hdue]
        simp [RoundNote.offers?, RoundNote.serves?, hr]
      · exact absurd ((hrs r).mp hr) hnot
    · refine accounts_snoc hacc rfl (by simp [RoundNote.offers?, hr]) rfl nofun nofun ?_
      rw [hdue]
      exact if_neg hr
  | serve x r' rest hunder =>
    have hnodup := List.nodup_cons.mp (h.nodup x _ hunder)
    by_cases hr : r' = r
    · subst hr
      have hdue : s.due r' = [x] := by simp [Round.due, hunder]
      refine Or.inl ?_
      rcases hacc with hacc | ⟨-, -, hnil, -⟩
      · show offered r' (s.log ++ [.served r' x]) = served r' (s.log ++ [.served r' x]) ++ (if r' ∈ rest then [x] else [])
        rw [offered_snoc, served_snoc, hacc, hdue, if_neg hnodup.1]
        simp [RoundNote.offers?, RoundNote.serves?]
      · rw [hdue] at hnil
        cases hnil
    · refine accounts_snoc hacc rfl rfl (by simp [RoundNote.serves?, hr]) nofun nofun ?_
      simp [Round.due, hunder, Ne.symm hr]
  | pass x r' rest hunder hnot =>
    have hnodup := List.nodup_cons.mp (h.nodup x _ hunder)
    by_cases hr : r' = r
    · subst hr
      have hdue : s.due r' = [x] := by simp [Round.due, hunder]
      have hnil : Round.due r' { s with under := some (x, rest) } = [] := if_neg hnodup.1
      refine Or.inr ⟨h.joined x _ hunder r' List.mem_cons_self, hnot, hnil, x, ?_⟩
      rcases hacc with hacc | ⟨-, -, hdue', -⟩
      · rw [← hdue]
        exact hacc
      · rw [hdue] at hdue'
        cases hdue'
    · have hdue : Round.due r { s with under := some (x, rest) } = s.due r := by
        simp [Round.due, hunder, Ne.symm hr]
      unfold Round.Accounts
      rw [hdue]
      exact hacc
  | finish x hunder =>
    have hdue : s.due r = [] := by simp [Round.due, hunder]
    rw [Round.Accounts, hdue] at hacc
    exact hacc

theorem kept_snoc {log : List (RoundNote α ρ)} {e : RoundNote α ρ} (h : ∀ l, l <+: log → ∀ r, Kept r l)
    (hnow : ∀ r, Kept r (log ++ [e])) : ∀ l, l <+: log ++ [e] → ∀ r, Kept r l := by
  intro l hl
  rcases List.prefix_concat_iff.mp hl with rfl | hl
  · exact hnow
  · exact h l hl

theorem sound_move {s s' : Round α ρ} (hm : Move s s') (h : Sound s) : Sound s' := by
  have hacc := accounts_move hm h
  have hkept r := (hacc r).kept
  cases hm with
  | join r' hnew =>
    refine ⟨h.nodup, fun x rest hu r hr => List.mem_append_left _ (h.joined x rest hu r hr), hacc, kept_snoc h.kept hkept,
      noted_snoc.mpr ⟨h.began, nofun⟩, noted_snoc.mpr ⟨h.fresh, fun r heq => ?_⟩⟩
    cases heq
    exact hnew
  | leave r' hmem =>
    exact ⟨h.nodup, fun x rest hu r hr => List.mem_append_left _ (h.joined x rest hu r hr), hacc, kept_snoc h.kept hkept,
      noted_snoc.mpr ⟨h.began, nofun⟩, noted_snoc.mpr ⟨h.fresh, nofun⟩⟩
  | begin_ x rs hidle hnodup hrs =>
    refine ⟨fun x' rest hu => ?_, fun x' rest hu r hr => ?_, hacc, kept_snoc h.kept hkept,
      noted_snoc.mpr ⟨h.began, fun x' rs' heq => ?_⟩, noted_snoc.mpr ⟨h.fresh, nofun⟩⟩
    · cases hu
      exact hnodup
    · cases hu
      exact List.mem_append_left _ ((hrs r).mp hr).1
    · cases heq
      exact hrs
  | serve x r' rest hunder =>
    refine ⟨fun x' rest' hu => ?_, fun x' rest' hu r hr => ?_, hacc, kept_snoc h.kept hkept, noted_snoc.mpr ⟨h.began, nofun⟩,
      noted_snoc.mpr ⟨h.fresh, nofun⟩⟩
    · cases hu
      exact (List.nodup_cons.mp (h.nodup x _ hunder)).2
    · cases hu
      exact List.mem_append_left _ (h.joined x _ hunder r (List.mem_cons_of_mem _ hr))
  | pass x r' rest hunder hnot =>
    refine ⟨fun x' rest' hu => ?_, fun x' rest' hu r hr => ?_, hacc, h.kept, h.began, h.fresh⟩
    · cases hu
      exact (List.nodup_cons.mp (h.nodup x _ hunder)).2
    · cases hu
      exact h.joined x _ hunder r (List.mem_cons_of_mem _ hr)
  | finish x hunder => exact ⟨nofun, nofun, hacc, h.kept, h.began, h.fresh⟩

theorem sound_start : Sound (.start : Round α ρ) := by
  refine ⟨nofun, nofun, fun r => Or.inl rfl, fun l hl r => ?_, noted_nil, noted_nil⟩
  rw [List.prefix_nil.mp hl]
  exact ⟨[], rfl, Nat.zero_le 1⟩

/-! ## Every run -/

theorem rounds_sound {s : Round α ρ} (h : Relation.ReflTransGen Move .start s) : Sound s := by
  induction h with
  | refl => exact sound_start
  | tail _ hm ih => exact sound_move hm ih

section Runs

variable {s : Round α ρ} (h : Sound s)
include h

/-- What a member was served is what was offered to it, but for what is due, or the last it was passed over for. -/
theorem Sound.missing (r : ρ) : ∃ rest, offered r s.log = served r s.log ++ rest ∧ rest.length ≤ 1 ∧
    (rest ≠ [] → rest = s.due r ∨ .left r ∈ s.log) := by
  rcases h.accounts r with hacc | ⟨hin, hnot, -, x, hacc⟩
  · exact ⟨_, hacc, due_le r s, fun _ => Or.inl rfl⟩
  · refine ⟨[x], hacc, Nat.le_refl 1, fun _ => Or.inr ?_⟩
    by_contra hleft
    exact hnot ⟨hin, hleft⟩

/-- One that has left is offered nothing more. -/
theorem Sound.offered_after {r : ρ} {earlier later : List (RoundNote α ρ)} (hlog : s.log = earlier ++ .left r :: later) :
    offered r later = [] := by
  unfold offered
  rw [List.filterMap_eq_nil_iff]
  intro e he
  obtain ⟨before, after, rfl⟩ := List.append_of_mem he
  cases e with
  | begun x rs =>
    have hbegan := h.began (earlier ++ .left r :: before) (.begun x rs) after (by rw [hlog, List.append_assoc]; rfl) x rs rfl r
    refine if_neg fun hr => ?_
    exact (hbegan.mp hr).2 (List.mem_append_right _ List.mem_cons_self)
  | joined | left | served => rfl

/-- One that has joined and not left is offered every item since. -/
theorem Sound.offered_since {r : ρ} {earlier later : List (RoundNote α ρ)} (hlog : s.log = earlier ++ .joined r :: later)
    (hstays : .left r ∉ s.log) : offered r s.log = later.filterMap RoundNote.begun? := by
  have hbefore : offered r earlier = [] := by
    unfold offered
    rw [List.filterMap_eq_nil_iff]
    intro e he
    obtain ⟨before, after, rfl⟩ := List.append_of_mem he
    cases e with
    | begun x rs =>
      have hbegan := h.began before (.begun x rs) (after ++ .joined r :: later)
        (by rw [hlog, List.append_assoc]; rfl) x rs rfl r
      refine if_neg fun hr => ?_
      have hnew := h.fresh _ (.joined r) later hlog r rfl
      exact hnew (List.mem_append_left _ (hbegan.mp hr).1)
    | joined | left | served => rfl
  have hsince : offered r later = later.filterMap RoundNote.begun? := by
    refine List.filterMap_congr fun e he => ?_
    obtain ⟨before, after, rfl⟩ := List.append_of_mem he
    cases e with
    | begun x rs =>
      have hsplit : s.log = (earlier ++ .joined r :: before) ++ .begun x rs :: after := by rw [hlog, List.append_assoc]; rfl
      have hbegan := h.began _ (.begun x rs) after hsplit x rs rfl r
      refine if_pos (hbegan.mpr ⟨List.mem_append_right _ List.mem_cons_self, fun hl => hstays ?_⟩)
      rw [hsplit]
      exact List.mem_append_left _ hl
    | joined | left | served => rfl
  rw [hlog, ← hsince]
  unfold offered at hbefore ⊢
  rw [List.filterMap_append, hbefore, List.filterMap_cons]
  rfl

/-- One that has left is served once more at most. -/
theorem Sound.served_after {r : ρ} {earlier later : List (RoundNote α ρ)} (hlog : s.log = earlier ++ .left r :: later) :
    (served r later).length ≤ 1 := by
  obtain ⟨rest, hbefore, hle⟩ := h.kept earlier (by rw [hlog]; exact List.prefix_append _ _) r
  obtain ⟨rest', hnow, -⟩ := h.kept s.log (List.prefix_refl _) r
  have hoffered : offered r s.log = offered r earlier := by
    have hnone := h.offered_after hlog
    unfold offered at hnone ⊢
    rw [hlog, List.filterMap_append, List.filterMap_cons, hnone]
    exact List.append_nil _
  have hserved : served r s.log = served r earlier ++ served r later := by
    unfold served
    rw [hlog, List.filterMap_append, List.filterMap_cons]
    rfl
  rw [hoffered, hserved, hbefore, List.append_assoc] at hnow
  have hrest := List.append_cancel_left hnow
  rw [hrest, List.length_append] at hle
  omega

end Runs

end Rounds
