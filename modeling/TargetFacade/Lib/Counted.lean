/-
  TargetFacade.Lib.Counted — a reference count in an object, and those who hold the references.

  An object is made with one reference. Whoever takes the count to zero runs the object's last
  rites and then deletes it. `Kept c holders finals` ties the count to the references there are
  and to the last rites under way:
  - `Kept.addRef`, `Kept.release`, `Kept.delete`: the three operations keep it, when a reference
    is taken by one that has one, and given back by one that has it.
  - `Kept.there`: an object that somebody holds, or whose last rites are under way, is not deleted.
  - `Kept.alone`: nobody holds an object whose last rites are under way, and they are so once.
  - `Kept.unheld`: nobody holds one that was not made.
  - `Kept.gone_iff`: one that nobody holds and whose last rites are through is deleted, if it was
    made.

  Many objects are held by whoever owns them for good, and by the activities in a list, each of
  which holds so many of each. `InHand` is `Kept` of all objects while one activity is out of the
  list, with its references in its hand:
  - `inHand_take`, `InHand.put`: it leaves the list, and goes on as another.
  - `InHand.addRef`, `InHand.release`, `InHand.delete`, `InHand.move`: what it does meanwhile.
-/

import Mathlib.Logic.Function.Basic
import TargetFacade.Lib.Bag

namespace Counted

universe u v

open Bag
open Function (update)

/-! ## Weights -/

section Weigh

variable {α : Type u}

/-- What all of a list weigh. -/
def weigh (w : α → Nat) : List α → Nat
  | [] => 0
  | a :: l => w a + weigh w l

@[simp] theorem weigh_nil (w : α → Nat) : weigh w [] = 0 := rfl

@[simp] theorem weigh_cons (w : α → Nat) (a : α) (l : List α) : weigh w (a :: l) = w a + weigh w l := rfl

theorem weigh_put (w : α → Nat) (l : List α) (a : α) : weigh w (l ++ [a]) = weigh w l + w a := by
  induction l with
  | nil => exact Nat.add_comm (w a) 0
  | cons b l ih =>
    rw [List.cons_append, weigh_cons, weigh_cons, ih]
    omega

theorem weigh_take [BEq α] [LawfulBEq α] (w : α → Nat) {l : List α} {a : α} (h : a ∈ l) :
    weigh w (l.erase a) + w a = weigh w l := by
  induction l with
  | nil => cases h
  | cons b l ih =>
    by_cases hb : b = a
    · subst hb
      rw [List.erase_cons_head, weigh_cons, Nat.add_comm]
    · have hmem : a ∈ l := (List.mem_cons.mp h).resolve_left fun he => hb he.symm
      rw [List.erase_cons_tail (by simpa using hb), weigh_cons, weigh_cons, ← ih hmem]
      omega

theorem weigh_perm (w : α → Nat) {l m : List α} (h : l.Perm m) : weigh w l = weigh w m := by
  induction h with
  | nil => rfl
  | cons a _ ih => rw [weigh_cons, weigh_cons, ih]
  | swap a b l =>
    simp only [weigh_cons]
    omega
  | trans _ _ ih₁ ih₂ => exact ih₁.trans ih₂

theorem weigh_pos {w : α → Nat} {l : List α} {a : α} (h : a ∈ l) : w a ≤ weigh w l := by
  induction l with
  | nil => cases h
  | cons b l ih =>
    rw [weigh_cons]
    rcases List.mem_cons.mp h with rfl | h
    · omega
    · have := ih h
      omega

theorem weigh_zero {w : α → Nat} {l : List α} (h : ∀ a ∈ l, w a = 0) : weigh w l = 0 := by
  induction l with
  | nil => rfl
  | cons b l ih =>
    have htail : weigh w l = 0 := ih fun a ha => h a (List.mem_cons_of_mem b ha)
    rw [weigh_cons, h b List.mem_cons_self, htail]

end Weigh

/-! ## Counts -/

structure Count where
  bMade : Bool
  cRef : Nat
  bGone : Bool
  deriving DecidableEq, Repr

def Count.unmade : Count := ⟨false, 0, false⟩

/-- With its maker's reference. -/
def Count.made : Count := ⟨true, 1, false⟩

def Count.addRef (c : Count) : Count := { c with cRef := c.cRef + 1 }

def Count.release (c : Count) : Count := { c with cRef := c.cRef - 1 }

/-- A release takes it to zero. -/
def Count.last (c : Count) : Bool := c.cRef == 1

def Count.delete (c : Count) : Count := { c with bGone := true }

structure Kept (c : Count) (holders finals : Nat) : Prop where
  counted : c.cRef = holders
  made : 0 < holders → c.bMade = true
  last : finals + ifOne c.bGone = ifOne (c.bMade && c.cRef == 0)

variable {c : Count} {holders finals : Nat}

theorem kept_unmade : Kept .unmade 0 0 := ⟨rfl, fun h => absurd h (Nat.lt_irrefl 0), rfl⟩

theorem kept_made : Kept .made 1 0 := ⟨rfl, fun _ => rfl, rfl⟩

/-- While it has references nothing else is under way. -/
theorem Kept.live (h : Kept c holders finals) (hheld : 0 < holders) : finals = 0 ∧ c.bGone = false := by
  have hlast := h.last
  have hpos : (c.cRef == 0) = false := by
    rw [h.counted]
    exact beq_false_of_ne (by omega)
  rw [hpos, Bool.and_false, ifOne_false] at hlast
  cases hg : c.bGone with
  | false => exact ⟨by omega, rfl⟩
  | true =>
    rw [hg, ifOne_true] at hlast
    omega

theorem Kept.alone (h : Kept c holders finals) (hfinals : 0 < finals) : holders = 0 ∧ finals = 1 ∧ c.bGone = false := by
  have hzero : holders = 0 := by
    rcases Nat.eq_zero_or_pos holders with hz | hpos
    · exact hz
    · have := (h.live hpos).1
      omega
  have hlast := h.last
  have hle : ifOne (c.bMade && c.cRef == 0) ≤ 1 := by
    cases c.bMade && c.cRef == 0 <;> decide
  refine ⟨hzero, by omega, ?_⟩
  cases hg : c.bGone with
  | false => rfl
  | true =>
    rw [hg, ifOne_true] at hlast
    omega

theorem Kept.there (h : Kept c holders finals) (hheld : 0 < holders + finals) : c.bGone = false := by
  rcases Nat.eq_zero_or_pos holders with hz | hpos
  · exact (h.alone (by omega)).2.2
  · exact (h.live hpos).2

theorem Kept.unheld (h : Kept c holders finals) (hmade : c.bMade = false) : holders = 0 ∧ finals = 0 := by
  have hlast := h.last
  rw [hmade, Bool.false_and, ifOne_false] at hlast
  refine ⟨?_, by omega⟩
  rcases Nat.eq_zero_or_pos holders with hz | hpos
  · exact hz
  · rw [h.made hpos] at hmade
    cases hmade

theorem Kept.gone_iff (h : Kept c 0 0) : c.bGone = c.bMade := by
  have hlast := h.last
  rw [h.counted, beq_self_eq_true, Bool.and_true] at hlast
  cases hg : c.bGone <;> cases hm : c.bMade <;> simp [hg, hm] at hlast ⊢

theorem Kept.addRef (h : Kept c holders finals) (hheld : 0 < holders) : Kept c.addRef (holders + 1) finals := by
  refine ⟨congrArg (· + 1) h.counted, fun _ => h.made hheld, ?_⟩
  obtain ⟨hf, hg⟩ := h.live hheld
  have hpos : (c.cRef + 1 == 0) = false := beq_false_of_ne (by omega)
  show finals + ifOne c.bGone = ifOne (c.bMade && c.cRef + 1 == 0)
  rw [hf, hg, hpos, Bool.and_false]
  rfl

/-- The one who releases the last reference begins the last rites. -/
theorem Kept.release (h : Kept c holders finals) (hheld : 0 < holders) :
    Kept c.release (holders - 1) (finals + ifOne c.last) := by
  refine ⟨congrArg (· - 1) h.counted, fun _ => h.made hheld, ?_⟩
  obtain ⟨hf, hg⟩ := h.live hheld
  have hc := h.counted
  have hone : c.last = (c.cRef - 1 == 0) := by
    unfold Count.last
    rw [Bool.eq_iff_iff, beq_iff_eq, beq_iff_eq]
    omega
  show finals + ifOne c.last + ifOne c.bGone = ifOne (c.bMade && c.cRef - 1 == 0)
  rw [hf, hg, hone, h.made hheld, Bool.true_and, ifOne_false]
  omega

theorem Kept.delete (h : Kept c holders finals) (hfinals : 0 < finals) : Kept c.delete holders (finals - 1) := by
  obtain ⟨-, hone, hg⟩ := h.alone hfinals
  have hlast := h.last
  rw [hg, ifOne_false] at hlast
  refine ⟨h.counted, h.made, ?_⟩
  show finals - 1 + ifOne true = ifOne (c.bMade && c.cRef == 0)
  rw [ifOne_true]
  omega

/-! ## Many objects -/

section Objects

variable {O : Type u} {α : Type v} {holds finals : O → α → Nat}

/-- `base` is who holds them for good. -/
def InHand (holds finals : O → α → Nat) (ref : O → Count) (base : O → Nat) (acts : List α) (hand fin : O → Nat) : Prop :=
  ∀ o, Kept (ref o) (base o + weigh (holds o) acts + hand o) (weigh (finals o) acts + fin o)

variable {ref : O → Count} {base hand fin : O → Nat} {acts : List α}

theorem InHand.move (h : InHand holds finals ref base acts hand fin) {base' hand' fin' : O → Nat}
    (hb : ∀ o, base' o + hand' o = base o + hand o) (hf : ∀ o, fin' o = fin o) :
    InHand holds finals ref base' acts hand' fin' := by
  intro o
  have hsum : base' o + weigh (holds o) acts + hand' o = base o + weigh (holds o) acts + hand o := by
    have := hb o
    omega
  rw [hsum, hf o]
  exact h o

/-- Nothing is in hand but what the activity has. -/
theorem inHand_take [BEq α] [LawfulBEq α] (h : InHand holds finals ref base acts (fun _ => 0) (fun _ => 0)) {a : α} (ha : a ∈ acts) :
    InHand holds finals ref base (acts.erase a) (holds · a) (finals · a) := by
  intro o
  have hk := h o
  rw [← weigh_take (holds o) ha, ← weigh_take (finals o) ha, ← Nat.add_assoc] at hk
  exact hk

theorem InHand.put (h : InHand holds finals ref base acts hand fin) {a : α} {hand' fin' : O → Nat}
    (hh : ∀ o, hand' o + holds o a = hand o) (hf : ∀ o, fin' o + finals o a = fin o) :
    InHand holds finals ref base (acts ++ [a]) hand' fin' := by
  intro o
  have hk := h o
  rw [weigh_put, weigh_put]
  have hsum : base o + (weigh (holds o) acts + holds o a) + hand' o = base o + weigh (holds o) acts + hand o := by
    have := hh o
    omega
  have hfin : weigh (finals o) acts + finals o a + fin' o = weigh (finals o) acts + fin o := by
    have := hf o
    omega
  rw [hsum, hfin]
  exact hk

section Update

variable [DecidableEq O]

/-- One of an object. -/
def one (k : O) (o : O) : Nat := if o = k then 1 else 0

@[simp] theorem one_self (k : O) : one k k = 1 := if_pos rfl

theorem one_other {k o : O} (h : o ≠ k) : one k o = 0 := if_neg h

theorem update_succ (f : O → Nat) (k o : O) : update f k (f k + 1) o = f o + one k o := by
  by_cases ho : o = k
  · subst ho
    rw [Function.update_self, one_self]
  · rw [Function.update_of_ne ho, one_other ho, Nat.add_zero]

theorem update_pred {f : O → Nat} {k : O} (h : 0 < f k) (o : O) : update f k (f k - 1) o + one k o = f o := by
  by_cases ho : o = k
  · subst ho
    rw [Function.update_self, one_self]
    omega
  · rw [Function.update_of_ne ho, one_other ho, Nat.add_zero]

theorem count_put (l : List O) (k o : O) : (l ++ [k]).count o = l.count o + one k o := by
  rw [List.count_append]
  congr 1
  by_cases ho : o = k
  · subst ho
    rw [one_self, List.count_singleton_self]
  · rw [one_other ho, List.count_eq_zero]
    exact fun hm => ho (List.mem_singleton.mp hm)

theorem count_take {l : List O} {k : O} (hk : k ∈ l) (o : O) : (l.erase k).count o + one k o = l.count o := by
  rw [(List.perm_cons_erase hk).count_eq o, ← (List.perm_append_singleton k (l.erase k)).count_eq o, count_put]

/-- Someone has it. -/
theorem InHand.addRef (h : InHand holds finals ref base acts hand fin) {k : O} (hheld : 0 < base k + weigh (holds k) acts + hand k)
    {hand' : O → Nat} (hhand : ∀ o, hand' o = hand o + one k o) :
    InHand holds finals (update ref k (ref k).addRef) base acts hand' fin := by
  intro o
  rw [hhand o]
  by_cases ho : o = k
  · subst ho
    rw [Function.update_self, one_self, ← Nat.add_assoc]
    exact (h o).addRef hheld
  · rw [Function.update_of_ne ho, one_other ho, Nat.add_zero]
    exact h o

/-- The last reference goes over into the last rites. -/
theorem InHand.release (h : InHand holds finals ref base acts hand fin) {k : O} {hand' fin' : O → Nat}
    (hhand : ∀ o, hand' o + one k o = hand o) (hfin : ∀ o, fin' o = fin o + if (ref k).last then one k o else 0) :
    InHand holds finals (update ref k (ref k).release) base acts hand' fin' := by
  intro o
  have ho := hhand o
  rw [hfin o]
  by_cases hk : o = k
  · subst hk
    rw [one_self] at ho
    rw [Function.update_self, one_self, ← Nat.add_assoc]
    have hr := (h o).release (by omega)
    have hsum : base o + weigh (holds o) acts + hand' o = base o + weigh (holds o) acts + hand o - 1 := by omega
    rw [hsum]
    exact hr
  · rw [one_other hk, Nat.add_zero] at ho
    rw [Function.update_of_ne hk, one_other hk, ite_self, Nat.add_zero, ho]
    exact h o

theorem InHand.delete (h : InHand holds finals ref base acts hand fin) {k : O} {fin' : O → Nat}
    (hfin : ∀ o, fin' o + one k o = fin o) : InHand holds finals (update ref k (ref k).delete) base acts hand fin' := by
  intro o
  have ho := hfin o
  by_cases hk : o = k
  · subst hk
    rw [one_self] at ho
    rw [Function.update_self]
    have hd := (h o).delete (by omega)
    have hsum : weigh (finals o) acts + fin' o = weigh (finals o) acts + fin o - 1 := by omega
    rw [hsum]
    exact hd
  · rw [one_other hk, Nat.add_zero] at ho
    rw [Function.update_of_ne hk, ho]
    exact h o

/-- One that was not made is made, with a reference in hand. -/
theorem InHand.make (h : InHand holds finals ref base acts hand fin) {k : O} (hk : (ref k).bMade = false) {hand' : O → Nat}
    (hhand : ∀ o, hand' o = hand o + one k o) : InHand holds finals (update ref k .made) base acts hand' fin := by
  intro o
  rw [hhand o]
  by_cases ho : o = k
  · subst ho
    obtain ⟨hh, hf⟩ := (h o).unheld hk
    rw [Function.update_self, one_self]
    have hsum : base o + weigh (holds o) acts + (hand o + 1) = 1 := by omega
    rw [hsum, hf]
    exact kept_made
  · rw [Function.update_of_ne ho, one_other ho, Nat.add_zero]
    exact h o

end Update

end Objects

end Counted
