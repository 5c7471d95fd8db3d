/-
  TargetFacade.Lib.Cells — texts with an end mark in a piece of memory of a fixed size.

  A cell is none until it is written. `write` puts a text and its mark at the front of the
  memory, and `rest` says what that makes of the cells behind them. The memory is read as a
  text of a length that was fixed before, the mark not counted: `take_write_iff` says that the
  cells read are a text without the mark in it exactly when it is the one written, and as long.
-/

import Mathlib.Data.List.Basic

namespace Cells

universe u

variable {α : Type u}

/-- The cells of a text. -/
def ofText (w : List α) : List (Option α) := w.map some

def write (nul : α) (rest : Option α → Option α) (mem : List (Option α)) (v : List α) : List (Option α) :=
  ofText v ++ some nul :: (mem.drop (v.length + 1)).map rest

theorem ofText_inj {v w : List α} : ofText v = ofText w ↔ v = w :=
  ⟨fun h => List.map_injective_iff.mpr (fun _ _ h => Option.some.inj h) h, fun h => h ▸ rfl⟩

theorem take_write (nul : α) (rest : Option α → Option α) (mem : List (Option α)) (v : List α) :
    (write nul rest mem v).take v.length = ofText v := by
  have hlen : (ofText v).length = v.length := List.length_map _
  unfold write
  rw [← hlen, List.take_left]

theorem take_write_iff {nul : α} {rest : Option α → Option α} {mem : List (Option α)} {v w : List α} {n : Nat}
    (hw : nul ∉ w) (hn : v.length ≤ n) : (write nul rest mem v).take n = ofText w ↔ w = v ∧ v.length = n := by
  rcases Nat.lt_or_eq_of_le hn with hlt | rfl
  · refine iff_of_false (fun h => ?_) (fun h => by omega)
    -- the mark is among the cells that are read
    have hmark : some nul ∈ (write nul rest mem v).take n := by
      have hlen : (ofText v).length = v.length := List.length_map _
      have hsplit : (write nul rest mem v).take n = ofText v ++ (some nul :: (mem.drop (v.length + 1)).map rest).take (n - v.length) := by
        unfold write
        rw [List.take_append, hlen, List.take_of_length_le (by omega)]
      obtain ⟨k, hk⟩ := Nat.exists_eq_succ_of_ne_zero (Nat.sub_ne_zero_of_lt hlt)
      rw [hsplit, hk, List.take_succ_cons]
      exact List.mem_append_right _ (List.mem_cons_self ..)
    rw [h] at hmark
    obtain ⟨x, hx, hxn⟩ := List.mem_map.mp hmark
    exact hw (Option.some.inj hxn ▸ hx)
  · rw [take_write, ofText_inj]
    exact ⟨fun h => ⟨h.symm, rfl⟩, fun h => h.1.symm⟩

end Cells
