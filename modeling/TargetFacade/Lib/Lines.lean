/-
  TargetFacade.Lib.Lines — the lines of a text whose lines end in "\n", "\r\n" or "\r", the last
  one in nothing.

  `lines` cuts a text and `joined` puts rows (a line and its terminator) and a last line together.
  A text can be written in rows in one way only, once no row that ends in "\r" is followed by an
  empty one that ends in "\n" (`Apart`): `lines_joined` cuts such rows back into their lines, and
  by `exists_rows` every text is made of some.
-/

import Mathlib.Data.List.TakeWhile

namespace Lines

universe u

variable {α : Type u}

inductive Terminator where
  | lf
  | cr
  | crlf
  deriving DecidableEq, Repr

variable [DecidableEq α] (cr lf : α)

def Terminator.chars : Terminator → List α
  | .lf => [lf]
  | .cr => [cr]
  | .crlf => [cr, lf]

/-- The character ends a line. -/
def stops (c : α) : Bool := c = cr || c = lf

/-- What follows the terminator a text begins with. -/
def past : List α → List α
  | [] => []
  | c :: s => if c = cr && s.head? = some lf then s.tail else s

theorem past_length (s : List α) : (past cr lf s).length ≤ s.length - 1 := by
  cases s with
  | nil => simp [past]
  | cons c s =>
    simp only [past]
    split <;> simp

/-- The next line, and what is left from its end on. -/
def line (s : List α) : List α := s.takeWhile fun c => !stops cr lf c
def lineEnd (s : List α) : List α := s.dropWhile fun c => !stops cr lf c

theorem past_lineEnd_lt {s : List α} (h : (lineEnd cr lf s).isEmpty = false) :
    (past cr lf (lineEnd cr lf s)).length < s.length := by
  have hpast := past_length cr lf (lineEnd cr lf s)
  have hle : (lineEnd cr lf s).length ≤ s.length := (List.dropWhile_suffix _).length_le
  have hpos : 0 < (lineEnd cr lf s).length := by
    rw [List.length_pos_iff]
    simpa using h
  omega

def lines (s : List α) : List (List α) :=
  line cr lf s ::
    if _ : (lineEnd cr lf s).isEmpty = false then lines (past cr lf (lineEnd cr lf s)) else []
termination_by s.length
decreasing_by exact past_lineEnd_lt cr lf (by assumption)

theorem lines_length (s : List α) : (lines cr lf s).length ≤ s.length + 1 := by
  induction hn : s.length using Nat.strongRecOn generalizing s with
  | ind n ih =>
    unfold lines
    by_cases he : (lineEnd cr lf s).isEmpty = false
    · have hlt := past_lineEnd_lt cr lf he
      have hrest := ih _ (hn ▸ hlt) _ rfl
      rw [dif_pos he, List.length_cons]
      omega
    · rw [dif_neg he]
      simp

def joined : List (List α × Terminator) → List α → List α
  | [], last => last
  | (l, t) :: rows, last => l ++ (t.chars cr lf ++ joined rows last)

/-- No "\r" is followed by the "\n" of an empty line. -/
def Apart : List (List α × Terminator) → Prop
  | [] => True
  | (_, t) :: rows => (t = .cr → rows.head? ≠ some ([], .lf)) ∧ Apart rows

/-- The line holds no terminator. -/
def Whole (l : List α) : Prop := ∀ c ∈ l, stops cr lf c = false

instance (l : List α) : Decidable (Whole cr lf l) := inferInstanceAs (Decidable (∀ c ∈ l, stops cr lf c = false))

variable {cr lf}

theorem line_append {l s : List α} (hl : Whole cr lf l) (hs : ∀ c ∈ s.head?, stops cr lf c = true) :
    line cr lf (l ++ s) = l ∧ lineEnd cr lf (l ++ s) = s := by
  unfold line lineEnd
  have hpos : ∀ c ∈ l, (!stops cr lf c) = true := fun c hc => by simp [hl c hc]
  rw [List.takeWhile_append_of_pos hpos, List.dropWhile_append_of_pos hpos]
  cases s with
  | nil => simp
  | cons c s => simp [hs c (by simp)]

/-- A row's text begins with "\n" only when the row is empty and ends in it. -/
theorem joined_head {rows : List (List α × Terminator)} {last : List α} (hne : cr ≠ lf)
    (hrows : ∀ r ∈ rows, Whole cr lf r.1) (hlast : Whole cr lf last)
    (h : (joined cr lf rows last).head? = some lf) : rows.head? = some ([], .lf) := by
  have hstop : stops cr lf lf = true := by simp [stops]
  cases rows with
  | nil =>
    have := hlast lf (List.mem_of_head? h)
    rw [hstop] at this
    cases this
  | cons r rows =>
    obtain ⟨l, t⟩ := r
    cases l with
    | nil =>
      cases t with
      | lf => rfl
      | cr => exact absurd (by simpa [joined, Terminator.chars] using h) hne
      | crlf => exact absurd (by simpa [joined, Terminator.chars] using h) hne
    | cons c l =>
      obtain rfl : c = lf := by simpa [joined] using h
      have := hrows (c :: l, t) (by simp) c (by simp)
      rw [hstop] at this
      cases this

/-- Rows are cut back into their lines. -/
theorem lines_joined (hne : cr ≠ lf) : ∀ {rows : List (List α × Terminator)} {last : List α},
    (∀ r ∈ rows, Whole cr lf r.1) → Whole cr lf last → Apart rows →
      lines cr lf (joined cr lf rows last) = rows.map (·.1) ++ [last] := by
  intro rows
  induction rows with
  | nil =>
    intro last _ hlast _
    obtain ⟨h1, h2⟩ := line_append (s := []) hlast (by simp)
    rw [List.append_nil] at h1 h2
    unfold lines
    simp [joined, h1, h2]
  | cons r rows ih =>
    intro last hrows hlast hapart
    obtain ⟨l, t⟩ := r
    have hl := hrows (l, t) (by simp)
    have hrest := ih (fun r hr => hrows r (by simp [hr])) hlast hapart.2
    have hstop : ∀ c ∈ (t.chars cr lf ++ joined cr lf rows last).head?, stops cr lf c = true := by
      intro c hc
      cases t <;> simp [Terminator.chars] at hc <;> subst hc <;> simp [stops]
    obtain ⟨h1, h2⟩ := line_append hl hstop
    have hpast : past cr lf (t.chars cr lf ++ joined cr lf rows last) = joined cr lf rows last := by
      cases t with
      | lf => simp [Terminator.chars, past, Ne.symm hne]
      | crlf => simp [Terminator.chars, past]
      | cr =>
        have hhead : (joined cr lf rows last).head? ≠ some lf := fun h =>
          hapart.1 rfl (joined_head hne (fun r hr => hrows r (by simp [hr])) hlast h)
        simp [Terminator.chars, past, hhead]
    have hempty : (t.chars cr lf ++ joined cr lf rows last).isEmpty = false := by
      cases t <;> simp [Terminator.chars]
    unfold lines
    show line cr lf (l ++ (t.chars cr lf ++ joined cr lf rows last)) :: _ = _
    simp only [joined, h1, h2, hempty, hpast, dif_pos, hrest]
    rfl

theorem lines_one (hne : cr ≠ lf) {l : List α} (h : Whole cr lf l) : lines cr lf l = [l] :=
  have hnone : ∀ r ∈ ([] : List (List α × Terminator)), Whole cr lf r.1 := nofun
  lines_joined hne hnone h trivial

/-- Rows that all end in "\n" are cut back into themselves, and nothing after the last of them. -/
theorem lines_terminated (hne : cr ≠ lf) {rows : List (List α)} (h : ∀ r ∈ rows, Whole cr lf r) :
    lines cr lf (rows.flatMap (· ++ [lf])) = rows ++ [[]] := by
  have hjoin : ∀ l : List (List α), l.flatMap (· ++ [lf]) = joined cr lf (l.map fun r => (r, Terminator.lf)) [] := by
    intro l
    induction l with
    | nil => rfl
    | cons r l ih =>
      rw [List.flatMap_cons, ih, List.append_assoc]
      rfl
  have hapart : ∀ l : List (List α), Apart (l.map fun r => (r, Terminator.lf)) := by
    intro l
    induction l with
    | nil => trivial
    | cons r l ih => exact ⟨fun hc => (by cases hc), ih⟩
  rw [hjoin, lines_joined hne ?_ (fun _ hc => absurd hc List.not_mem_nil) (hapart _), List.map_map]
  · congr 1
    exact List.map_id rows
  · intro r hr
    obtain ⟨row, hrow, rfl⟩ := List.mem_map.mp hr
    exact h row hrow

/-- Every text is made of rows. -/
theorem exists_rows (hne : cr ≠ lf) (s : List α) : ∃ rows last, (∀ r ∈ rows, Whole cr lf r.1) ∧ Whole cr lf last ∧
    Apart rows ∧ joined cr lf rows last = s := by
  induction hn : s.length using Nat.strongRecOn generalizing s with
  | ind n ih =>
    have hline : Whole cr lf (line cr lf s) := fun c hc => by
      simpa using List.mem_takeWhile_imp hc
    have hs : line cr lf s ++ lineEnd cr lf s = s := List.takeWhile_append_dropWhile
    cases hend : lineEnd cr lf s with
    | nil =>
      refine ⟨[], s, by simp, ?_, trivial, rfl⟩
      rw [hend, List.append_nil] at hs
      rw [hs] at hline
      exact hline
    | cons c rest =>
      have hstop : stops cr lf c = true := by
        have hnot := List.head?_dropWhile_not (fun c => !stops cr lf c) s
        rw [show s.dropWhile (fun c => !stops cr lf c) = c :: rest from hend] at hnot
        simpa using hnot
      have hshort : (past cr lf (lineEnd cr lf s)).length < n := hn ▸ past_lineEnd_lt cr lf (by rw [hend]; rfl)
      obtain ⟨rows, last, hrows, hlast, hapart, hjoin⟩ := ih _ hshort _ rfl
      -- the terminator, as `past` reads it
      have hrow : ∀ t : Terminator, t.chars cr lf ++ past cr lf (c :: rest) = c :: rest →
          (t = .cr → (past cr lf (c :: rest)).head? ≠ some lf) →
          ∃ rows last, (∀ r ∈ rows, Whole cr lf r.1) ∧ Whole cr lf last ∧ Apart rows ∧ joined cr lf rows last = s := by
        intro t ht hcr
        rw [hend] at hjoin
        refine ⟨(line cr lf s, t) :: rows, last, ?_, hlast, ⟨fun he hhead => ?_, hapart⟩, ?_⟩
        · intro r hr
          rcases List.mem_cons.mp hr with rfl | hr
          · exact hline
          · exact hrows r hr
        · refine hcr he ?_
          rw [← hjoin]
          cases rows with
          | nil => cases hhead
          | cons r rows =>
            obtain rfl : r = ([], .lf) := by simpa using hhead
            simp [joined, Terminator.chars]
        · unfold joined
          rw [hjoin, ht, ← hend, hs]
      by_cases hc : c = cr
      · subst hc
        by_cases hlf : rest.head? = some lf
        · obtain ⟨rest', rfl⟩ : ∃ rest', rest = lf :: rest' := by
            cases rest with
            | nil => cases hlf
            | cons d r => exact ⟨r, by simpa using hlf⟩
          exact hrow .crlf (by simp [Terminator.chars, past]) (fun h => by cases h)
        · exact hrow .cr (by simp [Terminator.chars, past, hlf]) (fun _ => by simp [past, hlf])
      · obtain rfl : c = lf := by simpa [stops, hc] using hstop
        exact hrow .lf (by simp [Terminator.chars, past, hc]) (fun h => by cases h)

end Lines
