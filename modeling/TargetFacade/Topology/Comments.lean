/-
  TargetFacade.Topology.Comments — comments in a topology's text (TargetFacadeTopology.hpp: the format
  its header shows, parse, trim, token, split).

  The format shows a comment after a declaration, on its line. The parser knows a comment only by the
  first character of a line: what follows a declaration is part of its last word, which is an address,
  a dialer or an endpoint, and grows by it (`Read.grows`). So no comment after a declaration is without
  effect, and lines of their own always are (`comments_iff`).
-/

import Mathlib.Algebra.Order.Ring.Nat
import TargetFacade.Topology.Parse

namespace TargetFacade

open Text

namespace Topology

/-! ## The two edits -/

/-- Spaces and TABs, the white space of the format. -/
def White (ws : WStr) : Prop := ∀ b ∈ ws, b = 32 ∨ b = 9

/-- `#` or `;`. -/
def Mark (b : WChar) : Prop := b = 35 ∨ b = 59

/-- White space, then a comment. -/
structure Tail (c : WStr) : Prop where
  parts : ∃ ws mark x, c = ws ++ mark :: x ∧ ws ≠ [] ∧ White ws ∧ Mark mark

/-- A line that is blank, or a comment. -/
def Idle (line : WStr) : Prop := ∃ ws rest, line = ws ++ rest ∧ White ws ∧ ∀ b ∈ rest.head?, Mark b

/-- The lines of a text, and those of the text after it is edited: `n` declarations have a comment
    after them now, and there are blank lines and comments between the lines. -/
inductive Edited : Nat → List WStr → List WStr → Prop
  | nil : Edited 0 [] []
  | keep (line : WStr) {n : Nat} {ls ls' : List WStr} (h : Edited n ls ls') : Edited n (line :: ls) (line :: ls')
  | append (line c : WStr) {n : Nat} {ls ls' : List WStr} (hdecl : ¬ Idle line) (hc : Tail c)
      (h : Edited n ls ls') : Edited (n + 1) (line :: ls) ((line ++ c) :: ls')
  | insert (c : WStr) {n : Nat} {ls ls' : List WStr} (hc : Idle c) (h : Edited n ls ls') :
      Edited n ls (c :: ls')

/-- The same hubs, edges and endpoint entries. -/
structure Same (t t' : Topology) : Prop where
  hubs : t'.m_hubs = t.m_hubs
  edges : t'.m_edges = t.m_edges
  addresses : t'.m_entries = t.m_entries
  mapText : t'.m_mapText = t.m_mapText

/-! ## White space as the parser has it -/

theorem white_iff {ws : WStr} : White ws ↔ ∀ b ∈ ws, isBlank b = true := by simp [White, isBlank]

theorem Mark.stays {b : WChar} (h : Mark b) : isBlank b = false := by
  rcases h with rfl | rfl <;> rfl

theorem silent_cons (b : WChar) (x : WStr) : silent (b :: x) = true ↔ Mark b := by simp [silent, Mark]

theorem idle_iff (line : WStr) : Idle line ↔ silent (trim line) = true := by
  constructor
  · rintro ⟨ws, rest, rfl, hws, hrest⟩
    have hpad := strip_pad (p := isBlank) (u := ws) (s := rest) (v := []) (white_iff.mp hws) (by simp)
    rw [List.append_nil] at hpad
    unfold trim
    rw [hpad]
    cases rest with
    | nil => rfl
    | cons b x =>
      have hb : Mark b := hrest b rfl
      rw [strip_cons hb.stays, silent_cons]
      exact hb
  · intro h
    obtain ⟨p, q, hline, hp, hq⟩ := strip_parts isBlank line
    cases hs : strip isBlank line with
    | nil =>
      rw [hs, List.append_nil] at hline
      refine ⟨p ++ q, [], by rw [List.append_nil]; exact hline, white_iff.mpr fun b hb => ?_, nofun⟩
      exact (List.mem_append.mp hb).elim (hp b) (hq b)
    | cons b x =>
      have hb : Mark b := (silent_cons b x).mp (hs ▸ h)
      refine ⟨p, strip isBlank line ++ q, by rw [← List.append_assoc]; exact hline, white_iff.mpr hp, fun b' hb' => ?_⟩
      rw [hs] at hb'
      cases hb'
      exact hb

/-! ## Sizes -/

def Edge.size (e : Edge) : Nat := e.listener.length + e.dialer.length + e.endpoint.length

def entryLength (oEntry : Option (WStr × WStr)) : Nat := (oEntry.toList.flatMap fun e => renderEntry e ++ [10]).length

def Decl.size (d : Decl) : Nat :=
  (d.hub?.toList.map List.length).sum + entryLength d.entryOf + (d.edge?.toList.map Edge.size).sum

/-- The characters of what a topology holds. -/
def size (t : Topology) : Nat :=
  (t.m_hubs.map List.length).sum + t.m_mapText.length + (t.m_edges.map Edge.size).sum

def sizes (ds : List Numbered) : Nat := (ds.map (·.2.size)).sum

theorem size_plus (t : Topology) (lineNo : UInt32) (d : Decl) : (t.plus lineNo d).size = t.size + d.size := by
  unfold size plus Decl.size entryLength
  simp only [List.map_append, List.sum_append, List.length_append]
  omega

theorem size_hub (addr ep : WStr) :
    (Decl.hub addr ep).size = addr.length + entryLength (if ep.isEmpty then none else some (addr, ep)) := rfl

theorem size_at (addr ep : WStr) :
    (Decl.at_ addr ep).size = entryLength (if ep.isEmpty then none else some (addr, ep)) := Nat.zero_add _

theorem size_link (e : Edge) : (Decl.link e).size = e.listener.length + e.dialer.length + e.endpoint.length :=
  Nat.zero_add _

/-- An entry of a longer endpoint is longer. -/
theorem entryLength_lt {a e e' : WStr} (h : e.length < e'.length) :
    entryLength (if e.isEmpty then none else some (a, e)) < entryLength (if e'.isEmpty then none else some (a, e')) := by
  have hne : ¬ e'.isEmpty = true := by
    rw [List.isEmpty_iff]
    rintro rfl
    cases h
  have hfull (s : WStr) : entryLength (some (a, s)) = a.length + s.length + 4 := by
    simp [entryLength, renderEntry, L]
    omega
  rw [if_neg hne, hfull]
  split
  · exact Nat.succ_pos _
  · rw [hfull]
    omega

theorem addAll_size : ∀ {ds : List Numbered} {t t' : Topology}, t.addAll ds = some t' → t'.size = t.size + sizes ds := by
  intro ds
  induction ds with
  | nil =>
    intro t t' h
    cases h
    rfl
  | cons d ds ih =>
    intro t t' h
    obtain ⟨t1, hadd, h⟩ := Option.bind_eq_some_iff.mp h
    obtain rfl := addDecl_plus hadd
    rw [ih h, size_plus]
    unfold sizes
    rw [List.map_cons, List.sum_cons]
    omega

theorem Same.size {t t' : Topology} (h : Same t t') : t'.size = t.size := by
  unfold Topology.size
  rw [h.hubs, h.edges, h.mapText]

/-! ## What a tail does to a line -/

/-- What is not all blank. -/
def Marked (c : WStr) : Prop := ∃ x ∈ c, isBlank x = false

theorem Tail.marked {c : WStr} (h : Tail c) : Marked c := by
  obtain ⟨ws, mark, x, rfl, -, -, hmark⟩ := h.parts
  exact ⟨mark, by simp, hmark.stays⟩

theorem findText_bound {sub : WStr} : ∀ {s : WStr} {i : Nat}, findText sub s = some i → i + sub.length ≤ s.length := by
  intro s
  induction s with
  | nil =>
    intro i h
    unfold findText at h
    split at h
    · cases h
      simp_all
    · cases h
  | cons c s ih =>
    intro i h
    unfold findText at h
    split at h
    · rename_i hpre
      cases h
      have hle := (List.isPrefixOf_iff_prefix.mp hpre).length_le
      omega
    · obtain ⟨j, hj, rfl⟩ := Option.map_eq_some_iff.mp h
      have hle := ih hj
      rw [List.length_cons]
      omega

/-- What is found stays where it is found. -/
theorem findText_append {sub : WStr} (t : WStr) : ∀ {s : WStr} {i : Nat}, findText sub s = some i → findText sub (s ++ t) = some i := by
  intro s
  induction s with
  | nil =>
    intro i h
    unfold findText at h
    split at h
    · rename_i hsub
      cases h
      obtain rfl := List.isEmpty_iff.mp hsub
      cases t <;> rfl
    · cases h
  | cons c s ih =>
    intro i h
    rw [List.cons_append]
    unfold findText at h ⊢
    split at h
    · rename_i hpre
      have hyes : sub.isPrefixOf (c :: (s ++ t)) = true :=
        List.isPrefixOf_iff_prefix.mpr ((List.isPrefixOf_iff_prefix.mp hpre).trans (List.prefix_append (c :: s) t))
      rw [if_pos hyes, ← h]
    · rename_i hpre
      obtain ⟨j, hj, rfl⟩ := Option.map_eq_some_iff.mp h
      have hle := findText_bound hj
      have hno : ¬ sub.isPrefixOf (c :: (s ++ t)) = true := by
        intro hyes
        have hshort : sub.length ≤ (c :: s).length := by
          rw [List.length_cons]
          omega
        exact hpre (List.isPrefixOf_iff_prefix.mpr (List.prefix_of_prefix_length_le (List.isPrefixOf_iff_prefix.mp hyes)
          (List.prefix_append (c :: s) t) hshort))
      rw [if_neg hno, ih hj]
      rfl

/-- Before a '=' in a tail stands its mark. -/
theorem Tail.before {c p q : WStr} (h : Tail c) (hc : c = p ++ 61 :: q) : Marked p := by
  obtain ⟨ws, mark, x, rfl, -, hws, hmark⟩ := h.parts
  have hmark' : isBlank mark = false ∧ mark ≠ 61 := by rcases hmark with rfl | rfl <;> decide
  have hno : ¬ ((61 : WChar) = 32 ∨ (61 : WChar) = 9) := by decide
  rcases List.append_eq_append_iff.mp hc with ⟨m, hp, hm⟩ | ⟨m, hw, hm⟩
  · cases m with
    | nil => exact absurd (List.cons.inj hm).1 hmark'.2
    | cons y m =>
      obtain ⟨rfl, -⟩ := List.cons.inj hm
      exact ⟨mark, by rw [hp]; simp, hmark'.1⟩
  · cases m with
    | nil => exact absurd (List.cons.inj hm).1.symm hmark'.2
    | cons y m =>
      obtain ⟨rfl, -⟩ := List.cons.inj hm
      exact absurd (hws 61 (by rw [hw]; simp)) hno

/-- A tail stands after what is behind the '=', or without one after the whole, as far as its own. -/
theorem split_append {s c u v u' v' : WStr} (hc : Tail c) (h : split s 61 = (u, v)) (h' : split (s ++ c) 61 = (u', v')) :
    (v = [] ∧ ∃ c', Marked c' ∧ u' = u ++ c') ∨ (u' = u ∧ v' = v ++ c) := by
  rcases split_cases s 61 with ⟨hno, hs⟩ | ⟨p, q, rfl, hp, hs⟩
  · rw [hs] at h
    cases h
    rcases split_cases (s ++ c) 61 with ⟨-, hs'⟩ | ⟨p, q, hcut, hp, hs'⟩
    · rw [hs'] at h'
      cases h'
      exact Or.inl ⟨rfl, c, hc.marked, rfl⟩
    · rw [hs'] at h'
      cases h'
      rcases List.append_eq_append_iff.mp hcut with ⟨m, hpm, hm⟩ | ⟨m, hsm, hm⟩
      · exact Or.inl ⟨rfl, m, hc.before hm, hpm⟩
      · -- the '=' is not in what comes before the tail
        cases m with
        | nil =>
          refine Or.inl ⟨rfl, [], ?_, by rw [hsm]; simp⟩
          exact hc.before (p := []) hm.symm
        | cons y m =>
          obtain ⟨rfl, -⟩ := List.cons.inj hm
          exact absurd (by rw [hsm]; simp) hno
  · rw [hs] at h
    cases h
    have hsplit : split ((u ++ 61 :: v) ++ c) 61 = (u, v ++ c) := by
      rw [List.append_assoc, List.cons_append]
      exact split_cut hp
    rw [hsplit] at h'
    cases h'
    exact Or.inr ⟨rfl, rfl⟩

/-- Where the first word ends, and what is the rest. -/
theorem words_cut {w u : WStr} (hword : ∀ x ∈ w, isBlank x = false) (hhead : ∀ x ∈ (w ++ u).head?, isBlank x = false)
    (hgap : ∀ x ∈ u.head?, isBlank x = true) : wordOf (w ++ u) = w ∧ restOf (w ++ u) = trim u := by
  have hclean : Clean isBlank w := ⟨fun x hx => hword x (List.mem_of_head? hx), fun x hx => hword x (List.mem_of_getLast? hx)⟩
  have hdrop : (w ++ u).dropWhile isBlank = w ++ u := by
    cases hh : w ++ u with
    | nil => rfl
    | cons x s => simp [hhead x (by rw [hh]; rfl)]
  have htake : (w ++ u).takeWhile (fun x => !isBlank x) = w := by
    rw [List.takeWhile_append_of_pos (fun x hx => by simp [hword x hx])]
    cases hh : u with
    | nil => simp
    | cons x s => simp [hgap x (by rw [hh]; rfl)]
  have htoken : wordOf (w ++ u) = w := by
    unfold wordOf token
    rw [List.drop_zero, hdrop, htake]
    exact strip_of_clean hclean
  refine ⟨htoken, ?_⟩
  unfold restOf
  rw [htoken, List.drop_left]

/-- A line is its first word and what comes after it, a blank first. -/
theorem exists_word (line : WStr) : ∃ w v, line = w ++ v ∧ (∀ x ∈ w, isBlank x = false) ∧ ∀ x ∈ v.head?, isBlank x = true := by
  refine ⟨line.takeWhile fun x => !isBlank x, line.dropWhile fun x => !isBlank x, ?_, fun x hx => ?_, fun x hx => ?_⟩
  · rw [List.takeWhile_append_dropWhile]
  · have hx := List.mem_takeWhile_imp hx
    simpa using hx
  · have hnot := List.head?_dropWhile_not (fun x => !isBlank x) line
    rw [Option.mem_def.mp hx] at hnot
    simpa using hnot

/-- A tail does not touch the first word, and what follows it has the tail after it. -/
theorem words_append {line c : WStr} (hclean : Clean isBlank line) (hrest : restOf line ≠ []) (hne : c ≠ [])
    (hlast : ∀ x ∈ c.getLast?, isBlank x = false) :
    wordOf (line ++ c) = wordOf line ∧ restOf (line ++ c) = restOf line ++ c := by
  obtain ⟨w, v, rfl, hword, hgap⟩ := exists_word line
  obtain ⟨hword0, hrest0⟩ := words_cut hword hclean.head hgap
  have hvne : v ≠ [] := by
    rintro rfl
    exact hrest hrest0
  have hhead : (w ++ (v ++ c)).head? = (w ++ v).head? := by
    rw [← List.append_assoc, List.head?_append_of_ne_nil _ (List.append_ne_nil_of_right_ne_nil w hvne)]
  have hgap1 : (v ++ c).head? = v.head? := List.head?_append_of_ne_nil _ hvne
  obtain ⟨hword1, hrest1⟩ := words_cut hword (hhead ▸ hclean.head) (hgap1 ▸ hgap)
  rw [List.append_assoc]
  refine ⟨hword1.trans hword0.symm, ?_⟩
  rw [hrest0] at hrest
  rw [hrest1, hrest0]
  refine strip_append (fun x hx => hclean.last x ?_) hrest hne hlast
  rw [List.getLast?_append_of_ne_nil _ hvne]
  exact hx

theorem Read.rest {line : WStr} {d : Decl} (h : Read line d) : restOf line ≠ [] := by
  intro hnil
  have hsplit0 : split (restOf line) 61 = ([], []) := by
    rw [hnil]
    rfl
  cases h with
  | hub addr ep hverb hsplit hne hplace =>
    rw [hsplit0] at hsplit
    cases hsplit
    exact hne rfl
  | at_ addr ep hverb hsplit hne hplace hep =>
    rw [hsplit0] at hsplit
    cases hsplit
    exact hne rfl
  | link pair ep arrow hverb hsplit harrow hfine =>
    rw [hsplit0] at hsplit
    cases hsplit
    cases harrow

/-- A declaration with a tail after it, if it still is one, has more in it. -/
theorem Read.grows {line c : WStr} {d d' : Decl} (h : Read line d) (hclean : Clean isBlank line) (hc : Tail c)
    (hlast : ∀ x ∈ c.getLast?, isBlank x = false) (h' : Read (line ++ c) d') : d.size < d'.size := by
  have hne : c ≠ [] := by
    obtain ⟨x, hx, -⟩ := hc.marked
    exact List.ne_nil_of_mem hx
  obtain ⟨hword, hrest⟩ := words_append hclean h.rest hne hlast
  obtain ⟨hha, hlh, hla⟩ := verbs_apart
  cases h with
  | hub addr ep hverb hsplit hne hplace =>
    cases h' with
    | hub addr' ep' hverb' hsplit' hne' hplace' =>
      rw [hrest] at hsplit'
      rcases split_append hc hsplit hsplit' with ⟨rfl, c', hc', rfl⟩ | ⟨rfl, rfl⟩
      · rw [size_hub, size_hub]
        exact Nat.lt_of_lt_of_le (strip_grows addr hc') (Nat.le_add_right _ _)
      · rw [size_hub, size_hub]
        exact Nat.add_lt_add_left (entryLength_lt (strip_grows ep hc.marked)) _
    | at_ addr' ep' hverb' => exact absurd (hverb.symm.trans (hword ▸ hverb')) hha
    | link pair' ep' arrow' hverb' => exact absurd (hverb'.symm.trans (hword ▸ hverb)) hlh
  | at_ addr ep hverb hsplit hne hplace hep =>
    cases h' with
    | hub addr' ep' hverb' => exact absurd (hverb'.symm.trans (hword ▸ hverb)) hha
    | at_ addr' ep' hverb' hsplit' hne' hplace' hep' =>
      rw [hrest] at hsplit'
      rcases split_append hc hsplit hsplit' with ⟨rfl, -⟩ | ⟨rfl, rfl⟩
      · exact absurd rfl hep
      · rw [size_at, size_at]
        exact entryLength_lt (strip_grows ep hc.marked)
    | link pair' ep' arrow' hverb' => exact absurd (hverb'.symm.trans (hword ▸ hverb)) hla
  | link pair ep arrow hverb hsplit harrow hfine =>
    cases h' with
    | hub addr' ep' hverb' => exact absurd (hverb.symm.trans (hword ▸ hverb')) hlh
    | at_ addr' ep' hverb' => exact absurd (hverb.symm.trans (hword ▸ hverb')) hla
    | link pair' ep' arrow' hverb' hsplit' harrow' hfine' =>
      rw [hrest] at hsplit'
      rcases split_append hc hsplit hsplit' with ⟨rfl, c', hc', rfl⟩ | ⟨rfl, rfl⟩
      · -- the arrow stays, and the dialer grows
        obtain rfl := Option.some.inj (harrow'.symm.trans (findText_append c' harrow))
        have hbound : arrow' + 2 ≤ pair.length := findText_bound harrow
        have htake : (pair ++ c').take arrow' = pair.take arrow' := List.take_append_of_le_length (by omega)
        have hdrop : (pair ++ c').drop (arrow' + 2) = pair.drop (arrow' + 2) ++ c' := List.drop_append_of_le_length hbound
        rw [size_link, size_link, htake, hdrop]
        exact Nat.lt_of_lt_of_le (Nat.add_lt_add_left (strip_grows (pair.drop (arrow' + 2)) hc') _) (Nat.le_add_right _ _)
      · obtain rfl := Option.some.inj (harrow'.symm.trans harrow)
        rw [size_link, size_link]
        exact Nat.add_lt_add_left (strip_grows ep hc.marked) _

/-- A line that is not silent, trimmed with a tail after it: the tail is kept, as far as it is not blank. -/
theorem trim_tail {line c : WStr} (h : silent (trim line) = false) (hc : Tail c) :
    ∃ c', Tail c' ∧ (∀ x ∈ c'.getLast?, isBlank x = false) ∧ trim (line ++ c) = trim line ++ c' := by
  obtain ⟨ws, mark, x, rfl, hwne, hws, hmark⟩ := hc.parts
  obtain ⟨p, q, hline, hp, hq⟩ := strip_parts isBlank line
  have hne : strip isBlank line ≠ [] := by
    intro hnil
    have hnil : trim line = [] := hnil
    rw [hnil] at h
    cases h
  obtain ⟨y, r, hy⟩ := List.exists_cons_of_ne_nil hne
  have hstay : isBlank mark = false := hmark.stays
  have hhead : ∀ d ∈ ((strip isBlank line ++ (q ++ ws)) ++ [mark]).head?, isBlank d = false := by
    intro d hd
    refine (strip_clean isBlank line).head d ?_
    rw [hy] at hd ⊢
    exact hd
  have hcut : trim (line ++ (ws ++ mark :: x)) = strip isBlank line ++ ((q ++ ws) ++ mark :: x.rdropWhile isBlank) := by
    have hpad := strip_pad (p := isBlank) (u := p) (s := (strip isBlank line ++ (q ++ ws)) ++ mark :: x) (v := []) hp (by simp)
    rw [strip_cut hhead hstay] at hpad
    have hwhole : line ++ (ws ++ mark :: x) = p ++ ((strip isBlank line ++ (q ++ ws)) ++ mark :: x) ++ [] := by
      nth_rewrite 1 [hline]
      simp only [List.append_nil, List.append_assoc]
    unfold trim
    rw [hwhole, hpad]
    simp only [List.append_assoc]
  refine ⟨(q ++ ws) ++ mark :: x.rdropWhile isBlank, ⟨q ++ ws, mark, _, rfl, by simp [hwne], ?_, hmark⟩, fun d hd => ?_, hcut⟩
  · intro b hb
    rcases List.mem_append.mp hb with hb | hb
    · exact white_iff.mpr hq b hb
    · exact hws b hb
  · refine (strip_clean isBlank (line ++ (ws ++ mark :: x))).last d ?_
    rw [show strip isBlank (line ++ (ws ++ mark :: x)) = _ from hcut, List.getLast?_append_of_ne_nil _ (by simp)]
    exact hd

theorem readLine_tail {line c : WStr} {oDecl oDecl' : Option Decl} (h : silent (trim line) = false) (hc : Tail c)
    (hread : readLine (trim line) = some oDecl) (hread' : readLine (trim (line ++ c)) = some oDecl') :
    ∃ d d', oDecl = some d ∧ oDecl' = some d' ∧ d.size < d'.size := by
  obtain ⟨c', hc', hlast, htrim⟩ := trim_tail h hc
  have hsilent : silent (trim line ++ c') = false := by
    cases hl : trim line with
    | nil =>
      rw [hl] at h
      cases h
    | cons y r =>
      rw [hl] at h
      exact h
  rw [htrim] at hread'
  obtain ⟨d, rfl, hd⟩ := (readLine_iff h _).mp hread
  obtain ⟨d', rfl, hd'⟩ := (readLine_iff hsilent _).mp hread'
  exact ⟨d, d', rfl, rfl, hd.grows (strip_clean isBlank line) hc' hlast hd'⟩

/-! ## What an edit does to a text -/

/-- The declarations of an edited text have as many characters more at least as there are comments after them. -/
theorem edited_sizes {n : Nat} {ls ls' : List WStr} (h : Edited n ls ls') : ∀ {k k' : Nat} {ds ds' : List Numbered},
    readLines k ls = some ds → readLines k' ls' = some ds' → sizes ds + n ≤ sizes ds' := by
  have hsizes (oDecl : Option Decl) (k : Nat) (ds : List Numbered) :
      sizes ((oDecl.map (k, ·)).toList ++ ds) = (oDecl.toList.map Decl.size).sum + sizes ds := by
    cases oDecl <;> simp [sizes]
  induction h with
  | nil =>
    intro k k' ds ds' hds hds'
    cases hds
    cases hds'
    exact Nat.le_refl _
  | keep line h ih =>
    intro k k' ds ds' hds hds'
    obtain ⟨oDecl, hread, hds⟩ := Option.bind_eq_some_iff.mp hds
    obtain ⟨es, hes, rfl⟩ := Option.map_eq_some_iff.mp hds
    obtain ⟨oDecl', hread', hds'⟩ := Option.bind_eq_some_iff.mp hds'
    obtain ⟨es', hes', rfl⟩ := Option.map_eq_some_iff.mp hds'
    obtain rfl := Option.some.inj (hread.symm.trans hread')
    have hle := ih hes hes'
    rw [hsizes, hsizes]
    omega
  | append line c hdecl hc h ih =>
    intro k k' ds ds' hds hds'
    obtain ⟨oDecl, hread, hds⟩ := Option.bind_eq_some_iff.mp hds
    obtain ⟨es, hes, rfl⟩ := Option.map_eq_some_iff.mp hds
    obtain ⟨oDecl', hread', hds'⟩ := Option.bind_eq_some_iff.mp hds'
    obtain ⟨es', hes', rfl⟩ := Option.map_eq_some_iff.mp hds'
    obtain ⟨d, d', rfl, rfl, hlt⟩ := readLine_tail (by simpa [idle_iff] using hdecl) hc hread hread'
    have hle := ih hes hes'
    rw [hsizes, hsizes]
    simp only [Option.toList_some, List.map_cons, List.map_nil, List.sum_cons, List.sum_nil]
    omega
  | insert c hc h ih =>
    intro k k' ds ds' hds hds'
    obtain ⟨oDecl', hread', hds'⟩ := Option.bind_eq_some_iff.mp hds'
    obtain ⟨es', hes', rfl⟩ := Option.map_eq_some_iff.mp hds'
    rw [readLine_silent ((idle_iff c).mp hc)] at hread'
    obtain rfl := Option.some.inj hread'
    exact ih hds hes'

/-- With no comment after a declaration, an edited text declares the same. -/
theorem edited_reads {n : Nat} {ls ls' : List WStr} (h : Edited n ls ls') (hn : n = 0) : ∀ {k m : Nat} {ds : List Numbered},
    readLines k ls = some ds → ∃ ds', readLines m ls' = some ds' ∧ ds'.map (·.2) = ds.map (·.2) := by
  induction h with
  | nil =>
    intro k m ds hds
    exact ⟨[], rfl, by cases hds; rfl⟩
  | keep line h ih =>
    intro k m ds hds
    obtain ⟨oDecl, hread, hds⟩ := Option.bind_eq_some_iff.mp hds
    obtain ⟨es, hes, rfl⟩ := Option.map_eq_some_iff.mp hds
    obtain ⟨es', hes', hsame⟩ := ih hn (m := m + 1) hes
    refine ⟨(oDecl.map (m + 1, ·)).toList ++ es', ?_, ?_⟩
    · unfold readLines
      rw [hread, hes']
      rfl
    · rw [List.map_append, List.map_append, hsame]
      cases oDecl <;> rfl
  | append line c hdecl hc h ih => cases hn
  | insert c hc h ih =>
    intro k m ds hds
    obtain ⟨es', hes', hsame⟩ := ih hn (m := m + 1) hds
    refine ⟨es', ?_, hsame⟩
    unfold readLines
    rw [readLine_silent ((idle_iff c).mp hc), hes']
    rfl

/-- What a declaration may be refused for besides its line. -/
def Decl.fits (t : Topology) : Decl → Bool
  | .hub addr ep => !t.isHub addr && (ep.isEmpty || !t.hasEntry addr)
  | .at_ addr ep => ep.isEmpty || !t.hasEntry addr
  | .link e => t.isHub e.listener && t.isHub e.dialer

theorem addDecl_isSome (lineNo : UInt32) (t : Topology) (d : Decl) : (t.addDecl lineNo d).isSome = d.fits t := by
  have hadd (addr ep : WStr) (t : Topology) : (addEntry lineNo addr ep t).isSome = (ep.isEmpty || !t.hasEntry addr) := by
    unfold addEntry
    cases ep.isEmpty
    · cases t.hasEntry addr <;> rfl
    · rfl
  cases d with
  | hub addr ep =>
    simp only [addDecl, Decl.fits]
    cases t.isHub addr
    · exact hadd addr ep _
    · rfl
  | at_ addr ep => exact hadd addr ep t
  | link e =>
    simp only [addDecl, Decl.fits]
    cases t.isHub e.listener
    · rfl
    · cases t.isHub e.dialer <;> rfl

theorem addDecl_same {t u t' : Topology} (h : Same t u) {n m : UInt32} {d : Decl} (hadd : t.addDecl n d = some t') :
    ∃ u', u.addDecl m d = some u' ∧ Same t' u' := by
  have hplus : Same (t.plus n d) (u.plus m d) := by
    unfold plus
    exact ⟨by rw [h.hubs], by rw [h.edges], by rw [h.addresses], by rw [h.mapText]⟩
  have hsome : (u.addDecl m d).isSome = (t.addDecl n d).isSome := by
    rw [addDecl_isSome, addDecl_isSome]
    unfold Decl.fits isHub hasEntry
    rw [h.hubs, h.addresses]
  rw [hadd] at hsome
  obtain ⟨u', hu'⟩ := Option.isSome_iff_exists.mp hsome
  refine ⟨u', hu', ?_⟩
  rw [addDecl_plus hadd, addDecl_plus hu']
  exact hplus

theorem addAll_same : ∀ {ds ds' : List Numbered} {t u t' : Topology}, Same t u → ds'.map (·.2) = ds.map (·.2) →
    t.addAll ds = some t' → ∃ u', u.addAll ds' = some u' ∧ Same t' u' := by
  intro ds
  induction ds with
  | nil =>
    intro ds' t u t' h hmap hall
    obtain rfl : ds' = [] := List.map_eq_nil_iff.mp hmap
    cases hall
    exact ⟨u, rfl, h⟩
  | cons d ds ih =>
    intro ds' t u t' h hmap hall
    obtain ⟨d', rest, rfl, hd, hrest⟩ := List.map_eq_cons_iff.mp hmap
    obtain ⟨t1, hadd, hall⟩ := Option.bind_eq_some_iff.mp hall
    obtain ⟨u1, hadd', hsame⟩ := addDecl_same h (m := UInt32.ofNat d'.1) hadd
    obtain ⟨u', hall', hsame'⟩ := ih hsame hrest hall
    refine ⟨u', ?_, hsame'⟩
    unfold addAll
    rw [hd, hadd']
    exact hall'

/-- An edit keeps a topology exactly when it puts no comment after a declaration. -/
theorem comments_iff {text text' : WStr} {out t : Topology} {n : Nat} (h : parse (some text) out = (S_OK, t, 0))
    (hedit : Edited n (Lines.lines 13 10 text) (Lines.lines 13 10 text')) :
    (∃ t', parse (some text') out = (S_OK, t', 0) ∧ Same t t') ↔ n = 0 := by
  obtain ⟨ds, hread, hall⟩ := (parse_iff text out t).mp h
  constructor
  · rintro ⟨t', h', hsame⟩
    obtain ⟨ds', hread', hall'⟩ := (parse_iff text' out t').mp h'
    have hle := edited_sizes hedit hread hread'
    have hsize := hsame.size
    rw [addAll_size hall, addAll_size hall'] at hsize
    omega
  · intro hn
    obtain ⟨ds', hread', hmap⟩ := edited_reads hedit hn (m := 0) hread
    obtain ⟨t', hall', hsame⟩ := addAll_same (u := empty) ⟨rfl, rfl, rfl, rfl⟩ hmap hall
    exact ⟨t', (parse_iff text' out t').mpr ⟨ds', hread', hall'⟩, hsame⟩

/-- One hub, and a comment after it. -/
theorem edited_one : Edited 1 (Lines.lines 13 10 (L "hub A")) (Lines.lines 13 10 (L "hub A ; x")) := by
  rw [Lines.lines_one (by decide) (by decide), Lines.lines_one (by decide) (by decide)]
  have hdecl : ¬ Idle (L "hub A") := by
    rw [idle_iff]
    decide
  have hblank : White (L " ") := white_iff.mpr (List.all_eq_true.mp (by decide))
  exact .append (L "hub A") (L " ; x") hdecl ⟨L " ", 59, L " x", by decide, by decide, hblank, Or.inr rfl⟩ .nil

theorem hub_parsed (out : Topology) : parse (some (L "hub A")) out = (S_OK, ⟨[L "A"], [], [], [], []⟩, 0) :=
  have hread : readLines 0 [L "hub A"] = some [(1, .hub (L "A") [])] := by decide
  parse_one (by decide) hread (by decide) out

theorem comments_iff_one : (∃ t', parse (some (L "hub A ; x")) empty = (S_OK, t', 0) ∧ Same ⟨[L "A"], [], [], [], []⟩ t') ↔ 1 = 0 :=
  comments_iff (hub_parsed empty) edited_one

/-- A comment after a hub is part of its address. -/
theorem comment_joins : parse (some (L "hub A")) empty = (S_OK, ⟨[L "A"], [], [], [], []⟩, 0) ∧
    Edited 1 (Lines.lines 13 10 (L "hub A")) (Lines.lines 13 10 (L "hub A ; x")) ∧
    parse (some (L "hub A ; x")) empty = (S_OK, ⟨[L "A ; x"], [], [], [], []⟩, 0) ∧
    ¬ ∃ t', parse (some (L "hub A ; x")) empty = (S_OK, t', 0) ∧ Same ⟨[L "A"], [], [], [], []⟩ t' := by
  have hjoined : parse (some (L "hub A ; x")) empty = (S_OK, ⟨[L "A ; x"], [], [], [], []⟩, 0) :=
    have hread : readLines 0 [L "hub A ; x"] = some [(1, .hub (L "A ; x") [])] := by decide
    parse_one (by decide) hread (by decide) empty
  refine ⟨hub_parsed empty, edited_one, hjoined, ?_⟩
  rintro ⟨t', h', hsame⟩
  rw [hjoined] at h'
  cases h'
  have hhubs := hsame.hubs
  revert hhubs
  decide

end Topology

end TargetFacade
