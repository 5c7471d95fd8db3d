/-
  TargetFacade.Endpoint.MapBlock — ParseFacadeEndpointMap, against a specification by lines.

  `takeLine` is the loop's body: one line into the map, or a refusal. The loop cuts the lines as
  it goes; `mapLoop_lines` says that it is `takeLine` over `Lines.lines` of the text. A line is
  blank, or an entry (`Entry`), or offends; the block is accepted when no line offends, and
  otherwise refused at the first that does (`FirstBad`). The count of lines is an unsigned int,
  so its number is right while it is below 2^32.
-/

import TargetFacade.Endpoint.Codec
import TargetFacade.Lib.Lines
import Mathlib.Data.Nat.Find

namespace TargetFacade

open OrdMap Text

abbrev FacadeEndpointMap := Map WStr WStr

/-! ## The parser -/

section Parser

variable (inet : InetPton)

/-- One line, trimmed, into the map; none is a line that is refused. -/
def takeLine (csLine : WStr) (mapLocal : FacadeEndpointMap) : Option FacadeEndpointMap :=
  if csLine.isEmpty || csLine.head? == some 35 || csLine.head? == some 59 then some mapLocal
  else
    -- the first '=' splits
    match Find csLine 61 with
    | none => none
    | some nEq =>
      if nEq == 0 then none
      else
        let csAddr := Trim (csLine.take nEq)
        let csEp := Trim (csLine.drop (nEq + 1))
        let (hr, oEp) := ParseFacadeEndpoint inet csEp false {}
        if csAddr.isEmpty || IsSwappedPeerArgument csAddr || FAILED hr then none
        else if oEp.eKind = .serial then none
        else if mapLocal.contains csAddr then none
        else some (mapLocal.insert csAddr oEp.Format)

/-- The loop, from the text at `p` and the lines counted so far: the map, or the number of the
    line that is refused. A line is one that a CString holds: the source casts its length to an
    int. -/
def mapLoop (p : WStr) (uLine : UInt32) (mapLocal : FacadeEndpointMap) : Except UInt32 FacadeEndpointMap :=
  let pEnd := Lines.lineEnd 13 10 p
  match takeLine inet (Trim (Lines.line 13 10 p)) mapLocal with
  | none => .error (uLine + 1)
  | some mapLocal =>
    if _ : pEnd.isEmpty = false then mapLoop (Lines.past 13 10 pEnd) (uLine + 1) mapLocal else .ok mapLocal
termination_by p.length
decreasing_by exact Lines.past_lineEnd_lt 13 10 (by assumption)

/-- The answer, the map `rOut` is left as, and what `puBadLine` receives. -/
def ParseFacadeEndpointMap (text : WStr) (rOut : FacadeEndpointMap) : HRESULT × FacadeEndpointMap × UInt32 :=
  if text.isEmpty then (S_OK, ∅, 0)
  else
    match mapLoop inet text 0 ∅ with
    | .ok mapLocal => (S_OK, mapLocal, 0)
    | .error uLine => (P2PF_E_ENDPOINT, rOut, uLine)

end Parser

/-! ## The specification -/

/-- A line with nothing on it, or a comment. -/
def Blank (line : WStr) : Prop := Trim line = [] ∨ (Trim line).head? = some 35 ∨ (Trim line).head? = some 59

instance (line : WStr) : Decidable (Blank line) :=
  inferInstanceAs (Decidable (Trim line = [] ∨ (Trim line).head? = some 35 ∨ (Trim line).head? = some 59))

/-- The line is 'address = endpoint', and the two are what an entry may hold. -/
structure Entry (inet : InetPton) (line csAddr : WStr) (oEp : FacadeEndpoint) : Prop where
  split : ∃ u v, Trim line = u ++ 61 :: v ∧ 61 ∉ u ∧ csAddr = Trim u ∧
    ParseFacadeEndpoint inet (Trim v) false {} = (S_OK, oEp)
  named : csAddr ≠ []
  inPlace : 58 ∉ csAddr ∧ ¬ L "//" <:+: csAddr
  kind : oEp.eKind ≠ .serial

/-- Line `i` is in order: blank, or an entry whose address no earlier line has. -/
def GoodLine (inet : InetPton) (ls : List WStr) (i : Nat) : Prop :=
  ∀ line, ls[i]? = some line → Blank line ∨ ∃ csAddr oEp, Entry inet line csAddr oEp ∧
    ∀ j < i, ∀ line', ls[j]? = some line' → ¬ Blank line' → ∀ oEp', ¬ Entry inet line' csAddr oEp'

/-- Line `n`, counted from 0, is the first that is not in order. -/
def FirstBad (inet : InetPton) (ls : List WStr) (n : Nat) : Prop :=
  ¬ GoodLine inet ls n ∧ ∀ i < n, GoodLine inet ls i

/-- What a block of these lines means to the parser: its map, or the number of a line. -/
structure LineSpec (inet : InetPton) (ls : List WStr) (rOut : FacadeEndpointMap)
    (out : HRESULT × FacadeEndpointMap × UInt32) : Prop where
  accepts : FAILED out.1 = false ↔ ∀ i, GoodLine inet ls i
  accepted : FAILED out.1 = false → ∀ k v, out.2.1[k]? = some v ↔
    ∃ line ∈ ls, ¬ Blank line ∧ ∃ oEp, Entry inet line k oEp ∧ v = oEp.Format
  refused : FAILED out.1 = true → out.2.1 = rOut ∧ ∃ n, FirstBad inet ls n ∧ out.2.2.toNat = n + 1

/-! ## One line -/

section OneLine

variable {inet : InetPton}

theorem wcsstr_iff {sub : WStr} : ∀ {s : WStr}, wcsstr sub s = true ↔ sub <:+: s := by
  intro s
  induction s with
  | nil => simp [wcsstr]
  | cons c s ih => rw [List.infix_cons_iff, ← ih]; simp [wcsstr]

theorem isSwapped_iff {peer : WStr} : IsSwappedPeerArgument peer = false ↔ 58 ∉ peer ∧ ¬ L "//" <:+: peer := by
  unfold IsSwappedPeerArgument
  rw [Bool.or_eq_false_iff, ← wcsstr_iff]
  simp

theorem entry_unique {line a a' : WStr} {oEp oEp' : FacadeEndpoint} (h : Entry inet line a oEp)
    (h' : Entry inet line a' oEp') : a = a' ∧ oEp = oEp' := by
  obtain ⟨u, v, hs, hu, rfl, hp⟩ := h.split
  obtain ⟨u', v', hs', hu', rfl, hp'⟩ := h'.split
  have hfind := find_cut.mpr ⟨u, v, hs, hu, rfl⟩
  have hfind' := find_cut.mpr ⟨u', v', hs', hu', rfl⟩
  have hlen : u.length = u'.length := by
    rw [hfind] at hfind'
    exact Option.some.inj hfind'
  obtain ⟨rfl, hv⟩ := List.append_inj (hs.symm.trans hs') hlen
  obtain ⟨-, rfl⟩ := List.cons.inj hv
  rw [hp] at hp'
  exact ⟨rfl, (Prod.mk.inj hp').2⟩

theorem takeLine_blank {line : WStr} (h : Blank line) (m : FacadeEndpointMap) :
    takeLine inet (Trim line) m = some m := by
  unfold takeLine
  rw [if_pos]
  rcases h with h | h | h <;> simp [h]

/-- A line that is not blank is taken when it is an entry with a new address. -/
theorem takeLine_iff {line : WStr} (h : ¬ Blank line) {m m' : FacadeEndpointMap} :
    takeLine inet (Trim line) m = some m' ↔
      ∃ csAddr oEp, Entry inet line csAddr oEp ∧ m[csAddr]? = none ∧ m' = m.insert csAddr oEp.Format := by
  have hnot : ¬ ((Trim line).isEmpty || (Trim line).head? == some 35 || (Trim line).head? == some 59) = true := by
    intro hb
    simp only [Bool.or_eq_true, List.isEmpty_iff, beq_iff_eq] at hb
    exact h (by rcases hb with (hb | hb) | hb <;> simp [Blank, hb])
  unfold takeLine
  rw [if_neg hnot]
  constructor
  · intro ht
    split at ht
    · cases ht
    rename_i nEq hfind
    obtain ⟨u, v, hs, hu, rfl⟩ := find_cut.mp hfind
    have htake : (Trim line).take u.length = u := by rw [hs]; simp
    have hdrop : (Trim line).drop (u.length + 1) = v := by rw [hs]; simp
    rw [htake, hdrop] at ht
    split at ht
    · cases ht
    obtain ⟨⟨hr, oEp⟩, hp⟩ : ∃ x, ParseFacadeEndpoint inet (Trim v) false {} = x := ⟨_, rfl⟩
    simp only [hp] at ht
    split at ht
    · cases ht
    rename_i hguard
    simp only [Bool.or_eq_true, List.isEmpty_iff, not_or, Bool.not_eq_true] at hguard
    split at ht
    · cases ht
    rename_i hkind
    split at ht
    · cases ht
    rename_i hnew
    cases ht
    obtain ⟨⟨hne, hswap⟩, hok⟩ := hguard
    have hcode : hr = S_OK := by
      unfold ParseFacadeEndpoint at hp
      cases hc : parseCore inet (Trim v) false {} with
      | none => rw [hc] at hp; cases hp; cases hok
      | some ep => rw [hc] at hp; exact (Prod.mk.inj hp).1.symm
    subst hcode
    refine ⟨Trim u, oEp, ⟨⟨u, v, hs, hu, rfl, hp⟩, hne, isSwapped_iff.mp hswap, hkind⟩, ?_, rfl⟩
    simpa using hnew
  · rintro ⟨csAddr, oEp, hentry, hnew, rfl⟩
    obtain ⟨u, v, hs, hu, rfl, hp⟩ := hentry.split
    have hfind : Find (Trim line) 61 = some u.length := find_cut.mpr ⟨u, v, hs, hu, rfl⟩
    have htake : (Trim line).take u.length = u := by rw [hs]; simp
    have hdrop : (Trim line).drop (u.length + 1) = v := by rw [hs]; simp
    have hn : (u.length == 0) = false := by
      have : u ≠ [] := fun e => hentry.named (by rw [e]; rfl)
      simpa using this
    have hne : (Trim u).isEmpty = false := by simpa using hentry.named
    have hcontains : m.contains (Trim u) = false := by
      rw [Std.ExtTreeMap.contains_eq_isSome_getElem?, hnew]
      rfl
    have hswap := isSwapped_iff.mpr hentry.inPlace
    simp only [hfind, hn, htake, hdrop, hp, hne, hswap, hentry.kind, hcontains, failed_S_OK,
      Bool.false_eq_true, if_false, Bool.or_self]

end OneLine

/-! ## All lines -/

section AllLines

variable {inet : InetPton}

/-- The loop over lines that are cut already. -/
def readLines (inet : InetPton) : List WStr → UInt32 → FacadeEndpointMap → Except UInt32 FacadeEndpointMap
  | [], _, m => .ok m
  | line :: ls, uLine, m =>
    match takeLine inet (Trim line) m with
    | none => .error (uLine + 1)
    | some m => readLines inet ls (uLine + 1) m

theorem mapLoop_lines (inet : InetPton) (p : WStr) (uLine : UInt32) (m : FacadeEndpointMap) :
    mapLoop inet p uLine m = readLines inet (Lines.lines 13 10 p) uLine m := by
  induction hn : p.length using Nat.strongRecOn generalizing p uLine m with
  | ind n ih =>
    unfold mapLoop Lines.lines readLines
    simp only
    cases takeLine inet (Trim (Lines.line 13 10 p)) m with
    | none => rfl
    | some m' =>
      by_cases he : (Lines.lineEnd 13 10 p).isEmpty = false
      · simp only [he, dif_pos]
        exact ih _ (hn ▸ Lines.past_lineEnd_lt 13 10 he) _ _ _ rfl
      · simp only [dif_neg he]
        rfl

/-- The map holds the entries of these lines. -/
def MapOf (inet : InetPton) (ls : List WStr) (m : FacadeEndpointMap) : Prop :=
  ∀ k v, m[k]? = some v ↔ ∃ line ∈ ls, ¬ Blank line ∧ ∃ oEp, Entry inet line k oEp ∧ v = oEp.Format

theorem mapOf_blank {ls : List WStr} {line : WStr} {m : FacadeEndpointMap} (hm : MapOf inet ls m) (hb : Blank line) :
    MapOf inet (ls ++ [line]) m := by
  intro k v
  rw [hm k v]
  constructor
  · rintro ⟨l, hl, hrest⟩
    exact ⟨l, by simp [hl], hrest⟩
  · rintro ⟨l, hl, hnb, hrest⟩
    rcases List.mem_append.mp hl with hl | hl
    · exact ⟨l, hl, hnb, hrest⟩
    · obtain rfl : l = line := by simpa using hl
      exact absurd hb hnb

theorem mapOf_entry {ls : List WStr} {line csAddr : WStr} {oEp : FacadeEndpoint} {m : FacadeEndpointMap}
    (hm : MapOf inet ls m) (hb : ¬ Blank line) (he : Entry inet line csAddr oEp) (hnew : m[csAddr]? = none) :
    MapOf inet (ls ++ [line]) (m.insert csAddr oEp.Format) := by
  intro k v
  rw [get_insert]
  by_cases hk : csAddr = k
  · subst hk
    rw [if_pos rfl]
    constructor
    · intro h
      obtain rfl : oEp.Format = v := by simpa using h
      exact ⟨line, by simp, hb, oEp, he, rfl⟩
    · rintro ⟨l, hl, hnb, oEp', he', rfl⟩
      rcases List.mem_append.mp hl with hl | hl
      · have := (hm csAddr oEp'.Format).mpr ⟨l, hl, hnb, oEp', he', rfl⟩
        rw [hnew] at this
        cases this
      · obtain rfl : l = line := by simpa using hl
        rw [(entry_unique he he').2]
  · rw [if_neg hk, hm k v]
    constructor
    · rintro ⟨l, hl, hrest⟩
      exact ⟨l, by simp [hl], hrest⟩
    · rintro ⟨l, hl, hnb, oEp', he', hv⟩
      rcases List.mem_append.mp hl with hl | hl
      · exact ⟨l, hl, hnb, oEp', he', hv⟩
      · obtain rfl : l = line := by simpa using hl
        exact absurd (entry_unique he he').1 hk

/-- A line taken is in order among the lines before it, and a line refused is not. -/
theorem goodLine_taken {before : List WStr} {line : WStr} {m : FacadeEndpointMap} (after : List WStr)
    (hm : MapOf inet before m) :
    GoodLine inet (before ++ line :: after) before.length ↔ (takeLine inet (Trim line) m).isSome = true := by
  have hline : (before ++ line :: after)[before.length]? = some line := by simp
  have hbefore : ∀ j < before.length, (before ++ line :: after)[j]? = before[j]? :=
    fun j hj => List.getElem?_append_left hj
  by_cases hb : Blank line
  · rw [takeLine_blank hb]
    refine iff_of_true (fun l hl => ?_) rfl
    rw [hline] at hl
    obtain rfl : line = l := by simpa using hl
    exact Or.inl hb
  constructor
  · intro hg
    obtain hb' | ⟨csAddr, oEp, he, hno⟩ := hg line hline
    · exact absurd hb' hb
    have hnew : m[csAddr]? = none := by
      cases hget : m[csAddr]? with
      | none => rfl
      | some v =>
        obtain ⟨l, hl, hnb, oEp', he', -⟩ := (hm csAddr v).mp hget
        obtain ⟨j, hj⟩ := List.mem_iff_getElem?.mp hl
        have hlt : j < before.length := (List.getElem?_eq_some_iff.mp hj).1
        exact absurd he' (hno j hlt l (by rw [hbefore j hlt]; exact hj) hnb oEp')
    rw [(takeLine_iff hb).mpr ⟨csAddr, oEp, he, hnew, rfl⟩]
    rfl
  · intro ht
    obtain ⟨m', hm'⟩ := Option.isSome_iff_exists.mp ht
    obtain ⟨csAddr, oEp, he, hnew, -⟩ := (takeLine_iff hb).mp hm'
    intro l hl
    rw [hline] at hl
    obtain rfl : line = l := by simpa using hl
    refine Or.inr ⟨csAddr, oEp, he, fun j hj l' hl' hnb oEp' he' => ?_⟩
    rw [hbefore j hj] at hl'
    have := (hm csAddr oEp'.Format).mpr ⟨l', List.mem_of_getElem? hl', hnb, oEp', he', rfl⟩
    rw [hnew] at this
    cases this

/-- What reading `after` gives, when the lines before are in order and in the map. -/
theorem readLines_spec : ∀ (after before : List WStr) (uLine : UInt32) (m : FacadeEndpointMap),
    (∀ i < before.length, GoodLine inet (before ++ after) i) → MapOf inet before m →
    match readLines inet after uLine m with
    | .ok m' => (∀ i, GoodLine inet (before ++ after) i) ∧ MapOf inet (before ++ after) m'
    | .error u => ∃ j, FirstBad inet (before ++ after) (before.length + j) ∧ u = uLine + UInt32.ofNat (j + 1) := by
  intro after
  induction after with
  | nil =>
    intro before uLine m hgood hm
    rw [List.append_nil] at hgood ⊢
    refine ⟨fun i line hl => ?_, hm⟩
    exact hgood i (List.getElem?_eq_some_iff.mp hl).1 line hl
  | cons line after ih =>
    intro before uLine m hgood hm
    have hiff := @goodLine_taken inet before line m after hm
    have happ : before ++ line :: after = (before ++ [line]) ++ after := by simp
    unfold readLines
    cases ht : takeLine inet (Trim line) m with
    | none =>
      rw [ht] at hiff
      refine ⟨0, ⟨fun hg => (by cases hiff.mp hg), hgood⟩, rfl⟩
    | some m' =>
      rw [ht] at hiff
      have hg : ∀ i < (before ++ [line]).length, GoodLine inet ((before ++ [line]) ++ after) i := by
        intro i hi
        rw [← happ]
        rw [List.length_append, List.length_singleton] at hi
        rcases Nat.lt_succ_iff_lt_or_eq.mp hi with hi | rfl
        · exact hgood i hi
        · exact hiff.mpr rfl
      have hm' : MapOf inet (before ++ [line]) m' := by
        by_cases hb : Blank line
        · rw [takeLine_blank hb] at ht
          cases ht
          exact mapOf_blank hm hb
        · obtain ⟨csAddr, oEp, he, hnew, rfl⟩ := (takeLine_iff hb).mp ht
          exact mapOf_entry hm hb he hnew
      have hrest := ih (before ++ [line]) (uLine + 1) m' hg hm'
      rw [happ]
      simp only
      generalize readLines inet after (uLine + 1) m' = out at hrest ⊢
      cases out with
      | ok m'' => exact hrest
      | error u =>
        obtain ⟨j, hfirst, hu⟩ := hrest
        refine ⟨j + 1, ?_, ?_⟩
        · rw [List.length_append, List.length_singleton] at hfirst
          rwa [show before.length + (j + 1) = before.length + 1 + j by omega]
        · rw [hu, UInt32.add_assoc, show (1 : UInt32) = UInt32.ofNat 1 from rfl, ← UInt32.ofNat_add]
          congr 2
          omega

theorem mapOf_nil : MapOf inet [] ∅ := by
  intro k v
  rw [Std.ExtTreeMap.getElem?_empty]
  simp

/-- The text counts by its lines only. -/
theorem parseMap_lines (inet : InetPton) (text : WStr) (rOut : FacadeEndpointMap) :
    ParseFacadeEndpointMap inet text rOut =
      match readLines inet (Lines.lines 13 10 text) 0 ∅ with
      | .ok mapLocal => (S_OK, mapLocal, 0)
      | .error uLine => (P2PF_E_ENDPOINT, rOut, uLine) := by
  cases text with
  | nil =>
    have hlines : Lines.lines 13 10 ([] : WStr) = [[]] := by
      unfold Lines.lines
      simp [Lines.line, Lines.lineEnd]
    rw [hlines]
    rfl
  | cons c text =>
    unfold ParseFacadeEndpointMap
    rw [if_neg (by simp), mapLoop_lines]

theorem readLines_text (inet : InetPton) (ls : List WStr) :
    match readLines inet ls 0 ∅ with
    | .ok m => (∀ i, GoodLine inet ls i) ∧ MapOf inet ls m
    | .error u => ∃ n, FirstBad inet ls n ∧ u = UInt32.ofNat (n + 1) := by
  have hread := @readLines_spec inet ls [] 0 ∅ (fun i hi => (by cases hi)) mapOf_nil
  generalize readLines inet ls 0 ∅ = out at hread ⊢
  cases out with
  | ok m => exact hread
  | error u =>
    obtain ⟨n, hfirst, rfl⟩ := hread
    exact ⟨n, by simpa using hfirst, UInt32.zero_add _⟩

theorem parseMap_good {text : WStr} (rOut : FacadeEndpointMap) (h : ∀ i, GoodLine inet (Lines.lines 13 10 text) i) :
    ∃ m, ParseFacadeEndpointMap inet text rOut = (S_OK, m, 0) ∧ MapOf inet (Lines.lines 13 10 text) m := by
  have hread := readLines_text inet (Lines.lines 13 10 text)
  rw [parseMap_lines]
  generalize readLines inet (Lines.lines 13 10 text) 0 ∅ = out at hread ⊢
  cases out with
  | ok m => exact ⟨m, rfl, hread.2⟩
  | error u =>
    obtain ⟨j, hfirst, -⟩ := hread
    exact absurd (h _) hfirst.1

theorem firstBad_unique {ls : List WStr} {n n' : Nat} (h : FirstBad inet ls n) (h' : FirstBad inet ls n') : n = n' := by
  rcases Nat.lt_trichotomy n n' with hlt | heq | hgt
  · exact absurd (h'.2 n hlt) h.1
  · exact heq
  · exact absurd (h.2 n' hgt) h'.1

theorem firstBad_lt {ls : List WStr} {n : Nat} (h : FirstBad inet ls n) : n < ls.length := by
  by_contra hge
  refine h.1 fun line hl => ?_
  rw [List.getElem?_eq_none (by omega)] at hl
  cases hl

theorem parseMap_bad {text : WStr} (rOut : FacadeEndpointMap) {n : Nat}
    (h : FirstBad inet (Lines.lines 13 10 text) n) :
    ParseFacadeEndpointMap inet text rOut = (P2PF_E_ENDPOINT, rOut, UInt32.ofNat (n + 1)) := by
  have hread := readLines_text inet (Lines.lines 13 10 text)
  rw [parseMap_lines]
  generalize readLines inet (Lines.lines 13 10 text) 0 ∅ = out at hread ⊢
  cases out with
  | ok m => exact absurd (hread.1 n) h.1
  | error u =>
    obtain ⟨n', hfirst, rfl⟩ := hread
    obtain rfl := firstBad_unique h hfirst
    rfl

/-- Either every line is in order, or one is the first that is not. -/
theorem good_or_firstBad (ls : List WStr) : (∀ i, GoodLine inet ls i) ∨ ∃ n, FirstBad inet ls n := by
  by_cases h : ∃ n, ¬ GoodLine inet ls n
  · classical
    exact Or.inr ⟨Nat.find h, Nat.find_spec h, fun i hi => not_not.mp (Nat.find_min h hi)⟩
  · exact Or.inl fun n => not_not.mp fun hn => h ⟨n, hn⟩

/-- The block is what its lines say, its number apart; that is right while the count holds it. -/
theorem lineSpec_iff (text : WStr) (rOut : FacadeEndpointMap) :
    LineSpec inet (Lines.lines 13 10 text) rOut (ParseFacadeEndpointMap inet text rOut) ↔
      ∀ n, FirstBad inet (Lines.lines 13 10 text) n → n + 1 < UInt32.size := by
  constructor
  · intro h n hn
    have hp := parseMap_bad rOut hn
    obtain ⟨-, n', hn', hnum⟩ := h.refused (by rw [hp]; rfl)
    obtain rfl := firstBad_unique hn hn'
    rw [← hnum]
    exact UInt32.toNat_lt_size _
  · intro h
    rcases @good_or_firstBad inet (Lines.lines 13 10 text) with hgood | ⟨n, hn⟩
    · obtain ⟨m, hp, hm⟩ := parseMap_good rOut hgood
      rw [hp]
      exact ⟨iff_of_true rfl hgood, fun _ => hm, fun hf => by cases hf⟩
    · rw [parseMap_bad rOut hn]
      refine ⟨iff_of_false (fun hf => (by cases hf)) fun hg => hn.1 (hg n), fun hf => (by cases hf), fun _ => ⟨rfl, n, hn, ?_⟩⟩
      exact UInt32.toNat_ofNat_of_lt' (h n hn)

end AllLines

/-! ## Writing a map back -/

def renderEntry (e : WStr × WStr) : WStr := e.1 ++ L " = " ++ e.2

/-- The map as 'address = endpoint' lines. -/
def render (m : FacadeEndpointMap) : WStr := (m.toList.map fun e => renderEntry e ++ [10]).flatten

section Rendering

variable {inet : InetPton}

/-- What an entry of an accepted map is written with. -/
structure Written (inet : InetPton) (k v : WStr) : Prop where
  clean : Clean iswspace k
  named : k ≠ []
  uncommented : k.head? ≠ some 35 ∧ k.head? ≠ some 59
  unsplit : 61 ∉ k
  inPlace : 58 ∉ k ∧ ¬ L "//" <:+: k
  value : ∃ ep, Canonical inet false ep ∧ ep.eKind ≠ .serial ∧ v = ep.Format
  whole : Lines.Whole 13 10 k ∧ Lines.Whole 13 10 v

theorem whole_of_mem {s t : WStr} (ht : Lines.Whole 13 10 t) (h : ∀ c ∈ s, c ∈ t) : Lines.Whole 13 10 s :=
  fun c hc => ht c (h c hc)

theorem whole_append {s t : WStr} (hs : Lines.Whole 13 10 s) (ht : Lines.Whole 13 10 t) :
    Lines.Whole 13 10 (s ++ t) := by
  intro c hc
  rcases List.mem_append.mp hc with hc | hc
  · exact hs c hc
  · exact ht c hc

theorem whole_fmtU (n : Nat) : Lines.Whole 13 10 (fmtU n) := by
  intro c hc
  have hspace := digit_not_space (fmtU_digits n c hc)
  have h13 : c ≠ 13 := fun e => absurd hspace (by rw [e]; decide)
  have h10 : c ≠ 10 := fun e => absurd hspace (by rw [e]; decide)
  simp [Lines.stops, h13, h10]

theorem whole_format {ep : FacadeEndpoint} (hhost : Lines.Whole 13 10 ep.csHost) (hname : Lines.Whole 13 10 ep.csName) :
    Lines.Whole 13 10 ep.Format := by
  obtain ⟨eKind, csHost, csName, uNum, eFamily, bDerived⟩ := ep
  cases eKind with
  | tcp =>
    rw [format_tcp]
    have htext : Lines.Whole 13 10 (hostText csHost) := by
      unfold hostText
      split
      · exact whole_append (whole_append (by decide) hhost) (by decide)
      · exact hhost
    have hscheme : Lines.Whole 13 10 eFamily.scheme := by cases eFamily <;> decide
    exact whole_append (whole_append hscheme (by decide))
      (whole_append htext (whole_append (s := [58]) (by decide) (whole_fmtU uNum)))
  | pipe => exact whole_append (by decide) hname
  | dmx => exact whole_append (by decide) hname
  | serial => exact whole_append (by decide) (whole_fmtU uNum)

theorem entry_written (hinet : inet.Literal) {line k : WStr} {oEp : FacadeEndpoint} (hb : ¬ Blank line)
    (hwhole : Lines.Whole 13 10 line) (h : Entry inet line k oEp) : Written inet k oEp.Format := by
  obtain ⟨u, v, hs, hu, rfl, hp⟩ := h.split
  have hcore := parse_accepts.mp hp
  have hline : ∀ c ∈ u ++ 61 :: v, c ∈ line := by
    intro c hc
    rw [← hs] at hc
    exact mem_of_mem_strip hc
  have hkey : ∀ c ∈ Trim u, c ∈ line := fun c hc => hline c (by simp [mem_of_mem_strip hc])
  have hchars : ∀ c ∈ oEp.csHost ++ oEp.csName, c ∈ line := fun c hc =>
    hline c (by simp [mem_of_mem_strip (parseCore_chars hcore c hc)])
  -- the first unit of the address is the first of the line
  have hhead : (Trim u).head? = (Trim line).head? := by
    have hne : u ≠ [] := fun e => h.named (by rw [e]; rfl)
    obtain ⟨c, u', rfl⟩ := List.exists_cons_of_ne_nil hne
    have hc : iswspace c = false := (strip_clean iswspace line).head c (by rw [← trim_eq, hs]; rfl)
    rw [hs, trim_eq, strip_cons hc]
    rfl
  refine ⟨strip_clean iswspace u, h.named, ?_, fun hc => hu (mem_of_mem_strip hc), h.inPlace,
    ⟨oEp, parseCore_canonical hinet hcore, h.kind, rfl⟩, whole_of_mem hwhole hkey, ?_⟩
  · rw [hhead]
    exact ⟨fun e => hb (Or.inr (Or.inl e)), fun e => hb (Or.inr (Or.inr e))⟩
  · exact whole_format (whole_of_mem hwhole fun c hc => hchars c (by simp [hc]))
      (whole_of_mem hwhole fun c hc => hchars c (by simp [hc]))

theorem space_only : ∀ c ∈ [(32 : WChar)], iswspace c = true := by
  intro c hc
  rw [List.mem_singleton.mp hc]
  rfl

/-- The line an entry is written on reads as that entry. -/
theorem renderEntry_entry {k v : WStr} (h : Written inet k v) :
    Lines.Whole 13 10 (renderEntry (k, v)) ∧ ¬ Blank (renderEntry (k, v)) ∧
      ∃ oEp, Entry inet (renderEntry (k, v)) k oEp ∧ oEp.Format = v := by
  obtain ⟨ep, hep, hkind, rfl⟩ := h.value
  obtain ⟨c, k', hk⟩ := List.exists_cons_of_ne_nil h.named
  have hline : renderEntry (k, ep.Format) = (k ++ [32]) ++ 61 :: (32 :: ep.Format) := by simp [renderEntry, L]
  have hhead : ∀ d ∈ ((k ++ [32]) ++ [61]).head?, iswspace d = false := by
    intro d hd
    refine h.clean.head d ?_
    rw [hk] at hd ⊢
    exact hd
  have htrim : Trim (renderEntry (k, ep.Format)) = (k ++ [32]) ++ 61 :: (32 :: ep.Format).rdropWhile iswspace := by
    rw [hline, trim_eq, strip_cut hhead (by decide +kernel)]
  have hkey : Trim (k ++ [32]) = k := by
    have hpad := strip_pad (p := iswspace) (u := []) (s := k) (v := [32]) (by simp) space_only
    rw [List.nil_append, strip_of_clean h.clean] at hpad
    exact hpad
  have hvalue : Trim ((32 :: ep.Format).rdropWhile iswspace) = Trim ep.Format := by
    have hpad := strip_pad (p := iswspace) (u := [32]) (s := ep.Format) (v := []) space_only (by simp)
    rw [List.append_nil] at hpad
    rw [trim_eq, strip_rdropWhile]
    exact hpad
  have hparse : ParseFacadeEndpoint inet (Trim ep.Format) false {} = (S_OK, { ep with bDerived := false }) := by
    have hround := parse_format hep {}
    have hne : Trim ep.Format ≠ [] := by
      obtain ⟨csScheme, csRest, hs, -⟩ := parseCore_iff.mp (parseCore_format hep {})
      rw [hs]
      simp
    rw [parse_trim hne]
    exact hround
  refine ⟨whole_append (whole_append h.whole.1 (by decide)) h.whole.2, ?_, { ep with bDerived := false },
    ⟨⟨k ++ [32], _, htrim, ?_, hkey.symm, ?_⟩, h.named, h.inPlace, hkind⟩, rfl⟩
  · intro hb
    have hfirst : (Trim (renderEntry (k, ep.Format))).head? = k.head? := by rw [htrim, hk]; rfl
    rw [Blank, hfirst] at hb
    rcases hb with hb | hb | hb
    · rw [htrim] at hb
      simp at hb
    · exact h.uncommented.1 hb
    · exact h.uncommented.2 hb
  · simpa using h.unsplit
  · rw [hvalue]
    exact hparse

/-- An entry a line, and nothing after the last terminator. -/
theorem lines_render {m : FacadeEndpointMap} (h : ∀ e ∈ m.toList, Written inet e.1 e.2) :
    Lines.lines 13 10 (render m) = m.toList.map renderEntry ++ [[]] := by
  have hrows : render m = (m.toList.map renderEntry).flatMap (· ++ [10]) := by
    unfold render
    rw [List.flatMap_map]
    rfl
  rw [hrows]
  refine Lines.lines_terminated (by decide) fun r hr => ?_
  obtain ⟨e, he, rfl⟩ := List.mem_map.mp hr
  exact (renderEntry_entry (h e he)).1

theorem rendered_line {m : FacadeEndpointMap} {i : Nat} {line : WStr}
    (hl : (m.toList.map renderEntry ++ [[]])[i]? = some line) :
    line = [] ∨ ∃ e, m.toList[i]? = some e ∧ line = renderEntry e := by
  rcases Nat.lt_or_ge i m.toList.length with hi | hi
  · rw [List.getElem?_append_left (by simpa using hi), List.getElem?_map] at hl
    obtain ⟨e, he, rfl⟩ := Option.map_eq_some_iff.mp hl
    exact Or.inr ⟨e, he, rfl⟩
  · rw [List.getElem?_append_right (by simpa using hi)] at hl
    exact Or.inl (by simpa using List.mem_of_getElem? hl)

theorem blank_nil : Blank [] := Or.inl rfl

/-- Two entries of one map have two addresses. -/
theorem render_good {m : FacadeEndpointMap} (h : ∀ e ∈ m.toList, Written inet e.1 e.2) :
    ∀ i, GoodLine inet (Lines.lines 13 10 (render m)) i := by
  rw [lines_render h]
  intro i line hl
  rcases rendered_line hl with rfl | ⟨e, he, rfl⟩
  · exact Or.inl blank_nil
  · obtain ⟨-, -, oEp, hoEp, -⟩ := renderEntry_entry (h e (List.mem_of_getElem? he))
    refine Or.inr ⟨e.1, oEp, hoEp, fun j hj line' hl' hnb oEp' hoEp' => ?_⟩
    rcases rendered_line hl' with rfl | ⟨e', he', rfl⟩
    · exact hnb blank_nil
    obtain ⟨-, -, oEp'', hoEp'', -⟩ := renderEntry_entry (h e' (List.mem_of_getElem? he'))
    have hkeys := (entry_unique hoEp' hoEp'').1
    obtain ⟨hi', hei⟩ := List.getElem?_eq_some_iff.mp he
    obtain ⟨hj', hej⟩ := List.getElem?_eq_some_iff.mp he'
    have hdistinct := List.pairwise_iff_getElem.mp (Std.ExtTreeMap.distinct_keys_toList (t := m)) j i hj' hi' hj
    refine hdistinct ?_
    rw [hei, hej, ← hkeys]
    exact Std.ReflCmp.compare_self

/-- A map whose entries can be written is read back as it was. -/
theorem render_parses {m : FacadeEndpointMap} (h : ∀ k v, m[k]? = some v → Written inet k v) (rOut : FacadeEndpointMap) :
    ParseFacadeEndpointMap inet (render m) rOut = (S_OK, m, 0) := by
  have hentry : ∀ e ∈ m.toList, Written inet e.1 e.2 := fun e he =>
    h e.1 e.2 (Std.ExtTreeMap.mem_toList_iff_getElem?_eq_some.mp he)
  obtain ⟨m', hp, hm'⟩ := parseMap_good rOut (render_good hentry)
  rw [hp]
  suffices hmm : m' = m by rw [hmm]
  apply map_ext
  intro k
  apply Option.ext
  intro v
  rw [hm' k v, lines_render hentry]
  constructor
  · rintro ⟨line, hl, hnb, oEp, hoEp, rfl⟩
    obtain ⟨i, hi⟩ := List.mem_iff_getElem?.mp hl
    rcases rendered_line hi with rfl | ⟨e, he, rfl⟩
    · exact absurd blank_nil hnb
    · have hmem := List.mem_of_getElem? he
      obtain ⟨-, -, oEp', hoEp', hv⟩ := renderEntry_entry (hentry e hmem)
      obtain ⟨rfl, rfl⟩ := entry_unique hoEp hoEp'
      rw [hv]
      exact Std.ExtTreeMap.mem_toList_iff_getElem?_eq_some.mp hmem
  · intro hget
    have hmem : (k, v) ∈ m.toList := Std.ExtTreeMap.mem_toList_iff_getElem?_eq_some.mpr hget
    obtain ⟨-, hnb, oEp, hoEp, hv⟩ := renderEntry_entry (hentry (k, v) hmem)
    exact ⟨renderEntry (k, v), by simpa using Or.inl ⟨k, v, hget, rfl⟩, hnb, oEp, hoEp, hv.symm⟩

/-- The lines of a text hold no terminator. -/
theorem lines_whole (text : WStr) : ∀ line ∈ Lines.lines 13 10 text, Lines.Whole 13 10 line := by
  obtain ⟨rows, last, hrows, hlast, hapart, rfl⟩ := @Lines.exists_rows WChar _ 13 10 (by decide) text
  rw [Lines.lines_joined (by decide) hrows hlast hapart]
  intro line hl
  rcases List.mem_append.mp hl with hl | hl
  · obtain ⟨r, hr, rfl⟩ := List.mem_map.mp hl
    exact hrows r hr
  · obtain rfl : line = last := by simpa using hl
    exact hlast

end Rendering

/-! ## The block -/

/-- What ParseFacadeEndpointMap owes a text. -/
structure MapBlock (inet : InetPton) (text : WStr) (rOut : FacadeEndpointMap) : Prop where
  lines : LineSpec inet (Lines.lines 13 10 text) rOut (ParseFacadeEndpointMap inet text rOut)
  /-- However the lines are ended, no "\r" before a "\n" of its own, the result is the same. -/
  joins : ∀ rows rows' last, (∀ r ∈ rows, Lines.Whole 13 10 r.1) → Lines.Whole 13 10 last →
    Lines.Apart rows → Lines.Apart rows' → rows'.map (·.1) = rows.map (·.1) → Lines.joined 13 10 rows last = text →
    Lines.lines 13 10 text = rows.map (·.1) ++ [last] ∧
      ParseFacadeEndpointMap inet (Lines.joined 13 10 rows' last) rOut = ParseFacadeEndpointMap inet text rOut
  rendered : FAILED (ParseFacadeEndpointMap inet text rOut).1 = false → ∀ rOut',
    ParseFacadeEndpointMap inet (render (ParseFacadeEndpointMap inet text rOut).2.1) rOut' =
      (S_OK, (ParseFacadeEndpointMap inet text rOut).2.1, 0)

/-- The parser is its specification on a text exactly when the line it counts to, if it refuses one,
    has a number that the count holds. -/
theorem map_block_iff {inet : InetPton} (hinet : inet.Literal) (text : WStr) (rOut : FacadeEndpointMap) :
    MapBlock inet text rOut ↔ ∀ n, FirstBad inet (Lines.lines 13 10 text) n → n + 1 < 4294967296 := by
  refine ⟨fun h => (lineSpec_iff text rOut).mp h.lines, fun h => ⟨(lineSpec_iff text rOut).mpr h, ?_, ?_⟩⟩
  · rintro rows rows' last hrows hlast hapart hapart' hsame rfl
    have hrows' : ∀ r ∈ rows', Lines.Whole 13 10 r.1 := by
      intro r hr
      have hmem : r.1 ∈ rows.map (·.1) := by rw [← hsame]; exact List.mem_map_of_mem hr
      obtain ⟨r', hr', he⟩ := List.mem_map.mp hmem
      rw [← he]
      exact hrows r' hr'
    have hl := Lines.lines_joined (by decide) hrows hlast hapart
    have hl' := Lines.lines_joined (by decide) hrows' hlast hapart'
    refine ⟨hl, ?_⟩
    rw [parseMap_lines, parseMap_lines, hl, hl', hsame]
  · intro hok rOut'
    rcases @good_or_firstBad inet (Lines.lines 13 10 text) with hgood | ⟨n, hn⟩
    · obtain ⟨m, hp, hm⟩ := parseMap_good rOut hgood
      rw [hp]
      refine render_parses (fun k v hget => ?_) rOut'
      obtain ⟨line, hl, hnb, oEp, hoEp, rfl⟩ := (hm k v).mp hget
      exact entry_written hinet hnb (lines_whole text line hl) hoEp
    · rw [parseMap_bad rOut hn] at hok
      cases hok

/-- A comment, an entry and a line with no '='. -/
theorem map_block_iff_three : MapBlock inetSome (L "# hubs\r\nB = tcp://[fe80::1%7]:7788\nserial") ∅ :=
  (map_block_iff inetSome_literal _ _).mpr fun n hn => by
    have hlt := firstBad_lt hn
    have hlines := Lines.lines_length 13 10 (L "# hubs\r\nB = tcp://[fe80::1%7]:7788\nserial")
    have hlen : (L "# hubs\r\nB = tcp://[fe80::1%7]:7788\nserial").length = 41 := by decide
    omega

/-- A line after `k` empty ones is refused, as line `k + 1`. -/
theorem firstBad_after (inet : InetPton) (k : Nat) :
    FirstBad inet (Lines.lines 13 10 (List.replicate k 10 ++ L "x")) k := by
  have hjoin : ∀ k : Nat, List.replicate k 10 ++ L "x" =
      Lines.joined 13 10 (List.replicate k (([] : WStr), Lines.Terminator.lf)) (L "x") := by
    intro k
    induction k with
    | zero => rfl
    | succ k ih => rw [List.replicate_succ, List.cons_append, ih]; rfl
  have hapart : ∀ k : Nat, Lines.Apart (List.replicate k (([] : WStr), Lines.Terminator.lf)) := by
    intro k
    induction k with
    | zero => trivial
    | succ k ih => exact ⟨fun hc => (by cases hc), ih⟩
  have hrows : ∀ r ∈ List.replicate k (([] : WStr), Lines.Terminator.lf), Lines.Whole 13 10 r.1 := by
    intro r hr
    obtain rfl := List.eq_of_mem_replicate hr
    decide
  rw [hjoin, Lines.lines_joined (by decide) hrows (by decide) (hapart k), List.map_replicate]
  constructor
  · intro hg
    obtain hb | ⟨csAddr, oEp, he, -⟩ := hg (L "x") (by simp)
    · exact absurd hb (by decide)
    · obtain ⟨u, v, hs, -⟩ := he.split
      have hmem : 61 ∈ Trim (L "x") := by rw [hs]; simp
      exact absurd hmem (by decide)
  · intro i hi line hl
    rw [List.getElem?_append_left (by simpa using hi)] at hl
    obtain rfl := List.eq_of_mem_replicate (List.mem_of_getElem? hl)
    exact Or.inl (Or.inl rfl)

/-- After 2^32 empty lines a line is refused as line 1. -/
theorem count_wraps : ¬ MapBlock ⟨fun _ => false, fun _ => none⟩ (List.replicate 4294967296 10 ++ L "x") ∅ ∧
    ParseFacadeEndpointMap ⟨fun _ => false, fun _ => none⟩ (List.replicate 4294967296 10 ++ L "x") ∅ =
      (P2PF_E_ENDPOINT, ∅, 1) := by
  have hbad := firstBad_after ⟨fun _ => false, fun _ => none⟩ 4294967296
  constructor
  · intro h
    exact absurd ((lineSpec_iff _ _).mp h.lines _ hbad) (by decide)
  · rw [parseMap_bad _ hbad]
    rfl

end TargetFacade
