/-
  TargetFacade.Topology.Parse — Topology::parse (TargetFacadeTopology.hpp), and what it reads a text as.

  `takeDecl` is the loop's body: one line into the topology, or a refusal. A line by itself is read as
  a declaration, as one that says nothing, or is refused (`readLine`); what a declaration may be
  refused for besides depends on the ones before it (`Topology.addDecl`). `parse_iff` is the parser as
  the two of them: it accepts a text when every line is read and every declaration fits.
-/

import TargetFacade.Endpoint.MapBlock

namespace TargetFacade

open Text

structure Edge where
  listener : WStr
  dialer : WStr
  /-- Empty: the map's, or in-process. -/
  endpoint : WStr
  deriving DecidableEq, Repr

/-- What a text declares. -/
structure Topology where
  m_hubs : List WStr
  /-- The addresses with an endpoint. -/
  m_entries : List WStr
  m_edges : List Edge
  /-- What arm feeds SetEndpointMap. -/
  m_mapText : WStr
  /-- Map line N came from this line of the file. -/
  m_mapLines : List UInt32
  deriving DecidableEq, Repr

namespace Topology

def empty : Topology := ⟨[], [], [], [], []⟩

/-! ## Words -/

/-- A space or a tab. -/
def isBlank (c : WChar) : Bool := c == 32 || c == 9

def trim (s : WStr) : WStr := strip isBlank s

/-- The token at `n`, after the blanks there. -/
def token (s : WStr) (n : Nat) : WStr := ((s.drop n).dropWhile isBlank).takeWhile fun c => !isBlank c

/-- At the first `sep`; without one, all of it and nothing. -/
def split (s : WStr) (sep : WChar) : WStr × WStr :=
  match Find s sep with
  | none => (s, [])
  | some nAt => (s.take nAt, s.drop (nAt + 1))

/-- Where `sub` first stands. -/
def findText (sub : WStr) : WStr → Option Nat
  | [] => if sub.isEmpty then some 0 else none
  | c :: s => if sub.isPrefixOf (c :: s) then some 0 else (findText sub s).map (· + 1)

/-- As the arming verbs guard an address. -/
def looksLikeEndpoint (s : WStr) : Bool := s.contains 58 || wcsstr (L "//") s

def isHub (t : Topology) (a : WStr) : Bool := t.m_hubs.contains a

def hasEntry (t : Topology) (a : WStr) : Bool := t.m_entries.contains a

/-- No edge, whatever is declared. -/
def refused (e : Edge) : Bool :=
  e.listener.isEmpty || e.dialer.isEmpty || e.listener == e.dialer || looksLikeEndpoint e.listener ||
    looksLikeEndpoint e.dialer

/-! ## The parser -/

/-- One line, trimmed, into the topology; none is a line that is refused. -/
def takeDecl (lineNo : UInt32) (line : WStr) (t : Topology) : Option Topology :=
  if line.isEmpty || line.head? == some 35 || line.head? == some 59 then some t
  else
    let word := trim (token line 0)
    let rest := trim (line.drop word.length)
    let verb := word.map lower
    if verb = L "hub" ∨ verb = L "at" then
      let (addr, ep) := split rest 61
      let addr := trim addr
      let ep := trim ep
      if addr.isEmpty || looksLikeEndpoint addr then none
      else if verb = L "at" ∧ ep.isEmpty then none
      -- declared twice
      else if verb = L "hub" ∧ t.isHub addr then none
      else
        let t := if verb = L "hub" then { t with m_hubs := t.m_hubs ++ [addr] } else t
        if ep.isEmpty then some t
        -- two endpoints, one address
        else if t.hasEntry addr then none
        else some { t with
          m_mapText := t.m_mapText ++ (addr ++ L " = " ++ ep ++ [10])
          m_mapLines := t.m_mapLines ++ [lineNo]
          m_entries := t.m_entries ++ [addr] }
    else if verb = L "link" then
      let (pair, ep) := split rest 61
      match findText (L "->") pair with
      | none => none
      | some arrow =>
        let e : Edge := ⟨trim (pair.take arrow), trim (pair.drop (arrow + 2)), trim ep⟩
        if refused e then none
        else if !t.isHub e.listener || !t.isHub e.dialer then none
        else some { t with m_edges := t.m_edges ++ [e] }
    else none

/-- The loop, from the text at `pos` and the lines counted so far: the topology, or the number of the
    line that is refused. -/
def parseLoop (pos : WStr) (lineNo : UInt32) (t : Topology) : Except UInt32 Topology :=
  let nl := Lines.lineEnd 13 10 pos
  match takeDecl (lineNo + 1) (trim (Lines.line 13 10 pos)) t with
  | none => .error (lineNo + 1)
  | some t => if _ : nl.isEmpty = false then parseLoop (Lines.past 13 10 nl) (lineNo + 1) t else .ok t
termination_by pos.length
decreasing_by exact Lines.past_lineEnd_lt 13 10 (by assumption)

/-- The answer, what `out` is left as, and what `badLine` receives; `text` is none when it is NULL. -/
def parse (text : Option WStr) (out : Topology) : HRESULT × Topology × UInt32 :=
  match text with
  | none => (S_OK, empty, 0)
  | some text =>
    match parseLoop text 0 empty with
    | .ok t => (S_OK, t, 0)
    | .error lineNo => (P2PF_E_ENDPOINT, out, lineNo)

theorem split_cases (s : WStr) (sep : WChar) :
    (sep ∉ s ∧ split s sep = (s, [])) ∨ ∃ u v, s = u ++ sep :: v ∧ sep ∉ u ∧ split s sep = (u, v) := by
  unfold split
  cases hfind : Find s sep with
  | none =>
    have hno : ∀ c ∈ s, (c == sep) = false := by simpa [Find] using hfind
    exact Or.inl ⟨fun hc => by simpa using hno sep hc, rfl⟩
  | some nAt =>
    obtain ⟨u, v, rfl, hu, rfl⟩ := find_cut.mp hfind
    exact Or.inr ⟨u, v, rfl, hu, by simp⟩

theorem split_cut {u v : WStr} {sep : WChar} (hu : sep ∉ u) : split (u ++ sep :: v) sep = (u, v) := by
  unfold split
  rw [find_cut.mpr ⟨u, v, rfl, hu, rfl⟩]
  simp

/-! ## What a line says -/

inductive Decl where
  | hub (addr ep : WStr)
  | at_ (addr ep : WStr)
  | link (e : Edge)
  deriving DecidableEq, Repr

/-- Nothing, or a comment. -/
def silent (line : WStr) : Bool := line.isEmpty || line.head? == some 35 || line.head? == some 59

def wordOf (line : WStr) : WStr := trim (token line 0)

def restOf (line : WStr) : WStr := trim (line.drop (wordOf line).length)

/-- A line by itself: refused, or a declaration, or nothing. -/
def readLine (line : WStr) : Option (Option Decl) :=
  if silent line then some none
  else
    let verb := (wordOf line).map lower
    if verb = L "hub" ∨ verb = L "at" then
      let (addr, ep) := split (restOf line) 61
      if (trim addr).isEmpty || looksLikeEndpoint (trim addr) then none
      else if verb = L "at" ∧ (trim ep).isEmpty then none
      else some (some (if verb = L "hub" then .hub (trim addr) (trim ep) else .at_ (trim addr) (trim ep)))
    else if verb = L "link" then
      let (pair, ep) := split (restOf line) 61
      match findText (L "->") pair with
      | none => none
      | some arrow =>
        let e : Edge := ⟨trim (pair.take arrow), trim (pair.drop (arrow + 2)), trim ep⟩
        if refused e then none
        else some (some (.link e))
    else none

def addEntry (lineNo : UInt32) (addr ep : WStr) (t : Topology) : Option Topology :=
  if ep.isEmpty then some t
  else if t.hasEntry addr then none
  else some { t with
    m_mapText := t.m_mapText ++ (addr ++ L " = " ++ ep ++ [10])
    m_mapLines := t.m_mapLines ++ [lineNo]
    m_entries := t.m_entries ++ [addr] }

/-- A declaration against the ones before it. -/
def addDecl (lineNo : UInt32) (t : Topology) : Decl → Option Topology
  | .hub addr ep => if t.isHub addr then none else addEntry lineNo addr ep { t with m_hubs := t.m_hubs ++ [addr] }
  | .at_ addr ep => addEntry lineNo addr ep t
  | .link e => if !t.isHub e.listener || !t.isHub e.dialer then none else some { t with m_edges := t.m_edges ++ [e] }

theorem verbs_apart : L "hub" ≠ L "at" ∧ L "link" ≠ L "hub" ∧ L "link" ≠ L "at" := by decide

theorem takeDecl_read (lineNo : UInt32) (line : WStr) (t : Topology) :
    takeDecl lineNo line t = (readLine line).bind fun oDecl => oDecl.elim (some t) (addDecl lineNo t) := by
  obtain ⟨hha, hlh, hla⟩ := verbs_apart
  unfold takeDecl readLine silent restOf wordOf
  by_cases hblank : (line.isEmpty || line.head? == some 35 || line.head? == some 59) = true
  · simp only [if_pos hblank]
    rfl
  simp only [if_neg hblank]
  generalize trim (token line 0) = word
  generalize trim (line.drop word.length) = rest
  generalize word.map lower = verb
  generalize split rest 61 = cut
  obtain ⟨addr, ep⟩ := cut
  simp only
  by_cases hhub : verb = L "hub"
  · subst hhub
    simp only [hha, true_or, true_and, false_and, if_true, if_false]
    by_cases haddr : ((trim addr).isEmpty || looksLikeEndpoint (trim addr)) = true
    · simp only [if_pos haddr]
      rfl
    · simp only [if_neg haddr]
      rfl
  by_cases hat : verb = L "at"
  · subst hat
    simp only [hha.symm, or_true, true_and, false_and, if_true, if_false]
    by_cases haddr : ((trim addr).isEmpty || looksLikeEndpoint (trim addr)) = true
    · simp only [if_pos haddr]
      rfl
    by_cases hep : (trim ep).isEmpty = true
    · simp only [if_neg haddr, if_pos hep]
      rfl
    · simp only [if_neg haddr, if_neg hep, Option.bind_some, Option.elim_some, addDecl, addEntry]
  simp only [hhub, hat, or_self, if_false]
  by_cases hlink : verb = L "link"
  · simp only [if_pos hlink]
    cases findText (L "->") addr with
    | none => rfl
    | some arrow =>
      simp only
      by_cases he : refused ⟨trim (addr.take arrow), trim (addr.drop (arrow + 2)), trim ep⟩ = true
      · simp only [if_pos he]
        rfl
      · simp only [if_neg he]
        rfl
  · simp only [if_neg hlink]
    rfl

/-- How a line reads as a declaration. -/
inductive Read (line : WStr) : Decl → Prop
  | hub (addr ep : WStr) (hverb : (wordOf line).map lower = L "hub") (hsplit : split (restOf line) 61 = (addr, ep))
      (hne : trim addr ≠ []) (hplace : looksLikeEndpoint (trim addr) = false) : Read line (.hub (trim addr) (trim ep))
  | at_ (addr ep : WStr) (hverb : (wordOf line).map lower = L "at") (hsplit : split (restOf line) 61 = (addr, ep))
      (hne : trim addr ≠ []) (hplace : looksLikeEndpoint (trim addr) = false) (hep : trim ep ≠ []) :
      Read line (.at_ (trim addr) (trim ep))
  | link (pair ep : WStr) (arrow : Nat) (hverb : (wordOf line).map lower = L "link")
      (hsplit : split (restOf line) 61 = (pair, ep)) (harrow : findText (L "->") pair = some arrow)
      (hfine : refused ⟨trim (pair.take arrow), trim (pair.drop (arrow + 2)), trim ep⟩ = false) :
      Read line (.link ⟨trim (pair.take arrow), trim (pair.drop (arrow + 2)), trim ep⟩)

theorem readLine_silent {line : WStr} (h : silent line = true) : readLine line = some none := if_pos h

theorem readLine_iff {line : WStr} (h : silent line = false) (oDecl : Option Decl) :
    readLine line = some oDecl ↔ ∃ d, oDecl = some d ∧ Read line d := by
  obtain ⟨hha, hlh, hla⟩ := verbs_apart
  have hsilent : ¬ silent line = true := by simp [h]
  unfold readLine
  simp only [if_neg hsilent]
  constructor
  · intro hread
    cases hsplit : split (restOf line) 61 with
    | mk addr ep =>
      simp only [hsplit] at hread
      split at hread
      · rename_i hverb
        split at hread
        · cases hread
        rename_i haddr
        obtain ⟨hne, hplace⟩ : trim addr ≠ [] ∧ looksLikeEndpoint (trim addr) = false := by simpa using haddr
        split at hread
        · cases hread
        rename_i hat
        obtain rfl := Option.some.inj hread
        refine ⟨_, rfl, ?_⟩
        by_cases hhub : (wordOf line).map lower = L "hub"
        · rw [if_pos hhub]
          exact .hub addr ep hhub hsplit hne hplace
        · rw [if_neg hhub]
          have hverb := hverb.resolve_left hhub
          have hep : trim ep ≠ [] := fun he => hat ⟨hverb, by rw [he]; rfl⟩
          exact .at_ addr ep hverb hsplit hne hplace hep
      split at hread
      · rename_i hverb
        split at hread
        · cases hread
        rename_i arrow harrow
        split at hread
        · cases hread
        rename_i hfine
        obtain rfl := Option.some.inj hread
        exact ⟨_, rfl, .link addr ep arrow hverb hsplit harrow (by simpa using hfine)⟩
      · cases hread
  · rintro ⟨d, rfl, hread⟩
    cases hread with
    | hub addr ep hverb hsplit hne hplace =>
      simp only [hverb, hsplit, hha, hplace, true_or, if_true, false_and, if_false, List.isEmpty_iff, hne, Bool.or_false]
    | at_ addr ep hverb hsplit hne hplace hep =>
      simp only [hverb, hsplit, hha.symm, hplace, or_true, if_true, true_and, if_false, List.isEmpty_iff, hne, hep,
        Bool.or_false]
    | link pair ep arrow hverb hsplit harrow hfine =>
      simp only [hverb, hsplit, hlh, hla, or_self, if_true, if_false, harrow, hfine, Bool.false_eq_true]

/-! ## The text -/

/-- A declaration, and the number of its line. -/
abbrev Numbered := Nat × Decl

/-- What the lines say, the first of them line `n + 1`; none when one of them is refused. -/
def readLines (n : Nat) : List WStr → Option (List Numbered)
  | [] => some []
  | line :: ls => (readLine (trim line)).bind fun oDecl => (readLines (n + 1) ls).map fun ds =>
    (oDecl.map (n + 1, ·)).toList ++ ds

/-- The declarations, one after the other. -/
def addAll (t : Topology) : List Numbered → Option Topology
  | [] => some t
  | d :: ds => (t.addDecl (UInt32.ofNat d.1) d.2).bind fun t => t.addAll ds

theorem parseLoop_lines (pos : WStr) (n : Nat) (t t' : Topology) :
    parseLoop pos (UInt32.ofNat n) t = .ok t' ↔
      ∃ ds, readLines n (Lines.lines 13 10 pos) = some ds ∧ t.addAll ds = some t' := by
  induction hlen : pos.length using Nat.strongRecOn generalizing pos n t with
  | ind len ih =>
    have hcount : UInt32.ofNat n + 1 = UInt32.ofNat (n + 1) := (UInt32.ofNat_add n 1).symm
    -- the lines after this one
    have hrest (t : Topology) : (if _ : (Lines.lineEnd 13 10 pos).isEmpty = false then
          parseLoop (Lines.past 13 10 (Lines.lineEnd 13 10 pos)) (UInt32.ofNat (n + 1)) t else .ok t) = .ok t' ↔
        ∃ ds, readLines (n + 1) (if _ : (Lines.lineEnd 13 10 pos).isEmpty = false then
          Lines.lines 13 10 (Lines.past 13 10 (Lines.lineEnd 13 10 pos)) else []) = some ds ∧ t.addAll ds = some t' := by
      by_cases he : (Lines.lineEnd 13 10 pos).isEmpty = false
      · simp only [dif_pos he]
        exact ih _ (hlen ▸ Lines.past_lineEnd_lt 13 10 he) _ _ _ rfl
      · simp only [dif_neg he]
        simp [readLines, addAll]
    unfold parseLoop Lines.lines readLines
    rw [hcount, takeDecl_read]
    generalize (if _ : (Lines.lineEnd 13 10 pos).isEmpty = false then
      Lines.lines 13 10 (Lines.past 13 10 (Lines.lineEnd 13 10 pos)) else []) = ls at hrest ⊢
    simp only
    cases hread : readLine (trim (Lines.line 13 10 pos)) with
    | none => simp
    | some oDecl =>
      cases oDecl with
      | none =>
        simp only [Option.bind_some, Option.elim_none, hrest]
        simp
      | some d =>
        simp only [Option.bind_some, Option.elim_some]
        cases hadd : t.addDecl (UInt32.ofNat (n + 1)) d with
        | none =>
          rw [← hcount] at hadd
          simp [addAll, hadd]
        | some t1 =>
          simp only [hrest]
          rw [← hcount] at hadd
          simp [addAll, hadd]

/-- A text is accepted when its lines are read and what they declare fits. -/
theorem parse_iff (text : WStr) (out t : Topology) :
    parse (some text) out = (S_OK, t, 0) ↔
      ∃ ds, readLines 0 (Lines.lines 13 10 text) = some ds ∧ empty.addAll ds = some t := by
  have hloop := parseLoop_lines text 0 empty t
  have hzero : UInt32.ofNat 0 = 0 := rfl
  rw [hzero] at hloop
  rw [← hloop]
  unfold parse
  cases hparse : parseLoop text 0 empty with
  | ok t1 => simp [hparse]
  | error lineNo =>
    simp only [hparse]
    exact iff_of_false (fun h => by cases h) (fun h => by cases h)

/-- A text of one line. -/
theorem parse_one {text : WStr} {ds : List Numbered} {t : Topology} (hwhole : Lines.Whole 13 10 text)
    (hread : readLines 0 [text] = some ds) (hall : empty.addAll ds = some t) (out : Topology) :
    parse (some text) out = (S_OK, t, 0) :=
  (parse_iff text out t).mpr ⟨ds, by rwa [← Lines.lines_one (by decide) hwhole] at hread, hall⟩

theorem parse_rows {rows : List WStr} (hwhole : ∀ r ∈ rows, Lines.Whole 13 10 r) {ds : List Numbered} {t : Topology}
    (hread : readLines 0 (rows ++ [[]]) = some ds) (hall : empty.addAll ds = some t) (out : Topology) :
    parse (some (rows.flatMap (· ++ [10]))) out = (S_OK, t, 0) :=
  (parse_iff _ out t).mpr ⟨ds, by rw [Lines.lines_terminated (by decide) hwhole]; exact hread, hall⟩

/-! ## What a topology holds -/

def Decl.hub? : Decl → Option WStr
  | .hub addr _ => some addr
  | _ => none

def Decl.edge? : Decl → Option Edge
  | .link e => some e
  | _ => none

/-- The entry it makes in the map. -/
def Decl.entryOf : Decl → Option (WStr × WStr)
  | .hub addr ep | .at_ addr ep => if ep.isEmpty then none else some (addr, ep)
  | .link _ => none

/-- The declarations with an endpoint, each with the number of its line. -/
def entries (ds : List Numbered) : List (Nat × WStr × WStr) := ds.filterMap fun d => d.2.entryOf.map (d.1, ·)

/-- The topology is what these declarations make. -/
structure Holds (ds : List Numbered) (t : Topology) : Prop where
  hubs : t.m_hubs = ds.filterMap (·.2.hub?)
  edges : t.m_edges = ds.filterMap (·.2.edge?)
  addresses : t.m_entries = (entries ds).map (·.2.1)
  mapText : t.m_mapText = (entries ds).flatMap fun e => renderEntry e.2 ++ [10]
  mapLines : t.m_mapLines = (entries ds).map fun e => UInt32.ofNat e.1

theorem holds_nil : Holds [] empty := ⟨rfl, rfl, rfl, rfl, rfl⟩

theorem entries_append (ds es : List Numbered) : entries (ds ++ es) = entries ds ++ entries es := List.filterMap_append

/-- The topology with one declaration more. -/
def plus (t : Topology) (lineNo : UInt32) (d : Decl) : Topology where
  m_hubs := t.m_hubs ++ d.hub?.toList
  m_entries := t.m_entries ++ d.entryOf.toList.map (·.1)
  m_edges := t.m_edges ++ d.edge?.toList
  m_mapText := t.m_mapText ++ d.entryOf.toList.flatMap fun e => renderEntry e ++ [10]
  m_mapLines := t.m_mapLines ++ d.entryOf.toList.map fun _ => lineNo

theorem addEntry_plus {lineNo : UInt32} {addr ep : WStr} {t t' : Topology} (h : addEntry lineNo addr ep t = some t') :
    t' = t.plus lineNo (.at_ addr ep) := by
  unfold addEntry at h
  unfold plus Decl.entryOf
  by_cases hep : ep.isEmpty = true
  · rw [if_pos hep] at h
    cases h
    simp [hep, Decl.hub?, Decl.edge?]
  · rw [if_neg hep] at h
    split at h
    · cases h
    · cases h
      simp [hep, Decl.hub?, Decl.edge?, renderEntry]

theorem addDecl_plus {lineNo : UInt32} {d : Decl} {t t' : Topology} (h : t.addDecl lineNo d = some t') : t' = t.plus lineNo d := by
  cases d with
  | hub addr ep =>
    simp only [addDecl] at h
    split at h
    · cases h
    · rw [addEntry_plus h]
      simp [plus, Decl.hub?, Decl.edge?, Decl.entryOf]
  | at_ addr ep => exact addEntry_plus h
  | link e =>
    simp only [addDecl] at h
    split at h
    · cases h
    · cases h
      simp [plus, Decl.hub?, Decl.edge?, Decl.entryOf]

theorem plus_holds {ds : List Numbered} {t : Topology} (h : Holds ds t) (n : Nat) (d : Decl) :
    Holds (ds ++ [(n, d)]) (t.plus (UInt32.ofNat n) d) := by
  have hnew : entries [(n, d)] = d.entryOf.toList.map (n, ·) := by
    unfold entries
    cases hd : d.entryOf <;> simp [hd]
  constructor
  · rw [List.filterMap_append, ← h.hubs]
    unfold plus
    cases hd : d.hub? <;> simp [hd]
  · rw [List.filterMap_append, ← h.edges]
    unfold plus
    cases hd : d.edge? <;> simp [hd]
  · rw [entries_append, hnew, List.map_append, ← h.addresses, List.map_map]
    rfl
  · rw [entries_append, hnew, List.flatMap_append, ← h.mapText, List.flatMap_map]
    rfl
  · rw [entries_append, hnew, List.map_append, ← h.mapLines, List.map_map]
    rfl

theorem addAll_holds : ∀ {es ds : List Numbered} {t t' : Topology}, Holds ds t → t.addAll es = some t' → Holds (ds ++ es) t' := by
  intro es
  induction es with
  | nil =>
    intro ds t t' h hall
    cases hall
    rwa [List.append_nil]
  | cons e es ih =>
    intro ds t t' h hall
    obtain ⟨t1, hadd, hall⟩ := Option.bind_eq_some_iff.mp hall
    rw [List.append_cons]
    obtain rfl := addDecl_plus hadd
    exact ih (plus_holds h e.1 e.2) hall

/-- What a text declares; nothing when a line of it is refused. -/
def declared (text : WStr) : List Numbered := (readLines 0 (Lines.lines 13 10 text)).getD []

theorem parse_holds {text : WStr} {out t : Topology} (h : parse (some text) out = (S_OK, t, 0)) : Holds (declared text) t := by
  obtain ⟨ds, hread, hall⟩ := (parse_iff text out t).mp h
  unfold declared
  rw [hread]
  exact addAll_holds holds_nil hall

end Topology

end TargetFacade
