/-
  TargetFacade.Topology.MapText — what Topology::parse collects for the deployment map, and what
  SetEndpointMap makes of it (TargetFacadeTopology.hpp: parse, arm; ParseFacadeEndpointMap).

  The map text has a line for each declaration with an endpoint (`lines_mapText`), and the table of
  their line numbers goes with it. The two parsers do not trim alike, and the map's takes a line that
  begins with '#' or ';' for a comment. So an address that begins with one is left out of the map
  without a word, and one with another white space at an end is stored without it. `map_text_iff`
  says for which texts the two agree.
-/

import Mathlib.Algebra.Order.Ring.Nat
import TargetFacade.Network.Deployment
import TargetFacade.Network.LinkAtomic
import TargetFacade.Topology.Parse

namespace TargetFacade

open OrdMap Text

/-! ## The calls -/

/-- Network::endpointFor: a first call for the length, a second for the text. -/
def Net.endpointFor (net : Net) (address : Option WStr) : WStr :=
  let (hr, _, cch) := net.GetEndpointFor address none (some 0)
  if FAILED hr || cch.getD 0 < 2 then []
  else
    let (hr, s, _) := net.GetEndpointFor address (some []) cch
    if FAILED hr then [] else s.getD []

namespace Topology

section Arm

variable (inet : InetPton) (env : Nat → LinkEnv)

/-- The edges from the `i`-th on, in file order. -/
def armEdges (i : Nat) (hrWorst : HRESULT) (net : Net) : List Edge → HRESULT × Net
  | [] => (hrWorst, net)
  | e :: es =>
    let ep := if e.endpoint.isEmpty then net.endpointFor (some e.listener) else e.endpoint
    let (hr, net) := Link inet (env i) (some e.listener) (some e.dialer) ep net
    if FAILED hr then (hr, net) else armEdges (i + 1) (if hr ≠ S_OK then hr else hrWorst) net es

/-- The answer, what `badLine` receives, and the network it leaves. -/
def arm (t : Topology) (net : Net) : HRESULT × UInt32 × Net :=
  if t.m_mapText.isEmpty then
    let (hr, net) := armEdges inet env 0 S_OK net t.m_edges
    (hr, 0, net)
  else
    let (hr, mapLine, net) := SetEndpointMap inet t.m_mapText net
    if FAILED hr then
      (hr, if 1 ≤ mapLine.toNat ∧ mapLine.toNat ≤ t.m_mapLines.length then (t.m_mapLines[mapLine.toNat - 1]?).getD 0 else 0, net)
    else
      let (hr, net) := armEdges inet env 0 S_OK net t.m_edges
      (hr, 0, net)

end Arm

/-! ## One entry -/

/-- An address and an endpoint as a line gives them. -/
structure EntryOf (line addr ep : WStr) : Prop where
  named : addr ≠ []
  inPlace : 58 ∉ addr ∧ ¬ L "//" <:+: addr
  unsplit : 61 ∉ addr
  said : ep ≠ []
  addrFrom : ∀ c ∈ addr, c ∈ line
  epFrom : ∀ c ∈ ep, c ∈ line

theorem mem_trim {s : WStr} {c : WChar} (h : c ∈ trim s) : c ∈ s := mem_of_mem_strip h

theorem mem_restOf {line : WStr} {c : WChar} (h : c ∈ restOf line) : c ∈ line := List.mem_of_mem_drop (mem_trim h)

theorem Read.entryOf {line : WStr} {d : Decl} {addr ep : WStr} (h : Read line d) (hd : d.entryOf = some (addr, ep)) :
    EntryOf line addr ep := by
  -- the two halves of what follows the verb
  have hhalves {u v : WStr} (hsplit : split (restOf line) 61 = (u, v)) (hne : trim u ≠ [])
      (hplace : looksLikeEndpoint (trim u) = false) (hep : trim v ≠ []) : EntryOf line (trim u) (trim v) := by
    have hplace : 58 ∉ trim u ∧ ¬ L "//" <:+: trim u := isSwapped_iff.mp hplace
    rcases split_cases (restOf line) 61 with ⟨-, hs⟩ | ⟨u', v', hrest, hu, hs⟩
    · rw [hs] at hsplit
      cases hsplit
      exact absurd rfl hep
    · rw [hs] at hsplit
      cases hsplit
      have hline : ∀ c ∈ u ++ 61 :: v, c ∈ line := fun c hc => mem_restOf (hrest ▸ hc)
      exact ⟨hne, hplace, fun hc => hu (mem_trim hc), hep, fun c hc => hline c (by simp [mem_trim hc]),
        fun c hc => hline c (by simp [mem_trim hc])⟩
  have hgiven {a e : WStr} (hd : (if e.isEmpty then none else some (a, e)) = some (addr, ep)) : a = addr ∧ e = ep ∧ e ≠ [] := by
    split at hd
    · cases hd
    · rename_i he
      cases hd
      exact ⟨rfl, rfl, by simpa using he⟩
  cases h with
  | hub u v hverb hsplit hne hplace =>
    obtain ⟨rfl, rfl, hep⟩ := hgiven hd
    exact hhalves hsplit hne hplace hep
  | at_ u v hverb hsplit hne hplace hep =>
    obtain ⟨rfl, rfl, -⟩ := hgiven hd
    exact hhalves hsplit hne hplace hep
  | link pair v arrow => cases hd

/-- A declaration is what its line reads as. -/
theorem readLines_at {n : Nat} {ls : List WStr} {ds : List Numbered} (h : readLines n ls = some ds) :
    ∀ d ∈ ds, ∃ i line, ls[i]? = some line ∧ d.1 = n + i + 1 ∧ Read (trim line) d.2 := by
  induction ls generalizing n ds with
  | nil =>
    cases h
    simp
  | cons line ls ih =>
    obtain ⟨oDecl, hline, h⟩ := Option.bind_eq_some_iff.mp h
    obtain ⟨ds', hrest, rfl⟩ := Option.map_eq_some_iff.mp h
    intro d hd
    rcases List.mem_append.mp hd with hd | hd
    · cases oDecl with
      | none => cases hd
      | some d' =>
        obtain rfl : d = (n + 1, d') := by simpa using hd
        have hsilent : silent (trim line) = false := by
          cases hs : silent (trim line) with
          | false => rfl
          | true =>
            rw [readLine_silent hs] at hline
            cases hline
        obtain ⟨d'', heq, hread⟩ := (readLine_iff hsilent _).mp hline
        obtain rfl := Option.some.inj heq
        exact ⟨0, line, rfl, rfl, hread⟩
    · obtain ⟨i, line', hl, hn, hread⟩ := ih hrest d hd
      exact ⟨i + 1, line', hl, by rw [hn]; omega, hread⟩

theorem entry_declared {text : WStr} {e : Nat × WStr × WStr} (h : e ∈ entries (declared text)) :
    ∃ line, (Lines.lines 13 10 text)[e.1 - 1]? = some line ∧ EntryOf line e.2.1 e.2.2 := by
  obtain ⟨d, hd, he⟩ := List.mem_filterMap.mp h
  obtain ⟨e', he', rfl⟩ := Option.map_eq_some_iff.mp he
  unfold declared at hd
  cases hread : readLines 0 (Lines.lines 13 10 text) with
  | none =>
    rw [hread] at hd
    cases hd
  | some ds =>
    rw [hread] at hd
    obtain ⟨i, line, hl, hn, hline⟩ := readLines_at hread d hd
    have hentry := hline.entryOf he'
    refine ⟨line, ?_, hentry.named, hentry.inPlace, hentry.unsplit, hentry.said, fun c hc => mem_trim (hentry.addrFrom c hc),
      fun c hc => mem_trim (hentry.epFrom c hc)⟩
    show (Lines.lines 13 10 text)[d.1 - 1]? = some line
    rw [hn, ← hl]
    congr 1
    omega

/-- The lines SetEndpointMap is to read, and nothing after the last of them. -/
def mapRows (es : List (Nat × WStr × WStr)) : List WStr := (es.map fun e => renderEntry e.2) ++ [[]]

/-- A line for each declaration with an endpoint, in the order of the file. -/
theorem lines_mapText {text : WStr} {t : Topology} (h : Holds (declared text) t) :
    Lines.lines 13 10 t.m_mapText = mapRows (entries (declared text)) := by
  have hrows : t.m_mapText = ((entries (declared text)).map fun e => renderEntry e.2).flatMap (· ++ [10]) := by
    rw [h.mapText, List.flatMap_map]
  rw [hrows]
  refine Lines.lines_terminated (by decide) fun r hr => ?_
  obtain ⟨e, he, rfl⟩ := List.mem_map.mp hr
  obtain ⟨line, hl, hentry⟩ := entry_declared he
  have hline := lines_whole text line (List.mem_of_getElem? hl)
  exact whole_append (whole_append (whole_of_mem hline hentry.addrFrom) (by decide)) (whole_of_mem hline hentry.epFrom)

/-! ## How the map's parser reads it -/

/-- The map's parser takes a line that begins with this address for a comment. -/
def Commented (addr : WStr) : Prop := (Trim addr).head? = some 35 ∨ (Trim addr).head? = some 59

instance (addr : WStr) : Decidable (Commented addr) := inferInstanceAs (Decidable (_ ∨ _))

/-- The line, as it is trimmed there. -/
theorem trim_row (addr ep : WStr) : ∃ u v, Trim (renderEntry (addr, ep)) = u ++ 61 :: v ∧ (∀ c ∈ u, c ∈ addr ∨ c = 32) ∧
    Trim u = Trim addr ∧ Trim v = Trim ep ∧ (u = [] ↔ Trim addr = []) ∧ ∀ c ∈ u.head?, iswspace c = false := by
  have hspace : ∀ c ∈ [(32 : WChar)], iswspace c = true := space_only
  obtain ⟨u, hu⟩ : ∃ u, (addr ++ [32]).dropWhile iswspace = u := ⟨_, rfl⟩
  have hline : renderEntry (addr, ep) = (addr ++ [32]).takeWhile iswspace ++ (u ++ 61 :: (32 :: ep)) ++ [] := by
    rw [← hu, List.append_nil, ← List.append_assoc, List.takeWhile_append_dropWhile]
    simp [renderEntry, L]
  have hfirst : ∀ c ∈ u.head?, iswspace c = false := by
    intro c hc
    have hnot := List.head?_dropWhile_not iswspace (addr ++ [32])
    rw [hu, Option.mem_def.mp hc] at hnot
    simpa using hnot
  have hcut : ∀ c ∈ (u ++ [61]).head?, iswspace c = false := by
    intro c hc
    cases u with
    | nil =>
      obtain rfl : 61 = c := by simpa using hc
      rfl
    | cons d u => exact hfirst c hc
  have hTrimU : Trim u = Trim addr := by
    rw [← hu, trim_eq, strip_dropWhile]
    exact strip_pad (u := []) (by simp) hspace
  have hTrimV : Trim ((32 :: ep).rdropWhile iswspace) = Trim ep := by
    have hpad := strip_pad (p := iswspace) (u := [32]) (s := ep) (v := []) hspace (by simp)
    rw [List.append_nil] at hpad
    rw [trim_eq, strip_rdropWhile]
    exact hpad
  refine ⟨u, (32 :: ep).rdropWhile iswspace, ?_, ?_, hTrimU, hTrimV, ?_, hfirst⟩
  · rw [hline, trim_eq, strip_pad (fun c hc => List.mem_takeWhile_imp hc) (by simp), strip_cut hcut (by decide +kernel)]
  · intro c hc
    have hmem : c ∈ addr ++ [32] := (List.dropWhile_sublist iswspace).mem (hu ▸ hc)
    simpa using hmem
  · rw [← hTrimU]
    constructor
    · rintro rfl
      rfl
    · intro he
      cases u with
      | nil => rfl
      | cons c u =>
        rw [trim_eq, strip_cons (hfirst c rfl)] at he
        cases he

theorem blank_row {addr ep : WStr} : Blank (renderEntry (addr, ep)) ↔ Commented addr := by
  obtain ⟨u, v, htrim, -, hTrimU, -, hempty, hfirst⟩ := trim_row addr ep
  have hne : Trim (renderEntry (addr, ep)) ≠ [] := by
    rw [htrim]
    simp
  have hheads (w : WChar) (hw : w ≠ 61) : (Trim (renderEntry (addr, ep))).head? = some w ↔ (Trim addr).head? = some w := by
    rw [htrim]
    cases u with
    | nil =>
      rw [hempty.mp rfl]
      exact iff_of_false (fun h => hw (by simpa using h.symm)) nofun
    | cons c u =>
      rw [← hTrimU, trim_eq, strip_cons (hfirst c rfl)]
      rfl
  unfold Blank Commented
  rw [hheads 35 (by decide), hheads 59 (by decide), or_iff_right hne]

theorem parse_ok_trim {inet : InetPton} {s : WStr} {oEp : FacadeEndpoint} :
    ParseFacadeEndpoint inet (Trim s) false {} = (S_OK, oEp) ↔ ParseFacadeEndpoint inet s false {} = (S_OK, oEp) := by
  have htrim : Trim (Trim s) = Trim s := by rw [trim_eq, trim_eq, strip_strip]
  rw [parse_accepts, parse_accepts, parseCore_iff, parseCore_iff, htrim]

theorem entry_row {inet : InetPton} {line addr ep k : WStr} {oEp : FacadeEndpoint} (h : EntryOf line addr ep) :
    Entry inet (renderEntry (addr, ep)) k oEp ↔
      k = Trim addr ∧ k ≠ [] ∧ ParseFacadeEndpoint inet ep false {} = (S_OK, oEp) ∧ oEp.eKind ≠ .serial := by
  obtain ⟨u, v, htrim, hchars, hTrimU, hTrimV, -, -⟩ := trim_row addr ep
  have hu : 61 ∉ u := by
    intro hc
    rcases hchars 61 hc with hc | hc
    · exact h.unsplit hc
    · cases hc
  constructor
  · intro he
    obtain ⟨u', v', hs, hu', hk, hp⟩ := he.split
    have hlen : u.length = u'.length := by
      have hfind := find_cut.mpr ⟨u, v, htrim, hu, rfl⟩
      rw [find_cut.mpr ⟨u', v', hs, hu', rfl⟩] at hfind
      exact (Option.some.inj hfind).symm
    obtain ⟨rfl, hv⟩ := List.append_inj (htrim.symm.trans hs) hlen
    obtain ⟨-, rfl⟩ := List.cons.inj hv
    rw [hTrimV, parse_ok_trim] at hp
    exact ⟨hk.trans hTrimU, he.named, hp, he.kind⟩
  · rintro ⟨rfl, hne, hp, hkind⟩
    have hin : Trim addr <:+: addr := by
      obtain ⟨p, q, hs, -, -⟩ := strip_parts iswspace addr
      exact ⟨p, q, hs.symm⟩
    refine ⟨⟨u, v, htrim, hu, hTrimU.symm, ?_⟩, hne, ⟨fun hc => h.inPlace.1 (hin.mem hc), fun hi => h.inPlace.2 (hi.trans hin)⟩,
      hkind⟩
    rw [hTrimV, parse_ok_trim]
    exact hp

/-! ## The two parsers -/

/-- Both parsers spell the address as it is given. -/
structure Plain (addr : WStr) : Prop where
  clean : Trim addr = addr
  uncommented : ¬ Commented addr

/-- What is owed to a text that parse made `t` of. -/
structure MapTextAgrees (inet : InetPton) (env : Nat → LinkEnv) (text : WStr) (t : Topology) : Prop where
  rows : Lines.lines 13 10 t.m_mapText = mapRows (entries (declared text))
  hubs : t.m_hubs = (declared text).filterMap (·.2.hub?)
  refused : ∀ net, FAILED (SetEndpointMap inet t.m_mapText net).1 = true →
    1 ≤ (SetEndpointMap inet t.m_mapText net).2.1.toNat ∧
      ∃ e, (entries (declared text))[(SetEndpointMap inet t.m_mapText net).2.1.toNat - 1]? = some e ∧
        (arm inet env t net).2.1.toNat = e.1
  every : ∀ net, FAILED (SetEndpointMap inet t.m_mapText net).1 = false → ∀ e ∈ entries (declared text),
    ∃ oEp, ParseFacadeEndpoint inet e.2.2 false {} = (S_OK, oEp) ∧
      (SetEndpointMap inet t.m_mapText net).2.2.mapEndpoints[e.2.1]? = some oEp.Format
  only : ∀ net, FAILED (SetEndpointMap inet t.m_mapText net).1 = false → ∀ k v,
    (SetEndpointMap inet t.m_mapText net).2.2.mapEndpoints[k]? = some v → ∃ e ∈ entries (declared text), e.2.1 = k

/-- A line that is refused has a number that an unsigned int holds, and so has the line of the file
    it is from; when none is, every address is spelled alike. -/
structure MapTextFits (inet : InetPton) (es : List (Nat × WStr × WStr)) : Prop where
  counted : ∀ k, FirstBad inet (mapRows es) k →
    (k + 1) % 2 ^ 32 ≠ 0 ∧ ∀ e, es[(k + 1) % 2 ^ 32 - 1]? = some e → e.1 < 2 ^ 32
  plain : (∀ i, GoodLine inet (mapRows es) i) → ∀ e ∈ es, Plain e.2.1

section Agreement

variable {inet : InetPton} {text : WStr} {t : Topology}

theorem mem_mapRows {es : List (Nat × WStr × WStr)} {line : WStr} (h : line ∈ mapRows es) :
    line = [] ∨ ∃ e ∈ es, line = renderEntry e.2 := by
  rcases List.mem_append.mp h with h | h
  · obtain ⟨e, he, rfl⟩ := List.mem_map.mp h
    exact Or.inr ⟨e, he, rfl⟩
  · exact Or.inl (by simpa using h)

theorem firstBad_rows {es : List (Nat × WStr × WStr)} {k : Nat} (h : FirstBad inet (mapRows es) k) : k < es.length := by
  by_contra hge
  refine h.1 fun line hl => Or.inl ?_
  unfold mapRows at hl
  rw [List.getElem?_append_right (by simpa using hge)] at hl
  obtain rfl : line = [] := by simpa using List.mem_of_getElem? hl
  exact blank_nil

theorem setMap_bad {k : Nat} (h : FirstBad inet (Lines.lines 13 10 t.m_mapText) k) (net : Net) :
    SetEndpointMap inet t.m_mapText net = (P2PF_E_ENDPOINT, UInt32.ofNat (k + 1), net) := by
  unfold SetEndpointMap
  rw [parseMap_bad ∅ h]
  rfl

theorem setMap_good (h : ∀ i, GoodLine inet (Lines.lines 13 10 t.m_mapText) i) (net : Net) :
    FAILED (SetEndpointMap inet t.m_mapText net).1 = false ∧
      MapOf inet (Lines.lines 13 10 t.m_mapText) (SetEndpointMap inet t.m_mapText net).2.2.mapEndpoints := by
  obtain ⟨m, hp, hm⟩ := parseMap_good ∅ h
  unfold SetEndpointMap
  rw [hp]
  exact ⟨rfl, hm⟩

/-- The number arm reports for a map line that is refused. -/
theorem arm_badLine (hd : Holds (declared text) t) {k : Nat} (hk : FirstBad inet (mapRows (entries (declared text))) k)
    {e : Nat × WStr × WStr} (he : (entries (declared text))[(k + 1) % 2 ^ 32 - 1]? = some e) (hne : (k + 1) % 2 ^ 32 ≠ 0)
    (env : Nat → LinkEnv) (net : Net) : (arm inet env t net).2.1 = UInt32.ofNat e.1 := by
  have hlen := firstBad_rows hk
  have hcast : (UInt32.ofNat (k + 1)).toNat = (k + 1) % 2 ^ 32 := UInt32.toNat_ofNat'
  have hmod := Nat.mod_le (k + 1) (2 ^ 32)
  have hlines : t.m_mapLines.length = (entries (declared text)).length := by rw [hd.mapLines, List.length_map]
  have htext : ¬ t.m_mapText.isEmpty = true := by
    rw [List.isEmpty_iff]
    intro hnil
    have hl := lines_mapText hd
    rw [hnil] at hl
    have hone := Lines.lines_length 13 10 ([] : WStr)
    rw [hl] at hone
    unfold mapRows at hone
    simp only [List.length_append, List.length_map, List.length_cons, List.length_nil] at hone
    omega
  unfold arm
  rw [if_neg htext, setMap_bad (lines_mapText hd ▸ hk)]
  show (if 1 ≤ (UInt32.ofNat (k + 1)).toNat ∧ (UInt32.ofNat (k + 1)).toNat ≤ t.m_mapLines.length then
    (t.m_mapLines[(UInt32.ofNat (k + 1)).toNat - 1]?).getD 0 else 0) = _
  rw [hcast, hlines, if_pos (by omega), hd.mapLines, List.getElem?_map, he]
  rfl

theorem refused_iff (hd : Holds (declared text) t) {k : Nat} (hk : FirstBad inet (mapRows (entries (declared text))) k) (env : Nat → LinkEnv) (net : Net) :
    ((k + 1) % 2 ^ 32 ≠ 0 ∧ ∀ e, (entries (declared text))[(k + 1) % 2 ^ 32 - 1]? = some e → e.1 < 2 ^ 32) ↔
      1 ≤ (SetEndpointMap inet t.m_mapText net).2.1.toNat ∧
        ∃ e, (entries (declared text))[(SetEndpointMap inet t.m_mapText net).2.1.toNat - 1]? = some e ∧
          (arm inet env t net).2.1.toNat = e.1 := by
  have hcast : (UInt32.ofNat (k + 1)).toNat = (k + 1) % 2 ^ 32 := UInt32.toNat_ofNat'
  rw [setMap_bad (lines_mapText hd ▸ hk) net]
  simp only [hcast]
  have hlen := firstBad_rows hk
  have hmod := Nat.mod_le (k + 1) (2 ^ 32)
  have hnumber (n : Nat) : (UInt32.ofNat n).toNat = n % 2 ^ 32 := UInt32.toNat_ofNat'
  constructor
  · rintro ⟨hne, hlines⟩
    obtain ⟨e, he⟩ : ∃ e, (entries (declared text))[(k + 1) % 2 ^ 32 - 1]? = some e :=
      ⟨_, List.getElem?_eq_getElem (by omega)⟩
    refine ⟨by omega, e, he, ?_⟩
    rw [arm_badLine hd hk he hne, hnumber, Nat.mod_eq_of_lt (hlines e he)]
  · rintro ⟨hpos, e, he, hline⟩
    have hne : (k + 1) % 2 ^ 32 ≠ 0 := by omega
    refine ⟨hne, fun e' he' => ?_⟩
    obtain rfl : e = e' := Option.some.inj (he.symm.trans he')
    rw [arm_badLine hd hk he hne, hnumber] at hline
    rw [← hline]
    exact Nat.mod_lt _ (by decide)

/-- In a map that is accepted a plain address has its endpoint. -/
theorem every_of_plain {m : FacadeEndpointMap} (hm : MapOf inet (mapRows (entries (declared text))) m)
    (hgood : ∀ i, GoodLine inet (mapRows (entries (declared text))) i) {e : Nat × WStr × WStr}
    (he : e ∈ entries (declared text)) (hplain : Plain e.2.1) :
    ∃ oEp, ParseFacadeEndpoint inet e.2.2 false {} = (S_OK, oEp) ∧ m[e.2.1]? = some oEp.Format := by
  obtain ⟨_, _, hfrom⟩ := entry_declared he
  have hrow : renderEntry e.2 ∈ mapRows (entries (declared text)) :=
    List.mem_append_left _ (List.mem_map_of_mem (f := fun e => renderEntry e.2) he)
  have hnb : ¬ Blank (renderEntry e.2) := mt blank_row.mp hplain.uncommented
  obtain ⟨i, hi⟩ := List.mem_iff_getElem?.mp hrow
  rcases hgood i _ hi with hb | ⟨k, oEp, hentry, -⟩
  · exact absurd hb hnb
  obtain ⟨hkey, -, hp, -⟩ := (entry_row hfrom).mp hentry
  rw [hplain.clean] at hkey
  subst hkey
  exact ⟨oEp, hp, (hm _ _).mpr ⟨_, hrow, hnb, oEp, hentry, rfl⟩⟩

/-- What the map has is under the address of a declaration, trimmed. -/
theorem key_declared {m : FacadeEndpointMap} (hm : MapOf inet (mapRows (entries (declared text))) m) {k v : WStr}
    (h : m[k]? = some v) : ∃ e ∈ entries (declared text), Trim e.2.1 = k ∧ ¬ Commented e.2.1 := by
  obtain ⟨line, hl, hnb, oEp, hentry, -⟩ := (hm _ _).mp h
  rcases mem_mapRows hl with rfl | ⟨e, he, rfl⟩
  · exact absurd blank_nil hnb
  obtain ⟨_, _, hfrom⟩ := entry_declared he
  exact ⟨e, he, ((entry_row hfrom).mp hentry).1.symm, mt blank_row.mpr hnb⟩

theorem plain_of_every {m : FacadeEndpointMap} (hm : MapOf inet (mapRows (entries (declared text))) m)
    (h : ∀ e ∈ entries (declared text), (m[e.2.1]?).isSome = true) : ∀ e ∈ entries (declared text), Plain e.2.1 := by
  intro e he
  obtain ⟨v, hv⟩ := Option.isSome_iff_exists.mp (h e he)
  obtain ⟨e', -, hkey, hno⟩ := key_declared hm hv
  have hclean : Trim e.2.1 = e.2.1 := by rw [← hkey, trim_eq, trim_eq, strip_strip]
  refine ⟨hclean, fun hc => hno ?_⟩
  unfold Commented at hc ⊢
  rwa [hclean, ← hkey] at hc

/-- Topology's text and SetEndpointMap agree on a text exactly when it fits. -/
theorem map_text_iff (inet : InetPton) (env : Nat → LinkEnv) {text : WStr} {out t : Topology}
    (h : parse (some text) out = (S_OK, t, 0)) :
    MapTextAgrees inet env text t ↔ MapTextFits inet (entries (declared text)) := by
  have hd := parse_holds h
  have hrows := lines_mapText hd
  constructor
  · intro ha
    constructor
    · intro k hk
      refine (refused_iff hd hk env ⟨[], ∅, [], false, []⟩).mpr (ha.refused _ ?_)
      rw [setMap_bad (hrows ▸ hk)]
      rfl
    · intro hgood
      obtain ⟨hok, hm⟩ := setMap_good (hrows ▸ hgood) ⟨[], ∅, [], false, []⟩
      refine plain_of_every (hrows ▸ hm) fun e he => ?_
      obtain ⟨oEp, -, hget⟩ := ha.every _ hok e he
      rw [hget]
      rfl
  · intro hf
    rcases @good_or_firstBad inet (mapRows (entries (declared text))) with hgood | ⟨k, hk⟩
    · have hset (net : Net) := setMap_good (hrows ▸ hgood) net
      have hplain := hf.plain hgood
      refine ⟨hrows, hd.hubs, fun net hfail => ?_, fun net _ e he => ?_, fun net _ k v hget => ?_⟩
      · rw [(hset net).1] at hfail
        cases hfail
      · exact every_of_plain (hrows ▸ (hset net).2) hgood he (hplain e he)
      · obtain ⟨e, he, hkey, -⟩ := key_declared (hrows ▸ (hset net).2) hget
        exact ⟨e, he, (hplain e he).clean.symm.trans hkey⟩
    · have hbad (net : Net) := setMap_bad (hrows ▸ hk) net
      have hfails (net : Net) (hok : FAILED (SetEndpointMap inet t.m_mapText net).1 = false) : False := by
        rw [hbad net] at hok
        cases hok
      exact ⟨hrows, hd.hubs, fun net _ => (refused_iff hd hk env net).mp (hf.counted k hk),
        fun net hok => (hfails net hok).elim, fun net hok => (hfails net hok).elim⟩

/-- A link whose hubs have no keys, and whose connections go. -/
def plainLink : LinkEnv where
  edge := ⟨.noModule, ⟨{}, .good, {}⟩, ⟨{}, .good, {}⟩, {}⟩
  listen := .keyless true
  dial := .keyless true
  unwind := { stays := fun _ _ => false }

/-- Two hubs, one with an endpoint, and an entry of another process. -/
def hubRows : List WStr := [L "hub A = tcp://[::1]:7788", L "hub B", L "at C = dmx://C"]

theorem map_text_iff_three :
    MapTextAgrees inetSome (fun _ => plainLink) (hubRows.flatMap (· ++ [10]))
        ⟨[L "A", L "B"], [L "A", L "C"], [], L "A = tcp://[::1]:7788\nC = dmx://C\n", [1, 3]⟩ ↔
      MapTextFits inetSome (entries (declared (hubRows.flatMap (· ++ [10])))) :=
  have hread : readLines 0 (hubRows ++ [[]]) =
      some [(1, .hub (L "A") (L "tcp://[::1]:7788")), (2, .hub (L "B") []), (3, .at_ (L "C") (L "dmx://C"))] := by decide
  map_text_iff _ _ (parse_rows (by decide) hread (by decide) empty)

/-- An address that begins with '#' is not in the map that SetEndpointMap accepts. -/
theorem map_text_comment : ∃ t, parse (some (L "at #A = dmx://A")) empty = (S_OK, t, 0) ∧
    ∀ env, ¬ MapTextAgrees ⟨fun _ => false, fun _ => none⟩ env (L "at #A = dmx://A") t := by
  have hparse : parse (some (L "at #A = dmx://A")) empty = (S_OK, ⟨[], [L "#A"], [], L "#A = dmx://A\n", [1]⟩, 0) :=
    have hread : readLines 0 [L "at #A = dmx://A"] = some [(1, .at_ (L "#A") (L "dmx://A"))] := by decide
    parse_one (by decide) hread (by decide) _
  refine ⟨_, hparse, fun env ha => ?_⟩
  have hes : entries (declared (L "at #A = dmx://A")) = [(1, L "#A", L "dmx://A")] := by
    unfold declared
    rw [Lines.lines_one (by decide) (by decide)]
    decide
  have hgood : ∀ i, GoodLine ⟨fun _ => false, fun _ => none⟩ (mapRows (entries (declared (L "at #A = dmx://A")))) i := by
    intro i line hl
    refine Or.inl ?_
    rcases mem_mapRows (List.mem_of_getElem? hl) with rfl | ⟨e, he, rfl⟩
    · exact blank_nil
    · rw [hes, List.mem_singleton] at he
      subst he
      exact blank_row.mpr (by decide)
  have hrows := lines_mapText (parse_holds hparse)
  obtain ⟨hok, hm⟩ := setMap_good (hrows ▸ hgood) ⟨[], ∅, [], false, []⟩
  have hplain := plain_of_every (hrows ▸ hm) fun e he => by
    obtain ⟨oEp, -, hget⟩ := ha.every _ hok e he
    rw [hget]
    rfl
  refine (hplain (1, L "#A", L "dmx://A") (by rw [hes]; simp)).uncommented ?_
  decide

end Agreement

end Topology

end TargetFacade
