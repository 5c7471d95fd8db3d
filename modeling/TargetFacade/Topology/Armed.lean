/-
  TargetFacade.Topology.Armed — what arm leaves of an accepted text (TargetFacadeTopology.hpp: parse,
  createHubs, arm).

  The hubs are there as createHubs makes them, plain and with nothing armed; what is in the map of the
  network before does not matter, unless the text has no endpoint to put there. The addresses are such
  that the map's parser spells them as they are (Topology.MapText says what becomes of the others).

  Results:
  (1) `arm_means`: arm succeeds exactly if every endpoint that the text declares is one a dial can have,
      every edge's own is too, no two edges join the same two hubs and the kernel takes the connections.
      Then each hub has the records of the text's edges and no others, and the answer says whether an edge
      joins unrelated hubs. When an edge fails, the edges before it are armed and stay so, and no other is;
      when an endpoint that is declared is none, nothing is armed.
  (2) Two links of the same hubs, one in each direction, are accepted by parse, and the second fails with
      the first left armed (`linked_back`).
-/

import TargetFacade.Topology.Wiring

namespace TargetFacade

open OrdMap Text TargetFacade.Topology

/-! ## The loop -/

/-- The edge `n` is the first that does not go, or they all do and `n` is their number. -/
structure Stops (inet : InetPton) (ds : List Numbered) (env : Nat → LinkEnv) (es : List Edge) (n : Nat) : Prop where
  goes : ∀ i e, i < n → es[i]? = some e → Goes inet ds (env i) (es.take i) e
  stops : ∀ e, es[n]? = some e → ¬ Goes inet ds (env n) (es.take n) e
  within : n ≤ es.length

/-- The hubs an edge joins are there, with nothing armed. -/
structure Edge.Found (net : Net) (e : Edge) : Prop where
  listener : ∃ h, net.FindHubLocked e.listener = some h ∧ h.Unarmed
  dialer : ∃ h, net.FindHubLocked e.dialer = some h ∧ h.Unarmed

/-- The text that the loop gives Link for an edge. -/
def Net.edgeText (net : Net) (e : Edge) : WStr :=
  if e.endpoint.isEmpty then net.endpointFor (some e.listener) else e.endpoint

theorem endpointFor_congr {net net' : Net} (h : net'.mapEndpoints = net.mapEndpoints) (a : Option WStr) :
    net'.endpointFor a = net.endpointFor a := by
  unfold Net.endpointFor Net.GetEndpointFor
  rw [h]

/-- What the loop keeps of the answers, after one more Link that went. -/
theorem worst_after (e : Edge) (hrWorst : HRESULT) :
    (if (if e.Unrelated then P2PF_S_UNRELATED_LINK else S_OK) ≠ S_OK then
      (if e.Unrelated then P2PF_S_UNRELATED_LINK else S_OK) else hrWorst) =
      if e.Unrelated then P2PF_S_UNRELATED_LINK else hrWorst := by
  by_cases hrel : e.Unrelated
  · rw [if_pos hrel, if_pos hrel]
    rfl
  · rw [if_neg hrel, if_neg hrel, if_neg (not_not.mpr rfl)]

/-- The loop, from after the edges `done` on. -/
theorem armEdges_wires (inet : InetPton) (ds : List Numbered) (env : Nat → LinkEnv) (net : Net) :
    ∀ (rest done : List Edge) (hrWorst : HRESULT) (net' : Net), WiredUp inet ds done net net' →
      (∀ e ∈ rest, e.Fine ∧ e.Found net ∧ e.Says inet ds (net.edgeText e)) → FAILED hrWorst = false →
      (∀ i e, i < done.length → (done ++ rest)[i]? = some e → Goes inet ds (env i) ((done ++ rest).take i) e) →
      ∃ n, Stops inet ds env (done ++ rest) n ∧
        Wired inet ds ((done ++ rest).take n) net (armEdges inet env done.length hrWorst net' rest).2 ∧
        (FAILED (armEdges inet env done.length hrWorst net' rest).1 = false ↔ n = (done ++ rest).length) ∧
        (n = (done ++ rest).length → (armEdges inet env done.length hrWorst net' rest).1 =
          if ∃ e ∈ rest, e.Unrelated then P2PF_S_UNRELATED_LINK else hrWorst) := by
  intro rest
  induction rest with
  | nil =>
    intro done hrWorst net' hu _ hok hgoes
    simp only [List.append_nil] at hgoes ⊢
    refine ⟨done.length, ⟨hgoes, fun e he => ?_, Nat.le_refl _⟩, ?_, iff_of_true hok rfl, fun _ => ?_⟩
    · rw [List.getElem?_eq_none (Nat.le_refl _)] at he
      cases he
    · rw [List.take_length]
      exact wiredUp_wired hu
    · rw [if_neg (by rintro ⟨e, he, -⟩; cases he)]
      rfl
  | cons e rest ih =>
    intro done hrWorst net' hu hall hok hgoes
    obtain ⟨hfine, hfound, hsays⟩ := hall e List.mem_cons_self
    obtain ⟨pListener, hL, hunL⟩ := hfound.listener
    obtain ⟨pDialer, hD, hunD⟩ := hfound.dialer
    have htext : (if e.endpoint.isEmpty then net'.endpointFor (some e.listener) else e.endpoint) = net.edgeText e := by
      unfold Net.edgeText
      rw [endpointFor_congr hu.map]
    unfold armEdges
    simp only [htext]
    have hthis : (done ++ e :: rest)[done.length]? = some e := by simp
    have htake : (done ++ e :: rest).take done.length = done := List.take_left
    rcases link_step (env done.length) hu hfine hsays hL hD hunL hunD with ⟨hgo, hcode, hu'⟩ | ⟨hno, hfail, hw⟩
    · -- on to the next
      have hlen : (done ++ [e]).length = done.length + 1 := by simp
      have happ : done ++ [e] ++ rest = done ++ e :: rest := by simp
      have hok' : FAILED (if e.Unrelated then P2PF_S_UNRELATED_LINK else S_OK) = false := by split <;> rfl
      rw [if_neg (by rw [hcode, hok']; nofun), hcode, worst_after]
      have hnext := ih (done ++ [e]) (if e.Unrelated then P2PF_S_UNRELATED_LINK else hrWorst) _ hu'
        (fun f hf => hall f (List.mem_cons_of_mem e hf)) (by split <;> first | rfl | exact hok) ?_
      · rw [hlen, happ] at hnext
        obtain ⟨n, hstops, hwired, hiff, hans⟩ := hnext
        refine ⟨n, hstops, hwired, hiff, fun hn => (hans hn).trans ?_⟩
        by_cases hrel : e.Unrelated
        · simp [hrel]
        · simp [hrel]
      · rw [hlen, happ]
        intro i f hi hf
        rcases Nat.lt_succ_iff_lt_or_eq.mp hi with hi | rfl
        · exact hgoes i f hi hf
        · obtain rfl := Option.some.inj (hthis.symm.trans hf)
          rw [htake]
          exact hgo
    · -- the first that does not go
      rw [if_pos hfail]
      refine ⟨done.length, ⟨hgoes, fun f hf => ?_, by simp⟩, ?_, iff_of_false (by rw [hfail]; nofun) (by simp),
        fun hn => absurd hn (by simp)⟩
      · obtain rfl := Option.some.inj (hthis.symm.trans hf)
        rw [htake]
        exact hno
      · rw [htake]
        exact hw

/-! ## What parse has checked -/

/-- The addresses with an endpoint are all different, and an edge's hubs are declared before it. -/
structure Checked (t : Topology) : Prop where
  entries : t.m_entries.Nodup
  edges : ∀ e ∈ t.m_edges, e.listener ∈ t.m_hubs ∧ e.dialer ∈ t.m_hubs

theorem checked_entry {lineNo : UInt32} {addr ep : WStr} {t t' : Topology} (h : Checked t)
    (hadd : addEntry lineNo addr ep t = some t') : Checked t' := by
  unfold addEntry at hadd
  split at hadd
  · cases hadd
    exact h
  split at hadd
  · cases hadd
  · rename_i hnew
    cases hadd
    refine ⟨List.nodup_append.mpr ⟨h.entries, List.nodup_cons.mpr ⟨nofun, List.nodup_nil⟩, fun a ha b hb he => ?_⟩, h.edges⟩
    obtain rfl := List.mem_singleton.mp hb
    subst he
    exact hnew (List.contains_iff_mem.mpr ha)

theorem checked_decl {lineNo : UInt32} {d : Decl} {t t' : Topology} (h : Checked t) (hadd : t.addDecl lineNo d = some t') :
    Checked t' := by
  cases d with
  | hub addr ep =>
    simp only [addDecl] at hadd
    split at hadd
    · cases hadd
    · refine checked_entry (t := { t with m_hubs := t.m_hubs ++ [addr] }) ⟨h.entries, fun e he => ?_⟩ hadd
      exact ⟨List.mem_append_left _ (h.edges e he).1, List.mem_append_left _ (h.edges e he).2⟩
  | at_ addr ep => exact checked_entry h hadd
  | link e =>
    simp only [addDecl] at hadd
    split at hadd
    · cases hadd
    · rename_i hhubs
      cases hadd
      refine ⟨h.entries, fun f hf => ?_⟩
      rcases List.mem_append.mp hf with hf | hf
      · exact h.edges f hf
      · obtain rfl := List.mem_singleton.mp hf
        have hhubs : t.isHub f.listener = true ∧ t.isHub f.dialer = true := by simpa using hhubs
        exact ⟨List.contains_iff_mem.mp hhubs.1, List.contains_iff_mem.mp hhubs.2⟩

theorem checked_all {ds : List Numbered} {t t' : Topology} (h : Checked t) (hall : t.addAll ds = some t') : Checked t' := by
  induction ds generalizing t with
  | nil =>
    cases hall
    exact h
  | cons d ds ih =>
    obtain ⟨t1, hadd, hall⟩ := Option.bind_eq_some_iff.mp hall
    exact ih (checked_decl h hadd) hall

theorem parse_checked {text : WStr} {out t : Topology} (h : parse (some text) out = (S_OK, t, 0)) : Checked t := by
  obtain ⟨ds, -, hall⟩ := (parse_iff text out t).mp h
  exact checked_all ⟨List.nodup_nil, fun e he => absurd he List.not_mem_nil⟩ hall

/-- An edge of a text that is accepted has two addresses, and they are two. -/
theorem edge_fine {text : WStr} {e : Edge} (he : e ∈ edgesOf (declared text)) : e.Fine := by
  obtain ⟨d, hd, hedge⟩ := List.mem_filterMap.mp he
  unfold declared at hd
  cases hread : Topology.readLines 0 (Lines.lines 13 10 text) with
  | none =>
    rw [hread] at hd
    cases hd
  | some ds =>
    rw [hread] at hd
    obtain ⟨i, line, -, -, hline⟩ := readLines_at hread d hd
    generalize d.2 = decl at hline hedge
    cases hline with
    | hub u v hverb hsplit hne hplace => cases hedge
    | at_ u v hverb hsplit hne hplace hep => cases hedge
    | link pair v arrow hverb hsplit harrow hfine =>
      cases hedge
      unfold refused at hfine
      simp only [Bool.or_eq_false_iff] at hfine
      obtain ⟨⟨⟨⟨hl, hd⟩, hne⟩, hpl⟩, hpd⟩ := hfine
      exact ⟨beq_eq_false_iff_ne.mp hne, ⟨by simpa using hl, hpl⟩, ⟨by simpa using hd, hpd⟩⟩

/-! ## The map -/

/-- A dial can have this endpoint, and a map can keep it. -/
def Dialable (inet : InetPton) (ep : WStr) : Prop :=
  ∃ oEp, ParseFacadeEndpoint inet ep false {} = (S_OK, oEp) ∧ oEp.eKind ≠ .serial

theorem endpointFor_get (net : Net) {a : WStr} (ha : a ≠ []) : net.endpointFor (some a) = (net.mapEndpoints[a]?).getD [] := by
  have ha' : a.isEmpty = false := by simpa using ha
  cases hget : net.mapEndpoints[a]? with
  | none =>
    have hask : net.GetEndpointFor (some a) none (some 0) = (P2PF_E_UNRESOLVED, none, some 0) := by
      simp [Net.GetEndpointFor, ha', hget]
    unfold Net.endpointFor
    rw [hask]
    rfl
  | some v =>
    have hask : net.GetEndpointFor (some a) none (some 0) = (S_OK, none, some (v.length + 1)) := by
      simp [Net.GetEndpointFor, ha', hget, CopyOut]
    have hread : net.GetEndpointFor (some a) (some []) (some (v.length + 1)) = (S_OK, some v, some (v.length + 1)) := by
      simp [Net.GetEndpointFor, ha', hget, CopyOut]
    unfold Net.endpointFor
    rw [hask]
    cases v with
    | nil => rfl
    | cons c v =>
      show (if decide ((c :: v).length + 1 < 2) = true then [] else _) = c :: v
      rw [decide_eq_false (by simp), if_neg Bool.false_ne_true, hread]
      rfl

section Map

variable {inet : InetPton} {text : WStr} {m : FacadeEndpointMap}

/-- The map has a listener's endpoint exactly if the text declares one. -/
theorem get_declared (hm : MapOf inet (mapRows (entries (declared text))) m)
    (hgood : ∀ i, GoodLine inet (mapRows (entries (declared text))) i)
    (hplain : ∀ d ∈ entries (declared text), Plain d.2.1) (a : WStr) :
    ((entries (declared text)).find? (·.2.1 == a) = none ∧ m[a]? = none) ∨
    ∃ d oEp, (entries (declared text)).find? (·.2.1 == a) = some d ∧ ParseFacadeEndpoint inet d.2.2 false {} = (S_OK, oEp) ∧
      m[a]? = some oEp.Format := by
  cases hfind : (entries (declared text)).find? (·.2.1 == a) with
  | none =>
    refine Or.inl ⟨rfl, ?_⟩
    cases hget : m[a]? with
    | none => rfl
    | some v =>
      obtain ⟨d, hd, hkey, -⟩ := key_declared hm hget
      rw [(hplain d hd).clean] at hkey
      exact absurd (beq_iff_eq.mpr hkey) (by simpa using List.find?_eq_none.mp hfind d hd)
  | some d =>
    have haddr : d.2.1 = a := by simpa using List.find?_some hfind
    have hd := List.mem_of_find?_eq_some hfind
    obtain ⟨oEp, hp, hget⟩ := every_of_plain hm hgood hd (hplain d hd)
    exact Or.inr ⟨d, oEp, rfl, hp, haddr ▸ hget⟩

theorem row_of {es : List (Nat × WStr × WStr)} {i : Nat} {line : WStr} (h : (mapRows es)[i]? = some line) :
    line = [] ∨ ∃ d, es[i]? = some d ∧ line = renderEntry d.2 := by
  unfold mapRows at h
  by_cases hi : i < es.length
  · rw [List.getElem?_append_left (by simpa using hi), List.getElem?_map] at h
    obtain ⟨d, hd, rfl⟩ := Option.map_eq_some_iff.mp h
    exact Or.inr ⟨d, hd, rfl⟩
  · rw [List.getElem?_append_right (by simpa using hi)] at h
    exact Or.inl (by simpa using List.mem_of_getElem? h)

/-- A line of the map's text for each endpoint that a dial can have, and no address twice. -/
theorem rows_good (hplain : ∀ d ∈ entries (declared text), Plain d.2.1)
    (hdistinct : ((entries (declared text)).map (·.2.1)).Nodup) :
    (∀ i, GoodLine inet (mapRows (entries (declared text))) i) ↔ ∀ d ∈ entries (declared text), Dialable inet d.2.2 := by
  constructor
  · intro hgood d hd
    obtain ⟨_, _, hfrom⟩ := entry_declared hd
    have hrow : renderEntry d.2 ∈ mapRows (entries (declared text)) :=
      List.mem_append_left _ (List.mem_map_of_mem (f := fun e => renderEntry e.2) hd)
    obtain ⟨i, hi⟩ := List.mem_iff_getElem?.mp hrow
    rcases hgood i _ hi with hb | ⟨k, oEp, hentry, -⟩
    · exact absurd (blank_row.mp hb) (hplain d hd).uncommented
    · obtain ⟨-, -, hp, hkind⟩ := (entry_row hfrom).mp hentry
      exact ⟨oEp, hp, hkind⟩
  · intro hall i line hl
    rcases row_of hl with rfl | ⟨d, hdi, rfl⟩
    · exact Or.inl blank_nil
    have hd := List.mem_of_getElem? hdi
    obtain ⟨_, _, hfrom⟩ := entry_declared hd
    obtain ⟨oEp, hp, hkind⟩ := hall d hd
    have hclean := (hplain d hd).clean
    refine Or.inr ⟨d.2.1, oEp, (entry_row hfrom).mpr ⟨hclean.symm, hfrom.named, hp, hkind⟩,
      fun j hj line' hl' hnb oEp' hentry => ?_⟩
    -- an earlier row has another address
    rcases row_of hl' with rfl | ⟨d', hdj, rfl⟩
    · exact hnb blank_nil
    have hd' := List.mem_of_getElem? hdj
    obtain ⟨_, _, hfrom'⟩ := entry_declared hd'
    obtain ⟨hkey, -⟩ := (entry_row hfrom').mp hentry
    rw [(hplain d' hd').clean] at hkey
    have hsame : ((entries (declared text)).map (·.2.1))[i]? = ((entries (declared text)).map (·.2.1))[j]? := by
      rw [List.getElem?_map, List.getElem?_map, hdi, hdj]
      exact congrArg some hkey
    have hlen : i < ((entries (declared text)).map (·.2.1)).length := by
      rw [List.length_map]
      exact (List.getElem?_eq_some_iff.mp hdi).1
    exact absurd ((List.getElem?_inj hlen hdistinct).mp hsame) (Nat.ne_of_gt hj)

theorem parsed_ne_nil {s : WStr} {oEp : FacadeEndpoint} (h : ParseFacadeEndpoint inet s false {} = (S_OK, oEp)) : s ≠ [] := by
  rintro rfl
  cases h

theorem ends_given {a b ep : WStr} {oEp : FacadeEndpoint} (hp : ParseFacadeEndpoint inet ep false {} = (S_OK, oEp))
    (hkind : oEp.eKind ≠ .serial) : linkEndpoints inet a b ep = (S_OK, { oEp with csHost := [] }, oEp) := by
  have hne : ep.isEmpty = false := by simpa using parsed_ne_nil hp
  unfold linkEndpoints
  simp only [hne, hp, hkind, Bool.not_false, if_true, if_false, failed_S_OK, Bool.false_eq_true]

theorem says_text {e : Edge} {ds : List Numbered} {ep : WStr} (h : e.text ds = ep) : e.Says inet ds ep := by
  subst h
  exact ⟨rfl, fun _ => rfl, fun _ => rfl⟩

/-- What the map keeps of an endpoint says the same to Link. -/
theorem says_stored (hinet : inet.Literal) {e : Edge} {ds : List Numbered} {oEp : FacadeEndpoint}
    (hp : ParseFacadeEndpoint inet (e.text ds) false {} = (S_OK, oEp)) (hkind : oEp.eKind ≠ .serial) :
    e.Says inet ds oEp.Format := by
  have hsaid : e.ends inet ds = _ := ends_given hp hkind
  have hkept := @ends_given inet e.listener e.dialer _ _ (parse_format (parseCore_canonical hinet (parse_accepts.mp hp)) {}) hkind
  constructor
  · rw [hsaid, hkept]
  · intro _
    rw [hsaid, hkept]
    rfl
  · intro _
    rw [hsaid, hkept]
    rfl

theorem says_of_map (hinet : inet.Literal) (hm : MapOf inet (mapRows (entries (declared text))) m)
    (hall : ∀ d ∈ entries (declared text), Dialable inet d.2.2)
    (hgood : ∀ i, GoodLine inet (mapRows (entries (declared text))) i)
    (hplain : ∀ d ∈ entries (declared text), Plain d.2.1) {net : Net} (hnet : net.mapEndpoints = m) {e : Edge}
    (he : e.Fine) : e.Says inet (declared text) (net.edgeText e) := by
  unfold Net.edgeText
  by_cases hown : e.endpoint.isEmpty = true
  · have htext : e.text (declared text) = ((entries (declared text)).find? (·.2.1 == e.listener)).elim [] (·.2.2) := if_pos hown
    rw [if_pos hown, endpointFor_get net he.listener.1, hnet]
    rcases get_declared hm hgood hplain e.listener with ⟨hfind, hnone⟩ | ⟨d, oEp, hfind, hp, hsome⟩
    · rw [hnone]
      rw [hfind] at htext
      exact says_text htext
    · rw [hsome]
      rw [hfind] at htext
      obtain ⟨oEp', hp', hkind⟩ := hall d (List.mem_of_find?_eq_some hfind)
      obtain rfl : oEp = oEp' := congrArg Prod.snd (hp.symm.trans hp')
      exact says_stored hinet (htext ▸ hp) hkind
  · rw [if_neg hown]
    exact says_text (if_neg hown)

end Map

/-! ## The text and the network -/

/-- What arm answers for a text, and what it leaves. -/
structure Means (inet : InetPton) (env : Nat → LinkEnv) (ds : List Numbered) (net : Net) (r : HRESULT × UInt32 × Net) : Prop where
  succeeds : FAILED r.1 = false ↔ (∀ d ∈ entries ds, Dialable inet d.2.2) ∧ Stops inet ds env (edgesOf ds) (edgesOf ds).length
  answer : FAILED r.1 = false → r.1 = if ∃ e ∈ edgesOf ds, e.Unrelated then P2PF_S_UNRELATED_LINK else S_OK
  /-- The edges up to the first that does not go. -/
  armed : (∀ d ∈ entries ds, Dialable inet d.2.2) → ∃ n, Stops inet ds env (edgesOf ds) n ∧
    Wired inet ds ((edgesOf ds).take n) net r.2.2
  nothing : ¬ (∀ d ∈ entries ds, Dialable inet d.2.2) → r.2.2 = net

theorem stops_unique {inet : InetPton} {ds : List Numbered} {env : Nat → LinkEnv} {es : List Edge} {m n : Nat}
    (hm : Stops inet ds env es m) (hn : Stops inet ds env es n) : m = n := by
  have hle {m n : Nat} (hm : Stops inet ds env es m) (hn : Stops inet ds env es n) : n ≤ m := by
    by_contra hlt
    have hlen : m < es.length := Nat.lt_of_lt_of_le (Nat.lt_of_not_le hlt) hn.within
    exact hm.stops es[m] (List.getElem?_eq_getElem hlen) (hn.goes m es[m] (Nat.lt_of_not_le hlt) (List.getElem?_eq_getElem hlen))
  exact Nat.le_antisymm (hle hn hm) (hle hm hn)

/-- The loop on a network whose map is the text's. -/
theorem armEdges_means {inet : InetPton} (hinet : inet.Literal) (env : Nat → LinkEnv) {text : WStr} {net net' : Net}
    (hfound : ∀ e ∈ edgesOf (declared text), e.Found net) (hplain : ∀ d ∈ entries (declared text), Plain d.2.1)
    (hall : ∀ d ∈ entries (declared text), Dialable inet d.2.2)
    (hgood : ∀ i, GoodLine inet (mapRows (entries (declared text))) i)
    (hm : MapOf inet (mapRows (entries (declared text))) net'.mapEndpoints) (hhubs : net'.hubs = net.hubs) (line : UInt32) :
    Means inet env (declared text) net ((armEdges inet env 0 S_OK net' (edgesOf (declared text))).1, line,
      (armEdges inet env 0 S_OK net' (edgesOf (declared text))).2) := by
  have hfound' : ∀ e ∈ edgesOf (declared text), e.Found net' := by
    intro e he
    obtain ⟨⟨h, hL, hun⟩, ⟨g, hD, hug⟩⟩ := hfound e he
    exact ⟨⟨h, (find_congr hhubs _).trans hL, hun⟩, ⟨g, (find_congr hhubs _).trans hD, hug⟩⟩
  obtain ⟨n, hstops, hwired, hiff, hans⟩ := armEdges_wires inet (declared text) env net'
    (edgesOf (declared text)) [] S_OK net' wiredUp_refl
    (fun e he => ⟨edge_fine he, hfound' e he, says_of_map hinet hm hall hgood hplain rfl (edge_fine he)⟩) rfl nofun
  rw [List.nil_append] at hstops hwired hiff hans
  refine ⟨?_, fun hok => hans (hiff.mp hok), fun _ => ⟨n, hstops, fun x h hx => hwired x h ((find_congr hhubs x).trans hx)⟩,
    fun hno => absurd hall hno⟩
  constructor
  · intro hok
    obtain rfl := hiff.mp hok
    exact ⟨hall, hstops⟩
  · intro h
    exact hiff.mpr (stops_unique hstops h.2)

theorem mapText_nil {text : WStr} {t : Topology} (h : Holds (declared text) t) :
    t.m_mapText.isEmpty = true ↔ entries (declared text) = [] := by
  rw [h.mapText, List.isEmpty_iff, List.flatMap_eq_nil_iff]
  constructor
  · intro hall
    cases he : entries (declared text) with
    | nil => rfl
    | cons d es => exact absurd (hall d (by rw [he]; exact List.mem_cons_self)) (by simp)
  · intro he d hd
    rw [he] at hd
    cases hd

/-- arm, on the hubs that createHubs has made, is what the text says. -/
theorem arm_means {inet : InetPton} (hinet : inet.Literal) (env : Nat → LinkEnv) {text : WStr} {out t : Topology}
    (hparse : parse (some text) out = (S_OK, t, 0)) (hplain : ∀ d ∈ entries (declared text), Plain d.2.1) {net : Net}
    (hhubs : ∀ a ∈ t.m_hubs, ∃ h, net.FindHubLocked a = some h ∧ h.Unarmed)
    (hmap : entries (declared text) = [] → net.mapEndpoints = ∅) :
    Means inet env (declared text) net (arm inet env t net) := by
  have hholds := parse_holds hparse
  have hchecked := parse_checked hparse
  have hrows := lines_mapText hholds
  have hedges : t.m_edges = edgesOf (declared text) := hholds.edges
  have hfound : ∀ e ∈ edgesOf (declared text), e.Found net := by
    intro e he
    obtain ⟨hl, hd⟩ := hchecked.edges e (hedges ▸ he)
    exact ⟨hhubs _ hl, hhubs _ hd⟩
  have hdistinct : ((entries (declared text)).map (·.2.1)).Nodup := hholds.addresses ▸ hchecked.entries
  have hgood := @rows_good inet text hplain hdistinct
  unfold arm
  by_cases hnil : t.m_mapText.isEmpty = true
  · -- the map is left empty
    have hnone := (mapText_nil hholds).mp hnil
    have hall : ∀ d ∈ entries (declared text), Dialable inet d.2.2 := by
      rw [hnone]
      nofun
    rw [if_pos hnil, hedges]
    refine armEdges_means hinet env hfound hplain hall (hgood.mpr hall) ?_ rfl 0
    rw [hmap hnone, hnone]
    intro k v
    rw [Std.ExtTreeMap.getElem?_empty]
    refine iff_of_false nofun ?_
    rintro ⟨line, hl, hnb, -⟩
    obtain rfl : line = [] := by simpa [mapRows] using hl
    exact hnb blank_nil
  rw [if_neg hnil]
  by_cases hall : ∀ d ∈ entries (declared text), Dialable inet d.2.2
  · -- the map is the text's
    have hrowsGood := hgood.mpr hall
    obtain ⟨hok, hm⟩ := setMap_good (hrows ▸ hrowsGood) net
    have hsame : (SetEndpointMap inet t.m_mapText net).2.2.hubs = net.hubs :=
      mapStep_hubs inet net (.setEndpointMap t.m_mapText)
    simp only [hok, Bool.false_eq_true, if_false, hedges]
    exact armEdges_means hinet env hfound hplain hall hrowsGood (hrows ▸ hm) hsame 0
  · -- refused
    have hbad : ¬ ∀ i, GoodLine inet (mapRows (entries (declared text))) i := mt hgood.mp hall
    obtain ⟨k, hk⟩ := (@good_or_firstBad inet (mapRows (entries (declared text)))).resolve_left hbad
    have hset := setMap_bad (hrows ▸ hk) net
    simp only [hset]
    rw [if_pos (show FAILED P2PF_E_ENDPOINT = true from rfl)]
    exact ⟨iff_of_false nofun fun h => hall h.1, nofun, fun h => absurd h hall, fun _ => rfl⟩

/-! ## An edge both ways -/

theorem declared_rows {rows : List WStr} (hwhole : ∀ r ∈ rows, Lines.Whole 13 10 r) :
    declared (rows.flatMap (· ++ [10])) = (Topology.readLines 0 (rows ++ [[]])).getD [] := by
  unfold declared
  rw [Lines.lines_terminated (by decide) hwhole]

/-- A hub with an endpoint, one below it, and their edge both ways: the second is refused. -/
def edgeRows : List WStr := [L "hub A = tcp://[::1]:7788", L "hub A.B", L "link A -> A.B", L "link A.B -> A"]

theorem edgeRows_read : Topology.readLines 0 (edgeRows ++ [[]]) =
    some [(1, .hub (L "A") (L "tcp://[::1]:7788")), (2, .hub (L "A.B") []), (3, .link ⟨L "A", L "A.B", []⟩),
      (4, .link ⟨L "A.B", L "A", []⟩)] := by decide

theorem arm_means_edges :
    Means inetSome (fun _ => plainLink) (declared (edgeRows.flatMap (· ++ [10])))
      (.pair ⟨L "A", by decide⟩ ⟨L "A.B", by decide⟩)
      (arm inetSome (fun _ => plainLink)
        ⟨[L "A", L "A.B"], [L "A"], [⟨L "A", L "A.B", []⟩, ⟨L "A.B", L "A", []⟩], L "A = tcp://[::1]:7788\n", [1]⟩
        (.pair ⟨L "A", by decide⟩ ⟨L "A.B", by decide⟩)) := by
  have hwhole : ∀ r ∈ edgeRows, Lines.Whole 13 10 r := by decide
  refine arm_means inetSome_literal _ (parse_rows hwhole edgeRows_read (by decide) empty) ?_ ?_ fun _ => rfl
  · rw [declared_rows hwhole, edgeRows_read]
    intro d hd
    obtain rfl := List.mem_singleton.mp hd
    exact ⟨by decide, by decide⟩
  · intro a ha
    rcases List.mem_cons.mp ha with rfl | ha
    · exact ⟨_, rfl, rfl, fun q => Std.ExtTreeMap.getElem?_empty, rfl⟩
    · obtain rfl := List.mem_singleton.mp ha
      exact ⟨_, rfl, rfl, fun q => Std.ExtTreeMap.getElem?_empty, rfl⟩

theorem linked_back : ∃ t, parse (some (edgeRows.flatMap (· ++ [10]))) empty = (S_OK, t, 0) ∧
    (arm inetSome (fun _ => plainLink) t (.pair ⟨L "A", by decide⟩ ⟨L "A.B", by decide⟩)).1 = P2PF_E_CON_DUPLICATE ∧
    ((arm inetSome (fun _ => plainLink) t (.pair ⟨L "A", by decide⟩ ⟨L "A.B", by decide⟩)).2.2.FindHubLocked
      (L "A")).bind (·.armed[L "A.B"]?) = some ⟨L "tcp6://:7788", true⟩ :=
  ⟨⟨[L "A", L "A.B"], [L "A"], [⟨L "A", L "A.B", []⟩, ⟨L "A.B", L "A", []⟩], L "A = tcp://[::1]:7788\n", [1]⟩,
    parse_rows (by decide) edgeRows_read (by decide) empty, by decide +kernel, by decide +kernel⟩

end TargetFacade
