/-
  TargetFacade.Hub.SizedReads — strings read by two calls, one for the size and one for the text
  (TargetFacadeFn.hpp: Hub::cons, endpointFor, describe; ComHub.cpp: ReadOne, BstrFromRead;
  ComNetwork.cpp: EndpointFor).

  The hub changes between the two as it likes (`Course`). A text that has grown is refused, but
  one that is shorter by then is written into the room of the longer, and the reader keeps the
  first length: what it hands out has the terminator in it, and behind that whatever the memory
  held. `sizedRead_iff` and `bstrTries_iff` say so of a getter that answers by CopyOut
  (`Answers`), with any memory and any wcscpy_s.
-/

import TargetFacade.Hub.ConRows
import TargetFacade.Lib.Cells
import TargetFacade.Lib.Course
import TargetFacade.Network.Deployment

namespace TargetFacade.SizedReads

open OrdMap

/-! ## What is read -/

/-- A hub whose texts are C strings. -/
structure TextHub where
  hub : Hub
  address : 0 ∉ hub.csAddress
  armed : ∀ (p : WStr) (a : ArmedCon), hub.armed[p]? = some a → 0 ∉ p ∧ 0 ∉ a.strEndpoint
  peers : ∀ (p : WStr) (b : Bool), hub.peers[p]? = some b → 0 ∉ p

/-- A network whose map's are. -/
structure TextNet where
  net : Net
  endpoints : ∀ (k v : WStr), net.mapEndpoints[k]? = some v → 0 ∉ v

/-- A getter with its buffer and its count. -/
abbrev Getter := Option WStr → Option Nat → HRESULT × Option WStr × Option Nat

/-- What a getter answers when there is a text, and when there is none. -/
def Answers (get : Getter) : Option WStr → Prop
  | some v => 0 ∉ v ∧ ∀ buf n, get buf (some n) = CopyOut v buf (some n)
  | none => ∀ buf n, FAILED (get buf (some n)).1 = true ∧ (get buf (some n)).1 ≠ .ERROR_MORE_DATA

/-! ## The readers -/

/-- What a call leaves in a buffer of `cch` characters that it has filled, and the caller takes of it. -/
def takeFilled (rest : Option WChar → Option WChar) (mem : List (Option WChar)) (cch : Nat) (out : Option WStr) :
    List (Option WChar) := (Cells.write 0 rest mem (out.getD [])).take (cch - 1)

/-- The memory of a `std::wstring` of `cch - 1` characters, and of a BSTR of as many. -/
def wstringMem (cch : Nat) : List (Option WChar) := List.replicate cch (some 0)
def bstrMem (cch : Nat) : List (Option WChar) := List.replicate (cch - 1) none ++ [some 0]

section Readers

-- what wcscpy_s makes of the rest of the buffer: the debug library fills it
variable (rest : Option WChar → Option WChar)

/-- The two calls of Hub::endpointFor and Hub::describe; none is their `return std::wstring()`, after a call that has
    failed. -/
def sizedRead (get : Nat → Getter) : Option (List (Option WChar)) :=
  let (hr, _, cch) := get 0 none (some 0)
  let cch := cch.getD 0
  if FAILED hr then none
  else if cch < 2 then some []
  else
    let (hr, s, _) := get 1 (some []) (some cch)
    if FAILED hr then none else some (takeFilled rest (wstringMem cch) cch s)

/-- `m_pHub` is none when it is NULL, and `peer` as well. The string is none where it is the empty one of a failure, or of a
    NULL `m_pHub`. -/
def endpointFor (m_pHub : Option (Course TextHub)) (peer : Option WStr) : Option (List (Option WChar)) :=
  m_pHub.bind fun c => sizedRead rest fun k => GetEndpoint (c.seen k).hub peer

def describe (m_pHub : Option (Course TextHub)) : Option (List (Option WChar)) :=
  m_pHub.bind fun c => sizedRead rest fun k => Describe (c.seen k).hub

/-- One peer, as Hub::cons gives it. -/
structure ConCells where
  peer : List (Option WChar)
  endpoint : List (Option WChar)
  flags : UInt32
  deriving DecidableEq

/-- The two GetCons of a row; none where one has failed. The flags are the first one's. -/
def consRow (c : Course TextHub) (i : Nat) : Option ConCells :=
  let (hr, out) := GetCon (c.seen (2 * i + 1)).hub i ⟨none, some 0, none, some 0, some 0⟩
  if FAILED hr then none
  else
    let cchPeer := out.peerCch.getD 0
    let cchEp := out.endpointCch.getD 0
    let flags := out.outFlags.getD 0
    let (hr, out) := GetCon (c.seen (2 * i + 2)).hub i
      ⟨if cchPeer = 0 then none else some [], some cchPeer, if cchEp = 0 then none else some [], some cchEp, some flags⟩
    if FAILED hr then none
    else some ⟨takeFilled rest (wstringMem cchPeer) cchPeer out.peerBuf,
      takeFilled rest (wstringMem cchEp) cchEp out.endpointBuf, flags⟩

/-- The rows from the `i`-th on, `n` of them at most; a row that is not there ends the walk. -/
def consFrom (c : Course TextHub) : Nat → Nat → List ConCells
  | 0, _ => []
  | n + 1, i =>
    match consRow rest c i with
    | none => []
    | some row => row :: consFrom c n (i + 1)

def conCount (c : Course TextHub) : Nat := (GetConCount (c.seen 0).hub (some 0)).2.getD 0

def cons (m_pHub : Option (Course TextHub)) : List ConCells :=
  match m_pHub with
  | none => []
  | some c => consFrom rest c (conCount c) 0

/-- SizedRead. -/
inductive SizedRead where
  | kReadDescribe
  | kReadEndpoint
  | kReadPeerAt
  deriving DecidableEq, Repr

def ReadOne (h : Hub) (eKind : SizedRead) (wszPeer : Option WStr) (uIndex : Nat) : Getter := fun buf cch =>
  match eKind with
  | .kReadDescribe => Describe h buf cch
  | .kReadEndpoint => GetEndpoint h wszPeer buf cch
  | .kReadPeerAt =>
    let (hr, out) := GetCon h uIndex ⟨buf, cch, none, none, none⟩
    (hr, out.peerBuf, out.peerCch)

/-- E_UNEXPECTED is answered here only. -/
inductive ReadHr where
  | hr (hr : HRESULT)
  | E_UNEXPECTED
  deriving DecidableEq, Repr

/-- The answer and `*pVal`; `nCalls` is how many calls have been made, and the code keeps no count of them. -/
structure BstrRead where
  hr : ReadHr
  pVal : Option (List (Option WChar))
  nCalls : Nat

/-- `n` tries, from the `i`-th on. `alloc i` is whether the `i`-th has memory for its BSTR. -/
def bstrTries (alloc : Nat → Bool) (get : Nat → Getter) : Nat → Nat → BstrRead
  | 0, i => ⟨.hr .ERROR_MORE_DATA, none, 2 * i⟩
  | n + 1, i =>
    let (hr, _, cch) := get (2 * i) none (some 0)
    let cch := cch.getD 0
    if FAILED hr then ⟨.hr hr, none, 2 * i + 1⟩
    else if cch = 0 then ⟨.E_UNEXPECTED, none, 2 * i + 1⟩
    else if !alloc i then ⟨.hr .E_OUTOFMEMORY, none, 2 * i + 1⟩
    else
      let (hr, bs, _) := get (2 * i + 1) (some []) (some cch)
      if !FAILED hr then ⟨.hr S_OK, some (takeFilled rest (bstrMem cch) cch bs), 2 * i + 2⟩
      else if hr ≠ .ERROR_MORE_DATA then ⟨.hr hr, none, 2 * i + 2⟩
      else bstrTries alloc get n (i + 1)

/-- kTries is 4. -/
def bstrFromRead (alloc : Nat → Bool) (c : Course TextHub) (eKind : SizedRead) (wszPeer : Option WStr) (uIndex : Nat) : BstrRead :=
  bstrTries rest alloc (fun k => ReadOne (c.seen k).hub eKind wszPeer uIndex) 4 0

/-- CP2PNetworkCom::EndpointFor. `m_pNet` is none when it is NULL, and `bOut` whether `pVal` is not. -/
def networkEndpointFor (alloc : Bool) (m_pNet : Option (Course TextNet)) (bOut : Bool) (address : WStr) :
    HRESULT × Option (List (Option WChar)) :=
  if !bOut then (E_POINTER, none)
  else
    match m_pNet with
    | none => (P2PF_E_CLOSED, none)
    | some c =>
      let (hr, _, cch) := (c.seen 0).net.GetEndpointFor (some address) none (some 0)
      let cch := cch.getD 0
      -- no entry is an empty string
      if hr = P2PF_E_UNRESOLVED then (if alloc then (S_OK, some []) else (.E_OUTOFMEMORY, none))
      else if FAILED hr then (hr, none)
      else if !alloc then (.E_OUTOFMEMORY, none)
      else
        let cch' := if 0 < cch then cch - 1 else 0
        let (hr, bs, _) := (c.seen 1).net.GetEndpointFor (some address) (some []) (some cch)
        if FAILED hr then (hr, none) else (S_OK, some (takeFilled rest (bstrMem (cch' + 1)) (cch' + 1) bs))

end Readers

/-! ## The texts they read -/

def endpointText (peer : Option WStr) (h : TextHub) : Option WStr :=
  peer.bind fun p =>
    match h.hub.armed[p]? with
    | some a => some a.strEndpoint
    | none => (h.hub.peers[p]?).map fun _ => []

def hubText (h : TextHub) : WStr := L "address=" ++ h.hub.csAddress ++ [10] ++ (SnapshotCons h.hub).flatMap conLine

def rowText (text : ConRow → WStr) (i : Nat) (h : TextHub) : Option WStr := ((SnapshotCons h.hub)[i]?).map text

def oneText (eKind : SizedRead) (wszPeer : Option WStr) (uIndex : Nat) (h : TextHub) : Option WStr :=
  match eKind with
  | .kReadDescribe => some (hubText h)
  | .kReadEndpoint => endpointText wszPeer h
  | .kReadPeerAt => rowText (·.strPeer) uIndex h

def entryText (address : WStr) (n : TextNet) : Option WStr := if address.isEmpty then none else n.net.mapEndpoints[address]?

/-- To a script, no entry is an empty text. -/
def scriptText (address : WStr) (n : TextNet) : Option WStr :=
  if address.isEmpty then none else some ((n.net.mapEndpoints[address]?).getD [])

variable {σ : Type}

/-- What was handed out is a text that was there at some moment up to the last call. -/
def Real (c : Course σ) (text : σ → Option WStr) (last : Nat) (s : List (Option WChar)) : Prop :=
  c.Once 0 last fun x => ∃ w, text x = some w ∧ s = Cells.ofText w

/-- The text that a call fills in is shorter than the one that the call before it has measured. -/
def Shrinks (c : Course σ) (text : σ → Option WStr) (k : Nat) : Prop :=
  ∃ v w, text (c.seen k) = some v ∧ text (c.seen (k + 1)) = some w ∧ w.length < v.length

def Grows (c : Course σ) (text : σ → Option WStr) (k : Nat) : Prop :=
  ∃ v w, text (c.seen k) = some v ∧ text (c.seen (k + 1)) = some w ∧ v.length < w.length

/-- A try of BstrFromRead that another follows. -/
def TriesAgain (alloc : Nat → Bool) (c : Course σ) (text : σ → Option WStr) (i : Nat) : Prop :=
  alloc i = true ∧ Grows c text (2 * i)

/-- A row that both calls of Hub::cons find in the room of the first. -/
def RowFits (c : Course TextHub) (i : Nat) : Prop :=
  ∃ r r', (SnapshotCons (c.seen (2 * i + 1)).hub)[i]? = some r ∧ (SnapshotCons (c.seen (2 * i + 2)).hub)[i]? = some r' ∧
    r'.strPeer.length ≤ r.strPeer.length ∧ r'.strEndpoint.length ≤ r.strEndpoint.length

structure RowReal (c : Course TextHub) (i : Nat) (row : ConCells) : Prop where
  peer : Real c (rowText (·.strPeer) i) (2 * i + 2) row.peer
  endpoint : Real c (rowText (·.strEndpoint) i) (2 * i + 2) row.endpoint

/-! ## One read of two calls -/

theorem answers_size {get : Getter} {v : WStr} (h : Answers get (some v)) : get none (some 0) = (S_OK, none, some (v.length + 1)) :=
  h.2 none 0

theorem copyOut_room (v : WStr) (n : Nat) : CopyOut v (some []) (some (n + 1)) =
    if n < v.length then (.ERROR_MORE_DATA, some [], some (v.length + 1)) else (S_OK, some v, some (v.length + 1)) := by
  unfold CopyOut
  by_cases hlt : n < v.length
  · simp only [if_pos (Nat.succ_lt_succ hlt), if_pos hlt]
  · simp only [if_neg (mt Nat.lt_of_succ_lt_succ hlt), if_neg hlt]

theorem answers_fill {get : Getter} {v : WStr} (h : Answers get (some v)) (n : Nat) :
    get (some []) (some (n + 1)) =
      if n < v.length then (.ERROR_MORE_DATA, some [], some (v.length + 1)) else (S_OK, some v, some (v.length + 1)) := by
  rw [h.2, copyOut_room]

/-- The two calls, by the texts they find. -/
theorem sizedRead_eq (rest : Option WChar → Option WChar) {get : Nat → Getter} {v w : Option WStr} (hv : Answers (get 0) v)
    (hw : Answers (get 1) w) : sizedRead rest get = v.bind fun v =>
      if v = [] then some []
      else w.bind fun w =>
        if v.length < w.length then none else some (takeFilled rest (wstringMem (v.length + 1)) (v.length + 1) (some w)) := by
  unfold sizedRead
  cases v with
  | none => simp only [(hv none 0).1, if_true, Option.bind_none]
  | some v =>
    simp only [answers_size hv, failed_S_OK, Bool.false_eq_true, if_false, Option.getD_some, Option.bind_some]
    by_cases hempty : v = []
    · subst hempty
      rfl
    have hlong : ¬ v.length + 1 < 2 := by
      have := List.length_pos_iff.mpr hempty
      omega
    simp only [if_neg hlong, if_neg hempty]
    cases w with
    | none => simp only [(hw _ _).1, if_true, Option.bind_none]
    | some w =>
      simp only [answers_fill hw, Option.bind_some]
      by_cases hlt : v.length < w.length
      · simp only [if_pos hlt]
        rfl
      · simp only [if_neg hlt, failed_S_OK, Bool.false_eq_true, if_false]

section Course

variable {c : Course σ} {text : σ → Option WStr}

theorem shrinks_iff {k : Nat} {v w : WStr} (hv : text (c.seen k) = some v) (hw : text (c.seen (k + 1)) = some w) :
    Shrinks c text k ↔ w.length < v.length := by
  simp [Shrinks, hv, hw]

theorem not_shrinks_unread {k : Nat} (h : text (c.seen k) = none ∨ text (c.seen (k + 1)) = none) : ¬ Shrinks c text k := by
  rintro ⟨v, w, hv, hw, -⟩
  rcases h with h | h
  · rw [h] at hv
    cases hv
  · rw [h] at hw
    cases hw

/-- What is filled in is there at some moment exactly when it is as long as the room. -/
theorem filled_real_iff {rest : Option WChar → Option WChar} {mem : List (Option WChar)} {k last : Nat} {v w : WStr}
    (hended : ∀ x w, text x = some w → 0 ∉ w) (hw : text (c.seen k) = some w) (hlast : k ≤ last) (hle : w.length ≤ v.length) :
    Real c text last (takeFilled rest mem (v.length + 1) (some w)) ↔ ¬ w.length < v.length := by
  have htake : takeFilled rest mem (v.length + 1) (some w) = (Cells.write 0 rest mem w).take v.length := rfl
  rw [htake]
  constructor
  · rintro ⟨t, -, -, u, hu, hs⟩ hlt
    have := (Cells.take_write_iff (hended _ u hu) hle).mp hs
    omega
  · intro hge
    have hlen : w.length = v.length := by omega
    refine Course.once_seen (Nat.zero_le k) hlast ⟨w, hw, ?_⟩
    rw [← hlen]
    exact Cells.take_write 0 rest mem w

theorem answers_ended {get : σ → Getter} (hget : ∀ x, Answers (get x) (text x)) : ∀ x w, text x = some w → 0 ∉ w := by
  intro x w hw
  have h := hget x
  rw [hw] at h
  exact h.1

/-- Hub::endpointFor and Hub::describe. -/
theorem sizedRead_iff (rest : Option WChar → Option WChar) {get : σ → Getter} (hget : ∀ x, Answers (get x) (text x)) :
    (∀ s, sizedRead rest (fun k => get (c.seen k)) = some s → Real c text 1 s) ↔ ¬ Shrinks c text 0 := by
  rw [@sizedRead_eq rest (fun k => get (c.seen k)) _ _ (hget (c.seen 0)) (hget (c.seen 1))]
  cases hv : text (c.seen 0) with
  | none => exact iff_of_true (by simp) (not_shrinks_unread (.inl hv))
  | some v =>
    simp only [Option.bind_some]
    by_cases hempty : v = []
    · -- the empty text was there at the first call, and nothing is filled in
      subst hempty
      rw [if_pos rfl]
      refine iff_of_true (fun s hs => ?_) ?_
      · cases hs
        exact Course.once_seen (Nat.le_refl 0) (Nat.zero_le 1) ⟨[], hv, rfl⟩
      · rintro ⟨v, w, hv', -, hlt⟩
        rw [hv] at hv'
        cases hv'
        simp at hlt
    rw [if_neg hempty]
    cases hw : text (c.seen 1) with
    | none => exact iff_of_true (by simp) (not_shrinks_unread (.inr hw))
    | some w =>
      rw [shrinks_iff hv hw]
      simp only [Option.bind_some]
      by_cases hlt : v.length < w.length
      · rw [if_pos hlt]
        exact iff_of_true (by simp) (by omega)
      · have hle : w.length ≤ v.length := by omega
        rw [if_neg hlt, ← @filled_real_iff σ c text rest (wstringMem (v.length + 1)) 1 1 v w (answers_ended hget) hw
          (Nat.le_refl 1) hle]
        simp

/-- One try of BstrFromRead, by the texts its calls find: what it hands out, or that another try follows. -/
theorem bstrTries_eq (rest : Option WChar → Option WChar) (alloc : Nat → Bool) {get : Nat → Getter} {v w : Option WStr} {i : Nat}
    (hv : Answers (get (2 * i)) v) (hw : Answers (get (2 * i + 1)) w) (n : Nat) :
    ((bstrTries rest alloc get (n + 1) i).pVal = none ∧ (v = none ∨ w = none ∨ alloc i = false)) ∨
    (∃ v' w', v = some v' ∧ w = some w' ∧ alloc i = true ∧ w'.length ≤ v'.length ∧
      bstrTries rest alloc get (n + 1) i =
        ⟨.hr S_OK, some (takeFilled rest (bstrMem (v'.length + 1)) (v'.length + 1) (some w')), 2 * i + 2⟩) ∨
    (∃ v' w', v = some v' ∧ w = some w' ∧ alloc i = true ∧ v'.length < w'.length ∧
      bstrTries rest alloc get (n + 1) i = bstrTries rest alloc get n (i + 1)) := by
  rw [bstrTries]
  cases v with
  | none =>
    exact .inl ⟨by simp only [(hv none 0).1, if_true], .inl rfl⟩
  | some v =>
    have hone : ¬ v.length + 1 = 0 := by omega
    simp only [answers_size hv, failed_S_OK, Bool.false_eq_true, if_false, Option.getD_some, if_neg hone]
    cases ha : alloc i with
    | false => exact .inl ⟨rfl, .inr (.inr rfl)⟩
    | true =>
      simp only [Bool.not_true, Bool.false_eq_true, if_false]
      cases w with
      | none =>
        have hfail := hw (some []) (v.length + 1)
        refine .inl ⟨?_, .inr (.inl rfl)⟩
        simp only [hfail.1, Bool.not_true, Bool.false_eq_true, if_false, ne_eq, hfail.2, not_false_eq_true, if_true]
      | some w =>
        simp only [answers_fill hw]
        by_cases hlt : v.length < w.length
        · simp only [if_pos hlt]
          exact .inr (.inr ⟨v, w, rfl, rfl, trivial, hlt, rfl⟩)
        · simp only [if_neg hlt]
          exact .inr (.inl ⟨v, w, rfl, rfl, trivial, by omega, rfl⟩)

theorem bstrTries_iff (rest : Option WChar → Option WChar) (alloc : Nat → Bool) {get : σ → Getter}
    (hget : ∀ x, Answers (get x) (text x)) : ∀ n i,
    (∀ s, (bstrTries rest alloc (fun k => get (c.seen k)) n i).pVal = some s →
      Real c text ((bstrTries rest alloc (fun k => get (c.seen k)) n i).nCalls - 1) s) ↔
    ∀ j < n, (∀ k < j, TriesAgain alloc c text (i + k)) → alloc (i + j) = true → ¬ Shrinks c text (2 * (i + j)) := by
  intro n
  induction n with
  | zero =>
    intro i
    exact iff_of_true (fun s hs => by cases hs) (fun j hj => absurd hj (Nat.not_lt_zero j))
  | succ n ih =>
    intro i
    -- the first try, and then the ones that follow it
    rw [@Course.reached_succ (TriesAgain alloc c text) (fun j => alloc j = true → ¬ Shrinks c text (2 * j))]
    rcases @bstrTries_eq rest alloc (fun k => get (c.seen k)) _ _ i (hget (c.seen (2 * i))) (hget (c.seen (2 * i + 1))) n with
      ⟨hnone, hno⟩ | ⟨v, w, hv, hw, ha, hle, heq⟩ | ⟨v, w, hv, hw, ha, hlt, heq⟩
    · have hshrinks (ha : alloc i = true) : ¬ Shrinks c text (2 * i) := by
        rcases hno with h | h | h
        · exact not_shrinks_unread (.inl h)
        · exact not_shrinks_unread (.inr h)
        · rw [ha] at h
          cases h
      have hagain : ¬ TriesAgain alloc c text i := by
        rintro ⟨ha, v, w, hv, hw, -⟩
        rcases hno with h | h | h
        · rw [h] at hv
          cases hv
        · rw [h] at hw
          cases hw
        · rw [ha] at h
          cases h
      exact iff_of_true (fun s hs => by rw [hnone] at hs; cases hs) ⟨hshrinks, fun h => absurd h hagain⟩
    · have hagain : ¬ TriesAgain alloc c text i := by
        rintro ⟨-, v', w', hv', hw', hlt⟩
        rw [hv] at hv'
        rw [hw] at hw'
        cases hv'
        cases hw'
        omega
      rw [heq, shrinks_iff hv hw, ← @filled_real_iff σ c text rest (bstrMem (v.length + 1)) (2 * i + 1) (2 * i + 1) v w
        (answers_ended hget) hw (Nat.le_refl _) hle]
      simp [ha, hagain]
    · have hagain : TriesAgain alloc c text i := ⟨ha, v, w, hv, hw, hlt⟩
      rw [heq, ih (i + 1), shrinks_iff hv hw]
      have hnot : ¬ w.length < v.length := by omega
      simp [hagain, hnot]

end Course

end TargetFacade.SizedReads
