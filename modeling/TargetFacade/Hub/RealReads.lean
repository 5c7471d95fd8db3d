/-
  TargetFacade.Hub.RealReads — what the readers of two calls hand out, over every course of the
  hub and of the network between their calls.

  A text is real when it was there at some moment of the call. `sized_reads_iff` says for each
  reader when all that it hands out is: the text it fills in is not shorter than the one it has
  measured, for BstrFromRead at the first try whose text has not grown, and for Hub::cons in
  each row that it hands out. A text that is shorter leaves its terminator in what is handed out
  (`endpoint_shortened`). The tries of BstrFromRead are its program in Com.HubCalls, call for
  call (`bstrTries_calls`).
-/

import TargetFacade.Com.HubCalls
import TargetFacade.Hub.SizedReads

namespace TargetFacade.SizedReads

open OrdMap SharedPtr

/-! ## The texts have no NUL -/

theorem row_ended (h : TextHub) {r : ConRow} (hr : r ∈ SnapshotCons h.hub) : 0 ∉ r.strPeer ∧ 0 ∉ r.strEndpoint := by
  have hrows := rows_merged h.hub
  constructor
  · have hlisted : h.hub.Listed r.strPeer := ⟨r, hr, rfl⟩
    rcases (listed_iff h.hub r.strPeer).mp hlisted with harmed | hrow
    · obtain ⟨a, ha⟩ := Option.isSome_iff_exists.mp harmed
      exact (h.armed _ a ha).1
    · obtain ⟨b, hb⟩ := Option.isSome_iff_exists.mp hrow
      exact h.peers _ b hb
  · cases ha : h.hub.armed[r.strPeer]? with
    | none =>
      rw [(hrows.unarmed r hr ha).1]
      exact List.not_mem_nil
    | some a =>
      rw [(hrows.armed r hr a ha).1]
      exact (h.armed _ a ha).2

theorem flags_ended (uFlags : UInt32) : 0 ∉ AppendFlagText uFlags := by
  unfold AppendFlagText
  simp only [List.mem_append, not_or]
  refine ⟨⟨⟨?_, ?_⟩, ?_⟩, ?_⟩
  all_goals
    repeat' split
  all_goals decide

theorem hubText_ended (h : TextHub) : 0 ∉ hubText h := by
  have hlines : 0 ∉ (SnapshotCons h.hub).flatMap conLine := by
    intro hm
    obtain ⟨r, hr, hm⟩ := List.mem_flatMap.mp hm
    have hended := row_ended h hr
    have hcon : (0 : WChar) ∉ L "con=" := by decide
    have hflags := flags_ended r.uFlags
    unfold conLine at hm
    simp [hended.1, hended.2, hcon, hflags] at hm
  have hword : (0 : WChar) ∉ L "address=" := by decide
  unfold hubText
  simp [h.address, hword, hlines]

theorem describe_answers (h : TextHub) : Answers (Describe h.hub) (some (hubText h)) := by
  refine ⟨hubText_ended h, fun buf n => ?_⟩
  rfl

theorem getEndpoint_answers (peer : Option WStr) (h : TextHub) : Answers (GetEndpoint h.hub peer) (endpointText peer h) := by
  unfold endpointText GetEndpoint
  cases peer with
  | none => exact fun buf n => ⟨rfl, HRESULT.noConfusion⟩
  | some p =>
    simp only [Option.bind_some]
    cases ha : h.hub.armed[p]? with
    | some a => exact ⟨(h.armed p a ha).2, fun buf n => rfl⟩
    | none =>
      cases hb : h.hub.peers[p]? with
      | some b => exact ⟨List.not_mem_nil, fun buf n => rfl⟩
      | none => exact fun buf n => ⟨rfl, HRESULT.noConfusion⟩

theorem copyOut_failed_iff (v : WStr) (buf : Option WStr) (n : Nat) :
    (if FAILED (CopyOut v buf (some n)).1 then (CopyOut v buf (some n)).1 else S_OK) = (CopyOut v buf (some n)).1 := by
  unfold CopyOut
  cases buf with
  | none => rfl
  | some t =>
    simp only
    split
    · rfl
    · rfl

theorem peerAt_answers (uIndex : Nat) (h : TextHub) :
    Answers (ReadOne h.hub .kReadPeerAt none uIndex) (rowText (·.strPeer) uIndex h) := by
  unfold rowText
  cases hr : (SnapshotCons h.hub)[uIndex]? with
  | none =>
    intro buf n
    simp only [ReadOne, GetCon, hr]
    exact ⟨rfl, HRESULT.noConfusion⟩
  | some r =>
    refine ⟨(row_ended h (List.mem_of_getElem? hr)).1, fun buf n => ?_⟩
    simp only [ReadOne, GetCon, hr, copyField, Option.isSome_some, Option.isSome_none, if_true, Bool.false_eq_true, if_false,
      copyOut_failed_iff]

theorem readOne_answers (eKind : SizedRead) (wszPeer : Option WStr) (uIndex : Nat) (h : TextHub) :
    Answers (ReadOne h.hub eKind wszPeer uIndex) (oneText eKind wszPeer uIndex h) := by
  cases eKind with
  | kReadDescribe => exact describe_answers h
  | kReadEndpoint => exact getEndpoint_answers wszPeer h
  | kReadPeerAt => exact peerAt_answers uIndex h

theorem getEndpointFor_answers (address : WStr) (n : TextNet) :
    Answers (n.net.GetEndpointFor (some address)) (entryText address n) := by
  unfold entryText
  cases he : address.isEmpty with
  | true =>
    intro buf k
    simp [Net.GetEndpointFor, he, FAILED]
  | false =>
    simp only [Bool.false_eq_true, if_false]
    cases hv : n.net.mapEndpoints[address]? with
    | none =>
      intro buf k
      simp [Net.GetEndpointFor, he, hv, FAILED]
    | some v =>
      refine ⟨n.endpoints address v hv, fun buf k => ?_⟩
      simp only [Net.GetEndpointFor, he, hv, Bool.false_eq_true, if_false]

/-! ## The calls of BstrFromRead -/

/-- What the hub answers the `k`-th of them. -/
def readAnswer (alloc : Nat → Bool) (get : Nat → Getter) (k : Nat) (_ : FlatCall) : FlatAnswer :=
  if k % 2 = 0 then
    let (hr, _, cch) := get k none (some 0)
    { (default : FlatAnswer) with hr := hr, n := cch.getD 0, bRoom := alloc (k / 2) }
  else
    let (_, _, cch) := get (k - 1) none (some 0)
    { (default : FlatAnswer) with hr := (get k (some []) (some (cch.getD 0))).1 }

/-- They are the calls of its program, whatever they answer. -/
theorem bstrTries_calls (rest : Option WChar → Option WChar) (alloc : Nat → Bool) (get : Nat → Getter) (call : FlatCall) :
    ∀ n i : Nat, (BstrFromRead call n).callsFrom (readAnswer alloc get) (2 * i) = (bstrTries rest alloc get n i).nCalls := by
  intro n
  induction n with
  | zero => exact fun i => rfl
  | succ n ih =>
    intro i
    have hsize : readAnswer alloc get (2 * i) call = { (default : FlatAnswer) with
        hr := (get (2 * i) none (some 0)).1, n := (get (2 * i) none (some 0)).2.2.getD 0, bRoom := alloc i } := by
      have heven : 2 * i % 2 = 0 := by omega
      have htry : 2 * i / 2 = i := by omega
      simp only [readAnswer, if_pos heven, htry]
    have hfill : (readAnswer alloc get (2 * i + 1) call).hr =
        (get (2 * i + 1) (some []) (some ((get (2 * i) none (some 0)).2.2.getD 0))).1 := by
      have hodd : ¬ (2 * i + 1) % 2 = 0 := by omega
      simp only [readAnswer, if_neg hodd, Nat.add_sub_cancel]
    rw [BstrFromRead, Prog.callsFrom, bstrTries, hsize]
    by_cases hf : FAILED (get (2 * i) none (some 0)).1 = true
    · simp [hf, Prog.callsFrom]
    by_cases hz : (get (2 * i) none (some 0)).2.2.getD 0 = 0
    · simp [hf, hz, Prog.callsFrom]
    cases ha : alloc i with
    | false => simp [hf, hz, Prog.callsFrom]
    | true =>
      have hcount : ((get (2 * i) none (some 0)).2.2.getD 0 == 0) = false := by simp [hz]
      simp only [hf, hz, hcount, Bool.not_true, Bool.or_self, Bool.false_eq_true, if_false, Prog.callsFrom, hfill]
      generalize get (2 * i + 1) (some []) (some ((get (2 * i) none (some 0)).2.2.getD 0)) = out
      by_cases hmore : out.1 = .ERROR_MORE_DATA
      · have hfailed : FAILED .ERROR_MORE_DATA = true := rfl
        simp only [hmore, hfailed, if_true, Bool.not_true, Bool.false_eq_true, if_false, ne_eq, not_true]
        exact ih (i + 1)
      · simp only [hmore, if_false, Prog.callsFrom, ne_eq, not_false_eq_true, if_true]
        cases FAILED out.1 with
        | false => rfl
        | true => rfl

/-! ## The rows -/

section Rows

variable {c : Course TextHub}

theorem getCon_size {h : Hub} {i : Nat} {r : ConRow} (hr : (SnapshotCons h)[i]? = some r) :
    GetCon h i ⟨none, some 0, none, some 0, some 0⟩ =
      (S_OK, ⟨none, some (r.strPeer.length + 1), none, some (r.strEndpoint.length + 1), some r.uFlags⟩) := by
  unfold GetCon
  rw [hr]
  rfl

theorem getCon_fill {h : Hub} {i : Nat} {r : ConRow} (hr : (SnapshotCons h)[i]? = some r) (n m : Nat) (flags : UInt32) :
    let out := GetCon h i ⟨some [], some (n + 1), some [], some (m + 1), some flags⟩
    if r.strPeer.length ≤ n ∧ r.strEndpoint.length ≤ m then
      out.1 = S_OK ∧ out.2.peerBuf = some r.strPeer ∧ out.2.endpointBuf = some r.strEndpoint
    else FAILED out.1 = true := by
  simp only [GetCon, hr, copyField, Option.isSome_some, if_true, copyOut_room]
  by_cases hp : n < r.strPeer.length
  · simp [hp, Nat.not_le.mpr hp, FAILED]
  · by_cases he : m < r.strEndpoint.length
    · simp [hp, he, Nat.not_le.mpr he, FAILED]
    · simp [hp, he, Nat.not_lt.mp hp, Nat.not_lt.mp he]

/-- The two GetCons of a row, by the rows they find. -/
theorem consRow_eq (rest : Option WChar → Option WChar) (c : Course TextHub) (i : Nat) : consRow rest c i =
    ((SnapshotCons (c.seen (2 * i + 1)).hub)[i]?).bind fun r => ((SnapshotCons (c.seen (2 * i + 2)).hub)[i]?).bind fun r' =>
      if r'.strPeer.length ≤ r.strPeer.length ∧ r'.strEndpoint.length ≤ r.strEndpoint.length then
        some ⟨takeFilled rest (wstringMem (r.strPeer.length + 1)) (r.strPeer.length + 1) (some r'.strPeer),
          takeFilled rest (wstringMem (r.strEndpoint.length + 1)) (r.strEndpoint.length + 1) (some r'.strEndpoint), r.uFlags⟩
      else none := by
  unfold consRow
  cases hr : (SnapshotCons (c.seen (2 * i + 1)).hub)[i]? with
  | none =>
    simp only [GetCon, hr, Option.bind_none]
    rfl
  | some r =>
    simp only [getCon_size hr, failed_S_OK, Bool.false_eq_true, if_false, Option.getD_some, Nat.succ_ne_zero, Option.bind_some]
    cases hr' : (SnapshotCons (c.seen (2 * i + 2)).hub)[i]? with
    | none =>
      simp only [GetCon, hr', Option.bind_none]
      rfl
    | some r' =>
      have hfill := getCon_fill hr' r.strPeer.length r.strEndpoint.length r.uFlags
      simp only [Option.bind_some]
      by_cases hfit : r'.strPeer.length ≤ r.strPeer.length ∧ r'.strEndpoint.length ≤ r.strEndpoint.length
      · rw [if_pos hfit] at hfill
        rw [if_pos hfit]
        simp only [hfill.1, hfill.2.1, hfill.2.2, failed_S_OK, Bool.false_eq_true, if_false]
      · rw [if_neg hfit] at hfill
        rw [if_neg hfit, if_pos hfill]

theorem consRow_some (rest : Option WChar → Option WChar) (i : Nat) : (consRow rest c i).isSome = true ↔ RowFits c i := by
  rw [consRow_eq]
  unfold RowFits
  cases hr : (SnapshotCons (c.seen (2 * i + 1)).hub)[i]? with
  | none => simp
  | some r =>
    cases hr' : (SnapshotCons (c.seen (2 * i + 2)).hub)[i]? with
    | none => simp
    | some r' =>
      simp only [Option.bind_some, Option.some.injEq, exists_eq_left', exists_and_left]
      by_cases hfit : r'.strPeer.length ≤ r.strPeer.length ∧ r'.strEndpoint.length ≤ r.strEndpoint.length
      · simp [hfit]
      · simp [hfit]

/-- The walk hands out the rows before the first that one of its two calls did not get. -/
theorem consFrom_get (rest : Option WChar → Option WChar) : ∀ (n i d : Nat) (row : ConCells),
    (consFrom rest c n i)[d]? = some row ↔ d < n ∧ (∀ j ≤ d, RowFits c (i + j)) ∧ consRow rest c (i + d) = some row := by
  intro n
  induction n with
  | zero =>
    intro i d row
    simp [consFrom]
  | succ n ih =>
    intro i d row
    rw [consFrom]
    cases hrow : consRow rest c i with
    | none =>
      have hfit : ¬ RowFits c i := by
        rw [← consRow_some rest, hrow]
        simp
      simp only [List.getElem?_nil, reduceCtorEq, false_iff]
      rintro ⟨-, hall, -⟩
      exact hfit (hall 0 (Nat.zero_le d))
    | some row' =>
      have hfit : RowFits c i := by
        rw [← consRow_some rest, hrow]
        rfl
      cases d with
      | zero =>
        simp only [List.getElem?_cons_zero, Nat.add_zero, hrow, Option.some.injEq]
        constructor
        · intro heq
          refine ⟨Nat.succ_pos n, fun j hj => ?_, heq⟩
          obtain rfl := Nat.le_zero.mp hj
          exact hfit
        · exact fun h => h.2.2
      | succ d =>
        have hshift (j : Nat) : i + 1 + j = i + (j + 1) := by omega
        rw [List.getElem?_cons_succ, ih]
        simp only [hshift]
        constructor
        · rintro ⟨hd, hall, heq⟩
          refine ⟨Nat.succ_lt_succ hd, fun j hj => ?_, heq⟩
          cases j with
          | zero => exact hfit
          | succ j => exact hall j (Nat.le_of_succ_le_succ hj)
        · rintro ⟨hd, hall, heq⟩
          exact ⟨Nat.lt_of_succ_lt_succ hd, fun j hj => hall (j + 1) (Nat.succ_le_succ hj), heq⟩

theorem rowText_ended {text : ConRow → WStr} (htext : ∀ r : ConRow, 0 ∉ r.strPeer → 0 ∉ r.strEndpoint → 0 ∉ text r)
    (i : Nat) : ∀ (h : TextHub) w, rowText text i h = some w → 0 ∉ w := by
  intro h w hw
  unfold rowText at hw
  cases hr : (SnapshotCons h.hub)[i]? with
  | none =>
    rw [hr] at hw
    cases hw
  | some r =>
    rw [hr] at hw
    cases hw
    have hended := row_ended h (List.mem_of_getElem? hr)
    exact htext r hended.1 hended.2

theorem rowReal_iff {rest : Option WChar → Option WChar} {i : Nat} {row : ConCells} (h : consRow rest c i = some row) :
    RowReal c i row ↔
      ¬ Shrinks c (rowText (·.strPeer) i) (2 * i + 1) ∧ ¬ Shrinks c (rowText (·.strEndpoint) i) (2 * i + 1) := by
  rw [consRow_eq] at h
  cases hr : (SnapshotCons (c.seen (2 * i + 1)).hub)[i]? with
  | none =>
    rw [hr] at h
    cases h
  | some r =>
    cases hr' : (SnapshotCons (c.seen (2 * i + 2)).hub)[i]? with
    | none =>
      rw [hr, hr'] at h
      cases h
    | some r' =>
      rw [hr, hr'] at h
      simp only [Option.bind_some] at h
      split at h
      · rename_i hfit
        cases h
        have hv (text : ConRow → WStr) : rowText text i (c.seen (2 * i + 1)) = some (text r) := by simp [rowText, hr]
        have hw (text : ConRow → WStr) : rowText text i (c.seen (2 * i + 2)) = some (text r') := by simp [rowText, hr']
        rw [shrinks_iff (hv _) (hw _), shrinks_iff (hv _) (hw _),
          ← @filled_real_iff _ c _ rest (wstringMem (r.strPeer.length + 1)) (2 * i + 2) (2 * i + 2) _ _
            (rowText_ended (fun _ hp _ => hp) i) (hw (·.strPeer)) (Nat.le_refl _) hfit.1,
          ← @filled_real_iff _ c _ rest (wstringMem (r.strEndpoint.length + 1)) (2 * i + 2) (2 * i + 2) _ _
            (rowText_ended (fun _ _ he => he) i) (hw (·.strEndpoint)) (Nat.le_refl _) hfit.2]
        exact ⟨fun h => ⟨h.peer, h.endpoint⟩, fun h => ⟨h.1, h.2⟩⟩
      · cases h

theorem cons_iff (rest : Option WChar → Option WChar) (c : Course TextHub) :
    (∀ i row, (cons rest (some c))[i]? = some row → RowReal c i row) ↔
    ∀ i < conCount c, (∀ j ≤ i, RowFits c j) →
      ¬ Shrinks c (rowText (·.strPeer) i) (2 * i + 1) ∧ ¬ Shrinks c (rowText (·.strEndpoint) i) (2 * i + 1) := by
  have hget (i : Nat) (row : ConCells) : (cons rest (some c))[i]? = some row ↔
      i < conCount c ∧ (∀ j ≤ i, RowFits c j) ∧ consRow rest c i = some row := by
    have h := @consFrom_get c rest (conCount c) 0 i row
    simp only [Nat.zero_add] at h
    exact h
  constructor
  · intro hall i hi hfits
    obtain ⟨row, hrow⟩ := Option.isSome_iff_exists.mp ((consRow_some rest i).mpr (hfits i (Nat.le_refl i)))
    exact (rowReal_iff hrow).mp (hall i row ((hget i row).mpr ⟨hi, hfits, hrow⟩))
  · intro hall i row hrow
    obtain ⟨hi, hfits, hone⟩ := (hget i row).mp hrow
    exact (rowReal_iff hone).mpr (hall i hi hfits)

end Rows

/-! ## The network's -/

/-- An address that has no entry is answered by the first call. -/
theorem networkEndpointFor_none (rest : Option WChar → Option WChar) (alloc : Bool) {n : Course TextNet} {address : WStr}
    (h : entryText address (n.seen 0) = none) {s : List (Option WChar)}
    (hs : (networkEndpointFor rest alloc (some n) true address).2 = some s) : Real n (scriptText address) 1 s := by
  unfold entryText at h
  cases he : address.isEmpty with
  | true => simp [networkEndpointFor, Net.GetEndpointFor, he, FAILED] at hs
  | false =>
    simp only [he, Bool.false_eq_true, if_false] at h
    simp only [networkEndpointFor, Net.GetEndpointFor, he, h, Bool.not_true, Bool.false_eq_true, if_false, if_true] at hs
    cases alloc with
    | false => cases hs
    | true =>
      cases hs
      refine Course.once_seen (Nat.le_refl 0) (Nat.zero_le 1) ⟨[], ?_, rfl⟩
      simp [scriptText, he, h]

/-- One that has, by both. -/
theorem networkEndpointFor_some (rest : Option WChar → Option WChar) (alloc : Bool) {n : Course TextNet} {address v : WStr}
    (h : entryText address (n.seen 0) = some v) : (networkEndpointFor rest alloc (some n) true address).2 =
      if alloc then (entryText address (n.seen 1)).bind fun w =>
        if v.length < w.length then none else some (takeFilled rest (bstrMem (v.length + 1)) (v.length + 1) (some w))
      else none := by
  have hsize := getEndpointFor_answers address (n.seen 0)
  have hfill := getEndpointFor_answers address (n.seen 1)
  rw [h] at hsize
  have hok : S_OK ≠ P2PF_E_UNRESOLVED := HRESULT.noConfusion
  simp only [networkEndpointFor, answers_size hsize, Bool.not_true, Bool.false_eq_true, if_false, failed_S_OK, Option.getD_some,
    Nat.succ_pos, if_true, Nat.add_sub_cancel, reduceCtorEq]
  cases alloc with
  | false => rfl
  | true =>
    simp only [Bool.not_true, Bool.false_eq_true, if_false, if_true]
    cases hw : entryText address (n.seen 1) with
    | none =>
      rw [hw] at hfill
      simp only [(hfill _ _).1, if_true, Option.bind_none]
    | some w =>
      rw [hw] at hfill
      simp only [answers_fill hfill, Option.bind_some]
      by_cases hlt : v.length < w.length
      · simp only [if_pos hlt]
        rfl
      · simp only [if_neg hlt, failed_S_OK, Bool.false_eq_true, if_false]

theorem scriptText_ended (address : WStr) (n : TextNet) (w : WStr) (h : scriptText address n = some w) : 0 ∉ w := by
  unfold scriptText at h
  split at h
  · cases h
  · cases hv : n.net.mapEndpoints[address]? with
    | none =>
      rw [hv] at h
      cases h
      exact List.not_mem_nil
    | some v =>
      rw [hv] at h
      cases h
      exact n.endpoints address v hv

theorem scriptText_entry {address w : WStr} {n : TextNet} (h : entryText address n = some w) : scriptText address n = some w := by
  unfold entryText at h
  unfold scriptText
  split at h
  · cases h
  · rename_i he
    rw [if_neg he, h]
    rfl

theorem networkEndpointFor_iff (rest : Option WChar → Option WChar) (alloc bOut : Bool) (n : Course TextNet) (address : WStr) :
    (∀ s, (networkEndpointFor rest alloc (some n) bOut address).2 = some s → Real n (scriptText address) 1 s) ↔
    (bOut = true → alloc = true → ¬ Shrinks n (entryText address) 0) := by
  cases bOut with
  | false => exact iff_of_true (fun s hs => by cases hs) (fun h => by cases h)
  | true =>
    cases hv : entryText address (n.seen 0) with
    | none =>
      exact iff_of_true (fun s hs => networkEndpointFor_none rest alloc hv hs) (fun _ _ => not_shrinks_unread (.inl hv))
    | some v =>
      rw [networkEndpointFor_some rest alloc hv]
      cases alloc with
      | false => simp
      | true =>
        simp only [if_true, forall_const]
        cases hw : entryText address (n.seen 1) with
        | none => exact iff_of_true (by simp) (not_shrinks_unread (.inr hw))
        | some w =>
          rw [shrinks_iff hv hw]
          simp only [Option.bind_some]
          by_cases hlt : v.length < w.length
          · rw [if_pos hlt]
            exact iff_of_true (by simp) (by omega)
          · have hle : w.length ≤ v.length := by omega
            rw [if_neg hlt, ← @filled_real_iff _ n (scriptText address) rest (bstrMem (v.length + 1)) 1 1 v w
              (scriptText_ended address) (scriptText_entry hw) (Nat.le_refl 1) hle]
            simp

/-! ## All of them -/

/-- What is handed out is real, each reader on its own condition. -/
structure ReadsReal (rest : Option WChar → Option WChar) (c : Course TextHub) (n : Course TextNet) : Prop where
  endpointFor : ∀ peer, (∀ s, endpointFor rest (some c) peer = some s → Real c (endpointText peer) 1 s) ↔
    ¬ Shrinks c (endpointText peer) 0
  describe : (∀ s, describe rest (some c) = some s → Real c (some ∘ hubText) 1 s) ↔ ¬ Shrinks c (some ∘ hubText) 0
  cons : (∀ i row, (cons rest (some c))[i]? = some row → RowReal c i row) ↔
    ∀ i < conCount c, (∀ j ≤ i, RowFits c j) →
      ¬ Shrinks c (rowText (·.strPeer) i) (2 * i + 1) ∧ ¬ Shrinks c (rowText (·.strEndpoint) i) (2 * i + 1)
  bstrFromRead : ∀ alloc eKind wszPeer uIndex,
    (∀ s, (bstrFromRead rest alloc c eKind wszPeer uIndex).pVal = some s →
      Real c (oneText eKind wszPeer uIndex) ((bstrFromRead rest alloc c eKind wszPeer uIndex).nCalls - 1) s) ↔
    ∀ j < 4, (∀ k < j, TriesAgain alloc c (oneText eKind wszPeer uIndex) k) → alloc j = true →
      ¬ Shrinks c (oneText eKind wszPeer uIndex) (2 * j)
  networkEndpointFor : ∀ alloc bOut address,
    (∀ s, (networkEndpointFor rest alloc (some n) bOut address).2 = some s → Real n (scriptText address) 1 s) ↔
    (bOut = true → alloc = true → ¬ Shrinks n (entryText address) 0)

/-- A reader hands out a text that was there, and that only, exactly when none that it fills in is shorter than the
    room it has measured for it. -/
theorem sized_reads_iff (rest : Option WChar → Option WChar) (c : Course TextHub) (n : Course TextNet) : ReadsReal rest c n where
  endpointFor := fun peer => sizedRead_iff rest (getEndpoint_answers peer)
  describe := sizedRead_iff rest describe_answers
  cons := cons_iff rest c
  bstrFromRead := fun alloc eKind wszPeer uIndex => by
    have h := bstrTries_iff (c := c) rest alloc (readOne_answers eKind wszPeer uIndex) 4 0
    simp only [Nat.zero_add] at h
    exact h
  networkEndpointFor := fun alloc bOut address => networkEndpointFor_iff rest alloc bOut n address

/-- A hub that listens for "B" at an endpoint. -/
def listeningAt (strEndpoint : WStr) (h : 0 ∉ strEndpoint) : TextHub where
  hub := { Hub.created ⟨L "A", by decide⟩ false false .zero [] none none with
    armed := (∅ : Map WStr ArmedCon).insert (L "B") ⟨strEndpoint, true⟩ }
  address := by
    show (0 : WChar) ∉ L "A"
    decide
  armed := fun p a ha => by
    rcases get_of_insert ha with ⟨rfl, rfl⟩ | ⟨-, ha⟩
    · exact ⟨by decide, h⟩
    · rw [Std.ExtTreeMap.getElem?_empty] at ha
      cases ha
  peers := fun p b hb => by
    have hnone : (∅ : Map WStr Bool)[p]? = some b := hb
    rw [Std.ExtTreeMap.getElem?_empty] at hnone
    cases hnone

/-- The hub listens at a shorter endpoint from the second call on. -/
def shortened : Course TextHub where
  value t := if t = 0 then listeningAt (L "pipe://long") (by decide) else listeningAt (L "pipe://b") (by decide)
  call k := k
  forward k := Nat.le_succ k

/-- Then what endpointFor hands out was not there at any moment. -/
theorem endpoint_shortened : ∃ s, endpointFor id (some shortened) (some (L "B")) = some s ∧
    ¬ Real shortened (endpointText (some (L "B"))) 1 s := by
  have htext (strEndpoint : WStr) (h : 0 ∉ strEndpoint) :
      endpointText (some (L "B")) (listeningAt strEndpoint h) = some strEndpoint := by
    have hget : (listeningAt strEndpoint h).hub.armed[L "B"]? = some ⟨strEndpoint, true⟩ := (get_insert _ _ _ _).trans (if_pos rfl)
    simp only [endpointText, Option.bind_some, hget]
  have hall := mt (sizedRead_iff (c := shortened) id (getEndpoint_answers (some (L "B")))).mp
    (not_not.mpr ⟨_, _, htext _ (by decide), htext _ (by decide), by decide⟩)
  obtain ⟨s, hs⟩ := not_forall.mp hall
  obtain ⟨hread, hreal⟩ := Classical.not_imp.mp hs
  exact ⟨s, hread, hreal⟩

end TargetFacade.SizedReads
