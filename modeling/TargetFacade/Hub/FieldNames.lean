/-
  TargetFacade.Hub.FieldNames — the fields of a message on the wire, and the receiver's
  GetFieldCount, GetFieldName and GetField.

  PostMsg declares each field under its name, and beside them one index of the names with a TAB
  between them; FieldNames cuts the index at every TAB. A field is found under its name whatever
  the name, but a name with a TAB in it is not in the list that the receiver reads.
-/

import TargetFacade.Hub.Message
import TargetFacade.Hub.BCastFrame
import TargetFacade.Lib.Tokens

namespace TargetFacade

open OrdMap Runs

/-- The facade's items under the root of a message: none is an item that is not there. -/
structure ItemTree where
  oFields : Option (List (WStr × List UInt8))
  oNames : Option (List UInt8)
  deriving DecidableEq, Repr

/-- The fields and the index, as PostMsg declares them. -/
def declareFields (pFields : Option (List (WStr × List UInt8))) : ItemTree :=
  match pFields with
  | none => ⟨none, none⟩
  | some aF =>
    if aF.isEmpty then ⟨none, none⟩
    else
      let csNames := Tokens.joined 9 (aF.map (·.1))
      ⟨some (aF.foldl (fun item f => Assoc.put f.1 f.2 item) []), some (u16le.write (csNames ++ [0]))⟩

def PostedMsg.tree (m : PostedMsg) : ItemTree := declareFields (m.pOpts.bind (·.pFields))

/-- none is FALSE. -/
def FieldNames (pMsg : ItemTree) : Option (List WStr) :=
  match pMsg.oNames with
  | none => none
  | some pv =>
    if pv.length < 2 then none
    else
      -- to the terminator, or to the end of the item
      let csAll := lpcwstr (u16le.read (pv.length / 2) pv)
      some (Tokens.tokens 9 csAll)

/-- `pMsg` is none when no message is being delivered, and `outCount` when it is NULL. -/
def GetFieldCount (pMsg : Option ItemTree) (outCount : Option Nat) : HRESULT × Option Nat :=
  match outCount with
  | none => (E_POINTER, none)
  | some _ =>
    match pMsg with
    | none => (.P2PF_E_NO_MESSAGE, some 0)
    | some pMsg => (S_OK, some ((FieldNames pMsg).getD []).length)

def GetFieldName (pMsg : Option ItemTree) (index : Nat) (buf : Option WStr) (cch : Option Nat) :
    HRESULT × Option WStr × Option Nat :=
  match pMsg with
  | none => (.P2PF_E_NO_MESSAGE, buf, cch)
  | some pMsg =>
    match ((FieldNames pMsg).getD [])[index]? with
    | none => (E_INVALIDARG, buf, cch)
    | some csName => CopyOut csName buf cch

def GetField (pMsg : Option ItemTree) (name : Option WStr) (buf : Option (List UInt8)) (size : Option Nat) :
    HRESULT × Option (List UInt8) × Option Nat :=
  if name.isNone || size.isNone then (E_POINTER, buf, size)
  else
    match pMsg with
    | none => (.P2PF_E_NO_MESSAGE, buf, size)
    | some pMsg =>
      match pMsg.oFields.bind (·.lookup (name.getD [])) with
      | none => (.P2PF_E_NO_FIELD, buf, size)
      | some pvValue => CopyOutBytes pvValue buf size

/-- The receiver reads the fields the sender has set: as many, under the same names in the same order,
    and with the same bytes, into whatever buffers. -/
structure FieldsSurvive (pFm : FacadeMessage) (pMsg : ItemTree) : Prop where
  count : ∀ n, GetFieldCount (some pMsg) (some n) = (S_OK, some pFm.aFields.length)
  names : ∀ i name, (Assoc.keys pFm.aFields)[i]? = some name →
    ∀ buf cch, GetFieldName (some pMsg) i buf cch = CopyOut name buf cch
  values : ∀ f ∈ pFm.aFields, ∀ buf uHave,
    GetField (some pMsg) (some f.1) buf (some uHave) = CopyOutBytes f.2 buf (some uHave)

/-! ## The index -/

/-- The index is read back as the text that was written. -/
theorem index_text {csNames : WStr} (h : 0 ∉ csNames) :
    lpcwstr (u16le.read ((u16le.write (csNames ++ [0])).length / 2) (u16le.write (csNames ++ [0]))) = csNames := by
  have hlen : (u16le.write (csNames ++ [0])).length / 2 = (csNames ++ [0]).length := by
    rw [Words.length_write]
    show (csNames ++ [0]).length * 2 / 2 = _
    omega
  have hread := Words.read_write u16le (csNames ++ [0]) []
  rw [List.append_nil] at hread
  rw [hlen, hread]
  unfold lpcwstr
  rw [List.takeWhile_append_of_pos fun c hc => by simpa using fun e : c = 0 => h (e ▸ hc)]
  simp

theorem joined_ended {ts : List WStr} (h : ∀ t ∈ ts, 0 ∉ t) : 0 ∉ Tokens.joined 9 ts := by
  induction ts with
  | nil => exact List.not_mem_nil
  | cons t ts ih =>
    have ht := h t (by simp)
    have hts := ih fun t' ht' => h t' (by simp [ht'])
    cases ts with
    | nil => exact ht
    | cons t' ts =>
      show 0 ∉ t ++ 9 :: Tokens.joined 9 (t' :: ts)
      intro hm
      rcases List.mem_append.mp hm with hm | hm
      · exact ht hm
      · rcases List.mem_cons.mp hm with hm | hm
        · cases hm
        · exact hts hm

/-- What the receiver makes of the index of a message's names. -/
theorem fieldNames_declared (pFm : FacadeMessage) :
    (FieldNames (declareFields (some pFm.aFields))).getD [] = Tokens.tokens 9 (Tokens.joined 9 (Assoc.keys pFm.aFields)) := by
  have hended : 0 ∉ Tokens.joined 9 (Assoc.keys pFm.aFields) := by
    refine joined_ended fun t ht => ?_
    obtain ⟨f, hf, rfl⟩ := List.mem_map.mp ht
    exact (pFm.each f hf).ended
  unfold declareFields
  by_cases he : pFm.aFields = []
  · rw [he]
    exact (Tokens.tokens_none rfl).symm
  · have he' : pFm.aFields.isEmpty = false := by simpa using he
    simp only [he', Bool.false_eq_true, if_false]
    unfold FieldNames
    have hlen : ¬ (u16le.write (Tokens.joined 9 (Assoc.keys pFm.aFields) ++ [0])).length < 2 := by
      rw [Words.length_write, List.length_append]
      show ¬ (_ + 1) * 2 < 2
      omega
    show ((if (u16le.write (Tokens.joined 9 (Assoc.keys pFm.aFields) ++ [0])).length < 2 then none
      else some _ : Option (List WStr))).getD [] = _
    rw [if_neg hlen]
    exact congrArg (Tokens.tokens 9) (index_text hended)

theorem names_declared_iff (pFm : FacadeMessage) :
    (FieldNames (declareFields (some pFm.aFields))).getD [] = Assoc.keys pFm.aFields ↔ ∀ f ∈ pFm.aFields, 9 ∉ f.1 := by
  rw [fieldNames_declared, Tokens.tokens_joined_iff]
  constructor
  · exact fun h f hf => (h f.1 (List.mem_map_of_mem hf)).2
  · intro h t ht
    obtain ⟨f, hf, rfl⟩ := List.mem_map.mp ht
    exact ⟨(pFm.each f hf).named, h f hf⟩

/-- The names are distinct, so no field replaces another. -/
theorem items_declared (pFm : FacadeMessage) :
    pFm.aFields.foldl (fun item f => Assoc.put f.1 f.2 item) [] = pFm.aFields := Assoc.foldl_put pFm.distinct

/-- A field is found under its name. -/
theorem field_declared (pFm : FacadeMessage) {f : WStr × List UInt8} (hf : f ∈ pFm.aFields) (buf : Option (List UInt8))
    (uHave : Nat) : GetField (some (declareFields (some pFm.aFields))) (some f.1) buf (some uHave) =
      CopyOutBytes f.2 buf (some uHave) := by
  have he : pFm.aFields.isEmpty = false := by
    cases h : pFm.aFields with
    | nil => rw [h] at hf; cases hf
    | cons e l => rfl
  have hitems := items_declared pFm
  unfold declareFields GetField
  simp only [he, hitems, Bool.false_eq_true, if_false, Option.isNone_some, Bool.or_self, Option.bind_some,
    Option.getD_some]
  rw [Assoc.lookup_of_mem pFm.distinct hf]

theorem survive_iff (pFm : FacadeMessage) :
    FieldsSurvive pFm (declareFields (some pFm.aFields)) ↔ ∀ f ∈ pFm.aFields, 9 ∉ f.1 := by
  constructor
  · intro h f hf htab
    obtain ⟨i, hi⟩ := List.mem_iff_getElem?.mp hf
    have hkey : (Assoc.keys pFm.aFields)[i]? = some f.1 := by
      unfold Assoc.keys
      rw [List.getElem?_map, hi]
      rfl
    have hname := h.names i f.1 hkey (some []) (some (f.1.length + 1))
    unfold GetFieldName at hname
    simp only at hname
    have hfull : CopyOut f.1 (some []) (some (f.1.length + 1)) = (S_OK, some f.1, some (f.1.length + 1)) := by
      unfold CopyOut
      simp
    rw [hfull] at hname
    cases hread : ((FieldNames (declareFields (some pFm.aFields))).getD [])[i]? with
    | none => rw [hread] at hname; cases hname
    | some csName =>
      rw [hread] at hname
      simp only at hname
      obtain rfl := copyOut_text rfl (by rw [hname]) (by rw [hname])
      -- no token has a separator in it
      rw [fieldNames_declared] at hread
      exact (Tokens.mem_tokens (List.mem_of_getElem? hread)).2 htab
  · intro h
    have hnames := (names_declared_iff pFm).mpr h
    refine ⟨fun n => ?_, fun i name hi buf cch => ?_, fun f hf buf uHave => field_declared pFm hf buf uHave⟩
    · unfold GetFieldCount
      simp only
      rw [hnames]
      simp [Assoc.keys]
    · unfold GetFieldName
      simp only
      rw [hnames, hi]

/-! ## Sending -/

theorem tree_posted {pFm : FacadeMessage} {priority tag flags : UInt32} {m : PostedMsg}
    (h : m.pOpts = some (pFm.opts priority tag flags)) : m.tree = declareFields (some pFm.aFields) := by
  unfold PostedMsg.tree
  rw [h]
  rfl

/-- However a message was built, the receiver of a copy that SendMsg posts reads its fields exactly when
    none of their names has a TAB in it. -/
theorem fields_survive_iff {calls : List MsgCall} {env : PostEnv} {dest topic : Option WStr}
    {priority tag flags : UInt32} {m : PostedMsg}
    (hm : m ∈ (SendMsg env dest topic (some (built calls)) priority tag flags).2) :
    FieldsSurvive (built calls) m.tree ↔ ∀ f ∈ (built calls).aFields, 9 ∉ f.1 := by
  rw [tree_posted (mem_sendMsg hm).2.2]
  exact survive_iff _

/-- Two fields, one of them removed and set again. -/
theorem fields_survive_plain :
    FieldsSurvive
      (built [.setField (some ⟨L "b", by decide⟩) (some [1]) 1, .setFieldText (some ⟨L "a", by decide⟩) (some ⟨[], by decide⟩),
        .removeField (some ⟨L "b", by decide⟩), .setField (some ⟨L "b", by decide⟩) (some [2, 3]) 2])
      (PostedMsg.tree ⟨L "hub", L "news", [], some ⟨0, 7, 0, some [(L "a", [0, 0]), (L "b", [2, 3])]⟩⟩) :=
  (@fields_survive_iff _ {} (some (L "hub")) (some (L "news")) 0 7 0 _ (by decide +kernel)).mpr (by decide +kernel)

/-- A TAB in a name splits it in two in the list that the receiver reads. -/
theorem tab_splits_the_name :
    ∃ calls : List MsgCall, ∃ m : PostedMsg,
      SendMsg {} (some (L "hub")) (some (L "news")) (some (built calls)) 0 0 0 = (S_OK, [m]) ∧
      ¬ FieldsSurvive (built calls) m.tree := by
  refine ⟨[.setField (some ⟨L "a\tb", by decide⟩) (some [1]) 1],
    ⟨L "hub", L "news", [], some ⟨0, 0, 0, some [(L "a\tb", [1])]⟩⟩, by decide +kernel, fun h => ?_⟩
  have htab : ∀ f ∈ [(L "a\tb", [(1 : UInt8)])], 9 ∉ f.1 := (survive_iff _).mp h
  exact absurd htab (by decide)

end TargetFacade
