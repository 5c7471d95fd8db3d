/-
  TargetFacade.Com.Capture — a message as a COM hub queues it, and what its handler reads of it
  (ComHub.cpp: Sink::OnMessage, get_MsgDest, get_MsgPriority, get_MsgTag, get_MsgFlags,
  get_MsgFieldCount, MsgFieldName, MsgField).

  The flat readers answer inside the delivery only, so the pump's sink asks them all there, into
  buffers of its own, and the event carries the answers. A name with a TAB is found by GetField and
  is not among the names the sink walks; an address that fills the buffer is left out.

  `reads_agree_iff` is what this costs for one message, and `com_reads_iff` for every message
  callback of every run.
-/

import TargetFacade.Com.EventQueue
import TargetFacade.Com.Payload
import TargetFacade.Hub.Delivery
import TargetFacade.Hub.TypedFields

namespace TargetFacade

open OrdMap Runs KeyLog

/-! ## The pump's side -/

/-- One turn of the loop over the fields: none where GetFieldName fails. -/
def Sink.queuedField (pMsg : Option ItemTree) (i : Nat) : Option (WStr × List UInt8) :=
  let rName := GetFieldName pMsg i (some []) (some 128)
  if FAILED rName.1 then none
  else
    let wszName := rName.2.1.getD []
    let rSize := GetField pMsg (some wszName) none (some 0)
    let cb := rSize.2.2.getD 0
    if FAILED rSize.1 || cb == 0 then some (wszName, [])
    else
      let rFill := GetField pMsg (some wszName) (some (List.replicate cb 0)) (some cb)
      some (wszName, if FAILED rFill.1 then [] else rFill.2.1.getD [])

/-- `m_pHub` is none when it is NULL, and else holds the message that is being delivered. -/
def Sink.OnMessage (m_pHub : Option (Option CurDelivery)) (source topic : Option WStr) (payload : Option (List UInt8))
    (broadcast : Bool) : Com.HubEvent :=
  let ev := { Com.HubEvent.created with
    kind := .evMessage
    a := source.getD []
    b := topic.getD []
    broadcast := broadcast
    payload := payload.getD [] }
  match m_pHub with
  | none => ev
  | some cur =>
    let r := GetMsgInfo cur ⟨some [], some 256, some 7, some 0, some 0⟩
    let uFlags := r.2.outFlags.getD 0
    let ev := { ev with
      msgDest := if FAILED r.1 then ev.msgDest else r.2.destBuf.getD []
      msgPriority := (r.2.outPriority.getD 0).toInt32
      msgTag := (r.2.outTag.getD 0).toInt32
      msgFlags := uFlags.toInt32 }
    if uFlags &&& P2PF_MSG_FIELDS = 0 then ev
    else
      let pMsg := cur.map (·.1.tree)
      { ev with fields := (List.range ((GetFieldCount pMsg (some 0)).2.getD 0)).filterMap (Sink.queuedField pMsg) }

/-- The event of a message callback. -/
def Handed.captured (h : Handed) : Com.HubEvent :=
  Sink.OnMessage (some (some h.cur)) (some h.lpszSource) (some h.lpszTopic) (some h.aPayload) h.cur.2

/-! ## The handler's side -/

inductive MsgRead where
  | MsgDest
  | MsgPriority
  | MsgTag
  | MsgFlags
  | MsgFieldCount
  | MsgFieldName (index : Int32)
  /-- none is a NULL BSTR. -/
  | MsgField (name : Option WStr)
  deriving DecidableEq, Repr

inductive MsgValue where
  | text (bs : WStr)
  | long (n : Int32)
  | variant (r : VariantHr × Option VARIANT)

/-- What a read answers about the event that CurEvent has found. `bMemory` is whether there is memory for it. -/
def MsgRead.of (bMemory : Bool) (pEv : Com.HubEvent) : MsgRead → Except HRESULT MsgValue
  | .MsgDest => if bMemory then .ok (.text pEv.msgDest) else .error .E_OUTOFMEMORY
  | .MsgPriority => .ok (.long pEv.msgPriority)
  | .MsgTag => .ok (.long pEv.msgTag)
  | .MsgFlags => .ok (.long pEv.msgFlags)
  | .MsgFieldCount => .ok (.long (Int32.ofNat pEv.fields.length))
  | .MsgFieldName index =>
    if index < 0 then .error .E_INVALIDARG
    else
      match pEv.fields[index.toNatClampNeg]? with
      | none => .error .E_INVALIDARG
      | some f => if bMemory then .ok (.text f.1) else .error .E_OUTOFMEMORY
  | .MsgField name =>
    match pEv.fields.lookup (name.getD []) with
    | none => .error .P2PF_E_NO_FIELD
    | some v => .ok (.variant (BytesToVariant bMemory v (UInt32.ofNat v.length) (some .empty)))

/-- A reader that hands a text out, or refuses, and the handler's read that says the same. -/
def TextAgrees (get : Option WStr → Nat → HRESULT × Option WStr × Option Nat) : Except HRESULT MsgValue → Prop
  | .ok (.text bs) => ∀ buf cch, get buf cch = CopyOut bs buf (some cch)
  | .ok _ => False
  | .error hr => ∀ buf cch, get buf cch = (hr, buf, some cch)

/-- The same for bytes, which the handler has as an array. -/
def BytesAgree (get : Option (List UInt8) → Nat → HRESULT × Option (List UInt8) × Option Nat) : Except HRESULT MsgValue → Prop
  | .ok (.variant r) => ∃ v b, r = (.S_OK, some v) ∧ IsPayload v b ∧ ∀ buf size, get buf size = CopyOutBytes b buf (some size)
  | .ok _ => False
  | .error hr => ∀ buf size, get buf size = (hr, buf, some size)

/-- A word that is handed out, and the LONG with the same bits. -/
def LongAgrees (get : MsgInfoOut → Option UInt32) (slot : MsgInfoOut → Option UInt32) : Except HRESULT MsgValue → Prop
  | .ok (.long n) => ∀ out, get out = (slot out).map fun _ => n.toUInt32
  | _ => False

/-- What a handler reads of the event is what the readers answer in the delivery. -/
structure ReadsAgree (d : CurDelivery) (ev : Com.HubEvent) : Prop where
  dest : TextAgrees (fun buf cch =>
    let r := GetMsgInfo (some d) ⟨buf, some cch, none, none, none⟩
    (r.1, r.2.destBuf, r.2.destCch)) (MsgRead.of true ev .MsgDest)
  priority : LongAgrees (fun out => (GetMsgInfo (some d) out).2.outPriority) (·.outPriority) (MsgRead.of true ev .MsgPriority)
  tag : LongAgrees (fun out => (GetMsgInfo (some d) out).2.outTag) (·.outTag) (MsgRead.of true ev .MsgTag)
  flags : LongAgrees (fun out => (GetMsgInfo (some d) out).2.outFlags) (·.outFlags) (MsgRead.of true ev .MsgFlags)
  count : ∃ n, (∀ x, GetFieldCount (some d.1.tree) (some x) = (S_OK, some n)) ∧
    MsgRead.of true ev .MsgFieldCount = .ok (.long (Int32.ofNat n))
  name : ∀ index : Int32, 0 ≤ index →
    TextAgrees (fun buf cch => GetFieldName (some d.1.tree) index.toNatClampNeg buf (some cch))
      (MsgRead.of true ev (.MsgFieldName index))
  field : ∀ name : WStr, BytesAgree (fun buf size => GetField (some d.1.tree) (some name) buf (some size))
    (MsgRead.of true ev (.MsgField (some name)))

/-! ## The fields of one message -/

theorem copyOut_fits {value : WStr} {cch : Nat} (h : value.length < cch) (old : WStr) :
    CopyOut value (some old) (some cch) = (S_OK, some value, some (value.length + 1)) := by
  unfold CopyOut
  simp only
  rw [if_neg (by omega)]

theorem copyOut_short {value : WStr} {cch : Nat} (h : cch ≤ value.length) (old : WStr) :
    CopyOut value (some old) (some cch) = (.ERROR_MORE_DATA, some old, some (value.length + 1)) := by
  unfold CopyOut
  simp only
  rw [if_pos (by omega)]

section OneMessage

variable (pFm : FacadeMessage)

/-- The items of a message, as the reader of a field finds them. -/
theorem items_of_declared : (declareFields (some pFm.aFields)).oFields.getD [] = pFm.aFields := by
  unfold declareFields
  have hitems := items_declared pFm
  cases he : pFm.aFields with
  | nil => rfl
  | cons f aF =>
    rw [he] at hitems
    simpa using hitems

theorem getField_declared (name : WStr) (buf : Option (List UInt8)) (size : Nat) :
    GetField (some (declareFields (some pFm.aFields))) (some name) buf (some size) =
      match pFm.aFields.lookup name with
      | none => (.P2PF_E_NO_FIELD, buf, some size)
      | some b => CopyOutBytes b buf (some size) := by
  have hbind : (declareFields (some pFm.aFields)).oFields.bind (·.lookup name) = pFm.aFields.lookup name := by
    have hitems := items_of_declared pFm
    cases ho : (declareFields (some pFm.aFields)).oFields with
    | none =>
      rw [ho] at hitems
      rw [← hitems]
      rfl
    | some item =>
      rw [ho] at hitems
      rw [← hitems]
      rfl
  show (match (declareFields (some pFm.aFields)).oFields.bind (·.lookup name) with
    | none => (HRESULT.P2PF_E_NO_FIELD, buf, some size)
    | some b => CopyOutBytes b buf (some size)) = _
  rw [hbind]

/-- A field whose name the index gives is copied whole. -/
theorem queuedField_declared {i : Nat} {f : WStr × List UInt8} (hf : pFm.aFields[i]? = some f)
    (hnames : (FieldNames (declareFields (some pFm.aFields))).getD [] = Assoc.keys pFm.aFields) :
    Sink.queuedField (some (declareFields (some pFm.aFields))) i = some f := by
  have hmem := List.mem_of_getElem? hf
  have hshort : f.1.length < 128 := Nat.lt_of_le_of_lt (pFm.each f hmem).name (by decide)
  have hkey : (Assoc.keys pFm.aFields)[i]? = some f.1 := by
    unfold Assoc.keys
    rw [List.getElem?_map, hf]
    rfl
  have hname : GetFieldName (some (declareFields (some pFm.aFields))) i (some []) (some 128) =
      (S_OK, some f.1, some (f.1.length + 1)) := by
    unfold GetFieldName
    simp only
    rw [hnames, hkey]
    exact copyOut_fits hshort []
  unfold Sink.queuedField
  rw [hname]
  simp only [failed_S_OK, Bool.false_eq_true, if_false, Option.getD_some]
  rw [field_declared pFm hmem, field_declared pFm hmem, copyOutBytes_size]
  simp only [failed_S_OK, Bool.false_or, Option.getD_some, beq_iff_eq, copyOutBytes_filled, Bool.false_eq_true, if_false]
  split
  · rename_i hnil
    rw [← List.eq_nil_of_length_eq_zero hnil]
  · rfl

/-- What the index names is in the list the sink walks: no name of it has a TAB. -/
theorem queuedField_name {i : Nat} {f : WStr × List UInt8}
    (hf : Sink.queuedField (some (declareFields (some pFm.aFields))) i = some f) : 9 ∉ f.1 := by
  unfold Sink.queuedField at hf
  simp only at hf
  split at hf
  · cases hf
  rename_i hok
  have hname : f.1 = (GetFieldName (some (declareFields (some pFm.aFields))) i (some []) (some 128)).2.1.getD [] := by
    split at hf
    · rw [← Option.some.inj hf]
    · rw [← Option.some.inj hf]
  unfold GetFieldName at hname hok
  simp only at hname hok
  cases hi : ((FieldNames (declareFields (some pFm.aFields))).getD [])[i]? with
  | none =>
    rw [hi] at hok
    exact absurd rfl hok
  | some csName =>
    rw [hi] at hname
    change f.1 = (CopyOut csName (some []) (some 128)).2.1.getD [] at hname
    have hmem := List.mem_of_getElem? hi
    rw [fieldNames_declared] at hmem
    have htoken := (Tokens.mem_tokens hmem).2
    rw [hname]
    rcases Nat.lt_or_ge csName.length 128 with hlt | hge
    · rw [copyOut_fits hlt]
      exact htoken
    · rw [copyOut_short hge]
      exact List.not_mem_nil

theorem fields_flag (d : CurDelivery) : msgFlags d &&& P2PF_MSG_FIELDS = 0 ↔ d.1.tree.oFields.isSome = false := by
  unfold msgFlags
  generalize d.2 = b1
  generalize IsNoBounce d.1 = b2
  generalize d.1.IsWrapped = b3
  generalize d.1.IsReflected = b4
  generalize d.1.tree.oFields.isSome = b5
  revert b1 b2 b3 b4 b5
  decide

theorem declared_some : (declareFields (some pFm.aFields)).oFields.isSome = !pFm.aFields.isEmpty := by
  unfold declareFields
  cases he : pFm.aFields with
  | nil => rfl
  | cons f aF => rfl

end OneMessage

/-! ## The event of a message -/

section Captured

variable {d : CurDelivery} {source topic : Option WStr} {payload : Option (List UInt8)} {broadcast : Bool}

/-- What GetMsgInfo answers the sink. -/
theorem sink_info (d : CurDelivery) : ∃ hr text cch,
    GetMsgInfo (some d) ⟨some [], some 256, some 7, some 0, some 0⟩ =
      (hr, ⟨text, cch, some (d.1.Priority.getD P2PF_PRI_NORMAL), some (d.1.AddrTag.getD 0).toUInt32, some (msgFlags d)⟩) ∧
    (if FAILED hr then [] else text.getD []) = if (d.1.GetDestin.getD []).length < 256 then d.1.GetDestin.getD [] else [] := by
  rcases Nat.lt_or_ge (d.1.GetDestin.getD []).length 256 with hlt | hge
  · refine ⟨S_OK, some (d.1.GetDestin.getD []), some ((d.1.GetDestin.getD []).length + 1), ?_, by rw [if_pos hlt]; rfl⟩
    have hout := copyOut_fits hlt []
    unfold GetMsgInfo
    simp only [Option.isSome_some, if_true, hout, Option.map_some]
  · refine ⟨.ERROR_MORE_DATA, some [], some ((d.1.GetDestin.getD []).length + 1), ?_,
      by rw [if_neg (Nat.not_lt.mpr hge)]; rfl⟩
    have hout := copyOut_short hge []
    unfold GetMsgInfo
    simp only [Option.isSome_some, if_true, hout, Option.map_some]

/-- The event, member by member. -/
theorem captured_event (d : CurDelivery) (source topic : Option WStr) (payload : Option (List UInt8)) (broadcast : Bool) :
    Sink.OnMessage (some (some d)) source topic payload broadcast = { Com.HubEvent.created with
      kind := .evMessage
      a := source.getD []
      b := topic.getD []
      broadcast := broadcast
      payload := payload.getD []
      msgDest := if (d.1.GetDestin.getD []).length < 256 then d.1.GetDestin.getD [] else []
      msgPriority := (d.1.Priority.getD P2PF_PRI_NORMAL).toInt32
      msgTag := (d.1.AddrTag.getD 0).toUInt32.toInt32
      msgFlags := (msgFlags d).toInt32
      fields := if d.1.tree.oFields.isSome then
        (List.range ((FieldNames d.1.tree).getD []).length).filterMap (Sink.queuedField (some d.1.tree)) else [] } := by
  obtain ⟨hr, text, cch, hinfo, hdest⟩ := sink_info d
  unfold Sink.OnMessage
  simp only [hinfo, Option.getD_some]
  cases hs : d.1.tree.oFields.isSome with
  | false =>
    rw [if_pos ((fields_flag d).mpr hs), ← hdest]
    rfl
  | true =>
    have hflag : ¬ msgFlags d &&& P2PF_MSG_FIELDS = 0 := fun h => by
      rw [(fields_flag d).mp h] at hs
      cases hs
    rw [if_neg hflag, ← hdest]
    rfl

/-- The fields of the event, when no name has a TAB. -/
theorem captured_fields {pFm : FacadeMessage} (htree : d.1.tree = declareFields (some pFm.aFields))
    (htab : ∀ f ∈ pFm.aFields, 9 ∉ f.1) :
    (Sink.OnMessage (some (some d)) source topic payload broadcast).fields = pFm.aFields := by
  have hnames := (names_declared_iff pFm).mpr htab
  rw [captured_event]
  simp only
  rw [htree, declared_some]
  cases he : pFm.aFields.isEmpty with
  | true =>
    rw [List.isEmpty_iff.mp he]
    rfl
  | false =>
    simp only [Bool.not_false, if_true]
    rw [hnames]
    have hlen : (Assoc.keys pFm.aFields).length = pFm.aFields.length := List.length_map _
    rw [hlen]
    -- every name is declared, so no turn of the loop skips
    have hturn : ∀ i ∈ List.range pFm.aFields.length,
        Sink.queuedField (some (declareFields (some pFm.aFields))) i = some (pFm.aFields.getD i ([], [])) := by
      intro i hi
      have hget := List.getElem?_eq_getElem (List.mem_range.mp hi)
      rw [List.getD_eq_getElem?_getD, hget]
      exact queuedField_declared pFm hget hnames
    rw [List.filterMap_congr hturn, List.filterMap_eq_map']
    refine List.ext_getElem (by simp) fun i hi _ => ?_
    simp at hi
    simp [List.getElem?_eq_getElem hi]

/-- No field of the event has a TAB in its name. -/
theorem captured_no_tab {pFm : FacadeMessage} (htree : d.1.tree = declareFields (some pFm.aFields)) {f : WStr × List UInt8}
    (hf : f ∈ (Sink.OnMessage (some (some d)) source topic payload broadcast).fields) : 9 ∉ f.1 := by
  rw [captured_event] at hf
  simp only at hf
  split at hf
  · rw [htree] at hf
    obtain ⟨i, -, hi⟩ := List.mem_filterMap.mp hf
    exact queuedField_name pFm hi
  · cases hf

theorem bytes_payload {b : List UInt8} (hb : b.length ≤ MAX_FIELD_SIZE) :
    ∃ v, BytesToVariant true b (UInt32.ofNat b.length) (some .empty) = (.S_OK, some v) ∧ IsPayload v b := by
  obtain ⟨psa, hto, hd, hl, -, hc, hdata⟩ := bytesToVariant_eq b .empty
  refine ⟨_, hto, .array rfl ⟨⟨hd, .inr (by rw [hl]; decide)⟩, ?_⟩⟩
  rw [hdata, List.take_of_length_le]
  have hmax : MAX_FIELD_SIZE = 8192 := rfl
  omega

section Fields

variable {pFm : FacadeMessage} (htree : d.1.tree = declareFields (some pFm.aFields)) {ev : Com.HubEvent}
  (hfields : ev.fields = pFm.aFields)
include htree hfields

/-- The names of an event that has the message's fields. -/
theorem names_read (htab : ∀ f ∈ pFm.aFields, 9 ∉ f.1) {index : Int32} (hindex : 0 ≤ index) :
    TextAgrees (fun buf cch => GetFieldName (some d.1.tree) index.toNatClampNeg buf (some cch))
      (MsgRead.of true ev (.MsgFieldName index)) := by
  have hnames := (names_declared_iff pFm).mpr htab
  have hkey : (Assoc.keys pFm.aFields)[index.toNatClampNeg]? = (pFm.aFields[index.toNatClampNeg]?).map (·.1) :=
    List.getElem?_map
  rw [MsgRead.of, if_neg (Int32.not_lt.mpr hindex), hfields, htree]
  cases hget : pFm.aFields[index.toNatClampNeg]? with
  | none =>
    intro buf cch
    show GetFieldName _ _ _ _ = _
    unfold GetFieldName
    simp only
    rw [hnames, hkey, hget]
    rfl
  | some f =>
    intro buf cch
    show GetFieldName _ _ _ _ = _
    unfold GetFieldName
    simp only
    rw [hnames, hkey, hget]
    rfl

/-- And their values, whatever the names. -/
theorem fields_read (name : WStr) : BytesAgree (fun buf size => GetField (some d.1.tree) (some name) buf (some size))
    (MsgRead.of true ev (.MsgField (some name))) := by
  rw [MsgRead.of, hfields, htree, Option.getD_some]
  cases hl : pFm.aFields.lookup name with
  | none =>
    intro buf size
    show GetField _ _ _ _ = _
    rw [getField_declared, hl]
  | some b =>
    have hmem : (name, b) ∈ pFm.aFields := by
      obtain ⟨before, after, heq, -⟩ := List.lookup_eq_some_iff.mp hl
      rw [heq]
      exact List.mem_append_right _ List.mem_cons_self
    obtain ⟨v, hv, hpayload⟩ := bytes_payload (pFm.each _ hmem).value
    refine ⟨v, b, hv, hpayload, fun buf size => ?_⟩
    show GetField _ _ _ _ = _
    rw [getField_declared, hl]

end Fields

/-- A long address is not in the event. -/
theorem dest_lost (h : ReadsAgree d (Sink.OnMessage (some (some d)) source topic payload broadcast)) :
    (d.1.GetDestin.getD []).length < 256 := by
  by_contra hlen
  have hdest := h.dest none 0
  rw [captured_event] at hdest
  simp only [if_neg hlen] at hdest
  have hcch := congrArg (·.2.2) hdest
  have hneed : (d.1.GetDestin.getD []).length + 1 = 1 := by simpa [GetMsgInfo, CopyOut] using hcch
  omega

section Lost

variable {pFm : FacadeMessage} (htree : d.1.tree = declareFields (some pFm.aFields))
include htree

/-- Nor is a field with a TAB in its name, which GetField finds. -/
theorem field_lost (h : ReadsAgree d (Sink.OnMessage (some (some d)) source topic payload broadcast))
    {f : WStr × List UInt8} (hf : f ∈ pFm.aFields) : 9 ∉ f.1 := by
  intro htab
  have hlost : (Sink.OnMessage (some (some d)) source topic payload broadcast).fields.lookup f.1 = none := by
    rw [List.lookup_eq_none_iff]
    intro g hg
    have hne : f.1 ≠ g.1 := fun he => captured_no_tab htree hg (he ▸ htab)
    simpa using hne
  have hfield := h.field f.1
  unfold MsgRead.of at hfield
  simp only [Option.getD_some, hlost] at hfield
  have hhr : GetField (some d.1.tree) (some f.1) none (some 0) = (.P2PF_E_NO_FIELD, none, some 0) := hfield none 0
  rw [htree, field_declared pFm hf, copyOutBytes_size] at hhr
  cases hhr

/-- A message is read from its event as in its delivery exactly when its address fits the sink's buffer and no field has a
    TAB in its name. -/
theorem reads_agree_iff : ReadsAgree d (Sink.OnMessage (some (some d)) source topic payload broadcast) ↔
    (d.1.GetDestin.getD []).length < 256 ∧ ∀ f ∈ pFm.aFields, 9 ∉ f.1 := by
  constructor
  · exact fun h => ⟨dest_lost h, fun f hf => field_lost htree h hf⟩
  · intro ⟨hlen, htab⟩
    have hfields : (Sink.OnMessage (some (some d)) source topic payload broadcast).fields = pFm.aFields :=
      captured_fields htree htab
    have hinfo := getMsgInfo_out d
    refine ⟨?_, ?_, ?_, ?_, ⟨pFm.aFields.length, fun x => ?_, ?_⟩, fun index => names_read htree hfields htab,
      fields_read htree hfields⟩
    · rw [captured_event, MsgRead.of, if_pos rfl]
      intro buf cch
      simp only [if_pos hlen]
      rfl
    · rw [captured_event]
      exact fun out => (hinfo out).1
    · rw [captured_event]
      exact fun out => (hinfo out).2.1
    · rw [captured_event]
      exact fun out => (hinfo out).2.2
    · unfold GetFieldCount
      simp only
      rw [htree, (names_declared_iff pFm).mpr htab]
      simp [Assoc.keys]
    · rw [MsgRead.of, hfields]

end Lost

end Captured

/-! ## Every run -/

/-- The fields of what a call says are those of a message object. -/
theorem said_fields {c : PublicCall} {w : Said} (h : c.said = some w) :
    ∃ pFm : FacadeMessage, declareFields (w.pOpts.bind (·.pFields)) = declareFields (some pFm.aFields) := by
  have hplain : w.pOpts.bind (·.pFields) = none → ∃ pFm : FacadeMessage,
      declareFields (w.pOpts.bind (·.pFields)) = declareFields (some pFm.aFields) := fun hnone => by
    rw [hnone]
    exact ⟨.Clear, rfl⟩
  cases c with
  | send dest topic payload size | sendEx dest topic payload size priority tag flags | sendText dest topic text =>
    simp only [PublicCall.said, bind, Option.bind_eq_some_iff, Option.some.injEq] at h
    grind
  | sendMsg dest topic msg priority tag flags =>
    simp only [PublicCall.said, bind, Option.bind_eq_some_iff, Option.some.injEq] at h
    obtain ⟨pFm, -, _, -, _, -, rfl⟩ := h
    exact ⟨pFm, rfl⟩
  | broadcast peers topic payload size | broadcastEx peers topic payload size priority tag flags =>
    simp only [PublicCall.said, bind, Option.bind_eq_some_iff, Option.some.injEq] at h
    obtain ⟨_, -, rfl⟩ := h
    exact hplain rfl
  | broadcastMsg peers topic msg priority tag flags =>
    simp only [PublicCall.said, bind, Option.bind_eq_some_iff, Option.some.injEq] at h
    obtain ⟨pFm, -, _, -, rfl⟩ := h
    exact ⟨pFm, rfl⟩
  | ping peer uPingId => cases h

/-- What a client is handed has the fields of a message object, and is for the hub that hands it. -/
theorem handed_fields {earlier : List Happening} {m : SentMsg} (hsent : TookSent earlier m) {s : Sinks} {answer : Option HRESULT}
    {env : PostEnv} {children : List WStr} {h : Handed} (hh : (routeMsg s answer env children m.oMsg.strDest m).handed = some h) :
    h.cur.1.GetDestin = some m.oMsg.strDest ∧ ∃ pFm : FacadeMessage, h.cur.1.tree = declareFields (some pFm.aFields) := by
  have hcur : h.cur.1 = m.curMsg := by
    rcases routeMsg_handed hh with ⟨-, d, -, rfl⟩ | ⟨-, -, rfl⟩
    · rfl
    · rfl
  obtain ⟨c, hr, aPosted, w, o, -, hw, hsaid, hsame, -⟩ := came_said hsent.came (handed_name hh) hsent.entered
  have hopts : m.oMsg.pOpts = w.pOpts := by rw [← hsaid.1, hsame]
  rw [hcur]
  refine ⟨rfl, ?_⟩
  show ∃ pFm : FacadeMessage, declareFields (m.oMsg.pOpts.bind (·.pFields)) = _
  rw [hopts]
  exact said_fields hw

/-- The event of a message callback is read as the delivery is, exactly when the address of the hub fits the sink's buffer
    and no field has a TAB in its name. -/
def ComReads (_ : List Happening) (e : Happening) : Prop :=
  ∀ a s answer m t strWhy h, e = .took a s answer m t strWhy → t.handed = some h →
    (ReadsAgree h.cur h.captured ↔ a.length < 256 ∧ ∀ f ∈ h.cur.1.tree.oFields.getD [], 9 ∉ f.1)

/-- Over every run of the hubs. -/
theorem com_reads_iff (es : List RouteEv) (hes : AllEnded es) : Noted ComReads (exec (routeStep 64) .start es).log := by
  intro earlier e later hlog a s answer m t strWhy h he hh
  obtain ⟨hsent, rfl, env, children, rfl⟩ := tookSent_exec hes earlier e later hlog a s answer m t strWhy he
  obtain ⟨hdest, pFm, htree⟩ := handed_fields hsent hh
  rw [Handed.captured, reads_agree_iff htree, hdest, htree, items_of_declared]
  rfl

theorem com_reads_iff_tagged : Noted ComReads (exec (routeStep 64) .start (taggedRun none)).log :=
  com_reads_iff (taggedRun none) fun a c env h w hw => by
    simp only [taggedRun, List.mem_cons, reduceCtorEq, false_or, or_false, RouteEv.call.injEq, List.not_mem_nil] at h
    obtain ⟨-, rfl, -⟩ := h
    cases hw
    decide

end TargetFacade
