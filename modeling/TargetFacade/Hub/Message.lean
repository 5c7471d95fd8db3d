/-
  TargetFacade.Hub.Message — the message object (FacadeMessage.cpp), and SendMsg and BroadcastMsg,
  which post one (FacadeHub.cpp, "Fields").

  A `FacadeMessage` carries the limits that SetPayload and SetField enforce: they are the only
  writers, so a message that breaks one cannot be built. Within them no sum of sizes overflows.
-/

import TargetFacade.Hub.Broadcast
import TargetFacade.Lib.Assoc
import TargetFacade.Lib.Runs
import Mathlib.Data.List.Induction

namespace TargetFacade

open OrdMap Runs

def MAX_FIELDS : Nat := 64
def MAX_FIELD_NAME : Nat := 63
def MAX_FIELD_SIZE : Nat := 8192

/-- A wide string a caller passes: its NUL ends it. -/
abbrev CWStr := { s : WStr // 0 ∉ s }

def IsReservedField (lpszName : WStr) : Bool := (L "P2PF").isPrefixOf lpszName

/-- What SetField takes as a field. -/
structure FieldOk (f : WStr × List UInt8) : Prop where
  named : f.1 ≠ []
  ended : 0 ∉ f.1
  unreserved : IsReservedField f.1 = false
  name : f.1.length ≤ MAX_FIELD_NAME
  value : f.2.length ≤ MAX_FIELD_SIZE

structure FacadeMessage where
  aPayload : List UInt8
  aFields : List (WStr × List UInt8)
  payloadLe : aPayload.length ≤ MAX_PAYLOAD
  fieldsLe : aFields.length ≤ MAX_FIELDS
  each : ∀ f ∈ aFields, FieldOk f
  distinct : (Assoc.keys aFields).Nodup

/-! ## Building a message -/

def FacadeMessage.Clear : FacadeMessage :=
  ⟨[], [], Nat.zero_le _, Nat.zero_le _, fun _ h => absurd h List.not_mem_nil, List.nodup_nil⟩

/-- `payload` is none when it is NULL. -/
def SetPayload (payload : Option (List UInt8)) (size : UInt32) (m : FacadeMessage) : HRESULT × FacadeMessage :=
  if h : MAX_PAYLOAD < size.toNat then (E_INVALIDARG, m)
  else if payload.isNone && size ≠ 0 then (E_POINTER, m)
  else (S_OK, { m with
    aPayload := (payload.getD []).take size.toNat
    payloadLe := by rw [List.length_take]; omega })

/-- `name` and `value` are none when they are NULL. -/
def SetField (name : Option CWStr) (value : Option (List UInt8)) (size : UInt32) (m : FacadeMessage) :
    HRESULT × FacadeMessage :=
  match name with
  | none => (E_POINTER, m)
  | some name =>
    if h1 : name.1.isEmpty then (E_INVALIDARG, m)
    else if h2 : IsReservedField name.1 then (P2PF_E_RESERVED_TOPIC, m)
    else if value.isNone && size ≠ 0 then (E_POINTER, m)
    else if h3 : MAX_FIELD_NAME < name.1.length ∨ MAX_FIELD_SIZE < size.toNat then (.P2PF_E_FIELD_LIMIT, m)
    else if h4 : name.1 ∉ Assoc.keys m.aFields ∧ MAX_FIELDS ≤ m.aFields.length then (.P2PF_E_FIELD_LIMIT, m)
    else
      -- a field that is there keeps its place
      (S_OK, { m with
        aFields := Assoc.put name.1 ((value.getD []).take size.toNat) m.aFields
        fieldsLe := by
          have hle := m.fieldsLe
          rw [Assoc.length_put]
          split
          · exact hle
          · rename_i hnew
            have := not_and.mp h4 hnew
            omega
        each := fun f hf => by
          rcases Assoc.mem_put hf with rfl | hf
          · have hname : name.1.length ≤ MAX_FIELD_NAME := by omega
            refine ⟨by simpa using h1, name.2, by simpa using h2, hname, ?_⟩
            rw [List.length_take]
            omega
          · exact m.each f hf
        distinct := Assoc.nodup_put _ m.distinct })

/-- With its terminator. -/
def SetFieldText (name : Option CWStr) (text : Option CWStr) (m : FacadeMessage) : HRESULT × FacadeMessage :=
  match text with
  | none => (E_POINTER, m)
  | some text =>
    SetField name (some ((text.1 ++ [0]).flatMap u16Bytes)) (UInt32.ofNat ((text.1.length + 1) * 2)) m

def RemoveField (name : Option CWStr) (m : FacadeMessage) : HRESULT × FacadeMessage :=
  match name with
  | none => (E_POINTER, m)
  | some name =>
    if name.1 ∈ Assoc.keys m.aFields then
      (S_OK, { m with
        aFields := m.aFields.eraseP (·.1 == name.1)
        fieldsLe := Nat.le_trans (List.eraseP_sublist).length_le m.fieldsLe
        each := fun f hf => m.each f (List.mem_of_mem_eraseP hf)
        distinct := List.Nodup.sublist ((List.eraseP_sublist).map _) m.distinct })
    else (S_FALSE, m)

inductive MsgCall where
  | setPayload (payload : Option (List UInt8)) (size : UInt32)
  | setField (name : Option CWStr) (value : Option (List UInt8)) (size : UInt32)
  | setFieldText (name text : Option CWStr)
  | removeField (name : Option CWStr)
  | clear

def msgStep (m : FacadeMessage) : MsgCall → FacadeMessage
  | .setPayload payload size => (SetPayload payload size m).2
  | .setField name value size => (SetField name value size m).2
  | .setFieldText name text => (SetFieldText name text m).2
  | .removeField name => (RemoveField name m).2
  | .clear => .Clear

/-- A message CreateMessage made, after these calls. -/
def built (calls : List MsgCall) : FacadeMessage := exec msgStep .Clear calls

/-! ## Sending one -/

def kPerFieldOverhead : Nat := 32

def totalSize (pMsg : FacadeMessage) : Nat :=
  pMsg.aFields.foldl (fun uTotal f => uTotal + (f.2.length + f.1.length * 2 + kPerFieldOverhead)) pMsg.aPayload.length

def CheckTotalSize (pMsg : FacadeMessage) : HRESULT := if MAX_PAYLOAD < totalSize pMsg then E_INVALIDARG else S_OK

def FacadeMessage.opts (pFm : FacadeMessage) (priority tag flags : UInt32) : MsgOpts :=
  { uPriority := priority, uTag := tag, uFlags := flags, pFields := some pFm.aFields }

/-- The payload as it is passed on: NULL when it is empty. -/
def FacadeMessage.data (pFm : FacadeMessage) : Option (List UInt8) :=
  if pFm.aPayload.isEmpty then none else some pFm.aPayload

/-- The three pointers are none when they are NULL. -/
def SendMsg (env : PostEnv) (dest topic : Option WStr) (msg : Option FacadeMessage) (priority tag flags : UInt32) :
    HRESULT × List PostedMsg :=
  match dest, topic, msg with
  | some dest, some topic, some pFm =>
    if topic.isEmpty then (E_INVALIDARG, [])
    else if IsReservedName topic || IsPrivateName topic then (P2PF_E_RESERVED_TOPIC, [])
    else if FAILED (CheckTotalSize pFm) then (CheckTotalSize pFm, [])
    else PostMsg env dest topic pFm.data pFm.aPayload.length (some (pFm.opts priority tag flags))
  | _, _, _ => (E_POINTER, [])

def BroadcastMsg (uWord : Nat) (env : PostEnv) (peers : Map WStr Bool) (topic : Option WStr)
    (msg : Option FacadeMessage) (priority tag flags : UInt32) : HRESULT × List PostedMsg :=
  match msg with
  | none => (E_POINTER, [])
  | some pFm =>
    if FAILED (CheckTotalSize pFm) then (CheckTotalSize pFm, [])
    else
      BroadcastInternal uWord env peers topic pFm.data (UInt32.ofNat pFm.aPayload.length)
        (some (pFm.opts priority tag flags))

/-! ## What is posted -/

theorem data_getD (pFm : FacadeMessage) : pFm.data.getD [] = pFm.aPayload := by
  unfold FacadeMessage.data
  cases h : pFm.aPayload with
  | nil => rfl
  | cons b l => rfl

/-- The payload's size as an unsigned int. -/
theorem payload_size (pFm : FacadeMessage) : (UInt32.ofNat pFm.aPayload.length).toNat = pFm.aPayload.length := by
  have hle := pFm.payloadLe
  rw [UInt32.toNat_ofNat']
  unfold MAX_PAYLOAD at hle
  omega

theorem checkTotalSize_ok {pFm : FacadeMessage} (h : ¬ FAILED (CheckTotalSize pFm) = true) :
    totalSize pFm ≤ MAX_PAYLOAD := by
  unfold CheckTotalSize at h
  by_cases hlt : MAX_PAYLOAD < totalSize pFm
  · rw [if_pos hlt] at h
    exact absurd rfl h
  · exact Nat.not_lt.mp hlt

theorem mem_postMsg {env : PostEnv} {dest strName : WStr} {pvData : Option (List UInt8)} {uSize : Nat}
    {pOpts : Option MsgOpts} {m : PostedMsg} (h : m ∈ (PostMsg env dest strName pvData uSize pOpts).2) :
    m = ⟨dest, strName, (pvData.getD []).take uSize, pOpts⟩ := by
  unfold PostMsg at h
  repeat' split at h
  all_goals first
    | cases h
    | (simp only at h
       repeat' split at h
       all_goals first
         | exact List.mem_singleton.mp h
         | cases h)

/-- SendMsg posts the payload and the fields of a message it has checked. -/
theorem mem_sendMsg {env : PostEnv} {dest topic : Option WStr} {pFm : FacadeMessage} {priority tag flags : UInt32}
    {m : PostedMsg} (h : m ∈ (SendMsg env dest topic (some pFm) priority tag flags).2) :
    totalSize pFm ≤ MAX_PAYLOAD ∧ m.aData = pFm.aPayload ∧ m.pOpts = some (pFm.opts priority tag flags) := by
  unfold SendMsg at h
  cases dest with
  | none => cases h
  | some dest =>
    cases topic with
    | none => cases h
    | some topic =>
      simp only at h
      by_cases h1 : topic.isEmpty = true
      · rw [if_pos h1] at h
        cases h
      by_cases h2 : (IsReservedName topic || IsPrivateName topic) = true
      · rw [if_neg h1, if_pos h2] at h
        cases h
      by_cases h3 : FAILED (CheckTotalSize pFm) = true
      · rw [if_neg h1, if_neg h2, if_pos h3] at h
        cases h
      rw [if_neg h1, if_neg h2, if_neg h3] at h
      obtain rfl := mem_postMsg h
      refine ⟨checkTotalSize_ok h3, ?_, rfl⟩
      show (pFm.data.getD []).take _ = _
      rw [data_getD, List.take_length]

/-- BroadcastMsg posts one frame and the fields of a message it has checked. -/
theorem mem_broadcastMsg {uWord : Nat} {env : PostEnv} {peers : Map WStr Bool} {topic : WStr} {pFm : FacadeMessage}
    {priority tag flags : UInt32} {m : PostedMsg}
    (h : m ∈ (BroadcastMsg uWord env peers (some topic) (some pFm) priority tag flags).2) :
    totalSize pFm ≤ MAX_PAYLOAD ∧ BroadcastAccepts uWord topic pFm.data (UInt32.ofNat pFm.aPayload.length) ∧
      m.aData = (broadcastFrame topic pFm.aPayload).take (sizeT uWord (4 + topic.length * 2 + pFm.aPayload.length)) ∧
      m.pOpts = some (pFm.opts priority tag flags) := by
  unfold BroadcastMsg at h
  simp only at h
  by_cases hsize : FAILED (CheckTotalSize pFm) = true
  · rw [if_pos hsize] at h
    cases h
  rw [if_neg hsize] at h
  by_cases hacc : BroadcastAccepts uWord topic pFm.data (UInt32.ofNat pFm.aPayload.length)
  · rw [broadcast_posts env peers _ hacc] at h
    obtain ⟨p, _, rfl⟩ := List.mem_map.mp h
    refine ⟨checkTotalSize_ok hsize, hacc, ?_, rfl⟩
    rw [data_getD, payload_size, List.take_length]
  · obtain ⟨hr, _, hrefused⟩ := broadcast_refused env peers (some (pFm.opts priority tag flags)) hacc
    rw [hrefused] at h
    cases h

/-! ## Every message within the limits is built -/

/-- One SetField for each field. -/
def setAll (aF : List { f // FieldOk f }) : List MsgCall :=
  aF.map fun f => .setField (some ⟨f.1.1, f.2.ended⟩) (some f.1.2) (UInt32.ofNat f.1.2.length)

theorem setField_ok {f : WStr × List UInt8} (hf : FieldOk f) {m : FacadeMessage}
    (hroom : m.aFields.length < MAX_FIELDS) :
    (SetField (some ⟨f.1, hf.ended⟩) (some f.2) (UInt32.ofNat f.2.length) m).2.aFields = Assoc.put f.1 f.2 m.aFields ∧
      (SetField (some ⟨f.1, hf.ended⟩) (some f.2) (UInt32.ofNat f.2.length) m).2.aPayload = m.aPayload := by
  have hvalue := hf.value
  have hsize : (UInt32.ofNat f.2.length).toNat = f.2.length := by
    rw [UInt32.toNat_ofNat']
    unfold MAX_FIELD_SIZE at hvalue
    omega
  have hlimit : ¬ (MAX_FIELD_NAME < f.1.length ∨ MAX_FIELD_SIZE < (UInt32.ofNat f.2.length).toNat) := by
    have hname := hf.name
    omega
  have hfull : ¬ (f.1 ∉ Assoc.keys m.aFields ∧ MAX_FIELDS ≤ m.aFields.length) := by omega
  have hnamed : ¬ f.1.isEmpty = true := by simpa using hf.named
  unfold SetField
  simp only [hnamed, hf.unreserved, hlimit, hfull, Option.isNone_some, Bool.false_and, Bool.false_eq_true, dif_neg,
    not_false_eq_true, if_false, Option.getD_some]
  rw [hsize, List.take_length]
  exact ⟨rfl, trivial⟩

theorem built_setAll {aF : List { f // FieldOk f }} (hle : aF.length ≤ MAX_FIELDS)
    (hd : (Assoc.keys (aF.map (·.1))).Nodup) :
    (built (setAll aF)).aFields = aF.map (·.1) ∧ (built (setAll aF)).aPayload = [] := by
  induction aF using List.reverseRecOn with
  | nil => exact ⟨rfl, rfl⟩
  | append_singleton aF f ih =>
    rw [List.length_append] at hle
    have hsplit : Assoc.keys ((aF ++ [f]).map (·.1)) = Assoc.keys (aF.map (·.1)) ++ [f.1.1] := by simp [Assoc.keys]
    rw [hsplit, List.nodup_append] at hd
    obtain ⟨hfields, hpayload⟩ := ih (by omega) hd.1
    have hnew : f.1.1 ∉ Assoc.keys (aF.map (·.1)) := fun hm => hd.2.2 _ hm _ (by simp) rfl
    have hlast : built (setAll (aF ++ [f])) = msgStep (built (setAll aF)) (.setField (some ⟨f.1.1, f.2.ended⟩) (some f.1.2)
        (UInt32.ofNat f.1.2.length)) := by
      unfold built setAll
      rw [List.map_append, exec_append]
      rfl
    have hroom : (built (setAll aF)).aFields.length < MAX_FIELDS := by
      rw [hfields, List.length_map]
      have : [f].length = 1 := rfl
      omega
    obtain ⟨hput, hkept⟩ := setField_ok f.2 hroom
    rw [hlast]
    constructor
    · rw [List.map_append, List.map_singleton, ← Assoc.put_new f.1.2 hnew, ← hfields]
      exact hput
    · exact hkept.trans hpayload

end TargetFacade
