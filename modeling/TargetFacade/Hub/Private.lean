/-
  TargetFacade.Hub.Private — the facade's own messages, "P2PF$...": their bodies, and what each
  asks of the pump that takes it (FacadeHub.cpp, HandlePrivate and On_AnyTopic).

  SetTimer, KillTimer, Post and Ping reach a pump as messages. A Ping and its Pong are taken
  from any hub; the other three only when the source is the hub's own address (`own_work`).
  The public verbs refuse the prefix, so no topic a client gives asks anything (`public_work`).
-/

import TargetFacade.Hub.Message
import TargetFacade.Lib.Words

namespace TargetFacade

open OrdMap Words

def kTopicTimer : WStr := L "P2PF$Timer"
def kTopicKill : WStr := L "P2PF$Kill"
def kTopicPost : WStr := L "P2PF$Post"
def kTopicPing : WStr := L "P2PF$Ping"
def kTopicPong : WStr := L "P2PF$Pong"

/-- The source is the address its sender built it with. -/
structure SentMsg where
  strSource : WStr
  oMsg : PostedMsg
  deriving DecidableEq, Repr

/-! ## Bodies -/

/-- PrivTimerBody, PrivKillBody and PrivPingBody. -/
def idBody (uId : UInt32) : List UInt8 := leBytes 4 uId.toNat

/-- PrivPostBody, packed. -/
def postBody (uKey : UInt32) (uContext : UInt64) : List UInt8 := leBytes 4 uKey.toNat ++ leBytes 8 uContext.toNat

def bodyId (aData : List UInt8) : UInt32 := UInt32.ofNat (leNat (aData.take 4))

def bodyContext (aData : List UInt8) : UInt64 := UInt64.ofNat (leNat ((aData.drop 4).take 8))

theorem ofNat_leBytes (n : UInt32) : UInt32.ofNat (leNat (leBytes 4 n.toNat)) = n := by
  have hlt : n.toNat < 256 ^ 4 := by
    have := n.toNat_lt
    omega
  rw [leNat_leBytes, Nat.mod_eq_of_lt hlt, UInt32.ofNat_toNat]

@[simp] theorem bodyId_idBody (uId : UInt32) : bodyId (idBody uId) = uId := by
  unfold bodyId idBody
  rw [List.take_of_length_le (by simp), ofNat_leBytes]

@[simp] theorem bodyId_postBody (uKey : UInt32) (uContext : UInt64) : bodyId (postBody uKey uContext) = uKey := by
  unfold bodyId postBody
  rw [List.take_left' (by simp), ofNat_leBytes]

@[simp] theorem bodyContext_postBody (uKey : UInt32) (uContext : UInt64) :
    bodyContext (postBody uKey uContext) = uContext := by
  have hlt : uContext.toNat < 256 ^ 8 := by
    have := uContext.toNat_lt
    omega
  unfold bodyContext postBody
  rw [List.drop_left' (by simp), List.take_of_length_le (by simp), leNat_leBytes,
    Nat.mod_eq_of_lt hlt, UInt64.ofNat_toNat]

/-! ## Dispatch -/

inductive PrivWork where
  /-- Post the ping's body back. -/
  | echo (strTo : WStr) (aData : List UInt8)
  | pong (uPingId : UInt32)
  | timer (uTimerId : UInt32)
  | kill (uTimerId : UInt32)
  | post (uKey : UInt32) (uContext : UInt64)
  | nothing
  deriving DecidableEq, Repr

def HandlePrivate (csAddress lpszTopic lpszSource : WStr) (aData : List UInt8) : PrivWork :=
  if lpszTopic = kTopicPing then
    if lpszSource.isEmpty then .nothing else .echo lpszSource aData
  else if lpszTopic = kTopicPong then
    if 4 ≤ aData.length then .pong (bodyId aData) else .nothing
  -- this hub's own plumbing, from this hub only
  else if lpszSource ≠ csAddress then .nothing
  else if lpszTopic = kTopicTimer ∧ 4 ≤ aData.length then .timer (bodyId aData)
  else if lpszTopic = kTopicKill ∧ 4 ≤ aData.length then .kill (bodyId aData)
  else if lpszTopic = kTopicPost ∧ 12 ≤ aData.length then .post (bodyId aData) (bodyContext aData)
  else .nothing

/-- What On_AnyTopic of the hub at `csAddress` gives HandlePrivate. -/
def SentMsg.work (csAddress : WStr) (m : SentMsg) : PrivWork :=
  if IsReservedName m.oMsg.strName then .nothing
  else if IsPrivateName m.oMsg.strName then HandlePrivate csAddress m.oMsg.strName m.strSource m.oMsg.aData
  else .nothing

/-- Work only the hub itself can ask for. -/
def PrivWork.Own : PrivWork → Prop
  | .timer _ | .kill _ | .post _ _ => True
  | _ => False

instance : DecidablePred PrivWork.Own
  | .timer _ | .kill _ | .post _ _ => isTrue trivial
  | .echo _ _ | .pong _ | .nothing => isFalse id

theorem public_work {m : SentMsg} (csAddress : WStr) (h : IsPrivateName m.oMsg.strName = false) :
    m.work csAddress = .nothing := by
  unfold SentMsg.work
  rw [h]
  split <;> rfl

/-- The hub's plumbing is moved by its own messages only. -/
theorem own_work {csAddress : WStr} {m : SentMsg} (h : (m.work csAddress).Own) :
    m.strSource = csAddress ∧ IsPrivateName m.oMsg.strName = true := by
  unfold SentMsg.work at h
  split at h
  · cases h
  split at h
  case isFalse => cases h
  rename_i hname
  refine ⟨?_, hname⟩
  unfold HandlePrivate at h
  split at h
  · split at h <;> cases h
  split at h
  · split at h <;> cases h
  split at h
  · cases h
  · rename_i hsrc
    exact Classical.not_not.mp hsrc

/-! ## The messages the hub posts -/

def msgTimer (csAddress : WStr) (uTimerId : UInt32) : SentMsg :=
  ⟨csAddress, csAddress, kTopicTimer, idBody uTimerId, none⟩

def msgKill (csAddress : WStr) (uTimerId : UInt32) : SentMsg :=
  ⟨csAddress, csAddress, kTopicKill, idBody uTimerId, none⟩

def msgPost (csAddress : WStr) (uKey : UInt32) (uContext : UInt64) : SentMsg :=
  ⟨csAddress, csAddress, kTopicPost, postBody uKey uContext, none⟩

def msgPing (csAddress peer : WStr) (uPingId : UInt32) : SentMsg := ⟨csAddress, peer, kTopicPing, idBody uPingId, none⟩

def msgPong (csAddress strTo : WStr) (uPingId : UInt32) : SentMsg := ⟨csAddress, strTo, kTopicPong, idBody uPingId, none⟩

theorem length_idBody (uId : UInt32) : (idBody uId).length = 4 := length_leBytes 4 _

theorem work_of_private {csAddress lpszTopic strSource : WStr} {strDest : WStr} {aData : List UInt8}
    (hres : IsReservedName lpszTopic = false) (hpriv : IsPrivateName lpszTopic = true) :
    SentMsg.work csAddress ⟨strSource, strDest, lpszTopic, aData, none⟩ =
      HandlePrivate csAddress lpszTopic strSource aData := by
  unfold SentMsg.work
  rw [if_neg (by simp [hres]), if_pos hpriv]

@[simp] theorem work_timer (csAddress : WStr) (uTimerId : UInt32) :
    (msgTimer csAddress uTimerId).work csAddress = .timer uTimerId := by
  unfold msgTimer
  rw [work_of_private rfl rfl]
  unfold HandlePrivate
  rw [if_neg (by decide), if_neg (by decide), if_neg (by simp), if_pos ⟨rfl, Nat.le_of_eq (length_idBody _).symm⟩, bodyId_idBody]

@[simp] theorem work_kill (csAddress : WStr) (uTimerId : UInt32) :
    (msgKill csAddress uTimerId).work csAddress = .kill uTimerId := by
  unfold msgKill
  rw [work_of_private rfl rfl]
  unfold HandlePrivate
  rw [if_neg (by decide), if_neg (by decide), if_neg (by simp), if_neg (fun h => absurd h.1 (by decide)),
    if_pos ⟨rfl, Nat.le_of_eq (length_idBody _).symm⟩, bodyId_idBody]

@[simp] theorem work_post (csAddress : WStr) (uKey : UInt32) (uContext : UInt64) :
    (msgPost csAddress uKey uContext).work csAddress = .post uKey uContext := by
  have hlen : (postBody uKey uContext).length = 12 := by
    unfold postBody
    rw [List.length_append, length_leBytes, length_leBytes]
  unfold msgPost
  rw [work_of_private rfl rfl]
  unfold HandlePrivate
  rw [if_neg (by decide), if_neg (by decide), if_neg (by simp), if_neg (fun h => absurd h.1 (by decide)),
    if_neg (fun h => absurd h.1 (by decide)), if_pos ⟨rfl, Nat.le_of_eq hlen.symm⟩, bodyId_postBody, bodyContext_postBody]

@[simp] theorem work_pong (csAddress strSource strTo : WStr) (uPingId : UInt32) :
    (msgPong strSource strTo uPingId).work csAddress = .pong uPingId := by
  unfold msgPong
  rw [work_of_private rfl rfl]
  unfold HandlePrivate
  rw [if_neg (by decide), if_pos rfl, if_pos (Nat.le_of_eq (length_idBody _).symm), bodyId_idBody]

/-- Only a ping is echoed, as it came. -/
theorem echo_work {csAddress strTo : WStr} {aData : List UInt8} {m : SentMsg} (h : m.work csAddress = .echo strTo aData) :
    m.oMsg.strName = kTopicPing ∧ strTo = m.strSource ∧ aData = m.oMsg.aData := by
  unfold SentMsg.work at h
  split at h
  · cases h
  split at h
  case isFalse => cases h
  unfold HandlePrivate at h
  split at h
  · rename_i hname
    split at h
    · cases h
    · obtain ⟨rfl, rfl⟩ := PrivWork.echo.inj h
      exact ⟨hname, rfl, rfl⟩
  · repeat' split at h
    all_goals cases h

/-- Only a pong is taken as an answer. -/
theorem pong_work {csAddress : WStr} {uPingId : UInt32} {m : SentMsg} (h : m.work csAddress = .pong uPingId) :
    m.oMsg.strName = kTopicPong ∧ bodyId m.oMsg.aData = uPingId := by
  unfold SentMsg.work at h
  split at h
  · cases h
  split at h
  case isFalse => cases h
  unfold HandlePrivate at h
  split at h
  · split at h <;> cases h
  split at h
  · rename_i hname
    split at h
    · exact ⟨hname, PrivWork.pong.inj h⟩
    · cases h
  · repeat' split at h
    all_goals cases h

/-- The hub of the runs that are written out. -/
def hubAddress : HubAddress := ⟨L "hub", by decide⟩

end TargetFacade
