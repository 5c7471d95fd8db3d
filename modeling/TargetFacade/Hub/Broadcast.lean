/-
  TargetFacade.Hub.Broadcast — BroadcastInternal and PostMsg: the guards, the frame and the
  peers a copy is posted to (FacadeHub.cpp, "Sending").

  A copy is posted to each peer whose row is up in one locked reading of m_mapPeers, in key
  order. `uWord` is the number of bits of size_t.
-/

import TargetFacade.Hub.RetireSpec

namespace TargetFacade

open OrdMap

/-- The kernel's message names, "P2Pmsg...". -/
def IsReservedName (lpszName : WStr) : Bool := (L "P2Pmsg").isPrefixOf lpszName

/-- The facade's own, "P2PF$...". -/
def IsPrivateName (lpszName : WStr) : Bool := (L "P2PF$").isPrefixOf lpszName

def P2Pmsg_BCast : WStr := L "P2PmsgBCast"

def MAX_PAYLOAD : Nat := 24 * 1024

def kBCastMagic : UInt16 := 0xF2CA

/-- A sum kept in a size_t. -/
def sizeT (uWord n : Nat) : Nat := (BitVec.ofNat uWord n).toNat

/-- Little-endian. -/
def u16Bytes (n : UInt16) : List UInt8 := [n.toUInt8, (n >>> 8).toUInt8]

/-- [magic][topicChars][topic, no NUL][payload]. -/
def broadcastFrame (topic : WStr) (payload : List UInt8) : List UInt8 :=
  u16Bytes kBCastMagic ++ u16Bytes topic.length.toUInt16 ++ topic.flatMap u16Bytes ++ payload

structure MsgOpts where
  uPriority : UInt32
  uTag : UInt32
  uFlags : UInt32
  /-- The named fields of a message object. -/
  pFields : Option (List (WStr × List UInt8)) := none
  deriving DecidableEq, Repr

structure PostedMsg where
  strDest : WStr
  strName : WStr
  aData : List UInt8
  pOpts : Option MsgOpts
  deriving DecidableEq, Repr

/-- What the kernel answers, by destination. -/
structure PostEnv where
  /-- The message tree takes the fields. -/
  declares : WStr → Bool := fun _ => true
  /-- The pump is there to take the message. -/
  takes : WStr → Bool := fun _ => true

/-- `pvData` is none when it is NULL, and `uSize` the size the caller gives. -/
def PostMsg (env : PostEnv) (dest strName : WStr) (pvData : Option (List UInt8)) (uSize : Nat) (pOpts : Option MsgOpts) :
    HRESULT × List PostedMsg :=
  if MAX_PAYLOAD < uSize then (E_INVALIDARG, [])
  else if pvData.isNone && uSize ≠ 0 then (E_POINTER, [])
  else
    let bFields := pOpts.any fun o => o.pFields.any (!·.isEmpty)
    if bFields && !env.declares dest then (.E_FAIL, [])
    else if !env.takes dest then (P2PF_E_CLOSED, [])
    else (S_OK, [⟨dest, strName, (pvData.getD []).take uSize, pOpts⟩])

/-- Send and SendEx: every guard is the same, and SendEx has options. `dest` and `topic` are none when they are
    NULL. -/
def SendGuarded (env : PostEnv) (dest topic : Option WStr) (payload : Option (List UInt8)) (size : UInt32)
    (pOpts : Option MsgOpts) : HRESULT × List PostedMsg :=
  match dest, topic with
  | some dest, some topic =>
    if topic.isEmpty then (E_INVALIDARG, [])
    else if IsReservedName topic || IsPrivateName topic then (P2PF_E_RESERVED_TOPIC, [])
    else PostMsg env dest topic payload size.toNat pOpts
  | _, _ => (E_POINTER, [])

def Send (env : PostEnv) (dest topic : Option WStr) (payload : Option (List UInt8)) (size : UInt32) :
    HRESULT × List PostedMsg := SendGuarded env dest topic payload size none

def SendEx (env : PostEnv) (dest topic : Option WStr) (payload : Option (List UInt8)) (size : UInt32)
    (priority tag flags : UInt32) : HRESULT × List PostedMsg :=
  SendGuarded env dest topic payload size (some { uPriority := priority, uTag := tag, uFlags := flags })

/-- With its terminator. -/
def SendText (env : PostEnv) (dest topic text : Option WStr) : HRESULT × List PostedMsg :=
  match text with
  | none => (E_POINTER, [])
  | some text =>
    let uBytes := (text.length + 1) * 2
    if MAX_PAYLOAD < uBytes then (E_INVALIDARG, [])
    else Send env dest topic (some ((text ++ [0]).flatMap u16Bytes)) (UInt32.ofNat uBytes)

/-- The peers that are up, as the locked section copies them. -/
def upPeers (peers : Map WStr Bool) : List WStr := (peers.toList.filter (·.2)).map (·.1)

/-- One PostMsg a peer; the last failure is the answer. -/
def postAll (env : PostEnv) (aFrame : List UInt8) (uFrame : Nat) (pOpts : Option MsgOpts) :
    List WStr → HRESULT → HRESULT × List PostedMsg
  | [], hrLast => (hrLast, [])
  | peer :: rest, hrLast =>
    let (hr, posted) := PostMsg env peer P2Pmsg_BCast (some aFrame) uFrame pOpts
    let (hrLast, more) := postAll env aFrame uFrame pOpts rest (if FAILED hr then hr else hrLast)
    (hrLast, posted ++ more)

/-- `topic` and `payload` are none when they are NULL. -/
def BroadcastInternal (uWord : Nat) (env : PostEnv) (peers : Map WStr Bool) (topic : Option WStr)
    (payload : Option (List UInt8)) (size : UInt32) (pOpts : Option MsgOpts) : HRESULT × List PostedMsg :=
  match topic with
  | none => (E_POINTER, [])
  | some topic =>
    if topic.isEmpty then (E_INVALIDARG, [])
    else if IsReservedName topic || IsPrivateName topic then (P2PF_E_RESERVED_TOPIC, [])
    else if payload.isNone && size ≠ 0 then (E_POINTER, [])
    else
      let uTopicChars := topic.length
      let uFrame := sizeT uWord (4 + uTopicChars * 2 + size.toNat)
      if 0xFFFF < uTopicChars || MAX_PAYLOAD < uFrame then (E_INVALIDARG, [])
      else
        let aFrame := broadcastFrame topic ((payload.getD []).take size.toNat)
        let aPeers := upPeers peers
        if aPeers.isEmpty then (S_FALSE, [])
        else postAll env aFrame uFrame pOpts aPeers S_OK

def Broadcast (uWord : Nat) (env : PostEnv) (peers : Map WStr Bool) (topic : Option WStr)
    (payload : Option (List UInt8)) (size : UInt32) : HRESULT × List PostedMsg :=
  BroadcastInternal uWord env peers topic payload size none

def BroadcastEx (uWord : Nat) (env : PostEnv) (peers : Map WStr Bool) (topic : Option WStr)
    (payload : Option (List UInt8)) (size : UInt32) (priority tag flags : UInt32) : HRESULT × List PostedMsg :=
  BroadcastInternal uWord env peers topic payload size (some { uPriority := priority, uTag := tag, uFlags := flags })

/-! ## Who gets a copy -/

theorem mem_upPeers {peers : Map WStr Bool} {p : WStr} : p ∈ upPeers peers ↔ IsPeerUp peers p = true := by
  have hget : ∀ b, (p, b) ∈ peers.toList ↔ peers[p]? = some b := fun b => Std.ExtTreeMap.mem_toList_iff_getElem?_eq_some
  unfold upPeers IsPeerUp
  rw [List.mem_map]
  constructor
  · intro h
    obtain ⟨⟨q, b⟩, hm, rfl⟩ := h
    obtain ⟨hm, hb⟩ := List.mem_filter.mp hm
    have hb' : b = true := hb
    subst hb'
    rw [(hget true).mp hm]
    rfl
  · intro h
    cases hp : peers[p]? with
    | none => rw [hp] at h; cases h
    | some b =>
      rw [hp] at h
      have hb : b = true := h
      subst hb
      exact ⟨(p, true), List.mem_filter.mpr ⟨(hget true).mpr hp, rfl⟩, rfl⟩

theorem nodup_upPeers (peers : Map WStr Bool) : (upPeers peers).Nodup := by
  have hd := Std.ExtTreeMap.distinct_keys_toList (t := peers)
  unfold upPeers List.Nodup
  rw [List.pairwise_map]
  refine (List.Pairwise.filter _ hd).imp fun {a b} hne he => ?_
  exact hne (by simp [he])

/-- The kernel takes a copy for `p`. -/
def PostEnv.Reaches (env : PostEnv) (pOpts : Option MsgOpts) (p : WStr) : Bool :=
  (!(pOpts.any fun o => o.pFields.any (!·.isEmpty)) || env.declares p) && env.takes p

theorem postMsg_posts (env : PostEnv) (p strName : WStr) (aData : List UInt8) {uSize : Nat} (pOpts : Option MsgOpts)
    (h : uSize ≤ MAX_PAYLOAD) :
    (PostMsg env p strName (some aData) uSize pOpts).2 =
      if env.Reaches pOpts p then [⟨p, strName, aData.take uSize, pOpts⟩] else [] := by
  have hsize : ¬ MAX_PAYLOAD < uSize := Nat.not_lt.mpr h
  unfold PostMsg PostEnv.Reaches
  simp only [hsize, if_false, Option.isNone_some, Bool.false_and, Bool.false_eq_true, Option.getD_some]
  generalize (pOpts.any fun o => o.pFields.any (!·.isEmpty)) = bFields
  cases bFields <;> cases env.declares p <;> cases env.takes p <;> rfl

theorem postAll_posts (env : PostEnv) (aFrame : List UInt8) {uFrame : Nat} (pOpts : Option MsgOpts) (h : uFrame ≤ MAX_PAYLOAD) :
    ∀ (ps : List WStr) (hr : HRESULT), (postAll env aFrame uFrame pOpts ps hr).2 =
      (ps.filter (env.Reaches pOpts)).map fun p => ⟨p, P2Pmsg_BCast, aFrame.take uFrame, pOpts⟩ := by
  intro ps
  induction ps with
  | nil => intro hr; rfl
  | cons p ps ih =>
    intro hr
    have hpost := postMsg_posts env p P2Pmsg_BCast aFrame pOpts h
    unfold postAll
    simp only [ih]
    rw [hpost, List.filter_cons]
    split <;> rfl

/-- The arguments a broadcast gets past its guards with. -/
structure BroadcastAccepts (uWord : Nat) (topic : WStr) (payload : Option (List UInt8)) (size : UInt32) : Prop where
  named : topic ≠ []
  reserved : IsReservedName topic = false
  private_ : IsPrivateName topic = false
  data : payload = none → size = 0
  chars : topic.length ≤ 0xFFFF
  frame : sizeT uWord (4 + topic.length * 2 + size.toNat) ≤ MAX_PAYLOAD

/-- Past its guards a broadcast has just these arguments. -/
theorem broadcast_refused {uWord : Nat} (env : PostEnv) (peers : Map WStr Bool) {topic : WStr}
    {payload : Option (List UInt8)} {size : UInt32} (pOpts : Option MsgOpts)
    (h : ¬ BroadcastAccepts uWord topic payload size) :
    ∃ hr, FAILED hr = true ∧ BroadcastInternal uWord env peers (some topic) payload size pOpts = (hr, []) := by
  unfold BroadcastInternal
  by_cases h1 : topic.isEmpty = true
  · exact ⟨E_INVALIDARG, rfl, by simp only [h1, if_true]⟩
  by_cases h2 : (IsReservedName topic || IsPrivateName topic) = true
  · exact ⟨P2PF_E_RESERVED_TOPIC, rfl, by simp only [h1, h2, Bool.false_eq_true, if_true, if_false]⟩
  by_cases h3 : (payload.isNone && decide (size ≠ 0)) = true
  · exact ⟨E_POINTER, rfl, by simp only [h1, h2, h3, Bool.false_eq_true, if_true, if_false]⟩
  by_cases h4 : (decide (0xFFFF < topic.length) ||
      decide (MAX_PAYLOAD < sizeT uWord (4 + topic.length * 2 + size.toNat))) = true
  · exact ⟨E_INVALIDARG, rfl, by simp only [h1, h2, h3, h4, Bool.false_eq_true, if_true, if_false]⟩
  refine absurd ?_ h
  simp only [Bool.or_eq_true, not_or, Bool.not_eq_true] at h2
  simp only [Bool.or_eq_true, decide_eq_true_eq, not_or, Nat.not_lt] at h4
  refine ⟨by simpa using h1, h2.1, h2.2, fun hp => ?_, h4.1, h4.2⟩
  simpa [hp] using h3

/-- One copy of one frame goes to each peer that is up and that the kernel takes it for. -/
theorem broadcast_posts {uWord : Nat} (env : PostEnv) (peers : Map WStr Bool) {topic : WStr}
    {payload : Option (List UInt8)} {size : UInt32} (pOpts : Option MsgOpts)
    (h : BroadcastAccepts uWord topic payload size) :
    (BroadcastInternal uWord env peers (some topic) payload size pOpts).2 =
      ((upPeers peers).filter (env.Reaches pOpts)).map fun p =>
        ⟨p, P2Pmsg_BCast, (broadcastFrame topic ((payload.getD []).take size.toNat)).take
          (sizeT uWord (4 + topic.length * 2 + size.toNat)), pOpts⟩ := by
  have hn : topic.isEmpty = false := by simpa using h.named
  have hd : (payload.isNone && decide (size ≠ 0)) = false := by
    cases hp : payload with
    | none => simp [h.data hp]
    | some d => simp
  have hc : ¬ 0xFFFF < topic.length := Nat.not_lt.mpr h.chars
  have hf : ¬ MAX_PAYLOAD < sizeT uWord (4 + topic.length * 2 + size.toNat) := Nat.not_lt.mpr h.frame
  unfold BroadcastInternal
  simp only [hn, h.reserved, h.private_, Bool.or_self, Bool.false_eq_true, if_false, hd, hc, hf, decide_false]
  cases hup : (upPeers peers).isEmpty with
  | true =>
    rw [List.isEmpty_iff.mp hup]
    rfl
  | false =>
    simp only [Bool.false_eq_true, if_false]
    exact postAll_posts env _ pOpts h.frame _ _

end TargetFacade
