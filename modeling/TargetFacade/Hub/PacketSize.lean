/-
  TargetFacade.Hub.PacketSize — what a message with fields takes of the kernel's packet, on the two
  paths that send one.

  CheckTotalSize bounds the payload and the fields together, and BroadcastInternal the frame. On
  SendMsg's path the first is enough. A broadcast carries the header and the topic beside what
  CheckTotalSize has counted, and no check adds the two up: up to 1022 characters of topic the
  headroom holds them, whatever the message, and for no longer topic.
-/

import TargetFacade.Hub.FieldNames

namespace TargetFacade

open OrdMap Runs

/-- What the kernel takes as one packet. -/
def MAX_P2Psize : Nat := 32768

/-- The names and the values of the fields, and the index. -/
def ItemTree.size (item : ItemTree) : Nat :=
  ((item.oFields.getD []).map fun f => f.1.length * 2 + f.2.length).sum + (item.oNames.getD []).length

def PostedMsg.packetSize (m : PostedMsg) : Nat := m.aData.length + m.tree.size

/-- Under this topic no message that is taken outgrows the packet. -/
structure PacketsFit (uWord : Nat) (topic : WStr) : Prop where
  send : ∀ calls env dest priority tag flags,
    ∀ m ∈ (SendMsg env dest (some topic) (some (built calls)) priority tag flags).2, m.packetSize ≤ MAX_P2Psize
  broadcast : ∀ calls env peers priority tag flags,
    ∀ m ∈ (BroadcastMsg uWord env peers (some topic) (some (built calls)) priority tag flags).2,
      m.packetSize ≤ MAX_P2Psize

/-! ## Sizes -/

/-- A field on the wire: its value, its name, and its place in the index. -/
def fieldsSize (aF : List (WStr × List UInt8)) : Nat := (aF.map fun f => f.2.length + f.1.length * 4 + 2).sum

theorem tree_size (pFm : FacadeMessage) : (declareFields (some pFm.aFields)).size = fieldsSize pFm.aFields := by
  have hitems := items_declared pFm
  generalize pFm.aFields = aF at hitems
  unfold declareFields
  by_cases he : aF = []
  · rw [he]
    rfl
  · have he' : aF.isEmpty = false := by simpa using he
    have hindex := @Tokens.joined_length _ 9 (aF.map (·.1)) (by simpa using he)
    rw [List.map_map] at hindex
    have hsum : (aF.map fun f => f.1.length * 2 + f.2.length).sum + (aF.map ((·.length + 1) ∘ (·.1))).sum * 2 =
        fieldsSize aF := by
      clear hitems he he' hindex
      induction aF with
      | nil => rfl
      | cons f aF ih =>
        unfold fieldsSize at ih ⊢
        simp only [List.map_cons, List.sum_cons, Function.comp] at ih ⊢
        omega
    simp only [he', hitems, Bool.false_eq_true, if_false]
    show (aF.map fun f => f.1.length * 2 + f.2.length).sum + (u16le.write _).length = _
    rw [Words.length_write, List.length_append, ← hsum, ← hindex]
    rfl

theorem totalSize_eq (pFm : FacadeMessage) : totalSize pFm =
    pFm.aPayload.length + (pFm.aFields.map fun f => f.2.length + f.1.length * 2 + kPerFieldOverhead).sum := by
  have hfold : ∀ (aF : List (WStr × List UInt8)) (uTotal : Nat),
      aF.foldl (fun uTotal f => uTotal + (f.2.length + f.1.length * 2 + kPerFieldOverhead)) uTotal =
        uTotal + (aF.map fun f => f.2.length + f.1.length * 2 + kPerFieldOverhead).sum := by
    intro aF
    induction aF with
    | nil => intro uTotal; rfl
    | cons f aF ih =>
      intro uTotal
      rw [List.foldl_cons, ih, List.map_cons, List.sum_cons]
      omega
  exact hfold _ _

/-- What a field takes beyond what it is charged for: its name once more, less the overhead. -/
theorem fieldsSize_le {aF : List (WStr × List UInt8)} (h : ∀ f ∈ aF, FieldOk f) :
    fieldsSize aF ≤ (aF.map fun f => f.2.length + f.1.length * 2 + kPerFieldOverhead).sum + aF.length * 96 := by
  induction aF with
  | nil => exact Nat.le_refl _
  | cons f aF ih =>
    have hrest := ih fun f' hf' => h f' (by simp [hf'])
    have hname : f.1.length ≤ 63 := (h f (by simp)).name
    unfold fieldsSize kPerFieldOverhead at hrest ⊢
    simp only [List.map_cons, List.sum_cons, List.length_cons] at hrest ⊢
    omega

theorem payload_fieldsSize_le {pFm : FacadeMessage} (h : totalSize pFm ≤ MAX_PAYLOAD) :
    pFm.aPayload.length + fieldsSize pFm.aFields ≤ 30720 := by
  have hfields := fieldsSize_le pFm.each
  have hcount : pFm.aFields.length ≤ 64 := pFm.fieldsLe
  rw [totalSize_eq] at h
  unfold MAX_PAYLOAD at h
  omega

/-! ## The two paths -/

theorem sendMsg_packetSize {env : PostEnv} {dest topic : Option WStr} {pFm : FacadeMessage}
    {priority tag flags : UInt32} {m : PostedMsg}
    (h : m ∈ (SendMsg env dest topic (some pFm) priority tag flags).2) : m.packetSize ≤ MAX_P2Psize := by
  obtain ⟨hsize, hdata, hopts⟩ := mem_sendMsg h
  have hle := payload_fieldsSize_le hsize
  unfold PostedMsg.packetSize MAX_P2Psize
  rw [hdata, tree_posted hopts, tree_size]
  omega

theorem broadcastMsg_packetSize {uWord : Nat} (hw : 32 ≤ uWord) {env : PostEnv} {peers : Map WStr Bool} {topic : WStr}
    {pFm : FacadeMessage} {priority tag flags : UInt32} {m : PostedMsg}
    (h : m ∈ (BroadcastMsg uWord env peers (some topic) (some pFm) priority tag flags).2) :
    m.packetSize = 4 + topic.length * 2 + pFm.aPayload.length + fieldsSize pFm.aFields := by
  obtain ⟨_, hacc, hdata, hopts⟩ := mem_broadcastMsg h
  have hpayload : pFm.aPayload.length ≤ 24576 := pFm.payloadLe
  have hchars := hacc.chars
  have hframe : sizeT uWord (4 + topic.length * 2 + pFm.aPayload.length) = 4 + topic.length * 2 + pFm.aPayload.length :=
    sizeT_small hw (by omega)
  unfold PostedMsg.packetSize
  rw [hdata, tree_posted hopts, tree_size, hframe, ← frame_length, List.take_length]

/-- A topic that is taken with a payload is taken without one. -/
theorem accepts_empty {uWord : Nat} (hw : 32 ≤ uWord) {topic : WStr} {pFm : FacadeMessage}
    (h : BroadcastAccepts uWord topic pFm.data (UInt32.ofNat pFm.aPayload.length)) : BroadcastAccepts uWord topic none 0 := by
  have hpayload : pFm.aPayload.length ≤ 24576 := pFm.payloadLe
  have hchars := h.chars
  have hframe := h.frame
  rw [payload_size, sizeT_small hw (by omega)] at hframe
  refine ⟨h.named, h.reserved, h.private_, fun _ => rfl, hchars, ?_⟩
  rw [sizeT_small hw (by simp; omega)]
  simp
  omega

/-! ## The largest message -/

/-- Of 64 fields with names as long as they may be, which take all that CheckTotalSize allows. -/
def fullField (i : Fin 64) : WStr × List UInt8 :=
  (UInt16.ofNat (97 + i.val) :: List.replicate 62 97, List.replicate 226 0)

theorem fullField_ok (i : Fin 64) : FieldOk (fullField i) where
  named := List.cons_ne_nil _ _
  ended := (by decide +kernel : ∀ i : Fin 64, 0 ∉ (fullField i).1) i
  unreserved := (by decide +kernel : ∀ i : Fin 64, IsReservedField (fullField i).1 = false) i
  name := (by decide +kernel : ∀ i : Fin 64, (fullField i).1.length ≤ MAX_FIELD_NAME) i
  value := (by decide +kernel : ∀ i : Fin 64, (fullField i).2.length ≤ MAX_FIELD_SIZE) i

def fullMsg : List MsgCall := setAll ((List.finRange 64).map fun i => ⟨fullField i, fullField_ok i⟩)

theorem fullMsg_built :
    (built fullMsg).aFields = (List.finRange 64).map fullField ∧ (built fullMsg).aPayload = [] := by
  have hmap : ((List.finRange 64).map fun i => (⟨fullField i, fullField_ok i⟩ : { f // FieldOk f })).map (·.1) =
      (List.finRange 64).map fullField := by rw [List.map_map]; rfl
  have h := @built_setAll ((List.finRange 64).map fun i => ⟨fullField i, fullField_ok i⟩) (by decide) (by
    rw [hmap]
    decide +kernel)
  rw [hmap] at h
  exact h

def onePeer : Map WStr Bool := (∅ : Map WStr Bool).insert (L "hub") true

/-- The largest message is taken under every topic that is taken at all. -/
theorem fullMsg_posted {uWord : Nat} {topic : WStr} (h : BroadcastAccepts uWord topic none 0) :
    ∃ m, m ∈ (BroadcastMsg uWord {} onePeer (some topic) (some (built fullMsg)) 0 0 0).2 := by
  obtain ⟨hfields, hpayload⟩ := fullMsg_built
  have hdata : (built fullMsg).data = none := by
    unfold FacadeMessage.data
    rw [hpayload]
    rfl
  have hcheck : ¬ FAILED (CheckTotalSize (built fullMsg)) = true := by
    have hsize : ¬ MAX_PAYLOAD < totalSize (built fullMsg) := by
      rw [totalSize_eq, hfields, hpayload]
      decide +kernel
    unfold CheckTotalSize
    rw [if_neg hsize]
    exact Bool.false_ne_true
  have hup : L "hub" ∈ upPeers onePeer := mem_upPeers.mpr (by decide +kernel)
  unfold BroadcastMsg
  simp only
  rw [if_neg hcheck, hdata, hpayload]
  show ∃ m, m ∈ (BroadcastInternal uWord {} onePeer (some topic) none 0 _).2
  rw [broadcast_posts {} onePeer _ h]
  refine ⟨_, List.mem_map_of_mem (List.mem_filter.mpr ⟨hup, ?_⟩)⟩
  unfold PostEnv.Reaches
  simp

theorem fullMsg_packetSize {uWord : Nat} (hw : 32 ≤ uWord) {topic : WStr} {m : PostedMsg}
    (h : m ∈ (BroadcastMsg uWord {} onePeer (some topic) (some (built fullMsg)) 0 0 0).2) :
    m.packetSize = 30724 + topic.length * 2 := by
  have hfields : fieldsSize (built fullMsg).aFields = 30720 := by
    rw [fullMsg_built.1]
    decide +kernel
  rw [broadcastMsg_packetSize hw h, fullMsg_built.2, hfields, List.length_nil]
  omega

/-- BroadcastMsg takes "x", "xx" and so on, up to the length of a frame. -/
theorem plain_taken {uWord : Nat} (hw : 32 ≤ uWord) {n : Nat} (h : n < 12286) :
    BroadcastAccepts uWord (List.replicate (n + 1) 120) none 0 := by
  have hlen : (List.replicate (n + 1) (120 : WChar)).length = n + 1 := List.length_replicate
  refine ⟨List.cons_ne_nil _ _, rfl, rfl, fun _ => rfl, ?_, ?_⟩
  · rw [hlen]
    omega
  · rw [hlen]
    show sizeT uWord (4 + (n + 1) * 2) ≤ 24576
    rw [sizeT_small hw (by omega)]
    omega

/-- A message SendMsg takes fits. Every message BroadcastMsg takes under a topic of up to 1022 characters
    fits, and under no longer topic that it takes do all; one message fits when the frame and the fields do. -/
theorem packets_fit_iff {uWord : Nat} (hw : 32 ≤ uWord) (topic : WStr) :
    (PacketsFit uWord topic ↔ topic.length ≤ 1022 ∨ ¬ BroadcastAccepts uWord topic none 0) ∧
    ∀ calls env,
      (∀ dest priority tag flags, ∀ m ∈ (SendMsg env dest (some topic) (some (built calls)) priority tag flags).2,
        m.packetSize ≤ MAX_P2Psize) ∧
      ∀ peers priority tag flags,
        ∀ m ∈ (BroadcastMsg uWord env peers (some topic) (some (built calls)) priority tag flags).2,
          (m.packetSize ≤ MAX_P2Psize ↔ 4 + topic.length * 2 + (built calls).aPayload.length +
            fieldsSize (built calls).aFields ≤ MAX_P2Psize) := by
  constructor
  · constructor
    · intro h
      by_cases hacc : BroadcastAccepts uWord topic none 0
      · obtain ⟨m, hm⟩ := fullMsg_posted hacc
        have hfits := h.broadcast _ _ _ _ _ _ m hm
        rw [fullMsg_packetSize hw hm] at hfits
        unfold MAX_P2Psize at hfits
        exact Or.inl (by omega)
      · exact Or.inr hacc
    · intro h
      refine ⟨fun calls env dest priority tag flags m hm => sendMsg_packetSize hm,
        fun calls env peers priority tag flags m hm => ?_⟩
      obtain ⟨hsize, hacc, -, -⟩ := mem_broadcastMsg hm
      rcases h with hshort | hno
      · have hle := payload_fieldsSize_le hsize
        rw [broadcastMsg_packetSize hw hm]
        unfold MAX_P2Psize
        omega
      · exact absurd (accepts_empty hw hacc) hno
  · intro calls env
    constructor
    · intro dest priority tag flags m hm
      exact sendMsg_packetSize hm
    · intro peers priority tag flags m hm
      rw [broadcastMsg_packetSize hw hm]

/-- The longest topic under which every message fits, and the next one. -/
theorem packets_fit_longest : PacketsFit 64 (List.replicate 1022 120) ∧ ¬ PacketsFit 64 (List.replicate 1023 120) := by
  constructor
  · refine (packets_fit_iff (by decide) _).1.mpr (Or.inl ?_)
    rw [List.length_replicate]
  · intro h
    rcases (packets_fit_iff (by decide) _).1.mp h with hle | hno
    · rw [List.length_replicate] at hle
      omega
    · exact hno (@plain_taken 64 (by decide) 1022 (by decide))

/-- A topic of 1023 characters and the largest message: taken, and two bytes over. -/
theorem packet_overrun :
    ∃ m ∈ (BroadcastMsg 64 {} onePeer (some (List.replicate 1023 120)) (some (built fullMsg)) 0 0 0).2,
      m.packetSize = MAX_P2Psize + 2 := by
  obtain ⟨m, hm⟩ := fullMsg_posted (@plain_taken 64 (by decide) 1022 (by decide))
  refine ⟨m, hm, ?_⟩
  rw [fullMsg_packetSize (by decide) hm, List.length_replicate]
  rfl

end TargetFacade
