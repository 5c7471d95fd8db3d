/-
  TargetFacade.Hub.BroadcastGuard — the size guard of BroadcastInternal on the two platforms the
  DLL is built for, and the copies behind it (FacadeHub.cpp: BroadcastInternal).

  `BroadcastFrame` is the part of BroadcastInternal that makes the frame: the size it allocates
  and where its three copies go (`broadcast_frame`; `build_frame` is what they leave there). The
  sum the guard tests is a size_t. On x64 it is exact; on Win32 a size close to 2^32 brings it
  around to 0, and the guard lets it pass (`guard_iff`).
-/

import TargetFacade.Hub.BCastFrame

namespace TargetFacade

open OrdMap Words

/-- One memcpy into the frame. -/
structure FrameCopy where
  off : Nat
  len : Nat
  deriving DecidableEq, Repr

def FrameCopy.Inside (uFrame : Nat) (c : FrameCopy) : Prop := c.off + c.len ≤ uFrame

instance (uFrame : Nat) (c : FrameCopy) : Decidable (c.Inside uFrame) := inferInstanceAs (Decidable (_ ≤ _))

def sizeofBCastFrame : Nat := 4

/-- The header, the topic, and the payload when there is one. -/
def frameCopies (uWord : Nat) (topic : WStr) (size : UInt32) : List FrameCopy :=
  let uTopicChars := topic.length
  [⟨0, sizeofBCastFrame⟩, ⟨sizeofBCastFrame, sizeT uWord (uTopicChars * 2)⟩] ++
    if size ≠ 0 then [⟨sizeofBCastFrame + uTopicChars * 2, size.toNat⟩] else []

/-- BroadcastInternal up to its frame: what it refuses with, or the size of the frame and the copies into it. -/
def BroadcastFrame (uWord : Nat) (topic : Option WStr) (payload : Option (List UInt8)) (size : UInt32) :
    Except HRESULT (Nat × List FrameCopy) :=
  match topic with
  | none => .error E_POINTER
  | some topic =>
    if topic.isEmpty then .error E_INVALIDARG
    else if IsReservedName topic || IsPrivateName topic then .error P2PF_E_RESERVED_TOPIC
    else if payload.isNone && size ≠ 0 then .error E_POINTER
    else
      let uTopicChars := topic.length
      let uFrame := sizeT uWord (sizeofBCastFrame + uTopicChars * 2 + size.toNat)
      if 0xFFFF < uTopicChars || MAX_PAYLOAD < uFrame then .error E_INVALIDARG
      else .ok (uFrame, frameCopies uWord topic size)

/-- Header, topic bytes and size, as integers. -/
def exactFrame (topic : WStr) (size : UInt32) : Nat := sizeofBCastFrame + topic.length * 2 + size.toNat

/-- Past the guard the frame is no larger than a payload may be, and holds every copy. -/
def GuardSafe (p : Platform) (topic : WStr) (payload : Option (List UInt8)) (size : UInt32) : Prop :=
  ∀ uFrame copies, BroadcastFrame p.uWord (some topic) payload size = .ok (uFrame, copies) →
    exactFrame topic size ≤ MAX_PAYLOAD ∧ ∀ c ∈ copies, c.Inside uFrame

/-- A call that no other guard refuses, with a sum that size_t takes for one that MAX_PAYLOAD allows. -/
structure SumWraps (p : Platform) (topic : WStr) (payload : Option (List UInt8)) (size : UInt32) : Prop where
  platform : p = .Win32
  named : topic ≠ []
  reserved : IsReservedName topic = false
  private_ : IsPrivateName topic = false
  data : payload ≠ none
  chars : topic.length ≤ 0xFFFF
  above : 2 ^ 32 ≤ exactFrame topic size
  below : exactFrame topic size ≤ 2 ^ 32 + MAX_PAYLOAD

/-! ## The frame -/

/-- What BroadcastInternal does with what it has framed. -/
theorem broadcast_frame (uWord : Nat) (env : PostEnv) (peers : Map WStr Bool) (topic : Option WStr)
    (payload : Option (List UInt8)) (size : UInt32) (pOpts : Option MsgOpts) :
    BroadcastInternal uWord env peers topic payload size pOpts =
      match BroadcastFrame uWord topic payload size with
      | .error hr => (hr, [])
      | .ok (uFrame, _) =>
        let aFrame := broadcastFrame (topic.getD []) ((payload.getD []).take size.toNat)
        if (upPeers peers).isEmpty then (S_FALSE, []) else postAll env aFrame uFrame pOpts (upPeers peers) S_OK := by
  unfold BroadcastInternal BroadcastFrame
  cases topic with
  | none => rfl
  | some topic =>
    simp only [Option.getD_some]
    by_cases h1 : topic.isEmpty = true
    · simp only [h1, if_true]
    by_cases h2 : (IsReservedName topic || IsPrivateName topic) = true
    · simp only [h1, h2, Bool.false_eq_true, if_true, if_false]
    by_cases h3 : (payload.isNone && decide (size ≠ 0)) = true
    · simp only [h1, h2, h3, Bool.false_eq_true, if_true, if_false]
    have hsum : sizeofBCastFrame + topic.length * 2 + size.toNat = 4 + topic.length * 2 + size.toNat := rfl
    rw [hsum]
    by_cases h4 : (decide (0xFFFF < topic.length) ||
        decide (MAX_PAYLOAD < sizeT uWord (4 + topic.length * 2 + size.toNat))) = true
    · simp only [h1, h2, h3, h4, Bool.false_eq_true, if_true, if_false]
    · simp only [h1, h2, h3, h4, Bool.false_eq_true, if_false]

/-- Past its guards a frame is made of just these arguments. -/
theorem frame_ok_iff {uWord : Nat} {topic : WStr} {payload : Option (List UInt8)} {size : UInt32} {out : Nat × List FrameCopy} :
    BroadcastFrame uWord (some topic) payload size = .ok out ↔
      BroadcastAccepts uWord topic payload size ∧ (sizeT uWord (exactFrame topic size), frameCopies uWord topic size) = out := by
  unfold BroadcastFrame exactFrame
  constructor
  · intro h
    simp only at h
    split at h
    · cases h
    rename_i h1
    split at h
    · cases h
    rename_i h2
    split at h
    · cases h
    rename_i h3
    split at h
    · cases h
    rename_i h4
    simp only [Bool.or_eq_true, not_or, Bool.not_eq_true] at h2
    simp only [Bool.or_eq_true, decide_eq_true_eq, not_or, Nat.not_lt] at h4
    refine ⟨⟨by simpa using h1, h2.1, h2.2, fun hp => ?_, h4.1, h4.2⟩, Except.ok.inj h⟩
    simpa [hp] using h3
  · intro ⟨hacc, hout⟩
    have hn : topic.isEmpty = false := by simpa using hacc.named
    have hd : (payload.isNone && decide (size ≠ 0)) = false := by
      cases hp : payload with
      | none => simp [hacc.data hp]
      | some d => simp
    have hc : ¬ 0xFFFF < topic.length := Nat.not_lt.mpr hacc.chars
    have hf : ¬ MAX_PAYLOAD < sizeT uWord (sizeofBCastFrame + topic.length * 2 + size.toNat) := Nat.not_lt.mpr hacc.frame
    simp only [hn, hacc.reserved, hacc.private_, Bool.or_self, Bool.false_eq_true, if_false, hd, hc, hf, decide_false, hout]

/-! ## The copies -/

/-- Without a wrap the three copies lie in the frame. -/
theorem copies_inside {uWord : Nat} {topic : WStr} {size : UInt32} (h : sizeT uWord (exactFrame topic size) = exactFrame topic size) :
    ∀ c ∈ frameCopies uWord topic size, c.Inside (sizeT uWord (exactFrame topic size)) := by
  have htopic := sizeT_le uWord (topic.length * 2)
  rw [h]
  intro c hc
  unfold frameCopies at hc
  unfold FrameCopy.Inside exactFrame
  rcases List.mem_append.mp hc with hc | hc
  · rw [List.mem_cons, List.mem_singleton] at hc
    rcases hc with rfl | rfl
    · simp only; omega
    · simp only; omega
  · split at hc
    · rcases List.mem_singleton.mp hc with rfl
      simp only; omega
    · cases hc

/-- A memcpy into a frame; none is a copy outside of it. -/
def memcpy (aFrame : List UInt8) (off : Nat) (bytes : List UInt8) : Option (List UInt8) :=
  if off + bytes.length ≤ aFrame.length then some (aFrame.take off ++ bytes ++ aFrame.drop (off + bytes.length)) else none

theorem memcpy_at (before after : List UInt8) {old bytes : List UInt8} (h : bytes.length = old.length) :
    memcpy (before ++ old ++ after) before.length bytes = some (before ++ bytes ++ after) := by
  unfold memcpy
  rw [if_pos (by simp [h])]
  simp [h, List.drop_append]

/-- A frame of the exact size, with the header, the topic and the payload copied into it one after the other, is the
    frame that is posted. -/
theorem build_frame (topic : WStr) (payload : List UInt8) :
    (do
      let aFrame := List.replicate (sizeofBCastFrame + topic.length * 2 + payload.length) 0
      let aFrame ← memcpy aFrame 0 (u16Bytes kBCastMagic ++ u16Bytes topic.length.toUInt16)
      let aFrame ← memcpy aFrame sizeofBCastFrame (topic.flatMap u16Bytes)
      memcpy aFrame (sizeofBCastFrame + topic.length * 2) payload) = some (broadcastFrame topic payload) := by
  let header := u16Bytes kBCastMagic ++ u16Bytes topic.length.toUInt16
  let n := topic.length * 2
  let zeros (k : Nat) : List UInt8 := List.replicate k 0
  have htopic : (topic.flatMap u16Bytes).length = n := length_write u16le topic
  have hzeros : zeros (sizeofBCastFrame + n + payload.length) = [] ++ zeros sizeofBCastFrame ++ (zeros n ++ zeros payload.length) := by
    simp [zeros, List.replicate_append_replicate, Nat.add_assoc]
  have hone : memcpy (zeros (sizeofBCastFrame + n + payload.length)) 0 header =
      some (header ++ zeros n ++ zeros payload.length) := by
    rw [hzeros]
    have hlen : header.length = (zeros sizeofBCastFrame).length := rfl
    have h := memcpy_at [] (zeros n ++ zeros payload.length) hlen
    simpa using h
  have htwo : memcpy (header ++ zeros n ++ zeros payload.length) sizeofBCastFrame (topic.flatMap u16Bytes) =
      some (header ++ topic.flatMap u16Bytes ++ zeros payload.length) := memcpy_at _ _ (by simp [zeros, htopic])
  have hthree : memcpy (header ++ topic.flatMap u16Bytes ++ zeros payload.length) (sizeofBCastFrame + n) payload =
      some (header ++ topic.flatMap u16Bytes ++ payload) := by
    have hlen : payload.length = (zeros payload.length).length := by simp [zeros]
    have h := memcpy_at (header ++ topic.flatMap u16Bytes) [] hlen
    have hoff : (header ++ topic.flatMap u16Bytes).length = sizeofBCastFrame + n := by
      rw [List.length_append, htopic]
      rfl
    simpa [hoff] using h
  show (memcpy (zeros _) 0 header).bind _ = _
  rw [hone]
  show (memcpy _ _ _).bind _ = _
  rw [htwo]
  exact hthree

/-! ## The guard -/

theorem sizeT_over {n : Nat} (h : 2 ^ 32 ≤ n) (h' : n < 2 ^ 33) : sizeT 32 n = n - 2 ^ 32 := by
  unfold sizeT
  rw [BitVec.toNat_ofNat]
  omega

theorem exactFrame_lt {topic : WStr} (size : UInt32) (h : topic.length ≤ 0xFFFF) : exactFrame topic size < 2 ^ 33 := by
  have hsize := size.toNat_lt
  unfold exactFrame sizeofBCastFrame
  omega

theorem guard_iff (p : Platform) (topic : WStr) (payload : Option (List UInt8)) (size : UInt32) :
    GuardSafe p topic payload size ↔ ¬ SumWraps p topic payload size := by
  constructor
  · intro hsafe hwrap
    obtain ⟨rfl, hnamed, hres, hpriv, hdata, hchars, habove, hbelow⟩ := hwrap
    have hsum := sizeT_over habove (exactFrame_lt size hchars)
    have hfits : sizeT 32 (exactFrame topic size) ≤ MAX_PAYLOAD := by omega
    have hok := frame_ok_iff.mpr ⟨⟨hnamed, hres, hpriv, fun h => absurd h hdata, hchars, hfits⟩, rfl⟩
    have hle := (hsafe _ _ hok).1
    exact absurd (Nat.le_trans habove hle) (by decide)
  · intro hnot uFrame copies hok
    obtain ⟨hacc, hout⟩ := frame_ok_iff.mp hok
    obtain ⟨rfl, rfl⟩ := Prod.mk.inj hout
    have hlt := exactFrame_lt size hacc.chars
    have hexact : sizeT p.uWord (exactFrame topic size) = exactFrame topic size := by
      cases p with
      | x64 =>
        refine Nat.mod_eq_of_lt ?_
        exact Nat.lt_of_lt_of_le hlt (by decide)
      | Win32 =>
        by_cases habove : 2 ^ 32 ≤ exactFrame topic size
        · have hframe : sizeT 32 (exactFrame topic size) ≤ MAX_PAYLOAD := hacc.frame
          rw [sizeT_over habove hlt] at hframe
          refine absurd ⟨rfl, hacc.named, hacc.reserved, hacc.private_, ?_, hacc.chars, habove, by omega⟩ hnot
          intro hnone
          rw [exactFrame, hacc.data hnone] at habove
          have hchars := hacc.chars
          simp only [sizeofBCastFrame, UInt32.toNat_zero] at habove
          omega
        · exact sizeT_small (by decide) (by omega)
    refine ⟨?_, copies_inside hexact⟩
    have hframe : sizeT p.uWord (exactFrame topic size) ≤ MAX_PAYLOAD := hacc.frame
    rwa [hexact] at hframe

/-- A topic of one character and a size of 2^32 - 6: the frame is allocated with no bytes at all. -/
theorem guard_wraps : ¬ GuardSafe .Win32 (L "t") (some []) 0xFFFFFFFA := by
  intro h
  exact absurd (h 0 (frameCopies 32 (L "t") 0xFFFFFFFA) (by decide)).1 (by decide)

end TargetFacade
