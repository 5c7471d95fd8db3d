/-
  TargetFacade.Hub.BCastFrame — the frame of a broadcast: what On_P2PeerBCast makes of a body,
  and of the bodies BroadcastInternal posts.

  A body is framed when it begins with the magic and holds the topic it claims (`Framed`); the
  decoder takes every other body whole. It never reads outside the body (`readAt` is none there).
  The topic goes to the sink as an LPCWSTR, so a claimed topic with a NUL in it is delivered up
  to the NUL, and only a claimed topic without one can be put back into the frame.
-/

import TargetFacade.Hub.Broadcast
import TargetFacade.Lib.Words
import Mathlib.Data.List.TakeWhile

namespace TargetFacade

open OrdMap Words

/-! ## Words -/

def u16Of : List UInt8 → UInt16
  | [a, b] => a.toUInt16 + (b.toUInt16 <<< 8)
  | _ => 0

theorem u16Of_bytes (n : UInt16) : u16Of (u16Bytes n) = n := by
  apply UInt16.toNat_inj.mp
  have hn := n.toNat_lt
  simp [u16Of, u16Bytes, UInt16.toNat_add, UInt16.toNat_shiftLeft, UInt16.toNat_shiftRight, Nat.shiftLeft_eq,
    Nat.shiftRight_eq_div_pow]
  omega

theorem u16Bytes_of (a b : UInt8) : u16Bytes (u16Of [a, b]) = [a, b] := by
  have ha := a.toNat_lt
  have hb := b.toNat_lt
  have hval : (a.toUInt16 + (b.toUInt16 <<< 8)).toNat = a.toNat + 256 * b.toNat := by
    simp [UInt16.toNat_add, UInt16.toNat_shiftLeft, Nat.shiftLeft_eq]
    omega
  have hlow : (a.toUInt16 + (b.toUInt16 <<< 8)).toUInt8 = a := by
    apply UInt8.toNat_inj.mp
    rw [UInt16.toNat_toUInt8, hval]
    omega
  have hhigh : ((a.toUInt16 + (b.toUInt16 <<< 8)) >>> 8).toUInt8 = b := by
    apply UInt8.toNat_inj.mp
    rw [UInt16.toNat_toUInt8, UInt16.toNat_shiftRight, hval]
    simp [Nat.shiftRight_eq_div_pow]
    omega
  show [(a.toUInt16 + (b.toUInt16 <<< 8)).toUInt8, ((a.toUInt16 + (b.toUInt16 <<< 8)) >>> 8).toUInt8] = [a, b]
  rw [hlow, hhigh]

/-- wchar_t and UINT16 in memory. -/
def u16le : Codec UInt16 UInt8 where
  width := 2
  enc := u16Bytes
  dec := u16Of
  length_enc _ := rfl
  dec_enc := u16Of_bytes
  enc_dec bs h := by
    match bs, h with
    | [a, b], _ => exact u16Bytes_of a b

theorem frame_eq (topic : WStr) (payload : List UInt8) :
    broadcastFrame topic payload =
      u16Bytes kBCastMagic ++ u16Bytes topic.length.toUInt16 ++ (u16le.write topic ++ payload) := by
  unfold broadcastFrame Codec.write
  rw [List.append_assoc]
  rfl

theorem frame_length (topic : WStr) (payload : List UInt8) :
    (broadcastFrame topic payload).length = 4 + topic.length * 2 + payload.length := by
  rw [frame_eq, List.length_append, @List.length_append _ (u16le.write topic), length_write, Nat.add_assoc]
  rfl

/-! ## The decoder -/

structure Delivered where
  lpszTopic : WStr
  aData : List UInt8
  deriving DecidableEq, Repr

/-- The bytes at an offset; none is a read outside the body. -/
def readAt (body : List UInt8) (off n : Nat) : Option (List UInt8) :=
  if off + n ≤ body.length then some ((body.drop off).take n) else none

/-- What a wide string is to a callee that takes an LPCWSTR. -/
def lpcwstr (s : WStr) : WStr := s.takeWhile (· ≠ 0)

/-- What is delivered of a message by name and body; the body is none when Data() has none. -/
def On_P2PeerBCast (c_name : WStr) (pvData : Option (List UInt8)) : Option Delivered :=
  match pvData with
  | none => some ⟨c_name, []⟩
  | some body => do
    let uSize := body.length
    let oHdr ← if 4 ≤ uSize then readAt body 0 4 else some [0, 0, 0, 0]
    let uMagic := u16Of (oHdr.take 2)
    let uTopicChars := u16Of (oHdr.drop 2)
    let uTopicBytes := uTopicChars.toNat * 2
    if uMagic = kBCastMagic ∧ 4 + uTopicBytes ≤ uSize then do
      let topic ← readAt body 4 uTopicBytes
      let csTopic := u16le.read uTopicChars.toNat topic
      let pvPayload ← readAt body (4 + uTopicBytes) (sizeT 32 (uSize - 4 - uTopicBytes))
      some ⟨lpcwstr csTopic, pvPayload⟩
    else do
      let pvPayload ← readAt body 0 (sizeT 32 uSize)
      some ⟨c_name, pvPayload⟩

/-! ## The frame -/

/-- The body begins with the magic and a topic's length, and holds that topic. -/
structure Framed (body : List UInt8) (uTopicChars : UInt16) : Prop where
  header : u16Bytes kBCastMagic ++ u16Bytes uTopicChars <+: body
  holds : 4 + uTopicChars.toNat * 2 ≤ body.length

/-- The topic a framed body claims, and what follows it. -/
def claimedTopic (body : List UInt8) (uTopicChars : UInt16) : WStr := u16le.read uTopicChars.toNat (body.drop 4)

def afterTopic (body : List UInt8) (uTopicChars : UInt16) : List UInt8 := body.drop (4 + uTopicChars.toNat * 2)

/-- What the decoder owes a body: `d` is what it delivers. -/
structure Decoded (c_name : WStr) (body : List UInt8) (d : Delivered) : Prop where
  framed : ∀ n, Framed body n → (claimedTopic body n).length = n.toNat ∧
    broadcastFrame (claimedTopic body n) (afterTopic body n) = body ∧
    d.lpszTopic = lpcwstr (claimedTopic body n) ∧
    d.aData = (afterTopic body n).take (sizeT 32 (afterTopic body n).length)
  reencodes : ∀ n, Framed body n → 0 ∉ claimedTopic body n → body.length < 4294967296 →
    broadcastFrame d.lpszTopic d.aData = body
  unframed : (∀ n, ¬ Framed body n) → d.lpszTopic = c_name ∧ d.aData = body.take (sizeT 32 body.length)
  whole : (∀ n, ¬ Framed body n) → body.length < 4294967296 → d = ⟨c_name, body⟩

theorem sizeT_le (uWord n : Nat) : sizeT uWord n ≤ n := by
  unfold sizeT
  rw [BitVec.toNat_ofNat]
  exact Nat.mod_le _ _

theorem sizeT_small {uWord n : Nat} (hw : 32 ≤ uWord) (h : n < 4294967296) : sizeT uWord n = n := by
  have hpow : 2 ^ 32 ≤ 2 ^ uWord := Nat.pow_le_pow_right (by decide) hw
  unfold sizeT
  rw [BitVec.toNat_ofNat]
  exact Nat.mod_eq_of_lt (Nat.lt_of_lt_of_le h hpow)

theorem lpcwstr_of_clean {s : WStr} (h : 0 ∉ s) : lpcwstr s = s := by
  unfold lpcwstr
  refine List.takeWhile_eq_self_iff.mpr fun c hc => ?_
  simpa using fun e : c = 0 => h (e ▸ hc)

theorem framed_eq {body : List UInt8} {n : UInt16} (h : Framed body n) :
    broadcastFrame (claimedTopic body n) (afterTopic body n) = body := by
  obtain ⟨rest, hrest⟩ := h.header
  have hdrop : body.drop 4 = rest := by
    rw [← hrest]
    rfl
  have hlen : n.toNat * u16le.width ≤ rest.length := by
    have hholds := h.holds
    have hbody : body.length = 4 + rest.length := by
      rw [← hrest, List.length_append]
      rfl
    show n.toNat * 2 ≤ rest.length
    omega
  have hafter : afterTopic body n = rest.drop (n.toNat * u16le.width) := by
    rw [afterTopic, ← List.drop_drop, hdrop]
    rfl
  rw [frame_eq, claimedTopic, hdrop, length_read, write_read u16le hlen, hafter, List.take_append_drop,
    show n.toNat.toUInt16 = n from UInt16.ofNat_toNat, hrest]

/-- The header that is read is the one the frame begins with. -/
theorem framed_iff {body : List UInt8} (h4 : 4 ≤ body.length) (n : UInt16) :
    Framed body n ↔ u16Of ((body.take 4).take 2) = kBCastMagic ∧ u16Of ((body.take 4).drop 2) = n ∧
      4 + n.toNat * 2 ≤ body.length := by
  obtain ⟨a, b, c, d, rest, rfl⟩ : ∃ a b c d rest, body = a :: b :: c :: d :: rest := by
    match body, h4 with
    | a :: b :: c :: d :: rest, _ => exact ⟨a, b, c, d, rest, rfl⟩
  have hheader : u16Bytes kBCastMagic ++ u16Bytes n <+: a :: b :: c :: d :: rest ↔
      u16Bytes kBCastMagic = [a, b] ∧ u16Bytes n = [c, d] := by
    constructor
    · rintro ⟨t, ht⟩
      have hall : [a, b] ++ ([c, d] ++ rest) = u16Bytes kBCastMagic ++ (u16Bytes n ++ t) := by
        rw [← List.append_assoc (u16Bytes kBCastMagic), ht]
        rfl
      obtain ⟨h1, h2⟩ := List.append_inj hall rfl
      exact ⟨h1.symm, (List.append_inj h2 rfl).1.symm⟩
    · rintro ⟨h1, h2⟩
      exact ⟨rest, by rw [h1, h2]; rfl⟩
  have hmagic : u16Of [a, b] = kBCastMagic ↔ u16Bytes kBCastMagic = [a, b] :=
    ⟨fun h => by rw [← h, u16Bytes_of], fun h => by rw [← h, u16Of_bytes]⟩
  have hchars : u16Of [c, d] = n ↔ u16Bytes n = [c, d] :=
    ⟨fun h => by rw [← h, u16Bytes_of], fun h => by rw [← h, u16Of_bytes]⟩
  constructor
  · intro h
    obtain ⟨h1, h2⟩ := hheader.mp h.header
    exact ⟨hmagic.mpr h1, hchars.mpr h2, h.holds⟩
  · rintro ⟨h1, h2, h3⟩
    exact ⟨hheader.mpr ⟨hmagic.mp h1, hchars.mp h2⟩, h3⟩

theorem framed_long {body : List UInt8} {n : UInt16} (h : Framed body n) : 4 ≤ body.length := by
  have := h.holds
  omega

theorem framed_unique {body : List UInt8} {n n' : UInt16} (h : Framed body n) (h' : Framed body n') : n = n' := by
  have h4 := framed_long h
  exact ((framed_iff h4 n).mp h).2.1.symm.trans ((framed_iff h4 n').mp h').2.1

/-! ## Decoding -/

theorem readAt_inside {body : List UInt8} {off n : Nat} (h : off + n ≤ body.length) :
    readAt body off n = some ((body.drop off).take n) := if_pos h

theorem decode_framed (c_name : WStr) {body : List UInt8} {n : UInt16} (h : Framed body n) :
    On_P2PeerBCast c_name (some body) = some ⟨lpcwstr (claimedTopic body n),
      (afterTopic body n).take (sizeT 32 (afterTopic body n).length)⟩ := by
  have h4 := framed_long h
  obtain ⟨hmagic, hchars, hholds⟩ := (framed_iff h4 n).mp h
  have hheader : readAt body 0 4 = some (body.take 4) := readAt_inside (by omega)
  have htopic : readAt body 4 (n.toNat * 2) = some ((body.drop 4).take (n.toNat * 2)) := readAt_inside hholds
  have hlen : (afterTopic body n).length = body.length - 4 - n.toNat * 2 := by
    rw [afterTopic, List.length_drop]
    omega
  have hrest : readAt body (4 + n.toNat * 2) (sizeT 32 (body.length - 4 - n.toNat * 2)) =
      some ((afterTopic body n).take (sizeT 32 (afterTopic body n).length)) := by
    have hle := sizeT_le 32 (body.length - 4 - n.toNat * 2)
    rw [readAt_inside (by omega), hlen]
    rfl
  have hread : u16le.read n.toNat ((body.drop 4).take (n.toNat * 2)) = claimedTopic body n := by
    have hw : n.toNat * u16le.width ≤ (body.drop 4).length := by
      show n.toNat * 2 ≤ _
      rw [List.length_drop]
      omega
    have hwrite := write_read u16le hw
    have hback := read_write u16le (claimedTopic body n) []
    rw [List.append_nil, claimedTopic, length_read, hwrite] at hback
    exact hback
  unfold On_P2PeerBCast
  simp only [h4, if_true, hheader, hmagic, hchars, hholds, and_self, htopic, hrest, hread, Option.bind_eq_bind,
    Option.bind_some]

theorem decode_unframed (c_name : WStr) {body : List UInt8} (h : ∀ n, ¬ Framed body n) :
    On_P2PeerBCast c_name (some body) = some ⟨c_name, body.take (sizeT 32 body.length)⟩ := by
  have hall : readAt body 0 (sizeT 32 body.length) = some (body.take (sizeT 32 body.length)) := by
    have hle := sizeT_le 32 body.length
    exact readAt_inside (by omega)
  unfold On_P2PeerBCast
  by_cases h4 : 4 ≤ body.length
  · have hheader : readAt body 0 4 = some (body.take 4) := readAt_inside (by omega)
    have hno : ¬ (u16Of ((body.take 4).take 2) = kBCastMagic ∧ 4 + (u16Of ((body.take 4).drop 2)).toNat * 2 ≤ body.length) :=
      fun hc => h _ ((framed_iff h4 _).mpr ⟨hc.1, rfl, hc.2⟩)
    simp only [h4, if_true, hheader, hno, if_false, hall, Option.bind_eq_bind, Option.bind_some]
  · have hno : ¬ (u16Of ([0, 0, 0, 0].take 2) = kBCastMagic ∧ 4 + (u16Of ([0, 0, 0, 0].drop 2)).toNat * 2 ≤ body.length) :=
      fun hc => absurd hc.1 (by decide)
    simp only [h4, if_false, hno, hall, Option.bind_eq_bind, Option.bind_some]

/-- A frame is framed, with its topic and its payload. -/
theorem frame_framed {topic : WStr} (payload : List UInt8) (h : topic.length ≤ 0xFFFF) :
    Framed (broadcastFrame topic payload) topic.length.toUInt16 ∧
      claimedTopic (broadcastFrame topic payload) topic.length.toUInt16 = topic ∧
      afterTopic (broadcastFrame topic payload) topic.length.toUInt16 = payload := by
  have hchars : topic.length.toUInt16.toNat = topic.length := by
    simp
    omega
  have hlen := length_write u16le topic
  have hdrop : (broadcastFrame topic payload).drop 4 = u16le.write topic ++ payload := by
    rw [frame_eq]
    rfl
  refine ⟨⟨?_, ?_⟩, ?_, ?_⟩
  · rw [frame_eq]
    exact List.prefix_append _ _
  · rw [hchars, frame_length]
    omega
  · rw [claimedTopic, hchars, hdrop, read_write]
  · rw [afterTopic, hchars, ← List.drop_drop, hdrop]
    exact List.drop_left' hlen

/-- Every copy that is posted carries the frame of the topic and the payload it was posted for. -/
theorem posted_frame {env : PostEnv} {peers : Map WStr Bool} {topic : WStr} {payload : Option (List UInt8)}
    {size : UInt32} {pOpts : Option MsgOpts} {m : PostedMsg}
    (hm : m ∈ (BroadcastInternal 64 env peers (some topic) payload size pOpts).2) :
    BroadcastAccepts 64 topic payload size ∧ m.aData = broadcastFrame topic ((payload.getD []).take size.toNat) := by
  have hacc : BroadcastAccepts 64 topic payload size := by
    by_contra hno
    obtain ⟨hr, -, he⟩ := broadcast_refused env peers pOpts hno
    rw [he] at hm
    cases hm
  refine ⟨hacc, ?_⟩
  rw [broadcast_posts env peers pOpts hacc] at hm
  obtain ⟨p, -, rfl⟩ := List.mem_map.mp hm
  have hlen : (broadcastFrame topic ((payload.getD []).take size.toNat)).length ≤
      sizeT 64 (4 + topic.length * 2 + size.toNat) := by
    have hchars := hacc.chars
    have hsize := size.toNat_lt
    have hword : sizeT 64 (4 + topic.length * 2 + size.toNat) = 4 + topic.length * 2 + size.toNat := by
      unfold sizeT
      rw [BitVec.toNat_ofNat]
      exact Nat.mod_eq_of_lt (by omega)
    rw [frame_length, hword, List.length_take]
    omega
  exact List.take_of_length_le hlen

/-- What BroadcastInternal posts is decoded as the topic and the payload. -/
theorem posted_decodes {env : PostEnv} {peers : Map WStr Bool} {topic : WStr} {payload : Option (List UInt8)} {size : UInt32}
    {pOpts : Option MsgOpts} (hclean : 0 ∉ topic) {m : PostedMsg}
    (hm : m ∈ (BroadcastInternal 64 env peers (some topic) payload size pOpts).2) :
    On_P2PeerBCast m.strName (some m.aData) = some ⟨topic, (payload.getD []).take size.toNat⟩ := by
  obtain ⟨hacc, hdata⟩ := posted_frame hm
  obtain ⟨hframed, htopic, hafter⟩ := frame_framed ((payload.getD []).take size.toNat) hacc.chars
  have hsmall : sizeT 32 ((payload.getD []).take size.toNat).length = ((payload.getD []).take size.toNat).length := by
    refine sizeT_small (Nat.le_refl _) ?_
    have hsize := size.toNat_lt
    rw [List.length_take]
    omega
  rw [hdata, decode_framed _ hframed, htopic, hafter, hsmall, List.take_length, lpcwstr_of_clean hclean]

/-- Every body is decoded inside it: as the frame it begins with, or whole. -/
theorem body_decodes (c_name : WStr) (body : List UInt8) :
    ∃ d, On_P2PeerBCast c_name (some body) = some d ∧ Decoded c_name body d := by
  by_cases hf : ∃ n, Framed body n
  · obtain ⟨n, hn⟩ := hf
    refine ⟨_, decode_framed c_name hn, fun n' hn' => ?_, fun n' hn' hclean hsize => ?_, fun hno => absurd hn (hno n),
      fun hno => absurd hn (hno n)⟩
    · obtain rfl := framed_unique hn hn'
      exact ⟨length_read u16le _ _, framed_eq hn, rfl, rfl⟩
    · obtain rfl := framed_unique hn hn'
      have hlen : (afterTopic body n).length < 4294967296 := by
        rw [afterTopic, List.length_drop]
        omega
      simp only
      rw [lpcwstr_of_clean hclean, sizeT_small (Nat.le_refl _) hlen, List.take_length]
      exact framed_eq hn
  · have hno : ∀ n, ¬ Framed body n := fun n hn => hf ⟨n, hn⟩
    refine ⟨_, decode_unframed c_name hno, fun n hn => absurd hn (hno n), fun n hn => absurd hn (hno n),
      fun _ => ⟨rfl, rfl⟩, fun _ hsize => ?_⟩
    rw [sizeT_small (Nat.le_refl _) hsize, List.take_length]

theorem bcast_frame_codec :
    (∀ (env : PostEnv) (peers : Map WStr Bool) (topic : WStr) (payload : Option (List UInt8)) (size : UInt32)
      (pOpts : Option MsgOpts), 0 ∉ topic →
      ∀ m ∈ (BroadcastInternal 64 env peers (some topic) payload size pOpts).2,
        On_P2PeerBCast m.strName (some m.aData) = some ⟨topic, (payload.getD []).take size.toNat⟩) ∧
    ∀ (c_name : WStr) (body : List UInt8), ∃ d, On_P2PeerBCast c_name (some body) = some d ∧ Decoded c_name body d :=
  ⟨fun _ _ _ _ _ _ hclean _ hm => posted_decodes hclean hm, body_decodes⟩

/-- A frame that claims the topic of one NUL: it is delivered with no topic, and what is delivered
    is not encoded as that frame. -/
theorem claimed_nul_lost :
    Framed [0xCA, 0xF2, 1, 0, 0, 0] 1 ∧ ∀ c_name, ∃ d, On_P2PeerBCast c_name (some [0xCA, 0xF2, 1, 0, 0, 0]) = some d ∧
      broadcastFrame d.lpszTopic d.aData ≠ [0xCA, 0xF2, 1, 0, 0, 0] ∧ d ≠ ⟨c_name, [0xCA, 0xF2, 1, 0, 0, 0]⟩ := by
  have hframed : Framed [0xCA, 0xF2, 1, 0, 0, 0] 1 := ⟨⟨[0, 0], by decide⟩, by decide⟩
  refine ⟨hframed, fun c_name => ⟨⟨[], []⟩, ?_, by decide, fun h => by cases (Delivered.mk.inj h).2⟩⟩
  rw [decode_framed c_name hframed]
  decide

end TargetFacade
