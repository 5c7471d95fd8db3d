/-
  TargetFacade.Hub.Delivery — what a client is given is what another client sent (FacadeHub.cpp:
  the sending verbs, PostMsg, On_AnyTopic, On_P2PeerBCast, Deliver, GetMsgInfo and the field
  readers).

  `PublicCall.said` is what a call asks to be told to a hub, and `Received` that a callback and
  its readers tell just that.

  - `handed_was_sent`: over any run every message callback tells what a call made before it asked
    to be told there, by the hub it names as the source.
  - `each_copy_once`: a call that sends to one hub posts one copy if it answers S_OK and none
    otherwise, nothing else posts any, and each copy is handed once to that hub's client (a hub
    with no sink has none), found unroutable or lost, or is on its way still.
-/

import TargetFacade.Hub.Bounce

namespace TargetFacade

open OrdMap Runs Ledger KeyLog Bag

/-! ## What a call says -/

structure Said where
  strTopic : WStr
  aPayload : List UInt8
  /-- none says it to every peer that is up. -/
  strTo : Option WStr
  pOpts : Option MsgOpts

def PublicCall.said : PublicCall → Option Said
  | .send dest topic payload size => do
    some ⟨← topic, (payload.getD []).take size.toNat, some (← dest), none⟩
  | .sendEx dest topic payload size priority tag flags => do
    some ⟨← topic, (payload.getD []).take size.toNat, some (← dest), some { uPriority := priority, uTag := tag, uFlags := flags }⟩
  | .sendText dest topic text => do
    some ⟨← topic, ((← text) ++ [0]).flatMap u16Bytes, some (← dest), none⟩
  | .sendMsg dest topic msg priority tag flags => do
    let pFm ← msg
    some ⟨← topic, pFm.aPayload, some (← dest), some (pFm.opts priority tag flags)⟩
  | .broadcast _ topic payload size => do
    some ⟨← topic, (payload.getD []).take size.toNat, none, none⟩
  | .broadcastEx _ topic payload size priority tag flags => do
    some ⟨← topic, (payload.getD []).take size.toNat, none, some { uPriority := priority, uTag := tag, uFlags := flags }⟩
  | .broadcastMsg _ topic msg priority tag flags => do
    let pFm ← msg
    some ⟨← topic, pFm.aPayload, none, some (pFm.opts priority tag flags)⟩
  | .ping _ _ => none

/-- A topic is a string: its NUL ends it. -/
def PublicCall.Ended (c : PublicCall) : Prop := ∀ w, c.said = some w → 0 ∉ w.strTopic

/-- The posted message says it. -/
def Said.In (w : Said) (o : PostedMsg) : Prop :=
  o.pOpts = w.pOpts ∧ match w.strTo with
    | some strDest => o.strDest = strDest ∧ o.strName = w.strTopic ∧ o.aData = w.aPayload ∧
        IsReservedName o.strName = false ∧ IsPrivateName o.strName = false
    | none => o.strName = P2Pmsg_BCast ∧ On_P2PeerBCast P2Pmsg_BCast (some o.aData) = some ⟨w.strTopic, w.aPayload⟩

theorem sendGuarded_says {env : PostEnv} {dest topic : Option WStr} {payload : Option (List UInt8)} {size : UInt32}
    {pOpts : Option MsgOpts} {o : PostedMsg} (h : o ∈ (SendGuarded env dest topic payload size pOpts).2) :
    ∃ strDest strTopic, dest = some strDest ∧ topic = some strTopic ∧
      Said.In ⟨strTopic, (payload.getD []).take size.toNat, some strDest, pOpts⟩ o := by
  unfold SendGuarded at h
  cases dest with
  | none => cases h
  | some dest =>
    cases topic with
    | none => cases h
    | some topic =>
      simp only at h
      split at h
      · cases h
      split at h
      · cases h
      rename_i hguard
      obtain rfl := mem_postMsg h
      simp only [Bool.or_eq_true, not_or, Bool.not_eq_true] at hguard
      exact ⟨dest, topic, rfl, rfl, rfl, rfl, rfl, rfl, hguard.1, hguard.2⟩

theorem broadcast_says {env : PostEnv} {peers : Map WStr Bool} {topic : Option WStr} {payload : Option (List UInt8)}
    {size : UInt32} {pOpts : Option MsgOpts} {o : PostedMsg}
    (h : o ∈ (BroadcastInternal 64 env peers topic payload size pOpts).2) :
    ∃ strTopic, topic = some strTopic ∧
      (0 ∉ strTopic → Said.In ⟨strTopic, (payload.getD []).take size.toNat, none, pOpts⟩ o) := by
  cases topic with
  | none => cases h
  | some topic =>
    refine ⟨topic, rfl, fun hended => ?_⟩
    have hdecode := posted_decodes hended h
    obtain ⟨hacc, -⟩ := posted_frame h
    rw [broadcast_posts env peers pOpts hacc] at h
    obtain ⟨p, -, rfl⟩ := List.mem_map.mp h
    exact ⟨rfl, rfl, hdecode⟩

/-- A text that SendText takes is posted whole, with its terminator. -/
theorem text_whole {text : WStr} (h : ¬ MAX_PAYLOAD < (text.length + 1) * 2) :
    ((some ((text ++ [0]).flatMap u16Bytes)).getD []).take (UInt32.ofNat ((text.length + 1) * 2)).toNat =
      (text ++ [0]).flatMap u16Bytes := by
  have hlen : ((text ++ [0]).flatMap u16Bytes).length = (text.length + 1) * 2 := by
    have hwords := Words.length_write u16le (text ++ [0])
    rwa [List.length_append] at hwords
  have hmax : MAX_PAYLOAD = 24576 := rfl
  refine List.take_of_length_le ?_
  show ((text ++ [0]).flatMap u16Bytes).length ≤ _
  rw [hlen, UInt32.toNat_ofNat']
  omega

theorem sendText_says {env : PostEnv} {dest topic text : Option WStr} {o : PostedMsg}
    (h : o ∈ (SendText env dest topic text).2) : ∃ strDest strTopic strText, dest = some strDest ∧ topic = some strTopic ∧
      text = some strText ∧ Said.In ⟨strTopic, (strText ++ [0]).flatMap u16Bytes, some strDest, none⟩ o := by
  unfold SendText at h
  cases text with
  | none => cases h
  | some strText =>
    simp only at h
    split at h
    · cases h
    rename_i hsize
    obtain ⟨strDest, strTopic, rfl, rfl, hsaid⟩ := sendGuarded_says h
    refine ⟨strDest, strTopic, strText, rfl, rfl, rfl, ?_⟩
    rw [text_whole hsize] at hsaid
    exact hsaid

theorem sendMsg_says {env : PostEnv} {dest topic : Option WStr} {msg : Option FacadeMessage} {priority tag flags : UInt32}
    {o : PostedMsg} (h : o ∈ (SendMsg env dest topic msg priority tag flags).2) :
    ∃ strDest strTopic pFm, dest = some strDest ∧ topic = some strTopic ∧ msg = some pFm ∧
      Said.In ⟨strTopic, pFm.aPayload, some strDest, some (pFm.opts priority tag flags)⟩ o := by
  cases msg with
  | none =>
    unfold SendMsg at h
    cases dest <;> cases topic <;> cases h
  | some pFm =>
    obtain ⟨-, hdata, hopts⟩ := mem_sendMsg h
    unfold SendMsg at h
    cases dest with
    | none => cases h
    | some strDest =>
      cases topic with
      | none => cases h
      | some strTopic =>
        simp only at h
        split at h
        · cases h
        split at h
        · cases h
        rename_i hguard
        split at h
        · cases h
        obtain rfl := mem_postMsg h
        simp only [Bool.or_eq_true, not_or, Bool.not_eq_true] at hguard
        exact ⟨strDest, strTopic, pFm, rfl, rfl, rfl, hopts, rfl, rfl, hdata, hguard.1, hguard.2⟩

/-- Every message that a verb posts says what the verb was asked to say; a ping's says nothing to a client. -/
theorem posts_says {env : PostEnv} {c : PublicCall} {o : PostedMsg} (hended : c.Ended) (h : o ∈ c.posts 64 env) :
    (c.said = none ∧ o.strName = kTopicPing) ∨ ∃ w, c.said = some w ∧ w.In o := by
  cases c with
  | send dest topic payload size =>
    obtain ⟨strDest, strTopic, rfl, rfl, hsaid⟩ := sendGuarded_says h
    exact Or.inr ⟨_, rfl, hsaid⟩
  | sendEx dest topic payload size priority tag flags =>
    obtain ⟨strDest, strTopic, rfl, rfl, hsaid⟩ := sendGuarded_says h
    exact Or.inr ⟨_, rfl, hsaid⟩
  | sendText dest topic text =>
    obtain ⟨strDest, strTopic, strText, rfl, rfl, rfl, hsaid⟩ := sendText_says h
    exact Or.inr ⟨_, rfl, hsaid⟩
  | sendMsg dest topic msg priority tag flags =>
    obtain ⟨strDest, strTopic, pFm, rfl, rfl, rfl, hsaid⟩ := sendMsg_says h
    exact Or.inr ⟨_, rfl, hsaid⟩
  | broadcast peers topic payload size =>
    obtain ⟨strTopic, rfl, hsaid⟩ := broadcast_says h
    exact Or.inr ⟨_, rfl, hsaid (hended _ rfl)⟩
  | broadcastEx peers topic payload size priority tag flags =>
    obtain ⟨strTopic, rfl, hsaid⟩ := broadcast_says h
    exact Or.inr ⟨_, rfl, hsaid (hended _ rfl)⟩
  | broadcastMsg peers topic msg priority tag flags =>
    unfold PublicCall.posts BroadcastMsg at h
    cases msg with
    | none => cases h
    | some pFm =>
      simp only at h
      split at h
      · cases h
      obtain ⟨strTopic, rfl, hsaid⟩ := broadcast_says h
      rw [data_getD, payload_size, List.take_length] at hsaid
      exact Or.inr ⟨_, rfl, hsaid (hended _ rfl)⟩
  | ping peer uPingId =>
    rw [mem_postMsg h]
    exact Or.inl ⟨rfl, rfl⟩

/-! ## What a client is told -/

/-- A priority that was asked for is cut to a UCHAR; one that was not is the kernel's own. -/
def Said.priority (w : Said) : UInt32 :=
  match w.pOpts with
  | some o => if o.uPriority ≠ P2PF_PRI_DEFAULT then o.uPriority.toUInt8.toUInt32 else P2PF_PRI_NORMAL
  | none => P2PF_PRI_NORMAL

def Said.uTag (w : Said) : UInt32 := (w.pOpts.map MsgOpts.uTag).getD 0

def Said.bNoBounce (w : Said) : Bool := w.pOpts.any fun o => o.uFlags &&& P2PF_SEND_NO_BOUNCE != 0

def Said.flags (w : Said) : UInt32 :=
  (if w.strTo.isNone then P2PF_MSG_BROADCAST else 0) ||| (if w.bNoBounce then 0 else P2PF_MSG_BOUNCES) |||
    (if w.pOpts.any fun o => o.pFields.any (!·.isEmpty) then P2PF_MSG_FIELDS else 0)

/-- The client of the hub at `a` is told what was said: by the callback's arguments and by its readers. -/
structure Received (w : Said) (a : WStr) (h : Handed) : Prop where
  topic : h.lpszTopic = w.strTopic
  payload : h.aPayload = w.aPayload
  here : ∀ strTo, w.strTo = some strTo → strTo = a
  dest : h.cur.1.GetDestin = some a
  priority : ∀ out, (GetMsgInfo (some h.cur) out).2.outPriority = out.outPriority.map fun _ => w.priority
  tag : ∀ out, (GetMsgInfo (some h.cur) out).2.outTag = out.outTag.map fun _ => w.uTag
  flags : ∀ out, (GetMsgInfo (some h.cur) out).2.outFlags = out.outFlags.map fun _ => w.flags
  fields : ∀ (pFm : FacadeMessage) priority tag flags, w.pOpts = some (pFm.opts priority tag flags) → ∀ f ∈ pFm.aFields,
    ∀ buf uHave, GetField (some h.cur.1.tree) (some f.1) buf (some uHave) = CopyOutBytes f.2 buf (some uHave)

theorem getMsgInfo_out (d : CurDelivery) (out : MsgInfoOut) :
    (GetMsgInfo (some d) out).2.outPriority = out.outPriority.map (fun _ => d.1.Priority.getD P2PF_PRI_NORMAL) ∧
      (GetMsgInfo (some d) out).2.outTag = out.outTag.map (fun _ => (d.1.AddrTag.getD 0).toUInt32) ∧
      (GetMsgInfo (some d) out).2.outFlags = out.outFlags.map (fun _ => msgFlags d) := by
  unfold GetMsgInfo
  simp only
  split <;> exact ⟨rfl, rfl, rfl⟩

theorem noBounce_said {w : Said} {m : SentMsg} (h : m.oMsg.pOpts = w.pOpts) : m.NoBounce = w.bNoBounce := by
  unfold SentMsg.NoBounce IsNoBounce SentMsg.curMsg Said.bNoBounce
  rw [h]
  cases w.pOpts with
  | none =>
    show ((0 : UInt8) &&& kCtrlNoBounce != 0) = false
    decide
  | some o =>
    simp only [Option.getD_some, Option.any_some]
    by_cases hflag : o.uFlags &&& P2PF_SEND_NO_BOUNCE = 0
    · rw [hflag]
      rfl
    · rw [if_pos hflag, bne_iff_ne.mpr hflag]
      rfl

theorem tree_said {w : Said} {m : SentMsg} (h : m.oMsg.pOpts = w.pOpts) :
    m.curMsg.tree.oFields.isSome = w.pOpts.any fun o => o.pFields.any (!·.isEmpty) := by
  show (declareFields (m.oMsg.pOpts.bind (·.pFields))).oFields.isSome = _
  rw [h]
  cases w.pOpts with
  | none => rfl
  | some o =>
    cases hf : o.pFields with
    | none => simp [declareFields, hf]
    | some aF => cases aF <;> simp [declareFields, hf]

/-- A message that says `w` is handed to a client as what `w` is. -/
theorem received_handed {w : Said} {m : SentMsg} {d : Delivered} (hopts : m.oMsg.pOpts = w.pOpts)
    (hd : d = ⟨w.strTopic, w.aPayload⟩) (hhere : ∀ strTo, w.strTo = some strTo → strTo = m.oMsg.strDest) :
    Received w m.oMsg.strDest (m.handed d w.strTo.isNone) := by
  subst hd
  have hinfo := getMsgInfo_out (m.handed ⟨w.strTopic, w.aPayload⟩ w.strTo.isNone).cur
  refine ⟨rfl, rfl, hhere, rfl, fun out => ?_, fun out => ?_, fun out => ?_, fun pFm priority tag flags hfm f hf buf uHave => ?_⟩
  · rw [(hinfo out).1]
    show _ = out.outPriority.map fun _ => match w.pOpts with
      | some o => if o.uPriority ≠ P2PF_PRI_DEFAULT then o.uPriority.toUInt8.toUInt32 else P2PF_PRI_NORMAL
      | none => P2PF_PRI_NORMAL
    rw [← hopts]
    rfl
  · rw [(hinfo out).2.1]
    have htag : ((m.handed ⟨w.strTopic, w.aPayload⟩ w.strTo.isNone).cur.1.AddrTag.getD 0).toUInt32 = w.uTag := by
      show ((m.oMsg.pOpts.map MsgOpts.uTag).getD 0).toUInt64.toUInt32 = _
      rw [hopts, UInt32.toUInt32_toUInt64]
      rfl
    rw [htag]
  · rw [(hinfo out).2.2]
    have hflags : msgFlags (m.handed ⟨w.strTopic, w.aPayload⟩ w.strTo.isNone).cur = w.flags := by
      have hbounce : IsNoBounce (m.handed ⟨w.strTopic, w.aPayload⟩ w.strTo.isNone).cur.1 = w.bNoBounce := noBounce_said hopts
      have hfields := tree_said hopts
      unfold msgFlags Said.flags
      rw [hbounce, ← hfields]
      show _ ||| _ ||| 0 ||| 0 ||| _ = _
      rw [UInt32.or_zero, UInt32.or_zero]
      rfl
    rw [hflags]
  · have htree : (m.handed ⟨w.strTopic, w.aPayload⟩ w.strTo.isNone).cur.1.tree = declareFields (some pFm.aFields) := by
      show declareFields (m.oMsg.pOpts.bind (·.pFields)) = _
      rw [hopts, hfm]
      rfl
    rw [htree]
    exact field_declared pFm hf buf uHave

/-! ## Where a message comes from -/

theorem deliver_some {s : Sinks} {answer : Option HRESULT} {h h' : Handed} (hd : (Deliver s answer h).2 = some h') : h' = h := by
  unfold Deliver at hd
  split at hd
  · exact (Option.some.inj hd).symm
  · split at hd
    · exact (Option.some.inj hd).symm
    · cases hd

/-- What a client is handed of a message. -/
theorem routeMsg_handed {s : Sinks} {answer : Option HRESULT} {env : PostEnv} {children : List WStr} {a : WStr} {m : SentMsg}
    {h : Handed} (hh : (routeMsg s answer env children a m).handed = some h) :
    (m.oMsg.strName = P2Pmsg_BCast ∧ ∃ d, On_P2PeerBCast P2Pmsg_BCast (some m.oMsg.aData) = some d ∧ h = m.handed d true) ∨
      (IsReservedName m.oMsg.strName = false ∧ IsPrivateName m.oMsg.strName = false ∧
        h = m.handed ⟨m.oMsg.strName, m.oMsg.aData⟩ false) := by
  by_cases hb : m.oMsg.strName = P2Pmsg_BCast
  · obtain ⟨d, hd⟩ := bcast_decodes m.oMsg.strName m.oMsg.aData
    rw [routeMsg_bcast hb] at hh
    unfold bcastRelay at hh
    rw [hd] at hh
    rw [hb] at hd
    exact Or.inl ⟨hb, d, hd, deliver_some hh⟩
  · by_cases hres : IsReservedName m.oMsg.strName = true
    · rw [routeMsg_reserved hres hb] at hh
      cases hh
    · rw [Bool.not_eq_true] at hres
      by_cases hpriv : IsPrivateName m.oMsg.strName = true
      · rw [routeMsg_private hres hpriv] at hh
        cases hh
      · rw [Bool.not_eq_true] at hpriv
        rw [routeMsg_topic hres hpriv] at hh
        exact Or.inr ⟨hres, hpriv, deliver_some hh⟩

/-- What a hub puts on the wire as it takes a message: pongs of its own, or copies of a broadcast. -/
theorem routeMsg_posts {s : Sinks} {answer : Option HRESULT} {env : PostEnv} {children : List WStr} {a : WStr} {m m' : SentMsg}
    (h : m' ∈ (routeMsg s answer env children a m).posts) : m'.oMsg.strName = kTopicPong ∨
      (m.oMsg.strName = P2Pmsg_BCast ∧ ∃ strChild, m' = ⟨m.strSource, { m.oMsg with strDest := strChild }⟩) := by
  by_cases hb : m.oMsg.strName = P2Pmsg_BCast
  · rw [routeMsg_bcast hb] at h
    obtain ⟨strChild, -, rfl⟩ := List.mem_map.mp h
    exact Or.inr ⟨hb, strChild, rfl⟩
  · by_cases hres : IsReservedName m.oMsg.strName = true
    · rw [routeMsg_reserved hres hb] at h
      cases h
    · rw [Bool.not_eq_true] at hres
      by_cases hpriv : IsPrivateName m.oMsg.strName = true
      · rw [routeMsg_private hres hpriv] at h
        obtain ⟨o, ho, rfl⟩ := List.mem_map.mp h
        exact Or.inl (pongPosts_name ho)
      · rw [Bool.not_eq_true] at hpriv
        rw [routeMsg_topic hres hpriv] at h
        cases h

/-- A call of the hub it names as its source has posted it: for its own destination, or, of a broadcast, for some. -/
def Came (log : List Happening) (m : SentMsg) : Prop :=
  m.oMsg.strName = kTopicPong ∨ ∃ c hr aPosted m₀, .called m.strSource c hr aPosted ∈ log ∧ m₀ ∈ aPosted ∧
    (m = m₀ ∨ m.oMsg.strName = P2Pmsg_BCast ∧ m.oMsg = { m₀.oMsg with strDest := m.oMsg.strDest })

theorem Came.mono {log log' : List Happening} {m : SentMsg} (hsub : ∀ e ∈ log, e ∈ log') (h : Came log m) : Came log' m := by
  rcases h with h | ⟨c, hr, aPosted, m₀, hc, h⟩
  · exact Or.inl h
  · exact Or.inr ⟨c, hr, aPosted, m₀, hsub _ hc, h⟩

/-- A copy of a broadcast comes from where the broadcast came from. -/
theorem Came.copy {log : List Happening} {m : SentMsg} (h : Came log m) (hb : m.oMsg.strName = P2Pmsg_BCast) (strChild : WStr) :
    Came log ⟨m.strSource, { m.oMsg with strDest := strChild }⟩ := by
  rcases h with h | ⟨c, hr, aPosted, m₀, hc, hm, h⟩
  · rw [hb] at h
    cases h
  · refine Or.inr ⟨c, hr, aPosted, m₀, hc, hm, Or.inr ⟨hb, ?_⟩⟩
    rcases h with rfl | ⟨-, h⟩
    · rfl
    · rw [h]

/-- What an entry puts on the wire that was posted came from a call. -/
def PutsCame (earlier : List Happening) (e : Happening) : Prop := ∀ m, .posted m ∈ e.puts → Came (earlier ++ [e]) m

theorem taken_came {uWord : Nat} {earlier : List Happening} {e : Happening} (hP : Noted PutsCame earlier)
    (he : Entered uWord earlier e) {m : SentMsg} (hm : .posted m ∈ e.takes) : Came earlier m := by
  obtain ⟨e', hmem, hput⟩ := he.put _ hm
  obtain ⟨before, after, hsplit, hputs⟩ := noted_mem hP hmem
  refine (hputs m hput).mono fun e'' h => ?_
  rw [hsplit, List.append_cons]
  exact List.mem_append_left _ h

theorem puts_came {uWord : Nat} (earlier : List Happening) (e : Happening) (hP : Noted PutsCame earlier)
    (he : Entered uWord earlier e) : PutsCame earlier e := by
  intro m hm
  have hputs : m ∈ e.puts.filterMap NetMsg.posted? := mem_posted.mpr hm
  rw [puts_posted] at hputs
  cases e with
  | called a c hr aPosted =>
    obtain ⟨env, rfl, rfl⟩ := he.called a c hr aPosted rfl
    obtain ⟨o, ho, rfl⟩ := List.mem_map.mp hputs
    exact Or.inr ⟨c, _, _, _, List.mem_append_right _ (List.mem_singleton.mpr rfl), hputs, Or.inl rfl⟩
  | took a s answer m' t strWhy =>
    obtain ⟨rfl, env, children, rfl⟩ := he.took a s answer m' t strWhy rfl
    rcases routeMsg_posts hputs with h | ⟨hb, strChild, rfl⟩
    · exact Or.inl h
    · have hcame := taken_came hP he List.mem_cons_self
      exact (hcame.copy hb strChild).mono fun _ h => List.mem_append_left _ h
  | returned | unroutable | lost => cases hputs

theorem came_exec {uWord : Nat} (es : List RouteEv) : Noted PutsCame (exec (routeStep uWord) .start es).log :=
  noted_rec (fun earlier e hP he => puts_came earlier e hP he) (entered_exec es)

/-! ## Every run -/

/-- The calls that are made pass strings. -/
def AllEnded (es : List RouteEv) : Prop := ∀ a c env, RouteEv.call a c env ∈ es → c.Ended

/-- The calls that are in the log pass strings. -/
def LogEnded (n : RouteNet) : Prop := ∀ a c hr aPosted, Happening.called a c hr aPosted ∈ n.log → c.Ended

def RouteEv.Ended : RouteEv → Prop
  | .call _ c _ => c.Ended
  | _ => True

theorem logEnded_pass {n : RouteNet} (h : LogEnded n) (x : NetMsg) {e : Happening} (he : ∀ a c hr aPosted, e ≠ .called a c hr aPosted) :
    LogEnded (n.pass x e) := by
  intro a c hr aPosted hm
  rcases List.mem_append.mp hm with hm | hm
  · exact h a c hr aPosted hm
  · exact absurd (List.mem_singleton.mp hm).symm (he a c hr aPosted)

theorem logEnded_step {uWord : Nat} (n : RouteNet) (e : RouteEv) (h : LogEnded n) (he : e.Ended) :
    LogEnded (routeStep uWord n e) := by
  cases e with
  | hub a s => exact h
  | call a c env =>
    simp only [routeStep]
    split
    case isFalse => exact h
    intro a' c' hr aPosted hm
    rcases List.mem_append.mp hm with hm | hm
    · exact h a' c' hr aPosted hm
    · cases List.mem_singleton.mp hm
      exact he
  | deliver m answer env children strWhy =>
    simp only [routeStep]
    split
    case isFalse => exact h
    split
    · exact h
    · exact logEnded_pass h _ fun _ _ _ _ h => by cases h
  | back x strAgain =>
    simp only [routeStep]
    split
    case isFalse => exact h
    split
    · exact logEnded_pass h _ fun _ _ _ _ h => by cases h
    · exact h
  | unroutable x strWhy =>
    simp only [routeStep]
    split
    · exact logEnded_pass h _ fun _ _ _ _ h => by cases h
    · exact h
  | lose x =>
    simp only [routeStep]
    split
    · exact logEnded_pass h _ fun _ _ _ _ h => by cases h
    · exact h

theorem logEnded_exec {uWord : Nat} {es : List RouteEv} (hes : AllEnded es) : LogEnded (exec (routeStep uWord) .start es) := by
  have heach : Each (routeStep uWord) (fun _ e => e.Ended) .start es := by
    intro k e hk
    cases e with
    | call a c env => exact hes a c env (List.mem_of_getElem? hk)
    | hub | deliver | back | unroutable | lose => exact trivial
  have hstart : LogEnded .start := fun _ _ _ _ h => absurd h List.not_mem_nil
  exact (always_of_each logEnded_step hstart heach).last

section Log

variable {log : List Happening} {m : SentMsg} {s : Sinks} {answer : Option HRESULT} {env : PostEnv} {children : List WStr}
  {h : Handed}

/-- A client is handed broadcasts, and messages under names of its own. -/
theorem handed_name (hh : (routeMsg s answer env children m.oMsg.strDest m).handed = some h) :
    m.oMsg.strName = P2Pmsg_BCast ∨ IsPrivateName m.oMsg.strName = false := by
  rcases routeMsg_handed hh with ⟨hb, -⟩ | ⟨-, hpriv, -⟩
  · exact Or.inl hb
  · exact Or.inr hpriv

/-- What came from a call and is not the facade's own says what the call said. -/
theorem came_said (hcame : Came log m) (hname : m.oMsg.strName = P2Pmsg_BCast ∨ IsPrivateName m.oMsg.strName = false)
    (hentered : ∀ a c hr aPosted, Happening.called a c hr aPosted ∈ log → c.Ended ∧ ∃ env, aPosted = (c.posts 64 env).map (⟨a, ·⟩)) :
    ∃ c hr aPosted w o, .called m.strSource c hr aPosted ∈ log ∧ c.said = some w ∧ w.In o ∧
      m.oMsg = { o with strDest := m.oMsg.strDest } ∧ (m.oMsg.strName = P2Pmsg_BCast ∨ m.oMsg = o) := by
  have hnot (strName : WStr) (hpriv : IsPrivateName strName = true) (hne : strName ≠ P2Pmsg_BCast) : m.oMsg.strName ≠ strName := by
    rintro rfl
    rcases hname with h | h
    · exact hne h
    · rw [hpriv] at h
      cases h
  rcases hcame with hpong | ⟨c, hr, aPosted, m₀, hc, hm₀, hfrom⟩
  · exact absurd hpong (hnot _ rfl (by decide))
  obtain ⟨hended, env₀, rfl⟩ := hentered _ c hr aPosted hc
  obtain ⟨o, ho, rfl⟩ := List.mem_map.mp hm₀
  have hsame : m.oMsg = { o with strDest := m.oMsg.strDest } := by
    rcases hfrom with h | ⟨-, h⟩
    · have hmsg : m.oMsg = o := congrArg SentMsg.oMsg h
      rw [hmsg]
    · exact h
  have hwhole : m.oMsg.strName = P2Pmsg_BCast ∨ m.oMsg = o := hfrom.symm.imp And.left (congrArg SentMsg.oMsg)
  rcases posts_says hended ho with ⟨-, hping⟩ | ⟨w, hw, hsaid⟩
  · have hsent : m.oMsg.strName = o.strName := by rw [hsame]
    exact absurd (hsent.trans hping) (hnot _ rfl (by decide))
  · exact ⟨c, hr, _, w, o, hc, hw, hsaid, hsame, hwhole⟩

/-- What came from a call and is handed to a client tells what the call said. -/
theorem handed_said (hcame : Came log m)
    (hentered : ∀ a c hr aPosted, Happening.called a c hr aPosted ∈ log → c.Ended ∧ ∃ env, aPosted = (c.posts 64 env).map (⟨a, ·⟩))
    (hh : (routeMsg s answer env children m.oMsg.strDest m).handed = some h) :
    ∃ c hr aPosted w, .called h.lpszSource c hr aPosted ∈ log ∧ c.said = some w ∧ Received w m.oMsg.strDest h := by
  obtain ⟨c, hr, aPosted, w, o, hc, hw, ⟨hwopts, hto⟩, hsame, hwhole⟩ := came_said hcame (handed_name hh) hentered
  have hopts : m.oMsg.pOpts = o.pOpts := by rw [hsame]
  have hname : m.oMsg.strName = o.strName := by rw [hsame]
  have hdata : m.oMsg.aData = o.aData := by rw [hsame]
  rcases routeMsg_handed hh with ⟨hb, d, hd, rfl⟩ | ⟨hres, hpriv, rfl⟩
  · -- a broadcast
    cases hstr : w.strTo with
    | some strTo =>
      simp only [hstr] at hto
      have hres := hto.2.2.2.1
      rw [← hname, hb] at hres
      cases hres
    | none =>
      simp only [hstr] at hto
      rw [hdata, hto.2] at hd
      refine ⟨c, hr, aPosted, w, hc, hw, ?_⟩
      have hreceived := @received_handed w m d (hopts.trans hwopts) (Option.some.inj hd).symm
        (fun strTo h => by rw [hstr] at h; cases h)
      rw [hstr] at hreceived
      exact hreceived
  · -- a topic
    cases hstr : w.strTo with
    | none =>
      simp only [hstr] at hto
      rw [hname, hto.1] at hres
      cases hres
    | some strTo =>
      simp only [hstr] at hto
      obtain ⟨hdest, htopic, hpayload, -, -⟩ := hto
      have hhere : m.oMsg.strDest = o.strDest := by
        rcases hwhole with hb | h
        · rw [hb] at hres
          cases hres
        · rw [h]
      refine ⟨c, hr, aPosted, w, hc, hw, ?_⟩
      have hd : (⟨m.oMsg.strName, m.oMsg.aData⟩ : Delivered) = ⟨w.strTopic, w.aPayload⟩ := by
        rw [hname, hdata, htopic, hpayload]
      have hreceived := @received_handed w m _ (hopts.trans hwopts) hd
        (fun strTo' h => by rw [hstr] at h; rw [← Option.some.inj h, ← hdest, hhere])
      rw [hstr] at hreceived
      exact hreceived

end Log

/-- A message callback tells its client what a call of the hub that it names as the source has asked before to be
    told there. -/
def HandedSent (earlier : List Happening) (e : Happening) : Prop :=
  ∀ a s answer m t strWhy h, e = .took a s answer m t strWhy → t.handed = some h →
    ∃ c hr aPosted w, .called h.lpszSource c hr aPosted ∈ earlier ∧ c.said = some w ∧ Received w a h

/-- What a pump takes off the wire came from the calls before, which have posted what they say. -/
structure TookSent (earlier : List Happening) (m : SentMsg) : Prop where
  came : Came earlier m
  entered : ∀ a c hr aPosted, Happening.called a c hr aPosted ∈ earlier → c.Ended ∧ ∃ env, aPosted = (c.posts 64 env).map (⟨a, ·⟩)

theorem tookSent_exec {es : List RouteEv} (hes : AllEnded es) : Noted (fun earlier e => ∀ a s answer m t strWhy,
      e = Happening.took a s answer m t strWhy → TookSent earlier m ∧ a = m.oMsg.strDest ∧
        ∃ env children, t = routeMsg s answer env children a m)
    (exec (routeStep 64) .start es).log := by
  have hentered := @entered_exec 64 es
  have hcame := @came_exec 64 es
  have hended := @logEnded_exec 64 es hes
  intro earlier e later hlog a s answer m t strWhy he
  subst he
  have hsub : ∀ e ∈ earlier, e ∈ (exec (routeStep 64) .start es).log := fun e he => by
    rw [hlog]
    exact List.mem_append_left _ he
  have hnow := hentered earlier _ later hlog
  have hbefore : Noted PutsCame earlier := fun before e after he =>
    hcame before e (after ++ .took a s answer m t strWhy :: later) (by rw [hlog, he, List.append_assoc]; rfl)
  refine ⟨⟨taken_came hbefore hnow List.mem_cons_self, fun a c hr aPosted hc => ⟨hended a c hr aPosted (hsub _ hc), ?_⟩⟩,
    hnow.took a s answer m t strWhy rfl⟩
  obtain ⟨before, after, -, hcalled⟩ := noted_mem hentered (hsub _ hc)
  obtain ⟨env, -, hposted⟩ := hcalled.called a c hr aPosted rfl
  exact ⟨env, hposted⟩

theorem handedSent_exec {es : List RouteEv} (hes : AllEnded es) : Noted HandedSent (exec (routeStep 64) .start es).log := by
  intro earlier e later hlog a s answer m t strWhy h he hh
  obtain ⟨⟨hcame, hentered⟩, rfl, env, children, rfl⟩ := tookSent_exec hes earlier e later hlog a s answer m t strWhy he
  exact handed_said hcame hentered hh

/-- The message that a call asks to be posted to one hub. -/
def PublicCall.asked (c : PublicCall) : Option PostedMsg := do
  let w ← c.said
  some ⟨← w.strTo, w.strTopic, w.aPayload, w.pOpts⟩

/-- One copy on S_OK, and none on a refusal. -/
theorem postMsg_answer (env : PostEnv) (dest strName : WStr) (pvData : Option (List UInt8)) (uSize : Nat) (pOpts : Option MsgOpts) :
    (PostMsg env dest strName pvData uSize pOpts).2 =
      if (PostMsg env dest strName pvData uSize pOpts).1 = S_OK then [⟨dest, strName, (pvData.getD []).take uSize, pOpts⟩] else [] := by
  unfold PostMsg
  by_cases h1 : MAX_PAYLOAD < uSize
  · rw [if_pos h1]; rfl
  rw [if_neg h1]
  by_cases h2 : (pvData.isNone && uSize ≠ 0) = true
  · rw [if_pos h2]; rfl
  rw [if_neg h2]
  simp only
  split
  · rfl
  split <;> rfl

theorem sendGuarded_answer (env : PostEnv) (dest topic : WStr) (payload : Option (List UInt8)) (size : UInt32)
    (pOpts : Option MsgOpts) : (SendGuarded env (some dest) (some topic) payload size pOpts).2 =
      if (SendGuarded env (some dest) (some topic) payload size pOpts).1 = S_OK
      then [⟨dest, topic, (payload.getD []).take size.toNat, pOpts⟩] else [] := by
  unfold SendGuarded
  simp only
  split
  · rfl
  split
  · rfl
  · exact postMsg_answer env dest topic payload size.toNat pOpts

theorem sendText_answer (env : PostEnv) (dest topic text : WStr) : (SendText env (some dest) (some topic) (some text)).2 =
    if (SendText env (some dest) (some topic) (some text)).1 = S_OK
    then [⟨dest, topic, (text ++ [0]).flatMap u16Bytes, none⟩] else [] := by
  unfold SendText
  simp only
  split
  · rfl
  rename_i hsize
  have hguarded := sendGuarded_answer env dest topic (some ((text ++ [0]).flatMap u16Bytes))
    (UInt32.ofNat ((text.length + 1) * 2)) none
  rw [text_whole hsize] at hguarded
  exact hguarded

theorem sendMsg_answer (env : PostEnv) (dest topic : WStr) (pFm : FacadeMessage) (priority tag flags : UInt32) :
    (SendMsg env (some dest) (some topic) (some pFm) priority tag flags).2 =
      if (SendMsg env (some dest) (some topic) (some pFm) priority tag flags).1 = S_OK
      then [⟨dest, topic, pFm.aPayload, some (pFm.opts priority tag flags)⟩] else [] := by
  unfold SendMsg
  simp only
  split
  · rfl
  split
  · rfl
  split
  · rename_i hfail
    have hne : CheckTotalSize pFm ≠ S_OK := by
      intro h
      rw [h] at hfail
      cases hfail
    rw [if_neg hne]
  · have hpost := postMsg_answer env dest topic pFm.data pFm.aPayload.length (some (pFm.opts priority tag flags))
    rwa [data_getD, List.take_length] at hpost

/-- A call to one hub posts what it asks for exactly when it answers S_OK. -/
theorem asked_posts {uWord : Nat} {env : PostEnv} {c : PublicCall} {o : PostedMsg} (h : c.asked = some o) :
    c.posts uWord env = if c.answer uWord env = S_OK then [o] else [] := by
  cases c with
  | send dest topic payload size =>
    cases dest <;> cases topic <;> cases h
    exact sendGuarded_answer env _ _ payload size none
  | sendEx dest topic payload size priority tag flags =>
    cases dest <;> cases topic <;> cases h
    exact sendGuarded_answer env _ _ payload size _
  | sendText dest topic text =>
    cases dest <;> cases topic <;> cases text <;> cases h
    exact sendText_answer env _ _ _
  | sendMsg dest topic msg priority tag flags =>
    cases dest <;> cases topic <;> cases msg <;> cases h
    exact sendMsg_answer env _ _ _ priority tag flags
  | broadcast peers topic payload size => cases topic <;> cases h
  | broadcastEx peers topic payload size priority tag flags => cases topic <;> cases h
  | broadcastMsg peers topic msg priority tag flags => cases topic <;> cases msg <;> cases h
  | ping peer uPingId => cases h

/-- No other call posts a message under a name of a client's own. -/
theorem unasked_posts {uWord : Nat} {env : PostEnv} {c : PublicCall} {o : PostedMsg} (h : c.asked = none)
    (ho : o ∈ c.posts uWord env) : o.strName = P2Pmsg_BCast ∨ o.strName = kTopicPing := by
  cases c with
  | send dest topic payload size => cases dest <;> cases topic <;> first | cases ho | cases h
  | sendEx dest topic payload size priority tag flags => cases dest <;> cases topic <;> first | cases ho | cases h
  | sendText dest topic text =>
    cases text with
    | none => cases ho
    | some text =>
      obtain ⟨strDest, strTopic, strText, rfl, rfl, -, -⟩ := sendText_says ho
      cases h
  | sendMsg dest topic msg priority tag flags =>
    obtain ⟨strDest, strTopic, pFm, rfl, rfl, rfl, -⟩ := sendMsg_says ho
    cases h
  | broadcast peers topic payload size => exact Or.inl (bcast_name ho)
  | broadcastEx peers topic payload size priority tag flags => exact Or.inl (bcast_name ho)
  | broadcastMsg peers topic msg priority tag flags =>
    cases msg with
    | none => cases ho
    | some pFm =>
      unfold PublicCall.posts BroadcastMsg at ho
      simp only at ho
      split at ho
      · cases ho
      · exact Or.inl (bcast_name ho)
  | ping peer uPingId => exact Or.inr (by rw [mem_postMsg ho])

/-- It is off the wire as the hub it is for takes it. -/
def Happening.takesMsg (m : SentMsg) : Happening → Bool
  | .took _ _ _ m' _ _ => decide (m' = m)
  | _ => false

/-- It is off the wire, and no hub has it. -/
def Happening.astray (m : SentMsg) : Happening → Bool
  | .unroutable x _ => decide (x = .posted m)
  | .lost x => decide (x = .posted m)
  | _ => false

/-- A call that asked for it was answered S_OK. -/
def Happening.sends (m : SentMsg) : Happening → Bool
  | .called a c hr _ => decide (hr = S_OK) && decide (a = m.strSource) && decide (c.asked = some m.oMsg)
  | _ => false

/-- The client of the hub it is for is handed it, whole. -/
def Happening.hands (m : SentMsg) : Happening → Bool
  | .took _ _ _ m' t _ => decide (m' = m) && decide (t.handed = some (m.handed ⟨m.oMsg.strName, m.oMsg.aData⟩ false))
  | _ => false

/-- It is taken by a hub with no sink. -/
def Happening.unheard (m : SentMsg) : Happening → Bool
  | .took _ s _ m' t _ => decide (m' = m) && t.handed.isNone && !s.bEvents && !s.bExtEvents
  | _ => false

theorem takes_once {uWord : Nat} {earlier : List Happening} {e : Happening} (he : Entered uWord earlier e) (m : SentMsg) :
    e.takes.countP (· == .posted m) = ifOne (e.takesMsg m) + ifOne (e.astray m) := by
  cases e with
  | called a c hr aPosted => rfl
  | took a s answer m' t strWhy =>
    have heq : (NetMsg.posted m' == NetMsg.posted m) = decide (m' = m) := by simp [BEq.beq]
    show [NetMsg.posted m'].countP _ = _
    rw [List.countP_singleton, heq]
    rfl
  | returned a s x event strAgain =>
    obtain ⟨⟨strSource, strWhy, oWrapped, rfl⟩, -⟩ := he.returned a s x event strAgain rfl
    rfl
  | unroutable x strWhy =>
    show [x].countP _ = _
    rw [List.countP_singleton]
    exact (Nat.zero_add _).symm
  | lost x =>
    show [x].countP _ = _
    rw [List.countP_singleton]
    exact (Nat.zero_add _).symm

theorem count_posted (m : SentMsg) (l : List SentMsg) : (l.map NetMsg.posted).countP (· == .posted m) = l.count m := by
  rw [List.countP_map, List.count]
  refine List.countP_congr fun m' _ => ?_
  simp

/-- A message under a name of its client's own. -/
def SentMsg.Public (m : SentMsg) : Prop := IsReservedName m.oMsg.strName = false ∧ IsPrivateName m.oMsg.strName = false

theorem SentMsg.Public.apart {m : SentMsg} (h : m.Public) :
    m.oMsg.strName ≠ P2Pmsg_BCast ∧ m.oMsg.strName ≠ kTopicPing ∧ m.oMsg.strName ≠ kTopicPong := by
  obtain ⟨hres, hpriv⟩ := h
  refine ⟨fun he => ?_, fun he => ?_, fun he => ?_⟩
  · rw [he] at hres; cases hres
  · rw [he] at hpriv; cases hpriv
  · rw [he] at hpriv; cases hpriv

/-- What a call puts on the wire of the message. -/
theorem called_once {uWord : Nat} {env : PostEnv} {a : WStr} {c : PublicCall} {m : SentMsg} (hm : m.Public) :
    ((c.posts uWord env).map fun o => (⟨a, o⟩ : SentMsg)).count m =
      ifOne ((Happening.called a c (c.answer uWord env) ((c.posts uWord env).map (⟨a, ·⟩))).sends m) := by
  cases hasked : c.asked with
  | none =>
    have hnot : m ∉ (c.posts uWord env).map fun o => (⟨a, o⟩ : SentMsg) := fun hmem => by
      obtain ⟨o, ho, rfl⟩ := List.mem_map.mp hmem
      rcases unasked_posts hasked ho with h | h
      · exact hm.apart.1 h
      · exact hm.apart.2.1 h
    rw [List.count_eq_zero_of_not_mem hnot]
    simp [Happening.sends, hasked, ifOne]
  | some o =>
    rw [asked_posts hasked]
    by_cases hok : c.answer uWord env = S_OK
    · rw [if_pos hok, List.map_singleton]
      obtain ⟨strSource, oMsg⟩ := m
      by_cases ha : a = strSource
      · subst ha
        by_cases ho : o = oMsg
        · subst ho
          simp [Happening.sends, hasked, hok, ifOne]
        · simp [Happening.sends, hasked, hok, ho, ifOne]
      · simp [Happening.sends, ha, ifOne]
    · rw [if_neg hok]
      simp [Happening.sends, hok, ifOne]

/-- A call that is answered S_OK puts one copy on the wire, and nothing else puts any. -/
theorem puts_once {uWord : Nat} {earlier : List Happening} {e : Happening} (he : Entered uWord earlier e) {m : SentMsg}
    (hm : m.Public) : e.puts.countP (· == .posted m) = ifOne (e.sends m) := by
  cases e with
  | called a c hr aPosted =>
    obtain ⟨env, rfl, rfl⟩ := he.called a c hr aPosted rfl
    exact (count_posted m _).trans (called_once hm)
  | took a s answer m' t strWhy =>
    obtain ⟨rfl, env, children, rfl⟩ := he.took a s answer m' t strWhy rfl
    refine countP_of_none fun x hx => ?_
    cases x with
    | exception => rfl
    | posted m'' =>
      have hposts := mem_posted.mpr hx
      rw [puts_posted] at hposts
      refine beq_false_of_ne fun h => ?_
      obtain rfl := NetMsg.posted.inj h
      rcases routeMsg_posts hposts with hname | ⟨hname, strChild, rfl⟩
      · exact hm.apart.2.2 hname
      · exact hm.apart.1 hname
  | returned a s x event strAgain => cases strAgain <;> rfl
  | unroutable x strWhy => rfl
  | lost x => rfl

/-- The hub that takes it hands it to its client, if it has a sink. -/
theorem took_once {uWord : Nat} {earlier : List Happening} {e : Happening} (he : Entered uWord earlier e) {m : SentMsg}
    (hm : m.Public) : ifOne (e.takesMsg m) = ifOne (e.hands m) + ifOne (e.unheard m) := by
  cases e with
  | took a s answer m' t strWhy =>
    obtain ⟨rfl, env, children, rfl⟩ := he.took a s answer m' t strWhy rfl
    by_cases hsame : m' = m
    · subst hsame
      simp only [Happening.takesMsg, Happening.hands, Happening.unheard, routeMsg_topic hm.1 hm.2]
      obtain ⟨bEvents, bExtEvents⟩ := s
      cases bExtEvents <;> cases bEvents <;> simp [Deliver, ifOne]
    · simp [Happening.takesMsg, Happening.hands, Happening.unheard, hsame, ifOne]
  | called | returned | unroutable | lost => rfl

/-- What becomes of the copies of a message. -/
structure CopiedOnce (n : RouteNet) (m : SentMsg) : Prop where
  /-- A call to one hub posts one copy if it answers S_OK, and none otherwise. -/
  posted : ∀ a c hr aPosted o, .called a c hr aPosted ∈ n.log → c.asked = some o → aPosted = if hr = S_OK then [⟨a, o⟩] else []
  /-- No entry but those calls puts the message on the wire. -/
  sent : (n.log.flatMap (·.puts)).count (.posted m) = n.log.countP (·.sends m)
  once : n.log.countP (·.sends m) =
    n.log.countP (·.hands m) + n.log.countP (·.unheard m) + n.log.countP (·.astray m) + n.flight.count (.posted m)

/-- A client's message to one hub is handed to that hub's client, taken where there is none, gone astray, or on its
    way, as often as a call for it was answered S_OK. -/
theorem each_copy_once (uWord : Nat) (es : List RouteEv) (m : SentMsg) (hm : m.Public) :
    CopiedOnce (exec (routeStep uWord) .start es) m := by
  have hlog := @entered_exec uWord es
  have hentered : ∀ e ∈ (exec (routeStep uWord) .start es).log, ∃ earlier, Entered uWord earlier e := fun e he => by
    obtain ⟨earlier, later, -, hentered⟩ := noted_mem hlog he
    exact ⟨earlier, hentered⟩
  have hsent : ((exec (routeStep uWord) .start es).log.flatMap (·.puts)).countP (· == .posted m) =
      (exec (routeStep uWord) .start es).log.countP (·.sends m) := countP_flatMap_one fun e he => by
    obtain ⟨earlier, h⟩ := hentered e he
    exact puts_once h hm
  refine ⟨fun a c hr aPosted o hmem hasked => ?_, hsent, ?_⟩
  · obtain ⟨earlier, h⟩ := hentered _ hmem
    obtain ⟨env, rfl, rfl⟩ := h.called a c hr aPosted rfl
    rw [asked_posts hasked]
    split <;> rfl
  · have hcount := countP_balanced (@balanced_exec uWord es) (· == .posted m)
    rw [hsent] at hcount
    have htaken : ((exec (routeStep uWord) .start es).log.flatMap (·.takes)).countP (· == .posted m) =
        (exec (routeStep uWord) .start es).log.countP (·.takesMsg m) + (exec (routeStep uWord) .start es).log.countP (·.astray m) :=
      countP_flatMap_two fun e he => by
        obtain ⟨earlier, h⟩ := hentered e he
        exact takes_once h m
    have hhanded : (exec (routeStep uWord) .start es).log.countP (·.takesMsg m) =
        (exec (routeStep uWord) .start es).log.countP (·.hands m) + (exec (routeStep uWord) .start es).log.countP (·.unheard m) :=
      countP_two fun e he => by
        obtain ⟨earlier, h⟩ := hentered e he
        exact took_once h hm
    rw [htaken, hhanded] at hcount
    rw [← hcount, List.count]
    omega

/-- The tagged message is sent once, and handed over. -/
theorem each_copy_once_tagged : CopiedOnce (exec (routeStep 64) .start (taggedRun none)) tagged ∧
    (exec (routeStep 64) .start (taggedRun none)).log.countP (·.sends tagged) = 1 ∧
    (exec (routeStep 64) .start (taggedRun none)).log.countP (·.hands tagged) = 1 :=
  ⟨each_copy_once 64 (taggedRun none) tagged ⟨by decide, by decide⟩, by decide, by decide⟩

end TargetFacade
