/-
  TargetFacade.Hub.Reply — request and response over the C++ wrapper (TargetFacadeFn.hpp:
  Hub::FnSink::make, OnMessage and OnMessageEx, Hub::reply).

  A handler is given a Message with the sender's tag (`handler_given`), and reply sends that tag back
  to the sender.

  - `response_has_request`: where a hub says a topic in replies only, a client that is handed the
    topic from there, with a tag, has called that hub with this tag before.
-/

import TargetFacade.Hub.Delivery

namespace TargetFacade

open OrdMap Runs Ledger KeyLog

/-! ## The sink -/

/-- The scalars of class Message. -/
structure FnMessage where
  source : WStr
  topic : WStr
  payload : List UInt8
  broadcast : Bool
  tag : UInt32
  priority : UInt32
  flags : UInt32
  deriving DecidableEq, Repr

/-- Inside the callback that hands over `h`. -/
def make (h : Handed) : FnMessage :=
  let out := (GetMsgInfo (some h.cur) ⟨none, none, some P2PF_PRI_NORMAL, some 0, some 0⟩).2
  { source := h.lpszSource
    topic := h.lpszTopic
    payload := h.aPayload
    broadcast := h.cur.2
    tag := out.outTag.getD 0
    priority := out.outPriority.getD P2PF_PRI_NORMAL
    flags := out.outFlags.getD 0 }

/-- The registries of one hub: which handlers are there. -/
structure FnSink where
  m_topics : Map WStr Bool
  m_fallback : Bool
  m_filter : Bool

inductive FnHandler where
  | filter
  | topic (strTopic : WStr)
  | fallback
  deriving DecidableEq, Repr

/-- The handler that is called, and with what. -/
def FnSink.OnMessage (s : FnSink) (h : Handed) : Option (FnHandler × FnMessage) :=
  let m := make h
  if s.m_topics[h.lpszTopic]? = some true then some (.topic h.lpszTopic, m)
  else if s.m_fallback then some (.fallback, m)
  else none

/-- `answer` is what the filter answers. -/
def FnSink.OnMessageEx (s : FnSink) (answer : HRESULT) (h : Handed) : HRESULT × Option (FnHandler × FnMessage) :=
  if s.m_filter then (answer, some (.filter, make h)) else (S_OK, s.OnMessage h)

/-- Hub::reply. -/
def reply (m : FnMessage) (topic : WStr) (payload : Option (List UInt8)) (size flags : UInt32) : PublicCall :=
  .sendEx (some m.source) (some topic) payload size P2PF_PRI_DEFAULT m.tag flags

/-- Whichever handler is called, it is given what was handed over. -/
theorem handler_given {s : FnSink} {answer : HRESULT} {h : Handed} {k : FnHandler} {m : FnMessage}
    (hm : (s.OnMessageEx answer h).2 = some (k, m)) : m = make h := by
  unfold FnSink.OnMessageEx at hm
  split at hm
  · exact (Prod.mk.inj (Option.some.inj hm)).2.symm
  · unfold FnSink.OnMessage at hm
    simp only at hm
    split at hm
    · exact (Prod.mk.inj (Option.some.inj hm)).2.symm
    · split at hm
      · exact (Prod.mk.inj (Option.some.inj hm)).2.symm
      · cases hm

/-- The tag of a handler's message is the tag it was sent with. -/
theorem make_tag {w : Said} {a : WStr} {h : Handed} (hr : Received w a h) : (make h).tag = w.uTag := by
  have ht := hr.tag ⟨none, none, some P2PF_PRI_NORMAL, some 0, some 0⟩
  show ((GetMsgInfo (some h.cur) ⟨none, none, some P2PF_PRI_NORMAL, some 0, some 0⟩).2.outTag).getD 0 = w.uTag
  rw [ht]
  rfl

/-! ## Replies -/

/-- The client of the hub at `b` has been handed `h`. -/
def HandedAt (b : WStr) (h : Handed) (log : List Happening) : Prop :=
  ∃ s answer m t strWhy, Happening.took b s answer m t strWhy ∈ log ∧ t.handed = some h

/-- A call under the topic answers something its client was handed. -/
def RepliesTo (b strTopic : WStr) (log : List Happening) (c : PublicCall) : Prop :=
  (∃ w, c.said = some w ∧ w.strTopic = strTopic) →
    ∃ h, HandedAt b h log ∧ ∃ payload size flags, c = reply (make h) strTopic payload size flags

/-- The hub at `b` says the topic in replies only. -/
def RepliesOnly (b strTopic : WStr) (n : RouteNet) : RouteEv → Prop
  | .call a c _ => a = b → RepliesTo b strTopic n.log c
  | _ => True

def Replied (b strTopic : WStr) (earlier : List Happening) (e : Happening) : Prop :=
  ∀ c hr aPosted, e = .called b c hr aPosted → RepliesTo b strTopic earlier c

variable {uWord : Nat} {b strTopic : WStr}

theorem replied_pass {n : RouteNet} (h : Noted (Replied b strTopic) n.log) (x : NetMsg) {e : Happening}
    (he : ∀ a c hr aPosted, e ≠ .called a c hr aPosted) : Noted (Replied b strTopic) (n.pass x e).log :=
  noted_snoc.mpr ⟨h, fun c hr aPosted heq => absurd heq (he b c hr aPosted)⟩

theorem replied_step (n : RouteNet) (e : RouteEv) (h : Noted (Replied b strTopic) n.log) (he : RepliesOnly b strTopic n e) :
    Noted (Replied b strTopic) (routeStep uWord n e).log := by
  cases e with
  | hub a s => exact h
  | call a c env =>
    simp only [routeStep]
    split
    case isFalse => exact h
    refine noted_snoc.mpr ⟨h, fun c' hr aPosted heq => ?_⟩
    cases heq
    exact he rfl
  | deliver m answer env children strWhy =>
    simp only [routeStep]
    split
    case isFalse => exact h
    split
    · exact h
    · exact replied_pass h _ fun _ _ _ _ h => by cases h
  | back x strAgain =>
    simp only [routeStep]
    split
    case isFalse => exact h
    split
    · exact replied_pass h _ fun _ _ _ _ h => by cases h
    · exact h
  | unroutable x strWhy =>
    simp only [routeStep]
    split
    · exact replied_pass h _ fun _ _ _ _ h => by cases h
    · exact h
  | lose x =>
    simp only [routeStep]
    split
    · exact replied_pass h _ fun _ _ _ _ h => by cases h
    · exact h

/-- Whoever is handed the topic from `b`, with a tag, has called `b` with this tag, or has broadcast it. -/
def Answered (b strTopic : WStr) (earlier : List Happening) (e : Happening) : Prop :=
  ∀ a s answer m t strWhy h, e = .took a s answer m t strWhy → t.handed = some h → h.lpszSource = b →
    h.lpszTopic = strTopic → ∃ c hr aPosted w, .called a c hr aPosted ∈ earlier ∧ c.said = some w ∧ w.uTag = (make h).tag ∧
      (w.strTo = some b ∨ w.strTo = none)

theorem handed_before {log : List Happening} (hsent : Noted HandedSent log) {h : Handed} (hh : HandedAt b h log) :
    ∃ c hr aPosted w, .called h.lpszSource c hr aPosted ∈ log ∧ c.said = some w ∧ Received w b h := by
  obtain ⟨s, answer, m, t, strWhy, hmem, hhanded⟩ := hh
  obtain ⟨earlier, later, hsplit, hpast⟩ := noted_mem hsent hmem
  obtain ⟨c, hr, aPosted, w, hc, hw, hreceived⟩ := hpast b s answer m t strWhy h rfl hhanded
  refine ⟨c, hr, aPosted, w, ?_, hw, hreceived⟩
  rw [hsplit]
  exact List.mem_append_left _ hc

theorem noted_front {Q : List Happening → Happening → Prop} {earlier later : List Happening} (h : Noted Q (earlier ++ later)) :
    Noted Q earlier := fun before e after he => h before e (after ++ later) (by rw [he, List.append_assoc]; rfl)

/-- What a reply says. -/
theorem reply_said {m : FnMessage} {topic : WStr} {payload : Option (List UInt8)} {size flags : UInt32} {w : Said}
    (h : (reply m topic payload size flags).said = some w) : w.strTo = some m.source ∧ w.uTag = m.tag := by
  obtain rfl := Option.some.inj h
  exact ⟨rfl, rfl⟩

theorem response_has_request (b strTopic : WStr) (es : List RouteEv) (hes : AllEnded es)
    (hreplies : Each (routeStep 64) (RepliesOnly b strTopic) .start es) :
    Noted (Answered b strTopic) (exec (routeStep 64) .start es).log := by
  have hsent := handedSent_exec hes
  have hreplied : Noted (Replied b strTopic) (exec (routeStep 64) .start es).log :=
    (always_of_each replied_step noted_nil hreplies).last
  intro earlier e later hlog a s answer m t strWhy h he hh hb htopic
  -- the response is a call of the hub at b
  obtain ⟨c, hr, aPosted, w, hc, hw, hreceived⟩ := hsent earlier e later hlog a s answer m t strWhy h he hh
  rw [hlog] at hsent hreplied
  rw [hb] at hc
  obtain ⟨before, after, hsplit, hrep⟩ := noted_mem (noted_front hreplied) hc
  obtain ⟨h', hh', payload, size, flags, rfl⟩ := hrep c hr aPosted rfl ⟨w, hw, hreceived.topic.symm.trans htopic⟩
  obtain ⟨hto, htag⟩ := reply_said hw
  -- which answers a request of the one it is for
  have hbefore : Noted HandedSent before := noted_front (hsplit ▸ noted_front hsent)
  obtain ⟨c', hr', aPosted', w', hc', hw', hreceived'⟩ := handed_before hbefore hh'
  have ha : h'.lpszSource = a := hreceived.here _ hto
  rw [ha] at hc'
  refine ⟨c', hr', aPosted', w', ?_, hw', ?_, ?_⟩
  · rw [hsplit]
    exact List.mem_append_left _ hc'
  · rw [make_tag hreceived, htag, make_tag hreceived']
  · cases hto' : w'.strTo with
    | none => exact Or.inr rfl
    | some strTo => exact Or.inl (congrArg some (hreceived'.here strTo hto'))

/-- What the handler is given of the tagged message. -/
def taggedHanded : Handed := tagged.handed ⟨L "hi", [1]⟩ false

/-- Its handler replies, and the reply is taken. -/
def repliedRun : List RouteEv :=
  taggedRun none ++ [.call (L "b") (reply (make taggedHanded) (L "ok") none 0 0) {},
    .deliver ⟨L "b", L "a", L "ok", [], some ⟨P2PF_PRI_DEFAULT, 9, 0, none⟩⟩ none {} [] []]

theorem tagged_handed : HandedAt (L "b") taggedHanded (exec (routeStep 64) .start (taggedRun none)).log := by
  refine ⟨⟨true, true⟩, none, tagged, { handed := some taggedHanded }, [], ?_, rfl⟩
  have hlog : (exec (routeStep 64) .start (taggedRun none)).log = [.called (L "a") (.sendEx (some (L "b")) (some (L "hi"))
      (some [1]) 1 7 9 0) S_OK [tagged], .took (L "b") ⟨true, true⟩ none tagged { handed := some taggedHanded } []] := rfl
  rw [hlog]
  exact List.mem_cons_of_mem _ List.mem_cons_self

theorem response_has_request_tagged : Noted (Answered (L "b") (L "ok")) (exec (routeStep 64) .start repliedRun).log := by
  refine response_has_request (L "b") (L "ok") repliedRun (fun a c env h w hw => ?_) ?_
  · simp only [repliedRun, taggedRun, List.cons_append, List.nil_append, List.mem_cons, reduceCtorEq, false_or, or_false,
      RouteEv.call.injEq, List.not_mem_nil] at h
    rcases h with ⟨-, rfl, -⟩ | ⟨-, rfl, -⟩
    · cases hw
      decide
    · cases hw
      decide
  · have hother : L "a" ≠ L "b" := by decide
    have hreply : RepliesTo (L "b") (L "ok") (exec (routeStep 64) .start (taggedRun none)).log
        (reply (make taggedHanded) (L "ok") none 0 0) := fun _ => ⟨taggedHanded, tagged_handed, none, 0, 0, rfl⟩
    exact each_cons.mpr ⟨trivial, each_cons.mpr ⟨trivial, each_cons.mpr ⟨fun h => absurd h hother,
      each_cons.mpr ⟨trivial, each_cons.mpr ⟨fun _ => hreply, each_cons.mpr ⟨trivial, each_nil⟩⟩⟩⟩⟩⟩

end TargetFacade
