/-
  TargetFacade.Network.Freed — when a handler of Network.Handlers may be freed.

  Results:
  (1) `freed_unregistered`: a handler that is freed is never the registered one, whatever calls
      overlap.
  (2) `handlers_safe_iff`: no handler is freed that is registered, or that a thread has read or is
      in, exactly if each free that does not come after a wait for the deliveries finds nobody in
      what it frees.
  (3) What comes without a wait: a call that replaces a handler from outside (`replaced_running`),
      one that subscribes from outside while a handler that has unsubscribed itself still runs
      (`retired_running`), a Network that goes, not as the last one, while its handler that has
      unsubscribed itself still runs (`gone_running`), and a wait that is given up (`given_up`).
-/

import TargetFacade.Network.Handlers

namespace TargetFacade

open Function (update update_self update_of_ne)
open OrdMap Runs

variable {s : Handlers} {nThread : UInt32} {c : HandlerCall}

/-! ## A call begins -/

theorem begin_inCall (s : Handlers) (nThread : UInt32) (c : HandlerCall) : (s.begin_ nThread c).inCall c.net = true := by
  unfold Handlers.begin_
  simp

/-- Handlers are made, and a thread that is in no call goes into one. -/
theorem inv_begin (hi : HandlersInv s) (hc : s.calls[nThread]? = none) (hin : s.inCall c.net = false) {d' : DiagState}
    {nSinks : Nat} (hsink : d'.pDiagSink = s.diag.pDiagSink) (hdel : d'.deliveries = s.diag.deliveries)
    (hbusy : d'.lDiagBusy = s.diag.lDiagBusy) (hsets : ∀ n, n ≠ nThread → d'.setters[n]? = s.diag.setters[n]?)
    (hn : s.nSinks ≤ nSinks) (hnext : ∀ k, c.next = some k → s.nSinks ≤ k)
    (hown : CallInv ({ s with diag := d', nSinks := nSinks }.begin_ nThread c) nThread c) :
    HandlersInv ({ s with diag := d', nSinks := nSinks }.begin_ nThread c) := by
  have hmore {k : Nat} (hk : k < s.nSinks) : k < nSinks := Nat.lt_of_lt_of_le hk hn
  have hold {n : UInt32} {b : HandlerCall} (hb : (s.calls.insert nThread c)[n]? = some b) (hne : n ≠ nThread) :
      s.calls[n]? = some b := by
    rw [get_insert, if_neg hne.symm] at hb
    exact hb
  have hself {b : HandlerCall} (hb : (s.calls.insert nThread c)[nThread]? = some b) : c = b := by
    rw [get_insert, if_pos rfl] at hb
    exact Option.some.inj hb
  have hapart {n : UInt32} {b : HandlerCall} (hb : s.calls[n]? = some b) : b.net ≠ c.net := by
    intro he
    have h := (hi.calls n b hb).inCall
    rw [he, hin] at h
    cases h
  refine ⟨?_, fun k hk => hmore (hi.registered k (hsink.symm.trans hk)),
    fun k hk => hmore (hi.held k ((held_congr hdel k).mp hk)), fun k hk => hmore (hi.freed k hk),
    fun net k hk => hmore (hi.owned net k hk), fun net k hk => ?_, fun n b hb => ?_, fun m n a b ha hb he => ?_,
    fun m n a b k ha hb hka hkb => ?_, fun n hn => ?_, fun k hk => ?_⟩
  · show d'.lDiagBusy = d'.deliveries.size
    rw [hbusy, hdel, hi.busy]
  · show d'.pDiagSink ≠ some k
    rw [hsink]
    exact hi.retired net k hk
  · by_cases hne : n = nThread
    · subst hne
      obtain rfl := hself hb
      exact hown
    · have hb := hold hb hne
      have h := hi.calls n b hb
      have hoff : b.Past s.diag.setters[n]? → ∀ k, s.sinkOf b.net = some k → d'.pDiagSink ≠ some k := by
        rw [hsink]
        exact h.off
      have h := h.other (s.calls.insert nThread c) (hsets n hne) hdel hoff
      refine ⟨?_, h.client, fun k hk => ?_, h.sink, h.there, h.off, h.quiet⟩
      · show update s.inCall c.net true b.net = true
        rw [update_of_ne (hapart hb)]
        exact h.inCall
      · obtain ⟨hlt, hfree, howned⟩ := h.fresh k hk
        exact ⟨hmore hlt, hfree, howned⟩
  · by_cases hm : m = nThread <;> by_cases hn : n = nThread
    · exact hm.trans hn.symm
    · subst hm
      obtain rfl := hself ha
      exact absurd he.symm (hapart (hold hb hn))
    · subst hn
      obtain rfl := hself hb
      exact absurd he (hapart (hold ha hm))
    · exact hi.alone m n a b (hold ha hm) (hold hb hn) he
  · have hlt {i : UInt32} {x : HandlerCall} (hx : s.calls[i]? = some x) (hk : x.next = some k) (hc : c.next = some k) : False :=
      Nat.not_lt_of_le (hnext k hc) ((hi.calls i x hx).fresh k hk).1
    by_cases hm : m = nThread <;> by_cases hn : n = nThread
    · exact hm.trans hn.symm
    · subst hm
      obtain rfl := hself ha
      exact absurd (hlt (hold hb hn) hkb hka) id
    · subst hn
      obtain rfl := hself hb
      exact absurd (hlt (hold ha hm) hka hkb) id
    · exact hi.distinct m n a b k (hold ha hm) (hold hb hn) hka hkb
  · have hn : (s.calls.insert nThread c)[n]? = none := hn
    rw [get_insert] at hn
    split at hn
    · cases hn
    · rename_i hne
      exact (hsets n (Ne.symm hne)).trans (hi.outside n hn)
  · show d'.pDiagSink ≠ some k
    rw [hsink]
    exact hi.unregistered k hk

/-- A SetDiagSink that refuses: what was made for it is freed. -/
theorem inv_refusal (hi : HandlersInv s) {d' : DiagState} {nSinks : Nat} {next : Option Nat} (hsink : d'.pDiagSink = s.diag.pDiagSink)
    (hdel : d'.deliveries = s.diag.deliveries) (hbusy : d'.lDiagBusy = s.diag.lDiagBusy) (hsets : d'.setters = s.diag.setters)
    (hn : s.nSinks ≤ nSinks) (hnext : ∀ k, next = some k → s.nSinks ≤ k ∧ k < nSinks) :
    HandlersInv { s with diag := d', nSinks := nSinks, freed := s.freed ++ next.toList } := by
  have hset (n : UInt32) : d'.setters[n]? = s.diag.setters[n]? := by rw [hsets]
  have hmore {k : Nat} (hk : k < s.nSinks) : k < nSinks := Nat.lt_of_lt_of_le hk hn
  refine ⟨?_, fun k hk => hmore (hi.registered k (hsink.symm.trans hk)),
    fun k hk => hmore (hi.held k ((held_congr hdel k).mp hk)), fun k hk => ?_,
    fun net k hk => hmore (hi.owned net k hk), fun net k hk => ?_, fun n b hb => ?_, hi.alone, hi.distinct,
    fun n hn => (hset n).trans (hi.outside n hn), fun k hk hr => ?_⟩
  · show d'.lDiagBusy = d'.deliveries.size
    rw [hbusy, hdel, hi.busy]
  · rcases List.mem_append.mp hk with hk | hk
    · exact hmore (hi.freed k hk)
    · exact (hnext k (Option.mem_toList.mp hk)).2
  · show d'.pDiagSink ≠ some k
    rw [hsink]
    exact hi.retired net k hk
  · have h := hi.calls n b hb
    have hoff : b.Past s.diag.setters[n]? → ∀ k, s.sinkOf b.net = some k → d'.pDiagSink ≠ some k := by
      rw [hsink]
      exact h.off
    have h := h.other s.calls (hset n) hdel hoff
    refine ⟨h.inCall, h.client, fun k hk => ?_, h.sink, h.there, h.off, h.quiet⟩
    obtain ⟨hlt, hfree, howned⟩ := h.fresh k hk
    refine ⟨hmore hlt, fun hin => ?_, howned⟩
    rcases List.mem_append.mp hin with hin | hin
    · exact hfree hin
    · exact Nat.not_lt_of_le (hnext k (Option.mem_toList.mp hin)).1 hlt
  · have hr : s.diag.pDiagSink = some k := hsink.symm.trans hr
    rcases List.mem_append.mp hk with hk | hk
    · exact hi.unregistered k hk hr
    · exact Nat.not_lt_of_le (hnext k (Option.mem_toList.mp hk)).1 (hi.registered k hr)

theorem unheld_refusal (hi : HandlersInv s) (hu : Unheld s) {d' : DiagState} {nSinks : Nat} {next : Option Nat}
    (hdel : d'.deliveries = s.diag.deliveries) (hnext : ∀ k, next = some k → s.nSinks ≤ k) :
    Unheld { s with diag := d', nSinks := nSinks, freed := s.freed ++ next.toList } := by
  intro k hk hh
  have hh : s.diag.Held k := (held_congr hdel k).mp hh
  rcases List.mem_append.mp hk with hk | hk
  · exact hu k hk hh
  · exact Nat.not_lt_of_le (hnext k (Option.mem_toList.mp hk)) (hi.held k hh)

/-- SetDiagSink has begun for a call that was in none. -/
theorem inv_setting (hi : HandlersInv s) (hc : s.calls[nThread]? = none) (hin : s.inCall c.net = false)
    (hclient : s.diag.Inside nThread = true ∨ s.diag.deliveries[nThread]? = none) {d' : DiagState} {nSinks : Nat}
    (hsink : d'.pDiagSink = s.diag.pDiagSink) (hdel : d'.deliveries = s.diag.deliveries) (hbusy : d'.lDiagBusy = s.diag.lDiagBusy)
    (hsets : d'.setters = s.diag.setters.insert nThread ⟨c.next, none, .masked⟩) (hn : s.nSinks ≤ nSinks)
    (hnext : ∀ k, c.next = some k → s.nSinks ≤ k ∧ k < nSinks)
    (hpc : c.pc = .setting ∨ c.pc = .dtorSetting ∧ c.next = none) (hquiet : c.bQuiet = false) :
    HandlersInv ({ s with diag := d', nSinks := nSinks }.begin_ nThread c) := by
  have hself : d'.setters[nThread]? = some ⟨c.next, none, .masked⟩ := by rw [hsets, get_insert, if_pos rfl]
  have hothers (n : UInt32) (hne : n ≠ nThread) : d'.setters[n]? = s.diag.setters[n]? := by
    rw [hsets, get_insert, if_neg hne.symm]
  refine inv_begin hi hc hin hsink hdel hbusy hothers hn (fun k hk => (hnext k hk).1)
    ⟨begin_inCall _ nThread c, ?_, fun k hk => ⟨(hnext k hk).2, ?_, fun net hk' => ?_⟩, fun x hx => ?_, ?_,
      fun hpast => absurd hpast ?_, fun hq => ?_⟩
  · show d'.Inside nThread = true ∨ d'.deliveries[nThread]? = none
    rw [inside_of_get (congrArg (·[nThread]?) hdel), hdel]
    exact hclient
  · exact fun hf => Nat.not_lt_of_le (hnext k hk).1 (hi.freed k hf)
  · exact Nat.not_lt_of_le (hnext k hk).1 (hi.owned net k hk')
  · obtain rfl := Option.some.inj (hself.symm.trans hx)
    rcases hpc with hpc | ⟨hpc, hnone⟩
    · rw [if_pos hpc]
    · rw [if_neg (by rw [hpc]; nofun)]
      exact hnone
  · show c.pc.InSink = (d'.setters[nThread]?).isSome
    rw [hself]
    rcases hpc with hpc | ⟨hpc, -⟩ <;> rw [hpc] <;> rfl
  · -- the exchange is still to come
    have hbefore : ¬ ∃ y, d'.setters[nThread]? = some y ∧ y.pc ≠ .masked := by
      rintro ⟨y, hy, hne⟩
      obtain rfl := Option.some.inj (hself.symm.trans hy)
      exact hne rfl
    show ¬ c.Past d'.setters[nThread]?
    unfold HandlerCall.Past
    rcases hpc with hpc | ⟨hpc, -⟩ <;> rw [hpc] <;> exact hbefore
  · rw [hquiet] at hq
    cases hq

theorem free_client (h : s.Free nThread = true) :
    s.calls[nThread]? = none ∧ (s.diag.Inside nThread = true ∨ s.diag.deliveries[nThread]? = none) := by
  obtain ⟨hc, hin⟩ := Bool.and_eq_true_iff.mp h
  refine ⟨Option.isNone_iff_eq_none.mp hc, ?_⟩
  exact (Bool.or_eq_true_iff.mp hin).imp_right Option.isNone_iff_eq_none.mp

theorem inv_onDiag (hi : HandlersInv s) (net : Nat) (fn : Bool) (mask : UInt32) :
    HandlersInv (onDiag nThread net fn mask s) ∧ (Unheld s → Unheld (onDiag nThread net fn mask s)) := by
  unfold onDiag
  split
  · rename_i h
    obtain ⟨h, hin⟩ := Bool.and_eq_true_iff.mp h
    obtain ⟨hc, hclient⟩ := free_client (Bool.and_eq_true_iff.mp h).1
    have hin : s.inCall net = false := by simpa using hin
    have hno := hi.outside nThread hc
    have hn : s.nSinks ≤ if fn then s.nSinks + 1 else s.nSinks := by split <;> omega
    have hnext (k : Nat) (hk : (if fn then some s.nSinks else none) = some k) :
        s.nSinks ≤ k ∧ k < if fn then s.nSinks + 1 else s.nSinks := by
      cases fn with
      | false => cases hk
      | true =>
        obtain rfl := Option.some.inj hk
        exact ⟨Nat.le_refl _, Nat.lt_succ_self _⟩
    obtain ⟨hsink, hdel, hbusy, hsets⟩ :=
      setDiagSink_frame nThread (if fn then some s.nSinks else none) (if fn then mask else 0) s.diag
    simp only
    rcases hsets with hsets | hsets
    · -- refused
      rw [if_neg (by rw [hsets, hno]; nofun)]
      exact ⟨inv_refusal hi hsink hdel hbusy hsets hn hnext, fun hu => unheld_refusal hi hu hdel fun k hk => (hnext k hk).1⟩
    · rw [if_pos (by rw [hsets, get_insert, if_pos rfl]; rfl)]
      exact ⟨inv_setting (c := ⟨net, _, .setting, false⟩) hi hc hin hclient hsink hdel hbusy hsets hn hnext (Or.inl rfl) rfl,
        fun hu => unheld_moved hu hdel⟩
  · exact ⟨hi, id⟩

theorem inv_destroy (hi : HandlersInv s) (net : Nat) :
    HandlersInv (destroy nThread net s) ∧ (Unheld s → Unheld (destroy nThread net s)) := by
  unfold destroy
  split
  · rename_i h
    obtain ⟨h, hin⟩ := Bool.and_eq_true_iff.mp h
    obtain ⟨hc, hclient⟩ := free_client (Bool.and_eq_true_iff.mp h).1
    have hin : s.inCall net = false := by simpa using hin
    have hno := hi.outside nThread hc
    split
    · obtain ⟨hsink, hdel, hbusy, -⟩ := setDiagSink_frame nThread none 0 s.diag
      have hsets := setDiagSink_clears hno hclient
      exact ⟨inv_setting (c := ⟨net, none, .dtorSetting, false⟩) hi hc hin hclient hsink hdel hbusy hsets (Nat.le_refl _) nofun
        (Or.inr ⟨rfl, rfl⟩) rfl, fun hu => unheld_moved hu hdel⟩
    · rename_i hnone
      have hnone : s.sinkOf net = none := by simpa using hnone
      refine ⟨inv_begin (c := ⟨net, none, .releasing, false⟩) hi hc hin rfl rfl rfl (fun _ _ => rfl) (Nat.le_refl _) nofun
        ⟨begin_inCall _ nThread ⟨net, none, .releasing, false⟩, hclient, nofun, fun x hx => ?_, ?_, fun _ k hk => ?_, nofun⟩, id⟩
      · exact absurd (hno.symm.trans hx) nofun
      · show false = (s.diag.setters[nThread]?).isSome
        rw [hno]
        rfl
      · rw [show s.sinkOf net = some k from hk] at hnone
        cases hnone
  · exact ⟨hi, id⟩

/-! ## A call goes on, and ends -/

theorem CallInv.out (h : CallInv s nThread c) (hpc : c.pc.InSink = false) : s.diag.setters[nThread]? = none :=
  Option.isNone_iff_eq_none.mp (Option.isSome_eq_false_iff.mp (h.there.symm.trans hpc))

theorem inv_nets (hi : HandlersInv s) (nets : List Nat) (bDown : Bool) : HandlersInv { s with nets := nets, bDown := bDown } := by
  refine ⟨hi.busy, hi.registered, hi.held, hi.freed, hi.owned, hi.retired, fun n b hb => ?_, hi.alone, hi.distinct, hi.outside,
    hi.unregistered⟩
  have h := hi.calls n b hb
  exact ⟨h.inCall, h.client, h.fresh, h.sink, h.there, h.off, h.quiet⟩

/-- Release: the members are left as they are. -/
theorem release_step (hi : HandlersInv s) (hc : s.calls[nThread]? = some c) (hpc : c.pc = .releasing) :
    HandlersInv (callStep nThread c s) ∧ (Unheld s → Unheld (callStep nThread c s)) := by
  have h := hi.calls nThread c hc
  have hno : s.diag.setters[nThread]? = none := h.out (by rw [hpc]; rfl)
  have hpast : c.Past s.diag.setters[nThread]? := past_of_out (by rw [hpc]; rfl)
  unfold callStep
  rw [hpc]
  simp only
  split
  · -- the last one
    obtain ⟨hsink, hdel, hbusy, -⟩ := setDiagSink_frame nThread none 0 s.diag
    have hsets := setDiagSink_clears hno h.client
    have hself : (SetDiagSink nThread none 0 s.diag).setters[nThread]? = some ⟨none, none, .masked⟩ := by
      rw [hsets, get_insert, if_pos rfl]
    have hothers (n : UInt32) (hne : n ≠ nThread) : (SetDiagSink nThread none 0 s.diag).setters[n]? = s.diag.setters[n]? := by
      rw [hsets, get_insert, if_neg hne.symm]
    have hleft (k : Nat) (hk : (SetDiagSink nThread none 0 s.diag).pDiagSink = some k) :
        s.diag.pDiagSink = some k ∨ c.next = some k := Or.inl (hsink.symm.trans hk)
    have hi' : HandlersInv { s with
        diag := SetDiagSink nThread none 0 s.diag, calls := s.calls.insert nThread { c with pc := .shutting } } := by
      refine inv_moved hi hc hdel hbusy hothers hleft ⟨h.inCall, ?_, h.fresh, fun x hx => ?_, ?_, fun _ k hk => ?_, fun hq => ?_⟩
      · show (SetDiagSink nThread none 0 s.diag).Inside nThread = true ∨
          (SetDiagSink nThread none 0 s.diag).deliveries[nThread]? = none
        rw [inside_of_get (congrArg (·[nThread]?) hdel), hdel]
        exact h.client
      · obtain rfl := Option.some.inj (hself.symm.trans hx)
        rfl
      · show true = ((SetDiagSink nThread none 0 s.diag).setters[nThread]?).isSome
        rw [hself]
        rfl
      · show (SetDiagSink nThread none 0 s.diag).pDiagSink ≠ some k
        rw [hsink]
        exact h.off hpast k hk
      · exact ⟨trivial, fun k hk => mt (held_congr hdel k).mp ((h.quiet hq).2 k hk)⟩
    exact ⟨inv_nets hi' _ true, fun hu => unheld_moved hu hdel⟩
  · have hi' : HandlersInv { s with diag := s.diag, calls := s.calls.insert nThread { c with pc := .destroying } } := by
      refine inv_moved hi hc rfl rfl (fun _ _ => rfl) (fun _ hk => Or.inl hk)
        ⟨h.inCall, h.client, h.fresh, fun x hx => ?_, ?_, fun _ k hk => h.off hpast k hk, fun hq => ⟨trivial, (h.quiet hq).2⟩⟩
      · exact absurd (hno.symm.trans hx) nofun
      · show false = (s.diag.setters[nThread]?).isSome
        rw [hno]
        rfl
    exact ⟨inv_nets hi' _ s.bDown, id⟩

/-- A Network keeps some of its handlers, and the one that the call has registered, and lets go of others. -/
theorem inv_finish (hi : HandlersInv s) (hc : s.calls[nThread]? = some c) (hpc : c.pc.InSink = false) {x : Option Nat}
    {l freed : List Nat} (hx : ∀ k, x = some k → c.next = some k) (hl : ∀ k ∈ l, k ∈ s.owned c.net)
    (hf : ∀ k ∈ freed, k ∈ s.freed ∨ k ∈ s.owned c.net) :
    HandlersInv ({ s with
      sinkOf := update s.sinkOf c.net x, retired := update s.retired c.net l, freed := freed }.finish nThread c) := by
  have h := hi.calls nThread c hc
  have hold {n : UInt32} {b : HandlerCall} (hb : (s.calls.erase nThread)[n]? = some b) :
      s.calls[n]? = some b ∧ n ≠ nThread ∧ b.net ≠ c.net := by
    obtain ⟨hne, hb⟩ := get_of_erase hb
    exact ⟨hb, hne.symm, fun he => hne (hi.alone nThread n c b hc hb he.symm)⟩
  have howned {net k : Nat} (hk : update s.sinkOf c.net x net = some k ∨ k ∈ update s.retired c.net l net) :
      k ∈ s.owned net ∨ net = c.net ∧ c.next = some k := by
    by_cases hnet : net = c.net
    · subst hnet
      rw [update_self, update_self] at hk
      exact hk.elim (fun hk => Or.inr ⟨rfl, hx k hk⟩) fun hk => Or.inl (hl k hk)
    · rw [update_of_ne hnet, update_of_ne hnet] at hk
      exact Or.inl (mem_owned.mpr hk)
  refine ⟨hi.busy, hi.registered, hi.held, fun k hk => ?_, fun net k hk => ?_, fun net k hk => ?_, fun n b hb => ?_,
    fun m n a b ha hb => hi.alone m n a b (hold ha).1 (hold hb).1,
    fun m n a b k ha hb => hi.distinct m n a b k (hold ha).1 (hold hb).1, fun n hn => ?_,
    fun k hk => (hf k hk).elim (hi.unregistered k) (hi.off hc (past_of_out hpc))⟩
  · exact (hf k hk).elim (hi.freed k) (hi.owned c.net k)
  · exact (howned (mem_owned.mp hk)).elim (hi.owned net k) fun ⟨_, hk⟩ => (h.fresh k hk).1
  · have hk : k ∈ update s.retired c.net l net := hk
    by_cases hnet : net = c.net
    · subst hnet
      rw [update_self] at hk
      exact hi.off hc (past_of_out hpc) (hl k hk)
    · rw [update_of_ne hnet] at hk
      exact hi.retired net k hk
  · obtain ⟨hb, hne, hnet⟩ := hold hb
    have hb := hi.calls n b hb
    have hsink : update s.sinkOf c.net x b.net = s.sinkOf b.net := update_of_ne hnet ..
    have hret : update s.retired c.net l b.net = s.retired b.net := update_of_ne hnet ..
    refine ⟨?_, hb.client, fun k hk => ?_, hb.sink, hb.there, fun hp k hk => ?_, fun hq => ?_⟩
    · show update s.inCall c.net false b.net = true
      rw [update_of_ne hnet]
      exact hb.inCall
    · obtain ⟨hlt, hfree, hno⟩ := hb.fresh k hk
      refine ⟨hlt, fun hin => (hf k hin).elim hfree (hno c.net), fun net hin => ?_⟩
      rcases howned (mem_owned.mp hin) with hin | ⟨-, hnext⟩
      · exact hno net hin
      · exact hne (hi.distinct n nThread b c k (hold ‹_›).1 hc hk hnext)
    · exact hb.off hp k (hsink.symm.trans hk)
    · obtain ⟨hp, hno⟩ := hb.quiet hq
      refine ⟨hp, fun k hk => hno k ?_⟩
      refine mem_owned.mpr ((mem_owned.mp hk).imp (fun hk => hsink.symm.trans hk) fun hk => ?_)
      rw [← hret]
      exact hk
  · by_cases hne : n = nThread
    · subst hne
      exact h.out hpc
    · have hn : (s.calls.erase nThread)[n]? = none := hn
      rw [get_erase, if_neg (Ne.symm hne)] at hn
      exact hi.outside n hn

theorem unheld_finish (hu : Unheld s) (h : ∀ k ∈ s.owned c.net, ¬ s.diag.Held k) : ∀ k ∈ s.freed ++ s.owned c.net, ¬ s.diag.Held k :=
  fun k hk => (List.mem_append.mp hk).elim (hu k) (h k)

/-- The call's next step frees what the Network has. -/
def HandlerCall.Frees (c : HandlerCall) (bInside : Bool) : Bool :=
  match c.pc with
  | .retiring => !bInside
  | .destroying => true
  | _ => false

/-- A call that frees, and has not waited, finds nobody in what it frees. -/
def Careful (s : Handlers) : HandlerEv → Prop
  | .step nThread => ∀ c : HandlerCall, s.calls[nThread]? = some c → c.Frees (s.diag.Inside nThread) = true →
      c.bQuiet = false → ∀ k ∈ s.owned c.net, ¬ s.diag.Held k
  | _ => True

/-- What a freeing step finds, after a wait or without one. -/
theorem held_of_careful (hi : HandlersInv s) (hc : s.calls[nThread]? = some c) (hcare : Careful s (.step nThread))
    (hf : c.Frees (s.diag.Inside nThread) = true) : ∀ k ∈ s.owned c.net, ¬ s.diag.Held k := by
  cases hq : c.bQuiet with
  | true => exact ((hi.calls nThread c hc).quiet hq).2
  | false => exact hcare c hc hf hq

theorem retire_step (hi : HandlersInv s) (hc : s.calls[nThread]? = some c) (hpc : c.pc = .retiring) :
    HandlersInv (retire nThread c s) ∧ (Unheld s → Careful s (.step nThread) → Unheld (retire nThread c s)) := by
  have hout : c.pc.InSink = false := by
    rw [hpc]
    rfl
  have hold {k : Nat} (hk : k ∈ (s.sinkOf c.net).toList) : k ∈ s.owned c.net := List.mem_append_left _ hk
  have hret {k : Nat} (hk : k ∈ s.retired c.net) : k ∈ s.owned c.net := List.mem_append_right _ hk
  unfold retire
  simp only
  split
  · exact ⟨inv_finish hi hc hout (fun _ hk => hk) (fun k hk => (List.mem_append.mp hk).elim hret hold) fun _ hk => Or.inl hk,
      fun hu _ => hu⟩
  · rename_i hin
    have hf : c.Frees (s.diag.Inside nThread) = true := by
      unfold HandlerCall.Frees
      rw [hpc, Bool.eq_false_iff.mpr hin]
      rfl
    exact ⟨inv_finish hi hc hout (fun _ hk => hk) nofun fun k hk => List.mem_append.mp hk,
      fun hu hcare => unheld_finish hu (held_of_careful hi hc hcare hf)⟩

theorem destroying_step (hi : HandlersInv s) (hc : s.calls[nThread]? = some c) (hpc : c.pc = .destroying) :
    HandlersInv (callStep nThread c s) ∧ (Unheld s → Careful s (.step nThread) → Unheld (callStep nThread c s)) := by
  have hout : c.pc.InSink = false := by
    rw [hpc]
    rfl
  have hf : c.Frees (s.diag.Inside nThread) = true := by
    unfold HandlerCall.Frees
    rw [hpc]
  unfold callStep
  rw [hpc]
  exact ⟨inv_finish hi hc hout nofun nofun fun k hk => List.mem_append.mp hk,
    fun hu hcare => unheld_finish hu (held_of_careful hi hc hcare hf)⟩

theorem inSink_step (hi : HandlersInv s) (hc : s.calls[nThread]? = some c) (hin : c.pc.InSink = true) {pc : HandlerPc}
    (hpc : pc.InSink = false) : HandlersInv (s.inSink nThread c pc) ∧ (Unheld s → Unheld (s.inSink nThread c pc)) := by
  obtain ⟨d', pc', bQuiet, heq, hdel, hbusy, hsets, hsink, hown⟩ := inSink_cases hi hc hin hpc
  rw [heq]
  exact ⟨inv_moved hi hc hdel hbusy hsets hsink hown, fun hu => unheld_moved hu hdel⟩

theorem call_step (hi : HandlersInv s) (hc : s.calls[nThread]? = some c) :
    HandlersInv (callStep nThread c s) ∧ (Unheld s → Careful s (.step nThread) → Unheld (callStep nThread c s)) := by
  have hinSink {pc : HandlerPc} (hin : c.pc.InSink = true) (hpc : pc.InSink = false) :
      HandlersInv (s.inSink nThread c pc) ∧ (Unheld s → Careful s (.step nThread) → Unheld (s.inSink nThread c pc)) := by
    obtain ⟨hi', hu'⟩ := inSink_step hi hc hin hpc
    exact ⟨hi', fun hu _ => hu' hu⟩
  cases hpc : c.pc with
  | setting =>
    unfold callStep
    rw [hpc]
    exact hinSink (by rw [hpc]; rfl) rfl
  | retiring =>
    unfold callStep
    rw [hpc]
    exact retire_step hi hc hpc
  | dtorSetting =>
    unfold callStep
    rw [hpc]
    exact hinSink (by rw [hpc]; rfl) rfl
  | releasing =>
    obtain ⟨hi', hu'⟩ := release_step hi hc hpc
    exact ⟨hi', fun hu _ => hu' hu⟩
  | shutting =>
    unfold callStep
    rw [hpc]
    exact hinSink (by rw [hpc]; rfl) rfl
  | destroying => exact destroying_step hi hc hpc

/-- Every step keeps the invariant, and one with care frees nothing that is held. -/
theorem handler_step (s : Handlers) (e : HandlerEv) (hi : HandlersInv s) :
    HandlersInv (handlerStep s e) ∧ (Unheld s → Careful s e → Unheld (handlerStep s e)) := by
  cases e with
  | make net =>
    unfold handlerStep
    simp only
    split
    · exact ⟨hi, fun hu _ => hu⟩
    · exact ⟨inv_nets hi _ s.bDown, fun hu _ => hu⟩
  | raise nThread =>
    unfold handlerStep
    simp only
    split
    · exact ⟨hi, fun hu _ => hu⟩
    · rename_i hc
      have hf := frame_raise nThread s.diag
      exact ⟨inv_frame hi (by simpa using hc) hf, fun hu _ => unheld_frame hi hu hf⟩
  | deliver nThread uSeverity =>
    unfold handlerStep
    simp only
    split
    · exact ⟨hi, fun hu _ => hu⟩
    · rename_i hc
      have hf := frame_deliver nThread uSeverity s.diag
      exact ⟨inv_frame hi (by simpa using hc) hf, fun hu _ => unheld_frame hi hu hf⟩
  | onDiag nThread net fn mask =>
    obtain ⟨hi', hu'⟩ := inv_onDiag hi net fn mask
    exact ⟨hi', fun hu _ => hu' hu⟩
  | destroy nThread net =>
    obtain ⟨hi', hu'⟩ := inv_destroy hi net
    exact ⟨hi', fun hu _ => hu' hu⟩
  | step nThread =>
    unfold handlerStep
    simp only
    split
    · exact ⟨hi, fun hu _ => hu⟩
    · exact call_step hi ‹_›

/-- A step that frees leaves the deliveries as they are, and what the Network had is freed. -/
theorem careful_of_safe (s : Handlers) (e : HandlerEv) (h : HandlersSafe (handlerStep s e)) : Careful s e := by
  cases e with
  | step nThread =>
    intro c hc hf _ k hk
    have hstep : handlerStep s (.step nThread) = callStep nThread c s := by
      unfold handlerStep
      simp only
      rw [hc]
    rw [hstep] at h
    unfold HandlerCall.Frees at hf
    unfold callStep at h
    cases hpc : c.pc with
    | retiring =>
      rw [hpc] at h hf
      have hin : s.diag.Inside nThread = false := by simpa using hf
      unfold retire at h
      simp only at h
      rw [if_neg (by rw [hin]; nofun)] at h
      exact (h k (List.mem_append_right _ hk)).2
    | destroying =>
      rw [hpc] at h
      exact (h k (List.mem_append_right _ hk)).2
    | _ =>
      rw [hpc] at hf
      cases hf
  | _ => trivial

theorem inv_first : HandlersInv .started := by
  refine ⟨Std.ExtTreeMap.size_empty.symm, nofun, fun k hk => ?_, nofun, fun net k hk => ?_, nofun, fun n c hc => ?_,
    fun m n b c hb => ?_, fun m n b c k hb => ?_, fun _ _ => Std.ExtTreeMap.getElem?_empty, nofun⟩
  · obtain ⟨n, d, hd, -⟩ := hk
    rw [show Handlers.started.diag.deliveries[n]? = none from Std.ExtTreeMap.getElem?_empty] at hd
    cases hd
  · cases hk
  · rw [show Handlers.started.calls[n]? = none from Std.ExtTreeMap.getElem?_empty] at hc
    cases hc
  · rw [show Handlers.started.calls[m]? = none from Std.ExtTreeMap.getElem?_empty] at hb
    cases hb
  · rw [show Handlers.started.calls[m]? = none from Std.ExtTreeMap.getElem?_empty] at hb
    cases hb

/-- Over any run, whatever calls overlap. -/
theorem freed_unregistered (es : List HandlerEv) :
    Always handlerStep (fun s => ∀ k ∈ s.freed, s.diag.pDiagSink ≠ some k) .started es :=
  (always_of_inv (fun s e hi => (handler_step s e hi).1) inv_first).mono fun _ hi => hi.unregistered

/-- No handler is freed that is registered, or read or run by a thread, exactly if each call that frees without a wait
    finds nobody in what it frees. -/
theorem handlers_safe_iff (es : List HandlerEv) :
    Always handlerStep HandlersSafe .started es ↔ Each handlerStep Careful .started es :=
  always_iff_each_of_inv (I := fun s => HandlersInv s ∧ Unheld s)
    (fun s e h he => ⟨(handler_step s e h.1).1, (handler_step s e h.1).2 h.2 he⟩)
    (fun _ h k hk => ⟨h.1.unregistered k hk, h.2 k hk⟩) (fun s e _ h => careful_of_safe s e h) ⟨inv_first, nofun⟩

/-! ## Without a wait -/

/-- Of two Networks, the first has a handler, and the thread 10 is in it. -/
def inHandlerRun : List HandlerEv :=
  [.make 0, .make 1, .onDiag 20 0 true 0x7FFFFFFF, .step 20, .step 20, .step 20, .raise 10, .deliver 10 none, .deliver 10 none,
    .deliver 10 (some 1)]

/-- The handler unsubscribes itself. -/
def unsubscribedRun : List HandlerEv := inHandlerRun ++ [.onDiag 10 0 false 0, .step 10, .step 10, .step 10]

/-- The thread 10 is in the handler, which is freed. -/
def Handlers.FreedUnder (s : Handlers) : Bool := s.freed == [0] && s.diag.deliveries[(10 : UInt32)]? == some ⟨1, .inside 0⟩

theorem replaced_running :
    (exec handlerStep .started
      (inHandlerRun ++ [.onDiag 20 0 true 0x7FFFFFFF, .step 20, .step 20, .step 20])).FreedUnder = true := by
  decide +kernel

theorem retired_running :
    (exec handlerStep .started
      (unsubscribedRun ++ [.onDiag 20 0 true 0x7FFFFFFF, .step 20, .step 20, .step 20])).FreedUnder = true := by
  decide +kernel

theorem gone_running :
    (exec handlerStep .started (unsubscribedRun ++ [.destroy 20 0, .step 20, .step 20])).FreedUnder = true := by
  decide +kernel

theorem given_up :
    (exec handlerStep .started (inHandlerRun ++ .onDiag 20 0 false 0 :: List.replicate 204 (.step 20))).FreedUnder = true := by
  decide +kernel

end TargetFacade
