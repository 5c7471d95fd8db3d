/-
  TargetFacade.Network.DiagSink — the one sink of the kernel's event stream (FacadeNetwork.cpp:
  DeliverDiag, SetDiagSink, SetDiagMask).

  A delivering thread counts itself, reads the sink, then the mask, and calls the sink, with no lock;
  SetDiagSink swaps the sink and then waits, when it clears, until it has seen nobody counted. So when
  a clearing call returns nobody is in the sink it took away (`letGo_quiet`). A call that replaces the
  sink returns at once (`replaced_sink_entered`).

  The kernel's slot may have been read before it was given back, so an event can come at any time. The
  number of counted threads stays below the number of threads, and the count is a Nat. No step reads
  `bSlot`, `heard`, `answers`, `letGo` or a call's `prev`.
-/

import TargetFacade.Base
import TargetFacade.Lib.OrdMap
import TargetFacade.Lib.Runs

namespace TargetFacade

open OrdMap Runs

def kDiagQuiesceSlices : Nat := 200

/-- Where a thread stands in DeliverDiag. -/
inductive DeliverPc where
  /-- It is in m_lDiagBusy. -/
  | counted
  | read (pSink : Option Nat)
  /-- It has the mask too; the event's severity is next. -/
  | asking (sink : Nat) (uMask : UInt32)
  /-- In this sink's OnDiag. -/
  | inside (sink : Nat)
  | leaving
  deriving DecidableEq, Repr

structure Delivery where
  uSeq : UInt32
  pc : DeliverPc
  deriving DecidableEq, Repr

/-- Where a call of SetDiagSink stands. -/
inductive SinkPc where
  | masked
  | swapped
  | waiting (nSlice : Nat)
  deriving DecidableEq, Repr

structure SinkCall where
  sink : Option Nat
  /-- The sink that it found. -/
  prev : Option Nat
  pc : SinkPc
  deriving DecidableEq, Repr

structure DiagState where
  pDiagSink : Option Nat
  lDiagMask : UInt32
  bDiagHeld : Bool
  /-- The kernel's slot is this network's. -/
  bSlot : Bool
  lDiagBusy : Nat
  lDiagSeq : UInt32
  /-- By thread. -/
  deliveries : Map UInt32 Delivery
  setters : Map UInt32 SinkCall
  /-- The sink, severity and number of each OnDiag. -/
  heard : List (Nat × Nat × UInt32)
  answers : List (UInt32 × HRESULT)
  /-- The sinks that calls from outside a delivery have taken away, the budget apart. -/
  letGo : List Nat

def DiagState.created : DiagState := ⟨none, 0, false, false, 0, 0, ∅, ∅, [], [], []⟩

inductive DiagEv where
  /-- The kernel gives the thread an event. -/
  | raise (nThread : UInt32)
  /-- Its next step in DeliverDiag. `uSeverity` is what DiagClassOf says of the event, none when that throws. -/
  | deliver (nThread : UInt32) (uSeverity : Option Nat)
  | set (nThread : UInt32) (sink : Option Nat) (mask : UInt32)
  /-- Its next step in SetDiagSink. -/
  | setStep (nThread : UInt32)
  | setMask (nThread : UInt32) (mask : UInt32)

/-- The kernel's reserved bit. -/
def badMask (mask : UInt32) : Bool := mask &&& 0x80000000 != 0

def wantsDiag (uMask : UInt32) (uSeverity : Nat) : Bool :=
  decide (uSeverity < 32) && uMask &&& ((1 : UInt32) <<< UInt32.ofNat uSeverity) != 0

/-- tls_pDiagRec is set. -/
def DiagState.Inside (s : DiagState) (nThread : UInt32) : Bool :=
  s.deliveries[nThread]?.any fun d => match d.pc with
    | .inside _ => true
    | _ => false

/-- Up to the count. -/
def DeliverDiag (nThread : UInt32) (s : DiagState) : DiagState :=
  -- one delivery per thread
  if nThread ∈ s.deliveries ∨ nThread ∈ s.setters then s
  else
    { s with
      lDiagSeq := s.lDiagSeq + 1
      lDiagBusy := s.lDiagBusy + 1
      deliveries := s.deliveries.insert nThread ⟨s.lDiagSeq + 1, .counted⟩ }

def DiagState.at_ (s : DiagState) (nThread : UInt32) (d : Delivery) (pc : DeliverPc) : DiagState :=
  { s with deliveries := s.deliveries.insert nThread { d with pc := pc } }

def deliverStep (nThread : UInt32) (uSeverity : Option Nat) (d : Delivery) (s : DiagState) : DiagState :=
  match d.pc with
  | .counted => s.at_ nThread d (.read s.pDiagSink)
  | .read none => s.at_ nThread d .leaving
  | .read (some sink) => s.at_ nThread d (.asking sink s.lDiagMask)
  | .asking sink uMask =>
    match uSeverity.filter (wantsDiag uMask) with
    | none => s.at_ nThread d .leaving
    | some uSeverity => { s.at_ nThread d (.inside sink) with heard := s.heard ++ [(sink, uSeverity, d.uSeq)] }
  | .inside _ => s.at_ nThread d .leaving
  | .leaving => { s with lDiagBusy := s.lDiagBusy - 1, deliveries := s.deliveries.erase nThread }

/-- Up to the exchange of the mask. -/
def SetDiagSink (nThread : UInt32) (sink : Option Nat) (mask : UInt32) (s : DiagState) : DiagState :=
  if nThread ∈ s.setters ∨ (nThread ∈ s.deliveries ∧ s.Inside nThread = false) then s
  else if badMask mask then { s with answers := s.answers ++ [(nThread, E_INVALIDARG)] }
  else { s with lDiagMask := mask, setters := s.setters.insert nThread ⟨sink, none, .masked⟩ }

/-- The sink that a call takes away. -/
def SinkCall.letGo (c : SinkCall) : List Nat := if c.prev = c.sink then [] else c.prev.toList

def DiagState.answer (s : DiagState) (nThread : UInt32) (letGo : List Nat) : DiagState :=
  { s with setters := s.setters.erase nThread, answers := s.answers ++ [(nThread, S_OK)], letGo := s.letGo ++ letGo }

/-- The slot is given back when it was taken. -/
def DiagState.giveBack (s : DiagState) : DiagState :=
  { s with bSlot := if s.bDiagHeld then false else s.bSlot, bDiagHeld := false }

def setStep (nThread : UInt32) (c : SinkCall) (s : DiagState) : DiagState :=
  match c.pc with
  | .masked =>
    { s with
      pDiagSink := c.sink
      setters := s.setters.insert nThread { c with prev := s.pDiagSink, pc := .swapped } }
  | .swapped =>
    if c.sink.isSome then
      { s with bSlot := true, bDiagHeld := true }.answer nThread (if s.Inside nThread then [] else c.letGo)
    else if s.Inside nThread then s.giveBack.answer nThread []
    else { s.giveBack with setters := s.setters.insert nThread { c with pc := .waiting 0 } }
  | .waiting nSlice =>
    if kDiagQuiesceSlices ≤ nSlice then s.answer nThread []
    else if s.lDiagBusy = 0 then s.answer nThread c.letGo
    else { s with setters := s.setters.insert nThread { c with pc := .waiting (nSlice + 1) } }

def SetDiagMask (nThread : UInt32) (mask : UInt32) (s : DiagState) : DiagState :=
  if badMask mask then { s with answers := s.answers ++ [(nThread, E_INVALIDARG)] }
  else
    { s with
      lDiagMask := mask
      answers := s.answers ++ [(nThread, if s.pDiagSink.isSome then S_OK else S_FALSE)] }

def diagStep (s : DiagState) : DiagEv → DiagState
  | .raise nThread => DeliverDiag nThread s
  | .deliver nThread uSeverity =>
    match s.deliveries[nThread]? with
    | none => s
    | some d => if nThread ∈ s.setters then s else deliverStep nThread uSeverity d s
  | .set nThread sink mask => SetDiagSink nThread sink mask s
  | .setStep nThread =>
    match s.setters[nThread]? with
    | none => s
    | some c => setStep nThread c s
  | .setMask nThread mask => SetDiagMask nThread mask s

/-! ## Sinks that are let go -/

/-- The thread has read this sink and not left it. -/
def DeliverPc.holds (sink : Nat) : DeliverPc → Bool
  | .read (some k) | .asking k _ | .inside k => k == sink
  | _ => false

/-- Some thread has read this sink and not left it. -/
def DiagState.Held (s : DiagState) (sink : Nat) : Prop :=
  ∃ (nThread : UInt32) (d : Delivery), s.deliveries[nThread]? = some d ∧ d.pc.holds sink = true

/-- Nobody is in a sink that a call has taken away. -/
def LetGoQuiet (s : DiagState) : Prop :=
  ∀ sink ∈ s.letGo, ∀ (nThread : UInt32) (d : Delivery), s.deliveries[nThread]? = some d → d.pc ≠ .inside sink

/-- A sink that is let go is not registered again, and a call that replaces a sink from outside a delivery returns when
    nobody holds the one that it found. -/
def SinkCall.Fine (nThread : UInt32) (s : DiagState) (c : SinkCall) : Prop :=
  match c.pc with
  | .masked => ∀ sink, c.sink = some sink → sink ∉ s.letGo
  | .swapped => c.sink.isSome = true → s.Inside nThread = false → ∀ sink ∈ c.letGo, s.pDiagSink ≠ some sink ∧ ¬ s.Held sink
  | .waiting _ => s.lDiagBusy = 0 → ∀ sink ∈ c.letGo, s.pDiagSink ≠ some sink

def DiagEv.Fine (s : DiagState) : DiagEv → Prop
  | .setStep nThread => ∀ c : SinkCall, s.setters[nThread]? = some c → c.Fine nThread s
  | _ => True

/-- Everyone in DeliverDiag is counted, and what is let go is neither registered nor held. -/
structure DiagInv (s : DiagState) : Prop where
  busy : s.lDiagBusy = s.deliveries.size
  free : ∀ sink ∈ s.letGo, s.pDiagSink ≠ some sink ∧ ¬ s.Held sink

theorem held_insert {s : DiagState} {nThread : UInt32} {d : Delivery} {sink : Nat} {deliveries : Map UInt32 Delivery}
    (hd : deliveries = s.deliveries.insert nThread d)
    (h : ∃ (n : UInt32) (e : Delivery), deliveries[n]? = some e ∧ e.pc.holds sink = true) :
    d.pc.holds sink = true ∨ s.Held sink := by
  obtain ⟨n, e, hn, hh⟩ := h
  rw [hd] at hn
  rcases get_of_insert hn with ⟨-, rfl⟩ | ⟨-, hn⟩
  · exact Or.inl hh
  · exact Or.inr ⟨n, e, hn, hh⟩

/-- A thread goes on to where it holds nothing that is let go. -/
theorem diagInv_at {s : DiagState} (hi : DiagInv s) {nThread : UInt32} {d : Delivery} (hd : s.deliveries[nThread]? = some d)
    {pc : DeliverPc} (hpc : ∀ sink ∈ s.letGo, pc.holds sink = false) : DiagInv (s.at_ nThread d pc) := by
  constructor
  · exact hi.busy.trans (size_insert_of_get hd).symm
  · intro sink hs
    refine ⟨(hi.free sink hs).1, fun hheld => ?_⟩
    rcases held_insert rfl hheld with hh | hh
    · rw [hpc sink hs] at hh
      cases hh
    · exact (hi.free sink hs).2 hh

theorem diagInv_deliver {s : DiagState} (hi : DiagInv s) {nThread : UInt32} {d : Delivery}
    (hd : s.deliveries[nThread]? = some d) (uSeverity : Option Nat) : DiagInv (deliverStep nThread uSeverity d s) := by
  have hleave : DiagInv (s.at_ nThread d .leaving) := diagInv_at hi hd fun _ _ => rfl
  -- a sink that the thread holds is not let go
  have hkeep {pc : DeliverPc} (hpc : ∀ k, pc.holds k = true → d.pc.holds k = true) : DiagInv (s.at_ nThread d pc) := by
    refine diagInv_at hi hd fun k hk => ?_
    cases hh : pc.holds k with
    | false => rfl
    | true => exact absurd ⟨nThread, d, hd, hpc k hh⟩ (hi.free k hk).2
  unfold deliverStep
  cases hpc : d.pc with
  | counted =>
    refine diagInv_at hi hd fun sink hs => ?_
    cases hp : s.pDiagSink with
    | none => rfl
    | some k =>
      have hne : k ≠ sink := fun he => (hi.free sink hs).1 (by rw [hp, he])
      simpa [DeliverPc.holds] using hne
  | read pSink =>
    cases pSink with
    | none => exact hleave
    | some sink => exact hkeep fun k hk => by rw [hpc]; exact hk
  | asking sink uMask =>
    simp only
    split
    · exact hleave
    · have hin : DiagInv (s.at_ nThread d (.inside sink)) := hkeep fun k hk => by rw [hpc]; exact hk
      exact ⟨hin.busy, hin.free⟩
  | inside sink => exact hleave
  | leaving =>
    constructor
    · simp only [hi.busy, size_erase_of_get hd]
    · intro sink hs
      refine ⟨(hi.free sink hs).1, fun ⟨n, e, hn, hh⟩ => (hi.free sink hs).2 ⟨n, e, ?_, hh⟩⟩
      exact (get_of_erase hn).2

theorem diagInv_answer {s : DiagState} (hi : DiagInv s) (nThread : UInt32) {l : List Nat}
    (hl : ∀ sink ∈ l, s.pDiagSink ≠ some sink ∧ ¬ s.Held sink) : DiagInv (s.answer nThread l) := by
  refine ⟨hi.busy, fun sink hs => ?_⟩
  rcases List.mem_append.mp hs with hs | hs
  · exact hi.free sink hs
  · exact hl sink hs

/-- When nobody is counted nobody holds anything. -/
theorem not_held_of_busy {s : DiagState} (hi : DiagInv s) (h : s.lDiagBusy = 0) (sink : Nat) : ¬ s.Held sink := by
  rintro ⟨n, d, hn, -⟩
  rw [get_of_size_zero (hi.busy.symm.trans h)] at hn
  cases hn

theorem diagInv_set {s : DiagState} (hi : DiagInv s) (nThread : UInt32) {c : SinkCall} (hc : c.Fine nThread s) :
    DiagInv (setStep nThread c s) := by
  unfold setStep
  unfold SinkCall.Fine at hc
  cases hpc : c.pc with
  | masked =>
    rw [hpc] at hc
    exact ⟨hi.busy, fun sink hs => ⟨fun he => hc sink he hs, (hi.free sink hs).2⟩⟩
  | swapped =>
    rw [hpc] at hc
    simp only
    split
    · rename_i hsome
      have hi : DiagInv { s with bSlot := true, bDiagHeld := true } := ⟨hi.busy, hi.free⟩
      refine diagInv_answer hi nThread fun sink hs => ?_
      split at hs
      · cases hs
      · rename_i hin
        exact hc hsome (Bool.eq_false_iff.mpr hin) sink hs
    · split
      · have hi : DiagInv s.giveBack := ⟨hi.busy, hi.free⟩
        exact diagInv_answer hi nThread fun sink hs => absurd hs List.not_mem_nil
      · exact ⟨hi.busy, hi.free⟩
  | waiting nSlice =>
    rw [hpc] at hc
    simp only
    split
    · exact diagInv_answer hi nThread fun sink hs => absurd hs List.not_mem_nil
    split
    · rename_i hbusy
      exact diagInv_answer hi nThread fun sink hs => ⟨hc hbusy sink hs, not_held_of_busy hi hbusy sink⟩
    · exact ⟨hi.busy, hi.free⟩

theorem diagInv_step (s : DiagState) (e : DiagEv) (hi : DiagInv s) (he : e.Fine s) : DiagInv (diagStep s e) := by
  cases e with
  | raise nThread =>
    unfold diagStep DeliverDiag
    simp only
    split
    · exact hi
    · rename_i hno
      constructor
      · simp only [hi.busy, size_insert_of_not_mem fun h => hno (Or.inl h)]
      · intro sink hs
        refine ⟨(hi.free sink hs).1, fun hheld => ?_⟩
        rcases held_insert rfl hheld with hh | hh
        · cases hh
        · exact (hi.free sink hs).2 hh
  | deliver nThread uSeverity =>
    unfold diagStep
    simp only
    split
    · exact hi
    split
    · exact hi
    · exact diagInv_deliver hi ‹_› uSeverity
  | set nThread sink mask =>
    unfold diagStep SetDiagSink
    simp only
    split
    · exact hi
    split
    · exact ⟨hi.busy, hi.free⟩
    · exact ⟨hi.busy, hi.free⟩
  | setStep nThread =>
    unfold diagStep
    simp only
    split
    · exact hi
    · exact diagInv_set hi nThread (he _ ‹_›)
  | setMask nThread mask =>
    unfold diagStep SetDiagMask
    simp only
    split
    · exact ⟨hi.busy, hi.free⟩
    · exact ⟨hi.busy, hi.free⟩

/-- As long as the calls that replace a sink return when nobody holds the one they found, and no sink that is let go
    is registered again, nobody is in a sink that is let go. -/
theorem letGo_quiet (es : List DiagEv) (h : Each diagStep DiagEv.Fine .created es) :
    Always diagStep LetGoQuiet .created es := by
  have h0 : DiagInv .created := ⟨Std.ExtTreeMap.size_empty.symm, fun sink hs => absurd hs List.not_mem_nil⟩
  have hinv : Always diagStep DiagInv .created es := always_of_each diagInv_step h0 h
  refine hinv.mono fun s hi sink hs n d hn hpc => ?_
  exact (hi.free sink hs).2 ⟨n, d, hn, by rw [hpc]; exact beq_self_eq_true sink⟩

/-- The sink 1 is registered, and the thread 10 has read it and the mask. -/
def readRun : List DiagEv :=
  [.set 20 (some 1) 0x7FFFFFFF, .setStep 20, .setStep 20, .raise 10, .deliver 10 none, .deliver 10 none]

/-- The thread is in the sink, which is cleared meanwhile. -/
def clearedRun : List DiagEv :=
  readRun ++ [.deliver 10 (some 1), .set 20 none 0, .setStep 20, .setStep 20, .setStep 20, .deliver 10 none,
    .deliver 10 none, .setStep 20]

theorem letGo_quiet_cleared :
    (exec diagStep .created clearedRun).letGo = [1] ∧ LetGoQuiet (exec diagStep .created clearedRun) := by
  have h : Each diagStep DiagEv.Fine .created clearedRun := by
    simp only [clearedRun, readRun, List.cons_append, List.nil_append, each_cons, each_nil, and_true]
    refine ⟨trivial, ?_, ?_, trivial, trivial, trivial, trivial, trivial, ?_, ?_, ?_, trivial, trivial, ?_⟩ <;> intro c hc <;>
      obtain rfl := Option.some.inj hc
    · exact fun sink hs => List.not_mem_nil
    · exact fun _ _ sink hs => absurd hs List.not_mem_nil
    · exact fun sink hs => List.not_mem_nil
    · exact fun hs => absurd hs Bool.false_ne_true
    · exact fun hbusy => absurd hbusy (by decide +kernel)
    · exact fun _ sink _ => (Option.some_ne_none sink).symm
  exact ⟨by decide +kernel, (letGo_quiet clearedRun h).last⟩

/-- The sink that the thread has read is replaced, and its call goes in. -/
def replacedRun : List DiagEv :=
  readRun ++ [.set 20 (some 2) 0x7FFFFFFF, .setStep 20, .setStep 20, .deliver 10 (some 1)]

theorem replaced_sink_entered : ¬ ∀ es, Always diagStep LetGoQuiet .created es := by
  intro h
  have hquiet := (h replacedRun).last
  have hgo : (exec diagStep .created replacedRun).letGo = [1] := by decide +kernel
  have hin : (exec diagStep .created replacedRun).deliveries[(10 : UInt32)]? = some ⟨1, .inside 1⟩ := by decide +kernel
  exact hquiet 1 (by rw [hgo]; exact List.mem_singleton.mpr rfl) 10 _ hin rfl

end TargetFacade
