/-
  TargetFacade.Lib.SharedPtr — one pointer that many programs read without a lock, and that is
  taken away once and then closed.

  A program reads the pointer into its own copy, and calls through its copy; what it does next
  depends on whether it read NULL and on what its calls answered. A call faults when it goes
  through NULL, or through what has been closed.

  Rules:
  - `allSound_begin`, `allSound_use`: while nothing is taken or closed, programs that test what
    they read first never fault.
  - `allSound_take`: the pointer may be taken when no program reads it again without a test.
  - `allSound_close`: it may then be closed when no program is about to call.
  - `AllTest.not_rereads`: the first is so of programs that test whatever they read.
  - `reads_again_faults`, `late_call_faults`: otherwise the program that does goes on to a fault.
-/

namespace SharedPtr

universe u v

variable {C : Type u} {A : Type v}

inductive Prog (C : Type u) (A : Type v) where
  | done
  /-- Goes on with whether there is something to call. -/
  | read (k : Bool → Prog C A)
  /-- Goes on with what the call answers. -/
  | call (c : C) (k : A → Prog C A)

/-- It is about to call through its copy. -/
def Prog.calls : Prog C A → Bool
  | .call _ _ => true
  | _ => false

/-- It may go on to read the pointer and call through what it has read, NULL too. -/
def Prog.Rereads : Prog C A → Prop
  | .done => False
  | .read k => (k false).calls = true ∨ (k false).Rereads
  | .call _ k => ∃ a, (k a).Rereads

/-- It never calls through what it has read without a test. -/
def Prog.Tests : Prog C A → Prop
  | .done => True
  | .read k => (k false).calls = false ∧ ∀ b, (k b).Tests
  | .call _ k => ∀ a, (k a).Tests

/-- The number of its next call when it is through, from its `k`-th on: the pointer is not NULL, and `answer` answers. -/
def Prog.callsFrom (answer : Nat → C → A) : Prog C A → Nat → Nat
  | .done, k => k
  | .read f, k => (f true).callsFrom answer k
  | .call c f, k => (f (answer k c)).callsFrom answer (k + 1)

theorem Prog.Tests.not_rereads {p : Prog C A} (h : p.Tests) : ¬ p.Rereads := by
  induction p with
  | done => exact fun hr => hr
  | read k ih =>
    rintro (hc | hr)
    · rw [h.1] at hc
      cases hc
    · exact ih false (h.2 false) hr
  | call c k ih =>
    rintro ⟨a, hr⟩
    exact ih a (h a) hr

/-- A program as it begins: it tests what it reads first. -/
structure Prog.Guarded (p : Prog C A) : Prop where
  reads : p.calls = false
  tests : ¬ p.Rereads

structure User (C : Type u) (A : Type v) where
  prog : Prog C A
  /-- Its copy is not NULL. -/
  ptr : Bool

/-- The next step of a program, and the call when it faults. -/
def User.step (there closed : Bool) (a : A) (u : User C A) : User C A × Option C :=
  match u.prog with
  | .done => (u, none)
  | .read k => (⟨k there, there⟩, none)
  | .call c k => (⟨k a, u.ptr⟩, if u.ptr && !closed then none else some c)

structure Shared (C : Type u) (A : Type v) where
  there : Bool
  closed : Bool
  users : List (User C A)
  faults : List C

def Shared.created : Shared C A := ⟨true, false, [], []⟩

def Shared.begin (s : Shared C A) (p : Prog C A) : Shared C A := { s with users := s.users ++ [⟨p, false⟩] }

def Shared.use (s : Shared C A) (i : Nat) (a : A) : Shared C A :=
  match s.users[i]? with
  | none => s
  | some u =>
    let (u, fault) := u.step s.there s.closed a
    { s with users := s.users.set i u, faults := s.faults ++ fault.toList }

def Shared.take (s : Shared C A) : Shared C A := { s with there := false }

def Shared.close (s : Shared C A) : Shared C A := { s with closed := true }

/-! ## What keeps a program from a fault -/

structure Sound (there closed : Bool) (u : User C A) : Prop where
  held : u.prog.calls = true → u.ptr = true ∧ closed = false
  tested : there = false → ¬ u.prog.Rereads

theorem sound_begin {p : Prog C A} (hp : p.Guarded) (there closed : Bool) : Sound there closed ⟨p, false⟩ := by
  constructor
  · intro hc
    rw [hp.reads] at hc
    cases hc
  · exact fun _ => hp.tests

theorem sound_step {there closed : Bool} {u : User C A} (h : Sound there closed u) (hc : closed = true → there = false)
    (a : A) : Sound there closed (u.step there closed a).1 ∧ (u.step there closed a).2 = none := by
  obtain ⟨prog, ptr⟩ := u
  cases prog with
  | done => exact ⟨h, rfl⟩
  | read k =>
    refine ⟨?_, rfl⟩
    cases there with
    | true =>
      have hopen : closed = false := by
        cases closed with
        | false => rfl
        | true => cases hc rfl
      exact ⟨fun _ => ⟨rfl, hopen⟩, fun ht => absurd ht Bool.noConfusion⟩
    | false =>
      have hk := h.tested rfl
      constructor
      · exact fun hcalls => absurd (Or.inl hcalls) hk
      · exact fun _ hr => hk (Or.inr hr)
  | call c k =>
    obtain ⟨hptr, hopen⟩ := h.held rfl
    have hptr : ptr = true := hptr
    subst hptr hopen
    refine ⟨⟨fun _ => ⟨rfl, rfl⟩, fun ht hr => ?_⟩, rfl⟩
    exact h.tested ht ⟨a, hr⟩

theorem Sound.take {u : User C A} (h : Sound true false u) (hr : ¬ u.prog.Rereads) : Sound false false u :=
  ⟨h.held, fun _ => hr⟩

/-! ## All of them -/

structure AllSound (s : Shared C A) : Prop where
  users : ∀ u ∈ s.users, Sound s.there s.closed u
  faults : s.faults = []
  order : s.closed = true → s.there = false

theorem allSound_created : AllSound (Shared.created : Shared C A) :=
  ⟨fun _ hu => absurd hu List.not_mem_nil, rfl, fun hc => absurd hc Bool.noConfusion⟩

theorem allSound_begin {s : Shared C A} (h : AllSound s) {p : Prog C A} (hp : p.Guarded) : AllSound (s.begin p) := by
  refine ⟨fun u hu => ?_, h.faults, h.order⟩
  rcases List.mem_append.mp hu with hu | hu
  · exact h.users u hu
  · rw [List.mem_singleton.mp hu]
    exact sound_begin hp s.there s.closed

theorem allSound_use {s : Shared C A} (h : AllSound s) (i : Nat) (a : A) : AllSound (s.use i a) := by
  unfold Shared.use
  cases hu : s.users[i]? with
  | none => exact h
  | some u =>
    obtain ⟨hs, hf⟩ := sound_step (h.users u (List.mem_of_getElem? hu)) h.order a
    refine ⟨fun w hw => ?_, ?_, h.order⟩
    · rcases List.mem_or_eq_of_mem_set hw with hw | rfl
      · exact h.users w hw
      · exact hs
    · show s.faults ++ (u.step s.there s.closed a).2.toList = []
      rw [hf, h.faults]
      rfl

theorem allSound_take {s : Shared C A} (h : AllSound s) (ht : s.there = true) (hr : ∀ u ∈ s.users, ¬ u.prog.Rereads) :
    AllSound s.take := by
  have hopen : s.closed = false := by
    cases hc : s.closed with
    | false => rfl
    | true => rw [h.order hc] at ht; cases ht
  refine ⟨fun u hu => ?_, h.faults, fun _ => rfl⟩
  have hs := h.users u hu
  rw [ht, hopen] at hs
  show Sound false s.closed u
  rw [hopen]
  exact hs.take (hr u hu)

theorem allSound_close {s : Shared C A} (h : AllSound s) (ht : s.there = false)
    (hc : ∀ u ∈ s.users, u.prog.calls = false) : AllSound s.close := by
  refine ⟨fun u hu => ?_, h.faults, fun _ => ht⟩
  have hs := h.users u hu
  show Sound s.there true u
  refine ⟨fun hcalls => ?_, hs.tested⟩
  rw [hc u hu] at hcalls
  cases hcalls

/-! ## Programs that test whatever they read -/

def AllTest (s : Shared C A) : Prop := ∀ u ∈ s.users, u.prog.Tests

theorem tests_step {u : User C A} (h : u.prog.Tests) (there closed : Bool) (a : A) : (u.step there closed a).1.prog.Tests := by
  obtain ⟨prog, ptr⟩ := u
  cases prog with
  | done => trivial
  | read k => exact h.2 there
  | call c k => exact h a

theorem allTest_begin {s : Shared C A} (h : AllTest s) {p : Prog C A} (hp : p.Tests) : AllTest (s.begin p) := by
  intro u hu
  rcases List.mem_append.mp hu with hu | hu
  · exact h u hu
  · rw [List.mem_singleton.mp hu]
    exact hp

theorem allTest_use {s : Shared C A} (h : AllTest s) (i : Nat) (a : A) : AllTest (s.use i a) := by
  unfold Shared.use
  cases hu : s.users[i]? with
  | none => exact h
  | some u =>
    intro w hw
    rcases List.mem_or_eq_of_mem_set hw with hw | rfl
    · exact h w hw
    · exact tests_step (h u (List.mem_of_getElem? hu)) s.there s.closed a

/-- The pointer may be taken from those at any time. -/
theorem AllTest.not_rereads {s : Shared C A} (h : AllTest s) : ∀ u ∈ s.users, ¬ u.prog.Rereads :=
  fun u hu => (h u hu).not_rereads

/-! ## What goes wrong -/

/-- A program that goes on alone. -/
def Shared.uses (s : Shared C A) (i : Nat) (as : List A) : Shared C A := as.foldl (fun s a => s.use i a) s

theorem use_eq {s : Shared C A} {i : Nat} {u : User C A} (hu : s.users[i]? = some u) (a : A) :
    s.use i a = { s with users := s.users.set i (u.step s.there s.closed a).1
                         faults := s.faults ++ (u.step s.there s.closed a).2.toList } := by
  unfold Shared.use
  rw [hu]

theorem late_call_faults {s : Shared C A} {i : Nat} {u : User C A} (hu : s.users[i]? = some u) (hcalls : u.prog.calls = true)
    (hbad : u.ptr = false ∨ s.closed = true) (a : A) : (s.use i a).faults ≠ [] := by
  obtain ⟨prog, ptr⟩ := u
  cases prog with
  | done => cases hcalls
  | read k => cases hcalls
  | call c k =>
    rw [use_eq hu]
    have hfault : (ptr && !s.closed) = false := by
      rcases hbad with hb | hb
      · have hb : ptr = false := hb
        rw [hb]
        rfl
      · rw [hb, Bool.not_true, Bool.and_false]
    have hstep : (User.step s.there s.closed a ⟨.call c k, ptr⟩).2 = some c := by
      show (if (ptr && !s.closed) = true then none else some c) = some c
      rw [hfault]
      rfl
    rw [hstep]
    simp

/-- Once the pointer is taken a program that reads it again calls through NULL, whoever else waits. -/
theorem reads_again_faults [Inhabited A] (p : Prog C A) : ∀ {s : Shared C A} {i : Nat} {ptr : Bool},
    s.users[i]? = some ⟨p, ptr⟩ → s.there = false → p.Rereads → ∃ as, (s.uses i as).faults ≠ [] := by
  have hnext {s : Shared C A} {i : Nat} {u : User C A} (hu : s.users[i]? = some u) (a : A) :
      (s.use i a).users[i]? = some (u.step s.there s.closed a).1 := by
    have hi : i < s.users.length := (List.getElem?_eq_some_iff.mp hu).1
    rw [use_eq hu]
    exact List.getElem?_set_self hi
  have hkept {s : Shared C A} {i : Nat} {u : User C A} (hu : s.users[i]? = some u) (a : A) :
      (s.use i a).there = s.there := by
    rw [use_eq hu]
  induction p with
  | done => exact fun _ _ hr => hr.elim
  | read k ih =>
    intro s i ptr hu ht hr
    have hu' := hnext hu default
    have hread : (User.step s.there s.closed default ⟨.read k, ptr⟩).1 = ⟨k false, false⟩ := by
      show (⟨k s.there, s.there⟩ : User C A) = _
      rw [ht]
    rw [hread] at hu'
    rcases hr with hcalls | hr
    · exact ⟨[default, default], late_call_faults hu' hcalls (Or.inl rfl) default⟩
    · obtain ⟨as, has⟩ := ih false hu' ((hkept hu default).trans ht) hr
      exact ⟨default :: as, has⟩
  | call c k ih =>
    intro s i ptr hu ht hr
    obtain ⟨a, hr⟩ := hr
    obtain ⟨as, has⟩ := ih a (hnext hu a) ((hkept hu a).trans ht) hr
    exact ⟨a :: as, has⟩

end SharedPtr
