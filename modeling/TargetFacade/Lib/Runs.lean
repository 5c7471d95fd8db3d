/-
  TargetFacade.Lib.Runs — finite runs of a system given by a step function.

  A system is a total `step : σ → ε → σ`; an event that is not enabled leaves the state.
  A run is its first state and a list of events. `Always P` is `P` in every state the run
  passes through, its first included; `Each ok` is `ok` of every event it takes, asked in
  the state the event is taken in.

  Rules:
  - `always_of_inv`: an invariant of every step holds throughout every run.
  - `always_of_each`: an invariant of the steps that meet `ok` holds throughout every run
    whose steps all do.
  - `always_iff_each`: when `ok` is exactly what keeps `P` over one step, a run keeps `P`
    throughout iff each of its steps meets `ok`.
  - `always_iff_each_of_inv`: the same for a property that only together with an invariant
    tells which steps keep it.
  - `length_le_of_each`: a run of steps that each lower a measure is no longer than the measure.
  - `exec_view`: what is seen of a run through `view` is a run of its own, over the events
    that `asks` says it is asked.
  - `exec_alike`: a relation that steps of like events keep, runs of like events keep.
-/

namespace Runs

universe u v w x

variable {σ : Type u} {ε : Type v} (step : σ → ε → σ)

/-- The state after `es`. -/
def exec (s : σ) (es : List ε) : σ := es.foldl step s

def Always (P : σ → Prop) (s : σ) (es : List ε) : Prop := ∀ k, P (exec step s (es.take k))

def Each (ok : σ → ε → Prop) (s : σ) (es : List ε) : Prop :=
  ∀ k e, es[k]? = some e → ok (exec step s (es.take k)) e

variable {step}

@[simp] theorem exec_nil (s : σ) : exec step s [] = s := rfl
@[simp] theorem exec_cons (s : σ) (e : ε) (es : List ε) : exec step s (e :: es) = exec step (step s e) es := rfl

theorem exec_append (s : σ) (es fs : List ε) : exec step s (es ++ fs) = exec step (exec step s es) fs := by
  simp [exec, List.foldl_append]

@[simp] theorem always_nil {P : σ → Prop} {s : σ} : Always step P s [] ↔ P s := by simp [Always]

theorem always_cons {P : σ → Prop} {s : σ} {e : ε} {es : List ε} :
    Always step P s (e :: es) ↔ P s ∧ Always step P (step s e) es := by
  refine ⟨fun h => ⟨h 0, fun k => h (k + 1)⟩, fun h k => ?_⟩
  cases k with
  | zero => exact h.1
  | succ k => exact h.2 k

@[simp] theorem each_nil {ok : σ → ε → Prop} {s : σ} : Each step ok s [] := by
  intro k e h; simp at h

theorem each_cons {ok : σ → ε → Prop} {s : σ} {e : ε} {es : List ε} :
    Each step ok s (e :: es) ↔ ok s e ∧ Each step ok (step s e) es := by
  refine ⟨fun h => ⟨h 0 e rfl, fun k f hk => h (k + 1) f hk⟩, fun h k f hk => ?_⟩
  cases k with
  | zero =>
    simp only [List.getElem?_cons_zero, Option.some.injEq] at hk
    subst hk; exact h.1
  | succ k => exact h.2 k f hk

theorem Always.first {P : σ → Prop} {s : σ} {es : List ε} (h : Always step P s es) : P s := h 0

theorem Always.last {P : σ → Prop} {s : σ} {es : List ε} (h : Always step P s es) : P (exec step s es) := by
  have := h es.length
  rwa [List.take_length] at this

theorem Always.mono {P Q : σ → Prop} (hPQ : ∀ s, P s → Q s) {s : σ} {es : List ε} (h : Always step P s es) :
    Always step Q s es := fun k => hPQ _ (h k)

/-- An invariant of the steps that meet `ok`. -/
theorem always_of_each {I : σ → Prop} {ok : σ → ε → Prop} (hstep : ∀ s e, I s → ok s e → I (step s e)) :
    ∀ {es : List ε} {s : σ}, I s → Each step ok s es → Always step I s es := by
  intro es
  induction es with
  | nil => intro s hs _; exact always_nil.mpr hs
  | cons e es ih =>
    intro s hs h
    obtain ⟨h0, h⟩ := each_cons.mp h
    exact always_cons.mpr ⟨hs, ih (hstep s e hs h0) h⟩

theorem always_of_inv {I : σ → Prop} (hstep : ∀ s e, I s → I (step s e)) {es : List ε} {s : σ} (hs : I s) :
    Always step I s es :=
  have hk : Each step (fun _ _ => True) s es := fun _ _ _ => trivial
  always_of_each (fun s e h _ => hstep s e h) hs hk

theorem Each.mono {ok ok' : σ → ε → Prop} (h' : ∀ s e, ok s e → ok' s e) {s : σ} {es : List ε}
    (h : Each step ok s es) : Each step ok' s es := fun k e hk => h' _ e (h k e hk)

/-- A property that one step keeps exactly when it meets `ok`, a run keeps throughout
    exactly when each of its steps does. -/
theorem always_iff_each {P : σ → Prop} {ok : σ → ε → Prop} (hstep : ∀ s e, P s → (P (step s e) ↔ ok s e)) :
    ∀ (es : List ε) {s : σ}, P s → (Always step P s es ↔ Each step ok s es) := by
  intro es
  induction es with
  | nil => intro s hs; simp [hs]
  | cons e es ih =>
    intro s hs
    rw [always_cons, each_cons, ← hstep s e hs]
    exact ⟨fun h => ⟨h.2.first, (ih h.2.first).mp h.2⟩, fun h => ⟨hs, (ih h.1).mpr h.2⟩⟩

/-- `I` holds along the steps that meet `ok`, and gives `P`; a step from `I` that keeps `P`
    meets `ok`. -/
theorem always_iff_each_of_inv {I P : σ → Prop} {ok : σ → ε → Prop} (hstep : ∀ s e, I s → ok s e → I (step s e))
    (hP : ∀ s, I s → P s) (hok : ∀ s e, I s → P (step s e) → ok s e) :
    ∀ {es : List ε} {s : σ}, I s → (Always step P s es ↔ Each step ok s es) := by
  intro es s hs
  refine ⟨fun h => ?_, fun h => (always_of_each hstep hs h).mono hP⟩
  induction es generalizing s with
  | nil => exact each_nil
  | cons e es ih =>
    obtain ⟨-, h⟩ := always_cons.mp h
    have he := hok s e hs h.first
    exact each_cons.mpr ⟨he, ih (hstep s e hs he) h⟩

/-- Steps that each lower a measure are no more than it. -/
theorem length_le_of_each {ok : σ → ε → Prop} {measure : σ → Nat} (hstep : ∀ s e, ok s e → measure (step s e) < measure s) :
    ∀ {es : List ε} {s : σ}, Each step ok s es → es.length ≤ measure s := by
  intro es
  induction es with
  | nil => intro s _; exact Nat.zero_le _
  | cons e es ih =>
    intro s h
    obtain ⟨he, h⟩ := each_cons.mp h
    exact Nat.le_trans (Nat.succ_le_succ (ih h)) (hstep s e he)

/-! ## Part of a system -/

variable {τ : Type w} {δ : Type x} {step' : τ → δ → τ}

/-- An event changes what is seen as the event asked of the part does, and not at all when
    nothing is asked of it. -/
theorem exec_view {I : σ → Prop} (view : σ → τ) (asks : ε → Option δ) (hinv : ∀ s e, I s → I (step s e))
    (hnone : ∀ s e, I s → asks e = none → view (step s e) = view s)
    (hsome : ∀ s e d, I s → asks e = some d → view (step s e) = step' (view s) d) :
    ∀ (es : List ε) {s : σ}, I s → view (exec step s es) = exec step' (view s) (es.filterMap asks) := by
  intro es
  induction es with
  | nil => intro s _; rfl
  | cons e es ih =>
    intro s hs
    rw [exec_cons, ih (hinv s e hs)]
    cases ha : asks e with
    | none => rw [List.filterMap_cons_none ha, hnone s e hs ha]
    | some d => rw [List.filterMap_cons_some ha, exec_cons, hsome s e d hs ha]

/-- A run of a part that is there. -/
theorem exec_some (s : τ) (ds : List δ) :
    exec (fun o d => o.map (step' · d)) (some s) ds = some (exec step' s ds) := by
  induction ds generalizing s with
  | nil => rfl
  | cons d ds ih => exact ih (step' s d)

/-! ## Two runs -/

/-- Events are alike when `kind` does not tell them apart. -/
theorem exec_alike {R : σ → σ → Prop} {kind : ε → δ} (hstep : ∀ s t e f, R s t → kind e = kind f → R (step s e) (step t f)) :
    ∀ {es fs : List ε}, es.map kind = fs.map kind → ∀ {s t : σ}, R s t → R (exec step s es) (exec step t fs) := by
  intro es
  induction es with
  | nil =>
    intro fs h s t hst
    rw [List.map_eq_nil_iff.mp h.symm]
    exact hst
  | cons e es ih =>
    intro fs h s t hst
    cases fs with
    | nil => cases h
    | cons f fs =>
      obtain ⟨he, hes⟩ := List.cons.inj h
      exact ih hes (hstep s t e f hst he)

end Runs
