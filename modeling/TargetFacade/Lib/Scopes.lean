/-
  TargetFacade.Lib.Scopes — a value that a scope saves, sets and puts back.

  A stack of frames, the innermost first, each with the value it found. A frame `f` with
  `pub f = some v` has set the value to `v`; one with `pub f = none` has left it alone. As long as
  each frame found what the ones below it say (`Saved`), the value is always that of the nearest
  frame that sets it (`nearest`). It is the innermost frame's own exactly while no frame that
  leaves it alone stands above one that sets it (`Exposed`).
-/

namespace Scopes

universe u v

variable {F : Type u} {V : Type v} (pub : F → Option V) (base : V)

/-- The value that a stack says. -/
def nearest : List (F × V) → V
  | [] => base
  | (f, _) :: fs => (pub f).getD (nearest fs)

/-- Every frame found what the ones below it say. -/
def Saved : List (F × V) → Prop
  | [] => True
  | (_, prev) :: fs => prev = nearest pub base fs ∧ Saved fs

/-- The frames that leave the value alone stand below those that set it. -/
def Exposed : List (F × V) → Prop
  | [] => True
  | (f, _) :: fs => Exposed fs ∧ (pub f = none → ∀ x ∈ fs, pub x.1 = none)

/-- What the innermost frame has set. -/
def own : List (F × V) → Option V
  | [] => none
  | (f, _) :: _ => pub f

variable {pub base}

/-- The value there is, over a stack of such frames. -/
structure Scoped (pub : F → Option V) (base cur : V) (fs : List (F × V)) : Prop where
  cur : cur = nearest pub base fs
  saved : Saved pub base fs
  exposed : Exposed pub fs

theorem scoped_nil : Scoped pub base base [] := ⟨rfl, trivial, trivial⟩

theorem Scoped.push {cur : V} {fs : List (F × V)} (h : Scoped pub base cur fs) {f : F}
    (hf : pub f = none → ∀ x ∈ fs, pub x.1 = none) : Scoped pub base ((pub f).getD cur) ((f, cur) :: fs) := by
  refine ⟨?_, ⟨h.cur, h.saved⟩, ⟨h.exposed, hf⟩⟩
  rw [h.cur]
  rfl

/-- Only a frame that has set the value puts it back. -/
theorem Scoped.pop {cur prev : V} {f : F} {fs : List (F × V)} (h : Scoped pub base cur ((f, prev) :: fs)) :
    Scoped pub base (if (pub f).isSome then prev else cur) fs := by
  refine ⟨?_, h.saved.2, h.exposed.1⟩
  cases hf : pub f with
  | some v =>
    rw [Option.isSome_some, if_pos rfl]
    exact h.saved.1
  | none =>
    rw [Option.isSome_none, if_neg Bool.false_ne_true, h.cur, nearest, hf]
    rfl

theorem nearest_silent {fs : List (F × V)} (h : ∀ x ∈ fs, pub x.1 = none) : nearest pub base fs = base := by
  induction fs with
  | nil => rfl
  | cons x fs ih =>
    have hx : pub x.1 = none := h x List.mem_cons_self
    have hfs := ih fun y hy => h y (List.mem_cons_of_mem x hy)
    rw [nearest, hx, hfs]
    rfl

/-- A frame that sets the value is what is seen through those that do not. -/
theorem nearest_set {fs : List (F × V)} (h : ∃ x ∈ fs, pub x.1 ≠ none) : ∃ x ∈ fs, pub x.1 = some (nearest pub base fs) := by
  induction fs with
  | nil =>
    obtain ⟨x, hx, -⟩ := h
    cases hx
  | cons y fs ih =>
    cases hy : pub y.1 with
    | some v =>
      refine ⟨y, List.mem_cons_self, ?_⟩
      rw [nearest, hy]
      rfl
    | none =>
      have hfs : ∃ x ∈ fs, pub x.1 ≠ none := by
        obtain ⟨x, hx, hne⟩ := h
        rcases List.mem_cons.mp hx with rfl | hx
        · exact absurd hy hne
        · exact ⟨x, hx, hne⟩
      obtain ⟨x, hx, hset⟩ := ih hfs
      refine ⟨x, List.mem_cons_of_mem y hx, ?_⟩
      rw [nearest, hy]
      exact hset

theorem nearest_exposed {fs : List (F × V)} (h : Exposed pub fs) : nearest pub base fs = (own pub fs).getD base := by
  cases fs with
  | nil => rfl
  | cons x fs =>
    cases hx : pub x.1 with
    | some v =>
      rw [nearest, own, hx]
      rfl
    | none =>
      rw [nearest, own, hx]
      exact nearest_silent (h.2 hx)

end Scopes
