import Mathlib.Data.List.Basic

/-! Runs of labelled transition systems. An invariant is proved once for a step
and holds along every run; a guard restricts the steps that a run may take. -/

set_option autoImplicit false

namespace TransitionSystem

variable {σ α : Type}

/-- Finite runs of a step relation with the actions they take. -/
inductive Run (step : σ → α → σ → Prop) : σ → List α → σ → Prop where
  | nil (state : σ) : Run step state [] state
  | cons {before middle after : σ} {action : α} {actions : List α} :
      step before action middle → Run step middle actions after →
        Run step before (action :: actions) after

/-- The steps that are taken while the guard accepts the action. -/
def Guarded (guard : σ → α → Prop) (step : σ → α → σ → Prop) (before : σ) (action : α)
    (after : σ) : Prop :=
  guard before action ∧ step before action after

/-- The step function that takes the steps the guard accepts. -/
def guardedNext (guard : σ → α → Prop) [∀ state action, Decidable (guard state action)]
    (next : σ → α → Option σ) (state : σ) (action : α) : Option σ :=
  if guard state action then next state action else none

theorem guardedNext_sound {guard : σ → α → Prop} [∀ state action, Decidable (guard state action)]
    {next : σ → α → Option σ} {before after : σ} {action : α}
    (taken : guardedNext guard next before action = some after) :
    guard before action ∧ next before action = some after := by
  unfold guardedNext at taken
  split at taken
  · next allowed => exact ⟨allowed, taken⟩
  · cases taken

variable {step : σ → α → σ → Prop} {invariant : σ → Prop}

/-- What every step keeps holds at the end of every run. -/
theorem Run.keeps {start final : σ} {actions : List α} (run : Run step start actions final)
    (kept : ∀ before action after, invariant before → step before action after → invariant after)
    (holds : invariant start) : invariant final := by
  induction run with
  | nil => exact holds
  | cons taken _ ih => exact ih (kept _ _ _ holds taken)

theorem Run.keeps_allowed {start final : σ} {actions : List α} (run : Run step start actions final)
    {allowed : α → Prop} (all : ∀ action ∈ actions, allowed action)
    (kept : ∀ before action after, allowed action → invariant before →
      step before action after → invariant after)
    (holds : invariant start) : invariant final := by
  induction run with
  | nil => exact holds
  | cons taken _ ih =>
      apply ih
      · intro action member
        exact all action (List.mem_cons_of_mem _ member)
      · exact kept _ _ _ (all _ List.mem_cons_self) holds taken

/-- A run of allowed actions is one of a narrower relation that takes the same steps wherever
the invariant holds. -/
theorem Run.narrows {narrow : σ → α → σ → Prop} {start final : σ} {actions : List α}
    (run : Run step start actions final) {allowed : α → Prop} (all : ∀ action ∈ actions, allowed action)
    (kept : ∀ before action after, allowed action → invariant before →
      step before action after → invariant after)
    (narrows : ∀ before action after, allowed action → invariant before →
      step before action after → narrow before action after)
    (holds : invariant start) : Run narrow start actions final := by
  induction run with
  | nil => exact .nil _
  | cons taken _ ih =>
      have first := all _ List.mem_cons_self
      apply Run.cons (narrows _ _ _ first holds taken)
      apply ih
      · intro action member
        exact all action (List.mem_cons_of_mem _ member)
      · exact kept _ _ _ first holds taken

theorem Run.append {start middle final : σ} {first second : List α} (run : Run step start first middle)
    (rest : Run step middle second final) : Run step start (first ++ second) final := by
  induction run with
  | nil => exact rest
  | cons taken _ ih => exact .cons taken (ih rest)

/-- A run whose every step is matched by a run of another system, and related to it throughout. -/
theorem Run.simulates {τ β : Type} {image : τ → β → τ → Prop} {related : σ → τ → Prop}
    {start final : σ} {actions : List α} (run : Run step start actions final)
    {allowed : α → Prop} (all : ∀ action ∈ actions, allowed action)
    (matched : ∀ before action after abstract, allowed action → related before abstract →
      step before action after →
        ∃ trace abstract', Run image abstract trace abstract' ∧ related after abstract')
    {abstract : τ} (holds : related start abstract) :
    ∃ trace abstract', Run image abstract trace abstract' ∧ related final abstract' := by
  induction run generalizing abstract with
  | nil => exact ⟨[], abstract, .nil abstract, holds⟩
  | cons taken _ ih =>
      obtain ⟨first, middle, starts, holds⟩ := matched _ _ _ _ (all _ List.mem_cons_self) holds taken
      obtain ⟨rest, last, goes, holds⟩ :=
        ih (fun action member => all action (List.mem_cons_of_mem _ member)) holds
      exact ⟨first ++ rest, last, starts.append goes, holds⟩

theorem Run.unguarded {guard : σ → α → Prop} {start final : σ} {actions : List α}
    (run : Run (Guarded guard step) start actions final) : Run step start actions final := by
  induction run with
  | nil => exact .nil _
  | cons taken _ ih => exact .cons taken.2 ih

/-- The run of a step function. -/
def execute (next : σ → α → Option σ) : σ → List α → Option σ
  | state, [] => some state
  | state, action :: actions => (next state action).bind fun middle => execute next middle actions

/-- A step function that runs through has a run of any relation that contains it. -/
theorem exists_run_of_execute (step : σ → α → σ → Prop) (next : σ → α → Option σ) (start : σ)
    (actions : List α)
    (sound : ∀ before action after, next before action = some after → step before action after)
    (runs : (execute next start actions).isSome = true) :
    ∃ final, execute next start actions = some final ∧ Run step start actions final := by
  induction actions generalizing start with
  | nil => exact ⟨start, rfl, .nil start⟩
  | cons action actions ih =>
      cases taken : next start action with
      | none => simp [execute, taken] at runs
      | some middle =>
          obtain ⟨final, result, run⟩ := ih middle (by simpa [execute, taken] using runs)
          exact ⟨final, by simpa [execute, taken] using result, .cons (sound _ _ _ taken) run⟩

end TransitionSystem
