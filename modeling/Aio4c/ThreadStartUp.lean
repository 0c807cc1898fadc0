import Aio4c.ThreadLifecycle

/-! What the result of `ThreadStart` says of the init callback. The owner waits for the
end of the callback and looks at nothing but the flag that says it ended. -/

set_option autoImplicit false

namespace Aio4c

open TransitionSystem

instance (point : OwnerPoint) : Decidable point.Returned :=
  match point with
  | .outside | .starting | .created | .testing | .waiting => isFalse (by simp [OwnerPoint.Returned])
  | .started | .reading _ | .joining | .freeing | .done => isTrue (by simp [OwnerPoint.Returned])

/-- The result of `ThreadStart`, once it has returned: whether the thread was created. -/
def ThreadSystem.startResult (system : ThreadSystem) : Option Bool :=
  if system.owner.Returned then some (system.self ≠ .absent) else none

/-- What both sides of the start know of each other. -/
structure ThreadSystem.StartUp (system : ThreadSystem) : Prop where
  unborn : system.owner = .outside ∨ system.owner = .starting → system.self = .absent
  fresh : system.self.Early → system.thread.initialized = false
  returned : system.owner.Returned → system.self = .absent ∨ ¬ system.self.Early

theorem newThread_startUp : newThread.StartUp where
  unborn _ := rfl
  fresh _ := rfl
  returned past := by simp [newThread, OwnerPoint.Returned] at past

/-- A step is the return of the init callback, or on the same side of it as the next. -/
def InitStep (before : ThreadSystem) (action : ThreadAction) (after : ThreadSystem) : Prop :=
  (∃ run, action = .initReturns run ∧ before.self.Early ∧ ¬ after.self.Early) ∨
    (∀ run, action ≠ .initReturns run) ∧ (before.self.Early ↔ after.self.Early)

namespace ThreadSystem.StartUp

variable {debug : Bool} {system after : ThreadSystem}

theorem ownerMoves (startUp : system.StartUp) (self : after.self = system.self)
    (initialized : after.thread.initialized = system.thread.initialized)
    (unborn : after.owner = .outside ∨ after.owner = .starting → system.owner = .outside)
    (returned : after.owner.Returned →
      system.owner.Returned ∨ system.thread.initialized = true) : after.StartUp where
  unborn place := self ▸ startUp.unborn (.inl (unborn place))
  fresh early := initialized ▸ startUp.fresh (self ▸ early)
  returned past := by
    rw [self]
    rcases returned past with before | ended
    · exact startUp.returned before
    · exact .inr fun early => by simp [startUp.fresh early] at ended

theorem ownerStep (startUp : system.StartUp) {action : ThreadAction}
    (step : Aio4c.ownerStep system action = some after) :
    after.StartUp ∧ InitStep system action after := by
  cases action <;> simp only [Aio4c.ownerStep, reduceCtorEq] at step
  case create created =>
    simp only [Option.ite_none_right_eq_some, Option.some.injEq] at step
    obtain ⟨starting, rfl⟩ := step
    have absent := startUp.unborn (.inr starting)
    have early : system.self.Early := .inl absent
    cases created with
    | true =>
        refine ⟨⟨by simp, fun _ => startUp.fresh early, ?_⟩, .inr ⟨by simp, ?_⟩⟩
        · simp [OwnerPoint.Returned]
        · exact iff_of_true early (.inr (.inl rfl))
    | false =>
        exact ⟨⟨by simp, fun _ => startUp.fresh early, fun _ => .inl absent⟩, .inr ⟨by simp, .rfl⟩⟩
  case test =>
    simp only [Option.ite_none_right_eq_some, Option.some.injEq] at step
    obtain ⟨testing, rfl⟩ := step
    refine ⟨startUp.ownerMoves rfl rfl ?_ ?_, .inr ⟨by simp, .rfl⟩⟩
    · dsimp only
      split <;> simp
    · dsimp only
      split
      · next initialized => exact fun _ => .inr initialized
      · simp [OwnerPoint.Returned]
  case read =>
    split at step
    · next compared place =>
        have past : system.owner.Returned := .inr (.inl ⟨compared, place⟩)
        split at step
        · simp only [Option.some.injEq] at step
          subst step
          refine ⟨startUp.ownerMoves rfl rfl ?_ fun _ => .inl past, .inr ⟨by simp, .rfl⟩⟩
          dsimp only
          split <;> simp
        · simp only [Option.some.injEq] at step
          subst step
          refine ⟨startUp.ownerMoves rfl rfl ?_ fun _ => .inl past, .inr ⟨by simp, .rfl⟩⟩
          dsimp only
          split <;> simp
    · cases step
  all_goals
    simp only [Option.ite_none_right_eq_some, Option.some.injEq] at step
    obtain ⟨here, rfl⟩ := step
    refine ⟨startUp.ownerMoves rfl rfl ?_ ?_, .inr ⟨by simp, .rfl⟩⟩ <;>
      simp [OwnerPoint.Returned, ThreadSystem.setRunning, ThreadSystem.setState, here]

theorem selfMoves (startUp : system.StartUp) (owner : after.owner = system.owner)
    (initialized : after.thread.initialized = system.thread.initialized)
    (present : system.self ≠ .absent) (side : system.self.Early ↔ after.self.Early) :
    after.StartUp where
  unborn place := absurd (startUp.unborn (owner ▸ place)) present
  fresh early := initialized ▸ startUp.fresh (side.mpr early)
  returned past := .inr fun early => by
    rcases startUp.returned (owner ▸ past) with absent | late
    · exact present absent
    · exact late (side.mpr early)

theorem selfStep (startUp : system.StartUp) {action : ThreadAction}
    (step : Aio4c.selfStep debug system action = some after) :
    after.StartUp ∧ InitStep system action after := by
  cases action <;> simp only [Aio4c.selfStep, reduceCtorEq] at step
  case initReturns run =>
    simp only [Option.ite_none_right_eq_some, Option.some.injEq] at step
    obtain ⟨initializing, rfl⟩ := step
    have early : system.self.Early := .inr (.inr (.inr initializing))
    have late : ¬ SelfPoint.looping.Early := by simp [SelfPoint.Early]
    refine ⟨⟨fun place => ?_, fun early => absurd early late, fun _ => .inr late⟩,
      .inl ⟨run, rfl, early, late⟩⟩
    exact absurd (startUp.unborn place) (by simp [initializing])
  case callback state =>
    simp only [Option.ite_none_right_eq_some, Option.some.injEq] at step
    obtain ⟨⟨inside, _⟩, rfl⟩ := step
    refine ⟨startUp.selfMoves rfl rfl ?_ .rfl, .inr ⟨by simp, .rfl⟩⟩
    rcases inside with here | here | here <;> simp [here]
  case take =>
    split at step
    · next found place =>
        simp only [Option.ite_none_right_eq_some, Option.some.injEq] at step
        obtain ⟨_, rfl⟩ := step
        have side : system.self.Early ↔ SelfPoint.initializing.Early := by
          simp [place, SelfPoint.Early]
        exact ⟨startUp.selfMoves rfl rfl (by simp [place]) side, .inr ⟨by simp, side⟩⟩
    · cases step
  case relock =>
    split at step
    · next run place =>
        simp only [Option.ite_none_right_eq_some, Option.some.injEq] at step
        obtain ⟨_, rfl⟩ := step
        have side : system.self.Early ↔
            (if system.thread.running then SelfPoint.assigning run else .looping).Early := by
          split <;> simp [place, SelfPoint.Early]
        exact ⟨startUp.selfMoves rfl rfl (by simp [place]) side, .inr ⟨by simp, side⟩⟩
    · cases step
  case assign =>
    split at step
    · next run place =>
        simp only [Option.some.injEq] at step
        subst step
        have side : system.self.Early ↔ SelfPoint.looping.Early := by
          simp [place, SelfPoint.Early]
        exact ⟨startUp.selfMoves rfl rfl (by simp [place]) side, .inr ⟨by simp, side⟩⟩
    · cases step
  case loop =>
    simp only [Option.ite_none_right_eq_some, Option.some.injEq] at step
    obtain ⟨here, rfl⟩ := step
    have side : system.self.Early ↔
        (if system.thread.running then SelfPoint.calling else .exiting).Early := by
      split <;> simp [here, SelfPoint.Early]
    exact ⟨startUp.selfMoves rfl rfl (by simp [here]) side, .inr ⟨by simp, side⟩⟩
  all_goals
    simp only [Option.ite_none_right_eq_some, Option.some.injEq] at step
    obtain ⟨here, rfl⟩ := step
    refine ⟨startUp.selfMoves rfl rfl ?_ ?_, .inr ⟨by simp, ?_⟩⟩ <;>
      simp [here, SelfPoint.Early, ThreadSystem.setState]

theorem step (startUp : system.StartUp) {action : ThreadAction}
    (taken : ThreadStep debug system action after) : after.StartUp ∧ InitStep system action after := by
  unfold ThreadStep threadStep at taken
  cases owned : Aio4c.ownerStep system action with
  | some reached =>
      rw [owned] at taken
      cases taken
      exact startUp.ownerStep owned
  | none =>
      rw [owned] at taken
      exact startUp.selfStep taken

end ThreadSystem.StartUp

/-! ## Runs -/

variable {debug : Bool} {start final : ThreadSystem} {actions : List ThreadAction}

theorem init_not_again (startUp : start.StartUp) (late : ¬ start.self.Early)
    (run : Run (ThreadStep debug) start actions final) (result : Bool) :
    ThreadAction.initReturns result ∉ actions := by
  induction run with
  | nil => exact List.not_mem_nil
  | cons taken _ ih =>
      obtain ⟨startUp', ended | ⟨other, side⟩⟩ := startUp.step taken
      · obtain ⟨_, _, early, _⟩ := ended
        exact absurd early late
      · exact List.not_mem_cons_of_ne_of_not_mem (other result).symm
          (ih startUp' fun early => late (side.mpr early))

/-- Behind the end of the init callback it has ended once, with one result. -/
theorem init_once (startUp : start.StartUp) (early : start.self.Early)
    (run : Run (ThreadStep debug) start actions final) (late : ¬ final.self.Early) :
    ∃ result, ∀ other, ThreadAction.initReturns other ∈ actions ↔ other = result := by
  induction run with
  | nil => exact absurd early late
  | cons taken rest ih =>
      obtain ⟨startUp', ended | ⟨other, side⟩⟩ := startUp.step taken
      · obtain ⟨result, rfl, _, passed⟩ := ended
        refine ⟨result, fun other => ?_⟩
        simp [init_not_again startUp' passed rest other]
      · obtain ⟨result, once⟩ := ih startUp' (side.mp early) late
        refine ⟨result, fun any => ?_⟩
        simp [(other any).symm, once any]

theorem run_startUp (startUp : start.StartUp) (run : Run (ThreadStep debug) start actions final) :
    final.StartUp :=
  run.keeps (fun _ _ _ holds taken => (holds.step taken).1) startUp

/-- `ThreadStart` returns true only behind the end of the init callback. -/
theorem ThreadSystem.StartUp.late (startUp : final.StartUp)
    (returned : final.startResult = some true) : ¬ final.self.Early := by
  unfold ThreadSystem.startResult at returned
  split at returned
  · next past => exact (startUp.returned past).resolve_left (by simpa using returned)
  · cases returned

/-- When `ThreadStart` has returned true, the init callback has ended, once. -/
theorem threadStart_init (run : Run (ThreadStep debug) newThread actions final)
    (returned : final.startResult = some true) :
    ∃ result, ∀ other, ThreadAction.initReturns other ∈ actions ↔ other = result :=
  init_once newThread_startUp (.inl rfl) run ((run_startUp newThread_startUp run).late returned)

end Aio4c
