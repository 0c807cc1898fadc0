import Aio4c.Thread

/-! When the structure of a thread is freed. `ThreadJoin` waits for the thread exactly
when `ThreadRunning` finds it running, and that reads the thread's state field by
comparison after comparison while the thread goes on. -/

set_option autoImplicit false

namespace Aio4c

open TransitionSystem

/-- The thread is not past the return of its init callback. -/
def SelfPoint.Early (point : SelfPoint) : Prop :=
  point = .absent ∨ point = .entering ∨ (∃ found, point = .locking found) ∨ point = .initializing

def SelfPoint.Locks (point : SelfPoint) : Prop :=
  point = .initializing ∨ point = .looping ∨ ∃ run, point = .assigning run

def OwnerPoint.Locks (point : OwnerPoint) : Prop :=
  point = .starting ∨ point = .created ∨ point = .testing

def OwnerPoint.Returned (point : OwnerPoint) : Prop :=
  point = .started ∨ (∃ compared, point = .reading compared) ∨ point = .joining ∨
    point = .freeing ∨ point = .done

/-- What the code relies on: a thread whose initialization fails has already been seen
in a state other than NONE, and locks and conditions do not move a thread to a state that
a `ThreadRunning` in progress has compared with. -/
def ThreadAllowed (debug : Bool) (system : ThreadSystem) : ThreadAction → Prop
  | .initReturns false => system.thread.state ≠ .none
  | .callback state => debug → state ∉ system.compared
  | .runReturns _ => debug → .blocked ∉ system.compared
  | .relock => debug → .running ∉ system.compared
  | _ => True

instance (debug : Bool) (system : ThreadSystem) :
    (action : ThreadAction) → Decidable (ThreadAllowed debug system action)
  | .initReturns false => inferInstanceAs (Decidable (system.thread.state ≠ .none))
  | .callback state => inferInstanceAs (Decidable (debug → state ∉ system.compared))
  | .runReturns _ => inferInstanceAs (Decidable (debug → .blocked ∉ system.compared))
  | .relock => inferInstanceAs (Decidable (debug → .running ∉ system.compared))
  | .initReturns true | .threadStart | .create _ | .addThread | .test | .wake | .threadStop
  | .threadJoin | .read | .join | .free | .enter | .take | .loop | .assign | .exitReturns
  | .setExited | .leave => isTrue trivial

/-- In the default build all depends on the init callback. -/
theorem threadAllowed_default {system : ThreadSystem} {action : ThreadAction}
    (inits : action ≠ .initReturns false) : ThreadAllowed false system action := by
  cases action with
  | initReturns run =>
      cases run with
      | true => trivial
      | false => exact absurd rfl inits
  | callback | runReturns | relock => exact fun debug => by cases debug
  | _ => trivial

/-- No thread uses the structure behind `FreeThread`: the thread was never created, or
it has ended. -/
def ThreadSystem.FreedLate (system : ThreadSystem) : Prop :=
  system.freed = true → system.self = .absent ∨ system.self = .ended

structure ThreadSystem.Sound (system : ThreadSystem) : Prop where
  lockSelf : system.self.Locks → system.lock = some .self
  lockOwner : system.owner.Locks → system.lock = some .owner
  fresh : system.self.Early → system.thread.initialized = false
  known : ¬ system.self.Early → system.thread.state ≠ .none
  unborn : system.owner = .outside ∨ system.owner = .starting → system.self = .absent
  returned : system.owner.Returned → system.self = .absent ∨ ¬ system.self.Early
  exited : system.thread.state = .exited → system.self = .leaving ∨ system.self = .ended
  joined : system.thread.state = .joined → system.owner = .freeing ∨ system.owner = .done
  distinct : system.self ≠ .absent → system.thread.state ∉ system.compared
  finished : system.owner = .freeing ∨ system.owner = .done →
    system.self = .absent ∨ system.self = .ended
  freed : system.freed = true → system.owner = .done

theorem newThread_sound : newThread.Sound where
  lockSelf locks := by simp [newThread, SelfPoint.Locks] at locks
  lockOwner locks := by simp [newThread, OwnerPoint.Locks] at locks
  fresh _ := rfl
  known late := absurd (.inl rfl) late
  unborn _ := rfl
  returned _ := .inl rfl
  exited exited := by cases exited
  joined joined := by cases joined
  distinct present := absurd rfl present
  finished _ := .inl rfl
  freed freed := by cases freed

attribute [local simp] ownerStep selfStep

namespace ThreadSystem.Sound

variable {debug : Bool} {system after : ThreadSystem}

/-- A thread past its init callback moves on, and sets its state to one that was not
compared with. -/
theorem moves (sound : system.Sound) (late : ¬ system.self.Early) (alive : system.self ≠ .ended)
    {self : SelfPoint} (late' : ¬ self.Early) {state : ThreadState} {lock : Option LockHolder}
    (running listed : Bool) (lockSelf : self.Locks → lock = some .self)
    (lockOwner : system.owner.Locks → lock = some .owner) (known : state ≠ .none)
    (joined : state ≠ .joined) (exited : state = .exited → self = .leaving ∨ self = .ended)
    (distinct : state ∉ system.compared) :
    ThreadSystem.Sound { system with
      self, lock, listed, thread := { system.thread with state, running } } := by
  have present : system.self ≠ .absent := fun absent => late (.inl absent)
  have unfinished : ¬ (system.owner = .freeing ∨ system.owner = .done) := by
    intro ending
    rcases sound.finished ending with absent | ended
    · exact present absent
    · exact alive ended
  exact
    { lockSelf, lockOwner
      fresh := fun early => absurd early late'
      known := fun _ => known
      unborn := fun unborn => absurd (sound.unborn unborn) present
      returned := fun _ => .inr late'
      exited
      joined := fun same => absurd same joined
      distinct := fun _ => distinct
      finished := fun ending => absurd ending unfinished
      freed := sound.freed }

/-! ### The owner -/

theorem threadStart (sound : system.Sound)
    (step : ownerStep system .threadStart = some after) : after.Sound := by
  simp only [ownerStep, Option.ite_none_right_eq_some, Option.some.injEq] at step
  obtain ⟨⟨outside, unlocked⟩, rfl⟩ := step
  have absent := sound.unborn (.inl outside)
  exact { sound with
    lockSelf := fun locks => by simp [absent, SelfPoint.Locks] at locks
    lockOwner := fun _ => rfl
    unborn := fun _ => absent
    returned := fun _ => .inl absent
    joined := fun joined => by
      rcases sound.joined joined with freeing | done
      · simp [outside] at freeing
      · simp [outside] at done
    distinct := fun present => absurd absent present
    finished := fun _ => .inl absent
    freed := fun freed => by simpa [outside] using sound.freed freed }

theorem create (sound : system.Sound) {created : Bool}
    (step : ownerStep system (.create created) = some after) : after.Sound := by
  simp only [ownerStep, Option.ite_none_right_eq_some, Option.some.injEq] at step
  obtain ⟨starting, rfl⟩ := step
  have absent := sound.unborn (.inr starting)
  have unfreed : system.freed = true → False := fun freed => by
    simpa [starting] using sound.freed freed
  have unjoined : system.thread.state = .joined → False := fun joined => by
    simpa [starting] using sound.joined joined
  have unexited : system.thread.state = .exited → False := fun exited => by
    simpa [absent] using sound.exited exited
  cases created with
  | true =>
      exact
        { lockSelf := fun locks => by simp [SelfPoint.Locks] at locks
          lockOwner := fun _ => sound.lockOwner (.inl starting)
          fresh := fun _ => sound.fresh (.inl absent)
          known := fun late => absurd (.inr (.inl rfl)) late
          unborn := fun unborn => by simp at unborn
          returned := fun returned => by simp [OwnerPoint.Returned] at returned
          exited := fun exited => (unexited exited).elim
          joined := fun joined => (unjoined joined).elim
          distinct := fun _ => List.not_mem_nil
          finished := fun ending => by simp at ending
          freed := fun freed => (unfreed freed).elim }
  | false =>
      exact { sound with
        lockSelf := fun locks => by simp [absent, SelfPoint.Locks] at locks
        lockOwner := fun locks => by simp [OwnerPoint.Locks] at locks
        unborn := fun _ => absent
        returned := fun _ => .inl absent
        joined := fun joined => (unjoined joined).elim
        distinct := fun _ => List.not_mem_nil
        finished := fun _ => .inl absent
        freed := fun freed => (unfreed freed).elim }

/-- The owner moves inside `ThreadStart`, or out of it once the thread is past its init
callback. -/
theorem ownerMoves (sound : system.Sound) {owner : OwnerPoint} {lock : Option LockHolder}
    (listed : Bool)
    (unfinished : system.owner ≠ .freeing ∧ system.owner ≠ .done)
    (lockSelf : system.self.Locks → lock = some .self)
    (lockOwner : owner.Locks → lock = some .owner)
    (place : owner = .testing ∨ owner = .waiting ∨ owner = .started)
    (returned : owner = .started → system.thread.initialized = true) :
    ThreadSystem.Sound { system with owner, lock, listed } := by
  have compared : ThreadSystem.compared { system with owner, lock, listed } = [] := by
    rcases place with rfl | rfl | rfl <;> rfl
  exact
    { lockSelf, lockOwner
      fresh := sound.fresh
      known := sound.known
      unborn := fun unborn => by
        rcases place with rfl | rfl | rfl
        · simp at unborn
        · simp at unborn
        · simp at unborn
      returned := fun past => by
        right
        intro early
        have started : owner = .started := by
          rcases place with rfl | rfl | rfl
          · simp [OwnerPoint.Returned] at past
          · simp [OwnerPoint.Returned] at past
          · rfl
        have fresh := sound.fresh early
        rw [returned started] at fresh
        cases fresh
      exited := sound.exited
      joined := fun joined => by
        rcases sound.joined joined with freeing | done
        · exact absurd freeing unfinished.1
        · exact absurd done unfinished.2
      distinct := fun _ => by
        rw [compared]
        exact List.not_mem_nil
      finished := fun ending => by
        rcases place with rfl | rfl | rfl
        · simp at ending
        · simp at ending
        · simp at ending
      freed := fun freed => absurd (sound.freed freed) unfinished.2 }

theorem lock_exclusive (sound : system.Sound) (held : system.lock = some .owner) :
    ¬ system.self.Locks := by
  intro locks
  rw [sound.lockSelf locks] at held
  cases held

theorem addThread (sound : system.Sound)
    (step : ownerStep system .addThread = some after) : after.Sound := by
  simp only [ownerStep, Option.ite_none_right_eq_some, Option.some.injEq] at step
  obtain ⟨created, rfl⟩ := step
  have held := sound.lockOwner (.inr (.inl created))
  apply sound.ownerMoves true
  · simp [created]
  · exact sound.lockSelf
  · exact fun _ => held
  · exact .inl rfl
  · intro started
    cases started

theorem test (sound : system.Sound) (step : ownerStep system .test = some after) :
    after.Sound := by
  simp only [ownerStep, Option.ite_none_right_eq_some, Option.some.injEq] at step
  obtain ⟨testing, rfl⟩ := step
  have held := sound.lockOwner (.inr (.inr testing))
  apply sound.ownerMoves system.listed
  · simp [testing]
  · intro locks
    exact absurd locks (sound.lock_exclusive held)
  · intro locks
    cases initialized : system.thread.initialized with
    | true => simp [initialized, OwnerPoint.Locks] at locks
    | false => simp [initialized, OwnerPoint.Locks] at locks
  · cases system.thread.initialized with
    | true => exact .inr (.inr rfl)
    | false => exact .inr (.inl rfl)
  · intro started
    cases initialized : system.thread.initialized with
    | true => rfl
    | false => simp [initialized] at started

theorem wake (sound : system.Sound) (step : ownerStep system .wake = some after) :
    after.Sound := by
  simp only [ownerStep, Option.ite_none_right_eq_some, Option.some.injEq] at step
  obtain ⟨⟨waiting, unlocked⟩, rfl⟩ := step
  apply sound.ownerMoves system.listed
  · simp [waiting]
  · intro locks
    have held := sound.lockSelf locks
    rw [unlocked] at held
    cases held
  · exact fun _ => rfl
  · exact .inl rfl
  · intro started
    cases started

theorem threadStop (sound : system.Sound)
    (step : ownerStep system .threadStop = some after) : after.Sound := by
  simp only [ownerStep, Option.ite_none_right_eq_some, Option.some.injEq] at step
  obtain ⟨_, rfl⟩ := step
  exact { sound with }

/-- Inside `ThreadJoin`: the owner does not hold the lock, and what it found out about
the thread is right. -/
theorem joins (sound : system.Sound) (past : system.owner.Returned)
    (unfinished : system.owner ≠ .freeing ∧ system.owner ≠ .done) {owner : OwnerPoint}
    (past' : owner.Returned) (notDone : owner ≠ .done)
    (distinct : system.self ≠ .absent →
      system.thread.state ∉ ThreadSystem.compared { system with owner })
    (finished : owner = .freeing → system.self = .absent ∨ system.self = .ended) :
    ThreadSystem.Sound { system with owner } :=
  { lockSelf := sound.lockSelf
    lockOwner := fun locks => by
      rcases locks with rfl | rfl | rfl <;> simp [OwnerPoint.Returned] at past'
    fresh := sound.fresh
    known := sound.known
    unborn := fun unborn => by
      rcases unborn with rfl | rfl <;> simp [OwnerPoint.Returned] at past'
    returned := fun _ => sound.returned past
    exited := sound.exited
    joined := fun joined => by
      rcases sound.joined joined with freeing | done
      · exact absurd freeing unfinished.1
      · exact absurd done unfinished.2
    distinct
    finished := fun ending => finished (ending.resolve_right notDone)
    freed := fun freed => absurd (sound.freed freed) unfinished.2 }

theorem threadJoin (sound : system.Sound)
    (step : ownerStep system .threadJoin = some after) : after.Sound := by
  simp only [ownerStep, Option.ite_none_right_eq_some, Option.some.injEq] at step
  obtain ⟨started, rfl⟩ := step
  apply sound.joins
  · exact .inl started
  · simp [started]
  · exact .inr (.inl ⟨0, rfl⟩)
  · intro done
    cases done
  · intro _
    exact List.not_mem_nil
  · intro freeing
    cases freeing

theorem comparable (sound : system.Sound) (past : system.owner.Returned)
    (unfinished : system.owner ≠ .freeing ∧ system.owner ≠ .done)
    (present : system.self ≠ .absent) : system.thread.state ∈ threadRunningStates := by
  have late := (sound.returned past).resolve_left present
  have known := sound.known late
  cases state : system.thread.state with
  | none => exact absurd state known
  | running => decide
  | blocked => decide
  | idle => decide
  | exited => decide
  | joined =>
      rcases sound.joined state with freeing | done
      · exact absurd freeing unfinished.1
      · exact absurd done unfinished.2

theorem read (sound : system.Sound) (step : ownerStep system .read = some after) :
    after.Sound := by
  cases place : system.owner with
  | reading compared =>
      have past : system.owner.Returned := .inr (.inl ⟨compared, place⟩)
      have unfinished : system.owner ≠ .freeing ∧ system.owner ≠ .done := by simp [place]
      have passed : system.compared = threadRunningStates.take compared := by
        simp only [ThreadSystem.compared, place]
      simp only [ownerStep, place] at step
      cases next : threadRunningStates[compared]? with
      | some state =>
          simp only [next, Option.some.injEq] at step
          subst step
          by_cases equal : system.thread.state = state
          · rw [if_pos equal]
            apply sound.joins past unfinished
            · exact .inr (.inr (.inl rfl))
            · intro done
              cases done
            · intro _
              exact List.not_mem_nil
            · intro freeing
              cases freeing
          · rw [if_neg equal]
            apply sound.joins past unfinished
            · exact .inr (.inl ⟨_, rfl⟩)
            · intro done
              cases done
            · intro present
              have distinct := sound.distinct present
              rw [passed] at distinct
              simp only [ThreadSystem.compared, List.take_add_one, next, Option.toList_some,
                List.mem_append, List.mem_singleton, not_or]
              exact ⟨distinct, equal⟩
            · intro freeing
              cases freeing
      | none =>
          simp only [next, Option.some.injEq] at step
          subst step
          have absent : system.self = .absent := by
            by_contra present
            have distinct := sound.distinct present
            rw [passed, List.take_of_length_le (List.getElem?_eq_none_iff.mp next)] at distinct
            exact distinct (sound.comparable past unfinished present)
          cases system.thread.running with
          | true =>
              apply sound.joins past unfinished
              · exact .inr (.inr (.inl rfl))
              · intro done
                cases done
              · intro present
                exact absurd absent present
              · intro freeing
                cases freeing
          | false =>
              apply sound.joins past unfinished
              · exact .inr (.inr (.inr (.inl rfl)))
              · intro done
                cases done
              · intro present
                exact absurd absent present
              · intro _
                exact .inl absent
  | outside | starting | created | testing | waiting | started | joining | freeing | done =>
      simp [ownerStep, place] at step

theorem join (sound : system.Sound) (step : ownerStep system .join = some after) :
    after.Sound := by
  simp only [ownerStep, Option.ite_none_right_eq_some, Option.some.injEq] at step
  obtain ⟨⟨joining, ended⟩, rfl⟩ := step
  have late : ¬ system.self.Early := by simp [ended, SelfPoint.Early]
  exact
    { lockSelf := sound.lockSelf
      lockOwner := fun locks => by simp [ThreadSystem.setState, OwnerPoint.Locks] at locks
      fresh := fun early => absurd early late
      known := fun _ known => by simp [ThreadSystem.setState] at known
      unborn := fun unborn => by simp [ThreadSystem.setState] at unborn
      returned := fun _ => .inr late
      exited := fun _ => .inr ended
      joined := fun _ => .inl rfl
      distinct := fun _ => List.not_mem_nil
      finished := fun _ => .inr ended
      freed := fun freed => by simpa [joining] using sound.freed freed }

theorem free (sound : system.Sound) (step : ownerStep system .free = some after) :
    after.Sound := by
  simp only [ownerStep, Option.ite_none_right_eq_some, Option.some.injEq] at step
  obtain ⟨freeing, rfl⟩ := step
  exact { sound with
    lockOwner := fun locks => by simp [OwnerPoint.Locks] at locks
    unborn := fun unborn => by simp at unborn
    returned := fun _ => sound.returned (.inr (.inr (.inr (.inl freeing))))
    joined := fun _ => .inr rfl
    distinct := fun _ => List.not_mem_nil
    finished := fun _ => sound.finished (.inl freeing)
    freed := fun _ => rfl }

/-! ### The thread -/

/-- A thread in front of its init callback: `ThreadStart` has not returned. -/
theorem early (sound : system.Sound) (early : system.self.Early)
    (present : system.self ≠ .absent) : system.compared = [] ∧ ¬ system.owner.Returned ∧
      system.owner ≠ .freeing ∧ system.owner ≠ .done ∧
      ¬ (system.owner = .outside ∨ system.owner = .starting) := by
  have waiting : ¬ system.owner.Returned := by
    intro returned
    rcases sound.returned returned with absent | late
    · exact present absent
    · exact late early
  refine ⟨?_, waiting, ?_, ?_, fun unborn => present (sound.unborn unborn)⟩
  · unfold ThreadSystem.compared
    split
    · next compared place => exact absurd (.inr (.inl ⟨compared, place⟩)) waiting
    · rfl
  · exact fun freeing => waiting (.inr (.inr (.inr (.inl freeing))))
  · exact fun done => waiting (.inr (.inr (.inr (.inr done))))

theorem movesEarly (sound : system.Sound) (early : system.self.Early)
    (present : system.self ≠ .absent) {self : SelfPoint} (early' : self.Early)
    {state : ThreadState} {lock : Option LockHolder} (running : Bool)
    (lockSelf : self.Locks → lock = some .self)
    (lockOwner : system.owner.Locks → lock = some .owner)
    (alive : state ≠ .exited ∧ state ≠ .joined) :
    ThreadSystem.Sound { system with
      self, lock, thread := { system.thread with state, running } } := by
  obtain ⟨compared, waiting, _, unfinished, born⟩ := sound.early early present
  exact
    { lockSelf, lockOwner
      fresh := fun _ => sound.fresh early
      known := fun late => absurd early' late
      unborn := fun unborn => absurd unborn born
      returned := fun returned => absurd returned waiting
      exited := fun exited => absurd exited alive.1
      joined := fun joined => absurd joined alive.2
      distinct := fun _ => by
        have same : ThreadSystem.compared { system with
            self, lock, thread := { system.thread with state, running } } =
              system.compared := rfl
        rw [same, compared]
        exact List.not_mem_nil
      finished := fun ending => by
        rcases ending with freeing | done
        · exact absurd (.inr (.inr (.inr (.inl freeing)))) waiting
        · exact absurd done unfinished
      freed := fun freed => absurd (sound.freed freed) unfinished }

theorem unexited (sound : system.Sound)
    (left : system.self ≠ .leaving ∧ system.self ≠ .ended) : system.thread.state ≠ .exited := by
  intro exited
  rcases sound.exited exited with leaving | ended
  · exact left.1 leaving
  · exact left.2 ended

theorem unjoined (sound : system.Sound)
    (unfinished : system.owner ≠ .freeing ∧ system.owner ≠ .done) :
    system.thread.state ≠ .joined := by
  intro joined
  rcases sound.joined joined with freeing | done
  · exact unfinished.1 freeing
  · exact unfinished.2 done

theorem enter (sound : system.Sound) (step : selfStep debug system .enter = some after) :
    after.Sound := by
  simp only [selfStep, Option.ite_none_right_eq_some, Option.some.injEq] at step
  obtain ⟨entering, rfl⟩ := step
  have early : system.self.Early := .inr (.inl entering)
  have present : system.self ≠ .absent := by simp [entering]
  obtain ⟨_, _, notFreeing, notDone, _⟩ := sound.early early present
  have alive : system.thread.state ≠ .exited ∧ system.thread.state ≠ .joined :=
    ⟨sound.unexited (by simp [entering]), sound.unjoined ⟨notFreeing, notDone⟩⟩
  apply sound.movesEarly early present
  · exact .inr (.inr (.inl ⟨_, rfl⟩))
  · intro locks
    simp [SelfPoint.Locks] at locks
  · exact sound.lockOwner
  · cases debug && system.listed with
    | true => simp
    | false => exact alive

theorem take (sound : system.Sound) (step : selfStep debug system .take = some after) :
    after.Sound := by
  cases place : system.self with
  | locking found =>
      simp only [selfStep, place, Option.ite_none_right_eq_some, Option.some.injEq] at step
      obtain ⟨unlocked, rfl⟩ := step
      have early : system.self.Early := .inr (.inr (.inl ⟨found, place⟩))
      have present : system.self ≠ .absent := by simp [place]
      obtain ⟨_, _, notFreeing, notDone, _⟩ := sound.early early present
      have alive : system.thread.state ≠ .exited ∧ system.thread.state ≠ .joined :=
        ⟨sound.unexited (by simp [place]), sound.unjoined ⟨notFreeing, notDone⟩⟩
      apply sound.movesEarly early present
      · exact .inr (.inr (.inr rfl))
      · exact fun _ => rfl
      · intro locks
        have held := sound.lockOwner locks
        rw [unlocked] at held
        cases held
      · cases found with
        | true => simp [ThreadSystem.setState]
        | false => exact alive
  | absent | entering | initializing | looping | calling | relocking | assigning | exiting
  | exited | leaving | ended => simp [selfStep, place] at step

theorem callback (sound : system.Sound) {state : ThreadState}
    (allowed : ThreadAllowed debug system (.callback state))
    (step : selfStep debug system (.callback state) = some after) : after.Sound := by
  simp only [selfStep, Option.ite_none_right_eq_some, Option.some.injEq] at step
  obtain ⟨⟨inside, noted, _, which⟩, rfl⟩ := step
  have alive : state ≠ .exited ∧ state ≠ .joined := by
    rcases which with rfl | rfl | rfl <;> decide
  by_cases early : system.self.Early
  · have present : system.self ≠ .absent := by
      rcases inside with same | same | same <;> simp [same]
    exact sound.movesEarly early present early system.thread.running sound.lockSelf
      sound.lockOwner alive
  · apply sound.moves early
    · rcases inside with same | same | same <;> simp [same]
    · exact early
    · exact sound.lockSelf
    · exact sound.lockOwner
    · rcases which with rfl | rfl | rfl <;> decide
    · exact alive.2
    · intro exited
      exact absurd exited alive.1
    · exact allowed noted

/-- The init callback returns: a thread that runs is RUNNING, one that does not was in
some state already. -/
theorem initReturns (sound : system.Sound) {run : Bool}
    (allowed : ThreadAllowed debug system (.initReturns run))
    (step : selfStep debug system (.initReturns run) = some after) : after.Sound := by
  simp only [selfStep, Option.ite_none_right_eq_some, Option.some.injEq] at step
  obtain ⟨place, rfl⟩ := step
  have early : system.self.Early := .inr (.inr (.inr place))
  have present : system.self ≠ .absent := by simp [place]
  have held := sound.lockSelf (.inl place)
  obtain ⟨compared, waiting, notFreeing, notDone, born⟩ := sound.early early present
  have alive : system.thread.state ≠ .exited ∧ system.thread.state ≠ .joined :=
    ⟨sound.unexited (by simp [place]), sound.unjoined ⟨notFreeing, notDone⟩⟩
  have late : ¬ SelfPoint.looping.Early := by simp [SelfPoint.Early]
  exact
    { lockSelf := fun _ => held
      lockOwner := sound.lockOwner
      fresh := fun early => absurd early late
      known := fun _ => by
        cases run with
        | true => simp
        | false =>
            have seen : system.thread.state ≠ .none := allowed
            simpa using seen
      unborn := fun unborn => absurd unborn born
      returned := fun returned => absurd returned waiting
      exited := fun exited => by
        cases run with
        | true => simp at exited
        | false => exact absurd (by simpa using exited) alive.1
      joined := fun joined => by
        cases run with
        | true => simp at joined
        | false => exact absurd (by simpa using joined) alive.2
      distinct := fun _ => by
        have same : ThreadSystem.compared { system with
            self := .looping
            thread :=
              { state := if run then .running else system.thread.state
                running := run, initialized := true } } = system.compared := rfl
        rw [same, compared]
        exact List.not_mem_nil
      finished := fun ending => by
        rcases ending with freeing | done
        · exact absurd freeing notFreeing
        · exact absurd done notDone
      freed := fun freed => absurd (sound.freed freed) notDone }

/-- Nobody waits for the end of a thread before `ThreadJoin` found it running. -/
theorem unfinished (sound : system.Sound) (late : ¬ system.self.Early)
    (alive : system.self ≠ .ended) : system.owner ≠ .freeing ∧ system.owner ≠ .done := by
  have present : system.self ≠ .absent := fun absent => late (.inl absent)
  constructor
  · intro freeing
    rcases sound.finished (.inl freeing) with absent | ended
    · exact present absent
    · exact alive ended
  · intro done
    rcases sound.finished (.inr done) with absent | ended
    · exact present absent
    · exact alive ended

theorem working (sound : system.Sound) (late : ¬ system.self.Early)
    (alive : system.self ≠ .ended) : system.thread.state ≠ .none ∧
      system.thread.state ≠ .joined ∧ system.thread.state ∉ system.compared :=
  ⟨sound.known late, sound.unjoined (sound.unfinished late alive),
    sound.distinct fun absent => late (.inl absent)⟩

theorem loop (sound : system.Sound) (step : selfStep debug system .loop = some after) :
    after.Sound := by
  simp only [selfStep, Option.ite_none_right_eq_some, Option.some.injEq] at step
  obtain ⟨place, rfl⟩ := step
  have held := sound.lockSelf (.inr (.inl place))
  have late : ¬ system.self.Early := by simp [place, SelfPoint.Early]
  obtain ⟨known, joined, distinct⟩ := sound.working late (by simp [place])
  apply sound.moves late (by simp [place]) _ system.thread.running system.listed _ _ known joined _
    distinct
  · cases running : system.thread.running <;> simp [SelfPoint.Early]
  · intro locks
    cases running : system.thread.running <;> simp [running, SelfPoint.Locks] at locks
  · intro locks
    have owned := sound.lockOwner locks
    rw [held] at owned
    cases owned
  · intro same
    exact absurd same (sound.unexited (by simp [place]))

/-- The state that a lock leaves the thread in: one that was not compared with. -/
theorem noted (sound : system.Sound) (late : ¬ system.self.Early)
    (staying : system.self ≠ .leaving ∧ system.self ≠ .ended) {state : ThreadState}
    (working : state = .blocked ∨ state = .running) (allowed : debug → state ∉ system.compared) :
    let noted := if debug then state else system.thread.state
    noted ≠ .none ∧ noted ≠ .joined ∧ noted ∉ system.compared ∧ noted ≠ .exited := by
  cases debug with
  | true => rcases working with rfl | rfl <;> exact ⟨by simp, by simp, allowed rfl, by simp⟩
  | false =>
      obtain ⟨known, joined, distinct⟩ := sound.working late staying.2
      exact ⟨known, joined, distinct, sound.unexited staying⟩

theorem runReturns (sound : system.Sound) {run : Bool}
    (allowed : ThreadAllowed debug system (.runReturns run))
    (step : selfStep debug system (.runReturns run) = some after) : after.Sound := by
  simp only [selfStep, Option.ite_none_right_eq_some, Option.some.injEq] at step
  obtain ⟨place, rfl⟩ := step
  have late : ¬ system.self.Early := by simp [place, SelfPoint.Early]
  obtain ⟨known, joined, distinct, staying⟩ :=
    sound.noted late (by simp [place]) (.inl rfl) allowed
  apply sound.moves late (by simp [place]) _ system.thread.running system.listed _ sound.lockOwner
    known joined _ distinct
  · simp [SelfPoint.Early]
  · intro locks
    simp [SelfPoint.Locks] at locks
  · intro exited
    exact absurd exited staying

theorem relock (sound : system.Sound) (allowed : ThreadAllowed debug system .relock)
    (step : selfStep debug system .relock = some after) : after.Sound := by
  cases place : system.self with
  | relocking run =>
      simp only [selfStep, place, Option.ite_none_right_eq_some, Option.some.injEq] at step
      obtain ⟨unlocked, rfl⟩ := step
      have late : ¬ system.self.Early := by simp [place, SelfPoint.Early]
      obtain ⟨known, joined, distinct, staying⟩ :=
        sound.noted late (by simp [place]) (.inr rfl) allowed
      apply sound.moves late (by simp [place]) _ system.thread.running system.listed _ _
        known joined _ distinct
      · cases system.thread.running <;> simp [SelfPoint.Early]
      · exact fun _ => rfl
      · intro locks
        have held := sound.lockOwner locks
        rw [unlocked] at held
        cases held
      · intro exited
        exact absurd exited staying
  | absent | entering | locking | initializing | looping | calling | assigning | exiting
  | exited | leaving | ended => simp [selfStep, place] at step

theorem assign (sound : system.Sound) (step : selfStep debug system .assign = some after) :
    after.Sound := by
  cases place : system.self with
  | assigning run =>
      simp only [selfStep, place, Option.some.injEq] at step
      subst step
      have held := sound.lockSelf (.inr (.inr ⟨run, place⟩))
      have late : ¬ system.self.Early := by simp [place, SelfPoint.Early]
      obtain ⟨known, joined, distinct⟩ := sound.working late (by simp [place])
      apply sound.moves late (by simp [place]) _ run system.listed _ sound.lockOwner known joined _
        distinct
      · simp [SelfPoint.Early]
      · exact fun _ => held
      · intro same
        exact absurd same (sound.unexited (by simp [place]))
  | absent | entering | locking | initializing | looping | calling | relocking | exiting
  | exited | leaving | ended => simp [selfStep, place] at step

theorem exitReturns (sound : system.Sound) (step : selfStep debug system .exitReturns = some after) :
    after.Sound := by
  simp only [selfStep, Option.ite_none_right_eq_some, Option.some.injEq] at step
  obtain ⟨place, rfl⟩ := step
  have late : ¬ system.self.Early := by simp [place, SelfPoint.Early]
  obtain ⟨known, joined, distinct⟩ := sound.working late (by simp [place])
  apply sound.moves late (by simp [place]) _ system.thread.running system.listed _ sound.lockOwner
    known joined _ distinct
  · simp [SelfPoint.Early]
  · intro locks
    simp [SelfPoint.Locks] at locks
  · intro same
    exact absurd same (sound.unexited (by simp [place]))

/-- Where a call of `ThreadRunning` has compared with all the states, it has met the
state of the thread. -/
theorem uncompared (sound : system.Sound) (late : ¬ system.self.Early)
    (alive : system.self ≠ .ended) : .exited ∉ system.compared := by
  intro compared
  have present : system.self ≠ .absent := fun absent => late (.inl absent)
  have distinct := sound.distinct present
  cases place : system.owner with
  | reading number =>
      have whole : threadRunningStates.take number = threadRunningStates := by
        simp only [ThreadSystem.compared, place] at compared
        match number with
        | 0 | 1 | 2 | 3 => simp [threadRunningStates] at compared
        | number + 4 => exact List.take_of_length_le (by simp [threadRunningStates])
      simp only [ThreadSystem.compared, place, whole] at distinct
      exact distinct (sound.comparable (.inr (.inl ⟨number, place⟩))
        (sound.unfinished late alive) present)
  | outside | starting | created | testing | waiting | started | joining | freeing | done =>
      simp [ThreadSystem.compared, place] at compared

theorem setExited (sound : system.Sound) (step : selfStep debug system .setExited = some after) :
    after.Sound := by
  simp only [selfStep, Option.ite_none_right_eq_some, Option.some.injEq] at step
  obtain ⟨place, rfl⟩ := step
  have late : ¬ system.self.Early := by simp [place, SelfPoint.Early]
  apply sound.moves late (by simp [place])
  · simp [SelfPoint.Early]
  · intro locks
    simp [SelfPoint.Locks] at locks
  · exact sound.lockOwner
  · decide
  · decide
  · exact fun _ => .inl rfl
  · exact sound.uncompared late (by simp [place])

theorem leave (sound : system.Sound) (step : selfStep debug system .leave = some after) :
    after.Sound := by
  simp only [selfStep, Option.ite_none_right_eq_some, Option.some.injEq] at step
  obtain ⟨place, rfl⟩ := step
  have late : ¬ system.self.Early := by simp [place, SelfPoint.Early]
  obtain ⟨known, joined, distinct⟩ := sound.working late (by simp [place])
  apply sound.moves late (by simp [place]) _ system.thread.running false _ sound.lockOwner
    known joined _ distinct
  · simp [SelfPoint.Early]
  · intro locks
    simp [SelfPoint.Locks] at locks
  · exact fun _ => .inr rfl

theorem ownerStep (sound : system.Sound) {action : ThreadAction}
    (taken : Aio4c.ownerStep system action = some after) : after.Sound := by
  cases action with
  | threadStart => exact sound.threadStart taken
  | create created => exact sound.create taken
  | addThread => exact sound.addThread taken
  | test => exact sound.test taken
  | wake => exact sound.wake taken
  | threadStop => exact sound.threadStop taken
  | threadJoin => exact sound.threadJoin taken
  | read => exact sound.read taken
  | join => exact sound.join taken
  | free => exact sound.free taken
  | enter | take | callback | initReturns | loop | runReturns | relock | assign | exitReturns
  | setExited | leave => cases taken

theorem selfStep (sound : system.Sound) {action : ThreadAction}
    (allowed : ThreadAllowed debug system action)
    (taken : Aio4c.selfStep debug system action = some after) : after.Sound := by
  cases action with
  | enter => exact sound.enter taken
  | take => exact sound.take taken
  | callback state => exact sound.callback allowed taken
  | initReturns run => exact sound.initReturns allowed taken
  | loop => exact sound.loop taken
  | runReturns run => exact sound.runReturns allowed taken
  | relock => exact sound.relock allowed taken
  | assign => exact sound.assign taken
  | exitReturns => exact sound.exitReturns taken
  | setExited => exact sound.setExited taken
  | leave => exact sound.leave taken
  | threadStart | create | addThread | test | wake | threadStop | threadJoin | read | join
  | free => cases taken

theorem step (sound : system.Sound) {action : ThreadAction} (allowed : ThreadAllowed debug system action)
    (taken : ThreadStep debug system action after) : after.Sound := by
  unfold ThreadStep threadStep at taken
  cases owned : Aio4c.ownerStep system action with
  | some reached =>
      rw [owned] at taken
      cases taken
      exact sound.ownerStep owned
  | none =>
      rw [owned] at taken
      exact sound.selfStep allowed taken

theorem freedLate (sound : system.Sound) : system.FreedLate := by
  intro freed
  exact sound.finished (.inr (sound.freed freed))

end ThreadSystem.Sound

/-- In every run of a thread and its owner whose steps the code can rely on,
`FreeThread` comes behind the last access of the thread. -/
theorem newThread_freed_late {debug : Bool} {actions : List ThreadAction}
    {system : ThreadSystem}
    (run : Run (Guarded (ThreadAllowed debug) (ThreadStep debug)) newThread actions system) :
    system.FreedLate := by
  have sound : system.Sound := by
    apply run.keeps
    · intro before action after holds taken
      exact holds.step taken.1 taken.2
    · exact newThread_sound
  exact sound.freedLate

/-- A thread that is stopped while it waits for its lock behind the run callback, and that
`ThreadJoin` finds RUNNING, or BLOCKED with AIO4C_DEBUG_THREADS. -/
def stoppedThread (debug : Bool) : List ThreadAction :=
  [.threadStart, .create true, .enter, .addThread, .test, .take] ++
    (if debug then [.callback .running] else []) ++
    [.initReturns true, .loop, .wake, .test, .runReturns true, .threadStop, .threadJoin, .read] ++
    (if debug then [.read, .read] else []) ++
    [.relock, .loop, .exitReturns, .setExited, .leave, .join, .free]

theorem newThread_freed_late_stopped :
    (∃ system, execute (threadStep false) newThread (stoppedThread false) = some system ∧
      system.FreedLate) ∧
    ∃ system, execute (threadStep true) newThread (stoppedThread true) = some system ∧
      system.FreedLate := by
  constructor
  · obtain ⟨system, runs, run⟩ := exists_run_of_execute
      (Guarded (ThreadAllowed false) (ThreadStep false))
      (guardedNext (ThreadAllowed false) (threadStep false)) newThread (stoppedThread false)
      (fun _ _ _ taken => guardedNext_sound taken) (by decide)
    have same : execute (threadStep false) newThread (stoppedThread false) =
        execute (guardedNext (ThreadAllowed false) (threadStep false)) newThread
          (stoppedThread false) := by decide
    exact ⟨system, same.trans runs, newThread_freed_late run⟩
  · obtain ⟨system, runs, run⟩ := exists_run_of_execute
      (Guarded (ThreadAllowed true) (ThreadStep true))
      (guardedNext (ThreadAllowed true) (threadStep true)) newThread (stoppedThread true)
      (fun _ _ _ taken => guardedNext_sound taken) (by decide)
    have same : execute (threadStep true) newThread (stoppedThread true) =
        execute (guardedNext (ThreadAllowed true) (threadStep true)) newThread
          (stoppedThread true) := by decide
    exact ⟨system, same.trans runs, newThread_freed_late run⟩

/-- In the default build it is enough that the init callback does not return false. -/
theorem newThread_default_freed_late {actions : List ThreadAction} {system : ThreadSystem}
    (run : Run (ThreadStep false) newThread actions system)
    (inits : ∀ action ∈ actions, action ≠ .initReturns false) : system.FreedLate := by
  have sound : system.Sound := by
    apply run.keeps_allowed inits
    · intro before action after inits sound taken
      exact sound.step (threadAllowed_default inits) taken
    · exact newThread_sound
  exact sound.freedLate

/-- In the default build every thread whose init callback returns false is in state NONE and
not running when `ThreadStart` returns, so that `ThreadJoin` does not wait, and the
structure is freed during the exit callback. -/
theorem newThread_freed_early :
    ¬ ∀ (actions : List ThreadAction) (system : ThreadSystem),
      Run (ThreadStep false) newThread actions system → system.FreedLate := by
  intro always
  obtain ⟨system, runs, run⟩ := exists_run_of_execute (ThreadStep false) (threadStep false)
    newThread
    [.threadStart, .create true, .addThread, .test, .enter, .take, .initReturns false, .loop,
      .wake, .test, .threadJoin, .read, .read, .read, .read, .read, .free]
    (fun _ _ _ taken => taken) (by decide)
  have final : (execute (threadStep false) newThread
      [.threadStart, .create true, .addThread, .test, .enter, .take, .initReturns false, .loop,
        .wake, .test, .threadJoin, .read, .read, .read, .read, .read, .free]).map
          (fun system => (system.freed, system.self)) = some (true, .exiting) := by decide
  rw [runs, Option.map_some, Option.some.injEq, Prod.mk.injEq] at final
  have late := always _ system run final.1
  rw [final.2] at late
  simp at late

end Aio4c
