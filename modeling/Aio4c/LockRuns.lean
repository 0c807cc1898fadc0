import Aio4c.LockBalance

/-! Any calls by one thread on any number of selectors and queues. As long as each
`SelectionKeyReady` finds a busy key no call meets a lock that was left behind. -/

set_option autoImplicit false

namespace Aio4c

open CriticalSection TransitionSystem

/-- The selectors and queues, each with its lock. -/
structure LockedObjects where
  selectors : Nat → Protected Selector
  queues : Nat → Protected Queue

variable {σ : Type}

/-- A call with the outcomes of the system and of the allocator in it. -/
inductive LockedCall (σ : Type) where
  | register (selector : Nat) (operation : Int16) (fd : Int) (attachment : Nat)
      (granted reallocated : Bool)
  | unregister (selector key : Nat) (unregisterAll : Bool)
  | select (selector : Nat) (outcomes : List PollOutcome)
  | ready (selector : Nat) (repoll : Repoll)
  | enqueue (queue : Nat) (null : Bool) (item : QueueItem) (granted : Bool)
  | dequeue (queue : Nat) (item : QueueItem) (wait : Bool) (rounds : List (Bool × Queue))
  | removeAll (queue : Nat) (removeCallback : QueueItem → σ → Bool × σ) (state : σ)

namespace LockedObjects

def onSelector {α : Type} (objects : LockedObjects) (selector : Nat) (call : Locking Selector α) :
    Except Stop LockedObjects :=
  (call (objects.selectors selector)).map fun (_, after) =>
    { objects with selectors := Function.update objects.selectors selector after }

def onQueue {α : Type} (objects : LockedObjects) (queue : Nat) (call : Locking Queue α) :
    Except Stop LockedObjects :=
  (call (objects.queues queue)).map fun (_, after) =>
    { objects with queues := Function.update objects.queues queue after }

def Free (objects : LockedObjects) : Prop :=
  (∀ selector, (objects.selectors selector).locked = false) ∧
    ∀ queue, (objects.queues queue).locked = false

end LockedObjects

def lockedCall (objects : LockedObjects) : LockedCall σ → Except Stop LockedObjects
  | .register selector operation fd attachment granted reallocated =>
      objects.onSelector selector (lockedRegister operation fd attachment granted reallocated)
  | .unregister selector key unregisterAll =>
      objects.onSelector selector (lockedUnregister key unregisterAll)
  | .select selector outcomes => objects.onSelector selector (lockedSelect outcomes)
  | .ready selector repoll => objects.onSelector selector (lockedSelectionKeyReady repoll)
  | .enqueue queue null item granted => objects.onQueue queue (lockedEnqueue null item granted)
  | .dequeue queue item wait rounds => objects.onQueue queue (lockedDequeue item wait rounds)
  | .removeAll queue removeCallback state =>
      objects.onQueue queue (lockedRemoveAll removeCallback state)

def LockedStep (before : LockedObjects) (call : LockedCall σ) (after : LockedObjects) : Prop :=
  lockedCall before call = .ok after

/-- A `SelectionKeyReady` has a busy key to look at, or stays at `curKey`. -/
def FindsKey (objects : LockedObjects) : LockedCall σ → Prop
  | .ready selector repoll => ReadyReleases (objects.selectors selector).state repoll
  | _ => True

instance (objects : LockedObjects) : (call : LockedCall σ) → Decidable (FindsKey objects call)
  | .ready selector repoll =>
      inferInstanceAs (Decidable (ReadyReleases (objects.selectors selector).state repoll))
  | .register _ _ _ _ _ _ | .unregister _ _ _ | .select _ _ | .enqueue _ _ _ _
  | .dequeue _ _ _ _ | .removeAll _ _ _ => isTrue trivial

namespace LockedObjects

variable {α : Type} {objects : LockedObjects}

theorem onSelector_completes (free : objects.Free) {selector : Nat}
    {call : Locking Selector α} {expected : Option (α × Selector)} {locked : Bool}
    (completes : Completes
      (call { state := (objects.selectors selector).state, locked := false }) expected locked) :
    objects.onSelector selector call ≠ .error .blocked ∧
      ∀ after, objects.onSelector selector call = .ok after → (after.Free ↔ locked = false) := by
  have start : objects.selectors selector =
      { state := (objects.selectors selector).state, locked := false } := by
    rw [← free.1 selector]
  rw [← start] at completes
  unfold onSelector
  cases result : call (objects.selectors selector) with
  | error reason =>
      rw [result] at completes
      refine ⟨?_, by simp [Except.map]⟩
      intro same
      cases same
      exact completes.not_blocked rfl
  | ok outcome =>
      have final := completes.locked_eq result
      refine ⟨by simp [Except.map], fun after same => ?_⟩
      cases same
      constructor
      · intro free'
        rw [← final]
        simpa using free'.1 selector
      · intro unlocked
        refine ⟨fun other => ?_, free.2⟩
        by_cases here : other = selector
        · subst here
          simpa using final.trans unlocked
        · simpa [Function.update_of_ne here] using free.1 other

theorem onQueue_completes (free : objects.Free) {queue : Nat} {call : Locking Queue α}
    {expected : Option (α × Queue)}
    (completes : Completes
      (call { state := (objects.queues queue).state, locked := false }) expected false) :
    objects.onQueue queue call ≠ .error .blocked ∧
      ∀ after, objects.onQueue queue call = .ok after → after.Free := by
  have start : objects.queues queue =
      { state := (objects.queues queue).state, locked := false } := by
    rw [← free.2 queue]
  rw [← start] at completes
  unfold onQueue
  cases result : call (objects.queues queue) with
  | error reason =>
      rw [result] at completes
      refine ⟨?_, by simp [Except.map]⟩
      intro same
      cases same
      exact completes.not_blocked rfl
  | ok outcome =>
      have final := completes.locked_eq result
      refine ⟨by simp [Except.map], fun after same => ?_⟩
      cases same
      refine ⟨free.1, fun other => ?_⟩
      by_cases here : other = queue
      · subst here
        simpa using final
      · simpa [Function.update_of_ne here] using free.2 other

end LockedObjects

/-- With all locks free no call blocks, and one that returns leaves them free exactly if a
`SelectionKeyReady` found a key. -/
theorem lockedCall_free {objects : LockedObjects} (free : objects.Free) (call : LockedCall σ) :
    lockedCall objects call ≠ .error .blocked ∧
      ∀ after, lockedCall objects call = .ok after → (after.Free ↔ FindsKey objects call) := by
  have queues {α : Type} {queue : Nat} {call : Locking Queue α}
      {expected : Option (α × Queue)}
      (completes : Completes
        (call { state := (objects.queues queue).state, locked := false }) expected false) :
      objects.onQueue queue call ≠ .error .blocked ∧
        ∀ after, objects.onQueue queue call = .ok after → (after.Free ↔ True) := by
    obtain ⟨unblocked, leaves⟩ := objects.onQueue_completes free completes
    exact ⟨unblocked, fun after same => iff_true_intro (leaves after same)⟩
  have selectors {α : Type} {selector : Nat} {call : Locking Selector α}
      {expected : Option (α × Selector)}
      (completes : Completes
        (call { state := (objects.selectors selector).state, locked := false }) expected false) :
      objects.onSelector selector call ≠ .error .blocked ∧
        ∀ after, objects.onSelector selector call = .ok after → (after.Free ↔ True) := by
    obtain ⟨unblocked, leaves⟩ := objects.onSelector_completes free completes
    exact ⟨unblocked, fun after same => (leaves after same).trans (iff_true_intro rfl)⟩
  cases call with
  | register selector operation fd attachment granted reallocated =>
      exact selectors (lockedRegister_completes _ operation fd attachment granted reallocated)
  | unregister selector key unregisterAll =>
      exact selectors (lockedUnregister_completes _ key unregisterAll)
  | select selector outcomes =>
      obtain ⟨outcome, completes⟩ :=
        lockedSelect_completes (objects.selectors selector).state outcomes
      exact selectors completes
  | ready selector repoll =>
      obtain ⟨unblocked, leaves⟩ := objects.onSelector_completes free
        (lockedSelectionKeyReady_completes (objects.selectors selector).state repoll)
      refine ⟨unblocked, fun after same => (leaves after same).trans ?_⟩
      simp [FindsKey]
  | enqueue queue null item granted => exact queues (lockedEnqueue_completes _ null item granted)
  | dequeue queue item wait rounds => exact queues (lockedDequeue_completes _ item wait rounds)
  | removeAll queue removeCallback state =>
      exact queues (lockedRemoveAll_completes _ removeCallback state)

/-- From free locks, in every run whose `SelectionKeyReady` calls find a key, all locks are
free at the end and no next call blocks; a next one leaves them free exactly if it finds a
key. -/
theorem lockedCalls_balanced {objects : LockedObjects} (free : objects.Free)
    {calls : List (LockedCall σ)} {state : LockedObjects}
    (run : Run (Guarded FindsKey LockedStep) objects calls state) :
    state.Free ∧ ∀ call : LockedCall σ, lockedCall state call ≠ .error .blocked ∧
      ∀ after, lockedCall state call = .ok after → (after.Free ↔ FindsKey state call) := by
  have kept : state.Free := by
    apply run.keeps
    · intro before call after free taken
      exact ((lockedCall_free free call).2 after taken.2).mpr taken.1
    · exact free
  exact ⟨kept, lockedCall_free kept⟩

/-- New selectors and queues. -/
def newObjects : LockedObjects :=
  { selectors := fun _ => { state := newSelector 3, locked := false }
    queues := fun _ => { state := newQueue, locked := false } }

theorem newObjects_free : newObjects.Free := ⟨fun _ => rfl, fun _ => rfl⟩

/-- A pass over one ready key, with an interrupted `poll`, a table that could not grow and
a queue that is emptied. -/
def wholePass : List (LockedCall Unit) :=
  [.register 0 opRead 5 0 true true, .register 0 opRead 6 0 true false,
    .select 0 [.interrupted, .ready 1 fun i => if i = 1 then opRead else 0], .ready 0 .error,
    .enqueue 1 false (.data 7) true, .dequeue 1 .undefined true [], .dequeue 1 .undefined true []]

theorem lockedCalls_balanced_along_pass :
    ∃ state, Run (Guarded FindsKey LockedStep) newObjects wholePass state ∧
      (state.selectors 0).state.curKey = some 0 ∧
      state.Free ∧ ∀ call : LockedCall Unit, lockedCall state call ≠ .error .blocked ∧
        ∀ after, lockedCall state call = .ok after → (after.Free ↔ FindsKey state call) := by
  obtain ⟨state, reached, run⟩ := exists_run_of_execute (Guarded FindsKey LockedStep)
    (guardedNext FindsKey fun objects call => (lockedCall objects call).toOption) newObjects
    wholePass (fun before call after taken => by
      obtain ⟨finds, result⟩ := guardedNext_sound taken
      refine ⟨finds, ?_⟩
      cases returned : lockedCall before call with
      | error reason => simp [returned, Except.toOption] at result
      | ok final =>
          have same : final = after := by simpa [returned, Except.toOption] using result
          exact same ▸ returned)
    (by decide +kernel)
  have delivered : (execute (guardedNext FindsKey fun objects call =>
      (lockedCall objects call).toOption) newObjects wholePass).map (fun state =>
        (state.selectors 0).state.curKey) = some (some 0) := by decide +kernel
  rw [reached, Option.map_some, Option.some.injEq] at delivered
  exact ⟨state, run, delivered, lockedCalls_balanced newObjects_free run⟩

/-- With no busy key `SelectionKeyReady` returns false and keeps the lock, and the next
call blocks. -/
theorem lockedCalls_left_behind :
    (¬ ∀ (objects : LockedObjects) (call : LockedCall Unit) (after : LockedObjects),
      objects.Free → lockedCall objects call = .ok after → after.Free) ∧
    ¬ ∀ (objects : LockedObjects) (calls : List (LockedCall Unit)) (state : LockedObjects),
      objects.Free → Run LockedStep objects calls state →
      ∀ call : LockedCall Unit, lockedCall state call ≠ .error .blocked := by
  obtain ⟨after, returned, blocks, held⟩ : ∃ after,
      lockedCall newObjects (.ready 0 .error : LockedCall Unit) = .ok after ∧
        lockedCall after (.select 0 [] : LockedCall Unit) = .error .blocked ∧
        (after.selectors 0).locked = true := ⟨_, rfl, rfl, rfl⟩
  constructor
  · intro balanced
    have free := (balanced newObjects (.ready 0 .error) after newObjects_free returned).1 0
    rw [held] at free
    cases free
  · intro unblocked
    exact unblocked newObjects [.ready 0 .error] after newObjects_free
      (.cons returned (.nil after)) (.select 0 []) blocks

end Aio4c
