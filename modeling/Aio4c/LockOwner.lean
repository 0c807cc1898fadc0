import Aio4c.ThreadSelf

/-! The owner that a lock notes, for the errors that print it. It is written under the mutex, but
with what `ThreadSelf` gave before, which is NULL in a build without AIO4C_DEBUG_THREADS. -/

set_option autoImplicit false

namespace Aio4c

open TransitionSystem

/-- Where a caller is in `_TakeLock`, `_ReleaseLock` or `_WaitCondition`; `current` is what
`ThreadSelf` gave it at the start of the call. An `unnoted` caller has the mutex behind a
wait that failed, with the record cleared. -/
inductive LockPoint where
  | outside
  | taking (current : Option Nat)
  | taken (current : Option Nat)
  | holding
  | releasing
  | waiting (current : Option Nat)
  | asleep (current : Option Nat)
  | unnoted
  deriving DecidableEq, Repr

namespace LockPoint

def current : LockPoint → Option Nat
  | .taking current | .taken current | .waiting current | .asleep current => current
  | .outside | .holding | .releasing | .unnoted => none

/-- The caller has the mutex. -/
def holds : LockPoint → Bool
  | .taken _ | .holding | .releasing | .waiting _ | .unnoted => true
  | .outside | .taking _ | .asleep _ => false

theorem ne_holding {point : LockPoint} (outside : point.holds = false) : point ≠ .holding := by
  rintro rfl
  cases outside

end LockPoint

/-- `Lock`, with the caller that has its mutex, and all callers. -/
structure OwnedLock where
  ids : ThreadIds
  mutex : Option Nat
  owner : Option Nat
  locked : Bool
  points : Nat → LockPoint

inductive OwnedLockAction where
  | thread (call : PthreadCall)
  | takeLock (caller : Nat)
  | mutexLock (caller : Nat)
  | mutexLockFails (caller : Nat)
  | locked (caller : Nat)
  | releaseLock (caller : Nat)
  | mutexUnlock (caller : Nat)
  | waitCondition (caller : Nat)
  | condWait (caller : Nat)
  | condWaitFails (caller : Nat)
  | woken (caller : Nat)
  deriving DecidableEq, Repr

/-- The caller whose last call this is. -/
def PthreadCall.ends (ids : ThreadIds) : PthreadCall → Option Nat
  | .cleanup thread => some (ids.id thread)
  | .threadJoin thread joined => if joined then some (ids.id thread) else none
  | .foreignEnd id => some id
  | .newThread _ _ | .pthreadCreate _ _ _ | .addThread _ | .cleanupStray _ | .foreignStart _ => none

/-- The macro `ThreadSelf`. -/
def threadSelfMacro (debug : Bool) (ids : ThreadIds) (caller : Nat) : Option Nat :=
  if debug then threadSelf ids caller else none

namespace OwnedLock

def goes (lock : OwnedLock) (caller : Nat) (point : LockPoint) : OwnedLock :=
  { lock with points := Function.update lock.points caller point }

end OwnedLock

/-- One step; `debug` says whether the library was built with AIO4C_DEBUG_THREADS. A thread
clears its entry behind all its calls, and nobody takes a lock twice. -/
def ownedLockStep (debug : Bool) (lock : OwnedLock) : OwnedLockAction → Option OwnedLock
  | .thread call =>
      if ∀ caller, call.ends lock.ids = some caller → lock.points caller = .outside then
        (pthreadCall lock.ids call).map fun ids => { lock with ids }
      else none
  | .takeLock caller =>
      if lock.points caller = .outside ∧ ¬ lock.ids.Unused caller then
        some (lock.goes caller (.taking (threadSelfMacro debug lock.ids caller)))
      else none
  | .mutexLock caller =>
      match lock.points caller, lock.mutex with
      | .taking current, none =>
          some { lock.goes caller (.taken current) with mutex := some caller }
      | _, _ => none
  | .mutexLockFails caller =>
      match lock.points caller with
      | .taking _ => some (lock.goes caller .outside)
      | _ => none
  | .locked caller =>
      match lock.points caller with
      | .taken current =>
          some { lock.goes caller .holding with owner := current, locked := true }
      | _ => none
  | .releaseLock caller =>
      match lock.points caller with
      | .holding | .unnoted =>
          some { lock.goes caller .releasing with owner := none, locked := false }
      | _ => none
  | .mutexUnlock caller =>
      match lock.points caller with
      | .releasing => some { lock.goes caller .outside with mutex := none }
      | _ => none
  | .waitCondition caller =>
      match lock.points caller with
      | .holding | .unnoted =>
          some { lock.goes caller (.waiting (threadSelfMacro debug lock.ids caller)) with
            owner := none, locked := false }
      | _ => none
  | .condWait caller =>
      match lock.points caller with
      | .waiting current => some { lock.goes caller (.asleep current) with mutex := none }
      | _ => none
  | .condWaitFails caller =>
      match lock.points caller with
      | .waiting _ => some (lock.goes caller .unnoted)
      | _ => none
  | .woken caller =>
      match lock.points caller, lock.mutex with
      | .asleep current, none =>
          some { lock.goes caller (.taken current) with mutex := some caller }
      | _, _ => none

def OwnedLockStep (debug : Bool) (before : OwnedLock) (action : OwnedLockAction)
    (after : OwnedLock) : Prop :=
  ownedLockStep debug before action = some after

/-- Nothing but the calls on threads is restricted. -/
def OwnedLockAllowed (lock : OwnedLock) : OwnedLockAction → Prop
  | .thread call => PthreadAllowed lock.ids call
  | _ => True

instance (lock : OwnedLock) : (action : OwnedLockAction) → Decidable (OwnedLockAllowed lock action)
  | .thread call => inferInstanceAs (Decidable (PthreadAllowed lock.ids call))
  | .takeLock _ | .mutexLock _ | .mutexLockFails _ | .locked _ | .releaseLock _
  | .mutexUnlock _ | .waitCondition _ | .condWait _ | .condWaitFails _ | .woken _ => isTrue trivial

/-- The mutex is that of the callers inside, a caller was found by its own id, and the record is
that of a caller which holds the lock. -/
structure OwnedLock.Noted (lock : OwnedLock) : Prop where
  known : lock.ids.Known
  holds : ∀ caller, (lock.points caller).holds = true ↔ lock.mutex = some caller
  current : ∀ caller thread, (lock.points caller).current = some thread →
    (lock.ids.table.phase thread).Unfinished ∧ lock.ids.id thread = caller
  locked : lock.locked = true ↔ ∃ caller, lock.points caller = .holding
  owner : ∀ thread, lock.owner = some thread →
    (lock.ids.table.phase thread).Unfinished ∧ lock.points (lock.ids.id thread) = .holding

/-- A thread that goes on keeps its id, whatever is started, ended and joined meanwhile. -/
theorem PthreadCallStep.keeps {ids after : ThreadIds} {call : PthreadCall} {thread : Nat}
    (taken : PthreadCallStep ids call after) (allowed : PthreadAllowed ids call)
    (unfinished : (ids.table.phase thread).Unfinished)
    (goesOn : call.ends ids ≠ some (ids.id thread)) :
    (after.table.phase thread).Unfinished ∧ after.id thread = ids.id thread := by
  have finished : ∀ {other : Nat}, ¬ (ids.table.phase other).Unfinished → thread ≠ other := by
    rintro other ended rfl
    exact ended unfinished
  unfold PthreadCallStep at taken
  cases call with
  | newThread other allocated =>
      obtain ⟨table, called, rfl⟩ := Option.map_eq_some_iff.mp taken
      refine ⟨?_, rfl⟩
      rcases newThread_either called with rfl | ⟨free, rfl⟩
      · exact unfinished
      · have differs := finished (show ¬ (ids.table.phase other).Unfinished by
          simp [free, ThreadPhase.Unfinished])
        simp only [ThreadTable.setPhase, Function.update_of_ne differs]
        exact unfinished
  | pthreadCreate other id created =>
      simp only [pthreadCall] at taken
      split_ifs at taken with fresh granted unused
      all_goals
        cases taken
        exact ⟨unfinished, Function.update_of_ne (finished (ThreadPhase.finished fresh.1)) _ _⟩
  | addThread other =>
      simp only [pthreadCall, Option.ite_none_right_eq_some] at taken
      obtain ⟨_, taken⟩ := taken
      obtain ⟨table, called, rfl⟩ := Option.map_eq_some_iff.mp taken
      simp only [threadCall, if_true, Option.ite_none_right_eq_some, Option.some.injEq] at called
      obtain ⟨fresh, rfl⟩ := called
      refine ⟨?_, rfl⟩
      simp only [ThreadTable.setPhase,
        Function.update_of_ne (finished (ThreadPhase.finished fresh))]
      exact unfinished
  | cleanup other =>
      obtain ⟨table, called, rfl⟩ := Option.map_eq_some_iff.mp taken
      simp only [threadCall, Option.ite_none_right_eq_some, Option.some.injEq] at called
      obtain ⟨_, rfl⟩ := called
      have differs : thread ≠ other := by
        rintro rfl
        exact goesOn rfl
      refine ⟨?_, rfl⟩
      simp only [ThreadTable.setPhase, Function.update_of_ne differs]
      exact unfinished
  | cleanupStray other =>
      obtain ⟨table, called, rfl⟩ := Option.map_eq_some_iff.mp taken
      simp only [threadCall, Option.ite_none_right_eq_some, Option.some.injEq] at called
      obtain ⟨_, rfl⟩ := called
      exact ⟨unfinished, rfl⟩
  | threadJoin other joined =>
      simp only [pthreadCall, Option.ite_none_right_eq_some] at taken
      obtain ⟨_, taken⟩ := taken
      obtain ⟨table, called, rfl⟩ := Option.map_eq_some_iff.mp taken
      obtain ⟨fresh, rfl⟩ := threadJoin_frees allowed called
      refine ⟨?_, rfl⟩
      simp only [ThreadTable.setPhase,
        Function.update_of_ne (finished (ThreadPhase.finished fresh))]
      exact unfinished
  | foreignStart id =>
      simp only [pthreadCall, Option.ite_none_right_eq_some, Option.some.injEq] at taken
      obtain ⟨_, rfl⟩ := taken
      exact ⟨unfinished, rfl⟩
  | foreignEnd id =>
      cases taken
      exact ⟨unfinished, rfl⟩

namespace OwnedLock.Noted

variable {lock after : OwnedLock} {caller : Nat} {point : LockPoint}

/-- Who is inside holds the mutex alone. -/
theorem alone (noted : lock.Noted) (inside : (lock.points caller).holds = true) {other : Nat}
    (differs : other ≠ caller) : (lock.points other).holds = false := by
  apply eq_false_of_ne_true
  intro also
  have first := (noted.holds caller).mp inside
  have second := (noted.holds other).mp also
  exact differs (Option.some.inj (second.symm.trans first))

/-- A step outside the mutex. -/
theorem aside (noted : lock.Noted) (outside : (lock.points caller).holds = false)
    (still : point.holds = false)
    (current : ∀ thread, point.current = some thread →
      (lock.ids.table.phase thread).Unfinished ∧ lock.ids.id thread = caller) :
    (lock.goes caller point).Noted := by
  have apart : ∀ {other : Nat}, lock.points other = .holding → other ≠ caller := by
    rintro other holding rfl
    rw [holding] at outside
    cases outside
  refine { known := noted.known, holds := fun other => ?_, current := fun other thread => ?_
           locked := ?_, owner := fun thread owner => ?_ }
  · by_cases same : other = caller
    · subst same
      simp only [OwnedLock.goes, Function.update_self]
      refine iff_of_false (ne_true_of_eq_false still) fun held => ?_
      rw [(noted.holds other).mpr held] at outside
      cases outside
    · simp only [OwnedLock.goes, Function.update_of_ne same]
      exact noted.holds other
  · by_cases same : other = caller
    · subst same
      simp only [OwnedLock.goes, Function.update_self]
      exact current thread
    · simp only [OwnedLock.goes, Function.update_of_ne same]
      exact noted.current other thread
  · rw [show (lock.goes caller point).locked = lock.locked from rfl, noted.locked]
    constructor
    · rintro ⟨other, holding⟩
      exact ⟨other, (Function.update_of_ne (apart holding) _ _).trans holding⟩
    · rintro ⟨other, holding⟩
      by_cases same : other = caller
      · subst same
        simp only [OwnedLock.goes, Function.update_self] at holding
        subst holding
        cases still
      · simp only [OwnedLock.goes, Function.update_of_ne same] at holding
        exact ⟨other, holding⟩
  · obtain ⟨unfinished, holding⟩ := noted.owner thread owner
    exact ⟨unfinished, (Function.update_of_ne (apart holding) _ _).trans holding⟩

/-- A step of the caller that has the mutex, takes it or gives it back. -/
theorem inside (noted : lock.Noted) {mutex owner : Option Nat} {locked : Bool}
    (others : ∀ other, other ≠ caller → (lock.points other).holds = false)
    (only : mutex = if point.holds then some caller else none)
    (current : ∀ thread, point.current = some thread →
      (lock.ids.table.phase thread).Unfinished ∧ lock.ids.id thread = caller)
    (held : locked = true ↔ point = .holding)
    (owned : ∀ thread, owner = some thread → point = .holding ∧
      (lock.ids.table.phase thread).Unfinished ∧ lock.ids.id thread = caller) :
    OwnedLock.Noted { lock.goes caller point with mutex, owner, locked } := by
  have apart : ∀ {other : Nat}, lock.points other = .holding → other = caller := by
    intro other holding
    by_contra differs
    have outside := others other differs
    rw [holding] at outside
    cases outside
  refine { known := noted.known, holds := fun other => ?_, current := fun other thread => ?_
           locked := ?_, owner := fun thread owner => ?_ }
  · by_cases same : other = caller
    · subst same
      simp only [OwnedLock.goes, Function.update_self, only]
      cases point.holds <;> simp
    · simp only [OwnedLock.goes, Function.update_of_ne same, others other same, only]
      refine iff_of_false Bool.false_ne_true ?_
      cases point.holds
      · simp
      · simpa using Ne.symm same
  · by_cases same : other = caller
    · subst same
      simp only [OwnedLock.goes, Function.update_self]
      exact current thread
    · simp only [OwnedLock.goes, Function.update_of_ne same]
      exact noted.current other thread
  · simp only [held, OwnedLock.goes]
    constructor
    · intro holding
      exact ⟨caller, (Function.update_self _ _ _).trans holding⟩
    · rintro ⟨other, holding⟩
      by_cases same : other = caller
      · subst same
        rwa [Function.update_self] at holding
      · rw [Function.update_of_ne same] at holding
        exact absurd (apart holding) same
  · obtain ⟨holding, unfinished, same⟩ := owned thread owner
    refine ⟨unfinished, ?_⟩
    simp only [OwnedLock.goes, same, Function.update_self]
    exact holding

/-- A record that no caller has written. -/
theorem unnoted (noted : lock.Noted) (nobody : ∀ other, lock.points other ≠ .holding) :
    lock.owner = none ∧ lock.locked = false := by
  constructor
  · cases owner : lock.owner with
    | none => rfl
    | some thread => exact absurd (noted.owner thread owner).2 (nobody _)
  · apply eq_false_of_ne_true
    intro locked
    obtain ⟨other, holding⟩ := noted.locked.mp locked
    exact nobody other holding

theorem free (noted : lock.Noted) (unlocked : lock.mutex = none) (other : Nat) :
    (lock.points other).holds = false := by
  apply eq_false_of_ne_true
  intro held
  rw [(noted.holds other).mp held] at unlocked
  cases unlocked

/-- A caller takes the mutex, which nobody has. -/
theorem enters (noted : lock.Noted) (unlocked : lock.mutex = none) {current : Option Nat}
    (found : (lock.points caller).current = current) :
    OwnedLock.Noted { lock.goes caller (.taken current) with mutex := some caller } := by
  have outside := noted.free unlocked
  obtain ⟨owner, locked⟩ := noted.unnoted fun other => LockPoint.ne_holding (outside other)
  refine noted.inside (fun other _ => outside other) rfl ?_ ?_ ?_
  · intro thread same
    exact noted.current caller thread (found.trans same)
  · simp [OwnedLock.goes, locked]
  · intro thread same
    rw [show (lock.goes caller (.taken current)).owner = lock.owner from rfl, owner] at same
    cases same

/-- A caller that has cleared the record gives the mutex back. -/
theorem leaves (noted : lock.Noted) (inside : (lock.points caller).holds = true)
    (cleared : lock.points caller ≠ .holding) (outside : point.holds = false)
    (kept : point.current = none ∨ point.current = (lock.points caller).current) :
    OwnedLock.Noted { lock.goes caller point with mutex := none } := by
  have nobody : ∀ other, lock.points other ≠ .holding := by
    intro other
    by_cases same : other = caller
    · exact same ▸ cleared
    · exact LockPoint.ne_holding (noted.alone inside same)
  obtain ⟨owner, locked⟩ := noted.unnoted nobody
  refine noted.inside (fun _ => noted.alone inside) ?_ ?_ ?_ ?_
  · rw [outside]
    rfl
  · intro thread same
    rcases kept with none | kept
    · rw [none] at same
      cases same
    · exact noted.current caller thread (kept ▸ same)
  · simp [OwnedLock.goes, locked, LockPoint.ne_holding outside]
  · intro thread same
    rw [show (lock.goes caller point).owner = lock.owner from rfl, owner] at same
    cases same

theorem thread (noted : lock.Noted) {call : PthreadCall} {ids : ThreadIds}
    (idle : ∀ caller, call.ends lock.ids = some caller → lock.points caller = .outside)
    (allowed : PthreadAllowed lock.ids call) (taken : PthreadCallStep lock.ids call ids) :
    OwnedLock.Noted { lock with ids } := by
  refine { known := noted.known.step allowed taken, holds := noted.holds, current := ?_
           locked := noted.locked, owner := ?_ }
  · intro caller thread current
    obtain ⟨unfinished, same⟩ := noted.current caller thread current
    have goesOn : call.ends lock.ids ≠ some (lock.ids.id thread) := by
      intro ends
      rw [same] at ends
      rw [idle caller ends] at current
      cases current
    obtain ⟨still, kept⟩ := taken.keeps allowed unfinished goesOn
    exact ⟨still, kept.trans same⟩
  · intro thread owner
    obtain ⟨unfinished, holding⟩ := noted.owner thread owner
    have goesOn : call.ends lock.ids ≠ some (lock.ids.id thread) := by
      intro ends
      rw [idle _ ends] at holding
      cases holding
    obtain ⟨still, kept⟩ := taken.keeps allowed unfinished goesOn
    exact ⟨still, (congrArg lock.points kept).trans holding⟩

theorem threadSelfMacro_some (noted : lock.Noted) {debug : Bool} {thread : Nat}
    (found : threadSelfMacro debug lock.ids caller = some thread) :
    (lock.ids.table.phase thread).Unfinished ∧ lock.ids.id thread = caller := by
  simp only [threadSelfMacro, Option.ite_none_right_eq_some] at found
  exact noted.known.threadSelf_some found.2

/-- A caller that has the mutex clears the record. -/
theorem clears (noted : lock.Noted) (inside : (lock.points caller).holds = true)
    (still : point.holds = true) (cleared : point ≠ .holding)
    (current : ∀ thread, point.current = some thread →
      (lock.ids.table.phase thread).Unfinished ∧ lock.ids.id thread = caller) :
    OwnedLock.Noted { lock.goes caller point with owner := none, locked := false } := by
  refine noted.inside (fun _ => noted.alone inside) ?_ current (by simp [cleared])
    fun _ found => nomatch found
  rw [still]
  exact (noted.holds caller).mp inside

theorem step (noted : lock.Noted) {debug : Bool} {action : OwnedLockAction}
    (allowed : OwnedLockAllowed lock action) (taken : OwnedLockStep debug lock action after) :
    after.Noted := by
  unfold OwnedLockStep at taken
  cases action with
  | thread call =>
      simp only [ownedLockStep, Option.ite_none_right_eq_some] at taken
      obtain ⟨idle, taken⟩ := taken
      obtain ⟨ids, called, rfl⟩ := Option.map_eq_some_iff.mp taken
      exact noted.thread idle allowed called
  | takeLock caller =>
      simp only [ownedLockStep, Option.ite_none_right_eq_some, Option.some.injEq] at taken
      obtain ⟨⟨outside, _⟩, rfl⟩ := taken
      exact noted.aside (by rw [outside]; rfl) rfl fun thread found =>
        noted.threadSelfMacro_some found
  | mutexLock caller =>
      simp only [ownedLockStep] at taken
      split at taken <;> cases taken
      next current point unlocked => exact noted.enters unlocked (by rw [point]; rfl)
  | mutexLockFails caller =>
      simp only [ownedLockStep] at taken
      split at taken <;> cases taken
      next current point =>
        exact noted.aside (by rw [point]; rfl) rfl fun _ found => nomatch found
  | locked caller =>
      simp only [ownedLockStep] at taken
      split at taken <;> cases taken
      next current point =>
        have inside : (lock.points caller).holds = true := by rw [point]; rfl
        refine noted.inside (fun _ => noted.alone inside) ((noted.holds caller).mp inside)
          (fun _ found => nomatch found) (by simp) fun thread found => ⟨rfl, ?_⟩
        exact noted.current caller thread (point ▸ found)
  | releaseLock caller =>
      simp only [ownedLockStep] at taken
      split at taken <;> cases taken
      all_goals
        next point =>
          exact noted.clears (by rw [point]; rfl) rfl (by simp) fun _ found => nomatch found
  | waitCondition caller =>
      simp only [ownedLockStep] at taken
      split at taken <;> cases taken
      all_goals
        next point =>
          exact noted.clears (by rw [point]; rfl) rfl (by simp) fun _ found =>
            noted.threadSelfMacro_some found
  | mutexUnlock caller =>
      simp only [ownedLockStep] at taken
      split at taken <;> cases taken
      next point =>
        exact noted.leaves (by rw [point]; rfl) (by simp [point]) rfl
          (.inl rfl)
  | condWait caller =>
      simp only [ownedLockStep] at taken
      split at taken <;> cases taken
      next current point =>
        exact noted.leaves (by rw [point]; rfl) (by simp [point]) rfl
          (.inr (by rw [point]; rfl))
  | condWaitFails caller =>
      simp only [ownedLockStep] at taken
      split at taken <;> cases taken
      next current point =>
        have inside : (lock.points caller).holds = true := by rw [point]; rfl
        have nobody : ∀ other, lock.points other ≠ .holding := by
          intro other
          by_cases same : other = caller
          · simp [same, point]
          · exact LockPoint.ne_holding (noted.alone inside same)
        obtain ⟨owner, locked⟩ := noted.unnoted nobody
        have cleared := noted.clears inside rfl (show LockPoint.unnoted ≠ .holding by simp)
          fun _ found => nomatch found
        rwa [← owner, ← locked] at cleared
  | woken caller =>
      simp only [ownedLockStep] at taken
      split at taken <;> cases taken
      next current point unlocked => exact noted.enters unlocked (by rw [point]; rfl)

end OwnedLock.Noted

end Aio4c
