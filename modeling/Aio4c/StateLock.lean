import Aio4c.Pipeline

/-! The locks that a thread holds while handlers run. The setter of the state calls
the handlers of its event with the state lock held, a user's handler may close the
connection again from there, and no lock can be taken twice by one thread. -/

set_option autoImplicit false

namespace Aio4c

open TransitionSystem

/-- The locks that the calls on one connection take. -/
inductive Lock where
  | state
  | closedBy
  | managedBy
  | queue (id : Nat)
  deriving DecidableEq, Repr

/-- What is left to do of the calls a thread is in. -/
inductive LockFrame where
  | stateTest (target : ConnectionState)
  | takeLock (lock : Lock)
  | assign (target : ConnectionState)
  | releaseLock (lock : Lock)
  | systemHandlers (event : Event)
  | userHandlers (event : Event)
  | interestTest
  deriving DecidableEq, Repr

/-- `_ConnectionEventHandle`. -/
def eventHandle (event : Event) : List LockFrame := [.systemHandlers event, .userHandlers event]

/-- `_ConnectionState` behind its test. -/
def stateSection (target : ConnectionState) : List LockFrame :=
  [.takeLock .state, .assign target, .releaseLock .state]

/-- `RemoveAll` on a queue with a callback that gives buffers back to their pool. -/
def removeSection (queue pool : Nat) : List LockFrame :=
  [.takeLock (.queue queue), .takeLock (.queue pool), .releaseLock (.queue pool),
    .releaseLock (.queue queue)]

def UserCall.lockFrame : UserCall → LockFrame
  | .close true => .stateTest .closed
  | .close false => .stateTest .pendingClose
  | .enableWriteInterest => .interestTest

/-- What the code leaves open. A system handler runs critical sections of other locks
than the state lock, and may free the connection; a user's handler makes calls. An idle
thread calls the API, moves the state or dispatches an event itself. -/
inductive LockChoice where
  | proceed
  | critical (lock : Lock)
  | removeAll (queue pool : Nat)
  | freeConnection
  | call (call : UserCall)
  | setState (target : ConnectionState)
  | event (event : Event)
  deriving DecidableEq, Repr

/-- The connection, who holds which lock, and the calls each thread is in, the
innermost first. -/
structure LockSystem where
  connection : Connection
  holder : Lock → Option Nat
  calls : Nat → List LockFrame

def idleLockSystem (connection : Connection) : LockSystem :=
  { connection, holder := fun _ => none, calls := fun _ => [] }

def LockSystem.moved (system : LockSystem) (thread : Nat) (frames : List LockFrame) :
    LockSystem :=
  { system with calls := Function.update system.calls thread frames }

def lockStep (system : LockSystem) (thread : Nat) (choice : LockChoice) : Option LockSystem :=
  match system.calls thread, choice with
  | [], .call call => some (system.moved thread [call.lockFrame])
  | [], .setState target => some (system.moved thread [.stateTest target])
  | [], .event event => some (system.moved thread (eventHandle event))
  | .stateTest target :: rest, .proceed =>
      some (system.moved thread
        (if system.connection.state = target then rest else stateSection target ++ rest))
  | .takeLock lock :: rest, .proceed =>
      if system.holder lock = none then
        some ({ system with holder := Function.update system.holder lock (some thread) }.moved
          thread rest)
      else none
  | .assign target :: rest, .proceed =>
      some ({ system with connection := setState system.connection target }.moved thread
        ((stateEvent target).toList.flatMap eventHandle ++ rest))
  | .releaseLock lock :: rest, .proceed =>
      some ({ system with holder := Function.update system.holder lock none }.moved thread rest)
  | .systemHandlers event :: rest, .critical lock =>
      if lock ≠ .state then
        some (system.moved thread
          (.takeLock lock :: .releaseLock lock :: .systemHandlers event :: rest))
      else none
  | .systemHandlers event :: rest, .removeAll queue pool =>
      if queue ≠ pool then
        some (system.moved thread (removeSection queue pool ++ .systemHandlers event :: rest))
      else none
  | .systemHandlers event :: rest, .freeConnection =>
      some (system.moved thread (eventHandle .free ++ .systemHandlers event :: rest))
  | .systemHandlers _ :: rest, .proceed => some (system.moved thread rest)
  | .userHandlers event :: rest, .call call =>
      some (system.moved thread (call.lockFrame :: .userHandlers event :: rest))
  | .userHandlers _ :: rest, .proceed => some (system.moved thread rest)
  | .interestTest :: rest, .proceed =>
      some (system.moved thread
        (if system.connection.canWrite then eventHandle .outboundData ++ rest else rest))
  | _, _ => none

def LockStep (before : LockSystem) (action : Nat × LockChoice) (after : LockSystem) : Prop :=
  lockStep before action.1 action.2 = some after

/-- The thread is about to execute `TakeLock` on a lock that it holds. -/
def LockSystem.Relocks (system : LockSystem) (thread : Nat) : Prop :=
  ∃ lock rest, system.calls thread = .takeLock lock :: rest ∧ system.holder lock = some thread

/-- The state that `ConnectionClose` asks for. -/
def closeTarget (force : Bool) : ConnectionState := if force then .closed else .pendingClose

/-- A handler that runs under the state lock closes the connection only for the state
it is in. -/
def CloseAllowed (system : LockSystem) (action : Nat × LockChoice) : Prop :=
  ∀ force, action.2 = .call (.close force) → system.holder .state = some action.1 →
    system.connection.state = closeTarget force

instance (system : LockSystem) (action : Nat × LockChoice) :
    Decidable (CloseAllowed system action) :=
  inferInstanceAs (Decidable (∀ force, action.2 = .call (.close force) →
    system.holder .state = some action.1 → system.connection.state = closeTarget force))

/-! ## What a thread holds -/

/-- The calls fit the locks that the thread holds, the last one taken first: a lock is
taken by a thread that does not hold it, locks are released in the opposite order, and
handlers run at most under the state lock. -/
def Nested : List Lock → List LockFrame → Prop
  | held, [] => held = []
  | held, .takeLock lock :: rest => lock ∉ held ∧ Nested (lock :: held) rest
  | held, .releaseLock lock :: rest => ∃ outer, held = lock :: outer ∧ Nested outer rest
  | held, .assign _ :: rest => .state ∈ held ∧ (∀ lock ∈ held, lock = .state) ∧ Nested held rest
  | held, .stateTest _ :: rest | held, .systemHandlers _ :: rest
  | held, .userHandlers _ :: rest | held, .interestTest :: rest =>
      (∀ lock ∈ held, lock = .state) ∧ Nested held rest

structure LockSystem.Sound (system : LockSystem) (held : Nat → List Lock) : Prop where
  owners : ∀ thread lock, system.holder lock = some thread ↔ lock ∈ held thread
  distinct : ∀ thread, (held thread).Nodup
  nested : ∀ thread, Nested (held thread) (system.calls thread)
  tests : ∀ thread target, .stateTest target ∉ (system.calls thread).tail
  settled : ∀ thread target rest, system.calls thread = .stateTest target :: rest →
    .state ∈ held thread → system.connection.state = target

theorem idleLockSystem_sound (connection : Connection) :
    (idleLockSystem connection).Sound fun _ => [] where
  owners thread lock := by simp [idleLockSystem]
  distinct _ := List.nodup_nil
  nested _ := rfl
  tests thread target := by simp [idleLockSystem]
  settled thread target rest calls := by simp [idleLockSystem] at calls

attribute [local simp] lockStep

namespace LockSystem.Sound

variable {system : LockSystem} {held : Nat → List Lock}

theorem moved (sound : system.Sound held) (thread : Nat) {frames : List LockFrame}
    (nested : Nested (held thread) frames)
    (tests : ∀ target, .stateTest target ∉ frames.tail)
    (settled : ∀ target rest, frames = .stateTest target :: rest → .state ∈ held thread →
      system.connection.state = target) :
    (system.moved thread frames).Sound held where
  owners := sound.owners
  distinct := sound.distinct
  nested other := by
    by_cases same : other = thread
    · subst same
      simpa only [LockSystem.moved, Function.update_self] using nested
    · simpa only [LockSystem.moved, Function.update_of_ne same] using sound.nested other
  tests other := by
    by_cases same : other = thread
    · subst same
      simpa only [LockSystem.moved, Function.update_self] using tests
    · simpa only [LockSystem.moved, Function.update_of_ne same] using sound.tests other
  settled other := by
    by_cases same : other = thread
    · subst same
      simpa only [LockSystem.moved, Function.update_self] using settled
    · simpa only [LockSystem.moved, Function.update_of_ne same] using sound.settled other

theorem moved_clear (sound : system.Sound held) (thread : Nat) {frames : List LockFrame}
    (nested : Nested (held thread) frames) (clear : ∀ target, .stateTest target ∉ frames) :
    (system.moved thread frames).Sound held := by
  apply sound.moved thread nested
  · intro target member
    exact clear target (List.mem_of_mem_tail member)
  · intro target rest same
    exact absurd (same ▸ List.mem_cons_self) (clear target)

theorem clear (sound : system.Sound held) {thread : Nat} {frame : LockFrame}
    {rest : List LockFrame} (calls : system.calls thread = frame :: rest)
    (target : ConnectionState) : .stateTest target ∉ rest := by
  have tests := sound.tests thread target
  rw [calls] at tests
  exact tests

theorem nestedAt (sound : system.Sound held) {thread : Nat} {frames : List LockFrame}
    (calls : system.calls thread = frames) : Nested (held thread) frames :=
  calls ▸ sound.nested thread

/-- A call of user code: closing under the state lock finds the state it asks for. -/
theorem call (sound : system.Sound held) {thread : Nat} {call : UserCall}
    {rest : List LockFrame} (allowed : CloseAllowed system (thread, .call call))
    (inside : ∀ lock ∈ held thread, lock = .state) (nested : Nested (held thread) rest)
    (clear : ∀ target, .stateTest target ∉ rest) :
    (system.moved thread (call.lockFrame :: rest)).Sound held := by
  apply sound.moved thread
  · cases call with
    | close force => cases force <;> exact ⟨inside, nested⟩
    | enableWriteInterest => exact ⟨inside, nested⟩
  · exact clear
  · intro target rest' same holds
    have owned := (sound.owners thread .state).mpr holds
    cases call with
    | close force =>
        have settled := allowed force rfl owned
        cases force with
        | true =>
            cases same
            exact settled
        | false =>
            cases same
            exact settled
    | enableWriteInterest => cases same

theorem stateTest (sound : system.Sound held) {thread : Nat} {target : ConnectionState}
    {rest : List LockFrame} (calls : system.calls thread = .stateTest target :: rest) :
    (system.moved thread
      (if system.connection.state = target then rest else stateSection target ++ rest)).Sound
        held := by
  obtain ⟨inside, nested⟩ := sound.nestedAt calls
  have clear := sound.clear calls
  by_cases same : system.connection.state = target
  · rw [if_pos same]
    exact sound.moved_clear thread nested clear
  · rw [if_neg same]
    have free : .state ∉ held thread := fun holds => same (sound.settled thread target rest calls holds)
    apply sound.moved_clear thread
    · refine ⟨free, List.mem_cons_self, ?_, held thread, rfl, nested⟩
      intro lock member
      rcases List.mem_cons.mp member with rfl | member
      · rfl
      · exact inside lock member
    · intro other member
      simp only [stateSection, List.cons_append, List.nil_append, List.mem_cons, reduceCtorEq,
        false_or] at member
      exact clear other member

theorem relocked (sound : system.Sound held) (thread : Nat) {holder : Lock → Option Nat}
    {held' : List Lock} {frames : List LockFrame}
    (mine : ∀ lock, holder lock = some thread ↔ lock ∈ held')
    (others : ∀ other lock, other ≠ thread →
      (holder lock = some other ↔ system.holder lock = some other))
    (distinct : held'.Nodup) (nested : Nested held' frames)
    (clear : ∀ target, .stateTest target ∉ frames) :
    (LockSystem.moved { system with holder } thread frames).Sound
      (Function.update held thread held') where
  owners other lock := by
    by_cases same : other = thread
    · subst same
      simpa only [LockSystem.moved, Function.update_self] using mine lock
    · simp only [LockSystem.moved, Function.update_of_ne same]
      exact (others other lock same).trans (sound.owners other lock)
  distinct other := by
    by_cases same : other = thread
    · subst same
      simpa only [Function.update_self] using distinct
    · simpa only [Function.update_of_ne same] using sound.distinct other
  nested other := by
    by_cases same : other = thread
    · subst same
      simpa only [LockSystem.moved, Function.update_self] using nested
    · simpa only [LockSystem.moved, Function.update_of_ne same] using sound.nested other
  tests other target := by
    by_cases same : other = thread
    · subst same
      simp only [LockSystem.moved, Function.update_self]
      exact fun member => clear target (List.mem_of_mem_tail member)
    · simpa only [LockSystem.moved, Function.update_of_ne same] using sound.tests other target
  settled other target rest := by
    by_cases same : other = thread
    · subst same
      simp only [LockSystem.moved, Function.update_self]
      intro frames
      exact absurd (frames ▸ List.mem_cons_self) (clear target)
    · simpa only [LockSystem.moved, Function.update_of_ne same] using
        sound.settled other target rest

theorem takeLock (sound : system.Sound held) {thread : Nat} {lock : Lock}
    {rest : List LockFrame} (calls : system.calls thread = .takeLock lock :: rest)
    (free : system.holder lock = none) :
    (LockSystem.moved { system with
      holder := Function.update system.holder lock (some thread) } thread rest).Sound
        (Function.update held thread (lock :: held thread)) := by
  obtain ⟨fresh, nested⟩ := sound.nestedAt calls
  apply sound.relocked thread
  · intro other
    by_cases same : other = lock
    · subst same
      simp
    · simp only [Function.update_of_ne same, List.mem_cons, same, false_or]
      exact sound.owners thread other
  · intro other lock' differs
    by_cases same : lock' = lock
    · subst same
      simp only [Function.update_self, free, Option.some.injEq, reduceCtorEq, iff_false]
      exact fun same => differs same.symm
    · simp only [Function.update_of_ne same]
  · exact List.nodup_cons.mpr ⟨fresh, sound.distinct thread⟩
  · exact nested
  · exact sound.clear calls

theorem releaseLock (sound : system.Sound held) {thread : Nat} {lock : Lock}
    {rest : List LockFrame} (calls : system.calls thread = .releaseLock lock :: rest) :
    ∃ held', (LockSystem.moved { system with
      holder := Function.update system.holder lock none } thread rest).Sound held' := by
  obtain ⟨outer, holds, nested⟩ := sound.nestedAt calls
  have distinct := sound.distinct thread
  rw [holds] at distinct
  obtain ⟨fresh, distinct⟩ := List.nodup_cons.mp distinct
  refine ⟨Function.update held thread outer, ?_⟩
  apply sound.relocked thread
  · intro other
    by_cases same : other = lock
    · subst same
      simp [fresh]
    · have owners := sound.owners thread other
      rw [holds, List.mem_cons] at owners
      simpa only [Function.update_of_ne same, same, false_or] using owners
  · intro other lock' differs
    by_cases same : lock' = lock
    · subst same
      have owned := (sound.owners thread lock').mpr (by rw [holds]; exact List.mem_cons_self)
      simp only [Function.update_self, owned, Option.some.injEq, reduceCtorEq, false_iff]
      exact fun same => differs same.symm
    · simp only [Function.update_of_ne same]
  · exact distinct
  · exact nested
  · exact sound.clear calls

theorem eventHandle_clear {rest : List LockFrame} (event : Event)
    (clear : ∀ target, .stateTest target ∉ rest) (target : ConnectionState) :
    .stateTest target ∉ eventHandle event ++ rest := by
  simpa [eventHandle] using clear target

/-- The state changes under the state lock, so no other thread relies on it. -/
theorem assign (sound : system.Sound held) {thread : Nat} {target : ConnectionState}
    {rest : List LockFrame} (calls : system.calls thread = .assign target :: rest) :
    (LockSystem.moved { system with connection := setState system.connection target } thread
      ((stateEvent target).toList.flatMap eventHandle ++ rest)).Sound held := by
  obtain ⟨owns, inside, nested⟩ := sound.nestedAt calls
  have clear := sound.clear calls
  have changed : LockSystem.Sound { system with
      connection := setState system.connection target, calls :=
        Function.update system.calls thread rest } held :=
    { owners := sound.owners
      distinct := sound.distinct
      nested := fun other => by
        by_cases same : other = thread
        · subst same
          simpa only [Function.update_self] using nested
        · simpa only [Function.update_of_ne same] using sound.nested other
      tests := fun other target => by
        by_cases same : other = thread
        · subst same
          simp only [Function.update_self]
          exact fun member => clear target (List.mem_of_mem_tail member)
        · simpa only [Function.update_of_ne same] using sound.tests other target
      settled := fun other target rest' => by
        by_cases same : other = thread
        · subst same
          simp only [Function.update_self]
          intro frames
          exact absurd (frames ▸ List.mem_cons_self) (clear target)
        · intro _ holds
          have mine := (sound.owners thread .state).mpr owns
          rw [(sound.owners other .state).mpr holds] at mine
          exact absurd (Option.some.inj mine) same }
  have nested' : Nested (held thread)
      ((stateEvent target).toList.flatMap eventHandle ++ rest) := by
    cases stateEvent target with
    | none => exact nested
    | some event => exact ⟨inside, inside, nested⟩
  have clear' : ∀ target', .stateTest target' ∉
      (stateEvent target).toList.flatMap eventHandle ++ rest := by
    cases stateEvent target with
    | none => exact clear
    | some event => exact eventHandle_clear event clear
  have final := changed.moved_clear thread nested' clear'
  simpa only [LockSystem.moved, Function.update_idem] using final

theorem idle (sound : system.Sound held) {thread : Nat} {choice : LockChoice}
    {after : LockSystem} (calls : system.calls thread = [])
    (allowed : CloseAllowed system (thread, choice))
    (step : lockStep system thread choice = some after) : after.Sound held := by
  have nested := sound.nestedAt calls
  have holds : held thread = [] := nested
  have inside : ∀ lock ∈ held thread, lock = .state := by simp [holds]
  simp only [lockStep, calls] at step
  cases choice with
  | call call =>
      cases step
      exact sound.call allowed inside nested (fun _ => List.not_mem_nil)
  | setState target =>
      cases step
      apply sound.moved thread
      · exact ⟨inside, nested⟩
      · intro _
        exact List.not_mem_nil
      · intro _ _ _ owns
        rw [holds] at owns
        cases owns
  | event event =>
      cases step
      apply sound.moved_clear thread
      · exact ⟨inside, inside, nested⟩
      · intro target
        simp [eventHandle]
  | proceed | critical | removeAll | freeConnection => cases step

theorem systemHandlers (sound : system.Sound held) {thread : Nat} {event : Event}
    {rest : List LockFrame} {choice : LockChoice} {after : LockSystem}
    (calls : system.calls thread = .systemHandlers event :: rest)
    (step : lockStep system thread choice = some after) : after.Sound held := by
  obtain ⟨inside, nested⟩ := sound.nestedAt calls
  have clear := sound.clear calls
  simp only [lockStep, calls] at step
  cases choice with
  | proceed =>
      cases step
      exact sound.moved_clear thread nested clear
  | critical lock =>
      simp only [Option.ite_none_right_eq_some, Option.some.injEq] at step
      obtain ⟨other, rfl⟩ := step
      apply sound.moved_clear thread
      · refine ⟨?_, held thread, rfl, inside, nested⟩
        intro holds
        exact other (inside lock holds)
      · intro target
        simpa using clear target
  | removeAll queue pool =>
      simp only [Option.ite_none_right_eq_some, Option.some.injEq] at step
      obtain ⟨differs, rfl⟩ := step
      apply sound.moved_clear thread
      · refine ⟨?_, ?_, _, rfl, held thread, rfl, inside, nested⟩
        · intro holds
          cases inside _ holds
        · intro holds
          rcases List.mem_cons.mp holds with same | holds
          · cases same
            exact differs rfl
          · cases inside _ holds
      · intro target
        simpa [removeSection] using clear target
  | freeConnection =>
      cases step
      apply sound.moved_clear thread
      · exact ⟨inside, inside, inside, nested⟩
      · intro target
        simpa [eventHandle] using clear target
  | call | setState | event => cases step

theorem userHandlers (sound : system.Sound held) {thread : Nat} {event : Event}
    {rest : List LockFrame} {choice : LockChoice} {after : LockSystem}
    (calls : system.calls thread = .userHandlers event :: rest)
    (allowed : CloseAllowed system (thread, choice))
    (step : lockStep system thread choice = some after) : after.Sound held := by
  obtain ⟨inside, nested⟩ := sound.nestedAt calls
  have clear := sound.clear calls
  simp only [lockStep, calls] at step
  cases choice with
  | proceed =>
      cases step
      exact sound.moved_clear thread nested clear
  | call call =>
      cases step
      apply sound.call allowed inside
      · exact ⟨inside, nested⟩
      · intro target
        simpa using clear target
  | critical | removeAll | freeConnection | setState | event => cases step

theorem interestTest (sound : system.Sound held) {thread : Nat} {rest : List LockFrame}
    (calls : system.calls thread = .interestTest :: rest) :
    (system.moved thread (if system.connection.canWrite then eventHandle .outboundData ++ rest
      else rest)).Sound held := by
  obtain ⟨inside, nested⟩ := sound.nestedAt calls
  have clear := sound.clear calls
  cases system.connection.canWrite with
  | true =>
      apply sound.moved_clear thread
      · exact ⟨inside, inside, nested⟩
      · exact eventHandle_clear .outboundData clear
  | false => exact sound.moved_clear thread nested clear

theorem step (sound : system.Sound held) {action : Nat × LockChoice} {after : LockSystem}
    (allowed : CloseAllowed system action) (taken : LockStep system action after) :
    ∃ held', after.Sound held' := by
  obtain ⟨thread, choice⟩ := action
  simp only [LockStep] at taken
  cases calls : system.calls thread with
  | nil => exact ⟨held, sound.idle calls allowed taken⟩
  | cons frame rest =>
      cases frame with
      | systemHandlers event => exact ⟨held, sound.systemHandlers calls taken⟩
      | userHandlers event => exact ⟨held, sound.userHandlers calls allowed taken⟩
      | stateTest target =>
          simp only [lockStep, calls] at taken
          cases choice with
          | proceed =>
              cases taken
              exact ⟨held, sound.stateTest calls⟩
          | critical | removeAll | freeConnection | call | setState | event => cases taken
      | takeLock lock =>
          simp only [lockStep, calls] at taken
          cases choice with
          | proceed =>
              simp only [Option.ite_none_right_eq_some, Option.some.injEq] at taken
              obtain ⟨free, rfl⟩ := taken
              exact ⟨_, sound.takeLock calls free⟩
          | critical | removeAll | freeConnection | call | setState | event => cases taken
      | assign target =>
          simp only [lockStep, calls] at taken
          cases choice with
          | proceed =>
              cases taken
              exact ⟨held, sound.assign calls⟩
          | critical | removeAll | freeConnection | call | setState | event => cases taken
      | releaseLock lock =>
          simp only [lockStep, calls] at taken
          cases choice with
          | proceed =>
              cases taken
              exact sound.releaseLock calls
          | critical | removeAll | freeConnection | call | setState | event => cases taken
      | interestTest =>
          simp only [lockStep, calls] at taken
          cases choice with
          | proceed =>
              cases taken
              exact ⟨held, sound.interestTest calls⟩
          | critical | removeAll | freeConnection | call | setState | event => cases taken

theorem not_relocks (sound : system.Sound held) (thread : Nat) : ¬ system.Relocks thread := by
  intro relocks
  obtain ⟨lock, rest, calls, holds⟩ := relocks
  have nested := sound.nestedAt calls
  exact nested.1 ((sound.owners thread lock).mp holds)

end LockSystem.Sound

/-- A close that the handler may not make goes straight to the lock its thread holds. -/
theorem lockStep_relocks {system after reached : LockSystem} {thread : Nat} {force : Bool}
    {event : Event} {rest : List LockFrame}
    (calls : system.calls thread = .userHandlers event :: rest)
    (refused : ¬ CloseAllowed system (thread, .call (.close force)))
    (taken : LockStep system (thread, .call (.close force)) after)
    (next : LockStep after (thread, .proceed) reached) : reached.Relocks thread := by
  have owns : system.holder .state = some thread := by
    by_contra free
    exact refused fun _ _ owns => absurd owns free
  have differs : system.connection.state ≠ closeTarget force := by
    intro same
    apply refused
    intro force' asked _
    cases asked
    exact same
  have frame : (UserCall.close force).lockFrame = .stateTest (closeTarget force) := by
    cases force <;> rfl
  simp only [LockStep, lockStep, calls, frame, Option.some.injEq] at taken
  subst taken
  simp only [LockStep, lockStep, LockSystem.moved, Function.update_self, Option.some.injEq]
    at next
  subst next
  refine ⟨.state, .assign (closeTarget force) :: .releaseLock .state :: .userHandlers event :: rest,
    ?_, owns⟩
  exact (Function.update_self _ _ _).trans (if_neg differs)

/-- On any connection, with any threads and any handlers: while no handler that runs
under the state lock closes the connection for another state than it is in, no thread is
ever about to take a lock that it holds. -/
theorem idleLockSystem_never_relocks {connection : Connection}
    {actions : List (Nat × LockChoice)} {system : LockSystem}
    (run : Run (Guarded CloseAllowed LockStep) (idleLockSystem connection) actions system)
    (thread : Nat) : ¬ system.Relocks thread := by
  have sound : ∃ held, system.Sound held := by
    apply run.keeps
    · intro before action after holds taken
      obtain ⟨held, sound⟩ := holds
      exact sound.step taken.1 taken.2
    · exact ⟨_, idleLockSystem_sound connection⟩
  obtain ⟨held, sound⟩ := sound
  exact sound.not_relocks thread

/-- A thread that moves a new connection to CONNECTED; the handlers of the event go
through a queue and enable a write interest. -/
def connectedWithInterest : List (Nat × LockChoice) :=
  [(0, .setState .connected), (0, .proceed), (0, .proceed), (0, .proceed),
    (0, .critical (.queue 0)), (0, .proceed), (0, .proceed), (0, .proceed),
    (0, .call .enableWriteInterest), (0, .proceed), (0, .proceed), (0, .proceed),
    (0, .proceed), (0, .proceed)]

/-- The same thread; its CONNECTED handler closes the connection gracefully. -/
def connectedWithClose : List (Nat × LockChoice) :=
  [(0, .setState .connected), (0, .proceed), (0, .proceed), (0, .proceed), (0, .proceed),
    (0, .call (.close false)), (0, .proceed)]

theorem idleLockSystem_never_relocks_interest :
    let buffer : Buffer := { size := 1, data := [0, 0, 0], position := 0, limit := 1 }
    ∃ system, execute (guardedNext CloseAllowed fun system action =>
          lockStep system action.1 action.2)
        (idleLockSystem (newConnection buffer buffer)) connectedWithInterest = some system ∧
      ¬ system.Relocks 0 := by
  intro buffer
  obtain ⟨system, runs, run⟩ := exists_run_of_execute (Guarded CloseAllowed LockStep)
    (guardedNext CloseAllowed fun system action => lockStep system action.1 action.2)
    (idleLockSystem (newConnection buffer buffer)) connectedWithInterest
    (fun _ _ _ taken => guardedNext_sound taken) (by decide)
  exact ⟨system, runs, idleLockSystem_never_relocks run 0⟩

/-- The CONNECTED handler that closes the connection takes the state lock twice. -/
theorem idleLockSystem_relocks :
    ¬ ∀ (connection : Connection) (actions : List (Nat × LockChoice)) (system : LockSystem),
      Run LockStep (idleLockSystem connection) actions system →
        ∀ thread, ¬ system.Relocks thread := by
  intro never
  let buffer : Buffer := { size := 1, data := [0, 0, 0], position := 0, limit := 1 }
  obtain ⟨system, runs, run⟩ := exists_run_of_execute LockStep
    (fun system action => lockStep system action.1 action.2)
    (idleLockSystem (newConnection buffer buffer)) connectedWithClose
    (fun _ _ _ taken => taken) (by decide)
  have final : (execute (fun system (action : Nat × LockChoice) =>
      lockStep system action.1 action.2) (idleLockSystem (newConnection buffer buffer))
        connectedWithClose).map (fun system => (system.calls 0, system.holder .state)) =
      some (stateSection .pendingClose ++ [.userHandlers .connected, .releaseLock .state],
        some 0) := by
    decide
  rw [runs, Option.map_some, Option.some.injEq, Prod.mk.injEq] at final
  exact never _ _ system run 0 ⟨.state, _, final.1, final.2⟩

end Aio4c
