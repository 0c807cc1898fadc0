import Aio4c.Library.TransitionSystem

/-! A thread of the library and its owner. The owner starts the thread, may stop it
and joins it, which frees its structure; the thread runs its three callbacks. A step
is one access to a shared field, or a section under the thread's lock that touches
no field the other side looks at without the lock.

Locks and conditions ask `ThreadSelf` for the thread that uses them, and set its state.
In the default build `ThreadSelf` is NULL, and they leave the state alone; with
AIO4C_DEBUG_THREADS it looks for the thread in the table of threads. -/

set_option autoImplicit false

namespace Aio4c

inductive ThreadState where
  | none
  | running
  | blocked
  | idle
  | exited
  | joined
  deriving DecidableEq, Repr

/-- The fields of `Thread` that change. -/
structure Thread where
  state : ThreadState
  running : Bool
  initialized : Bool
  deriving DecidableEq, Repr

/-- Where the thread is in `_runThread`, with what a callback returned. `entering` and
`locking` are the two halves of its first `TakeLock`, which asks `ThreadSelf` for the
thread and then waits for the lock. -/
inductive SelfPoint where
  | absent
  | entering
  | locking (found : Bool)
  | initializing
  | looping
  | calling
  | relocking (run : Bool)
  | assigning (run : Bool)
  | exiting
  | exited
  | leaving
  | ended
  deriving DecidableEq, Repr

/-- Where the owner is: in `ThreadStart`, behind it, or in `ThreadJoin`. `reading` is
the place in `ThreadRunning` behind that many comparisons. -/
inductive OwnerPoint where
  | outside
  | starting
  | created
  | testing
  | waiting
  | started
  | reading (compared : Nat)
  | joining
  | freeing
  | done
  deriving DecidableEq, Repr

inductive LockHolder where
  | owner
  | self
  deriving DecidableEq, Repr

/-- `listed` says whether the table of threads has the thread, `freed` whether
`FreeThread` was executed. -/
structure ThreadSystem where
  thread : Thread
  lock : Option LockHolder
  listed : Bool
  self : SelfPoint
  owner : OwnerPoint
  freed : Bool
  deriving DecidableEq, Repr

def newThread : ThreadSystem :=
  { thread := { state := .none, running := false, initialized := false }
    lock := none, listed := false, self := .absent, owner := .outside, freed := false }

/-- The states that `ThreadRunning` compares with, in order. -/
def threadRunningStates : List ThreadState := [.running, .idle, .blocked, .exited]

/-- The states that a call of `ThreadRunning` in progress has compared with. -/
def ThreadSystem.compared (system : ThreadSystem) : List ThreadState :=
  match system.owner with
  | .reading compared => threadRunningStates.take compared
  | _ => []

/-- The steps of the owner and, from `enter` on, of the thread. `callback` is what the
locks and conditions that a callback uses make of the thread's state with
AIO4C_DEBUG_THREADS. -/
inductive ThreadAction where
  | threadStart
  | create (created : Bool)
  | addThread
  | test
  | wake
  | threadStop
  | threadJoin
  | read
  | join
  | free
  | enter
  | take
  | callback (state : ThreadState)
  | initReturns (run : Bool)
  | loop
  | runReturns (run : Bool)
  | relock
  | assign
  | exitReturns
  | setExited
  | leave
  deriving DecidableEq, Repr

def ThreadSystem.setState (system : ThreadSystem) (state : ThreadState) : ThreadSystem :=
  { system with thread := { system.thread with state } }

def ThreadSystem.setRunning (system : ThreadSystem) (running : Bool) : ThreadSystem :=
  { system with thread := { system.thread with running } }

/-- A callback is being executed. -/
def SelfPoint.InCallback (point : SelfPoint) : Prop :=
  point = .initializing ∨ point = .calling ∨ point = .exiting

instance (point : SelfPoint) : Decidable point.InCallback :=
  inferInstanceAs (Decidable (_ ∨ _))

def ownerStep (system : ThreadSystem) : ThreadAction → Option ThreadSystem
  | .threadStart =>
      if system.owner = .outside ∧ system.lock = none then
        some { system with lock := some .owner, owner := .starting }
      else none
  | .create created =>
      if system.owner = .starting then
        some (if created then { system with self := .entering, owner := .created }
          else { system with lock := none, owner := .started })
      else none
  | .addThread =>
      if system.owner = .created then some { system with listed := true, owner := .testing }
      else none
  | .test =>
      if system.owner = .testing then
        some { system with
          lock := none, owner := if system.thread.initialized then .started else .waiting }
      else none
  | .wake =>
      if system.owner = .waiting ∧ system.lock = none then
        some { system with lock := some .owner, owner := .testing }
      else none
  | .threadStop =>
      if system.owner = .started then some (system.setRunning false) else none
  | .threadJoin =>
      if system.owner = .started then some { system with owner := .reading 0 } else none
  | .read =>
      match system.owner with
      | .reading compared =>
          match threadRunningStates[compared]? with
          | some state => some { system with
              owner := if system.thread.state = state then .joining else .reading (compared + 1) }
          | none => some { system with
              owner := if system.thread.running then .joining else .freeing }
      | _ => none
  | .join =>
      if system.owner = .joining ∧ system.self = .ended then
        some ({ system with owner := .freeing }.setState .joined)
      else none
  | .free =>
      if system.owner = .freeing then some { system with owner := .done, freed := true }
      else none
  | _ => none

/-- `debug` says whether the library was built with AIO4C_DEBUG_THREADS. -/
def selfStep (debug : Bool) (system : ThreadSystem) : ThreadAction → Option ThreadSystem
  | .enter =>
      if system.self = .entering then
        let found := debug && system.listed
        some ({ system with self := .locking found }.setState
          (if found then .blocked else system.thread.state))
      else none
  | .take =>
      match system.self with
      | .locking found =>
          if system.lock = none then
            some (({ system with lock := some .self, self := .initializing }.setState
              (if found then .running else system.thread.state)).setRunning true)
          else none
      | _ => none
  | .callback state =>
      if system.self.InCallback ∧ debug ∧ system.listed ∧
          (state = .running ∨ state = .blocked ∨ state = .idle) then
        some (system.setState state)
      else none
  | .initReturns run =>
      if system.self = .initializing then
        some { system with
          self := .looping
          thread :=
            { state := if run then .running else system.thread.state
              running := run, initialized := true } }
      else none
  | .loop =>
      if system.self = .looping then
        some { system with
          lock := none, self := if system.thread.running then .calling else .exiting }
      else none
  | .runReturns run =>
      if system.self = .calling then
        -- the owner listed the thread before it let it initialize
        some ({ system with self := .relocking run }.setState
          (if debug then .blocked else system.thread.state))
      else none
  | .relock =>
      match system.self with
      | .relocking run =>
          if system.lock = none then
            some ({ system with
              lock := some .self
              self := if system.thread.running then .assigning run else .looping }.setState
                (if debug then .running else system.thread.state))
          else none
      | _ => none
  | .assign =>
      match system.self with
      | .assigning run => some ({ system with self := .looping }.setRunning run)
      | _ => none
  | .exitReturns =>
      if system.self = .exiting then some { system with self := .exited } else none
  | .setExited =>
      if system.self = .exited then some ({ system with self := .leaving }.setState .exited)
      else none
  | .leave =>
      if system.self = .leaving then some { system with listed := false, self := .ended }
      else none
  | _ => none

def threadStep (debug : Bool) (system : ThreadSystem) (action : ThreadAction) :
    Option ThreadSystem :=
  (ownerStep system action).orElse fun _ => selfStep debug system action

def ThreadStep (debug : Bool) (before : ThreadSystem) (action : ThreadAction)
    (after : ThreadSystem) : Prop :=
  threadStep debug before action = some after

end Aio4c
