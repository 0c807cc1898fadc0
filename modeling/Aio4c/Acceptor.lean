import Aio4c.Selector
import Aio4c.ThreadStartUp

/-! The start of an acceptor. `NewAcceptor` starts a thread whose init callback opens
the listening socket and registers it; the acceptor's queue, the connections it accepts
and the release of the readers are left out. -/

set_option autoImplicit false

namespace Aio4c

/-- A descriptor, as the kernel has it. -/
inductive SocketState where
  | closed
  | opened
  | bound
  | listening
  deriving DecidableEq, Repr

/-- The fields of `Acceptor`, and the kernel's sockets. -/
structure Acceptor where
  readers : Nat → Option Nat
  nbReaders : Nat
  socket : Int
  sockets : Int → SocketState
  selector : Option Selector
  key : Option Nat

/-- The outcomes of the calls in `_AcceptorInit`: the reader of each pipe or NULL, the
descriptor or -1, success, and whether the table of the selector could grow. -/
structure AcceptorOutcomes where
  newReader : Nat → Option Nat
  socket : Option Nat
  fcntl : Bool
  setsockopt : Bool
  bind : Bool
  listen : Bool
  reallocated : Bool

/-- The loop over the pipes from pipe `i`: the number of those that were started. -/
def startReaders (newReader : Nat → Option Nat) :
    Nat → Nat → (Nat → Option Nat) → Nat × (Nat → Option Nat)
  | 0, i, readers => (i, readers)
  | left + 1, i, readers =>
      let readers := Function.update readers i (newReader i)
      if (newReader i).isSome then startReaders newReader left (i + 1) readers else (i, readers)

def Acceptor.setSocket (acceptor : Acceptor) (state : SocketState) : Acceptor :=
  { acceptor with sockets := Function.update acceptor.sockets acceptor.socket state }

/-- `close(acceptor->socket); acceptor->socket = -1`. -/
def Acceptor.dropSocket (acceptor : Acceptor) : Acceptor :=
  { acceptor.setSocket .closed with socket := -1 }

/-- `_AcceptorInit`. A failed `listen` leaves the closed descriptor in the structure. -/
def acceptorInit (outcomes : AcceptorOutcomes) (acceptor : Acceptor) :
    Option (Bool × Acceptor) :=
  let (started, readers) :=
    startReaders outcomes.newReader acceptor.nbReaders 0 acceptor.readers
  let acceptor := { acceptor with readers, nbReaders := started }
  match outcomes.socket with
  | none => some (false, { acceptor with socket := -1 })
  | some socket =>
      let acceptor := { acceptor with socket := (socket : Int) }.setSocket .opened
      if !outcomes.fcntl then some (false, acceptor.dropSocket)
      else if !outcomes.setsockopt then some (false, acceptor.dropSocket)
      else if !outcomes.bind then some (false, acceptor.dropSocket)
      else
        let acceptor := acceptor.setSocket .bound
        if !outcomes.listen then some (false, acceptor.setSocket .closed)
        else do
          let acceptor := acceptor.setSocket .listening
          let (key, selector) ←
            register (← acceptor.selector) opRead acceptor.socket 0 outcomes.reallocated
          pure (true, { acceptor with selector := some selector, key })

def acceptorExit (acceptor : Acceptor) : Option Acceptor := do
  let acceptor ← match acceptor.key with
    | none => some acceptor
    | some key => do
        let (_, selector) ← unregister (← acceptor.selector) key true
        pure { acceptor with selector := some selector }
  pure (if acceptor.socket = -1 then acceptor else acceptor.setSocket .closed)

/-- An acceptor with its thread, and `NewAcceptor` as the owner of that. -/
structure AcceptorSystem where
  thread : ThreadSystem
  acceptor : Acceptor

/-- What `NewAcceptor` calls `ThreadStart` on; `selector` is the pipe of the new selector,
`none` for NULL. -/
def acceptorSystem (nbPipes : Nat) (selector : Option Int) : AcceptorSystem :=
  { thread := newThread
    acceptor :=
      { readers := fun _ => none, nbReaders := nbPipes, socket := -1, sockets := fun _ => .closed
        selector := selector.map newSelector, key := none } }

/-- `NewAcceptor` up to `ThreadStart`, with the outcomes of its allocations; `none` is a
NULL returned. -/
def newAcceptor (nbPipes : Nat) (allocated readers : Bool) (selector : Option Int)
    (thread : Bool) : Option AcceptorSystem :=
  if allocated && readers && thread then some (acceptorSystem nbPipes selector) else none

/-- A step of `ThreadStart` or of the thread, or a call of `_AcceptorRun` that works on
the selector. -/
inductive AcceptorAction where
  | thread (action : ThreadAction)
  | select (outcome : Option (Int × (Nat → Int16)))
  | ready (repoll : Repoll)

/-- `debug` is the build, as in `selfStep`. `_AcceptorRun` returns true; `ThreadStop` and
`ThreadJoin` belong to `AcceptorEnd`, which needs the acceptor that `NewAcceptor` returns. -/
def acceptorStep (debug : Bool) (outcomes : AcceptorOutcomes) (system : AcceptorSystem) :
    AcceptorAction → Option AcceptorSystem
  | .thread action => do
      let thread ← threadStep debug system.thread action
      match action with
      | .initReturns run => do
          let (result, acceptor) ← acceptorInit outcomes system.acceptor
          guard (result = run)
          pure { thread, acceptor }
      | .exitReturns => do
          let acceptor ← acceptorExit system.acceptor
          pure { thread, acceptor }
      | .runReturns false | .threadStop | .threadJoin => none
      | _ => pure { system with thread }
  | .select outcome => do
      guard (system.thread.self = .calling)
      let selector := (select (← system.acceptor.selector) outcome).2
      pure { system with acceptor := { system.acceptor with selector := some selector } }
  | .ready repoll => do
      guard (system.thread.self = .calling)
      let (_, selector) ← selectionKeyReady (← system.acceptor.selector) repoll
      pure { system with acceptor := { system.acceptor with selector := some selector } }

def AcceptorStep (debug : Bool) (outcomes : AcceptorOutcomes) (before : AcceptorSystem)
    (action : AcceptorAction) (after : AcceptorSystem) : Prop :=
  acceptorStep debug outcomes before action = some after

/-- What `NewAcceptor` returned: whether it was an acceptor. -/
def AcceptorSystem.result (system : AcceptorSystem) : Option Bool := system.thread.startResult

end Aio4c
