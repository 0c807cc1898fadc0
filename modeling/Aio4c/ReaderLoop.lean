import Aio4c.LockBalance
import Aio4c.SelectorIteration
import Aio4c.SelectorRegister

/-! The loop of a reader over its queue and its selector. The locks of the selector are those of
its functions, so that a turn that left one behind would block the next. A read does nothing to
the selector: the handlers that it calls only put items into queues. -/

set_option autoImplicit false

namespace Aio4c

open CriticalSection

/-- What `_ReaderRun` keeps beside its selector: `connection->readKey` and `reader->load`. -/
structure PollingReader where
  readKey : Nat → Option Nat
  load : Int

def newPollingReader : PollingReader := { readKey := fun _ => none, load := 0 }

/-- An item of the reader's queue; the item of a connection comes with what the allocations of
`Register` give. -/
inductive ReaderEntry where
  | exit
  | data (connection : Nat) (socket : Int) (granted reallocated : Bool)
  | close (connection : Nat)
  | pendingClose (connection : Nat)
  | other
  deriving DecidableEq, Repr

/-- The branches of `_ReaderRun` on an item. -/
def readerEntry (reader : PollingReader) : ReaderEntry → Locking Selector PollingReader
  | .data connection socket granted reallocated => do
      let key ← lockedRegister opRead socket connection granted reallocated
      return { readKey := Function.update reader.readKey connection key, load := reader.load + 1 }
  | .close connection => do
      match reader.readKey connection with
      | none => pure ()
      | some key =>
          let _ ← lockedUnregister key true
      return { readKey := Function.update reader.readKey connection none, load := reader.load - 1 }
  | .exit | .pendingClose _ | .other => return reader

/-- The loop over what `Dequeue` delivers, and whether the thread goes on behind it. -/
def readerEntries (reader : PollingReader) :
    List ReaderEntry → Locking Selector (Bool × PollingReader)
  | [] => return (true, reader)
  | .exit :: _ => return (false, reader)
  | entry :: entries => do
      let reader ← readerEntry reader entry
      readerEntries reader entries

/-- The loop over `SelectionKeyReady`, of at most `calls` calls: each key's connection, and
whether it is read. A connection that is not ready for reading is only logged. -/
def readerPass (repolls : Nat → Repoll) : Nat → Locking Selector (List (Nat × Bool))
  | 0 => stop .waiting
  | calls + 1 => do
      match ← lockedSelectionKeyReady (repolls calls) with
      | none => return []
      | some key =>
          let cell ← access fun selector => do pure (← selector.keys key, selector)
          let later ← readerPass repolls calls
          return (cell.attachment, selectionKeyIsOperationSuccessful cell) :: later

/-- What one call of `_ReaderRun` meets: the items, how often its `poll` is interrupted and what
it answers then, and the answers of the re-polls. -/
structure ReaderTurn where
  entries : List ReaderEntry
  interrupts : Nat
  poll : Option (Int × (Nat → Int16))
  repolls : Nat → Repoll

def ReaderTurn.outcomes (turn : ReaderTurn) : List PollOutcome :=
  List.replicate turn.interrupts .interrupted ++
    [match turn.poll with
      | none => .failed
      | some (nbPolls, revents) => .ready nbPolls revents]

/-- What a call of `_ReaderRun` returns, and the connections of its pass. -/
structure ReaderOutcome where
  running : Bool
  ready : List (Nat × Bool)
  reader : PollingReader

/-- `_ReaderRun`. -/
def readerTurn (calls : Nat) (reader : PollingReader) (turn : ReaderTurn) :
    Locking Selector ReaderOutcome := do
  let (running, reader) ← readerEntries reader turn.entries
  if running then
    let numConnectionsReady ← lockedSelect turn.outcomes
    if numConnectionsReady > 0 then
      let ready ← readerPass turn.repolls calls
      return { running := true, ready, reader }
    else return { running := true, ready := [], reader }
  else return { running := false, ready := [], reader }

/-! ## What a reader is for -/

/-- The connections that a reader manages with their sockets, in the order of their items. -/
abbrev ManagedConnections := List (Nat × Int)

def ReaderEntry.manage (managed : ManagedConnections) : ReaderEntry → ManagedConnections
  | .data connection socket _ _ => managed ++ [(connection, socket)]
  | .close connection => managed.filter fun entry => entry.1 ≠ connection
  | .exit | .pendingClose _ | .other => managed

/-- The connections behind the items, up to an exit. -/
def managedBehind (managed : ManagedConnections) : List ReaderEntry → ManagedConnections
  | [] => managed
  | .exit :: _ => managed
  | entry :: entries => managedBehind (entry.manage managed) entries

/-- A connection is handed over once, with a socket that no other open connection has, and the
memory for its key and its slot is granted. -/
def ReaderEntry.Legal (managed : ManagedConnections) : ReaderEntry → Prop
  | .data connection socket granted reallocated =>
      (∀ entry ∈ managed, entry.1 ≠ connection ∧ entry.2 ≠ socket) ∧ granted = true ∧
        reallocated = true
  | _ => True

def LegalEntries (managed : ManagedConnections) : List ReaderEntry → Prop
  | [] => True
  | .exit :: _ => True
  | entry :: entries => entry.Legal managed ∧ LegalEntries (entry.manage managed) entries

/-- The kernel counts the slots that it reports, and the slot of the pipe is reported only as
readable. -/
structure KernelAnswer (slots : Nat) (nbPolls : Int) (revents : Nat → Int16) : Prop where
  counted : nbPolls = (List.range slots).countP fun slot => revents slot ≠ 0
  flags : ∀ slot, 0 ≤ revents slot
  pipe : revents 0 = 0 ∨ revents 0 &&& opRead ≠ 0

/-- The connections that the kernel reports, each once and in their order; one is read if it is
reported as readable. -/
def readyFrom (revents : Nat → Int16) : Nat → ManagedConnections → List (Nat × Bool)
  | _, [] => []
  | slot, (connection, _) :: managed =>
      if 0 < revents slot then
        (connection, decide (revents slot &&& opRead = opRead)) ::
          readyFrom revents (slot + 1) managed
      else readyFrom revents (slot + 1) managed

namespace ReaderTurn

variable (turn : ReaderTurn)

def running : Bool := !turn.entries.contains .exit

def Legal (managed : ManagedConnections) : Prop :=
  LegalEntries managed turn.entries ∧
    ∀ nbPolls revents, turn.poll = some (nbPolls, revents) →
      KernelAnswer ((managedBehind managed turn.entries).length + 1) nbPolls revents

/-- The connections of the pass; slot 0 is the one of the pipe. -/
def ready (managed : ManagedConnections) : List (Nat × Bool) :=
  match turn.poll with
  | none => []
  | some (_, revents) =>
      if turn.running then readyFrom revents 1 (managedBehind managed turn.entries) else []

end ReaderTurn

/-- Along the turns, as long as each is legal, the reader neither blocks nor faults, passes over
exactly the managed connections that are ready, and leaves its lock free and `curKey` at NULL. -/
def ReaderRefines (reader : PollingReader) (selector : Selector) (managed : ManagedConnections) :
    List ReaderTurn → Prop
  | [] => True
  | turn :: turns => turn.Legal managed →
      ∃ calls outcome after,
        readerTurn calls reader turn { state := selector, locked := false } =
          .ok (outcome, { state := after, locked := false }) ∧
        outcome.running = turn.running ∧ outcome.ready = turn.ready managed ∧
        after.curKey = none ∧
        ReaderRefines outcome.reader after (managedBehind managed turn.entries) turns

end Aio4c
