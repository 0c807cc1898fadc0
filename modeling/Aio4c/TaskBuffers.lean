import Aio4c.Connection
import Aio4c.Library.Fifo
import Aio4c.Library.TransitionSystem
import Aio4c.Queue

/-! The buffers of a worker's pool and the tasks that carry them: the reader in its
handler of INBOUND_DATA, the worker, and any other parties, over any number of
connections. A step is one test, one critical section of a queue, one round of the loop of
`RemoveAll` under the lock of the worker's queue, or one `ReleaseBuffer`. `none` is a
step that is not taken: the lock is held, or NULL is dereferenced. -/

set_option autoImplicit false

namespace Aio4c

/-- Where the reader is in `_WorkerReadHandler`. The first three places are inside
`AllocateBuffer`. -/
inductive ReadHandler where
  | idle
  | allocating (connection : Nat)
  | growing (connection left : Nat)
  | retrying (connection : Nat)
  | copying (connection buffer : Nat)
  | refused (buffer : Nat)
  deriving DecidableEq, Repr

/-- Where the worker is. Inside `RemoveAll` it has passed over the first `visited` items;
`exiting` is `_WorkerExit`. -/
inductive WorkerThread where
  | dequeuing
  | waiting
  | processing (connection buffer : Nat)
  | closing (connection : Nat)
  | removing (connection visited : Nat)
  | exiting
  deriving DecidableEq, Repr

/-- The queue of the pool holds addresses below the number of buffers made. What was
handed out by `AllocateBuffer` and given back by `ReleaseBuffer` is recorded. -/
structure TaskSystem where
  pool : Fifo Nat
  created : Nat
  batch : Nat
  queue : Fifo QueueItem
  states : Nat → ConnectionState
  handler : ReadHandler
  worker : WorkerThread
  taken : List Nat
  released : List Nat

/-- Behind a `NewBufferPool` that made `made` buffers. -/
def newTaskSystem (made batch : Nat) (states : Nat → ConnectionState) : TaskSystem :=
  { pool := { items := List.range made, exit := false, emptied := false }, created := made, batch
    queue := Fifo.empty, states, handler := .idle, worker := .dequeuing, taken := [], released := [] }

inductive TaskAction where
  | inbound (connection : Nat)
  | allocate
  | make (granted : Bool)
  | retry
  | enqueue
  | giveBack
  | dequeue
  | wake (notified : Bool)
  | processed
  | removeAll
  | remove
  | close (connection : Nat)
  | exit
  | change (connection : Nat) (state : ConnectionState)
  deriving DecidableEq, Repr

namespace TaskSystem

/-- The worker holds the lock of its queue along `RemoveAll`. -/
def locked (state : TaskSystem) : Bool :=
  match state.worker with
  | .removing _ _ => true
  | _ => false

def release (state : TaskSystem) (buffer : Nat) : TaskSystem :=
  { state with pool := (state.pool.push buffer).2, released := state.released ++ [buffer] }

/-- `_Enqueue` of the worker's queue. -/
def send (state : TaskSystem) (item : QueueItem) : Option (Bool × TaskSystem) :=
  if state.locked then none
  else
    let (accepted, queue) := state.queue.enqueue (fun item => item = .exit) item
    some (accepted, { state with queue })

/-- The handler behind a `Dequeue` of the pool's queue that `missed` is the answer to. -/
def takeBuffer (state : TaskSystem) (connection : Nat) (missed : Option ReadHandler) :
    Option TaskSystem :=
  match state.pool.dequeue false with
  | (.taken buffer, pool) => some { state with
      pool, handler := .copying connection buffer, taken := state.taken ++ [buffer] }
  | (_, pool) => missed.map fun handler => { state with pool, handler }

/-- The worker behind a `Dequeue` of its own queue. One that returns false leaves
`_WorkerRun` with true, and the thread calls it again. -/
def afterDequeue (state : TaskSystem) : Fifo.Attempt QueueItem × Fifo QueueItem → TaskSystem
  | (.blocked, queue) => { state with queue, worker := .waiting }
  | (.taken (.task _ connection buffer), queue) =>
      { state with queue, worker := .processing connection buffer }
  | (.taken (.event _ source), queue) => { state with queue, worker := .closing source }
  | (.taken .exit, queue) => { state with queue, worker := .exiting }
  | (_, queue) => { state with queue, worker := .dequeuing }

/-- `_removeCallback` on the item that `RemoveAll` has come to, and the unlinking of the
item when it returns true. Nobody else sees the queue before the lock is released. -/
def removeNext (state : TaskSystem) (connection visited : Nat) : TaskSystem :=
  match state.queue.items[visited]? with
  | none => { state with worker := .dequeuing }
  | some (.task _ owner buffer) =>
      if owner = connection then
        { state.release buffer with
          queue := { state.queue with items := state.queue.items.eraseIdx visited } }
      else { state with worker := .removing connection (visited + 1) }
  | some _ => { state with worker := .removing connection (visited + 1) }

end TaskSystem

/-- A buffer that memory is not granted for ends the loop of `AllocateBuffer`; a second
miss makes it return NULL, which `BufferCopy` dereferences. -/
def taskStep (state : TaskSystem) : TaskAction → Option TaskSystem
  | .inbound connection =>
      match state.handler with
      | .idle =>
          if state.states connection = .closed then some state
          else some { state with handler := .allocating connection }
      | _ => none
  | .allocate =>
      match state.handler with
      | .allocating connection => state.takeBuffer connection (some (.growing connection state.batch))
      | _ => none
  | .make granted =>
      match state.handler with
      | .growing connection (left + 1) =>
          if granted then some { state with
            pool := (state.pool.push state.created).2, created := state.created + 1
            handler := .growing connection left }
          else some { state with handler := .retrying connection }
      | .growing connection 0 => some { state with handler := .retrying connection }
      | _ => none
  | .retry =>
      match state.handler with
      | .retrying connection => state.takeBuffer connection none
      | _ => none
  | .enqueue =>
      match state.handler with
      | .copying connection buffer => do
          match ← state.send (.task .read connection buffer) with
          | (true, after) => pure { after with handler := .idle }
          | (false, after) => pure { after with handler := .refused buffer }
      | _ => none
  | .giveBack =>
      match state.handler with
      | .refused buffer => some { state.release buffer with handler := .idle }
      | _ => none
  | .dequeue =>
      match state.worker with
      | .dequeuing => some (state.afterDequeue (state.queue.dequeue true))
      | _ => none
  | .wake notified =>
      match state.worker with
      | .waiting => some (state.afterDequeue (state.queue.resume notified))
      | _ => none
  | .processed =>
      match state.worker with
      | .processing _ buffer => some { state.release buffer with worker := .dequeuing }
      | _ => none
  | .removeAll =>
      match state.worker with
      | .closing connection => some { state with worker := .removing connection 0 }
      | _ => none
  | .remove =>
      match state.worker with
      | .removing connection visited => some (state.removeNext connection visited)
      | _ => none
  | .close connection => (state.send (.event .close connection)).map (·.2)
  | .exit => (state.send .exit).map (·.2)
  | .change connection new =>
      some { state with states := Function.update state.states connection new }

def TaskStep (before : TaskSystem) (action : TaskAction) (after : TaskSystem) : Prop :=
  taskStep before action = some after

/-! ## The places of a buffer -/

def ReadHandler.buffers : ReadHandler → List Nat
  | .copying _ buffer | .refused buffer => [buffer]
  | _ => []

def WorkerThread.buffers : WorkerThread → List Nat
  | .processing _ buffer => [buffer]
  | _ => []

def taskBuffer : QueueItem → Option Nat
  | .task _ _ buffer => some buffer
  | _ => none

/-- The buffers that the TASK items of a queue carry. -/
def taskBuffers (items : List QueueItem) : List Nat := items.filterMap taskBuffer

/-- The buffers that the pool has handed out. -/
def TaskSystem.inUse (state : TaskSystem) : List Nat :=
  state.handler.buffers ++ taskBuffers state.queue.items ++ state.worker.buffers

end Aio4c
