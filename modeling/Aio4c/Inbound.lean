import Aio4c.BufferPool
import Aio4c.HandOver
import Aio4c.Library.TransitionSystem

/-! The inbound side of one connection: the accepting thread on its way through
the hand-over, the reader thread from `recv` to the task it enqueues, and the
worker that gives the buffers of finished tasks back. No party closes here. -/

set_option autoImplicit false

namespace Aio4c

/-- Where the reader stands in `_ReaderRun`: between two items or keys, in front of
`ConnectionManagedBy` and of the state it may set, in `ConnectionRead` behind `recv`
and behind the test of `canRead`, and in the worker's handler with a filled copy. -/
inductive ReaderPoint where
  | idle
  | managing
  | connecting
  | received (nbRead : Nat)
  | dispatching
  | copied (buffer : Buffer)
  deriving DecidableEq, Repr

/-- `received`, `dropped` and `enqueued` record what happened so far: the bytes of
`recv`, how many of them a closed `canRead` discarded, and the buffers of the tasks. -/
structure Inbound where
  connection : Connection
  systemHandlers : List (Event × ConnectionOwner)
  handOver : List HandOverStep
  readerQueue : Fifo ReaderItem
  reader : ReaderPoint
  readKey : Bool
  pool : BufferPool
  tasks : Fifo Buffer
  received : List UInt8
  dropped : Nat
  enqueued : List Buffer

def newInbound (connection : Connection) (pool : BufferPool) : Inbound :=
  { connection, systemHandlers := [], handOver := readerManageConnection
    readerQueue := Fifo.empty, reader := .idle, readKey := false, pool, tasks := Fifo.empty
    received := [], dropped := 0, enqueued := [] }

def Handlers.idle : Handlers := { inboundData := .ok, write := .ok }

/-- `_WorkerReadHandler` up to the task: the filled copy, the read buffer and the pool. -/
def workerReadHandler (malloc : Nat → Bool) (pool : BufferPool) (readBuffer : Buffer) :
    Access (Buffer × Buffer × BufferPool) := do
  match ← allocateBuffer malloc pool with
  | (none, _) => .error .outOfBounds
  | (some bufferCopy', pool) =>
      let readBuffer := bufferFlip readBuffer
      let bufferCopy' ← bufferCopy bufferCopy' readBuffer
      let readBuffer ← bufferReset readBuffer
      pure (bufferCopy', readBuffer, pool)

inductive InboundAction where
  | handOver
  | dequeue
  | managedBy
  | connected
  | recv (bytes : List UInt8)
  | readTest
  | dispatch
  | enqueueTask
  | process
  deriving DecidableEq, Repr

def handOverStep (state : Inbound) : Access (Option Inbound) := do
  match state.handOver with
  | [] => pure none
  | .enqueueDataItem :: handOver =>
      let (_, readerQueue) := state.readerQueue.push .data
      pure (some { state with handOver, readerQueue })
  | .addSystemHandler event owner :: handOver =>
      pure (some { state with
        handOver, systemHandlers := state.systemHandlers ++ [(event, owner)] })
  | .managedBy owner :: handOver =>
      let (managedByAll, connection) := connectionManage state.connection owner
      pure (some { state with
        connection
        handOver := if managedByAll then .connected :: handOver else handOver })
  | .connected :: handOver =>
      pure (some { state with
        handOver, connection := ← connectionState .idle state.connection .connected })

/-- One step; `none` where the action is not the one that can happen next. -/
def inboundStep (malloc : Nat → Bool) (state : Inbound) :
    InboundAction → Access (Option Inbound)
  | .handOver => handOverStep state
  | .dequeue =>
      match state.reader, state.readerQueue.dequeue false with
      | .idle, (.taken .data, readerQueue) =>
          pure (some { state with readerQueue, readKey := true, reader := .managing })
      | .idle, (_, readerQueue) => pure (some { state with readerQueue })
      | _, _ => pure none
  | .managedBy =>
      if state.reader = .managing then
        let (managedByAll, connection) := connectionManage state.connection .reader
        pure (some { state with
          connection, reader := if managedByAll then .connecting else .idle })
      else pure none
  | .connected => do
      if state.reader = .connecting then
        pure (some { state with
          connection := ← connectionState .idle state.connection .connected, reader := .idle })
      else pure none
  | .recv bytes => do
      if state.reader = .idle ∧ state.readKey then
        match ← connectionReceive .idle state.connection (.bytes bytes) with
        | (none, _) => pure none
        | (some nbRead, connection) =>
            pure (some { state with
              connection, reader := .received nbRead
              received := state.received ++ bytes.take nbRead })
      else pure none
  | .readTest => do
      match state.reader with
      | .received nbRead =>
          let (admitted, connection) ← connectionAdmit state.connection nbRead
          pure (some { state with
            connection, reader := if admitted then .dispatching else .idle
            dropped := state.dropped + if admitted then 0 else nbRead })
      | _ => pure none
  | .dispatch => do
      if state.reader = .dispatching then
        let connection ← connectionEventHandle .idle state.connection .inboundData
        if (.inboundData, .worker) ∈ state.systemHandlers ∧ connection.state ≠ .closed then
          let (buffer, readBuffer, pool) ←
            workerReadHandler malloc state.pool connection.readBuffer
          pure (some { state with
            connection := { connection with readBuffer }, pool, reader := .copied buffer })
        else pure (some { state with connection, reader := .idle })
      else pure none
  | .enqueueTask => do
      match state.reader with
      | .copied buffer =>
          let (enqueued, tasks) := state.tasks.push buffer
          if enqueued then
            pure (some { state with
              tasks, reader := .idle, enqueued := state.enqueued ++ [buffer] })
          else
            pure (some { state with
              tasks, reader := .idle, pool := ← releaseBuffer state.pool buffer })
      | _ => pure none
  | .process => do
      match state.tasks.dequeue true with
      | (.taken buffer, tasks) =>
          pure (some { state with tasks, pool := ← releaseBuffer state.pool buffer })
      | (_, tasks) => pure (some { state with tasks })

def inboundNext (malloc : Nat → Bool) (state : Inbound) (action : InboundAction) :
    Option Inbound :=
  match inboundStep malloc state action with
  | .ok outcome => outcome
  | .error _ => none

def InboundStep (malloc : Nat → Bool) (before : Inbound) (action : InboundAction)
    (after : Inbound) : Prop :=
  inboundNext malloc before action = some after

/-- The bytes of the tasks so far, in queue order. -/
def Inbound.forwarded (state : Inbound) : List UInt8 :=
  state.enqueued.flatMap Buffer.window

/-- `canRead` is set whenever `ConnectionRead` tests it on received data. -/
def ReadAllowed (before : Inbound) (action : InboundAction) : Prop :=
  action = .readTest → before.connection.canRead = true

end Aio4c
