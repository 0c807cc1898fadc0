import Aio4c.Library.LockOrder
import Aio4c.StateLock

/-! What the threads of the library do to its mutexes. The mutex that a function takes, what it
calls while it holds it and where it waits for something else follow the source; what it tests
is left open, so that a footprint has every execution of its function. -/

set_option autoImplicit false

namespace Aio4c

open LockOrder
open LockOrder.Code (all maybe)

/-- A pipe is a reader, a worker and a writer of one number; `program` is a thread of the program
that uses the library. -/
inductive LibraryThread where
  | reader (pipe : Nat)
  | worker (pipe : Nat)
  | writer (pipe : Nat)
  | acceptor (server : Nat)
  | server (server : Nat)
  | client (client : Nat)
  | logger
  | stats
  | program (id : Nat)
  deriving DecidableEq, Repr

/-- The mutexes. A queue, a buffer pool, a selector and `thread->lock` are those of a thread. -/
inductive LibraryLock where
  | life (thread : LibraryThread)
  | state (connection : Nat)
  | closedBy (connection : Nat)
  | managedBy (connection : Nat)
  | selector (thread : LibraryThread)
  | queue (thread : LibraryThread)
  | pool (thread : LibraryThread)
  | logger
  | threads
  | timeProbes
  | sizeProbes
  deriving DecidableEq, Repr

abbrev Footprint := Code LibraryLock

/-- What the program that uses the library plugs into it. -/
structure UserCode where
  handler : Nat → Event → Footprint
  dataFactory : Footprint

namespace Footprint

/-! ## Probes, memory, threads and locks -/

/-- `_ProbeSize`, nothing where the statistics are not built. -/
def probeSize : Footprint := maybe (.within .sizeProbes .skip)

/-- `_ProbeTime`, at the end of a measured section. -/
def probeTime : Footprint := maybe (.within .timeProbes .skip)

/-- `aio4c_malloc` and `aio4c_realloc`. -/
def malloc : Footprint := maybe (all [probeSize, probeSize, probeTime])

/-- `aio4c_free`. -/
def free : Footprint := all [probeSize, probeSize, probeTime]

/-- `_ThreadSelf`, nothing where threads are not debugged. -/
def threadSelf : Footprint := maybe (.within .threads .skip)

/-- `TakeLock`, the code in between, `ReleaseLock`. -/
def locked (lock : LibraryLock) (body : Footprint) : Footprint :=
  all [threadSelf, .within lock (all [probeTime, body, threadSelf])]

/-! ## Queues and the log -/

/-- `_Enqueue`, with what it does where it is refused memory for an item or its node. -/
def enqueueOn (refused : Footprint) (lock : LibraryLock) : Footprint :=
  maybe (locked lock (maybe (all
    [maybe (all [malloc, maybe refused, malloc, maybe refused]), threadSelf])))

/-- `_LogPrintMessage`. -/
def logPrintMessage : Footprint := all [free, free]

/-- `Log` with the handler of the library, for what `_Enqueue` does where the queue of the logger
is refused memory. -/
def logOn (refused : Footprint) : Footprint :=
  maybe (all [malloc, threadSelf,
    maybe (all [malloc, enqueueOn refused .logger, maybe logPrintMessage])])

/-- `Log`, while the queue of the logger is given its memory. -/
def log : Footprint := logOn .skip

/-- `Log` where it is refused it: `Raise` logs the refusal under the lock of that queue. -/
def refusedLog : Footprint := logOn (maybe log)

/-- `Raise`. -/
def raise : Footprint := maybe log

/-- `NewQueueItem`, `NewNode` and the other constructors of one block. -/
def construct : Footprint := all [malloc, raise]

def enqueue (lock : LibraryLock) : Footprint := enqueueOn raise lock

/-- `Dequeue` without waiting. -/
def dequeue (lock : LibraryLock) : Footprint := locked lock .skip

/-- `Dequeue` that waits: `WaitCondition` gives the lock up until it is notified. -/
def dequeueWaiting (lock : LibraryLock) : Footprint :=
  all [threadSelf, .many (all [.within lock (all [probeTime, threadSelf]), .pause]),
    .within lock (all [probeTime, threadSelf])]

def removeAll (lock : LibraryLock) (removeCallback : Footprint) : Footprint :=
  locked lock (all [threadSelf, .many removeCallback])

def freeQueue (lock : LibraryLock) : Footprint :=
  all [locked lock (all [threadSelf, .many (all [free, free]), free]), free, free]

/-! ## Buffer pools -/

def newBuffer : Footprint := all [construct, construct, maybe free]

def allocateBuffer (pool : LibraryThread) : Footprint :=
  all [construct, dequeue (.pool pool),
    maybe (all [.many (all [newBuffer, enqueue (.pool pool)]), dequeue (.pool pool)]),
    probeSize, probeTime, free]

def releaseBuffer (pool : LibraryThread) : Footprint :=
  all [maybe (.either (all [free, free]) (all [enqueue (.pool pool), probeSize])), probeTime]

def freeBufferPool (pool : LibraryThread) : Footprint :=
  all [construct, .many (all [dequeue (.pool pool), maybe (all [free, free])]),
    freeQueue (.pool pool), free, free]

/-! ## Selectors -/

def register (thread : LibraryThread) : Footprint :=
  locked (.selector thread) (maybe (all [construct, construct, construct]))

def unregister (thread : LibraryThread) : Footprint := locked (.selector thread) .skip

/-- `_Select` polls with the lock of its selector held. -/
def select (thread : LibraryThread) : Footprint :=
  all [threadSelf, locked (.selector thread) (all [.many log, .many .pause, raise])]

def selectorWakeUp : Footprint := all [threadSelf, raise]

/-- `SelectionKeyReady`, which finds a busy key where `Select` has counted one. -/
def selectionKeyReady (thread : LibraryThread) : Footprint := locked (.selector thread) raise

/-! ## Connections -/

/-- `EventHandle`: a handler that is called once is freed behind its call. -/
def eventHandle (callback : Footprint) : Footprint :=
  .many (all [callback, maybe (all [free, free])])

/-- `_ConnectionEventHandle`. -/
def connectionEventHandle (systemHandler userHandler : Footprint) : Footprint :=
  all [log, eventHandle systemHandler, eventHandle userHandler]

def newConnection (pool : LibraryThread) : Footprint :=
  all [malloc, allocateBuffer pool, allocateBuffer pool, .many construct]

def connectionNoMoreUsed (connection : Nat) : Footprint := locked (.closedBy connection) log

def clientEventHandler (client : Nat) : Footprint := enqueue (.queue (.client client))

/-- The buffers of a connection go back to the pool of its server or its client. -/
def freeConnection (user : UserCode) (connection : Nat) : Footprint :=
  all [maybe (connectionEventHandle (.any clientEventHandler) (user.handler connection .free)),
    .many (.either (.any fun server => releaseBuffer (.server server))
      (.any fun client => releaseBuffer (.client client))),
    .many free]

/-- `ConnectionNoMoreUsed`, and `FreeConnection` for the last one who uses it. -/
def connectionLeave (user : UserCode) (connection : Nat) : Footprint :=
  all [connectionNoMoreUsed connection, maybe (all [log, freeConnection user connection])]

def acceptorCloseHandler (user : UserCode) (connection server : Nat) : Footprint :=
  maybe (all [log, removeAll (.queue (.acceptor server)) .skip, connectionLeave user connection,
    probeSize])

def readerEventHandler (user : UserCode) (connection pipe : Nat) : Footprint :=
  all [maybe (enqueue (.queue (.reader pipe))),
    .either (connectionLeave user connection) selectorWakeUp]

def workerCloseHandler (user : UserCode) (connection pipe : Nat) : Footprint :=
  all [maybe (enqueue (.queue (.worker pipe))), maybe (connectionLeave user connection)]

def workerReadHandler (pipe : Nat) : Footprint :=
  maybe (all [allocateBuffer (.worker pipe), enqueue (.queue (.worker pipe)),
    .either (releaseBuffer (.worker pipe)) probeTime])

def writerEventHandler (pipe : Nat) : Footprint :=
  all [log, enqueue (.queue (.writer pipe)), maybe log]

/-- A system handler that the library installs for the event. -/
def systemHandler (user : UserCode) (connection : Nat) : Event → Footprint
  | .init | .connecting | .connected | .free => .any clientEventHandler
  | .close =>
      .either (.any clientEventHandler) (.either (.any (acceptorCloseHandler user connection))
        (.either (.any (readerEventHandler user connection))
          (.either (.any (workerCloseHandler user connection)) (.any writerEventHandler))))
  | .pendingClose => .any (readerEventHandler user connection)
  | .inboundData => .any workerReadHandler
  | .outboundData => .any writerEventHandler
  | .read | .write => .skip

def handleEvent (user : UserCode) (connection : Nat) (event : Event) : Footprint :=
  connectionEventHandle (systemHandler user connection event) (user.handler connection event)

/-- What a new state makes `_ConnectionState` dispatch. -/
def handleStateEvent (user : UserCode) (connection : Nat) : Option Event → Footprint
  | none => .skip
  | some event => handleEvent user connection event

/-- `_ConnectionState`; a connection that is established also gets its name. -/
def connectionState (user : UserCode) (connection : Nat) (target : ConnectionState) : Footprint :=
  .either log (locked (.state connection) (all [log, maybe (all [malloc, malloc, free]),
    handleStateEvent user connection (stateEvent target)]))

def connectionClose (user : UserCode) (connection : Nat) (force : Bool) : Footprint :=
  all [log, connectionState user connection (closeTarget force)]

/-- `_ConnectionHandleError`. -/
def connectionHandleError (user : UserCode) (connection : Nat) : Footprint :=
  all [raise, connectionClose user connection true]

def connectionInit (user : UserCode) (connection : Nat) : Footprint :=
  .either (connectionHandleError user connection) (connectionState user connection .initialized)

def connectionConnect (user : UserCode) (connection : Nat) : Footprint :=
  .either (connectionHandleError user connection)
    (.either (connectionState user connection .connecting)
      (connectionState user connection .connected))

/-- `ConnectionFinishConnect` polls the socket with no timeout. -/
def connectionFinishConnect (user : UserCode) (connection : Nat) : Footprint :=
  all [.pause, maybe (connectionHandleError user connection)]

def connectionRead (user : UserCode) (connection : Nat) : Footprint :=
  .either (connectionHandleError user connection) (all [probeSize,
    .either (connectionHandleError user connection)
      (.either (connectionState user connection .closed)
        (.either log (handleEvent user connection .inboundData)))])

def connectionShutdown : Footprint := log

def connectionWrite (user : UserCode) (connection : Nat) : Footprint :=
  .either (connectionHandleError user connection)
    (all [maybe (handleEvent user connection .write),
      .either (connectionHandleError user connection)
        (all [probeSize, maybe connectionShutdown])])

def enableWriteInterest (user : UserCode) (connection : Nat) : Footprint :=
  all [log, .either (handleEvent user connection .outboundData) log]

def connectionManagedBy (user : UserCode) (connection : Nat) : Footprint :=
  all [locked (.managedBy connection) log,
    maybe (all [log, connectionState user connection .connected])]

/-- `ConnectionAddHandler` and `ConnectionAddSystemHandler`. -/
def connectionAddHandler (user : UserCode) (connection : Nat) : Footprint :=
  all [construct, construct, maybe (connectionHandleError user connection)]

/-- `ConnectionFactoryCreate` on the pool of a server. -/
def connectionFactoryCreate (user : UserCode) (server : Nat) : Footprint :=
  all [newConnection (.server server),
    .either (all [raise, free]) (all [user.dataFactory, .many construct])]

/-! ## Hand-over -/

def writerManageConnection (user : UserCode) (connection : Nat) : Footprint :=
  all [connectionAddHandler user connection, connectionAddHandler user connection,
    connectionManagedBy user connection]

def workerManageConnection (user : UserCode) (connection : Nat) : Footprint :=
  all [connectionAddHandler user connection, connectionAddHandler user connection,
    connectionManagedBy user connection, writerManageConnection user connection]

def readerManageConnection (user : UserCode) (connection pipe : Nat) : Footprint :=
  all [enqueue (.queue (.reader pipe)), .either log (all
    [connectionAddHandler user connection, connectionAddHandler user connection,
      workerManageConnection user connection, selectorWakeUp])]

/-! ## Threads -/

/-- `ThreadJoin`, and `FreeThread` behind it. -/
def threadJoin : Footprint := all [maybe (all [.pause, raise]), .many free]

def readerEnd (pipe : Nat) : Footprint :=
  all [maybe (all [maybe (enqueue (.queue (.reader pipe))), maybe selectorWakeUp, threadJoin]),
    .many free]

/-- `_connection`. -/
def clientConnection (user : UserCode) (client connection : Nat) : Footprint :=
  all [newConnection (.client client), probeSize, .many (connectionAddHandler user connection),
    connectionInit user connection]

def clientItem (user : UserCode) (client connection : Nat) : Footprint :=
  .either (all [log, connectionConnect user connection])
    (.either
      (all [log, connectionFinishConnect user connection,
        maybe (.any (readerManageConnection user connection))])
      (.either log
        (all [maybe (connectionNoMoreUsed connection), maybe (freeConnection user connection),
          .either (all [log, .pause, probeTime, probeSize, .any (clientConnection user client)])
            log])))

def clientRun (user : UserCode) (client : Nat) : Footprint :=
  all [construct,
    .many (all [dequeueWaiting (.queue (.client client)), maybe (.any (clientItem user client))]),
    free]

/-- A connection that `_AcceptorExit` finds in its queue. -/
def acceptorDrop (user : UserCode) (connection : Nat) : Footprint :=
  all [.many free, connectionClose user connection true, connectionLeave user connection]

def acceptorExit (user : UserCode) (server : Nat) : Footprint :=
  all [construct, maybe (unregister (.acceptor server)),
    .many (all [dequeue (.queue (.acceptor server)), maybe (.any (acceptorDrop user))]), free,
    freeQueue (.queue (.acceptor server)), .many (.any readerEnd), .many free, log]

end Footprint

end Aio4c
