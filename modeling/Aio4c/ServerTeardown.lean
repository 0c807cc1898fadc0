import Aio4c.Library.Teardown

/-! The end of a server: who tells whom to end, waits for whom and frees what, from
`ServerStop` down to the writers of the pipes. A party at work may use what its run loop and
the handlers of the connections reach. -/

set_option autoImplicit false

namespace Aio4c

open Teardown TransitionSystem

/-- The thread that stops and joins the server, the threads of the server and of the acceptor,
and the three threads of each pipe. -/
inductive ServerParty where
  | main
  | server
  | acceptor
  | reader (pipe : Nat)
  | worker (pipe : Nat)
  | writer (pipe : Nat)
  deriving DecidableEq, Repr

/-- What is allocated or opened once for the server, for the acceptor and for each pipe. -/
inductive ServerResource where
  | serverStruct
  | serverThread
  | serverQueue
  | serverAddress
  | serverPool
  | factory
  | acceptorStruct
  | acceptorThread
  | acceptorSelector
  | acceptorSocket
  | acceptorQueue
  | readers
  | readerStruct (pipe : Nat)
  | readerThread (pipe : Nat)
  | readerSelector (pipe : Nat)
  | readerQueue (pipe : Nat)
  | readerName (pipe : Nat)
  | pipeName (pipe : Nat)
  | workerStruct (pipe : Nat)
  | workerThread (pipe : Nat)
  | workerQueue (pipe : Nat)
  | workerPool (pipe : Nat)
  | workerName (pipe : Nat)
  | writerStruct (pipe : Nat)
  | writerThread (pipe : Nat)
  | writerQueue (pipe : Nat)
  | writerName (pipe : Nat)
  deriving DecidableEq, Repr

abbrev ServerCall := Call ServerParty ServerResource

open ServerParty ServerResource

/-- `ThreadJoin`. -/
def threadJoinSteps (thread : ServerResource) (party : ServerParty) : List ServerCall :=
  [.use thread, .join party, .release thread]

/-- `WriterEnd`. -/
def writerEndSteps (pipe : Nat) : List ServerCall :=
  [.use (writerStruct pipe), .use (writerQueue pipe), .stop (writer pipe)] ++
    threadJoinSteps (writerThread pipe) (writer pipe) ++
    [.release (writerName pipe), .release (writerStruct pipe)]

/-- `WorkerEnd`. -/
def workerEndSteps (pipe : Nat) : List ServerCall :=
  [.use (workerStruct pipe), .use (workerQueue pipe), .stop (worker pipe)] ++
    threadJoinSteps (workerThread pipe) (worker pipe) ++
    [.release (workerName pipe), .release (workerStruct pipe)]

/-- `ReaderEnd`. -/
def readerEndSteps (pipe : Nat) : List ServerCall :=
  [.use (readerStruct pipe), .use (readerQueue pipe), .stop (reader pipe),
    .use (readerSelector pipe)] ++
    threadJoinSteps (readerThread pipe) (reader pipe) ++
    [.release (readerSelector pipe), .release (readerName pipe), .release (pipeName pipe),
      .release (readerStruct pipe)]

/-- `AcceptorEnd`. -/
def acceptorEndSteps : List ServerCall :=
  [.use acceptorStruct, .use acceptorThread, .stop acceptor, .use acceptorSelector] ++
    threadJoinSteps acceptorThread acceptor ++
    [.release acceptorSelector, .release acceptorStruct]

/-- What the system handlers of a connection of the pipe reach: those of the reader, of the
worker and of the writer. -/
def handlerUses (pipe : Nat) : List ServerResource :=
  [readerStruct pipe, readerQueue pipe, readerSelector pipe, workerStruct pipe, workerQueue pipe,
    workerPool pipe, writerStruct pipe, writerThread pipe, writerName pipe, writerQueue pipe]

/-- `_ThreadCleanup` behind the exit callback. -/
def cleanupSteps (thread : ServerResource) : List ServerCall := [.use thread]

/-- `_WriterExit`. -/
def writerExitSteps (pipe : Nat) : List ServerCall :=
  [.use (writerStruct pipe), .release (writerQueue pipe)] ++ cleanupSteps (writerThread pipe)

/-- `_WorkerExit`. -/
def workerExitSteps (pipe : Nat) : List ServerCall :=
  [.use (workerStruct pipe)] ++ writerEndSteps pipe ++
    [.release (workerQueue pipe), .release (workerPool pipe)] ++ cleanupSteps (workerThread pipe)

/-- `_ReaderExit`. -/
def readerExitSteps (pipe : Nat) : List ServerCall :=
  [.use (readerStruct pipe)] ++ workerEndSteps pipe ++ [.release (readerQueue pipe)] ++
    cleanupSteps (readerThread pipe)

/-- `_AcceptorExit`: the connections that are left are closed, which runs their handlers, and
freed, before the readers are ended. -/
def acceptorExitSteps (nbPipes : Nat) : List ServerCall :=
  [.use acceptorStruct, .use acceptorSelector, .release acceptorSocket, .use acceptorQueue] ++
    ((List.range nbPipes).flatMap fun pipe => (handlerUses pipe).map .use) ++
    [.use serverPool, .release acceptorQueue, .use readers] ++
    (List.range nbPipes).flatMap readerEndSteps ++
    [.release readers] ++ cleanupSteps acceptorThread

/-- `_serverExit`. -/
def serverExitSteps : List ServerCall :=
  [.use serverStruct] ++ acceptorEndSteps ++
    [.release serverAddress, .release serverPool, .release factory, .release serverQueue] ++
    cleanupSteps serverThread

/-- `ServerStop` and `ServerJoin`. -/
def serverStopJoinSteps : List ServerCall :=
  [.use serverStruct, .use serverQueue, .stop server] ++ threadJoinSteps serverThread server ++
    [.release serverStruct]

/-- What every thread of a pipe may reach: its own queue and thread, the handlers of the
connections of the pipe, the CLOSE handler of the acceptor, and the pool the connections'
buffers go back to. -/
def pipeUses (pipe : Nat) (thread : ServerResource) : List ServerResource :=
  thread :: serverPool :: acceptorStruct :: acceptorQueue :: handlerUses pipe

/-- What `_serverRun`, `_AcceptorRun`, `_ReaderRun`, `_WorkerRun` and `_WriterRun` reach. -/
def runUses (nbPipes : Nat) : ServerParty → List ServerResource
  | main => []
  | server => [serverStruct, serverThread, serverQueue]
  | acceptor =>
      [acceptorStruct, acceptorThread, acceptorSelector, acceptorSocket, acceptorQueue,
        serverAddress, serverPool, factory, readers] ++
        (List.range nbPipes).flatMap handlerUses
  | reader pipe => if pipe < nbPipes then pipeUses pipe (readerThread pipe) else []
  | worker pipe => if pipe < nbPipes then pipeUses pipe (workerThread pipe) else []
  | writer pipe => if pipe < nbPipes then pipeUses pipe (writerThread pipe) else []

/-- A server with `nbPipes` pipes whose threads have all been initialized. -/
def serverDesign (nbPipes : Nat) : Design ServerParty ServerResource where
  teardown
    | main => serverStopJoinSteps
    | server => serverExitSteps
    | acceptor => acceptorExitSteps nbPipes
    | reader pipe => readerExitSteps pipe
    | worker pipe => workerExitSteps pipe
    | writer pipe => writerExitSteps pipe
  uses party resource := resource ∈ runUses nbPipes party

/-- The thread that stops the server does so when it likes. -/
def serverRoot (party : ServerParty) : Bool := party = main

def startedServer : Teardown.State ServerParty ServerResource := Design.start serverRoot

end Aio4c
