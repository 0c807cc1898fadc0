import Aio4c.HandOver
import Aio4c.Library.Fifo
import Aio4c.Library.TransitionSystem

/-! One connection in its pipe, accepted or opened by a client: the acceptor's or the
client's thread, the reader, the worker, the writer and any number of other parties,
each with the calls it is in, and the state lock with the calls made under it. A step
is one test, one assignment under the lock, one handler call, one critical section of
a queue or of a table of owners, or one release. -/

set_option autoImplicit false

namespace Aio4c

/-- `accepting` is the thread that hands the connection over, the acceptor or the client. -/
inductive Party where
  | accepting
  | reader
  | worker
  | writer
  | user (id : Nat)
  deriving DecidableEq, Repr

/-- The items of the worker's queue that refer to the connection. -/
inductive WorkerItem where
  | task
  | close
  deriving DecidableEq, Repr

/-- Which `FreeConnection` it is: the one of a client that was not connected, or the one
behind a `ConnectionNoMoreUsed` that returned true. -/
inductive FreeCause where
  | unconnected
  | noMoreUsed (owner : ConnectionOwner)
  deriving DecidableEq, Repr

/-- What is left to do of a call. `retire` is the part of an owner's answer to CLOSE
in front of `ConnectionNoMoreUsed`; `userHandlers` may make calls of their own. The
tests of `_clientRun` are `closedTest` in front of the hand-over and `connectedTest`
in its answer to CLOSE. -/
inductive Frame where
  | stateTest (target : ConnectionState)
  | stateLock (target : ConnectionState)
  | assign (target : ConnectionState)
  | dispatch (event : Event)
  | userDispatch (event : Event)
  | userHandlers
  | inboundTest
  | inboundEnqueue
  | interestTest
  | recv
  | readTest
  | writeTest
  | fill
  | send
  | reenqueue
  | taskEnd
  | register
  | retire (owner : ConnectionOwner)
  | noMoreUsed (owner : ConnectionOwner)
  | free (cause : FreeCause)
  | handOver (step : HandOverStep)
  | connectionInit
  | connectTest
  | connect
  | finishConnect
  | closedTest
  | setConnected
  | connectedTest
  deriving DecidableEq, Repr

inductive UserCall where
  | close (force : Bool)
  | enableWriteInterest
  deriving DecidableEq, Repr

def UserCall.frame : UserCall → Frame
  | .close true => .stateTest .closed
  | .close false => .stateTest .pendingClose
  | .enableWriteInterest => .interestTest

/-- What the code leaves open: the outcome of a system call, whether the write buffer
was drained, and the calls of user code. -/
inductive Choice where
  | proceed
  | call (call : UserCall)
  | ready
  | recv (closing : Bool)
  | fill (drained : Bool)
  | send (unfinished : Option Bool)
  | opened (opened : Bool)
  | connect (outcome : ConnectOutcome)
  | finishConnect (outcome : FinishConnectOutcome)
  deriving DecidableEq, Repr

/-- The connection, the system handlers in the order of their installation, what the
queues hold of the connection, its key in the reader's selector, and whether the client
takes it for connected. The rest records what happened: the user's handlers called so
far, the acknowledgements with their results, the calls of `FreeConnection`, whether the
connection was handed to the reader, and whether a walk of CLOSE came to the end of the
handlers with the last one installed. -/
structure Shared where
  connection : Connection
  systemHandlers : List (Event × ConnectionOwner)
  acceptorQueue : Fifo Unit
  clientQueue : Fifo Event
  readerQueue : Fifo ReaderItem
  workerQueue : Fifo WorkerItem
  writerQueue : Fifo Event
  readKey : Bool
  connected : Bool
  called : List Event
  acknowledged : List (ConnectionOwner × Bool)
  freed : List FreeCause
  handed : Bool
  installed : Bool
  covered : Bool

/-- The calls that each party is in, the innermost first. The place `none` is the
section under the state lock, whose calls the holder of the lock makes. -/
structure Pipeline where
  shared : Shared
  locked : Option Party
  calls : Option Party → List Frame

def Shared.notify (shared : Shared) (event : Event) : Shared :=
  { shared with clientQueue := (shared.clientQueue.push event).2 }

def Shared.read (shared : Shared) (item : ReaderItem) : Shared :=
  { shared with readerQueue := (shared.readerQueue.push item).2 }

def Shared.work (shared : Shared) (item : WorkerItem) : Shared :=
  { shared with workerQueue := (shared.workerQueue.push item).2 }

def Shared.write (shared : Shared) (event : Event) : Shared :=
  { shared with writerQueue := (shared.writerQueue.push event).2 }

/-- A call of a system handler: the acceptor answers to CLOSE at once, the worker's read
handler runs in the reader, all others send the event to their thread. -/
def systemHandler (shared : Shared) (event : Event) : ConnectionOwner → List Frame × Shared
  | .acceptor => ([.retire .acceptor], shared)
  | .client => ([], shared.notify event)
  | .reader => ([], shared.read (.event event))
  | .worker => if event = .inboundData then ([.inboundTest], shared) else ([], shared.work .close)
  | .writer => ([], shared.write event)

/-- One turn of the walk over the system handlers of an event. The handlers of the two
data events stay in their list, all others are called once. -/
def dispatchStep (shared : Shared) (event : Event) : List Frame × Shared :=
  match shared.systemHandlers.find? (fun handler => handler.1 = event) with
  | some (_, owner) =>
      if event = .inboundData ∨ event = .outboundData then
        let (frames, shared) := systemHandler shared event owner
        (frames ++ [.userDispatch event], shared)
      else
        let (frames, shared) := systemHandler { shared with
          systemHandlers := shared.systemHandlers.erase (event, owner) } event owner
        (frames ++ [.dispatch event], shared)
  | none =>
      ([.userDispatch event], { shared with
        covered := shared.covered || (decide (event = .close) && shared.installed) })

/-- The part of an owner's answer to CLOSE that only concerns the owner. -/
def retireStep (shared : Shared) : ConnectionOwner → Shared
  | .acceptor => { shared with acceptorQueue := shared.acceptorQueue.discard fun _ => true }
  | .reader => { shared with readKey := false }
  | .worker => { shared with workerQueue := shared.workerQueue.discard (· = .task) }
  | .writer => { shared with writerQueue := shared.writerQueue.discard fun _ => true }
  | .client => shared

/-- One step of the hand-over, or of the reader's part in it. -/
def handOverFrame (shared : Shared) : HandOverStep → List Frame × Shared
  | .enqueueDataItem => ([], shared.read .data)
  | .addSystemHandler event owner =>
      ([], { shared with
        systemHandlers := shared.systemHandlers ++ [(event, owner)]
        installed := shared.installed || decide ((event, owner) = (.close, .writer)) })
  | .managedBy owner =>
      let (managedByAll, connection) := connectionManage shared.connection owner
      (if managedByAll then [.handOver .connected] else [], { shared with connection })
  | .connected => ([.stateTest .connected], shared)

/-- The assignments of `_ConnectionState` under its lock, with the event logged. -/
def setState (connection : Connection) (target : ConnectionState) : Connection :=
  { enterState connection target with
    events := connection.events ++ (stateEvent target).toList }

/-- The state that `ConnectionConnect` asks for. -/
def ConnectOutcome.target : ConnectOutcome → ConnectionState
  | .error => .closed
  | .inProgress => .connecting
  | .connected => .connected

def proceedStep (shared : Shared) : Frame → Option (List Frame × Shared)
  | .stateTest target =>
      some (if shared.connection.state = target then [] else [.stateLock target], shared)
  | .assign target => some ([], { shared with connection := setState shared.connection target })
  | .dispatch event => some (dispatchStep shared event)
  | .userDispatch event =>
      some ([.userHandlers], { shared with called := shared.called ++ [event] })
  | .userHandlers => some ([], shared)
  | .inboundTest =>
      some (if shared.connection.state = .closed then [] else [.inboundEnqueue], shared)
  | .inboundEnqueue => some ([], shared.work .task)
  | .interestTest =>
      some (if shared.connection.canWrite then [.dispatch .outboundData] else [], shared)
  | .readTest => some (if shared.connection.canRead then [.dispatch .inboundData] else [], shared)
  | .writeTest =>
      some (if shared.connection.canWrite then [.fill] else [.stateTest .closed], shared)
  | .reenqueue => some ([], shared.write .outboundData)
  | .taskEnd => some ([], shared)
  | .register => some ([], { shared with readKey := true })
  | .retire owner => some ([.noMoreUsed owner], retireStep shared owner)
  | .noMoreUsed owner =>
      let (result, connection) := connectionNoMoreUsed shared.connection owner
      some (if result then [.free (.noMoreUsed owner)] else [], { shared with
        connection, acknowledged := shared.acknowledged ++ [(owner, result)] })
  | .free cause => some ([], { shared with freed := shared.freed ++ [cause] })
  | .handOver step => some (handOverFrame shared step)
  | .connectTest =>
      some ([if shared.connection.state = .initialized then .connect else .stateTest .closed],
        shared)
  | .closedTest =>
      if shared.connection.state = .closed then some ([], shared)
      else some (readerManageConnection.map .handOver, { shared with handed := true })
  | .setConnected => some ([], { shared with connected := true })
  | .connectedTest =>
      some ([if shared.connected then .noMoreUsed .client else .free .unconnected], shared)
  | .stateLock _ | .recv | .fill | .send | .connectionInit | .connect | .finishConnect => none

/-- The step of the innermost call: what takes its place, and the shared state. -/
def frameStep (shared : Shared) (frame : Frame) : Choice → Option (List Frame × Shared)
  | .proceed => proceedStep shared frame
  | .call call =>
      if frame = .userHandlers then some ([call.frame, .userHandlers], shared) else none
  | .recv closing =>
      if frame = .recv then some ([if closing then .stateTest .closed else .readTest], shared)
      else none
  | .fill drained =>
      if frame = .fill then some (if drained then [.dispatch .write, .send] else [.send], shared)
      else none
  | .send none => if frame = .send then some ([.stateTest .closed], shared) else none
  | .send (some unfinished) =>
      if frame = .send then some (if unfinished then [.reenqueue] else [], shared) else none
  | .opened opened =>
      if frame = .connectionInit then
        some ([.stateTest (if opened then .initialized else .closed)], shared)
      else none
  | .connect outcome =>
      if frame = .connect then some ([.stateTest outcome.target], shared) else none
  | .finishConnect outcome =>
      if frame = .finishConnect then
        some (if outcome = .connected ∨ outcome = .notReady then [] else [.stateTest .closed],
          shared)
      else none
  | .ready => none

/-- The branches of `_clientRun`. -/
def clientRun : Event → List Frame
  | .init => [.connectTest]
  | .connecting => [.finishConnect, .closedTest]
  | .connected => [.setConnected]
  | .close => [.connectedTest]
  | _ => []

/-- What a party does between two calls: a thread takes an item of its queue, the
reader reads from a registered socket, user code makes a call. Nobody turns to a
connection after its FREE event. -/
def idleStep (shared : Shared) : Party → Choice → Option (List Frame × Shared)
  | .accepting, .proceed =>
      match shared.clientQueue.dequeue true with
      | (.taken event, clientQueue) => some (clientRun event, { shared with clientQueue })
      | (.drained, clientQueue) => some ([], { shared with clientQueue })
      | _ => none
  | .reader, .proceed =>
      match shared.readerQueue.dequeue false with
      | (.taken .data, readerQueue) =>
          some ([.register, .handOver (.managedBy .reader)], { shared with readerQueue })
      | (.taken (.event .close), readerQueue) =>
          some ([.retire .reader], { shared with readerQueue })
      | (.taken (.event _), readerQueue) => some ([], { shared with readerQueue })
      | (.drained, readerQueue) => some ([], { shared with readerQueue })
      | _ => none
  | .reader, .ready => if shared.readKey then some ([.recv], shared) else none
  | .worker, .proceed =>
      match shared.workerQueue.dequeue true with
      | (.taken .task, workerQueue) =>
          some ([.dispatch .read, .taskEnd], { shared with workerQueue })
      | (.taken .close, workerQueue) => some ([.retire .worker], { shared with workerQueue })
      | (.drained, workerQueue) => some ([], { shared with workerQueue })
      | _ => none
  | .writer, .proceed =>
      match shared.writerQueue.dequeue true with
      | (.taken .outboundData, writerQueue) => some ([.writeTest], { shared with writerQueue })
      | (.taken .close, writerQueue) => some ([.retire .writer], { shared with writerQueue })
      | (.taken _, writerQueue) => some ([], { shared with writerQueue })
      | (.drained, writerQueue) => some ([], { shared with writerQueue })
      | _ => none
  | .user _, .call call => if shared.freed = [] then some ([call.frame], shared) else none
  | _, _ => none

/-- The place whose calls a party makes next. -/
def Pipeline.place (pipeline : Pipeline) (party : Party) : Option Party :=
  if pipeline.locked = some party then none else some party

def pipelineStep (pipeline : Pipeline) (party : Party) (choice : Choice) : Option Pipeline :=
  match pipeline.calls (pipeline.place party) with
  | [] =>
      if pipeline.locked = some party then some { pipeline with locked := none }
      else
        (idleStep pipeline.shared party choice).map fun (frames, shared) =>
          { pipeline with shared, calls := Function.update pipeline.calls (some party) frames }
  | .stateLock target :: rest =>
      if pipeline.locked = none ∧ choice = .proceed then
        some {
          shared := { pipeline.shared with
            connection := { pipeline.shared.connection with state := target } }
          locked := some party
          calls := Function.update (Function.update pipeline.calls (some party) rest) none
            (.assign target :: (stateEvent target).toList.map .dispatch) }
      else none
  | frame :: rest =>
      (frameStep pipeline.shared frame choice).map fun (frames, shared) =>
        { pipeline with
          shared, calls := Function.update pipeline.calls (pipeline.place party) (frames ++ rest) }

def PipelineStep (before : Pipeline) (action : Party × Choice) (after : Pipeline) : Prop :=
  pipelineStep before action.1 action.2 = some after

def idleShared (connection : Connection) (systemHandlers : List (Event × ConnectionOwner)) :
    Shared :=
  { connection, systemHandlers, acceptorQueue := Fifo.empty, clientQueue := Fifo.empty
    readerQueue := Fifo.empty, workerQueue := Fifo.empty, writerQueue := Fifo.empty
    readKey := false, connected := false, called := [], acknowledged := [], freed := []
    handed := false, installed := false, covered := false }

/-- A new connection in front of its hand-over, with the acceptor's handler and item. -/
def acceptedPipeline (connection : Connection) : Pipeline :=
  { shared := { idleShared connection [(.close, .acceptor)] with
      acceptorQueue := (Fifo.empty.push ()).2, handed := true }
    locked := none
    calls := fun place =>
      if place = some .accepting then readerManageConnection.map .handOver else [] }

/-- The system handlers that `_connection` installs. -/
def clientHandlers : List (Event × ConnectionOwner) :=
  [(.init, .client), (.connecting, .client), (.connected, .client), (.close, .client),
    (.free, .client)]

/-- A client's new connection in front of `ConnectionInit`. -/
def clientPipeline (connection : Connection) : Pipeline :=
  { shared := idleShared connection clientHandlers
    locked := none
    calls := fun place => if place = some .accepting then [.connectionInit] else [] }

end Aio4c
