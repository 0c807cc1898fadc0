import Aio4c.ConnectionLifecycle
import Aio4c.HandOver
import Aio4c.Library.Fifo
import Aio4c.Library.TransitionSystem

/-! A client over all its attempts: the thread that follows the events of its
connections, the reader as far as it completes their owners, and all others that close
a connection. The calls on connections are taken as a whole. -/

set_option autoImplicit false

namespace Aio4c

/-- One attempt: its connection, the client's handlers that were not called yet, and
whether the connection was handed to the reader. -/
structure Attempt where
  connection : Connection
  handlers : List Event
  handed : Bool

/-- `NewConnection` with the handlers that `_connection` installs. -/
def newAttempt (readBuffer writeBuffer : Buffer) : Attempt :=
  { connection := newConnection readBuffer writeBuffer
    handlers := [.init, .connecting, .connected, .close, .free], handed := false }

/-- What the client's thread has left to do for an event; `release` and `retry` are the
two parts of its answer to CLOSE. -/
inductive ClientFrame where
  | connect
  | finishConnect
  | closedTest
  | handOver (step : HandOverStep)
  | release
  | retry (closedForError : Bool)
  deriving DecidableEq, Repr

/-- The attempts up to the `current` one, the client's queue with the events of all of
them, the calls that its thread is in, the connections in the reader's queue, and those
that the reader is about to move to CONNECTED. -/
structure Client where
  retries : Int
  retryCount : Int
  connected : Bool
  exiting : Bool
  stopped : Bool
  queue : Fifo (Event × Nat)
  attempts : Nat → Attempt
  current : Nat
  calls : List (ClientFrame × Nat)
  readerQueue : Fifo Nat
  arriving : List Nat

/-- `_clientEventHandler`, called once for each event. -/
def Client.notify (client : Client) (id : Nat) (event : Event) : Client :=
  let attempt := client.attempts id
  if event ∈ attempt.handlers then
    { client with
      queue := (client.queue.push (event, id)).2
      attempts := Function.update client.attempts id
        { attempt with handlers := attempt.handlers.erase event } }
  else client

/-- The connection behind a call, with the events that the call dispatched. -/
def Client.settle (client : Client) (id : Nat) (connection : Connection) : Client :=
  let attempt := client.attempts id
  (connection.events.drop attempt.connection.events.length).foldl
    (fun client event => client.notify id event)
    { client with attempts := Function.update client.attempts id { attempt with connection } }

/-- The state setter never touches a buffer, so these handlers are never called. -/
def bufferlessHandlers : Handlers := { inboundData := .ok, write := .ok }

inductive ClientAction where
  | dequeue
  | connect (outcome : ConnectOutcome)
  | finishConnect (outcome : FinishConnectOutcome)
  | closedTest
  | handOver
  | release
  | retry (readBuffer writeBuffer : Buffer) (outcome : InitOutcome)
  | readerDequeue
  | readerConnected
  | close (id : Nat) (force : Bool)
  | fail (id : Nat) (error : ConnectionError)
  | free (id : Nat)
  deriving DecidableEq, Repr

/-- The branches of `_clientRun` up to the calls they make. -/
def Client.handle (client : Client) (id : Nat) : Event → Client
  | .init => { client with calls := [(.connect, id)] }
  | .connecting => { client with calls := [(.finishConnect, id), (.closedTest, id)] }
  | .connected => { client with connected := true, retryCount := 0 }
  | .close =>
      { client with
        calls := [(.release, id), (.retry (client.attempts id).connection.closedForError, id)] }
  | .free => { client with stopped := client.exiting }
  | _ => client

/-- One step of the hand-over of a connection. -/
def Client.hand (client : Client) (id : Nat) (calls : List (ClientFrame × Nat)) :
    HandOverStep → Client
  | .enqueueDataItem =>
      { client with
        calls, readerQueue := (client.readerQueue.push id).2
        attempts := Function.update client.attempts id
          { client.attempts id with handed := true } }
  | .addSystemHandler _ _ => { client with calls }
  | .managedBy owner =>
      let (managedByAll, connection) := connectionManage (client.attempts id).connection owner
      { client with
        calls := if managedByAll then (.handOver .connected, id) :: calls else calls
        attempts := Function.update client.attempts id { client.attempts id with connection } }
  | .connected => { client with calls }

/-- `_connection`: a new attempt takes the place of the current one. -/
def Client.attempt (client : Client) (readBuffer writeBuffer : Buffer) : Client :=
  { client with
    connected := false, current := client.current + 1
    attempts := Function.update client.attempts (client.current + 1)
      (newAttempt readBuffer writeBuffer) }

/-- A call on a connection, whose events are sent to the client. -/
def Client.call (client : Client) (id : Nat)
    (call : Handlers → Connection → Access Connection) : Option Client :=
  (call bufferlessHandlers (client.attempts id).connection).toOption.map (client.settle id)

def clientStep (client : Client) : ClientAction → Option Client
  | .dequeue =>
      if client.calls = [] ∧ client.stopped = false then
        match client.queue.dequeue true with
        | (.taken (event, id), queue) => some (Client.handle { client with queue } id event)
        | (.drained, queue) => some { client with queue }
        | _ => none
      else none
  | .connect outcome =>
      match client.calls with
      | (.connect, id) :: calls =>
          Client.call { client with calls } id
            fun handlers connection => connectionConnect handlers connection outcome
      | _ => none
  | .finishConnect outcome =>
      match client.calls with
      | (.finishConnect, id) :: calls =>
          Client.call { client with calls } id
            fun handlers connection => connectionFinishConnect handlers connection outcome
      | _ => none
  | .closedTest =>
      match client.calls with
      | (.closedTest, id) :: calls =>
          some { client with
            calls :=
              if (client.attempts id).connection.state = .closed then calls
              else readerManageConnection.map (fun step => (.handOver step, id)) ++ calls }
      | _ => none
  | .handOver =>
      match client.calls with
      | (.handOver .connected, id) :: calls =>
          Client.call { client with calls } id
            fun handlers connection => connectionState handlers connection .connected
      | (.handOver step, id) :: calls => some (client.hand id calls step)
      | _ => none
  | .release =>
      match client.calls with
      | (.release, id) :: calls =>
          if client.connected then
            let (last, connection) :=
              connectionNoMoreUsed (client.attempts id).connection .client
            let client := Client.settle { client with calls } id connection
            some (if last then client.notify id .free else client)
          else some (Client.notify { client with calls } id .free)
      | _ => none
  | .retry readBuffer writeBuffer outcome =>
      match client.calls with
      | (.retry closedForError, _) :: calls =>
          if closedForError ∧ client.retryCount < client.retries then
            let client := Client.attempt { client with calls, retryCount := client.retryCount + 1 }
              readBuffer writeBuffer
            client.call client.current
              fun handlers connection => connectionInit handlers connection outcome
          else some { client with calls, exiting := true }
      | _ => none
  | .readerDequeue =>
      match client.readerQueue.dequeue false with
      | (.taken id, readerQueue) =>
          let (managedByAll, connection) :=
            connectionManage (client.attempts id).connection .reader
          some { client with
            readerQueue, arriving := if managedByAll then id :: client.arriving else client.arriving
            attempts := Function.update client.attempts id { client.attempts id with connection } }
      | (.drained, readerQueue) => some { client with readerQueue }
      | _ => none
  | .readerConnected =>
      match client.arriving with
      | id :: arriving =>
          Client.call { client with arriving } id
            fun handlers connection => connectionState handlers connection .connected
      | [] => none
  | .close id force =>
      if id ≤ client.current then
        client.call id fun handlers connection => connectionClose handlers connection force
      else none
  | .fail id error =>
      if id ≤ client.current then
        client.call id fun handlers connection => connectionHandleError handlers connection error
      else none
  | .free id => if id ≤ client.current then some (client.notify id .free) else none

def ClientStep (before : Client) (action : ClientAction) (after : Client) : Prop :=
  clientStep before action = some after

/-- A client whose first connection was created and not initialized yet. -/
def idleClient (retries : Int) (readBuffer writeBuffer : Buffer) : Client :=
  { retries, retryCount := 0, connected := false, exiting := false, stopped := false
    queue := Fifo.empty, attempts := fun _ => newAttempt readBuffer writeBuffer, current := 0
    calls := [], readerQueue := Fifo.empty, arriving := [] }

/-- A client behind `_clientInit`. -/
def newClient (retries : Int) (readBuffer writeBuffer : Buffer) (outcome : InitOutcome) :
    Option Client :=
  (idleClient retries readBuffer writeBuffer).call 0
    fun handlers connection => connectionInit handlers connection outcome

/-! ## What a step can do -/

/-- The steps of a client, each with what it found. -/
inductive ClientMove (before : Client) : ClientAction → Client → Prop
  | handles {event : Event} {id : Nat} {queue : Fifo (Event × Nat)} :
      before.calls = [] → before.stopped = false →
      before.queue.dequeue true = (.taken (event, id), queue) →
        ClientMove before .dequeue (Client.handle { before with queue } id event)
  | drains {queue : Fifo (Event × Nat)} :
      before.queue.dequeue true = (.drained, queue) →
        ClientMove before .dequeue { before with queue }
  | connects {id : Nat} {calls : List (ClientFrame × Nat)} {outcome : ConnectOutcome}
      {after : Client} : before.calls = (.connect, id) :: calls →
      Client.call { before with calls } id
        (fun handlers connection => connectionConnect handlers connection outcome) = some after →
        ClientMove before (.connect outcome) after
  | finishes {id : Nat} {calls : List (ClientFrame × Nat)} {outcome : FinishConnectOutcome}
      {after : Client} : before.calls = (.finishConnect, id) :: calls →
      Client.call { before with calls } id
        (fun handlers connection => connectionFinishConnect handlers connection outcome) =
          some after →
        ClientMove before (.finishConnect outcome) after
  | findsClosed {id : Nat} {calls : List (ClientFrame × Nat)} :
      before.calls = (.closedTest, id) :: calls →
        ClientMove before .closedTest { before with calls }
  | handsOver {id : Nat} {calls : List (ClientFrame × Nat)} :
      before.calls = (.closedTest, id) :: calls →
        ClientMove before .closedTest { before with
          calls := readerManageConnection.map (fun step => (.handOver step, id)) ++ calls }
  | hands {step : HandOverStep} {id : Nat} {calls : List (ClientFrame × Nat)} :
      before.calls = (.handOver step, id) :: calls →
        ClientMove before .handOver (before.hand id calls step)
  | reaches {id : Nat} {calls : List (ClientFrame × Nat)} {after : Client} :
      before.calls = (.handOver .connected, id) :: calls →
      Client.call { before with calls } id
        (fun handlers connection => connectionState handlers connection .connected) = some after →
        ClientMove before .handOver after
  | keeps {id : Nat} {calls : List (ClientFrame × Nat)} {connection : Connection} :
      before.calls = (.release, id) :: calls →
      connectionNoMoreUsed (before.attempts id).connection .client = (false, connection) →
        ClientMove before .release (Client.settle { before with calls } id connection)
  | releases {id : Nat} {calls : List (ClientFrame × Nat)} {connection : Connection} :
      before.calls = (.release, id) :: calls →
      connectionNoMoreUsed (before.attempts id).connection .client = (true, connection) →
        ClientMove before .release
          ((Client.settle { before with calls } id connection).notify id .free)
  | releasesAtOnce {id : Nat} {calls : List (ClientFrame × Nat)} :
      before.calls = (.release, id) :: calls →
        ClientMove before .release (Client.notify { before with calls } id .free)
  | retries {closedForError : Bool} {id : Nat} {calls : List (ClientFrame × Nat)}
      {readBuffer writeBuffer : Buffer} {outcome : InitOutcome} {after : Client} :
      before.calls = (.retry closedForError, id) :: calls →
      closedForError = true ∧ before.retryCount < before.retries →
      (Client.attempt { before with calls, retryCount := before.retryCount + 1 }
        readBuffer writeBuffer).call (before.current + 1)
          (fun handlers connection => connectionInit handlers connection outcome) = some after →
        ClientMove before (.retry readBuffer writeBuffer outcome) after
  | givesUp {closedForError : Bool} {id : Nat} {calls : List (ClientFrame × Nat)}
      {readBuffer writeBuffer : Buffer} {outcome : InitOutcome} :
      before.calls = (.retry closedForError, id) :: calls →
      ¬ (closedForError = true ∧ before.retryCount < before.retries) →
        ClientMove before (.retry readBuffer writeBuffer outcome)
          { before with calls, exiting := true }
  | readerTakes {id : Nat} {readerQueue : Fifo Nat} {managedByAll : Bool}
      {connection : Connection} : before.readerQueue.dequeue false = (.taken id, readerQueue) →
      connectionManage (before.attempts id).connection .reader = (managedByAll, connection) →
        ClientMove before .readerDequeue { before with
          readerQueue, arriving := if managedByAll then id :: before.arriving else before.arriving
          attempts := Function.update before.attempts id { before.attempts id with connection } }
  | readerDrains {readerQueue : Fifo Nat} :
      before.readerQueue.dequeue false = (.drained, readerQueue) →
        ClientMove before .readerDequeue { before with readerQueue }
  | readerConnects {id : Nat} {arriving : List Nat} {after : Client} :
      before.arriving = id :: arriving →
      Client.call { before with arriving } id
        (fun handlers connection => connectionState handlers connection .connected) = some after →
        ClientMove before .readerConnected after
  | closes {id : Nat} {force : Bool} {after : Client} : id ≤ before.current →
      before.call id (fun handlers connection => connectionClose handlers connection force) =
        some after →
        ClientMove before (.close id force) after
  | fails {id : Nat} {error : ConnectionError} {after : Client} : id ≤ before.current →
      before.call id (fun handlers connection => connectionHandleError handlers connection error) =
        some after →
        ClientMove before (.fail id error) after
  | frees {id : Nat} : id ≤ before.current →
      ClientMove before (.free id) (before.notify id .free)

theorem clientStep_moves {before after : Client} {action : ClientAction}
    (taken : clientStep before action = some after) : ClientMove before action after := by
  cases action with
  | dequeue =>
      simp only [clientStep] at taken
      split at taken
      · next free =>
          split at taken
          · next event id queue dequeued =>
              cases taken
              exact .handles free.1 free.2 dequeued
          · next queue dequeued =>
              cases taken
              exact .drains dequeued
          · cases taken
      · cases taken
  | connect outcome =>
      simp only [clientStep] at taken
      split at taken
      · next top => exact .connects top taken
      · cases taken
  | finishConnect outcome =>
      simp only [clientStep] at taken
      split at taken
      · next top => exact .finishes top taken
      · cases taken
  | closedTest =>
      simp only [clientStep] at taken
      split at taken
      · next top =>
          cases taken
          split
          · exact .findsClosed top
          · exact .handsOver top
      · cases taken
  | handOver =>
      simp only [clientStep] at taken
      split at taken
      · next top => exact .reaches top taken
      · next top =>
          cases taken
          exact .hands top
      · cases taken
  | release =>
      simp only [clientStep] at taken
      split at taken
      · next id calls top =>
          split at taken
          · cases used : connectionNoMoreUsed (before.attempts id).connection .client with
            | mk last connection =>
                rw [used] at taken
                cases last with
                | false =>
                    cases taken
                    exact .keeps top used
                | true =>
                    cases taken
                    exact .releases top used
          · cases taken
            exact .releasesAtOnce top
      · cases taken
  | retry readBuffer writeBuffer outcome =>
      simp only [clientStep] at taken
      split at taken
      · next top =>
          split at taken
          · next again => exact .retries top again taken
          · next done =>
              cases taken
              exact .givesUp top done
      · cases taken
  | readerDequeue =>
      simp only [clientStep] at taken
      split at taken
      · next id readerQueue dequeued =>
          cases taken
          exact .readerTakes dequeued rfl
      · next dequeued =>
          cases taken
          exact .readerDrains dequeued
      · cases taken
  | readerConnected =>
      simp only [clientStep] at taken
      split at taken
      · next top => exact .readerConnects top taken
      · cases taken
  | close id force =>
      simp only [clientStep] at taken
      split at taken
      · next created => exact .closes created taken
      · cases taken
  | fail id error =>
      simp only [clientStep] at taken
      split at taken
      · next created => exact .fails created taken
      · cases taken
  | free id =>
      simp only [clientStep] at taken
      split at taken
      · next created =>
          cases taken
          exact .frees created
      · cases taken

end Aio4c
