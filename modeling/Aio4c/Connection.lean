import Aio4c.Event
import Aio4c.BufferProperties

/-! Connections: their state, their two buffers, and the seven functions that
drive the state. System calls are parameters; every dispatched event is recorded.
The name and the address of a connection only serve its logs and are left out. -/

set_option autoImplicit false

namespace Aio4c

open SignedInt

inductive ConnectionState where
  | none
  | initialized
  | connecting
  | connected
  | pendingClose
  | closed
  deriving DecidableEq, Repr

inductive ConnectionOwner where
  | reader
  | worker
  | writer
  | acceptor
  | client
  deriving DecidableEq, Repr

def ConnectionOwner.all : List ConnectionOwner := [.reader, .worker, .writer, .acceptor, .client]

structure Connection where
  readBuffer : Buffer
  writeBuffer : Buffer
  socket : Int
  state : ConnectionState
  closedForError : Bool
  closedBy : ConnectionOwner → Bool
  managedBy : ConnectionOwner → Bool
  canRead : Bool
  canWrite : Bool
  events : List Event

/-- `NewConnection` with the two buffers taken from its pool. -/
def newConnection (readBuffer writeBuffer : Buffer) : Connection :=
  { readBuffer, writeBuffer := (bufferLimit writeBuffer 0).2, socket := -1, state := .none
    closedForError := false
    closedBy := fun owner => decide (owner = .acceptor)
    managedBy := fun owner => decide (owner = .acceptor ∨ owner = .client)
    canRead := false, canWrite := false, events := [] }

/-- `ConnectionFactoryCreate` up to the copied handlers; `none` where `fcntl` fails. -/
def connectionFactoryCreate (readBuffer writeBuffer : Buffer) (socket : Int) (nonblocking : Bool) :
    Option Connection :=
  if nonblocking then
    some { newConnection readBuffer writeBuffer with
      socket, closedBy := fun owner => decide (owner = .client) }
  else none

/-- What the handlers of the two data events do to the buffer they are given. -/
structure Handlers where
  inboundData : Buffer → Access Buffer
  write : Buffer → Access Buffer

def connectionEventHandle (handlers : Handlers) (connection : Connection) (event : Event) :
    Access Connection := do
  let connection := { connection with events := connection.events ++ [event] }
  match event with
  | .inboundData => do
      pure { connection with readBuffer := ← handlers.inboundData connection.readBuffer }
  | .write => do
      pure { connection with writeBuffer := ← handlers.write connection.writeBuffer }
  | _ => pure connection

/-- The assignments of `_ConnectionState` in front of the dispatch. -/
def enterState (connection : Connection) (state : ConnectionState) : Connection :=
  match state with
  | .none | .initialized => { connection with state }
  | .connecting => { connection with state, canRead := false, canWrite := false }
  | .connected => { connection with state, canRead := true, canWrite := true }
  | .pendingClose => { connection with state, canRead := false, canWrite := true }
  | .closed => { connection with state, canRead := false, canWrite := false }

/-- The event that `_ConnectionState` dispatches for a state. -/
def stateEvent : ConnectionState → Option Event
  | .none => none
  | .initialized => some .init
  | .connecting => some .connecting
  | .connected => some .connected
  | .pendingClose => some .pendingClose
  | .closed => some .close

def connectionState (handlers : Handlers) (connection : Connection) (state : ConnectionState) :
    Access Connection :=
  if connection.state = state then .ok connection
  else
    match stateEvent state with
    | none => .ok (enterState connection state)
    | some event => connectionEventHandle handlers (enterState connection state) event

def connectionClose (handlers : Handlers) (connection : Connection) (force : Bool) :
    Access Connection :=
  if force then connectionState handlers connection .closed
  else connectionState handlers connection .pendingClose

inductive ConnectionError where
  | bufferOverflow
  | bufferUnderflow
  | connectionState
  | disconnected
  | socket
  | fcntl
  | connect
  | poll
  | getsockopt
  | finishConnect
  | read
  | write
  deriving DecidableEq, Repr

/-- `_ConnectionHandleError`; raising the error only logs it. -/
def connectionHandleError (handlers : Handlers) (connection : Connection)
    (error : ConnectionError) : Access Connection :=
  connectionClose handlers
    { connection with closedForError := decide (error ≠ .disconnected) } true

inductive InitOutcome where
  | socketError
  | fcntlError (socket : Int)
  | opened (socket : Int)
  deriving DecidableEq, Repr

def connectionInit (handlers : Handlers) (connection : Connection) :
    InitOutcome → Access Connection
  | .socketError => connectionHandleError handlers { connection with socket := -1 } .socket
  | .fcntlError socket => connectionHandleError handlers { connection with socket } .fcntl
  | .opened socket => connectionState handlers { connection with socket } .initialized

inductive ConnectOutcome where
  | error
  | inProgress
  | connected
  deriving DecidableEq, Repr

def connectionConnect (handlers : Handlers) (connection : Connection) (outcome : ConnectOutcome) :
    Access Connection :=
  if connection.state ≠ .initialized then
    connectionHandleError handlers connection .connectionState
  else
    match outcome with
    | .error => connectionHandleError handlers connection .connect
    | .inProgress => connectionState handlers connection .connecting
    | .connected => connectionState handlers connection .connected

inductive FinishConnectOutcome where
  | pollError
  | notReady
  | getsockoptError
  | soError
  | connected
  deriving DecidableEq, Repr

def connectionFinishConnect (handlers : Handlers) (connection : Connection) :
    FinishConnectOutcome → Access Connection
  | .pollError => connectionHandleError handlers connection .poll
  | .getsockoptError => connectionHandleError handlers connection .getsockopt
  | .soError => connectionHandleError handlers connection .finishConnect
  | .notReady | .connected => .ok connection

/-- `recv`: an error, or the bytes at hand, of which it takes what fits. -/
inductive RecvOutcome where
  | error
  | bytes (bytes : List UInt8)
  deriving DecidableEq, Repr

/-- `ConnectionRead` up to the test of `canRead`: the length of what `recv` left
behind the position, or `none` where the source returns before that test. -/
def connectionReceive (handlers : Handlers) (connection : Connection) (recv : RecvOutcome) :
    Access (Option Nat × Connection) := do
  let buffer := connection.readBuffer
  if !bufferHasRemaining buffer then
    pure (none, ← connectionHandleError handlers connection .bufferOverflow)
  else
    match recv with
    | .error => pure (none, ← connectionHandleError handlers connection .read)
    | .bytes bytes =>
        let bytes := bytes.take (sizeT (bufferRemaining buffer))
        let data ← writeBytes buffer.data buffer.position bytes
        let connection := { connection with readBuffer := { buffer with data } }
        if bytes.length = 0 then
          if connection.state = .pendingClose then
            pure (none, ← connectionState handlers connection .closed)
          else pure (none, ← connectionHandleError handlers connection .disconnected)
        else pure (some bytes.length, connection)

/-- `ConnectionRead` from the test of `canRead` to the dispatch, which the flag
announces. Data that may not be read is dropped with the whole buffer. -/
def connectionAdmit (connection : Connection) (nbRead : Nat) : Access (Bool × Connection) := do
  let buffer := connection.readBuffer
  if !connection.canRead then
    pure (false, { connection with readBuffer := ← bufferReset buffer })
  else
    pure (true, { connection with
      readBuffer := (bufferPosition buffer (int32 (buffer.position + nbRead))).2 })

def connectionRead (handlers : Handlers) (connection : Connection) (recv : RecvOutcome) :
    Access Connection := do
  match ← connectionReceive handlers connection recv with
  | (none, connection) => pure connection
  | (some nbRead, connection) =>
      let (admitted, connection) ← connectionAdmit connection nbRead
      if admitted then connectionEventHandle handlers connection .inboundData else pure connection

/-- `send`: an error, or the count it is ready to take. -/
inductive SendOutcome where
  | error
  | count (count : Nat)
  deriving DecidableEq, Repr

/-- `ConnectionWrite` from the test of `canWrite` to the state that `send` finds:
the write buffer is refilled when nothing is left in it. -/
def connectionFill (handlers : Handlers) (connection : Connection) : Access Connection := do
  if !bufferHasRemaining connection.writeBuffer then
    let connection := { connection with writeBuffer := ← bufferReset connection.writeBuffer }
    let connection ← connectionEventHandle handlers connection .write
    pure { connection with writeBuffer := bufferFlip connection.writeBuffer }
  else pure connection

/-- `ConnectionWrite` from the length test to its end: whether bytes are left, the
bytes that `send` took and whether the writing end was shut down. -/
def connectionSend (handlers : Handlers) (connection : Connection) (pendingCloseMemorized : Bool)
    (send : SendOutcome) : Access ((Bool × List UInt8 × Bool) × Connection) := do
  let buffer := connection.writeBuffer
  if int32 (buffer.limit - buffer.position) < 0 then
    pure ((false, [], false), ← connectionHandleError handlers connection .bufferUnderflow)
  else
    match send with
    | .error => pure ((false, [], false), ← connectionHandleError handlers connection .write)
    | .count count =>
        let sent ← readBytes buffer.data buffer.position
          (min count (sizeT (bufferRemaining buffer)))
        let buffer := (bufferPosition buffer (int32 (buffer.position + sent.length))).2
        let connection := { connection with writeBuffer := buffer }
        if bufferHasRemaining buffer then pure ((true, sent, false), connection)
        else pure ((false, sent, pendingCloseMemorized), connection)

def connectionWrite (handlers : Handlers) (connection : Connection) (send : SendOutcome) :
    Access ((Bool × List UInt8 × Bool) × Connection) := do
  if !connection.canWrite then
    pure ((false, [], false), ← connectionHandleError handlers connection .connectionState)
  else
    let pendingCloseMemorized := decide (connection.state = .pendingClose)
    let connection ← connectionFill handlers connection
    connectionSend handlers connection pendingCloseMemorized send

def connectionNoMoreUsed (connection : Connection) (owner : ConnectionOwner) : Bool × Connection :=
  let closedBy := Function.update connection.closedBy owner true
  if ConnectionOwner.all.all closedBy then
    (true, { connection with closedBy := fun _ => false })
  else (false, { connection with closedBy })

/-- The critical section of `ConnectionManagedBy`: whether all owners are there now. -/
def connectionManage (connection : Connection) (owner : ConnectionOwner) : Bool × Connection :=
  let managedBy := Function.update connection.managedBy owner true
  (ConnectionOwner.all.all managedBy, { connection with managedBy })

def connectionManagedBy (handlers : Handlers) (connection : Connection) (owner : ConnectionOwner) :
    Access Connection :=
  let (managedByAll, connection) := connectionManage connection owner
  if managedByAll then connectionState handlers connection .connected else .ok connection

end Aio4c
