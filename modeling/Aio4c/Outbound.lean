import Aio4c.Connection
import Aio4c.Library.Fifo
import Aio4c.Library.TransitionSystem

/-! The outbound side of one connection: the writer thread between two items of
its queue and inside `ConnectionWrite`, and the threads that announce write
interests. The writer alone touches the write buffer, so the test of an interest,
its enqueueing, and the writer's steps from item to item are what interleaves. -/

set_option autoImplicit false

namespace Aio4c

/-- A WRITE handler that puts one block after the other. -/
def appendBlocks (buffer : Buffer) : List (List UInt8) → Access Buffer
  | [] => .ok buffer
  | block :: blocks => do
      let (_, buffer) ← bufferPut buffer block block.length
      appendBlocks buffer blocks

/-- The handlers of a connection whose WRITE handlers append some blocks. -/
def appending (blocks : List (List UInt8)) : Handlers :=
  { inboundData := .ok, write := fun buffer => appendBlocks buffer blocks }

/-- Where the writer stands in `_WriterRun`: between two items, with an
OUTBOUND_DATA event taken, in `ConnectionWrite` in front of `send`, or back from
it with bytes left. -/
inductive WriterPoint where
  | idle
  | taken
  | filled (pendingCloseMemorized : Bool)
  | unfinished
  deriving DecidableEq, Repr

/-- The connection, the writer with its queue, how many calls of
`EnableWriteInterest` stand between their test and their enqueueing, and what
happened so far: the interests the queue took, the bytes appended and sent. -/
structure Outbound where
  connection : Connection
  queue : Fifo Event
  writer : WriterPoint
  interests : Nat
  accepted : Nat
  appended : List UInt8
  sent : List UInt8

def newOutbound (connection : Connection) : Outbound :=
  { connection, queue := Fifo.empty, writer := .idle, interests := 0, accepted := 0
    appended := [], sent := [] }

inductive OutboundAction where
  | enableWriteInterest
  | writerEventHandler
  | pendingClose
  | dequeue
  | fill (blocks : List (List UInt8))
  | send (count : Nat)
  | reenqueue
  deriving DecidableEq, Repr

/-- One step; `none` where the action is not the one that can happen next. -/
def outboundStep (state : Outbound) : OutboundAction → Access (Option Outbound)
  | .enableWriteInterest => do
      if state.connection.canWrite then
        let connection ← connectionEventHandle (appending []) state.connection .outboundData
        pure (some { state with connection, interests := state.interests + 1 })
      else pure (some state)
  | .writerEventHandler =>
      match state.interests with
      | 0 => pure none
      | interests + 1 =>
          let (enqueued, queue) := state.queue.push .outboundData
          pure (some { state with
            queue, interests, accepted := state.accepted + if enqueued then 1 else 0 })
  | .pendingClose => do
      pure (some { state with
        connection := ← connectionClose (appending []) state.connection false })
  | .dequeue =>
      match state.writer, state.queue.dequeue true with
      | .idle, (.taken .outboundData, queue) => pure (some { state with queue, writer := .taken })
      | .idle, (.drained, queue) => pure (some { state with queue })
      | _, _ => pure none
  | .fill blocks =>
      if state.writer = .taken ∧ state.connection.canWrite ∧
          (blocks.flatten.length : Int) ≤ state.connection.writeBuffer.size then do
        let memorized := decide (state.connection.state = .pendingClose)
        let dispatched := !bufferHasRemaining state.connection.writeBuffer
        let connection ← connectionFill (appending blocks) state.connection
        pure (some { state with
          connection, writer := .filled memorized
          appended := state.appended ++ if dispatched then blocks.flatten else [] })
      else pure none
  | .send count =>
      match state.writer with
      | .filled memorized => do
          let ((unfinished, bytes, _), connection) ←
            connectionSend (appending []) state.connection memorized (.count count)
          pure (some { state with
            connection, sent := state.sent ++ bytes
            writer := if unfinished then .unfinished else .idle })
      | _ => pure none
  | .reenqueue =>
      if state.writer = .unfinished then
        let (_, queue) := state.queue.push .outboundData
        pure (some { state with queue, writer := .idle })
      else pure none

def outboundNext (state : Outbound) (action : OutboundAction) : Option Outbound :=
  match outboundStep state action with
  | .ok outcome => outcome
  | .error _ => none

def OutboundStep (before : Outbound) (action : OutboundAction) (after : Outbound) : Prop :=
  outboundNext before action = some after

end Aio4c
