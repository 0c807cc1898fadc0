import Aio4c.InboundFidelity
import Aio4c.OutboundAccounting

/-! A connection whose socket does not block. A call of `send` or `recv` that would have to
wait fails, and the error branches of `ConnectionWrite` and `ConnectionRead` do not tell that
failure from any other. -/

set_option autoImplicit false

namespace Aio4c

open SignedInt TransitionSystem

/-- A handler of WRITE: what it leaves of a buffer in order is in order. -/
structure WriteHandler where
  run : Buffer → Access Buffer
  keeps : ∀ buffer after, buffer.Allocated → buffer.Ordered → run buffer = .ok after →
    after.Allocated ∧ after.Ordered

def WriteHandler.handlers (handler : WriteHandler) : Handlers :=
  { inboundData := .ok, write := handler.run }

/-- The handlers of a connection in a pipe: what was read is copied for a worker. -/
def pipeHandlers (malloc : Nat → Bool) (pool : BufferPool) (write : Buffer → Access Buffer) :
    Handlers :=
  { inboundData := fun buffer => do
      let (_, readBuffer, _) ← workerReadHandler malloc pool buffer
      return readBuffer
    write }

/-- The connection, the writer's queue, and of the bytes that were last offered to `send` those
that it did not accept. -/
structure Traffic where
  connection : Connection
  queue : Fifo Event
  left : List UInt8

def newTraffic (connection : Connection) : Traffic :=
  { connection, queue := Fifo.empty, left := [] }

/-- A call on the connection. A read finds the worker's pool as the other connections left it;
a call of `send` or `recv` that fails would have blocked or was interrupted. -/
inductive TrafficAction where
  | enableWriteInterest
  | close
  | read (malloc : Nat → Bool) (pool : BufferPool) (recv : RecvOutcome)
  | drained
  | write (handler : WriteHandler) (send : SendOutcome)

/-- The writer's handler of CLOSE, where the connection was closed. -/
def Traffic.moved (state : Traffic) (connection : Connection) : Traffic :=
  { state with
    connection
    queue :=
      if connection.state = .closed ∧ state.connection.state ≠ .closed then
        (state.queue.push .close).2
      else state.queue }

/-- One call; `none` where it cannot happen next, and where memory runs out for the copy. -/
def trafficStep (state : Traffic) : TrafficAction → Option Traffic
  | .enableWriteInterest =>
      if state.connection.canWrite then do
        let connection ←
          (connectionEventHandle (appending []) state.connection .outboundData).toOption
        some { state with connection, queue := (state.queue.push .outboundData).2 }
      else some state
  | .close => do
      let connection ← (connectionClose (appending []) state.connection false).toOption
      some { state with connection }
  | .read malloc pool recv =>
      -- the end of the stream is no part of these runs
      if recv = .bytes [] then none
      else do
        let connection ←
          (connectionRead (pipeHandlers malloc pool .ok) state.connection recv).toOption
        some (state.moved connection)
  | .drained =>
      match state.queue.dequeue true with
      | (.drained, queue) => some { state with queue }
      | _ => none
  | .write handler send =>
      match state.queue.dequeue true with
      | (.taken .outboundData, queue) => do
          let offered ← (connectionFill handler.handlers state.connection).toOption
          let ((unfinished, sent, _), connection) ←
            (connectionWrite handler.handlers state.connection send).toOption
          let state := { state with queue, left := offered.writeBuffer.window.drop sent.length }
          if unfinished then
            some { state with connection, queue := (state.queue.push .outboundData).2 }
          else some (state.moved connection)
      | _ => none

def TrafficStep (before : Traffic) (action : TrafficAction) (after : Traffic) : Prop :=
  trafficStep before action = some after

/-- No call fails, and one of `recv` has room to read into. -/
def Unblocked (state : Traffic) : TrafficAction → Prop
  | .read _ _ recv => recv ≠ .error ∧ bufferHasRemaining state.connection.readBuffer = true
  | .write _ send => send ≠ .error
  | .enableWriteInterest | .close | .drained => True

instance (state : Traffic) (action : TrafficAction) : Decidable (Unblocked state action) :=
  match action with
  | .read _ _ recv => inferInstanceAs (Decidable (recv ≠ .error ∧ _))
  | .write _ send => inferInstanceAs (Decidable (send ≠ .error))
  | .enableWriteInterest | .close | .drained => isTrue trivial

/-- The connection is not closed and has no error noted since the start, and what `send` did
not accept is in the write buffer, with an event queued for it. -/
structure Traffic.Harmless (start : Connection) (state : Traffic) : Prop where
  alive : state.connection.state = .connected ∨ state.connection.state = .pendingClose
  unset : state.connection.closedForError = start.closedForError
  kept : state.left ≠ [] → state.connection.writeBuffer.window = state.left
  queued : state.left ≠ [] → .outboundData ∈ state.queue.items

/-- A connection that was connected and not closed since, with any content of its buffers. -/
structure Connection.Connected (connection : Connection) : Prop extends connection.Writable where
  alive : connection.state = .connected ∨ connection.state = .pendingClose
  readAllocated : connection.readBuffer.Allocated
  readOrdered : connection.readBuffer.Ordered

/-- What holds between two calls as long as none of them fails. -/
structure Traffic.Sound (start : Connection) (state : Traffic) : Prop extends
    state.Harmless start where
  connected : state.connection.Connected
  endless : state.queue.exit = false

/-! ## The calls -/

section

variable {handlers : Handlers} {connection after : Connection}

theorem connectionFill_frame {handler : WriteHandler} (writable : connection.Writable)
    (result : connectionFill handler.handlers connection = .ok after) :
    ∃ buffer events, after = { connection with writeBuffer := buffer, events } ∧
      buffer.Allocated ∧ buffer.Ordered := by
  cases remaining : bufferHasRemaining connection.writeBuffer with
  | true =>
      rw [connectionFill_left handler.handlers remaining] at result
      cases result
      exact ⟨_, _, rfl, writable.allocated, writable.ordered⟩
  | false =>
      simp only [connectionFill, remaining, Bool.not_false, if_true] at result
      obtain ⟨reset, emptied, result⟩ := Access.bind_ok result
      obtain ⟨dispatched, handled, flipped⟩ := Access.bind_ok result
      obtain ⟨filled, wrote, set⟩ := Access.bind_ok handled
      have clear := Buffer.Allocated.reset writable.allocated emptied
      obtain ⟨allocated, ordered⟩ := handler.keeps _ _ clear.toAllocated clear.ordered wrote
      cases set
      cases flipped
      exact ⟨_, _, rfl, allocated.move _ _, bufferFlip_ordered ordered⟩

theorem connectionSend_fails {memorized unfinished shutdown : Bool} {bytes : List UInt8}
    (result : connectionSend handlers connection memorized .error =
      .ok ((unfinished, bytes, shutdown), after)) :
    unfinished = false ∧ after.state = .closed := by
  simp only [connectionSend] at result
  split at result
  · obtain ⟨closed, failed, made⟩ := Access.bind_ok result
    cases made
    exact ⟨rfl, connectionHandleError_closed failed⟩
  · obtain ⟨closed, failed, made⟩ := Access.bind_ok result
    cases made
    exact ⟨rfl, connectionHandleError_closed failed⟩

/-- What the handler of INBOUND_DATA leaves of a buffer in order is in order. -/
theorem workerReadHandler_keeps {malloc : Nat → Bool} {pool : BufferPool} {buffer filled : Buffer}
    (allocated : buffer.Allocated)
    (result : (pipeHandlers malloc pool .ok).inboundData buffer = .ok filled) :
    filled.Allocated ∧ filled.Ordered := by
  obtain ⟨copied, handled, made⟩ := Access.bind_ok result
  cases made
  unfold workerReadHandler at handled
  obtain ⟨taken, _, handled⟩ := Access.bind_ok handled
  split at handled
  · cases handled
  · obtain ⟨copy, _, handled⟩ := Access.bind_ok handled
    obtain ⟨reset, emptied, made⟩ := Access.bind_ok handled
    cases made
    have clear := Buffer.Allocated.reset (allocated.move 0 buffer.position) emptied
    exact ⟨clear.toAllocated, clear.ordered⟩

/-- A `recv` that finds room and gets bytes puts them behind the position. -/
theorem connectionReceive_room (handlers : Handlers) {bytes : List UInt8}
    (allocated : connection.readBuffer.Allocated) (ordered : connection.readBuffer.Ordered)
    (room : bufferHasRemaining connection.readBuffer = true) (received : bytes ≠ []) :
    ∃ nbRead buffer, connectionReceive handlers connection (.bytes bytes) =
        .ok (some nbRead, { connection with readBuffer := buffer }) ∧
      buffer.Allocated ∧ buffer.Ordered ∧ buffer.size = connection.readBuffer.size ∧
      buffer.position + nbRead ≤ buffer.limit := by
  have positive : connection.readBuffer.position < connection.readBuffer.limit :=
    of_decide_eq_true room
  have nonneg := ordered.nonneg
  have within := ordered.within
  generalize limited : bytes.take (sizeT (bufferRemaining connection.readBuffer)) = chunk
  have length : chunk.length =
      min (connection.readBuffer.limit - connection.readBuffer.position).toNat bytes.length := by
    rw [← limited, List.length_take, sizeT_remaining allocated.toBlock ordered]
  have some_bytes : 0 < bytes.length := List.length_pos_iff.mpr received
  have fits : connection.readBuffer.position + chunk.length ≤ connection.readBuffer.limit := by
    omega
  have written := (allocated.toBlock.overwrite chunk nonneg (by omega) 0 0).1
  refine ⟨chunk.length, _, ?_, allocated.overwrite chunk nonneg (by omega)
    connection.readBuffer.position connection.readBuffer.limit,
    ⟨nonneg, ordered.below, within⟩, rfl, fits⟩
  simp only [connectionReceive, room, Bool.not_true, Bool.false_eq_true, if_false, limited, written,
    bind, Except.bind, pure, Except.pure]
  rw [if_neg (by omega)]

/-- Data that may not be read is dropped; either way the buffer stays in order. -/
theorem connectionAdmit_room {nbRead : Nat} (allocated : connection.readBuffer.Allocated)
    (ordered : connection.readBuffer.Ordered)
    (fits : connection.readBuffer.position + nbRead ≤ connection.readBuffer.limit) :
    ∃ buffer, connectionAdmit connection nbRead =
        .ok (connection.canRead, { connection with readBuffer := buffer }) ∧
      buffer.Allocated ∧ buffer.Ordered ∧ buffer.size = connection.readBuffer.size := by
  have nonneg := ordered.nonneg
  have within := ordered.within
  have small := allocated.small
  cases canRead : connection.canRead with
  | false =>
      obtain ⟨reset, emptied, clear, size⟩ := bufferReset_clear allocated
      refine ⟨reset, ?_, clear.toAllocated, clear.ordered, size⟩
      simp only [connectionAdmit, canRead, Bool.not_false, if_true, emptied, bind, Except.bind,
        pure, Except.pure]
  | true =>
      have advance : int32 (connection.readBuffer.position + nbRead) =
          connection.readBuffer.position + nbRead := int32_of_mem (by omega) (by omega)
      refine ⟨{ connection.readBuffer with
          position := connection.readBuffer.position + nbRead }, ?_,
        allocated.move _ _, ⟨by simp only; omega, fits, within⟩, rfl⟩
      simp only [connectionAdmit, canRead, Bool.not_true, Bool.false_eq_true, if_false, advance,
        bufferPosition, if_neg (Int.not_lt.mpr fits), gt_iff_lt, pure, Except.pure]

/-- A read that finds room and gets bytes comes to what the worker's handler makes of them. -/
theorem connectionRead_room (handlers : Handlers) {bytes : List UInt8}
    (allocated : connection.readBuffer.Allocated) (ordered : connection.readBuffer.Ordered)
    (room : bufferHasRemaining connection.readBuffer = true) (received : bytes ≠ []) :
    ∃ buffer, connectionRead handlers connection (.bytes bytes) =
        (if connection.canRead = true then
          connectionEventHandle handlers { connection with readBuffer := buffer } .inboundData
        else .ok { connection with readBuffer := buffer }) ∧
      buffer.Allocated ∧ buffer.Ordered ∧ buffer.size = connection.readBuffer.size := by
  obtain ⟨nbRead, filled, receive, filledKept, inOrder, filledSize, fits⟩ :=
    connectionReceive_room handlers allocated ordered room received
  have admission : ∃ buffer, connectionAdmit { connection with readBuffer := filled } nbRead =
        .ok (connection.canRead, { connection with readBuffer := buffer }) ∧
      buffer.Allocated ∧ buffer.Ordered ∧ buffer.size = filled.size :=
    connectionAdmit_room filledKept inOrder fits
  obtain ⟨buffer, decided, bufferKept, bufferOrdered, size⟩ := admission
  refine ⟨buffer, ?_, bufferKept, bufferOrdered, size.trans filledSize⟩
  simp only [connectionRead, receive, decided, bind, Except.bind]
  rfl

/-- A read that finds room and gets bytes keeps all but the read buffer. -/
theorem connectionRead_frame {malloc : Nat → Bool} {pool : BufferPool} {bytes : List UInt8}
    (allocated : connection.readBuffer.Allocated) (ordered : connection.readBuffer.Ordered)
    (room : bufferHasRemaining connection.readBuffer = true) (received : bytes ≠ [])
    (result : connectionRead (pipeHandlers malloc pool .ok) connection (.bytes bytes) = .ok after) :
    ∃ buffer events, after = { connection with readBuffer := buffer, events } ∧
      buffer.Allocated ∧ buffer.Ordered := by
  obtain ⟨buffer, comes, bufferKept, bufferOrdered, _⟩ :=
    connectionRead_room (pipeHandlers malloc pool .ok) allocated ordered room received
  rw [comes] at result
  split at result
  · obtain ⟨handled, handler, made⟩ := Access.bind_ok result
    cases made
    exact ⟨handled, _, rfl, workerReadHandler_keeps bufferKept handler⟩
  · cases result
    exact ⟨buffer, _, rfl, bufferKept, bufferOrdered⟩

/-- A read without room, and one that fails, closes. -/
theorem connectionRead_fails {recv : RecvOutcome}
    (blocked : ¬ (recv ≠ .error ∧ bufferHasRemaining connection.readBuffer = true))
    (result : connectionRead handlers connection recv = .ok after) : after.state = .closed := by
  obtain ⟨received, receive, result⟩ := Access.bind_ok result
  simp only [connectionReceive] at receive
  cases room : bufferHasRemaining connection.readBuffer with
  | false =>
      simp only [room, Bool.not_false, if_true] at receive
      obtain ⟨closed, failed, made⟩ := Access.bind_ok receive
      cases made
      cases result
      exact connectionHandleError_closed failed
  | true =>
      have failing : recv = .error := by
        by_contra other
        exact blocked ⟨other, room⟩
      subst failing
      simp only [room, Bool.not_true, Bool.false_eq_true, if_false] at receive
      obtain ⟨closed, failed, made⟩ := Access.bind_ok receive
      cases made
      cases result
      exact connectionHandleError_closed failed

/-- What `send` did not accept stays in the write buffer, and the caller is told. -/
theorem connectionWrite_frame {handler : WriteHandler} {offered : Connection} {count : Nat}
    {unfinished shutdown : Bool} {sent : List UInt8} (writable : connection.Writable)
    (fill : connectionFill handler.handlers connection = .ok offered)
    (result : connectionWrite handler.handlers connection (.count count) =
      .ok ((unfinished, sent, shutdown), after)) :
    ∃ buffer events, after = { connection with writeBuffer := buffer, events } ∧
      buffer.Allocated ∧ buffer.Ordered ∧ unfinished = bufferHasRemaining buffer ∧
      buffer.window = offered.writeBuffer.window.drop sent.length := by
  simp only [connectionWrite, writable.canWrite, Bool.not_true, Bool.false_eq_true, if_false]
    at result
  obtain ⟨_, again, result⟩ := Access.bind_ok result
  rw [fill] at again
  cases again
  obtain ⟨filled, events, same, allocated, ordered⟩ := connectionFill_frame writable fill
  subst same
  have offer : Connection.Writable { connection with writeBuffer := filled, events } :=
    ⟨writable.canWrite, allocated, ordered⟩
  obtain ⟨more, bytes, ended, buffer, send, kept, remaining, rest⟩ :=
    connectionSend_ok handler.handlers offer (decide (connection.state = .pendingClose)) count
  rw [send] at result
  cases result
  refine ⟨buffer, events, rfl, kept.allocated, kept.ordered, remaining, ?_⟩
  rw [← rest, List.drop_left]

theorem connectionWrite_fails {unfinished shutdown : Bool} {sent : List UInt8}
    (result : connectionWrite handlers connection .error =
      .ok ((unfinished, sent, shutdown), after)) :
    unfinished = false ∧ after.state = .closed := by
  simp only [connectionWrite] at result
  split at result
  · obtain ⟨closed, failed, made⟩ := Access.bind_ok result
    cases made
    exact ⟨rfl, connectionHandleError_closed failed⟩
  · obtain ⟨filled, _, result⟩ := Access.bind_ok result
    exact connectionSend_fails result

end

/-! ## Every step -/

section

variable {state after : Traffic}

theorem trafficStep_read {malloc : Nat → Bool} {pool : BufferPool} {recv : RecvOutcome}
    (step : TrafficStep state (.read malloc pool recv) after) :
    recv ≠ .bytes [] ∧ ∃ connection,
      connectionRead (pipeHandlers malloc pool .ok) state.connection recv = .ok connection ∧
        after = state.moved connection := by
  simp only [TrafficStep, trafficStep, Option.ite_none_left_eq_some] at step
  obtain ⟨received, step⟩ := step
  obtain ⟨connection, result, made⟩ := Access.toOption_bind step
  exact ⟨received, connection, result, (Option.some.inj made).symm⟩

theorem trafficStep_write {handler : WriteHandler} {send : SendOutcome}
    (step : TrafficStep state (.write handler send) after) :
    ∃ queue offered unfinished sent shutdown connection,
      state.queue.dequeue true = (.taken .outboundData, queue) ∧
      connectionFill handler.handlers state.connection = .ok offered ∧
      connectionWrite handler.handlers state.connection send =
        .ok ((unfinished, sent, shutdown), connection) ∧
      after =
        if unfinished = true then
          { connection, queue := (queue.push .outboundData).2
            left := offered.writeBuffer.window.drop sent.length }
        else
          { state with queue, left := offered.writeBuffer.window.drop sent.length }.moved
            connection := by
  simp only [TrafficStep, trafficStep] at step
  split at step
  · next queue attempt =>
      obtain ⟨offered, fill, step⟩ := Access.toOption_bind step
      obtain ⟨outcome, result, made⟩ := Access.toOption_bind step
      obtain ⟨⟨unfinished, sent, shutdown⟩, connection⟩ := outcome
      refine ⟨queue, offered, unfinished, sent, shutdown, connection, attempt, fill, result, ?_⟩
      cases unfinished with
      | false => exact (Option.some.inj made).symm
      | true => exact (Option.some.inj made).symm
  · cases step

end

theorem newTraffic_sound {connection : Connection} (connected : connection.Connected) :
    (newTraffic connection).Sound connection :=
  { alive := connected.alive, unset := rfl, kept := by simp [newTraffic]
    queued := by simp [newTraffic], connected, endless := rfl }

theorem ConnectionState.unclosed {state : ConnectionState}
    (alive : state = .connected ∨ state = .pendingClose) : state ≠ .closed := by
  cases alive with
  | inl connected => simp [connected]
  | inr pending => simp [pending]

theorem Traffic.moved_alive {state : Traffic} {connection : Connection}
    (alive : connection.state = .connected ∨ connection.state = .pendingClose) :
    state.moved connection = { state with connection } := by
  simp [Traffic.moved, ConnectionState.unclosed alive]

namespace Traffic.Sound

variable {start : Connection} {state after : Traffic}

theorem enableWriteInterest (sound : state.Sound start)
    (step : TrafficStep state .enableWriteInterest after) : after.Sound start := by
  have connected := sound.connected
  simp only [TrafficStep, trafficStep, connected.canWrite, if_true] at step
  cases step
  exact
    { alive := connected.alive, unset := sound.unset, kept := sound.kept
      queued := fun _ => by simp [Fifo.push_items sound.endless]
      connected :=
        ⟨⟨connected.canWrite, connected.allocated, connected.ordered⟩, connected.alive,
          connected.readAllocated, connected.readOrdered⟩
      endless := Fifo.push_exit sound.endless _ }

theorem close (sound : state.Sound start) (step : TrafficStep state .close after) :
    after.Sound start := by
  have connected := sound.connected
  simp only [TrafficStep, trafficStep, connectionClose, Bool.false_eq_true, if_false,
    connectionState_eq] at step
  by_cases pending : state.connection.state = .pendingClose
  · rw [if_pos pending] at step
    cases step
    exact sound
  · rw [if_neg pending] at step
    cases step
    exact
      { alive := Or.inr rfl, unset := sound.unset, kept := sound.kept, queued := sound.queued
        connected := ⟨⟨rfl, connected.allocated, connected.ordered⟩, Or.inr rfl,
          connected.readAllocated, connected.readOrdered⟩
        endless := sound.endless }

theorem drained (sound : state.Sound start) (step : TrafficStep state .drained after) :
    after.Sound start := by
  simp only [TrafficStep, trafficStep] at step
  split at step
  · next queue attempt =>
      obtain ⟨items, exit, _⟩ := Fifo.dequeue_missed attempt (by simp)
      cases step
      exact { sound with queued := items ▸ sound.queued, endless := exit.trans sound.endless }
  · cases step

theorem read (sound : state.Sound start) {malloc : Nat → Bool} {pool : BufferPool}
    {recv : RecvOutcome} (step : TrafficStep state (.read malloc pool recv) after)
    (unblocked : Unblocked state (.read malloc pool recv)) : after.Sound start := by
  have connected := sound.connected
  obtain ⟨succeeds, room⟩ := unblocked
  obtain ⟨received, connection, result, same⟩ := trafficStep_read step
  cases recv with
  | error => exact absurd rfl succeeds
  | bytes bytes =>
      obtain ⟨buffer, events, moved, allocated, ordered⟩ := connectionRead_frame
        connected.readAllocated connected.readOrdered room (by simpa using received) result
      subst moved
      have connected' :
          Connection.Connected { state.connection with readBuffer := buffer, events } :=
        ⟨⟨connected.canWrite, connected.allocated, connected.ordered⟩, connected.alive, allocated,
          ordered⟩
      rw [Traffic.moved_alive connected'.alive] at same
      subst same
      exact
        { alive := connected.alive, unset := sound.unset, kept := sound.kept
          queued := sound.queued, connected := connected', endless := sound.endless }

theorem write (sound : state.Sound start) {handler : WriteHandler} {send : SendOutcome}
    (step : TrafficStep state (.write handler send) after)
    (unblocked : Unblocked state (.write handler send)) : after.Sound start := by
  have connected := sound.connected
  obtain ⟨queue, offered, unfinished, sent, shutdown, connection, attempt, fill, result, same⟩ :=
    trafficStep_write step
  have endless : queue.exit = false := (Fifo.dequeue_taken attempt).2.trans sound.endless
  cases send with
  | error => exact absurd rfl unblocked
  | count count =>
      obtain ⟨buffer, events, moved, allocated, ordered, remaining, rest⟩ :=
        connectionWrite_frame connected.toWritable fill result
      subst moved
      have connected' :
          Connection.Connected { state.connection with writeBuffer := buffer, events } :=
        ⟨⟨connected.canWrite, allocated, ordered⟩, connected.alive, connected.readAllocated,
          connected.readOrdered⟩
      cases unfinished with
      | true =>
          rw [if_pos rfl] at same
          subst same
          exact
            { alive := connected.alive, unset := sound.unset, kept := fun _ => rest
              queued := fun _ => by simp [Fifo.push_items endless]
              connected := connected', endless := Fifo.push_exit endless _ }
      | false =>
          -- nothing is left where the caller is not told to come back
          have empty : offered.writeBuffer.window.drop sent.length = [] := by
            by_contra more
            rw [← rest] at more
            exact Bool.false_ne_true (remaining.trans (Buffer.hasRemaining_of_window more))
          rw [if_neg Bool.false_ne_true, Traffic.moved_alive connected'.alive] at same
          subst same
          exact
            { alive := connected.alive, unset := sound.unset, kept := fun _ => rest
              queued := fun more => absurd empty more
              connected := connected', endless := endless }

end Traffic.Sound

theorem trafficStep_sound {start : Connection} {state after : Traffic} {action : TrafficAction}
    (sound : state.Sound start) (step : TrafficStep state action after)
    (unblocked : Unblocked state action) : after.Sound start := by
  cases action with
  | enableWriteInterest => exact sound.enableWriteInterest step
  | close => exact sound.close step
  | read malloc pool recv => exact sound.read step unblocked
  | drained => exact sound.drained step
  | write handler send => exact sound.write step unblocked

/-- A call that fails, and a read without room, closes the connection. -/
theorem trafficStep_closes {state after : Traffic} {action : TrafficAction}
    (step : TrafficStep state action after) (blocked : ¬ Unblocked state action) :
    after.connection.state = .closed := by
  cases action with
  | enableWriteInterest | close | drained => exact absurd trivial blocked
  | read malloc pool recv =>
      obtain ⟨_, connection, result, same⟩ := trafficStep_read step
      subst same
      exact connectionRead_fails blocked result
  | write handler send =>
      obtain ⟨queue, offered, unfinished, sent, shutdown, connection, _, _, result, same⟩ :=
        trafficStep_write step
      have failing : send = .error := not_not.mp blocked
      subst failing
      obtain ⟨done, closed⟩ := connectionWrite_fails result
      rw [if_neg (by simp [done])] at same
      subst same
      exact closed

/-- As long as no call of `send` and `recv` fails and every `recv` finds room, the connection
stays open and nothing of what `send` left is lost; the first call that fails, and the first
`recv` without room, closes it. -/
theorem traffic_harmless_iff {connection : Connection} (connected : connection.Connected)
    {actions : List TrafficAction} {state : Traffic}
    (run : Run (Guarded Unblocked TrafficStep) (newTraffic connection) actions state) :
    state.Harmless connection ∧
      ∀ action after, TrafficStep state action after →
        (after.Harmless connection ↔ Unblocked state action) := by
  have sound : state.Sound connection := by
    apply run.keeps _ (newTraffic_sound connected)
    intro before action after sound step
    exact trafficStep_sound sound step.2 step.1
  refine ⟨sound.toHarmless, ?_⟩
  intro action after step
  constructor
  · intro harmless
    by_contra blocked
    exact ConnectionState.unclosed harmless.alive (trafficStep_closes step blocked)
  · intro unblocked
    exact (trafficStep_sound sound step unblocked).toHarmless

theorem bufferPut_byte_keeps (byte : UInt8) {buffer after : Buffer} (allocated : buffer.Allocated)
    (ordered : buffer.Ordered)
    (result : (bufferPut buffer [byte] ([byte] : List UInt8).length).map Prod.snd = .ok after) :
    after.Allocated ∧ after.Ordered := by
  have nonneg := ordered.nonneg
  have below := ordered.below
  have within := ordered.within
  have small := allocated.small
  have one : (([byte] : List UInt8).length : Int) = 1 := rfl
  by_cases fits : buffer.position + ([byte] : List UInt8).length ≤ buffer.limit
  · rw [bufferPut_ok allocated.toBlock ordered fits] at result
    cases result
    exact ⟨allocated.overwrite [byte] nonneg (by omega) _ _, ⟨by simp only; omega, fits, within⟩⟩
  · rw [bufferPut_overflow ordered (by omega) (by omega)] at result
    cases result
    exact ⟨allocated, ordered⟩

/-- A handler of WRITE that puts one byte. -/
def WriteHandler.putByte (byte : UInt8) : WriteHandler :=
  { run := fun buffer => (bufferPut buffer [byte] ([byte] : List UInt8).length).map Prod.snd
    keeps := fun _ _ => bufferPut_byte_keeps byte }

/-- A connection with empty buffers of two bytes. -/
def twoByteConnection : Connection :=
  { newConnection ⟨2, [0, 0, 0, 0], 0, 2⟩ ⟨2, [0, 0, 0, 0], 0, 2⟩ with
    state := .connected, canRead := true, canWrite := true }

theorem twoByteConnection_connected : twoByteConnection.Connected :=
  ⟨⟨rfl, ⟨⟨by decide, by decide, by decide⟩, by decide⟩, by decide⟩, Or.inl rfl,
    ⟨⟨by decide, by decide, by decide⟩, by decide⟩, by decide⟩

/-- A byte that `send` does not take yet. -/
theorem traffic_harmless_unsent :
    ∃ state, Run (Guarded Unblocked TrafficStep) (newTraffic twoByteConnection)
        [.enableWriteInterest, .write (.putByte 7) (.count 0), .drained] state ∧
      state.Harmless twoByteConnection ∧
      ∀ action after, TrafficStep state action after →
        (after.Harmless twoByteConnection ↔ Unblocked state action) := by
  obtain ⟨state, _, run⟩ := exists_run_of_execute (Guarded Unblocked TrafficStep)
    (guardedNext Unblocked trafficStep) (newTraffic twoByteConnection)
    [.enableWriteInterest, .write (.putByte 7) (.count 0), .drained]
    (fun _ _ _ taken => guardedNext_sound taken) (by decide)
  exact ⟨state, run, traffic_harmless_iff twoByteConnection_connected run⟩

/-- A byte for which the socket has no room: the connection is closed for an error. -/
theorem traffic_closes :
    ¬ ∀ (connection : Connection) (actions : List TrafficAction) (state : Traffic),
        connection.Connected → Run TrafficStep (newTraffic connection) actions state →
        state.Harmless connection := by
  intro harmless
  obtain ⟨state, reached, run⟩ := exists_run_of_execute TrafficStep trafficStep
    (newTraffic twoByteConnection) [.enableWriteInterest, .write (.putByte 7) .error]
    (fun _ _ _ step => step) (by decide)
  have closed : (execute trafficStep (newTraffic twoByteConnection)
      [.enableWriteInterest, .write (.putByte 7) .error]).map (·.connection.state) =
        some .closed := by decide
  rw [reached, Option.map_some, Option.some.injEq] at closed
  have alive := (harmless _ _ _ twoByteConnection_connected run).alive
  exact ConnectionState.unclosed alive closed

end Aio4c
