import Aio4c.BufferTransfer
import Aio4c.ConnectionLifecycle
import Aio4c.Outbound

/-! No byte and no interest is lost on the way out: one balance of bytes and one
of events and dispatches, kept by every step of the outbound side. -/

set_option autoImplicit false

namespace Aio4c

open SignedInt TransitionSystem

/-! ## Filling and sending -/

theorem appendBlocks_ok {buffer : Buffer} (allocated : buffer.Allocated)
    (ordered : buffer.Ordered) (blocks : List (List UInt8))
    (fits : buffer.position + blocks.flatten.length ≤ buffer.limit) :
    ∃ after, appendBlocks buffer blocks = .ok after ∧ after.Allocated ∧ after.Ordered ∧
      after.size = buffer.size ∧ after.front = buffer.front ++ blocks.flatten := by
  induction blocks generalizing buffer with
  | nil => exact ⟨buffer, rfl, allocated, ordered, rfl, by simp⟩
  | cons block blocks ih =>
      have nonneg := ordered.nonneg
      have within := ordered.within
      simp only [List.flatten_cons, List.length_append, Nat.cast_add] at fits
      have room : buffer.position + block.length ≤ buffer.limit := by omega
      have put := bufferPut_ok allocated.toBlock ordered room
      have front := Buffer.front_overwrite allocated.toBlock ordered room
      obtain ⟨after, result, kept, ordered', size, appended⟩ := ih
        (allocated.overwrite block nonneg (by omega)
          (buffer.position + block.length) buffer.limit)
        ⟨by simp only; omega, room, within⟩ (by simp only; omega)
      refine ⟨after, ?_, kept, ordered', size, ?_⟩
      · simp only [appendBlocks, put, bind, Except.bind]
        exact result
      · rw [appended, front, List.flatten_cons, List.append_assoc]

/-- A connection that may be written to, with a sound write buffer. -/
structure Connection.Writable (connection : Connection) : Prop where
  canWrite : connection.canWrite = true
  allocated : connection.writeBuffer.Allocated
  ordered : connection.writeBuffer.Ordered

theorem connectionFill_drained {connection : Connection} (writable : connection.Writable)
    (drained : bufferHasRemaining connection.writeBuffer = false) {blocks : List (List UInt8)}
    (fits : (blocks.flatten.length : Int) ≤ connection.writeBuffer.size) :
    ∃ buffer, connectionFill (appending blocks) connection = .ok
        { connection with writeBuffer := buffer, events := connection.events ++ [.write] } ∧
      Connection.Writable { connection with
        writeBuffer := buffer, events := connection.events ++ [.write] } ∧
      buffer.window = blocks.flatten := by
  obtain ⟨reset, resetResult, clear, size⟩ := bufferReset_clear writable.allocated
  have start := clear.start
  have whole := clear.whole
  obtain ⟨written, result, kept, ordered, _, front⟩ :=
    appendBlocks_ok clear.toAllocated clear.ordered blocks (by omega)
  refine ⟨bufferFlip written, ?_, ⟨writable.canWrite, kept.move _ _, bufferFlip_ordered ordered⟩, ?_⟩
  · simp only [connectionFill, drained, resetResult, connectionEventHandle, appending, result, bind,
      Except.bind, pure, Except.pure, Bool.not_false, if_true]
  · rw [bufferFlip_window, front, clear.front_eq, List.nil_append]

theorem connectionFill_left {connection : Connection} (handlers : Handlers)
    (left : bufferHasRemaining connection.writeBuffer = true) :
    connectionFill handlers connection = .ok connection := by
  simp only [connectionFill, left, Bool.not_true, Bool.false_eq_true, if_false, pure, Except.pure]

theorem connectionSend_ok {connection : Connection} (handlers : Handlers)
    (writable : connection.Writable) (memorized : Bool) (count : Nat) :
    ∃ unfinished bytes shutdown buffer,
      connectionSend handlers connection memorized (.count count) =
        .ok ((unfinished, bytes, shutdown), { connection with writeBuffer := buffer }) ∧
      Connection.Writable { connection with writeBuffer := buffer } ∧
      unfinished = bufferHasRemaining buffer ∧
      bytes ++ buffer.window = connection.writeBuffer.window := by
  obtain ⟨canWrite, allocated, ordered⟩ := writable
  have nonneg := ordered.nonneg
  have below := ordered.below
  have within := ordered.within
  have small := allocated.small
  have length := allocated.length
  let count' := min count (connection.writeBuffer.limit - connection.writeBuffer.position).toNat
  have upper : count' ≤ (connection.writeBuffer.limit - connection.writeBuffer.position).toNat :=
    Nat.min_le_right _ _
  let bytes := (connection.writeBuffer.data.drop connection.writeBuffer.position.toNat).take count'
  have read : readBytes connection.writeBuffer.data connection.writeBuffer.position count' =
      .ok bytes := readBytes_ok nonneg (by omega)
  have total : bytes.length = count' := by
    simp only [bytes, List.length_take, List.length_drop]
    omega
  let buffer := { connection.writeBuffer with
    position := connection.writeBuffer.position + count' }
  have advanced : (bufferPosition connection.writeBuffer
      (int32 (connection.writeBuffer.position + bytes.length))).2 = buffer := by
    rw [total, int32_of_mem (by omega) (by omega), bufferPosition, if_neg (by omega)]
  have rest : bytes ++ buffer.window = connection.writeBuffer.window := by
    have start : (connection.writeBuffer.position + count').toNat =
        connection.writeBuffer.position.toNat + count' := by omega
    have remaining : (connection.writeBuffer.limit - connection.writeBuffer.position).toNat =
        count' + (connection.writeBuffer.limit -
          (connection.writeBuffer.position + count')).toNat := by omega
    simp only [Buffer.window, bytes, buffer]
    rw [start, ← List.drop_drop, remaining, List.take_add]
  have kept : Connection.Writable { connection with writeBuffer := buffer } :=
    ⟨canWrite, allocated.move _ _, ⟨by simp only [buffer]; omega, by simp only [buffer]; omega, within⟩⟩
  have underflow : ¬ int32 (connection.writeBuffer.limit - connection.writeBuffer.position) < 0 := by
    rw [int32_of_mem (by omega) (by omega)]
    omega
  have step : connectionSend handlers connection memorized (.count count) =
      if bufferHasRemaining buffer then
        .ok ((true, bytes, false), { connection with writeBuffer := buffer })
      else .ok ((false, bytes, memorized), { connection with writeBuffer := buffer }) := by
    simp only [connectionSend, if_neg underflow, sizeT_remaining allocated.toBlock ordered]
    change (readBytes _ _ count' >>= _) = _
    rw [read]
    simp only [bind, Except.bind, advanced]
    rfl
  cases more : bufferHasRemaining buffer with
  | true =>
      rw [if_pos more] at step
      exact ⟨true, bytes, false, buffer, step, kept, more.symm, rest⟩
  | false =>
      rw [if_neg (by rw [more]; decide)] at step
      exact ⟨false, bytes, memorized, buffer, step, kept, more.symm, rest⟩

/-! ## The balance -/

/-- WRITE dispatches so far. -/
def Outbound.writes (state : Outbound) : Nat :=
  state.connection.events.count .write

/-- OUTBOUND_DATA events in the queue. -/
def Outbound.queued (state : Outbound) : Nat :=
  state.queue.items.count .outboundData

/-- One when bytes are left in the write buffer. -/
def Outbound.left (state : Outbound) : Nat :=
  if bufferHasRemaining state.connection.writeBuffer then 1 else 0

/-- What the writer owes at each of its points: a taken event counts until its
dispatch, or until the bytes it found are sent. -/
def Outbound.Accounts (state : Outbound) : Prop :=
  match state.writer with
  | .idle => state.writes + state.queued = state.accepted + state.left
  | .taken => state.writes + state.queued + 1 = state.accepted + state.left
  | .filled _ => state.writes + state.queued = state.accepted
  | .unfinished => state.writes + state.queued = state.accepted ∧ state.left = 1

structure Outbound.Balanced (state : Outbound) : Prop where
  writable : state.connection.Writable
  endless : state.queue.exit = false
  bytes : state.sent ++ state.connection.writeBuffer.window = state.appended
  accounts : state.Accounts
  requested : state.writer = .idle → state.left = 1 → Event.outboundData ∈ state.queue.items

theorem newOutbound_balanced {connection : Connection} (writable : connection.Writable)
    (drained : bufferHasRemaining connection.writeBuffer = false)
    (fresh : Event.write ∉ connection.events) : (newOutbound connection).Balanced := by
  have empty : connection.writeBuffer.window = [] := by
    apply Buffer.window_eq_nil
    simpa [bufferHasRemaining] using drained
  refine ⟨writable, rfl, by simp [newOutbound, empty], ?_, ?_⟩
  · simp [Outbound.Accounts, newOutbound, Outbound.writes, Outbound.queued, Outbound.left, drained,
      List.count_eq_zero.mpr fresh, Fifo.empty]
  · simp [Outbound.left, newOutbound, drained]

theorem Outbound.Balanced.request {state : Outbound} (balanced : state.Balanced) (interests : Nat) :
    Outbound.Balanced { state with
      queue := { state.queue with items := state.queue.items ++ [.outboundData] }
      interests, accepted := state.accepted + 1 } := by
  refine ⟨balanced.writable, balanced.endless, balanced.bytes, ?_, fun _ _ => by simp⟩
  have accounts := balanced.accounts
  have more : (state.queue.items ++ [Event.outboundData]).count .outboundData =
      state.queued + 1 := by simp [Outbound.queued]
  cases writer : state.writer <;>
    simp only [Outbound.Accounts, writer, Outbound.writes, Outbound.left, Outbound.queued, more]
      at accounts ⊢ <;> omega

theorem Outbound.Balanced.announce {state : Outbound} (balanced : state.Balanced)
    {connection : Connection} (interests : Nat) (canWrite : connection.canWrite = true)
    (buffer : connection.writeBuffer = state.connection.writeBuffer) {events : List Event}
    (logged : connection.events = state.connection.events ++ events)
    (quiet : Event.write ∉ events) : Outbound.Balanced { state with connection, interests } := by
  have writes : connection.events.count .write = state.connection.events.count .write := by
    rw [logged, List.count_append, List.count_eq_zero.mpr quiet, Nat.add_zero]
  refine ⟨⟨canWrite, ?_, ?_⟩, balanced.endless, ?_, ?_, ?_⟩
  · rw [buffer]
    exact balanced.writable.allocated
  · rw [buffer]
    exact balanced.writable.ordered
  · rw [buffer]
    exact balanced.bytes
  · have accounts := balanced.accounts
    simp only [Outbound.Accounts, Outbound.writes, Outbound.left, writes, buffer] at accounts ⊢
    exact accounts
  · intro idle left
    exact balanced.requested idle (by simpa only [Outbound.left, buffer] using left)

theorem Outbound.Balanced.dequeued {state : Outbound} (balanced : state.Balanced)
    (idle : state.writer = .idle) {queue : Fifo Event}
    (taken : state.queue.dequeue true = (.taken .outboundData, queue)) :
    Outbound.Balanced { state with queue, writer := .taken } := by
  obtain ⟨items, exit⟩ := Fifo.dequeue_taken taken
  refine ⟨balanced.writable, exit.trans balanced.endless, balanced.bytes, ?_, fun idle => ?_⟩
  · have accounts := balanced.accounts
    simp only [Outbound.Accounts, idle, Outbound.queued, items, List.count_cons_self] at accounts ⊢
    simp only [Outbound.writes, Outbound.left] at accounts ⊢
    omega
  · cases idle

/-- The mark of a drained queue says nothing about its items. -/
theorem Outbound.Balanced.drained {state : Outbound} (balanced : state.Balanced)
    {queue : Fifo Event} (drained : state.queue.dequeue true = (.drained, queue)) :
    Outbound.Balanced { state with queue } := by
  obtain ⟨items, exit, _⟩ := Fifo.dequeue_missed drained (by simp)
  refine ⟨balanced.writable, exit.trans balanced.endless, balanced.bytes, ?_, fun idle left => ?_⟩
  · have accounts := balanced.accounts
    simp only [Outbound.Accounts, Outbound.writes, Outbound.left, Outbound.queued,
      items] at accounts ⊢
    exact accounts
  · exact items ▸ balanced.requested idle left

theorem Outbound.Balanced.filled {state : Outbound} (balanced : state.Balanced)
    (taken : state.writer = .taken) {blocks : List (List UInt8)}
    (fits : (blocks.flatten.length : Int) ≤ state.connection.writeBuffer.size) (memorized : Bool) :
    ∃ connection, connectionFill (appending blocks) state.connection = .ok connection ∧
      Outbound.Balanced { state with
        connection, writer := .filled memorized
        appended := state.appended ++
          if !bufferHasRemaining state.connection.writeBuffer then blocks.flatten else [] } := by
  have accounts := balanced.accounts
  have bytes := balanced.bytes
  simp only [Outbound.Accounts, taken, Outbound.writes, Outbound.left, Outbound.queued] at accounts
  cases left : bufferHasRemaining state.connection.writeBuffer with
  | false =>
      obtain ⟨buffer, result, writable, window⟩ :=
        connectionFill_drained balanced.writable left fits
      have empty : state.connection.writeBuffer.window = [] := by
        apply Buffer.window_eq_nil
        simpa [bufferHasRemaining] using left
      refine ⟨_, result, writable, balanced.endless, ?_, ?_, fun idle => by cases idle⟩
      · simp only [empty, List.append_nil] at bytes
        simp [window, bytes]
      · rw [left] at accounts
        simp only [Outbound.Accounts, Outbound.writes, Outbound.queued, List.count_append,
          List.count_singleton_self]
        simp only [Bool.false_eq_true, if_false] at accounts
        omega
  | true =>
      refine ⟨_, connectionFill_left _ left, balanced.writable, balanced.endless, ?_, ?_,
        fun idle => by cases idle⟩
      · simpa using bytes
      · rw [left] at accounts
        simp only [if_true] at accounts
        simp only [Outbound.Accounts, Outbound.writes, Outbound.queued]
        omega

theorem Outbound.Balanced.sent {state : Outbound} (balanced : state.Balanced) {memorized : Bool}
    (filled : state.writer = .filled memorized) (count : Nat) :
    ∃ unfinished bytes shutdown connection,
      connectionSend (appending []) state.connection memorized (.count count) =
        .ok ((unfinished, bytes, shutdown), connection) ∧
      Outbound.Balanced { state with
        connection, sent := state.sent ++ bytes
        writer := if unfinished then .unfinished else .idle } := by
  have accounts := balanced.accounts
  simp only [Outbound.Accounts, filled, Outbound.writes, Outbound.queued] at accounts
  obtain ⟨unfinished, bytes, shutdown, buffer, result, writable, more, window⟩ :=
    connectionSend_ok (appending []) balanced.writable memorized count
  refine ⟨unfinished, bytes, shutdown, _, result, writable, balanced.endless, ?_, ?_, ?_⟩
  · simp only [List.append_assoc, window]
    exact balanced.bytes
  · cases unfinished with
    | true => exact ⟨accounts, by simp [Outbound.left, ← more]⟩
    | false =>
        simp only [Bool.false_eq_true, if_false, Outbound.Accounts, Outbound.writes,
          Outbound.queued, Outbound.left, ← more]
        exact accounts
  · cases unfinished with
    | true => exact fun idle => by cases idle
    | false => exact fun _ left => by simp [Outbound.left, ← more] at left

theorem Outbound.Balanced.reenqueued {state : Outbound} (balanced : state.Balanced)
    (unfinished : state.writer = .unfinished) :
    Outbound.Balanced { state with
      queue := { state.queue with items := state.queue.items ++ [.outboundData] }
      writer := .idle } := by
  refine ⟨balanced.writable, balanced.endless, balanced.bytes, ?_, fun _ _ => by simp⟩
  have accounts := balanced.accounts
  simp only [Outbound.Accounts, unfinished, Outbound.writes, Outbound.queued,
    Outbound.left] at accounts
  simp only [Outbound.Accounts, Outbound.writes, Outbound.queued, Outbound.left,
    List.count_append, List.count_singleton_self]
  omega

theorem outboundStep_balanced {state : Outbound} (balanced : state.Balanced)
    (action : OutboundAction) :
    ∃ outcome, outboundStep state action = .ok outcome ∧
      ∀ after, outcome = some after → after.Balanced := by
  cases action with
  | enableWriteInterest =>
      have canWrite := balanced.writable.canWrite
      refine ⟨some { state with
          connection := { state.connection with
            events := state.connection.events ++ [.outboundData] }
          interests := state.interests + 1 }, ?_, ?_⟩
      · simp only [outboundStep]
        rw [if_pos canWrite]
        rfl
      · intro _ result
        cases result
        exact balanced.announce _ canWrite rfl rfl (by simp)
  | writerEventHandler =>
      cases interests : state.interests with
      | zero => exact ⟨none, by simp [outboundStep, interests, pure, Except.pure], by simp⟩
      | succ interests' =>
          refine ⟨_, by simp only [outboundStep, interests, Fifo.push_open balanced.endless]; rfl, ?_⟩
          intro _ result
          cases result
          exact balanced.request interests'
  | pendingClose =>
      have canWrite := balanced.writable.canWrite
      refine ⟨_, by
        simp only [outboundStep, connectionClose, Bool.false_eq_true, if_false,
          connectionState_eq, bind, Except.bind, pure, Except.pure]; rfl, ?_⟩
      intro _ result
      cases result
      split
      · exact balanced.announce state.interests canWrite rfl (List.append_nil _).symm (by simp)
      · exact balanced.announce state.interests rfl rfl rfl (by simp [stateEvent])
  | dequeue =>
      cases writer : state.writer with
      | taken | filled | unfinished =>
          exact ⟨none, by simp [outboundStep, writer, pure, Except.pure], by simp⟩
      | idle =>
          cases dequeued : state.queue.dequeue true with
          | mk attempt queue =>
              simp only [outboundStep, writer, dequeued]
              cases attempt with
              | blocked | nothing => exact ⟨none, rfl, by simp⟩
              | drained =>
                  refine ⟨_, rfl, ?_⟩
                  intro _ equal
                  cases equal
                  exact writer ▸ balanced.drained dequeued
              | taken event =>
                  cases event with
                  | outboundData =>
                      refine ⟨_, rfl, ?_⟩
                      intro _ equal
                      cases equal
                      exact balanced.dequeued writer dequeued
                  | init | connecting | connected | read | inboundData | write | pendingClose
                  | close | free => exact ⟨none, rfl, by simp⟩
  | fill blocks =>
      simp only [outboundStep]
      split
      · next ready =>
          obtain ⟨taken, _, fits⟩ := ready
          obtain ⟨connection, result, kept⟩ := balanced.filled taken fits
            (decide (state.connection.state = .pendingClose))
          refine ⟨_, by simp only [result, bind, Except.bind]; rfl, ?_⟩
          intro _ equal
          cases equal
          exact kept
      · exact ⟨none, rfl, by simp⟩
  | send count =>
      cases writer : state.writer with
      | filled memorized =>
          obtain ⟨unfinished, bytes, shutdown, connection, result, kept⟩ :=
            balanced.sent writer count
          refine ⟨_, by simp only [outboundStep, writer, result, bind, Except.bind]; rfl, ?_⟩
          intro _ equal
          cases equal
          exact kept
      | idle | taken | unfinished =>
          exact ⟨none, by simp [outboundStep, writer, pure, Except.pure], by simp⟩
  | reenqueue =>
      simp only [outboundStep]
      split
      · next unfinished =>
          refine ⟨_, by simp only [Fifo.push_open balanced.endless]; rfl, ?_⟩
          intro _ equal
          cases equal
          exact balanced.reenqueued unfinished
      · exact ⟨none, rfl, by simp⟩

/-! ## Whole runs -/

theorem Outbound.Balanced.run {start state : Outbound} {actions : List OutboundAction}
    (balanced : start.Balanced) (run : Run OutboundStep start actions state) : state.Balanced := by
  refine run.keeps (fun before action after kept taken => ?_) balanced
  obtain ⟨outcome, result, keeps⟩ := outboundStep_balanced kept action
  simp only [OutboundStep, outboundNext, result] at taken
  exact keeps after taken

/-- In every run over a writable connection no step faults; the bytes sent and the
bytes left are the bytes appended; and between two items the WRITE dispatches and
the queued events are the accepted interests, one more while bytes are left, in
which case an event is queued. Once the queue is empty every interest has had its
own WRITE dispatch. -/
theorem newOutbound_conserves {connection : Connection} (writable : connection.Writable)
    (drained : bufferHasRemaining connection.writeBuffer = false)
    (fresh : Event.write ∉ connection.events) {actions : List OutboundAction} {state : Outbound}
    (run : Run OutboundStep (newOutbound connection) actions state) :
    (∀ action, ∃ outcome, outboundStep state action = .ok outcome) ∧
      state.sent ++ state.connection.writeBuffer.window = state.appended ∧
      (state.writer = .idle →
        state.writes + state.queued = state.accepted + state.left ∧
        (state.left = 1 → Event.outboundData ∈ state.queue.items) ∧
        (state.queue.items = [] → state.writes = state.accepted)) := by
  have balanced := (newOutbound_balanced writable drained fresh).run run
  refine ⟨fun action => ?_, balanced.bytes, fun idle => ?_⟩
  · obtain ⟨outcome, result, _⟩ := outboundStep_balanced balanced action
    exact ⟨outcome, result⟩
  · have accounts := balanced.accounts
    simp only [Outbound.Accounts, idle] at accounts
    refine ⟨accounts, balanced.requested idle, fun empty => ?_⟩
    have none : state.left = 0 := by
      have requested := balanced.requested idle
      simp only [empty, List.not_mem_nil, imp_false] at requested
      unfold Outbound.left at requested ⊢
      split at requested <;> simp_all
    have unqueued : state.queued = 0 := by simp [Outbound.queued, empty]
    omega

/-- Two interests on a connection with a buffer of two bytes: the first is sent in
two halves with the second interest between them. -/
theorem newOutbound_conserves_two_interests :
    let connection := { newConnection ⟨2, [0, 0, 0, 0], 0, 2⟩ ⟨2, [0, 0, 0, 0], 0, 2⟩ with
      state := .connected, canWrite := true }
    ∃ state, Run OutboundStep (newOutbound connection)
        [.enableWriteInterest, .writerEventHandler, .dequeue, .enableWriteInterest,
          .fill [[7], [8]], .writerEventHandler, .send 1, .reenqueue] state ∧
      (∀ action, ∃ outcome, outboundStep state action = .ok outcome) ∧
      state.sent ++ state.connection.writeBuffer.window = state.appended ∧
      (state.writer = .idle →
        state.writes + state.queued = state.accepted + state.left ∧
        (state.left = 1 → Event.outboundData ∈ state.queue.items) ∧
        (state.queue.items = [] → state.writes = state.accepted)) := by
  intro connection
  obtain ⟨state, _, run⟩ := exists_run_of_execute OutboundStep outboundNext
    (newOutbound connection)
    ([.enableWriteInterest, .writerEventHandler, .dequeue, .enableWriteInterest,
      .fill [[7], [8]], .writerEventHandler, .send 1, .reenqueue])
    (fun _ _ _ taken => taken) (by decide)
  exact ⟨state, run, newOutbound_conserves
    ⟨rfl, ⟨⟨by decide, by decide, by decide⟩, by decide⟩, by decide⟩ rfl (by decide) run⟩

end Aio4c
