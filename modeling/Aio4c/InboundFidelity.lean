import Aio4c.ConnectionLifecycle
import Aio4c.Inbound

/-! What `recv` returns reaches the worker unless `canRead` was still closed. The
balance holds along every run; the bytes dropped are those of the reads that the
hand-over was too late for. -/

set_option autoImplicit false

namespace Aio4c

open SignedInt TransitionSystem

/-- The points at which the reader holds no received bytes. -/
def ReaderPoint.Quiet : ReaderPoint → Prop
  | .idle | .managing | .connecting => True
  | .received _ | .dispatching | .copied _ => False

/-- The received bytes that are on their way to the queue. -/
def Inbound.chunk (state : Inbound) : List UInt8 :=
  match state.reader with
  | .idle | .managing | .connecting => []
  | .received nbRead => state.connection.readBuffer.data.take nbRead
  | .dispatching => state.connection.readBuffer.front
  | .copied buffer => buffer.window

/-- How the reader's point and the buffers go together. -/
def Inbound.Buffered (state : Inbound) : Prop :=
  match state.reader with
  | .idle | .managing | .connecting => state.connection.readBuffer.Clear
  | .received nbRead =>
      state.connection.readBuffer.Clear ∧ 0 < nbRead ∧
        (nbRead : Int) ≤ state.connection.readBuffer.size
  | .dispatching =>
      state.connection.readBuffer.Allocated ∧ state.connection.readBuffer.Ordered
  | .copied buffer =>
      state.connection.readBuffer.Clear ∧ buffer.Allocated ∧
        buffer.size = state.pool.bufferSize

def Inbound.Installed (state : Inbound) : Prop :=
  (.inboundData, .worker) ∈ state.systemHandlers

/-- The accepting thread has not come to the worker's handler, so that the worker
does not manage the connection and no one may read from it. -/
structure Inbound.Early (state : Inbound) : Prop where
  unmanaged : state.connection.managedBy .worker = false
  unreadable : state.connection.canRead = false
  undecided : state.reader ≠ .connecting
  unheard : state.reader ≠ .dispatching
  ahead : ∃ count ≤ 3, state.handOver = readerManageConnection.drop count

structure Inbound.Sound (state : Inbound) : Prop where
  size : state.connection.readBuffer.size = state.pool.bufferSize
  pool : state.pool.Sound
  endless : state.tasks.exit = false
  tasks : ∀ buffer ∈ state.tasks.items, buffer.Allocated ∧ buffer.size = state.pool.bufferSize
  buffered : state.Buffered
  unclosed : state.connection.state ≠ .closed
  installed : state.Installed ∨ state.Early
  balance : (state.forwarded ++ state.chunk).length + state.dropped = state.received.length
  faithful : state.dropped = 0 → state.forwarded ++ state.chunk = state.received

/-- Steps that carry no data: the reader keeps its point or moves between quiet ones. -/
theorem Inbound.Sound.control {state : Inbound} (sound : state.Sound) {connection : Connection}
    {systemHandlers : List (Event × ConnectionOwner)} {handOver : List HandOverStep}
    {readerQueue : Fifo ReaderItem} {reader : ReaderPoint} {readKey : Bool}
    (readBuffer : connection.readBuffer = state.connection.readBuffer)
    (point : reader = state.reader ∨ state.reader.Quiet ∧ reader.Quiet)
    (unclosed : connection.state ≠ .closed)
    (installed : Inbound.Installed { state with
        connection, systemHandlers, handOver, readerQueue, reader, readKey } ∨
      Inbound.Early { state with
        connection, systemHandlers, handOver, readerQueue, reader, readKey }) :
    Inbound.Sound { state with
      connection, systemHandlers, handOver, readerQueue, reader, readKey } := by
  obtain ⟨size, pool, endless, tasks, buffered, _, _, balance, faithful⟩ := sound
  have chunk : Inbound.chunk { state with
      connection, systemHandlers, handOver, readerQueue, reader, readKey } = state.chunk := by
    rcases point with rfl | ⟨before, after⟩
    · simp only [Inbound.chunk, readBuffer]
    · cases here : state.reader <;> cases reader <;>
        simp only [here, ReaderPoint.Quiet, Inbound.chunk] at before after ⊢
  have ready : Inbound.Buffered { state with
      connection, systemHandlers, handOver, readerQueue, reader, readKey } := by
    rcases point with rfl | ⟨before, after⟩
    · simp only [Inbound.Buffered, readBuffer] at buffered ⊢
      exact buffered
    · cases here : state.reader <;> cases reader <;>
        simp only [here, ReaderPoint.Quiet, Inbound.Buffered, readBuffer]
          at before after buffered ⊢ <;> exact buffered
  refine ⟨by rw [readBuffer]; exact size, pool, endless, tasks, ready, unclosed, installed, ?_, ?_⟩
  · rw [chunk]
    exact balance
  · rw [chunk]
    exact faithful

theorem Inbound.Sound.installed_of_canRead {state : Inbound} (sound : state.Sound)
    (canRead : state.connection.canRead = true) : state.Installed := by
  rcases sound.installed with installed | early
  · exact installed
  · rw [early.unreadable] at canRead
    cases canRead

theorem connectionState_connected_frame (connection : Connection) :
    ∃ after, connectionState .idle connection .connected = .ok after ∧
      after.readBuffer = connection.readBuffer ∧ after.state = .connected := by
  refine ⟨_, connectionState_eq _ _ _, ?_⟩
  split
  · next state => exact ⟨rfl, state⟩
  · exact ⟨rfl, rfl⟩

/-- Until the worker manages the connection no owner completes the set. -/
theorem connectionManage_incomplete {connection : Connection} {owner : ConnectionOwner}
    (unmanaged : connection.managedBy .worker = false) (other : owner ≠ .worker) :
    (connectionManage connection owner).1 = false ∧
      (connectionManage connection owner).2.managedBy .worker = false := by
  have worker : Function.update connection.managedBy owner true .worker = false := by
    rw [Function.update_of_ne other.symm]
    exact unmanaged
  refine ⟨?_, worker⟩
  simp [connectionManage, ConnectionOwner.all, worker]

/-! ## The hand-over -/

theorem Inbound.Early.next {state : Inbound} (early : state.Early) {step : HandOverStep}
    {handOver : List HandOverStep} (program : state.handOver = step :: handOver) :
    step = .addSystemHandler .inboundData .worker ∨
      (∃ count ≤ 3, handOver = readerManageConnection.drop count) ∧
        (step = .enqueueDataItem ∨ ∃ event owner, step = .addSystemHandler event owner) := by
  obtain ⟨count, bound, ahead⟩ := early.ahead
  rw [program] at ahead
  match count, bound with
  | 0, _ =>
      cases ahead
      exact .inr ⟨⟨1, by omega, rfl⟩, .inl rfl⟩
  | 1, _ =>
      cases ahead
      exact .inr ⟨⟨2, by omega, rfl⟩, .inr ⟨_, _, rfl⟩⟩
  | 2, _ =>
      cases ahead
      exact .inr ⟨⟨3, by omega, rfl⟩, .inr ⟨_, _, rfl⟩⟩
  | 3, _ =>
      cases ahead
      exact .inl rfl

theorem handOverStep_sound {state : Inbound} (sound : state.Sound) :
    ∃ outcome, handOverStep state = .ok outcome ∧
      ∀ after, outcome = some after → after.Sound ∧ after.dropped = state.dropped := by
  cases program : state.handOver with
  | nil => exact ⟨none, by simp [handOverStep, program, pure, Except.pure], by simp⟩
  | cons step handOver =>
      cases step with
      | enqueueDataItem =>
          refine ⟨_, by simp only [handOverStep, program]; rfl, ?_⟩
          intro _ result
          cases result
          refine ⟨sound.control rfl (.inl rfl) sound.unclosed ?_, rfl⟩
          rcases sound.installed with installed | early
          · exact .inl installed
          · rcases early.next program with other | ⟨ahead, _⟩
            · cases other
            · exact .inr ⟨early.unmanaged, early.unreadable, early.undecided, early.unheard, ahead⟩
      | addSystemHandler event owner =>
          refine ⟨_, by simp only [handOverStep, program]; rfl, ?_⟩
          intro _ equal
          cases equal
          refine ⟨sound.control rfl (.inl rfl) sound.unclosed ?_, rfl⟩
          rcases sound.installed with installed | early
          · exact .inl (List.mem_append_left _ installed)
          · rcases early.next program with worker | ⟨ahead, _⟩
            · cases worker
              exact .inl (List.mem_append_right _ (List.mem_singleton.mpr rfl))
            · exact .inr ⟨early.unmanaged, early.unreadable, early.undecided, early.unheard, ahead⟩
      | managedBy owner =>
          refine ⟨_, by simp only [handOverStep, program]; rfl, ?_⟩
          intro _ equal
          cases equal
          refine ⟨sound.control rfl (.inl rfl) sound.unclosed ?_, rfl⟩
          rcases sound.installed with installed | early
          · exact .inl installed
          · rcases early.next program with other | ⟨_, other | ⟨_, _, other⟩⟩ <;> cases other
      | connected =>
          obtain ⟨connection, result, readBuffer, connected⟩ :=
            connectionState_connected_frame state.connection
          refine ⟨_, by simp only [handOverStep, program, result]; rfl, ?_⟩
          intro _ equal
          cases equal
          refine ⟨sound.control readBuffer (.inl rfl) (by rw [connected]; decide) ?_, rfl⟩
          rcases sound.installed with installed | early
          · exact .inl installed
          · rcases early.next program with other | ⟨_, other | ⟨_, _, other⟩⟩ <;> cases other

/-! ## Received data -/

theorem connectionReceive_ok {connection : Connection} (handlers : Handlers)
    (clear : connection.readBuffer.Clear) (bytes : List UInt8) :
    ∃ nbRead after, connectionReceive handlers connection (.bytes bytes) = .ok (nbRead, after) ∧
      ∀ count, nbRead = some count →
        ∃ buffer, after = { connection with readBuffer := buffer } ∧ buffer.Clear ∧
          buffer.size = connection.readBuffer.size ∧ 0 < count ∧ (count : Int) ≤ buffer.size ∧
          count ≤ bytes.length ∧ buffer.data.take count = bytes.take count := by
  have start := clear.start
  have whole := clear.whole
  have nonneg := clear.nonneg
  cases room : bufferHasRemaining connection.readBuffer with
  | false =>
      obtain ⟨after, error⟩ := connectionHandleError_ok handlers connection .bufferOverflow
      refine ⟨none, after, ?_, by simp⟩
      simp only [connectionReceive, room, Bool.not_false, if_true, error, bind, Except.bind, pure,
        Except.pure]
  | true =>
      have cut := sizeT_remaining clear.toBlock clear.ordered
      generalize limited : bytes.take (sizeT (bufferRemaining connection.readBuffer)) = chunk
      have length : (chunk.length : Int) ≤ connection.readBuffer.size := by
        rw [← limited, List.length_take]
        omega
      have taken : bytes.take chunk.length = chunk := by
        rw [← limited, List.length_take, ← List.take_take, List.take_length]
      have available : chunk.length ≤ bytes.length := by
        rw [← limited, List.length_take]
        omega
      obtain ⟨written, _⟩ := clear.toBlock.overwrite chunk (le_refl 0) (by omega) 0 0
      have kept := clear.toAllocated.overwrite chunk (le_refl 0) (by omega)
        connection.readBuffer.position connection.readBuffer.limit
      simp only [Int.toNat_zero, List.take_zero, List.nil_append, Nat.zero_add] at written kept
      rw [← start] at written
      by_cases empty : chunk.length = 0
      · obtain ⟨closed, close⟩ := connectionState_ok handlers { connection with
          readBuffer := { connection.readBuffer with
            data := chunk ++ connection.readBuffer.data.drop chunk.length } } .closed
        obtain ⟨failed, error⟩ := connectionHandleError_ok handlers { connection with
          readBuffer := { connection.readBuffer with
            data := chunk ++ connection.readBuffer.data.drop chunk.length } } .disconnected
        refine ⟨none, if connection.state = .pendingClose then closed else failed, ?_, by simp⟩
        simp only [connectionReceive, room, Bool.not_true, Bool.false_eq_true, if_false, limited,
          written, if_pos empty, bind, Except.bind, pure, Except.pure, close, error]
        split <;> rfl
      · refine ⟨some chunk.length, { connection with
          readBuffer := { connection.readBuffer with
            data := chunk ++ connection.readBuffer.data.drop chunk.length } }, ?_, ?_⟩
        · simp only [connectionReceive, room, Bool.not_true, Bool.false_eq_true, if_false, limited,
            written, if_neg empty, bind, Except.bind, pure, Except.pure]
        · intro _ equal
          cases equal
          refine ⟨_, rfl, ⟨kept, start, whole⟩, rfl, by omega, length, available, ?_⟩
          rw [taken, List.take_append_of_le_length (le_refl _), List.take_length]

theorem connectionAdmit_ok {connection : Connection} (clear : connection.readBuffer.Clear)
    {nbRead : Nat} (fits : (nbRead : Int) ≤ connection.readBuffer.size) :
    ∃ buffer, connectionAdmit connection nbRead =
        .ok (connection.canRead, { connection with readBuffer := buffer }) ∧
      buffer.size = connection.readBuffer.size ∧
      (connection.canRead = true → buffer.Allocated ∧ buffer.Ordered ∧
        buffer.front = connection.readBuffer.data.take nbRead) ∧
      (connection.canRead = false → buffer.Clear) := by
  have start := clear.start
  have whole := clear.whole
  have small := clear.small
  cases canRead : connection.canRead with
  | false =>
      obtain ⟨reset, result, clear', size⟩ := bufferReset_clear clear.toAllocated
      refine ⟨reset, ?_, size, by simp, fun _ => clear'⟩
      simp only [connectionAdmit, canRead, Bool.not_false, if_true, result, bind, Except.bind, pure,
        Except.pure]
  | true =>
      refine ⟨{ connection.readBuffer with position := nbRead }, ?_, rfl, fun _ => ⟨?_, ?_, ?_⟩,
        by simp⟩
      · have moved : bufferPosition connection.readBuffer
            (int32 (connection.readBuffer.position + nbRead)) =
              (true, { connection.readBuffer with position := nbRead }) := by
          rw [start, Int.zero_add, int32_of_mem (by omega) (by omega), bufferPosition,
            if_neg (by omega)]
        simp only [connectionAdmit, canRead, Bool.not_true, Bool.false_eq_true, if_false, moved, pure,
          Except.pure]
      · exact clear.toAllocated.move _ _
      · exact ⟨by simp only; omega, by simp only; omega, by simp only; omega⟩
      · simp [Buffer.front]

/-- The worker's handler copies what lies in front of the position and empties the
read buffer. -/
theorem workerReadHandler_ok {malloc : Nat → Bool} (granted : ∀ request, malloc request = true)
    {pool : BufferPool} (sound : pool.Sound) {readBuffer : Buffer}
    (allocated : readBuffer.Allocated) (ordered : readBuffer.Ordered)
    (size : readBuffer.size = pool.bufferSize) :
    ∃ buffer reset after, workerReadHandler malloc pool readBuffer = .ok (buffer, reset, after) ∧
      buffer.Allocated ∧ buffer.size = pool.bufferSize ∧ buffer.window = readBuffer.front ∧
      reset.Clear ∧ reset.size = readBuffer.size ∧
      after.Sound ∧ after.bufferSize = pool.bufferSize := by
  obtain ⟨empty, after, taken, emptyAllocated, emptySize, sound', size'⟩ :=
    allocateBuffer_ok granted sound
  have flipped : (bufferFlip readBuffer).Allocated := allocated.move _ _
  have below := ordered.below
  have within := ordered.within
  obtain ⟨buffer, copied, kept, _, copySize, window⟩ := bufferCopy_ok emptyAllocated
    flipped.toBlock (bufferFlip_ordered ordered) (by simp only [bufferFlip]; omega)
  obtain ⟨reset, result, clear, resetSize⟩ := bufferReset_clear flipped
  refine ⟨buffer, reset, after, ?_, kept, copySize.trans emptySize,
    window.trans (bufferFlip_window readBuffer), clear, resetSize, sound', size'⟩
  simp only [workerReadHandler, taken, copied, result, bind, Except.bind, pure, Except.pure]

/-! ## Every step -/

/-- What a step keeps, and that it drops bytes exactly when it reads too early. -/
structure Inbound.Kept (before : Inbound) (action : InboundAction) (after : Inbound) : Prop where
  sound : after.Sound
  allowed : ReadAllowed before action → after.dropped = before.dropped
  refused : ¬ ReadAllowed before action → before.dropped < after.dropped

theorem Inbound.Kept.other {before after : Inbound} {action : InboundAction}
    (other : action ≠ .readTest) (sound : after.Sound) (dropped : after.dropped = before.dropped) :
    Inbound.Kept before action after :=
  ⟨sound, fun _ => dropped, fun refused => absurd (fun readTest => absurd readTest other) refused⟩

/-- A reader that moves elsewhere leaves the hand-over as it is. -/
theorem Inbound.Sound.elsewhere {state after : Inbound} (sound : state.Sound)
    (systemHandlers : after.systemHandlers = state.systemHandlers)
    (handOver : after.handOver = state.handOver)
    (managedBy : after.connection.managedBy = state.connection.managedBy)
    (canRead : after.connection.canRead = state.connection.canRead)
    (undecided : after.reader ≠ .connecting) (unheard : after.reader ≠ .dispatching) :
    after.Installed ∨ after.Early := by
  rcases sound.installed with installed | early
  · refine .inl ?_
    unfold Inbound.Installed
    rw [systemHandlers]
    exact installed
  · refine .inr ⟨?_, ?_, undecided, unheard, ?_⟩
    · rw [managedBy]
      exact early.unmanaged
    · rw [canRead]
      exact early.unreadable
    · rw [handOver]
      exact early.ahead

theorem Inbound.Sound.recv {malloc : Nat → Bool} {state : Inbound} (sound : state.Sound)
    (bytes : List UInt8) :
    ∃ outcome, inboundStep malloc state (.recv bytes) = .ok outcome ∧
      ∀ after, outcome = some after → after.Sound ∧ after.dropped = state.dropped := by
  by_cases ready : state.reader = .idle ∧ state.readKey = true
  · obtain ⟨idle, _⟩ := id ready
    have buffered := sound.buffered
    have balance := sound.balance
    have faithful := sound.faithful
    simp only [Inbound.Buffered, Inbound.chunk, idle, List.append_nil] at buffered balance faithful
    obtain ⟨nbRead, connection, result, data⟩ :=
      connectionReceive_ok .idle buffered bytes
    simp only [inboundStep, if_pos ready, result, bind, Except.bind]
    cases nbRead with
    | none => exact ⟨none, rfl, by simp⟩
    | some nbRead =>
        obtain ⟨buffer, rfl, clear, size, positive, fits, available, chunk⟩ := data nbRead rfl
        refine ⟨_, rfl, ?_⟩
        intro _ equal
        cases equal
        refine ⟨⟨size.trans sound.size, sound.pool, sound.endless, sound.tasks,
          ⟨clear, positive, fits⟩, sound.unclosed, sound.elsewhere rfl rfl rfl rfl (by simp) (by simp),
          ?_, fun none => ?_⟩, rfl⟩
        · simp only [Inbound.chunk, chunk, Inbound.forwarded, List.length_append,
            List.length_take] at balance ⊢
          omega
        · simp only [Inbound.chunk, chunk]
          rw [← faithful none]
          rfl
  · exact ⟨none, by simp only [inboundStep, if_neg ready]; rfl, by simp⟩

theorem Inbound.Sound.readTest {malloc : Nat → Bool} {state : Inbound} (sound : state.Sound) :
    ∃ outcome, inboundStep malloc state .readTest = .ok outcome ∧
      ∀ after, outcome = some after → Inbound.Kept state .readTest after := by
  cases reader : state.reader with
  | idle | managing | connecting | dispatching | copied =>
      exact ⟨none, by simp only [inboundStep, reader]; rfl, by simp⟩
  | received nbRead =>
      have buffered := sound.buffered
      have balance := sound.balance
      have faithful := sound.faithful
      simp only [Inbound.Buffered, Inbound.chunk, reader] at buffered balance faithful
      obtain ⟨clear, positive, fits⟩ := buffered
      have length := clear.length
      obtain ⟨buffer, result, size, admitted, refused⟩ := connectionAdmit_ok clear fits
      simp only [inboundStep, reader, result, bind, Except.bind]
      refine ⟨_, rfl, ?_⟩
      intro _ equal
      cases equal
      cases canRead : state.connection.canRead with
      | true =>
          have installed := sound.installed_of_canRead canRead
          obtain ⟨allocated, ordered, front⟩ := admitted canRead
          refine ⟨⟨size.trans sound.size, sound.pool, sound.endless, sound.tasks,
            ⟨allocated, ordered⟩, sound.unclosed, .inl installed, ?_, fun none => ?_⟩,
            fun _ => rfl, fun disallowed => absurd (fun _ => canRead) disallowed⟩
          · simp only [Inbound.chunk, if_true, front]
            exact balance
          · simp only [Inbound.chunk, if_true, front]
            exact faithful none
      | false =>
          refine ⟨⟨size.trans sound.size, sound.pool, sound.endless, sound.tasks, refused canRead,
            sound.unclosed, sound.elsewhere rfl rfl rfl canRead.symm (by simp) (by simp), ?_,
            fun none => ?_⟩, fun allowed => ?_, fun _ => ?_⟩
          · simp only [Inbound.chunk, Inbound.forwarded, Bool.false_eq_true, if_false,
              List.length_append, List.length_take, List.length_nil] at balance ⊢
            omega
          · simp only [Bool.false_eq_true, if_false] at none
            omega
          · have read := allowed rfl
            rw [canRead] at read
            cases read
          · simp only [Bool.false_eq_true, if_false]
            omega

theorem Inbound.Sound.dispatch {malloc : Nat → Bool} (granted : ∀ request, malloc request = true)
    {state : Inbound} (sound : state.Sound) :
    ∃ outcome, inboundStep malloc state .dispatch = .ok outcome ∧
      ∀ after, outcome = some after → after.Sound ∧ after.dropped = state.dropped := by
  by_cases reader : state.reader = .dispatching
  · have buffered := sound.buffered
    have balance := sound.balance
    have faithful := sound.faithful
    simp only [Inbound.Buffered, Inbound.chunk, reader] at buffered balance faithful
    obtain ⟨allocated, ordered⟩ := buffered
    have installed : state.Installed := by
      rcases sound.installed with installed | early
      · exact installed
      · exact absurd reader early.unheard
    obtain ⟨buffer, reset, pool, result, kept, copySize, window, clear, resetSize, sound', size⟩ :=
      workerReadHandler_ok granted sound.pool allocated ordered sound.size
    have present : (Event.inboundData, ConnectionOwner.worker) ∈ state.systemHandlers ∧
        state.connection.state ≠ .closed := ⟨installed, sound.unclosed⟩
    have dispatched : connectionEventHandle .idle state.connection .inboundData =
        .ok { state.connection with events := state.connection.events ++ [.inboundData] } := rfl
    simp only [inboundStep, if_pos reader, dispatched, bind, Except.bind, if_pos present, result]
    refine ⟨_, rfl, ?_⟩
    intro _ equal
    cases equal
    refine ⟨⟨?_, sound', sound.endless, ?_, ⟨clear, kept, copySize.trans size.symm⟩,
      sound.unclosed, .inl installed, ?_, fun none => ?_⟩, rfl⟩
    · exact (resetSize.trans sound.size).trans size.symm
    · rw [size]
      exact sound.tasks
    · simp only [Inbound.chunk, window]
      exact balance
    · simp only [Inbound.chunk, window]
      exact faithful none
  · exact ⟨none, by simp only [inboundStep, if_neg reader]; rfl, by simp⟩

theorem Inbound.Sound.enqueueTask {malloc : Nat → Bool} {state : Inbound} (sound : state.Sound) :
    ∃ outcome, inboundStep malloc state .enqueueTask = .ok outcome ∧
      ∀ after, outcome = some after → after.Sound ∧ after.dropped = state.dropped := by
  cases reader : state.reader with
  | idle | managing | connecting | dispatching | received =>
      exact ⟨none, by simp only [inboundStep, reader]; rfl, by simp⟩
  | copied buffer =>
      have buffered := sound.buffered
      have balance := sound.balance
      have faithful := sound.faithful
      simp only [Inbound.Buffered, Inbound.chunk, reader] at buffered balance faithful
      obtain ⟨clear, allocated, size⟩ := buffered
      have enqueued := Fifo.push_open sound.endless buffer
      simp only [inboundStep, reader, enqueued, if_true]
      refine ⟨_, rfl, ?_⟩
      intro _ result
      cases result
      refine ⟨⟨sound.size, sound.pool, sound.endless, fun other member => ?_, clear,
        sound.unclosed, sound.elsewhere rfl rfl rfl rfl (by simp) (by simp), ?_, fun none => ?_⟩, rfl⟩
      · rcases List.mem_append.mp member with member | member
        · exact sound.tasks other member
        · cases List.mem_singleton.mp member
          exact ⟨allocated, size⟩
      · simp only [Inbound.chunk, Inbound.forwarded, List.flatMap_append, List.flatMap_singleton,
          List.append_nil] at balance ⊢
        exact balance
      · simp only [Inbound.chunk, Inbound.forwarded, List.flatMap_append, List.flatMap_singleton,
          List.append_nil] at faithful ⊢
        exact faithful none

/-- The worker's side of the queue and the pool is no part of the balance. -/
theorem Inbound.Sound.worked {state : Inbound} (sound : state.Sound) {tasks : Fifo Buffer}
    {pool : BufferPool} (pooled : pool.Sound) (size : pool.bufferSize = state.pool.bufferSize)
    (exit : tasks.exit = state.tasks.exit) (items : tasks.items ⊆ state.tasks.items) :
    Inbound.Sound { state with tasks, pool } := by
  refine ⟨sound.size.trans size.symm, pooled, exit.trans sound.endless, fun buffer member => ?_, ?_,
    sound.unclosed, sound.installed.imp id
      fun early => ⟨early.unmanaged, early.unreadable, early.undecided, early.unheard, early.ahead⟩,
    sound.balance, sound.faithful⟩
  · rw [size]
    exact sound.tasks buffer (items member)
  · have buffered := sound.buffered
    simp only [Inbound.Buffered, size] at buffered ⊢
    exact buffered

theorem Inbound.Sound.process {malloc : Nat → Bool} {state : Inbound} (sound : state.Sound) :
    ∃ outcome, inboundStep malloc state .process = .ok outcome ∧
      ∀ after, outcome = some after → after.Sound ∧ after.dropped = state.dropped := by
  cases dequeued : state.tasks.dequeue true with
  | mk attempt tasks =>
      cases attempt with
      | taken buffer =>
          obtain ⟨items, exit⟩ := Fifo.dequeue_taken dequeued
          obtain ⟨allocated, size⟩ := sound.tasks buffer (by simp [items])
          obtain ⟨pool, result, pooled, size'⟩ := releaseBuffer_ok sound.pool allocated size
          refine ⟨_, by simp only [inboundStep, dequeued, result, bind, Except.bind]; rfl, ?_⟩
          intro _ equal
          cases equal
          exact ⟨sound.worked pooled size' exit (by simp [items]), rfl⟩
      | blocked | nothing | drained =>
          obtain ⟨items, exit, _⟩ := Fifo.dequeue_missed dequeued (by simp)
          refine ⟨_, by simp only [inboundStep, dequeued]; rfl, ?_⟩
          intro _ equal
          cases equal
          exact ⟨sound.worked sound.pool rfl exit (by simp [items]), rfl⟩

theorem Inbound.Sound.dequeue {malloc : Nat → Bool} {state : Inbound} (sound : state.Sound) :
    ∃ outcome, inboundStep malloc state .dequeue = .ok outcome ∧
      ∀ after, outcome = some after → after.Sound ∧ after.dropped = state.dropped := by
  cases reader : state.reader with
  | managing | connecting | dispatching | copied | received =>
      exact ⟨none, by simp only [inboundStep, reader]; rfl, by simp⟩
  | idle =>
      have quiet : state.reader.Quiet := by simp only [reader, ReaderPoint.Quiet]
      cases dequeued : state.readerQueue.dequeue false with
      | mk attempt readerQueue =>
          have waits : Inbound.Sound { state with readerQueue } :=
            sound.control rfl (.inl rfl) sound.unclosed
              (sound.installed.imp id fun early => ⟨early.unmanaged, early.unreadable,
                early.undecided, early.unheard, early.ahead⟩)
          simp only [inboundStep, reader, dequeued]
          cases attempt with
          | taken item =>
              cases item with
              | data =>
                  refine ⟨_, rfl, ?_⟩
                  intro _ result
                  cases result
                  exact ⟨sound.control rfl (.inr ⟨quiet, trivial⟩) sound.unclosed
                    (sound.elsewhere rfl rfl rfl rfl (by simp) (by simp)), rfl⟩
              | event event =>
                  refine ⟨_, rfl, ?_⟩
                  intro _ result
                  cases result
                  exact ⟨reader ▸ waits, rfl⟩
          | blocked | nothing | drained =>
              refine ⟨_, rfl, ?_⟩
              intro _ result
              cases result
              exact ⟨reader ▸ waits, rfl⟩

theorem Inbound.Sound.managedBy {malloc : Nat → Bool} {state : Inbound} (sound : state.Sound) :
    ∃ outcome, inboundStep malloc state .managedBy = .ok outcome ∧
      ∀ after, outcome = some after → after.Sound ∧ after.dropped = state.dropped := by
  by_cases reader : state.reader = .managing
  · have quiet : state.reader.Quiet := by simp only [reader, ReaderPoint.Quiet]
    refine ⟨_, by simp only [inboundStep, if_pos reader]; rfl, ?_⟩
    intro _ equal
    cases equal
    refine ⟨sound.control rfl (.inr ⟨quiet, ?_⟩) sound.unclosed ?_, rfl⟩
    · split <;> trivial
    · rcases sound.installed with installed | early
      · exact .inl installed
      · obtain ⟨incomplete, unmanaged⟩ :=
          connectionManage_incomplete early.unmanaged (show ConnectionOwner.reader ≠ .worker by decide)
        simp only [incomplete, Bool.false_eq_true, if_false]
        exact .inr ⟨unmanaged, early.unreadable, by simp, by simp, early.ahead⟩
  · exact ⟨none, by simp only [inboundStep, if_neg reader]; rfl, by simp⟩

theorem Inbound.Sound.connected {malloc : Nat → Bool} {state : Inbound} (sound : state.Sound) :
    ∃ outcome, inboundStep malloc state .connected = .ok outcome ∧
      ∀ after, outcome = some after → after.Sound ∧ after.dropped = state.dropped := by
  by_cases reader : state.reader = .connecting
  · have quiet : state.reader.Quiet := by simp only [reader, ReaderPoint.Quiet]
    obtain ⟨connection, result, readBuffer, connected⟩ :=
      connectionState_connected_frame state.connection
    refine ⟨_, by simp only [inboundStep, if_pos reader, result, bind, Except.bind]; rfl, ?_⟩
    intro _ equal
    cases equal
    refine ⟨sound.control readBuffer (.inr ⟨quiet, trivial⟩) (by rw [connected]; decide) ?_, rfl⟩
    rcases sound.installed with installed | early
    · exact .inl installed
    · exact absurd reader early.undecided
  · exact ⟨none, by simp only [inboundStep, if_neg reader]; rfl, by simp⟩

theorem inboundStep_kept {malloc : Nat → Bool} (granted : ∀ request, malloc request = true)
    {state : Inbound} (sound : state.Sound) (action : InboundAction) :
    ∃ outcome, inboundStep malloc state action = .ok outcome ∧
      ∀ after, outcome = some after → Inbound.Kept state action after := by
  have other (plain : action ≠ .readTest)
      (step : ∃ outcome, inboundStep malloc state action = .ok outcome ∧
        ∀ after, outcome = some after → after.Sound ∧ after.dropped = state.dropped) :
      ∃ outcome, inboundStep malloc state action = .ok outcome ∧
        ∀ after, outcome = some after → Inbound.Kept state action after := by
    obtain ⟨outcome, result, keeps⟩ := step
    exact ⟨outcome, result, fun after taken =>
      .other plain (keeps after taken).1 (keeps after taken).2⟩
  cases action with
  | handOver => exact other (by simp) (handOverStep_sound sound)
  | dequeue => exact other (by simp) sound.dequeue
  | managedBy => exact other (by simp) sound.managedBy
  | connected => exact other (by simp) sound.connected
  | recv bytes => exact other (by simp) (sound.recv bytes)
  | readTest => exact sound.readTest
  | dispatch => exact other (by simp) (sound.dispatch granted)
  | enqueueTask => exact other (by simp) sound.enqueueTask
  | process => exact other (by simp) sound.process

theorem InboundStep.kept {malloc : Nat → Bool} (granted : ∀ request, malloc request = true)
    {before after : Inbound} {action : InboundAction} (sound : before.Sound)
    (step : InboundStep malloc before action after) : Inbound.Kept before action after := by
  obtain ⟨outcome, result, keeps⟩ := inboundStep_kept granted sound action
  simp only [InboundStep, inboundNext, result] at step
  exact keeps after step

/-! ## Whole runs -/

/-- A run drops nothing exactly when each of its reads was allowed. -/
theorem Inbound.Sound.run {malloc : Nat → Bool} (granted : ∀ request, malloc request = true)
    {start final : Inbound} {actions : List InboundAction} (sound : start.Sound)
    (run : Run (InboundStep malloc) start actions final) :
    final.Sound ∧ start.dropped ≤ final.dropped ∧
      (final.dropped = start.dropped ↔
        Run (Guarded ReadAllowed (InboundStep malloc)) start actions final) := by
  induction run with
  | nil state => exact ⟨sound, le_refl _, ⟨fun _ => .nil state, fun _ => rfl⟩⟩
  | @cons before middle after action actions taken rest ih =>
      have kept := taken.kept granted sound
      obtain ⟨sound', later, guarded⟩ := ih kept.sound
      by_cases allowed : ReadAllowed before action
      · have same := kept.allowed allowed
        refine ⟨sound', by omega, ⟨fun none => ?_, fun run => ?_⟩⟩
        · exact .cons ⟨allowed, taken⟩ (guarded.mp (by omega))
        · cases run with
          | cons step rest' =>
              cases taken.symm.trans step.2
              rw [guarded.mpr rest', same]
      · have dropped := kept.refused allowed
        refine ⟨sound', by omega, ⟨fun none => by omega, fun run => ?_⟩⟩
        cases run with
        | cons step _ => exact absurd step.1 allowed

/-- A connection that the accepting thread is about to hand over. -/
structure Connection.Accepted (connection : Connection) : Prop where
  clear : connection.readBuffer.Clear
  unreadable : connection.canRead = false
  unclosed : connection.state ≠ .closed
  unmanaged : connection.managedBy .worker = false

theorem newInbound_sound {connection : Connection} (accepted : connection.Accepted)
    {pool : BufferPool} (pooled : pool.Sound)
    (size : connection.readBuffer.size = pool.bufferSize) : (newInbound connection pool).Sound :=
  ⟨size, pooled, rfl, by simp [newInbound, Fifo.empty], accepted.clear, accepted.unclosed,
    .inr ⟨accepted.unmanaged, accepted.unreadable, by simp [newInbound], by simp [newInbound],
      0, by omega, rfl⟩, rfl, fun _ => rfl⟩

/-- While nobody closes, no step faults, and what the tasks and the reader hold is
what `recv` returned exactly when `canRead` was set at every read. -/
theorem newInbound_forwards_iff {malloc : Nat → Bool} (granted : ∀ request, malloc request = true)
    {connection : Connection} (accepted : connection.Accepted) {pool : BufferPool}
    (pooled : pool.Sound) (size : connection.readBuffer.size = pool.bufferSize)
    {actions : List InboundAction} {state : Inbound}
    (run : Run (InboundStep malloc) (newInbound connection pool) actions state) :
    (∀ action, ∃ outcome, inboundStep malloc state action = .ok outcome) ∧
      (state.reader.Quiet → state.chunk = []) ∧
      (state.forwarded ++ state.chunk = state.received ↔
        Run (Guarded ReadAllowed (InboundStep malloc)) (newInbound connection pool) actions state) := by
  obtain ⟨sound, _, guarded⟩ := (newInbound_sound accepted pooled size).run granted run
  refine ⟨fun action => ?_, fun quiet => ?_, ?_⟩
  · obtain ⟨outcome, result, _⟩ := inboundStep_kept granted sound action
    exact ⟨outcome, result⟩
  · cases reader : state.reader <;>
      simp only [reader, ReaderPoint.Quiet, Inbound.chunk] at quiet ⊢
  · rw [← guarded]
    refine ⟨fun same => ?_, sound.faithful⟩
    have balance := sound.balance
    rw [same] at balance
    change state.dropped = 0
    omega

/-- A run in which the last hand-over step comes before the data. -/
theorem newInbound_forwards_after_hand_over :
    let connection := { newConnection ⟨2, [0, 0, 0, 0], 0, 2⟩ ⟨2, [0, 0, 0, 0], 0, 2⟩ with
      state := .initialized }
    let pool : BufferPool := { buffers := Fifo.empty, batch := 1, bufferSize := 2 }
    let actions : List InboundAction :=
      [.handOver, .handOver, .handOver, .dequeue, .managedBy, .handOver, .handOver, .handOver,
        .handOver, .handOver, .handOver, .handOver, .recv [7, 8, 9], .readTest, .dispatch,
        .enqueueTask, .recv [9], .readTest]
    ∃ state, Run (InboundStep fun _ => true) (newInbound connection pool) actions state ∧
      state.received = [7, 8, 9] ∧
      (∀ action, ∃ outcome, inboundStep (fun _ => true) state action = .ok outcome) ∧
      (state.reader.Quiet → state.chunk = []) ∧
      (state.forwarded ++ state.chunk = state.received ↔
        Run (Guarded ReadAllowed (InboundStep fun _ => true)) (newInbound connection pool)
          actions state) := by
  intro connection pool actions
  obtain ⟨state, result, run⟩ := exists_run_of_execute (InboundStep fun _ => true)
    (inboundNext fun _ => true) (newInbound connection pool) actions
    (fun _ _ _ taken => taken) (by decide)
  have received : (execute (inboundNext fun _ => true) (newInbound connection pool)
      actions).map Inbound.received = some [7, 8, 9] := by decide
  rw [result] at received
  refine ⟨state, run, Option.some.inj received, newInbound_forwards_iff (fun _ => rfl)
    ⟨⟨⟨⟨by decide, by decide, by decide⟩, by decide⟩, rfl, rfl⟩, rfl, by decide, by decide⟩
    ⟨rfl, by decide, by decide, by decide, by simp [pool, Fifo.empty]⟩ rfl run⟩

/-- A byte read before the hand-over is complete never reaches the worker. -/
theorem newInbound_drops_early :
    ¬ ∀ (connection : Connection) (pool : BufferPool) (actions : List InboundAction)
        (state : Inbound), connection.Accepted → pool.Sound →
      connection.readBuffer.size = pool.bufferSize →
      Run (InboundStep fun _ => true) (newInbound connection pool) actions state →
      state.reader.Quiet → state.forwarded = state.received := by
  intro always
  let connection := { newConnection ⟨2, [0, 0, 0, 0], 0, 2⟩ ⟨2, [0, 0, 0, 0], 0, 2⟩ with
    state := .initialized }
  let pool : BufferPool := { buffers := Fifo.empty, batch := 1, bufferSize := 2 }
  let actions : List InboundAction := [.handOver, .dequeue, .managedBy, .recv [7], .readTest]
  obtain ⟨state, result, run⟩ := exists_run_of_execute (InboundStep fun _ => true)
    (inboundNext fun _ => true) (newInbound connection pool) actions
    (fun _ _ _ taken => taken) (by decide)
  have reached : (execute (inboundNext fun _ => true) (newInbound connection pool) actions).map
      (fun state => (state.reader, state.forwarded, state.received)) =
        some (.idle, [], [7]) := by decide
  rw [result] at reached
  simp only [Option.map_some, Option.some.injEq, Prod.mk.injEq] at reached
  obtain ⟨idle, forwarded, received⟩ := reached
  have same := always connection pool actions state
    ⟨⟨⟨⟨by decide, by decide, by decide⟩, by decide⟩, rfl, rfl⟩, rfl, by decide, by decide⟩
    ⟨rfl, by decide, by decide, by decide, by simp [pool, Fifo.empty]⟩ rfl run
    (by simp only [idle, ReaderPoint.Quiet])
  rw [forwarded, received] at same
  cases same

end Aio4c
