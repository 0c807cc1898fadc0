import Aio4c.BufferTransfer
import Aio4c.TaskOwnership

/-! One worker with all its connections, and the bytes its tasks carry. The buffers of the pool
go from one connection to the next, and what is in them belongs to one connection at a time. -/

set_option autoImplicit false

namespace Aio4c

open TransitionSystem

/-- What becomes of the bytes that `_WorkerReadHandler` finds in a read buffer. It drops those of a
CLOSED connection, and those whose task the queue refuses. -/
inductive BlockFate where
  | enqueued
  | closed
  | refused
  deriving DecidableEq, Repr

/-- The buffers of the pool with their contents. `reading` is the read buffer that the handler of
the reader was called for, up to `BufferCopy`, and `filled` what the copy was made of, up to
`EnqueueTaskItem`. For each connection `received` records the bytes that the handler was called
with, with their fate, `processed` the windows that the READ handlers got, and `unlinked` those of
the tasks that `RemoveAll` took out; `removed` are the connections that the worker has called
`RemoveAll` for. -/
structure WorkerLoop where
  system : TaskSystem
  contents : Nat → Buffer
  reading : Option Buffer
  filled : Option (List UInt8)
  received : Nat → List (List UInt8 × BlockFate)
  processed : Nat → List (List UInt8)
  unlinked : Nat → List (List UInt8)
  removed : List Nat

def newWorkerLoop (made batch : Nat) (states : Nat → ConnectionState) (contents : Nat → Buffer) :
    WorkerLoop :=
  { system := newTaskSystem made batch states, contents, reading := none, filled := none
    received := fun _ => [], processed := fun _ => [], unlinked := fun _ => [], removed := [] }

/-- `inbound` is the call of `_WorkerReadHandler` up to its test of the state, and `copy` goes from
`BufferFlip` to `BufferCopy`. In `readHandlers` the READ handlers of the user leave the data buffer
behind as they like. -/
inductive WorkerLoopAction where
  | inbound (connection : Nat) (readBuffer : Buffer)
  | copy
  | task (action : TaskAction)
  | readHandlers (dataBuffer : Buffer)

/-- The `BufferReset` of `ReleaseBuffer`, on each buffer that a step gives back. -/
def resetBuffers (contents : Nat → Buffer) : List Nat → Access (Nat → Buffer)
  | [] => pure contents
  | buffer :: buffers => do
      let content ← bufferReset (contents buffer)
      resetBuffers (Function.update contents buffer content) buffers

def appendAt {α : Type} (record : Nat → List α) (connection : Nat) (item : α) : Nat → List α :=
  Function.update record connection (record connection ++ [item])

theorem appendAt_own {α : Type} (record : Nat → List α) (connection : Nat) (item : α) :
    appendAt record connection item connection = record connection ++ [item] :=
  Function.update_self connection _ _

theorem appendAt_other {α : Type} {connection other : Nat} (differs : other ≠ connection)
    (record : Nat → List α) (item : α) :
    appendAt record connection item other = record other :=
  Function.update_of_ne differs _ _

def taskWindow (contents : Nat → Buffer) (connection : Nat) : QueueItem → Option (List UInt8)
  | .task _ owner buffer => if owner = connection then some (contents buffer).window else none
  | _ => none

namespace WorkerLoop

/-- A task that the worker has taken goes on to the READ handlers of its connection. -/
def processes (loop : WorkerLoop) (system : TaskSystem) : WorkerLoop :=
  match system.worker with
  | .processing connection buffer => { loop with
      processed := appendAt loop.processed connection (loop.contents buffer).window }
  | _ => loop

/-- `RemoveAll` has come to an item, which its callback accepts if it is a task of the
connection. -/
def unlinks (loop : WorkerLoop) : WorkerLoop :=
  match loop.system.worker with
  | .removing connection visited =>
      match loop.system.queue.items[visited]?.bind (taskWindow loop.contents connection) with
      | some bytes => { loop with unlinked := appendAt loop.unlinked connection bytes }
      | none => loop
  | _ => loop

/-- What is recorded of a step. It is `none` where the reader is not behind its copy, and for the
call of the handler, which is an action of its own. -/
def record (loop : WorkerLoop) (system : TaskSystem) : TaskAction → Option WorkerLoop
  | .enqueue =>
      match loop.system.handler, loop.filled with
      | .copying connection _, some bytes => some { loop with
          filled := none
          received := appendAt loop.received connection
            (bytes, if system.handler = .idle then .enqueued else .refused) }
      | _, _ => none
  | .dequeue | .wake _ => some (loop.processes system)
  | .removeAll =>
      match loop.system.worker with
      | .closing connection => some { loop with removed := connection :: loop.removed }
      | _ => none
  | .remove => some loop.unlinks
  | .inbound _ => none
  | .allocate | .make _ | .retry | .giveBack | .processed | .close _ | .exit | .change _ _ =>
      some loop

end WorkerLoop

def workerLoopStep (loop : WorkerLoop) : WorkerLoopAction → Option WorkerLoop
  | .inbound connection readBuffer => do
      let system ← taskStep loop.system (.inbound connection)
      if loop.system.states connection = .closed then
        some { loop with
          system, received := appendAt loop.received connection (readBuffer.front, .closed) }
      else some { loop with system, reading := some readBuffer }
  | .task action => do
      let system ← taskStep loop.system action
      let recorded ← loop.record system action
      let contents ← (resetBuffers loop.contents
        (system.released.drop loop.system.released.length)).toOption
      some { recorded with system, contents }
  | .copy =>
      match loop.system.handler, loop.reading with
      | .copying _ buffer, some readBuffer => do
          let content ← (bufferCopy (loop.contents buffer) (bufferFlip readBuffer)).toOption
          some { loop with
            contents := Function.update loop.contents buffer content
            reading := none
            filled := some readBuffer.front }
      | _, _ => none
  | .readHandlers dataBuffer =>
      match loop.system.worker with
      | .processing _ buffer =>
          some { loop with contents := Function.update loop.contents buffer dataBuffer }
      | _ => none

def WorkerLoopStep (before : WorkerLoop) (action : WorkerLoopAction) (after : WorkerLoop) : Prop :=
  workerLoopStep before action = some after

/-- The read buffers are those of connections with the worker's buffer size, and READ handlers
stay inside the buffer they got. -/
def BuffersKept (size : Int) (_ : WorkerLoop) : WorkerLoopAction → Prop
  | .task _ | .copy => True
  | .inbound _ readBuffer => readBuffer.Allocated ∧ readBuffer.Ordered ∧ readBuffer.size = size
  | .readHandlers dataBuffer => dataBuffer.Allocated ∧ dataBuffer.size = size

instance (buffer : Buffer) : Decidable buffer.Allocated :=
  decidable_of_iff ((0 ≤ buffer.size ∧ buffer.size + 2 < 2147483648 ∧
      (buffer.data.length : Int) = buffer.size + 2) ∧ buffer.data.drop buffer.size.toNat = [0, 0])
    ⟨fun ⟨⟨nonneg, small, length⟩, trailing⟩ => ⟨⟨nonneg, small, length⟩, trailing⟩,
      fun ⟨⟨nonneg, small, length⟩, trailing⟩ => ⟨⟨nonneg, small, length⟩, trailing⟩⟩

instance (size : Int) (loop : WorkerLoop) :
    (action : WorkerLoopAction) → Decidable (BuffersKept size loop action)
  | .task _ | .copy => isTrue trivial
  | .inbound _ _ => inferInstanceAs (Decidable (_ ∧ _ ∧ _))
  | .readHandlers _ => inferInstanceAs (Decidable (_ ∧ _))

def enqueuedBytes : List UInt8 × BlockFate → Option (List UInt8)
  | (bytes, .enqueued) => some bytes
  | (_, .closed) | (_, .refused) => none

/-- The bytes that the reader has received for the tasks of a connection. -/
def WorkerLoop.copied (loop : WorkerLoop) (connection : Nat) : List (List UInt8) :=
  (loop.received connection).filterMap enqueuedBytes

/-! ## What waits for a connection -/

/-- The windows of the tasks of a connection, in the order of the queue. -/
def taskWindows (contents : Nat → Buffer) (items : List QueueItem) (connection : Nat) :
    List (List UInt8) :=
  items.filterMap (taskWindow contents connection)

def WorkerLoop.waiting (loop : WorkerLoop) (connection : Nat) : List (List UInt8) :=
  taskWindows loop.contents loop.system.queue.items connection

section

variable {contents : Nat → Buffer} {items : List QueueItem} {connection : Nat}

@[simp] theorem taskWindows_append (front back : List QueueItem) :
    taskWindows contents (front ++ back) connection =
      taskWindows contents front connection ++ taskWindows contents back connection :=
  List.filterMap_append

@[simp] theorem taskWindows_own (event : Event) (buffer : Nat) (rest : List QueueItem) :
    taskWindows contents (.task event connection buffer :: rest) connection =
      (contents buffer).window :: taskWindows contents rest connection := by
  simp [taskWindows, taskWindow]

theorem taskWindows_foreign {owner : Nat} (foreign : owner ≠ connection) (event : Event)
    (buffer : Nat) (rest : List QueueItem) :
    taskWindows contents (.task event owner buffer :: rest) connection =
      taskWindows contents rest connection := by
  simp [taskWindows, taskWindow, foreign]

theorem taskWindows_other {item : QueueItem} (other : taskBuffer item = none)
    (rest : List QueueItem) :
    taskWindows contents (item :: rest) connection = taskWindows contents rest connection := by
  cases item with
  | task event owner buffer => cases other
  | undefined | event | data | exit => rfl

theorem taskWindows_others (others : ∀ item ∈ items, taskBuffer item = none) :
    taskWindows contents items connection = [] := by
  induction items with
  | nil => rfl
  | cons item items ih =>
      rw [taskWindows_other (others item List.mem_cons_self)]
      exact ih fun other member => others other (List.mem_cons_of_mem _ member)

/-- Buffers that no task carries may change. -/
theorem taskWindows_congr {contents' : Nat → Buffer}
    (same : ∀ buffer ∈ taskBuffers items, contents' buffer = contents buffer) :
    taskWindows contents' items connection = taskWindows contents items connection := by
  apply List.filterMap_congr
  intro item member
  cases item with
  | task event owner buffer =>
      have carried : buffer ∈ taskBuffers items := List.mem_filterMap.2 ⟨_, member, rfl⟩
      simp only [taskWindow, same buffer carried]
  | undefined | event | data | exit => rfl

theorem taskWindows_eraseIdx (place : Nat) :
    (taskWindows contents (items.eraseIdx place) connection).Sublist
      (taskWindows contents items connection) :=
  (List.eraseIdx_sublist items place).filterMap _

theorem taskWindows_eraseIdx_own {place buffer : Nat} {event : Event}
    (found : items[place]? = some (.task event connection buffer)) :
    (taskWindows contents items connection).Perm
      ((contents buffer).window :: taskWindows contents (items.eraseIdx place) connection) := by
  obtain ⟨within, same⟩ := List.getElem?_eq_some_iff.mp found
  have moved := (List.getElem_cons_eraseIdx_perm within).symm.filterMap
    (taskWindow contents connection)
  rw [same] at moved
  rwa [← taskWindows_own event buffer]

theorem taskWindows_eraseIdx_foreign {place owner buffer : Nat} {event : Event}
    (found : items[place]? = some (.task event owner buffer)) (foreign : owner ≠ connection) :
    taskWindows contents (items.eraseIdx place) connection =
      taskWindows contents items connection := by
  induction items generalizing place with
  | nil => rfl
  | cons item items ih =>
      cases place with
      | zero =>
          cases found
          rw [taskWindows_foreign foreign]
          rfl
      | succ place =>
          have rest := ih (by simpa using found)
          simp only [List.eraseIdx_cons_succ, taskWindows, List.filterMap_cons] at rest ⊢
          rw [rest]

end

/-- The buffers that are in use, wherever they are, are different ones. -/
theorem TaskSystem.Owned.inUse_nodup {state : TaskSystem} (owned : state.Owned) :
    state.inUse.Nodup :=
  (owned.places.nodup_iff.2 List.nodup_range).of_append_right

theorem TaskSystem.Owned.handler_apart {state : TaskSystem} (owned : state.Owned) {buffer : Nat}
    (held : buffer ∈ state.handler.buffers) : buffer ∉ taskBuffers state.queue.items := by
  have distinct := owned.inUse_nodup
  rw [TaskSystem.inUse, List.append_assoc] at distinct
  exact fun carried => List.disjoint_of_nodup_append distinct held (List.mem_append_left _ carried)

theorem TaskSystem.Owned.worker_apart {state : TaskSystem} (owned : state.Owned) {buffer : Nat}
    (held : buffer ∈ state.worker.buffers) :
    buffer ∉ taskBuffers state.queue.items ∧ buffer ∉ state.handler.buffers := by
  have apart := List.disjoint_of_nodup_append owned.inUse_nodup
  exact ⟨fun carried => apart (List.mem_append_right _ carried) held,
    fun carried => apart (List.mem_append_left _ carried) held⟩

theorem TaskSystem.Owned.erased_apart {state : TaskSystem} (owned : state.Owned)
    {place connection buffer : Nat} {event : Event}
    (found : state.queue.items[place]? = some (.task event connection buffer)) :
    buffer ∉ taskBuffers (state.queue.items.eraseIdx place) ∧ buffer ∉ state.handler.buffers := by
  have distinct := owned.inUse_nodup.of_append_left
  have carried := taskBuffers_eraseIdx found
  refine ⟨?_, fun held => ?_⟩
  · exact (List.nodup_cons.1 (carried.nodup_iff.1 distinct.of_append_right)).1
  · exact List.disjoint_of_nodup_append distinct held (carried.mem_iff.2 List.mem_cons_self)

/-- A step that no task passes: the queue may get another item, and a buffer may go back that no
task carries. A copy that is on its way stays, and the worker only comes out of its READ
handlers. -/
structure TaskSystem.Aside (before after : TaskSystem) : Prop where
  items : ∃ others, (∀ item ∈ others, taskBuffer item = none) ∧
    after.queue.items = before.queue.items ++ others
  copying : ∀ connection buffer, before.handler = .copying connection buffer →
    after.handler = before.handler
  worker : after.worker = before.worker ∨ after.worker = .dequeuing
  released : ∃ gave, after.released = before.released ++ gave ∧
    ∀ buffer ∈ gave, buffer ∉ taskBuffers before.queue.items ∧
      ∀ connection, before.handler ≠ .copying connection buffer

/-- The actions that concern a task. -/
def TaskAction.tasks : TaskAction → Bool
  | .enqueue | .dequeue | .wake _ | .removeAll | .remove => true
  | .inbound _ | .allocate | .make _ | .retry | .giveBack | .processed | .close _ | .exit
  | .change _ _ => false

section

variable {before after : TaskSystem}

theorem TaskSystem.Aside.quiet {handler : ReadHandler} {pool : Fifo Nat} {created : Nat}
    {states : Nat → ConnectionState} {taken : List Nat}
    (copying : ∀ connection buffer, before.handler = .copying connection buffer →
      handler = before.handler) :
    Aside before { before with handler, pool, created, states, taken } where
  items := ⟨[], by simp, by simp⟩
  copying := copying
  worker := .inl rfl
  released := ⟨[], by simp, by simp⟩

theorem TaskSystem.Aside.sends {item : QueueItem} (other : taskBuffer item = none)
    {accepted : Bool} (sent : before.send item = some (accepted, after)) : Aside before after := by
  obtain ⟨queue, rfl, result⟩ := send_moves sent
  refine { items := ?_, copying := fun _ _ _ => rfl, worker := .inl rfl, released := ⟨[], by simp⟩ }
  rcases result with ⟨_, _, items, _⟩ | ⟨_, _, rfl⟩
  · exact ⟨[item], by simpa using other, items⟩
  · exact ⟨[], by simp, by simp⟩

theorem TaskSystem.Aside.takes {connection : Nat} {missed : Option ReadHandler}
    (absent : ∀ connection buffer, before.handler ≠ .copying connection buffer)
    (step : before.takeBuffer connection missed = some after) : Aside before after := by
  unfold takeBuffer at step
  split at step
  · cases step
    exact .quiet fun connection buffer copying => absurd copying (absent connection buffer)
  · obtain ⟨handler, -, rfl⟩ := Option.map_eq_some_iff.1 step
    exact .quiet fun connection buffer copying => absurd copying (absent connection buffer)

theorem TaskStep.aside {action : TaskAction} (owned : before.Owned) (other : action.tasks = false)
    (step : TaskStep before action after) : TaskSystem.Aside before after := by
  unfold TaskStep taskStep at step
  cases action with
  | inbound connection =>
      cases at_ : before.handler <;> simp only [at_, reduceCtorEq] at step
      split at step
      · cases step
        exact .quiet fun _ _ _ => rfl
      · cases step
        exact .quiet fun _ _ copying => nomatch at_.symm.trans copying
  | allocate | retry =>
      cases at_ : before.handler <;> simp only [at_, reduceCtorEq] at step
      exact .takes (fun _ _ copying => nomatch at_.symm.trans copying) step
  | make granted =>
      cases at_ : before.handler with
      | growing connection left =>
          have absent : ∀ connection buffer, before.handler ≠ .copying connection buffer :=
            fun _ _ copying => nomatch at_.symm.trans copying
          cases left with
          | zero =>
              simp only [at_, Option.some.injEq] at step
              subst step
              exact .quiet fun connection buffer copying =>
                absurd copying (absent connection buffer)
          | succ left =>
              simp only [at_] at step
              split at step <;>
              · cases step
                exact .quiet fun connection buffer copying =>
                  absurd copying (absent connection buffer)
      | idle | allocating | retrying | copying | refused => simp [at_] at step
  | giveBack =>
      cases at_ : before.handler <;> simp only [at_, reduceCtorEq, Option.some.injEq] at step
      subst step
      exact {
        items := ⟨[], by simp [TaskSystem.release]⟩
        copying := fun _ _ copying => nomatch at_.symm.trans copying
        worker := .inl rfl
        released := ⟨[_], rfl, by
          intro buffer same
          cases List.mem_singleton.1 same
          refine ⟨owned.handler_apart (by simp [at_, ReadHandler.buffers]), fun connection => ?_⟩
          rw [at_]
          exact ReadHandler.noConfusion⟩ }
  | processed =>
      cases at_ : before.worker <;> simp only [at_, reduceCtorEq, Option.some.injEq] at step
      subst step
      exact {
        items := ⟨[], by simp [TaskSystem.release]⟩
        copying := fun _ _ _ => rfl
        worker := .inr rfl
        released := ⟨[_], rfl, by
          intro buffer same
          rw [List.mem_singleton] at same
          subst same
          have held : buffer ∈ before.worker.buffers := by simp [at_]
          obtain ⟨apart, free⟩ := owned.worker_apart held
          refine ⟨apart, fun connection copying => free ?_⟩
          simp [copying]⟩ }
  | close connection =>
      obtain ⟨⟨accepted, after⟩, sent, rfl⟩ := Option.map_eq_some_iff.mp step
      exact .sends rfl sent
  | exit =>
      obtain ⟨⟨accepted, after⟩, sent, rfl⟩ := Option.map_eq_some_iff.mp step
      exact .sends rfl sent
  | change connection new =>
      cases step
      exact .quiet fun _ _ _ => rfl
  | enqueue | dequeue | wake | removeAll | remove => cases other

end

/-! ## The bytes of each connection -/

/-- What waits of a connection and what its READ handlers got is what was copied for it, less what
`RemoveAll` took out. -/
structure WorkerLoop.Faithful (size : Int) (loop : WorkerLoop) : Prop where
  owned : loop.system.Owned
  allocated : ∀ buffer, (loop.contents buffer).Allocated ∧ (loop.contents buffer).size = size
  reading : ∀ readBuffer ∈ loop.reading,
    readBuffer.Allocated ∧ readBuffer.Ordered ∧ readBuffer.size = size
  filled : ∀ bytes ∈ loop.filled, ∃ connection buffer,
    loop.system.handler = .copying connection buffer ∧ (loop.contents buffer).window = bytes
  removing : ∀ connection visited, loop.system.worker = .removing connection visited →
    connection ∈ loop.removed
  streams : ∀ connection,
    (loop.processed connection ++ loop.waiting connection).Sublist (loop.copied connection)
  whole : ∀ connection,
    (loop.processed connection ++ loop.waiting connection ++ loop.unlinked connection).Perm
      (loop.copied connection)
  kept : ∀ connection, connection ∉ loop.removed → loop.unlinked connection = []

theorem update_allocated {size : Int} {contents : Nat → Buffer} {content : Buffer}
    (allocated : ∀ buffer, (contents buffer).Allocated ∧ (contents buffer).size = size)
    (changed : Nat) (kept : content.Allocated ∧ content.size = size) (buffer : Nat) :
    (Function.update contents changed content buffer).Allocated ∧
      (Function.update contents changed content buffer).size = size := by
  by_cases here : buffer = changed
  · rw [here, Function.update_self]
    exact kept
  · rw [Function.update_of_ne here]
    exact allocated buffer

theorem resetBuffers_kept {size : Int} {contents after : Nat → Buffer} {buffers : List Nat}
    (allocated : ∀ buffer, (contents buffer).Allocated ∧ (contents buffer).size = size)
    (reset : resetBuffers contents buffers = .ok after) :
    (∀ buffer, (after buffer).Allocated ∧ (after buffer).size = size) ∧
      ∀ buffer, buffer ∉ buffers → after buffer = contents buffer := by
  induction buffers generalizing contents with
  | nil =>
      cases reset
      exact ⟨allocated, fun _ _ => rfl⟩
  | cons first buffers ih =>
      obtain ⟨content, cleared, reset⟩ := Access.bind_ok reset
      obtain ⟨content', result, clear, same⟩ := bufferReset_clear (allocated first).1
      cases cleared.symm.trans result
      obtain ⟨kept, others⟩ :=
        ih (update_allocated allocated first
          ⟨clear.toAllocated, same.trans (allocated first).2⟩) reset
      refine ⟨kept, fun buffer apart => ?_⟩
      rw [List.mem_cons, not_or] at apart
      rw [others buffer apart.2, Function.update_of_ne apart.1]

/-- On allocated buffers there is no access outside of one. -/
theorem resetBuffers_ok {size : Int} {contents : Nat → Buffer}
    (allocated : ∀ buffer, (contents buffer).Allocated ∧ (contents buffer).size = size)
    (buffers : List Nat) : ∃ after, resetBuffers contents buffers = .ok after := by
  induction buffers generalizing contents with
  | nil => exact ⟨contents, rfl⟩
  | cons first buffers ih =>
      obtain ⟨content, result, clear, same⟩ := bufferReset_clear (allocated first).1
      obtain ⟨after, rest⟩ :=
        ih (update_allocated allocated first ⟨clear.toAllocated, same.trans (allocated first).2⟩)
      exact ⟨after, by simp only [resetBuffers, result, rest, bind, Except.bind]⟩

section

variable {size : Int} {loop after : WorkerLoop}

theorem WorkerLoop.copied_own (connection : Nat) (block : List UInt8 × BlockFate) :
    WorkerLoop.copied { loop with received := appendAt loop.received connection block } connection =
      loop.copied connection ++ (enqueuedBytes block).toList := by
  simp only [WorkerLoop.copied]
  rw [appendAt_own, List.filterMap_append]
  cases kept : enqueuedBytes block <;> simp [kept]

theorem WorkerLoop.copied_other {connection other : Nat} (differs : other ≠ connection)
    (block : List UInt8 × BlockFate) :
    WorkerLoop.copied { loop with received := appendAt loop.received connection block } other =
      loop.copied other := by
  simp only [WorkerLoop.copied]
  rw [appendAt_other differs]

/-! ## What a step does -/

theorem WorkerLoopStep.inbound {connection : Nat} {readBuffer : Buffer}
    (step : WorkerLoopStep loop (.inbound connection readBuffer) after) :
    TaskStep loop.system (.inbound connection) after.system ∧ loop.system.handler = .idle ∧
      (after = { loop with
          received := appendAt loop.received connection (readBuffer.front, .closed) } ∨
        after = { loop with
          system := { loop.system with handler := .allocating connection }
          reading := some readBuffer }) := by
  unfold WorkerLoopStep at step
  simp only [workerLoopStep, Option.bind_eq_bind, Option.bind_eq_some_iff] at step
  obtain ⟨system, stepped, step⟩ := step
  have taken : TaskStep loop.system (.inbound connection) system := stepped
  unfold taskStep at stepped
  cases idle : loop.system.handler <;> simp only [idle, reduceCtorEq] at stepped
  split at step
  · next closed =>
      rw [if_pos closed] at stepped
      cases stepped
      cases step
      exact ⟨taken, rfl, .inl rfl⟩
  · next open_ =>
      rw [if_neg open_] at stepped
      cases stepped
      cases step
      exact ⟨taken, rfl, .inr rfl⟩

theorem WorkerLoopStep.copy (step : WorkerLoopStep loop .copy after) :
    ∃ connection buffer readBuffer content,
      loop.system.handler = .copying connection buffer ∧ readBuffer ∈ loop.reading ∧
      bufferCopy (loop.contents buffer) (bufferFlip readBuffer) = .ok content ∧
      after = { loop with
        contents := Function.update loop.contents buffer content, reading := none
        filled := some readBuffer.front } := by
  unfold WorkerLoopStep at step
  simp only [workerLoopStep] at step
  split at step
  · next connection buffer readBuffer copying reading =>
      cases copied : bufferCopy (loop.contents buffer) (bufferFlip readBuffer) with
      | error fault => simp [copied, Except.toOption] at step
      | ok content =>
          rw [copied] at step
          cases step
          exact ⟨connection, buffer, readBuffer, content, copying, reading, copied, rfl⟩
  · cases step

theorem WorkerLoopStep.readHandlers {dataBuffer : Buffer}
    (step : WorkerLoopStep loop (.readHandlers dataBuffer) after) :
    ∃ connection buffer, loop.system.worker = .processing connection buffer ∧
      after = { loop with contents := Function.update loop.contents buffer dataBuffer } := by
  unfold WorkerLoopStep at step
  simp only [workerLoopStep] at step
  split at step
  · next connection buffer processing =>
      cases step
      exact ⟨connection, buffer, processing, rfl⟩
  · cases step

theorem WorkerLoopStep.task {action : TaskAction}
    (step : WorkerLoopStep loop (.task action) after) :
    ∃ system recorded contents, TaskStep loop.system action system ∧
      loop.record system action = some recorded ∧
      resetBuffers loop.contents (system.released.drop loop.system.released.length) =
        .ok contents ∧
      after = { recorded with system, contents } := by
  unfold WorkerLoopStep at step
  simp only [workerLoopStep, Option.bind_eq_bind, Option.bind_eq_some_iff, Option.some.injEq]
    at step
  obtain ⟨system, stepped, recorded, kept, contents, reset, rfl⟩ := step
  refine ⟨system, recorded, contents, stepped, kept, ?_, rfl⟩
  cases result : resetBuffers loop.contents (system.released.drop loop.system.released.length) with
  | error fault => simp [result, Except.toOption] at reset
  | ok contents' =>
      rw [result] at reset
      cases reset
      rfl

/-! ## The streams -/

/-- A step that gives nothing back leaves the contents. -/
theorem resetBuffers_none {contents after : Nat → Buffer} {system system' : TaskSystem}
    (released : system'.released = system.released)
    (reset : resetBuffers contents (system'.released.drop system.released.length) = .ok after) :
    after = contents := by
  rw [released, List.drop_length] at reset
  cases reset
  rfl

theorem WorkerLoop.Faithful.aside {system : TaskSystem} {contents : Nat → Buffer}
    (faithful : loop.Faithful size) (owned : system.Owned)
    (aside : TaskSystem.Aside loop.system system)
    (reset : resetBuffers loop.contents (system.released.drop loop.system.released.length) =
      .ok contents) :
    WorkerLoop.Faithful size { loop with system, contents } := by
  obtain ⟨others, foreign, items⟩ := aside.items
  obtain ⟨gave, released, apart⟩ := aside.released
  rw [released, List.drop_left] at reset
  obtain ⟨allocated, same⟩ := resetBuffers_kept faithful.allocated reset
  have waiting : ∀ connection,
      WorkerLoop.waiting { loop with system, contents } connection = loop.waiting connection := by
    intro connection
    simp only [WorkerLoop.waiting, items, taskWindows_append, taskWindows_others foreign,
      List.append_nil]
    exact taskWindows_congr fun buffer carried =>
      same buffer fun given => (apart buffer given).1 carried
  refine {
    owned, allocated, reading := faithful.reading, filled := fun bytes copied => ?_
    removing := fun connection visited at_ => ?_
    streams := fun connection => by rw [waiting]; exact faithful.streams connection
    whole := fun connection => by rw [waiting]; exact faithful.whole connection
    kept := faithful.kept }
  · obtain ⟨connection, buffer, copying, window⟩ := faithful.filled bytes copied
    refine ⟨connection, buffer, (aside.copying connection buffer copying).trans copying, ?_⟩
    dsimp only
    rw [same buffer fun given => (apart buffer given).2 connection copying, window]
  · rcases aside.worker with stays | leaves
    · exact faithful.removing connection visited (stays.symm.trans at_)
    · exact nomatch leaves.symm.trans at_

/-- The streams of all connections, from what happens to that of one. -/
theorem WorkerLoop.Faithful.passes (faithful : loop.Faithful size) (connection : Nat)
    (owned : after.system.Owned) (contents : after.contents = loop.contents)
    (reading : after.reading = loop.reading)
    (filled : ∀ bytes ∈ after.filled, bytes ∈ loop.filled ∧
      after.system.handler = loop.system.handler)
    (removing : ∀ connection visited, after.system.worker = .removing connection visited →
      connection ∈ after.removed)
    (removed : ∀ connection ∈ loop.removed, connection ∈ after.removed)
    (unlinked : after.unlinked = loop.unlinked)
    (others : ∀ other, other ≠ connection → after.processed other = loop.processed other ∧
      after.waiting other = loop.waiting other ∧ after.copied other = loop.copied other)
    (own : ∃ bytes, after.processed connection ++ after.waiting connection =
        loop.processed connection ++ loop.waiting connection ++ bytes ∧
      after.copied connection = loop.copied connection ++ bytes) : after.Faithful size where
  owned := owned
  allocated := by rw [contents]; exact faithful.allocated
  reading := by rw [reading]; exact faithful.reading
  filled bytes copied := by
    obtain ⟨earlier, handler⟩ := filled bytes copied
    rw [contents, handler]
    exact faithful.filled bytes earlier
  removing := removing
  streams other := by
    by_cases same : other = connection
    · subst same
      obtain ⟨bytes, moved, copied⟩ := own
      rw [moved, copied]
      exact (faithful.streams other).append (List.Sublist.refl bytes)
    · obtain ⟨processed, waiting, copied⟩ := others other same
      rw [processed, waiting, copied]
      exact faithful.streams other
  whole other := by
    rw [unlinked]
    by_cases same : other = connection
    · subst same
      obtain ⟨bytes, moved, copied⟩ := own
      rw [moved, copied, List.append_assoc]
      refine (List.perm_append_comm.append_left _).trans ?_
      rw [← List.append_assoc]
      exact (faithful.whole other).append_right bytes
    · obtain ⟨processed, waiting, copied⟩ := others other same
      rw [processed, waiting, copied]
      exact faithful.whole other
  kept other absent := by
    rw [unlinked]
    exact faithful.kept other fun earlier => absent (removed other earlier)

theorem WorkerLoop.Faithful.enqueues {system : TaskSystem} {recorded : WorkerLoop}
    (faithful : loop.Faithful size) (owned : system.Owned)
    (step : TaskStep loop.system .enqueue system)
    (record : loop.record system .enqueue = some recorded) :
    system.released = loop.system.released ∧
      WorkerLoop.Faithful size { recorded with system, contents := loop.contents } := by
  unfold TaskStep taskStep at step
  simp only [WorkerLoop.record] at record
  split at record
  · next connection buffer bytes copying filled =>
      simp only [copying, Option.bind_eq_bind, Option.bind_eq_some_iff, Prod.exists] at step
      obtain ⟨accepted, middle, sent, step⟩ := step
      obtain ⟨queue, rfl, result⟩ := TaskSystem.send_moves sent
      have window : (loop.contents buffer).window = bytes := by
        obtain ⟨_, _, same, window⟩ := faithful.filled bytes filled
        rw [copying] at same
        cases same
        exact window
      rcases result with ⟨rfl, _, items, _⟩ | ⟨rfl, _, rfl⟩
      · simp only [Option.pure_def, Option.some.injEq] at step
        subst step
        simp only [if_true, Option.some.injEq] at record
        subst record
        refine ⟨rfl, faithful.passes connection owned rfl rfl nofun
          faithful.removing (fun _ => id) rfl (fun other differs => ⟨rfl, ?_, ?_⟩)
          ⟨[bytes], ?_, ?_⟩⟩
        · show taskWindows loop.contents queue.items other = loop.waiting other
          rw [items, taskWindows_append, taskWindows_foreign (Ne.symm differs)]
          exact List.append_nil _
        · exact WorkerLoop.copied_other differs _
        · show loop.processed connection ++ taskWindows loop.contents queue.items connection = _
          rw [items, taskWindows_append, taskWindows_own, window, List.append_assoc]
          rfl
        · exact WorkerLoop.copied_own connection (bytes, .enqueued)
      · simp only [Option.pure_def, Option.some.injEq] at step
        subst step
        simp only [reduceCtorEq, if_false, Option.some.injEq] at record
        subst record
        exact ⟨rfl, faithful.passes connection owned rfl rfl nofun
          faithful.removing (fun _ => id) rfl
          (fun _ differs => ⟨rfl, rfl, WorkerLoop.copied_other differs (bytes, .refused)⟩)
          ⟨[], (List.append_nil _).symm, WorkerLoop.copied_own connection (bytes, .refused)⟩⟩
  · cases record

theorem WorkerLoop.Faithful.dequeues {attempt : Fifo.Attempt QueueItem} {queue : Fifo QueueItem}
    (faithful : loop.Faithful size)
    (attempted : Fifo.Attempted loop.system.queue attempt queue)
    (owned : (loop.system.afterDequeue (attempt, queue)).Owned) :
    WorkerLoop.Faithful size { loop.processes (loop.system.afterDequeue (attempt, queue)) with
      system := loop.system.afterDequeue (attempt, queue), contents := loop.contents } := by
  have quiet {worker : WorkerThread}
      (same : ∀ connection, taskWindows loop.contents queue.items connection =
        taskWindows loop.contents loop.system.queue.items connection)
      (stays : ∀ connection visited, worker = .removing connection visited → False)
      (owned : TaskSystem.Owned { loop.system with queue, worker }) :
      WorkerLoop.Faithful size { loop with system := { loop.system with queue, worker } } :=
    faithful.passes 0 owned rfl rfl (fun _ copied => ⟨copied, rfl⟩)
      (fun connection visited at_ => (stays connection visited at_).elim) (fun _ => id) rfl
      (fun other _ => ⟨rfl, same other, rfl⟩)
      ⟨[], by rw [List.append_nil]; exact congrArg _ (same 0), (List.append_nil _).symm⟩
  cases attempt with
  | blocked =>
      obtain ⟨rfl, _, _⟩ := attempted
      exact quiet (fun _ => rfl) (fun _ _ => WorkerThread.noConfusion) owned
  | nothing =>
      obtain ⟨rfl, _⟩ := attempted
      exact quiet (fun _ => rfl) (fun _ _ => WorkerThread.noConfusion) owned
  | drained =>
      obtain ⟨_, rfl⟩ := attempted
      exact quiet (fun _ => rfl) (fun _ _ => WorkerThread.noConfusion) owned
  | taken item =>
      obtain ⟨items, _, _⟩ := attempted
      cases item with
      | task event connection buffer =>
          refine faithful.passes connection owned rfl rfl
            (fun _ copied => ⟨copied, rfl⟩) (fun _ _ => WorkerThread.noConfusion) (fun _ => id) rfl
            (fun other differs => ⟨?_, ?_, rfl⟩) ⟨[], ?_, (List.append_nil _).symm⟩
          · exact appendAt_other differs _ _
          · rw [WorkerLoop.waiting, WorkerLoop.waiting, items,
              taskWindows_foreign (Ne.symm differs)]
            rfl
          · simp [WorkerLoop.processes, TaskSystem.afterDequeue, WorkerLoop.waiting, items,
              appendAt]
      | undefined | event | data | exit =>
          exact quiet (fun connection => by rw [items, taskWindows_other rfl])
            (fun _ _ => WorkerThread.noConfusion) owned

theorem afterDequeue_released (system : TaskSystem)
    (attempt : Fifo.Attempt QueueItem × Fifo QueueItem) :
    (system.afterDequeue attempt).released = system.released := by
  unfold TaskSystem.afterDequeue
  split <;> rfl

theorem WorkerLoop.Faithful.startsRemoval {connection : Nat} (faithful : loop.Faithful size)
    (owned : TaskSystem.Owned { loop.system with worker := .removing connection 0 }) :
    WorkerLoop.Faithful size { loop with
      system := { loop.system with worker := .removing connection 0 }
      removed := connection :: loop.removed } := by
  refine faithful.passes connection owned rfl rfl (fun _ copied => ⟨copied, rfl⟩) ?_
    (fun _ earlier => List.mem_cons_of_mem _ earlier) rfl (fun _ _ => ⟨rfl, rfl, rfl⟩)
    ⟨[], (List.append_nil _).symm, (List.append_nil _).symm⟩
  intro other visited at_
  cases at_
  exact List.mem_cons_self

/-- A round of the loop of `RemoveAll` passes an item or takes out a task of its connection. -/
theorem TaskSystem.removeNext_cases (state : TaskSystem) (connection visited : Nat) :
    (∃ worker, (worker = .dequeuing ∨ worker = .removing connection (visited + 1)) ∧
      (∀ event buffer, state.queue.items[visited]? ≠ some (.task event connection buffer)) ∧
      state.removeNext connection visited = { state with worker }) ∨
    ∃ event buffer, state.queue.items[visited]? = some (.task event connection buffer) ∧
      state.removeNext connection visited = { state.release buffer with
        queue := { state.queue with items := state.queue.items.eraseIdx visited } } := by
  unfold removeNext
  split
  · next found => exact .inl ⟨_, .inl rfl, by simp [found], rfl⟩
  · next event owner buffer found =>
      split
      · next own => exact .inr ⟨event, buffer, own ▸ found, rfl⟩
      · next foreign => exact .inl ⟨_, .inr rfl, by simp [found, foreign], rfl⟩
  · next item other found =>
      refine .inl ⟨_, .inr rfl, fun event buffer task => ?_, rfl⟩
      rw [found] at task
      exact other event connection buffer (Option.some.inj task)

theorem WorkerLoop.unlinks_other {connection visited : Nat}
    (at_ : loop.system.worker = .removing connection visited)
    (other : ∀ event buffer,
      loop.system.queue.items[visited]? ≠ some (.task event connection buffer)) :
    loop.unlinks = loop := by
  simp only [unlinks, at_]
  cases found : loop.system.queue.items[visited]? with
  | none => rfl
  | some item =>
      cases item with
      | task event owner buffer =>
          have foreign : owner ≠ connection := fun same => other event buffer (same ▸ found)
          simp [taskWindow, foreign]
      | undefined | event | data | exit => rfl

theorem WorkerLoop.unlinks_task {connection visited buffer : Nat} {event : Event}
    (at_ : loop.system.worker = .removing connection visited)
    (found : loop.system.queue.items[visited]? = some (.task event connection buffer)) :
    loop.unlinks = { loop with
      unlinked := appendAt loop.unlinked connection (loop.contents buffer).window } := by
  simp [unlinks, at_, found, taskWindow]

/-- The task that `RemoveAll` takes out is one of the connection it runs for. -/
theorem WorkerLoop.Faithful.removes {connection visited : Nat} {contents : Nat → Buffer}
    (faithful : loop.Faithful size) (at_ : loop.system.worker = .removing connection visited)
    (owned : (loop.system.removeNext connection visited).Owned)
    (reset : resetBuffers loop.contents
      ((loop.system.removeNext connection visited).released.drop loop.system.released.length) =
        .ok contents) :
    WorkerLoop.Faithful size
      { loop.unlinks with system := loop.system.removeNext connection visited, contents } := by
  have current := faithful.removing connection visited at_
  rcases loop.system.removeNext_cases connection visited with
    ⟨worker, stays, other, result⟩ | ⟨event, buffer, found, result⟩
  · rw [WorkerLoop.unlinks_other at_ other]
    rw [result] at owned reset ⊢
    obtain rfl := resetBuffers_none rfl reset
    refine faithful.passes connection owned rfl rfl (fun _ copied => ⟨copied, rfl⟩) ?_
      (fun _ => id) rfl (fun _ _ => ⟨rfl, rfl, rfl⟩)
      ⟨[], (List.append_nil _).symm, (List.append_nil _).symm⟩
    intro other next same
    rcases stays with rfl | rfl
    · cases same
    · cases same
      exact current
  · rw [WorkerLoop.unlinks_task at_ found]
    rw [result] at owned reset ⊢
    simp only [TaskSystem.release, List.drop_left] at reset
    obtain ⟨apart, free⟩ := faithful.owned.erased_apart found
    obtain ⟨allocated, same⟩ := resetBuffers_kept faithful.allocated reset
    have windows : ∀ other, taskWindows contents (loop.system.queue.items.eraseIdx visited) other =
        taskWindows loop.contents (loop.system.queue.items.eraseIdx visited) other :=
      fun other => taskWindows_congr fun carried member =>
        same carried fun gave => apart (List.mem_singleton.1 gave ▸ member)
    refine {
      owned, allocated, reading := faithful.reading, filled := fun bytes copied => ?_
      removing := faithful.removing
      streams := fun other => ?_, whole := fun other => ?_, kept := fun other absent => ?_ }
    · obtain ⟨connection, held, copying, window⟩ := faithful.filled bytes copied
      have kept : contents held = loop.contents held := by
        refine same held fun gave => free ?_
        rw [copying, ← List.mem_singleton.1 gave]
        exact List.mem_singleton_self held
      exact ⟨connection, held, copying, (congrArg Buffer.window kept).trans window⟩
    · refine List.Sublist.trans ?_ (faithful.streams other)
      rw [WorkerLoop.waiting, WorkerLoop.waiting, windows other]
      exact (List.Sublist.refl _).append (taskWindows_eraseIdx visited)
    · rw [WorkerLoop.waiting, windows other]
      refine List.Perm.trans ?_ (faithful.whole other)
      simp only [List.append_assoc]
      refine List.Perm.append_left _ ?_
      by_cases own : other = connection
      · subst own
        rw [appendAt_own, ← List.append_assoc]
        refine List.perm_append_comm.trans ?_
        exact (taskWindows_eraseIdx_own found).symm.append_right _
      · rw [appendAt_other own, taskWindows_eraseIdx_foreign found (Ne.symm own)]
        exact List.Perm.refl _
    · have foreign : other ≠ connection := fun same => absent (same ▸ current)
      exact (appendAt_other foreign _ _).trans (faithful.kept other absent)

/-- The contents of a buffer that no task carries may change, where the reader stays by what it
has copied. -/
theorem WorkerLoop.Faithful.writes {changed : Nat} {content : Buffer} {reading : Option Buffer}
    {filled : Option (List UInt8)} (faithful : loop.Faithful size)
    (apart : changed ∉ taskBuffers loop.system.queue.items)
    (kept : content.Allocated ∧ content.size = size)
    (left : ∀ buffer ∈ reading, buffer ∈ loop.reading)
    (copied : ∀ bytes ∈ filled, ∃ connection buffer,
      loop.system.handler = .copying connection buffer ∧
        (Function.update loop.contents changed content buffer).window = bytes) :
    WorkerLoop.Faithful size
      { loop with contents := Function.update loop.contents changed content, reading, filled } := by
  have waiting : ∀ connection, WorkerLoop.waiting
      { loop with contents := Function.update loop.contents changed content, reading, filled }
        connection = loop.waiting connection := by
    intro connection
    apply taskWindows_congr
    intro buffer carried
    exact Function.update_of_ne (ne_of_mem_of_not_mem carried apart) _ _
  exact {
    owned := faithful.owned, allocated := update_allocated faithful.allocated changed kept
    reading := fun buffer member => faithful.reading buffer (left buffer member)
    filled := copied, removing := faithful.removing
    streams := fun connection => by rw [waiting]; exact faithful.streams connection
    whole := fun connection => by rw [waiting]; exact faithful.whole connection
    kept := faithful.kept }

theorem bufferCopy_flipped {size : Int} {dst readBuffer : Buffer}
    (allocated : dst.Allocated ∧ dst.size = size) (readAllocated : readBuffer.Allocated)
    (ordered : readBuffer.Ordered) (readSize : readBuffer.size = size) :
    ∃ content, bufferCopy dst (bufferFlip readBuffer) = .ok content ∧
      (content.Allocated ∧ content.size = size) ∧ content.window = readBuffer.front := by
  have below := ordered.below
  have within := ordered.within
  have dstSize := allocated.2
  obtain ⟨content, copied, kept, _, same, window⟩ := bufferCopy_ok allocated.1
    (readAllocated.move 0 readBuffer.position).toBlock (bufferFlip_ordered ordered)
    (by simp only; omega)
  exact ⟨content, copied, ⟨kept, same.trans dstSize⟩, window.trans (bufferFlip_window readBuffer)⟩

/-- A read buffer of a CLOSED connection is left as it is. -/
theorem WorkerLoop.Faithful.receives {connection : Nat} {readBuffer : Buffer}
    (faithful : loop.Faithful size) (fits : BuffersKept size loop (.inbound connection readBuffer))
    (step : WorkerLoopStep loop (.inbound connection readBuffer) after) : after.Faithful size := by
  obtain ⟨taken, idle, rfl | rfl⟩ := step.inbound
  · exact faithful.passes connection faithful.owned rfl rfl (fun _ copied => ⟨copied, rfl⟩)
      faithful.removing (fun _ => id) rfl
      (fun _ differs => ⟨rfl, rfl, WorkerLoop.copied_other differs (readBuffer.front, .closed)⟩)
      ⟨[], (List.append_nil _).symm, WorkerLoop.copied_own connection (readBuffer.front, .closed)⟩
  · have quiet := faithful.aside (faithful.owned.step taken)
      (.quiet fun _ _ copying => nomatch idle.symm.trans copying) (by rw [List.drop_length]; rfl)
    refine { quiet with reading := fun buffer same => ?_ }
    cases same
    exact fits

theorem WorkerLoop.Faithful.copies (faithful : loop.Faithful size)
    (step : WorkerLoopStep loop .copy after) : after.Faithful size := by
  obtain ⟨connection, buffer, readBuffer, content, copying, reading, copied, rfl⟩ := step.copy
  obtain ⟨readAllocated, ordered, readSize⟩ := faithful.reading readBuffer reading
  obtain ⟨content', result, kept, window⟩ :=
    bufferCopy_flipped (faithful.allocated buffer) readAllocated ordered readSize
  cases copied.symm.trans result
  refine faithful.writes (faithful.owned.handler_apart (by simp [copying])) kept (by simp) ?_
  intro bytes same
  cases same
  exact ⟨connection, buffer, copying, by rw [Function.update_self, window]⟩

theorem WorkerLoop.Faithful.handles {dataBuffer : Buffer} (faithful : loop.Faithful size)
    (fits : BuffersKept size loop (.readHandlers dataBuffer))
    (step : WorkerLoopStep loop (.readHandlers dataBuffer) after) : after.Faithful size := by
  obtain ⟨connection, buffer, processing, rfl⟩ := step.readHandlers
  obtain ⟨apart, free⟩ := faithful.owned.worker_apart
    (show buffer ∈ loop.system.worker.buffers by simp [processing])
  refine faithful.writes apart fits (fun _ => id) fun bytes copied => ?_
  obtain ⟨connection, held, copying, window⟩ := faithful.filled bytes copied
  refine ⟨connection, held, copying, ?_⟩
  rw [Function.update_of_ne fun same => free (by simp [copying, same]), window]

theorem WorkerLoop.Faithful.step {action : WorkerLoopAction} (faithful : loop.Faithful size)
    (step : Guarded (BuffersKept size) WorkerLoopStep loop action after) : after.Faithful size := by
  obtain ⟨fits, step⟩ := step
  cases action with
  | inbound connection readBuffer => exact faithful.receives fits step
  | copy => exact faithful.copies step
  | readHandlers dataBuffer => exact faithful.handles fits step
  | task action =>
      obtain ⟨system, recorded, contents, stepped, record, reset, rfl⟩ := step.task
      have owned := faithful.owned.step stepped
      cases action with
      | enqueue =>
          obtain ⟨released, after⟩ := faithful.enqueues owned stepped record
          rwa [resetBuffers_none released reset]
      | dequeue =>
          cases record
          unfold TaskStep taskStep at stepped
          cases at_ : loop.system.worker <;>
            simp only [at_, reduceCtorEq, Option.some.injEq] at stepped
          subst stepped
          rw [resetBuffers_none (afterDequeue_released _ _) reset]
          exact faithful.dequeues (loop.system.queue.dequeue_attempted true) owned
      | wake notified =>
          cases record
          unfold TaskStep taskStep at stepped
          cases at_ : loop.system.worker <;>
            simp only [at_, reduceCtorEq, Option.some.injEq] at stepped
          subst stepped
          rw [resetBuffers_none (afterDequeue_released _ _) reset]
          exact faithful.dequeues (loop.system.queue.resume_attempted notified) owned
      | removeAll =>
          unfold TaskStep taskStep at stepped
          cases at_ : loop.system.worker <;>
            simp only [at_, WorkerLoop.record, reduceCtorEq, Option.some.injEq] at stepped record
          subst stepped record
          rw [resetBuffers_none rfl reset]
          exact faithful.startsRemoval owned
      | remove =>
          cases record
          unfold TaskStep taskStep at stepped
          cases at_ : loop.system.worker <;>
            simp only [at_, reduceCtorEq, Option.some.injEq] at stepped
          subst stepped
          exact faithful.removes at_ owned reset
      | inbound => cases record
      | allocate | make | retry | giveBack | processed | close | exit | change =>
          cases record
          exact faithful.aside owned (stepped.aside faithful.owned rfl) reset

variable {made batch : Nat} {states : Nat → ConnectionState} {contents : Nat → Buffer}

/-- The queue of the worker refuses a task only behind EXIT. -/
def WorkerLoop.RefusedEnded (loop : WorkerLoop) : Prop :=
  ∀ connection bytes, (bytes, .refused) ∈ loop.received connection → loop.system.queue.exit = true

theorem QueueMoves.ended {before after : TaskSystem} (moves : QueueMoves before after)
    (ended : before.queue.exit = true) : after.queue.exit = true := by
  cases moves with
  | kept items exit worker => rw [exit, ended]
  | sent item unended => simp [unended] at ended
  | lost item place found items exit => rw [exit, ended]

/-- A block that joins those of a connection. -/
theorem WorkerLoop.RefusedEnded.joins {connection : Nat} {block : List UInt8 × BlockFate}
    (kept : loop.RefusedEnded)
    (exits : loop.system.queue.exit = true → after.system.queue.exit = true)
    (received : after.received = appendAt loop.received connection block)
    (refused : block.2 = .refused → after.system.queue.exit = true) : after.RefusedEnded := by
  intro other bytes member
  rw [received] at member
  by_cases same : other = connection
  · subst same
    rw [appendAt_own, List.mem_append, List.mem_singleton] at member
    rcases member with earlier | rfl
    · exact exits (kept other bytes earlier)
    · exact refused rfl
  · rw [appendAt_other same] at member
    exact exits (kept other bytes member)

theorem WorkerLoop.record_received {system : TaskSystem} {action : TaskAction}
    {recorded : WorkerLoop} (record : loop.record system action = some recorded) :
    recorded.received = loop.received ∨
      ∃ connection buffer bytes, action = .enqueue ∧
        loop.system.handler = .copying connection buffer ∧
        recorded.received = appendAt loop.received connection
          (bytes, if system.handler = .idle then .enqueued else .refused) := by
  cases action with
  | enqueue =>
      simp only [WorkerLoop.record] at record
      split at record
      · next connection buffer bytes copying filled =>
          cases record
          exact .inr ⟨connection, buffer, bytes, rfl, copying, rfl⟩
      · cases record
  | dequeue | wake =>
      cases record
      refine .inl ?_
      unfold WorkerLoop.processes
      split <;> rfl
  | remove =>
      cases record
      refine .inl ?_
      unfold WorkerLoop.unlinks
      repeat' split
      all_goals rfl
  | removeAll =>
      simp only [WorkerLoop.record] at record
      split at record <;> cases record
      exact .inl rfl
  | inbound => cases record
  | allocate | make | retry | giveBack | processed | close | exit | change =>
      cases record
      exact .inl rfl

theorem TaskStep.enqueue_refused {system after : TaskSystem} {connection buffer : Nat}
    (copying : system.handler = .copying connection buffer) (step : TaskStep system .enqueue after)
    (refused : after.handler ≠ .idle) : after.queue.exit = true := by
  unfold TaskStep taskStep at step
  simp only [copying, Option.bind_eq_bind, Option.bind_eq_some_iff, Prod.exists] at step
  obtain ⟨accepted, middle, sent, step⟩ := step
  obtain ⟨queue, rfl, result⟩ := TaskSystem.send_moves sent
  rcases result with ⟨rfl, _⟩ | ⟨rfl, ended, rfl⟩
  · simp only [Option.pure_def, Option.some.injEq] at step
    subst step
    exact absurd rfl refused
  · simp only [Option.pure_def, Option.some.injEq] at step
    subst step
    exact ended

theorem WorkerLoop.RefusedEnded.step {action : WorkerLoopAction} (kept : loop.RefusedEnded)
    (owned : loop.system.Owned) (step : WorkerLoopStep loop action after) :
    after.RefusedEnded := by
  have exits {action : TaskAction} {system : TaskSystem}
      (stepped : TaskStep loop.system action system) (ended : loop.system.queue.exit = true) :
      system.queue.exit = true := by
    obtain ⟨_, _, _, moves⟩ := taskStep_moves owned.endless stepped
    exact moves.queue.ended ended
  cases action with
  | inbound connection readBuffer =>
      obtain ⟨taken, _, rfl | rfl⟩ := step.inbound
      · exact kept.joins (exits taken) rfl nofun
      · exact kept
  | copy =>
      obtain ⟨_, _, _, _, _, _, _, rfl⟩ := step.copy
      exact kept
  | readHandlers dataBuffer =>
      obtain ⟨_, _, _, rfl⟩ := step.readHandlers
      exact kept
  | task action =>
      obtain ⟨system, recorded, contents, stepped, record, -, rfl⟩ := step.task
      rcases loop.record_received record with
        same | ⟨connection, buffer, bytes, rfl, copying, joined⟩
      · intro other bytes member
        exact exits stepped (kept other bytes (same ▸ member))
      · refine kept.joins (exits stepped) joined fun refused => stepped.enqueue_refused copying ?_
        intro idle
        rw [if_pos idle] at refused
        cases refused

theorem newWorkerLoop_faithful
    (allocated : ∀ buffer, (contents buffer).Allocated ∧ (contents buffer).size = size)
    {actions : List WorkerLoopAction}
    (run : Run (Guarded (BuffersKept size) WorkerLoopStep)
      (newWorkerLoop made batch states contents) actions loop) :
    loop.Faithful size ∧ loop.RefusedEnded := by
  apply run.keeps fun _ _ _ ⟨faithful, refused⟩ step =>
    ⟨faithful.step step, refused.step faithful.owned step.2⟩
  refine ⟨?_, nofun⟩
  exact {
    owned := newTaskSystem_sound (.nil _), allocated, reading := nofun, filled := nofun
    removing := nofun
    streams := fun _ => List.Sublist.refl _, whole := fun _ => List.Perm.refl _
    kept := fun _ _ => rfl }

/-- Although the buffers go from one connection to the next, the READ handlers of each connection
get the blocks of bytes that the reader received for it, in that order, but for those that the
reader drops (because the connection is CLOSED, or because the queue refuses the task, which it only
does behind EXIT) and those that `RemoveAll` takes out for that connection. No block waits when the
worker ends, and no copy and no reset goes outside of a buffer. -/
theorem newWorkerLoop_processes
    (allocated : ∀ buffer, (contents buffer).Allocated ∧ (contents buffer).size = size)
    {actions : List WorkerLoopAction}
    (run : Run (Guarded (BuffersKept size) WorkerLoopStep)
      (newWorkerLoop made batch states contents) actions loop) :
    (∀ connection,
      (loop.processed connection ++ loop.waiting connection).Sublist (loop.copied connection) ∧
      (loop.processed connection ++ loop.waiting connection ++ loop.unlinked connection).Perm
        (loop.copied connection) ∧
      (connection ∉ loop.removed →
        loop.processed connection ++ loop.waiting connection = loop.copied connection) ∧
      (loop.system.worker = .exiting → loop.waiting connection = []) ∧
      ∀ bytes, (bytes, .refused) ∈ loop.received connection → loop.system.queue.exit = true) ∧
    (∀ buffers, ∃ after, resetBuffers loop.contents buffers = .ok after) ∧
    ∀ buffer, ∀ readBuffer ∈ loop.reading,
      ∃ content, bufferCopy (loop.contents buffer) (bufferFlip readBuffer) = .ok content := by
  obtain ⟨faithful, refused⟩ := newWorkerLoop_faithful allocated run
  refine ⟨fun connection => ⟨faithful.streams connection, faithful.whole connection,
    fun absent => ?_, fun exiting => ?_, refused connection⟩,
    resetBuffers_ok faithful.allocated, fun buffer readBuffer reading => ?_⟩
  · have whole := (faithful.whole connection).length_eq
    rw [faithful.kept connection absent, List.append_nil] at whole
    exact (faithful.streams connection).eq_of_length whole
  · rw [WorkerLoop.waiting, faithful.owned.exitLast.ended exiting]
    rfl
  · obtain ⟨readAllocated, ordered, same⟩ := faithful.reading readBuffer reading
    obtain ⟨content, copied, -⟩ :=
      bufferCopy_flipped (faithful.allocated buffer) readAllocated ordered same
    exact ⟨content, copied⟩

end

/-- A buffer of two bytes, of which the first ones have been received. -/
def receivedBuffer (first second : UInt8) (position : Int) : Buffer :=
  { size := 2, data := [first, second, 0, 0], position, limit := 2 }

/-- The one buffer of the pool goes from connection 0 to connection 1, and what has been received
for connection 1 behind its CLOSE event is removed. The last blocks of the two are dropped, behind
EXIT and because the connection is CLOSED. -/
def oneBufferTwice : List WorkerLoopAction :=
  [.inbound 0 (receivedBuffer 5 6 2), .task .allocate, .copy, .task .enqueue,
    .task .dequeue, .readHandlers (receivedBuffer 0 0 2), .task .processed,
    .inbound 1 (receivedBuffer 7 6 1), .task .allocate, .task (.make false), .task .retry, .copy,
    .task .enqueue, .task .dequeue, .task .dequeue, .task .processed, .task (.close 1),
    .inbound 1 (receivedBuffer 8 9 1), .task .allocate, .task (.make false), .task .retry, .copy,
    .task .enqueue, .task .dequeue, .task .dequeue, .task .removeAll, .task .remove,
    .task .remove, .task (.change 1 .closed), .inbound 1 (receivedBuffer 3 4 1), .task .exit,
    .inbound 0 (receivedBuffer 1 2 1), .task .allocate, .task (.make false), .task .retry, .copy,
    .task .enqueue, .task .giveBack, .task .dequeue]

theorem newWorkerLoop_processes_twice : ∃ loop,
    Run (Guarded (BuffersKept 2) WorkerLoopStep)
      (newWorkerLoop 1 1 (fun _ => .connected) fun _ => receivedBuffer 0 0 0) oneBufferTwice loop ∧
      loop.processed 0 = [[5, 6]] ∧
      loop.received 0 = [([5, 6], .enqueued), ([1], .refused)] ∧ loop.system.queue.exit = true ∧
      loop.processed 1 = [[7]] ∧ loop.unlinked 1 = [[8]] ∧
      loop.received 1 = [([7], .enqueued), ([8], .enqueued), ([3], .closed)] ∧
      ∀ connection, (loop.processed connection ++ loop.unlinked connection).Perm
        (loop.copied connection) := by
  have ends : (execute (guardedNext (BuffersKept 2) workerLoopStep)
      (newWorkerLoop 1 1 (fun _ => .connected) fun _ => receivedBuffer 0 0 0) oneBufferTwice).map
        (fun loop => ([loop.processed 0, loop.processed 1, loop.unlinked 1],
          loop.system.worker)) = some ([[[5, 6]], [[7]], [[8]]], .exiting) := by
    decide
  have blocks : (execute (guardedNext (BuffersKept 2) workerLoopStep)
      (newWorkerLoop 1 1 (fun _ => .connected) fun _ => receivedBuffer 0 0 0) oneBufferTwice).map
        (fun loop => [loop.received 0, loop.received 1]) =
        some [[([5, 6], .enqueued), ([1], .refused)],
          [([7], .enqueued), ([8], .enqueued), ([3], .closed)]] := by
    decide
  obtain ⟨loop, runs, run⟩ := exists_run_of_execute (Guarded (BuffersKept 2) WorkerLoopStep)
    (guardedNext (BuffersKept 2) workerLoopStep)
    (newWorkerLoop 1 1 (fun _ => .connected) fun _ => receivedBuffer 0 0 0) oneBufferTwice
    (fun _ _ _ taken => guardedNext_sound taken) (by
      rw [← Option.isSome_map, ends]
      rfl)
  simp only [runs, Option.map_some, Option.some.injEq, Prod.mk.injEq, List.cons.injEq]
    at ends blocks
  obtain ⟨⟨first, second, removed, -⟩, exiting⟩ := ends
  obtain ⟨received, others, -⟩ := blocks
  have allocated : (receivedBuffer 0 0 0).Allocated := by decide
  obtain ⟨streams, -⟩ := newWorkerLoop_processes (fun _ => ⟨allocated, rfl⟩) run
  obtain ⟨-, -, -, -, refused⟩ := streams 0
  have ended : loop.system.queue.exit = true := refused [1] (by simp [received])
  refine ⟨loop, run, first, received, ended, second, removed, others, fun connection => ?_⟩
  obtain ⟨-, whole, -, empty, -⟩ := streams connection
  rwa [empty exiting, List.append_nil] at whole

end Aio4c
