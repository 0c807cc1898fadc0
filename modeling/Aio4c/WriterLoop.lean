import Aio4c.OutboundAccounting

/-! One writer with all its connections, up to the EXIT that tells it to end. Their events stand in
one queue, and the writer works on one connection at a time; for each connection that is not closed
this comes to a writer of its own. WRITE handlers append blocks that fit. -/

set_option autoImplicit false

namespace Aio4c

open TransitionSystem

/-- A connection of the writer, how many calls of `EnableWriteInterest` stand between their test
and their enqueueing, what happened so far, whether the connection was closed and whether its
CLOSE handler was called. -/
structure WrittenConnection where
  connection : Connection
  interests : Nat
  accepted : Nat
  appended : List UInt8
  sent : List UInt8
  closed : Bool
  announced : Bool

/-- Where the thread is in `_WriterRun`: between two items, at a point of a write, or with a CLOSE
event taken. -/
inductive WriterLoopPoint where
  | idle
  | writes (id : Nat) (point : WriterPoint)
  | removes (id : Nat)
  deriving DecidableEq, Repr

structure WriterLoop where
  connections : Nat → WrittenConnection
  queue : Fifo (Nat × Event)
  point : WriterLoopPoint

def newWriterLoop (connections : Nat → Connection) : WriterLoop :=
  { connections := fun id =>
      { connection := connections id, interests := 0, accepted := 0, appended := [], sent := []
        closed := false, announced := false }
    queue := Fifo.empty, point := .idle }

inductive WriterLoopAction where
  | enableWriteInterest (id : Nat)
  | writerEventHandler (id : Nat)
  | pendingClose (id : Nat)
  | close (id : Nat)
  | closeEventHandler (id : Nat)
  | dequeue
  | fill (blocks : List (List UInt8))
  | refuse
  | send (outcome : SendOutcome)
  | reenqueue
  | removeAll

namespace WriterLoop

def set (loop : WriterLoop) (id : Nat) (target : WrittenConnection) : WriterLoop :=
  { loop with connections := Function.update loop.connections id target }

end WriterLoop

/-- The callback `_WriterRemove`, whose items are all events. -/
def writerRemove (id : Nat) (item : Nat × Event) : Bool := item.1 = id

/-- One step; `none` where the action is not the one that can happen next, and where a buffer is
used outside its bounds. A connection is closed by a call of `ConnectionClose`, by a failed `send`
and by a write to a connection that must not be written to. -/
def writerLoopStep (loop : WriterLoop) : WriterLoopAction → Option WriterLoop
  | .enableWriteInterest id =>
      let target := loop.connections id
      if target.connection.canWrite then do
        let connection ←
          (connectionEventHandle (appending []) target.connection .outboundData).toOption
        some (loop.set id { target with connection, interests := target.interests + 1 })
      else some loop
  | .writerEventHandler id =>
      let target := loop.connections id
      match target.interests with
      | 0 => none
      | interests + 1 =>
          let (enqueued, queue) := loop.queue.push (id, .outboundData)
          some { loop.set id { target with
              interests, accepted := target.accepted + if enqueued then 1 else 0 } with queue }
  | .pendingClose id => do
      let target := loop.connections id
      let connection ← (connectionClose (appending []) target.connection false).toOption
      some (loop.set id { target with connection })
  | .close id => do
      let target := loop.connections id
      let connection ← (connectionClose (appending []) target.connection true).toOption
      some (loop.set id { target with connection, closed := true })
  | .closeEventHandler id =>
      let target := loop.connections id
      if target.closed ∧ target.announced = false then
        some { loop.set id { target with announced := true } with
          queue := (loop.queue.push (id, .close)).2 }
      else none
  | .dequeue =>
      match loop.point, loop.queue.dequeue true with
      | .idle, (.taken (id, .outboundData), queue) =>
          some { loop with queue, point := .writes id .taken }
      | .idle, (.taken (id, .close), queue) => some { loop with queue, point := .removes id }
      | .idle, (.drained, queue) => some { loop with queue }
      | _, _ => none
  | .fill blocks =>
      match loop.point with
      | .writes id .taken =>
          let target := loop.connections id
          if target.connection.canWrite ∧
              (blocks.flatten.length : Int) ≤ target.connection.writeBuffer.size then do
            let memorized := decide (target.connection.state = .pendingClose)
            let dispatched := !bufferHasRemaining target.connection.writeBuffer
            let connection ← (connectionFill (appending blocks) target.connection).toOption
            some { loop.set id { target with
                connection
                appended := target.appended ++ if dispatched then blocks.flatten else [] } with
              point := .writes id (.filled memorized) }
          else none
      | _ => none
  | .refuse =>
      match loop.point with
      | .writes id .taken => do
          let target := loop.connections id
          if target.connection.canWrite then none
          else
            let connection ←
              (connectionHandleError (appending []) target.connection .connectionState).toOption
            some { loop.set id { target with connection, closed := true } with point := .idle }
      | _ => none
  | .send outcome =>
      match loop.point with
      | .writes id (.filled memorized) => do
          let target := loop.connections id
          let ((unfinished, bytes, _), connection) ←
            (connectionSend (appending []) target.connection memorized outcome).toOption
          let closed := match outcome with
            | .error => true
            | .count _ => target.closed
          some { loop.set id { target with connection, sent := target.sent ++ bytes, closed } with
            point := if unfinished then .writes id .unfinished else .idle }
      | _ => none
  | .reenqueue =>
      match loop.point with
      | .writes id .unfinished =>
          some { loop with queue := (loop.queue.push (id, .outboundData)).2, point := .idle }
      | _ => none
  | .removeAll =>
      match loop.point with
      | .removes id =>
          some { loop with queue := loop.queue.discard (writerRemove id), point := .idle }
      | _ => none

def WriterLoopStep (before : WriterLoop) (action : WriterLoopAction) (after : WriterLoop) : Prop :=
  writerLoopStep before action = some after

/-! ## One connection of many -/

namespace WriterLoop

variable (loop : WriterLoop)

/-- The point of a writer that has this connection only. -/
def pointOf (id : Nat) : WriterPoint :=
  match loop.point with
  | .writes current point => if current = id then point else .idle
  | .idle | .removes _ => .idle

/-- The writer as a connection sees it. Its own queue may still have the drained mark, which the
writer has passed while it worked for others. -/
def view (id : Nat) (emptied : Bool) : Outbound :=
  let target := loop.connections id
  { connection := target.connection
    queue := { items := loop.queue.select id, exit := false, emptied }
    writer := loop.pointOf id, interests := target.interests, accepted := target.accepted
    appended := target.appended, sent := target.sent }

/-- A CLOSE event is that of a closed connection, in the queue and behind it. -/
structure Announced : Prop where
  endless : loop.queue.exit = false
  queued : ∀ id, (id, Event.close) ∈ loop.queue.items → (loop.connections id).closed = true
  removed : ∀ id, loop.point = .removes id → (loop.connections id).closed = true

end WriterLoop

theorem newWriterLoop_announced (connections : Nat → Connection) :
    (newWriterLoop connections).Announced where
  endless := rfl
  queued _ member := nomatch member
  removed _ same := nomatch same

section

variable {loop after : WriterLoop} {id : Nat}

/-- A step of one connection: the others stay, and none opens again. -/
structure WriterLoop.Touches (loop after : WriterLoop) (id : Nat) : Prop where
  others : ∀ other, other ≠ id → after.connections other = loop.connections other
  closed : (loop.connections id).closed = true → (after.connections id).closed = true

theorem WriterLoop.Touches.closes (touches : loop.Touches after id) {other : Nat}
    (closed : (loop.connections other).closed = true) :
    (after.connections other).closed = true := by
  by_cases same : other = id
  · exact same ▸ touches.closed (same ▸ closed)
  · rw [touches.others other same]
    exact closed

theorem WriterLoop.set_self (loop : WriterLoop) (id : Nat) :
    loop.set id (loop.connections id) = loop := by
  rw [WriterLoop.set, Function.update_eq_self]

theorem WriterLoop.set_touches {target : WrittenConnection} {queue : Fifo (Nat × Event)}
    {point : WriterLoopPoint}
    (closed : (loop.connections id).closed = true → target.closed = true) :
    loop.Touches { loop.set id target with queue, point } id where
  others _ differs := Function.update_of_ne differs _ _
  closed := by
    simpa [WriterLoop.set] using closed

/-- What a step of a connection does to the view of it. -/
theorem WriterLoop.view_set {target : WrittenConnection} {queue : Fifo (Nat × Event)}
    {point : WriterLoopPoint} (emptied : Bool) :
    WriterLoop.view { loop.set id target with queue, point } id emptied =
      { connection := target.connection
        queue := { items := queue.select id, exit := false, emptied }
        writer := WriterLoop.pointOf { loop with point } id, interests := target.interests
        accepted := target.accepted, appended := target.appended, sent := target.sent } := by
  simp [WriterLoop.view, WriterLoop.set, WriterLoop.pointOf]

/-- A step that concerns one connection. The others do not see it, and unless the connection is
closed its own writer takes steps to the same end. -/
structure WriterLoop.Moves (loop after : WriterLoop) (id : Nat) : Prop where
  touches : loop.Touches after id
  announced : after.Announced
  others : ∀ other, other ≠ id → ∀ emptied, after.view other emptied = loop.view other emptied
  own : (after.connections id).closed = true ∨ ∀ emptied, ∃ trace emptied',
    Run OutboundStep (loop.view id emptied) trace (after.view id emptied')

theorem WriterLoop.Touches.view (touches : loop.Touches after id) {other : Nat}
    (differs : other ≠ id) (queue : after.queue.select other = loop.queue.select other)
    (point : after.pointOf other = loop.pointOf other) (emptied : Bool) :
    after.view other emptied = loop.view other emptied := by
  simp [WriterLoop.view, touches.others other differs, queue, point]

/-- A writer between two items takes the first, behind the end of a burst where it has one to
report. -/
theorem outboundStep_takes {state : Outbound} (idle : state.writer = .idle) {rest : List Event}
    {emptied : Bool}
    (queue : state.queue = { items := .outboundData :: rest, exit := false, emptied }) :
    ∃ trace emptied', Run OutboundStep state trace { state with
      queue := { items := rest, exit := false, emptied := emptied' }, writer := .taken } := by
  have takes : ∀ {state : Outbound}, state.writer = .idle →
      state.queue = { items := .outboundData :: rest, exit := false, emptied := false } →
      OutboundStep state .dequeue { state with
        queue := { items := rest, exit := false, emptied := rest.isEmpty }, writer := .taken } := by
    intro state idle queue
    simp [OutboundStep, outboundNext, outboundStep, idle, queue, Fifo.dequeue, Fifo.await,
      Fifo.take, pure, Except.pure]
  cases emptied with
  | false => exact ⟨[.dequeue], rest.isEmpty, .cons (takes idle queue) (.nil _)⟩
  | true =>
      have drained : OutboundStep state .dequeue { state with
          queue := { items := .outboundData :: rest, exit := false, emptied := false } } := by
        simp [OutboundStep, outboundNext, outboundStep, idle, queue, Fifo.dequeue, pure,
          Except.pure]
      exact ⟨[.dequeue, .dequeue], rest.isEmpty, .cons drained (.cons (takes idle rfl) (.nil _))⟩

theorem WriterLoop.Announced.stays (announced : loop.Announced) (id : Nat) :
    loop.Moves loop id where
  touches := { others := fun _ _ => rfl, closed := fun closed => closed }
  announced := announced
  others _ _ _ := rfl
  own := .inr fun emptied => ⟨[], emptied, .nil _⟩

/-- A step of a connection that leaves the items of the others, and the writer where it was as far
as they see it. -/
theorem WriterLoop.Announced.acts (announced : loop.Announced) {target : WrittenConnection}
    {queue : Fifo (Nat × Event)} {point : WriterLoopPoint}
    (closed : (loop.connections id).closed = true → target.closed = true)
    (endless : queue.exit = false)
    (queued : ∀ other, (other, Event.close) ∈ queue.items →
      (other, Event.close) ∈ loop.queue.items ∨ other = id ∧ target.closed = true)
    (removed : ∀ other, point = .removes other → (loop.connections other).closed = true)
    (select : ∀ other, other ≠ id → queue.select other = loop.queue.select other)
    (idle : ∀ other, other ≠ id → WriterLoop.pointOf { loop with point } other = loop.pointOf other)
    (own : target.closed = true ∨ ∀ emptied, ∃ trace emptied',
      Run OutboundStep (loop.view id emptied) trace
        { connection := target.connection
          queue := { items := queue.select id, exit := false, emptied := emptied' }
          writer := WriterLoop.pointOf { loop with point } id, interests := target.interests
          accepted := target.accepted, appended := target.appended, sent := target.sent }) :
    loop.Moves { loop.set id target with queue, point } id := by
  have touches : loop.Touches { loop.set id target with queue, point } id :=
    WriterLoop.set_touches closed
  refine { touches, announced := ?_, others := ?_, own := ?_ }
  · refine { endless, queued := ?_, removed := ?_ }
    · intro other member
      rcases queued other member with earlier | ⟨rfl, closing⟩
      · exact touches.closes (announced.queued other earlier)
      · simpa [WriterLoop.set] using closing
    · intro other same
      exact touches.closes (removed other same)
  · intro other differs
    exact touches.view differs (select other differs) (idle other differs)
  · rcases own with closed | steps
    · exact .inl (by simpa [WriterLoop.set] using closed)
    · refine .inr fun emptied => ?_
      obtain ⟨trace, emptied', run⟩ := steps emptied
      exact ⟨trace, emptied', WriterLoop.view_set emptied' ▸ run⟩

/-- A step of a connection that leaves the queue and the writer. -/
theorem WriterLoop.Announced.connection (announced : loop.Announced) {target : WrittenConnection}
    (closed : (loop.connections id).closed = true → target.closed = true)
    (own : target.closed = true ∨ ∀ emptied, ∃ action, outboundNext (loop.view id emptied) action =
      some { connection := target.connection
             queue := { items := loop.queue.select id, exit := false, emptied }
             writer := loop.pointOf id, interests := target.interests
             accepted := target.accepted, appended := target.appended, sent := target.sent }) :
    loop.Moves (loop.set id target) id := by
  refine announced.acts closed announced.endless (fun _ member => .inl member) announced.removed
    (fun _ _ => rfl) (fun _ _ => rfl) (own.imp_right fun steps emptied => ?_)
  obtain ⟨action, next⟩ := steps emptied
  exact ⟨[action], emptied, .cons next (.nil _)⟩

/-- An event of the connection is pushed. -/
theorem WriterLoop.Announced.pushes (announced : loop.Announced) {target : WrittenConnection}
    {point : WriterLoopPoint} {event : Event}
    (closed : (loop.connections id).closed = true → target.closed = true)
    (closes : event = .close → target.closed = true)
    (removed : ∀ other, point = .removes other → (loop.connections other).closed = true)
    (idle : ∀ other, other ≠ id → WriterLoop.pointOf { loop with point } other = loop.pointOf other)
    (own : target.closed = true ∨ ∀ emptied, ∃ action, outboundNext (loop.view id emptied) action =
      some { connection := target.connection
             queue := { items := loop.queue.select id ++ [event], exit := false, emptied }
             writer := WriterLoop.pointOf { loop with point } id, interests := target.interests
             accepted := target.accepted, appended := target.appended, sent := target.sent }) :
    loop.Moves { loop.set id target with queue := (loop.queue.push (id, event)).2, point } id := by
  refine announced.acts closed (Fifo.push_exit announced.endless _) ?_ removed ?_ idle
    (own.imp_right fun steps emptied => ?_)
  · intro other member
    rw [Fifo.push_items announced.endless, List.mem_append, List.mem_singleton, Prod.mk.injEq]
      at member
    exact member.imp_right fun ⟨same, close⟩ => ⟨same, closes close.symm⟩
  · intro other differs
    exact Fifo.select_push_other announced.endless differs.symm _
  · obtain ⟨action, next⟩ := steps emptied
    rw [Fifo.select_push_self announced.endless]
    exact ⟨[action], emptied, .cons next (.nil _)⟩

end

section

variable {loop after : WriterLoop}

theorem WriterLoop.pointOf_writes {id : Nat} {point : WriterPoint}
    (current : loop.point = .writes id point) :
    loop.pointOf id = point ∧ ∀ other, other ≠ id → loop.pointOf other = .idle := by
  refine ⟨by simp [WriterLoop.pointOf, current], fun other differs => ?_⟩
  simp [WriterLoop.pointOf, current, Ne.symm differs]

/-- A step of the writer inside a write: it stays with the connection or is done with it. -/
theorem WriterLoop.Announced.works {id : Nat} (announced : loop.Announced)
    {target : WrittenConnection} {now next : WriterPoint} {point : WriterLoopPoint}
    (current : loop.point = .writes id now)
    (closed : (loop.connections id).closed = true → target.closed = true)
    (stays : point = .writes id next ∨ point = .idle ∧ next = .idle)
    (own : target.closed = true ∨ ∀ emptied, ∃ action, outboundNext (loop.view id emptied) action =
      some { connection := target.connection
             queue := { items := loop.queue.select id, exit := false, emptied }
             writer := next, interests := target.interests
             accepted := target.accepted, appended := target.appended, sent := target.sent }) :
    loop.Moves { loop.set id target with point } id := by
  have here : WriterLoop.pointOf { loop with point } id = next := by
    rcases stays with rfl | ⟨rfl, rfl⟩
    · simp [WriterLoop.pointOf]
    · rfl
  refine announced.acts closed announced.endless (fun _ member => .inl member) ?_
    (fun _ _ => rfl) ?_ (own.imp_right fun steps emptied => ?_)
  · rintro other rfl
    rcases stays with same | ⟨same, _⟩ <;> cases same
  · intro other differs
    rw [(loop.pointOf_writes current).2 other differs]
    rcases stays with rfl | ⟨rfl, rfl⟩
    · simp [WriterLoop.pointOf, Ne.symm differs]
    · rfl
  · obtain ⟨action, step⟩ := steps emptied
    rw [here]
    exact ⟨[action], emptied, .cons step (.nil _)⟩

theorem WriterLoop.Announced.dequeues (announced : loop.Announced)
    (taken : WriterLoopStep loop .dequeue after) : ∃ id, loop.Moves after id := by
  unfold WriterLoopStep at taken
  simp only [writerLoopStep] at taken
  split at taken
  · next id queue idle dequeued =>
      cases taken
      have items := Fifo.select_taken_self dequeued
      have same : ({ loop with queue, point := .writes id .taken } : WriterLoop) =
          { loop.set id (loop.connections id) with queue, point := .writes id .taken } := by
        rw [loop.set_self]
      refine ⟨id, same ▸ announced.acts (fun closed => closed) ?_ ?_ (by simp) ?_ ?_
        (.inr fun emptied => ?_)⟩
      · exact (Fifo.dequeue_taken dequeued).2.trans announced.endless
      · intro other member
        rw [(Fifo.dequeue_taken dequeued).1]
        exact .inl (List.mem_cons_of_mem _ member)
      · intro other differs
        exact (Fifo.select_taken_other dequeued differs.symm).symm
      · intro other differs
        simp [WriterLoop.pointOf, idle, Ne.symm differs]
      · have start : (loop.view id emptied).writer = .idle := by
          simp [WriterLoop.view, WriterLoop.pointOf, idle]
        obtain ⟨trace, emptied', run⟩ := outboundStep_takes start
          (congrArg (fun items => ({ items, exit := false, emptied } : Fifo Event)) items)
        refine ⟨trace, emptied', ?_⟩
        simpa [WriterLoop.view, WriterLoop.pointOf] using run
  · next id queue idle dequeued =>
      cases taken
      have same : ({ loop with queue, point := .removes id } : WriterLoop) =
          { loop.set id (loop.connections id) with queue, point := .removes id } := by
        rw [loop.set_self]
      have closed : (loop.connections id).closed = true := by
        apply announced.queued
        rw [(Fifo.dequeue_taken dequeued).1]
        exact List.mem_cons_self
      refine ⟨id, same ▸ announced.acts (fun closed => closed) ?_ ?_ ?_ ?_ ?_ (.inl closed)⟩
      · exact (Fifo.dequeue_taken dequeued).2.trans announced.endless
      · intro other member
        rw [(Fifo.dequeue_taken dequeued).1]
        exact .inl (List.mem_cons_of_mem _ member)
      · rintro other ⟨⟩
        exact closed
      · intro other differs
        exact (Fifo.select_taken_other dequeued differs.symm).symm
      · intro other differs
        simp [WriterLoop.pointOf, idle]
  · next queue idle dequeued =>
      cases taken
      obtain ⟨items, exit, _⟩ := Fifo.dequeue_missed dequeued (by simp)
      have same : ({ loop with queue } : WriterLoop) =
          { loop.set 0 (loop.connections 0) with queue, point := loop.point } := by
        rw [loop.set_self]
      refine ⟨0, same ▸ announced.acts (fun closed => closed) (exit.trans announced.endless) ?_
        announced.removed ?_ (fun _ _ => rfl) (.inr fun emptied => ?_)⟩
      · exact fun other member => .inl (items ▸ member)
      · exact fun other _ => Fifo.select_congr items other
      · refine ⟨[], emptied, ?_⟩
        rw [Fifo.select_congr items]
        exact .nil _
  · cases taken

theorem WriterLoop.Announced.moves (announced : loop.Announced) {action : WriterLoopAction}
    (taken : WriterLoopStep loop action after) : ∃ id, loop.Moves after id := by
  unfold WriterLoopStep at taken
  cases action with
  | enableWriteInterest id =>
      simp only [writerLoopStep] at taken
      split at taken
      · next canWrite =>
          obtain ⟨connection, dispatched, taken⟩ := Access.toOption_bind taken
          cases taken
          refine ⟨id, announced.connection (fun closed => closed)
            (.inr fun emptied => ⟨.enableWriteInterest, ?_⟩)⟩
          simp [outboundNext, outboundStep, WriterLoop.view, canWrite, dispatched, bind,
            Except.bind, pure, Except.pure]
      · cases taken
        exact ⟨id, announced.stays id⟩
  | pendingClose id =>
      obtain ⟨connection, closed, taken⟩ := Access.toOption_bind taken
      cases taken
      refine ⟨id, announced.connection (fun closed => closed)
        (.inr fun emptied => ⟨.pendingClose, ?_⟩)⟩
      simp [outboundNext, outboundStep, WriterLoop.view, closed, bind, Except.bind, pure,
        Except.pure]
  | close id =>
      obtain ⟨connection, _, taken⟩ := Access.toOption_bind taken
      cases taken
      exact ⟨id, announced.connection (fun _ => rfl) (.inl rfl)⟩
  | writerEventHandler id =>
      simp only [writerLoopStep] at taken
      split at taken
      · cases taken
      · next interests counted =>
          have same : after = { loop.set id { loop.connections id with
              interests, accepted := (loop.connections id).accepted + 1 } with
              queue := (loop.queue.push (id, .outboundData)).2 } := by
            rw [Fifo.push_open announced.endless] at taken ⊢
            exact (Option.some.inj taken).symm
          subst same
          refine ⟨id, announced.pushes (fun closed => closed) (by simp) announced.removed
            (fun _ _ => rfl) (.inr fun emptied => ⟨.writerEventHandler, ?_⟩)⟩
          simp [outboundNext, outboundStep, WriterLoop.view, counted, Fifo.push, Fifo.enqueue,
            pure, Except.pure]
          rfl
  | closeEventHandler id =>
      simp only [writerLoopStep, Option.ite_none_right_eq_some, Option.some.injEq] at taken
      obtain ⟨⟨closed, _⟩, rfl⟩ := taken
      exact ⟨id, announced.pushes (fun closed => closed) (fun _ => closed) announced.removed
        (fun _ _ => rfl) (.inl closed)⟩
  | dequeue => exact announced.dequeues taken
  | fill blocks =>
      simp only [writerLoopStep] at taken
      split at taken
      · next id point =>
          simp only [Option.ite_none_right_eq_some] at taken
          obtain ⟨⟨canWrite, fits⟩, taken⟩ := taken
          obtain ⟨connection, filled, taken⟩ := Access.toOption_bind taken
          cases taken
          refine ⟨id, announced.works point (fun closed => closed) (.inl rfl)
            (.inr fun emptied => ⟨.fill blocks, ?_⟩)⟩
          simp [-List.length_flatten, outboundNext, outboundStep, WriterLoop.view,
            WriterLoop.pointOf, point, canWrite, fits, filled, bind, Except.bind, pure,
            Except.pure]
      · cases taken
  | refuse =>
      simp only [writerLoopStep] at taken
      split at taken
      · next id point =>
          split at taken
          · cases taken
          · obtain ⟨connection, _, taken⟩ := Access.toOption_bind taken
            cases taken
            exact ⟨id, announced.works point (fun _ => rfl) (.inr ⟨rfl, rfl⟩) (.inl rfl)⟩
      · cases taken
  | send outcome =>
      simp only [writerLoopStep] at taken
      split at taken
      · next id memorized point =>
          obtain ⟨⟨⟨unfinished, bytes, shutdown⟩, connection⟩, sent, taken⟩ :=
            Access.toOption_bind taken
          cases taken
          have stays : (if unfinished = true then WriterLoopPoint.writes id .unfinished
                else .idle) = .writes id (if unfinished = true then .unfinished else .idle) ∨
              (if unfinished = true then WriterLoopPoint.writes id .unfinished else .idle) = .idle ∧
                (if unfinished = true then WriterPoint.unfinished else .idle) = .idle := by
            cases unfinished <;> simp
          cases outcome with
          | error => exact ⟨id, announced.works point (fun _ => rfl) stays (.inl rfl)⟩
          | count count =>
              refine ⟨id, announced.works point (fun closed => closed) stays
                (.inr fun emptied => ⟨.send count, ?_⟩)⟩
              simp [outboundNext, outboundStep, WriterLoop.view, WriterLoop.pointOf, point, sent,
                bind, Except.bind, pure, Except.pure]
      · cases taken
  | reenqueue =>
      simp only [writerLoopStep] at taken
      split at taken
      · next id point =>
          cases taken
          have same : ({ loop with
                queue := (loop.queue.push (id, .outboundData)).2, point := .idle } : WriterLoop) =
              { loop.set id (loop.connections id) with
                queue := (loop.queue.push (id, .outboundData)).2, point := .idle } := by
            rw [loop.set_self]
          refine ⟨id, same ▸ announced.pushes (fun closed => closed) (by simp) (by simp) ?_
            (.inr fun emptied => ⟨.reenqueue, ?_⟩)⟩
          · intro other differs
            exact ((loop.pointOf_writes point).2 other differs).symm
          · simp [outboundNext, outboundStep, WriterLoop.view, WriterLoop.pointOf, point,
              Fifo.push, Fifo.enqueue, pure, Except.pure]
      · cases taken
  | removeAll =>
      simp only [writerLoopStep] at taken
      split at taken
      · next id point =>
          cases taken
          have same : ({ loop with
                queue := loop.queue.discard (writerRemove id), point := .idle } : WriterLoop) =
              { loop.set id (loop.connections id) with
                queue := loop.queue.discard (writerRemove id), point := .idle } := by
            rw [loop.set_self]
          refine ⟨id, same ▸ announced.acts (fun closed => closed) announced.endless ?_ (by simp)
            ?_ ?_ (.inl (announced.removed id point))⟩
          · intro other member
            rw [Fifo.discard_items] at member
            exact .inl (List.mem_filter.mp member).1
          · intro other differs
            exact Fifo.select_discard fun event => by simp [writerRemove, differs]
          · intro other _
            simp [WriterLoop.pointOf, point]
      · cases taken

/-! ## Runs -/

/-- The loop and, unless the connection was closed, a writer of its own. -/
def WriterLoop.Follows (id : Nat) (loop : WriterLoop) (single : Outbound) : Prop :=
  loop.Announced ∧
    ((loop.connections id).closed = true ∨ ∃ emptied, single = loop.view id emptied)

theorem WriterLoop.Follows.step {id : Nat} {single : Outbound} {action : WriterLoopAction}
    (follows : WriterLoop.Follows id loop single) (taken : WriterLoopStep loop action after) :
    ∃ trace single', Run OutboundStep single trace single' ∧
      WriterLoop.Follows id after single' := by
  obtain ⟨announced, follows⟩ := follows
  obtain ⟨current, moves⟩ := announced.moves taken
  rcases follows with closed | ⟨emptied, rfl⟩
  · exact ⟨[], single, .nil _, moves.announced, .inl (moves.touches.closes closed)⟩
  · by_cases same : id = current
    · subst same
      rcases moves.own with closed | steps
      · exact ⟨[], _, .nil _, moves.announced, .inl closed⟩
      · obtain ⟨trace, emptied', run⟩ := steps emptied
        exact ⟨trace, _, run, moves.announced, .inr ⟨emptied', rfl⟩⟩
    · refine ⟨[], _, .nil _, moves.announced, .inr ⟨emptied, ?_⟩⟩
      exact (moves.others id same emptied).symm

end

section

variable {connections : Nat → Connection} {actions : List WriterLoopAction} {loop : WriterLoop}

theorem follows_of_run (run : Run WriterLoopStep (newWriterLoop connections) actions loop)
    {id : Nat} (opened : (loop.connections id).closed = false) :
    ∃ trace emptied, Run OutboundStep (newOutbound (connections id)) trace
      (loop.view id emptied) := by
  have start : WriterLoop.Follows id (newWriterLoop connections) (newOutbound (connections id)) :=
    ⟨newWriterLoop_announced connections, .inr ⟨false, rfl⟩⟩
  obtain ⟨trace, single, runs, _, follows⟩ := run.simulates (fun _ _ => trivial)
    (fun _ _ _ _ _ follows taken => WriterLoop.Follows.step follows taken) start
  rcases follows with closed | ⟨emptied, rfl⟩
  · exact absurd (opened.symm.trans closed) Bool.false_ne_true
  · exact ⟨trace, emptied, runs⟩

/-- In every run of a writer with any number of connections, each of them that was not closed is
where a writer of its own would be: the others neither take its events nor put them in another
order, nor do they come between the steps of its writes. -/
theorem newWriterLoop_refines
    (run : Run WriterLoopStep (newWriterLoop connections) actions loop) {id : Nat}
    (opened : (loop.connections id).closed = false) :
    ∃ trace emptied, Run OutboundStep (newOutbound (connections id)) trace
      (loop.view id emptied) :=
  follows_of_run run opened

/-- Whatever becomes of the other connections: of a connection that was not closed every byte is
sent or still in its buffer, in order; bytes that are left are asked for; and once no event of it
is left, every interest that was taken had its own WRITE dispatch. -/
theorem newWriterLoop_conserves {id : Nat} (writable : (connections id).Writable)
    (drained : bufferHasRemaining (connections id).writeBuffer = false)
    (fresh : Event.write ∉ (connections id).events)
    (run : Run WriterLoopStep (newWriterLoop connections) actions loop)
    (opened : (loop.connections id).closed = false) :
    let target := loop.connections id
    target.sent ++ target.connection.writeBuffer.window = target.appended ∧
      (loop.pointOf id = .idle → bufferHasRemaining target.connection.writeBuffer = true →
        (id, Event.outboundData) ∈ loop.queue.items) ∧
      (loop.pointOf id = .idle → loop.queue.select id = [] →
        target.connection.events.count .write = target.accepted) := by
  intro target
  obtain ⟨trace, emptied, runs⟩ := follows_of_run run opened
  have balanced := (newOutbound_balanced writable drained fresh).run runs
  have requested : loop.pointOf id = .idle →
      bufferHasRemaining target.connection.writeBuffer = true →
      Event.outboundData ∈ loop.queue.select id := by
    intro idle more
    exact balanced.requested idle (if_pos more)
  refine ⟨balanced.bytes, fun idle more => Fifo.mem_select.mp (requested idle more), ?_⟩
  intro idle empty
  have none : (loop.view id emptied).left = 0 := by
    apply if_neg
    intro more
    have asked := requested idle more
    rw [empty] at asked
    cases asked
  have accounts := balanced.accounts
  have here : (loop.view id emptied).writer = .idle := idle
  have unqueued : (loop.view id emptied).queued = 0 := by
    simp [Outbound.queued, WriterLoop.view, empty]
  simp only [Outbound.Accounts, here, none, unqueued, Nat.add_zero] at accounts
  exact accounts

end

/-- A connection with a write buffer of two bytes. -/
def twoBytes : Connection :=
  let buffer : Buffer := { size := 2, data := [0, 0, 0, 0], position := 0, limit := 2 }
  { newConnection buffer buffer with state := .connected, canWrite := true }

/-- Half of what connection 0 has to send is sent, and connection 1 is closed before the writer
goes on with the rest. -/
def sendsInHalves : List WriterLoopAction :=
  [.enableWriteInterest 0, .writerEventHandler 0, .enableWriteInterest 1, .writerEventHandler 1,
    .dequeue, .fill [[7], [8]], .send (.count 1), .close 1, .closeEventHandler 1, .reenqueue,
    .dequeue, .refuse, .dequeue, .removeAll, .dequeue]

theorem sendsInHalves_run : ∃ loop,
    Run WriterLoopStep (newWriterLoop fun _ => twoBytes) sendsInHalves loop ∧
      (loop.connections 0).closed = false ∧ (loop.connections 0).sent = [7] := by
  obtain ⟨loop, runs, run⟩ := exists_run_of_execute WriterLoopStep writerLoopStep
    (newWriterLoop fun _ => twoBytes) sendsInHalves (fun _ _ _ taken => taken) (by decide)
  have ends : (execute writerLoopStep (newWriterLoop fun _ => twoBytes) sendsInHalves).map
      (fun loop => ((loop.connections 0).closed, (loop.connections 0).sent)) =
        some (false, [7]) := by decide
  rw [runs, Option.map_some, Option.some.injEq, Prod.mk.injEq] at ends
  exact ⟨loop, run, ends⟩

theorem newWriterLoop_refines_halves : ∃ loop trace emptied,
    Run WriterLoopStep (newWriterLoop fun _ => twoBytes) sendsInHalves loop ∧
      Run OutboundStep (newOutbound twoBytes) trace (loop.view 0 emptied) := by
  obtain ⟨loop, run, opened, _⟩ := sendsInHalves_run
  obtain ⟨trace, emptied, single⟩ := newWriterLoop_refines run opened
  exact ⟨loop, trace, emptied, run, single⟩

theorem newWriterLoop_conserves_halves : ∃ loop,
    Run WriterLoopStep (newWriterLoop fun _ => twoBytes) sendsInHalves loop ∧
      [7] ++ (loop.connections 0).connection.writeBuffer.window =
        (loop.connections 0).appended := by
  obtain ⟨loop, run, opened, sent⟩ := sendsInHalves_run
  have writable : twoBytes.Writable :=
    ⟨rfl, ⟨⟨by decide, by decide, by decide⟩, by decide⟩, by decide⟩
  have bytes := (newWriterLoop_conserves writable rfl (by decide) run opened).1
  exact ⟨loop, run, sent ▸ bytes⟩

end Aio4c
