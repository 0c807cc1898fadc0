import Aio4c.Library.Fifo
import Aio4c.ReaderLoad

/-! The queue of an acceptor, over all connections it accepts. The CLOSE handler of a connection
takes it out again, and what is left at the end is closed by `_AcceptorExit`; either of the two
says once that the acceptor is done with the connection. -/

set_option autoImplicit false

namespace Aio4c

open TransitionSystem

/-- Where `_AcceptorCloseHandler` stands for a connection. It is called once; `gone` is behind its
call, or where `EventHandlerRemove` has removed it. -/
inductive CloseHandlerPoint where
  | installed
  | called
  | emptied
  | gone
  deriving DecidableEq, Repr

/-- Where the acceptor is: between two connections, with one accepted that is not yet
INITIALIZED, not yet in the queue or not yet with a reader, in `_AcceptorExit` between two
connections, with one taken from the queue, without its handler or closed, or behind the loop. -/
inductive AcceptorLoopPoint where
  | idle
  | accepted (id : Nat)
  | initialized (id : Nat)
  | enqueued (id : Nat)
  | exiting
  | taken (id : Nat)
  | unhandled (id : Nat)
  | closed (id : Nat)
  | done
  deriving DecidableEq, Repr

/-- The acceptor with the CLOSE handlers of its connections, which are numbered as they are
accepted; how often `ConnectionNoMoreUsed` was called for it, the readers that got connections,
and the probe of the number of connections. -/
structure AcceptorLoop where
  point : AcceptorLoopPoint
  created : Nat
  queue : Fifo Nat
  closeHandler : Nat → CloseHandlerPoint
  noMoreUsed : Nat → Nat
  managed : List (Nat × Nat)
  connectionCount : Int

def newAcceptorLoop : AcceptorLoop :=
  { point := .idle, created := 0, queue := Fifo.empty, closeHandler := fun _ => .installed
    noMoreUsed := fun _ => 0, managed := [], connectionCount := 0 }

/-- `close` is the dispatch of CLOSE in any thread; the two steps behind it are those of the
handler. `manage` comes with the loads that `_ChooseReader` reads. -/
inductive AcceptorLoopAction where
  | accept
  | connectionState
  | enqueue
  | manage (loads : List Int)
  | close (id : Nat)
  | removeAll (id : Nat)
  | handlerNoMoreUsed (id : Nat)
  | stop
  | dequeue
  | eventHandlerRemove
  | connectionClose
  | exitNoMoreUsed
  deriving DecidableEq, Repr

namespace AcceptorLoop

def handles (loop : AcceptorLoop) (id : Nat) (point : CloseHandlerPoint) : AcceptorLoop :=
  { loop with closeHandler := Function.update loop.closeHandler id point }

/-- `ConnectionNoMoreUsed` with the owner of the acceptor. -/
def acknowledge (loop : AcceptorLoop) (id : Nat) : AcceptorLoop :=
  { loop with noMoreUsed := Function.update loop.noMoreUsed id (loop.noMoreUsed id + 1) }

end AcceptorLoop

/-- The callback `_AcceptorRemoveCallback`; all items are data items. -/
def acceptorRemoveCallback (id item : Nat) : Bool := item = id

/-- One step. A connection that is not INITIALIZED is known to nobody else. -/
def acceptorLoopStep (loop : AcceptorLoop) : AcceptorLoopAction → Option AcceptorLoop
  | .accept =>
      match loop.point with
      | .idle => some { loop with point := .accepted loop.created, created := loop.created + 1 }
      | _ => none
  | .connectionState =>
      match loop.point with
      | .accepted id => some { loop with point := .initialized id }
      | _ => none
  | .enqueue =>
      match loop.point with
      | .initialized id => some { loop with queue := (loop.queue.push id).2, point := .enqueued id }
      | _ => none
  | .manage loads =>
      match loop.point with
      | .enqueued id =>
          (chooseReader loads).map fun reader =>
            { loop with
              managed := loop.managed ++ [(id, reader)], point := .idle
              connectionCount := loop.connectionCount + 1 }
      | _ => none
  | .close id =>
      if id < loop.created ∧ loop.point ≠ .accepted id ∧ loop.closeHandler id = .installed then
        some (loop.handles id .called)
      else none
  | .removeAll id =>
      if loop.closeHandler id = .called then
        some { loop.handles id .emptied with
          queue := loop.queue.discard (acceptorRemoveCallback id) }
      else none
  | .handlerNoMoreUsed id =>
      if loop.closeHandler id = .emptied then
        some { (loop.handles id .gone).acknowledge id with
          connectionCount := loop.connectionCount - 1 }
      else none
  | .stop =>
      match loop.point with
      | .idle => some { loop with point := .exiting }
      | _ => none
  | .dequeue =>
      match loop.point, loop.queue.dequeue false with
      | .exiting, (.taken id, queue) => some { loop with queue, point := .taken id }
      | .exiting, (_, queue) => some { loop with queue, point := .done }
      | _, _ => none
  | .eventHandlerRemove =>
      match loop.point with
      | .taken id => some { loop.handles id .gone with point := .unhandled id }
      | _ => none
  | .connectionClose =>
      match loop.point with
      | .unhandled id => some { loop with point := .closed id }
      | _ => none
  | .exitNoMoreUsed =>
      match loop.point with
      | .closed id => some { loop.acknowledge id with point := .exiting }
      | _ => none

def AcceptorLoopStep (before : AcceptorLoop) (action : AcceptorLoopAction) (after : AcceptorLoop) :
    Prop :=
  acceptorLoopStep before action = some after

/-- No connection is closed between its INIT handlers and the queue, nor while `_AcceptorExit` is
about to take it or has not removed its handler. -/
def ClosedApart (loop : AcceptorLoop) : AcceptorLoopAction → Prop
  | .close id => loop.point ≠ .initialized id ∧ loop.point ≠ .taken id
  | .dequeue => ∀ id ∈ loop.queue.items.head?, loop.closeHandler id = .installed
  | _ => True

instance (loop : AcceptorLoop) (action : AcceptorLoopAction) :
    Decidable (ClosedApart loop action) :=
  match action with
  | .close id => inferInstanceAs (Decidable (loop.point ≠ .initialized id ∧ loop.point ≠ .taken id))
  | .dequeue =>
      inferInstanceAs (Decidable (∀ id ∈ loop.queue.items.head?, loop.closeHandler id = .installed))
  | .accept | .connectionState | .enqueue | .manage _ | .removeAll _ | .handlerNoMoreUsed _ | .stop
  | .eventHandlerRemove | .connectionClose | .exitNoMoreUsed => isTrue trivial

/-! ## Where a connection is -/

namespace AcceptorLoopPoint

/-- The connection that is on its way to a reader. -/
def receives : AcceptorLoopPoint → Option Nat
  | .accepted id | .initialized id | .enqueued id => some id
  | .idle | .exiting | .taken _ | .unhandled _ | .closed _ | .done => none

/-- The acceptor has the connection outside the queue, with its handler. -/
def holds : AcceptorLoopPoint → Option Nat
  | .accepted id | .initialized id | .taken id => some id
  | .idle | .enqueued _ | .exiting | .unhandled _ | .closed _ | .done => none

/-- The acceptor closes the connection itself. -/
def closes : AcceptorLoopPoint → Option Nat
  | .unhandled id | .closed id => some id
  | .idle | .accepted _ | .initialized _ | .enqueued _ | .exiting | .taken _ | .done => none

/-- The thread is in `_AcceptorExit` or behind it. -/
def exits : AcceptorLoopPoint → Bool
  | .exiting | .taken _ | .unhandled _ | .closed _ | .done => true
  | .idle | .accepted _ | .initialized _ | .enqueued _ => false

end AcceptorLoopPoint

namespace AcceptorLoop

/-- The connections go to the readers in the order in which they are accepted. -/
structure Serves (loop : AcceptorLoop) : Prop where
  ordered : loop.managed.map Prod.fst = List.range loop.managed.length
  created : loop.created = loop.managed.length + if loop.point.receives.isSome then 1 else 0
  latest : ∀ id ∈ loop.point.receives, id = loop.managed.length

/-- A connection is in the queue from its enqueueing to `RemoveAll` or to the acceptor's exit, and
then the acceptor is done with it once. -/
def Accounts (loop : AcceptorLoop) (id : Nat) : Prop :=
  match loop.closeHandler id with
  | .installed => loop.noMoreUsed id = 0 ∧ loop.point.closes ≠ some id ∧
      (loop.point.holds = some id → id < loop.created) ∧
      (id ∈ loop.queue.items ↔ id < loop.created ∧ loop.point.holds ≠ some id)
  | .called => id < loop.created ∧ loop.noMoreUsed id = 0 ∧ loop.point.closes ≠ some id ∧
      loop.point.holds ≠ some id ∧ id ∈ loop.queue.items
  | .emptied => id < loop.created ∧ loop.noMoreUsed id = 0 ∧ loop.point.closes ≠ some id ∧
      loop.point.holds ≠ some id ∧ id ∉ loop.queue.items
  | .gone => id < loop.created ∧
      loop.noMoreUsed id = (if loop.point.closes = some id then 0 else 1) ∧
      loop.point.holds ≠ some id ∧ id ∉ loop.queue.items

/-- The queue is in the order of the connections, and empty behind the loop of the exit. -/
structure Accounted (loop : AcceptorLoop) : Prop where
  endless : loop.queue.exit = false
  marked : loop.queue.emptied = true → loop.point.exits = true ∧ loop.queue.items = []
  drained : loop.point = .done → loop.queue.items = []
  ordered : loop.queue.items.Pairwise (· < ·)
  accounts : ∀ id, loop.Accounts id

end AcceptorLoop

theorem newAcceptorLoop_serves : newAcceptorLoop.Serves where
  ordered := rfl
  created := rfl
  latest _ member := nomatch member

theorem newAcceptorLoop_accounted : newAcceptorLoop.Accounted where
  endless := rfl
  marked same := nomatch same
  drained same := nomatch same
  ordered := .nil
  accounts id := by
    simp [newAcceptorLoop, AcceptorLoop.Accounts, AcceptorLoopPoint.holds,
      AcceptorLoopPoint.closes, Fifo.empty]

section

variable {loop after : AcceptorLoop} {id : Nat}

/-- A step keeps the account of a connection that it does not concern. -/
theorem AcceptorLoop.Accounts.unconcerned (accounts : loop.Accounts id)
    (handler : after.closeHandler id = loop.closeHandler id)
    (used : after.noMoreUsed id = loop.noMoreUsed id)
    (created : id < after.created ↔ id < loop.created)
    (queued : id ∈ after.queue.items ↔ id ∈ loop.queue.items)
    (holds : after.point.holds = some id ↔ loop.point.holds = some id)
    (closes : after.point.closes = some id ↔ loop.point.closes = some id) :
    after.Accounts id := by
  unfold AcceptorLoop.Accounts at accounts ⊢
  simpa only [handler, used, created, queued, holds, closes, ne_eq] using accounts

/-- The items of the queue are connections that nobody has taken out again. -/
theorem AcceptorLoop.Accounts.queued (accounts : loop.Accounts id)
    (member : id ∈ loop.queue.items) :
    id < loop.created ∧ loop.point.holds ≠ some id ∧ loop.noMoreUsed id = 0 := by
  unfold AcceptorLoop.Accounts at accounts
  cases handler : loop.closeHandler id <;> simp_all

theorem AcceptorLoop.Serves.unconcerned (serves : loop.Serves)
    (managed : after.managed = loop.managed) (created : after.created = loop.created)
    (receives : after.point.receives = loop.point.receives) : after.Serves where
  ordered := by simpa only [managed] using serves.ordered
  created := by simpa only [created, managed, receives] using serves.created
  latest := by simpa only [managed, receives] using serves.latest

theorem AcceptorLoop.Serves.step {action : AcceptorLoopAction} (serves : loop.Serves)
    (taken : AcceptorLoopStep loop action after) : after.Serves := by
  unfold AcceptorLoopStep at taken
  cases action with
  | accept =>
      simp only [acceptorLoopStep] at taken
      split at taken
      · next idle =>
          cases taken
          have created : loop.created = loop.managed.length := by
            simpa [idle, AcceptorLoopPoint.receives] using serves.created
          exact {
            ordered := serves.ordered
            created := by simp [created, AcceptorLoopPoint.receives]
            latest := by simp [created, AcceptorLoopPoint.receives] }
      · cases taken
  | manage loads =>
      simp only [acceptorLoopStep] at taken
      split at taken
      · next id enqueued =>
          obtain ⟨reader, -, rfl⟩ := Option.map_eq_some_iff.1 taken
          have latest : id = loop.managed.length :=
            serves.latest id (by simp [enqueued, AcceptorLoopPoint.receives])
          have created : loop.created = loop.managed.length + 1 := by
            simpa [enqueued, AcceptorLoopPoint.receives] using serves.created
          exact {
            ordered := by simp [serves.ordered, latest, List.range_succ]
            created := by simp [created, AcceptorLoopPoint.receives]
            latest := by simp [AcceptorLoopPoint.receives] }
      · cases taken
  | connectionState | enqueue | stop | eventHandlerRemove | connectionClose | exitNoMoreUsed =>
      simp only [acceptorLoopStep] at taken
      split at taken
      · next point =>
          cases taken
          exact serves.unconcerned rfl rfl (by rw [point]; rfl)
      · cases taken
  | close id | removeAll id | handlerNoMoreUsed id =>
      simp only [acceptorLoopStep, Option.ite_none_right_eq_some, Option.some.injEq] at taken
      obtain ⟨-, rfl⟩ := taken
      exact serves.unconcerned rfl rfl rfl
  | dequeue =>
      simp only [acceptorLoopStep] at taken
      split at taken
      · next point _ =>
          cases taken
          exact serves.unconcerned rfl rfl (by rw [point]; rfl)
      · next point _ =>
          cases taken
          exact serves.unconcerned rfl rfl (by rw [point]; rfl)
      · cases taken

/-- A step that concerns one connection. -/
theorem AcceptorLoop.Accounted.concerns (accounted : loop.Accounted) (id : Nat)
    (own : loop.Accounts id → after.Accounts id)
    (others : ∀ other, other ≠ id → loop.Accounts other → after.Accounts other) (other : Nat) :
    after.Accounts other := by
  rcases eq_or_ne other id with rfl | differs
  · exact own (accounted.accounts other)
  · exact others other differs (accounted.accounts other)

/-- A step that leaves the queue. -/
theorem AcceptorLoop.Accounted.keepsQueue (accounted : loop.Accounted)
    (queue : after.queue = loop.queue)
    (exits : loop.point.exits = true → after.point.exits = true)
    (done : after.point = .done → loop.point = .done) (accounts : ∀ id, after.Accounts id) :
    after.Accounted where
  endless := by rw [queue]; exact accounted.endless
  marked same := by
    rw [queue] at same ⊢
    exact (accounted.marked same).imp_left exits
  drained same := by rw [queue]; exact accounted.drained (done same)
  ordered := by rw [queue]; exact accounted.ordered
  accounts := accounts

theorem AcceptorLoop.Accounted.accepts (accounted : loop.Accounted) (idle : loop.point = .idle) :
    AcceptorLoop.Accounted
      { loop with point := .accepted loop.created, created := loop.created + 1 } := by
  refine accounted.keepsQueue rfl (by simp [idle, AcceptorLoopPoint.exits]) nofun
    (accounted.concerns loop.created (fun own => ?_) fun other differs before => ?_)
  · unfold AcceptorLoop.Accounts at own ⊢
    cases handler : loop.closeHandler loop.created <;>
      simp_all [AcceptorLoopPoint.holds, AcceptorLoopPoint.closes]
  · exact before.unconcerned rfl rfl (by dsimp only; omega) Iff.rfl
      (by simp [idle, AcceptorLoopPoint.holds, differs.symm])
      (by simp [idle, AcceptorLoopPoint.closes])

/-- The connection behind its INIT handlers is the latest, so it goes behind all others. -/
theorem AcceptorLoop.Accounted.enqueues (accounted : loop.Accounted) (serves : loop.Serves)
    (current : loop.point = .initialized id) :
    AcceptorLoop.Accounted
      { loop with queue := (loop.queue.push id).2, point := .enqueued id } := by
  have latest : id + 1 = loop.created := by
    rw [serves.created, serves.latest id (by simp [current, AcceptorLoopPoint.receives])]
    simp [current, AcceptorLoopPoint.receives]
  have items := Fifo.push_items accounted.endless id
  have unmarked : loop.queue.emptied = false := by
    cases mark : loop.queue.emptied with
    | false => rfl
    | true =>
        have exits := (accounted.marked mark).1
        rw [current] at exits
        cases exits
  refine {
    endless := Fifo.push_exit accounted.endless id
    marked := ?_, drained := nofun, ordered := ?_
    accounts := accounted.concerns id (fun own => ?_) fun other differs before => ?_ }
  · intro mark
    rw [Fifo.push_open accounted.endless, unmarked] at mark
    cases mark
  · rw [items, List.pairwise_append]
    refine ⟨accounted.ordered, List.pairwise_singleton _ _, fun earlier member own same => ?_⟩
    rw [List.mem_singleton] at same
    obtain ⟨known, apart, -⟩ := (accounted.accounts earlier).queued member
    have differs : earlier ≠ id := fun equal =>
      apart (by rw [current, equal, AcceptorLoopPoint.holds])
    omega
  · unfold AcceptorLoop.Accounts at own ⊢
    cases handler : loop.closeHandler id <;>
      simp_all [AcceptorLoopPoint.holds, AcceptorLoopPoint.closes]
  · exact before.unconcerned rfl rfl Iff.rfl (by simp [items, differs])
      (by simp [current, AcceptorLoopPoint.holds, differs.symm])
      (by simp [current, AcceptorLoopPoint.closes])

theorem AcceptorLoop.Accounted.called (accounted : loop.Accounted) (known : id < loop.created)
    (installed : loop.closeHandler id = .installed) (apart : loop.point.holds ≠ some id) :
    (loop.handles id .called).Accounted := by
  refine accounted.keepsQueue rfl (fun exits => exits) (fun done => done)
    (accounted.concerns id (fun own => ?_) fun other differs before => ?_)
  · unfold AcceptorLoop.Accounts at own ⊢
    simp_all [AcceptorLoop.handles]
  · exact before.unconcerned (Function.update_of_ne differs _ _) rfl Iff.rfl Iff.rfl Iff.rfl Iff.rfl

theorem AcceptorLoop.Accounted.removesAll (accounted : loop.Accounted)
    (called : loop.closeHandler id = .called) :
    AcceptorLoop.Accounted { loop.handles id .emptied with
      queue := loop.queue.discard (acceptorRemoveCallback id) } where
  endless := accounted.endless
  marked mark := by
    have before := accounted.marked mark
    exact ⟨before.1, by simp [before.2]⟩
  drained done := by simp [accounted.drained done]
  ordered := by
    rw [Fifo.discard_items]
    exact accounted.ordered.filter _
  accounts := by
    refine accounted.concerns id (fun own => ?_) fun other differs before => ?_
    · unfold AcceptorLoop.Accounts at own ⊢
      simp_all [AcceptorLoop.handles, acceptorRemoveCallback]
    · exact before.unconcerned (Function.update_of_ne differs _ _) rfl Iff.rfl
        (by simp [acceptorRemoveCallback, differs]) Iff.rfl Iff.rfl

theorem AcceptorLoop.Accounted.handlerReturns (accounted : loop.Accounted)
    (emptied : loop.closeHandler id = .emptied) (connectionCount : Int) :
    AcceptorLoop.Accounted
      { (loop.handles id .gone).acknowledge id with connectionCount } := by
  refine accounted.keepsQueue rfl (fun exits => exits) (fun done => done)
    (accounted.concerns id (fun own => ?_) fun other differs before => ?_)
  · unfold AcceptorLoop.Accounts at own ⊢
    simp_all [AcceptorLoop.handles, AcceptorLoop.acknowledge]
  · exact before.unconcerned (Function.update_of_ne differs _ _)
      (Function.update_of_ne differs _ _) Iff.rfl Iff.rfl Iff.rfl Iff.rfl

/-- The acceptor takes a connection whose CLOSE handler was not called. -/
theorem AcceptorLoop.Accounted.takes (accounted : loop.Accounted) (current : loop.point = .exiting)
    {queue : Fifo Nat} (taken : loop.queue.dequeue false = (.taken id, queue))
    (installed : loop.closeHandler id = .installed) :
    AcceptorLoop.Accounted { loop with queue, point := .taken id } := by
  have outcome : Fifo.Attempted loop.queue (.taken id) queue := by
    simpa only [taken] using Fifo.dequeue_attempted loop.queue false
  obtain ⟨items, exit, mark⟩ := outcome
  have ordered : (id :: queue.items).Pairwise (· < ·) := items ▸ accounted.ordered
  refine {
    endless := exit.trans accounted.endless
    marked := fun marked => ⟨rfl, by simpa using mark.symm.trans marked⟩
    drained := nofun, ordered := (List.pairwise_cons.1 ordered).2
    accounts := accounted.concerns id (fun own => ?_) fun other differs before => ?_ }
  · have gone : id ∉ queue.items := fun member =>
      Nat.lt_irrefl id ((List.pairwise_cons.1 ordered).1 id member)
    unfold AcceptorLoop.Accounts at own ⊢
    simp_all [AcceptorLoopPoint.holds, AcceptorLoopPoint.closes]
  · exact before.unconcerned rfl rfl Iff.rfl (by simp [items, differs])
      (by simp [current, AcceptorLoopPoint.holds, differs.symm])
      (by simp [current, AcceptorLoopPoint.closes])

/-- `Dequeue` does not wait and returns false: the queue is empty. -/
theorem AcceptorLoop.Accounted.drains (accounted : loop.Accounted) (current : loop.point = .exiting)
    {attempt : Fifo.Attempt Nat} {queue : Fifo Nat}
    (missed : loop.queue.dequeue false = (attempt, queue))
    (nothing : ∀ item, attempt ≠ .taken item) :
    AcceptorLoop.Accounted { loop with queue, point := .done } := by
  obtain ⟨items, exit, unmarked⟩ := Fifo.dequeue_missed missed nothing
  have empty : loop.queue.items = [] := by
    have outcome : Fifo.Attempted loop.queue attempt queue := by
      simpa only [missed] using Fifo.dequeue_attempted loop.queue false
    cases attempt with
    | blocked => exact outcome.2.1
    | taken item => exact absurd rfl (nothing item)
    | nothing => exact outcome.2
    | drained => exact (accounted.marked outcome.1).2
  refine {
    endless := exit.trans accounted.endless
    marked := fun marked => absurd (unmarked.symm.trans marked) Bool.false_ne_true
    drained := fun _ => items.trans empty
    ordered := by rw [items]; exact accounted.ordered
    accounts := fun other => ?_ }
  exact (accounted.accounts other).unconcerned rfl rfl Iff.rfl (by rw [items])
    (by simp [current, AcceptorLoopPoint.holds]) (by simp [current, AcceptorLoopPoint.closes])

theorem AcceptorLoop.Accounted.removesHandler (accounted : loop.Accounted)
    (current : loop.point = .taken id) :
    AcceptorLoop.Accounted { loop.handles id .gone with point := .unhandled id } := by
  refine accounted.keepsQueue rfl (fun _ => rfl) nofun
    (accounted.concerns id (fun own => ?_) fun other differs before => ?_)
  · unfold AcceptorLoop.Accounts at own ⊢
    cases handler : loop.closeHandler id <;>
      simp_all [AcceptorLoop.handles, AcceptorLoopPoint.holds, AcceptorLoopPoint.closes]
  · exact before.unconcerned (Function.update_of_ne differs _ _) rfl Iff.rfl Iff.rfl
      (by simp [current, AcceptorLoopPoint.holds, differs.symm])
      (by simp [current, AcceptorLoopPoint.closes, differs.symm])

theorem AcceptorLoop.Accounted.exitAcknowledges (accounted : loop.Accounted)
    (current : loop.point = .closed id) :
    AcceptorLoop.Accounted { loop.acknowledge id with point := .exiting } := by
  refine accounted.keepsQueue rfl (fun _ => rfl) nofun
    (accounted.concerns id (fun own => ?_) fun other differs before => ?_)
  · unfold AcceptorLoop.Accounts at own ⊢
    cases handler : loop.closeHandler id <;>
      simp_all [AcceptorLoop.acknowledge, AcceptorLoopPoint.holds, AcceptorLoopPoint.closes]
  · exact before.unconcerned rfl (Function.update_of_ne differs _ _) Iff.rfl Iff.rfl
      (by simp [current, AcceptorLoopPoint.holds])
      (by simp [current, AcceptorLoopPoint.closes, differs.symm])

theorem AcceptorLoop.Accounted.step {action : AcceptorLoopAction} (accounted : loop.Accounted)
    (serves : loop.Serves) (taken : Guarded ClosedApart AcceptorLoopStep loop action after) :
    after.Accounted := by
  obtain ⟨apart, taken⟩ := taken
  unfold AcceptorLoopStep at taken
  cases action with
  | accept =>
      simp only [acceptorLoopStep] at taken
      split at taken
      · next idle =>
          cases taken
          exact accounted.accepts idle
      · cases taken
  | connectionState | manage | stop | connectionClose =>
      simp only [acceptorLoopStep] at taken
      split at taken
      · next current =>
          first
          | cases taken
          | obtain ⟨reader, -, rfl⟩ := Option.map_eq_some_iff.1 taken
          exact accounted.keepsQueue rfl (by simp [current, AcceptorLoopPoint.exits]) nofun
            fun other => (accounted.accounts other).unconcerned rfl rfl Iff.rfl Iff.rfl
              (by simp [current, AcceptorLoopPoint.holds])
              (by simp [current, AcceptorLoopPoint.closes])
      · cases taken
  | enqueue =>
      simp only [acceptorLoopStep] at taken
      split at taken
      · next current =>
          cases taken
          exact accounted.enqueues serves current
      · cases taken
  | close id =>
      simp only [acceptorLoopStep, Option.ite_none_right_eq_some, Option.some.injEq] at taken
      obtain ⟨⟨known, unknown, installed⟩, rfl⟩ := taken
      refine accounted.called known installed fun holds => ?_
      cases current : loop.point <;> simp_all [AcceptorLoopPoint.holds, ClosedApart]
  | removeAll id =>
      simp only [acceptorLoopStep, Option.ite_none_right_eq_some, Option.some.injEq] at taken
      obtain ⟨called, rfl⟩ := taken
      exact accounted.removesAll called
  | handlerNoMoreUsed id =>
      simp only [acceptorLoopStep, Option.ite_none_right_eq_some, Option.some.injEq] at taken
      obtain ⟨emptied, rfl⟩ := taken
      exact accounted.handlerReturns emptied _
  | dequeue =>
      simp only [acceptorLoopStep] at taken
      split at taken
      · next id queue current dequeued =>
          cases taken
          have first : id ∈ loop.queue.items.head? := by
            rw [(Fifo.dequeue_taken dequeued).1]
            rfl
          exact accounted.takes current dequeued (apart id first)
      · next nothing current dequeued =>
          cases taken
          exact accounted.drains current dequeued nothing
      · cases taken
  | eventHandlerRemove =>
      simp only [acceptorLoopStep] at taken
      split at taken
      · next current =>
          cases taken
          exact accounted.removesHandler current
      · cases taken
  | exitNoMoreUsed =>
      simp only [acceptorLoopStep] at taken
      split at taken
      · next current =>
          cases taken
          exact accounted.exitAcknowledges current
      · cases taken

theorem acceptorLoop_run_accounted {actions : List AcceptorLoopAction}
    (run : Run (Guarded ClosedApart AcceptorLoopStep) newAcceptorLoop actions loop) :
    loop.Serves ∧ loop.Accounted := by
  apply run.keeps
  · rintro before action after ⟨serves, accounted⟩ taken
    exact ⟨serves.step taken.2, accounted.step serves taken⟩
  · exact ⟨newAcceptorLoop_serves, newAcceptorLoop_accounted⟩

theorem AcceptorLoop.Accounts.noMoreUsed_le (accounts : loop.Accounts id) :
    loop.noMoreUsed id ≤ 1 := by
  unfold AcceptorLoop.Accounts at accounts
  cases handler : loop.closeHandler id <;> simp_all
  split <;> decide

theorem AcceptorLoop.Accounts.idle (accounts : loop.Accounts id) (idle : loop.point = .idle) :
    id ∈ loop.queue.items ↔ id < loop.created ∧
      (loop.closeHandler id = .installed ∨ loop.closeHandler id = .called) := by
  unfold AcceptorLoop.Accounts at accounts
  cases handler : loop.closeHandler id <;>
    simp_all [AcceptorLoopPoint.holds]

/-- Behind the exit there is no handler left that goes to the queue. -/
theorem AcceptorLoop.Accounts.done (accounts : loop.Accounts id) (done : loop.point = .done)
    (drained : loop.queue.items = []) (created : id < loop.created) :
    loop.closeHandler id = .emptied ∨ loop.closeHandler id = .gone ∧ loop.noMoreUsed id = 1 := by
  unfold AcceptorLoop.Accounts at accounts
  cases handler : loop.closeHandler id <;>
    simp_all [AcceptorLoopPoint.holds, AcceptorLoopPoint.closes]

/-- Each connection that the acceptor accepts goes to one reader and into the queue, in order, and
leaves the queue when it is closed. The acceptor says at most once that it is done with the
connection, not while it is in the queue. Behind its exit no CLOSE handler goes to the queue any
more, and where none is running it has said so of each connection. -/
theorem newAcceptorLoop_acknowledges {actions : List AcceptorLoopAction}
    (run : Run (Guarded ClosedApart AcceptorLoopStep) newAcceptorLoop actions loop) :
    loop.managed.map Prod.fst = List.range loop.managed.length ∧
      loop.queue.items.Pairwise (· < ·) ∧
      (loop.point = .idle → loop.managed.length = loop.created ∧
        ∀ id, id ∈ loop.queue.items ↔ id < loop.created ∧
          (loop.closeHandler id = .installed ∨ loop.closeHandler id = .called)) ∧
      (∀ id, loop.noMoreUsed id ≤ 1 ∧ (id ∈ loop.queue.items → loop.noMoreUsed id = 0)) ∧
      (loop.point = .done → ∀ id < loop.created, loop.closeHandler id = .emptied ∨
        loop.closeHandler id = .gone ∧ loop.noMoreUsed id = 1) := by
  obtain ⟨serves, accounted⟩ := acceptorLoop_run_accounted run
  refine ⟨serves.ordered, accounted.ordered, fun idle => ⟨?_, fun id => ?_⟩, fun id => ⟨?_, ?_⟩,
    fun done id created => ?_⟩
  · simpa [idle, AcceptorLoopPoint.receives] using serves.created.symm
  · exact (accounted.accounts id).idle idle
  · exact (accounted.accounts id).noMoreUsed_le
  · exact fun member => ((accounted.accounts id).queued member).2.2
  · exact (accounted.accounts id).done done (accounted.drained done) created

end

/-- The first connection is closed while the acceptor runs, the second by its exit. -/
def closesBoth : List AcceptorLoopAction :=
  [.accept, .connectionState, .enqueue, .manage [0, 0], .accept, .connectionState, .enqueue,
    .manage [1, 0], .close 0, .removeAll 0, .stop, .dequeue, .eventHandlerRemove, .connectionClose,
    .handlerNoMoreUsed 0, .exitNoMoreUsed, .dequeue]

theorem newAcceptorLoop_acknowledges_both : ∃ loop,
    Run (Guarded ClosedApart AcceptorLoopStep) newAcceptorLoop closesBoth loop ∧
      loop.managed = [(0, 0), (1, 1)] ∧ ∀ id < 2, loop.noMoreUsed id = 1 := by
  have ends : (execute (guardedNext ClosedApart acceptorLoopStep) newAcceptorLoop closesBoth).map
      (fun loop => (loop.point, loop.created, loop.managed, loop.closeHandler 0,
        loop.closeHandler 1)) =
        some (.done, 2, [(0, 0), (1, 1)], .gone, .gone) := by decide
  obtain ⟨loop, runs, run⟩ := exists_run_of_execute (Guarded ClosedApart AcceptorLoopStep)
    (guardedNext ClosedApart acceptorLoopStep) newAcceptorLoop closesBoth
    (fun _ _ _ taken => guardedNext_sound taken) (by
      rw [← Option.isSome_map, ends]
      rfl)
  simp only [runs, Option.map_some, Option.some.injEq, Prod.mk.injEq] at ends
  obtain ⟨done, created, managed, first, second⟩ := ends
  obtain ⟨-, -, -, -, acknowledged⟩ := newAcceptorLoop_acknowledges run
  refine ⟨loop, run, managed, fun id known => ?_⟩
  have returned : loop.closeHandler id ≠ .emptied := by
    rcases Nat.lt_succ_iff_lt_or_eq.1 known with zero | rfl
    · rw [Nat.lt_one_iff.1 zero, first]
      decide
    · rw [second]
      decide
  exact ((acknowledged done id (created ▸ known)).resolve_left returned).2

end Aio4c
