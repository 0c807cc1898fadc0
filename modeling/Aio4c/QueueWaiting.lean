import Aio4c.Library.TransitionSystem
import Aio4c.QueueRefinement
import Mathlib.Data.List.Count

/-! Blocking on a queue: any number of producers and one consumer that waits on
the queue's condition. A step is one critical section of the queue's lock, or the
consumer's way out of `WaitCondition`. -/

set_option autoImplicit false

namespace Aio4c

open TransitionSystem

variable {σ : Type}

/-! ## The items of the busy list -/

def busyItemsFrom (queue : Queue) : Nat → Option Nat → List QueueItem
  | steps + 1, some i =>
      match queue.nodes i, readItem queue.items queue.nodes i with
      | some cell, some item => item :: busyItemsFrom queue steps cell.next
      | _, _ => []
  | _, _ => []

/-- The items that `Dequeue` would deliver, oldest first. -/
def busyItems (queue : Queue) : List QueueItem :=
  busyItemsFrom queue queue.allocated queue.busy.first

namespace Queue.Represents

variable {queue : Queue} {busy free : List Nat} {fifo : Fifo QueueItem}

theorem busyItemsFrom_eq (represents : queue.Represents busy free fifo)
    {before after : List Nat} {items : List QueueItem} (split : busy = before ++ after)
    (content : after.map queue.items = items.map some) {steps : Nat}
    (enough : after.length ≤ steps) :
    busyItemsFrom queue steps after.head? = items := by
  induction after generalizing before items steps with
  | nil =>
      cases items with
      | nil => cases steps <;> rfl
      | cons item items => simp at content
  | cons node after ih =>
      cases items with
      | nil => simp at content
      | cons item items =>
          cases steps with
          | zero => simp at enough
          | succ steps =>
              simp only [List.map_cons, List.cons.injEq] at content
              have place : queue.busy.Holds queue.nodes (before ++ node :: after) :=
                split ▸ represents.busyHolds
              obtain ⟨data, cell⟩ := place.cell
              have read := represents.readItem (fun _ => rfl) (show node ∈ busy ++ free by
                simp [split])
              have rest := ih (show busy = (before ++ [node]) ++ after by simp [split])
                content.2 (show after.length ≤ steps by simpa using enough)
              simp only [List.head?_cons, busyItemsFrom, cell, read, content.1, rest]

theorem busyItems_eq (represents : queue.Represents busy free fifo) :
    busyItems queue = fifo.items := by
  have total := represents.total
  rw [busyItems, represents.busyHolds.first]
  exact represents.busyItemsFrom_eq (List.nil_append busy).symm represents.content (by omega)

end Queue.Represents

/-! ## The consumer and its producers -/

/-- Outside `Dequeue`, blocked in `WaitCondition`, or woken and in front of the
lock with what `WaitCondition` is about to return. -/
inductive Consumer where
  | outside
  | blocked (signalled : Bool)
  | woken (notified : Bool)
  deriving DecidableEq, Repr

/-- `NotifyCondition`: a signal that nobody waits for is lost. -/
def notifyCondition : Consumer → Consumer
  | .blocked _ => .blocked true
  | consumer => consumer

/-- The queue and its consumer, with the items that were accepted, delivered and
removed so far. -/
structure SharedQueue where
  queue : Queue
  consumer : Consumer
  enqueued : List QueueItem
  delivered : List QueueItem
  removed : List QueueItem

def newSharedQueue : SharedQueue :=
  { queue := newQueue, consumer := .outside, enqueued := [], delivered := [], removed := [] }

/-- `wakeUp` is a wake-up by a signal or a spurious one, or the failure of the wait. -/
inductive SharedAction (σ : Type) where
  | enqueue (item : QueueItem)
  | removeAll (removeCallback : QueueItem → σ → Bool × σ) (state : σ)
  | dequeue (item : QueueItem) (wait : Bool)
  | wakeUp (notified : Bool)
  | resume

/-- The consumer where a critical section of its `Dequeue` ends. -/
def SharedQueue.afterDequeue (state : SharedQueue) : Dequeued × Queue → SharedQueue
  | (.waiting, queue) => { state with queue, consumer := .blocked false }
  | (.returned true item, queue) =>
      { state with queue, consumer := .outside, delivered := state.delivered ++ [item] }
  | (.returned false _, queue) => { state with queue, consumer := .outside }

def sharedStep (state : SharedQueue) : SharedAction σ → Option SharedQueue
  | .enqueue item => do
      let (accepted, queue) ← enqueue state.queue item
      pure (if accepted then { state with
        queue, consumer := notifyCondition state.consumer, enqueued := state.enqueued ++ [item] }
      else { state with queue })
  | .removeAll removeCallback discriminant => do
      let (_, queue) ← removeAll state.queue removeCallback discriminant
      pure { state with
        queue, consumer := notifyCondition state.consumer
        removed := state.removed ++ (busyItems state.queue).diff (busyItems queue) }
  | .dequeue item wait =>
      match state.consumer with
      | .outside => (dequeue state.queue item wait).map state.afterDequeue
      | _ => none
  | .wakeUp notified =>
      match state.consumer with
      | .blocked _ => some { state with consumer := .woken notified }
      | _ => none
  | .resume =>
      match state.consumer with
      | .woken notified => (dequeueResume state.queue notified).map state.afterDequeue
      | _ => none

def SharedStep (before : SharedQueue) (action : SharedAction σ) (after : SharedQueue) : Prop :=
  sharedStep before action = some after

/-- A `RemoveAll` callback never accepts EXIT items. -/
def SharedAction.SparesExit : SharedAction σ → Prop
  | .removeAll removeCallback _ => ∀ state, (removeCallback .exit state).1 = false
  | _ => True

/-! ## The discipline -/

/-- EXIT is the last item of the list and occurs once. -/
def EndsWithExit (items : List QueueItem) : Prop :=
  ∃ front, items = front ++ [.exit] ∧ .exit ∉ front

/-- What holds between the steps. Once EXIT was accepted, every enqueue is refused
and changes nothing, and EXIT is the last of all accepted items and of all items
delivered or still to be delivered; these come in the order of their enqueueing,
and those that are missing were removed. A `Dequeue` then never waits, and delivers
an item unless the drained mark makes it return once. A consumer that is blocked
without a signal has nothing to wake up for. -/
structure ExitAndBlocking (state : SharedQueue) : Prop where
  refused : .exit ∈ state.enqueued → ∀ item, enqueue state.queue item = some (false, state.queue)
  acceptedLast : .exit ∈ state.enqueued → EndsWithExit state.enqueued
  deliveredLast : .exit ∈ state.enqueued →
    EndsWithExit (state.delivered ++ busyItems state.queue)
  ordered : (state.delivered ++ busyItems state.queue).Sublist state.enqueued
  accounted : state.enqueued.Perm
    (state.removed ++ (state.delivered ++ busyItems state.queue))
  prompt : .exit ∈ state.enqueued → .exit ∉ state.delivered → ∀ item wait, ∃ result after,
    dequeue state.queue item wait = some (result, after) ∧
    if state.queue.emptied then result = .returned false item ∧ after.emptied = false
    else ∃ delivered, result = .returned true delivered
  blocked : state.consumer = .blocked false →
    listEmpty state.queue.busy = true ∧ state.queue.exit = false

/-- The invariant, over the list that the queue represents. -/
structure SharedQueue.Sound (state : SharedQueue) (fifo : Fifo QueueItem) : Prop where
  represents : ∃ busy free, state.queue.Represents busy free fifo
  ordered : (state.delivered ++ fifo.items).Sublist state.enqueued
  accounted : state.enqueued.Perm (state.removed ++ (state.delivered ++ fifo.items))
  opened : fifo.exit = false → .exit ∉ state.enqueued
  closed : fifo.exit = true → EndsWithExit state.enqueued ∧
    EndsWithExit (state.delivered ++ fifo.items)
  blocked : state.consumer = .blocked false → fifo.items = [] ∧ fifo.exit = false

theorem EndsWithExit.member {items : List QueueItem} (ends : EndsWithExit items) :
    .exit ∈ items := by
  obtain ⟨front, rfl, _⟩ := ends
  simp

/-- What follows EXIT is nothing. -/
theorem EndsWithExit.split {before after : List QueueItem}
    (ends : EndsWithExit (before ++ after)) :
    (after = [] ∧ .exit ∈ before) ∨ (EndsWithExit after ∧ .exit ∉ before) := by
  obtain ⟨front, whole, absent⟩ := ends
  rcases List.eq_nil_or_concat after with rfl | ⟨rest, last, rfl⟩
  · left
    constructor
    · rfl
    · simp only [List.append_nil] at whole
      simp [whole]
  · right
    rw [List.concat_eq_append, ← List.append_assoc] at whole
    obtain ⟨rfl, same⟩ := List.append_inj' whole rfl
    cases same
    simp only [List.mem_append, not_or] at absent
    exact ⟨⟨rest, List.concat_eq_append, absent.2⟩, absent.1⟩

theorem newSharedQueue_sound : newSharedQueue.Sound Fifo.empty where
  represents := ⟨[], [], newQueue_represents⟩
  ordered := List.Sublist.refl _
  accounted := List.Perm.refl _
  opened _ := by simp [newSharedQueue]
  closed closed := by cases closed
  blocked blocked := by cases blocked

theorem notifyCondition_ne_blocked (consumer : Consumer) :
    notifyCondition consumer ≠ .blocked false := by
  cases consumer <;> simp [notifyCondition]

attribute [local simp] sharedStep SharedStep

namespace SharedQueue.Sound

variable {state : SharedQueue} {fifo : Fifo QueueItem}

theorem exit_iff (sound : state.Sound fifo) : fifo.exit = true ↔ .exit ∈ state.enqueued := by
  constructor
  · intro closed
    exact (sound.closed closed).1.member
  · intro accepted
    cases exit : fifo.exit with
    | true => rfl
    | false => exact absurd accepted (sound.opened exit)

theorem enqueue (sound : state.Sound fifo) (item : QueueItem) {after : SharedQueue}
    (step : SharedStep state (.enqueue item : SharedAction σ) after) :
    ∃ fifo', after.Sound fifo' := by
  obtain ⟨busy, free, represents⟩ := sound.represents
  simp only [SharedStep, sharedStep] at step
  cases closed : fifo.exit with
  | true =>
      have refused : Aio4c.enqueue state.queue item = some (false, state.queue) := by
        rw [Aio4c.enqueue, represents.exit, closed, if_pos rfl]
      simp only [refused, Option.bind_eq_bind, Option.bind_some, Bool.false_eq_true, if_false,
        Option.pure_def, Option.some.injEq] at step
      subst step
      exact ⟨fifo, sound⟩
  | false =>
      obtain ⟨queue, busy', free', result, represents', _⟩ := represents.enqueue_ok closed item
      simp only [result, Option.bind_eq_bind, Option.bind_some, if_true, Option.pure_def,
        Option.some.injEq] at step
      subst step
      have absent := sound.opened closed
      refine ⟨_, ⟨busy', free', represents'⟩, ?_, ?_, ?_, ?_, ?_⟩
      · rw [← List.append_assoc]
        exact sound.ordered.append (List.Sublist.refl _)
      · have all := sound.accounted.append (List.Perm.refl [item])
        simpa only [List.append_assoc] using all
      · intro opened
        simp only [decide_eq_false_iff_not] at opened
        simp only [List.mem_append, List.mem_singleton, not_or]
        exact ⟨absent, fun same => opened same.symm⟩
      · intro closed'
        simp only [decide_eq_true_eq] at closed'
        cases closed'
        constructor
        · exact ⟨_, rfl, absent⟩
        · refine ⟨state.delivered ++ fifo.items, by simp only [List.append_assoc], ?_⟩
          intro member
          exact absent (sound.ordered.subset member)
      · intro blocked
        exact absurd blocked (notifyCondition_ne_blocked _)

theorem removeAll (sound : state.Sound fifo) {removeCallback : QueueItem → σ → Bool × σ}
    {discriminant : σ} (spares : ∀ state, (removeCallback .exit state).1 = false)
    {after : SharedQueue}
    (step : SharedStep state (.removeAll removeCallback discriminant) after) :
    ∃ fifo', after.Sound fifo' := by
  obtain ⟨busy, free, represents⟩ := sound.represents
  obtain ⟨queue, busy', free', result, represents', _⟩ :=
    represents.removeAll_ok removeCallback discriminant
  simp only [SharedStep, sharedStep, result] at step
  cases step
  have shorter : ((fifo.removeAll removeCallback discriminant).2).items.Sublist fifo.items :=
    Fifo.spared_sublist _ _
  have kept := (List.Sublist.refl state.delivered).append shorter
  refine ⟨_, ⟨busy', free', represents'⟩, kept.trans sound.ordered, ?_, ?_, ?_, ?_⟩
  · simp only [represents.busyItems_eq, represents'.busyItems_eq]
    have gone := List.subperm_append_diff_self_of_count_le fun item _ => shorter.count_le item
    have moved := (gone.symm.append_left state.delivered).append_left state.removed
    refine sound.accounted.trans (moved.trans ?_)
    rw [List.append_assoc]
    apply List.Perm.append_left
    rw [← List.append_assoc]
    exact List.perm_append_comm
  · exact sound.opened
  · intro closed
    refine ⟨(sound.closed closed).1, ?_⟩
    rcases (sound.closed closed).2.split with ⟨none, delivered⟩ | ⟨⟨front, items, absent⟩, fresh⟩
    · have nothing := shorter
      rw [none] at nothing
      rw [List.sublist_nil.mp nothing, ← none]
      exact (sound.closed closed).2
    · obtain ⟨front', smaller, same⟩ := Fifo.spared_snoc spares front discriminant
      refine ⟨state.delivered ++ front', ?_, ?_⟩
      · simp only [Fifo.removeAll, items, same, List.append_assoc]
      · simp only [List.mem_append, not_or]
        exact ⟨fresh, fun member => absent (smaller.subset member)⟩
  · intro blocked
    exact absurd blocked (notifyCondition_ne_blocked _)

theorem attempted (sound : state.Sound fifo) (storage : QueueItem) {busy free : List Nat}
    {queue : Queue} {attempt : Fifo.Attempt QueueItem} {fifo' : Fifo QueueItem}
    (represents : queue.Represents busy free fifo') (attempted : fifo.Attempted attempt fifo') :
    (state.afterDequeue (dequeuedOf storage attempt, queue)).Sound fifo' := by
  cases attempt with
  | blocked =>
      obtain ⟨rfl, empty, opened⟩ := attempted
      exact { sound with
        represents := ⟨busy, free, represents⟩
        blocked := fun _ => ⟨empty, opened⟩ }
  | taken item =>
      obtain ⟨items, exit, _⟩ := attempted
      have moved : state.delivered ++ fifo.items = (state.delivered ++ [item]) ++ fifo'.items := by
        rw [items, List.append_assoc, List.singleton_append]
      exact
        { represents := ⟨busy, free, represents⟩
          ordered := moved ▸ sound.ordered
          accounted := moved ▸ sound.accounted
          opened := fun opened => sound.opened (exit ▸ opened)
          closed := fun closed => moved ▸ sound.closed (exit ▸ closed)
          blocked := fun blocked => by cases blocked }
  | nothing =>
      obtain ⟨rfl, _⟩ := attempted
      exact { sound with
        represents := ⟨busy, free, represents⟩
        blocked := fun blocked => by cases blocked }
  | drained =>
      obtain ⟨_, rfl⟩ := attempted
      exact { sound with
        represents := ⟨busy, free, represents⟩
        blocked := fun blocked => by cases blocked }

theorem dequeue (sound : state.Sound fifo) (item : QueueItem) (wait : Bool)
    {after : SharedQueue}
    (step : SharedStep state (.dequeue item wait : SharedAction σ) after) :
    ∃ fifo', after.Sound fifo' := by
  obtain ⟨busy, free, represents⟩ := sound.represents
  obtain ⟨queue, busy', free', result, represents', _⟩ := represents.dequeue_ok item wait
  cases place : state.consumer with
  | outside =>
      simp only [SharedStep, sharedStep, place, result, Option.map_some, Option.some.injEq] at step
      subst step
      exact ⟨_, sound.attempted item represents' (fifo.dequeue_attempted wait)⟩
  | blocked signalled => simp [SharedStep, sharedStep, place] at step
  | woken notified => simp [SharedStep, sharedStep, place] at step

theorem wakeUp (sound : state.Sound fifo) (notified : Bool) {after : SharedQueue}
    (step : SharedStep state (.wakeUp notified : SharedAction σ) after) :
    ∃ fifo', after.Sound fifo' := by
  cases place : state.consumer with
  | outside => simp [SharedStep, sharedStep, place] at step
  | blocked signalled =>
      simp only [SharedStep, sharedStep, place, Option.some.injEq] at step
      subst step
      exact ⟨fifo, { sound with blocked := fun blocked => by cases blocked }⟩
  | woken notified => simp [SharedStep, sharedStep, place] at step

theorem resume (sound : state.Sound fifo) {after : SharedQueue}
    (step : SharedStep state (.resume : SharedAction σ) after) :
    ∃ fifo', after.Sound fifo' := by
  obtain ⟨busy, free, represents⟩ := sound.represents
  cases place : state.consumer with
  | outside => simp [SharedStep, sharedStep, place] at step
  | blocked signalled => simp [SharedStep, sharedStep, place] at step
  | woken notified =>
      obtain ⟨queue, busy', free', result, represents', _⟩ :=
        represents.dequeueResume_ok .undefined notified
      simp only [SharedStep, sharedStep, place, result, Option.map_some, Option.some.injEq] at step
      subst step
      exact ⟨_, sound.attempted .undefined represents' (fifo.resume_attempted notified)⟩

/-- Every step whose `RemoveAll` callback spares EXIT keeps the invariant. -/
theorem step (sound : state.Sound fifo) {action : SharedAction σ} {after : SharedQueue}
    (spares : action.SparesExit) (taken : SharedStep state action after) :
    ∃ fifo', after.Sound fifo' := by
  cases action with
  | enqueue item => exact sound.enqueue item taken
  | removeAll removeCallback discriminant => exact sound.removeAll spares taken
  | dequeue item wait => exact sound.dequeue item wait taken
  | wakeUp notified => exact sound.wakeUp notified taken
  | resume => exact sound.resume taken

/-- Once EXIT was accepted and not delivered, a `Dequeue` does not wait. -/
theorem prompt (sound : state.Sound fifo) (accepted : .exit ∈ state.enqueued)
    (pending : .exit ∉ state.delivered) (item : QueueItem) (wait : Bool) :
    ∃ result after, Aio4c.dequeue state.queue item wait = some (result, after) ∧
      if state.queue.emptied then result = .returned false item ∧ after.emptied = false
      else ∃ delivered, result = .returned true delivered := by
  obtain ⟨busy, free, represents⟩ := sound.represents
  obtain ⟨queue, busy', free', result, represents', _⟩ := represents.dequeue_ok item wait
  refine ⟨_, queue, result, ?_⟩
  cases marked : fifo.emptied with
  | true =>
      rw [if_pos (represents.emptied.trans marked), represents'.emptied]
      constructor
      · simp only [Fifo.dequeue, marked, if_true, dequeuedOf]
      · simp only [Fifo.dequeue, marked, if_true]
  | false =>
      have nonempty : fifo.items ≠ [] := by
        intro empty
        have ends := (sound.closed (sound.exit_iff.mpr accepted)).2
        rw [empty, List.append_nil] at ends
        exact pending ends.member
      obtain ⟨delivered, fifo', taken⟩ := Fifo.dequeue_nonempty wait marked nonempty
      rw [if_neg (by rw [represents.emptied, marked]; decide)]
      exact ⟨delivered, by rw [taken, dequeuedOf]⟩

theorem exitAndBlocking (sound : state.Sound fifo) : ExitAndBlocking state := by
  obtain ⟨busy, free, represents⟩ := sound.represents
  have items := represents.busyItems_eq
  exact
    { refused := fun accepted item => by
        rw [Aio4c.enqueue, represents.exit, sound.exit_iff.mpr accepted, if_pos rfl]
      acceptedLast := fun accepted => (sound.closed (sound.exit_iff.mpr accepted)).1
      deliveredLast := fun accepted => items ▸ (sound.closed (sound.exit_iff.mpr accepted)).2
      ordered := items ▸ sound.ordered
      accounted := items ▸ sound.accounted
      prompt := sound.prompt
      blocked := fun blocked => by
        obtain ⟨empty, opened⟩ := sound.blocked blocked
        rw [represents.listEmpty_busy, represents.exit]
        exact ⟨List.isEmpty_iff.mpr empty, opened⟩ }

end SharedQueue.Sound

/-- In every state that producers and a consumer reach on a new queue, while no
`RemoveAll` callback accepts EXIT, the discipline of EXIT and of blocking holds. -/
theorem newSharedQueue_exits_and_blocks {actions : List (SharedAction σ)} {state : SharedQueue}
    (run : Run SharedStep newSharedQueue actions state)
    (spares : ∀ action ∈ actions, action.SparesExit) : ExitAndBlocking state := by
  have sound : ∃ fifo, state.Sound fifo := by
    apply run.keeps_allowed spares
    · intro before action after allowed holds taken
      obtain ⟨fifo, sound⟩ := holds
      exact sound.step allowed taken
    · exact ⟨_, newSharedQueue_sound⟩
  obtain ⟨fifo, sound⟩ := sound
  exact sound.exitAndBlocking

/-- A consumer that blocks, is woken for an item and then meets EXIT behind a second
one, of which a `RemoveAll` callback removes neither. -/
theorem newSharedQueue_exits_and_blocks_woken :
    ∃ state, execute sharedStep newSharedQueue
        ([.dequeue .undefined true, .enqueue (.data 1), .enqueue (.data 2), .enqueue .exit,
          .enqueue (.data 3), .wakeUp true, .resume,
          .removeAll (fun item state => (item = .data 7, state)) (), .dequeue .undefined true,
          .dequeue .undefined true] : List (SharedAction Unit)) = some state ∧
      ExitAndBlocking state := by
  obtain ⟨state, runs, run⟩ := exists_run_of_execute SharedStep sharedStep newSharedQueue
    ([.dequeue .undefined true, .enqueue (.data 1), .enqueue (.data 2), .enqueue .exit,
      .enqueue (.data 3), .wakeUp true, .resume,
      .removeAll (fun item state => (item = .data 7, state)) (), .dequeue .undefined true,
      .dequeue .undefined true] : List (SharedAction Unit))
    (fun _ _ _ taken => taken) (by decide)
  exact ⟨state, runs, newSharedQueue_exits_and_blocks run (by simp [SharedAction.SparesExit])⟩

end Aio4c
