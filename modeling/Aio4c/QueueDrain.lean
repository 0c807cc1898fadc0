import Aio4c.QueueWaiting

/-! The loop that takes items out of a queue until `Dequeue` returns false. A queue
that was drained by an earlier `Dequeue` answers false once more, whatever was
enqueued in between. -/

set_option autoImplicit false

namespace Aio4c

variable {σ : Type}

/-- `while (Dequeue(queue, item, false))`, with the items that it delivers. -/
def drainLoop : Nat → Queue → QueueItem → Option (List QueueItem × Queue)
  | 0, _, _ => none
  | steps + 1, queue, item => do
      match ← dequeue queue item false with
      | (.returned true item, queue) => do
          let (items, queue) ← drainLoop steps queue item
          pure (item :: items, queue)
      | (_, queue) => pure ([], queue)

/-- No run of the loop takes more items than nodes were ever allocated. -/
def drainQueue (queue : Queue) (item : QueueItem) : Option (List QueueItem × Queue) :=
  drainLoop (queue.allocated + 1) queue item

namespace Queue.Represents

variable {queue : Queue} {busy free : List Nat} {fifo : Fifo QueueItem}

theorem drainLoop_marked (represents : queue.Represents busy free fifo)
    (marked : fifo.emptied = true) (steps : Nat) (item : QueueItem) :
    ∃ after busy' free', drainLoop (steps + 1) queue item = some ([], after) ∧
      after.Represents busy' free' { fifo with emptied := false } ∧
      after.allocated = queue.allocated := by
  obtain ⟨after, busy', free', result, represents', count⟩ := represents.dequeue_ok item false
  simp only [Fifo.dequeue, marked, if_true, dequeuedOf] at result represents'
  refine ⟨after, busy', free', ?_, represents', count⟩
  simp [drainLoop, result]

theorem drainLoop_unmarked {items : List QueueItem} {exit : Bool}
    (represents : queue.Represents busy free { items, exit, emptied := false }) {steps : Nat}
    (enough : items.length < steps) (item : QueueItem) :
    ∃ after busy' free', drainLoop steps queue item = some (items, after) ∧
      after.Represents busy' free' { items := [], exit, emptied := false } ∧
      after.allocated = queue.allocated := by
  induction items generalizing queue busy free steps item with
  | nil =>
      obtain ⟨steps, rfl⟩ := Nat.exists_eq_succ_of_ne_zero (Nat.ne_zero_of_lt enough)
      obtain ⟨after, busy', free', result, represents', count⟩ := represents.dequeue_ok item false
      refine ⟨after, busy', free', ?_, by simpa [Fifo.dequeue, Fifo.await, Fifo.take] using represents',
        count⟩
      simp [drainLoop, result, Fifo.dequeue, Fifo.await, Fifo.take, dequeuedOf]
  | cons first rest ih =>
      obtain ⟨steps, rfl⟩ := Nat.exists_eq_succ_of_ne_zero (Nat.ne_zero_of_lt enough)
      have enough' : rest.length < steps := by simpa using enough
      obtain ⟨after, busy', free', result, represents', count⟩ := represents.dequeue_ok item false
      simp only [Fifo.dequeue, Fifo.await, Fifo.take, Bool.and_false, Bool.false_and,
        Bool.false_eq_true, if_false, dequeuedOf] at result represents'
      cases rest with
      | nil =>
          -- the last item leaves the mark, which ends the loop
          obtain ⟨steps, rfl⟩ := Nat.exists_eq_succ_of_ne_zero (Nat.ne_zero_of_lt enough')
          obtain ⟨last, busy'', free'', ended, represents'', count'⟩ :=
            represents'.drainLoop_marked rfl steps first
          refine ⟨last, busy'', free'', ?_, represents'', count'.trans count⟩
          rw [drainLoop, result]
          simp [ended]
      | cons second rest =>
          obtain ⟨last, busy'', free'', delivered, represents'', count'⟩ :=
            ih represents' enough' first
          refine ⟨last, busy'', free'', ?_, represents'', count'.trans count⟩
          rw [drainLoop, result]
          simp [delivered]

theorem drainQueue_ok (represents : queue.Represents busy free fifo) (item : QueueItem) :
    ∃ after busy' free', drainQueue queue item =
        some (if fifo.emptied then [] else fifo.items, after) ∧
      after.Represents busy' free'
        { fifo with items := if fifo.emptied then fifo.items else [], emptied := false } ∧
      after.allocated = queue.allocated := by
  cases marked : fifo.emptied with
  | true => exact represents.drainLoop_marked marked queue.allocated item
  | false =>
      have length := represents.length
      have total := represents.total
      have unmarked : queue.Represents busy free { fifo with emptied := false } := by
        rw [← marked]
        exact represents
      exact unmarked.drainLoop_unmarked (by omega) item

end Queue.Represents

/-! ## Every reachable queue -/

def queueCalls (queue : Queue) : List (QueueCall σ) → Option Queue
  | [] => some queue
  | call :: calls => do
      let (_, queue) ← queueCall queue call
      queueCalls queue calls

theorem queueCalls_ok {queue : Queue} {busy free : List Nat} {fifo : Fifo QueueItem}
    (represents : queue.Represents busy free fifo) (calls : List (QueueCall σ)) :
    ∃ after busy' free' fifo', queueCalls queue calls = some after ∧
      after.Represents busy' free' fifo' := by
  induction calls generalizing queue busy free fifo with
  | nil => exact ⟨queue, busy, free, fifo, rfl, represents⟩
  | cons call calls ih =>
      obtain ⟨_, middle, _, _, _, result, _, _, represents', _⟩ :=
        queueCall_refines represents call
      obtain ⟨after, busy', free', fifo', rest, represents''⟩ := ih represents'
      exact ⟨after, busy', free', fifo', by simp [queueCalls, result, rest], represents''⟩

/-- After every sequence of calls on a new queue the loop ends, and it delivers all items
in order and leaves none exactly when the last `Dequeue` did not drain the queue, or
nothing was enqueued behind it. -/
theorem newQueue_drains_iff (calls : List (QueueCall σ)) (item : QueueItem) :
    ∃ queue delivered after, queueCalls newQueue calls = some queue ∧
      drainQueue queue item = some (delivered, after) ∧
      (delivered = busyItems queue ∧ busyItems after = [] ↔
        queue.emptied = false ∨ busyItems queue = []) := by
  obtain ⟨queue, busy, free, fifo, reached, represents⟩ := queueCalls_ok newQueue_represents calls
  obtain ⟨after, busy', free', drained, represents', _⟩ := represents.drainQueue_ok item
  refine ⟨queue, _, after, reached, drained, ?_⟩
  rw [represents.emptied, represents.busyItems_eq, represents'.busyItems_eq]
  cases fifo.emptied with
  | true => simp [eq_comm]
  | false => simp

/-- An item that is enqueued behind a `Dequeue` that drained the queue is left there. -/
theorem newQueue_undrained :
    ¬ ∀ (calls : List (QueueCall Unit)) (item : QueueItem), ∃ queue delivered after,
      queueCalls newQueue calls = some queue ∧ drainQueue queue item = some (delivered, after) ∧
      delivered = busyItems queue ∧ busyItems after = [] := by
  intro drains
  obtain ⟨queue, delivered, after, reached, drained, all, _⟩ := drains
    [.enqueueDataItem 1, .dequeue .undefined false, .enqueueDataItem 2] .undefined
  have left : (queueCalls newQueue [(.enqueueDataItem 1 : QueueCall Unit),
      .dequeue .undefined false, .enqueueDataItem 2]).map (fun queue =>
        ((drainQueue queue .undefined).map (·.1), busyItems queue)) =
      some (some [], [.data 2]) := by decide
  rw [reached, Option.map_some, Option.some.injEq, Prod.mk.injEq, drained, all] at left
  rw [left.2] at left
  cases left.1

end Aio4c
