import Aio4c.QueueProperties

/-! Sequences of queue calls against a plain list of items. The threads that
call are not named: any of them may make the next call, and a `Dequeue` that
waits comes back at any later point of the sequence. -/

set_option autoImplicit false

namespace Aio4c

variable {σ : Type}

inductive QueueCall (σ : Type) where
  | enqueueDataItem (data : Nat)
  | enqueueEventItem (type : Event) (source : Nat)
  | enqueueTaskItem (event : Event) (connection buffer : Nat)
  | enqueueExitItem
  | dequeue (item : QueueItem) (wait : Bool)
  | dequeueResume (notified : Bool)
  | removeAll (removeCallback : QueueItem → σ → Bool × σ) (state : σ)

inductive QueueOutput (σ : Type) where
  | enqueued (accepted : Bool)
  | dequeued (result : Dequeued)
  | removed (removed : Bool) (state : σ)

def queueCall (queue : Queue) : QueueCall σ → Option (QueueOutput σ × Queue)
  | .enqueueDataItem data =>
      (enqueueDataItem queue data).map fun (accepted, after) => (.enqueued accepted, after)
  | .enqueueEventItem type source =>
      (enqueueEventItem queue type source).map fun (accepted, after) => (.enqueued accepted, after)
  | .enqueueTaskItem event connection buffer =>
      (enqueueTaskItem queue event connection buffer).map fun (accepted, after) =>
        (.enqueued accepted, after)
  | .enqueueExitItem =>
      (enqueueExitItem queue).map fun (accepted, after) => (.enqueued accepted, after)
  | .dequeue item wait =>
      (dequeue queue item wait).map fun (result, after) => (.dequeued result, after)
  | .dequeueResume notified =>
      (dequeueResume queue notified).map fun (result, after) => (.dequeued result, after)
  | .removeAll removeCallback state =>
      (removeAll queue removeCallback state).map fun ((removed, state), after) =>
        (.removed removed state, after)

/-! ## The plain list -/

/-- A successful enqueue appends its item; a refused one changes nothing. -/
def Appends (item : QueueItem) (items : List QueueItem) (output : QueueOutput σ)
    (items' : List QueueItem) : Prop :=
  (output = .enqueued true ∧ items' = items ++ [item]) ∨
    (output = .enqueued false ∧ items' = items)

/-- A `Dequeue` that returns true delivers the oldest item and removes it; one
that waits or returns false changes no item. -/
def Delivers (items : List QueueItem) (output : QueueOutput σ) (items' : List QueueItem) : Prop :=
  (∃ item, output = .dequeued (.returned true item) ∧ items = item :: items') ∨
    (((∃ item, output = .dequeued (.returned false item)) ∨ output = .dequeued .waiting) ∧
      items' = items)

/-- `RemoveAll` asks once for each item in order, deletes exactly those accepted
and says whether it deleted one. -/
def Sweeps (removeCallback : QueueItem → σ → Bool × σ) (state : σ) (items : List QueueItem)
    (output : QueueOutput σ) (items' : List QueueItem) : Prop :=
  ∃ removed, output = .removed removed (Fifo.consult removeCallback items state).2 ∧
    items' = Fifo.spared items (Fifo.consult removeCallback items state).1 ∧
    (removed = true ↔ items'.length < items.length)

def PlainStep (items : List QueueItem) :
    QueueCall σ → QueueOutput σ → List QueueItem → Prop
  | .enqueueDataItem data => Appends (.data data) items
  | .enqueueEventItem type source => Appends (.event type source) items
  | .enqueueTaskItem event connection buffer => Appends (.task event connection buffer) items
  | .enqueueExitItem => Appends .exit items
  | .dequeue _ _ | .dequeueResume _ => Delivers items
  | .removeAll removeCallback state => Sweeps removeCallback state items

/-- When a `Dequeue` returns true, and when it waits. -/
def Attempts (items : List QueueItem) (unmarked waits : Prop) (output : QueueOutput σ) : Prop :=
  ((∃ item, output = .dequeued (.returned true item)) ↔ unmarked ∧ items ≠ []) ∧
    (output = .dequeued .waiting ↔ unmarked ∧ items = [] ∧ waits)

/-- The marks of the queue decide which way a call goes. An enqueue is refused behind EXIT only, and
a `Dequeue` that finds `emptied` set returns false without a look at the items. -/
def Decides (queue : Queue) (items : List QueueItem) : QueueCall σ → QueueOutput σ → Prop
  | .enqueueDataItem _, output | .enqueueEventItem _ _, output | .enqueueTaskItem _ _ _, output
  | .enqueueExitItem, output => output = .enqueued (!queue.exit)
  | .dequeue _ wait, output =>
      Attempts items (queue.emptied = false) (wait = true ∧ queue.exit = false) output
  | .dequeueResume notified, output =>
      Attempts items True (notified = true ∧ queue.exit = false) output
  | .removeAll _ _, _ => True

/-- The two lists of the queue are well formed and disjoint, and the busy one
holds the items. -/
def Queue.WellFormed (queue : Queue) (items : List QueueItem) : Prop :=
  ∃ busy free fifo, queue.Represents busy free fifo ∧ fifo.items = items ∧ busy.Disjoint free

theorem Queue.Represents.wellFormed {queue : Queue} {busy free : List Nat}
    {fifo : Fifo QueueItem} (represents : queue.Represents busy free fifo) :
    queue.WellFormed fifo.items :=
  ⟨busy, free, fifo, represents, rfl, fun _ inBusy inFree => represents.disjoint inBusy inFree⟩

/-! ## One call -/

/-- A call returns, goes the way that the marks say, does to the items what it does to a plain
list, and leaves a queue whose pool covers its longest state. -/
def StepRefines (queue : Queue) (fifo : Fifo QueueItem) (call : QueueCall σ) : Prop :=
  ∃ output after busy free fifo', queueCall queue call = some (output, after) ∧
    PlainStep fifo.items call output fifo'.items ∧ Decides queue fifo.items call output ∧
    after.Represents busy free fifo' ∧ after.allocated = max queue.allocated fifo'.items.length

section

variable {queue : Queue} {busy free : List Nat} {fifo : Fifo QueueItem}

theorem enqueue_step (represents : queue.Represents busy free fifo) (item : QueueItem) :
    ∃ after busy' free' fifo', enqueue queue item = some (!queue.exit, after) ∧
      Appends item fifo.items (.enqueued (!queue.exit) : QueueOutput σ) fifo'.items ∧
      after.Represents busy' free' fifo' ∧
      after.allocated = max queue.allocated fifo'.items.length := by
  have total := represents.total
  have length := represents.length
  rw [represents.exit]
  cases closed : fifo.exit with
  | true =>
      refine ⟨queue, busy, free, fifo, ?_, .inr ⟨rfl, rfl⟩, represents, by omega⟩
      rw [enqueue, represents.exit, closed, if_pos rfl]
      rfl
  | false =>
      obtain ⟨after, busy', free', result, represents', count⟩ :=
        represents.enqueue_ok closed item
      exact ⟨after, busy', free', _, result, .inl ⟨rfl, rfl⟩, represents', by
        simpa using count⟩

theorem take_delivers (fifo : Fifo QueueItem) (storage : QueueItem) :
    Delivers fifo.items (.dequeued (dequeuedOf storage fifo.take.1) : QueueOutput σ)
      fifo.take.2.items := by
  rcases fifo.take_items with ⟨item, taken, items⟩ | ⟨nothing, _, same⟩
  · exact .inl ⟨item, by rw [taken, dequeuedOf], items⟩
  · exact .inr ⟨.inl ⟨.undefined, by rw [nothing, dequeuedOf]⟩, by rw [same]⟩

theorem await_delivers (fifo : Fifo QueueItem) (storage : QueueItem) (wait : Bool) :
    Delivers fifo.items (.dequeued (dequeuedOf storage (fifo.await wait).1) : QueueOutput σ)
      (fifo.await wait).2.items := by
  unfold Fifo.await
  split
  · exact .inr ⟨.inr rfl, rfl⟩
  · exact take_delivers fifo storage

theorem dequeue_delivers (fifo : Fifo QueueItem) (storage : QueueItem) (wait : Bool) :
    Delivers fifo.items (.dequeued (dequeuedOf storage (fifo.dequeue wait).1) : QueueOutput σ)
      (fifo.dequeue wait).2.items := by
  unfold Fifo.dequeue
  split
  · exact .inr ⟨.inl ⟨storage, rfl⟩, rfl⟩
  · exact await_delivers fifo storage wait

theorem resume_delivers (fifo : Fifo QueueItem) (storage : QueueItem) (notified : Bool) :
    Delivers fifo.items (.dequeued (dequeuedOf storage (fifo.resume notified).1) : QueueOutput σ)
      (fifo.resume notified).2.items := by
  cases notified with
  | true => exact await_delivers fifo storage true
  | false => exact take_delivers fifo storage

theorem take_attempts (fifo : Fifo QueueItem) (storage : QueueItem) :
    Attempts fifo.items True False
      (.dequeued (dequeuedOf storage fifo.take.1) : QueueOutput σ) := by
  unfold Fifo.take
  cases fifo.items <;> simp [Attempts, dequeuedOf]

theorem await_attempts (fifo : Fifo QueueItem) (storage : QueueItem) (wait : Bool) :
    Attempts fifo.items True (wait = true ∧ fifo.exit = false)
      (.dequeued (dequeuedOf storage (fifo.await wait).1) : QueueOutput σ) := by
  unfold Fifo.await Fifo.take
  cases fifo.items <;> cases wait <;> cases fifo.exit <;> simp [Attempts, dequeuedOf]

theorem dequeue_attempts (fifo : Fifo QueueItem) (storage : QueueItem) (wait : Bool) :
    Attempts fifo.items (fifo.emptied = false) (wait = true ∧ fifo.exit = false)
      (.dequeued (dequeuedOf storage (fifo.dequeue wait).1) : QueueOutput σ) := by
  unfold Fifo.dequeue
  cases marked : fifo.emptied with
  | true => simp [Attempts, dequeuedOf]
  | false => simpa [Attempts] using await_attempts (σ := σ) fifo storage wait

theorem resume_attempts (fifo : Fifo QueueItem) (storage : QueueItem) (notified : Bool) :
    Attempts fifo.items True (notified = true ∧ fifo.exit = false)
      (.dequeued (dequeuedOf storage (fifo.resume notified).1) : QueueOutput σ) := by
  cases notified with
  | true => exact await_attempts fifo storage true
  | false => simpa [Attempts, Fifo.resume] using take_attempts (σ := σ) fifo storage

theorem Delivers.length_le {items items' : List QueueItem} {output : QueueOutput σ}
    (delivers : Delivers items output items') : items'.length ≤ items.length := by
  rcases delivers with ⟨item, _, rfl⟩ | ⟨_, rfl⟩
  · simp
  · exact Nat.le_refl _

theorem queueCall_refines (represents : queue.Represents busy free fifo) (call : QueueCall σ) :
    StepRefines queue fifo call := by
  have total := represents.total
  have length := represents.length
  cases call with
  | enqueueDataItem data =>
      obtain ⟨after, busy', free', fifo', result, appends, represents', count⟩ :=
        enqueue_step (σ := σ) represents (.data data)
      exact ⟨_, after, busy', free', fifo', by simp [queueCall, enqueueDataItem, result], appends,
        rfl, represents', count⟩
  | enqueueEventItem type source =>
      obtain ⟨after, busy', free', fifo', result, appends, represents', count⟩ :=
        enqueue_step (σ := σ) represents (.event type source)
      exact ⟨_, after, busy', free', fifo', by simp [queueCall, enqueueEventItem, result],
        appends, rfl, represents', count⟩
  | enqueueTaskItem event connection buffer =>
      obtain ⟨after, busy', free', fifo', result, appends, represents', count⟩ :=
        enqueue_step (σ := σ) represents (.task event connection buffer)
      exact ⟨_, after, busy', free', fifo', by simp [queueCall, enqueueTaskItem, result], appends,
        rfl, represents', count⟩
  | enqueueExitItem =>
      obtain ⟨after, busy', free', fifo', result, appends, represents', count⟩ :=
        enqueue_step (σ := σ) represents .exit
      exact ⟨_, after, busy', free', fifo', by simp [queueCall, enqueueExitItem, result], appends,
        rfl, represents', count⟩
  | dequeue item wait =>
      obtain ⟨after, busy', free', result, represents', count⟩ := represents.dequeue_ok item wait
      have delivers := dequeue_delivers (σ := σ) fifo item wait
      have shorter := delivers.length_le
      have attempts := dequeue_attempts (σ := σ) fifo item wait
      rw [← represents.emptied, ← represents.exit] at attempts
      exact ⟨_, after, busy', free', _, by simp [queueCall, result], delivers, attempts,
        represents', by omega⟩
  | dequeueResume notified =>
      obtain ⟨after, busy', free', result, represents', count⟩ :=
        represents.dequeueResume_ok .undefined notified
      have delivers := resume_delivers (σ := σ) fifo .undefined notified
      have shorter := delivers.length_le
      have attempts := resume_attempts (σ := σ) fifo .undefined notified
      rw [← represents.exit] at attempts
      exact ⟨_, after, busy', free', _, by simp [queueCall, result], delivers, attempts,
        represents', by omega⟩
  | removeAll removeCallback state =>
      obtain ⟨after, busy', free', result, represents', count⟩ :=
        represents.removeAll_ok removeCallback state
      have shorter := (Fifo.spared_sublist fifo.items
        (Fifo.consult removeCallback fifo.items state).1).length_le
      have asked := Fifo.consult_length removeCallback fifo.items state
      refine ⟨_, after, busy', free', _, by simp only [queueCall, result, Option.map_some]; rfl,
        ⟨_, rfl, rfl, (Fifo.spared_length_lt_iff asked).symm⟩, trivial, represents', ?_⟩
      simp only [Fifo.removeAll]
      omega

end

/-! ## Whole sequences -/

/-- Every call of the sequence returns and refines its step on the plain list, as the marks of the
queue decide; the queue stays well formed and the nodes allocated are `record`, the greatest
length the items ever had. -/
def QueueRefines (queue : Queue) (items : List QueueItem) (record : Nat) :
    List (QueueCall σ) → Prop
  | [] => True
  | call :: calls => ∃ output after items', queueCall queue call = some (output, after) ∧
      PlainStep items call output items' ∧ Decides queue items call output ∧
      after.WellFormed items' ∧ after.allocated = max record items'.length ∧
      QueueRefines after items' (max record items'.length) calls

theorem queueRefines_of_represents {queue : Queue} {busy free : List Nat}
    {fifo : Fifo QueueItem} (represents : queue.Represents busy free fifo)
    (calls : List (QueueCall σ)) :
    QueueRefines queue fifo.items queue.allocated calls := by
  induction calls generalizing queue busy free fifo with
  | nil => trivial
  | cons call calls ih =>
      obtain ⟨output, after, busy', free', fifo', result, plain, decides, represents', count⟩ :=
        queueCall_refines represents call
      exact ⟨output, after, fifo'.items, result, plain, decides, represents'.wellFormed, count,
        count ▸ ih represents'⟩

/-- From a new queue, every sequence of calls refines a plain list. -/
theorem newQueue_refines (calls : List (QueueCall σ)) : QueueRefines newQueue [] 0 calls :=
  queueRefines_of_represents newQueue_represents calls

end Aio4c
