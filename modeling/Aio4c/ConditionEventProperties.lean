import Aio4c.ConditionEvent

/-! A queue whose condition is a mutex and an event behaves like one with a condition
variable: its runs are runs of the queue whose consumer blocks and is woken in one step. -/

set_option autoImplicit false

namespace Aio4c

open Ownership TransitionSystem

variable {σ : Type}

/-! ## Places -/

namespace Win32Producer

def holdsLock : Win32Producer σ → Bool
  | .outside | .entering _ => false
  | .working _ | .notifying _ | .setting _ | .releasing _ | .leaving => true

def ownsMutex : Win32Producer σ → Bool
  | .setting _ | .releasing _ => true
  | .outside | .entering _ | .working _ | .notifying _ | .leaving => false

/-- An item is in the queue whose event is still to be set. -/
def announces : Win32Producer σ → Bool
  | .notifying (.enqueue _) | .setting (.enqueue _) => true
  | _ => false

/-- The event is set for a `RemoveAll` whose loop is still to run. -/
def announced : Win32Producer σ → Bool
  | .releasing (.removeAll _ _) | .working (.removeAll _ _) => true
  | _ => false

theorem announced_holdsLock {point : Win32Producer σ} (told : point.announced = true) :
    point.holdsLock = true := by
  cases point with
  | releasing call | working call => rfl
  | outside | entering call | notifying call | setting call | leaving => cases told

theorem ownsMutex_holdsLock {point : Win32Producer σ} (owns : point.ownsMutex = true) :
    point.holdsLock = true := by
  cases point with
  | releasing call | setting call => rfl
  | outside | entering call | working call | notifying call | leaving => cases owns

/-- The call that a producer is in spares EXIT. -/
def SparesExit : Win32Producer σ → Prop
  | .entering call | .working call | .notifying call | .setting call | .releasing call =>
      call.SparesExit
  | .outside | .leaving => True

end Win32Producer

namespace ProducerCall

variable (call : ProducerCall σ)

@[simp] theorem entered_holdsLock : call.entered.holdsLock = true := by
  cases call <;> rfl

@[simp] theorem entered_ownsMutex : call.entered.ownsMutex = false := by
  cases call <;> rfl

@[simp] theorem entered_announced : call.entered.announced = false := by
  cases call <;> rfl

@[simp] theorem notified_holdsLock : call.notified.holdsLock = true := by
  cases call <;> rfl

@[simp] theorem notified_ownsMutex : call.notified.ownsMutex = false := by
  cases call <;> rfl

theorem notified_announced :
    call.notified.announced = (Win32Producer.releasing call).announced := by
  cases call <;> rfl

theorem SparesExit.entered {call : ProducerCall σ} (spares : call.SparesExit) :
    call.entered.SparesExit := by
  cases call <;> exact spares

theorem SparesExit.notified {call : ProducerCall σ} (spares : call.SparesExit) :
    call.notified.SparesExit := by
  cases call with
  | enqueue item => trivial
  | removeAll removeCallback discriminant => exact spares

end ProducerCall

namespace Win32Consumer

def holdsLock : Win32Consumer → Bool
  | .testing _ _ | .waiting | .unlocking | .resumed _ | .leaving => true
  | .outside | .entering _ _ | .signalling | .asleep | .resetting | .reentering => false

def ownsMutex : Win32Consumer → Bool
  | .unlocking | .signalling => true
  | .outside | .entering _ _ | .testing _ _ | .waiting | .asleep | .resetting | .reentering
  | .resumed _ | .leaving => false

/-- The consumer has left the lock for the event and not seen it set. -/
def sleeps : Win32Consumer → Bool
  | .signalling | .asleep => true
  | _ => false

/-- The consumer of a condition variable that stands for this one. One that sleeps may have
been signalled only if it has a reason to wake up. -/
def Reflects (alert : Prop) : Win32Consumer → Consumer → Prop
  | .outside, image | .entering _ _, image | .testing _ _, image | .leaving, image =>
      image = .outside
  | .waiting, image | .unlocking, image => image = .blocked false
  | .signalling, image | .asleep, image =>
      ∃ signalled, image = .blocked signalled ∧ (signalled = true → alert)
  | .resetting, image | .reentering, image => image = .woken true
  | .resumed notified, image => image = .woken notified

theorem Reflects.mono {alert alert' : Prop} {consumer : Win32Consumer} {image : Consumer}
    (reflects : consumer.Reflects alert image) (more : alert → alert') :
    consumer.Reflects alert' image := by
  cases consumer with
  | signalling | asleep =>
      obtain ⟨signalled, same, reason⟩ := reflects
      exact ⟨signalled, same, fun signal => more (reason signal)⟩
  | outside | entering | testing | waiting | unlocking | resetting | reentering | resumed
  | leaving => exact reflects

/-- A notification by the party that holds the lock. -/
theorem Reflects.notify {alert alert' : Prop} {consumer : Win32Consumer} {image : Consumer}
    (reflects : consumer.Reflects alert image) (away : consumer.holdsLock = false)
    (reason : consumer.sleeps = true → alert') :
    consumer.Reflects alert' (notifyCondition image) := by
  cases consumer with
  | signalling | asleep =>
      obtain ⟨signalled, same, _⟩ := reflects
      exact ⟨true, by rw [same]; rfl, fun _ => reason rfl⟩
  | outside | entering | resetting | reentering =>
      cases reflects
      rfl
  | testing | waiting | unlocking | resumed | leaving => cases away

end Win32Consumer

namespace Win32Queue

def HoldsLock (state : Win32Queue σ) : QueueParty → Prop
  | .consumer => state.consumer.holdsLock = true
  | .producer id => (state.producers id).holdsLock = true

def OwnsMutex (state : Win32Queue σ) : QueueParty → Prop
  | .consumer => state.consumer.ownsMutex = true
  | .producer id => (state.producers id).ownsMutex = true

/-- The event is set, or a producer is about to set it. -/
def Alert (state : Win32Queue σ) : Prop :=
  state.event = true ∨ ∃ id, (state.producers id).announces = true

/-- The queue with a condition variable that this one implements. -/
structure Implements (state : Win32Queue σ) (shared : SharedQueue) : Prop where
  queue : shared.queue = state.queue
  enqueued : shared.enqueued = state.enqueued
  delivered : shared.delivered = state.delivered
  removed : shared.removed = state.removed
  reflects : state.consumer.Reflects state.Alert shared.consumer
  lock : Names state.lock state.HoldsLock
  mutex : Names state.mutex state.OwnsMutex
  announced : ∀ id, (state.producers id).announced = true → state.consumer.sleeps = true →
    state.event = true
  spares : ∀ id, (state.producers id).SparesExit
  sound : ∃ fifo, shared.Sound fifo

end Win32Queue

theorem newWin32Queue_implements :
    (newWin32Queue : Win32Queue σ).Implements newSharedQueue where
  queue := rfl
  enqueued := rfl
  delivered := rfl
  removed := rfl
  reflects := rfl
  lock party := by cases party <;> simp [newWin32Queue, Win32Queue.HoldsLock,
    Win32Consumer.holdsLock, Win32Producer.holdsLock]
  mutex party := by cases party <;> simp [newWin32Queue, Win32Queue.OwnsMutex,
    Win32Consumer.ownsMutex, Win32Producer.ownsMutex]
  announced _ announced := by cases announced
  spares _ := trivial
  sound := ⟨_, newSharedQueue_sound⟩

/-- The steps of the queue that is implemented, with callbacks that spare EXIT. -/
abbrev SparingStep : SharedQueue → SharedAction σ → SharedQueue → Prop :=
  Guarded (fun _ action => action.SparesExit) SharedStep

/-- Some run of the queue that is implemented leads to one that `after` implements. -/
def Win32Queue.Matched (shared : SharedQueue) (after : Win32Queue σ) : Prop :=
  ∃ trace shared', Run (SparingStep : SharedQueue → SharedAction σ → SharedQueue → Prop)
    shared trace shared' ∧ after.Implements shared'

/-! ## The steps of a producer -/

namespace Win32Queue

section Moves

variable {state after : Win32Queue σ} {id : Nat} {point : Win32Producer σ}

theorem holdsLock_moved (consumer : after.consumer = state.consumer)
    (producers : after.producers = Function.update state.producers id point)
    (other : QueueParty) (differs : other ≠ .producer id) :
    after.HoldsLock other ↔ state.HoldsLock other := by
  cases other with
  | consumer => simp only [HoldsLock, consumer]
  | producer number =>
      have apart : number ≠ id := fun same => differs (same ▸ rfl)
      simp only [HoldsLock, producers, Function.update_of_ne apart]

theorem ownsMutex_moved (consumer : after.consumer = state.consumer)
    (producers : after.producers = Function.update state.producers id point)
    (other : QueueParty) (differs : other ≠ .producer id) :
    after.OwnsMutex other ↔ state.OwnsMutex other := by
  cases other with
  | consumer => simp only [OwnsMutex, consumer]
  | producer number =>
      have apart : number ≠ id := fun same => differs (same ▸ rfl)
      simp only [OwnsMutex, producers, Function.update_of_ne apart]

theorem holdsLock_kept (consumer : after.consumer = state.consumer)
    (producers : after.producers = Function.update state.producers id point)
    (same : point.holdsLock = (state.producers id).holdsLock) (party : QueueParty) :
    after.HoldsLock party ↔ state.HoldsLock party := by
  by_cases moved : party = .producer id
  · subst moved
    simp only [HoldsLock, producers, Function.update_self, same]
  · exact holdsLock_moved consumer producers party moved

theorem ownsMutex_kept (consumer : after.consumer = state.consumer)
    (producers : after.producers = Function.update state.producers id point)
    (same : point.ownsMutex = (state.producers id).ownsMutex) (party : QueueParty) :
    after.OwnsMutex party ↔ state.OwnsMutex party := by
  by_cases moved : party = .producer id
  · subst moved
    simp only [OwnsMutex, producers, Function.update_self, same]
  · exact ownsMutex_moved consumer producers party moved

/-- A producer whose announcement is not dropped leaves the consumer its reasons. -/
theorem alert_moved (producers : after.producers = Function.update state.producers id point)
    (event : state.event = true → after.event = true)
    (kept : (state.producers id).announces = true → point.announces = true ∨ after.event = true)
    (alert : state.Alert) : after.Alert := by
  rcases alert with set | ⟨other, announces⟩
  · exact .inl (event set)
  · by_cases same : other = id
    · subst same
      rcases kept announces with still | set
      · exact .inr ⟨other, by rw [producers, Function.update_self]; exact still⟩
      · exact .inl set
    · exact .inr ⟨other, by rw [producers, Function.update_of_ne same]; exact announces⟩

end Moves

namespace Implements

variable {state after : Win32Queue σ} {shared : SharedQueue} {id : Nat}

/-- A producer that moves without work on the lists. -/
theorem producerMoves (implements : state.Implements shared) (point : Win32Producer σ)
    (moved : after = moveProducer
      { state with lock := after.lock, mutex := after.mutex, event := after.event } id point)
    (lock : Names after.lock after.HoldsLock) (mutex : Names after.mutex after.OwnsMutex)
    (event : state.event = true → after.event = true)
    (kept : (state.producers id).announces = true → point.announces = true ∨ after.event = true)
    (announced : point.announced = true → state.consumer.sleeps = true → after.event = true)
    (spares : point.SparesExit) : after.Implements shared := by
  have producers : after.producers = Function.update state.producers id point := by
    rw [moved]
    rfl
  have consumer : after.consumer = state.consumer := by
    rw [moved]
    rfl
  refine
    { queue := by rw [moved]; exact implements.queue
      enqueued := by rw [moved]; exact implements.enqueued
      delivered := by rw [moved]; exact implements.delivered
      removed := by rw [moved]; exact implements.removed
      reflects := ?_
      lock := lock
      mutex := mutex
      announced := ?_
      spares := ?_
      sound := implements.sound }
  · rw [consumer]
    exact implements.reflects.mono (alert_moved producers event kept)
  · intro other told sleeps
    rw [consumer] at sleeps
    by_cases same : other = id
    · rw [same, producers, Function.update_self] at told
      exact announced told sleeps
    · rw [producers, Function.update_of_ne same] at told
      exact event (implements.announced other told sleeps)
  · intro other
    by_cases same : other = id
    · rw [same, producers, Function.update_self]
      exact spares
    · rw [producers, Function.update_of_ne same]
      exact implements.spares other

theorem holdsLock_of (implements : state.Implements shared)
    (place : (state.producers id).holdsLock = true) : state.consumer.holdsLock = false := by
  cases held : state.consumer.holdsLock with
  | false => rfl
  | true =>
      have holds : state.HoldsLock (.producer id) := place
      cases implements.lock.unique holds (show state.HoldsLock .consumer from held)

/-- A producer whose work on the lists is an action of the queue that it implements. -/
theorem producerWorks (implements : state.Implements shared) (point : Win32Producer σ)
    {shared' : SharedQueue}
    (consumer : after.consumer = state.consumer)
    (producers : after.producers = Function.update state.producers id point)
    (event : after.event = state.event)
    (queue : shared'.queue = after.queue) (enqueued : shared'.enqueued = after.enqueued)
    (delivered : shared'.delivered = after.delivered) (removed : shared'.removed = after.removed)
    (reflects : state.consumer.Reflects after.Alert shared'.consumer)
    (lock : after.lock = state.lock) (mutex : after.mutex = state.mutex)
    (held : (state.producers id).holdsLock = true) (holds : point.holdsLock = true)
    (owned : (state.producers id).ownsMutex = false) (owns : point.ownsMutex = false)
    (announced : point.announced = false) (spares : point.SparesExit)
    (sound : ∃ fifo, shared'.Sound fifo) : after.Implements shared' where
  queue := queue
  enqueued := enqueued
  delivered := delivered
  removed := removed
  reflects := consumer ▸ reflects
  lock := lock ▸ implements.lock.keep (holdsLock_kept consumer producers (holds.trans held.symm))
  mutex := mutex ▸ implements.mutex.keep (ownsMutex_kept consumer producers (owns.trans owned.symm))
  announced other told sleeps := by
    rw [consumer] at sleeps
    rw [event]
    by_cases same : other = id
    · rw [same, producers, Function.update_self, announced] at told
      cases told
    · rw [producers, Function.update_of_ne same] at told
      exact implements.announced other told sleeps
  spares other := by
    by_cases same : other = id
    · rw [same, producers, Function.update_self]
      exact spares
    · rw [producers, Function.update_of_ne same]
      exact implements.spares other
  sound := sound

theorem enqueues (implements : state.Implements shared) {item : QueueItem}
    (place : state.producers id = .working (.enqueue item))
    (taken : win32Produce state id true = some after) :
    Matched shared after := by
  simp only [win32Produce, place, Option.bind_eq_bind, Option.bind_eq_some_iff, Prod.exists,
    Option.pure_def, Option.some.injEq] at taken
  obtain ⟨accepted, queue, works, rfl⟩ := taken
  have held : (state.producers id).holdsLock = true := by rw [place]; rfl
  have owned : (state.producers id).ownsMutex = false := by rw [place]; rfl
  obtain ⟨fifo, sound⟩ := implements.sound
  cases accepted with
  | false =>
      let shared' : SharedQueue := { shared with queue }
      have step : SharedStep shared (.enqueue item : SharedAction σ) shared' := by
        simp [SharedStep, sharedStep, implements.queue, works, shared']
      refine ⟨[.enqueue item], shared', .cons ⟨trivial, step⟩ (.nil _), ?_⟩
      refine implements.producerWorks (.leaving) rfl rfl rfl rfl implements.enqueued
        implements.delivered implements.removed ?_ rfl rfl held rfl owned rfl rfl trivial
        (sound.enqueue item step)
      exact implements.reflects.mono
        (alert_moved rfl (fun set => set) (by simp [place, Win32Producer.announces]))
  | true =>
      let shared' : SharedQueue := { shared with
        queue, consumer := notifyCondition shared.consumer, enqueued := shared.enqueued ++ [item] }
      have step : SharedStep shared (.enqueue item : SharedAction σ) shared' := by
        simp [SharedStep, sharedStep, implements.queue, works, shared']
      refine ⟨[.enqueue item], shared', .cons ⟨trivial, step⟩ (.nil _), ?_⟩
      refine implements.producerWorks (.notifying (.enqueue item)) rfl rfl rfl rfl
        (by simp [shared', moveProducer, implements.enqueued]) implements.delivered
        implements.removed ?_ rfl rfl held rfl owned rfl rfl trivial (sound.enqueue item step)
      apply implements.reflects.notify (implements.holdsLock_of held)
      intro _
      exact .inr ⟨id, by simp [moveProducer, Win32Producer.announces]⟩

theorem removes (implements : state.Implements shared)
    {removeCallback : QueueItem → σ → Bool × σ} {discriminant : σ}
    (place : state.producers id = .working (.removeAll removeCallback discriminant))
    (taken : win32Produce state id true = some after) :
    Matched shared after := by
  simp only [win32Produce, place, Option.bind_eq_bind, Option.bind_eq_some_iff, Prod.exists,
    Option.pure_def, Option.some.injEq] at taken
  obtain ⟨_, _, queue, works, rfl⟩ := taken
  have held : (state.producers id).holdsLock = true := by rw [place]; rfl
  have owned : (state.producers id).ownsMutex = false := by rw [place]; rfl
  have spares : ∀ state, (removeCallback .exit state).1 = false := by
    have pending := implements.spares id
    rw [place] at pending
    exact pending
  obtain ⟨fifo, sound⟩ := implements.sound
  let shared' : SharedQueue := { shared with
    queue, consumer := notifyCondition shared.consumer
    removed := shared.removed ++ (busyItems shared.queue).diff (busyItems queue) }
  have step : SharedStep shared (.removeAll removeCallback discriminant) shared' := by
    simp [SharedStep, sharedStep, implements.queue, works, shared']
  refine ⟨[.removeAll removeCallback discriminant], shared', .cons ⟨spares, step⟩ (.nil _), ?_⟩
  refine implements.producerWorks (.leaving) rfl rfl rfl rfl implements.enqueued
    implements.delivered (by simp [shared', moveProducer, implements.removed, implements.queue]) ?_
    rfl rfl held rfl owned rfl rfl trivial (sound.removeAll spares step)
  apply implements.reflects.notify (implements.holdsLock_of held)
  intro sleeps
  exact .inl (implements.announced id (by rw [place]; rfl) sleeps)

/-- What a producer does under the lock is an action of the queue that is implemented; the
calls around it are none. -/
theorem produce (implements : state.Implements shared)
    (taken : win32Produce state id true = some after) :
    Matched shared after := by
  have spares := implements.spares id
  cases place : state.producers id with
  | outside => simp [win32Produce, place] at taken
  | entering call =>
      simp only [win32Produce, place, Option.ite_none_right_eq_some, Option.some.injEq] at taken
      obtain ⟨free, rfl⟩ := taken
      rw [place] at spares
      refine ⟨[], shared, .nil _,
        implements.producerMoves call.entered rfl ?_ ?_ (fun set => set) ?_ ?_
        (ProducerCall.SparesExit.entered spares)⟩
      · exact implements.lock.take free (by simp [HoldsLock, moveProducer])
          (holdsLock_moved rfl rfl)
      · exact implements.mutex.keep (ownsMutex_kept rfl rfl
          (by rw [place]; exact call.entered_ownsMutex))
      · simp [place, Win32Producer.announces]
      · simp
  | working call =>
      cases call with
      | enqueue item => exact implements.enqueues place taken
      | removeAll removeCallback discriminant => exact implements.removes place taken
  | notifying call =>
      simp only [win32Produce, place, if_true, Option.ite_none_right_eq_some, Option.some.injEq]
        at taken
      obtain ⟨free, rfl⟩ := taken
      rw [place] at spares
      refine ⟨[], shared, .nil _,
        implements.producerMoves (.setting call) rfl ?_ ?_ (fun set => set) ?_
        (by simp [Win32Producer.announced]) spares⟩
      · exact implements.lock.keep (holdsLock_kept rfl rfl
          (by simp [place, Win32Producer.holdsLock]))
      · exact implements.mutex.take free
          (by simp [OwnsMutex, moveProducer, Win32Producer.ownsMutex]) (ownsMutex_moved rfl rfl)
      · intro announces
        rw [place] at announces
        cases call with
        | enqueue item => exact .inl rfl
        | removeAll removeCallback discriminant => cases announces
  | setting call =>
      simp only [win32Produce, place, Bool.or_true, Option.some.injEq] at taken
      subst taken
      rw [place] at spares
      refine ⟨[], shared, .nil _,
        implements.producerMoves (.releasing call) rfl ?_ ?_
        (fun _ => rfl) (fun _ => .inr rfl) (fun _ _ => rfl) spares⟩
      · exact implements.lock.keep (holdsLock_kept rfl rfl
          (by simp [place, Win32Producer.holdsLock]))
      · exact implements.mutex.keep (ownsMutex_kept rfl rfl
          (by simp [place, Win32Producer.ownsMutex]))
  | releasing call =>
      simp only [win32Produce, place, if_true, Option.some.injEq] at taken
      subst taken
      rw [place] at spares
      refine ⟨[], shared, .nil _,
        implements.producerMoves call.notified rfl ?_ ?_ (fun set => set) ?_ ?_
        (ProducerCall.SparesExit.notified spares)⟩
      · exact implements.lock.keep (holdsLock_kept rfl rfl
          (by rw [place]; exact call.notified_holdsLock))
      · have owns : state.OwnsMutex (.producer id) := by
          rw [OwnsMutex, place]
          rfl
        exact implements.mutex.release owns (by simp [OwnsMutex, moveProducer])
          (ownsMutex_moved rfl rfl)
      · simp [place, Win32Producer.announces]
      · intro announced sleeps
        rw [ProducerCall.notified_announced, ← place] at announced
        exact implements.announced id announced sleeps
  | leaving =>
      simp only [win32Produce, place, Option.some.injEq] at taken
      subst taken
      refine ⟨[], shared, .nil _,
        implements.producerMoves .outside rfl ?_ ?_ (fun set => set) ?_
        (by simp [Win32Producer.announced]) trivial⟩
      · have holds : state.HoldsLock (.producer id) := by
          rw [HoldsLock, place]
          rfl
        exact implements.lock.release holds
          (by simp [HoldsLock, moveProducer, Win32Producer.holdsLock]) (holdsLock_moved rfl rfl)
      · exact implements.mutex.keep (ownsMutex_kept rfl rfl
          (by simp [place, Win32Producer.ownsMutex]))
      · simp [place, Win32Producer.announces]

end Implements

/-! ## The steps of the consumer -/

section Moves

variable {state after : Win32Queue σ}

theorem holdsLock_consumed (producers : after.producers = state.producers) (other : QueueParty)
    (differs : other ≠ .consumer) : after.HoldsLock other ↔ state.HoldsLock other := by
  cases other with
  | consumer => exact absurd rfl differs
  | producer id => simp only [HoldsLock, producers]

theorem ownsMutex_consumed (producers : after.producers = state.producers) (other : QueueParty)
    (differs : other ≠ .consumer) : after.OwnsMutex other ↔ state.OwnsMutex other := by
  cases other with
  | consumer => exact absurd rfl differs
  | producer id => simp only [OwnsMutex, producers]

theorem holdsLock_held (producers : after.producers = state.producers)
    (same : after.consumer.holdsLock = state.consumer.holdsLock) (party : QueueParty) :
    after.HoldsLock party ↔ state.HoldsLock party := by
  cases party with
  | consumer => simp only [HoldsLock, same]
  | producer id => simp only [HoldsLock, producers]

theorem ownsMutex_held (producers : after.producers = state.producers)
    (same : after.consumer.ownsMutex = state.consumer.ownsMutex) (party : QueueParty) :
    after.OwnsMutex party ↔ state.OwnsMutex party := by
  cases party with
  | consumer => simp only [OwnsMutex, same]
  | producer id => simp only [OwnsMutex, producers]

end Moves

namespace Implements

variable {state after : Win32Queue σ} {shared shared' : SharedQueue}

/-- The consumer moves without work on the lists. -/
theorem consumerMoves (implements : state.Implements shared)
    (moved : after = { state with
      lock := after.lock, mutex := after.mutex, event := after.event, consumer := after.consumer })
    (moved' : shared' = { shared with consumer := shared'.consumer })
    (reflects : after.consumer.Reflects after.Alert shared'.consumer)
    (lock : Names after.lock after.HoldsLock) (mutex : Names after.mutex after.OwnsMutex)
    (announced : ∀ id, (state.producers id).announced = true → after.consumer.sleeps = true →
      after.event = true) (sound : ∃ fifo, shared'.Sound fifo) : after.Implements shared' where
  queue := by rw [moved, moved']; exact implements.queue
  enqueued := by rw [moved, moved']; exact implements.enqueued
  delivered := by rw [moved, moved']; exact implements.delivered
  removed := by rw [moved, moved']; exact implements.removed
  reflects := reflects
  lock := lock
  mutex := mutex
  announced id told sleeps := by
    rw [moved] at told
    exact announced id told sleeps
  spares := by rw [moved]; exact implements.spares
  sound := sound

/-- A piece of `Dequeue` under the lock is one of the queue that is implemented. -/
theorem consumerWorks (implements : state.Implements shared) {outcome : Dequeued × Queue}
    {action : SharedAction σ} (spares : action.SparesExit)
    (step : SharedStep shared action (shared.afterDequeue outcome))
    (held : state.consumer.holdsLock = true) (owned : state.consumer.ownsMutex = false) :
    (state.afterDequeue outcome).Implements (shared.afterDequeue outcome) := by
  obtain ⟨fifo, sound⟩ := implements.sound
  have sound' := sound.step spares step
  obtain ⟨dequeued, queue⟩ := outcome
  cases dequeued with
  | waiting =>
      exact
        { queue := rfl
          enqueued := implements.enqueued
          delivered := implements.delivered
          removed := implements.removed
          reflects := rfl
          lock := implements.lock.keep (holdsLock_held rfl held.symm)
          mutex := implements.mutex.keep (ownsMutex_held rfl owned.symm)
          announced := fun _ _ sleeps => by cases sleeps
          spares := implements.spares
          sound := sound' }
  | returned dequeued item =>
      cases dequeued with
      | true =>
          exact
            { queue := rfl
              enqueued := implements.enqueued
              delivered := congrArg (· ++ [item]) implements.delivered
              removed := implements.removed
              reflects := rfl
              lock := implements.lock.keep (holdsLock_held rfl held.symm)
              mutex := implements.mutex.keep (ownsMutex_held rfl owned.symm)
              announced := fun _ _ sleeps => by cases sleeps
              spares := implements.spares
              sound := sound' }
      | false =>
          exact
            { queue := rfl
              enqueued := implements.enqueued
              delivered := implements.delivered
              removed := implements.removed
              reflects := rfl
              lock := implements.lock.keep (holdsLock_held rfl held.symm)
              mutex := implements.mutex.keep (ownsMutex_held rfl owned.symm)
              announced := fun _ _ sleeps => by cases sleeps
              spares := implements.spares
              sound := sound' }

theorem consume (implements : state.Implements shared) {succeeds : Bool}
    (works : state.consumer = .signalling → succeeds = true)
    (taken : win32Consume state succeeds = some after) :
    Matched shared after := by
  have reflects := implements.reflects
  obtain ⟨fifo, sound⟩ := implements.sound
  cases place : state.consumer with
  | outside => simp [win32Consume, place] at taken
  | entering item wait =>
      simp only [win32Consume, place, Option.ite_none_right_eq_some, Option.some.injEq] at taken
      obtain ⟨free, rfl⟩ := taken
      rw [place] at reflects
      refine ⟨[], shared, .nil _, implements.consumerMoves rfl rfl reflects ?_ ?_
        (fun _ _ sleeps => by cases sleeps) implements.sound⟩
      · exact implements.lock.take free rfl (holdsLock_consumed rfl)
      · exact implements.mutex.keep (ownsMutex_held rfl (by rw [place]; rfl))
  | testing item wait =>
      simp only [win32Consume, place, Option.map_eq_some_iff] at taken
      obtain ⟨outcome, result, rfl⟩ := taken
      rw [place] at reflects
      have step : SharedStep shared (.dequeue item wait : SharedAction σ)
          (shared.afterDequeue outcome) := by
        simp [SharedStep, sharedStep, show shared.consumer = .outside from reflects,
          implements.queue, result]
      exact ⟨[.dequeue item wait], _, .cons ⟨trivial, step⟩ (.nil _),
        implements.consumerWorks (by trivial) step (by rw [place]; rfl) (by rw [place]; rfl)⟩
  | waiting =>
      rw [place] at reflects
      cases succeeds with
      | true =>
          simp only [win32Consume, place, if_true, Option.ite_none_right_eq_some,
            Option.some.injEq] at taken
          obtain ⟨free, rfl⟩ := taken
          refine ⟨[], shared, .nil _, implements.consumerMoves rfl rfl reflects ?_ ?_
            (fun _ _ sleeps => by cases sleeps) implements.sound⟩
          · exact implements.lock.keep (holdsLock_held rfl (by rw [place]; rfl))
          · exact implements.mutex.take free rfl (ownsMutex_consumed rfl)
      | false =>
          simp only [win32Consume, place, Bool.false_eq_true, if_false, Option.some.injEq] at taken
          subst taken
          have step : SharedStep shared (.wakeUp false : SharedAction σ)
              { shared with consumer := .woken false } := by
            simp [SharedStep, sharedStep, show shared.consumer = .blocked false from reflects]
          refine ⟨[.wakeUp false], _, .cons ⟨trivial, step⟩ (.nil _),
            implements.consumerMoves rfl rfl rfl ?_ ?_ (fun _ _ sleeps => by cases sleeps)
              (sound.wakeUp false step)⟩
          · exact implements.lock.keep (holdsLock_held rfl (by rw [place]; rfl))
          · exact implements.mutex.keep (ownsMutex_held rfl (by rw [place]; rfl))
  | unlocking =>
      simp only [win32Consume, place, Option.some.injEq] at taken
      subst taken
      rw [place] at reflects
      have holds : state.HoldsLock .consumer := by
        rw [HoldsLock, place]
        rfl
      refine ⟨[], shared, .nil _, implements.consumerMoves rfl rfl
        ⟨false, reflects, fun signal => by cases signal⟩ ?_ ?_ ?_ implements.sound⟩
      · exact implements.lock.release holds (by simp [HoldsLock, Win32Consumer.holdsLock])
          (holdsLock_consumed rfl)
      · exact implements.mutex.keep (ownsMutex_held rfl (by rw [place]; rfl))
      · -- a producer that has set the event holds the lock, which the consumer does
        intro id announced _
        have other : state.HoldsLock (.producer id) := Win32Producer.announced_holdsLock announced
        cases implements.lock.unique holds other
  | signalling =>
      simp only [win32Consume, place, works place, if_true, Option.some.injEq] at taken
      subst taken
      rw [place] at reflects
      have owns : state.OwnsMutex .consumer := by
        rw [OwnsMutex, place]
        rfl
      refine ⟨[], shared, .nil _, implements.consumerMoves rfl rfl reflects ?_ ?_ ?_
        implements.sound⟩
      · exact implements.lock.keep (holdsLock_held rfl (by rw [place]; rfl))
      · exact implements.mutex.release owns (by simp [OwnsMutex, Win32Consumer.ownsMutex])
          (ownsMutex_consumed rfl)
      · intro id announced _
        exact implements.announced id announced (by rw [place]; rfl)
  | asleep =>
      simp only [win32Consume, place, Option.ite_none_right_eq_some, Option.some.injEq] at taken
      obtain ⟨set, rfl⟩ := taken
      rw [place] at reflects
      obtain ⟨signalled, blocked, _⟩ := reflects
      have step : SharedStep shared (.wakeUp true : SharedAction σ)
          { shared with consumer := .woken true } := by
        simp [SharedStep, sharedStep, blocked]
      refine ⟨[.wakeUp true], _, .cons ⟨trivial, step⟩ (.nil _),
        implements.consumerMoves rfl rfl rfl ?_ ?_ (fun _ _ sleeps => by cases sleeps)
          (sound.wakeUp true step)⟩
      · exact implements.lock.keep (holdsLock_held rfl (by rw [place]; rfl))
      · exact implements.mutex.keep (ownsMutex_held rfl (by rw [place]; rfl))
  | resetting =>
      simp only [win32Consume, place, Option.some.injEq] at taken
      subst taken
      rw [place] at reflects
      refine ⟨[], shared, .nil _, implements.consumerMoves rfl rfl reflects ?_ ?_
        (fun _ _ sleeps => by cases sleeps) implements.sound⟩
      · exact implements.lock.keep (holdsLock_held rfl (by rw [place]; rfl))
      · exact implements.mutex.keep (ownsMutex_held rfl (by rw [place]; rfl))
  | reentering =>
      simp only [win32Consume, place, Option.ite_none_right_eq_some, Option.some.injEq] at taken
      obtain ⟨free, rfl⟩ := taken
      rw [place] at reflects
      refine ⟨[], shared, .nil _, implements.consumerMoves rfl rfl reflects ?_ ?_
        (fun _ _ sleeps => by cases sleeps) implements.sound⟩
      · exact implements.lock.take free rfl (holdsLock_consumed rfl)
      · exact implements.mutex.keep (ownsMutex_held rfl (by rw [place]; rfl))
  | resumed notified =>
      simp only [win32Consume, place, Option.map_eq_some_iff] at taken
      obtain ⟨outcome, result, rfl⟩ := taken
      rw [place] at reflects
      have step : SharedStep shared (.resume : SharedAction σ) (shared.afterDequeue outcome) := by
        simp [SharedStep, sharedStep, show shared.consumer = .woken notified from reflects,
          implements.queue, result]
      exact ⟨[.resume], _, .cons ⟨trivial, step⟩ (.nil _),
        implements.consumerWorks (by trivial) step (by rw [place]; rfl) (by rw [place]; rfl)⟩
  | leaving =>
      simp only [win32Consume, place, Option.some.injEq] at taken
      subst taken
      rw [place] at reflects
      have holds : state.HoldsLock .consumer := by
        rw [HoldsLock, place]
        rfl
      refine ⟨[], shared, .nil _, implements.consumerMoves rfl rfl reflects ?_ ?_
        (fun _ _ sleeps => by cases sleeps) implements.sound⟩
      · exact implements.lock.release holds (by simp [HoldsLock, Win32Consumer.holdsLock])
          (holdsLock_consumed rfl)
      · exact implements.mutex.keep (ownsMutex_held rfl (by rw [place]; rfl))

/-- Every step is matched by the queue that is implemented. -/
theorem step (implements : state.Implements shared) {action : Win32Action σ}
    (spares : action.SparesExit) (taken : Guarded Win32Works Win32Step state action after) :
    Matched shared after := by
  obtain ⟨works, taken⟩ := taken
  cases action with
  | call id request =>
      cases place : state.producers id with
      | outside =>
          simp only [Win32Step, win32Step, place, Option.some.injEq] at taken
          subst taken
          refine ⟨[], shared, .nil _,
        implements.producerMoves (.entering request) rfl ?_ ?_
            (fun set => set) ?_ (by simp [Win32Producer.announced]) spares⟩
          · exact implements.lock.keep (holdsLock_kept rfl rfl (by rw [place]; rfl))
          · exact implements.mutex.keep (ownsMutex_kept rfl rfl (by rw [place]; rfl))
          · simp [place, Win32Producer.announces]
      | entering | working | notifying | setting | releasing | leaving =>
          simp [Win32Step, win32Step, place] at taken
  | produce id succeeds =>
      cases (show succeeds = true from works)
      exact implements.produce taken
  | dequeue item wait =>
      cases place : state.consumer with
      | outside =>
          have reflects := implements.reflects
          simp only [Win32Step, win32Step, place, Option.some.injEq] at taken
          subst taken
          rw [place] at reflects
          refine ⟨[], shared, .nil _, implements.consumerMoves rfl rfl reflects ?_ ?_
            (fun _ _ sleeps => by cases sleeps) implements.sound⟩
          · exact implements.lock.keep (holdsLock_held rfl (by rw [place]; rfl))
          · exact implements.mutex.keep (ownsMutex_held rfl (by rw [place]; rfl))
      | entering | testing | waiting | unlocking | signalling | asleep | resetting | reentering
      | resumed | leaving => simp [Win32Step, win32Step, place] at taken
  | consume succeeds => exact implements.consume works taken

end Implements

/-! ## Progress -/

/-- Nobody is inside a call, except for a consumer that sleeps on an empty open queue. -/
structure Rests (state : Win32Queue σ) : Prop where
  producers : ∀ id, state.producers id = .outside
  consumer : state.consumer = .outside ∨ state.consumer = .asleep ∧
    listEmpty state.queue.busy = true ∧ state.queue.exit = false

namespace Implements

variable {state : Win32Queue σ} {shared : SharedQueue}

/-- The party that holds the lock can take its next step: nobody else owns the mutex for
long, and the lists are in order. -/
theorem producer_enabled (implements : state.Implements shared) {id : Nat}
    (held : (state.producers id).holdsLock = true)
    (mutex : state.mutex = none ∨ state.mutex = some (.producer id)) :
    (win32Produce state id true).isSome = true := by
  obtain ⟨fifo, sound⟩ := implements.sound
  obtain ⟨busy, free, represents⟩ := sound.represents
  rw [implements.queue] at represents
  cases place : state.producers id with
  | outside => rw [place] at held; cases held
  | entering call => rw [place] at held; cases held
  | working call =>
      cases call with
      | enqueue item =>
          cases exit : fifo.exit with
          | true =>
              have refused : enqueue state.queue item = some (false, state.queue) := by
                rw [enqueue, represents.exit, exit, if_pos rfl]
              simp [win32Produce, place, refused]
          | false =>
              obtain ⟨queue, _, _, result, _⟩ := represents.enqueue_ok exit item
              simp [win32Produce, place, result]
      | removeAll removeCallback discriminant =>
          obtain ⟨queue, _, _, result, _⟩ := represents.removeAll_ok removeCallback discriminant
          simp [win32Produce, place, result]
  | notifying call =>
      rcases mutex with free | own
      · simp [win32Produce, place, free]
      · have owns := (implements.mutex _).mp own
        rw [OwnsMutex, place] at owns
        cases owns
  | setting call | releasing call | leaving => simp [win32Produce, place]

theorem consumer_enabled (implements : state.Implements shared)
    (inside : state.consumer.holdsLock = true)
    (mutex : state.mutex = none ∨ state.mutex = some .consumer) :
    (win32Consume state true).isSome = true := by
  obtain ⟨fifo, sound⟩ := implements.sound
  obtain ⟨busy, free, represents⟩ := sound.represents
  rw [implements.queue] at represents
  cases place : state.consumer with
  | outside | entering | signalling | asleep | resetting | reentering =>
      rw [place] at inside
      cases inside
  | testing item wait =>
      obtain ⟨queue, _, _, result, _⟩ := represents.dequeue_ok item wait
      simp [win32Consume, place, result]
  | resumed notified =>
      obtain ⟨queue, _, _, result, _⟩ := represents.dequeueResume_ok .undefined notified
      simp [win32Consume, place, result]
  | waiting =>
      rcases mutex with free | own
      · simp [win32Consume, place, free]
      · have owns := (implements.mutex _).mp own
        rw [OwnsMutex, place] at owns
        cases owns
  | unlocking | leaving => simp [win32Consume, place]

/-- Who owns the mutex without the lock is the consumer on its way to the event. -/
theorem mutex_owner (implements : state.Implements shared) {party : QueueParty}
    (locked : state.lock = some party) (blocked : win32Consume state true = none) :
    state.mutex = none ∨ state.mutex = some party := by
  cases owner : state.mutex with
  | none => exact .inl rfl
  | some other =>
      right
      have holds := (implements.lock party).mp locked
      have owns := (implements.mutex other).mp owner
      cases other with
      | producer id =>
          have held : state.HoldsLock (.producer id) := Win32Producer.ownsMutex_holdsLock owns
          rw [implements.lock.unique holds held]
      | consumer =>
          cases place : state.consumer with
          | unlocking =>
              have held : state.HoldsLock .consumer := by rw [HoldsLock, place]; rfl
              rw [implements.lock.unique holds held]
          | signalling => simp [win32Consume, place] at blocked
          | outside | entering | testing | waiting | asleep | resetting | reentering | resumed
          | leaving =>
              rw [OwnsMutex, place] at owns
              cases owns

/-- When no call can go on, all have returned, or the consumer sleeps for a reason. -/
theorem rests (implements : state.Implements shared)
    (producers : ∀ id, win32Produce state id true = none)
    (consumer : win32Consume state true = none) : state.Rests := by
  have unlocked : state.lock = none := by
    cases owner : state.lock with
    | none => rfl
    | some party =>
        have holds := (implements.lock party).mp owner
        have mutex := implements.mutex_owner owner consumer
        cases party with
        | producer id =>
            have enabled := implements.producer_enabled holds mutex
            rw [producers id] at enabled
            cases enabled
        | consumer =>
            have enabled := implements.consumer_enabled holds mutex
            rw [consumer] at enabled
            cases enabled
  have away : ∀ id, state.producers id = .outside := by
    intro id
    have blocked := producers id
    have free : (state.producers id).holdsLock ≠ true :=
      fun held => implements.lock.not_holds unlocked (show state.HoldsLock (.producer id) from held)
    cases place : state.producers id with
    | outside => rfl
    | entering call => simp [win32Produce, place, unlocked] at blocked
    | working | notifying | setting | releasing | leaving =>
        rw [place] at free
        exact absurd rfl free
  refine ⟨away, ?_⟩
  have free : state.consumer.holdsLock ≠ true :=
    fun held => implements.lock.not_holds unlocked (show state.HoldsLock .consumer from held)
  cases place : state.consumer with
  | outside => exact .inl rfl
  | asleep =>
      right
      have unset : state.event = false := by
        cases event : state.event with
        | false => rfl
        | true => simp [win32Consume, place, event] at consumer
      have reflects := implements.reflects
      rw [place] at reflects
      obtain ⟨signalled, blocked, reason⟩ := reflects
      have unsignalled : shared.consumer = .blocked false := by
        cases signalled with
        | false => exact blocked
        | true =>
            rcases reason rfl with set | ⟨id, announces⟩
            · rw [unset] at set
              cases set
            · rw [away id] at announces
              cases announces
      obtain ⟨fifo, sound⟩ := implements.sound
      have nothing := sound.exitAndBlocking.blocked unsignalled
      rw [implements.queue] at nothing
      exact ⟨rfl, nothing⟩
  | entering | signalling | resetting | reentering =>
      simp [win32Consume, place, unlocked] at consumer
  | testing | waiting | unlocking | resumed | leaving =>
      rw [place] at free
      exact absurd rfl free

end Implements

end Win32Queue

section Runs

variable {actions : List (Win32Action σ)} {state : Win32Queue σ}

/-- One step of the queue with an event is no step of the queue with a condition variable, or
one: by induction, a run is a run. -/
theorem Win32Queue.implements_of_run
    (run : Run (Guarded Win32Works Win32Step) newWin32Queue actions state)
    (spares : ∀ action ∈ actions, action.SparesExit) :
    ∃ trace shared, Run (SparingStep : SharedQueue → SharedAction σ → SharedQueue → Prop)
      newSharedQueue trace shared ∧ state.Implements shared := by
  apply run.simulates spares
  · intro before action after shared allowed implements taken
    exact implements.step allowed taken
  · exact newWin32Queue_implements

/-- Every run of the queue with a mutex and an event is one of the queue with a condition
variable, as long as the calls of the notifications and the wait for the event succeed. -/
theorem newWin32Queue_implements_condition
    (run : Run (Guarded Win32Works Win32Step) newWin32Queue actions state)
    (spares : ∀ action ∈ actions, action.SparesExit) :
    ∃ trace shared, Run (SparingStep : SharedQueue → SharedAction σ → SharedQueue → Prop)
      newSharedQueue trace shared ∧ state.Implements shared :=
  Win32Queue.implements_of_run run spares

/-- The producer finds the consumer on its way to the event, and the event is set before the
consumer waits for it. -/
def eventRace : List (Win32Action Unit) :=
  [.dequeue .undefined true, .consume true, .consume true, .consume true, .consume true,
    .call 0 (.enqueue (.data 7)), .produce 0 true, .produce 0 true, .consume true,
    .produce 0 true, .produce 0 true, .consume true, .produce 0 true, .produce 0 true,
    .consume true, .consume true, .consume true, .consume true]

theorem newWin32Queue_implements_condition_race :
    ∃ state, execute (guardedNext Win32Works win32Step) newWin32Queue eventRace = some state ∧
      state.delivered = [.data 7] ∧
      ∃ trace shared, Run (SparingStep : SharedQueue → SharedAction Unit → SharedQueue → Prop)
        newSharedQueue trace shared ∧ state.Implements shared := by
  obtain ⟨state, runs, run⟩ := exists_run_of_execute (Guarded Win32Works Win32Step)
    (guardedNext Win32Works win32Step) newWin32Queue eventRace
    (fun _ _ _ taken => guardedNext_sound taken) (by decide)
  have delivered : (execute (guardedNext Win32Works win32Step) newWin32Queue eventRace).map
      Win32Queue.delivered = some [.data 7] := by decide
  rw [runs] at delivered
  refine ⟨state, runs, Option.some.inj delivered, newWin32Queue_implements_condition run ?_⟩
  simp [eventRace, Win32Action.SparesExit, ProducerCall.SparesExit]

/-- No calls block each other, and the consumer waits only while the queue is empty and
open: where no call inside the queue can take its next step, none is left but a consumer that
sleeps with nothing to wake up for. -/
theorem newWin32Queue_rests
    (run : Run (Guarded Win32Works Win32Step) newWin32Queue actions state)
    (spares : ∀ action ∈ actions, action.SparesExit)
    (producers : ∀ id, win32Produce state id true = none)
    (consumer : win32Consume state true = none) : state.Rests := by
  obtain ⟨_, _, _, implements⟩ := Win32Queue.implements_of_run run spares
  exact implements.rests producers consumer

/-- The first producer waits for the mutex of the consumer on its way to the event, the
second for the lock of the first, and the consumer, woken up, for the lock of the second.
The event of the second wakes the consumer up once more, from an empty queue. -/
def contendedCalls : List (Win32Action Unit) :=
  [.dequeue .undefined true, .consume true, .consume true, .consume true, .consume true,
    .call 0 (.enqueue (.data 7)), .produce 0 true, .produce 0 true, .consume true,
    .call 1 (.enqueue (.data 8)), .produce 0 true, .produce 0 true, .consume true,
    .produce 0 true, .consume true, .produce 0 true, .produce 1 true, .produce 1 true,
    .produce 1 true, .produce 1 true, .produce 1 true, .produce 1 true, .consume true,
    .consume true, .consume true, .dequeue .undefined true, .consume true, .consume true,
    .consume true, .dequeue .undefined true, .consume true, .consume true, .consume true,
    .dequeue .undefined true, .consume true, .consume true, .consume true, .consume true,
    .consume true, .consume true, .consume true, .consume true, .consume true, .consume true,
    .consume true, .consume true]

theorem newWin32Queue_rests_asleep :
    ∃ state, execute (guardedNext Win32Works win32Step) newWin32Queue contendedCalls =
        some state ∧ state.consumer = .asleep ∧ state.delivered = [.data 7, .data 8] ∧
      state.Rests := by
  obtain ⟨state, runs, run⟩ := exists_run_of_execute (Guarded Win32Works Win32Step)
    (guardedNext Win32Works win32Step) newWin32Queue contendedCalls
    (fun _ _ _ taken => guardedNext_sound taken) (by decide)
  have final : (execute (guardedNext Win32Works win32Step) newWin32Queue contendedCalls).map
      (fun state => (state.consumer, state.delivered, win32Consume state true |>.isNone)) =
        some (.asleep, [.data 7, .data 8], true) := by decide
  have producers : ∀ id, (execute (guardedNext Win32Works win32Step) newWin32Queue
      contendedCalls).map (fun state => state.producers id) = some .outside := by
    intro id
    match id with
    | 0 | 1 | id + 2 => rfl
  simp only [runs, Option.map_some, Option.some.injEq] at final producers
  refine ⟨state, runs, congrArg Prod.fst final, congrArg (fun point => point.2.1) final, ?_⟩
  apply newWin32Queue_rests run
  · simp [contendedCalls, Win32Action.SparesExit, ProducerCall.SparesExit]
  · intro id
    rw [win32Produce, producers]
  · exact Option.isNone_iff_eq_none.mp (congrArg (fun point => point.2.2) final)

end Runs

end Aio4c
