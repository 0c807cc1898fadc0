import Aio4c.Library.Ownership
import Aio4c.QueueWaiting

/-! The lock and the condition of a queue on a system without condition variables, where
a condition is a mutex and an event that stays set until it is reset. Waiting leaves the
lock, then signals the mutex and waits for the event; notifying sets the event under the
mutex. A step is one call of the system or one piece of work under the lock. -/

set_option autoImplicit false

namespace Aio4c

open Ownership TransitionSystem

variable {σ : Type}

inductive QueueParty where
  | consumer
  | producer (id : Nat)
  deriving DecidableEq, Repr

/-- A call that notifies the condition. -/
inductive ProducerCall (σ : Type) where
  | enqueue (item : QueueItem)
  | removeAll (removeCallback : QueueItem → σ → Bool × σ) (discriminant : σ)

/-- Where a producer is: in front of `TakeLock`, at its work on the lists, in front of each
of the three calls of `_NotifyCondition`, or in front of `ReleaseLock`. -/
inductive Win32Producer (σ : Type) where
  | outside
  | entering (call : ProducerCall σ)
  | working (call : ProducerCall σ)
  | notifying (call : ProducerCall σ)
  | setting (call : ProducerCall σ)
  | releasing (call : ProducerCall σ)
  | leaving

/-- Where the consumer is in `Dequeue`. From `waiting` to `reentering` it is inside
`_WaitCondition`, in front of the call the name says. -/
inductive Win32Consumer where
  | outside
  | entering (item : QueueItem) (wait : Bool)
  | testing (item : QueueItem) (wait : Bool)
  | waiting
  | unlocking
  | signalling
  | asleep
  | resetting
  | reentering
  | resumed (notified : Bool)
  | leaving
  deriving DecidableEq, Repr

/-- The critical section of the queue's lock and the mutex of its condition, each with its
owner, and the condition's event. -/
structure Win32Queue (σ : Type) where
  queue : Queue
  lock : Option QueueParty
  mutex : Option QueueParty
  event : Bool
  consumer : Win32Consumer
  producers : Nat → Win32Producer σ
  enqueued : List QueueItem
  delivered : List QueueItem
  removed : List QueueItem

def newWin32Queue : Win32Queue σ :=
  { queue := newQueue, lock := none, mutex := none, event := false, consumer := .outside
    producers := fun _ => .outside, enqueued := [], delivered := [], removed := [] }

/-- Behind `TakeLock`: `RemoveAll` notifies first, `_Enqueue` last. -/
def ProducerCall.entered : ProducerCall σ → Win32Producer σ
  | .enqueue item => .working (.enqueue item)
  | .removeAll removeCallback discriminant => .notifying (.removeAll removeCallback discriminant)

/-- Behind `_NotifyCondition`. -/
def ProducerCall.notified : ProducerCall σ → Win32Producer σ
  | .enqueue _ => .leaving
  | .removeAll removeCallback discriminant => .working (.removeAll removeCallback discriminant)

namespace Win32Queue

def moveProducer (state : Win32Queue σ) (id : Nat) (point : Win32Producer σ) : Win32Queue σ :=
  { state with producers := Function.update state.producers id point }

/-- The consumer where a piece of `Dequeue` under the lock ends. -/
def afterDequeue (state : Win32Queue σ) : Dequeued × Queue → Win32Queue σ
  | (.waiting, queue) => { state with queue, consumer := .waiting }
  | (.returned true item, queue) =>
      { state with queue, consumer := .leaving, delivered := state.delivered ++ [item] }
  | (.returned false _, queue) => { state with queue, consumer := .leaving }

end Win32Queue

/-- `_Enqueue`, `RemoveAll` and the `_NotifyCondition` in them. A notification whose wait
for the mutex fails is dropped. -/
def win32Produce (state : Win32Queue σ) (id : Nat) (succeeds : Bool) : Option (Win32Queue σ) :=
  match state.producers id with
  | .outside => none
  | .entering call =>
      if state.lock = none then
        some ({ state with lock := some (.producer id) }.moveProducer id call.entered)
      else none
  | .working (.enqueue item) => do
      let (accepted, queue) ← enqueue state.queue item
      pure (if accepted then
        { state with queue, enqueued := state.enqueued ++ [item] }.moveProducer id
          (.notifying (.enqueue item))
      else { state with queue }.moveProducer id .leaving)
  | .working (.removeAll removeCallback discriminant) => do
      let (_, queue) ← removeAll state.queue removeCallback discriminant
      pure ({ state with
        queue
        removed := state.removed ++ (busyItems state.queue).diff (busyItems queue) }.moveProducer
          id .leaving)
  | .notifying call =>
      if succeeds then
        if state.mutex = none then
          some ({ state with mutex := some (.producer id) }.moveProducer id (.setting call))
        else none
      else some (state.moveProducer id call.notified)
  | .setting call =>
      some ({ state with event := state.event || succeeds }.moveProducer id (.releasing call))
  | .releasing call =>
      some ({ state with mutex := if succeeds then none else state.mutex }.moveProducer id
        call.notified)
  | .leaving => some ({ state with lock := none }.moveProducer id .outside)

/-- `Dequeue` and the `_WaitCondition` in it. A wait that fails returns at once: in front of
the mutex with the lock still held, at the event without the lock. -/
def win32Consume (state : Win32Queue σ) (succeeds : Bool) : Option (Win32Queue σ) :=
  match state.consumer with
  | .outside => none
  | .entering item wait =>
      if state.lock = none then
        some { state with lock := some .consumer, consumer := .testing item wait }
      else none
  | .testing item wait => (dequeue state.queue item wait).map state.afterDequeue
  | .waiting =>
      if succeeds then
        if state.mutex = none then
          some { state with mutex := some .consumer, consumer := .unlocking }
        else none
      else some { state with consumer := .resumed false }
  | .unlocking => some { state with lock := none, consumer := .signalling }
  | .signalling =>
      if succeeds then some { state with mutex := none, consumer := .asleep }
      else some { state with consumer := .resumed false }
  | .asleep => if state.event then some { state with consumer := .resetting } else none
  | .resetting => some { state with event := state.event && !succeeds, consumer := .reentering }
  | .reentering =>
      if state.lock = none then
        some { state with lock := some .consumer, consumer := .resumed true }
      else none
  | .resumed notified => (dequeueResume state.queue notified).map state.afterDequeue
  | .leaving => some { state with lock := none, consumer := .outside }

inductive Win32Action (σ : Type) where
  | call (id : Nat) (call : ProducerCall σ)
  | produce (id : Nat) (succeeds : Bool)
  | dequeue (item : QueueItem) (wait : Bool)
  | consume (succeeds : Bool)

def win32Step (state : Win32Queue σ) : Win32Action σ → Option (Win32Queue σ)
  | .call id call =>
      match state.producers id with
      | .outside => some (state.moveProducer id (.entering call))
      | _ => none
  | .produce id succeeds => win32Produce state id succeeds
  | .dequeue item wait =>
      match state.consumer with
      | .outside => some { state with consumer := .entering item wait }
      | _ => none
  | .consume succeeds => win32Consume state succeeds

def Win32Step (before : Win32Queue σ) (action : Win32Action σ) (after : Win32Queue σ) : Prop :=
  win32Step before action = some after

/-- No call of a notification fails, nor does the wait for the event. The consumer's wait for
the mutex and the reset of the event may fail. -/
def Win32Works (state : Win32Queue σ) : Win32Action σ → Prop
  | .produce _ succeeds => succeeds = true
  | .consume succeeds => state.consumer = .signalling → succeeds = true
  | _ => True

instance (state : Win32Queue σ) : (action : Win32Action σ) → Decidable (Win32Works state action)
  | .produce _ succeeds => inferInstanceAs (Decidable (succeeds = true))
  | .consume succeeds =>
      inferInstanceAs (Decidable (state.consumer = .signalling → succeeds = true))
  | .call _ _ | .dequeue _ _ => isTrue trivial

def ProducerCall.SparesExit : ProducerCall σ → Prop
  | .removeAll removeCallback _ => ∀ state, (removeCallback .exit state).1 = false
  | .enqueue _ => True

/-- A `RemoveAll` callback never accepts EXIT items. -/
def Win32Action.SparesExit : Win32Action σ → Prop
  | .call _ request => request.SparesExit
  | _ => True

end Aio4c
