import Aio4c.Event
import Aio4c.List

/-! Queues shared between threads. Items live in a pool of nodes that move
between a busy list and a free list. Every function is one critical section of
the queue's lock; a `Dequeue` that waits releases the lock, so it is split where
it enters and where it leaves the wait. `none` is an abort or a wild pointer. -/

set_option autoImplicit false

namespace Aio4c

/-- `QueueItem`: the type field together with the member of the union it selects.
`undefined` is the zeroed item. -/
inductive QueueItem where
  | undefined
  | event (type : Event) (source : Nat)
  | data (data : Nat)
  | task (event : Event) (connection buffer : Nat)
  | exit
  deriving DecidableEq, Repr

/-- `Queue`, the nodes and the item blocks it owns, and how many of each it has
ever allocated; the next fresh address of either kind is that number. -/
structure Queue where
  nodes : Nodes
  items : Nat → Option QueueItem
  allocated : Nat
  busy : NodeList
  free : NodeList
  exit : Bool
  emptied : Bool

def newQueue : Queue :=
  { nodes := fun _ => none, items := fun _ => none, allocated := 0
    busy := NodeList.initializer, free := NodeList.initializer, exit := false, emptied := false }

/-- `ListAddLast(&queue->free, NewNode(_NewItem()))`. -/
def addNewItem (queue : Queue) : Option Queue := do
  let nodes := newNode queue.nodes queue.allocated (some queue.allocated)
  let items := Function.update queue.items queue.allocated (some QueueItem.undefined)
  let (nodes, free) ← listAddLast nodes queue.free (some queue.allocated)
  pure { queue with nodes, items, free, allocated := queue.allocated + 1 }

/-- `memcpy(node->data, item, sizeof(QueueItem))`. -/
def writeItem (items : Nat → Option QueueItem) (nodes : Nodes) (node : Nat) (item : QueueItem) :
    Option (Nat → Option QueueItem) := do
  let target ← (← nodes node).data
  let _ ← items target
  pure (Function.update items target (some item))

/-- The item block a node points at. -/
def readItem (items : Nat → Option QueueItem) (nodes : Nodes) (node : Nat) : Option QueueItem := do
  items (← (← nodes node).data)

def enqueue (queue : Queue) (item : QueueItem) : Option (Bool × Queue) :=
  if queue.exit then some (false, queue)
  else do
    let queue ← if listEmpty queue.free then addNewItem queue else some queue
    let (node, nodes, free) ← listPop queue.nodes queue.free
    let node ← node
    let items ← writeItem queue.items nodes node item
    let (nodes, busy) ← listAddLast nodes queue.busy (some node)
    pure (true, { queue with nodes, items, free, busy, exit := queue.exit || item = .exit })

def enqueueDataItem (queue : Queue) (data : Nat) : Option (Bool × Queue) :=
  enqueue queue (.data data)

def enqueueExitItem (queue : Queue) : Option (Bool × Queue) :=
  enqueue queue .exit

def enqueueEventItem (queue : Queue) (type : Event) (source : Nat) : Option (Bool × Queue) :=
  enqueue queue (.event type source)

def enqueueTaskItem (queue : Queue) (event : Event) (connection buffer : Nat) :
    Option (Bool × Queue) :=
  enqueue queue (.task event connection buffer)

/-- How a critical section of `Dequeue` ends: inside `WaitCondition`, or by
returning with the item storage of the caller. -/
inductive Dequeued where
  | waiting
  | returned (dequeued : Bool) (item : QueueItem)
  deriving DecidableEq, Repr

/-- The part of `Dequeue` behind the wait. -/
def dequeueItem (queue : Queue) : Option (Dequeued × Queue) :=
  if listEmpty queue.busy then some (.returned false .undefined, queue)
  else do
    let (node, nodes, busy) ← listPop queue.nodes queue.busy
    let node ← node
    let item ← readItem queue.items nodes node
    let (nodes, free) ← listAddLast nodes queue.free (some node)
    pure (.returned true item, { queue with nodes, free, busy, emptied := listEmpty busy })

/-- The loop test in front of `WaitCondition`. -/
def dequeueWait (queue : Queue) (wait : Bool) : Option (Dequeued × Queue) :=
  if !queue.exit && wait && listEmpty queue.busy then some (.waiting, queue)
  else dequeueItem queue

/-- `Dequeue` from its entry, with the caller's item storage. -/
def dequeue (queue : Queue) (item : QueueItem) (wait : Bool) : Option (Dequeued × Queue) :=
  if queue.emptied then some (.returned false item, { queue with emptied := false })
  else dequeueWait queue wait

/-- `Dequeue` back from `WaitCondition`, which says whether it was notified. -/
def dequeueResume (queue : Queue) (notified : Bool) : Option (Dequeued × Queue) :=
  if notified then dequeueWait queue true else dequeueItem queue

/-- The loop of `RemoveAll`. The callback may have effects of its own, which
`state` carries from call to call. -/
def removeAllLoop {σ : Type} (removeCallback : QueueItem → σ → Bool × σ) :
    Nat → Queue → Option Nat → Bool → σ → Option ((Bool × σ) × Queue)
  | _, queue, none, removed, state => some ((removed, state), queue)
  | 0, _, some _, _, _ => none
  | steps + 1, queue, some i, removed, state => do
      let item ← readItem queue.items queue.nodes i
      let next := (← queue.nodes i).next
      let (accepted, state) := removeCallback item state
      if accepted then
        let (nodes, busy) ← listRemove queue.nodes queue.busy i
        let (nodes, free) ← listAddLast nodes queue.free (some i)
        removeAllLoop removeCallback steps { queue with nodes, busy, free } next true state
      else removeAllLoop removeCallback steps queue next removed state

/-- `RemoveAll`. No run of the loop visits more nodes than were ever allocated. -/
def removeAll {σ : Type} (queue : Queue) (removeCallback : QueueItem → σ → Bool × σ) (state : σ) :
    Option ((Bool × σ) × Queue) :=
  removeAllLoop removeCallback queue.allocated queue queue.busy.first false state

end Aio4c
