import Aio4c.Event
import Aio4c.List

/-! Event queues: for each event the list of handlers that are called when it is
handled. Nodes and handlers are blocks of one heap. Callbacks do not touch the
queues, a call of one is recorded with its arguments. Memory is granted; `none`
is an abort, a wild pointer or a loop that does not end. -/

set_option autoImplicit false

namespace Aio4c

/-- `EventHandler`: the callback is the address of a function. -/
structure EventHandler where
  event : Event
  once : Bool
  callback : Nat
  data : Option Nat
  deriving DecidableEq, Repr

/-- The events in the order of their numbers, below `AIO4C_EVENTS_COUNT`. -/
def Event.all : List Event :=
  [.init, .connecting, .connected, .read, .inboundData, .write, .outboundData, .pendingClose,
    .close, .free]

theorem Event.mem_all (event : Event) : event ∈ Event.all := by
  cases event <;> decide

/-- What `handler->callback` was called with. -/
structure Invocation where
  callback : Nat
  event : Event
  source : Nat
  data : Option Nat
  deriving DecidableEq, Repr

/-- `handler->callback(event, source, handler->data)`. -/
def EventHandler.invocation (event : Event) (source : Nat) (handler : EventHandler) :
    Invocation :=
  { callback := handler.callback, event, source, data := handler.data }

/-- The handler that `CopyEventQueue` makes of one of the source's. -/
def EventHandler.copy (data : Option Nat) (handler : EventHandler) : EventHandler :=
  match data with
  | some data => { handler with data := some data }
  | none => handler

/-- The queues and the blocks they are made of. The lists are indexed by queue
and event; the next fresh address is the number of blocks ever allocated. -/
structure EventHeap (κ : Type) where
  nodes : Nodes
  handlers : Nat → Option EventHandler
  allocated : Nat
  lists : κ × Event → NodeList

/-- `NewEventQueue` for every queue: the block is zeroed. -/
def newEventHeap {κ : Type} : EventHeap κ :=
  { nodes := fun _ => none, handlers := fun _ => none, allocated := 0
    lists := fun _ => NodeList.initializer }

variable {κ : Type}

/-- `NewEventHandler`: its address, and the heap it is in. -/
def newEventHandler (heap : EventHeap κ) (handler : EventHandler) : Nat × EventHeap κ :=
  (heap.allocated, { heap with
    handlers := Function.update heap.handlers heap.allocated (some handler)
    allocated := heap.allocated + 1 })

variable [DecidableEq κ]

/-- `ListAddLast(&queue->handlers[event], NewNode(handler))`. -/
def addLastHandler (heap : EventHeap κ) (slot : κ × Event) (handler : Nat) :
    Option (EventHeap κ) := do
  let nodes := newNode heap.nodes heap.allocated (some handler)
  let (nodes, list) ← listAddLast nodes (heap.lists slot) (some heap.allocated)
  pure { heap with
    nodes, allocated := heap.allocated + 1, lists := Function.update heap.lists slot list }

def EventHeap.eventHandlerAdd (heap : EventHeap κ) (queue : κ) (handler : Nat) :
    Option (EventHeap κ) := do
  let cell ← heap.handlers handler
  addLastHandler heap (queue, cell.event) handler

/-- `ListRemove`, `FreeEventHandler` and `FreeNode`. -/
def dropHandler (heap : EventHeap κ) (slot : κ × Event) (node handler : Nat) :
    Option (EventHeap κ) := do
  let (nodes, list) ← listRemove heap.nodes (heap.lists slot) node
  pure { heap with
    nodes := Function.update nodes node none
    handlers := Function.update heap.handlers handler none
    lists := Function.update heap.lists slot list }

/-- The loop of `EventHandle` and `EventHandlerRemove` over one list: what it
reads of each node, in order, and the heap left by dropping some of them. -/
def sweepHandlers (drop : EventHandler → Bool) (slot : κ × Event) :
    Nat → EventHeap κ → Option Nat → Option (List EventHandler × EventHeap κ)
  | _, heap, none => some ([], heap)
  | 0, _, some _ => none
  | steps + 1, heap, some i => do
      let node ← heap.nodes i
      let block ← node.data
      let handler ← heap.handlers block
      let heap ← if drop handler then dropHandler heap slot i block else some heap
      let (handlers, heap) ← sweepHandlers drop slot steps heap node.next
      pure (handler :: handlers, heap)

/-- `EventHandle`: the calls of the callbacks, in order. -/
def EventHeap.eventHandle (heap : EventHeap κ) (queue : κ) (event : Event) (source : Nat) :
    Option (List Invocation × EventHeap κ) := do
  let (handlers, heap) ← sweepHandlers (fun handler => handler.once) (queue, event)
    heap.allocated heap (heap.lists (queue, event)).first
  pure (handlers.map (EventHandler.invocation event source), heap)

def EventHeap.eventHandlerRemove (heap : EventHeap κ) (queue : κ) (event : Event) (callback : Nat) :
    Option (EventHeap κ) := do
  let (_, heap) ← sweepHandlers (fun handler => handler.callback == callback) (queue, event)
    heap.allocated heap (heap.lists (queue, event)).first
  pure heap

/-- The inner loop of `CopyEventQueue`. The next node is read after the copy was
added: a queue copied onto itself never comes to its end. -/
def copyHandlers (dst : κ) (data : Option Nat) (event : Event) :
    Nat → EventHeap κ → Option Nat → Option (EventHeap κ)
  | _, heap, none => some heap
  | 0, _, some _ => none
  | steps + 1, heap, some j => do
      let handler ← heap.handlers (← (← heap.nodes j).data)
      let (copy, heap) := newEventHandler heap (handler.copy data)
      let heap ← addLastHandler heap (dst, event) copy
      copyHandlers dst data event steps heap (← heap.nodes j).next

def EventHeap.copyEventQueue (heap : EventHeap κ) (dst src : κ) (data : Option Nat) :
    Option (EventHeap κ) :=
  Event.all.foldlM (fun heap event =>
    copyHandlers dst data event heap.allocated heap (heap.lists (src, event)).first) heap

/-- One call of the interface; a handler is added as `ConnectionAddHandler` adds
one, right after it was made. -/
inductive EventCall (κ : Type) where
  | eventHandlerAdd (queue : κ) (handler : EventHandler)
  | eventHandle (queue : κ) (event : Event) (source : Nat)
  | eventHandlerRemove (queue : κ) (event : Event) (callback : Nat)
  | copyEventQueue (dst src : κ) (data : Option Nat)

def eventCall (heap : EventHeap κ) : EventCall κ → Option (List Invocation × EventHeap κ)
  | .eventHandlerAdd queue handler =>
      let (handler, heap) := newEventHandler heap handler
      (heap.eventHandlerAdd queue handler).map fun heap => ([], heap)
  | .eventHandle queue event source => heap.eventHandle queue event source
  | .eventHandlerRemove queue event callback =>
      (heap.eventHandlerRemove queue event callback).map fun heap => ([], heap)
  | .copyEventQueue dst src data =>
      (heap.copyEventQueue dst src data).map fun heap => ([], heap)

/-- A sequence of calls: the invocations of each of them, and the heap behind
the last one. -/
def eventCalls (heap : EventHeap κ) :
    List (EventCall κ) → Option (List (List Invocation) × EventHeap κ)
  | [] => some ([], heap)
  | call :: calls => do
      let (invocations, heap) ← eventCall heap call
      let (rest, heap) ← eventCalls heap calls
      pure (invocations :: rest, heap)

/-- The two event queues of a connection. -/
structure ConnectionHandlers (κ : Type) where
  systemHandlers : κ
  userHandlers : κ

/-- `ConnectionFactoryCreate`: the calls it makes on the event queues, with the
data of the data factory. -/
def ConnectionHandlers.connectionFactoryCreate (factory connection : ConnectionHandlers κ)
    (data : Option Nat) : List (EventCall κ) :=
  [.copyEventQueue connection.userHandlers factory.userHandlers data,
    .copyEventQueue connection.systemHandlers factory.systemHandlers none]

def ConnectionHandlers.connectionEventHandle (connection : ConnectionHandlers κ) (source : Nat)
    (event : Event) : List (EventCall κ) :=
  [.eventHandle connection.systemHandlers event source,
    .eventHandle connection.userHandlers event source]

end Aio4c
