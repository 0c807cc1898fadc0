import Mathlib.Logic.Function.Basic
import Aio4c.Library.DoublyLinked

/-! Doubly linked lists of nodes in a heap. Pointers are addresses, NULL is
`none`; a function returns `none` where the source aborts or where it would
follow a pointer to no node. -/

set_option autoImplicit false

namespace Aio4c

structure Node where
  data : Option Nat
  next : Option Nat
  prev : Option Nat
  deriving DecidableEq, Repr

abbrev Nodes := Nat → Option Node

/-- `List`: the two ends of a chain of nodes. -/
structure NodeList where
  first : Option Nat
  last : Option Nat
  deriving DecidableEq, Repr

def NodeList.initializer : NodeList := { first := none, last := none }

def newNode (nodes : Nodes) (node : Nat) (data : Option Nat) : Nodes :=
  Function.update nodes node (some { data, next := none, prev := none })

/-- `node->next = next`. -/
def setNext (nodes : Nodes) (node : Nat) (next : Option Nat) : Option Nodes :=
  (nodes node).map fun cell => Function.update nodes node (some { cell with next })

/-- `node->prev = prev`. -/
def setPrev (nodes : Nodes) (node : Nat) (prev : Option Nat) : Option Nodes :=
  (nodes node).map fun cell => Function.update nodes node (some { cell with prev })

/-- What precedes `next` is now `prev`: the end of the list when `next` is NULL. -/
def relinkNext (nodes : Nodes) (list : NodeList) (next prev : Option Nat) :
    Option (Nodes × NodeList) :=
  match next with
  | none => some (nodes, { list with last := prev })
  | some next => (setPrev nodes next prev).map fun nodes => (nodes, list)

/-- What follows `prev` is now `next`: the start of the list when `prev` is NULL. -/
def relinkPrev (nodes : Nodes) (list : NodeList) (prev next : Option Nat) :
    Option (Nodes × NodeList) :=
  match prev with
  | none => some (nodes, { list with first := next })
  | some prev => (setNext nodes prev next).map fun nodes => (nodes, list)

def listAddAfter (nodes : Nodes) (list : NodeList) (node newNode : Nat) :
    Option (Nodes × NodeList) := do
  let nodes ← setPrev nodes newNode (some node)
  let nodes ← setNext nodes newNode (← nodes node).next
  let (nodes, list) ← relinkNext nodes list (← nodes node).next (some newNode)
  let nodes ← setNext nodes node (some newNode)
  pure (nodes, list)

def listAddBefore (nodes : Nodes) (list : NodeList) (node newNode : Nat) :
    Option (Nodes × NodeList) := do
  let nodes ← setPrev nodes newNode (← nodes node).prev
  let nodes ← setNext nodes newNode (some node)
  let (nodes, list) ← relinkPrev nodes list (← nodes node).prev (some newNode)
  let nodes ← setPrev nodes node (some newNode)
  pure (nodes, list)

def listAddFirst (nodes : Nodes) (list : NodeList) (newNode : Option Nat) :
    Option (Nodes × NodeList) := do
  let newNode ← newNode
  guard ((← nodes newNode).data ≠ none)
  let (nodes, list) ← match list.first with
    | none => do
        let nodes ← setPrev nodes newNode none
        let nodes ← setNext nodes newNode none
        pure (nodes, { first := some newNode, last := some newNode : NodeList })
    | some first => listAddBefore nodes list first newNode
  guard (list.first = some newNode ∧ (← nodes newNode).prev = none)
  pure (nodes, list)

def listAddLast (nodes : Nodes) (list : NodeList) (newNode : Option Nat) :
    Option (Nodes × NodeList) := do
  let newNode ← newNode
  guard ((← nodes newNode).data ≠ none)
  let (nodes, list) ← match list.last with
    | none => listAddFirst nodes list (some newNode)
    | some last => listAddAfter nodes list last newNode
  guard (list.last = some newNode ∧ (← nodes newNode).next = none)
  pure (nodes, list)

def listRemove (nodes : Nodes) (list : NodeList) (node : Nat) : Option (Nodes × NodeList) := do
  let cell ← nodes node
  guard (cell.prev = none → list.first = some node)
  let (nodes, list) ← relinkPrev nodes list cell.prev cell.next
  let cell ← nodes node
  guard (cell.next = none → list.last = some node)
  let (nodes, list) ← relinkNext nodes list cell.next cell.prev
  let nodes ← setPrev nodes node none
  let nodes ← setNext nodes node none
  pure (nodes, list)

/-- `ListPop`: the node taken, `none` for NULL, and the list left. -/
def listPop (nodes : Nodes) (list : NodeList) : Option (Option Nat × Nodes × NodeList) :=
  match list.first with
  | none => some (none, nodes, list)
  | some node => do
      guard ((← nodes node).prev = none)
      let (nodes, list) ← listRemove nodes list node
      let cell ← nodes node
      guard (list.first ≠ some node ∧ cell.prev = none ∧ cell.next = none ∧
        list.last ≠ some node)
      pure (some node, nodes, list)

def listEmpty (list : NodeList) : Bool := list.first.isNone

end Aio4c
