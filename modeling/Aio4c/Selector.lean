import Mathlib.Data.List.Nodup
import Mathlib.Logic.Function.Basic

/-! Selectors: a table of poll slots and the selection keys that point into it,
in the build that uses `poll`. The key lists are the sequences of nodes that the
list functions maintain; a node and its key share one address. `none` is an
access outside the table or through a wild pointer. Counters do not wrap. -/

set_option autoImplicit false

namespace Aio4c

/-- `AIO4C_OP_READ` (`POLLIN`). -/
def opRead : Int16 := 1

/-- `AIO4C_OP_WRITE` (`POLLOUT`). -/
def opWrite : Int16 := 4

structure SelectionKey where
  operation : Int16
  node : Option Nat
  fd : Int
  attachment : Nat
  poll : Int
  count : Int
  curCount : Int
  result : Int16
  deriving DecidableEq, Repr

/-- A key of zero bytes. -/
def SelectionKey.zero : SelectionKey :=
  { operation := 0, node := none, fd := 0, attachment := 0, poll := 0, count := 0, curCount := 0
    result := 0 }

def newSelectionKey : SelectionKey := { SelectionKey.zero with poll := -1 }

structure Poll where
  fd : Int
  events : Int16
  revents : Int16
  deriving DecidableEq, Repr

def Poll.zero : Poll := { fd := 0, events := 0, revents := 0 }

structure Selector where
  pipe : Int
  keys : Nat → Option SelectionKey
  allocated : Nat
  busyKeys : List Nat
  freeKeys : List Nat
  curKey : Option Nat
  polls : List Poll
  numPolls : Int
  maxPolls : Int

/-- `NewSelector` once its allocations and its pipe succeeded; `pipe` is the
descriptor of the pipe's reading end. -/
def newSelector (pipe : Int) : Selector :=
  { pipe, keys := fun _ => none, allocated := 0, busyKeys := [], freeKeys := [], curKey := none
    polls := [{ fd := pipe, events := opRead, revents := 0 }], numPolls := 1, maxPolls := 1 }

def pollAt (polls : List Poll) (i : Int) : Option Poll :=
  if 0 ≤ i then polls[i.toNat]? else none

def setPoll (polls : List Poll) (i : Int) (poll : Poll) : Option (List Poll) :=
  if 0 ≤ i ∧ i < polls.length then some (polls.set i.toNat poll) else none

/-- The node that `Register` puts behind the busy list: a recycled one, or
`NewNode(_NewSelectionKey())`. -/
def takeFreeKey (selector : Selector) : Nat × Selector :=
  match selector.freeKeys with
  | [] => (selector.allocated, { selector with
      keys := Function.update selector.keys selector.allocated (some newSelectionKey)
      allocated := selector.allocated + 1 })
  | node :: freeKeys => (node, { selector with freeKeys })

/-- One more slot when the table is full; `none` is a failed reallocation. -/
def growPolls (selector : Selector) (reallocated : Bool) : Option Selector :=
  if selector.numPolls = selector.maxPolls then
    if reallocated then some { selector with
      polls := selector.polls ++ [Poll.zero], maxPolls := selector.maxPolls + 1 }
    else none
  else some selector

def countRegistration (selector : Selector) (node : Nat) : Option Selector := do
  let key ← selector.keys node
  pure { selector with
    keys := Function.update selector.keys node (some { key with count := key.count + 1 }) }

/-- `Register`: the key, or NULL when the table could not grow. -/
def register (selector : Selector) (operation : Int16) (fd : Int) (attachment : Nat)
    (reallocated : Bool) : Option (Option Nat × Selector) :=
  match selector.busyKeys.find? fun node => (selector.keys node).any fun key => key.fd = fd with
  | some node => do pure (some node, ← countRegistration selector node)
  | none =>
      let (node, selector) := takeFreeKey selector
      let selector := { selector with busyKeys := selector.busyKeys ++ [node] }
      match growPolls selector reallocated with
      | none => some (none, selector)
      | some selector => do
          let key ← selector.keys node
          let key := { key with
            poll := selector.numPolls, node := some node, operation, fd, attachment
            count := 0, curCount := 0 }
          let polls ← setPoll selector.polls selector.numPolls { fd, events := operation, revents := 0 }
          let selector := { selector with
            keys := Function.update selector.keys node (some key), polls
            numPolls := selector.numPolls + 1 }
          pure (some node, ← countRegistration selector node)

/-- The inner scan of `Unregister`: keys of slot `i + 1` move to slot `i`. -/
def shiftKeys (keys : Nat → Option SelectionKey) (i : Int) :
    List Nat → Option (Nat → Option SelectionKey)
  | [] => some keys
  | node :: nodes => do
      let key ← keys node
      let keys := if key.poll = i + 1 then
          Function.update keys node (some { key with poll := key.poll - 1 })
        else keys
      shiftKeys keys i nodes

/-- The loop of `Unregister`, `steps` iterations from slot `i`. -/
def shiftPolls (busyKeys : List Nat) : Nat → Int → (Nat → Option SelectionKey) → List Poll →
    Option ((Nat → Option SelectionKey) × List Poll)
  | 0, _, keys, polls => some (keys, polls)
  | steps + 1, i, keys, polls => do
      let keys ← shiftKeys keys i busyKeys
      let polls ← setPoll polls i (← pollAt polls (i + 1))
      shiftPolls busyKeys steps (i + 1) keys polls

/-- `Unregister`: the value stored in `isLastRegistration`. -/
def unregister (selector : Selector) (key : Nat) (unregisterAll : Bool) :
    Option (Bool × Selector) := do
  let cell ← selector.keys key
  match cell.node with
  | none => pure (true, selector)
  | some node => do
      let count := if unregisterAll then cell.count else cell.count - 1
      let selector := { selector with
        keys := Function.update selector.keys key (some { cell with count }) }
      if !unregisterAll ∧ count > 0 then pure (false, selector)
      else
        guard (node ∈ selector.busyKeys)
        let busyKeys := selector.busyKeys.erase node
        let keys := Function.update selector.keys key (some SelectionKey.zero)
        let steps := (selector.numPolls - 1 - cell.poll).toNat
        let (keys, polls) ← shiftPolls busyKeys steps cell.poll keys selector.polls
        let polls ← setPoll polls (cell.poll + steps) Poll.zero
        pure (true, { selector with
          keys, polls, busyKeys, freeKeys := selector.freeKeys ++ [node]
          numPolls := selector.numPolls - 1 })

/-- `Select` with the outcome of `poll`: `none` for an error, else its value and
the `revents` it leaves in the slots. A wake-up is taken off the pipe's slot. -/
def select (selector : Selector) : Option (Int × (Nat → Int16)) → Int × Selector
  | none => (0, selector)
  | some (nbPolls, revents) =>
      let polls := selector.polls.mapIdx fun i poll =>
        if (i : Int) < selector.numPolls then { poll with revents := revents i } else poll
      if revents 0 &&& opRead ≠ 0 then
        (nbPolls - 1, { selector with
          polls := polls.modifyHead fun poll => { poll with revents := 0 } })
      else (nbPolls, { selector with polls })

/-- The outcome of a `poll` of one descriptor without waiting. -/
inductive Repoll where
  | error
  | revents (revents : Int16)
  deriving DecidableEq, Repr

/-- The key at `curKey->node->next`, or NULL. -/
def nextKey (selector : Selector) (key : SelectionKey) : Option (Option Nat) := do
  let node ← key.node
  pure (selector.busyKeys.dropWhile fun other => other ≠ node)[1]?

/-- The scan of `SelectionKeyReady` for the next key whose slot is ready. -/
def scanReady (selector : Selector) : List Nat → Option (Option Nat × Selector)
  | [] => some (none, { selector with curKey := none })
  | node :: nodes => do
      let key ← selector.keys node
      let poll ← pollAt selector.polls key.poll
      if poll.revents > 0 then
        let polls ← setPoll selector.polls key.poll { poll with revents := 0 }
        pure (some node, { selector with
          keys := Function.update selector.keys node
            (some { key with result := poll.revents, curCount := key.curCount + 1 })
          curKey := some node, polls })
      else scanReady selector nodes

/-- The scan from the node of `curKey`, or of the first busy key. A key without a node
is not scanned at all. -/
def scanFrom (selector : Selector) : Option (Option Nat × Selector) :=
  match selector.curKey.or selector.busyKeys.head? with
  | none => some (none, selector)
  | some current => do
      let key ← selector.keys current
      match key.node with
      | none => pure (none, { selector with curKey := none })
      | some node => scanReady selector (selector.busyKeys.dropWhile fun other => other ≠ node)

/-- `SelectionKeyReady`: the key stored through the pointer; NULL comes with the
result false. -/
def selectionKeyReady (selector : Selector) (repoll : Repoll) : Option (Option Nat × Selector) :=
  match selector.curKey with
  | none => scanFrom selector
  | some current => do
      let key ← selector.keys current
      if key.curCount ≥ 1 then
        if key.count > key.curCount then
          match repoll with
          | .error => scanFrom selector
          | .revents revents =>
              if revents &&& key.operation ≠ 0 then
                pure (some current, { selector with
                  keys := Function.update selector.keys current
                    (some { key with result := revents, curCount := key.curCount + 1 }) })
              else do
                let curKey ← nextKey selector key
                scanFrom { selector with curKey }
        else do
          let curKey ← nextKey selector key
          scanFrom { selector with
            keys := Function.update selector.keys current (some { key with curCount := 0 }), curKey }
      else scanFrom selector

end Aio4c
