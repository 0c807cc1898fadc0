import Aio4c.QueueDrain
import Aio4c.SelectorCurKey

/-! The destructors of queues and selectors. Each empties its lists node by node and frees
the block behind a node and the node; a block that is freed twice is a wild pointer. -/

set_option autoImplicit false

namespace Aio4c

open TransitionSystem

/-- `aio4c_free` of a block. -/
def freeBlock {α : Type} (blocks : Nat → Option α) (address : Nat) : Option (Nat → Option α) :=
  (blocks address).map fun _ => Function.update blocks address none

/-- The loop over one list: the nodes that it frees with the blocks behind them. -/
def freeNodes {α : Type} : Nat → Nodes → (Nat → Option α) → NodeList →
    Option (List (Nat × Nat) × Nodes × (Nat → Option α))
  | 0, nodes, blocks, list => if listEmpty list then some ([], nodes, blocks) else none
  | steps + 1, nodes, blocks, list =>
      if listEmpty list then some ([], nodes, blocks)
      else do
        let (node, nodes, list) ← listPop nodes list
        let node ← node
        let block ← (← nodes node).data
        let blocks ← freeBlock blocks block
        let nodes ← freeBlock nodes node
        let (freed, nodes, blocks) ← freeNodes steps nodes blocks list
        pure ((node, block) :: freed, nodes, blocks)

/-- `FreeQueue`. No loop frees more nodes than were ever allocated. -/
def freeQueue (queue : Queue) : Option (List (Nat × Nat) × Nodes × (Nat → Option QueueItem)) := do
  let (free, nodes, items) ← freeNodes queue.allocated queue.nodes queue.items queue.free
  let (busy, nodes, items) ← freeNodes queue.allocated nodes items queue.busy
  pure (free ++ busy, nodes, items)

/-- The loops of `FreeSelector`; a key goes with its node. -/
def freeKeys : List Nat → (Nat → Option SelectionKey) → Option (Nat → Option SelectionKey)
  | [], keys => some keys
  | node :: nodes, keys => do
      let keys ← freeBlock keys node
      freeKeys nodes keys

section

variable {α : Type}

theorem freeBlock_ok {blocks : Nat → Option α} {address : Nat} (present : (blocks address).isSome) :
    freeBlock blocks address = some (Function.update blocks address none) := by
  obtain ⟨block, found⟩ := Option.isSome_iff_exists.mp present
  rw [freeBlock, found]
  rfl

/-- The loop frees every node of the list and the block behind each, and nothing else. By
induction on the chain: a popped node leaves the rest of it a list. -/
theorem freeNodes_ok {nodes : Nodes} {blocks : Nat → Option α} {list : NodeList}
    {chain : List Nat} {block : Nat → Nat} (steps : Nat) (holds : list.Holds nodes chain)
    (data : ∀ node ∈ chain, nodeData nodes node = some (block node))
    (present : ∀ node ∈ chain, (blocks (block node)).isSome)
    (apart : (chain.map block).Nodup) (enough : chain.length ≤ steps) :
    ∃ nodes' blocks', freeNodes steps nodes blocks list =
        some (chain.map fun node => (node, block node), nodes', blocks') ∧
      (∀ node, nodes' node = if node ∈ chain then none else nodes node) ∧
      ∀ address, blocks' address = if address ∈ chain.map block then none else blocks address := by
  induction chain generalizing nodes blocks list steps with
  | nil =>
      have empty : listEmpty list = true := by simp [holds.empty_iff]
      refine ⟨nodes, blocks, ?_, by simp, by simp⟩
      cases steps <;> simp [freeNodes, empty]
  | cons node chain ih =>
      obtain ⟨steps, rfl⟩ : ∃ rest, steps = rest + 1 :=
        Nat.exists_eq_add_one.mpr (Nat.lt_of_lt_of_le (Nat.succ_pos _) enough)
      obtain ⟨popped, list', pops, rest, rewired, _⟩ := listPop_ok holds
      obtain ⟨absent, nodup⟩ := List.nodup_cons.mp holds.nodup
      obtain ⟨fresh, apart⟩ := List.nodup_cons.mp apart
      have here : nodeData popped node = some (block node) := by
        rw [rewired.data, data node List.mem_cons_self]
      obtain ⟨cell, found, points⟩ := Option.bind_eq_some_iff.mp here
      have dropped := freeBlock_ok (present node List.mem_cons_self)
      have cut := freeBlock_ok (Option.isSome_of_eq_some found)
      have differs : ∀ other ∈ chain, other ≠ node := by
        intro other member equal
        exact absent (equal ▸ member)
      have keeps : ∀ other ∈ chain, block other ≠ block node := by
        intro other member equal
        exact fresh (equal ▸ List.mem_map_of_mem member)
      have holds' := rest.frame fun other member =>
        Function.update_of_ne (differs other member) none popped
      have data' : ∀ other ∈ chain,
          nodeData (Function.update popped node none) other = some (block other) := by
        intro other member
        rw [nodeData, Function.update_of_ne (differs other member)]
        exact (rewired.data other).trans (data other (List.mem_cons_of_mem _ member))
      have present' : ∀ other ∈ chain,
          (Function.update blocks (block node) none (block other)).isSome := by
        intro other member
        rw [Function.update_of_ne (keeps other member)]
        exact present other (List.mem_cons_of_mem _ member)
      obtain ⟨nodes', blocks', freed, nodesLeft, blocksLeft⟩ :=
        ih steps holds' data' present' apart (Nat.le_of_succ_le_succ enough)
      refine ⟨nodes', blocks', ?_, ?_, ?_⟩
      · have nonempty : listEmpty list = false := by simp [holds.empty_iff]
        simp only [freeNodes, nonempty, pops, found, points, dropped, cut, freed,
          Option.bind_eq_bind, Option.bind_some, Bool.false_eq_true, if_false, List.map_cons,
          Option.pure_def]
      · intro other
        rw [nodesLeft]
        by_cases same : other = node
        · simp [same]
        · by_cases member : other ∈ chain
          · simp [member]
          · rw [if_neg member, if_neg (by simp [same, member]), Function.update_of_ne same,
              rewired.outside other (by simp [same, member])]
      · intro address
        rw [blocksLeft, List.map_cons]
        by_cases same : address = block node
        · simp [same]
        · by_cases member : address ∈ chain.map block
          · rw [if_pos member, if_pos (List.mem_cons_of_mem _ member)]
          · rw [if_neg member, if_neg (List.not_mem_cons_of_ne_of_not_mem same member),
              Function.update_of_ne same]

end

/-! ## Queues -/

namespace Queue.Represents

variable {queue : Queue} {busy free : List Nat} {fifo : Fifo QueueItem}

theorem freeQueue_ok (represents : queue.Represents busy free fifo) :
    ∃ nodes items, freeQueue queue =
        some ((free ++ busy).map (fun node => (node, node)), nodes, items) ∧
      ∀ address ∈ free ++ busy, nodes address = none ∧ items address = none := by
  have total := represents.total
  obtain ⟨nodes, items, first, nodesLeft, itemsLeft⟩ := freeNodes_ok queue.allocated
    represents.freeHolds
    (fun node member => represents.data node (represents.bound (List.mem_append_right _ member)))
    (fun node member => represents.stored node (represents.bound (List.mem_append_right _ member)))
    (by simpa using represents.freeHolds.nodup) (by omega)
  rw [List.map_id'] at itemsLeft
  have kept : ∀ node ∈ busy, node ∉ free := fun node inBusy inFree =>
    represents.disjoint inBusy inFree
  have nodeKept : ∀ node ∈ busy, nodes node = queue.nodes node := by
    intro node member
    rw [nodesLeft, if_neg (kept node member)]
  have data : ∀ node ∈ busy, nodeData nodes node = some node := by
    intro node member
    rw [nodeData, nodeKept node member]
    exact represents.data node (represents.bound (List.mem_append_left _ member))
  have stored : ∀ node ∈ busy, (items node).isSome := by
    intro node member
    rw [itemsLeft, if_neg (kept node member)]
    exact represents.stored node (represents.bound (List.mem_append_left _ member))
  obtain ⟨nodes', items', second, nodesLeft', itemsLeft'⟩ := freeNodes_ok queue.allocated
    (represents.busyHolds.frame nodeKept) data stored
    (by simpa using represents.busyHolds.nodup) (by omega)
  rw [List.map_id'] at itemsLeft'
  refine ⟨nodes', items', ?_, ?_⟩
  · simp [freeQueue, first, second]
  · intro address member
    rw [nodesLeft', itemsLeft', nodesLeft, itemsLeft]
    rcases List.mem_append.mp member with inFree | inBusy
    · simp [inFree]
    · simp [inBusy]

end Queue.Represents

/-- Whatever calls were made on a queue, `FreeQueue` frees each node and each item that was
ever allocated, once. -/
theorem newQueue_frees {σ : Type} (calls : List (QueueCall σ)) :
    ∃ queue freed nodes items, queueCalls newQueue calls = some queue ∧
      freeQueue queue = some (freed, nodes, items) ∧
      (freed.map Prod.fst).Perm (List.range queue.allocated) ∧
      (freed.map Prod.snd).Perm (List.range queue.allocated) ∧
      ∀ address < queue.allocated, nodes address = none ∧ items address = none := by
  obtain ⟨queue, busy, free, fifo, reached, represents⟩ := queueCalls_ok newQueue_represents calls
  obtain ⟨nodes, items, freed, left⟩ := represents.freeQueue_ok
  have pool : (free ++ busy).Perm (List.range queue.allocated) :=
    List.perm_append_comm.trans represents.pool
  refine ⟨queue, _, nodes, items, reached, freed, ?_, ?_, ?_⟩
  · simpa [Function.comp_def] using pool
  · simpa [Function.comp_def] using pool
  · intro address bound
    exact left address (pool.mem_iff.mpr (List.mem_range.mpr bound))

/-! ## Selectors -/

/-- The keys of the two lists are the same ones, in any order. -/
structure Selector.SamePool (before after : Selector) : Prop where
  allocated : after.allocated = before.allocated
  lists : (after.busyKeys ++ after.freeKeys).Perm (before.busyKeys ++ before.freeKeys)
  stored : ∀ node, (after.keys node).isSome = (before.keys node).isSome

/-- Every key ever allocated is in one of the two lists. -/
structure Selector.Complete (selector : Selector) : Prop where
  pool : (selector.busyKeys ++ selector.freeKeys).Perm (List.range selector.allocated)
  stored : ∀ node < selector.allocated, (selector.keys node).isSome

namespace Selector

variable {before middle after : Selector}

theorem SamePool.refl (selector : Selector) : selector.SamePool selector :=
  ⟨rfl, .rfl, fun _ => rfl⟩

theorem SamePool.trans (first : before.SamePool middle) (second : middle.SamePool after) :
    before.SamePool after :=
  ⟨second.allocated.trans first.allocated, second.lists.trans first.lists,
    fun node => (second.stored node).trans (first.stored node)⟩

theorem SamePool.withCurKey (selector : Selector) (curKey : Option Nat) (polls : List Poll) :
    selector.SamePool { selector with curKey, polls } :=
  ⟨rfl, .rfl, fun _ => rfl⟩

theorem SamePool.update {key : Nat} {cell : SelectionKey} (found : before.keys key = some cell)
    (changed : SelectionKey) :
    before.SamePool { before with keys := Function.update before.keys key (some changed) } where
  allocated := rfl
  lists := .rfl
  stored node := by
    by_cases here : node = key
    · subst here
      simp [found]
    · simp [Function.update_of_ne here]

theorem Complete.same (complete : before.Complete) (same : before.SamePool after) :
    after.Complete where
  pool := by
    rw [same.allocated]
    exact same.lists.trans complete.pool
  stored node bound := by
    rw [same.stored]
    exact complete.stored node (same.allocated ▸ bound)

end Selector

section

variable {before after : Selector}

end

end Aio4c
