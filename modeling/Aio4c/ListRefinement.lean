import Aio4c.ListProperties

/-! Any number of lists over one heap of nodes. A run of additions and removals on
them is compared with the same run on plain sequences of nodes, one for each list. -/

set_option autoImplicit false

namespace Aio4c

open DoublyLinked

/-- The nodes, and the lists that share them. -/
structure ListHeap where
  nodes : Nodes
  lists : Nat → NodeList

/-- The lists before any node was added. -/
def ListHeap.start (nodes : Nodes) : ListHeap :=
  { nodes, lists := fun _ => NodeList.initializer }

inductive ListOp where
  | addFirst (list newNode : Nat)
  | addLast (list newNode : Nat)
  | addBefore (list node newNode : Nat)
  | addAfter (list node newNode : Nat)
  | pop (list : Nat)
  | remove (list node : Nat)
  deriving DecidableEq, Repr

/-- The list an operation is called on. -/
def ListOp.list : ListOp → Nat
  | .addFirst list _ | .addLast list _ | .addBefore list _ _ | .addAfter list _ _ | .pop list
  | .remove list _ => list

def ListHeap.store (heap : ListHeap) (list : Nat) (stored : Nodes × NodeList) : ListHeap :=
  { nodes := stored.1, lists := Function.update heap.lists list stored.2 }

/-- One call: the node that `ListPop` returns, and the heap after it. `none` is an abort,
or a pointer followed to no node. -/
def listStep (heap : ListHeap) : ListOp → Option (Option Nat × ListHeap)
  | .addFirst list newNode => do
      let stored ← listAddFirst heap.nodes (heap.lists list) (some newNode)
      pure (none, heap.store list stored)
  | .addLast list newNode => do
      let stored ← listAddLast heap.nodes (heap.lists list) (some newNode)
      pure (none, heap.store list stored)
  | .addBefore list node newNode => do
      let stored ← listAddBefore heap.nodes (heap.lists list) node newNode
      pure (none, heap.store list stored)
  | .addAfter list node newNode => do
      let stored ← listAddAfter heap.nodes (heap.lists list) node newNode
      pure (none, heap.store list stored)
  | .pop list => do
      let popped ← listPop heap.nodes (heap.lists list)
      pure (popped.1, heap.store list popped.2)
  | .remove list node => do
      let stored ← listRemove heap.nodes (heap.lists list) node
      pure (none, heap.store list stored)

def listRun (heap : ListHeap) : List ListOp → Option ListHeap
  | [] => some heap
  | op :: ops => do
      let stepped ← listStep heap op
      listRun stepped.2 ops

/-! ## The same operations on sequences -/

/-- The nodes of each list, from its first to its last. -/
abbrev Chains := Nat → List Nat

def insertBefore (node newNode : Nat) : List Nat → List Nat
  | [] => []
  | cell :: cells =>
      if cell = node then newNode :: cell :: cells else cell :: insertBefore node newNode cells

def insertAfter (node newNode : Nat) : List Nat → List Nat
  | [] => []
  | cell :: cells =>
      if cell = node then cell :: newNode :: cells else cell :: insertAfter node newNode cells

/-- What an operation makes of the sequence of its list. -/
def ListOp.onChain : ListOp → List Nat → List Nat
  | .addFirst _ newNode, chain => newNode :: chain
  | .addLast _ newNode, chain => chain ++ [newNode]
  | .addBefore _ node newNode, chain => insertBefore node newNode chain
  | .addAfter _ node newNode, chain => insertAfter node newNode chain
  | .pop _, chain => chain.tail
  | .remove _ node, chain => chain.erase node

def chainStep (chains : Chains) (op : ListOp) : Chains :=
  Function.update chains op.list (op.onChain (chains op.list))

def chainRun (chains : Chains) (ops : List ListOp) : Chains := ops.foldl chainStep chains

/-- The node an operation takes off its list. -/
def ListOp.removed (chains : Chains) : ListOp → Option Nat
  | .pop list => (chains list).head?
  | .remove _ node => some node
  | _ => none

/-- The node an operation adds to its list. -/
def ListOp.added : ListOp → Option Nat
  | .addFirst _ newNode | .addLast _ newNode | .addBefore _ _ newNode
  | .addAfter _ _ newNode => some newNode
  | _ => none

/-- The node an operation expects on its list. -/
def ListOp.reference : ListOp → Option Nat
  | .addBefore _ node _ | .addAfter _ node _ | .remove _ node => some node
  | _ => none

/-- What `ListPop` returns, nothing for the other operations. -/
def ListOp.returned (chains : Chains) : ListOp → Option Nat
  | .pop list => (chains list).head?
  | _ => none

/-- What the caller of an operation guarantees. -/
structure ListOp.Allowed (op : ListOp) (nodes : Nodes) (chains : Chains) : Prop where
  unlisted : ∀ newNode, op.added = some newNode → ∀ list, newNode ∉ chains list
  data : ∀ newNode, op.added = some newNode → nodeData nodes newNode ≠ none
  listed : ∀ node, op.reference = some node → node ∈ chains op.list

/-- Every operation of a run is allowed where it is called. -/
def RunAllowed (nodes : Nodes) : Chains → List ListOp → Prop
  | _, [] => True
  | chains, op :: ops =>
      op.Allowed nodes chains ∧ RunAllowed nodes (chainStep chains op) ops

/-! ## Sequences under insertion -/

theorem insertBefore_eq {before after : List Nat} {node newNode : Nat} (absent : node ∉ before) :
    insertBefore node newNode (before ++ node :: after) = before ++ newNode :: node :: after := by
  induction before with
  | nil => simp [insertBefore]
  | cons cell before ih =>
      obtain ⟨other, absent⟩ := not_or.mp (mt List.mem_cons.mpr absent)
      simp [insertBefore, Ne.symm other, ih absent]

theorem insertAfter_eq {before after : List Nat} {node newNode : Nat} (absent : node ∉ before) :
    insertAfter node newNode (before ++ node :: after) = before ++ node :: newNode :: after := by
  induction before with
  | nil => simp [insertAfter]
  | cons cell before ih =>
      obtain ⟨other, absent⟩ := not_or.mp (mt List.mem_cons.mpr absent)
      simp [insertAfter, Ne.symm other, ih absent]

theorem mem_insertBefore {chain : List Nat} {node newNode : Nat} (listed : node ∈ chain)
    (other : Nat) : other ∈ insertBefore node newNode chain ↔ other = newNode ∨ other ∈ chain := by
  obtain ⟨before, after, rfl, first⟩ := List.eq_append_cons_of_mem listed
  simp [insertBefore_eq first, or_left_comm]

theorem mem_insertAfter {chain : List Nat} {node newNode : Nat} (listed : node ∈ chain)
    (other : Nat) : other ∈ insertAfter node newNode chain ↔ other = newNode ∨ other ∈ chain := by
  obtain ⟨before, after, rfl, first⟩ := List.eq_append_cons_of_mem listed
  simp only [insertAfter_eq first, List.mem_append, List.mem_cons]
  tauto

/-! ## One call -/

/-- Every list holds its sequence, and no two lists share a node. -/
structure ListHeap.Represents (heap : ListHeap) (chains : Chains) : Prop where
  holds : ∀ list, (heap.lists list).Holds heap.nodes (chains list)
  disjoint : ∀ left right, left ≠ right → ∀ node ∈ chains left, node ∉ chains right

theorem ListHeap.start_represents (nodes : Nodes) :
    (ListHeap.start nodes).Represents fun _ => [] :=
  ⟨fun _ => NodeList.initializer_holds nodes, fun _ _ _ _ member => by simp at member⟩

/-- What a call leaves: its own list holds the new sequence, everything else is as it was,
and a node taken off its list has no neighbours. -/
structure ListEffect (heap heap' : ListHeap) (op : ListOp) (chains : Chains) : Prop where
  represents : heap'.Represents (chainStep chains op)
  lists : ∀ list, list ≠ op.list → heap'.lists list = heap.lists list
  nodes : ∀ node, node ∉ chains op.list → op.added ≠ some node →
    heap'.nodes node = heap.nodes node
  data : ∀ node, nodeData heap'.nodes node = nodeData heap.nodes node
  unlinked : ∀ node, op.removed chains = some node → nodeLinks heap'.nodes node = some ⟨none, none⟩

/-- A call that rewired only nodes of its own list and nodes of no list. -/
theorem ListHeap.Represents.store {heap : ListHeap} {chains : Chains}
    (represents : heap.Represents chains) (op : ListOp) {nodes' : Nodes} {list' : NodeList}
    {touched : List Nat} (kept : list'.Holds nodes' (op.onChain (chains op.list)))
    (rewired : Rewired heap.nodes nodes' touched)
    (sub : ∀ node ∈ op.onChain (chains op.list), node ∈ touched)
    (own : ∀ node ∈ touched, node ∈ chains op.list ∨
      op.added = some node ∧ ∀ list, node ∉ chains list)
    (unlinked : ∀ node, op.removed chains = some node →
      nodeLinks nodes' node = some ⟨none, none⟩) :
    ListEffect heap (heap.store op.list (nodes', list')) op chains := by
  have elsewhere : ∀ node ∈ touched, ∀ list, list ≠ op.list → node ∉ chains list := by
    intro node member list other
    rcases own node member with listed | ⟨-, unlisted⟩
    · exact represents.disjoint op.list list (Ne.symm other) node listed
    · exact unlisted list
  refine ⟨⟨?_, ?_⟩, ?_, ?_, rewired.data, unlinked⟩
  · intro list
    by_cases here : list = op.list
    · subst here
      simpa [ListHeap.store, chainStep] using kept
    · simp only [ListHeap.store, chainStep, Function.update_of_ne here]
      refine (represents.holds list).frame fun node member => rewired.outside node ?_
      intro inTouched
      exact elsewhere node inTouched list here member
  · intro left right apart node member
    simp only [chainStep] at member ⊢
    by_cases atLeft : left = op.list
    · subst atLeft
      rw [Function.update_self] at member
      rw [Function.update_of_ne (Ne.symm apart)]
      exact elsewhere node (sub node member) right (Ne.symm apart)
    · rw [Function.update_of_ne atLeft] at member
      by_cases atRight : right = op.list
      · subst atRight
        rw [Function.update_self]
        intro inside
        exact elsewhere node (sub node inside) left atLeft member
      · rw [Function.update_of_ne atRight]
        exact represents.disjoint left right apart node member
  · intro list other
    simp [ListHeap.store, Function.update_of_ne other]
  · intro node absent notAdded
    refine rewired.outside node fun member => ?_
    rcases own node member with listed | ⟨added, -⟩
    · exact absent listed
    · exact notAdded added

theorem ListHeap.Represents.store_added {heap : ListHeap} {chains : Chains}
    (represents : heap.Represents chains) (op : ListOp) {newNode : Nat} {nodes' : Nodes}
    {list' : NodeList} (added : op.added = some newNode) (keeps : op.removed chains = none)
    (unlisted : ∀ list, newNode ∉ chains list)
    (kept : list'.Holds nodes' (op.onChain (chains op.list)))
    (rewired : Rewired heap.nodes nodes' (newNode :: chains op.list))
    (sub : ∀ node ∈ op.onChain (chains op.list), node ∈ newNode :: chains op.list) :
    ListEffect heap (heap.store op.list (nodes', list')) op chains := by
  refine represents.store op kept rewired sub ?_ (by simp [keeps])
  intro node member
  rcases List.mem_cons.mp member with rfl | listed
  · exact .inr ⟨added, unlisted⟩
  · exact .inl listed

theorem ListHeap.Represents.store_removed {heap : ListHeap} {chains : Chains}
    (represents : heap.Represents chains) (op : ListOp) {node : Nat} {nodes' : Nodes}
    {list' : NodeList} (removed : op.removed chains = some node)
    (kept : list'.Holds nodes' (op.onChain (chains op.list)))
    (rewired : Rewired heap.nodes nodes' (chains op.list))
    (sub : ∀ node ∈ op.onChain (chains op.list), node ∈ chains op.list)
    (links : nodeLinks nodes' node = some ⟨none, none⟩) :
    ListEffect heap (heap.store op.list (nodes', list')) op chains := by
  refine represents.store op kept rewired sub (fun _ listed => .inl listed) ?_
  intro taken same
  rw [removed, Option.some.injEq] at same
  exact same ▸ links

theorem addFirst_effect {heap : ListHeap} {chains : Chains} (represents : heap.Represents chains)
    {list newNode : Nat} (allowed : (ListOp.addFirst list newNode).Allowed heap.nodes chains) :
    ∃ heap', listStep heap (.addFirst list newNode) = some (none, heap') ∧
      ListEffect heap heap' (.addFirst list newNode) chains := by
  have unlisted := allowed.unlisted newNode rfl
  obtain ⟨nodes', list', ran, kept, rewired⟩ :=
    listAddFirst_ok (represents.holds list) (unlisted list) (allowed.data newNode rfl)
  refine ⟨heap.store list (nodes', list'), by simp [listStep, ran], ?_⟩
  exact represents.store_added (.addFirst list newNode) rfl rfl unlisted kept rewired
    fun _ member => member

theorem addLast_effect {heap : ListHeap} {chains : Chains} (represents : heap.Represents chains)
    {list newNode : Nat} (allowed : (ListOp.addLast list newNode).Allowed heap.nodes chains) :
    ∃ heap', listStep heap (.addLast list newNode) = some (none, heap') ∧
      ListEffect heap heap' (.addLast list newNode) chains := by
  have unlisted := allowed.unlisted newNode rfl
  obtain ⟨nodes', list', ran, kept, rewired⟩ :=
    listAddLast_ok (represents.holds list) (unlisted list) (allowed.data newNode rfl)
  refine ⟨heap.store list (nodes', list'), by simp [listStep, ran], ?_⟩
  exact represents.store_added (.addLast list newNode) rfl rfl unlisted kept rewired
    fun node member => by simpa [ListOp.onChain, or_comm] using member

theorem addBefore_effect {heap : ListHeap} {chains : Chains} (represents : heap.Represents chains)
    {list node newNode : Nat}
    (allowed : (ListOp.addBefore list node newNode).Allowed heap.nodes chains) :
    ∃ heap', listStep heap (.addBefore list node newNode) = some (none, heap') ∧
      ListEffect heap heap' (.addBefore list node newNode) chains := by
  have unlisted := allowed.unlisted newNode rfl
  have listed : node ∈ chains list := allowed.listed node rfl
  obtain ⟨before, after, shape, first⟩ := List.eq_append_cons_of_mem listed
  have onChain : (ListOp.addBefore list node newNode).onChain (chains list) =
      before ++ newNode :: node :: after := by
    rw [shape]
    exact insertBefore_eq first
  obtain ⟨nodes', list', ran, kept, rewired⟩ :=
    listAddBefore_ok (shape ▸ represents.holds list) (shape ▸ unlisted list)
      (nodeData_present (allowed.data newNode rfl))
  refine ⟨heap.store list (nodes', list'), by simp [listStep, ran], ?_⟩
  exact represents.store_added (.addBefore list node newNode) rfl rfl unlisted (onChain ▸ kept)
    (shape ▸ rewired) fun other member =>
      List.mem_cons.mpr ((mem_insertBefore listed other).mp member)

theorem addAfter_effect {heap : ListHeap} {chains : Chains} (represents : heap.Represents chains)
    {list node newNode : Nat}
    (allowed : (ListOp.addAfter list node newNode).Allowed heap.nodes chains) :
    ∃ heap', listStep heap (.addAfter list node newNode) = some (none, heap') ∧
      ListEffect heap heap' (.addAfter list node newNode) chains := by
  have unlisted := allowed.unlisted newNode rfl
  have listed : node ∈ chains list := allowed.listed node rfl
  obtain ⟨before, after, shape, first⟩ := List.eq_append_cons_of_mem listed
  have onChain : (ListOp.addAfter list node newNode).onChain (chains list) =
      before ++ node :: newNode :: after := by
    rw [shape]
    exact insertAfter_eq first
  obtain ⟨nodes', list', ran, kept, rewired⟩ :=
    listAddAfter_ok (shape ▸ represents.holds list) (shape ▸ unlisted list)
      (nodeData_present (allowed.data newNode rfl))
  refine ⟨heap.store list (nodes', list'), by simp [listStep, ran], ?_⟩
  exact represents.store_added (.addAfter list node newNode) rfl rfl unlisted (onChain ▸ kept)
    (shape ▸ rewired) fun other member =>
      List.mem_cons.mpr ((mem_insertAfter listed other).mp member)

theorem remove_effect {heap : ListHeap} {chains : Chains} (represents : heap.Represents chains)
    {list node : Nat} (allowed : (ListOp.remove list node).Allowed heap.nodes chains) :
    ∃ heap', listStep heap (.remove list node) = some (none, heap') ∧
      ListEffect heap heap' (.remove list node) chains := by
  have listed : node ∈ chains list := allowed.listed node rfl
  obtain ⟨before, after, shape, first⟩ := List.eq_append_cons_of_mem listed
  have onChain : (ListOp.remove list node).onChain (chains list) = before ++ after := by
    rw [shape]
    simp [ListOp.onChain, List.erase_append_right _ first]
  obtain ⟨nodes', list', ran, kept, rewired, links⟩ :=
    listRemove_ok (shape ▸ represents.holds list)
  refine ⟨heap.store list (nodes', list'), by simp [listStep, ran], ?_⟩
  exact represents.store_removed (.remove list node) rfl (onChain ▸ kept) (shape ▸ rewired)
    (fun _ member => List.mem_of_mem_erase member) links

theorem pop_effect {heap : ListHeap} {chains : Chains} (represents : heap.Represents chains)
    (list : Nat) :
    ∃ heap', listStep heap (.pop list) = some ((chains list).head?, heap') ∧
      ListEffect heap heap' (.pop list) chains := by
  have holds := represents.holds list
  cases shape : chains list with
  | nil =>
      rw [shape] at holds
      have first : (heap.lists list).first = none := holds.first
      refine ⟨heap.store list (heap.nodes, heap.lists list), by simp [listStep, listPop, first], ?_⟩
      have untouched : Rewired heap.nodes heap.nodes [] := ⟨fun _ => rfl, fun _ _ => rfl⟩
      refine represents.store (.pop list) ?_ untouched ?_ (by simp) ?_
      · simpa [ListOp.onChain, ListOp.list, shape] using holds
      · simp [ListOp.onChain, ListOp.list, shape]
      · simp [ListOp.removed, shape]
  | cons node rest =>
      rw [shape] at holds
      obtain ⟨nodes', list', ran, kept, rewired, links⟩ := listPop_ok holds
      have removed : (ListOp.pop list).removed chains = some node := by
        simp [ListOp.removed, shape]
      have onChain : (ListOp.pop list).onChain (chains list) = rest := by
        simp [ListOp.onChain, shape]
      refine ⟨heap.store list (nodes', list'), by simp [listStep, ran], ?_⟩
      exact represents.store_removed (.pop list) removed (onChain ▸ kept) (shape ▸ rewired)
        (fun _ member => List.mem_of_mem_tail member) links

/-- An allowed call does not abort, and does to the sequences what its name says. -/
theorem listStep_effect {heap : ListHeap} {chains : Chains} (represents : heap.Represents chains)
    {op : ListOp} (allowed : op.Allowed heap.nodes chains) :
    ∃ heap', listStep heap op = some (op.returned chains, heap') ∧
      ListEffect heap heap' op chains := by
  cases op with
  | addFirst list newNode => exact addFirst_effect represents allowed
  | addLast list newNode => exact addLast_effect represents allowed
  | addBefore list node newNode => exact addBefore_effect represents allowed
  | addAfter list node newNode => exact addAfter_effect represents allowed
  | pop list => exact pop_effect represents list
  | remove list node => exact remove_effect represents allowed

/-! ## Nodes of no list -/

/-- Every operation keeps the nodes of its list, except the one it takes off. -/
theorem ListOp.mem_onChain {op : ListOp} {nodes : Nodes} {chains : Chains}
    (allowed : op.Allowed nodes chains) {node : Nat} (member : node ∈ chains op.list)
    (stays : op.removed chains ≠ some node) : node ∈ op.onChain (chains op.list) := by
  cases op with
  | addFirst list newNode => exact List.mem_cons_of_mem _ member
  | addLast list newNode => exact List.mem_append_left _ member
  | addBefore list reference newNode =>
      exact (mem_insertBefore (allowed.listed reference rfl) node).mpr (.inr member)
  | addAfter list reference newNode =>
      exact (mem_insertAfter (allowed.listed reference rfl) node).mpr (.inr member)
  | pop list =>
      simp only [ListOp.removed] at stays
      simp only [ListOp.list, ListOp.onChain] at member ⊢
      cases shape : chains list with
      | nil => simp [shape] at member
      | cons first rest =>
          rw [shape, List.head?_cons] at stays
          rw [shape] at member
          rcases List.mem_cons.mp member with rfl | behind
          · exact absurd rfl stays
          · exact behind
  | remove list taken =>
      have other : node ≠ taken := fun same => stays (same ▸ rfl)
      exact (List.mem_erase_of_ne other).mpr member

theorem ListOp.added_onChain {op : ListOp} {nodes : Nodes} {chains : Chains}
    (allowed : op.Allowed nodes chains) {newNode : Nat} (added : op.added = some newNode) :
    newNode ∈ op.onChain (chains op.list) := by
  cases op with
  | addFirst list node =>
      cases added
      exact List.mem_cons_self
  | addLast list node =>
      cases added
      exact List.mem_append_right _ List.mem_cons_self
  | addBefore list reference node =>
      cases added
      exact (mem_insertBefore (allowed.listed reference rfl) _).mpr (.inl rfl)
  | addAfter list reference node =>
      cases added
      exact (mem_insertAfter (allowed.listed reference rfl) _).mpr (.inl rfl)
  | pop list => cases added
  | remove list node => cases added

/-- These nodes have no neighbours as long as they are in no list. -/
def ListHeap.Unlinked (heap : ListHeap) (chains : Chains) (nodes : List Nat) : Prop :=
  ∀ node ∈ nodes, (∀ list, node ∉ chains list) → nodeLinks heap.nodes node = some ⟨none, none⟩

theorem ListEffect.unlinked_removed {heap heap' : ListHeap} {op : ListOp} {chains : Chains}
    (effect : ListEffect heap heap' op chains) (allowed : op.Allowed heap.nodes chains)
    {nodes : List Nat} (unlinked : heap.Unlinked chains nodes) :
    heap'.Unlinked (chainStep chains op) (nodes ++ (op.removed chains).toList) := by
  intro node member unlisted
  by_cases taken : op.removed chains = some node
  · exact effect.unlinked node taken
  have seen : node ∈ nodes := by
    rcases List.mem_append.mp member with seen | removed
    · exact seen
    · exact absurd (Option.mem_toList.mp removed) taken
  have own : node ∉ op.onChain (chains op.list) := by
    simpa [chainStep] using unlisted op.list
  have before : ∀ list, node ∉ chains list := by
    intro list listed
    by_cases here : list = op.list
    · exact own (ListOp.mem_onChain allowed (here ▸ listed) taken)
    · exact unlisted list (by simpa [chainStep, Function.update_of_ne here] using listed)
  have same := effect.nodes node (before op.list) fun added =>
    own (ListOp.added_onChain allowed added)
  simpa [nodeLinks, same] using unlinked node seen before

/-! ## Runs -/

/-- The nodes a run takes off its lists. -/
def chainRemoved (chains : Chains) : List ListOp → List Nat
  | [] => []
  | op :: ops => (op.removed chains).toList ++ chainRemoved (chainStep chains op) ops

theorem ListOp.Allowed.congr {op : ListOp} {nodes nodes' : Nodes} {chains : Chains}
    (allowed : op.Allowed nodes chains)
    (data : ∀ node, nodeData nodes' node = nodeData nodes node) : op.Allowed nodes' chains :=
  ⟨allowed.unlisted, fun newNode added => by rw [data]; exact allowed.data newNode added,
    allowed.listed⟩

theorem RunAllowed.congr {ops : List ListOp} {nodes nodes' : Nodes} {chains : Chains}
    (allowed : RunAllowed nodes chains ops)
    (data : ∀ node, nodeData nodes' node = nodeData nodes node) : RunAllowed nodes' chains ops := by
  induction ops generalizing chains with
  | nil => trivial
  | cons op ops ih => exact ⟨allowed.1.congr data, ih allowed.2⟩

theorem listRun_represents {ops : List ListOp} {heap : ListHeap} {chains : Chains}
    {seen : List Nat} (represents : heap.Represents chains) (unlinked : heap.Unlinked chains seen)
    (allowed : RunAllowed heap.nodes chains ops) :
    ∃ heap', listRun heap ops = some heap' ∧ heap'.Represents (chainRun chains ops) ∧
      heap'.Unlinked (chainRun chains ops) (seen ++ chainRemoved chains ops) ∧
      ∀ node, nodeData heap'.nodes node = nodeData heap.nodes node := by
  induction ops generalizing heap chains seen with
  | nil =>
      refine ⟨heap, rfl, represents, ?_, fun _ => rfl⟩
      rw [chainRemoved, List.append_nil]
      exact unlinked
  | cons op ops ih =>
      obtain ⟨stepped, ran, effect⟩ := listStep_effect represents allowed.1
      obtain ⟨heap', runs, final, idle, data⟩ := ih effect.represents
        (effect.unlinked_removed allowed.1 unlinked) (allowed.2.congr effect.data)
      refine ⟨heap', ?_, final, ?_, fun node => (data node).trans (effect.data node)⟩
      · simp [listRun, ran, runs]
      · rwa [List.append_assoc] at idle

/-- What can be seen of the lists by following pointers. -/
structure ListHeap.Sequences (heap : ListHeap) (chains : Chains) : Prop where
  nodup : ∀ list, (chains list).Nodup
  disjoint : ∀ left right, left ≠ right → ∀ node ∈ chains left, node ∉ chains right
  forward : ∀ list, Follows (fun node => (heap.nodes node).map Node.next) (heap.lists list).first
    (chains list)
  backward : ∀ list, Follows (fun node => (heap.nodes node).map Node.prev) (heap.lists list).last
    (chains list).reverse

theorem ListHeap.Represents.sequences {heap : ListHeap} {chains : Chains}
    (represents : heap.Represents chains) : heap.Sequences chains := by
  refine ⟨fun list => (represents.holds list).nodup, represents.disjoint, ?_, ?_⟩
  · intro list
    have walk := (represents.holds list).linked.follows_next
    simpa [nodeLinks, Function.comp_def, Node.links, (represents.holds list).first] using walk
  · intro list
    have walk := (represents.holds list).linked.follows_prev
    simpa [nodeLinks, Function.comp_def, Node.links, (represents.holds list).last] using walk

/-- In every run the lists are the sequences that the same run makes of empty sequences,
in both directions; the next allowed call succeeds, does to the sequence of its list what
its name says and changes nothing else; and what was taken off a list has no neighbours. -/
theorem lists_refine_sequences {nodes : Nodes} {ops : List ListOp}
    (allowed : RunAllowed nodes (fun _ => []) ops) :
    ∃ heap, listRun (ListHeap.start nodes) ops = some heap ∧
      heap.Sequences (chainRun (fun _ => []) ops) ∧
      heap.Unlinked (chainRun (fun _ => []) ops) (chainRemoved (fun _ => []) ops) ∧
      ∀ op : ListOp, op.Allowed nodes (chainRun (fun _ => []) ops) →
        ∃ heap', listStep heap op = some (op.returned (chainRun (fun _ => []) ops), heap') ∧
          heap'.Sequences (chainStep (chainRun (fun _ => []) ops) op) ∧
          ListEffect heap heap' op (chainRun (fun _ => []) ops) := by
  have start : (ListHeap.start nodes).Unlinked (fun _ => []) [] := by
    intro node member
    simp at member
  obtain ⟨heap, ran, represents, unlinked, data⟩ :=
    listRun_represents (ListHeap.start_represents nodes) start allowed
  refine ⟨heap, ran, represents.sequences, unlinked, fun op called => ?_⟩
  obtain ⟨heap', stepped, effect⟩ := listStep_effect represents (called.congr data)
  exact ⟨heap', stepped, effect.represents.sequences, effect⟩

/-- Nodes that `NewNode` made, each with some data. -/
def freshNodes : Nodes := fun node => some { data := some node, next := none, prev := none }

/-- Four nodes on list 0; the first and a middle one move to list 1. -/
def exchange : List ListOp :=
  [.addFirst 0 1, .addLast 0 2, .addBefore 0 2 3, .addAfter 0 3 4, .remove 0 3, .pop 0,
    .addLast 1 3, .addFirst 1 1]

theorem exchange_allowed : RunAllowed freshNodes (fun _ => []) exchange := by
  refine ⟨⟨?_, ?_, ?_⟩, ⟨?_, ?_, ?_⟩, ⟨?_, ?_, ?_⟩, ⟨?_, ?_, ?_⟩, ⟨?_, ?_, ?_⟩, ⟨?_, ?_, ?_⟩,
    ⟨?_, ?_, ?_⟩, ⟨?_, ?_, ?_⟩, trivial⟩
  all_goals
    simp [ListOp.added, ListOp.reference, chainStep, ListOp.list, ListOp.onChain, insertBefore,
      insertAfter, nodeData, freshNodes, Function.update_apply]
  -- What is left is where a node that list 0 gives or gave up is looked for.
  all_goals
    intro list
    by_cases first : list = 0 <;> simp [first]

theorem lists_refine_sequences_exchange :
    RunAllowed freshNodes (fun _ => []) exchange ∧
      ∃ heap, listRun (ListHeap.start freshNodes) exchange = some heap ∧
        heap.Sequences (chainRun (fun _ => []) exchange) ∧
        ∃ heap', listStep heap (.pop 1) = some (some 1, heap') := by
  refine ⟨exchange_allowed, ?_⟩
  obtain ⟨heap, ran, sequences, -, next⟩ := lists_refine_sequences exchange_allowed
  have popAllowed : (ListOp.pop 1).Allowed freshNodes (chainRun (fun _ => []) exchange) := by
    constructor <;> simp [ListOp.added, ListOp.reference]
  obtain ⟨heap', popped, -⟩ := next (.pop 1) popAllowed
  exact ⟨heap, ran, sequences, heap', popped⟩

end Aio4c
