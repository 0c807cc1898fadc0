import Aio4c.List

/-! The list functions on chains: each of them maps the sequence of nodes a list
holds to the expected sequence, keeps the data of every node and leaves nodes
outside the list alone. -/

set_option autoImplicit false

namespace Aio4c

open DoublyLinked

def Node.links (node : Node) : Links Nat := { next := node.next, prev := node.prev }

def nodeLinks (nodes : Nodes) (node : Nat) : Option (Links Nat) := (nodes node).map Node.links

def nodeData (nodes : Nodes) (node : Nat) : Option Nat := (nodes node).bind Node.data

/-- The list holds exactly these nodes, in this order, linked both ways. -/
structure NodeList.Holds (list : NodeList) (nodes : Nodes) (chain : List Nat) : Prop where
  first : list.first = chain.head?
  last : list.last = chain.getLast?
  nodup : chain.Nodup
  linked : Linked (nodeLinks nodes) chain

theorem NodeList.initializer_holds (nodes : Nodes) : NodeList.initializer.Holds nodes [] :=
  ⟨rfl, rfl, List.nodup_nil, Linked.nil _⟩

theorem NodeList.Holds.frame {list : NodeList} {nodes nodes' : Nodes} {chain : List Nat}
    (holds : list.Holds nodes chain) (same : ∀ node ∈ chain, nodes' node = nodes node) :
    list.Holds nodes' chain :=
  ⟨holds.first, holds.last, holds.nodup,
    holds.linked.congr fun node member => congrArg (Option.map Node.links) (same node member)⟩

theorem NodeList.Holds.empty_iff {list : NodeList} {nodes : Nodes} {chain : List Nat}
    (holds : list.Holds nodes chain) : listEmpty list = chain.isEmpty := by
  rw [listEmpty, holds.first]
  cases chain <;> rfl

theorem NodeList.Holds.cell {list : NodeList} {nodes : Nodes} {before after : List Nat}
    {node : Nat} (holds : list.Holds nodes (before ++ node :: after)) :
    ∃ data, nodes node = some { data, next := after.head?, prev := before.getLast? } := by
  have links := holds.linked before node after rfl
  simp only [nodeLinks, Option.map_eq_some_iff] at links
  obtain ⟨cell, found, shape⟩ := links
  cases cell
  cases shape
  exact ⟨_, found⟩

theorem NodeList.Holds.member {list : NodeList} {nodes : Nodes} {chain : List Nat}
    (holds : list.Holds nodes chain) {node : Nat} (member : node ∈ chain) :
    (nodes node).isSome := by
  obtain ⟨before, after, rfl⟩ := List.append_of_mem member
  obtain ⟨data, found⟩ := holds.cell
  simp [found]

theorem nodeData_present {nodes : Nodes} {node : Nat} (data : nodeData nodes node ≠ none) :
    (nodes node).isSome := by
  cases found : nodes node with
  | none => simp [nodeData, found] at data
  | some cell => rfl

/-! ## Pointer writes -/

theorem setNext_eq {nodes : Nodes} {node : Nat} (present : (nodes node).isSome)
    (next : Option Nat) :
    setNext nodes node next = some fun address =>
      (nodes address).map fun cell => if address = node then { cell with next } else cell := by
  obtain ⟨cell, found⟩ := Option.isSome_iff_exists.mp present
  simp only [setNext, found, Option.map_some, Option.some.injEq]
  funext address
  by_cases here : address = node
  · subst here
    simp [found]
  · simp [here]

theorem setPrev_eq {nodes : Nodes} {node : Nat} (present : (nodes node).isSome)
    (prev : Option Nat) :
    setPrev nodes node prev = some fun address =>
      (nodes address).map fun cell => if address = node then { cell with prev } else cell := by
  obtain ⟨cell, found⟩ := Option.isSome_iff_exists.mp present
  simp only [setPrev, found, Option.map_some, Option.some.injEq]
  funext address
  by_cases here : address = node
  · subst here
    simp [found]
  · simp [here]

theorem relinkPrev_eq {nodes : Nodes} {list : NodeList} {prev : Option Nat}
    (present : ∀ node, prev = some node → (nodes node).isSome) (next : Option Nat) :
    relinkPrev nodes list prev next = some
      (fun address => (nodes address).map fun cell =>
        if prev = some address then { cell with next } else cell,
        { list with first := if prev = none then next else list.first }) := by
  cases prev with
  | none => simp [relinkPrev]
  | some node =>
      simp only [relinkPrev, setNext_eq (present node rfl), Option.map_some, Option.some.injEq,
        reduceCtorEq, if_false, eq_comm]

theorem relinkNext_eq {nodes : Nodes} {list : NodeList} {next : Option Nat}
    (present : ∀ node, next = some node → (nodes node).isSome) (prev : Option Nat) :
    relinkNext nodes list next prev = some
      (fun address => (nodes address).map fun cell =>
        if next = some address then { cell with prev } else cell,
        { list with last := if next = none then prev else list.last }) := by
  cases next with
  | none => simp [relinkNext]
  | some node =>
      simp only [relinkNext, setPrev_eq (present node rfl), Option.map_some, Option.some.injEq,
        reduceCtorEq, if_false, eq_comm]

/-! ## Removal -/

/-- What `ListRemove` leaves at every address. -/
def unlinkedNodes (nodes : Nodes) (prev next : Option Nat) (node : Nat) : Nodes := fun address =>
  (nodes address).map fun cell =>
    if address = node then { cell with next := none, prev := none }
    else { cell with
      next := if prev = some address then next else cell.next
      prev := if next = some address then prev else cell.prev }

theorem listRemove_eq {nodes : Nodes} {list : NodeList} {before after : List Nat} {node : Nat}
    (holds : list.Holds nodes (before ++ node :: after)) :
    listRemove nodes list node = some
      (unlinkedNodes nodes before.getLast? after.head? node,
        { first := if before = [] then after.head? else list.first
          last := if after = [] then before.getLast? else list.last }) := by
  obtain ⟨data, found⟩ := holds.cell
  have prevOther : before.getLast? ≠ some node := by
    intro last
    have inBefore := List.mem_of_getLast? last
    exact (List.nodup_append.mp holds.nodup).2.2 node inBefore node (by simp) rfl
  have nextOther : after.head? ≠ some node := by
    intro head
    have inAfter := List.mem_of_head? head
    exact (List.nodup_cons.mp (List.nodup_append.mp holds.nodup).2.1).1 inAfter
  have atStart : before = [] → list.first = some node := by
    intro equal
    subst equal
    exact holds.first
  have atEnd : after = [] → list.last = some node := by
    intro equal
    subst equal
    simp [holds.last]
  have prevPresent : ∀ prev, before.getLast? = some prev → (nodes prev).isSome :=
    fun prev last => holds.member (by simp [List.mem_of_getLast? last])
  have nextPresent : ∀ next, after.head? = some next → (nodes next).isSome :=
    fun next head => holds.member (by simp [List.mem_of_head? head])
  unfold listRemove
  simp only [found, Option.bind_eq_bind, Option.bind_some, guard, Option.pure_def]
  rw [relinkPrev_eq prevPresent]
  simp only [Option.bind_some, found, Option.map_some, if_neg prevOther]
  rw [relinkNext_eq (by simpa using nextPresent)]
  simp only [Option.bind_some]
  rw [setPrev_eq (by simp [found])]
  simp only [Option.bind_some]
  rw [setNext_eq (by simp [found])]
  simp only [Option.bind_some, List.getLast?_eq_none_iff, List.head?_eq_none_iff]
  rw [if_pos atStart, if_pos atEnd, Option.bind_some, Option.bind_some]
  congr 2
  funext address
  unfold unlinkedNodes
  cases nodes address with
  | none => rfl
  | some cell =>
      by_cases here : address = node
      · subst here
        simp [prevOther, nextOther]
      · simp only [Option.map_some, if_neg here]
        split <;> split <;> rfl

/-- Two heaps that differ only in the links of the nodes of a chain. -/
structure Rewired (nodes nodes' : Nodes) (chain : List Nat) : Prop where
  data : ∀ address, nodeData nodes' address = nodeData nodes address
  outside : ∀ address, address ∉ chain → nodes' address = nodes address

theorem listRemove_ok {nodes : Nodes} {list : NodeList} {before after : List Nat} {node : Nat}
    (holds : list.Holds nodes (before ++ node :: after)) :
    ∃ nodes' list', listRemove nodes list node = some (nodes', list') ∧
      list'.Holds nodes' (before ++ after) ∧ Rewired nodes nodes' (before ++ node :: after) ∧
      nodeLinks nodes' node = some ⟨none, none⟩ := by
  refine ⟨_, _, listRemove_eq holds, ⟨?_, ?_, ?_, ?_⟩, ⟨?_, ?_⟩, ?_⟩
  · cases before with
    | nil => rfl
    | cons head tail => simp [holds.first]
  · cases after with
    | nil => simp
    | cons head tail => simp [holds.last]
  · exact holds.nodup.sublist (List.Sublist.append_left (List.sublist_cons_self _ _) _)
  · refine holds.linked.unlink holds.nodup fun address member => ?_
    have other : address ≠ node := by
      intro equal
      subst equal
      exact (List.nodup_middle.mp holds.nodup).notMem member
    simp only [nodeLinks, unlinkedNodes, if_neg other, Option.map_map]
    rfl
  · intro address
    simp only [nodeData, unlinkedNodes]
    cases nodes address with
    | none => rfl
    | some cell =>
        simp only [Option.map_some, Option.bind_some]
        split <;> rfl
  · intro address absent
    have other : address ≠ node := by
      intro equal
      subst equal
      simp at absent
    have notPrev : before.getLast? ≠ some address := fun last =>
      absent (by simp [List.mem_of_getLast? last])
    have notNext : after.head? ≠ some address := fun head =>
      absent (by simp [List.mem_of_head? head])
    simp [unlinkedNodes, if_neg other, notPrev, notNext]
  · obtain ⟨data, found⟩ := holds.cell
    simp [nodeLinks, unlinkedNodes, found, Node.links]

theorem listPop_ok {nodes : Nodes} {list : NodeList} {chain : List Nat} {node : Nat}
    (holds : list.Holds nodes (node :: chain)) :
    ∃ nodes' list', listPop nodes list = some (some node, nodes', list') ∧
      list'.Holds nodes' chain ∧ Rewired nodes nodes' (node :: chain) ∧
      nodeLinks nodes' node = some ⟨none, none⟩ := by
  obtain ⟨nodes', list', removed, kept, rewired, links⟩ :=
    listRemove_ok (List.nil_append (node :: chain) ▸ holds)
  obtain ⟨data, found⟩ := NodeList.Holds.cell (List.nil_append (node :: chain) ▸ holds)
  have head : list.first = some node := holds.first
  have absent : node ∉ chain := (List.nodup_cons.mp holds.nodup).1
  have first : list'.first ≠ some node := fun equality =>
    absent (List.mem_of_head? (kept.first.symm.trans equality))
  have last : list'.last ≠ some node := fun equality =>
    absent (List.mem_of_getLast? (kept.last.symm.trans equality))
  refine ⟨nodes', list', ?_, kept, rewired, links⟩
  simp only [nodeLinks, Option.map_eq_some_iff] at links
  obtain ⟨cell, present, shape⟩ := links
  cases cell
  cases shape
  simp [listPop, head, found, removed, present, first, last, guard]

/-! ## Addition -/

/-- What an addition between `prev` and `next` leaves at every address. -/
def insertedNodes (nodes : Nodes) (prev next : Option Nat) (newNode : Nat) : Nodes := fun address =>
  (nodes address).map fun cell =>
    if address = newNode then { cell with next, prev }
    else { cell with
      next := if prev = some address then some newNode else cell.next
      prev := if next = some address then some newNode else cell.prev }

theorem NodeList.Holds.insert {list : NodeList} {nodes : Nodes} {before after : List Nat}
    {newNode : Nat} (holds : list.Holds nodes (before ++ after)) (list' : NodeList)
    (fresh : newNode ∉ before ++ after) (present : (nodes newNode).isSome)
    (first : list'.first = (before ++ newNode :: after).head?)
    (last : list'.last = (before ++ newNode :: after).getLast?) :
    list'.Holds (insertedNodes nodes before.getLast? after.head? newNode)
        (before ++ newNode :: after) ∧
      Rewired nodes (insertedNodes nodes before.getLast? after.head? newNode)
        (newNode :: (before ++ after)) := by
  obtain ⟨cell, found⟩ := Option.isSome_iff_exists.mp present
  refine ⟨⟨first, last, ?_, ?_⟩, ⟨?_, ?_⟩⟩
  · exact List.nodup_middle.mpr (List.nodup_cons.mpr ⟨fresh, holds.nodup⟩)
  · refine holds.linked.insert holds.nodup ?_ fun address member => ?_
    · simp [nodeLinks, insertedNodes, found, Node.links]
    · have other : address ≠ newNode := by
        intro equal
        subst equal
        exact fresh member
      simp only [nodeLinks, insertedNodes, if_neg other, Option.map_map]
      rfl
  · intro address
    simp only [nodeData, insertedNodes]
    cases nodes address with
    | none => rfl
    | some cell =>
        simp only [Option.map_some, Option.bind_some]
        split <;> rfl
  · intro address absent
    have other : address ≠ newNode := by
      intro equal
      subst equal
      simp at absent
    have notPrev : before.getLast? ≠ some address := fun last =>
      absent (by simp [List.mem_of_getLast? last])
    have notNext : after.head? ≠ some address := fun head =>
      absent (by simp [List.mem_of_head? head])
    simp [insertedNodes, if_neg other, notPrev, notNext]

theorem listAddAfter_eq {nodes : Nodes} {list : NodeList} {before after : List Nat}
    {node newNode : Nat} (holds : list.Holds nodes (before ++ node :: after))
    (fresh : newNode ∉ before ++ node :: after) (present : (nodes newNode).isSome) :
    listAddAfter nodes list node newNode = some
      (insertedNodes nodes (some node) after.head? newNode,
        { list with last := if after = [] then some newNode else list.last }) := by
  obtain ⟨data, found⟩ := holds.cell
  have other : node ≠ newNode := by
    intro equal
    subst equal
    simp at fresh
  have nextOther : after.head? ≠ some node := by
    intro head
    have inAfter := List.mem_of_head? head
    exact (List.nodup_cons.mp (List.nodup_append.mp holds.nodup).2.1).1 inAfter
  have nextPresent : ∀ next, after.head? = some next → (nodes next).isSome :=
    fun next head => holds.member (by simp [List.mem_of_head? head])
  have nextFresh : after.head? ≠ some newNode := fun head =>
    fresh (by simp [List.mem_of_head? head])
  unfold listAddAfter
  rw [setPrev_eq present]
  simp only [Option.bind_eq_bind, Option.bind_some, found, Option.map_some, if_neg other]
  rw [setNext_eq (by simpa using present)]
  simp only [Option.bind_some, found, Option.map_some, if_neg other]
  rw [relinkNext_eq (by simpa using nextPresent)]
  simp only [Option.bind_some]
  rw [setNext_eq (by simp [found])]
  simp only [Option.bind_some, Option.pure_def, List.head?_eq_none_iff]
  congr 2
  funext address
  unfold insertedNodes
  cases nodes address with
  | none => rfl
  | some cell =>
      by_cases here : address = newNode
      · subst here
        simp [Ne.symm other, nextFresh]
      · by_cases self : address = node
        · subst self
          simp [other, nextOther]
        · simp only [Option.map_some, if_neg here, if_neg self, Option.some.injEq,
            eq_comm (a := node)]
          split <;> rfl

theorem listAddBefore_eq {nodes : Nodes} {list : NodeList} {before after : List Nat}
    {node newNode : Nat} (holds : list.Holds nodes (before ++ node :: after))
    (fresh : newNode ∉ before ++ node :: after) (present : (nodes newNode).isSome) :
    listAddBefore nodes list node newNode = some
      (insertedNodes nodes before.getLast? (some node) newNode,
        { list with first := if before = [] then some newNode else list.first }) := by
  obtain ⟨data, found⟩ := holds.cell
  have other : node ≠ newNode := by
    intro equal
    subst equal
    simp at fresh
  have prevOther : before.getLast? ≠ some node := by
    intro last
    have inBefore := List.mem_of_getLast? last
    exact (List.nodup_append.mp holds.nodup).2.2 node inBefore node (by simp) rfl
  have prevPresent : ∀ prev, before.getLast? = some prev → (nodes prev).isSome :=
    fun prev last => holds.member (by simp [List.mem_of_getLast? last])
  have prevFresh : before.getLast? ≠ some newNode := fun last =>
    fresh (by simp [List.mem_of_getLast? last])
  unfold listAddBefore
  simp only [found, Option.bind_eq_bind, Option.bind_some]
  rw [setPrev_eq present]
  simp only [Option.bind_some]
  rw [setNext_eq (by simpa using present)]
  simp only [Option.bind_some, found, Option.map_some, if_neg other]
  rw [relinkPrev_eq (by simpa using prevPresent)]
  simp only [Option.bind_some]
  rw [setPrev_eq (by simp [found])]
  simp only [Option.bind_some, Option.pure_def, List.getLast?_eq_none_iff]
  congr 2
  funext address
  unfold insertedNodes
  cases nodes address with
  | none => rfl
  | some cell =>
      by_cases here : address = newNode
      · subst here
        simp [Ne.symm other, prevFresh]
      · by_cases self : address = node
        · subst self
          simp [other, prevOther]
        · simp only [Option.map_some, if_neg here, if_neg self, Option.some.injEq,
            eq_comm (a := node)]
          split <;> rfl

theorem listAddAfter_ok {nodes : Nodes} {list : NodeList} {before after : List Nat}
    {node newNode : Nat} (holds : list.Holds nodes (before ++ node :: after))
    (fresh : newNode ∉ before ++ node :: after) (present : (nodes newNode).isSome) :
    ∃ nodes' list', listAddAfter nodes list node newNode = some (nodes', list') ∧
      list'.Holds nodes' (before ++ node :: newNode :: after) ∧
      Rewired nodes nodes' (newNode :: (before ++ node :: after)) := by
  have shape : before ++ node :: after = (before ++ [node]) ++ after := by simp
  have inserted := NodeList.Holds.insert (shape ▸ holds)
    { list with last := if after = [] then some newNode else list.last } (shape ▸ fresh) present
    (by cases before <;> simp [holds.first]) (by cases after <;> simp [holds.last])
  refine ⟨_, _, listAddAfter_eq holds fresh present, ?_, ?_⟩
  · simpa using inserted.1
  · simpa using inserted.2

theorem listAddBefore_ok {nodes : Nodes} {list : NodeList} {before after : List Nat}
    {node newNode : Nat} (holds : list.Holds nodes (before ++ node :: after))
    (fresh : newNode ∉ before ++ node :: after) (present : (nodes newNode).isSome) :
    ∃ nodes' list', listAddBefore nodes list node newNode = some (nodes', list') ∧
      list'.Holds nodes' (before ++ newNode :: node :: after) ∧
      Rewired nodes nodes' (newNode :: (before ++ node :: after)) :=
  ⟨_, _, listAddBefore_eq holds fresh present,
    holds.insert { list with first := if before = [] then some newNode else list.first }
      fresh present (by cases before <;> simp [holds.first]) (by simp [holds.last])⟩

/-- What `ListAddLast` leaves at every address. -/
def appendedNodes (nodes : Nodes) (last : Option Nat) (newNode : Nat) : Nodes := fun address =>
  (nodes address).map fun cell =>
    if address = newNode then { cell with next := none, prev := last }
    else { cell with next := if last = some address then some newNode else cell.next }

theorem listAddFirst_empty {nodes : Nodes} {list : NodeList} {newNode : Nat}
    (holds : list.Holds nodes []) (data : nodeData nodes newNode ≠ none) :
    listAddFirst nodes list (some newNode) = some
      (appendedNodes nodes none newNode, { first := some newNode, last := some newNode }) := by
  obtain ⟨item, held⟩ := Option.ne_none_iff_exists'.mp data
  obtain ⟨cell, found, payload⟩ := Option.bind_eq_some_iff.mp held
  have first : list.first = none := holds.first
  unfold listAddFirst
  simp only [Option.bind_eq_bind, Option.bind_some, found, payload, guard, first, ne_eq,
    reduceCtorEq, not_false_eq_true, if_true, Option.pure_def]
  rw [setPrev_eq (by simp [found])]
  simp only [Option.bind_some]
  rw [setNext_eq (by simp [found])]
  simp only [Option.bind_some, found, Option.map_some, if_true, and_self]
  congr 2
  funext address
  unfold appendedNodes
  cases nodes address with
  | none => rfl
  | some cell =>
      by_cases here : address = newNode
      · simp [here]
      · simp [here]

theorem insertedNodes_last (nodes : Nodes) (last : Option Nat) (newNode : Nat) :
    insertedNodes nodes last none newNode = appendedNodes nodes last newNode := by
  funext address
  simp [insertedNodes, appendedNodes]

theorem listAddAfter_last {nodes : Nodes} {list : NodeList} {before : List Nat}
    {node newNode : Nat} (holds : list.Holds nodes (before ++ [node]))
    (fresh : newNode ∉ before ++ [node]) (present : (nodes newNode).isSome) :
    listAddAfter nodes list node newNode = some
      (appendedNodes nodes (some node) newNode, { list with last := some newNode }) := by
  simpa [insertedNodes_last] using listAddAfter_eq holds fresh present

theorem listAddLast_eq {nodes : Nodes} {list : NodeList} {chain : List Nat} {newNode : Nat}
    (holds : list.Holds nodes chain) (fresh : newNode ∉ chain)
    (data : nodeData nodes newNode ≠ none) :
    listAddLast nodes list (some newNode) = some
      (appendedNodes nodes chain.getLast? newNode,
        { first := if chain = [] then some newNode else list.first, last := some newNode }) := by
  obtain ⟨item, held⟩ := Option.ne_none_iff_exists'.mp data
  obtain ⟨cell, found, payload⟩ := Option.bind_eq_some_iff.mp held
  unfold listAddLast
  rcases List.eq_nil_or_concat chain with rfl | ⟨before, node, rfl⟩
  · have last : list.last = none := holds.last
    simp [guard, found, payload, last, listAddFirst_empty holds data, appendedNodes]
  · rw [List.concat_eq_append] at holds fresh ⊢
    have last : list.last = some node := by simp [holds.last]
    have added := listAddAfter_last holds fresh (by simp [found])
    simp [guard, found, payload, last, added, appendedNodes]

theorem listAddLast_ok {nodes : Nodes} {list : NodeList} {chain : List Nat} {newNode : Nat}
    (holds : list.Holds nodes chain) (fresh : newNode ∉ chain)
    (data : nodeData nodes newNode ≠ none) :
    ∃ nodes' list', listAddLast nodes list (some newNode) = some (nodes', list') ∧
      list'.Holds nodes' (chain ++ [newNode]) ∧ Rewired nodes nodes' (newNode :: chain) := by
  have around : list.Holds nodes (chain ++ []) := by simpa using holds
  have inserted := around.insert
    { first := if chain = [] then some newNode else list.first, last := some newNode }
    (by simpa using fresh) (nodeData_present data) (by cases chain <;> simp [holds.first]) (by simp)
  rw [List.head?_nil, insertedNodes_last, List.append_nil] at inserted
  exact ⟨_, _, listAddLast_eq holds fresh data, inserted⟩

theorem listAddFirst_ok {nodes : Nodes} {list : NodeList} {chain : List Nat} {newNode : Nat}
    (holds : list.Holds nodes chain) (fresh : newNode ∉ chain)
    (data : nodeData nodes newNode ≠ none) :
    ∃ nodes' list', listAddFirst nodes list (some newNode) = some (nodes', list') ∧
      list'.Holds nodes' (newNode :: chain) ∧ Rewired nodes nodes' (newNode :: chain) := by
  cases chain with
  | nil =>
      have around : list.Holds nodes ([] ++ []) := holds
      have inserted := around.insert { first := some newNode, last := some newNode } fresh
        (nodeData_present data) rfl rfl
      rw [List.head?_nil, insertedNodes_last] at inserted
      exact ⟨_, _, listAddFirst_empty holds data, inserted⟩
  | cons first after =>
      obtain ⟨item, held⟩ := Option.ne_none_iff_exists'.mp data
      obtain ⟨cell, found, payload⟩ := Option.bind_eq_some_iff.mp held
      have around : list.Holds nodes ([] ++ first :: after) := holds
      obtain ⟨nodes', list', added, kept, rewired⟩ :=
        listAddBefore_ok around fresh (nodeData_present data)
      have head : list.first = some first := holds.first
      have head' : list'.first = some newNode := kept.first
      obtain ⟨item', found'⟩ := kept.cell
      refine ⟨nodes', list', ?_, kept, rewired⟩
      simp [listAddFirst, guard, found, payload, head, added, head', found']

/-! ## Moving a node between lists -/

/-- A node taken off one chain goes to the end of another one; the two chains
stay linked and no node loses its data. -/
theorem moveLast_ok {nodes nodes' : Nodes} {source target : NodeList}
    {taken left chain : List Nat} {node : Nat} (rewired : Rewired nodes nodes' taken)
    (remaining : source.Holds nodes' left) (holds : target.Holds nodes chain)
    (sub : ∀ address ∈ left, address ∈ taken) (member : node ∈ taken) (removed : node ∉ left)
    (disjoint : ∀ address ∈ taken, address ∉ chain) (data : nodeData nodes node ≠ none) :
    ∃ nodes'' target', listAddLast nodes' target (some node) = some (nodes'', target') ∧
      source.Holds nodes'' left ∧ target'.Holds nodes'' (chain ++ [node]) ∧
      ∀ address, nodeData nodes'' address = nodeData nodes address := by
  have holds' : target.Holds nodes' chain := holds.frame fun address inChain =>
    rewired.outside address fun inTaken => disjoint address inTaken inChain
  obtain ⟨nodes'', target', added, kept, rewired'⟩ :=
    listAddLast_ok holds' (disjoint node member) (by rw [rewired.data]; exact data)
  refine ⟨nodes'', target', added, remaining.frame fun address inLeft => ?_, kept,
    fun address => (rewired'.data address).trans (rewired.data address)⟩
  refine rewired'.outside address fun inTarget => ?_
  rcases List.mem_cons.mp inTarget with rfl | inChain
  · exact removed inLeft
  · exact disjoint address (sub address inLeft) inChain

end Aio4c
