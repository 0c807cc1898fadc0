import Aio4c.ListProperties
import Aio4c.Library.Fifo
import Aio4c.Queue

/-! A queue refines a first-in first-out list. The two chains of nodes share out
the nodes ever allocated, each node keeps its own item block, and the blocks of
the busy chain hold the items in order. -/

set_option autoImplicit false

namespace Aio4c

/-- The queue holds the items of a FIFO in the nodes of its busy list. -/
structure Queue.Represents (queue : Queue) (busy free : List Nat) (fifo : Fifo QueueItem) :
    Prop where
  busyHolds : queue.busy.Holds queue.nodes busy
  freeHolds : queue.free.Holds queue.nodes free
  pool : (busy ++ free).Perm (List.range queue.allocated)
  data : ∀ node < queue.allocated, nodeData queue.nodes node = some node
  stored : ∀ item < queue.allocated, (queue.items item).isSome
  content : busy.map queue.items = fifo.items.map some
  exit : queue.exit = fifo.exit
  emptied : queue.emptied = fifo.emptied

theorem newQueue_represents : newQueue.Represents [] [] Fifo.empty :=
  { busyHolds := NodeList.initializer_holds _
    freeHolds := NodeList.initializer_holds _
    pool := List.Perm.nil
    data := fun _ bound => absurd bound (Nat.not_lt_zero _)
    stored := fun _ bound => absurd bound (Nat.not_lt_zero _)
    content := rfl
    exit := rfl
    emptied := rfl }

/-- A FIFO attempt as the source reports it to the caller of `Dequeue`. -/
def dequeuedOf (item : QueueItem) : Fifo.Attempt QueueItem → Dequeued
  | .blocked => .waiting
  | .taken taken => .returned true taken
  | .nothing => .returned false .undefined
  | .drained => .returned false item

namespace Queue.Represents

variable {queue : Queue} {busy free : List Nat} {fifo : Fifo QueueItem}

theorem bound (represents : queue.Represents busy free fifo) {node : Nat}
    (member : node ∈ busy ++ free) : node < queue.allocated :=
  List.mem_range.mp (represents.pool.mem_iff.mp member)

theorem disjoint (represents : queue.Represents busy free fifo) {node : Nat}
    (inBusy : node ∈ busy) (inFree : node ∈ free) : False :=
  (List.nodup_append.mp (represents.pool.nodup_iff.mpr List.nodup_range)).2.2
    node inBusy node inFree rfl

theorem length (represents : queue.Represents busy free fifo) :
    busy.length = fifo.items.length := by
  simpa using congrArg List.length represents.content

theorem total (represents : queue.Represents busy free fifo) :
    busy.length + free.length = queue.allocated := by
  simpa using represents.pool.length_eq

theorem nodeData_ne_none (represents : queue.Represents busy free fifo) {node : Nat}
    (member : node ∈ busy ++ free) : nodeData queue.nodes node ≠ none := by
  simp [represents.data node (represents.bound member)]

theorem listEmpty_busy (represents : queue.Represents busy free fifo) :
    listEmpty queue.busy = fifo.items.isEmpty := by
  rw [represents.busyHolds.empty_iff]
  have length := represents.length
  cases busy <;> cases items : fifo.items <;> simp_all

theorem readItem (represents : queue.Represents busy free fifo) {nodes : Nodes}
    (data : ∀ node, nodeData nodes node = nodeData queue.nodes node) {node : Nat}
    (member : node ∈ busy ++ free) : readItem queue.items nodes node = queue.items node := by
  have held := (data node).trans (represents.data node (represents.bound member))
  obtain ⟨cell, found, payload⟩ := Option.bind_eq_some_iff.mp held
  simp [Aio4c.readItem, found, payload]

theorem recycle {before after : List Nat} {node : Nat} {front back : List QueueItem}
    (represents : queue.Represents (before ++ node :: after) free fifo)
    (frontContent : before.map queue.items = front.map some)
    (backContent : after.map queue.items = back.map some) {nodes : Nodes} {list : NodeList}
    (remaining : list.Holds nodes (before ++ after))
    (rewired : Rewired queue.nodes nodes (before ++ node :: after)) :
    ∃ nodes' free', listAddLast nodes queue.free (some node) = some (nodes', free') ∧
      ∀ emptied, Queue.Represents
        { queue with nodes := nodes', busy := list, free := free', emptied } (before ++ after)
        (free ++ [node]) { fifo with items := front ++ back, emptied } := by
  have member : node ∈ before ++ node :: after := by simp
  have removed : node ∉ before ++ after :=
    (List.nodup_middle.mp represents.busyHolds.nodup).notMem
  obtain ⟨nodes', free', added, busyHolds, freeHolds, data⟩ :=
    moveLast_ok rewired remaining represents.freeHolds
      (fun address inLeft => by
        rcases List.mem_append.mp inLeft with inBefore | inAfter
        · simp [inBefore]
        · simp [inAfter])
      member removed (fun address inBusy inFree => represents.disjoint inBusy inFree)
      (represents.nodeData_ne_none (by simp))
  refine ⟨nodes', free', added, fun emptied => ?_⟩
  exact
    { busyHolds := busyHolds
      freeHolds := freeHolds
      pool := by
        have moved : (before ++ after ++ (free ++ [node])).Perm
            (before ++ node :: after ++ free) := by
          rw [← List.append_assoc]
          refine (List.perm_append_singleton node _).trans ?_
          rw [List.append_assoc, List.append_assoc, List.cons_append]
          exact List.perm_middle.symm
        exact moved.trans represents.pool
      data := fun address bound => (data address).trans (represents.data address bound)
      stored := represents.stored
      content := by simp only [List.map_append, frontContent, backContent]
      exit := represents.exit
      emptied := rfl }

/-! ## Enqueueing -/

theorem addNewItem_ok (represents : queue.Represents busy free fifo) :
    ∃ after, addNewItem queue = some after ∧
      after.Represents busy (free ++ [queue.allocated]) fifo ∧
      after.allocated = queue.allocated + 1 := by
  have unknown : queue.allocated ∉ busy ++ free := fun member =>
    Nat.lt_irrefl _ (represents.bound member)
  have absentBusy : queue.allocated ∉ busy := fun member => unknown (by simp [member])
  have absentFree : queue.allocated ∉ free := fun member => unknown (by simp [member])
  have same : ∀ address, address ≠ queue.allocated →
      newNode queue.nodes queue.allocated (some queue.allocated) address = queue.nodes address :=
    fun address other => Function.update_of_ne other _ _
  have data : ∀ node < queue.allocated + 1,
      nodeData (newNode queue.nodes queue.allocated (some queue.allocated)) node = some node := by
    intro node bound
    by_cases fresh : node = queue.allocated
    · subst fresh
      simp [nodeData, newNode]
    · rw [nodeData, same node fresh]
      exact represents.data node (by omega)
  have freeHolds := represents.freeHolds.frame fun address member =>
    same address fun fresh => absentFree (fresh ▸ member)
  have busyHolds := represents.busyHolds.frame fun address member =>
    same address fun fresh => absentBusy (fresh ▸ member)
  obtain ⟨nodes, list, added, holds, rewired⟩ :=
    listAddLast_ok freeHolds absentFree (by simp [data])
  refine ⟨{ queue with
      nodes, items := Function.update queue.items queue.allocated (some .undefined), free := list
      allocated := queue.allocated + 1 }, ?_, ?_, rfl⟩
  · simp only [addNewItem, added, Option.bind_eq_bind, Option.bind_some, Option.pure_def]
  exact
    { busyHolds := busyHolds.frame fun address member => rewired.outside address fun inFree => by
        rcases List.mem_cons.mp inFree with fresh | inFree
        · exact absentBusy (fresh ▸ member)
        · exact represents.disjoint member inFree
      freeHolds := holds
      pool := by
        rw [← List.append_assoc, List.range_succ]
        exact represents.pool.append_right _
      data := fun node bound => (rewired.data node).trans (data node bound)
      stored := by
        intro item bound
        by_cases fresh : item = queue.allocated
        · simp [fresh]
        · simp only [Function.update_of_ne fresh]
          exact represents.stored item (by simp only at bound; omega)
      content := by
        rw [← represents.content]
        refine List.map_congr_left fun node member => ?_
        exact Function.update_of_ne (by intro same; subst same; exact absentBusy member) _ _
      exit := represents.exit
      emptied := represents.emptied }

theorem writeItem_ok (represents : queue.Represents busy free fifo) {nodes : Nodes}
    (data : ∀ node, nodeData nodes node = nodeData queue.nodes node) {node : Nat}
    (member : node ∈ busy ++ free) (item : QueueItem) :
    writeItem queue.items nodes node item =
      some (Function.update queue.items node (some item)) := by
  have bound := represents.bound member
  have held := (data node).trans (represents.data node bound)
  obtain ⟨cell, found, payload⟩ := Option.bind_eq_some_iff.mp held
  obtain ⟨old, stored⟩ := Option.isSome_iff_exists.mp (represents.stored node bound)
  simp [writeItem, found, payload, stored]

theorem enqueue_free {node : Nat} (represents : queue.Represents busy (node :: free) fifo)
    (item : QueueItem) :
    ∃ nodes list items nodes' list',
      listPop queue.nodes queue.free = some (some node, nodes, list) ∧
      writeItem queue.items nodes node item = some items ∧
      listAddLast nodes queue.busy (some node) = some (nodes', list') ∧
      Queue.Represents { queue with
        nodes := nodes', items, free := list, busy := list', exit := queue.exit || item = .exit }
        (busy ++ [node]) free { fifo with
          items := fifo.items ++ [item], exit := fifo.exit || item = .exit } := by
  have member : node ∈ busy ++ node :: free := by simp
  have fresh : node ∉ busy := fun inBusy => represents.disjoint inBusy (by simp)
  obtain ⟨nodes, list, popped, remaining, rewired, -⟩ := listPop_ok represents.freeHolds
  have written := represents.writeItem_ok rewired.data member item
  obtain ⟨nodes', list', added, freeHolds, busyHolds, data⟩ :=
    moveLast_ok rewired remaining represents.busyHolds (fun address inFree => by simp [inFree])
      (by simp) (List.nodup_cons.mp represents.freeHolds.nodup).1
      (fun address inFree inBusy => represents.disjoint inBusy inFree)
      (represents.nodeData_ne_none member)
  refine ⟨nodes, list, _, nodes', list', popped, written, added, ?_⟩
  exact
    { busyHolds := busyHolds
      freeHolds := freeHolds
      pool := by
        rw [List.append_assoc]
        exact represents.pool
      data := fun address bound => (data address).trans (represents.data address bound)
      stored := by
        intro block bound
        by_cases here : block = node
        · simp [here]
        · simp only [Function.update_of_ne here]
          exact represents.stored block bound
      content := by
        have kept : busy.map (Function.update queue.items node (some item)) =
            busy.map queue.items :=
          List.map_congr_left fun other inBusy =>
            Function.update_of_ne (by intro same; subst same; exact fresh inBusy) _ _
        simp only [List.map_append, kept, represents.content, List.map_cons, List.map_nil,
          Function.update_self]
      exit := by simp only [represents.exit]
      emptied := represents.emptied }

/-- A node is allocated exactly when the busy list grows past its record. -/
theorem enqueue_ok (represents : queue.Represents busy free fifo) (opened : fifo.exit = false)
    (item : QueueItem) :
    ∃ after busy' free', enqueue queue item = some (true, after) ∧
      after.Represents busy' free'
        { fifo with items := fifo.items ++ [item], exit := item = .exit } ∧
      after.allocated = max queue.allocated (fifo.items.length + 1) := by
  have total := represents.total
  have length := represents.length
  have empty := represents.freeHolds.empty_iff
  have isOpen : queue.exit = false := represents.exit.trans opened
  cases free with
  | nil =>
      obtain ⟨provided, made, represents', count⟩ := represents.addNewItem_ok
      obtain ⟨nodes, list, items, nodes', list', popped, written, added, final⟩ :=
        represents'.enqueue_free item
      have isOpen' : provided.exit = false := represents'.exit.trans opened
      refine ⟨_, _, _, ?_, by simpa only [isOpen', opened, Bool.false_or] using final, ?_⟩
      · simp only [enqueue, isOpen, empty, List.isEmpty_nil, made, popped, written, added, isOpen',
          Bool.false_or, Bool.false_eq_true, if_true, if_false, Option.bind_eq_bind,
          Option.bind_some, Option.pure_def]
      · simp only [List.length_nil] at total
        simp only [count]
        omega
  | cons node rest =>
      obtain ⟨nodes, list, items, nodes', list', popped, written, added, final⟩ :=
        represents.enqueue_free item
      refine ⟨_, _, _, ?_, by simpa only [isOpen, opened, Bool.false_or] using final, ?_⟩
      · simp only [enqueue, isOpen, empty, List.isEmpty_cons, popped, written, added,
          Bool.false_or, Bool.false_eq_true, if_false, Option.bind_eq_bind, Option.bind_some,
          Option.pure_def]
      · simp only [List.length_cons] at total
        simp only
        omega

/-! ## Dequeueing -/

theorem dequeueItem_ok (represents : queue.Represents busy free fifo) (storage : QueueItem) :
    ∃ after busy' free', dequeueItem queue = some (dequeuedOf storage fifo.take.1, after) ∧
      after.Represents busy' free' fifo.take.2 ∧ after.allocated = queue.allocated := by
  have empty := represents.listEmpty_busy
  have content := represents.content
  cases items : fifo.items with
  | nil =>
      refine ⟨queue, busy, free, ?_, ?_, rfl⟩
      · simp only [dequeueItem, empty, items, List.isEmpty_nil, if_true, Fifo.take, dequeuedOf]
      · simpa only [Fifo.take, items] using represents
  | cons item rest =>
      rw [items] at empty content
      cases busy with
      | nil => simp at content
      | cons node chain =>
          simp only [List.map_cons, List.cons.injEq] at content
          obtain ⟨nodes, list, popped, remaining, rewired, -⟩ := listPop_ok represents.busyHolds
          obtain ⟨nodes', free', added, represents'⟩ :=
            represents.recycle
              (show ([] : List Nat).map queue.items = ([] : List QueueItem).map some from rfl)
              content.2 remaining
              (show Rewired queue.nodes nodes ([] ++ node :: chain) from rewired)
          have read := represents.readItem rewired.data (List.mem_cons_self : node ∈ node :: _)
          have drained : listEmpty list = rest.isEmpty :=
            (represents' false).listEmpty_busy
          refine ⟨{ queue with
              nodes := nodes', busy := list, free := free', emptied := rest.isEmpty },
            chain, free ++ [node], ?_, ?_, rfl⟩
          · simp only [dequeueItem, empty, popped, read, content.1, added, drained, Fifo.take,
              items, dequeuedOf, List.isEmpty_cons, Bool.false_eq_true, if_false,
              Option.bind_eq_bind, Option.bind_some, Option.pure_def]
          · simpa only [Fifo.take, items, List.nil_append] using represents' rest.isEmpty

theorem dequeueWait_ok (represents : queue.Represents busy free fifo) (storage : QueueItem)
    (wait : Bool) :
    ∃ after busy' free', dequeueWait queue wait =
        some (dequeuedOf storage (fifo.await wait).1, after) ∧
      after.Represents busy' free' (fifo.await wait).2 ∧ after.allocated = queue.allocated := by
  have empty := represents.listEmpty_busy
  by_cases waits : (!fifo.exit && wait && fifo.items.isEmpty) = true
  · refine ⟨queue, busy, free, ?_, ?_, rfl⟩
    · simp only [dequeueWait, empty, represents.exit, waits, if_true, Fifo.await, dequeuedOf]
    · simpa only [Fifo.await, waits, if_true] using represents
  · simpa only [dequeueWait, empty, represents.exit, waits, if_false, Fifo.await,
      Bool.false_eq_true] using represents.dequeueItem_ok storage

theorem dequeue_ok (represents : queue.Represents busy free fifo) (storage : QueueItem)
    (wait : Bool) :
    ∃ after busy' free', dequeue queue storage wait =
        some (dequeuedOf storage (fifo.dequeue wait).1, after) ∧
      after.Represents busy' free' (fifo.dequeue wait).2 ∧
      after.allocated = queue.allocated := by
  cases drained : fifo.emptied with
  | true =>
      refine ⟨{ queue with emptied := false }, busy, free, ?_, ?_, rfl⟩
      · simp only [dequeue, represents.emptied, drained, if_true, Fifo.dequeue, dequeuedOf]
      · simp only [Fifo.dequeue, drained, if_true]
        exact { represents with emptied := rfl }
  | false =>
      simpa only [dequeue, represents.emptied, drained, Fifo.dequeue, Bool.false_eq_true,
        if_false] using represents.dequeueWait_ok storage wait

theorem dequeueResume_ok (represents : queue.Represents busy free fifo) (storage : QueueItem)
    (notified : Bool) :
    ∃ after busy' free', dequeueResume queue notified =
        some (dequeuedOf storage (fifo.resume notified).1, after) ∧
      after.Represents busy' free' (fifo.resume notified).2 ∧
      after.allocated = queue.allocated := by
  cases notified with
  | true => exact represents.dequeueWait_ok storage true
  | false => exact represents.dequeueItem_ok storage

/-! ## Removing -/

/-- The loop of `RemoveAll`: the items in front of the cursor were kept. -/
theorem removeAllLoop_ok {σ : Type} (removeCallback : QueueItem → σ → Bool × σ)
    {kept pending : List Nat} {front back : List QueueItem}
    (represents : queue.Represents (kept ++ pending) free { fifo with items := front ++ back })
    (frontContent : kept.map queue.items = front.map some)
    (backContent : pending.map queue.items = back.map some) {steps : Nat}
    (enough : pending.length ≤ steps) (removed : Bool) (state : σ) :
    ∃ after busy' free', removeAllLoop removeCallback steps queue pending.head? removed state =
        some ((removed || (Fifo.consult removeCallback back state).1.any id,
          (Fifo.consult removeCallback back state).2), after) ∧
      after.Represents busy' free' { fifo with
        items := front ++ Fifo.spared back (Fifo.consult removeCallback back state).1 } ∧
      after.allocated = queue.allocated := by
  induction pending generalizing queue kept front back free steps removed state with
  | nil =>
      cases back with
      | nil =>
          refine ⟨queue, kept, free, ?_, by simpa using represents, rfl⟩
          simp [removeAllLoop, Fifo.consult]
      | cons item back => simp at backContent
  | cons node pending ih =>
      cases back with
      | nil => simp at backContent
      | cons item back =>
          simp only [List.map_cons, List.cons.injEq] at backContent
          obtain ⟨steps, rfl⟩ : ∃ rest, steps = rest + 1 :=
            ⟨steps - 1, by simp only [List.length_cons] at enough; omega⟩
          have enough' : pending.length ≤ steps := by
            simp only [List.length_cons] at enough
            omega
          have read := represents.readItem (fun _ => rfl) (show node ∈ _ by simp)
          obtain ⟨data, cell⟩ := represents.busyHolds.cell
          rcases verdict : removeCallback item state with ⟨accepted, state'⟩
          cases accepted with
          | true =>
              obtain ⟨nodes, list, cut, remaining, rewired, _⟩ :=
                listRemove_ok represents.busyHolds
              obtain ⟨nodes', free', added, represents'⟩ :=
                represents.recycle frontContent backContent.2 remaining rewired
              obtain ⟨after, busy', free'', result, final, count⟩ :=
                ih (represents' fifo.emptied) frontContent backContent.2 enough' true state'
              refine ⟨after, busy', free'', ?_, ?_, count⟩
              · have emptied : queue.emptied = fifo.emptied := represents.emptied
                simp only [removeAllLoop, List.head?_cons, read, backContent.1, cell, verdict,
                  cut, added, emptied, Option.bind_eq_bind, Option.bind_some, if_true,
                  Fifo.consult, List.any_cons, id, Bool.true_or, Bool.or_true]
                exact result
              · simpa only [Fifo.consult, verdict, Fifo.spared_accepted] using final
          | false =>
              have shifted : queue.Represents ((kept ++ [node]) ++ pending) free
                  { fifo with items := (front ++ [item]) ++ back } := by
                simpa only [List.append_assoc, List.singleton_append] using represents
              obtain ⟨after, busy', free', result, final, count⟩ :=
                ih shifted (by simp [frontContent, backContent.1]) backContent.2 enough'
                  removed state'
              refine ⟨after, busy', free', ?_, ?_, count⟩
              · simp only [removeAllLoop, List.head?_cons, read, backContent.1, cell, verdict,
                  Option.bind_eq_bind, Option.bind_some, Bool.false_eq_true, if_false,
                  Fifo.consult, List.any_cons, id, Bool.false_or]
                exact result
              · simpa only [Fifo.consult, verdict, Fifo.spared_refused, List.append_assoc,
                  List.singleton_append] using final

theorem removeAll_ok {σ : Type} (represents : queue.Represents busy free fifo)
    (removeCallback : QueueItem → σ → Bool × σ) (state : σ) :
    ∃ after busy' free', removeAll queue removeCallback state =
        some ((fifo.removeAll removeCallback state).1, after) ∧
      after.Represents busy' free' (fifo.removeAll removeCallback state).2 ∧
      after.allocated = queue.allocated := by
  have total := represents.total
  have start : queue.Represents ([] ++ busy) free { fifo with items := [] ++ fifo.items } :=
    represents
  have loop := start.removeAllLoop_ok removeCallback rfl represents.content
    (show busy.length ≤ queue.allocated by omega) false state
  rw [← represents.busyHolds.first] at loop
  exact loop

end Queue.Represents

end Aio4c
