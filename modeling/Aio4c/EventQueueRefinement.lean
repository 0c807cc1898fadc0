import Mathlib.Data.List.Perm.Subperm
import Aio4c.EventQueue
import Aio4c.ListProperties

/-! Sequences of event queue calls against a table from queues and events to
handlers in their order of registration. -/

set_option autoImplicit false

namespace Aio4c

variable {κ : Type}

abbrev HandlerTable (κ : Type) := κ × Event → List EventHandler

/-! ## The table -/

section

variable [DecidableEq κ]

/-- What a call does to the table. -/
def HandlerTable.step (table : HandlerTable κ) : EventCall κ → HandlerTable κ
  | .eventHandlerAdd queue handler =>
      Function.update table (queue, handler.event) (table (queue, handler.event) ++ [handler])
  | .eventHandle queue event _ =>
      Function.update table (queue, event)
        ((table (queue, event)).filter fun handler => !handler.once)
  | .eventHandlerRemove queue event callback =>
      Function.update table (queue, event)
        ((table (queue, event)).filter fun handler => handler.callback != callback)
  | .copyEventQueue dst src data => fun slot =>
      if slot.1 = dst then table slot ++ (table (src, slot.2)).map (EventHandler.copy data)
      else table slot

/-- The callbacks a call calls: each handler of the event, once, in order. -/
def HandlerTable.invocations (table : HandlerTable κ) : EventCall κ → List Invocation
  | .eventHandle queue event source =>
      (table (queue, event)).map (EventHandler.invocation event source)
  | _ => []

def HandlerTable.run (table : HandlerTable κ) (calls : List (EventCall κ)) : HandlerTable κ :=
  calls.foldl HandlerTable.step table

def HandlerTable.runInvocations (table : HandlerTable κ) :
    List (EventCall κ) → List (List Invocation)
  | [] => []
  | call :: calls => table.invocations call :: (table.step call).runInvocations calls

end

/-- The list of handlers that a call may change. -/
def EventCall.Changes (slot : κ × Event) : EventCall κ → Prop
  | .eventHandlerAdd queue handler => slot = (queue, handler.event)
  | .eventHandle queue event _ | .eventHandlerRemove queue event _ => slot = (queue, event)
  | .copyEventQueue dst _ _ => slot.1 = dst

/-- A copy is made between two different queues. -/
def EventCall.Distinct : EventCall κ → Prop
  | .copyEventQueue dst src _ => dst ≠ src
  | _ => True

theorem HandlerTable.step_frame [DecidableEq κ] {call : EventCall κ} {slot : κ × Event}
    (unchanged : ¬ call.Changes slot) (table : HandlerTable κ) :
    table.step call slot = table slot := by
  cases call with
  | eventHandlerAdd queue handler => exact Function.update_of_ne unchanged _ _
  | eventHandle queue event source => exact Function.update_of_ne unchanged _ _
  | eventHandlerRemove queue event callback => exact Function.update_of_ne unchanged _ _
  | copyEventQueue dst src data => exact if_neg unchanged

theorem HandlerTable.run_frame [DecidableEq κ] {calls : List (EventCall κ)} {slot : κ × Event}
    (unchanged : ∀ call ∈ calls, ¬ call.Changes slot) (table : HandlerTable κ) :
    table.run calls slot = table slot := by
  induction calls generalizing table with
  | nil => rfl
  | cons call calls ih =>
      have rest := ih (fun later member => unchanged later (.tail _ member)) (table.step call)
      exact rest.trans (HandlerTable.step_frame (unchanged call (.head _)) table)

/-! ## Heaps that represent a table -/

/-- The handler a node points at. -/
def EventHeap.handlerOf (heap : EventHeap κ) (node : Nat) : Option EventHandler :=
  (nodeData heap.nodes node).bind heap.handlers

/-- Each list holds its own nodes, each node has a handler of its own, and these
are the handlers of the table. -/
structure EventHeap.Represents (heap : EventHeap κ) (chains : κ × Event → List Nat)
    (table : HandlerTable κ) : Prop where
  holds : ∀ slot, (heap.lists slot).Holds heap.nodes (chains slot)
  contents : ∀ slot, (chains slot).map heap.handlerOf = (table slot).map some
  disjoint : ∀ {slot slot' node}, node ∈ chains slot → node ∈ chains slot' → slot = slot'
  owned : ∀ {slot slot' node node'}, node ∈ chains slot → node' ∈ chains slot' →
    nodeData heap.nodes node = nodeData heap.nodes node' → node = node'
  below : ∀ {slot node}, node ∈ chains slot → node < heap.allocated ∧
    ∀ block, nodeData heap.nodes node = some block → block < heap.allocated
  events : ∀ {slot handler}, handler ∈ table slot → handler.event = slot.2

/-- The heap holds the handlers of the table, in its order, and no two lists
share a node or a handler. -/
def EventHeap.Shows (heap : EventHeap κ) (table : HandlerTable κ) : Prop :=
  ∃ chains, heap.Represents chains table

theorem newEventHeap_represents :
    (newEventHeap : EventHeap κ).Represents (fun _ => []) fun _ => [] where
  holds _ := NodeList.initializer_holds _
  contents _ := rfl
  disjoint member := by cases member
  owned member := by cases member
  below member := by cases member
  events member := by cases member

section

variable {heap : EventHeap κ} {chains : κ × Event → List Nat} {table : HandlerTable κ}
  {slot : κ × Event}

theorem EventHeap.Represents.handlerOf_isSome (represents : heap.Represents chains table)
    {node : Nat} (member : node ∈ chains slot) :
    ∃ handler ∈ table slot, heap.handlerOf node = some handler := by
  have inMap : heap.handlerOf node ∈ (table slot).map some :=
    represents.contents slot ▸ List.mem_map_of_mem member
  obtain ⟨handler, found, equality⟩ := List.mem_map.mp inMap
  exact ⟨handler, found, equality.symm⟩

theorem EventHeap.Represents.block (represents : heap.Represents chains table)
    {node : Nat} (member : node ∈ chains slot) :
    ∃ block handler, nodeData heap.nodes node = some block ∧
      heap.handlers block = some handler := by
  obtain ⟨handler, _, found⟩ := represents.handlerOf_isSome member
  obtain ⟨block, data, held⟩ := Option.bind_eq_some_iff.mp found
  exact ⟨block, handler, data, held⟩

theorem EventHeap.Represents.read (represents : heap.Represents chains table)
    {before after : List Nat} {node : Nat} (chain : chains slot = before ++ node :: after) :
    ∃ block handler, heap.nodes node =
        some { data := some block, next := after.head?, prev := before.getLast? } ∧
      nodeData heap.nodes node = some block ∧ heap.handlers block = some handler ∧
      heap.handlerOf node = some handler := by
  obtain ⟨data, found⟩ := (chain ▸ represents.holds slot).cell
  have member : node ∈ chains slot := by simp [chain]
  obtain ⟨block, handler, held, stored⟩ := represents.block member
  have same : data = some block := by simpa [nodeData, found] using held
  exact ⟨block, handler, same ▸ found, held, stored, by simp [EventHeap.handlerOf, held, stored]⟩

/-- Nodes and handlers behind the same number of others match. -/
theorem EventHeap.Represents.rest (represents : heap.Represents chains table)
    {before pending : List Nat} {kept left : List EventHandler}
    (chain : chains slot = before ++ pending) (handlers : table slot = kept ++ left)
    (length : before.length = kept.length) :
    before.map heap.handlerOf = kept.map some ∧ pending.map heap.handlerOf = left.map some := by
  have whole := represents.contents slot
  rw [chain, handlers, List.map_append, List.map_append] at whole
  exact List.append_inj whole (by simpa using length)

/-! ## One list -/

variable [DecidableEq κ]

/-- A heap that differs in one list only, from which it took or to which it gave
nodes and handlers of no other list. -/
theorem EventHeap.Represents.replace (represents : heap.Represents chains table)
    {after : EventHeap κ} {chain : List Nat} {handlers : List EventHandler}
    (lists : ∀ other ≠ slot, after.lists other = heap.lists other)
    (kept : ∀ other ≠ slot, ∀ node ∈ chains other, after.nodes node = heap.nodes node ∧
      after.handlerOf node = heap.handlerOf node)
    (holds : (after.lists slot).Holds after.nodes chain)
    (contents : chain.map after.handlerOf = handlers.map some)
    (apart : ∀ other ≠ slot, ∀ node ∈ chains other, ∀ own ∈ chain, node ≠ own ∧
      nodeData after.nodes node ≠ nodeData after.nodes own)
    (owned : ∀ node ∈ chain, ∀ node' ∈ chain,
      nodeData after.nodes node = nodeData after.nodes node' → node = node')
    (below : ∀ node ∈ chain, node < after.allocated ∧
      ∀ block, nodeData after.nodes node = some block → block < after.allocated)
    (grown : heap.allocated ≤ after.allocated)
    (events : ∀ handler ∈ handlers, handler.event = slot.2) :
    after.Represents (Function.update chains slot chain) (Function.update table slot handlers) := by
  have data : ∀ other ≠ slot, ∀ node ∈ chains other,
      nodeData after.nodes node = nodeData heap.nodes node := fun other differs node member => by
    rw [nodeData, nodeData, (kept other differs node member).1]
  constructor
  · intro other
    by_cases here : other = slot
    · subst here
      simpa using holds
    · rw [lists other here, Function.update_of_ne here]
      exact (represents.holds other).frame fun node member => (kept other here node member).1
  · intro other
    by_cases here : other = slot
    · subst here
      simpa using contents
    · rw [Function.update_of_ne here, Function.update_of_ne here, ← represents.contents other]
      exact List.map_congr_left fun node member => (kept other here node member).2
  · intro left right node inLeft inRight
    by_cases atLeft : left = slot <;> by_cases atRight : right = slot
    · rw [atLeft, atRight]
    · subst atLeft
      rw [Function.update_self] at inLeft
      rw [Function.update_of_ne atRight] at inRight
      exact absurd rfl (apart right atRight node inRight node inLeft).1
    · subst atRight
      rw [Function.update_self] at inRight
      rw [Function.update_of_ne atLeft] at inLeft
      exact absurd rfl (apart left atLeft node inLeft node inRight).1
    · rw [Function.update_of_ne atLeft] at inLeft
      rw [Function.update_of_ne atRight] at inRight
      exact represents.disjoint inLeft inRight
  · intro left right node node' inLeft inRight same
    by_cases atLeft : left = slot <;> by_cases atRight : right = slot
    · subst atLeft atRight
      rw [Function.update_self] at inLeft inRight
      exact owned node inLeft node' inRight same
    · subst atLeft
      rw [Function.update_self] at inLeft
      rw [Function.update_of_ne atRight] at inRight
      exact absurd same.symm (apart right atRight node' inRight node inLeft).2
    · subst atRight
      rw [Function.update_self] at inRight
      rw [Function.update_of_ne atLeft] at inLeft
      exact absurd same (apart left atLeft node inLeft node' inRight).2
    · rw [Function.update_of_ne atLeft] at inLeft
      rw [Function.update_of_ne atRight] at inRight
      rw [data left atLeft node inLeft, data right atRight node' inRight] at same
      exact represents.owned inLeft inRight same
  · intro other node member
    by_cases here : other = slot
    · subst here
      rw [Function.update_self] at member
      exact below node member
    · rw [Function.update_of_ne here] at member
      obtain ⟨node_lt, block_lt⟩ := represents.below member
      rw [data other here node member]
      exact ⟨by omega, fun block held => by
        have := block_lt block held
        omega⟩
  · intro other handler member
    by_cases here : other = slot
    · subst here
      rw [Function.update_self] at member
      exact events handler member
    · rw [Function.update_of_ne here] at member
      exact represents.events member

theorem EventHeap.Represents.add_ok (represents : heap.Represents chains table)
    {handler : EventHandler} (event : handler.event = slot.2) :
    ∃ after, addLastHandler (newEventHandler heap handler).2 slot (newEventHandler heap handler).1 =
        some after ∧
      after.Represents (Function.update chains slot (chains slot ++ [heap.allocated + 1]))
        (Function.update table slot (table slot ++ [handler])) := by
  have old : ∀ other, ∀ node ∈ chains other,
      newNode heap.nodes (heap.allocated + 1) (some heap.allocated) node = heap.nodes node :=
    fun other node member => Function.update_of_ne (by
      have := (represents.below member).1
      omega) _ _
  have fresh : ∀ other, heap.allocated + 1 ∉ chains other := fun other member => by
    have := (represents.below member).1
    omega
  have made : nodeData (newNode heap.nodes (heap.allocated + 1) (some heap.allocated))
      (heap.allocated + 1) = some heap.allocated := by
    simp [nodeData, newNode]
  obtain ⟨nodes, list, added, holds, rewired⟩ := listAddLast_ok
    ((represents.holds slot).frame (old slot)) (fresh slot) (by simp [made])
  have data : ∀ other, ∀ node ∈ chains other, nodeData nodes node = nodeData heap.nodes node :=
    fun other node member => by
      rw [rewired.data, nodeData, nodeData, old other node member]
  have newData : nodeData nodes (heap.allocated + 1) = some heap.allocated := by
    rw [rewired.data, made]
  have older : ∀ other, ∀ node ∈ chains other, nodeData nodes node ≠ some heap.allocated :=
    fun other node member held => by
      have := (represents.below member).2 _ (data other node member ▸ held)
      omega
  have handlerOf : ∀ other, ∀ node ∈ chains other,
      (nodeData nodes node).bind
        (Function.update heap.handlers heap.allocated (some handler)) = heap.handlerOf node :=
    fun other node member => by
      obtain ⟨block, _, held, _⟩ := represents.block member
      have differs : block ≠ heap.allocated := by
        have := (represents.below member).2 block held
        omega
      simp [EventHeap.handlerOf, data other node member, held, Function.update_of_ne differs]
  refine ⟨{ nodes, handlers := Function.update heap.handlers heap.allocated (some handler),
            allocated := heap.allocated + 1 + 1, lists := Function.update heap.lists slot list },
    by simp [addLastHandler, newEventHandler, added], represents.replace ?_ ?_ ?_ ?_ ?_ ?_ ?_ ?_ ?_⟩
  · exact fun other differs => Function.update_of_ne differs _ _
  · intro other differs node member
    have outside : node ∉ (heap.allocated + 1) :: chains slot := fun inside => by
      rcases List.mem_cons.mp inside with rfl | shared
      · exact fresh other member
      · exact differs (represents.disjoint member shared)
    exact ⟨(rewired.outside node outside).trans (old other node member),
      handlerOf other node member⟩
  · simpa using holds
  · rw [List.map_append, List.map_append, ← represents.contents slot]
    congr 1
    · exact List.map_congr_left (handlerOf slot)
    · simp [EventHeap.handlerOf, newData]
  · intro other differs node member own inChain
    rcases List.mem_append.mp inChain with shared | single
    · have distinct : node ≠ own := by
        intro equal
        subst equal
        exact differs (represents.disjoint member shared)
      refine ⟨distinct, fun same => distinct (represents.owned member shared ?_)⟩
      rwa [data other node member, data slot own shared] at same
    · cases List.mem_singleton.mp single
      exact ⟨fun equality => fresh other (equality ▸ member),
        fun same => older other node member (same.trans newData)⟩
  · intro node member node' member' same
    rcases List.mem_append.mp member with inChain | single <;>
      rcases List.mem_append.mp member' with inChain' | single'
    · exact represents.owned inChain inChain' (by
        rwa [data slot node inChain, data slot node' inChain'] at same)
    · cases List.mem_singleton.mp single'
      exact absurd (same.trans newData) (older slot node inChain)
    · cases List.mem_singleton.mp single
      exact absurd (same.symm.trans newData) (older slot node' inChain')
    · rw [List.mem_singleton.mp single, List.mem_singleton.mp single']
  · intro node member
    rcases List.mem_append.mp member with inChain | single
    · obtain ⟨node_lt, block_lt⟩ := represents.below inChain
      refine ⟨Nat.lt_add_right 2 node_lt, fun block held => ?_⟩
      exact Nat.lt_add_right 2 (block_lt block (data slot node inChain ▸ held))
    · cases List.mem_singleton.mp single
      refine ⟨Nat.lt_succ_self _, fun block held => ?_⟩
      cases newData.symm.trans held
      exact Nat.lt_add_of_pos_right Nat.two_pos
  · exact Nat.le_add_right _ 2
  · intro other member
    rcases List.mem_append.mp member with old | single
    · exact represents.events old
    · rw [List.mem_singleton.mp single, event]

theorem EventHeap.Represents.drop_ok (represents : heap.Represents chains table)
    {before after : List Nat} {node block : Nat} {kept left : List EventHandler}
    {handler : EventHandler} (chain : chains slot = before ++ node :: after)
    (held : nodeData heap.nodes node = some block) (handlers : table slot = kept ++ handler :: left)
    (length : before.length = kept.length) :
    ∃ heap', dropHandler heap slot node block = some heap' ∧
      heap'.Represents (Function.update chains slot (before ++ after))
        (Function.update table slot (kept ++ left)) := by
  obtain ⟨nodes, list, removed, holds, rewired, _⟩ := listRemove_ok (chain ▸ represents.holds slot)
  have member : node ∈ chains slot := by simp [chain]
  have sub : ∀ {other}, other ∈ before ++ after → other ∈ chains slot := fun {other} inRest => by
    rw [chain]
    exact (List.Sublist.append_left (List.sublist_cons_self _ _) _).mem inRest
  have absent : node ∉ before ++ after :=
    (List.nodup_middle.mp (chain ▸ represents.holds slot).nodup).notMem
  have nodeAt : ∀ {other}, other ≠ node →
      Function.update nodes node none other = nodes other :=
    fun differs => Function.update_of_ne differs _ _
  have data : ∀ {other}, other ≠ node →
      nodeData (Function.update nodes node none) other = nodeData heap.nodes other :=
    fun {other} differs => by
      rw [nodeData, nodeAt differs]
      exact rewired.data other
  have handlerOf : ∀ {slot' other}, other ∈ chains slot' → other ≠ node →
      (nodeData (Function.update nodes node none) other).bind
        (Function.update heap.handlers block none) = heap.handlerOf other :=
    fun {slot' other} inChain differs => by
      obtain ⟨block', _, held', _⟩ := represents.block inChain
      have apart : block' ≠ block := by
        intro equal
        subst equal
        exact differs (represents.owned inChain member (held'.trans held.symm))
      simp [EventHeap.handlerOf, data differs, held', Function.update_of_ne apart]
  refine ⟨{ nodes := Function.update nodes node none,
            handlers := Function.update heap.handlers block none,
            allocated := heap.allocated, lists := Function.update heap.lists slot list },
    by simp [dropHandler, removed], represents.replace ?_ ?_ ?_ ?_ ?_ ?_ ?_ ?_ ?_⟩
  · exact fun other differs => Function.update_of_ne differs _ _
  · intro slot' differs other inChain
    have outside : other ∉ before ++ node :: after := fun inside =>
      differs (represents.disjoint inChain (chain ▸ inside))
    have distinct : other ≠ node := by
      intro equal
      subst equal
      simp at outside
    exact ⟨(nodeAt distinct).trans (rewired.outside other outside), handlerOf inChain distinct⟩
  · simp only [Function.update_self]
    exact holds.frame fun other inRest => nodeAt fun same => absent (same ▸ inRest)
  · obtain ⟨front, back⟩ := represents.rest chain handlers length
    have rest : (before ++ after).map heap.handlerOf = (kept ++ left).map some := by
      rw [List.map_append, List.map_append, front, (List.cons.inj back).2]
    rw [← rest]
    exact List.map_congr_left fun other inRest =>
      handlerOf (sub inRest) fun same => absent (same ▸ inRest)
  · intro slot' differs other inChain own inRest
    have distinct : other ≠ own := by
      intro equal
      subst equal
      exact differs (represents.disjoint inChain (sub inRest))
    have notNode : other ≠ node := by
      intro equal
      subst equal
      exact differs (represents.disjoint inChain member)
    refine ⟨distinct, fun same => distinct (represents.owned inChain (sub inRest) ?_)⟩
    rwa [data notNode, data fun same => absent (same ▸ inRest)] at same
  · intro left inLeft right inRight same
    rw [data fun equality => absent (equality ▸ inLeft),
      data fun equality => absent (equality ▸ inRight)] at same
    exact represents.owned (sub inLeft) (sub inRight) same
  · intro other inRest
    rw [data fun same => absent (same ▸ inRest)]
    exact represents.below (sub inRest)
  · exact Nat.le_refl _
  · intro other inRest
    have inTable : other ∈ table slot := by
      rw [handlers]
      exact (List.Sublist.append_left (List.sublist_cons_self _ _) _).mem inRest
    exact represents.events inTable

/-! ## The loops -/

/-- The loop reads every handler that is left and drops the ones it is to drop.
By induction on these; `dropHandler` keeps the two parts of the chain. -/
theorem sweepHandlers_ok (drop : EventHandler → Bool) {before pending : List Nat}
    {kept left : List EventHandler} {steps : Nat} (represents : heap.Represents chains table)
    (chain : chains slot = before ++ pending) (handlers : table slot = kept ++ left)
    (length : before.length = kept.length) (enough : pending.length ≤ steps) :
    ∃ heap' chains', sweepHandlers drop slot steps heap pending.head? = some (left, heap') ∧
      heap'.Represents chains' (Function.update table slot
        (kept ++ left.filter fun handler => !drop handler)) := by
  have total : pending.length = left.length := by
    simpa using congrArg List.length (represents.rest chain handlers length).2
  induction pending generalizing heap chains table before kept left steps with
  | nil =>
      cases List.length_eq_zero_iff.mp total.symm
      refine ⟨heap, chains, by cases steps <;> rfl, ?_⟩
      rwa [List.filter_nil, ← handlers, Function.update_eq_self]
  | cons node pending ih =>
      cases left with
      | nil => cases total
      | cons handler left =>
          cases steps with
          | zero => cases enough
          | succ steps =>
              obtain ⟨block, found, read, held, stored, shown⟩ := represents.read chain
              have same : found = handler := Option.some.inj
                (shown.symm.trans (List.cons.inj (represents.rest chain handlers length).2).1)
              subst same
              cases dropped : drop found with
              | true =>
                  obtain ⟨heap', removed, represents'⟩ :=
                    represents.drop_ok chain held handlers length
                  obtain ⟨last, chains', swept, final⟩ := ih represents'
                    (by simp) (by simp) length (Nat.le_of_succ_le_succ enough)
                    (Nat.succ.inj total)
                  refine ⟨last, chains', ?_, ?_⟩
                  · simp [sweepHandlers, read, stored, dropped, removed, swept]
                  · simpa [dropped] using final
              | false =>
                  have chain' : chains slot = (before ++ [node]) ++ pending := by simp [chain]
                  have handlers' : table slot = (kept ++ [found]) ++ left := by simp [handlers]
                  obtain ⟨last, chains', swept, final⟩ := ih represents chain' handlers'
                    (by simp [length]) (Nat.le_of_succ_le_succ enough) (Nat.succ.inj total)
                  refine ⟨last, chains', ?_, ?_⟩
                  · simp [sweepHandlers, read, stored, dropped, swept]
                  · simpa [dropped] using final

/-- The inner loop of a copy adds the handlers that are left, one by one, and
leaves the source's list as it is. By induction on them. -/
theorem copyHandlers_ok {dst src : κ} (distinct : dst ≠ src) (data : Option Nat) {event : Event}
    {before pending : List Nat} {kept left : List EventHandler} {steps : Nat}
    (represents : heap.Represents chains table) (chain : chains (src, event) = before ++ pending)
    (handlers : table (src, event) = kept ++ left) (length : before.length = kept.length)
    (enough : pending.length ≤ steps) :
    ∃ heap' chains', copyHandlers dst data event steps heap pending.head? = some heap' ∧
      heap'.Represents chains' (Function.update table (dst, event)
        (table (dst, event) ++ left.map (EventHandler.copy data))) := by
  have total : pending.length = left.length := by
    simpa using congrArg List.length (represents.rest chain handlers length).2
  have other : (src, event) ≠ (dst, event) := fun same => distinct (congrArg Prod.fst same).symm
  induction pending generalizing heap chains table before kept left steps with
  | nil =>
      cases List.length_eq_zero_iff.mp total.symm
      refine ⟨heap, chains, by cases steps <;> rfl, ?_⟩
      rwa [List.map_nil, List.append_nil, Function.update_eq_self]
  | cons node pending ih =>
      cases left with
      | nil => cases total
      | cons handler left =>
          cases steps with
          | zero => cases enough
          | succ steps =>
              obtain ⟨block, found, read, held, stored, shown⟩ := represents.read chain
              have same : found = handler := Option.some.inj
                (shown.symm.trans (List.cons.inj (represents.rest chain handlers length).2).1)
              subst same
              have copied : (found.copy data).event = event := by
                have member : found ∈ table (src, event) := by simp [handlers]
                have own : found.event = event := represents.events member
                cases data <;> exact own
              have sameEvent : (found.copy data).event = (dst, event).2 := copied
              obtain ⟨heap', added, represents'⟩ := represents.add_ok sameEvent
              have chain' : Function.update chains (dst, event)
                  (chains (dst, event) ++ [heap.allocated + 1]) (src, event) =
                    before ++ node :: pending := by
                rw [Function.update_of_ne other, chain]
              obtain ⟨block', found', read', _⟩ := represents'.read chain'
              have next : Function.update chains (dst, event)
                  (chains (dst, event) ++ [heap.allocated + 1]) (src, event) =
                    (before ++ [node]) ++ pending := by
                simp [chain']
              have handlers' : Function.update table (dst, event)
                  (table (dst, event) ++ [found.copy data]) (src, event) =
                    (kept ++ [found]) ++ left := by
                simp [Function.update_of_ne other, handlers]
              obtain ⟨last, chains'', rest, final⟩ := ih represents' next handlers'
                (by simp [length]) (Nat.le_of_succ_le_succ enough) (Nat.succ.inj total)
              refine ⟨last, chains'', ?_, ?_⟩
              · simp [copyHandlers, read, stored, added, read', rest]
              · simpa using final

omit [DecidableEq κ] in
theorem EventHeap.Represents.length_le (represents : heap.Represents chains table)
    (slot : κ × Event) : (chains slot).length ≤ heap.allocated := by
  have inside : chains slot ⊆ List.range heap.allocated := fun node member =>
    List.mem_range.mpr (represents.below member).1
  simpa using (List.Nodup.subperm (represents.holds slot).nodup inside).length_le

theorem EventHeap.Represents.sweep (represents : heap.Represents chains table)
    (drop : EventHandler → Bool) (slot : κ × Event) :
    ∃ heap' chains', sweepHandlers drop slot heap.allocated heap (heap.lists slot).first =
        some (table slot, heap') ∧
      heap'.Represents chains' (Function.update table slot
        ((table slot).filter fun handler => !drop handler)) := by
  rw [(represents.holds slot).first]
  have chain : chains slot = [] ++ chains slot := rfl
  have handlers : table slot = [] ++ table slot := rfl
  exact sweepHandlers_ok drop represents chain handlers rfl (represents.length_le slot)

/-- The outer loop of a copy, over the events that are left. By induction on
them; each is copied once. -/
theorem copyEvents_ok {dst src : κ} (distinct : dst ≠ src) (data : Option Nat)
    {events : List Event} (once : events.Nodup) (represents : heap.Represents chains table) :
    ∃ heap' chains', events.foldlM (fun heap event => copyHandlers dst data event heap.allocated
        heap (heap.lists (src, event)).first) heap = some heap' ∧
      heap'.Represents chains' fun slot =>
        if slot.1 = dst ∧ slot.2 ∈ events
        then table slot ++ (table (src, slot.2)).map (EventHandler.copy data)
        else table slot := by
  induction events generalizing heap chains table with
  | nil => exact ⟨heap, chains, rfl, by simpa using represents⟩
  | cons event events ih =>
      obtain ⟨fresh, once⟩ := List.nodup_cons.mp once
      have chain : chains (src, event) = [] ++ chains (src, event) := rfl
      have handlers : table (src, event) = [] ++ table (src, event) := rfl
      obtain ⟨next, chains', copied, represents'⟩ :=
        copyHandlers_ok distinct data represents chain handlers rfl
          (represents.length_le (src, event))
      obtain ⟨last, chains'', rest, final⟩ := ih once represents'
      refine ⟨last, chains'', ?_, ?_⟩
      · rw [List.foldlM_cons, (represents.holds (src, event)).first, copied]
        exact rest
      · refine cast (congrArg (EventHeap.Represents last chains'') (funext fun slot => ?_)) final
        obtain ⟨queue, current⟩ := slot
        by_cases target : queue = dst
        · subst target
          by_cases here : current = event
          · subst here
            simp [fresh]
          · simp [here]
        · simp [target]

/-! ## Sequences of calls -/

theorem eventCall_ok (represents : heap.Represents chains table) {call : EventCall κ}
    (distinct : call.Distinct) :
    ∃ heap' chains', eventCall heap call = some (table.invocations call, heap') ∧
      heap'.Represents chains' (table.step call) := by
  cases call with
  | eventHandlerAdd queue handler =>
      have own : handler.event = (queue, handler.event).2 := rfl
      obtain ⟨heap', added, represents'⟩ := represents.add_ok own
      refine ⟨heap', _, ?_, represents'⟩
      have stored : (newEventHandler heap handler).2.handlers (newEventHandler heap handler).1 =
          some handler := by simp [newEventHandler]
      simp [eventCall, EventHeap.eventHandlerAdd, stored, added, HandlerTable.invocations]
  | eventHandle queue event source =>
      obtain ⟨heap', chains', swept, represents'⟩ :=
        represents.sweep (fun handler => handler.once) (queue, event)
      exact ⟨heap', chains', by
        simp [eventCall, EventHeap.eventHandle, swept, HandlerTable.invocations], represents'⟩
  | eventHandlerRemove queue event callback =>
      obtain ⟨heap', chains', swept, represents'⟩ :=
        represents.sweep (fun handler => handler.callback == callback) (queue, event)
      exact ⟨heap', chains', by
        simp [eventCall, EventHeap.eventHandlerRemove, swept, HandlerTable.invocations], represents'⟩
  | copyEventQueue dst src data =>
      obtain ⟨heap', chains', copied, represents'⟩ :=
        copyEvents_ok distinct data (show Event.all.Nodup by decide) represents
      refine ⟨heap', chains', by
        simp [eventCall, EventHeap.copyEventQueue, copied, HandlerTable.invocations], ?_⟩
      simp only [Event.mem_all, and_true] at represents'
      exact represents'

theorem eventCalls_ok {calls : List (EventCall κ)} (represents : heap.Represents chains table)
    (distinct : ∀ call ∈ calls, call.Distinct) :
    ∃ heap' chains', eventCalls heap calls = some (table.runInvocations calls, heap') ∧
      heap'.Represents chains' (table.run calls) := by
  induction calls generalizing heap chains table with
  | nil => exact ⟨heap, chains, rfl, represents⟩
  | cons call calls ih =>
      obtain ⟨next, _, first, represents'⟩ := eventCall_ok represents (distinct call (.head _))
      obtain ⟨last, chains'', rest, final⟩ :=
        ih represents' fun later member => distinct later (.tail _ member)
      exact ⟨last, chains'', by
        simp [eventCalls, first, rest, HandlerTable.runInvocations], final⟩

end

/-- From new queues, every sequence of calls without a copy onto itself returns,
calls the callbacks the table says and leaves the handlers the table says. And
however it goes on, a list of handlers that no further call is about is the same
in the end. -/
theorem newEventHeap_refines [DecidableEq κ] (calls later : List (EventCall κ))
    (distinct : ∀ call ∈ calls ++ later, call.Distinct) :
    ∃ heap heap', eventCalls newEventHeap calls =
        some (HandlerTable.runInvocations (fun _ => []) calls, heap) ∧
      heap.Shows (HandlerTable.run (fun _ => []) calls) ∧
      eventCalls heap later =
        some ((HandlerTable.run (fun _ => []) calls).runInvocations later, heap') ∧
      heap'.Shows ((HandlerTable.run (fun _ => []) calls).run later) ∧
      ∀ slot, (∀ call ∈ later, ¬ call.Changes slot) →
        (HandlerTable.run (fun _ => []) calls).run later slot =
          HandlerTable.run (fun _ => []) calls slot := by
  obtain ⟨heap, chains, first, represents⟩ := eventCalls_ok newEventHeap_represents
    fun call member => distinct call (List.mem_append_left _ member)
  obtain ⟨heap', chains', rest, represents'⟩ := eventCalls_ok represents
    fun call member => distinct call (List.mem_append_right _ member)
  exact ⟨heap, heap', first, ⟨chains, represents⟩, rest, ⟨chains', represents'⟩,
    fun slot unchanged => HandlerTable.run_frame unchanged _⟩

theorem newEventHeap_refines_once :
    ∃ heap heap' : EventHeap Nat, ∃ table, eventCalls newEventHeap
        [.eventHandlerAdd 0 { event := .read, once := true, callback := 7, data := some 1 },
          .copyEventQueue 1 0 (some 5)] = some ([[], []], heap) ∧
      eventCalls heap [.eventHandle 1 .read 3, .eventHandle 1 .read 3] =
        some ([[{ callback := 7, event := .read, source := 3, data := some 5 }], []], heap') ∧
      heap'.Shows table ∧
      table (0, .read) = [{ event := .read, once := true, callback := 7, data := some 1 }] := by
  obtain ⟨heap, heap', first, _, rest, shows', frame⟩ := newEventHeap_refines
    [.eventHandlerAdd 0 { event := .read, once := true, callback := 7, data := some 1 },
      .copyEventQueue 1 0 (some 5)]
    [.eventHandle 1 .read 3, .eventHandle 1 .read 3] (by simp [EventCall.Distinct])
  exact ⟨heap, heap', _, first, rest, shows', frame (0, .read) (by simp [EventCall.Changes])⟩

/-- What holds of the two copies and of every dispatch holds of every call on a
connection that a factory made. -/
theorem ConnectionHandlers.calls {factory connection : ConnectionHandlers κ} {data : Option Nat}
    {source : Nat} {events : List Event} {P : EventCall κ → Prop}
    (user : P (.copyEventQueue connection.userHandlers factory.userHandlers data))
    (system : P (.copyEventQueue connection.systemHandlers factory.systemHandlers none))
    (handled : ∀ event, P (.eventHandle connection.systemHandlers event source) ∧
      P (.eventHandle connection.userHandlers event source)) :
    ∀ call ∈ factory.connectionFactoryCreate connection data ++
      events.flatMap (connection.connectionEventHandle source), P call := by
  intro call member
  simp only [connectionFactoryCreate, connectionEventHandle, List.mem_append, List.mem_flatMap,
    List.mem_cons, List.not_mem_nil, or_false] at member
  rcases member with (rfl | rfl) | ⟨event, _, rfl | rfl⟩
  · exact user
  · exact system
  · exact (handled event).1
  · exact (handled event).2

/-- Whatever is dispatched on a connection that a factory made, every other
queue keeps its handlers, those of the factory too. -/
theorem connectionFactoryCreate_isolated [DecidableEq κ] {heap : EventHeap κ}
    {table : HandlerTable κ} {factory connection : ConnectionHandlers κ} (shown : heap.Shows table)
    (user : connection.userHandlers ≠ factory.userHandlers)
    (system : connection.systemHandlers ≠ factory.systemHandlers) (data : Option Nat)
    (source : Nat) (events : List Event) :
    ∃ invocations heap' table', eventCalls heap (factory.connectionFactoryCreate connection data ++
        events.flatMap (connection.connectionEventHandle source)) = some (invocations, heap') ∧
      heap'.Shows table' ∧ ∀ slot, slot.1 ≠ connection.userHandlers →
        slot.1 ≠ connection.systemHandlers → table' slot = table slot := by
  obtain ⟨chains, represents⟩ := shown
  obtain ⟨heap', chains', called, represents'⟩ := eventCalls_ok represents
    (ConnectionHandlers.calls user system fun _ => ⟨trivial, trivial⟩)
  refine ⟨_, heap', _, called, ⟨chains', represents'⟩, fun slot notUser notSystem =>
    HandlerTable.run_frame (ConnectionHandlers.calls notUser notSystem fun event => ?_) table⟩
  exact ⟨fun same => notSystem (congrArg Prod.fst same),
    fun same => notUser (congrArg Prod.fst same)⟩

end Aio4c
