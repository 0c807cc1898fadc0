import Aio4c.Destructors
import Aio4c.EventQueueRefinement

/-! The memory of event queues. Every node and every handler that is allocated hangs in one
of the lists, so a queue that is freed takes its own away and the last one leaves none. -/

set_option autoImplicit false

namespace Aio4c

variable {κ : Type} [DecidableEq κ]

/-- `while ((j = ListPop(&queue->handlers[i])) != NULL)`. -/
def freeHandlers (heap : EventHeap κ) (slot : κ × Event) : Option (EventHeap κ) := do
  let (_, nodes, handlers) ← freeNodes heap.allocated heap.nodes heap.handlers (heap.lists slot)
  pure { heap with
    nodes, handlers, lists := Function.update heap.lists slot NodeList.initializer }

/-- `FreeEventQueue`. -/
def EventHeap.freeEventQueue (heap : EventHeap κ) (queue : κ) : Option (EventHeap κ) :=
  Event.all.foldlM (fun heap event => freeHandlers heap (queue, event)) heap

/-- What is allocated is in the lists: nodes as their members, handlers behind these. -/
structure EventHeap.Owned (heap : EventHeap κ) (chains : κ × Event → List Nat) : Prop where
  nodes : ∀ node, (heap.nodes node).isSome → ∃ slot, node ∈ chains slot
  handlers : ∀ block, (heap.handlers block).isSome →
    ∃ slot, ∃ node ∈ chains slot, nodeData heap.nodes node = some block

/-- The lists hold the handlers of the table, and nothing else is allocated. -/
def EventHeap.Holds (heap : EventHeap κ) (table : HandlerTable κ) : Prop :=
  ∃ chains, heap.Represents chains table ∧ heap.Owned chains

omit [DecidableEq κ] in
theorem newEventHeap_holds : (newEventHeap : EventHeap κ).Holds fun _ => [] :=
  ⟨fun _ => [], newEventHeap_represents, by simp [newEventHeap], by simp [newEventHeap]⟩

section

variable {heap : EventHeap κ} {chains : κ × Event → List Nat} {table : HandlerTable κ}
  {slot : κ × Event}

/-- What stays in the lists when one list gets another chain. -/
theorem EventHeap.Owned.replace {after : EventHeap κ} {chain : List Nat}
    (owned : heap.Owned chains)
    (nodes : ∀ node, (after.nodes node).isSome → node ∉ chain →
      (heap.nodes node).isSome ∧ node ∉ chains slot)
    (handlers : ∀ block, (after.handlers block).isSome →
      (∃ node ∈ chain, nodeData after.nodes node = some block) ∨ (heap.handlers block).isSome ∧
        ∀ node ∈ chains slot, nodeData heap.nodes node ≠ some block)
    (kept : ∀ other ≠ slot, ∀ node ∈ chains other,
      nodeData after.nodes node = nodeData heap.nodes node) :
    after.Owned (Function.update chains slot chain) where
  nodes node present := by
    by_cases member : node ∈ chain
    · exact ⟨slot, by simpa using member⟩
    · obtain ⟨old, outside⟩ := nodes node present member
      obtain ⟨other, inOther⟩ := owned.nodes node old
      refine ⟨other, ?_⟩
      rw [Function.update_of_ne]
      · exact inOther
      · rintro rfl
        exact outside inOther
  handlers block present := by
    rcases handlers block present with ⟨node, member, data⟩ | ⟨old, outside⟩
    · exact ⟨slot, node, by simpa using member, data⟩
    · obtain ⟨other, node, inOther, data⟩ := owned.handlers block old
      have differs : other ≠ slot := by
        rintro rfl
        exact outside node inOther data
      refine ⟨other, node, ?_, ?_⟩
      · rw [Function.update_of_ne differs]
        exact inOther
      · rw [kept other differs node inOther, data]

omit [DecidableEq κ] in
/-- The handler of another list is behind no node of this one. -/
theorem EventHeap.Represents.elsewhere (represents : heap.Represents chains table)
    {other : κ × Event} {node block : Nat} (member : node ∈ chains other) (differs : other ≠ slot)
    (held : nodeData heap.nodes node = some block) :
    ∀ node' ∈ chains slot, nodeData heap.nodes node' ≠ some block := by
  intro node' member' held'
  have same := represents.owned member member' (held.trans held'.symm)
  exact differs (represents.disjoint member (same ▸ member'))

/-- A handler that is added hangs in its list. -/
theorem EventHeap.Represents.add_owned (represents : heap.Represents chains table)
    (owned : heap.Owned chains) {handler : EventHandler} {after : EventHeap κ}
    (added : addLastHandler (newEventHandler heap handler).2 slot (newEventHandler heap handler).1 =
      some after) :
    after.Owned (Function.update chains slot (chains slot ++ [heap.allocated + 1])) := by
  have fresh : ∀ other, heap.allocated + 1 ∉ chains other := fun other member => by
    have := (represents.below member).1
    omega
  have old : ∀ other, ∀ node ∈ chains other,
      newNode heap.nodes (heap.allocated + 1) (some heap.allocated) node = heap.nodes node := by
    intro other node member
    apply Function.update_of_ne
    rintro rfl
    exact fresh other member
  have made : nodeData (newNode heap.nodes (heap.allocated + 1) (some heap.allocated))
      (heap.allocated + 1) = some heap.allocated := by
    simp [nodeData, newNode]
  obtain ⟨nodes, list, linked, _, rewired⟩ := listAddLast_ok
    ((represents.holds slot).frame (old slot)) (fresh slot) (by simp [made])
  have result : after = { heap with
      nodes, handlers := Function.update heap.handlers heap.allocated (some handler)
      allocated := heap.allocated + 1 + 1, lists := Function.update heap.lists slot list } := by
    simpa [addLastHandler, newEventHandler, linked] using added.symm
  subst result
  have data : ∀ other, ∀ node ∈ chains other, nodeData nodes node = nodeData heap.nodes node := by
    intro other node member
    rw [rewired.data, nodeData, nodeData, old other node member]
  apply owned.replace
  · intro node present absent
    simp only [List.mem_append, List.mem_singleton, not_or] at absent
    obtain ⟨outside, differs⟩ := absent
    have same := rewired.outside node (by simp [outside, differs])
    rw [newNode, Function.update_of_ne differs] at same
    exact ⟨same ▸ present, outside⟩
  · intro block present
    by_cases new : block = heap.allocated
    · subst new
      exact .inl ⟨_, List.mem_append_right _ (List.mem_singleton_self _), by
        rw [rewired.data, made]⟩
    · simp only [Function.update_of_ne new] at present
      obtain ⟨other, node, member, held⟩ := owned.handlers block present
      by_cases here : other = slot
      · subst here
        exact .inl ⟨node, List.mem_append_left _ member, (data other node member).trans held⟩
      · exact .inr ⟨present, represents.elsewhere member here held⟩
  · exact fun other _ => data other

/-- A handler that is dropped goes with its node. -/
theorem EventHeap.Represents.drop_owned (represents : heap.Represents chains table)
    (owned : heap.Owned chains) {before after : List Nat} {node block : Nat}
    {dropped : EventHeap κ} (chain : chains slot = before ++ node :: after)
    (held : nodeData heap.nodes node = some block)
    (drops : dropHandler heap slot node block = some dropped) :
    dropped.Owned (Function.update chains slot (before ++ after)) := by
  obtain ⟨nodes, list, removed, _, rewired, _⟩ := listRemove_ok (chain ▸ represents.holds slot)
  have result : dropped = { heap with
      nodes := Function.update nodes node none
      handlers := Function.update heap.handlers block none
      lists := Function.update heap.lists slot list } := by
    simpa [dropHandler, removed] using drops.symm
  subst result
  have inChain : node ∈ chains slot := by simp [chain]
  have data : ∀ other, other ≠ node →
      nodeData (Function.update nodes node none) other = nodeData heap.nodes other := by
    intro other differs
    rw [nodeData, Function.update_of_ne differs]
    exact rewired.data other
  apply owned.replace
  · intro other present absent
    have differs : other ≠ node := by
      rintro rfl
      simp at present
    have outside : other ∉ before ++ node :: after := by
      simpa [differs] using absent
    simp only [Function.update_of_ne differs, rewired.outside other outside] at present
    exact ⟨present, chain ▸ outside⟩
  · intro left present
    have differs : left ≠ block := by
      rintro rfl
      simp at present
    simp only [Function.update_of_ne differs] at present
    obtain ⟨other, behind, member, stored⟩ := owned.handlers left present
    by_cases here : other = slot
    · subst here
      have apart : behind ≠ node := by
        rintro rfl
        exact differs (Option.some.inj (stored.symm.trans held))
      refine .inl ⟨behind, ?_, (data behind apart).trans stored⟩
      simpa [chain, apart] using member
    · exact .inr ⟨present, represents.elsewhere member here stored⟩
  · intro other differs own member
    apply data
    rintro rfl
    exact differs (represents.disjoint member inChain)

/-! ## The loops -/

omit [DecidableEq κ] in
/-- The handlers of the table around a node of the chain. -/
theorem EventHeap.Represents.split (represents : heap.Represents chains table)
    {before after : List Nat} {node : Nat} (chain : chains slot = before ++ node :: after) :
    ∃ kept handler left, table slot = kept ++ handler :: left ∧ before.length = kept.length := by
  have total : (chains slot).length = (table slot).length := by
    simpa using congrArg List.length (represents.contents slot)
  have inside : before.length < (table slot).length := by
    rw [← total, chain]
    simp
  refine ⟨(table slot).take before.length, (table slot)[before.length],
    (table slot).drop (before.length + 1), ?_, ?_⟩
  · simp
  · simp [Nat.le_of_lt inside]

/-- The sweep over one list leaves what is allocated in the lists. By induction on the nodes
that are left. -/
theorem sweepHandlers_owned (drop : EventHandler → Bool) {before pending : List Nat}
    {steps : Nat} {handlers : List EventHandler} {after : EventHeap κ}
    (represents : heap.Represents chains table) (owned : heap.Owned chains)
    (chain : chains slot = before ++ pending)
    (swept : sweepHandlers drop slot steps heap pending.head? = some (handlers, after)) :
    ∃ chains' table', after.Represents chains' table' ∧ after.Owned chains' := by
  induction pending generalizing heap chains table before steps handlers with
  | nil =>
      have same : heap = after := by
        cases steps <;> simp [sweepHandlers] at swept <;> exact swept.2
      exact ⟨chains, table, same ▸ represents, same ▸ owned⟩
  | cons node pending ih =>
      cases steps with
      | zero => cases swept
      | succ steps =>
          obtain ⟨block, found, read, held, stored, _⟩ := represents.read chain
          simp only [List.head?_cons, sweepHandlers, read, stored, Option.bind_eq_bind,
            Option.bind_some] at swept
          cases dropped : drop found with
          | true =>
              obtain ⟨kept, handler, left, split, length⟩ := represents.split chain
              obtain ⟨next, removed, represents'⟩ := represents.drop_ok chain held split length
              have owned' := represents.drop_owned owned chain held removed
              simp only [dropped, removed, if_true, Option.bind_some] at swept
              obtain ⟨⟨rest, last⟩, goes, equal⟩ := Option.bind_eq_some_iff.mp swept
              cases equal
              exact ih represents' owned' (Function.update_self slot (before ++ pending) chains) goes
          | false =>
              have further : chains slot = (before ++ [node]) ++ pending := by simp [chain]
              simp only [dropped, Bool.false_eq_true, if_false] at swept
              obtain ⟨⟨rest, last⟩, goes, equal⟩ := Option.bind_eq_some_iff.mp swept
              cases equal
              exact ih represents owned further goes

/-- The inner loop of a copy hangs every copy in its list. By induction on the nodes that are
left. -/
theorem copyHandlers_owned {dst src : κ} (distinct : dst ≠ src) (data : Option Nat) {event : Event}
    {before pending : List Nat} {steps : Nat} {after : EventHeap κ}
    (represents : heap.Represents chains table) (owned : heap.Owned chains)
    (chain : chains (src, event) = before ++ pending)
    (copied : copyHandlers dst data event steps heap pending.head? = some after) :
    ∃ chains' table', after.Represents chains' table' ∧ after.Owned chains' := by
  have other : (src, event) ≠ (dst, event) := fun same => distinct (congrArg Prod.fst same).symm
  induction pending generalizing heap chains table before steps with
  | nil =>
      have same : heap = after := by
        cases steps <;> simpa [copyHandlers] using copied
      exact ⟨chains, table, same ▸ represents, same ▸ owned⟩
  | cons node pending ih =>
      cases steps with
      | zero => cases copied
      | succ steps =>
          obtain ⟨block, found, read, held, stored, shown⟩ := represents.read chain
          have own : (found.copy data).event = (dst, event).2 := by
            obtain ⟨handler, member, same⟩ := represents.handlerOf_isSome
              (show node ∈ chains (src, event) by simp [chain])
            cases shown.symm.trans same
            have right : found.event = event := represents.events member
            cases data <;> exact right
          obtain ⟨next, added, represents'⟩ := represents.add_ok own
          have owned' := represents.add_owned owned added
          have chain' : Function.update chains (dst, event)
              (chains (dst, event) ++ [heap.allocated + 1]) (src, event) =
                before ++ node :: pending := by
            rw [Function.update_of_ne other, chain]
          obtain ⟨block', found', read', _⟩ := represents'.read chain'
          have further : Function.update chains (dst, event)
              (chains (dst, event) ++ [heap.allocated + 1]) (src, event) =
                (before ++ [node]) ++ pending := by
            simp [chain']
          have rest : copyHandlers dst data event steps next pending.head? = some after := by
            simpa [copyHandlers, read, stored, added, read'] using copied
          exact ih represents' owned' further rest

theorem copyEvents_owned {dst src : κ} (distinct : dst ≠ src) (data : Option Nat)
    {events : List Event} {after : EventHeap κ} (represents : heap.Represents chains table)
    (owned : heap.Owned chains)
    (copied : events.foldlM (fun heap event => copyHandlers dst data event heap.allocated
      heap (heap.lists (src, event)).first) heap = some after) :
    ∃ chains' table', after.Represents chains' table' ∧ after.Owned chains' := by
  induction events generalizing heap chains table with
  | nil =>
      cases copied
      exact ⟨chains, table, represents, owned⟩
  | cons event events ih =>
      rw [List.foldlM_cons, (represents.holds (src, event)).first] at copied
      obtain ⟨next, first, rest⟩ := Option.bind_eq_some_iff.mp copied
      have chain : chains (src, event) = [] ++ chains (src, event) := rfl
      obtain ⟨chains', table', represents', owned'⟩ :=
        copyHandlers_owned distinct data represents owned chain first
      exact ih represents' owned' rest

theorem EventHeap.Represents.sweep_owned (represents : heap.Represents chains table)
    (owned : heap.Owned chains) {drop : EventHandler → Bool} {handlers : List EventHandler}
    {after : EventHeap κ}
    (swept : sweepHandlers drop slot heap.allocated heap (heap.lists slot).first =
      some (handlers, after)) :
    ∃ chains' table', after.Represents chains' table' ∧ after.Owned chains' := by
  rw [(represents.holds slot).first] at swept
  have chain : chains slot = [] ++ chains slot := rfl
  exact sweepHandlers_owned drop represents owned chain swept

/-! ## Calls -/

theorem eventCall_owned (represents : heap.Represents chains table) (owned : heap.Owned chains)
    {call : EventCall κ} (distinct : call.Distinct) {invocations : List Invocation}
    {after : EventHeap κ} (called : eventCall heap call = some (invocations, after)) :
    ∃ chains' table', after.Represents chains' table' ∧ after.Owned chains' := by
  cases call with
  | eventHandlerAdd queue handler =>
      have own : handler.event = (queue, handler.event).2 := rfl
      obtain ⟨next, added, represents'⟩ := represents.add_ok own
      have stored : (newEventHandler heap handler).2.handlers (newEventHandler heap handler).1 =
          some handler := by simp [newEventHandler]
      simp only [eventCall, EventHeap.eventHandlerAdd, stored, added, Option.bind_eq_bind,
        Option.bind_some, Option.map_some] at called
      cases called
      exact ⟨_, _, represents', represents.add_owned owned added⟩
  | eventHandle queue event source =>
      obtain ⟨⟨handlers, last⟩, swept, equal⟩ := Option.bind_eq_some_iff.mp called
      cases equal
      exact represents.sweep_owned owned swept
  | eventHandlerRemove queue event callback =>
      obtain ⟨last, removed, equal⟩ := Option.map_eq_some_iff.mp called
      obtain ⟨⟨handlers, same⟩, swept, equal'⟩ := Option.bind_eq_some_iff.mp removed
      cases equal
      cases equal'
      exact represents.sweep_owned owned swept
  | copyEventQueue dst src data =>
      obtain ⟨last, copied, equal⟩ := Option.map_eq_some_iff.mp called
      cases equal
      exact copyEvents_owned distinct data represents owned copied

end

/-- A list holds one chain only. -/
theorem NodeList.Holds.unique {list : NodeList} {nodes : Nodes} {chain chain' : List Nat}
    (holds : list.Holds nodes chain) (holds' : list.Holds nodes chain') : chain = chain' := by
  have tails : ∀ rest rest' before before', chain = before ++ rest → chain' = before' ++ rest' →
      rest.head? = rest'.head? → rest = rest' := by
    intro rest
    induction rest with
    | nil =>
        intro rest' _ _ _ _ same
        exact (List.head?_eq_none_iff.mp same.symm).symm
    | cons node rest ih =>
        intro rest' before before' split split' same
        cases rest' with
        | nil => cases same
        | cons node' rest' =>
            cases same
            have links := holds.linked before node rest split
            rw [holds'.linked before' node rest' split'] at links
            simp only [Option.some.injEq, DoublyLinked.Links.mk.injEq] at links
            have step := ih rest' (before ++ [node]) (before' ++ [node]) (by simpa using split)
              (by simpa using split') links.1.symm
            rw [step]
  exact tails chain chain' [] [] rfl rfl (holds.first.symm.trans holds'.first)

omit [DecidableEq κ] in
theorem EventHeap.Represents.unique {heap : EventHeap κ} {chains chains' : κ × Event → List Nat}
    {table table' : HandlerTable κ} (represents : heap.Represents chains table)
    (represents' : heap.Represents chains' table') : chains = chains' :=
  funext fun slot => (represents.holds slot).unique (represents'.holds slot)

theorem EventHeap.Holds.call {heap : EventHeap κ} {table : HandlerTable κ} (holds : heap.Holds table)
    {call : EventCall κ} (distinct : call.Distinct) :
    ∃ after, eventCall heap call = some (table.invocations call, after) ∧
      after.Holds (table.step call) := by
  obtain ⟨chains, represents, owned⟩ := holds
  obtain ⟨after, chains', called, represents'⟩ := eventCall_ok represents distinct
  obtain ⟨_, _, represents'', owned'⟩ := eventCall_owned represents owned distinct called
  exact ⟨after, called, chains', represents', represents''.unique represents' ▸ owned'⟩

theorem EventHeap.Holds.calls {heap : EventHeap κ} {table : HandlerTable κ}
    (holds : heap.Holds table) {calls : List (EventCall κ)}
    (distinct : ∀ call ∈ calls, call.Distinct) :
    ∃ after, eventCalls heap calls = some (table.runInvocations calls, after) ∧
      after.Holds (table.run calls) := by
  induction calls generalizing heap table with
  | nil => exact ⟨heap, rfl, holds⟩
  | cons call calls ih =>
      obtain ⟨next, first, holds'⟩ := holds.call (distinct call List.mem_cons_self)
      obtain ⟨after, rest, final⟩ :=
        ih holds' fun later member => distinct later (List.mem_cons_of_mem _ member)
      exact ⟨after, by simp [eventCalls, first, rest, HandlerTable.runInvocations], final⟩

/-! ## Freeing -/

section

variable {heap : EventHeap κ} {table : HandlerTable κ} {slot : κ × Event}

/-- A list that is freed takes its nodes and handlers away, and those only. -/
theorem EventHeap.Holds.freeHandlers (holds : heap.Holds table) (slot : κ × Event) :
    ∃ after, Aio4c.freeHandlers heap slot = some after ∧
      after.Holds (Function.update table slot []) := by
  obtain ⟨chains, represents, owned⟩ := holds
  obtain ⟨block, behind⟩ : ∃ block : Nat → Nat, ∀ node,
      block node = (nodeData heap.nodes node).getD 0 := ⟨_, fun _ => rfl⟩
  have data : ∀ other, ∀ node ∈ chains other, nodeData heap.nodes node = some (block node) := by
    intro other node member
    obtain ⟨at_, _, held, _⟩ := represents.block member
    simp [behind, held]
  have present : ∀ node ∈ chains slot, (heap.handlers (block node)).isSome := by
    intro node member
    obtain ⟨at_, handler, held, stored⟩ := represents.block member
    simp [behind, held, stored]
  have apart : ((chains slot).map block).Nodup := by
    apply (represents.holds slot).nodup.map_on
    intro node member node' member' same
    exact represents.owned member member' (by
      rw [data slot node member, data slot node' member', same])
  obtain ⟨nodes, handlers, freed, nodesLeft, handlersLeft⟩ := freeNodes_ok heap.allocated
    (represents.holds slot) (data slot) present apart (represents.length_le slot)
  have kept : ∀ other ≠ slot, ∀ node ∈ chains other, nodes node = heap.nodes node := by
    intro other differs node member
    rw [nodesLeft, if_neg fun inSlot => differs (represents.disjoint member inSlot)]
  have dataKept : ∀ other ≠ slot, ∀ node ∈ chains other,
      nodeData nodes node = nodeData heap.nodes node := by
    intro other differs node member
    rw [nodeData, kept other differs node member, nodeData]
  refine ⟨_, by rw [Aio4c.freeHandlers, freed]; rfl, Function.update chains slot [], ?_, ?_⟩
  · apply represents.replace
    · exact fun other differs => Function.update_of_ne differs _ _
    · intro other differs node member
      have stays : block node ∉ (chains slot).map block := by
        intro inSlot
        obtain ⟨own, inChain, same⟩ := List.mem_map.mp inSlot
        have held := data slot own inChain
        rw [same] at held
        exact represents.elsewhere member differs (data other node member) own inChain held
      have same : handlers (block node) = heap.handlers (block node) := by
        rw [handlersLeft, if_neg stays]
      refine ⟨kept other differs node member, ?_⟩
      simp only [EventHeap.handlerOf, dataKept other differs node member, data other node member,
        Option.bind_some, same]
    · have initial := NodeList.initializer_holds nodes
      simpa using initial
    · rfl
    · intro _ _ _ _ _ inEmpty
      cases inEmpty
    · intro _ inEmpty
      cases inEmpty
    · intro _ inEmpty
      cases inEmpty
    · exact Nat.le_refl _
    · intro _ inEmpty
      cases inEmpty
  · apply owned.replace
    · intro node left _
      simp only [nodesLeft] at left
      by_cases member : node ∈ chains slot
      · simp [member] at left
      · simp only [member, if_false] at left
        exact ⟨left, member⟩
    · intro address left
      simp only [handlersLeft] at left
      by_cases member : address ∈ (chains slot).map block
      · simp [member] at left
      · simp only [member, if_false] at left
        refine .inr ⟨left, fun node inChain held => member ?_⟩
        rw [data slot node inChain] at held
        exact List.mem_map.mpr ⟨node, inChain, Option.some.inj held⟩
    · exact dataKept

/-- `FreeEventQueue` empties the lists of the queue, one event after the other. -/
theorem EventHeap.Holds.freeEventQueue (holds : heap.Holds table) (queue : κ) :
    ∃ after, heap.freeEventQueue queue = some after ∧
      after.Holds fun slot => if slot.1 = queue then [] else table slot := by
  have events : ∀ (events : List Event) (heap : EventHeap κ) (table : HandlerTable κ),
      heap.Holds table → ∃ after,
        events.foldlM (fun heap event => Aio4c.freeHandlers heap (queue, event)) heap = some after ∧
          after.Holds fun slot => if slot.1 = queue ∧ slot.2 ∈ events then [] else table slot := by
    intro events
    induction events with
    | nil =>
        intro heap table holds
        exact ⟨heap, rfl, by simpa using holds⟩
    | cons event events ih =>
        intro heap table holds
        obtain ⟨next, first, holds'⟩ := holds.freeHandlers (queue, event)
        obtain ⟨after, rest, final⟩ := ih next _ holds'
        refine ⟨after, by rw [List.foldlM_cons, first]; exact rest, ?_⟩
        refine cast (congrArg after.Holds (funext fun slot => ?_)) final
        obtain ⟨owner, current⟩ := slot
        by_cases target : owner = queue
        · subst target
          by_cases here : current = event
          · subst here
            simp
          · simp [here]
        · simp [target]
  obtain ⟨after, freed, final⟩ := events Event.all heap table holds
  simp only [Event.mem_all, and_true] at final
  exact ⟨after, freed, final⟩

omit [DecidableEq κ] in
/-- Where the table is empty nothing is allocated. -/
theorem EventHeap.Holds.released (holds : heap.Holds table) (empty : ∀ slot, table slot = []) :
    ∀ address, heap.nodes address = none ∧ heap.handlers address = none := by
  obtain ⟨chains, represents, owned⟩ := holds
  have none : ∀ slot, chains slot = [] := by
    intro slot
    have contents := represents.contents slot
    rw [empty slot] at contents
    exact List.map_eq_nil_iff.mp contents
  intro address
  constructor
  · apply Option.not_isSome_iff_eq_none.mp
    intro present
    obtain ⟨slot, member⟩ := owned.nodes address present
    simp [none slot] at member
  · apply Option.not_isSome_iff_eq_none.mp
    intro present
    obtain ⟨slot, node, member, _⟩ := owned.handlers address present
    simp [none slot] at member

end

/-- `FreeEventQueue` for one queue after the other. -/
def EventHeap.freeEventQueues (heap : EventHeap κ) (queues : List κ) : Option (EventHeap κ) :=
  queues.foldlM EventHeap.freeEventQueue heap

theorem EventHeap.Holds.freeEventQueues {heap : EventHeap κ} {table : HandlerTable κ}
    (holds : heap.Holds table) (queues : List κ) :
    ∃ after, heap.freeEventQueues queues = some after ∧
      after.Holds fun slot => if slot.1 ∈ queues then [] else table slot := by
  induction queues generalizing heap table with
  | nil => exact ⟨heap, rfl, by simpa using holds⟩
  | cons queue queues ih =>
      obtain ⟨next, first, holds'⟩ := holds.freeEventQueue queue
      obtain ⟨after, rest, final⟩ := ih holds'
      refine ⟨after, ?_, ?_⟩
      · rw [EventHeap.freeEventQueues, List.foldlM_cons, first]
        exact rest
      · refine cast (congrArg after.Holds (funext fun slot => ?_)) final
        by_cases target : slot.1 = queue
        · simp [target]
        · simp [target]

/-- After any calls on any queues, freeing some of them takes their handlers away and leaves
those of the others as they are; with the last queue nothing is left that was ever allocated
for handlers, whether it was dispatched once, removed or copied. -/
theorem newEventHeap_releases (calls : List (EventCall κ))
    (distinct : ∀ call ∈ calls, call.Distinct) (queues : List κ) :
    ∃ heap after, eventCalls newEventHeap calls =
        some (HandlerTable.runInvocations (fun _ => []) calls, heap) ∧
      heap.freeEventQueues queues = some after ∧
      (after.Shows fun slot =>
        if slot.1 ∈ queues then [] else HandlerTable.run (fun _ => []) calls slot) ∧
      ((∀ slot, HandlerTable.run (fun _ => []) calls slot ≠ [] → slot.1 ∈ queues) →
        ∀ address, after.nodes address = none ∧ after.handlers address = none) := by
  obtain ⟨heap, reached, holds⟩ := newEventHeap_holds.calls distinct
  obtain ⟨after, freed, final⟩ := holds.freeEventQueues queues
  have ⟨chains, represents, _⟩ := final
  refine ⟨heap, after, reached, freed, ⟨chains, represents⟩, ?_⟩
  intro all
  apply final.released
  intro slot
  by_cases target : slot.1 ∈ queues
  · simp [target]
  · rw [if_neg target]
    by_contra filled
    exact target (all slot filled)

/-- A handler of one queue is copied to another, and dispatched once there. -/
def copiedOnce : List (EventCall Nat) :=
  [.eventHandlerAdd 0 { event := .read, once := true, callback := 7, data := some 1 },
    .copyEventQueue 1 0 (some 5), .eventHandle 1 .read 3]

theorem newEventHeap_releases_copied :
    ∃ heap after, eventCalls newEventHeap copiedOnce =
        some ([[], [], [{ callback := 7, event := .read, source := 3, data := some 5 }]], heap) ∧
      heap.freeEventQueues [0, 1] = some after ∧
      ∀ address, after.nodes address = none ∧ after.handlers address = none := by
  obtain ⟨heap, after, reached, freed, _, left⟩ :=
    newEventHeap_releases copiedOnce (by simp [copiedOnce, EventCall.Distinct]) [0, 1]
  refine ⟨heap, after, reached, freed, left ?_⟩
  intro slot filled
  by_contra other
  simp only [List.mem_cons, List.not_mem_nil, or_false, not_or] at other
  refine filled (HandlerTable.run_frame (fun call member => ?_) _)
  simp only [copiedOnce, List.mem_cons, List.not_mem_nil, or_false] at member
  obtain rfl | rfl | rfl := member
  · exact fun same => other.1 (congrArg Prod.fst same)
  · exact other.2
  · exact fun same => other.2 (congrArg Prod.fst same)

end Aio4c
