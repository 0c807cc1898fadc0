import Aio4c.SelectorRegistration

/-! Iteration over the ready keys. A round is a sequence of `SelectionKeyReady`
calls up to the first that returns false. It visits the busy keys once, in order;
a visit returns its key one or more times and stops at the registration count,
so that over any number of rounds the current counts run through `1..count`. -/

set_option autoImplicit false

namespace Aio4c

def keyOf (selector : Selector) (node : Nat) : SelectionKey :=
  (selector.keys node).getD SelectionKey.zero

/-- The `revents` of the slot of a key. -/
def reventsOf (selector : Selector) (node : Nat) : Int16 :=
  match pollAt selector.polls (keyOf selector node).poll with
  | some slot => slot.revents
  | none => 0

theorem KeySlot.keyOf_eq {selector : Selector} {registry : Registry} {i node : Nat}
    {key : SelectionKey} {slot : Poll} (here : KeySlot selector registry i node key slot) :
    keyOf selector node = key := by
  simp [keyOf, here.found]

theorem KeySlot.reventsOf_eq {selector : Selector} {registry : Registry} {i node : Nat}
    {key : SelectionKey} {slot : Poll} (here : KeySlot selector registry i node key slot) :
    reventsOf selector node = slot.revents := by
  simp [reventsOf, here.keyOf_eq, here.index, here.located]

/-- The slots after one of them changed its `revents`. -/
structure Signalled (polls : List Poll) (i : Int) (slot : Poll) (revents : Int16)
    (polls' : List Poll) : Prop where
  length : polls'.length = polls.length
  slots : ∀ j, pollAt polls' j = if j = i then some { slot with revents } else pollAt polls j

theorem Signalled.refl {polls : List Poll} {i : Int} {slot : Poll}
    (located : pollAt polls i = some slot) : Signalled polls i slot slot.revents polls := by
  refine ⟨rfl, fun j => ?_⟩
  split
  · next here => rw [here, located]
  · rfl

/-- What a call does to the keys: one key gets a new current count and a slot
that is no longer ready; every other key and slot stays. -/
structure Visit (registry : Registry) (before : Selector) (node : Nat) (curCount : Int)
    (after : Selector) : Prop where
  represents : after.Represents registry
  busyKeys : after.busyKeys = before.busyKeys
  curCount : (keyOf after node).curCount = curCount
  count : (keyOf after node).count = (keyOf before node).count
  others : ∀ other ∈ before.busyKeys, other ≠ node →
    keyOf after other = keyOf before other ∧ reventsOf after other = reventsOf before other
  silent : ¬ 0 < reventsOf after node

theorem Selector.Represents.recount {selector : Selector} {registry : Registry}
    (represents : selector.Represents registry) {i node : Nat} {key : SelectionKey} {slot : Poll}
    (here : KeySlot selector registry i node key slot) (member : node ∈ selector.busyKeys)
    {curCount : Int} (current : 0 ≤ curCount) (result : Int16) :
    Selector.Represents { selector with
      keys := Function.update selector.keys node (some { key with curCount, result }) } registry := by
  have kept := represents.updateKey here member here.positive current result
  have registered : some { key.registration node with count := key.count } =
      registry key.fd := here.registered.symm
  rw [registered, Function.update_eq_self] at kept
  exact kept

theorem Selector.Represents.visit {selector : Selector} {registry : Registry}
    (represents : selector.Represents registry) {i node : Nat} {key : SelectionKey} {slot : Poll}
    (here : KeySlot selector registry i node key slot)
    (place : selector.busyKeys[i]? = some node) {curCount : Int} (current : 0 ≤ curCount) (result : Int16) {revents : Int16}
    (silent : ¬ 0 < revents) {polls : List Poll}
    (signalled : Signalled selector.polls key.poll slot revents polls) (curKey : Option Nat) :
    Visit registry selector node curCount { selector with
      keys := Function.update selector.keys node (some { key with curCount, result })
      polls, curKey } := by
  have kept := represents.recount here (List.mem_of_getElem? place) current result
  have index := here.index
  have represents' : Selector.Represents { selector with
      keys := Function.update selector.keys node (some { key with curCount, result })
      polls, curKey } registry :=
    { numPolls := kept.numPolls
      capacity := kept.capacity
      table := by simpa only [signalled.length] using kept.table
      pipe := by
        obtain ⟨slot', located, fields⟩ := kept.pipe
        exact ⟨slot', by rw [signalled.slots, if_neg (by omega)]; exact located, fields⟩
      nodup := kept.nodup
      bound := kept.bound
      free := kept.free
      finite := kept.finite
      slots := by
        intro j other place
        obtain ⟨otherKey, otherSlot, there⟩ := kept.slots j other place
        by_cases same : (j : Int) + 1 = key.poll
        · have equal : otherSlot = slot := by
            have located := there.located
            simp only [same, index, here.located, Option.some.injEq] at located
            exact located.symm
          subst equal
          exact ⟨otherKey, { otherSlot with revents },
            { found := there.found
              linked := there.linked
              index := there.index
              located := by rw [signalled.slots, if_pos same]
              descriptor := there.descriptor
              interest := there.interest
              positive := there.positive
              current := there.current
              registered := there.registered }⟩
        · exact ⟨otherKey, otherSlot,
            { there with
              found := there.found
              located := by rw [signalled.slots, if_neg same]; exact there.located }⟩ }
  exact
    { represents := represents'
      busyKeys := rfl
      curCount := by simp [keyOf]
      count := by simp [keyOf, here.found]
      others := by
        intro other inBusy differs
        obtain ⟨j, otherKey, otherSlot, otherPlace, there⟩ := represents.slotOf inBusy
        have same : keyOf { selector with
            keys := Function.update selector.keys node (some { key with curCount, result })
            polls, curKey } other = keyOf selector other := by
          simp [keyOf, differs]
        refine ⟨same, ?_⟩
        have elsewhere : otherKey.poll ≠ key.poll := by
          intro equal
          have sameIndex : j = i := by
            have otherIndex := there.index
            omega
          rw [sameIndex, place, Option.some.injEq] at otherPlace
          exact differs otherPlace.symm
        simp only [reventsOf, same, there.keyOf_eq, signalled.slots, if_neg elsewhere]
      silent := by
        simp only [reventsOf, keyOf, Function.update_self, Option.getD_some, signalled.slots,
          if_true]
        exact silent }

/-! ## One call -/

section

variable {selector : Selector} {registry : Registry}

theorem scanReady_skip (represents : selector.Represents registry) {node : Nat}
    (member : node ∈ selector.busyKeys) (silent : ¬ 0 < reventsOf selector node)
    (nodes : List Nat) : scanReady selector (node :: nodes) = scanReady selector nodes := by
  obtain ⟨i, key, slot, _, here⟩ := represents.slotOf member
  rw [here.reventsOf_eq] at silent
  have located : pollAt selector.polls key.poll = some slot := by rw [here.index, here.located]
  simp only [scanReady, here.found, located, Option.bind_eq_bind, Option.bind_some, gt_iff_lt,
    silent, if_false]

theorem scanReady_silent (represents : selector.Represents registry) {before : List Nat}
    (members : ∀ node ∈ before, node ∈ selector.busyKeys)
    (silent : ∀ node ∈ before, ¬ 0 < reventsOf selector node) (nodes : List Nat) :
    scanReady selector (before ++ nodes) = scanReady selector nodes := by
  induction before with
  | nil => rfl
  | cons node before ih =>
      rw [List.cons_append, scanReady_skip represents (members node (by simp))
        (silent node (by simp))]
      exact ih (fun other member => members other (by simp [member]))
        (fun other member => silent other (by simp [member]))

theorem scanReady_found (represents : selector.Represents registry) {node : Nat}
    (member : node ∈ selector.busyKeys) (ready : 0 < reventsOf selector node)
    (nodes : List Nat) :
    ∃ after, scanReady selector (node :: nodes) = some (some node, after) ∧
      after.curKey = some node ∧
      Visit registry selector node ((keyOf selector node).curCount + 1) after := by
  obtain ⟨i, key, slot, place, here⟩ := represents.slotOf member
  rw [here.reventsOf_eq] at ready
  have located : pollAt selector.polls key.poll = some slot := by rw [here.index, here.located]
  have index := here.index
  have total := represents.numPolls
  have capacity := represents.capacity
  have table := represents.table
  have inside := (List.getElem?_eq_some_iff.mp place).1
  obtain ⟨polls, set, length, at'⟩ := setPoll_ok (show 0 ≤ key.poll by omega)
    (show key.poll < selector.polls.length by omega) { slot with revents := 0 }
  have current := here.current
  have visit := represents.visit here place (show 0 ≤ key.curCount + 1 by omega)
    slot.revents (show ¬ (0 : Int16) < 0 by decide) ⟨length, at'⟩ (some node)
  refine ⟨_, ?_, rfl, by rw [here.keyOf_eq]; exact visit⟩
  simp only [scanReady, here.found, located, Option.bind_eq_bind, Option.bind_some, gt_iff_lt,
    ready, if_true, set, Option.pure_def]

theorem dropWhile_node {before after : List Nat} {node : Nat} (absent : node ∉ before) :
    (before ++ node :: after).dropWhile (fun other => other ≠ node) = node :: after := by
  rw [List.dropWhile_append_of_pos (by
    intro other member
    simp only [ne_eq, decide_not, Bool.not_eq_eq_eq_not, Bool.not_true, decide_eq_false_iff_not]
    intro equal
    subst equal
    exact absent member)]
  simp

theorem scanFrom_current (represents : selector.Represents registry) {current : Nat}
    (start : selector.curKey.or selector.busyKeys.head? = some current)
    (member : current ∈ selector.busyKeys) :
    scanFrom selector =
      scanReady selector (selector.busyKeys.dropWhile fun other => other ≠ current) := by
  obtain ⟨i, key, slot, _, here⟩ := represents.slotOf member
  simp only [scanFrom, start, here.found, here.linked, Option.bind_eq_bind, Option.bind_some]

theorem scanFrom_idle (represents : selector.Represents registry) (nonempty : selector.busyKeys ≠ [])
    (idle : selector.curKey = none) : scanFrom selector = scanReady selector selector.busyKeys := by
  obtain ⟨first, rest, busy⟩ := List.exists_cons_of_ne_nil nonempty
  rw [@scanFrom_current selector _ represents first (by simp [idle, busy]) (by simp [busy])]
  simp [busy]

/-- A scan that starts at a key that is done, or right behind it, sees the keys
behind it; behind the last key it starts over and finds nothing. -/
theorem scanFrom_behind (represents : selector.Represents registry) {before after : List Nat}
    {node : Nat} (busy : selector.busyKeys = before ++ node :: after)
    (silent : ∀ other ∈ before ++ [node], ¬ 0 < reventsOf selector other)
    (start : selector.curKey = some node ∨ selector.curKey = after.head?) :
    scanFrom selector = scanReady selector after := by
  have nodup := represents.busyNodup
  rw [busy] at nodup
  have fromHere : ∀ current rest, selector.curKey = some current →
      current ∈ selector.busyKeys →
      (selector.busyKeys.dropWhile fun other => other ≠ current) = rest →
      scanFrom selector = scanReady selector rest := by
    intro current rest at' member same
    subst same
    exact scanFrom_current represents (by rw [at', Option.some_or]) member
  have absent : node ∉ before := fun inBefore =>
    (List.nodup_append.mp nodup).2.2 node inBefore node (by simp) rfl
  rcases start with at' | at'
  · rw [fromHere node (node :: after) at' (by simp [busy]) (by
      rw [busy]
      exact dropWhile_node absent)]
    exact scanReady_skip represents (by simp [busy]) (silent node (by simp)) after
  · cases after with
    | nil =>
        have nonempty : selector.busyKeys ≠ [] := by simp [busy]
        have none := scanReady_silent represents (by simp [busy]) silent []
        rw [List.append_nil, ← busy] at none
        rw [scanFrom_idle represents nonempty at']
        exact none
    | cons other rest =>
        refine fromHere other (other :: rest) at' (by simp [busy]) ?_
        have split : before ++ node :: other :: rest = (before ++ [node]) ++ other :: rest := by
          simp
        rw [split] at nodup
        rw [busy, split]
        exact dropWhile_node fun inFront =>
          (List.nodup_append.mp nodup).2.2 other inFront other (by simp) rfl

theorem Visit.silent_of {before after : List Nat} {node : Nat} {curCount : Int}
    {visited : Selector} (visit : Visit registry selector node curCount visited)
    (busy : selector.busyKeys = before ++ node :: after)
    (silent : ∀ other ∈ before, ¬ 0 < reventsOf selector other) :
    ∀ other ∈ before ++ [node], ¬ 0 < reventsOf visited other := by
  intro other member
  by_cases same : other = node
  · subst same
    exact visit.silent
  · have inBefore : other ∈ before := by simpa [same] using member
    rw [(visit.others other (by simp [busy, inBefore]) same).2]
    exact silent other inBefore

/-- How a call leaves the current key: it returns it once more, or it scans the
keys behind it with the current count kept or, at the registration count, zero. -/
theorem selectionKeyReady_current (represents : selector.Represents registry)
    {before after : List Nat} {node : Nat} (busy : selector.busyKeys = before ++ node :: after)
    (silent : ∀ other ∈ before ++ [node], ¬ 0 < reventsOf selector other)
    (current : selector.curKey = some node) (returned : 1 ≤ (keyOf selector node).curCount)
    (repoll : Repoll) :
    (∃ next, (keyOf selector node).curCount < (keyOf selector node).count ∧
      selectionKeyReady selector repoll = some (some node, next) ∧ next.curKey = some node ∧
      Visit registry selector node ((keyOf selector node).curCount + 1) next) ∨
    (∃ next, selectionKeyReady selector repoll = scanReady next after ∧
      Visit registry selector node
        (if (keyOf selector node).curCount < (keyOf selector node).count
          then (keyOf selector node).curCount else 0) next) := by
  have nodup := represents.busyNodup
  rw [busy] at nodup
  have absent : node ∉ before := fun inBefore =>
    (List.nodup_append.mp nodup).2.2 node inBefore node (by simp) rfl
  obtain ⟨i, key, slot, place, here⟩ :=
    represents.slotOf (show node ∈ selector.busyKeys by simp [busy])
  have same := here.keyOf_eq
  have located : pollAt selector.polls key.poll = some slot := by rw [here.index, here.located]
  have quiet : ¬ 0 < slot.revents := by
    rw [← here.reventsOf_eq]
    exact silent node (by simp)
  have next : nextKey selector key = some after.head? := by
    rw [nextKey, here.linked, busy, Option.bind_eq_bind, Option.bind_some, dropWhile_node absent]
    cases after <;> rfl
  have front : ∀ other ∈ before, ¬ 0 < reventsOf selector other :=
    fun other member => silent other (by simp [member])
  have rewrite : ∀ curCount result curKey, 0 ≤ curCount →
      Visit registry selector node curCount { selector with
        keys := Function.update selector.keys node (some { key with curCount, result })
        curKey } := fun curCount result curKey lower =>
    represents.visit here place lower result quiet (Signalled.refl located) curKey
  have unchanged : Function.update selector.keys node (some key) = selector.keys := by
    rw [← here.found, Function.update_eq_self]
  rw [same] at returned ⊢
  unfold selectionKeyReady
  simp only [current, here.found, Option.bind_eq_bind, Option.bind_some, ge_iff_le, returned,
    if_true, gt_iff_lt]
  by_cases pending : key.curCount < key.count
  · simp only [pending, if_true]
    cases repoll with
    | error =>
        have visit := rewrite key.curCount key.result (some node) (by omega)
        rw [unchanged] at visit
        refine .inr ⟨selector, ?_, by simpa only [← current] using visit⟩
        exact scanFrom_behind represents busy silent (.inl current)
    | revents revents =>
        by_cases ready : revents &&& key.operation ≠ 0
        · refine .inl ⟨_, trivial, ?_, ?_, rewrite (key.curCount + 1) revents (some node)
            (by omega)⟩
          · simp only [if_pos ready, Option.pure_def]
          · rfl
        · have visit := rewrite key.curCount key.result after.head? (by omega)
          rw [unchanged] at visit
          refine .inr ⟨_, ?_, visit⟩
          simp only [if_neg ready, next, Option.bind_some]
          exact scanFrom_behind visit.represents busy (visit.silent_of busy front) (.inr rfl)
  · have visit := rewrite 0 key.result after.head? (Int.le_refl _)
    simp only [pending, if_false]
    refine .inr ⟨_, ?_, visit⟩
    simp only [next, Option.bind_some]
    exact scanFrom_behind visit.represents busy (visit.silent_of busy front) (.inr rfl)

end

/-! ## One round -/

/-- A returned key with its current count. -/
abbrev Return := Nat × Int

/-- Calls up to the first that returns false; `outcomes` answers the re-poll of
every call. `none` also stands for more calls than `steps`. -/
def drain : Nat → Selector → (Nat → Repoll) → Option (List Return × Selector)
  | 0, _, _ => none
  | steps + 1, selector, outcomes => do
      let (key, selector) ← selectionKeyReady selector (outcomes 0)
      match key with
      | none => pure ([], selector)
      | some key => do
          let (returns, last) ← drain steps selector fun call => outcomes (call + 1)
          pure ((key, (keyOf selector key).curCount) :: returns, last)

/-- The calls that follow the outcome of a call. -/
def drainFrom (steps : Nat) (outcome : Option (Option Nat × Selector))
    (outcomes : Nat → Repoll) : Option (List Return × Selector) := do
  let (key, selector) ← outcome
  match key with
  | none => pure ([], selector)
  | some key => do
      let (returns, last) ← drain steps selector outcomes
      pure ((key, (keyOf selector key).curCount) :: returns, last)

theorem drain_succ (steps : Nat) (selector : Selector) (outcomes : Nat → Repoll) :
    drain (steps + 1) selector outcomes =
      drainFrom steps (selectionKeyReady selector (outcomes 0)) fun call => outcomes (call + 1) :=
  rfl

theorem drainFrom_key (steps : Nat) (key : Nat) (selector : Selector)
    (outcomes : Nat → Repoll) :
    drainFrom steps (some (some key, selector)) outcomes =
      (drain steps selector outcomes).map fun (returns, last) =>
        ((key, (keyOf selector key).curCount) :: returns, last) := by
  simp only [drainFrom, Option.bind_eq_bind, Option.bind_some]
  cases drain steps selector outcomes <;> rfl

/-- The round ends after finitely many calls. -/
def Drains (selector : Selector) (outcomes : Nat → Repoll) (returns : List Return)
    (last : Selector) : Prop :=
  ∃ steps, drain steps selector outcomes = some (returns, last)

/-- `times` consecutive returns of a key that has been returned `curCount` times. -/
def visits (node : Nat) (curCount : Int) (times : Nat) : List Return :=
  (List.range times).map fun i : Nat => (node, curCount + 1 + i)

/-- The current count after `times` returns: zero once it reached the count. -/
def carried (key : SelectionKey) (times : Nat) : Int :=
  if key.curCount + times < key.count then key.curCount + times else 0

theorem visits_succ (node : Nat) (curCount : Int) (times : Nat) :
    visits node curCount (times + 1) =
      (node, curCount + 1) :: visits node (curCount + 1) times := by
  rw [visits, List.range_succ_eq_map, List.map_cons, List.map_map, visits]
  congr 1
  · simp
  · refine List.map_congr_left fun i _ => ?_
    simp only [Function.comp, Nat.succ_eq_add_one, Int.natCast_add, Int.natCast_one, Prod.mk.injEq,
      true_and]
    omega

section

variable {registry : Registry}

theorem Visit.trans {selector middle last : Selector} {node : Nat} {first second : Int}
    (earlier : Visit registry selector node first middle)
    (later : Visit registry middle node second last) :
    Visit registry selector node second last where
  represents := later.represents
  busyKeys := later.busyKeys.trans earlier.busyKeys
  curCount := later.curCount
  count := later.count.trans earlier.count
  others := by
    intro other member differs
    obtain ⟨sameKey, sameRevents⟩ := earlier.others other member differs
    obtain ⟨sameKey', sameRevents'⟩ := later.others other (earlier.busyKeys ▸ member) differs
    exact ⟨sameKey'.trans sameKey, sameRevents'.trans sameRevents⟩
  silent := later.silent

/-- A key just returned goes on being returned while its count lasts and its
re-polls succeed; then the scan behind it takes over. -/
theorem drain_current {before after : List Nat} {node : Nat} (pending : Nat) {selector : Selector}
    (represents : selector.Represents registry)
    (busy : selector.busyKeys = before ++ node :: after)
    (silent : ∀ other ∈ before ++ [node], ¬ 0 < reventsOf selector other)
    (current : selector.curKey = some node) (returned : 1 ≤ (keyOf selector node).curCount)
    (measure : ((keyOf selector node).count - (keyOf selector node).curCount).toNat = pending)
    (outcomes : Nat → Repoll) :
    ∃ times next, times ≤ pending ∧
      Visit registry selector node (carried (keyOf selector node) times) next ∧
      ∀ steps, drain (steps + times + 1) selector outcomes =
        (drainFrom steps (scanReady next after) fun call => outcomes (call + times + 1)).map
          fun (returns, last) =>
            (visits node (keyOf selector node).curCount times ++ returns, last) := by
  induction pending generalizing selector outcomes with
  | zero =>
      rcases selectionKeyReady_current represents busy silent current returned (outcomes 0) with
        ⟨next, below, _⟩ | ⟨next, result, visit⟩
      · omega
      · refine ⟨0, next, Nat.le_refl 0, by simpa [carried] using visit, fun steps => ?_⟩
        rw [drain_succ, result]
        simp [visits]
  | succ pending ih =>
      rcases selectionKeyReady_current represents busy silent current returned (outcomes 0) with
        ⟨next, below, result, current', visit⟩ | ⟨next, result, visit⟩
      · have front : ∀ other ∈ before, ¬ 0 < reventsOf selector other :=
          fun other member => silent other (by simp [member])
        have count := visit.count
        have curCount := visit.curCount
        obtain ⟨times, last, bounded, visit', rest⟩ := ih visit.represents
          (visit.busyKeys.trans busy) (visit.silent_of busy front) current' (by omega) (by omega)
          fun call => outcomes (call + 1)
        refine ⟨times + 1, last, by omega, ?_, fun steps => ?_⟩
        · have same : carried (keyOf next node) times =
              carried (keyOf selector node) (times + 1) := by
            simp only [carried, count, curCount, Int.natCast_add, Int.natCast_one]
            rw [Int.add_assoc, Int.add_comm 1]
          rw [← same]
          exact visit.trans visit'
        · have shift : steps + (times + 1) + 1 = (steps + times + 1) + 1 := by omega
          rw [shift, drain_succ, result, drainFrom_key, rest, Option.map_map, visits_succ,
            curCount]
          rfl
      · refine ⟨0, next, Nat.zero_le _, by simpa [carried] using visit, fun steps => ?_⟩
        rw [drain_succ, result]
        simp [visits]

theorem Selector.Represents.withCurKey {selector : Selector}
    (represents : selector.Represents registry) (curKey : Option Nat) :
    Selector.Represents { selector with curKey } registry :=
  { numPolls := represents.numPolls
    capacity := represents.capacity
    table := represents.table
    pipe := represents.pipe
    nodup := represents.nodup
    bound := represents.bound
    free := represents.free
    finite := represents.finite
    slots := fun i node place => by
      obtain ⟨key, slot, here⟩ := represents.slots i node place
      exact ⟨key, slot,
        { found := here.found
          linked := here.linked
          index := here.index
          located := here.located
          descriptor := here.descriptor
          interest := here.interest
          positive := here.positive
          current := here.current
          registered := here.registered }⟩ }

/-- A round over the keys `nodes`: every ready key and no other is returned, the
keys in order, each a number of consecutive times within its count. -/
structure Iterates (registry : Registry) (before : Selector) (nodes : List Nat)
    (times : Nat → Nat) (returns : List Return) (after : Selector) : Prop where
  represents : after.Represents registry
  busyKeys : after.busyKeys = before.busyKeys
  idle : after.curKey = none
  returns : returns =
    nodes.flatMap fun node => visits node (keyOf before node).curCount (times node)
  ready : ∀ node ∈ nodes, 0 < reventsOf before node → 1 ≤ times node ∧
    (times node : Int) ≤ max 1 ((keyOf before node).count - (keyOf before node).curCount)
  unready : ∀ node ∈ nodes, ¬ 0 < reventsOf before node → times node = 0
  curCount : ∀ node ∈ nodes, (keyOf after node).curCount =
    if times node = 0 then (keyOf before node).curCount
    else carried (keyOf before node) (times node)
  count : ∀ node ∈ nodes, (keyOf after node).count = (keyOf before node).count
  others : ∀ node ∈ before.busyKeys, node ∉ nodes → keyOf after node = keyOf before node

/-- A key visited `visited` times in front of a round over other keys. -/
theorem Iterates.cons {selector next after : Selector} {node : Nat} {nodes : List Nat}
    {times : Nat → Nat} {returns : List Return} (visited : Nat)
    (iterates : Iterates registry next nodes times returns after)
    (absent : node ∉ nodes) (members : ∀ other ∈ node :: nodes, other ∈ selector.busyKeys)
    (busyKeys : next.busyKeys = selector.busyKeys)
    (others : ∀ other ∈ selector.busyKeys, other ≠ node →
      keyOf next other = keyOf selector other ∧ reventsOf next other = reventsOf selector other)
    (ready : 0 < reventsOf selector node → 1 ≤ visited ∧
      (visited : Int) ≤ max 1 ((keyOf selector node).count - (keyOf selector node).curCount))
    (unready : ¬ 0 < reventsOf selector node → visited = 0)
    (curCount : (keyOf next node).curCount =
      if visited = 0 then (keyOf selector node).curCount
      else carried (keyOf selector node) visited)
    (count : (keyOf next node).count = (keyOf selector node).count) :
    Iterates registry selector (node :: nodes) (Function.update times node visited)
      (visits node (keyOf selector node).curCount visited ++ returns) after := by
  have other : ∀ later ∈ nodes, later ≠ node := by
    intro later inNodes same
    subst same
    exact absent inNodes
  have same : ∀ later ∈ nodes, keyOf next later = keyOf selector later ∧
      reventsOf next later = reventsOf selector later :=
    fun later inNodes => others later (members later (by simp [inNodes])) (other later inNodes)
  have last : keyOf after node = keyOf next node :=
    iterates.others node (busyKeys ▸ members node (by simp)) absent
  exact
    { represents := iterates.represents
      busyKeys := iterates.busyKeys.trans busyKeys
      idle := iterates.idle
      returns := by
        rw [List.flatMap_cons, Function.update_self, iterates.returns]
        congr 1
        refine List.flatMap_congr fun later inNodes => ?_
        rw [Function.update_of_ne (other later inNodes), (same later inNodes).1]
      ready := by
        intro later inNodes signalled
        rcases List.mem_cons.mp inNodes with rfl | inNodes
        · rw [Function.update_self]
          exact ready signalled
        · obtain ⟨sameKey, sameRevents⟩ := same later inNodes
          rw [Function.update_of_ne (other later inNodes), ← sameKey]
          exact iterates.ready later inNodes (sameRevents ▸ signalled)
      unready := by
        intro later inNodes silent
        rcases List.mem_cons.mp inNodes with rfl | inNodes
        · rw [Function.update_self]
          exact unready silent
        · rw [Function.update_of_ne (other later inNodes)]
          exact iterates.unready later inNodes ((same later inNodes).2 ▸ silent)
      curCount := by
        intro later inNodes
        rcases List.mem_cons.mp inNodes with rfl | inNodes
        · rw [Function.update_self, last, curCount]
        · rw [Function.update_of_ne (other later inNodes), ← (same later inNodes).1]
          exact iterates.curCount later inNodes
      count := by
        intro later inNodes
        rcases List.mem_cons.mp inNodes with rfl | inNodes
        · rw [last, count]
        · rw [← (same later inNodes).1]
          exact iterates.count later inNodes
      others := by
        intro later inBusy outside
        simp only [List.mem_cons, not_or] at outside
        rw [iterates.others later (busyKeys ▸ inBusy) outside.2]
        exact (others later inBusy outside.1).1 }

theorem drainFrom_scan {front nodes : List Nat} {selector : Selector}
    (represents : selector.Represents registry) (busy : selector.busyKeys = front ++ nodes)
    (silent : ∀ node ∈ front, ¬ 0 < reventsOf selector node) (outcomes : Nat → Repoll) :
    ∃ steps times returns after,
      drainFrom steps (scanReady selector nodes) outcomes = some (returns, after) ∧
      Iterates registry selector nodes times returns after := by
  induction nodes generalizing front selector outcomes with
  | nil =>
      exact ⟨0, fun _ => 0, [], { selector with curKey := none }, rfl,
        { represents := represents.withCurKey none
          busyKeys := rfl
          idle := rfl
          returns := rfl
          ready := by simp
          unready := by simp
          curCount := by simp
          count := by simp
          others := fun _ _ _ => rfl }⟩
  | cons node nodes ih =>
      have member : node ∈ selector.busyKeys := by simp [busy]
      have nodup := represents.busyNodup
      rw [busy] at nodup
      have absent : node ∉ nodes :=
        (List.nodup_cons.mp (List.nodup_append.mp nodup).2.1).1
      have members : ∀ other ∈ node :: nodes, other ∈ selector.busyKeys := by
        intro other inNodes
        rw [busy]
        exact List.mem_append_right _ inNodes
      have split : front ++ node :: nodes = (front ++ [node]) ++ nodes := by simp
      by_cases ready : 0 < reventsOf selector node
      · obtain ⟨found, scan, current, visit⟩ := scanReady_found represents member ready nodes
        obtain ⟨i, key, slot, _, here⟩ := represents.slotOf member
        have nonneg : 0 ≤ (keyOf selector node).curCount := by
          rw [here.keyOf_eq]
          exact here.current
        have positive : 1 ≤ (keyOf selector node).count := by
          rw [here.keyOf_eq]
          exact here.positive
        have count := visit.count
        have curCount := visit.curCount
        obtain ⟨extra, next, bounded, visit', rest⟩ := drain_current _ visit.represents
          (visit.busyKeys.trans busy) (visit.silent_of busy silent) current (by omega) rfl outcomes
        have visited := visit.trans visit'
        obtain ⟨steps, times, returns, after, result, iterates⟩ := ih visited.represents
          (visited.busyKeys.trans (busy.trans split)) (visited.silent_of busy silent)
          fun call => outcomes (call + extra + 1)
        have carriedOn : (keyOf next node).curCount =
            carried (keyOf selector node) (extra + 1) := by
          rw [visit'.curCount]
          simp only [carried, count, curCount, Int.natCast_add, Int.natCast_one]
          rw [Int.add_assoc, Int.add_comm 1]
        refine ⟨steps + extra + 1, _, _, after, ?_,
          iterates.cons (extra + 1) absent members visited.busyKeys visited.others
            (fun _ => ⟨by omega, by omega⟩) (fun silent => absurd ready silent) ?_ visited.count⟩
        · rw [scan, drainFrom_key, rest, result, visits_succ, ← curCount]
          rfl
        · rw [if_neg (by omega), carriedOn]
      · obtain ⟨steps, times, returns, after, result, iterates⟩ := ih represents
          (busy.trans split) (by
            intro other inFront
            rcases List.mem_append.mp inFront with inFront | single
            · exact silent other inFront
            · rw [List.mem_singleton.mp single]
              exact ready) outcomes
        refine ⟨steps, _, _, after, ?_, iterates.cons 0 absent members rfl
          (fun _ _ _ => ⟨rfl, rfl⟩) (fun signalled => absurd signalled ready) (fun _ => rfl) rfl rfl⟩
        rw [scanReady_skip represents member ready, result]
        rfl

theorem drains_round {selector : Selector} (represents : selector.Represents registry)
    (busy : selector.busyKeys ≠ []) (idle : selector.curKey = none) (outcomes : Nat → Repoll) :
    ∃ times returns after, Drains selector outcomes returns after ∧
      Iterates registry selector selector.busyKeys times returns after := by
  obtain ⟨steps, times, returns, after, result, iterates⟩ :=
    drainFrom_scan represents (List.nil_append _).symm (by simp) fun call => outcomes (call + 1)
  refine ⟨times, returns, after, ⟨steps + 1, ?_⟩, iterates⟩
  rw [drain_succ, selectionKeyReady]
  simp only [idle, scanFrom_idle represents busy idle]
  exact result

end

/-! ## Rounds after rounds of `Select` -/

structure Round where
  nbPolls : Int
  revents : Nat → Int16
  outcomes : Nat → Repoll

/-- Each round is a successful `Select` and the calls up to the first false. -/
def Rounds : Selector → List Round → List (List Return) → Selector → Prop
  | selector, [], log, last => log = [] ∧ last = selector
  | selector, round :: rounds, log, last => ∃ returns middle rest, log = returns :: rest ∧
      Drains (select selector (some (round.nbPolls, round.revents))).2 round.outcomes returns
        middle ∧
      Rounds middle rounds rest last

theorem pollAt_natCast (polls : List Poll) (i : Nat) : pollAt polls i = polls[i]? := by
  rw [pollAt, if_pos (Int.natCast_nonneg i), Int.toNat_natCast]

theorem select_ok (selector : Selector) (nbPolls : Int) (revents : Nat → Int16) :
    ∃ ready polls, select selector (some (nbPolls, revents)) = (ready, { selector with polls }) ∧
      polls.length = selector.polls.length ∧
      ∀ (i : Nat) slot, pollAt selector.polls i = some slot →
        ∃ slot', pollAt polls i = some slot' ∧ slot'.fd = slot.fd ∧ slot'.events = slot.events ∧
          (0 < i → (i : Int) < selector.numPolls → slot'.revents = revents i) := by
  have mapped : ∀ (i : Nat) slot, pollAt selector.polls i = some slot →
      ∃ slot', (selector.polls.mapIdx fun i poll =>
          if (i : Int) < selector.numPolls then { poll with revents := revents i } else poll)[i]? =
          some slot' ∧ slot'.fd = slot.fd ∧ slot'.events = slot.events ∧
        (0 < i → (i : Int) < selector.numPolls → slot'.revents = revents i) := by
    intro i slot located
    rw [pollAt_natCast] at located
    rw [List.getElem?_mapIdx, located, Option.map_some]
    by_cases inside : (i : Int) < selector.numPolls
    · exact ⟨{ slot with revents := revents i }, by rw [if_pos inside], rfl, rfl, fun _ _ => rfl⟩
    · exact ⟨slot, by rw [if_neg inside], rfl, rfl, fun _ bound => absurd bound inside⟩
  simp only [select]
  split
  · refine ⟨_, _, rfl, by simp, fun i slot located => ?_⟩
    obtain ⟨slot', found, fd, events, signalled⟩ := mapped i slot located
    rw [pollAt_natCast, List.getElem?_modifyHead]
    by_cases first : i = 0
    · subst first
      exact ⟨{ slot' with revents := 0 }, by rw [if_pos rfl, found, Option.map_some], fd, events,
        fun positive => absurd positive (Nat.lt_irrefl 0)⟩
    · exact ⟨slot', by rw [if_neg first, found], fd, events, signalled⟩
  · refine ⟨_, _, rfl, by simp, fun i slot located => ?_⟩
    rw [pollAt_natCast]
    exact mapped i slot located

section

variable {registry : Registry} {selector : Selector}

theorem Selector.Represents.select (represents : selector.Represents registry) (nbPolls : Int)
    (revents : Nat → Int16) :
    ∃ ready polls, Aio4c.select selector (some (nbPolls, revents)) =
        (ready, { selector with polls }) ∧
      Selector.Represents { selector with polls } registry ∧
      ∀ i node, selector.busyKeys[i]? = some node →
        reventsOf { selector with polls } node = revents (i + 1) := by
  obtain ⟨ready, polls, result, length, slots⟩ := select_ok selector nbPolls revents
  have moved : ∀ i node key slot, KeySlot selector registry i node key slot →
      ∃ slot', KeySlot { selector with polls } registry i node key slot' ∧
        ((i : Int) + 1 < selector.numPolls → slot'.revents = revents (i + 1)) := by
    intro i node key slot here
    have located := here.located
    rw [← Int.natCast_succ] at located
    obtain ⟨slot', found, fd, events, signalled⟩ := slots (i + 1) slot located
    exact ⟨slot',
      { found := here.found
        linked := here.linked
        index := here.index
        located := found
        descriptor := fd.trans here.descriptor
        interest := events.trans here.interest
        positive := here.positive
        current := here.current
        registered := here.registered }, signalled (Nat.succ_pos i)⟩
  refine ⟨ready, polls, result, ?_, ?_⟩
  · exact
      { numPolls := represents.numPolls
        capacity := represents.capacity
        table := by simpa only [length] using represents.table
        pipe := by
          obtain ⟨slot, located, fd, events⟩ := represents.pipe
          obtain ⟨slot', found, fd', events', _⟩ := slots 0 slot located
          exact ⟨slot', found, fd'.trans fd, events'.trans events⟩
        nodup := represents.nodup
        bound := represents.bound
        free := represents.free
        finite := represents.finite
        slots := fun i node place => by
          obtain ⟨key, slot, here⟩ := represents.slots i node place
          obtain ⟨slot', here', _⟩ := moved i node key slot here
          exact ⟨key, slot', here'⟩ }
  · intro i node place
    obtain ⟨key, slot, here⟩ := represents.slots i node place
    obtain ⟨slot', here', signalled⟩ := moved i node key slot here
    have inside := (List.getElem?_eq_some_iff.mp place).1
    have total := represents.numPolls
    rw [here'.reventsOf_eq]
    exact signalled (by omega)

theorem visits_other {node other : Nat} (differs : other ≠ node) (curCount : Int)
    (times : Nat) : (visits other curCount times).filter (fun entry => entry.1 = node) = [] := by
  rw [List.filter_eq_nil_iff]
  intro entry member
  simp only [visits, List.mem_map] at member
  obtain ⟨i, _, rfl⟩ := member
  simpa using differs

theorem visits_self (node : Nat) (curCount : Int) (times : Nat) :
    (visits node curCount times).filter (fun entry => entry.1 = node) =
      visits node curCount times := by
  rw [List.filter_eq_self]
  intro entry member
  simp only [visits, List.mem_map] at member
  obtain ⟨i, _, rfl⟩ := member
  simp

theorem filter_visits {nodes : List Nat} (nodup : nodes.Nodup) {node : Nat}
    (member : node ∈ nodes) (curCount : Nat → Int) (times : Nat → Nat) :
    (nodes.flatMap fun other => visits other (curCount other) (times other)).filter
      (fun entry => entry.1 = node) = visits node (curCount node) (times node) := by
  induction nodes with
  | nil => simp at member
  | cons head nodes ih =>
      obtain ⟨absent, nodup'⟩ := List.nodup_cons.mp nodup
      rw [List.flatMap_cons, List.filter_append]
      rcases List.mem_cons.mp member with rfl | member
      · rw [visits_self, List.filter_flatMap]
        have none : (nodes.flatMap fun other =>
            (visits other (curCount other) (times other)).filter
              (fun entry => entry.1 = node)) = [] := by
          rw [List.flatMap_eq_nil_iff]
          intro other inNodes
          exact visits_other (by intro same; subst same; exact absent inNodes) _ _
        rw [none, List.append_nil]
      · rw [ih nodup' member, visits_other (by intro same; subst same; exact absent member), List.nil_append]

/-- The returns of a key that stays ready run through `1..count` cyclically. -/
theorem rounds_ready (represents : selector.Represents registry) (idle : selector.curKey = none)
    {i node : Nat} (place : selector.busyKeys[i]? = some node)
    (below : (keyOf selector node).curCount < (keyOf selector node).count)
    (rounds : List Round) (ready : ∀ round ∈ rounds, 0 < round.revents (i + 1)) :
    ∃ log last total, Rounds selector rounds log last ∧ last.curKey = none ∧
      rounds.length ≤ total ∧
      (log.flatten.filter fun entry => entry.1 = node).map Prod.snd =
        (List.range total).map (fun j : Nat =>
          ((keyOf selector node).curCount + j) % (keyOf selector node).count + 1) ∧
      (keyOf last node).curCount =
        ((keyOf selector node).curCount + total) % (keyOf selector node).count := by
  obtain ⟨key, slot, here⟩ := represents.slots i node place
  have nonneg : 0 ≤ (keyOf selector node).curCount := by
    rw [here.keyOf_eq]
    exact here.current
  have member := List.mem_of_getElem? place
  induction rounds generalizing selector key slot with
  | nil =>
      refine ⟨[], selector, 0, ⟨rfl, rfl⟩, idle, Nat.le_refl 0, rfl, ?_⟩
      rw [Int.natCast_zero, Int.add_zero, Int.emod_eq_of_lt nonneg below]
  | cons round rounds ih =>
      obtain ⟨_, polls, selected, represents', revents⟩ :=
        represents.select round.nbPolls round.revents
      obtain ⟨times, returns, middle, drains, iterates⟩ := drains_round represents'
        (List.ne_nil_of_mem member) idle round.outcomes
      have signalled : 0 < reventsOf { selector with polls } node := by
        rw [revents i node place]
        exact ready round (by simp)
      obtain ⟨atLeast, atMost⟩ := iterates.ready node member signalled
      have same : keyOf { selector with polls } node = keyOf selector node := rfl
      rw [same] at atMost
      have curCount := iterates.curCount node member
      have count := iterates.count node member
      rw [same] at curCount count
      have within : (keyOf selector node).curCount + times node ≤ (keyOf selector node).count := by
        omega
      have carriedOn : (keyOf middle node).curCount =
          ((keyOf selector node).curCount + times node) % (keyOf selector node).count := by
        rw [curCount, if_neg (by omega), carried]
        split
        · next short => rw [Int.emod_eq_of_lt (by omega) short]
        · rw [show (keyOf selector node).curCount + times node = (keyOf selector node).count by
            omega, Int.emod_self]
      have place' : middle.busyKeys[i]? = some node := by rw [iterates.busyKeys]; exact place
      obtain ⟨key', slot', here'⟩ := iterates.represents.slots i node place'
      obtain ⟨log, last, total, rest, idle', enough, entries, final⟩ := ih iterates.represents
        iterates.idle place' (by rw [carriedOn, count]; exact Int.emod_lt_of_pos _ (by omega))
        (fun later inRounds => ready later (by simp [inRounds])) key' slot' here'
        (by rw [carriedOn]; exact Int.emod_nonneg _ (by omega)) (List.mem_of_getElem? place')
      refine ⟨returns :: log, last, times node + total,
        ⟨returns, middle, log, rfl, by rw [selected]; exact drains, rest⟩, idle',
        by simp only [List.length_cons]; omega, ?_, ?_⟩
      · rw [List.flatten_cons, List.filter_append, List.map_append, entries, iterates.returns,
          filter_visits represents.busyNodup member, List.range_add, List.map_append, same]
        congr 1
        · rw [visits, List.map_map]
          refine List.map_congr_left fun j inRange => ?_
          have bound := List.mem_range.mp inRange
          simp only [Function.comp]
          rw [Int.emod_eq_of_lt (by omega) (by omega)]
          omega
        · rw [List.map_map]
          refine List.map_congr_left fun j _ => ?_
          simp only [Function.comp, carriedOn, count, Int.emod_add_emod, Int.natCast_add,
            Int.add_assoc]
      · rw [final, carriedOn, count, Int.emod_add_emod, Int.natCast_add, Int.add_assoc]

end

/-- Between rounds, a round ends, returns every ready key and no other, in order
and within its count, and a key whose readiness persists is returned with the
current counts `1..count` before its current count goes back to zero. -/
theorem selectionKeyReady_iterates {selector : Selector} {registry : Registry}
    (represents : selector.Represents registry) (busy : selector.busyKeys ≠ [])
    (idle : selector.curKey = none) :
    (∀ outcomes, ∃ times returns after, Drains selector outcomes returns after ∧
      Iterates registry selector selector.busyKeys times returns after) ∧
    ∀ (i node : Nat) (rounds : List Round), selector.busyKeys[i]? = some node →
      (keyOf selector node).curCount = 0 → (∀ round ∈ rounds, 0 < round.revents (i + 1)) →
      ∃ log last total, Rounds selector rounds log last ∧ last.curKey = none ∧
        rounds.length ≤ total ∧
        (log.flatten.filter fun entry => entry.1 = node).map Prod.snd =
          (List.range total).map (fun j : Nat => (j : Int) % (keyOf selector node).count + 1) ∧
        (keyOf last node).curCount = total % (keyOf selector node).count := by
  refine ⟨drains_round represents busy idle, fun i node rounds place start ready => ?_⟩
  obtain ⟨key, slot, here⟩ := represents.slots i node place
  have positive : 1 ≤ (keyOf selector node).count := by
    rw [here.keyOf_eq]
    exact here.positive
  obtain ⟨log, last, total, ran, idle', enough, entries, final⟩ :=
    rounds_ready represents idle place (by omega) rounds ready
  exact ⟨log, last, total, ran, idle', enough, by simpa only [start, Int.zero_add] using entries,
    by simpa only [start, Int.zero_add] using final⟩

/-- Both parts after one registration on a new selector, over two rounds. -/
theorem selectionKeyReady_iterates_registered :
    ∃ key selector registry, register (newSelector 3) opWrite 5 7 true =
        some (some key, selector) ∧
      (∃ times returns after, Drains selector (fun _ => .error) returns after ∧
        Iterates registry selector selector.busyKeys times returns after) ∧
      ∃ log last total, Rounds selector
          [⟨1, fun _ => opWrite, fun _ => .error⟩, ⟨1, fun _ => opWrite, fun _ => .error⟩] log
          last ∧
        2 ≤ total ∧ (log.flatten.filter fun entry => entry.1 = key).map Prod.snd =
          (List.range total).map (fun j : Nat => (j : Int) % (keyOf selector key).count + 1) := by
  obtain ⟨key, selector, result, _, represents⟩ :=
    (newSelector_represents 3).register_new
      (show Registry.empty (5 : Int) = none from rfl) opWrite 7
  have iterates := selectionKeyReady_iterates represents
  cases result
  obtain ⟨round, later⟩ := iterates (by decide) rfl
  obtain ⟨log, last, total, ran, _, enough, entries, _⟩ := later 0 0
    [⟨1, fun _ => opWrite, fun _ => .error⟩, ⟨1, fun _ => opWrite, fun _ => .error⟩] rfl rfl
    (by decide)
  exact ⟨_, _, _, rfl, round _, log, last, total, ran, enough, entries⟩

end Aio4c
