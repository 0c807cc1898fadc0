import Aio4c.Library.TransitionSystem
import Aio4c.SelectorIteration

/-! The position of the iteration, `curKey`, along any sequence of calls. It stays on a
busy key as long as no `Unregister` takes away the very key it is at; behind one that
does, the next `SelectionKeyReady` ends the pass. -/

set_option autoImplicit false

namespace Aio4c

open TransitionSystem

/-- A call with the outcomes of the system calls in it. `ready` carries the key that
`SelectionKeyReady` stored. -/
inductive SelectorAction where
  | register (operation : Int16) (fd : Int) (attachment : Nat) (reallocated : Bool)
  | unregister (key : Nat) (unregisterAll : Bool)
  | select (outcome : Option (Int × (Nat → Int16)))
  | ready (repoll : Repoll) (key : Option Nat)

def selectorStep (selector : Selector) : SelectorAction → Option Selector
  | .register operation fd attachment reallocated =>
      (register selector operation fd attachment reallocated).map (·.2)
  | .unregister key unregisterAll => (unregister selector key unregisterAll).map (·.2)
  | .select outcome => some (select selector outcome).2
  | .ready repoll key => do
      let (returned, selector) ← selectionKeyReady selector repoll
      guard (returned = key)
      pure selector

def SelectorStep (before : Selector) (action : SelectorAction) (after : Selector) : Prop :=
  selectorStep before action = some after

/-- The call takes the key off the busy list. -/
def Removes (selector : Selector) (key : Nat) (unregisterAll : Bool) : Prop :=
  ∃ cell ∈ selector.keys key, cell.node.isSome = true ∧ (unregisterAll = true ∨ cell.count ≤ 1)

instance (selector : Selector) (key : Nat) (unregisterAll : Bool) :
    Decidable (Removes selector key unregisterAll) :=
  inferInstanceAs (Decidable (∃ cell ∈ selector.keys key, _ ∧ _))

/-- No `Unregister` of the key that `curKey` points to takes it off the busy list. -/
def KeepsCurKey (selector : Selector) : SelectorAction → Prop
  | .unregister key unregisterAll =>
      selector.curKey = some key → ¬ Removes selector key unregisterAll
  | _ => True

instance (selector : Selector) : (action : SelectorAction) → Decidable (KeepsCurKey selector action)
  | .unregister key unregisterAll =>
      inferInstanceAs (Decidable (selector.curKey = some key → ¬ Removes selector key unregisterAll))
  | .register _ _ _ _ | .select _ | .ready _ _ => isTrue trivial

/-- `curKey` is NULL or a busy key. -/
def CurKeyBusy (selector : Selector) : Prop :=
  ∀ key ∈ selector.curKey, key ∈ selector.busyKeys

/-! ## The lists of keys -/

/-- Nodes are in one list, and only busy keys know theirs. -/
structure Selector.Linked (selector : Selector) : Prop where
  nodup : (selector.busyKeys ++ selector.freeKeys).Nodup
  bound : ∀ node ∈ selector.busyKeys ++ selector.freeKeys, node < selector.allocated
  linked : ∀ key cell node, selector.keys key = some cell → cell.node = some node →
    node = key ∧ key ∈ selector.busyKeys

namespace Selector.Linked

variable {selector : Selector}

theorem update (linked : selector.Linked) {key : Nat} {cell cell' : SelectionKey}
    (found : selector.keys key = some cell) (same : cell'.node = cell.node) :
    Selector.Linked { selector with keys := Function.update selector.keys key (some cell') } := by
  refine ⟨linked.nodup, linked.bound, fun other otherCell node found' node' => ?_⟩
  by_cases here : other = key
  · subst here
    simp only [Function.update_self, Option.some.injEq] at found'
    subst found'
    exact linked.linked other cell node found (same ▸ node')
  · simp only [Function.update_of_ne here] at found'
    exact linked.linked other otherCell node found' node'

theorem withCurKey (linked : selector.Linked) (curKey : Option Nat) {polls : List Poll} :
    Selector.Linked { selector with curKey, polls } :=
  ⟨linked.nodup, linked.bound, linked.linked⟩

theorem takeFreeKey_ok (linked : selector.Linked) {node : Nat} {taken : Selector}
    (result : takeFreeKey selector = (node, taken)) :
    Selector.Linked { taken with busyKeys := taken.busyKeys ++ [node] } ∧
      taken.busyKeys = selector.busyKeys ∧ taken.curKey = selector.curKey := by
  have nodup := linked.nodup
  have bound := linked.bound
  unfold takeFreeKey at result
  cases free : selector.freeKeys with
  | nil =>
      rw [free, List.append_nil] at nodup bound
      simp only [free, Prod.mk.injEq] at result
      obtain ⟨rfl, rfl⟩ := result
      refine ⟨⟨?_, ?_, ?_⟩, rfl, rfl⟩
      · simp only [List.append_nil]
        refine List.nodup_append'.mpr ⟨nodup, List.nodup_singleton _, ?_⟩
        intro node member fresh
        rw [List.mem_singleton.mp fresh] at member
        exact Nat.lt_irrefl _ (bound _ member)
      · simp only [List.append_nil, List.mem_append, List.mem_singleton]
        intro node present
        rcases present with member | rfl
        · exact Nat.lt_succ_of_lt (bound node member)
        · exact Nat.lt_succ_self _
      · intro key cell node found node'
        by_cases here : key = selector.allocated
        · subst here
          simp only [Function.update_self, Option.some.injEq] at found
          subst found
          cases node'
        · simp only [Function.update_of_ne here] at found
          obtain ⟨same, member⟩ := linked.linked key cell node found node'
          exact ⟨same, List.mem_append_left _ member⟩
  | cons first rest =>
      rw [free] at nodup bound
      simp only [free, Prod.mk.injEq] at result
      obtain ⟨rfl, rfl⟩ := result
      refine ⟨⟨?_, ?_, fun key cell other found node' => ?_⟩, rfl, rfl⟩
      · simpa using nodup
      · simpa using bound
      · obtain ⟨same, member⟩ := linked.linked key cell other found node'
        exact ⟨same, List.mem_append_left _ member⟩

end Selector.Linked

theorem countRegistration_linked {selector after : Selector} {node : Nat}
    (linked : selector.Linked) (counted : countRegistration selector node = some after) :
    after.Linked ∧ after.busyKeys = selector.busyKeys ∧ after.curKey = selector.curKey := by
  simp only [countRegistration, Option.bind_eq_bind, Option.bind_eq_some_iff, Option.pure_def,
    Option.some.injEq] at counted
  obtain ⟨cell, found, rfl⟩ := counted
  exact ⟨linked.update found rfl, rfl, rfl⟩

theorem register_linked {selector after : Selector} {operation : Int16} {fd : Int}
    {attachment : Nat} {reallocated : Bool} {key : Option Nat} (linked : selector.Linked)
    (registered : register selector operation fd attachment reallocated = some (key, after)) :
    after.Linked ∧ selector.busyKeys ⊆ after.busyKeys ∧ after.curKey = selector.curKey := by
  unfold register at registered
  split at registered
  · simp only [Option.bind_eq_bind, Option.bind_eq_some_iff, Option.pure_def, Option.some.injEq,
      Prod.mk.injEq] at registered
    obtain ⟨counted, result, _, rfl⟩ := registered
    obtain ⟨linked', busy, current⟩ := countRegistration_linked linked result
    exact ⟨linked', by rw [busy]; exact List.Subset.refl _, current⟩
  · cases result : takeFreeKey selector with
    | mk node taken =>
        obtain ⟨linked', busy, current⟩ := linked.takeFreeKey_ok result
        have more : selector.busyKeys ⊆ taken.busyKeys ++ [node] := by
          rw [busy]
          exact List.subset_append_left _ _
        simp only [result] at registered
        cases grown : growPolls { taken with busyKeys := taken.busyKeys ++ [node] } reallocated with
        | none =>
            simp only [grown, Option.some.injEq, Prod.mk.injEq] at registered
            obtain ⟨_, rfl⟩ := registered
            exact ⟨linked', more, current⟩
        | some wide =>
            obtain ⟨polls, maxPolls, rfl⟩ : ∃ polls maxPolls, wide = { taken with
                busyKeys := taken.busyKeys ++ [node], polls, maxPolls } := by
              simp only [growPolls] at grown
              split at grown
              · simp only [Option.ite_none_right_eq_some, Option.some.injEq] at grown
                exact ⟨_, _, grown.2.symm⟩
              · exact ⟨_, _, (Option.some.inj grown).symm⟩
            simp only [grown, Option.bind_eq_bind, Option.bind_eq_some_iff, Option.pure_def,
              Option.some.injEq, Prod.mk.injEq] at registered
            obtain ⟨cell, found, slots, _, counted, result, _, rfl⟩ := registered
            refine (countRegistration_linked ?_ result).imp_right
              fun same => ⟨by rw [same.1]; exact more, same.2.trans current⟩
            refine ⟨linked'.nodup, linked'.bound, ?_⟩
            intro other otherCell back found' back'
            by_cases here : other = node
            · subst here
              simp only [Function.update_self, Option.some.injEq] at found'
              subst found'
              exact ⟨(Option.some.inj back').symm, by simp⟩
            · simp only [Function.update_of_ne here] at found'
              exact linked'.linked other otherCell back found' back'

/-- A key but for its slot. -/
def unplaced (cell : SelectionKey) : SelectionKey := { cell with poll := 0 }

theorem shiftKeys_unplaced {keys keys' : Nat → Option SelectionKey} {i : Int} {nodes : List Nat}
    (shifted : shiftKeys keys i nodes = some keys') (key : Nat) :
    (keys' key).map unplaced = (keys key).map unplaced := by
  induction nodes generalizing keys with
  | nil =>
      cases shifted
      rfl
  | cons node nodes ih =>
      simp only [shiftKeys, Option.bind_eq_bind, Option.bind_eq_some_iff] at shifted
      obtain ⟨cell, found, rest⟩ := shifted
      rw [ih rest]
      split
      · by_cases here : key = node
        · subst here
          simp [found, unplaced]
        · rw [Function.update_of_ne here]
      · rfl

theorem shiftPolls_unplaced {busyKeys : List Nat} {steps : Nat} {i : Int}
    {keys keys' : Nat → Option SelectionKey} {polls polls' : List Poll}
    (shifted : shiftPolls busyKeys steps i keys polls = some (keys', polls')) (key : Nat) :
    (keys' key).map unplaced = (keys key).map unplaced := by
  induction steps generalizing i keys polls with
  | zero =>
      cases shifted
      rfl
  | succ steps ih =>
      simp only [shiftPolls, Option.bind_eq_bind, Option.bind_eq_some_iff] at shifted
      obtain ⟨middle, first, slot, _, slots, _, rest⟩ := shifted
      rw [ih rest, shiftKeys_unplaced first]

/-- What an `Unregister` does to the lists: it keeps them, or moves the node of the key. -/
theorem unregister_linked {selector after : Selector} {key : Nat} {unregisterAll last : Bool}
    (linked : selector.Linked)
    (unregistered : unregister selector key unregisterAll = some (last, after)) :
    after.Linked ∧ after.curKey = selector.curKey ∧
      ((¬ Removes selector key unregisterAll ∧ after.busyKeys = selector.busyKeys) ∨
        (Removes selector key unregisterAll ∧ after.busyKeys = selector.busyKeys.erase key ∧
          (after.keys key).map unplaced = some SelectionKey.zero)) := by
  simp only [unregister, Option.bind_eq_bind, Option.bind_eq_some_iff] at unregistered
  obtain ⟨cell, found, rest⟩ := unregistered
  cases unlinked : cell.node with
  | none =>
      simp only [unlinked, Option.pure_def, Option.some.injEq, Prod.mk.injEq] at rest
      obtain ⟨_, rfl⟩ := rest
      refine ⟨linked, rfl, .inl ⟨?_, rfl⟩⟩
      intro inFree
      obtain ⟨other, found', isLinked, _⟩ := inFree
      cases found.symm.trans found'
      rw [unlinked] at isLinked
      cases isLinked
  | some node =>
      obtain ⟨rfl, member⟩ := linked.linked key cell node found unlinked
      have counted : ((!unregisterAll) = true ∧
          (if unregisterAll = true then cell.count else cell.count - 1) > 0) ↔
            ¬ Removes selector node unregisterAll := by
        simp only [Removes, found, Option.mem_def, Option.some.injEq, exists_eq_left', unlinked]
        cases unregisterAll <;> simp
      simp only [unlinked] at rest
      by_cases removed : Removes selector node unregisterAll
      · rw [if_neg (by rw [counted]; exact not_not.mpr removed)] at rest
        simp only [Option.bind_eq_some_iff, Option.guard_eq_some', Option.pure_def,
          Option.some.injEq, Prod.mk.injEq, Prod.exists] at rest
        obtain ⟨_, _, keys, polls, shifted, slots, _, _, rfl⟩ := rest
        have fields := shiftPolls_unplaced shifted
        refine ⟨⟨?_, ?_, ?_⟩, rfl, .inr ⟨removed, rfl, ?_⟩⟩
        · exact (erase_append_perm member).nodup_iff.mpr linked.nodup
        · simp only [List.mem_append, List.mem_singleton]
          intro other present
          rcases present with inBusy | inFree | rfl
          · exact linked.bound other (List.mem_append_left _ (List.mem_of_mem_erase inBusy))
          · exact linked.bound other (List.mem_append_right _ inFree)
          · exact linked.bound other (List.mem_append_left _ member)
        · intro other otherCell back found' back'
          have stored : keys other = some otherCell := found'
          have same := fields other
          rw [stored, Option.map_some] at same
          by_cases here : other = node
          · subst here
            simp only [Function.update_self, Option.map_some, Option.some.injEq] at same
            have cleared : otherCell.node = none := congrArg SelectionKey.node same
            rw [cleared] at back'
            cases back'
          · simp only [Function.update_of_ne here] at same
            obtain ⟨original, found'', same⟩ := Option.map_eq_some_iff.mp same.symm
            have kept : original.node = otherCell.node := by
              simpa only [unplaced] using congrArg SelectionKey.node same
            obtain ⟨equal, inBusy⟩ := linked.linked other original back found'' (kept.trans back')
            exact ⟨equal, (List.mem_erase_of_ne here).mpr inBusy⟩
        · rw [fields node]
          simp [unplaced, SelectionKey.zero]
      · rw [if_pos (counted.mpr removed)] at rest
        simp only [Option.pure_def, Option.some.injEq, Prod.mk.injEq] at rest
        obtain ⟨_, rfl⟩ := rest
        exact ⟨linked.update found unlinked.symm, rfl, .inl ⟨removed, rfl⟩⟩

theorem scanReady_linked {selector after : Selector} {nodes : List Nat} {key : Option Nat}
    (linked : selector.Linked) (scanned : scanReady selector nodes = some (key, after)) :
    after.Linked ∧ after.busyKeys = selector.busyKeys ∧ after.curKey = key ∧
      ∀ node ∈ key, node ∈ nodes := by
  induction nodes with
  | nil =>
      simp only [scanReady, Option.some.injEq, Prod.mk.injEq] at scanned
      obtain ⟨rfl, rfl⟩ := scanned
      exact ⟨linked.withCurKey none, rfl, rfl, by simp⟩
  | cons node nodes ih =>
      simp only [scanReady, Option.bind_eq_bind, Option.bind_eq_some_iff] at scanned
      obtain ⟨cell, found, poll, _, scanned⟩ := scanned
      split at scanned
      · simp only [Option.bind_eq_some_iff, Option.pure_def, Option.some.injEq,
          Prod.mk.injEq] at scanned
        obtain ⟨polls, _, rfl, rfl⟩ := scanned
        have counted : Selector.Linked { selector with
            keys := Function.update selector.keys node
              (some { cell with result := poll.revents, curCount := cell.curCount + 1 }) } :=
          linked.update found rfl
        exact ⟨counted.withCurKey (some node), rfl, rfl, by simp⟩
      · obtain ⟨linked', busy, current, member⟩ := ih scanned
        exact ⟨linked', busy, current, fun other here => List.mem_cons_of_mem _ (member other here)⟩

theorem scanFrom_linked {selector after : Selector} {key : Option Nat}
    (linked : selector.Linked) (scanned : scanFrom selector = some (key, after)) :
    after.Linked ∧ after.busyKeys = selector.busyKeys ∧
      (CurKeyBusy selector → CurKeyBusy after) := by
  unfold scanFrom at scanned
  split at scanned
  · simp only [Option.some.injEq, Prod.mk.injEq] at scanned
    obtain ⟨_, rfl⟩ := scanned
    exact ⟨linked, rfl, id⟩
  · simp only [Option.bind_eq_bind, Option.bind_eq_some_iff] at scanned
    obtain ⟨cell, _, scanned⟩ := scanned
    split at scanned
    · simp only [Option.pure_def, Option.some.injEq, Prod.mk.injEq] at scanned
      obtain ⟨_, rfl⟩ := scanned
      exact ⟨linked.withCurKey none, rfl, fun _ => by simp [CurKeyBusy]⟩
    · obtain ⟨linked', busy, current, member⟩ := scanReady_linked linked scanned
      refine ⟨linked', busy, fun _ node here => ?_⟩
      rw [current] at here
      rw [busy]
      exact (List.dropWhile_sublist _).subset (member node here)

theorem nextKey_busy {selector : Selector} {cell : SelectionKey} {next : Option Nat}
    (stepped : nextKey selector cell = some next) : ∀ key ∈ next, key ∈ selector.busyKeys := by
  simp only [nextKey, Option.bind_eq_bind, Option.bind_eq_some_iff, Option.pure_def,
    Option.some.injEq] at stepped
  obtain ⟨node, _, rfl⟩ := stepped
  intro key here
  exact (List.dropWhile_sublist _).subset (List.mem_of_getElem? here)

theorem selectionKeyReady_linked {selector after : Selector} {repoll : Repoll}
    {key : Option Nat} (linked : selector.Linked) (busy : CurKeyBusy selector)
    (ready : selectionKeyReady selector repoll = some (key, after)) :
    after.Linked ∧ after.busyKeys = selector.busyKeys ∧ CurKeyBusy after := by
  have scans (scanned : scanFrom selector = some (key, after)) :
      after.Linked ∧ after.busyKeys = selector.busyKeys ∧ CurKeyBusy after := by
    obtain ⟨linked', same, kept⟩ := scanFrom_linked linked scanned
    exact ⟨linked', same, kept busy⟩
  unfold selectionKeyReady at ready
  split at ready
  · exact scans ready
  · next current at_ =>
      simp only [Option.bind_eq_bind, Option.bind_eq_some_iff] at ready
      obtain ⟨cell, found, ready⟩ := ready
      split at ready
      · split at ready
        · split at ready
          · exact scans ready
          · split at ready
            · simp only [Option.pure_def, Option.some.injEq, Prod.mk.injEq] at ready
              obtain ⟨_, rfl⟩ := ready
              exact ⟨linked.update found rfl, rfl, busy⟩
            · obtain ⟨next, stepped, scanned⟩ := Option.bind_eq_some_iff.mp ready
              obtain ⟨linked', same, kept⟩ := scanFrom_linked (linked.withCurKey next) scanned
              exact ⟨linked', same, kept (nextKey_busy stepped)⟩
        · obtain ⟨next, stepped, scanned⟩ := Option.bind_eq_some_iff.mp ready
          have zeroed : Selector.Linked { selector with
              keys := Function.update selector.keys current (some { cell with curCount := 0 }) } :=
            linked.update found rfl
          obtain ⟨linked', same, kept⟩ := scanFrom_linked (zeroed.withCurKey next) scanned
          exact ⟨linked', same, kept (nextKey_busy stepped)⟩
      · exact scans ready

/-! ## One step -/

/-- A step keeps `curKey` on a busy key exactly if it keeps the guard. -/
theorem selectorStep_curKey {before after : Selector} {action : SelectorAction}
    (linked : before.Linked) (busy : CurKeyBusy before)
    (step : SelectorStep before action after) :
    after.Linked ∧ (CurKeyBusy after ↔ KeepsCurKey before action) := by
  unfold SelectorStep selectorStep at step
  cases action with
  | register operation fd attachment reallocated =>
      obtain ⟨⟨key, after⟩, registered, rfl⟩ := Option.map_eq_some_iff.mp step
      obtain ⟨linked', more, current⟩ := register_linked linked registered
      refine ⟨linked', iff_of_true (fun key here => ?_) trivial⟩
      simp only [current] at here
      exact more (busy key here)
  | unregister key unregisterAll =>
      obtain ⟨⟨last, after⟩, unregistered, rfl⟩ := Option.map_eq_some_iff.mp step
      obtain ⟨linked', current, result⟩ := unregister_linked linked unregistered
      refine ⟨linked', ?_⟩
      simp only [CurKeyBusy, KeepsCurKey, current]
      rcases result with ⟨stays, same⟩ | ⟨removed, erased, _⟩
      · rw [same]
        exact iff_of_true busy fun _ => stays
      · rw [erased]
        constructor
        · intro kept here
          have nodup := (List.nodup_append.mp linked.nodup).1
          exact absurd (kept key here) nodup.not_mem_erase
        · intro guarded other here
          have differs : other ≠ key := by
            intro equal
            subst equal
            exact guarded here removed
          exact (List.mem_erase_of_ne differs).mpr (busy other here)
  | select outcome =>
      have same : (select before outcome).2 = after := Option.some.inj step
      rw [← same]
      have kept : ∃ polls, (select before outcome).2 = { before with polls } := by
        unfold select
        split
        · exact ⟨_, rfl⟩
        · simp only
          split <;> exact ⟨_, rfl⟩
      obtain ⟨polls, kept⟩ := kept
      rw [kept]
      exact ⟨linked.withCurKey before.curKey, iff_of_true busy trivial⟩
  | ready repoll key =>
      simp only [Option.bind_eq_bind, Option.bind_eq_some_iff, Option.guard_eq_some',
        Option.pure_def, Option.some.injEq, Prod.exists] at step
      obtain ⟨returned, selector, ready, _, _, rfl⟩ := step
      obtain ⟨linked', _, busy'⟩ := selectionKeyReady_linked linked busy ready
      exact ⟨linked', iff_of_true busy' trivial⟩

/-- Behind an `Unregister` that takes the key of `curKey` away, `SelectionKeyReady` has no
node to scan from and returns false, whatever is ready. -/
theorem unregister_current_ends {before after : Selector} {key : Nat} {unregisterAll last : Bool}
    (linked : before.Linked) (current : before.curKey = some key)
    (removes : Removes before key unregisterAll)
    (unregistered : unregister before key unregisterAll = some (last, after)) (repoll : Repoll) :
    selectionKeyReady after repoll = some (none, { after with curKey := none }) := by
  obtain ⟨_, same, ⟨stays, _⟩ | ⟨_, _, cleared⟩⟩ := unregister_linked linked unregistered
  · exact absurd removes stays
  · obtain ⟨cell, found, zero⟩ := Option.map_eq_some_iff.mp cleared
    have node : cell.node = none := congrArg SelectionKey.node zero
    have curCount : cell.curCount = 0 := congrArg SelectionKey.curCount zero
    simp [selectionKeyReady, scanFrom, same, current, found, node, curCount]

theorem newSelector_linked (pipe : Int) : (newSelector pipe).Linked :=
  ⟨List.nodup_nil, by simp [newSelector], by simp [newSelector]⟩

end Aio4c
