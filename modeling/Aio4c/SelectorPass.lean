import Aio4c.SelectorCurKey

/-! Passes over the ready keys in which the caller unregisters keys between the calls.
While no `Unregister` takes the key of `curKey` away, a pass that comes to its end has
delivered every key that was ready. -/

set_option autoImplicit false

namespace Aio4c

open TransitionSystem

/-- The calls of a pass in front of the `SelectionKeyReady` that returns false. -/
def SelectorAction.InPass : SelectorAction → Prop
  | .ready _ key => key.isSome = true
  | .unregister _ _ => True
  | _ => False

/-- The key that a call delivers. -/
def SelectorAction.delivered : SelectorAction → Option Nat
  | .ready _ key => key
  | _ => none

/-- Every table that `Register` asks for is granted. -/
def SelectorAction.Granted : SelectorAction → Prop
  | .register _ _ _ reallocated => reallocated = true
  | _ => True

/-! ## Calls on a table of registrations -/

section

variable {selector after : Selector} {registry : Registry}

theorem scanReady_represents (represents : selector.Represents registry) {nodes : List Nat}
    (members : ∀ node ∈ nodes, node ∈ selector.busyKeys) {key : Option Nat}
    (scanned : scanReady selector nodes = some (key, after)) : after.Represents registry := by
  induction nodes with
  | nil =>
      simp only [scanReady, Option.some.injEq, Prod.mk.injEq] at scanned
      obtain ⟨_, rfl⟩ := scanned
      exact represents.withCurKey none
  | cons node nodes ih =>
      have member := members node List.mem_cons_self
      by_cases ready : 0 < reventsOf selector node
      · obtain ⟨found, result, _, visit⟩ := scanReady_found represents member ready nodes
        rw [result, Option.some.injEq, Prod.mk.injEq] at scanned
        obtain ⟨_, rfl⟩ := scanned
        exact visit.represents
      · rw [scanReady_skip represents member ready] at scanned
        exact ih (fun other here => members other (List.mem_cons_of_mem _ here)) scanned

theorem scanFrom_represents (represents : selector.Represents registry)
    (busy : CurKeyBusy selector) {key : Option Nat}
    (scanned : scanFrom selector = some (key, after)) : after.Represents registry := by
  cases start : selector.curKey.or selector.busyKeys.head? with
  | none =>
      simp only [scanFrom, start, Option.some.injEq, Prod.mk.injEq] at scanned
      obtain ⟨_, rfl⟩ := scanned
      exact represents
  | some current =>
      have member : current ∈ selector.busyKeys := by
        rcases Option.or_eq_some_iff.mp start with here | ⟨_, first⟩
        · exact busy current here
        · exact List.mem_of_mem_head? first
      rw [scanFrom_current represents start member] at scanned
      exact scanReady_represents represents
        (fun node here => (List.dropWhile_sublist _).subset here) scanned

theorem selectionKeyReady_represents (represents : selector.Represents registry)
    (busy : CurKeyBusy selector) {repoll : Repoll} {key : Option Nat}
    (ready : selectionKeyReady selector repoll = some (key, after)) :
    after.Represents registry := by
  unfold selectionKeyReady at ready
  split at ready
  · exact scanFrom_represents represents busy ready
  · next current at_ =>
      obtain ⟨i, cell, slot, _, here⟩ := represents.slotOf (busy current at_)
      have nonneg := here.current
      simp only [here.found, Option.bind_eq_bind, Option.bind_some] at ready
      split at ready
      · split at ready
        · split at ready
          · exact scanFrom_represents represents busy ready
          · split at ready
            · simp only [Option.pure_def, Option.some.injEq, Prod.mk.injEq] at ready
              obtain ⟨_, rfl⟩ := ready
              exact represents.recount here (busy current at_)
                (show 0 ≤ cell.curCount + 1 by omega) _
            · obtain ⟨next, stepped, scanned⟩ := Option.bind_eq_some_iff.mp ready
              exact scanFrom_represents (represents.withCurKey next) (nextKey_busy stepped) scanned
        · obtain ⟨next, stepped, scanned⟩ := Option.bind_eq_some_iff.mp ready
          have zeroed := represents.recount here (busy current at_) (Int.le_refl 0) cell.result
          exact scanFrom_represents (zeroed.withCurKey next) (nextKey_busy stepped) scanned
      · exact scanFrom_represents represents busy ready

/-- What a successful `Unregister` leaves of the other keys. -/
structure Spares (before : Selector) (registry : Registry) (after : Selector) : Prop where
  represents : after.Represents registry
  busyKeys : ∀ node ∈ after.busyKeys, node ∈ before.busyKeys
  revents : ∀ node ∈ after.busyKeys, reventsOf after node = reventsOf before node
  curCount : ∀ node ∈ after.busyKeys, (keyOf after node).curCount = (keyOf before node).curCount

theorem unregister_spares (represents : selector.Represents registry) (linked : selector.Linked)
    {key : Nat} {unregisterAll last : Bool}
    (unregistered : unregister selector key unregisterAll = some (last, after)) :
    ∃ registry', Spares selector registry' after := by
  cases found : selector.keys key with
  | none => simp [unregister, found] at unregistered
  | some cell =>
      cases unlinked : cell.node with
      | none =>
          simp only [unregister, found, unlinked, Option.bind_eq_bind, Option.bind_some,
            Option.pure_def, Option.some.injEq, Prod.mk.injEq] at unregistered
          obtain ⟨_, rfl⟩ := unregistered
          exact ⟨registry, represents, fun _ here => here, fun _ _ => rfl, fun _ _ => rfl⟩
      | some node =>
          obtain ⟨rfl, member⟩ := linked.linked key cell node found unlinked
          obtain ⟨i, cell', slot, place, here⟩ := represents.slotOf member
          cases found.symm.trans here.found
          have positive := here.positive
          by_cases final : unregisterAll = true ∨ cell.count = 1
          · obtain ⟨removed, result, represents', busy, _, moved⟩ :=
              represents.unregister_last here place final
            rw [result, Option.some.injEq, Prod.mk.injEq] at unregistered
            obtain ⟨_, rfl⟩ := unregistered
            have others : ∀ other ∈ removed.busyKeys, other ∈ selector.busyKeys ∧ other ≠ node := by
              intro other inBusy
              rw [busy] at inBusy
              refine ⟨List.mem_of_mem_erase inBusy, ?_⟩
              intro equal
              subst equal
              exact represents.busyNodup.not_mem_erase inBusy
            refine ⟨_, represents', fun other inBusy => (others other inBusy).1, ?_, ?_⟩
            · intro other inBusy
              obtain ⟨_, _, _, _, _, there, stays⟩ :=
                moved other (others other inBusy).1 (others other inBusy).2
              rw [there.reventsOf_eq, stays.reventsOf_eq]
            · intro other inBusy
              obtain ⟨_, _, _, _, _, there, stays⟩ :=
                moved other (others other inBusy).1 (others other inBusy).2
              rw [there.keyOf_eq, stays.keyOf_eq]
          · have counted : unregisterAll = false ∧ 1 < cell.count := by
              cases unregisterAll with
              | true => exact absurd (.inl rfl) final
              | false => exact ⟨rfl, by omega⟩
            obtain ⟨rfl, several⟩ := counted
            obtain ⟨result, represents'⟩ := represents.unregister_counted here member several
            rw [result, Option.some.injEq, Prod.mk.injEq] at unregistered
            obtain ⟨_, rfl⟩ := unregistered
            obtain ⟨keys, recounted⟩ : ∃ keys, keys = Function.update selector.keys node
                (some { cell with count := cell.count - 1 }) := ⟨_, rfl⟩
            rw [← recounted] at represents' ⊢
            have same (other : Nat) :
                (keyOf { selector with keys } other).poll = (keyOf selector other).poll ∧
                  (keyOf { selector with keys } other).curCount =
                    (keyOf selector other).curCount := by
              by_cases equal : other = node
              · subst equal
                simp [keyOf, here.found, recounted]
              · simp [keyOf, recounted, Function.update_of_ne equal]
            refine ⟨_, represents', fun _ inBusy => inBusy, fun other _ => ?_,
              fun other _ => (same other).2⟩
            simp only [reventsOf, (same other).1]

theorem scanReady_cases (represents : selector.Represents registry) {nodes : List Nat}
    (members : ∀ node ∈ nodes, node ∈ selector.busyKeys) :
    (scanReady selector nodes = some (none, { selector with curKey := none }) ∧
      ∀ node ∈ nodes, ¬ 0 < reventsOf selector node) ∨
    ∃ front key back after, nodes = front ++ key :: back ∧
      (∀ node ∈ front, ¬ 0 < reventsOf selector node) ∧
      scanReady selector nodes = some (some key, after) ∧ after.curKey = some key ∧
      Visit registry selector key ((keyOf selector key).curCount + 1) after := by
  induction nodes with
  | nil => exact .inl ⟨rfl, by simp⟩
  | cons node nodes ih =>
      have member := members node List.mem_cons_self
      by_cases ready : 0 < reventsOf selector node
      · obtain ⟨after, result, current, visit⟩ := scanReady_found represents member ready nodes
        exact .inr ⟨[], node, nodes, after, rfl, by simp, result, current, visit⟩
      · rw [scanReady_skip represents member ready]
        rcases ih fun other here => members other (List.mem_cons_of_mem _ here) with
          ⟨result, silent⟩ | ⟨front, key, back, after, rfl, silent, rest⟩
        · exact .inl ⟨result, List.forall_mem_cons.mpr ⟨ready, silent⟩⟩
        · exact .inr ⟨node :: front, key, back, after, rfl,
            List.forall_mem_cons.mpr ⟨ready, silent⟩, rest⟩

/-- In a pass no key in front of `curKey` is ready any more, nor is `curKey` itself, which
was delivered. -/
structure Passing (selector : Selector) (registry : Registry) : Prop where
  represents : selector.Represents registry
  linked : selector.Linked
  position : selector.curKey = none ∨ ∃ front node back,
    selector.busyKeys = front ++ node :: back ∧ selector.curKey = some node ∧
      (∀ other ∈ front ++ [node], ¬ 0 < reventsOf selector other) ∧
      1 ≤ (keyOf selector node).curCount

theorem Passing.curKeyBusy (passing : Passing selector registry) : CurKeyBusy selector := by
  intro key here
  rcases passing.position with none | ⟨front, node, back, busy, current, _, _⟩
  · simp [none] at here
  · rw [current, Option.mem_some_iff] at here
    subst here
    simp [busy]

theorem Passing.visited {front back : List Nat}
    {node : Nat} (busy : selector.busyKeys = front ++ node :: back)
    (silent : ∀ other ∈ front, ¬ 0 < reventsOf selector other) {curCount : Int}
    (returned : 1 ≤ curCount) (visit : Visit registry selector node curCount after)
    (current : after.curKey = some node) (linked : after.Linked) : Passing after registry :=
  ⟨visit.represents, linked, .inr ⟨front, node, back, visit.busyKeys.trans busy, current,
    visit.silent_of busy silent, by rw [visit.curCount]; exact returned⟩⟩

/-- A call delivers a key and leaves the other ready keys ready, or none is ready. -/
theorem Passing.ready (passing : Passing selector registry) {repoll : Repoll}
    {key : Option Nat} (ready : selectionKeyReady selector repoll = some (key, after)) :
    (key = none ∧ ∀ node ∈ selector.busyKeys, ¬ 0 < reventsOf selector node) ∨
      ∃ node, key = some node ∧ Passing after registry ∧ after.busyKeys = selector.busyKeys ∧
        ∀ other ∈ selector.busyKeys, other ≠ node → 0 < reventsOf selector other →
          0 < reventsOf after other := by
  have represents := passing.represents
  obtain ⟨linked, busyKeys, _⟩ := selectionKeyReady_linked passing.linked passing.curKeyBusy ready
  -- the scan of the keys behind a front that is done
  have scans {start : Selector} {front nodes : List Nat} (represents' : start.Represents registry)
      (busy : start.busyKeys = front ++ nodes) (same : start.busyKeys = selector.busyKeys)
      (silent : ∀ other ∈ front, ¬ 0 < reventsOf start other)
      (keeps : ∀ other ∈ selector.busyKeys, 0 < reventsOf selector other →
        0 < reventsOf start other)
      (scanned : scanReady start nodes = some (key, after)) :
      (key = none ∧ ∀ node ∈ selector.busyKeys, ¬ 0 < reventsOf selector node) ∨
        ∃ node, key = some node ∧ Passing after registry ∧ after.busyKeys = selector.busyKeys ∧
          ∀ other ∈ selector.busyKeys, other ≠ node → 0 < reventsOf selector other →
            0 < reventsOf after other := by
    have members : ∀ node ∈ nodes, node ∈ start.busyKeys := fun node here => by simp [busy, here]
    rcases scanReady_cases represents' members with
      ⟨result, quiet⟩ | ⟨middle, node, back, found, rfl, quiet, result, current, visit⟩
    · rw [result, Option.some.injEq, Prod.mk.injEq] at scanned
      refine .inl ⟨scanned.1.symm, fun other member here => ?_⟩
      have still := keeps other member here
      rw [← same, busy, List.mem_append] at member
      rcases member with inFront | inNodes
      · exact silent other inFront still
      · exact quiet other inNodes still
    · rw [result, Option.some.injEq, Prod.mk.injEq] at scanned
      obtain ⟨rfl, rfl⟩ := scanned
      have member : node ∈ start.busyKeys := members node (by simp)
      obtain ⟨i, cell, slot, _, here⟩ := represents'.slotOf member
      have nonneg := here.current
      have done : ∀ other ∈ front ++ middle, ¬ 0 < reventsOf start other :=
        fun other inFront => (List.mem_append.mp inFront).elim (silent other) (quiet other)
      refine .inr ⟨node, rfl, ?_, busyKeys, fun other inBusy differs here => ?_⟩
      · exact Passing.visited (by rw [busy, List.append_assoc]) done
          (by rw [here.keyOf_eq]; omega) visit current linked
      · rw [(visit.others other (by rw [same]; exact inBusy) differs).2]
        exact keeps other inBusy here
  rcases passing.position with idle | ⟨front, node, back, busy, current, silent, returned⟩
  · by_cases empty : selector.busyKeys = []
    · left
      simp only [selectionKeyReady, idle, scanFrom, empty, List.head?_nil, Option.or_none,
        Option.some.injEq, Prod.mk.injEq] at ready
      exact ⟨ready.1.symm, by simp [empty]⟩
    · have scanned : scanFrom selector = some (key, after) := by
        simpa only [selectionKeyReady, idle] using ready
      rw [scanFrom_idle represents empty idle] at scanned
      exact scans represents (List.nil_append _).symm rfl (by simp) (fun _ _ here => here) scanned
  · have front' : ∀ other ∈ front, ¬ 0 < reventsOf selector other :=
      fun other here => silent other (List.mem_append_left _ here)
    rcases selectionKeyReady_current represents busy silent current returned repoll with
      ⟨next, _, result, current', visit⟩ | ⟨next, result, visit⟩
    · rw [result, Option.some.injEq, Prod.mk.injEq] at ready
      obtain ⟨rfl, rfl⟩ := ready
      refine .inr ⟨node, rfl, ?_, busyKeys, fun other inBusy differs here => ?_⟩
      · exact Passing.visited busy front' (by omega) visit current' linked
      · rw [(visit.others other inBusy differs).2]
        exact here
    · rw [result] at ready
      refine scans visit.represents ?_ visit.busyKeys (visit.silent_of busy front') ?_ ready
      · rw [visit.busyKeys, busy]
        simp
      · intro other inBusy here
        have differs : other ≠ node := by
          intro equal
          subst equal
          exact silent other (by simp) here
        rw [(visit.others other inBusy differs).2]
        exact here

theorem Passing.unregister (passing : Passing selector registry) {key : Nat}
    {unregisterAll last : Bool} (keeps : KeepsCurKey selector (.unregister key unregisterAll))
    (unregistered : unregister selector key unregisterAll = some (last, after)) :
    ∃ registry', Passing after registry' ∧ (∀ node ∈ after.busyKeys, node ∈ selector.busyKeys) ∧
      ∀ node ∈ after.busyKeys, reventsOf after node = reventsOf selector node := by
  obtain ⟨linked, curKey, result⟩ := unregister_linked passing.linked unregistered
  obtain ⟨registry', spares⟩ := unregister_spares passing.represents passing.linked unregistered
  refine ⟨registry', ⟨spares.represents, linked, ?_⟩, spares.busyKeys, spares.revents⟩
  rcases passing.position with idle | ⟨front, node, back, busy, current, silent, returned⟩
  · exact .inl (curKey.trans idle)
  · -- the keys around `curKey` that are left
    obtain ⟨front', back', busy', fewer⟩ : ∃ front' back',
        after.busyKeys = front' ++ node :: back' ∧ front'.Sublist front := by
      rcases result with ⟨_, same⟩ | ⟨removes, erased, _⟩
      · exact ⟨front, back, same.trans busy, List.Sublist.refl _⟩
      · have differs : node ≠ key := by
          intro equal
          subst equal
          exact keeps current removes
        rw [erased, busy]
        by_cases inFront : key ∈ front
        · exact ⟨_, back, List.erase_append_left _ inFront, List.erase_sublist⟩
        · refine ⟨front, back.erase key, ?_, List.Sublist.refl _⟩
          rw [List.erase_append_right _ inFront, List.erase_cons_tail (by simpa using differs)]
    have still : ∀ other ∈ front' ++ [node], other ∈ after.busyKeys := by
      intro other here
      rw [busy']
      rcases List.mem_append.mp here with here | here
      · exact List.mem_append_left _ here
      · simp [List.mem_singleton.mp here]
    refine .inr ⟨front', node, back', busy', curKey.trans current, fun other here => ?_, ?_⟩
    · rw [spares.revents other (still other here)]
      exact silent other ((fewer.append_right _).subset here)
    · rw [spares.curCount node (still node (by simp))]
      exact returned

/-- A pass that has come to its end delivered each key that was ready and is still busy. -/
theorem Passing.delivers (passing : Passing selector registry) {calls : List SelectorAction}
    {last final : Selector} {repoll : Repoll} (inPass : ∀ call ∈ calls, call.InPass)
    (run : Run (Guarded KeepsCurKey SelectorStep) selector calls last)
    (ended : selectionKeyReady last repoll = some (none, final)) {node : Nat}
    (ready : node ∈ selector.busyKeys → 0 < reventsOf selector node)
    (member : node ∈ last.busyKeys) : node ∈ calls.filterMap SelectorAction.delivered := by
  induction run generalizing registry with
  | nil state =>
      rcases passing.ready ended with ⟨_, silent⟩ | ⟨key, delivered, _⟩
      · exact absurd (ready member) (silent node member)
      · cases delivered
  | @cons before middle after action calls taken run ih =>
      obtain ⟨keeps, step⟩ := taken
      have later := fun call here => inPass call (List.mem_cons_of_mem _ here)
      unfold SelectorStep selectorStep at step
      cases action with
      | ready repoll key =>
          simp only [Option.bind_eq_bind, Option.bind_eq_some_iff, Option.guard_eq_some',
            Option.pure_def, Option.some.injEq, Prod.exists] at step
          obtain ⟨returned, selector, result, _, same, rfl⟩ := step
          rcases passing.ready result with ⟨nothing, _⟩ | ⟨found, delivered, passing', busy, others⟩
          · have isSome : key.isSome = true := inPass _ List.mem_cons_self
            rw [← same, nothing] at isSome
            cases isSome
          · rw [List.filterMap_cons_some (show SelectorAction.delivered (.ready repoll key) =
              some found from same.symm.trans delivered)]
            by_cases equal : node = found
            · rw [equal]
              exact List.mem_cons_self
            · refine List.mem_cons_of_mem _ (ih passing' later ended (fun inBusy => ?_) member)
              rw [busy] at inBusy
              exact others node inBusy equal (ready inBusy)
      | unregister key unregisterAll =>
          obtain ⟨⟨wasLast, selector⟩, unregistered, rfl⟩ := Option.map_eq_some_iff.mp step
          obtain ⟨registry', passing', fewer, revents⟩ := passing.unregister keeps unregistered
          rw [List.filterMap_cons_none rfl]
          refine ih passing' later ended (fun inBusy => ?_) member
          rw [revents node inBusy]
          exact ready (fewer node inBusy)
      | register | select => exact (inPass _ List.mem_cons_self).elim

end

/-! ## Every reachable selector -/

/-- The table stays one of registrations along the calls that get the memory they ask for,
where `SelectionKeyReady` keeps it. -/
theorem selectorStep_represents {before after : Selector} {registry : Registry}
    {action : SelectorAction} (represents : before.Represents registry) (linked : before.Linked)
    (granted : action.Granted)
    (delivers : ∀ repoll key after, selectionKeyReady before repoll = some (key, after) →
      after.Represents registry)
    (step : SelectorStep before action after) : ∃ registry', after.Represents registry' := by
  unfold SelectorStep selectorStep at step
  cases action with
  | register operation fd attachment reallocated =>
      cases show reallocated = true from granted
      obtain ⟨⟨key, after⟩, registered, rfl⟩ := Option.map_eq_some_iff.mp step
      cases known : registry fd with
      | some registration =>
          obtain ⟨selector, result, represents'⟩ :=
            represents.register_known known operation attachment
          rw [result, Option.some.injEq, Prod.mk.injEq] at registered
          obtain ⟨_, rfl⟩ := registered
          exact ⟨_, represents'⟩
      | none =>
          obtain ⟨node, selector, result, _, represents'⟩ :=
            represents.register_new known operation attachment
          rw [result, Option.some.injEq, Prod.mk.injEq] at registered
          obtain ⟨_, rfl⟩ := registered
          exact ⟨_, represents'⟩
  | unregister key unregisterAll =>
      obtain ⟨⟨last, after⟩, unregistered, rfl⟩ := Option.map_eq_some_iff.mp step
      obtain ⟨registry', spares⟩ := unregister_spares represents linked unregistered
      exact ⟨registry', spares.represents⟩
  | select outcome =>
      have same : (select before outcome).2 = after := Option.some.inj step
      cases outcome with
      | none => exact ⟨registry, by rw [← same]; exact represents⟩
      | some outcome =>
          obtain ⟨ready, polls, result, represents', _⟩ :=
            represents.select outcome.1 outcome.2
          rw [result] at same
          exact ⟨registry, by rw [← same]; exact represents'⟩
  | ready repoll key =>
      simp only [Option.bind_eq_bind, Option.bind_eq_some_iff, Option.guard_eq_some',
        Option.pure_def, Option.some.injEq, Prod.exists] at step
      obtain ⟨returned, selector, ready, _, _, rfl⟩ := step
      exact ⟨registry, delivers repoll returned selector ready⟩

theorem newSelector_reaches {pipe : Int} {actions : List SelectorAction} {state : Selector}
    (run : Run (Guarded KeepsCurKey SelectorStep) (newSelector pipe) actions state) :
    state.Linked ∧ CurKeyBusy state := by
  apply run.keeps
  · intro before action after holds taken
    obtain ⟨linked, kept⟩ := selectorStep_curKey holds.1 holds.2 taken.2
    exact ⟨linked, kept.mpr taken.1⟩
  · exact ⟨newSelector_linked pipe, by simp [CurKeyBusy, newSelector]⟩

theorem newSelector_reaches_table {pipe : Int} {actions : List SelectorAction} {state : Selector}
    (granted : ∀ action ∈ actions, action.Granted)
    (run : Run (Guarded KeepsCurKey SelectorStep) (newSelector pipe) actions state) :
    ∃ registry, Selector.Represents state registry := by
  have reached : (state.Linked ∧ CurKeyBusy state) ∧ ∃ registry, state.Represents registry := by
    apply run.keeps_allowed granted
    · intro before action after granted holds taken
      obtain ⟨⟨linked, busy⟩, registry, represents⟩ := holds
      obtain ⟨linked', kept⟩ := selectorStep_curKey linked busy taken.2
      exact ⟨⟨linked', kept.mpr taken.1⟩, selectorStep_represents represents linked granted
        (fun _ _ _ ready => selectionKeyReady_represents represents busy ready) taken.2⟩
    · exact ⟨⟨newSelector_linked pipe, by simp [CurKeyBusy, newSelector]⟩, _,
        newSelector_represents pipe⟩
  exact reached.2

/-- As long as no `Unregister` takes the key of `curKey` off the busy list, `curKey` is
NULL or busy in every state reached, and no longer than that; and a pass, with any such
`Unregister` calls in it, delivers every key that was ready and stays busy. -/
theorem newSelector_curKey_busy {pipe : Int} {actions : List SelectorAction} {state : Selector}
    (run : Run (Guarded KeepsCurKey SelectorStep) (newSelector pipe) actions state) :
    CurKeyBusy state ∧
      (∀ action after, SelectorStep state action after →
        (CurKeyBusy after ↔ KeepsCurKey state action)) ∧
      ((∀ action ∈ actions, action.Granted) → state.curKey = none →
        ∀ calls last repoll final, (∀ call ∈ calls, call.InPass) →
          Run (Guarded KeepsCurKey SelectorStep) state calls last →
          selectionKeyReady last repoll = some (none, final) →
          ∀ node ∈ state.busyKeys, 0 < reventsOf state node →
            node ∈ calls.filterMap SelectorAction.delivered ∨ node ∉ last.busyKeys) := by
  obtain ⟨linked, busy⟩ := newSelector_reaches run
  refine ⟨busy, fun action after step => (selectorStep_curKey linked busy step).2, ?_⟩
  intro granted idle calls last repoll final inPass pass ended node member ready
  obtain ⟨registry, represents⟩ := newSelector_reaches_table granted run
  have passing : Passing state registry := ⟨represents, linked, .inl idle⟩
  by_cases left : node ∈ last.busyKeys
  · exact .inl (passing.delivers inPass pass ended (fun _ => ready) left)
  · exact .inr left

/-- Two descriptors, both ready. -/
def twoReady : List SelectorAction :=
  [.register opRead 5 0 true, .register opRead 6 0 true,
    .select (some (2, fun i => if i = 0 then 0 else opRead))]

/-- The key that is delivered is registered twice and outlives its `Unregister`. -/
def countedDelivery : List SelectorAction :=
  .register opRead 5 0 true :: twoReady ++ [.ready .error (some 0), .unregister 0 false]

theorem newSelector_curKey_busy_counted :
    ∃ state, Run (Guarded KeepsCurKey SelectorStep) (newSelector 3) countedDelivery state ∧
      state.curKey = some 0 ∧
      CurKeyBusy state ∧
      (∀ action after, SelectorStep state action after →
        (CurKeyBusy after ↔ KeepsCurKey state action)) ∧
      ((∀ action ∈ countedDelivery, action.Granted) →
        state.curKey = none → ∀ calls last repoll final, (∀ call ∈ calls, call.InPass) →
          Run (Guarded KeepsCurKey SelectorStep) state calls last →
          selectionKeyReady last repoll = some (none, final) →
          ∀ node ∈ state.busyKeys, 0 < reventsOf state node →
            node ∈ calls.filterMap SelectorAction.delivered ∨ node ∉ last.busyKeys) := by
  obtain ⟨state, reached, run⟩ := exists_run_of_execute (Guarded KeepsCurKey SelectorStep)
    (guardedNext KeepsCurKey selectorStep) (newSelector 3) countedDelivery
    (fun _ _ _ taken => guardedNext_sound taken) (by decide +kernel)
  have current : (execute (guardedNext KeepsCurKey selectorStep) (newSelector 3)
      countedDelivery).map Selector.curKey = some (some 0) := by decide +kernel
  rw [reached, Option.map_some, Option.some.injEq] at current
  exact ⟨state, run, current, newSelector_curKey_busy run⟩

/-- The key just delivered is unregistered: `curKey` is left on a key that is not busy, and
the pass ends without the other key that was ready. -/
theorem newSelector_curKey_dangles :
    (¬ ∀ (pipe : Int) (actions : List SelectorAction) (state : Selector),
      Run SelectorStep (newSelector pipe) actions state → CurKeyBusy state) ∧
    ¬ ∀ (pipe : Int) (actions : List SelectorAction) (state : Selector),
      Run SelectorStep (newSelector pipe) actions state →
      (∀ action ∈ actions, action.Granted) → state.curKey = none →
      ∀ calls last repoll final, (∀ call ∈ calls, call.InPass) → Run SelectorStep state calls last →
        selectionKeyReady last repoll = some (none, final) →
        ∀ node ∈ state.busyKeys, 0 < reventsOf state node →
          node ∈ calls.filterMap SelectorAction.delivered ∨ node ∉ last.busyKeys := by
  constructor
  · intro stays
    obtain ⟨state, reached, run⟩ := exists_run_of_execute SelectorStep selectorStep (newSelector 3)
      (twoReady ++ [.ready .error (some 0), .unregister 0 true])
      (fun _ _ _ taken => taken) (by decide +kernel)
    have dangles : (execute selectorStep (newSelector 3)
        (twoReady ++ [.ready .error (some 0), .unregister 0 true])).map (fun state =>
          decide (0 ∈ state.curKey ∧ 0 ∉ state.busyKeys)) = some true := by decide +kernel
    rw [reached, Option.map_some, Option.some.injEq, decide_eq_true_eq] at dangles
    exact dangles.2 (stays _ _ state run 0 dangles.1)
  · intro delivers
    obtain ⟨state, reached, run⟩ := exists_run_of_execute SelectorStep selectorStep (newSelector 3)
      twoReady (fun _ _ _ taken => taken) (by decide +kernel)
    have start : (execute selectorStep (newSelector 3) twoReady).map (fun state =>
        decide (state.curKey = none ∧ 1 ∈ state.busyKeys ∧ 0 < reventsOf state 1) &&
          ((execute selectorStep state [.ready .error (some 0), .unregister 0 true]).map
            (fun last => decide (1 ∈ last.busyKeys) &&
              ((selectionKeyReady last .error).map (·.1) == some none))).getD false) =
        some true := by decide +kernel
    rw [reached, Option.map_some, Option.some.injEq, Bool.and_eq_true, decide_eq_true_eq] at start
    obtain ⟨⟨idle, busy, ready⟩, rest⟩ := start
    obtain ⟨last, reached', pass⟩ := exists_run_of_execute SelectorStep selectorStep state
      [.ready .error (some 0), .unregister 0 true] (fun _ _ _ taken => taken) (by
        cases taken : execute selectorStep state [.ready .error (some 0), .unregister 0 true] with
        | none => simp [taken] at rest
        | some _ => rfl)
    rw [reached', Option.map_some, Option.getD_some, Bool.and_eq_true, decide_eq_true_eq] at rest
    obtain ⟨left, finished⟩ := rest
    obtain ⟨⟨key, final⟩, ended, same⟩ := Option.map_eq_some_iff.mp (beq_iff_eq.mp finished)
    cases same
    have granted : ∀ action ∈ twoReady, action.Granted := by
      simp [twoReady, SelectorAction.Granted]
    rcases delivers _ _ state run granted idle _ last .error final (by
      simp [SelectorAction.InPass]) pass ended 1 busy ready with delivered | gone
    · simp [SelectorAction.delivered] at delivered
    · exact gone left

end Aio4c
