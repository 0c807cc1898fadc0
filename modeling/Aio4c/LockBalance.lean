import Aio4c.Library.CriticalSection
import Aio4c.Library.TransitionSystem
import Aio4c.Queue
import Aio4c.SelectorCurKey

/-! The functions of selectors and queues with the places where they take and release
their lock. Each does what its function without the lock does. All release it on every
return but one, the return of `SelectionKeyReady` that finds no busy key. Operations on a
lock that was initialized do not fail. -/

set_option autoImplicit false

namespace Aio4c

open CriticalSection TransitionSystem

/-! ## Selectors -/

/-- `Register`. Without memory for a new node it dereferences NULL. -/
def lockedRegister (operation : Int16) (fd : Int) (attachment : Nat)
    (granted reallocated : Bool) : Locking Selector (Option Nat) := do
  takeLock
  let selector ← peek
  match selector.busyKeys.find? fun node => (selector.keys node).any fun key => key.fd = fd with
  | some node =>
      access fun selector => do pure ((), ← countRegistration selector node)
      releaseLock
      return some node
  | none =>
      if selector.freeKeys = [] ∧ granted = false then stop .fault
      let (node, selector) := takeFreeKey selector
      let selector := { selector with busyKeys := selector.busyKeys ++ [node] }
      match growPolls selector reallocated with
      | none =>
          assign selector
          releaseLock
          return none
      | some selector =>
          access fun _ => do
            let key ← selector.keys node
            let key := { key with
              poll := selector.numPolls, node := some node, operation, fd, attachment
              count := 0, curCount := 0 }
            let polls ← setPoll selector.polls selector.numPolls
              { fd, events := operation, revents := 0 }
            let selector := { selector with
              keys := Function.update selector.keys node (some key), polls
              numPolls := selector.numPolls + 1 }
            pure ((), ← countRegistration selector node)
          releaseLock
          return some node

def lockedUnregister (key : Nat) (unregisterAll : Bool) : Locking Selector Bool := do
  let cell ← access fun selector => do pure (← selector.keys key, selector)
  takeLock
  match cell.node with
  | none =>
      releaseLock
      return true
  | some node =>
      let count := if unregisterAll then cell.count else cell.count - 1
      let selector ← peek
      let selector := { selector with
        keys := Function.update selector.keys key (some { cell with count }) }
      if !unregisterAll ∧ count > 0 then
        assign selector
        releaseLock
        return false
      else
        access fun _ => do
          guard (node ∈ selector.busyKeys)
          let busyKeys := selector.busyKeys.erase node
          let keys := Function.update selector.keys key (some SelectionKey.zero)
          let steps := (selector.numPolls - 1 - cell.poll).toNat
          let (keys, polls) ← shiftPolls busyKeys steps cell.poll keys selector.polls
          let polls ← setPoll polls (cell.poll + steps) Poll.zero
          pure ((), { selector with
            keys, polls, busyKeys, freeKeys := selector.freeKeys ++ [node]
            numPolls := selector.numPolls - 1 })
        releaseLock
        return true

/-- The outcome of one `poll` that waits. -/
inductive PollOutcome where
  | interrupted
  | failed
  | ready (nbPolls : Int) (revents : Nat → Int16)

/-- The loop of `_Select` around `poll`. -/
def lockedPoll : List PollOutcome → Locking Selector Int
  | [] => stop .waiting
  | .interrupted :: outcomes => lockedPoll outcomes
  | .failed :: _ => do
      releaseLock
      return 0
  | .ready nbPolls revents :: _ => do
      let nbPolls ← access fun selector => some (select selector (some (nbPolls, revents)))
      releaseLock
      return nbPolls

def lockedSelect (outcomes : List PollOutcome) : Locking Selector Int := do
  takeLock
  lockedPoll outcomes

/-- The scan of `SelectionKeyReady`. -/
def lockedScanFrom : Locking Selector (Option Nat) := do
  let selector ← peek
  match selector.curKey.or selector.busyKeys.head? with
  | none => return none -- "selecting with no busy key": the lock is not released
  | some _ =>
      let key ← access scanFrom
      releaseLock
      return key

def lockedSelectionKeyReady (repoll : Repoll) : Locking Selector (Option Nat) := do
  takeLock
  let selector ← peek
  match selector.curKey with
  | none => lockedScanFrom
  | some current =>
      let key ← access fun selector => do pure (← selector.keys current, selector)
      if key.curCount ≥ 1 then
        if key.count > key.curCount then
          match repoll with
          | .error => lockedScanFrom
          | .revents revents =>
              if revents &&& key.operation ≠ 0 then
                assign { selector with
                  keys := Function.update selector.keys current
                    (some { key with result := revents, curCount := key.curCount + 1 }) }
                releaseLock
                return some current
              else
                let curKey ← access fun selector => do pure (← nextKey selector key, selector)
                assign { selector with curKey }
                lockedScanFrom
        else
          let curKey ← access fun selector => do pure (← nextKey selector key, selector)
          assign { selector with
            keys := Function.update selector.keys current (some { key with curCount := 0 }), curKey }
          lockedScanFrom
      else lockedScanFrom

/-! ## Queues -/

/-- `_Enqueue`, of a queue or of NULL. -/
def lockedEnqueue (null : Bool) (item : QueueItem) (granted : Bool) : Locking Queue Bool := do
  if null then return false
  takeLock
  let queue ← peek
  if queue.exit then
    releaseLock
    return false
  else
    if listEmpty queue.free && !granted then stop .fault
    let accepted ← access fun queue => enqueue queue item
    releaseLock
    return accepted

/-- The waits of `Dequeue`. In `WaitCondition` the lock is free, and others leave the
queue as they please; a wait that fails ends the loop. -/
def lockedWait (wait : Bool) : List (Bool × Queue) → Locking Queue Unit
  | [] => do
      let queue ← peek
      if !queue.exit && wait && listEmpty queue.busy then stop .waiting
  | (notified, others) :: rounds => do
      let queue ← peek
      if !queue.exit && wait && listEmpty queue.busy then
        releaseLock
        assign others
        takeLock
        if notified then lockedWait wait rounds

def lockedDequeue (item : QueueItem) (wait : Bool) (rounds : List (Bool × Queue)) :
    Locking Queue Dequeued := do
  takeLock
  let queue ← peek
  if queue.emptied then
    assign { queue with emptied := false }
    releaseLock
    return .returned false item
  else
    lockedWait wait rounds
    let dequeued ← access dequeueItem
    releaseLock
    return dequeued

def lockedRemoveAll {σ : Type} (removeCallback : QueueItem → σ → Bool × σ) (state : σ) :
    Locking Queue (Bool × σ) := do
  takeLock
  let removed ← access fun queue => removeAll queue removeCallback state
  releaseLock
  return removed

/-! ## What each call leaves -/

theorem lockedRegister_completes (selector : Selector) (operation : Int16) (fd : Int)
    (attachment : Nat) (granted reallocated : Bool) :
    Completes (lockedRegister operation fd attachment granted reallocated
        { state := selector, locked := false })
      (register selector operation fd attachment reallocated) false := by
  unfold lockedRegister register
  simp only [bind_run, takeLock_free, bind_ok, peek_run]
  cases selector.busyKeys.find? fun node => (selector.keys node).any fun key => key.fd = fd with
  | some node =>
      have completes := Completes.release
        (fun selector => do pure ((), ← countRegistration selector node)) (some node) selector true
      simpa only [Option.bind_eq_bind, Option.map_bind, Option.pure_def, Option.map_some,
        Function.comp_def] using completes
  | none =>
      by_cases missing : selector.freeKeys = [] ∧ granted = false
      · simp only [if_pos missing]
        exact Completes.faulted
      · simp only [if_neg missing]
        cases takeFreeKey selector with
        | mk node taken =>
            cases growPolls { taken with busyKeys := taken.busyKeys ++ [node] } reallocated with
            | none => exact Completes.returned rfl
            | some wide =>
                have completes := Completes.release (fun _ => do
                  let key ← wide.keys node
                  let key := { key with
                    poll := wide.numPolls, node := some node, operation, fd, attachment
                    count := 0, curCount := 0 }
                  let polls ← setPoll wide.polls wide.numPolls
                    { fd, events := operation, revents := 0 }
                  let selector := { wide with
                    keys := Function.update wide.keys node (some key), polls
                    numPolls := wide.numPolls + 1 }
                  pure ((), ← countRegistration selector node)) (some node) selector true
                simpa only [Option.bind_eq_bind, Option.map_bind, Option.pure_def, Option.map_some,
                  Function.comp_def] using completes

theorem lockedUnregister_completes (selector : Selector) (key : Nat) (unregisterAll : Bool) :
    Completes (lockedUnregister key unregisterAll { state := selector, locked := false })
      (unregister selector key unregisterAll) false := by
  unfold lockedUnregister unregister
  cases found : selector.keys key with
  | none =>
      simp only [bind_run, access, found]
      exact Completes.faulted
  | some cell =>
      simp only [bind_run, access, found, Option.bind_eq_bind, Option.bind_some, Option.pure_def,
        bind_ok, takeLock_free]
      cases cell.node with
      | none => exact Completes.returned rfl
      | some node =>
          simp only [bind_run, peek_run, bind_ok]
          generalize (if unregisterAll = true then cell.count else cell.count - 1) = count
          by_cases counted : (!unregisterAll) = true ∧ count > 0
          · simp only [if_pos counted]
            exact Completes.returned rfl
          · simp only [if_neg counted]
            have completes := Completes.release (fun _ => do
              guard (node ∈ selector.busyKeys)
              let busyKeys := selector.busyKeys.erase node
              let keys := Function.update (Function.update selector.keys key
                (some { cell with node := some node, count })) key (some SelectionKey.zero)
              let steps := (selector.numPolls - 1 - cell.poll).toNat
              let (keys, polls) ← shiftPolls busyKeys steps cell.poll keys selector.polls
              let polls ← setPoll polls (cell.poll + steps) Poll.zero
              pure ((), { selector with
                keys, polls, busyKeys, freeKeys := selector.freeKeys ++ [node]
                numPolls := selector.numPolls - 1 })) true selector true
            simpa only [Option.bind_eq_bind, Option.map_bind, Option.pure_def, Option.map_some,
              Function.comp_def] using completes

theorem lockedPoll_completes (selector : Selector) (outcomes : List PollOutcome) :
    ∃ outcome, Completes (lockedPoll outcomes { state := selector, locked := true })
      (some (select selector outcome)) false := by
  induction outcomes with
  | nil => exact ⟨none, .inl ⟨.waiting, by decide, rfl⟩⟩
  | cons first outcomes ih =>
      cases first with
      | interrupted => exact ih
      | failed => exact ⟨none, Completes.returned rfl⟩
      | ready nbPolls revents => exact ⟨some (nbPolls, revents), Completes.returned rfl⟩

theorem lockedSelect_completes (selector : Selector) (outcomes : List PollOutcome) :
    ∃ outcome, Completes (lockedSelect outcomes { state := selector, locked := false })
      (some (select selector outcome)) false :=
  lockedPoll_completes selector outcomes

/-- The return of `SelectionKeyReady` that keeps the lock: nothing is busy, and `curKey` is
NULL or moves on. It stays at a key that is new to the pass, at one whose re-poll failed,
and at one that is still ready. -/
def Repoll.stays (operation : Int16) : Repoll → Bool
  | .error => true
  | .revents ready => decide (ready &&& operation ≠ 0)

def ReadyReleases (selector : Selector) (repoll : Repoll) : Prop :=
  selector.busyKeys ≠ [] ∨ ∃ current ∈ selector.curKey, ∃ key ∈ selector.keys current,
    key.curCount < 1 ∨ (key.curCount < key.count ∧ repoll.stays key.operation = true)

instance (selector : Selector) (repoll : Repoll) : Decidable (ReadyReleases selector repoll) :=
  inferInstanceAs (Decidable (_ ∨ ∃ current ∈ selector.curKey, ∃ key ∈ selector.keys current, _))

theorem lockedScanFrom_completes (selector : Selector) :
    Completes (lockedScanFrom { state := selector, locked := true }) (scanFrom selector)
      (selector.curKey.or selector.busyKeys.head?).isNone := by
  unfold lockedScanFrom
  simp only [bind_run, peek_run, bind_ok]
  cases start : selector.curKey.or selector.busyKeys.head? with
  | none => exact Completes.returned (by simp [scanFrom, start])
  | some current => exact Completes.releaseValue scanFrom selector true

theorem lockedSelectionKeyReady_completes (selector : Selector) (repoll : Repoll) :
    Completes (lockedSelectionKeyReady repoll { state := selector, locked := false })
      (selectionKeyReady selector repoll) (!decide (ReadyReleases selector repoll)) := by
  have scans {selector : Selector} {locked : Bool}
      (same : (selector.curKey.or selector.busyKeys.head?).isNone = locked) :
      Completes (lockedScanFrom { state := selector, locked := true }) (scanFrom selector) locked :=
    same ▸ lockedScanFrom_completes selector
  unfold lockedSelectionKeyReady selectionKeyReady
  simp only [bind_run, takeLock_free, bind_ok, peek_run]
  cases at_ : selector.curKey with
  | none =>
      refine scans ?_
      cases busy : selector.busyKeys <;> simp [at_, ReadyReleases, busy]
  | some current =>
      cases found : selector.keys current with
      | none =>
          simp only [bind_run, access, found]
          exact Completes.faulted
      | some key =>
          simp only [bind_run, access, found, Option.bind_eq_bind, Option.bind_some,
            Option.pure_def, bind_ok]
          have releases : ReadyReleases selector repoll ↔ selector.busyKeys ≠ [] ∨
              key.curCount < 1 ∨
                (key.curCount < key.count ∧ repoll.stays key.operation = true) := by
            simp [ReadyReleases, at_, found]
          have started : (selector.curKey.or selector.busyKeys.head?).isNone = false := by
            simp [at_]
          -- behind a step to the next key
          have moves (moved : 1 ≤ key.curCount)
              (left : ¬ (key.curCount < key.count ∧ repoll.stays key.operation = true))
              {next : Option Nat} (stepped : nextKey selector key = some next) :
              (next.or selector.busyKeys.head?).isNone = !decide (ReadyReleases selector repoll) := by
            have none : selector.busyKeys = [] → next = none := by
              intro empty
              have busy := nextKey_busy stepped
              rw [empty] at busy
              exact Option.eq_none_iff_forall_not_mem.mpr fun other here =>
                List.not_mem_nil (busy other here)
            have fresh : ¬ key.curCount < 1 := by omega
            simp only [releases, fresh, left, or_false]
            cases busy : selector.busyKeys with
            | nil => simp [none busy]
            | cons first rest => simp
          by_cases returned : key.curCount ≥ 1
          · simp only [if_pos returned]
            by_cases pending : key.count > key.curCount
            · simp only [if_pos pending]
              cases repoll with
              | error =>
                  refine scans (started.trans ?_)
                  rw [decide_eq_true (releases.mpr (.inr (.inr ⟨pending, rfl⟩))), Bool.not_true]
              | revents revents =>
                  by_cases ready : revents &&& key.operation ≠ 0
                  · simp only [if_pos ready]
                    rw [decide_eq_true (releases.mpr (.inr (.inr ⟨pending, decide_eq_true ready⟩))),
                      Bool.not_true]
                    exact Completes.returned rfl
                  · simp only [if_neg ready]
                    have left : ¬ (key.curCount < key.count ∧
                        (Repoll.revents revents).stays key.operation = true) := by
                      intro left
                      exact ready (of_decide_eq_true left.2)
                    cases stepped : nextKey selector key with
                    | none =>
                        simp only [bind_run, access, stepped, Option.bind_none]
                        exact Completes.faulted
                    | some next =>
                        simp only [bind_run, access, stepped, Option.bind_some, bind_ok, assign_run]
                        refine scans ?_
                        exact moves returned left stepped
            · simp only [if_neg pending]
              have left : ¬ (key.curCount < key.count ∧ repoll.stays key.operation = true) :=
                fun both => pending both.1
              cases stepped : nextKey selector key with
              | none =>
                  simp only [bind_run, access, stepped, Option.bind_none]
                  exact Completes.faulted
              | some next =>
                  simp only [bind_run, access, stepped, Option.bind_some, bind_ok, assign_run]
                  refine scans ?_
                  exact moves returned left stepped
          · simp only [if_neg returned]
            refine scans (started.trans ?_)
            rw [decide_eq_true (releases.mpr (.inr (.inl (by omega)))), Bool.not_true]

/-- `_Enqueue` of NULL or without memory for a node apart, it is the function without the
lock. -/
theorem lockedEnqueue_completes (queue : Queue) (null : Bool) (item : QueueItem)
    (granted : Bool) :
    Completes (lockedEnqueue null item granted { state := queue, locked := false })
      (if null then some (false, queue) else enqueue queue item) false := by
  unfold lockedEnqueue
  cases null with
  | true => exact Completes.returned rfl
  | false =>
      simp only [Bool.false_eq_true, if_false, bind_run, takeLock_free, bind_ok, peek_run]
      cases ended : queue.exit with
      | true => exact Completes.returned (by simp [enqueue, ended])
      | false =>
          cases missing : listEmpty queue.free && !granted with
          | true => exact Completes.faulted
          | false => exact Completes.releaseValue (fun queue => enqueue queue item) queue true

/-- The queue that `Dequeue` finds behind its waits; `none` when it waits still. -/
def waited (wait : Bool) : List (Bool × Queue) → Queue → Option Queue
  | [], queue => if !queue.exit && wait && listEmpty queue.busy then none else some queue
  | (notified, others) :: rounds, queue =>
      if !queue.exit && wait && listEmpty queue.busy then
        if notified then waited wait rounds others else some others
      else some queue

theorem lockedWait_completes (wait : Bool) (rounds : List (Bool × Queue)) (queue : Queue) :
    Completes (lockedWait wait rounds { state := queue, locked := true })
      ((waited wait rounds queue).map fun queue => ((), queue)) true := by
  induction rounds generalizing queue with
  | nil =>
      simp only [lockedWait, waited, bind_run, peek_run, bind_ok]
      split
      · exact .inl ⟨.waiting, by decide, rfl⟩
      · exact Completes.returned rfl
  | cons round rounds ih =>
      simp only [lockedWait, waited, bind_run, peek_run, bind_ok]
      split
      · cases round.1 with
        | true => exact ih round.2
        | false => exact Completes.returned rfl
      · exact Completes.returned rfl

/-- The critical sections of one `Dequeue`, joined at its waits. -/
def dequeueTurns : List (Bool × Queue) → Option (Dequeued × Queue) → Option (Dequeued × Queue)
  | [], some (.waiting, _) => none
  | (notified, others) :: rounds, some (.waiting, _) =>
      dequeueTurns rounds (dequeueResume others notified)
  | _, outcome => outcome

theorem dequeueTurns_item (rounds : List (Bool × Queue)) (queue : Queue) :
    dequeueTurns rounds (dequeueItem queue) = dequeueItem queue := by
  cases result : dequeueItem queue with
  | none => cases rounds <;> rfl
  | some outcome =>
      obtain ⟨dequeued, after⟩ := outcome
      have returned : dequeued ≠ .waiting := by
        intro equal
        subst equal
        unfold dequeueItem at result
        split at result
        · cases result
        · simp [Option.bind_eq_some_iff] at result
      cases dequeued with
      | waiting => exact absurd rfl returned
      | returned => cases rounds <;> rfl

theorem waited_turns (wait : Bool) (rounds : List (Bool × Queue)) (queue : Queue) :
    (waited wait rounds queue).bind dequeueItem = dequeueTurns rounds (dequeueWait queue wait) := by
  induction rounds generalizing queue with
  | nil =>
      simp only [waited, dequeueWait]
      split
      · rfl
      · exact (dequeueTurns_item [] queue).symm
  | cons round rounds ih =>
      simp only [waited, dequeueWait]
      split
      · next waits =>
          simp only [Bool.and_eq_true] at waits
          obtain rfl := waits.1.2
          cases notified : round.1 with
          | true => simp [dequeueTurns, dequeueResume, notified, ih]
          | false => simp [dequeueTurns, dequeueResume, notified, dequeueTurns_item]
      · exact (dequeueTurns_item (round :: rounds) queue).symm

theorem lockedDequeue_completes (queue : Queue) (item : QueueItem) (wait : Bool)
    (rounds : List (Bool × Queue)) :
    Completes (lockedDequeue item wait rounds { state := queue, locked := false })
      (dequeueTurns rounds (dequeue queue item wait)) false := by
  unfold lockedDequeue dequeue
  simp only [bind_run, takeLock_free, bind_ok, peek_run]
  cases marked : queue.emptied with
  | true => exact Completes.returned (by cases rounds <;> rfl)
  | false =>
      simp only [Bool.false_eq_true, if_false, bind_run, ← waited_turns]
      rcases lockedWait_completes wait rounds queue with
        ⟨reason, other, result⟩ | ⟨_, _, found, result⟩
      · rw [result]
        exact .inl ⟨reason, other, rfl⟩
      · obtain ⟨left, same, pair⟩ := Option.map_eq_some_iff.mp found
        cases pair
        rw [result, same]
        exact Completes.releaseValue dequeueItem _ true

theorem lockedRemoveAll_completes {σ : Type} (queue : Queue)
    (removeCallback : QueueItem → σ → Bool × σ) (state : σ) :
    Completes (lockedRemoveAll removeCallback state { state := queue, locked := false })
      (removeAll queue removeCallback state) false :=
  Completes.releaseValue (fun queue => removeAll queue removeCallback state) queue true

end Aio4c
