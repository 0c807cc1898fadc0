import Aio4c.Library.TransitionSystem
import Aio4c.PoolOwnership

/-! The runs of a pool and its holders: whose the buffers are, how many there are, and
which of them the end of the pool frees. -/

set_option autoImplicit false

namespace Aio4c

open HeapPool TransitionSystem

/-- Each buffer is in the queue or handed out, and there are at most a batch more of them
than were handed out at once; at most as many, when the last `Dequeue` drained the queue. -/
structure PoolSystem.Sound (size : Int) (state : PoolSystem) (free : List Nat) (emptied : Bool) :
    Prop where
  owned : state.pool.Owned free state.held emptied
  size : state.pool.bufferSize = size
  batch : state.pool.batch = bufferPoolBatchSize
  peak : state.held.length ≤ state.peak
  made : state.pool.created ≤ bufferPoolBatchSize + state.peak
  drained : emptied = true → state.pool.created ≤ state.peak

namespace PoolSystem.Sound

variable {size : Int} {state after : PoolSystem} {free : List Nat} {emptied : Bool}

theorem allocate (sound : state.Sound size free emptied) {malloc : Nat → Nat → Bool}
    (step : poolStep state (.allocate malloc) = some after) :
    ∃ free' emptied', after.Sound size free' emptied' := by
  obtain ⟨result, pool, allocated, allocation⟩ := sound.owned.allocateBuffer_ok malloc
  obtain ⟨free', emptied', owned, drained⟩ := allocation.owned
  simp only [poolStep, allocated, Option.bind_eq_bind, Option.bind_some, Option.pure_def,
    Option.some.injEq] at step
  subst step
  have before := sound.owned.created_eq
  have count := owned.created_eq
  have peak := sound.peak
  have made := sound.made
  refine ⟨free', emptied', owned, allocation.size.trans sound.size,
    allocation.batch.trans sound.batch, Nat.le_max_right _ _, ?_, fun marked => ?_⟩
  · simp only [PoolSystem.hold]
    rcases allocation.made with same | ⟨misses, grown⟩
    · omega
    · -- a batch is only made where all buffers were handed out at some time
      have few : state.pool.created ≤ state.peak := by
        rcases misses with marked | none
        · exact sound.drained marked
        · rw [before, none]
          simpa using peak
      rw [sound.batch] at grown
      omega
  · simp only [PoolSystem.hold]
    rw [count, drained marked]
    simp

theorem release (sound : state.Sound size free emptied) {buffer : Nat}
    (step : poolStep state (.release buffer) = some after) :
    ∃ free' emptied', after.Sound size free' emptied' := by
  simp only [poolStep, Option.bind_eq_bind, Option.bind_eq_some_iff, Option.guard_eq_some',
    Option.pure_def, Option.some.injEq] at step
  obtain ⟨_, member, pool, released, rfl⟩ := step
  obtain ⟨buffers, heap, result, owned⟩ := sound.owned.releaseBuffer_ok member
  have same : { state.pool with buffers, heap } = pool := Option.some.inj (result.symm.trans released)
  subst same
  have fewer := List.length_erase_le (a := buffer) (l := state.held)
  exact ⟨_, emptied, owned, sound.size, sound.batch, fewer.trans sound.peak, sound.made,
    sound.drained⟩

theorem modify (sound : state.Sound size free emptied) {buffer : Nat}
    {operation : Buffer → Access Buffer}
    (keeps : ∀ before, state.pool.heap buffer = some before → before.Allocated → before.Ordered →
      before.size = state.pool.bufferSize → ∃ content, operation before = .ok content ∧
        content.Allocated ∧ content.Ordered ∧ content.size = before.size)
    (step : state.modify buffer operation = some after) : after.Sound size free emptied := by
  simp only [PoolSystem.modify, Option.bind_eq_bind, Option.bind_eq_some_iff,
    Option.guard_eq_some', Option.pure_def, Option.some.injEq] at step
  obtain ⟨_, member, before, found, content, changed, rfl⟩ := step
  obtain ⟨before', found', allocated, ordered, size'⟩ := sound.owned.used buffer member
  have same : before = before' := Option.some.inj (found.symm.trans found')
  subst same
  obtain ⟨content', result, allocated', ordered', size''⟩ := keeps before found allocated ordered size'
  have same : content' = content := by
    simpa [result, Except.toOption] using changed
  subst same
  exact ⟨sound.owned.changed member allocated' ordered' (size''.trans size'), sound.size,
    sound.batch, sound.peak, sound.made, sound.drained⟩

theorem step (sound : state.Sound size free emptied) {action : PoolAction}
    (wellFormed : PoolWellFormed state action) (step : PoolStep state action after) :
    ∃ free' emptied', after.Sound size free' emptied' := by
  cases action with
  | allocate malloc => exact sound.allocate step
  | release buffer => exact sound.release step
  | call buffer call =>
      refine ⟨free, emptied, sound.modify (fun before found allocated ordered _ => ?_) step⟩
      obtain ⟨sizes, respects⟩ := wellFormed before found
      exact bufferCall_respectful allocated ordered sizes respects
  | copy buffer source =>
      obtain ⟨block, ordered, fits⟩ := wellFormed
      refine ⟨free, emptied, sound.modify (fun before found allocated _ same => ?_) step⟩
      obtain ⟨content, result, allocated', ordered', size', _⟩ :=
        bufferCopy_ok allocated block ordered (by rw [same]; exact fits)
      exact ⟨content, result, allocated', ordered', size'⟩
  | store buffer offset bytes =>
      obtain ⟨lower, fits⟩ := wellFormed
      refine ⟨free, emptied, sound.modify (fun before found allocated ordered same => ?_) step⟩
      have front : offset + bytes.length ≤ before.size := by rw [same]; exact fits
      have written := (allocated.toBlock.overwrite bytes lower front 0 0).1
      refine ⟨_, by simp only [written, bind, Except.bind, pure, Except.pure],
        allocated.overwrite bytes lower front before.position before.limit, ?_, rfl⟩
      exact ⟨ordered.nonneg, ordered.below, ordered.within⟩

end PoolSystem.Sound

theorem newBufferPool_sound {malloc : Nat → Nat → Bool} {size : Int} {pool : HeapPool}
    (lower : 0 ≤ size) (upper : size < 2147483648)
    (made : HeapPool.newBufferPool malloc size = some pool) {actions : List PoolAction} {state : PoolSystem}
    (run : Run (Guarded PoolWellFormed PoolStep) (newPoolSystem pool) actions state) :
    ∃ free emptied, state.Sound size free emptied := by
  apply run.keeps
  · intro before action after holds taken
    obtain ⟨free, emptied, sound⟩ := holds
    exact sound.step taken.1 taken.2
  · obtain ⟨free, owned, size', batch, bounded⟩ := newBufferPool_owned lower upper made
    exact ⟨free, false, owned, size', batch, Nat.zero_le _, bounded, by simp⟩

/-- At the end of every run of well-formed operations no buffer is in the queue twice, held
twice or both, and the next `AllocateBuffer` hands out none that is held, and a clean one. -/
theorem newBufferPool_exclusive {malloc : Nat → Nat → Bool} {size : Int} {pool : HeapPool}
    (lower : 0 ≤ size) (upper : size < 2147483648)
    (made : HeapPool.newBufferPool malloc size = some pool) {actions : List PoolAction} {state : PoolSystem}
    (run : Run (Guarded PoolWellFormed PoolStep) (newPoolSystem pool) actions state) :
    ∃ free : List Nat, busyItems state.pool.buffers = free.map .data ∧ free.Nodup ∧
      state.held.Nodup ∧ free.Disjoint state.held ∧
      ∀ malloc, ∃ result after, state.pool.allocateBuffer malloc = some (result, after) ∧
        ∀ buffer, result = some buffer → buffer ∉ state.held ∧
          ∃ content, after.heap buffer = some content ∧ content.position = 0 ∧
            content.limit = size ∧ content.size = size ∧ ∀ byte ∈ content.data, byte = 0 := by
  obtain ⟨free, emptied, sound⟩ := newBufferPool_sound lower upper made run
  have distinct := List.nodup_append'.mp sound.owned.nodup
  refine ⟨free, sound.owned.queue.busyItems_eq, distinct.1, distinct.2.1, distinct.2.2,
    fun malloc => ?_⟩
  obtain ⟨result, after, allocated, allocation⟩ := sound.owned.allocateBuffer_ok malloc
  refine ⟨result, after, allocated, fun buffer same => ?_⟩
  obtain ⟨unheld, clean⟩ := allocation.clean buffer same
  rw [sound.size] at clean
  refine ⟨unheld, _, clean, rfl, rfl, rfl, fun byte member => ?_⟩
  exact List.eq_of_mem_replicate member

/-- A run of a new pool, from the function that takes its steps. -/
theorem exists_pool_run {size : Int} {actions : List PoolAction} {check : PoolSystem → Bool}
    (runs : (HeapPool.newBufferPool (fun _ _ => true) size).bind (fun pool =>
      (execute (guardedNext PoolWellFormed poolStep) (newPoolSystem pool) actions).map check) =
        some true) :
    ∃ pool state, HeapPool.newBufferPool (fun _ _ => true) size = some pool ∧
      Run (Guarded PoolWellFormed PoolStep) (newPoolSystem pool) actions state ∧
      check state = true := by
  obtain ⟨pool, made, rest⟩ := Option.bind_eq_some_iff.mp runs
  obtain ⟨state, reached, checked⟩ := Option.map_eq_some_iff.mp rest
  obtain ⟨final, same, run⟩ := exists_run_of_execute (Guarded PoolWellFormed PoolStep)
    (guardedNext PoolWellFormed poolStep) (newPoolSystem pool) actions
    (fun _ _ _ taken => guardedNext_sound taken) (by rw [reached]; rfl)
  rw [reached, Option.some.injEq] at same
  subst same
  exact ⟨pool, state, made, run, checked⟩

/-- Two holders in turn: what the first one wrote and read is gone for the second. -/
def twoHolders : List PoolAction :=
  [.allocate fun _ _ => true, .store 0 1 [7], .call 0 (.put [9]), .release 0] ++
    List.replicate 16 (.allocate fun _ _ => true)

theorem newBufferPool_exclusive_again :
    ∃ pool state, HeapPool.newBufferPool (fun _ _ => true) 2 = some pool ∧
      Run (Guarded PoolWellFormed PoolStep) (newPoolSystem pool) twoHolders state ∧
      0 ∈ state.held ∧
      ∃ free : List Nat, busyItems state.pool.buffers = free.map .data ∧ free.Nodup ∧
        state.held.Nodup ∧ free.Disjoint state.held ∧
        ∀ malloc, ∃ result after, state.pool.allocateBuffer malloc = some (result, after) ∧
          ∀ buffer, result = some buffer → buffer ∉ state.held ∧
            ∃ content, after.heap buffer = some content ∧ content.position = 0 ∧
              content.limit = 2 ∧ content.size = 2 ∧ ∀ byte ∈ content.data, byte = 0 := by
  obtain ⟨pool, state, made, run, held⟩ := exists_pool_run
    (show (HeapPool.newBufferPool (fun _ _ => true) 2).bind (fun pool =>
      (execute (guardedNext PoolWellFormed poolStep) (newPoolSystem pool) twoHolders).map
        fun state => decide (0 ∈ state.held)) = some true by decide +kernel)
  exact ⟨pool, state, made, run, of_decide_eq_true held,
    newBufferPool_exclusive (by decide) (by decide) made run⟩

/-- At the end of every run the pool has made at most a batch more buffers than were handed
out at once, and gives another one as long as `NewBuffer` does. -/
theorem newBufferPool_bounded {malloc : Nat → Nat → Bool} {size : Int} {pool : HeapPool}
    (lower : 0 ≤ size) (upper : size < 2147483648)
    (made : HeapPool.newBufferPool malloc size = some pool) {actions : List PoolAction}
    {state : PoolSystem}
    (run : Run (Guarded PoolWellFormed PoolStep) (newPoolSystem pool) actions state) :
    state.pool.created ≤ bufferPoolBatchSize + state.peak ∧
      ∀ malloc, (∀ i, Aio4c.newBuffer (malloc i) (malloc i) size ≠ .ok none) →
        ∃ buffer after, state.pool.allocateBuffer malloc = some (some buffer, after) := by
  obtain ⟨free, emptied, sound⟩ := newBufferPool_sound lower upper made run
  refine ⟨sound.made, fun malloc granted => ?_⟩
  obtain ⟨result, after, allocated, allocation⟩ := sound.owned.allocateBuffer_ok malloc
  have some := allocation.granted (by rw [sound.size]; exact granted)
    (by rw [sound.batch]; decide)
  obtain ⟨buffer, rfl⟩ := Option.ne_none_iff_exists'.mp some
  exact ⟨buffer, after, allocated⟩

/-- All buffers of the first batch are handed out and given back; the next one comes with
a second batch. -/
def twoBatches : List PoolAction :=
  List.replicate 16 (.allocate fun _ _ => true) ++ (List.range 16).map .release ++
    [.allocate fun _ _ => true]

theorem newBufferPool_bounded_twice :
    ∃ pool state, HeapPool.newBufferPool (fun _ _ => true) 0 = some pool ∧
      Run (Guarded PoolWellFormed PoolStep) (newPoolSystem pool) twoBatches state ∧
      (state.pool.created = 32 ∧ state.peak = 16) ∧
      state.pool.created ≤ bufferPoolBatchSize + state.peak ∧
        ∀ malloc, (∀ i, Aio4c.newBuffer (malloc i) (malloc i) 0 ≠ .ok none) →
          ∃ buffer after, state.pool.allocateBuffer malloc = some (some buffer, after) := by
  obtain ⟨pool, state, made, run, counted⟩ := exists_pool_run
    (show (HeapPool.newBufferPool (fun _ _ => true) 0).bind (fun pool =>
      (execute (guardedNext PoolWellFormed poolStep) (newPoolSystem pool) twoBatches).map
        fun state => decide (state.pool.created = 32 ∧ state.peak = 16)) = some true by
      decide +kernel)
  exact ⟨pool, state, made, run, of_decide_eq_true counted,
    newBufferPool_bounded (by decide) (by decide) made run⟩

/-! ## The end of the pool -/

theorem freeBuffers_ok {free : List Nat} (distinct : free.Nodup) {heap : Nat → Option Buffer}
    (present : ∀ buffer ∈ free, (heap buffer).isSome = true) :
    ∃ after, freeBuffers (free.map .data) heap = some (free, after) ∧
      ∀ buffer, after buffer = if buffer ∈ free then none else heap buffer := by
  induction free generalizing heap with
  | nil => exact ⟨heap, rfl, fun _ => rfl⟩
  | cons first rest ih =>
      obtain ⟨absent, distinct'⟩ := List.nodup_cons.mp distinct
      have present' : ∀ buffer ∈ rest,
          (Function.update heap first none buffer).isSome = true := by
        intro buffer member
        have differs : buffer ≠ first := by
          intro equal
          subst equal
          exact absent member
        rw [Function.update_of_ne differs]
        exact present buffer (List.mem_cons_of_mem _ member)
      obtain ⟨after, freed, gone⟩ := ih distinct' present'
      obtain ⟨content, found⟩ := Option.isSome_iff_exists.mp (present first List.mem_cons_self)
      refine ⟨after, ?_, fun buffer => ?_⟩
      · simp [freeBuffers, queueDataItemGet, found, freed]
      · rw [gone]
        by_cases same : buffer = first
        · subst same
          simp
        · simp [same]

/-- `FreeBufferPool` behind a run frees each buffer of the pool's queue once, and with all
buffers given back leaves none, exactly when the last `Dequeue` did not drain the queue
or nothing was given back behind it. -/
theorem newBufferPool_freed_iff {malloc : Nat → Nat → Bool} {size : Int} {pool : HeapPool}
    (lower : 0 ≤ size) (upper : size < 2147483648)
    (made : HeapPool.newBufferPool malloc size = some pool) {actions : List PoolAction}
    {state : PoolSystem}
    (run : Run (Guarded PoolWellFormed PoolStep) (newPoolSystem pool) actions state) :
    ∃ freed heap, state.pool.freeBufferPool = some (freed, heap) ∧
      ((∀ buffer, freed.count buffer = (busyItems state.pool.buffers).count (.data buffer) ∧
          freed.count buffer ≤ 1) ∧ (state.held = [] → ∀ buffer, heap buffer = none) ↔
        state.pool.buffers.emptied = false ∨ busyItems state.pool.buffers = []) := by
  obtain ⟨free, emptied, sound⟩ := newBufferPool_sound lower upper made run
  have distinct := (List.nodup_append'.mp sound.owned.nodup).1
  have present : ∀ buffer ∈ free, (state.pool.heap buffer).isSome = true := by
    intro buffer member
    rw [sound.owned.fresh buffer member]
    rfl
  obtain ⟨_, _, represents⟩ := sound.owned.queue
  obtain ⟨after, _, _, drained, _⟩ := represents.drainQueue_ok .undefined
  rw [sound.owned.queue.busyItems_eq, sound.owned.queue.emptied_eq]
  cases emptied with
  | true =>
      simp only [if_true] at drained
      refine ⟨[], state.pool.heap, by simp [freeBufferPool, drained, freeBuffers], ?_⟩
      constructor
      · intro frees
        obtain ⟨counts, _⟩ := frees
        right
        cases free with
        | nil => rfl
        | cons first rest =>
            have missing := (counts first).1
            simp at missing
      · intro none
        have none : free = [] := by simpa using none
        subst none
        refine ⟨by simp, fun unheld buffer => ?_⟩
        have count := sound.owned.created_eq
        rw [unheld] at count
        exact sound.owned.unmade buffer (by rw [count]; exact Nat.zero_le _)
  | false =>
      simp only [Bool.false_eq_true, if_false] at drained
      obtain ⟨heap, freed, gone⟩ := freeBuffers_ok distinct present
      refine ⟨free, heap, by simp [freeBufferPool, drained, freed], ?_⟩
      refine iff_of_true ⟨fun buffer => ⟨?_, ?_⟩, fun unheld buffer => ?_⟩ (.inl rfl)
      · exact (List.count_map_of_injective _ _ (fun _ _ same => QueueItem.data.inj same) _).symm
      · exact List.nodup_iff_count_le_one.mp distinct buffer
      · rw [gone]
        by_cases member : buffer ∈ free
        · exact if_pos member
        · rw [if_neg member]
          apply sound.owned.unmade
          by_contra below
          have known : buffer ∈ free ++ state.held :=
            sound.owned.shared.mem_iff.mpr (List.mem_range.mpr (Nat.lt_of_not_le below))
          rw [unheld, List.append_nil] at known
          exact member known

/-- One buffer handed out and given back: the pool's end frees the whole first batch. -/
theorem newBufferPool_freed_after_one :
    ∃ pool state, HeapPool.newBufferPool (fun _ _ => true) 0 = some pool ∧
      Run (Guarded PoolWellFormed PoolStep) (newPoolSystem pool)
        [.allocate fun _ _ => true, .release 0] state ∧
      (state.held = [] ∧ state.pool.buffers.emptied = false) ∧
      ∃ freed heap, state.pool.freeBufferPool = some (freed, heap) ∧
        ((∀ buffer, freed.count buffer = (busyItems state.pool.buffers).count (.data buffer) ∧
            freed.count buffer ≤ 1) ∧ (state.held = [] → ∀ buffer, heap buffer = none) ↔
          state.pool.buffers.emptied = false ∨ busyItems state.pool.buffers = []) := by
  obtain ⟨pool, state, made, run, unmarked⟩ := exists_pool_run
    (show (HeapPool.newBufferPool (fun _ _ => true) 0).bind (fun pool =>
      (execute (guardedNext PoolWellFormed poolStep) (newPoolSystem pool)
        [.allocate fun _ _ => true, .release 0]).map
        fun state => decide (state.held = [] ∧ state.pool.buffers.emptied = false)) = some true by
      decide +kernel)
  exact ⟨pool, state, made, run, of_decide_eq_true unmarked,
    newBufferPool_freed_iff (by decide) (by decide) made run⟩

/-- The whole first batch handed out and given back. -/
def wholeBatch : List PoolAction :=
  List.replicate 16 (.allocate fun _ _ => true) ++ (List.range 16).map .release

/-- The last buffer of the batch leaves the mark behind, and the end of the pool takes the
first false of `Dequeue` for an empty queue: nothing is freed. -/
theorem newBufferPool_unfreed :
    ¬ ∀ (malloc : Nat → Nat → Bool) (size : Int) (pool : HeapPool) (actions : List PoolAction)
      (state : PoolSystem), 0 ≤ size → size < 2147483648 →
      HeapPool.newBufferPool malloc size = some pool →
      Run (Guarded PoolWellFormed PoolStep) (newPoolSystem pool) actions state →
      ∃ freed heap, state.pool.freeBufferPool = some (freed, heap) ∧
        (∀ buffer, freed.count buffer = (busyItems state.pool.buffers).count (.data buffer) ∧
          freed.count buffer ≤ 1) ∧ (state.held = [] → ∀ buffer, heap buffer = none) := by
  intro frees
  obtain ⟨pool, state, made, run, left⟩ := exists_pool_run
    (show (HeapPool.newBufferPool (fun _ _ => true) 0).bind (fun pool =>
      (execute (guardedNext PoolWellFormed poolStep) (newPoolSystem pool) wholeBatch).map
        fun state => decide (state.held = [] ∧
          (state.pool.freeBufferPool.map fun result => (result.1, (result.2 0).isSome)) =
            some ([], true))) = some true by
      decide +kernel)
  obtain ⟨unheld, kept⟩ := of_decide_eq_true left
  obtain ⟨freed, heap, result, _, gone⟩ := frees _ _ pool wholeBatch state (by decide) (by decide)
    made run
  simp only [result, Option.map_some, Option.some.injEq, Prod.mk.injEq] at kept
  rw [gone unheld 0] at kept
  cases kept.2

end Aio4c
