import Aio4c.PoolHeap

/-! Who has a buffer of a pool: each one made is in the pool's queue or handed out, and
those in the queue are as new. -/

set_option autoImplicit false

namespace Aio4c

/-- A buffer as `NewBuffer` makes it. -/
def pristine (size : Int) : Buffer :=
  { size, data := List.replicate (size + 2).toNat 0, position := 0, limit := size }

theorem bufferReset_pristine {buffer : Buffer} (allocated : buffer.Allocated) :
    bufferReset buffer = .ok (pristine buffer.size) := by
  have nonneg := allocated.nonneg
  have small := allocated.small
  have length := allocated.length
  have zeros : SignedInt.sizeT buffer.size = buffer.size.toNat :=
    SignedInt.sizeT_of_nonneg nonneg (by omega)
  have written : writeBytes buffer.data 0 (List.replicate buffer.size.toNat 0) =
      .ok (List.replicate (buffer.size + 2).toNat 0) := by
    rw [writeBytes_ok (le_refl _) (by simp only [List.length_replicate]; omega)]
    have two : (buffer.size + 2).toNat = buffer.size.toNat + 2 := by omega
    simp only [Int.toNat_zero, List.take_zero, List.nil_append, Nat.zero_add,
      List.length_replicate, allocated.trailing, two, List.replicate_add]
    rfl
  simp only [bufferReset, zeros, written, bind, Except.bind, pure, Except.pure, pristine]

theorem pristine_allocated {size : Int} (nonneg : 0 ≤ size) (small : size + 2 < 2147483648) :
    (pristine size).Allocated ∧ (pristine size).Ordered := by
  have two : (size + 2).toNat = size.toNat + 2 := by omega
  refine ⟨⟨⟨nonneg, small, ?_⟩, ?_⟩, le_refl _, nonneg, le_refl _⟩
  · simp only [pristine, List.length_replicate]
    omega
  · simp [pristine, two, List.replicate_add]

theorem aio4cMalloc_returns (malloc : Nat → Bool) {size : Int} (lower : 0 ≤ size)
    (upper : size < 2147483648) : ∃ block, aio4cMalloc malloc size = .ok block := by
  have request : (SignedInt.sizeT size + headerSize) % 18446744073709551616 = size.toNat + 4 := by
    rw [SignedInt.sizeT_of_nonneg lower (by omega), headerSize]
    omega
  simp only [aio4cMalloc, request]
  split
  · exact ⟨_, if_pos (Nat.le_add_left _ _)⟩
  · exact ⟨_, rfl⟩

/-- No size of a buffer makes the header of its block run out. -/
theorem newBuffer_returns (malloc : Nat → Bool) {size : Int} (lower : 0 ≤ size)
    (upper : size < 2147483648) : ∃ made, newBuffer malloc malloc size = .ok made := by
  obtain ⟨structure?, granted⟩ :=
    aio4cMalloc_returns malloc (show 0 ≤ bufferStructSize by decide) (by decide)
  have data : ∃ block, aio4cMalloc malloc (SignedInt.int32 (size + 2)) = .ok block := by
    by_cases small : size + 2 < 2147483648
    · rw [SignedInt.int32_of_mem (by omega) small]
      exact aio4cMalloc_returns malloc (by omega) small
    · rw [SignedInt.int32_of_overflow (by omega) (by omega)]
      exact ⟨_, aio4cMalloc_negative (by omega) (by omega)⟩
  obtain ⟨data?, granted'⟩ := data
  simp only [newBuffer, granted, granted', bind, Except.bind, pure, Except.pure]
  cases structure? with
  | none => exact ⟨_, rfl⟩
  | some =>
      cases data? with
      | none => exact ⟨_, rfl⟩
      | some => exact ⟨_, rfl⟩

/-- The queue of a pool that nobody ends. -/
def Queue.HoldsData (queue : Queue) (free : List Nat) (emptied : Bool) : Prop :=
  ∃ busy recycled, queue.Represents busy recycled
    { items := free.map .data, exit := false, emptied }

namespace Queue.HoldsData

variable {queue : Queue} {free : List Nat} {emptied : Bool}

theorem enqueue (holds : queue.HoldsData free emptied) (buffer : Nat) :
    ∃ after, enqueueDataItem queue buffer = some (true, after) ∧
      after.HoldsData (free ++ [buffer]) emptied := by
  obtain ⟨_, _, represents⟩ := holds
  obtain ⟨after, busy, recycled, result, represents', _⟩ := represents.enqueue_ok rfl (.data buffer)
  exact ⟨after, result, busy, recycled, by simpa using represents'⟩

theorem dequeue_marked (holds : queue.HoldsData free true) :
    ∃ after, dequeue queue .undefined false = some (.returned false .undefined, after) ∧
      after.HoldsData free false := by
  obtain ⟨_, _, represents⟩ := holds
  obtain ⟨after, busy, recycled, result, represents', _⟩ := represents.dequeue_ok .undefined false
  exact ⟨after, result, busy, recycled, represents'⟩

theorem dequeue_empty (holds : queue.HoldsData [] false) :
    ∃ after, dequeue queue .undefined false = some (.returned false .undefined, after) ∧
      after.HoldsData [] false := by
  obtain ⟨_, _, represents⟩ := holds
  obtain ⟨after, busy, recycled, result, represents', _⟩ := represents.dequeue_ok .undefined false
  exact ⟨after, result, busy, recycled, represents'⟩

theorem dequeue_cons {buffer : Nat} (holds : queue.HoldsData (buffer :: free) false) :
    ∃ after, dequeue queue .undefined false = some (.returned true (.data buffer), after) ∧
      after.HoldsData free free.isEmpty := by
  obtain ⟨_, _, represents⟩ := holds
  obtain ⟨after, busy, recycled, result, represents', _⟩ := represents.dequeue_ok .undefined false
  refine ⟨after, result, busy, recycled, ?_⟩
  simpa [Fifo.dequeue, Fifo.await, Fifo.take] using represents'

theorem busyItems_eq (holds : queue.HoldsData free emptied) :
    busyItems queue = free.map .data := by
  obtain ⟨_, _, represents⟩ := holds
  exact represents.busyItems_eq

theorem emptied_eq (holds : queue.HoldsData free emptied) : queue.emptied = emptied := by
  obtain ⟨_, _, represents⟩ := holds
  exact represents.emptied

end Queue.HoldsData

/-- The buffers of the pool's queue are as new, all others are handed out. -/
structure HeapPool.Owned (pool : HeapPool) (free held : List Nat) (emptied : Bool) : Prop where
  nonneg : 0 ≤ pool.bufferSize
  upper : pool.bufferSize < 2147483648
  queue : pool.buffers.HoldsData free emptied
  shared : (free ++ held).Perm (List.range pool.created)
  fresh : ∀ buffer ∈ free, pool.heap buffer = some (pristine pool.bufferSize)
  used : ∀ buffer ∈ held, ∃ content, pool.heap buffer = some content ∧ content.Allocated ∧
    content.Ordered ∧ content.size = pool.bufferSize
  unmade : ∀ buffer, pool.created ≤ buffer → pool.heap buffer = none
  granted : 0 < pool.created → pool.bufferSize + 2 < 2147483648

open HeapPool

namespace HeapPool.Owned

variable {pool : HeapPool} {free held : List Nat} {emptied : Bool}

theorem nodup (owned : pool.Owned free held emptied) : (free ++ held).Nodup :=
  owned.shared.nodup_iff.mpr List.nodup_range

theorem bound (owned : pool.Owned free held emptied) {buffer : Nat}
    (member : buffer ∈ free ++ held) : buffer < pool.created :=
  List.mem_range.mp (owned.shared.mem_iff.mp member)

theorem created_eq (owned : pool.Owned free held emptied) :
    pool.created = free.length + held.length := by
  simpa using owned.shared.length_eq.symm

theorem newBuffer_ok (owned : pool.Owned free held emptied) (malloc : Nat → Bool) :
    Aio4c.newBuffer malloc malloc pool.bufferSize = .ok none ∧
        pool.newBuffer malloc = some (none, pool) ∨
      pool.bufferSize + 2 < 2147483648 ∧ pool.newBuffer malloc = some (some pool.created,
        { pool with
          heap := Function.update pool.heap pool.created (some (pristine pool.bufferSize))
          created := pool.created + 1 }) := by
  obtain ⟨made, returned⟩ := newBuffer_returns malloc owned.nonneg owned.upper
  cases made with
  | none =>
      left
      exact ⟨returned, by simp [HeapPool.newBuffer, returned, Except.toOption]⟩
  | some buffer =>
      right
      obtain ⟨small, rfl⟩ := newBuffer_made owned.nonneg owned.upper returned
      exact ⟨small, by simp [HeapPool.newBuffer, returned, Except.toOption, pristine]⟩

theorem add (owned : pool.Owned free held emptied) (small : pool.bufferSize + 2 < 2147483648)
    {buffers : Queue}
    (queued : buffers.HoldsData (free ++ [pool.created]) emptied) :
    HeapPool.Owned { pool with
      buffers, heap := Function.update pool.heap pool.created (some (pristine pool.bufferSize))
      created := pool.created + 1 } (free ++ [pool.created]) held emptied := by
  have kept {buffer : Nat} (other : buffer ≠ pool.created) : Function.update pool.heap
      pool.created (some (pristine pool.bufferSize)) buffer = pool.heap buffer :=
    Function.update_of_ne other _ _
  have known {buffer : Nat} (member : buffer ∈ free ++ held) : buffer ≠ pool.created :=
    Nat.ne_of_lt (owned.bound member)
  constructor
  · exact owned.nonneg
  · exact owned.upper
  · exact queued
  · rw [List.append_assoc, List.singleton_append, List.range_succ]
    exact List.perm_middle.trans ((owned.shared.cons _).trans (List.perm_append_singleton _ _).symm)
  · intro buffer member
    rcases List.mem_append.mp member with earlier | last
    · exact (kept (known (List.mem_append_left _ earlier))).trans (owned.fresh buffer earlier)
    · rw [List.mem_singleton.mp last]
      exact Function.update_self _ _ _
  · intro buffer member
    obtain ⟨content, found, sound⟩ := owned.used buffer member
    exact ⟨content, (kept (known (List.mem_append_right _ member))).trans found, sound⟩
  · intro buffer above
    have beyond : pool.created < buffer := above
    exact (kept (Nat.ne_of_gt beyond)).trans (owned.unmade buffer (Nat.le_of_lt beyond))
  · exact fun _ => small

theorem addBuffers_ok (owned : pool.Owned free held emptied) (malloc : Nat → Nat → Bool)
    (count : Nat) :
    ∃ after grown, HeapPool.addBuffers malloc count pool = some after ∧
      after.Owned (free ++ grown) held emptied ∧ after.bufferSize = pool.bufferSize ∧
      after.batch = pool.batch ∧ grown.length ≤ count ∧
      ((∀ i, Aio4c.newBuffer (malloc i) (malloc i) pool.bufferSize ≠ .ok none) →
        grown.length = count) := by
  induction count generalizing pool free with
  | zero =>
      refine ⟨pool, [], rfl, ?_, rfl, rfl, le_refl _, fun _ => rfl⟩
      rw [List.append_nil]
      exact owned
  | succ count ih =>
      rcases owned.newBuffer_ok (malloc count) with ⟨refused, result⟩ | ⟨small, result⟩
      · refine ⟨pool, [], ?_, ?_, rfl, rfl, Nat.zero_le _, fun granted => ?_⟩
        · simp [HeapPool.addBuffers, result]
        · rw [List.append_nil]
          exact owned
        · exact absurd refused (granted count)
      · obtain ⟨buffers, enqueued, queued⟩ := owned.queue.enqueue pool.created
        obtain ⟨after, grown, rest, owned', size, batch, bounded, exact⟩ := ih (owned.add small queued)
        refine ⟨after, pool.created :: grown, ?_, ?_, size, batch, ?_, fun granted => ?_⟩
        · simp only [HeapPool.addBuffers, result, enqueued, Option.bind_eq_bind, Option.bind_some]
          exact rest
        · rw [List.append_assoc, List.singleton_append] at owned'
          exact owned'
        · simpa using bounded
        · simpa using exact granted

theorem hand {buffer : Nat} (owned : pool.Owned (buffer :: free) held emptied) {buffers : Queue}
    {emptied' : Bool} (queued : buffers.HoldsData free emptied') :
    HeapPool.Owned { pool with buffers } free (held ++ [buffer]) emptied' := by
  have fresh := owned.fresh buffer List.mem_cons_self
  constructor
  · exact owned.nonneg
  · exact owned.upper
  · exact queued
  · rw [← List.append_assoc]
    exact (List.perm_append_singleton _ _).trans owned.shared
  · exact fun other member => owned.fresh other (List.mem_cons_of_mem _ member)
  · intro other member
    rcases List.mem_append.mp member with earlier | last
    · exact owned.used other earlier
    · obtain ⟨allocated, ordered⟩ := pristine_allocated owned.nonneg
        (owned.granted (Nat.zero_lt_of_lt (owned.bound List.mem_cons_self)))
      rw [List.mem_singleton.mp last]
      exact ⟨_, fresh, allocated, ordered, rfl⟩
  · exact owned.unmade
  · exact owned.granted

theorem withBuffers (owned : pool.Owned free held emptied) {buffers : Queue} {emptied' : Bool}
    (queued : buffers.HoldsData free emptied') :
    HeapPool.Owned { pool with buffers } free held emptied' :=
  ⟨owned.nonneg, owned.upper, queued, owned.shared, owned.fresh, owned.used, owned.unmade,
    owned.granted⟩

theorem takeBuffer_missed (owned : pool.Owned free held emptied)
    (misses : emptied = true ∨ free = []) :
    ∃ buffers, pool.takeBuffer = some (none, { pool with buffers }) ∧
      HeapPool.Owned { pool with buffers } free held false := by
  have missed : ∃ after, dequeue pool.buffers .undefined false =
      some (.returned false .undefined, after) ∧ after.HoldsData free false := by
    cases emptied with
    | true => exact owned.queue.dequeue_marked
    | false =>
        have none : free = [] := misses.resolve_left (by simp)
        subst none
        exact owned.queue.dequeue_empty
  obtain ⟨buffers, result, queued⟩ := missed
  exact ⟨buffers, by simp [takeBuffer, result], owned.withBuffers queued⟩

theorem takeBuffer_cons {buffer : Nat} (owned : pool.Owned (buffer :: free) held false) :
    ∃ buffers, pool.takeBuffer = some (some buffer, { pool with buffers }) ∧
      HeapPool.Owned { pool with buffers } free (held ++ [buffer]) free.isEmpty := by
  obtain ⟨buffers, result, queued⟩ := owned.queue.dequeue_cons
  exact ⟨buffers, by simp [takeBuffer, result, queueDataItemGet], owned.hand queued⟩

end HeapPool.Owned

/-- What a call of `AllocateBuffer` does. -/
structure HeapPool.Allocation (malloc : Nat → Nat → Bool) (before : HeapPool)
    (free held : List Nat) (emptied : Bool) (result : Option Nat) (after : HeapPool) : Prop where
  owned : ∃ free' emptied', after.Owned free' (held ++ result.toList) emptied' ∧
    (emptied' = true → free' = [])
  size : after.bufferSize = before.bufferSize
  batch : after.batch = before.batch
  made : after.created = before.created ∨
    (emptied = true ∨ free = []) ∧ after.created ≤ before.created + before.batch
  clean : ∀ buffer, result = some buffer → buffer ∉ held ∧
    after.heap buffer = some (pristine before.bufferSize)
  granted : (∀ i, Aio4c.newBuffer (malloc i) (malloc i) before.bufferSize ≠ .ok none) →
    0 < before.batch → result ≠ none

theorem HeapPool.Owned.takes {pool : HeapPool} {free held : List Nat} {buffer : Nat}
    (owned : pool.Owned (buffer :: free) held false) (malloc : Nat → Nat → Bool) :
    ∃ after, pool.takeBuffer = some (some buffer, after) ∧ after.created = pool.created ∧
      pool.Allocation malloc (buffer :: free) held false (some buffer) after := by
  obtain ⟨buffers, result, owned'⟩ := owned.takeBuffer_cons
  refine ⟨_, result, rfl, ⟨free, free.isEmpty, owned', by simp⟩, rfl, rfl, .inl rfl, ?_, by simp⟩
  intro other same
  cases same
  refine ⟨fun member => ?_, owned.fresh buffer List.mem_cons_self⟩
  have distinct := owned.nodup
  rw [List.cons_append, List.nodup_cons] at distinct
  exact distinct.1 (List.mem_append_right _ member)

theorem HeapPool.Owned.allocateBuffer_ok {pool : HeapPool} {free held : List Nat} {emptied : Bool}
    (owned : pool.Owned free held emptied) (malloc : Nat → Nat → Bool) :
    ∃ result after, pool.allocateBuffer malloc = some (result, after) ∧
      pool.Allocation malloc free held emptied result after := by
  by_cases misses : emptied = true ∨ free = []
  · obtain ⟨buffers, missed, left⟩ := owned.takeBuffer_missed misses
    obtain ⟨grown, more, added, owned', size, batch, bounded, all⟩ :=
      left.addBuffers_ok malloc pool.batch
    have count := owned'.created_eq
    rw [List.length_append] at count
    have before := owned.created_eq
    cases stock : free ++ more with
    | nil =>
        obtain ⟨unstocked, nothing⟩ := List.append_eq_nil_iff.mp stock
        rw [stock] at owned'
        obtain ⟨buffers', missed', left'⟩ := owned'.takeBuffer_missed (.inr rfl)
        refine ⟨.none, { grown with buffers := buffers' }, ?_, ⟨⟨[], false, ?_, fun _ => rfl⟩, size,
          batch, ?_, by simp, ?_⟩⟩
        · simp only [HeapPool.allocateBuffer, missed, added, Option.bind_eq_bind, Option.bind_some]
          exact missed'
        · rw [Option.toList_none, List.append_nil]
          exact left'
        · left
          simp only [nothing, List.length_nil] at count
          simp only [unstocked, List.length_nil] at count before ⊢
          omega
        · intro granted positive
          have length := all granted
          simp only [nothing, List.length_nil] at length
          omega
    | cons buffer rest =>
        rw [stock] at owned'
        obtain ⟨after, taken, same, allocation⟩ := owned'.takes malloc
        refine ⟨some buffer, after, ?_, ⟨allocation.owned, allocation.size.trans size,
          allocation.batch.trans batch, .inr ⟨misses, ?_⟩, ?_, by simp⟩⟩
        · simp only [HeapPool.allocateBuffer, missed, added, Option.bind_eq_bind, Option.bind_some]
          exact taken
        · rw [same]
          omega
        · intro other member
          rw [← size]
          exact allocation.clean other member
  · obtain ⟨unmarked, stocked⟩ := not_or.mp misses
    have unmarked' : emptied = false := by simpa using unmarked
    subst unmarked'
    obtain ⟨buffer, rest, rfl⟩ := List.exists_cons_of_ne_nil stocked
    obtain ⟨after, taken, _, allocation⟩ := owned.takes malloc
    exact ⟨some buffer, after, by simp [HeapPool.allocateBuffer, taken], allocation⟩

theorem newBufferPool_owned {malloc : Nat → Nat → Bool} {size : Int} {pool : HeapPool}
    (lower : 0 ≤ size) (upper : size < 2147483648)
    (made : HeapPool.newBufferPool malloc size = some pool) :
    ∃ free, pool.Owned free [] false ∧ pool.bufferSize = size ∧
      pool.batch = bufferPoolBatchSize ∧ pool.created ≤ bufferPoolBatchSize := by
  have empty : HeapPool.Owned
      { buffers := newQueue, batch := bufferPoolBatchSize, bufferSize := size
        heap := fun _ => none, created := 0 } [] [] false :=
    { nonneg := lower
      upper := upper
      queue := ⟨[], [], newQueue_represents⟩
      shared := List.Perm.nil
      fresh := fun _ member => by cases member
      used := fun _ member => by cases member
      unmade := fun _ _ => rfl
      granted := fun positive => by cases positive }
  obtain ⟨after, grown, result, owned, size', batch, bounded, _⟩ :=
    empty.addBuffers_ok malloc bufferPoolBatchSize
  have same : after = pool := Option.some.inj (result.symm.trans made)
  subst same
  have count := owned.created_eq
  rw [List.nil_append] at count owned
  refine ⟨grown, owned, size', batch, ?_⟩
  rw [count]
  exact bounded

namespace HeapPool.Owned

variable {pool : HeapPool} {free held : List Nat} {emptied : Bool} {buffer : Nat}

theorem releaseBuffer_ok (owned : pool.Owned free held emptied) (member : buffer ∈ held) :
    ∃ buffers heap, pool.releaseBuffer buffer = some { pool with buffers, heap } ∧
      HeapPool.Owned { pool with buffers, heap } (free ++ [buffer]) (held.erase buffer) emptied := by
  obtain ⟨content, found, allocated, _, size⟩ := owned.used buffer member
  obtain ⟨buffers, enqueued, queued⟩ := owned.queue.enqueue buffer
  have reset := bufferReset_pristine allocated
  have distinct := List.nodup_append.mp owned.nodup
  have kept {other : Nat} (differs : other ≠ buffer) :
      Function.update pool.heap buffer (some (pristine content.size)) other = pool.heap other :=
    Function.update_of_ne differs _ _
  refine ⟨buffers, Function.update pool.heap buffer (some (pristine content.size)), ?_, ?_⟩
  · simp [releaseBuffer, found, reset, Except.toOption, enqueued]
  constructor
  · exact owned.nonneg
  · exact owned.upper
  · exact queued
  · rw [List.append_assoc]
    exact ((List.perm_cons_erase member).symm.append_left free).trans owned.shared
  · intro other present
    rcases List.mem_append.mp present with earlier | last
    · have differs : other ≠ buffer := distinct.2.2 other earlier buffer member
      exact (kept differs).trans (owned.fresh other earlier)
    · rw [List.mem_singleton.mp last, ← size]
      exact Function.update_self _ _ _
  · intro other present
    have differs : other ≠ buffer := fun same =>
      (List.Nodup.not_mem_erase distinct.2.1) (same ▸ present)
    obtain ⟨content', found', sound⟩ := owned.used other (List.mem_of_mem_erase present)
    exact ⟨content', (kept differs).trans found', sound⟩
  · intro other beyond
    have differs : other ≠ buffer := by
      have bound := owned.bound (List.mem_append_right free member)
      have above : pool.created ≤ other := beyond
      omega
    exact (kept differs).trans (owned.unmade other beyond)
  · exact owned.granted

theorem changed (owned : pool.Owned free held emptied) (member : buffer ∈ held) {content : Buffer}
    (allocated : content.Allocated) (ordered : content.Ordered)
    (size : content.size = pool.bufferSize) :
    HeapPool.Owned { pool with heap := Function.update pool.heap buffer (some content) }
      free held emptied := by
  have distinct := List.nodup_append.mp owned.nodup
  have kept {other : Nat} (differs : other ≠ buffer) :
      Function.update pool.heap buffer (some content) other = pool.heap other :=
    Function.update_of_ne differs _ _
  constructor
  · exact owned.nonneg
  · exact owned.upper
  · exact owned.queue
  · exact owned.shared
  · intro other present
    have differs : other ≠ buffer := distinct.2.2 other present buffer member
    exact (kept differs).trans (owned.fresh other present)
  · intro other present
    by_cases same : other = buffer
    · subst same
      exact ⟨content, Function.update_self _ _ _, allocated, ordered, size⟩
    · obtain ⟨content', found, sound⟩ := owned.used other present
      exact ⟨content', (kept same).trans found, sound⟩
  · intro other beyond
    have differs : other ≠ buffer := by
      have bound := owned.bound (List.mem_append_right free member)
      have above : pool.created ≤ other := beyond
      omega
    exact (kept differs).trans (owned.unmade other beyond)
  · exact owned.granted

end HeapPool.Owned

end Aio4c
