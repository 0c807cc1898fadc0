import Aio4c.BufferTransfer
import Aio4c.Library.Fifo

/-! Pools of equal buffers. A pool that has none at hand makes a batch of new
ones; a released buffer is reset before it is handed out again. -/

set_option autoImplicit false

namespace Aio4c

open SignedInt

structure BufferPool where
  buffers : Fifo Buffer
  batch : Nat
  bufferSize : Int
  deriving DecidableEq, Repr

/-- `AIO4C_BUFFER_POOL_BATCH_SIZE`. -/
def bufferPoolBatchSize : Nat := 16

/-- The loop that makes new buffers until memory runs out. -/
def addBuffers (malloc : Nat → Bool) : Nat → BufferPool → Access BufferPool
  | 0, pool => .ok pool
  | count + 1, pool => do
      match ← newBuffer malloc malloc pool.bufferSize with
      | none => pure pool
      | some buffer =>
          addBuffers malloc count { pool with buffers := (pool.buffers.push buffer).2 }

def newBufferPool (malloc : Nat → Bool) (bufferSize : Int) : Access BufferPool :=
  addBuffers malloc bufferPoolBatchSize
    { buffers := Fifo.empty, batch := bufferPoolBatchSize, bufferSize }

/-- `AllocateBuffer`: `none` is NULL. -/
def allocateBuffer (malloc : Nat → Bool) (pool : BufferPool) :
    Access (Option Buffer × BufferPool) := do
  match pool.buffers.dequeue false with
  | (.taken buffer, buffers) => pure (some buffer, { pool with buffers })
  | (_, buffers) =>
      let pool ← addBuffers malloc pool.batch { pool with buffers }
      match pool.buffers.dequeue false with
      | (.taken buffer, buffers) => pure (some buffer, { pool with buffers })
      | (_, buffers) => pure (none, { pool with buffers })

/-- `ReleaseBuffer` of a buffer that belongs to the pool. -/
def releaseBuffer (pool : BufferPool) (buffer : Buffer) : Access BufferPool := do
  let buffer ← bufferReset buffer
  pure { pool with buffers := (pool.buffers.push buffer).2 }

/-- Every buffer at hand has the size of the pool, and the next batch is not empty. -/
structure BufferPool.Sound (pool : BufferPool) : Prop where
  endless : pool.buffers.exit = false
  nonempty : 0 < pool.batch
  nonneg : 0 ≤ pool.bufferSize
  small : pool.bufferSize + 2 < 2147483648
  equal : ∀ buffer ∈ pool.buffers.items, buffer.Allocated ∧ buffer.size = pool.bufferSize

theorem BufferPool.Sound.add {pool : BufferPool} (sound : pool.Sound) {buffer : Buffer}
    (allocated : buffer.Allocated) (size : buffer.size = pool.bufferSize) :
    BufferPool.Sound { pool with buffers := (pool.buffers.push buffer).2 } := by
  rw [Fifo.push_open sound.endless]
  refine ⟨sound.endless, sound.nonempty, sound.nonneg, sound.small, fun other member => ?_⟩
  rcases List.mem_append.mp member with member | member
  · exact sound.equal other member
  · cases List.mem_singleton.mp member
    exact ⟨allocated, size⟩

theorem newBuffer_ok {malloc : Nat → Bool} (granted : ∀ request, malloc request = true)
    {size : Int} (nonneg : 0 ≤ size) (small : size + 2 < 2147483648) :
    ∃ buffer, newBuffer malloc malloc size = .ok (some buffer) ∧ buffer.Allocated ∧
      buffer.size = size := by
  have made : newBuffer malloc malloc size = .ok (some
      { size, data := List.replicate (size + 2).toNat 0, position := 0, limit := size }) := by
    simp only [newBuffer, aio4cMalloc_ok granted (show 0 ≤ bufferStructSize by decide) (by decide),
      int32_of_mem (show -2147483648 ≤ size + 2 by omega) small,
      aio4cMalloc_ok granted (show 0 ≤ size + 2 by omega) small]
    rfl
  obtain ⟨allocated, _, size⟩ := newBuffer_allocated nonneg (by omega) made
  exact ⟨_, made, allocated, size⟩

theorem BufferPool.Sound.addBuffers {malloc : Nat → Bool}
    (granted : ∀ request, malloc request = true) (count : Nat) {pool : BufferPool}
    (sound : pool.Sound) :
    ∃ after, addBuffers malloc count pool = .ok after ∧ after.Sound ∧
      after.bufferSize = pool.bufferSize ∧ after.buffers.emptied = pool.buffers.emptied ∧
      pool.buffers.items.length + count = after.buffers.items.length := by
  induction count generalizing pool with
  | zero => exact ⟨pool, rfl, sound, rfl, rfl, rfl⟩
  | succ count ih =>
      obtain ⟨buffer, made, allocated, size⟩ := newBuffer_ok granted sound.nonneg sound.small
      have added := sound.add allocated size
      obtain ⟨after, result, sound', size', emptied, length⟩ := ih added
      simp only [Fifo.push_open sound.endless] at result emptied length
      refine ⟨after, ?_, sound', size', emptied, ?_⟩
      · simp only [Aio4c.addBuffers, made, bind, Except.bind, Fifo.push_open sound.endless]
        exact result
      · simp only [List.length_append, List.length_singleton] at length
        omega

theorem BufferPool.Sound.take {pool : BufferPool} (sound : pool.Sound) {buffer : Buffer}
    {buffers : Fifo Buffer} (taken : pool.buffers.dequeue false = (.taken buffer, buffers)) :
    buffer.Allocated ∧ buffer.size = pool.bufferSize ∧
      BufferPool.Sound { pool with buffers } := by
  obtain ⟨items, exit⟩ := Fifo.dequeue_taken taken
  obtain ⟨allocated, size⟩ := sound.equal buffer (by simp [items])
  exact ⟨allocated, size, exit.trans sound.endless, sound.nonempty, sound.nonneg, sound.small,
    fun other member => sound.equal other (by simp [items, member])⟩

/-- With memory at hand a pool never runs dry. -/
theorem allocateBuffer_ok {malloc : Nat → Bool} (granted : ∀ request, malloc request = true)
    {pool : BufferPool} (sound : pool.Sound) :
    ∃ buffer after, allocateBuffer malloc pool = .ok (some buffer, after) ∧ buffer.Allocated ∧
      buffer.size = pool.bufferSize ∧ after.Sound ∧ after.bufferSize = pool.bufferSize := by
  cases first : pool.buffers.dequeue false with
  | mk attempt buffers =>
      cases attempt with
      | taken buffer =>
          obtain ⟨allocated, size, sound'⟩ := sound.take first
          exact ⟨buffer, _, by simp only [allocateBuffer, first]; rfl, allocated, size, sound', rfl⟩
      | blocked | nothing | drained =>
          obtain ⟨items, exit, emptied⟩ := Fifo.dequeue_missed first (by simp)
          have left : BufferPool.Sound { pool with buffers } :=
            ⟨exit.trans sound.endless, sound.nonempty, sound.nonneg, sound.small,
              fun buffer member => sound.equal buffer (by rw [← items]; exact member)⟩
          obtain ⟨filled, result, sound', size, emptied', length⟩ :=
            left.addBuffers granted pool.batch
          have nonempty := sound.nonempty
          obtain ⟨buffer, rest, taken⟩ := Fifo.dequeue_nonempty false
            (emptied'.trans emptied) (show filled.buffers.items ≠ [] by
              intro none
              simp only [none, List.length_nil] at length
              omega)
          obtain ⟨allocated, size', sound''⟩ := sound'.take taken
          refine ⟨buffer, _, ?_, allocated, size'.trans size, sound'', size⟩
          simp only [allocateBuffer, first, result, bind, Except.bind, taken]
          rfl

theorem releaseBuffer_ok {pool : BufferPool} (sound : pool.Sound) {buffer : Buffer}
    (allocated : buffer.Allocated) (size : buffer.size = pool.bufferSize) :
    ∃ after, releaseBuffer pool buffer = .ok after ∧ after.Sound ∧
      after.bufferSize = pool.bufferSize := by
  obtain ⟨reset, result, clear, size'⟩ := bufferReset_clear allocated
  refine ⟨_, ?_, sound.add clear.toAllocated (size'.trans size), rfl⟩
  simp only [releaseBuffer, result, bind, Except.bind, pure, Except.pure]

end Aio4c
