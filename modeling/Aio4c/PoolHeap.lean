import Aio4c.BufferHistory
import Aio4c.BufferPool
import Aio4c.QueueDrain

/-! Buffer pools with the addresses of their buffers: the pool's queue holds addresses,
and the holders of buffers share one heap. `none` is an access through a wild pointer. -/

set_option autoImplicit false

namespace Aio4c

/-- The pool, and of the heap the buffers that it made; the next fresh address is their
number. -/
structure HeapPool where
  buffers : Queue
  batch : Nat
  bufferSize : Int
  heap : Nat → Option Buffer
  created : Nat

namespace HeapPool

def newBuffer (malloc : Nat → Bool) (pool : HeapPool) : Option (Option Nat × HeapPool) := do
  match ← (Aio4c.newBuffer malloc malloc pool.bufferSize).toOption with
  | none => pure (none, pool)
  | some buffer => pure (some pool.created, { pool with
      heap := Function.update pool.heap pool.created (some buffer), created := pool.created + 1 })

/-- The loop that makes new buffers until memory runs out; each of them may be granted
its memory independently. -/
def addBuffers (malloc : Nat → Nat → Bool) : Nat → HeapPool → Option HeapPool
  | 0, pool => some pool
  | count + 1, pool => do
      match ← pool.newBuffer (malloc count) with
      | (none, pool) => pure pool
      | (some buffer, pool) => do
          let (_, buffers) ← enqueueDataItem pool.buffers buffer
          addBuffers malloc count { pool with buffers }

def newBufferPool (malloc : Nat → Nat → Bool) (bufferSize : Int) : Option HeapPool :=
  addBuffers malloc bufferPoolBatchSize
    { buffers := newQueue, batch := bufferPoolBatchSize, bufferSize, heap := fun _ => none
      created := 0 }

def queueDataItemGet : QueueItem → Option Nat
  | .data buffer => some buffer
  | _ => none

/-- `Dequeue(pool->buffers, item, false)`: the buffer, or `none` where it returns false. -/
def takeBuffer (pool : HeapPool) : Option (Option Nat × HeapPool) := do
  match ← dequeue pool.buffers .undefined false with
  | (.returned true item, buffers) => do
      pure (some (← queueDataItemGet item), { pool with buffers })
  | (_, buffers) => pure (none, { pool with buffers })

/-- `AllocateBuffer`: NULL is the inner `none`. -/
def allocateBuffer (malloc : Nat → Nat → Bool) (pool : HeapPool) :
    Option (Option Nat × HeapPool) := do
  match ← pool.takeBuffer with
  | (some buffer, pool) => pure (some buffer, pool)
  | (none, pool) => do
      let pool ← addBuffers malloc pool.batch pool
      pool.takeBuffer

/-- `ReleaseBuffer` of a buffer that the pool made. -/
def releaseBuffer (pool : HeapPool) (buffer : Nat) : Option HeapPool := do
  let reset ← (bufferReset (← pool.heap buffer)).toOption
  let (_, buffers) ← enqueueDataItem pool.buffers buffer
  pure { pool with buffers, heap := Function.update pool.heap buffer (some reset) }

/-- `FreeBuffer` of the buffers that were dequeued. A buffer that is not there any more
would be freed twice. -/
def freeBuffers : List QueueItem → (Nat → Option Buffer) → Option (List Nat × (Nat → Option Buffer))
  | [], heap => some ([], heap)
  | item :: items, heap => do
      let buffer ← queueDataItemGet item
      let _ ← heap buffer
      let (freed, heap) ← freeBuffers items (Function.update heap buffer none)
      pure (buffer :: freed, heap)

/-- `FreeBufferPool`: the calls of `FreeBuffer`, and what is left of the heap. -/
def freeBufferPool (pool : HeapPool) : Option (List Nat × (Nat → Option Buffer)) := do
  let (items, _) ← drainQueue pool.buffers .undefined
  freeBuffers items pool.heap

end HeapPool

/-! ## The holders -/

/-- The pool with the buffers that are handed out and the largest number that were at
the same time. -/
structure PoolSystem where
  pool : HeapPool
  held : List Nat
  peak : Nat

/-- What holders do: beside the calls of the library they copy into a buffer, and write
through the pointer to its bytes. -/
inductive PoolAction where
  | allocate (malloc : Nat → Nat → Bool)
  | release (buffer : Nat)
  | call (buffer : Nat) (call : BufferCall)
  | copy (buffer : Nat) (source : Buffer)
  | store (buffer : Nat) (offset : Int) (bytes : List UInt8)

def PoolSystem.hold (pool : HeapPool) (held : List Nat) (peak : Nat) : PoolSystem :=
  { pool, held, peak := max peak held.length }

/-- An operation of the holder of a buffer. -/
def PoolSystem.modify (state : PoolSystem) (buffer : Nat) (operation : Buffer → Access Buffer) :
    Option PoolSystem := do
  guard (buffer ∈ state.held)
  let after ← (operation (← state.pool.heap buffer)).toOption
  pure { state with
    pool := { state.pool with heap := Function.update state.pool.heap buffer (some after) } }

/-- A release goes through the pointer of the holder, which is NULL behind it. -/
def poolStep (state : PoolSystem) : PoolAction → Option PoolSystem
  | .allocate malloc => do
      let (buffer, pool) ← state.pool.allocateBuffer malloc
      pure (.hold pool (state.held ++ buffer.toList) state.peak)
  | .release buffer => do
      guard (buffer ∈ state.held)
      let pool ← state.pool.releaseBuffer buffer
      pure { state with pool, held := state.held.erase buffer }
  | .call buffer call => state.modify buffer fun before => bufferCall before call
  | .copy buffer source => state.modify buffer fun before => bufferCopy before source
  | .store buffer offset bytes => state.modify buffer fun before => do
      pure { before with data := ← writeBytes before.data offset bytes }

def PoolStep (before : PoolSystem) (action : PoolAction) (after : PoolSystem) : Prop :=
  poolStep before action = some after

/-- A pool that nobody holds a buffer of. -/
def newPoolSystem (pool : HeapPool) : PoolSystem := { pool, held := [], peak := 0 }

/-- What an operation has to respect: the caller's part in the checks of the buffer
functions, and the capacity. -/
def PoolWellFormed (state : PoolSystem) : PoolAction → Prop
  | .allocate _ | .release _ => True
  | .call buffer call => ∀ before ∈ state.pool.heap buffer,
      call.SizeWithin before.size ∧ call.Respects before
  | .copy _ source => source.Block ∧ source.Ordered ∧
      source.limit - source.position ≤ state.pool.bufferSize
  | .store _ offset bytes => 0 ≤ offset ∧ offset + bytes.length ≤ state.pool.bufferSize

instance (size : Int) : (call : BufferCall) → Decidable (call.SizeWithin size)
  | .get _ => inferInstanceAs (Decidable (_ ∧ _))
  | .put _ => inferInstanceAs (Decidable (_ ≤ _))
  | .flip | .position _ | .limit _ | .reset | .putString _ | .getString => isTrue trivial

instance (buffer : Buffer) : (call : BufferCall) → Decidable (call.Respects buffer)
  | .position _ | .limit _ => inferInstanceAs (Decidable (_ ≤ _))
  | .get _ | .put _ => inferInstanceAs (Decidable (_ < _))
  | .flip | .reset | .putString _ | .getString => isTrue trivial

instance (buffer : Buffer) : Decidable buffer.Block :=
  decidable_of_iff (0 ≤ buffer.size ∧ buffer.size + 2 < 2147483648 ∧
      (buffer.data.length : Int) = buffer.size + 2)
    ⟨fun ⟨nonneg, small, length⟩ => ⟨nonneg, small, length⟩,
      fun ⟨nonneg, small, length⟩ => ⟨nonneg, small, length⟩⟩

instance (state : PoolSystem) : (action : PoolAction) → Decidable (PoolWellFormed state action)
  | .allocate _ | .release _ => isTrue trivial
  | .call buffer call => inferInstanceAs (Decidable (∀ before ∈ state.pool.heap buffer,
      call.SizeWithin before.size ∧ call.Respects before))
  | .copy _ _ => inferInstanceAs (Decidable (_ ∧ _ ∧ _))
  | .store _ _ _ => inferInstanceAs (Decidable (_ ∧ _))

end Aio4c
