import Aio4c.BufferProperties

/-! Bytes carried through a buffer: appended in front of the position, turned
over by a flip, then read from the window between position and limit. -/

set_option autoImplicit false

namespace Aio4c

open SignedInt

/-- The bytes between position and limit. -/
def Buffer.window (buffer : Buffer) : List UInt8 :=
  (buffer.data.drop buffer.position.toNat).take (buffer.limit - buffer.position).toNat

/-- The bytes in front of the position. -/
def Buffer.front (buffer : Buffer) : List UInt8 :=
  buffer.data.take buffer.position.toNat

/-- A buffer as `BufferReset` leaves it, up to its bytes. -/
structure Buffer.Clear (buffer : Buffer) : Prop extends buffer.Allocated where
  start : buffer.position = 0
  whole : buffer.limit = buffer.size

theorem Buffer.Clear.ordered {buffer : Buffer} (clear : buffer.Clear) : buffer.Ordered := by
  have start := clear.start
  have whole := clear.whole
  have nonneg := clear.nonneg
  exact ⟨by omega, by omega, by omega⟩

theorem Buffer.Clear.front_eq {buffer : Buffer} (clear : buffer.Clear) : buffer.front = [] := by
  simp [Buffer.front, clear.start]

theorem bufferReset_clear {buffer : Buffer} (allocated : buffer.Allocated) :
    ∃ after, bufferReset buffer = .ok after ∧ after.Clear ∧ after.size = buffer.size := by
  obtain ⟨after, result, kept, _, size⟩ := bufferReset_ok allocated
  refine ⟨after, result, ⟨kept, ?_, ?_⟩, size⟩ <;>
  · obtain ⟨data, _, made⟩ := Access.bind_ok result
    cases made
    rfl

theorem Buffer.Allocated.reset {buffer after : Buffer} (allocated : buffer.Allocated)
    (result : bufferReset buffer = .ok after) : after.Clear := by
  obtain ⟨_, same, clear, _⟩ := bufferReset_clear allocated
  rw [same] at result
  cases result
  exact clear

theorem Buffer.window_length {buffer : Buffer} (block : buffer.Block) (ordered : buffer.Ordered) :
    (buffer.window.length : Int) = buffer.limit - buffer.position := by
  have nonneg := ordered.nonneg
  have below := ordered.below
  have within := ordered.within
  have length := block.length
  simp only [Buffer.window, List.length_take, List.length_drop]
  omega

theorem Buffer.window_eq_nil {buffer : Buffer} (drained : ¬ buffer.position < buffer.limit) :
    buffer.window = [] := by
  have empty : (buffer.limit - buffer.position).toNat = 0 := by omega
  rw [Buffer.window, empty, List.take_zero]

theorem Buffer.hasRemaining_of_window {buffer : Buffer} (window : buffer.window ≠ []) :
    bufferHasRemaining buffer = true := by
  apply decide_eq_true
  by_contra drained
  exact window (Buffer.window_eq_nil drained)

theorem remaining_ok {buffer : Buffer} (block : buffer.Block) (ordered : buffer.Ordered) :
    bufferRemaining buffer = buffer.limit - buffer.position := by
  have nonneg := ordered.nonneg
  have below := ordered.below
  have within := ordered.within
  have small := block.small
  exact int32_of_mem (by omega) (by omega)

theorem sizeT_remaining {buffer : Buffer} (block : buffer.Block) (ordered : buffer.Ordered) :
    sizeT (bufferRemaining buffer) = (buffer.limit - buffer.position).toNat := by
  have below := ordered.below
  have nonneg := ordered.nonneg
  have within := ordered.within
  have small := block.small
  rw [remaining_ok block ordered]
  exact sizeT_of_nonneg (by omega) (by omega)

/-! ## Appending and turning over -/

theorem Buffer.front_overwrite {buffer : Buffer} {bytes : List UInt8} (block : buffer.Block)
    (ordered : buffer.Ordered) (fits : buffer.position + bytes.length ≤ buffer.limit) :
    Buffer.front { buffer with
        data := buffer.data.take buffer.position.toNat ++ bytes ++
          buffer.data.drop (buffer.position.toNat + bytes.length)
        position := buffer.position + bytes.length } =
      buffer.front ++ bytes := by
  have nonneg := ordered.nonneg
  have within := ordered.within
  have length := block.length
  simp only [Buffer.front]
  rw [List.take_append_of_le_length (by simp; omega), List.take_of_length_le (by simp; omega)]

theorem bufferFlip_ordered {buffer : Buffer} (ordered : buffer.Ordered) :
    (bufferFlip buffer).Ordered :=
  ⟨le_refl _, ordered.nonneg, ordered.below.trans ordered.within⟩

theorem bufferFlip_window (buffer : Buffer) : (bufferFlip buffer).window = buffer.front := by
  simp [bufferFlip, Buffer.window, Buffer.front]

/-- `BufferCopy` hands over the window of the source, whatever the destination held. -/
theorem bufferCopy_ok {dst src : Buffer} (allocated : dst.Allocated) (block : src.Block)
    (ordered : src.Ordered) (fits : src.limit - src.position ≤ dst.size) :
    ∃ after, bufferCopy dst src = .ok after ∧ after.Allocated ∧ after.Ordered ∧
      after.size = dst.size ∧ after.window = src.window := by
  have nonneg := ordered.nonneg
  have below := ordered.below
  have within := ordered.within
  have length := block.length
  obtain ⟨reset, result, clear, size⟩ := bufferReset_clear allocated
  have start := clear.start
  have total := Buffer.window_length block ordered
  have resetLength := clear.length
  have read : readBytes src.data src.position (src.limit - src.position).toNat = .ok src.window :=
    readBytes_ok nonneg (by omega)
  have written := (clear.toBlock.overwrite src.window (le_refl 0) (by omega) 0 0).1
  refine ⟨_, ?_, clear.toAllocated.overwrite src.window (le_refl 0) (by omega)
    0 (src.limit - src.position), ⟨le_refl _, by simp only; omega, by simp only; omega⟩, size, ?_⟩
  · have room : ¬ src.limit - src.position > reset.size := by omega
    have cut := sizeT_remaining block ordered
    rw [remaining_ok block ordered] at cut
    simp only [bufferCopy, result, remaining_ok block ordered, cut, read, written, bind,
      Except.bind, pure, Except.pure, bufferLimit, if_neg room, start]
  · simp only [Buffer.window, Int.toNat_zero, List.take_zero, List.nil_append, List.drop_zero,
      Int.sub_zero]
    rw [List.take_append_of_le_length (by simp; omega), List.take_of_length_le (by simp)]

end Aio4c
